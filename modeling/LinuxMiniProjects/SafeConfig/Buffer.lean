import LinuxMiniProjects.Lib.CString
import LinuxMiniProjects.SafeConfig.Program

/-!
The loops of `read_param_config` and `write_param_config` in their buffer
(`main.c`).

Both loops take the buffer apart where it stands. `strtok_r` overwrites the
newlines with zeros, a carriage return at the end of a line is overwritten,
and so is the first equals sign, so that the parameter and the value are
strings. If it is not the parameter that `write_param_config` looks for,
the equals sign is stored back before the line is written.

The loops come to the same lines, assignments and calls of `write` as the
functions on texts: no string is damaged before it is used.
-/

namespace LinuxMiniProjects.SafeConfig

open Tokens CString
open Bytes (cString cString_of_notMem)

/-! ### The source -/

def cutCr (buf : Text) (p : ℕ) : Text :=
  let len := strlen buf p
  if 0 < len ∧ charAt buf (p + len - 1) = cr then buf.set (p + len - 1) 0 else buf

/-- `delimiter`: the first equals sign of the line at `p`, unless the line is
empty or a comment. -/
def delimiter (buf : Text) (p : ℕ) : Option ℕ :=
  if charAt buf p ≠ 0 ∧ charAt buf p ≠ hash then strchr buf p equals else none

/-- The loop of `read_param_config` with all pairs of strings that it
compares, as if it were not for `break`. There is no result if `fuel` turns
are not enough. -/
def parseLoop : ℕ → Strtok UInt8 → Option (List (Text × Text))
  | 0, _ => none
  | fuel + 1, r =>
      match r.token with
      | none => some []
      | some p =>
          let buf := cutCr r.buf p
          match delimiter buf p with
          | some d =>
              let buf := buf.set d 0
              (parseLoop fuel (strtokR nl buf r.state)).map
                ((strAt buf p, strAt buf (d + 1)) :: ·)
          | none => parseLoop fuel (strtokR nl buf r.state)

/-- The loop of `read_param_config`: the buffer and the place of the value,
if the parameter is found. -/
def readLoop (param : Text) : ℕ → Strtok UInt8 → Option (Option (Text × ℕ))
  | 0, _ => none
  | fuel + 1, r =>
      match r.token with
      | none => some none
      | some p =>
          let buf := cutCr r.buf p
          match delimiter buf p with
          | some d =>
              let buf := buf.set d 0
              if param = strAt buf p then some (some (buf, d + 1))
              else readLoop param fuel (strtokR nl buf r.state)
          | none => readLoop param fuel (strtokR nl buf r.state)

/-- The loop of `write_param_config` and what follows it: the calls of
`write`. -/
def writeLoop (s : Setting) (stack : Text) : ℕ → Bool → Strtok UInt8 → Option (List WriteOp)
  | 0, _, _ => none
  | fuel + 1, found, r =>
      match r.token with
      | none => some (if found then [] else [⟨.append, s.entry stack⟩])
      | some p =>
          let buf := cutCr r.buf p
          match delimiter buf p with
          | some d =>
              let cut := buf.set d 0
              if s.key = strAt cut p then
                (writeLoop s stack fuel true (strtokR nl cut r.state)).map
                  (⟨.setting, Setting.entry ⟨strAt cut p, s.value⟩ stack⟩ :: ·)
              else
                let buf := cut.set d equals
                (writeLoop s stack fuel found (strtokR nl buf r.state)).map
                  ([⟨.line, strAt buf p⟩, ⟨.newline, [nl]⟩] ++ ·)
          | none =>
              (writeLoop s stack fuel found (strtokR nl buf r.state)).map
                ([⟨.line, strAt buf p⟩, ⟨.newline, [nl]⟩] ++ ·)

def bufferOf (t : Text) : Text := t ++ [0]

def parse (t : Text) : Option (List (Text × Text)) :=
  parseLoop (t.length + 1) (strtokR nl (bufferOf t) 0)

/-- What `read_param_config` prints for the parameter. -/
def readParam (param t : Text) : Option (Option Text) :=
  (readLoop param (t.length + 1) (strtokR nl (bufferOf t) 0)).map
    (Option.map fun r => strAt r.1 r.2)

/-- `read_param_config` on a file. If the file is empty, there is a message
and the process exits. -/
def readParamConfig (param content : Text) : Option (Option Text) :=
  if content = [] then some none else readParam param (content.take (bufferSize - 1))

/-- What `write_param_config` writes. -/
def rewriteBuffer (s : Setting) (stack t : Text) : Option Text :=
  (writeLoop s stack (t.length + 1) false (strtokR nl (bufferOf t) 0)).map
    (List.flatMap fun op => op.bytes)

/-! ### One line -/

section Line

variable {buf token : Text} {p q : ℕ}

theorem strAt_cutCr (h : strAt buf p = token) : strAt (cutCr buf p) p = stripCr token := by
  unfold cutCr strlen
  rw [h]
  cases token using List.reverseRecOn with
  | nil => exact h
  | append_singleton line c =>
      have hplace : p + (line ++ [c]).length - 1 = p + line.length := by
        rw [List.length_append, List.length_singleton]
        omega
      dsimp only
      rw [hplace, charAt_of_strAt h]
      by_cases hc : c = cr
      · rw [if_pos ⟨by simp, hc⟩, strAt_set_zero h (by simp), hc, stripCr_append_cr]
      · rw [if_neg fun hcr => hc hcr.2, h, stripCr_of_getLast? (by simpa using hc)]

theorem strAt_cutCr_of_le (h : strAt buf p = token) (hq : p + token.length ≤ q) :
    strAt (cutCr buf p) q = strAt buf q := by
  unfold cutCr strlen
  rw [h]
  dsimp only
  split
  next hcr => exact strAt_set_of_lt (by omega) 0
  next => rfl

theorem delimiter_of_assignment {key value : Text} (h : strAt buf p = stripCr token)
    (ha : assignment token = some (key, value)) : delimiter buf p = some (p + key.length) := by
  obtain ⟨hline, hkey, hhash⟩ := assignment_eq_some.mp ha
  rw [hline] at h
  have hnot : charAt buf p ≠ 0 ∧ charAt buf p ≠ hash := by
    constructor
    · rw [Ne, charAt_eq_zero_iff, h]
      simp
    · cases key with
      | nil =>
          rw [show charAt buf p = equals from charAt_of_strAt (x := []) h]
          decide
      | cons c key =>
          rw [show charAt buf p = c from charAt_of_strAt (x := []) h]
          simpa using hhash
  rw [delimiter, if_pos hnot, strchr_of_strAt h hkey]

theorem delimiter_eq_none (h : strAt buf p = stripCr token) (ha : assignment token = none) :
    delimiter buf p = none := by
  unfold delimiter
  split
  next hstart =>
    refine strchr_eq_none fun hmem => ?_
    rw [h] at hmem
    obtain ⟨key, value, hline, hkey⟩ := List.eq_append_cons_of_mem hmem
    -- a line with an equals sign that does not begin with a hash is an assignment
    have hsome : assignment token = some (key, value) := by
      refine assignment_eq_some.mpr ⟨hline, hkey, fun hhash => ?_⟩
      cases key with
      | nil => cases hhash
      | cons c key =>
          obtain rfl : c = hash := by simpa using hhash
          rw [hline] at h
          exact hstart.2 (charAt_of_strAt (x := []) h)
    rw [ha] at hsome
    cases hsome
  next => rfl

/-- What the loops find in the line at `p`: no assignment. The string at `q`
is what `strtok_r` goes on with. -/
structure Skips (buf token : Text) (p q : ℕ) (rest : Text) : Prop where
  assignment_eq : assignment token = none
  delimiter_eq : delimiter buf p = none
  line_eq : strAt buf p = stripCr token
  rest_eq : strAt buf q = rest

structure Splits (buf token : Text) (p q : ℕ) (rest : Text) (d : ℕ) (key value : Text) :
    Prop where
  assignment_eq : assignment token = some (key, value)
  delimiter_eq : delimiter buf p = some d
  line_eq : strAt buf p = stripCr token
  rest_eq : strAt buf q = rest
  key_eq : strAt (buf.set d 0) p = key
  value_eq : strAt (buf.set d 0) (d + 1) = value
  rest_cut : strAt (buf.set d 0) q = rest
  restored : (buf.set d 0).set d equals = buf

theorem turn_spec {rest : Text} (h : strAt buf p = token) (hrest : strAt buf q = rest)
    (hle : p + token.length ≤ q) :
    Skips (cutCr buf p) token p q rest ∨
      ∃ d key value, Splits (cutCr buf p) token p q rest d key value := by
  have hline := strAt_cutCr h
  have hrest' := (strAt_cutCr_of_le h hle).trans hrest
  cases ha : assignment token with
  | none => exact .inl ⟨ha, delimiter_eq_none hline ha, hline, hrest'⟩
  | some a =>
      obtain ⟨key, value⟩ := a
      obtain ⟨hsplit, -⟩ := assignment_eq_some.mp ha
      have hstr := hline.trans hsplit
      -- the equals sign is in the line, and before what follows it
      have hlt : p + key.length < q := by
        have hlen := congrArg List.length hsplit
        have hshort := length_stripCr_le token
        rw [List.length_append, List.length_cons] at hlen
        omega
      refine .inr ⟨p + key.length, key, value, ha, delimiter_of_assignment hline ha, hline, hrest',
        strAt_set_zero hstr (by simp), ?_, ?_, set_set_of_strAt hstr 0⟩
      · rw [strAt_set_of_lt (Nat.lt_succ_self _)]
        exact strAt_add (x := [equals]) (strAt_add hstr)
      · rw [strAt_set_of_lt hlt, hrest']

end Line

/-! ### The loops -/

section Loops

variable {fuel : ℕ} {r : Strtok UInt8} {ts : List Text}

theorem yields_of_strAt {buf rest : Text} {q : ℕ} (h : strAt buf q = rest) :
    (strtokR nl buf q).Yields nl (tokens nl rest) := h ▸ yields_strtokR nl buf q

theorem parseLoop_eq (h : r.Yields nl ts) (hfuel : ts.length < fuel) :
    parseLoop fuel r = some (ts.filterMap assignment) := by
  induction fuel generalizing r ts with
  | zero => exact absurd hfuel (Nat.not_lt_zero _)
  | succ fuel ih =>
      cases h with
      | nil token => simp [parseLoop, token]
      | cons token_eq str state le =>
          have hfuel' := Nat.lt_of_succ_lt_succ hfuel
          rw [parseLoop]
          simp only [token_eq]
          obtain hskip | ⟨d, key, value, hsplit⟩ := turn_spec str state le
          · simp only [hskip.delimiter_eq]
            rw [ih (yields_of_strAt hskip.rest_eq) hfuel',
              List.filterMap_cons_none hskip.assignment_eq]
          · simp only [hsplit.delimiter_eq]
            rw [ih (yields_of_strAt hsplit.rest_cut) hfuel', hsplit.key_eq, hsplit.value_eq,
              List.filterMap_cons_some hsplit.assignment_eq, Option.map_some]

/-- The value that `read_param_config` prints is the one of the first
assignment to the parameter. -/
theorem readLoop_eq (param : Text) (h : r.Yields nl ts) (hfuel : ts.length < fuel) :
    (readLoop param fuel r).map (Option.map fun r => strAt r.1 r.2) =
      some (((ts.filterMap assignment).find? fun a => a.1 = param).map Prod.snd) := by
  induction fuel generalizing r ts with
  | zero => exact absurd hfuel (Nat.not_lt_zero _)
  | succ fuel ih =>
      cases h with
      | nil token => simp [readLoop, token]
      | cons token_eq str state le =>
          have hfuel' := Nat.lt_of_succ_lt_succ hfuel
          rw [readLoop]
          simp only [token_eq]
          obtain hskip | ⟨d, key, value, hsplit⟩ := turn_spec str state le
          · simp only [hskip.delimiter_eq]
            rw [ih (yields_of_strAt hskip.rest_eq) hfuel',
              List.filterMap_cons_none hskip.assignment_eq]
          · simp only [hsplit.delimiter_eq, hsplit.key_eq]
            rw [List.filterMap_cons_some hsplit.assignment_eq, List.find?_cons]
            by_cases hkey : param = key
            · rw [if_pos hkey, decide_eq_true hkey.symm, Option.map_some, Option.map_some,
                hsplit.value_eq]
              rfl
            · rw [if_neg hkey, decide_eq_false (Ne.symm hkey),
                ih (yields_of_strAt hsplit.rest_cut) hfuel']

theorem writeLoop_eq (s : Setting) (stack : Text) (found : Bool) (h : r.Yields nl ts)
    (hfuel : ts.length < fuel) :
    writeLoop s stack fuel found r = some (ts.flatMap (s.tokenOps stack) ++
      if found || ts.any s.hits then [] else [⟨.append, s.entry stack⟩]) := by
  induction fuel generalizing r ts found with
  | zero => exact absurd hfuel (Nat.not_lt_zero _)
  | succ fuel ih =>
      cases h with
      | nil token => simp [writeLoop, token]
      | @cons p token rest token_eq str state le =>
          have hfuel' := Nat.lt_of_succ_lt_succ hfuel
          rw [writeLoop]
          simp only [token_eq]
          obtain hskip | ⟨d, key, value, hsplit⟩ := turn_spec str state le
          · have hhits : s.hits token = false := by
              rw [Setting.hits, hskip.assignment_eq]
              rfl
            simp only [hskip.delimiter_eq]
            rw [ih found (yields_of_strAt hskip.rest_eq) hfuel', hskip.line_eq]
            simp [Setting.tokenOps, hhits]
          · simp only [hsplit.delimiter_eq, hsplit.key_eq, hsplit.restored]
            by_cases hkey : s.key = key
            · have hhits : s.hits token = true := by
                rw [Setting.hits, hsplit.assignment_eq]
                simp [hkey]
              rw [if_pos hkey, ih true (yields_of_strAt hsplit.rest_cut) hfuel', ← hkey]
              simp [Setting.tokenOps, hhits]
            · have hhits : s.hits token = false := by
                rw [Setting.hits, hsplit.assignment_eq]
                simp [Ne.symm hkey]
              rw [if_neg hkey, ih found (yields_of_strAt hsplit.rest_eq) hfuel', hsplit.line_eq]
              simp [Setting.tokenOps, hhits]

end Loops

/-! ### Texts -/

section Texts

variable {t : Text}

theorem strAt_bufferOf (t : Text) : strAt (bufferOf t) 0 = cString t := strAt_concat_zero t

theorem yields_bufferOf (t : Text) :
    (strtokR nl (bufferOf t) 0).Yields nl (tokens nl (cString t)) :=
  yields_of_strAt (strAt_bufferOf t)

theorem length_tokens_cString_lt (t : Text) : (tokens nl (cString t)).length < t.length + 1 :=
  Nat.lt_succ_of_le ((length_tokens_le _).trans (List.takeWhile_sublist _).length_le)

theorem parse_eq (t : Text) : parse t = some (assignments (cString t)) :=
  parseLoop_eq (yields_bufferOf t) (length_tokens_cString_lt t)

theorem readParam_eq (param t : Text) :
    readParam param t =
      some (((assignments (cString t)).find? fun a => a.1 = param).map Prod.snd) :=
  readLoop_eq param (yields_bufferOf t) (length_tokens_cString_lt t)

/-- The loop in its buffer and the process agree on the calls of `write`. -/
theorem writeLoop_bufferOf (s : Setting) (stack t : Text) :
    writeLoop s stack (t.length + 1) false (strtokR nl (bufferOf t) 0) =
      some (s.writeOps stack (cString t)) :=
  writeLoop_eq s stack false (yields_bufferOf t) (length_tokens_cString_lt t)

theorem Setting.Fits.rewriteBuffer_eq {s : Setting} (hs : s.Fits) (stack t : Text) :
    rewriteBuffer s stack t = some (s.rewrite (cString t)) := by
  rw [rewriteBuffer, writeLoop_bufferOf, Option.map_some, ← hs.bytes_writeOps stack]

end Texts

/-! ### Writing and reading back -/

def Setting.replace (s : Setting) (a : Text × Text) : Text × Text :=
  if a.1 = s.key then (s.key, s.value) else a

def Setting.apply (s : Setting) (as : List (Text × Text)) : List (Text × Text) :=
  if as.any (·.1 = s.key) then as.map s.replace else as ++ [(s.key, s.value)]

def SingleCr (t : Text) : Prop := ∀ token ∈ tokens nl t, ¬ [cr, cr] <:+ token

instance (t : Text) : Decidable (SingleCr t) := inferInstanceAs (Decidable (∀ _ ∈ _, _))

section Apply

variable {s : Setting} {t : Text} {as : List (Text × Text)}

@[simp] theorem Setting.fst_replace (a : Text × Text) : (s.replace a).1 = a.1 := by
  unfold Setting.replace
  split
  next h => exact h.symm
  next => rfl

theorem Setting.map_replace_of_not_any (h : ¬ as.any (·.1 = s.key) = true) :
    as.map s.replace = as := by
  have hid : as.map s.replace = as.map id := List.map_congr_left fun a ha =>
    if_neg fun hkey => h (List.any_eq_true.mpr ⟨a, ha, by simpa using hkey⟩)
  rwa [List.map_id] at hid

theorem Setting.any_apply (s : Setting) (as : List (Text × Text)) :
    (s.apply as).any (·.1 = s.key) = true := by
  unfold Setting.apply
  split
  next h =>
    obtain ⟨a, ha, hkey⟩ := List.any_eq_true.mp h
    exact List.any_eq_true.mpr ⟨_, List.mem_map_of_mem ha, by simpa using hkey⟩
  next => simp

theorem Setting.find?_map_replace (param : Text) :
    (as.map s.replace).find? (fun a => a.1 = param) =
      (as.find? fun a => a.1 = param).map s.replace := by
  rw [List.find?_map]
  congr 2
  funext a
  rw [Function.comp_apply, s.fst_replace]

theorem Setting.find?_apply_self (s : Setting) (as : List (Text × Text)) :
    ((s.apply as).find? fun a => a.1 = s.key).map Prod.snd = some s.value := by
  cases ha : as.find? fun a => a.1 = s.key with
  | none =>
      have hnot : ¬ as.any (·.1 = s.key) = true := by
        intro hany
        obtain ⟨a, hmem, hkey⟩ := List.any_eq_true.mp hany
        exact List.find?_eq_none.mp ha a hmem hkey
      rw [Setting.apply, if_neg hnot, List.find?_append, ha]
      simp
  | some a =>
      have hkey := List.find?_some ha
      rw [Setting.apply, if_pos (List.any_eq_true.mpr ⟨a, List.mem_of_find?_eq_some ha, hkey⟩),
        Setting.find?_map_replace, ha, Option.map_some, Setting.replace,
        if_pos (by simpa using hkey), Option.map_some]

theorem Setting.find?_apply_of_ne {param : Text} (h : param ≠ s.key) :
    (s.apply as).find? (fun a => a.1 = param) = as.find? fun a => a.1 = param := by
  unfold Setting.apply
  split
  next =>
    rw [Setting.find?_map_replace]
    cases ha : as.find? fun a => a.1 = param with
    | none => rfl
    | some a =>
        obtain rfl : a.1 = param := by simpa using List.find?_some ha
        rw [Option.map_some, Setting.replace, if_neg h]
  next =>
    rw [List.find?_append, List.find?_cons, decide_eq_false (Ne.symm h), List.find?_nil,
      Option.or_none]

theorem Setting.apply_apply {s' : Setting} (hkey : s'.key = s.key) :
    s'.apply (s.apply as) = s'.apply as := by
  have hreplace : ∀ a, s'.replace (s.replace a) = s'.replace a := by
    intro a
    by_cases ha : a.1 = s.key
    · rw [Setting.replace, s.fst_replace, hkey, if_pos ha, Setting.replace, hkey, if_pos ha]
    · rw [show s.replace a = a from if_neg ha]
  have hany : (s.apply as).any (·.1 = s'.key) = true := hkey ▸ s.any_apply as
  rw [Setting.apply, if_pos hany]
  unfold Setting.apply
  rw [hkey]
  split
  next =>
    rw [List.map_map]
    exact List.map_congr_left fun a _ => hreplace a
  next h =>
    rw [List.map_append, Setting.map_replace_of_not_any (hkey ▸ h)]
    simp [Setting.replace, hkey]

theorem SingleCr.stripCr_value (h : SingleCr t) {a : Text × Text} (ha : a ∈ assignments t) :
    stripCr a.2 = a.2 := by
  obtain ⟨token, htoken, hassign⟩ := List.mem_filterMap.mp ha
  obtain ⟨key, value⟩ := a
  obtain ⟨hstrip, -⟩ := assignment_eq_some.mp hassign
  refine stripCr_of_getLast? fun hlast => h token htoken ?_
  obtain ⟨value', rfl⟩ := List.getLast?_eq_some_iff.mp hlast
  rcases eq_of_stripCr_eq hstrip with rfl | rfl
  · -- the line ends in a carriage return, and that would have been cut off
    rw [← List.cons_append, ← List.append_assoc, stripCr_append_cr] at hstrip
    simp at hstrip
  · exact ⟨key ++ equals :: value', by simp⟩

theorem Setting.WellFormed.assignments_rewrite_eq (h : s.WellFormed)
    (hclean : ∀ a ∈ assignments t, stripCr a.2 = a.2) :
    assignments (s.rewrite t) = s.apply (assignments t) := by
  have hmap : (assignments t).map s.update = (assignments t).map s.replace := by
    refine List.map_congr_left fun a ha => ?_
    rw [Setting.update, Setting.replace, hclean a ha]
  rw [h.assignments_rewrite, hmap, Setting.apply]
  split
  next => rw [List.append_nil]
  next hany => rw [Setting.map_replace_of_not_any hany]

theorem Setting.WellFormed.stripCr_apply (h : s.WellFormed)
    (hclean : ∀ a ∈ as, stripCr a.2 = a.2) {a : Text × Text} (ha : a ∈ s.apply as) :
    stripCr a.2 = a.2 := by
  have hvalue : stripCr s.value = s.value := stripCr_of_getLast? h.value_cr
  unfold Setting.apply at ha
  split at ha
  next =>
    obtain ⟨b, hb, rfl⟩ := List.mem_map.mp ha
    unfold Setting.replace
    split
    · exact hvalue
    · exact hclean b hb
  next =>
    rcases List.mem_append.mp ha with ha | ha
    · exact hclean a ha
    · rw [List.mem_singleton.mp ha]
      exact hvalue

theorem Setting.zero_not_mem_rewrite (hs : 0 ∉ s.line) (ht : 0 ∉ t) : 0 ∉ s.rewrite t := by
  intro hmem
  obtain ⟨l, hl, hzero⟩ := List.mem_flatMap.mp hmem
  rcases List.mem_append.mp hzero with hzero | hzero
  · rcases List.mem_append.mp hl with hl | hl
    · obtain ⟨token, htoken, rfl⟩ := List.mem_map.mp hl
      unfold Setting.rewriteLine at hzero
      split at hzero
      · exact hs hzero
      · exact ht (mem_of_mem_tokens htoken (mem_of_mem_stripCr hzero))
    · split at hl
      · cases hl
      · exact hs (List.mem_singleton.mp hl ▸ hzero)
  · exact absurd (List.mem_singleton.mp hzero) (by decide)

end Apply

/-- **Writing and reading.** Let no line of a text end in more than one
carriage return. The assignments of the new text are those of the old one
with the value of the parameter replaced, or with the setting at the end
if the parameter was not there. So reading the parameter finds the new
value, any other parameter reads as before, and the second of two writes
to the same parameter overrides the first. -/
theorem write_then_read {t : Text} (ht : 0 ∉ t) (hcr : SingleCr t) {s : Setting}
    (h : s.WellFormed) (hs : 0 ∉ s.line) (stack : Text) :
    ∃ as t', parse t = some as ∧ rewriteBuffer s stack t = some t' ∧
      parse t' = some (s.apply as) ∧ readParam s.key t' = some (some s.value) ∧
      (∀ param, param ≠ s.key → readParam param t' = readParam param t) ∧
      ∀ value, Setting.WellFormed ⟨s.key, value⟩ → 0 ∉ value →
        ∃ t₁ t₂, rewriteBuffer ⟨s.key, value⟩ stack t' = some t₁ ∧
          rewriteBuffer ⟨s.key, value⟩ stack t = some t₂ ∧ parse t₁ = parse t₂ := by
  have hclean : ∀ a ∈ assignments t, stripCr a.2 = a.2 := fun a ha => hcr.stripCr_value ha
  have ht' := s.zero_not_mem_rewrite hs ht
  have happly := h.assignments_rewrite_eq hclean
  have hstr := cString_of_notMem ht
  have hstr' := cString_of_notMem ht'
  refine ⟨assignments t, s.rewrite t, ?_, ?_, ?_, ?_, ?_, ?_⟩
  · rw [parse_eq, hstr]
  · rw [h.fits.rewriteBuffer_eq, hstr]
  · rw [parse_eq, hstr', happly]
  · rw [readParam_eq, hstr', happly, s.find?_apply_self]
  · intro param hparam
    rw [readParam_eq, readParam_eq, hstr, hstr', happly, Setting.find?_apply_of_ne hparam]
  · intro value hwf hvalue
    have hline : 0 ∉ Setting.line ⟨s.key, value⟩ := by
      have hkey : 0 ∉ s.key := fun hmem => hs (List.mem_append_left _ hmem)
      have hne : (0 : UInt8) ≠ equals := by decide
      simp [Setting.line, hkey, hvalue, hne]
    have hclean' : ∀ a ∈ assignments (s.rewrite t), stripCr a.2 = a.2 := by
      rw [happly]
      exact fun a ha => h.stripCr_apply hclean ha
    refine ⟨_, _, hwf.fits.rewriteBuffer_eq stack _, hwf.fits.rewriteBuffer_eq stack _, ?_⟩
    rw [parse_eq, parse_eq, hstr, hstr', cString_of_notMem (Setting.zero_not_mem_rewrite hline ht'),
      cString_of_notMem (Setting.zero_not_mem_rewrite hline ht), hwf.assignments_rewrite_eq hclean',
      hwf.assignments_rewrite_eq hclean, happly]
    exact congrArg some (Setting.apply_apply (show Setting.key ⟨s.key, value⟩ = s.key from rfl))

/-- The lines `a=1` and `b=2`, the first with a carriage return, and the
setting `b=3`. -/
theorem write_then_read_carriageReturn :
    let t : Text := [97, 61, 49, 13, 10, 98, 61, 50, 10]
    let s : Setting := ⟨[98], [51]⟩
    ∃ as t', parse t = some as ∧ rewriteBuffer s [] t = some t' ∧ parse t' = some (s.apply as) ∧
      readParam [98] t' = some (some [51]) ∧ readParam [97] t' = readParam [97] t := by
  intro t s
  obtain ⟨as, t', hparse, hrewrite, hparse', hread, hothers, -⟩ :=
    write_then_read (t := t) (by decide) (by decide +kernel) (s := s) (by decide) (by decide) []
  exact ⟨as, t', hparse, hrewrite, hparse', hread, hothers [97] (by decide)⟩

end LinuxMiniProjects.SafeConfig
