import LinuxMiniProjects.SafeConfig.Outcome

/-!
Which lines a write keeps.

A write should change the assignments to its parameter and nothing else.
But it sees only the first 255 bytes of the file, up to a zero, and what
lies behind them is not in the new file. And if the new line does not fit
the line buffer, its newline is lost: the next line of the file is then
glued to what lies behind the buffer.

`kept` are the lines that should be there, `survivors` are those that
are, whatever lies behind the buffer. If the setting is a plain one, the
write keeps all lines exactly if the first are among the second. A setting
that is not plain may bring a lost line back, in its own text.
-/

namespace LinuxMiniProjects.SafeConfig

open Tokens

/-- The lines of a text that a write should keep: those that are not empty
and do not assign to the parameter, without a carriage return at their
end. -/
def Setting.kept (s : Setting) (t : Text) : List Text :=
  (((tokens nl t).filter fun token => !s.hits token).map stripCr).filter fun l => l ≠ []

/-- The lines that are in the new text: of those that should be kept, the
ones that are not `glued` to a line before them. -/
def Setting.survivors (s : Setting) : Bool → List Text → List Text
  | _, [] => []
  | glued, token :: ts =>
      if s.hits token then s.survivors (!s.Fits) ts
      else if glued = true ∨ stripCr token = [] then s.survivors false ts
      else stripCr token :: s.survivors false ts

/-- The lines of the file that are to be kept are lines of the new file, in
the same order, when the write is over. -/
def Setting.KeepsLines (s : Setting) (content : Text) : Prop :=
  ∀ stack tmp bak s', Succeeds s stack (Sys.init content tmp bak) s' →
    ∃ new, s'.content = some new ∧ (s.kept content).Sublist (tokens nl new)

structure Setting.Plain (s : Setting) : Prop where
  key_nl : nl ∉ s.key
  key_equals : equals ∉ s.key
  key_hash : s.key.head? ≠ some hash
  value_nl : nl ∉ s.value

instance (s : Setting) : Decidable s.Plain :=
  decidable_of_iff (nl ∉ s.key ∧ equals ∉ s.key ∧ s.key.head? ≠ some hash ∧ nl ∉ s.value)
    ⟨fun ⟨h₁, h₂, h₃, h₄⟩ => ⟨h₁, h₂, h₃, h₄⟩,
      fun h => ⟨h.key_nl, h.key_equals, h.key_hash, h.value_nl⟩⟩

def Setting.lineBytes (s : Setting) (stack : Text) (ts : List Text) : Text :=
  (ts.flatMap (s.tokenOps stack)).flatMap fun op => op.bytes

section Lines

variable {s : Setting} {stack : Text}

theorem nl_not_mem_stripCr {token : Text} (h : nl ∉ token) : nl ∉ stripCr token :=
  fun hmem => h (mem_of_mem_stripCr hmem)

theorem Setting.hits_iff {token : Text} :
    s.hits token = true ↔ ∃ value, assignment token = some (s.key, value) := by
  unfold Setting.hits
  cases assignment token with
  | none => simp
  | some a => simp [Prod.ext_iff]

@[simp] theorem Setting.lineBytes_nil : s.lineBytes stack [] = [] := rfl

theorem Setting.lineBytes_of_hits {token : Text} (h : s.hits token = true) (ts : List Text) :
    s.lineBytes stack (token :: ts) = s.entry stack ++ s.lineBytes stack ts := by
  simp [Setting.lineBytes, Setting.tokenOps, h]

theorem Setting.lineBytes_of_not_hits {token : Text} (h : ¬ s.hits token = true)
    (ts : List Text) :
    s.lineBytes stack (token :: ts) = stripCr token ++ nl :: s.lineBytes stack ts := by
  simp [Setting.lineBytes, Setting.tokenOps, h]

theorem Setting.written_eq (s : Setting) (stack content : Text) :
    s.written stack content = s.lineBytes stack (tokens nl (bufText content)) ++
      if (tokens nl (bufText content)).any s.hits then [] else s.entry stack := by
  unfold Setting.written Setting.writeOps Setting.lineBytes
  rw [List.flatMap_append]
  split <;> simp

/-- **What survives is in the new text**, whatever stands before it and
behind it. The induction is over the lines; `X` is what the next line is
glued to. -/
theorem Setting.survivors_sublist (s : Setting) (stack D : Text) {ts : List Text}
    (hts : ∀ token ∈ ts, nl ∉ token) (glued : Bool) {X : Text} (hX : glued = false → X = []) :
    (s.survivors glued ts).Sublist (tokens nl (X ++ (s.lineBytes stack ts ++ D))) := by
  induction ts generalizing glued X with
  | nil => exact List.nil_sublist _
  | cons token ts ih =>
      rw [List.forall_mem_cons] at hts
      have hnext := ih hts.2 false (X := []) fun _ => rfl
      rw [List.nil_append] at hnext
      unfold Setting.survivors
      by_cases hhits : s.hits token = true
      · rw [if_pos hhits, s.lineBytes_of_hits hhits]
        by_cases hfits : s.Fits
        · rw [hfits.entry_eq, decide_eq_true hfits, Bool.not_true]
          simp only [List.append_assoc, List.cons_append, List.nil_append]
          rw [← List.append_assoc, tokens_append_sep]
          exact hnext.trans (List.sublist_append_right _ _)
        · rw [decide_eq_false hfits, Bool.not_false]
          have hglued := ih hts.2 true (X := X ++ s.entry stack) (by simp)
          simpa only [List.append_assoc] using hglued
      · rw [if_neg hhits, s.lineBytes_of_not_hits hhits]
        simp only [List.append_assoc, List.cons_append]
        split
        next =>
          rw [← List.append_assoc, tokens_append_sep]
          exact hnext.trans (List.sublist_append_right _ _)
        next hkept =>
          rw [not_or, Bool.not_eq_true] at hkept
          rw [hX hkept.1, List.nil_append, tokens_append_cons (nl_not_mem_stripCr hts.1),
            if_neg hkept.2]
          exact hnext.cons_cons _

end Lines

/-! ### Plain settings -/

section Plain

variable {s : Setting} {stack : Text}

theorem Setting.hits_stripCr (s : Setting) (token : Text) :
    s.hits (stripCr token) = s.hits token := by
  unfold Setting.hits
  rw [assignment_stripCr]
  cases assignment token <;> rfl

theorem Setting.filter_kept (s : Setting) (t : Text) :
    (s.kept t).filter (fun l => !s.hits l) = s.kept t := by
  refine List.filter_eq_self.mpr fun l hl => ?_
  obtain ⟨token, htoken, rfl⟩ := List.mem_map.mp (List.mem_of_mem_filter hl)
  rw [s.hits_stripCr]
  exact (List.mem_filter.mp htoken).2

def Setting.Starts (s : Setting) (l : Text) : Prop := nl ∉ l ∧ ∃ v, l = s.key ++ equals :: v

theorem Setting.Starts.append {l : Text} (h : s.Starts l) {t : Text} (ht : nl ∉ t) :
    s.Starts (l ++ t) := by
  obtain ⟨hl, v, rfl⟩ := h
  refine ⟨?_, v ++ t, ?_⟩
  · rw [List.mem_append, not_or]
    exact ⟨hl, ht⟩
  · rw [List.append_assoc, List.cons_append]

theorem Setting.Starts.glue {X l : Text} (h : s.Starts l) (hX : X = [] ∨ s.Starts X) :
    s.Starts (X ++ l) := by
  rcases hX with rfl | hX
  · exact h
  · exact hX.append h.1

theorem Setting.Plain.hits_of_starts (h : s.Plain) {l : Text} (hl : s.Starts l) :
    s.hits l = true := by
  obtain ⟨-, v, rfl⟩ := hl
  unfold Setting.hits
  rw [assignment_eq_some.mpr ⟨stripCr_append_equals s.key v, h.key_equals, h.key_hash⟩]
  simp

theorem Setting.Plain.starts_line (h : s.Plain) : s.Starts s.line := by
  refine ⟨?_, s.value, rfl⟩
  have hne : nl ≠ equals := by decide
  simp [Setting.line, h.key_nl, h.value_nl, hne]

/-- A line that does not fit is cut off in the buffer, and its newline with
it. -/
theorem Setting.entry_of_not_fits (h : ¬ s.Fits) (stack : Text) :
    s.entry stack = s.line.take (bufferSize - 1) ++
      (0 :: stack).take (s.line.length + 2 - bufferSize) := by
  unfold Setting.Fits at h
  have hlen := s.length_line
  have hle : bufferSize - 1 ≤ s.line.length := by omega
  have hfront : (s.line.take (bufferSize - 1)).length = bufferSize - 1 := by
    rw [List.length_take, Nat.min_eq_left hle]
  have hcount : s.line.length + 1 - (bufferSize - 1) = s.line.length + 2 - bufferSize := by
    have hpos : 1 ≤ bufferSize := by decide
    omega
  show ((s.line ++ [nl]).take (bufferSize - 1) ++ 0 :: stack).take (s.line ++ [nl]).length = _
  rw [List.take_append_of_le_length hle, List.length_append, List.length_singleton,
    List.take_append, hfront, hcount, List.take_of_length_le (by omega)]

theorem Setting.Plain.nl_not_mem_entry (h : s.Plain) (hfits : ¬ s.Fits) (hstack : nl ∉ stack) :
    nl ∉ s.entry stack := by
  rw [Setting.entry_of_not_fits hfits, List.mem_append, not_or]
  refine ⟨fun hmem => h.starts_line.1 (List.mem_of_mem_take hmem), fun hmem => ?_⟩
  rcases List.mem_cons.mp (List.mem_of_mem_take hmem) with hzero | hmem
  · exact absurd hzero (by decide)
  · exact hstack hmem

/-- The parameter and the equals sign are in the buffer, if they fit. -/
theorem Setting.Plain.starts_entry (h : s.Plain) (hfits : ¬ s.Fits)
    (hkey : s.key.length + 1 < bufferSize) (hstack : nl ∉ stack) : s.Starts (s.entry stack) := by
  refine ⟨h.nl_not_mem_entry hfits hstack, ?_⟩
  have htake : s.line.take (bufferSize - 1) =
      s.key ++ equals :: s.value.take (bufferSize - 1 - (s.key.length + 1)) := by
    rw [Setting.line, List.take_append, List.take_of_length_le (by omega)]
    congr 1
    rw [List.take_cons (by omega)]
    rfl
  rw [Setting.entry_of_not_fits hfits, htake, List.append_assoc, List.cons_append]
  exact ⟨_, rfl⟩

theorem Setting.Plain.filter_starts (h : s.Plain) {l : Text} (hl : s.Starts l) :
    (tokens nl l).filter (fun l => !s.hits l) = [] := by
  have hne : l ≠ [] := by
    obtain ⟨-, v, rfl⟩ := hl
    simp
  rw [tokens_of_not_mem hl.1, if_neg hne, List.filter_cons, h.hits_of_starts hl, Bool.not_true,
    if_neg Bool.false_ne_true, List.filter_nil]

theorem nil_or_starts {glued : Bool} {X : Text} (h : if glued then s.Starts X else X = []) :
    X = [] ∨ s.Starts X := by
  cases glued with
  | false => exact .inl h
  | true => exact .inr h

/-- The lines of the new text that are no assignments to the parameter.
Nothing else is in it if there is no newline behind the buffer. `X` is what
the next line is glued to, and `E` stands at the end. -/
theorem Setting.Plain.filter_tokens (h : s.Plain)
    (hentry : ¬ s.Fits → s.Starts (s.entry stack)) {E : Text}
    (hE : ∀ X, X = [] ∨ s.Starts X → (tokens nl (X ++ E)).filter (fun l => !s.hits l) = [])
    {ts : List Text} (hts : ∀ token ∈ ts, nl ∉ token) (glued : Bool) {X : Text}
    (hX : if glued then s.Starts X else X = []) :
    (tokens nl (X ++ (s.lineBytes stack ts ++ E))).filter (fun l => !s.hits l) =
      s.survivors glued ts := by
  induction ts generalizing glued X with
  | nil =>
      rw [Setting.lineBytes_nil, List.nil_append]
      exact hE X (nil_or_starts hX)
  | cons token ts ih =>
      have hX' := nil_or_starts hX
      rw [List.forall_mem_cons] at hts
      have hnext := ih hts.2 false (X := []) rfl
      rw [List.nil_append] at hnext
      -- what is glued to an assignment, or is one, goes
      have hgone : ∀ l, s.Starts l →
          (tokens nl (l ++ nl :: (s.lineBytes stack ts ++ E))).filter (fun l => !s.hits l) =
            s.survivors false ts := by
        intro l hl
        rw [tokens_append_sep, List.filter_append, h.filter_starts hl, List.nil_append, hnext]
      unfold Setting.survivors
      by_cases hhits : s.hits token = true
      · rw [if_pos hhits, s.lineBytes_of_hits hhits]
        by_cases hfits : s.Fits
        · rw [hfits.entry_eq, decide_eq_true hfits, Bool.not_true,
            ← hgone _ (h.starts_line.glue hX')]
          simp only [List.append_assoc, List.cons_append, List.nil_append]
        · rw [decide_eq_false hfits, Bool.not_false,
            ← ih hts.2 true (X := X ++ s.entry stack) ((hentry hfits).glue hX')]
          simp only [List.append_assoc]
      · rw [if_neg hhits, s.lineBytes_of_not_hits hhits, List.append_assoc, List.cons_append]
        have hline := nl_not_mem_stripCr hts.1
        cases glued with
        | true =>
            rw [if_pos (.inl rfl), ← List.append_assoc]
            exact hgone _ (Setting.Starts.append hX hline)
        | false =>
            rw [show X = [] from hX, List.nil_append, tokens_append_cons hline]
            by_cases hempty : stripCr token = []
            · rw [if_pos hempty, if_pos (.inr hempty), List.nil_append, hnext]
            · rw [if_neg hempty, if_neg (by simp [hempty]), List.singleton_append,
                List.filter_cons, s.hits_stripCr, if_pos (by simpa using hhits), hnext]

end Plain

/-! ### The lines of the new file -/

section Files

variable {s : Setting} {content : Text}

theorem Setting.keepsLines_of_sublist
    (h : (s.kept content).Sublist (s.survivors false (tokens nl (bufText content)))) :
    s.KeepsLines content := by
  intro stack tmp bak s' hs'
  refine ⟨_, hs'.content_eq, h.trans ?_⟩
  rw [Setting.result, s.written_eq, List.append_assoc]
  exact s.survivors_sublist stack _ (fun token => not_mem_of_mem_tokens) false (X := [])
    fun _ => rfl

theorem Setting.KeepsLines.sublist_written (h : s.KeepsLines content) (hcontent : content ≠ [])
    (stack : Text) : (s.kept content).Sublist (tokens nl (s.written stack content)) := by
  obtain ⟨s', hs'⟩ := exists_succeeds s stack hcontent none none
  obtain ⟨new, hnew, hsub⟩ := h stack none none s' hs'
  rw [hs'.content_eq, Option.some.injEq, Setting.result, Option.getD_none, List.drop_nil,
    List.append_nil] at hnew
  rwa [hnew]

theorem Setting.not_hits_of_long (hkey : ¬ s.key.length + 1 < bufferSize) {token : Text}
    (htoken : token ∈ tokens nl (bufText content)) : ¬ s.hits token = true := by
  intro hhits
  obtain ⟨value, ha⟩ := Setting.hits_iff.mp hhits
  obtain ⟨hstrip, -⟩ := assignment_eq_some.mp ha
  have hlen := congrArg List.length hstrip
  have hle := length_stripCr_le token
  have htext := length_le_of_mem_tokens htoken
  have hbuf : (bufText content).length ≤ bufferSize - 1 := by
    refine ((List.takeWhile_sublist _).length_le).trans ?_
    rw [List.length_take]
    exact Nat.min_le_left _ _
  rw [List.length_append, List.length_cons] at hlen
  omega

/-- Then the lines of the new file are those of the old one, and what is
left of the setting. -/
theorem Setting.tokens_lineBytes {ts : List Text} (hts : ∀ token ∈ ts, nl ∉ token)
    (hhits : ∀ token ∈ ts, ¬ s.hits token = true) (stack E : Text) :
    tokens nl (s.lineBytes stack ts ++ E) = s.survivors false ts ++ tokens nl E := by
  induction ts with
  | nil => rfl
  | cons token ts ih =>
      rw [List.forall_mem_cons] at hts hhits
      rw [s.lineBytes_of_not_hits hhits.1, List.append_assoc, List.cons_append,
        tokens_append_cons (nl_not_mem_stripCr hts.1), ih hts.2 hhits.2, ← List.append_assoc]
      congr 1
      rw [Setting.survivors, if_neg hhits.1]
      by_cases hempty : stripCr token = []
      · rw [if_pos hempty, if_pos (.inr hempty), List.nil_append]
      · rw [if_neg hempty, if_neg (by simp [hempty]), List.singleton_append]

/-- What is at the end of one list or of another one is in neither of
them. -/
theorem sublist_of_append_singleton {l m : List Text} {a b : Text} (hab : a ≠ b)
    (ha : l.Sublist (m ++ [a])) (hb : l.Sublist (m ++ [b])) : l.Sublist m := by
  obtain ⟨l₁, l₂, rfl, h₁, h₂⟩ := List.sublist_append_iff.mp ha
  obtain ⟨l₃, l₄, heq, h₃, h₄⟩ := List.sublist_append_iff.mp hb
  rcases List.sublist_singleton.mp h₂ with rfl | rfl
  · rwa [List.append_nil]
  · rcases List.sublist_singleton.mp h₄ with rfl | rfl
    · rwa [heq, List.append_nil]
    · exact absurd (List.cons.inj (List.append_inj' heq rfl).2).1 hab

/-- The setting at the end of the new text is an assignment, also if it is
glued to one. -/
theorem Setting.Plain.filter_last (h : s.Plain) {stack : Text}
    (hentry : ¬ s.Fits → s.Starts (s.entry stack)) (found : Bool) {X : Text}
    (hX : X = [] ∨ s.Starts X) :
    (tokens nl (X ++ if found then [] else s.entry stack)).filter (fun l => !s.hits l) = [] := by
  cases found with
  | true =>
      rw [if_pos rfl, List.append_nil]
      rcases hX with rfl | hX
      · rfl
      · exact h.filter_starts hX
  | false =>
      rw [if_neg Bool.false_ne_true]
      by_cases hfits : s.Fits
      · rw [hfits.entry_eq, ← List.append_assoc, tokens_append_sep, List.filter_append,
          h.filter_starts (h.starts_line.glue hX)]
        rfl
      · exact h.filter_starts ((hentry hfits).glue hX)

theorem nl_not_mem_replicate (n : ℕ) {b : UInt8} (hb : b ≠ nl) : nl ∉ List.replicate n b :=
  fun hmem => hb (List.eq_of_mem_replicate hmem).symm

/-- A run with zeros behind the line buffer. All lines of its new file but
the survivors assign to the parameter. -/
theorem Setting.Plain.sublist_of_shortKey (h : s.Plain) (hkey : s.key.length + 1 < bufferSize)
    {n : ℕ} (hsub : (s.kept content).Sublist (tokens nl (s.written (List.replicate n 0) content))) :
    (s.kept content).Sublist (s.survivors false (tokens nl (bufText content))) := by
  have hentry (hfits : ¬ s.Fits) :=
    h.starts_entry hfits hkey (nl_not_mem_replicate n (b := 0) (by decide))
  have hfilter := hsub.filter fun l => !s.hits l
  rw [s.filter_kept, s.written_eq] at hfilter
  have hlines : ∀ token ∈ tokens nl (bufText content), nl ∉ token :=
    fun token => not_mem_of_mem_tokens
  exact h.filter_tokens hentry (X := []) (fun X hX => h.filter_last hentry _ hX) hlines false rfl ▸
    hfilter

/-- A run with bytes `b` behind the line buffer, if the parameter does not
fit. The setting is the last line of its new file. -/
theorem Setting.Plain.sublist_of_longKey (h : s.Plain) (hkey : ¬ s.key.length + 1 < bufferSize)
    (hfits : ¬ s.Fits) {n : ℕ} {b : UInt8} (hb : b ≠ nl)
    (hsub : (s.kept content).Sublist (tokens nl (s.written (List.replicate n b) content))) :
    (s.kept content).Sublist (s.survivors false (tokens nl (bufText content)) ++
      [s.entry (List.replicate n b)]) := by
  have hhits : ∀ token ∈ tokens nl (bufText content), ¬ s.hits token = true :=
    fun token => Setting.not_hits_of_long hkey
  have hnone : ¬ (tokens nl (bufText content)).any s.hits = true := by
    simpa using hhits
  rw [s.written_eq, if_neg hnone,
    Setting.tokens_lineBytes (fun token => not_mem_of_mem_tokens) hhits,
    tokens_of_not_mem (h.nl_not_mem_entry hfits (nl_not_mem_replicate n hb))] at hsub
  split at hsub
  · rw [List.append_nil] at hsub
    exact hsub.trans (List.sublist_append_left _ _)
  · exact hsub

/-- What is written of a long setting depends on what lies behind the
buffer. -/
theorem Setting.entry_replicate_ne (hfits : ¬ s.Fits) (hlong : bufferSize ≤ s.line.length)
    {b b' : UInt8} (hb : b ≠ b') :
    s.entry (List.replicate s.line.length b) ≠ s.entry (List.replicate s.line.length b') := by
  intro heq
  have hlen := s.length_line
  have hpos : 0 < s.line.length := by omega
  -- the second byte behind the cut is the byte in question
  have hcount : 1 < s.line.length + 2 - bufferSize := by omega
  rw [Setting.entry_of_not_fits hfits, Setting.entry_of_not_fits hfits,
    List.append_cancel_left_eq] at heq
  have hbyte := congrArg (fun l => l[1]?) heq
  simp [hcount, hpos, hb] at hbyte

/-- If all lines are kept, they are among those that survive. The runs that
show this have nothing but one byte behind the line buffer. -/
theorem Setting.Plain.sublist_of_keepsLines (h : s.Plain) (hkeeps : s.KeepsLines content) :
    (s.kept content).Sublist (s.survivors false (tokens nl (bufText content))) := by
  by_cases hcontent : content = []
  · subst hcontent
    exact List.nil_sublist _
  have hsub (b : UInt8) := hkeeps.sublist_written hcontent (List.replicate s.line.length b)
  by_cases hkey : s.key.length + 1 < bufferSize
  · exact h.sublist_of_shortKey hkey (hsub 0)
  · have hlong : bufferSize ≤ s.line.length := by
      rw [s.length_line]
      omega
    have hfits : ¬ s.Fits := by
      unfold Setting.Fits
      omega
    exact sublist_of_append_singleton (Setting.entry_replicate_ne hfits hlong (by decide))
      (h.sublist_of_longKey hkey hfits (by decide) (hsub 0))
      (h.sublist_of_longKey hkey hfits (by decide) (hsub 1))

/-- **No line is lost** if the lines to be kept are among those that survive,
and for a plain setting only then. -/
theorem keepsLines_iff (s : Setting) (content : Text) :
    ((s.kept content).Sublist (s.survivors false (tokens nl (bufText content))) →
        s.KeepsLines content) ∧
      (s.Plain → (s.KeepsLines content ↔
        (s.kept content).Sublist (s.survivors false (tokens nl (bufText content))))) :=
  ⟨fun h => Setting.keepsLines_of_sublist h,
    fun h => ⟨h.sublist_of_keepsLines, fun h => Setting.keepsLines_of_sublist h⟩⟩

theorem keepsLines_twoLines : setB.KeepsLines twoLines :=
  (keepsLines_iff setB twoLines).1 (by decide +kernel)

def longLines : Text := hash :: List.replicate 254 120 ++ [10, 97, 61, 49, 10]

/-- The setting `b=3` is put in the place of the line `a=1`. -/
theorem line_lost_longLines :
    ∃ s' : Sys Unit, Succeeds setB [] (Sys.init longLines none none) s' ∧
      s'.content = some (hash :: List.replicate 254 120 ++ [10, 98, 61, 51, 10]) ∧
      [97, 61, 49] ∈ setB.kept longLines ∧ ¬ setB.KeepsLines longLines := by
  have hcontent : longLines ≠ [] := by decide
  obtain ⟨s', hs'⟩ := exists_succeeds setB [] hcontent none none
  refine ⟨s', hs', ?_, by decide +kernel, fun hkeeps => ?_⟩
  · rw [hs'.content_eq]
    decide +kernel
  · have hsub := hkeeps.sublist_written hcontent []
    revert hsub
    decide +kernel

end Files

end LinuxMiniProjects.SafeConfig
