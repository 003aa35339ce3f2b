import Mathlib.Tactic
import LinuxMiniProjects.Lib.Tokens

/-!
The text of a configuration file, as `safe-config-tool` reads and rewrites
it (`main.c`).

A file is a list of lines, separated by newlines; `strtok_r` finds them and
skips the empty ones. A line may end in a carriage return, which is cut
off. A line that starts with a hash or has no equals sign is a comment;
any other one assigns what stands behind its first equals sign to what
stands before it.

`write_param_config` computes the new text line by line and hands every
piece to `write` at once. `writeOps` is the list of these calls;
`rewrite` says what they are meant to write.
-/

namespace LinuxMiniProjects.SafeConfig

open Tokens

abbrev Text := List UInt8

def nl : UInt8 := 10
def cr : UInt8 := 13
def hash : UInt8 := 35
def equals : UInt8 := 61

/-- `BUFFER_SIZE`, and `MAX_PATH_NAME`, which is the size of the line
buffer too. -/
def bufferSize : ℕ := 256

/-! ### Lines -/

def stripCr (p : Text) : Text := if p.getLast? = some cr then p.dropLast else p

/-- The parameter and the value of a line that `strtok_r` has returned. -/
def assignment (token : Text) : Option (Text × Text) :=
  let p := stripCr token
  if p = [] ∨ p.head? = some hash then none
  else if equals ∈ p then
    some (p.takeWhile (· ≠ equals), (p.dropWhile (· ≠ equals)).tail)
  else none

/-- All assignments of a text, as the loop of `read_param_config` comes
across them. -/
def assignments (t : Text) : List (Text × Text) := (tokens nl t).filterMap assignment

/-! ### Rewriting -/

structure Setting where
  key : Text
  value : Text
  deriving DecidableEq, Repr

def Setting.line (s : Setting) : Text := s.key ++ equals :: s.value

def Setting.hits (s : Setting) (token : Text) : Bool := (assignment token).any (·.1 = s.key)

/-- What is handed to `write` for the setting. `snprintf` prints the line
and a newline into a buffer of 256 bytes and returns their length, also
if the line does not fit; then `write` goes on with the terminating zero
and with what lies behind the buffer on the `stack`. -/
def Setting.entry (s : Setting) (stack : Text) : Text :=
  let out := s.line ++ [nl]
  (out.take (bufferSize - 1) ++ 0 :: stack).take out.length

inductive Part
  /-- The new line of the parameter. -/
  | setting
  /-- Another line. -/
  | line
  /-- The newline behind it. -/
  | newline
  /-- The setting at the end, if the parameter was not found. -/
  | append
  deriving DecidableEq, Repr

structure WriteOp where
  part : Part
  bytes : Text
  deriving DecidableEq, Repr

def Setting.tokenOps (s : Setting) (stack token : Text) : List WriteOp :=
  if s.hits token then [⟨.setting, s.entry stack⟩]
  else [⟨.line, stripCr token⟩, ⟨.newline, [nl]⟩]

def Setting.writeOps (s : Setting) (stack t : Text) : List WriteOp :=
  (tokens nl t).flatMap (s.tokenOps stack) ++
    if (tokens nl t).any s.hits then [] else [⟨.append, s.entry stack⟩]

def Setting.rewriteLine (s : Setting) (token : Text) : Text :=
  if s.hits token then s.line else stripCr token

/-- The lines of the complete new text: every line rewritten, and the
setting at the end if the parameter was not found. -/
def Setting.newLines (s : Setting) (t : Text) : List Text :=
  (tokens nl t).map s.rewriteLine ++ if (tokens nl t).any s.hits then [] else [s.line]

def Setting.rewrite (s : Setting) (t : Text) : Text := unlines nl (s.newLines t)

def Setting.Fits (s : Setting) : Prop := s.key.length + s.value.length + 2 < bufferSize

instance (s : Setting) : Decidable s.Fits :=
  inferInstanceAs (Decidable (s.key.length + s.value.length + 2 < bufferSize))

section Writing

variable {s : Setting}

theorem Setting.length_line (s : Setting) :
    s.line.length = s.key.length + s.value.length + 1 := by
  simp only [Setting.line, List.length_append, List.length_cons]
  omega

theorem Setting.Fits.entry_eq (h : s.Fits) (stack : Text) : s.entry stack = s.line ++ [nl] := by
  unfold Setting.Fits at h
  have hlen : (s.line ++ [nl]).length ≤ bufferSize - 1 := by
    rw [List.length_append, s.length_line, List.length_singleton]
    omega
  show ((s.line ++ [nl]).take (bufferSize - 1) ++ 0 :: stack).take (s.line ++ [nl]).length = _
  rw [List.take_of_length_le hlen, List.take_left]

theorem Setting.Fits.bytes_writeOps (h : s.Fits) (stack t : Text) :
    ((s.writeOps stack t).flatMap fun op => op.bytes) = s.rewrite t := by
  have htoken : ∀ token, ((s.tokenOps stack token).flatMap fun op => op.bytes) =
      s.rewriteLine token ++ [nl] := by
    intro token
    unfold Setting.tokenOps Setting.rewriteLine
    split
    · simp [h.entry_eq]
    · simp
  have hlines : (((tokens nl t).flatMap (s.tokenOps stack)).flatMap fun op => op.bytes) =
      unlines nl ((tokens nl t).map s.rewriteLine) := by
    rw [List.flatMap_assoc, unlines, List.flatMap_map]
    exact List.flatMap_congr fun token _ => htoken token
  unfold Setting.writeOps Setting.rewrite Setting.newLines
  rw [List.flatMap_append, unlines_append, hlines]
  split
  · rfl
  · simp [h.entry_eq]

end Writing

/-! ### The assignments of the new text -/

structure Setting.WellFormed (s : Setting) : Prop where
  key_nl : nl ∉ s.key
  key_equals : equals ∉ s.key
  key_hash : s.key.head? ≠ some hash
  value_nl : nl ∉ s.value
  value_cr : s.value.getLast? ≠ some cr
  fits : s.Fits

instance (s : Setting) : Decidable s.WellFormed :=
  decidable_of_iff (nl ∉ s.key ∧ equals ∉ s.key ∧ s.key.head? ≠ some hash ∧ nl ∉ s.value ∧
    s.value.getLast? ≠ some cr ∧ s.Fits)
    ⟨fun ⟨h₁, h₂, h₃, h₄, h₅, h₆⟩ => ⟨h₁, h₂, h₃, h₄, h₅, h₆⟩,
      fun h => ⟨h.key_nl, h.key_equals, h.key_hash, h.value_nl, h.value_cr, h.fits⟩⟩

/-- The text assigns the value of the setting to its parameter, and no
other value. -/
def Setting.Holds (s : Setting) (t : Text) : Prop :=
  (s.key, s.value) ∈ assignments t ∧ ∀ v, (s.key, v) ∈ assignments t → v = s.value

section Reading

variable {s : Setting} {t : Text}

theorem stripCr_of_getLast? {p : Text} (h : p.getLast? ≠ some cr) : stripCr p = p := if_neg h

@[simp] theorem stripCr_append_cr (p : Text) : stripCr (p ++ [cr]) = p := by
  simp [stripCr]

theorem mem_of_mem_stripCr {c : UInt8} {p : Text} (h : c ∈ stripCr p) : c ∈ p := by
  unfold stripCr at h
  split at h
  · exact List.mem_of_mem_dropLast h
  · exact h

theorem length_stripCr_le (p : Text) : (stripCr p).length ≤ p.length := by
  unfold stripCr
  split
  · rw [List.length_dropLast]
    omega
  · exact Nat.le_refl _

@[simp] theorem assignment_nil : assignment [] = none := rfl

theorem eq_of_stripCr_eq {p q : Text} (h : stripCr p = q) : p = q ∨ p = q ++ [cr] := by
  unfold stripCr at h
  split at h
  next hcr =>
    obtain ⟨q', rfl⟩ := List.getLast?_eq_some_iff.mp hcr
    rw [List.dropLast_concat] at h
    exact .inr (by rw [h])
  next => exact .inl h

theorem stripCr_append_equals (key value : Text) :
    stripCr (key ++ equals :: value) = key ++ equals :: stripCr value := by
  cases value using List.reverseRecOn with
  | nil => exact stripCr_of_getLast? (by simp [equals, cr])
  | append_singleton value c =>
      by_cases hc : c = cr
      · subst hc
        rw [stripCr_append_cr, ← List.cons_append, ← List.append_assoc, stripCr_append_cr]
      · have hlast : (value ++ [c]).getLast? ≠ some cr := by simpa using hc
        rw [stripCr_of_getLast? hlast]
        apply stripCr_of_getLast?
        rw [← List.cons_append, ← List.append_assoc, List.getLast?_concat, Ne, Option.some.injEq]
        exact hc

theorem split_equals {key : Text} (h : equals ∉ key) (value : Text) :
    some ((key ++ equals :: value).takeWhile (· ≠ equals),
      ((key ++ equals :: value).dropWhile (· ≠ equals)).tail) = some (key, value) := by
  have hall : ∀ c ∈ key, decide (c ≠ equals) = true := fun c hc =>
    decide_eq_true fun heq => h (heq ▸ hc)
  rw [List.takeWhile_append_of_pos hall, List.dropWhile_append_of_pos hall]
  simp

theorem assignment_eq_some {token key value : Text} :
    assignment token = some (key, value) ↔
      stripCr token = key ++ equals :: value ∧ equals ∉ key ∧ key.head? ≠ some hash := by
  unfold assignment
  generalize stripCr token = p
  constructor
  · intro h
    dsimp only at h
    split at h
    · cases h
    next hcomment =>
      split at h
      next hmem =>
        obtain ⟨key', value', rfl, hkey⟩ := List.eq_append_cons_of_mem hmem
        rw [split_equals hkey, Option.some.injEq, Prod.mk.injEq] at h
        obtain ⟨rfl, rfl⟩ := h
        refine ⟨rfl, hkey, fun hhash => hcomment (.inr ?_)⟩
        rw [List.head?_append, hhash]
        rfl
      next => cases h
  · rintro ⟨rfl, hkey, hhash⟩
    have hstart : ¬ (key ++ equals :: value = [] ∨
        (key ++ equals :: value).head? = some hash) := by
      cases key with
      | nil => simp [equals, hash]
      | cons c key => simpa using hhash
    dsimp only
    rw [if_neg hstart, if_pos (by simp), split_equals hkey]

/-- A line that is written back assigns the same, but for a second
carriage return. -/
theorem assignment_stripCr (token : Text) :
    assignment (stripCr token) = (assignment token).map fun a => (a.1, stripCr a.2) := by
  cases h : assignment token with
  | some a =>
      obtain ⟨key, value⟩ := a
      obtain ⟨htoken, hkey, hhash⟩ := assignment_eq_some.mp h
      rw [Option.map_some, assignment_eq_some, htoken, stripCr_append_equals]
      exact ⟨rfl, hkey, hhash⟩
  | none =>
      rw [Option.map_none, Option.eq_none_iff_forall_ne_some]
      rintro ⟨key, value⟩ hsome
      obtain ⟨hstrip, hkey, hhash⟩ := assignment_eq_some.mp hsome
      rcases eq_of_stripCr_eq hstrip with htoken | htoken
      · rw [assignment_eq_some.mpr ⟨htoken, hkey, hhash⟩] at h
        cases h
      · rw [List.append_assoc, List.cons_append] at htoken
        rw [assignment_eq_some.mpr ⟨htoken, hkey, hhash⟩] at h
        cases h

def Setting.update (s : Setting) (a : Text × Text) : Text × Text :=
  if a.1 = s.key then (s.key, s.value) else (a.1, stripCr a.2)

theorem Setting.WellFormed.assignment_line (h : s.WellFormed) :
    assignment s.line = some (s.key, s.value) := by
  rw [assignment_eq_some, Setting.line, stripCr_append_equals, stripCr_of_getLast? h.value_cr]
  exact ⟨rfl, h.key_equals, h.key_hash⟩

theorem Setting.WellFormed.assignment_rewriteLine (h : s.WellFormed) (token : Text) :
    assignment (s.rewriteLine token) = (assignment token).map s.update := by
  unfold Setting.rewriteLine Setting.hits
  cases ha : assignment token with
  | none =>
      rw [Option.any_none, if_neg Bool.false_ne_true, assignment_stripCr, ha]
      rfl
  | some a =>
      by_cases hkey : a.1 = s.key
      · rw [if_pos (by simpa using hkey), h.assignment_line]
        simp [Setting.update, hkey]
      · rw [if_neg (by simpa using hkey), assignment_stripCr, ha]
        simp [Setting.update, hkey]

theorem Setting.WellFormed.nl_not_mem (h : s.WellFormed) {l : Text} (hl : l ∈ s.newLines t) :
    nl ∉ l := by
  have hline : nl ∉ s.line := by
    have hne : nl ≠ equals := by decide
    simp [Setting.line, h.key_nl, h.value_nl, hne]
  unfold Setting.newLines at hl
  rcases List.mem_append.mp hl with hl | hl
  · obtain ⟨token, htoken, rfl⟩ := List.mem_map.mp hl
    unfold Setting.rewriteLine
    split
    · exact hline
    · exact fun hmem => not_mem_of_mem_tokens htoken (mem_of_mem_stripCr hmem)
  · split at hl
    · cases hl
    · rwa [List.mem_singleton.mp hl]

theorem any_hits (s : Setting) (t : Text) :
    (tokens nl t).any s.hits = (assignments t).any (·.1 = s.key) := by
  rw [assignments, List.any_filterMap]
  rfl

/-- The assignments of the new text are those of the old one, with the
value of the parameter replaced, and the setting at the end if it was not
there. -/
theorem Setting.WellFormed.assignments_rewrite (h : s.WellFormed) (t : Text) :
    assignments (s.rewrite t) = (assignments t).map s.update ++
      if (assignments t).any (·.1 = s.key) then [] else [(s.key, s.value)] := by
  have hfilter : ∀ ls : List Text, (ls.filter fun l => l ≠ []).filterMap assignment =
      ls.filterMap assignment := by
    intro ls
    rw [List.filterMap_filter]
    refine List.filterMap_congr fun l _ => ?_
    by_cases hl : l = [] <;> simp [hl]
  unfold assignments Setting.rewrite
  rw [tokens_unlines fun l hl => h.nl_not_mem hl, hfilter, Setting.newLines, any_hits,
    List.filterMap_append, List.filterMap_map, List.map_filterMap]
  congr 1
  · exact List.filterMap_congr fun token _ => h.assignment_rewriteLine token
  · unfold assignments
    split
    · rfl
    · simp [h.assignment_line]

theorem Setting.WellFormed.holds_rewrite (h : s.WellFormed) (t : Text) :
    s.Holds (s.rewrite t) := by
  unfold Setting.Holds
  rw [h.assignments_rewrite]
  constructor
  · by_cases hany : (assignments t).any (·.1 = s.key) = true
    · obtain ⟨a, ha, hkey⟩ := List.any_eq_true.mp hany
      refine List.mem_append_left _ (List.mem_map.mpr ⟨a, ha, ?_⟩)
      rw [Setting.update, if_pos (by simpa using hkey)]
    · rw [if_neg hany]
      exact List.mem_append_right _ (List.mem_singleton.mpr rfl)
  · intro v hv
    rcases List.mem_append.mp hv with hv | hv
    · obtain ⟨a, -, ha⟩ := List.mem_map.mp hv
      unfold Setting.update at ha
      split at ha
      · exact (Prod.mk.inj ha).2.symm
      next hne => exact absurd (Prod.mk.inj ha).1 hne
    · split at hv
      · cases hv
      · exact (Prod.mk.inj (List.mem_singleton.mp hv)).2

theorem Setting.WellFormed.holds_rewrite_of_ne (h : s.WellFormed) {s' : Setting}
    (hne : s'.key ≠ s.key) (hcr : s'.value.getLast? ≠ some cr) (ht : s'.Holds t) :
    s'.Holds (s.rewrite t) := by
  obtain ⟨hmem, honly⟩ := ht
  unfold Setting.Holds
  rw [h.assignments_rewrite]
  constructor
  · refine List.mem_append_left _ (List.mem_map.mpr ⟨_, hmem, ?_⟩)
    rw [Setting.update, if_neg hne, stripCr_of_getLast? hcr]
  · intro v hv
    rcases List.mem_append.mp hv with hv | hv
    · obtain ⟨⟨key, value⟩, hmem', ha⟩ := List.mem_map.mp hv
      unfold Setting.update at ha
      split at ha
      · exact absurd (Prod.mk.inj ha).1.symm hne
      · obtain ⟨hkey, rfl⟩ := Prod.mk.inj ha
        -- the value was the one of the setting, and nothing is cut off it
        obtain rfl : key = s'.key := hkey
        rw [honly value hmem', stripCr_of_getLast? hcr]
    · split at hv
      · cases hv
      · exact absurd (Prod.mk.inj (List.mem_singleton.mp hv)).1 hne

end Reading

end LinuxMiniProjects.SafeConfig
