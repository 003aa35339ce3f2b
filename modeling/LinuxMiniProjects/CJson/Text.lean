import LinuxMiniProjects.CJson.Print

/-!
The text of an item.

`text` says what the text of an item is, at any depth, formatted or not.
There is no buffer in it. A text has no zeros, whatever the item, if the C
library prints numbers without any.
-/

namespace LinuxMiniProjects.CJson

open Bytes

variable {D : Type}

/-! ### The text of an item -/

def escaped (c : UInt8) : List UInt8 :=
  if 31 < c ∧ c ≠ quote ∧ c ≠ backslash then [c]
  else
    match escapeLetter c with
    | some letter => [backslash, letter]
    | none => backslash :: utf16Escape c

def literal (s : List UInt8) : List UInt8 :=
  quote :: ((cString s).flatMap escaped ++ [quote])

def indent (format : Bool) (depth : ℕ) : List UInt8 :=
  if format then List.replicate depth 9 else []

mutual

def text (F : Doubles D) (format : Bool) (depth : ℕ) : Item D → List UInt8
  | .null => ofString "null"
  | .bool false => ofString "false"
  | .bool true => ofString "true"
  | .number d => numberText F d
  | .string s => literal s
  | .array vs => 91 :: (textElements F format (depth + 1) vs ++ [93])
  | .object ms =>
      openBrace format ++ (textMembers F format (depth + 1) ms ++ (indent format depth ++ [125]))

def textElements (F : Doubles D) (format : Bool) (depth : ℕ) : List (Item D) → List UInt8
  | [] => []
  | v :: vs =>
      text F format depth v ++
        ((if vs.isEmpty then [] else elementSeparator format) ++ textElements F format depth vs)

def textMembers (F : Doubles D) (format : Bool) (depth : ℕ) :
    List (List UInt8 × Item D) → List UInt8
  | [] => []
  | (name, v) :: ms =>
      indent format depth ++ (literal name ++ (colon format ++ (text F format depth v ++
        (memberSeparator format (!ms.isEmpty) ++ textMembers F format depth ms))))

end

namespace Item

mutual

def nesting : Item D → ℕ
  | .null | .bool _ | .number _ | .string _ => 0
  | .array vs => nestingOfItems vs + 1
  | .object ms => nestingOfFields ms + 1

def nestingOfItems : List (Item D) → ℕ
  | [] => 0
  | v :: vs => max v.nesting (nestingOfItems vs)

def nestingOfFields : List (List UInt8 × Item D) → ℕ
  | [] => 0
  | (_, v) :: ms => max v.nesting (nestingOfFields ms)

end

end Item

/-! ### Numbers and characters -/

structure IsNumberText (t : List UInt8) : Prop where
  short : t.length ≤ 25
  ended : 0 ∉ t

structure Doubles.Lawful (F : Doubles D) : Prop where
  valueint_mem : ∀ d, -2147483648 ≤ F.valueint d ∧ F.valueint d ≤ 2147483647
  sprintf15_text : ∀ d, F.isFinite d → IsNumberText (F.sprintf15 d)
  sprintf17_text : ∀ d, F.isFinite d → IsNumberText (F.sprintf17 d)

theorem digit_ne_zero {n : ℕ} {c : Char} (h : c ∈ Nat.toDigits 10 n) :
    UInt8.ofNat c.toNat ≠ 0 := by
  have hdigit := Nat.isDigit_of_mem_toDigits (by decide) (by decide) h
  simp only [Char.isDigit, Bool.and_eq_true, decide_eq_true_eq, ge_iff_le, UInt32.le_iff_toNat_le]
    at hdigit
  change 48 ≤ c.toNat ∧ c.toNat ≤ 57 at hdigit
  intro hzero
  have := congrArg UInt8.toNat hzero
  rw [UInt8.toNat_ofNat_of_lt' (show c.toNat < 256 by omega)] at this
  change c.toNat = 0 at this
  omega

theorem isNumberText_decimal {i : ℤ} (h : -2147483648 ≤ i ∧ i ≤ 2147483647) :
    IsNumberText (decimal i) := by
  have hlength : (Nat.toDigits 10 i.natAbs).length ≤ 10 :=
    Nat.toDigits_length 10 _ 10 (by decide) (by omega)
  constructor
  · rw [decimal, List.length_append, List.length_map]
    split <;> simp only [List.length_singleton, List.length_nil] <;> omega
  · intro hzero
    rcases List.mem_append.mp hzero with hzero | hzero
    · split at hzero
      · exact absurd hzero (by decide)
      · cases hzero
    · obtain ⟨c, hc, heq⟩ := List.mem_map.mp hzero
      exact digit_ne_zero hc heq

theorem isNumberText_numberText {F : Doubles D} (hF : F.Lawful) (d : D) :
    IsNumberText (numberText F d) := by
  unfold numberText
  split
  next => exact ⟨by decide, by decide⟩
  next hd =>
    have hd := eq_true_of_ne_false hd
    split
    next => exact isNumberText_decimal (hF.valueint_mem d)
    next =>
      split
      · split
        · exact hF.sprintf15_text d hd
        · exact hF.sprintf17_text d hd
      · exact hF.sprintf17_text d hd

theorem escapeLetter_eq_none {c : UInt8} (h : 31 < c) (hquote : c ≠ quote)
    (hbackslash : c ≠ backslash) : escapeLetter c = none := by
  have hne : ∀ d : UInt8, d ≤ 31 → c ≠ d := fun d hd he => absurd (he ▸ h) (UInt8.not_lt.mpr hd)
  rw [escapeLetter, if_neg hbackslash, if_neg hquote, if_neg (hne 8 (by decide)),
    if_neg (hne 12 (by decide)), if_neg (hne 10 (by decide)), if_neg (hne 13 (by decide)),
    if_neg (hne 9 (by decide))]

theorem escaped_cases (c : UInt8) :
    (31 < c ∧ c ≠ quote ∧ c ≠ backslash) ∧ escapeLetter c = none ∧ escaped c = [c] ∨
    ¬ (31 < c ∧ c ≠ quote ∧ c ≠ backslash) ∧
      ((∃ letter, escapeLetter c = some letter ∧ escaped c = [backslash, letter]) ∨
        c < 32 ∧ escapeLetter c = none ∧ escaped c = backslash :: utf16Escape c) := by
  by_cases hplain : 31 < c ∧ c ≠ quote ∧ c ≠ backslash
  · exact .inl ⟨hplain, escapeLetter_eq_none hplain.1 hplain.2.1 hplain.2.2, if_pos hplain⟩
  · refine .inr ⟨hplain, ?_⟩
    rcases hletter : escapeLetter c with _ | letter
    · right
      have hbackslash : c ≠ backslash := by rintro rfl; cases hletter
      have hquote : c ≠ quote := by rintro rfl; cases hletter
      have hlt : ¬ 31 < c := fun h => hplain ⟨h, hquote, hbackslash⟩
      refine ⟨?_, rfl, by rw [escaped, if_neg hplain, hletter]⟩
      rw [UInt8.not_lt, UInt8.le_iff_toNat_le] at hlt
      rw [UInt8.lt_iff_toNat_lt]
      exact Nat.lt_succ_of_le hlt
    · exact .inl ⟨letter, rfl, by rw [escaped, if_neg hplain, hletter]⟩

theorem length_escaped (c : UInt8) : (escaped c).length = 1 + escapeCharacters c := by
  rcases escaped_cases c with ⟨⟨h, -⟩, hletter, he⟩ |
    ⟨-, ⟨letter, hletter, he⟩ | ⟨h, hletter, he⟩⟩
  · have h32 : ¬ c < 32 := by
      rw [UInt8.lt_iff_toNat_lt] at h ⊢
      exact Nat.not_lt.mpr h
    rw [he, escapeCharacters, hletter, if_neg h32]
    rfl
  · rw [he, escapeCharacters, hletter]
    rfl
  · rw [he, escapeCharacters, hletter, if_pos h]
    rfl

theorem hexChar_ne_zero {n : ℕ} (h : n < 16) : hexChar n ≠ 0 := by
  interval_cases n <;> decide

theorem zero_notMem_escaped {c : UInt8} (h : c ≠ 0) : 0 ∉ escaped c := by
  have hlt := c.toNat_lt
  rcases escaped_cases c with ⟨-, -, he⟩ | ⟨-, ⟨letter, hletter, he⟩ | ⟨-, -, he⟩⟩
  · rw [he]
    simpa using h.symm
  · have hne : letter ≠ 0 := by
      rintro rfl
      unfold escapeLetter at hletter
      split_ifs at hletter <;> cases hletter
    rw [he]
    simp only [List.mem_cons, List.not_mem_nil, or_false, not_or]
    exact ⟨by decide, hne.symm⟩
  · rw [he]
    simp only [utf16Escape, List.mem_cons, List.not_mem_nil, or_false, not_or]
    exact ⟨by decide, by decide, by decide, by decide,
      (hexChar_ne_zero (by omega)).symm, (hexChar_ne_zero (by omega)).symm⟩

theorem zero_notMem_literal (s : List UInt8) : 0 ∉ literal s := by
  simp only [literal, List.mem_cons, List.mem_append, List.mem_flatMap, List.not_mem_nil, or_false,
    not_or, not_exists, not_and]
  refine ⟨by decide, fun c hc => zero_notMem_escaped ?_, by decide⟩
  rintro rfl
  exact zero_notMem_cString s hc

theorem length_literal (s : List UInt8) :
    (literal s).length =
      (cString s).length + ((cString s).map escapeCharacters).sum + 2 := by
  have hsum : ((cString s).flatMap escaped).length =
      (cString s).length + ((cString s).map escapeCharacters).sum := by
    induction cString s with
    | nil => rfl
    | cons c s ih =>
        rw [List.flatMap_cons, List.length_append, length_escaped, ih, List.length_cons,
          List.map_cons, List.sum_cons]
        omega
  rw [literal, List.length_cons, List.length_append, hsum]
  rfl

mutual

theorem zero_notMem_text {F : Doubles D} (hF : F.Lawful) (format : Bool) (depth : ℕ) :
    (v : Item D) → 0 ∉ text F format depth v
  | .null => by rw [text]; decide
  | .bool false => by rw [text]; decide
  | .bool true => by rw [text]; decide
  | .number d => by rw [text]; exact (isNumberText_numberText hF d).2
  | .string s => by rw [text]; exact zero_notMem_literal s
  | .array vs => by
      have := zero_notMem_textElements hF format (depth + 1) vs
      simp [text, this]
  | .object ms => by
      have := zero_notMem_textMembers hF format (depth + 1) ms
      cases format <;> simp [text, openBrace, indent, this]

theorem zero_notMem_textElements {F : Doubles D} (hF : F.Lawful) (format : Bool) (depth : ℕ) :
    (vs : List (Item D)) → 0 ∉ textElements F format depth vs
  | [] => by simp [textElements]
  | v :: vs => by
      have h := zero_notMem_text hF format depth v
      have h' := zero_notMem_textElements hF format depth vs
      cases format <;> cases vs <;> simp_all [textElements, elementSeparator]

theorem zero_notMem_textMembers {F : Doubles D} (hF : F.Lawful) (format : Bool) (depth : ℕ) :
    (ms : List (List UInt8 × Item D)) → 0 ∉ textMembers F format depth ms
  | [] => by simp [textMembers]
  | (name, v) :: ms => by
      have h := zero_notMem_text hF format depth v
      have h' := zero_notMem_textMembers hF format depth ms
      have hname := zero_notMem_literal name
      cases format <;> cases ms <;> simp_all [textMembers, indent, colon, memberSeparator]

end

/-! ### An instance -/

/-- A C library without fractions: a number is an integer, and those that an
`int` can hold are finite. -/
def integers : Doubles ℤ where
  isFinite d := decide (-2147483648 ≤ d ∧ d ≤ 2147483647)
  valueint d := max (-2147483648) (min 2147483647 d)
  ofInt := id
  beq a b := a == b
  compareDouble a b := a == b
  sprintf15 := decimal
  sprintf17 := decimal
  sscanf _ := none

theorem integers_lawful : integers.Lawful where
  valueint_mem d := by
    have h : integers.valueint d = max (-2147483648) (min 2147483647 d) := rfl
    omega
  sprintf15_text d hd := isNumberText_decimal (of_decide_eq_true hd)
  sprintf17_text d hd := isNumberText_decimal (of_decide_eq_true hd)

end LinuxMiniProjects.CJson
