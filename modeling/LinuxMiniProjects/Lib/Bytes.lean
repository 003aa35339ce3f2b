import Mathlib.Data.List.TakeWhile
import Mathlib.Tactic

/-!
Byte buffers and big-endian words.

A C buffer is a function from offsets to bytes: what lies behind the part
a program has filled is still there, and a reader that looks too far sees
it. `store` writes a list of bytes at an offset, `slice` reads one back,
and the lemmas say how the two compose. The capacity of a buffer is not
part of it; that a program stays within it is something to prove.

A word of 16 or 32 bits is written most significant byte first.
-/

namespace LinuxMiniProjects.Bytes

/-! ### Buffers -/

abbrev Buf := ℕ → UInt8

def store (b : Buf) (off : ℕ) (bs : List UInt8) : Buf := fun i =>
  if off ≤ i ∧ i < off + bs.length then bs.getD (i - off) 0 else b i

def slice (b : Buf) (off n : ℕ) : List UInt8 := (List.range n).map fun i => b (off + i)

@[simp] theorem length_slice (b : Buf) (off n : ℕ) : (slice b off n).length = n := by
  simp [slice]

@[simp] theorem slice_zero (b : Buf) (off : ℕ) : slice b off 0 = [] := rfl

theorem slice_two (b : Buf) (off : ℕ) : slice b off 2 = [b off, b (off + 1)] := rfl

theorem slice_four (b : Buf) (off : ℕ) :
    slice b off 4 = [b off, b (off + 1), b (off + 2), b (off + 3)] := rfl

theorem slice_add (b : Buf) (off m n : ℕ) :
    slice b off (m + n) = slice b off m ++ slice b (off + m) n := by
  simp [slice, List.range_add, Function.comp_def, Nat.add_assoc]

theorem slice_congr {b b' : Buf} {off off' n : ℕ} (h : ∀ i < n, b (off + i) = b' (off' + i)) :
    slice b off n = slice b' off' n :=
  List.map_congr_left fun i hi => h i (List.mem_range.mp hi)

@[simp] theorem slice_store_self (b : Buf) (off : ℕ) (bs : List UInt8) :
    slice (store b off bs) off bs.length = bs := by
  refine List.ext_getElem (by simp) fun i h _ => ?_
  rw [length_slice] at h
  simp [slice, store, h]

theorem slice_store_of_le (b : Buf) {off off' n : ℕ} (bs : List UInt8) (h : off' + n ≤ off) :
    slice (store b off bs) off' n = slice b off' n :=
  slice_congr fun i hi => if_neg (by omega)

theorem store_of_le (b : Buf) {off i : ℕ} (bs : List UInt8) (h : off + bs.length ≤ i) :
    store b off bs i = b i := if_neg (by omega)

theorem exists_slice_update (b : Buf) {i n : ℕ} (h : i < n) :
    ∃ as cs, ∀ v, slice (Function.update b i v) 0 n = as ++ v :: cs := by
  obtain ⟨k, rfl⟩ := Nat.exists_eq_add_of_lt h
  refine ⟨slice b 0 i, slice b (i + 1) k, fun v => ?_⟩
  have hfront : slice (Function.update b i v) 0 i = slice b 0 i :=
    slice_congr fun j hj => Function.update_of_ne (by omega) ..
  have hback : slice (Function.update b i v) (i + 1) k = slice b (i + 1) k :=
    slice_congr fun j _ => Function.update_of_ne (by omega) ..
  have hbyte : slice (Function.update b i v) i 1 = [v] := by simp [slice]
  rw [Nat.add_assoc, Nat.add_comm k 1, slice_add, slice_add, Nat.zero_add, hfront, hbyte, hback,
    List.singleton_append]

theorem slice_store_append (b : Buf) (n : ℕ) (bs : List UInt8) :
    slice (store b n bs) 0 (n + bs.length) = slice b 0 n ++ bs := by
  rw [slice_add, slice_store_of_le b bs (by omega), Nat.zero_add, slice_store_self]

theorem slice_eq_take_drop (b : Buf) {off m n : ℕ} (h : off + m ≤ n) :
    slice b off m = ((slice b 0 n).drop off).take m := by
  obtain ⟨k, rfl⟩ := Nat.exists_eq_add_of_le h
  rw [Nat.add_assoc, slice_add, List.drop_left' (by simp), slice_add, List.take_left' (by simp),
    Nat.zero_add]

theorem slice_congr_of_le {b b' : Buf} {off m n : ℕ} (h : slice b 0 n = slice b' 0 n)
    (hle : off + m ≤ n) : slice b off m = slice b' off m := by
  rw [slice_eq_take_drop b hle, slice_eq_take_drop b' hle, h]

def ofString (s : String) : List UInt8 := s.toList.map fun c => UInt8.ofNat c.toNat

def ofList (bs : List UInt8) : Buf := fun i => bs.getD i 0

theorem slice_ofList_append (as bs cs : List UInt8) :
    slice (ofList (as ++ bs ++ cs)) as.length bs.length = bs := by
  refine List.ext_getElem (by simp) fun i h _ => ?_
  rw [length_slice] at h
  simp [slice, ofList, List.getElem?_append_right, List.getElem?_append_left, h]

@[simp] theorem slice_ofList (bs : List UInt8) : slice (ofList bs) 0 bs.length = bs := by
  simpa using slice_ofList_append [] bs []

theorem ofList_slice (b : Buf) {n i : ℕ} (h : i < n) : ofList (slice b 0 n) i = b i := by
  simp [ofList, slice, h]

/-! ### Words -/

def be16 (v : UInt16) : List UInt8 := [(v >>> 8).toUInt8, (v &&& 0xFF).toUInt8]

def be32 (v : UInt32) : List UInt8 :=
  [(v >>> 24).toUInt8, (v >>> 16).toUInt8, (v >>> 8).toUInt8, v.toUInt8]

@[simp] theorem length_be16 (v : UInt16) : (be16 v).length = 2 := rfl

@[simp] theorem length_be32 (v : UInt32) : (be32 v).length = 4 := rfl

def word16 (b₀ b₁ : UInt8) : UInt16 := (b₀.toUInt16 <<< 8) ||| b₁.toUInt16

def word32 (b₀ b₁ b₂ b₃ : UInt8) : UInt32 :=
  (b₀.toUInt32 <<< 24) ||| (b₁.toUInt32 <<< 16) ||| (b₂.toUInt32 <<< 8) ||| b₃.toUInt32

/-- Reassembling a 16-bit word, one bit at a time: every bit lies in
exactly one of the two bytes. -/
theorem reassemble16 (v : BitVec 16) :
    ((v >>> 8).setWidth 8).setWidth 16 <<< 8 ||| ((v &&& 255#16).setWidth 8).setWidth 16 = v := by
  have hmask : (v &&& 255#16).setWidth 8 = v.setWidth 8 := by
    apply BitVec.eq_of_getLsbD_eq
    intro i hi
    have h255 : (255#16).getLsbD i = true := by interval_cases i <;> rfl
    simp only [BitVec.getLsbD_setWidth, BitVec.getLsbD_and, h255, Bool.and_true]
  rw [hmask]
  apply BitVec.eq_of_getLsbD_eq
  intro i hi
  simp only [BitVec.getLsbD_or, BitVec.getLsbD_shiftLeft, BitVec.getLsbD_setWidth,
    BitVec.getLsbD_ushiftRight]
  by_cases h8 : i < 8
  · simp [h8, hi]
  · simp [h8, hi, show i - 8 < 8 by omega, show i - 8 < 16 by omega, show 8 + (i - 8) = i by omega]

theorem reassemble32 (v : BitVec 32) :
    ((v >>> 24).setWidth 8).setWidth 32 <<< 24 ||| ((v >>> 16).setWidth 8).setWidth 32 <<< 16 |||
      ((v >>> 8).setWidth 8).setWidth 32 <<< 8 ||| (v.setWidth 8).setWidth 32 = v := by
  apply BitVec.eq_of_getLsbD_eq
  intro i hi
  simp only [BitVec.getLsbD_or, BitVec.getLsbD_shiftLeft, BitVec.getLsbD_setWidth,
    BitVec.getLsbD_ushiftRight]
  by_cases h8 : i < 8
  · simp [h8, hi, show i < 16 by omega, show i < 24 by omega]
  by_cases h16 : i < 16
  · simp [h8, h16, hi, show i < 24 by omega, show i - 8 < 8 by omega, show i - 8 < 32 by omega,
      show 8 + (i - 8) = i by omega]
  by_cases h24 : i < 24
  · simp [h8, h16, h24, hi, show i - 16 < 8 by omega, show i - 16 < 32 by omega,
      show ¬ i - 8 < 8 by omega, show 16 + (i - 16) = i by omega]
  · simp [h8, h16, h24, hi, show i - 24 < 8 by omega, show i - 24 < 32 by omega,
      show ¬ i - 8 < 8 by omega, show ¬ i - 16 < 8 by omega, show 24 + (i - 24) = i by omega]

@[simp] theorem word16_be16 (v : UInt16) : word16 (v >>> 8).toUInt8 (v &&& 0xFF).toUInt8 = v :=
  UInt16.eq_of_toBitVec_eq (reassemble16 v.toBitVec)

@[simp] theorem word32_be32 (v : UInt32) :
    word32 (v >>> 24).toUInt8 (v >>> 16).toUInt8 (v >>> 8).toUInt8 v.toUInt8 = v :=
  UInt32.eq_of_toBitVec_eq (reassemble32 v.toBitVec)

theorem be32_word32 (b₀ b₁ b₂ b₃ : UInt8) : be32 (word32 b₀ b₁ b₂ b₃) = [b₀, b₁, b₂, b₃] := by
  have hbyte : ∀ {x y : UInt8}, (∀ i < 8, x.toBitVec.getLsbD i = y.toBitVec.getLsbD i) → x = y :=
    fun h => UInt8.eq_of_toBitVec_eq (BitVec.eq_of_getLsbD_eq h)
  simp only [be32, List.cons.injEq, and_true]
  refine ⟨hbyte fun i hi => ?_, hbyte fun i hi => ?_, hbyte fun i hi => ?_,
    hbyte fun i hi => ?_⟩ <;>
    interval_cases i <;> simp [word32]

theorem exists_be32 {bs : List UInt8} (h : bs.length = 4) : ∃ v, bs = be32 v := by
  obtain ⟨b₀, b₁, b₂, b₃, rfl⟩ := List.length_eq_four.mp h
  exact ⟨_, (be32_word32 b₀ b₁ b₂ b₃).symm⟩

/-! ### Little-endian words

A word a machine keeps in memory, least significant byte first. -/

def le32 (v : UInt32) : List UInt8 :=
  [v.toUInt8, (v >>> 8).toUInt8, (v >>> 16).toUInt8, (v >>> 24).toUInt8]

def le64 (v : UInt64) : List UInt8 :=
  [v.toUInt8, (v >>> 8).toUInt8, (v >>> 16).toUInt8, (v >>> 24).toUInt8, (v >>> 32).toUInt8,
    (v >>> 40).toUInt8, (v >>> 48).toUInt8, (v >>> 56).toUInt8]

@[simp] theorem length_le32 (v : UInt32) : (le32 v).length = 4 := rfl

@[simp] theorem length_le64 (v : UInt64) : (le64 v).length = 8 := rfl

def getLe32 (b : Buf) (off : ℕ) : UInt32 :=
  word32 (b (off + 3)) (b (off + 2)) (b (off + 1)) (b off)

def getLe64 (b : Buf) (off : ℕ) : UInt64 :=
  ((getLe32 b (off + 4)).toUInt64 <<< 32) ||| (getLe32 b off).toUInt64

theorem getLe32_of_slice {b : Buf} {off : ℕ} {v : UInt32} (h : slice b off 4 = le32 v) :
    getLe32 b off = v := by
  rw [slice_four] at h
  simp only [le32, List.cons.injEq, and_true] at h
  obtain ⟨h₀, h₁, h₂, h₃⟩ := h
  rw [getLe32, h₀, h₁, h₂, h₃]
  exact word32_be32 v

theorem le64_eq (v : UInt64) : le64 v = le32 v.toUInt32 ++ le32 (v >>> 32).toUInt32 := by
  simp only [le64, le32, List.cons_append, List.nil_append, List.cons.injEq, and_true,
    ← UInt8.toNat_inj, UInt64.toNat_toUInt8, UInt32.toNat_toUInt8, UInt64.toNat_shiftRight,
    UInt32.toNat_shiftRight, UInt64.toNat_toUInt32, Nat.shiftRight_eq_div_pow, Nat.reducePow,
    UInt64.reduceToNat, UInt32.reduceToNat, Nat.reduceMod]
  omega

theorem reassemble64 (v : UInt64) :
    ((v >>> 32).toUInt32.toUInt64 <<< 32) ||| v.toUInt32.toUInt64 = v := by
  have hv : v.toNat < 2 ^ 64 := v.toNat_lt
  have hhigh : ((v >>> 32).toUInt32.toUInt64 <<< 32).toNat = (v.toNat / 2 ^ 32) <<< 32 := by
    simp [Nat.shiftRight_eq_div_pow, Nat.shiftLeft_eq]
    omega
  have hlow : v.toUInt32.toUInt64.toNat = v.toNat % 2 ^ 32 := by simp
  rw [← UInt64.toNat_inj, UInt64.toNat_or, hhigh, hlow,
    ← Nat.shiftLeft_add_eq_or_of_lt (Nat.mod_lt _ (by decide)), Nat.shiftLeft_eq]
  omega

theorem getLe64_of_slice {b : Buf} {off : ℕ} {v : UInt64} (h : slice b off 8 = le64 v) :
    getLe64 b off = v := by
  rw [le64_eq, show (8 : ℕ) = 4 + 4 from rfl, slice_add] at h
  obtain ⟨hlow, hhigh⟩ := List.append_inj h (by simp)
  rw [getLe64, getLe32_of_slice hlow, getLe32_of_slice hhigh]
  exact reassemble64 v

theorem getLe32_congr {b b' : Buf} {off off' : ℕ} (h : slice b off 4 = slice b' off' 4) :
    getLe32 b off = getLe32 b' off' := by
  simp only [slice_four, List.cons.injEq, and_true] at h
  obtain ⟨h₀, h₁, h₂, h₃⟩ := h
  rw [getLe32, getLe32, h₀, h₁, h₂, h₃]

def cString (bs : List UInt8) : List UInt8 := bs.takeWhile (· ≠ 0)

theorem zero_notMem_cString (bs : List UInt8) : (0 : UInt8) ∉ cString bs := fun h => by
  simpa using List.mem_takeWhile_imp h

theorem cString_append {bs : List UInt8} (h : (0 : UInt8) ∉ bs) (rest : List UInt8) :
    cString (bs ++ rest) = bs ++ cString rest :=
  List.takeWhile_append_of_pos fun c hc => by
    have hne : c ≠ 0 := fun h0 => h (h0 ▸ hc)
    simpa using hne

theorem cString_of_notMem {bs : List UInt8} (h : (0 : UInt8) ∉ bs) : cString bs = bs := by
  simpa [cString] using cString_append h []

theorem cString_take (bs : List UInt8) (n : ℕ) : cString (bs.take n) = (cString bs).take n := by
  induction bs generalizing n with
  | nil => simp [cString]
  | cons c bs ih =>
      cases n with
      | zero => rfl
      | succ n =>
          unfold cString at ih ⊢
          by_cases hc : c = 0
          · simp [hc]
          · rw [List.take_succ_cons, List.takeWhile_cons_of_pos (by simpa using hc),
              List.takeWhile_cons_of_pos (by simpa using hc), ih, List.take_succ_cons]

theorem cString_append_zero (bs : List UInt8) : cString (bs ++ [0]) = cString bs := by
  induction bs with
  | nil => rfl
  | cons b bs ih =>
      unfold cString at ih ⊢
      by_cases hb : b = 0
      · simp [hb]
      · simp only [List.cons_append, List.takeWhile_cons, ih]

/-! ### Numbers in decimal -/

def isSpace (c : UInt8) : Bool := c = 32 || (9 ≤ c && c ≤ 13)

def isDigit (c : UInt8) : Bool := 48 ≤ c && c ≤ 57

def leadingNat (t : List UInt8) : ℕ :=
  (t.takeWhile isDigit).foldl (fun n c => 10 * n + (c.toNat - 48)) 0

theorem isDigit_ofNat {c : Char} (h : c.isDigit = true) :
    isDigit (UInt8.ofNat c.toNat) = true ∧ (UInt8.ofNat c.toNat).toNat = c.toNat := by
  have hrange : 48 ≤ c.toNat ∧ c.toNat ≤ 57 := by
    simpa [Char.isDigit, UInt32.le_iff_toNat_le] using h
  have hnat : (UInt8.ofNat c.toNat).toNat = c.toNat := UInt8.toNat_ofNat_of_lt' (by
    simp only [UInt8.size]
    omega)
  refine ⟨?_, hnat⟩
  simp only [isDigit, Bool.and_eq_true, decide_eq_true_eq, UInt8.le_iff_toNat_le, hnat]
  exact hrange

theorem leadingNat_toDigits (n : ℕ) {b : UInt8} (hb : isDigit b = false) (rest : List UInt8) :
    leadingNat ((Nat.toDigits 10 n).map (fun c => UInt8.ofNat c.toNat) ++ b :: rest) = n := by
  have hdigits : ∀ c ∈ Nat.toDigits 10 n, c.isDigit = true := fun c hc =>
    Nat.isDigit_of_mem_toDigits (by decide) (by decide) hc
  have htake : ((Nat.toDigits 10 n).map (fun c => UInt8.ofNat c.toNat) ++ b :: rest).takeWhile
      isDigit = (Nat.toDigits 10 n).map fun c => UInt8.ofNat c.toNat := by
    rw [List.takeWhile_append_of_pos, List.takeWhile_cons_of_neg, List.append_nil]
    · simp [hb]
    · simpa using fun c hc => (isDigit_ofNat (hdigits c hc)).1
  rw [leadingNat, htake, List.foldl_map]
  calc
    _ = (Nat.toDigits 10 n).foldl (fun n c => 10 * n + (c.toNat - '0'.toNat)) 0 :=
      List.foldl_ext _ _ _ fun a c hc => by rw [(isDigit_ofNat (hdigits c hc)).2]; rfl
    _ = n := by rw [← Nat.ofDigitChars_eq_foldl, Nat.ofDigitChars_ten_toDigits]

/-- `strtol` with base 10. A number that is too large is replaced by the
largest `long`, and one that is too small by the smallest. -/
def strtol (t : List UInt8) : ℤ :=
  let n : ℤ :=
    match t.dropWhile isSpace with
    | 45 :: rest => -leadingNat rest
    | 43 :: rest => leadingNat rest
    | rest => leadingNat rest
  max (-2 ^ 63) (min (2 ^ 63 - 1) n)

/-- `atoi` is `strtol`, cut to 32 bits. -/
def atoi (t : List UInt8) : ℤ := (strtol (cString t) + 2 ^ 31) % 2 ^ 32 - 2 ^ 31

end LinuxMiniProjects.Bytes
