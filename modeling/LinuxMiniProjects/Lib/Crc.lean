import Mathlib.Logic.Function.Iterate
import Mathlib.Tactic.Common

/-!
Cyclic redundancy checks with the least significant bit first.

A register of `w` bits is shifted to the right, and the polynomial is
added whenever a one falls out. The bits of a message are added to the
lowest bit of the register before each shift. This is the whole
definition; the width and the polynomial are arbitrary.

A shift is linear, and so are several (`iterate_shift_xor`). This is why
the bits can be taken many at a time: those that fall out next are looked
up in a table, the others only move down (`iterate_shift_eq`). A shift can
be undone if the highest bit of the polynomial is set, so messages that
differ in at most `w` consecutive bits leave different registers
(`register_append_ne`).
-/

namespace LinuxMiniProjects.Crc

variable {w : ℕ}

def shift (poly c : BitVec w) : BitVec w := (c >>> 1) ^^^ if c.getLsbD 0 then poly else 0#w

def push (poly c : BitVec w) (b : Bool) : BitVec w :=
  shift poly (c ^^^ (BitVec.ofBool b).setWidth w)

def register (poly c : BitVec w) (bits : List Bool) : BitVec w := bits.foldl (push poly) c

/-- The bits of a message as they are added to the register, the first
one lowest. -/
def word (w : ℕ) (bits : List Bool) : BitVec w := (BitVec.ofBoolListLE bits).setWidth w

section Shift

variable {poly c d : BitVec w} {k : ℕ}

theorem shift_xor (poly c d : BitVec w) :
    shift poly (c ^^^ d) = shift poly c ^^^ shift poly d := by
  unfold shift
  rw [BitVec.getLsbD_xor, BitVec.ushiftRight_xor_distrib]
  generalize c >>> 1 = c', d >>> 1 = d'
  ext i hi
  cases c.getLsbD 0 <;> cases d.getLsbD 0 <;> simp <;>
    cases c'[i] <;> cases d'[i] <;> cases poly[i] <;> rfl

theorem iterate_shift_xor (poly c d : BitVec w) (k : ℕ) :
    (shift poly)^[k] (c ^^^ d) = (shift poly)^[k] c ^^^ (shift poly)^[k] d := by
  induction k generalizing c d with
  | zero => rfl
  | succ k ih => rw [Function.iterate_succ_apply, shift_xor, ih]; rfl

theorem iterate_shift_of_clear (h : ∀ i < k, c.getLsbD i = false) :
    (shift poly)^[k] c = c >>> k := by
  induction k with
  | zero => rfl
  | succ k ih =>
      have hlow : (c >>> k).getLsbD 0 = false := by
        rw [BitVec.getLsbD_ushiftRight]
        exact h k (Nat.lt_succ_self k)
      rw [Function.iterate_succ_apply', ih fun i hi => h i (Nat.lt_succ_of_lt hi), shift, hlow,
        BitVec.shiftRight_add]
      simp

def IsMask (mask : BitVec w) (k : ℕ) : Prop := ∀ i < w, mask.getLsbD i = decide (i < k)

/-- **Many bits at a time.** The bits that fall out decide what is added;
the others move down. -/
theorem iterate_shift_eq {mask : BitVec w} (hmask : IsMask mask k) (d : BitVec w) :
    (shift poly)^[k] d = (shift poly)^[k] (d &&& mask) ^^^ (d >>> k) := by
  have hsplit : d = (d &&& mask) ^^^ (d &&& ~~~mask) := by
    ext i hi
    simp only [BitVec.getElem_xor, BitVec.getElem_and, BitVec.getElem_not]
    cases d[i] <;> cases mask[i] <;> rfl
  have hclear : ∀ i < k, (d &&& ~~~mask).getLsbD i = false := by
    intro i hi
    by_cases hw : i < w
    · simp [hmask i hw, hi]
    · exact BitVec.getLsbD_of_ge _ _ (Nat.le_of_not_lt hw)
  have hhigh : (d &&& ~~~mask) >>> k = d >>> k := by
    apply BitVec.eq_of_getLsbD_eq
    intro i _
    rw [BitVec.getLsbD_ushiftRight, BitVec.getLsbD_ushiftRight]
    by_cases hw : k + i < w
    · rw [BitVec.getLsbD_and, BitVec.getLsbD_not, hmask _ hw]
      simp [hw]
    · rw [BitVec.getLsbD_of_ge _ _ (Nat.le_of_not_lt hw),
        BitVec.getLsbD_of_ge _ _ (Nat.le_of_not_lt hw)]
  conv_lhs => rw [hsplit]
  rw [iterate_shift_xor, iterate_shift_of_clear hclear, hhigh]

theorem shift_injective (hpoly : poly.msb = true) : Function.Injective (shift poly) := by
  intro c d h
  have hlow : c.getLsbD 0 = d.getLsbD 0 := by
    have hmsb := congrArg BitVec.msb h
    have hzero : ∀ x : BitVec w, (x >>> 1).msb = false := by simp [BitVec.msb_ushiftRight]
    rw [shift, shift, BitVec.msb_xor, BitVec.msb_xor, hzero, hzero] at hmsb
    cases hc : c.getLsbD 0 <;> cases hd : d.getLsbD 0 <;> simp [hc, hd, hpoly] at hmsb ⊢
  have hhigh : c >>> 1 = d >>> 1 := by
    rw [shift, shift, hlow] at h
    exact (BitVec.xor_left_inj _).mp h
  apply BitVec.eq_of_getLsbD_eq
  intro i _
  cases i with
  | zero => exact hlow
  | succ i =>
      have hi := congrArg (fun x => x.getLsbD i) hhigh
      simpa [Nat.add_comm 1 i] using hi

end Shift

section Register

variable {poly c : BitVec w} {bits : List Bool}

@[simp] theorem register_append (poly c : BitVec w) (bits more : List Bool) :
    register poly c (bits ++ more) = register poly (register poly c bits) more :=
  List.foldl_append

theorem getLsbD_word (bits : List Bool) {i : ℕ} (hi : i < w) :
    (word w bits).getLsbD i = bits.getD i false := by
  simp [word, hi]

theorem word_cons (b : Bool) (bits : List Bool) :
    word w (b :: bits) = (BitVec.ofBool b).setWidth w ^^^ (word w bits <<< 1) := by
  apply BitVec.eq_of_getLsbD_eq
  intro i hi
  rw [getLsbD_word _ hi, BitVec.getLsbD_xor, BitVec.getLsbD_shiftLeft, BitVec.getLsbD_setWidth,
    BitVec.getLsbD_ofBool]
  cases i with
  | zero => simp [hi]
  | succ i =>
      rw [Nat.add_sub_cancel, getLsbD_word _ (Nat.lt_of_succ_lt hi)]
      simp [hi]

theorem shift_word (poly : BitVec w) (h : bits.length < w) :
    shift poly (word w bits <<< 1) = word w bits := by
  have hclear : ∀ i < 1, (word w bits <<< 1).getLsbD i = false := by
    intro i hi
    simp [hi]
  have hshift : shift poly (word w bits <<< 1) = (word w bits <<< 1) >>> 1 :=
    iterate_shift_of_clear hclear
  rw [hshift]
  apply BitVec.eq_of_getLsbD_eq
  intro i hi
  rw [BitVec.getLsbD_ushiftRight, BitVec.getLsbD_shiftLeft, Nat.add_sub_cancel_left,
    getLsbD_word _ hi]
  by_cases hlast : 1 + i < w
  · simp [hlast]
  · have hge : bits.length ≤ i := by omega
    simp [hlast, hge]

theorem register_eq (poly c : BitVec w) (h : bits.length ≤ w) :
    register poly c bits = (shift poly)^[bits.length] (c ^^^ word w bits) := by
  induction bits generalizing c with
  | nil =>
      have hzero : word w [] = 0#w := by
        apply BitVec.eq_of_getLsbD_eq
        intro i hi
        simp [getLsbD_word _ hi]
      rw [hzero, BitVec.xor_zero]
      rfl
  | cons b bits ih =>
      have hlt : bits.length < w := h
      show register poly (push poly c b) bits = _
      rw [ih _ (Nat.le_of_lt hlt), push]
      nth_rewrite 1 [← shift_word poly hlt]
      rw [← shift_xor, List.length_cons, Function.iterate_succ_apply, word_cons,
        BitVec.xor_assoc]

theorem register_injective (hpoly : poly.msb = true) (bits : List Bool) :
    Function.Injective fun c => register poly c bits := by
  induction bits with
  | nil => exact Function.injective_id
  | cons b bits ih =>
      intro c d h
      have hpush : push poly c b = push poly d b := ih h
      exact (BitVec.xor_left_inj _).mp (shift_injective hpoly hpush)

/-- **A burst is detected.** Two messages that differ within `w`
consecutive bits leave different registers. -/
theorem register_append_ne (hpoly : poly.msb = true) {burst burst' : List Bool}
    (hlen : burst.length = burst'.length) (hle : burst.length ≤ w) (hne : burst ≠ burst')
    (c : BitVec w) (before after : List Bool) :
    register poly c (before ++ burst ++ after) ≠ register poly c (before ++ burst' ++ after) := by
  intro h
  simp only [register_append] at h
  have hburst : register poly (register poly c before) burst =
      register poly (register poly c before) burst' := register_injective hpoly after h
  have hle' : burst'.length ≤ w := hlen ▸ hle
  generalize register poly c before = c' at hburst
  rw [register_eq _ _ hle, register_eq _ _ hle', ← hlen] at hburst
  have hword : word w burst = word w burst' :=
    (BitVec.xor_right_inj _).mp ((shift_injective hpoly).iterate _ hburst)
  refine hne (List.ext_getElem hlen fun i hi hi' => ?_)
  have hi_w : i < w := Nat.lt_of_lt_of_le hi hle
  have hbit := congrArg (fun x => x.getLsbD i) hword
  rw [getLsbD_word _ hi_w, getLsbD_word _ hi_w] at hbit
  simpa [hi, hi'] using hbit

end Register

end LinuxMiniProjects.Crc
