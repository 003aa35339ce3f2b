import Mathlib.Data.Nat.ModEq
import Mathlib.Tactic.Common

/-!
Sums with an end-around carry.

A sum is cut to one word of base `b` by adding what is carried out of the
word at its lower end, until nothing is carried any more. A turn of this
does not change the sum modulo `b - 1`, and it leads to zero only from
zero. So the word that is left in the end is zero for zero, and else the
residue modulo `b - 1`, taken from `1` to `b - 1`.
-/

namespace LinuxMiniProjects.EndAround

def turn (b n : ℕ) : ℕ := n % b + n / b

def word (b n : ℕ) : ℕ := if n = 0 then 0 else (n - 1) % (b - 1) + 1

section Turns

variable {b m n : ℕ}

theorem turn_modEq (hb : 0 < b) (n : ℕ) : turn b n ≡ n [MOD b - 1] := by
  have hone : 1 ≡ b [MOD b - 1] := (Nat.modEq_sub hb).symm
  calc turn b n = n % b + 1 * (n / b) := by rw [turn, Nat.one_mul]
    _ ≡ n % b + b * (n / b) [MOD b - 1] := (hone.mul_right _).add_left _
    _ = n := Nat.mod_add_div n b

theorem turn_eq_zero_iff : turn b n = 0 ↔ n = 0 := by
  constructor
  · intro h
    obtain ⟨hmod, hdiv⟩ := Nat.add_eq_zero_iff.mp h
    rw [← Nat.mod_add_div n b, hmod, hdiv, Nat.mul_zero]
  · rintro rfl
    rw [turn, Nat.zero_mod, Nat.zero_div]

theorem turn_lt (hb : 1 < b) (h : b ≤ n) : turn b n < n := by
  have hcarry : 0 < n / b := Nat.div_pos h (Nat.zero_lt_of_lt hb)
  calc turn b n < n % b + b * (n / b) :=
        Nat.add_lt_add_left ((Nat.lt_mul_iff_one_lt_left hcarry).mpr hb) _
    _ = n := Nat.mod_add_div n b

theorem word_of_lt (h : n < b) : word b n = n := by
  unfold word
  split
  next hzero => exact hzero.symm
  next hpos => rw [Nat.mod_eq_of_lt (by omega), Nat.sub_add_cancel (Nat.pos_of_ne_zero hpos)]

theorem word_eq_word_iff :
    word b m = word b n ↔ m ≡ n [MOD b - 1] ∧ (m = 0 ↔ n = 0) := by
  unfold word
  by_cases hm : m = 0
  · subst hm
    by_cases hn : n = 0
    · subst hn
      simp [Nat.ModEq.refl]
    · simp [hn]
  · by_cases hn : n = 0
    · simp [hm, hn]
    · obtain ⟨m, rfl⟩ := Nat.exists_eq_succ_of_ne_zero hm
      obtain ⟨n, rfl⟩ := Nat.exists_eq_succ_of_ne_zero hn
      rw [if_neg hm, if_neg hn, Nat.add_right_cancel_iff]
      simp only [Nat.succ_eq_add_one, Nat.add_sub_cancel, Nat.add_one_ne_zero, and_true]
      exact ⟨fun h => Nat.ModEq.add_right 1 h, fun h => Nat.ModEq.add_right_cancel' 1 h⟩

theorem word_turn (hb : 0 < b) (n : ℕ) : word b (turn b n) = word b n :=
  word_eq_word_iff.mpr ⟨turn_modEq hb n, turn_eq_zero_iff⟩

theorem word_ne_of_lt (hlt : m < n) (hle : n < m + (b - 1)) : word b m ≠ word b n := by
  intro h
  have hmod := (word_eq_word_iff.mp h).1
  obtain ⟨k, hk⟩ := (Nat.modEq_iff_dvd' hlt.le).mp hmod
  have hpos : k ≠ 0 := by
    rintro rfl
    omega
  have hge : b - 1 ≤ (b - 1) * k := Nat.le_mul_of_pos_right _ (Nat.pos_of_ne_zero hpos)
  omega

end Turns

end LinuxMiniProjects.EndAround
