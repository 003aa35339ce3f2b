import Mathlib.Tactic
import Mathlib.Algebra.BigOperators.Group.Finset.Basic
import Mathlib.Algebra.BigOperators.Group.Finset.Piecewise

/-!
How many threads are at a point of their program.

A system of threads keeps the program counter of each thread in a
function from threads to counters, and a step of a thread updates that
function at one thread. Invariants that account for resources in flight
speak about the number of threads whose counter satisfies a predicate;
`numAt_update` says how that number changes with a step.
-/

namespace LinuxMiniProjects

variable {ι α : Type*}

theorem eq_of_update_eq [DecidableEq ι] {pc : ι → α} {i j : ι} {x y : α}
    (h : Function.update pc i x j = y) (hx : x ≠ y) : pc j = y := by
  have hji : j ≠ i := by
    rintro rfl
    exact hx (by rwa [Function.update_self] at h)
  rwa [Function.update_of_ne hji] at h

theorem forall_update [DecidableEq ι] {P : α → Prop} {pc : ι → α} (h : ∀ j, P (pc j)) {i : ι}
    {x : α} (hx : P x) (j : ι) : P (Function.update pc i x j) :=
  (Function.forall_update_iff pc fun _ a => P a).mpr ⟨hx, fun j _ => h j⟩ j

variable [Fintype ι]

def numAt (P : α → Bool) (pc : ι → α) : ℕ := ∑ i, (P (pc i)).toNat

theorem numAt_eq_zero {P : α → Bool} {pc : ι → α} (h : ∀ i, P (pc i) = false) :
    numAt P pc = 0 :=
  Finset.sum_eq_zero fun i _ => by rw [h i]; rfl

theorem eq_false_of_numAt_eq_zero {P : α → Bool} {pc : ι → α} (h : numAt P pc = 0) (i : ι) :
    P (pc i) = false := by
  have := (Finset.sum_eq_zero_iff.mp h) i (Finset.mem_univ i)
  simpa using this

theorem numAt_pos {P : α → Bool} {pc : ι → α} {i : ι} (h : P (pc i) = true) :
    0 < numAt P pc := by
  rcases Nat.eq_zero_or_pos (numAt P pc) with h0 | hpos
  · rw [eq_false_of_numAt_eq_zero h0 i] at h
    contradiction
  · exact hpos

/-- **The step rule**: what a thread that moves from `pc i` to `x` does to
the number of threads at `P`. -/
theorem numAt_update [DecidableEq ι] (P : α → Bool) (pc : ι → α) (i : ι) (x : α) :
    numAt P (Function.update pc i x) + (P (pc i)).toNat = numAt P pc + (P x).toNat := by
  have hrest : ∑ j ∈ Finset.univ.erase i, (P (Function.update pc i x j)).toNat =
      ∑ j ∈ Finset.univ.erase i, (P (pc j)).toNat :=
    Finset.sum_congr rfl fun j hj => by rw [Function.update_of_ne (Finset.ne_of_mem_erase hj)]
  have h₁ := Finset.add_sum_erase Finset.univ
    (fun j => (P (Function.update pc i x j)).toNat) (Finset.mem_univ i)
  have h₂ := Finset.add_sum_erase Finset.univ (fun j => (P (pc j)).toNat) (Finset.mem_univ i)
  simp only [Function.update_self] at h₁
  unfold numAt
  omega

theorem numAt_le_card (P : α → Bool) (pc : ι → α) : numAt P pc ≤ Fintype.card ι := by
  have hsum : numAt P pc ≤ ∑ _i : ι, 1 := Finset.sum_le_sum fun i _ => Bool.toNat_le _
  simpa using hsum

theorem numAt_or {P Q : α → Bool} (pc : ι → α) (h : ∀ a, P a = true → Q a = false) :
    numAt (fun a => P a || Q a) pc = numAt P pc + numAt Q pc := by
  unfold numAt
  rw [← Finset.sum_add_distrib]
  refine Finset.sum_congr rfl fun i _ => ?_
  cases hP : P (pc i) with
  | false => simp [hP]
  | true => simp [hP, h _ hP]

/-! ### What threads have in their hands -/

section Holding

variable {β : Type*} [DecidableEq β]

def numHolding (held : α → Option β) (pc : ι → α) (b : β) : ℕ :=
  numAt (fun a => decide (held a = some b)) pc

variable {held : α → Option β} {pc : ι → α}

theorem numHolding_eq_zero (h : ∀ i, held (pc i) = none) (b : β) : numHolding held pc b = 0 :=
  numAt_eq_zero fun i => by simp [h i]

variable [DecidableEq ι] {i : ι} {x : α} {c : β}

theorem numHolding_update (h : held x = held (pc i)) (b : β) :
    numHolding held (Function.update pc i x) b = numHolding held pc b := by
  have hcount := numAt_update (fun a => decide (held a = some b)) pc i x
  rw [h] at hcount
  exact Nat.add_right_cancel hcount

theorem numHolding_take (hi : held (pc i) = none) (hx : held x = some c) (b : β) :
    numHolding held (Function.update pc i x) b = numHolding held pc b + [c].count b := by
  have hcount := numAt_update (fun a => decide (held a = some b)) pc i x
  by_cases hb : c = b
  · simpa [numHolding, hi, hx, hb] using hcount
  · simpa [numHolding, hi, hx, hb] using hcount

theorem numHolding_release (hi : held (pc i) = some c) (hx : held x = none) (b : β) :
    numHolding held (Function.update pc i x) b + [c].count b = numHolding held pc b := by
  have hcount := numAt_update (fun a => decide (held a = some b)) pc i x
  by_cases hb : c = b
  · simpa [numHolding, hi, hx, hb] using hcount
  · simpa [numHolding, hi, hx, hb] using hcount

end Holding

end LinuxMiniProjects
