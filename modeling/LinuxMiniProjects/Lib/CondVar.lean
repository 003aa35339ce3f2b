import LinuxMiniProjects.Lib.Threads

/-!
Condition variables.

Threads of one kind wait on a condition variable at one point of their
program, `waiting`, and go on at another one, `ready`, where they look at
the state again. A signal wakes one thread that waits, any of them; a
broadcast wakes all of them. Which thread a signal wakes is the choice of
the environment and is part of the label of the step.

The rule of this file is about signals that announce work. `Covered n pc`
says that `n` pieces of work are not forgotten: if some thread waits, then
there are threads on their way to look for as many. A signal for every new
piece keeps this up, and so does a thread that takes a piece; and when
nobody is on the way, there is no work while somebody waits.
-/

namespace LinuxMiniProjects.CondVar

variable {ι α : Type*}

inductive Signalled [DecidableEq ι] (waiting ready : α) (pc : ι → α) : (ι → α) → Prop
  | one {i : ι} (wait : pc i = waiting) :
      Signalled waiting ready pc (Function.update pc i ready)
  | nobody (busy : ∀ i, pc i ≠ waiting) : Signalled waiting ready pc pc

/-- Some threads that waited are ready, and the others are where they
were. -/
def Woken (waiting ready : α) (pc pc' : ι → α) : Prop :=
  ∀ i, pc' i = pc i ∨ pc i = waiting ∧ pc' i = ready

variable {waiting ready x : α} {pc pc' : ι → α} {i : ι}

theorem Signalled.woken [DecidableEq ι] (h : Signalled waiting ready pc pc') :
    Woken waiting ready pc pc' := by
  intro j
  cases h with
  | @one i wait =>
      by_cases hj : j = i
      · subst hj
        exact .inr ⟨wait, Function.update_self ..⟩
      · exact .inl (Function.update_of_ne hj ..)
  | nobody busy => exact .inl rfl

theorem Woken.eq_of_eq (h : Woken waiting ready pc pc') (hi : pc' i = x) (hx : x ≠ ready) :
    pc i = x := by
  rcases h i with heq | ⟨-, hready⟩
  · exact heq.symm.trans hi
  · exact absurd (hi.symm.trans hready) hx

theorem Woken.forall {P : α → Prop} (h : Woken waiting ready pc pc') (hP : ∀ j, P (pc j))
    (hready : P ready) (j : ι) : P (pc' j) := by
  rcases h j with heq | ⟨-, heq⟩
  · rw [heq]
    exact hP j
  · rwa [heq]

/-- A count that takes no notice of being woken stays the same. -/
theorem Woken.numAt_eq [Fintype ι] (h : Woken waiting ready pc pc') {P : α → Bool}
    (hP : P waiting = P ready) : numAt P pc' = numAt P pc := by
  refine Finset.sum_congr rfl fun i _ => ?_
  rcases h i with heq | ⟨hwait, hready⟩
  · rw [heq]
  · rw [hwait, hready, hP]

theorem Woken.numHolding_eq [Fintype ι] {β : Type*} [DecidableEq β] {held : α → Option β}
    (h : Woken waiting ready pc pc') (hheld : held waiting = held ready) (b : β) :
    numHolding held pc' b = numHolding held pc b :=
  h.numAt_eq (by rw [hheld])

theorem Signalled.numAt_le [DecidableEq ι] [Fintype ι] (h : Signalled waiting ready pc pc')
    (P : α → Bool) : numAt P pc' ≤ numAt P pc + 1 := by
  cases h with
  | @one i wait =>
      have hcount := numAt_update P pc i ready
      have := Bool.toNat_le (P ready)
      omega
  | nobody busy => exact Nat.le_succ _

/-! ### Signals and broadcasts -/

variable [DecidableEq α]

/-- `pthread_cond_signal`. With nobody waiting it does nothing. -/
def signal [DecidableEq ι] [Fintype ι] (waiting ready : α) (pc : ι → α) :
    Option ι → Option (ι → α)
  | some i => if pc i = waiting then some (Function.update pc i ready) else none
  | none => if ∀ i, pc i ≠ waiting then some pc else none

theorem signal_inv [DecidableEq ι] [Fintype ι] {w : Option ι}
    (h : signal waiting ready pc w = some pc') : Signalled waiting ready pc pc' := by
  cases w with
  | some i =>
      simp only [signal, Option.ite_none_right_eq_some, Option.some.injEq] at h
      exact h.2 ▸ .one h.1
  | none =>
      simp only [signal, Option.ite_none_right_eq_some, Option.some.injEq] at h
      exact h.2 ▸ .nobody h.1

theorem exists_signal_eq_some [DecidableEq ι] [Fintype ι] (waiting ready : α) (pc : ι → α) :
    ∃ w pc', signal waiting ready pc w = some pc' := by
  by_cases h : ∀ i, pc i ≠ waiting
  · exact ⟨none, pc, if_pos h⟩
  · obtain ⟨i, hi⟩ := not_forall_not.mp h
    exact ⟨some i, _, if_pos hi⟩

def broadcast (waiting ready : α) (pc : ι → α) : ι → α :=
  fun i => if pc i = waiting then ready else pc i

theorem woken_broadcast (waiting ready : α) (pc : ι → α) :
    Woken waiting ready pc (broadcast waiting ready pc) := by
  intro i
  unfold broadcast
  split
  next wait => exact .inr ⟨wait, rfl⟩
  next => exact .inl rfl

theorem broadcast_ne (h : ready ≠ waiting) (pc : ι → α) (i : ι) :
    broadcast waiting ready pc i ≠ waiting := by
  unfold broadcast
  split
  next => exact h
  next hne => exact hne

/-! ### Work that is not forgotten -/

/-- If somebody waits, there are threads on the way for `n` pieces of
work. -/
def Covered [Fintype ι] (waiting ready : α) (n : ℕ) (pc : ι → α) : Prop :=
  (∃ i, pc i = waiting) → n ≤ numAt (fun a => decide (a = ready)) pc

section Covered

variable [Fintype ι] {n : ℕ}

theorem Covered.zero (pc : ι → α) : Covered waiting ready 0 pc := fun _ => Nat.zero_le _

theorem Covered.broadcast (hne : ready ≠ waiting) :
    Covered waiting ready n (broadcast waiting ready pc) :=
  fun ⟨i, wait⟩ => absurd wait (broadcast_ne hne pc i)

/-- With nobody on the way and somebody waiting there is no work. -/
theorem Covered.eq_zero (h : Covered waiting ready n pc) (hi : pc i = waiting)
    (hready : ∀ j, pc j ≠ ready) : n = 0 := by
  have hzero : numAt (fun a => decide (a = ready)) pc = 0 :=
    numAt_eq_zero fun j => decide_eq_false (hready j)
  have := h ⟨i, hi⟩
  omega

variable [DecidableEq ι]

theorem Covered.signal (h : Covered waiting ready n pc) (hne : waiting ≠ ready)
    (hs : Signalled waiting ready pc pc') : Covered waiting ready (n + 1) pc' := by
  cases hs with
  | @one i wait =>
      intro _
      have hcount := numAt_update (fun a => decide (a = ready)) pc i ready
      simp only [wait, hne, decide_false, decide_true, Bool.toNat_false, Bool.toNat_true] at hcount
      have := h ⟨i, wait⟩
      omega
  | nobody busy => exact fun ⟨i, wait⟩ => absurd wait (busy i)

theorem Covered.take (h : Covered waiting ready (n + 1) pc) (hi : pc i = ready)
    (hwait : x ≠ waiting) (hready : x ≠ ready) :
    Covered waiting ready n (Function.update pc i x) := by
  rintro ⟨j, hj⟩
  have hcount := numAt_update (fun a => decide (a = ready)) pc i x
  simp only [hi, hready, decide_true, decide_false, Bool.toNat_true, Bool.toNat_false] at hcount
  have := h ⟨j, eq_of_update_eq hj hwait⟩
  omega

theorem Covered.update (h : Covered waiting ready n pc) (hi : pc i ≠ ready) (hwait : x ≠ waiting) :
    Covered waiting ready n (Function.update pc i x) := by
  rintro ⟨j, hj⟩
  have hcount := numAt_update (fun a => decide (a = ready)) pc i x
  simp only [hi, decide_false, Bool.toNat_false] at hcount
  have := h ⟨j, eq_of_update_eq hj hwait⟩
  omega

end Covered

end LinuxMiniProjects.CondVar
