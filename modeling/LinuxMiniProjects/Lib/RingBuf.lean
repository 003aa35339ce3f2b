import Mathlib.Tactic

/-!
Ring buffers.

A ring is an array whose indices are taken modulo its capacity, so that
only the cells below the capacity are used. What it holds is a *window*:
the cells from one index on, as many as there are entries, wrapping
around at the end. Everything a program does with a ring happens at one
of the two ends of the window, and the lemmas say what that means for
the list: a write at the index behind the window appends, advancing the
first index drops the first entry, and a write outside of the window
changes nothing.

Programs differ in what they store. Some keep a count and both indices
(`RingBuf`), others only the indices, with the count in a semaphore or with
one cell that stays free; all are a window of the same array.
-/

namespace LinuxMiniProjects

variable {α : Type*}

/-! ### Windows -/

/-- The `n` cells from the index `start` on, in a ring of capacity `N`. -/
def window (N : ℕ) (cells : ℕ → α) (start n : ℕ) : List α :=
  (List.range n).map fun k => cells ((start + k) % N)

section Window

variable {N : ℕ} {cells : ℕ → α} {start n : ℕ}

@[simp] theorem length_window : (window N cells start n).length = n := by
  simp [window]

@[simp] theorem window_zero : window N cells start 0 = [] := rfl

theorem window_mod (N : ℕ) (cells : ℕ → α) (start n : ℕ) :
    window N cells (start % N) n = window N cells start n := by
  simp [window]

theorem window_succ (N : ℕ) (cells : ℕ → α) (start n : ℕ) :
    window N cells start (n + 1) = window N cells start n ++ [cells ((start + n) % N)] := by
  simp [window, List.range_succ]

theorem window_cons (N : ℕ) (cells : ℕ → α) (start n : ℕ) :
    window N cells start (n + 1) = cells (start % N) :: window N cells (start + 1) n := by
  simp [window, List.range_succ_eq_map, Function.comp_def, Nat.add_assoc, Nat.add_comm 1]

theorem window_congr {cells' : ℕ → α}
    (h : ∀ k < n, cells' ((start + k) % N) = cells ((start + k) % N)) :
    window N cells' start n = window N cells start n :=
  List.map_congr_left fun k hk => h k (List.mem_range.mp hk)

theorem add_mod_ne {a b : ℕ} (hab : a < b) (hb : b < a + N) : a % N ≠ b % N := by
  intro h
  have hdvd : N ∣ b - a := (Nat.modEq_iff_dvd' hab.le).mp h
  have := Nat.le_of_dvd (by omega) hdvd
  omega

theorem window_update (h : n < N) (x : α) :
    window N (Function.update cells ((start + n) % N) x) start n = window N cells start n := by
  refine window_congr fun k hk => Function.update_of_ne ?_ _ _
  exact add_mod_ne (by omega) (by omega)

theorem window_push (h : n < N) (x : α) :
    window N (Function.update cells ((start + n) % N) x) start (n + 1) =
      window N cells start n ++ [x] := by
  rw [window_succ, window_update h, Function.update_self]

theorem window_update_before (h : n < N) (x : α) :
    window N (Function.update cells (start % N) x) (start + 1) n =
      window N cells (start + 1) n := by
  refine window_congr fun k hk => Function.update_of_ne (Ne.symm ?_) _ _
  exact add_mod_ne (by omega) (by omega)

end Window

/-! ### Rings with a count -/

/-- A ring with a count: `head` is the index to write, `tail` the index to
read. -/
structure RingBuf (α : Type*) where
  cells : ℕ → α
  head : ℕ
  tail : ℕ
  count : ℕ

namespace RingBuf

def push (N : ℕ) (r : RingBuf α) (x : α) : RingBuf α :=
  { r with
    cells := Function.update r.cells r.head x
    head := (r.head + 1) % N
    count := r.count + 1 }

def front (r : RingBuf α) : α := r.cells r.tail

def pop (N : ℕ) (r : RingBuf α) : RingBuf α :=
  { r with tail := (r.tail + 1) % N, count := r.count - 1 }

def setFront (r : RingBuf α) (x : α) : RingBuf α :=
  { r with cells := Function.update r.cells r.tail x }

def contents (N : ℕ) (r : RingBuf α) : List α := window N r.cells r.tail r.count

structure Valid (N : ℕ) (r : RingBuf α) : Prop where
  head : r.head = (r.tail + r.count) % N
  tail : r.tail < N
  count : r.count ≤ N

variable {N : ℕ} {r : RingBuf α}

@[simp] theorem length_contents : (r.contents N).length = r.count := length_window

theorem contents_eq_nil : r.contents N = [] ↔ r.count = 0 := by
  rw [← List.length_eq_zero_iff, length_contents]

theorem Valid.push (h : r.Valid N) (hlt : r.count < N) (x : α) : (r.push N x).Valid N where
  head := by simp [RingBuf.push, h.head, Nat.add_assoc]
  tail := h.tail
  count := hlt

theorem Valid.contents_push (h : r.Valid N) (hlt : r.count < N) (x : α) :
    (r.push N x).contents N = r.contents N ++ [x] := by
  simp only [contents, RingBuf.push, h.head]
  exact window_push hlt x

theorem Valid.pop (h : r.Valid N) (hpos : 0 < r.count) : (r.pop N).Valid N where
  head := by
    show r.head = ((r.tail + 1) % N + (r.count - 1)) % N
    rw [h.head, Nat.mod_add_mod, show r.tail + 1 + (r.count - 1) = r.tail + r.count by omega]
  tail := Nat.mod_lt _ (Nat.zero_lt_of_lt h.tail)
  count := (Nat.sub_le _ _).trans h.count

theorem Valid.contents_eq_cons (h : r.Valid N) (hpos : 0 < r.count) :
    r.contents N = r.front :: (r.pop N).contents N := by
  obtain ⟨n, hn⟩ := Nat.exists_eq_succ_of_ne_zero hpos.ne'
  simp only [contents, front, RingBuf.pop, hn, window_mod]
  rw [window_cons, Nat.mod_eq_of_lt h.tail, Nat.succ_sub_one]

theorem Valid.setFront (h : r.Valid N) (x : α) : (r.setFront x).Valid N :=
  ⟨h.head, h.tail, h.count⟩

theorem Valid.contents_setFront (h : r.Valid N) (hpos : 0 < r.count) (x : α) :
    (r.setFront x).contents N = x :: (r.pop N).contents N := by
  rw [(h.setFront x).contents_eq_cons hpos]
  refine congrArg₂ List.cons (Function.update_self ..) ?_
  have hlt : r.count - 1 < N := by have := h.count; omega
  have hbefore : window N (Function.update r.cells (r.tail % N) x) (r.tail + 1) (r.count - 1) =
      window N r.cells (r.tail + 1) (r.count - 1) := window_update_before hlt x
  rw [Nat.mod_eq_of_lt h.tail] at hbefore
  simpa only [contents, RingBuf.pop, RingBuf.setFront, window_mod] using hbefore

end RingBuf

/-! ### Rings without a count

Such a ring has only its two indices to tell how many entries there are,
so one cell stays free, and the indices are equal when it is empty. -/

/-- An index comes back to itself after no step or after a revolution. -/
theorem add_mod_eq_self_iff {N a k : ℕ} (ha : a < N) (hk : k ≤ N) :
    (a + k) % N = a ↔ k = 0 ∨ k = N := by
  constructor
  · intro h
    by_contra hne
    push Not at hne
    refine add_mod_ne (N := N) (a := a) (b := a + k) (by omega) (by omega) ?_
    rw [h, Nat.mod_eq_of_lt ha]
  · rintro (rfl | rfl)
    · exact Nat.mod_eq_of_lt ha
    · rw [Nat.add_mod_right, Nat.mod_eq_of_lt ha]

/-- The index after an access, in 32 bits. The addition does not wrap, for
the index is below the capacity. -/
theorem toNat_succ_mod {index capacity : UInt32} {cap n : ℕ} (hcap : capacity.toNat = cap)
    (hpos : 0 < cap) (h : index.toNat = n % cap) :
    ((index + 1) % capacity).toNat = (n + 1) % cap := by
  have hlt : index.toNat < cap := h ▸ Nat.mod_lt n hpos
  have hle : cap < 2 ^ 32 := hcap ▸ capacity.toNat_lt
  have hadd : (index + 1).toNat = n % cap + 1 := by
    rw [UInt32.toNat_add, UInt32.toNat_one, Nat.mod_eq_of_lt (by omega), h]
  rw [UInt32.toNat_mod, hadd, hcap, Nat.mod_add_mod]

namespace RingBuf

variable {N : ℕ} {r : RingBuf α}

theorem Valid.head_eq_tail_iff (h : r.Valid N) (hlt : r.count < N) :
    r.head = r.tail ↔ r.count = 0 := by
  rw [h.head, add_mod_eq_self_iff h.tail hlt.le]
  omega

theorem Valid.succ_head_eq_tail_iff (h : r.Valid N) (hlt : r.count < N) :
    (r.head + 1) % N = r.tail ↔ r.count + 1 = N := by
  rw [h.head, Nat.mod_add_mod, Nat.add_assoc, add_mod_eq_self_iff h.tail hlt]
  omega

end RingBuf

end LinuxMiniProjects
