import LinuxMiniProjects.CorePosix.SharedRing

/-!
What the monitor says about the shared ring (`monitor_thread`).

The monitor looks at the segment under the mutex and computes from the
two indices how many records there are and where the last one is. It does
not look at the semaphores, which let writers use all slots of the ring.
The indices of a ring that is full are equal, like those of a ring that is
empty, so what it computes is the number of records modulo the capacity
(`Inv.toNat_count`).

Every access of a process under the mutex is one step of the system, so a
state of the system is what the monitor can find when it has the mutex.
-/

namespace LinuxMiniProjects.CorePosix

open Machine

variable {α : Type*} {ι : Type*}

/-! ### The monitor -/

/-- What `monitor_thread` prints about the segment. Without a latest record
it prints that the buffer is empty. -/
structure Report (α : Type*) where
  latest : Option α
  count : UInt32
  capacity : UInt32
  dropped : UInt32
  nearlyFull : Bool
deriving DecidableEq

def ShmData.last (shm : ShmData α) : UInt32 :=
  if shm.writeIndex = 0 then shm.capacity - 1 else shm.writeIndex - 1

def ShmData.count (shm : ShmData α) : UInt32 :=
  if shm.readIndex ≤ shm.writeIndex then shm.writeIndex - shm.readIndex
  else shm.capacity - shm.readIndex + shm.writeIndex

/-- What `monitor_thread` does under the mutex. The source compares with
`capacity * 0.9` in floating point; a tenth of a number of 32 bits is exact
enough there for the comparison to be that of the integers. -/
def ShmData.report (shm : ShmData α) : Report α where
  latest := if shm.readIndex ≠ shm.writeIndex then some (shm.data shm.last.toNat) else none
  count := shm.count
  capacity := shm.capacity
  dropped := shm.dropped
  nearlyFull := decide (9 * shm.capacity.toNat < 10 * shm.count.toNat)

def Sys.held (s : Sys ι α) : ℕ := s.written.length - s.read.length

/-! ### What it computes -/

/-- The distance of two positions of a ring, from their remainders. -/
theorem sub_mod_eq_ite {r w cap : ℕ} (hcap : 0 < cap) (hle : r ≤ w) :
    (w - r) % cap =
      if r % cap ≤ w % cap then w % cap - r % cap else cap - r % cap + w % cap := by
  obtain ⟨d, rfl⟩ := Nat.exists_eq_add_of_le hle
  have hr : r % cap < cap := Nat.mod_lt _ hcap
  have hd : d % cap < cap := Nat.mod_lt _ hcap
  rw [Nat.add_sub_cancel_left, Nat.add_mod r d cap]
  by_cases hwrap : r % cap + d % cap < cap
  · rw [Nat.mod_eq_of_lt hwrap, if_pos (by omega)]
    omega
  · have hsub : (r % cap + d % cap) % cap = r % cap + d % cap - cap := by
      rw [Nat.mod_eq_sub_mod (by omega), Nat.mod_eq_of_lt (by omega)]
    rw [hsub, if_neg (by omega)]
    omega

/-- The index before an index, in the arithmetic of the segment. -/
theorem toNat_pred_mod {index capacity : UInt32} {cap n : ℕ} (hcap : capacity.toNat = cap)
    (hpos : 0 < cap) (h : index.toNat = (n + 1) % cap) :
    (if index = 0 then capacity - 1 else index - 1).toNat = n % cap := by
  have hlt : n % cap < cap := Nat.mod_lt n hpos
  have hzero : index = 0 ↔ index.toNat = 0 := UInt32.toNat_inj.symm
  rw [← Nat.mod_add_mod] at h
  split
  next h0 =>
    have hwrap : n % cap + 1 = cap := by
      by_contra hne
      rw [Nat.mod_eq_of_lt (by omega), hzero.mp h0] at h
      omega
    rw [UInt32.toNat_sub_of_le _ _ (UInt32.le_iff_toNat_le.mpr (by rw [hcap]; exact hpos)), hcap]
    exact (Nat.eq_sub_of_add_eq hwrap).symm
  next hne =>
    have hsucc : n % cap + 1 < cap := by
      by_contra hge
      rw [show n % cap + 1 = cap by omega, Nat.mod_self] at h
      exact hne (hzero.mpr h)
    rw [Nat.mod_eq_of_lt hsucc] at h
    have hle : 1 ≤ index := UInt32.le_iff_toNat_le.mpr (by rw [h]; exact Nat.le_add_left ..)
    rw [UInt32.toNat_sub_of_le _ _ hle, h]
    rfl

section Account

variable [Fintype ι] {cap : ℕ} {s : Sys ι α}

/-- **The count of the monitor** is the number of records, but for a ring
that is full. -/
theorem Inv.toNat_count (h : Inv cap s) (hcap : 0 < cap) :
    s.shm.count.toNat = s.held % cap := by
  have hread : s.shm.readIndex.toNat < cap := h.readIndex ▸ Nat.mod_lt _ hcap
  have hwrite : s.shm.writeIndex.toNat < cap := h.writeIndex ▸ Nat.mod_lt _ hcap
  have hmax : cap < 2 ^ 32 := h.capacity ▸ s.shm.capacity.toNat_lt
  rw [Sys.held, sub_mod_eq_ite hcap h.read_le_written, ← h.readIndex, ← h.writeIndex]
  unfold ShmData.count
  simp only [UInt32.le_iff_toNat_le]
  split
  next hle => rw [UInt32.toNat_sub_of_le _ _ (UInt32.le_iff_toNat_le.mpr hle)]
  next hlt =>
    have hsub : (s.shm.capacity - s.shm.readIndex).toNat = cap - s.shm.readIndex.toNat := by
      have hle : s.shm.readIndex ≤ s.shm.capacity :=
        UInt32.le_iff_toNat_le.mpr (by rw [h.capacity]; exact hread.le)
      rw [UInt32.toNat_sub_of_le _ _ hle, h.capacity]
    rw [UInt32.toNat_add, hsub, Nat.mod_eq_of_lt (by omega)]

theorem Inv.indices_eq_iff (h : Inv cap s) (hcap : 0 < cap) :
    s.shm.readIndex = s.shm.writeIndex ↔ s.held % cap = 0 := by
  have hread : s.shm.readIndex.toNat < cap := h.readIndex ▸ Nat.mod_lt _ hcap
  rw [← UInt32.toNat_inj, Sys.held, sub_mod_eq_ite hcap h.read_le_written, ← h.readIndex,
    ← h.writeIndex]
  split <;> omega

/-- A record is held: the last one that was written is in the slot before
the one that is written next. -/
theorem Inv.latest (h : Inv cap s) (hcap : 0 < cap) (hpos : 0 < s.held) :
    s.written.getLast? = some (s.shm.data s.shm.last.toNat) := by
  obtain ⟨d, hd⟩ : ∃ d, s.held = d + 1 := Nat.exists_eq_succ_of_ne_zero hpos.ne'
  have hlen : s.written.length = s.read.length + d + 1 := by
    unfold Sys.held at hd
    omega
  have hlast : s.shm.last.toNat = (s.read.length + d) % cap :=
    toNat_pred_mod h.capacity hcap (hlen ▸ h.writeIndex)
  rw [h.contents, ← Sys.held, hd, window_succ, ← List.append_assoc, List.getLast?_concat, hlast]

theorem Inv.latest_report (h : Inv cap s) (hcap : 0 < cap) :
    s.shm.report.latest = if s.held % cap = 0 then none else s.written.getLast? := by
  simp only [ShmData.report, ne_eq, h.indices_eq_iff hcap]
  by_cases hzero : s.held % cap = 0
  · rw [if_neg (not_not.mpr hzero), if_pos hzero]
  · have hpos : 0 < s.held := Nat.pos_of_ne_zero fun h0 => hzero (by rw [h0, Nat.zero_mod])
    rw [if_pos hzero, if_neg hzero, h.latest hcap hpos]

end Account

/-! ### Semaphores that were not initialised

`init_shm` fails if the capacity is more than a semaphore can hold. The
magic is set all the same, so other processes go on to use the ring; but
the semaphores are zero then, and nobody gets a permit. -/

structure ShmData.Fresh (shm : ShmData α) : Prop where
  magic : shm.hdr.magic = 0
  items : shm.items = 0
  spaces : shm.spaces = 0

theorem initShm_cases [Zero α] {shm : ShmData α} (hfresh : shm.Fresh) :
    (initShm shm).1 = 0 ∨
      ((initShm shm).2.items = 0 ∧ (initShm shm).2.spaces = 0 ∧
        (initShm shm).2.readIndex = (initShm shm).2.writeIndex) := by
  by_cases hle : shm.capacity.toNat ≤ semValueMax
  · exact .inl (by simp [initShm, semInit, hfresh.magic, hle])
  · refine .inr ?_
    simp [initShm, semInit, hfresh.magic, hle, hfresh.items, hfresh.spaces]

def Pc.Outside (c : Pc α) : Prop := c = .idle ∨ c = .refused

structure Unusable (s : Sys ι α) : Prop where
  items : s.shm.items = 0
  spaces : s.shm.spaces = 0
  indices : s.shm.readIndex = s.shm.writeIndex
  written : s.written = []
  outside : ∀ p, (s.pc p).Outside

variable [DecidableEq ι]

theorem Unusable.step {s s' : Sys ι α} {e : Event ι α} (h : Unusable s)
    (hs : step s e = some s') : Unusable s' := by
  cases e with
  | getData p =>
      simp only [CorePosix.step, Option.ite_none_right_eq_some, Option.some.injEq, Sys.getData,
        semTrywait, h.items] at hs
      obtain ⟨-, rfl⟩ := hs
      exact h
  | storageData p newData =>
      simp only [CorePosix.step, Option.ite_none_right_eq_some, Option.some.injEq,
        Sys.storageData, semTrywait, h.spaces] at hs
      obtain ⟨-, rfl⟩ := hs
      exact { h with outside := forall_update h.outside (show Pc.Outside _ from .inr rfl) }
  | next p =>
      simp only [CorePosix.step, Sys.next] at hs
      obtain hpc | hpc := h.outside p
      · simp [hpc] at hs
      · obtain rfl : s.drop p = s' := by simpa [hpc] using hs
        exact { h with outside := forall_update h.outside (show Pc.Outside _ from .inl rfl) }

/-- **The report of the monitor.** Whatever the processes have done with a
segment that `init_shm` was called on, as long as not all slots of the ring
hold a record: the count is the number of records that were written and not
read yet, the buffer is called empty if there is none, and otherwise the
latest record is the last one that was written. -/
theorem monitor_reports_held [Fintype ι] [Zero α] {shm : ShmData α} (hfresh : shm.Fresh)
    (hcap : 1 ≤ shm.capacity) {s : Sys ι α}
    (hs : Reachable step (fun _ _ => True) (Sys.init (initShm shm).2) s)
    (hroom : s.held < shm.capacity.toNat) :
    s.shm.report.count.toNat = s.held ∧
      (s.shm.report.latest = none ↔ s.held = 0) ∧
      (s.held ≠ 0 → s.shm.report.latest = s.written.getLast?) := by
  obtain hinit | ⟨hitems, hspaces, hindices⟩ := initShm_cases hfresh
  · have hpos : 0 < shm.capacity.toNat := UInt32.le_iff_toNat_le.mp hcap
    have h := Inv.of_reachable hfresh.magic (Prod.ext hinit rfl) hs
    have hlatest := h.latest_report hpos
    have hcount := h.toNat_count hpos
    rw [Nat.mod_eq_of_lt hroom] at hlatest hcount
    refine ⟨hcount, ?_, fun hne => by rw [hlatest, if_neg hne]⟩
    by_cases hzero : s.held = 0
    · rw [hlatest, if_pos hzero]
      exact iff_of_true rfl hzero
    · rw [hlatest, if_neg hzero, h.latest hpos (Nat.pos_of_ne_zero hzero)]
      exact iff_of_false (by simp) hzero
  · have h : Unusable s := by
      refine hs.invariant ⟨hitems, hspaces, hindices, rfl, fun p => .inl rfl⟩ ?_
      exact fun s e s' h _ hstep => h.step hstep
    have hheld : s.held = 0 := by simp [Sys.held, h.written]
    simp [ShmData.report, ShmData.count, hheld, h.indices]

def storeOne : List (Event Unit ℕ) := [.storageData () 7, .next (), .next ()]

def twoSlots : ShmData ℕ := { oneSlot with capacity := 2 }

theorem monitor_reports_held_twoSlots :
    ∃ s : Sys Unit ℕ, Reachable step (fun _ _ => True) (Sys.init (initShm twoSlots).2) s ∧
      s.held = 1 ∧ s.shm.report.count.toNat = 1 ∧ s.shm.report.latest = some 7 := by
  have hrun : (runs (guarded step fun _ _ => True) (Sys.init (initShm twoSlots).2)
      storeOne).map (fun s => (s.held, s.written)) = some (1, [7]) := by
    decide +kernel
  obtain ⟨s, hreach, hobs⟩ := Reachable.exists_of_runs hrun
  obtain ⟨hheld, hwritten⟩ := Prod.mk.injEq .. ▸ hobs
  have hfresh : twoSlots.Fresh := ⟨rfl, rfl, rfl⟩
  obtain ⟨hcount, -, hlatest⟩ := monitor_reports_held hfresh (by decide) hreach
    (by rw [hheld]; decide)
  refine ⟨s, hreach, hheld, hheld ▸ hcount, ?_⟩
  rw [hlatest (by rw [hheld]; decide), hwritten]
  rfl

/-- A ring with one slot, which holds a record: the monitor calls it empty. -/
theorem monitor_reports_full_as_empty :
    ∃ s : Sys Unit ℕ, Reachable step (fun _ _ => True) (Sys.init (initShm oneSlot).2) s ∧
      s.held = 1 ∧ s.shm.report = ⟨none, 0, 1, 0, false⟩ := by
  have hrun : (runs (guarded step fun _ _ => True) (Sys.init (initShm oneSlot).2)
      storeOne).map (fun s => (s.held, s.shm.report)) = some (1, ⟨none, 0, 1, 0, false⟩) := by
    decide +kernel
  obtain ⟨s, hreach, hobs⟩ := Reachable.exists_of_runs hrun
  obtain ⟨hheld, hreport⟩ := Prod.mk.injEq .. ▸ hobs
  exact ⟨s, hreach, hheld, hreport⟩

end LinuxMiniProjects.CorePosix
