import LinuxMiniProjects.Lib.Machine
import LinuxMiniProjects.Lib.RingBuf

/-!
The ring in the System V shared memory of the sensor hub.

The segment holds the records and two indices, and everything else is told
from the indices: `get_data` calls the ring empty if they are equal, and
`storage_data` calls it full if one more record would make them equal. So
one slot stays free, and the ring is a queue of `capacity - 1` records that
drops what does not fit.

The calls of all processes exclude each other by a semaphore. The hub and
the writers call `init_shmem` before anything else, and of these calls only
the first one does something. The monitor never calls it, so its calls of
`get_data` may find the segment as the kernel has made it, with a capacity
of zero.
-/

namespace LinuxMiniProjects.SensorHub

open Machine

variable {α : Type*} {ι : Type*}

/-! ### The segment -/

def shmMagic : UInt32 := 0x20213026

def shmVersion : UInt32 := 1

def capDefault : UInt32 := 10

structure ShmHeader where
  magic : UInt32
  version : UInt32

structure ShmData (α : Type*) where
  hdr : ShmHeader
  capacity : UInt32
  readIndex : UInt32
  writeIndex : UInt32
  dropped : UInt32
  data : ℕ → α

inductive Out (α : Type*)
  | initialised
  | existed
  | fetched (data : α)
  | empty
  | stored
  | dropped (total : UInt32)
  | trap
deriving DecidableEq

def remainder (a b : UInt32) : Option UInt32 := if b = 0 then none else some (a % b)

/-- The capacity that `init_shmem` leaves: the one that is there, the one
that is given, or the default. -/
def chooseCapacity (old : UInt32) (capacity : Int32) : UInt32 :=
  if old = 0 then
    if capacity ≠ 0 then capacity.toUInt32 else capDefault
  else old

def ShmData.initShmem [Zero α] (shm : ShmData α) (capacity : Int32) : Out α × ShmData α :=
  if shm.hdr.magic ≠ shmMagic then
    let cap := chooseCapacity shm.capacity capacity
    (.initialised,
      { hdr := { magic := shmMagic, version := shmVersion }
        capacity := cap
        readIndex := 0
        writeIndex := 0
        dropped := 0
        data := fun i => if i < cap.toNat then 0 else shm.data i })
  else (.existed, shm)

def ShmData.getData (shm : ShmData α) : Out α × ShmData α :=
  if shm.readIndex ≠ shm.writeIndex then
    match remainder (shm.readIndex + 1) shm.capacity with
    | none => (.trap, shm)
    | some readIndex => (.fetched (shm.data shm.readIndex.toNat), { shm with readIndex })
  else (.empty, shm)

def ShmData.storageData (shm : ShmData α) (newData : α) : Out α × ShmData α :=
  match remainder (shm.writeIndex + 1) shm.capacity with
  | none => (.trap, shm)
  | some nextWrite =>
      if nextWrite ≠ shm.readIndex then
        (.stored, { shm with
          data := Function.update shm.data shm.writeIndex.toNat newData
          writeIndex := nextWrite })
      else (.dropped (shm.dropped + 1), { shm with dropped := shm.dropped + 1 })

/-! ### The processes -/

inductive Call (α : Type*)
  | initShmem (capacity : Int32)
  | getData
  | storageData (newData : α)

structure CallBy (ι α : Type*) where
  process : ι
  call : Call α

structure Hub (ι α : Type*) where
  shm : ShmData α
  started : ι → Bool

/-- A segment that was never initialised. A new one is all zero; what is
said about it holds for any capacity and any records in it. -/
def Hub.init (capacity : UInt32) (data : ℕ → α) : Hub ι α where
  shm := { hdr := { magic := 0, version := 0 }, capacity, readIndex := 0, writeIndex := 0,
           dropped := 0, data }
  started := fun _ => false

def ShmData.call [Zero α] (shm : ShmData α) : Call α → Out α × ShmData α
  | .initShmem capacity => shm.initShmem capacity
  | .getData => shm.getData
  | .storageData newData => shm.storageData newData

def Call.starts : Call α → Bool
  | initShmem _ => true
  | _ => false

def Call.stores : Call α → Bool
  | storageData _ => true
  | _ => false

variable [DecidableEq ι]

def Hub.step [Zero α] (s : Hub ι α) (e : CallBy ι α) : Out α × Hub ι α :=
  ((s.shm.call e.call).1,
    { shm := (s.shm.call e.call).2
      started := if e.call.starts then Function.update s.started e.process true else s.started })

/-- The order of the calls of a process: it stores records only after its
call of `init_shmem`. -/
def Hub.InOrder (s : Hub ι α) (e : CallBy ι α) : Prop :=
  e.call.stores = true → s.started e.process = true

instance (s : Hub ι α) (e : CallBy ι α) : Decidable (s.InOrder e) :=
  inferInstanceAs (Decidable (_ = true → _ = true))

/-! ### The queue -/

/-- A queue of bounded size that drops what does not fit. It has no size
before it is initialised. -/
structure DropQueue (α : Type*) where
  size : Option ℕ
  held : List α
  dropped : ℕ

def DropQueue.init : DropQueue α := ⟨none, [], 0⟩

/-- What the calls do to the queue, where `old` is the capacity that the
segment had at first. The number of dropped records is reported in 32 bits. -/
def DropQueue.call (old : UInt32) (q : DropQueue α) : Call α → Out α × DropQueue α
  | .initShmem capacity =>
      match q.size with
      | none =>
          (.initialised, { q with size := some ((chooseCapacity old capacity).toNat - 1) })
      | some _ => (.existed, q)
  | .getData =>
      match q.held with
      | [] => (.empty, q)
      | x :: rest => (.fetched x, { q with held := rest })
  | .storageData newData =>
      if q.held.length < q.size.getD 0 then (.stored, { q with held := q.held ++ [newData] })
      else (.dropped (UInt32.ofNat (q.dropped + 1)), { q with dropped := q.dropped + 1 })

def DropQueue.step (old : UInt32) (q : DropQueue α) (e : CallBy ι α) : Out α × DropQueue α :=
  q.call old e.call

/-! ### The ring is the queue -/

section Ring

variable {shm : ShmData α} {q : DropQueue α} {old : UInt32}

def ShmData.ring (shm : ShmData α) (n : ℕ) : RingBuf α :=
  ⟨shm.data, shm.writeIndex.toNat, shm.readIndex.toNat, n⟩

structure Blank (old : UInt32) (shm : ShmData α) (q : DropQueue α) : Prop where
  magic : shm.hdr.magic ≠ shmMagic
  capacity : shm.capacity = old
  indices : shm.readIndex = 0 ∧ shm.writeIndex = 0
  queue : q = .init

structure Live (shm : ShmData α) (q : DropQueue α) : Prop where
  magic : shm.hdr.magic = shmMagic
  size : q.size = some (shm.capacity.toNat - 1)
  ring : (shm.ring q.held.length).Valid shm.capacity.toNat
  room : q.held.length < shm.capacity.toNat
  held : (shm.ring q.held.length).contents shm.capacity.toNat = q.held
  dropped : shm.dropped = UInt32.ofNat q.dropped

omit [DecidableEq ι]

theorem toNat_pos {x : UInt32} (h : x ≠ 0) : 0 < x.toNat :=
  Nat.pos_of_ne_zero fun hx => h (UInt32.toNat_inj.mp hx)

/-- A capacity that is given is not zero in 32 bits either, whatever its
sign. -/
theorem chooseCapacity_pos (old : UInt32) (capacity : Int32) :
    0 < (chooseCapacity old capacity).toNat := by
  unfold chooseCapacity
  split
  next =>
    split
    next hne => exact toNat_pos fun hzero => hne (congrArg UInt32.toInt32 hzero)
    next => decide
  next hne => exact toNat_pos hne

theorem Live.initShmem [Zero α] (h : Live shm q) (old : UInt32) (capacity : Int32) :
    (shm.initShmem capacity).1 = (q.call old (.initShmem capacity)).1 ∧
      Live (shm.initShmem capacity).2 (q.call old (.initShmem capacity)).2 := by
  have hinit : shm.initShmem capacity = (.existed, shm) := if_neg (not_not.mpr h.magic)
  have hcall : q.call old (.initShmem capacity) = (.existed, q) := by
    rw [DropQueue.call, h.size]
  rw [hinit, hcall]
  exact ⟨rfl, h⟩

theorem Blank.initShmem [Zero α] (h : Blank old shm q) (capacity : Int32) :
    (shm.initShmem capacity).1 = (q.call old (.initShmem capacity)).1 ∧
      Live (shm.initShmem capacity).2 (q.call old (.initShmem capacity)).2 := by
  have hpos := chooseCapacity_pos old capacity
  rw [h.queue]
  simp only [ShmData.initShmem, ne_eq, h.magic, not_false_eq_true, if_true, h.capacity,
    DropQueue.call, DropQueue.init, true_and]
  exact
    { magic := rfl
      size := rfl
      ring := ⟨(Nat.zero_mod _).symm, hpos, Nat.zero_le _⟩
      room := hpos
      held := rfl
      dropped := rfl }

theorem Blank.getData (h : Blank old shm q) :
    shm.getData = (.empty, shm) ∧ q.call old .getData = (.empty, q) := by
  rw [h.queue]
  exact ⟨if_neg (by simp [h.indices]), rfl⟩

theorem Live.remainder (h : Live shm q) {index : UInt32} {n : ℕ}
    (hindex : index.toNat = n % shm.capacity.toNat) :
    ∃ next, remainder (index + 1) shm.capacity = some next ∧
      next.toNat = (n + 1) % shm.capacity.toNat := by
  have hpos : 0 < shm.capacity.toNat := Nat.zero_lt_of_lt h.room
  have hne : shm.capacity ≠ 0 := by
    intro hzero
    rw [hzero] at hpos
    exact hpos.false
  exact ⟨_, if_neg hne, toNat_succ_mod rfl hpos hindex⟩

theorem Live.pop {x : α} {rest : List α} (h : Live shm q) (hheld : q.held = x :: rest)
    {next : UInt32} (hnext : next.toNat = (shm.readIndex.toNat + 1) % shm.capacity.toNat) :
    shm.data shm.readIndex.toNat = x ∧
      Live { shm with readIndex := next } { q with held := rest } := by
  have hroom := h.room
  have hlen : q.held.length = rest.length + 1 := by rw [hheld]; rfl
  have hcount : 0 < (shm.ring q.held.length).count := by
    show 0 < q.held.length
    omega
  have hpop : ({ shm with readIndex := next } : ShmData α).ring rest.length =
      (shm.ring q.held.length).pop shm.capacity.toNat := by
    simp only [ShmData.ring, RingBuf.pop, hnext, hlen, Nat.add_sub_cancel]
  -- The rest of the ring is what is left of the queue.
  have hcons := h.ring.contents_eq_cons hcount
  rw [h.held, ← hpop, hheld, List.cons.injEq] at hcons
  refine ⟨hcons.1.symm, ?_⟩
  exact
    { magic := h.magic
      size := h.size
      ring := hpop ▸ h.ring.pop hcount
      room := by
        show rest.length < shm.capacity.toNat
        omega
      held := hcons.2.symm
      dropped := h.dropped }

/-- A record in the slot of the write index comes last in the queue, unless
it would take the slot that is kept free. -/
theorem Live.push (h : Live shm q) (hroom : q.held.length + 1 < shm.capacity.toNat)
    {next : UInt32}
    (hnext : next.toNat = (shm.readIndex.toNat + q.held.length + 1) % shm.capacity.toNat)
    (newData : α) :
    Live { shm with
        data := Function.update shm.data shm.writeIndex.toNat newData
        writeIndex := next } { q with held := q.held ++ [newData] } := by
  have hhead : shm.writeIndex.toNat =
      (shm.readIndex.toNat + q.held.length) % shm.capacity.toNat := h.ring.head
  have hpush : ({ shm with
        data := Function.update shm.data shm.writeIndex.toNat newData
        writeIndex := next } : ShmData α).ring (q.held ++ [newData]).length =
      (shm.ring q.held.length).push shm.capacity.toNat newData := by
    simp only [ShmData.ring, RingBuf.push, hnext, hhead, Nat.mod_add_mod, List.length_append,
      List.length_singleton]
  exact
    { magic := h.magic
      size := h.size
      ring := hpush ▸ h.ring.push h.room newData
      room := by
        show (q.held ++ [newData]).length < shm.capacity.toNat
        rwa [List.length_append, List.length_singleton]
      held := by
        have hcontents := h.ring.contents_push h.room newData
        rw [h.held] at hcontents
        exact hpush ▸ hcontents
      dropped := h.dropped }

theorem Live.getData (h : Live shm q) (old : UInt32) :
    shm.getData.1 = (q.call old .getData).1 ∧
      Live shm.getData.2 (q.call old .getData).2 := by
  have hempty : shm.readIndex = shm.writeIndex ↔ q.held.length = 0 := by
    rw [eq_comm, ← UInt32.toNat_inj]
    exact h.ring.head_eq_tail_iff h.room
  cases hheld : q.held with
  | nil =>
      have hcall : q.call old .getData = (.empty, q) := by rw [DropQueue.call, hheld]
      have hget : shm.getData = (.empty, shm) :=
        if_neg (not_not.mpr (hempty.mpr (by rw [hheld]; rfl)))
      rw [hcall, hget]
      exact ⟨rfl, h⟩
  | cons x rest =>
      have hcall : q.call old .getData = (.fetched x, { q with held := rest }) := by
        rw [DropQueue.call, hheld]
      have hne : shm.readIndex ≠ shm.writeIndex := by
        rw [ne_eq, hempty, hheld]
        exact Nat.succ_ne_zero _
      obtain ⟨next, hrem, hnext⟩ := h.remainder (Nat.mod_eq_of_lt h.ring.tail).symm
      have hget : shm.getData =
          (.fetched (shm.data shm.readIndex.toNat), { shm with readIndex := next }) := by
        rw [ShmData.getData, if_pos hne, hrem]
      obtain ⟨hdata, hlive⟩ := h.pop hheld hnext
      rw [hcall, hget, hdata]
      exact ⟨rfl, hlive⟩

theorem Live.storageData (h : Live shm q) (old : UInt32) (newData : α) :
    (shm.storageData newData).1 = (q.call old (.storageData newData)).1 ∧
      Live (shm.storageData newData).2 (q.call old (.storageData newData)).2 := by
  have hroom := h.room
  have hhead : shm.writeIndex.toNat =
      (shm.readIndex.toNat + q.held.length) % shm.capacity.toNat := h.ring.head
  obtain ⟨next, hrem, hnext⟩ := h.remainder hhead
  have hfull : next = shm.readIndex ↔ q.held.length + 1 = shm.capacity.toNat := by
    rw [← UInt32.toNat_inj, hnext, ← Nat.mod_add_mod, ← hhead]
    exact h.ring.succ_head_eq_tail_iff h.room
  by_cases hlt : q.held.length < shm.capacity.toNat - 1
  · have hcall : q.call old (.storageData newData) =
        (.stored, { q with held := q.held ++ [newData] }) := by
      rw [DropQueue.call, h.size]
      exact if_pos hlt
    have hne : next ≠ shm.readIndex := by
      rw [ne_eq, hfull]
      omega
    have hstore : shm.storageData newData =
        (.stored, { shm with
          data := Function.update shm.data shm.writeIndex.toNat newData
          writeIndex := next }) := by
      simp only [ShmData.storageData, hrem, if_pos hne]
    rw [hcall, hstore]
    exact ⟨rfl, h.push (by omega) hnext newData⟩
  · have hcall : q.call old (.storageData newData) =
        (.dropped (UInt32.ofNat (q.dropped + 1)), { q with dropped := q.dropped + 1 }) := by
      rw [DropQueue.call, h.size]
      exact if_neg hlt
    have heq : next = shm.readIndex := by
      rw [hfull]
      omega
    have hdropped : shm.dropped + 1 = UInt32.ofNat (q.dropped + 1) := by
      rw [h.dropped, UInt32.ofNat_add]
      rfl
    have hstore : shm.storageData newData =
        (.dropped (shm.dropped + 1), { shm with dropped := shm.dropped + 1 }) := by
      simp only [ShmData.storageData, hrem, heq, ne_eq, not_true_eq_false, if_false]
    rw [hcall, hstore, hdropped]
    exact ⟨rfl, { h with dropped := rfl }⟩

end Ring

/-! ### Runs -/

section Runs

variable [Zero α] {s : Hub ι α} {q : DropQueue α} {old : UInt32}

/-- The segment and the queue. Nobody has called `init_shmem` if the segment
is not initialised. -/
def Hub.Refines (old : UInt32) (s : Hub ι α) (q : DropQueue α) : Prop :=
  Blank old s.shm q ∧ (∀ p, s.started p = false) ∨ Live s.shm q

theorem Hub.Refines.step (h : s.Refines old q) {e : CallBy ι α} (hok : s.InOrder e) :
    (s.step e).1 = (q.step old e).1 ∧ (s.step e).2.Refines old (q.step old e).2 := by
  obtain ⟨p, call⟩ := e
  obtain ⟨hblank, hstarted⟩ | hlive := h
  · cases call with
    | initShmem capacity =>
        obtain ⟨hout, hlive⟩ := hblank.initShmem capacity
        exact ⟨hout, .inr hlive⟩
    | getData =>
        obtain ⟨hget, hcall⟩ := hblank.getData
        simp only [Hub.step, ShmData.call, DropQueue.step, hget, hcall, true_and]
        exact .inl ⟨hblank, hstarted⟩
    | storageData newData =>
        have hp := hok rfl
        rw [hstarted] at hp
        cases hp
  · cases call with
    | initShmem capacity =>
        obtain ⟨hout, hlive⟩ := hlive.initShmem old capacity
        exact ⟨hout, .inr hlive⟩
    | getData =>
        obtain ⟨hout, hlive⟩ := hlive.getData old
        exact ⟨hout, .inr hlive⟩
    | storageData newData =>
        obtain ⟨hout, hlive⟩ := hlive.storageData old newData
        exact ⟨hout, .inr hlive⟩

def storedRecord : CallBy ι α × Out α → Option α
  | (⟨_, .storageData newData⟩, .stored) => some newData
  | _ => none

def Out.record : Out α → Option α
  | fetched data => some data
  | _ => none

def storedRecords (es : List (CallBy ι α)) (outs : List (Out α)) : List α :=
  (es.zip outs).filterMap storedRecord

def fetchedRecords (outs : List (Out α)) : List α := outs.filterMap Out.record

omit [Zero α] [DecidableEq ι]

theorem storedRecords_cons (e : CallBy ι α) (es : List (CallBy ι α)) (out : Out α)
    (outs : List (Out α)) :
    storedRecords (e :: es) (out :: outs) =
      (storedRecord (e, out)).toList ++ storedRecords es outs := by
  cases h : storedRecord (e, out) <;> simp [storedRecords, h]

theorem fetchedRecords_cons (out : Out α) (outs : List (Out α)) :
    fetchedRecords (out :: outs) = out.record.toList ++ fetchedRecords outs := by
  cases h : out.record <;> simp [fetchedRecords, h]

theorem DropQueue.step_held (q : DropQueue α) (e : CallBy ι α) :
    q.held ++ (storedRecord (e, (q.step old e).1)).toList =
      (q.step old e).1.record.toList ++ (q.step old e).2.held := by
  obtain ⟨p, call⟩ := e
  cases call with
  | initShmem capacity | storageData newData =>
      simp only [DropQueue.step, DropQueue.call]
      split <;> simp [storedRecord, Out.record]
  | getData =>
      simp only [DropQueue.step, DropQueue.call]
      split
      next hheld => simp [storedRecord, Out.record, hheld]
      next hheld => simp [storedRecord, Out.record, hheld]

theorem DropQueue.stored_eq (q : DropQueue α) (es : List (CallBy ι α)) :
    q.held ++ storedRecords es (trace (DropQueue.step old) q es) =
      fetchedRecords (trace (DropQueue.step old) q es) ++
        (exec (DropQueue.step old) q es).held := by
  induction es generalizing q with
  | nil => simp [storedRecords, fetchedRecords, trace, exec]
  | cons e es ih =>
      rw [trace, exec, storedRecords_cons, fetchedRecords_cons, ← List.append_assoc,
        DropQueue.step_held, List.append_assoc, List.append_assoc, ih]

theorem DropQueue.trap_notMem_trace (q : DropQueue α) (es : List (CallBy ι α)) :
    .trap ∉ trace (DropQueue.step old) q es := by
  induction es generalizing q with
  | nil => exact List.not_mem_nil
  | cons e es ih =>
      rw [trace, List.mem_cons, not_or]
      refine ⟨?_, ih _⟩
      obtain ⟨p, call⟩ := e
      cases call <;> simp only [DropQueue.step, DropQueue.call] <;> split <;> simp

/-- The indices are below the capacity, or the segment is as it was made. -/
def ShmData.InRange (shm : ShmData α) : Prop :=
  if shm.hdr.magic = shmMagic then
    shm.readIndex < shm.capacity ∧ shm.writeIndex < shm.capacity
  else shm.readIndex = 0 ∧ shm.writeIndex = 0

theorem Hub.Refines.inRange (h : s.Refines old q) : s.shm.InRange := by
  unfold ShmData.InRange
  obtain ⟨hblank, -⟩ | hlive := h
  · rw [if_neg hblank.magic]
    exact hblank.indices
  · rw [if_pos hlive.magic, UInt32.lt_iff_toNat_lt, UInt32.lt_iff_toNat_lt]
    refine ⟨hlive.ring.tail, ?_⟩
    have hhead : s.shm.writeIndex.toNat = _ := hlive.ring.head
    rw [hhead]
    exact Nat.mod_lt _ (Nat.zero_lt_of_lt hlive.room)

/-- **The ring is a queue.** Whatever calls the processes make, the ring
answers like a queue of `capacity - 1` records that drops what does not fit:
the records that were stored are the records that were fetched, in this
order, followed by those in the queue. The remainder is never taken by a
capacity of zero, and the indices stay below the capacity. -/
theorem shm_ring_refines_queue [DecidableEq ι] [Zero α] (old : UInt32) (data : ℕ → α)
    {es : List (CallBy ι α)} (h : Meets Hub.step Hub.InOrder (Hub.init old data) es) :
    trace Hub.step (Hub.init old data) es = trace (DropQueue.step old) .init es ∧
      .trap ∉ trace Hub.step (Hub.init old data) es ∧
      Always Hub.step (fun s => s.shm.InRange) (Hub.init old data) es ∧
      storedRecords es (trace Hub.step (Hub.init old data) es) =
        fetchedRecords (trace Hub.step (Hub.init old data) es) ++
          (exec (DropQueue.step old) .init es).held := by
  have hmagic : (0 : UInt32) ≠ shmMagic := by decide
  have hstart : (Hub.init old data : Hub ι α).Refines old .init :=
    .inl ⟨⟨hmagic, rfl, ⟨rfl, rfl⟩, rfl⟩, fun _ => rfl⟩
  obtain ⟨htrace, halways⟩ := trace_eq_of_simulation (Hub.Refines old)
    (fun s q e hR hok => hR.step (e := e) hok) hstart h
  rw [htrace]
  refine ⟨rfl, DropQueue.trap_notMem_trace _ es, ?_, DropQueue.stored_eq .init es⟩
  refine halways.mono ?_
  rintro s ⟨q, hq⟩
  exact hq.inRange

/-- A monitor looks at the segment before it is initialised, two processes
initialise it, and one stores more than fits. -/
def monitorFirst : List (CallBy Bool ℕ) :=
  [⟨true, .getData⟩, ⟨false, .initShmem 3⟩, ⟨false, .storageData 5⟩, ⟨false, .storageData 6⟩,
    ⟨false, .storageData 7⟩, ⟨true, .getData⟩, ⟨true, .initShmem 20⟩, ⟨true, .storageData 8⟩,
    ⟨true, .getData⟩]

theorem shm_ring_refines_queue_monitorFirst :
    trace Hub.step (Hub.init 0 fun _ => 0) monitorFirst =
        [.empty, .initialised, .stored, .stored, .dropped 1, .fetched 5, .existed, .stored,
          .fetched 6] ∧
      storedRecords monitorFirst (trace Hub.step (Hub.init 0 fun _ => 0) monitorFirst) =
        [5, 6] ++ [8] := by
  have horder : Meets Hub.step Hub.InOrder (Hub.init 0 fun _ => 0) monitorFirst := by
    decide +kernel
  obtain ⟨htrace, -, -, hstored⟩ := shm_ring_refines_queue 0 (fun _ => 0) horder
  rw [hstored, htrace]
  decide +kernel

end Runs

end LinuxMiniProjects.SensorHub
