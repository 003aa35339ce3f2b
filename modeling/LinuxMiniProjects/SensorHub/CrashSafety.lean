import LinuxMiniProjects.Lib.Threads
import LinuxMiniProjects.SensorHub.ShmRing

/-!
Processes that die while they use the ring.

A process may be killed at any moment, also in the middle of `get_data` or
`storage_data`. The kernel then takes back what the process has done to the
semaphore, because the operations have `SEM_UNDO`; so the next process
finds the segment as the dead one has left it. It is left in order: the
record is written to a slot that nobody reads, and only then the index is
advanced, with a `printf` in between that keeps the two in this order. A
record is in the ring or it is not.

There is one exception. `init_shmem` sets `magic` before `capacity`, and a
process that is killed in between leaves a segment that looks as if it were
initialised. Its capacity is zero for ever, and every process that stores a
record is killed by the division.

Here the calls go one access of the segment at a time; a call that is not
interrupted is the one of `ShmRing`. A record takes many accesses, and until
the last one the slot may contain anything; so does the `memset`. The
indices and `dropped` of a new segment are zero before `init_shmem` sets
them, so it does not matter when it does.
-/

namespace LinuxMiniProjects.SensorHub

open Machine

variable {ι α : Type*}

/-! ### One access at a time -/

inductive Access (α : Type*)
  | initShmem (capacity : Int32)
  | getData
  | storageData (newData : α)
  | printStatus

inductive AccessPc (α : Type*)
  | idle
  /-- Behind `sem_lock`. -/
  | locked (access : Access α)
  /-- `magic` was set, and `capacity` is to be set. -/
  | sizing (capacity : Int32)
  /-- The rest of the segment is being cleared. -/
  | clearing
  /-- The record was printed, and `read_index` is to be set. -/
  | fetching (data : α) (readIndex : UInt32)
  /-- The record is being written. -/
  | writing (newData : α) (nextWrite : UInt32)
  /-- The record was written, and `write_index` is to be set. -/
  | written (newData : α) (nextWrite : UInt32)
  | dropping
  /-- Before `sem_unlock`. -/
  | unlocking
  | dead

/-- The process is between `sem_lock` and `sem_unlock`. -/
def AccessPc.holds : AccessPc α → Bool
  | idle | dead => false
  | _ => true

/-- The segment, the semaphore and the processes. `undo` is what the kernel
adds to the semaphore when a process ends. The other fields are a history
that no step reads: the processes that have called `init_shmem`, the records
for which `write_index` was advanced, those that were handed to `printf`,
and those for which `read_index` was advanced. -/
structure Shared (ι α : Type*) where
  shm : ShmData α
  sem : ℤ
  undo : ι → ℤ
  pc : ι → AccessPc α
  started : ι → Bool
  stored : List α
  printed : List α
  fetched : List α

def Shared.init (old : UInt32) (data : ℕ → α) : Shared ι α where
  shm := (Hub.init old data : Hub ι α).shm
  sem := 1
  undo _ := 0
  pc _ := .idle
  started _ := false
  stored := []
  printed := []
  fetched := []

inductive Act (α : Type*)
  | lock (access : Access α)
  /-- The indices are read and compared; `get_data` prints a record. -/
  | enter
  /-- A part of the record is written, which leaves `data` in the slot. -/
  | scribble (data : α)
  /-- The last part of the record is written. -/
  | write
  /-- A part of the `memset`. -/
  | wipe (n : ℕ)
  /-- An index is advanced, or `dropped` is, or `init_shmem` goes on. -/
  | advance
  | unlock
  /-- The process is killed. -/
  | crash

structure ActBy (ι α : Type*) where
  process : ι
  act : Act α

variable [DecidableEq ι]

def Shared.move (s : Shared ι α) (p : ι) (pc : AccessPc α) : Shared ι α :=
  { s with pc := Function.update s.pc p pc }

def Shared.crash (s : Shared ι α) (p : ι) : Shared ι α :=
  { s with
    sem := s.sem + s.undo p
    undo := Function.update s.undo p 0
    pc := Function.update s.pc p .dead }

def Shared.enter (s : Shared ι α) (p : ι) : Access α → Shared ι α
  | .initShmem capacity =>
      let s := { s with started := Function.update s.started p true }
      if s.shm.hdr.magic ≠ shmMagic then
        { s.move p (.sizing capacity) with
          shm := { s.shm with hdr := { magic := shmMagic, version := shmVersion } } }
      else s.move p .unlocking
  | .getData =>
      if s.shm.readIndex ≠ s.shm.writeIndex then
        match remainder (s.shm.readIndex + 1) s.shm.capacity with
        | none => s.crash p
        | some readIndex =>
            let data := s.shm.data s.shm.readIndex.toNat
            { s.move p (.fetching data readIndex) with printed := s.printed ++ [data] }
      else s.move p .unlocking
  | .storageData newData =>
      match remainder (s.shm.writeIndex + 1) s.shm.capacity with
      | none => s.crash p
      | some nextWrite =>
          if nextWrite ≠ s.shm.readIndex then s.move p (.writing newData nextWrite)
          else s.move p .dropping
  | .printStatus => s.move p .unlocking

def ShmData.setSlot (shm : ShmData α) (data : α) : ShmData α :=
  { shm with data := Function.update shm.data shm.writeIndex.toNat data }

def ShmData.wipe [Zero α] (shm : ShmData α) (n : ℕ) : ShmData α :=
  { shm with data := fun i => if i < n then 0 else shm.data i }

def ShmData.clear [Zero α] (shm : ShmData α) : ShmData α :=
  { shm.wipe shm.capacity.toNat with readIndex := 0, writeIndex := 0, dropped := 0 }

def Shared.step [Zero α] (s : Shared ι α) (e : ActBy ι α) : Option (Shared ι α) :=
  match s.pc e.process, e.act with
  | .idle, .lock access =>
      if 0 < s.sem then
        some { s with
          sem := s.sem - 1
          undo := Function.update s.undo e.process (s.undo e.process + 1)
          pc := Function.update s.pc e.process (.locked access) }
      else none
  | .locked access, .enter => some (s.enter e.process access)
  | .sizing capacity, .advance =>
      some { s.move e.process .clearing with
        shm := { s.shm with capacity := chooseCapacity s.shm.capacity capacity } }
  | .clearing, .wipe n =>
      if n ≤ s.shm.capacity.toNat then some { s with shm := s.shm.wipe n } else none
  | .clearing, .advance => some { s.move e.process .unlocking with shm := s.shm.clear }
  | .fetching data readIndex, .advance =>
      some { s.move e.process .unlocking with
        shm := { s.shm with readIndex }
        fetched := s.fetched ++ [data] }
  | .writing _ _, .scribble data => some { s with shm := s.shm.setSlot data }
  | .writing newData nextWrite, .write =>
      some { s.move e.process (.written newData nextWrite) with shm := s.shm.setSlot newData }
  | .written newData nextWrite, .advance =>
      some { s.move e.process .unlocking with
        shm := { s.shm with writeIndex := nextWrite }
        stored := s.stored ++ [newData] }
  | .dropping, .advance =>
      some { s.move e.process .unlocking with
        shm := { s.shm with dropped := s.shm.dropped + 1 } }
  | .unlocking, .unlock =>
      some { s with
        sem := s.sem + 1
        undo := Function.update s.undo e.process (s.undo e.process - 1)
        pc := Function.update s.pc e.process .idle }
  | .dead, _ => none
  | _, .crash => some (s.crash e.process)
  | _, _ => none

def AccessPc.isSizing : AccessPc α → Bool
  | sizing _ => true
  | _ => false

/-- **The condition.** A process is not killed between the statements of
`init_shmem` that set `magic` and `capacity`, and it stores records only
after its call of `init_shmem`. -/
def Shared.Spares (s : Shared ι α) (e : ActBy ι α) : Prop :=
  match e.act with
  | .crash => (s.pc e.process).isSizing = false
  | .lock (.storageData _) => s.started e.process = true
  | _ => True

instance (s : Shared ι α) : (e : ActBy ι α) → Decidable (s.Spares e)
  | ⟨_, .crash⟩ | ⟨_, .lock (.storageData _)⟩ => inferInstanceAs (Decidable (_ = _))
  | ⟨_, .lock (.initShmem _)⟩ | ⟨_, .lock .getData⟩ | ⟨_, .lock .printStatus⟩ => instDecidableTrue
  | ⟨_, .enter⟩ | ⟨_, .scribble _⟩ | ⟨_, .write⟩ | ⟨_, .wipe _⟩ => instDecidableTrue
  | ⟨_, .advance⟩ | ⟨_, .unlock⟩ => instDecidableTrue

/-! ### Calls that are not interrupted -/

section Alone

variable [Zero α] {s : Shared ι α} {p : ι}

theorem Shared.exists_runs_initShmem (hsem : 0 < s.sem) (hpc : s.pc p = .idle)
    (capacity : Int32) :
    ∃ (acts : List (Act α)) (s' : Shared ι α),
      runs Shared.step s (acts.map (ActBy.mk p)) = some s' ∧
      s'.shm = (s.shm.initShmem capacity).2 ∧ s'.sem = s.sem ∧ s'.pc p = .idle := by
  by_cases hmagic : s.shm.hdr.magic = shmMagic
  · refine ⟨[.lock (.initShmem capacity), .enter, .unlock], ?_⟩
    simp [runs, Shared.step, Shared.enter, Shared.move, ShmData.initShmem, hsem, hpc, hmagic]
  · refine ⟨[.lock (.initShmem capacity), .enter, .advance, .advance, .unlock], ?_⟩
    simp [runs, Shared.step, Shared.enter, Shared.move, ShmData.initShmem, ShmData.clear,
      ShmData.wipe, hsem, hpc, hmagic]

theorem Shared.exists_runs_getData (hsem : 0 < s.sem) (hpc : s.pc p = .idle)
    (hcap : s.shm.capacity ≠ 0) :
    ∃ (acts : List (Act α)) (s' : Shared ι α),
      runs Shared.step s (acts.map (ActBy.mk p)) = some s' ∧
      s'.shm = s.shm.getData.2 ∧ s'.sem = s.sem ∧ s'.pc p = .idle := by
  by_cases hne : s.shm.readIndex = s.shm.writeIndex
  · refine ⟨[.lock .getData, .enter, .unlock], ?_⟩
    simp [runs, Shared.step, Shared.enter, Shared.move, ShmData.getData, hsem, hpc, hne]
  · refine ⟨[.lock .getData, .enter, .advance, .unlock], ?_⟩
    simp [runs, Shared.step, Shared.enter, Shared.move, ShmData.getData, remainder, hsem, hpc,
      hcap, hne]

theorem Shared.exists_runs_storageData (hsem : 0 < s.sem) (hpc : s.pc p = .idle)
    (hcap : s.shm.capacity ≠ 0) (newData : α) :
    ∃ (acts : List (Act α)) (s' : Shared ι α),
      runs Shared.step s (acts.map (ActBy.mk p)) = some s' ∧
      s'.shm = (s.shm.storageData newData).2 ∧ s'.sem = s.sem ∧ s'.pc p = .idle := by
  by_cases hne : (s.shm.writeIndex + 1) % s.shm.capacity = s.shm.readIndex
  · refine ⟨[.lock (.storageData newData), .enter, .advance, .unlock], ?_⟩
    simp [runs, Shared.step, Shared.enter, Shared.move, ShmData.storageData, remainder, hsem, hpc,
      hcap, hne]
  · refine ⟨[.lock (.storageData newData), .enter, .write, .advance, .unlock], ?_⟩
    simp [runs, Shared.step, Shared.enter, Shared.move, ShmData.storageData, ShmData.setSlot,
      remainder, hsem, hpc, hcap, hne]

end Alone

/-! ### What a step can do -/

inductive Shared.Step [Zero α] (s : Shared ι α) (p : ι) : Act α → Shared ι α → Prop
  | lock {access} (pc : s.pc p = .idle) (free : 0 < s.sem) :
      Step s p (.lock access) { s with
        sem := s.sem - 1
        undo := Function.update s.undo p (s.undo p + 1)
        pc := Function.update s.pc p (.locked access) }
  | enter {access} (pc : s.pc p = .locked access) : Step s p .enter (s.enter p access)
  | size {capacity} (pc : s.pc p = .sizing capacity) :
      Step s p .advance { s.move p .clearing with
        shm := { s.shm with capacity := chooseCapacity s.shm.capacity capacity } }
  | wipe {n} (pc : s.pc p = .clearing) : Step s p (.wipe n) { s with shm := s.shm.wipe n }
  | clear (pc : s.pc p = .clearing) :
      Step s p .advance { s.move p .unlocking with shm := s.shm.clear }
  | fetch {data readIndex} (pc : s.pc p = .fetching data readIndex) :
      Step s p .advance { s.move p .unlocking with
        shm := { s.shm with readIndex }
        fetched := s.fetched ++ [data] }
  | scribble {newData nextWrite data} (pc : s.pc p = .writing newData nextWrite) :
      Step s p (.scribble data) { s with shm := s.shm.setSlot data }
  | write {newData nextWrite} (pc : s.pc p = .writing newData nextWrite) :
      Step s p .write
        { s.move p (.written newData nextWrite) with shm := s.shm.setSlot newData }
  | store {newData nextWrite} (pc : s.pc p = .written newData nextWrite) :
      Step s p .advance { s.move p .unlocking with
        shm := { s.shm with writeIndex := nextWrite }
        stored := s.stored ++ [newData] }
  | drop (pc : s.pc p = .dropping) :
      Step s p .advance { s.move p .unlocking with
        shm := { s.shm with dropped := s.shm.dropped + 1 } }
  | unlock (pc : s.pc p = .unlocking) :
      Step s p .unlock { s with
        sem := s.sem + 1
        undo := Function.update s.undo p (s.undo p - 1)
        pc := Function.update s.pc p .idle }
  | crash : Step s p .crash (s.crash p)

theorem Shared.step_inv [Zero α] {s s' : Shared ι α} {e : ActBy ι α}
    (hs : s.step e = some s') : s.Step e.process e.act s' := by
  obtain ⟨p, act⟩ := e
  unfold Shared.step at hs
  dsimp only at hs ⊢
  split at hs
  next access pc =>
    obtain ⟨hpos, hs⟩ := Option.ite_none_right_eq_some.mp hs
    exact Option.some.inj hs ▸ .lock pc hpos
  next pc => exact Option.some.inj hs ▸ .enter pc
  next pc => exact Option.some.inj hs ▸ .size pc
  next pc =>
    obtain ⟨-, hs⟩ := Option.ite_none_right_eq_some.mp hs
    exact Option.some.inj hs ▸ .wipe pc
  next pc => exact Option.some.inj hs ▸ .clear pc
  next pc => exact Option.some.inj hs ▸ .fetch pc
  next pc => exact Option.some.inj hs ▸ .scribble pc
  next pc => exact Option.some.inj hs ▸ .write pc
  next pc => exact Option.some.inj hs ▸ .store pc
  next pc => exact Option.some.inj hs ▸ .drop pc
  next pc => exact Option.some.inj hs ▸ .unlock pc
  next => cases hs
  next => exact Option.some.inj hs ▸ .crash
  next => cases hs

theorem Shared.Step.capacity_eq_zero [Zero α] {s s' : Shared ι α} {p : ι} {act : Act α}
    (hs : s.Step p act s') (hmagic : s.shm.hdr.magic = shmMagic) (hcap : s.shm.capacity = 0)
    (hpc : ∀ p, (s.pc p).isSizing = false) :
    s'.shm.hdr.magic = shmMagic ∧ s'.shm.capacity = 0 ∧ ∀ p, (s'.pc p).isSizing = false := by
  have hmove : ∀ {pc : AccessPc α}, pc.isSizing = false →
      ∀ p', (Function.update s.pc p pc p').isSizing = false := fun hpc' =>
    forall_update (P := fun pc : AccessPc α => pc.isSizing = false) hpc hpc'
  cases hs with
  | @enter access pc =>
      cases access with
      | initShmem capacity =>
          rw [Shared.enter, if_neg (not_not.mpr hmagic)]
          exact ⟨hmagic, hcap, hmove rfl⟩
      | printStatus => exact ⟨hmagic, hcap, hmove rfl⟩
      | _ =>
          simp only [Shared.enter, remainder, hcap, if_true]
          first
          | exact ⟨hmagic, hcap, hmove rfl⟩
          | split <;> exact ⟨hmagic, hcap, hmove rfl⟩
  | @size capacity pc => exact nomatch pc ▸ hpc p
  | scribble pc | wipe pc => exact ⟨hmagic, hcap, hpc⟩
  | _ => exact ⟨hmagic, hcap, hmove rfl⟩

/-- **A kill within `init_shmem`.** If it comes between `magic` and
`capacity`, the capacity stays zero whatever the processes do, and whoever
stores a record is killed. -/
theorem Shared.capacity_stays_zero [Zero α] {s s' : Shared ι α}
    (hmagic : s.shm.hdr.magic = shmMagic) (hcap : s.shm.capacity = 0)
    (hpc : ∀ p, (s.pc p).isSizing = false)
    (h : Reachable Shared.step (fun _ _ => True) s s') (p : ι) (newData : α) :
    s'.shm.capacity = 0 ∧ (s'.enter p (.storageData newData)).pc p = .dead := by
  obtain ⟨-, hcap', -⟩ := h.invariant
    (I := fun s => s.shm.hdr.magic = shmMagic ∧ s.shm.capacity = 0 ∧
      ∀ p, (s.pc p).isSizing = false) ⟨hmagic, hcap, hpc⟩
    fun _ _ _ ih _ hs => (Shared.step_inv hs).capacity_eq_zero ih.1 ih.2.1 ih.2.2
  refine ⟨hcap', ?_⟩
  simp only [Shared.enter, remainder, hcap', if_true]
  exact Function.update_self ..

/-! ### The semaphore -/

structure Shared.Owned (s : Shared ι α) (owner : Option ι) : Prop where
  sem : s.sem = 1 - owner.isSome.toNat
  owner : ∀ p, (s.pc p).holds = true ↔ owner = some p
  undo : ∀ p, s.undo p = (s.pc p).holds.toNat

section Owned

variable {s s' : Shared ι α} {p : ι} {owner : Option ι} {pc : AccessPc α}

theorem Shared.Owned.move (h : s.Owned owner) (hpc : pc.holds = (s.pc p).holds)
    (hsem : s'.sem = s.sem) (hundo : s'.undo = s.undo)
    (hmove : s'.pc = Function.update s.pc p pc) : s'.Owned owner := by
  have hholds : ∀ p', (s'.pc p').holds = (s.pc p').holds := by
    intro p'
    rw [hmove]
    by_cases hp : p' = p
    · rw [hp, Function.update_self, hpc]
    · rw [Function.update_of_ne hp]
  exact ⟨hsem.trans h.sem, fun p' => hholds p' ▸ h.owner p',
    fun p' => by rw [hundo, hholds p', h.undo p']⟩

theorem Shared.Owned.lock (h : s.Owned owner) (hpos : 0 < s.sem) (hidle : s.pc p = .idle)
    (hpc : pc.holds = true) :
    ({ s with
      sem := s.sem - 1
      undo := Function.update s.undo p (s.undo p + 1)
      pc := Function.update s.pc p pc } : Shared ι α).Owned (some p) := by
  have hnone : owner = none := by
    cases owner with
    | none => rfl
    | some p' =>
        have hzero : s.sem = 0 := h.sem
        omega
  subst hnone
  have hundo : s.undo p = 0 := by rw [h.undo p, hidle]; rfl
  have hfree : ∀ p', (s.pc p').holds = false := fun p' =>
    Bool.eq_false_iff.mpr fun hp' => nomatch (h.owner p').mp hp'
  refine ⟨by rw [h.sem]; rfl, fun p' => ?_, fun p' => ?_⟩
  · by_cases hp : p' = p
    · simp [hp, hpc]
    · simp [hp, hfree p', Ne.symm hp]
  · by_cases hp : p' = p
    · simp [hp, hpc, hundo]
    · simp [hp, h.undo p']

/-- A process gives the semaphore back, or the kernel does so for it. -/
theorem Shared.Owned.release (h : s.Owned owner) (hpc : pc.holds = false) :
    ∃ owner', ({ s with
      sem := s.sem + s.undo p
      undo := Function.update s.undo p 0
      pc := Function.update s.pc p pc } : Shared ι α).Owned owner' := by
  cases hp : (s.pc p).holds with
  | true =>
      obtain rfl := (h.owner p).mp hp
      refine ⟨none, by rw [h.sem, h.undo p, hp]; rfl, fun p' => ?_, fun p' => ?_⟩
      · by_cases hp' : p' = p
        · simp [hp', hpc]
        · have := h.owner p'
          simp_all [Ne.symm hp']
      · by_cases hp' : p' = p
        · simp [hp', hpc]
        · simp [hp', h.undo p']
  | false =>
      have hundo : s.undo p = 0 := by rw [h.undo p, hp]; rfl
      refine ⟨owner, h.move (hpc.trans hp.symm) ?_ ?_ rfl⟩
      · show s.sem + s.undo p = s.sem
        rw [hundo, add_zero]
      · show Function.update s.undo p 0 = s.undo
        rw [← hundo, Function.update_eq_self]

end Owned

/-! ### The ring -/

def Shared.Ready (s : Shared ι α) (q : DropQueue α) : AccessPc α → Prop
  | .sizing _ => False
  | .clearing => q.held = []
  | .fetching data readIndex =>
      (∃ rest, q.held = data :: rest) ∧
        readIndex.toNat = (s.shm.readIndex.toNat + 1) % s.shm.capacity.toNat ∧
        (s.fetched ++ [data]).Sublist s.printed
  | .writing _ nextWrite =>
      q.held.length + 1 < s.shm.capacity.toNat ∧
        nextWrite.toNat = (s.shm.readIndex.toNat + q.held.length + 1) % s.shm.capacity.toNat
  | .written newData nextWrite =>
      (q.held.length + 1 < s.shm.capacity.toNat ∧
        nextWrite.toNat = (s.shm.readIndex.toNat + q.held.length + 1) % s.shm.capacity.toNat) ∧
        s.shm.data s.shm.writeIndex.toNat = newData
  | _ => True

/-- The ring holds the queue, and the queue is what was stored and not
fetched. -/
structure Shared.Whole (s : Shared ι α) (q : DropQueue α) : Prop where
  live : Live s.shm q
  stored : s.stored = s.fetched ++ q.held
  printed : s.fetched.Sublist s.printed

omit [DecidableEq ι] in
theorem Shared.ready_of_holds (s : Shared ι α) (q : DropQueue α) {pc : AccessPc α}
    (h : pc.holds = false) : s.Ready q pc := by
  cases pc <;> trivial

theorem Live.setSlot {shm : ShmData α} {q : DropQueue α} (h : Live shm q) (data : α) :
    Live (shm.setSlot data) q := by
  have hhead : shm.writeIndex.toNat =
      (shm.readIndex.toNat + q.held.length) % shm.capacity.toNat := h.ring.head
  refine { h with ring := ⟨h.ring.head, h.ring.tail, h.ring.count⟩, held := ?_ }
  refine Eq.trans ?_ h.held
  show window _ (Function.update shm.data shm.writeIndex.toNat data) _ _ = _
  rw [hhead]
  exact window_update h.room data

theorem Live.drop {shm : ShmData α} {q : DropQueue α} (h : Live shm q) :
    Live { shm with dropped := shm.dropped + 1 } { q with dropped := q.dropped + 1 } := by
  refine { h with dropped := ?_ }
  show shm.dropped + 1 = UInt32.ofNat (q.dropped + 1)
  rw [h.dropped, UInt32.ofNat_add]
  rfl

/-- An empty ring does not depend on its records. -/
theorem Live.of_empty {shm : ShmData α} {q : DropQueue α} (h : Live shm q) (hheld : q.held = [])
    (data : ℕ → α) : Live { shm with data } q := by
  refine { h with ring := ⟨h.ring.head, h.ring.tail, h.ring.count⟩, held := ?_ }
  rw [hheld]
  rfl

theorem Live.clear [Zero α] {shm : ShmData α} {q : DropQueue α} (h : Live shm q)
    (hheld : q.held = []) : Live shm.clear { q with dropped := 0 } := by
  have hpos : 0 < shm.capacity.toNat := Nat.zero_lt_of_lt h.room
  exact
    { magic := h.magic
      size := h.size
      ring := by rw [hheld]; exact ⟨(Nat.zero_mod _).symm, hpos, Nat.zero_le _⟩
      room := h.room
      held := by rw [hheld]; rfl
      dropped := rfl }

theorem live_of_sized {shm : ShmData α} (hmagic : shm.hdr.magic = shmMagic)
    (hindices : shm.readIndex = 0 ∧ shm.writeIndex = 0) (capacity : Int32) :
    Live { shm with capacity := chooseCapacity shm.capacity capacity }
      ⟨some ((chooseCapacity shm.capacity capacity).toNat - 1), [], shm.dropped.toNat⟩ := by
  have hpos := chooseCapacity_pos shm.capacity capacity
  obtain ⟨hread, hwrite⟩ := hindices
  refine ⟨hmagic, rfl, ⟨?_, ?_, Nat.zero_le _⟩, hpos, rfl, (UInt32.ofNat_toNat).symm⟩
  · show shm.writeIndex.toNat = (shm.readIndex.toNat + 0) % _
    rw [hread, hwrite]
    exact (Nat.zero_mod _).symm
  · show shm.readIndex.toNat < _
    rw [hread]
    exact hpos

/-- The statements that a process comes to as long as the segment is not
initialised. -/
def AccessPc.isPlain : AccessPc α → Bool
  | idle | dead | unlocking => true
  | locked (.initShmem _) | locked .getData | locked .printStatus => true
  | _ => false

/-- Nothing was stored yet. -/
def Shared.New (s : Shared ι α) : Prop :=
  (s.shm.readIndex = 0 ∧ s.shm.writeIndex = 0) ∧ s.stored = [] ∧ s.fetched = []

/-- The segment is as the kernel has made it, its capacity is to be set, or
it is a ring. -/
inductive Shared.Phase (s : Shared ι α) : Prop
  | blank (magic : s.shm.hdr.magic ≠ shmMagic) (new : s.New) (started : ∀ p, s.started p = false)
      (pcs : ∀ p, (s.pc p).isPlain = true)
  | sizing {p capacity} (pc : s.pc p = .sizing capacity) (magic : s.shm.hdr.magic = shmMagic)
      (new : s.New)
  | ring {q} (whole : s.Whole q) (ready : ∀ p, s.Ready q (s.pc p))

structure Shared.Safe (s : Shared ι α) : Prop where
  owned : ∃ owner, s.Owned owner
  phase : s.Phase

section Steps

variable {s s' : Shared ι α} {p : ι} {owner : Option ι} {pc : AccessPc α} {q q' : DropQueue α}

omit [DecidableEq ι] in
theorem Shared.Owned.eq_of_holds (h : s.Owned owner) {p p' : ι} (hp : (s.pc p).holds = true)
    (hp' : (s.pc p').holds = true) : p = p' :=
  Option.some.inj (((h.owner p).mp hp).symm.trans ((h.owner p').mp hp'))

/-- A process goes on with the semaphore; the others are outside. -/
theorem Shared.Owned.safe_move (h : s.Owned owner) (hp : (s.pc p).holds = true)
    (hpc : pc.holds = true) (hsem : s'.sem = s.sem) (hundo : s'.undo = s.undo)
    (hmove : s'.pc = Function.update s.pc p pc) (hwhole : s'.Whole q') (hready : s'.Ready q' pc) :
    s'.Safe := by
  refine ⟨⟨owner, h.move (hpc.trans hp.symm) hsem hundo hmove⟩, .ring hwhole fun p' => ?_⟩
  rw [hmove]
  by_cases hp' : p' = p
  · rw [hp', Function.update_self]
    exact hready
  · rw [Function.update_of_ne hp']
    exact s'.ready_of_holds q' (Bool.eq_false_iff.mpr fun hheld => hp' (h.eq_of_holds hheld hp))

theorem Shared.Owned.safe_release (h : s.Owned owner) (hwhole : s.Whole q)
    (hready : ∀ p, s.Ready q (s.pc p)) (p : ι) (hpc : pc.holds = false) :
    ({ s with
      sem := s.sem + s.undo p
      undo := Function.update s.undo p 0
      pc := Function.update s.pc p pc } : Shared ι α).Safe := by
  have hready' : ∀ p', s.Ready q (Function.update s.pc p pc p') :=
    forall_update hready (s.ready_of_holds q hpc)
  exact ⟨h.release hpc, .ring ⟨hwhole.live, hwhole.stored, hwhole.printed⟩ hready'⟩

theorem Shared.Owned.safe_enter (h : s.Owned owner) (hwhole : s.Whole q)
    (hp : (s.pc p).holds = true) (access : Access α) : (s.enter p access).Safe := by
  have hlive := hwhole.live
  have hstay : ∀ pc : AccessPc α, pc.holds = true → s.Ready q pc → (s.move p pc).Safe :=
    fun pc hpc hready => h.safe_move hp hpc rfl rfl rfl
      ⟨hlive, hwhole.stored, hwhole.printed⟩ (by cases pc <;> exact hready)
  cases access with
  | initShmem capacity =>
      rw [Shared.enter, if_neg (not_not.mpr hlive.magic)]
      exact h.safe_move hp rfl rfl rfl rfl ⟨hlive, hwhole.stored, hwhole.printed⟩ trivial
  | getData =>
      simp only [Shared.enter]
      split
      next hne =>
        cases hheld : q.held with
        | nil =>
            have hempty : s.shm.writeIndex.toNat = s.shm.readIndex.toNat :=
              (hlive.ring.head_eq_tail_iff hlive.room).mpr (congrArg List.length hheld)
            exact absurd (UInt32.toNat_inj.mp hempty).symm hne
        | cons x rest =>
            obtain ⟨next, hrem, hnext⟩ := hlive.remainder (Nat.mod_eq_of_lt hlive.ring.tail).symm
            obtain ⟨hdata, -⟩ := hlive.pop hheld hnext
            simp only [hrem]
            refine h.safe_move hp rfl rfl rfl rfl
              ⟨hlive, hwhole.stored, hwhole.printed.trans (List.sublist_append_left _ _)⟩ ?_
            exact ⟨⟨rest, hdata ▸ hheld⟩, hnext, hwhole.printed.append (List.Sublist.refl _)⟩
      next => exact hstay .unlocking rfl trivial
  | storageData newData =>
      have hhead : s.shm.writeIndex.toNat =
          (s.shm.readIndex.toNat + q.held.length) % s.shm.capacity.toNat := hlive.ring.head
      obtain ⟨next, hrem, hnext⟩ := hlive.remainder hhead
      have hfull : next = s.shm.readIndex ↔ q.held.length + 1 = s.shm.capacity.toNat := by
        rw [← UInt32.toNat_inj, hnext, ← Nat.mod_add_mod, ← hhead]
        exact hlive.ring.succ_head_eq_tail_iff hlive.room
      simp only [Shared.enter, hrem]
      split
      next hne =>
        have hroom := hlive.room
        have hfree : q.held.length + 1 ≠ s.shm.capacity.toNat := fun heq => hne (hfull.mpr heq)
        exact hstay (.writing newData next) rfl ⟨by omega, hnext⟩
      next => exact hstay .dropping rfl trivial
  | printStatus => exact hstay .unlocking rfl trivial

omit [DecidableEq ι] in
theorem Shared.Whole.written {newData : α} {next : UInt32} (h : s.Whole q)
    (hready : s.Ready q (.written newData next)) :
    ({ s with
      shm := { s.shm with writeIndex := next }
      stored := s.stored ++ [newData] } : Shared ι α).Whole
        { q with held := q.held ++ [newData] } := by
  obtain ⟨⟨hroom, hnext⟩, hdata⟩ := hready
  have hpush := h.live.push hroom hnext newData
  rw [← hdata, Function.update_eq_self, hdata] at hpush
  exact ⟨hpush, by rw [h.stored, List.append_assoc], h.printed⟩

omit [DecidableEq ι] in
theorem Shared.Whole.fetched_next {data : α} {next : UInt32} (h : s.Whole q)
    (hready : s.Ready q (.fetching data next)) :
    ∃ rest, ({ s with
      shm := { s.shm with readIndex := next }
      fetched := s.fetched ++ [data] } : Shared ι α).Whole { q with held := rest } := by
  obtain ⟨⟨rest, hheld⟩, hnext, hprinted⟩ := hready
  exact ⟨rest, (h.live.pop hheld hnext).2, by simp [h.stored, hheld], hprinted⟩

theorem Shared.Owned.ring_step [Zero α] {act : Act α} (h : s.Owned owner) (hwhole : s.Whole q)
    (hready : ∀ p, s.Ready q (s.pc p)) (hs : s.Step p act s') : s'.Safe := by
  have hp := hready p
  cases hs with
  | @lock access pc free =>
      have hready' : ∀ p', s.Ready q (Function.update s.pc p (.locked access) p') :=
        forall_update hready trivial
      exact ⟨⟨some p, h.lock free pc rfl⟩,
        .ring ⟨hwhole.live, hwhole.stored, hwhole.printed⟩ hready'⟩
  | enter pc => exact h.safe_enter hwhole (by rw [pc]; rfl) _
  | size pc =>
      rw [pc] at hp
      exact hp.elim
  | wipe pc =>
      rw [pc] at hp
      have hholds : (AccessPc.clearing : AccessPc α).holds = true := rfl
      exact h.safe_move (by rw [pc]; rfl) hholds rfl rfl (by rw [← pc, Function.update_eq_self])
        ⟨hwhole.live.of_empty hp _, hwhole.stored, hwhole.printed⟩ hp
  | clear pc =>
      rw [pc] at hp
      exact h.safe_move (by rw [pc]; rfl) rfl rfl rfl rfl
        ⟨hwhole.live.clear hp, hwhole.stored, hwhole.printed⟩ trivial
  | fetch pc =>
      rw [pc] at hp
      obtain ⟨rest, hrest⟩ := hwhole.fetched_next hp
      exact h.safe_move (by rw [pc]; rfl) rfl rfl rfl rfl
        ⟨hrest.live, hrest.stored, hrest.printed⟩ trivial
  | @scribble newData next data pc =>
      rw [pc] at hp
      have hholds : (AccessPc.writing newData next).holds = true := rfl
      exact h.safe_move (by rw [pc]; rfl) hholds rfl rfl (by rw [← pc, Function.update_eq_self])
        ⟨hwhole.live.setSlot data, hwhole.stored, hwhole.printed⟩ hp
  | write pc =>
      rw [pc] at hp
      exact h.safe_move (by rw [pc]; rfl) rfl rfl rfl rfl
        ⟨hwhole.live.setSlot _, hwhole.stored, hwhole.printed⟩ ⟨hp, Function.update_self ..⟩
  | store pc =>
      rw [pc] at hp
      have hpush := hwhole.written hp
      exact h.safe_move (by rw [pc]; rfl) rfl rfl rfl rfl
        ⟨hpush.live, hpush.stored, hpush.printed⟩ trivial
  | drop pc =>
      exact h.safe_move (by rw [pc]; rfl) rfl rfl rfl rfl
        ⟨hwhole.live.drop, hwhole.stored, hwhole.printed⟩ trivial
  | unlock pc =>
      have hundo : s.undo p = 1 := by rw [h.undo p, pc]; rfl
      have hholds : (AccessPc.idle : AccessPc α).holds = false := rfl
      have hleave := h.safe_release hwhole hready p hholds
      rw [hundo] at hleave ⊢
      exact hleave
  | crash => exact h.safe_release hwhole hready p rfl

theorem Shared.Owned.blank_step [Zero α] {act : Act α} (h : s.Owned owner)
    (hmagic : s.shm.hdr.magic ≠ shmMagic) (hnew : s.New) (hstarted : ∀ p, s.started p = false)
    (hpcs : ∀ p, (s.pc p).isPlain = true) (hok : s.Spares ⟨p, act⟩) (hs : s.Step p act s') :
    s'.Safe := by
  have hp := hpcs p
  have hmove : ∀ {pc : AccessPc α}, pc.isPlain = true →
      ∀ p', (Function.update s.pc p pc p').isPlain = true := fun hpc =>
    forall_update (P := fun pc : AccessPc α => pc.isPlain = true) hpcs hpc
  have hstay : ∀ {pc : AccessPc α}, (s.pc p).holds = true → pc.holds = true →
      pc.isPlain = true → (s.move p pc).Safe := fun hheld hholds hplain =>
    ⟨⟨owner, h.move (hholds.trans hheld.symm) rfl rfl rfl⟩,
      .blank hmagic hnew hstarted (hmove hplain)⟩
  cases hs with
  | @lock access pc free =>
      refine ⟨⟨some p, h.lock free pc rfl⟩, .blank hmagic hnew hstarted (hmove ?_)⟩
      cases access with
      | storageData newData =>
          -- nobody has called `init_shmem`
          have hcalled : s.started p = true := hok
          rw [hstarted p] at hcalled
          cases hcalled
      | _ => rfl
  | @enter access pc =>
      have hheld : (s.pc p).holds = true := by rw [pc]; rfl
      cases access with
      | initShmem capacity =>
          rw [Shared.enter, if_pos hmagic]
          have hholds : (.sizing capacity : AccessPc α).holds = (s.pc p).holds := hheld.symm
          exact ⟨⟨owner, h.move hholds rfl rfl rfl⟩, .sizing (Function.update_self ..) rfl hnew⟩
      | getData =>
          rw [Shared.enter, if_neg (not_not.mpr (hnew.1.1.trans hnew.1.2.symm))]
          exact hstay hheld rfl rfl
      | storageData newData =>
          rw [pc] at hp
          cases hp
      | printStatus => exact hstay hheld rfl rfl
  | unlock pc =>
      have hundo : s.undo p = 1 := by rw [h.undo p, pc]; rfl
      have hholds : (AccessPc.idle : AccessPc α).holds = false := rfl
      have hleave := h.release (p := p) hholds
      rw [hundo] at hleave
      rw [hundo]
      exact ⟨hleave, .blank hmagic hnew hstarted (hmove rfl)⟩
  | crash => exact ⟨h.release rfl, .blank hmagic hnew hstarted (hmove rfl)⟩
  | size pc | wipe pc | clear pc | fetch pc | scribble pc | write pc | store pc | drop pc =>
      rw [pc] at hp
      cases hp

theorem Shared.Owned.sizing_step [Zero α] {act : Act α} {p' : ι} {capacity : Int32}
    (h : s.Owned owner) (hpc : s.pc p' = .sizing capacity)
    (hmagic : s.shm.hdr.magic = shmMagic) (hnew : s.New) (hok : s.Spares ⟨p, act⟩)
    (hs : s.Step p act s') : s'.Safe := by
  obtain ⟨hindices, hstored, hfetched⟩ := hnew
  have hheld : (s.pc p').holds = true := by rw [hpc]; rfl
  -- the others are outside
  have hother : ∀ {pc : AccessPc α}, s.pc p = pc → pc.holds = true → pc = .sizing capacity := by
    intro pc hp hholds
    obtain rfl := h.eq_of_holds (by rw [hp]; exact hholds) hheld
    exact hp.symm.trans hpc
  cases hs with
  | lock pc free =>
      have hzero : s.sem = 0 := by rw [h.sem, (h.owner p').mp hheld]; rfl
      omega
  | @size capacity' pc =>
      have hwhole : ({ s with
          shm := { s.shm with capacity := chooseCapacity s.shm.capacity capacity' } } :
            Shared ι α).Whole _ :=
        ⟨live_of_sized hmagic hindices capacity', by rw [hstored, hfetched]; rfl,
          by rw [hfetched]; exact List.nil_sublist _⟩
      exact h.safe_move (by rw [pc]; rfl) rfl rfl rfl rfl
        ⟨hwhole.live, hwhole.stored, hwhole.printed⟩ rfl
  | crash =>
      have hne : p' ≠ p := by
        rintro rfl
        have hsizing : (s.pc p').isSizing = false := hok
        rw [hpc] at hsizing
        cases hsizing
      exact ⟨h.release rfl, .sizing ((Function.update_of_ne hne ..).trans hpc) hmagic
        ⟨hindices, hstored, hfetched⟩⟩
  | enter pc | wipe pc | clear pc | fetch pc | scribble pc | write pc | store pc | drop pc
  | unlock pc => exact absurd (hother pc rfl) nofun

theorem Shared.Safe.step [Zero α] {e : ActBy ι α} (h : s.Safe) (hok : s.Spares e)
    (hs : s.step e = some s') : s'.Safe := by
  obtain ⟨owner, howned⟩ := h.owned
  have hstep := Shared.step_inv hs
  cases h.phase with
  | blank magic new started pcs => exact howned.blank_step magic new started pcs hok hstep
  | sizing pc magic new => exact howned.sizing_step pc magic new hok hstep
  | ring whole ready => exact howned.ring_step whole ready hstep

theorem Shared.Safe.enter_ne_dead (h : s.Safe) {access : Access α}
    (hpc : s.pc p = .locked access) : (s.enter p access).pc p ≠ .dead := by
  have hmove : ∀ {pc : AccessPc α}, pc ≠ .dead → (s.move p pc).pc p ≠ .dead := by
    intro pc hne
    rwa [show (s.move p pc).pc p = pc from Function.update_self ..]
  obtain ⟨owner, howned⟩ := h.owned
  have hsizing : ∀ {p' : ι} {capacity : Int32}, s.pc p' ≠ .sizing capacity := by
    intro p' capacity hpc'
    obtain rfl := howned.eq_of_holds (p := p) (by rw [hpc]; rfl) (by rw [hpc']; rfl)
    rw [hpc] at hpc'
    cases hpc'
  cases access with
  | initShmem capacity =>
      simp only [Shared.enter]
      split <;> exact hmove nofun
  | printStatus => exact hmove nofun
  | getData =>
      cases h.phase with
      | blank magic new =>
          rw [Shared.enter, if_neg (not_not.mpr (new.1.1.trans new.1.2.symm))]
          exact hmove nofun
      | sizing pc => exact absurd pc hsizing
      | ring whole ready =>
          obtain ⟨next, hrem, -⟩ :=
            whole.live.remainder (Nat.mod_eq_of_lt whole.live.ring.tail).symm
          simp only [Shared.enter, hrem]
          split <;> exact hmove nofun
  | storageData newData =>
      cases h.phase with
      | blank magic new started pcs => exact nomatch hpc ▸ pcs p
      | sizing pc => exact absurd pc hsizing
      | ring whole ready =>
          obtain ⟨next, hrem, -⟩ := whole.live.remainder whole.live.ring.head
          simp only [Shared.enter, hrem]
          split <;> exact hmove nofun

end Steps

/-- The ring holds what was stored and not fetched, or it has no capacity
yet and nothing was stored. -/
def Shared.Intact (s : Shared ι α) : Prop :=
  s.shm.capacity = 0 ∧ s.stored = [] ∨
    ∃ held, s.stored = s.fetched ++ held ∧ held.length < s.shm.capacity.toNat ∧
      (s.shm.ring held.length).Valid s.shm.capacity.toNat ∧
      (s.shm.ring held.length).contents s.shm.capacity.toNat = held

omit [DecidableEq ι] in
theorem Shared.New.intact {s : Shared ι α} (h : s.New) :
    s.fetched.Sublist s.printed ∧ s.Intact := by
  obtain ⟨⟨hread, hwrite⟩, hstored, hfetched⟩ := h
  refine ⟨by rw [hfetched]; exact List.nil_sublist _, ?_⟩
  by_cases hcap : s.shm.capacity = 0
  · exact .inl ⟨hcap, hstored⟩
  · have hpos := toNat_pos hcap
    refine .inr ⟨[], by rw [hstored, hfetched]; rfl, hpos, ⟨?_, ?_, Nat.zero_le _⟩, rfl⟩
    · show s.shm.writeIndex.toNat = (s.shm.readIndex.toNat + 0) % _
      rw [hread, hwrite]
      exact (Nat.zero_mod _).symm
    · show s.shm.readIndex.toNat < _
      rw [hread]
      exact hpos

omit [DecidableEq ι] in
theorem Shared.Safe.intact {s : Shared ι α} (h : s.Safe) :
    s.fetched.Sublist s.printed ∧ s.Intact := by
  cases h.phase with
  | blank magic new => exact new.intact
  | sizing pc magic new => exact new.intact
  | @ring q whole =>
      exact ⟨whole.printed, .inr ⟨q.held, whole.stored, whole.live.room, whole.live.ring,
        whole.live.held⟩⟩

/-- **A crash does no harm**, unless it is between the statements of
`init_shmem` that set `magic` and `capacity`. Any number of processes use
the segment from the beginning, and each may be killed at any other moment.
At any time at most one of them has the semaphore, and if nobody has it, it
can be taken. Nobody divides by a capacity of zero. The ring holds whole
records only: those that were stored and not fetched, in the order in which
they were stored. And no record is passed over, since what was fetched was
handed to `printf`, in this order; but this may have happened twice. -/
theorem ring_survives_crashes [Zero α] {old : UInt32} {data : ℕ → α} {s : Shared ι α}
    (h : Reachable Shared.step Shared.Spares (Shared.init old data) s) :
    (∀ p p', (s.pc p).holds = true → (s.pc p').holds = true → p = p') ∧
      ((∀ p, (s.pc p).holds = false) → s.sem = 1) ∧
      (∀ p access, s.pc p = .locked access → (s.enter p access).pc p ≠ .dead) ∧
      s.fetched.Sublist s.printed ∧ s.Intact := by
  have hmagic : (0 : UInt32) ≠ shmMagic := by decide
  have hinit : (Shared.init old data : Shared ι α).Safe :=
    ⟨⟨none, rfl, fun p => ⟨nofun, nofun⟩, fun p => rfl⟩,
      .blank hmagic ⟨⟨rfl, rfl⟩, rfl, rfl⟩ (fun p => rfl) fun p => rfl⟩
  have hsafe : s.Safe := h.invariant hinit fun _ _ _ ih hok hs => Shared.Safe.step ih hok hs
  obtain ⟨owner, howned⟩ := hsafe.owned
  refine ⟨fun p p' => howned.eq_of_holds, fun hfree => ?_, fun p access => hsafe.enter_ne_dead,
    hsafe.intact⟩
  cases owner with
  | none => exact howned.sem
  | some p =>
      have hp := (howned.owner p).mpr rfl
      rw [hfree p] at hp
      cases hp

/-- The first process is killed while it clears the segment, the second one
while it writes, and the third one after it has printed a record. -/
def killedInside : List (ActBy ℕ ℕ) :=
  [⟨0, .lock (.initShmem 20)⟩, ⟨0, .enter⟩, ⟨0, .advance⟩, ⟨0, .wipe 3⟩, ⟨0, .crash⟩,
    ⟨1, .lock (.initShmem 20)⟩, ⟨1, .enter⟩, ⟨1, .unlock⟩,
    ⟨1, .lock (.storageData 5)⟩, ⟨1, .enter⟩, ⟨1, .write⟩, ⟨1, .advance⟩, ⟨1, .unlock⟩,
    ⟨1, .lock (.storageData 6)⟩, ⟨1, .enter⟩, ⟨1, .scribble 99⟩, ⟨1, .crash⟩,
    ⟨2, .lock .getData⟩, ⟨2, .enter⟩, ⟨2, .crash⟩,
    ⟨3, .lock .getData⟩, ⟨3, .enter⟩, ⟨3, .advance⟩]

theorem ring_survives_crashes_killedInside :
    ∃ s : Shared ℕ ℕ,
      Reachable Shared.step Shared.Spares (Shared.init 0 fun _ => 0) s ∧
        (s.stored, s.printed, s.fetched) = ([5], [5, 5], [5]) ∧
        s.fetched.Sublist s.printed ∧ s.Intact := by
  have hrun : (runs (guarded Shared.step Shared.Spares) (Shared.init 0 fun _ => 0)
      killedInside).map (fun s => (s.stored, s.printed, s.fetched)) =
        some ([5], [5, 5], [5]) := by decide +kernel
  obtain ⟨s, hreach, hobs⟩ := Reachable.exists_of_runs hrun
  exact ⟨s, hreach, hobs, (ring_survives_crashes hreach).2.2.2⟩

end LinuxMiniProjects.SensorHub
