import Mathlib.Tactic
import LinuxMiniProjects.Lib.Machine
import LinuxMiniProjects.Lib.RingBuf
import LinuxMiniProjects.Lib.Threads

/-!
The shared-memory ring of `gateway-core-posix`.

Sensors and readers are processes that share one segment: a ring of
records, two indices, a counter of dropped records, a mutex and two
semaphores. `storage_data` takes a permit from `spaces`, writes a record
under the mutex and posts `items`; `get_data` takes a permit from `items`,
copies a record under the mutex and posts `spaces`. Both only ever *try*
to take the permit, and a writer that does not get one counts a dropped
record.

The permit and the index are not updated together, so the semaphores say
how many records there are only up to the processes in between. The
system below has one step for each of these accesses, by any process, and
`Inv` is the account that holds at every step: what the semaphores say,
corrected by the number of processes at each point, is what the indices
say.
-/

namespace LinuxMiniProjects.CorePosix

open Machine

/-! ### The segment -/

def semValueMax : ℕ := 2 ^ 31 - 1

/-- The value of a semaphore that `sem_init` has initialised, unless it
fails with `EINVAL`. -/
def semInit (value : ℕ) : Option ℕ := if value ≤ semValueMax then some value else none

/-- The value after `sem_trywait`, unless it fails with `EAGAIN`. -/
def semTrywait (value : ℕ) : Option ℕ := if 0 < value then some (value - 1) else none

/-- The value after `sem_post`. It fails with `EOVERFLOW` at the largest
value, which `post_sem` reports to a caller that only prints it. -/
def semPost (value : ℕ) : ℕ := if value < semValueMax then value + 1 else value

def shmMagic : UInt32 := 0x20213026

def shmVersion : UInt32 := 1

structure ShmHeader where
  magic : UInt32
  version : UInt32
deriving DecidableEq

/-- The shared segment. The records are of any type `α`, whose zero is the
record all of whose bytes are zero. -/
structure ShmData (α : Type*) where
  hdr : ShmHeader
  capacity : UInt32
  readIndex : UInt32
  writeIndex : UInt32
  dropped : UInt32
  items : ℕ
  spaces : ℕ
  data : ℕ → α

variable {α : Type*} {ι : Type*}

/-- `init_shm`: its result, and the segment. The first process finds the
magic zero; for the others nothing is left to do. -/
def initShm [Zero α] (shm : ShmData α) : ℤ × ShmData α :=
  if shm.hdr.magic = 0 then
    let shm := { shm with
      hdr := { magic := shmMagic, version := shmVersion }
      readIndex := 0
      writeIndex := 0
      dropped := 0 }
    match semInit shm.capacity.toNat with
    | none => (-1, shm)
    | some spaces =>
        match semInit 0 with
        | none => (-1, { shm with spaces })
        | some items =>
            let data := fun i => if i < shm.capacity.toNat then 0 else shm.data i
            (0, { shm with spaces, items, data })
  else (0, shm)

/-- The access of `get_data` under the mutex. -/
def ShmData.take (shm : ShmData α) : α × ShmData α :=
  (shm.data shm.readIndex.toNat,
    { shm with readIndex := (shm.readIndex + 1) % shm.capacity })

/-- The access of `storage_data` under the mutex. -/
def ShmData.put (shm : ShmData α) (newData : α) : ShmData α :=
  { shm with
    data := Function.update shm.data shm.writeIndex.toNat newData
    writeIndex := (shm.writeIndex + 1) % shm.capacity }

/-! ### The processes -/

inductive Pc (α : Type*)
  | idle
  | reading
  | releasing
  | writing (newData : α)
  | publishing
  | refused
deriving DecidableEq

/-- A consumer between its `sem_trywait` and its `sem_post`. -/
def Pc.consumer : Pc α → Bool
  | reading | releasing => true
  | _ => false

/-- A producer between its `sem_trywait` and its `sem_post`. -/
def Pc.producer : Pc α → Bool
  | writing _ | publishing => true
  | _ => false

@[simp] def Pc.isIdle : Pc α → Bool
  | idle => true
  | _ => false

@[simp] def Pc.isReading : Pc α → Bool
  | reading => true
  | _ => false

@[simp] def Pc.isReleasing : Pc α → Bool
  | releasing => true
  | _ => false

@[simp] def Pc.isWriting : Pc α → Bool
  | writing _ => true
  | _ => false

@[simp] def Pc.isPublishing : Pc α → Bool
  | publishing => true
  | _ => false

@[simp] def Pc.isRefused : Pc α → Bool
  | refused => true
  | _ => false

theorem Pc.isIdle_iff {c : Pc α} : c.isIdle = true ↔ c = .idle := by
  cases c <;> simp

/-- The segment and the processes. The last four fields are a history that
no step reads: the records written and the records read so far, the slots
that were written and not read since, and the number of `storage_data`
calls that found no space. -/
structure Sys (ι α : Type*) where
  shm : ShmData α
  pc : ι → Pc α
  written : List α
  read : List α
  unread : ℕ → Bool
  noSpace : ℕ

def Sys.init (shm : ShmData α) : Sys ι α where
  shm
  pc := fun _ => .idle
  written := []
  read := []
  unread := fun _ => false
  noSpace := 0

/-- A process calls one of the two functions, up to its `sem_trywait`, or
goes on to its next access. -/
inductive Event (ι α : Type*)
  | getData (p : ι)
  | storageData (p : ι) (newData : α)
  | next (p : ι)

variable [DecidableEq ι]

def Sys.goto (s : Sys ι α) (p : ι) (pc : Pc α) : Sys ι α :=
  { s with pc := Function.update s.pc p pc }

/-- `get_data` up to its `sem_trywait`; it returns if there is no item. -/
def Sys.getData (s : Sys ι α) (p : ι) : Sys ι α :=
  match semTrywait s.shm.items with
  | none => s
  | some items => ({ s with shm := { s.shm with items } } : Sys ι α).goto p .reading

/-- `storage_data` up to its `sem_trywait`. -/
def Sys.storageData (s : Sys ι α) (p : ι) (newData : α) : Sys ι α :=
  match semTrywait s.shm.spaces with
  | none => ({ s with noSpace := s.noSpace + 1 } : Sys ι α).goto p .refused
  | some spaces => ({ s with shm := { s.shm with spaces } } : Sys ι α).goto p (.writing newData)

def Sys.take (s : Sys ι α) (p : ι) : Sys ι α :=
  ({ s with
    shm := s.shm.take.2
    read := s.read ++ [s.shm.take.1]
    unread := Function.update s.unread s.shm.readIndex.toNat false } : Sys ι α).goto p .releasing

def Sys.release (s : Sys ι α) (p : ι) : Sys ι α :=
  ({ s with shm := { s.shm with spaces := semPost s.shm.spaces } } : Sys ι α).goto p .idle

/-- `storage_data` under the mutex. -/
def Sys.put (s : Sys ι α) (p : ι) (newData : α) : Sys ι α :=
  ({ s with
    shm := s.shm.put newData
    written := s.written ++ [newData]
    unread := Function.update s.unread s.shm.writeIndex.toNat true } : Sys ι α).goto p .publishing

/-- The `sem_post` of `storage_data`. -/
def Sys.publish (s : Sys ι α) (p : ι) : Sys ι α :=
  ({ s with shm := { s.shm with items := semPost s.shm.items } } : Sys ι α).goto p .idle

/-- `storage_data` that found no space, under the mutex. -/
def Sys.drop (s : Sys ι α) (p : ι) : Sys ι α :=
  ({ s with shm := { s.shm with dropped := s.shm.dropped + 1 } } : Sys ι α).goto p .idle

/-- The next access of a process that is inside of one of the functions. -/
def Sys.next (s : Sys ι α) (p : ι) : Option (Sys ι α) :=
  match s.pc p with
  | .idle => none
  | .reading => some (s.take p)
  | .releasing => some (s.release p)
  | .writing newData => some (s.put p newData)
  | .publishing => some (s.publish p)
  | .refused => some (s.drop p)

def step (s : Sys ι α) : Event ι α → Option (Sys ι α)
  | .getData p => if (s.pc p).isIdle then some (s.getData p) else none
  | .storageData p newData => if (s.pc p).isIdle then some (s.storageData p newData) else none
  | .next p => s.next p

/-! ### The account -/

section Account

variable [Fintype ι]

omit [DecidableEq ι] in
theorem Pc.numAt_producer (pc : ι → Pc α) :
    numAt Pc.producer pc = numAt Pc.isWriting pc + numAt Pc.isPublishing pc := by
  rw [← numAt_or pc fun c hc => ?_]
  · congr 1
    funext c
    cases c <;> rfl
  · cases c <;> simp at hc ⊢

omit [DecidableEq ι] in
theorem Pc.numAt_consumer (pc : ι → Pc α) :
    numAt Pc.consumer pc = numAt Pc.isReading pc + numAt Pc.isReleasing pc := by
  rw [← numAt_or pc fun c hc => ?_]
  · congr 1
    funext c
    cases c <;> rfl
  · cases c <;> simp at hc ⊢

/-- What holds between the accesses, in a segment of capacity `cap`. -/
structure Inv (cap : ℕ) (s : Sys ι α) : Prop where
  capacity : s.shm.capacity.toNat = cap
  readIndex : s.shm.readIndex.toNat = s.read.length % cap
  writeIndex : s.shm.writeIndex.toNat = s.written.length % cap
  /-- A record is written, its permit posted, the permit taken, the record read. -/
  items : s.read.length + numAt Pc.isReading s.pc + s.shm.items + numAt Pc.isPublishing s.pc =
    s.written.length
  /-- The same for the permits of `spaces`, of which there are `cap` at first. -/
  spaces : s.written.length + numAt Pc.isWriting s.pc + s.shm.spaces + numAt Pc.isReleasing s.pc =
    s.read.length + cap
  contents : s.written = s.read ++
    window cap s.shm.data s.read.length (s.written.length - s.read.length)
  unread : ∀ b ∈ window cap s.unread s.read.length (s.written.length - s.read.length), b = true
  dropped : s.shm.dropped.toNat + numAt Pc.isRefused s.pc ≡ s.noSpace [MOD 2 ^ 32]

omit [DecidableEq ι] in
theorem Inv.init {shm : ShmData α} {cap : ℕ} (hcap : shm.capacity.toNat = cap)
    (hread : shm.readIndex = 0) (hwrite : shm.writeIndex = 0) (hdropped : shm.dropped = 0)
    (hitems : shm.items = 0) (hspaces : shm.spaces = cap) :
    Inv cap (Sys.init shm : Sys ι α) where
  capacity := hcap
  readIndex := by simp [Sys.init, hread]
  writeIndex := by simp [Sys.init, hwrite]
  items := by simp [Sys.init, hitems, numAt]
  spaces := by simp [Sys.init, hspaces, numAt]
  contents := rfl
  unread := by simp [Sys.init]
  dropped := by simp [Sys.init, hdropped, numAt, Nat.ModEq]

variable {cap : ℕ} {s s' : Sys ι α} {p : ι}

theorem Sys.counts_goto {c₀ : Pc α} (hpc : s.pc p = c₀) (c : Pc α) :
    let pc' := (s.goto p c).pc
    numAt Pc.isReading pc' + c₀.isReading.toNat = numAt Pc.isReading s.pc + c.isReading.toNat ∧
    numAt Pc.isReleasing pc' + c₀.isReleasing.toNat =
      numAt Pc.isReleasing s.pc + c.isReleasing.toNat ∧
    numAt Pc.isWriting pc' + c₀.isWriting.toNat = numAt Pc.isWriting s.pc + c.isWriting.toNat ∧
    numAt Pc.isPublishing pc' + c₀.isPublishing.toNat =
      numAt Pc.isPublishing s.pc + c.isPublishing.toNat ∧
    numAt Pc.isRefused pc' + c₀.isRefused.toNat = numAt Pc.isRefused s.pc + c.isRefused.toNat := by
  subst hpc
  exact ⟨numAt_update .., numAt_update .., numAt_update .., numAt_update .., numAt_update ..⟩

theorem Inv.getData (h : Inv cap s) (hpc : s.pc p = .idle) : Inv cap (s.getData p) := by
  unfold Sys.getData semTrywait
  split
  next => exact h
  next items htry =>
    obtain ⟨hpos, rfl⟩ : 0 < s.shm.items ∧ s.shm.items - 1 = items := by simpa using htry
    have hcount := Sys.counts_goto hpc .reading
    simp [Sys.goto] at hcount
    obtain ⟨hread, hrel, hwr, hpub, href⟩ := hcount
    have hitems := h.items
    exact
      { h with
        items := by simp only [Sys.goto]; omega
        spaces := by simpa only [Sys.goto, hwr, hrel] using h.spaces
        dropped := by simpa only [Sys.goto, href] using h.dropped }

theorem Inv.storageData (h : Inv cap s) (hpc : s.pc p = .idle) (newData : α) :
    Inv cap (s.storageData p newData) := by
  unfold Sys.storageData semTrywait
  split
  next =>
    obtain ⟨hread, hrel, hwr, hpub, href⟩ := Sys.counts_goto hpc .refused
    simp [Sys.goto] at hread hrel hwr hpub href
    exact
      { h with
        items := by simpa only [Sys.goto, hread, hpub] using h.items
        spaces := by simpa only [Sys.goto, hwr, hrel] using h.spaces
        dropped := by
          simp only [Sys.goto, href, ← Nat.add_assoc]
          exact h.dropped.add_right 1 }
  next spaces htry =>
    obtain ⟨hpos, rfl⟩ : 0 < s.shm.spaces ∧ s.shm.spaces - 1 = spaces := by simpa using htry
    obtain ⟨hread, hrel, hwr, hpub, href⟩ := Sys.counts_goto hpc (.writing newData)
    simp [Sys.goto] at hread hrel hwr hpub href
    have hspaces := h.spaces
    exact
      { h with
        items := by simpa only [Sys.goto, hread, hpub] using h.items
        spaces := by simp only [Sys.goto]; omega
        dropped := by simpa only [Sys.goto, href] using h.dropped }

omit [DecidableEq ι] in
theorem Inv.read_lt_written (h : Inv cap s) (hpc : s.pc p = .reading) :
    s.read.length < s.written.length := by
  have hpos : 0 < numAt Pc.isReading s.pc := numAt_pos (i := p) (by rw [hpc]; rfl)
  have hitems := h.items
  omega

omit [DecidableEq ι] in
theorem Inv.written_lt_read_add (h : Inv cap s) {newData : α} (hpc : s.pc p = .writing newData) :
    s.written.length < s.read.length + cap := by
  have hpos : 0 < numAt Pc.isWriting s.pc := numAt_pos (i := p) (by rw [hpc]; rfl)
  have hspaces := h.spaces
  omega

omit [DecidableEq ι] in
theorem Inv.read_le_written (h : Inv cap s) : s.read.length ≤ s.written.length := by
  have hitems := h.items
  omega

omit [DecidableEq ι] in
theorem Inv.written_le_read_add (h : Inv cap s) : s.written.length ≤ s.read.length + cap := by
  have hspaces := h.spaces
  omega

omit [DecidableEq ι] in
/-- The records that were written and not read yet, when there is one: it
is in the slot that is read next. -/
theorem Inv.window_eq_cons (h : Inv cap s) (hlt : s.read.length < s.written.length)
    {β : Type*} (cells : ℕ → β) :
    window cap cells s.read.length (s.written.length - s.read.length) =
      cells s.shm.readIndex.toNat ::
        window cap cells (s.read.length + 1) (s.written.length - (s.read.length + 1)) := by
  have hn : s.written.length - s.read.length =
      s.written.length - (s.read.length + 1) + 1 := by omega
  rw [hn, window_cons, h.readIndex]

theorem Inv.take (h : Inv cap s) (hpc : s.pc p = .reading) : Inv cap (s.take p) := by
  obtain ⟨hread, hrel, hwr, hpub, href⟩ := Sys.counts_goto hpc .releasing
  simp [Sys.goto] at hread hrel hwr hpub href
  have hitems := h.items
  have hspaces := h.spaces
  have hlt := h.read_lt_written hpc
  have hcap : 0 < cap := by
    have hle := h.written_le_read_add
    omega
  have hlen : (s.take p).read.length = s.read.length + 1 := by simp [Sys.take, Sys.goto]
  refine ⟨h.capacity, ?_, h.writeIndex, ?_, ?_, ?_, ?_, ?_⟩
  · rw [hlen]
    exact toNat_succ_mod h.capacity hcap h.readIndex
  · rw [hlen]
    simp only [Sys.take, Sys.goto, ShmData.take]
    omega
  · rw [hlen]
    simp only [Sys.take, Sys.goto, ShmData.take]
    omega
  · have hcontents := h.contents
    rw [h.window_eq_cons hlt] at hcontents
    rw [hlen]
    simpa [Sys.take, Sys.goto, ShmData.take] using hcontents
  · have hunread := h.unread
    rw [h.window_eq_cons hlt] at hunread
    have hn : s.written.length - (s.read.length + 1) < cap := by omega
    intro b hb
    rw [hlen] at hb
    simp only [Sys.take, Sys.goto, h.readIndex] at hb
    rw [window_update_before hn] at hb
    exact hunread b (List.mem_cons_of_mem _ hb)
  · simpa only [Sys.take, Sys.goto, ShmData.take, href] using h.dropped

theorem Inv.put (h : Inv cap s) {newData : α} (hpc : s.pc p = .writing newData) :
    Inv cap (s.put p newData) := by
  obtain ⟨hread, hrel, hwr, hpub, href⟩ := Sys.counts_goto hpc .publishing
  simp [Sys.goto] at hread hrel hwr hpub href
  have hitems := h.items
  have hspaces := h.spaces
  have hlt := h.written_lt_read_add hpc
  have hcap : 0 < cap := by
    have hle := h.read_le_written
    omega
  have hlen : (s.put p newData).written.length = s.written.length + 1 := by
    simp [Sys.put, Sys.goto]
  -- The slot that is written is the one behind the window.
  have hn : s.written.length - s.read.length < cap := by omega
  have hslot : s.shm.writeIndex.toNat =
      (s.read.length + (s.written.length - s.read.length)) % cap := by
    rw [h.writeIndex]
    congr 1
    omega
  have hsub : s.written.length + 1 - s.read.length = s.written.length - s.read.length + 1 := by
    omega
  refine ⟨h.capacity, h.readIndex, ?_, ?_, ?_, ?_, ?_, ?_⟩
  · rw [hlen]
    exact toNat_succ_mod h.capacity hcap h.writeIndex
  · rw [hlen]
    simp only [Sys.put, Sys.goto, ShmData.put]
    omega
  · rw [hlen]
    simp only [Sys.put, Sys.goto, ShmData.put]
    omega
  · rw [hlen]
    simp only [Sys.put, Sys.goto, ShmData.put, hslot, hsub]
    rw [window_push hn, ← List.append_assoc, ← h.contents]
  · intro b hb
    rw [hlen] at hb
    simp only [Sys.put, Sys.goto, hslot, hsub] at hb
    rw [window_push hn, List.mem_append, List.mem_singleton] at hb
    exact hb.elim (h.unread b) id
  · simpa only [Sys.put, Sys.goto, ShmData.put, href] using h.dropped

/-- A post does not overflow: there are at most `cap` permits. -/
theorem Inv.release (h : Inv cap s) (hmax : cap ≤ semValueMax) (hpc : s.pc p = .releasing) :
    Inv cap (s.release p) := by
  obtain ⟨hread, hrel, hwr, hpub, href⟩ := Sys.counts_goto hpc .idle
  simp [Sys.goto] at hread hrel hwr hpub href
  have hitems := h.items
  have hspaces := h.spaces
  have hpost : semPost s.shm.spaces = s.shm.spaces + 1 := if_pos (by omega)
  exact
    { h with
      items := by simpa only [Sys.release, Sys.goto, hread, hpub] using h.items
      spaces := by simp only [Sys.release, Sys.goto]; omega
      dropped := by simpa only [Sys.release, Sys.goto, href] using h.dropped }

theorem Inv.publish (h : Inv cap s) (hmax : cap ≤ semValueMax) (hpc : s.pc p = .publishing) :
    Inv cap (s.publish p) := by
  obtain ⟨hread, hrel, hwr, hpub, href⟩ := Sys.counts_goto hpc .idle
  simp [Sys.goto] at hread hrel hwr hpub href
  have hitems := h.items
  have hspaces := h.spaces
  have hpost : semPost s.shm.items = s.shm.items + 1 := if_pos (by omega)
  exact
    { h with
      items := by simp only [Sys.publish, Sys.goto]; omega
      spaces := by simpa only [Sys.publish, Sys.goto, hwr, hrel] using h.spaces
      dropped := by simpa only [Sys.publish, Sys.goto, href] using h.dropped }

theorem Inv.drop (h : Inv cap s) (hpc : s.pc p = .refused) : Inv cap (s.drop p) := by
  obtain ⟨hread, hrel, hwr, hpub, href⟩ := Sys.counts_goto hpc .idle
  simp [Sys.goto] at hread hrel hwr hpub href
  exact
    { h with
      items := by simpa only [Sys.drop, Sys.goto, hread, hpub] using h.items
      spaces := by simpa only [Sys.drop, Sys.goto, hwr, hrel] using h.spaces
      dropped := by
        -- One more counted, one less on the way: the sum is the same modulo `2 ^ 32`.
        have hdropped := h.dropped
        rw [← href, Nat.add_comm (numAt _ _), ← Nat.add_assoc] at hdropped
        refine Nat.ModEq.trans ?_ hdropped
        simp only [Sys.drop, Sys.goto, UInt32.toNat_add]
        exact (Nat.mod_modEq _ _).add_right _ }

theorem Inv.step (h : Inv cap s) (hmax : cap ≤ semValueMax) {e : Event ι α}
    (hs : step s e = some s') : Inv cap s' := by
  cases e with
  | getData p =>
      simp only [CorePosix.step, Option.ite_none_right_eq_some, Option.some.injEq] at hs
      obtain ⟨hidle, rfl⟩ := hs
      exact h.getData (Pc.isIdle_iff.mp hidle)
  | storageData p newData =>
      simp only [CorePosix.step, Option.ite_none_right_eq_some, Option.some.injEq] at hs
      obtain ⟨hidle, rfl⟩ := hs
      exact h.storageData (Pc.isIdle_iff.mp hidle) newData
  | next p =>
      simp only [CorePosix.step, Sys.next] at hs
      cases hpc : s.pc p with
      | idle => simp [hpc] at hs
      | reading =>
          obtain rfl : s.take p = s' := by simpa [hpc] using hs
          exact h.take hpc
      | releasing =>
          obtain rfl : s.release p = s' := by simpa [hpc] using hs
          exact h.release hmax hpc
      | writing newData =>
          obtain rfl : s.put p newData = s' := by simpa [hpc] using hs
          exact h.put hpc
      | publishing =>
          obtain rfl : s.publish p = s' := by simpa [hpc] using hs
          exact h.publish hmax hpc
      | refused =>
          obtain rfl : s.drop p = s' := by simpa [hpc] using hs
          exact h.drop hpc

theorem initShm_eq [Zero α] {shm shm₀ : ShmData α} (hmagic : shm.hdr.magic = 0)
    (hinit : initShm shm = (0, shm₀)) :
    shm.capacity.toNat ≤ semValueMax ∧ shm₀.capacity = shm.capacity ∧ shm₀.readIndex = 0 ∧
      shm₀.writeIndex = 0 ∧ shm₀.dropped = 0 ∧ shm₀.items = 0 ∧
      shm₀.spaces = shm.capacity.toNat := by
  by_cases hle : shm.capacity.toNat ≤ semValueMax
  · simp only [initShm, semInit, hmagic, hle, Nat.zero_le, if_true, Prod.mk.injEq, true_and]
      at hinit
    subst hinit
    exact ⟨hle, rfl, rfl, rfl, rfl, rfl, rfl⟩
  · simp [initShm, semInit, hmagic, hle] at hinit

theorem Inv.of_reachable [Zero α] {shm shm₀ : ShmData α} (hmagic : shm.hdr.magic = 0)
    (hinit : initShm shm = (0, shm₀))
    (hs : Reachable CorePosix.step (fun _ _ => True) (Sys.init shm₀) s) :
    Inv shm.capacity.toNat s := by
  obtain ⟨hmax, hc, hread, hwrite, hdropped, hitems, hspaces⟩ := initShm_eq hmagic hinit
  refine hs.invariant (Inv.init (by rw [hc]) hread hwrite hdropped hitems hspaces) ?_
  intro s e s' h _ hstep
  exact h.step hmax hstep

/-- **The shared ring.** After `init_shm` on a fresh segment with a
capacity of at least one, whatever the processes do: every permit is
accounted for; the indices stay below the capacity; what a process is
about to read was written and not read since; the records read are the
first of the records written; and `dropped` counts the calls that found no
space, up to those that have not counted themselves yet. -/
theorem shared_ring_safe [Zero α] {shm shm₀ : ShmData α} (hmagic : shm.hdr.magic = 0)
    (hcap : 1 ≤ shm.capacity) (hinit : initShm shm = (0, shm₀))
    (hs : Reachable CorePosix.step (fun _ _ => True) (Sys.init shm₀ : Sys ι α) s) :
    s.shm.items + s.shm.spaces + numAt Pc.producer s.pc + numAt Pc.consumer s.pc =
        shm.capacity.toNat ∧
      s.shm.readIndex < shm.capacity ∧ s.shm.writeIndex < shm.capacity ∧
      (∀ p, s.pc p = .reading → s.unread s.shm.readIndex.toNat = true ∧
        s.written[s.read.length]? = some s.shm.take.1) ∧
      s.read <+: s.written ∧
      s.shm.dropped.toNat + numAt Pc.isRefused s.pc ≡ s.noSpace [MOD 2 ^ 32] ∧
      ((∀ p, s.pc p ≠ .refused) → s.shm.dropped.toNat = s.noSpace % 2 ^ 32) := by
  have h := Inv.of_reachable hmagic hinit hs
  have hpos : 0 < shm.capacity.toNat := UInt32.le_iff_toNat_le.mp hcap
  refine ⟨?_, ?_, ?_, ?_, ?_, h.dropped, ?_⟩
  · have hitems := h.items
    have hspaces := h.spaces
    rw [Pc.numAt_producer, Pc.numAt_consumer]
    omega
  · rw [UInt32.lt_iff_toNat_lt, h.readIndex]
    exact Nat.mod_lt _ hpos
  · rw [UInt32.lt_iff_toNat_lt, h.writeIndex]
    exact Nat.mod_lt _ hpos
  · intro p hpc
    have hlt := h.read_lt_written hpc
    have hunread := h.unread
    have hcontents := h.contents
    rw [h.window_eq_cons hlt] at hunread hcontents
    refine ⟨hunread _ (List.mem_cons_self ..), ?_⟩
    rw [hcontents, List.getElem?_append_right le_rfl, Nat.sub_self]
    rfl
  · rw [h.contents]
    exact List.prefix_append _ _
  · intro hnone
    have hzero : numAt Pc.isRefused s.pc = 0 := by
      refine numAt_eq_zero fun p => ?_
      cases hpc : s.pc p with
      | refused => exact absurd hpc (hnone p)
      | _ => rfl
    have hdropped := h.dropped
    rw [hzero, Nat.add_zero] at hdropped
    rw [← hdropped, Nat.mod_eq_of_lt s.shm.dropped.toNat_lt]

end Account

def oneSlot : ShmData ℕ where
  hdr := { magic := 0, version := 0 }
  capacity := 1
  readIndex := 0
  writeIndex := 0
  dropped := 0
  items := 0
  spaces := 0
  data := fun _ => 0

/-- Two processes store a record each, the second one finds no space, and
then it reads the record of the first. -/
def storeStoreGet : List (Event (Fin 2) ℕ) :=
  [.storageData 0 7, .next 0, .storageData 1 8, .next 0, .next 1, .getData 1]

theorem shared_ring_safe_oneSlot :
    ∃ s : Sys (Fin 2) ℕ,
      Reachable step (fun _ _ => True) (Sys.init (initShm oneSlot).2) s ∧
      s.pc 1 = .reading ∧ s.noSpace = 1 ∧
      s.written[s.read.length]? = some s.shm.take.1 ∧ s.read <+: s.written ∧
      s.shm.dropped.toNat + numAt Pc.isRefused s.pc ≡ s.noSpace [MOD 2 ^ 32] := by
  have hrun : (runs (guarded step fun _ _ => True) (Sys.init (initShm oneSlot).2)
      storeStoreGet).map (fun s => (s.pc 1, s.noSpace)) = some (.reading, 1) := by
    decide +kernel
  obtain ⟨s, hreach, hobs⟩ := Reachable.exists_of_runs hrun
  obtain ⟨hpc, hno⟩ := Prod.mk.injEq .. ▸ hobs
  obtain ⟨-, -, -, hread, hpre, hdropped, -⟩ :=
    shared_ring_safe (show oneSlot.hdr.magic = 0 from rfl) (by decide) rfl hreach
  exact ⟨s, hreach, hpc, hno, (hread 1 hpc).2, hpre, hdropped⟩

end LinuxMiniProjects.CorePosix
