import LinuxMiniProjects.CorePosix.SharedRing

/-!
How the processes of `gateway-core-posix` start.

The controller, the sensor and the monitor begin alike. Each maps the
segment and looks at the magic; one that finds it set goes on to use the
ring, and the others set the capacity and call `init_shm`. There the magic
is looked at again, and assigned *first*, before the indices, the mutex and
the semaphores.

`initShm` takes all of `init_shm` as one step. Here every statement that
reads or writes the segment is a step of its own, and the processes that
have started already use the ring in between, by the steps of the system of
`SharedRing`. A process that starts alone does what `initShm` says
(`runs_start_eq_initShm`); what is left of that when others start at the
same time is the subject of the rest.

A statement is taken to be visible to the other processes when it is
executed, in the order of the program.
-/

namespace LinuxMiniProjects.CorePosix

open Machine

variable {α : Type*} {ι : Type*}

/-! ### The statements -/

/-- The statements of `init_shm` on a segment whose magic was zero, by what
they set. -/
inductive InitPc
  | magic | version | readIndex | writeIndex | dropped | mutex | spaces | items | data
deriving DecidableEq

def InitPc.index : InitPc → ℕ
  | magic => 0
  | version => 1
  | readIndex => 2
  | writeIndex => 3
  | dropped => 4
  | mutex => 5
  | spaces => 6
  | items => 7
  | data => 8

inductive StartPc
  | off
  | differs
  | calling
  | initing (k : InitPc)
  | failed
  | running
deriving DecidableEq

/-- A process between its look at the magic and its return from `init_shm`. -/
def StartPc.starting : StartPc → Bool
  | differs | calling | initing _ => true
  | _ => false

/-- A process that has assigned the magic and is not done with the
semaphores. -/
def StartPc.halfway : StartPc → Bool
  | initing .magic | initing .data => false
  | initing _ => true
  | _ => false

/-- A process that does not start: it has not yet, or it uses the ring. -/
def StartPc.Settled (c : StartPc) : Prop := c = .off ∨ c = .running

theorem StartPc.Settled.starting {c : StartPc} (h : c.Settled) : c.starting = false := by
  obtain rfl | rfl := h <;> rfl

def InitPc.next : InitPc → StartPc
  | magic => .initing .version
  | version => .initing .readIndex
  | readIndex => .initing .writeIndex
  | writeIndex => .initing .dropped
  | dropped => .initing .mutex
  | mutex => .initing .spaces
  | spaces => .initing .items
  | items => .initing .data
  | data => .running

/-- The segment with the processes that use it, and where each process is
in its `main`. The last three fields are a history: whether the mutex and
the semaphores were initialised. -/
structure Boot (ι α : Type*) where
  ring : Sys ι α
  main : ι → StartPc
  mutexInit : Bool
  spacesInit : Bool
  itemsInit : Bool

def Boot.init (shm : ShmData α) : Boot ι α where
  ring := Sys.init shm
  main := fun _ => .off
  mutexInit := false
  spacesInit := false
  itemsInit := false

def Boot.setShm (b : Boot ι α) (shm : ShmData α) : Boot ι α :=
  { b with ring := { b.ring with shm } }

/-- One statement of `init_shm`, unless it is a `sem_init` that fails. -/
def Boot.assign [Zero α] (b : Boot ι α) : InitPc → Option (Boot ι α)
  | .magic =>
      let hdr := { b.ring.shm.hdr with magic := shmMagic }
      some (b.setShm { b.ring.shm with hdr })
  | .version =>
      let hdr := { b.ring.shm.hdr with version := shmVersion }
      some (b.setShm { b.ring.shm with hdr })
  | .readIndex => some (b.setShm { b.ring.shm with readIndex := 0 })
  | .writeIndex => some (b.setShm { b.ring.shm with writeIndex := 0 })
  | .dropped => some (b.setShm { b.ring.shm with dropped := 0 })
  | .mutex => some { b with mutexInit := true }
  | .spaces =>
      (semInit b.ring.shm.capacity.toNat).map fun spaces =>
        { b.setShm { b.ring.shm with spaces } with spacesInit := true }
  | .items =>
      (semInit 0).map fun items =>
        { b.setShm { b.ring.shm with items } with itemsInit := true }
  | .data =>
      let data := fun i => if i < b.ring.shm.capacity.toNat then 0 else b.ring.shm.data i
      some (b.setShm { b.ring.shm with data })

variable [DecidableEq ι]

def Boot.goto (b : Boot ι α) (p : ι) (c : StartPc) : Boot ι α :=
  { b with main := Function.update b.main p c }

/-- One statement of `init_shm`, and where it leads. -/
def Boot.initStep [Zero α] (b : Boot ι α) (p : ι) (k : InitPc) : Boot ι α :=
  match b.assign k with
  | none => b.goto p .failed
  | some b' => b'.goto p k.next

/-- The next step of a process that starts, where `cap` is
`BUFFER_CAPACITY`. -/
def Boot.startStep [Zero α] (cap : UInt32) (b : Boot ι α) (p : ι) : Option (Boot ι α) :=
  match b.main p with
  | .off => some (b.goto p (if b.ring.shm.hdr.magic ≠ shmMagic then .differs else .running))
  | .differs => some ((b.setShm { b.ring.shm with capacity := cap }).goto p .calling)
  | .calling => some (b.goto p (if b.ring.shm.hdr.magic = 0 then .initing .magic else .running))
  | .initing k => some (b.initStep p k)
  | .failed => none
  | .running => none

def Event.process : Event ι α → ι
  | .getData p | .storageData p _ | .next p => p

inductive BootEvent (ι α : Type*)
  | start (p : ι)
  | use (e : Event ι α)

def bootStep [Zero α] (cap : UInt32) (b : Boot ι α) : BootEvent ι α → Option (Boot ι α)
  | .start p => b.startStep cap p
  | .use e =>
      if b.main e.process = .running then
        (step b.ring e).map fun ring => { b with ring }
      else none

/-- The processes start one after the other: none looks at the magic while
another is between its own look and its return from `init_shm`. -/
def OneByOne (b : Boot ι α) : BootEvent ι α → Prop
  | .start p => b.main p = .off → ∀ q, (b.main q).starting = false
  | .use _ => True

instance [Fintype ι] (b : Boot ι α) : (e : BootEvent ι α) → Decidable (OneByOne b e)
  | .start p => inferInstanceAs (Decidable (b.main p = .off → ∀ q, (b.main q).starting = false))
  | .use _ => isTrue trivial

/-! ### What the statements do -/

section Statements

variable [Zero α] {cap : UInt32} {b b' : Boot ι α} {k j : InitPc} {p : ι}

omit [DecidableEq ι]

def Boot.Assigned (cap : UInt32) (b : Boot ι α) : InitPc → Prop
  | .magic => b.ring.shm.hdr.magic = shmMagic
  | .version => b.ring.shm.hdr.version = shmVersion
  | .readIndex => b.ring.shm.readIndex = 0
  | .writeIndex => b.ring.shm.writeIndex = 0
  | .dropped => b.ring.shm.dropped = 0
  | .mutex => b.mutexInit = true
  | .spaces => b.spacesInit = true ∧ b.ring.shm.spaces = cap.toNat
  | .items => b.itemsInit = true ∧ b.ring.shm.items = 0
  | .data => ∀ i < cap.toNat, b.ring.shm.data i = 0

theorem Boot.exists_assign (hmax : b.ring.shm.capacity.toNat ≤ semValueMax) (k : InitPc) :
    ∃ b', b.assign k = some b' := by
  cases k <;> simp [Boot.assign, semInit, hmax]

theorem Boot.assign_spaces (h : b.assign .spaces = some b') :
    b' = { b.setShm { b.ring.shm with spaces := b.ring.shm.capacity.toNat } with
      spacesInit := true } := by
  obtain ⟨v, hv, rfl⟩ := Option.map_eq_some_iff.mp h
  obtain ⟨-, hv⟩ := (Option.ite_none_right_eq_some ..).mp hv
  rw [Option.some.inj hv]

theorem Boot.assign_items (h : b.assign .items = some b') :
    b' = { b.setShm { b.ring.shm with items := 0 } with itemsInit := true } := by
  simpa [Boot.assign, semInit, eq_comm] using h

theorem Boot.assigned_assign (h : b.assign k = some b') (hcap : b.ring.shm.capacity = cap) :
    b'.Assigned cap k := by
  subst hcap
  cases k with
  | spaces =>
      obtain rfl := Boot.assign_spaces h
      exact ⟨rfl, rfl⟩
  | items =>
      obtain rfl := Boot.assign_items h
      exact ⟨rfl, rfl⟩
  | data =>
      obtain rfl := Option.some.inj h
      exact fun i hi => if_pos hi
  | _ =>
      obtain rfl := Option.some.inj h
      rfl

theorem Boot.assigned_of_ne (h : b.assign k = some b') (hne : j ≠ k) (hj : b.Assigned cap j) :
    b'.Assigned cap j := by
  cases k with
  | spaces =>
      obtain rfl := Boot.assign_spaces h
      cases j <;> first | exact absurd rfl hne | exact hj
  | items =>
      obtain rfl := Boot.assign_items h
      cases j <;> first | exact absurd rfl hne | exact hj
  | _ =>
      obtain rfl := Option.some.inj h
      cases j <;> first | exact absurd rfl hne | exact hj

def Sys.Unused (s : Sys ι α) : Prop := s = Sys.init s.shm

omit [Zero α] in
theorem Sys.Unused.setShm (h : b.ring.Unused) (shm : ShmData α) : (b.setShm shm).ring.Unused := by
  show { b.ring with shm } = Sys.init shm
  rw [h]
  rfl

theorem Boot.assign_frame (h : b.assign k = some b') :
    b'.ring.shm.capacity = b.ring.shm.capacity ∧ b'.main = b.main ∧
      (b.ring.Unused → b'.ring.Unused) := by
  cases k with
  | spaces =>
      obtain rfl := Boot.assign_spaces h
      exact ⟨rfl, rfl, fun hring => hring.setShm _⟩
  | items =>
      obtain rfl := Boot.assign_items h
      exact ⟨rfl, rfl, fun hring => hring.setShm _⟩
  | mutex =>
      obtain rfl := Option.some.inj h
      exact ⟨rfl, rfl, id⟩
  | _ =>
      obtain rfl := Option.some.inj h
      exact ⟨rfl, rfl, fun hring => hring.setShm _⟩

variable [DecidableEq ι] {b₁ : Boot ι α} {n : ℕ}

theorem runs_initing (hpc : b.main p = .initing k) (hk : b.assign k = some b₁)
    (hrest : runs (bootStep cap) (b₁.goto p k.next) (List.replicate n (.start p)) = some b') :
    runs (bootStep cap) b (List.replicate (n + 1) (.start p)) = some b' := by
  have hstep : bootStep cap b (.start p) = some (b₁.goto p k.next) := by
    simp only [bootStep, Boot.startStep, hpc, Boot.initStep, hk]
  rw [List.replicate_succ, runs, hstep]
  exact hrest

theorem runs_calling (hmagic : b.ring.shm.hdr.magic = 0) (hpc : b.main p = .off)
    (hrest : runs (bootStep cap)
      ((b.setShm { b.ring.shm with capacity := cap }).goto p (.initing .magic))
      (List.replicate n (.start p)) = some b') :
    runs (bootStep cap) b (List.replicate (n + 3) (.start p)) = some b' := by
  have hne : ¬ (0 : UInt32) = shmMagic := by decide
  simpa [List.replicate_succ, runs, bootStep, Boot.startStep, hpc, Boot.goto, Boot.setShm, hmagic,
    hne] using hrest

theorem exists_runs_spaces (cap : UInt32) {shm : ShmData α} (hmagic : shm.hdr.magic = 0) (p : ι) :
    ∃ b : Boot ι α,
      (∀ n b', runs (bootStep cap) b (List.replicate n (.start p)) = some b' →
        runs (bootStep cap) (Boot.init shm) (List.replicate (n + 9) (.start p)) = some b') ∧
      b.main p = .initing .spaces ∧
      b.ring.shm = { shm with
        hdr := { magic := shmMagic, version := shmVersion }
        capacity := cap
        readIndex := 0
        writeIndex := 0
        dropped := 0 } := by
  have hself : ∀ (b : Boot ι α) (c : StartPc), (b.goto p c).main p = c :=
    fun b c => Function.update_self ..
  apply Exists.intro
  refine ⟨?_, ?_, ?_⟩
  · intro n b' hrest
    refine runs_calling hmagic rfl ?_
    refine runs_initing (hself _ _) rfl ?_
    refine runs_initing (hself _ _) rfl ?_
    refine runs_initing (hself _ _) rfl ?_
    refine runs_initing (hself _ _) rfl ?_
    refine runs_initing (hself _ _) rfl ?_
    exact runs_initing (hself _ _) rfl hrest
  · exact hself _ _
  · rfl

theorem runs_start_eq_initShm {shm : ShmData α} (hmagic : shm.hdr.magic = 0) (p : ι) :
    ∃ n b, runs (bootStep cap) (Boot.init shm) (List.replicate n (.start p)) = some b ∧
      b.ring.shm = (initShm { shm with capacity := cap }).2 ∧
      b.main p = if (initShm { shm with capacity := cap }).1 = 0 then .running else .failed := by
  obtain ⟨b, hruns, hpc, hshm⟩ := exists_runs_spaces cap hmagic p
  have hself : ∀ (b : Boot ι α) (c : StartPc), (b.goto p c).main p = c :=
    fun b c => Function.update_self ..
  by_cases hle : cap.toNat ≤ semValueMax
  · have hcap : b.ring.shm.capacity.toNat ≤ semValueMax := by rwa [hshm]
    obtain ⟨b₁, hspaces⟩ := Boot.exists_assign hcap .spaces
    have hrun := hruns 3 _ (runs_initing hpc hspaces (runs_initing (hself _ _) rfl
      (runs_initing (n := 0) (hself _ _) rfl rfl)))
    refine ⟨12, _, hrun, ?_, ?_⟩
    · rw [Boot.assign_spaces hspaces]
      simp [Boot.goto, Boot.setShm, hshm, initShm, hmagic, semInit, hle]
    · simp [hself, initShm, hmagic, semInit, hle, InitPc.next]
  · have hcap : semInit b.ring.shm.capacity.toNat = none := by
      rw [hshm]
      exact if_neg hle
    refine ⟨10, b.goto p .failed, hruns 1 _ ?_, ?_, ?_⟩
    · simp [runs, bootStep, Boot.startStep, hpc, Boot.initStep, Boot.assign, hcap]
    · simp [Boot.goto, hshm, initShm, hmagic, semInit, hle]
    · simp [hself, initShm, hmagic, semInit, hle]

end Statements

/-! ### Starting one by one -/

section Phases

variable [Zero α] [Fintype ι] {cap : UInt32} {b b' : Boot ι α} {p : ι}

/-- The mutex and the semaphores are initialised, and every permit and
every record is accounted for. -/
structure Boot.Initialised (cap : UInt32) (b : Boot ι α) : Prop where
  mutex : b.mutexInit = true
  spaces : b.spacesInit = true
  items : b.itemsInit = true
  account : Inv cap.toNat b.ring

structure Boot.Untouched (b : Boot ι α) : Prop where
  magic : b.ring.shm.hdr.magic = 0
  unused : b.ring.Unused
  off : ∀ p, b.main p = .off

def Boot.Progress (cap : UInt32) (b : Boot ι α) : StartPc → Prop
  | .differs => b.ring.shm.hdr.magic = 0
  | .calling => b.ring.shm.hdr.magic = 0 ∧ b.ring.shm.capacity = cap
  | .initing k =>
      b.ring.shm.capacity = cap ∧ (k = .magic → b.ring.shm.hdr.magic = 0) ∧
        ∀ j, j.index < k.index → b.Assigned cap j
  | _ => False

structure Boot.Alone (cap : UInt32) (b : Boot ι α) (p : ι) : Prop where
  off : ∀ q, q ≠ p → b.main q = .off
  unused : b.ring.Unused
  progress : b.Progress cap (b.main p)

structure Boot.Ready (cap : UInt32) (b : Boot ι α) : Prop where
  magic : b.ring.shm.hdr.magic = shmMagic
  initialised : b.Initialised cap
  main : ∀ p, (b.main p).Settled

inductive Boot.Phase (cap : UInt32) (b : Boot ι α) : Prop
  | untouched (h : b.Untouched)
  | alone (p : ι) (h : b.Alone cap p)
  | ready (h : b.Ready cap)

omit [DecidableEq ι] [Fintype ι] in
theorem Boot.Progress.starting {c : StartPc} (h : b.Progress cap c) : c.starting = true := by
  cases c with
  | differs | calling | initing => rfl
  | off | failed | running => exact h.elim

omit [DecidableEq ι] [Fintype ι] in
theorem Boot.Alone.main_cases (h : b.Alone cap p) (q : ι) :
    b.main q = .off ∨ q = p ∧ (b.main q).starting = true := by
  by_cases hq : q = p
  · subst hq
    exact .inr ⟨rfl, h.progress.starting⟩
  · exact .inl (h.off q hq)

omit [DecidableEq ι] [Fintype ι] in
theorem Boot.Alone.main_ne (h : b.Alone cap p) (q : ι) :
    b.main q ≠ .running ∧ b.main q ≠ .failed := by
  obtain hoff | ⟨-, hstart⟩ := h.main_cases q
  · simp [hoff]
  · refine ⟨fun hq => ?_, fun hq => ?_⟩ <;> rw [hq] at hstart <;> cases hstart

omit [Fintype ι] in
theorem Boot.alone_goto {c : StartPc} (hoff : ∀ q, q ≠ p → b.main q = .off)
    (hunused : b.ring.Unused) (hc : (b.goto p c).Progress cap c) : (b.goto p c).Alone cap p := by
  refine ⟨fun q hq => ?_, hunused, ?_⟩
  · show Function.update b.main p c q = .off
    rw [Function.update_of_ne hq]
    exact hoff q hq
  · show (b.goto p c).Progress cap (Function.update b.main p c p)
    rwa [Function.update_self]

theorem InitPc.index_lt_next {k k' j : InitPc} (hk : k.next = .initing k')
    (hj : j.index < k'.index) : j.index < k.index ∨ j = k := by
  cases k <;> simp [InitPc.next] at hk <;> subst hk <;> cases j <;> simp_all [InitPc.index]

omit [DecidableEq ι] in
/-- The statements of `init_shm` up to the last one initialise a ring that
nobody has used. -/
theorem Boot.initialised_of_assigned (hunused : b.ring.Unused) (hcap : b.ring.shm.capacity = cap)
    (h : ∀ j, j.index < InitPc.data.index → b.Assigned cap j) :
    b.ring.shm.hdr.magic = shmMagic ∧ b.Initialised cap := by
  obtain ⟨hspaces, hspaces'⟩ := h .spaces (by decide)
  obtain ⟨hitems, hitems'⟩ := h .items (by decide)
  refine ⟨h .magic (by decide), h .mutex (by decide), hspaces, hitems, ?_⟩
  rw [hunused]
  exact Inv.init (congrArg _ hcap) (h .readIndex (by decide)) (h .writeIndex (by decide))
    (h .dropped (by decide)) hitems' hspaces'

theorem Boot.Alone.initStep {k : InitPc} (h : b.Alone cap p) (hpc : b.main p = .initing k)
    (hmax : cap.toNat ≤ semValueMax) : (b.initStep p k).Phase cap := by
  have hprogress := h.progress
  rw [hpc] at hprogress
  obtain ⟨hcap, -, hall⟩ := hprogress
  obtain ⟨b₁, hb₁⟩ := Boot.exists_assign (hcap ▸ hmax) k
  obtain ⟨hcap₁, hmain₁, hunused₁⟩ := Boot.assign_frame hb₁
  rw [Boot.initStep, hb₁]
  have hoff₁ : ∀ q, q ≠ p → b₁.main q = .off := by
    rw [hmain₁]
    exact h.off
  -- What the earlier statements have achieved is still there.
  have hall₁ : ∀ j, j.index < k.index → b₁.Assigned cap j := by
    intro j hj
    refine Boot.assigned_of_ne hb₁ ?_ (hall j hj)
    rintro rfl
    exact hj.false
  cases hnext : k.next with
  | running =>
      obtain rfl : k = .data := by cases k <;> first | rfl | cases hnext
      obtain ⟨hmagic, hinit⟩ :=
        Boot.initialised_of_assigned (hunused₁ h.unused) (hcap₁.trans hcap) hall₁
      refine .ready ⟨hmagic, ⟨hinit.mutex, hinit.spaces, hinit.items, hinit.account⟩, ?_⟩
      intro q
      by_cases hq : q = p
      · subst hq
        exact .inr (Function.update_self ..)
      · exact .inl ((Function.update_of_ne hq ..).trans (hoff₁ q hq))
  | initing k' =>
      refine .alone p (Boot.alone_goto hoff₁ (hunused₁ h.unused) ?_)
      refine ⟨hcap₁.trans hcap, ?_, fun j hj => ?_⟩
      · rintro rfl
        cases k <;> cases hnext
      · obtain hlt | rfl := InitPc.index_lt_next hnext hj
        · exact hall₁ j hlt
        · have hj₁ : b₁.Assigned cap j := Boot.assigned_assign hb₁ hcap
          exact hj₁
  | off | differs | calling | failed => cases k <;> cases hnext

omit [Zero α] [Fintype ι] in
theorem step_hdr {s s' : Sys ι α} {e : Event ι α} (hs : step s e = some s') :
    s'.shm.hdr = s.shm.hdr := by
  cases e with
  | getData p =>
      simp only [CorePosix.step, Option.ite_none_right_eq_some, Option.some.injEq] at hs
      obtain ⟨-, rfl⟩ := hs
      unfold Sys.getData
      split <;> rfl
  | storageData p newData =>
      simp only [CorePosix.step, Option.ite_none_right_eq_some, Option.some.injEq] at hs
      obtain ⟨-, rfl⟩ := hs
      unfold Sys.storageData
      split <;> rfl
  | next p =>
      simp only [CorePosix.step, Sys.next] at hs
      split at hs <;> cases hs <;> rfl

theorem Boot.Untouched.step (h : b.Untouched) {e : BootEvent ι α}
    (hs : bootStep cap b e = some b') : b'.Phase cap := by
  cases e with
  | start p =>
      have hne : (0 : UInt32) ≠ shmMagic := by decide
      obtain rfl : b.goto p .differs = b' := by
        simpa [bootStep, Boot.startStep, h.off p, h.magic, hne] using hs
      exact .alone p (Boot.alone_goto (fun q _ => h.off q) h.unused h.magic)
  | use e => simp [bootStep, h.off] at hs

theorem Boot.Alone.step (h : b.Alone cap p) (hmax : cap.toNat ≤ semValueMax) {e : BootEvent ι α}
    (hok : OneByOne b e) (hs : bootStep cap b e = some b') : b'.Phase cap := by
  cases e with
  | start q =>
      obtain rfl : q = p := by
        by_contra hq
        have hfree := hok (h.off q hq) p
        rw [h.progress.starting] at hfree
        cases hfree
      have hprogress := h.progress
      cases hpc : b.main q with
      | differs =>
          rw [hpc] at hprogress
          obtain rfl : (b.setShm { b.ring.shm with capacity := cap }).goto q .calling = b' := by
            simpa [bootStep, Boot.startStep, hpc] using hs
          exact .alone q (Boot.alone_goto h.off (h.unused.setShm _) ⟨hprogress, rfl⟩)
      | calling =>
          rw [hpc] at hprogress
          obtain ⟨hmagic, hcap⟩ := hprogress
          obtain rfl : b.goto q (.initing .magic) = b' := by
            simpa [bootStep, Boot.startStep, hpc, hmagic] using hs
          refine .alone q (Boot.alone_goto h.off h.unused ?_)
          exact ⟨hcap, fun _ => hmagic, fun j hj => absurd hj (Nat.not_lt_zero _)⟩
      | initing k =>
          obtain rfl : b.initStep q k = b' := by
            simpa [bootStep, Boot.startStep, hpc] using hs
          exact h.initStep hpc hmax
      | off | failed | running =>
          rw [hpc] at hprogress
          exact hprogress.elim
  | use e => simp [bootStep, (h.main_ne e.process).1] at hs

theorem Boot.Ready.step (h : b.Ready cap) (hmax : cap.toNat ≤ semValueMax) {e : BootEvent ι α}
    (hs : bootStep cap b e = some b') : b'.Phase cap := by
  cases e with
  | start p =>
      obtain hpc | hpc := h.main p
      · obtain rfl : b.goto p .running = b' := by
          simpa [bootStep, Boot.startStep, hpc, h.magic] using hs
        have hinit := h.initialised
        refine .ready ⟨h.magic, ⟨hinit.mutex, hinit.spaces, hinit.items, hinit.account⟩, ?_⟩
        exact forall_update h.main (show StartPc.Settled _ from .inr rfl)
      · simp [bootStep, Boot.startStep, hpc] at hs
  | use e =>
      have hinit := h.initialised
      obtain ⟨-, hs⟩ := (Option.ite_none_right_eq_some ..).mp hs
      obtain ⟨ring, hring, rfl⟩ := Option.map_eq_some_iff.mp hs
      have haccount : Inv cap.toNat ring := hinit.account.step hmax hring
      refine .ready ⟨?_, ⟨hinit.mutex, hinit.spaces, hinit.items, haccount⟩, h.main⟩
      show ring.shm.hdr.magic = shmMagic
      rw [step_hdr hring]
      exact h.magic

theorem Boot.Phase.of_reachable {shm : ShmData α} (hmagic : shm.hdr.magic = 0)
    (hmax : cap.toNat ≤ semValueMax)
    (hb : Reachable (bootStep cap) OneByOne (Boot.init shm) b) : b.Phase cap := by
  refine hb.invariant (.untouched ⟨hmagic, rfl, fun _ => rfl⟩) ?_
  intro b e b' h hok hs
  cases h with
  | untouched h => exact h.step hs
  | alone p h => exact h.step hmax hok hs
  | ready h => exact h.step hmax hs

omit [DecidableEq ι] in
theorem Boot.Alone.initialised (h : b.Alone cap p) (hhalf : (b.main p).halfway = false)
    (hmagic : b.ring.shm.hdr.magic = shmMagic) : b.Initialised cap := by
  have hzero : b.ring.shm.hdr.magic ≠ 0 := by
    rw [hmagic]
    decide
  have hprogress := h.progress
  cases hpc : b.main p with
  | differs =>
      rw [hpc] at hprogress
      exact absurd hprogress hzero
  | calling =>
      rw [hpc] at hprogress
      exact absurd hprogress.1 hzero
  | initing k =>
      rw [hpc] at hprogress hhalf
      obtain ⟨hcap, hfirst, hall⟩ := hprogress
      cases k with
      | magic => exact absurd (hfirst rfl) hzero
      | data => exact (Boot.initialised_of_assigned h.unused hcap hall).2
      | _ => cases hhalf
  | off | failed | running =>
      rw [hpc] at hprogress
      exact hprogress.elim

/-- **Publication by the magic.** If the processes start one by one on a
fresh segment, with a capacity that a semaphore can hold: in every state in
which no process is between its assignment of the magic and its last
`sem_init`, the magic means that the ring is initialised; a process that
goes on to use the ring finds it initialised; and while a process starts,
no other does and nobody uses the ring. -/
theorem magic_publishes {shm : ShmData α} (hmagic : shm.hdr.magic = 0)
    (hmax : cap.toNat ≤ semValueMax)
    (hb : Reachable (bootStep cap) OneByOne (Boot.init shm) b) :
    ((∀ p, (b.main p).halfway = false) → b.ring.shm.hdr.magic = shmMagic → b.Initialised cap) ∧
      (∀ p, b.main p = .running → b.ring.shm.hdr.magic = shmMagic ∧ b.Initialised cap) ∧
      (∀ p, (b.main p).starting = true → b.ring.Unused ∧ ∀ q, q ≠ p → b.main q = .off) ∧
      ∀ p, b.main p ≠ .failed := by
  cases Boot.Phase.of_reachable hmagic hmax hb with
  | untouched h =>
      have hzero : b.ring.shm.hdr.magic ≠ shmMagic := by
        rw [h.magic]
        decide
      refine ⟨fun _ hm => absurd hm hzero, ?_, ?_, ?_⟩ <;> simp [h.off, StartPc.starting]
  | alone p h =>
      refine ⟨fun hhalf => h.initialised (hhalf p), fun q hq => absurd hq (h.main_ne q).1, ?_,
        fun q => (h.main_ne q).2⟩
      intro q hq
      obtain hoff | ⟨rfl, -⟩ := h.main_cases q
      · rw [hoff] at hq
        cases hq
      · exact ⟨h.unused, h.off⟩
  | ready h =>
      refine ⟨fun _ _ => h.initialised, fun p _ => ⟨h.magic, h.initialised⟩, ?_, ?_⟩
      · intro p hp
        rw [(h.main p).starting] at hp
        cases hp
      · intro p hp
        obtain hpc | hpc := h.main p
        all_goals
          rw [hpc] at hp
          cases hp

end Phases

/-- The process `false` starts and stores a record, and then the process
`true` starts. -/
def oneAfterOther : List (BootEvent Bool ℕ) :=
  List.flatten
    [List.replicate 12 (.start false),
      [.use (.storageData false 7), .use (.next false), .use (.next false), .start true]]

theorem magic_publishes_oneAfterOther :
    ∃ b : Boot Bool ℕ, Reachable (bootStep 2) OneByOne (Boot.init oneSlot) b ∧
      b.main true = .running ∧ b.ring.written = [7] ∧ b.ring.shm.writeIndex = 1 ∧
      b.Initialised 2 := by
  have hrun : (runs (guarded (bootStep 2) OneByOne) (Boot.init oneSlot) oneAfterOther).map
      (fun b => (b.main true, b.ring.written, b.ring.shm.writeIndex)) =
        some (.running, [7], 1) := by
    decide +kernel
  obtain ⟨b, hreach, hobs⟩ := Reachable.exists_of_runs hrun
  simp only [Prod.mk.injEq] at hobs
  obtain ⟨hmain, hwritten, hwrite⟩ := hobs
  obtain ⟨-, hrunning, -, -⟩ := magic_publishes rfl (by decide) hreach
  exact ⟨b, hreach, hmain, hwritten, hwrite, (hrunning true hmain).2⟩

/-- The process `true` starts when `false` has assigned the magic, and calls
`storage_data`. -/
def startHalfway : List (BootEvent Bool ℕ) :=
  List.flatten [List.replicate 4 (.start false), [.start true, .use (.storageData true 7)]]

/-- Both processes find the magic zero. The process `false` goes on and
stores a record, and then `true` initialises the ring. -/
def startTogether : List (BootEvent Bool ℕ) :=
  List.flatten
    [List.replicate 3 (.start false), List.replicate 3 (.start true),
      List.replicate 9 (.start false),
      [.use (.storageData false 7), .use (.next false), .use (.next false)],
      List.replicate 9 (.start true)]

def startAfterFailure : List (BootEvent Bool ℕ) :=
  List.flatten [List.replicate 10 (.start false), [.start true]]

/-- A process uses a ring whose semaphores are not initialised; a ring that
holds a record is initialised again, and the account is lost; and with a
capacity that a semaphore cannot hold the magic is set for good on a ring
that is not initialised, also if the processes start one by one. -/
theorem magic_before_initialisation :
    (∃ b : Boot Bool ℕ, Reachable (bootStep 2) (fun _ _ => True) (Boot.init oneSlot) b ∧
      b.ring.shm.hdr.magic = shmMagic ∧ b.spacesInit = false ∧ b.itemsInit = false ∧
      b.main true = .running ∧ b.ring.pc true = .refused) ∧
    (∃ b : Boot Bool ℕ, Reachable (bootStep 2) (fun _ _ => True) (Boot.init oneSlot) b ∧
      b.ring.written = [7] ∧ b.ring.read = [] ∧ b.ring.shm.writeIndex = 0 ∧
      b.ring.shm.spaces = 2 ∧ b.ring.shm.items = 0 ∧ ¬ b.Initialised 2) ∧
    ∃ b : Boot Bool ℕ, Reachable (bootStep 0x80000000) OneByOne (Boot.init oneSlot) b ∧
      b.ring.shm.hdr.magic = shmMagic ∧ b.spacesInit = false ∧ b.main false = .failed ∧
      b.main true = .running := by
  refine ⟨?_, ?_, ?_⟩
  · have hrun : (runs (guarded (bootStep 2) fun _ _ => True) (Boot.init oneSlot) startHalfway).map
        (fun b => (b.ring.shm.hdr.magic, b.spacesInit, b.itemsInit, b.main true, b.ring.pc true)) =
          some (shmMagic, false, false, .running, .refused) := by
      decide +kernel
    obtain ⟨b, hreach, hobs⟩ := Reachable.exists_of_runs hrun
    simp only [Prod.mk.injEq] at hobs
    exact ⟨b, hreach, hobs⟩
  · have hrun : (runs (guarded (bootStep 2) fun _ _ => True) (Boot.init oneSlot) startTogether).map
        (fun b => (b.ring.written, b.ring.read, b.ring.shm.writeIndex, b.ring.shm.spaces,
          b.ring.shm.items)) = some ([7], [], 0, 2, 0) := by
      decide +kernel
    obtain ⟨b, hreach, hobs⟩ := Reachable.exists_of_runs hrun
    simp only [Prod.mk.injEq] at hobs
    obtain ⟨hwritten, hread, hwrite, hspaces, hitems⟩ := hobs
    refine ⟨b, hreach, hwritten, hread, hwrite, hspaces, hitems, ?_⟩
    -- One record was written, so the next one should not go to the same slot.
    intro hinit
    have hindex := hinit.account.writeIndex
    rw [hwritten, hwrite] at hindex
    exact absurd hindex (by decide)
  · have hrun : (runs (guarded (bootStep 0x80000000) OneByOne) (Boot.init oneSlot)
        startAfterFailure).map (fun b => (b.ring.shm.hdr.magic, b.spacesInit, b.main false,
          b.main true)) = some (shmMagic, false, .failed, .running) := by
      decide +kernel
    obtain ⟨b, hreach, hobs⟩ := Reachable.exists_of_runs hrun
    simp only [Prod.mk.injEq] at hobs
    exact ⟨b, hreach, hobs⟩

end LinuxMiniProjects.CorePosix
