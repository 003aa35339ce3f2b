import LinuxMiniProjects.ControlPlane.InFlight

/-!
What `handle_client_readable` does with a frame.

The priority of a frame is a number of 32 bits that the client has chosen.
For three values of it there is a queue. For all others the pointer to the
queue stays null, and `try_enqueue_task` reads the count of the queue
through it, unless the server is shutting down.

With one of the three values the frame is dispatched whatever the state of
the queues is: the task goes into the one queue, or the server takes back
that it has counted the task and answers with one message. The other
threads can come in between any two of these steps, so what is said about
the steps of the IO thread is said with `Sys.Then`.
-/

namespace LinuxMiniProjects.ControlPlane

open Bytes Socket Machine

/-! ### Steps of the IO thread -/

def Label.isIo (l : Label) : Prop := ∃ l', l = .io l'

/-- Whatever the other threads do, the IO thread can go on, and its next
step satisfies `post`. -/
def Sys.Then (s : Sys) (post : Sys → Sys → Prop) : Prop := Next Sys.step Label.isIo s post

theorem Sys.Step.io_eq {s s' : Sys} {l : Label} (h : s.Step l s') (hl : ¬ l.isIo) :
    s'.io = s.io := by
  cases h with
  | io step => exact absurd ⟨_, rfl⟩ hl
  | lock start => rfl
  | wake waiting => rfl
  | process busy free => exact (s.process_inv _ _).frame.1
  | sig step =>
      cases step with
      | sendFarewell pc ok =>
          unfold Sys.sendFarewell
          dsimp only
          split <;> rfl
      | _ => rfl

/-- It is enough to look at the states in which the IO thread is where it
is, and the accounts are right. -/
theorem Sys.Accounts.then {s : Sys} (h : s.Accounts) {post : Sys → Sys → Prop}
    (hpost : ∀ t : Sys, t.io = s.io → t.Accounts →
      (∃ l t', t.step (.io l) = some t') ∧ ∀ l t', t.step (.io l) = some t' → post t t') :
    s.Then post := by
  refine Next.of_stable (I := fun t => t.io = s.io ∧ t.Accounts) ⟨rfl, h⟩ ?_ ?_
  · rintro u l u' ⟨hio, hacc⟩ hl hu
    exact ⟨((Sys.step_inv hu).io_eq hl).trans hio, hacc.step hu⟩
  · rintro t ⟨hio, hacc⟩
    obtain ⟨⟨l, t', hstep⟩, hall⟩ := hpost t hio hacc
    refine ⟨⟨.io l, t', ⟨l, rfl⟩, hstep⟩, ?_⟩
    rintro _ t' ⟨l, rfl⟩ hstep
    exact hall l t' hstep

/-! ### What a step does with the task -/

/-- The task is behind the others in one of the queues, and nothing else is
different there. -/
def Sys.Places (s : Sys) (task : Task) (s' : Sys) : Prop :=
  s'.clients = s.clients ∧ ∃ p,
    (s'.sched.queue p).contents capacity = (s.sched.queue p).contents capacity ++ [task] ∧
    ∀ q, q ≠ p → s'.sched.queue q = s.sched.queue q

def Sys.Refuses (s s' : Sys) : Prop := s'.clients = s.clients ∧ s'.sched = s.sched

def Sys.Uncounts (s : Sys) (fd : ℕ) (s' : Sys) : Prop :=
  s'.sched = s.sched ∧ (s'.clients fd).pendingTask + 1 = (s.clients fd).pendingTask ∧
    s'.clients = Function.update s.clients fd { s.clients fd with
      pendingTask := (s'.clients fd).pendingTask }

def Sys.Sends (s : Sys) (fd : ℕ) (m : MessageControl) (s' : Sys) : Prop :=
  s'.sched = s.sched ∧ s.queued s' fd = some m ∧
    s'.clients = Function.update s.clients fd (queueClient (s.clients fd) m)

/-- The frame is dispatched: the task is placed, or it is refused, the
client is sent `SERVER BUSY` and has the number of tasks it had. -/
def Sys.Dispatches (s : Sys) (task : Task) (rest : List EpollEvent) : Prop :=
  s.Then fun t t' =>
    t.Places task t' ∧ t'.io = .readable rest ∨
    t.Refuses t' ∧ t'.Then fun u u' =>
      u.Uncounts task.fd u' ∧ u'.Then fun v v' =>
        v.Sends task.fd (serverBusy task.message) v' ∧ v'.io = .readable rest

theorem Sched.exists_signal (s : Sched Task) : ∃ released s', s.signal released = some s' := by
  by_cases hwait : ∃ w, (s.worker w).isWaiting = true
  · obtain ⟨w, hw⟩ := hwait
    exact ⟨some w, _, if_pos hw⟩
  · push Not at hwait
    exact ⟨none, _, if_pos fun w => Bool.eq_false_iff.mpr (hwait w)⟩

theorem Sched.exists_tryEnqueue (s : Sched Task) (p : Priority) (task : Task) :
    ∃ released out, s.tryEnqueue p task released = some out := by
  unfold Sched.tryEnqueue
  cases htry : tryEnqueueTask s.shutdown (s.queue p) task with
  | mk ok queue =>
      cases ok with
      | false => exact ⟨none, _, if_pos rfl⟩
      | true =>
          obtain ⟨released, s', hs'⟩ := Sched.exists_signal { s with
            queue := Function.update s.queue p queue
            accepted := Function.update s.accepted p (s.accepted p ++ [task]) }
          exact ⟨released, _, by simp only [hs', Option.map_some]; rfl⟩

section Steps

variable {s s' : Sys} {task : Task} {rest : List EpollEvent}

theorem Sys.step_holding (hio : s.io = .holding task rest) (l : IoLabel) :
    s.step (.io l) = some s' ↔
      ∃ released, l = .enqueue released ∧ s.enqueue task rest released = some s' := by
  rw [Sys.step, Sys.ioStep.eq_def, hio]
  cases l <;> simp

theorem Sys.step_refused (hio : s.io = .refused task rest) (l : IoLabel) :
    s.step (.io l) = some s' ↔ l = .next ∧
      (s.setClient task.fd { s.clients task.fd with
        pendingTask := (s.clients task.fd).pendingTask - 1 }).goto (.busy task rest) = s' := by
  rw [Sys.step, Sys.ioStep.eq_def, hio]
  cases l <;> simp

theorem Sys.step_busy (hio : s.io = .busy task rest) (l : IoLabel) :
    s.step (.io l) = some s' ↔ l = .next ∧
      (s.setClient task.fd (queueClient (s.clients task.fd)
        (serverBusy task.message))).goto (.readable rest) = s' := by
  rw [Sys.step, Sys.ioStep.eq_def, hio]
  cases l <;> simp

theorem Sys.Accounts.then_sends (h : s.Accounts) (hio : s.io = .busy task rest) :
    s.Then fun v v' => v.Sends task.fd (serverBusy task.message) v' ∧ v'.io = .readable rest := by
  refine h.then fun v hv _ => ?_
  have hbusy : v.io = .busy task rest := hv.trans hio
  refine ⟨⟨.next, _, (Sys.step_busy hbusy _).mpr ⟨rfl, rfl⟩⟩, fun l v' hstep => ?_⟩
  obtain ⟨-, rfl⟩ := (Sys.step_busy hbusy l).mp hstep
  exact ⟨⟨rfl, (Sys.queued_queue rfl rfl _).trans (if_pos rfl), rfl⟩, rfl⟩

/-- What was counted is taken back. The task in the hands of the IO thread
is among those that are counted. -/
theorem Sys.Accounts.then_uncounts (h : s.Accounts) (hio : s.io = .refused task rest) :
    s.Then fun u u' => u.Uncounts task.fd u' ∧ u'.Then fun v v' =>
      v.Sends task.fd (serverBusy task.message) v' ∧ v'.io = .readable rest := by
  refine h.then fun u hu hacc => ?_
  have hrefused : u.io = .refused task rest := hu.trans hio
  refine ⟨⟨.next, _, (Sys.step_refused hrefused _).mpr ⟨rfl, rfl⟩⟩, fun l u' hstep => ?_⟩
  have hacc' : u'.Accounts := hacc.step hstep
  obtain ⟨-, rfl⟩ := (Sys.step_refused hrefused l).mp hstep
  have hcount := hacc.count task.fd
  rw [hrefused, IoPc.holds_refused, onFd_self, Bool.toNat_true] at hcount
  refine ⟨⟨rfl, ?_, ?_⟩, hacc'.then_sends rfl⟩
  · simp only [Sys.goto, Sys.setClient, Function.update_self]
    omega
  · simp only [Sys.goto, Sys.setClient, Function.update_self]

theorem Sys.exists_enqueue (s : Sys) (rest : List EpollEvent) {p : Priority}
    (hp : Priority.ofCode task.message.pri = some p) :
    ∃ released s', s.enqueue task rest released = some s' := by
  obtain ⟨released, out, hout⟩ := s.sched.exists_tryEnqueue p task
  exact ⟨released, _, by simp only [Sys.enqueue, hp, hout, Option.map_some]; rfl⟩

theorem Sys.Accounts.then_dispatches (h : s.Accounts) (hio : s.io = .holding task rest)
    {p : Priority} (hp : Priority.ofCode task.message.pri = some p) : s.Dispatches task rest := by
  refine h.then fun t ht hacc => ?_
  have hholding : t.io = .holding task rest := ht.trans hio
  obtain ⟨released, t₀, ht₀⟩ := t.exists_enqueue rest hp
  refine ⟨⟨_, _, (Sys.step_holding hholding _).mpr ⟨released, rfl, ht₀⟩⟩, fun l t' hstep => ?_⟩
  have hacc' : t'.Accounts := hacc.step hstep
  obtain ⟨released, -, henq⟩ := (Sys.step_holding hholding l).mp hstep
  simp only [Sys.enqueue, hp] at henq
  obtain ⟨⟨ok, sched⟩, htry, rfl⟩ := Option.map_eq_some_iff.mp henq
  obtain ⟨rfl, -, rfl⟩ | ⟨rfl, -, hlt, hqueue, -⟩ := Sched.tryEnqueue_cases htry
  · exact .inr ⟨⟨rfl, rfl⟩, hacc'.then_uncounts rfl⟩
  · refine .inl ⟨⟨rfl, p, ?_, fun q hq => ?_⟩, rfl⟩
    · simp only [Sys.goto, hqueue, Function.update_self]
      exact (hacc.sched.valid p).contents_push hlt task
    · simp only [Sys.goto, hqueue, Function.update_of_ne hq]

end Steps

/-- A task for which there is no queue: the server reads through a null
pointer, unless it is shutting down. -/
theorem Sys.stuck_without_queue {s : Sys} {task : Task} {rest : List EpollEvent}
    (hio : s.io = .holding task rest) (hnone : Priority.ofCode task.message.pri = none)
    (hdown : s.sched.shutdown = false) (l : IoLabel) : s.step (.io l) = none := by
  by_contra hne
  obtain ⟨t, ht⟩ := Option.ne_none_iff_exists'.mp hne
  obtain ⟨released, -, henq⟩ := (Sys.step_holding hio l).mp ht
  simp [Sys.enqueue, hnone, hdown] at henq

theorem Priority.ofCode_ne_none_iff (code : UInt32) :
    Priority.ofCode code ≠ none ↔ code = 0 ∨ code = 1 ∨ code = 2 := by
  have hcode : ∀ n : UInt32, n.toNat = code.toNat ↔ code = n := fun n =>
    UInt32.toNat_inj.trans eq_comm
  have hlow := hcode 0
  have hmedium := hcode 1
  have hhigh := hcode 2
  simp only [UInt32.reduceToNat] at hlow hmedium hhigh
  have hfind : Priority.ofCode code ≠ none ↔ ¬ code = 0 → ¬ code = 1 → code = 2 := by
    simp [Priority.ofCode, Priority.code, hlow, hmedium, hhigh]
  rw [hfind]
  tauto

theorem Sys.recv_frame {s s' : Sys} {fd : ℕ} {rest : List EpollEvent} {res : RecvRes}
    {inbox : Inbox} {ok : Bool} (hio : s.io = .reading fd rest)
    (hstep : s.step (.io (.recv res)) = some s')
    (hframe : (s.clients fd).inbox.turn res = .frame inbox ok)
    (hsum : inbox.message.ChecksumOk) :
    (s'.clients fd).pendingTask = (s.clients fd).pendingTask + 1 ∧ s'.sched = s.sched ∧
      ∃ task, task.fd = fd ∧ task.message = inbox.message ∧ s'.io = .holding task rest := by
  have hok : ok = true := (Inbox.turn_frame hframe).mpr hsum
  have hturn : (s.clients fd).readTurn res = (some 1, { s.clients fd with
      inbox := inbox
      pendingTask := (s.clients fd).pendingTask + 1
      packetReceived := (s.clients fd).packetReceived + 1 }) := by
    rw [Client.readTurn, hframe, hok]
  obtain rfl : s.recvTurn fd rest res = s' := by
    cases Sys.ioStep_inv hstep with
    | @recv fd' rest' res pc unmarked ok =>
        obtain ⟨rfl, rfl⟩ := IoPc.reading.inj (hio.symm.trans pc)
        rfl
  refine ⟨?_, rfl, ⟨fd, (s.clients fd).generation, (s.clients fd).connectionId, inbox.message,
    s.conn fd⟩, rfl, rfl, ?_⟩
  · simp [Sys.recvTurn, hturn, Sys.goto, Sys.setClient]
  · simp [Sys.recvTurn, hturn, Sys.goto]

/-- **The dispatch of a frame.** In every state in which a `recv` completes
a frame whose checksum is right, whatever its command is, the task is
counted. Then the queue is not null, and whatever the other threads do
meanwhile the IO thread puts the task into exactly one of the queues, or
it leaves the queues alone, takes back that it was counted and sends one
`NACK`, if and only if the priority is one of the three. With any other
the IO thread has no step to make, unless the server is shutting down. -/
theorem frame_dispatch_iff {s s' : Sys} {fd : ℕ} {rest : List EpollEvent} {res : RecvRes}
    {inbox : Inbox} {ok : Bool}
    (hs : Reachable Sys.step (fun _ _ => True) Sys.init s) (hio : s.io = .reading fd rest)
    (hstep : s.step (.io (.recv res)) = some s')
    (hframe : (s.clients fd).inbox.turn res = .frame inbox ok)
    (hsum : inbox.message.ChecksumOk) :
    (s'.clients fd).pendingTask = (s.clients fd).pendingTask + 1 ∧ s'.sched = s.sched ∧
      ∃ task, task.fd = fd ∧ task.message = inbox.message ∧ s'.io = .holding task rest ∧
        (Priority.ofCode task.message.pri ≠ none ∧ s'.Dispatches task rest ↔
          inbox.message.pri = 0 ∨ inbox.message.pri = 1 ∨ inbox.message.pri = 2) ∧
        (¬ (inbox.message.pri = 0 ∨ inbox.message.pri = 1 ∨ inbox.message.pri = 2) →
          s'.sched.shutdown = false → ∀ l, s'.step (.io l) = none) := by
  have hacc : s.Accounts := hs.invariant Sys.Accounts.init fun s l s' h _ hstep => h.step hstep
  obtain ⟨hcount, hsched, task, hfd, hmessage, hholding⟩ :=
    Sys.recv_frame hio hstep hframe hsum
  rw [← hmessage, ← Priority.ofCode_ne_none_iff]
  refine ⟨hcount, hsched, task, hfd, rfl, hholding, ⟨And.left, fun hqueue => ⟨hqueue, ?_⟩⟩,
    fun hnone hdown => Sys.stuck_without_queue hholding (not_not.mp hnone) hdown⟩
  obtain ⟨p, hp⟩ := Option.ne_none_iff_exists'.mp hqueue
  exact (hacc.step hstep).then_dispatches hholding hp

def IoPc.readsFrom : IoPc → Option (ℕ × List EpollEvent)
  | reading fd rest => some (fd, rest)
  | _ => none

theorem IoPc.eq_reading {io : IoPc} {fd : ℕ} {rest : List EpollEvent}
    (h : io.readsFrom = some (fd, rest)) : io = .reading fd rest := by
  cases io <;> simp_all [IoPc.readsFrom]

/-- The frame that a turn of the parser has completed: the result of the
comparison, and the priority. -/
def ReadTurn.completed : ReadTurn → Option (Bool × UInt32)
  | frame i ok => some (ok, i.message.pri)
  | _ => none

theorem ReadTurn.eq_frame {turn : ReadTurn} {ok : Bool} {pri : UInt32}
    (h : turn.completed = some (ok, pri)) : ∃ i, turn = .frame i ok ∧ i.message.pri = pri := by
  cases turn with
  | frame i ok' =>
      simp only [ReadTurn.completed, Option.some.injEq, Prod.mk.injEq] at h
      exact ⟨i, by rw [h.1], h.2⟩
  | _ => cases h

def headerOfRequest (pri : UInt32) : List Label :=
  List.flatten [acceptOn 5, readableOn 5,
    [recvBytes (slice (buildMessage [] Command.getStatus.code pri 7).header 0 headerSize)]]

def checksumOfRequest (pri : UInt32) : RecvRes :=
  let checksum := (buildMessage [] Command.getStatus.code pri 7).checksum
  .data (checksum 0) (slice checksum 1 3)

theorem exists_request (pri : UInt32)
    (h : (runs (guarded Sys.step fun _ _ => True) Sys.init (headerOfRequest pri)).map (fun s =>
      (s.io.readsFrom, ((s.clients 5).inbox.turn (checksumOfRequest pri)).completed,
        (s.step (.io (.recv (checksumOfRequest pri)))).isSome, s.sched.shutdown)) =
      some (some (5, []), some (true, pri), true, false)) :
    ∃ (s s' : Sys) (inbox : Inbox), Reachable Sys.step (fun _ _ => True) Sys.init s ∧
      s.io = .reading 5 [] ∧ s.step (.io (.recv (checksumOfRequest pri))) = some s' ∧
      (s.clients 5).inbox.turn (checksumOfRequest pri) = .frame inbox true ∧
      inbox.message.pri = pri ∧ s.sched.shutdown = false := by
  obtain ⟨s, hs, hobs⟩ := Option.map_eq_some_iff.mp h
  simp only [Prod.mk.injEq] at hobs
  obtain ⟨hio, hturn, hstep, hdown⟩ := hobs
  obtain ⟨inbox, hframe, hpri⟩ := ReadTurn.eq_frame hturn
  obtain ⟨s', hs'⟩ := Option.isSome_iff_exists.mp hstep
  exact ⟨s, s', inbox, Reachable.of_runs .start hs, IoPc.eq_reading hio, hs', hframe, hpri, hdown⟩

theorem frame_dispatch_iff_request :
    ∃ (s s' : Sys) (task : Task), Reachable Sys.step (fun _ _ => True) Sys.init s ∧
      s.io = .reading 5 [] ∧ s.step (.io (.recv (checksumOfRequest 0))) = some s' ∧
      task.message.pri = 0 ∧ s'.Dispatches task [] := by
  obtain ⟨s, s', inbox, hreach, hio, hstep, hframe, hpri, -⟩ :=
    exists_request 0 (by decide +kernel)
  obtain ⟨-, -, task, -, hmessage, -, hiff, -⟩ := frame_dispatch_iff hreach hio hstep
    hframe ((Inbox.turn_frame hframe).mp rfl)
  exact ⟨s, s', task, hreach, hio, hstep, by rw [hmessage, hpri], (hiff.mpr (.inl hpri)).2⟩

/-- A frame with the priority three: there is no queue for it. The server is
not shutting down, and reads the count of the queue that is not there. -/
theorem frame_without_queue :
    ∃ (s : Sys) (task : Task) (rest : List EpollEvent),
      Reachable Sys.step (fun _ _ => True) Sys.init s ∧ s.io = .holding task rest ∧
      task.message.ChecksumOk ∧ task.message.pri = 3 ∧ s.sched.shutdown = false ∧
      Priority.ofCode task.message.pri = none ∧ ∀ l, s.step (.io l) = none := by
  obtain ⟨s, s', inbox, hreach, hio, hstep, hframe, hpri, hdown⟩ :=
    exists_request 3 (by decide +kernel)
  have hsum : inbox.message.ChecksumOk := (Inbox.turn_frame hframe).mp rfl
  obtain ⟨-, hsched, task, -, hmessage, hholding⟩ := Sys.recv_frame hio hstep hframe hsum
  have hnone : Priority.ofCode task.message.pri = none := by
    rw [hmessage, hpri]
    decide
  exact ⟨s', task, [], .step hreach trivial hstep, hholding, hmessage ▸ hsum,
    by rw [hmessage, hpri], hsched ▸ hdown, hnone,
    Sys.stuck_without_queue hholding hnone (hsched ▸ hdown)⟩

end LinuxMiniProjects.ControlPlane
