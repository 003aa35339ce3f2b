import LinuxMiniProjects.ControlPlane.Framing
import LinuxMiniProjects.ControlPlane.System

/-!
Tasks that wait.

The IO thread puts tasks into the queues whether or not a worker takes
them out. While no worker runs, a client that sends one frame after the
other can have any number of tasks in a queue, up to the capacity, and the
next one is refused. The queue has 1024 places, so a run that fills it is
not written down: `HasBacklog` says that there is one, and it is carried
from step to step and, by induction, from frame to frame.
-/

namespace LinuxMiniProjects.ControlPlane

open Bytes Socket Machine

/-- The step is not one of the signal thread, which shuts the server down. -/
def Label.isServing : Label → Bool
  | .sig _ => false
  | _ => true

/-! ### A frame without a payload -/

theorem Inbox.receive_empty_header {m : MessageControl} (hlength : m.length = 0)
    (m₀ : MessageControl) :
    ∃ m₁, (⟨.readHeader, m₀, 0⟩ : Inbox).receive (slice m.header 0 headerSize) =
        .again ⟨.readChecksum, m₁, 0⟩ ∧
      slice m₁.header 0 headerSize = slice m.header 0 headerSize := by
  have hheader : slice (store m₀.header 0 (slice m.header 0 headerSize)) 0 headerSize =
      slice m.header 0 headerSize := by
    simpa using slice_store_self m₀.header 0 (slice m.header 0 headerSize)
  refine ⟨{ m₀ with header := store m₀.header 0 (slice m.header 0 headerSize) }, ?_, hheader⟩
  have hlength' := (MessageControl.length_congr (m := { m₀ with
    header := store m₀.header 0 (slice m.header 0 headerSize) }) hheader).trans hlength
  simp [Inbox.receive, Inbox.receiveHeader, MessageControl.LengthOk, hlength']

/-- The parser uses the buffer of the last message, so the frame agrees with
what was sent in what counts. -/
theorem Inbox.receive_checksum {m m₁ : MessageControl} (hsound : m.Sound) (hlength : m.length = 0)
    (hheader : slice m₁.header 0 headerSize = slice m.header 0 headerSize) :
    ∃ m₂, (⟨.readChecksum, m₁, 0⟩ : Inbox).receive (slice m.checksum 0 checksumSize) =
        .frame ⟨.readHeader, m₂, 0⟩ true ∧ m₂.Agrees m := by
  have hlength₁ : m₁.length = 0 := (MessageControl.length_congr hheader).trans hlength
  have hvalid : (⟨.readChecksum, m₁, 0⟩ : Inbox).Valid :=
    ⟨by simp [MessageControl.LengthOk, hlength₁], Nat.zero_lt_succ 3⟩
  have hframe : (⟨.readChecksum, m₁, 0⟩ : Inbox).received ++ slice m.checksum 0 checksumSize =
      m.frame := by
    simp [Inbox.received, MessageControl.frame, hheader, hlength₁, hlength]
  have hshort : (slice m.checksum 0 checksumSize).length ≤
      (⟨.readChecksum, m₁, 0⟩ : Inbox).remaining := by simp [Inbox.remaining]
  have hparses := hvalid.receive hshort
  rw [hframe] at hparses
  generalize (⟨.readChecksum, m₁, 0⟩ : Inbox).receive (slice m.checksum 0 checksumSize) = turn
    at hparses
  cases hparses with
  | again valid received | wait valid received =>
      exact absurd received (by simpa using valid.received_ne_frame m [])
  | close header bad =>
      have := congrArg List.length header
      rw [MessageControl.length_frame, length_slice] at this
      simp only [checksumSize] at this
      omega
  | @frame i ok stage bytesRead lengthOk frame checksum =>
      obtain ⟨hagrees, hchecksum, -⟩ :=
        frame_append_inj (U := []) (V := []) (by simpa using frame.symm)
      have hok : ok = true := checksum.mpr
        ((hagrees.checksumOk_iff hchecksum hsound.lengthOk).mpr hsound.checksumOk)
      refine ⟨i.message, ?_, hagrees⟩
      rw [hok, ← stage, ← bytesRead]

/-! ### From step to step -/

/-- The IO thread is at `io` and the parser of the client on `fd` at `i`.
There is nothing to reap, no worker has taken a task, and `n` tasks of low
priority are waiting. -/
structure Sys.Backlog (s : Sys) (fd n : ℕ) (io : IoPc) (i : Inbox) : Prop where
  io : s.io = io
  sig : s.sig = .idle
  inbox : (s.clients fd).inbox = i
  isOn : (s.clients fd).isOn fd = true
  isOpen : s.isOpen fd = true
  unmarked : ∀ k, (s.clients k).pendingClose = false
  serving : s.sched.shutdown = false
  worker : ∀ w, s.sched.worker w = .start
  count : (s.sched.queue .low).count = n

def HasBacklog (fd n : ℕ) (io : IoPc) (i : Inbox) : Prop :=
  ∃ s, Reachable Sys.step (fun _ l => l.isServing = true) Sys.init s ∧ s.Backlog fd n io i

variable {s : Sys} {fd n : ℕ} {io io' : IoPc} {i i' : Inbox}

theorem Sys.Backlog.goto (h : s.Backlog fd n io i) (io' : IoPc) :
    (s.goto io').Backlog fd n io' i :=
  { h with io := rfl }

theorem Sys.Backlog.setClient (h : s.Backlog fd n io i) {c : Client} (hinbox : c.inbox = i')
    (hon : c.isOn fd = true) (hopen : c.pendingClose = false) :
    (s.setClient fd c).Backlog fd n io i' := by
  have hself : (s.setClient fd c).clients fd = c := Function.update_self ..
  refine { h with inbox := by rw [hself, hinbox], isOn := by rw [hself, hon], unmarked := ?_ }
  intro k
  by_cases hk : k = fd
  · rw [hk, hself, hopen]
  · rw [show (s.setClient fd c).clients k = s.clients k from Function.update_of_ne hk ..]
    exact h.unmarked k

theorem HasBacklog.step (h : HasBacklog fd n io i) (l : IoLabel) {n' : ℕ}
    (hstep : ∀ s : Sys, s.Backlog fd n io i →
      ∃ s', s.ioStep l = some s' ∧ s'.Backlog fd n' io' i') :
    HasBacklog fd n' io' i' := by
  obtain ⟨s, hreach, hs⟩ := h
  obtain ⟨s', hs', hback⟩ := hstep s hs
  exact ⟨s', hreach.step (e := .io l) rfl hs', hback⟩

theorem HasBacklog.move (h : HasBacklog fd n io i) (l : IoLabel) (io' : IoPc)
    (hstep : ∀ s : Sys, s.Backlog fd n io i → s.ioStep l = some (s.goto io')) :
    HasBacklog fd n io' i :=
  h.step l fun s hs => ⟨_, hstep s hs, hs.goto io'⟩

theorem Sys.Backlog.recvOk (h : s.Backlog fd n io i) {b : UInt8} {bs : List UInt8}
    (hbs : (b :: bs).length ≤ i.remaining) :
    recvOk (s.isOpen fd) (s.clients fd).inbox.remaining (.data b bs) = true := by
  simpa [ControlPlane.recvOk, h.isOpen, h.inbox] using hbs

theorem HasBacklog.recv (h : HasBacklog fd n (.reading fd []) i) {bs : List UInt8}
    (hne : bs ≠ []) (hbs : bs.length ≤ i.remaining) (hturn : i.receive bs = .again i') :
    HasBacklog fd n (.reading fd []) i' := by
  obtain ⟨b, bs, rfl⟩ := List.exists_cons_of_ne_nil hne
  refine h.step (.recv (.data b bs)) fun s hs => ?_
  have hread : (s.clients fd).readTurn (.data b bs) =
      (none, { s.clients fd with inbox := i' }) := by
    simp [Client.readTurn, Inbox.turn, hs.inbox, hturn]
  have hback :
      (s.setClient fd { s.clients fd with inbox := i' }).Backlog fd n (.reading fd []) i' :=
    hs.setClient (by rfl) hs.isOn (hs.unmarked fd)
  refine ⟨_, ?_, hback.goto _⟩
  simp [Sys.ioStep.eq_def, hs.io, hs.unmarked, hs.recvOk hbs, Sys.recvTurn, hread]

theorem HasBacklog.recv_frame (h : HasBacklog fd n (.reading fd []) i) {bs : List UInt8}
    (hne : bs ≠ []) (hbs : bs.length ≤ i.remaining) (hturn : i.receive bs = .frame i' true) :
    ∃ task : Task, task.fd = fd ∧ task.message = i'.message ∧
      HasBacklog fd n (.holding task []) i' := by
  obtain ⟨s, hreach, hs⟩ := h
  obtain ⟨b, bs, rfl⟩ := List.exists_cons_of_ne_nil hne
  generalize hc : ({ s.clients fd with
    inbox := i'
    pendingTask := (s.clients fd).pendingTask + 1
    packetReceived := (s.clients fd).packetReceived + 1 } : Client) = c
  have hread : (s.clients fd).readTurn (.data b bs) = (some 1, c) := by
    simp [Client.readTurn, Inbox.turn, hs.inbox, hturn, ← hc]
  have hback : (s.setClient fd c).Backlog fd n (.reading fd []) i' :=
    hs.setClient (by rw [← hc]) (by rw [← hc]; exact hs.isOn) (by rw [← hc]; exact hs.unmarked fd)
  refine ⟨⟨fd, c.generation, c.connectionId, c.inbox.message, s.conn fd⟩, rfl, by rw [← hc], ?_⟩
  refine ⟨_, hreach.step (e := .io (.recv (.data b bs))) rfl ?_, hback.goto _⟩
  simp [Sys.step, Sys.ioStep.eq_def, hs.io, hs.unmarked, hs.recvOk hbs, Sys.recvTurn, hread]

/-- `epoll_wait` reports the client as readable. -/
def readableEvent (fd : ℕ) : EpollEvent := .client fd ⟨true, false, false⟩

theorem HasBacklog.readable (h : HasBacklog fd n .wait i) :
    HasBacklog fd n (.reading fd []) i := by
  have polled := h.move (.poll [readableEvent fd]) (.polled [readableEvent fd]) fun s hs => by
    simp [Sys.ioStep.eq_def, hs.io]
  have first := polled.move .next (.dispatch [readableEvent fd] [readableEvent fd]) fun s hs => by
    simp [Sys.ioStep.eq_def, hs.io, hs.sig, SigPc.locksServer]
  have second : HasBacklog fd n (.dispatch [readableEvent fd] []) i := by
    refine first.step .next fun s hs => ?_
    -- The event is no hangup, so the client is written back as it was.
    have hback : (s.setClient fd { s.clients fd with
        pendingClose := (s.clients fd).pendingClose || false }).Backlog fd n
        (.dispatch [readableEvent fd] [readableEvent fd]) i :=
      hs.setClient hs.inbox hs.isOn (by simp [hs.unmarked])
    refine ⟨_, ?_, hback.goto _⟩
    simp [Sys.ioStep.eq_def, hs.io, Sys.dispatch, readableEvent, hs.isOn]
  have unlocked := second.move .next (.readLock [readableEvent fd]) fun s hs => by
    simp [Sys.ioStep.eq_def, hs.io]
  have locked := unlocked.move .next (.readable [readableEvent fd]) fun s hs => by
    simp [Sys.ioStep.eq_def, hs.io, hs.sig, SigPc.locksServer]
  exact locked.move .next (.reading fd []) fun s hs => by
    simp [Sys.ioStep.eq_def, hs.io, Sys.readable, readableEvent, hs.isOn]

theorem Sys.Backlog.noneToReap (h : s.Backlog fd n io i) (k k' : ℕ) :
    s.noneToReap k k' = true := by
  simp [Sys.noneToReap, h.unmarked]

theorem HasBacklog.throughReap (h : HasBacklog fd n (.readable []) i) :
    HasBacklog fd n .wait i := by
  have unlocked := h.move .next .reapLock fun s hs => by simp [Sys.ioStep.eq_def, hs.io]
  have locked := unlocked.move .next (.reap 0) fun s hs => by
    simp [Sys.ioStep.eq_def, hs.io, hs.sig, SigPc.locksServer]
  have scanned := locked.move (.scan fdSetsize) (.reap fdSetsize) fun s hs => by
    simp [Sys.ioStep.eq_def, hs.io, hs.noneToReap, fdSetsize]
  have top := scanned.move .next .top fun s hs => by simp [Sys.ioStep.eq_def, hs.io]
  exact top.move .next .wait fun s hs => by
    simp [Sys.ioStep.eq_def, hs.io, hs.sig, SigPc.locksServer, hs.serving]

theorem HasBacklog.enqueue {task : Task} (h : HasBacklog fd n (.holding task []) i)
    (hpri : Priority.ofCode task.message.pri = some .low) (hn : n < capacity) :
    HasBacklog fd (n + 1) (.readable []) i := by
  refine h.step (.enqueue none) fun s hs => ?_
  have hwait : ∀ w, (s.sched.worker w).isWaiting = false := fun w => by rw [hs.worker w]; rfl
  have henqueue : s.sched.tryEnqueue .low task none = some (true, { s.sched with
      queue := Function.update s.sched.queue .low ((s.sched.queue .low).push capacity task)
      accepted := Function.update s.sched.accepted .low (s.sched.accepted .low ++ [task]) }) := by
    simp [Sched.tryEnqueue, tryEnqueueTask, hs.serving, hs.count, hn.not_ge, Sched.signal,
      hwait]
  refine ⟨_, by simp only [Sys.ioStep.eq_def, hs.io, Sys.enqueue, hpri, henqueue]; rfl, ?_⟩
  refine { hs with io := rfl, count := ?_ }
  simp [Sys.goto, RingBuf.push, hs.count]

theorem HasBacklog.connect (hfd : fd < fdSetsize) :
    HasBacklog fd 0 .wait (initClient 1 1).inbox := by
  have top : Reachable Sys.step (fun _ l => l.isServing = true) Sys.init Sys.init := .start
  have wait := top.step (e := .io .next) rfl rfl
  have polled := wait.step (e := .io (.poll [.listen true])) rfl rfl
  have first := polled.step (e := .io .next) rfl rfl
  have accepting := first.step (e := .io .next) rfl rfl
  have accepted := accepting.step (e := .io (.accept fd true)) rfl rfl
  have h : HasBacklog fd 0 (.accepting [.listen true] []) (initClient 1 1).inbox := by
    refine ⟨_, accepted, ?_⟩
    rw [Sys.accept, if_neg hfd.not_ge]
    refine ⟨rfl, rfl, ?_, ?_, Function.update_self .., fun k => ?_, rfl, fun w => rfl, rfl⟩
    · simp [Sys.setClient]
      rfl
    · simp [Sys.setClient, Client.isOn]
    · show (Function.update Sys.init.clients fd _ k).pendingClose = false
      by_cases hk : k = fd
      · rw [hk, Function.update_self]
        rfl
      · rw [Function.update_of_ne hk]
        rfl
  have second := h.move .acceptNone (.dispatch [.listen true] []) fun s hs => by
    simp [Sys.ioStep.eq_def, hs.io]
  have unlocked := second.move .next (.readLock [.listen true]) fun s hs => by
    simp [Sys.ioStep.eq_def, hs.io]
  have locked := unlocked.move .next (.readable [.listen true]) fun s hs => by
    simp [Sys.ioStep.eq_def, hs.io, hs.sig, SigPc.locksServer]
  have done := locked.move .next (.readable []) fun s hs => by
    simp [Sys.ioStep.eq_def, hs.io, Sys.readable]
  exact done.throughReap

theorem HasBacklog.recv_empty {m m₀ : MessageControl} (hsound : m.Sound) (hlength : m.length = 0)
    (h : HasBacklog fd n .wait ⟨.readHeader, m₀, 0⟩) :
    ∃ task : Task, ∃ m' : MessageControl, task.fd = fd ∧ task.message.Agrees m ∧
      HasBacklog fd n (.holding task []) ⟨.readHeader, m', 0⟩ := by
  obtain ⟨m₁, hturn, hheader⟩ := Inbox.receive_empty_header hlength m₀
  have reading := h.readable.recv (by simp [slice, headerSize]) (by simp [Inbox.remaining]) hturn
  obtain ⟨m₂, hturn, hagrees⟩ := Inbox.receive_checksum hsound hlength hheader
  obtain ⟨task, hfd, hmessage, holding⟩ :=
    reading.recv_frame (by simp [slice, checksumSize]) (by simp [Inbox.remaining]) hturn
  exact ⟨task, m₂, hfd, by rwa [hmessage], holding⟩

/-- **Any number of tasks** up to the capacity can be waiting. -/
theorem HasBacklog.fill {m : MessageControl} (hsound : m.Sound) (hlength : m.length = 0)
    (hpri : Priority.ofCode m.pri = some .low) (hfd : fd < fdSetsize) (hn : n ≤ capacity) :
    ∃ m₀, HasBacklog fd n .wait ⟨.readHeader, m₀, 0⟩ := by
  induction n with
  | zero => exact ⟨_, .connect hfd⟩
  | succ n ih =>
      obtain ⟨m₀, h⟩ := ih (by omega)
      obtain ⟨task, m', -, hagrees, holding⟩ := h.recv_empty hsound hlength
      have hpri' : Priority.ofCode task.message.pri = some .low := by
        rw [MessageControl.pri_congr hagrees.header, hpri]
      exact ⟨m', (holding.enqueue hpri' (by omega)).throughReap⟩

end LinuxMiniProjects.ControlPlane
