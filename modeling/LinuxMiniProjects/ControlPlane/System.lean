import LinuxMiniProjects.ControlPlane.ReadStage
import LinuxMiniProjects.ControlPlane.Scheduler
import LinuxMiniProjects.ControlPlane.Session

/-!
The control plane as a system of threads (`server.c`, `server.h`).

There is one thread for input and output, four workers and a signal
thread. They share the table of clients, the task queues and the session
table, under three kinds of locks. A step of the system is what a thread
does between two points where another thread can come in: a critical
section, or one call of `recv` or `send` in a loop of such calls. What a
system call returns is part of the label, so a property of all runs is
one for every behaviour of the sockets. Three things are asked of the
labels, because the kernel grants them: a call on a descriptor that is
not open fails, `recv` does not return more than it was asked for, and
`accept4` does not return a descriptor that is open.

`server_lock` is held by the IO thread in `handle_client_readable` and in
`reap_closed_clients`, and by the signal thread while it sends its
message to all clients. A `client_lock` is held across steps only in
`handle_client_writable`, by the IO thread; the signal thread sends
without it.
-/

namespace LinuxMiniProjects.ControlPlane

open Bytes Socket Machine

/-! ### The state -/

def fdSetsize : ℕ := 1024

/-- `struct task`. The field `conn` is history: the connection on which the
message arrived. -/
structure Task where
  fd : ℕ
  clientGeneration : UInt64
  connectionId : UInt64
  message : MessageControl
  conn : ℕ

instance : Inhabited Task := ⟨⟨0, 0, 0, default, 0⟩⟩

/-- The events of a descriptor; `hangup` stands for any of `EPOLLHUP`,
`EPOLLERR` and `EPOLLRDHUP`. -/
structure Mask where
  epollin : Bool
  epollout : Bool
  hangup : Bool
deriving DecidableEq

inductive EpollEvent
  | listen (epollin : Bool)
  | client (fd : ℕ) (mask : Mask)
deriving DecidableEq

/-- Where the IO thread is. The events of the last `epoll_wait` are kept,
because `handle_client_readable` goes over them once more. -/
inductive IoPc
  /-- Before it looks at `shutdown`. -/
  | top
  /-- In `epoll_wait`. -/
  | wait
  | polled (events : List EpollEvent)
  | dispatch (events rest : List EpollEvent)
  /-- In `handle_accept`. -/
  | accepting (events rest : List EpollEvent)
  /-- In `handle_client_writable`, before the lock and at the `send`. -/
  | writable (events : List EpollEvent) (fd : ℕ) (rest : List EpollEvent)
  | sending (events : List EpollEvent) (fd offset : ℕ) (rest : List EpollEvent)
  /-- Before `handle_client_readable`, and in it. -/
  | readLock (events : List EpollEvent)
  | readable (rest : List EpollEvent)
  | reading (fd : ℕ) (rest : List EpollEvent)
  /-- With a frame that has a wrong checksum. -/
  | nacking (fd : ℕ) (rest : List EpollEvent)
  /-- With a task: before `try_enqueue_task`, after it was refused, and
  after that was undone. -/
  | holding (task : Task) (rest : List EpollEvent)
  | refused (task : Task) (rest : List EpollEvent)
  | busy (task : Task) (rest : List EpollEvent)
  /-- Before `reap_closed_clients`, in its loop, and behind the check. -/
  | reapLock
  | reap (fd : ℕ)
  | closing (fd : ℕ)
  | stopped

inductive SigPc
  | idle
  /-- In the loop over the clients, and in `send_framed_message`. -/
  | next (fd : ℕ)
  | sending (fd sentTotal : ℕ)
  /-- Before the broadcast. -/
  | flagged
  | done
deriving DecidableEq

inductive TaskStage
  | checking
  | acting
  /-- In `identify_task`, behind the look at the table. -/
  | denied
  | naming (session : ℕ) (wasResumed : Bool)
  | replying (session : ℕ) (wasResumed : Bool)
  | finishing
deriving DecidableEq

/-- A `queue_client` of a worker: the task, and the connection the client
was on at that moment. -/
structure Reply where
  task : Task
  conn : ℕ

/-- The server. The last fields are about the surroundings: the
descriptors that are open, and a history that no step reads. -/
structure Sys where
  clients : ℕ → Client
  sched : Sched Task
  stage : Fin 4 → TaskStage
  table : SessionTable
  nextClientId : UInt64
  numClients : ℤ
  io : IoPc
  sig : SigPc
  isOpen : ℕ → Bool
  /-- The number of connections accepted on a descriptor. -/
  conn : ℕ → ℕ
  /-- The bytes accepted by `send` on the current connection. -/
  sent : ℕ → List UInt8
  /-- How many of them are of the message of the signal thread. -/
  farewell : ℕ → ℕ
  replies : List Reply

/-- The server after `init_server`, with its threads created. -/
def Sys.init : Sys where
  clients := fun _ => initClient 0 0
  sched := Sched.init
  stage := fun _ => .checking
  table := initSessionTable
  nextClientId := 0
  numClients := 0
  io := .top
  sig := .idle
  isOpen := fun _ => false
  conn := fun _ => 0
  sent := fun _ => []
  farewell := fun _ => 0
  replies := []

/-! ### Locks -/

/-- The IO thread holds `server_lock`. -/
def IoPc.locksServer : IoPc → Bool
  | readable _ | reading _ _ | nacking _ _ | holding _ _ | refused _ _ | busy _ _ => true
  | reap _ | closing _ => true
  | _ => false

/-- The signal thread holds `server_lock`. -/
def SigPc.locksServer : SigPc → Bool
  | next _ | sending _ _ => true
  | _ => false

/-- The client whose `client_lock` the IO thread holds. -/
def IoPc.locksClient : IoPc → Option ℕ
  | sending _ fd _ _ => some fd
  | _ => none

/-! ### What the threads do

One definition for each step, without its guard. -/

def Sys.goto (s : Sys) (io : IoPc) : Sys := { s with io }

def Sys.setClient (s : Sys) (fd : ℕ) (c : Client) : Sys :=
  { s with clients := Function.update s.clients fd c }

def Client.isOn (c : Client) (fd : ℕ) : Bool := c.connected && decide (c.fd = fd)

/-- The loop of `IO_thread` over the events. -/
def Sys.dispatch (s : Sys) (events : List EpollEvent) (e : EpollEvent)
    (rest : List EpollEvent) : Sys :=
  match e with
  | .listen epollin => s.goto (if epollin then .accepting events rest else .dispatch events rest)
  | .client fd mask =>
      let c := s.clients fd
      if c.isOn fd then
        (s.setClient fd { c with pendingClose := c.pendingClose || mask.hangup }).goto
          (if mask.epollout then .writable events fd rest else .dispatch events rest)
      else s.goto (.dispatch events rest)

/-- `handle_accept` with a new descriptor. If it cannot be registered it is
closed, and the slot is left as it is. -/
def Sys.accept (s : Sys) (fd : ℕ) (registered : Bool) : Sys :=
  if fdSetsize ≤ fd then s
  else
    let c := initClient (s.nextClientId + 1) ((s.clients fd).generation + 1)
    let s := s.setClient fd { c with fd := fd, connected := true }
    { s with
      nextClientId := s.nextClientId + 1
      numClients := s.numClients + 1
      isOpen := Function.update s.isOpen fd registered
      conn := Function.update s.conn fd (s.conn fd + 1)
      sent := Function.update s.sent fd []
      farewell := Function.update s.farewell fd 0 }

/-- `handle_client_writable` up to its first `send`. -/
def Sys.writable (s : Sys) (events : List EpollEvent) (fd : ℕ) (rest : List EpollEvent) : Sys :=
  let c := s.clients fd
  if c.sendQueue.count = 0 then s.goto (.dispatch events rest)
  else
    let o := c.sendQueue.front.prepare
    (s.setClient fd { c with sendQueue := c.sendQueue.setFront o }).goto
      (.sending events fd o.bytesSent rest)

def Sys.emit (s : Sys) (fd : ℕ) (bs : List UInt8) : Sys :=
  { s with sent := Function.update s.sent fd (s.sent fd ++ bs) }

/-- A `send` of `send_message_chunk`, and the rest of
`handle_client_writable` if it returns. -/
def Sys.sendChunk (s : Sys) (events : List EpollEvent) (fd offset : ℕ) (rest : List EpollEvent)
    (res : SendRes) : Sys :=
  let c := s.clients fd
  let o := c.sendQueue.front
  let s := s.emit fd (slice o.wireBuf offset (res.accepted (o.total - offset)))
  match chunkTurn o.total offset res with
  | .again offset => s.goto (.sending events fd offset rest)
  | .blocked offset =>
      (s.setClient fd { c with
        sendQueue := c.sendQueue.setFront { o with bytesSent := offset } }).goto
        (.dispatch events rest)
  | .failed =>
      (s.setClient fd (advanceSendQueue { c with pendingClose := true })).goto
        (.dispatch events rest)
  | .finished =>
      (s.setClient fd (advanceSendQueue { c with packetSent := c.packetSent + 1 })).goto
        (.dispatch events rest)

/-- The loop of `handle_client_readable` over the events. -/
def Sys.readable (s : Sys) (e : EpollEvent) (rest : List EpollEvent) : Sys :=
  match e with
  | .listen _ => s.goto (.readable rest)
  | .client fd mask =>
      if (s.clients fd).isOn fd && mask.epollin then s.goto (.reading fd rest)
      else s.goto (.readable rest)

/-- A `recv` of `read_stage`, and what `handle_client_readable` does next if
it returns. -/
def Sys.recvTurn (s : Sys) (fd : ℕ) (rest : List EpollEvent) (res : RecvRes) : Sys :=
  let out := (s.clients fd).readTurn res
  let c := out.2
  (s.setClient fd c).goto
    (match out.1 with
    | none => .reading fd rest
    | some ret =>
        if ret = 2 then .nacking fd rest
        else if ret = 1 then
          .holding ⟨fd, c.generation, c.connectionId, c.inbox.message, s.conn fd⟩ rest
        else .readable rest)

def Priority.ofCode (code : UInt32) : Option Priority :=
  [Priority.low, .medium, .high].find? fun p => p.code == code.toNat

/-- The `try_enqueue_task` of `handle_client_readable`. A task without a
priority has no queue: it is refused after the shutdown and is a null
pointer before. -/
def Sys.enqueue (s : Sys) (task : Task) (rest : List EpollEvent) (released : Option (Fin 4)) :
    Option Sys :=
  match Priority.ofCode task.message.pri with
  | some p =>
      (s.sched.tryEnqueue p task released).map fun (ok, sched) =>
        ({ s with sched } : Sys).goto (if ok then .readable rest else .refused task rest)
  | none => if s.sched.shutdown then some (s.goto (.refused task rest)) else none

/-- The check of `reap_closed_clients`. -/
def Sys.reapCheck (s : Sys) (fd : ℕ) : Sys :=
  let c := s.clients fd
  if c.pendingTask = 0 ∧ c.sendQueue.count = 0 then s.goto (.closing fd)
  else s.goto (.reap (fd + 1))

/-- `reap_closed_clients` behind the check. -/
def Sys.reapClose (s : Sys) (fd : ℕ) : Sys :=
  let c := s.clients fd
  { s.setClient fd { c with
      fd := -1
      connected := false
      pendingClose := false
      session := none } with
    isOpen := if 0 ≤ c.fd then Function.update s.isOpen c.fd.toNat false else s.isOpen
    numClients := if 0 < s.numClients then s.numClients - 1 else s.numClients
    io := .reap (fd + 1) }

def Sys.reply (s : Sys) (task : Task) (m : MessageControl) : Sys :=
  { s.setClient task.fd (queueClient (s.clients task.fd) m) with
    replies := s.replies ++ [⟨task, s.conn task.fd⟩] }

def Sys.setStage (s : Sys) (w : Fin 4) (stage : TaskStage) : Sys :=
  { s with stage := Function.update s.stage w stage }

/-- The validity check of `process_task`. -/
def Sys.check (s : Sys) (w : Fin 4) (task : Task) : Sys :=
  let c := s.clients task.fd
  let valid := task.fd < fdSetsize ∧ c.fd = task.fd ∧ c.generation = task.clientGeneration ∧
    c.connected = true
  s.setStage w (if valid then .acting else .finishing)

/-- `identify_task` up to the end of `session_lookup_or_create`. -/
def Sys.identify (s : Sys) (w : Fin 4) (task : Task) : Sys :=
  if tokenLength task.message = 0 then
    (s.reply task (identifyEmpty task.message)).setStage w .finishing
  else
    let out := sessionLookupOrCreate s.table (identifyToken task.message)
    ({ s with table := out.2 } : Sys).setStage w
      (match out.1 with
      | none => .denied
      | some (i, wasResumed) => .naming i wasResumed)

/-- The `switch` of `process_task`. -/
def Sys.act (s : Sys) (w : Fin 4) (task : Task) : Sys :=
  let m := task.message
  match Command.ofCode m.cmd with
  | some .getStatus => (s.reply task (getStatusTask m)).setStage w .finishing
  | some .setStatus => (s.reply task (setStatusTask m)).setStage w .finishing
  | some .getData => (s.reply task (getDataTask m)).setStage w .finishing
  | some .getConfig => (s.reply task (getConfigTask m)).setStage w .finishing
  | some .setConfig => (s.reply task (setConfigTask m)).setStage w .finishing
  | some .sendControl => (s.reply task (sendControlTask m)).setStage w .finishing
  | some .ack | some .nack | none => s.setStage w .finishing
  | some .identify => s.identify w task
  | some .shutdownPeer =>
      (s.setClient task.fd { s.clients task.fd with pendingClose := true }).setStage w .finishing

/-- `identify_task` sets the session. -/
def Sys.name (s : Sys) (w : Fin 4) (task : Task) (i : ℕ) (wasResumed : Bool) : Sys :=
  (s.setClient task.fd { s.clients task.fd with session := some i }).setStage w
    (.replying i wasResumed)

def finishTask (c : Client) (task : Task) : Client :=
  if task.fd < fdSetsize ∧ c.fd = task.fd ∧ c.generation = task.clientGeneration then
    { c with pendingTask := c.pendingTask - 1 }
  else c

/-- `finish_task`, and the worker goes back to the queues. -/
def Sys.finish (s : Sys) (w : Fin 4) (task : Task) : Sys :=
  ({ s.setClient task.fd (finishTask (s.clients task.fd) task) with
    sched := s.sched.goto w .start } : Sys).setStage w .checking

/-- The next step of `process_task`. -/
def Sys.process (s : Sys) (w : Fin 4) (task : Task) : Sys :=
  match s.stage w with
  | .checking => s.check w task
  | .acting => s.act w task
  | .denied => (s.reply task (identifyFull task.message)).setStage w .finishing
  | .naming i wasResumed => s.name w task i wasResumed
  | .replying i wasResumed =>
      (s.reply task (identifyReply task.message (s.table.sessions i) wasResumed)).setStage w
        .finishing
  | .finishing => s.finish w task

/-- A `send` of `send_framed_message`, by the signal thread. -/
def Sys.sendFarewell (s : Sys) (fd sentTotal : ℕ) (res : SendRes) : Sys :=
  let wire := framedWire serverShuttingDown
  let n := res.accepted (wire.length - sentTotal)
  let s := s.emit fd ((wire.drop sentTotal).take n)
  let s := { s with farewell := Function.update s.farewell fd (s.farewell fd + n) }
  match framedTurn wire.length sentTotal res with
  | .again sentTotal => { s with sig := .sending fd sentTotal }
  | .ret _ => { s with sig := .next (fd + 1) }

/-! ### The cases of a step -/

section Cases

variable {s s' : Sys}

/-- An event of the loop of `IO_thread` only moves it on, or it is one of a
client that is there, which can be marked. -/
theorem Sys.dispatch_cases (s : Sys) (events : List EpollEvent) (e : EpollEvent)
    (rest : List EpollEvent) :
    (∃ io, (io = .accepting events rest ∨ io = .dispatch events rest) ∧
      s.dispatch events e rest = s.goto io) ∨
    ∃ fd mark io, (s.clients fd).isOn fd = true ∧
      (io = .writable events fd rest ∨ io = .dispatch events rest) ∧
      s.dispatch events e rest =
        (s.setClient fd { s.clients fd with pendingClose := mark }).goto io := by
  cases e with
  | listen epollin =>
      refine .inl ⟨_, ?_, rfl⟩
      cases epollin with
      | true => exact .inl rfl
      | false => exact .inr rfl
  | client fd mask =>
      simp only [Sys.dispatch]
      split
      next hon =>
        refine .inr ⟨fd, _, _, hon, ?_, rfl⟩
        split
        · exact .inl rfl
        · exact .inr rfl
      next => exact .inl ⟨_, .inr rfl, rfl⟩

/-- `handle_client_readable` reads from a client that is there and that
`epoll_wait` has reported; other events are passed over. -/
theorem Sys.readable_cases (s : Sys) (e : EpollEvent) (rest : List EpollEvent) :
    (∃ fd mask, e = .client fd mask ∧ (s.clients fd).isOn fd = true ∧ mask.epollin = true ∧
      s.readable e rest = s.goto (.reading fd rest)) ∨
    (∀ fd mask, e = .client fd mask → (s.clients fd).isOn fd = true → mask.epollin = false) ∧
      s.readable e rest = s.goto (.readable rest) := by
  cases e with
  | listen epollin =>
      refine .inr ⟨fun fd mask he => ?_, rfl⟩
      cases he
  | client fd mask =>
      simp only [Sys.readable]
      split
      next h =>
        rw [Bool.and_eq_true] at h
        exact .inl ⟨fd, mask, rfl, h.1, h.2, rfl⟩
      next h =>
        refine .inr ⟨fun fd' mask' he hon => ?_, rfl⟩
        obtain ⟨rfl, rfl⟩ := EpollEvent.client.inj he
        simpa [hon] using h

theorem Sys.readable_goto (s : Sys) (e : EpollEvent) (rest : List EpollEvent) :
    ∃ io, (io = .readable rest ∨ ∃ fd, io = .reading fd rest) ∧ s.readable e rest = s.goto io := by
  obtain ⟨fd, _, -, -, -, heq⟩ | ⟨-, heq⟩ := s.readable_cases e rest
  · exact ⟨_, .inr ⟨fd, rfl⟩, heq⟩
  · exact ⟨_, .inl rfl, heq⟩

/-- A `send` of the IO thread is a matter of its client: the loop goes on, or
the client is changed and the next event handled. -/
theorem Sys.sendChunk_cases (s : Sys) (events : List EpollEvent) (fd offset : ℕ)
    (rest : List EpollEvent) (res : SendRes) :
    (∃ bs k, s.sendChunk events fd offset rest res =
      (s.emit fd bs).goto (.sending events fd k rest)) ∨
    ∃ bs c, s.sendChunk events fd offset rest res =
      ((s.emit fd bs).setClient fd c).goto (.dispatch events rest) := by
  unfold Sys.sendChunk
  dsimp only
  split
  next k _ => exact .inl ⟨_, k, rfl⟩
  next => exact .inr ⟨_, _, rfl⟩
  next => exact .inr ⟨_, _, rfl⟩
  next => exact .inr ⟨_, _, rfl⟩

theorem Sys.reapCheck_cases (s : Sys) (fd : ℕ) :
    (s.clients fd).pendingTask = 0 ∧ s.reapCheck fd = s.goto (.closing fd) ∨
      s.reapCheck fd = s.goto (.reap (fd + 1)) := by
  unfold Sys.reapCheck
  dsimp only
  split
  next h => exact .inl ⟨h.1, rfl⟩
  next => exact .inr rfl

theorem Sys.reapCheck_goto (s : Sys) (fd : ℕ) :
    ∃ io, (io = .closing fd ∨ io = .reap (fd + 1)) ∧ s.reapCheck fd = s.goto io := by
  obtain ⟨-, heq⟩ | heq := s.reapCheck_cases fd
  · exact ⟨_, .inl rfl, heq⟩
  · exact ⟨_, .inr rfl, heq⟩

theorem Sys.enqueue_cases {task : Task} {rest : List EpollEvent} {released : Option (Fin 4)}
    (h : s.enqueue task rest released = some s') :
    ∃ sched io, (io = .readable rest ∨ io = .refused task rest) ∧
      s' = ({ s with sched } : Sys).goto io := by
  unfold Sys.enqueue at h
  split at h
  next =>
    obtain ⟨⟨ok, sched⟩, -, rfl⟩ := Option.map_eq_some_iff.mp h
    refine ⟨sched, _, ?_, rfl⟩
    cases ok with
    | false => exact .inr rfl
    | true => exact .inl rfl
  next =>
    rw [Option.ite_none_right_eq_some, Option.some.injEq] at h
    exact ⟨s.sched, _, .inr rfl, h.2.symm⟩

end Cases

/-! ### Steps -/

inductive IoLabel
  /-- A step that no system call decides. -/
  | next
  /-- `epoll_wait` returns with these events, is interrupted, or fails. -/
  | poll (events : List EpollEvent)
  | pollEintr
  | pollError
  | accept (fd : ℕ) (registered : Bool)
  | acceptNone
  | send (res : SendRes)
  | recv (res : RecvRes)
  | enqueue (released : Option (Fin 4))
  /-- The loop of `reap_closed_clients` passes over clients. -/
  | scan (fd : ℕ)

inductive SigLabel
  | next
  | send (res : SendRes)
  /-- The loop over the clients passes over some. -/
  | scan (fd : ℕ)

inductive Label
  | io (l : IoLabel)
  /-- A worker takes `queue_lock`, wakes up without a signal, or goes on
  with its task. -/
  | lock (w : Fin 4)
  | wake (w : Fin 4)
  | process (w : Fin 4)
  | sig (l : SigLabel)

def recvOk (opened : Bool) (remaining : ℕ) : RecvRes → Bool
  | .data _ bs => opened && decide (bs.length < remaining)
  | .eintr | .eagain | .eof => opened
  | .error => true

def sendOk (opened : Bool) : SendRes → Bool
  | .sent _ | .eintr | .eagain => opened
  | .error => true

def Sys.noneToReap (s : Sys) (fd fd' : ℕ) : Bool :=
  (List.range (fd' - fd)).all fun k => !(s.clients (fd + k)).pendingClose

def Sys.noneConnected (s : Sys) (fd fd' : ℕ) : Bool :=
  (List.range (fd' - fd)).all fun k => !(s.clients (fd + k)).isOn (fd + k)

def Sys.ioStep (s : Sys) (l : IoLabel) : Option Sys :=
  match s.io, l with
  | .top, .next =>
      if s.sig.locksServer then none
      else some (s.goto (if s.sched.shutdown then .stopped else .wait))
  -- the timeout: there are no events to look at
  | .wait, .poll [] => some (s.goto .reapLock)
  | .wait, .poll (e :: events) => some (s.goto (.polled (e :: events)))
  | .wait, .pollEintr => some (s.goto .top)
  | .wait, .pollError => some (s.goto .stopped)
  | .polled events, .next =>
      if s.sig.locksServer then none else some (s.goto (.dispatch events events))
  | .dispatch events [], .next => some (s.goto (.readLock events))
  | .dispatch events (e :: rest), .next => some (s.dispatch events e rest)
  | .accepting _ _, .accept fd registered =>
      if s.isOpen fd then none else some (s.accept fd registered)
  | .accepting events rest, .acceptNone => some (s.goto (.dispatch events rest))
  | .writable events fd rest, .next => some (s.writable events fd rest)
  | .sending events fd offset rest, .send res =>
      if sendOk (s.isOpen fd) res then some (s.sendChunk events fd offset rest res) else none
  | .readLock events, .next =>
      if s.sig.locksServer then none else some (s.goto (.readable events))
  | .readable [], .next => some (s.goto .reapLock)
  | .readable (e :: rest), .next => some (s.readable e rest)
  | .reading fd rest, .next =>
      if (s.clients fd).pendingClose then some (s.goto (.readable rest)) else none
  | .reading fd rest, .recv res =>
      if !(s.clients fd).pendingClose &&
          recvOk (s.isOpen fd) (s.clients fd).inbox.remaining res then
        some (s.recvTurn fd rest res)
      else none
  | .nacking fd rest, .next =>
      let c := s.clients fd
      some ((s.setClient fd (queueClient c (buildNack c.inbox.message.numberPacket))).goto
        (.readable rest))
  | .holding task rest, .enqueue released => s.enqueue task rest released
  -- the task is not counted, and the client is told
  | .refused task rest, .next =>
      let c := s.clients task.fd
      some ((s.setClient task.fd { c with pendingTask := c.pendingTask - 1 }).goto
        (.busy task rest))
  | .busy task rest, .next =>
      some ((s.setClient task.fd
        (queueClient (s.clients task.fd) (serverBusy task.message))).goto (.readable rest))
  | .reapLock, .next => if s.sig.locksServer then none else some (s.goto (.reap 0))
  | .reap fd, .scan fd' =>
      if fd < fd' ∧ fd' ≤ fdSetsize ∧ s.noneToReap fd fd' = true then some (s.goto (.reap fd'))
      else none
  | .reap fd, .next =>
      if fdSetsize ≤ fd then some (s.goto .top)
      else if (s.clients fd).pendingClose then some (s.reapCheck fd)
      else none
  | .closing fd, .next => some (s.reapClose fd)
  | _, _ => none

def Sys.sigStep (s : Sys) (l : SigLabel) : Option Sys :=
  match s.sig, l with
  | .idle, .next => if s.io.locksServer then none else some { s with sig := .next 0 }
  | .next fd, .scan fd' =>
      if fd < fd' ∧ fd' ≤ fdSetsize ∧ s.noneConnected fd fd' = true then
        some { s with sig := .next fd' }
      else none
  | .next fd, .next =>
      if fdSetsize ≤ fd then
        some { s with sched := { s.sched with shutdown := true }, sig := .flagged }
      else if (s.clients fd).isOn fd then some { s with sig := .sending fd 0 }
      else none
  | .sending fd sentTotal, .send res =>
      if sendOk (s.isOpen fd) res then some (s.sendFarewell fd sentTotal res) else none
  | .flagged, .next => some { s with sched := s.sched.broadcast, sig := .done }
  | _, _ => none

/-- The next step of `process_task` takes the lock of the client. -/
def TaskStage.locksClient (m : MessageControl) : TaskStage → Bool
  | acting =>
      match Command.ofCode m.cmd with
      | some .ack | some .nack | none => false
      | some .identify => tokenLength m == 0
      | _ => true
  | _ => true

def Sys.step (s : Sys) : Label → Option Sys
  | .io l => s.ioStep l
  | .lock w => (s.sched.step (.lock w)).map fun sched => { s with sched }
  | .wake w => (s.sched.step (.wake w)).map fun sched => { s with sched }
  | .process w =>
      match s.sched.worker w with
      | .busy task =>
          if (s.stage w).locksClient task.message && s.io.locksClient == some task.fd then none
          else some (s.process w task)
      | _ => none
  | .sig l => s.sigStep l

/-! ### The steps as a relation

Invariants are proved by cases over this relation, one case for each kind
of step, and never look at the functions again. -/

inductive Sys.IoStep (s : Sys) : IoLabel → Sys → Prop
  | top (pc : s.io = .top) (free : s.sig.locksServer = false) :
      s.IoStep .next (s.goto (if s.sched.shutdown then .stopped else .wait))
  | timeout (pc : s.io = .wait) : s.IoStep (.poll []) (s.goto .reapLock)
  | poll {e events} (pc : s.io = .wait) :
      s.IoStep (.poll (e :: events)) (s.goto (.polled (e :: events)))
  | pollEintr (pc : s.io = .wait) : s.IoStep .pollEintr (s.goto .top)
  | pollError (pc : s.io = .wait) : s.IoStep .pollError (s.goto .stopped)
  | polled {events} (pc : s.io = .polled events) (free : s.sig.locksServer = false) :
      s.IoStep .next (s.goto (.dispatch events events))
  | dispatched {events} (pc : s.io = .dispatch events []) :
      s.IoStep .next (s.goto (.readLock events))
  | dispatch {events e rest} (pc : s.io = .dispatch events (e :: rest)) :
      s.IoStep .next (s.dispatch events e rest)
  | accept {events rest fd registered} (pc : s.io = .accepting events rest)
      (closed : s.isOpen fd = false) : s.IoStep (.accept fd registered) (s.accept fd registered)
  | acceptNone {events rest} (pc : s.io = .accepting events rest) :
      s.IoStep .acceptNone (s.goto (.dispatch events rest))
  | writable {events fd rest} (pc : s.io = .writable events fd rest) :
      s.IoStep .next (s.writable events fd rest)
  | sendChunk {events fd offset rest res} (pc : s.io = .sending events fd offset rest)
      (ok : sendOk (s.isOpen fd) res = true) :
      s.IoStep (.send res) (s.sendChunk events fd offset rest res)
  | readLock {events} (pc : s.io = .readLock events) (free : s.sig.locksServer = false) :
      s.IoStep .next (s.goto (.readable events))
  | readDone (pc : s.io = .readable []) : s.IoStep .next (s.goto .reapLock)
  | readable {e rest} (pc : s.io = .readable (e :: rest)) : s.IoStep .next (s.readable e rest)
  | readClosing {fd rest} (pc : s.io = .reading fd rest)
      (marked : (s.clients fd).pendingClose = true) : s.IoStep .next (s.goto (.readable rest))
  | recv {fd rest res} (pc : s.io = .reading fd rest)
      (unmarked : (s.clients fd).pendingClose = false)
      (ok : recvOk (s.isOpen fd) (s.clients fd).inbox.remaining res = true) :
      s.IoStep (.recv res) (s.recvTurn fd rest res)
  | nack {fd rest} (pc : s.io = .nacking fd rest) :
      s.IoStep .next ((s.setClient fd (queueClient (s.clients fd)
        (buildNack (s.clients fd).inbox.message.numberPacket))).goto (.readable rest))
  | enqueue {task rest released s'} (pc : s.io = .holding task rest)
      (eq : s.enqueue task rest released = some s') : s.IoStep (.enqueue released) s'
  | refused {task rest} (pc : s.io = .refused task rest) :
      s.IoStep .next ((s.setClient task.fd { s.clients task.fd with
        pendingTask := (s.clients task.fd).pendingTask - 1 }).goto (.busy task rest))
  | busy {task rest} (pc : s.io = .busy task rest) :
      s.IoStep .next ((s.setClient task.fd
        (queueClient (s.clients task.fd) (serverBusy task.message))).goto (.readable rest))
  | reapLock (pc : s.io = .reapLock) (free : s.sig.locksServer = false) :
      s.IoStep .next (s.goto (.reap 0))
  | scan {fd fd'} (pc : s.io = .reap fd) : s.IoStep (.scan fd') (s.goto (.reap fd'))
  | reaped {fd} (pc : s.io = .reap fd) : s.IoStep .next (s.goto .top)
  | reapCheck {fd} (pc : s.io = .reap fd) (marked : (s.clients fd).pendingClose = true) :
      s.IoStep .next (s.reapCheck fd)
  | reapClose {fd} (pc : s.io = .closing fd) : s.IoStep .next (s.reapClose fd)

theorem Sys.ioStep_inv {s s' : Sys} {l : IoLabel} (h : s.ioStep l = some s') : s.IoStep l s' := by
  unfold Sys.ioStep at h
  split at h
  next pc =>
    simp only [Option.ite_none_left_eq_some, Option.some.injEq] at h
    exact h.2 ▸ .top pc (by simpa using h.1)
  next pc => exact Option.some.inj h ▸ .timeout pc
  next pc => exact Option.some.inj h ▸ .poll pc
  next pc => exact Option.some.inj h ▸ .pollEintr pc
  next pc => exact Option.some.inj h ▸ .pollError pc
  next pc =>
    simp only [Option.ite_none_left_eq_some, Option.some.injEq] at h
    exact h.2 ▸ .polled pc (by simpa using h.1)
  next pc => exact Option.some.inj h ▸ .dispatched pc
  next pc => exact Option.some.inj h ▸ .dispatch pc
  next pc =>
    simp only [Option.ite_none_left_eq_some, Option.some.injEq] at h
    exact h.2 ▸ .accept pc (by simpa using h.1)
  next pc => exact Option.some.inj h ▸ .acceptNone pc
  next pc => exact Option.some.inj h ▸ .writable pc
  next pc =>
    simp only [Option.ite_none_right_eq_some, Option.some.injEq] at h
    exact h.2 ▸ .sendChunk pc h.1
  next pc =>
    simp only [Option.ite_none_left_eq_some, Option.some.injEq] at h
    exact h.2 ▸ .readLock pc (by simpa using h.1)
  next pc => exact Option.some.inj h ▸ .readDone pc
  next pc => exact Option.some.inj h ▸ .readable pc
  next pc =>
    simp only [Option.ite_none_right_eq_some, Option.some.injEq] at h
    exact h.2 ▸ .readClosing pc h.1
  next pc =>
    simp only [Option.ite_none_right_eq_some, Option.some.injEq, Bool.and_eq_true,
      Bool.not_eq_true'] at h
    exact h.2 ▸ .recv pc h.1.1 h.1.2
  next pc => exact Option.some.inj h ▸ .nack pc
  next pc => exact .enqueue pc h
  next pc => exact Option.some.inj h ▸ .refused pc
  next pc => exact Option.some.inj h ▸ .busy pc
  next pc =>
    simp only [Option.ite_none_left_eq_some, Option.some.injEq] at h
    exact h.2 ▸ .reapLock pc (by simpa using h.1)
  next pc =>
    simp only [Option.ite_none_right_eq_some, Option.some.injEq] at h
    exact h.2 ▸ .scan pc
  next fd pc =>
    split at h
    next => exact Option.some.inj h ▸ .reaped pc
    next =>
      simp only [Option.ite_none_right_eq_some, Option.some.injEq] at h
      exact h.2 ▸ .reapCheck pc h.1
  next pc => exact Option.some.inj h ▸ .reapClose pc
  next => cases h

/-- The IO thread has nothing to do with the sessions or with what the
workers do, and it changes the queues by an enqueue only. -/
theorem Sys.IoStep.frame {s s' : Sys} {l : IoLabel} (h : s.IoStep l s') :
    s'.table = s.table ∧ s'.stage = s.stage ∧
      ((∀ released, l ≠ .enqueue released) → s'.sched = s.sched) := by
  cases h with
  | @dispatch events e rest pc =>
      obtain ⟨io, -, heq⟩ | ⟨fd, mark, io, -, -, heq⟩ := s.dispatch_cases events e rest
      · rw [heq]
        exact ⟨rfl, rfl, fun _ => rfl⟩
      · rw [heq]
        exact ⟨rfl, rfl, fun _ => rfl⟩
  | accept pc closed =>
      unfold Sys.accept
      split
      · exact ⟨rfl, rfl, fun _ => rfl⟩
      · exact ⟨rfl, rfl, fun _ => rfl⟩
  | writable pc =>
      unfold Sys.writable
      dsimp only
      split
      · exact ⟨rfl, rfl, fun _ => rfl⟩
      · exact ⟨rfl, rfl, fun _ => rfl⟩
  | @sendChunk events fd offset rest res pc ok =>
      obtain ⟨bs, k, heq⟩ | ⟨bs, c, heq⟩ := s.sendChunk_cases events fd offset rest res
      · rw [heq]
        exact ⟨rfl, rfl, fun _ => rfl⟩
      · rw [heq]
        exact ⟨rfl, rfl, fun _ => rfl⟩
  | @readable e rest pc =>
      obtain ⟨io, -, heq⟩ := s.readable_goto e rest
      rw [heq]
      exact ⟨rfl, rfl, fun _ => rfl⟩
  | enqueue pc eq =>
      obtain ⟨sched, io, -, rfl⟩ := Sys.enqueue_cases eq
      exact ⟨rfl, rfl, fun hl => absurd rfl (hl _)⟩
  | @reapCheck fd pc marked =>
      obtain ⟨io, -, heq⟩ := s.reapCheck_goto fd
      rw [heq]
      exact ⟨rfl, rfl, fun _ => rfl⟩
  | _ => exact ⟨rfl, rfl, fun _ => rfl⟩

inductive Sys.SigStep (s : Sys) : SigLabel → Sys → Prop
  | start (pc : s.sig = .idle) (free : s.io.locksServer = false) :
      s.SigStep .next { s with sig := .next 0 }
  | scan {fd fd'} (pc : s.sig = .next fd) (lt : fd < fd') :
      s.SigStep (.scan fd') { s with sig := .next fd' }
  | flag {fd} (pc : s.sig = .next fd) :
      s.SigStep .next { s with sched := { s.sched with shutdown := true }, sig := .flagged }
  | send {fd} (pc : s.sig = .next fd) (on : (s.clients fd).isOn fd = true) :
      s.SigStep .next { s with sig := .sending fd 0 }
  | sendFarewell {fd sentTotal res} (pc : s.sig = .sending fd sentTotal)
      (ok : sendOk (s.isOpen fd) res = true) :
      s.SigStep (.send res) (s.sendFarewell fd sentTotal res)
  | broadcast (pc : s.sig = .flagged) :
      s.SigStep .next { s with sched := s.sched.broadcast, sig := .done }

theorem Sys.sigStep_inv {s s' : Sys} {l : SigLabel} (h : s.sigStep l = some s') :
    s.SigStep l s' := by
  unfold Sys.sigStep at h
  split at h
  next pc =>
    simp only [Option.ite_none_left_eq_some, Option.some.injEq] at h
    exact h.2 ▸ .start pc (by simpa using h.1)
  next pc =>
    simp only [Option.ite_none_right_eq_some, Option.some.injEq] at h
    exact h.2 ▸ .scan pc h.1.1
  next fd pc =>
    split at h
    next => exact Option.some.inj h ▸ .flag pc
    next =>
      simp only [Option.ite_none_right_eq_some, Option.some.injEq] at h
      exact h.2 ▸ .send pc h.1
  next pc =>
    simp only [Option.ite_none_right_eq_some, Option.some.injEq] at h
    exact h.2 ▸ .sendFarewell pc h.1
  next pc => exact Option.some.inj h ▸ .broadcast pc
  next => cases h

def directReply (m : MessageControl) : Option MessageControl :=
  match Command.ofCode m.cmd with
  | some .getStatus => some (getStatusTask m)
  | some .setStatus => some (setStatusTask m)
  | some .getData => some (getDataTask m)
  | some .getConfig => some (getConfigTask m)
  | some .setConfig => some (setConfigTask m)
  | some .sendControl => some (sendControlTask m)
  | some .identify => if tokenLength m = 0 then some (identifyEmpty m) else none
  | _ => none

/-- Where `identify_task` goes on behind `session_lookup_or_create`. -/
def TaskStage.ofLookup : Option (ℕ × Bool) → TaskStage
  | none => denied
  | some (i, wasResumed) => naming i wasResumed

inductive Sys.ProcessStep (s : Sys) (w : Fin 4) (task : Task) : Sys → Prop
  | check (stage : s.stage w = .checking) : s.ProcessStep w task (s.check w task)
  | answer {m} (stage : s.stage w = .acting) (reply : directReply task.message = some m) :
      s.ProcessStep w task ((s.reply task m).setStage w .finishing)
  | pass (stage : s.stage w = .acting)
      (silent : Command.ofCode task.message.cmd ∈ [none, some .ack, some .nack]) :
      s.ProcessStep w task (s.setStage w .finishing)
  | mark (stage : s.stage w = .acting)
      (cmd : Command.ofCode task.message.cmd = some .shutdownPeer) :
      s.ProcessStep w task ((s.setClient task.fd { s.clients task.fd with
        pendingClose := true }).setStage w .finishing)
  | lookup (stage : s.stage w = .acting) (cmd : Command.ofCode task.message.cmd = some .identify)
      (token : tokenLength task.message ≠ 0) :
      s.ProcessStep w task
        (({ s with
          table := (sessionLookupOrCreate s.table
            (identifyToken task.message)).2 } : Sys).setStage w
          (.ofLookup (sessionLookupOrCreate s.table (identifyToken task.message)).1))
  | deny (stage : s.stage w = .denied) :
      s.ProcessStep w task ((s.reply task (identifyFull task.message)).setStage w .finishing)
  | name {i wasResumed} (stage : s.stage w = .naming i wasResumed) :
      s.ProcessStep w task (s.name w task i wasResumed)
  | reply {i wasResumed} (stage : s.stage w = .replying i wasResumed) :
      s.ProcessStep w task ((s.reply task (identifyReply task.message (s.table.sessions i)
        wasResumed)).setStage w .finishing)
  | finish (stage : s.stage w = .finishing) : s.ProcessStep w task (s.finish w task)

theorem Sys.process_inv (s : Sys) (w : Fin 4) (task : Task) :
    s.ProcessStep w task (s.process w task) := by
  unfold Sys.process
  cases stage : s.stage w with
  | checking => exact .check stage
  | denied => exact .deny stage
  | naming i wasResumed => exact .name stage
  | replying i wasResumed => exact .reply stage
  | finishing => exact .finish stage
  | acting =>
      have hanswer : ∀ {m}, directReply task.message = some m →
          s.ProcessStep w task ((s.reply task m).setStage w .finishing) := .answer stage
      simp only [directReply] at hanswer
      simp only [Sys.act]
      cases hcmd : Command.ofCode task.message.cmd with
      | none => exact .pass stage (by simp [hcmd])
      | some cmd =>
          simp only [hcmd] at hanswer
          cases cmd with
          | ack | nack => exact .pass stage (by simp [hcmd])
          | shutdownPeer => exact .mark stage hcmd
          | identify =>
              simp only [Sys.identify]
              split
              next h0 => exact hanswer (by rw [if_pos h0])
              next h0 =>
                have hlookup : s.ProcessStep w task _ := .lookup stage hcmd h0
                cases hout : (sessionLookupOrCreate s.table (identifyToken task.message)).1 with
                | none | some found => rwa [hout] at hlookup
          | _ => exact hanswer rfl

/-- What a worker does is no matter of the other threads or of the sockets. -/
theorem Sys.ProcessStep.frame {s s' : Sys} {w : Fin 4} {task : Task} (h : s.ProcessStep w task s') :
    s'.io = s.io ∧ s'.sig = s.sig ∧ s'.isOpen = s.isOpen ∧ s'.farewell = s.farewell ∧
      s'.sent = s.sent ∧ s'.numClients = s.numClients := by
  cases h with
  | _ => exact ⟨rfl, rfl, rfl, rfl, rfl, rfl⟩

inductive Sys.Step (s : Sys) : Label → Sys → Prop
  | io {l s'} (step : s.IoStep l s') : s.Step (.io l) s'
  | lock {w} (start : s.sched.worker w = .start) :
      s.Step (.lock w) { s with sched := s.sched.lock w }
  | wake {w} (waiting : s.sched.worker w = .waiting) :
      s.Step (.wake w) { s with sched := s.sched.goto w .start }
  | process {w task} (busy : s.sched.worker w = .busy task)
      (free : (s.stage w).locksClient task.message = true → s.io.locksClient ≠ some task.fd) :
      s.Step (.process w) (s.process w task)
  | sig {l s'} (step : s.SigStep l s') : s.Step (.sig l) s'

theorem Sys.step_inv {s s' : Sys} {l : Label} (h : s.step l = some s') : s.Step l s' := by
  cases l with
  | io l => exact .io (Sys.ioStep_inv h)
  | sig l => exact .sig (Sys.sigStep_inv h)
  | lock w =>
      obtain ⟨sched, hsched, rfl⟩ := Option.map_eq_some_iff.mp h
      cases Sched.step_inv hsched with
      | lock start => exact .lock start
  | wake w =>
      obtain ⟨sched, hsched, rfl⟩ := Option.map_eq_some_iff.mp h
      cases Sched.step_inv hsched with
      | wake waiting => exact .wake waiting
  | process w =>
      simp only [Sys.step] at h
      split at h
      next task hw =>
        simp only [Option.ite_none_left_eq_some, Option.some.injEq, Bool.and_eq_true, beq_iff_eq,
          not_and] at h
        exact h.2 ▸ .process hw h.1
      next => cases h

/-! ### What a step puts into a ring

The place where `queue_client` puts the next message moves on with every
call and with nothing else, except for a new client. -/

/-- The message that a step has put into the ring of a client. -/
def Sys.queued (s s' : Sys) (fd : ℕ) : Option MessageControl :=
  let q := (s.clients fd).sendQueue
  let q' := (s'.clients fd).sendQueue
  if q'.head = q.head then none else some (q'.cells q.head).msg

section Queued

variable {s s' : Sys} {k : ℕ} {c : Client}

theorem Sys.queued_update (hclients : s'.clients = Function.update s.clients k c)
    (hc : c.sendQueue.head = (s.clients k).sendQueue.head) (fd : ℕ) : s.queued s' fd = none := by
  simp only [Sys.queued, hclients]
  by_cases hk : fd = k
  · subst hk
    rw [Function.update_self, if_pos hc]
  · rw [Function.update_of_ne hk, if_pos rfl]

theorem head_dropOldest (q : RingBuf Outgoing) : (dropOldest q).head = q.head := by
  unfold dropOldest
  split <;> rfl

theorem Sys.queued_queue {m : MessageControl}
    (hclients : s'.clients = Function.update s.clients k c)
    (hc : c.sendQueue = (queueClient (s.clients k) m).sendQueue) (fd : ℕ) :
    s.queued s' fd = if k = fd then some m else none := by
  simp only [Sys.queued, hclients]
  by_cases hk : k = fd
  · subst hk
    have hne : ((s.clients k).sendQueue.head + 1) % numPacketToSend ≠
        (s.clients k).sendQueue.head := by
      simp only [numPacketToSend]
      omega
    simp only [Function.update_self, hc, queueClient, RingBuf.push, head_dropOldest, if_neg hne,
      if_true]
  · rw [Function.update_of_ne (Ne.symm hk), if_pos rfl, if_neg hk]

end Queued

/-! ### Pieces of runs -/

/-- The steps of the IO thread from behind the events of an `epoll_wait` to
the next one, if nothing is to be reaped. -/
def throughReap : List Label :=
  [.io .next, .io .next, .io (.scan fdSetsize), .io .next, .io .next]

def acceptOn (fd : ℕ) : List Label :=
  [.io .next, .io (.poll [.listen true]), .io .next, .io .next, .io (.accept fd true),
    .io .acceptNone, .io .next, .io .next, .io .next] ++ throughReap

/-- `epoll_wait` reports a client with nothing to send as readable, and the
IO thread goes up to `read_stage`. -/
def readableOn (fd : ℕ) : List Label :=
  [.io (.poll [.client fd ⟨true, false, false⟩]), .io .next, .io .next, .io .next, .io .next,
    .io .next]

def recvBytes : List UInt8 → Label
  | [] => .io (.recv .eof)
  | b :: bs => .io (.recv (.data b bs))

def recvFrame (m : MessageControl) : List Label :=
  [recvBytes (slice m.header 0 headerSize), recvBytes (slice m.checksum 0 checksumSize)]

/-- `epoll_wait` reports a client as writable, and these are the results of
the `send`s. -/
def sendOn (fd : ℕ) (results : List SendRes) : List Label :=
  [.io (.poll [.client fd ⟨false, true, false⟩]), .io .next, .io .next, .io .next] ++
    results.map fun res => .io (.send res)

/-- The IO thread goes on behind the events, none of which is readable. -/
def throughRead (n : ℕ) : List Label :=
  [.io .next, .io .next] ++ List.replicate n (.io .next) ++ throughReap

/-- A signal arrives, the client is the first that is connected, and these
are the results of the `send`s. -/
def shutdownOn (fd : ℕ) (results : List SendRes) : List Label :=
  [.sig .next, .sig (.scan fd), .sig .next] ++ results.map fun res => .sig (.send res)

end LinuxMiniProjects.ControlPlane
