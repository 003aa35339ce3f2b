import LinuxMiniProjects.Lib.Machine
import LinuxMiniProjects.ControlPlane.Client
import LinuxMiniProjects.ControlPlane.Session

/-!
The client of the control plane as a system of threads (`client.c`,
`client.h`).

After `init_client` has sent its `IDENTIFY` there are five threads. One
makes a command every second, one sends what is in the send queue, one
receives and acknowledges, one takes what was received off its queue, and
one waits for signals.

The fields of the client are under `lock`, but `recv_thread` unlocks that
mutex in three places where it does not hold it, so it excludes nobody.
It is left out, and every look at such a field is a step of its own. The
two queues have locks that work, and what is done under one of them is one
step. Of `read_stage` only what it returns is here, as part of the label.
-/

namespace LinuxMiniProjects.GatewayCli

open Socket ControlPlane

/-! ### The queues -/

def clientQueue : ℕ := 32

/-- `enqueue_message`: what it returns, and the queue. -/
def enqueueMessage (queue : RingBuf MessageControl) (m : MessageControl) :
    ℤ × RingBuf MessageControl :=
  if queue.count = clientQueue then (1, queue) else (0, queue.push clientQueue m)

def dequeueMessage (queue : RingBuf MessageControl) :
    Option (MessageControl × RingBuf MessageControl) :=
  if queue.count = 0 then none else some (queue.front, queue.pop clientQueue)

def emptyQueue : RingBuf MessageControl := ⟨fun _ => default, 0, 0, 0⟩

/-! ### Commands -/

/-- The message that `init_client` sends. -/
def identify (numPacket : UInt64) : MessageControl :=
  buildMessage (ascii "MY_FIXED_SECRET_TOKEN_123456789") Command.identify.code 2 numPacket

structure Draws where
  kind : ℕ
  first : ℕ
  device : ℕ
  flag : ℕ

def randomPayload (d : Draws) : Option (List UInt8 × UInt32) :=
  let i := d.kind % 5
  let first := decimal (i + d.first % 10)
  let device := decimal (i + d.device % 40)
  let flag := decimal (if (i + d.flag % 2) % 2 = 1 then 1 else 0)
  match i with
  | 0 => some (ascii "GET_STATUS: \x7bsensor:" ++ first ++ ascii ", device:" ++ device ++
      ascii "\x7d", 0)
  | 1 => some (ascii "SET_STATUS: \x7bsensor:" ++ first ++ ascii ", deivce:" ++ device ++
      ascii ", status:" ++ flag ++ ascii "\x7d", 2)
  | 2 => some (ascii "GET_DATA: \x7bsensor:" ++ first ++ ascii ", deivce:" ++ device ++
      ascii "\x7d", 1)
  | 3 => some (ascii "GET_CONFIG: \x7bsensor:" ++ first ++ ascii ", deivce:" ++ device ++
      ascii "\x7d", 0)
  | 4 => some (ascii "SET_CONFIG: \x7bsensor:" ++ first ++ ascii ", deivce:" ++ device ++
      ascii ", config:\x7bfrequency:100000, set_lowpower:" ++ flag ++ ascii "\x7d\x7d", 2)
  | 5 => some (ascii "SEND_CONTROL: \x7bactuator:" ++ first ++ ascii ", deivce:" ++ device ++
      ascii ", control: " ++ flag ++ ascii "\x7d", 2)
  | _ => none

/-- `create_mesage_random`, but for the queue. -/
def createMessageRandom (d : Draws) (numPacket : UInt64) : Option MessageControl :=
  (randomPayload d).map fun (payload, pri) =>
    buildMessage payload (UInt32.ofNat (d.kind % 5)) pri numPacket

def clientShuttingDown (numPacket : UInt64) : MessageControl :=
  buildMessage (ascii "client shutting down") Command.shutdownPeer.code 2 numPacket

/-! ### The state -/

/-- Where `task_create_thread` is: before it reads `num_packet_sent`,
before it looks at `shutdown`, at the queue, and before the message is
made. -/
inductive TaskPc
  | top
  | numbered (packetNum : UInt64)
  | running (packetNum : UInt64)
  | creating (packetNum : UInt64)
  | stopped

/-- Where `send_thread` is: before it looks at `shutdown`, before it takes a
message, with a message, and behind the `send`. -/
inductive SendPc
  | top
  | taking
  | sending (m : MessageControl)
  | counting
  | stopped

/-- Where `recv_thread` is: before it looks at `shutdown`, in `epoll_wait`,
in `read_stage`, and with a message. -/
inductive RecvPc
  | top
  | waiting
  | reading
  /-- The checksum is wrong: before the first and the second attempt to
  queue the `NACK`. -/
  | nacking (m : MessageControl)
  | nackAgain (m : MessageControl)
  | received (m : MessageControl)
  /-- Before the `ACK` is queued, before the message is, and before the
  `ACK` is queued once more. -/
  | acking (m : MessageControl)
  | storing (m : MessageControl)
  | ackAgain (m : MessageControl)
  | stopped

inductive WorkPc
  | top
  | taking
  | stopped

inductive SigPc
  | idle
  | sending (m : MessageControl)
  | flagging
  | done

/-- `struct client_state` and the threads. The last two fields are a
history that no step reads. -/
structure Sys where
  shutdown : Bool
  numPacketSent : UInt64
  numPacketRecv : UInt64
  sentQueue : RingBuf MessageControl
  recvQueue : RingBuf MessageControl
  task : TaskPc
  send : SendPc
  recv : RecvPc
  worker : WorkPc
  sig : SigPc
  /-- The `IDENTIFY` and the messages of `create_mesage_random`. -/
  commands : List MessageControl
  /-- The messages of `init_client` and of `send_thread` that were sent. -/
  frames : List MessageControl

/-- The client after `init_client`, with its threads created. -/
def Sys.init : Sys where
  shutdown := false
  numPacketSent := 0
  numPacketRecv := 0
  sentQueue := emptyQueue
  recvQueue := emptyQueue
  task := .top
  send := .top
  recv := .top
  worker := .top
  sig := .idle
  commands := [identify 0]
  frames := [identify 0]

/-! ### What the threads do -/

def Sys.queue (s : Sys) (m : MessageControl) : Sys :=
  { s with sentQueue := (enqueueMessage s.sentQueue m).2 }

/-- `create_mesage_random` in `task_create_thread`. -/
def Sys.create (s : Sys) (m : MessageControl) : Sys :=
  { s.queue m with task := .top, commands := s.commands ++ [m] }

/-- `send_thread` behind `send_framed_message`, which has returned `ret`.
Only a closed connection ends the thread; a failure is counted like a
success. -/
def Sys.sent (s : Sys) (m : MessageControl) (ret : ℤ) : Sys :=
  let s := { s with frames := if ret = 0 then s.frames ++ [m] else s.frames }
  if ret = 1 then { s with shutdown := true, send := .stopped } else { s with send := .counting }

/-- `recv_thread` with a message whose checksum is right. -/
def Sys.receive (s : Sys) (m : MessageControl) : Sys :=
  let s := { s with numPacketRecv := s.numPacketRecv + 1 }
  match Command.ofCode m.cmd with
  | some .shutdownPeer => { s with shutdown := true, recv := .stopped }
  | some .ack | some .nack => { s with recv := .top }
  | _ => { s with recv := .acking m }

inductive PollRes
  | ready
  | timeout
  | eintr
  | error
deriving DecidableEq

inductive Label
  | task
  | create (d : Draws)
  | send
  /-- The results of the `send`s in `send_framed_message`. -/
  | sendMessage (script : List SendRes)
  | recv
  | poll (res : PollRes)
  /-- What `read_stage` returns: a frame, nothing yet, or that it is over,
  because the connection is or because of `shutdown`. -/
  | readFrame (m : MessageControl)
  | readNothing
  | readClosed
  | readShutdown
  | worker
  | sig
  | sigMessage (script : List SendRes)

def Sys.taskStep (s : Sys) : Label → Option Sys
  | .task =>
      match s.task with
      | .top => some { s with task := .numbered s.numPacketSent }
      | .numbered n => some { s with task := if s.shutdown then .stopped else .running n }
      | .running n =>
          some { s with task := if clientQueue ≤ s.sentQueue.count then .top else .creating n }
      | _ => none
  | .create d =>
      match s.task with
      | .creating n => (createMessageRandom d n).map s.create
      | _ => none
  | _ => none

def Sys.sendStep (s : Sys) : Label → Option Sys
  | .send =>
      match s.send with
      | .top => some { s with send := if s.shutdown then .stopped else .taking }
      | .taking =>
          match dequeueMessage s.sentQueue with
          | some (m, queue) => some { s with sentQueue := queue, send := .sending m }
          | none => some { s with send := .top }
      | .counting => some { s with numPacketSent := s.numPacketSent + 1, send := .top }
      | _ => none
  | .sendMessage script =>
      match s.send with
      | .sending m => (sendFramedMessage m script).1.map (s.sent m)
      | _ => none
  | _ => none

def Sys.recvStep (s : Sys) : Label → Option Sys
  | .poll res =>
      match s.recv, res with
      | .waiting, .ready => some { s with recv := .reading }
      | .waiting, .error => some { s with recv := .stopped }
      | .waiting, _ => some { s with recv := .top }
      | _, _ => none
  | .readFrame m =>
      match s.recv with
      | .reading =>
          if calculateChecksum m = Bytes.getLe32 m.checksum 0 then
            some { s with numPacketRecv := s.numPacketRecv + 1, recv := .received m }
          else some { s with recv := .nacking m }
      | _ => none
  | .readNothing =>
      match s.recv with
      | .reading => some { s with recv := .top }
      | _ => none
  | .readClosed =>
      match s.recv with
      | .reading => some { s with shutdown := true, recv := .stopped }
      | _ => none
  | .readShutdown =>
      match s.recv with
      | .reading => if s.shutdown then some { s with recv := .stopped } else none
      | _ => none
  | .recv =>
      match s.recv with
      | .top => some { s with recv := if s.shutdown then .stopped else .waiting }
      | .nacking m =>
          let nack := buildNack m.numberPacket
          some { s.queue nack with
            recv := if (enqueueMessage s.sentQueue nack).1 = 1 then .nackAgain m else .top }
      | .nackAgain m => some { s.queue (buildNack m.numberPacket) with recv := .top }
      | .received m => some (s.receive m)
      | .acking m => some { s.queue (buildAck m.numberPacket) with recv := .storing m }
      | .storing m =>
          some { s with
            recvQueue := (enqueueMessage s.recvQueue m).2
            recv := if (enqueueMessage s.recvQueue m).1 = 1 then .ackAgain m else .top }
      | .ackAgain m => some { s.queue (buildAck m.numberPacket) with recv := .top }
      | _ => none
  | _ => none

def Sys.workStep (s : Sys) : Option Sys :=
  match s.worker with
  | .top => some { s with worker := if s.shutdown then .stopped else .taking }
  | .taking =>
      match dequeueMessage s.recvQueue with
      | some (_, queue) => some { s with recvQueue := queue, worker := .top }
      | none => some { s with worker := .top }
  | .stopped => none

def Sys.sigStep (s : Sys) : Label → Option Sys
  | .sig =>
      match s.sig with
      | .idle => some { s with sig := .sending (clientShuttingDown s.numPacketSent) }
      | .flagging => some { s with shutdown := true, sig := .done }
      | _ => none
  | .sigMessage script =>
      match s.sig with
      | .sending m => (sendFramedMessage m script).1.map fun _ => { s with sig := .flagging }
      | _ => none
  | _ => none

def Sys.step (s : Sys) (l : Label) : Option Sys :=
  match l with
  | .task | .create _ => s.taskStep l
  | .send | .sendMessage _ => s.sendStep l
  | .recv | .poll _ | .readFrame _ | .readNothing | .readClosed | .readShutdown => s.recvStep l
  | .worker => s.workStep
  | .sig | .sigMessage _ => s.sigStep l

/-! ### The steps as a relation -/

inductive Sys.Step (s : Sys) : Label → Sys → Prop
  -- `task_create_thread`
  | readNumber (pc : s.task = .top) :
      s.Step .task { s with task := .numbered s.numPacketSent }
  | taskLoop {n} (pc : s.task = .numbered n) :
      s.Step .task { s with task := if s.shutdown then .stopped else .running n }
  | taskRoom {n} (pc : s.task = .running n) :
      s.Step .task
        { s with task := if clientQueue ≤ s.sentQueue.count then .top else .creating n }
  | create {d n m} (pc : s.task = .creating n) (made : createMessageRandom d n = some m) :
      s.Step (.create d) (s.create m)
  -- `send_thread`
  | sendLoop (pc : s.send = .top) :
      s.Step .send { s with send := if s.shutdown then .stopped else .taking }
  | take {m queue} (pc : s.send = .taking) (eq : dequeueMessage s.sentQueue = some (m, queue)) :
      s.Step .send { s with sentQueue := queue, send := .sending m }
  | takeNothing (pc : s.send = .taking) : s.Step .send { s with send := .top }
  | count (pc : s.send = .counting) :
      s.Step .send { s with numPacketSent := s.numPacketSent + 1, send := .top }
  | sent {m script ret} (pc : s.send = .sending m) : s.Step (.sendMessage script) (s.sent m ret)
  -- `recv_thread`
  | recvLoop (pc : s.recv = .top) :
      s.Step .recv { s with recv := if s.shutdown then .stopped else .waiting }
  | ready (pc : s.recv = .waiting) : s.Step (.poll .ready) { s with recv := .reading }
  | pollError (pc : s.recv = .waiting) : s.Step (.poll .error) { s with recv := .stopped }
  | pollAgain {res} (pc : s.recv = .waiting) : s.Step (.poll res) { s with recv := .top }
  | frame {m} (pc : s.recv = .reading) (sum : calculateChecksum m = Bytes.getLe32 m.checksum 0) :
      s.Step (.readFrame m) { s with numPacketRecv := s.numPacketRecv + 1, recv := .received m }
  | badFrame {m} (pc : s.recv = .reading)
      (sum : calculateChecksum m ≠ Bytes.getLe32 m.checksum 0) :
      s.Step (.readFrame m) { s with recv := .nacking m }
  | nothing (pc : s.recv = .reading) : s.Step .readNothing { s with recv := .top }
  | closed (pc : s.recv = .reading) :
      s.Step .readClosed { s with shutdown := true, recv := .stopped }
  | isShutdown (pc : s.recv = .reading) : s.Step .readShutdown { s with recv := .stopped }
  | nack {m} (pc : s.recv = .nacking m) :
      s.Step .recv { s.queue (buildNack m.numberPacket) with
        recv := if (enqueueMessage s.sentQueue (buildNack m.numberPacket)).1 = 1 then .nackAgain m
          else .top }
  | nackAgain {m} (pc : s.recv = .nackAgain m) :
      s.Step .recv { s.queue (buildNack m.numberPacket) with recv := .top }
  | receive {m} (pc : s.recv = .received m) : s.Step .recv (s.receive m)
  | ack {m} (pc : s.recv = .acking m) :
      s.Step .recv { s.queue (buildAck m.numberPacket) with recv := .storing m }
  | store {m} (pc : s.recv = .storing m) :
      s.Step .recv { s with
        recvQueue := (enqueueMessage s.recvQueue m).2
        recv := if (enqueueMessage s.recvQueue m).1 = 1 then .ackAgain m else .top }
  | ackAgain {m} (pc : s.recv = .ackAgain m) :
      s.Step .recv { s.queue (buildAck m.numberPacket) with recv := .top }
  -- `worker_thread`
  | workLoop (pc : s.worker = .top) :
      s.Step .worker { s with worker := if s.shutdown then .stopped else .taking }
  | work {m queue} (pc : s.worker = .taking) (eq : dequeueMessage s.recvQueue = some (m, queue)) :
      s.Step .worker { s with recvQueue := queue, worker := .top }
  | workNothing (pc : s.worker = .taking) : s.Step .worker { s with worker := .top }
  -- `sig_thread`
  | signal (pc : s.sig = .idle) :
      s.Step .sig { s with sig := .sending (clientShuttingDown s.numPacketSent) }
  | flag (pc : s.sig = .flagging) : s.Step .sig { s with shutdown := true, sig := .done }
  | sigSent {m script} (pc : s.sig = .sending m) :
      s.Step (.sigMessage script) { s with sig := .flagging }

section Inversion

variable {s s' : Sys} {l : Label}

theorem Sys.taskStep_inv (h : s.taskStep l = some s') : s.Step l s' := by
  unfold Sys.taskStep at h
  split at h
  next =>
    split at h
    next pc => exact Option.some.inj h ▸ .readNumber pc
    next pc => exact Option.some.inj h ▸ .taskLoop pc
    next pc => exact Option.some.inj h ▸ .taskRoom pc
    next => cases h
  next =>
    split at h
    next pc =>
      obtain ⟨m, made, rfl⟩ := Option.map_eq_some_iff.mp h
      exact .create pc made
    next => cases h
  next => cases h

theorem Sys.sendStep_inv (h : s.sendStep l = some s') : s.Step l s' := by
  unfold Sys.sendStep at h
  split at h
  next =>
    split at h
    next pc => exact Option.some.inj h ▸ .sendLoop pc
    next pc =>
      split at h
      next eq => exact Option.some.inj h ▸ .take pc eq
      next => exact Option.some.inj h ▸ .takeNothing pc
    next pc => exact Option.some.inj h ▸ .count pc
    next => cases h
  next =>
    split at h
    next pc =>
      obtain ⟨ret, -, rfl⟩ := Option.map_eq_some_iff.mp h
      exact .sent pc
    next => cases h
  next => cases h

theorem Sys.recvStep_inv (h : s.recvStep l = some s') : s.Step l s' := by
  unfold Sys.recvStep at h
  split at h
  next =>
    split at h
    next pc => exact Option.some.inj h ▸ .ready pc
    next pc => exact Option.some.inj h ▸ .pollError pc
    next pc _ _ => exact Option.some.inj h ▸ .pollAgain pc
    next => cases h
  next =>
    split at h
    next pc =>
      split at h
      next sum => exact Option.some.inj h ▸ .frame pc sum
      next sum => exact Option.some.inj h ▸ .badFrame pc sum
    next => cases h
  next =>
    split at h
    next pc => exact Option.some.inj h ▸ .nothing pc
    next => cases h
  next =>
    split at h
    next pc => exact Option.some.inj h ▸ .closed pc
    next => cases h
  next =>
    split at h
    next pc =>
      rw [Option.ite_none_right_eq_some, Option.some.injEq] at h
      exact h.2 ▸ .isShutdown pc
    next => cases h
  next =>
    split at h
    next pc => exact Option.some.inj h ▸ .recvLoop pc
    next pc => exact Option.some.inj h ▸ .nack pc
    next pc => exact Option.some.inj h ▸ .nackAgain pc
    next pc => exact Option.some.inj h ▸ .receive pc
    next pc => exact Option.some.inj h ▸ .ack pc
    next pc => exact Option.some.inj h ▸ .store pc
    next pc => exact Option.some.inj h ▸ .ackAgain pc
    next => cases h
  next => cases h

theorem Sys.workStep_inv (h : s.workStep = some s') : s.Step .worker s' := by
  unfold Sys.workStep at h
  split at h
  next pc => exact Option.some.inj h ▸ .workLoop pc
  next pc =>
    split at h
    next eq => exact Option.some.inj h ▸ .work pc eq
    next => exact Option.some.inj h ▸ .workNothing pc
  next => cases h

theorem Sys.sigStep_inv (h : s.sigStep l = some s') : s.Step l s' := by
  unfold Sys.sigStep at h
  split at h
  next =>
    split at h
    next pc => exact Option.some.inj h ▸ .signal pc
    next pc => exact Option.some.inj h ▸ .flag pc
    next => cases h
  next =>
    split at h
    next pc =>
      obtain ⟨ret, -, rfl⟩ := Option.map_eq_some_iff.mp h
      exact .sigSent pc
    next => cases h
  next => cases h

theorem Sys.step_inv (h : s.step l = some s') : s.Step l s' := by
  cases l with
  | task | create => exact Sys.taskStep_inv h
  | send | sendMessage => exact Sys.sendStep_inv h
  | recv | poll | readFrame | readNothing | readClosed | readShutdown => exact Sys.recvStep_inv h
  | worker => exact Sys.workStep_inv h
  | sig | sigMessage => exact Sys.sigStep_inv h

end Inversion

end LinuxMiniProjects.GatewayCli
