import Mathlib.Tactic
import LinuxMiniProjects.Lib.Machine

/-!
The controller and the worker of `ipc-cmd-pipeline`, and the two FIFOs
between them.

The controller numbers its packets, writes one to the command FIFO and
waits for an acknowledgement before it goes on (`send_cmd`); another of its
threads reads the acknowledgements (`recv_ack_thread`). In the worker one
thread reads packets and acknowledges each of them before it puts it into
a mailbox (`recv_data_thread`), and another one takes them out and runs
them (`worker_thread`). The mailbox has room for one packet.

A packet is smaller than `PIPE_BUF`, so that `read` and `write` move whole
packets and a FIFO is a list. All that two threads share is read and
written under a mutex, so a critical section is one step. The timed wait
of `send_cmd` may return at any time, and its result is not looked at.

Both programs start their threads before they have written to all fields
of `thread_data`; what lies in the others is a parameter of the initial
state. `last_send` is an `int`: the program does not send more than
`INT_MAX` packets.
-/

namespace LinuxMiniProjects.Pipeline

open Machine

/-! ### Packets -/

inductive Command
  | ping
  | getData
  | sendCmd
  | checkSec
  | checkStatus
  | none
deriving DecidableEq, Repr

structure Packet where
  numPkt : ℤ
  cmd : Command
  priData : List UInt8
deriving DecidableEq, Repr

structure AckData where
  numPkt : ℤ
  ack : Bool
deriving DecidableEq, Repr

/-- `cmd_rand`, for what `rand` has returned. -/
def cmdRand (r : ℕ) : Command :=
  match r % 4 with
  | 0 => .ping
  | 1 => .getData
  | 2 => .sendCmd
  | 3 => .checkSec
  | 4 => .checkStatus
  | _ => .none

/-- The string is copied with its final zero; what lies behind it stays. -/
def strcpy (dst : List UInt8) (src : String) : List UInt8 :=
  let bytes := src.toList.map (fun c => UInt8.ofNat c.toNat) ++ [0]
  bytes ++ dst.drop bytes.length

def Command.text : Command → String
  | ping => "CMD 0: PING"
  | getData => "CMD 2: GET_DATA"
  | sendCmd => "CMD 0: SEND_CMD"
  | checkSec => "CMD 0: CHECK_SEC"
  | checkStatus => "CMD 0: CHECK_STATUS"
  | none => "CMD UNDEFINED"

def convertToPacket (a : Command) (pkt : Packet) : Packet :=
  { pkt with cmd := a, priData := strcpy pkt.priData a.text }

/-- The task functions of the worker. Each writes the data of its packet to
the log. -/
inductive Task
  | ping
  | getData
  | sendCmd
  | checkSec
  | checkStatus
deriving DecidableEq, Repr

/-- The `switch` of `worker_thread`. -/
def Command.task : Command → Option Task
  | ping => some .ping
  | getData => some .getData
  | sendCmd => some .sendCmd
  | checkSec => some .checkSec
  | checkStatus => some .checkStatus
  | none => Option.none

/-! ### The state -/

def resendNum : ℕ := 3

structure Controller where
  lastSend : ℤ
  ackSend : ℤ
  isRunning : Bool
  ackReceived : Bool
deriving DecidableEq, Repr

/-- Where `send_cmd` is. A packet stands with the number of times it has
been written. -/
inductive SendPc
  | entering
  | creating
  | writing (pkt : Packet) (tryResend : ℕ)
  | testing (pkt : Packet) (tryResend : ℕ)
  | waiting (pkt : Packet) (tryResend : ℕ)
  | ending
  | stopped
deriving DecidableEq, Repr

/-- The packet `send_cmd` is busy with. -/
def SendPc.packets : SendPc → List Packet
  | writing pkt _ | testing pkt _ | waiting pkt _ => [pkt]
  | _ => []

inductive AckPc
  | reading
  | storing (ack : AckData)
  | ending (last : Bool)
  | stopped
deriving DecidableEq, Repr

structure Worker where
  isRunning : Bool
  hasNewData : Bool
  data : Packet
deriving DecidableEq, Repr

inductive RecvPc
  | reading
  | acking (pkt : Packet)
  | storing (pkt : Packet)
  | signalling (last : Bool)
  | failing
  | closing
  | stopped
deriving DecidableEq, Repr

inductive WorkPc
  | entering
  | locking
  | waiting
  | busy (pkt : Packet)
  | stopped
deriving DecidableEq, Repr

/-- The two processes and the FIFOs. The last five fields are a history
that no step reads: the packets that `send_cmd` has written, the numbers
it took for acknowledged, the packets the worker has read and those it has
acknowledged, and the calls of task functions. -/
structure Sys where
  controller : Controller
  send : SendPc
  ack : AckPc
  cmdFifo : List Packet
  ackFifo : List AckData
  worker : Worker
  recv : RecvPc
  work : WorkPc
  written : List Packet
  confirmed : List ℤ
  received : List Packet
  acked : List Packet
  executed : List (Task × Packet)
deriving DecidableEq, Repr

structure Leftover where
  ackSend : ℤ
  ackReceived : Bool
  hasNewData : Bool
  data : Packet
deriving DecidableEq, Repr

def Sys.init (stack : Leftover) : Sys where
  controller :=
    { lastSend := 0, ackSend := stack.ackSend, isRunning := true
      ackReceived := stack.ackReceived }
  send := .entering
  ack := .reading
  cmdFifo := []
  ackFifo := []
  worker := { isRunning := true, hasNewData := stack.hasNewData, data := stack.data }
  recv := .reading
  work := .entering
  written := []
  confirmed := []
  received := []
  acked := []
  executed := []

/-! ### What the threads do -/

/-- What `read` returns: the oldest entry of a FIFO, `-1` with `EINTR`, `-1`
with another error, or zero. -/
inductive ReadRes
  | data
  | eintr
  | error
  | eof
deriving DecidableEq, Repr

/-- Behind the loop of `send_cmd`, or in its next turn. -/
def SendPc.again (pkt : Packet) (tryResend : ℕ) : SendPc :=
  if tryResend < resendNum then .writing pkt tryResend else .ending

/-- The next packet of `send_cmd`; `stack` is what lies in the array. -/
def Sys.create (s : Sys) (r : ℕ) (stack : List UInt8) : Sys :=
  let n := s.controller.lastSend + 1
  { s with
    controller := { s.controller with lastSend := n }
    send := .writing (convertToPacket (cmdRand r) ⟨n, .none, stack⟩) 0 }

def Sys.write (s : Sys) (pkt : Packet) (tryResend : ℕ) (ok : Bool) : Sys :=
  { s with
    cmdFifo := if ok then s.cmdFifo ++ [pkt] else s.cmdFifo
    written := s.written ++ [pkt]
    send := .testing pkt (tryResend + 1) }

/-- `send_cmd` with the mutex: it waits, or it takes what has come for the
acknowledgement of its packet if the number is right. -/
def Sys.test (s : Sys) (pkt : Packet) (tryResend : ℕ) : Sys :=
  let c := s.controller
  if !c.ackReceived && c.isRunning then { s with send := .waiting pkt tryResend }
  else if c.lastSend ≠ c.ackSend then
    { s with
      controller := { c with ackReceived := false }
      send := .again pkt tryResend }
  else
    { s with
      controller := { c with ackReceived := false }
      confirmed := s.confirmed ++ [pkt.numPkt]
      send := .ending }

/-- `worker_thread` with the mutex. -/
def Sys.take (s : Sys) : Sys :=
  let w := s.worker
  if !w.hasNewData && w.isRunning then { s with work := .waiting }
  else if !w.isRunning && !w.hasNewData then { s with work := .stopped }
  else { s with worker := { w with hasNewData := false }, work := .busy w.data }

/-- `worker_thread` runs the packet it has taken. -/
def Sys.run (s : Sys) (pkt : Packet) : Sys :=
  { s with
    executed :=
      match pkt.cmd.task with
      | some task => s.executed ++ [(task, pkt)]
      | none => s.executed
    work := .locking }

/-- `pthread_cond_signal` on `has_data`, for which only `worker_thread`
waits. -/
def WorkPc.signalled : WorkPc → WorkPc
  | waiting => locking
  | pc => pc

/-! ### Steps -/

inductive SendLabel
  | enter
  | create (r : ℕ) (stack : List UInt8)
  | write (ok : Bool)
  | test
  /-- The timed wait returns. -/
  | wake
  | finish
deriving DecidableEq, Repr

inductive AckLabel
  | read (res : ReadRes)
  | store
  | finish
deriving DecidableEq, Repr

inductive RecvLabel
  | read (res : ReadRes)
  | ack (ok : Bool)
  | store
  | signal
  | finish
deriving DecidableEq, Repr

inductive WorkLabel
  | enter
  | lock
  /-- `pthread_cond_wait` returns without a signal. -/
  | wake
  | run
deriving DecidableEq, Repr

inductive Label
  | send (l : SendLabel)
  | ack (l : AckLabel)
  | recv (l : RecvLabel)
  | work (l : WorkLabel)
deriving DecidableEq, Repr

def intMax : ℤ := 2 ^ 31 - 1

def Sys.sendStep (s : Sys) (l : SendLabel) : Option Sys :=
  match s.send, l with
  | .entering, .enter =>
      some { s with send := if s.controller.isRunning then .creating else .stopped }
  | .creating, .create r stack =>
      if s.controller.lastSend < intMax then some (s.create r stack) else none
  | .writing pkt tryResend, .write ok => some (s.write pkt tryResend ok)
  | .testing pkt tryResend, .test => some (s.test pkt tryResend)
  | .waiting pkt tryResend, .wake => some { s with send := .testing pkt tryResend }
  | .ending, .finish =>
      some { s with send := if s.controller.isRunning then .creating else .stopped }
  | _, _ => none

def Sys.ackStep (s : Sys) (l : AckLabel) : Option Sys :=
  match s.ack, l with
  | .reading, .read .data =>
      match s.ackFifo with
      | [] => none
      | ack :: rest => some { s with ackFifo := rest, ack := .storing ack }
  | .reading, .read .eintr => some s
  -- the thread ends after an error, but not at the end of the FIFO
  | .reading, .read .error => some { s with ack := .ending true }
  | .reading, .read .eof => some { s with ack := .ending false }
  | .storing ack, .store =>
      some { s with
        controller := { s.controller with ackSend := ack.numPkt, ackReceived := true }
        ack := .reading }
  | .ending last, .finish =>
      some { s with
        controller := { s.controller with isRunning := false }
        ack := if last then .stopped else .reading }
  | _, _ => none

def Sys.recvStep (s : Sys) (l : RecvLabel) : Option Sys :=
  match s.recv, l with
  | .reading, .read .data =>
      match s.cmdFifo with
      | [] => none
      | pkt :: rest =>
          some { s with cmdFifo := rest, received := s.received ++ [pkt], recv := .acking pkt }
  | .reading, .read .eintr => some s
  | .reading, .read .error => some { s with recv := .failing }
  | .reading, .read .eof => some { s with recv := .closing }
  | .acking pkt, .ack true =>
      some { s with
        ackFifo := s.ackFifo ++ [⟨pkt.numPkt, true⟩]
        acked := s.acked ++ [pkt]
        recv := .storing pkt }
  | .acking _, .ack false => some { s with recv := .reading }
  | .storing pkt, .store =>
      some { s with
        worker := { s.worker with hasNewData := true, data := pkt }
        recv := .signalling false }
  | .signalling last, .signal =>
      some { s with work := s.work.signalled, recv := if last then .stopped else .reading }
  | .failing, .finish =>
      some { s with
        worker := { s.worker with isRunning := false }
        work := s.work.signalled
        recv := .stopped }
  | .closing, .finish =>
      some { s with
        worker := { s.worker with isRunning := false }
        recv := .signalling true }
  | _, _ => none

def Sys.workStep (s : Sys) (l : WorkLabel) : Option Sys :=
  match s.work, l with
  | .entering, .enter =>
      some { s with work := if s.worker.isRunning then .locking else .stopped }
  | .locking, .lock => some s.take
  | .waiting, .wake => some { s with work := .locking }
  | .busy pkt, .run => some (s.run pkt)
  | _, _ => none

def Sys.step (s : Sys) : Label → Option Sys
  | .send l => s.sendStep l
  | .ack l => s.ackStep l
  | .recv l => s.recvStep l
  | .work l => s.workStep l

/-! ### The steps as a relation -/

inductive Sys.SendStep (s : Sys) : SendLabel → Sys → Prop
  | enter (pc : s.send = .entering) :
      s.SendStep .enter
        { s with send := if s.controller.isRunning then .creating else .stopped }
  | create {r stack} (pc : s.send = .creating) : s.SendStep (.create r stack) (s.create r stack)
  | write {pkt tryResend ok} (pc : s.send = .writing pkt tryResend) :
      s.SendStep (.write ok) (s.write pkt tryResend ok)
  | test {pkt tryResend} (pc : s.send = .testing pkt tryResend) :
      s.SendStep .test (s.test pkt tryResend)
  | wake {pkt tryResend} (pc : s.send = .waiting pkt tryResend) :
      s.SendStep .wake { s with send := .testing pkt tryResend }
  | finish (pc : s.send = .ending) :
      s.SendStep .finish
        { s with send := if s.controller.isRunning then .creating else .stopped }

theorem Sys.test_cases (s : Sys) (pkt : Packet) (tryResend : ℕ) :
    s.controller.ackReceived = false ∧ s.controller.isRunning = true ∧
      s.test pkt tryResend = { s with send := .waiting pkt tryResend } ∨
    (s.controller.isRunning = true → s.controller.ackReceived = true) ∧
      (s.controller.lastSend ≠ s.controller.ackSend ∧
        s.test pkt tryResend = { s with
          controller := { s.controller with ackReceived := false }
          send := .again pkt tryResend } ∨
      s.controller.lastSend = s.controller.ackSend ∧
        s.test pkt tryResend = { s with
          controller := { s.controller with ackReceived := false }
          confirmed := s.confirmed ++ [pkt.numPkt]
          send := .ending }) := by
  unfold Sys.test
  dsimp only
  split
  next hwait =>
    rw [Bool.and_eq_true, Bool.not_eq_true'] at hwait
    exact .inl ⟨hwait.1, hwait.2, rfl⟩
  next hgo =>
    have hack : s.controller.isRunning = true → s.controller.ackReceived = true := by
      intro hrun
      simpa [hrun] using hgo
    split
    next hne => exact .inr ⟨hack, .inl ⟨hne, rfl⟩⟩
    next heq => exact .inr ⟨hack, .inr ⟨not_not.mp heq, rfl⟩⟩

theorem Sys.take_cases (s : Sys) :
    s.worker.hasNewData = false ∧ s.worker.isRunning = true ∧
      s.take = { s with work := .waiting } ∨
    s.worker.hasNewData = false ∧ s.worker.isRunning = false ∧
      s.take = { s with work := .stopped } ∨
    s.worker.hasNewData = true ∧ s.take = { s with
      worker := { s.worker with hasNewData := false }, work := .busy s.worker.data } := by
  unfold Sys.take
  dsimp only
  split
  next hwait =>
    rw [Bool.and_eq_true, Bool.not_eq_true'] at hwait
    exact .inl ⟨hwait.1, hwait.2, rfl⟩
  next hgo =>
    split
    next hstop =>
      rw [Bool.and_eq_true, Bool.not_eq_true', Bool.not_eq_true'] at hstop
      exact .inr (.inl ⟨hstop.2, hstop.1, rfl⟩)
    next hstay =>
      refine .inr (.inr ⟨?_, rfl⟩)
      cases hrun : s.worker.isRunning with
      | true => simpa [hrun] using hgo
      | false => simpa [hrun] using hstay

inductive Sys.AckStep (s : Sys) : AckLabel → Sys → Prop
  | read {ack rest} (pc : s.ack = .reading) (fifo : s.ackFifo = ack :: rest) :
      s.AckStep (.read .data) { s with ackFifo := rest, ack := .storing ack }
  | eintr (pc : s.ack = .reading) : s.AckStep (.read .eintr) s
  | error (pc : s.ack = .reading) : s.AckStep (.read .error) { s with ack := .ending true }
  | eof (pc : s.ack = .reading) : s.AckStep (.read .eof) { s with ack := .ending false }
  | store {ack} (pc : s.ack = .storing ack) :
      s.AckStep .store { s with
        controller := { s.controller with ackSend := ack.numPkt, ackReceived := true }
        ack := .reading }
  | finish {last} (pc : s.ack = .ending last) :
      s.AckStep .finish { s with
        controller := { s.controller with isRunning := false }
        ack := if last then .stopped else .reading }

inductive Sys.RecvStep (s : Sys) : RecvLabel → Sys → Prop
  | read {pkt rest} (pc : s.recv = .reading) (fifo : s.cmdFifo = pkt :: rest) :
      s.RecvStep (.read .data)
        { s with cmdFifo := rest, received := s.received ++ [pkt], recv := .acking pkt }
  | eintr (pc : s.recv = .reading) : s.RecvStep (.read .eintr) s
  | error (pc : s.recv = .reading) : s.RecvStep (.read .error) { s with recv := .failing }
  | eof (pc : s.recv = .reading) : s.RecvStep (.read .eof) { s with recv := .closing }
  | ack {pkt} (pc : s.recv = .acking pkt) :
      s.RecvStep (.ack true) { s with
        ackFifo := s.ackFifo ++ [⟨pkt.numPkt, true⟩]
        acked := s.acked ++ [pkt]
        recv := .storing pkt }
  | ackFailed {pkt} (pc : s.recv = .acking pkt) :
      s.RecvStep (.ack false) { s with recv := .reading }
  | store {pkt} (pc : s.recv = .storing pkt) :
      s.RecvStep .store { s with
        worker := { s.worker with hasNewData := true, data := pkt }
        recv := .signalling false }
  | signal {last} (pc : s.recv = .signalling last) :
      s.RecvStep .signal
        { s with work := s.work.signalled, recv := if last then .stopped else .reading }
  | fail (pc : s.recv = .failing) :
      s.RecvStep .finish { s with
        worker := { s.worker with isRunning := false }
        work := s.work.signalled
        recv := .stopped }
  | close (pc : s.recv = .closing) :
      s.RecvStep .finish { s with
        worker := { s.worker with isRunning := false }
        recv := .signalling true }

inductive Sys.WorkStep (s : Sys) : WorkLabel → Sys → Prop
  | enter (pc : s.work = .entering) :
      s.WorkStep .enter { s with work := if s.worker.isRunning then .locking else .stopped }
  | lock (pc : s.work = .locking) : s.WorkStep .lock s.take
  | wake (pc : s.work = .waiting) : s.WorkStep .wake { s with work := .locking }
  | run {pkt} (pc : s.work = .busy pkt) : s.WorkStep .run (s.run pkt)

section Inversion

variable {s s' : Sys}

theorem Sys.sendStep_inv {l : SendLabel} (h : s.sendStep l = some s') : s.SendStep l s' := by
  unfold Sys.sendStep at h
  split at h
  next pc => exact Option.some.inj h ▸ .enter pc
  next pc =>
    rw [Option.ite_none_right_eq_some, Option.some.injEq] at h
    exact h.2 ▸ .create pc
  next pc => exact Option.some.inj h ▸ .write pc
  next pc => exact Option.some.inj h ▸ .test pc
  next pc => exact Option.some.inj h ▸ .wake pc
  next pc => exact Option.some.inj h ▸ .finish pc
  next => cases h

theorem Sys.ackStep_inv {l : AckLabel} (h : s.ackStep l = some s') : s.AckStep l s' := by
  unfold Sys.ackStep at h
  split at h
  next pc =>
    split at h
    next => cases h
    next fifo => exact Option.some.inj h ▸ .read pc fifo
  next pc => exact Option.some.inj h ▸ .eintr pc
  next pc => exact Option.some.inj h ▸ .error pc
  next pc => exact Option.some.inj h ▸ .eof pc
  next pc => exact Option.some.inj h ▸ .store pc
  next pc => exact Option.some.inj h ▸ .finish pc
  next => cases h

theorem Sys.recvStep_inv {l : RecvLabel} (h : s.recvStep l = some s') : s.RecvStep l s' := by
  unfold Sys.recvStep at h
  split at h
  next pc =>
    split at h
    next => cases h
    next fifo => exact Option.some.inj h ▸ .read pc fifo
  next pc => exact Option.some.inj h ▸ .eintr pc
  next pc => exact Option.some.inj h ▸ .error pc
  next pc => exact Option.some.inj h ▸ .eof pc
  next pc => exact Option.some.inj h ▸ .ack pc
  next pc => exact Option.some.inj h ▸ .ackFailed pc
  next pc => exact Option.some.inj h ▸ .store pc
  next pc => exact Option.some.inj h ▸ .signal pc
  next pc => exact Option.some.inj h ▸ .fail pc
  next pc => exact Option.some.inj h ▸ .close pc
  next => cases h

theorem Sys.workStep_inv {l : WorkLabel} (h : s.workStep l = some s') : s.WorkStep l s' := by
  unfold Sys.workStep at h
  split at h
  next pc => exact Option.some.inj h ▸ .enter pc
  next pc => exact Option.some.inj h ▸ .lock pc
  next pc => exact Option.some.inj h ▸ .wake pc
  next pc => exact Option.some.inj h ▸ .run pc
  next => cases h

end Inversion

end LinuxMiniProjects.Pipeline
