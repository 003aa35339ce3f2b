import Mathlib.Data.List.TakeWhile
import LinuxMiniProjects.Lib.Bytes
import LinuxMiniProjects.Pipeline.Mailbox

/-!
The log of `ipc-cmd-pipeline`.

Each task function of the worker writes the 20 bytes of `pri_data` to the
log FIFO, and the logger reads up to 29 bytes at a time, adds a zero and
prints what it has got as a string. The FIFO does not keep the records
apart. If there is one record in it, a read takes this record; but if there
are two, a read takes the first and nine bytes of the second, which do not
show because the string ends with the first, and the next read begins in
the middle of a record.

The logger is added here to the system of the two processes, as one more
thread, with the FIFO as a list of bytes. A record is smaller than
`PIPE_BUF`, so that it is written as a whole.
-/

namespace LinuxMiniProjects.Pipeline

open Machine
open Bytes (cString cString_append_zero)

/-! ### The records -/

/-- The size of the array `pri_data`. -/
def priDataSize : ℕ := 20

def writeRecord (pkt : Packet) : List UInt8 := pkt.priData

def pingTask : Packet → List UInt8 := writeRecord
def getDataTask : Packet → List UInt8 := writeRecord
def sendCmdTask : Packet → List UInt8 := writeRecord
def checkSecTask : Packet → List UInt8 := writeRecord
def checkStatusTask : Packet → List UInt8 := writeRecord

def Task.write : Task → Packet → List UInt8
  | ping => pingTask
  | getData => getDataTask
  | sendCmd => sendCmdTask
  | checkSec => checkSecTask
  | checkStatus => checkStatusTask

def Sys.logged (s : Sys) : Label → List UInt8
  | .work .run =>
      match s.work with
      | .busy pkt => (pkt.cmd.task.map fun task => task.write pkt).getD []
      | _ => []
  | _ => []

def Packet.text (pkt : Packet) : List UInt8 := cString pkt.priData

def Packet.Sized (pkt : Packet) : Prop := pkt.priData.length = priDataSize

/-! ### The logger -/

/-- What the worker leaves as it finds it on the stack, with an array of the
right size. -/
structure Stack extends Leftover where
  sized : data.Sized

/-- The two processes, the log FIFO and the logger: whether it runs, and
what it has printed. -/
structure LogSys where
  sys : Sys
  logFifo : List UInt8
  isRunning : Bool
  printed : List (List UInt8)

def LogSys.init (stack : Stack) : LogSys where
  sys := Sys.init stack.toLeftover
  logFifo := []
  isRunning := true
  printed := []

def bufSize : ℕ := 29

def LogSys.print (s : LogSys) : LogSys :=
  let buf := s.logFifo.take bufSize
  { s with
    logFifo := s.logFifo.drop bufSize
    printed := s.printed ++ [cString (buf ++ [0])] }

/-- A step of the two processes, or a `read` of the logger that returns some
bytes or fails. -/
inductive LogLabel
  | pipe (l : Label)
  | read
  | fail

/-- The array on the stack of `send_cmd` has its size. -/
def Label.sized : Label → Bool
  | .send (.create _ stack) => stack.length = priDataSize
  | _ => true

def LogSys.step (s : LogSys) : LogLabel → Option LogSys
  | .pipe l =>
      if l.sized then
        (s.sys.step l).map fun sys => { s with sys, logFifo := s.logFifo ++ s.sys.logged l }
      else none
  | .read => if s.isRunning && !s.logFifo.isEmpty then some s.print else none
  | .fail => if s.isRunning then some { s with isRunning := false } else none

def LogLabel.reads : LogLabel → Bool
  | read => true
  | _ => false

/-- **The condition.** There is at most one record in the FIFO when the
logger reads. -/
def LogSys.OneAtATime (s : LogSys) (l : LogLabel) : Prop :=
  l.reads = true → s.logFifo.length ≤ priDataSize

instance (s : LogSys) (l : LogLabel) : Decidable (s.OneAtATime l) :=
  inferInstanceAs (Decidable (_ = true → _ ≤ _))

/-! ### The size of the records -/

section Sized

variable {s s' : Sys} {P : Packet → Prop}

structure Sys.AllPackets (P : Packet → Prop) (s : Sys) : Prop where
  send : ∀ pkt ∈ s.send.packets, P pkt
  cmdFifo : ∀ pkt ∈ s.cmdFifo, P pkt
  read : ∀ pkt ∈ s.recv.read, P pkt
  toStore : ∀ pkt ∈ s.recv.toStore, P pkt
  data : P s.worker.data
  inHand : ∀ pkt ∈ s.work.inHand, P pkt

theorem length_strcpy {dst : List UInt8} {src : String} (h : src.toList.length < dst.length) :
    (strcpy dst src).length = dst.length := by
  simp only [strcpy, List.length_append, List.length_map, List.length_drop, List.length_singleton]
  omega

theorem Command.length_text_lt (a : Command) : a.text.toList.length < priDataSize := by
  cases a <;> decide

theorem sized_convertToPacket {a : Command} {pkt : Packet} (h : pkt.Sized) :
    (convertToPacket a pkt).Sized := by
  have hlt : a.text.toList.length < pkt.priData.length := h ▸ a.length_text_lt
  exact (length_strcpy hlt).trans h

theorem Sys.AllPackets.sendStep (h : s.AllPackets P) {l : SendLabel}
    (hcreate : ∀ r stack n, l = .create r stack → P (convertToPacket (cmdRand r) ⟨n, .none, stack⟩))
    (hs : s.SendStep l s') : s'.AllPackets P := by
  have hsend := h.send
  cases hs with
  | enter pc | finish pc =>
      refine { h with send := ?_ }
      dsimp only
      split <;> exact List.forall_mem_nil _
  | create pc => exact { h with send := List.forall_mem_singleton.mpr (hcreate _ _ _ rfl) }
  | @write pkt tryResend ok pc =>
      rw [pc] at hsend
      refine { h with send := hsend, cmdFifo := ?_ }
      cases ok with
      | false => exact h.cmdFifo
      | true => exact List.forall_mem_append.mpr ⟨h.cmdFifo, hsend⟩
  | @test pkt tryResend pc =>
      rw [pc] at hsend
      have hpkt : P pkt := List.forall_mem_singleton.mp hsend
      obtain ⟨-, -, heq⟩ | ⟨-, ⟨-, heq⟩ | ⟨-, heq⟩⟩ := s.test_cases pkt tryResend
      · rw [heq]
        exact { h with send := hsend }
      · rw [heq]
        refine { h with send := ?_ }
        intro pkt' hpkt'
        rw [SendPc.mem_packets_again hpkt']
        exact hpkt
      · rw [heq]
        exact { h with send := List.forall_mem_nil _ }
  | wake pc =>
      rw [pc] at hsend
      exact { h with send := hsend }

theorem Sys.AllPackets.recvStep (h : s.AllPackets P) {l : RecvLabel} (hs : s.RecvStep l s') :
    s'.AllPackets P := by
  have hread := h.read
  have hstore := h.toStore
  have hsignalled : ∀ pkt ∈ s.work.signalled.inHand, P pkt := by
    have heq : s.work.signalled.inHand = s.work.inHand := by cases s.work <;> rfl
    rw [heq]
    exact h.inHand
  cases hs with
  | read pc fifo =>
      have hfifo := h.cmdFifo
      rw [fifo, List.forall_mem_cons] at hfifo
      exact { h with
        cmdFifo := hfifo.2
        read := List.forall_mem_singleton.mpr hfifo.1
        toStore := List.forall_mem_nil _ }
  | eintr pc => exact h
  | ack pc =>
      rw [pc] at hread
      exact { h with read := List.forall_mem_nil _, toStore := hread }
  | store pc =>
      rw [pc] at hstore
      exact { h with
        read := List.forall_mem_nil _
        toStore := List.forall_mem_nil _
        data := List.forall_mem_singleton.mp hstore }
  | @signal last pc =>
      cases last with
      | false | true =>
          exact { h with
            read := List.forall_mem_nil _, toStore := List.forall_mem_nil _, inHand := hsignalled }
  | fail pc =>
      exact { h with
        read := List.forall_mem_nil _, toStore := List.forall_mem_nil _, data := h.data
        inHand := hsignalled }
  | error pc | eof pc | ackFailed pc | close pc =>
      exact { h with
        read := List.forall_mem_nil _, toStore := List.forall_mem_nil _, data := h.data }

theorem Sys.AllPackets.workStep (h : s.AllPackets P) {l : WorkLabel} (hs : s.WorkStep l s') :
    s'.AllPackets P := by
  cases hs with
  | enter pc =>
      refine { h with inHand := ?_ }
      dsimp only
      split <;> exact List.forall_mem_nil _
  | lock pc =>
      obtain ⟨-, -, heq⟩ | ⟨-, -, heq⟩ | ⟨-, heq⟩ := s.take_cases
      · rw [heq]
        exact { h with inHand := List.forall_mem_nil _ }
      · rw [heq]
        exact { h with inHand := List.forall_mem_nil _ }
      · rw [heq]
        exact { h with data := h.data, inHand := List.forall_mem_singleton.mpr h.data }
  | wake pc | run pc => exact { h with inHand := List.forall_mem_nil _ }

/-- Every packet satisfies what the packets of `send_cmd` satisfy, and the
one that is left on the stack. -/
theorem Sys.AllPackets.step (h : s.AllPackets P) {l : Label}
    (hcreate : ∀ r stack n, l = .send (.create r stack) →
      P (convertToPacket (cmdRand r) ⟨n, .none, stack⟩)) (hs : s.step l = some s') :
    s'.AllPackets P := by
  cases l with
  | send l =>
      refine h.sendStep (fun r stack n hl => ?_) (Sys.sendStep_inv hs)
      exact hcreate r stack n (congrArg _ hl)
  | ack l => cases Sys.ackStep_inv hs <;> exact { h with }
  | recv l => exact h.recvStep (Sys.recvStep_inv hs)
  | work l => exact h.workStep (Sys.workStep_inv hs)

end Sized

/-! ### What is printed -/

section Printed

variable {s s' : LogSys}

theorem Sys.executed_step {s s' : Sys} {l : Label} (hs : s.step l = some s') :
    ∃ new : List Packet, (∀ pkt ∈ new, pkt ∈ s.work.inHand) ∧
      s.logged l = new.flatMap writeRecord ∧
      s'.executed.map Prod.snd = s.executed.map Prod.snd ++ new := by
  have hnone : s.logged l = [] → s'.executed = s.executed → ∃ new : List Packet,
      (∀ pkt ∈ new, pkt ∈ s.work.inHand) ∧ s.logged l = new.flatMap writeRecord ∧
      s'.executed.map Prod.snd = s.executed.map Prod.snd ++ new := by
    intro hlogged hexecuted
    exact ⟨[], List.forall_mem_nil _, hlogged, by rw [hexecuted, List.append_nil]⟩
  cases l with
  | send l =>
      refine hnone rfl ?_
      cases Sys.sendStep_inv hs with
      | @test pkt tryResend pc =>
          obtain ⟨-, -, heq⟩ | ⟨-, ⟨-, heq⟩ | ⟨-, heq⟩⟩ := s.test_cases pkt tryResend
          all_goals rw [heq]
      | _ => rfl
  | ack l =>
      refine hnone rfl ?_
      cases Sys.ackStep_inv hs <;> rfl
  | recv l =>
      refine hnone rfl ?_
      cases Sys.recvStep_inv hs <;> rfl
  | work l =>
      cases Sys.workStep_inv hs with
      | lock pc =>
          refine hnone rfl ?_
          obtain ⟨-, -, heq⟩ | ⟨-, -, heq⟩ | ⟨-, heq⟩ := s.take_cases
          all_goals rw [heq]
      | @run pkt pc =>
          cases htask : pkt.cmd.task with
          | none => exact hnone (by simp [Sys.logged, pc, htask]) (by simp [Sys.run, htask])
          | some task =>
              refine ⟨[pkt], ?_, ?_, ?_⟩
              · rw [pc]
                exact fun pkt' hpkt' => hpkt'
              · have hwrite : task.write pkt = writeRecord pkt := by cases task <;> rfl
                simp [Sys.logged, pc, htask, hwrite]
              · simp [Sys.run, htask]
      | _ => exact hnone rfl rfl

/-- The records in the FIFO are those that were executed and not printed
yet. -/
structure LogSys.Faithful (s : LogSys) : Prop where
  packets : s.sys.AllPackets Packet.Sized
  account : ∃ waiting : List Packet, (∀ pkt ∈ waiting, pkt.Sized) ∧
    s.logFifo = waiting.flatMap writeRecord ∧
    s.printed ++ waiting.map Packet.text = (s.sys.executed.map Prod.snd).map Packet.text

theorem LogSys.Faithful.init (stack : Stack) : (LogSys.init stack).Faithful where
  packets :=
    { send := List.forall_mem_nil _
      cmdFifo := List.forall_mem_nil _
      read := List.forall_mem_nil _
      toStore := List.forall_mem_nil _
      data := stack.sized
      inHand := List.forall_mem_nil _ }
  account := ⟨[], List.forall_mem_nil _, rfl, rfl⟩

theorem length_records {waiting : List Packet} (h : ∀ pkt ∈ waiting, pkt.Sized) :
    (waiting.flatMap writeRecord).length = waiting.length * priDataSize := by
  induction waiting with
  | nil => exact (Nat.zero_mul _).symm
  | cons pkt waiting ih =>
      obtain ⟨hpkt, hrest⟩ := List.forall_mem_cons.mp h
      have hlen : (writeRecord pkt).length = priDataSize := hpkt
      rw [List.flatMap_cons, List.length_append, ih hrest, hlen, List.length_cons, Nat.succ_mul,
        Nat.add_comm]

theorem LogSys.Faithful.print (h : s.Faithful) (hne : s.logFifo ≠ [])
    (hone : s.logFifo.length ≤ priDataSize) : s.print.Faithful := by
  obtain ⟨waiting, hsized, hfifo, haccount⟩ := h.account
  refine ⟨h.packets, [], List.forall_mem_nil _, ?_, ?_⟩
  · have hle : s.logFifo.length ≤ bufSize := hone.trans (by decide)
    exact List.drop_eq_nil_of_le hle
  · obtain ⟨pkt, rfl⟩ : ∃ pkt, waiting = [pkt] := by
      have hlen := length_records hsized
      rw [← hfifo] at hlen
      have hpos := List.length_pos_iff.mpr hne
      refine List.length_eq_one_iff.mp ?_
      simp only [priDataSize] at hlen hone
      omega
    have hbuf : s.logFifo.take bufSize = pkt.priData := by
      rw [List.take_of_length_le (hone.trans (by decide)), hfifo]
      exact List.flatMap_singleton ..
    show s.printed ++ [cString (s.logFifo.take bufSize ++ [0])] ++ [] = _
    rw [List.append_nil, hbuf, cString_append_zero]
    exact haccount

theorem LogSys.Faithful.step (h : s.Faithful) {l : LogLabel} (hok : s.OneAtATime l)
    (hs : s.step l = some s') : s'.Faithful := by
  cases l with
  | pipe l =>
      obtain ⟨hl, hs⟩ := (Option.ite_none_right_eq_some ..).mp hs
      obtain ⟨sys, hsys, rfl⟩ := Option.map_eq_some_iff.mp hs
      obtain ⟨new, hnew, hlogged, hexecuted⟩ := Sys.executed_step hsys
      obtain ⟨waiting, hsized, hfifo, haccount⟩ := h.account
      refine ⟨h.packets.step ?_ hsys, waiting ++ new, ?_, ?_, ?_⟩
      · rintro r stack n rfl
        have hstack : stack.length = priDataSize := of_decide_eq_true hl
        exact sized_convertToPacket hstack
      · exact List.forall_mem_append.mpr
          ⟨hsized, fun pkt hpkt => h.packets.inHand pkt (hnew pkt hpkt)⟩
      · show s.logFifo ++ s.sys.logged l = _
        rw [hfifo, hlogged, List.flatMap_append]
      · show s.printed ++ _ = (sys.executed.map Prod.snd).map Packet.text
        rw [hexecuted, List.map_append, List.map_append, ← haccount, List.append_assoc]
  | read =>
      obtain ⟨hread, hs⟩ := (Option.ite_none_right_eq_some ..).mp hs
      obtain rfl := Option.some.inj hs
      rw [Bool.and_eq_true, Bool.not_eq_true', List.isEmpty_eq_false_iff] at hread
      exact h.print hread.2 (hok rfl)
  | fail =>
      obtain ⟨-, hs⟩ := (Option.ite_none_right_eq_some ..).mp hs
      obtain rfl := Option.some.inj hs
      exact ⟨h.packets, h.account⟩

/-- **The log.** If there is at most one record in the FIFO whenever the
logger reads, then what it has printed, followed by the texts of the records
in the FIFO, is the text of each packet that was executed, in order. So once
the FIFO is empty, it has printed one string for each of them. -/
theorem log_prints_records {stack : Stack} {s : LogSys}
    (hs : Reachable LogSys.step LogSys.OneAtATime (LogSys.init stack) s) :
    (∃ waiting : List Packet, s.logFifo = waiting.flatMap Packet.priData ∧
      s.printed ++ waiting.map Packet.text = (s.sys.executed.map Prod.snd).map Packet.text) ∧
      (s.logFifo = [] → s.printed = (s.sys.executed.map Prod.snd).map Packet.text) := by
  have h : s.Faithful := by
    refine hs.invariant (.init stack) ?_
    intro s l s' h hok hstep
    exact h.step hok hstep
  obtain ⟨waiting, hsized, hfifo, haccount⟩ := h.account
  refine ⟨⟨waiting, hfifo, haccount⟩, fun hempty => ?_⟩
  have hlen := length_records hsized
  rw [← hfifo, hempty, List.length_nil] at hlen
  obtain rfl : waiting = [] := by
    refine List.length_eq_zero_iff.mp ?_
    simp only [priDataSize] at hlen
    omega
  rw [← haccount, List.map_nil, List.append_nil]

def zeros : List UInt8 := List.replicate priDataSize 0

def zeroStack : Stack where
  ackSend := 0
  ackReceived := false
  hasNewData := false
  data := ⟨0, .none, zeros⟩
  sized := rfl

/-- A packet with the command `PING`, from `send_cmd` to the log. -/
def onePing : List LogLabel :=
  [.pipe (.send (.create 0 zeros)), .pipe (.send (.write true)), .pipe (.recv (.read .data)),
    .pipe (.recv (.ack true)), .pipe (.recv .store), .pipe (.recv .signal), .pipe (.work .lock),
    .pipe (.work .run)]

/-- `send_cmd` gets the acknowledgement. -/
def oneAck : List LogLabel :=
  [.pipe (.ack (.read .data)), .pipe (.ack .store), .pipe (.send .test), .pipe (.send .finish)]

/-- Both threads have looked at `is_running`. -/
def entered : List LogLabel := [.pipe (.send .enter), .pipe (.work .enter)]

def pingText : List UInt8 := Bytes.ofString Command.ping.text

theorem log_prints_records_twice :
    ∃ s, Reachable LogSys.step LogSys.OneAtATime (LogSys.init zeroStack) s ∧ s.logFifo = [] ∧
      s.printed = (s.sys.executed.map Prod.snd).map Packet.text ∧
      s.printed = [pingText, pingText] := by
  have hrun : (runs (guarded LogSys.step LogSys.OneAtATime) (LogSys.init zeroStack)
      (List.flatten [entered, onePing, [.read], oneAck, onePing, [.read]])).map
      (fun s => (s.logFifo, s.printed)) = some ([], [pingText, pingText]) := by
    decide +kernel
  obtain ⟨s, hreach, hobs⟩ := Reachable.exists_of_runs hrun
  obtain ⟨hempty, hprinted⟩ := Prod.mk.injEq .. ▸ hobs
  exact ⟨s, hreach, hempty, (log_prints_records hreach).2 hempty, hprinted⟩

/-- The logger reads when there are two records in the FIFO. Of the second
one it prints only the end. -/
theorem log_cuts_record :
    ∃ s, Reachable LogSys.step (fun _ _ => True) (LogSys.init zeroStack) s ∧ s.logFifo = [] ∧
      (s.sys.executed.map Prod.snd).map Packet.text = [pingText, pingText] ∧
      s.printed = [pingText, Bytes.ofString "NG"] := by
  have hrun : (runs (guarded LogSys.step fun _ _ => True) (LogSys.init zeroStack)
      (List.flatten [entered, onePing, oneAck, onePing, [.read, .read]])).map
      (fun s => (s.logFifo, (s.sys.executed.map Prod.snd).map Packet.text, s.printed)) =
        some ([], [pingText, pingText], [pingText, Bytes.ofString "NG"]) := by
    decide +kernel
  obtain ⟨s, hreach, hobs⟩ := Reachable.exists_of_runs hrun
  simp only [Prod.mk.injEq] at hobs
  exact ⟨s, hreach, hobs⟩

end Printed

end LinuxMiniProjects.Pipeline
