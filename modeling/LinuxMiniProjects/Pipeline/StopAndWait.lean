import Mathlib.Algebra.Order.Group.Multiset
import LinuxMiniProjects.Pipeline.Mailbox

/-!
Stop and wait.

A packet or the acknowledgement for it is in one place at a time: in the
command FIFO, in the hands of `recv_data_thread`, in the FIFO of the
acknowledgements, in the hands of `recv_ack_thread`, or stored as
`ack_send` with `ack_received` set. While `send_cmd` waits there is at most
one such number, that of its packet; while it does not wait there is none.
So what `send_cmd` finds is the answer to its packet, and it never writes a
packet twice.

This rests on `ack_received` being false when the threads start. `main`
does not initialise the field, and a true value is taken for an
acknowledgement of the first packet.
-/

namespace LinuxMiniProjects.Pipeline

open Machine

/-- **The condition** on the steps. The `read` of `recv_ack_thread` does not
fail, and does not come to the end of the FIFO. -/
def Label.answersRead : Label → Bool
  | .ack (.read .error) | .ack (.read .eof) => false
  | _ => true

/-! ### Where the numbers are -/

def numbers (k : ℕ) : List ℤ := (List.range k).map fun i => (i : ℤ) + 1

theorem numbers_succ (k : ℕ) : numbers (k + 1) = numbers k ++ [(k : ℤ) + 1] := by
  simp [numbers, List.range_succ]

/-- The number `send_cmd` waits for. -/
def SendPc.awaited : SendPc → Multiset ℤ
  | testing pkt _ | waiting pkt _ => {pkt.numPkt}
  | _ => 0

theorem SendPc.card_awaited (pc : SendPc) : pc.awaited.card ≤ 1 := by
  cases pc <;> simp [awaited]

def SendPc.unwritten : SendPc → ℕ
  | writing _ _ => 1
  | _ => 0

def RecvPc.answering : RecvPc → Multiset ℤ
  | acking pkt => {pkt.numPkt}
  | _ => 0

def AckPc.held : AckPc → Multiset ℤ
  | storing ack => {ack.numPkt}
  | _ => 0

def Controller.arrived (c : Controller) : Multiset ℤ := if c.ackReceived then {c.ackSend} else 0

/-- The numbers of the acknowledgements that `send_cmd` has not seen. -/
def Sys.answers (s : Sys) : Multiset ℤ :=
  ↑(s.ackFifo.map AckData.numPkt) + s.ack.held + s.controller.arrived

/-- The numbers of the packets and acknowledgements that are on their
way. -/
def Sys.travelling (s : Sys) : Multiset ℤ :=
  ↑(s.cmdFifo.map Packet.numPkt) + s.recv.answering + s.answers

/-- `recv_ack_thread` has not met an error. -/
def AckPc.sound : AckPc → Bool
  | ending _ | stopped => false
  | _ => true

structure Sys.InStep (s : Sys) : Prop where
  running : s.controller.isRunning = true
  sound : s.ack.sound = true
  numbered : ∀ pkt ∈ s.send.packets, pkt.numPkt = s.controller.lastSend
  travelling : s.travelling ≤ s.send.awaited
  answered : ∀ n ∈ s.recv.answering + s.answers, n ∈ s.received.map Packet.numPkt
  confirmed : ∀ n ∈ s.confirmed, n ∈ s.received.map Packet.numPkt
  written : s.written.map Packet.numPkt = numbers s.written.length
  lastSend : s.controller.lastSend = s.written.length + s.send.unwritten

section Steps

variable {s s' : Sys}

theorem Sys.InStep.init {stack : Leftover} (h : stack.ackReceived = false) :
    (Sys.init stack).InStep where
  running := rfl
  sound := rfl
  numbered pkt hpkt := by cases hpkt
  travelling := by
    simp [Sys.init, Sys.travelling, Sys.answers, RecvPc.answering, AckPc.held,
      Controller.arrived, h]
  answered n hn := by
    simp [Sys.init, Sys.answers, RecvPc.answering, AckPc.held, Controller.arrived, h] at hn
  confirmed n hn := by cases hn
  written := rfl
  lastSend := rfl

theorem Sys.InStep.ackSend_eq (h : s.InStep) {pkt : Packet} {t : ℕ}
    (pc : s.send = .testing pkt t) (hack : s.controller.ackReceived = true) :
    s.controller.ackSend = pkt.numPkt := by
  have hmem : s.controller.ackSend ∈ s.travelling := by
    simp [Sys.travelling, Sys.answers, Controller.arrived, hack]
  have hmem' := Multiset.mem_of_le h.travelling hmem
  rw [pc] at hmem'
  exact Multiset.mem_singleton.mp hmem'

theorem Sys.InStep.travelling_erase (h : s.InStep) {pkt : Packet} {t : ℕ}
    (pc : s.send = .testing pkt t) (hack : s.controller.ackReceived = true) :
    ({ s with controller := { s.controller with ackReceived := false } } : Sys).travelling = 0 := by
  have hsplit : s.travelling =
      ({ s with controller := { s.controller with ackReceived := false } } : Sys).travelling +
        {pkt.numPkt} := by
    simp [Sys.travelling, Sys.answers, Controller.arrived, hack, h.ackSend_eq pc hack, add_assoc]
  have hle : s.travelling ≤ 0 + {pkt.numPkt} := by simpa [pc, SendPc.awaited] using h.travelling
  rw [hsplit] at hle
  exact Multiset.le_zero.mp (le_of_add_le_add_right hle)

theorem Sys.InStep.of_send (h : s.InStep) {send : SendPc}
    (hpackets : ∀ pkt ∈ send.packets, pkt.numPkt = s.controller.lastSend)
    (hawaited : send.awaited = s.send.awaited) (hunwritten : send.unwritten = s.send.unwritten) :
    ({ s with send } : Sys).InStep :=
  { h with
    numbered := hpackets
    travelling := h.travelling.trans_eq hawaited.symm
    lastSend := h.lastSend.trans (congrArg _ (congrArg _ hunwritten.symm)) }

theorem Sys.InStep.test (h : s.InStep) {pkt : Packet} {t : ℕ} (pc : s.send = .testing pkt t) :
    (s.test pkt t).InStep := by
  have hnumbered : pkt.numPkt = s.controller.lastSend :=
    h.numbered pkt (by simp [pc, SendPc.packets])
  obtain ⟨-, -, heq⟩ | ⟨hack, ⟨hne, -⟩ | ⟨-, heq⟩⟩ := s.test_cases pkt t
  · rw [heq]
    exact h.of_send (List.forall_mem_singleton.mpr hnumbered) (by rw [pc]; rfl) (by rw [pc]; rfl)
  · -- an answer with another number would be one that `send_cmd` does not wait for
    exact absurd (hnumbered.symm.trans (h.ackSend_eq pc (hack h.running)).symm) hne
  · rw [heq]
    have hlast := h.lastSend
    rw [pc] at hlast
    have hanswer : pkt.numPkt ∈ s.answers := by
      simp [Sys.answers, Controller.arrived, hack h.running, h.ackSend_eq pc (hack h.running)]
    have hread := h.answered _ (Multiset.mem_add.mpr (.inr hanswer))
    refine { h with
      numbered := fun _ hpkt => by cases hpkt
      travelling := ?_
      answered := ?_
      confirmed := List.forall_mem_append.mpr ⟨h.confirmed, List.forall_mem_singleton.mpr hread⟩
      lastSend := hlast }
    · exact (h.travelling_erase pc (hack h.running)).le
    · intro n hn
      refine h.answered n ?_
      simp [Sys.answers, Controller.arrived] at hn ⊢
      exact hn.imp_right .inl

theorem Sys.InStep.sendStep {l : SendLabel} (h : s.InStep) (hs : s.SendStep l s') : s'.InStep := by
  cases hs with
  | enter pc | finish pc =>
      rw [if_pos h.running]
      exact h.of_send (fun _ hpkt => by cases hpkt) (by rw [pc]; rfl) (by rw [pc]; rfl)
  | wake pc =>
      have hnumbered := h.numbered
      rw [pc] at hnumbered
      exact h.of_send hnumbered (by rw [pc]; rfl) (by rw [pc]; rfl)
  | create pc =>
      have hlast := h.lastSend
      have htravelling := h.travelling
      rw [pc] at hlast htravelling
      refine { h with numbered := ?_, travelling := htravelling, lastSend := ?_ }
      · exact List.forall_mem_singleton.mpr rfl
      · simp [Sys.create, hlast, SendPc.unwritten]
  | @write pkt t ok pc =>
      have hlast := h.lastSend
      have hnumbered : pkt.numPkt = s.controller.lastSend :=
        h.numbered pkt (by simp [pc, SendPc.packets])
      have htravelling : s.travelling = 0 := by
        simpa [pc, SendPc.awaited] using h.travelling
      rw [pc] at hlast
      refine { h with numbered := ?_, travelling := ?_, written := ?_, lastSend := ?_ }
      · exact List.forall_mem_singleton.mpr hnumbered
      · -- there is nothing on the way until the packet is written
        cases ok with
        | true =>
            simp [Sys.write, Sys.travelling, Sys.answers, SendPc.awaited] at htravelling ⊢
            simp [htravelling]
        | false =>
            exact htravelling.le.trans (Multiset.zero_le _)
      · simp [Sys.write, h.written, numbers_succ, hnumbered, hlast, SendPc.unwritten]
      · simp [Sys.write, hlast, SendPc.unwritten]
  | test pc => exact h.test pc

theorem Sys.InStep.ackStep {l : AckLabel} (h : s.InStep) (hs : s.AckStep l s')
    (hok : (Label.ack l).answersRead = true) : s'.InStep := by
  have hsound := h.sound
  cases hs with
  | @read ack rest pc fifo =>
      have hmoved : s.answers =
          ({ s with ackFifo := rest, ack := .storing ack } : Sys).answers := by
        simp only [Sys.answers, fifo, pc, AckPc.held, List.map_cons, ← Multiset.cons_coe,
          ← Multiset.singleton_add]
        abel
      refine { h with sound := rfl, travelling := ?_, answered := ?_ }
      · simpa only [Sys.travelling, hmoved] using h.travelling
      · simpa only [hmoved] using h.answered
  | eintr pc => exact h
  | error pc => cases hok
  | eof pc => cases hok
  | @store ack pc =>
      -- nothing can have arrived before
      have harrived : s.controller.ackReceived = false := by
        by_contra hack
        rw [Bool.not_eq_false] at hack
        have hcard := (Multiset.card_le_card h.travelling).trans s.send.card_awaited
        simp [Sys.travelling, Sys.answers, pc, AckPc.held, Controller.arrived, hack] at hcard
        omega
      have hmoved : s.answers =
          ({ s with
            controller := { s.controller with ackSend := ack.numPkt, ackReceived := true }
            ack := .reading } : Sys).answers := by
        simp [Sys.answers, pc, AckPc.held, Controller.arrived, harrived]
      refine { h with sound := rfl, travelling := ?_, answered := ?_ }
      · simpa only [Sys.travelling, hmoved] using h.travelling
      · simpa only [hmoved] using h.answered
  | finish pc => simp [pc, AckPc.sound] at hsound

theorem Sys.InStep.of_worker (h : s.InStep) {worker : Worker} {recv : RecvPc} {work : WorkPc}
    {executed : List (Task × Packet)} (hrecv : recv.answering = s.recv.answering) :
    ({ s with worker, recv, work, executed } : Sys).InStep :=
  { h with
    travelling := by
      have htravelling := h.travelling
      rw [Sys.travelling, ← hrecv] at htravelling
      exact htravelling
    answered := by
      have hanswered := h.answered
      rw [← hrecv] at hanswered
      exact hanswered }

theorem Sys.InStep.recvStep {l : RecvLabel} (h : s.InStep) (hs : s.RecvStep l s') : s'.InStep := by
  have hreceived : ∀ {n : ℤ} {pkt : Packet}, n ∈ s.received.map Packet.numPkt →
      n ∈ (s.received ++ [pkt]).map Packet.numPkt := by
    intro n pkt hn
    rw [List.map_append]
    exact List.mem_append_left _ hn
  cases hs with
  | @read pkt rest pc fifo =>
      refine { h with travelling := ?_, answered := ?_, confirmed := fun n hn => ?_ }
      · refine le_of_eq_of_le ?_ h.travelling
        simp only [Sys.travelling, Sys.answers, fifo, pc, RecvPc.answering, List.map_cons,
          ← Multiset.cons_coe, ← Multiset.singleton_add]
        abel
      · intro n hn
        rcases Multiset.mem_add.mp hn with hn | hn
        · obtain rfl := Multiset.mem_singleton.mp hn
          simp
        · exact hreceived (h.answered n (Multiset.mem_add.mpr (.inr hn)))
      · exact hreceived (h.confirmed n hn)
  | eintr pc => exact h
  | error pc | eof pc | @store pkt pc | fail pc | close pc => exact h.of_worker (by rw [pc]; rfl)
  | @ack pkt pc =>
      have hmoved : s.recv.answering + s.answers = 0 +
          ({ s with
            ackFifo := s.ackFifo ++ [⟨pkt.numPkt, true⟩]
            acked := s.acked ++ [pkt]
            recv := .storing pkt } : Sys).answers := by
        simp only [Sys.answers, pc, RecvPc.answering, List.map_append, List.map_singleton,
          ← Multiset.coe_add, Multiset.coe_singleton]
        abel
      refine { h with travelling := ?_, answered := ?_ }
      · have htravelling := h.travelling
        rwa [Sys.travelling, add_assoc, hmoved, ← add_assoc] at htravelling
      · have hanswered := h.answered
        rwa [hmoved] at hanswered
  | @ackFailed pkt pc =>
      -- the acknowledgement is lost
      refine { h with travelling := ?_, answered := fun n hn => ?_ }
      · refine le_trans ?_ h.travelling
        simp [Sys.travelling, Sys.answers, pc, RecvPc.answering]
      · refine h.answered n (Multiset.mem_add.mpr (.inr ?_))
        exact (Multiset.mem_add.mp hn).resolve_left (Multiset.notMem_zero n)
  | @signal last pc => exact h.of_worker (by rw [pc]; cases last <;> rfl)

theorem Sys.InStep.workStep {l : WorkLabel} (h : s.InStep) (hs : s.WorkStep l s') : s'.InStep := by
  cases hs with
  | enter pc | wake pc | run pc => exact h.of_worker rfl
  | lock pc =>
      obtain ⟨-, -, heq⟩ | ⟨-, -, heq⟩ | ⟨-, heq⟩ := s.take_cases <;> rw [heq] <;>
        exact h.of_worker rfl

theorem Sys.InStep.step {l : Label} (h : s.InStep) (hok : l.answersRead = true)
    (hs : s.step l = some s') : s'.InStep := by
  cases l with
  | send l => exact h.sendStep (Sys.sendStep_inv hs)
  | ack l => exact h.ackStep (Sys.ackStep_inv hs) hok
  | recv l => exact h.recvStep (Sys.recvStep_inv hs)
  | work l => exact h.workStep (Sys.workStep_inv hs)

end Steps

theorem Sys.InStep.quiet {s : Sys} (h : s.InStep) (hidle : s.send.awaited = 0) :
    s.cmdFifo = [] ∧ s.ackFifo = [] ∧ (∀ ack, s.ack ≠ .storing ack) ∧
      s.controller.ackReceived = false := by
  have hzero : s.travelling = 0 := Multiset.le_zero.mp (hidle ▸ h.travelling)
  simp only [Sys.travelling, Sys.answers, add_eq_zero, Multiset.coe_eq_zero,
    List.map_eq_nil_iff] at hzero
  obtain ⟨⟨hcmd, -⟩, ⟨hfifo, hheld⟩, harrived⟩ := hzero
  refine ⟨hcmd, hfifo, fun ack hack => ?_, ?_⟩
  · simp [hack, AckPc.held] at hheld
  · simpa [Controller.arrived] using harrived

/-- **Stop and wait is sound** if `ack_received` is false at first and the
acknowledgements can be read. A number that `send_cmd` takes for
acknowledged is that of a packet the worker has read. The packets are
written once each, in the order of their numbers, and all but one that is
about to be written have been; and whenever `send_cmd` is not waiting,
there is no acknowledgement left over. -/
theorem confirmed_read_and_written_once {stack : Leftover} (hstack : stack.ackReceived = false)
    {s : Sys} (h : Reachable Sys.step (fun _ l => l.answersRead = true) (Sys.init stack) s) :
    (∀ n ∈ s.confirmed, n ∈ s.received.map Packet.numPkt) ∧
      s.written.map Packet.numPkt = numbers s.written.length ∧
      s.controller.lastSend = s.written.length + s.send.unwritten ∧
      (s.send.awaited = 0 → s.cmdFifo = [] ∧ s.ackFifo = [] ∧ (∀ ack, s.ack ≠ .storing ack) ∧
        s.controller.ackReceived = false) := by
  have hinv : s.InStep := h.invariant (.init hstack) fun _ _ _ ih hok hs => ih.step hok hs
  exact ⟨hinv.confirmed, hinv.written, hinv.lastSend, hinv.quiet⟩

theorem confirmed_read_and_written_once_exchange :
    ∃ s, Reachable Sys.step (fun _ l => l.answersRead = true) (Sys.init cleanStack) s ∧
      s.confirmed = [1] ∧ 1 ∈ s.received.map Packet.numPkt := by
  have hrun : (runs (guarded Sys.step fun _ l => l.answersRead = true) (Sys.init cleanStack)
      ([.send .enter] ++ exchange 0 ++ confirm)).map Sys.confirmed = some [1] := by decide +kernel
  obtain ⟨s, hreach, hconfirmed⟩ := Reachable.exists_of_runs hrun
  refine ⟨s, hreach, hconfirmed, ?_⟩
  exact (confirmed_read_and_written_once rfl hreach).1 1 (by simp [hconfirmed])

def Label.lossless : Label → Bool
  | .send (.write ok) => ok
  | .recv (.ack ok) => ok
  | .recv (.read res) | .ack (.read res) => decide (res = .data ∨ res = .eintr)
  | _ => true

/-- If `ack_received` is true at first, `send_cmd` takes its first packet
for acknowledged before the worker has read it, or it writes the packet
again, as `ack_send` happens to be. -/
theorem leftover_ack_taken :
    (∃ s, Reachable Sys.step (fun _ l => l.lossless = true)
        (Sys.init { cleanStack with ackReceived := true, ackSend := 1 }) s ∧
      s.confirmed = [1] ∧ s.received = []) ∧
    ∃ s, Reachable Sys.step (fun _ l => l.lossless = true)
        (Sys.init { cleanStack with ackReceived := true }) s ∧
      s.written.map Packet.numPkt = [1, 1] := by
  have hconfirm : (runs (guarded Sys.step fun _ l => l.lossless = true)
      (Sys.init { cleanStack with ackReceived := true, ackSend := 1 })
      [.send .enter, .send (.create 0 []), .send (.write true), .send .test]).map
      (fun s => (s.confirmed, s.received)) = some ([1], []) := by decide +kernel
  have hresend : (runs (guarded Sys.step fun _ l => l.lossless = true)
      (Sys.init { cleanStack with ackReceived := true })
      [.send .enter, .send (.create 0 []), .send (.write true), .send .test,
        .send (.write true)]).map
      (fun s => s.written.map Packet.numPkt) = some [1, 1] := by decide +kernel
  obtain ⟨s, hreach, hobs⟩ := Reachable.exists_of_runs hconfirm
  obtain ⟨s', hreach', hwritten⟩ := Reachable.exists_of_runs hresend
  obtain ⟨hconfirmed, hreceived⟩ := Prod.mk.inj hobs
  exact ⟨⟨s, hreach, hconfirmed, hreceived⟩, s', hreach', hwritten⟩

end LinuxMiniProjects.Pipeline
