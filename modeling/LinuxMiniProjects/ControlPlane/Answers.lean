import LinuxMiniProjects.ControlPlane.Backlog
import LinuxMiniProjects.ControlPlane.InFlight

/-!
Frames and the replies they get.

A frame that a client has sent goes one of three ways. If its checksum is
wrong the IO thread replies with a `NACK`; if the queue of its priority
is full the IO thread replies that the server is busy; otherwise a worker
carries it out, and replies to a command but not to an `ACK`, a `NACK` or
a farewell. Each way has its own calls of `queue_client`, and
`identify_task` alone has three.

A ledger is kept beside the server. It has an entry for every frame that
was received and one for every frame the server is done with, together
with the calls of `queue_client` that were made on the way. Three things
are to be shown: that no frame gets lost or is handled twice, that each
entry has the calls it should have, and that these calls are the messages
that the steps put into the rings of the clients.
-/

namespace LinuxMiniProjects.ControlPlane

open Bytes Socket Machine

/-! ### The ledger -/

/-- A complete frame: the task it makes, and whether its checksum is right. -/
structure Frame where
  task : Task
  ok : Bool

structure QueueCall where
  fd : ℕ
  message : MessageControl

def QueueCall.key (c : QueueCall) : ℕ × UInt64 := (c.fd, c.message.numberPacket)

def QueueCall.on (fd : ℕ) (c : QueueCall) : Option MessageControl :=
  if c.fd = fd then some c.message else none

/-- How the server got done with a frame: the checksum was wrong, the queue
was full, or a worker carried it out. -/
inductive Outcome
  | damaged
  | refused
  | finished
deriving DecidableEq

/-- A frame the server is done with, and the calls that were made for it. -/
structure Settled where
  frame : Frame
  outcome : Outcome
  calls : List QueueCall

structure Ledger where
  received : List Frame
  /-- The calls a worker has made for the task it has. -/
  pending : Fin 4 → List QueueCall
  settled : List Settled

def Ledger.receive (b : Ledger) (f : Frame) : Ledger := { b with received := b.received ++ [f] }

def Ledger.settle (b : Ledger) (r : Settled) : Ledger := { b with settled := b.settled ++ [r] }

def Ledger.setPending (b : Ledger) (w : Fin 4) (calls : List QueueCall) : Ledger :=
  { b with pending := Function.update b.pending w calls }

def Sys.frameOf (s : Sys) (fd : ℕ) : Task :=
  ⟨fd, (s.clients fd).generation, (s.clients fd).connectionId, (s.clients fd).inbox.message,
    s.conn fd⟩

/-- What the next step of `process_task` hands to `queue_client`. -/
def Sys.workerReply (s : Sys) (w : Fin 4) (task : Task) : Option MessageControl :=
  match s.stage w with
  | .acting => directReply task.message
  | .denied => some (identifyFull task.message)
  | .replying i wasResumed => some (identifyReply task.message (s.table.sessions i) wasResumed)
  | _ => none

/-- The call of `queue_client` in a step, if there is one. -/
def Sys.queueCall (s : Sys) : Label → Option QueueCall
  | .io .next =>
      match s.io with
      | .nacking fd _ => some ⟨fd, buildNack (s.clients fd).inbox.message.numberPacket⟩
      | .busy task _ => some ⟨task.fd, serverBusy task.message⟩
      | _ => none
  | .process w =>
      match s.sched.worker w with
      | .busy task => (s.workerReply w task).map (QueueCall.mk task.fd)
      | _ => none
  | _ => none

def Sys.ledgerStep (s : Sys) (l : Label) (b : Ledger) : Ledger :=
  match l with
  | .io (.recv res) =>
      match s.io with
      | .reading fd _ =>
          match (s.clients fd).inbox.turn res with
          | .frame inbox ok => b.receive ⟨{ s.frameOf fd with message := inbox.message }, ok⟩
          | _ => b
      | _ => b
  | .io .next =>
      match s.io with
      | .nacking fd _ => b.settle ⟨⟨s.frameOf fd, false⟩, .damaged, (s.queueCall l).toList⟩
      | .busy task _ => b.settle ⟨⟨task, true⟩, .refused, (s.queueCall l).toList⟩
      | _ => b
  | .process w =>
      let calls := b.pending w ++ (s.queueCall l).toList
      match s.sched.worker w, s.stage w with
      | .busy task, .finishing => (b.settle ⟨⟨task, true⟩, .finished, calls⟩).setPending w []
      | .busy _, _ => b.setPending w calls
      | _, _ => b
  | _ => b

abbrev LedgerSys := Sys × Ledger

def LedgerSys.step : LedgerSys → Label → Option LedgerSys := observed Sys.step Sys.ledgerStep

def LedgerSys.init : LedgerSys := (Sys.init, ⟨[], fun _ => [], []⟩)

/-! ### What a frame is owed -/

def answered (m : MessageControl) : Bool :=
  match Command.ofCode m.cmd with
  | some .getStatus | some .setStatus | some .getData | some .getConfig | some .setConfig
  | some .sendControl | some .identify => true
  | _ => false

def owedTo (task : Task) : List (ℕ × UInt64) :=
  if answered task.message then [(task.fd, task.message.numberPacket)] else []

def Settled.owed (r : Settled) : List (ℕ × UInt64) :=
  match r.outcome with
  | .damaged | .refused => [(r.frame.task.fd, r.frame.task.message.numberPacket)]
  | .finished => owedTo r.frame.task

structure Settled.Right (r : Settled) : Prop where
  calls : r.calls.map QueueCall.key = r.owed
  damaged : r.frame.ok = false ↔ r.outcome = .damaged

theorem directReply_eq_some {m reply : MessageControl} (h : directReply m = some reply) :
    reply.numberPacket = m.numberPacket ∧ answered m = true := by
  unfold directReply at h
  split at h
  case h_7 hcmd =>
    rw [Option.ite_none_right_eq_some] at h
    obtain ⟨-, h⟩ := h
    obtain rfl := Option.some.inj h
    exact ⟨numberPacket_buildMessage .., by rw [answered, hcmd]⟩
  case h_8 => cases h
  all_goals
    next hcmd =>
      obtain rfl := Option.some.inj h
      exact ⟨numberPacket_buildMessage .., by rw [answered, hcmd]⟩

theorem directReply_of_silent {m : MessageControl}
    (h : Command.ofCode m.cmd ∈ [none, some .ack, some .nack] ∨
      Command.ofCode m.cmd = some .shutdownPeer) :
    directReply m = none ∧ answered m = false := by
  simp only [List.mem_cons, List.not_mem_nil, or_false] at h
  rcases h with (hcmd | hcmd | hcmd) | hcmd
  · simp [directReply, answered, hcmd]
  · simp [directReply, answered, hcmd]
  · simp [directReply, answered, hcmd]
  · simp [directReply, answered, hcmd]

/-! ### The calls of a step -/

section Calls

variable {s s' : Sys} {fd : ℕ}

theorem Sys.ProcessStep.queued {w : Fin 4} {task : Task} (h : s.ProcessStep w task s') (fd : ℕ) :
    s.queued s' fd =
      ((s.workerReply w task).map (QueueCall.mk task.fd)).bind (QueueCall.on fd) := by
  cases h with
  | check stage =>
      simp only [Sys.workerReply, stage]
      exact if_pos rfl
  | answer stage reply =>
      simp only [Sys.workerReply, stage, reply]
      exact Sys.queued_queue rfl (by rfl) fd
  | pass stage silent =>
      simp only [Sys.workerReply, stage, (directReply_of_silent (.inl silent)).1]
      exact if_pos rfl
  | mark stage cmd =>
      simp only [Sys.workerReply, stage, (directReply_of_silent (.inr cmd)).1]
      exact Sys.queued_update rfl (by rfl) fd
  | lookup stage cmd token =>
      simp only [Sys.workerReply, stage, directReply, cmd, if_neg token]
      exact if_pos rfl
  | deny stage | reply stage =>
      simp only [Sys.workerReply, stage]
      exact Sys.queued_queue rfl (by rfl) fd
  | name stage =>
      simp only [Sys.workerReply, stage]
      exact Sys.queued_update (k := task.fd) rfl (by rfl) fd
  | finish stage =>
      simp only [Sys.workerReply, stage]
      refine Sys.queued_update (k := task.fd) rfl ?_ fd
      unfold finishTask
      split <;> rfl

/-- A step other than an accept puts into the rings what it calls
`queue_client` with, and nothing else. -/
theorem Sys.Step.queued {l : Label} (h : s.Step l s')
    (hl : ∀ fd registered, l ≠ .io (.accept fd registered)) (fd : ℕ) :
    s.queued s' fd = (s.queueCall l).bind (QueueCall.on fd) := by
  cases h with
  | lock start | wake waiting => exact if_pos rfl
  | @process w task busy free =>
      simp only [Sys.queueCall, busy]
      exact (s.process_inv w task).queued fd
  | sig step =>
      cases step with
      | sendFarewell pc ok =>
          unfold Sys.sendFarewell
          dsimp only
          split <;> exact if_pos rfl
      | _ => exact if_pos rfl
  | io step =>
      cases step with
      | accept pc closed => exact absurd rfl (hl _ _)
      | nack pc | busy pc =>
          simp only [Sys.queueCall, pc]
          exact Sys.queued_queue rfl (by rfl) fd
      | refused pc | reapClose pc =>
          simp only [Sys.queueCall, pc]
          exact Sys.queued_update rfl (by rfl) fd
      | @dispatch events e rest pc =>
          simp only [Sys.queueCall, pc]
          obtain ⟨io, -, heq⟩ | ⟨k, mark, io, -, -, heq⟩ := s.dispatch_cases events e rest
          · rw [heq]
            exact if_pos rfl
          · rw [heq]
            exact Sys.queued_update rfl (by rfl) fd
      | writable pc =>
          simp only [Sys.queueCall, pc, Sys.writable]
          split
          · exact if_pos rfl
          · exact Sys.queued_update rfl (by rfl) fd
      | sendChunk pc ok =>
          simp only [Sys.queueCall, Sys.sendChunk]
          split
          · exact if_pos rfl
          · exact Sys.queued_update rfl (by rfl) fd
          · exact Sys.queued_update rfl (by rfl) fd
          · exact Sys.queued_update rfl (by rfl) fd
      | @readable e rest pc =>
          obtain ⟨io, -, heq⟩ := s.readable_goto e rest
          simp only [Sys.queueCall, pc, heq]
          exact if_pos rfl
      | @recv k rest res pc unmarked ok =>
          refine Sys.queued_update (k := k) rfl ?_ fd
          rcases (s.clients k).readTurn_cases res with
            ⟨-, -, inbox, received, hc⟩ | ⟨-, inbox, mark, hc⟩
          · rw [hc]
          · rw [hc]
      | enqueue pc eq =>
          obtain ⟨sched, io, -, rfl⟩ := Sys.enqueue_cases eq
          exact if_pos rfl
      | @reapCheck k pc marked =>
          obtain ⟨io, -, heq⟩ := s.reapCheck_goto k
          simp only [Sys.queueCall, pc, heq]
          exact if_pos rfl
      | timeout pc | poll pc | pollEintr pc | pollError pc | acceptNone pc | scan pc =>
          exact if_pos rfl
      | top pc | polled pc | dispatched pc | readLock pc | readDone pc | readClosing pc
      | reapLock pc | reaped pc =>
          simp only [Sys.queueCall, pc]
          exact if_pos rfl

end Calls

/-! ### Frames on their way -/

def Sys.inHand (s : Sys) : List Frame :=
  match s.io with
  | .nacking fd _ => [⟨s.frameOf fd, false⟩]
  | .holding task _ | .refused task _ | .busy task _ => [⟨task, true⟩]
  | _ => []

/-- The number of frames that satisfy `P` and that the server is not done
with. -/
def Sys.numOpen (P : Frame → Bool) (s : Sys) : ℕ :=
  s.inHand.countP P +
    ((s.sched.queuedBy fun task => P ⟨task, true⟩) + s.sched.runningBy fun task => P ⟨task, true⟩)

/-- What a worker at a point of its program has called `queue_client` with. -/
inductive Working : WorkerPc Task → TaskStage → List QueueCall → Prop
  | fresh {pc} : Working pc .checking []
  | acting {task} : Working (.busy task) .acting []
  | identifying {task stage} (answered : answered task.message = true)
      (quiet : stage ≠ .finishing) : Working (.busy task) stage []
  | finishing {task} {calls : List QueueCall} (owed : calls.map QueueCall.key = owedTo task) :
      Working (.busy task) .finishing calls

theorem Working.of_free {pc pc' : WorkerPc Task} {stage : TaskStage} {calls : List QueueCall}
    (h : Working pc stage calls) (hfree : ∀ task, pc ≠ .busy task) : Working pc' stage calls := by
  cases h with
  | fresh => exact .fresh
  | acting | identifying | finishing => exact absurd rfl (hfree _)

section Working

variable {pc : WorkerPc Task} {task : Task} {stage : TaskStage} {calls : List QueueCall}

theorem Working.calls_eq_nil (h : Working pc stage calls) (hstage : stage ≠ .finishing) :
    calls = [] := by
  cases h with
  | fresh => rfl
  | acting => rfl
  | identifying answered quiet => rfl
  | finishing owed => exact absurd rfl hstage

theorem Working.is_answered (h : Working (.busy task) stage calls)
    (hstage : stage ∉ [TaskStage.checking, .acting, .finishing]) :
    answered task.message = true := by
  cases h with
  | fresh | acting | finishing owed => simp at hstage
  | identifying answered quiet => exact answered

theorem Working.keys_eq (h : Working (.busy task) .finishing calls) :
    calls.map QueueCall.key = owedTo task := by
  cases h with
  | finishing owed => exact owed
  | identifying answered quiet => exact absurd rfl quiet

end Working

structure Sys.Booked (s : Sys) (b : Ledger) : Prop where
  accounts : s.Accounts
  serving : s.sched.shutdown = false
  count : ∀ P : Frame → Bool,
    b.received.countP P = (b.settled.countP fun r => P r.frame) + s.numOpen P
  right : ∀ r ∈ b.settled, r.Right
  working : ∀ w, Working (s.sched.worker w) (s.stage w) (b.pending w)

theorem Sys.Booked.init : Sys.init.Booked ⟨[], fun _ => [], []⟩ where
  accounts := .init
  serving := rfl
  count := fun P => by
    have hzero := Sched.account_eq_zero (s := (Sched.init : Sched Task)) (fun t => P ⟨t, true⟩)
      fun t ht => by
        rcases ht with ⟨p, hp⟩ | ⟨w, hw⟩
        · cases hp
        · cases hw
    show 0 = 0 + (0 + _)
    rw [show Sys.init.sched = Sched.init from rfl, hzero]
  right := fun r hr => by cases hr
  working := fun w => .fresh

/-! ### The IO thread -/

def IoPc.carries : IoPc → Bool
  | nacking _ _ | holding _ _ | refused _ _ | busy _ _ => true
  | _ => false

section Io

variable {s s' : Sys} {b : Ledger}

theorem Sys.inHand_eq_nil (h : s.io.carries = false) : s.inHand = [] := by
  unfold Sys.inHand
  cases hio : s.io with
  | nacking fd rest | holding task rest | refused task rest | busy task rest =>
      rw [hio] at h
      cases h
  | _ => rfl

theorem Sys.Booked.quiet (h : s.Booked b) (haccounts : s'.Accounts) (hsched : s'.sched = s.sched)
    (hstage : s'.stage = s.stage) (hhand : s'.inHand = s.inHand) : s'.Booked b where
  accounts := haccounts
  serving := by rw [hsched, h.serving]
  count := fun P => by rw [h.count P, Sys.numOpen, Sys.numOpen, hhand, hsched]
  right := h.right
  working := fun w => by rw [hsched, hstage]; exact h.working w

theorem Sys.Booked.pass (h : s.Booked b) (haccounts : s'.Accounts) (hsched : s'.sched = s.sched)
    (hstage : s'.stage = s.stage) (hbefore : s.io.carries = false)
    (hafter : s'.io.carries = false) : s'.Booked b :=
  h.quiet haccounts hsched hstage (by rw [Sys.inHand_eq_nil hbefore, Sys.inHand_eq_nil hafter])

theorem Sys.Booked.settle (h : s.Booked b) (haccounts : s'.Accounts) (hsched : s'.sched = s.sched)
    (hstage : s'.stage = s.stage) {r : Settled} (hbefore : s.inHand = [r.frame])
    (hafter : s'.io.carries = false) (hright : r.Right) : s'.Booked (b.settle r) where
  accounts := haccounts
  serving := by rw [hsched, h.serving]
  count := fun P => by
    have hcount := h.count P
    rw [Sys.numOpen, hbefore, List.countP_singleton] at hcount
    rw [Sys.numOpen, Sys.inHand_eq_nil hafter, hsched, List.countP_nil]
    simp only [Ledger.settle, List.countP_append, List.countP_singleton]
    omega
  right := fun r' hr' => by
    rcases List.mem_append.mp hr' with hr' | hr'
    · exact h.right r' hr'
    · exact List.mem_singleton.mp hr' ▸ hright
  working := fun w => by rw [hsched, hstage]; exact h.working w

theorem Sys.Booked.receive (h : s.Booked b) (haccounts : s'.Accounts) (hsched : s'.sched = s.sched)
    (hstage : s'.stage = s.stage) {f : Frame} (hbefore : s.io.carries = false)
    (hafter : s'.inHand = [f]) : s'.Booked (b.receive f) where
  accounts := haccounts
  serving := by rw [hsched, h.serving]
  count := fun P => by
    have hcount := h.count P
    rw [Sys.numOpen, Sys.inHand_eq_nil hbefore, List.countP_nil] at hcount
    rw [Sys.numOpen, hafter, hsched]
    simp only [Ledger.receive, List.countP_append, List.countP_singleton]
    omega
  right := h.right
  working := fun w => by rw [hsched, hstage]; exact h.working w

theorem Sys.Booked.recvTurn (h : s.Booked b) {fd : ℕ} {rest : List EpollEvent} {res : RecvRes}
    (hpc : s.io = .reading fd rest) (haccounts : (s.recvTurn fd rest res).Accounts) :
    (s.recvTurn fd rest res).Booked (s.ledgerStep (.io (.recv res)) b) := by
  have hbefore : s.io.carries = false := by rw [hpc]; rfl
  unfold Sys.recvTurn Client.readTurn at haccounts ⊢
  simp only [Sys.ledgerStep, hpc]
  cases hturn : (s.clients fd).inbox.turn res with
  | again inbox | wait inbox | close inbox =>
      rw [hturn] at haccounts
      exact h.pass haccounts rfl rfl hbefore rfl
  | frame inbox ok =>
      rw [hturn] at haccounts
      cases ok with
      | false =>
          refine h.receive haccounts rfl rfl hbefore ?_
          simp [Sys.inHand, Sys.frameOf, Sys.goto, Sys.setClient]
      | true => exact h.receive haccounts rfl rfl hbefore rfl

theorem Sys.Booked.enqueue (h : s.Booked b) {task : Task} {rest : List EpollEvent}
    {released : Option (Fin 4)} (hpc : s.io = .holding task rest)
    (hs : s.enqueue task rest released = some s') : s'.Booked b := by
  have haccounts := h.accounts.enqueue hpc hs
  have hhand : s.inHand = [⟨task, true⟩] := by rw [Sys.inHand, hpc]
  unfold Sys.enqueue at hs
  split at hs
  next p _ =>
    obtain ⟨⟨ok, sched⟩, hsched, rfl⟩ := Option.map_eq_some_iff.mp hs
    rcases Sched.tryEnqueue_cases hsched with ⟨rfl, -, rfl⟩ | ⟨rfl, -, -, -, -, -, hdown, hworker⟩
    · exact h.quiet haccounts rfl rfl (by rw [hhand]; rfl)
    · refine ⟨haccounts, hdown.trans h.serving, fun P => ?_, h.right, fun w => ?_⟩
      · have hcount := h.count P
        have haccount := (Sched.tryEnqueue_account (fun t => P ⟨t, true⟩) h.accounts.sched hsched).1
        rw [Sys.numOpen, hhand, List.countP_singleton] at hcount
        have htoNat : (P ⟨task, true⟩).toNat = if P ⟨task, true⟩ = true then 1 else 0 := by
          cases P ⟨task, true⟩ <;> rfl
        show b.received.countP P = _ + (0 + (sched.queuedBy _ + sched.runningBy _))
        omega
      · have hw := h.working w
        rcases hworker with ⟨v, -, hwait, hworker⟩ | ⟨-, -, hworker⟩
        · by_cases hwv : w = v
          · subst hwv
            exact hw.of_free fun t ht => by rw [hwait] at ht; cases ht
          · show Working (sched.worker w) _ _
            rw [hworker, Function.update_of_ne hwv]
            exact hw
        · show Working (sched.worker w) _ _
          rw [hworker]
          exact hw
  next =>
    rw [Option.ite_none_right_eq_some, h.serving] at hs
    cases hs.1

/-- Only a frame that a `recv` completes comes into the hands of the IO thread. -/
theorem Sys.IoStep.carries {l : IoLabel} (hs : s.IoStep l s') (hfree : s.io.carries = false)
    (hl : ∀ res, l ≠ .recv res) : s'.io.carries = false := by
  cases hs with
  | recv pc unmarked ok => exact absurd rfl (hl _)
  | nack pc | enqueue pc | refused pc | busy pc =>
      rw [pc] at hfree
      cases hfree
  | top pc =>
      simp only [Sys.goto]
      split <;> rfl
  | @dispatch events e rest pc =>
      obtain ⟨io, hio, heq⟩ | ⟨fd, mark, io, -, hio, heq⟩ := s.dispatch_cases events e rest
      · rw [heq]
        rcases hio with rfl | rfl <;> rfl
      · rw [heq]
        rcases hio with rfl | rfl <;> rfl
  | accept pc closed =>
      unfold Sys.accept
      split
      · exact hfree
      · exact hfree
  | writable pc =>
      simp only [Sys.writable]
      split <;> rfl
  | @sendChunk events fd offset rest res pc ok =>
      obtain ⟨bs, k, heq⟩ | ⟨bs, c, heq⟩ := s.sendChunk_cases events fd offset rest res
      · rw [heq]
        rfl
      · rw [heq]
        rfl
  | @readable e rest pc =>
      obtain ⟨io, hio, heq⟩ := s.readable_goto e rest
      rw [heq]
      rcases hio with rfl | ⟨_, rfl⟩ <;> rfl
  | @reapCheck fd pc marked =>
      obtain ⟨io, hio, heq⟩ := s.reapCheck_goto fd
      rw [heq]
      rcases hio with rfl | rfl <;> rfl
  | _ => rfl

theorem Sys.Booked.ioStep (h : s.Booked b) {l : IoLabel} (hs : s.IoStep l s') :
    s'.Booked (s.ledgerStep (.io l) b) := by
  have haccounts := h.accounts.ioStep hs
  obtain ⟨-, hstage, hsched⟩ := hs.frame
  have hpass (hfree : s.io.carries = false) (hne : ∀ released, l ≠ .enqueue released)
      (hnr : ∀ res, l ≠ .recv res) : s'.Booked b :=
    h.pass haccounts (hsched hne) hstage hfree (hs.carries hfree hnr)
  cases hs with
  | recv pc unmarked ok => exact h.recvTurn pc haccounts
  | enqueue pc eq => exact h.enqueue pc eq
  | nack pc =>
      simp only [Sys.ledgerStep, Sys.queueCall, pc]
      refine h.settle haccounts rfl rfl (by rw [Sys.inHand, pc]) rfl ⟨?_, by simp⟩
      simp [QueueCall.key, Settled.owed, Sys.frameOf, buildNack]
  | refused pc =>
      simp only [Sys.ledgerStep, pc]
      refine h.quiet haccounts rfl rfl ?_
      rw [Sys.inHand, Sys.inHand, pc]
      rfl
  | busy pc =>
      simp only [Sys.ledgerStep, Sys.queueCall, pc]
      refine h.settle haccounts rfl rfl (by rw [Sys.inHand, pc]) rfl ⟨?_, by simp⟩
      simp [QueueCall.key, Settled.owed, serverBusy]
  | timeout pc | poll pc | pollEintr pc | pollError pc | accept pc | acceptNone pc
  | sendChunk pc | scan pc =>
      exact hpass (by rw [pc]; rfl) (by simp) (by simp)
  | top pc | polled pc | dispatched pc | dispatch pc | writable pc | readLock pc | readDone pc
  | readable pc | readClosing pc | reapLock pc | reaped pc | reapCheck pc | reapClose pc =>
      simp only [Sys.ledgerStep, pc]
      exact hpass (by rw [pc]; rfl) (by simp) (by simp)

end Io

/-! ### The workers -/

section Workers

variable {s s' : Sys} {b : Ledger} {w : Fin 4} {task : Task}

theorem Sys.frameOf_update {k : ℕ} {c : Client}
    (hclients : s'.clients = Function.update s.clients k c)
    (hgeneration : c.generation = (s.clients k).generation)
    (hid : c.connectionId = (s.clients k).connectionId) (hinbox : c.inbox = (s.clients k).inbox)
    (hconn : s'.conn = s.conn) (fd : ℕ) : s'.frameOf fd = s.frameOf fd := by
  simp only [Sys.frameOf, hclients, hconn]
  by_cases hk : fd = k
  · subst hk
    simp only [Function.update_self, hgeneration, hid, hinbox]
  · simp only [Function.update_of_ne hk]

theorem Sys.ProcessStep.inHand (h : s.ProcessStep w task s') : s'.inHand = s.inHand := by
  have hframe : ∀ fd, s'.frameOf fd = s.frameOf fd := by
    cases h with
    | check stage | pass stage | lookup stage => exact fun fd => rfl
    | answer stage | mark stage | deny stage | name stage | reply stage =>
        exact Sys.frameOf_update rfl rfl rfl rfl rfl
    | finish stage =>
        refine Sys.frameOf_update (k := task.fd) rfl ?_ ?_ ?_ rfl
        · unfold finishTask
          split <;> rfl
        · unfold finishTask
          split <;> rfl
        · unfold finishTask
          split <;> rfl
  unfold Sys.inHand
  rw [h.frame.1]
  split
  next fd rest _ => rw [hframe]
  all_goals rfl

theorem Sys.Booked.work (h : s.Booked b) (haccounts : s'.Accounts) (hsched : s'.sched = s.sched)
    {stage : TaskStage} (hstage : s'.stage = Function.update s.stage w stage)
    (hhand : s'.inHand = s.inHand) {calls : List QueueCall}
    (hworking : Working (s.sched.worker w) stage calls) : s'.Booked (b.setPending w calls) where
  accounts := haccounts
  serving := by rw [hsched, h.serving]
  count := fun P => by
    rw [Sys.numOpen, hhand, hsched]
    exact h.count P
  right := h.right
  working := fun v => by
    rw [hsched, hstage]
    by_cases hv : v = w
    · subst hv
      simpa [Ledger.setPending] using hworking
    · simpa [Ledger.setPending, hv] using h.working v

theorem Sys.Booked.finish (h : s.Booked b) (hbusy : s.sched.worker w = .busy task)
    (hstage : s.stage w = .finishing) (haccounts : (s.finish w task).Accounts)
    (hhand : (s.finish w task).inHand = s.inHand) :
    (s.finish w task).Booked
      ((b.settle ⟨⟨task, true⟩, .finished, b.pending w⟩).setPending w []) where
  accounts := haccounts
  serving := h.serving
  count := fun P => by
    have hcount := h.count P
    have hrun := Sched.runningBy_finish (fun t => P ⟨t, true⟩) hbusy
    have htoNat : (P ⟨task, true⟩).toNat = if P ⟨task, true⟩ = true then 1 else 0 := by
      cases P ⟨task, true⟩ <;> rfl
    rw [Sys.numOpen] at hcount
    rw [Sys.numOpen, hhand]
    simp only [Ledger.settle, Ledger.setPending, List.countP_append, List.countP_singleton]
    show _ = _ + (_ + (s.sched.queuedBy _ + (s.sched.goto w .start).runningBy _))
    omega
  right := fun r hr => by
    rcases List.mem_append.mp hr with hr | hr
    · exact h.right r hr
    · obtain rfl := List.mem_singleton.mp hr
      refine ⟨?_, by simp⟩
      have hworking := h.working w
      rw [hbusy, hstage] at hworking
      exact hworking.keys_eq
  working := fun v => by
    by_cases hv : v = w
    · subst hv
      simpa [Sys.finish, Sys.setStage, Ledger.setPending] using .fresh
    · simpa [Sys.finish, Sys.setStage, Sys.setClient, Ledger.setPending, Sched.goto, hv,
        Ledger.settle] using h.working v

theorem Sys.Booked.goOn (h : s.Booked b) (hbusy : s.sched.worker w = .busy task)
    (hne : s.stage w ≠ .finishing) (haccounts : s'.Accounts) (hsched : s'.sched = s.sched)
    {stage : TaskStage} (hstage : s'.stage = Function.update s.stage w stage)
    (hhand : s'.inHand = s.inHand)
    (hworking : Working (.busy task) stage
      ((s.workerReply w task).map (QueueCall.mk task.fd)).toList) :
    s'.Booked (s.ledgerStep (.process w) b) := by
  have hledger : s.ledgerStep (.process w) b =
      b.setPending w ((s.workerReply w task).map (QueueCall.mk task.fd)).toList := by
    simp only [Sys.ledgerStep, Sys.queueCall, hbusy, (h.working w).calls_eq_nil hne,
      List.nil_append]
  rw [hledger]
  exact h.work haccounts hsched hstage hhand (hbusy ▸ hworking)

theorem Working.of_reply {m : MessageControl} (hanswered : answered task.message = true)
    (hnumber : m.numberPacket = task.message.numberPacket) :
    Working (.busy task) .finishing [⟨task.fd, m⟩] := by
  refine .finishing ?_
  simp [QueueCall.key, owedTo, hanswered, hnumber]

theorem Working.of_silent (hsilent : answered task.message = false) :
    Working (.busy task) .finishing [] := by
  refine .finishing ?_
  simp [owedTo, hsilent]

theorem Sys.Booked.process (h : s.Booked b) (hbusy : s.sched.worker w = .busy task)
    (hs : s.ProcessStep w task s') : s'.Booked (s.ledgerStep (.process w) b) := by
  have haccounts := h.accounts.process hbusy hs
  have hhand := hs.inHand
  have hworking := h.working w
  rw [hbusy] at hworking
  cases hs with
  | check stage =>
      -- The client is still there, so the task is not dropped.
      have howns := h.accounts.owns task (.inl (.inr ⟨w, hbusy⟩))
      obtain ⟨hconnected, hfd⟩ := Client.isOn_iff.mp howns.on
      have hlt := (h.accounts.slot task.fd hconnected).2
      refine h.goOn hbusy (by simp [stage]) haccounts rfl rfl hhand ?_
      rw [if_pos ⟨hlt, hfd, howns.generation, hconnected⟩, Sys.workerReply, stage]
      exact .acting
  | answer stage reply =>
      obtain ⟨hnumber, hanswered⟩ := directReply_eq_some reply
      refine h.goOn hbusy (by simp [stage]) haccounts rfl rfl hhand ?_
      rw [Sys.workerReply, stage, reply]
      exact .of_reply hanswered hnumber
  | pass stage silent =>
      have hcmd := directReply_of_silent (.inl silent)
      refine h.goOn hbusy (by simp [stage]) haccounts rfl rfl hhand ?_
      rw [Sys.workerReply, stage, hcmd.1]
      exact .of_silent hcmd.2
  | mark stage cmd =>
      have hcmd := directReply_of_silent (.inr cmd)
      refine h.goOn hbusy (by simp [stage]) haccounts rfl rfl hhand ?_
      rw [Sys.workerReply, stage, hcmd.1]
      exact .of_silent hcmd.2
  | lookup stage cmd token =>
      refine h.goOn hbusy (by simp [stage]) haccounts rfl rfl hhand ?_
      rw [Sys.workerReply, stage]
      simp only [directReply, cmd, if_neg token]
      refine .identifying (by rw [answered, cmd]) ?_
      cases (sessionLookupOrCreate s.table (identifyToken task.message)).1 with
      | none => simp [TaskStage.ofLookup]
      | some found => simp [TaskStage.ofLookup]
  | name stage =>
      rw [stage] at hworking
      refine h.goOn hbusy (by simp [stage]) haccounts rfl rfl hhand ?_
      rw [Sys.workerReply, stage]
      exact .identifying (hworking.is_answered (by simp)) (by simp)
  | deny stage | reply stage =>
      rw [stage] at hworking
      refine h.goOn hbusy (by simp [stage]) haccounts rfl rfl hhand ?_
      rw [Sys.workerReply, stage]
      exact .of_reply (hworking.is_answered (by simp)) (numberPacket_buildMessage ..)
  | finish stage =>
      have hcall : s.queueCall (.process w) = none := by
        simp only [Sys.queueCall, hbusy, Sys.workerReply, stage, Option.map_none]
      simp only [Sys.ledgerStep, hbusy, stage, hcall, Option.toList_none, List.append_nil]
      exact h.finish hbusy stage haccounts hhand

/-- The queues and the workers change, but not the tasks, and a worker
that had none may have got one. -/
theorem Sys.Booked.setSched (h : s.Booked b) {sched : Sched Task}
    (haccounts : ({ s with sched } : Sys).Accounts) (hdown : sched.shutdown = false)
    (hcount : ∀ P, sched.queuedBy P + sched.runningBy P =
      s.sched.queuedBy P + s.sched.runningBy P)
    (hworker : ∀ v, sched.worker v = s.sched.worker v ∨ ∀ task, s.sched.worker v ≠ .busy task) :
    ({ s with sched } : Sys).Booked b where
  accounts := haccounts
  serving := hdown
  count := fun P => by
    rw [h.count P, Sys.numOpen, Sys.numOpen, hcount]
    rfl
  right := h.right
  working := fun v => by
    rcases hworker v with heq | hfree
    · show Working (sched.worker v) _ _
      rw [heq]
      exact h.working v
    · exact (h.working v).of_free hfree

end Workers

/-! ### Whole runs -/

theorem Sched.lock_worker_of_ne (s : Sched Task) {w v : Fin 4} (h : v ≠ w) :
    (s.lock w).worker v = s.worker v := by
  rcases s.lock_cases w with ⟨-, hs⟩ | ⟨-, -, hs⟩ | ⟨-, hs⟩ | ⟨-, p, task, ht⟩
  · rw [hs]
    exact Function.update_of_ne h _ _
  · rw [hs]
    exact Function.update_of_ne h _ _
  · rw [hs]
  · rw [ht.worker, Function.update_of_ne h]

theorem Sched.lock_shutdown (s : Sched Task) (w : Fin 4) : (s.lock w).shutdown = s.shutdown := by
  rcases s.lock_cases w with ⟨-, hs⟩ | ⟨-, -, hs⟩ | ⟨-, hs⟩ | ⟨-, p, task, ht⟩
  · rw [hs]
    rfl
  · rw [hs]
    rfl
  · rw [hs]
  · exact ht.shutdown

theorem Sys.Booked.step {s s' : Sys} {b : Ledger} (h : s.Booked b) {l : Label}
    (hok : l.isServing = true) (hs : s.step l = some s') : s'.Booked (s.ledgerStep l b) := by
  have haccounts := h.accounts.step hs
  cases Sys.step_inv hs with
  | io step => exact h.ioStep step
  | @lock w start =>
      refine h.setSched haccounts ((s.sched.lock_shutdown w).trans h.serving)
        (fun P => Sched.lock_account P h.accounts.sched start) fun v => ?_
      by_cases hv : v = w
      · subst hv
        exact .inr fun task hbusy => by rw [start] at hbusy; cases hbusy
      · exact .inl (s.sched.lock_worker_of_ne hv)
  | @wake w waiting =>
      refine h.setSched haccounts h.serving (fun P => ?_) fun v => ?_
      · rw [Sched.runningBy_goto P (by rw [waiting]; rfl) rfl]
        rfl
      · by_cases hv : v = w
        · subst hv
          exact .inr fun task hbusy => by rw [waiting] at hbusy; cases hbusy
        · exact .inl (Function.update_of_ne hv _ _)
  | process busy free => exact h.process busy (s.process_inv _ _)
  | sig step => cases hok

end LinuxMiniProjects.ControlPlane
