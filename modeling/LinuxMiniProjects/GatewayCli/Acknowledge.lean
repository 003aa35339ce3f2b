import LinuxMiniProjects.GatewayCli.Numbering

/-!
The acknowledgement of what the client receives.

`recv_thread` answers a message with an `ACK` and gives it to
`worker_thread`, through two queues of 32 entries that the other threads
drain meanwhile. It queues the `ACK` first and does not look at whether
there was room for it. If there is no room for the message, it queues the
`ACK` once more, where it should have tried to queue the message again. So
a message can be acknowledged without being kept, even twice, and kept
without being acknowledged.

What the three attempts do depends on whether there is room at the time
they are made, whatever the other threads do meanwhile. The message is
acknowledged once and kept if there is room for the `ACK` and for the
message, and it is neither if there is none in all three attempts; in all
other cases the client says something else than what is the case.
-/

namespace LinuxMiniProjects.GatewayCli

open Socket ControlPlane Machine

/-! ### The queues over a run -/

inductive QueueStep (q : RingBuf MessageControl) : RingBuf MessageControl → Prop
  | same : QueueStep q q
  | enqueue (m : MessageControl) : QueueStep q (enqueueMessage q m).2
  | dequeue {m q'} (eq : dequeueMessage q = some (m, q')) : QueueStep q q'

theorem QueueStep.valid {q q' : RingBuf MessageControl} (h : QueueStep q q')
    (hq : q.Valid clientQueue) : q'.Valid clientQueue := by
  cases h with
  | same => exact hq
  | enqueue m => exact (Outbound.contents_enqueueMessage hq m).1
  | dequeue eq => exact (Outbound.contents_dequeueMessage hq eq).1

def Label.isRecv : Label → Prop
  | .recv | .poll _ | .readFrame _ | .readNothing | .readClosed | .readShutdown => True
  | _ => False

structure Sys.QueuesStep (s s' : Sys) : Prop where
  sent : QueueStep s.sentQueue s'.sentQueue
  recv : QueueStep s.recvQueue s'.recvQueue

section Steps

variable {s s' : Sys} {l : Label}

theorem Sys.receive_queues (s : Sys) (m : MessageControl) : s.QueuesStep (s.receive m) := by
  unfold Sys.receive
  dsimp only
  split <;> exact ⟨.same, .same⟩

theorem Sys.sent_queues (s : Sys) (m : MessageControl) (ret : ℤ) :
    s.QueuesStep (s.sent m ret) ∧ (s.sent m ret).recv = s.recv := by
  unfold Sys.sent
  dsimp only
  split <;> exact ⟨⟨.same, .same⟩, rfl⟩

/-- What a step does to the queues, and that the other threads do not move
`recv_thread`. -/
theorem Sys.step_queues (h : s.step l = some s') :
    s.QueuesStep s' ∧ (¬ l.isRecv → s'.recv = s.recv) := by
  cases Sys.step_inv h with
  | create pc made => exact ⟨⟨.enqueue _, .same⟩, fun _ => rfl⟩
  | take pc eq => exact ⟨⟨.dequeue eq, .same⟩, fun _ => rfl⟩
  | sent pc => exact (s.sent_queues _ _).imp_right fun hrecv _ => hrecv
  | work pc eq => exact ⟨⟨.same, .dequeue eq⟩, fun _ => rfl⟩
  | readNumber | taskLoop | taskRoom | sendLoop | takeNothing | count | workLoop | workNothing
  | signal | flag | sigSent => exact ⟨⟨.same, .same⟩, fun _ => rfl⟩
  | receive pc => exact ⟨s.receive_queues _, fun hl => absurd trivial hl⟩
  | nack pc | nackAgain pc | ack pc | ackAgain pc =>
      exact ⟨⟨.enqueue _, .same⟩, fun hl => absurd trivial hl⟩
  | store pc => exact ⟨⟨.same, .enqueue _⟩, fun hl => absurd trivial hl⟩
  | recvLoop | ready | pollError | pollAgain | frame | badFrame | nothing | closed | isShutdown =>
      exact ⟨⟨.same, .same⟩, fun hl => absurd trivial hl⟩

end Steps

structure Sys.QueuesValid (s : Sys) : Prop where
  sent : s.sentQueue.Valid clientQueue
  recv : s.recvQueue.Valid clientQueue

theorem Sys.QueuesValid.step {s s' : Sys} {l : Label} (h : s.QueuesValid)
    (hs : s.step l = some s') : s'.QueuesValid := by
  obtain ⟨hqueues, -⟩ := Sys.step_queues hs
  exact ⟨hqueues.sent.valid h.sent, hqueues.recv.valid h.recv⟩

theorem Sys.queuesValid {s : Sys} (hs : Reachable Sys.step (fun _ _ => True) Sys.init s) :
    s.QueuesValid := by
  refine hs.invariant ⟨⟨rfl, ?_, ?_⟩, rfl, ?_, ?_⟩ fun s l s' h _ hstep => h.step hstep
  · decide
  · decide
  · decide
  · decide

/-! ### A message is acknowledged and kept -/

/-- Whatever the other threads do, `recv_thread` can go on, and its next
step satisfies `post`. -/
def Sys.Then (s : Sys) (post : Sys → Sys → Prop) : Prop := Next Sys.step Label.isRecv s post

/-- It is enough to look at the states in which `recv_thread` is where it
is. -/
theorem Sys.QueuesValid.then {s : Sys} (h : s.QueuesValid) {post : Sys → Sys → Prop}
    (hpost : ∀ t : Sys, t.recv = s.recv → t.QueuesValid →
      (∃ l t', l.isRecv ∧ t.step l = some t') ∧
        ∀ l t', l.isRecv → t.step l = some t' → post t t') : s.Then post := by
  refine Next.of_stable (I := fun t => t.recv = s.recv ∧ t.QueuesValid) ⟨rfl, h⟩ ?_ ?_
  · rintro t l t' ⟨hrecv, hvalid⟩ hl hstep
    exact ⟨((Sys.step_queues hstep).2 hl).trans hrecv, hvalid.step hstep⟩
  · rintro t ⟨hrecv, hvalid⟩
    exact hpost t hrecv hvalid

def Sys.LeavesQueues (s s' : Sys) : Prop :=
  s'.sentQueue = s.sentQueue ∧ s'.recvQueue = s.recvQueue

def Sys.Acks (s : Sys) (m : MessageControl) (s' : Sys) : Prop :=
  s'.recvQueue = s.recvQueue ∧
    s'.sentQueue.contents clientQueue =
      s.sentQueue.contents clientQueue ++ [buildAck m.numberPacket]

def Sys.Keeps (s : Sys) (m : MessageControl) (s' : Sys) : Prop :=
  s'.sentQueue = s.sentQueue ∧
    s'.recvQueue.contents clientQueue = s.recvQueue.contents clientQueue ++ [m]

/-- An attempt to queue an `ACK`: it is queued if there is room, and
otherwise nothing happens. -/
def Sys.OffersAck (s : Sys) (m : MessageControl) (s' : Sys) : Prop :=
  s.sentQueue.count ≠ clientQueue ∧ s.Acks m s' ∨
    s.sentQueue.count = clientQueue ∧ s.LeavesQueues s'

def Sys.OffersMessage (s : Sys) (m : MessageControl) (s' : Sys) : Prop :=
  s.recvQueue.count ≠ clientQueue ∧ s.Keeps m s' ∨
    s.recvQueue.count = clientQueue ∧ s.LeavesQueues s'

/-- The message is kept if and only if it is acknowledged, and it is not
acknowledged twice. -/
def AckedAsKept (acked kept ackedAgain : Prop) : Prop :=
  (kept ↔ acked ∨ ackedAgain) ∧ ¬ (acked ∧ ackedAgain)

section Messages

variable {s s' : Sys} {m : MessageControl} {l : Label}

theorem Sys.OffersAck.acks_iff (h : s.OffersAck m s') :
    s.Acks m s' ↔ s.sentQueue.count ≠ clientQueue := by
  obtain ⟨hroom, hacks⟩ | ⟨hfull, hsent, -⟩ := h
  · exact iff_of_true hacks hroom
  · refine iff_of_false (fun hacks => ?_) (not_not.mpr hfull)
    simpa [hsent] using hacks.2

theorem Sys.OffersMessage.keeps_iff (h : s.OffersMessage m s') :
    s.Keeps m s' ↔ s.recvQueue.count ≠ clientQueue := by
  obtain ⟨hroom, hkeeps⟩ | ⟨hfull, -, hrecv⟩ := h
  · exact iff_of_true hkeeps hroom
  · refine iff_of_false (fun hkeeps => ?_) (not_not.mpr hfull)
    simpa [hrecv] using hkeeps.2

theorem Sys.step_received (hpc : s.recv = .received m) (hl : l.isRecv) :
    s.step l = some s' ↔ l = .recv ∧ s.receive m = s' := by
  cases l <;> simp_all [Label.isRecv, Sys.step, Sys.recvStep]

theorem Sys.step_acking (hpc : s.recv = .acking m) (hl : l.isRecv) :
    s.step l = some s' ↔
      l = .recv ∧ { s.queue (buildAck m.numberPacket) with recv := .storing m } = s' := by
  cases l <;> simp_all [Label.isRecv, Sys.step, Sys.recvStep]

theorem Sys.step_storing (hpc : s.recv = .storing m) (hl : l.isRecv) :
    s.step l = some s' ↔ l = .recv ∧
      { s with
        recvQueue := (enqueueMessage s.recvQueue m).2
        recv := if (enqueueMessage s.recvQueue m).1 = 1 then .ackAgain m else .top } = s' := by
  cases l <;> simp_all [Label.isRecv, Sys.step, Sys.recvStep]

theorem Sys.step_ackAgain (hpc : s.recv = .ackAgain m) (hl : l.isRecv) :
    s.step l = some s' ↔
      l = .recv ∧ { s.queue (buildAck m.numberPacket) with recv := .top } = s' := by
  cases l <;> simp_all [Label.isRecv, Sys.step, Sys.recvStep]

theorem enqueueMessage_room {q : RingBuf MessageControl} (h : q.Valid clientQueue)
    (hroom : q.count ≠ clientQueue) (m : MessageControl) :
    (enqueueMessage q m).1 = 0 ∧
      (enqueueMessage q m).2.contents clientQueue = q.contents clientQueue ++ [m] := by
  have hlt : q.count < clientQueue := lt_of_le_of_ne h.count hroom
  rw [enqueueMessage, if_neg hroom]
  exact ⟨rfl, h.contents_push hlt m⟩

theorem enqueueMessage_full {q : RingBuf MessageControl} (hfull : q.count = clientQueue)
    (m : MessageControl) : enqueueMessage q m = (1, q) := by
  rw [enqueueMessage, if_pos hfull]

theorem Sys.QueuesValid.offersAck (h : s.QueuesValid) (m : MessageControl) (pc : RecvPc) :
    s.OffersAck m { s.queue (buildAck m.numberPacket) with recv := pc } := by
  by_cases hfull : s.sentQueue.count = clientQueue
  · refine .inr ⟨hfull, ?_, rfl⟩
    simp only [Sys.queue, enqueueMessage_full hfull]
  · exact .inl ⟨hfull, rfl, (enqueueMessage_room h.sent hfull _).2⟩

theorem Sys.QueuesValid.then_ackAgain (h : s.QueuesValid) (hpc : s.recv = .ackAgain m) :
    s.Then fun w w' => w.OffersAck m w' ∧ w'.recv = .top := by
  refine h.then fun w hw hvalid => ?_
  have hagain : w.recv = .ackAgain m := hw.trans hpc
  refine ⟨⟨.recv, _, trivial, (Sys.step_ackAgain (l := .recv) hagain trivial).mpr ⟨rfl, rfl⟩⟩, ?_⟩
  intro l w' hl hstep
  obtain ⟨-, rfl⟩ := (Sys.step_ackAgain hagain hl).mp hstep
  exact ⟨hvalid.offersAck m .top, rfl⟩

/-- `recv_thread` is done with a message that is queued, and tries to
acknowledge the other once more. -/
theorem Sys.QueuesValid.then_keeps (h : s.QueuesValid) (hpc : s.recv = .storing m) :
    s.Then fun v v' => v.OffersMessage m v' ∧
      (v.recvQueue.count ≠ clientQueue → v'.recv = .top) ∧
      (v.recvQueue.count = clientQueue →
        v'.Then fun w w' => w.OffersAck m w' ∧ w'.recv = .top) := by
  refine h.then fun v hv hvalid => ?_
  have hstoring : v.recv = .storing m := hv.trans hpc
  refine ⟨⟨.recv, _, trivial, (Sys.step_storing (l := .recv) hstoring trivial).mpr ⟨rfl, rfl⟩⟩, ?_⟩
  intro l v' hl hstep
  have hvalid' : v'.QueuesValid := hvalid.step hstep
  obtain ⟨-, rfl⟩ := (Sys.step_storing hstoring hl).mp hstep
  by_cases hfull : v.recvQueue.count = clientQueue
  · refine ⟨.inr ⟨hfull, rfl, ?_⟩, fun hroom => absurd hfull hroom, fun _ => ?_⟩
    · simp only [enqueueMessage_full hfull]
    · exact hvalid'.then_ackAgain (by simp only [enqueueMessage_full hfull, if_true])
  · obtain ⟨hret, hcontents⟩ := enqueueMessage_room hvalid.recv hfull m
    exact ⟨.inl ⟨hfull, rfl, hcontents⟩, fun _ => by simp [hret], fun hf => absurd hf hfull⟩

theorem Sys.QueuesValid.then_acks (h : s.QueuesValid) (hpc : s.recv = .acking m) :
    s.Then fun u u' => u.OffersAck m u' ∧ u'.Then fun v v' => v.OffersMessage m v' ∧
      (v.recvQueue.count ≠ clientQueue → v'.recv = .top) ∧
      (v.recvQueue.count = clientQueue →
        v'.Then fun w w' => w.OffersAck m w' ∧ w'.recv = .top) := by
  refine h.then fun u hu hvalid => ?_
  have hacking : u.recv = .acking m := hu.trans hpc
  refine ⟨⟨.recv, _, trivial, (Sys.step_acking (l := .recv) hacking trivial).mpr ⟨rfl, rfl⟩⟩, ?_⟩
  intro l u' hl hstep
  have hvalid' : u'.QueuesValid := hvalid.step hstep
  obtain ⟨-, rfl⟩ := (Sys.step_acking hacking hl).mp hstep
  exact ⟨hvalid.offersAck m _, hvalid'.then_keeps rfl⟩

def Unanswered (m : MessageControl) : Prop :=
  m.cmd = Command.ack.code ∨ m.cmd = Command.nack.code ∨ m.cmd = Command.shutdownPeer.code

theorem code_of_ofCode {code : UInt32} {c : Command} (h : Command.ofCode code = some c) :
    c.code = code := by
  unfold Command.ofCode at h
  have hcode := List.find?_some h
  exact beq_iff_eq.mp hcode

theorem Sys.receive_answered (s : Sys) (hcmd : ¬ Unanswered m) :
    s.receive m = { s with numPacketRecv := s.numPacketRecv + 1, recv := .acking m } := by
  unfold Sys.receive
  dsimp only
  split
  next h => exact absurd (.inr (.inr (code_of_ofCode h).symm)) hcmd
  next h => exact absurd (.inl (code_of_ofCode h).symm) hcmd
  next h => exact absurd (.inr (.inl (code_of_ofCode h).symm)) hcmd
  next => rfl

end Messages

/-- **Acknowledgement.** In every state in which a frame with the right
checksum is received whose command is to be answered, whatever the other
threads do meanwhile, `recv_thread` tries to queue an `ACK` with the number
of the message, then the message, and if there was no room for the message
then the `ACK` again. The message is kept if and only if it is
acknowledged, and not twice, exactly if there was room for the `ACK` and
for the message, or in none of the three attempts. -/
theorem message_acked_iff_kept {s s' : Sys} {m : MessageControl}
    (hs : Reachable Sys.step (fun _ _ => True) Sys.init s)
    (hstep : s.step (.readFrame m) = some s') (hsum : m.ChecksumOk) (hcmd : ¬ Unanswered m) :
    s.LeavesQueues s' ∧ s'.Then fun t t' => t.LeavesQueues t' ∧ t'.Then fun u u' =>
      u.OffersAck m u' ∧ u'.Then fun v v' => v.OffersMessage m v' ∧
        (v.recvQueue.count ≠ clientQueue → v'.recv = .top ∧
          (AckedAsKept (u.Acks m u') (v.Keeps m v') False ↔
            u.sentQueue.count ≠ clientQueue)) ∧
        (v.recvQueue.count = clientQueue → v'.Then fun w w' =>
          w.OffersAck m w' ∧ w'.recv = .top ∧
          (AckedAsKept (u.Acks m u') (v.Keeps m v') (w.Acks m w') ↔
            u.sentQueue.count = clientQueue ∧ w.sentQueue.count = clientQueue)) := by
  have hvalid' : s'.QueuesValid := (Sys.queuesValid hs).step hstep
  have hreceived : s.LeavesQueues s' ∧ s'.recv = .received m := by
    cases Sys.step_inv hstep with
    | frame pc sum => exact ⟨⟨rfl, rfl⟩, rfl⟩
    | badFrame pc sum => exact absurd hsum.symm sum
  refine ⟨hreceived.1, hvalid'.then fun t ht hvalid => ?_⟩
  have hpc : t.recv = .received m := ht.trans hreceived.2
  refine ⟨⟨.recv, _, trivial, (Sys.step_received (l := .recv) hpc trivial).mpr ⟨rfl, rfl⟩⟩, ?_⟩
  intro l t' hl hstep
  have hvalid'' : t'.QueuesValid := hvalid.step hstep
  obtain ⟨-, rfl⟩ := (Sys.step_received hpc hl).mp hstep
  rw [t.receive_answered hcmd] at hvalid'' ⊢
  refine ⟨⟨rfl, rfl⟩, (hvalid''.then_acks rfl).mono fun u u' ⟨hack, hrest⟩ => ⟨hack, ?_⟩⟩
  refine hrest.mono fun v v' ⟨hmessage, hroom, hfull⟩ => ⟨hmessage, fun h => ⟨hroom h, ?_⟩, ?_⟩
  · rw [AckedAsKept, hack.acks_iff, hmessage.keeps_iff]
    simp [h]
  · intro h
    refine (hfull h).mono fun w w' ⟨hagain, htop⟩ => ⟨hagain, htop, ?_⟩
    rw [AckedAsKept, hack.acks_iff, hmessage.keeps_iff, hagain.acks_iff]
    simp only [h, ne_eq, not_true_eq_false, false_iff, not_or, not_not]
    tauto

def request (number : UInt64) : MessageControl := buildMessage [] Command.getStatus.code 0 number

/-- `recv_thread` comes to `read_stage`. -/
def upToRead : List Label := [.recv, .poll .ready]

def receiveOne (number : UInt64) : List Label :=
  upToRead ++ [.readFrame (request number), .recv, .recv, .recv]

theorem message_acked_iff_kept_request :
    ∃ s s' : Sys, Reachable Sys.step (fun _ _ => True) Sys.init s ∧
      s.step (.readFrame (request 7)) = some s' ∧
      s'.Then fun t t' => t.LeavesQueues t' ∧ t'.Then fun u u' =>
        u.OffersAck (request 7) u' ∧ u'.Then fun v v' => v.OffersMessage (request 7) v' := by
  have hrun : ((runs (guarded Sys.step fun _ _ => True) Sys.init upToRead).map fun s =>
      (s.step (.readFrame (request 7))).isSome) = some true := by
    decide +kernel
  obtain ⟨s, hreach, hsome⟩ := Reachable.exists_of_runs hrun
  obtain ⟨s', hs'⟩ := Option.isSome_iff_exists.mp hsome
  obtain ⟨-, hthen⟩ := message_acked_iff_kept hreach hs' (checksumOk_buildMessage ..)
    (by simp [Unanswered, request, Command.code])
  refine ⟨s, s', hreach, hs', hthen.mono fun t t' hu => ⟨hu.1, ?_⟩⟩
  exact hu.2.mono fun u u' hv => ⟨hv.1, hv.2.mono fun v v' hrest => hrest.1⟩

/-- `send_thread` takes two messages off its queue. -/
def sendTwo : List Label :=
  [.send, .send, .sendMessage [.sent 4096], .send, .send, .send]

/-- Both queues are filled, the send queue is drained a little, and one more
request comes. -/
def requestTooMany : List Label :=
  ((List.range 32).flatMap fun n => receiveOne (UInt64.ofNat n)) ++ sendTwo ++ receiveOne 99 ++
    [.recv]

/-- With a receive queue that is full the message is lost, and acknowledged
twice. -/
theorem message_lost_and_acked :
    (request 99).ChecksumOk ∧ ¬ Unanswered (request 99) ∧
    ∃ s : Sys, runs Sys.step Sys.init requestTooMany = some s ∧
      (s.recvQueue.contents clientQueue).map MessageControl.numberPacket =
        (List.range 32).map UInt64.ofNat ∧
      (s.sentQueue.contents clientQueue).countP (fun m =>
        m.cmd == Command.ack.code && m.numberPacket == 99) = 2 := by
  have hrun : (runs Sys.step Sys.init requestTooMany).map (fun s =>
      ((s.recvQueue.contents clientQueue).map MessageControl.numberPacket,
        (s.sentQueue.contents clientQueue).countP fun m =>
          m.cmd == Command.ack.code && m.numberPacket == 99)) =
      some ((List.range 32).map UInt64.ofNat, 2) := by
    decide +kernel
  obtain ⟨s, hs, hobs⟩ := Option.map_eq_some_iff.mp hrun
  obtain ⟨hkept, hacked⟩ := Prod.mk.injEq .. ▸ hobs
  exact ⟨checksumOk_buildMessage .., by simp [Unanswered, request, Command.code], s, hs, hkept,
    hacked⟩

end LinuxMiniProjects.GatewayCli
