import LinuxMiniProjects.GatewayCli.System

/-!
The numbers of the commands.

A server answers a command with the number the command came with, so the
numbers of two commands should differ. The client takes them from
`num_packet_sent`, the number of messages that were sent:
`task_create_thread` reads it before it makes a message, and `send_thread`
counts a message after it was sent. Nothing makes the one wait for the
other. The `IDENTIFY` is sent as number 0 and not counted, so that the
first command is number 0 as well, unless a reply has been sent before.

What does hold is that the numbers never go back. Commands have different
numbers if every time the number is read it has moved on since the last
command.

The proof is about the part of the client that has to do with sending,
its `Outbound`, of which every step of every thread is a `Move`.
-/

namespace LinuxMiniProjects.GatewayCli

open Socket ControlPlane Machine

/-! ### The outgoing side of the client -/

/-- A message that asks for an answer, and not one of the replies of
`recv_thread`. -/
def isCommand (m : MessageControl) : Bool :=
  m.cmd != Command.ack.code && m.cmd != Command.nack.code

/-- The number that `task_create_thread` has read. -/
def TaskPc.number : TaskPc → Option UInt64
  | numbered n | running n | creating n => some n
  | _ => none

/-- The message that `send_thread` has taken. -/
def SendPc.held : SendPc → Option MessageControl
  | sending m => some m
  | _ => none

structure Outbound where
  numPacketSent : UInt64
  sentQueue : RingBuf MessageControl
  task : TaskPc
  send : SendPc
  commands : List MessageControl
  frames : List MessageControl

def Sys.outbound (s : Sys) : Outbound :=
  ⟨s.numPacketSent, s.sentQueue, s.task, s.send, s.commands, s.frames⟩

namespace Outbound

def MovedOn (b : Outbound) : Prop :=
  b.commands.getLast?.map MessageControl.numberPacket ≠ some b.numPacketSent

instance (b : Outbound) : Decidable b.MovedOn := inferInstanceAs (Decidable (_ ≠ _))

inductive Move (b : Outbound) : Outbound → Prop
  | same : b.Move b
  | read (pc : b.task = .top) (fresh : b.MovedOn) :
      b.Move { b with task := .numbered b.numPacketSent }
  /-- The task goes on with its number, or without one. -/
  | goOn {task} (number : ∀ n ∈ task.number, b.task.number = some n) :
      b.Move { b with task := task }
  | create {n m} (pc : b.task = .creating n) (number : m.numberPacket = n)
      (command : isCommand m = true) :
      b.Move { b with
        sentQueue := (enqueueMessage b.sentQueue m).2
        task := .top
        commands := b.commands ++ [m] }
  | reply {m} (reply : isCommand m = false) :
      b.Move { b with sentQueue := (enqueueMessage b.sentQueue m).2 }
  | take {m queue} (idle : b.send.held = none)
      (eq : dequeueMessage b.sentQueue = some (m, queue)) :
      b.Move { b with sentQueue := queue, send := .sending m }
  /-- The message was sent, or it was not. -/
  | sent {m send} (pc : b.send = .sending m) (idle : send.held = none) :
      b.Move { b with send := send, frames := b.frames ++ [m] }
  | drop {send} (idle : send.held = none) : b.Move { b with send := send }
  | count (pc : b.send = .counting) (lt : b.numPacketSent.toNat + 1 < 2 ^ 64) :
      b.Move { b with numPacketSent := b.numPacketSent + 1, send := .top }

/-- The messages that were sent or are still to be sent, in this order. -/
def onTheirWay (b : Outbound) : List MessageControl :=
  b.frames ++ b.send.held.toList ++ b.sentQueue.contents clientQueue

/-- **The invariant.** The numbers of the commands go up, they and the
number that was read are none to come, and what is on its way keeps their
order. -/
structure Inv (b : Outbound) : Prop where
  valid : b.sentQueue.Valid clientQueue
  genuine : ∀ m ∈ b.commands, isCommand m = true
  sorted : b.commands.Pairwise fun m m' => m.numberPacket.toNat < m'.numberPacket.toNat
  bound : ∀ m ∈ b.commands, m.numberPacket.toNat ≤ b.numPacketSent.toNat
  number : ∀ n, b.task.number = some n → n.toNat ≤ b.numPacketSent.toNat ∧
    ∀ m ∈ b.commands, m.numberPacket.toNat < n.toNat
  order : (b.onTheirWay.filter isCommand).Sublist b.commands

theorem Inv.init : Sys.init.outbound.Inv where
  valid := ⟨rfl, by decide, by decide⟩
  genuine := fun m hm => by
    obtain rfl := List.mem_singleton.mp hm
    simp [isCommand, identify, Command.code]
  sorted := List.pairwise_singleton _ _
  bound := fun m hm => by
    obtain rfl := List.mem_singleton.mp hm
    exact le_of_eq (congrArg UInt64.toNat (numberPacket_buildMessage _ _ _ 0))
  number := fun n hn => by cases hn
  order := List.filter_sublist

section Moves

variable {b b' : Outbound}

/-- Every command has a smaller number than the counter, if the counter
has moved on. -/
theorem Inv.lt_of_movedOn (h : b.Inv) (hfresh : b.MovedOn) {m : MessageControl}
    (hm : m ∈ b.commands) : m.numberPacket.toNat < b.numPacketSent.toNat := by
  obtain ⟨init, last, heq⟩ : ∃ init last, b.commands = init ++ [last] :=
    ⟨_, _, (List.dropLast_append_getLast (List.ne_nil_of_mem hm)).symm⟩
  have hlast : last.numberPacket.toNat < b.numPacketSent.toNat := by
    have hle := h.bound last (by simp [heq])
    have hne : last.numberPacket ≠ b.numPacketSent := by simpa [MovedOn, heq] using hfresh
    rw [Ne, ← UInt64.toNat_inj] at hne
    omega
  have hsorted := h.sorted
  rw [heq, List.pairwise_append] at hsorted
  rw [heq, List.mem_append, List.mem_singleton] at hm
  rcases hm with hm | rfl
  · exact (hsorted.2.2 m hm last (List.mem_singleton_self last)).trans hlast
  · exact hlast

theorem contents_enqueueMessage {queue : RingBuf MessageControl} (h : queue.Valid clientQueue)
    (m : MessageControl) : (enqueueMessage queue m).2.Valid clientQueue ∧
      ((enqueueMessage queue m).2.contents clientQueue = queue.contents clientQueue ∨
        (enqueueMessage queue m).2.contents clientQueue = queue.contents clientQueue ++ [m]) := by
  unfold enqueueMessage
  split
  · exact ⟨h, .inl rfl⟩
  next hne =>
    have hlt : queue.count < clientQueue := lt_of_le_of_ne h.count hne
    exact ⟨h.push hlt m, .inr (h.contents_push hlt m)⟩

theorem contents_dequeueMessage {queue queue' : RingBuf MessageControl} {m : MessageControl}
    (h : queue.Valid clientQueue) (hq : dequeueMessage queue = some (m, queue')) :
    queue'.Valid clientQueue ∧
      queue.contents clientQueue = m :: queue'.contents clientQueue := by
  simp only [dequeueMessage, Option.ite_none_left_eq_some, Option.some.injEq, Prod.mk.injEq] at hq
  obtain ⟨hpos, rfl, rfl⟩ := hq
  have hpos : 0 < queue.count := Nat.pos_of_ne_zero hpos
  exact ⟨h.pop hpos, h.contents_eq_cons hpos⟩

theorem Inv.create (h : b.Inv) {n : UInt64} {m : MessageControl} (hpc : b.task = .creating n)
    (hnumber : m.numberPacket = n) (hcommand : isCommand m = true) :
    ({ b with
      sentQueue := (enqueueMessage b.sentQueue m).2
      task := .top
      commands := b.commands ++ [m] } : Outbound).Inv := by
  subst hnumber
  obtain ⟨hle, hlt⟩ := h.number m.numberPacket (by rw [hpc]; rfl)
  obtain ⟨hvalid, hcontents⟩ := contents_enqueueMessage h.valid m
  refine ⟨hvalid, fun m' hm' => ?_, ?_, fun m' hm' => ?_,
    fun n hn => absurd hn (by simp [TaskPc.number]), ?_⟩
  · rw [List.mem_append, List.mem_singleton] at hm'
    rcases hm' with hm' | rfl
    · exact h.genuine m' hm'
    · exact hcommand
  · rw [List.pairwise_append]
    refine ⟨h.sorted, List.pairwise_singleton _ _, fun m₁ h₁ m₂ h₂ => ?_⟩
    obtain rfl := List.mem_singleton.mp h₂
    exact hlt m₁ h₁
  · rw [List.mem_append, List.mem_singleton] at hm'
    rcases hm' with hm' | rfl
    · exact h.bound m' hm'
    · exact hle
  · simp only [onTheirWay]
    rcases hcontents with heq | heq
    · rw [heq]
      exact h.order.trans (List.sublist_append_left _ _)
    · rw [heq, ← List.append_assoc, List.filter_append]
      exact h.order.append List.filter_sublist

theorem Inv.move (h : b.Inv) (hmove : b.Move b') : b'.Inv := by
  cases hmove with
  | same => exact h
  | read pc fresh =>
      refine { h with number := fun n hn => ?_ }
      obtain rfl := Option.some.inj hn
      exact ⟨le_rfl, fun m hm => h.lt_of_movedOn fresh hm⟩
  | goOn number => exact { h with number := fun n hn => h.number n (number n hn) }
  | create pc number command => exact h.create pc number command
  | @reply m reply =>
      obtain ⟨hvalid, hcontents⟩ := contents_enqueueMessage h.valid m
      refine { h with valid := hvalid, order := ?_ }
      simp only [onTheirWay]
      rcases hcontents with heq | heq
      · rw [heq]
        exact h.order
      · rw [heq, ← List.append_assoc, List.filter_append, List.filter_singleton, reply]
        exact (List.append_nil _).symm ▸ h.order
  | take idle eq =>
      obtain ⟨hvalid, hcontents⟩ := contents_dequeueMessage h.valid eq
      refine { h with valid := hvalid, order := ?_ }
      have horder := h.order
      simp only [onTheirWay, hcontents, idle] at horder ⊢
      simpa [SendPc.held] using horder
  | sent pc idle =>
      refine { h with order := ?_ }
      have horder := h.order
      simp only [onTheirWay, pc] at horder
      simp only [onTheirWay, idle]
      simpa [SendPc.held] using horder
  | drop idle =>
      refine { h with order := List.Sublist.trans ?_ h.order }
      simp only [onTheirWay, idle]
      refine List.Sublist.filter _ ?_
      exact ((List.nil_sublist _).append_left _).append_right _
  | count pc lt =>
      have hsucc : (b.numPacketSent + 1).toNat = b.numPacketSent.toNat + 1 := by
        rw [UInt64.toNat_add]
        exact Nat.mod_eq_of_lt lt
      refine ⟨h.valid, h.genuine, h.sorted, fun m hm => ?_,
        fun n hn => ⟨?_, (h.number n hn).2⟩, ?_⟩
      · exact (h.bound m hm).trans (by simp only [hsucc]; omega)
      · exact (h.number n hn).1.trans (by simp only [hsucc]; omega)
      · have horder := h.order
        simp only [onTheirWay, pc] at horder
        exact horder

end Moves

end Outbound

/-! ### Every step is a move -/

def Sys.readsNumber (s : Sys) : Label → Bool
  | .task => match s.task with
      | .top => true
      | _ => false
  | _ => false

def Sys.countsMessage (s : Sys) : Label → Bool
  | .send => match s.send with
      | .counting => true
      | _ => false
  | _ => false

/-- When the number of the next command is read, the counter has moved on
since the last one; and the counter does not overflow. -/
def Sys.Advances (s : Sys) (l : Label) : Prop :=
  (s.readsNumber l = true → s.outbound.MovedOn) ∧
  (s.countsMessage l = true → s.numPacketSent.toNat + 1 < 2 ^ 64)

instance (s : Sys) (l : Label) : Decidable (s.Advances l) :=
  inferInstanceAs (Decidable ((_ → _) ∧ (_ → _)))

theorem createMessageRandom_eq_some {d : Draws} {n : UInt64} {m : MessageControl}
    (h : createMessageRandom d n = some m) : m.numberPacket = n ∧ isCommand m = true := by
  obtain ⟨⟨payload, pri⟩, -, rfl⟩ := Option.map_eq_some_iff.mp h
  refine ⟨numberPacket_buildMessage .., ?_⟩
  have hlt : d.kind % 5 < 5 := Nat.mod_lt _ (by decide)
  rw [isCommand, cmd_buildMessage]
  interval_cases d.kind % 5 <;> rfl

section Steps

variable {s s' : Sys}

theorem Sys.move_sent {m : MessageControl} (pc : s.send = .sending m) (ret : ℤ) :
    s.outbound.Move (s.sent m ret).outbound := by
  unfold Sys.sent
  dsimp only
  by_cases h0 : ret = 0
  · subst h0
    exact .sent pc rfl
  · rw [if_neg h0]
    split
    · exact .drop rfl
    · exact .drop rfl

theorem isCommand_buildAck (n : UInt64) : isCommand (buildAck n) = false := by
  simp [isCommand, buildAck]

theorem isCommand_buildNack (n : UInt64) : isCommand (buildNack n) = false := by
  simp [isCommand, buildNack]

theorem Sys.outbound_receive (s : Sys) (m : MessageControl) :
    (s.receive m).outbound = s.outbound := by
  unfold Sys.receive
  dsimp only
  split <;> rfl

theorem Sys.move_step {l : Label} (h : s.step l = some s') (hok : s.Advances l) :
    s.outbound.Move s'.outbound := by
  cases Sys.step_inv h with
  | readNumber pc => exact .read pc (hok.1 (by simp only [Sys.readsNumber, pc]))
  | taskLoop pc | taskRoom pc =>
      refine .goOn fun k hk => ?_
      split at hk
      · cases hk
      · exact (congrArg TaskPc.number pc).trans hk
  | create pc made =>
      obtain ⟨hnumber, hcommand⟩ := createMessageRandom_eq_some made
      exact .create pc hnumber hcommand
  | sendLoop pc =>
      refine .drop ?_
      split
      · rfl
      · rfl
  | take pc eq => exact .take (congrArg SendPc.held pc) eq
  | takeNothing pc => exact .drop rfl
  | count pc => exact .count pc (hok.2 (by simp only [Sys.countsMessage, pc]))
  | sent pc => exact Sys.move_sent pc _
  | nack pc | nackAgain pc => exact .reply (isCommand_buildNack _)
  | ack pc | ackAgain pc => exact .reply (isCommand_buildAck _)
  | receive pc =>
      rw [Sys.outbound_receive]
      exact .same
  | _ => exact .same

end Steps

/-- **Commands have different numbers**, if each time `task_create_thread`
reads the counter it has moved on since the last command. The commands
that were sent are among those that were made, each of them once, so a
number in a reply stands for one of them at most. -/
theorem command_numbers_distinct {s : Sys} (hs : Reachable Sys.step Sys.Advances Sys.init s) :
    (s.commands.map MessageControl.numberPacket).Nodup ∧
    (∀ m ∈ s.commands, isCommand m = true) ∧
    (s.frames.filter isCommand).Sublist s.commands ∧
    ∀ n, (s.frames.filter isCommand).countP (fun m => m.numberPacket == n) ≤ 1 := by
  have h : s.outbound.Inv := by
    refine hs.invariant (I := fun s => s.outbound.Inv) .init fun s l s' h hok hstep => ?_
    exact h.move (Sys.move_step hstep hok)
  have hnodup : (s.commands.map MessageControl.numberPacket).Nodup := by
    rw [List.Nodup, List.pairwise_map]
    refine h.sorted.imp fun hlt heq => ?_
    rw [heq] at hlt
    exact lt_irrefl _ hlt
  have hsub : (s.frames.filter isCommand).Sublist s.commands := by
    refine List.Sublist.trans (List.Sublist.filter _ ?_) h.order
    rw [Outbound.onTheirWay, List.append_assoc]
    exact List.sublist_append_left _ _
  refine ⟨hnodup, h.genuine, hsub, fun n => ?_⟩
  have hcount := List.nodup_iff_count_le_one.mp (hnodup.sublist (hsub.map _)) n
  rwa [List.count, List.countP_map] at hcount

/-- `task_create_thread` makes a command. -/
def makeCommand : List Label := [.task, .task, .task, .create ⟨0, 0, 0, 0⟩]

/-- `send_thread` takes a message and sends it. -/
def sendNext : List Label := [.send, .send, .sendMessage [.sent 100]]

/-- A frame arrives damaged, and is answered with a `NACK` before the first
command is made; the second command waits until the first has been sent. -/
def nackThenCommands : List Label :=
  List.flatten [[.recv, .poll .ready, .readFrame default, .recv], sendNext, [.send], makeCommand,
    sendNext, [.send], makeCommand, sendNext]

theorem command_numbers_distinct_nackThenCommands :
    ∃ s : Sys, Reachable Sys.step Sys.Advances Sys.init s ∧
      s.frames.map MessageControl.numberPacket = [0, 0, 1, 2] ∧
      s.frames.map isCommand = [true, false, true, true] ∧
      s.commands.map MessageControl.numberPacket = [0, 1, 2] ∧
      (s.commands.map MessageControl.numberPacket).Nodup ∧
      ∀ n, (s.frames.filter isCommand).countP (fun m => m.numberPacket == n) ≤ 1 := by
  have hrun : (runs (guarded Sys.step Sys.Advances) Sys.init nackThenCommands).map
      (fun s => (s.frames.map MessageControl.numberPacket, s.frames.map isCommand,
        s.commands.map MessageControl.numberPacket)) =
      some ([0, 0, 1, 2], [true, false, true, true], [0, 1, 2]) := by
    decide +kernel
  obtain ⟨s, hreach, hobs⟩ := Reachable.exists_of_runs hrun
  simp only [Prod.mk.injEq] at hobs
  obtain ⟨hframes, hkinds, hcommands⟩ := hobs
  obtain ⟨hnodup, -, -, hcount⟩ := command_numbers_distinct hreach
  exact ⟨s, hreach, hframes, hkinds, hcommands, hnodup, hcount⟩

/-- The first command is made and sent as soon as the client has started.
It has the number of the `IDENTIFY`. -/
theorem first_command_repeats_number :
    ∃ s : Sys, Reachable Sys.step (fun _ _ => True) Sys.init s ∧
      s.frames.map MessageControl.cmd = [Command.identify.code, Command.getStatus.code] ∧
      s.frames.map MessageControl.numberPacket = [0, 0] ∧
      s.commands.map MessageControl.numberPacket = [0, 0] := by
  have hrun : (runs (guarded Sys.step fun _ _ => True) Sys.init (makeCommand ++ sendNext)).map
      (fun s => (s.frames.map MessageControl.cmd, s.frames.map MessageControl.numberPacket,
        s.commands.map MessageControl.numberPacket)) =
      some ([Command.identify.code, Command.getStatus.code], [0, 0], [0, 0]) := by
    decide +kernel
  obtain ⟨s, hreach, hobs⟩ := Reachable.exists_of_runs hrun
  simp only [Prod.mk.injEq] at hobs
  obtain ⟨hcmds, hframes, hcommands⟩ := hobs
  exact ⟨s, hreach, hcmds, hframes, hcommands⟩

end LinuxMiniProjects.GatewayCli
