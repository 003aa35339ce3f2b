import LinuxMiniProjects.Pipeline.System

/-!
Acknowledged packets and the mailbox.

`recv_data_thread` acknowledges a packet and then writes it into `data`,
whether `worker_thread` has taken the one before or not. So a packet that
was acknowledged may be overwritten. It is not if the mailbox is empty
whenever a packet is stored, and `has_new_data` is false to begin with;
then the acknowledged packets are those that have been run, followed by
the one in the hands of `worker_thread`, the one in the mailbox and the one
that is about to be stored, in this order.

That a packet is run at all is a matter of wake-ups. The signal comes after
the mutex has been released, and a worker that waits with a packet in the
mailbox is one that is about to be signalled.
-/

namespace LinuxMiniProjects.Pipeline

open Machine

/-- **The condition.** A packet is stored only into an empty mailbox. The
FIFO is reliable: `read` does not fail, and does not come to the end of
it. -/
def Sys.HandsOver (s : Sys) : Label → Prop
  | .recv .store => s.worker.hasNewData = false
  | .recv (.read res) => res = .data ∨ res = .eintr
  | _ => True

instance (s : Sys) : (l : Label) → Decidable (s.HandsOver l)
  | .recv .store => inferInstanceAs (Decidable (_ = _))
  | .recv (.read _) => inferInstanceAs (Decidable (_ ∨ _))
  | .recv (.ack _) | .recv .signal | .recv .finish => instDecidableTrue
  | .send _ | .ack _ | .work _ => instDecidableTrue

def Label.inner : Label → Bool
  | .recv .store | .recv .signal => true
  | .work .enter | .work .lock | .work .run => true
  | _ => false

/-! ### Where the packets are -/

def RecvPc.read : RecvPc → List Packet
  | acking pkt => [pkt]
  | _ => []

def RecvPc.toStore : RecvPc → List Packet
  | storing pkt => [pkt]
  | _ => []

def Worker.inBox (w : Worker) : List Packet := if w.hasNewData then [w.data] else []

def WorkPc.inHand : WorkPc → List Packet
  | busy pkt => [pkt]
  | _ => []

/-- The packets on their way from the acknowledgement to the task
function, oldest first. -/
def Sys.pending (s : Sys) : List Packet := s.work.inHand ++ s.worker.inBox ++ s.recv.toStore

def Packet.Runnable (pkt : Packet) : Prop := pkt.cmd.task ≠ none

def RecvPc.sound : RecvPc → Bool
  | signalling last => !last
  | failing | closing | stopped => false
  | _ => true

theorem cmdRand_runnable (r : ℕ) : (cmdRand r).task ≠ none := by
  have hlt : r % 4 < 4 := Nat.mod_lt _ (by decide)
  unfold cmdRand
  generalize r % 4 = k at hlt ⊢
  interval_cases k <;> decide

structure Sys.Delivers (s : Sys) : Prop where
  running : s.worker.isRunning = true
  sound : s.recv.sound = true
  alive : s.work ≠ .stopped
  wake : s.work = .waiting → s.worker.hasNewData = true → s.recv = .signalling false
  account : s.acked = s.executed.map Prod.snd ++ s.pending
  tasks : ∀ c ∈ s.executed, c.2.cmd.task = some c.1
  coming : ∀ pkt ∈ s.send.packets ++ s.cmdFifo ++ s.recv.read, pkt.Runnable
  runnable : ∀ pkt ∈ s.acked, pkt.Runnable

section Steps

variable {s s' : Sys}

theorem Sys.Delivers.init {stack : Leftover} (h : stack.hasNewData = false) :
    (Sys.init stack).Delivers where
  running := rfl
  sound := rfl
  alive := by simp [Sys.init]
  wake hpc := by cases hpc
  account := by simp [Sys.init, Sys.pending, WorkPc.inHand, Worker.inBox, RecvPc.toStore, h]
  tasks c hc := by cases hc
  coming pkt hpkt := by simp [Sys.init, SendPc.packets, RecvPc.read] at hpkt
  runnable pkt hpkt := by cases hpkt

theorem Sys.Delivers.of_controller (h : s.Delivers) (hworker : s'.worker = s.worker)
    (hrecv : s'.recv = s.recv) (hwork : s'.work = s.work) (hacked : s'.acked = s.acked)
    (hexecuted : s'.executed = s.executed)
    (hcoming : ∀ pkt ∈ s'.send.packets ++ s'.cmdFifo, pkt.Runnable) : s'.Delivers where
  running := by rw [hworker, h.running]
  sound := by rw [hrecv, h.sound]
  alive := by rw [hwork]; exact h.alive
  wake := by rw [hwork, hworker, hrecv]; exact h.wake
  account := by rw [hacked, hexecuted, h.account, pending, pending, hworker, hrecv, hwork]
  tasks := by rw [hexecuted]; exact h.tasks
  coming pkt hpkt := by
    rcases List.mem_append.mp hpkt with hpkt | hpkt
    · exact hcoming pkt hpkt
    · rw [hrecv] at hpkt
      exact h.coming pkt (List.mem_append_right _ hpkt)
  runnable := by rw [hacked]; exact h.runnable

theorem SendPc.mem_packets_again {pkt pkt' : Packet} {tryResend : ℕ}
    (h : pkt' ∈ (SendPc.again pkt tryResend).packets) : pkt' = pkt := by
  unfold SendPc.again at h
  split at h
  next => exact List.mem_singleton.mp h
  next => cases h

theorem Sys.Delivers.sendStep (h : s.Delivers) {l : SendLabel} (hs : s.SendStep l s') :
    s'.Delivers := by
  have hfifo : ∀ pkt ∈ s.cmdFifo, pkt.Runnable := fun pkt hpkt =>
    h.coming pkt (List.mem_append_left _ (List.mem_append_right _ hpkt))
  have hsend : ∀ pkt ∈ s.send.packets, pkt.Runnable := fun pkt hpkt =>
    h.coming pkt (List.mem_append_left _ (List.mem_append_left _ hpkt))
  cases hs with
  | enter pc | finish pc =>
      refine h.of_controller rfl rfl rfl rfl rfl ?_
      dsimp only
      split <;> exact hfifo
  | create pc =>
      refine h.of_controller rfl rfl rfl rfl rfl fun pkt hpkt => ?_
      rcases List.mem_append.mp hpkt with hpkt | hpkt
      · rw [List.mem_singleton.mp hpkt]
        exact cmdRand_runnable _
      · exact hfifo pkt hpkt
  | @write pkt tryResend ok pc =>
      have hpkt : pkt.Runnable := hsend pkt (by rw [pc]; exact List.mem_singleton_self pkt)
      refine h.of_controller rfl rfl rfl rfl rfl ?_
      simp only [Sys.write, SendPc.packets, List.forall_mem_append, List.forall_mem_singleton]
      refine ⟨hpkt, ?_⟩
      cases ok with
      | false => exact hfifo
      | true => exact List.forall_mem_append.mpr ⟨hfifo, List.forall_mem_singleton.mpr hpkt⟩
  | @test pkt tryResend pc =>
      have hpkt : pkt.Runnable := hsend pkt (by rw [pc]; exact List.mem_singleton_self pkt)
      obtain ⟨-, -, heq⟩ | ⟨-, ⟨-, heq⟩ | ⟨-, heq⟩⟩ := s.test_cases pkt tryResend
      · rw [heq]
        refine h.of_controller rfl rfl rfl rfl rfl (List.forall_mem_append.mpr ⟨?_, hfifo⟩)
        exact List.forall_mem_singleton.mpr hpkt
      · rw [heq]
        refine h.of_controller rfl rfl rfl rfl rfl (List.forall_mem_append.mpr ⟨?_, hfifo⟩)
        intro pkt' hpkt'
        rw [SendPc.mem_packets_again hpkt']
        exact hpkt
      · rw [heq]
        exact h.of_controller rfl rfl rfl rfl rfl hfifo
  | @wake pkt tryResend pc =>
      refine h.of_controller rfl rfl rfl rfl rfl (List.forall_mem_append.mpr ⟨?_, hfifo⟩)
      exact fun pkt' hpkt' => hsend pkt' (by rw [pc]; exact hpkt')

theorem Sys.Delivers.ackStep (h : s.Delivers) {l : AckLabel} (hs : s.AckStep l s') :
    s'.Delivers := by
  have hcoming : ∀ pkt ∈ s.send.packets ++ s.cmdFifo, pkt.Runnable := fun pkt hpkt =>
    h.coming pkt (List.mem_append_left _ hpkt)
  cases hs with
  | eintr pc => exact h
  | _ => exact h.of_controller rfl rfl rfl rfl rfl hcoming

/-- `recv_data_thread` acknowledges only what it has read, and stores what
it has acknowledged. -/
theorem Sys.Delivers.recvStep (h : s.Delivers) {l : RecvLabel} (hs : s.RecvStep l s')
    (hok : s.HandsOver (.recv l)) : s'.Delivers := by
  have hwake {recv : RecvPc} (hrecv : s.recv ≠ .signalling false) (hwork : s.work = .waiting)
      (hnew : s.worker.hasNewData = true) : recv = .signalling false :=
    absurd (h.wake hwork hnew) hrecv
  have hcoming : ∀ pkt ∈ s.send.packets ++ s.cmdFifo, pkt.Runnable := fun pkt hpkt =>
    h.coming pkt (List.mem_append_left _ hpkt)
  have hsound := h.sound
  cases hs with
  | @read pkt rest pc fifo =>
      refine { h with sound := rfl, wake := hwake (by simp [pc]), account := ?_, coming := ?_ }
      · simpa [Sys.pending, pc, RecvPc.toStore] using h.account
      · intro pkt' hpkt'
        refine hcoming pkt' ?_
        rw [fifo]
        simp only [RecvPc.read, List.mem_append, List.mem_cons] at hpkt' ⊢
        tauto
  | eintr pc => exact h
  | error pc | eof pc => simp [Sys.HandsOver] at hok
  | @ack pkt pc =>
      have hpkt : pkt.Runnable := h.coming pkt (by simp [pc, RecvPc.read])
      refine { h with
        sound := rfl
        wake := hwake (by simp [pc])
        account := ?_
        coming := ?_
        runnable := ?_ }
      · have haccount := h.account
        simp [Sys.pending, pc, RecvPc.toStore] at haccount ⊢
        simp [haccount]
      · simpa [RecvPc.read] using hcoming
      · exact List.forall_mem_append.mpr ⟨h.runnable, List.forall_mem_singleton.mpr hpkt⟩
  | ackFailed pc =>
      refine { h with sound := rfl, wake := hwake (by simp [pc]), account := ?_, coming := ?_ }
      · simpa [Sys.pending, pc, RecvPc.toStore] using h.account
      · simpa [RecvPc.read] using hcoming
  | @store pkt pc =>
      -- the mailbox is empty, so the packet is the only one in it
      have hempty : s.worker.hasNewData = false := hok
      refine { h with sound := rfl, wake := fun _ _ => rfl, account := ?_, coming := ?_ }
      · simpa [Sys.pending, pc, RecvPc.toStore, Worker.inBox, hempty] using h.account
      · simpa [RecvPc.read] using hcoming
  | @signal last pc =>
      obtain rfl : last = false := by simpa [pc, RecvPc.sound] using hsound
      refine { h with sound := rfl, alive := ?_, wake := ?_, account := ?_, coming := ?_ }
      · cases hwork : s.work with
        | stopped => exact absurd hwork h.alive
        | _ => simp [WorkPc.signalled]
      · cases s.work <;> simp [WorkPc.signalled]
      · have hhand : s.work.signalled.inHand = s.work.inHand := by
          cases s.work <;> rfl
        simpa [Sys.pending, pc, RecvPc.toStore, hhand] using h.account
      · simpa [RecvPc.read] using hcoming
  | fail pc | close pc => simp [pc, RecvPc.sound] at hsound

theorem Sys.Delivers.workStep (h : s.Delivers) {l : WorkLabel} (hs : s.WorkStep l s') :
    s'.Delivers := by
  have haccount := h.account
  cases hs with
  | enter pc =>
      refine { h with alive := ?_, wake := ?_, account := ?_ }
      · simp [h.running]
      · simp [h.running]
      · simpa [Sys.pending, pc, h.running, WorkPc.inHand] using haccount
  | lock pc =>
      obtain ⟨hempty, -, heq⟩ | ⟨-, hstopped, -⟩ | ⟨hnew, heq⟩ := s.take_cases
      · rw [heq]
        refine { h with alive := by simp, wake := ?_, account := ?_ }
        · intro _ hnew
          rw [hempty] at hnew
          cases hnew
        · simpa [Sys.pending, pc, WorkPc.inHand] using haccount
      · rw [h.running] at hstopped
        cases hstopped
      · rw [heq]
        refine { h with alive := by simp, wake := ?_, account := ?_ }
        · intro hpc
          cases hpc
        · simpa [Sys.pending, pc, WorkPc.inHand, Worker.inBox, hnew] using haccount
  | wake pc =>
      refine { h with alive := by simp, wake := ?_, account := ?_ }
      · intro hpc
        cases hpc
      · simpa [Sys.pending, pc, WorkPc.inHand] using haccount
  | @run pkt pc =>
      have hpkt : pkt.Runnable := by
        refine h.runnable pkt ?_
        rw [haccount]
        simp [Sys.pending, pc, WorkPc.inHand]
      obtain ⟨task, htask⟩ := Option.ne_none_iff_exists'.mp hpkt
      refine { h with alive := by simp [Sys.run], wake := ?_, account := ?_, tasks := ?_ }
      · intro hpc
        cases hpc
      · simpa [Sys.run, htask, Sys.pending, pc, WorkPc.inHand] using haccount
      · simp only [Sys.run, htask]
        exact List.forall_mem_append.mpr ⟨h.tasks, List.forall_mem_singleton.mpr htask⟩

theorem Sys.Delivers.step (h : s.Delivers) {l : Label} (hok : s.HandsOver l)
    (hs : s.step l = some s') : s'.Delivers := by
  cases l with
  | send l => exact h.sendStep (Sys.sendStep_inv hs)
  | ack l => exact h.ackStep (Sys.ackStep_inv hs)
  | recv l => exact h.recvStep (Sys.recvStep_inv hs) hok
  | work l => exact h.workStep (Sys.workStep_inv hs)

end Steps

/-! ### The worker does not stop halfway -/

def RecvPc.rank : RecvPc → ℕ
  | storing _ => 6
  | signalling _ => 2
  | _ => 0

def WorkPc.rank : WorkPc → ℕ
  | entering | busy _ => 2
  | locking => 1
  | _ => 0

def Sys.rank (s : Sys) : ℕ :=
  s.recv.rank + (if s.worker.hasNewData then 3 else 0) + s.work.rank

theorem Sys.rank_le (s : Sys) : s.rank ≤ 11 := by
  have hrecv : s.recv.rank ≤ 6 := by cases s.recv <;> simp [RecvPc.rank]
  have hwork : s.work.rank ≤ 2 := by cases s.work <;> simp [WorkPc.rank]
  unfold rank
  split <;> omega

theorem WorkPc.rank_signalled (pc : WorkPc) : pc.signalled.rank ≤ pc.rank + 1 := by
  cases pc <;> simp [signalled, rank]

theorem Sys.rank_lt {s s' : Sys} {l : Label} (hl : l.inner = true) (hs : s.step l = some s') :
    s'.rank < s.rank := by
  cases l with
  | send l => cases hl
  | ack l => cases hl
  | recv l =>
      cases Sys.recvStep_inv hs with
      | store pc =>
          simp only [Sys.rank, pc, RecvPc.rank, if_true]
          omega
      | @signal last pc =>
          have hwork := s.work.rank_signalled
          have hrecv : (if last then RecvPc.stopped else .reading).rank = 0 := by
            cases last <;> rfl
          have hpc : s.recv.rank = 2 := by rw [pc]; rfl
          simp only [Sys.rank, hrecv, hpc]
          omega
      | _ => cases hl
  | work l =>
      cases Sys.workStep_inv hs with
      | enter pc =>
          have hwork : (if s.worker.isRunning then WorkPc.locking else .stopped).rank ≤ 1 := by
            cases s.worker.isRunning <;> simp [WorkPc.rank]
          have hpc : s.work.rank = 2 := by rw [pc]; rfl
          simp only [Sys.rank, hpc]
          omega
      | lock pc =>
          obtain ⟨-, -, heq⟩ | ⟨-, -, heq⟩ | ⟨hnew, heq⟩ := s.take_cases
          · simp [heq, Sys.rank, pc, WorkPc.rank]
          · simp [heq, Sys.rank, pc, WorkPc.rank]
          · simp [heq, Sys.rank, pc, WorkPc.rank, hnew]
      | @run pkt pc =>
          have hpc : s.work.rank = 2 := by rw [pc]; rfl
          have hafter : (s.run pkt).rank =
            s.recv.rank + (if s.worker.hasNewData then 3 else 0) + 1 := rfl
          rw [hafter, Sys.rank, hpc]
          omega
      | wake pc => cases hl

theorem Sys.Delivers.pending_eq_nil {s : Sys} (h : s.Delivers)
    (hquiet : ∀ l : Label, l.inner = true → s.step l = none) : s.pending = [] := by
  have hstore : ∀ pkt, s.recv ≠ .storing pkt := by
    intro pkt hpc
    have := hquiet (.recv .store) rfl
    simp [Sys.step, Sys.recvStep, hpc] at this
  have hsignal : s.recv ≠ .signalling false := by
    intro hpc
    have := hquiet (.recv .signal) rfl
    simp [Sys.step, Sys.recvStep, hpc] at this
  have hwork : s.work = .waiting := by
    cases hpc : s.work with
    | entering =>
        have := hquiet (.work .enter) rfl
        simp [Sys.step, Sys.workStep, hpc] at this
    | locking =>
        have := hquiet (.work .lock) rfl
        simp [Sys.step, Sys.workStep, hpc] at this
    | waiting => rfl
    | busy pkt =>
        have := hquiet (.work .run) rfl
        simp [Sys.step, Sys.workStep, hpc] at this
    | stopped => exact absurd hpc h.alive
  have hempty : s.worker.hasNewData = false := by
    by_contra hnew
    exact hsignal (h.wake hwork (by simpa using hnew))
  have hrecv : s.recv.toStore = [] := by
    cases hpc : s.recv with
    | storing pkt => exact absurd hpc (hstore pkt)
    | _ => rfl
  simp [Sys.pending, hwork, WorkPc.inHand, Worker.inBox, hempty, hrecv]

/-- **Acknowledged packets are run.** If a packet is stored only into an
empty mailbox, and the mailbox is empty at first, then at any time the
packets that were run are the first of those that were acknowledged, each
by its task function, once, and in the order of the acknowledgements. The
worker takes at most eleven steps by itself, and when it cannot take any
more the acknowledged packets have all been run. -/
theorem acknowledged_packets_run {stack : Leftover} (hstack : stack.hasNewData = false) {s : Sys}
    (h : Reachable Sys.step Sys.HandsOver (Sys.init stack) s) :
    (∃ pending, s.acked = s.executed.map Prod.snd ++ pending) ∧
      (∀ c ∈ s.executed, c.2.cmd.task = some c.1) ∧
      (∀ ls s', runs Sys.step s ls = some s' → (∀ l ∈ ls, l.inner = true) → ls.length ≤ 11) ∧
      ((∀ l : Label, l.inner = true → s.step l = none) → s.executed.map Prod.snd = s.acked) := by
  have hinv : s.Delivers :=
    h.invariant (.init hstack) fun _ _ _ ih hok hs => ih.step hok hs
  refine ⟨⟨_, hinv.account⟩, hinv.tasks, fun ls s' hls hinner => ?_, fun hquiet => ?_⟩
  · exact (length_le_rank (fun _ _ _ hl hs => Sys.rank_lt hl hs) hls hinner).trans s.rank_le
  · rw [hinv.account, hinv.pending_eq_nil hquiet, List.append_nil]

/-! ### Short runs -/

def cleanStack : Leftover where
  ackSend := 0
  ackReceived := false
  hasNewData := false
  data := ⟨0, .ping, []⟩

def exchange (r : ℕ) : List Label :=
  [.send (.create r []), .send (.write true), .recv (.read .data), .recv (.ack true)]

def confirm : List Label :=
  [.ack (.read .data), .ack .store, .send .test, .send .finish]

/-- Two packets, the first of which is taken out of the mailbox before the
second comes. -/
def takenInTime : List Label :=
  List.flatten [[.send .enter], exchange 0,
    [.recv .store, .recv .signal, .work .enter, .work .lock], confirm, exchange 1,
    [.recv .store, .work .run]]

theorem acknowledged_packets_run_twice :
    ∃ s, Reachable Sys.step Sys.HandsOver (Sys.init cleanStack) s ∧
      s.executed.map (fun c => c.2.numPkt) = [1] ∧ s.acked.map Packet.numPkt = [1, 2] ∧
      ∃ pending, s.acked = s.executed.map Prod.snd ++ pending := by
  have hrun : (runs (guarded Sys.step Sys.HandsOver) (Sys.init cleanStack) takenInTime).map
      (fun s => (s.executed.map fun c => c.2.numPkt, s.acked.map Packet.numPkt)) =
        some ([1], [1, 2]) := by decide +kernel
  obtain ⟨s, hreach, hobs⟩ := Reachable.exists_of_runs hrun
  obtain ⟨hexecuted, hacked⟩ := Prod.mk.inj hobs
  exact ⟨s, hreach, hexecuted, hacked, (acknowledged_packets_run rfl hreach).1⟩

def Label.reliable : Label → Bool
  | .recv (.read .error) | .recv (.read .eof) => false
  | _ => true

/-- Two packets, the second of which comes before `worker_thread` has looked
into the mailbox. -/
def takenTooLate : List Label :=
  List.flatten [[.send .enter], exchange 0, [.recv .store, .recv .signal], confirm, exchange 1,
    [.recv .store, .recv .signal, .work .enter, .work .lock, .work .run, .work .lock]]

theorem acknowledged_packet_overwritten :
    ∃ s, Reachable Sys.step (fun _ l => l.reliable = true) (Sys.init cleanStack) s ∧
      (∀ l : Label, l.inner = true → s.step l = none) ∧
      s.executed.map Prod.snd ≠ s.acked := by
  have hrun : (runs (guarded Sys.step fun _ l => l.reliable = true) (Sys.init cleanStack)
      takenTooLate).map
      (fun s => (s.recv, s.work, s.executed.map fun c => c.2.numPkt, s.acked.map Packet.numPkt)) =
        some (.reading, .waiting, [2], [1, 2]) := by decide +kernel
  obtain ⟨s, hreach, hobs⟩ := Reachable.exists_of_runs hrun
  simp only [Prod.mk.injEq] at hobs
  obtain ⟨hrecv, hwork, hexecuted, hacked⟩ := hobs
  refine ⟨s, hreach, fun l hl => ?_, fun heq => ?_⟩
  · cases l with
    | send l => cases hl
    | ack l => cases hl
    | recv l =>
        cases l with
        | store | signal => simp [Sys.step, Sys.recvStep, hrecv]
        | _ => cases hl
    | work l =>
        cases l with
        | enter | lock | run => simp [Sys.step, Sys.workStep, hwork]
        | wake => cases hl
  · have hnums := congrArg (List.map Packet.numPkt) heq
    simp only [List.map_map, Function.comp_def, hexecuted, hacked] at hnums
    simp at hnums

end LinuxMiniProjects.Pipeline
