import Mathlib.Data.List.Perm.Basic
import LinuxMiniProjects.SensorHub.Writer

/-!
Every command is handled.

The ring is right as long as `main` writes into it while `is_running` is
true, for then it has waited until there is room. Also, a worker ends only
when `is_running` is false and the ring is empty, so that nothing is put
into the ring after a worker has ended. But `main` looks at `is_running`,
then receives a command, and then writes it: if `is_running` is cleared in
between, the command is written into a ring that may be full, or that
nobody reads any more.

The commands that were received are those that were taken out of the ring,
followed by those in the ring and the one `main` has in its hands; and
those that were taken out are either handled or in the hands of a worker.
What is not handled is handled later, because a worker that waits while
there are commands in the ring is matched by another one that is about to
look.
-/

namespace LinuxMiniProjects.SensorHub

open Machine CondVar

/-- **The condition.** `is_running` is true when `main` writes a command into
the ring. -/
def Sys.Open (s : Sys) : Label → Prop
  | .main (.insert _) => s.data.isRunning = true
  | _ => True

instance (s : Sys) : (l : Label) → Decidable (s.Open l)
  | .main (.insert _) => inferInstanceAs (Decidable (_ = _))
  | .main .check | .main (.recv _) | .main .clear | .main .wait => instDecidableTrue
  | .main .wake | .main .close | .main .join | .main .joinSig => instDecidableTrue
  | .worker _ _ | .sig _ => instDecidableTrue

def MainPc.hand : MainPc → List MessageControl
  | inserting ctrl | waiting ctrl => [ctrl]
  | _ => []

def WorkerPc.hand : WorkerPc → Option MessageControl
  | handling ctrl => some ctrl
  | _ => none

def inHand (worker : Fin numberWorker → WorkerPc) (c : MessageControl) : ℕ :=
  numHolding WorkerPc.hand worker c

structure Sys.Drains (s : Sys) : Prop where
  ring : s.data.ring.Valid queueSize
  account : s.received = s.dequeued ++ s.data.ring.contents queueSize ++ s.main.hand
  hands : ∀ c, s.handled.count c + inHand s.worker c = s.dequeued.count c
  ended : ∀ i, s.worker i = .stopped → s.data.isRunning = false ∧ s.data.count = 0
  covered : Covered .waiting .start s.data.count s.worker
  full : ∀ ctrl, s.main = .waiting ctrl → s.data.count = queueSize

theorem Sys.Drains.init (stack : ℕ → MessageControl) : (Sys.init stack).Drains where
  ring := ⟨rfl, Nat.zero_lt_succ _, Nat.zero_le _⟩
  account := rfl
  hands c := by
    have hnone : inHand (Sys.init stack).worker c = 0 := numHolding_eq_zero (fun _ => rfl) c
    rw [hnone]
    rfl
  ended i hi := by cases hi
  covered := .zero _
  full ctrl hpc := by cases hpc

section Steps

variable {s s' : Sys}

theorem Sys.Drains.of_main (h : s.Drains) {main : MainPc} (hhand : main.hand = s.main.hand)
    (hfull : ∀ ctrl, main = .waiting ctrl → s.data.count = queueSize) :
    ({ s with main } : Sys).Drains :=
  { h with
    account := hhand ▸ h.account
    full := hfull }

theorem Sys.Drains.of_sig (h : s.Drains) {sig : SigPc} : ({ s with sig } : Sys).Drains := { h with }

theorem Sys.Drains.of_clear (h : s.Drains) :
    ({ s with data := { s.data with isRunning := false } } : Sys).Drains :=
  { h with
    ring := h.ring
    account := h.account
    ended := fun i hi => ⟨rfl, (h.ended i hi).2⟩
    covered := h.covered }

theorem Sys.Drains.of_wakeAll (h : s.Drains) :
    ({ s with worker := wakeAll s.worker } : Sys).Drains :=
  have hwoken := woken_broadcast WorkerPc.waiting .start s.worker
  { h with
    hands := fun c => (congrArg _ (hwoken.numHolding_eq rfl c)).trans (h.hands c)
    ended := fun i hi => h.ended i (hwoken.eq_of_eq hi nofun)
    covered := .broadcast nofun }

theorem Sys.Drains.mainStep {l : MainLabel} (h : s.Drains) (hok : s.Open (.main l))
    (hs : s.MainStep l s') : s'.Drains := by
  cases hs with
  | check pc =>
      refine h.of_main ?_ ?_
      · rw [pc]
        cases s.data.isRunning <;> rfl
      · cases s.data.isRunning <;> nofun
  | fail pc | recvShutdown pc | wake pc | join pc | joinSig pc =>
      exact h.of_main (by rw [pc]; rfl) nofun
  | @recv ctrl pc =>
      refine { h with account := ?_, full := nofun }
      have haccount := h.account
      rw [pc] at haccount
      simp only [haccount, MainPc.hand, List.append_nil]
  | clear pc => exact h.of_clear.of_main (by rw [pc]; rfl) nofun
  | wait pc full => exact h.of_main (by rw [pc]; rfl) fun _ _ => full.1
  | @insert ctrl woken worker pc room signalled =>
      have hrun : s.data.isRunning = true := hok
      have hlt : s.data.count < queueSize := by
        refine lt_of_le_of_ne h.ring.count fun hfull => room ⟨hfull, hrun⟩
      have haccount := h.account
      rw [pc] at haccount
      refine { h with
        ring := h.ring.push hlt ctrl
        account := ?_
        hands := fun c => ?_
        ended := fun i hi => ?_
        covered := h.covered.signal nofun signalled
        full := nofun }
      · show s.received = s.dequeued ++ (s.data.ring.push queueSize ctrl).contents queueSize ++ []
        rw [h.ring.contents_push hlt, haccount, List.append_nil, MainPc.hand, List.append_assoc]
      · exact (congrArg _ (signalled.woken.numHolding_eq rfl c)).trans (h.hands c)
      · -- nobody has ended, since `is_running` is true
        rw [(h.ended i (signalled.woken.eq_of_eq hi nofun)).1] at hrun
        cases hrun
  | close pc => exact h.of_clear.of_wakeAll.of_main (by rw [pc]; rfl) nofun

theorem MainPc.hand_signalled (pc : MainPc) : pc.signalled.hand = pc.hand := by
  cases pc <;> rfl

theorem MainPc.signalled_ne (pc : MainPc) (ctrl : MessageControl) :
    pc.signalled ≠ .waiting ctrl := by
  cases pc <;> nofun

theorem Sys.Drains.take {i : Fin numberWorker} (h : s.Drains) (pc : s.worker i = .start)
    (pos : 0 < s.data.count) : (s.take i).Drains := by
  obtain ⟨n, hn⟩ := Nat.exists_eq_succ_of_ne_zero pos.ne'
  have hcovered := h.covered
  rw [hn] at hcovered
  refine { h with
    ring := h.ring.pop pos
    account := ?_
    hands := fun c => ?_
    ended := fun j hj => ?_
    covered := ?_
    full := fun ctrl hpc => absurd hpc (s.main.signalled_ne ctrl) }
  · show s.received = s.dequeued ++ [s.data.ring.front] ++
      (s.data.ring.pop queueSize).contents queueSize ++ s.main.signalled.hand
    rw [s.main.hand_signalled, h.account, h.ring.contents_eq_cons pos, List.append_cons]
  · have hi : (s.worker i).hand = none := by rw [pc]; rfl
    have hx : (WorkerPc.handling s.data.ring.front).hand = some s.data.ring.front := rfl
    have hmove : inHand (s.take i).worker c = inHand s.worker c + [s.data.ring.front].count c :=
      numHolding_take hi hx c
    have hcount : (s.take i).dequeued.count c =
        s.dequeued.count c + [s.data.ring.front].count c := List.count_append
    rw [hmove, hcount, ← h.hands c, Nat.add_assoc]
    rfl
  · have := (h.ended j (eq_of_update_eq hj nofun)).2
    omega
  · have hleft : s.data.drop.count = n := by simp [ThreadData.drop, hn]
    show Covered WorkerPc.waiting .start s.data.drop.count _
    rw [hleft]
    exact hcovered.take pc nofun nofun

theorem Sys.Drains.workerStep {i : Fin numberWorker} {l : WorkerLabel} (h : s.Drains)
    (hs : s.WorkerStep i l s') : s'.Drains := by
  -- a worker that has nothing in its hands, before or after the step
  have hidle : ∀ {x : WorkerPc}, x.hand = (s.worker i).hand →
      ∀ c, s.handled.count c + inHand (Function.update s.worker i x) c = s.dequeued.count c :=
    fun hx c => (congrArg _ (numHolding_update hx c)).trans (h.hands c)
  cases hs with
  | wait pc empty run =>
      exact { h with
        hands := hidle (by rw [pc]; rfl)
        ended := fun j hj => h.ended j (eq_of_update_eq hj nofun)
        covered := empty ▸ .zero _ }
  | stop pc empty ended =>
      exact { h with
        hands := hidle (by rw [pc]; rfl)
        ended := fun _ _ => ⟨ended, empty⟩
        covered := empty ▸ .zero _ }
  | take pc pos => exact h.take pc pos
  | wake pc =>
      exact { h with
        hands := hidle (by rw [pc]; rfl)
        ended := fun j hj => h.ended j (eq_of_update_eq hj nofun)
        covered := h.covered.update (by rw [pc]; nofun) nofun }
  | @handle ctrl pc =>
      refine { h with
        hands := fun c => ?_
        ended := fun j hj => h.ended j (eq_of_update_eq hj nofun)
        covered := h.covered.update (by rw [pc]; nofun) nofun }
      have hi : (s.worker i).hand = some ctrl := by rw [pc]; rfl
      have hx : WorkerPc.start.hand = none := rfl
      have hmove : inHand (Function.update s.worker i .start) c + [ctrl].count c =
          inHand s.worker c := numHolding_release hi hx c
      show (s.handled ++ [ctrl]).count c + inHand (Function.update s.worker i .start) c =
        s.dequeued.count c
      rw [← h.hands c, ← hmove, List.count_append]
      omega

theorem Sys.Drains.sigStep {l : SigLabel} (h : s.Drains) (hs : s.SigStep l s') : s'.Drains := by
  cases hs with
  | fail pc => exact h
  | take pc => exact h.of_sig
  | clear pc => exact h.of_clear.of_sig
  | broadcast pc => exact h.of_wakeAll.of_sig

theorem Sys.Drains.step {l : Label} (h : s.Drains) (hok : s.Open l) (hs : s.step l = some s') :
    s'.Drains := by
  cases l with
  | main l => exact h.mainStep hok (Sys.mainStep_inv hs)
  | worker i l => exact h.workerStep (Sys.workerStep_inv hs)
  | sig l => exact h.sigStep (Sys.sigStep_inv hs)

end Steps

/-! ### The process does not stop halfway -/

/-- A step that waits for nothing from outside: no command, no signal, and
no wake-up that nobody has sent. -/
def Label.inner : Label → Bool
  | .main (.recv _) | .main .wake | .worker _ .wake | .sig (.take _) => false
  | _ => true

def MainPc.rank : MainPc → ℕ
  | inserting _ => 13
  | waiting _ => 12
  | top | clearing => 8
  | closing => 7
  | joining => 2
  | joiningSig => 1
  | receiving | stopped => 0

def SigPc.rank : SigPc → ℕ
  | clearing => 6
  | broadcasting => 5
  | waiting | stopped => 0

def WorkerPc.isStart (pc : WorkerPc) : Bool := decide (pc = .start)

def WorkerPc.isHandling : WorkerPc → Bool
  | handling _ => true
  | _ => false

/-- The workers have one step to make when they start and two when they
handle a command. -/
def workerRank (worker : Fin numberWorker → WorkerPc) : ℕ :=
  numAt WorkerPc.isStart worker + 2 * numAt WorkerPc.isHandling worker

def Sys.rank (s : Sys) : ℕ :=
  s.main.rank + 3 * s.data.count + workerRank s.worker + s.sig.rank

theorem workerRank_update (worker : Fin numberWorker → WorkerPc) (i : Fin numberWorker)
    (x : WorkerPc) :
    workerRank (Function.update worker i x) +
        ((worker i).isStart.toNat + 2 * (worker i).isHandling.toNat) =
      workerRank worker + (x.isStart.toNat + 2 * x.isHandling.toNat) := by
  have hstart := numAt_update WorkerPc.isStart worker i x
  have hhandling := numAt_update WorkerPc.isHandling worker i x
  unfold workerRank
  omega

theorem workerRank_signalled {worker worker' : Fin numberWorker → WorkerPc}
    (h : Signalled .waiting .start worker worker') :
    workerRank worker' ≤ workerRank worker + 1 := by
  have hstart := h.numAt_le WorkerPc.isStart
  have hhandling := h.woken.numAt_eq (P := WorkerPc.isHandling) rfl
  unfold workerRank
  omega

theorem workerRank_wakeAll (worker : Fin numberWorker → WorkerPc) :
    workerRank (wakeAll worker) ≤ workerRank worker + 4 := by
  have hstart : numAt WorkerPc.isStart (wakeAll worker) ≤ 4 := numAt_le_card _ _
  have hhandling : numAt WorkerPc.isHandling (wakeAll worker) = numAt WorkerPc.isHandling worker :=
    (woken_broadcast _ _ _).numAt_eq rfl
  unfold workerRank
  omega

theorem workerRank_le (worker : Fin numberWorker → WorkerPc) : workerRank worker ≤ 12 := by
  have hstart : numAt WorkerPc.isStart worker ≤ 4 := numAt_le_card _ _
  have hhandling : numAt WorkerPc.isHandling worker ≤ 4 := numAt_le_card _ _
  unfold workerRank
  omega

theorem MainPc.rank_signalled (pc : MainPc) : pc.signalled.rank ≤ pc.rank + 1 := by
  cases pc <;> simp [signalled, rank]

section Rank

variable {s s' : Sys}

theorem Sys.rank_mainStep {l : MainLabel} (hl : (Label.main l).inner = true)
    (hs : s.MainStep l s') : s'.rank < s.rank := by
  cases hs with
  | check pc =>
      have hrank : (if s.data.isRunning then MainPc.receiving else .closing).rank ≤ 7 := by
        cases s.data.isRunning <;> decide
      simp only [Sys.rank, pc, MainPc.rank] at hrank ⊢
      omega
  | clear pc | wait pc | join pc | joinSig pc =>
      simp only [Sys.rank, pc, MainPc.rank]
      omega
  | @insert ctrl woken worker pc room signalled =>
      have hworker := workerRank_signalled signalled
      simp only [Sys.rank, Sys.insert, ThreadData.put, pc, MainPc.rank]
      omega
  | close pc =>
      have hworker := workerRank_wakeAll s.worker
      simp only [Sys.rank, pc, MainPc.rank]
      omega
  | _ => cases hl

theorem Sys.rank_workerStep {i : Fin numberWorker} {l : WorkerLabel}
    (hl : (Label.worker i l).inner = true) (hs : s.WorkerStep i l s') : s'.rank < s.rank := by
  cases hs with
  | wait pc empty run =>
      have hworker := workerRank_update s.worker i .waiting
      simp [Sys.rank, pc, WorkerPc.isStart, WorkerPc.isHandling] at hworker ⊢
      omega
  | stop pc empty ended =>
      have hworker := workerRank_update s.worker i .stopped
      simp [Sys.rank, pc, WorkerPc.isStart, WorkerPc.isHandling] at hworker ⊢
      omega
  | take pc pos =>
      have hworker := workerRank_update s.worker i (.handling (s.data.ctrl s.data.head))
      have hmain := s.main.rank_signalled
      simp [Sys.rank, Sys.take, ThreadData.drop, pc, WorkerPc.isStart,
        WorkerPc.isHandling] at hworker ⊢
      omega
  | wake pc => cases hl
  | handle pc =>
      have hworker := workerRank_update s.worker i .start
      simp [Sys.rank, pc, WorkerPc.isStart, WorkerPc.isHandling] at hworker ⊢
      omega

theorem Sys.rank_sigStep {l : SigLabel} (hl : (Label.sig l).inner = true) (hs : s.SigStep l s') :
    s'.rank < s.rank := by
  cases hs with
  | clear pc =>
      simp only [Sys.rank, pc, SigPc.rank]
      omega
  | broadcast pc =>
      have hworker := workerRank_wakeAll s.worker
      simp only [Sys.rank, pc, SigPc.rank]
      omega
  | _ => cases hl

theorem Sys.rank_lt {l : Label} (hl : l.inner = true) (hs : s.step l = some s') :
    s'.rank < s.rank := by
  cases l with
  | main l => exact Sys.rank_mainStep hl (Sys.mainStep_inv hs)
  | worker i l => exact Sys.rank_workerStep hl (Sys.workerStep_inv hs)
  | sig l => exact Sys.rank_sigStep hl (Sys.sigStep_inv hs)

end Rank

theorem Sys.Drains.rank_le {s : Sys} (h : s.Drains) : s.rank ≤ 223 := by
  have hmain : s.main.rank ≤ 13 := by cases s.main <;> simp [MainPc.rank]
  have hsig : s.sig.rank ≤ 6 := by cases s.sig <;> simp [SigPc.rank]
  have hworker := workerRank_le s.worker
  have hcount : s.data.count ≤ 64 := h.ring.count
  unfold Sys.rank
  omega

section Quiet

variable {s : Sys} (hquiet : ∀ l : Label, l.inner = true → s.step l = none)

include hquiet

theorem worker_of_quiet (i : Fin numberWorker) : s.worker i = .waiting ∨ s.worker i = .stopped := by
  cases hpc : s.worker i with
  | start =>
      have := hquiet (.worker i .lock) rfl
      simp [Sys.step, Sys.workerStep, hpc] at this
  | waiting => exact .inl rfl
  | handling ctrl =>
      have := hquiet (.worker i .handle) rfl
      simp [Sys.step, Sys.workerStep, hpc] at this
  | stopped => exact .inr rfl

theorem main_ne_inserting_of_quiet (ctrl : MessageControl) : s.main ≠ .inserting ctrl := by
  intro hpc
  by_cases hfull : s.data.full
  · have := hquiet (.main .wait) rfl
    simp [Sys.step, Sys.mainStep, hpc, hfull] at this
  · obtain ⟨w, worker, hworker⟩ := exists_signal_eq_some WorkerPc.waiting .start s.worker
    have := hquiet (.main (.insert w)) rfl
    simp [Sys.step, Sys.mainStep, hpc, hfull, hworker] at this

theorem Sys.Drains.count_eq_zero (h : s.Drains) : s.data.count = 0 := by
  by_cases hwait : ∃ i, s.worker i = .waiting
  · obtain ⟨i, hi⟩ := hwait
    refine h.covered.eq_zero hi fun j hj => ?_
    rcases worker_of_quiet hquiet j with hj' | hj' <;> simp [hj'] at hj
  · have hi := worker_of_quiet hquiet ⟨0, by decide⟩
    exact (h.ended _ (hi.resolve_left fun hi => hwait ⟨_, hi⟩)).2

theorem Sys.Drains.handled_perm (h : s.Drains) : s.handled.Perm s.received := by
  have hcount := h.count_eq_zero hquiet
  have hhand : s.main.hand = [] := by
    cases hpc : s.main with
    | inserting ctrl => exact absurd hpc (main_ne_inserting_of_quiet hquiet ctrl)
    | waiting ctrl =>
        have hfull := h.full ctrl hpc
        rw [hcount] at hfull
        exact absurd hfull (by decide)
    | _ => rfl
  have hreceived : s.received = s.dequeued := by
    rw [h.account, hhand, RingBuf.contents_eq_nil.mpr hcount, List.append_nil, List.append_nil]
  rw [hreceived, List.perm_iff_count]
  intro c
  have hidle : inHand s.worker c = 0 := by
    refine numHolding_eq_zero (fun i => ?_) c
    rcases worker_of_quiet hquiet i with hi | hi <;> rw [hi] <;> rfl
  rw [← h.hands c, hidle, Nat.add_zero]

end Quiet

/-- **Every command is handled.** If `is_running` is true whenever `main`
writes into the ring, then the indices and the count agree at any time, the
commands leave the ring in the order in which they were received, and each
of them is handled once: those that have left the ring are handled or in
the hands of a worker. The process takes at most 223 steps by itself, and
when it cannot take any more every command that was received has been
handled, whether `is_running` is still true or not. -/
theorem received_commands_handled {stack : ℕ → MessageControl} {s : Sys}
    (h : Reachable Sys.step Sys.Open (Sys.init stack) s) :
    s.data.count ≤ queueSize ∧ s.data.tail = (s.data.head + s.data.count) % queueSize ∧
      s.received = s.dequeued ++ s.data.ring.contents queueSize ++ s.main.hand ∧
      (∀ c, s.handled.count c + inHand s.worker c = s.dequeued.count c) ∧
      (∀ ls s', runs Sys.step s ls = some s' → (∀ l ∈ ls, l.inner = true) → ls.length ≤ 223) ∧
      ((∀ l : Label, l.inner = true → s.step l = none) → s.handled.Perm s.received) := by
  have hinv : s.Drains := h.invariant (.init stack) fun _ _ _ ih hok hs => ih.step hok hs
  refine ⟨hinv.ring.count, hinv.ring.head, hinv.account, hinv.hands, ?_, hinv.handled_perm⟩
  intro ls s' hls hinner
  exact (length_le_rank (fun _ _ _ hl hs => Sys.rank_lt hl hs) hls hinner).trans hinv.rank_le

/-! ### Short runs -/

def noMessage : MessageControl := ⟨0, ⟨0, []⟩⟩

def getStatus : MessageControl := ⟨3, ⟨0, []⟩⟩

def worker₀ : Fin numberWorker := ⟨0, by decide⟩

/-- The worker waits for the command, `is_running` is cleared while it is
in the ring, and the command is handled. -/
def handledAtEnd : List Label :=
  [.worker worker₀ .lock, .main .check, .main (.recv (some getStatus)),
    .main (.insert (some worker₀)), .sig (.take (some .term)), .sig .clear,
    .worker worker₀ .lock, .worker worker₀ .handle]

theorem received_commands_handled_once :
    ∃ s, Reachable Sys.step Sys.Open (Sys.init fun _ => noMessage) s ∧
      s.data.isRunning = false ∧ s.handled = [getStatus] ∧ s.data.count ≤ queueSize := by
  have hrun : (runs (guarded Sys.step Sys.Open) (Sys.init fun _ => noMessage) handledAtEnd).map
      (fun s => (s.data.isRunning, s.handled)) = some (false, [getStatus]) := by decide +kernel
  obtain ⟨s, hreach, hobs⟩ := Reachable.exists_of_runs hrun
  obtain ⟨hrunning, hhandled⟩ := Prod.mk.inj hobs
  exact ⟨s, hreach, hrunning, hhandled, (received_commands_handled hreach).1⟩

def deliver : List Label := [.main .check, .main (.recv (some getStatus)), .main (.insert none)]

def endWorkers : List Label := (List.finRange numberWorker).map fun i => .worker i .lock

/-- The ring is full, and `is_running` is cleared before the next command is
inserted. -/
def overfill : List Label :=
  List.flatten [List.flatten (List.replicate queueSize deliver),
    [.main .check, .main (.recv (some getStatus)), .sig (.take (some .term)), .sig .clear,
      .main (.insert none)]]

/-- `is_running` is cleared and the workers end before the command is
inserted. -/
def insertTooLate : List Label :=
  List.flatten
    [[.main .check, .main (.recv (some getStatus)), .sig (.take (some .term)), .sig .clear,
      .sig .broadcast],
    endWorkers, [.main (.insert none), .main .check, .main .close, .main .join, .main .joinSig]]

/-- If `is_running` is cleared between the receipt of a command and its
insertion, a full ring gets a further entry; and a command for which no
worker is left is never handled. -/
theorem late_command_lost :
    (∃ s, Reachable Sys.step (fun _ _ => True) (Sys.init fun _ => noMessage) s ∧
      s.data.count = queueSize + 1) ∧
    ∃ s, Reachable Sys.step (fun _ _ => True) (Sys.init fun _ => noMessage) s ∧
      s.main = .stopped ∧ s.received = [getStatus] ∧ s.handled = [] := by
  have hfull : (runs (guarded Sys.step fun _ _ => True) (Sys.init fun _ => noMessage)
      overfill).map (fun s => s.data.count) = some (queueSize + 1) := by
    decide +kernel
  have hlost : (runs (guarded Sys.step fun _ _ => True) (Sys.init fun _ => noMessage)
      insertTooLate).map
      (fun s => (s.main, s.received, s.handled)) = some (.stopped, [getStatus], []) := by
    decide +kernel
  obtain ⟨s, hreach, hcount⟩ := Reachable.exists_of_runs hfull
  obtain ⟨s', hreach', hobs⟩ := Reachable.exists_of_runs hlost
  simp only [Prod.mk.injEq] at hobs
  exact ⟨⟨s, hreach, hcount⟩, s', hreach', hobs⟩

end LinuxMiniProjects.SensorHub
