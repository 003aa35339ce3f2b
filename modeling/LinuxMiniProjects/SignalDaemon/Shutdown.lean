import Mathlib.Data.List.Perm.Subperm
import LinuxMiniProjects.SignalDaemon.System

/-!
What is left undone at a shutdown.

Every job that was put into the queue is in the queue, in the hands of a
worker, carried out, or abandoned; the last happens to a job that a worker
has taken out of the queue and then finds `shutting_down` set. Work that
is in the queue or with a worker that has not looked at the flag yet is
therefore lost when the flag is set, if a worker ends before it is taken,
or as soon as one takes it. If there is none at that moment, all the work
is done when the workers have ended: nothing is enqueued after the
shutdown job, and what is being carried out is carried out to its end.
-/

namespace LinuxMiniProjects.SignalDaemon

open SafeConfig Machine CondVar

def Job.isWork (work : Job) : Bool := decide (work.type = .doWork ∨ work.type = .reloadConfig)

/-- The worker has not taken work that it would drop if `shutting_down` were
set. -/
def WorkerPc.Clear : WorkerPc → Prop
  | checking work => work.isWork = false
  | _ => True

instance : (pc : WorkerPc) → Decidable pc.Clear
  | .checking _ => inferInstanceAs (Decidable (_ = _))
  | .dequeuing | .toWait | .waiting | .failed | .executing _ => instDecidableTrue
  | .sleeping _ | .reloading _ _ | .stopped => instDecidableTrue

/-- **The condition.** When `shutting_down` is set, there is no work in the
queue or with a worker that has not yet looked at the flag. -/
def Sys.Settled (s : Sys) : Label → Prop
  | .sig .flag =>
      (∀ work ∈ s.data.jobs, work.isWork = false) ∧ ∀ i, (s.worker i).Clear
  | _ => True

instance (s : Sys) : (l : Label) → Decidable (s.Settled l)
  | .sig .flag => inferInstanceAs (Decidable (_ ∧ _))
  | .sig (.take _) | .sig .wait | .sig (.enqueue _) | .sig .wake => instDecidableTrue
  | .sig .broadcast | .worker _ _ | .install _ => instDecidableTrue

/-! ### Where the jobs are -/

def WorkerPc.job : WorkerPc → Option Job
  | checking work | executing work | sleeping work | reloading work _ => some work
  | _ => none

def inHand (worker : Fin maxWorker → WorkerPc) (work : Job) : ℕ :=
  numHolding WorkerPc.job worker work

def WorkerPc.isStopped (pc : WorkerPc) : Bool := decide (pc = .stopped)

def WorkerPc.Typed : WorkerPc → Prop
  | sleeping work => work.type = .doWork
  | reloading work _ => work.type = .reloadConfig
  | _ => True

def SigPc.isClosing : SigPc → Bool
  | flagging | broadcasting | stopped => true
  | _ => false

def numOf (type : WorkType) (jobs : List Job) : ℕ :=
  jobs.countP fun work => decide (work.type = type)

theorem numOf_concat (type : WorkType) (jobs : List Job) (work : Job) :
    numOf type (jobs ++ [work]) = numOf type jobs + (decide (work.type = type)).toNat := by
  unfold numOf
  rw [List.countP_append]
  by_cases h : work.type = type <;> simp [h]

def Balanced (enqueued : List Job) (data : Data) (worker : Fin maxWorker → WorkerPc)
    (executed abandoned : List Job) : Prop :=
  ∀ work, enqueued.count work =
    data.jobs.count work + inHand worker work + executed.count work + abandoned.count work

section Balanced

variable {enqueued executed abandoned : List Job} {data : Data}
  {worker worker' : Fin maxWorker → WorkerPc} {i : Fin maxWorker} {x : WorkerPc} {work : Job}

theorem Balanced.move (h : Balanced enqueued data worker executed abandoned)
    (hjob : x.job = (worker i).job) :
    Balanced enqueued data (Function.update worker i x) executed abandoned := by
  intro work
  have hhand : inHand (Function.update worker i x) work = inHand worker work :=
    numHolding_update hjob work
  rw [hhand]
  exact h work

theorem Balanced.woken (h : Balanced enqueued data worker executed abandoned)
    (hwoken : Woken .waiting .dequeuing worker worker') :
    Balanced enqueued data worker' executed abandoned := by
  intro work
  have hhand : inHand worker' work = inHand worker work := hwoken.numHolding_eq rfl work
  rw [hhand]
  exact h work

theorem Balanced.put (h : Balanced enqueued data worker executed abandoned)
    (hring : data.ring.Valid queueCap) (hlt : data.count < queueCap) (work : Job) :
    Balanced (enqueued ++ [work]) (data.put work) worker executed abandoned := by
  intro work'
  have hjobs : (data.put work).jobs = data.jobs ++ [work] := hring.contents_push hlt work
  have := h work'
  rw [hjobs, List.count_append, List.count_append]
  omega

theorem Balanced.take (h : Balanced enqueued data worker executed abandoned)
    (hring : data.ring.Valid queueCap) (hpos : 0 < data.count) (hi : (worker i).job = none)
    (hx : x.job = some data.ring.front) :
    Balanced enqueued data.drop (Function.update worker i x) executed abandoned := by
  intro work
  have hhand : inHand (Function.update worker i x) work =
      inHand worker work + [data.ring.front].count work := numHolding_take hi hx work
  have hjobs : data.jobs = [data.ring.front] ++ data.drop.jobs := hring.contents_eq_cons hpos
  have := h work
  rw [hjobs, List.count_append] at this
  rw [hhand]
  omega

theorem Balanced.done (h : Balanced enqueued data worker executed abandoned)
    (hi : (worker i).job = some work) (hx : x.job = none) :
    Balanced enqueued data (Function.update worker i x) (executed ++ [work]) abandoned := by
  intro work'
  have hhand : inHand (Function.update worker i x) work' + [work].count work' =
      inHand worker work' := numHolding_release hi hx work'
  have := h work'
  rw [List.count_append]
  omega

theorem Balanced.abandon (h : Balanced enqueued data worker executed abandoned)
    (hi : (worker i).job = some work) (hx : x.job = none) :
    Balanced enqueued data (Function.update worker i x) executed (abandoned ++ [work]) := by
  intro work'
  have hhand : inHand (Function.update worker i x) work' + [work].count work' =
      inHand worker work' := numHolding_release hi hx work'
  have := h work'
  rw [List.count_append]
  omega

theorem Balanced.numOf_le (h : Balanced enqueued data worker executed abandoned)
    (type : WorkType) : numOf type executed ≤ numOf type enqueued := by
  refine List.Subperm.countP_le _ (List.subperm_ext_iff.mpr fun work _ => ?_)
  have := h work
  omega

end Balanced

/-! ### The account -/

structure Sys.Accounts (s : Sys) : Prop where
  ring : s.data.ring.Valid queueCap
  account : Balanced s.enqueued s.data s.worker s.executed s.abandoned
  workDone : s.workDoneCount = numOf .doWork s.executed
  reloaded : s.reloadConfigCount = numOf .reloadConfig s.executed
  typed : ∀ i, (s.worker i).Typed
  once : numOf .shutdown s.enqueued = s.sig.isClosing.toNat
  early : s.shuttingDown = false →
    numAt WorkerPc.isStopped s.worker ≤ numOf .shutdown s.executed

theorem Sys.Accounts.init (config : Config) (file : Option Text) :
    (Sys.init config file).Accounts where
  ring := ⟨rfl, Nat.zero_lt_succ _, Nat.zero_le _⟩
  account work := by
    have hnone : inHand (Sys.init config file).worker work = 0 :=
      numHolding_eq_zero (fun _ => rfl) work
    rw [hnone]
    rfl
  workDone := rfl
  reloaded := rfl
  typed i := trivial
  once := rfl
  early _ := (numAt_eq_zero fun _ => rfl).le

section Steps

variable {s s' : Sys} {i : Fin maxWorker} {x : WorkerPc} {work : Job}

theorem numAt_isStopped_update (worker : Fin maxWorker → WorkerPc) (i : Fin maxWorker)
    (hx : x.isStopped = false) :
    numAt WorkerPc.isStopped (Function.update worker i x) ≤ numAt WorkerPc.isStopped worker := by
  have hcount := numAt_update WorkerPc.isStopped worker i x
  rw [hx, Bool.toNat_false] at hcount
  omega

theorem Sys.Accounts.of_move (h : s.Accounts) (config : Config) (hjob : x.job = (s.worker i).job)
    (htyped : x.Typed) (hstop : s.shuttingDown = true ∨ x.isStopped = false) :
    ({ s with config, worker := Function.update s.worker i x } : Sys).Accounts :=
  { h with
    account := h.account.move hjob
    typed := forall_update h.typed htyped
    early := fun hrun => by
      have hx : x.isStopped = false := hstop.resolve_left (Bool.eq_false_iff.mp hrun)
      exact (numAt_isStopped_update s.worker i hx).trans (h.early hrun) }

theorem Sys.Accounts.of_done (h : s.Accounts) (hjob : (s.worker i).job = some work)
    (hx : x = .dequeuing ∨ x = .stopped ∧ work.type = .shutdown) {a b : ℕ}
    (ha : a = s.workDoneCount + (decide (work.type = .doWork)).toNat)
    (hb : b = s.reloadConfigCount + (decide (work.type = .reloadConfig)).toNat) :
    ({ s.done i work x with workDoneCount := a, reloadConfigCount := b } : Sys).Accounts := by
  have hnone : x.job = none := by rcases hx with rfl | ⟨rfl, -⟩ <;> rfl
  have htyped : x.Typed := by rcases hx with rfl | ⟨rfl, -⟩ <;> trivial
  refine { h with
    account := h.account.done hjob hnone
    workDone := ?_
    reloaded := ?_
    typed := forall_update h.typed htyped
    early := fun hrun => ?_ }
  · show a = numOf .doWork (s.executed ++ [work])
    rw [numOf_concat, ha, h.workDone]
  · show b = numOf .reloadConfig (s.executed ++ [work])
    rw [numOf_concat, hb, h.reloaded]
  · have hearly := h.early hrun
    have hcount := numAt_update WorkerPc.isStopped s.worker i x
    show numAt WorkerPc.isStopped (Function.update s.worker i x) ≤
      numOf .shutdown (s.executed ++ [work])
    rw [numOf_concat]
    rcases hx with rfl | ⟨rfl, htype⟩
    · have := numAt_isStopped_update (x := .dequeuing) s.worker i rfl
      omega
    · have hstopped : WorkerPc.stopped.isStopped = true := rfl
      rw [hstopped, Bool.toNat_true] at hcount
      rw [htype, decide_eq_true rfl, Bool.toNat_true]
      omega

theorem SigPc.isClosing_signalled (pc : SigPc) : pc.signalled.isClosing = pc.isClosing := by
  cases pc <;> rfl

theorem Sys.Accounts.workerStep {l : WorkerLabel} (h : s.Accounts) (hs : s.WorkerStep i l s') :
    s'.Accounts := by
  cases hs with
  | toWait pc | fail pc | wait pc | wake pc | retry pc =>
      exact h.of_move s.config (by rw [pc]; rfl) trivial (.inr rfl)
  | take pc free pos =>
      exact { h with
        ring := h.ring.pop pos
        account := h.account.take h.ring pos (by rw [pc]; rfl) rfl
        typed := forall_update h.typed trivial
        once := s.sig.isClosing_signalled ▸ h.once
        early := fun hrun => (numAt_isStopped_update s.worker i rfl).trans (h.early hrun) }
  | leave pc ended => exact h.of_move s.config (by rw [pc]; rfl) trivial (.inl ended)
  | abandon pc ended =>
      exact { h with
        account := h.account.abandon (by rw [pc]; rfl) rfl
        typed := forall_update h.typed trivial
        early := fun hrun => absurd ended (Bool.eq_false_iff.mp hrun) }
  | check pc run => exact h.of_move s.config (by rw [pc]; rfl) trivial (.inr rfl)
  | doWork pc type => exact h.of_move s.config (by rw [pc]; rfl) type (.inr rfl)
  | reloadConfig pc type free => exact h.of_move .default (by rw [pc]; rfl) type (.inr rfl)
  | @reload work r r' config l pc step =>
      have htyped := h.typed i
      rw [pc] at htyped
      exact h.of_move config (by rw [pc]; rfl) htyped (.inr rfl)
  | printStatus pc type | none pc type =>
      exact h.of_done (by rw [pc]; rfl) (.inl rfl) (by simp [type]) (by simp [type])
  | shutdown pc type =>
      exact h.of_done (by rw [pc]; rfl) (.inr ⟨rfl, type⟩) (by simp [type]) (by simp [type])
  | @worked work pc =>
      have htype : work.type = .doWork := by simpa [pc, WorkerPc.Typed] using h.typed i
      exact h.of_done (by rw [pc]; rfl) (.inl rfl) (by simp [htype]) (by simp [Sys.done, htype])
  | @reloaded work r pc ended =>
      have htype : work.type = .reloadConfig := by simpa [pc, WorkerPc.Typed] using h.typed i
      exact h.of_done (by rw [pc]; rfl) (.inl rfl) (by simp [Sys.done, htype]) (by simp [htype])

theorem Sys.Accounts.sigStep {l : SigLabel} (h : s.Accounts) (hs : s.SigStep l s') :
    s'.Accounts := by
  cases hs with
  | fail pc => exact h
  | take pc | wait pc | wake pc =>
      have honce := h.once
      rw [pc] at honce
      exact { h with once := honce }
  | @enqueue work woken worker pc free room signalled =>
      have hlt : s.data.count < queueCap := lt_of_le_of_ne h.ring.count room
      have honce := h.once
      rw [pc] at honce
      refine { h with
        ring := h.ring.push hlt work
        account := (h.account.put h.ring hlt work).woken signalled.woken
        typed := signalled.woken.forall h.typed trivial
        once := ?_
        early := fun hrun => ?_ }
      · show numOf .shutdown (s.enqueued ++ [work]) = _
        rw [numOf_concat, honce]
        by_cases htype : work.type = .shutdown <;> simp [Sys.enqueue, htype, SigPc.isClosing]
      · exact (signalled.woken.numAt_eq rfl).le.trans (h.early hrun)
  | flag pc free =>
      have honce := h.once
      rw [pc] at honce
      exact { h with once := honce, early := nofun }
  | broadcast pc free =>
      have hwoken := woken_broadcast WorkerPc.waiting .dequeuing s.worker
      have honce := h.once
      rw [pc] at honce
      exact { h with
        account := h.account.woken hwoken
        typed := hwoken.forall h.typed trivial
        once := honce
        early := fun hrun => (hwoken.numAt_eq rfl).le.trans (h.early hrun) }

theorem Sys.Accounts.step {l : Label} (h : s.Accounts) (hs : s.step l = some s') :
    s'.Accounts := by
  cases l with
  | worker i l => exact h.workerStep (Sys.workerStep_inv hs)
  | sig l => exact h.sigStep (Sys.sigStep_inv hs)
  | install text => exact Option.some.inj hs ▸ { h with }

end Steps

/-! ### Nothing is abandoned -/

structure Sys.Settles (s : Sys) : Prop where
  closed : s.shuttingDown = true → s.sig = .broadcasting ∨ s.sig = .stopped
  queue : s.shuttingDown = true → ∀ work ∈ s.data.jobs, work.isWork = false
  unchecked : s.shuttingDown = true → ∀ i, (s.worker i).Clear
  kept : ∀ work ∈ s.abandoned, work.isWork = false

theorem Sys.Settles.init (config : Config) (file : Option Text) :
    (Sys.init config file).Settles where
  closed hend := by cases hend
  queue hend := by cases hend
  unchecked hend := by cases hend
  kept work hwork := by cases hwork

section Steps

variable {s s' : Sys} {i : Fin maxWorker}

theorem Sys.Settles.workerStep {l : WorkerLabel} (h : s.Settles) (hacc : s.Accounts)
    (hs : s.WorkerStep i l s') : s'.Settles := by
  cases hs with
  | take pc free pos =>
      have hjobs : s.data.jobs = s.data.ring.front :: s.data.drop.jobs :=
        hacc.ring.contents_eq_cons pos
      refine { h with
        closed := fun hend => ?_
        queue := fun hend => ?_
        unchecked := fun hend => ?_ }
      · rcases h.closed hend with hpc | hpc
        · exact .inl (congrArg SigPc.signalled hpc)
        · exact .inr (congrArg SigPc.signalled hpc)
      · have hqueue := h.queue hend
        rw [hjobs] at hqueue
        exact (List.forall_mem_cons.mp hqueue).2
      · have hqueue := h.queue hend
        rw [hjobs] at hqueue
        have hfront : (WorkerPc.checking s.data.ring.front).Clear :=
          (List.forall_mem_cons.mp hqueue).1
        exact forall_update (h.unchecked hend) hfront
  | @abandon work pc ended =>
      -- the flag is set, so what the worker has taken is no work
      have hwork : work.isWork = false := by
        simpa [pc, WorkerPc.Clear] using h.unchecked ended i
      exact { h with
        unchecked := fun hend => forall_update (h.unchecked hend) trivial
        kept := List.forall_mem_append.mpr ⟨h.kept, List.forall_mem_singleton.mpr hwork⟩ }
  | _ => exact { h with unchecked := fun hend => forall_update (h.unchecked hend) trivial }

theorem Sys.Settles.sigStep {l : SigLabel} (h : s.Settles) (hok : s.Settled (.sig l))
    (hs : s.SigStep l s') : s'.Settles := by
  -- until the flag is set there is nothing to show
  have hrun : s.sig ≠ .broadcasting → s.sig ≠ .stopped → s.shuttingDown ≠ true :=
    fun hb hst hend => (h.closed hend).elim hb hst
  cases hs with
  | fail pc => exact h
  | take pc | wait pc | wake pc =>
      have hopen := hrun (by rw [pc]; nofun) (by rw [pc]; nofun)
      exact { h with closed := fun hend => absurd hend hopen }
  | enqueue pc free room signalled =>
      have hopen := hrun (by rw [pc]; nofun) (by rw [pc]; nofun)
      exact { h with
        closed := fun hend => absurd hend hopen
        queue := fun hend => absurd hend hopen
        unchecked := fun hend => absurd hend hopen }
  | flag pc free =>
      exact { h with
        closed := fun _ => .inl rfl
        queue := fun _ => hok.1
        unchecked := fun _ => hok.2 }
  | broadcast pc free =>
      have hwoken := woken_broadcast WorkerPc.waiting .dequeuing s.worker
      exact { h with
        closed := fun _ => .inr rfl
        unchecked := fun hend => hwoken.forall (h.unchecked hend) trivial }

theorem Sys.Settles.step {l : Label} (h : s.Settles) (hacc : s.Accounts) (hok : s.Settled l)
    (hs : s.step l = some s') : s'.Settles := by
  cases l with
  | worker i l => exact h.workerStep hacc (Sys.workerStep_inv hs)
  | sig l => exact h.sigStep hok (Sys.sigStep_inv hs)
  | install text => exact Option.some.inj hs ▸ { h with }

end Steps

/-! ### When the workers have ended -/

section Ended

variable {s : Sys}

theorem Sys.Accounts.shuttingDown_eq_true (h : s.Accounts) (hend : ∀ i, s.worker i = .stopped) :
    s.shuttingDown = true := by
  by_contra hrun
  rw [Bool.not_eq_true] at hrun
  have hall : numAt WorkerPc.isStopped s.worker = maxWorker := by
    simp [numAt, hend, WorkerPc.isStopped]
  have hearly := h.early hrun
  have hle := h.account.numOf_le .shutdown
  have honce : numOf .shutdown s.enqueued ≤ 1 := h.once ▸ Bool.toNat_le _
  have hworkers : 1 < maxWorker := by decide
  omega

theorem Sys.Settles.count_executed (h : s.Settles) (hacc : s.Accounts)
    (hend : ∀ i, s.worker i = .stopped) {work : Job} (hwork : work.isWork = true) :
    s.executed.count work = s.enqueued.count work := by
  have hflag := hacc.shuttingDown_eq_true hend
  have hqueue : s.data.jobs.count work = 0 := List.count_eq_zero.mpr fun hmem => by
    rw [h.queue hflag work hmem] at hwork
    cases hwork
  have hkept : s.abandoned.count work = 0 := List.count_eq_zero.mpr fun hmem => by
    rw [h.kept work hmem] at hwork
    cases hwork
  have hhand : inHand s.worker work = 0 :=
    numHolding_eq_zero (fun i => by rw [hend i]; rfl) work
  have := hacc.account work
  omega

theorem Sys.Settles.numOf_executed (h : s.Settles) (hacc : s.Accounts)
    (hend : ∀ i, s.worker i = .stopped) {type : WorkType}
    (htype : type = .doWork ∨ type = .reloadConfig) :
    numOf type s.executed = numOf type s.enqueued := by
  have hperm : (s.executed.filter fun work => decide (work.type = type)).Perm
      (s.enqueued.filter fun work => decide (work.type = type)) := by
    refine List.perm_iff_count.mpr fun work => ?_
    by_cases hwork : work.type = type
    · rw [List.count_filter (by simpa using hwork), List.count_filter (by simpa using hwork)]
      refine h.count_executed hacc hend ?_
      rw [Job.isWork, hwork]
      exact decide_eq_true htype
    · have hnone : ∀ l : List Job,
          (l.filter fun work => decide (work.type = type)).count work = 0 := fun l =>
        List.count_eq_zero.mpr fun hmem => hwork (by simpa using (List.mem_filter.mp hmem).2)
      rw [hnone, hnone]
  unfold numOf
  rw [List.countP_eq_length_filter, List.countP_eq_length_filter]
  exact hperm.length_eq

end Ended

/-- **A graceful shutdown.** If there is no work in the queue or with a
worker that has not looked at the flag when the flag is set, then every
`JOB_DO_WORK` and every `JOB_RELOAD_CONFIG` that was enqueued has been
carried out, once, when the workers have ended; and the counters say how
many there were. -/
theorem shutdown_graceful {config : Config} {file : Option Text} {s : Sys}
    (h : Reachable Sys.step Sys.Settled (Sys.init config file) s)
    (hend : ∀ i, s.worker i = .stopped) :
    (∀ work, work.isWork = true → s.executed.count work = s.enqueued.count work) ∧
      s.workDoneCount = numOf .doWork s.enqueued ∧
      s.reloadConfigCount = numOf .reloadConfig s.enqueued := by
  have hinit : (Sys.init config file).Accounts ∧ (Sys.init config file).Settles :=
    ⟨.init config file, .init config file⟩
  obtain ⟨hacc, hset⟩ : s.Accounts ∧ s.Settles :=
    Reachable.invariant (I := fun s => s.Accounts ∧ s.Settles) hinit
      (fun _ _ _ ih hok hs => ⟨ih.1.step hs, ih.2.step ih.1 hok hs⟩) h
  refine ⟨fun work hwork => hset.count_executed hacc hend hwork, ?_, ?_⟩
  · rw [hacc.workDone, hset.numOf_executed hacc hend (.inl rfl)]
  · rw [hacc.reloaded, hset.numOf_executed hacc hend (.inr rfl)]

/-! ### Short runs -/

def post (sigNum : ℤ) : List Label := [.sig (.take (some sigNum)), .sig (.enqueue none)]

def worker₀ : Fin maxWorker := ⟨0, by decide⟩

/-- The other workers end, one after the other, with the flag set and the
queue empty. -/
def othersEnd : List Label :=
  (List.finRange maxWorker).tail.flatMap fun i => [.worker i .dequeue, .worker i .check]

def doneInTime : List Label :=
  List.flatten
    [post sigusr1, [.worker worker₀ .dequeue, .worker worker₀ .check, .worker worker₀ .execute,
      .worker worker₀ .finish],
    post sigterm, [.worker worker₀ .dequeue, .worker worker₀ .check, .worker worker₀ .execute,
      .sig .flag, .sig .broadcast],
    othersEnd]

theorem shutdown_graceful_one :
    ∃ s, Reachable Sys.step Sys.Settled (Sys.init .default none) s ∧
      (∀ i, s.worker i = .stopped) ∧ s.enqueued.length = 2 ∧
      s.workDoneCount = numOf .doWork s.enqueued := by
  have hrun : (runs (guarded Sys.step Sys.Settled) (Sys.init .default none) doneInTime).map
      (fun s => (decide (∀ i, s.worker i = .stopped), s.enqueued.length)) = some (true, 2) := by
    decide +kernel
  obtain ⟨s, hreach, hobs⟩ := Reachable.exists_of_runs hrun
  obtain ⟨hend, hlength⟩ := Prod.mk.inj hobs
  have hend' := of_decide_eq_true hend
  exact ⟨s, hreach, hend', hlength, (shutdown_graceful hreach hend').2.1⟩

/-- The signal for the shutdown comes before a worker has taken the work. -/
def flaggedTooEarly : List Label :=
  List.flatten [post sigusr1, post sigterm, [.sig .flag, .sig .broadcast],
    (List.finRange maxWorker).flatMap fun i => [.worker i .dequeue, .worker i .check]]

/-- The flag is set, the first two workers take the jobs and drop them, and
the work is never done. -/
theorem shutdown_drops_work :
    ∃ s, Reachable Sys.step (fun _ _ => True) (Sys.init .default none) s ∧
      (∀ i, s.worker i = .stopped) ∧ s.workDoneCount = 0 ∧
      numOf .doWork s.enqueued = 1 := by
  have hrun : (runs (guarded Sys.step fun _ _ => True) (Sys.init .default none)
      flaggedTooEarly).map
      (fun s => (decide (∀ i, s.worker i = .stopped), s.workDoneCount,
        numOf .doWork s.enqueued)) = some (true, 0, 1) := by decide +kernel
  obtain ⟨s, hreach, hobs⟩ := Reachable.exists_of_runs hrun
  simp only [Prod.mk.injEq] at hobs
  exact ⟨s, hreach, of_decide_eq_true hobs.1, hobs.2⟩

end LinuxMiniProjects.SignalDaemon
