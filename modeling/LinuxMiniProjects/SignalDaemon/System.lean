import LinuxMiniProjects.Lib.CondVar
import LinuxMiniProjects.Lib.Machine
import LinuxMiniProjects.Lib.RingBuf
import LinuxMiniProjects.SignalDaemon.Reload

/-!
The daemon: a thread for signals, five workers, and the file of the
configuration.

There are two mutexes. The one of the queue is held for one step, except
that a worker which finds the queue empty and `shutting_down` clear holds
it until it waits: `toWait` is the moment between the test and
`pthread_cond_wait`. In this moment `shutting_down` may be set, since it
belongs to the other mutex. That one is held for one step too, except by a
worker that reloads the configuration.

The thread for signals ends after it has enqueued a shutdown job. It sets
`shutting_down` and then broadcasts, with one mutex after the other.
-/

namespace LinuxMiniProjects.SignalDaemon

open SafeConfig CondVar

def queueCap : ℕ := 32

def maxWorker : ℕ := 5

/-! ### Jobs -/

inductive WorkType
  | none
  | reloadConfig
  | printStatus
  | doWork
  | shutdown
deriving DecidableEq, Repr

structure Job where
  type : WorkType
  data : ℤ
deriving DecidableEq, Repr

def sighup : ℤ := 1
def sigint : ℤ := 2
def sigusr1 : ℤ := 10
def sigterm : ℤ := 15

/-- `convert_signal_to_string`, without the string. -/
def convertSignal (sigNum : ℤ) : WorkType :=
  if sigNum = sigterm then .shutdown
  else if sigNum = sigusr1 then .doWork
  else if sigNum = sighup then .reloadConfig
  else if sigNum = sigint then .shutdown
  else .none

/-! ### The state -/

/-- `struct data`: `head` is the index to read, `tail` the index to write. -/
structure Data where
  queue : ℕ → Job
  head : ℕ
  tail : ℕ
  count : ℕ

def Data.ring (d : Data) : RingBuf Job := ⟨d.queue, d.tail, d.head, d.count⟩

def Data.jobs (d : Data) : List Job := d.ring.contents queueCap

def Data.put (d : Data) (work : Job) : Data :=
  { d with
    queue := Function.update d.queue d.tail work
    tail := (d.tail + 1) % queueCap
    count := d.count + 1 }

def Data.drop (d : Data) : Data :=
  { d with head := (d.head + 1) % queueCap, count := d.count - 1 }

inductive WorkerPc
  /-- Before it has the mutex of the queue, at first or after a wait. -/
  | dequeuing
  /-- With the mutex of the queue, about to wait. -/
  | toWait
  | waiting
  /-- `dequeueu_work` has returned `-1`. -/
  | failed
  /-- Before it looks at `shutting_down` again. -/
  | checking (work : Job)
  | executing (work : Job)
  | sleeping (work : Job)
  /-- With the mutex of the state. -/
  | reloading (work : Job) (r : Reload)
  | stopped
deriving DecidableEq, Repr

inductive SigPc
  | idle
  | enqueueing (work : Job)
  | waiting (work : Job)
  | flagging
  | broadcasting
  | stopped
deriving DecidableEq, Repr

/-- The daemon. `file` is what the path of the configuration leads to. The
last four fields are a history that no step reads: the texts that were
there, the jobs that were put into the queue, those that were carried out,
and those that a worker has taken and dropped. -/
structure Sys where
  data : Data
  config : Config
  reloadConfigCount : ℕ
  workDoneCount : ℕ
  shuttingDown : Bool
  worker : Fin maxWorker → WorkerPc
  sig : SigPc
  file : Option Text
  versions : List Text
  enqueued : List Job
  executed : List Job
  abandoned : List Job

/-- `daemon_config`; the configuration is the one `main` has read. -/
def Sys.init (config : Config) (file : Option Text) : Sys where
  data := { queue := fun _ => ⟨.none, 0⟩, head := 0, tail := 0, count := 0 }
  config := config
  reloadConfigCount := 0
  workDoneCount := 0
  shuttingDown := false
  worker _ := .dequeuing
  sig := .idle
  file := file
  versions := file.toList
  enqueued := []
  executed := []
  abandoned := []

def WorkerPc.isReloading : WorkerPc → Bool
  | reloading _ _ => true
  | _ => false

def Sys.DataFree (s : Sys) : Prop := ∀ i, s.worker i ≠ .toWait

def Sys.StateFree (s : Sys) : Prop := ∀ i, (s.worker i).isReloading = false

instance (s : Sys) : Decidable s.DataFree := inferInstanceAs (Decidable (∀ _, _))

instance (s : Sys) : Decidable s.StateFree := inferInstanceAs (Decidable (∀ _, _))

/-! ### Steps -/

inductive WorkerLabel
  | dequeue
  | wait
  /-- `pthread_cond_wait` returns without a signal. -/
  | wake
  | check
  | execute
  | reload (l : ReloadLabel)
  | finish
deriving DecidableEq, Repr

inductive SigLabel
  /-- `sigwaitinfo` fails, or returns a signal. -/
  | take (sigNum : Option ℤ)
  | wait
  /-- The job is put into the queue, and a worker is woken. -/
  | enqueue (woken : Option (Fin maxWorker))
  /-- `pthread_cond_wait` returns without a signal. -/
  | wake
  | flag
  | broadcast
deriving DecidableEq, Repr

inductive Label
  | worker (i : Fin maxWorker) (l : WorkerLabel)
  | sig (l : SigLabel)
  /-- Another process replaces the file. -/
  | install (text : Text)
deriving DecidableEq, Repr

def Sys.move (s : Sys) (i : Fin maxWorker) (pc : WorkerPc) : Sys :=
  { s with worker := Function.update s.worker i pc }

def Sys.done (s : Sys) (i : Fin maxWorker) (work : Job) (pc : WorkerPc) : Sys :=
  { s with worker := Function.update s.worker i pc, executed := s.executed ++ [work] }

/-- `pthread_cond_signal` on `not_full`, for which only the thread for
signals waits. -/
def SigPc.signalled : SigPc → SigPc
  | waiting work => enqueueing work
  | pc => pc

/-- `dequeueu_work` takes the job at the head. -/
def Sys.take (s : Sys) (i : Fin maxWorker) : Sys :=
  { s with
    data := s.data.drop
    sig := s.sig.signalled
    worker := Function.update s.worker i (.checking (s.data.queue s.data.head)) }

/-- `dequeueu_work` with the mutex. -/
def Sys.dequeue (s : Sys) (i : Fin maxWorker) : Sys :=
  if s.data.count = 0 ∧ s.shuttingDown = false then s.move i .toWait
  else if s.shuttingDown = true ∧ s.data.count = 0 then s.move i .failed
  else s.take i

/-- The worker has a job and looks at `shutting_down` once more. -/
def Sys.check (s : Sys) (i : Fin maxWorker) (work : Job) : Sys :=
  if s.shuttingDown then
    { s with
      worker := Function.update s.worker i .stopped
      abandoned := s.abandoned ++ [work] }
  else s.move i (.executing work)

/-- The `switch` of `worker_thread`. -/
def Sys.execute (s : Sys) (i : Fin maxWorker) (work : Job) : Option Sys :=
  match work.type with
  | .doWork => if s.StateFree then some (s.move i (.sleeping work)) else none
  | .printStatus =>
      if s.StateFree ∧ s.DataFree then some (s.done i work .dequeuing) else none
  | .reloadConfig =>
      if s.StateFree then
        some { s with
          config := .default
          worker := Function.update s.worker i (.reloading work .start) }
      else none
  | .shutdown => some (s.done i work .stopped)
  | .none => some (s.done i work .dequeuing)

def Sys.workerStep (s : Sys) (i : Fin maxWorker) (l : WorkerLabel) : Option Sys :=
  match s.worker i, l with
  | .dequeuing, .dequeue => if s.DataFree then some (s.dequeue i) else none
  | .toWait, .wait => some (s.move i .waiting)
  | .waiting, .wake => some (s.move i .dequeuing)
  | .failed, .check =>
      if s.StateFree then some (s.move i (if s.shuttingDown then .stopped else .dequeuing))
      else none
  | .checking work, .check => if s.StateFree then some (s.check i work) else none
  | .executing work, .execute => s.execute i work
  | .sleeping work, .finish =>
      if s.StateFree then
        some { s.done i work .dequeuing with workDoneCount := s.workDoneCount + 1 }
      else none
  | .reloading work r, .reload l =>
      (reloadStep s.file s.config r l).map fun res =>
        { s with config := res.1, worker := Function.update s.worker i (.reloading work res.2) }
  | .reloading work r, .finish =>
      if r.todo = [] then
        some { s.done i work .dequeuing with reloadConfigCount := s.reloadConfigCount + 1 }
      else none
  | _, _ => none

/-- `enqueue_work` puts the job into the queue. -/
def Sys.enqueue (s : Sys) (work : Job) (worker : Fin maxWorker → WorkerPc) : Sys :=
  { s with
    data := s.data.put work
    worker
    sig := if work.type = .shutdown then .flagging else .idle
    enqueued := s.enqueued ++ [work] }

def Sys.sigStep (s : Sys) (l : SigLabel) : Option Sys :=
  match s.sig, l with
  | .idle, .take none => some s
  | .idle, .take (some sigNum) =>
      some { s with sig := .enqueueing ⟨convertSignal sigNum, sigNum⟩ }
  | .enqueueing work, .wait =>
      if s.DataFree ∧ s.data.count = queueCap then some { s with sig := .waiting work } else none
  | .enqueueing work, .enqueue woken =>
      if s.DataFree ∧ s.data.count ≠ queueCap then
        (signal .waiting .dequeuing s.worker woken).map (s.enqueue work)
      else none
  | .waiting work, .wake => some { s with sig := .enqueueing work }
  | .flagging, .flag =>
      if s.StateFree then some { s with shuttingDown := true, sig := .broadcasting } else none
  | .broadcasting, .broadcast =>
      if s.DataFree then
        some { s with worker := broadcast .waiting .dequeuing s.worker, sig := .stopped }
      else none
  | _, _ => none

def Sys.step (s : Sys) : Label → Option Sys
  | .worker i l => s.workerStep i l
  | .sig l => s.sigStep l
  | .install text => some { s with file := some text, versions := s.versions ++ [text] }

/-! ### The steps as a relation -/

inductive Sys.WorkerStep (s : Sys) (i : Fin maxWorker) : WorkerLabel → Sys → Prop
  | toWait (pc : s.worker i = .dequeuing) (free : s.DataFree) (empty : s.data.count = 0)
      (run : s.shuttingDown = false) : s.WorkerStep i .dequeue (s.move i .toWait)
  | fail (pc : s.worker i = .dequeuing) (free : s.DataFree) (empty : s.data.count = 0)
      (ended : s.shuttingDown = true) : s.WorkerStep i .dequeue (s.move i .failed)
  | take (pc : s.worker i = .dequeuing) (free : s.DataFree) (pos : 0 < s.data.count) :
      s.WorkerStep i .dequeue (s.take i)
  | wait (pc : s.worker i = .toWait) : s.WorkerStep i .wait (s.move i .waiting)
  | wake (pc : s.worker i = .waiting) : s.WorkerStep i .wake (s.move i .dequeuing)
  | leave (pc : s.worker i = .failed) (ended : s.shuttingDown = true) :
      s.WorkerStep i .check (s.move i .stopped)
  | retry (pc : s.worker i = .failed) (run : s.shuttingDown = false) :
      s.WorkerStep i .check (s.move i .dequeuing)
  | abandon {work} (pc : s.worker i = .checking work) (ended : s.shuttingDown = true) :
      s.WorkerStep i .check { s with
        worker := Function.update s.worker i .stopped
        abandoned := s.abandoned ++ [work] }
  | check {work} (pc : s.worker i = .checking work) (run : s.shuttingDown = false) :
      s.WorkerStep i .check (s.move i (.executing work))
  | doWork {work} (pc : s.worker i = .executing work) (type : work.type = .doWork) :
      s.WorkerStep i .execute (s.move i (.sleeping work))
  | printStatus {work} (pc : s.worker i = .executing work) (type : work.type = .printStatus) :
      s.WorkerStep i .execute (s.done i work .dequeuing)
  | reloadConfig {work} (pc : s.worker i = .executing work) (type : work.type = .reloadConfig)
      (free : s.StateFree) :
      s.WorkerStep i .execute { s with
        config := .default
        worker := Function.update s.worker i (.reloading work .start) }
  | shutdown {work} (pc : s.worker i = .executing work) (type : work.type = .shutdown) :
      s.WorkerStep i .execute (s.done i work .stopped)
  | none {work} (pc : s.worker i = .executing work) (type : work.type = .none) :
      s.WorkerStep i .execute (s.done i work .dequeuing)
  | worked {work} (pc : s.worker i = .sleeping work) :
      s.WorkerStep i .finish
        { s.done i work .dequeuing with workDoneCount := s.workDoneCount + 1 }
  | reload {work r r' config l} (pc : s.worker i = .reloading work r)
      (step : ReloadStep s.file s.config r l (config, r')) :
      s.WorkerStep i (.reload l)
        { s with config, worker := Function.update s.worker i (.reloading work r') }
  | reloaded {work r} (pc : s.worker i = .reloading work r) (ended : r.todo = []) :
      s.WorkerStep i .finish
        { s.done i work .dequeuing with reloadConfigCount := s.reloadConfigCount + 1 }

inductive Sys.SigStep (s : Sys) : SigLabel → Sys → Prop
  | fail (pc : s.sig = .idle) : s.SigStep (.take none) s
  | take {sigNum} (pc : s.sig = .idle) :
      s.SigStep (.take (some sigNum)) { s with sig := .enqueueing ⟨convertSignal sigNum, sigNum⟩ }
  | wait {work} (pc : s.sig = .enqueueing work) (free : s.DataFree)
      (full : s.data.count = queueCap) : s.SigStep .wait { s with sig := .waiting work }
  | enqueue {work woken worker} (pc : s.sig = .enqueueing work) (free : s.DataFree)
      (room : s.data.count ≠ queueCap)
      (signalled : Signalled .waiting .dequeuing s.worker worker) :
      s.SigStep (.enqueue woken) (s.enqueue work worker)
  | wake {work} (pc : s.sig = .waiting work) : s.SigStep .wake { s with sig := .enqueueing work }
  | flag (pc : s.sig = .flagging) (free : s.StateFree) :
      s.SigStep .flag { s with shuttingDown := true, sig := .broadcasting }
  | broadcast (pc : s.sig = .broadcasting) (free : s.DataFree) :
      s.SigStep .broadcast
        { s with worker := broadcast .waiting .dequeuing s.worker, sig := .stopped }

section Inversion

variable {s s' : Sys} {i : Fin maxWorker}

theorem Sys.dequeue_inv (pc : s.worker i = .dequeuing) (free : s.DataFree) :
    s.WorkerStep i .dequeue (s.dequeue i) := by
  unfold Sys.dequeue
  split
  next hwait => exact .toWait pc free hwait.1 hwait.2
  next hgo =>
    split
    next hfail => exact .fail pc free hfail.2 hfail.1
    next hstay =>
      refine .take pc free (Nat.pos_of_ne_zero fun hempty => ?_)
      cases hrun : s.shuttingDown with
      | false => exact hgo ⟨hempty, hrun⟩
      | true => exact hstay ⟨hrun, hempty⟩

theorem Sys.check_inv {work : Job} (pc : s.worker i = .checking work) :
    s.WorkerStep i .check (s.check i work) := by
  unfold Sys.check
  split
  next hend => exact .abandon pc hend
  next hrun => exact .check pc (Bool.not_eq_true _ ▸ hrun)

theorem Sys.execute_inv {work : Job} (pc : s.worker i = .executing work)
    (h : s.execute i work = some s') : s.WorkerStep i .execute s' := by
  unfold Sys.execute at h
  split at h
  next type =>
    rw [Option.ite_none_right_eq_some, Option.some.injEq] at h
    exact h.2 ▸ .doWork pc type
  next type =>
    rw [Option.ite_none_right_eq_some, Option.some.injEq] at h
    exact h.2 ▸ .printStatus pc type
  next type =>
    rw [Option.ite_none_right_eq_some, Option.some.injEq] at h
    exact h.2 ▸ .reloadConfig pc type h.1
  next type => exact Option.some.inj h ▸ .shutdown pc type
  next type => exact Option.some.inj h ▸ .none pc type

theorem Sys.workerStep_inv {l : WorkerLabel} (h : s.workerStep i l = some s') :
    s.WorkerStep i l s' := by
  unfold Sys.workerStep at h
  split at h
  next pc =>
    rw [Option.ite_none_right_eq_some, Option.some.injEq] at h
    exact h.2 ▸ Sys.dequeue_inv pc h.1
  next pc => exact Option.some.inj h ▸ .wait pc
  next pc => exact Option.some.inj h ▸ .wake pc
  next pc =>
    rw [Option.ite_none_right_eq_some, Option.some.injEq] at h
    obtain ⟨-, rfl⟩ := h
    split
    next hend => exact .leave pc hend
    next hrun => exact .retry pc (Bool.not_eq_true _ ▸ hrun)
  next pc =>
    rw [Option.ite_none_right_eq_some, Option.some.injEq] at h
    exact h.2 ▸ Sys.check_inv pc
  next pc => exact Sys.execute_inv pc h
  next pc =>
    rw [Option.ite_none_right_eq_some, Option.some.injEq] at h
    exact h.2 ▸ .worked pc
  next pc =>
    obtain ⟨res, hres, rfl⟩ := Option.map_eq_some_iff.mp h
    exact .reload pc (reloadStep_inv hres)
  next pc =>
    rw [Option.ite_none_right_eq_some, Option.some.injEq] at h
    exact h.2 ▸ .reloaded pc h.1
  next => cases h

theorem Sys.sigStep_inv {l : SigLabel} (h : s.sigStep l = some s') : s.SigStep l s' := by
  unfold Sys.sigStep at h
  split at h
  next pc => exact Option.some.inj h ▸ .fail pc
  next pc => exact Option.some.inj h ▸ .take pc
  next pc =>
    rw [Option.ite_none_right_eq_some, Option.some.injEq] at h
    exact h.2 ▸ .wait pc h.1.1 h.1.2
  next pc =>
    rw [Option.ite_none_right_eq_some] at h
    obtain ⟨worker, hworker, rfl⟩ := Option.map_eq_some_iff.mp h.2
    exact .enqueue pc h.1.1 h.1.2 (signal_inv hworker)
  next pc => exact Option.some.inj h ▸ .wake pc
  next pc =>
    rw [Option.ite_none_right_eq_some, Option.some.injEq] at h
    exact h.2 ▸ .flag pc h.1
  next pc =>
    rw [Option.ite_none_right_eq_some, Option.some.injEq] at h
    exact h.2 ▸ .broadcast pc h.1
  next => cases h

end Inversion

end LinuxMiniProjects.SignalDaemon
