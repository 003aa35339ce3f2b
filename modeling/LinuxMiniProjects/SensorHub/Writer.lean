import LinuxMiniProjects.Lib.CondVar
import LinuxMiniProjects.Lib.Machine
import LinuxMiniProjects.Lib.RingBuf

/-!
The sensor writer.

`main` receives commands from a message queue of the system and puts them
into a ring; four workers take them out and call `handle_command`; a
thread for signals clears `is_running`. All of them share one mutex and
two condition variables, and what a thread does with the mutex is one step
here. `main` calls `recv_from_queue`, and a worker `handle_command`,
without the mutex.

The thread for signals broadcasts after it has released the mutex, which
is a step of its own, and it broadcasts only to the workers.
-/

namespace LinuxMiniProjects.SensorHub

open Machine CondVar

def queueSize : ℕ := 64

def numberWorker : ℕ := 4

/-! ### The state -/

structure Message where
  id : ℤ
  message : List UInt8
deriving DecidableEq, Repr

structure MessageControl where
  mtype : ℤ
  data : Message
deriving DecidableEq, Repr

/-- `SHUTDOWN` of `enum type_message`. -/
def shutdown : ℤ := 5

/-- What the threads share: `head` is the index to read, `tail` the index to
write. -/
structure ThreadData where
  head : ℕ
  tail : ℕ
  count : ℕ
  ctrl : ℕ → MessageControl
  isRunning : Bool

def ThreadData.ring (d : ThreadData) : RingBuf MessageControl := ⟨d.ctrl, d.tail, d.head, d.count⟩

def ThreadData.put (d : ThreadData) (ctrl : MessageControl) : ThreadData :=
  { d with
    ctrl := Function.update d.ctrl d.tail ctrl
    tail := (d.tail + 1) % queueSize
    count := d.count + 1 }

def ThreadData.drop (d : ThreadData) : ThreadData :=
  { d with count := d.count - 1, head := (d.head + 1) % queueSize }

inductive MainPc
  | top
  | receiving
  | clearing
  | inserting (ctrl : MessageControl)
  | waiting (ctrl : MessageControl)
  | closing
  | joining
  | joiningSig
  | stopped
deriving DecidableEq, Repr

inductive WorkerPc
  | start
  | waiting
  | handling (ctrl : MessageControl)
  | stopped
deriving DecidableEq, Repr

inductive SigPc
  | waiting
  | clearing
  | broadcasting
  | stopped
deriving DecidableEq, Repr

/-- The process. The last three fields are a history that no step reads:
the commands that were received and are not `SHUTDOWN`, those that the
workers took out of the ring, and the calls of `handle_command`. -/
structure Sys where
  data : ThreadData
  main : MainPc
  worker : Fin numberWorker → WorkerPc
  sig : SigPc
  received : List MessageControl
  dequeued : List MessageControl
  handled : List MessageControl

/-- `system_configuration`; the array is as `main` finds it on the stack. -/
def Sys.init (stack : ℕ → MessageControl) : Sys where
  data := { head := 0, tail := 0, count := 0, ctrl := stack, isRunning := true }
  main := .top
  worker _ := .start
  sig := .waiting
  received := []
  dequeued := []
  handled := []

/-! ### Steps -/

inductive MainLabel
  /-- `main` looks at `is_running`. -/
  | check
  /-- `recv_from_queue` fails, or returns a command. -/
  | recv (msg : Option MessageControl)
  | clear
  /-- `main` starts to wait for a free cell. -/
  | wait
  /-- `main` writes the command and signals; a worker is woken. -/
  | insert (woken : Option (Fin numberWorker))
  /-- `pthread_cond_wait` returns without a signal. -/
  | wake
  | close
  | join
  | joinSig
deriving DecidableEq, Repr

inductive WorkerLabel
  | lock
  /-- `pthread_cond_wait` returns without a signal. -/
  | wake
  | handle
deriving DecidableEq, Repr

inductive Signal
  | usr1
  | hup
  | term
  | int
deriving DecidableEq, Repr

inductive SigLabel
  /-- `sigwaitinfo` fails, or returns a signal. -/
  | take (signal : Option Signal)
  | clear
  | broadcast
deriving DecidableEq, Repr

inductive Label
  | main (l : MainLabel)
  | worker (i : Fin numberWorker) (l : WorkerLabel)
  | sig (l : SigLabel)
deriving DecidableEq, Repr

def Signal.next : Signal → SigPc
  | term | int => .clearing
  | usr1 | hup => .waiting

/-- `pthread_cond_signal` on `not_full`, for which only `main` waits. -/
def MainPc.signalled : MainPc → MainPc
  | waiting ctrl => inserting ctrl
  | pc => pc

def ThreadData.full (d : ThreadData) : Prop := d.count = queueSize ∧ d.isRunning = true

instance (d : ThreadData) : Decidable d.full := inferInstanceAs (Decidable (_ ∧ _))

/-- `pthread_cond_broadcast` on `not_empty`. -/
def wakeAll (worker : Fin numberWorker → WorkerPc) : Fin numberWorker → WorkerPc :=
  broadcast .waiting .start worker

/-- `main` writes the command whether or not there is room, once it does
not have to wait any more. -/
def Sys.insert (s : Sys) (ctrl : MessageControl) (worker : Fin numberWorker → WorkerPc) : Sys :=
  { s with data := s.data.put ctrl, worker, main := .top }

def Sys.mainStep (s : Sys) (l : MainLabel) : Option Sys :=
  match s.main, l with
  | .top, .check =>
      some { s with main := if s.data.isRunning then .receiving else .closing }
  | .receiving, .recv none => some { s with main := .top }
  | .receiving, .recv (some ctrl) =>
      if ctrl.mtype = shutdown then some { s with main := .clearing }
      else some { s with main := .inserting ctrl, received := s.received ++ [ctrl] }
  | .clearing, .clear =>
      some { s with data := { s.data with isRunning := false }, main := .closing }
  | .inserting ctrl, .wait => if s.data.full then some { s with main := .waiting ctrl } else none
  | .inserting ctrl, .insert woken =>
      if s.data.full then none
      else (signal .waiting .start s.worker woken).map (s.insert ctrl)
  | .waiting ctrl, .wake => some { s with main := .inserting ctrl }
  | .closing, .close =>
      some { s with
        data := { s.data with isRunning := false }
        worker := wakeAll s.worker
        main := .joining }
  | .joining, .join =>
      if ∀ i, s.worker i = .stopped then some { s with main := .joiningSig } else none
  | .joiningSig, .joinSig => if s.sig = .stopped then some { s with main := .stopped } else none
  | _, _ => none

def Sys.take (s : Sys) (i : Fin numberWorker) : Sys :=
  let ctrl := s.data.ctrl s.data.head
  { s with
    data := s.data.drop
    main := s.main.signalled
    worker := Function.update s.worker i (.handling ctrl)
    dequeued := s.dequeued ++ [ctrl] }

def Sys.lock (s : Sys) (i : Fin numberWorker) : Sys :=
  if s.data.count = 0 ∧ s.data.isRunning = true then
    { s with worker := Function.update s.worker i .waiting }
  else if s.data.isRunning = false ∧ s.data.count = 0 then
    { s with worker := Function.update s.worker i .stopped }
  else s.take i

def Sys.workerStep (s : Sys) (i : Fin numberWorker) (l : WorkerLabel) : Option Sys :=
  match s.worker i, l with
  | .start, .lock => some (s.lock i)
  | .waiting, .wake => some { s with worker := Function.update s.worker i .start }
  | .handling ctrl, .handle =>
      some { s with
        worker := Function.update s.worker i .start
        handled := s.handled ++ [ctrl] }
  | _, _ => none

def Sys.sigStep (s : Sys) (l : SigLabel) : Option Sys :=
  match s.sig, l with
  | .waiting, .take none => some s
  | .waiting, .take (some signal) => some { s with sig := signal.next }
  | .clearing, .clear =>
      some { s with data := { s.data with isRunning := false }, sig := .broadcasting }
  | .broadcasting, .broadcast => some { s with worker := wakeAll s.worker, sig := .stopped }
  | _, _ => none

def Sys.step (s : Sys) : Label → Option Sys
  | .main l => s.mainStep l
  | .worker i l => s.workerStep i l
  | .sig l => s.sigStep l

/-! ### The steps as a relation -/

inductive Sys.MainStep (s : Sys) : MainLabel → Sys → Prop
  | check (pc : s.main = .top) :
      s.MainStep .check { s with main := if s.data.isRunning then .receiving else .closing }
  | fail (pc : s.main = .receiving) : s.MainStep (.recv none) { s with main := .top }
  | recvShutdown {ctrl} (pc : s.main = .receiving) :
      s.MainStep (.recv (some ctrl)) { s with main := .clearing }
  | recv {ctrl} (pc : s.main = .receiving) :
      s.MainStep (.recv (some ctrl))
        { s with main := .inserting ctrl, received := s.received ++ [ctrl] }
  | clear (pc : s.main = .clearing) :
      s.MainStep .clear { s with data := { s.data with isRunning := false }, main := .closing }
  | wait {ctrl} (pc : s.main = .inserting ctrl) (full : s.data.full) :
      s.MainStep .wait { s with main := .waiting ctrl }
  | insert {ctrl woken worker} (pc : s.main = .inserting ctrl) (room : ¬ s.data.full)
      (signalled : Signalled .waiting .start s.worker worker) :
      s.MainStep (.insert woken) (s.insert ctrl worker)
  | wake {ctrl} (pc : s.main = .waiting ctrl) : s.MainStep .wake { s with main := .inserting ctrl }
  | close (pc : s.main = .closing) :
      s.MainStep .close { s with
        data := { s.data with isRunning := false }
        worker := wakeAll s.worker
        main := .joining }
  | join (pc : s.main = .joining) (ended : ∀ i, s.worker i = .stopped) :
      s.MainStep .join { s with main := .joiningSig }
  | joinSig (pc : s.main = .joiningSig) : s.MainStep .joinSig { s with main := .stopped }

inductive Sys.WorkerStep (s : Sys) (i : Fin numberWorker) : WorkerLabel → Sys → Prop
  | wait (pc : s.worker i = .start) (empty : s.data.count = 0) (run : s.data.isRunning = true) :
      s.WorkerStep i .lock { s with worker := Function.update s.worker i .waiting }
  | stop (pc : s.worker i = .start) (empty : s.data.count = 0) (ended : s.data.isRunning = false) :
      s.WorkerStep i .lock { s with worker := Function.update s.worker i .stopped }
  | take (pc : s.worker i = .start) (pos : 0 < s.data.count) : s.WorkerStep i .lock (s.take i)
  | wake (pc : s.worker i = .waiting) :
      s.WorkerStep i .wake { s with worker := Function.update s.worker i .start }
  | handle {ctrl} (pc : s.worker i = .handling ctrl) :
      s.WorkerStep i .handle { s with
        worker := Function.update s.worker i .start
        handled := s.handled ++ [ctrl] }

inductive Sys.SigStep (s : Sys) : SigLabel → Sys → Prop
  | fail (pc : s.sig = .waiting) : s.SigStep (.take none) s
  | take {signal} (pc : s.sig = .waiting) :
      s.SigStep (.take (some signal)) { s with sig := signal.next }
  | clear (pc : s.sig = .clearing) :
      s.SigStep .clear
        { s with data := { s.data with isRunning := false }, sig := .broadcasting }
  | broadcast (pc : s.sig = .broadcasting) :
      s.SigStep .broadcast { s with worker := wakeAll s.worker, sig := .stopped }

section Inversion

variable {s s' : Sys}

theorem Sys.mainStep_inv {l : MainLabel} (h : s.mainStep l = some s') : s.MainStep l s' := by
  unfold Sys.mainStep at h
  split at h
  next pc => exact Option.some.inj h ▸ .check pc
  next pc => exact Option.some.inj h ▸ .fail pc
  next pc =>
    split at h
    next => exact Option.some.inj h ▸ .recvShutdown pc
    next => exact Option.some.inj h ▸ .recv pc
  next pc => exact Option.some.inj h ▸ .clear pc
  next pc =>
    rw [Option.ite_none_right_eq_some, Option.some.injEq] at h
    exact h.2 ▸ .wait pc h.1
  next pc =>
    split at h
    next => cases h
    next room =>
      obtain ⟨worker, hworker, rfl⟩ := Option.map_eq_some_iff.mp h
      exact .insert pc room (signal_inv hworker)
  next pc => exact Option.some.inj h ▸ .wake pc
  next pc => exact Option.some.inj h ▸ .close pc
  next pc =>
    rw [Option.ite_none_right_eq_some, Option.some.injEq] at h
    exact h.2 ▸ .join pc h.1
  next pc =>
    rw [Option.ite_none_right_eq_some, Option.some.injEq] at h
    exact h.2 ▸ .joinSig pc
  next => cases h

theorem Sys.workerStep_inv {i : Fin numberWorker} {l : WorkerLabel}
    (h : s.workerStep i l = some s') : s.WorkerStep i l s' := by
  unfold Sys.workerStep at h
  split at h
  next pc =>
    obtain rfl := Option.some.inj h
    unfold Sys.lock
    split
    next hwait => exact .wait pc hwait.1 hwait.2
    next hgo =>
      split
      next hstop => exact .stop pc hstop.2 hstop.1
      next hstay =>
        refine .take pc (Nat.pos_of_ne_zero fun hempty => ?_)
        cases hrun : s.data.isRunning with
        | true => exact hgo ⟨hempty, hrun⟩
        | false => exact hstay ⟨hrun, hempty⟩
  next pc => exact Option.some.inj h ▸ .wake pc
  next pc => exact Option.some.inj h ▸ .handle pc
  next => cases h

theorem Sys.sigStep_inv {l : SigLabel} (h : s.sigStep l = some s') : s.SigStep l s' := by
  unfold Sys.sigStep at h
  split at h
  next pc => exact Option.some.inj h ▸ .fail pc
  next pc => exact Option.some.inj h ▸ .take pc
  next pc => exact Option.some.inj h ▸ .clear pc
  next pc => exact Option.some.inj h ▸ .broadcast pc
  next => cases h

end Inversion

end LinuxMiniProjects.SensorHub
