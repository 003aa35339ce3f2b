import LinuxMiniProjects.Lib.Machine
import LinuxMiniProjects.Supervisor.Options

/-!
The supervisor and its child (`supervisor.c`).

The supervisor starts a child and waits in `pselect` for one of three
things: output of the child in the pipe, a signal, or the end of the time
limit. The time limit is an argument of `pselect`, and every call waits
for all of it. When the loop is left, the supervisor closes the pipe,
waits for the child in `waitpid`, and starts the next one if there are
restarts left.

A step is something that the child does, time that passes while the
supervisor waits, or what a call of the supervisor comes to. The signals
are blocked except in `pselect`. A `SIGCHLD` that is not delivered there
stays pending, also beyond the `waitpid` for the child that caused it. There
is no handler for `SIGHUP`, so it kills the supervisor. Without `-c` no pipe
is made, and the `FD_SET` before each `pselect` gets a descriptor that was
never set: it may write anywhere, and the supervisor may be killed for it.
If it is not, the `FD_SET` is taken to do no harm.

The state has a history of the current child: what it has written, what
was printed of it, for how long the supervisor has waited, and what `kill`
was called for. Times are in nanoseconds.
-/

namespace LinuxMiniProjects.Supervisor

open Bytes (cString)

def bufSize : ℕ := 128

/-- The time limit: that of the option, or `TIMEOUT_DEFAULT`. -/
def Options.limit (o : Options) : ℕ :=
  (if 0 < o.timeVal then o.timeVal else 5).toNat * 1000000000

inductive Target
  | process
  | group
  deriving DecidableEq, Repr

def Options.target (o : Options) : Target := if o.killGroup then .group else .process

inductive Pc
  /-- Before the condition of the outer loop. -/
  | starting
  /-- In `pselect`, which has waited for some time. -/
  | selecting (elapsed : ℕ)
  /-- Before the `read` from the pipe. -/
  | reading
  /-- Behind the inner loop. -/
  | closing
  /-- In `waitpid`. -/
  | reaping
  | sleeping
  | finished
  /-- The supervisor was killed by a signal. -/
  | died
  deriving DecidableEq, Repr

structure Child where
  ended : Bool
  /-- Somebody can write to the pipe. -/
  writers : Bool
  /-- What is in the pipe. -/
  pipe : List UInt8
  written : List UInt8
  /-- The data that was printed, one entry for each `read`. -/
  printed : List (List UInt8)
  waited : ℕ
  killed : Option Target
  deriving DecidableEq, Repr

def Child.fresh : Child := ⟨false, true, [], [], [], 0, none⟩

structure Sup where
  pc : Pc
  restartTime : ℤ
  isRunning : Bool
  /-- A `SIGCHLD` is pending. -/
  pending : Bool
  child : Child
  deriving DecidableEq, Repr

def Sup.init : Sup := ⟨.starting, 0, true, false, { Child.fresh with ended := true }⟩

def Sup.Continues (o : Options) (s : Sup) : Prop :=
  s.restartTime ≤ o.restartVal ∧ s.isRunning = true

instance (o : Options) (s : Sup) : Decidable (s.Continues o) :=
  inferInstanceAs (Decidable (_ ∧ _))

inductive Label
  /-- `pipe` and `fork` succeed, or one of them fails. -/
  | start (ok : Bool)
  /-- The outer loop is left. -/
  | leave
  /-- Time passes. -/
  | tick (d : ℕ)
  /-- `pselect` finds the pipe readable. -/
  | ready
  /-- `pselect` has waited for the time limit. -/
  | expire
  /-- `pselect` is interrupted by `SIGCHLD`. -/
  | sigchld
  /-- `pselect` is interrupted by `SIGINT` or `SIGTERM`. -/
  | sigterm
  /-- `SIGHUP` arrives in `pselect`. -/
  | sighup
  /-- `FD_SET` writes outside of `my_fd`. -/
  | fault
  /-- `read` takes `n` bytes; `junk` lies behind them in the memory. -/
  | read (n : ℕ) (junk : List UInt8)
  | readFailed
  | readEof
  | close
  /-- `waitpid` returns. The pending signal may be `cleared` by it. -/
  | reap (cleared : Bool)
  | wake
  /-- The child writes to its standard output. -/
  | write (bs : List UInt8)
  /-- The last descriptor for the other end of the pipe is closed. -/
  | closeOut
  /-- The child is stopped. -/
  | stop
  /-- The child ends. -/
  | exit
  deriving DecidableEq, Repr

def Child.kill (o : Options) (c : Child) : Child := { c with killed := some o.target }

/-- `read` and `printf`. The format is `%s`, so what is printed of the buffer
ends at the first zero, wherever that is. -/
def Child.print (c : Child) (n : ℕ) (junk : List UInt8) : Child :=
  { c with
    pipe := c.pipe.drop n
    printed := c.printed ++ [cString (c.pipe.take n ++ junk)] }

def Sup.reap (o : Options) (s : Sup) (cleared : Bool) : Sup :=
  let s' : Sup :=
    { s with
      restartTime := s.restartTime + 1
      pending := !cleared && s.pending }
  { s' with pc := if s'.Continues o then .sleeping else .starting }

def Sup.step (o : Options) (s : Sup) (l : Label) : Option Sup :=
  match s.pc, l with
  | .starting, .start ok =>
      if s.Continues o then
        some (if ok then { s with pc := .selecting 0, child := .fresh }
          else { s with pc := .finished })
      else none
  | .starting, .leave => if s.Continues o then none else some { s with pc := .finished }
  | .selecting elapsed, .tick d =>
      if elapsed + d ≤ o.limit then
        some { s with
          pc := .selecting (elapsed + d)
          child := { s.child with waited := s.child.waited + d } }
      else none
  | .selecting _, .ready =>
      if o.captureOut = true ∧ (s.child.pipe ≠ [] ∨ s.child.writers = false) then
        some { s with pc := .reading }
      else none
  | .selecting elapsed, .expire =>
      if elapsed = o.limit then some { s with pc := .selecting 0, child := s.child.kill o }
      else none
  | .selecting _, .sigchld =>
      if s.pending = true then some { s with pc := .closing, pending := false } else none
  | .selecting _, .sigterm =>
      some { s with pc := .closing, isRunning := false, child := s.child.kill o }
  | .selecting _, .sighup => some { s with pc := .died }
  | .selecting elapsed, .fault =>
      if elapsed = 0 ∧ o.captureOut = false then some { s with pc := .died } else none
  | .reading, .read n junk =>
      if 0 < n ∧ n ≤ bufSize ∧ n ≤ s.child.pipe.length then
        some { s with pc := .selecting 0, child := s.child.print n junk }
      else none
  | .reading, .readFailed => some { s with pc := .selecting 0 }
  | .reading, .readEof =>
      if s.child.pipe = [] ∧ s.child.writers = false then some { s with pc := .closing } else none
  | .closing, .close => some { s with pc := .reaping }
  -- there is no time limit in `waitpid`
  | .reaping, .tick d =>
      if s.child.ended = true then none
      else some { s with child := { s.child with waited := s.child.waited + d } }
  | .reaping, .reap cleared => if s.child.ended = true then some (s.reap o cleared) else none
  | .sleeping, .wake => some { s with pc := .starting }
  -- the child goes on without the supervisor
  | .died, .tick d =>
      if s.child.ended = true then none
      else some { s with child := { s.child with waited := s.child.waited + d } }
  | pc, .write bs =>
      if s.child.ended = false ∧ s.child.writers = true ∧ o.captureOut = true ∧
          pc ≠ .reaping ∧ pc ≠ .died then
        some { s with
          child := { s.child with
            pipe := s.child.pipe ++ bs
            written := s.child.written ++ bs } }
      else none
  | _, .closeOut => some { s with child := { s.child with writers := false } }
  | _, .stop => if s.child.ended = false then some { s with pending := true } else none
  | _, .exit =>
      if s.child.ended = false then
        some { s with pending := true, child := { s.child with ended := true } }
      else none
  | _, _ => none

/-! ### What a step can do -/

inductive Step (o : Options) (s : Sup) : Label → Sup → Prop
  | start (pc : s.pc = .starting) (continues : s.Continues o) :
      Step o s (.start true) { s with pc := .selecting 0, child := .fresh }
  /-- The supervisor is done. -/
  | finish {l} (pc : s.pc = .starting) : Step o s l { s with pc := .finished }
  | tick {elapsed d} (pc : s.pc = .selecting elapsed) (le : elapsed + d ≤ o.limit) :
      Step o s (.tick d) { s with
        pc := .selecting (elapsed + d)
        child := { s.child with waited := s.child.waited + d } }
  | ready {elapsed} (pc : s.pc = .selecting elapsed) (capture : o.captureOut = true) :
      Step o s .ready { s with pc := .reading }
  | expire (pc : s.pc = .selecting o.limit) :
      Step o s .expire { s with pc := .selecting 0, child := s.child.kill o }
  | sigchld {elapsed} (pc : s.pc = .selecting elapsed) :
      Step o s .sigchld { s with pc := .closing, pending := false }
  | sigterm {elapsed} (pc : s.pc = .selecting elapsed) :
      Step o s .sigterm
        { s with pc := .closing, isRunning := false, child := s.child.kill o }
  | sighup {elapsed} (pc : s.pc = .selecting elapsed) :
      Step o s .sighup { s with pc := .died }
  | fault (pc : s.pc = .selecting 0) : Step o s .fault { s with pc := .died }
  | read {n junk} (pc : s.pc = .reading) (le : n ≤ s.child.pipe.length) :
      Step o s (.read n junk) { s with pc := .selecting 0, child := s.child.print n junk }
  | readFailed (pc : s.pc = .reading) : Step o s .readFailed { s with pc := .selecting 0 }
  | readEof (pc : s.pc = .reading) (pipe : s.child.pipe = []) (writers : s.child.writers = false) :
      Step o s .readEof { s with pc := .closing }
  | close (pc : s.pc = .closing) : Step o s .close { s with pc := .reaping }
  | wait {d} (pc : s.pc = .reaping) (ended : s.child.ended = false) :
      Step o s (.tick d) { s with child := { s.child with waited := s.child.waited + d } }
  | reap {cleared} (pc : s.pc = .reaping) (ended : s.child.ended = true) :
      Step o s (.reap cleared) (s.reap o cleared)
  | wake (pc : s.pc = .sleeping) : Step o s .wake { s with pc := .starting }
  | outlive {d} (pc : s.pc = .died) (ended : s.child.ended = false) :
      Step o s (.tick d) { s with child := { s.child with waited := s.child.waited + d } }
  | write {bs} (ended : s.child.ended = false) (writers : s.child.writers = true)
      (pc_ne : s.pc ≠ .reaping) :
      Step o s (.write bs) { s with
        child := { s.child with
          pipe := s.child.pipe ++ bs
          written := s.child.written ++ bs } }
  | closeOut : Step o s .closeOut { s with child := { s.child with writers := false } }
  | stop : Step o s .stop { s with pending := true }
  | exit (ended : s.child.ended = false) :
      Step o s .exit { s with pending := true, child := { s.child with ended := true } }

theorem Step.of_eq {o : Options} {s s₁ s' : Sup} {l : Label} (h : some s₁ = some s')
    (hstep : Step o s l s₁) : Step o s l s' := by
  obtain rfl := Option.some.inj h
  exact hstep

theorem Sup.step_inv {o : Options} {s s' : Sup} {l : Label} (h : s.step o l = some s') :
    Step o s l s' := by
  unfold Sup.step at h
  split at h
  next ok pc =>
    obtain ⟨hcontinues, h⟩ := Option.ite_none_right_eq_some.mp h
    cases ok with
    | true => exact .of_eq h (.start pc hcontinues)
    | false => exact .of_eq h (.finish pc)
  next pc =>
    obtain ⟨-, h⟩ := Option.ite_none_left_eq_some.mp h
    exact .of_eq h (.finish pc)
  next pc =>
    obtain ⟨hle, h⟩ := Option.ite_none_right_eq_some.mp h
    exact .of_eq h (.tick pc hle)
  next pc =>
    obtain ⟨hready, h⟩ := Option.ite_none_right_eq_some.mp h
    exact .of_eq h (.ready pc hready.1)
  next pc =>
    obtain ⟨hlimit, h⟩ := Option.ite_none_right_eq_some.mp h
    exact .of_eq h (.expire (hlimit ▸ pc))
  next pc =>
    obtain ⟨-, h⟩ := Option.ite_none_right_eq_some.mp h
    exact .of_eq h (.sigchld pc)
  next pc => exact .of_eq h (.sigterm pc)
  next pc => exact .of_eq h (.sighup pc)
  next pc =>
    obtain ⟨hfault, h⟩ := Option.ite_none_right_eq_some.mp h
    exact .of_eq h (.fault (hfault.1 ▸ pc))
  next pc =>
    obtain ⟨hread, h⟩ := Option.ite_none_right_eq_some.mp h
    exact .of_eq h (.read pc hread.2.2)
  next pc => exact .of_eq h (.readFailed pc)
  next pc =>
    obtain ⟨heof, h⟩ := Option.ite_none_right_eq_some.mp h
    exact .of_eq h (.readEof pc heof.1 heof.2)
  next pc => exact .of_eq h (.close pc)
  next pc =>
    obtain ⟨hended, h⟩ := Option.ite_none_left_eq_some.mp h
    exact .of_eq h (.wait pc (Bool.not_eq_true _ ▸ hended))
  next pc =>
    obtain ⟨hended, h⟩ := Option.ite_none_right_eq_some.mp h
    exact .of_eq h (.reap pc hended)
  next pc => exact .of_eq h (.wake pc)
  next pc =>
    obtain ⟨hended, h⟩ := Option.ite_none_left_eq_some.mp h
    exact .of_eq h (.outlive pc (Bool.not_eq_true _ ▸ hended))
  next =>
    obtain ⟨hwrite, h⟩ := Option.ite_none_right_eq_some.mp h
    exact .of_eq h (.write hwrite.1 hwrite.2.1 hwrite.2.2.2.1)
  next => exact .of_eq h .closeOut
  next =>
    obtain ⟨-, h⟩ := Option.ite_none_right_eq_some.mp h
    exact .of_eq h .stop
  next =>
    obtain ⟨hended, h⟩ := Option.ite_none_right_eq_some.mp h
    exact .of_eq h (.exit hended)
  next => cases h

end LinuxMiniProjects.Supervisor
