import LinuxMiniProjects.Lib.Threads
import LinuxMiniProjects.SignalDaemon.Consistency
import LinuxMiniProjects.SignalDaemon.Shutdown

/-!
The configuration follows the file.

A thread watches the directory of the configuration. For each event with
the name of the file, `watch_handler` raises `SIGHUP`; the thread for
signals makes a job of it, and a worker reloads the configuration. Several
signals that are pending are one, so that there may be fewer reloads than
changes; and a change during a reload leaves a configuration of two
versions. Neither is there to stay: a change brings an event, and the
reload that this event leads to begins after the change. So when nothing
is left to be done, the last reload has seen one version only, and this is
the file as it is now.

`main` reads the configuration before the directory is watched. A change in
between is not noticed, so the watch starts with any configuration; it stays
until the file changes again or somebody sends `SIGHUP`. That an event is
lost, because `select` or `read` fails or because the queue of the kernel
overflows, is left out.
-/

namespace LinuxMiniProjects.SignalDaemon

open SafeConfig Machine CondVar

/-! ### The daemon and its watch -/

/-- The name of a file within its directory: what is behind the last
slash. -/
def configName (path : Text) : Text := (path.reverse.takeWhile (· ≠ 47)).reverse

/-- The daemon with its watch. `events` are the names in the events that
`inotify_handler` has still to handle, oldest first; `hangup` says whether a
`SIGHUP` is pending. -/
structure Watch where
  daemon : Sys
  events : List Text
  hangup : Bool

/-- The directory is watched from now on. `config` is what `main` has read
before, perhaps from other versions of the file. -/
def Watch.init (config : Config) (t : Text) : Watch where
  daemon := Sys.init config (some t)
  events := []
  hangup := false

inductive WatchLabel
  | daemon (l : Label)
  /-- Something happens to a file of the directory, whose contents stay as
  they are if it is the configuration. -/
  | touch (name : Text)
  /-- The next event is handled. -/
  | notify
  /-- Another process sends `SIGHUP`. -/
  | raise
deriving DecidableEq, Repr

def Label.isInstall : Label → Bool
  | install _ => true
  | _ => false

def Label.takesHangup : Label → Bool
  | sig (.take (some sigNum)) => decide (sigNum = sighup)
  | _ => false

def watchHandler (path : Text) (w : Watch) (name : Text) : Watch :=
  if w.daemon.shuttingDown = false ∧ name = configName path then { w with hangup := true } else w

def Watch.step (path : Text) (w : Watch) : WatchLabel → Option Watch
  | .daemon l =>
      if l.takesHangup = true → w.hangup = true then
        (w.daemon.step l).map fun daemon =>
          { daemon
            events := if l.isInstall then w.events ++ [configName path] else w.events
            hangup := w.hangup && !l.takesHangup }
      else none
  | .touch name => some { w with events := w.events ++ [name] }
  | .notify =>
      match w.events with
      | [] => none
      | name :: events =>
          if w.daemon.StateFree then some (watchHandler path { w with events } name) else none
  | .raise => some { w with hangup := true }

/-! ### Runs without a shutdown and without errors -/

def ReloadLabel.Succeeds : ReloadLabel → Prop
  | openFile ok | flock ok | read ok _ => ok = true

instance : (l : ReloadLabel) → Decidable l.Succeeds
  | .openFile _ | .flock _ | .read _ _ => inferInstanceAs (Decidable (_ = _))

/-- **The condition.** The daemon is not told to shut down, the calls of a
reload succeed, and the file can be read as a whole. -/
def Label.Calm : Label → Prop
  | worker _ (.reload l) => l.Succeeds
  | sig (.take (some sigNum)) => convertSignal sigNum ≠ .shutdown
  | install text => Plain text
  | _ => True

instance : (l : Label) → Decidable l.Calm
  | .worker _ (.reload l) => inferInstanceAs (Decidable l.Succeeds)
  | .sig (.take (some _)) => inferInstanceAs (Decidable (_ ≠ _))
  | .install _ => inferInstanceAs (Decidable (Plain _))
  | .worker _ .dequeue | .worker _ .wait | .worker _ .wake => instDecidableTrue
  | .worker _ .check | .worker _ .execute | .worker _ .finish => instDecidableTrue
  | .sig (.take none) | .sig .wait | .sig (.enqueue _) | .sig .wake => instDecidableTrue
  | .sig .flag | .sig .broadcast => instDecidableTrue

def Watch.Calm (_ : Watch) : WatchLabel → Prop
  | .daemon l => l.Calm
  | _ => True

instance (w : Watch) : (l : WatchLabel) → Decidable (w.Calm l)
  | .daemon l => inferInstanceAs (Decidable l.Calm)
  | .touch _ | .notify | .raise => instDecidableTrue

def SigPc.job : SigPc → Option Job
  | enqueueing work | waiting work => some work
  | _ => none

theorem SigPc.job_signalled (pc : SigPc) : pc.signalled.job = pc.job := by cases pc <;> rfl

structure Sys.Open (s : Sys) : Prop where
  run : s.shuttingDown = false
  sig : s.sig.isClosing = false
  job : ∀ work, s.sig.job = some work → work.type ≠ .shutdown

section Open

variable {s s' : Sys} {i : Fin maxWorker}

theorem Sys.Open.workerStep {l : WorkerLabel} (h : s.Open) (hs : s.WorkerStep i l s') :
    s'.Open := by
  cases hs with
  | take pc free pos =>
      exact ⟨h.run, s.sig.isClosing_signalled.trans h.sig, s.sig.job_signalled ▸ h.job⟩
  | _ => exact ⟨h.run, h.sig, h.job⟩

theorem Sys.Open.sigStep {l : SigLabel} (h : s.Open) (hok : (Label.sig l).Calm)
    (hs : s.SigStep l s') : s'.Open := by
  have hsig := h.sig
  cases hs with
  | fail pc => exact h
  | take pc => exact ⟨h.run, rfl, fun work hwork => Option.some.inj hwork ▸ hok⟩
  | wait pc | wake pc => exact ⟨h.run, rfl, fun work hwork => h.job work (by rw [pc]; exact hwork)⟩
  | @enqueue work woken worker pc =>
      have hidle : (s.enqueue work worker).sig = .idle :=
        if_neg (h.job work (by rw [pc]; rfl))
      exact ⟨h.run, by rw [hidle]; rfl, by rw [hidle]; nofun⟩
  | flag pc | broadcast pc =>
      rw [pc] at hsig
      cases hsig

end Open

/-! ### A reload that is on its way -/

def WorkerPc.unbegun : WorkerPc → Option Job
  | checking work | executing work => some work
  | _ => none

def Sys.Awaits (s : Sys) : Prop :=
  ∃ work, work.type = .reloadConfig ∧
    (s.sig.job = some work ∨ work ∈ s.data.jobs ∨ ∃ i, (s.worker i).unbegun = some work)

section Awaits

variable {s s' : Sys} {i : Fin maxWorker} {x : WorkerPc}

theorem Sys.Awaits.of_update (h : s.Awaits) (hsig : s'.sig = s.sig) (hdata : s'.data = s.data)
    (hworker : s'.worker = Function.update s.worker i x)
    (hi : ∀ work, work.type = .reloadConfig → (s.worker i).unbegun = some work →
      x.unbegun = some work) : s'.Awaits := by
  obtain ⟨work, htype, hplace⟩ := h
  refine ⟨work, htype, ?_⟩
  rw [hsig, hdata, hworker]
  rcases hplace with hplace | hplace | ⟨j, hj⟩
  · exact .inl hplace
  · exact .inr (.inl hplace)
  · by_cases hji : j = i
    · subst hji
      exact .inr (.inr ⟨j, by rw [Function.update_self]; exact hi work htype hj⟩)
    · exact .inr (.inr ⟨j, by rw [Function.update_of_ne hji]; exact hj⟩)

theorem Sys.Awaits.take (h : s.Awaits) (hring : s.data.ring.Valid queueCap)
    (pc : s.worker i = .dequeuing) (hpos : 0 < s.data.count) : (s.take i).Awaits := by
  have hjobs : s.data.jobs = s.data.ring.front :: s.data.drop.jobs := hring.contents_eq_cons hpos
  have hi : ((s.take i).worker i).unbegun = some s.data.ring.front := by
    rw [show (s.take i).worker i = .checking s.data.ring.front from Function.update_self ..]
    rfl
  obtain ⟨work, htype, hplace⟩ := h
  rw [hjobs, List.mem_cons] at hplace
  rcases hplace with hplace | (rfl | hplace) | ⟨j, hj⟩
  · exact ⟨work, htype, .inl (s.sig.job_signalled.trans hplace)⟩
  · exact ⟨_, htype, .inr (.inr ⟨i, hi⟩)⟩
  · exact ⟨work, htype, .inr (.inl hplace)⟩
  · have hji : j ≠ i := by
      rintro rfl
      rw [pc] at hj
      cases hj
    have hj' : (s.take i).worker j = s.worker j := Function.update_of_ne hji ..
    exact ⟨work, htype, .inr (.inr ⟨j, hj' ▸ hj⟩)⟩

theorem Sys.Awaits.enqueue {work : Job} {worker : Fin maxWorker → WorkerPc} (h : s.Awaits)
    (hring : s.data.ring.Valid queueCap) (pc : s.sig = .enqueueing work)
    (room : s.data.count ≠ queueCap) (hwoken : Woken .waiting .dequeuing s.worker worker) :
    (s.enqueue work worker).Awaits := by
  have hlt : s.data.count < queueCap := lt_of_le_of_ne hring.count room
  have hjobs : (s.enqueue work worker).data.jobs = s.data.jobs ++ [work] :=
    hring.contents_push hlt work
  obtain ⟨work', htype, hplace⟩ := h
  refine ⟨work', htype, .inr ?_⟩
  rw [hjobs]
  rcases hplace with hplace | hplace | ⟨j, hj⟩
  · rw [pc] at hplace
    exact .inl (List.mem_append_right _ (List.mem_singleton.mpr (Option.some.inj hplace).symm))
  · exact .inl (List.mem_append_left _ hplace)
  · refine .inr ⟨j, ?_⟩
    rcases hwoken j with heq | ⟨hwait, -⟩
    · exact (congrArg WorkerPc.unbegun heq).trans hj
    · rw [hwait] at hj
      cases hj

theorem Sys.Awaits.sigStep {l : SigLabel} (h : s.Awaits) (hopen : s.Open)
    (hring : s.data.ring.Valid queueCap) (hs : s.SigStep l s') : s'.Awaits := by
  have hsig := hopen.sig
  have hlater : ∀ {sig}, (∀ work, s.sig.job = some work → sig.job = some work) →
      ({ s with sig } : Sys).Awaits := by
    intro sig hjob
    obtain ⟨work, htype, hplace⟩ := h
    exact ⟨work, htype, hplace.imp_left (hjob work)⟩
  cases hs with
  | fail pc => exact h
  | take pc => exact hlater (by rw [pc]; nofun)
  | wait pc | wake pc => exact hlater (by rw [pc]; exact fun _ => id)
  | enqueue pc free room signalled => exact h.enqueue hring pc room signalled.woken
  | flag pc | broadcast pc =>
      rw [pc] at hsig
      cases hsig

end Awaits

/-! ### A configuration that is not out of date -/

/-- The configuration is that of `t`, or it is being read from it. The
versions of the past do not count. -/
def Sys.Current (t : Text) (s : Sys) : Prop :=
  ({ s with versions := [t] } : Sys).Coherent (configOf t)

section Current

variable {t : Text} {s s' : Sys} {i : Fin maxWorker}

theorem Sys.WorkerStep.with_versions {l : WorkerLabel} (hs : s.WorkerStep i l s')
    (versions : List Text) :
    ({ s with versions } : Sys).WorkerStep i l { s' with versions } := by
  cases hs with
  | toWait pc free empty run => exact .toWait pc free empty run
  | fail pc free empty ended => exact .fail pc free empty ended
  | take pc free pos => exact .take pc free pos
  | wait pc => exact .wait pc
  | wake pc => exact .wake pc
  | leave pc ended => exact .leave pc ended
  | retry pc run => exact .retry pc run
  | abandon pc ended => exact .abandon pc ended
  | check pc run => exact .check pc run
  | doWork pc type => exact .doWork pc type
  | printStatus pc type => exact .printStatus pc type
  | reloadConfig pc type free => exact .reloadConfig pc type free
  | shutdown pc type => exact .shutdown pc type
  | none pc type => exact .none pc type
  | worked pc => exact .worked pc
  | reload pc step => exact .reload pc step
  | reloaded pc ended => exact .reloaded pc ended

theorem Sys.SigStep.with_versions {l : SigLabel} (hs : s.SigStep l s') (versions : List Text) :
    ({ s with versions } : Sys).SigStep l { s' with versions } := by
  cases hs with
  | fail pc => exact .fail pc
  | take pc => exact .take pc
  | wait pc free full => exact .wait pc free full
  | enqueue pc free room signalled => exact .enqueue pc free room signalled
  | wake pc => exact .wake pc
  | flag pc free => exact .flag pc free
  | broadcast pc free => exact .broadcast pc free

theorem Sys.Current.started (hfile : s.file = some t) (free : s.StateFree) (work : Job) :
    ({ s with
      config := .default
      worker := Function.update s.worker i (.reloading work .start) } : Sys).Current t := by
  have hnone : ∀ j, (s.worker j).isReloading ≠ true := fun j => Bool.eq_false_iff.mp (free j)
  -- a state that differs in the configuration only, which is then replaced
  have hread : ({ s with config := configOf t, versions := [t] } : Sys).Coherent
      (configOf t) := by
    constructor
    · intro t' ht'
      exact List.mem_singleton.mpr (Option.some.inj (ht'.symm.trans hfile))
    · exact fun j _ hj => absurd hj (hnone j)
    · intro j work' r hpc
      exact absurd (congrArg WorkerPc.isReloading hpc) (hnone j)
    · exact fun _ => .inl rfl
  exact hread.of_reloading (fun j _ => free j) ⟨rfl, rfl⟩ nofun

/-- The reload that goes on has opened nothing, or the file as it is. -/
theorem Sys.Current.steady {l : WorkerLabel} (h : s.Current t) (hfile : s.file = some t)
    (hplain : Plain t) (hok : (Label.worker i l).Calm) :
    ({ s with versions := [t] } : Sys).Steady (.worker i l) := by
  cases l with
  | reload l =>
      show (s.worker i).Steady s.file l
      cases hpc : s.worker i with
      | reloading work r =>
          cases l with
          | openFile ok =>
              refine ⟨hok, ?_, by rw [hfile]; exact hplain⟩
              cases hversion : r.version with
              | none => exact .inl rfl
              | some t' =>
                  have ht' := (h.reload i work r hpc).2 t' hversion
                  exact .inr (by rw [hfile, List.mem_singleton.mp ht'])
          | flock ok => exact hok
          | read ok stack => exact hok
      | _ => trivial
  | _ => trivial

theorem Sys.Current.workerStep {l : WorkerLabel} (h : s.Current t) (hfile : s.file = some t)
    (hplain : Plain t) (hok : (Label.worker i l).Calm) (hs : s.WorkerStep i l s') :
    s'.Current t :=
  Sys.Coherent.workerStep h (h.steady hfile hplain hok) (hs.with_versions [t])

theorem Sys.Current.sigStep {l : SigLabel} (h : s.Current t) (hs : s.SigStep l s') :
    s'.Current t :=
  Sys.Coherent.sigStep h (hs.with_versions [t])

theorem Sys.Current.config_eq (h : s.Current t) (hfree : s.StateFree) :
    s.config = configOf t := by
  rcases h.settled hfree with heq | ⟨t', ht', heq⟩
  · exact heq
  · rwa [List.mem_singleton.mp ht'] at heq

/-- A reload stays on its way until it begins, and then it will read the
file as it is. -/
theorem Sys.Awaits.workerStep {l : WorkerLabel} (h : s.Awaits) (hopen : s.Open)
    (hring : s.data.ring.Valid queueCap) (hfile : s.file = some t) (hs : s.WorkerStep i l s') :
    s'.Awaits ∨ s'.Current t := by
  -- a worker that begins another job
  have hother : ∀ {work : Job} {type x}, s.worker i = .executing work → work.type = type →
      type ≠ .reloadConfig → ∀ work', work'.type = .reloadConfig →
      (s.worker i).unbegun = some work' → (x : WorkerPc).unbegun = some work' := by
    intro work type x pc htype hne work' htype' hwork'
    rw [pc] at hwork'
    obtain rfl := Option.some.inj hwork'
    exact absurd (htype.symm.trans htype') hne
  cases hs with
  | take pc free pos => exact .inl (h.take hring pc pos)
  | toWait pc | fail pc | wait pc | wake pc | leave pc | retry pc | worked pc | reload pc
  | reloaded pc => exact .inl (h.of_update rfl rfl rfl (by rw [pc]; nofun))
  | abandon pc ended => exact absurd ended (Bool.eq_false_iff.mp hopen.run)
  | check pc run => exact .inl (h.of_update rfl rfl rfl (by rw [pc]; exact fun _ _ => id))
  | doWork pc type | printStatus pc type | shutdown pc type | none pc type =>
      exact .inl (h.of_update rfl rfl rfl (hother pc type nofun))
  | @reloadConfig work pc type free => exact .inr (Sys.Current.started hfile free work)

end Current

/-! ### Before the first reload -/

structure Sys.Untouched (config : Config) (t : Text) (s : Sys) : Prop where
  file : s.file = some t
  versions : s.versions = [t]
  config : s.config = config
  free : s.StateFree

section Untouched

variable {config : Config} {t : Text} {s s' : Sys} {i : Fin maxWorker}

theorem Sys.Untouched.of_update (h : s.Untouched config t) (hfile : s'.file = s.file)
    (hversions : s'.versions = s.versions) (hconfig : s'.config = s.config) {x : WorkerPc}
    (hworker : s'.worker = Function.update s.worker i x) (hx : x.isReloading = false) :
    s'.Untouched config t := by
  refine ⟨hfile.trans h.file, hversions.trans h.versions, hconfig.trans h.config, fun j => ?_⟩
  rw [hworker]
  exact forall_update (P := fun pc : WorkerPc => pc.isReloading = false) h.free hx j

theorem Sys.Untouched.workerStep {l : WorkerLabel} (h : s.Untouched config t)
    (hs : s.WorkerStep i l s') : s'.Untouched config t ∨ s'.Current t := by
  have hi := h.free i
  cases hs with
  | toWait pc | fail pc | take pc | wait pc | wake pc | leave pc | retry pc | abandon pc | check pc
  | doWork pc | printStatus pc | shutdown pc | none pc | worked pc =>
      exact .inl (h.of_update rfl rfl rfl rfl rfl)
  | @reloadConfig work pc type free => exact .inr (Sys.Current.started h.file free work)
  | reload pc | reloaded pc =>
      rw [pc] at hi
      cases hi

theorem Sys.Untouched.sigStep {l : SigLabel} (h : s.Untouched config t) (hs : s.SigStep l s') :
    s'.Untouched config t := by
  have hwoken : ∀ {worker}, Woken .waiting .dequeuing s.worker worker →
      ∀ j, (worker j : WorkerPc).isReloading = false := by
    intro worker hwoken j
    rcases hwoken j with heq | ⟨-, hready⟩
    · exact heq ▸ h.free j
    · rw [hready]
      rfl
  cases hs with
  | fail pc => exact h
  | take pc | wait pc | wake pc | flag pc => exact ⟨h.file, h.versions, h.config, h.free⟩
  | enqueue pc free room signalled =>
      exact ⟨h.file, h.versions, h.config, hwoken signalled.woken⟩
  | broadcast pc free =>
      exact ⟨h.file, h.versions, h.config, hwoken (woken_broadcast _ _ s.worker)⟩

end Untouched

/-! ### The configuration follows the file -/

/-- What holds at any time: a change is still to be noticed, or a reload is
on its way, or the configuration is current, or it is the one of the start
and the file was never replaced. -/
structure Watch.Follows (path : Text) (config : Config) (t₀ : Text) (w : Watch) : Prop where
  accounts : w.daemon.Accounts
  opened : w.daemon.Open
  file : ∃ t, w.daemon.file = some t ∧ Plain t ∧
    (configName path ∈ w.events ∨ w.hangup = true ∨ w.daemon.Awaits ∨ w.daemon.Current t ∨
      w.daemon.Untouched config t₀)

section Follows

variable {path t : Text} {config : Config} {w w' : Watch}

theorem Watch.Follows.init (path : Text) (config : Config) (ht : Plain t) :
    (Watch.init config t).Follows path config t where
  accounts := .init _ _
  opened := ⟨rfl, rfl, nofun⟩
  file := ⟨t, rfl, ht, .inr (.inr (.inr (.inr ⟨rfl, rfl, rfl, fun _ => rfl⟩)))⟩

theorem Sys.SigStep.awaits {s s' : Sys} {l : SigLabel} (hs : s.SigStep l s')
    (htakes : (Label.sig l).takesHangup = true) : s'.Awaits := by
  cases hs with
  | @take sigNum pc =>
      obtain rfl : sigNum = sighup := of_decide_eq_true htakes
      exact ⟨_, rfl, .inl rfl⟩
  | _ => cases htakes

theorem Watch.Follows.worker {s' : Sys} {i : Fin maxWorker} {l : WorkerLabel}
    (h : w.Follows path config t) (hok : (Label.worker i l).Calm)
    (hs : w.daemon.WorkerStep i l s') :
    ({ w with daemon := s' } : Watch).Follows path config t := by
  obtain ⟨t', hfile, hplain, hfresh⟩ := h.file
  have hfile' : s'.file = some t' := by cases hs <;> exact hfile
  refine ⟨h.accounts.workerStep hs, h.opened.workerStep hs, t', hfile', hplain, ?_⟩
  refine hfresh.imp_right (Or.imp_right fun hfresh => ?_)
  rcases hfresh with hawaits | hcurrent | huntouched
  · exact (hawaits.workerStep h.opened h.accounts.ring hfile hs).imp_right .inl
  · exact .inr (.inl (hcurrent.workerStep hfile hplain hok hs))
  · obtain rfl : t = t' := Option.some.inj (huntouched.file.symm.trans hfile)
    exact .inr (huntouched.workerStep hs).symm

theorem Watch.Follows.sig {s' : Sys} {l : SigLabel} (h : w.Follows path config t)
    (hok : (Label.sig l).Calm) (hs : w.daemon.SigStep l s') :
    (⟨s', w.events, w.hangup && !(Label.sig l).takesHangup⟩ : Watch).Follows path config t := by
  obtain ⟨t', hfile, hplain, hfresh⟩ := h.file
  have hfile' : s'.file = some t' := by cases hs <;> exact hfile
  refine ⟨h.accounts.sigStep hs, h.opened.sigStep hok hs, t', hfile', hplain, ?_⟩
  cases htakes : (Label.sig l).takesHangup with
  | true => exact .inr (.inr (.inl (hs.awaits htakes)))
  | false =>
      rcases hfresh with hevent | hhangup | hawaits | hcurrent | huntouched
      · exact .inl hevent
      · exact .inr (.inl (by rw [hhangup]; rfl))
      · exact .inr (.inr (.inl (hawaits.sigStep h.opened h.accounts.ring hs)))
      · exact .inr (.inr (.inr (.inl (hcurrent.sigStep hs))))
      · exact .inr (.inr (.inr (.inr (huntouched.sigStep hs))))

theorem Watch.Follows.notify {name : Text} {events : List Text} (h : w.Follows path config t)
    (hevents : w.events = name :: events) :
    (watchHandler path { w with events } name).Follows path config t := by
  obtain ⟨t', hfile, hplain, hfresh⟩ := h.file
  unfold watchHandler
  split
  next hname => exact ⟨h.accounts, h.opened, t', hfile, hplain, .inr (.inl rfl)⟩
  next hname =>
    refine ⟨h.accounts, h.opened, t', hfile, hplain, ?_⟩
    refine hfresh.imp_left fun hmem => ?_
    -- the event was one of another file
    have hne : configName path ≠ name := fun heq => hname ⟨h.opened.run, heq.symm⟩
    rw [hevents] at hmem
    exact (List.mem_cons.mp hmem).resolve_left hne

theorem Watch.Follows.step {l : WatchLabel} (h : w.Follows path config t) (hok : w.Calm l)
    (hs : w.step path l = some w') : w'.Follows path config t := by
  obtain ⟨t', hfile, hplain, hfresh⟩ := h.file
  cases l with
  | daemon l =>
      have hs := (Option.ite_none_right_eq_some.mp hs).2
      obtain ⟨s', hs', rfl⟩ := Option.map_eq_some_iff.mp hs
      cases l with
      | worker i l =>
          have hworker := h.worker hok (Sys.workerStep_inv hs')
          simpa [Label.isInstall, Label.takesHangup] using hworker
      | sig l => exact h.sig hok (Sys.sigStep_inv hs')
      | install text =>
          obtain rfl := Option.some.inj hs'
          exact ⟨{ h.accounts with }, ⟨h.opened.run, h.opened.sig, h.opened.job⟩, text, rfl, hok,
            .inl (List.mem_append_right _ (List.mem_singleton_self _))⟩
  | touch name =>
      obtain rfl := Option.some.inj hs
      exact ⟨h.accounts, h.opened, t', hfile, hplain, hfresh.imp_left (List.mem_append_left _)⟩
  | notify =>
      cases hevents : w.events with
      | nil => simp [Watch.step, hevents] at hs
      | cons name events =>
          simp only [Watch.step, hevents, Option.ite_none_right_eq_some, Option.some.injEq] at hs
          exact hs.2 ▸ h.notify hevents
  | raise =>
      obtain rfl := Option.some.inj hs
      exact ⟨h.accounts, h.opened, t', hfile, hplain, .inr (.inl rfl)⟩

end Follows

def Watch.Quiet (w : Watch) : Prop :=
  w.events = [] ∧ w.hangup = false ∧ w.daemon.sig.job = none ∧ w.daemon.data.count = 0 ∧
    ∀ i, (w.daemon.worker i).job = none

instance (w : Watch) : Decidable w.Quiet := inferInstanceAs (Decidable (_ ∧ _))

/-- **A quiet daemon is up to date.** The file may be replaced at any time,
also during a reload, and any number of times; signals may be merged; the
other jobs, the other signals and the workers may come in between in any
order. As long as no shutdown is asked for, the calls of the reloads succeed
and the file can be read as a whole, whenever the events are handled, no
`SIGHUP` is pending, the queue is empty and no worker has a job, the
configuration is that of the file as it is now; or the file was never
replaced, and the configuration is the one that was there when the watch
began. -/
theorem quiet_config_eq {path t : Text} {config : Config} (ht : Plain t) {w : Watch}
    (h : Reachable (Watch.step path) Watch.Calm (Watch.init config t) w) (hquiet : w.Quiet) :
    ∃ t', w.daemon.file = some t' ∧
      (w.daemon.config = configOf t' ∨ w.daemon.versions = [t] ∧ w.daemon.config = config) := by
  have hinv : w.Follows path config t :=
    h.invariant (.init path config ht) fun _ _ _ ih hok hs => ih.step hok hs
  obtain ⟨t', hfile, -, hfresh⟩ := hinv.file
  obtain ⟨hevents, hhangups, hsig, hqueue, hworker⟩ := hquiet
  refine ⟨t', hfile, ?_⟩
  rcases hfresh with hevent | hhangup | ⟨work, -, hplace⟩ | hcurrent | huntouched
  · rw [hevents] at hevent
    cases hevent
  · rw [hhangups] at hhangup
    cases hhangup
  · have hjobs : w.daemon.data.jobs = [] := RingBuf.contents_eq_nil.mpr hqueue
    rw [hsig, hjobs] at hplace
    rcases hplace with hplace | hplace | ⟨i, hi⟩
    · cases hplace
    · cases hplace
    · have hnone := hworker i
      cases hpc : w.daemon.worker i <;> rw [hpc] at hi hnone <;> cases hi <;> cases hnone
  · refine .inl (hcurrent.config_eq fun i => ?_)
    have hnone := hworker i
    cases hpc : w.daemon.worker i <;> rw [hpc] at hnone <;> first | rfl | cases hnone
  · exact .inr ⟨huntouched.versions, huntouched.config⟩

def reloadAll (i : Fin maxWorker) : List Label :=
  List.flatten [readOne i, readOne i, readOne i, [.worker i .finish]]

/-- The file is replaced after the first parameter has been read. The event
that tells of it is handled after the reload, and leads to another one. -/
def replacedWithinWatch : List WatchLabel :=
  List.flatten [[.raise], (startReload worker₄ ++ readOne worker₄).map .daemon,
    [.daemon (.install (twoLines "2" "2")), .touch (Bytes.ofString "notes")],
    (readOne worker₄ ++ readOne worker₄ ++ [Label.worker worker₄ .finish]).map .daemon,
    [.notify, .notify], (startReload worker₄ ++ reloadAll worker₄).map .daemon]

theorem quiet_config_eq_replaced :
    ∃ w, Reachable (Watch.step (Bytes.ofString "config/config.txt")) Watch.Calm
        (Watch.init .default (twoLines "1" "1")) w ∧ w.Quiet ∧
      w.daemon.config = ⟨2, 2, Bytes.ofString "INFO"⟩ ∧
      ∃ t, w.daemon.file = some t ∧
        (w.daemon.config = configOf t ∨
          w.daemon.versions = [twoLines "1" "1"] ∧ w.daemon.config = .default) := by
  have hrun : (runs (guarded (Watch.step (Bytes.ofString "config/config.txt")) Watch.Calm)
      (Watch.init .default (twoLines "1" "1")) replacedWithinWatch).map
      (fun w => (w.daemon.config, decide w.Quiet)) =
        some (⟨2, 2, Bytes.ofString "INFO"⟩, true) := by decide +kernel
  obtain ⟨w, hreach, hobs⟩ := Reachable.exists_of_runs hrun
  obtain ⟨hconfig, hquiet⟩ := Prod.mk.inj hobs
  have hquiet : w.Quiet := of_decide_eq_true hquiet
  exact ⟨w, hreach, hquiet, hconfig, quiet_config_eq (by decide +kernel) hreach hquiet⟩

end LinuxMiniProjects.SignalDaemon
