import LinuxMiniProjects.SignalDaemon.System

/-!
One version of the file.

A reload opens the file three times. If it meets one version of the file
each time, no call fails and the version fits the buffer, it ends with the
configuration of this version; otherwise the parameters may come from
different versions, or be the defaults.

A worker holds the mutex of the state from the first to the last step of
`get_file_config`, so there is one reload at a time, and nobody sees a
configuration that is only partly read.
-/

namespace LinuxMiniProjects.SignalDaemon

open SafeConfig Machine CondVar

def WorkerPc.Steady (file : Option Text) (l : ReloadLabel) : WorkerPc → Prop
  | reloading _ r => r.Steady file l
  | _ => True

instance (file : Option Text) (l : ReloadLabel) : (pc : WorkerPc) → Decidable (pc.Steady file l)
  | .reloading _ r => inferInstanceAs (Decidable (r.Steady file l))
  | .dequeuing | .toWait | .waiting | .failed | .checking _ => instDecidableTrue
  | .executing _ | .sleeping _ | .stopped => instDecidableTrue

/-- **The condition.** Each call of a reload succeeds, and what it opens is
the version that it opened first, with at most 255 bytes and no zero among
them. -/
def Sys.Steady (s : Sys) : Label → Prop
  | .worker i (.reload l) => (s.worker i).Steady s.file l
  | _ => True

instance (s : Sys) : (l : Label) → Decidable (s.Steady l)
  | .worker i (.reload l) => inferInstanceAs (Decidable ((s.worker i).Steady s.file l))
  | .worker _ .dequeue | .worker _ .wait | .worker _ .wake => instDecidableTrue
  | .worker _ .check | .worker _ .execute | .worker _ .finish => instDecidableTrue
  | .sig _ | .install _ => instDecidableTrue

def Sys.FromVersion (s : Sys) (config : Config) : Prop :=
  ∃ t ∈ s.versions, config = configOf t

structure Sys.Coherent (config : Config) (s : Sys) : Prop where
  file : ∀ t, s.file = some t → t ∈ s.versions
  alone : ∀ i j, (s.worker i).isReloading = true → (s.worker j).isReloading = true → i = j
  reload : ∀ i work r, s.worker i = .reloading work r →
    r.Consistent s.config ∧ ∀ t, r.version = some t → t ∈ s.versions
  settled : s.StateFree → s.config = config ∨ s.FromVersion s.config

theorem Sys.Coherent.init (config : Config) (file : Option Text) :
    (Sys.init config file).Coherent config where
  file t ht := by simpa [Sys.init] using ht
  alone i j hi := by cases hi
  reload i work r hpc := by cases hpc
  settled _ := .inl rfl

section Steps

variable {config : Config} {s s' : Sys} {i : Fin maxWorker} {x : WorkerPc}

theorem Sys.Coherent.of_worker (h : s.Coherent config) (hconfig : s'.config = s.config)
    (hfile : s'.file = s.file) (hversions : s'.versions = s.versions)
    (hworker : ∀ j, s'.worker j = s.worker j ∨
      (s.worker j).isReloading = false ∧ (s'.worker j).isReloading = false) :
    s'.Coherent config := by
  have hsame : ∀ j, (s'.worker j).isReloading = (s.worker j).isReloading := by
    intro j
    rcases hworker j with heq | ⟨hj, hj'⟩
    · rw [heq]
    · rw [hj, hj']
  constructor
  · rw [hfile, hversions]
    exact h.file
  · intro j k hj hk
    rw [hsame] at hj hk
    exact h.alone j k hj hk
  · intro j work r hpc
    rcases hworker j with heq | ⟨-, hj'⟩
    · rw [hconfig, hversions]
      exact h.reload j work r (heq ▸ hpc)
    · rw [hpc] at hj'
      cases hj'
  · intro hfree
    have hfree' : s.StateFree := fun j => hsame j ▸ hfree j
    unfold Sys.FromVersion
    rw [hconfig, hversions]
    exact h.settled hfree'

theorem Sys.Coherent.of_update (h : s.Coherent config) (hconfig : s'.config = s.config)
    (hfile : s'.file = s.file) (hversions : s'.versions = s.versions)
    (hworker : s'.worker = Function.update s.worker i x)
    (hi : (s.worker i).isReloading = false) (hx : x.isReloading = false) :
    s'.Coherent config := by
  refine h.of_worker hconfig hfile hversions fun j => ?_
  rw [hworker]
  by_cases hj : j = i
  · subst hj
    rw [Function.update_self]
    exact .inr ⟨hi, hx⟩
  · rw [Function.update_of_ne hj]
    exact .inl rfl

theorem Sys.Coherent.of_woken (h : s.Coherent config) (hconfig : s'.config = s.config)
    (hfile : s'.file = s.file) (hversions : s'.versions = s.versions)
    (hwoken : Woken .waiting .dequeuing s.worker s'.worker) : s'.Coherent config := by
  refine h.of_worker hconfig hfile hversions fun j => ?_
  rcases hwoken j with heq | ⟨hwait, hready⟩
  · exact .inl heq
  · rw [hwait, hready]
    exact .inr ⟨rfl, rfl⟩

theorem Sys.Coherent.of_reloading (h : s.Coherent config) {work : Job} {r : Reload} {c : Config}
    (hother : ∀ j, j ≠ i → (s.worker j).isReloading = false) (hr : r.Consistent c)
    (hversion : ∀ t, r.version = some t → t ∈ s.versions) :
    ({ s with config := c, worker := Function.update s.worker i (.reloading work r) } :
      Sys).Coherent config := by
  have honly : ∀ j, (Function.update s.worker i (.reloading work r) j).isReloading = true →
      j = i := by
    intro j hj
    by_contra hne
    rw [Function.update_of_ne hne, hother j hne] at hj
    cases hj
  constructor
  · exact h.file
  · exact fun j k hj hk => (honly j hj).trans (honly k hk).symm
  · intro j work' r' hpc
    have hj : Function.update s.worker i (.reloading work r) j = .reloading work' r' := hpc
    obtain rfl := honly j (by rw [hj]; rfl)
    rw [Function.update_self] at hj
    obtain ⟨-, rfl⟩ := WorkerPc.reloading.inj hj
    exact ⟨hr, hversion⟩
  · intro hfree
    have hi : (Function.update s.worker i (.reloading work r) i).isReloading = false := hfree i
    rw [Function.update_self] at hi
    cases hi

theorem Sys.Coherent.workerStep {l : WorkerLabel} (h : s.Coherent config)
    (hok : s.Steady (.worker i l)) (hs : s.WorkerStep i l s') : s'.Coherent config := by
  -- a worker that reloads is the only one
  have hother : (s.worker i).isReloading = true →
      ∀ j, j ≠ i → (s.worker j).isReloading = false := by
    intro hi j hj
    by_contra hj'
    exact hj (h.alone j i (by simpa using hj') hi)
  cases hs with
  | toWait pc | fail pc | take pc | wait pc | wake pc | leave pc | retry pc | abandon pc | check pc
  | doWork pc | printStatus pc | shutdown pc | none pc | worked pc =>
      exact h.of_update rfl rfl rfl rfl (by rw [pc]; rfl) rfl
  | @reloadConfig work pc type free =>
      exact h.of_reloading (fun j _ => free j) ⟨rfl, rfl⟩ nofun
  | @reload work r r' config' l pc step =>
      have hsteady : r.Steady s.file l := by
        simpa [Sys.Steady, pc, WorkerPc.Steady] using hok
      obtain ⟨hr, hversion⟩ := h.reload i work r pc
      refine h.of_reloading (hother (by rw [pc]; rfl)) (hr.step hsteady step) fun t ht => ?_
      rcases step.version_eq with heq | ⟨t', hfile, heq⟩
      · exact hversion t (heq ▸ ht)
      · obtain rfl : t' = t := Option.some.inj (heq.symm.trans ht)
        exact h.file t' hfile
  | @reloaded work r pc ended =>
      have hi := hother (by rw [pc]; rfl)
      obtain ⟨hr, hversion⟩ := h.reload i work r pc
      obtain ⟨t, ht, hconfig⟩ := hr.eq_configOf ended
      have hfree : ∀ j, (Function.update s.worker i .dequeuing j).isReloading = false := by
        intro j
        by_cases hj : j = i
        · rw [hj, Function.update_self]
          rfl
        · rw [Function.update_of_ne hj]
          exact hi j hj
      constructor
      · exact h.file
      · intro j k hj
        exact absurd hj (Bool.eq_false_iff.mp (hfree j))
      · intro j work' r' hpc
        have hj : (WorkerPc.reloading work' r').isReloading = false := hpc ▸ hfree j
        cases hj
      · exact fun _ => .inr ⟨t, hversion t ht, hconfig⟩

theorem Sys.Coherent.sigStep {l : SigLabel} (h : s.Coherent config) (hs : s.SigStep l s') :
    s'.Coherent config := by
  cases hs with
  | fail pc => exact h
  | take pc | wait pc | wake pc | flag pc => exact h.of_worker rfl rfl rfl fun _ => .inl rfl
  | enqueue pc free room signalled => exact h.of_woken rfl rfl rfl signalled.woken
  | broadcast pc free => exact h.of_woken rfl rfl rfl (woken_broadcast _ _ s.worker)

theorem Sys.Coherent.install (h : s.Coherent config) (text : Text) :
    ({ s with file := some text, versions := s.versions ++ [text] } : Sys).Coherent config := by
  have hsub : ∀ {t}, t ∈ s.versions → t ∈ s.versions ++ [text] := List.mem_append_left _
  refine { h with
    file := fun t ht => ?_
    reload := fun i work r hpc => ?_
    settled := fun hfree => ?_ }
  · obtain rfl := Option.some.inj ht
    exact List.mem_append_right _ (List.mem_singleton_self _)
  · obtain ⟨hr, hversion⟩ := h.reload i work r hpc
    exact ⟨hr, fun t ht => hsub (hversion t ht)⟩
  · rcases h.settled hfree with hconfig | ⟨t, ht, hconfig⟩
    · exact .inl hconfig
    · exact .inr ⟨t, hsub ht, hconfig⟩

theorem Sys.Coherent.step {l : Label} (h : s.Coherent config) (hok : s.Steady l)
    (hs : s.step l = some s') : s'.Coherent config := by
  cases l with
  | worker i l => exact h.workerStep hok (Sys.workerStep_inv hs)
  | sig l => exact h.sigStep (Sys.sigStep_inv hs)
  | install text => exact Option.some.inj hs ▸ h.install text

end Steps

/-- **A reload takes one version.** If no call of a reload fails, each time
it opens the version that it opened first, and this version is read as a
whole, then at the end of `get_file_config` the configuration is that of
this version, which was there at some time; and whenever there is no
reload, the configuration is the one of the start or that of a version. -/
theorem reload_takes_one_version {config : Config} {file : Option Text} {s : Sys}
    (h : Reachable Sys.step Sys.Steady (Sys.init config file) s) :
    (∀ i work r, s.worker i = .reloading work r → r.todo = [] →
        ∃ t ∈ s.versions, r.version = some t ∧ s.config = configOf t) ∧
      (s.StateFree → s.config = config ∨ ∃ t ∈ s.versions, s.config = configOf t) := by
  have hinv : s.Coherent config := h.invariant (.init config file) fun _ _ _ ih hok hs =>
    ih.step hok hs
  refine ⟨fun i work r hpc hend => ?_, hinv.settled⟩
  obtain ⟨hr, hversion⟩ := hinv.reload i work r hpc
  obtain ⟨t, ht, hconfig⟩ := hr.eq_configOf hend
  exact ⟨t, hversion t ht, ht, hconfig⟩

/-! ### Short runs -/

def twoLines (rate delay : String) : Text :=
  Bytes.ofString ("sample_rate=" ++ rate ++ "\ndelay=" ++ delay ++ "\n")

def startReload (i : Fin maxWorker) : List Label :=
  [.sig (.take (some sighup)), .sig (.enqueue none), .worker i .dequeue, .worker i .check,
    .worker i .execute]

def readOne (i : Fin maxWorker) : List Label :=
  [.worker i (.reload (.openFile true)), .worker i (.reload (.flock true)),
    .worker i (.reload (.read true []))]

def openFails (i : Fin maxWorker) : List Label := [.worker i (.reload (.openFile false))]

def worker₄ : Fin maxWorker := ⟨4, by decide⟩

def replacedAround : List Label :=
  List.flatten [[.install (twoLines "2" "2")], startReload worker₄, readOne worker₄,
    readOne worker₄, readOne worker₄, [.worker worker₄ .finish, .install (twoLines "3" "3")]]

theorem reload_takes_one_version_between :
    ∃ s, Reachable Sys.step Sys.Steady (Sys.init .default (some (twoLines "1" "1"))) s ∧
      s.config = ⟨2, 2, Bytes.ofString "INFO"⟩ ∧
      (s.config = .default ∨ ∃ t ∈ s.versions, s.config = configOf t) := by
  have hrun : (runs (guarded Sys.step Sys.Steady) (Sys.init .default (some (twoLines "1" "1")))
      replacedAround).map
      (fun s => (s.config, decide s.StateFree)) =
        some (⟨2, 2, Bytes.ofString "INFO"⟩, true) := by decide +kernel
  obtain ⟨s, hreach, hobs⟩ := Reachable.exists_of_runs hrun
  obtain ⟨hconfig, hfree⟩ := Prod.mk.inj hobs
  exact ⟨s, hreach, hconfig, (reload_takes_one_version hreach).2 (of_decide_eq_true hfree)⟩

def replacedWithin : List Label :=
  List.flatten [startReload worker₄, readOne worker₄, [.install (twoLines "2" "2")],
    readOne worker₄, readOne worker₄, [.worker worker₄ .finish]]

def neverOpened : List Label :=
  List.flatten [startReload worker₄, openFails worker₄, openFails worker₄, openFails worker₄,
    [.worker worker₄ .finish]]

/-- The file is replaced after the first parameter has been read, and the
configuration is a mixture of the two versions; or the file cannot be
opened, and the configuration is replaced by the defaults. -/
theorem reload_mixes_versions :
    (∃ s, Reachable Sys.step (fun _ _ => True) (Sys.init .default (some (twoLines "1" "1"))) s ∧
      s.StateFree ∧ s.config ≠ .default ∧ ∀ t ∈ s.versions, s.config ≠ configOf t) ∧
    ∃ s, Reachable Sys.step (fun _ _ => True) (Sys.init ⟨7, 7, []⟩ none) s ∧
      s.StateFree ∧ s.versions = [] ∧ s.config ≠ ⟨7, 7, []⟩ := by
  have hmixed : (runs (guarded Sys.step fun _ _ => True)
      (Sys.init .default (some (twoLines "1" "1"))) replacedWithin).map
      (fun s => decide
        (s.StateFree ∧ s.config ≠ .default ∧ ∀ t ∈ s.versions, s.config ≠ configOf t)) =
        some true := by decide +kernel
  have hfailed : (runs (guarded Sys.step fun _ _ => True) (Sys.init ⟨7, 7, []⟩ none)
      neverOpened).map
      (fun s => decide (s.StateFree ∧ s.versions = [] ∧ s.config ≠ ⟨7, 7, []⟩)) =
        some true := by decide +kernel
  obtain ⟨s, hreach, hobs⟩ := Reachable.exists_of_runs hmixed
  obtain ⟨s', hreach', hobs'⟩ := Reachable.exists_of_runs hfailed
  exact ⟨⟨s, hreach, of_decide_eq_true hobs⟩, s', hreach', of_decide_eq_true hobs'⟩

end LinuxMiniProjects.SignalDaemon
