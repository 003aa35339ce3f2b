import LinuxMiniProjects.SafeConfig.Atomicity

/-!
Concurrent writers.

Several processes run `write_param_config` on the same path. Each takes a
lock on the file before it reads it and keeps the lock until it has put
the new file in its place; so the updates should come one after the other,
each made to the result of the one before, and none should be lost.

But the lock is on the inode that was opened, and the update replaces the
inode. A process that has opened `path` before another one's `rename` gets
its lock after the other one's unlock, on a file that has no name any more;
it reads the old text, and its own `rename` takes the other update back.
`Current` says that this does not happen: a process gets the lock only
while `path` is still the file it has opened. Then the process with the
lock on `path` is the only one that is between its `flock` and its
`rename`.
-/

namespace LinuxMiniProjects.SafeConfig

open FileSystem Machine

/-! ### Where a process is -/

def Pc.Inside : Pc → Prop
  | .opening => False
  | .locking _ => False
  | .cleaning _ _ _ => False
  | .done _ => False
  | _ => True

def Pc.exit? : Pc → Option Exit
  | .cleaning _ _ exit => some exit
  | .done exit => some exit
  | _ => none

def Pc.Committed (pc : Pc) : Prop := pc.exit? = some (.returned 0)

def Pc.Failed (pc : Pc) : Prop := ∃ exit, pc.exit? = some exit ∧ exit ≠ .returned 0

variable {ι : Type*}

/-- A process gets the lock only while `path` is the file it has opened,
and does not go on without it. -/
def Current (fs : Files ι) : Pc → Event → Prop
  | .locking fd, .flock none => fs.name .path = some fd
  | .locking _, .flock (some e) => e = .einval ∨ e = .enolck ∨ e = .ewouldblock
  | _, _ => True

instance (fs : Files ι) (pc : Pc) (e : Event) : Decidable (Current fs pc e) := by
  unfold Current
  split <;> infer_instance

/-- `path` is the inode `n` with the contents `t`. A process inside has the
lock on it and works on this text; and the text has the settings of all
processes that have put theirs in place. -/
structure Ordered (settings : ι → Setting) (s : Sys ι) (n : ℕ) (t : Text) : Prop where
  sane : s.files.Sane
  path : At s.files n t
  inside : ∀ i, (s.pc i).Inside →
    Progress (settings i) s.files n t (s.pc i) ∧ s.files.lock n = some i
  committed : ∀ i, (s.pc i).Committed → (settings i).Holds t
  calls : ∀ i fd calls, s.pc i = .cleaning fd calls (.returned 0) → calls <:+ commitCalls

section Frames

variable {setting : Setting} {fs fs' : Files ι} {pc : Pc} {n : ℕ} {t : Text}

theorem Progress.congr (h : Progress setting fs n t pc) (hname : fs'.name .tmp = fs.name .tmp)
    (hinode : fs'.inode = fs.inode) : Progress setting fs' n t pc := by
  cases pc with
  | writing fd tmp offset ops =>
      obtain ⟨rfl, hdraft⟩ := h
      refine ⟨rfl, ?_, ?_, ?_, ?_⟩
      · rw [hname, hdraft.name]
      · rw [hinode, hdraft.text]
      · rw [hinode]
        exact hdraft.offset_le
      · rw [hinode]
        exact hdraft.length_le
  | syncing fd tmp | replacing fd tmp =>
      unfold Progress at h ⊢
      rwa [hname, hinode]
  | _ => exact h

theorem Progress.not_committed (h : Progress setting fs n t pc) : ¬ pc.Committed := by
  intro hcommitted
  cases pc with
  | cleaning fd calls exit => exact h.2 (Option.some.inj hcommitted)
  | done exit => exact h (Option.some.inj hcommitted)
  | _ => cases hcommitted

end Frames

section Moves

variable [DecidableEq ι] {settings : ι → Setting} {setting : Setting} {p : ι}
  {fs fs' : Files ι} {pc pc' : Pc} {e : Event} {n : ℕ} {t : Text}

theorem Move.failed (hmove : Move setting p fs pc e fs' pc') (h : pc.Failed) : pc'.Failed := by
  obtain ⟨exit, hexit, hne⟩ := h
  cases hmove with
  | stopped restore code => exact ⟨_, rfl, code⟩
  | cleaned | ended =>
      obtain rfl := Option.some.inj hexit
      exact ⟨_, rfl, hne⟩
  | aborted => exact ⟨_, rfl, by simp⟩
  | _ => cases hexit

theorem Move.of_inside (hmove : Move setting p fs pc e fs' pc') (h : pc.Inside) :
    fs'.lock = fs.lock ∧ (pc'.Inside ∨ pc'.Failed ∨ pc'.Committed) := by
  have hwrite : ∀ fd tmp offset ops, (Pc.write fd tmp offset ops).Inside := by
    intro fd tmp offset ops
    cases ops <;> trivial
  cases hmove with
  | stopped restore code => exact ⟨rfl, .inr (.inl ⟨_, rfl, code⟩)⟩
  | sized size | bakClosed | wasRead | readIgnored | synced => exact ⟨rfl, .inl trivial⟩
  | bakOpened => exact ⟨FS.lock_create, .inl trivial⟩
  | copied =>
      refine ⟨rfl, .inl ?_⟩
      unfold copyRange
      dsimp only
      split <;> trivial
  | tmpOpened => exact ⟨FS.lock_create, .inl (hwrite _ _ _ _)⟩
  | wrote | writeIgnored part => exact ⟨rfl, .inl (hwrite _ _ _ _)⟩
  | renamed => exact ⟨rfl, .inr (.inr rfl)⟩
  | renameIgnored other => exact ⟨rfl, .inr (.inr rfl)⟩
  | _ => exact h.elim

theorem run_commitCalls (fs : Files ι) (p : ι) {c : Cleanup} (hc : c ∈ commitCalls) (fd : ℕ) :
    (c.run fs p fd).name .path = fs.name .path ∧ (c.run fs p fd).name .tmp = fs.name .tmp ∧
      (c.run fs p fd).inode = fs.inode ∧
      ∀ m q, q ≠ p → fs.lock m = some q → (c.run fs p fd).lock m = some q := by
  simp only [commitCalls, List.mem_cons, List.not_mem_nil, or_false] at hc
  rcases hc with rfl | rfl | rfl | rfl
  · exact ⟨FS.name_unlink_of_ne (by decide), FS.name_unlink_of_ne (by decide), rfl,
      fun _ _ _ h => h⟩
  · exact ⟨rfl, rfl, rfl, fun _ _ _ h => h⟩
  · exact ⟨rfl, rfl, rfl, fun _ _ hne h => FS.lock_release_of_ne h hne fd⟩
  · exact ⟨rfl, rfl, rfl, fun _ _ hne h => FS.lock_release_of_ne h hne fd⟩

end Moves

/-! ### One writer after the other -/

section Runs

variable {settings : ι → Setting} {s s' : Sys ι} {i : ι} {e : Event} {n : ℕ} {t : Text}

theorem Ordered.unique (h : Ordered settings s n t) {j : ι} (hi : (s.pc i).Inside)
    (hj : (s.pc j).Inside) : j = i :=
  Option.some.inj ((h.inside j hj).2.symm.trans (h.inside i hi).2)

/-- What is left to show for a step of the process `i` that leaves `path`
alone. -/
theorem Ordered.of_step (h : Ordered settings s n t) (hothers : ∀ q, q ≠ i → s'.pc q = s.pc q)
    (hsane : s'.files.Sane) (hpath : At s'.files n t)
    (hframe : ∀ q, q ≠ i → (s.pc q).Inside →
      Progress (settings q) s'.files n t (s.pc q) ∧ s'.files.lock n = some q)
    (hinside : (s'.pc i).Inside →
      Progress (settings i) s'.files n t (s'.pc i) ∧ s'.files.lock n = some i)
    (hcommitted : (s'.pc i).Committed → (settings i).Holds t ∧
      ∀ fd calls, s'.pc i = .cleaning fd calls (.returned 0) → calls <:+ commitCalls) :
    Ordered settings s' n t := by
  refine ⟨hsane, hpath, fun q hq => ?_, fun q hq => ?_, fun q fd calls hq => ?_⟩
  · by_cases hqi : q = i
    · subst hqi
      exact hinside hq
    · rw [hothers q hqi] at hq ⊢
      exact hframe q hqi hq
  · by_cases hqi : q = i
    · subst hqi
      exact (hcommitted hq).1
    · rw [hothers q hqi] at hq
      exact h.committed q hq
  · by_cases hqi : q = i
    · subst hqi
      exact (hcommitted (by rw [hq]; rfl)).2 fd calls hq
    · rw [hothers q hqi] at hq
      exact h.calls q fd calls hq

variable [DecidableEq ι]

/-- A process on its way in. Whoever gets the lock on `path` is alone. -/
theorem Ordered.enter (h : Ordered settings s n t)
    (hmove : Move (settings i) i s.files (s.pc i) e s'.files (s'.pc i))
    (hothers : ∀ q, q ≠ i → s'.pc q = s.pc q) (hcurrent : Current s.files (s.pc i) e)
    (hout : ¬ (s.pc i).Inside) (hexit : (s.pc i).exit? = none) :
    (s'.pc i).Failed ∨ Ordered settings s' n t := by
  have hsane := hmove.sane h.sane
  generalize hpc : s.pc i = pc at hmove hcurrent hout hexit
  generalize hpc' : s'.pc i = pc' at hmove
  generalize hfiles : s'.files = fs' at hmove
  cases hmove with
  | @opened fd name =>
      refine .inr (h.of_step hothers hsane ?_ ?_ ?_ ?_)
      · rw [hfiles]
        exact h.path
      · intro q _ hq
        rw [hfiles]
        exact h.inside q hq
      · rw [hpc']
        exact False.elim
      · rw [hpc']
        intro hcommitted
        cases hcommitted
  | aborted => exact .inl ⟨_, rfl, by simp⟩
  | @locked fd free =>
      obtain rfl : fd = n := Option.some.inj (hcurrent.symm.trans h.path.name)
      refine .inr (h.of_step hothers hsane ?_ ?_ ?_ ?_)
      · rw [hfiles]
        exact ⟨h.path.name, h.path.inode⟩
      · -- another process inside would have the lock
        intro q hqi hq
        have hlock := (h.inside q hq).2
        rcases free with free | free
        · rw [hlock] at free
          cases free
        · rw [hlock, Option.some.injEq] at free
          exact absurd free hqi
      · intro _
        rw [hpc', hfiles]
        exact ⟨rfl, Function.update_self ..⟩
      · rw [hpc']
        intro hcommitted
        cases hcommitted
  | unlocked other => exact absurd hcurrent other
  | stopped restore code => exact .inl ⟨_, rfl, code⟩
  | cleaned => cases hexit
  | ended => cases hexit
  | _ => exact absurd trivial hout

/-- A process inside works on the text of `path`, and in the end puts its
own in place of it. -/
theorem Ordered.work (h : Ordered settings s n t) (hwell : ∀ j, (settings j).WellFormed)
    (hkeys : ∀ j k, j ≠ k → (settings j).key ≠ (settings k).key)
    (hmove : Move (settings i) i s.files (s.pc i) e s'.files (s'.pc i))
    (hothers : ∀ q, q ≠ i → s'.pc q = s.pc q) (hfine : Fine (settings i) s.files (s.pc i) e)
    (hin : (s.pc i).Inside) :
    (s'.pc i).Failed ∨ ∃ n' t', Ordered settings s' n' t' := by
  obtain ⟨hprogress, hlock⟩ := h.inside i hin
  have hsane := hmove.sane h.sane
  have halone : ∀ q, q ≠ i → ¬ (s.pc q).Inside := fun q hqi hq => hqi (h.unique hin hq)
  rcases hmove.progress hfine h.sane h.path hprogress with ⟨hpath, hprogress'⟩ | ⟨m, hpath, hpc'⟩
  · obtain ⟨hlock', hin' | hfailed | hcommitted⟩ := hmove.of_inside hin
    · exact .inr ⟨n, t, h.of_step hothers hsane hpath (fun q hqi hq => absurd hq (halone q hqi))
        (fun _ => ⟨hprogress', by rw [hlock', hlock]⟩)
        fun hc => absurd hc hprogress'.not_committed⟩
    · exact .inl hfailed
    · exact absurd hcommitted hprogress'.not_committed
  · -- `path` is another inode now; nobody else was working on the old one
    refine .inr ⟨m, (settings i).rewrite t, hsane, hpath, fun q hq => ?_, fun q hq => ?_,
      fun q fd calls hq => ?_⟩
    · by_cases hqi : q = i
      · rw [hqi, hpc'] at hq
        exact hq.elim
      · rw [hothers q hqi] at hq
        exact absurd hq (halone q hqi)
    · by_cases hqi : q = i
      · subst hqi
        exact (hwell q).holds_rewrite t
      · -- the keys differ, so the setting of `q` is still there
        rw [hothers q hqi] at hq
        exact (hwell i).holds_rewrite_of_ne (hkeys q i hqi) (hwell q).value_cr (h.committed q hq)
    · by_cases hqi : q = i
      · rw [hqi, hpc'] at hq
        obtain ⟨-, rfl, -⟩ := Pc.cleaning.inj hq
        exact List.suffix_rfl
      · rw [hothers q hqi] at hq
        exact h.calls q fd calls hq

theorem Ordered.leave (h : Ordered settings s n t)
    (hmove : Move (settings i) i s.files (s.pc i) e s'.files (s'.pc i))
    (hothers : ∀ q, q ≠ i → s'.pc q = s.pc q) (hcommitted : (s.pc i).Committed) :
    (s'.pc i).Failed ∨ Ordered settings s' n t := by
  have hsane := hmove.sane h.sane
  have hholds := h.committed i hcommitted
  generalize hpc : s.pc i = pc at hmove hcommitted
  generalize hpc' : s'.pc i = pc' at hmove
  generalize hfiles : s'.files = fs' at hmove
  cases hmove with
  | stopped restore code => exact .inl ⟨_, rfl, code⟩
  | @cleaned fd c calls exit =>
      obtain rfl : exit = .returned 0 := Option.some.inj hcommitted
      have hsuffix := h.calls i fd (c :: calls) hpc
      have hc : c ∈ commitCalls := hsuffix.subset (by simp)
      obtain ⟨hname, htmp, hinode, hlock⟩ := run_commitCalls s.files i hc fd
      refine .inr (h.of_step hothers hsane ?_ ?_ ?_ fun _ => ⟨hholds, ?_⟩)
      · rw [hfiles]
        exact ⟨hname.trans h.path.name, by rw [hinode, h.path.inode]⟩
      · intro q hqi hq
        obtain ⟨hprogress, hq'⟩ := h.inside q hq
        rw [hfiles]
        exact ⟨hprogress.congr htmp hinode, hlock n q hqi hq'⟩
      · rw [hpc']
        exact False.elim
      · rw [hpc']
        intro fd' calls' hcalls
        obtain ⟨-, rfl, -⟩ := Pc.cleaning.inj hcalls
        exact (List.suffix_cons c calls).trans hsuffix
  | @ended fd exit =>
      refine .inr (h.of_step hothers hsane ?_ ?_ ?_ fun _ => ⟨hholds, ?_⟩)
      · rw [hfiles]
        exact ⟨h.path.name, h.path.inode⟩
      · intro q hqi hq
        obtain ⟨hprogress, hq'⟩ := h.inside q hq
        rw [hfiles]
        exact ⟨hprogress.congr rfl rfl, FS.lock_release_of_ne hq' hqi fd⟩
      · rw [hpc']
        exact False.elim
      · rw [hpc']
        intro fd' calls' hcalls
        cases hcalls
  | _ => cases hcommitted

def Serial (settings : ι → Setting) (s : Sys ι) (l : ι × Event) : Prop :=
  Fine (settings l.1) s.files (s.pc l.1) l.2 ∧ Current s.files (s.pc l.1) l.2

instance (settings : ι → Setting) (s : Sys ι) (l : ι × Event) :
    Decidable (Serial settings s l) :=
  inferInstanceAs (Decidable (_ ∧ _))

/-- A process has failed, or the updates were made one after the other. -/
theorem ordered_step (hwell : ∀ j, (settings j).WellFormed)
    (hkeys : ∀ j k, j ≠ k → (settings j).key ≠ (settings k).key) {l : ι × Event}
    (hserial : Serial settings s l) (hstep : s.step settings l = some s')
    (h : (∃ j, (s.pc j).Failed) ∨ ∃ n t, Ordered settings s n t) :
    (∃ j, (s'.pc j).Failed) ∨ ∃ n t, Ordered settings s' n t := by
  obtain ⟨hmove, hothers⟩ := Sys.step_move hstep
  obtain ⟨i, e⟩ := l
  rcases h with ⟨j, hj⟩ | ⟨n, t, h⟩
  · by_cases hji : j = i
    · subst hji
      exact .inl ⟨j, hmove.failed hj⟩
    · refine .inl ⟨j, ?_⟩
      rw [hothers j hji]
      exact hj
  · cases hexit : (s.pc i).exit? with
    | none =>
        by_cases hin : (s.pc i).Inside
        · exact (h.work hwell hkeys hmove hothers hserial.1 hin).imp_left fun hf => ⟨i, hf⟩
        · exact (h.enter hmove hothers hserial.2 hin hexit).imp (fun hf => ⟨i, hf⟩)
            fun h' => ⟨n, t, h'⟩
    | some exit =>
        by_cases hcode : exit = .returned 0
        · subst hcode
          exact (h.leave hmove hothers hexit).imp (fun hf => ⟨i, hf⟩) fun h' => ⟨n, t, h'⟩
        · exact .inl ⟨i, hmove.failed ⟨exit, hexit, hcode⟩⟩

end Runs

/-- **No update is lost.** Any number of processes write different
parameters to the same file, in a run whose calls are fine and in which a
process gets the lock only while `path` is the file it has opened. When all
of them have returned zero, the file has all their settings. -/
theorem no_update_is_lost [DecidableEq ι] {settings : ι → Setting}
    (hwell : ∀ i, (settings i).WellFormed)
    (hkeys : ∀ i j, i ≠ j → (settings i).key ≠ (settings j).key) {content : Text}
    {tmp bak : Option Text} {s : Sys ι}
    (h : Reachable (Sys.step settings) (Serial settings) (Sys.init content tmp bak) s)
    (hdone : ∀ i, s.pc i = .done (.returned 0)) :
    ∃ t, s.content = some t ∧ ∀ i, (settings i).Holds t := by
  have hinit : Ordered settings (Sys.init content tmp bak) 0 content :=
    { sane := sane_init content tmp bak
      path := ⟨rfl, rfl⟩
      inside := fun _ hi => hi.elim
      committed := fun _ hi => by cases hi
      calls := fun _ _ _ hi => by cases hi }
  have hinv : (∃ j, (s.pc j).Failed) ∨ ∃ n t, Ordered settings s n t :=
    h.invariant (I := fun s => (∃ j, (s.pc j).Failed) ∨ ∃ n t, Ordered settings s n t)
      (.inr ⟨0, content, hinit⟩) fun _ _ _ hs hserial hstep =>
        ordered_step hwell hkeys hserial hstep hs
  rcases hinv with ⟨j, exit, hexit, hne⟩ | ⟨n, t, hordered⟩
  · rw [hdone j] at hexit
    exact absurd (Option.some.inj hexit).symm hne
  · refine ⟨t, ?_, fun i => hordered.committed i ?_⟩
    · rw [Sys.content, hordered.path.name, Option.map_some, hordered.path.inode]
    · rw [hdone i]
      rfl

/-! Two processes write to a file with the lines `a=1` and `b=2`: one of
them `a=7`, the other one `b=3`. -/

def setA : Setting := ⟨[97], [55]⟩

def bothSettings : Bool → Setting
  | false => setA
  | true => setB

def runOf (p : Bool) (counts : List ℕ) : List (Bool × Event) :=
  (wholeRun 8 counts).map fun e => (p, e)

/-- The second process starts when the first one has put its file in place,
and ends before it. -/
theorem no_update_is_lost_nested :
    ∃ s : Sys Bool,
      Reachable (Sys.step bothSettings) (Serial bothSettings) (Sys.init twoLines none none) s ∧
      s.content = some [97, 61, 55, 10, 98, 61, 51, 10] ∧
      ∃ t, s.content = some t ∧ ∀ i, (bothSettings i).Holds t := by
  have hrun : (runs (guarded (Sys.step bothSettings) (Serial bothSettings))
      (Sys.init twoLines none none)
        ((runOf false [4, 3, 1]).take 13 ++ runOf true [3, 1, 4] ++
          (runOf false [4, 3, 1]).drop 13)).map
      (fun s => (s.pc false, s.pc true, s.content)) =
        some (.done (.returned 0), .done (.returned 0),
          some [97, 61, 55, 10, 98, 61, 51, 10]) := by decide +kernel
  obtain ⟨s, hreach, hobs⟩ := Reachable.exists_of_runs hrun
  simp only [Prod.mk.injEq] at hobs
  obtain ⟨hfalse, htrue, hcontent⟩ := hobs
  refine ⟨s, hreach, hcontent, no_update_is_lost ?_ ?_ hreach ?_⟩
  · decide
  · decide
  · rintro (_ | _)
    · exact hfalse
    · exact htrue

/-- Both processes open the file before either of them has locked it. The
second one gets its lock when the first one is done, on the old file, and
the setting of the first one is lost. -/
theorem update_lost_openedEarly :
    ∃ s : Sys Bool,
      Reachable (Sys.step bothSettings) (fun _ _ => True) (Sys.init twoLines none none) s ∧
      (∀ i, s.pc i = .done (.returned 0)) ∧ s.content = some [97, 61, 49, 10, 98, 61, 51, 10] ∧
      ¬ (bothSettings false).Holds [97, 61, 49, 10, 98, 61, 51, 10] := by
  have hrun : (runs (guarded (Sys.step bothSettings) fun _ _ => True)
      (Sys.init twoLines none none)
        ((runOf true [3, 1, 4]).take 1 ++ runOf false [4, 3, 1] ++
          (runOf true [3, 1, 4]).drop 1)).map
      (fun s => (s.pc false, s.pc true, s.content)) =
        some (.done (.returned 0), .done (.returned 0),
          some [97, 61, 49, 10, 98, 61, 51, 10]) := by decide +kernel
  obtain ⟨s, hreach, hobs⟩ := Reachable.exists_of_runs hrun
  simp only [Prod.mk.injEq] at hobs
  obtain ⟨hfalse, htrue, hcontent⟩ := hobs
  refine ⟨s, hreach, ?_, hcontent, fun hholds => ?_⟩
  · rintro (_ | _)
    · exact hfalse
    · exact htrue
  · exact absurd hholds.1 (by decide +kernel)

end LinuxMiniProjects.SafeConfig
