import LinuxMiniProjects.Supervisor.Loop

/-!
The time limit.

A child that has not ended when the time limit is over should be killed.
But the limit is only in the argument of `pselect`, and every call of it
waits for all of the limit again. So a child that writes something from
time to time is never killed. One that closes its output, or is stopped,
gets the supervisor out of the loop and into `waitpid`, where there is no
limit at all. And a supervisor that is killed, by a `SIGHUP` or because it
has no pipe to give to `FD_SET`, kills nobody.

`InTime` excludes these cases: until the child has ended or has been
killed, `pselect` returns for the pipe only before any time has passed,
and not for a signal other than those that end the supervision, and
`FD_SET` does no harm. That is so with `-c` if the child is silent, no child
was stopped or has left its signal behind, and nobody sends `SIGHUP`.
-/

namespace LinuxMiniProjects.Supervisor

open Machine

def Child.Over (c : Child) : Prop := c.ended = true ∨ c.killed ≠ none

/-- No time passes beyond the limit before the child has ended, or has been
killed in the way that the options say. -/
def Sup.Timely (o : Options) (s : Sup) : Prop :=
  s.child.ended = true ∨ s.child.waited ≤ o.limit ∨ s.child.killed = some o.target

def InTime (s : Sup) : Label → Prop
  | .ready => s.child.Over ∨ s.pc = .selecting 0 ∧ s.child.pipe ≠ []
  | .sigchld | .sighup | .fault => s.child.Over
  | _ => True

instance (c : Child) : Decidable c.Over := inferInstanceAs (Decidable (_ ∨ _))

instance (s : Sup) (l : Label) : Decidable (InTime s l) := by
  unfold InTime
  split <;> infer_instance

def Pc.Waits (o : Options) (c : Child) : Pc → Prop
  | .selecting elapsed => c.waited = elapsed ∧ elapsed ≤ o.limit
  | .reading => c.waited = 0 ∧ c.pipe ≠ []
  | _ => False

/-- The invariant. All of the waiting was in the last `pselect`, unless the
child is over. -/
structure Sup.Limited (o : Options) (s : Sup) : Prop where
  waits : ¬ s.child.Over → s.pc.Waits o s.child
  target : ∀ t, s.child.killed = some t → t = o.target

theorem Child.over_kill (o : Options) (c : Child) : (c.kill o).Over :=
  .inr (Option.some_ne_none _)

section Steps

variable {o : Options} {s s' : Sup} {l : Label}

theorem Sup.limited_init : Sup.init.Limited o :=
  ⟨fun h => absurd (.inl rfl) h, fun _ h => nomatch h⟩

theorem Sup.target_kill (s : Sup) (t : Target) (h : (s.child.kill o).killed = some t) :
    t = o.target := (Option.some.inj h).symm

theorem Sup.Limited.waits_at (h : s.Limited o) (hover : ¬ s.child.Over) {pc : Pc}
    (hpc : s.pc = pc) : pc.Waits o s.child := hpc ▸ h.waits hover

theorem Sup.Limited.over (h : s.Limited o) {pc : Pc} (hpc : s.pc = pc)
    (hout : ¬ pc.Waits o s.child) : s.child.Over :=
  Decidable.byContradiction fun hover => hout (h.waits_at hover hpc)

theorem Step.limited (hstep : Step o s l s') (hok : InTime s l) (h : s.Limited o) :
    s'.Limited o := by
  cases hstep with
  | start pc continues => exact ⟨fun _ => ⟨rfl, Nat.zero_le _⟩, fun _ h => nomatch h⟩
  | finish pc | close pc | wait pc ended | outlive pc ended | wake pc =>
      exact ⟨absurd (h.over pc id), h.target⟩
  | tick pc le =>
      refine ⟨fun hover => ?_, h.target⟩
      exact ⟨congrArg (· + _) (h.waits_at hover pc).1, le⟩
  | ready pc capture =>
      refine ⟨fun hover => ?_, h.target⟩
      -- the output is there before any time has passed
      obtain ⟨hpc, hpipe⟩ := hok.resolve_left hover
      exact ⟨(h.waits_at hover hpc).1, hpipe⟩
  | expire pc | sigterm pc => exact ⟨absurd (s.child.over_kill o), s.target_kill⟩
  | sigchld pc => exact ⟨absurd hok, h.target⟩
  | sighup pc | fault pc => exact ⟨absurd hok, h.target⟩
  | read pc le | readFailed pc =>
      refine ⟨fun hover => ?_, h.target⟩
      exact ⟨(h.waits_at hover pc).1, Nat.zero_le _⟩
  | readEof pc pipe writers =>
      refine ⟨fun hover => ?_, h.target⟩
      exact absurd pipe (h.waits_at hover pc).2
  | reap pc ended => exact ⟨absurd (.inl ended), h.target⟩
  | write ended writers pc_ne =>
      refine ⟨fun hover => ?_, h.target⟩
      cases hpc : s.pc with
      | selecting elapsed => exact h.waits_at hover hpc
      | reading =>
          obtain ⟨hwaited, hpipe⟩ := h.waits_at hover hpc
          exact ⟨hwaited, by simp [hpipe]⟩
      | _ => exact h.waits_at hover hpc
  | closeOut => exact ⟨h.waits, h.target⟩
  | stop => exact ⟨h.waits, h.target⟩
  | exit ended => exact ⟨absurd (.inl rfl), h.target⟩

theorem Sup.Limited.timely (h : s.Limited o) : s.Timely o := by
  by_cases hover : s.child.Over
  · rcases hover with hended | hkilled
    · exact .inl hended
    · obtain ⟨t, ht⟩ := Option.ne_none_iff_exists'.mp hkilled
      exact .inr (.inr (h.target t ht ▸ ht))
  · cases hpc : s.pc with
    | selecting elapsed =>
        obtain ⟨hwaited, hle⟩ := h.waits_at hover hpc
        exact .inr (.inl (hwaited ▸ hle))
    | reading => exact .inr (.inl ((h.waits_at hover hpc).1 ▸ Nat.zero_le _))
    | _ => exact (h.waits_at hover hpc).elim

end Steps

/-- **The time limit.** In every run in which `pselect` does not return too
early and the supervisor is not killed before the child, with any options
and for every child, no time passes beyond the limit before the child has
ended or `kill` has been called for it, or for its group. -/
theorem killed_in_time {o : Options} {s : Sup}
    (h : Reachable (Sup.step o) InTime Sup.init s) : s.Timely o := by
  refine Sup.Limited.timely (h.invariant (I := fun s => s.Limited o) Sup.limited_init ?_)
  intro s l s' hlimited hok hstep
  exact (Sup.step_inv hstep).limited hok hlimited

def oneSecond : Options := ⟨1, 0, 6, true, true⟩

theorem killed_in_time_silent :
    ∃ s, Reachable (Sup.step oneSecond) InTime Sup.init s ∧
      s.child.ended = false ∧ s.child.waited = 1500000000 ∧ s.child.killed = some .group ∧
      s.Timely oneSecond := by
  have hrun : (runs (guarded (Sup.step oneSecond) InTime) Sup.init
      [.start true, .tick 1000000000, .expire, .tick 500000000]).map Sup.child =
      some ⟨false, true, [], [], [], 1500000000, some .group⟩ := by decide +kernel
  obtain ⟨s, hreach, hchild⟩ := Reachable.exists_of_runs hrun
  refine ⟨s, hreach, ?_, ?_, ?_, killed_in_time hreach⟩
  · rw [hchild]
  · rw [hchild]
  · rw [hchild]

/-- A child that writes a byte every 600 milliseconds has not been killed
after two seconds. -/
theorem not_killed_with_output :
    ∃ s, Reachable (Sup.step oneSecond) (fun _ _ => True) Sup.init s ∧
      s.child.ended = false ∧ s.child.waited = 2000000000 ∧ s.child.killed = none ∧
      ¬ s.Timely oneSecond := by
  have hrun : (runs (guarded (Sup.step oneSecond) fun _ _ => True) Sup.init
      [.start true, .tick 600000000, .write [97], .ready, .read 1 [0], .tick 600000000,
        .write [97], .ready, .read 1 [0], .tick 600000000, .write [97], .ready, .read 1 [0],
        .tick 200000000]).map Sup.child =
      some ⟨false, true, [], [97, 97, 97], [[97], [97], [97]], 2000000000, none⟩ := by
    decide +kernel
  obtain ⟨s, hreach, hchild⟩ := Reachable.exists_of_runs hrun
  refine ⟨s, hreach, ?_, ?_, ?_, ?_⟩
  · rw [hchild]
  · rw [hchild]
  · rw [hchild]
  · unfold Sup.Timely
    rw [hchild]
    decide

end LinuxMiniProjects.Supervisor
