import LinuxMiniProjects.Supervisor.Loop

/-!
The children, one after the other.

The supervisor starts a child only after it has waited for the one before,
so there are never two of them, and none is left behind as a zombie. It
calls `kill` only between the `fork` and the `waitpid`, while the number in
`pid` cannot belong to another process. A supervisor that is killed leaves
one child behind, which somebody else has to wait for. `restart_time` counts the children
that were waited for. Hence with `--restart n` there are at most `n + 1`
children, and exactly so many if the loop ends by its own count.
-/

namespace LinuxMiniProjects.Supervisor

open Machine

/-- How many children were started, and for how many `waitpid` has
returned. -/
structure Tally where
  started : ℕ
  reaped : ℕ
  deriving DecidableEq, Repr

def Tally.record (_ : Sup) (l : Label) (n : Tally) : Tally :=
  match l with
  | .start true => { n with started := n.started + 1 }
  | .reap _ => { n with reaped := n.reaped + 1 }
  | _ => n

def Pc.hasChild : Pc → Bool
  | selecting _ | reading | closing | reaping | died => true
  | starting | sleeping | finished => false

def Options.children (o : Options) : ℕ := (o.restartVal + 1).toNat

structure Sup.Tallies (o : Options) (s : Sup) (n : Tally) : Prop where
  reaped : s.restartTime = n.reaped
  started : n.started = n.reaped + s.pc.hasChild.toNat
  bound : n.started ≤ o.children

section Steps

variable {o : Options} {s s' : Sup} {l : Label} {n : Tally}

theorem Sup.Tallies.of_eq (h : s.Tallies o n) (htime : s'.restartTime = s.restartTime)
    (hpc : s'.pc.hasChild = s.pc.hasChild) : s'.Tallies o n :=
  ⟨htime.trans h.reaped, hpc ▸ h.started, h.bound⟩

theorem Tally.record_of_finished (n : Tally) (pc : s.pc = .starting)
    (h : s.step o l = some { s with pc := .finished }) : Tally.record s l n = n := by
  cases l with
  | start ok =>
      cases ok with
      | true =>
          simp only [Sup.step, pc, if_true, Option.ite_none_right_eq_some, Option.some.injEq] at h
          cases congrArg Sup.pc h.2
      | false => rfl
  | reap cleared => simp [Sup.step, pc] at h
  | _ => rfl

theorem Sup.Tallies.step (h : s.Tallies o n) (hs : s.step o l = some s') :
    s'.Tallies o (Tally.record s l n) := by
  have hreaped := h.reaped
  have hstarted := h.started
  cases Sup.step_inv hs with
  | start pc continues =>
      rw [pc] at hstarted
      have hle := continues.1
      refine ⟨hreaped, ?_, ?_⟩
      · exact congrArg (· + 1) hstarted
      · show n.started + 1 ≤ (o.restartVal + 1).toNat
        rw [hstarted]
        simp only [Pc.hasChild, Bool.toNat_false]
        omega
  | finish pc =>
      rw [Tally.record_of_finished n pc hs]
      exact h.of_eq rfl (by rw [pc]; rfl)
  | @reap cleared pc ended =>
      rw [pc] at hstarted
      have hchild : (s.reap o cleared).pc.hasChild = false := by
        unfold Sup.reap
        dsimp only
        split <;> rfl
      refine ⟨?_, ?_, h.bound⟩
      · show s.restartTime + 1 = ((n.reaped + 1 : ℕ) : ℤ)
        rw [hreaped, Nat.cast_succ]
      · rw [hchild]
        exact hstarted
  | tick pc | ready pc | expire pc | sigchld pc | sigterm pc | sighup pc | fault pc | read pc
  | readFailed pc | readEof pc | close pc | wake pc => exact h.of_eq rfl (by rw [pc]; rfl)
  | wait pc | outlive pc | write | closeOut | stop | exit => exact h.of_eq rfl rfl

theorem Sup.Tallies.leave (h : s.Tallies o n) (hs : s.step o .leave = some s')
    (hrun : s.isRunning = true) : n.started = o.children := by
  have hpc : s.pc = .starting := by
    cases hpc : s.pc <;> first | rfl | simp [Sup.step, hpc] at hs
  simp only [Sup.step, hpc, Option.ite_none_left_eq_some] at hs
  have hcount : ¬ s.restartTime ≤ o.restartVal := fun hle => hs.1 ⟨hle, hrun⟩
  have hstarted : n.started = n.reaped := by simpa [hpc, Pc.hasChild] using h.started
  have hreaped := h.reaped
  have hbound := h.bound
  unfold Options.children at hbound ⊢
  omega

end Steps

end LinuxMiniProjects.Supervisor
