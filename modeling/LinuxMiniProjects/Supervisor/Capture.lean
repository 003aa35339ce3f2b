import LinuxMiniProjects.Supervisor.Loop

/-!
The captured output.

What the child writes should be printed, all of it and nothing else. The
supervisor reads up to 128 bytes into a buffer and prints the buffer with
`%s`, that is, up to the first zero. So a zero in the output hides what
follows it; and `read` stores no zero behind the data, so that what lay in
the memory there is printed too. If `pselect` is interrupted by the end
of the child before the pipe is empty, the loop is left, and what is in
the pipe is never read.

`Clean` excludes these cases: there is no zero in the data, there happens
to be one behind it, and a signal ends the loop only when the child has
ended and everything has been read.
-/

namespace LinuxMiniProjects.Supervisor

open Machine
open Bytes (cString cString_append)

/-- The data is printed as it is, and nothing is left in the pipe when a
signal ends the loop. -/
def Clean (s : Sup) : Label → Prop
  | .read n junk => 0 ∉ s.child.pipe.take n ∧ junk.head? = some 0
  | .sigchld => s.child.ended = true ∧ s.child.pipe = []
  | .sigterm => s.child.ended = true ∧ s.child.pipe = []
  | _ => True

instance (s : Sup) (l : Label) : Decidable (Clean s l) := by
  unfold Clean
  split <;> infer_instance

def Child.Drained (c : Child) : Prop := c.pipe = [] ∧ (c.ended = true ∨ c.writers = false)

/-- The invariant: what was printed and what is in the pipe is what the
child has written. -/
structure Sup.Logged (s : Sup) : Prop where
  written : s.child.written = s.child.printed.flatten ++ s.child.pipe
  drained : s.pc = .closing ∨ s.pc = .reaping → s.child.Drained

section Steps

variable {o : Options} {s s' : Sup} {l : Label}

theorem Sup.logged_init : Sup.init.Logged := ⟨rfl, by simp [Sup.init]⟩

/-- Data without a zero, with a zero behind it, is printed as it is. -/
theorem cString_append_of_head {data junk : List UInt8} (hdata : 0 ∉ data)
    (hjunk : junk.head? = some 0) : cString (data ++ junk) = data := by
  obtain ⟨rest, rfl⟩ : ∃ rest, junk = 0 :: rest := List.head?_eq_some_iff.mp hjunk
  rw [cString_append hdata]
  simp [cString]

theorem Sup.Logged.print (h : s.Logged) {n : ℕ} {junk : List UInt8}
    (hdata : 0 ∉ s.child.pipe.take n) (hjunk : junk.head? = some 0) :
    (s.child.print n junk).written =
      (s.child.print n junk).printed.flatten ++ (s.child.print n junk).pipe := by
  unfold Child.print
  rw [cString_append_of_head hdata hjunk]
  simp [h.written]

theorem Step.logged (hstep : Step o s l s') (hok : Clean s l) (h : s.Logged) : s'.Logged := by
  cases hstep with
  | start pc continues => exact ⟨rfl, by simp⟩
  | sigchld pc | sigterm pc => exact ⟨h.written, fun _ => ⟨hok.2, .inl hok.1⟩⟩
  | read pc le => exact ⟨h.print hok.1 hok.2, by simp⟩
  | readEof pc pipe writers => exact ⟨h.written, fun _ => ⟨pipe, .inr writers⟩⟩
  | close pc => exact ⟨h.written, fun _ => h.drained (.inl pc)⟩
  | wait pc ended | outlive pc ended => exact ⟨h.written, h.drained⟩
  | reap pc ended =>
      refine ⟨h.written, ?_⟩
      simp only [Sup.reap]
      split <;> simp
  | write ended writers pc_ne =>
      refine ⟨by simp [h.written], fun hpc => ?_⟩
      -- a child that is drained does not write
      obtain ⟨-, hended | hwriters⟩ := h.drained hpc
      · rw [ended] at hended
        cases hended
      · rw [writers] at hwriters
        cases hwriters
  | closeOut => exact ⟨h.written, fun hpc => ⟨(h.drained hpc).1, .inr rfl⟩⟩
  | stop => exact ⟨h.written, h.drained⟩
  | exit ended => exact ⟨h.written, fun hpc => ⟨(h.drained hpc).1, .inl rfl⟩⟩
  | _ => exact ⟨h.written, by simp⟩

end Steps

/-- **The log is complete.** In every run with clean steps, with any options
and for every child, the data that was printed is what the child has
written, without anything added, and the pipe is empty when it has been
closed. -/
theorem log_complete {o : Options} {s : Sup} (h : Reachable (Sup.step o) Clean Sup.init s)
    (hclosed : s.pc = .reaping) :
    s.child.printed.flatten = s.child.written ∧ s.child.pipe = [] := by
  have hlogged : s.Logged := by
    refine h.invariant Sup.logged_init ?_
    intro s l s' hlogged hok hstep
    exact (Sup.step_inv hstep).logged hok hlogged
  obtain ⟨hpipe, -⟩ := hlogged.drained (.inr hclosed)
  refine ⟨?_, hpipe⟩
  rw [hlogged.written, hpipe, List.append_nil]

def capture : Options := ⟨0, 0, 3, false, true⟩

/-- Two pieces of output, each with a zero behind it in the memory. -/
theorem log_complete_twoPieces :
    ∃ s, Reachable (Sup.step capture) Clean Sup.init s ∧ s.pc = .reaping ∧
      s.child.written = [104, 105, 33] ∧
      s.child.printed.flatten = s.child.written ∧ s.child.pipe = [] := by
  have hrun : (runs (guarded (Sup.step capture) Clean) Sup.init
      [.start true, .write [104, 105], .ready, .read 2 [0], .write [33], .exit, .closeOut, .ready,
        .read 1 [0], .ready, .readEof, .close]).map (fun s => (s.pc, s.child.written)) =
      some (.reaping, [104, 105, 33]) := by decide +kernel
  obtain ⟨s, hreach, hobs⟩ := Reachable.exists_of_runs hrun
  obtain ⟨hpc, hwritten⟩ := Prod.mk.inj hobs
  exact ⟨s, hreach, hpc, hwritten, log_complete hreach hpc⟩

/-- A child that writes a zero: what follows it is not printed, whatever
lies behind the data. -/
theorem log_cut_at_zero :
    ∃ s, Reachable (Sup.step capture) (fun _ _ => True) Sup.init s ∧ s.pc = .reaping ∧
      s.child.written = [97, 0, 98] ∧ s.child.pipe = [] ∧ s.child.printed = [[97]] ∧
      s.child.printed.flatten ≠ s.child.written := by
  have hrun : (runs (guarded (Sup.step capture) fun _ _ => True) Sup.init
      [.start true, .write [97, 0, 98], .ready, .read 3 [0], .exit, .closeOut, .ready, .readEof,
        .close]).map (fun s => (s.pc, s.child)) =
      some (.reaping, ⟨true, false, [], [97, 0, 98], [[97]], 0, none⟩) := by decide +kernel
  obtain ⟨s, hreach, hobs⟩ := Reachable.exists_of_runs hrun
  obtain ⟨hpc, hchild⟩ := Prod.mk.inj hobs
  refine ⟨s, hreach, hpc, ?_⟩
  rw [hchild]
  exact ⟨rfl, rfl, rfl, by decide⟩

end LinuxMiniProjects.Supervisor
