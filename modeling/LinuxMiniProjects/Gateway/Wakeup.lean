import LinuxMiniProjects.Lib.Machine
import LinuxMiniProjects.Gateway.System

/-!
No response is left behind. The event descriptor is how a worker tells
the main thread about a response, and many notifications are consumed by
a single read. That none gets lost rests on two orders: a worker pushes
before it notifies, and the main thread reads the descriptor before it
pops. `Awake` is what these orders keep true while the response queue is
not empty.
-/

namespace LinuxMiniProjects.Gateway

open Machine

/-- The main thread is going to look at the response queue: the event
descriptor is readable, or a worker that has pushed is going to make it
so, or the main thread is in the loop that empties the queue. -/
def Awake (s : Sys) : Prop :=
  0 < s.eventFd ∨ (∃ w < numWorkers, s.workers w = .pushed) ∨ ∃ es, s.main = .drain es

theorem exists_pushed_setWorker {s : Sys} {w : ℕ} (hw : s.workers w ≠ .pushed) (pc : Worker)
    (h : ∃ v < numWorkers, s.workers v = .pushed) :
    ∃ v < numWorkers, (s.setWorker w pc).workers v = .pushed := by
  obtain ⟨v, hv, hpushed⟩ := h
  have hne : v ≠ w := by
    rintro rfl
    exact hw hpushed
  exact ⟨v, hv, by rw [s.setWorker_of_ne hne, hpushed]⟩

theorem Awake.setWorker {s : Sys} {w : ℕ} (h : Awake s) (hw : s.workers w ≠ .pushed)
    (pc : Worker) : Awake (s.setWorker w pc) :=
  h.imp_right (Or.imp_left (exists_pushed_setWorker hw pc))

theorem awake_pushed {s : Sys} {w : ℕ} (hw : w < numWorkers) :
    Awake (s.setWorker w .pushed) :=
  .inr (.inl ⟨w, hw, s.setWorker_self w .pushed⟩)

theorem awake_step {s s' : Sys} {l : Label} (h : s.responses ≠ [] → Awake s) (hs : Trans s l s')
    (hr : s'.responses ≠ []) : Awake s' := by
  cases hs with
  | main sv' hsv pc hpc =>
      -- outside of the loop the first two reasons are left
      obtain hfd | hw | ⟨es, hes⟩ := h hr
      · exact .inl hfd
      · exact .inr (.inl hw)
      · exact absurd hes (hpc es)
  | pushTask sv' hsv pc hpc t ht =>
      obtain hfd | hw | ⟨es, hes⟩ := h hr
      · exact .inl hfd
      · exact .inr (.inl hw)
      · exact absurd hes (hpc es)
  | readEventFd es => exact .inr (.inr ⟨es, rfl⟩)
  | drained es hnil => exact absurd hnil hr
  | drop es hpc frame rp rest hpop => exact .inr (.inr ⟨es, hpc⟩)
  | deliver es hpc frame rp rest hpop data hdata a => exact .inr (.inr ⟨es, hpc⟩)
  | network slot item => exact h hr
  | loseTask k => exact h hr
  | shutdown => exact h hr
  | popTask w hw hpc k frame t ht =>
      have hidle : s.workers w ≠ .pushed := by simp [hpc]
      exact (h hr).setWorker hidle (.busy frame t)
  | answer w hw frame t hpc r ha =>
      have hbusy : s.workers w ≠ .pushed := by simp [hpc]
      exact (h hr).setWorker hbusy (.ready frame r)
  | giveUp w hw hpc pc hpc' => exact (h hr).setWorker hpc pc
  | pushResponse w hw frame r hpc => exact awake_pushed (s := s) hw
  | notify w hw hpc => exact .inl (Nat.succ_pos s.eventFd)

/-- **No response is left behind.** In every reachable state with a
response in the queue the main thread is going to look at it; in
particular it does not sleep with nothing pending. -/
theorem response_wakes_main {s : Sys} (h : Reachable step (fun _ _ => True) Sys.init s)
    (hr : s.responses ≠ []) :
    Awake s ∧
      (s.main = .wait → 0 < s.eventFd ∨ ∃ w < numWorkers, s.workers w = .pushed) := by
  have hawake : Awake s := by
    refine h.invariant (I := fun s => s.responses ≠ [] → Awake s) ?_ ?_ hr
    · intro hinit
      exact absurd rfl hinit
    · intro s l s' ih _ hstep
      exact awake_step ih (step_trans hstep)
  refine ⟨hawake, fun hwait => ?_⟩
  obtain hfd | hw | ⟨es, hes⟩ := hawake
  · exact .inl hfd
  · exact .inr hw
  · rw [hwait] at hes
    cases hes

/-- A worker has answered a status request and not notified yet. -/
theorem response_wakes_main_status :
    ∃ s, Reachable step (fun _ _ => True) Sys.init s ∧ s.responses.length = 1 ∧ s.eventFd = 0 ∧
      Awake s := by
  have hrun : (runs (guarded step fun _ _ => True) Sys.init
      (connects 7 ++ (recordOf (packet msgStatus 1 [])).map (.arrive 0) ++
        handles 7 epollIn none [] ++ works 0)).map
      (fun s => (s.responses.length, s.eventFd)) = some (1, 0) := by decide +kernel
  obtain ⟨s, hreach, hobs⟩ := Reachable.exists_of_runs hrun
  rw [Prod.mk.injEq] at hobs
  have hne : s.responses ≠ [] := List.ne_nil_of_length_pos (by omega)
  exact ⟨s, hreach, hobs.1, hobs.2, (response_wakes_main hreach hne).1⟩

end LinuxMiniProjects.Gateway
