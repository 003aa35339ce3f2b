import LinuxMiniProjects.SignalDaemon.System

/-!
No wake-up is lost.

Every enqueued job comes with a signal, so that a worker which waits while
there are jobs is matched by others that are about to look. The thread for
signals waits only while the queue is full, since every job that is taken
signals it. And the broadcast reaches all the workers that wait: it needs
the mutex of the queue, which a worker keeps from its test of
`shutting_down` until it waits, and after the flag has been set nobody
starts to wait.
-/

namespace LinuxMiniProjects.SignalDaemon

open SafeConfig Machine CondVar

structure Sys.Wakes (s : Sys) : Prop where
  covered : Covered .waiting .dequeuing s.data.count s.worker
  held : ∀ i, s.worker i = .toWait → s.data.count = 0
  full : ∀ work, s.sig = .waiting work → s.data.count = queueCap
  flagged : s.sig = .broadcasting ∨ s.sig = .stopped → s.shuttingDown = true
  woken : s.sig = .stopped → ∀ i, s.worker i ≠ .waiting ∧ s.worker i ≠ .toWait

theorem Sys.Wakes.init (config : Config) (file : Option Text) : (Sys.init config file).Wakes where
  covered := .zero _
  held i hi := by cases hi
  full work hpc := by cases hpc
  flagged hpc := by rcases hpc with hpc | hpc <;> cases hpc
  woken hpc := by cases hpc

theorem SigPc.signalled_ne (pc : SigPc) (work : Job) : pc.signalled ≠ .waiting work := by
  cases pc <;> nofun

theorem SigPc.signalled_eq_stopped {pc : SigPc} (h : pc.signalled = .stopped) : pc = .stopped := by
  cases pc <;> first | rfl | cases h

theorem SigPc.signalled_eq_broadcasting {pc : SigPc} (h : pc.signalled = .broadcasting) :
    pc = .broadcasting := by
  cases pc <;> first | rfl | cases h

section Steps

variable {s s' : Sys} {i : Fin maxWorker}

theorem Sys.Wakes.of_update (h : s.Wakes) {x : WorkerPc} (hdata : s'.data = s.data)
    (hsig : s'.sig = s.sig) (hflag : s'.shuttingDown = s.shuttingDown)
    (hworker : s'.worker = Function.update s.worker i x) (hi : s.worker i ≠ .dequeuing)
    (hwait : x ≠ .waiting) (hto : x ≠ .toWait) : s'.Wakes where
  covered := by
    rw [hdata, hworker]
    exact h.covered.update hi hwait
  held j hj := by
    rw [hworker] at hj
    rw [hdata]
    exact h.held j (eq_of_update_eq hj hto)
  full := by
    rw [hsig, hdata]
    exact h.full
  flagged := by
    rw [hsig, hflag]
    exact h.flagged
  woken := by
    rw [hsig, hworker]
    intro hpc j
    have hj := h.woken hpc j
    exact ⟨fun hw => hj.1 (eq_of_update_eq hw hwait), fun ht => hj.2 (eq_of_update_eq ht hto)⟩

theorem Sys.Wakes.workerStep {l : WorkerLabel} (h : s.Wakes) (hs : s.WorkerStep i l s') :
    s'.Wakes := by
  cases hs with
  | toWait pc free empty run =>
      have hsig : s.sig ≠ .stopped := by
        intro hpc
        rw [h.flagged (.inr hpc)] at run
        cases run
      exact { h with
        covered := empty ▸ .zero _
        held := fun _ _ => empty
        woken := fun hpc => absurd hpc hsig }
  | fail pc free empty ended =>
      refine { h with covered := empty ▸ .zero _, held := fun _ _ => empty, woken := ?_ }
      intro hpc j
      have hj := h.woken hpc j
      exact ⟨fun hw => hj.1 (eq_of_update_eq hw nofun), fun ht => hj.2 (eq_of_update_eq ht nofun)⟩
  | take pc free pos =>
      obtain ⟨n, hn⟩ := Nat.exists_eq_succ_of_ne_zero pos.ne'
      have hcovered := h.covered
      rw [hn] at hcovered
      constructor
      · have hleft : s.data.drop.count = n := by simp [Data.drop, hn]
        show Covered WorkerPc.waiting .dequeuing s.data.drop.count _
        rw [hleft]
        exact hcovered.take pc nofun nofun
      · exact fun j hj => absurd (eq_of_update_eq hj nofun) (free j)
      · exact fun work hpc => absurd hpc (s.sig.signalled_ne work)
      · exact fun hpc => h.flagged
          (hpc.imp SigPc.signalled_eq_broadcasting SigPc.signalled_eq_stopped)
      · intro hpc j
        have hj := h.woken (SigPc.signalled_eq_stopped hpc) j
        exact ⟨fun hw => hj.1 (eq_of_update_eq hw nofun), fun ht => hj.2 (eq_of_update_eq ht nofun)⟩
  | wait pc =>
      -- the queue is still empty, since the worker has kept the mutex
      have hempty := h.held i pc
      exact { h with
        covered := hempty ▸ .zero _
        held := fun _ _ => hempty
        woken := fun hpc => absurd pc (h.woken hpc i).2 }
  | wake pc | leave pc _ | retry pc _ | abandon pc _ | check pc _ | doWork pc _ | printStatus pc _
  | reloadConfig pc _ _ | shutdown pc _ | none pc _ | worked pc | reload pc _ | reloaded pc _ =>
      exact h.of_update rfl rfl rfl rfl (by rw [pc]; nofun) nofun nofun

theorem Sys.Wakes.sigStep {l : SigLabel} (h : s.Wakes) (hs : s.SigStep l s') : s'.Wakes := by
  cases hs with
  | fail pc => exact h
  | take pc | wake pc => exact { h with full := nofun, flagged := nofun, woken := nofun }
  | wait pc free full => exact { h with full := fun _ _ => full, flagged := nofun, woken := nofun }
  | @enqueue work woken worker pc free room signalled =>
      have hsig : ∀ {pc'}, pc' ≠ .flagging → pc' ≠ .idle → (s.enqueue work worker).sig ≠ pc' := by
        intro pc' hflag hidle hpc
        unfold Sys.enqueue at hpc
        dsimp only at hpc
        split at hpc
        · exact hflag hpc.symm
        · exact hidle hpc.symm
      constructor
      · exact h.covered.signal nofun signalled
      · exact fun j hj => absurd (signalled.woken.eq_of_eq hj nofun) (free j)
      · exact fun work' hpc => absurd hpc (hsig nofun nofun)
      · exact fun hpc => hpc.elim (absurd · (hsig nofun nofun)) (absurd · (hsig nofun nofun))
      · exact fun hpc => absurd hpc (hsig nofun nofun)
  | flag pc free => exact { h with full := nofun, flagged := fun _ => rfl, woken := nofun }
  | broadcast pc free =>
      have hwoken := woken_broadcast WorkerPc.waiting .dequeuing s.worker
      have hne : WorkerPc.dequeuing ≠ .waiting := nofun
      constructor
      · exact .broadcast nofun
      · exact fun j hj => absurd (hwoken.eq_of_eq hj nofun) (free j)
      · exact nofun
      · exact fun _ => h.flagged (.inl pc)
      · exact fun _ j => ⟨broadcast_ne hne s.worker j,
          fun hj => absurd (hwoken.eq_of_eq hj nofun) (free j)⟩

theorem Sys.Wakes.step {l : Label} (h : s.Wakes) (hs : s.step l = some s') : s'.Wakes := by
  cases l with
  | worker i l => exact h.workerStep (Sys.workerStep_inv hs)
  | sig l => exact h.sigStep (Sys.sigStep_inv hs)
  | install text => exact Option.some.inj hs ▸ { h with }

end Steps

/-- **No wake-up is lost.** There is no moment in which jobs are in the
queue and all the workers that have not ended wait, or in which the thread
for signals waits and the queue has room, or in which the broadcast has
been made and a worker waits. -/
theorem no_wakeup_lost {config : Config} {file : Option Text} {s : Sys}
    (h : Reachable Sys.step (fun _ _ => True) (Sys.init config file) s) :
    ¬(0 < s.data.count ∧ (∃ i, s.worker i ≠ .stopped) ∧
        ∀ i, s.worker i ≠ .stopped → s.worker i = .waiting) ∧
      ¬((∃ work, s.sig = .waiting work) ∧ s.data.count < queueCap) ∧
      ¬(s.sig = .stopped ∧ ∃ i, s.worker i = .waiting) := by
  have hinv : s.Wakes := h.invariant (.init config file) fun _ _ _ ih _ hs => ih.step hs
  refine ⟨?_, ?_, ?_⟩
  · rintro ⟨hpos, ⟨i, hi⟩, hall⟩
    have hready : ∀ j, s.worker j ≠ .dequeuing := by
      intro j hj
      have := hall j (by rw [hj]; nofun)
      rw [hj] at this
      cases this
    exact hpos.ne' (hinv.covered.eq_zero (hall i hi) hready)
  · rintro ⟨⟨work, hpc⟩, hlt⟩
    exact hlt.ne (hinv.full work hpc)
  · rintro ⟨hpc, i, hi⟩
    exact (hinv.woken hpc i).1 hi

def allWait : List Label :=
  (List.finRange maxWorker).flatMap fun i => [.worker i .dequeue, .worker i .wait]

/-- The workers wait, one of them is woken for the shutdown job and the
others by the broadcast. -/
def wokenAtEnd : List Label :=
  List.flatten [allWait, [.sig (.take (some sigterm)), .sig (.enqueue (some ⟨2, by decide⟩)),
    .sig .flag, .sig .broadcast]]

theorem no_wakeup_lost_shutdown :
    ∃ s, Reachable Sys.step (fun _ _ => True) (Sys.init .default none) s ∧
      s.sig = .stopped ∧ s.data.count = 1 ∧ ¬∃ i, s.worker i = .waiting := by
  have hrun : (runs (guarded Sys.step fun _ _ => True) (Sys.init .default none)
      wokenAtEnd).map (fun s => (s.sig, s.data.count)) =
      some (.stopped, 1) := by decide +kernel
  obtain ⟨s, hreach, hobs⟩ := Reachable.exists_of_runs hrun
  obtain ⟨hsig, hcount⟩ := Prod.mk.inj hobs
  exact ⟨s, hreach, hsig, hcount, fun hex => (no_wakeup_lost hreach).2.2 ⟨hsig, hex⟩⟩

end LinuxMiniProjects.SignalDaemon
