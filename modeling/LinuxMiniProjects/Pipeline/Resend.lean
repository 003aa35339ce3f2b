import LinuxMiniProjects.Pipeline.System

/-!
The retry loop of `send_cmd`, statement by statement.

For one packet `send_cmd` writes, locks the mutex, waits for an
acknowledgement with a deadline, compares its number, unlocks the mutex and
writes again if the number was not the right one. The loop around the wait
is meant to end when the time is up: it tests `wait_ret`, and so does the
branch behind it. But the result of `pthread_cond_timedwait` is not
assigned to `wait_ret`, which stays zero. So only an acknowledgement ends
the wait, and the branch for the timeout, which would lock the mutex a
second time, is never taken.

What is asked of the loop is `Resend`: the number of writes and the outcome
as functions of what `send_cmd` sees. The statements refine the steps of
`send_cmd` in the system of the two processes (`Retry.step_refines`).
-/

namespace LinuxMiniProjects.Pipeline

open Machine

/-! ### The statements -/

/-- The result of `pthread_cond_timedwait`: zero, for a signal or for no
reason, or `ETIMEDOUT`. -/
inductive WaitRes
  | zero
  | timedOut
deriving DecidableEq

/-- What `send_cmd` sees when it has the mutex: an acknowledgement, or that
the wait has ended without one. -/
inductive Seen
  | ack (n : ℤ)
  | spurious
  | timedOut
deriving DecidableEq

def WaitRes.seen : WaitRes → Seen
  | zero => .spurious
  | timedOut => .timedOut

inductive RetryPc
  | looping
  | writing
  | locking
  | checking
  | waiting
  | waking
  | branching
  | relocking
  | comparing
  | unlocking (matched : Bool)
  | done (matched : Bool)
deriving DecidableEq

/-- `send_cmd` with one packet, and what it shares with the thread that
reads the acknowledgements. The last three fields are a history: how the
wait has ended, if it has, the packets that were written and what was
seen. -/
structure Retry where
  pkt : Packet
  controller : Controller
  pc : RetryPc
  tryResend : ℕ
  waitRet : ℤ
  /-- How often `send_cmd` has locked the mutex and not unlocked it. -/
  depth : ℕ
  woken : Option WaitRes
  written : List Packet
  seen : List Seen
deriving DecidableEq

/-- The packet has its number. What there is of an acknowledgement may be
left from before. -/
def Retry.start (pkt : Packet) (ackSend : ℤ) (ackReceived : Bool) : Retry where
  pkt
  controller := { lastSend := pkt.numPkt, ackSend, isRunning := true, ackReceived }
  pc := .looping
  tryResend := 0
  waitRet := 0
  depth := 0
  woken := none
  written := []
  seen := []

def Retry.sees (s : Retry) : List Seen :=
  if s.controller.ackReceived then [.ack s.controller.ackSend]
  else (s.woken.map WaitRes.seen).toList

/-- One statement of `send_cmd`. A thread that locks a mutex which it has
locked stops there. -/
def Retry.run (s : Retry) : Option Retry :=
  match s.pc with
  | .looping => some { s with pc := if s.tryResend < resendNum then .writing else .done false }
  | .writing =>
      some { s with
        tryResend := s.tryResend + 1
        written := s.written ++ [s.pkt]
        pc := .locking }
  | .locking =>
      if s.depth = 0 then some { s with depth := 1, waitRet := 0, woken := none, pc := .checking }
      else none
  | .checking =>
      let c := s.controller
      some { s with
        seen := s.seen ++ s.sees
        pc := if !c.ackReceived && c.isRunning && s.waitRet == 0 then .waiting else .branching }
  | .waiting => none
  | .waking => some { s with pc := .checking }
  | .branching => some { s with pc := if s.waitRet ≠ 0 then .relocking else .comparing }
  | .relocking => if s.depth = 0 then some { s with depth := 1, pc := .looping } else none
  | .comparing =>
      let c := s.controller
      some { s with
        controller := { c with ackReceived := false }
        pc := .unlocking (c.lastSend = c.ackSend) }
  | .unlocking matched =>
      some { s with depth := s.depth - 1, pc := if matched then .done true else .looping }
  | .done _ => none

/-- Nobody has the mutex: `send_cmd` has not locked it, or it waits. -/
def Retry.unlocked (s : Retry) : Bool := s.depth == 0 || s.pc == .waiting || s.pc == .waking

/-- A statement of `send_cmd`, the end of its wait, or what the other thread
does with the mutex. -/
inductive RetryLabel
  | run
  | wake (res : WaitRes)
  | ack (n : ℤ)
  | stop
deriving DecidableEq

def Retry.step (s : Retry) : RetryLabel → Option Retry
  | .run => s.run
  | .wake res => if s.pc = .waiting then some { s with pc := .waking, woken := some res } else none
  | .ack n =>
      if s.unlocked then
        some { s with controller := { s.controller with ackSend := n, ackReceived := true } }
      else none
  | .stop =>
      if s.unlocked then some { s with controller := { s.controller with isRunning := false } }
      else none

inductive Retry.RunStep (s : Retry) : Retry → Prop
  | loop (pc : s.pc = .looping) (left : s.tryResend < resendNum) :
      s.RunStep { s with pc := .writing }
  | giveUp (pc : s.pc = .looping) (left : ¬ s.tryResend < resendNum) :
      s.RunStep { s with pc := .done false }
  | write (pc : s.pc = .writing) :
      s.RunStep { s with
        tryResend := s.tryResend + 1, written := s.written ++ [s.pkt], pc := .locking }
  | lock (pc : s.pc = .locking) :
      s.RunStep { s with depth := 1, waitRet := 0, woken := none, pc := .checking }
  | wait (pc : s.pc = .checking) (ack : s.controller.ackReceived = false)
      (running : s.controller.isRunning = true) :
      s.RunStep { s with seen := s.seen ++ s.sees, pc := .waiting }
  | leave (pc : s.pc = .checking)
      (ack : s.waitRet = 0 → s.controller.isRunning = true → s.controller.ackReceived = true) :
      s.RunStep { s with seen := s.seen ++ s.sees, pc := .branching }
  | wake (pc : s.pc = .waking) : s.RunStep { s with pc := .checking }
  | timeout (pc : s.pc = .branching) (ret : s.waitRet ≠ 0) : s.RunStep { s with pc := .relocking }
  | pass (pc : s.pc = .branching) : s.RunStep { s with pc := .comparing }
  | relock (pc : s.pc = .relocking) : s.RunStep { s with depth := 1, pc := .looping }
  | compare (pc : s.pc = .comparing) :
      s.RunStep { s with
        controller := { s.controller with ackReceived := false }
        pc := .unlocking (s.controller.lastSend = s.controller.ackSend) }
  | unlock {matched} (pc : s.pc = .unlocking matched) :
      s.RunStep { s with depth := s.depth - 1, pc := if matched then .done true else .looping }

theorem Retry.run_inv {s s' : Retry} (h : s.run = some s') : s.RunStep s' := by
  unfold Retry.run at h
  split at h
  next pc =>
    obtain rfl := Option.some.inj h
    split
    next left => exact .loop pc left
    next left => exact .giveUp pc left
  next pc => exact Option.some.inj h ▸ .write pc
  next pc =>
    obtain ⟨-, h⟩ := (Option.ite_none_right_eq_some ..).mp h
    exact Option.some.inj h ▸ .lock pc
  next pc =>
    obtain rfl := Option.some.inj h
    split
    next hwait =>
      simp only [Bool.and_eq_true, Bool.not_eq_true', beq_iff_eq] at hwait
      exact .wait pc hwait.1.1 hwait.1.2
    next hgo =>
      refine .leave pc fun hret hrun => ?_
      simpa [hret, hrun] using hgo
  next => cases h
  next pc => exact Option.some.inj h ▸ .wake pc
  next pc =>
    obtain rfl := Option.some.inj h
    split
    next ret => exact .timeout pc ret
    next => exact .pass pc
  next pc =>
    obtain ⟨-, h⟩ := (Option.ite_none_right_eq_some ..).mp h
    exact Option.some.inj h ▸ .relock pc
  next pc => exact Option.some.inj h ▸ .compare pc
  next pc => exact Option.some.inj h ▸ .unlock pc
  next => cases h

/-! ### What is asked of it -/

inductive Status
  | waiting
  | acked
  | gaveUp
deriving DecidableEq

structure Resend where
  writes : ℕ
  status : Status
deriving DecidableEq

def Resend.again (writes : ℕ) : Resend :=
  if writes < resendNum then ⟨writes + 1, .waiting⟩ else ⟨writes, .gaveUp⟩

def Resend.see (num : ℤ) (t : Resend) (e : Seen) : Resend :=
  match t.status, e with
  | .waiting, .ack n => if n = num then ⟨t.writes, .acked⟩ else .again t.writes
  | .waiting, .timedOut => .again t.writes
  | _, _ => t

def Resend.run (num : ℤ) (seen : List Seen) : Resend := seen.foldl (Resend.see num) ⟨1, .waiting⟩

/-! ### The mutex -/

def RetryPc.depth : RetryPc → ℕ
  | looping | writing | locking | done _ => 0
  | _ => 1

def RetryPc.Writes (n : ℕ) : RetryPc → Prop
  | looping => n ≤ resendNum
  | writing => n < resendNum
  | relocking => False
  | _ => 1 ≤ n ∧ n ≤ resendNum

structure Retry.Sound (pkt : Packet) (s : Retry) : Prop where
  same : s.pkt = pkt
  num : s.controller.lastSend = pkt.numPkt
  waitRet : s.waitRet = 0
  depth : s.depth = s.pc.depth
  written : s.written = List.replicate s.tryResend pkt
  writes : s.pc.Writes s.tryResend

section Steps

variable {pkt : Packet} {s s' : Retry}

theorem RetryPc.Writes.le {n : ℕ} {pc : RetryPc} (h : pc.Writes n) : n ≤ resendNum := by
  cases pc with
  | looping => exact h
  | writing => exact Nat.le_of_lt h
  | relocking => exact h.elim
  | _ => exact h.2

theorem Retry.Sound.start (pkt : Packet) (ackSend : ℤ) (ackReceived : Bool) :
    (Retry.start pkt ackSend ackReceived).Sound pkt :=
  ⟨rfl, rfl, rfl, rfl, rfl, Nat.zero_le _⟩

theorem Retry.Sound.run (h : s.Sound pkt) (hs : s.run = some s') : s'.Sound pkt := by
  have hwrites := h.writes
  have hdepth := h.depth
  cases Retry.run_inv hs with
  | loop pc left =>
      rw [pc] at hdepth
      exact { h with depth := hdepth, writes := left }
  | giveUp pc left =>
      rw [pc] at hdepth hwrites
      refine { h with depth := hdepth, writes := ⟨?_, hwrites⟩ }
      exact le_trans (by decide) (Nat.le_of_not_lt left)
  | write pc =>
      rw [pc] at hdepth hwrites
      refine { h with depth := hdepth, writes := ⟨Nat.succ_pos _, hwrites⟩, written := ?_ }
      rw [h.written, h.same]
      exact List.replicate_succ'.symm
  | lock pc =>
      rw [pc] at hwrites
      exact { h with depth := rfl, writes := hwrites, waitRet := rfl }
  | wait pc | leave pc | wake pc | pass pc =>
      rw [pc] at hdepth hwrites
      exact { h with depth := hdepth, writes := hwrites }
  | timeout pc ret => exact absurd h.waitRet ret
  | relock pc =>
      rw [pc] at hwrites
      exact hwrites.elim
  | compare pc =>
      rw [pc] at hdepth hwrites
      exact { h with num := h.num, depth := hdepth, writes := hwrites }
  | @unlock matched pc =>
      rw [pc] at hdepth hwrites
      have hzero : s.depth - 1 = 0 := by rw [hdepth]; rfl
      cases matched with
      | true => exact { h with depth := hzero, writes := hwrites }
      | false => exact { h with depth := hzero, writes := hwrites.2 }

theorem Retry.Sound.step (h : s.Sound pkt) {l : RetryLabel} (hs : s.step l = some s') :
    s'.Sound pkt := by
  cases l with
  | run => exact h.run hs
  | wake res =>
      obtain ⟨pc, hs⟩ := (Option.ite_none_right_eq_some ..).mp hs
      obtain rfl := Option.some.inj hs
      have hwrites := h.writes
      have hdepth := h.depth
      rw [pc] at hdepth hwrites
      exact { h with depth := hdepth, writes := hwrites }
  | ack n | stop =>
      obtain ⟨-, hs⟩ := (Option.ite_none_right_eq_some ..).mp hs
      exact Option.some.inj hs ▸ { h with num := h.num }

/-- `send_cmd` does not stop at a mutex: it can go on, unless it waits or is
done. -/
theorem Retry.Sound.exists_run (h : s.Sound pkt) (hwait : s.pc ≠ .waiting)
    (hdone : ∀ matched, s.pc ≠ .done matched) : ∃ s', s.step .run = some s' := by
  have hdepth := h.depth
  have hwrites := h.writes
  cases hpc : s.pc with
  | waiting => exact absurd hpc hwait
  | done matched => exact absurd hpc (hdone matched)
  | relocking =>
      rw [hpc] at hwrites
      exact hwrites.elim
  | locking =>
      rw [hpc] at hdepth
      exact ⟨_, by rw [Retry.step, Retry.run, hpc]; exact if_pos hdepth⟩
  | _ => exact ⟨_, by rw [Retry.step, Retry.run, hpc]⟩

end Steps

/-! ### What is seen -/

section Seen

variable {pkt : Packet} {s s' : Retry}

theorem Resend.run_append (num : ℤ) (seen more : List Seen) :
    Resend.run num (seen ++ more) = more.foldl (Resend.see num) (Resend.run num seen) :=
  List.foldl_append

def Resend.answered (writes : ℕ) (matched : Bool) : Resend :=
  if matched then ⟨writes, .acked⟩ else .again writes

theorem Resend.see_ack (num n : ℤ) (writes : ℕ) :
    Resend.see num ⟨writes, .waiting⟩ (.ack n) = .answered writes (num = n) := by
  by_cases hn : num = n
  · simp [Resend.see, Resend.answered, hn]
  · simp [Resend.see, Resend.answered, hn, Ne.symm hn]

/-- Where `send_cmd` is with what it has seen. -/
def Retry.Agrees (s : Retry) (t : Resend) : Prop :=
  match s.pc with
  | .looping => t = .again s.tryResend
  | .writing => t = ⟨s.tryResend + 1, .waiting⟩
  | .locking | .checking | .waiting | .waking => t = ⟨s.tryResend, .waiting⟩
  | .branching | .comparing =>
      t = .answered s.tryResend (s.controller.lastSend = s.controller.ackSend)
  | .relocking => False
  | .unlocking matched => t = .answered s.tryResend matched
  | .done matched => t = ⟨s.tryResend, if matched then .acked else .gaveUp⟩

/-- The events that are looked at: acknowledgements, and waits that end for
no reason. -/
def RetryLabel.inTime : RetryLabel → Bool
  | wake .timedOut | stop => false
  | _ => true

structure Retry.InTime (pkt : Packet) (s : Retry) : Prop where
  sound : s.Sound pkt
  running : s.controller.isRunning = true
  woken : s.woken ≠ some .timedOut
  agrees : s.Agrees (Resend.run pkt.numPkt s.seen)

theorem Retry.InTime.run (h : s.InTime pkt) (hs : s.run = some s') : s'.InTime pkt := by
  have hsound := h.sound.run hs
  have hagrees := h.agrees
  unfold Retry.Agrees at hagrees
  cases Retry.run_inv hs with
  | loop pc left =>
      rw [pc] at hagrees
      exact { h with sound := hsound, agrees := hagrees.trans (if_pos left) }
  | giveUp pc left =>
      rw [pc] at hagrees
      exact { h with sound := hsound, agrees := hagrees.trans (if_neg left) }
  | write pc | wake pc | pass pc | compare pc =>
      rw [pc] at hagrees
      exact { h with sound := hsound, agrees := hagrees }
  | lock pc =>
      rw [pc] at hagrees
      exact { h with sound := hsound, agrees := hagrees, woken := by simp }
  | wait pc ack =>
      rw [pc] at hagrees
      refine { h with sound := hsound, agrees := ?_ }
      show Resend.run pkt.numPkt (s.seen ++ s.sees) = ⟨s.tryResend, .waiting⟩
      rw [Resend.run_append, hagrees, Retry.sees, ack]
      cases hwoken : s.woken with
      | none => rfl
      | some res =>
          cases res with
          | zero => rfl
          | timedOut => exact absurd hwoken h.woken
  | leave pc ack =>
      rw [pc] at hagrees
      refine { h with sound := hsound, agrees := ?_ }
      show Resend.run pkt.numPkt (s.seen ++ s.sees) =
        .answered s.tryResend (s.controller.lastSend = s.controller.ackSend)
      rw [Resend.run_append, hagrees, Retry.sees, ack h.sound.waitRet h.running, h.sound.num]
      exact Resend.see_ack ..
  | timeout pc ret => exact absurd h.sound.waitRet ret
  | relock pc =>
      rw [pc] at hagrees
      exact hagrees.elim
  | @unlock matched pc =>
      rw [pc] at hagrees
      refine { h with sound := hsound, agrees := ?_ }
      cases matched with
      | true => exact hagrees
      | false => exact hagrees

/-- The other thread has the mutex only when `send_cmd` does not look at
what it writes. -/
theorem Retry.InTime.of_unlocked (h : s.InTime pkt) (hs : s.unlocked = true) (n : ℤ) :
    ({ s with controller := { s.controller with ackSend := n, ackReceived := true } } :
      Retry).InTime pkt := by
  have hdepth := h.sound.depth
  have hagrees := h.agrees
  refine { h with sound := { h.sound with num := h.sound.num }, running := h.running, agrees := ?_ }
  unfold Retry.Agrees at hagrees ⊢
  unfold Retry.unlocked at hs
  cases hpc : s.pc with
  | branching | comparing => simp [hdepth, hpc, RetryPc.depth] at hs
  | _ =>
      rw [hpc] at hagrees
      exact hagrees

theorem Retry.InTime.step (h : s.InTime pkt) {l : RetryLabel} (hl : l.inTime = true)
    (hs : s.step l = some s') : s'.InTime pkt := by
  cases l with
  | run => exact h.run hs
  | wake res =>
      have hsound := h.sound.step hs
      obtain ⟨pc, hs⟩ := (Option.ite_none_right_eq_some ..).mp hs
      obtain rfl := Option.some.inj hs
      have hagrees := h.agrees
      unfold Retry.Agrees at hagrees
      rw [pc] at hagrees
      cases res with
      | zero => exact { h with sound := hsound, woken := by simp, agrees := hagrees }
      | timedOut => cases hl
  | ack n =>
      obtain ⟨hfree, hs⟩ := (Option.ite_none_right_eq_some ..).mp hs
      exact Option.some.inj hs ▸ h.of_unlocked hfree n
  | stop => cases hl

theorem Retry.InTime.start (pkt : Packet) (ackSend : ℤ) (ackReceived : Bool) :
    (Retry.start pkt ackSend ackReceived).InTime pkt :=
  ⟨.start pkt ackSend ackReceived, rfl, by simp [Retry.start], rfl⟩

/-- **Retransmission.** As long as no wait times out, `send_cmd` does what is
asked of it, whatever it sees: it waits, writes again or ends as `Resend`
says, with the same packet each time. The mutex is locked once while it
waits and free when it writes and when it is done; it never stops at the
mutex; and the packet is written at least once and at most `RESEND_NUM`
times. -/
theorem retransmission {pkt : Packet} {ackSend : ℤ} {ackReceived : Bool} {s : Retry}
    (hs : Reachable Retry.step (fun _ l => l.inTime = true)
      (Retry.start pkt ackSend ackReceived) s) :
    (s.pc = .waiting →
        Resend.run pkt.numPkt s.seen = ⟨s.written.length, .waiting⟩ ∧ s.depth = 1) ∧
      (s.pc = .writing →
        Resend.run pkt.numPkt s.seen = ⟨s.written.length + 1, .waiting⟩ ∧ s.depth = 0 ∧
          s.pkt = pkt) ∧
      (∀ matched, s.pc = .done matched →
        Resend.run pkt.numPkt s.seen =
            ⟨s.written.length, if matched then .acked else .gaveUp⟩ ∧
          s.depth = 0 ∧ 1 ≤ s.written.length) ∧
      (s.pc ≠ .waiting → (∀ matched, s.pc ≠ .done matched) → ∃ s', s.step .run = some s') ∧
      s.written = List.replicate s.written.length pkt ∧ s.written.length ≤ resendNum := by
  have h : s.InTime pkt := by
    refine hs.invariant (.start pkt ackSend ackReceived) ?_
    intro s l s' h hl hstep
    exact h.step hl hstep
  have hagrees := h.agrees
  have hdepth := h.sound.depth
  have hwrites := h.sound.writes
  have hlen : s.written.length = s.tryResend := by
    rw [h.sound.written, List.length_replicate]
  unfold Retry.Agrees at hagrees
  refine ⟨?_, ?_, ?_, ?_, ?_, ?_⟩
  · intro pc
    rw [pc] at hagrees hdepth
    rw [hlen]
    exact ⟨hagrees, hdepth⟩
  · intro pc
    rw [pc] at hagrees hdepth
    rw [hlen]
    exact ⟨hagrees, hdepth, h.sound.same⟩
  · intro matched pc
    rw [pc] at hagrees hdepth hwrites
    rw [hlen]
    exact ⟨hagrees, hdepth, hwrites.1⟩
  · exact h.sound.exists_run
  · rw [hlen]
    exact h.sound.written
  · rw [hlen]
    exact hwrites.le

def packet7 : Packet := ⟨7, .ping, []⟩

/-- An acknowledgement of an older packet comes, the wait ends for no reason
once, and then the right acknowledgement comes. -/
def staleAck : List RetryLabel :=
  List.flatten
    [List.replicate 4 .run, [.ack 6, .wake .zero], List.replicate 9 .run,
      [.wake .zero, .run, .run, .ack 7, .wake .zero], List.replicate 5 .run]

theorem retransmission_staleAck :
    ∃ s, Reachable Retry.step (fun _ l => l.inTime = true) (Retry.start packet7 0 false) s ∧
      s.seen = [.ack 6, .spurious, .ack 7] ∧ s.written = [packet7, packet7] ∧
      s.pc = .done true ∧ Resend.run 7 s.seen = ⟨2, .acked⟩ := by
  have hrun : (runs (guarded Retry.step fun _ l => l.inTime = true)
      (Retry.start packet7 0 false) staleAck).map (fun s => (s.seen, s.written, s.pc)) =
        some ([.ack 6, .spurious, .ack 7], [packet7, packet7], .done true) := by
    decide +kernel
  obtain ⟨s, hreach, hobs⟩ := Reachable.exists_of_runs hrun
  simp only [Prod.mk.injEq] at hobs
  obtain ⟨hseen, hwritten, hpc⟩ := hobs
  obtain ⟨-, -, hdone, -, -, -⟩ := retransmission hreach
  have hresend := (hdone true hpc).1
  rw [hwritten] at hresend
  exact ⟨s, hreach, hseen, hwritten, hpc, hresend⟩

/-- The wait ends three times because the time is up, and each time it is
begun again. -/
def timeoutThrice : List RetryLabel :=
  List.flatten
    [List.replicate 4 .run, [.wake .timedOut, .run, .run], [.wake .timedOut, .run, .run],
      [.wake .timedOut, .run, .run]]

/-- A timeout does not end an attempt: after three of them the packet should
have been written three times and be given up, but it was written once and
`send_cmd` still waits. -/
theorem timeout_ignored :
    ∃ s, Reachable Retry.step (fun _ _ => True) (Retry.start packet7 0 false) s ∧
      s.seen = [.timedOut, .timedOut, .timedOut] ∧ s.written = [packet7] ∧ s.pc = .waiting ∧
      Resend.run 7 s.seen = ⟨3, .gaveUp⟩ := by
  have hrun : (runs (guarded Retry.step fun _ _ => True)
      (Retry.start packet7 0 false) timeoutThrice).map
      (fun s => (s.seen, s.written, s.pc, Resend.run 7 s.seen)) =
        some ([.timedOut, .timedOut, .timedOut], [packet7], .waiting, ⟨3, .gaveUp⟩) := by
    decide +kernel
  obtain ⟨s, hreach, hobs⟩ := Reachable.exists_of_runs hrun
  simp only [Prod.mk.injEq] at hobs
  exact ⟨s, hreach, hobs⟩

end Seen

/-! ### The steps of the system -/

section System

variable {pkt : Packet} {r r' : Retry} {s : Sys}

def RetryPc.decided : RetryPc → Bool
  | branching | comparing => true
  | _ => false

def Retry.Decided (r : Retry) : Prop :=
  r.pc.decided = true → r.controller.isRunning = true → r.controller.ackReceived = true

theorem Retry.Decided.step (h : r.Decided) (hsound : r.Sound pkt) {l : RetryLabel}
    (hs : r.step l = some r') : r'.Decided := by
  cases l with
  | run =>
      cases Retry.run_inv hs with
      | leave pc ack => exact fun _ => ack hsound.waitRet
      | pass pc => exact fun _ => h (by rw [pc]; rfl)
      | @unlock matched pc =>
          intro hdecided
          cases matched <;> cases hdecided
      | _ =>
          intro hdecided
          cases hdecided
  | wake res =>
      obtain ⟨-, hs⟩ := (Option.ite_none_right_eq_some ..).mp hs
      obtain rfl := Option.some.inj hs
      intro hdecided
      cases hdecided
  | ack n =>
      obtain ⟨-, hs⟩ := (Option.ite_none_right_eq_some ..).mp hs
      exact Option.some.inj hs ▸ fun _ _ => rfl
  | stop =>
      obtain ⟨-, hs⟩ := (Option.ite_none_right_eq_some ..).mp hs
      obtain rfl := Option.some.inj hs
      intro _ hrunning
      cases hrunning

theorem Retry.sound_of_reachable {ackSend : ℤ} {ackReceived : Bool}
    (hr : Reachable Retry.step (fun _ _ => True) (Retry.start pkt ackSend ackReceived) r) :
    r.Sound pkt ∧ r.Decided := by
  refine hr.invariant (I := fun r => r.Sound pkt ∧ r.Decided) ⟨.start .., ?_⟩ ?_
  · intro hdecided
    cases hdecided
  · intro r l r' h _ hs
    exact ⟨h.1.step hs, h.2.step h.1 hs⟩

/-- Where `send_cmd` is in the system, whose steps are the critical
sections. -/
def RetryPc.sendPc (pkt : Packet) (tryResend : ℕ) : RetryPc → SendPc
  | looping | unlocking false => .again pkt tryResend
  | writing => .writing pkt tryResend
  | waiting => .waiting pkt tryResend
  | unlocking true | done _ => .ending
  | _ => .testing pkt tryResend

structure Retry.Matches (r : Retry) (s : Sys) : Prop where
  controller : s.controller = r.controller
  send : s.send = r.pc.sendPc r.pkt r.tryResend

/-- The end of a critical section of `send_cmd`, in the system. -/
theorem Retry.compare_refines (hack : r.controller.isRunning = true →
      r.controller.ackReceived = true) (hc : s.controller = r.controller) :
    ({ r with
      controller := { r.controller with ackReceived := false }
      pc := .unlocking (r.controller.lastSend = r.controller.ackSend) } :
      Retry).Matches (s.test r.pkt r.tryResend) := by
  rw [← hc] at hack ⊢
  obtain ⟨hnone, hrunning, -⟩ | ⟨-, ⟨hne, htest⟩ | ⟨heq, htest⟩⟩ :=
    s.test_cases r.pkt r.tryResend
  · rw [hack hrunning] at hnone
    cases hnone
  · rw [htest, decide_eq_false hne]
    exact ⟨rfl, rfl⟩
  · rw [htest, decide_eq_true heq]
    exact ⟨rfl, rfl⟩

/-- A statement of `send_cmd` is a step of the system, or none. -/
theorem Retry.run_refines (hsound : r.Sound pkt) (hdecided : r.Decided) (hm : r.Matches s)
    (hs : r.run = some r') : r'.Matches s ∨ ∃ l s', s.sendStep l = some s' ∧ r'.Matches s' := by
  obtain ⟨hc, hsend⟩ := hm
  have htest : s.send = .testing r.pkt r.tryResend →
      s.sendStep .test = some (s.test r.pkt r.tryResend) := by
    intro htesting
    simp only [Sys.sendStep, htesting]
  cases Retry.run_inv hs with
  | loop pc left =>
      rw [pc] at hsend
      exact .inl ⟨hc, hsend.trans (if_pos left)⟩
  | giveUp pc left =>
      rw [pc] at hsend
      exact .inl ⟨hc, hsend.trans (if_neg left)⟩
  | write pc =>
      rw [pc] at hsend
      have hstep : s.sendStep (.write true) = some (s.write r.pkt r.tryResend true) := by
        simp only [Sys.sendStep, hsend, RetryPc.sendPc]
      exact .inr ⟨.write true, _, hstep, hc, rfl⟩
  | wait pc ack running =>
      rw [pc] at hsend
      refine .inr ⟨.test, _, htest hsend, ?_⟩
      rw [← hc] at ack running
      have heq : s.test r.pkt r.tryResend = { s with send := .waiting r.pkt r.tryResend } :=
        if_pos (by rw [ack, running]; rfl)
      rw [heq]
      exact ⟨hc, rfl⟩
  | compare pc =>
      have hack := hdecided (by rw [pc]; rfl)
      rw [pc] at hsend
      exact .inr ⟨.test, _, htest hsend, Retry.compare_refines hack hc⟩
  | timeout pc ret => exact absurd hsound.waitRet ret
  | relock pc =>
      have hwrites := hsound.writes
      rw [pc] at hwrites
      exact hwrites.elim
  | @unlock matched pc =>
      rw [pc] at hsend
      cases matched with
      | true => exact .inl ⟨hc, hsend⟩
      | false => exact .inl ⟨hc, hsend⟩
  | lock pc | leave pc | wake pc | pass pc =>
      rw [pc] at hsend
      exact .inl ⟨hc, hsend⟩

def RetryLabel.Ready (s : Sys) : RetryLabel → Prop
  | ack n => ∃ ack, s.ack = .storing ⟨n, ack⟩
  | stop => ∃ last, s.ack = .ending last
  | run | wake _ => True

/-- **Refinement.** Wherever the loop has come to, its next statement, the
end of its wait and what the other thread does are steps of the system, or
nothing happens there. -/
theorem Retry.step_refines {ackSend : ℤ} {ackReceived : Bool}
    (hr : Reachable Retry.step (fun _ _ => True) (Retry.start pkt ackSend ackReceived) r)
    (hm : r.Matches s) {l : RetryLabel} (hl : l.Ready s) (hs : r.step l = some r') :
    r'.Matches s ∨ ∃ l s', s.step l = some s' ∧ r'.Matches s' := by
  obtain ⟨hsound, hdecided⟩ := Retry.sound_of_reachable hr
  cases l with
  | run =>
      obtain hstay | ⟨l, s', hstep, hm'⟩ := Retry.run_refines hsound hdecided hm hs
      · exact .inl hstay
      · exact .inr ⟨.send l, s', hstep, hm'⟩
  | wake res =>
      obtain ⟨pc, hs⟩ := (Option.ite_none_right_eq_some ..).mp hs
      obtain rfl := Option.some.inj hs
      have hsend := hm.send
      rw [pc] at hsend
      have hstep : s.step (.send .wake) =
          some { s with send := .testing r.pkt r.tryResend } := by
        simp only [Sys.step, Sys.sendStep, hsend, RetryPc.sendPc]
      exact .inr ⟨_, _, hstep, hm.controller, rfl⟩
  | ack n =>
      obtain ⟨-, hs⟩ := (Option.ite_none_right_eq_some ..).mp hs
      obtain rfl := Option.some.inj hs
      obtain ⟨ack, hack⟩ := hl
      have hstep : s.step (.ack .store) = some { s with
          controller := { s.controller with ackSend := n, ackReceived := true }
          ack := .reading } := by
        simp only [Sys.step, Sys.ackStep, hack]
      refine .inr ⟨_, _, hstep, ?_, hm.send⟩
      rw [hm.controller]
  | stop =>
      obtain ⟨-, hs⟩ := (Option.ite_none_right_eq_some ..).mp hs
      obtain rfl := Option.some.inj hs
      obtain ⟨last, hack⟩ := hl
      have hstep : s.step (.ack .finish) = some { s with
          controller := { s.controller with isRunning := false }
          ack := if last then .stopped else .reading } := by
        simp only [Sys.step, Sys.ackStep, hack]
      refine .inr ⟨_, _, hstep, ?_, hm.send⟩
      rw [hm.controller]

/-- The system when the acknowledgement of a packet has come. -/
def packet7Acked : Sys :=
  { Sys.init ⟨0, false, false, packet7⟩ with
    controller := { lastSend := 7, ackSend := 7, isRunning := true, ackReceived := true }
    send := .testing packet7 1 }

/-- The loop compares the numbers and ends; this is a step of the system. -/
theorem Retry.step_refines_packet7 :
    ∃ r r', Reachable Retry.step (fun _ _ => True) (Retry.start packet7 0 false) r ∧
      r.pc = .comparing ∧ r.Matches packet7Acked ∧ r.step .run = some r' ∧
      r'.pc = .unlocking true ∧ ∃ l s', packet7Acked.step l = some s' ∧ r'.Matches s' := by
  have hrun : (runs (guarded Retry.step fun _ _ => True) (Retry.start packet7 0 false)
      [.run, .run, .ack 7, .run, .run, .run]).map
      (fun r => (r.pc, r.controller, r.pkt, r.tryResend, (r.step .run).map Retry.pc)) =
        some (.comparing, packet7Acked.controller, packet7, 1, some (.unlocking true)) := by
    decide +kernel
  obtain ⟨r, hreach, hobs⟩ := Reachable.exists_of_runs hrun
  simp only [Prod.mk.injEq] at hobs
  obtain ⟨hpc, hcontroller, hpkt, htry, hstep⟩ := hobs
  obtain ⟨r', hr', hpc'⟩ := Option.map_eq_some_iff.mp hstep
  have hmatches : r.Matches packet7Acked := by
    refine ⟨hcontroller.symm, ?_⟩
    rw [hpc, hpkt, htry]
    rfl
  refine ⟨r, r', hreach, hpc, hmatches, hr', hpc', ?_⟩
  have hready : RetryLabel.run.Ready packet7Acked := trivial
  refine (Retry.step_refines hreach hmatches hready hr').resolve_left fun hstay => ?_
  have hsend := hstay.send
  rw [hpc'] at hsend
  cases hsend

end System

end LinuxMiniProjects.Pipeline
