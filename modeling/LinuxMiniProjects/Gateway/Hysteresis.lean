import Mathlib.Order.Interval.Set.Basic
import LinuxMiniProjects.Lib.Machine
import LinuxMiniProjects.Gateway.Actuators

/-!
The hysteresis of the actuators.

An actuator is switched on at one threshold and off at another one, so
that a reading that wavers around one of them does not switch it back and
forth. A round of `main` decides on a state from the reading and the
recorded state, and `apply_actuator_if_changed` sends a command if the two
states differ; the recorded state changes only if the request succeeds.
When a connection is made the state is unknown, and the first command of a
connection says nothing about the readings.

The first part is about one actuator over the rounds of one connection,
with readings from any linear order. The second part says that this is
what the client does: in every run, the recorded state of each actuator is
the state after the rounds of the connection (`recorded_eq_exec`).
-/

namespace LinuxMiniProjects.Gateway.TlsClient

open Machine

namespace Hysteresis

variable {α : Type*}

/-! ### The decision -/

section Decide

variable [LinearOrder α]

/-- `decide_state`, for readings of any linear order. -/
def decideState (value onThreshold offThreshold : α) (currentState : ℤ) : ℤ :=
  if onThreshold ≤ value then 1
  else if value ≤ offThreshold then 0
  else if currentState = -1 then 0
  else currentState

def decideStateInverted (value onThresholdLow offThresholdHigh : α) (currentState : ℤ) : ℤ :=
  if value ≤ onThresholdLow then 1
  else if offThresholdHigh ≤ value then 0
  else if currentState = -1 then 0
  else currentState

theorem decideStateInverted_eq (value low high : α) (currentState : ℤ) :
    decideStateInverted value low high currentState =
      decideState (OrderDual.toDual value) (OrderDual.toDual low) (OrderDual.toDual high)
        currentState := rfl

end Decide

/-! ### Rounds -/

/-- A round as one actuator sees it: the reading, and whether `do_request`
returns `0` if it is called. -/
structure Round (α : Type*) where
  reading : α
  ok : Bool

/-- A command: the recorded state when it was sent, the state it asks for,
and whether it succeeded. -/
structure Command where
  known : ℤ
  want : ℤ
  ok : Bool
deriving DecidableEq

/-- `apply_actuator_if_changed`: the command, if there is one, and the
recorded state. -/
def applyActuatorIfChanged (wantState currentState : ℤ) (ok : Bool) : Option Command × ℤ :=
  if wantState = currentState then (none, currentState)
  else (some ⟨currentState, wantState, ok⟩, if ok then wantState else currentState)

def round (decide : α → ℤ → ℤ) (currentState : ℤ) (r : Round α) : Option Command × ℤ :=
  applyActuatorIfChanged (decide r.reading currentState) currentState r.ok

def stateAt (decide : α → ℤ → ℤ) (rounds : List (Round α)) (i : ℕ) : ℤ :=
  exec (round decide) (-1) (rounds.take i)

def commandAt (decide : α → ℤ → ℤ) (rounds : List (Round α)) (i : ℕ) : Option Command :=
  rounds[i]?.bind fun r => (round decide (stateAt decide rounds i) r).1

def Command.Switches (c : Command) : Prop := c.known ≠ -1 ∧ c.ok = true

/-- What hysteresis means: a known state changes only at a reading on the
side of the new state, readings in the band cause no command, and between
two commands that switch the readings have been on both sides. -/
structure Holds (onSide offSide band : Set α) (decide : α → ℤ → ℤ) (rounds : List (Round α)) :
    Prop where
  switchOn : ∀ i r, rounds[i]? = some r → stateAt decide rounds i = 0 →
    stateAt decide rounds (i + 1) = 1 → r.reading ∈ onSide
  switchOff : ∀ i r, rounds[i]? = some r → stateAt decide rounds i = 1 →
    stateAt decide rounds (i + 1) = 0 → r.reading ∈ offSide
  quiet : ∀ i r, rounds[i]? = some r → stateAt decide rounds i ≠ -1 → r.reading ∈ band →
    commandAt decide rounds i = none
  crossed : ∀ i j c c' r, i < j → commandAt decide rounds i = some c → c.Switches →
    commandAt decide rounds j = some c' → c'.Switches → rounds[i]? = some r →
    ∃ k r', i < k ∧ k ≤ j ∧ rounds[k]? = some r' ∧
      (r.reading ∈ onSide ∧ r'.reading ∈ offSide ∨ r.reading ∈ offSide ∧ r'.reading ∈ onSide)

structure Decides (onSide offSide band : Set α) (decide : α → ℤ → ℤ) : Prop where
  on : ∀ x, decide x 0 ≠ 0 → x ∈ onSide
  off : ∀ x, decide x 1 ≠ 1 → x ∈ offSide
  band : ∀ x c, x ∈ band → c ≠ -1 → decide x c = c
  range : ∀ x c, c = -1 ∨ c = 0 ∨ c = 1 → decide x c = 0 ∨ decide x c = 1

theorem decides_decideState [LinearOrder α] (on off : α) :
    Decides (Set.Ici on) (Set.Iic off) (Set.Ioo off on) (decideState · on off) where
  on := by
    intro x hx
    by_contra hon
    have hlt : ¬ on ≤ x := hon
    simp [decideState, hlt] at hx
  off := by
    intro x hx
    by_contra hoff
    have hlt : ¬ x ≤ off := hoff
    simp [decideState, hlt] at hx
  band := by
    rintro x c ⟨hoff, hon⟩ hc
    simp only [decideState, not_le.mpr hon, not_le.mpr hoff, hc, if_false]
  range := by
    intro x c hc
    unfold decideState
    split_ifs <;> omega

theorem decides_decideStateInverted [LinearOrder α] (low high : α) :
    Decides (Set.Iic low) (Set.Ici high) (Set.Ioo low high) (decideStateInverted · low high) := by
  have h := decides_decideState (OrderDual.toDual low) (OrderDual.toDual high)
  exact ⟨h.on, h.off, fun x c hx => h.band x c ⟨hx.2, hx.1⟩, h.range⟩

section Rounds

variable {onSide offSide band : Set α} {decide : α → ℤ → ℤ} {rounds : List (Round α)}

theorem round_cases (decide : α → ℤ → ℤ) (c : ℤ) (r : Round α) :
    (round decide c r).2 = c ∨
      (round decide c r).2 = decide r.reading c ∧ decide r.reading c ≠ c := by
  unfold round applyActuatorIfChanged
  split
  · exact .inl rfl
  next hne =>
    cases r.ok with
    | false => exact .inl rfl
    | true => exact .inr ⟨rfl, hne⟩

theorem stateAt_succ {i : ℕ} {r : Round α} (hr : rounds[i]? = some r) :
    stateAt decide rounds (i + 1) = (round decide (stateAt decide rounds i) r).2 := by
  rw [stateAt, List.take_add_one, hr, exec_append]
  rfl

theorem stateAt_succ_of_none {i : ℕ} (hr : rounds[i]? = none) :
    stateAt decide rounds (i + 1) = stateAt decide rounds i := by
  rw [stateAt, stateAt, List.take_add_one, hr]
  simp

theorem Decides.stateAt_mem (h : Decides onSide offSide band decide) (i : ℕ) :
    stateAt decide rounds i = -1 ∨ stateAt decide rounds i = 0 ∨ stateAt decide rounds i = 1 := by
  induction i with
  | zero => exact .inl rfl
  | succ i ih =>
      cases hr : rounds[i]? with
      | none => rwa [stateAt_succ_of_none hr]
      | some r =>
          rw [stateAt_succ hr]
          obtain heq | ⟨heq, -⟩ := round_cases decide (stateAt decide rounds i) r
          · rwa [heq]
          · rw [heq]
            exact .inr (h.range r.reading _ ih)

/-- A known state changes in a round of the connection, and the reading of
that round is on the other side. -/
theorem Decides.of_change (h : Decides onSide offSide band decide) {i : ℕ}
    (hne : stateAt decide rounds (i + 1) ≠ stateAt decide rounds i) :
    ∃ r, rounds[i]? = some r ∧
      (stateAt decide rounds i = 0 → r.reading ∈ onSide) ∧
      (stateAt decide rounds i = 1 → r.reading ∈ offSide) := by
  cases hr : rounds[i]? with
  | none => exact absurd (stateAt_succ_of_none hr) hne
  | some r =>
      rw [stateAt_succ hr] at hne
      obtain heq | ⟨-, hdecide⟩ := round_cases decide (stateAt decide rounds i) r
      · exact absurd heq hne
      · refine ⟨r, rfl, fun h0 => h.on r.reading ?_, fun h1 => h.off r.reading ?_⟩
        · rwa [h0] at hdecide
        · rwa [h1] at hdecide

theorem exists_leave {f : ℕ → ℤ} {a b : ℕ} (hab : a ≤ b) (hb : f b ≠ f a) :
    ∃ k, a ≤ k ∧ k < b ∧ f k = f a ∧ f (k + 1) ≠ f k := by
  by_contra hnone
  push Not at hnone
  refine hb (Nat.le_induction (P := fun n _ => n ≤ b → f n = f a) (fun _ => rfl) ?_ b hab le_rfl)
  intro n hn ih hle
  have hfn := ih (by omega)
  rw [hnone n hn hle hfn, hfn]

/-- A command that switches: the state before it is zero or one, and the
state behind it is another one. -/
theorem Decides.of_switches (h : Decides onSide offSide band decide) {i : ℕ} {c : Command}
    (hc : commandAt decide rounds i = some c) (hs : c.Switches) :
    (stateAt decide rounds i = 0 ∨ stateAt decide rounds i = 1) ∧
      (stateAt decide rounds (i + 1) = 0 ∨ stateAt decide rounds (i + 1) = 1) ∧
      stateAt decide rounds (i + 1) ≠ stateAt decide rounds i := by
  obtain ⟨r, hr, hround⟩ := Option.bind_eq_some_iff.mp hc
  have hmem : stateAt decide rounds i = -1 ∨ stateAt decide rounds i = 0 ∨
      stateAt decide rounds i = 1 := h.stateAt_mem i
  rw [stateAt_succ hr]
  unfold round applyActuatorIfChanged at hround ⊢
  split at hround
  next => cases hround
  next hne =>
    rw [Option.some.injEq] at hround
    subst hround
    obtain ⟨hknown, hok⟩ := hs
    dsimp only at hknown hok
    rw [if_neg hne, hok, if_pos rfl]
    exact ⟨hmem.resolve_left hknown, h.range r.reading _ hmem, hne⟩

theorem Decides.holds (h : Decides onSide offSide band decide) (rounds : List (Round α)) :
    Holds onSide offSide band decide rounds where
  switchOn := by
    intro i r hr h0 h1
    have hne : stateAt decide rounds (i + 1) ≠ stateAt decide rounds i := by rw [h0, h1]; decide
    obtain ⟨r', hr', hon, -⟩ := h.of_change hne
    rw [hr, Option.some.injEq] at hr'
    exact hr' ▸ hon h0
  switchOff := by
    intro i r hr h1 h0
    have hne : stateAt decide rounds (i + 1) ≠ stateAt decide rounds i := by rw [h0, h1]; decide
    obtain ⟨r', hr', -, hoff⟩ := h.of_change hne
    rw [hr, Option.some.injEq] at hr'
    exact hr' ▸ hoff h1
  quiet := by
    intro i r hr hknown hband
    rw [commandAt, hr, Option.bind_some, round, h.band r.reading _ hband hknown,
      applyActuatorIfChanged, if_pos rfl]
  crossed := by
    intro i j c c' r hij hc hs hc' hs' hr
    obtain ⟨hfrom, hto, hne⟩ := h.of_switches hc hs
    obtain ⟨-, -, hne'⟩ := h.of_switches hc' hs'
    -- behind round `j` the state is not what it was before, so it has left
    -- the state behind round `i`, in round `j` or earlier
    obtain ⟨k, hik, hkj, hk, hleave⟩ : ∃ k, i + 1 ≤ k ∧ k ≤ j ∧
        stateAt decide rounds k = stateAt decide rounds (i + 1) ∧
        stateAt decide rounds (k + 1) ≠ stateAt decide rounds k := by
      by_cases heq : stateAt decide rounds j = stateAt decide rounds (i + 1)
      · exact ⟨j, hij, le_rfl, heq, hne'⟩
      · obtain ⟨k, hik, hkj, hk⟩ := exists_leave hij heq
        exact ⟨k, hik, hkj.le, hk⟩
    obtain ⟨r₁, hr₁, hon, hoff⟩ := h.of_change hne
    rw [hr, Option.some.injEq] at hr₁
    subst hr₁
    obtain ⟨r', hr', hon', hoff'⟩ := h.of_change hleave
    refine ⟨k, r', hik, hkj, hr', ?_⟩
    obtain hfrom | hfrom := hfrom
    · refine .inl ⟨hon hfrom, hoff' ?_⟩
      rw [hk]
      exact hto.resolve_left (hfrom ▸ hne)
    · refine .inr ⟨hoff hfrom, hon' ?_⟩
      rw [hk]
      exact hto.resolve_right (hfrom ▸ hne)

end Rounds

/-- **The hysteresis of the actuators.** For readings of any linear order,
any thresholds, any readings and any requests that fail: a known state
changes to one only at a reading from the on-threshold on, to zero only at
a reading up to the off-threshold, a reading between the thresholds causes
no command, and between two successful commands from known states the
readings have been on both sides of the band. The inverted form does the
same in the reversed order. -/
theorem actuators_have_hysteresis [LinearOrder α] (on off low high : α)
    (rounds : List (Round α)) :
    Holds (Set.Ici on) (Set.Iic off) (Set.Ioo off on) (decideState · on off) rounds ∧
      Holds (Set.Iic low) (Set.Ici high) (Set.Ioo low high) (decideStateInverted · low high)
        rounds ∧
      ∀ value currentState, decideStateInverted value low high currentState =
        decideState (OrderDual.toDual value) (OrderDual.toDual low) (OrderDual.toDual high)
          currentState :=
  ⟨(decides_decideState on off).holds rounds, (decides_decideStateInverted low high).holds rounds,
    fun value currentState => decideStateInverted_eq value low high currentState⟩

end Hysteresis

/-! ### The client

The rounds of the actuators are put beside the client as a history, which
begins anew with every connection. -/

def Actuator.reading : Actuator → ClientData → ℚ
  | .ac, d => d.temperature
  | .fan, d => d.humidity
  | .led, d => d.lux

def Actuator.decide : Actuator → ℚ → ℤ → ℤ
  | .ac, value => Hysteresis.decideState value tempOnThresholdC tempOffThresholdC
  | .fan, value => Hysteresis.decideState value humiOnThreshold humiOffThreshold
  | .led, value => Hysteresis.decideStateInverted value luxOnThreshold luxOffThreshold

theorem Actuator.wanted_eq (a : Actuator) (d : ClientData) :
    a.wanted d = a.decide (a.reading d) (a.recorded d) := by
  cases a <;> rfl

/-- The stage that ends with a step, and whether `do_request` has returned
`0` in it. -/
def stageEnd (C : Codec) (s : Sys) : Label → Option (Stage × Bool)
  | .start sendOk =>
      match s.pc with
      | .ready stage =>
          match s.data.request C stage with
          | some (_, some json) =>
              if maxPayload < json.length then some (stage, false)
              else if sendOk = false then some (stage, false)
              else none
          | _ => some (stage, false)
      | _ => none
  | .read =>
      match s.pc with
      | .receiving stage _ buf =>
          match (recvTurn maxPayload buf s.ssl).1 with
          | .again _ => none
          | .failed => some (stage, false)
          | .frame type payload _ => some (stage, (checkResponse C type payload).isSome)
      | _ => none
  | _ => none

abbrev Rounds := Actuator → List (Hysteresis.Round ℚ)

def Rounds.push (rounds : Rounds) (d : ClientData) (stage : Stage) (ok : Bool) : Rounds :=
  fun a => if a.stage = stage then rounds a ++ [⟨a.reading d, ok⟩] else rounds a

def recordRounds (C : Codec) (s : Sys) (l : Label) (rounds : Rounds) : Rounds :=
  match l with
  | .connect => fun _ => []
  | _ =>
      match stageEnd C s l with
      | some (stage, ok) => rounds.push s.data stage ok
      | none => rounds

def Follows (s : Sys) (rounds : Rounds) : Prop :=
  ∀ a, a.recorded s.data = exec (Hysteresis.round a.decide) (-1) (rounds a)

section Steps

variable {C : Codec} {s s' : Sys} {rounds : Rounds} {stage : Stage}

theorem Follows.same (h : Follows s rounds)
    (hrec : ∀ a : Actuator, a.recorded s'.data = a.recorded s.data) : Follows s' rounds :=
  fun a => (hrec a).trans (h a)

theorem Follows.failed (h : Follows s rounds)
    (hrec : ∀ a : Actuator, a.recorded s'.data = a.recorded s.data) :
    Follows s' (rounds.push s.data stage false) := by
  intro a
  rw [hrec a, h a, Rounds.push]
  split
  · rw [exec_append]
    show _ = (Hysteresis.round a.decide _ ⟨a.reading s.data, false⟩).2
    unfold Hysteresis.round Hysteresis.applyActuatorIfChanged
    split <;> rfl
  · rfl

theorem Follows.succeeded (h : Follows s rounds)
    (hrec : ∀ a : Actuator, a.recorded s'.data =
      if a.stage = stage then a.wanted s.data else a.recorded s.data) :
    Follows s' (rounds.push s.data stage true) := by
  intro a
  rw [hrec a, Rounds.push]
  split
  · rw [exec_append, ← h a, a.wanted_eq]
    show _ = (Hysteresis.round a.decide _ ⟨a.reading s.data, true⟩).2
    unfold Hysteresis.round Hysteresis.applyActuatorIfChanged
    split
    next heq => exact heq
    next => rfl
  · exact h a

theorem Follows.begin (h : Follows s rounds) (hpc : s.pc = .ready stage) (sendOk : Bool) :
    Follows (s.begin C stage sendOk) (recordRounds C s (.start sendOk) rounds) := by
  have hrec : ∀ a : Actuator, a.recorded (s.begin C stage sendOk).data = a.recorded s.data :=
    fun a => recorded_begin s a C stage sendOk
  simp only [recordRounds, stageEnd, hpc]
  split
  next stage' ok hend =>
    -- a stage that ends here has not had a response
    have hfalse : ok = false := by
      split at hend
      · split at hend
        · cases hend
          rfl
        · split at hend
          · cases hend
            rfl
          · cases hend
      · cases hend
        rfl
    rw [hfalse]
    exact h.failed hrec
  next => exact h.same hrec

theorem Follows.receive (h : Follows s rounds) {requestId : UInt32} {buf : List UInt8}
    (hpc : s.pc = .receiving stage requestId buf) :
    Follows (s.receive C stage requestId buf) (recordRounds C s .read rounds) := by
  simp only [recordRounds, stageEnd, hpc, Sys.receive]
  cases hturn : recvTurn maxPayload buf s.ssl with
  | mk turn ssl =>
      cases turn with
      | again buf' => exact h.same fun a => rfl
      | failed => exact h.failed fun a => recorded_finish_none _ a stage
      | frame type payload buf' =>
          dsimp only
          cases hresp : checkResponse C type payload with
          | none => exact h.failed fun a => recorded_finish_none _ a stage
          | some resp => exact h.succeeded fun a => recorded_finish_some _ a stage resp

theorem Follows.step (h : Follows s rounds) {l : Label} (hs : s.Step C l s') :
    Follows s' (recordRounds C s l rounds) := by
  cases hs with
  | connect pc => exact fun a => by cases a <;> rfl
  | start pc sendOk => exact h.begin pc sendOk
  | read pc => exact h.receive pc
  | _ => exact h.same fun a => rfl

end Steps

/-- **The client follows the rounds.** In every run the recorded state of
each actuator is the one after the rounds of the connection. -/
theorem recorded_eq_exec (C : Codec) {x : Sys × Rounds}
    (hx : Reachable (observed (step C) (recordRounds C)) (fun _ _ => True)
      (Sys.init, fun _ => []) x) (a : Actuator) :
    a.recorded x.1.data = exec (Hysteresis.round a.decide) (-1) (x.2 a) := by
  have h : Follows x.1 x.2 := by
    refine hx.invariant (I := fun x => Follows x.1 x.2) (fun a => by cases a <;> rfl) ?_
    intro x l x' h _ hs
    obtain ⟨hstep, hrounds⟩ := observed_inv hs
    rw [hrounds]
    exact h.step (step_inv hstep)
  exact h a

/-- In a hot room the air conditioner is switched on in the first round. -/
theorem recorded_eq_exec_hotRoom :
    ∃ x, Reachable (observed (step hotRoom) (recordRounds hotRoom)) (fun _ _ => True)
        (Sys.init, fun _ => []) x ∧
      x.1.data.acState = 1 ∧
      exec (Hysteresis.round (Actuator.decide .ac)) (-1) (x.2 .ac) = 1 := by
  have hrun : (runs (guarded (observed (step hotRoom) (recordRounds hotRoom)) fun _ _ => True)
      (Sys.init, fun _ => []) (switchesOn msgResponse [] ++ [.read])).map
      (fun x => x.1.data.acState) = some 1 := by decide +kernel
  obtain ⟨x, hreach, hstate⟩ := Reachable.exists_of_runs hrun
  exact ⟨x, hreach, hstate, (recorded_eq_exec hotRoom hreach .ac).symm.trans hstate⟩

end LinuxMiniProjects.Gateway.TlsClient
