import LinuxMiniProjects.Lib.Machine
import LinuxMiniProjects.Gateway.ClientFrames
import LinuxMiniProjects.Gateway.Matching

/-!
What the client believes about the actuators.

The client keeps the state of every actuator it has switched, and sends a
command only when the readings call for another one. The state is
recorded when `do_request` returns `0`. That is not the same as success:
`do_request` returns `0` for every response it can parse, and the report
of an error is one. After a rejected command the client believes that the
device has been switched, and does not try again.

`heard` is what the gateway has sent since the client has started a stage:
answers, frames nobody has asked for, or anything else. When nothing is
left from before and every frame in it answers the command with `"ok"`, or
is none the client can parse, the recorded state of an actuator changes
only behind a command for it that was confirmed.
-/

namespace LinuxMiniProjects.Gateway.TlsClient

open Bytes Machine

/-! ### Actuators -/

inductive Actuator
  | ac
  | fan
  | led
  deriving DecidableEq

namespace Actuator

def stage : Actuator → Stage
  | .ac => .ac
  | .fan => .fan
  | .led => .led

def deviceId : Actuator → ℤ
  | .ac => deviceIdAc
  | .fan => deviceIdFan
  | .led => deviceIdLed

def value : Actuator → ℤ
  | .ac => acSetpointC
  | .fan => fanSpeedRpm
  | .led => ledBrightnessPercent

def recorded : Actuator → ClientData → ℤ
  | .ac, d => d.acState
  | .fan, d => d.fanState
  | .led, d => d.ledState

def wanted : Actuator → ClientData → ℤ
  | .ac, d => d.wantAc
  | .fan, d => d.wantFan
  | .led, d => d.wantLed

end Actuator

def Stage.commands : Stage → Bool
  | .tempHumi => false
  | .lux => false
  | .ac => true
  | .fan => true
  | .led => true

theorem Actuator.commands_stage (a : Actuator) : a.stage.commands = true := by
  cases a <;> rfl

theorem request_stage (C : Codec) (d : ClientData) (a : Actuator) :
    d.request C a.stage =
      actuatorRequest C a.deviceId (a.wanted d) a.value (a.recorded d) := by
  cases a <;> rfl

/-! ### What is recorded -/

section Recorded

variable (s : Sys) (a : Actuator)

theorem recorded_finish_none (stage : Stage) :
    a.recorded (s.finish stage none).data = a.recorded s.data := by
  cases stage <;> rfl

theorem recorded_finish_reading {stage : Stage} (hstage : stage.commands = false) (resp : Json) :
    a.recorded (s.finish stage (some resp)).data = a.recorded s.data := by
  unfold Sys.finish
  split
  next data hdata =>
    cases stage with
    | tempHumi =>
        simp only [ClientData.finish, ClientData.setTempHumi] at hdata
        split at hdata
        · split at hdata
          · cases hdata
            cases a <;> rfl
          · cases hdata
        · cases hdata
    | lux =>
        simp only [ClientData.finish, ClientData.setLux] at hdata
        split at hdata
        · split at hdata
          · cases hdata
            cases a <;> rfl
          · cases hdata
        · cases hdata
    | ac | fan | led => cases hstage
  next => rfl

theorem recorded_finish_some (stage : Stage) (resp : Json) :
    a.recorded (s.finish stage (some resp)).data =
      if a.stage = stage then a.wanted s.data else a.recorded s.data := by
  cases stage with
  | tempHumi | lux => cases a <;> exact recorded_finish_reading s _ rfl resp
  | ac | fan | led => cases a <;> rfl

theorem recorded_begin (C : Codec) (stage : Stage) (sendOk : Bool) :
    a.recorded (s.begin C stage sendOk).data = a.recorded s.data := by
  unfold Sys.begin
  split
  · rfl
  · exact recorded_finish_none s a stage
  · dsimp only
    split
    · rw [recorded_finish_none]
      cases a <;> rfl
    · split
      · rw [recorded_finish_none]
        cases a <;> rfl
      · cases a <;> rfl

end Recorded

/-! ### What the gateway sends -/

/-- What the gateway has sent since the last stage was started. -/
def hear (_ : Sys) : Label → List UInt8 → List UInt8
  | .connect, _ => []
  | .start _, _ => []
  | .reply type requestId payload, heard => heard ++ packet type requestId payload
  | .stray bytes, heard => heard ++ bytes
  | _, heard => heard

def SaysOk (C : Codec) (type : UInt16) (payload : List UInt8) : Prop :=
  ∀ resp ∈ checkResponse C type payload, resp.status = some "ok"

instance (C : Codec) (type : UInt16) (payload : List UInt8) : Decidable (SaysOk C type payload) :=
  inferInstanceAs (Decidable (∀ resp ∈ checkResponse C type payload, resp.status = some "ok"))

/-- If `buf` is a frame for the client, it answers the request, and it says
`"ok"` or is nothing the client can make sense of. -/
def AnswersOk (C : Codec) (requestId : UInt32) (buf : List UInt8) : Prop :=
  match recvCheck maxPayload buf with
  | .frame type payload _ => (headerOf buf).requestId = requestId ∧ SaysOk C type payload
  | _ => True

instance (C : Codec) (requestId : UInt32) (buf : List UInt8) :
    Decidable (AnswersOk C requestId buf) := by
  unfold AnswersOk
  split <;> infer_instance

/-- Whatever frame the client takes from these bytes. -/
def Honest (C : Codec) (requestId : UInt32) (bytes : List UInt8) : Prop :=
  ∀ buf ∈ bytes.inits, AnswersOk C requestId buf

instance (C : Codec) (requestId : UInt32) (bytes : List UInt8) :
    Decidable (Honest C requestId bytes) :=
  inferInstanceAs (Decidable (∀ buf ∈ bytes.inits, AnswersOk C requestId buf))

theorem Honest.frame {C : Codec} {requestId : UInt32} {bytes buf payload : List UInt8}
    {type : UInt16} (h : Honest C requestId bytes) (hbuf : buf <+: bytes)
    (hframe : recvCheck maxPayload buf = .frame type payload buf) :
    (headerOf buf).requestId = requestId ∧ SaysOk C type payload := by
  have hok := h buf ((List.mem_inits buf bytes).mpr hbuf)
  rwa [AnswersOk, hframe] at hok

theorem honest_nil (C : Codec) (requestId : UInt32) : Honest C requestId [] := by
  intro buf hbuf
  rw [List.inits, List.mem_singleton] at hbuf
  rw [hbuf]
  trivial

/-- While the client waits for the answer to a command, what the gateway
sends leaves what has come honest. -/
def HearsHonest (C : Codec) (s : Sys) (bytes : List UInt8) : Prop :=
  match s.pc with
  | .receiving stage requestId buf =>
      stage.commands = true → Honest C requestId (s.incoming buf ++ bytes)
  | _ => True

instance (C : Codec) (s : Sys) (bytes : List UInt8) : Decidable (HearsHonest C s bytes) := by
  unfold HearsHonest
  split <;> infer_instance

def Sys.sendsCommand (C : Codec) (s : Sys) : Bool :=
  match s.pc with
  | .ready stage => stage.commands && (s.data.request C stage).isSome
  | _ => false

/-- When a command is sent nothing is unread or on its way, and the gateway
rejects no command: a frame that comes while the client waits for the
answer to one is that answer, and it says `"ok"` if the client can parse
it. -/
def NotRejected (C : Codec) (s : Sys) : Label → Prop
  | .start _ => s.sendsCommand C = true → s.wire = [] ∧ s.ssl.unread = []
  | .reply type requestId payload => HearsHonest C s (packet type requestId payload)
  | .stray bytes => HearsHonest C s bytes
  | _ => True

instance (C : Codec) (s : Sys) : (l : Label) → Decidable (NotRejected C s l)
  | .start _ => inferInstanceAs (Decidable (_ → _ ∧ _))
  | .reply _ _ _ | .stray _ => inferInstanceAs (Decidable (HearsHonest C s _))
  | .connect | .read | .forget _ | .arrive _ | .socket _ => instDecidableTrue

/-- The client waits in a stage: the last packet it has sent is the request,
and what has come is what the gateway has sent since. -/
structure Awaits (C : Codec) (s : Sys) (heard : List UInt8) (stage : Stage) (requestId : UInt32)
    (buf : List UInt8) : Prop where
  sent : ∃ type text, s.data.request C stage = some (type, some text) ∧
    s.sent.getLast? = some (packet type requestId text)
  bytes : s.incoming buf = heard
  honest : Honest C requestId heard

theorem recvCheck_of_recvTurn {cap : ℕ} {buf buf' payload : List UInt8} {ssl ssl' : Ssl}
    {type : UInt16} (h : recvTurn cap buf ssl = (.frame type payload buf', ssl')) :
    recvCheck cap buf' = .frame type payload buf' := by
  unfold recvTurn at h
  split at h
  · cases h
  · cases h
  next b bs ssl'' _ =>
    have hcheck : recvCheck cap (buf ++ b :: bs) = .frame type payload buf' :=
      congrArg Prod.fst h
    obtain hr | hr | ⟨-, type', payload', hr⟩ := recvCheck_spec cap (buf ++ b :: bs)
    · rw [hr] at hcheck
      cases hcheck
    · rw [hr] at hcheck
      cases hcheck
    · have hbuf := hr.symm.trans hcheck
      injection hbuf with htype hpayload hbuf
      rw [← hbuf, hr, htype, hpayload]

/-! ### Runs -/

def Tracked (C : Codec) (s : Sys) (heard : List UInt8) : Prop :=
  ∀ stage requestId buf, s.pc = .receiving stage requestId buf → stage.commands = true →
    Awaits C s heard stage requestId buf

theorem Tracked.of_not_receiving {C : Codec} {s : Sys} {heard : List UInt8}
    (h : ∀ stage requestId buf, s.pc ≠ .receiving stage requestId buf) : Tracked C s heard :=
  fun stage requestId buf hpc => absurd hpc (h stage requestId buf)

theorem tracked_finish (C : Codec) (s : Sys) (stage : Stage) (rc : Option Json)
    (heard : List UInt8) : Tracked C (s.finish stage rc) heard := by
  unfold Sys.finish
  split
  · exact .of_not_receiving (by simp)
  · exact .of_not_receiving (by simp)

section Steps

variable {C : Codec} {s : Sys} {heard : List UInt8}

theorem request_nextRequestId (C : Codec) (d : ClientData) (n : UInt32) (stage : Stage) :
    ClientData.request C { d with nextRequestId := n } stage = d.request C stage := by
  cases stage <;> rfl

theorem Tracked.begin {stage : Stage} (hpc : s.pc = .ready stage) (sendOk : Bool)
    (hok : s.sendsCommand C = true → s.wire = [] ∧ s.ssl.unread = []) :
    Tracked C (s.begin C stage sendOk) [] := by
  unfold Sys.begin
  split
  next => exact .of_not_receiving (by simp)
  next => exact tracked_finish C s stage none []
  next type text hrequest =>
    dsimp only
    split
    · exact tracked_finish C _ stage none []
    split
    · exact tracked_finish C _ stage none []
    · intro stage' requestId buf hreceiving hcommands
      cases hreceiving
      obtain ⟨hwire, hunread⟩ := hok (by simp [Sys.sendsCommand, hpc, hcommands, hrequest])
      refine ⟨⟨type, text, ?_, ?_⟩, ?_, honest_nil C _⟩
      · exact (request_nextRequestId C s.data _ stage).trans hrequest
      · exact List.getLast?_concat
      · simp [Sys.incoming, hunread, hwire]

theorem Tracked.receive (h : Tracked C s heard) {stage : Stage} {requestId : UInt32}
    {buf : List UInt8} (hpc : s.pc = .receiving stage requestId buf) :
    Tracked C (s.receive C stage requestId buf) heard := by
  have hspec := recvTurn_spec maxPayload buf s.ssl
  unfold Sys.receive
  generalize recvTurn maxPayload buf s.ssl = turn at hspec
  cases hspec with
  | again buf' ssl' bytes =>
      intro stage' requestId' buf'' hreceiving hcommands
      cases hreceiving
      have hawaits := h stage requestId buf hpc hcommands
      refine ⟨hawaits.sent, ?_, hawaits.honest⟩
      rw [← hawaits.bytes, Sys.incoming, bytes, Sys.incoming]
  | failed ssl' => exact tracked_finish C _ stage none heard
  | frame type payload buf' ssl' length bytes =>
      dsimp only
      split
      · exact tracked_finish C _ stage none heard
      · exact tracked_finish C _ stage _ heard

theorem Tracked.hears (h : Tracked C s heard) {bytes : List UInt8} (hok : HearsHonest C s bytes)
    (owed : List UInt32) :
    Tracked C { s with owed := owed, wire := s.wire ++ bytes } (heard ++ bytes) := by
  intro stage requestId buf hpc hcommands
  have hawaits := h stage requestId buf hpc hcommands
  rw [HearsHonest, show s.pc = _ from hpc] at hok
  refine ⟨hawaits.sent, ?_, hawaits.bytes ▸ hok hcommands⟩
  rw [← hawaits.bytes, Sys.incoming, Sys.incoming, List.append_assoc _ s.wire]

theorem Tracked.step {s' : Sys} {l : Label} (h : Tracked C s heard) (hok : NotRejected C s l)
    (hs : s.Step C l s') : Tracked C s' (hear s l heard) := by
  cases hs with
  | connect pc => exact .of_not_receiving (by simp)
  | start pc sendOk => exact Tracked.begin pc sendOk hok
  | read pc => exact h.receive pc
  | reply type owed length => exact h.hears hok _
  | stray bytes => exact h.hears hok s.owed
  | forget requestId =>
      intro stage expected buf hpc hcommands
      have hawaits := h stage expected buf hpc hcommands
      exact ⟨hawaits.sent, hawaits.bytes, hawaits.honest⟩
  | arrive n wire =>
      intro stage expected buf hpc hcommands
      have hawaits := h stage expected buf hpc hcommands
      exact ⟨hawaits.sent, (Sys.incoming_arrive wire n buf).trans hawaits.bytes, hawaits.honest⟩
  | socket bytes =>
      intro stage expected buf hpc hcommands
      have hawaits := h stage expected buf hpc hcommands
      exact ⟨hawaits.sent, (Sys.incoming_socket bytes buf).trans hawaits.bytes, hawaits.honest⟩

end Steps

/-- The last packet that the client has sent is the command for the state
`v`, and since then the gateway has sent a frame with the id of the command
and the status `"ok"`. -/
def Confirmed (C : Codec) (s : Sys) (heard : List UInt8) (a : Actuator) (v : ℤ) : Prop :=
  ∃ requestId text buf type payload resp,
    s.sent.getLast? = some (packet msgSetActuator requestId text) ∧
    C.buildSetActuatorReq a.deviceId v a.value = some text ∧
    buf <+: heard ∧ recvCheck maxPayload buf = .frame type payload buf ∧
    (headerOf buf).requestId = requestId ∧
    checkResponse C type payload = some resp ∧ resp.status = some "ok"

section Steps

variable {C : Codec} {s : Sys} {heard : List UInt8}

theorem buildSetActuatorReq_of_request {a : Actuator} {type : UInt16} {text : List UInt8}
    (h : s.data.request C a.stage = some (type, some text)) :
    type = msgSetActuator ∧
      C.buildSetActuatorReq a.deviceId (a.wanted s.data) a.value = some text := by
  rw [request_stage, actuatorRequest] at h
  split at h
  · cases h
  · rw [Option.some.injEq, Prod.mk.injEq] at h
    exact ⟨h.1.symm, h.2⟩

/-- A read changes what is recorded only if it returns the answer to a
command. -/
theorem Tracked.recorded_receive (h : Tracked C s heard) {stage : Stage} {requestId : UInt32}
    {buf : List UInt8} (hpc : s.pc = .receiving stage requestId buf) (a : Actuator) :
    a.recorded (s.receive C stage requestId buf).data = a.recorded s.data ∨
      Confirmed C s heard a (a.recorded (s.receive C stage requestId buf).data) := by
  have hspec := recvTurn_spec maxPayload buf s.ssl
  unfold Sys.receive
  cases hturn : recvTurn maxPayload buf s.ssl with
  | mk turn ssl' =>
      rw [hturn] at hspec
      cases hspec with
      | again buf' _ bytes => exact .inl rfl
      | failed _ => exact .inl (recorded_finish_none _ a stage)
      | frame type payload buf' _ length bytes =>
          dsimp only
          split
          · exact .inl (recorded_finish_none _ a stage)
          next resp hresp =>
            rw [recorded_finish_some]
            split
            next hstage =>
              subst hstage
              have hawaits := h _ requestId buf hpc a.commands_stage
              obtain ⟨type', text, hrequest, hsent⟩ := hawaits.sent
              obtain ⟨rfl, htext⟩ := buildSetActuatorReq_of_request hrequest
              have hframe := recvCheck_of_recvTurn hturn
              have hbuf : buf' <+: heard := by
                rw [← hawaits.bytes, Sys.incoming, ← bytes, List.append_assoc]
                exact List.prefix_append _ _
              obtain ⟨hid, hok⟩ := hawaits.honest.frame hbuf hframe
              exact .inr ⟨requestId, text, buf', type, payload, resp, hsent, htext, hbuf, hframe,
                hid, hresp, hok resp hresp⟩
            next => exact .inl rfl

theorem Tracked.recorded_step {s' : Sys} {l : Label} (h : Tracked C s heard) (hs : s.Step C l s')
    (a : Actuator) :
    a.recorded s'.data = a.recorded s.data ∨ l = .connect ∧ a.recorded s'.data = -1 ∨
      Confirmed C s heard a (a.recorded s'.data) := by
  cases hs with
  | connect pc => exact .inr (.inl ⟨rfl, by cases a <;> rfl⟩)
  | start pc sendOk => exact .inl (recorded_begin s a C _ sendOk)
  | read pc => exact (h.recorded_receive pc a).imp_right .inr
  | _ => exact .inl rfl

/-- A stage that finds the recorded state to be another one than the
readings call for sends the command. -/
theorem step_start_command {a : Actuator} (hpc : s.pc = .ready a.stage)
    (hwanted : a.wanted s.data ≠ a.recorded s.data) {text : List UInt8}
    (htext : C.buildSetActuatorReq a.deviceId (a.wanted s.data) a.value = some text)
    (hlen : text.length ≤ maxPayload) :
    ∃ s', step C s (.start true) = some s' ∧
      s'.sent = s.sent ++ [packet msgSetActuator s.data.nextRequestId text] ∧
      s'.pc = .receiving a.stage s.data.nextRequestId [] := by
  have hrequest : s.data.request C a.stage = some (msgSetActuator, some text) := by
    rw [request_stage, actuatorRequest, if_neg hwanted, htext]
  simp only [step, hpc, Sys.begin, hrequest, if_neg hlen.not_gt, Bool.true_eq_false, if_false,
    Option.some.injEq]
  exact ⟨_, rfl, rfl, rfl⟩

end Steps

/-- **What is recorded has been confirmed.** Take a run in which nothing is
left of earlier answers when a command is sent, and in which no command is
rejected; the gateway may send anything else. A step that changes the
recorded state of an actuator is a new connection, which forgets it, or
the last command was for this actuator and this state and was answered
with `"ok"`. And as long as the readings call for another state than the
recorded one, the command is sent in every round. -/
theorem recorded_confirmed {C : Codec} {s : Sys} {heard : List UInt8}
    (h : Reachable (observed (step C) hear) (fun x l => NotRejected C x.1 l) (Sys.init, [])
      (s, heard)) (a : Actuator) :
    (∀ l s', step C s l = some s' →
      a.recorded s'.data = a.recorded s.data ∨ l = .connect ∧ a.recorded s'.data = -1 ∨
        Confirmed C s heard a (a.recorded s'.data)) ∧
      (s.pc = .ready a.stage → a.wanted s.data ≠ a.recorded s.data → ∀ text,
        C.buildSetActuatorReq a.deviceId (a.wanted s.data) a.value = some text →
        text.length ≤ maxPayload →
        ∃ s', step C s (.start true) = some s' ∧
          s'.sent = s.sent ++ [packet msgSetActuator s.data.nextRequestId text] ∧
          s'.pc = .receiving a.stage s.data.nextRequestId []) := by
  have htracked : Tracked C s heard := by
    refine h.invariant (I := fun x => Tracked C x.1 x.2) (.of_not_receiving (by simp [Sys.init])) ?_
    intro x l x' hx hok hs
    obtain ⟨hstep, hheard⟩ := observed_inv hs
    rw [hheard]
    exact hx.step hok (step_inv hstep)
  exact ⟨fun l s' hs => htracked.recorded_step (step_inv hs) a,
    fun hpc hwanted text htext hlen => step_start_command hpc hwanted htext hlen⟩

/-- A library with two responses: the empty text is `"ok"` and has the
readings of a hot room, every other text is an error. -/
def hotRoom : Codec where
  buildGetSensorReq sensorId := some [UInt8.ofNat sensorId.toNat]
  buildSetActuatorReq deviceId state value :=
    some [UInt8.ofNat deviceId.toNat, UInt8.ofNat state.toNat, UInt8.ofNat value.toNat]
  parse payload :=
    if payload = [] then some ⟨some "ok", some 30, some 50, some 120⟩
    else some ⟨some "error", none, none, none⟩

/-- The readings come in and call for the air conditioner; the command is
answered, and the answer has arrived. -/
def switchesOn (type : UInt16) (payload : List UInt8) : List Label :=
  List.flatten [[.connect, .start true], answers 1, [.start true], answers 2,
    [.start true, .reply type 3 payload, .arrive 20]]

theorem recorded_confirmed_hotRoom :
    ∃ s s' heard, Reachable (observed (step hotRoom) hear)
        (fun x l => NotRejected hotRoom x.1 l) (Sys.init, []) (s, heard) ∧
      step hotRoom s .read = some s' ∧ s.data.acState = -1 ∧
      s'.data.acState = 1 ∧ Confirmed hotRoom s heard .ac 1 := by
  have hrun : (runs (guarded (observed (step hotRoom) hear) fun x l => NotRejected hotRoom x.1 l)
      (Sys.init, []) (switchesOn msgResponse [])).map (fun x =>
        (x.1.data.acState, (step hotRoom x.1 .read).map (·.data.acState))) =
      some (-1, some 1) := by decide +kernel
  obtain ⟨⟨s, heard⟩, hreach, hobs⟩ := Reachable.exists_of_runs hrun
  obtain ⟨hbefore, hread⟩ := Prod.mk.inj hobs
  obtain ⟨s', hs', hafter⟩ := Option.map_eq_some_iff.mp hread
  refine ⟨s, s', heard, hreach, hs', hbefore, hafter, ?_⟩
  rcases (recorded_confirmed hreach .ac).1 .read s' hs' with hsame | ⟨hconnect, -⟩ | hconfirmed
  · have hne : s'.data.acState ≠ s.data.acState := by
      rw [hafter]
      exact fun h => absurd (h.trans hbefore) (by decide)
    exact absurd hsame hne
  · cases hconnect
  · exact (hafter : Actuator.recorded .ac s'.data = 1) ▸ hconfirmed

/-- The gateway reports that the device could not be switched, and the
client records that it was. -/
theorem recorded_rejected_hotRoom :
    ∃ s s' heard, Reachable (observed (step hotRoom) hear)
        (fun x l => StartsSettled hotRoom x.1 l) (Sys.init, []) (s, heard) ∧
      step hotRoom s .read = some s' ∧ s.data.acState = -1 ∧
      s'.data.acState = 1 ∧ heard = packet msgError 3 [1] ∧ ¬ Confirmed hotRoom s heard .ac 1 := by
  have hrun : (runs (guarded (observed (step hotRoom) hear) fun x l =>
      StartsSettled hotRoom x.1 l) (Sys.init, []) (switchesOn msgError [1])).map (fun x =>
        (x.1.data.acState, (step hotRoom x.1 .read).map (·.data.acState), x.2)) =
      some (-1, some 1, packet msgError 3 [1]) := by decide +kernel
  obtain ⟨⟨s, heard⟩, hreach, hobs⟩ := Reachable.exists_of_runs hrun
  obtain ⟨hbefore, hobs⟩ := Prod.mk.inj hobs
  obtain ⟨hread, hheard⟩ := Prod.mk.inj hobs
  obtain ⟨s', hs', hafter⟩ := Option.map_eq_some_iff.mp hread
  refine ⟨s, s', heard, hreach, hs', hbefore, hafter, hheard, ?_⟩
  rintro ⟨requestId, text, buf, type, payload, resp, -, -, ⟨rest, hbuf⟩, hframe, -, hresp, hok⟩
  let r : Request := ⟨msgError, 3, [1], by decide⟩
  have hbytes : buf ++ rest = r.encode := hbuf.trans hheard
  have hfail : ¬ SaysOk hotRoom msgError [1] := by decide +kernel
  by_cases hend : rest = []
  · rw [hend, List.append_nil] at hbytes
    rw [hbytes, recvCheck_encode r r.short] at hframe
    cases hframe
    refine hfail fun resp' hresp' => ?_
    rwa [← Option.some_inj.mp (hresp.symm.trans hresp')]
  · rw [recvCheck_incomplete hbytes hend] at hframe
    cases hframe

end LinuxMiniProjects.Gateway.TlsClient
