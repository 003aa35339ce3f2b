import LinuxMiniProjects.Gateway.Reader

/-!
The client of the gateway (`client/client_tls.c`): it polls two sensors
and switches three actuators, one request at a time over one TLS
connection.

The program is the loop of `main`, cut at the points where it waits: `Pc`
says which of the five requests of a round is next, or which one is
waiting for its answer and what `recv_one_frame` has read of it. `sent`
are the packets that `send_all` has written to the connection. Around
the program is what it cannot see. `owed` are the requests of the
connection that the gateway has neither answered nor dropped, `wire` the
bytes from the gateway that have not arrived yet, and `ssl` what has
arrived. A read that finds nothing is a read that ran into the receive
timeout.

The JSON library is a parameter. Of a response only the fields the client
looks at are kept, and measured values are rational numbers where the
source has `float`.
-/

namespace LinuxMiniProjects.Gateway.TlsClient

open Bytes

def sensorIdAht30 : ℤ := 1
def sensorIdBh1750 : ℤ := 2
def deviceIdAc : ℤ := 1
def deviceIdLed : ℤ := 2
def deviceIdFan : ℤ := 3

def tempOnThresholdC : ℚ := 28
def tempOffThresholdC : ℚ := 26
def acSetpointC : ℤ := 24
def luxOnThreshold : ℚ := 100
def luxOffThreshold : ℚ := 150
def ledBrightnessPercent : ℤ := 70
def humiOnThreshold : ℚ := 70
def humiOffThreshold : ℚ := 60
def fanSpeedRpm : ℤ := 1500

/-! ### The JSON library -/

structure Json where
  status : Option String
  temp : Option ℚ
  humi : Option ℚ
  lux : Option ℚ

structure Codec where
  buildGetSensorReq : ℤ → Option (List UInt8)
  buildSetActuatorReq : ℤ → ℤ → ℤ → Option (List UInt8)
  parse : List UInt8 → Option Json

/-! ### Receiving -/

/-- A turn of the loop of `recv_one_frame` goes on, fails or has a frame.
`buf` is what has been read. -/
inductive RecvTurn
  | again (buf : List UInt8)
  | failed
  | frame (type : UInt16) (payload buf : List UInt8)

/-- What `recv_one_frame` does when more bytes have arrived. -/
def recvCheck (cap : ℕ) (buf : List UInt8) : RecvTurn :=
  if buf.length < headerSize then .again buf
  else
    let length := (decode32Bit (ofList buf) 8).toNat
    if maxPayload < length then .failed
    else if buf.length < headerSize + length + crcSize then .again buf
    else
      let crcRev := decode32Bit (ofList buf) (headerSize + length)
      let crcCal := crcCalculate (slice (ofList buf) headerSize length)
      if crcRev ≠ crcCal then .failed
      else if cap < length then .failed
      else .frame (decode16Bit (ofList buf) 6) (slice (ofList buf) headerSize length) buf

/-- A turn of the loop of `recv_one_frame`. It would go on after `EINTR`,
but only if `SSL_get_error` says `SSL_ERROR_SYSCALL`; for a read that a
signal interrupts it says `SSL_ERROR_WANT_READ`. -/
def recvTurn (cap : ℕ) (buf : List UInt8) (ssl : Ssl) : RecvTurn × Ssl :=
  match sslRead ssl (headerSize + maxPayload + crcSize - buf.length) with
  | (.err _, ssl) => (.failed, ssl)
  | (.data [], ssl) => (.failed, ssl)
  | (.data (b :: bs), ssl) => (recvCheck cap (buf ++ b :: bs), ssl)

/-- The end of `do_request`: the object it returns with `0`. -/
def checkResponse (C : Codec) (type : UInt16) (payload : List UInt8) : Option Json :=
  match C.parse payload with
  | none => none
  | some resp => if type ≠ msgResponse ∧ type ≠ msgError then none else some resp

/-! ### The client's state and its decisions -/

/-- `struct client_data`, without what concerns discovery, the connection
and the shutdown. A state of an actuator is `-1` if it is unknown. -/
structure ClientData where
  nextRequestId : UInt32
  acState : ℤ
  ledState : ℤ
  fanState : ℤ
  temperature : ℚ
  humidity : ℚ
  lux : ℚ

def decideState (value onThreshold offThreshold : ℚ) (currentState : ℤ) : ℤ :=
  if onThreshold ≤ value then 1
  else if value ≤ offThreshold then 0
  else if currentState = -1 then 0
  else currentState

def decideStateInverted (value onThresholdLow offThresholdHigh : ℚ) (currentState : ℤ) : ℤ :=
  if value ≤ onThresholdLow then 1
  else if offThresholdHigh ≤ value then 0
  else if currentState = -1 then 0
  else currentState

def ClientData.wantAc (d : ClientData) : ℤ :=
  decideState d.temperature tempOnThresholdC tempOffThresholdC d.acState

def ClientData.wantFan (d : ClientData) : ℤ :=
  decideState d.humidity humiOnThreshold humiOffThreshold d.fanState

def ClientData.wantLed (d : ClientData) : ℤ :=
  decideStateInverted d.lux luxOnThreshold luxOffThreshold d.ledState

inductive Stage
  | tempHumi
  | lux
  | ac
  | fan
  | led
  deriving DecidableEq

def Stage.next : Stage → Stage
  | .tempHumi => .lux
  | .lux => .ac
  | .ac => .fan
  | .fan => .led
  | .led => .tempHumi

/-- The request of `apply_actuator_if_changed`, if there is one. -/
def actuatorRequest (C : Codec) (deviceId wantState value currentState : ℤ) :
    Option (UInt16 × Option (List UInt8)) :=
  if wantState = currentState then none
  else some (msgSetActuator, C.buildSetActuatorReq deviceId wantState value)

/-- The type and the text of the request of a stage; there may be nothing
to request, and the text may fail to print. -/
def ClientData.request (C : Codec) (d : ClientData) : Stage → Option (UInt16 × Option (List UInt8))
  | .tempHumi => some (msgGetSensor, C.buildGetSensorReq sensorIdAht30)
  | .lux => some (msgGetSensor, C.buildGetSensorReq sensorIdBh1750)
  | .ac => actuatorRequest C deviceIdAc d.wantAc acSetpointC d.acState
  | .fan => actuatorRequest C deviceIdFan d.wantFan fanSpeedRpm d.fanState
  | .led => actuatorRequest C deviceIdLed d.wantLed ledBrightnessPercent d.ledState

/-- `fetch_temp_humi`, behind a successful `do_request`. -/
def ClientData.setTempHumi (d : ClientData) (resp : Json) : Option ClientData :=
  if resp.status = some "ok" then
    match resp.temp, resp.humi with
    | some t, some h => some { d with temperature := t, humidity := h }
    | _, _ => none
  else none

/-- `fetch_lux`, behind a successful `do_request`. -/
def ClientData.setLux (d : ClientData) (resp : Json) : Option ClientData :=
  if resp.status = some "ok" then
    match resp.lux with
    | some l => some { d with lux := l }
    | none => none
  else none

/-- What a stage does with the result of `do_request`, where `none` is a
failure. The client without a result goes to `communication_error`; a
command that fails does not. -/
def ClientData.finish (d : ClientData) : Stage → Option Json → Option ClientData
  | .tempHumi, some resp => d.setTempHumi resp
  | .tempHumi, none => none
  | .lux, some resp => d.setLux resp
  | .lux, none => none
  | .ac, some _ => some { d with acState := d.wantAc }
  | .fan, some _ => some { d with fanState := d.wantFan }
  | .led, some _ => some { d with ledState := d.wantLed }
  | .ac, none => some d
  | .fan, none => some d
  | .led, none => some d

/-! ### Runs -/

inductive Pc
  /-- `connected` is false. -/
  | disconnected
  /-- Before a stage. -/
  | ready (stage : Stage)
  /-- In `recv_one_frame`, for the answer to the request `requestId`. -/
  | receiving (stage : Stage) (requestId : UInt32) (buf : List UInt8)

/-- A call of `do_request` that has returned `0`: the id it sent, and what
`recv_one_frame` had read. -/
structure Returned where
  requestId : UInt32
  buf : List UInt8
  deriving DecidableEq

structure Sys where
  data : ClientData
  pc : Pc
  ssl : Ssl
  sent : List (List UInt8)
  wire : List UInt8
  owed : List UInt32
  returned : List Returned

/-- The client after `init_client_data`. -/
def Sys.init : Sys where
  data := ⟨1, -1, -1, -1, 0, 0, 0⟩
  pc := .disconnected
  ssl := ⟨[], [], 0⟩
  sent := []
  wire := []
  owed := []
  returned := []

inductive Label
  /-- The client connects. -/
  | connect
  /-- It starts the next stage; `sendOk` says whether `send_all`
  succeeds. -/
  | start (sendOk : Bool)
  /-- It calls `SSL_read`. -/
  | read
  /-- The gateway answers a request. -/
  | reply (type : UInt16) (requestId : UInt32) (payload : List UInt8)
  /-- The gateway sends something else: a frame nobody has asked for, or
  bytes that are no frame. -/
  | stray (bytes : List UInt8)
  /-- The gateway drops a request. -/
  | forget (requestId : UInt32)
  /-- A record with the next `n + 1` bytes arrives. -/
  | arrive (n : ℕ)
  /-- A signal, a close or an error, which brings no bytes. -/
  | socket (item : SockItem)

def Sys.finish (s : Sys) (stage : Stage) (rc : Option Json) : Sys :=
  match s.data.finish stage rc with
  | some data => { s with data := data, pc := .ready stage.next }
  | none => { s with pc := .disconnected }

/-- A stage up to the first `SSL_read`. -/
def Sys.begin (s : Sys) (C : Codec) (stage : Stage) (sendOk : Bool) : Sys :=
  match s.data.request C stage with
  | none => { s with pc := .ready stage.next }
  | some (_, none) => s.finish stage none
  | some (type, some json) =>
      let requestId := s.data.nextRequestId
      let s := { s with data := { s.data with nextRequestId := requestId + 1 } }
      if maxPayload < json.length then s.finish stage none
      else if sendOk = false then s.finish stage none
      else
        { s with
          sent := s.sent ++ [packet type requestId json]
          owed := s.owed ++ [requestId]
          pc := .receiving stage requestId [] }

/-- A turn of the loop of `recv_one_frame`, and what comes behind it. -/
def Sys.receive (s : Sys) (C : Codec) (stage : Stage) (requestId : UInt32) (buf : List UInt8) :
    Sys :=
  match recvTurn maxPayload buf s.ssl with
  | (.again buf, ssl) => { s with ssl := ssl, pc := .receiving stage requestId buf }
  | (.failed, ssl) => { s with ssl := ssl }.finish stage none
  | (.frame type payload buf, ssl) =>
      match checkResponse C type payload with
      | none => { s with ssl := ssl }.finish stage none
      | some resp =>
          ({ s with
            ssl := ssl
            returned := s.returned ++ [⟨requestId, buf⟩] } : Sys).finish stage (some resp)

def step (C : Codec) (s : Sys) : Label → Option Sys
  | .connect =>
      match s.pc with
      | .disconnected =>
          some { s with
            data := { s.data with acState := -1, ledState := -1, fanState := -1 }
            pc := .ready .tempHumi
            ssl := ⟨[], [], 0⟩
            sent := []
            wire := []
            owed := [] }
      | _ => none
  | .start sendOk =>
      match s.pc with
      | .ready stage => some (s.begin C stage sendOk)
      | _ => none
  | .read =>
      match s.pc with
      | .receiving stage requestId buf => some (s.receive C stage requestId buf)
      | _ => none
  | .reply type requestId payload =>
      if requestId ∈ s.owed ∧ payload.length ≤ maxPayload then
        some { s with
          owed := s.owed.erase requestId
          wire := s.wire ++ packet type requestId payload }
      else none
  | .stray bytes => some { s with wire := s.wire ++ bytes }
  | .forget requestId => some { s with owed := s.owed.erase requestId }
  | .arrive n =>
      match s.wire with
      | b :: bs =>
          some { s with
            ssl := { s.ssl with kernel := s.ssl.kernel ++ [.record b (bs.take n)] }
            wire := bs.drop n }
      | [] => none
  | .socket item =>
      if item.bytes = [] then
        some { s with ssl := { s.ssl with kernel := s.ssl.kernel ++ [item] } }
      else none

/-! ### The steps as a relation -/

inductive Sys.Step (C : Codec) (s : Sys) : Label → Sys → Prop
  | connect (pc : s.pc = .disconnected) :
      s.Step C .connect { s with
        data := { s.data with acState := -1, ledState := -1, fanState := -1 }
        pc := .ready .tempHumi
        ssl := ⟨[], [], 0⟩
        sent := []
        wire := []
        owed := [] }
  | start {stage} (pc : s.pc = .ready stage) (sendOk : Bool) :
      s.Step C (.start sendOk) (s.begin C stage sendOk)
  | read {stage requestId buf} (pc : s.pc = .receiving stage requestId buf) :
      s.Step C .read (s.receive C stage requestId buf)
  | reply (type : UInt16) {requestId payload} (owed : requestId ∈ s.owed)
      (length : payload.length ≤ maxPayload) :
      s.Step C (.reply type requestId payload) { s with
        owed := s.owed.erase requestId
        wire := s.wire ++ packet type requestId payload }
  | stray (bytes : List UInt8) :
      s.Step C (.stray bytes) { s with wire := s.wire ++ bytes }
  | forget (requestId : UInt32) :
      s.Step C (.forget requestId) { s with owed := s.owed.erase requestId }
  | arrive (n : ℕ) {b bs} (wire : s.wire = b :: bs) :
      s.Step C (.arrive n) { s with
        ssl := { s.ssl with kernel := s.ssl.kernel ++ [.record b (bs.take n)] }
        wire := bs.drop n }
  | socket {item} (bytes : item.bytes = []) :
      s.Step C (.socket item) { s with
        ssl := { s.ssl with kernel := s.ssl.kernel ++ [item] } }

theorem step_inv {C : Codec} {s s' : Sys} {l : Label} (h : step C s l = some s') :
    s.Step C l s' := by
  cases l with
  | connect =>
      simp only [step] at h
      split at h
      next pc => exact Option.some.inj h ▸ .connect pc
      next => cases h
  | start sendOk =>
      simp only [step] at h
      split at h
      next stage pc => exact Option.some.inj h ▸ .start pc sendOk
      next => cases h
  | read =>
      simp only [step] at h
      split at h
      next stage requestId buf pc => exact Option.some.inj h ▸ .read pc
      next => cases h
  | reply type requestId payload =>
      rw [step, Option.ite_none_right_eq_some, Option.some.injEq] at h
      exact h.2 ▸ .reply type h.1.1 h.1.2
  | stray bytes => exact Option.some.inj h ▸ .stray bytes
  | forget requestId => exact Option.some.inj h ▸ .forget requestId
  | arrive n =>
      simp only [step] at h
      split at h
      next b bs wire => exact Option.some.inj h ▸ .arrive n wire
      next => cases h
  | socket item =>
      rw [step, Option.ite_none_right_eq_some, Option.some.injEq] at h
      exact h.2 ▸ .socket h.1

end LinuxMiniProjects.Gateway.TlsClient
