import LinuxMiniProjects.Gateway.Common

/-!
What a worker does with a task (`worker_thread.c`).

The functions of `payload_json.c` and the drivers of the sensors and
actuators are collected in `Backend`, whose functions stand for one
execution of a task: what the payload parses to, what the hardware
answers, and what is printed, where `none` is a failure. The backend over
a JSON library is built in `PayloadJson`. What is said here about
responses holds for every backend: a response is for the connection and
the request its task came from, and it fits a packet.
-/

namespace LinuxMiniProjects.Gateway

/-! ### `task_execute.h` -/

def aht30SensorId : ℤ := 1
def bh1750SensorId : ℤ := 2
def acActuatorId : ℤ := 1
def ledActuatorId : ℤ := 2
def fanActuatorId : ℤ := 3

/-- The functions of `payload_json.c` and the drivers. Measured values are
rational numbers where the source has `float`. -/
structure Backend where
  now : ℕ
  mallocOk : Bool
  jsonParseEchoReq : List UInt8 → Option (List UInt8)
  jsonParseGetSensorReq : List UInt8 → Option ℤ
  jsonParseSetActuatorReq : List UInt8 → Option (ℤ × ℤ × ℤ)
  jsonBuildEchoResp : List UInt8 → Option (List UInt8)
  jsonBuildStatusResp : ℕ → ℕ → Option (List UInt8)
  jsonBuildSensorAht30Resp : ℚ → ℚ → Option (List UInt8)
  jsonBuildSensorBh1750Resp : ℚ → Option (List UInt8)
  jsonBuildActuatorResp : String → Option (List UInt8)
  jsonBuildErrorResp : ErrCode → String → Option (List UInt8)
  aht30 : Option (ℚ × ℚ)
  bh1750 : Option ℚ
  setAc : ℤ → ℤ → Bool
  setLed : ℤ → ℤ → Bool
  setFan : ℤ → ℤ → Bool

/-! ### Responses -/

/-- `make_response`; a payload that is too long is cut. -/
def makeResponse (B : Backend) (slot generation : ℕ) (type : UInt16) (requestId : UInt32)
    (payload : List UInt8) : Option Response :=
  if B.mallocOk then some ⟨slot, generation, type, requestId, payload.take maxPayload⟩ else none

def makeErrorResponse (B : Backend) (task : Task) (errCode : ErrCode) (message : String) :
    Option Response :=
  match B.jsonBuildErrorResp errCode message with
  | some buf => makeResponse B task.slot task.generation msgError task.requestId buf
  | none =>
      match B.jsonBuildErrorResp errCode "internal_error" with
      | some buf => makeResponse B task.slot task.generation msgError task.requestId buf
      | none => none

/-- The end of every case of `process_hardware_task`: `resp_len` is
negative if the text did not fit. -/
def finishTask (B : Backend) (task : Task) (buf : Option (List UInt8)) : Option Response :=
  match buf with
  | some buf => makeResponse B task.slot task.generation msgResponse task.requestId buf
  | none => makeErrorResponse B task .badJson "response_too_large"

def processGetSensor (B : Backend) (task : Task) (sensorId : ℤ) : Option Response :=
  if sensorId = aht30SensorId then
    match B.aht30 with
    | some (temperature, humidity) =>
        finishTask B task (B.jsonBuildSensorAht30Resp temperature humidity)
    | none => makeErrorResponse B task .unknownType "aht30_hardware_init_fail"
  else if sensorId = bh1750SensorId then
    match B.bh1750 with
    | some lux => finishTask B task (B.jsonBuildSensorBh1750Resp lux)
    | none => makeErrorResponse B task .unknownType "bh1750_hardware_init_fail"
  else makeErrorResponse B task .unknownType "unknown_sensor_id"

def setActuator (B : Backend) (deviceId state value : ℤ) : Option Bool :=
  if deviceId = acActuatorId then some (B.setAc state value)
  else if deviceId = ledActuatorId then some (B.setLed state value)
  else if deviceId = fanActuatorId then some (B.setFan state value)
  else none

def processSetActuator (B : Backend) (task : Task) (deviceId state value : ℤ) : Option Response :=
  match setActuator B deviceId state value with
  | none => makeErrorResponse B task .unknownType "unknown_device_id"
  | some false => makeErrorResponse B task .unknownType "actuator_hardware_control_fail"
  | some true => finishTask B task (B.jsonBuildActuatorResp "actuator_control_success")

def processHardwareTask (B : Backend) (task : Task) : Option Response :=
  if task.type = msgEcho then
    match B.jsonParseEchoReq task.payload with
    | none => makeErrorResponse B task .badJson "missing_or_invalid_field_msg"
    | some msgIn => finishTask B task (B.jsonBuildEchoResp msgIn)
  else if task.type = msgStatus then
    finishTask B task (B.jsonBuildStatusResp B.now numWorkers)
  else if task.type = msgGetSensor then
    match B.jsonParseGetSensorReq task.payload with
    | none => makeErrorResponse B task .badJson "missing_or_invalid_field_sensor_id"
    | some sensorId => processGetSensor B task sensorId
  else if task.type = msgSetActuator then
    match B.jsonParseSetActuatorReq task.payload with
    | none => makeErrorResponse B task .badJson "missing_or_invalid_field_device_id_state_value"
    | some (deviceId, state, value) => processSetActuator B task deviceId state value
  else makeErrorResponse B task .unknownType "unsupported_message_type"

/-- The response of one iteration of `worker_thread`, if there is one. A
task that has waited too long is dropped, one that takes too long is
answered with an error; the clock is read before and after. -/
def workerTurn (B : Backend) (t : Task) (now now' : ℕ) : Option Response :=
  if t.timeoutMs < now then none
  else
    let resp := processHardwareTask B t
    if t.timeoutMs < now' then makeErrorResponse B t .timeout "processing_timeout" else resp

/-! ### How a response is made, and whom it is for -/

/-- A response to a task is made by `make_response` or by
`make_error_response`. -/
inductive MadeFor (B : Backend) (t : Task) (r : Response) : Prop
  | response (buf : List UInt8)
      (h : makeResponse B t.slot t.generation msgResponse t.requestId buf = some r)
  | error (errCode : ErrCode) (message : String)
      (h : makeErrorResponse B t errCode message = some r)

structure Response.Answers (r : Response) (t : Task) : Prop where
  slot : r.slot = t.slot
  generation : r.generation = t.generation
  requestId : r.requestId = t.requestId
  length : r.payload.length ≤ maxPayload

section MadeFor

variable {B : Backend} {t : Task} {r : Response}

theorem finishTask_madeFor {buf : Option (List UInt8)} (h : finishTask B t buf = some r) :
    MadeFor B t r := by
  unfold finishTask at h
  split at h
  · exact .response _ h
  · exact .error _ _ h

theorem processGetSensor_madeFor {sensorId : ℤ} (h : processGetSensor B t sensorId = some r) :
    MadeFor B t r := by
  unfold processGetSensor at h
  split at h
  · split at h
    · exact finishTask_madeFor h
    · exact .error _ _ h
  · split at h
    · split at h
      · exact finishTask_madeFor h
      · exact .error _ _ h
    · exact .error _ _ h

theorem processSetActuator_madeFor {deviceId state value : ℤ}
    (h : processSetActuator B t deviceId state value = some r) : MadeFor B t r := by
  unfold processSetActuator at h
  split at h
  · exact .error _ _ h
  · exact .error _ _ h
  · exact finishTask_madeFor h

theorem processHardwareTask_madeFor (h : processHardwareTask B t = some r) : MadeFor B t r := by
  unfold processHardwareTask at h
  split at h
  · split at h
    · exact .error _ _ h
    · exact finishTask_madeFor h
  split at h
  · exact finishTask_madeFor h
  split at h
  · split at h
    · exact .error _ _ h
    · exact processGetSensor_madeFor h
  split at h
  · split at h
    · exact .error _ _ h
    · exact processSetActuator_madeFor h
  · exact .error _ _ h

theorem workerTurn_madeFor {now now' : ℕ} (h : workerTurn B t now now' = some r) :
    MadeFor B t r := by
  unfold workerTurn at h
  split at h
  · cases h
  · dsimp only at h
    split at h
    · exact .error _ _ h
    · exact processHardwareTask_madeFor h

theorem makeResponse_answers {type : UInt16} {payload : List UInt8}
    (h : makeResponse B t.slot t.generation type t.requestId payload = some r) : r.Answers t := by
  unfold makeResponse at h
  split at h
  · cases h
    exact ⟨rfl, rfl, rfl, by simp⟩
  · cases h

theorem MadeFor.answers (h : MadeFor B t r) : r.Answers t := by
  cases h with
  | response buf h => exact makeResponse_answers h
  | error errCode message h =>
      unfold makeErrorResponse at h
      split at h
      · exact makeResponse_answers h
      · split at h
        · exact makeResponse_answers h
        · cases h

/-- Whatever a worker answers, it answers the task it was given. -/
theorem workerTurn_answers {now now' : ℕ} (h : workerTurn B t now now' = some r) :
    r.Answers t := (workerTurn_madeFor h).answers

end MadeFor

end LinuxMiniProjects.Gateway
