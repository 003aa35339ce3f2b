import LinuxMiniProjects.Lib.Json
import LinuxMiniProjects.Gateway.Worker

/-!
The payloads of the gateway (`payload_json.c`), over any JSON library.

A request is parsed with the library and its fields are looked up. A
response is an object that is printed into a buffer of the caller, and
it is an error if the text does not fit. With a library and the hardware
given, these functions are the `Backend` the workers run on.

Nobody looks at what the `cJSON_Add…ToObject` calls return: a field there
is no memory for is left out of the response.

The message of an echo request goes through a buffer of 128 bytes on its
way. `snprintf` cuts it there and reports nothing: what comes back is the
beginning of the message, and the message itself only if it is short.
-/

namespace LinuxMiniProjects.Gateway

open Bytes Json

variable (L : Library)

/-! ### Parsing -/

def parsePayload (payload : List UInt8) : Option Value :=
  if payload.length = 0 then none else L.parse payload

def valueint (q : ℚ) : ℤ := max (-2 ^ 31) (min (2 ^ 31 - 1) (q.num.tdiv q.den))

def intField (root : Value) (name : String) : Option ℤ :=
  match root.item (ofString name) with
  | some (.number q) => some (valueint q)
  | _ => none

/-- `json_parse_echo_req`: the string `snprintf` leaves in the buffer. -/
def jsonParseEchoReq (payload : List UInt8) (msgCap : ℕ) : Option (List UInt8) :=
  if msgCap = 0 then none
  else
    match parsePayload L payload with
    | none => none
    | some root =>
        match root.item (ofString "msg") with
        | some (.string valuestring) => some ((cString valuestring).take (msgCap - 1))
        | _ => none

def jsonParseGetSensorReq (payload : List UInt8) : Option ℤ :=
  match parsePayload L payload with
  | none => none
  | some root => intField root "sensor_id"

def jsonParseSetActuatorReq (payload : List UInt8) : Option (ℤ × ℤ × ℤ) :=
  match parsePayload L payload with
  | none => none
  | some root =>
      match intField root "device_id", intField root "state", intField root "value" with
      | some deviceId, some state, some value => some (deviceId, state, value)
      | _, _, _ => none

/-! ### Building -/

def stringField (name : String) (s : List UInt8) : List UInt8 × Value :=
  (ofString name, .string (cString s))

def numberField (name : String) (q : ℚ) : List UInt8 × Value := (ofString name, .number q)

def statusOk : List UInt8 × Value := stringField "status" (ofString "ok")

def echoResp (msg : List UInt8) : Value := .object [statusOk, stringField "msg" msg]

def statusResp (uptimeMs activeWorkers : ℕ) : Value :=
  .object [statusOk, numberField "uptime_ms" uptimeMs, numberField "active_workers" activeWorkers]

def sensorAht30Resp (temperature humidity : ℚ) : Value :=
  .object [statusOk, stringField "sensor_name" (ofString "AHT30"),
    (ofString "data", .object [numberField "temp" temperature, numberField "humi" humidity])]

def sensorBh1750Resp (lux : ℚ) : Value :=
  .object [statusOk, stringField "sensor_name" (ofString "BH1750"),
    (ofString "data", .object [numberField "lux" lux])]

def actuatorResp (message : String) : Value :=
  .object [statusOk, stringField "message" (ofString message)]

def errorResp (errorCode : ErrCode) (message : String) : Value :=
  .object [stringField "status" (ofString "error"),
    numberField "error_code" errorCode.code.toNat, stringField "message" (ofString message)]

/-- `print_and_free`: the text in the buffer. -/
def printAndFree (root : Value) (cap : ℕ) : Option (List UInt8) := L.printPreallocated root cap

def respBufSize : ℕ := 256

def errBufSize : ℕ := 128

def msgInSize : ℕ := 128

structure Hardware where
  now : ℕ
  mallocOk : Bool
  /-- The fields that `cJSON_Add…ToObject` has memory for while an object
  is built; `none` if there is none for the object itself. -/
  added : Value → Option (List UInt8 → Bool)
  aht30 : Option (ℚ × ℚ)
  bh1750 : Option ℚ
  setAc : ℤ → ℤ → Bool
  setLed : ℤ → ℤ → Bool
  setFan : ℤ → ℤ → Bool

def Hardware.build (hw : Hardware) (root : Value) : Option Value :=
  (hw.added root).map fun added => root.prune added

/-- There is memory for every object and every field. -/
def Hardware.BuildsAll (hw : Hardware) : Prop := ∀ root, hw.added root = some fun _ => true

theorem Hardware.BuildsAll.build_eq {hw : Hardware} (h : hw.BuildsAll) (root : Value) :
    hw.build root = some root := by
  rw [Hardware.build, h root, Option.map_some, root.prune_true]

/-- A `json_build_…` function: the object is built and printed. -/
def jsonBuild (hw : Hardware) (root : Value) (cap : ℕ) : Option (List UInt8) :=
  (hw.build root).bind fun root => printAndFree L root cap

def jsonBackend (hw : Hardware) : Backend where
  now := hw.now
  mallocOk := hw.mallocOk
  jsonParseEchoReq := fun payload => jsonParseEchoReq L payload msgInSize
  jsonParseGetSensorReq := jsonParseGetSensorReq L
  jsonParseSetActuatorReq := jsonParseSetActuatorReq L
  jsonBuildEchoResp := fun msg => jsonBuild L hw (echoResp msg) respBufSize
  jsonBuildStatusResp := fun uptime workers =>
    jsonBuild L hw (statusResp uptime workers) respBufSize
  jsonBuildSensorAht30Resp := fun t h => jsonBuild L hw (sensorAht30Resp t h) respBufSize
  jsonBuildSensorBh1750Resp := fun lux => jsonBuild L hw (sensorBh1750Resp lux) respBufSize
  jsonBuildActuatorResp := fun message => jsonBuild L hw (actuatorResp message) respBufSize
  jsonBuildErrorResp := fun errCode message => jsonBuild L hw (errorResp errCode message) errBufSize
  aht30 := hw.aht30
  bh1750 := hw.bh1750
  setAc := hw.setAc
  setLed := hw.setLed
  setFan := hw.setFan

/-! ### What a response says -/

theorem echoResp_clean (msg : List UInt8) : (echoResp msg).Clean := by
  simp only [echoResp, statusOk, stringField, Value.Clean, Value.CleanFields, and_true]
  exact ⟨by decide, zero_notMem_cString _, by decide, zero_notMem_cString _⟩

theorem errorResp_clean (errorCode : ErrCode) (message : String) :
    (errorResp errorCode message).Clean := by
  simp only [errorResp, stringField, numberField, Value.Clean, Value.CleanFields, and_true,
    true_and]
  exact ⟨by decide, zero_notMem_cString _, by decide, by decide, zero_notMem_cString _⟩

theorem item_status_echoResp (msg : List UInt8) :
    (echoResp msg).item (ofString "status") = some (.string (ofString "ok")) := rfl

theorem item_msg_echoResp (msg : List UInt8) :
    (echoResp msg).item (ofString "msg") = some (.string (cString msg)) := rfl

structure Printed (root : Value) (payload : List UInt8) : Prop where
  parse : L.parse payload = some root
  ended : 0 ∉ payload
  short : payload.length < respBufSize

variable {L} {hw : Hardware} {task : Task} {r : Response}

theorem printed_of_jsonBuild {root : Value} {cap : ℕ} {buf : List UInt8} (hroot : root.Clean)
    (hcap : cap ≤ respBufSize) (h : jsonBuild L hw root cap = some buf) :
    ∃ root', hw.build root = some root' ∧ Printed L root' buf := by
  obtain ⟨root', hbuild, hprint⟩ := Option.bind_eq_some_iff.mp h
  obtain ⟨added, -, rfl⟩ := Option.map_eq_some_iff.mp hbuild
  obtain ⟨hprint, hlen⟩ := L.print_fits hprint
  exact ⟨_, hbuild, L.parse_print (hroot.prune added) hprint, L.print_ended hprint,
    Nat.lt_of_lt_of_le hlen hcap⟩

theorem makeResponse_printed {root : Value} {buf : List UInt8} {type : UInt16}
    (hbuf : Printed L root buf)
    (h : makeResponse (jsonBackend L hw) task.slot task.generation type task.requestId buf =
      some r) : r.type = type ∧ Printed L root r.payload := by
  have hshort : buf.length ≤ maxPayload := by
    have := hbuf.short
    unfold respBufSize at this
    unfold maxPayload
    omega
  unfold makeResponse at h
  split at h
  · cases h
    rw [List.take_of_length_le hshort]
    exact ⟨rfl, hbuf⟩
  · cases h

theorem makeResponse_eq_none {type : UInt16} {buf : List UInt8}
    (h : makeResponse (jsonBackend L hw) task.slot task.generation type task.requestId buf =
      none) : hw.mallocOk = false := by
  unfold makeResponse at h
  split at h
  · cases h
  next hmalloc => exact eq_false_of_ne_true hmalloc

theorem makeErrorResponse_printed {errCode : ErrCode} {message : String}
    (h : makeErrorResponse (jsonBackend L hw) task errCode message = some r) :
    r.type = msgError ∧ ∃ message root, hw.build (errorResp errCode message) = some root ∧
      Printed L root r.payload := by
  have hprinted : ∀ {message buf}, (jsonBackend L hw).jsonBuildErrorResp errCode message =
      some buf → ∃ root, hw.build (errorResp errCode message) = some root ∧ Printed L root buf :=
    fun hbuf => printed_of_jsonBuild (errorResp_clean _ _) (by decide) hbuf
  unfold makeErrorResponse at h
  split at h
  next hbuf =>
    obtain ⟨root, hroot, hbuf⟩ := hprinted hbuf
    have hr := makeResponse_printed hbuf h
    exact ⟨hr.1, _, root, hroot, hr.2⟩
  next =>
    split at h
    next hbuf =>
      obtain ⟨root, hroot, hbuf⟩ := hprinted hbuf
      have hr := makeResponse_printed hbuf h
      exact ⟨hr.1, _, root, hroot, hr.2⟩
    next => cases h

/-- There is no error response only if there is no memory, or not even the
shortest text fits. -/
theorem makeErrorResponse_eq_none {errCode : ErrCode} {message : String}
    (h : makeErrorResponse (jsonBackend L hw) task errCode message = none) :
    hw.mallocOk = false ∨
      jsonBuild L hw (errorResp errCode "internal_error") errBufSize = none := by
  unfold makeErrorResponse at h
  split at h
  · exact .inl (makeResponse_eq_none h)
  · split at h
    · exact .inl (makeResponse_eq_none h)
    next hbuf => exact .inr hbuf

/-! ### Echo -/

/-- What becomes of an echo request that is to be answered with `msg`. -/
def EchoOutcome (L : Library) (hw : Hardware) (msg : List UInt8) : Option Response → Prop
  | none =>
      hw.mallocOk = false ∨
        jsonBuild L hw (errorResp .badJson "internal_error") errBufSize = none
  | some r =>
      r.type = msgError ∨
        r.type = msgResponse ∧ ∃ doc, L.parse r.payload = some doc ∧
          doc.item (ofString "status") = some (.string (ofString "ok")) ∧
          doc.item (ofString "msg") = some (.string msg)

theorem makeErrorResponse_echoOutcome (msg : List UInt8) (message : String) :
    EchoOutcome L hw msg (makeErrorResponse (jsonBackend L hw) task .badJson message) := by
  cases h : makeErrorResponse (jsonBackend L hw) task .badJson message with
  | none => exact makeErrorResponse_eq_none h
  | some r => exact .inl (makeErrorResponse_printed h).1

/-- A response has both fields only if it was built whole. -/
theorem prune_echoResp_iff (added : List UInt8 → Bool) (cut msg : List UInt8) :
    ((echoResp cut).prune added).item (ofString "status") = some (.string (ofString "ok")) ∧
        ((echoResp cut).prune added).item (ofString "msg") = some (.string msg) ↔
      (echoResp cut).prune added = echoResp cut ∧ cString cut = msg := by
  have hitem : ∀ name, ((echoResp cut).prune added).item name =
      ((echoResp cut).item name).bind fun v => if added name then some (v.prune added) else none :=
    Value.item_prune added (echoResp_clean cut)
  constructor
  · rintro ⟨hstatus, hmsg⟩
    rw [hitem, item_status_echoResp, Option.bind_some, Option.ite_none_right_eq_some] at hstatus
    rw [hitem, item_msg_echoResp, Option.bind_some, Option.ite_none_right_eq_some] at hmsg
    obtain ⟨hs, -⟩ := hstatus
    obtain ⟨hm, hvalue⟩ := hmsg
    refine ⟨?_, Value.string.inj (Option.some.inj hvalue)⟩
    simp [echoResp, statusOk, stringField, Value.prune, Value.pruneFields, hs, hm]
  · rintro ⟨hwhole, rfl⟩
    rw [hwhole]
    exact ⟨item_status_echoResp cut, item_msg_echoResp cut⟩

theorem finishTask_echoOutcome_iff {cut msg : List UInt8} (hcut : 0 ∉ cut) :
    EchoOutcome L hw msg
        (finishTask (jsonBackend L hw) task ((jsonBackend L hw).jsonBuildEchoResp cut)) ↔
      hw.mallocOk = false ∨ jsonBuild L hw (echoResp cut) respBufSize = none ∨
        hw.build (echoResp cut) = some (echoResp cut) ∧ cut = msg := by
  have hbuild : (jsonBackend L hw).jsonBuildEchoResp cut =
      jsonBuild L hw (echoResp cut) respBufSize := rfl
  rw [hbuild]
  cases hbuf : jsonBuild L hw (echoResp cut) respBufSize with
  | none =>
      exact iff_of_true (makeErrorResponse_echoOutcome msg _) (.inr (.inl rfl))
  | some buf =>
      rw [finishTask]
      cases hr : makeResponse (jsonBackend L hw) task.slot task.generation msgResponse
          task.requestId buf with
      | none =>
          have hmalloc := makeResponse_eq_none hr
          exact iff_of_true (.inl hmalloc) (.inl hmalloc)
      | some r =>
          have hmalloc : ¬ hw.mallocOk = false := by
            intro hfalse
            rw [makeResponse, if_neg (by simp [jsonBackend, hfalse])] at hr
            cases hr
          obtain ⟨root, hroot, hprinted⟩ :=
            printed_of_jsonBuild (echoResp_clean cut) (Nat.le_refl _) hbuf
          obtain ⟨htype, hpayload⟩ := makeResponse_printed hprinted hr
          obtain ⟨added, -, rfl⟩ := Option.map_eq_some_iff.mp hroot
          have hne : msgResponse ≠ msgError := by decide
          have hsays := prune_echoResp_iff added cut msg
          rw [cString_of_notMem hcut] at hsays
          simp only [EchoOutcome, htype, hne, hpayload.parse, hroot, hmalloc, Option.some.injEq,
            exists_eq_left', false_or, true_and, hsays, reduceCtorEq]

/-- An echo request is answered with what `snprintf` leaves of its
message. -/
theorem processHardwareTask_echo {doc : Value} {msg : List UInt8} (htype : task.type = msgEcho)
    (hdoc : L.parse task.payload = some doc)
    (hmsg : doc.item (ofString "msg") = some (.string msg)) :
    processHardwareTask (jsonBackend L hw) task =
      finishTask (jsonBackend L hw) task
        ((jsonBackend L hw).jsonBuildEchoResp ((cString msg).take (msgInSize - 1))) := by
  have hne : task.payload.length ≠ 0 := by
    intro hnil
    rw [List.length_eq_zero_iff.mp hnil, L.parse_nil] at hdoc
    cases hdoc
  have hparse : (jsonBackend L hw).jsonParseEchoReq task.payload =
      some ((cString msg).take (msgInSize - 1)) := by
    simp only [jsonBackend, jsonParseEchoReq, parsePayload, if_neg hne, hdoc, hmsg]
    rfl
  rw [processHardwareTask, if_pos htype, hparse]

def letters (n : ℕ) : List UInt8 := List.replicate n 97

def echoReq (msg : List UInt8) : Value := .object [stringField "msg" msg]

def echoReqText (msg : List UInt8) : List UInt8 :=
  ofString "\x7b\"msg\":\"" ++ msg ++ ofString "\"\x7d"

def echoRespText (msg : List UInt8) : List UInt8 :=
  ofString "\x7b\"status\":\"ok\",\"msg\":\"" ++ msg ++ ofString "\"\x7d"

def echoEntries (n : ℕ) : List (List UInt8 × Value) :=
  [(echoReqText (letters n), echoReq (letters n)),
    (echoRespText (letters (min n 127)), echoResp (letters (min n 127)))]

def idleHardware : Hardware where
  now := 0
  mallocOk := true
  added := fun _ => some fun _ => true
  aht30 := none
  bh1750 := none
  setAc := fun _ _ => false
  setLed := fun _ _ => false
  setFan := fun _ _ => false

theorem idleHardware_buildsAll : idleHardware.BuildsAll := fun _ => rfl

def lettersTask (n : ℕ) : Task :=
  ⟨0, 1, msgEcho, 1, echoReqText (letters n), requestTimeoutMs, (echoReqText (letters n)).length⟩

def twoLetters : Table where
  entries := echoEntries 2
  nodup := by decide +kernel
  ended := by decide +kernel
  visible := by decide +kernel

def tooManyLetters : Table where
  entries := echoEntries 128
  nodup := by decide +kernel
  ended := by decide +kernel
  visible := by decide +kernel

section Letters

variable {T : Table} {n : ℕ}

theorem cString_letters (n : ℕ) : cString (letters n) = letters n :=
  cString_of_notMem (by simp [letters])

theorem item_msg_echoReq (n : ℕ) :
    (echoReq (letters n)).item (ofString "msg") = some (.string (letters n)) := by
  conv_rhs => rw [← cString_letters n]
  rfl

theorem parse_echoReqText (hT : T.entries = echoEntries n) :
    T.library.parse (echoReqText (letters n)) = some (echoReq (letters n)) := by
  rw [Table.library_parse, Table.parse_eq_some, hT]
  exact List.mem_cons_self

end Letters

theorem take_cString_eq_iff (msg : List UInt8) :
    (cString msg).take (msgInSize - 1) = msg ↔ msg.length < msgInSize ∧ 0 ∉ msg := by
  constructor
  · intro h
    have hlen := congrArg List.length h
    rw [List.length_take] at hlen
    refine ⟨?_, ?_⟩
    · unfold msgInSize at hlen ⊢
      omega
    · rw [← h]
      exact fun hmem => zero_notMem_cString msg (List.mem_of_mem_take hmem)
  · rintro ⟨hshort, hended⟩
    rw [cString_of_notMem hended, List.take_of_length_le (Nat.le_sub_one_of_lt hshort)]

/-- **Short messages** are echoed, and no others: unless nothing can be
sent or built, the response to a request is an error or has the message
of the request in it if and only if all fields of it are built and the
message has at most 127 bytes, none of them zero. -/
theorem echo_faithful_iff (L : Library) (hw : Hardware) (task : Task) {doc : Value}
    {msg : List UInt8} (htype : task.type = msgEcho) (hdoc : L.parse task.payload = some doc)
    (hmsg : doc.item (ofString "msg") = some (.string msg)) :
    let resp := echoResp ((cString msg).take (msgInSize - 1))
    EchoOutcome L hw msg (processHardwareTask (jsonBackend L hw) task) ↔
      hw.mallocOk = false ∨ jsonBuild L hw resp respBufSize = none ∨
        hw.build resp = some resp ∧ msg.length < msgInSize ∧ 0 ∉ msg := by
  have hended : 0 ∉ (cString msg).take (msgInSize - 1) :=
    fun hmem => zero_notMem_cString msg (List.mem_of_mem_take hmem)
  dsimp only
  rw [processHardwareTask_echo htype hdoc hmsg, finishTask_echoOutcome_iff hended,
    take_cString_eq_iff]

theorem echo_faithful_iff_twoLetters :
    twoLetters.library.parse (lettersTask 2).payload = some (echoReq (letters 2)) ∧
      EchoOutcome twoLetters.library idleHardware (letters 2)
        (processHardwareTask (jsonBackend twoLetters.library idleHardware) (lettersTask 2)) := by
  have hdoc := parse_echoReqText (T := twoLetters) rfl
  refine ⟨hdoc, (echo_faithful_iff _ _ _ rfl hdoc (item_msg_echoReq 2)).mpr (.inr (.inr ?_))⟩
  exact ⟨idleHardware_buildsAll.build_eq _, by decide, by decide⟩

/-- Of a message of 128 letters 127 come back, and the response is not an
error. -/
theorem not_echo_faithful_tooManyLetters :
    (lettersTask 128).payload.length ≤ maxPayload ∧
      tooManyLetters.library.parse (lettersTask 128).payload = some (echoReq (letters 128)) ∧
      (echoReq (letters 128)).item (ofString "msg") = some (.string (letters 128)) ∧
      ¬ EchoOutcome tooManyLetters.library idleHardware (letters 128)
        (processHardwareTask (jsonBackend tooManyLetters.library idleHardware)
          (lettersTask 128)) := by
  have hdoc : tooManyLetters.library.parse (lettersTask 128).payload =
      some (echoReq (letters 128)) := parse_echoReqText rfl
  have hbuf : jsonBuild tooManyLetters.library idleHardware (echoResp (letters 127))
      respBufSize = some (echoRespText (letters 127)) := by decide +kernel
  have hcut : (letters 128).take (msgInSize - 1) = letters 127 := by
    rw [letters, List.take_replicate]
    rfl
  refine ⟨by decide +kernel, hdoc, item_msg_echoReq 128, ?_⟩
  rw [processHardwareTask_echo rfl hdoc (item_msg_echoReq 128), cString_letters, hcut,
    finishTask_echoOutcome_iff (by simp [letters]), hbuf]
  rintro (hmalloc | hnone | ⟨-, hsame⟩)
  · cases hmalloc
  · cases hnone
  · have hlen := congrArg List.length hsame
    simp [letters] at hlen

end LinuxMiniProjects.Gateway
