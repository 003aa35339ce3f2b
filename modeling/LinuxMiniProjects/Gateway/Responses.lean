import LinuxMiniProjects.CJson.PrintCorrect
import LinuxMiniProjects.Gateway.ErrorFrames

/-!
The responses of the workers, printed by `cJSON` itself.

`PayloadJson` is about any JSON library. Here the requests are still
parsed by any library, but the responses are printed by the printer of
`cJSON.c` into the buffers of the workers, so texts have their true
lengths. `okResp` says what a request is to be answered with, and knows
nothing of buffers. The workers meet it as long as an echoed message fits
the buffer it is copied to: the only response that can be too large is
that to an echo request, and the text for `internal_error` fits in any
case.

A measured value is rounded to a `double` by `toDouble`.
-/

namespace LinuxMiniProjects.Gateway.OverCJson

open Bytes Json CJson Machine

variable {D : Type}

/-! ### `print_and_free` -/

section Items

variable (toDouble : ℚ → D)

mutual

def toItem : Value → Item D
  | .null => .null
  | .bool b => .bool b
  | .number q => .number (toDouble q)
  | .string bytes => .string bytes
  | .array items => .array (toItems items)
  | .object fields => .object (toFields fields)

def toItems : List Value → List (Item D)
  | [] => []
  | v :: items => toItem v :: toItems items

def toFields : List (List UInt8 × Value) → List (List UInt8 × Item D)
  | [] => []
  | (name, v) :: fields => (name, toItem v) :: toFields fields

end

end Items

/-- The C library, how values are rounded, and what is in new memory. -/
structure Platform (D : Type) where
  doubles : Doubles D
  toDouble : ℚ → D
  junk : Junk

variable (P : Platform D)

/-- `print_and_free`, into a buffer on the stack: the text in it. -/
def printAndFree (root : Value) (cap : ℕ) : Option (List UInt8) :=
  match printPreallocated P.doubles P.junk (toItem P.toDouble root)
      ((List.range cap).map (P.junk cap)) false with
  | some (true, buf) => some (cString buf)
  | _ => none

def jsonBuild (hw : Hardware) (root : Value) (cap : ℕ) : Option (List UInt8) :=
  (hw.build root).bind fun root => printAndFree P root cap

@[simps jsonBuildEchoResp jsonBuildStatusResp jsonBuildSensorAht30Resp jsonBuildSensorBh1750Resp
  jsonBuildActuatorResp jsonBuildErrorResp]
def cjsonBackend (L : Library) (hw : Hardware) : Backend :=
  { jsonBackend L hw with
    jsonBuildEchoResp := fun msg => jsonBuild P hw (echoResp msg) respBufSize
    jsonBuildStatusResp := fun uptime workers =>
      jsonBuild P hw (statusResp uptime workers) respBufSize
    jsonBuildSensorAht30Resp := fun t h => jsonBuild P hw (sensorAht30Resp t h) respBufSize
    jsonBuildSensorBh1750Resp := fun lux => jsonBuild P hw (sensorBh1750Resp lux) respBufSize
    jsonBuildActuatorResp := fun message => jsonBuild P hw (actuatorResp message) respBufSize
    jsonBuildErrorResp := fun errCode message =>
      jsonBuild P hw (errorResp errCode message) errBufSize }

theorem jsonBuild_eq {hw : Hardware} (h : hw.BuildsAll) (root : Value) (cap : ℕ) :
    jsonBuild P hw root cap = printAndFree P root cap := by
  rw [jsonBuild, h.build_eq, Option.bind_some]

variable {P}

theorem printAndFree_eq (hP : P.doubles.Lawful) (root : Value) {cap : ℕ} (hcap : cap ≤ intMax) :
    printAndFree P root cap =
      if Fits P.doubles false cap (toItem P.toDouble root) then
        some (text P.doubles false 0 (toItem P.toDouble root)) else none := by
  have hlen : ((List.range cap).map (P.junk cap)).length = cap := by
    rw [List.length_map, List.length_range]
  obtain ⟨buffer', -, hprint, htext⟩ := printPreallocated_eq hP P.junk
    (toItem P.toDouble root) (hlen.trans_le hcap) false
  rw [hlen] at hprint htext
  rw [printAndFree, hprint]
  by_cases hfits : Fits P.doubles false cap (toItem P.toDouble root)
  · rw [if_pos hfits, decide_eq_true hfits]
    exact congrArg some (htext hfits)
  · rw [if_neg hfits, decide_eq_false hfits]

/-! ### How long a text is -/

mutual

/-- A bound for the length of the text of a value: a number has at most 25
characters. -/
def sizeBound : Value → ℕ
  | .null => 4
  | .bool _ => 5
  | .number _ => 25
  | .string bytes => (literal bytes).length
  | .array items => 2 + sizeBoundOfItems items
  | .object fields => 2 + sizeBoundOfFields fields

def sizeBoundOfItems : List Value → ℕ
  | [] => 0
  | v :: items => sizeBound v + 1 + sizeBoundOfItems items

def sizeBoundOfFields : List (List UInt8 × Value) → ℕ
  | [] => 0
  | (name, v) :: fields => (literal name).length + 1 + sizeBound v + 1 + sizeBoundOfFields fields

end

mutual

theorem length_text_le {F : Doubles D} (hF : F.Lawful) (toDouble : ℚ → D) (depth : ℕ) :
    (v : Value) → (text F false depth (toItem toDouble v)).length ≤ sizeBound v
  | .null => le_rfl
  | .bool false => le_rfl
  | .bool true => by rw [toItem, text, sizeBound]; decide
  | .number q => (isNumberText_numberText hF (toDouble q)).1
  | .string bytes => le_rfl
  | .array items => by
      have h := length_textElements_le hF toDouble (depth + 1) items
      simp only [toItem, text, sizeBound, List.length_cons, List.length_append, List.length_nil]
      omega
  | .object fields => by
      have h := length_textMembers_le hF toDouble (depth + 1) fields
      simp only [toItem, text, sizeBound, openBrace, indent, List.length_cons, List.length_append,
        List.length_nil, Bool.false_eq_true, if_false]
      omega

theorem length_textElements_le {F : Doubles D} (hF : F.Lawful) (toDouble : ℚ → D) (depth : ℕ) :
    (items : List Value) →
      (textElements F false depth (toItems toDouble items)).length ≤ sizeBoundOfItems items
  | [] => le_rfl
  | v :: items => by
      have h := length_text_le hF toDouble depth v
      have h' := length_textElements_le hF toDouble depth items
      have hsep : (if (toItems toDouble items).isEmpty then []
          else elementSeparator false).length ≤ 1 := by
        split <;> decide
      simp only [toItems, textElements, sizeBoundOfItems, List.length_append]
      omega

theorem length_textMembers_le {F : Doubles D} (hF : F.Lawful) (toDouble : ℚ → D) (depth : ℕ) :
    (fields : List (List UInt8 × Value)) →
      (textMembers F false depth (toFields toDouble fields)).length ≤ sizeBoundOfFields fields
  | [] => le_rfl
  | (name, v) :: fields => by
      have h := length_text_le hF toDouble depth v
      have h' := length_textMembers_le hF toDouble depth fields
      have hsep : (memberSeparator false (!(toFields toDouble fields).isEmpty)).length ≤ 1 := by
        unfold memberSeparator
        split <;> decide
      simp only [toFields, textMembers, sizeBoundOfFields, List.length_append, indent, colon,
        List.length_cons, List.length_nil, Bool.false_eq_true, if_false]
      omega

end

theorem fits_of_sizeBound (hP : P.doubles.Lawful) {root : Value} {cap : ℕ}
    (hsize : sizeBound root + 2 ≤ cap)
    (hnesting : (toItem P.toDouble root).nesting ≤ nestingLimit) :
    Fits P.doubles false cap (toItem P.toDouble root) := by
  have hlen := length_text_le hP P.toDouble 0 root
  exact ⟨by omega, hnesting⟩

theorem nesting_echoResp (toDouble : ℚ → D) (msg : List UInt8) :
    (toItem toDouble (echoResp msg)).nesting ≤ nestingLimit := by
  simp only [echoResp, statusOk, stringField, toItem, toFields, Item.nesting,
    Item.nestingOfFields, max_self]
  decide

/-! ### What a request is answered with -/

/-- Whether a driver does what it is asked for. -/
def sets (hw : Hardware) (deviceId state value : ℤ) : Bool :=
  if deviceId = acActuatorId then hw.setAc state value
  else if deviceId = ledActuatorId then hw.setLed state value
  else if deviceId = fanActuatorId then hw.setFan state value
  else false

/-- The object that answers a request, if the request can be parsed and the
driver does what it is asked for. -/
def okResp (L : Library) (hw : Hardware) (t : Task) : Option Value :=
  if t.type = msgStatus then some (statusResp hw.now numWorkers)
  else
    (L.parse t.payload).bind fun doc =>
      if t.type = msgEcho then
        match doc.item (ofString "msg") with
        | some (.string msg) => some (echoResp msg)
        | _ => none
      else if t.type = msgGetSensor then
        (intField doc "sensor_id").bind fun sensorId =>
          if sensorId = aht30SensorId then hw.aht30.map fun x => sensorAht30Resp x.1 x.2
          else if sensorId = bh1750SensorId then hw.bh1750.map sensorBh1750Resp
          else none
      else if t.type = msgSetActuator then
        match intField doc "device_id", intField doc "state", intField doc "value" with
        | some deviceId, some state, some value =>
            if sets hw deviceId state value then some (actuatorResp "actuator_control_success")
            else none
        | _, _, _ => none
      else none

/-- A message that is to be echoed has at most 127 bytes, and none of them
is zero. -/
def EchoFits (L : Library) (t : Task) : Prop :=
  ∀ doc msg, t.type = msgEcho → L.parse t.payload = some doc →
    doc.item (ofString "msg") = some (.string msg) → msg.length < msgInSize ∧ 0 ∉ msg

/-- The object that a worker builds, with what `json_parse_echo_req` leaves
of a message. -/
def built (L : Library) (hw : Hardware) (t : Task) : Option Value :=
  if t.type = msgEcho then (jsonParseEchoReq L t.payload msgInSize).map echoResp
  else if t.type = msgStatus then some (statusResp hw.now numWorkers)
  else if t.type = msgGetSensor then
    (jsonParseGetSensorReq L t.payload).bind fun sensorId =>
      if sensorId = aht30SensorId then hw.aht30.map fun x => sensorAht30Resp x.1 x.2
      else if sensorId = bh1750SensorId then hw.bh1750.map sensorBh1750Resp
      else none
  else if t.type = msgSetActuator then
    (jsonParseSetActuatorReq L t.payload).bind fun x =>
      if setActuator (jsonBackend L hw) x.1 x.2.1 x.2.2 = some true then
        some (actuatorResp "actuator_control_success")
      else none
  else none

theorem parsePayload_eq (L : Library) (payload : List UInt8) :
    parsePayload L payload = L.parse payload := by
  unfold parsePayload
  split
  next hnil => rw [List.length_eq_zero_iff.mp hnil, L.parse_nil]
  next => rfl

theorem setActuator_eq_some_true (L : Library) (hw : Hardware) (deviceId state value : ℤ) :
    setActuator (jsonBackend L hw) deviceId state value = some true ↔
      sets hw deviceId state value = true := by
  unfold setActuator sets
  repeat' split
  · exact Option.some_inj
  · exact Option.some_inj
  · exact Option.some_inj
  · simp

theorem built_eq_okResp {L : Library} {t : Task} (h : EchoFits L t) (hw : Hardware) :
    built L hw t = okResp L hw t := by
  unfold built okResp
  simp only [jsonParseEchoReq, jsonParseGetSensorReq, jsonParseSetActuatorReq, parsePayload_eq,
    setActuator_eq_some_true, if_neg (show msgInSize ≠ 0 by decide)]
  by_cases hecho : t.type = msgEcho
  · have hstatus : t.type ≠ msgStatus := by
      rw [hecho]
      decide
    rw [if_pos hecho, if_neg hstatus]
    cases hdoc : L.parse t.payload with
    | none => rfl
    | some doc =>
        rw [Option.bind_some, if_pos hecho]
        dsimp only
        cases hitem : doc.item (ofString "msg") with
        | none => rfl
        | some v =>
            cases v with
            | string msg =>
                -- nothing is cut off
                have hwhole := (take_cString_eq_iff msg).mpr (h doc msg hecho hdoc hitem)
                exact congrArg (fun cut => some (echoResp cut)) hwhole
            | _ => rfl
  rw [if_neg hecho]
  split
  · rfl
  cases L.parse t.payload with
  | none => simp
  | some doc =>
      dsimp only [Option.bind_some]
      split
      · rfl
      split
      · cases intField doc "device_id" <;> cases intField doc "state" <;>
          cases intField doc "value" <;> rfl
      · rfl

inductive Built (t : Task) : Value → Prop
  | echo (type : t.type = msgEcho) (msg : List UInt8) : Built t (echoResp msg)
  | status (uptime workers : ℕ) : Built t (statusResp uptime workers)
  | aht30 (temperature humidity : ℚ) : Built t (sensorAht30Resp temperature humidity)
  | bh1750 (lux : ℚ) : Built t (sensorBh1750Resp lux)
  | actuator : Built t (actuatorResp "actuator_control_success")

theorem built_spec {L : Library} {hw : Hardware} {t : Task} {root : Value}
    (h : built L hw t = some root) : Built t root := by
  unfold built at h
  split at h
  next hecho =>
    obtain ⟨msg, -, rfl⟩ := Option.map_eq_some_iff.mp h
    exact .echo hecho msg
  split at h
  · cases h
    exact .status _ _
  split at h
  · obtain ⟨sensorId, -, h⟩ := Option.bind_eq_some_iff.mp h
    split at h
    · obtain ⟨x, -, rfl⟩ := Option.map_eq_some_iff.mp h
      exact .aht30 _ _
    split at h
    · obtain ⟨lux, -, rfl⟩ := Option.map_eq_some_iff.mp h
      exact .bh1750 lux
    · cases h
  split at h
  · obtain ⟨x, -, h⟩ := Option.bind_eq_some_iff.mp h
    cases (Option.ite_none_right_eq_some.mp h).2
    exact .actuator
  · cases h

theorem Built.fits (hP : P.doubles.Lawful) {t : Task} {root : Value} (h : Built t root)
    (hlen : t.type = msgEcho →
      (text P.doubles false 0 (toItem P.toDouble root)).length + 2 ≤ respBufSize) :
    Fits P.doubles false respBufSize (toItem P.toDouble root) := by
  cases h with
  | echo type msg => exact ⟨hlen type, nesting_echoResp _ msg⟩
  | status uptime workers =>
      refine fits_of_sizeBound hP ?_ ?_
      · simp only [statusResp, statusOk, stringField, numberField, sizeBound, sizeBoundOfFields]
        decide +kernel
      · simp only [statusResp, statusOk, stringField, numberField, toItem, toFields, Item.nesting,
          Item.nestingOfFields]
        decide
  | aht30 temperature humidity =>
      refine fits_of_sizeBound hP ?_ ?_
      · simp only [sensorAht30Resp, statusOk, stringField, numberField, sizeBound,
          sizeBoundOfFields]
        decide +kernel
      · simp only [sensorAht30Resp, statusOk, stringField, numberField, toItem, toFields,
          Item.nesting, Item.nestingOfFields]
        decide
  | bh1750 lux =>
      refine fits_of_sizeBound hP ?_ ?_
      · simp only [sensorBh1750Resp, statusOk, stringField, numberField, sizeBound,
          sizeBoundOfFields]
        decide +kernel
      · simp only [sensorBh1750Resp, statusOk, stringField, numberField, toItem, toFields,
          Item.nesting, Item.nestingOfFields]
        decide
  | actuator =>
      refine fits_of_sizeBound hP ?_ ?_
      · simp only [actuatorResp, statusOk, stringField, sizeBound, sizeBoundOfFields]
        decide +kernel
      · simp only [actuatorResp, statusOk, stringField, toItem, toFields, Item.nesting,
          Item.nestingOfFields]
        decide

def answer (P : Platform D) (t : Task) (type : UInt16) (root : Value) : Response :=
  ⟨t.slot, t.generation, type, t.requestId, text P.doubles false 0 (toItem P.toDouble root)⟩

/-- The text of `root` fits a buffer, and it is the payload of the response. -/
def Carries (P : Platform D) (t : Task) (type : UInt16) (cap : ℕ) (root : Value)
    (resp : Option Response) : Prop :=
  Fits P.doubles false cap (toItem P.toDouble root) ∧ resp = some (answer P t type root)

def ReportsError (P : Platform D) (t : Task) (resp : Option Response) : Prop :=
  ∃ errCode message, Carries P t msgError errBufSize (errorResp errCode message) resp

def Meets (P : Platform D) (t : Task) (ok : Option Value) (resp : Option Response) : Prop :=
  match ok with
  | some root => Carries P t msgResponse respBufSize root resp ∨
      ¬ Fits P.doubles false respBufSize (toItem P.toDouble root) ∧ ReportsError P t resp
  | none => ReportsError P t resp

section Meets

variable {L : Library} {hw : Hardware} {t : Task}

theorem makeResponse_carries (hP : P.doubles.Lawful) (hmalloc : hw.mallocOk = true) (t : Task)
    (type : UInt16) {root : Value} {cap : ℕ} (hcap : cap ≤ maxPayload) {buf : List UInt8}
    (hbuf : printAndFree P root cap = some buf) :
    Carries P t type cap root
      (makeResponse (cjsonBackend P L hw) t.slot t.generation type t.requestId buf) := by
  have hmax : maxPayload ≤ intMax := by decide
  rw [printAndFree_eq hP root (hcap.trans hmax)] at hbuf
  obtain ⟨hfits, htext⟩ := Option.ite_none_right_eq_some.mp hbuf
  cases htext
  have hlen : (text P.doubles false 0 (toItem P.toDouble root)).length ≤ maxPayload := by
    have := hfits.1
    omega
  have hmalloc' : (cjsonBackend P L hw).mallocOk = true := hmalloc
  rw [makeResponse, if_pos hmalloc', List.take_of_length_le hlen]
  exact ⟨hfits, rfl⟩

theorem printAndFree_internalError (hP : P.doubles.Lawful) (errCode : ErrCode) :
    printAndFree P (errorResp errCode "internal_error") errBufSize =
      some (text P.doubles false 0 (toItem P.toDouble (errorResp errCode "internal_error"))) := by
  rw [printAndFree_eq hP _ (by decide), if_pos]
  refine fits_of_sizeBound hP ?_ ?_
  · simp only [errorResp, stringField, numberField, sizeBound, sizeBoundOfFields]
    decide +kernel
  · simp only [errorResp, stringField, numberField, toItem, toFields, Item.nesting,
      Item.nestingOfFields, max_self]
    decide

variable (hP : P.doubles.Lawful) (hmalloc : hw.mallocOk = true) (hbuilds : hw.BuildsAll)

include hP hmalloc hbuilds

theorem makeErrorResponse_meets (t : Task) (errCode : ErrCode) (message : String) :
    ReportsError P t (makeErrorResponse (cjsonBackend P L hw) t errCode message) := by
  unfold makeErrorResponse
  simp only [cjsonBackend_jsonBuildErrorResp, jsonBuild_eq P hbuilds,
    printAndFree_internalError hP errCode]
  split
  next hbuf => exact ⟨_, _, makeResponse_carries hP hmalloc t msgError (by decide) hbuf⟩
  next =>
    exact ⟨_, _, makeResponse_carries hP hmalloc t msgError (by decide)
      (printAndFree_internalError hP errCode)⟩

theorem finishTask_meets (t : Task) (root : Value) :
    Meets P t (some root)
      (finishTask (cjsonBackend P L hw) t (printAndFree P root respBufSize)) := by
  have hprint := printAndFree_eq hP root (by decide : respBufSize ≤ intMax)
  by_cases hfits : Fits P.doubles false respBufSize (toItem P.toDouble root)
  · rw [if_pos hfits] at hprint
    rw [hprint, finishTask]
    exact .inl (makeResponse_carries hP hmalloc t msgResponse (by decide) hprint)
  · rw [if_neg hfits] at hprint
    rw [hprint, finishTask]
    exact .inr ⟨hfits, makeErrorResponse_meets hP hmalloc hbuilds t _ _⟩

theorem processGetSensor_meets (t : Task) (sensorId : ℤ) :
    Meets P t
      (if sensorId = aht30SensorId then hw.aht30.map fun x => sensorAht30Resp x.1 x.2
        else if sensorId = bh1750SensorId then hw.bh1750.map sensorBh1750Resp
        else none)
      (processGetSensor (cjsonBackend P L hw) t sensorId) := by
  have haht30 : (cjsonBackend P L hw).aht30 = hw.aht30 := rfl
  have hbh1750 : (cjsonBackend P L hw).bh1750 = hw.bh1750 := rfl
  unfold processGetSensor
  simp only [cjsonBackend_jsonBuildSensorAht30Resp, cjsonBackend_jsonBuildSensorBh1750Resp,
    jsonBuild_eq P hbuilds, haht30, hbh1750]
  split
  · cases hw.aht30 with
    | none => exact makeErrorResponse_meets hP hmalloc hbuilds t _ _
    | some x => exact finishTask_meets hP hmalloc hbuilds t _
  split
  · cases hw.bh1750 with
    | none => exact makeErrorResponse_meets hP hmalloc hbuilds t _ _
    | some lux => exact finishTask_meets hP hmalloc hbuilds t _
  · exact makeErrorResponse_meets hP hmalloc hbuilds t _ _

theorem processSetActuator_meets (t : Task) (deviceId state value : ℤ) :
    Meets P t
      (if setActuator (jsonBackend L hw) deviceId state value = some true then
        some (actuatorResp "actuator_control_success") else none)
      (processSetActuator (cjsonBackend P L hw) t deviceId state value) := by
  have hset : setActuator (cjsonBackend P L hw) deviceId state value =
      setActuator (jsonBackend L hw) deviceId state value := by
    unfold setActuator cjsonBackend
    with_reducible rfl
  unfold processSetActuator
  simp only [cjsonBackend_jsonBuildActuatorResp, jsonBuild_eq P hbuilds, hset]
  cases setActuator (jsonBackend L hw) deviceId state value with
  | none => exact makeErrorResponse_meets hP hmalloc hbuilds t _ _
  | some ok =>
      cases ok with
      | false => exact makeErrorResponse_meets hP hmalloc hbuilds t _ _
      | true => exact finishTask_meets hP hmalloc hbuilds t _

theorem processHardwareTask_meets (t : Task) :
    Meets P t (built L hw t) (processHardwareTask (cjsonBackend P L hw) t) := by
  have herror : ∀ errCode message,
      Meets P t none (makeErrorResponse (cjsonBackend P L hw) t errCode message) :=
    makeErrorResponse_meets hP hmalloc hbuilds t
  have hecho : (cjsonBackend P L hw).jsonParseEchoReq t.payload =
    jsonParseEchoReq L t.payload msgInSize := rfl
  have hsensor : (cjsonBackend P L hw).jsonParseGetSensorReq t.payload =
    jsonParseGetSensorReq L t.payload := rfl
  have hactuator : (cjsonBackend P L hw).jsonParseSetActuatorReq t.payload =
    jsonParseSetActuatorReq L t.payload := rfl
  have hnow : (cjsonBackend P L hw).now = hw.now := rfl
  unfold processHardwareTask built
  simp only [cjsonBackend_jsonBuildEchoResp, cjsonBackend_jsonBuildStatusResp,
    jsonBuild_eq P hbuilds, hecho, hsensor, hactuator, hnow]
  split
  · cases jsonParseEchoReq L t.payload msgInSize with
    | none => exact herror _ _
    | some msg => exact finishTask_meets hP hmalloc hbuilds t _
  split
  · exact finishTask_meets hP hmalloc hbuilds t _
  split
  · cases jsonParseGetSensorReq L t.payload with
    | none => exact herror _ _
    | some sensorId => exact processGetSensor_meets hP hmalloc hbuilds t sensorId
  split
  · cases jsonParseSetActuatorReq L t.payload with
    | none => exact herror _ _
    | some x => exact processSetActuator_meets hP hmalloc hbuilds t x.1 x.2.1 x.2.2
  · exact herror _ _

/-- The clock says whether a task is executed, and whether that took too
long. -/
theorem workerTurn_meets {now : ℕ} (hnow : now ≤ t.timeoutMs) (now' : ℕ) :
    Meets P t (if t.timeoutMs < now' then none else built L hw t)
      (workerTurn (cjsonBackend P L hw) t now now') := by
  unfold workerTurn
  rw [if_neg hnow.not_gt]
  dsimp only
  split
  · exact makeErrorResponse_meets hP hmalloc hbuilds t _ _
  · exact processHardwareTask_meets hP hmalloc hbuilds t

end Meets

/-- **The workers refine `okResp`.** A worker that has memory answers every
task it takes before its time has run out, whatever its type and its
bytes. If it is done in time, the response is the text of the object that
the request is to be answered with, unless that is an echoed message whose
text is too long; if there is no such object, or it is too long, or the
time has run out, it is the text of an error. -/
theorem worker_refines (hP : P.doubles.Lawful) {L : Library} {hw : Hardware}
    (hmalloc : hw.mallocOk = true) (hbuilds : hw.BuildsAll) {t : Task} (hecho : EchoFits L t)
    {now : ℕ} (hnow : now ≤ t.timeoutMs) (now' : ℕ) :
    ∃ r, workerTurn (cjsonBackend P L hw) t now now' = some r ∧ r.Answers t ∧
      (∀ root, now' ≤ t.timeoutMs → okResp L hw t = some root →
        (t.type = msgEcho →
          (text P.doubles false 0 (toItem P.toDouble root)).length + 2 ≤ respBufSize) →
        r = answer P t msgResponse root) ∧
      (t.timeoutMs < now' ∨ okResp L hw t = none ∨
          (∃ root, okResp L hw t = some root ∧
            respBufSize < (text P.doubles false 0 (toItem P.toDouble root)).length + 2) →
        ∃ errCode message, r = answer P t msgError (errorResp errCode message)) := by
  have hmeets : Meets P t (if t.timeoutMs < now' then none else built L hw t)
      (workerTurn (cjsonBackend P L hw) t now now') :=
    workerTurn_meets hP hmalloc hbuilds hnow now'
  rw [built_eq_okResp hecho] at hmeets
  have hbuilt : ∀ {root}, okResp L hw t = some root → Built t root := fun h =>
    built_spec ((built_eq_okResp hecho hw).trans h)
  cases hok : (if t.timeoutMs < now' then none else okResp L hw t) with
  | none =>
      rw [hok] at hmeets
      obtain ⟨errCode, message, -, hr⟩ := hmeets
      refine ⟨_, hr, workerTurn_answers hr, ?_, fun _ => ⟨errCode, message, rfl⟩⟩
      intro root hnow' hroot
      rw [if_neg hnow'.not_gt, hroot] at hok
      cases hok
  | some root =>
      rw [hok] at hmeets
      obtain ⟨hlate, hroot⟩ := Option.ite_none_left_eq_some.mp hok
      obtain ⟨hfits, hr⟩ | ⟨hlong, errCode, message, -, hr⟩ := hmeets
      · refine ⟨_, hr, workerTurn_answers hr, ?_, ?_⟩
        · intro root' _ hroot' _
          rw [Option.some.inj (hroot.symm.trans hroot')]
        · rintro (hlate' | hnone | ⟨root', hroot', hlong⟩)
          · exact absurd hlate' hlate
          · cases hroot.symm.trans hnone
          · rw [← Option.some.inj (hroot.symm.trans hroot')] at hlong
            exact absurd hfits.1 (Nat.not_le_of_lt hlong)
      · refine ⟨_, hr, workerTurn_answers hr, ?_, fun _ => ⟨errCode, message, rfl⟩⟩
        intro root' _ hroot' hlen
        rw [← Option.some.inj (hroot.symm.trans hroot')] at hlen
        exact absurd ((hbuilt hroot).fits hP hlen) hlong

/-! ### The gateway -/

def Says (root : Value) (status : String) : Prop :=
  root.item (ofString "status") = some (.string (ofString status))

/-- The payload is the whole text of an object, and the type says what the
object says. -/
def Whole (P : Platform D) (r : Response) : Prop :=
  ∃ root, r.payload = text P.doubles false 0 (toItem P.toDouble root) ∧
    r.payload.length < respBufSize ∧
    (r.type = msgResponse ∧ Says root "ok" ∨ r.type = msgError ∧ Says root "error")

theorem Built.status_ok {t : Task} {root : Value} (h : Built t root) : Says root "ok" := by
  cases h <;> rfl

theorem ReportsError.whole {t : Task} {r : Response} (h : ReportsError P t (some r)) :
    Whole P r := by
  obtain ⟨errCode, message, hfits, hr⟩ := h
  cases hr
  have hsize : errBufSize ≤ respBufSize := by decide
  exact ⟨_, rfl, Nat.lt_of_succ_lt (hfits.1.trans hsize), .inr ⟨rfl, rfl⟩⟩

theorem Meets.whole {t : Task} {ok : Option Value} {r : Response} (h : Meets P t ok (some r))
    (hok : ∀ root, ok = some root → Built t root) : Whole P r := by
  cases ok with
  | some root =>
      obtain ⟨hfits, hr⟩ | ⟨-, herror⟩ := h
      · cases hr
        exact ⟨root, rfl, Nat.lt_of_succ_lt hfits.1, .inl ⟨rfl, (hok root rfl).status_ok⟩⟩
      · exact herror.whole
  | none => exact ReportsError.whole h

def integerPlatform : Platform ℤ := ⟨integers, fun q => ⌊q⌋, fun _ _ => 7⟩

theorem worker_refines_lettersTask :
    ∃ r, workerTurn (cjsonBackend integerPlatform twoLetters.library idleHardware)
        (lettersTask 2) 0 0 = some r ∧
      okResp twoLetters.library idleHardware (lettersTask 2) = some (echoResp (letters 2)) ∧
      r = answer integerPlatform (lettersTask 2) msgResponse (echoResp (letters 2)) := by
  have hok : okResp twoLetters.library idleHardware (lettersTask 2) =
      some (echoResp (letters 2)) := by decide +kernel
  have hecho : EchoFits twoLetters.library (lettersTask 2) := by
    intro doc msg _ hdoc hmsg
    cases (parse_echoReqText (T := twoLetters) rfl).symm.trans hdoc
    cases (item_msg_echoReq 2).symm.trans hmsg
    decide
  obtain ⟨r, hr, -, hresp, -⟩ := worker_refines (P := integerPlatform) integers_lawful
    (rfl : idleHardware.mallocOk = true) idleHardware_buildsAll hecho
    (Nat.zero_le (lettersTask 2).timeoutMs) 0
  exact ⟨r, hr, hok, hresp _ (Nat.zero_le _) hok fun _ => by decide +kernel⟩

end LinuxMiniProjects.Gateway.OverCJson
