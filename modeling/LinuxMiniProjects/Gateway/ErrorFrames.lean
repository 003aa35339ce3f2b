import LinuxMiniProjects.Lib.Machine
import LinuxMiniProjects.Gateway.ClientFrames
import LinuxMiniProjects.Gateway.PayloadJson
import LinuxMiniProjects.Gateway.Routing

/-!
Error frames, at the gateway and at its client.

The gateway makes frames of type `MSG_ERROR` in two places. A worker
prints an object with the error code, and this is what the client
expects: whatever comes, `do_request` parses the payload as JSON. The
reader of the main thread answers a bad header or a wrong checksum with
`build_error_packet`, whose payload is the error code as one byte. There
is no text in it, and the client takes it for a failure of its request
without learning the code.
-/

namespace LinuxMiniProjects.Gateway

open Bytes Json Machine

/-! ### The client -/

namespace TlsClient

def buildGetSensorReq (sensorId : ℤ) : Value :=
  .object [stringField "action" (ofString "get_sensor"), numberField "sensor_id" sensorId]

def buildSetActuatorReq (deviceId state value : ℤ) : Value :=
  .object [stringField "action" (ofString "set_actuator"), numberField "device_id" deviceId,
    numberField "state" state, numberField "value" value]

end TlsClient

/-! ### Responses on their way -/

structure Sys.Responses (P : Response → Prop) (s : Sys) : Prop where
  ready : ∀ {w frame r}, s.workers w = .ready frame r → P r
  queued : ∀ {x}, x ∈ s.responses → P x.2

theorem clientEvent_shared (s : Sys) (fd : ℤ) (ev : EpollMask) (es : List Event)
    (env : RequestEnv) (pushOk : Bool) :
    (s.clientEvent fd ev es env pushOk).workers = s.workers ∧
      (s.clientEvent fd ev es env pushOk).responses = s.responses := by
  have hpush : ∀ (s : Sys) (slot : ℕ) (out : ReaderOut), (s.pushTask slot pushOk out).workers =
      s.workers ∧ (s.pushTask slot pushOk out).responses = s.responses := by
    intro s slot out
    cases out with
    | push t => cases pushOk <;> exact ⟨rfl, rfl⟩
    | packet bs => exact ⟨rfl, rfl⟩
    | nothing => exact ⟨rfl, rfl⟩
  unfold Sys.clientEvent
  split
  · exact ⟨rfl, rfl⟩
  · split
    · exact ⟨rfl, rfl⟩
    · split
      · exact hpush _ _ _
      · exact ⟨rfl, rfl⟩

theorem mainStep_shared {s s' : Sys} {l : MainLabel} (h : mainStep s l = some s') :
    s'.workers = s.workers ∧ s'.responses ⊆ s.responses := by
  cases l with
  | request env pushOk =>
      simp only [mainStep] at h
      split at h
      next fd ev es _ =>
        cases h
        have hshared := clientEvent_shared s fd ev es env pushOk
        exact ⟨hshared.1, hshared.2 ▸ List.Subset.refl _⟩
      next => cases h
  | popResponse node =>
      simp only [mainStep] at h
      split at h
      next es _ =>
        cases h
        unfold Sys.drainTurn
        split
        next => exact ⟨rfl, List.Subset.refl _⟩
        next hresponses => exact ⟨rfl, hresponses ▸ List.subset_cons_self _ _⟩
      next => cases h
  | _ =>
      simp only [mainStep] at h
      split at h
      · rw [Option.some.injEq] at h
        subst h
        exact ⟨rfl, List.Subset.refl _⟩
      · cases h

namespace Sys.Responses

variable {P : Response → Prop} {s s' : Sys}

theorem setWorker (h : s.Responses P) (w : ℕ) {pc : Worker}
    (hpc : ∀ frame r, pc = .ready frame r → P r) : (s.setWorker w pc).Responses P where
  ready := by
    intro v frame r hv
    by_cases hvw : v = w
    · rw [hvw, s.setWorker_self] at hv
      exact hpc frame r hv
    · rw [s.setWorker_of_ne hvw] at hv
      exact h.ready hv
  queued := h.queued

theorem pushResponse (h : s.Responses P) {w frame : ℕ} {r : Response}
    (hpc : s.workers w = .ready frame r) :
    Sys.Responses P { s.setWorker w .pushed with responses := s.responses ++ [(frame, r)] } where
  ready := (h.setWorker w (by simp)).ready
  queued := by
    intro x hx
    rcases List.mem_append.mp hx with hx | hx
    · exact h.queued hx
    · rw [List.mem_singleton.mp hx]
      exact h.ready hpc

theorem workerStep (h : s.Responses P) {w : ℕ} {l : WorkerLabel}
    (hwork : ∀ B now now' t r, l = .work B now now' → workerTurn B t now now' = some r → P r)
    (hstep : Gateway.workerStep s w l = some s') : s'.Responses P := by
  cases l with
  | popTask k | notify =>
      simp only [Gateway.workerStep] at hstep
      split at hstep
      · cases hstep
        exact ⟨(h.setWorker w (by simp)).ready, h.queued⟩
      · cases hstep
  | work B now now' =>
      simp only [Gateway.workerStep] at hstep
      split at hstep
      · split at hstep
        next r hr =>
          cases hstep
          refine h.setWorker w ?_
          rintro _ _ ⟨⟩
          exact hwork B now now' _ _ rfl hr
        next =>
          cases hstep
          exact h.setWorker w (by simp)
      · cases hstep
  | pushResponse =>
      simp only [Gateway.workerStep] at hstep
      split at hstep
      next frame r hpc =>
        split at hstep
        · cases hstep
          exact h.setWorker w (by simp)
        · cases hstep
          exact h.pushResponse hpc
      next => cases hstep
  | leave =>
      simp only [Gateway.workerStep] at hstep
      split at hstep
      · cases hstep
        exact h.setWorker w (by simp)
      · cases hstep

theorem step {l : Label} (h : s.Responses P)
    (hwork : ∀ w B now now' t r, l = .worker w (.work B now now') →
      workerTurn B t now now' = some r → P r)
    (hstep : Gateway.step s l = some s') : s'.Responses P := by
  cases l with
  | main l =>
      obtain ⟨hworkers, hresponses⟩ := mainStep_shared hstep
      exact ⟨fun hpc => h.ready (hworkers ▸ hpc), fun hx => h.queued (hresponses hx)⟩
  | worker w l =>
      simp only [Gateway.step] at hstep
      split at hstep
      · refine h.workerStep ?_ hstep
        rintro B now now' t r rfl
        exact hwork w B now now' t r rfl
      · cases hstep
  | arrive slot item | loseTask k | shutdown =>
      cases hstep
      exact ⟨h.ready, h.queued⟩

end Sys.Responses

/-- The response was made to report an error. -/
def Reports (L : Library) (r : Response) (e : ErrCode) : Prop :=
  ∃ hw : Hardware, hw.BuildsAll ∧ ∃ t message,
    makeErrorResponse (jsonBackend L hw) t e message = some r

theorem Reports.printed {L : Library} {r : Response} {e : ErrCode} (h : Reports L r e) :
    r.type = msgError ∧ ∃ message, Printed L (errorResp e message) r.payload := by
  obtain ⟨hw, hbuilds, t, message, herror⟩ := h
  obtain ⟨htype, message', root, hroot, hprinted⟩ := makeErrorResponse_printed herror
  rw [hbuilds.build_eq] at hroot
  cases hroot
  exact ⟨htype, message', hprinted⟩

def noMessage : Table where
  entries := [(ofString ("\x7b\"status\":\"error\",\"error_code\":10," ++
    "\"message\":\"missing_or_invalid_field_msg\"\x7d"),
    errorResp .badJson "missing_or_invalid_field_msg")]
  nodup := by decide +kernel
  ended := by decide +kernel
  visible := by decide +kernel

end LinuxMiniProjects.Gateway
