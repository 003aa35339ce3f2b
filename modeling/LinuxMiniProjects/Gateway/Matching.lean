import LinuxMiniProjects.Lib.Machine
import LinuxMiniProjects.Gateway.Framing
import LinuxMiniProjects.Gateway.TlsClient

/-!
Whether an answer belongs to its request.

`do_request` takes the first frame it receives for its answer and does
not look at the request id. That is right as long as no earlier answer
can come first, and `main` does not see to that: when a command for an
actuator times out, the connection stays open, and its answer is taken
for the answer to the next request. From then on every answer is one
request late.
-/

namespace LinuxMiniProjects.Gateway.TlsClient

open Machine

/-! ### The bytes behind a request -/

def Sys.incoming (s : Sys) (buf : List UInt8) : List UInt8 := buf ++ s.ssl.unread ++ s.wire

theorem Sys.incoming_arrive {s : Sys} {b : UInt8} {bs : List UInt8} (hwire : s.wire = b :: bs)
    (n : ℕ) (buf : List UInt8) :
    Sys.incoming { s with
      ssl := { s.ssl with kernel := s.ssl.kernel ++ [.record b (bs.take n)] }
      wire := bs.drop n } buf = s.incoming buf := by
  simp [Sys.incoming, Ssl.unread, hwire]

theorem Sys.incoming_socket {s : Sys} {item : SockItem} (hitem : item.bytes = [])
    (buf : List UInt8) :
    Sys.incoming { s with ssl := { s.ssl with kernel := s.ssl.kernel ++ [item] } } buf =
      s.incoming buf := by
  simp [Sys.incoming, Ssl.unread, hitem]

/-- While the client waits for the answer to `requestId`, nothing has come
yet and nothing else can come, or everything that has come is that
answer. -/
inductive Expects (s : Sys) (requestId : UInt32) (buf : List UInt8) : Prop
  | waiting (owed : s.owed.Sublist [requestId]) (bytes : s.incoming buf = [])
  | answered (owed : s.owed = []) (r : Request) (id : r.requestId = requestId)
      (bytes : s.incoming buf = r.encode)

theorem Expects.congr {s s' : Sys} {requestId : UInt32} {buf buf' : List UInt8}
    (h : Expects s requestId buf) (howed : s'.owed = s.owed)
    (hbytes : s'.incoming buf' = s.incoming buf) : Expects s' requestId buf' := by
  cases h with
  | waiting owed bytes => exact .waiting (howed ▸ owed) (hbytes.trans bytes)
  | answered owed r id bytes => exact .answered (howed.trans owed) r id (hbytes.trans bytes)

theorem Expects.requestId_eq {s : Sys} {requestId : UInt32} {buf : List UInt8}
    (h : Expects s requestId buf) (hlen : headerSize ≤ buf.length) :
    (headerOf buf).requestId = requestId := by
  cases h with
  | waiting owed bytes =>
      rw [Sys.incoming, List.append_eq_nil_iff, List.append_eq_nil_iff] at bytes
      rw [bytes.1.1] at hlen
      exact absurd hlen (by decide)
  | answered owed r id bytes =>
      rw [Sys.incoming, List.append_assoc] at bytes
      rw [← headerOf_append hlen (s.ssl.unread ++ s.wire), bytes, r.headerOf_encode, ← id]
      rfl

/-! ### Receiving -/

/-- The check never invents or drops bytes, and a frame has a header. -/
theorem recvCheck_spec (cap : ℕ) (buf : List UInt8) :
    recvCheck cap buf = .again buf ∨ recvCheck cap buf = .failed ∨
      headerSize ≤ buf.length ∧ ∃ type payload, recvCheck cap buf = .frame type payload buf := by
  unfold recvCheck
  split
  · exact .inl rfl
  next hlen =>
    dsimp only
    split
    · exact .inr (.inl rfl)
    split
    · exact .inl rfl
    split
    · exact .inr (.inl rfl)
    split
    · exact .inr (.inl rfl)
    · exact .inr (.inr ⟨by omega, _, _, rfl⟩)

inductive Recv (buf : List UInt8) (ssl : Ssl) : RecvTurn × Ssl → Prop
  | again (buf' : List UInt8) (ssl' : Ssl) (bytes : buf' ++ ssl'.unread = buf ++ ssl.unread) :
      Recv buf ssl (.again buf', ssl')
  | failed (ssl' : Ssl) : Recv buf ssl (.failed, ssl')
  | frame (type : UInt16) (payload buf' : List UInt8) (ssl' : Ssl)
      (length : headerSize ≤ buf'.length) (bytes : buf' ++ ssl'.unread = buf ++ ssl.unread) :
      Recv buf ssl (.frame type payload buf', ssl')

theorem recvTurn_spec (cap : ℕ) (buf : List UInt8) (ssl : Ssl) :
    Recv buf ssl (recvTurn cap buf ssl) := by
  unfold recvTurn
  split
  next => exact .failed _
  next => exact .failed _
  next b bs ssl' h =>
    obtain ⟨-, hunread, -⟩ := sslRead_data h (List.cons_ne_nil b bs)
    have hbytes : buf ++ b :: bs ++ ssl'.unread = buf ++ ssl.unread := by
      rw [hunread, List.append_assoc]
    obtain hr | hr | ⟨hlen, type, payload, hr⟩ := recvCheck_spec cap (buf ++ b :: bs)
    · rw [hr]
      exact .again _ ssl' hbytes
    · rw [hr]
      exact .failed ssl'
    · rw [hr]
      exact .frame type payload _ ssl' hlen hbytes

/-! ### The invariant -/

def Matched (s : Sys) : Prop :=
  ∀ r ∈ s.returned, (headerOf r.buf).requestId = r.requestId

structure Inv (s : Sys) : Prop where
  matched : Matched s
  expects : ∀ stage requestId buf, s.pc = .receiving stage requestId buf → Expects s requestId buf

def Settled (s : Sys) : Prop := s.owed = [] ∧ s.wire = [] ∧ s.ssl.unread = []

def Sys.sends (C : Codec) (s : Sys) : Bool :=
  match s.pc with
  | .ready stage => (s.data.request C stage).isSome
  | _ => false

/-- No request is sent before all earlier ones of the connection have been
answered or dropped, and the answers been read. The gateway sends nothing
but answers. -/
def StartsSettled (C : Codec) (s : Sys) : Label → Prop
  | .start _ => s.sends C = true → Settled s
  | .stray _ => False
  | _ => True

instance (C : Codec) (s : Sys) (l : Label) : Decidable (StartsSettled C s l) := by
  cases l <;> unfold StartsSettled Settled <;> infer_instance

theorem Inv.environment {s s' : Sys} (h : Inv s) (hreturned : s'.returned = s.returned)
    (hpc : s'.pc = s.pc)
    (hexpects : ∀ {requestId buf}, Expects s requestId buf → Expects s' requestId buf) :
    Inv s' := by
  refine ⟨?_, ?_⟩
  · intro r hr
    rw [hreturned] at hr
    exact h.matched r hr
  · intro stage requestId buf hs
    rw [hpc] at hs
    exact hexpects (h.expects stage requestId buf hs)

theorem Inv.of_not_receiving {s : Sys} (h : Matched s)
    (hpc : ∀ stage requestId buf, s.pc ≠ .receiving stage requestId buf) : Inv s :=
  ⟨h, fun stage requestId buf hs => absurd hs (hpc stage requestId buf)⟩

theorem Matched.finish {s : Sys} (h : Matched s) (stage : Stage) (rc : Option Json) :
    Inv (s.finish stage rc) := by
  unfold Sys.finish
  split
  · exact .of_not_receiving h (by simp)
  · exact .of_not_receiving h (by simp)

section Steps

variable {C : Codec} {s : Sys}

theorem Inv.begin (h : Inv s) {stage : Stage} (hpc : s.pc = .ready stage) (sendOk : Bool)
    (hok : s.sends C = true → Settled s) : Inv (s.begin C stage sendOk) := by
  unfold Sys.begin
  split
  next => exact .of_not_receiving h.matched (by simp)
  next => exact h.matched.finish stage none
  next json hrequest =>
    dsimp only
    have hmatched : Matched { s with
        data := { s.data with nextRequestId := s.data.nextRequestId + 1 } } := h.matched
    split
    · exact hmatched.finish stage none
    split
    · exact hmatched.finish stage none
    · -- the connection is settled, so the new request is the only one
      obtain ⟨howed, hwire, hunread⟩ := hok (by simp [Sys.sends, hpc, hrequest])
      refine ⟨h.matched, fun stage' requestId buf hreceiving => ?_⟩
      cases hreceiving
      refine .waiting ?_ ?_
      · simp [howed]
      · simp [Sys.incoming, hunread, hwire]

theorem Inv.receive (h : Inv s) {stage : Stage} {requestId : UInt32} {buf : List UInt8}
    (hpc : s.pc = .receiving stage requestId buf) : Inv (s.receive C stage requestId buf) := by
  have hexpects := h.expects stage requestId buf hpc
  have hspec := recvTurn_spec maxPayload buf s.ssl
  unfold Sys.receive
  generalize recvTurn maxPayload buf s.ssl = turn at hspec
  cases hspec with
  | again buf' ssl' bytes =>
      refine ⟨h.matched, fun stage' requestId' buf'' hreceiving => ?_⟩
      cases hreceiving
      exact hexpects.congr rfl (by rw [Sys.incoming, bytes, Sys.incoming])
  | failed ssl' =>
      have hmatched : Matched { s with ssl := ssl' } := h.matched
      exact hmatched.finish stage none
  | frame type payload buf' ssl' length bytes =>
      dsimp only
      split
      next =>
        have hmatched : Matched { s with ssl := ssl' } := h.matched
        exact hmatched.finish stage none
      next resp _ =>
        -- the frame is what the client expects
        have hexpects' : Expects { s with ssl := ssl' } requestId buf' :=
          hexpects.congr rfl (by rw [Sys.incoming, bytes, Sys.incoming])
        have hmatched : Matched { s with
            ssl := ssl', returned := s.returned ++ [⟨requestId, buf'⟩] } := by
          intro r hr
          obtain hr | rfl := List.mem_append.mp hr |>.imp_right List.mem_singleton.mp
          · exact h.matched r hr
          · exact hexpects'.requestId_eq length
        exact hmatched.finish stage (some resp)

theorem eq_of_mem_owed {owed : List UInt32} {expected requestId : UInt32}
    (h : owed.Sublist [expected]) (hmem : requestId ∈ owed) :
    requestId = expected ∧ owed = [requestId] := by
  obtain howed | howed := List.sublist_singleton.mp h
  · rw [howed] at hmem
    cases hmem
  · rw [howed, List.mem_singleton] at hmem
    rw [hmem]
    exact ⟨rfl, howed⟩

theorem Expects.reply {buf : List UInt8} {expected : UInt32} (h : Expects s expected buf)
    (type : UInt16) {requestId : UInt32} {payload : List UInt8} (hmem : requestId ∈ s.owed)
    (hlen : payload.length ≤ maxPayload) :
    Expects { s with
      owed := s.owed.erase requestId
      wire := s.wire ++ packet type requestId payload } expected buf := by
  cases h with
  | waiting owed bytes =>
      obtain ⟨rfl, howed⟩ := eq_of_mem_owed owed hmem
      refine .answered (by simp [howed]) ⟨type, requestId, payload, hlen⟩ rfl ?_
      rw [Sys.incoming, ← List.append_assoc]
      exact (congrArg (· ++ packet type requestId payload) bytes).trans (List.nil_append _)
  | answered owed r id bytes =>
      rw [owed] at hmem
      cases hmem

theorem Expects.forget {buf : List UInt8} {expected : UInt32} (h : Expects s expected buf)
    (requestId : UInt32) : Expects { s with owed := s.owed.erase requestId } expected buf := by
  cases h with
  | waiting owed bytes => exact .waiting (List.erase_sublist.trans owed) bytes
  | answered owed r id bytes => exact .answered (by simp [owed]) r id bytes

end Steps

theorem Inv.step {C : Codec} {s s' : Sys} {l : Label} (h : Inv s) (hok : StartsSettled C s l)
    (hs : s.Step C l s') : Inv s' := by
  cases hs with
  | connect pc => exact .of_not_receiving h.matched (by simp)
  | start pc sendOk => exact h.begin pc sendOk hok
  | read pc => exact h.receive pc
  | reply type owed length =>
      exact h.environment rfl rfl fun hexp => hexp.reply type owed length
  | stray bytes => exact hok.elim
  | forget requestId => exact h.environment rfl rfl fun hexp => hexp.forget requestId
  | arrive n wire =>
      exact h.environment rfl rfl fun hexp => hexp.congr rfl (Sys.incoming_arrive wire n _)
  | socket bytes =>
      exact h.environment rfl rfl fun hexp => hexp.congr rfl (Sys.incoming_socket bytes _)

/-- **Matching.** If the client never sends a request while an earlier one
of the connection is unanswered or its answer unread, every response that
`do_request` returns is from a frame with the id it has sent. -/
theorem responses_match {C : Codec} {s : Sys}
    (h : Reachable (step C) (StartsSettled C) Sys.init s) :
    ∀ r ∈ s.returned, (headerOf r.buf).requestId = r.requestId := by
  have hinit : Inv Sys.init := .of_not_receiving (fun r hr => by cases hr) (by simp [Sys.init])
  exact (h.invariant hinit fun _ _ _ ih hok hstep => ih.step hok (step_inv hstep)).matched

/-! ### Short runs -/

/-- A library that prints nothing and finds the same values in every
response. -/
def plainCodec : Codec where
  buildGetSensorReq _ := some []
  buildSetActuatorReq _ _ _ := some []
  parse _ := some ⟨some "ok", some 30, some 50, some 120⟩

def answers (requestId : UInt32) : List Label :=
  [.reply msgResponse requestId [], .arrive 19, .read]

/-- The air conditioner's command is dropped, and the client sends the
fan's when it knows. -/
theorem responses_match_dropped :
    ∃ s, Reachable (step plainCodec) (StartsSettled plainCodec) Sys.init s ∧
      s.returned.map (·.requestId) = [1, 2, 4] ∧
      ∀ r ∈ s.returned, (headerOf r.buf).requestId = r.requestId := by
  have hrun : (runs (guarded (step plainCodec) (StartsSettled plainCodec)) Sys.init
      (List.flatten [[.connect, .start true], answers 1, [.start true], answers 2,
        [.start true, .forget 3, .read, .start true], answers 4])).map
      (fun s => s.returned.map (·.requestId)) = some [1, 2, 4] := by decide +kernel
  obtain ⟨s, hreach, hobs⟩ := Reachable.exists_of_runs hrun
  exact ⟨s, hreach, hobs, responses_match hreach⟩

/-- The answer to the air conditioner's command comes after the timeout,
and the client takes it for the answer to the fan's. -/
theorem response_mismatch_late :
    ∃ s, Reachable (step plainCodec) (fun _ _ => True) Sys.init s ∧
      ∃ r ∈ s.returned, (headerOf r.buf).requestId ≠ r.requestId := by
  have hrun : (runs (guarded (step plainCodec) fun _ _ => True) Sys.init
      (List.flatten [[.connect, .start true], answers 1, [.start true], answers 2,
        [.start true, .read, .start true], answers 3])).map
      (fun s => s.returned.getLast?) = some (some ⟨4, packet msgResponse 3 []⟩) := by
    decide +kernel
  obtain ⟨s, hreach, hobs⟩ := Reachable.exists_of_runs hrun
  exact ⟨s, hreach, _, List.mem_of_getLast? hobs, by decide⟩

end LinuxMiniProjects.Gateway.TlsClient
