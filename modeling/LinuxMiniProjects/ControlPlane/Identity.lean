import Mathlib.Data.List.TakeWhile
import LinuxMiniProjects.ControlPlane.SessionTable

/-!
Who a client is taken for.

A client is known by the payload of its `IDENTIFY` frame. `identify_task`
does not take the payload as it is: it copies at most 63 bytes of it, and
everything behind treats the copy as a C string, which ends at the first
zero byte. So payloads that agree up to byte 63, or up to a zero byte, are
one token and one session. A payload is refused when its length is zero,
not when its token is empty, so one that begins with a zero byte is
accepted.

What comes of an `IDENTIFY` frame is put beside the server as a history:
the session its client has when the worker has set it, and the message in
the ring of the client when the worker has replied.
-/

namespace LinuxMiniProjects.ControlPlane

open Bytes Machine

/-! ### Payloads and tokens -/

def MessageControl.payload (m : MessageControl) : List UInt8 := slice m.message 0 m.length.toNat

theorem identifyToken_eq (m : MessageControl) :
    identifyToken m = cString (m.payload.take (sessionTokenLen - 1)) := by
  have hle : 0 + tokenLength m ≤ m.length.toNat := by
    rw [Nat.zero_add]
    exact min_le_left _ _
  rw [identifyToken, slice_eq_take_drop m.message hle, List.drop_zero, ← MessageControl.payload,
    List.take_eq_take_min (i := sessionTokenLen - 1), MessageControl.payload, length_slice,
    tokenLength, min_comm]

theorem identifyToken_congr {m m' : MessageControl} (h : m.payload = m'.payload) :
    identifyToken m = identifyToken m' := by
  rw [identifyToken_eq, identifyToken_eq, h]

theorem tokenLength_eq_zero_iff (m : MessageControl) : tokenLength m = 0 ↔ m.payload = [] := by
  rw [← List.length_eq_zero_iff, MessageControl.payload, length_slice, tokenLength,
    sessionTokenLen]
  omega

/-! ### The identifier in a reply -/

/-- The number behind the first `=`. -/
def clientIdIn (m : MessageControl) : ℕ :=
  leadingNat ((m.payload.dropWhile fun b => decide (b ≠ 61)).drop 1)

theorem payload_buildMessage (text : List UInt8) (cmd pri : UInt32) (numPacket : UInt64) :
    (buildMessage text cmd pri numPacket).payload = (cString text).take (maxPayloadSize - 1) := by
  have hlen : (if maxPayloadSize ≤ (cString text).length then maxPayloadSize - 1
      else (cString text).length) = builtLength text := by
    unfold builtLength
    split <;> omega
  have htake : (cString text).take (builtLength text) =
      (cString text).take (maxPayloadSize - 1) := by
    rw [List.take_eq_take_min (i := maxPayloadSize - 1), builtLength, min_comm]
  have hlength : ((cString text).take (builtLength text)).length = builtLength text := by
    rw [List.length_take, builtLength]
    omega
  rw [MessageControl.payload, length_buildMessage, Int.toNat_natCast]
  simp only [buildMessage, hlen]
  rw [← htake]
  nth_rewrite 2 [← hlength]
  exact slice_ofList _

theorem zero_notMem_decimal (n : ℕ) : (0 : UInt8) ∉ decimal n := by
  intro h
  obtain ⟨c, hc, hzero⟩ := List.mem_map.mp h
  have hdigit := (isDigit_ofNat (Nat.isDigit_of_mem_toDigits (by decide) (by decide) hc)).1
  rw [hzero] at hdigit
  cases hdigit

/-- The text of a reply up to the identifier and the blank behind it is
short, so nothing of it is cut off. -/
theorem payload_identifyReply (m : MessageControl) (session : ClientSession) (wasResumed : Bool) :
    ∃ rest, (identifyReply m session wasResumed).payload =
      (ascii (if wasResumed then "RESUMED" else "NEW") ++ ascii " client_id") ++
        61 :: (decimal session.clientId.toNat ++ 32 :: rest) := by
  generalize hword : ascii (if wasResumed then "RESUMED" else "NEW") ++ ascii " client_id" = word
  have hshort : word.length ≤ 17 ∧ (0 : UInt8) ∉ word := by
    rw [← hword]
    cases wasResumed <;> decide
  have hdigits : (decimal session.clientId.toNat).length ≤ 20 := by
    rw [decimal, List.length_map]
    exact Nat.toDigits_length 10 _ 20 (by decide) (by have := session.clientId.toNat_lt; omega)
  generalize hfront : word ++ 61 :: (decimal session.clientId.toNat ++ [32]) = front
  have hzero : (0 : UInt8) ∉ front := by
    rw [← hfront]
    simp [hshort.2, zero_notMem_decimal]
  have hlen : front.length ≤ maxPayloadSize - 1 := by
    rw [← hfront]
    simp only [List.length_append, List.length_cons, List.length_nil, maxPayloadSize]
    omega
  have htext : (identifyReply m session wasResumed).payload =
      (cString (front ++ (ascii "reconnect=" ++ decimal session.reconnectCount))).take
        (maxPayloadSize - 1) := by
    rw [identifyReply, payload_buildMessage, ← hfront, ← hword]
    congr 2
    simp [ascii]
  rw [htext, cString_append hzero, List.take_append, List.take_of_length_le hlen, ← hfront]
  exact ⟨_, by simp only [List.append_assoc, List.cons_append, List.nil_append]; rfl⟩

theorem clientIdIn_identifyReply (m : MessageControl) (session : ClientSession)
    (wasResumed : Bool) :
    clientIdIn (identifyReply m session wasResumed) = session.clientId.toNat := by
  obtain ⟨rest, hpayload⟩ := payload_identifyReply m session wasResumed
  have hword : ∀ b ∈ ascii (if wasResumed then "RESUMED" else "NEW") ++ ascii " client_id",
      decide (b ≠ 61) = true := by
    cases wasResumed <;> decide +kernel
  rw [clientIdIn, hpayload, List.dropWhile_append_of_pos hword,
    List.dropWhile_cons_of_neg (by simp), List.drop_one, List.tail_cons]
  exact leadingNat_toDigits _ (by decide) rest

/-! ### Histories -/

/-- What has come of the frames: the tasks with the session that their
client got, and the tasks with the message that was put into the ring. -/
structure Identities where
  bound : List (Task × Option ℕ)
  told : List (Task × Option MessageControl)

def recordIdentity (s : Sys) (l : Label) (seen : Identities) : Identities :=
  match l, s.step l with
  | .process w, some s' =>
      match s.sched.worker w, s.stage w with
      | .busy task, .naming _ _ =>
          { seen with bound := seen.bound ++ [(task, (s'.clients task.fd).session)] }
      | .busy task, .replying _ _ =>
          { seen with told := seen.told ++ [(task, s.queued s' task.fd)] }
      | _, _ => seen
  | _, _ => seen

def SessionTable.Has (table : SessionTable) (i : ℕ) (token : List UInt8) : Prop :=
  (table.sessions i).inUse = true ∧ (table.sessions i).token = token

theorem SessionTable.Has.keep {table table' : SessionTable} {i : ℕ} {token : List UInt8}
    (h : table.Has i token) (hkeeps : table.Keeps table') : table'.Has i token := by
  obtain ⟨huse, htoken, -⟩ := hkeeps i h.1
  exact ⟨huse, htoken.trans h.2⟩

section Steps

variable {s s' : Sys} {l : Label}

theorem Sched.busy_of_tryEnqueue {sched sched' : Sched Task} {p : Priority} {task t : Task}
    {released : Option (Fin 4)} {ok : Bool} {w : Fin 4}
    (h : sched.tryEnqueue p task released = some (ok, sched')) (hw : sched.worker w = .busy t) :
    sched'.worker w = .busy t := by
  obtain ⟨-, -, rfl⟩ | ⟨-, -, -, -, -, -, -, ⟨v, -, hwait, heq⟩ | ⟨-, -, heq⟩⟩ :=
    Sched.tryEnqueue_cases h
  · exact hw
  · rw [heq, Function.update_of_ne, hw]
    rintro rfl
    rw [hw] at hwait
    cases hwait
  · rw [heq, hw]

theorem Sched.busy_of_goto {sched : Sched Task} {t : Task} {v w : Fin 4} {pc : WorkerPc Task}
    (hv : sched.worker v ≠ .busy t) (hw : sched.worker w = .busy t) :
    (sched.goto v pc).worker w = .busy t := by
  have hne : w ≠ v := by
    rintro rfl
    exact hv hw
  exact (Function.update_of_ne hne _ _).trans hw

theorem Sched.busy_of_lock {sched : Sched Task} {t : Task} {v w : Fin 4}
    (hv : sched.worker v = .start) (hw : sched.worker w = .busy t) :
    (sched.lock v).worker w = .busy t := by
  have hne : sched.worker v ≠ .busy t := by simp [hv]
  obtain ⟨-, heq⟩ | ⟨-, -, heq⟩ | ⟨-, heq⟩ | ⟨-, p, task, htakes⟩ := sched.lock_cases v
  · rw [heq]
    exact Sched.busy_of_goto hne hw
  · rw [heq]
    exact Sched.busy_of_goto hne hw
  · rw [heq, hw]
  · rw [htakes.worker, Function.update_of_ne, hw]
    rintro rfl
    exact hne hw

theorem Sys.Step.stage_eq (h : s.Step l s') {w : Fin 4} (hl : l ≠ .process w) :
    s'.stage w = s.stage w := by
  cases h with
  | io step => exact congrFun step.frame.2.1 w
  | lock start => rfl
  | wake waiting => rfl
  | @process v task busy free =>
      have hne : w ≠ v := fun hwv => hl (by rw [hwv])
      have hstep := s.process_inv v task
      generalize s.process v task = s' at hstep
      cases hstep with
      | _ => exact Function.update_of_ne hne _ _
  | sig step =>
      cases step with
      | sendFarewell pc ok =>
          unfold Sys.sendFarewell
          dsimp only
          split <;> rfl
      | _ => rfl

/-- A worker that has a task keeps it, unless it takes a step. -/
theorem Sys.Step.busy (h : s.Step l s') {w : Fin 4} {t : Task}
    (hw : s.sched.worker w = .busy t) (hl : l ≠ .process w) :
    s'.sched.worker w = .busy t := by
  cases h with
  | @io l s' step =>
      have hsched := step.frame.2.2
      cases step with
      | @enqueue task rest released s' pc eq =>
          unfold Sys.enqueue at eq
          split at eq
          next p hp =>
            obtain ⟨⟨ok, sched⟩, htry, rfl⟩ := Option.map_eq_some_iff.mp eq
            exact Sched.busy_of_tryEnqueue htry hw
          next =>
            rw [Option.ite_none_right_eq_some, Option.some.injEq] at eq
            rw [← eq.2]
            exact hw
      | _ =>
          rw [hsched (by simp)]
          exact hw
  | lock start => exact Sched.busy_of_lock start hw
  | wake waiting => exact Sched.busy_of_goto (by simp [waiting]) hw
  | @process v task busy free =>
      have hne : w ≠ v := fun hwv => hl (by rw [hwv])
      have hstep := s.process_inv v task
      generalize s.process v task = s' at hstep
      cases hstep with
      | finish stage => exact (Function.update_of_ne hne _ _).trans hw
      | _ => exact hw
  | sig step =>
      cases step with
      | broadcast pc => simp [Sched.broadcast, hw, WorkerPc.isWaiting]
      | sendFarewell pc ok =>
          unfold Sys.sendFarewell
          dsimp only
          split <;> exact hw
      | _ => exact hw

end Steps

/-! ### Runs -/

/-- The session that `identify_task` has found or made. -/
def TaskStage.session : TaskStage → Option ℕ
  | naming i _ | replying i _ => some i
  | _ => none

/-- Every client that was bound, and every one that is about to be, got the
session that has its token, and was told its identifier. -/
structure Sys.Binds (s : Sys) (seen : Identities) : Prop where
  table : ∃ calls, s.table.Holds calls
  found : ∀ w i, (s.stage w).session = some i →
    ∃ task, s.sched.worker w = .busy task ∧ s.table.Has i (identifyToken task.message)
  bound : ∀ b ∈ seen.bound, ∃ i, b.2 = some i ∧ s.table.Has i (identifyToken b.1.message)
  told : ∀ t ∈ seen.told, ∃ i m, t.2 = some m ∧
    clientIdIn m = (s.table.sessions i).clientId.toNat ∧
    s.table.Has i (identifyToken t.1.message)

theorem Sys.Binds.init : Sys.init.Binds ⟨[], []⟩ where
  table := ⟨[], .init⟩
  found := fun w i h => by cases h
  bound := fun b hb => absurd hb List.not_mem_nil
  told := fun t ht => absurd ht List.not_mem_nil

theorem SessionTable.Holds.has {table : SessionTable} {calls : List SessionCall}
    (h : table.Holds calls) {token : List UInt8} (hlt : token.length < sessionTokenLen) {i : ℕ}
    {r : Bool} (hres : (sessionLookupOrCreate table token).1 = some (i, r)) :
    (sessionLookupOrCreate table token).2.Has i token := by
  have hcall := h.call hlt
  have hnamed := hcall.named ⟨token, _⟩ (by simp) i r hres
  rw [SessionTable.Has, hcall.stored i token hnamed]
  exact ⟨rfl, rfl⟩

section Runs

variable {s s' : Sys} {seen : Identities} {l : Label}

theorem Sys.Binds.table_step (h : s.Binds seen) (hs : s.Step l s') :
    ∃ calls, s'.table.Holds calls := by
  obtain ⟨calls, hcalls⟩ := h.table
  obtain ⟨-, heq⟩ | ⟨token, hlt, -, heq⟩ := hs.table
  · exact ⟨calls, heq ▸ hcalls⟩
  · rw [heq]
    exact ⟨_, hcalls.call hlt⟩

/-- A worker that has a session has just got it from
`session_lookup_or_create`, or has had it before. -/
theorem Sys.Binds.found_process (h : s.Binds seen) {w : Fin 4} {task : Task} {i : ℕ}
    (hstep : s.ProcessStep w task s') (hw : s.sched.worker w = .busy task)
    (hstage : (s'.stage w).session = some i) :
    s'.sched.worker w = .busy task ∧ s'.table.Has i (identifyToken task.message) := by
  cases hstep with
  | lookup stage cmd token =>
      obtain ⟨calls, hcalls⟩ := h.table
      refine ⟨hw, ?_⟩
      simp only [Sys.setStage, Function.update_self] at hstage
      cases hres : (sessionLookupOrCreate s.table (identifyToken task.message)).1 with
      | none =>
          rw [hres] at hstage
          cases hstage
      | some found =>
          obtain ⟨j, r⟩ := found
          rw [hres] at hstage
          obtain rfl : j = i := Option.some.inj hstage
          exact hcalls.has (length_identifyToken_lt task.message) hres
  | @name j r stage =>
      simp only [Sys.name, Sys.setStage, Function.update_self] at hstage
      obtain rfl : j = i := Option.some.inj hstage
      obtain ⟨task', hw', hhas⟩ := h.found w j (by rw [stage]; rfl)
      rw [hw, WorkerPc.busy.injEq] at hw'
      exact ⟨hw, hw' ▸ hhas⟩
  | check stage =>
      simp only [Sys.check, Sys.setStage, Function.update_self] at hstage
      split at hstage <;> cases hstage
  | _ => simp [Sys.setStage, Sys.finish, TaskStage.session] at hstage

theorem SessionTable.Has.clientId_keep {table table' : SessionTable} {i : ℕ} {token : List UInt8}
    (h : table.Has i token) (hkeeps : table.Keeps table') :
    (table'.sessions i).clientId = (table.sessions i).clientId :=
  (hkeeps i h.1).2.2

theorem Sys.Binds.keep (h : s.Binds seen) (hs : s.Step l s') :
    (∀ b ∈ seen.bound, ∃ i, b.2 = some i ∧ s'.table.Has i (identifyToken b.1.message)) ∧
      ∀ t ∈ seen.told, ∃ i m, t.2 = some m ∧
        clientIdIn m = (s'.table.sessions i).clientId.toNat ∧
        s'.table.Has i (identifyToken t.1.message) := by
  have hkeeps := hs.keeps
  constructor
  · intro b hb
    obtain ⟨i, hi, hhas⟩ := h.bound b hb
    exact ⟨i, hi, hhas.keep hkeeps⟩
  · intro t ht
    obtain ⟨i, m, hm, hid, hhas⟩ := h.told t ht
    exact ⟨i, m, hm, by rw [hid, hhas.clientId_keep hkeeps], hhas.keep hkeeps⟩

theorem Sys.Binds.found_step (h : s.Binds seen) (hs : s.Step l s') {w : Fin 4} {i : ℕ}
    (hstage : (s'.stage w).session = some i) :
    ∃ task, s'.sched.worker w = .busy task ∧ s'.table.Has i (identifyToken task.message) := by
  by_cases hl : l = .process w
  · subst hl
    cases hs with
    | @process w task busy free =>
        exact ⟨task, h.found_process (s.process_inv w task) busy hstage⟩
  · rw [hs.stage_eq hl] at hstage
    obtain ⟨task, hw, hhas⟩ := h.found w i hstage
    exact ⟨task, hs.busy hw hl, hhas.keep hs.keeps⟩

theorem Sys.step_process {w : Fin 4} {task : Task} (hw : s.sched.worker w = .busy task)
    (hs : s.step (.process w) = some s') : s' = s.process w task := by
  cases Sys.step_inv hs with
  | @process w task' busy free =>
      rw [hw, WorkerPc.busy.injEq] at busy
      rw [busy]

theorem Sys.Binds.step (h : s.Binds seen) (hs : s.step l = some s') :
    s'.Binds (recordIdentity s l seen) := by
  have hstep := Sys.step_inv hs
  have htable := h.table_step hstep
  have hfound : ∀ w i, (s'.stage w).session = some i → ∃ task, s'.sched.worker w = .busy task ∧
      s'.table.Has i (identifyToken task.message) := fun w i => h.found_step hstep
  obtain ⟨hbound, htold⟩ := h.keep hstep
  cases l with
  | process w =>
      simp only [recordIdentity, hs]
      split
      next task i r hw hstage =>
        -- the session of the client is set
        obtain ⟨task', hw', hhas⟩ := h.found w i (by rw [hstage]; rfl)
        rw [hw, WorkerPc.busy.injEq] at hw'
        refine ⟨htable, hfound, List.forall_mem_append.mpr
          ⟨hbound, List.forall_mem_singleton.mpr ⟨i, ?_, hw' ▸ hhas.keep hstep.keeps⟩⟩, htold⟩
        rw [Sys.step_process hw hs]
        simp [Sys.process, hstage, Sys.name, Sys.setStage, Sys.setClient]
      next task i r hw hstage =>
        -- the client is told
        obtain ⟨task', hw', hhas⟩ := h.found w i (by rw [hstage]; rfl)
        rw [hw, WorkerPc.busy.injEq] at hw'
        have hqueued : s.queued s' task.fd =
            some (identifyReply task.message (s.table.sessions i) r) := by
          rw [Sys.step_process hw hs, Sys.process, hstage]
          exact (Sys.queued_queue rfl (by rfl) task.fd).trans (if_pos rfl)
        refine ⟨htable, hfound, hbound, List.forall_mem_append.mpr
          ⟨htold, List.forall_mem_singleton.mpr
            ⟨i, _, hqueued, ?_, hw' ▸ hhas.keep hstep.keeps⟩⟩⟩
        rw [clientIdIn_identifyReply, hhas.clientId_keep hstep.keeps]
      next => exact ⟨htable, hfound, hbound, htold⟩
  | _ => exact ⟨htable, hfound, hbound, htold⟩

end Runs

/-- **Session identity.** In every state, whatever the workers do:

* every `IDENTIFY` frame that was accepted has left its client with a
  session, and two have left theirs with the same one if and only if their
  tokens are equal; so that holds of the payloads exactly when equal tokens
  come from equal payloads;
* every one was answered, and two answers carry the same identifier if and
  only if the tokens are equal;
* a frame with an empty token is refused at once, with a `NACK` and without
  a session, if and only if its payload is empty. -/
theorem sessions_by_token {x : Sys × Identities}
    (hx : Reachable (observed Sys.step recordIdentity) (fun _ _ => True) (Sys.init, ⟨[], []⟩) x) :
    (∀ a ∈ x.2.bound, ∀ b ∈ x.2.bound, a.2 ≠ none ∧
      (a.2 = b.2 ↔ identifyToken a.1.message = identifyToken b.1.message) ∧
      ((a.2 = b.2 ↔ a.1.message.payload = b.1.message.payload) ↔
        (identifyToken a.1.message = identifyToken b.1.message →
          a.1.message.payload = b.1.message.payload))) ∧
    (∀ a ∈ x.2.told, ∀ b ∈ x.2.told, ∃ m m', a.2 = some m ∧ b.2 = some m' ∧
      (clientIdIn m = clientIdIn m' ↔
        identifyToken a.1.message = identifyToken b.1.message)) ∧
    ∀ w task s', x.1.sched.worker w = .busy task → x.1.stage w = .acting →
      Command.ofCode task.message.cmd = some .identify → identifyToken task.message = [] →
      x.1.step (.process w) = some s' →
      ((∃ m, x.1.queued s' task.fd = some m ∧ m.cmd = Command.nack.code ∧
        s'.table = x.1.table) ↔ task.message.payload = []) := by
  have h : x.1.Binds x.2 := by
    refine hx.invariant (I := fun x => x.1.Binds x.2) .init fun x l x' h _ hs => ?_
    obtain ⟨hstep, hseen⟩ := observed_inv hs
    rw [hseen]
    exact h.step hstep
  obtain ⟨calls, hcalls⟩ := h.table
  refine ⟨fun a ha b hb => ?_, fun a ha b hb => ?_, fun w task s' hw hstage hcmd _ hs => ?_⟩
  · obtain ⟨i, hi, huse, htoken⟩ := h.bound a ha
    obtain ⟨j, hj, huse', htoken'⟩ := h.bound b hb
    have hsame : a.2 = b.2 ↔ identifyToken a.1.message = identifyToken b.1.message := by
      rw [hi, hj, Option.some.injEq, ← htoken, ← htoken']
      exact ⟨fun heq => by rw [heq], fun heq => hcalls.distinct huse huse' (.inl heq)⟩
    refine ⟨by rw [hi]; exact Option.some_ne_none i, hsame, ?_⟩
    rw [hsame]
    exact ⟨Iff.mp, fun heq => ⟨heq, identifyToken_congr⟩⟩
  · obtain ⟨i, m, hm, hid, huse, htoken⟩ := h.told a ha
    obtain ⟨j, m', hm', hid', huse', htoken'⟩ := h.told b hb
    refine ⟨m, m', hm, hm', ?_⟩
    rw [hid, hid', UInt64.toNat_inj, ← htoken, ← htoken']
    exact ⟨fun heq => by rw [hcalls.distinct huse huse' (.inr heq)],
      fun heq => by rw [hcalls.distinct huse huse' (.inl heq)]⟩
  · rw [Sys.step_process hw hs, ← tokenLength_eq_zero_iff]
    simp only [Sys.process, hstage, Sys.act, hcmd, Sys.identify]
    split
    next hzero =>
      refine iff_of_true ⟨identifyEmpty task.message, ?_, cmd_buildMessage .., rfl⟩ hzero
      exact (Sys.queued_queue rfl (by rfl) task.fd).trans (if_pos rfl)
    next hzero =>
      refine iff_of_false ?_ hzero
      rintro ⟨m, hm, -⟩
      exact Option.some_ne_none m (hm.symm.trans (if_pos rfl))

def rawIdentify (payload : List UInt8) : MessageControl :=
  let m : MessageControl :=
    { header := ofList (le32 Command.identify.code ++ le32 0 ++ le64 0 ++
        le32 (UInt32.ofNat payload.length))
      message := ofList payload
      checksum := ofList [] }
  { m with checksum := ofList (le32 (calculateChecksum m)) }

def identifyRaw (payload : List UInt8) : List Label :=
  List.flatten [readableOn 5, recvPayloadFrame (rawIdentify payload),
    [.io (.enqueue none), .lock firstWorker], List.replicate 5 (.process firstWorker), throughReap]

theorem sessions_by_token_twice :
    ∃ x : Sys × Identities,
      Reachable (observed Sys.step recordIdentity) (fun _ _ => True) (Sys.init, ⟨[], []⟩) x ∧
      ∃ a ∈ x.2.bound, ∃ b ∈ x.2.bound, a.1.message.payload = [97] ∧
        b.1.message.payload = [98] ∧ a.2 ≠ b.2 := by
  have hrun : (runs (guarded (observed Sys.step recordIdentity) fun _ _ => True)
      (Sys.init, ⟨[], []⟩) (acceptOn 5 ++ identifyRaw [97] ++ identifyRaw [98])).map
      (fun x => x.2.bound.map fun b => (b.1.message.payload, identifyToken b.1.message)) =
      some [([97], [97]), ([98], [98])] := by
    decide +kernel
  obtain ⟨x, hreach, hobs⟩ := Reachable.exists_of_runs hrun
  obtain ⟨a, rest, ha, hpay, hrest⟩ := List.map_eq_cons_iff.mp hobs
  obtain ⟨b, rest', hb, hpay', -⟩ := List.map_eq_cons_iff.mp hrest
  simp only [Prod.mk.injEq] at hpay hpay'
  have hmem : a ∈ x.2.bound ∧ b ∈ x.2.bound := by simp [ha, hb]
  obtain ⟨-, hsame, -⟩ := (sessions_by_token hreach).1 a hmem.1 b hmem.2
  refine ⟨x, hreach, a, hmem.1, b, hmem.2, hpay.1, hpay'.1, fun heq => ?_⟩
  have htokens := hsame.mp heq
  rw [hpay.2, hpay'.2] at htokens
  cases htokens

/-- Payloads that differ behind a zero byte are one session and one
identifier, and a payload that is a zero byte is accepted. -/
theorem sessions_by_cString :
    ∃ x : Sys × Identities,
      Reachable (observed Sys.step recordIdentity) (fun _ _ => True) (Sys.init, ⟨[], []⟩) x ∧
      (x.2.bound.map fun b => (b.1.message.payload, b.2)) =
        [([97, 0, 98], some 0), ([97, 0, 99], some 0), ([0], some 1)] ∧
      (x.2.told.map fun t => (t.1.message.payload, t.2.map clientIdIn)) =
        [([97, 0, 98], some 1), ([97, 0, 99], some 1), ([0], some 2)] := by
  have hrun : (runs (guarded (observed Sys.step recordIdentity) fun _ _ => True)
      (Sys.init, ⟨[], []⟩)
      (acceptOn 5 ++ identifyRaw [97, 0, 98] ++ identifyRaw [97, 0, 99] ++ identifyRaw [0])).map
      (fun x => (x.2.bound.map fun b => (b.1.message.payload, b.2),
        x.2.told.map fun t => (t.1.message.payload, t.2.map clientIdIn))) =
      some ([([97, 0, 98], some 0), ([97, 0, 99], some 0), ([0], some 1)],
        [([97, 0, 98], some 1), ([97, 0, 99], some 1), ([0], some 2)]) := by
    decide +kernel
  obtain ⟨x, hreach, hobs⟩ := Reachable.exists_of_runs hrun
  exact ⟨x, hreach, Prod.mk.inj hobs⟩

end LinuxMiniProjects.ControlPlane
