import LinuxMiniProjects.ControlPlane.InFlight

/-!
The session table over a run.

A session is made when a token comes for the first time and is never
given up, so the table is the list of tokens in the order in which they
came: session `i` has the `i`-th of them and the identifier `i + 1`. The
code knows nothing of such a list. It goes over all slots, compares up to
`SESSION_TOKEN_LEN` bytes and remembers the first slot that is free; that
this finds the one session of a token, and that the first free slot is
the one behind the last session, is what has to be shown.

The calls of `session_lookup_or_create` are put beside the server as a
history. What the table holds is said in terms of them: who was created
when, and how often a token has come.
-/

namespace LinuxMiniProjects.ControlPlane

open Bytes Machine

/-! ### The calls -/

structure SessionCall where
  token : List UInt8
  result : Option (ℕ × Bool)
deriving DecidableEq

/-- The call of `session_lookup_or_create` in a step, if there is one. -/
def sessionCall (s : Sys) : Label → Option SessionCall
  | .process w =>
      match s.sched.worker w, s.stage w with
      | .busy task, .acting =>
          if Command.ofCode task.message.cmd = some .identify ∧ tokenLength task.message ≠ 0 then
            some ⟨identifyToken task.message,
              (sessionLookupOrCreate s.table (identifyToken task.message)).1⟩
          else none
      | _, _ => none
  | _ => none

abbrev SessionSys := Sys × List SessionCall

def SessionSys.step : SessionSys → Label → Option SessionSys :=
  observed Sys.step fun s l calls => calls ++ (sessionCall s l).toList

def SessionSys.init : SessionSys := (Sys.init, [])

def SessionCall.created (c : SessionCall) : Option (List UInt8) :=
  match c.result with
  | some (_, false) => some c.token
  | _ => none

def created (calls : List SessionCall) : List (List UInt8) := calls.filterMap SessionCall.created

/-- The number of calls with a token that did not return a null pointer. -/
def successes (calls : List SessionCall) (token : List UInt8) : ℕ :=
  calls.countP fun c => c.result.isSome && c.token == token

theorem created_append (calls : List SessionCall) (c : SessionCall) :
    created (calls ++ [c]) = created calls ++ c.created.toList := by
  rw [created, List.filterMap_append, ← created]
  cases h : c.created <;> simp [h]

theorem successes_append (calls : List SessionCall) (c : SessionCall) (token : List UInt8) :
    successes (calls ++ [c]) token =
      successes calls token + (c.result.isSome && c.token == token).toNat := by
  simp only [successes, List.countP_append, List.countP_singleton]
  cases c.result.isSome && c.token == token <;> rfl

/-! ### What the table holds -/

structure SessionTable.Holds (table : SessionTable) (calls : List SessionCall) : Prop where
  nodup : (created calls).Nodup
  le : (created calls).length ≤ maxSessions
  short : ∀ token ∈ created calls, token.length < sessionTokenLen
  next : table.nextPersistentId = UInt64.ofNat (created calls).length
  stored : ∀ i token, (created calls)[i]? = some token →
    table.sessions i = ⟨true, token, UInt64.ofNat (i + 1), successes calls token⟩
  free : ∀ i, (created calls).length ≤ i → (table.sessions i).inUse = false
  named : ∀ c ∈ calls, ∀ i wasResumed, c.result = some (i, wasResumed) →
    (created calls)[i]? = some c.token

theorem SessionTable.Holds.init : initSessionTable.Holds [] where
  nodup := List.nodup_nil
  le := Nat.zero_le _
  short := fun token h => by cases h
  next := rfl
  stored := fun i token h => by cases h
  free := fun i _ => rfl
  named := fun c h => by cases h

theorem strncmpEq_iff {n : ℕ} {s t : List UInt8} (hs : s.length < n) (ht : t.length < n) :
    strncmpEq n s t = true ↔ s = t := by
  rw [strncmpEq, List.take_of_length_le hs.le, List.take_of_length_le ht.le, beq_iff_eq]

section Lookup

variable {table : SessionTable} {calls : List SessionCall} {token : List UInt8}

theorem SessionTable.Holds.exists_token (h : table.Holds calls) {i : ℕ}
    (hi : (table.sessions i).inUse = true) : ∃ token, (created calls)[i]? = some token := by
  have hlt : i < (created calls).length := by
    by_contra hle
    rw [h.free i (by omega)] at hi
    cases hi
  exact ⟨_, List.getElem?_eq_getElem hlt⟩

theorem SessionTable.Holds.match_iff (h : table.Holds calls) (hlt : token.length < sessionTokenLen)
    (i : ℕ) :
    ((table.sessions i).inUse && strncmpEq sessionTokenLen token (table.sessions i).token) = true ↔
      (created calls)[i]? = some token := by
  rw [Bool.and_eq_true]
  constructor
  · rintro ⟨hi, heq⟩
    obtain ⟨stored, hstored⟩ := h.exists_token hi
    rw [h.stored i stored hstored,
      strncmpEq_iff hlt (h.short stored (List.mem_of_getElem? hstored))] at heq
    rw [hstored, heq]
  · intro hi
    rw [h.stored i token hi]
    exact ⟨rfl, (strncmpEq_iff hlt hlt).mpr rfl⟩

theorem SessionTable.Holds.lookup_known (h : table.Holds calls)
    (hlt : token.length < sessionTokenLen) {i : ℕ} (hi : (created calls)[i]? = some token) :
    sessionLookupOrCreate table token =
      (some (i, true), { table with
        sessions := Function.update table.sessions i { table.sessions i with
          reconnectCount := (table.sessions i).reconnectCount + 1 } }) := by
  have hlen : i < (created calls).length := (List.getElem?_eq_some_iff.mp hi).1
  have hfind : ((List.range maxSessions).find? fun i =>
      (table.sessions i).inUse && strncmpEq sessionTokenLen token (table.sessions i).token) =
      some i := by
    rw [List.find?_range_eq_some]
    refine ⟨(h.match_iff hlt i).mpr hi, List.mem_range.mpr (hlen.trans_le h.le), fun j hj => ?_⟩
    -- an earlier slot with the same token would be the same slot
    rw [Bool.not_eq_true', Bool.eq_false_iff, Ne, h.match_iff hlt]
    intro hj'
    have := (List.getElem?_inj (hj.trans hlen) h.nodup).mp (hj'.trans hi.symm)
    omega
  simp only [sessionLookupOrCreate, hfind]

theorem SessionTable.Holds.find_absent (h : table.Holds calls)
    (hlt : token.length < sessionTokenLen) (habsent : token ∉ created calls) :
    ((List.range maxSessions).find? fun i =>
      (table.sessions i).inUse && strncmpEq sessionTokenLen token (table.sessions i).token) =
      none := by
  rw [List.find?_eq_none]
  intro i _ hi
  exact habsent (List.mem_of_getElem? ((h.match_iff hlt i).mp hi))

theorem SessionTable.Holds.lookup_full (h : table.Holds calls)
    (hlt : token.length < sessionTokenLen) (habsent : token ∉ created calls)
    (hfull : (created calls).length = maxSessions) :
    sessionLookupOrCreate table token = (none, table) := by
  have hfree : ((List.range maxSessions).find? fun i => !(table.sessions i).inUse) = none := by
    rw [List.find?_eq_none]
    intro i hi
    obtain ⟨stored, hstored⟩ : ∃ stored, (created calls)[i]? = some stored :=
      ⟨_, List.getElem?_eq_getElem (by rw [hfull]; exact List.mem_range.mp hi)⟩
    simp [h.stored i stored hstored]
  simp only [sessionLookupOrCreate, h.find_absent hlt habsent, hfree]

theorem SessionTable.Holds.lookup_new (h : table.Holds calls)
    (hlt : token.length < sessionTokenLen) (habsent : token ∉ created calls)
    (hroom : (created calls).length < maxSessions) :
    sessionLookupOrCreate table token =
      (some ((created calls).length, false),
        { sessions := Function.update table.sessions (created calls).length
            ⟨true, token, UInt64.ofNat ((created calls).length + 1), 1⟩
          nextPersistentId := UInt64.ofNat ((created calls).length + 1) }) := by
  have hfree : ((List.range maxSessions).find? fun i => !(table.sessions i).inUse) =
      some (created calls).length := by
    rw [List.find?_range_eq_some]
    refine ⟨by simp [h.free _ le_rfl], List.mem_range.mpr hroom, fun j hj => ?_⟩
    obtain ⟨stored, hstored⟩ : ∃ stored, (created calls)[j]? = some stored :=
      ⟨_, List.getElem?_eq_getElem hj⟩
    simp [h.stored j stored hstored]
  have hnext : table.nextPersistentId + 1 = UInt64.ofNat ((created calls).length + 1) := by
    rw [h.next, UInt64.ofNat_add]
    rfl
  have htake : token.take (sessionTokenLen - 1) = token :=
    List.take_of_length_le (Nat.le_sub_one_of_lt hlt)
  simp only [sessionLookupOrCreate, h.find_absent hlt habsent, hfree, hnext, htake]

theorem SessionTable.Holds.again (h : table.Holds calls) {table' : SessionTable} {c : SessionCall}
    (hc : c.created = none) (hnext : table'.nextPersistentId = table.nextPersistentId)
    (hstored : ∀ k token, (created calls)[k]? = some token →
      table'.sessions k = { table.sessions k with
        reconnectCount := successes calls token + (c.result.isSome && c.token == token).toNat })
    (hfree : ∀ k, (created calls).length ≤ k → table'.sessions k = table.sessions k)
    (hnamed : ∀ i wasResumed, c.result = some (i, wasResumed) →
      (created calls)[i]? = some c.token) : table'.Holds (calls ++ [c]) := by
  have hcreated : created (calls ++ [c]) = created calls := by
    rw [created_append, hc]
    exact List.append_nil _
  refine ⟨?_, ?_, ?_, ?_, fun k token hk => ?_, fun k hk => ?_, fun c' hc' k wasResumed hk => ?_⟩
  · exact hcreated ▸ h.nodup
  · exact hcreated ▸ h.le
  · exact hcreated ▸ h.short
  · rw [hcreated, hnext, h.next]
  · rw [hcreated] at hk
    rw [hstored k token hk, h.stored k token hk, successes_append]
  · rw [hcreated] at hk
    rw [hfree k hk, h.free k hk]
  · rw [hcreated]
    rcases List.mem_append.mp hc' with hc' | hc'
    · exact h.named c' hc' k wasResumed hk
    · obtain rfl := List.mem_singleton.mp hc'
      exact hnamed k wasResumed hk

theorem SessionTable.Holds.known (h : table.Holds calls) {i : ℕ}
    (hi : (created calls)[i]? = some token) :
    ({ table with
      sessions := Function.update table.sessions i { table.sessions i with
        reconnectCount := (table.sessions i).reconnectCount + 1 } } : SessionTable).Holds
      (calls ++ [⟨token, some (i, true)⟩]) := by
  have hlen : i < (created calls).length := (List.getElem?_eq_some_iff.mp hi).1
  refine h.again rfl rfl (fun k stored hk => ?_) (fun k hk => ?_) fun k wasResumed hk => ?_
  · dsimp only
    by_cases hki : k = i
    · subst hki
      obtain rfl : token = stored := Option.some.inj (hi.symm.trans hk)
      rw [Function.update_self, h.stored k token hk]
      simp
    · have hne : token ≠ stored := by
        rintro rfl
        exact hki ((List.getElem?_inj hlen h.nodup).mp (hi.trans hk.symm)).symm
      rw [Function.update_of_ne hki, h.stored k stored hk]
      simp [hne]
  · exact Function.update_of_ne (by omega) _ _
  · obtain ⟨rfl, -⟩ := Prod.mk.injEq .. ▸ Option.some.inj hk
    exact hi

theorem SessionTable.Holds.denied (h : table.Holds calls) :
    table.Holds (calls ++ [⟨token, none⟩]) := by
  refine h.again rfl rfl (fun k stored hk => ?_) (fun _ _ => rfl) fun k wasResumed hk => ?_
  · rw [h.stored k stored hk]
    rfl
  · cases hk

theorem SessionTable.Holds.successes_eq_zero (h : table.Holds calls)
    (habsent : token ∉ created calls) : successes calls token = 0 := by
  refine List.countP_eq_zero.mpr fun c hc hsucc => ?_
  rw [Bool.and_eq_true, beq_iff_eq, Option.isSome_iff_exists] at hsucc
  obtain ⟨⟨⟨i, wasResumed⟩, hresult⟩, rfl⟩ := hsucc
  exact habsent (List.mem_of_getElem? (h.named c hc i wasResumed hresult))

theorem SessionTable.Holds.new (h : table.Holds calls) (hlt : token.length < sessionTokenLen)
    (habsent : token ∉ created calls) (hroom : (created calls).length < maxSessions) :
    ({ sessions := Function.update table.sessions (created calls).length
          ⟨true, token, UInt64.ofNat ((created calls).length + 1), 1⟩
       nextPersistentId := UInt64.ofNat ((created calls).length + 1) } : SessionTable).Holds
      (calls ++ [⟨token, some ((created calls).length, false)⟩]) := by
  have hcreated : created (calls ++ [⟨token, some ((created calls).length, false)⟩]) =
      created calls ++ [token] := created_append ..
  refine ⟨?_, ?_, ?_, ?_, fun k stored hk => ?_, fun k hk => ?_, fun c hc k wasResumed hk => ?_⟩
  · rw [hcreated, List.nodup_append]
    refine ⟨h.nodup, List.nodup_singleton _, fun stored hstored other hother => ?_⟩
    obtain rfl := List.mem_singleton.mp hother
    rintro rfl
    exact habsent hstored
  · rw [hcreated, List.length_append]
    exact hroom
  · intro stored hstored
    rw [hcreated, List.mem_append, List.mem_singleton] at hstored
    rcases hstored with hstored | rfl
    · exact h.short stored hstored
    · exact hlt
  · rw [hcreated, List.length_append]
    rfl
  · rw [hcreated, List.getElem?_append] at hk
    rw [successes_append]
    dsimp only
    split at hk
    next hklt =>
      have hne : token ≠ stored := by
        rintro rfl
        exact habsent (List.mem_of_getElem? hk)
      rw [Function.update_of_ne (by omega), h.stored k stored hk]
      simp [hne]
    next hkge =>
      obtain ⟨hk0, rfl⟩ : k - (created calls).length = 0 ∧ token = stored := by
        obtain ⟨hlt, hget⟩ := List.getElem?_eq_some_iff.mp hk
        exact ⟨by simpa using hlt, by simpa using hget⟩
      obtain rfl : k = (created calls).length := by omega
      rw [Function.update_self, h.successes_eq_zero habsent]
      simp
  · rw [hcreated, List.length_append, List.length_singleton] at hk
    show (Function.update table.sessions _ _ k).inUse = false
    rw [Function.update_of_ne (by omega), h.free k (by omega)]
  · rw [hcreated]
    rcases List.mem_append.mp hc with hc | hc
    · have hold := h.named c hc k wasResumed hk
      rw [List.getElem?_append_left (List.getElem?_eq_some_iff.mp hold).1]
      exact hold
    · obtain rfl := List.mem_singleton.mp hc
      obtain ⟨rfl, -⟩ := Prod.mk.injEq .. ▸ Option.some.inj hk
      simp

theorem SessionTable.Holds.call (h : table.Holds calls) (hlt : token.length < sessionTokenLen) :
    (sessionLookupOrCreate table token).2.Holds
      (calls ++ [⟨token, (sessionLookupOrCreate table token).1⟩]) := by
  by_cases hmem : token ∈ created calls
  · obtain ⟨i, hi⟩ := List.mem_iff_getElem?.mp hmem
    rw [h.lookup_known hlt hi]
    exact h.known hi
  rcases h.le.lt_or_eq with hroom | hfull
  · rw [h.lookup_new hlt hmem hroom]
    exact h.new hlt hmem hroom
  · rw [h.lookup_full hlt hmem hfull]
    exact h.denied

theorem SessionTable.Holds.inUse_iff (h : table.Holds calls) (i : ℕ) :
    (table.sessions i).inUse = true ↔ i < (created calls).length := by
  constructor
  · intro hi
    obtain ⟨token, htoken⟩ := h.exists_token hi
    exact (List.getElem?_eq_some_iff.mp htoken).1
  · intro hi
    rw [h.stored i _ (List.getElem?_eq_getElem hi)]

/-- The identifier of a session is the rank at which its token was new. -/
theorem SessionTable.Holds.toNat_clientId (h : table.Holds calls) {i : ℕ}
    (hi : (table.sessions i).inUse = true) : (table.sessions i).clientId.toNat = i + 1 := by
  obtain ⟨token, htoken⟩ := h.exists_token hi
  have hlt := (List.getElem?_eq_some_iff.mp htoken).1
  have hle := h.le
  rw [h.stored i token htoken, UInt64.toNat_ofNat_of_lt']
  show i + 1 < 2 ^ 64
  simp only [maxSessions] at hle
  omega

/-- Sessions in use are told apart by their tokens, and by their
identifiers. -/
theorem SessionTable.Holds.distinct (h : table.Holds calls) {i j : ℕ}
    (hi : (table.sessions i).inUse = true) (hj : (table.sessions j).inUse = true)
    (heq : (table.sessions i).token = (table.sessions j).token ∨
      (table.sessions i).clientId = (table.sessions j).clientId) : i = j := by
  rcases heq with heq | heq
  · obtain ⟨token, htoken⟩ := h.exists_token hi
    obtain ⟨token', htoken'⟩ := h.exists_token hj
    rw [h.stored i token htoken, h.stored j token' htoken'] at heq
    obtain rfl : token = token' := heq
    exact (List.getElem?_inj (List.getElem?_eq_some_iff.mp htoken).1 h.nodup).mp
      (htoken.trans htoken'.symm)
  · have hi' := h.toNat_clientId hi
    have hj' := h.toNat_clientId hj
    rw [heq] at hi'
    omega

theorem SessionTable.Holds.full_iff (h : table.Holds calls) :
    (∀ i < maxSessions, (table.sessions i).inUse = true ∧ (table.sessions i).token ≠ token) ↔
      token ∉ created calls ∧ (created calls).length = maxSessions := by
  constructor
  · intro hall
    constructor
    · intro hmem
      obtain ⟨i, hi⟩ := List.mem_iff_getElem?.mp hmem
      have hne := (hall i ((List.getElem?_eq_some_iff.mp hi).1.trans_le h.le)).2
      rw [h.stored i token hi] at hne
      exact hne rfl
    · by_contra hne
      have huse := (hall _ (lt_of_le_of_ne h.le hne)).1
      rw [h.free _ le_rfl] at huse
      cases huse
  · rintro ⟨habsent, hfull⟩ i hi
    have hget := List.getElem?_eq_getElem (hi.trans_eq hfull.symm)
    rw [h.stored i _ hget]
    refine ⟨rfl, ?_⟩
    rintro rfl
    exact habsent (List.getElem_mem _)

theorem SessionTable.Holds.lookup_null (h : table.Holds calls)
    (hlt : token.length < sessionTokenLen) :
    ((sessionLookupOrCreate table token).1 = none ↔
      ∀ i < maxSessions, (table.sessions i).inUse = true ∧ (table.sessions i).token ≠ token) ∧
    ((sessionLookupOrCreate table token).1 = none →
      (sessionLookupOrCreate table token).2 = table) := by
  rw [h.full_iff]
  by_cases hmem : token ∈ created calls
  · obtain ⟨i, hi⟩ := List.mem_iff_getElem?.mp hmem
    simp [h.lookup_known hlt hi, hmem]
  rcases h.le.lt_or_eq with hroom | hfull
  · simp [h.lookup_new hlt hmem hroom, hroom.ne]
  · simp [h.lookup_full hlt hmem hfull, hmem, hfull]

end Lookup

/-! ### Sessions stay -/

/-- Sessions in use keep their slot, their token and their identifier. -/
def SessionTable.Keeps (table table' : SessionTable) : Prop :=
  ∀ i, (table.sessions i).inUse = true → (table'.sessions i).inUse = true ∧
    (table'.sessions i).token = (table.sessions i).token ∧
    (table'.sessions i).clientId = (table.sessions i).clientId

theorem SessionTable.Keeps.trans {t₁ t₂ t₃ : SessionTable} (h₁ : t₁.Keeps t₂) (h₂ : t₂.Keeps t₃) :
    t₁.Keeps t₃ := by
  intro i hi
  obtain ⟨huse₁, htoken₁, hid₁⟩ := h₁ i hi
  obtain ⟨huse₂, htoken₂, hid₂⟩ := h₂ i huse₁
  exact ⟨huse₂, htoken₂.trans htoken₁, hid₂.trans hid₁⟩

/-- A call changes the count of a session in use, or a slot that is free. -/
theorem SessionTable.keeps_lookup (table : SessionTable) (token : List UInt8) :
    table.Keeps (sessionLookupOrCreate table token).2 := by
  intro k hk
  simp only [sessionLookupOrCreate]
  split
  next i hknown =>
    by_cases hki : k = i
    · subst hki
      simp [hk]
    · simp [hki, hk]
  next => exact ⟨hk, rfl, rfl⟩
  next i _ hfree =>
    have hki : k ≠ i := by
      rintro rfl
      simpa [hk] using List.find?_some hfree
    simp [hki, hk]

/-! ### The table of the server -/

theorem length_identifyToken_lt (m : MessageControl) :
    (identifyToken m).length < sessionTokenLen := by
  have hle : (identifyToken m).length ≤ (slice m.message 0 (tokenLength m)).length :=
    List.takeWhile_prefix _ |>.length_le
  have hmin : tokenLength m ≤ sessionTokenLen - 1 := min_le_right _ _
  rw [length_slice] at hle
  exact hle.trans_lt (hmin.trans_lt (by decide))

section Steps

variable {s s' : Sys}

theorem Sys.Step.table {l : Label} (h : s.Step l s') :
    sessionCall s l = none ∧ s'.table = s.table ∨
    ∃ token : List UInt8, token.length < sessionTokenLen ∧
      sessionCall s l = some ⟨token, (sessionLookupOrCreate s.table token).1⟩ ∧
      s'.table = (sessionLookupOrCreate s.table token).2 := by
  cases h with
  | io step => exact .inl ⟨rfl, step.frame.1⟩
  | lock start | wake waiting => exact .inl ⟨rfl, rfl⟩
  | sig step =>
      cases step with
      | sendFarewell pc ok =>
          refine .inl ⟨rfl, ?_⟩
          unfold Sys.sendFarewell
          dsimp only
          split <;> rfl
      | _ => exact .inl ⟨rfl, rfl⟩
  | @process w task busy free =>
      have hstep := s.process_inv w task
      generalize s.process w task = s' at hstep
      cases hstep with
      | lookup stage cmd token =>
          refine .inr ⟨identifyToken task.message, length_identifyToken_lt _, ?_, rfl⟩
          simp only [sessionCall, busy, stage]
          rw [if_pos ⟨cmd, token⟩]
      | answer stage reply =>
          refine .inl ⟨?_, rfl⟩
          simp only [sessionCall, busy, stage]
          rw [if_neg]
          rintro ⟨hcmd, htoken⟩
          simp [directReply, hcmd, htoken] at reply
      | pass stage silent =>
          refine .inl ⟨?_, rfl⟩
          simp only [sessionCall, busy, stage]
          rw [if_neg]
          rintro ⟨hcmd, -⟩
          simp [hcmd] at silent
      | mark stage cmd =>
          refine .inl ⟨?_, rfl⟩
          simp [sessionCall, busy, stage, cmd]
      | check stage | deny stage | name stage | reply stage | finish stage =>
          exact .inl ⟨by simp only [sessionCall, busy, stage], rfl⟩

theorem Sys.Step.keeps {l : Label} (h : s.Step l s') : s.table.Keeps s'.table := by
  obtain ⟨-, heq⟩ | ⟨token, -, -, heq⟩ := h.table
  · rw [heq]
    exact fun i hi => ⟨hi, rfl, rfl⟩
  · rw [heq]
    exact s.table.keeps_lookup token

end Steps

def SessionTable.numInUse (table : SessionTable) : ℕ :=
  ((Finset.range maxSessions).filter fun i => (table.sessions i).inUse = true).card

theorem SessionTable.Holds.numInUse {table : SessionTable} {calls : List SessionCall}
    (h : table.Holds calls) : table.numInUse = (created calls).length := by
  have hfilter : ((Finset.range maxSessions).filter fun i => (table.sessions i).inUse = true) =
      Finset.range (created calls).length := by
    ext i
    simp only [Finset.mem_filter, Finset.mem_range, h.inUse_iff]
    have := h.le
    omega
  rw [SessionTable.numInUse, hfilter, Finset.card_range]

theorem SessionSys.holds {x : SessionSys}
    (hx : Reachable SessionSys.step (fun _ _ => True) SessionSys.init x) : x.1.table.Holds x.2 := by
  refine hx.invariant (I := fun x => x.1.table.Holds x.2) .init fun x l x' h _ hs => ?_
  obtain ⟨hstep, hcalls⟩ := observed_inv hs
  obtain ⟨hcall, heq⟩ | ⟨token, hlt, hcall, heq⟩ := (Sys.step_inv hstep).table
  · rw [hcalls, hcall, heq]
    simpa using h
  · rw [hcalls, hcall, heq]
    exact h.call hlt

/-- **The session table.** In every state, whatever the workers do:

* sessions in use have different tokens and different identifiers, each
  identifier is the rank at which the token of the session was new, and
  `next_persistent_id` is the number of sessions in use;
* every call that returned a session with a token returned the one that
  has the token now, and this session has been counted as often as there
  were such calls;
* sessions in use stay as they are in every state that follows;
* a call with a token that fits returns a null pointer if and only if no
  session has the token and all are in use, and then changes nothing. -/
theorem sessions_follow_calls {x : SessionSys}
    (hx : Reachable SessionSys.step (fun _ _ => True) SessionSys.init x) :
    (∀ i j, (x.1.table.sessions i).inUse = true → (x.1.table.sessions j).inUse = true →
      (x.1.table.sessions i).token = (x.1.table.sessions j).token ∨
        (x.1.table.sessions i).clientId = (x.1.table.sessions j).clientId → i = j) ∧
    (∀ i, (x.1.table.sessions i).inUse = true →
      (created x.2)[i]? = some (x.1.table.sessions i).token ∧
      (x.1.table.sessions i).clientId.toNat = i + 1 ∧
      (x.1.table.sessions i).reconnectCount = successes x.2 (x.1.table.sessions i).token) ∧
    x.1.table.nextPersistentId.toNat = x.1.table.numInUse ∧
    (∀ c ∈ x.2, ∀ i wasResumed, c.result = some (i, wasResumed) → i < maxSessions ∧
      (x.1.table.sessions i).inUse = true ∧ (x.1.table.sessions i).token = c.token) ∧
    (∀ s', Reachable Sys.step (fun _ _ => True) x.1 s' → x.1.table.Keeps s'.table) ∧
    ∀ token : List UInt8, token.length < sessionTokenLen →
      ((sessionLookupOrCreate x.1.table token).1 = none ↔
        ∀ i < maxSessions, (x.1.table.sessions i).inUse = true ∧
          (x.1.table.sessions i).token ≠ token) ∧
      ((sessionLookupOrCreate x.1.table token).1 = none →
        (sessionLookupOrCreate x.1.table token).2 = x.1.table) := by
  have h : x.1.table.Holds x.2 := SessionSys.holds hx
  refine ⟨fun i j hi hj heq => h.distinct hi hj heq, fun i hi => ?_, ?_, fun c hc i r hresult => ?_,
    fun s' hs' => ?_, fun token htoken => h.lookup_null htoken⟩
  · obtain ⟨token, htoken⟩ := h.exists_token hi
    refine ⟨?_, h.toNat_clientId hi, ?_⟩
    · rw [h.stored i token htoken, htoken]
    · rw [h.stored i token htoken]
  · rw [h.numInUse, h.next, UInt64.toNat_ofNat_of_lt']
    exact h.le.trans_lt (by decide)
  · have hnamed := h.named c hc i r hresult
    have hlt := (List.getElem?_eq_some_iff.mp hnamed).1
    rw [h.stored i c.token hnamed]
    exact ⟨hlt.trans_le h.le, rfl, rfl⟩
  · refine hs'.invariant (I := fun s' => x.1.table.Keeps s'.table) ?_ fun s l s' hkeeps _ hs => ?_
    · exact fun i hi => ⟨hi, rfl, rfl⟩
    · exact hkeeps.trans (Sys.step_inv hs).keeps

def recvPayloadFrame (m : MessageControl) : List Label :=
  [recvBytes (slice m.header 0 headerSize), recvBytes (slice m.message 0 m.length.toNat),
    recvBytes (slice m.checksum 0 checksumSize)]

def identifyWith (token : List UInt8) : List Label :=
  List.flatten [readableOn 5, recvPayloadFrame (buildMessage token Command.identify.code 0 0),
    [.io (.enqueue none), .lock firstWorker], List.replicate 5 (.process firstWorker), throughReap]

def identifyThrice : List Label :=
  acceptOn 5 ++ identifyWith (ascii "a") ++ identifyWith (ascii "ab") ++ identifyWith (ascii "a")

theorem sessions_follow_calls_identifyThrice :
    ∃ x : SessionSys, Reachable SessionSys.step (fun _ _ => True) SessionSys.init x ∧
      created x.2 = [ascii "a", ascii "ab"] ∧ (x.1.table.sessions 0).inUse = true ∧
      (x.1.table.sessions 0).clientId.toNat = 1 ∧
      (x.1.table.sessions 0).reconnectCount = successes x.2 (x.1.table.sessions 0).token ∧
      (x.1.table.sessions 0).reconnectCount = 2 ∧ x.1.table.nextPersistentId.toNat = 2 := by
  have hrun : (runs (guarded SessionSys.step fun _ _ => True) SessionSys.init identifyThrice).map
      (fun x => (created x.2, (x.1.table.sessions 0).inUse,
        (x.1.table.sessions 0).reconnectCount, x.1.table.nextPersistentId.toNat)) =
      some ([ascii "a", ascii "ab"], true, 2, 2) := by
    decide +kernel
  obtain ⟨x, hreach, hobs⟩ := Reachable.exists_of_runs hrun
  simp only [Prod.mk.injEq] at hobs
  obtain ⟨hcreated, huse, hcount, hnext⟩ := hobs
  obtain ⟨-, hsessions, -⟩ := sessions_follow_calls hreach
  obtain ⟨-, hid, hsuccesses⟩ := hsessions 0 huse
  exact ⟨x, hreach, hcreated, huse, hid, hsuccesses, hcount, hnext⟩

end LinuxMiniProjects.ControlPlane
