import LinuxMiniProjects.Gateway.Crc
import LinuxMiniProjects.Gateway.Framing

/-!
Frames that are damaged on their way.

The CRC of a payload changes whenever the payload does, as long as the
change stays within four consecutive bytes. So the reader notices if a
frame has been damaged there, or in its checksum: it answers with
`ERR_CRC_MISMATCH` and goes on behind the frame.

This is about the types that the gateway supports. The header of any
other frame is rejected before its checksum is looked at.
-/

namespace LinuxMiniProjects.Gateway

open Bytes Machine

/-! ### The checksum of a damaged payload -/

/-- The payloads have the same length and are not the same, but they are
outside of four consecutive bytes. -/
structure Corrupts (payload payload' : List UInt8) : Prop where
  length : payload'.length = payload.length
  ne : payload' ≠ payload
  window : ∃ k, ∀ i, i < k ∨ k + 4 ≤ i → payload'[i]? = payload[i]?

theorem byteBits_injective : Function.Injective byteBits := by
  intro d d' h
  refine UInt8.eq_of_toBitVec_eq (BitVec.eq_of_getLsbD_eq fun i hi => ?_)
  have hbit := congrArg (fun bits => bits.getD i false) h
  simpa [byteBits, hi, List.getD_eq_getElem?_getD] using hbit

theorem flatMap_byteBits_injective : Function.Injective (List.flatMap byteBits) := by
  intro ds ds' h
  have hlen : ds.length = ds'.length := by
    have hbits := congrArg List.length h
    simpa using hbits
  induction ds generalizing ds' with
  | nil => exact (List.eq_nil_of_length_eq_zero hlen.symm).symm
  | cons d ds ih =>
      cases ds' with
      | nil => cases hlen
      | cons d' ds' =>
          rw [List.flatMap_cons, List.flatMap_cons] at h
          obtain ⟨hd, hds⟩ := List.append_inj h (by simp)
          rw [byteBits_injective hd, ih hds (Nat.succ.inj hlen)]

theorem crcLoop_append_ne {burst burst' : List UInt8} (hlen : burst.length = burst'.length)
    (hle : burst.length ≤ 4) (hne : burst ≠ burst') (crc : UInt32) (before after : List UInt8) :
    crcLoop crc (before ++ burst ++ after) ≠ crcLoop crc (before ++ burst' ++ after) := by
  intro heq
  rw [crcLoop_eq_bitLoop, crcLoop_eq_bitLoop] at heq
  have hbits := congrArg UInt32.toBitVec heq
  simp only [bitLoop, List.flatMap_append] at hbits
  have hlen' : (burst.flatMap byteBits).length = (burst'.flatMap byteBits).length := by
    simp [hlen]
  have hle' : (burst.flatMap byteBits).length ≤ 32 := by
    simp
    omega
  exact Crc.register_append_ne (by decide) hlen' hle' (flatMap_byteBits_injective.ne hne) _ _ _
    hbits

/-- A payload is its first bytes, the four bytes and the others. -/
theorem split_window (ds : List UInt8) (k : ℕ) :
    ds = ds.take k ++ (ds.drop k).take 4 ++ ds.drop (k + 4) := by
  rw [List.append_assoc, ← List.drop_drop, List.take_append_drop, List.take_append_drop]

theorem Corrupts.crcCalculate_ne {payload payload' : List UInt8} (h : Corrupts payload payload') :
    crcCalculate payload' ≠ crcCalculate payload := by
  obtain ⟨k, hk⟩ := h.window
  have hbefore : payload'.take k = payload.take k := by
    refine List.ext_getElem? fun i => ?_
    rw [List.getElem?_take, List.getElem?_take]
    split
    next hi => exact hk i (.inl hi)
    next => rfl
  have hafter : payload'.drop (k + 4) = payload.drop (k + 4) := by
    refine List.ext_getElem? fun i => ?_
    rw [List.getElem?_drop, List.getElem?_drop]
    exact hk _ (.inr (Nat.le_add_right _ _))
  have hlen : ((payload'.drop k).take 4).length = ((payload.drop k).take 4).length := by
    simp [h.length]
  have hburst : (payload'.drop k).take 4 ≠ (payload.drop k).take 4 := by
    intro heq
    apply h.ne
    rw [split_window payload' k, split_window payload k, hbefore, hafter, heq]
  have hle : ((payload'.drop k).take 4).length ≤ 4 := by
    rw [List.length_take]
    exact Nat.min_le_left ..
  rw [crcCalculate, crcCalculate, Ne, UInt32.xor_left_inj]
  have hne := crcLoop_append_ne hlen hle hburst 0xFFFFFFFF (payload.take k) (payload.drop (k + 4))
  rwa [← split_window payload k, ← hbefore, ← hafter, ← split_window payload' k] at hne

/-! ### The reader -/

def Request.crcBytes (r : Request) : List UInt8 := r.encode.drop (headerSize + r.payload.length)

/-- The frame of a request, with another payload and other bytes for the
checksum. -/
def Request.frameWith (r : Request) (payload crc : List UInt8) : List UInt8 :=
  r.encode.take headerSize ++ payload ++ crc

/-- The frame of a request that is damaged within four bytes of its payload,
or in its checksum. -/
inductive Damaged (r : Request) : List UInt8 → Prop
  | payload {payload} (corrupts : Corrupts r.payload payload) :
      Damaged r (r.frameWith payload r.crcBytes)
  | crc {crc} (length : crc.length = crcSize) (ne : crc ≠ r.crcBytes) :
      Damaged r (r.frameWith r.payload crc)

theorem Request.crcBytes_eq (r : Request) : r.crcBytes = be32 (crcCalculate r.payload) := by
  rw [Request.crcBytes, r.encode_eq, List.drop_left' (by rw [List.length_append]; rfl)]

theorem Request.frameWith_eq (r : Request) (payload crc : List UInt8) :
    r.frameWith payload crc =
      headerBytes r.type (UInt32.ofNat r.payload.length) r.requestId ++ payload ++ crc := by
  rw [Request.frameWith, r.encode_eq, List.append_assoc (headerBytes ..),
    List.take_left' (show List.length _ = headerSize from rfl)]

section FrameWith

variable (r : Request) {payload crc : List UInt8} (hlen : payload.length = r.payload.length)

theorem Request.headerOf_frameWith (V : List UInt8) :
    headerOf (r.frameWith payload crc ++ V) = r.header := by
  refine decodeHeader_of_slice ?_
  have hheader : (headerBytes r.type (UInt32.ofNat r.payload.length) r.requestId).length =
      headerSize := rfl
  rw [Request.frameWith_eq, List.append_assoc, List.append_assoc, ← hheader]
  exact slice_ofList_append [] _ _

include hlen

theorem Request.payloadOf_frameWith : payloadOf (r.frameWith payload crc) = payload := by
  have hheader : headerOf (r.frameWith payload crc) = r.header := by
    simpa using r.headerOf_frameWith []
  rw [payloadOf, hheader, r.toNat_length, Request.frameWith_eq, List.append_assoc,
    List.drop_left' (show List.length _ = headerSize from rfl), ← hlen, List.take_left]

theorem Request.crcOf_frameWith (c : UInt32) : crcOf (r.frameWith payload (be32 c)) = c := by
  have hheader : headerOf (r.frameWith payload (be32 c)) = r.header := by
    simpa using r.headerOf_frameWith []
  have hbefore : (headerBytes r.type (UInt32.ofNat r.payload.length) r.requestId ++
      payload).length = headerSize + r.payload.length := by
    rw [List.length_append, hlen]
    rfl
  rw [crcOf, hheader, r.toNat_length, ← hbefore]
  refine decode32Bit_of_slice ?_
  rw [Request.frameWith_eq, ← List.append_nil (_ ++ be32 c)]
  exact slice_ofList_append _ (be32 c) []

theorem Request.length_frameWith (hcrc : crc.length = crcSize) :
    (r.frameWith payload crc).length = packetSize r.payload.length := by
  rw [Request.frameWith_eq, List.length_append, List.length_append, hlen, hcrc]
  rfl

end FrameWith

section Damage

variable {r : Request} {W : List UInt8}

theorem Damaged.headerOf_append (h : Damaged r W) (V : List UInt8) :
    headerOf (W ++ V) = r.header := by
  cases h with
  | payload corrupts => exact r.headerOf_frameWith V
  | crc length ne => exact r.headerOf_frameWith V

theorem Damaged.length_eq (h : Damaged r W) : W.length = packetSize r.payload.length := by
  cases h with
  | payload corrupts =>
      refine r.length_frameWith corrupts.length ?_
      rw [r.crcBytes_eq]
      rfl
  | crc length ne => exact r.length_frameWith rfl length

theorem Damaged.crcOf_ne (h : Damaged r W) : crcOf W ≠ crcCalculate (payloadOf W) := by
  cases h with
  | payload corrupts =>
      rw [r.crcBytes_eq, r.crcOf_frameWith corrupts.length, r.payloadOf_frameWith corrupts.length]
      exact corrupts.crcCalculate_ne.symm
  | crc length ne =>
      obtain ⟨c, rfl⟩ := exists_be32 length
      rw [r.crcOf_frameWith rfl, r.payloadOf_frameWith rfl]
      rintro rfl
      exact ne r.crcBytes_eq.symm

end Damage

/-- The reader of slot `i` is at the frame `W`, and `V` follows it. -/
structure AtFrame (clients : Clients) (i : ℕ) (ssl : Ssl) (W V : List UInt8) : Prop where
  session : Session clients i ssl
  bytes : (clients i).received ++ ssl.unread = W ++ V

/-- The reader of slot `i` is between two frames, and `V` follows. -/
structure Between (clients : Clients) (i : ℕ) (ssl : Ssl) (V : List UInt8) : Prop where
  session : Session clients i ssl
  stage : (clients i).stage = .readHeader
  rxLen : (clients i).rxLen = 0
  bytes : ssl.unread = V

section Runs

variable {r : Request} {W V : List UInt8} {clients : Clients} {i : ℕ} {ssl : Ssl}

theorem AtFrame.unread_ne_nil (h : AtFrame clients i ssl W V) (hW : Damaged r W) :
    ssl.unread ≠ [] := by
  intro hempty
  have hbytes := h.bytes
  rw [hempty, List.append_nil] at hbytes
  have hlen : W.length ≤ (clients i).rxLen := by
    rw [← length_received, hbytes, List.length_append]
    exact Nat.le_add_right _ _
  rw [hW.length_eq, packetSize] at hlen
  obtain ⟨-, hshort⟩ | ⟨-, -, -, hshort⟩ := h.session.reading
  · omega
  · rw [hbytes, frameSize, hW.headerOf_append, r.toNat_length, packetSize] at hshort
    omega

theorem AtFrame.headerOf_received (h : AtFrame clients i ssl W V) (hW : Damaged r W)
    {D rest : List UInt8} (hD : ssl.unread = D ++ rest)
    (hlen : headerSize ≤ ((clients i).received ++ D).length) :
    headerOf ((clients i).received ++ D) = r.header := by
  rw [← headerOf_append hlen rest, List.append_assoc, ← hD, h.bytes, hW.headerOf_append]

/-- One call at a damaged frame: it takes something of the frame and waits for
the rest, or it takes all of it and answers, if there is memory for that. -/
theorem AtFrame.readStep (h : AtFrame clients i ssl W V) (hW : Damaged r W)
    (hr : Supported r.type) (env : ReadEnv) :
    (clientReadMessage clients i env).out = .nothing ∧
        (clientReadMessage clients i env).ssl.weight < ssl.weight ∧
        AtFrame (readStep i clients env).2 i (clientReadMessage clients i env).ssl W V ∨
      (clientReadMessage clients i env).out =
          (if env.packetOk then .packet (buildErrorPacket r.requestId .crcMismatch)
          else .nothing) ∧
        Between (readStep i clients env).2 i (clientReadMessage clients i env).ssl V := by
  obtain ⟨hsession, -, hprogress⟩ := h.session.readStep_of_header env
    fun D rest hD hlen => .inl (by
      rw [h.headerOf_received hW hD hlen.ge, r.checkHeader_eq_none hr])
  obtain ⟨D, hunread, -, hreads, -, -⟩ :=
    clientReadMessage_spec env h.session.reading h.session.transport
  have hbytes := h.bytes
  rw [hunread, ← List.append_assoc] at hbytes
  cases hreads with
  | paused ret out reading received =>
      have hat : AtFrame (Gateway.readStep i clients env).2 i
          (clientReadMessage clients i env).ssl W V := by
        refine ⟨hsession, ?_⟩
        rw [readStep_self, received, hbytes]
      exact .inl ⟨out, hprogress.resolve_right (hat.unread_ne_nil hW), hat⟩
  | rejected e length check out ret rewound =>
      rw [h.headerOf_received hW hunread length.ge, r.checkHeader_eq_none hr] at check
      cases check
  | complete length check out ret rewound =>
      have hlen : headerSize ≤ ((clients i).received ++ D).length := by
        rw [length, frameSize, packetSize]
        omega
      have hheader := h.headerOf_received hW hunread hlen
      have hsize : ((clients i).received ++ D).length = W.length := by
        rw [length, frameSize, hheader, r.toNat_length, hW.length_eq]
      obtain ⟨hword, hrest⟩ := List.append_inj hbytes hsize
      refine .inr ⟨?_, hsession, ?_, ?_, hrest⟩
      · rw [out, frameOut, hheader, hword, if_pos hW.crcOf_ne]
        rfl
      · rw [readStep_self, rewound.1]
      · rw [readStep_self, rewound.2]

/-- Some first part of a run of calls takes the frame. The induction is over
the calls; each of them takes something. -/
theorem AtFrame.run (h : AtFrame clients i ssl W V) (hW : Damaged r W) (hr : Supported r.type)
    {envs : List ReadEnv} (hlen : ssl.weight ≤ envs.length) :
    ∃ k ≤ envs.length, ∃ ssl',
      pushed (trace (Gateway.readStep i) clients (envs.take k)) = [] ∧
      ((∀ env ∈ envs, env.packetOk = true) →
        packets (trace (Gateway.readStep i) clients (envs.take k)) =
          [buildErrorPacket r.requestId .crcMismatch]) ∧
      Between (exec (Gateway.readStep i) clients (envs.take k)) i ssl' V := by
  induction envs generalizing clients ssl with
  | nil => exact absurd (Ssl.unread_eq_nil (Nat.le_zero.mp hlen)) (h.unread_ne_nil hW)
  | cons env envs ih =>
      rw [List.length_cons] at hlen
      obtain ⟨hout, hlt, hat⟩ | ⟨hout, hbetween⟩ := h.readStep hW hr env
      · obtain ⟨k, hk, ssl', hpushed, hpackets, hbetween⟩ := ih hat (by omega)
        refine ⟨k + 1, Nat.succ_le_succ hk, ssl', ?_, fun hok => ?_, hbetween⟩
        · rw [List.take_succ_cons, trace, pushed_cons, hpushed]
          simp [pushed, tasksOf, hout]
        · rw [List.take_succ_cons, trace, packets_cons,
            hpackets fun e he => hok e (List.mem_cons_of_mem _ he)]
          simp [packets, packetsOf, hout]
      · refine ⟨1, Nat.succ_le_succ (Nat.zero_le _), _, ?_, fun hok => ?_, hbetween⟩
        · by_cases hpacket : env.packetOk = true <;> simp [trace, pushed, tasksOf, hout, hpacket]
        · rw [if_pos (hok env List.mem_cons_self)] at hout
          simp [trace, packets, packetsOf, hout]

end Runs

/-- **Local damage is detected.** Payloads of the same length that differ
within four consecutive bytes have different checksums. So a frame of a
supported type that is damaged within four bytes of its payload, or in its
checksum, and reaches the reader in any records with anything behind it, is
taken once the reader has been called often enough. No task is made of it,
it is answered with `ERR_CRC_MISMATCH` if there is memory for an answer, and
the reader goes on behind it. -/
theorem crc_detects_damage :
    (∀ payload payload', Corrupts payload payload' →
      crcCalculate payload' ≠ crcCalculate payload) ∧
    ∀ (clients : Clients) (i : ℕ) (ssl : Ssl) (r : Request) (W V : List UInt8),
      Listening clients i ssl → Supported r.type → Damaged r W → ssl.unread = W ++ V →
      ∃ n, ∀ envs : List ReadEnv, n ≤ envs.length →
        ∃ k ≤ envs.length, ∃ ssl',
          pushed (trace (readStep i) clients (envs.take k)) = [] ∧
          ((∀ env ∈ envs, env.packetOk = true) →
            packets (trace (readStep i) clients (envs.take k)) =
              [buildErrorPacket r.requestId .crcMismatch]) ∧
          Between (exec (readStep i) clients (envs.take k)) i ssl' V := by
  refine ⟨fun payload payload' h => h.crcCalculate_ne, ?_⟩
  intro clients i ssl r W V h hr hW hstream
  refine ⟨ssl.weight, fun envs hlen => AtFrame.run ⟨h.session, ?_⟩ hW hr hlen⟩
  rw [(reading_of_rewound ⟨h.stage, h.rxLen⟩).2, hstream, List.nil_append]

/-- An `ECHO` request whose second byte is damaged, one byte at a time. -/
theorem crc_detects_damage_drip :
    let echo : Request := ⟨msgEcho, 7, [0x68, 0x69], by decide⟩
    let W := echo.frameWith [0x68, 0x6F] echo.crcBytes
    Damaged echo W ∧ ∃ n, ∀ envs : List ReadEnv, n ≤ envs.length →
      ∃ k ≤ envs.length, ∃ ssl',
        pushed (trace (readStep 0) (oneClient (drip W)) (envs.take k)) = [] ∧
        ((∀ env ∈ envs, env.packetOk = true) →
          packets (trace (readStep 0) (oneClient (drip W)) (envs.take k)) =
            [buildErrorPacket 7 .crcMismatch]) ∧
        Between (exec (readStep 0) (oneClient (drip W)) (envs.take k)) 0 ssl' [] := by
  intro echo W
  have hdamaged : Damaged echo W := .payload ⟨rfl, by decide, 0, fun i hi => by
    simp only [echo]
    rw [List.getElem?_eq_none (by simp; omega), List.getElem?_eq_none (by simp; omega)]⟩
  exact ⟨hdamaged, crc_detects_damage.2 _ 0 _ echo W [] (listening_oneClient (quiet_drip W))
    (by simp only [echo]; decide) hdamaged (by rw [unread_drip, List.append_nil])⟩

/-- A `SET_DEVICE` request with a damaged payload. It is answered, but not
because of its checksum: the header is rejected before. The rest of the
frame stays and is taken for the start of a header. -/
theorem damaged_setDevice_answered_unknownType :
    let set : Request := ⟨msgSetDevice, 9, [1], by decide⟩
    let W := set.frameWith [2] set.crcBytes
    let ssl : Ssl := ⟨[], recordOf W, 0⟩
    let env : ReadEnv := ⟨0, 0, true, true⟩
    Listening (oneClient ssl) 0 ssl ∧ Damaged set W ∧ ssl.unread = W ∧
      packets (trace (readStep 0) (oneClient ssl) [env]) = [buildErrorPacket 9 .unknownType] ∧
      packets (trace (readStep 0) (oneClient ssl) [env, env, env]) =
        [buildErrorPacket 9 .unknownType] ∧
      buildErrorPacket 9 .unknownType ≠ buildErrorPacket 9 .crcMismatch := by
  intro set W ssl env
  have hquiet : ssl.Quiet := ⟨by decide +kernel, by decide +kernel⟩
  have hdamaged : Damaged set W := .payload ⟨rfl, by decide, 0, fun i hi => by
    simp only [set]
    rw [List.getElem?_eq_none (by simp; omega), List.getElem?_eq_none (by simp; omega)]⟩
  exact ⟨listening_oneClient hquiet, hdamaged, by decide +kernel, by decide +kernel,
    by decide +kernel, by decide +kernel⟩

end LinuxMiniProjects.Gateway
