import LinuxMiniProjects.Lib.EndAround
import LinuxMiniProjects.ControlPlane.Framing

/-!
What the checksum tells about a message (`calculate_checksum` in
`common.h`).

The checksum adds the bytes of the header and of the payload, adds the
carries of the sum to its lower 16 bits as long as there are any, and
inverts the result. The sum of a message is far below `2 ^ 32`, so nothing
is lost before the carries are added, and what is left of it is the word
of `Lib.EndAround`: the sum modulo 65535, where zero is kept apart. A
single byte changes the sum by at most 255, hence the checksum.
-/

namespace LinuxMiniProjects.ControlPlane

open Bytes Socket Machine EndAround

def byteSum (bs : List UInt8) : ℕ := (bs.map UInt8.toNat).sum

def MessageControl.covered (m : MessageControl) : List UInt8 :=
  slice m.header 0 headerSize ++ slice m.message 0 m.length.toNat

def MessageControl.sum (m : MessageControl) : ℕ := byteSum m.covered

inductive Folds : UInt32 → UInt32 → Prop
  | done {sum : UInt32} (carry : sum >>> 16 = 0) : Folds sum sum
  | turn {sum out : UInt32} (carry : sum >>> 16 ≠ 0)
      (rest : Folds ((sum &&& (0xFFFF : UInt32)) + (sum >>> 16)) out) : Folds sum out

/-! ### The sum -/

section Sums

theorem byteSum_cons (b : UInt8) (bs : List UInt8) :
    byteSum (b :: bs) = b.toNat + byteSum bs := by
  rw [byteSum, List.map_cons, List.sum_cons, byteSum]

theorem byteSum_append (as bs : List UInt8) : byteSum (as ++ bs) = byteSum as + byteSum bs := by
  rw [byteSum, List.map_append, List.sum_append, byteSum, byteSum]

theorem byteSum_le (bs : List UInt8) : byteSum bs ≤ 255 * bs.length := by
  induction bs with
  | nil => exact Nat.le_refl _
  | cons b bs ih =>
      have hb : b.toNat < 256 := b.toNat_lt
      rw [byteSum_cons, List.length_cons]
      omega

theorem toNat_addBytes (sum : UInt32) {bs : List UInt8}
    (h : sum.toNat + byteSum bs < 2 ^ 32) :
    (addBytes sum bs).toNat = sum.toNat + byteSum bs := by
  induction bs generalizing sum with
  | nil => rfl
  | cons b bs ih =>
      rw [byteSum_cons] at h ⊢
      have hadd : (sum + b.toUInt32).toNat = sum.toNat + b.toNat := by
        rw [UInt32.toNat_add, UInt8.toNat_toUInt32, Nat.mod_eq_of_lt (by omega)]
      show (addBytes (sum + b.toUInt32) bs).toNat = _
      rw [ih _ (by omega), hadd, Nat.add_assoc]

theorem addBytes_append (sum : UInt32) (as bs : List UInt8) :
    addBytes sum (as ++ bs) = addBytes (addBytes sum as) bs := List.foldl_append

theorem exists_byteSum_update (buf : Buf) {i n : ℕ} (h : i < n) :
    ∃ rest, ∀ b, byteSum (slice (Function.update buf i b) 0 n) = rest + b.toNat := by
  obtain ⟨as, cs, hslice⟩ := exists_slice_update buf h
  refine ⟨byteSum as + byteSum cs, fun b => ?_⟩
  rw [hslice, byteSum_append, byteSum_cons]
  omega

variable {m : MessageControl}

theorem MessageControl.sum_eq (m : MessageControl) :
    m.sum = byteSum (slice m.header 0 headerSize) + byteSum (slice m.message 0 m.length.toNat) :=
  byteSum_append _ _

theorem MessageControl.sum_lt (h : m.LengthOk) : m.sum < 2 ^ 32 := by
  have hheader := byteSum_le (slice m.header 0 headerSize)
  have hmessage := byteSum_le (slice m.message 0 m.length.toNat)
  have hlen : m.length.toNat ≤ maxPayloadSize := Int.toNat_le.mpr h.2
  rw [length_slice] at hheader hmessage
  rw [m.sum_eq]
  unfold headerSize at hheader ⊢
  unfold maxPayloadSize at hlen
  omega

theorem MessageControl.toNat_addBytes_covered (h : m.LengthOk) :
    (addBytes 0 m.covered).toNat = m.sum := by
  have hlt : (0 : UInt32).toNat + byteSum m.covered < 2 ^ 32 := by
    rw [UInt32.toNat_zero, Nat.zero_add]
    exact sum_lt h
  rw [toNat_addBytes 0 hlt, UInt32.toNat_zero, Nat.zero_add, MessageControl.sum]

end Sums

/-! ### The carries -/

section Carries

variable {sum out : UInt32}

theorem shiftRight_eq_zero_iff (sum : UInt32) : sum >>> 16 = 0 ↔ sum.toNat < 65536 := by
  rw [← UInt32.toNat_inj, UInt32.toNat_shiftRight, UInt32.toNat_zero]
  show sum.toNat >>> 16 = 0 ↔ _
  rw [Nat.shiftRight_eq_div_pow, Nat.div_eq_zero_iff]
  simp

theorem toNat_carry (sum : UInt32) :
    ((sum &&& (0xFFFF : UInt32)) + (sum >>> 16)).toNat = turn 65536 sum.toNat := by
  have hlt : sum.toNat < 2 ^ 32 := sum.toNat_lt
  have hlow : (sum &&& (0xFFFF : UInt32)).toNat = sum.toNat % 65536 := by
    rw [UInt32.toNat_and]
    exact Nat.and_two_pow_sub_one_eq_mod sum.toNat 16
  have hhigh : (sum >>> 16).toNat = sum.toNat / 65536 := by
    rw [UInt32.toNat_shiftRight]
    exact Nat.shiftRight_eq_div_pow sum.toNat 16
  rw [UInt32.toNat_add, hlow, hhigh, turn, Nat.mod_eq_of_lt (by omega)]

/-- **The loop ends**, and `foldCarries` is what it leaves with. -/
theorem folds_foldCarries {fuel : ℕ} (h : sum.toNat ≤ fuel) :
    Folds sum (foldCarries fuel sum) := by
  induction fuel generalizing sum with
  | zero =>
      refine .done ((shiftRight_eq_zero_iff sum).mpr ?_)
      omega
  | succ fuel ih =>
      rw [foldCarries]
      split
      next hdone => exact .done hdone
      next hcarry =>
        refine .turn hcarry (ih ?_)
        -- a turn that carries makes the sum smaller
        rw [shiftRight_eq_zero_iff, Nat.not_lt] at hcarry
        have hless := turn_lt (by decide) hcarry
        rw [toNat_carry]
        omega

theorem Folds.toNat_eq (h : Folds sum out) : out.toNat = word 65536 sum.toNat := by
  induction h with
  | done carry => exact (word_of_lt ((shiftRight_eq_zero_iff _).mp carry)).symm
  | turn carry rest ih => rw [ih, toNat_carry, word_turn (by decide)]

end Carries

/-! ### The checksum -/

section Checksums

variable {m m' : MessageControl}

theorem calculateChecksum_eq (h : m.LengthOk) :
    calculateChecksum m =
      ~~~ foldCarries (addBytes 0 m.covered).toNat (addBytes 0 m.covered) := by
  have hmin : min m.length.toNat maxPayloadSize = m.length.toNat :=
    min_eq_left (Int.toNat_le.mpr h.2)
  rw [calculateChecksum, hmin, MessageControl.covered, addBytes_append]

theorem calculateChecksum_eq_iff_word (h : m.LengthOk) (h' : m'.LengthOk) :
    calculateChecksum m = calculateChecksum m' ↔ word 65536 m.sum = word 65536 m'.sum := by
  have hword : ∀ {m : MessageControl}, m.LengthOk →
      (foldCarries (addBytes 0 m.covered).toNat (addBytes 0 m.covered)).toNat =
        word 65536 m.sum := by
    intro m hm
    rw [(folds_foldCarries (Nat.le_refl _)).toNat_eq, MessageControl.toNat_addBytes_covered hm]
  rw [calculateChecksum_eq h, calculateChecksum_eq h', UInt32.not_inj, ← UInt32.toNat_inj,
    hword h, hword h']

/-- A message with one byte changed: in the header, but not in the length, or
in the payload. -/
inductive Altered (m : MessageControl) : MessageControl → Prop
  | header {i : ℕ} {b : UInt8} (lt : i < headerSize) (field : i < 16 ∨ 20 ≤ i)
      (ne : b ≠ m.header i) : Altered m { m with header := Function.update m.header i b }
  | payload {i : ℕ} {b : UInt8} (lt : (i : ℤ) < m.length) (ne : b ≠ m.message i) :
      Altered m { m with message := Function.update m.message i b }

theorem Altered.length_eq (h : Altered m m') : m'.length = m.length := by
  cases h with
  | @header i b lt field ne =>
      have hslice : slice (Function.update m.header i b) 16 4 = slice m.header 16 4 :=
        slice_congr fun j hj => Function.update_of_ne (by omega) ..
      rw [MessageControl.length, MessageControl.length, getLe32_congr hslice]
  | payload lt ne => rfl

theorem Altered.sum_eq (h : Altered m m') :
    ∃ (rest : ℕ) (b b' : UInt8), b' ≠ b ∧ m.sum = rest + b.toNat ∧ m'.sum = rest + b'.toNat := by
  have hlength := h.length_eq
  cases h with
  | @header i b lt field ne =>
      obtain ⟨rest, hrest⟩ := exists_byteSum_update m.header lt
      refine ⟨rest + byteSum (slice m.message 0 m.length.toNat), m.header i, b, ne, ?_, ?_⟩
      · have hold := hrest (m.header i)
        rw [Function.update_eq_self] at hold
        rw [m.sum_eq, hold]
        exact Nat.add_right_comm _ _ _
      · rw [MessageControl.sum_eq, hlength, hrest b]
        exact Nat.add_right_comm _ _ _
  | @payload i b lt ne =>
      obtain ⟨rest, hrest⟩ := exists_byteSum_update m.message (i := i) (n := m.length.toNat)
        (Int.lt_toNat.mpr lt)
      refine ⟨byteSum (slice m.header 0 headerSize) + rest, m.message i, b, ne, ?_, ?_⟩
      · have hold := hrest (m.message i)
        rw [Function.update_eq_self] at hold
        rw [m.sum_eq, hold, Nat.add_assoc]
      · rw [MessageControl.sum_eq, hlength, hrest b, Nat.add_assoc]

theorem Altered.calculateChecksum_ne (h : Altered m m') (hm : m.LengthOk) :
    calculateChecksum m' ≠ calculateChecksum m := by
  have hm' : m'.LengthOk := by rwa [MessageControl.LengthOk, h.length_eq]
  rw [Ne, calculateChecksum_eq_iff_word hm' hm]
  obtain ⟨rest, b, b', hne, hsum, hsum'⟩ := h.sum_eq
  have hb : b.toNat < 256 := b.toNat_lt
  have hb' : b'.toNat < 256 := b'.toNat_lt
  rcases Nat.lt_or_gt_of_ne (UInt8.toNat_inj.not.mpr hne) with hlt | hgt
  · exact word_ne_of_lt (by omega) (by omega)
  · exact (word_ne_of_lt (by omega) (by omega)).symm

end Checksums

/-- **The checksum.** For messages whose length is in range the loop for the
carries ends. Their checksums are equal exactly if their sums are the same
modulo 65535 and both or none of them are zero. So a message with one byte
changed, in the header outside of the length or in the payload, has another
checksum. -/
theorem checksum_eq_iff_sum_modEq {m m' : MessageControl} (h : m.LengthOk) (h' : m'.LengthOk) :
    (∃ out, Folds (addBytes 0 m.covered) out ∧ calculateChecksum m = ~~~ out) ∧
      (calculateChecksum m = calculateChecksum m' ↔
        m.sum ≡ m'.sum [MOD 65535] ∧ (m.sum = 0 ↔ m'.sum = 0)) ∧
      (Altered m m' → calculateChecksum m ≠ calculateChecksum m') := by
  refine ⟨⟨_, folds_foldCarries (Nat.le_refl _), calculateChecksum_eq h⟩, ?_, ?_⟩
  · rw [calculateChecksum_eq_iff_word h h', word_eq_word_iff]
  · intro haltered
    exact (haltered.calculateChecksum_ne h).symm

theorem checksum_eq_iff_sum_modEq_swapped :
    let m := buildMessage [97, 98] 0 0 0
    let m' := buildMessage [98, 97] 0 0 0
    m.LengthOk ∧ m'.LengthOk ∧ calculateChecksum m = calculateChecksum m' := by
  intro m m'
  have hm : m.LengthOk := lengthOk_buildMessage ..
  have hm' : m'.LengthOk := lengthOk_buildMessage ..
  exact ⟨hm, hm', (checksum_eq_iff_sum_modEq hm hm').2.1.mpr (by decide +kernel)⟩

/-! ### The verdict of the reader -/

section Verdict

variable {m m' : MessageControl}

theorem Altered.not_checksumOk (h : Altered m m') (hm : m.Sound) : ¬ m'.ChecksumOk := by
  have hsent : m'.checksum = m.checksum := by
    cases h with
    | header lt field ne => rfl
    | payload lt ne => rfl
  intro hok
  rw [MessageControl.ChecksumOk, hsent, hm.checksumOk] at hok
  exact h.calculateChecksum_ne hm.lengthOk hok.symm

variable {s : Client × List Item} {ms : List MessageControl}

theorem Expects.items_ne_nil (h : Expects s (m :: ms)) : s.2 ≠ [] := by
  intro hempty
  have hstream := h.stream
  rw [hempty, bytes_nil, List.append_nil, List.flatMap_cons] at hstream
  exact h.valid.received_ne_frame m _ hstream

/-- One call at an altered frame waits for the rest of it, or refuses it. -/
theorem Expects.call_altered (h : Expects s (m' :: ms)) (ha : Altered m m') (hm : m.Sound) :
    (readCall s ()).1.1 = 0 ∧ weight (readCall s ()).2.2 < weight s.2 ∧
        Expects (readCall s ()).2 (m' :: ms) ∨
      (readCall s ()).1.1 = 2 ∧ Expects (readCall s ()).2 ms := by
  have hm' : m'.LengthOk := by
    rw [MessageControl.LengthOk, ha.length_eq]
    exact hm.lengthOk
  rcases h.call_cons hm' with ⟨hret, hnext⟩ | ⟨⟨-, hok⟩ | ⟨hret, -⟩, -, hnext⟩
  · refine .inl ⟨hret, ?_, hnext⟩
    obtain hless | ⟨hempty, -⟩ := (readStage_spec h.opened h.valid h.quiet).2
    · exact hless
    · exact absurd hempty h.items_ne_nil
  · exact absurd hok (ha.not_checksumOk hm)
  · exact .inr ⟨hret, hnext⟩

/-- **An altered frame is refused.** If it arrives in any pieces, a call of
`read_stage` returns `2` for it once there were enough of them, those
before it return `0`, and the reader goes on behind the frame. -/
theorem altered_frame_refused (h : Expects s (m' :: ms)) (ha : Altered m m') (hm : m.Sound)
    {calls : List Unit} (hcalls : weight s.2 ≤ calls.length) :
    ∃ k < calls.length,
      (trace readCall s (calls.take (k + 1))).map Prod.fst = List.replicate k 0 ++ [2] ∧
      Expects (exec readCall s (calls.take (k + 1))) ms := by
  induction calls generalizing s with
  | nil => exact absurd (eq_nil_of_weight_eq_zero (Nat.le_zero.mp hcalls)) h.items_ne_nil
  | cons call calls ih =>
      rw [List.length_cons] at hcalls
      rcases h.call_altered ha hm with ⟨hret, hless, hnext⟩ | ⟨hret, hnext⟩
      · obtain ⟨k, hk, htrace, hexec⟩ := ih hnext (by omega)
        refine ⟨k + 1, Nat.succ_lt_succ hk, ?_, hexec⟩
        rw [List.take_succ_cons, trace, List.map_cons, htrace, List.replicate_succ, hret,
          List.cons_append]
      · refine ⟨0, Nat.succ_pos _, ?_, hnext⟩
        rw [List.take_succ_cons, trace, List.map_cons, hret]
        rfl

/-- The first letter is altered, and every byte comes on its own. -/
theorem altered_frame_refused_drip :
    let m := buildMessage (ascii "on") Command.setStatus.code 2 7
    let m' : MessageControl := { m with message := Function.update m.message 0 120 }
    ∃ (k : ℕ) (calls : List Unit),
      (trace readCall (initClient 1 1, drip m'.frame) calls).map Prod.fst =
        List.replicate k 0 ++ [2] := by
  intro m m'
  have hexpects : Expects (initClient 1 1, drip m'.frame) [m'] :=
    ⟨rfl, by simp [Inbox.Valid, initClient, headerSize], quiet_drip _,
      by rw [bytes_drip, List.flatMap_singleton]; rfl⟩
  have haltered : Altered m m' := .payload (by decide +kernel) (by decide +kernel)
  have hcalls : weight (drip m'.frame) ≤
      (List.replicate (weight (drip m'.frame)) ()).length := (List.length_replicate ..).ge
  obtain ⟨k, -, htrace, -⟩ := altered_frame_refused hexpects haltered
    (sound_buildMessage (ascii "on") Command.setStatus.code 2 7) hcalls
  exact ⟨k, _, htrace⟩

end Verdict

end LinuxMiniProjects.ControlPlane
