import LinuxMiniProjects.Lib.Crc
import LinuxMiniProjects.Gateway.ProtocolMessage

/-!
The CRC of the gateway (`crc.c`).

`crc_calculate` takes a byte at a time, with a table that is built by the
first call and kept in a static variable. `crc32` says what is meant: the
register of `Lib.Crc` with the polynomial of CRC-32, a bit at a time.
-/

namespace LinuxMiniProjects.Gateway

/-! ### The static variables -/

structure CrcStatics where
  table : List UInt32
  tableRd : Bool

def CrcStatics.init : CrcStatics := ⟨List.replicate 256 0, false⟩

/-- The first `n` turns of the loop in `build_table`. -/
def fillTable (n : ℕ) (table : List UInt32) : List UInt32 :=
  (List.range n).foldl (fun t i => t.set i (crcTable (UInt32.ofNat i))) table

def CrcStatics.buildTable (st : CrcStatics) : CrcStatics := ⟨fillTable 256 st.table, true⟩

/-- The loop of `crc_calculate`, from the value `crc`. -/
def CrcStatics.loop (st : CrcStatics) (crc : UInt32) (data : List UInt8) : UInt32 :=
  data.foldl (fun crc d =>
    st.table.getD ((crc ^^^ d.toUInt32) &&& 0xFF).toNat 0 ^^^ (crc >>> 8)) crc

def CrcStatics.crcCalculate (st : CrcStatics) (data : List UInt8) : UInt32 × CrcStatics :=
  let st := if st.tableRd then st else st.buildTable
  (st.loop 0xFFFFFFFF data ^^^ 0xFFFFFFFF, st)

/-- The variables after calls of `crc_calculate`. -/
def CrcStatics.after (calls : List (List UInt8)) : CrcStatics :=
  calls.foldl (fun st data => (st.crcCalculate data).2) .init

structure CrcStatics.Sound (st : CrcStatics) : Prop where
  length : st.table.length = 256
  entry : st.tableRd = true → ∀ i < 256, st.table.getD i 0 = crcTable (UInt32.ofNat i)

theorem CrcStatics.sound_init : CrcStatics.init.Sound where
  length := List.length_replicate
  entry := fun h => by cases h

theorem fillTable_succ (n : ℕ) (table : List UInt32) :
    fillTable (n + 1) table = (fillTable n table).set n (crcTable (UInt32.ofNat n)) := by
  rw [fillTable, List.range_succ, List.foldl_append]
  rfl

@[simp] theorem length_fillTable (n : ℕ) (table : List UInt32) :
    (fillTable n table).length = table.length := by
  induction n with
  | zero => rfl
  | succ n ih => rw [fillTable_succ, List.length_set, ih]

theorem getD_fillTable {n i : ℕ} {table : List UInt32} (hi : i < n) (hlt : i < table.length) :
    (fillTable n table).getD i 0 = crcTable (UInt32.ofNat i) := by
  induction n with
  | zero => exact absurd hi (Nat.not_lt_zero i)
  | succ n ih =>
      rw [fillTable_succ, List.getD_eq_getElem?_getD, List.getElem?_set]
      by_cases hin : n = i
      · subst hin
        simp [hlt]
      · rw [if_neg hin, ← List.getD_eq_getElem?_getD]
        exact ih (by omega)

theorem CrcStatics.Sound.buildTable {st : CrcStatics} (h : st.Sound) : st.buildTable.Sound := by
  constructor
  · rw [CrcStatics.buildTable, length_fillTable, h.length]
  · intro _ i hi
    rw [CrcStatics.buildTable, getD_fillTable hi (by rw [h.length]; exact hi)]

theorem CrcStatics.Sound.crcCalculate {st : CrcStatics} (h : st.Sound) (data : List UInt8) :
    (st.crcCalculate data).2.Sound ∧ (st.crcCalculate data).2.tableRd = true := by
  unfold CrcStatics.crcCalculate
  dsimp only
  split
  next hready => exact ⟨h, hready⟩
  next => exact ⟨h.buildTable, rfl⟩

theorem CrcStatics.sound_after (calls : List (List UInt8)) : (CrcStatics.after calls).Sound := by
  induction calls using List.reverseRecOn with
  | nil => exact CrcStatics.sound_init
  | append_singleton calls data ih =>
      rw [CrcStatics.after, List.foldl_append]
      exact (CrcStatics.Sound.crcCalculate ih data).1

theorem CrcStatics.Sound.loop_eq {st : CrcStatics} (h : st.Sound) (hready : st.tableRd = true)
    (crc : UInt32) (data : List UInt8) : st.loop crc data = crcLoop crc data := by
  induction data generalizing crc with
  | nil => rfl
  | cons d data ih =>
      have hlt : ((crc ^^^ d.toUInt32) &&& 0xFF).toNat < 256 := by
        rw [UInt32.toNat_and]
        exact Nat.and_lt_two_pow _ (show (0xFF : UInt32).toNat < 2 ^ 8 by decide)
      rw [CrcStatics.loop, List.foldl_cons, h.entry hready _ hlt, UInt32.ofNat_toNat]
      exact ih _

/-- `crc_calculate` is `crcCalculate`, whatever calls came before. -/
theorem CrcStatics.fst_crcCalculate (calls : List (List UInt8)) (data : List UInt8) :
    ((CrcStatics.after calls).crcCalculate data).1 = Gateway.crcCalculate data := by
  obtain ⟨hsound, hready⟩ := (CrcStatics.sound_after calls).crcCalculate data
  show ((CrcStatics.after calls).crcCalculate data).2.loop 0xFFFFFFFF data ^^^ 0xFFFFFFFF = _
  rw [hsound.loop_eq hready]
  rfl

/-! ### Bit by bit -/

def crcPoly : BitVec 32 := 0xEDB88320#32

def byteBits (d : UInt8) : List Bool := (List.range 8).map d.toBitVec.getLsbD

def bitLoop (crc : UInt32) (data : List UInt8) : UInt32 :=
  .ofBitVec (Crc.register crcPoly crc.toBitVec (data.flatMap byteBits))

def crc32 (data : List UInt8) : UInt32 := bitLoop 0xFFFFFFFF data ^^^ 0xFFFFFFFF

theorem toBitVec_crcRound (c : UInt32) :
    (crcRound c).toBitVec = Crc.shift crcPoly c.toBitVec := by
  have hand : (c &&& 1).toBitVec = (BitVec.ofBool (c.toBitVec.getLsbD 0)).setWidth 32 := by
    rw [UInt32.toBitVec_and]
    exact BitVec.and_one_eq_setWidth_ofBool_getLsbD
  have hbit : c &&& 1 ≠ 0 ↔ c.toBitVec.getLsbD 0 = true := by
    rw [Ne, ← UInt32.toBitVec_inj, hand]
    cases c.toBitVec.getLsbD 0 <;> decide
  unfold crcRound Crc.shift
  by_cases hlow : c.toBitVec.getLsbD 0 = true
  · rw [if_pos (hbit.mpr hlow), if_pos hlow, UInt32.toBitVec_xor, BitVec.xor_comm]
    simp [crcPoly]
  · rw [if_neg (mt hbit.mp hlow), if_neg hlow]
    simp

theorem toBitVec_iterate_crcRound (k : ℕ) (c : UInt32) :
    (crcRound^[k] c).toBitVec = (Crc.shift crcPoly)^[k] c.toBitVec :=
  Function.Semiconj.iterate_right (f := UInt32.toBitVec) (fun c => toBitVec_crcRound c) k c

theorem isMask_byte : Crc.IsMask (0xFF : UInt32).toBitVec 8 := by
  intro i hi
  interval_cases i <;> rfl

/-- **A byte at a time.** A look-up in the table stands for eight shifts. -/
theorem toBitVec_crcTable (crc : UInt32) (d : UInt8) :
    (crcTable ((crc ^^^ d.toUInt32) &&& 0xFF) ^^^ (crc >>> 8)).toBitVec =
      (Crc.shift crcPoly)^[8] (crc ^^^ d.toUInt32).toBitVec := by
  have hhigh : (crc ^^^ d.toUInt32).toBitVec >>> 8 = (crc >>> 8).toBitVec := by
    have hbyte : d.toUInt32.toBitVec >>> 8 = 0#32 := by
      apply BitVec.eq_of_getLsbD_eq
      intro i _
      simp
    rw [UInt32.toBitVec_xor, BitVec.ushiftRight_xor_distrib, hbyte, BitVec.xor_zero]
    simp
  rw [Crc.iterate_shift_eq isMask_byte, hhigh, UInt32.toBitVec_xor, crcTable,
    toBitVec_iterate_crcRound, UInt32.toBitVec_and]

theorem word_byteBits (d : UInt8) : Crc.word 32 (byteBits d) = d.toUInt32.toBitVec := by
  apply BitVec.eq_of_getLsbD_eq
  intro i hi
  rw [Crc.getLsbD_word _ hi]
  by_cases hlt : i < 8
  · simp [byteBits, hlt, hi, List.getD_eq_getElem?_getD]
  · simp [byteBits, hlt, BitVec.getLsbD_of_ge _ _ (Nat.le_of_not_lt hlt)]

@[simp] theorem length_byteBits (d : UInt8) : (byteBits d).length = 8 := by
  simp [byteBits]

theorem bitLoop_cons (crc : UInt32) (d : UInt8) (data : List UInt8) :
    bitLoop crc (d :: data) =
      bitLoop (crcTable ((crc ^^^ d.toUInt32) &&& 0xFF) ^^^ (crc >>> 8)) data := by
  have hbyte : Crc.register crcPoly crc.toBitVec (byteBits d) =
      (crcTable ((crc ^^^ d.toUInt32) &&& 0xFF) ^^^ (crc >>> 8)).toBitVec := by
    rw [Crc.register_eq _ _ (by simp), toBitVec_crcTable, length_byteBits, word_byteBits,
      UInt32.toBitVec_xor]
  rw [bitLoop, List.flatMap_cons, Crc.register_append, hbyte]
  rfl

theorem crcLoop_eq_bitLoop (crc : UInt32) (data : List UInt8) :
    crcLoop crc data = bitLoop crc data := by
  induction data generalizing crc with
  | nil => rfl
  | cons d data ih =>
      rw [bitLoop_cons, ← ih]
      rfl

/-- **The table computes the CRC-32.** Whatever calls came before, and so
whether the table is built by this call or was by an earlier one,
`crc_calculate` computes the CRC-32 bit by bit; and the loop can be
interrupted anywhere. -/
theorem crcCalculate_eq_crc32 (calls : List (List UInt8)) (data : List UInt8) :
    ((CrcStatics.after calls).crcCalculate data).1 = crc32 data ∧
      ∀ crc more, ((CrcStatics.after calls).crcCalculate data).2.loop crc (data ++ more) =
        ((CrcStatics.after calls).crcCalculate data).2.loop
          (((CrcStatics.after calls).crcCalculate data).2.loop crc data) more ∧
        bitLoop crc (data ++ more) = bitLoop (bitLoop crc data) more := by
  refine ⟨?_, fun crc more => ⟨List.foldl_append, ?_⟩⟩
  · rw [CrcStatics.fst_crcCalculate, crcCalculate, crcLoop_eq_bitLoop]
    rfl
  · rw [bitLoop, List.flatMap_append, Crc.register_append]
    rfl

end LinuxMiniProjects.Gateway
