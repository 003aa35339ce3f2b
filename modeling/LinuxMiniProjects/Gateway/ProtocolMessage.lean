import LinuxMiniProjects.Lib.Bytes
import LinuxMiniProjects.Gateway.Common

/-!
The wire format (`protocol_message.c`, `crc.c` and `check_header`).

A packet is a header of 16 bytes, a payload of at most `maxPayload`
bytes and the CRC of the payload:

    magic:4  version:2  type:2  length:4  request_id:4  payload  crc:4

`packetEncode` writes a packet into a buffer, as the source does, and
`packet` is the list of bytes it leaves there. `packetEncode_exact` says
what it does to the whole buffer. By `packet_eq` the rest of the
development sees a packet as a header, a payload and a checksum.
-/

namespace LinuxMiniProjects.Gateway

open Bytes

/-! ### `crc.c` -/

def crcRound (c : UInt32) : UInt32 :=
  if c &&& 1 ≠ 0 then (0xEDB88320 : UInt32) ^^^ (c >>> 1) else c >>> 1

/-- The entry of `crc_table` that `build_table` computes for `i`. -/
def crcTable (i : UInt32) : UInt32 := crcRound^[8] i

def crcLoop (crc : UInt32) (data : List UInt8) : UInt32 :=
  data.foldl (fun crc d => crcTable ((crc ^^^ d.toUInt32) &&& 0xFF) ^^^ (crc >>> 8)) crc

def crcCalculate (data : List UInt8) : UInt32 := crcLoop 0xFFFFFFFF data ^^^ 0xFFFFFFFF

/-! ### Words in a buffer -/

def encode16Bit (buffer : Buf) (off : ℕ) (v : UInt16) : Buf := store buffer off (be16 v)

def encode32Bit (buffer : Buf) (off : ℕ) (v : UInt32) : Buf := store buffer off (be32 v)

def decode16Bit (buffer : Buf) (off : ℕ) : UInt16 := word16 (buffer off) (buffer (off + 1))

def decode32Bit (buffer : Buf) (off : ℕ) : UInt32 :=
  word32 (buffer off) (buffer (off + 1)) (buffer (off + 2)) (buffer (off + 3))

theorem decode16Bit_of_slice {b : Buf} {off : ℕ} {v : UInt16} (h : slice b off 2 = be16 v) :
    decode16Bit b off = v := by
  simp only [slice_two, be16, List.cons.injEq, and_true] at h
  rw [decode16Bit, h.1, h.2, word16_be16]

theorem decode32Bit_of_slice {b : Buf} {off : ℕ} {v : UInt32} (h : slice b off 4 = be32 v) :
    decode32Bit b off = v := by
  simp only [slice_four, be32, List.cons.injEq, and_true] at h
  rw [decode32Bit, h.1, h.2.1, h.2.2.1, h.2.2.2, word32_be32]

/-! ### Packets -/

/-- The five fields `packet_encode` writes first. -/
def encodeHeader (buffer : Buf) (type : UInt16) (length requestId : UInt32) : Buf :=
  let buffer := encode32Bit buffer 0 protocolMagic
  let buffer := encode16Bit buffer 4 protocolVersion
  let buffer := encode16Bit buffer 6 type
  let buffer := encode32Bit buffer 8 length
  encode32Bit buffer 12 requestId

/-- `packet_encode`. The length of the packet is computed in 32 bits
before it is compared with the size of the buffer. -/
def packetEncode (buffer : Buf) (size : ℕ) (type : UInt16) (requestId : UInt32) (payload : Buf)
    (length : UInt32) : ℤ × Buf :=
  if (length + UInt32.ofNat headerSize + UInt32.ofNat crcSize).toNat > size ∨
      length.toNat > maxPayload then (-1, buffer)
  else
    let buffer := encodeHeader buffer type length requestId
    let buffer := store buffer headerSize (slice payload 0 length.toNat)
    let crc := crcCalculate (slice buffer headerSize length.toNat)
    (0, encode32Bit buffer (headerSize + length.toNat) crc)

def headerBytes (type : UInt16) (length requestId : UInt32) : List UInt8 :=
  be32 protocolMagic ++ be16 protocolVersion ++ be16 type ++ be32 length ++ be32 requestId

@[simp] theorem length_headerBytes (type : UInt16) (length requestId : UInt32) :
    (headerBytes type length requestId).length = headerSize := rfl

theorem slice_encodeHeader (b : Buf) (type : UInt16) (length requestId : UInt32) :
    slice (encodeHeader b type length requestId) 0 headerSize =
      headerBytes type length requestId := by
  let b₁ := encode32Bit b 0 protocolMagic
  let b₂ := encode16Bit b₁ 4 protocolVersion
  let b₃ := encode16Bit b₂ 6 type
  let b₄ := encode32Bit b₃ 8 length
  -- each field is written right behind the ones before it
  have h₁ : slice b₁ 0 4 = be32 protocolMagic := slice_store_append b 0 _
  have h₂ : slice b₂ 0 6 = slice b₁ 0 4 ++ be16 protocolVersion := slice_store_append b₁ 4 _
  have h₃ : slice b₃ 0 8 = slice b₂ 0 6 ++ be16 type := slice_store_append b₂ 6 _
  have h₄ : slice b₄ 0 12 = slice b₃ 0 8 ++ be32 length := slice_store_append b₃ 8 _
  have h₅ : slice (encodeHeader b type length requestId) 0 16 =
      slice b₄ 0 12 ++ be32 requestId := slice_store_append b₄ 12 _
  rw [headerSize, h₅, h₄, h₃, h₂, h₁, headerBytes]

def packetSize (n : ℕ) : ℕ := headerSize + n + crcSize

/-- The check of the size. The sum is one of 32 bits, but where it wraps the
length is too large anyway. -/
theorem not_tooLong_iff {size : ℕ} {length : UInt32} :
    ¬ ((length + UInt32.ofNat headerSize + UInt32.ofNat crcSize).toNat > size ∨
        length.toNat > maxPayload) ↔
      length.toNat ≤ maxPayload ∧ packetSize length.toNat ≤ size := by
  rw [UInt32.toNat_add, UInt32.toNat_add]
  simp only [headerSize, crcSize, packetSize, maxPayload, UInt32.toNat_ofNat', Nat.reduceMod,
    Nat.reducePow]
  omega

theorem slice_packetEncode (b payload : Buf) {size : ℕ} (type : UInt16) (requestId : UInt32)
    {length : UInt32}
    (h : ¬ ((length + UInt32.ofNat headerSize + UInt32.ofNat crcSize).toNat > size ∨
      length.toNat > maxPayload)) :
    slice (packetEncode b size type requestId payload length).2 0 (packetSize length.toNat) =
      headerBytes type length requestId ++ slice payload 0 length.toNat ++
        be32 (crcCalculate (slice payload 0 length.toNat)) := by
  have hlen : (slice payload 0 length.toNat).length = length.toNat := length_slice _ _ _
  rw [packetEncode, if_neg h]
  dsimp only
  set bs := slice payload 0 length.toNat with hbs
  set b₁ := encodeHeader b type length requestId
  have hbody : slice (store b₁ headerSize bs) headerSize length.toNat = bs := by
    conv_lhs => rw [← hlen]
    exact slice_store_self b₁ headerSize bs
  rw [hbody, packetSize, slice_add, slice_add, Nat.zero_add, Nat.zero_add, encode32Bit,
    slice_store_of_le _ _ (by omega), slice_store_of_le _ _ (by omega),
    slice_store_of_le _ _ (by omega), slice_encodeHeader, hbody]
  congr 1
  exact slice_store_self _ _ (be32 (crcCalculate bs))

/-- The bytes `packet_encode` writes for a type, an id and a payload. -/
def packet (type : UInt16) (requestId : UInt32) (payload : List UInt8) : List UInt8 :=
  slice (packetEncode (fun _ => 0) (packetSize payload.length) type requestId (ofList payload)
    (UInt32.ofNat payload.length)).2 0 (packetSize payload.length)

theorem toNat_ofNat_of_le_maxPayload {n : ℕ} (h : n ≤ maxPayload) :
    (UInt32.ofNat n).toNat = n := by
  unfold maxPayload at h
  rw [UInt32.toNat_ofNat', Nat.mod_eq_of_lt (by omega)]

/-- **A packet** is its header, its payload and the checksum of the
payload. -/
theorem packet_eq (type : UInt16) (requestId : UInt32) {payload : List UInt8}
    (h : payload.length ≤ maxPayload) :
    packet type requestId payload =
      headerBytes type (UInt32.ofNat payload.length) requestId ++ payload ++
        be32 (crcCalculate payload) := by
  have hn := toNat_ofNat_of_le_maxPayload h
  have hfits : (UInt32.ofNat payload.length).toNat ≤ maxPayload ∧
      packetSize (UInt32.ofNat payload.length).toNat ≤ packetSize payload.length := by
    rw [hn]
    exact ⟨h, Nat.le_refl _⟩
  have hbytes := slice_packetEncode (fun _ => 0) (ofList payload) type requestId
    (not_tooLong_iff.mpr hfits)
  rwa [hn, slice_ofList] at hbytes

theorem length_packet (type : UInt16) (requestId : UInt32) (payload : List UInt8) :
    (packet type requestId payload).length = packetSize payload.length := by
  simp [packet]

/-- `build_error_packet`: a packet of type `MSG_ERROR` whose payload is
the error code. -/
def buildErrorPacket (requestId : UInt32) (errCode : ErrCode) : List UInt8 :=
  packet msgError requestId [errCode.code]

/-! ### `check_header` -/

structure HeaderPacket where
  magic : UInt32
  version : UInt16
  type : UInt16
  length : UInt32
  requestId : UInt32

def decodeHeader (buffer : Buf) : HeaderPacket where
  magic := decode32Bit buffer 0
  version := decode16Bit buffer 4
  type := decode16Bit buffer 6
  length := decode32Bit buffer 8
  requestId := decode32Bit buffer 12

theorem decodeHeader_congr {b b' : Buf} (h : ∀ i < headerSize, b i = b' i) :
    decodeHeader b = decodeHeader b' := by
  simp only [decodeHeader, decode32Bit, decode16Bit]
  rw [h 0 (by decide), h 1 (by decide), h 2 (by decide), h 3 (by decide), h 4 (by decide),
    h 5 (by decide), h 6 (by decide), h 7 (by decide), h 8 (by decide), h 9 (by decide),
    h 10 (by decide), h 11 (by decide), h 12 (by decide), h 13 (by decide), h 14 (by decide),
    h 15 (by decide)]

/-- The types `check_header` lets through. -/
def Supported (type : UInt16) : Prop :=
  type = msgEcho ∨ type = msgStatus ∨ type = msgGetSensor ∨ type = msgSetActuator

instance : DecidablePred Supported := fun type =>
  inferInstanceAs (Decidable
    (type = msgEcho ∨ type = msgStatus ∨ type = msgGetSensor ∨ type = msgSetActuator))

/-- `check_header`; `none` is the value `0`. -/
def checkHeader (header : HeaderPacket) : Option ErrCode :=
  if header.magic ≠ protocolMagic then some .badMagic
  else if header.version ≠ protocolVersion then some .badVersion
  else if header.length.toNat > maxPayload then some .payloadTooLarge
  else if header.type ≠ msgEcho ∧ header.type ≠ msgStatus ∧ header.type ≠ msgGetSensor ∧
      header.type ≠ msgSetActuator then some .unknownType
  else none

theorem checkHeader_eq_none_iff (header : HeaderPacket) :
    checkHeader header = none ↔
      header.magic = protocolMagic ∧ header.version = protocolVersion ∧
        header.length.toNat ≤ maxPayload ∧ Supported header.type := by
  unfold checkHeader Supported
  split_ifs <;> (simp_all; try tauto)

theorem decodeHeader_of_slice {b : Buf} {type : UInt16} {length requestId : UInt32}
    (h : slice b 0 headerSize = headerBytes type length requestId) :
    decodeHeader b = ⟨protocolMagic, protocolVersion, type, length, requestId⟩ := by
  have hfield : ∀ off n, off + n ≤ headerSize →
      slice b off n = ((headerBytes type length requestId).drop off).take n := by
    intro off n hle
    rw [← h]
    exact slice_eq_take_drop b hle
  have h₀ := decode32Bit_of_slice (v := protocolMagic) (hfield 0 4 (by decide))
  have h₁ := decode16Bit_of_slice (v := protocolVersion) (hfield 4 2 (by decide))
  have h₂ := decode16Bit_of_slice (v := type) (hfield 6 2 (by decide))
  have h₃ := decode32Bit_of_slice (v := length) (hfield 8 4 (by decide))
  have h₄ := decode32Bit_of_slice (v := requestId) (hfield 12 4 (by decide))
  rw [decodeHeader, h₀, h₁, h₂, h₃, h₄]

/-! ### What `packet_encode` writes -/

structure HoldsPacket (b' : Buf) (type : UInt16) (requestId : UInt32) (payload : Buf)
    (length : UInt32) : Prop where
  magic_eq : decode32Bit b' 0 = protocolMagic
  version_eq : decode16Bit b' 4 = protocolVersion
  type_eq : decode16Bit b' 6 = type
  length_eq : decode32Bit b' 8 = length
  requestId_eq : decode32Bit b' 12 = requestId
  payload_eq : slice b' headerSize length.toNat = slice payload 0 length.toNat
  crc_eq : decode32Bit b' (headerSize + length.toNat) =
    crcCalculate (slice payload 0 length.toNat)

section Encoder

variable {b b' payload : Buf} {size : ℕ} {type : UInt16} {requestId length : UInt32}

theorem holdsPacket_of_slice
    (h : slice b' 0 (packetSize length.toNat) =
      headerBytes type length requestId ++ slice payload 0 length.toNat ++
        be32 (crcCalculate (slice payload 0 length.toNat))) :
    HoldsPacket b' type requestId payload length := by
  rw [packetSize, slice_add, slice_add, Nat.zero_add, Nat.zero_add] at h
  obtain ⟨hfront, hcrc⟩ := List.append_inj h (by simp)
  obtain ⟨hheader, hpayload⟩ := List.append_inj hfront (length_slice _ _ _)
  have hdecoded := decodeHeader_of_slice hheader
  exact ⟨congrArg HeaderPacket.magic hdecoded, congrArg HeaderPacket.version hdecoded,
    congrArg HeaderPacket.type hdecoded, congrArg HeaderPacket.length hdecoded,
    congrArg HeaderPacket.requestId hdecoded, hpayload, decode32Bit_of_slice hcrc⟩

theorem packetEncode_of_fits (b payload : Buf) (type : UInt16) (requestId : UInt32)
    (h : length.toNat ≤ maxPayload ∧ packetSize length.toNat ≤ size) :
    (packetEncode b size type requestId payload length).1 = 0 := by
  rw [packetEncode, if_neg (not_tooLong_iff.mpr h)]

theorem packetEncode_of_not_fits (b payload : Buf) (type : UInt16) (requestId : UInt32)
    (h : ¬ (length.toNat ≤ maxPayload ∧ packetSize length.toNat ≤ size)) :
    packetEncode b size type requestId payload length = (-1, b) := by
  rw [packetEncode, if_pos (not_not.mp (not_tooLong_iff.not.mpr h))]

theorem encodeHeader_of_le (b : Buf) (type : UInt16) (length requestId : UInt32) {i : ℕ}
    (h : headerSize ≤ i) : encodeHeader b type length requestId i = b i := by
  unfold headerSize at h
  unfold encodeHeader encode32Bit encode16Bit
  rw [store_of_le _ _ (by rw [length_be32]; omega), store_of_le _ _ (by rw [length_be32]; omega),
    store_of_le _ _ (by rw [length_be16]; omega), store_of_le _ _ (by rw [length_be16]; omega),
    store_of_le _ _ (by rw [length_be32]; omega)]

theorem packetEncode_of_le (b payload : Buf) (type : UInt16) (requestId : UInt32) {i : ℕ}
    (h : packetSize length.toNat ≤ i) :
    (packetEncode b size type requestId payload length).2 i = b i := by
  unfold packetSize crcSize at h
  unfold packetEncode
  split
  · rfl
  · dsimp only
    rw [encode32Bit, store_of_le _ _ (by rw [length_be32]; omega),
      store_of_le _ _ (by rw [length_slice]; omega), encodeHeader_of_le b type length requestId]
    omega

end Encoder

/-- **`packet_encode` is exact.** It returns zero exactly if the payload is
not too long and the packet fits the buffer, also where the sum of 32 bits
wraps. If it fails it writes nothing. If it succeeds it writes the bytes of
the packet, whatever the buffer held before, and nothing behind them; and
the decoding functions give back the fields. -/
theorem packetEncode_exact (b payload : Buf) (size : ℕ) (type : UInt16)
    (requestId length : UInt32) :
    let out := packetEncode b size type requestId payload length
    (out.1 = 0 ↔ length.toNat ≤ maxPayload ∧ length.toNat + 20 ≤ size) ∧
      (out.1 ≠ 0 → out.1 = -1 ∧ out.2 = b) ∧
      (out.1 = 0 →
        (∀ i, length.toNat + 20 ≤ i → out.2 i = b i) ∧
        (∀ i < length.toNat + 20, ∀ old : Buf,
          (packetEncode old size type requestId payload length).2 i = out.2 i) ∧
        HoldsPacket out.2 type requestId payload length) := by
  intro out
  have hsize : packetSize length.toNat = length.toNat + 20 := by
    unfold packetSize headerSize crcSize
    omega
  rw [← hsize]
  by_cases hfits : length.toNat ≤ maxPayload ∧ packetSize length.toNat ≤ size
  · have hret : out.1 = 0 := packetEncode_of_fits b payload type requestId hfits
    have hbytes (old : Buf) := slice_packetEncode old payload type requestId
      (not_tooLong_iff.mpr hfits)
    refine ⟨iff_of_true hret hfits, fun hne => absurd hret hne, fun _ => ⟨?_, ?_, ?_⟩⟩
    · exact fun i hi => packetEncode_of_le b payload type requestId hi
    · intro i hi old
      have hsame := slice_congr_of_le ((hbytes old).trans (hbytes b).symm)
        (show i + 1 ≤ packetSize length.toNat from hi)
      simpa [slice] using hsame
    · exact holdsPacket_of_slice (hbytes b)
  · have hout : out = (-1, b) := packetEncode_of_not_fits b payload type requestId hfits
    have hret : out.1 ≠ 0 := by
      rw [hout]
      exact (by decide : (-1 : ℤ) ≠ 0)
    exact ⟨iff_of_false hret hfits, fun _ => by rw [hout]; exact ⟨rfl, rfl⟩,
      fun hzero => absurd hzero hret⟩

theorem packetEncode_exact_twoBytes :
    let out := packetEncode (fun _ => 7) 22 msgEcho 5 (ofList [0x68, 0x69]) 2
    out.1 = 0 ∧ out.2 22 = 7 ∧ HoldsPacket out.2 msgEcho 5 (ofList [0x68, 0x69]) 2 := by
  intro out
  obtain ⟨hret, -, hok⟩ := packetEncode_exact (fun _ => 7) (ofList [0x68, 0x69]) 22 msgEcho 5 2
  have hzero : out.1 = 0 := hret.mpr (by decide)
  obtain ⟨hbehind, -, hpacket⟩ := hok hzero
  exact ⟨hzero, hbehind 22 (by decide), hpacket⟩

/-! Here the sum of 32 bits is only 4. -/

example : packetEncode (fun _ => 7) 22 msgEcho 5 (fun _ => 0) 0xFFFFFFF0 = (-1, fun _ => 7) := rfl

end LinuxMiniProjects.Gateway
