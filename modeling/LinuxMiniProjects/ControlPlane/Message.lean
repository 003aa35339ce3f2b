import LinuxMiniProjects.Lib.Bytes
import LinuxMiniProjects.Lib.Socket

/-!
The messages of the control plane (`common.h`).

A message is a header of 24 bytes, a payload of at most 2048 bytes and a
checksum of 4. Header and checksum are C records that are copied to the
socket and read from it as they lie in memory, padding included, so a
`MessageControl` is its three buffers and the fields of the header are
read out of the first one. The parser writes into the same buffers, a few
bytes at a time, and what lies behind the bytes it wrote is whatever was
there before.

`frame` is what a message is on the wire: the header, as many bytes of
the payload as the header says, the checksum.
-/

namespace LinuxMiniProjects.ControlPlane

open Bytes Socket

/-! ### Commands and records -/

inductive Command
  | getStatus
  | setStatus
  | getData
  | getConfig
  | setConfig
  | sendControl
  | shutdownPeer
  | ack
  | nack
  | identify
deriving DecidableEq, Repr

def Command.code : Command → UInt32
  | getStatus => 0
  | setStatus => 1
  | getData => 2
  | getConfig => 3
  | setConfig => 4
  | sendControl => 5
  | shutdownPeer => 6
  | ack => 7
  | nack => 8
  | identify => 9

def Command.ofCode (code : UInt32) : Option Command :=
  [getStatus, setStatus, getData, getConfig, setConfig, sendControl, shutdownPeer, ack, nack,
    identify].find? fun c => c.code == code

def maxPayloadSize : ℕ := 2048

/-- The size of `struct header_message`, of which the last four bytes are
padding. -/
def headerSize : ℕ := 24

def checksumSize : ℕ := 4

structure MessageControl where
  header : Buf
  message : Buf
  checksum : Buf

instance : Inhabited MessageControl := ⟨⟨fun _ => 0, fun _ => 0, fun _ => 0⟩⟩

namespace MessageControl

def cmd (m : MessageControl) : UInt32 := getLe32 m.header 0

def pri (m : MessageControl) : UInt32 := getLe32 m.header 4

def numberPacket (m : MessageControl) : UInt64 := getLe64 m.header 8

def length (m : MessageControl) : ℤ := (getLe32 m.header 16).toBitVec.toInt

def LengthOk (m : MessageControl) : Prop := 0 ≤ m.length ∧ m.length ≤ maxPayloadSize

instance (m : MessageControl) : Decidable m.LengthOk :=
  inferInstanceAs (Decidable (0 ≤ m.length ∧ m.length ≤ maxPayloadSize))

def frame (m : MessageControl) : List UInt8 :=
  slice m.header 0 headerSize ++ slice m.message 0 m.length.toNat ++ slice m.checksum 0 checksumSize

end MessageControl

/-! ### The checksum -/

def addBytes (sum : UInt32) (bs : List UInt8) : UInt32 :=
  bs.foldl (fun sum b => sum + b.toUInt32) sum

/-- The loop that adds the carries. A turn that goes on makes the sum
smaller, so its value bounds the number of turns. -/
def foldCarries : ℕ → UInt32 → UInt32
  | 0, sum => sum
  | fuel + 1, sum =>
      if sum >>> 16 = 0 then sum else foldCarries fuel ((sum &&& (0xFFFF : UInt32)) + (sum >>> 16))

def calculateChecksum (m : MessageControl) : UInt32 :=
  let sum := addBytes 0 (slice m.header 0 headerSize)
  let sum := addBytes sum (slice m.message 0 (min m.length.toNat maxPayloadSize))
  ~~~ foldCarries sum.toNat sum

section Header

variable {m m' : MessageControl}

/-! Two headers of the same bytes have the same fields. -/

theorem MessageControl.pri_congr
    (h : slice m.header 0 headerSize = slice m'.header 0 headerSize) : m.pri = m'.pri :=
  getLe32_congr (slice_congr_of_le h (by decide))

theorem MessageControl.length_congr
    (h : slice m.header 0 headerSize = slice m'.header 0 headerSize) : m.length = m'.length := by
  rw [length, length, getLe32_congr (slice_congr_of_le h (show 16 + 4 ≤ headerSize by decide))]

end Header

/-- The checksum is a function of the header and of the payload, not of
what lies behind the payload. -/
theorem calculateChecksum_congr {m m' : MessageControl} (hok : m.LengthOk)
    (hheader : slice m.header 0 headerSize = slice m'.header 0 headerSize)
    (hmessage : slice m.message 0 m.length.toNat = slice m'.message 0 m.length.toNat) :
    calculateChecksum m = calculateChecksum m' := by
  have hmin : min m.length.toNat maxPayloadSize = m.length.toNat :=
    min_eq_left (Int.toNat_le.mpr hok.2)
  simp only [calculateChecksum, ← MessageControl.length_congr hheader, hmin, hheader, hmessage]

/-! ### Building a message -/

def ascii (s : String) : List UInt8 := s.toList.map fun c => UInt8.ofNat c.toNat

/-- `build_message`. A payload that is too long is cut off. -/
def buildMessage (payload : List UInt8) (cmd pri : UInt32) (numPacket : UInt64) :
    MessageControl :=
  let text := cString payload
  let len := if maxPayloadSize ≤ text.length then maxPayloadSize - 1 else text.length
  let m : MessageControl :=
    { header := ofList (le32 cmd ++ le32 pri ++ le64 numPacket ++ le32 (UInt32.ofNat len))
      message := ofList (text.take len)
      checksum := ofList [] }
  { m with checksum := ofList (le32 (calculateChecksum m)) }

def buildAck (number : UInt64) : MessageControl :=
  buildMessage (ascii "ACK") Command.ack.code 0 number

def buildNack (number : UInt64) : MessageControl :=
  buildMessage (ascii "NACK") Command.nack.code 0 number

/-- The number of bytes of the payload that `build_message` keeps. -/
def builtLength (payload : List UInt8) : ℕ := min (cString payload).length (maxPayloadSize - 1)

theorem length_buildMessage (payload : List UInt8) (cmd pri : UInt32) (numPacket : UInt64) :
    (buildMessage payload cmd pri numPacket).length = builtLength payload := by
  have hlen : (if maxPayloadSize ≤ (cString payload).length then maxPayloadSize - 1
      else (cString payload).length) = builtLength payload := by
    unfold builtLength
    split <;> omega
  have hlt : builtLength payload < 2048 := by
    simp only [builtLength, maxPayloadSize]
    omega
  simp only [buildMessage, MessageControl.length, hlen]
  have hslice : slice (ofList (le32 cmd ++ le32 pri ++ le64 numPacket ++
      le32 (UInt32.ofNat (builtLength payload)))) 16 4 =
      le32 (UInt32.ofNat (builtLength payload)) := by
    simpa using slice_ofList_append (le32 cmd ++ le32 pri ++ le64 numPacket)
      (le32 (UInt32.ofNat (builtLength payload))) []
  rw [getLe32_of_slice hslice, BitVec.toInt_eq_toNat_of_lt] <;>
    simp <;> omega

theorem lengthOk_buildMessage (payload : List UInt8) (cmd pri : UInt32) (numPacket : UInt64) :
    (buildMessage payload cmd pri numPacket).LengthOk := by
  have h := length_buildMessage payload cmd pri numPacket
  have hlt : builtLength payload < 2048 := by
    simp only [builtLength, maxPayloadSize]
    omega
  constructor
  · rw [h]
    omega
  · rw [h]
    simp only [maxPayloadSize]
    omega

@[simp] theorem cmd_buildMessage (payload : List UInt8) (cmd pri : UInt32) (numPacket : UInt64) :
    (buildMessage payload cmd pri numPacket).cmd = cmd :=
  getLe32_of_slice (slice_ofList_append [] (le32 cmd) _)

@[simp] theorem numberPacket_buildMessage (payload : List UInt8) (cmd pri : UInt32)
    (numPacket : UInt64) : (buildMessage payload cmd pri numPacket).numberPacket = numPacket :=
  getLe64_of_slice (slice_ofList_append (le32 cmd ++ le32 pri) (le64 numPacket) (le32 _))

def MessageControl.ChecksumOk (m : MessageControl) : Prop :=
  getLe32 m.checksum 0 = calculateChecksum m

theorem checksumOk_buildMessage (payload : List UInt8) (cmd pri : UInt32) (numPacket : UInt64) :
    (buildMessage payload cmd pri numPacket).ChecksumOk := by
  refine getLe32_of_slice ?_
  exact slice_ofList (le32 _)

end LinuxMiniProjects.ControlPlane
