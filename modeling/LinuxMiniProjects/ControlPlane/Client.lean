import LinuxMiniProjects.Lib.RingBuf
import LinuxMiniProjects.ControlPlane.Message

/-!
Clients of the control plane, and the two ways a message is sent
(`server.h` and `send_framed_message` of `common.h`).

A client has a parser for what comes in and a ring of 16 outgoing
messages. `queue_client` puts a message into the ring and, when the ring
is full, makes room by dropping the oldest one. `send_message_chunk` sends
the oldest message from a copy that it makes when it starts on it, gives
up when the socket is full, and remembers how far it came.
`send_framed_message`, which the signal thread uses, sends a message that
is in no ring, and does not come back if the socket is full.

Each `send` is a turn of one of the two loops, because between two of
them other threads go on.
-/

namespace LinuxMiniProjects.ControlPlane

open Bytes Socket

/-! ### Records -/

def numPacketToSend : ℕ := 16

inductive ReadStage
  | readHeader
  | readPayload
  | readChecksum
deriving DecidableEq, Repr

structure Inbox where
  stage : ReadStage
  message : MessageControl
  bytesRead : ℕ

structure Outgoing where
  msg : MessageControl
  wireBuf : Buf
  bytesSent : ℕ

instance : Inhabited Outgoing := ⟨⟨default, fun _ => 0, 0⟩⟩

/-- `struct client`. The session is an index into the session table. -/
structure Client where
  fd : ℤ
  connected : Bool
  connectionId : UInt64
  generation : UInt64
  session : Option ℕ
  inbox : Inbox
  pendingClose : Bool
  pendingTask : ℕ
  packetSent : UInt64
  packetReceived : UInt64
  sendQueue : RingBuf Outgoing

def initClient (connectionId generation : UInt64) : Client where
  fd := 0
  connected := false
  connectionId
  generation
  session := none
  inbox := { stage := .readHeader, message := default, bytesRead := 0 }
  pendingClose := false
  pendingTask := 0
  packetSent := 0
  packetReceived := 0
  sendQueue := { cells := fun _ => default, head := 0, tail := 0, count := 0 }

/-! ### The ring -/

def dropOldest (q : RingBuf Outgoing) : RingBuf Outgoing :=
  if q.count = numPacketToSend then q.pop numPacketToSend else q

/-- `queue_client`. The copy for the wire is left as it is. -/
def queueClient (c : Client) (m : MessageControl) : Client :=
  let q := dropOldest c.sendQueue
  { c with sendQueue := q.push numPacketToSend { q.cells q.head with msg := m, bytesSent := 0 } }

def advanceSendQueue (c : Client) : Client :=
  { c with sendQueue := c.sendQueue.pop numPacketToSend }

/-! ### Sending the oldest message -/

def Outgoing.total (o : Outgoing) : ℕ := headerSize + o.msg.length.toNat + checksumSize

def Outgoing.prepare (o : Outgoing) : Outgoing :=
  if o.bytesSent = 0 then { o with wireBuf := store o.wireBuf 0 o.msg.frame } else o

/-- What a `send` does to the loop of `send_message_chunk`: it goes on, it
records how far it came and returns `0`, it returns `-1`, or it returns
`1`. -/
inductive ChunkTurn
  | again (offset : ℕ)
  | blocked (offset : ℕ)
  | failed
  | finished
deriving DecidableEq, Repr

def chunkTurn (total offset : ℕ) : SendRes → ChunkTurn
  | .sent n =>
      let sent := min n (total - offset)
      if sent = 0 then .failed
      else if offset + sent < total then .again (offset + sent)
      else .finished
  | .eintr => .again offset
  | .eagain => .blocked offset
  | .error => .failed

/-- `send_message_chunk` on the oldest message, against the results of its
calls of `send`: what it returns, the message, and the bytes that were
accepted. With no results left it has not returned. -/
def chunkLoop (o : Outgoing) : ℕ → List SendRes → Option ℤ × Outgoing × List UInt8
  | _, [] => (none, o, [])
  | offset, res :: script =>
      let accepted := slice o.wireBuf offset (res.accepted (o.total - offset))
      match chunkTurn o.total offset res with
      | .again offset =>
          let (ret, o, rest) := chunkLoop o offset script
          (ret, o, accepted ++ rest)
      | .blocked offset => (some 0, { o with bytesSent := offset }, accepted)
      | .failed => (some (-1), o, accepted)
      | .finished => (some 1, o, accepted)

def sendMessageChunk (o : Outgoing) (script : List SendRes) :
    Option ℤ × Outgoing × List UInt8 :=
  chunkLoop o.prepare o.bytesSent script

/-! ### `send_framed_message` -/

/-- The bytes that `send_framed_message` sends. -/
def framedWire (m : MessageControl) : List UInt8 :=
  let payloadLen := if m.LengthOk then m.length.toNat else 0
  slice m.header 0 headerSize ++ slice m.message 0 payloadLen ++ slice m.checksum 0 checksumSize

inductive FramedTurn
  | again (sentTotal : ℕ)
  | ret (value : ℤ)
deriving DecidableEq, Repr

def framedTurn (wireSize sentTotal : ℕ) : SendRes → FramedTurn
  | .sent n =>
      let sent := min n (wireSize - sentTotal)
      if sent = 0 then .ret 1
      else if sentTotal + sent < wireSize then .again (sentTotal + sent)
      else .ret 0
  | .eintr => .again sentTotal
  | .eagain => .ret (-1)
  | .error => .ret (-1)

/-- `send_framed_message` against the results of its calls of `send`. -/
def framedLoop (wire : List UInt8) : ℕ → List SendRes → Option ℤ × List UInt8
  | _, [] => (none, [])
  | sentTotal, res :: script =>
      let accepted := (wire.drop sentTotal).take (res.accepted (wire.length - sentTotal))
      match framedTurn wire.length sentTotal res with
      | .again sentTotal =>
          let (ret, rest) := framedLoop wire sentTotal script
          (ret, accepted ++ rest)
      | .ret value => (some value, accepted)

def sendFramedMessage (m : MessageControl) (script : List SendRes) : Option ℤ × List UInt8 :=
  framedLoop (framedWire m) 0 script

/-! ### What is sent -/

theorem MessageControl.length_frame (m : MessageControl) :
    m.frame.length = headerSize + m.length.toNat + checksumSize := by
  simp [frame, Nat.add_assoc]

theorem framedWire_eq_frame {m : MessageControl} (h : m.LengthOk) : framedWire m = m.frame := by
  simp [framedWire, h, MessageControl.frame]

theorem framedLoop_eq_zero {wire : List UInt8} {sentTotal : ℕ} {script : List SendRes}
    (h : (framedLoop wire sentTotal script).1 = some 0) :
    (framedLoop wire sentTotal script).2 = wire.drop sentTotal := by
  induction script generalizing sentTotal with
  | nil => simp [framedLoop] at h
  | cons res script ih =>
      cases res with
      | eagain | error => simp [framedLoop, framedTurn] at h
      | eintr =>
          simp only [framedLoop, framedTurn, SendRes.accepted, List.take_zero, List.nil_append]
            at h ⊢
          exact ih h
      | sent n =>
          simp only [framedLoop, framedTurn, SendRes.accepted] at h ⊢
          generalize hsent : min n (wire.length - sentTotal) = sent at h ⊢
          by_cases h0 : sent = 0
          · simp [h0] at h
          by_cases hlt : sentTotal + sent < wire.length
          · simp only [h0, hlt, if_false, if_true] at h ⊢
            rw [ih h, ← List.drop_drop, List.take_append_drop]
          · simp only [h0, hlt, if_false] at h ⊢
            exact List.take_of_length_le (by simp; omega)

/-- What a `send_message_chunk` has sent when it returns `1`. -/
theorem chunkLoop_eq_one {o : Outgoing} {offset : ℕ} {script : List SendRes}
    (hoff : offset ≤ o.total) (h : (chunkLoop o offset script).1 = some 1) :
    (chunkLoop o offset script).2.2 = slice o.wireBuf offset (o.total - offset) := by
  induction script generalizing offset with
  | nil => simp [chunkLoop] at h
  | cons res script ih =>
      cases res with
      | eagain | error => simp [chunkLoop, chunkTurn] at h
      | eintr =>
          simp only [chunkLoop, chunkTurn, SendRes.accepted, slice_zero, List.nil_append] at h ⊢
          exact ih hoff h
      | sent n =>
          simp only [chunkLoop, chunkTurn, SendRes.accepted] at h ⊢
          generalize hsent : min n (o.total - offset) = sent at h ⊢
          by_cases h0 : sent = 0
          · simp [h0] at h
          by_cases hlt : offset + sent < o.total
          · simp only [h0, hlt, if_false, if_true] at h ⊢
            rw [ih hlt.le h, ← slice_add]
            congr 1
            omega
          · simp only [h0, hlt, if_false] at h ⊢
            congr 1
            omega

theorem chunkLoop_eq_zero {o : Outgoing} {offset : ℕ} {script : List SendRes}
    (hoff : offset < o.total) (h : (chunkLoop o offset script).1 = some 0) :
    ∃ offset', offset ≤ offset' ∧ offset' < o.total ∧
      (chunkLoop o offset script).2.1 = { o with bytesSent := offset' } ∧
      (chunkLoop o offset script).2.2 = slice o.wireBuf offset (offset' - offset) := by
  induction script generalizing offset with
  | nil => simp [chunkLoop] at h
  | cons res script ih =>
      cases res with
      | eagain =>
          exact ⟨offset, le_rfl, hoff, rfl, by simp [chunkLoop, chunkTurn, SendRes.accepted]⟩
      | error => simp [chunkLoop, chunkTurn] at h
      | eintr =>
          simp only [chunkLoop, chunkTurn, SendRes.accepted, slice_zero, List.nil_append] at h ⊢
          exact ih hoff h
      | sent n =>
          simp only [chunkLoop, chunkTurn, SendRes.accepted] at h ⊢
          generalize hsent : min n (o.total - offset) = sent at h ⊢
          by_cases h0 : sent = 0
          · simp [h0] at h
          by_cases hlt : offset + sent < o.total
          · simp only [h0, hlt, if_false, if_true] at h ⊢
            obtain ⟨offset', hle, hlt', ho, hbytes⟩ := ih hlt h
            refine ⟨offset', by omega, hlt', ho, ?_⟩
            rw [hbytes, ← slice_add]
            congr 1
            omega
          · simp [h0, hlt] at h

/-- An entry of the ring of which some bytes may have been sent: then the
copy for the wire is there. -/
structure Outgoing.Valid (o : Outgoing) : Prop where
  lt : o.bytesSent < o.total
  copied : o.bytesSent ≠ 0 → slice o.wireBuf 0 o.total = o.msg.frame

theorem Outgoing.Valid.slice_prepare {o : Outgoing} (h : o.Valid) :
    slice o.prepare.wireBuf 0 o.prepare.total = o.msg.frame := by
  unfold prepare
  by_cases h0 : o.bytesSent = 0
  · rw [if_pos h0]
    have htotal : o.total = o.msg.frame.length := by rw [o.msg.length_frame, total]
    show slice (store o.wireBuf 0 o.msg.frame) 0 o.total = o.msg.frame
    rw [htotal, slice_store_self]
  · rw [if_neg h0]
    exact h.copied h0

@[simp] theorem Outgoing.prepare_msg (o : Outgoing) : o.prepare.msg = o.msg := by
  unfold prepare
  split <;> rfl

@[simp] theorem Outgoing.prepare_bytesSent (o : Outgoing) : o.prepare.bytesSent = o.bytesSent := by
  unfold prepare
  split <;> rfl

@[simp] theorem Outgoing.prepare_total (o : Outgoing) : o.prepare.total = o.total := by
  simp [total]

theorem Outgoing.Valid.slice_rest {o : Outgoing} (h : o.Valid) {offset : ℕ}
    (hoff : offset ≤ o.total) :
    slice o.prepare.wireBuf offset (o.total - offset) = o.msg.frame.drop offset := by
  have hall := h.slice_prepare
  rw [o.prepare_total] at hall
  rw [slice_eq_take_drop _ (show offset + (o.total - offset) ≤ o.total by omega), hall]
  refine List.take_of_length_le ?_
  rw [List.length_drop, o.msg.length_frame, total]

/-- The bytes a message is turned into by calls of `send_message_chunk`,
from the state of its entry until one of them returns `1`. -/
inductive ChunkRun : Outgoing → List UInt8 → Prop
  | finished {o script} (h : (sendMessageChunk o script).1 = some 1) :
      ChunkRun o (sendMessageChunk o script).2.2
  | blocked {o script bs} (h : (sendMessageChunk o script).1 = some 0)
      (rest : ChunkRun (sendMessageChunk o script).2.1 bs) :
      ChunkRun o ((sendMessageChunk o script).2.2 ++ bs)

theorem ChunkRun.eq {o : Outgoing} {bs : List UInt8} (hrun : ChunkRun o bs) (h : o.Valid) :
    bs = o.msg.frame.drop o.bytesSent := by
  induction hrun with
  | @finished o script hret =>
      rw [sendMessageChunk, chunkLoop_eq_one (by simpa using h.lt.le) hret, o.prepare_total,
        h.slice_rest h.lt.le]
  | @blocked o script bs hret _ ih =>
      obtain ⟨offset, hle, hlt, ho, hbytes⟩ :=
        chunkLoop_eq_zero (by simpa using h.lt) hret
      rw [o.prepare_total] at hlt
      have hvalid : (sendMessageChunk o script).2.1.Valid := by
        rw [sendMessageChunk, ho]
        refine ⟨by simpa [Outgoing.total] using hlt, fun _ => ?_⟩
        simpa [Outgoing.total] using h.slice_prepare
      have hsplit := slice_add o.prepare.wireBuf o.bytesSent (offset - o.bytesSent)
        (o.total - offset)
      rw [show o.bytesSent + (offset - o.bytesSent) = offset by omega,
        show offset - o.bytesSent + (o.total - offset) = o.total - o.bytesSent by omega,
        h.slice_rest h.lt.le, h.slice_rest hlt.le] at hsplit
      rw [ih hvalid, sendMessageChunk, ho, hbytes, hsplit]
      simp

inductive Serialised (m : MessageControl) : List UInt8 → Prop
  | framed {script} (h : (sendFramedMessage m script).1 = some 0) :
      Serialised m (sendFramedMessage m script).2
  | chunks {wireBuf bs} (h : ChunkRun ⟨m, wireBuf, 0⟩ bs) : Serialised m bs

theorem Serialised.eq_frame {m : MessageControl} {bs : List UInt8} (h : Serialised m bs)
    (hok : m.LengthOk) : bs = m.frame := by
  cases h with
  | framed hret =>
      rw [sendFramedMessage, framedLoop_eq_zero hret, List.drop_zero, framedWire_eq_frame hok]
  | chunks hrun =>
      refine hrun.eq ⟨?_, fun h0 => absurd rfl h0⟩
      simp [Outgoing.total, headerSize]

end LinuxMiniProjects.ControlPlane
