import LinuxMiniProjects.Lib.Machine
import LinuxMiniProjects.ControlPlane.Client

/-!
Reading frames (`read_stage` in `server.h`).

The parser goes through three stages, header, payload and checksum, and
skips the second one for an empty payload. A call ends with the first
complete frame, or when a `recv` brings less than it was asked for or
nothing; the next call goes on where the last one stopped.

`Reads` is the specification of one call in terms of bytes. What the
parser has buffered, followed by what the socket has in store, is a
stream; a call that returns `1` or `2` takes a frame off the front of it,
and any other call leaves the stream as it is or ends it.
-/

namespace LinuxMiniProjects.ControlPlane

open Bytes Socket Machine

/-! ### The function -/

/-- What a `recv` does to the loop: it goes on, it returns `0`, it sets
`pending_close` and returns `-1`, or a frame is complete and its checksum
right or wrong. -/
inductive ReadTurn
  | again (i : Inbox)
  | wait (i : Inbox)
  | close (i : Inbox)
  | frame (i : Inbox) (ok : Bool)

namespace Inbox

def remaining (i : Inbox) : ℕ :=
  match i.stage with
  | .readHeader => headerSize - i.bytesRead
  | .readPayload => i.message.length.toNat - i.bytesRead
  | .readChecksum => checksumSize - i.bytesRead

/-- Bytes arrive in the stage `READ_HEADER`. -/
def receiveHeader (i : Inbox) (bs : List UInt8) : ReadTurn :=
  let message := { i.message with header := store i.message.header i.bytesRead bs }
  let bytesRead := i.bytesRead + bs.length
  if bytesRead < headerSize then .wait { i with message, bytesRead }
  else if ¬ message.LengthOk then .close { i with message, bytesRead }
  else
    let stage := if message.length = 0 then .readChecksum else .readPayload
    .again { stage, message, bytesRead := 0 }

/-- Bytes arrive in the stage `READ_PAYLOAD`. -/
def receivePayload (i : Inbox) (bs : List UInt8) : ReadTurn :=
  let message := { i.message with message := store i.message.message i.bytesRead bs }
  let bytesRead := i.bytesRead + bs.length
  if bytesRead < message.length.toNat then .wait { i with message, bytesRead }
  else .again { stage := .readChecksum, message, bytesRead := 0 }

/-- Bytes arrive in the stage `READ_CHECKSUM`. -/
def receiveChecksum (i : Inbox) (bs : List UInt8) : ReadTurn :=
  let message := { i.message with checksum := store i.message.checksum i.bytesRead bs }
  let bytesRead := i.bytesRead + bs.length
  if bytesRead < checksumSize then .wait { i with message, bytesRead }
  else
    .frame { stage := .readHeader, message, bytesRead := 0 }
      (calculateChecksum message == getLe32 message.checksum 0)

def receive (i : Inbox) (bs : List UInt8) : ReadTurn :=
  match i.stage with
  | .readHeader => i.receiveHeader bs
  | .readPayload => i.receivePayload bs
  | .readChecksum => i.receiveChecksum bs

def turn (i : Inbox) : RecvRes → ReadTurn
  | .data b bs => i.receive (b :: bs)
  | .eintr => .again i
  | .eagain => .wait i
  | .eof => .close i
  | .error => .close i

end Inbox

/-- A turn of the loop: what `read_stage` returns, if it returns, and the
client. -/
def Client.readTurn (c : Client) (res : RecvRes) : Option ℤ × Client :=
  match c.inbox.turn res with
  | .again inbox => (none, { c with inbox })
  | .wait inbox => (some 0, { c with inbox })
  | .close inbox => (some (-1), { c with inbox, pendingClose := true })
  | .frame inbox true => (some 1, { c with
      inbox
      pendingTask := c.pendingTask + 1
      packetReceived := c.packetReceived + 1 })
  | .frame inbox false => (some 2, { c with inbox })

/-- The loop. It returns with the first frame, so the bound on the number
of frames is never met; every turn that goes on has taken something off
the socket. -/
def readLoop : ℕ → Client → List Item → ℤ × Client × List Item
  | 0, c, items => (0, c, items)
  | fuel + 1, c, items =>
      if c.pendingClose then (-1, c, items)
      else
        match c.readTurn (recv c.inbox.remaining items).1 with
        | (none, c') => readLoop fuel c' (recv c.inbox.remaining items).2
        | (some ret, c') => (ret, c', (recv c.inbox.remaining items).2)

def readStage (c : Client) (items : List Item) : ℤ × Client × List Item :=
  readLoop (weight items + 1) c items

/-! ### What the parser holds -/

namespace Inbox

def Valid (i : Inbox) : Prop :=
  match i.stage with
  | .readHeader => i.bytesRead < headerSize
  | .readPayload => i.message.LengthOk ∧ i.bytesRead < i.message.length.toNat
  | .readChecksum => i.message.LengthOk ∧ i.bytesRead < checksumSize

def received (i : Inbox) : List UInt8 :=
  match i.stage with
  | .readHeader => slice i.message.header 0 i.bytesRead
  | .readPayload => slice i.message.header 0 headerSize ++ slice i.message.message 0 i.bytesRead
  | .readChecksum =>
      slice i.message.header 0 headerSize ++ slice i.message.message 0 i.message.length.toNat ++
        slice i.message.checksum 0 i.bytesRead

theorem Valid.remaining_pos {i : Inbox} (h : i.Valid) : 0 < i.remaining := by
  obtain ⟨stage, message, bytesRead⟩ := i
  cases stage with
  | readHeader => exact Nat.sub_pos_of_lt h
  | readPayload => exact Nat.sub_pos_of_lt h.2
  | readChecksum => exact Nat.sub_pos_of_lt h.2

end Inbox

inductive Parses (W : List UInt8) : ReadTurn → Prop
  | again {i} (valid : i.Valid) (received : i.received = W) : Parses W (.again i)
  | wait {i} (valid : i.Valid) (received : i.received = W) : Parses W (.wait i)
  | close {i} (header : W = slice i.message.header 0 headerSize) (bad : ¬ i.message.LengthOk) :
      Parses W (.close i)
  | frame {i ok} (stage : i.stage = .readHeader) (bytesRead : i.bytesRead = 0)
      (lengthOk : i.message.LengthOk) (frame : W = i.message.frame)
      (checksum : ok = true ↔ i.message.ChecksumOk) : Parses W (.frame i ok)

/-- A frame ends in the stage `READ_CHECKSUM`, with the comparison of the
checksums. -/
theorem Inbox.turn_frame {i i' : Inbox} {res : RecvRes} {ok : Bool}
    (h : i.turn res = .frame i' ok) : ok = true ↔ i'.message.ChecksumOk := by
  cases res with
  | data b bs =>
      simp only [Inbox.turn, Inbox.receive] at h
      cases hstage : i.stage with
      | readHeader =>
          simp only [hstage, Inbox.receiveHeader] at h
          split_ifs at h
      | readPayload =>
          simp only [hstage, Inbox.receivePayload] at h
          split_ifs at h
      | readChecksum =>
          simp only [hstage, Inbox.receiveChecksum] at h
          split_ifs at h
          obtain ⟨rfl, rfl⟩ := ReadTurn.frame.inj h
          rw [beq_iff_eq]
          exact eq_comm
  | _ => cases h

theorem Inbox.parses_header {m : MessageControl} {n : ℕ} (hn : n < headerSize) {bs : List UInt8}
    (hbs : bs.length ≤ headerSize - n) :
    Parses (slice m.header 0 n ++ bs) (Inbox.receiveHeader ⟨.readHeader, m, n⟩ bs) := by
  simp only [Inbox.receiveHeader]
  have hstore := slice_store_append m.header n bs
  generalize hm' : { m with header := store m.header n bs } = m'
  rw [← hstore, show store m.header n bs = m'.header by rw [← hm']]
  by_cases hlt : n + bs.length < headerSize
  · rw [if_pos hlt]
    exact .wait hlt rfl
  have hfull : n + bs.length = headerSize := by omega
  rw [if_neg hlt, hfull]
  by_cases hok : m'.LengthOk
  · rw [if_neg (not_not.mpr hok)]
    by_cases h0 : m'.length = 0
    · rw [if_pos h0]
      exact .again ⟨hok, Nat.zero_lt_succ 3⟩ (by simp [Inbox.received, h0])
    · rw [if_neg h0]
      have hpos : 0 < m'.length.toNat := by
        have := hok.1
        omega
      exact .again ⟨hok, hpos⟩ (by simp [Inbox.received])
  · rw [if_pos hok]
    exact .close rfl hok

theorem Inbox.parses_payload {m : MessageControl} {n : ℕ} (hok : m.LengthOk)
    (hn : n < m.length.toNat) {bs : List UInt8} (hbs : bs.length ≤ m.length.toNat - n) :
    Parses (slice m.header 0 headerSize ++ slice m.message 0 n ++ bs)
      (Inbox.receivePayload ⟨.readPayload, m, n⟩ bs) := by
  simp only [Inbox.receivePayload]
  have hstore := slice_store_append m.message n bs
  generalize hm' : { m with message := store m.message n bs } = m'
  have hheader : m'.header = m.header := by rw [← hm']
  have hlength : m'.length = m.length := MessageControl.length_congr (by rw [hheader])
  have hok' : m'.LengthOk := by rwa [MessageControl.LengthOk, hlength]
  rw [List.append_assoc, ← hstore, show store m.message n bs = m'.message by rw [← hm'], ← hheader]
  by_cases hlt : n + bs.length < m'.length.toNat
  · rw [if_pos hlt]
    exact .wait ⟨hok', hlt⟩ rfl
  · rw [if_neg hlt]
    have hfull : n + bs.length = m'.length.toNat := by
      rw [hlength] at hlt ⊢
      omega
    exact .again ⟨hok', Nat.zero_lt_succ 3⟩ (by simp [Inbox.received, hfull])

theorem Inbox.parses_checksum {m : MessageControl} {n : ℕ} (hok : m.LengthOk)
    (hn : n < checksumSize) {bs : List UInt8} (hbs : bs.length ≤ checksumSize - n) :
    Parses (slice m.header 0 headerSize ++ slice m.message 0 m.length.toNat ++
        slice m.checksum 0 n ++ bs)
      (Inbox.receiveChecksum ⟨.readChecksum, m, n⟩ bs) := by
  simp only [Inbox.receiveChecksum]
  have hstore := slice_store_append m.checksum n bs
  generalize hm' : { m with checksum := store m.checksum n bs } = m'
  have hheader : m'.header = m.header := by rw [← hm']
  have hmessage : m'.message = m.message := by rw [← hm']
  have hlength : m'.length = m.length := MessageControl.length_congr (by rw [hheader])
  have hok' : m'.LengthOk := by rwa [MessageControl.LengthOk, hlength]
  rw [List.append_assoc _ (slice m.checksum 0 n), ← hstore,
    show store m.checksum n bs = m'.checksum by rw [← hm'], ← hheader, ← hmessage, ← hlength]
  by_cases hlt : n + bs.length < checksumSize
  · rw [if_pos hlt]
    exact .wait ⟨hok', hlt⟩ rfl
  · rw [if_neg hlt, show n + bs.length = checksumSize by omega]
    exact .frame rfl rfl hok' rfl (beq_iff_eq.trans eq_comm)

theorem Inbox.Valid.receive {i : Inbox} (h : i.Valid) {bs : List UInt8}
    (hbs : bs.length ≤ i.remaining) : Parses (i.received ++ bs) (i.receive bs) := by
  obtain ⟨stage, message, bytesRead⟩ := i
  cases stage with
  | readHeader => exact Inbox.parses_header h hbs
  | readPayload => exact Inbox.parses_payload h.1 h.2 hbs
  | readChecksum => exact Inbox.parses_checksum h.1 h.2 hbs

/-! ### One call -/

/-- What a call returns and leaves behind, on a socket that neither ends
nor fails, if the stream before the call was `W`. -/
inductive Reads (c : Client) (W : List UInt8) : ℤ × Client × List Item → Prop
  /-- The frame is not complete. -/
  | wait {i items} (valid : i.Valid) (quiet : Quiet items)
      (stream : W = i.received ++ bytes items) :
      Reads c W (0, { c with inbox := i }, items)
  /-- The length in the header is out of range. -/
  | close {i items} (stream : W = slice i.message.header 0 headerSize ++ bytes items)
      (bad : ¬ i.message.LengthOk) :
      Reads c W (-1, { c with inbox := i, pendingClose := true }, items)
  /-- A frame with the right checksum. -/
  | accept {i items} (stage : i.stage = .readHeader) (bytesRead : i.bytesRead = 0)
      (lengthOk : i.message.LengthOk) (quiet : Quiet items)
      (stream : W = i.message.frame ++ bytes items) (checksum : i.message.ChecksumOk) :
      Reads c W (1, { c with
        inbox := i
        pendingTask := c.pendingTask + 1
        packetReceived := c.packetReceived + 1 }, items)
  /-- A frame with a wrong checksum. -/
  | reject {i items} (stage : i.stage = .readHeader) (bytesRead : i.bytesRead = 0)
      (lengthOk : i.message.LengthOk) (quiet : Quiet items)
      (stream : W = i.message.frame ++ bytes items) (checksum : ¬ i.message.ChecksumOk) :
      Reads c W (2, { c with inbox := i }, items)

theorem Reads.of_inbox {c : Client} {W : List UInt8} {i : Inbox} {out : ℤ × Client × List Item}
    (h : Reads { c with inbox := i } W out) : Reads c W out := by
  cases h with
  | wait valid quiet stream => exact .wait valid quiet stream
  | close stream bad => exact .close stream bad
  | accept stage bytesRead lengthOk quiet stream checksum =>
      exact .accept stage bytesRead lengthOk quiet stream checksum
  | reject stage bytesRead lengthOk quiet stream checksum =>
      exact .reject stage bytesRead lengthOk quiet stream checksum

theorem le_of_less {items items' : List Item}
    (h : weight items' < weight items ∨ items = [] ∧ items' = []) :
    weight items' ≤ weight items := by
  rcases h with h | ⟨rfl, rfl⟩
  · exact h.le
  · exact le_rfl

/-- **The loop.** It takes a frame off the stream, or what there is of it. -/
theorem readLoop_spec {fuel : ℕ} {c : Client} {items : List Item} (hfuel : weight items < fuel)
    (hopen : c.pendingClose = false) (hvalid : c.inbox.Valid) (hquiet : Quiet items) :
    Reads c (c.inbox.received ++ bytes items) (readLoop fuel c items) ∧
      (weight (readLoop fuel c items).2.2 < weight items ∨
        items = [] ∧ (readLoop fuel c items).2.2 = []) := by
  induction fuel generalizing c items with
  | zero => omega
  | succ fuel ih =>
      have hrecv := hquiet.recv hvalid.remaining_pos
      simp only [readLoop, hopen, Bool.false_eq_true, if_false]
      generalize recv c.inbox.remaining items = out at hrecv ⊢
      cases hrecv with
      | eintr quiet taken less =>
          -- The loop goes round with the same client.
          simp only [Client.readTurn, Inbox.turn]
          obtain ⟨hreads, hless⟩ := ih (c := c) (by omega) hopen hvalid quiet
          rw [taken]
          exact ⟨hreads, .inl (lt_of_le_of_lt (le_of_less hless) less)⟩
      | eagain quiet taken less =>
          simp only [Client.readTurn, Inbox.turn]
          exact ⟨.wait hvalid quiet (by rw [taken]), less⟩
      | @data b bs items' short quiet taken less =>
          have hparses := hvalid.receive short
          rw [taken, ← List.append_assoc]
          simp only [Client.readTurn, Inbox.turn]
          generalize c.inbox.receive (b :: bs) = turn at hparses ⊢
          cases hparses with
          | @again i valid received =>
              obtain ⟨hreads, hless⟩ := ih (c := { c with inbox := i }) (by omega) hopen valid quiet
              rw [received] at hreads
              exact ⟨hreads.of_inbox, .inl (lt_of_le_of_lt (le_of_less hless) less)⟩
          | wait valid received => exact ⟨.wait valid quiet (by rw [received]), .inl less⟩
          | close header bad => exact ⟨.close (by rw [header]) bad, .inl less⟩
          | @frame i ok stage bytesRead lengthOk frame checksum =>
              cases ok with
              | true =>
                  exact ⟨.accept stage bytesRead lengthOk quiet (by rw [frame])
                    (checksum.mp rfl), .inl less⟩
              | false =>
                  exact ⟨.reject stage bytesRead lengthOk quiet (by rw [frame])
                    (fun h => Bool.false_ne_true (checksum.mpr h)), .inl less⟩

theorem readStage_spec {c : Client} {items : List Item} (hopen : c.pendingClose = false)
    (hvalid : c.inbox.Valid) (hquiet : Quiet items) :
    Reads c (c.inbox.received ++ bytes items) (readStage c items) ∧
      (weight (readStage c items).2.2 < weight items ∨
        items = [] ∧ (readStage c items).2.2 = []) :=
  readLoop_spec (Nat.lt_succ_self _) hopen hvalid hquiet

end LinuxMiniProjects.ControlPlane
