import LinuxMiniProjects.Lib.SocketReader
import LinuxMiniProjects.ControlPlane.Framing

/-!
The parser of the client (`read_stage` in `client.h`), next to that of the
server.

The one is a copy of the other. They differ in what they do with a header
whose length is out of range. The server marks the connection and returns.
The client writes a line to its log and goes on as if nothing had been
read; it is still in the stage `READ_HEADER`, with all bytes of the
header, and asks `recv` for the zero bytes that are missing. It takes the
zero it gets for the end of the stream, and that is what stops it.

As long as no header has such a length the two do the same, call by call
and `recv` by `recv`. This is `Agree`, which every turn keeps. What the
calls of `recv` ask for is listed beside what a call returns. If there is
such a header, calls that go on until it has arrived end with a `recv`
for zero bytes (`Spoiled`).
-/

namespace LinuxMiniProjects.GatewayCli

open Bytes Socket Machine ControlPlane

/-! ### The function -/

structure Receiver where
  shutdown : Bool
  inbox : Inbox
  numPacketRecv : UInt64

/-- Bytes arrive in the stage `READ_HEADER`. A length that is out of range
changes nothing. -/
def receiveHeader (i : Inbox) (bs : List UInt8) : ReadTurn :=
  let message := { i.message with header := store i.message.header i.bytesRead bs }
  let bytesRead := i.bytesRead + bs.length
  if bytesRead < headerSize then .wait { i with message, bytesRead }
  else if ¬ message.LengthOk then .again { i with message, bytesRead }
  else
    let stage := if message.length = 0 then .readChecksum else .readPayload
    .again { stage, message, bytesRead := 0 }

def receive (i : Inbox) (bs : List UInt8) : ReadTurn :=
  match i.stage with
  | .readHeader => receiveHeader i bs
  | .readPayload => i.receivePayload bs
  | .readChecksum => i.receiveChecksum bs

def turn (i : Inbox) : RecvRes → ReadTurn
  | .data b bs => receive i (b :: bs)
  | .eintr => .again i
  | .eagain => .wait i
  | .eof => .close i
  | .error => .close i

/-- A turn of the loop: what `read_stage` returns, if it returns, and the
client. -/
def Receiver.readTurn (c : Receiver) (res : RecvRes) : Option ℤ × Receiver :=
  match turn c.inbox res with
  | .again inbox => (none, { c with inbox })
  | .wait inbox => (some 0, { c with inbox })
  | .close inbox => (some (-1), { c with inbox, shutdown := true })
  | .frame inbox true => (some 1, { c with inbox, numPacketRecv := c.numPacketRecv + 1 })
  | .frame inbox false => (some 2, { c with inbox })

def clientReader : Reader Receiver where
  stopped := Receiver.shutdown
  remaining := fun c => c.inbox.remaining
  next := Receiver.readTurn

def serverReader : Reader Client where
  stopped := Client.pendingClose
  remaining := fun c => c.inbox.remaining
  next := Client.readTurn

/-- This is the function of the server as it is used everywhere else. -/
theorem serverReader_loop (fuel : ℕ) (c : Client) (items : List Item) :
    readLoop fuel c items = ((serverReader.loop fuel c items).ret,
      (serverReader.loop fuel c items).state, (serverReader.loop fuel c items).items) := by
  induction fuel generalizing c items with
  | zero => rfl
  | succ fuel ih =>
      have hstopped : serverReader.stopped c = c.pendingClose := rfl
      have hremaining : serverReader.remaining c = c.inbox.remaining := rfl
      have hnext : serverReader.next c = c.readTurn := rfl
      simp only [readLoop, Reader.loop, hstopped, hremaining, hnext]
      cases hclose : c.pendingClose with
      | true => rfl
      | false =>
          simp only [Bool.false_eq_true, if_false]
          cases hturn : c.readTurn (recv c.inbox.remaining items).1 with
          | mk ret c' =>
              cases ret with
              | none => exact ih c' _
              | some ret => rfl

/-! ### Streams without a bad length -/

def WellFramed (W : List UInt8) : Prop :=
  ∀ (ms : List MessageControl) (m : MessageControl) (rest : List UInt8),
    (∀ m' ∈ ms, m'.LengthOk) →
    W = ms.flatMap MessageControl.frame ++ (slice m.header 0 headerSize ++ rest) → m.LengthOk

theorem WellFramed.header {m : MessageControl} {rest : List UInt8}
    (h : WellFramed (slice m.header 0 headerSize ++ rest)) : m.LengthOk :=
  h [] m rest (fun _ hm => absurd hm List.not_mem_nil) rfl

theorem WellFramed.tail {m : MessageControl} {rest : List UInt8}
    (h : WellFramed (m.frame ++ rest)) (hm : m.LengthOk) : WellFramed rest := by
  intro ms m' rest' hms hrest
  refine h (m :: ms) m' rest' (List.forall_mem_cons.mpr ⟨hm, hms⟩) ?_
  rw [List.flatMap_cons, List.append_assoc, ← hrest]

theorem wellFramed_nil : WellFramed [] := by
  intro ms m rest _ heq
  have hlen := congrArg List.length heq
  simp only [List.length_nil, List.length_append, length_slice, headerSize] at hlen
  omega

theorem WellFramed.cons {m : MessageControl} {rest : List UInt8} (h : WellFramed rest)
    (hm : m.LengthOk) : WellFramed (m.frame ++ rest) := by
  intro ms m' rest' hms heq
  cases ms with
  | nil =>
      have hheader := header_eq_of_append_eq heq.symm
      rwa [MessageControl.LengthOk, MessageControl.length_congr hheader]
  | cons m₁ ms₁ =>
      rw [List.flatMap_cons, List.append_assoc] at heq
      obtain ⟨-, -, hrest⟩ := frame_append_inj heq
      exact h ms₁ m' rest' (List.forall_mem_cons.mp hms).2 hrest

theorem wellFramed_frames {ms : List MessageControl} (h : ∀ m ∈ ms, m.LengthOk) :
    WellFramed (ms.flatMap MessageControl.frame) := by
  induction ms with
  | nil => exact wellFramed_nil
  | cons m ms ih =>
      obtain ⟨hm, hms⟩ := List.forall_mem_cons.mp h
      exact (ih hms).cons hm

/-- What a parser has of a frame has no bad length: it would not have gone
on behind the header. -/
theorem wellFramed_received {i : Inbox} (h : i.Valid) : WellFramed i.received := by
  intro ms m rest hms heq
  cases ms with
  | cons m₁ ms₁ =>
      rw [List.flatMap_cons, List.append_assoc] at heq
      exact absurd heq (h.received_ne_frame m₁ _)
  | nil =>
      rw [List.flatMap_nil, List.nil_append] at heq
      obtain ⟨stage, message, bytesRead⟩ := i
      cases stage with
      | readHeader =>
          have hlt : bytesRead < headerSize := h
          have hlen := congrArg List.length heq
          simp only [Inbox.received, List.length_append, length_slice] at hlen
          omega
      | readPayload =>
          have hheader := (List.append_inj heq (by simp)).1
          rw [MessageControl.LengthOk, MessageControl.length_congr hheader.symm]
          exact h.1
      | readChecksum =>
          simp only [Inbox.received, List.append_assoc] at heq
          have hheader := (List.append_inj heq (by simp)).1
          rw [MessageControl.LengthOk, MessageControl.length_congr hheader.symm]
          exact h.1

/-! ### Agreement -/

/-- The two parsers hold the same, and what they are in the middle of is
well framed. -/
structure Agree (c : Receiver) (s : Client) (items : List Item) : Prop where
  inbox : c.inbox = s.inbox
  shutdown : c.shutdown = s.pendingClose
  valid : c.shutdown = false → c.inbox.Valid
  framed : c.shutdown = false → WellFramed (c.inbox.received ++ bytes (arriving items))

theorem receiveHeader_eq (i : Inbox) (bs : List UInt8) :
    receiveHeader i bs =
      match i.receiveHeader bs with
      | .close i' => .again i'
      | t => t := by
  simp only [receiveHeader, Inbox.receiveHeader]
  split
  · rfl
  · split <;> rfl

theorem receive_eq {i : Inbox} {bs : List UInt8} (h : ∀ i', i.receive bs ≠ .close i') :
    receive i bs = i.receive bs := by
  unfold receive Inbox.receive at *
  cases hstage : i.stage with
  | readHeader =>
      rw [hstage] at h
      dsimp only at h ⊢
      rw [receiveHeader_eq]
      split
      next i' hclose => exact absurd hclose (h i')
      next => rfl
  | readPayload => rfl
  | readChecksum => rfl

/-- What a turn makes of a stream `W`, of which `rest` is still to come: it
closes because of a bad length, or what is left has one if `W` has. -/
def Continues (W rest : List UInt8) : ReadTurn → Prop
  | .again i | .wait i | .frame i _ =>
      i.Valid ∧ (WellFramed (i.received ++ rest) ↔ WellFramed W)
  | .close _ => ¬ WellFramed W

theorem receive_continues {i : Inbox} (hvalid : i.Valid) {bs : List UInt8}
    (hbs : bs.length ≤ i.remaining) (rest : List UInt8) :
    Continues (i.received ++ (bs ++ rest)) rest (i.receive bs) := by
  have hparses := hvalid.receive hbs
  rw [← List.append_assoc]
  generalize i.receive bs = turn at hparses ⊢
  cases hparses with
  | again valid received | wait valid received => exact ⟨valid, received ▸ Iff.rfl⟩
  | close header bad =>
      rw [header]
      exact fun hframed => bad hframed.header
  | @frame i' ok stage bytesRead lengthOk frame checksum =>
      have hreceived : i'.received = [] := by simp [Inbox.received, stage, bytesRead]
      refine ⟨by simp [Inbox.Valid, stage, bytesRead, headerSize], ?_⟩
      rw [frame, hreceived, List.nil_append]
      exact ⟨fun hrest => hrest.cons lengthOk, fun hframed => hframed.tail lengthOk⟩

theorem Agree.turn {c : Receiver} {s : Client} {items : List Item} (h : Agree c s items)
    (hopen : c.shutdown = false) {res : RecvRes} {items' : List Item}
    (hrecv : recv c.inbox.remaining items = (res, items')) :
    (c.readTurn res).1 = (s.readTurn res).1 ∧
      Agree (c.readTurn res).2 (s.readTurn res).2 items' := by
  have hvalid := h.valid hopen
  have hframed := h.framed hopen
  obtain ⟨hinbox, hshutdown, -, -⟩ := h
  simp only [Receiver.readTurn, Client.readTurn, ← hinbox]
  cases res with
  | data b bs =>
      obtain ⟨hlen, hbytes⟩ := recv_data (recv_arriving hrecv (by simp) (by simp))
      rw [hbytes] at hframed
      have hgoes := receive_continues hvalid hlen (bytes (arriving items'))
      cases hturn : c.inbox.receive (b :: bs) with
      | close i =>
          rw [hturn] at hgoes
          exact absurd hframed hgoes
      | frame i ok =>
          rw [hturn] at hgoes
          rw [GatewayCli.turn, Inbox.turn, receive_eq (by simp [hturn]), hturn]
          cases ok <;> exact ⟨rfl, rfl, hshutdown, fun _ => hgoes.1, fun _ => hgoes.2.mpr hframed⟩
      | again i | wait i =>
          rw [hturn] at hgoes
          rw [GatewayCli.turn, Inbox.turn, receive_eq (by simp [hturn]), hturn]
          exact ⟨rfl, rfl, hshutdown, fun _ => hgoes.1, fun _ => hgoes.2.mpr hframed⟩
  | eintr | eagain =>
      have hbytes := bytes_recv (recv_arriving hrecv (by simp) (by simp)) (by simp)
      exact ⟨rfl, rfl, hshutdown, fun _ => hvalid, fun _ => hbytes ▸ hframed⟩
  | eof | error => exact ⟨rfl, rfl, rfl, Bool.noConfusion, Bool.noConfusion⟩

theorem agree_sim : clientReader.Sim serverReader Agree where
  stopped h := h.shutdown
  remaining h hopen := ⟨congrArg Inbox.remaining h.inbox, (h.valid hopen).remaining_pos⟩
  next h hopen := h.turn hopen rfl

theorem clientReader_stopsOnFailure : clientReader.StopsOnFailure := by
  intro c res hret
  simp only [clientReader, Receiver.readTurn] at hret ⊢
  generalize turn c.inbox res = turn at hret ⊢
  cases turn with
  | again i => cases hret
  | wait i => simp at hret
  | close i => rfl
  | frame i ok => cases ok <;> simp at hret

/-- A call of `read_stage`: what it returns, what it asked `recv` for, and
the message in the buffer then. -/
def clientCall : Receiver × List Item → Unit →
    Reader.Seen MessageControl × (Receiver × List Item) :=
  clientReader.callStep fun c => c.inbox.message

def serverCall : Client × List Item → Unit → Reader.Seen MessageControl × (Client × List Item) :=
  serverReader.callStep fun s => s.inbox.message

/-! ### Streams with a bad length -/

/-- There is a bad length in what the client has not read yet. -/
structure Spoiled (c : Receiver) (items : List Item) : Prop where
  opened : c.shutdown = false
  valid : c.inbox.Valid
  bad : ¬ WellFramed (c.inbox.received ++ bytes (arriving items))

/-- Where the server closes, the client goes on and has nothing left to
ask for. -/
theorem receive_of_close {i i' : Inbox} {bs : List UInt8} (hbs : bs.length ≤ i.remaining)
    (h : i.receive bs = .close i') : receive i bs = .again i' ∧ i'.remaining = 0 := by
  obtain ⟨stage, message, bytesRead⟩ := i
  cases stage with
  | readHeader =>
      have hclose : Inbox.receiveHeader ⟨.readHeader, message, bytesRead⟩ bs = .close i' := h
      refine ⟨by simp only [receive, receiveHeader_eq, hclose], ?_⟩
      simp only [Inbox.receiveHeader] at hclose
      split_ifs at hclose with hshort hbad
      obtain rfl := ReadTurn.close.inj hclose
      simp only [Inbox.remaining] at hbs ⊢
      omega
  | readPayload =>
      simp only [Inbox.receive, Inbox.receivePayload] at h
      split_ifs at h
  | readChecksum =>
      simp only [Inbox.receive, Inbox.receiveChecksum] at h
      split_ifs at h

theorem mem_asked_loop {c : Receiver} (hopen : c.shutdown = false) (fuel : ℕ) (items : List Item) :
    c.inbox.remaining ∈ (clientReader.loop (fuel + 1) c items).asked := by
  have hrunning : clientReader.stopped c = false := hopen
  simp only [Reader.loop, hrunning, Bool.false_eq_true, if_false]
  split
  · exact List.mem_cons_self
  · exact List.mem_singleton_self _

theorem Spoiled.arriving_ne_nil {c : Receiver} {items : List Item} (h : Spoiled c items) :
    arriving items ≠ [] := by
  intro hnil
  have hbad := h.bad
  rw [hnil, bytes_nil, List.append_nil] at hbad
  exact hbad (wellFramed_received h.valid)

/-- A turn takes something off the stream. It leaves the bad length to
come, or has read it and the loop goes round once more. -/
theorem Spoiled.turn {c : Receiver} {items items' : List Item} {res : RecvRes}
    (h : Spoiled c items) (hrecv : recv c.inbox.remaining items = (res, items')) :
    weight (arriving items') < weight (arriving items) ∧
      (Spoiled (c.readTurn res).2 items' ∨
        (c.readTurn res).1 = none ∧ (c.readTurn res).2.shutdown = false ∧
          (c.readTurn res).2.inbox.remaining = 0) := by
  have hnonempty := h.arriving_ne_nil
  obtain ⟨hopen, hvalid, hbad⟩ := h
  have hpos := hvalid.remaining_pos
  have hreceived := (quiet_arriving items).recv hpos
  cases res with
  | data b bs =>
      rw [recv_arriving hrecv (by simp) (by simp)] at hreceived
      cases hreceived with
      | data short quiet taken less =>
          refine ⟨less, ?_⟩
          rw [taken] at hbad
          have hgoes := receive_continues hvalid short (bytes (arriving items'))
          simp only [Receiver.readTurn, GatewayCli.turn]
          cases hturn : c.inbox.receive (b :: bs) with
          | close i =>
              obtain ⟨hagain, hzero⟩ := receive_of_close short hturn
              rw [hagain]
              exact .inr ⟨rfl, hopen, hzero⟩
          | frame i ok =>
              rw [hturn] at hgoes
              rw [receive_eq (by simp [hturn]), hturn]
              cases ok <;> exact .inl ⟨hopen, hgoes.1, mt hgoes.2.mp hbad⟩
          | again i | wait i =>
              rw [hturn] at hgoes
              rw [receive_eq (by simp [hturn]), hturn]
              exact .inl ⟨hopen, hgoes.1, mt hgoes.2.mp hbad⟩
  | eintr =>
      rw [recv_arriving hrecv (by simp) (by simp)] at hreceived
      cases hreceived with
      | eintr quiet taken less => exact ⟨less, .inl ⟨hopen, hvalid, taken ▸ hbad⟩⟩
  | eagain =>
      rw [recv_arriving hrecv (by simp) (by simp)] at hreceived
      cases hreceived with
      | eagain quiet taken less =>
          exact ⟨less.resolve_right fun hnil => hnonempty hnil.1,
            .inl ⟨hopen, hvalid, taken ▸ hbad⟩⟩
  | eof => exact absurd (arriving_eq_nil hpos hrecv (.inl rfl)) hnonempty
  | error => exact absurd (arriving_eq_nil hpos hrecv (.inr rfl)) hnonempty

/-- **The loop** asks for zero bytes, or has read some of the stream and
the bad length is still to come. -/
theorem Spoiled.loop {fuel : ℕ} {c : Receiver} {items : List Item} (h : Spoiled c items)
    (hfuel : weight (arriving items) < fuel) :
    0 ∈ (clientReader.loop fuel c items).asked ∨
      Spoiled (clientReader.loop fuel c items).state (clientReader.loop fuel c items).items ∧
        weight (arriving (clientReader.loop fuel c items).items) < weight (arriving items) := by
  induction fuel generalizing c items with
  | zero => omega
  | succ fuel ih =>
      have hrunning : clientReader.stopped c = false := h.opened
      have hremaining : clientReader.remaining c = c.inbox.remaining := rfl
      have hnext : clientReader.next c = c.readTurn := rfl
      simp only [Reader.loop, hrunning, hremaining, hnext, Bool.false_eq_true, if_false]
      cases hrecv : recv c.inbox.remaining items with
      | mk res items' =>
          obtain ⟨hless, hturn⟩ := h.turn hrecv
          cases hout : c.readTurn res with
          | mk ret c' =>
              rw [hout] at hturn
              cases ret with
              | some ret =>
                  obtain hspoiled | ⟨hnone, -⟩ := hturn
                  · exact .inr ⟨hspoiled, hless⟩
                  · cases hnone
              | none =>
                  obtain hspoiled | ⟨-, hopen, hzero⟩ := hturn
                  · obtain hasked | ⟨hrest, hless'⟩ := ih hspoiled (by omega)
                    · exact .inl (List.mem_cons_of_mem _ hasked)
                    · exact .inr ⟨hrest, hless'.trans hless⟩
                  · obtain ⟨fuel, rfl⟩ : ∃ n, fuel = n + 1 := ⟨fuel - 1, by omega⟩
                    have hasked := mem_asked_loop hopen fuel items'
                    rw [hzero] at hasked
                    exact .inl (List.mem_cons_of_mem _ hasked)

/-- **Calls** that go on until the bad length has arrived ask for zero
bytes. -/
theorem Spoiled.exists_calls {c : Receiver} {items : List Item} (h : Spoiled c items) :
    ∃ calls, ∃ seen ∈ trace clientCall (c, items) calls, 0 ∈ seen.asked := by
  induction hn : weight (arriving items) using Nat.strong_induction_on generalizing c items with
  | _ n ih =>
      subst hn
      obtain hasked | ⟨hspoiled, hless⟩ :=
        h.loop (Nat.lt_succ_of_le (weight_arriving_le items))
      · exact ⟨[()], _, List.mem_cons_self, hasked⟩
      · obtain ⟨calls, seen, hseen, hasked⟩ := ih _ hless hspoiled rfl
        exact ⟨() :: calls, seen, List.mem_cons_of_mem _ hseen, hasked⟩

/-- **The parsers agree** exactly on the streams without a bad length, in
any pieces and with any failures in between: calls of the client's
`read_stage` and of the server's return the same, with the same message in
the buffer, and ask `recv` for the same numbers of bytes; they never ask
for zero bytes, and for nothing at all behind a call that returned
`-1`. -/
theorem parsers_agree_iff {c : Receiver} {s : Client} {items : List Item}
    (hclient : c.shutdown = false) (hserver : s.pendingClose = false) (hinbox : c.inbox = s.inbox)
    (hstage : c.inbox.stage = .readHeader) (hread : c.inbox.bytesRead = 0) :
    (∀ calls : List Unit,
      trace clientCall (c, items) calls = trace serverCall (s, items) calls ∧
      (∀ seen ∈ trace clientCall (c, items) calls, ∀ n ∈ seen.asked, 0 < n) ∧
      (trace clientCall (c, items) calls).Pairwise fun seen later =>
        seen.ret = -1 → later.asked = []) ↔
    WellFramed (bytes (arriving items)) := by
  have hvalid : c.inbox.Valid := by simp [Inbox.Valid, hstage, hread, headerSize]
  have hreceived : c.inbox.received = [] := by simp [Inbox.received, hstage, hread]
  constructor
  · intro hcalls
    by_contra hbad
    have hspoiled : Spoiled c items := ⟨hclient, hvalid, by rwa [hreceived, List.nil_append]⟩
    obtain ⟨calls, seen, hseen, hasked⟩ := hspoiled.exists_calls
    exact absurd ((hcalls calls).2.1 seen hseen 0 hasked) (lt_irrefl 0)
  · intro hframed calls
    have hagree : Agree c s items :=
      ⟨hinbox, hclient.trans hserver.symm, fun _ => hvalid,
        fun _ => by rwa [hreceived, List.nil_append]⟩
    obtain ⟨htrace, hpositive⟩ :=
      agree_sim.trace_eq (fun h => congrArg Inbox.message h.inbox) hagree calls
    exact ⟨htrace, hpositive, clientReader_stopsOnFailure.pairwise _ _ calls⟩

def freshReceiver : Receiver := ⟨false, (initClient 1 1).inbox, 0⟩

def ackInPieces : List Item :=
  [.eintr] ++ chunkOf ((buildAck 7).frame.take 10) ++ [.eagain] ++
    chunkOf ((buildAck 7).frame.drop 10)

theorem parsers_agree_iff_ackInPieces :
    (trace clientCall (freshReceiver, ackInPieces) [(), (), ()]).map (·.ret) = [0, 0, 1] ∧
      trace clientCall (freshReceiver, ackInPieces) [(), (), ()] =
        trace serverCall (initClient 1 1, ackInPieces) [(), (), ()] := by
  have harriving : arriving ackInPieces = ackInPieces := by decide +kernel
  have hbytes : bytes (arriving ackInPieces) = [buildAck 7].flatMap MessageControl.frame := by
    rw [harriving]
    simp [ackInPieces, Item.bytes]
  have hframed : WellFramed (bytes (arriving ackInPieces)) := by
    rw [hbytes]
    exact wellFramed_frames (List.forall_mem_singleton.mpr (by decide +kernel))
  exact ⟨by decide +kernel, ((parsers_agree_iff rfl rfl rfl rfl rfl).mpr hframed _).1⟩

def badLength : List Item := chunkOf (List.replicate 30 0xFF)

/-- The server stops behind a header with a bad length. The client asks
for zero bytes first; there are six more, so it gets zero. -/
theorem parsers_disagree_badLength :
    (trace serverCall (initClient 1 1, badLength) [(), ()]).map
        (fun seen => (seen.ret, seen.asked)) = [(-1, [24]), (-1, [])] ∧
      (trace clientCall (freshReceiver, badLength) [(), ()]).map
        (fun seen => (seen.ret, seen.asked)) = [(-1, [24, 0]), (-1, [])] := by
  decide +kernel

end LinuxMiniProjects.GatewayCli
