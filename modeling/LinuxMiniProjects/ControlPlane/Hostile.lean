import LinuxMiniProjects.GatewayCli.ReadStage

/-!
The parser of the server and a peer that sends anything.

`read_stage` computes where a `recv` writes to, and how many bytes it asks
for, from a position that is kept between the calls and from a length that
the peer has chosen. A connection is a run here: bytes arrive in any
pieces, the socket may have nothing, be interrupted, closed or broken at
any time, the server calls `read_stage` whenever it likes, and between two
calls the other threads change what is theirs of the client.

What is shown is about every single `recv` of such a run (`callRecvs`). A
call of `read_stage` is taken by itself: a worker that marks the client
after the look at `pending_close` and before the `recv` of the same turn
acts after the call here.
-/

namespace LinuxMiniProjects.ControlPlane

open Bytes Socket Machine GatewayCli

/-! ### Single calls of `recv` -/

/-- The calls of `recv` in a call of `read_stage`: the client before each,
and its result. -/
def callRecvs (c : Client) (items : List Item) : List (Client × RecvRes) :=
  serverReader.recvs (weight items + 1) c items

theorem callRecvs_asked (c : Client) (items : List Item) :
    (callRecvs c items).map (fun x => x.1.inbox.remaining) = (serverReader.call c items).asked :=
  Reader.recvs_asked (r := serverReader) (weight items + 1) c items

/-- A `recv` that is safe: it asks for something, and what it asks for is
inside the field that is being filled. -/
structure SafeRecv (i : Inbox) : Prop where
  asks : 0 < i.remaining
  inside :
    i.stage = .readHeader ∧ i.bytesRead < headerSize ∧ i.bytesRead + i.remaining = headerSize ∨
    i.stage = .readPayload ∧ i.bytesRead < i.message.length.toNat ∧
      i.message.length ≤ maxPayloadSize ∧ i.bytesRead + i.remaining = i.message.length.toNat ∨
    i.stage = .readChecksum ∧ i.bytesRead < checksumSize ∧ i.bytesRead + i.remaining = checksumSize

theorem Inbox.Valid.safeRecv {i : Inbox} (h : i.Valid) : SafeRecv i := by
  refine ⟨h.remaining_pos, ?_⟩
  obtain ⟨stage, message, bytesRead⟩ := i
  cases stage with
  | readHeader => exact .inl ⟨rfl, h, Nat.add_sub_of_le h.le⟩
  | readPayload => exact .inr (.inl ⟨rfl, h.2, h.1.2, Nat.add_sub_of_le h.2.le⟩)
  | readChecksum => exact .inr (.inr ⟨rfl, h.2, Nat.add_sub_of_le h.2.le⟩)

def completedFrame (x : Client × RecvRes) : Option MessageControl :=
  match x.1.inbox.turn x.2 with
  | .frame i _ => some i.message
  | _ => none

/-- The `recv` completes a frame whose checksum is that of the header and
the payload that were received. -/
def completesSound (x : Client × RecvRes) : Bool :=
  (completedFrame x).any fun m => getLe32 m.checksum 0 == calculateChecksum m

/-! ### A connection -/

/-- The client, what the socket has in store, and all bytes the peer has
sent. -/
structure Conn where
  client : Client
  items : List Item
  stream : List UInt8

inductive ConnLabel
  /-- Something arrives on the socket. -/
  | arrive (item : Item)
  /-- The server calls `read_stage`. -/
  | call
  /-- Another thread has changed the client. -/
  | other (client : Client)

def Conn.step (s : Conn) : ConnLabel → Option Conn
  | .arrive item => some { s with items := s.items ++ [item], stream := s.stream ++ item.bytes }
  | .call =>
      let out := readStage s.client s.items
      some { s with client := out.2.1, items := out.2.2 }
  | .other client => some { s with client }

/-- Nobody but `read_stage` touches the parser, and nobody takes the mark
off a client that is to be closed. -/
def KeepsParser (s : Conn) : ConnLabel → Prop
  | .other client =>
      client.inbox = s.client.inbox ∧
        (s.client.pendingClose = true → client.pendingClose = true)
  | _ => True

/-- The stream is what was parsed, what the parser holds and what is still
to be read; this is no longer so when the client is to be closed. -/
def Parsing (stream : List UInt8) (c : Client) (items : List Item) : Prop :=
  c.pendingClose = false → c.inbox.Valid ∧ ∃ before, stream = before ++ c.inbox.received ++
    bytes items

section Turns

variable {stream : List UInt8} {c : Client} {items : List Item}

theorem Parsing.receive (h : Parsing stream c items) (hopen : c.pendingClose = false) {b : UInt8}
    {bs : List UInt8} {items' : List Item}
    (hrecv : recv c.inbox.remaining items = (.data b bs, items')) :
    ∃ before W, stream = before ++ W ++ bytes items' ∧ Parses W (c.inbox.receive (b :: bs)) := by
  obtain ⟨hvalid, before, hstream⟩ := h hopen
  obtain ⟨hlen, hbytes⟩ := recv_data hrecv
  refine ⟨before, c.inbox.received ++ b :: bs, ?_, hvalid.receive hlen⟩
  rw [hstream, hbytes]
  simp only [List.append_assoc, List.cons_append]

theorem Parsing.turn (h : Parsing stream c items) (hopen : c.pendingClose = false) {res : RecvRes}
    {items' : List Item} (hrecv : recv c.inbox.remaining items = (res, items')) :
    Parsing stream (c.readTurn res).2 items' := by
  unfold Client.readTurn
  cases res with
  | data b bs =>
      obtain ⟨before, W, hstream, hparses⟩ := h.receive hopen hrecv
      simp only [Inbox.turn]
      generalize c.inbox.receive (b :: bs) = turn at hparses ⊢
      cases hparses with
      | again valid received | wait valid received =>
          exact fun _ => ⟨valid, before, by rw [received, hstream]⟩
      | close header bad => exact fun hclose => by cases hclose
      | @frame i ok stage bytesRead lengthOk frame checksum =>
          -- the parser is at the header of the next frame
          have hnext : i.Valid ∧ ∃ before, stream = before ++ i.received ++ bytes items' := by
            refine ⟨by simp [Inbox.Valid, stage, bytesRead, headerSize], before ++ W, ?_⟩
            simpa [Inbox.received, stage, bytesRead] using hstream
          cases ok with
          | true => exact fun _ => hnext
          | false => exact fun _ => hnext
  | eintr | eagain =>
      intro _
      rw [bytes_recv hrecv (by simp)]
      exact h hopen
  | eof | error => exact fun hclose => by cases hclose

theorem Parsing.completed (h : Parsing stream c items) (hopen : c.pendingClose = false)
    {m : MessageControl}
    (hm : completedFrame (c, (recv c.inbox.remaining items).1) = some m) :
    m.LengthOk ∧ ∃ before after, stream = before ++ m.frame ++ after := by
  cases hrecv : recv c.inbox.remaining items with
  | mk res items' =>
      rw [hrecv] at hm
      unfold completedFrame at hm
      cases res with
      | data b bs =>
          obtain ⟨before, W, hstream, hparses⟩ := h.receive hopen hrecv
          simp only [Inbox.turn] at hm
          generalize c.inbox.receive (b :: bs) = turn at hparses hm
          cases hparses with
          | again valid received | wait valid received | close header bad => cases hm
          | frame stage bytesRead lengthOk frame checksum =>
              cases hm
              exact ⟨lengthOk, before, bytes items', by rw [hstream, frame]⟩
      | _ => cases hm

theorem readTurn_counts (c : Client) (res : RecvRes) :
    (c.readTurn res).2.pendingTask = c.pendingTask + (completesSound (c, res)).toNat ∧
      (c.readTurn res).2.packetReceived =
        c.packetReceived + UInt64.ofNat (completesSound (c, res)).toNat := by
  unfold completesSound completedFrame Client.readTurn
  dsimp only
  cases hturn : c.inbox.turn res with
  | again i | wait i | close i => exact ⟨rfl, (UInt64.add_zero _).symm⟩
  | frame i ok =>
      have hok := Inbox.turn_frame hturn
      cases ok with
      | true =>
          have hsum : (getLe32 i.message.checksum 0 == calculateChecksum i.message) = true :=
            beq_iff_eq.mpr (hok.mp rfl)
          rw [Option.any_some, hsum]
          exact ⟨rfl, rfl⟩
      | false =>
          have hsum : (getLe32 i.message.checksum 0 == calculateChecksum i.message) = false :=
            beq_eq_false_iff_ne.mpr fun heq => Bool.noConfusion (hok.mpr heq)
          rw [Option.any_some, hsum]
          exact ⟨rfl, (UInt64.add_zero _).symm⟩

end Turns

/-! ### Calls -/

theorem readStage_eq (c : Client) (items : List Item) :
    readStage c items =
      ((serverReader.call c items).ret, (serverReader.call c items).state,
        (serverReader.call c items).items) :=
  serverReader_loop _ c items

theorem consumes_serverReader : serverReader.Consumes := by
  intro c res hret
  simp only [serverReader, Client.readTurn] at hret
  cases res with
  | data b bs => exact .inr ⟨b, bs, rfl⟩
  | eintr => exact .inl rfl
  | eagain => cases hret
  | eof => cases hret
  | error => cases hret

section Calls

variable {stream : List UInt8} {c : Client} {items : List Item}

/-- A call keeps the parser in the stream, and every `recv` of it is made
by a parser in the stream. -/
theorem Parsing.call (h : Parsing stream c items) :
    (∀ x ∈ callRecvs c items, ∃ items', x.1.pendingClose = false ∧ Parsing stream x.1 items' ∧
      (recv x.1.inbox.remaining items').1 = x.2) ∧
    Parsing stream (readStage c items).2.1 (readStage c items).2.2 := by
  rw [readStage_eq]
  exact Reader.loop_invariant (fun c items hc hopen => hc.turn hopen rfl) h

theorem readStage_counts (c : Client) (items : List Item) :
    (readStage c items).2.1.pendingTask =
        c.pendingTask + (callRecvs c items).countP completesSound ∧
      (readStage c items).2.1.packetReceived =
        c.packetReceived + UInt64.ofNat ((callRecvs c items).countP completesSound) := by
  have hcount : (serverReader.call c items).state.pendingTask =
      c.pendingTask + (callRecvs c items).countP completesSound :=
    Reader.loop_count (fun c res => (readTurn_counts c res).1) _ c items
  -- the two counters move together
  have htogether : ∃ n, (serverReader.call c items).state.pendingTask = c.pendingTask + n ∧
      (serverReader.call c items).state.packetReceived = c.packetReceived + UInt64.ofNat n := by
    refine (Reader.loop_invariant (I := fun (c' : Client) _ => ∃ n,
      c'.pendingTask = c.pendingTask + n ∧
        c'.packetReceived = c.packetReceived + UInt64.ofNat n) ?_ ⟨0, rfl, ?_⟩).2
    · rintro c' items' ⟨n, hn, hn'⟩ -
      obtain ⟨hpending, hreceived⟩ :=
        readTurn_counts c' (recv (serverReader.remaining c') items').1
      refine ⟨n + (completesSound (c', (recv (serverReader.remaining c') items').1)).toNat, ?_, ?_⟩
      · exact hpending.trans (by rw [hn, Nat.add_assoc])
      · exact hreceived.trans (by rw [hn', UInt64.ofNat_add, UInt64.add_assoc])
    · exact (UInt64.add_zero _).symm
  obtain ⟨n, hn, hn'⟩ := htogether
  obtain rfl : n = (callRecvs c items).countP completesSound := by omega
  rw [readStage_eq]
  exact ⟨hn, hn'⟩

end Calls

theorem Parsing.step {s s' : Conn} {l : ConnLabel} (h : Parsing s.stream s.client s.items)
    (hok : KeepsParser s l) (hs : s.step l = some s') :
    Parsing s'.stream s'.client s'.items := by
  cases l with
  | arrive item =>
      cases hs
      intro hopen
      obtain ⟨hvalid, before, hstream⟩ := h hopen
      refine ⟨hvalid, before, ?_⟩
      simp [hstream]
  | call =>
      cases hs
      exact h.call.2
  | other client =>
      cases hs
      obtain ⟨hinbox, hmark⟩ := hok
      intro hopen
      have hopen' : s.client.pendingClose = false :=
        Bool.eq_false_iff.mpr fun hclose => Bool.eq_false_iff.mp hopen (hmark hclose)
      dsimp only
      rw [hinbox]
      exact h hopen'

/-- A client that is to be closed stays one, and nothing is read from it. -/
theorem callRecvs_of_marked {c : Client} (h : c.pendingClose = true) (items : List Item) :
    callRecvs c items = [] ∧ (readStage c items).2.1 = c := by
  constructor
  · show serverReader.recvs (weight items + 1) c items = []
    simp only [Reader.recvs, serverReader, h, if_true]
  · simp only [readStage, readLoop, h, if_true]

theorem Conn.marked_step {s s' : Conn} {l : ConnLabel} (h : s.client.pendingClose = true)
    (hok : KeepsParser s l) (hs : s.step l = some s') : s'.client.pendingClose = true := by
  cases l with
  | arrive item =>
      cases hs
      exact h
  | call =>
      cases hs
      dsimp only
      rw [(callRecvs_of_marked h s.items).2]
      exact h
  | other client =>
      cases hs
      exact hok.2 h

/-- **The parser is safe.** A connection starts at a header, and its peer
sends anything. In every call of `read_stage`:

* every `recv` is made for a client that is not to be closed, asks for at
  least one byte, and stays inside the field that is being filled;
* the two counters grow by the number of frames that were completed with
  the right checksum, and such a frame stands in the stream;
* once the client is to be closed, no later call makes a `recv`;
* the bound on the number of turns of the loop is not met. -/
theorem parser_safe {c : Client} (hstage : c.inbox.stage = .readHeader)
    (hread : c.inbox.bytesRead = 0) {s : Conn}
    (h : Reachable Conn.step KeepsParser ⟨c, [], []⟩ s) :
    (∀ x ∈ callRecvs s.client s.items, x.1.pendingClose = false ∧ SafeRecv x.1.inbox ∧
      ∀ m, completedFrame x = some m → ∃ before after, s.stream = before ++ m.frame ++ after) ∧
    (readStage s.client s.items).2.1.pendingTask =
      s.client.pendingTask + (callRecvs s.client s.items).countP completesSound ∧
    (readStage s.client s.items).2.1.packetReceived = s.client.packetReceived +
      UInt64.ofNat ((callRecvs s.client s.items).countP completesSound) ∧
    (s.client.pendingClose = true → ∀ s', Reachable Conn.step KeepsParser s s' →
      callRecvs s'.client s'.items = []) ∧
    ∀ fuel, weight s.items < fuel →
      serverReader.recvs fuel s.client s.items = callRecvs s.client s.items := by
  have hinit : Parsing [] c [] := fun _ =>
    ⟨by simp [Inbox.Valid, hstage, hread, headerSize], [],
      by simp [Inbox.received, hstage, hread]⟩
  have hparsing : Parsing s.stream s.client s.items :=
    h.invariant (I := fun s => Parsing s.stream s.client s.items) hinit
      fun s l s' h hok hs => h.step hok hs
  refine ⟨fun x hx => ?_, (readStage_counts _ _).1, (readStage_counts _ _).2,
    fun hclose s' hs' => ?_, fun fuel hfuel => ?_⟩
  · obtain ⟨items', hopen, hx', hres⟩ := hparsing.call.1 x hx
    refine ⟨hopen, (hx' hopen).1.safeRecv, fun m hm => ?_⟩
    exact (hx'.completed hopen (by rw [hres]; exact hm)).2
  · have hclose' : s'.client.pendingClose = true :=
      hs'.invariant (I := fun s => s.client.pendingClose = true) hclose
        fun s l s' h hok hs => Conn.marked_step h hok hs
    exact (callRecvs_of_marked hclose' s'.items).1
  · exact consumes_serverReader.recvs_eq hfuel (Nat.lt_succ_self _)

/-- A request without a payload arrives in one piece, behind a signal. -/
def oneRequest : List ConnLabel :=
  .arrive .eintr ::
    (chunkOf (buildMessage [] Command.getStatus.code 0 7).frame).map ConnLabel.arrive

theorem parser_safe_oneRequest :
    ∃ s : Conn, Reachable Conn.step KeepsParser ⟨initClient 1 1, [], []⟩ s ∧
      (callRecvs s.client s.items).length = 3 ∧
      (∀ x ∈ callRecvs s.client s.items, SafeRecv x.1.inbox) ∧
      (readStage s.client s.items).2.1.pendingTask = 1 := by
  have hrun : (runs Conn.step ⟨initClient 1 1, [], []⟩ oneRequest).map (fun s =>
      ((callRecvs s.client s.items).length, s.client.pendingTask,
        (callRecvs s.client s.items).countP completesSound)) = some (3, 0, 1) := by
    decide +kernel
  obtain ⟨s, hs, hobs⟩ := Option.map_eq_some_iff.mp hrun
  simp only [Prod.mk.injEq] at hobs
  obtain ⟨hlength, hzero, hone⟩ := hobs
  have hreach : Reachable Conn.step KeepsParser ⟨initClient 1 1, [], []⟩ s := by
    refine Reachable.of_runs_forall .start (fun l hl s => ?_) hs
    obtain rfl | ⟨item, -, rfl⟩ := List.mem_cons.mp hl |>.imp_right List.mem_map.mp
    · trivial
    · trivial
  obtain ⟨hrecvs, hpending, -⟩ := parser_safe rfl rfl hreach
  exact ⟨s, hreach, hlength, fun x hx => (hrecvs x hx).2.1, by rw [hpending, hzero, hone]⟩

end LinuxMiniProjects.ControlPlane
