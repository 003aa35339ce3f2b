import LinuxMiniProjects.Lib.Machine
import LinuxMiniProjects.Gateway.Framing

/-!
The reader and a peer that sends anything.

Where a read of `client_read_message` goes and how much it asks for is
computed from bytes the peer has sent. What makes this safe is
`Client.Reading`: the length of a header is used only behind
`check_header`. Here this is said of every single read, over all calls of
a connection, and whatever the socket does; the reads of a call are listed
by `readsOf`.

The stream has no structure at all. That a task is pushed says that
somewhere in the stream there is a valid frame with its contents. The
server makes no call for a connection behind one that returned `-1` or
`1`, since it closes the client then.
-/

namespace LinuxMiniProjects.Gateway

open Bytes Machine

/-! ### Single reads -/

def readsOf (slot : Option ℕ) (env : ReadEnv) : ℕ → Client → Ssl → List ℕ → List Client
  | 0, _, _, _ => []
  | fuel + 1, c, ssl, headers =>
      c :: match readTurn slot env c ssl headers with
        | .again c ssl headers => readsOf slot env fuel c ssl headers
        | .ret _ => []

def callReads (clients : Clients) (i : ℕ) (env : ReadEnv) : List Client :=
  match (clients i).ssl with
  | none => []
  | some ssl =>
      readsOf (fdToSlot clients (clients i).fd maxClients) env (ssl.weight + 1) (clients i) ssl []

/-- A read that is safe: the reader is inside a header, or behind one with
a length that was checked; it asks for something, and there is room for
it. -/
structure SafeRead (c : Client) : Prop where
  place : c.stage = .readHeader ∧ c.rxLen < headerSize ∨
    c.stage = .readPayload ∧ headerSize ≤ c.rxLen ∧
      c.rxLen < headerSize + (decode32Bit c.dataReceive 8).toNat + crcSize ∧
      (decode32Bit c.dataReceive 8).toNat ≤ maxPayload
  asks_pos : 0 < c.asks
  room : c.rxLen + c.asks ≤ rxBufCap

theorem Client.Reading.safeRead {c : Client} (h : c.Reading) : SafeRead c := by
  obtain ⟨hpos, htotal⟩ := h.asks
  obtain ⟨hstage, hlen⟩ | ⟨hstage, hlen, hcheck, hshort⟩ := h
  · refine ⟨.inl ⟨hstage, hlen⟩, hpos, ?_⟩
    rcases htotal with htotal | ⟨-, hstage'⟩
    · rw [htotal]
      decide
    · rw [hstage] at hstage'
      cases hstage'
  · have hpayload : (headerOf c.received).length.toNat ≤ maxPayload :=
      ((checkHeader_eq_none_iff _).mp hcheck).2.2.1
    have hsize : frameSize c.received ≤ rxBufCap := by
      rw [frameSize, packetSize]
      unfold headerSize crcSize rxBufCap
      unfold maxPayload at hpayload
      omega
    refine ⟨.inr ⟨hstage, hlen, ?_, ?_⟩, hpos, ?_⟩
    · rw [length_received_eq hlen]
      exact hshort
    · rw [length_received_eq hlen]
      exact hpayload
    · omega

theorem readsOf_safe (slot : Option ℕ) (env : ReadEnv) (fuel : ℕ) {c : Client} {ssl : Ssl}
    (headers : List ℕ) (hc : c.Reading) :
    ∀ c' ∈ readsOf slot env fuel c ssl headers, SafeRead c' := by
  induction fuel generalizing c ssl headers with
  | zero => exact fun c' hc' => absurd hc' List.not_mem_nil
  | succ fuel ih =>
      have hturn : TurnSpec slot env c ssl headers (readTurn slot env c ssl headers) :=
        readTurn_spec ssl headers hc
      rw [readsOf, List.forall_mem_cons]
      refine ⟨hc.safeRead, ?_⟩
      split
      next c' ssl' headers' h =>
        rw [h] at hturn
        obtain ⟨D, hD⟩ := hturn
        exact ih headers' hD.reading
      next => exact fun c' hc' => absurd hc' List.not_mem_nil

/-! ### Frames in a stream -/

structure ValidFrame (W : List UInt8) : Prop where
  length : W.length = headerSize + (headerOf W).length.toNat + crcSize
  magic : (headerOf W).magic = protocolMagic
  version : (headerOf W).version = protocolVersion
  short : (headerOf W).length.toNat ≤ maxPayload
  supported : Supported (headerOf W).type
  crc : crcOf W = crcCalculate (payloadOf W)

structure Task.TakenFrom (t : Task) (W : List UInt8) : Prop where
  type : t.type = (headerOf W).type
  requestId : t.requestId = (headerOf W).requestId
  length : t.length = (headerOf W).length.toNat
  payload : t.payload = payloadOf W

theorem Reads.valid {slot : Option ℕ} {env : ReadEnv} {generation : ℕ} {W : List UInt8}
    {call : Call} {t : Task} (h : Reads slot env generation W call) (hpush : call.out = .push t) :
    ValidFrame W ∧ t.TakenFrom W := by
  cases h with
  | paused ret out reading received =>
      rw [out] at hpush
      cases hpush
  | rejected e length check out ret rewound =>
      rw [out, rejectOut] at hpush
      split at hpush <;> cases hpush
  | complete length check out ret rewound =>
      obtain ⟨hmagic, hversion, hshort, hsupported⟩ := (checkHeader_eq_none_iff _).mp check
      rw [out, frameOut] at hpush
      split at hpush
      · split at hpush <;> cases hpush
      next hcrc =>
        refine ⟨⟨length, hmagic, hversion, hshort, hsupported, not_not.mp hcrc⟩, ?_⟩
        unfold taskOut at hpush
        split at hpush
        · split at hpush
          · cases hpush
            exact ⟨rfl, rfl, rfl, rfl⟩
          · cases hpush
        · cases hpush

/-! ### A connection -/

/-- The table of clients, and whether the connection of the client at hand
is to be closed. -/
structure Conn where
  clients : Clients
  closed : Bool

inductive ConnLabel
  /-- `client_read_message` is called. -/
  | call (env : ReadEnv)
  /-- The server does something else. -/
  | other (clients : Clients)

def Conn.step (i : ℕ) (s : Conn) : ConnLabel → Option Conn
  | .call env =>
      if s.closed then none
      else
        let res := readStep i s.clients env
        some ⟨res.2, res.1.ret = -1 ∨ res.1.ret = 1⟩
  | .other clients => some { s with clients := clients }

/-- Nobody but the reader touches the buffer and the TLS object of the
client. -/
def KeepsReader (i : ℕ) (s : Conn) : ConnLabel → Prop
  | .call _ => True
  | .other clients =>
      (clients i).stage = (s.clients i).stage ∧ (clients i).rxLen = (s.clients i).rxLen ∧
        (clients i).dataReceive = (s.clients i).dataReceive ∧
        (clients i).ssl = (s.clients i).ssl

/-- The stream is what was read, what is in the buffer and what is still
to be read. -/
structure Follows (i : ℕ) (stream : List UInt8) (clients : Clients) : Prop where
  reading : (clients i).Reading
  bytes : ∃ ssl before, (clients i).ssl = some ssl ∧
    stream = before ++ (clients i).received ++ ssl.unread

theorem Client.Reading.congr {c c' : Client} (h : c.Reading) (hstage : c'.stage = c.stage)
    (hrx : c'.rxLen = c.rxLen) (hdata : c'.dataReceive = c.dataReceive) :
    c'.Reading ∧ c'.received = c.received := by
  have hreceived : c'.received = c.received := by rw [Client.received, hdata, hrx, Client.received]
  refine ⟨?_, hreceived⟩
  unfold Client.Reading
  rw [hstage, hrx, hreceived]
  exact h

theorem Follows.call {i : ℕ} {stream : List UInt8} {clients : Clients}
    (h : Follows i stream clients) (env : ReadEnv) :
    ∃ before W after, stream = before ++ W ++ after ∧
      Reads (fdToSlot clients (clients i).fd maxClients) env (clients i).generation W
        (clientReadMessage clients i env) ∧
      (clientReadMessage clients i env).client.ssl = some (clientReadMessage clients i env).ssl ∧
      (clientReadMessage clients i env).ssl.unread = after := by
  obtain ⟨hreading, ssl, before, hssl, rfl⟩ := h
  obtain ⟨D, hunread, -, hreads, -⟩ := clientReadMessage_spec env hreading hssl
  refine ⟨before, (clients i).received ++ D, (clientReadMessage clients i env).ssl.unread, ?_,
    hreads, ?_, rfl⟩
  · rw [hunread]
    simp only [List.append_assoc]
  · simp only [clientReadMessage, hssl]

/-- Behind a call the server does not close the client for, the reader is
somewhere in the stream again. -/
theorem Follows.readStep {i : ℕ} {stream : List UInt8} {clients : Clients}
    (h : Follows i stream clients) {env : ReadEnv}
    (hret : ¬ ((clientReadMessage clients i env).ret = -1 ∨
      (clientReadMessage clients i env).ret = 1)) :
    Follows i stream (Gateway.readStep i clients env).2 := by
  obtain ⟨before, W, after, hstream, hreads, hssl, hafter⟩ := h.call env
  have hfollows : ∀ before', (clientReadMessage clients i env).client.Reading →
      stream = before' ++ (clientReadMessage clients i env).client.received ++ after →
      Follows i stream (Gateway.readStep i clients env).2 := by
    intro before' hreading hbytes
    refine ⟨?_, (clientReadMessage clients i env).ssl, before', ?_, ?_⟩
    · rwa [readStep_self]
    · rwa [readStep_self]
    · rwa [readStep_self, hafter]
  cases hreads with
  | paused ret out reading received => exact hfollows before reading (received ▸ hstream)
  | rejected e length check out ret rewound =>
      have hpacket : env.packetOk = true := by
        by_contra hno
        rw [if_neg hno] at ret
        exact hret (.inl ret)
      obtain ⟨hreading, hreceived⟩ := reading_of_rewound (rewound hpacket)
      exact hfollows (before ++ W) hreading (by rw [hreceived, List.append_nil, hstream])
  | complete length check out ret rewound =>
      obtain ⟨hreading, hreceived⟩ := reading_of_rewound rewound
      exact hfollows (before ++ W) hreading (by rw [hreceived, List.append_nil, hstream])

theorem Follows.step {i : ℕ} {stream : List UInt8} {s s' : Conn} {l : ConnLabel}
    (h : s.closed = false → Follows i stream s.clients) (hok : KeepsReader i s l)
    (hs : Conn.step i s l = some s') : s'.closed = false → Follows i stream s'.clients := by
  cases l with
  | call env =>
      simp only [Conn.step] at hs
      split at hs
      · cases hs
      next hopen =>
        cases hs
        intro hret
        exact (h (eq_false_of_ne_true hopen)).readStep (of_decide_eq_false hret)
  | other clients =>
      cases hs
      intro hopen
      obtain ⟨hreading, ssl, before, hssl, hstream⟩ := h hopen
      obtain ⟨hstage, hrx, hdata, hssl'⟩ := hok
      obtain ⟨hreading', hreceived⟩ := hreading.congr hstage hrx hdata
      exact ⟨hreading', ssl, before, hssl'.trans hssl, by rw [hreceived, hstream]⟩

/-- **The reader is safe.** A connection starts at a header; its peer sends
any bytes, in any records, and the socket may have nothing, be
interrupted, closed or broken at any time. In every call that the server
makes, every read is safe; and a task that is pushed has the contents of a
valid frame, which stands in the stream. -/
theorem reader_safe {i : ℕ} {clients : Clients} {ssl : Ssl}
    (hstage : (clients i).stage = .readHeader) (hrx : (clients i).rxLen = 0)
    (hssl : (clients i).ssl = some ssl) {s : Conn}
    (h : Reachable (Conn.step i) (KeepsReader i) ⟨clients, false⟩ s) (hopen : s.closed = false)
    (env : ReadEnv) :
    (∀ c ∈ callReads s.clients i env, SafeRead c) ∧
      ∀ t, (clientReadMessage s.clients i env).out = .push t →
        ∃ before W after, ssl.unread = before ++ W ++ after ∧ ValidFrame W ∧ t.TakenFrom W := by
  have hinit : Follows i ssl.unread clients := by
    obtain ⟨hreading, hreceived⟩ := reading_of_rewound ⟨hstage, hrx⟩
    exact ⟨hreading, ssl, [], hssl, by rw [hreceived]; rfl⟩
  have hs : Follows i ssl.unread s.clients :=
    h.invariant (I := fun s => s.closed = false → Follows i ssl.unread s.clients) (fun _ => hinit)
      (fun _ _ _ ih hok hstep => Follows.step ih hok hstep) hopen
  constructor
  · unfold callReads
    split
    · exact fun c hc => absurd hc List.not_mem_nil
    · exact readsOf_safe _ env _ [] hs.reading
  · intro t ht
    obtain ⟨before, W, after, hstream, hreads, -⟩ := hs.call env
    exact ⟨before, W, after, hstream, hreads.valid ht⟩

def zerosFirst : Ssl :=
  ⟨[], recordOf (List.replicate 16 0) ++ [.eintr] ++ recordOf (packet msgStatus 1 []), 0⟩

def plentyEnv : ReadEnv := ⟨0, 0, true, true⟩

/-- The zeros are rejected, and the next call pushes the request. -/
theorem reader_safe_zerosFirst :
    ∃ s t, Reachable (Conn.step 0) (KeepsReader 0) ⟨oneClient zerosFirst, false⟩ s ∧
      (clientReadMessage s.clients 0 plentyEnv).out = .push t ∧
      (∀ c ∈ callReads s.clients 0 plentyEnv, SafeRead c) ∧
      ∃ before W after, zerosFirst.unread = before ++ W ++ after ∧ ValidFrame W ∧
        t.TakenFrom W := by
  let s : Conn := ⟨(readStep 0 (oneClient zerosFirst) plentyEnv).2, false⟩
  have hstep : Conn.step 0 ⟨oneClient zerosFirst, false⟩ (.call plentyEnv) = some s := by
    have hret : ¬ ((readStep 0 (oneClient zerosFirst) plentyEnv).1.ret = -1 ∨
        (readStep 0 (oneClient zerosFirst) plentyEnv).1.ret = 1) := by decide +kernel
    simp only [Conn.step, decide_eq_false hret]
    rfl
  have hok : KeepsReader 0 ⟨oneClient zerosFirst, false⟩ (.call plentyEnv) := trivial
  have hreach : Reachable (Conn.step 0) (KeepsReader 0) ⟨oneClient zerosFirst, false⟩ s :=
    .step .start hok hstep
  have hpush : (clientReadMessage s.clients 0 plentyEnv).out =
      .push ⟨0, 1, msgStatus, 1, [], requestTimeoutMs, 0⟩ := by decide +kernel
  obtain ⟨hreads, hvalid⟩ := reader_safe rfl rfl rfl hreach rfl plentyEnv
  exact ⟨s, _, hreach, hpush, hreads, hvalid _ hpush⟩

end LinuxMiniProjects.Gateway
