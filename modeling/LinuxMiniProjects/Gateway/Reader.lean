import LinuxMiniProjects.Gateway.Client

/-!
Reading requests (`client_read_message` in `server.c`).

The reader is a state machine that survives its own return: `stage` and
`rx_len` say where in a frame it stopped, and the next call goes on from
there. One call reads until a frame is complete, a header is rejected or
the socket has nothing more; it never starts on a second frame.

`Reads` is the specification of one call, in terms of bytes. The bytes
the client has buffered, followed by the bytes the call takes off the
transport, are a word `W`; when the call returns `3` the word is an
incomplete frame and is buffered, and when it returns `0` or `2` the word
is a complete frame, or a header that was rejected, and the buffer is
empty. Everything said later about streams of frames is derived from
`readLoop_spec` and never looks at the loop again.
-/

namespace LinuxMiniProjects.Gateway

open Bytes

/-! ### The function -/

/-- What a call hands on: a task to `push`, or an error packet to
`enqueue_message`. -/
inductive ReaderOut
  | nothing
  | push (t : Task)
  | packet (bs : List UInt8)
  deriving DecidableEq

/-- The surroundings of a call: the clock as `build_task` and as the
reader itself see it, and whether `malloc` succeeds for the task and for
the error packet. -/
structure ReadEnv where
  now : ℕ
  nowActive : ℕ
  taskOk : Bool
  packetOk : Bool

/-- The result of a call. `headers` lists the positions in the stream of
the headers that were decoded. -/
structure Call where
  ret : ℤ
  client : Client
  ssl : Ssl
  out : ReaderOut
  headers : List ℕ

inductive ReadTurn
  | again (client : Client) (ssl : Ssl) (headers : List ℕ)
  | ret (call : Call)

/-- `n` bytes have arrived behind `rx_len`. -/
def Client.receive (c : Client) (bs : List UInt8) : Client :=
  { c with dataReceive := store c.dataReceive c.rxLen bs, rxLen := c.rxLen + bs.length }

def Client.rewind (c : Client) : Client := { c with stage := .readHeader, rxLen := 0 }

def readFailed (c : Client) (ssl : Ssl) (headers : List ℕ) : Errno → ReadTurn
  | .eintr => .again c ssl headers
  | .eagain => .ret ⟨3, c, ssl, .nothing, headers⟩
  | .other => .ret ⟨-1, c, ssl, .nothing, headers⟩

def headerComplete (env : ReadEnv) (c : Client) (ssl : Ssl) (headers : List ℕ) : ReadTurn :=
  let header := decodeHeader c.dataReceive
  let headers := headers ++ [ssl.pos - headerSize]
  match checkHeader header with
  | some e =>
      if env.packetOk then
        .ret ⟨2, c.rewind, ssl, .packet (buildErrorPacket header.requestId e), headers⟩
      else .ret ⟨-1, c, ssl, .nothing, headers⟩
  | none => .again { c with stage := .readPayload } ssl headers

def crcFailed (env : ReadEnv) (c : Client) (ssl : Ssl) (headers : List ℕ) : Call :=
  let requestId := decode32Bit c.dataReceive 12
  ⟨2, c.rewind, ssl,
    if env.packetOk then .packet (buildErrorPacket requestId .crcMismatch) else .nothing, headers⟩

/-- A frame is accepted. A client that is not found in the table, or a
failed allocation, drops it. -/
def frameAccepted (slot : Option ℕ) (env : ReadEnv) (c : Client) (ssl : Ssl)
    (headers : List ℕ) : Call :=
  ⟨0, { c.rewind with lastActiveMs := env.nowActive }, ssl,
    match slot with
    | some slot =>
        if env.taskOk then .push (buildTask c (decodeHeader c.dataReceive) slot env.now)
        else .nothing
    | none => .nothing,
    headers⟩

def frameComplete (slot : Option ℕ) (env : ReadEnv) (c : Client) (ssl : Ssl)
    (headers : List ℕ) : Call :=
  let length := (decode32Bit c.dataReceive 8).toNat
  let crcRev := decode32Bit c.dataReceive (headerSize + length)
  let crcCal := crcCalculate (slice c.dataReceive headerSize length)
  if crcRev ≠ crcCal then crcFailed env c ssl headers else frameAccepted slot env c ssl headers

@[simp] theorem frameComplete_ssl (slot : Option ℕ) (env : ReadEnv) (c : Client) (ssl : Ssl)
    (headers : List ℕ) : (frameComplete slot env c ssl headers).ssl = ssl := by
  simp only [frameComplete]
  split <;> rfl

@[simp] theorem frameComplete_headers (slot : Option ℕ) (env : ReadEnv) (c : Client) (ssl : Ssl)
    (headers : List ℕ) : (frameComplete slot env c ssl headers).headers = headers := by
  simp only [frameComplete]
  split <;> rfl

/-- A turn in the stage `READ_HEADER`. -/
def headerTurn (env : ReadEnv) (c : Client) (ssl : Ssl) (headers : List ℕ) : ReadTurn :=
  match sslRead ssl (headerSize - c.rxLen) with
  | (.err e, ssl) => readFailed c ssl headers e
  | (.data bs, ssl) =>
      if bs = [] then .ret ⟨1, { c with alive := false }, ssl, .nothing, headers⟩
      else
        let c := c.receive bs
        if c.rxLen < headerSize then .again c ssl headers
        else headerComplete env c ssl headers

/-- The number of bytes still missing, as `READ_PAYLOAD` computes it. -/
def payloadRemain (c : Client) : ℕ :=
  (decode32Bit c.dataReceive 8 + UInt32.ofNat headerSize + UInt32.ofNat crcSize).toNat - c.rxLen

/-- A turn in the stage `READ_PAYLOAD`. -/
def payloadTurn (slot : Option ℕ) (env : ReadEnv) (c : Client) (ssl : Ssl)
    (headers : List ℕ) : ReadTurn :=
  match sslRead ssl (payloadRemain c) with
  | (.err e, ssl) => readFailed c ssl headers e
  | (.data bs, ssl) =>
      if bs = [] then .ret ⟨1, { c with alive := false }, ssl, .nothing, headers⟩
      else
        let totalNeeded := (decode32Bit c.dataReceive 8).toNat + headerSize + crcSize
        let c := c.receive bs
        if c.rxLen < totalNeeded then .again c ssl headers
        else .ret (frameComplete slot env c ssl headers)

def readTurn (slot : Option ℕ) (env : ReadEnv) (c : Client) (ssl : Ssl)
    (headers : List ℕ) : ReadTurn :=
  match c.stage with
  | .readHeader => headerTurn env c ssl headers
  | .readPayload => payloadTurn slot env c ssl headers
  | .readCrc => .ret ⟨-1, c, ssl, .nothing, headers⟩

/-- The loop. Every turn that goes on has taken something off the
transport, so its weight bounds the number of turns. -/
def readLoop (slot : Option ℕ) (env : ReadEnv) : ℕ → Client → Ssl → List ℕ → Call
  | 0, c, ssl, headers => ⟨3, c, ssl, .nothing, headers⟩
  | fuel + 1, c, ssl, headers =>
      match readTurn slot env c ssl headers with
      | .again c ssl headers => readLoop slot env fuel c ssl headers
      | .ret call => call

/-- `client_read_message` for the client at slot `i`, up to what it hands
to `push` and `enqueue_message`. `SSL_read` fails on a null object. -/
def clientReadMessage (clients : Clients) (i : ℕ) (env : ReadEnv) : Call :=
  match (clients i).ssl with
  | none => ⟨-1, clients i, ⟨[], [], 0⟩, .nothing, []⟩
  | some ssl =>
      let slot := fdToSlot clients (clients i).fd maxClients
      let call := readLoop slot env (ssl.weight + 1) (clients i) ssl []
      { call with client := { call.client with ssl := some call.ssl } }

/-! ### The transport -/

theorem sslRead_data {ssl ssl' : Ssl} {num : ℕ} {bs : List UInt8}
    (h : sslRead ssl num = (.data bs, ssl')) (hbs : bs ≠ []) :
    bs.length ≤ num ∧ ssl.unread = bs ++ ssl'.unread ∧ ssl'.pos = ssl.pos + bs.length ∧
      ssl'.weight < ssl.weight := by
  have hgive : ∀ (ssl : Ssl) b (bs₀ : List UInt8) k,
      ssl.give (b :: bs₀) k num = (.data bs, ssl') →
      bs.length ≤ num ∧ b :: bs₀ = bs ++ ssl'.pending ∧ ssl'.kernel = k ∧
        ssl'.pos = ssl.pos + bs.length ∧ ssl'.pending.length + bs.length = bs₀.length + 1 := by
    intro ssl b bs₀ k hg
    simp only [Ssl.give, Prod.mk.injEq, ReadRes.data.injEq] at hg
    obtain ⟨rfl, rfl⟩ := hg
    refine ⟨by simp, (List.take_append_drop num (b :: bs₀)).symm, rfl, rfl, ?_⟩
    have := congrArg List.length (List.take_append_drop num (b :: bs₀))
    simp only [List.length_append, List.length_cons] at this
    dsimp only
    omega
  have hpos : 0 < bs.length := List.length_pos_of_ne_nil hbs
  cases ssl using Ssl.readCases with
  | buffered b bs₀ kernel pos =>
      obtain ⟨h₁, h₂, h₃, h₄, h₅⟩ := hgive _ b bs₀ kernel h
      refine ⟨h₁, ?_, h₄, ?_⟩
      · simp only [Ssl.unread, h₂, h₃, List.append_assoc]
      · simp only [Ssl.weight, h₃, List.length_cons]
        omega
  | record b bs₀ kernel pos =>
      obtain ⟨h₁, h₂, h₃, h₄, h₅⟩ := hgive _ b bs₀ kernel h
      refine ⟨h₁, ?_, h₄, ?_⟩
      · simp only [Ssl.unread, List.nil_append, List.flatMap_cons, SockItem.bytes, h₂, h₃,
          List.append_assoc]
      · simp only [Ssl.weight, h₃, List.map_cons, List.sum_cons, SockItem.bytes,
          List.length_cons, List.length_nil]
        omega
  | eof kernel pos =>
      simp only [sslRead, Prod.mk.injEq, ReadRes.data.injEq] at h
      exact absurd h.1.symm hbs
  | _ => simp [sslRead] at h

/-- A read that fails takes no bytes, and something else unless the
transport is empty or broken. -/
theorem sslRead_err {ssl ssl' : Ssl} {num : ℕ} {e : Errno}
    (h : sslRead ssl num = (.err e, ssl')) :
    ssl'.unread = ssl.unread ∧ ssl'.pos = ssl.pos ∧ ssl.pending = [] ∧ ssl'.pending = [] ∧
      (ssl'.weight < ssl.weight ∨ e = .eagain ∧ ssl' = ssl ∧ ssl.kernel = [] ∨
        e = .other ∧ .error ∈ ssl'.kernel) ∧
      (e = .other → .error ∈ ssl'.kernel) := by
  cases ssl using Ssl.readCases with
  | buffered b bs₀ kernel pos => simp [sslRead, Ssl.give] at h
  | record b bs₀ kernel pos => simp [sslRead, Ssl.give] at h
  | eof kernel pos => simp [sslRead] at h
  | empty pos | error kernel pos =>
      simp only [sslRead, Prod.mk.injEq, ReadRes.err.injEq] at h
      obtain ⟨rfl, rfl⟩ := h
      simp
  | eintr kernel pos | eagain kernel pos =>
      simp only [sslRead, Prod.mk.injEq, ReadRes.err.injEq] at h
      obtain ⟨rfl, rfl⟩ := h
      simp [Ssl.unread, Ssl.weight, SockItem.bytes]

theorem sslRead_nil {ssl ssl' : Ssl} {num : ℕ} (hnum : 0 < num)
    (h : sslRead ssl num = (.data [], ssl')) : ssl' = ssl ∧ .eof ∈ ssl.kernel := by
  obtain ⟨num, rfl⟩ := Nat.exists_eq_succ_of_ne_zero hnum.ne'
  cases ssl using Ssl.readCases with
  | buffered b bs₀ kernel pos => simp [sslRead, Ssl.give] at h
  | record b bs₀ kernel pos => simp [sslRead, Ssl.give] at h
  | eof kernel pos =>
      simp only [sslRead, Prod.mk.injEq] at h
      exact ⟨h.2.symm, by simp⟩
  | _ => simp [sslRead] at h

theorem sslRead_kernel (ssl : Ssl) (num : ℕ) : (sslRead ssl num).2.kernel <:+ ssl.kernel := by
  cases ssl using Ssl.readCases with
  | buffered b bs kernel pos => exact List.suffix_refl kernel
  | empty pos => exact List.suffix_refl []
  | record b bs kernel pos | eintr kernel pos | eagain kernel pos => exact List.suffix_cons _ kernel
  | eof kernel pos => exact List.suffix_refl _
  | error kernel pos => exact List.suffix_refl _

/-! ### Words

The bytes of a frame as a list, and what the reader decodes from them. -/

def headerOf (W : List UInt8) : HeaderPacket := decodeHeader (ofList W)

def frameSize (W : List UInt8) : ℕ := packetSize (headerOf W).length.toNat

def payloadOf (W : List UInt8) : List UInt8 :=
  (W.drop headerSize).take (headerOf W).length.toNat

def crcOf (W : List UInt8) : UInt32 :=
  decode32Bit (ofList W) (headerSize + (headerOf W).length.toNat)

/-- The task `build_task` makes from a complete frame. -/
def taskOf (generation : ℕ) (W : List UInt8) (slot now : ℕ) : Task where
  slot := slot
  generation := generation
  type := (headerOf W).type
  requestId := (headerOf W).requestId
  timeoutMs := now + requestTimeoutMs
  length := (headerOf W).length.toNat
  payload := payloadOf W

def Client.received (c : Client) : List UInt8 := slice c.dataReceive 0 c.rxLen

@[simp] theorem length_received (c : Client) : c.received.length = c.rxLen := by
  simp [Client.received]

@[simp] theorem received_receive (c : Client) (bs : List UInt8) :
    (c.receive bs).received = c.received ++ bs :=
  slice_store_append c.dataReceive c.rxLen bs

theorem decodeHeader_received {c : Client} (h : headerSize ≤ c.rxLen) :
    decodeHeader c.dataReceive = headerOf c.received :=
  decodeHeader_congr fun _ hi => (ofList_slice _ (lt_of_lt_of_le hi h)).symm

theorem length_received_eq {c : Client} (h : headerSize ≤ c.rxLen) :
    decode32Bit c.dataReceive 8 = (headerOf c.received).length :=
  congrArg HeaderPacket.length (decodeHeader_received h)

theorem headerOf_append {W : List UInt8} (h : headerSize ≤ W.length) (V : List UInt8) :
    headerOf (W ++ V) = headerOf W :=
  decodeHeader_congr fun i hi => by
    simp [ofList, List.getElem?_append_left (lt_of_lt_of_le hi h)]

theorem slice_payload {c : Client} {n : ℕ} (h : headerSize + n ≤ c.rxLen) :
    slice c.dataReceive headerSize n = (c.received.drop headerSize).take n :=
  slice_eq_take_drop c.dataReceive h

theorem decode32Bit_crc {c : Client} {n : ℕ} (h : headerSize + n + crcSize ≤ c.rxLen) :
    decode32Bit c.dataReceive (headerSize + n) =
      decode32Bit (ofList c.received) (headerSize + n) := by
  have hb : ∀ i, i < 4 → ofList c.received (headerSize + n + i) =
      c.dataReceive (headerSize + n + i) := fun i hi =>
    ofList_slice _ (by simp only [crcSize] at h; omega)
  simp only [decode32Bit]
  rw [← hb 1 (by decide), ← hb 2 (by decide), ← hb 3 (by decide)]
  exact congrArg (fun b => word32 b _ _ _) (hb 0 (by decide)).symm

/-! ### One call -/

/-- Where the reader can be when it is called: inside a header, or behind
a header that was accepted and before the end of its frame. -/
def Client.Reading (c : Client) : Prop :=
  c.stage = .readHeader ∧ c.rxLen < headerSize ∨
    c.stage = .readPayload ∧ headerSize ≤ c.rxLen ∧ checkHeader (headerOf c.received) = none ∧
      c.rxLen < frameSize c.received

def rejectOut (env : ReadEnv) (W : List UInt8) (e : ErrCode) : ReaderOut :=
  if env.packetOk then .packet (buildErrorPacket (headerOf W).requestId e) else .nothing

def taskOut (slot : Option ℕ) (env : ReadEnv) (generation : ℕ) (W : List UInt8) : ReaderOut :=
  match slot with
  | some slot => if env.taskOk then .push (taskOf generation W slot env.now) else .nothing
  | none => .nothing

def frameOut (slot : Option ℕ) (env : ReadEnv) (generation : ℕ) (W : List UInt8) : ReaderOut :=
  if crcOf W ≠ crcCalculate (payloadOf W) then
    if env.packetOk then .packet (buildErrorPacket (headerOf W).requestId .crcMismatch)
    else .nothing
  else taskOut slot env generation W

/-- What a call that has the bytes `W` in hand when it returns does with
them. -/
inductive Reads (slot : Option ℕ) (env : ReadEnv) (generation : ℕ) (W : List UInt8)
    (call : Call) : Prop
  /-- The word is not complete and stays in the buffer. -/
  | paused (ret : call.ret = 3 ∧ call.ssl.pending = [] ∨ call.ret = 1 ∧ .eof ∈ call.ssl.kernel ∨
        call.ret = -1 ∧ .error ∈ call.ssl.kernel)
      (out : call.out = .nothing) (reading : call.client.Reading)
      (received : call.client.received = W)
  /-- The word is a header that is rejected. -/
  | rejected (e : ErrCode) (length : W.length = headerSize)
      (check : checkHeader (headerOf W) = some e) (out : call.out = rejectOut env W e)
      (ret : call.ret = if env.packetOk then 2 else -1)
      (rewound : env.packetOk = true → call.client.stage = .readHeader ∧ call.client.rxLen = 0)
  /-- The word is a complete frame. -/
  | complete (length : W.length = frameSize W) (check : checkHeader (headerOf W) = none)
      (out : call.out = frameOut slot env generation W)
      (ret : call.ret = if crcOf W ≠ crcCalculate (payloadOf W) then 2 else 0)
      (rewound : call.client.stage = .readHeader ∧ call.client.rxLen = 0)

/-- The positions at which headers have been decoded once the word `W`
has been read. -/
def headersOf (c : Client) (ssl : Ssl) (W : List UInt8) : List ℕ :=
  if c.stage = .readHeader ∧ headerSize ≤ W.length then [ssl.pos - c.rxLen] else []

/-- A call takes the bytes `D` off the transport. It makes progress unless
the transport is empty or closed. -/
structure ReadsFrom (slot : Option ℕ) (env : ReadEnv) (c : Client) (ssl : Ssl)
    (headers : List ℕ) (D : List UInt8) (call : Call) : Prop where
  unread : ssl.unread = D ++ call.ssl.unread
  pos : call.ssl.pos = ssl.pos + D.length
  reads : Reads slot env c.generation (c.received ++ D) call
  headers : call.headers = headers ++ headersOf c ssl (c.received ++ D)
  progress : call.ssl.weight < ssl.weight ∨ call.ret = 3 ∧ call.ssl.unread = [] ∨
    call.ret = 1 ∧ .eof ∈ call.ssl.kernel ∨ call.ret = -1 ∧ .error ∈ call.ssl.kernel

/-- A turn that goes on has moved the bytes `D` from the transport to the
buffer. -/
structure Took (c : Client) (ssl : Ssl) (headers : List ℕ) (D : List UInt8) (c' : Client)
    (ssl' : Ssl) (headers' : List ℕ) : Prop where
  unread : ssl.unread = D ++ ssl'.unread
  pos : ssl'.pos = ssl.pos + D.length
  received : c'.received = c.received ++ D
  generation : c'.generation = c.generation
  reading : c'.Reading
  stage : c.stage = .readPayload → c'.stage = .readPayload
  headers : headers' = headers ++
    if c.stage = .readHeader ∧ c'.stage = .readPayload then [ssl.pos - c.rxLen] else []
  progress : ssl'.weight < ssl.weight

def TurnSpec (slot : Option ℕ) (env : ReadEnv) (c : Client) (ssl : Ssl) (headers : List ℕ) :
    ReadTurn → Prop
  | .again c' ssl' headers' => ∃ D, Took c ssl headers D c' ssl' headers'
  | .ret call => ∃ D, ReadsFrom slot env c ssl headers D call

theorem Client.Reading.headersOf_received {c : Client} (hc : c.Reading) (ssl : Ssl) :
    headersOf c ssl c.received = [] := by
  refine if_neg fun ⟨hstage, hlen⟩ => ?_
  obtain ⟨-, h⟩ | ⟨h, -⟩ := hc
  · rw [length_received] at hlen
    omega
  · rw [h] at hstage
    cases hstage

theorem readFailed_spec {slot : Option ℕ} {env : ReadEnv} {c : Client} {ssl ssl' : Ssl}
    {headers : List ℕ} {num : ℕ} {e : Errno} (hc : c.Reading)
    (h : sslRead ssl num = (.err e, ssl')) :
    TurnSpec slot env c ssl headers (readFailed c ssl' headers e) := by
  obtain ⟨hunread, hpos, -, hpending, hprogress, herror⟩ := sslRead_err h
  have hret : ∀ ret : ℤ,
      (ret = 3 ∧ ssl'.pending = [] ∨ ret = 1 ∧ .eof ∈ ssl'.kernel ∨
        ret = -1 ∧ .error ∈ ssl'.kernel) →
      (ssl'.weight < ssl.weight ∨ ret = 3 ∧ ssl'.unread = [] ∨ ret = 1 ∧ .eof ∈ ssl'.kernel ∨
        ret = -1 ∧ .error ∈ ssl'.kernel) →
      TurnSpec slot env c ssl headers (.ret ⟨ret, c, ssl', .nothing, headers⟩) := by
    intro ret hr hp
    refine ⟨[], by simp [hunread], by simp [hpos], ?_, ?_, hp⟩
    · rw [List.append_nil]
      exact .paused hr rfl hc rfl
    · rw [List.append_nil, hc.headersOf_received, List.append_nil]
  cases e with
  | eintr =>
      refine ⟨[], by simp [hunread], by simp [hpos], by simp, rfl, hc, id, ?_, ?_⟩
      · have : ¬ (c.stage = .readHeader ∧ c.stage = .readPayload) := by
          rintro ⟨h₁, h₂⟩
          rw [h₁] at h₂
          cases h₂
        rw [if_neg this, List.append_nil]
      · simpa using hprogress
  | eagain =>
      refine hret 3 (.inl ⟨rfl, hpending⟩) ?_
      obtain hlt | ⟨-, hsame, hkernel⟩ | ⟨h, -⟩ := hprogress
      · exact .inl hlt
      · refine .inr (.inl ⟨rfl, ?_⟩)
        rw [Ssl.unread, hpending, hsame, hkernel]
        rfl
      · cases h
  | other =>
      have hbroken := herror rfl
      exact hret (-1) (.inr (.inr ⟨rfl, hbroken⟩)) (.inr (.inr (.inr ⟨rfl, hbroken⟩)))

theorem readClosed_spec {slot : Option ℕ} {env : ReadEnv} {c : Client} {ssl ssl' : Ssl}
    {headers : List ℕ} {num : ℕ} (hc : c.Reading) (hnum : 0 < num)
    (h : sslRead ssl num = (.data [], ssl')) :
    TurnSpec slot env c ssl headers
      (.ret ⟨1, { c with alive := false }, ssl', .nothing, headers⟩) := by
  obtain ⟨rfl, heof⟩ := sslRead_nil hnum h
  refine ⟨[], rfl, rfl, ?_, ?_, .inr (.inr (.inl ⟨rfl, heof⟩))⟩
  · rw [List.append_nil]
    exact .paused (.inr (.inl ⟨rfl, heof⟩)) rfl hc rfl
  · rw [List.append_nil, hc.headersOf_received, List.append_nil]

/-- A header is complete, and the bytes `bs` were the last of it. -/
theorem headerComplete_spec {slot : Option ℕ} {env : ReadEnv} {c : Client} {ssl ssl' : Ssl}
    {headers : List ℕ} {bs : List UInt8} (hstage : c.stage = .readHeader)
    (hlen : c.rxLen + bs.length = headerSize) (hunread : ssl.unread = bs ++ ssl'.unread)
    (hpos : ssl'.pos = ssl.pos + bs.length) (hprogress : ssl'.weight < ssl.weight) :
    TurnSpec slot env c ssl headers (headerComplete env (c.receive bs) ssl' headers) := by
  have hlen' : (c.receive bs).rxLen = headerSize := hlen
  have hW : (c.received ++ bs).length = headerSize := by simpa using hlen
  have hstart : ssl'.pos - headerSize = ssl.pos - c.rxLen := by omega
  rw [headerComplete, decodeHeader_received hlen'.ge, received_receive, hstart]
  cases hcheck : checkHeader (headerOf (c.received ++ bs)) with
  | none =>
      refine ⟨bs, hunread, hpos, received_receive c bs, rfl, .inr ⟨rfl, hlen'.ge, ?_, ?_⟩,
        fun _ => rfl, ?_, hprogress⟩
      · exact (received_receive c bs).symm ▸ hcheck
      · change (c.receive bs).rxLen < _
        rw [hlen']
        unfold frameSize packetSize crcSize
        omega
      · rw [if_pos ⟨hstage, rfl⟩]
  | some e =>
      have hheaders : headersOf c ssl (c.received ++ bs) = [ssl.pos - c.rxLen] :=
        if_pos ⟨hstage, hW.ge⟩
      cases hok : env.packetOk with
      | false =>
          refine ⟨bs, hunread, hpos, ?_, by simp [hheaders], .inl hprogress⟩
          exact .rejected e hW hcheck (by simp [rejectOut, hok]) (by simp [hok]) (by simp [hok])
      | true =>
          refine ⟨bs, hunread, hpos, ?_, by simp [hheaders], .inl hprogress⟩
          exact .rejected e hW hcheck (by simp [rejectOut, hok]) (by simp [hok])
            fun _ => ⟨rfl, rfl⟩

theorem headerTurn_spec {slot : Option ℕ} {env : ReadEnv} {c : Client} (ssl : Ssl)
    (headers : List ℕ) (hstage : c.stage = .readHeader) (hlen : c.rxLen < headerSize) :
    TurnSpec slot env c ssl headers (headerTurn env c ssl headers) := by
  have hc : c.Reading := .inl ⟨hstage, hlen⟩
  unfold headerTurn
  split
  next e ssl' h => exact readFailed_spec hc h
  next bs ssl' h =>
    split
    next hbs =>
      subst hbs
      exact readClosed_spec hc (by omega) h
    next hbs =>
      obtain ⟨hle, hunread, hpos, hprogress⟩ := sslRead_data h hbs
      dsimp only
      split
      next hshort =>
        refine ⟨bs, hunread, hpos, received_receive c bs, rfl, .inl ⟨hstage, hshort⟩, ?_, ?_,
          hprogress⟩
        · intro hstage'
          rw [hstage] at hstage'
          cases hstage'
        · have : ¬ (c.stage = .readHeader ∧ (c.receive bs).stage = .readPayload) := by
            simp [Client.receive, hstage]
          rw [if_neg this, List.append_nil]
      next hfull =>
        have hfull' : ¬ c.rxLen + bs.length < headerSize := hfull
        exact headerComplete_spec hstage (by omega) hunread hpos hprogress

/-- A frame is complete: what the reader finds in its buffer is what the
word says. -/
theorem frameComplete_reads (slot : Option ℕ) (env : ReadEnv) {c : Client} (ssl : Ssl)
    (headers : List ℕ) (hlen : c.rxLen = frameSize c.received)
    (hcheck : checkHeader (headerOf c.received) = none) :
    Reads slot env c.generation c.received (frameComplete slot env c ssl headers) := by
  have hsize : headerSize + (headerOf c.received).length.toNat + crcSize = c.rxLen := hlen.symm
  have hheader : headerSize ≤ c.rxLen := by omega
  have hshort : (headerOf c.received).length.toNat ≤ maxPayload :=
    ((checkHeader_eq_none_iff _).mp hcheck).2.2.1
  have hpayload : slice c.dataReceive headerSize (headerOf c.received).length.toNat =
      payloadOf c.received := slice_payload (by omega)
  have hcrc : decode32Bit c.dataReceive (headerSize + (headerOf c.received).length.toNat) =
      crcOf c.received := decode32Bit_crc hsize.le
  have htask : ∀ slot, buildTask c (decodeHeader c.dataReceive) slot env.now =
      taskOf c.generation c.received slot env.now := by
    intro slot
    rw [decodeHeader_received hheader, buildTask, taskOf, ← hpayload]
    congr 1
    split
    next => rfl
    next hzero =>
      rw [show (headerOf c.received).length.toNat = 0 by omega, slice_zero]
  have hid : decode32Bit c.dataReceive 12 = (headerOf c.received).requestId :=
    congrArg HeaderPacket.requestId (decodeHeader_received hheader)
  simp only [frameComplete, length_received_eq hheader, hpayload, hcrc]
  split
  next hbad =>
    refine .complete (by simpa using hlen) hcheck ?_ (if_pos hbad).symm ⟨rfl, rfl⟩
    simp only [frameOut, if_pos hbad, crcFailed, hid]
  next hgood =>
    refine .complete (by simpa using hlen) hcheck ?_ (if_neg hgood).symm ⟨rfl, rfl⟩
    simp only [frameOut, if_neg hgood, taskOut, frameAccepted, htask]

theorem payloadRemain_eq {c : Client} (hlen : headerSize ≤ c.rxLen)
    (hcheck : checkHeader (headerOf c.received) = none) :
    payloadRemain c = frameSize c.received - c.rxLen := by
  have hshort : (headerOf c.received).length.toNat ≤ maxPayload :=
    ((checkHeader_eq_none_iff _).mp hcheck).2.2.1
  rw [payloadRemain, length_received_eq hlen, frameSize, packetSize, UInt32.toNat_add,
    UInt32.toNat_add]
  simp only [headerSize, crcSize, maxPayload, UInt32.toNat_ofNat', Nat.reduceMod,
    Nat.reducePow] at *
  omega

theorem payloadTurn_spec {slot : Option ℕ} {env : ReadEnv} {c : Client} (ssl : Ssl)
    (headers : List ℕ) (hstage : c.stage = .readPayload) (hlen : headerSize ≤ c.rxLen)
    (hcheck : checkHeader (headerOf c.received) = none)
    (hshort : c.rxLen < frameSize c.received) :
    TurnSpec slot env c ssl headers (payloadTurn slot env c ssl headers) := by
  have hc : c.Reading := .inr ⟨hstage, hlen, hcheck, hshort⟩
  unfold payloadTurn
  rw [payloadRemain_eq hlen hcheck]
  split
  next e ssl' h => exact readFailed_spec hc h
  next bs ssl' h =>
    split
    next hbs =>
      subst hbs
      exact readClosed_spec hc (by omega) h
    next hbs =>
      obtain ⟨hle, hunread, hpos, hprogress⟩ := sslRead_data h hbs
      have hheader : headerOf (c.received ++ bs) = headerOf c.received :=
        headerOf_append (by simpa using hlen) bs
      have hsize : frameSize (c.received ++ bs) = frameSize c.received := by
        rw [frameSize, hheader, frameSize]
      have hstage' : c.stage ≠ .readHeader := by simp [hstage]
      have htotal : (decode32Bit c.dataReceive 8).toNat + headerSize + crcSize =
          frameSize c.received := by
        rw [length_received_eq hlen, frameSize, packetSize]
        omega
      dsimp only
      rw [htotal]
      split
      next hmore =>
        refine ⟨bs, hunread, hpos, received_receive c bs, rfl, .inr ⟨hstage, ?_, ?_, ?_⟩,
          fun _ => hstage, ?_, hprogress⟩
        · exact Nat.le_add_right_of_le hlen
        · rw [received_receive, hheader, hcheck]
        · rwa [received_receive, hsize]
        · rw [if_neg fun h => hstage' h.1, List.append_nil]
      next hfull =>
        have hrx : (c.receive bs).rxLen = c.rxLen + bs.length := rfl
        have hdone : (c.receive bs).rxLen = frameSize (c.receive bs).received := by
          rw [received_receive, hsize]
          omega
        refine ⟨bs, ?_⟩
        have hreads := frameComplete_reads slot env ssl' headers hdone
          (by rw [received_receive, hheader, hcheck])
        rw [received_receive] at hreads
        refine ⟨?_, ?_, hreads, ?_, .inl ?_⟩
        · rwa [frameComplete_ssl]
        · rwa [frameComplete_ssl]
        · rw [frameComplete_headers, headersOf, if_neg fun h => hstage' h.1, List.append_nil]
        · rwa [frameComplete_ssl]

theorem readTurn_spec {slot : Option ℕ} {env : ReadEnv} {c : Client} (ssl : Ssl)
    (headers : List ℕ) (hc : c.Reading) :
    TurnSpec slot env c ssl headers (readTurn slot env c ssl headers) := by
  unfold readTurn
  obtain ⟨hstage, hlen⟩ | ⟨hstage, hlen, hcheck, hshort⟩ := hc
  · rw [hstage]
    exact headerTurn_spec ssl headers hstage hlen
  · rw [hstage]
    exact payloadTurn_spec ssl headers hstage hlen hcheck hshort

theorem Took.rxLen_eq {c c' : Client} {ssl ssl' : Ssl} {headers headers' : List ℕ}
    {D : List UInt8} (ht : Took c ssl headers D c' ssl' headers') :
    c'.rxLen = c.rxLen + D.length := by
  simpa using congrArg List.length ht.received

/-- The header of a word is decoded in this turn, or in a later one, or
was decoded before. -/
theorem Took.headersOf_eq {c c' : Client} {ssl ssl' : Ssl} {headers headers' : List ℕ}
    {D : List UInt8} (ht : Took c ssl headers D c' ssl' headers') (hc : c.Reading)
    (D' : List UInt8) :
    (if c.stage = .readHeader ∧ c'.stage = .readPayload then [ssl.pos - c.rxLen] else []) ++
        headersOf c' ssl' (c.received ++ D ++ D') =
      headersOf c ssl (c.received ++ D ++ D') := by
  have hrx := ht.rxLen_eq
  obtain ⟨hstage, -⟩ | ⟨hstage, -⟩ := hc
  · obtain ⟨hstage', -⟩ | ⟨hstage', hlen', -⟩ := ht.reading
    · have hstart : ssl'.pos - c'.rxLen = ssl.pos - c.rxLen := by
        rw [ht.pos, hrx]
        omega
      simp [headersOf, hstage, hstage', hstart]
    · simp only [headersOf, hstage, hstage', List.length_append, length_received]
      rw [if_pos ⟨trivial, trivial⟩, if_neg (by simp), if_pos ⟨trivial, by omega⟩]
      rfl
  · simp [headersOf, hstage, ht.stage hstage]

theorem Took.readsFrom {slot : Option ℕ} {env : ReadEnv} {c c' : Client} {ssl ssl' : Ssl}
    {headers headers' : List ℕ} {D D' : List UInt8} {call : Call}
    (hc : c.Reading) (ht : Took c ssl headers D c' ssl' headers')
    (hr : ReadsFrom slot env c' ssl' headers' D' call) :
    ReadsFrom slot env c ssl headers (D ++ D') call := by
  refine ⟨?_, ?_, ?_, ?_, ?_⟩
  · rw [ht.unread, hr.unread, List.append_assoc]
  · rw [hr.pos, ht.pos, List.length_append]
    omega
  · rw [← List.append_assoc, ← ht.received, ← ht.generation]
    exact hr.reads
  · rw [hr.headers, ht.headers, ht.received, List.append_assoc headers, ← List.append_assoc _ D]
    congr 1
    exact ht.headersOf_eq hc D'
  · exact hr.progress.imp_left fun h => h.trans ht.progress

/-- **One call.** Started anywhere in a frame, the loop returns with a
word that is incomplete, rejected or a complete frame. -/
theorem readLoop_spec (slot : Option ℕ) (env : ReadEnv) {fuel : ℕ} {c : Client} {ssl : Ssl}
    (headers : List ℕ) (hc : c.Reading) (hfuel : ssl.weight < fuel) :
    ∃ D, ReadsFrom slot env c ssl headers D (readLoop slot env fuel c ssl headers) := by
  induction fuel generalizing c ssl headers with
  | zero => omega
  | succ fuel ih =>
      have hturn : TurnSpec slot env c ssl headers (readTurn slot env c ssl headers) :=
        readTurn_spec ssl headers hc
      rw [readLoop]
      split
      next c' ssl' headers' h =>
        rw [h] at hturn
        obtain ⟨D, hD⟩ := hturn
        have hweight : ssl'.weight < fuel := hD.progress.trans_le (Nat.le_of_lt_succ hfuel)
        obtain ⟨D', hD'⟩ := ih headers' hD.reading hweight
        exact ⟨D ++ D', hD.readsFrom hc hD'⟩
      next call h =>
        rw [h] at hturn
        exact hturn

theorem clientReadMessage_spec {clients : Clients} {i : ℕ} {ssl : Ssl} (env : ReadEnv)
    (hc : (clients i).Reading) (hssl : (clients i).ssl = some ssl) :
    ∃ D, ReadsFrom (fdToSlot clients (clients i).fd maxClients) env (clients i) ssl [] D
      (clientReadMessage clients i env) := by
  obtain ⟨D, hunread, hpos, hreads, hheaders, hprogress⟩ :=
    readLoop_spec (fdToSlot clients (clients i).fd maxClients) env [] hc
      (Nat.lt_succ_self ssl.weight)
  simp only [clientReadMessage, hssl]
  refine ⟨D, hunread, hpos, ?_, hheaders, hprogress⟩
  -- the word is not affected by where the TLS object is kept
  cases hreads with
  | paused ret out reading received => exact .paused ret out reading received
  | rejected e length check out ret rewound => exact .rejected e length check out ret rewound
  | complete length check out ret rewound => exact .complete length check out ret rewound

/-! ### What a call leaves alone -/

structure Client.SameConn (c c' : Client) : Prop where
  fd : c'.fd = c.fd
  generation : c'.generation = c.generation
  rate : c'.rate = c.rate
  tail : c'.tail = c.tail
  head : c'.head = c.head
  bytesNeedToSend : c'.bytesNeedToSend = c.bytesNeedToSend
  tlsHandshakeDone : c'.tlsHandshakeDone = c.tlsHandshakeDone

theorem Client.SameConn.refl (c : Client) : c.SameConn c := ⟨rfl, rfl, rfl, rfl, rfl, rfl, rfl⟩

theorem Client.SameConn.trans {c c' c'' : Client} (h : c.SameConn c') (h' : c'.SameConn c'') :
    c.SameConn c'' :=
  ⟨h'.fd.trans h.fd, h'.generation.trans h.generation, h'.rate.trans h.rate, h'.tail.trans h.tail,
    h'.head.trans h.head, h'.bytesNeedToSend.trans h.bytesNeedToSend,
    h'.tlsHandshakeDone.trans h.tlsHandshakeDone⟩

/-- A turn keeps the connection, and the client alive unless the peer has
closed. -/
def TurnFrame (c : Client) : ReadTurn → Prop
  | .again c' _ _ => c.SameConn c' ∧ c'.alive = c.alive
  | .ret call => c.SameConn call.client ∧ (call.ret ≠ 1 → call.client.alive = c.alive)

section Frame

variable (slot : Option ℕ) (env : ReadEnv) (c : Client) (ssl : Ssl) (headers : List ℕ)

theorem readFailed_frame (e : Errno) : TurnFrame c (readFailed c ssl headers e) := by
  cases e with
  | eintr => exact ⟨.refl c, rfl⟩
  | eagain => exact ⟨.refl c, fun _ => rfl⟩
  | other => exact ⟨.refl c, fun _ => rfl⟩

theorem headerComplete_frame (bs : List UInt8) :
    TurnFrame c (headerComplete env (c.receive bs) ssl headers) := by
  simp only [headerComplete]
  have hsame : ∀ stage n buf,
      c.SameConn { c with stage := stage, rxLen := n, dataReceive := buf } :=
    fun _ _ _ => ⟨rfl, rfl, rfl, rfl, rfl, rfl, rfl⟩
  split
  next e =>
    split
    · exact ⟨hsame _ _ _, fun _ => rfl⟩
    · exact ⟨hsame _ _ _, fun _ => rfl⟩
  next => exact ⟨hsame _ _ _, rfl⟩

theorem frameComplete_frame (bs : List UInt8) :
    TurnFrame c (.ret (frameComplete slot env (c.receive bs) ssl headers)) := by
  simp only [frameComplete]
  split
  · exact ⟨⟨rfl, rfl, rfl, rfl, rfl, rfl, rfl⟩, fun _ => rfl⟩
  · exact ⟨⟨rfl, rfl, rfl, rfl, rfl, rfl, rfl⟩, fun _ => rfl⟩

theorem readTurn_frame : TurnFrame c (readTurn slot env c ssl headers) := by
  have hclosed : ∀ ssl', TurnFrame c
      (.ret ⟨1, { c with alive := false }, ssl', .nothing, headers⟩) := fun ssl' =>
    ⟨⟨rfl, rfl, rfl, rfl, rfl, rfl, rfl⟩, fun hret => absurd rfl hret⟩
  have hmore : ∀ bs ssl', TurnFrame c (.again (c.receive bs) ssl' headers) :=
    fun bs ssl' => ⟨⟨rfl, rfl, rfl, rfl, rfl, rfl, rfl⟩, rfl⟩
  rw [readTurn]
  split
  · simp only [headerTurn]
    split
    next e ssl' _ => exact readFailed_frame c ssl' headers e
    next bs ssl' _ =>
      split
      · exact hclosed ssl'
      · split
        · exact hmore bs ssl'
        · exact headerComplete_frame env c ssl' headers bs
  · simp only [payloadTurn]
    split
    next e ssl' _ => exact readFailed_frame c ssl' headers e
    next bs ssl' _ =>
      split
      · exact hclosed ssl'
      · split
        · exact hmore bs ssl'
        · exact frameComplete_frame slot env c ssl' headers bs
  · exact ⟨.refl c, fun _ => rfl⟩

theorem readLoop_frame (fuel : ℕ) :
    TurnFrame c (.ret (readLoop slot env fuel c ssl headers)) := by
  induction fuel generalizing c ssl headers with
  | zero => exact ⟨.refl c, fun _ => rfl⟩
  | succ fuel ih =>
      have hturn := readTurn_frame slot env c ssl headers
      rw [readLoop]
      split
      next c' ssl' headers' h =>
        rw [h] at hturn
        obtain ⟨hsame, halive⟩ := hturn
        obtain ⟨hsame', halive'⟩ := ih c' ssl' headers'
        exact ⟨hsame.trans hsame', fun hret => (halive' hret).trans halive⟩
      next call h =>
        rw [h] at hturn
        exact hturn

theorem clientReadMessage_frame (clients : Clients) (i : ℕ) :
    TurnFrame (clients i) (.ret (clientReadMessage clients i env)) := by
  unfold clientReadMessage
  split
  next => exact ⟨.refl _, fun _ => rfl⟩
  next ssl _ =>
    obtain ⟨hsame, halive⟩ := readLoop_frame (fdToSlot clients (clients i).fd maxClients) env
      (clients i) ssl [] (ssl.weight + 1)
    exact ⟨⟨hsame.fd, hsame.generation, hsame.rate, hsame.tail, hsame.head, hsame.bytesNeedToSend,
      hsame.tlsHandshakeDone⟩, halive⟩

end Frame

/-! ### What a call does to the transport -/

def ReadTurn.ssl : ReadTurn → Ssl
  | .again _ ssl _ => ssl
  | .ret call => call.ssl

@[simp] theorem readFailed_ssl (c : Client) (ssl : Ssl) (headers : List ℕ) (e : Errno) :
    (readFailed c ssl headers e).ssl = ssl := by
  cases e <;> rfl

@[simp] theorem headerComplete_ssl (env : ReadEnv) (c : Client) (ssl : Ssl) (headers : List ℕ) :
    (headerComplete env c ssl headers).ssl = ssl := by
  simp only [headerComplete]
  split
  · split <;> rfl
  · rfl

/-- The number of bytes a turn asks `SSL_read` for. -/
def Client.asks (c : Client) : ℕ :=
  match c.stage with
  | .readHeader => headerSize - c.rxLen
  | .readPayload => payloadRemain c
  | .readCrc => 0

theorem Client.Reading.asks {c : Client} (hc : c.Reading) :
    0 < c.asks ∧ (c.rxLen + c.asks = headerSize ∨
      c.rxLen + c.asks = frameSize c.received ∧ c.stage = .readPayload) := by
  obtain ⟨hstage, hlen⟩ | ⟨hstage, hlen, hcheck, hshort⟩ := hc
  · have hasks : c.asks = headerSize - c.rxLen := by rw [Client.asks, hstage]
    omega
  · have hasks : c.asks = frameSize c.received - c.rxLen := by
      rw [Client.asks, hstage]
      exact payloadRemain_eq hlen hcheck
    exact ⟨by omega, .inr ⟨by omega, hstage⟩⟩

theorem readTurn_ssl (slot : Option ℕ) (env : ReadEnv) {c : Client} (ssl : Ssl)
    (headers : List ℕ) (hc : c.Reading) :
    (readTurn slot env c ssl headers).ssl = (sslRead ssl c.asks).2 := by
  obtain ⟨hstage, -⟩ | ⟨hstage, -⟩ := hc
  · rw [readTurn, Client.asks, hstage]
    simp only [headerTurn]
    split
    next e ssl' h => rw [readFailed_ssl, h]
    next bs ssl' h =>
      rw [h]
      split
      · rfl
      · split
        · rfl
        · exact headerComplete_ssl env (c.receive bs) ssl' headers
  · rw [readTurn, Client.asks, hstage]
    simp only [payloadTurn]
    split
    next e ssl' h => rw [readFailed_ssl, h]
    next bs ssl' h =>
      rw [h]
      split
      · rfl
      · split
        · rfl
        · exact frameComplete_ssl slot env (c.receive bs) ssl' headers

section Keeps

variable {P : Ssl → Prop} (hP : ∀ ssl num, 0 < num → P ssl → P (sslRead ssl num).2)

include hP

theorem readLoop_keeps (slot : Option ℕ) (env : ReadEnv) (fuel : ℕ) {c : Client} {ssl : Ssl}
    (headers : List ℕ) (hc : c.Reading) (hssl : P ssl) :
    P (readLoop slot env fuel c ssl headers).ssl := by
  induction fuel generalizing c ssl headers with
  | zero => exact hssl
  | succ fuel ih =>
      have hkept := hP ssl c.asks hc.asks.1 hssl
      rw [← readTurn_ssl slot env ssl headers hc] at hkept
      have hspec : TurnSpec slot env c ssl headers (readTurn slot env c ssl headers) :=
        readTurn_spec ssl headers hc
      rw [readLoop]
      split
      next c' ssl' headers' h =>
        rw [h] at hkept hspec
        obtain ⟨D, hD⟩ := hspec
        exact ih headers' hD.reading hkept
      next call h =>
        rw [h] at hkept
        exact hkept

theorem clientReadMessage_keeps {clients : Clients} {i : ℕ} {ssl : Ssl} (env : ReadEnv)
    (hc : (clients i).Reading) (hi : (clients i).ssl = some ssl) (hssl : P ssl) :
    (clientReadMessage clients i env).client.ssl =
        some (clientReadMessage clients i env).ssl ∧
      P (clientReadMessage clients i env).ssl := by
  simp only [clientReadMessage, hi]
  exact ⟨trivial, readLoop_keeps hP (fdToSlot clients (clients i).fd maxClients) env _ [] hc hssl⟩

end Keeps

/-! ### What a call hands on -/

/-- A task was built for the slot, the generation and the header of the
client, by a call that returns `0`; an error packet comes with `2`. -/
def Call.HandsOn (slot : Option ℕ) (call : Call) : ReaderOut → Prop
  | .nothing => True
  | .push t => call.ret = 0 ∧ slot = some t.slot ∧ t.generation = call.client.generation ∧
      t.requestId = (decodeHeader call.client.dataReceive).requestId
  | .packet bs => call.ret = 2 ∧ ∃ requestId e, bs = buildErrorPacket requestId e

theorem readFailed_handsOn {slot : Option ℕ} {c : Client} {ssl : Ssl} {headers : List ℕ} {e : Errno}
    {call : Call} (h : readFailed c ssl headers e = .ret call) : call.HandsOn slot call.out := by
  cases e with
  | eintr => cases h
  | eagain => cases h; trivial
  | other => cases h; trivial

theorem headerComplete_handsOn {slot : Option ℕ} {env : ReadEnv} {c : Client} {ssl : Ssl}
    {headers : List ℕ} {call : Call} (h : headerComplete env c ssl headers = .ret call) :
    call.HandsOn slot call.out := by
  simp only [headerComplete] at h
  split at h
  next e _ =>
    split at h
    · cases h
      exact ⟨rfl, _, e, rfl⟩
    · cases h
      trivial
  next => cases h

theorem frameComplete_handsOn (slot : Option ℕ) (env : ReadEnv) (c : Client) (ssl : Ssl)
    (headers : List ℕ) :
    (frameComplete slot env c ssl headers).HandsOn slot
      (frameComplete slot env c ssl headers).out := by
  simp only [frameComplete]
  split
  · simp only [crcFailed]
    split
    · exact ⟨rfl, _, _, rfl⟩
    · trivial
  · simp only [frameAccepted]
    split
    next slot =>
      split
      · exact ⟨rfl, rfl, rfl, rfl⟩
      · trivial
    next => trivial

theorem readTurn_handsOn {slot : Option ℕ} {env : ReadEnv} {c : Client} {ssl : Ssl}
    {headers : List ℕ} {call : Call} (h : readTurn slot env c ssl headers = .ret call) :
    call.HandsOn slot call.out := by
  simp only [readTurn] at h
  split at h
  · simp only [headerTurn] at h
    split at h
    next => exact readFailed_handsOn h
    next =>
      split at h
      · cases h
        trivial
      · split at h
        · cases h
        · exact headerComplete_handsOn h
  · simp only [payloadTurn] at h
    split at h
    next => exact readFailed_handsOn h
    next =>
      split at h
      · cases h
        trivial
      · split at h
        · cases h
        · cases h
          exact frameComplete_handsOn slot env _ _ headers
  · cases h
    trivial

theorem readLoop_handsOn (slot : Option ℕ) (env : ReadEnv) (fuel : ℕ) (c : Client) (ssl : Ssl)
    (headers : List ℕ) :
    (readLoop slot env fuel c ssl headers).HandsOn slot
      (readLoop slot env fuel c ssl headers).out := by
  induction fuel generalizing c ssl headers with
  | zero => trivial
  | succ fuel ih =>
      rw [readLoop]
      split
      next c' ssl' headers' _ => exact ih c' ssl' headers'
      next call h => exact readTurn_handsOn h

theorem clientReadMessage_handsOn (clients : Clients) (i : ℕ) (env : ReadEnv) :
    (clientReadMessage clients i env).HandsOn (fdToSlot clients (clients i).fd maxClients)
      (clientReadMessage clients i env).out := by
  unfold clientReadMessage
  split
  next => trivial
  next ssl _ =>
    have h := readLoop_handsOn (fdToSlot clients (clients i).fd maxClients) env (ssl.weight + 1)
      (clients i) ssl []
    dsimp only
    generalize readLoop (fdToSlot clients (clients i).fd maxClients) env (ssl.weight + 1)
      (clients i) ssl [] = call at h ⊢
    cases hout : call.out with
    | nothing => trivial
    | push t => rwa [hout] at h
    | packet bs => rwa [hout] at h

end LinuxMiniProjects.Gateway
