import LinuxMiniProjects.Lib.Machine
import LinuxMiniProjects.Gateway.Reader

/-!
Streams of frames: what becomes of the requests a client encodes with
`packet_encode` and sends one after the other, however the bytes are cut
into records and wherever the reader runs dry.

The argument is the same for every stream. The bytes the reader has
buffered, followed by the bytes still on their way, are a stream of whole
frames; a call either leaves that so, or takes one frame off the front
and pushes its task. A header that is rejected breaks the argument: the
reader consumes the 16 bytes of the header and leaves the rest of the
frame in the stream, where it is taken for the next header.
-/

namespace LinuxMiniProjects.Gateway

open Bytes Machine

/-! ### Requests -/

structure Request where
  type : UInt16
  requestId : UInt32
  payload : List UInt8
  short : payload.length ≤ maxPayload

def Request.encode (r : Request) : List UInt8 := packet r.type r.requestId r.payload

def stream (rs : List Request) : List UInt8 := rs.flatMap Request.encode

def Request.header (r : Request) : HeaderPacket :=
  ⟨protocolMagic, protocolVersion, r.type, UInt32.ofNat r.payload.length, r.requestId⟩

structure Task.Carries (t : Task) (r : Request) : Prop where
  type : t.type = r.type
  requestId : t.requestId = r.requestId
  length : t.length = r.payload.length
  payload : t.payload = r.payload

@[simp] theorem stream_nil : stream [] = [] := rfl

@[simp] theorem stream_cons (r : Request) (rs : List Request) :
    stream (r :: rs) = r.encode ++ stream rs := rfl

@[simp] theorem stream_append (rs rs' : List Request) :
    stream (rs ++ rs') = stream rs ++ stream rs' := List.flatMap_append

theorem Request.encode_eq (r : Request) :
    r.encode = headerBytes r.type (UInt32.ofNat r.payload.length) r.requestId ++ r.payload ++
      be32 (crcCalculate r.payload) :=
  packet_eq r.type r.requestId r.short

@[simp] theorem Request.length_encode (r : Request) :
    r.encode.length = packetSize r.payload.length :=
  length_packet r.type r.requestId r.payload

theorem Request.toNat_length (r : Request) : r.header.length.toNat = r.payload.length :=
  toNat_ofNat_of_le_maxPayload r.short

theorem Request.headerSize_le_length_encode (r : Request) : headerSize ≤ r.encode.length := by
  rw [r.length_encode, packetSize]
  omega

theorem Request.headerOf_append (r : Request) (V : List UInt8) :
    headerOf (r.encode ++ V) = r.header := by
  refine decodeHeader_of_slice ?_
  have hlen : (headerBytes r.type (UInt32.ofNat r.payload.length) r.requestId).length =
      headerSize := rfl
  rw [r.encode_eq, List.append_assoc, List.append_assoc, ← hlen]
  exact slice_ofList_append [] _ _

theorem Request.frameSize_append (r : Request) (V : List UInt8) :
    frameSize (r.encode ++ V) = r.encode.length := by
  rw [frameSize, r.headerOf_append, r.toNat_length, r.length_encode]

theorem Request.headerOf_encode (r : Request) : headerOf r.encode = r.header := by
  simpa using r.headerOf_append []

theorem Request.payloadOf_encode (r : Request) : payloadOf r.encode = r.payload := by
  have hlen : (headerBytes r.type (UInt32.ofNat r.payload.length) r.requestId).length =
      headerSize := rfl
  rw [payloadOf, r.headerOf_encode, r.toNat_length, r.encode_eq, List.append_assoc,
    List.drop_left' hlen, List.take_left]

theorem Request.crcOf_encode (r : Request) : crcOf r.encode = crcCalculate r.payload := by
  have hlen : (headerBytes r.type (UInt32.ofNat r.payload.length) r.requestId ++
      r.payload).length = headerSize + r.payload.length := by
    rw [List.length_append]
    rfl
  rw [crcOf, r.headerOf_encode, r.toNat_length, ← hlen, r.encode_eq]
  refine decode32Bit_of_slice ?_
  rw [← List.append_nil (_ ++ be32 _)]
  exact slice_ofList_append _ (be32 (crcCalculate r.payload)) []

theorem Request.carries_taskOf (r : Request) (generation slot now : ℕ) :
    (taskOf generation r.encode slot now).Carries r where
  type := by rw [taskOf, r.headerOf_encode]; rfl
  requestId := by rw [taskOf, r.headerOf_encode]; rfl
  length := by rw [taskOf, r.headerOf_encode, r.toNat_length]
  payload := r.payloadOf_encode

theorem Request.checkHeader_eq_none (r : Request) (h : Supported r.type) :
    checkHeader r.header = none :=
  (checkHeader_eq_none_iff _).mpr ⟨rfl, rfl, r.toNat_length ▸ r.short, h⟩

/-- A word that starts a stream and has a whole header starts with the
header of the first request. -/
theorem headerOf_of_append_eq_stream {W V : List UInt8} {rs : List Request}
    (h : W ++ V = stream rs) (hlen : headerSize ≤ W.length) :
    ∃ r rs', rs = r :: rs' ∧ headerOf W = r.header := by
  cases rs with
  | nil =>
      have hW : W = [] := (List.append_eq_nil_iff.mp h).1
      rw [hW] at hlen
      exact absurd hlen (by decide)
  | cons r rs' =>
      refine ⟨r, rs', rfl, ?_⟩
      rw [← headerOf_append hlen V, h, stream_cons, r.headerOf_append]

/-- A word that starts a stream and has the size of a frame is the first
frame. -/
theorem eq_encode_of_append_eq_stream {W V : List UInt8} {rs : List Request}
    (h : W ++ V = stream rs) (hlen : W.length = frameSize W) :
    ∃ r rs', rs = r :: rs' ∧ W = r.encode ∧ V = stream rs' := by
  have hheader : headerSize ≤ W.length := by
    rw [hlen, frameSize, packetSize]
    omega
  obtain ⟨r, rs', rfl, hr⟩ := headerOf_of_append_eq_stream h hheader
  have hsize : W.length = r.encode.length := by
    rw [hlen, frameSize, hr, r.toNat_length, r.length_encode]
  rw [stream_cons] at h
  exact ⟨r, rs', rfl, List.append_inj h hsize⟩

/-! ### Calls on a stream of frames -/

theorem frameOut_encode (slot : Option ℕ) (env : ReadEnv) (generation : ℕ) (r : Request) :
    frameOut slot env generation r.encode = taskOut slot env generation r.encode := by
  rw [frameOut, if_neg (by rw [r.crcOf_encode, r.payloadOf_encode]; simp)]

theorem taskOut_encode (slot : Option ℕ) (env : ReadEnv) (generation : ℕ) (r : Request) :
    taskOut slot env generation r.encode = .nothing ∨
      ∃ t, taskOut slot env generation r.encode = .push t ∧ t.Carries r := by
  unfold taskOut
  split
  next slot =>
    split
    next => exact .inr ⟨_, rfl, r.carries_taskOf generation slot env.now⟩
    next => exact .inl rfl
  next => exact .inl rfl

/-- The reader of slot `i` has the transport `ssl`, and what it has
buffered and still has to read is the stream of `rs`. -/
structure Aligned (clients : Clients) (i : ℕ) (ssl : Ssl) (rs : List Request) : Prop where
  reading : (clients i).Reading
  transport : (clients i).ssl = some ssl
  frames : (clients i).received ++ ssl.unread = stream rs

/-- What a call does on a stream of supported frames: it leaves the
stream as it is, or it takes the first frame off and hands on its task. -/
inductive TakesFrame (slot : Option ℕ) (env : ReadEnv) (generation : ℕ) (rs : List Request)
    (call : Call) : Prop
  | paused (ret : call.ret = 3 ∧ call.ssl.pending = [] ∨ call.ret = 1 ∧ .eof ∈ call.ssl.kernel ∨
        call.ret = -1 ∧ .error ∈ call.ssl.kernel)
      (out : call.out = .nothing) (reading : call.client.Reading)
      (rest : call.client.received ++ call.ssl.unread = stream rs)
  | taken (r : Request) (rs' : List Request) (frames : rs = r :: rs') (ret : call.ret = 0)
      (out : call.out = frameOut slot env generation r.encode) (reading : call.client.Reading)
      (rest : call.client.received ++ call.ssl.unread = stream rs')

theorem reading_of_rewound {c : Client} (h : c.stage = .readHeader ∧ c.rxLen = 0) :
    c.Reading ∧ c.received = [] := by
  refine ⟨.inl ⟨h.1, by rw [h.2]; decide⟩, ?_⟩
  rw [Client.received, h.2, slice_zero]

theorem Aligned.takesFrame {clients : Clients} {i : ℕ} {ssl : Ssl} {rs : List Request}
    (h : Aligned clients i ssl rs) (hrs : ∀ r ∈ rs, Supported r.type) (env : ReadEnv) :
    TakesFrame (fdToSlot clients (clients i).fd maxClients) env (clients i).generation rs
      (clientReadMessage clients i env) := by
  obtain ⟨D, hunread, -, hreads, -, -⟩ := clientReadMessage_spec env h.reading h.transport
  have hstream := h.frames
  rw [hunread, ← List.append_assoc] at hstream
  cases hreads with
  | paused ret out reading received => exact .paused ret out reading (by rw [received, hstream])
  | rejected e length check out ret rewound =>
      obtain ⟨r, rs', rfl, hr⟩ := headerOf_of_append_eq_stream hstream length.ge
      rw [hr, r.checkHeader_eq_none (hrs r (by simp))] at check
      cases check
  | complete length check out ret rewound =>
      obtain ⟨r, rs', rfl, hW, hV⟩ := eq_encode_of_append_eq_stream hstream length
      obtain ⟨hreading, hnil⟩ := reading_of_rewound rewound
      rw [hW] at out ret
      refine .taken r rs' rfl ?_ out hreading (by rw [hnil, hV, List.nil_append])
      rw [ret, if_neg (by rw [r.crcOf_encode, r.payloadOf_encode]; simp)]

theorem Aligned.eq_nil {clients : Clients} {i : ℕ} {ssl : Ssl} {rs : List Request}
    (h : Aligned clients i ssl rs) (hempty : ssl.unread = []) :
    rs = [] ∧ (clients i).stage = .readHeader ∧ (clients i).rxLen = 0 := by
  have hstream := h.frames
  rw [hempty, List.append_nil] at hstream
  have hlen : (clients i).rxLen = (stream rs).length := by rw [← hstream, length_received]
  cases rs with
  | nil =>
      obtain ⟨hstage, -⟩ | ⟨-, hheader, -⟩ := h.reading
      · exact ⟨rfl, hstage, hlen⟩
      · rw [hlen] at hheader
        exact absurd hheader (by decide)
  | cons r rs =>
      rw [stream_cons, List.length_append] at hlen
      obtain ⟨-, hshort⟩ | ⟨-, -, -, hshort⟩ := h.reading
      · have := r.headerSize_le_length_encode
        omega
      · rw [hstream, stream_cons, r.frameSize_append] at hshort
        omega

/-! ### Repeated calls -/

/-- One call of `client_read_message` for slot `i`. -/
def readStep (i : ℕ) (clients : Clients) (env : ReadEnv) : Call × Clients :=
  let call := clientReadMessage clients i env
  (call, Function.update clients i call.client)

@[simp] theorem readStep_fst (i : ℕ) (clients : Clients) (env : ReadEnv) :
    (readStep i clients env).1 = clientReadMessage clients i env := rfl

@[simp] theorem readStep_self (i : ℕ) (clients : Clients) (env : ReadEnv) :
    (readStep i clients env).2 i = (clientReadMessage clients i env).client :=
  Function.update_self ..

def tasksOf (outs : List ReaderOut) : List Task :=
  outs.filterMap fun out =>
    match out with
    | .push t => some t
    | _ => none

/-- The error packets handed to `enqueue_message`. -/
def packetsOf (outs : List ReaderOut) : List (List UInt8) :=
  outs.filterMap fun out =>
    match out with
    | .packet bs => some bs
    | _ => none

theorem tasksOf_cons (out : ReaderOut) (outs : List ReaderOut) :
    tasksOf (out :: outs) = tasksOf [out] ++ tasksOf outs :=
  List.filterMap_append (l := [out])

theorem packetsOf_cons (out : ReaderOut) (outs : List ReaderOut) :
    packetsOf (out :: outs) = packetsOf [out] ++ packetsOf outs :=
  List.filterMap_append (l := [out])

def pushed (calls : List Call) : List Task := tasksOf (calls.map Call.out)

def packets (calls : List Call) : List (List UInt8) := packetsOf (calls.map Call.out)

theorem pushed_cons (call : Call) (calls : List Call) :
    pushed (call :: calls) = pushed [call] ++ pushed calls :=
  tasksOf_cons call.out (calls.map Call.out)

theorem packets_cons (call : Call) (calls : List Call) :
    packets (call :: calls) = packets [call] ++ packets calls :=
  packetsOf_cons call.out (calls.map Call.out)

def decoded (calls : List Call) : List ℕ := calls.flatMap Call.headers

theorem silent_cons {call : Call} (calls : List Call) (out : call.out = .nothing)
    (headers : call.headers = []) :
    pushed (call :: calls) = pushed calls ∧ packets (call :: calls) = packets calls ∧
      decoded (call :: calls) = decoded calls := by
  simp [pushed, packets, tasksOf, packetsOf, decoded, out, headers]

def Ssl.Quiet (ssl : Ssl) : Prop := .eof ∉ ssl.kernel ∧ .error ∉ ssl.kernel

theorem Ssl.Quiet.sslRead (ssl : Ssl) (num : ℕ) (_ : 0 < num) (h : ssl.Quiet) :
    (sslRead ssl num).2.Quiet :=
  ⟨fun hk => h.1 ((sslRead_kernel ssl num).subset hk),
    fun hk => h.2 ((sslRead_kernel ssl num).subset hk)⟩

/-- A connection that stays open: the client of slot `i` is in the table
and reads from `ssl`. -/
structure Session (clients : Clients) (i : ℕ) (ssl : Ssl) : Prop where
  reading : (clients i).Reading
  transport : (clients i).ssl = some ssl
  quiet : ssl.Quiet
  found : (fdToSlot clients (clients i).fd maxClients).isSome

theorem fdToSlot_readStep {clients : Clients} {i : ℕ} {env : ReadEnv}
    (hfd : (clientReadMessage clients i env).client.fd = (clients i).fd)
    (halive : (clientReadMessage clients i env).client.alive = (clients i).alive) (fd : ℤ) :
    fdToSlot (readStep i clients env).2 fd maxClients = fdToSlot clients fd maxClients := by
  refine fdToSlot_congr fd maxClients fun j => ?_
  by_cases hj : j = i
  · subst hj
    simp [readStep, hfd, halive]
  · simp [readStep, hj]

/-- A call keeps the session and makes progress, unless the transport is
empty. If it rejects a header, it needs memory for the answer. -/
theorem Session.readStep_of_header {clients : Clients} {i : ℕ} {ssl : Ssl}
    (h : Session clients i ssl) (env : ReadEnv)
    (hok : ∀ D rest, ssl.unread = D ++ rest → ((clients i).received ++ D).length = headerSize →
      checkHeader (headerOf ((clients i).received ++ D)) = none ∨ env.packetOk = true) :
    Session (readStep i clients env).2 i (clientReadMessage clients i env).ssl ∧
      (clientReadMessage clients i env).ssl.unread <:+ ssl.unread ∧
      ((clientReadMessage clients i env).ssl.weight < ssl.weight ∨
        (clientReadMessage clients i env).ssl.unread = []) := by
  obtain ⟨D, hunread, -, hreads, -, hprogress⟩ :=
    clientReadMessage_spec env h.reading h.transport
  obtain ⟨hsame, halive⟩ := clientReadMessage_frame env clients i
  obtain ⟨hssl, hquiet⟩ :=
    clientReadMessage_keeps Ssl.Quiet.sslRead env h.reading h.transport h.quiet
  have hcall : (clientReadMessage clients i env).ret ≠ 1 ∧
      (clientReadMessage clients i env).client.Reading := by
    cases hreads with
    | paused ret out reading received =>
        refine ⟨fun hret => ?_, reading⟩
        obtain ⟨h₃, -⟩ | ⟨-, heof⟩ | ⟨h₁, -⟩ := ret
        · omega
        · exact hquiet.1 heof
        · omega
    | rejected e length check out ret rewound =>
        have hpacket := (hok D _ hunread length).resolve_left (by simp [check])
        rw [ret, if_pos hpacket]
        exact ⟨by decide, (reading_of_rewound (rewound hpacket)).1⟩
    | complete length check out ret rewound =>
        rw [ret]
        refine ⟨?_, (reading_of_rewound rewound).1⟩
        split <;> decide
  refine ⟨⟨?_, ?_, hquiet, ?_⟩, ⟨D, hunread.symm⟩, ?_⟩
  · simpa using hcall.2
  · simpa using hssl
  · rw [fdToSlot_readStep hsame.fd (halive hcall.1)]
    simpa [hsame.fd] using h.found
  · obtain hlt | ⟨-, hempty⟩ | ⟨-, heof⟩ | ⟨-, herror⟩ := hprogress
    · exact .inl hlt
    · exact .inr hempty
    · exact absurd heof hquiet.1
    · exact absurd herror hquiet.2

theorem Session.readStep {clients : Clients} {i : ℕ} {ssl : Ssl} (h : Session clients i ssl)
    {env : ReadEnv} (hok : env.packetOk = true) :
    Session (readStep i clients env).2 i (clientReadMessage clients i env).ssl ∧
      (clientReadMessage clients i env).ssl.unread <:+ ssl.unread ∧
      ((clientReadMessage clients i env).ssl.weight < ssl.weight ∨
        (clientReadMessage clients i env).ssl.unread = []) :=
  h.readStep_of_header env fun _ _ _ _ => .inr hok

/-- An alive client of the table that is about to read a frame from a
connection that stays open. -/
structure Listening (clients : Clients) (i : ℕ) (ssl : Ssl) : Prop where
  slot : i < maxClients
  alive : (clients i).alive = true
  fd : 0 ≤ (clients i).fd
  stage : (clients i).stage = .readHeader
  rxLen : (clients i).rxLen = 0
  transport : (clients i).ssl = some ssl
  quiet : ssl.Quiet

theorem Listening.session {clients : Clients} {i : ℕ} {ssl : Ssl} (h : Listening clients i ssl) :
    Session clients i ssl where
  reading := (reading_of_rewound ⟨h.stage, h.rxLen⟩).1
  transport := h.transport
  quiet := h.quiet
  found := Option.isSome_iff_exists.mpr (exists_fdToSlot h.slot h.alive h.fd)

theorem Listening.aligned {clients : Clients} {i : ℕ} {ssl : Ssl} (h : Listening clients i ssl)
    {rs : List Request} (hrs : ssl.unread = stream rs) : Aligned clients i ssl rs where
  reading := h.session.reading
  transport := h.transport
  frames := by rw [(reading_of_rewound ⟨h.stage, h.rxLen⟩).2, hrs, List.nil_append]

def AllocOk (envs : List ReadEnv) : Prop := ∀ env ∈ envs, env.taskOk = true ∧ env.packetOk = true

theorem Session.readStep_aligned {clients : Clients} {i : ℕ} {ssl : Ssl} {rs : List Request}
    (hs : Session clients i ssl) (ha : Aligned clients i ssl rs)
    (hrs : ∀ r ∈ rs, Supported r.type) {env : ReadEnv} (htask : env.taskOk = true) :
    ∃ done rest, rs = done ++ rest ∧
      List.Forall₂ Task.Carries (pushed [(Gateway.readStep i clients env).1]) done ∧
      packets [(Gateway.readStep i clients env).1] = [] ∧
      Aligned (Gateway.readStep i clients env).2 i (clientReadMessage clients i env).ssl rest := by
  obtain ⟨hssl, -⟩ :=
    clientReadMessage_keeps Ssl.Quiet.sslRead env hs.reading hs.transport hs.quiet
  have haligned : ∀ {rest}, (clientReadMessage clients i env).client.Reading →
      (clientReadMessage clients i env).client.received ++
        (clientReadMessage clients i env).ssl.unread = stream rest →
      Aligned (Gateway.readStep i clients env).2 i (clientReadMessage clients i env).ssl rest := by
    intro rest hreading hrest
    exact ⟨by simpa using hreading, by simpa using hssl,
      by simpa using hrest⟩
  cases ha.takesFrame hrs env with
  | paused ret out reading rest =>
      refine ⟨[], rs, rfl, ?_, ?_, haligned reading rest⟩
      · simp [pushed, tasksOf, out]
      · simp [packets, packetsOf, out]
  | taken r rs' frames ret out reading rest =>
      obtain ⟨slot, hslot⟩ := Option.isSome_iff_exists.mp hs.found
      rw [hslot, frameOut_encode] at out
      simp only [taskOut, htask, if_true] at out
      refine ⟨[r], rs', frames, ?_, ?_, haligned reading rest⟩
      · simpa [pushed, tasksOf, out] using r.carries_taskOf _ slot env.now
      · simp [packets, packetsOf, out]

theorem Session.run {clients : Clients} {i : ℕ} {ssl : Ssl} (hs : Session clients i ssl)
    {envs : List ReadEnv} (hok : AllocOk envs) :
    ∃ ssl', Session (exec (Gateway.readStep i) clients envs) i ssl' ∧
      ssl'.unread <:+ ssl.unread ∧ (ssl.weight ≤ envs.length → ssl'.unread = []) := by
  induction envs generalizing clients ssl with
  | nil => exact ⟨ssl, hs, List.suffix_refl _, fun h => Ssl.unread_eq_nil (by simpa using h)⟩
  | cons env envs ih =>
      obtain ⟨hs₁, hsuffix₁, hprogress⟩ := hs.readStep (hok env (by simp)).2
      obtain ⟨ssl', hs', hsuffix, hempty⟩ := ih hs₁ fun e he => hok e (by simp [he])
      refine ⟨ssl', hs', hsuffix.trans hsuffix₁, fun hlen => ?_⟩
      rw [List.length_cons] at hlen
      obtain hlt | hnil := hprogress
      · exact hempty (by omega)
      · exact List.eq_nil_of_suffix_nil (hnil ▸ hsuffix)

theorem Session.run_aligned {clients : Clients} {i : ℕ} {ssl : Ssl} {rs : List Request}
    (hs : Session clients i ssl) (ha : Aligned clients i ssl rs)
    (hrs : ∀ r ∈ rs, Supported r.type) {envs : List ReadEnv} (hok : AllocOk envs) :
    ∃ ssl' done rest, rs = done ++ rest ∧
      List.Forall₂ Task.Carries (pushed (trace (Gateway.readStep i) clients envs)) done ∧
      packets (trace (Gateway.readStep i) clients envs) = [] ∧
      Aligned (exec (Gateway.readStep i) clients envs) i ssl' rest := by
  induction envs generalizing clients ssl rs with
  | nil => exact ⟨ssl, [], rs, rfl, .nil, rfl, ha⟩
  | cons env envs ih =>
      obtain ⟨htask, hpacket⟩ := hok env (by simp)
      obtain ⟨d₁, r₁, rfl, hd₁, hp₁, ha₁⟩ := hs.readStep_aligned ha hrs htask
      obtain ⟨ssl', d₂, r₂, rfl, hd₂, hp₂, ha₂⟩ := ih (hs.readStep hpacket).1 ha₁
        (fun r hr => hrs r (by simp [hr])) fun e he => hok e (by simp [he])
      refine ⟨ssl', d₁ ++ d₂, r₂, by simp, ?_, ?_, ha₂⟩
      · rw [trace, pushed_cons]
        exact List.rel_append hd₁ hd₂
      · rw [trace, packets_cons, hp₁, hp₂, List.append_nil]

/-- **The round trip.** Requests of supported types that are encoded, sent
and cut into records in any way are handed to `push` one by one, once the
reader has been called often enough. -/
theorem framing_round_trip {clients : Clients} {i : ℕ} {ssl : Ssl} (h : Listening clients i ssl)
    (rs : List Request) (hrs : ∀ r ∈ rs, Supported r.type) (hstream : ssl.unread = stream rs) :
    ∃ n, ∀ envs : List ReadEnv, n ≤ envs.length → AllocOk envs →
      List.Forall₂ Task.Carries (pushed (trace (readStep i) clients envs)) rs ∧
        packets (trace (readStep i) clients envs) = [] ∧
        (exec (readStep i) clients envs i).stage = .readHeader ∧
        (exec (readStep i) clients envs i).rxLen = 0 := by
  refine ⟨ssl.weight, fun envs hlen hok => ?_⟩
  obtain ⟨ssl', done, rest, rfl, hpushed, hpackets, haligned⟩ :=
    h.session.run_aligned (h.aligned hstream) hrs hok
  obtain ⟨ssl'', hs'', -, hempty⟩ := h.session.run hok
  obtain rfl : ssl'' = ssl' := by
    simpa [hs''.transport] using haligned.transport
  obtain ⟨rfl, hstage, hrx⟩ := haligned.eq_nil (hempty hlen)
  rw [List.append_nil]
  exact ⟨hpushed, hpackets, hstage, hrx⟩

/-! A table whose first client has just finished its handshake. -/

def oneClient (ssl : Ssl) : Clients := fun i =>
  if i = 0 then { clientsInit.occupy 7 0 with ssl := some ssl, tlsHandshakeDone := true }
  else clientsInit

theorem listening_oneClient {ssl : Ssl} (h : ssl.Quiet) : Listening (oneClient ssl) 0 ssl :=
  ⟨by decide, rfl, Int.natCast_nonneg 7, rfl, rfl, rfl, h⟩

def drip (bs : List UInt8) : Ssl :=
  ⟨[], bs.flatMap fun b => [.eintr, .record b [], .eagain], 0⟩

theorem unread_drip (bs : List UInt8) : (drip bs).unread = bs := by
  simp only [Ssl.unread, drip, List.nil_append]
  induction bs with
  | nil => rfl
  | cons b bs ih =>
      rw [List.flatMap_cons, List.flatMap_append, ih]
      rfl

theorem quiet_drip (bs : List UInt8) : (drip bs).Quiet := by
  constructor <;> simp [drip]

theorem framing_round_trip_drip :
    let rs : List Request := [⟨msgEcho, 7, [0x68, 0x69], by decide⟩, ⟨msgStatus, 8, [], by decide⟩]
    ∃ n, ∀ envs : List ReadEnv, n ≤ envs.length → AllocOk envs →
      List.Forall₂ Task.Carries
          (pushed (trace (readStep 0) (oneClient (drip (stream rs))) envs)) rs ∧
        packets (trace (readStep 0) (oneClient (drip (stream rs))) envs) = [] ∧
        (exec (readStep 0) (oneClient (drip (stream rs))) envs 0).stage = .readHeader ∧
        (exec (readStep 0) (oneClient (drip (stream rs))) envs 0).rxLen = 0 := by
  intro rs
  exact framing_round_trip (listening_oneClient (quiet_drip _)) rs
    (by simp only [rs]; decide) (unread_drip _)

/-! ### A frame that is rejected

Between frames, or inside a header, the reader is *at* a position of the
stream: the one where the header it is reading starts. -/

/-- The reader is at position `p`, and `V` is what follows there. -/
structure AtHeader (clients : Clients) (i : ℕ) (ssl : Ssl) (p : ℕ) (V : List UInt8) : Prop where
  session : Session clients i ssl
  stage : (clients i).stage = .readHeader
  bytes : (clients i).received ++ ssl.unread = V
  pos : ssl.pos = p + (clients i).rxLen

inductive HeaderStep (clients : Clients) (i p : ℕ) (V : List UInt8) (call : Call) : Prop
  /-- The header is not complete. -/
  | wait (out : call.out = .nothing) (headers : call.headers = [])
      (next : AtHeader clients i call.ssl p V)
  /-- The header is rejected, and the next one is looked for behind it. -/
  | reject (e : ErrCode) (check : checkHeader (headerOf V) = some e)
      (out : call.out = .packet (buildErrorPacket (headerOf V).requestId e))
      (headers : call.headers = [p]) (long : headerSize ≤ V.length)
      (next : AtHeader clients i call.ssl (p + headerSize) (V.drop headerSize))
  /-- The header is accepted. -/
  | accept (check : checkHeader (headerOf V) = none) (headers : call.headers = [p])
      (long : headerSize ≤ V.length)

theorem AtHeader.readStep {clients : Clients} {i : ℕ} {ssl : Ssl} {p : ℕ} {V : List UInt8}
    (h : AtHeader clients i ssl p V) {env : ReadEnv} (hok : env.packetOk = true) :
    HeaderStep (readStep i clients env).2 i p V (clientReadMessage clients i env) := by
  obtain ⟨hsession, -⟩ := h.session.readStep hok
  obtain ⟨D, hunread, hpos, hreads, hheaders, -⟩ :=
    clientReadMessage_spec env h.session.reading h.session.transport
  have hV := h.bytes
  rw [hunread, ← List.append_assoc] at hV
  have hstart : ssl.pos - (clients i).rxLen = p := by
    rw [h.pos]
    omega
  have hpos' : (clientReadMessage clients i env).ssl.pos =
      p + ((clients i).received ++ D).length := by
    rw [hpos, h.pos, List.length_append, length_received, Nat.add_assoc]
  rw [List.nil_append, headersOf, hstart] at hheaders
  have hlong : ∀ W : List UInt8, headerSize ≤ W.length → (clients i).received ++ D = W →
      headerOf V = headerOf W ∧ (clientReadMessage clients i env).headers = [p] ∧
        headerSize ≤ V.length := by
    rintro W hW rfl
    refine ⟨by rw [← hV, headerOf_append hW], by rw [hheaders, if_pos ⟨h.stage, hW⟩], ?_⟩
    rw [← hV, List.length_append]
    omega
  cases hreads with
  | paused ret out reading received =>
      obtain ⟨hstage, hshort⟩ | ⟨-, hfull, hcheck, -⟩ := reading
      · rw [← length_received, received] at hshort
        refine .wait out ?_ ⟨hsession, by rw [readStep_self, hstage], ?_, ?_⟩
        · rw [hheaders, if_neg fun hw => absurd hw.2 (by omega)]
        · rw [readStep_self, received, hV]
        · rw [readStep_self, ← length_received, received, hpos']
      · rw [received] at hcheck
        rw [← length_received, received] at hfull
        obtain ⟨hheader, hdecoded, hV'⟩ := hlong _ hfull rfl
        rw [← hheader] at hcheck
        exact .accept hcheck hdecoded hV'
  | rejected e length check out ret rewound =>
      obtain ⟨hheader, hdecoded, hV'⟩ := hlong _ length.ge rfl
      obtain ⟨hstage, hrx⟩ := rewound hok
      have hnil := (reading_of_rewound ⟨hstage, hrx⟩).2
      rw [← hheader] at check
      rw [rejectOut, if_pos hok, ← hheader] at out
      refine .reject e check out hdecoded hV' ⟨hsession, ?_, ?_, ?_⟩
      · rw [readStep_self, hstage]
      · rw [readStep_self, hnil, ← hV, ← length, List.drop_left, List.nil_append]
      · rw [readStep_self, hrx, hpos', length, Nat.add_zero]
  | complete length check out ret rewound =>
      have hfull : headerSize ≤ ((clients i).received ++ D).length := by
        rw [length, frameSize, packetSize]
        omega
      obtain ⟨hheader, hdecoded, hV'⟩ := hlong _ hfull rfl
      rw [← hheader] at check
      exact .accept check hdecoded hV'

theorem AtHeader.run {clients : Clients} {i : ℕ} {ssl : Ssl} {p : ℕ} {V : List UInt8}
    (h : AtHeader clients i ssl p V) {envs : List ReadEnv} (hok : AllocOk envs) :
    (∃ ssl', AtHeader (exec (Gateway.readStep i) clients envs) i ssl' p V ∧
      pushed (trace (Gateway.readStep i) clients envs) = [] ∧
      packets (trace (Gateway.readStep i) clients envs) = [] ∧
      decoded (trace (Gateway.readStep i) clients envs) = []) ∨
    p ∈ decoded (trace (Gateway.readStep i) clients envs) ∧ headerSize ≤ V.length := by
  induction envs generalizing clients ssl with
  | nil => exact .inl ⟨ssl, h, rfl, rfl, rfl⟩
  | cons env envs ih =>
      have hdecoded : ∀ calls, (clientReadMessage clients i env).headers = [p] →
          p ∈ decoded (clientReadMessage clients i env :: calls) := by
        intro calls hheaders
        simp [decoded, hheaders]
      cases h.readStep (hok env (by simp)).2 with
      | wait out headers next =>
          obtain ⟨hpushed, hpackets, hdec⟩ := silent_cons
            (trace (Gateway.readStep i) (Gateway.readStep i clients env).2 envs) out headers
          rw [trace, readStep_fst, hpushed, hpackets, hdec]
          exact ih next fun e he => hok e (by simp [he])
      | reject e check out headers long next | accept check headers long =>
          exact .inr ⟨hdecoded _ headers, long⟩

/-- A header that is rejected is answered, and then the reader waits for
the next header 16 bytes further on. -/
theorem AtHeader.run_rejected {clients : Clients} {i : ℕ} {ssl : Ssl} {p : ℕ} {V : List UInt8}
    {e : ErrCode} (h : AtHeader clients i ssl p V) (hcheck : checkHeader (headerOf V) = some e)
    {envs : List ReadEnv} (hok : AllocOk envs) :
    (∃ ssl', AtHeader (exec (Gateway.readStep i) clients envs) i ssl' p V) ∨
    (∃ ssl', AtHeader (exec (Gateway.readStep i) clients envs) i ssl' (p + headerSize)
        (V.drop headerSize) ∧
      pushed (trace (Gateway.readStep i) clients envs) = [] ∧
      packets (trace (Gateway.readStep i) clients envs) =
        [buildErrorPacket (headerOf V).requestId e] ∧
      decoded (trace (Gateway.readStep i) clients envs) = [p]) ∨
    p + headerSize ∈ decoded (trace (Gateway.readStep i) clients envs) ∧
      headerSize ≤ (V.drop headerSize).length := by
  induction envs generalizing clients ssl with
  | nil => exact .inl ⟨ssl, h⟩
  | cons env envs ih =>
      have hok' : AllocOk envs := fun e he => hok e (by simp [he])
      cases h.readStep (hok env (by simp)).2 with
      | wait out headers next =>
          obtain ⟨hpushed, hpackets, hdec⟩ := silent_cons
            (trace (Gateway.readStep i) (Gateway.readStep i clients env).2 envs) out headers
          rw [trace, readStep_fst, hpushed, hpackets, hdec]
          exact ih next hok'
      | reject e' check out headers long next =>
          obtain rfl : e' = e := by simpa [hcheck] using check.symm
          obtain ⟨ssl', hat, hpushed, hpackets, hdec⟩ | ⟨hdec, hlong⟩ := next.run hok'
          · refine .inr (.inl ⟨ssl', hat, ?_, ?_, ?_⟩)
            · rw [trace, pushed_cons, hpushed]
              simp [pushed, tasksOf, out]
            · rw [trace, packets_cons, hpackets]
              simp [packets, packetsOf, out]
            · simpa [trace, decoded, headers] using hdec
          · refine .inr (.inr ⟨?_, hlong⟩)
            rw [trace, readStep_fst, decoded, List.flatMap_cons]
            exact List.mem_append_right _ hdec
      | accept check headers long =>
          rw [hcheck] at check
          cases check

theorem Request.checkHeader_eq_unknownType (r : Request) (h : ¬ Supported r.type) :
    checkHeader r.header = some .unknownType := by
  have hlong : ¬ r.header.length.toNat > maxPayload := by
    rw [r.toNat_length]
    exact r.short.not_gt
  have hmagic : ¬ r.header.magic ≠ protocolMagic := not_not.mpr rfl
  have hversion : ¬ r.header.version ≠ protocolVersion := not_not.mpr rfl
  simp only [Supported, not_or] at h
  rw [checkHeader, if_neg hmagic, if_neg hversion, if_neg hlong]
  exact if_pos h

/-- A rejected frame costs its sender one error packet and nothing else:
the frames behind it are delivered, and no byte of its payload or
checksum is taken for a header. -/
def Resyncs (clients : Clients) (i : ℕ) (ssl : Ssl) (bad : Request) (rs : List Request) : Prop :=
  ∃ n, ∀ envs : List ReadEnv, n ≤ envs.length → AllocOk envs →
    packets (trace (readStep i) clients envs) = [buildErrorPacket bad.requestId .unknownType] ∧
      List.Forall₂ Task.Carries (pushed (trace (readStep i) clients envs)) rs ∧
      ∀ p ∈ decoded (trace (readStep i) clients envs),
        ¬ (ssl.pos < p ∧ p < ssl.pos + bad.encode.length)

section Resync

variable {clients : Clients} {i : ℕ} {ssl : Ssl} {bad : Request} {rs : List Request}

theorem length_drop_encode (bad : Request) (V : List UInt8) :
    ((bad.encode ++ V).drop headerSize).length = bad.payload.length + crcSize + V.length := by
  rw [List.length_drop, List.length_append, bad.length_encode, packetSize]
  omega

theorem AtHeader.length_lt (h : Session clients i ssl) {envs : List ReadEnv} (hok : AllocOk envs)
    (hlen : ssl.weight ≤ envs.length) {ssl' : Ssl} {p : ℕ} {V : List UInt8}
    (hat : AtHeader (exec (Gateway.readStep i) clients envs) i ssl' p V) :
    V.length < headerSize := by
  obtain ⟨ssl'', hs, -, hempty⟩ := h.run hok
  obtain rfl : ssl'' = ssl' := by simpa [hs.transport] using hat.session.transport
  have hbytes := hat.bytes
  rw [hempty hlen, List.append_nil] at hbytes
  obtain ⟨-, hshort⟩ | ⟨hstage, -⟩ := hat.session.reading
  · rwa [← hbytes, length_received]
  · rw [hat.stage] at hstage
    cases hstage

/-- After enough calls the rejected frame has been answered, and the
reader either waits behind its header for a next one or has taken what is
there for one. -/
theorem Listening.run_rejected (h : Listening clients i ssl) (hbad : ¬ Supported bad.type)
    (hstream : ssl.unread = stream (bad :: rs)) {envs : List ReadEnv} (hok : AllocOk envs)
    (hlen : ssl.weight ≤ envs.length) :
    (bad.payload.length + crcSize + (stream rs).length < headerSize ∧
      pushed (trace (readStep i) clients envs) = [] ∧
      packets (trace (readStep i) clients envs) =
        [buildErrorPacket bad.requestId .unknownType] ∧
      decoded (trace (readStep i) clients envs) = [ssl.pos]) ∨
    ssl.pos + headerSize ∈ decoded (trace (readStep i) clients envs) ∧
      headerSize ≤ bad.payload.length + crcSize + (stream rs).length := by
  have hat : AtHeader clients i ssl ssl.pos (stream (bad :: rs)) := by
    refine ⟨h.session, h.stage, ?_, by rw [h.rxLen, Nat.add_zero]⟩
    rw [(reading_of_rewound ⟨h.stage, h.rxLen⟩).2, hstream, List.nil_append]
  have hheader : headerOf (stream (bad :: rs)) = bad.header := bad.headerOf_append _
  have hcheck : checkHeader (headerOf (stream (bad :: rs))) = some .unknownType := by
    rw [hheader, bad.checkHeader_eq_unknownType hbad]
  have htail : ((stream (bad :: rs)).drop headerSize).length =
      bad.payload.length + crcSize + (stream rs).length := length_drop_encode bad _
  obtain ⟨ssl', hat'⟩ | ⟨ssl', hat', hpushed, hpackets, hdec⟩ | ⟨hdec, hlong⟩ :=
    hat.run_rejected hcheck hok
  · have hshort := hat'.length_lt h.session hok hlen
    have := bad.headerSize_le_length_encode
    rw [stream_cons, List.length_append] at hshort
    omega
  · rw [hheader] at hpackets
    exact .inl ⟨htail ▸ hat'.length_lt h.session hok hlen, hpushed, hpackets, hdec⟩
  · exact .inr ⟨hdec, htail ▸ hlong⟩

/-- The bytes behind the header of a rejected frame do no harm only if
they are too few for a header. -/
theorem Resyncs.length_lt (h : Listening clients i ssl) (hbad : ¬ Supported bad.type)
    (hstream : ssl.unread = stream (bad :: rs)) (hre : Resyncs clients i ssl bad rs) :
    bad.payload.length + crcSize + (stream rs).length < headerSize := by
  obtain ⟨n, hn⟩ := hre
  have hok : AllocOk (List.replicate (max n ssl.weight) ⟨0, 0, true, true⟩) := by
    intro env henv
    rw [List.eq_of_mem_replicate henv]
    exact ⟨rfl, rfl⟩
  obtain ⟨hshort, -⟩ | ⟨hdec, -⟩ := h.run_rejected hbad hstream hok (by simp)
  · exact hshort
  · obtain ⟨-, -, hinside⟩ := hn _ (by simp) hok
    refine absurd ⟨?_, ?_⟩ (hinside _ hdec)
    · simp [headerSize]
    · rw [bad.length_encode, packetSize]
      simp only [headerSize, crcSize]
      omega

/-- **Resynchronisation.** The reader survives a frame of a type it does
not support only if nothing follows the frame and what is left of it is
too short for a header. -/
theorem resyncs_iff (h : Listening clients i ssl) (bad : Request) (hbad : ¬ Supported bad.type)
    (rs : List Request) (hstream : ssl.unread = stream (bad :: rs)) :
    Resyncs clients i ssl bad rs ↔ rs = [] ∧ bad.payload.length + crcSize < headerSize := by
  constructor
  · intro hre
    have hshort := hre.length_lt h hbad hstream
    cases rs with
    | nil => exact ⟨rfl, by simpa using hshort⟩
    | cons r rs =>
        have := r.headerSize_le_length_encode
        rw [stream_cons, List.length_append] at hshort
        omega
  · rintro ⟨rfl, hshort⟩
    refine ⟨ssl.weight, fun envs hlen hok => ?_⟩
    obtain ⟨-, hpushed, hpackets, hdec⟩ | ⟨-, hlong⟩ := h.run_rejected hbad hstream hok hlen
    · refine ⟨hpackets, by rw [hpushed]; exact .nil, fun p hp => ?_⟩
      rw [hdec, List.mem_singleton] at hp
      omega
    · rw [stream_nil, List.length_nil] at hlong
      omega

end Resync

/-- A `SET_DEVICE` request without a payload, alone on the connection. -/
theorem resyncs_setDevice :
    let bad : Request := ⟨msgSetDevice, 9, [], by decide⟩
    Resyncs (oneClient (drip (stream [bad]))) 0 (drip (stream [bad])) bad [] := by
  intro bad
  exact (resyncs_iff (listening_oneClient (quiet_drip _)) bad (by simp only [bad]; decide) []
    (unread_drip _)).mpr ⟨rfl, by simp only [bad]; decide⟩

/-- The same request with an `ECHO` behind it, in one record. The second
call takes the checksum of the first frame and the start of the second
for a header and answers with another error packet. -/
theorem not_resyncs_setDevice_echo :
    let bad : Request := ⟨msgSetDevice, 9, [], by decide⟩
    let echo : Request := ⟨msgEcho, 10, [], by decide⟩
    let ssl : Ssl := ⟨[], recordOf (stream [bad, echo]), 0⟩
    let env : ReadEnv := ⟨0, 0, true, true⟩
    Listening (oneClient ssl) 0 ssl ∧ ssl.unread = stream [bad, echo] ∧
      packets (trace (readStep 0) (oneClient ssl) [env, env]) =
        [buildErrorPacket 9 .unknownType, buildErrorPacket 0 .badMagic] ∧
      ¬ Resyncs (oneClient ssl) 0 ssl bad [echo] := by
  intro bad echo ssl env
  have hquiet : ssl.Quiet := ⟨by decide +kernel, by decide +kernel⟩
  have hunread : ssl.unread = stream [bad, echo] := by decide +kernel
  refine ⟨listening_oneClient hquiet, hunread, by decide +kernel, fun hre => ?_⟩
  have hshort := hre.length_lt (listening_oneClient hquiet) (by simp only [bad]; decide) hunread
  exact absurd hshort (by decide +kernel)

end LinuxMiniProjects.Gateway
