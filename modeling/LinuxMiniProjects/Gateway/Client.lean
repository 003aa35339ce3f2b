import LinuxMiniProjects.Gateway.ProtocolMessage

/-!
The client table (`client.c`, `rate_limit.c`): what the gateway keeps for
one connection, how a slot is taken and given back, how a task is built.

Two things a connection rests on lie outside the source. The TLS object
is `Ssl`: a buffer of decrypted bytes in front of the records that have
reached the socket. The transmit queue is a chain of cells, whose memory
is passed along with the client; the functions that work on it are in
`Transmit`.
-/

namespace LinuxMiniProjects.Gateway

open Bytes LinkedList

/-! ### The transport -/

inductive SockItem
  /-- A TLS record; its plaintext is not empty. -/
  | record (b : UInt8) (bs : List UInt8)
  /-- A read that is interrupted by a signal. -/
  | eintr
  /-- A read that finds the socket empty. -/
  | eagain
  /-- The peer has closed the connection. -/
  | eof
  /-- The connection has failed. -/
  | error
  deriving DecidableEq, Repr

def SockItem.bytes : SockItem → List UInt8
  | .record b bs => b :: bs
  | _ => []

@[simp] theorem SockItem.bytes_record (b : UInt8) (bs : List UInt8) :
    (SockItem.record b bs).bytes = b :: bs := rfl

def recordOf : List UInt8 → List SockItem
  | [] => []
  | b :: bs => [.record b bs]

/-- A TLS object: decrypted bytes that have not been read, the socket
behind them, and the number of bytes read so far. -/
structure Ssl where
  pending : List UInt8
  kernel : List SockItem
  pos : ℕ
  deriving DecidableEq, Repr

/-- The result of a read: at least one byte, none at the end of the
stream, or an `errno`. -/
inductive ReadRes
  | data (bs : List UInt8)
  | err (e : Errno)

/-- Hand out at most `num` of the decrypted bytes `bs` and keep the
rest. -/
def Ssl.give (ssl : Ssl) (bs : List UInt8) (kernel : List SockItem) (num : ℕ) :
    ReadRes × Ssl :=
  (.data (bs.take num), ⟨bs.drop num, kernel, ssl.pos + (bs.take num).length⟩)

/-- `SSL_read` on a non-blocking socket. It takes the next record off the
socket only when all decrypted bytes have been read, and never joins two
records in one result. -/
def sslRead (ssl : Ssl) (num : ℕ) : ReadRes × Ssl :=
  match ssl.pending, ssl.kernel with
  | b :: bs, kernel => ssl.give (b :: bs) kernel num
  | [], .record b bs :: kernel => ssl.give (b :: bs) kernel num
  | [], [] => (.err .eagain, ssl)
  | [], .eintr :: kernel => (.err .eintr, { ssl with kernel := kernel })
  | [], .eagain :: kernel => (.err .eagain, { ssl with kernel := kernel })
  | [], .eof :: _ => (.data [], ssl)
  | [], .error :: _ => (.err .other, ssl)

@[elab_as_elim]
theorem Ssl.readCases {motive : Ssl → Prop}
    (buffered : ∀ b bs kernel pos, motive ⟨b :: bs, kernel, pos⟩)
    (record : ∀ b bs kernel pos, motive ⟨[], .record b bs :: kernel, pos⟩)
    (empty : ∀ pos, motive ⟨[], [], pos⟩)
    (eintr : ∀ kernel pos, motive ⟨[], .eintr :: kernel, pos⟩)
    (eagain : ∀ kernel pos, motive ⟨[], .eagain :: kernel, pos⟩)
    (eof : ∀ kernel pos, motive ⟨[], .eof :: kernel, pos⟩)
    (error : ∀ kernel pos, motive ⟨[], .error :: kernel, pos⟩) (ssl : Ssl) : motive ssl := by
  obtain ⟨pending, kernel, pos⟩ := ssl
  cases pending with
  | cons b bs => exact buffered b bs kernel pos
  | nil =>
      cases kernel with
      | nil => exact empty pos
      | cons item kernel =>
          cases item with
          | record b bs => exact record b bs kernel pos
          | eintr => exact eintr kernel pos
          | eagain => exact eagain kernel pos
          | eof => exact eof kernel pos
          | error => exact error kernel pos

def Ssl.unread (ssl : Ssl) : List UInt8 := ssl.pending ++ ssl.kernel.flatMap SockItem.bytes

def Ssl.weight (ssl : Ssl) : ℕ :=
  ssl.pending.length + (ssl.kernel.map fun item => item.bytes.length + 1).sum

theorem Ssl.unread_eq_nil {ssl : Ssl} (h : ssl.weight = 0) : ssl.unread = [] := by
  obtain ⟨pending, kernel, pos⟩ := ssl
  simp only [Ssl.weight, Nat.add_eq_zero_iff, List.length_eq_zero_iff] at h
  obtain ⟨rfl, hkernel⟩ := h
  cases kernel with
  | nil => rfl
  | cons item kernel => simp at hkernel

theorem Ssl.length_kernel_le_weight (ssl : Ssl) : ssl.kernel.length ≤ ssl.weight := by
  have hsum := List.length_le_sum_of_one_le (ssl.kernel.map fun item => item.bytes.length + 1)
    (by simp)
  rw [List.length_map] at hsum
  exact hsum.trans (Nat.le_add_left _ _)

/-! ### `rate_limit.c`

The token bucket, in rational numbers where the source has `double`. -/

structure RateLimit where
  capacity : ℚ
  numberRequestAvailable : ℚ
  requestPerSecond : ℚ
  lastRequestMs : ℕ

def rateLimitInit (capacity requestPerSecond : ℚ) (now : ℕ) : RateLimit :=
  ⟨capacity, capacity, requestPerSecond, now⟩

/-- `request_allow`; the clock is read twice. -/
def requestAllow (rate : RateLimit) (now now' : ℕ) : Bool × RateLimit :=
  let timeElapsed : ℚ := (((now + 2 ^ 64 - rate.lastRequestMs) % 2 ^ 64 : ℕ) : ℚ) / 1000
  let available := rate.numberRequestAvailable + timeElapsed * rate.requestPerSecond
  let available := if available > rate.capacity then rate.capacity else available
  if available < 1 then
    (false, { rate with numberRequestAvailable := available, lastRequestMs := now' })
  else
    (true, { rate with numberRequestAvailable := available - 1, lastRequestMs := now' })

def rateLimitCap : ℚ := 100
def rateLimitRefillSec : ℚ := 50

/-! ### Clients -/

inductive ReadStage
  | readHeader
  | readPayload
  | readCrc
  deriving DecidableEq, Repr

/-- `struct data_transmit`: the bytes of a message and how many of them
have been sent. -/
structure DataTransmit where
  data : List UInt8
  offset : ℕ
  deriving DecidableEq, Repr

abbrev TxMem := Mem Addr DataTransmit

/-- `struct client`; the peer's address is kept for the log only and is
left out, and so is the lock. The generation is a counter of 64 bits. -/
structure Client where
  fd : ℤ
  generation : ℕ
  alive : Bool
  rate : RateLimit
  stage : ReadStage
  dataReceive : Buf
  rxLen : ℕ
  tail : Option Addr
  head : Option Addr
  bytesNeedToSend : ℕ
  lastActiveMs : ℕ
  ssl : Option Ssl
  tlsHandshakeDone : Bool
  tlsReadPending : Bool

abbrev Clients := ℕ → Client

/-- A slot after `clients_init`, in a `memset` server. -/
def clientsInit : Client where
  fd := -1
  generation := 0
  alive := false
  rate := rateLimitInit rateLimitCap rateLimitRefillSec 0
  stage := .readHeader
  dataReceive := fun _ => 0
  rxLen := 0
  tail := none
  head := none
  bytesNeedToSend := 0
  lastActiveMs := 0
  ssl := none
  tlsHandshakeDone := false
  tlsReadPending := false

/-- The state `client_alloc` puts a slot into. The receive buffer keeps
what it held. -/
def Client.occupy (c : Client) (fd : ℤ) (now : ℕ) : Client :=
  { c with
    fd := fd
    lastActiveMs := now
    generation := c.generation + 1
    rxLen := 0
    stage := .readHeader
    tail := none
    head := none
    bytesNeedToSend := 0
    ssl := none
    tlsHandshakeDone := false
    tlsReadPending := false
    rate := rateLimitInit rateLimitCap rateLimitRefillSec now
    alive := true }

def freeSlot (clients : Clients) (maxClients : ℕ) : Option ℕ :=
  (List.range maxClients).find? fun i => (clients i).fd = -1

/-- `fd_to_slot`; `none` is the value `-1`. -/
def fdToSlot (clients : Clients) (clientFd : ℤ) (maxClient : ℕ) : Option ℕ :=
  if clientFd < 0 then none
  else (List.range maxClient).find? fun i => (clients i).alive && (clients i).fd = clientFd

/-- The state `close_client` leaves a slot in. Generation, stage, receive
buffer and token bucket stay. -/
def Client.vacate (c : Client) : Client :=
  { c with
    fd := if 0 ≤ c.fd then -1 else c.fd
    ssl := none
    alive := false
    head := none
    tail := none
    bytesNeedToSend := 0
    rxLen := 0 }

/-- `close_client`; the descriptor leaves the interest list with its
`close`. -/
def closeClient (clients : Clients) (ep : Epoll) (slot : ℕ) : Clients × Epoll :=
  (Function.update clients slot (clients slot).vacate,
    if 0 ≤ (clients slot).fd then epollClose ep (clients slot).fd else ep)

def checkResponseMessage (response : Response) (client : Client) : Bool :=
  client.generation = response.generation

/-- `packet_response_message`; a response whose payload is too long for a
packet is not sent. -/
def packetResponseMessage (response : Response) : Option (List UInt8) :=
  if response.payload.length ≤ maxPayload then
    some (packet response.type response.requestId response.payload)
  else none

/-- `build_task`, when the allocation succeeds. -/
def buildTask (client : Client) (header : HeaderPacket) (slot : ℕ) (now : ℕ) : Task where
  slot := slot
  generation := client.generation
  type := header.type
  requestId := header.requestId
  timeoutMs := now + requestTimeoutMs
  length := header.length.toNat
  payload :=
    if 0 < header.length.toNat ∧ header.length.toNat ≤ maxPayload then
      slice client.dataReceive headerSize header.length.toNat
    else []

/-! ### The table

The facts about slots that the rest uses. -/

theorem freeSlot_spec {clients : Clients} {n slot : ℕ} (h : freeSlot clients n = some slot) :
    slot < n ∧ (clients slot).fd = -1 := by
  refine ⟨List.mem_range.mp (List.mem_of_find?_eq_some h), ?_⟩
  simpa using List.find?_some h

theorem fdToSlot_spec {clients : Clients} {fd : ℤ} {n slot : ℕ}
    (h : fdToSlot clients fd n = some slot) :
    0 ≤ fd ∧ slot < n ∧ (clients slot).alive = true ∧ (clients slot).fd = fd := by
  unfold fdToSlot at h
  split at h
  · cases h
  · have hp := List.find?_some h
    simp only [Bool.and_eq_true, decide_eq_true_eq] at hp
    exact ⟨by omega, List.mem_range.mp (List.mem_of_find?_eq_some h), hp.1, hp.2⟩

theorem exists_fdToSlot {clients : Clients} {n i : ℕ} (hi : i < n)
    (halive : (clients i).alive = true) (hfd : 0 ≤ (clients i).fd) :
    ∃ slot, fdToSlot clients (clients i).fd n = some slot := by
  unfold fdToSlot
  rw [if_neg (by omega), ← Option.isSome_iff_exists, List.find?_isSome]
  exact ⟨i, List.mem_range.mpr hi, by simp [halive]⟩

/-- The search sees nothing of a client but its descriptor and whether it
is alive. -/
theorem fdToSlot_congr {clients clients' : Clients} (fd : ℤ) (n : ℕ)
    (h : ∀ i, (clients' i).alive = (clients i).alive ∧ (clients' i).fd = (clients i).fd) :
    fdToSlot clients' fd n = fdToSlot clients fd n := by
  unfold fdToSlot
  simp only [fun i => (h i).1, fun i => (h i).2]

end LinuxMiniProjects.Gateway
