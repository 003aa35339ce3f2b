import LinuxMiniProjects.Gateway.Transmit
import LinuxMiniProjects.Gateway.Reader

/-!
The handlers of the main thread (`server.c`): what it does when the
listening socket, the event descriptor or a client becomes ready.

The state they work on is `Server`: the client table, the cells of the
transmit queues and the interest list of the epoll instance. Everything
that comes from outside — what `accept4` and `SSL_do_handshake` return,
what `SSL_write` takes, what the clock shows, whether `malloc` succeeds —
is an argument. The values the handlers return are left out, since the
main thread does not look at them; and so is `handle_discovery`, which
touches nothing of this.

`conn` is not in the source. It counts connections: `conn i` is the
number of the accept that slot `i` was last taken for, which is what the
generation of a slot is meant to tell apart.
-/

namespace LinuxMiniProjects.Gateway

open LinkedList

structure Server where
  clients : Clients
  mem : TxMem
  epoll : Epoll
  conn : ℕ → ℕ
  accepts : ℕ

def Server.setClient (sv : Server) (slot : ℕ) (c : Client) : Server :=
  { sv with clients := Function.update sv.clients slot c }

@[simp] theorem Server.setClient_self (sv : Server) (slot : ℕ) (c : Client) :
    (sv.setClient slot c).clients slot = c := Function.update_self ..

theorem Server.setClient_of_ne (sv : Server) {slot j : ℕ} (h : j ≠ slot) (c : Client) :
    (sv.setClient slot c).clients j = sv.clients j := Function.update_of_ne h ..

def Server.close (sv : Server) (slot : ℕ) : Server :=
  { sv with
    clients := (closeClient sv.clients sv.epoll slot).1
    epoll := (closeClient sv.clients sv.epoll slot).2 }

@[simp] theorem Server.close_self (sv : Server) (slot : ℕ) :
    (sv.close slot).clients slot = (sv.clients slot).vacate := Function.update_self ..

theorem Server.close_of_ne (sv : Server) {slot j : ℕ} (h : j ≠ slot) :
    (sv.close slot).clients j = sv.clients j := Function.update_of_ne h ..

/-- `epoll_mod` for the descriptor of a slot. -/
def Server.interest (sv : Server) (slot : ℕ) (event : EpollMask) : Server :=
  { sv with epoll := epollMod sv.epoll event (sv.clients slot).fd }

/-- `enqueue_message`, with the node `malloc` returns. -/
def Server.enqueue (sv : Server) (slot : ℕ) (node : Option Addr) (data : List UInt8) : Server :=
  { sv with
    mem := (enqueueMessage sv.mem (sv.clients slot) node data).2.1
    clients := Function.update sv.clients slot
      (enqueueMessage sv.mem (sv.clients slot) node data).2.2 }

@[simp] theorem Server.enqueue_self (sv : Server) (slot : ℕ) (node : Option Addr)
    (data : List UInt8) : (sv.enqueue slot node data).clients slot =
      (enqueueMessage sv.mem (sv.clients slot) node data).2.2 := Function.update_self ..

/-- The messages in the transmit queue of a slot, as far as they have not
been sent. -/
def Server.Queued (sv : Server) (slot : ℕ) (msgs : List (List UInt8)) : Prop :=
  ∃ xs, Queue sv.mem.links (sv.clients slot).head (sv.clients slot).tail xs ∧
    xs.map (fun a => (sv.mem a).val.rest) = msgs

def Server.FreshNode (sv : Server) (i : ℕ) (a : Addr) : Prop :=
  ∀ xs, Chain sv.mem.links (sv.clients i).head xs → a ∉ xs

theorem Server.queued_nil {sv : Server} {slot : ℕ} (h : (sv.clients slot).head = none)
    (h' : (sv.clients slot).tail = none) : sv.Queued slot [] :=
  ⟨[], ⟨h, h'⟩, rfl⟩

def Server.arrive (sv : Server) (slot : ℕ) (item : SockItem) : Server :=
  sv.setClient slot { sv.clients slot with
    ssl := (sv.clients slot).ssl.map fun ssl => { ssl with kernel := ssl.kernel ++ [item] } }

/-! ### The handshake -/

inductive Handshake
  | done
  | wantRead
  | wantWrite
  | failed
  deriving DecidableEq, Repr

def tlsTryHandshake (sv : Server) (slot : ℕ) : Handshake → Server
  | .done =>
      (sv.setClient slot { sv.clients slot with tlsHandshakeDone := true }).interest slot epollIn
  | .wantRead => sv.interest slot epollIn
  | .wantWrite => sv.interest slot epollInOut
  | .failed => sv.close slot

/-! ### `handle_accept_client` -/

/-- The surroundings of an accept: the descriptor, negative if `accept4`
fails, and what the calls behind it come to. -/
structure AcceptEnv where
  clientFd : ℤ
  now : ℕ
  epollAddOk : Bool
  sslNewOk : Bool
  sslSetFdOk : Bool
  handshake : Handshake

def Server.occupy (sv : Server) (slot : ℕ) (fd : ℤ) (now : ℕ) : Server :=
  { sv with
    clients := Function.update sv.clients slot ((sv.clients slot).occupy fd now)
    conn := Function.update sv.conn slot (sv.accepts + 1)
    accepts := sv.accepts + 1 }

@[simp] theorem Server.occupy_self (sv : Server) (slot : ℕ) (fd : ℤ) (now : ℕ) :
    (sv.occupy slot fd now).clients slot = (sv.clients slot).occupy fd now :=
  Function.update_self ..

theorem Server.occupy_of_ne (sv : Server) {slot j : ℕ} (h : j ≠ slot) (fd : ℤ) (now : ℕ) :
    (sv.occupy slot fd now).clients j = sv.clients j := Function.update_of_ne h ..

def handleAcceptClient (sv : Server) (env : AcceptEnv) : Server :=
  if env.clientFd < 0 then sv
  else
    match freeSlot sv.clients maxClients with
    | none => sv
    | some slot =>
        let sv := sv.occupy slot env.clientFd env.now
        if env.epollAddOk = false then sv.close slot
        else
          let sv := sv.interest slot epollIn
          if env.sslNewOk = false then sv.close slot
          else
            let sv := sv.setClient slot { sv.clients slot with ssl := some ⟨[], [], 0⟩ }
            if env.sslSetFdOk = false then sv.close slot
            else tlsTryHandshake sv slot env.handshake

/-! ### `handle_request_client` -/

def discardLoop : ℕ → Ssl → Ssl
  | 0, ssl => ssl
  | fuel + 1, ssl =>
      match sslRead ssl 512 with
      | (.data [], ssl) => ssl
      | (.data (_ :: _), ssl) => discardLoop fuel ssl
      | (.err _, ssl) => ssl

def Client.discard (c : Client) : Client :=
  { c with ssl := c.ssl.map fun ssl => discardLoop (ssl.weight + 1) ssl }

/-- The surroundings of a request: the handshake, the two clock readings
of `request_allow`, the call of `client_read_message`, and the node for an
error packet. -/
structure RequestEnv where
  handshake : Handshake
  now : ℕ
  now' : ℕ
  read : ReadEnv
  node : Option Addr

/-- What `client_read_message` does with an error packet. The result of
`enqueue_message` is not looked at. -/
def Server.emit (sv : Server) (slot : ℕ) (node : Option Addr) : ReaderOut → Server
  | .packet bs => (sv.enqueue slot node bs).interest slot epollInOut
  | .push _ => sv
  | .nothing => sv

def Server.allow (sv : Server) (slot : ℕ) (env : RequestEnv) : Bool × Server :=
  let res := requestAllow (sv.clients slot).rate env.now env.now'
  (res.1, sv.setClient slot { sv.clients slot with rate := res.2 })

/-- What happens to a request that is allowed: the server afterwards and
what the reader has handed on. -/
def Server.read (sv : Server) (slot : ℕ) (env : RequestEnv) : ReaderOut × Server :=
  let call := clientReadMessage sv.clients slot env.read
  let sv := (sv.setClient slot call.client).emit slot env.node call.out
  (call.out, if call.ret = -1 ∨ call.ret = 1 then sv.close slot else sv)

def handleRequestClient (sv : Server) (clientFd : ℤ) (env : RequestEnv) : ReaderOut × Server :=
  match fdToSlot sv.clients clientFd maxClients with
  | none => (.nothing, sv)
  | some slot =>
      if (sv.clients slot).alive = false then (.nothing, sv)
      else if (sv.clients slot).tlsHandshakeDone = false then
        (.nothing, tlsTryHandshake sv slot env.handshake)
      else
        let (allow, sv) := sv.allow slot env
        if allow = false then (.nothing, sv.setClient slot (sv.clients slot).discard)
        else sv.read slot env

inductive Requested (sv : Server) (clientFd : ℤ) (env : RequestEnv) : ReaderOut × Server → Prop
  | unknown (h : fdToSlot sv.clients clientFd maxClients = none) :
      Requested sv clientFd env (.nothing, sv)
  | handshake (slot : ℕ) (h : fdToSlot sv.clients clientFd maxClients = some slot)
      (done : (sv.clients slot).tlsHandshakeDone = false) :
      Requested sv clientFd env (.nothing, tlsTryHandshake sv slot env.handshake)
  | denied (slot : ℕ) (h : fdToSlot sv.clients clientFd maxClients = some slot)
      (done : (sv.clients slot).tlsHandshakeDone = true) (deny : (sv.allow slot env).1 = false) :
      Requested sv clientFd env (.nothing,
        (sv.allow slot env).2.setClient slot ((sv.allow slot env).2.clients slot).discard)
  | allowed (slot : ℕ) (h : fdToSlot sv.clients clientFd maxClients = some slot)
      (done : (sv.clients slot).tlsHandshakeDone = true) :
      Requested sv clientFd env ((sv.allow slot env).2.read slot env)

theorem handleRequestClient_spec (sv : Server) (clientFd : ℤ) (env : RequestEnv) :
    Requested sv clientFd env (handleRequestClient sv clientFd env) := by
  unfold handleRequestClient
  split
  next h => exact .unknown h
  next slot h =>
    rw [if_neg (by simp [(fdToSlot_spec h).2.2.1])]
    split
    next hdone => exact .handshake slot h hdone
    next hdone =>
      rw [Bool.not_eq_false] at hdone
      dsimp only
      split
      next hdeny => exact .denied slot h hdone hdeny
      next => exact .allowed slot h hdone

theorem fdToSlot_setClient (sv : Server) {slot : ℕ} {c : Client} (hfd : c.fd = (sv.clients slot).fd)
    (halive : c.alive = (sv.clients slot).alive) (fd : ℤ) (n : ℕ) :
    fdToSlot (sv.setClient slot c).clients fd n = fdToSlot sv.clients fd n := by
  refine fdToSlot_congr fd n fun j => ?_
  by_cases hj : j = slot
  · subst hj
    simp [hfd, halive]
  · simp [sv.setClient_of_ne hj]

/-- A task that a request pushes was built for the slot, the generation
and the header of the client. -/
theorem Server.read_push {sv : Server} {slot : ℕ} {env : RequestEnv} {t : Task}
    (hslot : fdToSlot sv.clients (sv.clients slot).fd maxClients = some slot)
    (h : (sv.read slot env).1 = .push t) :
    t.slot = slot ∧ t.generation = ((sv.read slot env).2.clients slot).generation ∧
      t.requestId =
        (decodeHeader ((sv.read slot env).2.clients slot).dataReceive).requestId := by
  have hout : (clientReadMessage sv.clients slot env.read).out = .push t := h
  have hhands := clientReadMessage_handsOn sv.clients slot env.read
  rw [hout] at hhands
  obtain ⟨hret, hfound, hgen, hid⟩ := hhands
  have hopen : ¬ ((clientReadMessage sv.clients slot env.read).ret = -1 ∨
      (clientReadMessage sv.clients slot env.read).ret = 1) := by omega
  have hclient : (sv.read slot env).2.clients slot =
      (clientReadMessage sv.clients slot env.read).client := by
    simp only [Server.read, if_neg hopen, hout, Server.emit, Server.setClient_self]
  rw [hslot, Option.some.injEq] at hfound
  rw [hclient]
  exact ⟨hfound.symm, hgen, hid⟩

theorem handleRequestClient_push {sv : Server} {clientFd : ℤ} {env : RequestEnv} {t : Task}
    (h : (handleRequestClient sv clientFd env).1 = .push t) :
    fdToSlot sv.clients clientFd maxClients = some t.slot ∧
      (sv.clients t.slot).tlsHandshakeDone = true ∧
      t.generation = ((handleRequestClient sv clientFd env).2.clients t.slot).generation ∧
      t.requestId = (decodeHeader
        ((handleRequestClient sv clientFd env).2.clients t.slot).dataReceive).requestId := by
  have hspec := handleRequestClient_spec sv clientFd env
  generalize handleRequestClient sv clientFd env = res at h hspec
  cases hspec with
  | unknown h' => cases h
  | handshake slot h' done => cases h
  | denied slot h' done deny => cases h
  | allowed slot h' done =>
      have hfound : fdToSlot (sv.allow slot env).2.clients
          ((sv.allow slot env).2.clients slot).fd maxClients = some slot := by
        simp only [Server.allow, Server.setClient_self]
        refine (fdToSlot_setClient sv ?_ ?_ _ _).trans ?_
        · rfl
        · rfl
        · rw [(fdToSlot_spec h').2.2.2, h']
      obtain ⟨rfl, hgen, hid⟩ := Server.read_push hfound h
      exact ⟨h', done, hgen, hid⟩

/-! ### `handle_client_sendable` -/

structure SendEnv where
  handshake : Handshake
  script : List WriteRes
  now : ℕ

/-- `client_flush_tx_tls` for a slot. -/
def Server.flush (sv : Server) (slot : ℕ) (script : List WriteRes) (now : ℕ) : ℤ × Server :=
  let f := clientFlushTxTls sv.mem (sv.clients slot) sv.epoll script now
  (f.ret, { sv with
    clients := Function.update sv.clients slot f.client
    mem := f.mem
    epoll := f.epoll })

@[simp] theorem Server.flush_self (sv : Server) (slot : ℕ) (script : List WriteRes) (now : ℕ) :
    (sv.flush slot script now).2.clients slot =
      (clientFlushTxTls sv.mem (sv.clients slot) sv.epoll script now).client :=
  Function.update_self ..

/-- The part of `handle_client_sendable` behind the handshake. -/
def Server.send (sv : Server) (slot : ℕ) (clientFd : ℤ) (env : SendEnv) : Server :=
  let (ret, sv) := sv.flush slot env.script env.now
  if ret < 0 then sv.close slot
  else if ret = 2 then sv.close slot
  else if ret = 1 then sv
  else { sv with epoll := epollMod sv.epoll epollIn clientFd }

def handleClientSendable (sv : Server) (clientFd : ℤ) (env : SendEnv) : Server :=
  match fdToSlot sv.clients clientFd maxClients with
  | none => sv
  | some slot =>
      if (sv.clients slot).alive = false then sv
      else if (sv.clients slot).tlsHandshakeDone = false then
        tlsTryHandshake sv slot env.handshake
      else sv.send slot clientFd env

/-! ### `handle_response_to_client` -/

/-- The bytes enqueued for a response, if it is for a connection that is
still there. -/
def Server.accepted (sv : Server) (rp : Response) : Option (List UInt8) :=
  if maxClients ≤ rp.slot then none
  else if (sv.clients rp.slot).alive && checkResponseMessage rp (sv.clients rp.slot) then
    packetResponseMessage rp
  else none

/-- One turn of the loop of `handle_response_to_client`, for the response
that was popped; `node` is `none` if an allocation fails. -/
def Server.respond (sv : Server) (rp : Response) (node : Option Addr) : Server :=
  match sv.accepted rp, node with
  | some data, some a => (sv.enqueue rp.slot (some a) data).interest rp.slot epollInOut
  | some _, none => sv
  | none, _ => sv

/-- The body of the loop of `reap_client`; the difference of the clock
readings is a 64-bit number. -/
def Server.reapSlot (sv : Server) (now : ℕ) (i : ℕ) : Server :=
  let c := sv.clients i
  if 0 ≤ c.fd ∧ c.alive = false then sv.close i
  else if c.fd < 0 then sv
  else if idleTimeoutSec < (now + 2 ^ 64 - c.lastActiveMs) % 2 ^ 64 / 1000 then sv.close i
  else sv

def reapClient (sv : Server) (now : ℕ) : Server :=
  (List.range maxClients).foldl (fun sv i => sv.reapSlot now i) sv

end LinuxMiniProjects.Gateway
