import Mathlib.Logic.Relation
import LinuxMiniProjects.Gateway.Server

/-!
What the handlers of the main thread can do to the server.

Every handler is a sequence of a few moves, each of which concerns one
slot: it is closed, the interest in its descriptor changes, its handshake
ends, a token is spent, input is read or thrown away, a message is
queued. `Move` lists them together with what is known where they happen,
and `Moves` is a sequence of them. An invariant of the server is then
proved once for each move and never by going through the handlers. Two
things are no moves, since invariants depend on what the environment does
there: taking a slot (`Server.occupy`) and sending (`Server.send`).
-/

namespace LinuxMiniProjects.Gateway

open Relation LinkedList

/-! ### Moves -/

inductive Move (slot : ℕ) (sv : Server) : Server → Prop
  | close : Move slot sv (sv.close slot)
  /-- The interest changes during the handshake. -/
  | interest (event : EpollMask) (h : (sv.clients slot).tlsHandshakeDone = false) :
      Move slot sv (sv.interest slot event)
  | handshook (h : (sv.clients slot).tlsHandshakeDone = false) :
      Move slot sv
        ((sv.setClient slot { sv.clients slot with tlsHandshakeDone := true }).interest slot
          epollIn)
  | newSsl : Move slot sv (sv.setClient slot { sv.clients slot with ssl := some ⟨[], [], 0⟩ })
  | spend (rate : RateLimit) :
      Move slot sv (sv.setClient slot { sv.clients slot with rate := rate })
  | discard : Move slot sv (sv.setClient slot (sv.clients slot).discard)
  | read (env : ReadEnv) (h₁ : (clientReadMessage sv.clients slot env).ret ≠ -1)
      (h₂ : (clientReadMessage sv.clients slot env).ret ≠ 1) :
      Move slot sv (sv.setClient slot (clientReadMessage sv.clients slot env).client)
  /-- The reader fails or finds the end of the stream. -/
  | readClose (env : ReadEnv) :
      Move slot sv ((sv.setClient slot (clientReadMessage sv.clients slot env).client).close slot)
  /-- A message is queued for a client that has finished its handshake. -/
  | post (node : Option Addr) (data : List UInt8)
      (h : (sv.clients slot).tlsHandshakeDone = true)
      (hdata : data.length ≤ packetSize maxPayload) :
      Move slot sv ((sv.enqueue slot node data).interest slot epollInOut)

abbrev Moves : Server → Server → Prop := ReflTransGen fun sv sv' => ∃ slot, Move slot sv sv'

theorem Move.moves {slot : ℕ} {sv sv' : Server} (h : Move slot sv sv') : Moves sv sv' :=
  .single ⟨slot, h⟩

theorem Moves.invariant {I : Server → Prop} {sv sv' : Server} (h : Moves sv sv')
    (hmove : ∀ slot sv sv', Move slot sv sv' → I sv → I sv') (hI : I sv) : I sv' := by
  induction h with
  | refl => exact hI
  | tail _ hstep ih =>
      obtain ⟨slot, hmove'⟩ := hstep
      exact hmove slot _ _ hmove' ih

/-! ### What a move leaves alone -/

/-- Nothing changes but the slot, the interest in its descriptor and the
nodes of messages. -/
structure Local (slot : ℕ) (sv sv' : Server) : Prop where
  clients : ∀ j, j ≠ slot → sv'.clients j = sv.clients j
  conn : sv'.conn = sv.conn
  epoll : ∀ fd, fd ≠ (sv.clients slot).fd → sv'.epoll fd = sv.epoll fd

theorem Local.setClient (sv : Server) (slot : ℕ) (c : Client) :
    Local slot sv (sv.setClient slot c) :=
  ⟨fun _ hj => sv.setClient_of_ne hj c, rfl, fun _ _ => rfl⟩

theorem Local.interest (sv : Server) (slot : ℕ) (event : EpollMask) :
    Local slot sv (sv.interest slot event) :=
  ⟨fun _ _ => rfl, rfl, fun _ hfd => epollMod_of_ne sv.epoll event hfd⟩

theorem Local.enqueue (sv : Server) (slot : ℕ) (node : Option Addr) (data : List UInt8) :
    Local slot sv (sv.enqueue slot node data) :=
  ⟨fun _ hj => Function.update_of_ne hj _ _, rfl, fun _ _ => rfl⟩

theorem Local.close (sv : Server) (slot : ℕ) : Local slot sv (sv.close slot) := by
  refine ⟨fun j hj => sv.close_of_ne hj, rfl, fun fd hfd => ?_⟩
  simp only [Server.close, closeClient]
  split
  · exact Function.update_of_ne hfd _ _
  · rfl

theorem Local.trans {slot : ℕ} {sv sv' sv'' : Server} (h : Local slot sv sv')
    (h' : Local slot sv' sv'') (hfd : (sv'.clients slot).fd = (sv.clients slot).fd) :
    Local slot sv sv'' where
  clients j hj := (h'.clients j hj).trans (h.clients j hj)
  conn := h'.conn.trans h.conn
  epoll fd hne := (h'.epoll fd (by rwa [hfd])).trans (h.epoll fd hne)

theorem enqueue_sameButTx (sv : Server) (slot : ℕ) (node : Option Addr) (data : List UInt8) :
    (sv.clients slot).SameButTx ((sv.enqueue slot node data).clients slot) := by
  rw [sv.enqueue_self]
  exact enqueueMessage_sameButTx sv.mem (sv.clients slot) node data

theorem Client.SameButTx.fd_eq {c c' : Client} (h : c.SameButTx c') : c'.fd = c.fd := by rw [h]

theorem Move.isLocal {slot : ℕ} {sv sv' : Server} (h : Move slot sv sv') : Local slot sv sv' := by
  cases h with
  | close => exact .close sv slot
  | interest event h => exact .interest sv slot event
  | handshook h =>
      exact (Local.setClient sv slot _).trans (.interest _ slot epollIn) (by rw [sv.setClient_self])
  | readClose env =>
      refine (Local.setClient sv slot _).trans (.close _ slot) ?_
      rw [sv.setClient_self, (clientReadMessage_frame env sv.clients slot).1.fd]
  | post node data h hdata =>
      exact (Local.enqueue sv slot node data).trans (.interest _ slot epollInOut)
        (enqueue_sameButTx sv slot node data).fd_eq
  | _ => exact .setClient sv slot _

structure Client.Continues (c c' : Client) : Prop where
  generation : c'.generation = c.generation
  fd : 0 ≤ c'.fd → c'.fd = c.fd
  alive : c'.alive = true → c.alive = true ∧ c'.fd = c.fd
  handshake : c.tlsHandshakeDone = true → c'.tlsHandshakeDone = true

theorem Client.Continues.of_eq {c c' : Client} (hgen : c'.generation = c.generation)
    (hfd : c'.fd = c.fd) (halive : c'.alive = c.alive)
    (hdone : c.tlsHandshakeDone = true → c'.tlsHandshakeDone = true) : c.Continues c' :=
  ⟨hgen, fun _ => hfd, fun h => ⟨halive ▸ h, hfd⟩, hdone⟩

theorem Client.SameButTx.continues {c c' : Client} (h : c.SameButTx c') : c.Continues c' := by
  rw [h]
  exact .of_eq rfl rfl rfl id

theorem Client.Continues.vacate {c c' : Client} (hgen : c'.generation = c.generation)
    (hdone : c'.tlsHandshakeDone = c.tlsHandshakeDone) : c.Continues c'.vacate where
  generation := hgen
  fd h := by
    simp only [Client.vacate] at h
    split at h <;> omega
  alive h := by cases h
  handshake h := hdone.trans h

theorem Move.continues {slot : ℕ} {sv sv' : Server} (h : Move slot sv sv') :
    (sv.clients slot).Continues (sv'.clients slot) := by
  cases h with
  | close =>
      rw [sv.close_self]
      exact .vacate rfl rfl
  | interest event h => exact .of_eq rfl rfl rfl id
  | handshook h =>
      simp only [Server.interest, Server.setClient_self]
      exact .of_eq rfl rfl rfl fun _ => rfl
  | newSsl | spend rate | discard =>
      rw [sv.setClient_self]
      exact .of_eq rfl rfl rfl id
  | read env h₁ h₂ =>
      obtain ⟨hsame, halive⟩ := clientReadMessage_frame env sv.clients slot
      rw [sv.setClient_self]
      exact .of_eq hsame.generation hsame.fd (halive h₂) fun h => hsame.tlsHandshakeDone.trans h
  | readClose env =>
      obtain ⟨hsame, -⟩ := clientReadMessage_frame env sv.clients slot
      rw [Server.close_self, sv.setClient_self]
      exact .vacate hsame.generation hsame.tlsHandshakeDone
  | post node data h hdata => exact (enqueue_sameButTx sv slot node data).continues

theorem Moves.handshake {sv sv' : Server} {i : ℕ} (h : Moves sv sv')
    (hdone : (sv.clients i).tlsHandshakeDone = true) :
    (sv'.clients i).tlsHandshakeDone = true := by
  refine h.invariant (I := fun sv => (sv.clients i).tlsHandshakeDone = true) ?_ hdone
  intro slot sv sv' hmove hdone
  by_cases hi : i = slot
  · subst hi
    exact hmove.continues.handshake hdone
  · rwa [hmove.isLocal.clients i hi]

/-! ### Input and output -/

theorem Server.arrive_isLocal (sv : Server) (slot : ℕ) (item : SockItem) :
    Local slot sv (sv.arrive slot item) := .setClient sv slot _

theorem Server.arrive_continues (sv : Server) (slot : ℕ) (item : SockItem) :
    (sv.clients slot).Continues ((sv.arrive slot item).clients slot) := by
  rw [Server.arrive, sv.setClient_self]
  exact .of_eq rfl rfl rfl id

theorem Server.flush_sameButTx (sv : Server) (slot : ℕ) (script : List WriteRes) (now : ℕ) :
    (sv.clients slot).SameButTx ((sv.flush slot script now).2.clients slot) := by
  rw [sv.flush_self]
  exact (clientFlushTxTls_frame sv.mem (sv.clients slot) sv.epoll script now).same

theorem Server.flush_isLocal (sv : Server) (slot : ℕ) (script : List WriteRes) (now : ℕ) :
    Local slot sv (sv.flush slot script now).2 where
  clients _ hj := Function.update_of_ne hj _ _
  conn := rfl
  epoll := (clientFlushTxTls_frame sv.mem (sv.clients slot) sv.epoll script now).epoll

theorem Server.send_isLocal (sv : Server) (slot : ℕ) (env : SendEnv) :
    Local slot sv (sv.send slot (sv.clients slot).fd env) := by
  have hflush := sv.flush_isLocal slot env.script env.now
  have hfd := (sv.flush_sameButTx slot env.script env.now).fd_eq
  unfold Server.send
  dsimp only
  split_ifs
  · exact hflush.trans (.close _ slot) hfd
  · exact hflush.trans (.close _ slot) hfd
  · exact hflush
  · rw [← hfd]
    exact hflush.trans (.interest _ slot epollIn) hfd

theorem Server.send_continues (sv : Server) (slot : ℕ) (clientFd : ℤ) (env : SendEnv) :
    (sv.clients slot).Continues ((sv.send slot clientFd env).clients slot) := by
  have hsame := sv.flush_sameButTx slot env.script env.now
  have hclose : (sv.clients slot).Continues
      (((sv.flush slot env.script env.now).2.close slot).clients slot) := by
    rw [Server.close_self]
    exact .vacate (by rw [hsame]) (by rw [hsame])
  unfold Server.send
  dsimp only
  split_ifs
  · exact hclose
  · exact hclose
  · exact hsame.continues
  · exact hsame.continues

/-! ### The handlers -/

theorem tlsTryHandshake_moves {sv : Server} {slot : ℕ}
    (h : (sv.clients slot).tlsHandshakeDone = false) (res : Handshake) :
    Moves sv (tlsTryHandshake sv slot res) := by
  cases res with
  | done => exact (Move.handshook h).moves
  | wantRead => exact (Move.interest epollIn h).moves
  | wantWrite => exact (Move.interest epollInOut h).moves
  | failed => exact Move.close.moves

theorem handleAcceptClient_moves (sv : Server) (env : AcceptEnv) :
    handleAcceptClient sv env = sv ∨
      ∃ slot, freeSlot sv.clients maxClients = some slot ∧ 0 ≤ env.clientFd ∧
        Moves (sv.occupy slot env.clientFd env.now) (handleAcceptClient sv env) := by
  unfold handleAcceptClient
  split
  next => exact .inl rfl
  next hfd =>
    split
    next => exact .inl rfl
    next slot hslot =>
      refine .inr ⟨slot, hslot, by omega, ?_⟩
      have hdone :
          ((sv.occupy slot env.clientFd env.now).clients slot).tlsHandshakeDone = false := by
        rw [sv.occupy_self]
        rfl
      generalize sv.occupy slot env.clientFd env.now = sv at hdone
      dsimp only
      split
      · exact Move.close.moves
      refine (Move.interest epollIn hdone).moves.trans ?_
      have hdone : ((sv.interest slot epollIn).clients slot).tlsHandshakeDone = false := hdone
      generalize sv.interest slot epollIn = sv at hdone
      split
      · exact Move.close.moves
      have hnew :
          Move slot sv (sv.setClient slot { sv.clients slot with ssl := some ⟨[], [], 0⟩ }) :=
        .newSsl
      refine hnew.moves.trans ?_
      have hdone : ((sv.setClient slot { sv.clients slot with ssl := some ⟨[], [], 0⟩ }).clients
          slot).tlsHandshakeDone = false := by rwa [sv.setClient_self]
      split
      · exact Move.close.moves
      · exact tlsTryHandshake_moves hdone env.handshake

theorem length_buildErrorPacket_le (requestId : UInt32) (e : ErrCode) :
    (buildErrorPacket requestId e).length ≤ packetSize maxPayload := by
  rw [buildErrorPacket, length_packet, List.length_singleton]
  decide

theorem Server.read_moves {sv : Server} {slot : ℕ}
    (h : (sv.clients slot).tlsHandshakeDone = true) (env : RequestEnv) :
    Moves sv (sv.read slot env).2 := by
  have hhands := clientReadMessage_handsOn sv.clients slot env.read
  obtain ⟨hsame, -⟩ := clientReadMessage_frame env.read sv.clients slot
  unfold Server.read
  dsimp only
  split
  next hret =>
    -- a call that ends the connection hands nothing on
    have hout : (clientReadMessage sv.clients slot env.read).out = .nothing := by
      cases hout : (clientReadMessage sv.clients slot env.read).out with
      | nothing => rfl
      | push t =>
          rw [hout] at hhands
          obtain ⟨h₀, -⟩ := hhands
          omega
      | packet bs =>
          rw [hout] at hhands
          obtain ⟨h₂, -⟩ := hhands
          omega
    rw [hout]
    exact (Move.readClose env.read).moves
  next hret =>
    rw [not_or] at hret
    refine (Move.read env.read hret.1 hret.2).moves.trans ?_
    cases hout : (clientReadMessage sv.clients slot env.read).out with
    | nothing => exact .refl
    | push t => exact .refl
    | packet bs =>
        rw [hout] at hhands
        obtain ⟨-, requestId, e, rfl⟩ := hhands
        refine (Move.post env.node _ ?_ (length_buildErrorPacket_le requestId e)).moves
        rw [sv.setClient_self, hsame.tlsHandshakeDone, h]

theorem handleRequestClient_moves (sv : Server) (clientFd : ℤ) (env : RequestEnv) :
    Moves sv (handleRequestClient sv clientFd env).2 := by
  have hspec := handleRequestClient_spec sv clientFd env
  generalize handleRequestClient sv clientFd env = res at hspec
  cases hspec with
  | unknown h => exact .refl
  | handshake slot h done => exact tlsTryHandshake_moves done env.handshake
  | denied slot h done deny => exact (Move.spend _).moves.trans Move.discard.moves
  | allowed slot h done =>
      refine (Move.spend _).moves.trans (Server.read_moves ?_ env)
      rw [sv.setClient_self]
      exact done

theorem handleClientSendable_moves (sv : Server) (clientFd : ℤ) (env : SendEnv) :
    Moves sv (handleClientSendable sv clientFd env) ∨
      ∃ slot, fdToSlot sv.clients clientFd maxClients = some slot ∧
        (sv.clients slot).tlsHandshakeDone = true ∧
        handleClientSendable sv clientFd env = sv.send slot clientFd env := by
  unfold handleClientSendable
  split
  next => exact .inl .refl
  next slot h =>
    split
    next => exact .inl .refl
    next =>
      split
      next hdone => exact .inl (tlsTryHandshake_moves hdone env.handshake)
      next hdone => exact .inr ⟨slot, h, by simpa using hdone, rfl⟩

theorem Server.reapSlot_moves (sv : Server) (now i : ℕ) : Moves sv (sv.reapSlot now i) := by
  unfold Server.reapSlot
  dsimp only
  split
  · exact Move.close.moves
  split
  · exact .refl
  split
  · exact Move.close.moves
  · exact .refl

theorem reapClient_moves (sv : Server) (now : ℕ) : Moves sv (reapClient sv now) := by
  unfold reapClient
  induction List.range maxClients generalizing sv with
  | nil => exact .refl
  | cons i is ih => exact (sv.reapSlot_moves now i).trans (ih (sv.reapSlot now i))

end LinuxMiniProjects.Gateway
