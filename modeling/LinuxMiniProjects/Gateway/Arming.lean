import LinuxMiniProjects.Gateway.Routing

/-!
Whoever has something to send is watched for writability.

The interest in a descriptor is changed at six places: when a client is
accepted, during and at the end of its handshake, when an error packet or
a response is queued, by the flush and by its caller. `Armed` is the
invariant that should survive all of them: a client with a nonempty
transmit queue has finished its handshake and is registered for
`EPOLLOUT`. It does, with one exception. If `SSL_write` waits for input,
the flush registers `EPOLLIN` alone, and that is wrong when there is a
second message in the queue.
-/

namespace LinuxMiniProjects.Gateway

open Machine LinkedList

/-! ### The invariant -/

def Writable (ep : Epoll) (fd : ℤ) : Prop := ∃ event ∈ ep fd, event.epollout = true

def Client.Armed (ep : Epoll) (c : Client) : Prop :=
  c.alive = true → c.head ≠ none → c.tlsHandshakeDone = true ∧ Writable ep c.fd

/-- Alive clients have descriptors, and no two clients share one. -/
structure Server.Table (sv : Server) : Prop where
  alive : ∀ i, (sv.clients i).alive = true → 0 ≤ (sv.clients i).fd
  distinct : ∀ i j, 0 ≤ (sv.clients i).fd → (sv.clients i).fd = (sv.clients j).fd → i = j
  beyond : ∀ i, maxClients ≤ i → (sv.clients i).fd < 0

structure Server.Armed (sv : Server) : Prop where
  table : sv.Table
  short : ∀ a, (sv.mem a).val.data.length < 2 ^ 31
  clients : ∀ i, (sv.clients i).Armed sv.epoll

theorem Server.Table.of_local {slot : ℕ} {sv sv' : Server} (h : sv.Table) (hl : Local slot sv sv')
    (hc : (sv.clients slot).Continues (sv'.clients slot)) : sv'.Table := by
  have hfd : ∀ i, 0 ≤ (sv'.clients i).fd → (sv'.clients i).fd = (sv.clients i).fd := by
    intro i hi
    by_cases his : i = slot
    · subst his
      exact hc.fd hi
    · rw [hl.clients i his]
  refine ⟨fun i halive => ?_, fun i j hi hij => ?_, fun i hi => ?_⟩
  · by_cases his : i = slot
    · subst his
      obtain ⟨halive', hfd'⟩ := hc.alive halive
      rw [hfd']
      exact h.alive i halive'
    · rw [hl.clients i his] at halive ⊢
      exact h.alive i halive
  · have hj : 0 ≤ (sv'.clients j).fd := by omega
    rw [hfd i hi, hfd j hj] at hij
    exact h.distinct i j (by rw [← hfd i hi]; exact hi) hij
  · by_contra hneg
    have := h.beyond i hi
    have := hfd i (by omega)
    omega

theorem Server.Armed.of_local {slot : ℕ} {sv sv' : Server} (h : sv.Armed) (hl : Local slot sv sv')
    (hc : (sv.clients slot).Continues (sv'.clients slot))
    (hshort : ∀ a, (sv'.mem a).val.data.length < 2 ^ 31)
    (harmed : (sv'.clients slot).Armed sv'.epoll) : sv'.Armed := by
  refine ⟨h.table.of_local hl hc, hshort, fun i => ?_⟩
  by_cases hi : i = slot
  · rw [hi]
    exact harmed
  · rw [hl.clients i hi]
    intro halive hhead
    obtain ⟨hdone, hwritable⟩ := h.clients i halive hhead
    refine ⟨hdone, ?_⟩
    have hne : (sv.clients i).fd ≠ (sv.clients slot).fd := fun heq =>
      hi (h.table.distinct i slot (h.table.alive i halive) heq)
    rwa [Writable, hl.epoll _ hne]

/-! ### Moves -/

theorem Client.Armed.congr {ep : Epoll} {c c' : Client} (h : c.Armed ep) (hfd : c'.fd = c.fd)
    (halive : c'.alive = c.alive) (hhead : c'.head = c.head)
    (hdone : c'.tlsHandshakeDone = c.tlsHandshakeDone) : c'.Armed ep := by
  unfold Client.Armed
  rwa [hfd, halive, hhead, hdone]

theorem Client.Armed.head_eq_none {ep : Epoll} {c : Client} (h : c.Armed ep)
    (halive : c.alive = true) (hdone : c.tlsHandshakeDone = false) : c.head = none := by
  by_contra hhead
  rw [(h halive hhead).1] at hdone
  cases hdone

theorem writable_epollMod (ep : Epoll) (fd : ℤ) : Writable (epollMod ep epollInOut fd) fd :=
  ⟨epollInOut, Function.update_self .., rfl⟩

theorem Client.armed_vacate (ep : Epoll) (c : Client) : c.vacate.Armed ep := nofun

theorem enqueue_data_length {sv : Server} (h : ∀ a, (sv.mem a).val.data.length < 2 ^ 31)
    (slot : ℕ) (node : Option Addr) {data : List UInt8} (hdata : data.length < 2 ^ 31) (a : Addr) :
    ((sv.enqueue slot node data).mem a).val.data.length < 2 ^ 31 := by
  have halloc : ∀ b, ((sv.mem.alloc b ⟨data, 0⟩ : TxMem) a).val.data.length < 2 ^ 31 := by
    intro b
    by_cases hab : a = b
    · subst hab
      simpa using hdata
    · rw [Mem.val_alloc_of_ne _ _ hab]
      exact h a
  simp only [Server.enqueue, enqueueMessage]
  cases node with
  | none => exact h a
  | some b =>
      cases (sv.clients slot).tail with
      | none => exact halloc b
      | some t =>
          dsimp only
          rw [Mem.val_setLink]
          exact halloc b

theorem Move.short {slot : ℕ} {sv sv' : Server} (hmove : Move slot sv sv')
    (h : ∀ a, (sv.mem a).val.data.length < 2 ^ 31) :
    ∀ a, (sv'.mem a).val.data.length < 2 ^ 31 := by
  cases hmove with
  | post node data _ hdata =>
      have hle : packetSize maxPayload < 2 ^ 31 := by decide
      exact enqueue_data_length h slot node (hdata.trans_lt hle)
  | _ => exact h

theorem Move.client_armed {slot : ℕ} {sv sv' : Server} (hmove : Move slot sv sv')
    (h : (sv.clients slot).Armed sv.epoll) : (sv'.clients slot).Armed sv'.epoll := by
  cases hmove with
  | close =>
      rw [sv.close_self]
      exact Client.armed_vacate _ _
  | interest event hdone =>
      intro halive hhead
      exact absurd (h.head_eq_none halive hdone) hhead
  | handshook hdone =>
      simp only [Server.interest, Server.setClient_self]
      intro halive hhead
      exact absurd (h.head_eq_none halive hdone) hhead
  | newSsl | spend rate | discard =>
      rw [sv.setClient_self]
      exact h.congr rfl rfl rfl rfl
  | read env _ h₂ =>
      obtain ⟨hsame, halive⟩ := clientReadMessage_frame env sv.clients slot
      rw [sv.setClient_self]
      exact h.congr hsame.fd (halive h₂) hsame.head hsame.tlsHandshakeDone
  | readClose env =>
      rw [Server.close_self]
      exact Client.armed_vacate _ _
  | post node data hdone _ =>
      have hsame := enqueue_sameButTx sv slot node data
      intro _ _
      refine ⟨?_, writable_epollMod _ _⟩
      rw [show ((sv.enqueue slot node data).interest slot epollInOut).clients =
        (sv.enqueue slot node data).clients from rfl, hsame]
      exact hdone

theorem Moves.armed {sv sv' : Server} (h : Moves sv sv') (harmed : sv.Armed) : sv'.Armed :=
  h.invariant (I := Server.Armed) (fun _ _ _ hmove ih =>
    ih.of_local hmove.isLocal hmove.continues (hmove.short ih.short)
      (hmove.client_armed (ih.clients _))) harmed

/-! ### Taking a slot and sending -/

def Server.FreshFd (sv : Server) (fd : ℤ) : Prop := ∀ i < maxClients, (sv.clients i).fd ≠ fd

theorem Server.Armed.occupy {sv : Server} (h : sv.Armed) {slot : ℕ}
    (hslot : freeSlot sv.clients maxClients = some slot) {fd : ℤ} (hfd : 0 ≤ fd)
    (hfresh : sv.FreshFd fd) (now : ℕ) : (sv.occupy slot fd now).Armed := by
  obtain ⟨hlt, -⟩ := freeSlot_spec hslot
  have hself := sv.occupy_self slot fd now
  have hother : ∀ i, i ≠ slot → (sv.occupy slot fd now).clients i = sv.clients i :=
    fun i hi => sv.occupy_of_ne hi fd now
  have hnew : ∀ i, i ≠ slot → (sv.clients i).fd ≠ fd := by
    intro i _
    by_cases hi : i < maxClients
    · exact hfresh i hi
    · have := h.table.beyond i (by omega)
      omega
  refine ⟨⟨fun i halive => ?_, fun i j hi hij => ?_, fun i hi => ?_⟩, h.short, fun i => ?_⟩
  · by_cases his : i = slot
    · rw [his, hself]
      exact hfd
    · rw [hother i his] at halive ⊢
      exact h.table.alive i halive
  · by_cases his : i = slot <;> by_cases hjs : j = slot
    · rw [his, hjs]
    · rw [his, hself, hother j hjs] at hij
      exact absurd hij.symm (hnew j hjs)
    · rw [hjs, hself, hother i his] at hij
      exact absurd hij (hnew i his)
    · rw [hother i his] at hi hij
      rw [hother j hjs] at hij
      exact h.table.distinct i j hi hij
  · rw [hother i (by omega)]
    exact h.table.beyond i hi
  · by_cases his : i = slot
    · rw [his, hself]
      exact fun _ hhead => absurd rfl hhead
    · rw [hother i his]
      exact h.clients i

/-- If `SSL_write` reports at once that it waits for input, there is no
second message. -/
def Server.FlushOk (sv : Server) (slot : ℕ) (script : List WriteRes) : Prop :=
  ∀ a ∈ (sv.clients slot).head, script.head? = some .wantRead → (sv.mem a).link = none

/-- A flush empties the queue, waits for the socket to become writable, or
ends the connection. -/
theorem Server.FlushOk.flushed {sv : Server} {slot : ℕ} {script : List WriteRes}
    (hok : sv.FlushOk slot script) (hshort : ∀ a, (sv.mem a).val.data.length < 2 ^ 31) (now : ℕ) :
    ((sv.flush slot script now).2.clients slot).head = none ∨
      (sv.flush slot script now).1 = -1 ∨ (sv.flush slot script now).1 = 2 ∨
      (sv.flush slot script now).1 = 1 ∧
        (sv.flush slot script now).2.epoll = epollMod sv.epoll epollInOut (sv.clients slot).fd := by
  simp only [Server.flush, Function.update_self]
  cases hhead : (sv.clients slot).head with
  | none =>
      left
      simp only [clientFlushTxTls, dequeueMessage, hhead]
  | some a =>
      have hrest : (sv.mem a).val.rest.length < 2 ^ 31 := by
        have := hshort a
        rw [DataTransmit.rest, List.length_drop]
        omega
      cases clientFlushTxTls_flushed sv.epoll script now hhead hrest with
      | closed ret => exact .inr (ret.imp_right .inl)
      | sent ret head => exact .inl head
      | armed ret epoll => exact .inr (.inr (.inr ⟨ret, epoll⟩))
      | wantRead ret first head => exact .inl (head.trans (hok a hhead first))

theorem Server.send_mem (sv : Server) (slot : ℕ) (clientFd : ℤ) (env : SendEnv) :
    (sv.send slot clientFd env).mem = (sv.flush slot env.script env.now).2.mem := by
  unfold Server.send
  dsimp only
  split_ifs <;> rfl

theorem Server.Armed.send {sv : Server} (h : sv.Armed) {slot : ℕ} {env : SendEnv}
    (hdone : (sv.clients slot).tlsHandshakeDone = true) (hok : sv.FlushOk slot env.script) :
    (sv.send slot (sv.clients slot).fd env).Armed := by
  have hframe := clientFlushTxTls_frame sv.mem (sv.clients slot) sv.epoll env.script env.now
  refine h.of_local (sv.send_isLocal slot env) (sv.send_continues slot _ env) ?_ ?_
  · intro a
    rw [sv.send_mem, show ((sv.flush slot env.script env.now).2.mem a).val.data = _ from
      hframe.data a]
    exact h.short a
  · have hend := hok.flushed h.short env.now
    have hsame := sv.flush_sameButTx slot env.script env.now
    unfold Server.send
    dsimp only
    split_ifs with hneg htwo hone
    · rw [Server.close_self]
      exact Client.armed_vacate _ _
    · rw [Server.close_self]
      exact Client.armed_vacate _ _
    · intro _ hhead
      obtain hnone | hret | hret | ⟨-, hepoll⟩ := hend
      · exact absurd hnone hhead
      · omega
      · omega
      · rw [hepoll, hsame]
        exact ⟨hdone, writable_epollMod _ _⟩
    · -- the flush has returned zero
      intro _ hhead
      obtain hnone | hret | hret | ⟨hret, -⟩ := hend
      · exact absurd hnone hhead
      · omega
      · omega
      · omega

/-! ### Whole runs -/

/-- The descriptor `handle_client_sendable` is called for. -/
def MainPc.flushFd : MainPc → Option ℤ
  | .sendable fd _ _ _ => some fd
  | _ => none

def Label.acceptedFd : Label → Option ℤ
  | .main (.accept env) => some env.clientFd
  | _ => none

def Label.script : Label → Option (List WriteRes)
  | .main (.send env) => some env.script
  | _ => none

def AcceptsFresh (s : Sys) (l : Label) : Prop :=
  ∀ fd ∈ l.acceptedFd, 0 ≤ fd → s.sv.FreshFd fd

/-- No flush is told to wait for input while a second message is
queued. -/
def FlushesOk (s : Sys) (l : Label) : Prop :=
  ∀ script ∈ l.script, ∀ fd ∈ s.main.flushFd, ∀ slot ∈ fdToSlot s.sv.clients fd maxClients,
    s.sv.FlushOk slot script

instance (sv : Server) (fd : ℤ) : Decidable (sv.FreshFd fd) :=
  inferInstanceAs (Decidable (∀ i < maxClients, (sv.clients i).fd ≠ fd))

instance (sv : Server) (slot : ℕ) (script : List WriteRes) : Decidable (sv.FlushOk slot script) :=
  inferInstanceAs (Decidable (∀ a ∈ (sv.clients slot).head,
    script.head? = some .wantRead → (sv.mem a).link = none))

instance (s : Sys) (l : Label) : Decidable (AcceptsFresh s l) :=
  inferInstanceAs (Decidable (∀ fd ∈ l.acceptedFd, 0 ≤ fd → s.sv.FreshFd fd))

instance (s : Sys) (l : Label) : Decidable (FlushesOk s l) :=
  inferInstanceAs (Decidable (∀ script ∈ l.script, ∀ fd ∈ s.main.flushFd,
    ∀ slot ∈ fdToSlot s.sv.clients fd maxClients, s.sv.FlushOk slot script))

theorem Served.armed {s : Sys} {l : Label} {sv' : Server} (hs : Served s l sv')
    (h : s.sv.Armed) (hfresh : AcceptsFresh s l) (hok : FlushesOk s l) : sv'.Armed := by
  cases hs with
  | moves hmoves => exact hmoves.armed h
  | accept env slot free fd hmoves =>
      exact hmoves.armed (h.occupy free fd (hfresh env.clientFd rfl fd) env.now)
  | send env clientFd pc slot found done =>
      obtain ⟨-, -, -, rfl⟩ := fdToSlot_spec found
      exact h.send done (hok env.script rfl _ (by rw [pc]; rfl) slot found)

theorem Server.Armed.arrive {sv : Server} (h : sv.Armed) (slot : ℕ) (item : SockItem) :
    (sv.arrive slot item).Armed := by
  refine h.of_local (sv.arrive_isLocal slot item) (sv.arrive_continues slot item) h.short ?_
  rw [Server.arrive, sv.setClient_self]
  exact (h.clients slot).congr rfl rfl rfl rfl

theorem armed_step {s s' : Sys} {l : Label} (h : s.sv.Armed) (hrouted : Routed s)
    (hs : Trans s l s') (hfresh : AcceptsFresh s l) (hok : FlushesOk s l) : s'.sv.Armed := by
  cases hs with
  | main sv' hsv pc hpc => exact hsv.armed h hfresh hok
  | pushTask sv' hsv pc hpc t ht => exact hsv.armed h
  | deliver es hpc frame rp rest hpop data hdata a =>
      have hmem : (frame, rp) ∈ s.responses := by simp [hpop]
      exact (hrouted.respond_move hmem hdata a).moves.armed h
  | network slot item => exact h.arrive slot item
  | _ => exact h

theorem armed_init : Sys.init.sv.Armed where
  table := ⟨nofun, fun _ _ h => absurd h (by simp [Sys.init, clientsInit]),
    fun _ _ => by simp [Sys.init, clientsInit]⟩
  short _ := by simp [Sys.init]
  clients _ := nofun

/-- **Arming.** If no flush is told to wait for input while a second
message is queued, then in every reachable state, and in particular when
the main thread is about to block, an alive client that has something to
send is registered for `EPOLLOUT`. -/
theorem writers_are_armed {s : Sys}
    (h : Reachable step (fun s l => AcceptsFresh s l ∧ FlushesOk s l) Sys.init s) (i : ℕ)
    (halive : (s.sv.clients i).alive = true) (hhead : (s.sv.clients i).head ≠ none) :
    Writable s.sv.epoll (s.sv.clients i).fd := by
  have hinv : Routed s ∧ s.sv.Armed := by
    refine h.invariant (I := fun s => Routed s ∧ s.sv.Armed) ⟨routed_init, armed_init⟩ ?_
    rintro s l s' ⟨hrouted, harmed⟩ ⟨hfresh, hok⟩ hstep
    exact ⟨hrouted.step (step_trans hstep),
      armed_step harmed hrouted (step_trans hstep) hfresh hok⟩
  exact (hinv.2.clients i halive hhead).2

/-! Two requests of a client are answered, and both responses are queued
when the socket becomes writable. -/

def twoAnswers : List Label :=
  let status := fun requestId => (recordOf (packet msgStatus requestId [])).map (Label.arrive 0)
  connects 7 ++ status 1 ++ handles 7 epollIn none [] ++ status 2 ++ handles 7 epollIn none [] ++
    works 0 ++ [.worker 0 .notify] ++ works 0 ++
    [.worker 0 .notify, .main (.wake [.eventFd]), .main .readEventFd,
      .main (.popResponse (some 1)), .main (.popResponse (some 2)), .main (.popResponse none),
      .main (.reap 0)]

def epollOut : EpollMask := ⟨false, true, false, false⟩

theorem writers_are_armed_twoAnswers :
    ∃ s, Reachable step (fun s l => AcceptsFresh s l ∧ FlushesOk s l) Sys.init s ∧
      s.main = .wait ∧ (s.sv.clients 0).head = some 2 ∧
      Writable s.sv.epoll (s.sv.clients 0).fd := by
  have hrun : (runs (guarded step fun s l => AcceptsFresh s l ∧ FlushesOk s l) Sys.init
      (twoAnswers ++ handles 7 epollOut none [.wantWrite])).map
      (fun s => (s.main, (s.sv.clients 0).alive, (s.sv.clients 0).head)) =
        some (.wait, true, some 2) := by decide +kernel
  obtain ⟨s, hreach, hobs⟩ := Reachable.exists_of_runs hrun
  simp only [Prod.mk.injEq] at hobs
  exact ⟨s, hreach, hobs.1, hobs.2.2,
    writers_are_armed hreach 0 hobs.2.1 (by rw [hobs.2.2]; exact Option.some_ne_none 2)⟩

/-- The flush is told to wait for input. The second response stays in the
queue, and nobody waits for the socket to become writable. -/
theorem writer_not_armed_twoAnswers :
    ∃ s, Reachable step AcceptsFresh Sys.init s ∧ s.main = .wait ∧
      (s.sv.clients 0).alive = true ∧ (s.sv.clients 0).tlsHandshakeDone = true ∧
      (s.sv.clients 0).head ≠ none ∧ ¬ Writable s.sv.epoll (s.sv.clients 0).fd := by
  have hrun : (runs (guarded step AcceptsFresh) Sys.init
      (twoAnswers ++ handles 7 epollOut none [.wantRead])).map
      (fun s => (s.main, (s.sv.clients 0).alive, (s.sv.clients 0).tlsHandshakeDone,
        (s.sv.clients 0).head, s.sv.epoll (s.sv.clients 0).fd)) =
        some (.wait, true, true, some 2, some epollIn) := by decide +kernel
  obtain ⟨s, hreach, hobs⟩ := Reachable.exists_of_runs hrun
  simp only [Prod.mk.injEq] at hobs
  obtain ⟨hwait, halive, hdone, hhead, hepoll⟩ := hobs
  refine ⟨s, hreach, hwait, halive, hdone, ?_, ?_⟩
  · rw [hhead]
    exact Option.some_ne_none 2
  · rintro ⟨event, hevent, hout⟩
    rw [hepoll, Option.mem_some_iff] at hevent
    subst hevent
    cases hout

end LinuxMiniProjects.Gateway
