import LinuxMiniProjects.ControlPlane.InFlight
import LinuxMiniProjects.ControlPlane.Stream

/-!
Connections and their number.

`num_clients` counts the slots that are connected. `handle_accept` sets
up the slot and counts it, and only then registers the descriptor with
`epoll`; `reap_closed_clients` is the only place that uncounts one. In
between nothing changes a connection, so that the count is right as long
as every registration succeeds. One that fails closes the descriptor and
leaves the slot connected and counted: nobody ever hears of it again, and
when the kernel hands out the same descriptor the slot is counted twice.

`epoll` is put beside the server as a history, the set of descriptors in
its interest list.
-/

namespace LinuxMiniProjects.ControlPlane

open Socket Machine

/-! ### The interest list -/

/-- The calls of `epoll_ctl` and `close` in a step. A descriptor that is
closed leaves the list by itself. -/
def watchStep (s : Sys) (l : Label) (watched : ℕ → Bool) : ℕ → Bool :=
  match l, s.io with
  | .io (.accept fd registered), _ =>
      if fdSetsize ≤ fd then watched else Function.update watched fd registered
  | .io .next, .closing fd =>
      if 0 ≤ (s.clients fd).fd then Function.update watched (s.clients fd).fd.toNat false
      else watched
  | _, _ => watched

abbrev WatchedSys := Sys × (ℕ → Bool)

def WatchedSys.step : WatchedSys → Label → Option WatchedSys := observed Sys.step watchStep

def WatchedSys.init : WatchedSys := (Sys.init, fun _ => false)

def Sys.numConnected (s : Sys) : ℕ :=
  numAt Client.connected fun fd : Fin fdSetsize => s.clients fd

/-! ### What a step does to the connections -/

structure Sys.SameConnections (s s' : Sys) : Prop where
  connected : ∀ fd, (s'.clients fd).connected = (s.clients fd).connected
  isOpen : s'.isOpen = s.isOpen
  numClients : s'.numClients = s.numClients

section Steps

variable {s s' : Sys}

theorem Sys.SameConnections.of_clients (hclients : s'.clients = s.clients)
    (hopen : s'.isOpen = s.isOpen) (hnum : s'.numClients = s.numClients) : s.SameConnections s' :=
  ⟨fun fd => by rw [hclients], hopen, hnum⟩

theorem Sys.SameConnections.goto (io : IoPc) : s.SameConnections (s.goto io) :=
  .of_clients rfl rfl rfl

theorem Sys.SameConnections.edit {fd : ℕ} {c : Client}
    (hclients : s'.clients = Function.update s.clients fd c)
    (hc : c.connected = (s.clients fd).connected) (hopen : s'.isOpen = s.isOpen)
    (hnum : s'.numClients = s.numClients) : s.SameConnections s' where
  connected := fun k => by
    rw [hclients]
    by_cases hk : k = fd
    · subst hk
      rw [Function.update_self, hc]
    · rw [Function.update_of_ne hk]
  isOpen := hopen
  numClients := hnum

theorem Sys.SameConnections.dispatch (events : List EpollEvent) (e : EpollEvent)
    (rest : List EpollEvent) : s.SameConnections (s.dispatch events e rest) := by
  obtain ⟨io, -, heq⟩ | ⟨fd, mark, io, -, -, heq⟩ := s.dispatch_cases events e rest
  · exact heq ▸ .goto _
  · rw [heq]
    exact .edit rfl rfl rfl rfl

theorem Sys.SameConnections.writable (events : List EpollEvent) (fd : ℕ)
    (rest : List EpollEvent) : s.SameConnections (s.writable events fd rest) := by
  simp only [Sys.writable]
  split
  · exact .goto _
  · exact .edit rfl rfl rfl rfl

theorem Sys.SameConnections.sendChunk (events : List EpollEvent) (fd offset : ℕ)
    (rest : List EpollEvent) (res : SendRes) :
    s.SameConnections (s.sendChunk events fd offset rest res) := by
  simp only [Sys.sendChunk]
  split
  · exact .of_clients rfl rfl rfl
  · exact .edit rfl rfl rfl rfl
  · exact .edit rfl rfl rfl rfl
  · exact .edit rfl rfl rfl rfl

theorem Sys.SameConnections.readable (e : EpollEvent) (rest : List EpollEvent) :
    s.SameConnections (s.readable e rest) := by
  obtain ⟨io, -, heq⟩ := s.readable_goto e rest
  exact heq ▸ .goto io

theorem Sys.SameConnections.recvTurn (fd : ℕ) (rest : List EpollEvent) (res : RecvRes) :
    s.SameConnections (s.recvTurn fd rest res) := by
  refine .edit rfl ?_ rfl rfl
  rcases (s.clients fd).readTurn_cases res with ⟨-, -, inbox, received, hc⟩ | ⟨-, inbox, mark, hc⟩
  · rw [hc]
  · rw [hc]

theorem Sys.SameConnections.reapCheck (fd : ℕ) : s.SameConnections (s.reapCheck fd) := by
  obtain ⟨io, -, heq⟩ := s.reapCheck_goto fd
  exact heq ▸ .goto io

theorem Sys.SameConnections.sendFarewell (fd sentTotal : ℕ) (res : SendRes) :
    s.SameConnections (s.sendFarewell fd sentTotal res) := by
  simp only [Sys.sendFarewell]
  split
  · exact .of_clients rfl rfl rfl
  · exact .of_clients rfl rfl rfl

theorem Sys.SameConnections.process {w : Fin 4} {task : Task} (h : s.ProcessStep w task s') :
    s.SameConnections s' := by
  obtain ⟨c, hclients, hedited, -⟩ := h.clients
  obtain ⟨-, -, hopen, -, -, hnum⟩ := h.frame
  exact .edit hclients hedited.connected hopen hnum

/-- **What a step does to the connections**: it accepts one, it closes one,
or it leaves them and `epoll` alone. -/
theorem Sys.Step.connections {l : Label} (h : s.Step l s') :
    (∃ fd registered, l = .io (.accept fd registered) ∧ fd < fdSetsize ∧
      s.isOpen fd = false ∧ s' = s.accept fd registered) ∨
    (∃ fd, l = .io .next ∧ s.io = .closing fd ∧ s' = s.reapClose fd) ∨
    s.SameConnections s' ∧ ∀ watched, watchStep s l watched = watched := by
  cases h with
  | lock start | wake waiting => exact .inr (.inr ⟨.of_clients rfl rfl rfl, fun _ => rfl⟩)
  | process busy free => exact .inr (.inr ⟨.process (s.process_inv _ _), fun _ => rfl⟩)
  | sig step =>
      refine .inr (.inr ⟨?_, fun _ => rfl⟩)
      cases step with
      | sendFarewell pc ok => exact .sendFarewell _ _ _
      | _ => exact .of_clients rfl rfl rfl
  | io step =>
      cases step with
      | @accept events rest fd registered pc closed =>
          by_cases hlt : fdSetsize ≤ fd
          · refine .inr (.inr ⟨?_, fun _ => if_pos hlt⟩)
            rw [Sys.accept, if_pos hlt]
            exact .of_clients rfl rfl rfl
          · exact .inl ⟨fd, registered, rfl, by omega, closed, rfl⟩
      | reapClose pc => exact .inr (.inl ⟨_, rfl, pc, rfl⟩)
      | dispatch pc =>
          exact .inr (.inr ⟨.dispatch _ _ _, fun _ => by simp only [watchStep, pc]⟩)
      | writable pc =>
          exact .inr (.inr ⟨.writable _ _ _, fun _ => by simp only [watchStep, pc]⟩)
      | readable pc =>
          exact .inr (.inr ⟨.readable _ _, fun _ => by simp only [watchStep, pc]⟩)
      | reapCheck pc marked =>
          exact .inr (.inr ⟨.reapCheck _, fun _ => by simp only [watchStep, pc]⟩)
      | sendChunk pc ok => exact .inr (.inr ⟨.sendChunk _ _ _ _ _, fun _ => rfl⟩)
      | recv pc unmarked ok => exact .inr (.inr ⟨.recvTurn _ _ _, fun _ => rfl⟩)
      | enqueue pc eq =>
          obtain ⟨sched, io, -, rfl⟩ := Sys.enqueue_cases eq
          exact .inr (.inr ⟨.of_clients rfl rfl rfl, fun _ => rfl⟩)
      | nack pc | refused pc | busy pc =>
          exact .inr (.inr ⟨.edit rfl rfl rfl rfl, fun _ => by simp only [watchStep, pc]⟩)
      | timeout pc | poll pc | pollEintr pc | pollError pc | acceptNone pc | scan pc =>
          exact .inr (.inr ⟨.goto _, fun _ => rfl⟩)
      | top pc | polled pc | dispatched pc | readLock pc | readDone pc | readClosing pc
      | reapLock pc | reaped pc =>
          exact .inr (.inr ⟨.goto _, fun _ => by simp only [watchStep, pc]⟩)

end Steps

/-! ### The account -/

/-- The connections are counted, and their descriptors are open and watched. -/
structure Sys.Counted (s : Sys) (watched : ℕ → Bool) : Prop where
  accounts : s.Accounts
  count : s.numClients = s.numConnected
  opened : ∀ fd, (s.clients fd).connected = true → s.isOpen fd = true
  watched : watched = s.isOpen

def Label.registers : Label → Bool
  | .io (.accept fd registered) => decide (fdSetsize ≤ fd) || registered
  | _ => true

theorem Sys.Counted.init : Sys.init.Counted fun _ => false where
  accounts := .init
  count := by
    have hzero : Sys.init.numConnected = 0 := numAt_eq_zero fun _ => rfl
    rw [hzero]
    rfl
  opened := fun fd h => by cases h
  watched := rfl

section Account

variable {s : Sys}

theorem Sys.numConnected_setClient {fd : ℕ} (hlt : fd < fdSetsize) (c : Client) :
    (s.setClient fd c).numConnected + (s.clients fd).connected.toNat =
      s.numConnected + c.connected.toNat := by
  have hupdate : (fun k : Fin fdSetsize => Function.update s.clients fd c k) =
      Function.update (fun k : Fin fdSetsize => s.clients k) ⟨fd, hlt⟩ c := by
    funext k
    by_cases hk : k = ⟨fd, hlt⟩
    · subst hk
      simp
    · rw [Function.update_of_ne hk, Function.update_of_ne fun h => hk (Fin.ext h)]
  have hcount := numAt_update Client.connected (fun k : Fin fdSetsize => s.clients k) ⟨fd, hlt⟩ c
  rwa [← hupdate] at hcount

theorem Sys.SameConnections.numConnected {s' : Sys} (h : s.SameConnections s') :
    s'.numConnected = s.numConnected := by
  simp only [Sys.numConnected, numAt, h.connected]

variable {watched : ℕ → Bool}

theorem Sys.Counted.accept (h : s.Counted watched) {events rest : List EpollEvent}
    (hpc : s.io = .accepting events rest) {fd : ℕ} (hlt : fd < fdSetsize)
    (hclosed : s.isOpen fd = false) :
    (s.accept fd true).Counted (Function.update watched fd true) := by
  have hfree : (s.clients fd).connected = false := by
    by_contra hconn
    rw [h.opened fd (by simpa using hconn)] at hclosed
    cases hclosed
  have hnum := s.numConnected_setClient hlt
    { initClient (s.nextClientId + 1) ((s.clients fd).generation + 1) with
      fd := fd, connected := true }
  rw [hfree, Bool.toNat_false, Bool.toNat_true, Nat.add_zero] at hnum
  have haccounts := h.accounts.accept hpc hclosed true
  have heq : s.accept fd true = _ := if_neg (show ¬ fdSetsize ≤ fd by omega)
  rw [heq] at haccounts ⊢
  refine ⟨haccounts, ?_, fun k hk => ?_, ?_⟩
  · show s.numClients + 1 = ((s.setClient fd _).numConnected : ℤ)
    rw [hnum, h.count]
    rfl
  · by_cases hkf : k = fd
    · subst hkf
      exact Function.update_self ..
    · simp only [Sys.setClient, Function.update_of_ne hkf] at hk ⊢
      exact h.opened k hk
  · rw [h.watched]
    rfl

theorem Sys.Counted.reapClose (h : s.Counted watched) {fd : ℕ} (hpc : s.io = .closing fd) :
    (s.reapClose fd).Counted (watchStep s (.io .next) watched) := by
  obtain ⟨-, hconn⟩ := h.accounts.closing fd hpc
  obtain ⟨hfd, hlt⟩ := h.accounts.slot fd hconn
  have hnum := s.numConnected_setClient hlt { s.clients fd with
    fd := -1, connected := false, pendingClose := false, session := none }
  dsimp only at hnum
  rw [hconn, Bool.toNat_true, Bool.toNat_false, Nat.add_zero] at hnum
  have hcount := h.count
  refine ⟨h.accounts.reapClose hpc, ?_, fun k hk => ?_, ?_⟩
  · show (if 0 < s.numClients then s.numClients - 1 else s.numClients) =
      ((s.setClient fd _).numConnected : ℤ)
    rw [if_pos (by omega)]
    omega
  · simp only [Sys.reapClose, Sys.setClient, hfd, Int.natCast_nonneg, if_true,
      Int.toNat_natCast] at hk ⊢
    by_cases hkf : k = fd
    · subst hkf
      rw [Function.update_self] at hk
      cases hk
    · rw [Function.update_of_ne hkf] at hk ⊢
      exact h.opened k hk
  · simp only [watchStep, hpc, Sys.reapClose, h.watched]

theorem Sys.Counted.step (h : s.Counted watched) {l : Label} {s' : Sys}
    (hok : l.registers = true) (hs : s.step l = some s') :
    s'.Counted (watchStep s l watched) := by
  have haccounts := h.accounts.step hs
  have hstep := Sys.step_inv hs
  obtain ⟨fd, registered, rfl, hlt, hclosed, rfl⟩ | ⟨fd, rfl, hpc, rfl⟩ | ⟨hsame, hwatch⟩ :=
    hstep.connections
  · have hnot : ¬ fdSetsize ≤ fd := by omega
    obtain rfl : registered = true := by simpa [Label.registers, hnot] using hok
    obtain ⟨events, rest, hpc⟩ : ∃ events rest, s.io = .accepting events rest := by
      cases hstep with
      | io step =>
          cases step with
          | accept pc closed => exact ⟨_, _, pc⟩
    rw [show watchStep s (.io (.accept fd true)) watched = _ from if_neg hnot]
    exact h.accept hpc hlt hclosed
  · exact h.reapClose hpc
  · rw [hwatch watched]
    refine ⟨haccounts, ?_, fun fd hfd => ?_, ?_⟩
    · rw [hsame.numClients, hsame.numConnected]
      exact h.count
    · rw [hsame.isOpen]
      exact h.opened fd (hsame.connected fd ▸ hfd)
    · rw [hsame.isOpen]
      exact h.watched

end Account

/-- **Connections are counted.** As long as every registration with `epoll`
succeeds, in every state `num_clients` is the number of slots that are
connected, and the descriptor of each of these is open and watched by
`epoll`. -/
theorem connections_counted {x : WatchedSys}
    (hx : Reachable WatchedSys.step (fun _ l => l.registers = true) WatchedSys.init x) :
    x.1.numClients = x.1.numConnected ∧
    ∀ fd, (x.1.clients fd).connected = true →
      (x.1.clients fd).fd = fd ∧ x.1.isOpen fd = true ∧ x.2 fd = true := by
  have h : x.1.Counted x.2 := by
    refine hx.invariant (I := fun x => x.1.Counted x.2) .init fun x l x' h hok hs => ?_
    obtain ⟨hstep, hwatched⟩ := observed_inv hs
    rw [hwatched]
    exact h.step hok hstep
  refine ⟨h.count, fun fd hfd => ?_⟩
  have hopen := h.opened fd hfd
  exact ⟨(h.accounts.slot fd hfd).1, hopen, by rw [h.watched, hopen]⟩

structure SlotLook where
  numClients : ℤ
  numConnected : ℕ
  connected : Bool
  isOpen : Bool
  watched : Bool
deriving DecidableEq

def WatchedSys.look (fd : ℕ) (x : WatchedSys) : SlotLook where
  numClients := x.1.numClients
  numConnected := x.1.numConnected
  connected := (x.1.clients fd).connected
  isOpen := x.1.isOpen fd
  watched := x.2 fd

def connectHangUpConnect : List Label :=
  List.flatten [acceptOn 5,
    [.io (.poll [.client 5 ⟨false, false, true⟩, .listen true]), .io .next, .io .next,
      .io .next, .io (.accept 6 true), .io .acceptNone, .io .next, .io .next, .io .next, .io .next,
      .io .next, .io .next, .io (.scan 5), .io .next, .io .next]]

theorem connections_counted_connectHangUpConnect :
    ∃ x : WatchedSys,
      Reachable WatchedSys.step (fun _ l => l.registers = true) WatchedSys.init x ∧
      (x.1.clients 6).connected = true ∧ x.1.numClients = 1 ∧ x.1.numConnected = 1 ∧
      x.1.isOpen 6 = true ∧ x.2 6 = true := by
  have hrun : (runs (guarded WatchedSys.step fun _ l => l.registers = true) WatchedSys.init
      connectHangUpConnect).map (WatchedSys.look 6) = some ⟨1, 1, true, true, true⟩ := by
    decide +kernel
  obtain ⟨x, hreach, hlook⟩ := Reachable.exists_of_runs hrun
  obtain ⟨hnum, hcount, hconn, -, -⟩ := SlotLook.mk.injEq .. ▸ hlook
  obtain ⟨-, hconnections⟩ := connections_counted hreach
  obtain ⟨-, hopen, hwatched⟩ := hconnections 6 hconn
  exact ⟨x, hreach, hconn, hnum, hcount, hopen, hwatched⟩

/-- No weaker condition on the steps would do: a registration that fails
leaves a slot behind that is connected, on a descriptor that is closed. -/
theorem Sys.not_counted_unregistered (s : Sys) {fd : ℕ} (hlt : fd < fdSetsize)
    (watched : ℕ → Bool) : ¬ (s.accept fd false).Counted watched := by
  intro h
  have heq : s.accept fd false = _ := if_neg (show ¬ fdSetsize ≤ fd by omega)
  rw [heq] at h
  have hopen := h.opened fd (by simp [Sys.setClient])
  simp at hopen

def acceptUnregistered : List Label :=
  [.io .next, .io (.poll [.listen true]), .io .next, .io .next, .io (.accept 5 false),
    .io (.accept 5 false)]

/-- The one slot is counted twice, and its descriptor is closed. -/
theorem connections_miscounted :
    ∃ x : WatchedSys, Reachable WatchedSys.step (fun _ _ => True) WatchedSys.init x ∧
      x.1.numClients = 2 ∧ x.1.numConnected = 1 ∧ (x.1.clients 5).connected = true ∧
      x.1.isOpen 5 = false ∧ x.2 5 = false := by
  have hrun : (runs (guarded WatchedSys.step fun _ _ => True) WatchedSys.init
      acceptUnregistered).map (WatchedSys.look 5) = some ⟨2, 1, true, false, false⟩ := by
    decide +kernel
  obtain ⟨x, hreach, hlook⟩ := Reachable.exists_of_runs hrun
  obtain ⟨hnum, hcount, hconn, hopen, hwatched⟩ := SlotLook.mk.injEq .. ▸ hlook
  exact ⟨x, hreach, hnum, hcount, hconn, hopen, hwatched⟩

end LinuxMiniProjects.ControlPlane
