import LinuxMiniProjects.Lib.Threads
import LinuxMiniProjects.ControlPlane.System

/-!
Tasks in flight.

`process_task` checks that its client is still there and then works on it
without a lock. What keeps the client there is `pending_task`: the IO
thread counts a task before it enqueues it, the worker uncounts it when it
is done, and `reap_closed_clients` leaves a client alone that has a
count. The account only works if the count is exact, and it is: `InFlight`
says that in every state it is the number of tasks of the client that are
queued, that a worker has, or that the IO thread has in its hands.
-/

namespace LinuxMiniProjects.ControlPlane

open Bytes Socket Machine

/-! ### Tasks in the queues and with the workers -/

section Sched

variable {τ : Type*}

def WorkerPc.holds (P : τ → Bool) : WorkerPc τ → Bool
  | busy task => P task
  | _ => false

def Sched.queuedBy (P : τ → Bool) (s : Sched τ) : ℕ :=
  ((s.queue .low).contents capacity).countP P + ((s.queue .medium).contents capacity).countP P +
    ((s.queue .high).contents capacity).countP P

def Sched.runningBy (P : τ → Bool) (s : Sched τ) : ℕ := numAt (WorkerPc.holds P) s.worker

def Sched.Has (s : Sched τ) (task : τ) : Prop :=
  (∃ p, task ∈ (s.queue p).contents capacity) ∨ ∃ w, s.worker w = .busy task

variable {s s' : Sched τ} {w : Fin 4} {p : Priority} {task : τ} (P : τ → Bool)

theorem Sched.queuedBy_update {q : RingBuf τ} (h : s'.queue = Function.update s.queue p q) :
    s'.queuedBy P + ((s.queue p).contents capacity).countP P =
      s.queuedBy P + (q.contents capacity).countP P := by
  simp only [queuedBy, h]
  cases p <;> simp <;> omega

theorem Sched.Takes.account (ht : s.Takes s' w p task) (hinv : s.Inv)
    (hw : s.worker w = .start) :
    s'.queuedBy P + s'.runningBy P = s.queuedBy P + s.runningBy P := by
  have hqueue := Sched.queuedBy_update P ht.queue
  have hrun := numAt_update (WorkerPc.holds P) s.worker w (.busy task)
  rw [(hinv.valid p).contents_eq_cons ht.pos, List.countP_cons, ← ht.front] at hqueue
  rw [← ht.worker, hw] at hrun
  simp only [WorkerPc.holds, Bool.toNat_false, Nat.add_zero] at hrun
  have htoNat : (P task).toNat = if P task = true then 1 else 0 := by
    cases P task <;> rfl
  simp only [Sched.runningBy]
  omega

theorem Sched.Takes.has (ht : s.Takes s' w p task) (hinv : s.Inv) {t : τ} (h : s'.Has t) :
    s.Has t := by
  have hcons := (hinv.valid p).contents_eq_cons ht.pos
  rcases h with ⟨q, hq⟩ | ⟨v, hv⟩
  · rw [ht.queue] at hq
    by_cases hqp : q = p
    · subst hqp
      rw [Function.update_self] at hq
      exact .inl ⟨q, by rw [hcons]; exact List.mem_cons_of_mem _ hq⟩
    · rw [Function.update_of_ne hqp] at hq
      exact .inl ⟨q, hq⟩
  · rw [ht.worker] at hv
    by_cases hvw : v = w
    · subst hvw
      rw [Function.update_self, WorkerPc.busy.injEq] at hv
      subst hv
      exact .inl ⟨p, by rw [hcons, ht.front]; exact List.mem_cons_self⟩
    · rw [Function.update_of_ne hvw] at hv
      exact .inr ⟨v, hv⟩

theorem Sched.runningBy_goto {pc : WorkerPc τ} (hw : (s.worker w).holds P = false)
    (hpc : pc.holds P = false) : (s.goto w pc).runningBy P = s.runningBy P := by
  have hrun := numAt_update (WorkerPc.holds P) s.worker w pc
  rw [hw, hpc] at hrun
  simpa [Sched.runningBy, Sched.goto] using hrun

theorem Sched.runningBy_finish (hw : s.worker w = .busy task) :
    (s.goto w .start).runningBy P + (P task).toNat = s.runningBy P := by
  have hrun := numAt_update (WorkerPc.holds P) s.worker w .start
  rw [hw] at hrun
  simpa [Sched.runningBy, Sched.goto, WorkerPc.holds] using hrun

theorem Sched.Has.of_goto {pc : WorkerPc τ} {t : τ} (hpc : pc ≠ .busy t)
    (h : (s.goto w pc).Has t) : s.Has t := by
  rcases h with hq | ⟨v, hv⟩
  · exact .inl hq
  · by_cases hvw : v = w
    · subst hvw
      exact absurd (by simpa [Sched.goto] using hv) hpc
    · exact .inr ⟨v, by simpa [Sched.goto, hvw] using hv⟩

theorem WorkerPc.busy_of_wake {pc : WorkerPc τ} {t : τ}
    (h : (if pc.isWaiting then .start else pc) = .busy t) : pc = .busy t := by
  split at h
  · cases h
  · exact h

theorem Sched.broadcast_account :
    s.broadcast.queuedBy P + s.broadcast.runningBy P = s.queuedBy P + s.runningBy P := by
  have hholds : (fun w => (s.broadcast.worker w).holds P) = fun w => (s.worker w).holds P := by
    funext w
    simp only [Sched.broadcast]
    cases s.worker w <;> rfl
  have hrun : s.broadcast.runningBy P = s.runningBy P := by
    simp only [Sched.runningBy, numAt, congrFun hholds]
  rw [hrun]
  rfl

theorem Sched.Has.of_broadcast {t : τ} (h : s.broadcast.Has t) : s.Has t := by
  rcases h with hq | ⟨w, hw⟩
  · exact .inl hq
  · exact .inr ⟨w, WorkerPc.busy_of_wake hw⟩

theorem Sched.lock_account (hinv : s.Inv) (hw : s.worker w = .start) :
    (s.lock w).queuedBy P + (s.lock w).runningBy P = s.queuedBy P + s.runningBy P := by
  have hstart : (s.worker w).holds P = false := by rw [hw]; rfl
  rcases s.lock_cases w with ⟨-, hs⟩ | ⟨-, -, hs⟩ | ⟨-, hs⟩ | ⟨-, p, task, ht⟩
  · rw [hs, Sched.runningBy_goto P hstart rfl]
    rfl
  · rw [hs, Sched.runningBy_goto P hstart rfl]
    rfl
  · rw [hs]
  · exact ht.account P hinv hw

theorem Sched.Has.of_lock (hinv : s.Inv) {t : τ} (h : (s.lock w).Has t) : s.Has t := by
  rcases s.lock_cases w with ⟨-, hs⟩ | ⟨-, -, hs⟩ | ⟨-, hs⟩ | ⟨-, p, task, ht⟩
  · rw [hs] at h
    exact h.of_goto (by simp)
  · rw [hs] at h
    exact h.of_goto (by simp)
  · exact hs ▸ h
  · exact ht.has hinv h

theorem Sched.tryEnqueue_account (hinv : s.Inv) {released : Option (Fin 4)}
    (h : s.tryEnqueue p task released = some (true, s')) :
    s'.queuedBy P + s'.runningBy P = s.queuedBy P + s.runningBy P + (P task).toNat ∧
      ∀ t, s'.Has t → s.Has t ∨ t = task := by
  rcases Sched.tryEnqueue_cases h with ⟨h, -⟩ | ⟨-, -, hlt, hqueue, -, -, -, hsignal⟩
  · cases h
  have hcontents := (hinv.valid p).contents_push hlt task
  have hqueued := Sched.queuedBy_update P hqueue
  rw [hcontents, List.countP_append, List.countP_singleton] at hqueued
  have htoNat : (P task).toNat = if P task = true then 1 else 0 := by
    cases P task <;> rfl
  have hworker : s'.runningBy P = s.runningBy P ∧
      ∀ w t, s'.worker w = .busy t → s.worker w = .busy t := by
    rcases hsignal with ⟨w, -, hwait, hs'⟩ | ⟨-, -, hs'⟩
    · have hrun := numAt_update (WorkerPc.holds P) s.worker w .start
      rw [hwait, ← hs'] at hrun
      refine ⟨by simpa [Sched.runningBy, WorkerPc.holds] using hrun, fun v t hv => ?_⟩
      rw [hs'] at hv
      by_cases hvw : v = w
      · subst hvw
        simp at hv
      · rwa [Function.update_of_ne hvw] at hv
    · exact ⟨by rw [Sched.runningBy, Sched.runningBy, hs'], fun v t hv => hs' ▸ hv⟩
  refine ⟨by omega, fun t ht => ?_⟩
  rcases ht with ⟨q, hq⟩ | ⟨w, hw⟩
  · rw [hqueue] at hq
    by_cases hqp : q = p
    · subst hqp
      rw [Function.update_self, hcontents, List.mem_append, List.mem_singleton] at hq
      exact hq.imp_left fun hq => .inl ⟨q, hq⟩
    · rw [Function.update_of_ne hqp] at hq
      exact .inl (.inl ⟨q, hq⟩)
  · exact .inl (.inr ⟨w, hworker.2 w t hw⟩)

theorem Sched.account_eq_zero (h : ∀ t, s.Has t → P t = false) :
    s.queuedBy P + s.runningBy P = 0 := by
  have hqueue : ∀ p, ((s.queue p).contents capacity).countP P = 0 := fun p =>
    List.countP_eq_zero.mpr fun t ht => by simp [h t (.inl ⟨p, ht⟩)]
  have hrun : s.runningBy P = 0 := by
    refine numAt_eq_zero fun w => ?_
    cases hw : s.worker w with
    | busy t => exact h t (.inr ⟨w, hw⟩)
    | _ => rfl
  simp only [queuedBy, hqueue, hrun]

theorem Sched.eq_false_of_account (h : s.queuedBy P + s.runningBy P = 0) {t : τ} (ht : s.Has t) :
    P t = false := by
  have hrun : s.runningBy P = 0 := by omega
  simp only [queuedBy] at h
  rcases ht with ⟨p, hp⟩ | ⟨w, hw⟩
  · have hcount : ((s.queue p).contents capacity).countP P = 0 := by
      cases p <;> omega
    simpa using List.countP_eq_zero.mp hcount t hp
  · have := eq_false_of_numAt_eq_zero hrun w
    rwa [hw] at this

end Sched

/-! ### The account -/

def IoPc.held : IoPc → Option Task
  | holding task _ | refused task _ => some task
  | _ => none

def IoPc.client : IoPc → Option ℕ
  | writable _ fd _ | sending _ fd _ _ | reading fd _ | nacking fd _ => some fd
  | _ => none

def onFd (fd : ℕ) (task : Task) : Bool := task.fd == fd

def IoPc.holds (fd : ℕ) (io : IoPc) : ℕ := (io.held.map (onFd fd)).elim 0 Bool.toNat

@[simp] theorem IoPc.holds_holding (fd : ℕ) (task : Task) (rest : List EpollEvent) :
    (IoPc.holding task rest).holds fd = (onFd fd task).toNat := rfl

@[simp] theorem IoPc.holds_refused (fd : ℕ) (task : Task) (rest : List EpollEvent) :
    (IoPc.refused task rest).holds fd = (onFd fd task).toNat := rfl

theorem IoPc.holds_of_held {io : IoPc} (h : io.held = none) (fd : ℕ) : io.holds fd = 0 := by
  rw [IoPc.holds, h]
  rfl

@[simp] theorem onFd_self (task : Task) : onFd task.fd task = true := beq_self_eq_true _

theorem onFd_of_ne {fd : ℕ} {task : Task} (h : fd ≠ task.fd) : onFd fd task = false :=
  beq_eq_false_iff_ne.mpr h.symm

structure Sys.Owns (s : Sys) (task : Task) : Prop where
  on : (s.clients task.fd).isOn task.fd = true
  generation : (s.clients task.fd).generation = task.clientGeneration
  conn : s.conn task.fd = task.conn
  opened : s.isOpen task.fd = true

def Sys.InFlight (s : Sys) (task : Task) : Prop := s.sched.Has task ∨ s.io.held = some task

structure Sys.Accounts (s : Sys) : Prop where
  sched : s.sched.Inv
  count : ∀ fd, (s.clients fd).pendingTask =
    s.sched.queuedBy (onFd fd) + s.sched.runningBy (onFd fd) + s.io.holds fd
  owns : ∀ task, s.InFlight task → s.Owns task
  slot : ∀ fd, (s.clients fd).connected = true → (s.clients fd).fd = fd ∧ fd < fdSetsize
  marked : ∀ fd, (s.clients fd).pendingClose = true → (s.clients fd).connected = true
  working : ∀ fd, s.io.client = some fd → (s.clients fd).isOn fd = true
  closing : ∀ fd, s.io = .closing fd →
    (s.clients fd).pendingTask = 0 ∧ (s.clients fd).connected = true
  replies : ∀ r ∈ s.replies, r.conn = r.task.conn

theorem Sys.Accounts.init : Sys.init.Accounts where
  sched := Sched.Inv.init
  count := fun fd => by
    have hzero := Sched.account_eq_zero (s := (Sched.init : Sched Task)) (onFd fd) fun t ht => by
      rcases ht with ⟨p, hp⟩ | ⟨w, hw⟩
      · cases hp
      · cases hw
    show 0 = _ + 0
    exact hzero.symm
  owns := fun t ht => by
    rcases ht with (⟨p, hp⟩ | ⟨w, hw⟩) | hio
    · cases hp
    · cases hw
    · cases hio
  slot := fun fd h => by cases h
  marked := fun fd h => by cases h
  working := fun fd h => by cases h
  closing := fun fd h => by cases h
  replies := fun r hr => by cases hr

/-- The fields of a client that the account is about are the same. -/
structure Client.Same (c c' : Client) : Prop where
  fd : c'.fd = c.fd
  connected : c'.connected = c.connected
  generation : c'.generation = c.generation
  pendingTask : c'.pendingTask = c.pendingTask

theorem Client.Same.isOn {c c' : Client} (h : c.Same c') (fd : ℕ) : c'.isOn fd = c.isOn fd := by
  rw [Client.isOn, Client.isOn, h.fd, h.connected]

theorem Client.isOn_iff {c : Client} {fd : ℕ} :
    c.isOn fd = true ↔ c.connected = true ∧ c.fd = fd := by
  simp [Client.isOn]

section Moves

variable {s s' : Sys}

theorem Sys.Accounts.goto (h : s.Accounts) (io : IoPc) (hheld : io.held = s.io.held)
    (hworking : ∀ fd, io.client = some fd → (s.clients fd).isOn fd = true)
    (hclosing : ∀ fd, io = .closing fd →
      (s.clients fd).pendingTask = 0 ∧ (s.clients fd).connected = true) : (s.goto io).Accounts where
  sched := h.sched
  count := fun fd => by
    have := h.count fd
    simpa only [Sys.goto, IoPc.holds, hheld] using this
  owns := fun t ht => by
    have := h.owns t (ht.imp_right fun ht => by rw [← hheld]; exact ht)
    exact ⟨this.on, this.generation, this.conn, this.opened⟩
  slot := h.slot
  marked := h.marked
  working := hworking
  closing := hclosing
  replies := h.replies

theorem Sys.Accounts.setClient (h : s.Accounts) (fd : ℕ) {c : Client}
    (hsame : (s.clients fd).Same c) (hmarked : c.pendingClose = true → c.connected = true) :
    (s.setClient fd c).Accounts := by
  have hclients : ∀ k, (s.clients k).Same ((s.setClient fd c).clients k) := by
    intro k
    by_cases hk : k = fd
    · subst hk
      simpa [Sys.setClient] using hsame
    · simp only [Sys.setClient, Function.update_of_ne hk]
      exact ⟨rfl, rfl, rfl, rfl⟩
  exact
    { sched := h.sched
      count := fun k => by rw [(hclients k).pendingTask]; exact h.count k
      owns := fun t ht => by
        have := h.owns t ht
        exact ⟨by rw [(hclients t.fd).isOn]; exact this.on,
          by rw [(hclients t.fd).generation]; exact this.generation, this.conn, this.opened⟩
      slot := fun k hk => by
        rw [(hclients k).connected] at hk
        rw [(hclients k).fd]
        exact h.slot k hk
      marked := fun k hk => by
        by_cases hkf : k = fd
        · subst hkf
          simp only [Sys.setClient, Function.update_self] at hk ⊢
          exact hmarked hk
        · simp only [Sys.setClient, Function.update_of_ne hkf] at hk ⊢
          exact h.marked k hk
      working := fun k hk => by rw [(hclients k).isOn]; exact h.working k hk
      closing := fun k hk => by
        rw [(hclients k).pendingTask, (hclients k).connected]
        exact h.closing k hk
      replies := h.replies }

theorem Sys.Accounts.setSched (h : s.Accounts) (sched : Sched Task) (hinv : sched.Inv)
    (hcount : ∀ P, sched.queuedBy P + sched.runningBy P =
      s.sched.queuedBy P + s.sched.runningBy P)
    (hhas : ∀ t, sched.Has t → s.sched.Has t) : ({ s with sched } : Sys).Accounts :=
  { h with
    sched := hinv
    count := fun fd => by rw [hcount]; exact h.count fd
    owns := fun t ht => by
      have := h.owns t (ht.imp_left (hhas t))
      exact ⟨this.on, this.generation, this.conn, this.opened⟩ }

theorem Sys.Accounts.fd_ne (h : s.Accounts) {fd : ℕ} (hzero : (s.clients fd).pendingTask = 0)
    {t : Task} (ht : s.InFlight t) : t.fd ≠ fd := by
  have hcount := h.count fd
  rintro rfl
  rcases ht with ht | ht
  · have := Sched.eq_false_of_account (onFd t.fd) (by omega) ht
    simp [onFd] at this
  · have hholds : s.io.holds t.fd = 1 := by simp [IoPc.holds, ht, onFd]
    omega

theorem forall_of_ne {p : ℕ → Prop} {fd : ℕ} (hself : p fd) (hne : ∀ k, k ≠ fd → p k) :
    ∀ k, p k := by
  intro k
  by_cases hk : k = fd
  · exact hk ▸ hself
  · exact hne k hk

/-- A connection begins or ends, on a descriptor without tasks. -/
theorem Sys.Accounts.replace (h : s.Accounts) (fd : ℕ) {c : Client}
    (hclients : s'.clients = Function.update s.clients fd c)
    (hopen : ∀ k, k ≠ fd → s'.isOpen k = s.isOpen k)
    (hconn : ∀ k, k ≠ fd → s'.conn k = s.conn k) (hsched : s'.sched = s.sched)
    (hnone : ∀ t, s.InFlight t → t.fd ≠ fd) (hzero : c.pendingTask = 0)
    (hslot : c.connected = true → c.fd = fd ∧ fd < fdSetsize)
    (hmarked : c.pendingClose = true → c.connected = true)
    (hheld : s'.io.held = s.io.held) (hworking : s'.io.client = none)
    (hclosing : ∀ k, s'.io ≠ .closing k) (hreplies : s'.replies = s.replies) : s'.Accounts := by
  have hself : s'.clients fd = c := by rw [hclients, Function.update_self]
  have hne : ∀ k, k ≠ fd → s'.clients k = s.clients k := fun k hk => by
    rw [hclients, Function.update_of_ne hk]
  have hholds : ∀ k, s'.io.holds k = s.io.holds k := fun k => by
    rw [IoPc.holds, IoPc.holds, hheld]
  have hflight : ∀ t, s'.InFlight t → s.InFlight t := fun t ht => by
    rwa [Sys.InFlight, hsched, hheld] at ht
  have haccount : s.sched.queuedBy (onFd fd) + s.sched.runningBy (onFd fd) = 0 :=
    Sched.account_eq_zero _ fun t ht => by simpa [onFd] using hnone t (.inl ht)
  have hfree : s.io.holds fd = 0 := by
    cases hio : s.io.held with
    | none => simp [IoPc.holds, hio]
    | some t => simpa [IoPc.holds, hio, onFd] using hnone t (.inr hio)
  -- Every field is either about the client that changes or about another one.
  exact
    { sched := hsched ▸ h.sched
      count := forall_of_ne (by rw [hself, hzero, hholds, hsched, haccount, hfree])
        fun k hk => by rw [hne k hk, hholds, hsched, h.count k]
      owns := fun t ht => by
        have hk := hnone t (hflight t ht)
        have := h.owns t (hflight t ht)
        exact ⟨by rw [hne t.fd hk]; exact this.on, by rw [hne t.fd hk]; exact this.generation,
          by rw [hconn t.fd hk]; exact this.conn, by rw [hopen t.fd hk]; exact this.opened⟩
      slot := forall_of_ne (by rw [hself]; exact hslot) fun k hk => by rw [hne k hk]; exact h.slot k
      marked := forall_of_ne (by rw [hself]; exact hmarked)
        fun k hk => by rw [hne k hk]; exact h.marked k
      working := fun k hk => by rw [hworking] at hk; cases hk
      closing := fun k hk => absurd hk (hclosing k)
      replies := by rw [hreplies]; exact h.replies }

/-- A connection is accepted on a descriptor that is not open, so no task
is on it. -/
theorem Sys.Accounts.accept (h : s.Accounts) {events rest : List EpollEvent}
    (hpc : s.io = .accepting events rest) {fd : ℕ} (hclosed : s.isOpen fd = false)
    (registered : Bool) : (s.accept fd registered).Accounts := by
  unfold Sys.accept
  split
  · exact h
  next hlt =>
    have hnone : ∀ t, s.InFlight t → t.fd ≠ fd := by
      rintro t ht rfl
      rw [(h.owns t ht).opened] at hclosed
      cases hclosed
    refine h.replace fd rfl ?_ ?_ rfl hnone rfl (fun _ => ⟨rfl, by omega⟩)
      (fun _ => rfl) rfl ?_ ?_ rfl
    · exact fun k hk => Function.update_of_ne hk _ _
    · exact fun k hk => Function.update_of_ne hk _ _
    · simp only [Sys.setClient, hpc, IoPc.client]
    · simp [Sys.setClient, hpc]

theorem Sys.Accounts.reapClose (h : s.Accounts) {fd : ℕ} (hpc : s.io = .closing fd) :
    (s.reapClose fd).Accounts := by
  obtain ⟨hzero, hconn⟩ := h.closing fd hpc
  obtain ⟨hfd, -⟩ := h.slot fd hconn
  refine h.replace fd rfl ?_ (fun _ _ => rfl) rfl (fun t ht => h.fd_ne hzero ht) hzero
    (fun hc => by cases hc) (fun hc => by cases hc) ?_ rfl ?_ rfl
  · intro k hk
    simp only [Sys.reapClose, Sys.setClient, hfd, Int.natCast_nonneg, if_true, Int.toNat_natCast]
    exact Function.update_of_ne hk _ _
  · simp [Sys.reapClose, hpc, IoPc.held]
  · simp [Sys.reapClose]

theorem Sys.Accounts.recount (h : s.Accounts) (fd : ℕ) {c : Client}
    (hclients : s'.clients = Function.update s.clients fd c) (hfd : c.fd = (s.clients fd).fd)
    (hconnected : c.connected = (s.clients fd).connected)
    (hgeneration : c.generation = (s.clients fd).generation)
    (hmarked : c.pendingClose = (s.clients fd).pendingClose)
    (hopen : s'.isOpen = s.isOpen) (hconn : s'.conn = s.conn) (hsched : s'.sched.Inv)
    (hcount : c.pendingTask = s'.sched.queuedBy (onFd fd) + s'.sched.runningBy (onFd fd) +
      s'.io.holds fd)
    (hother : ∀ k, k ≠ fd →
      s'.sched.queuedBy (onFd k) + s'.sched.runningBy (onFd k) + s'.io.holds k =
        s.sched.queuedBy (onFd k) + s.sched.runningBy (onFd k) + s.io.holds k)
    (hflight : ∀ t, s'.InFlight t → s.InFlight t ∨ s.Owns t)
    (hworking : ∀ k, s'.io.client = some k → (s.clients k).isOn k = true)
    (hclosing : ∀ k, s'.io = .closing k → k ≠ fd ∧ s.io = .closing k)
    (hreplies : s'.replies = s.replies) : s'.Accounts := by
  have hself : s'.clients fd = c := by rw [hclients, Function.update_self]
  have hne : ∀ k, k ≠ fd → s'.clients k = s.clients k := fun k hk => by
    rw [hclients, Function.update_of_ne hk]
  have hon : ∀ k, (s'.clients k).isOn k = (s.clients k).isOn k :=
    forall_of_ne (by rw [hself, Client.isOn, Client.isOn, hfd, hconnected])
      fun k hk => by rw [hne k hk]
  have hgen : ∀ k, (s'.clients k).generation = (s.clients k).generation :=
    forall_of_ne (by rw [hself, hgeneration]) fun k hk => by rw [hne k hk]
  exact
    { sched := hsched
      count := forall_of_ne (by rw [hself, hcount])
        fun k hk => by rw [hne k hk, hother k hk, h.count k]
      owns := fun t ht => by
        have := (hflight t ht).elim (h.owns t) id
        exact ⟨by rw [hon]; exact this.on, by rw [hgen]; exact this.generation,
          by rw [hconn]; exact this.conn, by rw [hopen]; exact this.opened⟩
      slot := forall_of_ne (by rw [hself, hconnected, hfd]; exact h.slot fd)
        fun k hk => by rw [hne k hk]; exact h.slot k
      marked := forall_of_ne (by rw [hself, hmarked, hconnected]; exact h.marked fd)
        fun k hk => by rw [hne k hk]; exact h.marked k
      working := fun k hk => by rw [hon]; exact hworking k hk
      closing := fun k hk => by
        obtain ⟨hkf, hio⟩ := hclosing k hk
        rw [hne k hkf]
        exact h.closing k hio
      replies := by rw [hreplies]; exact h.replies }

theorem Client.readTurn_cases (c : Client) (res : RecvRes) :
    (c.readTurn res).1 = some 1 ∧ (∃ b bs, res = .data b bs) ∧
      (∃ inbox received, (c.readTurn res).2 = { c with
        inbox := inbox
        pendingTask := c.pendingTask + 1
        packetReceived := received }) ∨
    (c.readTurn res).1 ≠ some 1 ∧
      ∃ inbox mark, (c.readTurn res).2 = { c with inbox := inbox, pendingClose := mark } := by
  unfold Client.readTurn
  cases hturn : c.inbox.turn res with
  | again inbox | wait inbox => exact .inr ⟨by simp, inbox, c.pendingClose, rfl⟩
  | close inbox => exact .inr ⟨by simp, inbox, true, rfl⟩
  | frame inbox ok =>
      cases ok with
      | false => exact .inr ⟨by simp, inbox, c.pendingClose, rfl⟩
      | true =>
          refine .inl ⟨rfl, ?_, inbox, _, rfl⟩
          cases res with
          | data b bs => exact ⟨b, bs, rfl⟩
          | _ => simp [Inbox.turn] at hturn

theorem Sys.Accounts.recvTurn (h : s.Accounts) {fd : ℕ} {rest : List EpollEvent}
    (hpc : s.io = .reading fd rest) {res : RecvRes}
    (hok : recvOk (s.isOpen fd) (s.clients fd).inbox.remaining res = true) :
    (s.recvTurn fd rest res).Accounts := by
  have hon := h.working fd (by rw [hpc]; rfl)
  have hheld : s.io.held = none := by rw [hpc]; rfl
  unfold Sys.recvTurn
  rcases (s.clients fd).readTurn_cases res with
    ⟨hret, ⟨b, bs, rfl⟩, inbox, received, hc⟩ | ⟨hret, inbox, mark, hc⟩
  · have hopen : s.isOpen fd = true := by
      simp only [recvOk, Bool.and_eq_true] at hok
      exact hok.1
    have hcount := h.count fd
    rw [IoPc.holds_of_held hheld] at hcount
    simp only [hret, hc]
    refine h.recount fd rfl rfl rfl rfl rfl rfl rfl h.sched ?_ ?_ ?_ ?_ ?_ rfl
    · simpa [Sys.goto, Sys.setClient, onFd] using hcount
    · intro k hk
      simp [Sys.goto, Sys.setClient, IoPc.holds_of_held hheld, onFd, hk.symm]
    · rintro t (ht | ht)
      · exact .inl (.inl ht)
      · obtain rfl := Option.some.inj ht
        exact .inr ⟨hon, rfl, rfl, hopen⟩
    · intro k hk
      cases hk
    · intro k hk
      cases hk
  · have hsame : (s.clients fd).Same ((s.clients fd).readTurn res).2 := by
      rw [hc]
      exact ⟨rfl, rfl, rfl, rfl⟩
    have hset := h.setClient fd hsame fun _ => by
      rw [hsame.connected]
      exact (Client.isOn_iff.mp hon).1
    have hon' : ((s.setClient fd ((s.clients fd).readTurn res).2).clients fd).isOn fd = true :=
      hset.working fd (by simp [Sys.setClient, hpc, IoPc.client])
    -- Whichever way it goes on, it is still working on this client or on none.
    have hnext : ∀ io : IoPc, io = .reading fd rest ∨ io = .nacking fd rest ∨ io = .readable rest →
        ((s.setClient fd ((s.clients fd).readTurn res).2).goto io).Accounts := by
      rintro io (rfl | rfl | rfl)
      · exact hset.goto _ hheld.symm (fun k hk => Option.some.inj hk ▸ hon') fun k hk => by cases hk
      · exact hset.goto _ hheld.symm (fun k hk => Option.some.inj hk ▸ hon') fun k hk => by cases hk
      · exact hset.goto _ hheld.symm (fun k hk => by cases hk) fun k hk => by cases hk
    refine hnext _ ?_
    cases hret' : ((s.clients fd).readTurn res).1 with
    | none => exact .inl rfl
    | some ret =>
        dsimp only
        rw [if_neg (show ¬ ret = 1 from fun h1 => hret (by rw [hret', h1]))]
        split
        · exact .inr (.inl rfl)
        · exact .inr (.inr rfl)

theorem Sys.Accounts.enqueue (h : s.Accounts) {task : Task} {rest : List EpollEvent}
    (hpc : s.io = .holding task rest) {released : Option (Fin 4)}
    (hs : s.enqueue task rest released = some s') : s'.Accounts := by
  have hheld : s.io.held = some task := by rw [hpc]; rfl
  have hrefused : (s.goto (.refused task rest)).Accounts :=
    h.goto _ hheld.symm (fun k hk => by cases hk) fun k hk => by cases hk
  unfold Sys.enqueue at hs
  split at hs
  next p _ =>
    obtain ⟨⟨ok, sched⟩, hsched, rfl⟩ := Option.map_eq_some_iff.mp hs
    cases ok with
    | false =>
        rcases Sched.tryEnqueue_cases hsched with ⟨-, -, rfl⟩ | ⟨hok, -⟩
        · exact hrefused
        · cases hok
    | true =>
        have haccount := fun P => (Sched.tryEnqueue_account P h.sched hsched).1
        have hhas := (Sched.tryEnqueue_account (fun _ => true) h.sched hsched).2
        refine h.recount task.fd (c := s.clients task.fd) ?_ rfl rfl rfl rfl rfl rfl
          (h.sched.tryEnqueue hsched) ?_ ?_ ?_ ?_ ?_ rfl
        · exact (Function.update_eq_self _ _).symm
        · have hcount := h.count task.fd
          rw [hpc] at hcount
          exact hcount.trans (haccount _).symm
        · intro k _
          rw [hpc]
          exact haccount _
        · rintro t (ht | ht)
          · rcases hhas t ht with ht | rfl
            · exact .inl (.inl ht)
            · exact .inl (.inr hheld)
          · cases ht
        · intro k hk
          cases hk
        · intro k hk
          cases hk
  next =>
    simp only [Option.ite_none_right_eq_some, Option.some.injEq] at hs
    exact hs.2 ▸ hrefused

theorem Sys.Accounts.refused (h : s.Accounts) {task : Task} {rest : List EpollEvent}
    (hpc : s.io = .refused task rest) :
    ((s.setClient task.fd { s.clients task.fd with
      pendingTask := (s.clients task.fd).pendingTask - 1 }).goto (.busy task rest)).Accounts := by
  have hcount := h.count task.fd
  rw [hpc, IoPc.holds_refused, onFd_self] at hcount
  refine h.recount task.fd rfl rfl rfl rfl rfl rfl rfl h.sched ?_ ?_ ?_ ?_ ?_ rfl
  · show (s.clients task.fd).pendingTask - 1 = _ + 0
    rw [hcount]
    rfl
  · intro k hk
    rw [hpc, IoPc.holds_refused, onFd_of_ne hk]
    rfl
  · rintro t (ht | ht)
    · exact .inl (.inl ht)
    · cases ht
  · intro k hk
    cases hk
  · intro k hk
    cases hk

theorem Sys.Accounts.finish (h : s.Accounts) {w : Fin 4} {task : Task}
    (hbusy : s.sched.worker w = .busy task) : (s.finish w task).Accounts := by
  have howns := h.owns task (.inl (.inr ⟨w, hbusy⟩))
  obtain ⟨hconn, hfd⟩ := Client.isOn_iff.mp howns.on
  have hlt := (h.slot task.fd hconn).2
  have hrun := fun P => Sched.runningBy_finish P hbusy
  unfold Sys.finish finishTask
  rw [if_pos ⟨hlt, hfd, howns.generation⟩]
  refine h.recount task.fd rfl rfl rfl rfl rfl rfl rfl ?_ ?_ ?_ ?_ ?_ ?_ rfl
  · exact h.sched.of_eq rfl rfl rfl
  · have hcount := h.count task.fd
    have hself := hrun (onFd task.fd)
    rw [onFd_self, Bool.toNat_true] at hself
    show (s.clients task.fd).pendingTask - 1 = s.sched.queuedBy _ + _ + s.io.holds _
    simp only [Sys.setStage, Sys.setClient]
    omega
  · intro k hk
    have hother := hrun (onFd k)
    rw [onFd_of_ne hk, Bool.toNat_false, Nat.add_zero] at hother
    show s.sched.queuedBy _ + (s.sched.goto w .start).runningBy _ + s.io.holds _ = _
    rw [hother]
  · rintro t (ht | ht)
    · exact .inl (.inl (ht.of_goto (by simp)))
    · exact .inl (.inr ht)
  · exact h.working
  · intro k hk
    refine ⟨?_, hk⟩
    rintro rfl
    have := h.closing task.fd hk
    exact absurd rfl (h.fd_ne this.1 (.inl (.inr ⟨w, hbusy⟩)))

end Moves

/-! ### The threads -/

section Threads

variable {s s' : Sys}

theorem Sys.Accounts.leave (h : s.Accounts) {io : IoPc} (hheld : io.held = s.io.held)
    (hclient : io.client = none) (hclosing : ∀ k, io ≠ .closing k) : (s.goto io).Accounts :=
  h.goto io hheld (fun k hk => by rw [hclient] at hk; cases hk) fun k hk => absurd hk (hclosing k)

theorem Client.same_queueClient (c : Client) (m : MessageControl) : c.Same (queueClient c m) :=
  ⟨rfl, rfl, rfl, rfl⟩

theorem Sys.Accounts.queue (h : s.Accounts) (fd : ℕ) (m : MessageControl) :
    (s.setClient fd (queueClient (s.clients fd) m)).Accounts :=
  h.setClient fd (Client.same_queueClient _ m) (h.marked fd)

theorem Sys.Accounts.mark (h : s.Accounts) {fd : ℕ} (hon : (s.clients fd).isOn fd = true)
    (mark : Bool) : (s.setClient fd { s.clients fd with pendingClose := mark }).Accounts :=
  h.setClient fd ⟨rfl, rfl, rfl, rfl⟩ fun _ => (Client.isOn_iff.mp hon).1

theorem Sys.Accounts.dispatch (h : s.Accounts) {events rest : List EpollEvent} {e : EpollEvent}
    (hpc : s.io = .dispatch events (e :: rest)) : (s.dispatch events e rest).Accounts := by
  have hheld : s.io.held = none := by rw [hpc]; rfl
  obtain ⟨io, hio, heq⟩ | ⟨fd, mark, io, hon, hio, heq⟩ := s.dispatch_cases events e rest
  · rw [heq]
    rcases hio with rfl | rfl
    · exact h.leave hheld.symm rfl (by simp)
    · exact h.leave hheld.symm rfl (by simp)
  · rw [heq]
    have hmark := h.mark hon mark
    rcases hio with rfl | rfl
    · refine hmark.goto _ hheld.symm (fun k hk => ?_) fun k hk => by cases hk
      obtain rfl := Option.some.inj hk
      simpa [Sys.setClient, Client.isOn] using hon
    · exact hmark.leave hheld.symm rfl (by simp)

theorem Sys.Accounts.writable (h : s.Accounts) {events rest : List EpollEvent} {fd : ℕ}
    (hpc : s.io = .writable events fd rest) : (s.writable events fd rest).Accounts := by
  have hheld : s.io.held = none := by rw [hpc]; rfl
  have hon := h.working fd (by rw [hpc]; rfl)
  unfold Sys.writable
  dsimp only
  split
  · exact h.leave hheld.symm rfl (by simp)
  · have hset := h.setClient fd
      (c := { s.clients fd with
        sendQueue := (s.clients fd).sendQueue.setFront (s.clients fd).sendQueue.front.prepare })
      ⟨rfl, rfl, rfl, rfl⟩ (h.marked fd)
    refine hset.goto _ hheld.symm (fun k hk => ?_) fun k hk => by cases hk
    obtain rfl := Option.some.inj hk
    exact hset.working _ (by simp [Sys.setClient, hpc, IoPc.client])

theorem Sys.Accounts.emit (h : s.Accounts) (fd : ℕ) (bs : List UInt8) : (s.emit fd bs).Accounts :=
  ⟨h.sched, h.count, fun t ht => ⟨(h.owns t ht).on, (h.owns t ht).generation, (h.owns t ht).conn,
    (h.owns t ht).opened⟩, h.slot, h.marked, h.working, h.closing, h.replies⟩

theorem Sys.Accounts.sendChunk (h : s.Accounts) {events rest : List EpollEvent} {fd offset : ℕ}
    (hpc : s.io = .sending events fd offset rest) (res : SendRes) :
    (s.sendChunk events fd offset rest res).Accounts := by
  have hheld : s.io.held = none := by rw [hpc]; rfl
  have hon := h.working fd (by rw [hpc]; rfl)
  unfold Sys.sendChunk
  dsimp only
  generalize slice (s.clients fd).sendQueue.front.wireBuf offset
    (res.accepted ((s.clients fd).sendQueue.front.total - offset)) = bs
  have hemit := h.emit fd bs
  have hleave : ∀ c, (s.clients fd).Same c →
      (((s.emit fd bs).setClient fd c).goto (.dispatch events rest)).Accounts := by
    intro c hc
    have hset := hemit.setClient fd hc fun _ => by
      rw [hc.connected]
      exact (Client.isOn_iff.mp hon).1
    exact hset.leave hheld.symm rfl (by simp)
  split
  · exact hemit.goto _ hheld.symm (fun k hk => Option.some.inj hk ▸ hon) fun k hk => by cases hk
  · exact hleave _ ⟨rfl, rfl, rfl, rfl⟩
  · exact hleave _ ⟨rfl, rfl, rfl, rfl⟩
  · exact hleave _ ⟨rfl, rfl, rfl, rfl⟩

theorem Sys.Accounts.readable (h : s.Accounts) {e : EpollEvent} {rest : List EpollEvent}
    (hpc : s.io = .readable (e :: rest)) : (s.readable e rest).Accounts := by
  have hheld : s.io.held = none := by rw [hpc]; rfl
  obtain ⟨fd, mask, -, hon, -, heq⟩ | ⟨-, heq⟩ := s.readable_cases e rest
  · rw [heq]
    exact h.goto _ hheld.symm (fun k hk => Option.some.inj hk ▸ hon) fun k hk => by cases hk
  · rw [heq]
    exact h.leave hheld.symm rfl (by simp)

theorem Sys.Accounts.reapCheck (h : s.Accounts) {fd : ℕ} (hpc : s.io = .reap fd)
    (hmarked : (s.clients fd).pendingClose = true) : (s.reapCheck fd).Accounts := by
  have hheld : s.io.held = none := by rw [hpc]; rfl
  obtain ⟨hzero, heq⟩ | heq := s.reapCheck_cases fd
  · rw [heq]
    refine h.goto _ hheld.symm (fun k hk => by cases hk) fun k hk => ?_
    obtain rfl := IoPc.closing.inj hk
    exact ⟨hzero, h.marked _ hmarked⟩
  · rw [heq]
    exact h.leave hheld.symm rfl (by simp)

theorem Sys.Accounts.ioStep (h : s.Accounts) {l : IoLabel} (hs : s.IoStep l s') : s'.Accounts := by
  cases hs with
  | top pc free =>
      split
      · exact h.leave (by rw [pc]; rfl) rfl (by simp)
      · exact h.leave (by rw [pc]; rfl) rfl (by simp)
  | dispatch pc => exact h.dispatch pc
  | accept pc closed => exact h.accept pc closed _
  | writable pc => exact h.writable pc
  | sendChunk pc ok => exact h.sendChunk pc _
  | readable pc => exact h.readable pc
  | recv pc unmarked ok => exact h.recvTurn pc ok
  | enqueue pc eq => exact h.enqueue pc eq
  | refused pc => exact h.refused pc
  | nack pc | busy pc => exact (h.queue _ _).leave (by rw [Sys.setClient, pc]; rfl) rfl (by simp)
  | reapCheck pc marked => exact h.reapCheck pc marked
  | reapClose pc => exact h.reapClose pc
  | timeout pc | poll pc | pollEintr pc | pollError pc | polled pc | dispatched pc
  | acceptNone pc | readLock pc | readDone pc | readClosing pc | reapLock pc | scan pc
  | reaped pc =>
      exact h.leave (by rw [pc]; rfl) rfl (by simp)

theorem Sys.Accounts.of_eq (h : s.Accounts) (hclients : s'.clients = s.clients)
    (hsched : s'.sched = s.sched) (hio : s'.io = s.io) (hopen : s'.isOpen = s.isOpen)
    (hconn : s'.conn = s.conn) (hreplies : s'.replies = s.replies) : s'.Accounts where
  sched := by rw [hsched]; exact h.sched
  count := by rw [hclients, hsched, hio]; exact h.count
  owns := fun t ht => by
    rw [Sys.InFlight, hsched, hio] at ht
    have := h.owns t ht
    exact ⟨by rw [hclients]; exact this.on, by rw [hclients]; exact this.generation,
      by rw [hconn]; exact this.conn, by rw [hopen]; exact this.opened⟩
  slot := by rw [hclients]; exact h.slot
  marked := by rw [hclients]; exact h.marked
  working := by rw [hclients, hio]; exact h.working
  closing := by rw [hclients, hio]; exact h.closing
  replies := by rw [hreplies]; exact h.replies

theorem Sys.Accounts.setStage (h : s.Accounts) (w : Fin 4) (stage : TaskStage) :
    (s.setStage w stage).Accounts :=
  h.of_eq rfl rfl rfl rfl rfl rfl

theorem Sys.Accounts.reply (h : s.Accounts) {task : Task} (hflight : s.InFlight task)
    (m : MessageControl) : (s.reply task m).Accounts := by
  have hq := h.queue task.fd m
  refine ⟨hq.sched, hq.count, ?_, hq.slot, hq.marked, hq.working, hq.closing, ?_⟩
  · exact fun t ht => ⟨(hq.owns t ht).on, (hq.owns t ht).generation, (hq.owns t ht).conn,
      (hq.owns t ht).opened⟩
  · intro r hr
    simp only [Sys.reply, List.mem_append, List.mem_singleton] at hr
    rcases hr with hr | rfl
    · exact h.replies r hr
    · exact (h.owns task hflight).conn

theorem Sys.Accounts.process (h : s.Accounts) {w : Fin 4} {task : Task}
    (hbusy : s.sched.worker w = .busy task) (hs : s.ProcessStep w task s') : s'.Accounts := by
  have hflight : s.InFlight task := .inl (.inr ⟨w, hbusy⟩)
  cases hs with
  | check stage | pass stage => exact h.setStage w _
  | answer stage | deny stage | reply stage => exact (h.reply hflight _).setStage w _
  | mark stage => exact (h.mark (h.owns task hflight).on true).setStage w _
  | lookup stage => exact h.of_eq rfl rfl rfl rfl rfl rfl
  | name stage =>
      refine Sys.Accounts.setStage (h.setClient _ ?_ ?_) w _
      · exact ⟨rfl, rfl, rfl, rfl⟩
      · exact h.marked task.fd
  | finish stage => exact h.finish hbusy

theorem Sys.Accounts.sigStep (h : s.Accounts) {l : SigLabel} (hs : s.SigStep l s') :
    s'.Accounts := by
  cases hs with
  | start pc free | scan pc lt | send pc on => exact h.of_eq rfl rfl rfl rfl rfl rfl
  | flag pc =>
      exact (h.setSched { s.sched with shutdown := true } (h.sched.of_eq rfl rfl rfl)
        (fun P => rfl) fun t ht => ht).of_eq rfl rfl rfl rfl rfl rfl
  | sendFarewell pc ok =>
      unfold Sys.sendFarewell
      dsimp only
      split
      · exact h.of_eq rfl rfl rfl rfl rfl rfl
      · exact h.of_eq rfl rfl rfl rfl rfl rfl
  | broadcast pc =>
      exact (h.setSched s.sched.broadcast (h.sched.of_eq rfl rfl rfl)
        (fun P => Sched.broadcast_account P) fun t ht => ht.of_broadcast).of_eq
        rfl rfl rfl rfl rfl rfl

theorem Sys.Accounts.step (h : s.Accounts) {l : Label} (hs : s.step l = some s') :
    s'.Accounts := by
  cases Sys.step_inv hs with
  | io step => exact h.ioStep step
  | @lock w start =>
      exact h.setSched _ (h.sched.lock w) (fun P => Sched.lock_account P h.sched start)
        fun t ht => ht.of_lock h.sched
  | @wake w waiting =>
      exact h.setSched _ (h.sched.of_eq rfl rfl rfl)
        (fun P => by rw [Sched.runningBy_goto P (by rw [waiting]; rfl) rfl]; rfl)
        fun t ht => ht.of_goto (by simp)
  | process busy free => exact h.process busy (s.process_inv _ _)
  | sig step => exact h.sigStep step

end Threads

end LinuxMiniProjects.ControlPlane
