import Mathlib.Tactic
import LinuxMiniProjects.Lib.Machine
import LinuxMiniProjects.Lib.RingBuf

/-!
The task queues of the control plane and its workers.

A complete frame becomes a task in one of three rings, by its priority,
and four workers take tasks from them: two take from all three, one from
the two lower ones, one from the lowest only. All of this happens under
`queue_lock`, so the steps below are the critical sections of that lock.
The workers sleep on one condition variable, `queue_wakeup`, and
`try_enqueue_task` signals it once for each task; which of the sleeping
workers that releases is up to the system, and is part of the label.

The tasks themselves are left abstract. The history of a queue is the
list of tasks it accepted and the list of tasks taken from it; the claim
of the rings is that the second list, followed by the contents of the
ring, is always the first.
-/

namespace LinuxMiniProjects.ControlPlane

open Machine

/-! ### The queues -/

inductive Priority
  | low
  | medium
  | high
deriving DecidableEq, Repr

def Priority.code : Priority → ℕ
  | low => 0
  | medium => 1
  | high => 2

def capacity : ℕ := 1024

variable {τ : Type*}

/-- `try_enqueue_task`, but for the signal: what it returns, and the queue. -/
def tryEnqueueTask (shutdown : Bool) (queue : RingBuf τ) (task : τ) : Bool × RingBuf τ :=
  if shutdown || decide (capacity ≤ queue.count) then (false, queue)
  else (true, queue.push capacity task)

def tryDequeueTaskLocked (queue : RingBuf τ) : Option (τ × RingBuf τ) :=
  if queue.count = 0 then none else some (queue.front, queue.pop capacity)

/-- The first of the queues, in the given order, that has a task: its
priority, the task, and the queues after. -/
def tryDequeueFirst (queue : Priority → RingBuf τ) :
    List Priority → Option (Priority × τ × (Priority → RingBuf τ))
  | [] => none
  | p :: ps =>
      match tryDequeueTaskLocked (queue p) with
      | some (task, q) => some (p, task, Function.update queue p q)
      | none => tryDequeueFirst queue ps

/-! ### The workers -/

inductive Kind
  | high
  | mid
  | low
deriving DecidableEq, Repr

/-- `NUM_HIGH_WORKERS`, `NUM_MID_WORKERS` and `NUM_LOW_WORKERS`: the workers
and what each of them runs. -/
def kind : Fin 4 → Kind
  | 0 | 1 => .high
  | 2 => .mid
  | 3 => .low

def firstWorker : Fin 4 := 0

def Kind.tries : Kind → List Priority
  | high => [.high, .medium, .low]
  | mid => [.medium, .low]
  | low => [.low]

/-- Where a worker is: about to take `queue_lock`, in `pthread_cond_wait`,
with a task, or returned. -/
inductive WorkerPc (τ : Type*)
  | start
  | waiting
  | busy (task : τ)
  | stopped
deriving DecidableEq

def WorkerPc.isWaiting : WorkerPc τ → Bool
  | waiting => true
  | _ => false

theorem WorkerPc.isWaiting_iff {pc : WorkerPc τ} : pc.isWaiting = true ↔ pc = .waiting := by
  cases pc <;> simp [isWaiting]

/-- The queues and the workers. The last two fields are a history that no
step reads. -/
structure Sched (τ : Type*) where
  queue : Priority → RingBuf τ
  shutdown : Bool
  worker : Fin 4 → WorkerPc τ
  accepted : Priority → List τ
  taken : Priority → List τ

/-- The zeroed queues of `init_server`, and the workers just created. -/
def Sched.init [Inhabited τ] : Sched τ where
  queue := fun _ => { cells := fun _ => default, head := 0, tail := 0, count := 0 }
  shutdown := false
  worker := fun _ => .start
  accepted := fun _ => []
  taken := fun _ => []

def Sched.allQueuesEmpty (s : Sched τ) : Bool :=
  (s.queue .high).count == 0 && (s.queue .medium).count == 0 && (s.queue .low).count == 0

def Sched.goto (s : Sched τ) (w : Fin 4) (pc : WorkerPc τ) : Sched τ :=
  { s with worker := Function.update s.worker w pc }

/-- `pthread_cond_signal`, which releases one of the waiting workers if
there are any. -/
def Sched.signal (s : Sched τ) : Option (Fin 4) → Option (Sched τ)
  | some w => if (s.worker w).isWaiting then some (s.goto w .start) else none
  | none => if ∀ w, (s.worker w).isWaiting = false then some s else none

/-- `try_enqueue_task` on the queue of priority `p`, with the worker its
signal releases: what it returns, and the state. -/
def Sched.tryEnqueue (s : Sched τ) (p : Priority) (task : τ) (released : Option (Fin 4)) :
    Option (Bool × Sched τ) :=
  match tryEnqueueTask s.shutdown (s.queue p) task with
  | (false, _) => if released = none then some (false, s) else none
  | (true, queue) =>
      let s' : Sched τ := { s with
        queue := Function.update s.queue p queue
        accepted := Function.update s.accepted p (s.accepted p ++ [task]) }
      (s'.signal released).map fun s' => (true, s')

/-- The critical section of a worker: `high_pri_worker_thread`,
`mid_pri_worker_thread` or `low_pri_worker_thread` from `queue_lock` to its
release, be it by `pthread_cond_wait` or at the end. A worker that finds
its own queues empty, but not all of them, goes round again. -/
def Sched.lock (s : Sched τ) (w : Fin 4) : Sched τ :=
  if s.shutdown then s.goto w .stopped
  else if s.allQueuesEmpty then s.goto w .waiting
  else
    match tryDequeueFirst s.queue (kind w).tries with
    | none => s
    | some (p, task, queue) =>
        ({ s with
          queue := queue
          taken := Function.update s.taken p (s.taken p ++ [task]) } : Sched τ).goto w (.busy task)

def Sched.broadcast (s : Sched τ) : Sched τ :=
  { s with worker := fun w => if (s.worker w).isWaiting then .start else s.worker w }

/-- What can happen to the queues: an enqueue, the critical section of a
worker, a `pthread_cond_wait` that returns without a signal, a worker that
is done with its task, and the two steps of the shutdown. -/
inductive SchedEvent (τ : Type*)
  | tryEnqueue (p : Priority) (task : τ) (released : Option (Fin 4))
  | lock (w : Fin 4)
  | wake (w : Fin 4)
  | finish (w : Fin 4)
  | shutdown
  | broadcast

def Sched.step (s : Sched τ) : SchedEvent τ → Option (Sched τ)
  | .tryEnqueue p task released => (s.tryEnqueue p task released).map Prod.snd
  | .lock w =>
      match s.worker w with
      | .start => some (s.lock w)
      | _ => none
  | .wake w => if (s.worker w).isWaiting then some (s.goto w .start) else none
  | .finish w =>
      match s.worker w with
      | .busy _ => some (s.goto w .start)
      | _ => none
  | .shutdown => some { s with shutdown := true }
  | .broadcast => some s.broadcast

/-- The steps, with what the program counters say where each one starts. -/
inductive Sched.Step (s : Sched τ) : SchedEvent τ → Sched τ → Prop
  | tryEnqueue {p task released ok s'} (eq : s.tryEnqueue p task released = some (ok, s')) :
      s.Step (.tryEnqueue p task released) s'
  | lock {w} (start : s.worker w = .start) : s.Step (.lock w) (s.lock w)
  | wake {w} (waiting : s.worker w = .waiting) : s.Step (.wake w) (s.goto w .start)
  | finish {w task} (busy : s.worker w = .busy task) : s.Step (.finish w) (s.goto w .start)
  | shutdown : s.Step .shutdown { s with shutdown := true }
  | broadcast : s.Step .broadcast s.broadcast

theorem Sched.step_inv {s s' : Sched τ} {e : SchedEvent τ} (h : s.step e = some s') :
    s.Step e s' := by
  cases e with
  | tryEnqueue p task released =>
      obtain ⟨⟨ok, s'⟩, eq, rfl⟩ := Option.map_eq_some_iff.mp h
      exact .tryEnqueue eq
  | lock w =>
      simp only [Sched.step] at h
      split at h
      next start => exact Option.some.inj h ▸ .lock start
      next => cases h
  | wake w =>
      rw [Sched.step, Option.ite_none_right_eq_some, Option.some.injEq] at h
      exact h.2 ▸ .wake (WorkerPc.isWaiting_iff.mp h.1)
  | finish w =>
      simp only [Sched.step] at h
      split at h
      next task busy => exact Option.some.inj h ▸ .finish busy
      next => cases h
  | shutdown => exact Option.some.inj h ▸ .shutdown
  | broadcast => exact Option.some.inj h ▸ .broadcast

/-! ### What the functions do -/

theorem tryEnqueueTask_refused {shutdown : Bool} {queue q : RingBuf τ} {task : τ}
    (h : tryEnqueueTask shutdown queue task = (false, q)) :
    (shutdown = true ∨ capacity ≤ queue.count) ∧ q = queue := by
  unfold tryEnqueueTask at h
  split at h
  next hc => exact ⟨by simpa using hc, (Prod.mk.inj h).2.symm⟩
  next => simp at h

theorem tryEnqueueTask_accepted {shutdown : Bool} {queue q : RingBuf τ} {task : τ}
    (h : tryEnqueueTask shutdown queue task = (true, q)) :
    shutdown = false ∧ queue.count < capacity ∧ q = queue.push capacity task := by
  unfold tryEnqueueTask at h
  split at h
  next => simp at h
  next hc =>
    simp only [Bool.or_eq_true, decide_eq_true_eq, not_or, Bool.not_eq_true, Nat.not_le] at hc
    exact ⟨hc.1, hc.2, (Prod.mk.inj h).2.symm⟩

/-- What a worker takes: the first task of one of its queues, all queues
tried before being empty. -/
theorem tryDequeueFirst_eq_some {queue queue' : Priority → RingBuf τ} {ps : List Priority}
    {p : Priority} {task : τ} (h : tryDequeueFirst queue ps = some (p, task, queue')) :
    ∃ tried rest, ps = tried ++ p :: rest ∧ (∀ q ∈ tried, (queue q).count = 0) ∧
      0 < (queue p).count ∧ task = (queue p).front ∧
      queue' = Function.update queue p ((queue p).pop capacity) := by
  induction ps with
  | nil => simp [tryDequeueFirst] at h
  | cons p' ps ih =>
      by_cases hcount : (queue p').count = 0
      · simp only [tryDequeueFirst, tryDequeueTaskLocked, hcount, if_true] at h
        obtain ⟨tried, rest, rfl, hempty, hrest⟩ := ih h
        refine ⟨p' :: tried, rest, rfl, ?_, hrest⟩
        intro q hq
        rcases List.mem_cons.mp hq with rfl | hq
        · exact hcount
        · exact hempty q hq
      · simp only [tryDequeueFirst, tryDequeueTaskLocked, hcount, if_false, Option.some.injEq,
          Prod.mk.injEq] at h
        obtain ⟨rfl, rfl, rfl⟩ := h
        exact ⟨[], ps, rfl, by simp, Nat.pos_of_ne_zero hcount, rfl, rfl⟩

theorem Kind.tries_pairwise (k : Kind) : k.tries.Pairwise fun p q => q.code < p.code := by
  cases k <;> decide

theorem Kind.mem_tried {k : Kind} {p q : Priority} {tried rest : List Priority}
    (h : k.tries = tried ++ p :: rest) (hq : q ∈ k.tries) (hpq : p.code < q.code) :
    q ∈ tried := by
  have hsorted := k.tries_pairwise
  rw [h] at hq hsorted
  rcases List.mem_append.mp hq with hq | hq
  · exact hq
  · have hrest := List.pairwise_cons.mp (List.pairwise_append.mp hsorted).2.1
    rcases List.mem_cons.mp hq with rfl | hq
    · omega
    · have := hrest.1 q hq
      omega

/-- A worker that took a task `t` of priority `p` between `s` and `s'`: it
is the oldest one there, and all queues of this worker that are higher
are empty. -/
structure Sched.Takes (s s' : Sched τ) (w : Fin 4) (p : Priority) (task : τ) : Prop where
  tries : p ∈ (kind w).tries
  higher : ∀ q ∈ (kind w).tries, p.code < q.code → (s.queue q).count = 0
  pos : 0 < (s.queue p).count
  front : task = (s.queue p).front
  worker : s'.worker = Function.update s.worker w (.busy task)
  queue : s'.queue = Function.update s.queue p ((s.queue p).pop capacity)
  taken : s'.taken = Function.update s.taken p (s.taken p ++ [task])
  accepted : s'.accepted = s.accepted
  shutdown : s'.shutdown = s.shutdown

/-- The critical section of a worker, all at once: it stops, sleeps, goes
round, or takes a task. -/
theorem Sched.lock_cases (s : Sched τ) (w : Fin 4) :
    s.shutdown = true ∧ s.lock w = s.goto w .stopped ∨
    s.shutdown = false ∧ (∀ p, (s.queue p).count = 0) ∧ s.lock w = s.goto w .waiting ∨
    s.shutdown = false ∧ s.lock w = s ∨
    s.shutdown = false ∧ ∃ p task, s.Takes (s.lock w) w p task := by
  by_cases hdown : s.shutdown = true
  · exact .inl ⟨hdown, by rw [Sched.lock, if_pos hdown]⟩
  rw [Bool.not_eq_true] at hdown
  by_cases hempty : s.allQueuesEmpty = true
  · refine .inr (.inl ⟨hdown, ?_, ?_⟩)
    · intro p
      simp only [allQueuesEmpty, Bool.and_eq_true, beq_iff_eq] at hempty
      cases p with
      | low => exact hempty.2
      | medium => exact hempty.1.2
      | high => exact hempty.1.1
    · simp [Sched.lock, hdown, hempty]
  refine .inr (.inr ?_)
  cases hdeq : tryDequeueFirst s.queue (kind w).tries with
  | none => exact .inl ⟨hdown, by simp [Sched.lock, hdown, hempty, hdeq]⟩
  | some taken =>
      obtain ⟨p, task, queue⟩ := taken
      obtain ⟨tried, rest, hsplit, htried, hpos, hfront, hqueue⟩ := tryDequeueFirst_eq_some hdeq
      have hlock : s.lock w = ({ s with
          queue := queue
          taken := Function.update s.taken p (s.taken p ++ [task]) } : Sched τ).goto w
            (.busy task) := by
        simp [Sched.lock, hdown, hempty, hdeq]
      refine .inr ⟨hdown, p, task, ?_⟩
      rw [hlock]
      exact
        { tries := by rw [hsplit]; simp
          higher := fun q hq hpq => htried q (Kind.mem_tried hsplit hq hpq)
          pos := hpos
          front := hfront
          worker := rfl
          queue := hqueue
          taken := rfl
          accepted := rfl
          shutdown := rfl }

/-- `try_enqueue_task`, all at once: it refuses and changes nothing, or it
accepts the task and wakes a waiting worker if there is one. -/
theorem Sched.tryEnqueue_cases {s s' : Sched τ} {p : Priority} {task : τ}
    {released : Option (Fin 4)} {ok : Bool} (h : s.tryEnqueue p task released = some (ok, s')) :
    ok = false ∧ (s.shutdown = true ∨ capacity ≤ (s.queue p).count) ∧ s' = s ∨
    ok = true ∧ s.shutdown = false ∧ (s.queue p).count < capacity ∧
      s'.queue = Function.update s.queue p ((s.queue p).push capacity task) ∧
      s'.accepted = Function.update s.accepted p (s.accepted p ++ [task]) ∧
      s'.taken = s.taken ∧ s'.shutdown = s.shutdown ∧
      ((∃ w, released = some w ∧ s.worker w = .waiting ∧
          s'.worker = Function.update s.worker w .start) ∨
        released = none ∧ (∀ w, s.worker w ≠ .waiting) ∧ s'.worker = s.worker) := by
  unfold Sched.tryEnqueue at h
  split at h
  next q hq =>
    simp only [Option.ite_none_right_eq_some, Option.some.injEq, Prod.mk.injEq] at h
    obtain ⟨-, rfl, rfl⟩ := h
    exact .inl ⟨rfl, (tryEnqueueTask_refused hq).1, rfl⟩
  next q hq =>
    obtain ⟨hdown, hlt, rfl⟩ := tryEnqueueTask_accepted hq
    obtain ⟨s₁, hs₁, heq⟩ := Option.map_eq_some_iff.mp h
    simp only [Prod.mk.injEq] at heq
    obtain ⟨rfl, rfl⟩ := heq
    refine .inr ⟨rfl, hdown, hlt, ?_⟩
    cases released with
    | some w =>
        simp only [Sched.signal, Option.ite_none_right_eq_some, Option.some.injEq] at hs₁
        obtain ⟨hw, rfl⟩ := hs₁
        exact ⟨rfl, rfl, rfl, rfl, .inl ⟨w, rfl, WorkerPc.isWaiting_iff.mp hw, rfl⟩⟩
    | none =>
        simp only [Sched.signal, Option.ite_none_right_eq_some, Option.some.injEq] at hs₁
        obtain ⟨hw, rfl⟩ := hs₁
        refine ⟨rfl, rfl, rfl, rfl, .inr ⟨rfl, fun w hwait => ?_, rfl⟩⟩
        have := hw w
        simp only [WorkerPc.isWaiting_iff.mpr hwait, Bool.true_eq_false] at this

/-! ### The rings over a run -/

/-- Each ring is well formed and holds what was accepted and not taken yet. -/
structure Sched.Inv (s : Sched τ) : Prop where
  valid : ∀ p, (s.queue p).Valid capacity
  contents : ∀ p, s.taken p ++ (s.queue p).contents capacity = s.accepted p

theorem Sched.Inv.init [Inhabited τ] : (Sched.init : Sched τ).Inv where
  valid := fun _ => ⟨rfl, Nat.zero_lt_succ _, Nat.zero_le _⟩
  contents := fun _ => rfl

/-- The queues are touched by enqueues and by workers that take a task. -/
theorem Sched.Inv.of_eq {s s' : Sched τ} (h : s.Inv) (hqueue : s'.queue = s.queue)
    (htaken : s'.taken = s.taken) (haccepted : s'.accepted = s.accepted) : s'.Inv where
  valid := by rw [hqueue]; exact h.valid
  contents := by rw [hqueue, htaken, haccepted]; exact h.contents

theorem Sched.Inv.enqueue {s s' : Sched τ} (h : s.Inv) {p : Priority} {task : τ}
    (hlt : (s.queue p).count < capacity)
    (hqueue : s'.queue = Function.update s.queue p ((s.queue p).push capacity task))
    (haccepted : s'.accepted = Function.update s.accepted p (s.accepted p ++ [task]))
    (htaken : s'.taken = s.taken) : s'.Inv := by
  refine ⟨fun q => ?_, fun q => ?_⟩
  · rw [hqueue]
    by_cases hq : q = p
    · subst hq
      rw [Function.update_self]
      exact (h.valid q).push hlt task
    · rw [Function.update_of_ne hq]
      exact h.valid q
  · rw [hqueue, haccepted, htaken]
    by_cases hq : q = p
    · subst hq
      rw [Function.update_self, Function.update_self, (h.valid q).contents_push hlt,
        ← List.append_assoc, h.contents]
    · rw [Function.update_of_ne hq, Function.update_of_ne hq]
      exact h.contents q

theorem Sched.Inv.takes {s s' : Sched τ} (h : s.Inv) {w : Fin 4} {p : Priority} {task : τ}
    (ht : s.Takes s' w p task) : s'.Inv := by
  refine ⟨fun q => ?_, fun q => ?_⟩
  · rw [ht.queue]
    by_cases hq : q = p
    · subst hq
      rw [Function.update_self]
      exact (h.valid q).pop ht.pos
    · rw [Function.update_of_ne hq]
      exact h.valid q
  · rw [ht.queue, ht.taken, ht.accepted, ← h.contents q]
    by_cases hq : q = p
    · subst hq
      rw [Function.update_self, Function.update_self, (h.valid q).contents_eq_cons ht.pos,
        ht.front, List.append_assoc]
      rfl
    · rw [Function.update_of_ne hq, Function.update_of_ne hq]

theorem Sched.Inv.lock {s : Sched τ} (h : s.Inv) (w : Fin 4) : (s.lock w).Inv := by
  rcases s.lock_cases w with ⟨-, hs⟩ | ⟨-, -, hs⟩ | ⟨-, hs⟩ | ⟨-, p, task, ht⟩
  · rw [hs]
    exact h.of_eq rfl rfl rfl
  · rw [hs]
    exact h.of_eq rfl rfl rfl
  · rw [hs]
    exact h
  · exact h.takes ht

theorem Sched.Inv.tryEnqueue {s s' : Sched τ} (h : s.Inv) {p : Priority} {task : τ}
    {released : Option (Fin 4)} {ok : Bool} (hs : s.tryEnqueue p task released = some (ok, s')) :
    s'.Inv := by
  rcases Sched.tryEnqueue_cases hs with ⟨-, -, rfl⟩ | ⟨-, -, hlt, hqueue, hacc, htaken, -⟩
  · exact h
  · exact h.enqueue hlt hqueue hacc htaken

theorem Sched.Inv.step {s s' : Sched τ} (h : s.Inv) {e : SchedEvent τ}
    (hs : s.step e = some s') : s'.Inv := by
  cases Sched.step_inv hs with
  | tryEnqueue eq => exact h.tryEnqueue eq
  | lock start => exact h.lock _
  | _ => exact h.of_eq rfl rfl rfl

theorem Sched.Takes.order {s s' : Sched τ} {w : Fin 4} {p : Priority} {task : τ}
    (h : s.Takes s' w p task) :
    (kind w = .high → ∀ q, p.code < q.code → (s.queue q).count = 0) ∧
    (kind w = .mid → p ≠ .high ∧ (p = .low → (s.queue .medium).count = 0)) ∧
    (kind w = .low → p = .low) := by
  have htries := h.tries
  have hhigher := h.higher
  refine ⟨fun hk q hpq => ?_, fun hk => ⟨?_, ?_⟩, fun hk => ?_⟩
  · refine hhigher q ?_ hpq
    rw [hk]
    cases q <;> decide
  · rintro rfl
    rw [hk] at htries
    revert htries
    decide
  · rintro rfl
    exact hhigher .medium (by rw [hk]; decide) (by decide)
  · rw [hk] at htries
    exact List.mem_singleton.mp htries

/-- **Priority scheduling.** In every state of the queues: each ring is
well formed, and what was taken from it, followed by what it holds, is
what it accepted, in that order. A worker that takes a task takes the
oldest one of a queue that it may take from, all higher ones of its
queues being empty. An enqueue is refused at the capacity or after the
shutdown only, and then changes nothing. -/
theorem priority_scheduling [Inhabited τ] {s : Sched τ}
    (hs : Reachable Sched.step (fun _ _ => True) Sched.init s) :
    (∀ p, (s.queue p).head = ((s.queue p).tail + (s.queue p).count) % capacity ∧
      (s.queue p).count ≤ capacity ∧
      s.taken p ++ (s.queue p).contents capacity = s.accepted p) ∧
    (∀ w s', s.step (.lock w) = some s' →
      s'.queue = s.queue ∧ s'.taken = s.taken ∨
      ∃ p task, (s.queue p).contents capacity = task :: (s'.queue p).contents capacity ∧
        s'.taken = Function.update s.taken p (s.taken p ++ [task]) ∧ s'.worker w = .busy task ∧
        (kind w = .high → ∀ q, p.code < q.code → (s.queue q).count = 0) ∧
        (kind w = .mid → p ≠ .high ∧ (p = .low → (s.queue .medium).count = 0)) ∧
        (kind w = .low → p = .low)) ∧
    (∀ p task released ok s', s.tryEnqueue p task released = some (ok, s') →
      (ok = true → s'.accepted p = s.accepted p ++ [task]) ∧
      (ok = false → (s.shutdown = true ∨ (s.queue p).count = capacity) ∧ s' = s)) := by
  have h : s.Inv := hs.invariant Sched.Inv.init fun s e s' h _ hstep => h.step hstep
  refine ⟨fun p => ⟨(h.valid p).head, (h.valid p).count, h.contents p⟩, ?_, ?_⟩
  · intro w s' hstep
    obtain ⟨⟩ := Sched.step_inv hstep
    rcases s.lock_cases w with ⟨-, hs⟩ | ⟨-, -, hs⟩ | ⟨-, hs⟩ | ⟨-, p, task, ht⟩
    · exact .inl ⟨by rw [hs]; rfl, by rw [hs]; rfl⟩
    · exact .inl ⟨by rw [hs]; rfl, by rw [hs]; rfl⟩
    · exact .inl ⟨by rw [hs], by rw [hs]⟩
    · refine .inr ⟨p, task, ?_, ht.taken, ?_, ht.order⟩
      · rw [(h.valid p).contents_eq_cons ht.pos, ht.queue, ht.front, Function.update_self]
      · rw [ht.worker, Function.update_self]
  · intro p task released ok s' hstep
    rcases Sched.tryEnqueue_cases hstep with
      ⟨rfl, hrefused, rfl⟩ | ⟨rfl, -, -, -, hacc, -⟩
    · refine ⟨by simp, fun _ => ⟨hrefused.imp_right fun hle => ?_, rfl⟩⟩
      exact le_antisymm (h.valid p).count hle
    · refine ⟨fun _ => ?_, by simp⟩
      rw [hacc, Function.update_self]

/-- Two tasks are enqueued, the first worker takes the higher one first. -/
def lowThenHigh : List (SchedEvent ℕ) :=
  [.tryEnqueue .low 5 none, .tryEnqueue .high 7 none, .lock firstWorker, .lock 2]

theorem priority_scheduling_lowThenHigh :
    ∃ s : Sched ℕ, Reachable Sched.step (fun _ _ => True) Sched.init s ∧
      s.taken .high = [7] ∧ s.taken .low = [5] ∧
      ∀ p, s.taken p ++ (s.queue p).contents capacity = s.accepted p := by
  have hrun : (runs (guarded Sched.step fun _ _ => True) Sched.init lowThenHigh).map
      (fun s => (s.taken .high, s.taken .low)) = some ([7], [5]) := by
    decide +kernel
  obtain ⟨s, hreach, hobs⟩ := Reachable.exists_of_runs hrun
  obtain ⟨hhigh, hlow⟩ := Prod.mk.injEq .. ▸ hobs
  exact ⟨s, hreach, hhigh, hlow, fun p => ((priority_scheduling hreach).1 p).2.2⟩

/-! ### Wake-ups -/

/-- There is a task of priority `p`, and every worker that may take it is
asleep. -/
def Sched.Starved (s : Sched τ) (p : Priority) : Prop :=
  0 < (s.queue p).count ∧ ∀ w, p ∈ (kind w).tries → s.worker w = .waiting

/-- An enqueue that accepts its task finds a worker that may take it awake,
or its signal wakes one. -/
def SignalReaches (s : Sched τ) : SchedEvent τ → Prop
  | .tryEnqueue p task released =>
      (tryEnqueueTask s.shutdown (s.queue p) task).1 = true →
        (∃ w, p ∈ (kind w).tries ∧ (s.worker w).isWaiting = false) ∨
        ∃ w, p ∈ (kind w).tries ∧ released = some w
  | _ => True

instance (s : Sched τ) (e : SchedEvent τ) : Decidable (SignalReaches s e) := by
  cases e <;> unfold SignalReaches <;> infer_instance

/-- Some worker that may take from a queue that holds a task is awake. -/
def Sched.Attended (s : Sched τ) : Prop :=
  ∀ p, 0 < (s.queue p).count → ∃ w, p ∈ (kind w).tries ∧ s.worker w ≠ .waiting

/-- It suffices that no worker falls asleep and no queue becomes nonempty. -/
theorem Sched.Attended.mono {s s' : Sched τ} (h : s.Attended)
    (hqueue : ∀ p, 0 < (s'.queue p).count → 0 < (s.queue p).count)
    (hworker : ∀ w, s.worker w ≠ .waiting → s'.worker w ≠ .waiting) : s'.Attended := by
  intro p hp
  obtain ⟨w, hw, hawake⟩ := h p (hqueue p hp)
  exact ⟨w, hw, hworker w hawake⟩

theorem update_ne_waiting {worker : Fin 4 → WorkerPc τ} {w v : Fin 4} {pc : WorkerPc τ}
    (hpc : pc ≠ .waiting) (hv : worker v ≠ .waiting) :
    Function.update worker w pc v ≠ .waiting := by
  by_cases hvw : v = w
  · subst hvw
    rwa [Function.update_self]
  · rwa [Function.update_of_ne hvw]

theorem Sched.Attended.lock {s : Sched τ} (h : s.Attended) (w : Fin 4) :
    (s.lock w).Attended := by
  rcases s.lock_cases w with ⟨-, hs⟩ | ⟨-, hempty, hs⟩ | ⟨-, hs⟩ | ⟨-, q, task, ht⟩
  · rw [hs]
    exact h.mono (fun _ hp => hp) fun v hv => update_ne_waiting (by simp) hv
  · -- A worker goes to sleep only if all queues are empty.
    intro p hp
    rw [hs] at hp
    exact absurd (hempty p) hp.ne'
  · rw [hs]
    exact h
  · refine h.mono (fun p hp => ?_) fun v hv => ?_
    · by_cases hpq : p = q
      · exact hpq ▸ ht.pos
      · rwa [ht.queue, Function.update_of_ne hpq] at hp
    · rw [ht.worker]
      exact update_ne_waiting (by simp) hv

theorem Sched.Attended.tryEnqueue {s s' : Sched τ} (h : s.Attended) {p : Priority} {task : τ}
    {released : Option (Fin 4)} {ok : Bool} (hs : s.tryEnqueue p task released = some (ok, s'))
    (hok : SignalReaches s (.tryEnqueue p task released)) : s'.Attended := by
  rcases Sched.tryEnqueue_cases hs with
    ⟨-, -, rfl⟩ | ⟨-, hdown, hlt, hqueue, -, -, -, hsignal⟩
  · exact h
  have haccept : (tryEnqueueTask s.shutdown (s.queue p) task).1 = true := by
    simp [tryEnqueueTask, hdown, Nat.not_le.mpr hlt]
  -- The signal wakes a worker and puts nobody to sleep.
  have hworker : ∀ w, s.worker w ≠ .waiting ∨ released = some w → s'.worker w ≠ .waiting := by
    intro w hw
    rcases hsignal with ⟨v, rfl, -, hv⟩ | ⟨rfl, hnone, hv⟩
    · rw [hv]
      rcases hw with hw | hw
      · exact update_ne_waiting (by simp) hw
      · obtain rfl : v = w := Option.some.inj hw
        simp
    · rw [hv]
      exact hnone w
  intro q hq
  by_cases hqp : q = p
  · subst hqp
    rcases hok haccept with ⟨w, hw, hawake⟩ | ⟨w, hw, hrel⟩
    · refine ⟨w, hw, hworker w (.inl fun hwait => ?_)⟩
      rw [WorkerPc.isWaiting_iff.mpr hwait] at hawake
      contradiction
    · exact ⟨w, hw, hworker w (.inr hrel)⟩
  · rw [hqueue, Function.update_of_ne hqp] at hq
    obtain ⟨w, hw, hawake⟩ := h q hq
    exact ⟨w, hw, hworker w (.inl hawake)⟩

theorem Sched.Attended.step {s s' : Sched τ} (h : s.Attended) {e : SchedEvent τ}
    (hok : SignalReaches s e) (hs : s.step e = some s') : s'.Attended := by
  cases Sched.step_inv hs with
  | tryEnqueue eq => exact h.tryEnqueue eq hok
  | lock start => exact h.lock _
  | wake waiting | finish busy =>
      exact h.mono (fun _ hp => hp) fun v hv => update_ne_waiting (by simp) hv
  | shutdown => exact h.mono (fun _ hp => hp) fun v hv => hv
  | broadcast =>
      refine h.mono (fun _ hp => hp) fun v hv => ?_
      show (if (s.worker v).isWaiting then .start else s.worker v) ≠ .waiting
      split
      · simp
      · exact hv

/-- **No lost wake-up**, in a run in which every signal reaches a worker
that may take the task, if all of those are asleep. -/
theorem no_lost_wakeup [Inhabited τ] {s : Sched τ}
    (hs : Reachable Sched.step SignalReaches Sched.init s) (p : Priority) : ¬ s.Starved p := by
  have h : s.Attended := by
    refine hs.invariant (fun p hp => ?_) fun s e s' h hok hstep => h.step hok hstep
    exact absurd hp (lt_irrefl 0)
  rintro ⟨hpos, hasleep⟩
  obtain ⟨w, hw, hawake⟩ := h p hpos
  exact hawake (hasleep w hw)

def allAsleep : List (SchedEvent ℕ) := [.lock 0, .lock 1, .lock 2, .lock 3]

theorem no_lost_wakeup_highReleased :
    ∃ s : Sched ℕ, Reachable Sched.step SignalReaches Sched.init s ∧
      (s.queue .high).count = 1 ∧ s.worker 1 = .waiting ∧ ¬ s.Starved .high := by
  have hrun : (runs (guarded Sched.step SignalReaches) Sched.init
      (allAsleep ++ [.tryEnqueue .high 7 (some 0)])).map
      (fun s => ((s.queue .high).count, s.worker 1)) = some (1, .waiting) := by
    decide +kernel
  obtain ⟨s, hreach, hobs⟩ := Reachable.exists_of_runs hrun
  obtain ⟨hcount, hwait⟩ := Prod.mk.injEq .. ▸ hobs
  exact ⟨s, hreach, hcount, hwait, no_lost_wakeup hreach .high⟩

/-- The signal for a `HIGH` task releases the worker that takes `LOW` tasks
only. It finds nothing it may take and goes round; the task stays, and
both workers that may take it sleep on. -/
theorem lost_wakeup_lowReleased :
    ∃ s : Sched ℕ, Reachable Sched.step (fun _ _ => True) Sched.init s ∧
      s.shutdown = false ∧ s.Starved .high := by
  have hrun : (runs (guarded Sched.step fun _ _ => True) Sched.init
      (allAsleep ++ [.tryEnqueue .high 7 (some 3), .lock 3])).map
      (fun s => (s.shutdown, (s.queue .high).count, s.worker 0, s.worker 1)) =
        some (false, 1, .waiting, .waiting) := by
    decide +kernel
  obtain ⟨s, hreach, hobs⟩ := Reachable.exists_of_runs hrun
  simp only [Prod.mk.injEq] at hobs
  obtain ⟨hdown, hcount, h0, h1⟩ := hobs
  refine ⟨s, hreach, hdown, by omega, fun w hw => ?_⟩
  fin_cases w
  · exact h0
  · exact h1
  · exact absurd hw (by decide)
  · exact absurd hw (by decide)

end LinuxMiniProjects.ControlPlane
