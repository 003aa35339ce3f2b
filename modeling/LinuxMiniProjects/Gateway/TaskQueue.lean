import LinuxMiniProjects.Lib.Machine
import LinuxMiniProjects.Gateway.Common

/-!
The task queue of the gateway (`queue.c`): the main thread pushes, the
workers pop, each under the queue's lock.

The queue is a chain of `struct task` cells with a head link, a tail link
and a count. Next to it stands the bounded first-in-first-out queue it is
meant to be, `Fifo`, and the question is whether the first refines the
second. It does as long as the queue is never pushed to while it holds a
task, and not a step longer: `push` links the new cell behind the tail
cell but leaves the tail link where it was, so the next push overwrites
that link and the cell in between is lost.
-/

namespace LinuxMiniProjects.Gateway

open LinkedList Machine

abbrev TaskMem := Mem Addr Task

/-- `struct task_queue`, without the lock and the condition variables. -/
structure TaskQueue where
  head : Option Addr
  tail : Option Addr
  size : ℕ
  maxSize : ℕ
  shutdown : Bool

/-- The queue as `server_init` finds it, in a `memset` server. -/
def TaskQueue.zeroed : TaskQueue := ⟨none, none, 0, 0, false⟩

/-- `task_queue_init`; a queue of size zero is refused and left as it
was. -/
def taskQueueInit (queue : TaskQueue) (size : ℕ) : TaskQueue :=
  if size = 0 then queue else ⟨none, none, 0, size, false⟩

def push (m : TaskMem) (queue : TaskQueue) (task : Addr) : ℤ × TaskMem × TaskQueue :=
  if queue.shutdown then (-1, m, queue)
  else if queue.maxSize ≤ queue.size then (-eagain, m, queue)
  else
    match queue.tail with
    | none =>
        (0, m.setLink task none,
          { queue with tail := some task, head := some task, size := queue.size + 1 })
    | some t =>
        -- the tail link keeps its old value here
        (0, (m.setLink t (some task)).setLink task none, { queue with size := queue.size + 1 })

inductive PopResult
  /-- The queue is empty and not shut down: the worker waits. -/
  | wait
  /-- The queue is empty and shut down: `NULL`. -/
  | null
  /-- `queue->head->next_task` with a null head. -/
  | fault
  /-- A task. -/
  | task (t : Addr)

def pop (m : TaskMem) (queue : TaskQueue) : PopResult × TaskMem × TaskQueue :=
  if queue.size = 0 ∧ queue.shutdown = false then (.wait, m, queue)
  else if queue.shutdown = true ∧ queue.size = 0 then (.null, m, queue)
  else
    match queue.head with
    | none => (.fault, m, queue)
    | some t =>
        (.task t, m.setLink t none,
          { queue with
            head := (m t).link
            tail := if (m t).link = none then none else queue.tail
            size := queue.size - 1 })

def taskQueueShutdown (queue : TaskQueue) : TaskQueue := { queue with shutdown := true }

/-! ### The queue in use

The main thread allocates a task, fills it and pushes it, and frees it
when the push is refused; a worker pops a task and frees it when it is
done with it. `live` lists the cells that are allocated, `held` those a
worker has popped and not freed. -/

structure QueueSys where
  mem : TaskMem
  queue : TaskQueue
  live : List Addr
  held : List Addr

inductive QueueOp
  /-- `build_task` at the address `a`, then `push`. -/
  | push (a : Addr) (t : Task)
  /-- A step of `pop` by the worker `w`. -/
  | pop (w : ℕ)
  /-- A worker frees the task at `a`. -/
  | release (a : Addr)
  | shutdown

inductive QueueOut
  | pushed (ret : ℤ)
  | wait
  | null
  | fault
  | popped (t : Task)
  | done
  deriving DecidableEq

def queueStep (s : QueueSys) : QueueOp → QueueOut × QueueSys
  | .push a t =>
      let (ret, mem, queue) := push (s.mem.alloc a t) s.queue a
      (.pushed ret,
        { s with mem := mem, queue := queue, live := if ret < 0 then s.live else a :: s.live })
  | .pop _ =>
      match pop s.mem s.queue with
      | (.wait, _, _) => (.wait, s)
      | (.null, _, _) => (.null, s)
      | (.fault, _, _) => (.fault, s)
      | (.task a, mem, queue) =>
          (.popped (s.mem a).val, { s with mem := mem, queue := queue, held := a :: s.held })
  | .release a =>
      (.done, { s with live := s.live.filter (· ≠ a), held := s.held.filter (· ≠ a) })
  | .shutdown => (.done, { s with queue := taskQueueShutdown s.queue })

/-- The allocator hands out cells that are not in use, and a worker frees
only what it has popped. -/
def QueueOp.Legal (s : QueueSys) : QueueOp → Prop
  | .push a _ => a ∉ s.live
  | .release a => a ∈ s.held
  | .pop _ => True
  | .shutdown => True

instance (s : QueueSys) : (op : QueueOp) → Decidable (op.Legal s)
  | .push a _ => inferInstanceAs (Decidable (a ∉ s.live))
  | .release a => inferInstanceAs (Decidable (a ∈ s.held))
  | .pop _ => isTrue trivial
  | .shutdown => isTrue trivial

def queueInit (m : TaskMem) (max : ℕ) : QueueSys :=
  ⟨m, taskQueueInit .zeroed max, [], []⟩

/-! ### The specification -/

structure Fifo where
  items : List Task
  maxSize : ℕ
  shutdown : Bool

def fifoStep (f : Fifo) : QueueOp → QueueOut × Fifo
  | .push _ t =>
      if f.shutdown then (.pushed (-1), f)
      else if f.maxSize ≤ f.items.length then (.pushed (-eagain), f)
      else (.pushed 0, { f with items := f.items ++ [t] })
  | .pop _ =>
      match f.items with
      | [] => (if f.shutdown then .null else .wait, f)
      | t :: ts => (.popped t, { f with items := ts })
  | .release _ => (.done, f)
  | .shutdown => (.done, { f with shutdown := true })

def fifoInit (max : ℕ) : Fifo := ⟨[], max, false⟩

/-- The representation invariant: `size` counts the chain of `next_task`
links from `head`, and `tail` is its last cell. -/
def QueueSys.Consistent (s : QueueSys) : Prop :=
  ∃ xs, Queue s.mem.links s.queue.head s.queue.tail xs ∧ s.queue.size = xs.length

structure QueueSys.Represents (s : QueueSys) (f : Fifo) (xs : List Addr) : Prop where
  queue : Queue s.mem.links s.queue.head s.queue.tail xs
  size : s.queue.size = xs.length
  items : xs.map (fun a => (s.mem a).val) = f.items
  maxSize : s.queue.maxSize = f.maxSize
  shutdown : s.queue.shutdown = f.shutdown
  live : ∀ a ∈ xs, a ∈ s.live
  held : ∀ a ∈ xs, a ∉ s.held
  heldLive : ∀ a ∈ s.held, a ∈ s.live

theorem QueueSys.Represents.consistent {s : QueueSys} {f : Fifo} {xs : List Addr}
    (h : s.Represents f xs) : s.Consistent := ⟨xs, h.queue, h.size⟩

def PushFindsEmpty (s : QueueSys) : QueueOp → Prop
  | .push _ _ => s.queue.shutdown = true ∨ s.queue.maxSize ≤ s.queue.size ∨ s.queue.size = 0
  | _ => True

instance (s : QueueSys) : (op : QueueOp) → Decidable (PushFindsEmpty s op)
  | .push _ _ => inferInstanceAs (Decidable
      (s.queue.shutdown = true ∨ s.queue.maxSize ≤ s.queue.size ∨ s.queue.size = 0))
  | .pop _ => isTrue trivial
  | .release _ => isTrue trivial
  | .shutdown => isTrue trivial

theorem represents_init (m : TaskMem) (max : ℕ) :
    (queueInit m max).Represents (fifoInit max) [] := by
  unfold queueInit taskQueueInit
  split
  · subst_vars
    exact ⟨Queue.empty _, rfl, rfl, rfl, rfl, by simp, by simp, by simp⟩
  · exact ⟨Queue.empty _, rfl, rfl, rfl, rfl, by simp, by simp, by simp⟩

/-! ### One step -/

section Step

variable {s : QueueSys} {f : Fifo} {xs : List Addr}

theorem QueueSys.Represents.alloc (h : s.Represents f xs) {a : Addr} (ha : a ∉ s.live)
    (t : Task) :
    Queue (s.mem.alloc a t).links s.queue.head s.queue.tail xs ∧
      xs.map (fun b => ((s.mem.alloc a t) b).val) = f.items := by
  have hax : a ∉ xs := fun hx => ha (h.live a hx)
  refine ⟨⟨?_, h.queue.last⟩, ?_⟩
  · rw [Mem.links_alloc]
    exact Path.update h.queue.chain hax none
  · rw [← h.items]
    refine List.map_congr_left fun b hb => ?_
    exact Mem.val_alloc_of_ne _ _ (by rintro rfl; exact hax hb)

theorem QueueSys.Represents.refused (h : s.Represents f xs) {a : Addr} (ha : a ∉ s.live)
    (t : Task) : ({ s with mem := s.mem.alloc a t } : QueueSys).Represents f xs := by
  obtain ⟨hq, hi⟩ := h.alloc ha t
  exact ⟨hq, h.size, hi, h.maxSize, h.shutdown, h.live, h.held, h.heldLive⟩

theorem QueueSys.Represents.push_nil (h : s.Represents f []) {a : Addr} (ha : a ∉ s.live)
    (t : Task) :
    ({ s with
        mem := (s.mem.alloc a t).setLink a none
        queue := { s.queue with tail := some a, head := some a, size := s.queue.size + 1 }
        live := a :: s.live } : QueueSys).Represents { f with items := f.items ++ [t] } [a] where
  queue := by
    rw [Mem.links_setLink]
    exact Queue.enqueue_nil a
  size := by simp [h.size]
  items := by simp [← h.items]
  maxSize := h.maxSize
  shutdown := h.shutdown
  live := by simp
  held b hb hh := by
    obtain rfl : b = a := by simpa using hb
    exact ha (h.heldLive b hh)
  heldLive b hb := List.mem_cons_of_mem _ (h.heldLive b hb)

theorem QueueSys.Represents.pop_cons {a : Addr} (h : s.Represents f (a :: xs)) :
    ({ s with
        mem := s.mem.setLink a none
        queue := { s.queue with
          head := (s.mem a).link
          tail := if (s.mem a).link = none then none else s.queue.tail
          size := s.queue.size - 1 }
        held := a :: s.held } : QueueSys).Represents { f with items := f.items.tail } xs where
  queue := by
    rw [Mem.links_setLink]
    exact h.queue.dequeue
  size := by simp [h.size]
  items := by simp [← h.items]
  maxSize := h.maxSize
  shutdown := h.shutdown
  live b hb := h.live b (by simp [hb])
  held b hb := by
    have hne : b ≠ a := by
      rintro rfl
      exact (List.nodup_cons.mp h.queue.chain.nodup).1 hb
    simpa [hne] using h.held b (by simp [hb])
  heldLive b hb := by
    rcases List.mem_cons.mp hb with rfl | hb
    · exact h.live b (by simp)
    · exact h.heldLive b hb

theorem QueueSys.Represents.release (h : s.Represents f xs) {a : Addr} (ha : a ∈ s.held) :
    ({ s with
        live := s.live.filter (· ≠ a)
        held := s.held.filter (· ≠ a) } : QueueSys).Represents f xs where
  queue := h.queue
  size := h.size
  items := h.items
  maxSize := h.maxSize
  shutdown := h.shutdown
  live b hb := by
    have hne : b ≠ a := by rintro rfl; exact h.held b hb ha
    simpa [hne] using h.live b hb
  held b hb hh := h.held b hb (List.mem_of_mem_filter hh)
  heldLive b hb := by
    obtain ⟨hb, hne⟩ := List.mem_filter.mp hb
    exact List.mem_filter.mpr ⟨h.heldLive b hb, hne⟩

theorem queueStep_push_refines (h : s.Represents f xs) {a : Addr} {t : Task} (ha : a ∉ s.live)
    (hok : PushFindsEmpty s (.push a t)) :
    (queueStep s (.push a t)).1 = (fifoStep f (.push a t)).1 ∧
      ∃ ys, (queueStep s (.push a t)).2.Represents (fifoStep f (.push a t)).2 ys := by
  have hlen : f.items.length = xs.length := by rw [← h.items]; simp
  by_cases hsd : f.shutdown = true
  · have hpush : push (s.mem.alloc a t) s.queue a = (-1, s.mem.alloc a t, s.queue) := by
      simp [push, h.shutdown, hsd]
    refine ⟨by simp [queueStep, fifoStep, hpush, hsd], xs, ?_⟩
    simpa [queueStep, fifoStep, hpush, hsd] using h.refused ha t
  by_cases hfull : f.maxSize ≤ xs.length
  · have hpush : push (s.mem.alloc a t) s.queue a = (-eagain, s.mem.alloc a t, s.queue) := by
      simp [push, h.shutdown, hsd, h.maxSize, h.size, hfull]
    refine ⟨by simp [queueStep, fifoStep, hpush, hsd, hlen, hfull], xs, ?_⟩
    simpa [queueStep, fifoStep, hpush, hsd, hlen, hfull, eagain] using h.refused ha t
  -- the push is accepted, so by `hok` the queue is empty
  have hnil : xs = [] := by
    simp only [PushFindsEmpty, h.shutdown, h.maxSize, h.size] at hok
    simpa [hsd, hfull] using hok
  subst hnil
  have hpush : push (s.mem.alloc a t) s.queue a =
      (0, (s.mem.alloc a t).setLink a none,
        { s.queue with tail := some a, head := some a, size := s.queue.size + 1 }) := by
    have htail : s.queue.tail = none := h.queue.last
    rw [push, if_neg (by rw [h.shutdown]; exact hsd),
      if_neg (by rw [h.maxSize, h.size]; exact hfull), htail]
  have hfifo : fifoStep f (.push a t) = (.pushed 0, { f with items := f.items ++ [t] }) := by
    rw [fifoStep, if_neg hsd, if_neg (by rw [hlen]; exact hfull)]
  refine ⟨by simp [queueStep, hfifo, hpush], [a], ?_⟩
  simpa [queueStep, hfifo, hpush] using h.push_nil ha t

theorem queueStep_pop_refines (h : s.Represents f xs) (w : ℕ) :
    (queueStep s (.pop w)).1 = (fifoStep f (.pop w)).1 ∧
      ∃ ys, (queueStep s (.pop w)).2.Represents (fifoStep f (.pop w)).2 ys := by
  cases xs with
  | nil =>
      have hitems : f.items = [] := by simpa using h.items.symm
      simp only [queueStep, fifoStep, pop, h.size, h.shutdown, hitems]
      cases hsd : f.shutdown with
      | true | false => exact ⟨by simp, [], by simpa using h⟩
  | cons a xs =>
      have hitems : f.items = (s.mem a).val :: xs.map fun b => (s.mem b).val := by
        simpa using h.items.symm
      have hhead : s.queue.head = some a := h.queue.chain.1
      simp only [queueStep, fifoStep, pop, hitems, hhead]
      rw [if_neg (by simp [h.size]), if_neg (by simp [h.size])]
      refine ⟨rfl, xs, ?_⟩
      simpa [hitems] using h.pop_cons

/-- A step that does not push into a nonempty queue is answered as the
bounded queue answers it. -/
theorem queueStep_refines (h : s.Represents f xs) {op : QueueOp} (hl : op.Legal s)
    (hok : PushFindsEmpty s op) :
    (queueStep s op).1 = (fifoStep f op).1 ∧
      ∃ ys, (queueStep s op).2.Represents (fifoStep f op).2 ys := by
  cases op with
  | push a t => exact queueStep_push_refines h hl hok
  | pop w => exact queueStep_pop_refines h w
  | release a => exact ⟨rfl, xs, h.release hl⟩
  | shutdown =>
      exact ⟨rfl, xs, h.queue, h.size, h.items, h.maxSize, rfl, h.live, h.held, h.heldLive⟩

/-- A push into a nonempty queue that is not refused leaves the tail link
behind the end of the chain. -/
theorem not_consistent_push (h : s.Represents f xs) {op : QueueOp} (hl : op.Legal s)
    (hok : ¬ PushFindsEmpty s op) : ¬ (queueStep s op).2.Consistent := by
  cases op with
  | push a t =>
      simp only [PushFindsEmpty, not_or, Bool.not_eq_true, not_le] at hok
      obtain ⟨hsd, hfull, hne⟩ := hok
      have hax : a ∉ xs := fun hx => hl (h.live a hx)
      obtain ⟨b, ys, hb⟩ : ∃ b ys, xs = ys ++ [b] := by
        have : xs ≠ [] := by rintro rfl; exact hne (by simp [h.size])
        exact ⟨_, _, (List.dropLast_append_getLast this).symm⟩
      subst hb
      have htail : s.queue.tail = some b := by simpa using h.queue.last
      -- the chain now ends in the new cell
      have hchain := (h.alloc hl t).1.chain.snoc hax
      simp only [queueStep, push, hsd, htail]
      rw [if_neg (by simp), if_neg (by omega)]
      rintro ⟨zs, hq, -⟩
      simp only [Mem.links_setLink] at hq
      have hzs := hq.chain.unique hchain
      have hlast := hq.last
      simp only [hzs, List.getLast?_append] at hlast
      have : b = a := by simpa using hlast
      exact hax (by simp [this])
  | pop w | release a | shutdown => exact absurd trivial hok

end Step

/-! ### Whole runs -/

/-- Over the run `ops` after `task_queue_init(max)` the queue behaves as
the bounded queue: every call returns what it would return there, and in
every state the links and the count are consistent, so that a nonempty
queue has a head. -/
def RefinesFifo (m : TaskMem) (max : ℕ) (ops : List QueueOp) : Prop :=
  trace queueStep (queueInit m max) ops = trace fifoStep (fifoInit max) ops ∧
    Always queueStep
      (fun s => s.Consistent ∧ (s.queue.tail = none ↔ s.queue.head = none) ∧
        (0 < s.queue.size → s.queue.head ≠ none))
      (queueInit m max) ops

theorem QueueSys.Consistent.head_ne_none {s : QueueSys} (h : s.Consistent)
    (hs : 0 < s.queue.size) : s.queue.head ≠ none := by
  obtain ⟨xs, hq, hlen⟩ := h
  rw [hq.chain.head?]
  cases xs with
  | nil => simp [hlen] at hs
  | cons a xs => simp

/-- If every state of a run is consistent, no push of the run was
accepted by a nonempty queue. -/
theorem meets_of_consistent {s : QueueSys} {f : Fifo} {xs : List Addr} {ops : List QueueOp}
    (h : s.Represents f xs) (hl : Meets queueStep (fun s op => op.Legal s) s ops)
    (hc : Always queueStep QueueSys.Consistent s ops) :
    Meets queueStep PushFindsEmpty s ops := by
  induction ops generalizing s f xs with
  | nil => trivial
  | cons op ops ih =>
      have hok : PushFindsEmpty s op := by
        by_contra hok
        exact not_consistent_push h hl.1 hok hc.2.start
      obtain ⟨-, ys, h'⟩ := queueStep_refines h hl.1 hok
      exact ⟨hok, ih h' hl.2 hc.2⟩

/-- Over a run of legal operations the queue behaves as a bounded queue
if and only if no push of the run is accepted while a task is queued. -/
theorem refinesFifo_iff_pushFindsEmpty (m : TaskMem) (max : ℕ) (ops : List QueueOp)
    (hl : Meets queueStep (fun s op => op.Legal s) (queueInit m max) ops) :
    RefinesFifo m max ops ↔ Meets queueStep PushFindsEmpty (queueInit m max) ops := by
  have hinit := represents_init m max
  constructor
  · rintro ⟨-, hc⟩
    exact meets_of_consistent hinit hl (hc.mono fun _ h => h.1)
  · intro hok
    have hstep : ∀ s f op, (∃ xs, s.Represents f xs) → (op.Legal s ∧ PushFindsEmpty s op) →
        (queueStep s op).1 = (fifoStep f op).1 ∧
          ∃ xs, (queueStep s op).2.Represents (fifoStep f op).2 xs := by
      rintro s f op ⟨xs, h⟩ ⟨hl, hok⟩
      exact queueStep_refines h hl hok
    obtain ⟨htrace, halways⟩ := trace_eq_of_simulation
      (fun s f => ∃ xs, s.Represents f xs) hstep ⟨[], hinit⟩ (hl.and hok)
    refine ⟨htrace, halways.mono ?_⟩
    rintro s ⟨f, xs, h⟩
    exact ⟨h.consistent, h.queue.tail_eq_none_iff, h.consistent.head_ne_none⟩

/-! The smallest run on which a task is lost: three pushes, then three
pops. The second task is skipped, and the third pop finds a null head
while the count is one. -/

def blankTaskMem : TaskMem := fun _ => ⟨⟨0, 0, 0, 0, [], 0, 0⟩, none⟩

def echoTask (id : UInt32) : Task := ⟨0, 1, msgEcho, id, [], 5000, 0⟩

def threeQueued : List QueueOp :=
  [.push 1 (echoTask 1), .push 2 (echoTask 2), .push 3 (echoTask 3), .pop 0, .pop 1, .pop 2]

theorem not_refinesFifo_threeQueued :
    Meets queueStep (fun s op => op.Legal s) (queueInit blankTaskMem taskQueueMax) threeQueued ∧
      trace queueStep (queueInit blankTaskMem taskQueueMax) threeQueued =
        [.pushed 0, .pushed 0, .pushed 0, .popped (echoTask 1), .popped (echoTask 3), .fault] ∧
      ¬ RefinesFifo blankTaskMem taskQueueMax threeQueued := by
  have htrace : trace queueStep (queueInit blankTaskMem taskQueueMax) threeQueued =
      [.pushed 0, .pushed 0, .pushed 0, .popped (echoTask 1), .popped (echoTask 3), .fault] := by
    decide
  refine ⟨by decide, htrace, fun h => ?_⟩
  have hfifo := h.1
  rw [htrace] at hfifo
  exact absurd hfifo (by decide)

/-- A run that pushes only into an empty queue, with a full round trip of
two tasks and a reused cell. -/
theorem refinesFifo_pushPopPushPop :
    RefinesFifo blankTaskMem taskQueueMax
      [.push 1 (echoTask 1), .pop 0, .release 1, .push 1 (echoTask 2), .pop 3, .shutdown, .pop 0] :=
  (refinesFifo_iff_pushFindsEmpty blankTaskMem taskQueueMax _ (by decide)).mpr (by decide)

end LinuxMiniProjects.Gateway
