import LinuxMiniProjects.Lib.Machine
import LinuxMiniProjects.Gateway.Common

/-!
The response queue of the gateway (`queue.c`): the workers push, the main
thread pops, each under the queue's lock.

It is the task queue once more, without the blocking and the shutdown,
and with the assignment the task queue lacks: a push moves the tail link
to the new cell. So the chain of cells is a bounded
first-in-first-out queue, over every interleaving of the two operations
and whatever addresses the allocator hands out again.

A response is made by a worker before it is pushed, and it is freed some
time after it was popped, or when its push was refused. In between its
cell belongs to a thread, and other threads may push and pop.
-/

namespace LinuxMiniProjects.Gateway

open LinkedList Machine

abbrev ResponseMem := Mem Addr Response

structure ResponseQueue where
  head : Option Addr
  tail : Option Addr
  size : ℕ
  maxSize : ℕ

/-- `response_queue_init`; a queue of size zero is refused and left as it
was. -/
def responseQueueInit (queue : ResponseQueue) (size : ℕ) : ResponseQueue :=
  if size = 0 then queue else ⟨none, none, 0, size⟩

/-- `response_queue_push`: the value returned, the cells and the queue
afterwards. -/
def responseQueuePush (m : ResponseMem) (queue : ResponseQueue) (response : Addr) :
    ℤ × ResponseMem × ResponseQueue :=
  if queue.maxSize ≤ queue.size then (-eagain, m, queue)
  else
    match queue.tail with
    | none =>
        (0, m.setLink response none,
          { queue with head := some response, tail := some response, size := queue.size + 1 })
    | some t =>
        (0, (m.setLink t (some response)).setLink response none,
          { queue with tail := some response, size := queue.size + 1 })

inductive ResponsePop
  /-- The queue is empty: `NULL`. -/
  | null
  /-- `ret_res->next_response` with a null head. -/
  | fault
  /-- A response. -/
  | response (a : Addr)

def responseQueuePop (m : ResponseMem) (queue : ResponseQueue) :
    ResponsePop × ResponseMem × ResponseQueue :=
  if queue.size = 0 then (.null, m, queue)
  else
    match queue.head with
    | none => (.fault, m, queue)
    | some a =>
        (.response a, m.setLink a none,
          { queue with
            head := (m a).link
            tail := if (m a).link = none then none else queue.tail
            size := queue.size - 1 })

/-! ### The queue in use

`live` lists the cells that are allocated, `owned` those of them that
belong to a thread: made and not yet pushed, refused, or popped and not
yet freed. -/

structure ResponseSys where
  mem : ResponseMem
  queue : ResponseQueue
  live : List Addr
  owned : List Addr

inductive ResponseOp
  /-- `make_response` at the address `a`. -/
  | make (a : Addr) (r : Response)
  /-- A worker pushes the response `r`, which it has made at `a`. -/
  | push (a : Addr) (r : Response)
  | pop
  /-- A thread frees a response. -/
  | free (a : Addr)

inductive ResponseOut
  | pushed (ret : ℤ)
  | null
  | fault
  | popped (a : Addr) (r : Response)
  | done
  deriving DecidableEq

def responseStep (s : ResponseSys) : ResponseOp → ResponseOut × ResponseSys
  | .make a r =>
      (.done, { s with mem := s.mem.alloc a r, live := a :: s.live, owned := a :: s.owned })
  | .push a _ =>
      let (ret, mem, queue) := responseQueuePush s.mem s.queue a
      (.pushed ret,
        { s with
          mem := mem
          queue := queue
          owned := if ret = 0 then s.owned.filter (· ≠ a) else s.owned })
  | .pop =>
      match responseQueuePop s.mem s.queue with
      | (.null, _, _) => (.null, s)
      | (.fault, _, _) => (.fault, s)
      | (.response a, mem, queue) =>
          (.popped a (s.mem a).val, { s with mem := mem, queue := queue, owned := a :: s.owned })
  | .free a =>
      (.done, { s with live := s.live.filter (· ≠ a), owned := s.owned.filter (· ≠ a) })

/-- The allocator hands out cells that are not in use, and a thread pushes
and frees only what belongs to it. -/
def ResponseOp.Legal (s : ResponseSys) : ResponseOp → Prop
  | .make a _ => a ∉ s.live
  | .push a r => a ∈ s.owned ∧ (s.mem a).val = r
  | .pop => True
  | .free a => a ∈ s.owned

instance ResponseOp.decidableLegal (s : ResponseSys) : (op : ResponseOp) → Decidable (op.Legal s)
  | .make a _ => inferInstanceAs (Decidable (a ∉ s.live))
  | .push a r => inferInstanceAs (Decidable (a ∈ s.owned ∧ (s.mem a).val = r))
  | .pop => isTrue trivial
  | .free a => inferInstanceAs (Decidable (a ∈ s.owned))

/-- The queue after `response_queue_init(max)`, whatever memory and queue
held before. -/
def responseInit (m : ResponseMem) (queue : ResponseQueue) (max : ℕ) : ResponseSys :=
  ⟨m, responseQueueInit queue max, [], []⟩

/-! ### The specification -/

/-- A bounded first-in-first-out queue of responses, each with the address
it is passed by. -/
structure BoundedFifo where
  items : List (Addr × Response)
  maxSize : ℕ

/-- A push is refused exactly when the queue is full, and a pop finds
nothing exactly when it is empty. -/
def boundedStep (f : BoundedFifo) : ResponseOp → ResponseOut × BoundedFifo
  | .make _ _ => (.done, f)
  | .push a r =>
      if f.maxSize ≤ f.items.length then (.pushed (-eagain), f)
      else (.pushed 0, { f with items := f.items ++ [(a, r)] })
  | .pop =>
      match f.items with
      | [] => (.null, f)
      | (a, r) :: items => (.popped a r, { f with items := items })
  | .free _ => (.done, f)

def accepted : List ResponseOp → List ResponseOut → List (Addr × Response)
  | .push a r :: ops, .pushed ret :: outs =>
      if ret = 0 then (a, r) :: accepted ops outs else accepted ops outs
  | _ :: ops, _ :: outs => accepted ops outs
  | _, _ => []

def popped : List ResponseOut → List (Addr × Response)
  | .popped a r :: outs => (a, r) :: popped outs
  | _ :: outs => popped outs
  | [] => []

/-- Over a run of the bounded queue, what was in it and what was accepted
is what was popped and what is still in it, in this order. -/
theorem bounded_account (f : BoundedFifo) (ops : List ResponseOp) :
    f.items ++ accepted ops (trace boundedStep f ops) =
      popped (trace boundedStep f ops) ++ (exec boundedStep f ops).items := by
  induction ops generalizing f with
  | nil => simp [trace, exec, accepted, popped]
  | cons op ops ih =>
      cases op with
      | make a r | free a => simpa [trace, exec, boundedStep, accepted, popped] using ih f
      | push a r =>
          by_cases hfull : f.maxSize ≤ f.items.length
          · have hstep : boundedStep f (.push a r) = (.pushed (-eagain), f) := if_pos hfull
            simpa [trace, exec, hstep, accepted, popped, eagain] using ih f
          · have hstep : boundedStep f (.push a r) =
                (.pushed 0, { f with items := f.items ++ [(a, r)] }) := if_neg hfull
            simpa [trace, exec, hstep, accepted, popped] using
              ih { f with items := f.items ++ [(a, r)] }
      | pop =>
          obtain ⟨items, maxSize⟩ := f
          cases items with
          | nil => simpa [trace, exec, boundedStep, accepted, popped] using ih ⟨[], maxSize⟩
          | cons p items =>
              simpa [trace, exec, boundedStep, accepted, popped] using ih ⟨items, maxSize⟩

/-! ### One step -/

/-- The representation invariant: `size` counts the chain of
`next_response` links from `head` and is within its bound, `tail` is the
last cell of the chain, and no cell of it is free or belongs to a
thread. -/
def ResponseSys.Consistent (s : ResponseSys) : Prop :=
  ∃ xs, Queue s.mem.links s.queue.head s.queue.tail xs ∧ s.queue.size = xs.length ∧
    s.queue.size ≤ s.queue.maxSize ∧ ∀ a ∈ xs, a ∈ s.live ∧ a ∉ s.owned

/-- The queue holds the cells `xs` and represents the bounded queue `f`. -/
structure ResponseSys.Represents (s : ResponseSys) (f : BoundedFifo) (xs : List Addr) : Prop where
  queue : Queue s.mem.links s.queue.head s.queue.tail xs
  size : s.queue.size = xs.length
  items : xs.map (fun a => (a, (s.mem a).val)) = f.items
  maxSize : s.queue.maxSize = f.maxSize
  bound : xs.length ≤ f.maxSize
  live : ∀ a ∈ xs, a ∈ s.live
  notOwned : ∀ a ∈ xs, a ∉ s.owned
  ownedLive : ∀ a ∈ s.owned, a ∈ s.live

theorem represents_responseInit (m : ResponseMem) (queue : ResponseQueue) {max : ℕ}
    (hmax : 1 ≤ max) : (responseInit m queue max).Represents ⟨[], max⟩ [] := by
  rw [responseInit, responseQueueInit, if_neg (by omega)]
  exact ⟨Queue.empty _, rfl, rfl, rfl, Nat.zero_le _, by simp, by simp, by simp⟩

namespace ResponseSys.Represents

variable {s : ResponseSys} {f : BoundedFifo} {xs : List Addr}

theorem consistent (h : s.Represents f xs) : s.Consistent :=
  ⟨xs, h.queue, h.size, by rw [h.size, h.maxSize]; exact h.bound,
    fun a ha => ⟨h.live a ha, h.notOwned a ha⟩⟩

theorem length_items (h : s.Represents f xs) : f.items.length = xs.length := by
  rw [← h.items, List.length_map]

theorem make (h : s.Represents f xs) {a : Addr} (ha : a ∉ s.live) (r : Response) :
    (responseStep s (.make a r)).2.Represents f xs where
  queue := by
    refine ⟨?_, h.queue.last⟩
    simp only [responseStep, Mem.links_alloc]
    exact Path.update h.queue.chain (fun hx => ha (h.live a hx)) none
  size := h.size
  items := by
    rw [← h.items]
    refine List.map_congr_left fun b hb => ?_
    have hne : b ≠ a := by
      rintro rfl
      exact ha (h.live b hb)
    simp only [responseStep, Mem.val_alloc_of_ne _ _ hne]
  maxSize := h.maxSize
  bound := h.bound
  live b hb := List.mem_cons_of_mem a (h.live b hb)
  notOwned b hb hown := by
    rcases List.mem_cons.mp hown with rfl | hown
    · exact ha (h.live b hb)
    · exact h.notOwned b hb hown
  ownedLive b hb := by
    rcases List.mem_cons.mp hb with rfl | hb
    · exact List.mem_cons_self
    · exact List.mem_cons_of_mem a (h.ownedLive b hb)

theorem free (h : s.Represents f xs) {a : Addr} (ha : a ∈ s.owned) :
    (responseStep s (.free a)).2.Represents f xs where
  queue := h.queue
  size := h.size
  items := h.items
  maxSize := h.maxSize
  bound := h.bound
  live b hb := by
    have hne : b ≠ a := by
      rintro rfl
      exact h.notOwned b hb ha
    simpa [responseStep, hne] using h.live b hb
  notOwned b hb hown := h.notOwned b hb (List.mem_of_mem_filter hown)
  ownedLive b hb := by
    obtain ⟨hb, hne⟩ := List.mem_filter.mp hb
    exact List.mem_filter.mpr ⟨h.ownedLive b hb, hne⟩

theorem queue_push (h : s.Represents f xs) {a : Addr} (ha : a ∉ xs)
    (hroom : ¬ s.queue.maxSize ≤ s.queue.size) :
    (responseQueuePush s.mem s.queue a).1 = 0 ∧
      Queue (responseQueuePush s.mem s.queue a).2.1.links
        (responseQueuePush s.mem s.queue a).2.2.head (responseQueuePush s.mem s.queue a).2.2.tail
        (xs ++ [a]) ∧
      (responseQueuePush s.mem s.queue a).2.2.size = s.queue.size + 1 ∧
      (responseQueuePush s.mem s.queue a).2.2.maxSize = s.queue.maxSize ∧
      ∀ b, ((responseQueuePush s.mem s.queue a).2.1 b).val = (s.mem b).val := by
  have hlast := h.queue
  rw [responseQueuePush, if_neg hroom]
  cases htail : s.queue.tail with
  | none =>
      have hnil : xs = [] := by
        rw [htail] at hlast
        exact List.getLast?_eq_none_iff.mp hlast.last.symm
      subst hnil
      refine ⟨rfl, ?_, rfl, rfl, by simp⟩
      rw [Mem.links_setLink]
      exact Queue.enqueue_nil a
  | some t =>
      rw [htail] at hlast
      refine ⟨rfl, ?_, rfl, rfl, by simp⟩
      rw [Mem.links_setLink, Mem.links_setLink]
      exact hlast.enqueue_snoc ha

theorem push (h : s.Represents f xs) {a : Addr} {r : Response}
    (hl : (ResponseOp.push a r).Legal s) :
    (responseStep s (.push a r)).1 = (boundedStep f (.push a r)).1 ∧
      ∃ ys, (responseStep s (.push a r)).2.Represents (boundedStep f (.push a r)).2 ys := by
  obtain ⟨hown, hval⟩ := hl
  by_cases hfull : f.maxSize ≤ f.items.length
  · have hpush : responseQueuePush s.mem s.queue a = (-eagain, s.mem, s.queue) :=
      if_pos (by rw [h.maxSize, h.size, ← h.length_items]; exact hfull)
    have hspec : boundedStep f (.push a r) = (.pushed (-eagain), f) := if_pos hfull
    simp only [responseStep, hpush, hspec, true_and]
    exact ⟨xs, h⟩
  · have hroom : ¬ s.queue.maxSize ≤ s.queue.size := by
      rwa [h.maxSize, h.size, ← h.length_items]
    have hax : a ∉ xs := fun hx => h.notOwned a hx hown
    obtain ⟨hret, hqueue, hsize, hmaxSize, hvals⟩ := h.queue_push hax hroom
    have hspec : boundedStep f (.push a r) =
        (.pushed 0, { f with items := f.items ++ [(a, r)] }) := if_neg hfull
    simp only [responseStep, hret, hspec, if_true, true_and]
    refine ⟨xs ++ [a], hqueue, ?_, ?_, hmaxSize.trans h.maxSize, ?_, ?_, ?_, ?_⟩
    · rw [hsize, h.size, List.length_append, List.length_singleton]
    · simp only [hvals, List.map_append, h.items, List.map_cons, List.map_nil, hval]
    · have hlen := h.length_items
      rw [List.length_append, List.length_singleton]
      dsimp only
      omega
    · intro b hb
      rcases List.mem_append.mp hb with hb | hb
      · exact h.live b hb
      · rw [List.mem_singleton.mp hb]
        exact h.ownedLive a hown
    · intro b hb hbown
      obtain ⟨hbown, hne⟩ := List.mem_filter.mp hbown
      rcases List.mem_append.mp hb with hb | hb
      · exact h.notOwned b hb hbown
      · simp [List.mem_singleton.mp hb] at hne
    · exact fun b hb => h.ownedLive b (List.mem_of_mem_filter hb)

theorem pop_cons {a : Addr} (h : s.Represents f (a :: xs)) :
    ({ s with
        mem := s.mem.setLink a none
        queue := { s.queue with
          head := (s.mem a).link
          tail := if (s.mem a).link = none then none else s.queue.tail
          size := s.queue.size - 1 }
        owned := a :: s.owned } : ResponseSys).Represents { f with items := f.items.tail } xs where
  queue := by
    rw [Mem.links_setLink]
    exact h.queue.dequeue
  size := by simp [h.size]
  items := by simp [← h.items]
  maxSize := h.maxSize
  bound := Nat.le_of_succ_le h.bound
  live b hb := h.live b (List.mem_cons_of_mem a hb)
  notOwned b hb := by
    have hne : b ≠ a := by
      rintro rfl
      exact (List.nodup_cons.mp h.queue.chain.nodup).1 hb
    simpa [hne] using h.notOwned b (List.mem_cons_of_mem a hb)
  ownedLive b hb := by
    rcases List.mem_cons.mp hb with rfl | hb
    · exact h.live b List.mem_cons_self
    · exact h.ownedLive b hb

theorem pop (h : s.Represents f xs) :
    (responseStep s .pop).1 = (boundedStep f .pop).1 ∧
      ∃ ys, (responseStep s .pop).2.Represents (boundedStep f .pop).2 ys := by
  cases xs with
  | nil =>
      have hitems : f.items = [] := h.items.symm
      have hpop : responseQueuePop s.mem s.queue = (.null, s.mem, s.queue) := if_pos h.size
      simp only [responseStep, hpop, boundedStep, hitems, true_and]
      exact ⟨[], h⟩
  | cons a xs =>
      have hitems : f.items = (a, (s.mem a).val) :: xs.map fun b => (b, (s.mem b).val) :=
        h.items.symm
      have hhead : s.queue.head = some a := h.queue.chain.1
      simp only [responseStep, responseQueuePop, boundedStep, hitems, hhead]
      rw [if_neg (by simp [h.size])]
      refine ⟨rfl, xs, ?_⟩
      simpa [hitems] using h.pop_cons

/-- Every operation is answered as the bounded queue answers it. -/
theorem step (h : s.Represents f xs) {op : ResponseOp} (hl : op.Legal s) :
    (responseStep s op).1 = (boundedStep f op).1 ∧
      ∃ ys, (responseStep s op).2.Represents (boundedStep f op).2 ys := by
  cases op with
  | make a r => exact ⟨rfl, xs, h.make hl r⟩
  | push a r => exact h.push hl
  | pop => exact h.pop
  | free a => exact ⟨rfl, xs, h.free hl⟩

end ResponseSys.Represents

/-! ### Whole runs -/

/-- The responses in a queue that holds the cells `xs`, with their
addresses. -/
def ResponseSys.contents (s : ResponseSys) (xs : List Addr) : List (Addr × Response) :=
  xs.map fun a => (a, (s.mem a).val)

/-- **The response queue is a bounded queue.** After
`response_queue_init(max)`, over every run of legal operations, each call
returns what it returns for the bounded queue, the links, the count and
the cells are consistent in every state, and the responses pushed with
success are those popped, in order, followed by those on the chain. -/
theorem responseQueue_refines_boundedFifo (m : ResponseMem) (queue : ResponseQueue) {max : ℕ}
    (hmax : 1 ≤ max) {ops : List ResponseOp}
    (hl : Meets responseStep (fun s op => op.Legal s) (responseInit m queue max) ops) :
    trace responseStep (responseInit m queue max) ops = trace boundedStep ⟨[], max⟩ ops ∧
      Always responseStep ResponseSys.Consistent (responseInit m queue max) ops ∧
      ∃ xs, Chain (exec responseStep (responseInit m queue max) ops).mem.links
          (exec responseStep (responseInit m queue max) ops).queue.head xs ∧
        accepted ops (trace responseStep (responseInit m queue max) ops) =
          popped (trace responseStep (responseInit m queue max) ops) ++
            (exec responseStep (responseInit m queue max) ops).contents xs := by
  have hstep : ∀ s f op, (∃ xs, ResponseSys.Represents s f xs) → op.Legal s →
      (responseStep s op).1 = (boundedStep f op).1 ∧
        ∃ xs, (responseStep s op).2.Represents (boundedStep f op).2 xs := by
    rintro s f op ⟨xs, h⟩ hop
    exact h.step hop
  have hinit : ∃ xs, (responseInit m queue max).Represents ⟨[], max⟩ xs :=
    ⟨[], represents_responseInit m queue hmax⟩
  obtain ⟨htrace, halways⟩ := trace_eq_of_simulation
    (fun s f => ∃ xs, ResponseSys.Represents s f xs) hstep hinit hl
  obtain ⟨xs, hend⟩ := exec_of_simulation
    (fun s f => ∃ xs, ResponseSys.Represents s f xs) hstep hinit hl
  refine ⟨htrace, halways.mono ?_, xs, hend.queue.chain, ?_⟩
  · rintro s ⟨f, xs, h⟩
    exact h.consistent
  · rw [htrace, ResponseSys.contents, hend.items]
    exact bounded_account ⟨[], max⟩ ops

def blankResponseMem : ResponseMem := fun _ => ⟨⟨0, 0, 0, 0, []⟩, none⟩

def plainResponse (id : UInt32) : Response := ⟨0, 1, msgResponse, id, []⟩

/-- Two workers fill a queue of two, a third is refused; the main thread
empties it, and the first cell is used again. -/
def refillRun : List ResponseOp :=
  [.make 1 (plainResponse 1), .make 2 (plainResponse 2), .push 2 (plainResponse 2),
    .push 1 (plainResponse 1), .make 3 (plainResponse 3), .push 3 (plainResponse 3), .free 3,
    .pop, .free 2, .make 2 (plainResponse 4), .push 2 (plainResponse 4), .pop, .pop, .pop]

theorem responseQueue_refines_refillRun :
    trace responseStep (responseInit blankResponseMem ⟨some 7, none, 5, 0⟩ 2) refillRun =
        [.done, .done, .pushed 0, .pushed 0, .done, .pushed (-11), .done,
          .popped 2 (plainResponse 2), .done, .done, .pushed 0, .popped 1 (plainResponse 1),
          .popped 2 (plainResponse 4), .null] ∧
      trace responseStep (responseInit blankResponseMem ⟨some 7, none, 5, 0⟩ 2) refillRun =
        trace boundedStep ⟨[], 2⟩ refillRun :=
  ⟨by decide,
    (responseQueue_refines_boundedFifo blankResponseMem ⟨some 7, none, 5, 0⟩ (by decide)
      (by decide)).1⟩

end LinuxMiniProjects.Gateway
