import Mathlib.Data.List.Basic
import Mathlib.Logic.Function.Basic

/-!
Singly linked lists in a memory of cells.

A program that keeps its queue as a chain of heap cells says nowhere what
the queue *contains*: it has a head link, a tail link and a link field in
every cell. This file gives the contents. `Path next p xs q` says that
following the link fields from `p` visits exactly the cells `xs` and
arrives at the link `q`; a `Chain` is a path that ends in the null link.

The link fields are a function `next : α → Option α` over an arbitrary
type of addresses, so a store into a link field is `Function.update`. Two
facts carry every later argument. A chain is determined by its first link
(`Chain.unique`), so "the" contents is a legitimate phrase. And a chain
never visits a cell twice (`Chain.nodup`), so a store into one cell of a
chain can be followed through the rest of it.
-/

namespace LinuxMiniProjects.LinkedList

variable {α : Type*}

/-- Following `next` from the link `p` visits the cells `xs` and arrives
at the link `q`. -/
def Path (next : α → Option α) : Option α → List α → Option α → Prop
  | p, [], q => p = q
  | p, a :: xs, q => p = some a ∧ Path next (next a) xs q

def Chain (next : α → Option α) (p : Option α) (xs : List α) : Prop :=
  Path next p xs none

@[simp] theorem path_nil {next : α → Option α} {p q : Option α} :
    Path next p [] q ↔ p = q := Iff.rfl

@[simp] theorem path_cons {next : α → Option α} {p q : Option α} {a : α} {xs : List α} :
    Path next p (a :: xs) q ↔ p = some a ∧ Path next (next a) xs q := Iff.rfl

@[simp] theorem chain_nil {next : α → Option α} {p : Option α} :
    Chain next p [] ↔ p = none := Iff.rfl

@[simp] theorem chain_cons {next : α → Option α} {p : Option α} {a : α} {xs : List α} :
    Chain next p (a :: xs) ↔ p = some a ∧ Chain next (next a) xs := Iff.rfl

theorem path_append {next : α → Option α} {p q : Option α} {xs ys : List α} :
    Path next p (xs ++ ys) q ↔ ∃ r, Path next p xs r ∧ Path next r ys q := by
  induction xs generalizing p with
  | nil => simp
  | cons a xs ih =>
      simp only [List.cons_append, path_cons, ih]
      constructor
      · rintro ⟨hp, r, hx, hy⟩
        exact ⟨r, ⟨hp, hx⟩, hy⟩
      · rintro ⟨r, ⟨hp, hx⟩, hy⟩
        exact ⟨hp, r, hx, hy⟩

theorem Path.congr {next next' : α → Option α} {p q : Option α} {xs : List α}
    (h : Path next p xs q) (hn : ∀ a ∈ xs, next' a = next a) : Path next' p xs q := by
  induction xs generalizing p with
  | nil => exact h
  | cons a xs ih =>
      refine ⟨h.1, ?_⟩
      rw [hn a (by simp)]
      exact ih h.2 fun b hb => hn b (by simp [hb])

theorem Path.update [DecidableEq α] {next : α → Option α} {p q : Option α} {xs : List α}
    (h : Path next p xs q) {a : α} (ha : a ∉ xs) (r : Option α) :
    Path (Function.update next a r) p xs q :=
  h.congr fun b hb => Function.update_of_ne (by rintro rfl; exact ha hb) _ _

namespace Chain

variable {next : α → Option α} {p : Option α} {xs ys : List α}

theorem head? (h : Chain next p xs) : p = xs.head? := by
  cases xs with
  | nil => exact h
  | cons a xs => exact h.1

theorem unique (hx : Chain next p xs) (hy : Chain next p ys) : xs = ys := by
  induction xs generalizing p ys with
  | nil =>
      cases ys with
      | nil => rfl
      | cons b ys => simp_all
  | cons a xs ih =>
      cases ys with
      | nil => simp_all
      | cons b ys =>
          obtain ⟨rfl, hx⟩ := hx
          obtain ⟨hab, hy⟩ := hy
          obtain rfl : a = b := Option.some.inj hab
          rw [ih hx hy]

/-- A chain ends, so it cannot come back to a cell: from that cell on it
would be two chains of different lengths. -/
theorem nodup (h : Chain next p xs) : xs.Nodup := by
  induction xs generalizing p with
  | nil => exact List.nodup_nil
  | cons a xs ih =>
      refine List.nodup_cons.mpr ⟨fun ha => ?_, ih h.2⟩
      obtain ⟨l, r, rfl⟩ := List.append_of_mem ha
      obtain ⟨q, -, hq, hr⟩ := path_append.mp h.2
      have hlen := congrArg List.length (unique hr h.2)
      simp at hlen
      omega

theorem snoc [DecidableEq α] {a b : α} (h : Chain next p (xs ++ [a]))
    (hb : b ∉ xs ++ [a]) :
    Chain (Function.update (Function.update next a (some b)) b none) p (xs ++ [a, b]) := by
  have ha : a ∉ xs := by
    have := List.nodup_append.mp h.nodup
    intro hx
    exact this.2.2 a hx a (by simp) rfl
  have hab : a ≠ b := by rintro rfl; simp at hb
  obtain ⟨r, hx, hr⟩ := path_append.mp h
  refine path_append.mpr ⟨r, ?_, ?_⟩
  · exact (hx.update ha _).update (fun hbx => hb (by simp [hbx])) _
  · simp only [path_cons] at hr
    simp [hr.1, hab]

theorem tail [DecidableEq α] {a : α} (h : Chain next p (a :: xs)) :
    Chain (Function.update next a none) (next a) xs :=
  Path.update h.2 (List.nodup_cons.mp h.nodup).1 _

theorem eq_nil_iff (h : Chain next p xs) : xs = [] ↔ p = none := by
  cases xs with
  | nil => simpa using h
  | cons a xs => simp [h.1]

end Chain

/-! ### Queues with a tail link

The usual queue keeps, next to the first link, a link to the last cell. -/

/-- The links `head` and `tail` of a queue that contains the cells `xs`. -/
structure Queue (next : α → Option α) (head tail : Option α) (xs : List α) : Prop where
  /-- The cells are the chain that starts at the head link. -/
  chain : Chain next head xs
  /-- The tail link is the last cell of that chain. -/
  last : tail = xs.getLast?

namespace Queue

variable {next : α → Option α} {head tail : Option α} {xs : List α}

theorem tail_eq_none_iff (h : Queue next head tail xs) : tail = none ↔ head = none := by
  rw [h.last, h.chain.head?]
  cases xs <;> simp

theorem empty (next : α → Option α) : Queue next none none [] := ⟨rfl, rfl⟩

theorem enqueue_nil [DecidableEq α] (b : α) :
    Queue (Function.update next b none) (some b) (some b) [b] :=
  ⟨by simp, by simp⟩

/-- Enqueueing behind a last cell: its link field and the tail link are
both set to the new cell, which is the part that is easy to forget. -/
theorem enqueue_snoc [DecidableEq α] {a b : α} (h : Queue next head (some a) xs)
    (hb : b ∉ xs) :
    Queue (Function.update (Function.update next a (some b)) b none) head (some b)
      (xs ++ [b]) := by
  obtain ⟨ys, rfl⟩ : ∃ ys, xs = ys ++ [a] := by
    have := h.last.symm
    rw [List.getLast?_eq_some_iff] at this
    exact this
  refine ⟨?_, by simp⟩
  simpa using h.chain.snoc hb

/-- Dequeueing the first cell; the tail link is cleared together with the
last cell. -/
theorem dequeue [DecidableEq α] {a : α} (h : Queue next head tail (a :: xs)) :
    Queue (Function.update next a none) (next a) (if next a = none then none else tail) xs := by
  refine ⟨h.chain.tail, ?_⟩
  have hiff := Chain.eq_nil_iff h.chain.2
  cases xs with
  | nil => simp [hiff.mp rfl]
  | cons b xs =>
      have hne : next a ≠ none := fun hn => by simpa using hiff.mpr hn
      rw [if_neg hne, h.last]
      simp

end Queue

/-! ### Memories of cells

A cell holds a value and a link field; a memory is a total function from
addresses to cells, since a C program can store through any address it
still holds, whether or not the cell is in use. -/

structure Cell (α β : Type*) where
  val : β
  link : Option α

abbrev Mem (α β : Type*) := α → Cell α β

namespace Mem

variable {β : Type*} [DecidableEq α]

def links (m : Mem α β) : α → Option α := fun a => (m a).link

def setLink (m : Mem α β) (a : α) (p : Option α) : Mem α β :=
  Function.update m a { m a with link := p }

def alloc (m : Mem α β) (a : α) (v : β) : Mem α β :=
  Function.update m a { val := v, link := none }

@[simp] theorem links_setLink (m : Mem α β) (a : α) (p : Option α) :
    (m.setLink a p).links = Function.update m.links a p := by
  funext b
  by_cases h : b = a
  · subst h; simp [links, setLink]
  · simp [links, setLink, h]

@[simp] theorem links_alloc (m : Mem α β) (a : α) (v : β) :
    (m.alloc a v).links = Function.update m.links a none := by
  funext b
  by_cases h : b = a
  · subst h; simp [links, alloc]
  · simp [links, alloc, h]

@[simp] theorem val_setLink (m : Mem α β) (a b : α) (p : Option α) :
    ((m.setLink a p) b).val = (m b).val := by
  by_cases h : b = a
  · subst h; simp [setLink]
  · simp [setLink, h]

@[simp] theorem val_alloc_self (m : Mem α β) (a : α) (v : β) :
    ((m.alloc a v) a).val = v := by
  simp [alloc]

theorem val_alloc_of_ne (m : Mem α β) {a b : α} (v : β) (h : b ≠ a) :
    ((m.alloc a v) b).val = (m b).val := by
  simp [alloc, h]

end Mem

end LinuxMiniProjects.LinkedList
