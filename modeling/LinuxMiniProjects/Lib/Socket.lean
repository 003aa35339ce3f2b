import Mathlib.Data.List.TakeWhile
import Mathlib.Tactic

/-!
Non-blocking stream sockets, as their reader and their writer see them.

What a reader meets is a list of items: bytes that have arrived together,
a call that is interrupted, a call that finds nothing yet, the end of the
stream, a failure. `recv` takes at most as many bytes as it is asked for
from the first item and leaves the rest of it. Any splitting of a stream
into calls is such a list, so a statement about all lists of items is one
about all ways the bytes can arrive.

What a writer meets is, for each `send`, a number of bytes that were
accepted or one of the same failures.
-/

namespace LinuxMiniProjects.Socket

inductive Item
  | chunk (b : UInt8) (bs : List UInt8)
  | eintr
  | eagain
  | eof
  | error
deriving DecidableEq, Repr

/-- The result of a `recv`: at least one byte, zero, or one of the values
of `errno` that a program distinguishes. -/
inductive RecvRes
  | data (b : UInt8) (bs : List UInt8)
  | eintr
  | eagain
  | eof
  | error
deriving DecidableEq, Repr

inductive SendRes
  | sent (n : ℕ)
  | eintr
  | eagain
  | error
deriving DecidableEq, Repr

def SendRes.accepted (remaining : ℕ) : SendRes → ℕ
  | sent n => min n remaining
  | _ => 0

theorem SendRes.accepted_le (remaining : ℕ) (res : SendRes) :
    res.accepted remaining ≤ remaining := by
  cases res <;> simp [accepted]

/-- A `send` that accepts some bytes, is interrupted or finds the socket
full: it reports neither an error nor a close. -/
def SendRes.Benign : SendRes → Prop
  | sent n => 0 < n
  | eintr => True
  | eagain => True
  | error => False

def chunkOf : List UInt8 → List Item
  | [] => []
  | b :: bs => [.chunk b bs]

/-- `recv` for `num` bytes, and what is left. A call that asks for no
bytes waits for some all the same: if there are any it returns zero, like
a call at the end of the stream. An exhausted list is a socket to which
nothing more has been sent. -/
def recv : ℕ → List Item → RecvRes × List Item
  | _, [] => (.eagain, [])
  | 0, .chunk b bs :: items => (.eof, .chunk b bs :: items)
  | num + 1, .chunk b bs :: items => (.data b (bs.take num), chunkOf (bs.drop num) ++ items)
  | _, .eintr :: items => (.eintr, items)
  | _, .eagain :: items => (.eagain, items)
  | _, .eof :: items => (.eof, .eof :: items)
  | _, .error :: items => (.error, .error :: items)

def Item.bytes : Item → List UInt8
  | chunk b bs => b :: bs
  | _ => []

def bytes (items : List Item) : List UInt8 := items.flatMap Item.bytes

def weight (items : List Item) : ℕ := (items.map fun i => i.bytes.length + 1).sum

def Quiet (items : List Item) : Prop := Item.eof ∉ items ∧ Item.error ∉ items

/-- What arrives before the stream ends or fails. -/
def arriving (items : List Item) : List Item :=
  items.takeWhile fun i => decide (i ≠ .eof ∧ i ≠ .error)

@[simp] theorem bytes_nil : bytes [] = [] := rfl

@[simp] theorem bytes_cons (i : Item) (items : List Item) :
    bytes (i :: items) = i.bytes ++ bytes items := by
  simp [bytes]

@[simp] theorem bytes_append (items items' : List Item) :
    bytes (items ++ items') = bytes items ++ bytes items' := by
  simp [bytes]

@[simp] theorem bytes_chunkOf (bs : List UInt8) : bytes (chunkOf bs) = bs := by
  cases bs <;> simp [chunkOf, Item.bytes]

@[simp] theorem weight_cons (i : Item) (items : List Item) :
    weight (i :: items) = i.bytes.length + 1 + weight items := by
  simp [weight]

@[simp] theorem weight_append (items items' : List Item) :
    weight (items ++ items') = weight items + weight items' := by
  simp [weight]

theorem weight_chunkOf_le (bs : List UInt8) : weight (chunkOf bs) ≤ bs.length + 1 := by
  cases bs <;> simp [chunkOf, Item.bytes, weight]

theorem length_le_weight (items : List Item) : items.length ≤ weight items := by
  induction items with
  | nil => exact Nat.zero_le _
  | cons i items ih =>
      rw [List.length_cons, weight_cons]
      omega

theorem eq_nil_of_weight_eq_zero {items : List Item} (h : weight items = 0) : items = [] := by
  cases items with
  | nil => rfl
  | cons i items => simp at h

/-- The calls of `recv`, with what they leave. -/
inductive Recv : ℕ → List Item → RecvRes → List Item → Prop
  | none {num} : Recv num [] .eagain []
  | zero {b bs items} : Recv 0 (.chunk b bs :: items) .eof (.chunk b bs :: items)
  | data {num b bs items} :
      Recv (num + 1) (.chunk b bs :: items) (.data b (bs.take num)) (chunkOf (bs.drop num) ++ items)
  | eintr {num items} : Recv num (.eintr :: items) .eintr items
  | eagain {num items} : Recv num (.eagain :: items) .eagain items
  | eof {num items} : Recv num (.eof :: items) .eof (.eof :: items)
  | error {num items} : Recv num (.error :: items) .error (.error :: items)

section Recv

variable {num : ℕ} {items items' : List Item} {res : RecvRes}

theorem recv_inv (h : recv num items = (res, items')) : Recv num items res items' := by
  unfold recv at h
  split at h <;> (cases h; constructor)

theorem recv_data {b : UInt8} {bs : List UInt8} (h : recv num items = (.data b bs, items')) :
    (b :: bs).length ≤ num ∧ bytes items = b :: bs ++ bytes items' := by
  cases recv_inv h with
  | data => exact ⟨by simp, by simp [Item.bytes, ← List.append_assoc]⟩

theorem bytes_recv (h : recv num items = (res, items')) (hres : ∀ b bs, res ≠ .data b bs) :
    bytes items' = bytes items := by
  cases recv_inv h with
  | data => exact absurd rfl (hres _ _)
  | _ => rfl

theorem weight_rest_lt (num : ℕ) (b : UInt8) (bs : List UInt8) (items : List Item) :
    weight (chunkOf (bs.drop num) ++ items) < weight (.chunk b bs :: items) := by
  have hle := weight_chunkOf_le (bs.drop num)
  have hlen : (bs.drop num).length ≤ bs.length := by simp
  simp only [weight_append, weight_cons, Item.bytes, List.length_cons]
  omega

theorem weight_recv_lt (h : recv num items = (res, items'))
    (hres : res = .eintr ∨ ∃ b bs, res = .data b bs) : weight items' < weight items := by
  cases recv_inv h with
  | data => exact weight_rest_lt ..
  | eintr => simp [Item.bytes]
  | _ => simp at hres

end Recv

theorem Quiet.nil : Quiet [] := ⟨by simp, by simp⟩

theorem Quiet.append {items items' : List Item} (h : Quiet items) (h' : Quiet items') :
    Quiet (items ++ items') :=
  ⟨by simp [h.1, h'.1], by simp [h.2, h'.2]⟩

theorem Quiet.of_cons {i : Item} {items : List Item} (h : Quiet (i :: items)) : Quiet items :=
  ⟨fun hi => h.1 (List.mem_cons_of_mem i hi), fun hi => h.2 (List.mem_cons_of_mem i hi)⟩

theorem quiet_chunkOf (bs : List UInt8) : Quiet (chunkOf bs) := by
  cases bs <;> simp [chunkOf, Quiet]

theorem quiet_arriving (items : List Item) : Quiet (arriving items) := by
  constructor
  · intro h
    simpa using List.mem_takeWhile_imp h
  · intro h
    simpa using List.mem_takeWhile_imp h

theorem weight_arriving_le (items : List Item) : weight (arriving items) ≤ weight items := by
  have hsplit := weight_append (arriving items)
    (items.dropWhile fun i => decide (i ≠ .eof ∧ i ≠ .error))
  rw [arriving, List.takeWhile_append_dropWhile] at hsplit
  rw [hsplit]
  exact Nat.le_add_right _ _

@[simp] theorem arriving_chunkOf_append (bs : List UInt8) (items : List Item) :
    arriving (chunkOf bs ++ items) = chunkOf bs ++ arriving items := by
  cases bs <;> simp [chunkOf, arriving]

theorem recv_arriving {num : ℕ} {items items' : List Item} {res : RecvRes}
    (h : recv num items = (res, items')) (heof : res ≠ .eof) (herror : res ≠ .error) :
    recv num (arriving items) = (res, arriving items') := by
  cases recv_inv h with
  | data =>
      rw [arriving_chunkOf_append]
      rfl
  | zero | eof => exact absurd rfl heof
  | error => exact absurd rfl herror
  | none | eintr | eagain => rfl

theorem arriving_eq_nil {num : ℕ} (hnum : 0 < num) {items items' : List Item} {res : RecvRes}
    (h : recv num items = (res, items')) (hres : res = .eof ∨ res = .error) :
    arriving items = [] := by
  cases recv_inv h with
  | zero => exact absurd hnum (lt_irrefl 0)
  | eof | error => rfl
  | none | data | eintr | eagain => simp at hres

inductive Received (num : ℕ) (items : List Item) : RecvRes × List Item → Prop
  | data {b bs items'} (short : (b :: bs).length ≤ num) (quiet : Quiet items')
      (taken : bytes items = b :: bs ++ bytes items') (less : weight items' < weight items) :
      Received num items (.data b bs, items')
  | eintr {items'} (quiet : Quiet items') (taken : bytes items = bytes items')
      (less : weight items' < weight items) : Received num items (.eintr, items')
  | eagain {items'} (quiet : Quiet items') (taken : bytes items = bytes items')
      (less : weight items' < weight items ∨ items = [] ∧ items' = []) :
      Received num items (.eagain, items')

/-- **A call** takes bytes off the front of the stream, or nothing. -/
theorem Quiet.recv {items : List Item} (h : Quiet items) {num : ℕ} (hnum : 0 < num) :
    Received num items (Socket.recv num items) := by
  obtain ⟨num, rfl⟩ := Nat.exists_eq_succ_of_ne_zero hnum.ne'
  cases items with
  | nil => exact .eagain .nil rfl (.inr ⟨rfl, rfl⟩)
  | cons i items =>
      cases i with
      | chunk b bs =>
          refine .data (by simp) ((quiet_chunkOf _).append h.of_cons) ?_ ?_
          · simp [Item.bytes, ← List.append_assoc]
          · exact weight_rest_lt ..
      | eintr => exact .eintr h.of_cons rfl (by simp [Item.bytes])
      | eagain => exact .eagain h.of_cons rfl (.inl (by simp [Item.bytes]))
      | eof => exact absurd List.mem_cons_self h.1
      | error => exact absurd List.mem_cons_self h.2

end LinuxMiniProjects.Socket
