import LinuxMiniProjects.Lib.Machine
import LinuxMiniProjects.Lib.Socket

/-!
Readers of a stream socket that can be resumed.

A reader is called whenever its socket may have something. A call goes
round a loop: it asks `recv` for as many bytes as are missing of what it
is reading, and the result makes it go on or return. What it has so far
stays in its state, and the next call goes on from there; a reader that
has stopped does nothing any more.

`Reader.Sim` is the rule by which two readers are compared: if related
states ask for the same and treat every result alike, the calls of both
return the same and ask for the same.
-/

namespace LinuxMiniProjects.Socket

open Machine

/-- `next` says what a result of `recv` does: what the call returns, if it
returns, and the state. -/
structure Reader (σ : Type*) where
  stopped : σ → Bool
  remaining : σ → ℕ
  next : σ → RecvRes → Option ℤ × σ

/-- What a call comes to: what it returns, what its calls of `recv` asked
for, the state and the socket. -/
structure Reader.Call (σ : Type*) where
  ret : ℤ
  asked : List ℕ
  state : σ
  items : List Item

variable {σ τ ω : Type*}

namespace Reader

/-- The loop of a call. Every turn that goes on is expected to have taken
something off the socket. -/
def loop (r : Reader σ) : ℕ → σ → List Item → Call σ
  | 0, c, items => ⟨0, [], c, items⟩
  | fuel + 1, c, items =>
      if r.stopped c then ⟨-1, [], c, items⟩
      else
        match r.next c (recv (r.remaining c) items).1 with
        | (none, c') =>
            let rest := r.loop fuel c' (recv (r.remaining c) items).2
            { rest with asked := r.remaining c :: rest.asked }
        | (some ret, c') => ⟨ret, [r.remaining c], c', (recv (r.remaining c) items).2⟩

def call (r : Reader σ) (c : σ) (items : List Item) : Call σ := r.loop (weight items + 1) c items

structure Seen (ω : Type*) where
  ret : ℤ
  asked : List ℕ
  view : ω

/-- A call as a step of a machine; `view` is what can be seen of the
state. -/
def callStep (r : Reader σ) (view : σ → ω) (s : σ × List Item) (_ : Unit) :
    Seen ω × (σ × List Item) :=
  let call := r.call s.1 s.2
  (⟨call.ret, call.asked, view call.state⟩, (call.state, call.items))

/-! ### Two readers -/

/-- Related states of two readers on the same socket ask for the same, and
not for nothing, and treat what they get alike. -/
structure Sim (r : Reader σ) (r' : Reader τ) (R : σ → τ → List Item → Prop) : Prop where
  stopped : ∀ {c d items}, R c d items → r.stopped c = r'.stopped d
  remaining : ∀ {c d items}, R c d items → r.stopped c = false →
    r.remaining c = r'.remaining d ∧ 0 < r.remaining c
  next : ∀ {c d items}, R c d items → r.stopped c = false →
    (r.next c (recv (r.remaining c) items).1).1 = (r'.next d (recv (r.remaining c) items).1).1 ∧
      R (r.next c (recv (r.remaining c) items).1).2 (r'.next d (recv (r.remaining c) items).1).2
        (recv (r.remaining c) items).2

/-- Two calls that return the same, have asked for the same and leave
related states. -/
structure CallsAgree (R : σ → τ → List Item → Prop) (call : Call σ) (call' : Call τ) : Prop where
  ret : call.ret = call'.ret
  asked : call.asked = call'.asked
  items : call.items = call'.items
  related : R call.state call'.state call.items
  positive : ∀ n ∈ call.asked, 0 < n

variable {r : Reader σ} {r' : Reader τ} {R : σ → τ → List Item → Prop}

/-- **The loop** of the one does what the loop of the other does. -/
theorem Sim.loop (h : Sim r r' R) {fuel : ℕ} {c : σ} {d : τ} {items : List Item}
    (hR : R c d items) : CallsAgree R (r.loop fuel c items) (r'.loop fuel d items) := by
  induction fuel generalizing c d items with
  | zero => exact ⟨rfl, rfl, rfl, hR, by simp [Reader.loop]⟩
  | succ fuel ih =>
      have hstopped := h.stopped hR
      cases hc : r.stopped c with
      | true =>
          rw [hc] at hstopped
          simp only [Reader.loop, hc, ← hstopped, if_true]
          exact ⟨rfl, rfl, rfl, hR, by simp⟩
      | false =>
          obtain ⟨hremaining, hpos⟩ := h.remaining hR hc
          obtain ⟨hret, hnext⟩ := h.next hR hc
          rw [hc] at hstopped
          simp only [Reader.loop, hc, ← hstopped, ← hremaining, Bool.false_eq_true, if_false]
          -- both go on, or both return
          generalize recv (r.remaining c) items = out at hret hnext ⊢
          cases hc' : r.next c out.1 with
          | mk ret c' =>
              cases hd' : r'.next d out.1 with
              | mk ret' d' =>
                  rw [hc', hd'] at hret hnext
                  obtain rfl : ret = ret' := hret
                  cases ret with
                  | none =>
                      obtain ⟨hret', hasked, hitems, hrelated, hpositive⟩ := ih hnext
                      exact ⟨hret', congrArg _ hasked, hitems, hrelated,
                        List.forall_mem_cons.mpr ⟨hpos, hpositive⟩⟩
                  | some ret =>
                      exact ⟨rfl, rfl, rfl, hnext, by simpa using hpos⟩

/-- **Calls** of both are seen to be the same, and no `recv` asks for
nothing. -/
theorem Sim.trace_eq (h : Sim r r' R) {view : σ → ω} {view' : τ → ω}
    (hview : ∀ {c d items}, R c d items → view c = view' d) {c : σ} {d : τ} {items : List Item}
    (hR : R c d items) (calls : List Unit) :
    trace (r.callStep view) (c, items) calls = trace (r'.callStep view') (d, items) calls ∧
      ∀ seen ∈ trace (r.callStep view) (c, items) calls, ∀ n ∈ seen.asked, 0 < n := by
  induction calls generalizing c d items with
  | nil => exact ⟨rfl, fun seen hseen => absurd hseen List.not_mem_nil⟩
  | cons call calls ih =>
      have hcalls : CallsAgree R (r.call c items) (r'.call d items) := h.loop hR
      obtain ⟨hret, hasked, hitems, hrelated, hpositive⟩ := hcalls
      obtain ⟨htrace, hrest⟩ := ih hrelated
      refine ⟨?_, List.forall_mem_cons.mpr ⟨hpositive, hrest⟩⟩
      simp only [trace, callStep, hret, hasked, hview hrelated, List.cons.injEq, true_and]
      rw [← hitems]
      exact htrace

/-! ### The calls of `recv`

A call of a reader is a sequence of calls of `recv`. What holds before
each of them, and what the call comes to, follows from what one turn of the
loop does. -/

/-- The calls of `recv` in the loop: the state before each, and its
result. -/
def recvs (r : Reader σ) : ℕ → σ → List Item → List (σ × RecvRes)
  | 0, _, _ => []
  | fuel + 1, c, items =>
      if r.stopped c then []
      else
        (c, (recv (r.remaining c) items).1) ::
          match r.next c (recv (r.remaining c) items).1 with
          | (none, c') => r.recvs fuel c' (recv (r.remaining c) items).2
          | (some _, _) => []

theorem recvs_asked (fuel : ℕ) (c : σ) (items : List Item) :
    (r.recvs fuel c items).map (fun x => r.remaining x.1) = (r.loop fuel c items).asked := by
  induction fuel generalizing c items with
  | zero => rfl
  | succ fuel ih =>
      simp only [recvs, Reader.loop]
      split
      · rfl
      · generalize hnext : r.next c (recv (r.remaining c) items).1 = next
        obtain ⟨ret, c'⟩ := next
        cases ret with
        | none => exact congrArg _ (ih c' _)
        | some ret => rfl

/-- **The invariant rule.** What a turn keeps holds before every `recv` and
behind the loop. -/
theorem loop_invariant {I : σ → List Item → Prop}
    (hturn : ∀ c items, I c items → r.stopped c = false →
      I (r.next c (recv (r.remaining c) items).1).2 (recv (r.remaining c) items).2)
    {fuel : ℕ} {c : σ} {items : List Item} (h : I c items) :
    (∀ x ∈ r.recvs fuel c items, ∃ items', r.stopped x.1 = false ∧ I x.1 items' ∧
      (recv (r.remaining x.1) items').1 = x.2) ∧
    I (r.loop fuel c items).state (r.loop fuel c items).items := by
  induction fuel generalizing c items with
  | zero => exact ⟨fun x hx => absurd hx List.not_mem_nil, h⟩
  | succ fuel ih =>
      simp only [recvs, Reader.loop]
      split
      next => exact ⟨fun x hx => absurd hx List.not_mem_nil, h⟩
      next hrunning =>
        have hopen : r.stopped c = false := Bool.eq_false_iff.mpr hrunning
        have hnext := hturn c items h hopen
        have hhead : ∃ items', r.stopped c = false ∧ I c items' ∧
            (recv (r.remaining c) items').1 = (recv (r.remaining c) items).1 :=
          ⟨items, hopen, h, rfl⟩
        generalize hout : r.next c (recv (r.remaining c) items).1 = out at hnext ⊢
        obtain ⟨ret, c'⟩ := out
        cases ret with
        | none =>
            obtain ⟨hrecvs, hend⟩ := ih hnext
            exact ⟨List.forall_mem_cons.mpr ⟨hhead, hrecvs⟩, hend⟩
        | some ret => exact ⟨by simpa using hhead, hnext⟩

/-- **The counting rule.** A number that grows by one in some turns has
grown by the number of these turns. -/
theorem loop_count {f : σ → ℕ} {p : σ × RecvRes → Bool}
    (hturn : ∀ c res, f (r.next c res).2 = f c + (p (c, res)).toNat) (fuel : ℕ) (c : σ)
    (items : List Item) :
    f (r.loop fuel c items).state = f c + (r.recvs fuel c items).countP p := by
  induction fuel generalizing c items with
  | zero => rfl
  | succ fuel ih =>
      simp only [recvs, Reader.loop]
      split
      · rfl
      · have hnext := hturn c (recv (r.remaining c) items).1
        have hone : (p (c, (recv (r.remaining c) items).1)).toNat =
            if p (c, (recv (r.remaining c) items).1) then 1 else 0 := by
          cases p (c, (recv (r.remaining c) items).1) <;> rfl
        rw [hone] at hnext
        generalize hout : r.next c (recv (r.remaining c) items).1 = out at hnext ⊢
        obtain ⟨ret, c'⟩ := out
        cases ret with
        | none =>
            rw [List.countP_cons, Nat.add_comm (List.countP _ _), ← Nat.add_assoc, ← hnext]
            exact ih c' _
        | some ret =>
            rw [List.countP_cons, List.countP_nil, Nat.zero_add]
            exact hnext

def Consumes (r : Reader σ) : Prop :=
  ∀ c res, (r.next c res).1 = none → res = .eintr ∨ ∃ b bs, res = .data b bs

theorem Consumes.recvs_eq (h : r.Consumes) {fuel fuel' : ℕ} {c : σ} {items : List Item}
    (hfuel : weight items < fuel) (hfuel' : weight items < fuel') :
    r.recvs fuel c items = r.recvs fuel' c items := by
  induction fuel generalizing fuel' c items with
  | zero => cases hfuel
  | succ fuel ih =>
      cases fuel' with
      | zero => cases hfuel'
      | succ fuel' =>
          simp only [recvs]
          split
          · rfl
          · have hconsumes := h c (recv (r.remaining c) items).1
            have hrecv : recv (r.remaining c) items =
                ((recv (r.remaining c) items).1, (recv (r.remaining c) items).2) := rfl
            have hless := weight_recv_lt hrecv
            generalize hout : r.next c (recv (r.remaining c) items).1 = out at hconsumes ⊢
            obtain ⟨ret, c'⟩ := out
            cases ret with
            | none =>
                have hlt := hless (hconsumes rfl)
                exact congrArg _ (ih (by omega) (by omega))
            | some ret => rfl

/-! ### A reader that has stopped -/

def StopsOnFailure (r : Reader σ) : Prop :=
  ∀ c res, (r.next c res).1 = some (-1) → r.stopped (r.next c res).2 = true

theorem StopsOnFailure.loop (h : r.StopsOnFailure) {fuel : ℕ} {c : σ} {items : List Item}
    (hret : (r.loop fuel c items).ret = -1) : r.stopped (r.loop fuel c items).state = true := by
  induction fuel generalizing c items with
  | zero => cases hret
  | succ fuel ih =>
      simp only [Reader.loop] at hret ⊢
      split
      next hstopped => exact hstopped
      next hrunning =>
        rw [if_neg hrunning] at hret
        generalize (recv (r.remaining c) items).2 = items' at hret ⊢
        have hnext := h c (recv (r.remaining c) items).1
        cases hc' : r.next c (recv (r.remaining c) items).1 with
        | mk ret c' =>
            rw [hc'] at hret hnext
            cases ret with
            | none => exact ih hret
            | some ret =>
                obtain rfl : ret = -1 := hret
                exact hnext rfl

theorem callStep_of_stopped {view : σ → ω} {s : σ × List Item} (h : r.stopped s.1 = true) :
    r.callStep view s () = (⟨-1, [], view s.1⟩, s) := by
  simp only [callStep, Reader.call, Reader.loop, h, if_true]

theorem trace_of_stopped {view : σ → ω} {s : σ × List Item} (h : r.stopped s.1 = true)
    (calls : List Unit) : ∀ seen ∈ trace (r.callStep view) s calls, seen.asked = [] := by
  induction calls with
  | nil => exact fun seen hseen => absurd hseen List.not_mem_nil
  | cons call calls ih =>
      rw [trace, callStep_of_stopped h]
      exact List.forall_mem_cons.mpr ⟨rfl, ih⟩

theorem StopsOnFailure.pairwise (h : r.StopsOnFailure) (view : σ → ω) (s : σ × List Item)
    (calls : List Unit) :
    (trace (r.callStep view) s calls).Pairwise fun seen later =>
      seen.ret = -1 → later.asked = [] := by
  induction calls generalizing s with
  | nil => exact .nil
  | cons call calls ih =>
      rw [trace, List.pairwise_cons]
      refine ⟨fun later hlater hret => ?_, ih _⟩
      exact trace_of_stopped (h.loop hret) calls later hlater

end Reader

end LinuxMiniProjects.Socket
