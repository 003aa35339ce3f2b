import Mathlib.Data.List.Basic

/-!
Runs of state machines, and the rules by which a run is reasoned about.

Two kinds of machine are used in this development. A data structure is a
machine every operation of which returns something: `step : σ → ε → ω × σ`
takes a state and an operation to an output and the next state. A system
of threads is a machine some of whose steps are not enabled: it has
`step : σ → ε → Option σ`, and what is asked about it is which states are
reachable.

A property of such a machine is never proved of a run directly. It is
proved of one step, and one of the rules of this file carries it along
the run. The rules are conditional: `Meets step ok s es` says that every
step of the run over `es` from `s` satisfies `ok`, a predicate of the
state before the step and of the operation, and the rules ask for
preservation only under `ok`. With `ok` trivial they are the
usual induction over runs.
-/

namespace LinuxMiniProjects.Machine

/-! ### Machines with outputs -/

section Outputs

variable {σ τ ε ω : Type*}

def exec (step : σ → ε → ω × σ) : σ → List ε → σ
  | s, [] => s
  | s, e :: es => exec step (step s e).2 es

def trace (step : σ → ε → ω × σ) : σ → List ε → List ω
  | _, [] => []
  | s, e :: es => (step s e).1 :: trace step (step s e).2 es

def Meets (step : σ → ε → ω × σ) (ok : σ → ε → Prop) : σ → List ε → Prop
  | _, [] => True
  | s, e :: es => ok s e ∧ Meets step ok (step s e).2 es

def Always (step : σ → ε → ω × σ) (P : σ → Prop) : σ → List ε → Prop
  | s, [] => P s
  | s, e :: es => P s ∧ Always step P (step s e).2 es

instance Meets.decidable (step : σ → ε → ω × σ) (ok : σ → ε → Prop)
    [∀ s e, Decidable (ok s e)] : (s : σ) → (es : List ε) → Decidable (Meets step ok s es)
  | _, [] => isTrue trivial
  | s, e :: es =>
      have := Meets.decidable step ok (step s e).2 es
      inferInstanceAs (Decidable (ok s e ∧ Meets step ok (step s e).2 es))

variable {step : σ → ε → ω × σ} {P Q : σ → Prop} {s : σ} {es : List ε}

theorem exec_append (es es' : List ε) :
    exec step s (es ++ es') = exec step (exec step s es) es' := by
  induction es generalizing s with
  | nil => rfl
  | cons e es ih => exact ih

theorem Always.start (h : Always step P s es) : P s := by
  cases es with
  | nil => exact h
  | cons e es => exact h.1

theorem Always.mono (h : Always step P s es) (hPQ : ∀ s, P s → Q s) :
    Always step Q s es := by
  induction es generalizing s with
  | nil => exact hPQ s h
  | cons e es ih => exact ⟨hPQ s h.1, ih h.2⟩

theorem Meets.and {ok ok' : σ → ε → Prop} (h : Meets step ok s es)
    (h' : Meets step ok' s es) : Meets step (fun s e => ok s e ∧ ok' s e) s es := by
  induction es generalizing s with
  | nil => trivial
  | cons e es ih => exact ⟨⟨h.1, h'.1⟩, ih h.2 h'.2⟩

theorem Meets.mono {ok ok' : σ → ε → Prop} (h : Meets step ok s es)
    (hok : ∀ s e, ok s e → ok' s e) : Meets step ok' s es := by
  induction es generalizing s with
  | nil => trivial
  | cons e es ih => exact ⟨hok s e h.1, ih h.2⟩

/-- **The invariant rule.** What a step that satisfies `ok` preserves,
holds all along a run whose steps satisfy `ok`. -/
theorem Always.of_step {ok : σ → ε → Prop}
    (hstep : ∀ s e, P s → ok s e → P (step s e).2) (hs : P s)
    (hes : Meets step ok s es) : Always step P s es := by
  induction es generalizing s with
  | nil => exact hs
  | cons e es ih => exact ⟨hs, ih (hstep s e hs hes.1) hes.2⟩

/-- **The simulation rule.** If related states answer every operation
that satisfies `ok` alike and are related again afterwards, the two
machines have the same outputs, and every state the first one goes
through is related to some state of the second. -/
theorem trace_eq_of_simulation {astep : τ → ε → ω × τ} {ok : σ → ε → Prop}
    (R : σ → τ → Prop)
    (hstep : ∀ s t e, R s t → ok s e →
      (step s e).1 = (astep t e).1 ∧ R (step s e).2 (astep t e).2)
    {t : τ} (hR : R s t) (hes : Meets step ok s es) :
    trace step s es = trace astep t es ∧ Always step (fun s => ∃ t, R s t) s es := by
  induction es generalizing s t with
  | nil => exact ⟨rfl, t, hR⟩
  | cons e es ih =>
      obtain ⟨hout, hR'⟩ := hstep s t e hR hes.1
      obtain ⟨htr, hal⟩ := ih hR' hes.2
      exact ⟨by simp only [trace, hout, htr], ⟨t, hR⟩, hal⟩

/-- Under the simulation rule the states the two machines end in are
related, too. -/
theorem exec_of_simulation {astep : τ → ε → ω × τ} {ok : σ → ε → Prop} (R : σ → τ → Prop)
    (hstep : ∀ s t e, R s t → ok s e →
      (step s e).1 = (astep t e).1 ∧ R (step s e).2 (astep t e).2)
    {t : τ} (hR : R s t) (hes : Meets step ok s es) : R (exec step s es) (exec astep t es) := by
  induction es generalizing s t with
  | nil => exact hR
  | cons e es ih => exact ih (hstep s t e hR hes.1).2 hes.2

/-- **The lockstep rule.** Two machines that run over operations with the
same keys have the same outputs, if related states answer operations with
the same key alike and are related again afterwards. -/
theorem trace_eq_of_lockstep {ε' κ : Type*} {step' : τ → ε' → ω × τ} {ok : σ → ε → Prop}
    {ok' : τ → ε' → Prop} (key : ε → κ) (key' : ε' → κ) (R : σ → τ → Prop)
    (hstep : ∀ s t e e', R s t → key e = key' e' → ok s e → ok' t e' →
      (step s e).1 = (step' t e').1 ∧ R (step s e).2 (step' t e').2)
    {t : τ} {es' : List ε'} (hR : R s t) (hkeys : es.map key = es'.map key')
    (hes : Meets step ok s es) (hes' : Meets step' ok' t es') :
    trace step s es = trace step' t es' := by
  induction es generalizing s t es' with
  | nil =>
      obtain rfl : es' = [] := List.map_eq_nil_iff.mp hkeys.symm
      rfl
  | cons e es ih =>
      cases es' with
      | nil => simp at hkeys
      | cons e' es' =>
          rw [List.map_cons, List.map_cons, List.cons.injEq] at hkeys
          obtain ⟨hout, hR'⟩ := hstep s t e e' hR hkeys.1 hes.1 hes'.1
          simp only [trace, hout, ih hR' hkeys.2 hes.2 hes'.2]

end Outputs

/-! ### Systems -/

section Systems

variable {σ ε : Type*}

/-- The states of a system that are reachable from `init` by steps that
satisfy `ok`. -/
inductive Reachable (step : σ → ε → Option σ) (ok : σ → ε → Prop) (init : σ) : σ → Prop
  | start : Reachable step ok init init
  | step {s s' : σ} {e : ε} : Reachable step ok init s → ok s e → step s e = some s' →
      Reachable step ok init s'

/-- The run of a system over a list of labels, if all of them are enabled
in turn. -/
def runs (step : σ → ε → Option σ) : σ → List ε → Option σ
  | s, [] => some s
  | s, e :: es => (step s e).bind fun s' => runs step s' es

variable {step : σ → ε → Option σ} {ok : σ → ε → Prop} {init : σ}

theorem Reachable.invariant {I : σ → Prop} (hinit : I init)
    (hstep : ∀ s e s', I s → ok s e → step s e = some s' → I s')
    {s : σ} (h : Reachable step ok init s) : I s := by
  induction h with
  | start => exact hinit
  | step _ hok hs ih => exact hstep _ _ _ ih hok hs

theorem Reachable.mono {ok' : σ → ε → Prop} {s : σ} (h : Reachable step ok init s)
    (hok : ∀ s e, ok s e → ok' s e) : Reachable step ok' init s := by
  induction h with
  | start => exact .start
  | step _ hs hstep ih => exact .step ih (hok _ _ hs) hstep

def guarded (step : σ → ε → Option σ) (ok : σ → ε → Prop) [∀ s e, Decidable (ok s e)] :
    σ → ε → Option σ :=
  fun s e => if ok s e then step s e else none

theorem Reachable.of_runs [∀ s e, Decidable (ok s e)] {s s' : σ} {es : List ε}
    (h : Reachable step ok init s) (hes : runs (guarded step ok) s es = some s') :
    Reachable step ok init s' := by
  induction es generalizing s with
  | nil =>
      obtain rfl : s = s' := by simpa [runs] using hes
      exact h
  | cons e es ih =>
      obtain ⟨s₁, hs₁, hes⟩ := Option.bind_eq_some_iff.mp hes
      unfold guarded at hs₁
      split at hs₁
      next hok => exact ih (.step h hok hs₁) hes
      next => cases hs₁

/-- What is to be seen at the end of a concrete run is seen in a reachable
state. -/
theorem Reachable.exists_of_runs {ω : Type*} [∀ s e, Decidable (ok s e)] {es : List ε}
    {view : σ → ω} {x : ω} (hes : (runs (guarded step ok) init es).map view = some x) :
    ∃ s, Reachable step ok init s ∧ view s = x := by
  obtain ⟨s, hs, hview⟩ := Option.map_eq_some_iff.mp hes
  exact ⟨s, .of_runs .start hs, hview⟩

theorem Reachable.of_runs_forall {s s' : σ} {es : List ε} (h : Reachable step ok init s)
    (hok : ∀ e ∈ es, ∀ s, ok s e) (hes : runs step s es = some s') :
    Reachable step ok init s' := by
  induction es generalizing s with
  | nil =>
      obtain rfl : s = s' := by simpa [runs] using hes
      exact h
  | cons e es ih =>
      obtain ⟨s₁, hs₁, hes⟩ := Option.bind_eq_some_iff.mp hes
      obtain ⟨he, hok⟩ := List.forall_mem_cons.mp hok
      exact ih (.step h (he s) hs₁) hok hes

/-- **The termination rule.** Steps that lower a rank can follow each other
only as often as the rank says. -/
theorem length_le_rank {rank : σ → ℕ} {inner : ε → Prop}
    (hstep : ∀ s e s', inner e → step s e = some s' → rank s' < rank s) {s s' : σ} {es : List ε}
    (hes : runs step s es = some s') (hinner : ∀ e ∈ es, inner e) : es.length ≤ rank s := by
  induction es generalizing s with
  | nil => exact Nat.zero_le _
  | cons e es ih =>
      obtain ⟨s₁, hs₁, hes⟩ := Option.bind_eq_some_iff.mp hes
      have hlt := hstep s e s₁ (hinner e (List.mem_cons_self ..)) hs₁
      have hrest := ih hes fun e' he' => hinner e' (List.mem_cons_of_mem e he')
      rw [List.length_cons]
      omega

/-- **The progress rule.** If a step that lowers a rank is always possible
until `P` holds, a state is reachable where it does. -/
theorem Reachable.exists_of_progress {r : σ → ℕ} {P : σ → Prop}
    (hstep : ∀ s, Reachable step ok init s → ¬ P s →
      ∃ e s', ok s e ∧ step s e = some s' ∧ r s' < r s) :
    ∃ s, Reachable step ok init s ∧ P s := by
  have hrun : ∀ k s, Reachable step ok init s → r s ≤ k →
      ∃ s, Reachable step ok init s ∧ P s := by
    intro k
    induction k with
    | zero =>
        intro s hs hk
        refine ⟨s, hs, Classical.byContradiction fun hP => ?_⟩
        obtain ⟨e, s', -, -, hlt⟩ := hstep s hs hP
        omega
    | succ k ih =>
        intro s hs hk
        refine Classical.byCases (fun hP : P s => ⟨s, hs, hP⟩) fun hP => ?_
        obtain ⟨e, s', hok, hs', hlt⟩ := hstep s hs hP
        exact ih s' (.step hs hok hs') (by omega)
  exact hrun _ init .start (Nat.le_refl _)

end Systems

/-! ### One thread among others

What a thread does in several steps is said about the states in which it
takes these steps, and the other threads have changed the state in
between. -/

section OneThread

variable {σ ε : Type*}

/-- Whatever the other threads do, the thread with the labels `mine` can go
on, and its next step satisfies `post`. -/
def Next (step : σ → ε → Option σ) (mine : ε → Prop) (s : σ) (post : σ → σ → Prop) : Prop :=
  ∀ t, Reachable step (fun _ e => ¬ mine e) s t →
    (∃ e t', mine e ∧ step t e = some t') ∧ ∀ e t', mine e → step t e = some t' → post t t'

variable {step : σ → ε → Option σ} {mine : ε → Prop} {s : σ} {post : σ → σ → Prop}

/-- The rule for `Next`: it is enough to look at the states that satisfy
what the other threads leave alone. -/
theorem Next.of_stable {I : σ → Prop} (hs : I s)
    (hstable : ∀ t e t', I t → ¬ mine e → step t e = some t' → I t')
    (hpost : ∀ t, I t → (∃ e t', mine e ∧ step t e = some t') ∧
      ∀ e t', mine e → step t e = some t' → post t t') : Next step mine s post :=
  fun t ht => hpost t (ht.invariant hs fun t e t' h he hstep => hstable t e t' h he hstep)

theorem Next.mono {post' : σ → σ → Prop} (h : Next step mine s post)
    (himp : ∀ t t', post t t' → post' t t') : Next step mine s post' :=
  fun t ht => ⟨(h t ht).1, fun e t' he hstep => himp t t' ((h t ht).2 e t' he hstep)⟩

end OneThread

/-! ### Histories

What a run has done is not always to be seen in the state it ends in. A
history is put beside the state: a step changes it by what it does, and
no step depends on it. -/

section Histories

variable {σ ε η : Type*}

/-- A system with a history, which `record` extends by what a step does. -/
def observed (step : σ → ε → Option σ) (record : σ → ε → η → η) (x : σ × η) (e : ε) :
    Option (σ × η) :=
  (step x.1 e).map fun s' => (s', record x.1 e x.2)

variable {step : σ → ε → Option σ} {record : σ → ε → η → η}

theorem observed_inv {x x' : σ × η} {e : ε} (h : observed step record x e = some x') :
    step x.1 e = some x'.1 ∧ x'.2 = record x.1 e x.2 := by
  obtain ⟨s', hs', rfl⟩ := Option.map_eq_some_iff.mp h
  exact ⟨hs', rfl⟩

variable {ok : σ → ε → Prop} {init : σ}

end Histories

end LinuxMiniProjects.Machine
