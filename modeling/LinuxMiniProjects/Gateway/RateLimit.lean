import LinuxMiniProjects.Lib.Machine
import LinuxMiniProjects.Gateway.Client

/-!
The token bucket (`rate_limit.c`) over the calls of a connection.

`request_allow` fills the bucket for the time since `last_request_ms`,
up to its capacity, and takes a token if there is one. The clock is read
twice: the bucket is filled up to the first reading, and the second one
becomes the new `last_request_ms`. What passes between the two is never
paid out. That does no harm to the upper bound on what the bucket lets
through, which is the first result: tokens taken and tokens left grow by
at most the rate, and a bucket is never more than full. It does harm to a
client that keeps to the rate, and the second result says how much: calls
are allowed exactly as long as, over any of them in a row, a full bucket
and what is paid out between one call and the next cover a token each.
-/

namespace LinuxMiniProjects.Gateway

open Machine

/-! ### Calls -/

/-- A call of `request_allow`: the two readings of the clock it takes. -/
structure AllowCall where
  now : UInt64
  now' : UInt64

def AllowCall.start (c : AllowCall) : ℕ := c.now.toNat

def AllowCall.stop (c : AllowCall) : ℕ := c.now'.toNat

def allowStep (rate : RateLimit) (c : AllowCall) : Bool × RateLimit :=
  requestAllow rate c.start c.stop

def ClockFrom : ℕ → List AllowCall → Prop
  | _, [] => True
  | t, c :: calls => t ≤ c.start ∧ c.start ≤ c.stop ∧ ClockFrom c.stop calls

instance ClockFrom.decidable : (t : ℕ) → (calls : List AllowCall) → Decidable (ClockFrom t calls)
  | _, [] => isTrue trivial
  | t, c :: calls =>
      have := ClockFrom.decidable c.stop calls
      inferInstanceAs (Decidable (t ≤ c.start ∧ c.start ≤ c.stop ∧ ClockFrom c.stop calls))

/-! ### One call -/

def RateLimit.level (rate : RateLimit) (now : ℕ) : ℚ :=
  min rate.capacity
    (rate.numberRequestAvailable + rate.requestPerSecond * ((now : ℚ) - rate.lastRequestMs) / 1000)

theorem allowStep_eq {rate : RateLimit} {c : AllowCall} (h : rate.lastRequestMs ≤ c.start) :
    allowStep rate c =
      (decide (1 ≤ rate.level c.start),
        { rate with
          numberRequestAvailable :=
            if 1 ≤ rate.level c.start then rate.level c.start - 1 else rate.level c.start
          lastRequestMs := c.stop }) := by
  have hlt : c.start < 2 ^ 64 := c.now.toNat_lt
  have helapsed : (c.start + 2 ^ 64 - rate.lastRequestMs) % 2 ^ 64 =
      c.start - rate.lastRequestMs := by omega
  have hlevel : (if rate.numberRequestAvailable +
        ((c.start - rate.lastRequestMs : ℕ) : ℚ) / 1000 * rate.requestPerSecond > rate.capacity
      then rate.capacity
      else rate.numberRequestAvailable +
        ((c.start - rate.lastRequestMs : ℕ) : ℚ) / 1000 * rate.requestPerSecond) =
      rate.level c.start := by
    rw [RateLimit.level, min_def, Nat.cast_sub h, div_mul_eq_mul_div, mul_comm ((c.start : ℚ) - _)]
    grind
  rw [allowStep, requestAllow, helapsed]
  simp only [hlevel]
  grind

/-- A bucket with the given capacity and rate, last looked at when the
clock showed `t`. -/
structure RateLimit.Bucket (rate : RateLimit) (capacity perSecond : ℚ) (t : ℕ) : Prop where
  capacity_eq : rate.capacity = capacity
  perSecond_eq : rate.requestPerSecond = perSecond
  last_eq : rate.lastRequestMs = t
  nonneg : 0 ≤ rate.numberRequestAvailable
  le : rate.numberRequestAvailable ≤ capacity

section Bucket

variable {rate : RateLimit} {capacity perSecond : ℚ} {t : ℕ} {c : AllowCall}
  {calls : List AllowCall}

theorem bucket_init (hcap : 1 ≤ capacity) (perSecond : ℚ) (t : ℕ) :
    (rateLimitInit capacity perSecond t).Bucket capacity perSecond t :=
  ⟨rfl, rfl, rfl, zero_le_one.trans hcap, le_rfl⟩

def token (allowed : Bool) : ℚ := if allowed then 1 else 0

namespace RateLimit.Bucket

theorem level_eq (h : rate.Bucket capacity perSecond t) (now : ℕ) :
    rate.level now =
      min capacity (rate.numberRequestAvailable + perSecond * ((now : ℚ) - t) / 1000) := by
  rw [level, h.capacity_eq, h.perSecond_eq, h.last_eq]

theorem token_add (h : rate.Bucket capacity perSecond t) (hclock : t ≤ c.start) :
    token (allowStep rate c).1 + (allowStep rate c).2.numberRequestAvailable =
      rate.level c.start := by
  rw [allowStep_eq (h.last_eq.trans_le hclock), token]
  by_cases hone : 1 ≤ rate.level c.start
  · simp [hone]
  · simp [hone]

theorem level_nonneg (h : rate.Bucket capacity perSecond t) (hrate : 0 ≤ perSecond) {now : ℕ}
    (hnow : t ≤ now) : 0 ≤ rate.level now := by
  have hpast : (0 : ℚ) ≤ (now : ℚ) - t := sub_nonneg.mpr (by exact_mod_cast hnow)
  have hgain : 0 ≤ perSecond * ((now : ℚ) - t) / 1000 := by positivity
  rw [h.level_eq]
  exact le_min (h.nonneg.trans h.le) (add_nonneg h.nonneg hgain)

theorem step (h : rate.Bucket capacity perSecond t) (hrate : 0 ≤ perSecond)
    (hclock : t ≤ c.start) : (allowStep rate c).2.Bucket capacity perSecond c.stop := by
  have hlevel : 0 ≤ rate.level c.start := h.level_nonneg hrate hclock
  have hle : rate.level c.start ≤ capacity := by
    rw [h.level_eq]
    exact min_le_left _ _
  rw [allowStep_eq (h.last_eq.trans_le hclock)]
  refine ⟨h.capacity_eq, h.perSecond_eq, rfl, ?_, ?_⟩
  · dsimp only
    split <;> linarith
  · dsimp only
    split <;> linarith

theorem always (h : rate.Bucket capacity perSecond t) (hrate : 0 ≤ perSecond)
    (hclock : ClockFrom t calls) :
    Always allowStep
      (fun r => 0 ≤ r.numberRequestAvailable ∧ r.numberRequestAvailable ≤ capacity) rate calls := by
  induction calls generalizing rate t with
  | nil => exact ⟨h.nonneg, h.le⟩
  | cons c calls ih =>
      exact ⟨⟨h.nonneg, h.le⟩, ih (h.step hrate hclock.1) hclock.2.2⟩

theorem exec (h : rate.Bucket capacity perSecond t) (hrate : 0 ≤ perSecond)
    {before after : List AllowCall} (hclock : ClockFrom t (before ++ after)) :
    ∃ t', (Machine.exec allowStep rate before).Bucket capacity perSecond t' ∧
      ClockFrom t' after := by
  induction before generalizing rate t with
  | nil => exact ⟨t, h, hclock⟩
  | cons c before ih => exact ih (h.step hrate hclock.1) hclock.2.2

end RateLimit.Bucket

/-! ### What the bucket lets through -/

def lastStart : ℕ → List AllowCall → ℕ
  | t, [] => t
  | _, c :: calls => lastStart c.start calls

theorem lastStart_eq {block : List AllowCall} {c : AllowCall} (h : block.getLast? = some c)
    (t : ℕ) : lastStart t block = c.start := by
  induction block generalizing t with
  | nil => cases h
  | cons d block ih =>
      cases block with
      | nil =>
          cases h
          rfl
      | cons e block => exact ih (by rwa [List.getLast?_cons_cons] at h) d.start

theorem count_trace_cons (rate : RateLimit) (c : AllowCall) (calls : List AllowCall) :
    ((trace allowStep rate (c :: calls)).count true : ℚ) =
      token (allowStep rate c).1 + (trace allowStep (allowStep rate c).2 calls).count true := by
  rw [trace, List.count_cons, token]
  cases (allowStep rate c).1 <;> simp [add_comm]

/-- **The potential.** Calls after a first reading at `s` take, together
with what they leave, no more than there was and what has come in since
`s`. -/
theorem RateLimit.Bucket.count_add_le (h : rate.Bucket capacity perSecond t)
    (hrate : 0 ≤ perSecond) {after : List AllowCall} (hclock : ClockFrom t (calls ++ after)) {s : ℕ}
    (hs : s ≤ t) :
    ((trace allowStep rate calls).count true : ℚ) +
        (Machine.exec allowStep rate calls).numberRequestAvailable ≤
      rate.numberRequestAvailable + perSecond * ((lastStart s calls : ℚ) - s) / 1000 := by
  induction calls generalizing rate t s with
  | nil => simp [trace, Machine.exec, lastStart]
  | cons c calls ih =>
      obtain ⟨hstart, hstop, hrest⟩ := hclock
      have hcall := h.token_add hstart
      have hnext := ih (h.step hrate hstart) hrest hstop
      have hlevel : rate.level c.start ≤
          rate.numberRequestAvailable + perSecond * ((c.start : ℚ) - s) / 1000 := by
        have hst : (s : ℚ) ≤ t := by exact_mod_cast hs
        rw [h.level_eq]
        refine (min_le_right _ _).trans ?_
        gcongr
      have hsplit : perSecond * ((lastStart c.start calls : ℚ) - c.start) / 1000 +
          perSecond * ((c.start : ℚ) - s) / 1000 =
          perSecond * ((lastStart c.start calls : ℚ) - s) / 1000 := by ring
      rw [count_trace_cons, Machine.exec, lastStart]
      linarith

theorem RateLimit.Bucket.count_le (h : rate.Bucket capacity perSecond t) (hrate : 0 ≤ perSecond)
    {after : List AllowCall} (hclock : ClockFrom t (c :: calls ++ after)) :
    ((trace allowStep rate (c :: calls)).count true : ℚ) ≤
      capacity + perSecond * ((lastStart c.start calls : ℚ) - c.start) / 1000 := by
  obtain ⟨hstart, hstop, hrest⟩ := hclock
  have hfirst := h.token_add hstart
  have hfull : rate.level c.start ≤ capacity := by
    rw [h.level_eq]
    exact min_le_left _ _
  have hnext := h.step hrate hstart
  have hothers := hnext.count_add_le hrate hrest hstop
  obtain ⟨t', hend, -⟩ := hnext.exec hrate hrest
  have hleft := hend.nonneg
  rw [count_trace_cons]
  linarith

end Bucket

/-- **The upper bound.** Over any calls after `rate_limit_init` the number
of tokens stays between zero and the capacity, and of the calls of any
block at most the capacity and what the rate brings between the first
reading of its first call and that of its last are allowed. -/
theorem allowed_le_capacity_add {capacity perSecond : ℚ} (hcap : 1 ≤ capacity)
    (hrate : 0 ≤ perSecond) {t : UInt64} {calls : List AllowCall}
    (hclock : ClockFrom t.toNat calls) :
    Always allowStep
        (fun r => 0 ≤ r.numberRequestAvailable ∧ r.numberRequestAvailable ≤ capacity)
        (rateLimitInit capacity perSecond t.toNat) calls ∧
      ∀ before block after c₁ c₂, calls = before ++ block ++ after →
        block.head? = some c₁ → block.getLast? = some c₂ →
        ((trace allowStep (exec allowStep (rateLimitInit capacity perSecond t.toNat) before)
            block).count true : ℚ) ≤
          capacity + perSecond * ((c₂.start : ℚ) - c₁.start) / 1000 := by
  have hinit := bucket_init hcap perSecond t.toNat
  refine ⟨hinit.always hrate hclock, ?_⟩
  rintro before block after c₁ c₂ rfl hfirst hlast
  rw [List.append_assoc] at hclock
  obtain ⟨t', hbucket, hblock⟩ := hinit.exec hrate hclock
  obtain ⟨rest, rfl⟩ := List.head?_eq_some_iff.mp hfirst
  have hend : lastStart c₁.start rest = c₂.start := lastStart_eq hlast 0
  rw [← hend]
  exact hbucket.count_le hrate hblock

def burst : List AllowCall := List.replicate 102 ⟨7, 7⟩

/-- Of a burst the gateway lets a hundred requests through at most. -/
theorem allowed_le_capacity_add_burst :
    ClockFrom 5 burst ∧
      ((trace allowStep (rateLimitInit rateLimitCap rateLimitRefillSec 5) burst).count true : ℚ) ≤
        rateLimitCap := by
  have hclock : ClockFrom (5 : UInt64).toNat burst := by decide +kernel
  have hbound := (@allowed_le_capacity_add rateLimitCap rateLimitRefillSec (by decide) (by decide)
    5 burst hclock).2 [] burst [] ⟨7, 7⟩ ⟨7, 7⟩ (by simp) rfl rfl
  exact ⟨hclock, by simpa [exec] using hbound⟩

/-! ### A client that keeps to the rate -/

/-- First readings are at least `1000 / perSecond` milliseconds apart. -/
def Spaced (perSecond : ℚ) (calls : List AllowCall) : Prop :=
  calls.IsChain fun c d => 1000 / perSecond ≤ (d.start : ℚ) - c.start

instance (perSecond : ℚ) (calls : List AllowCall) : Decidable (Spaced perSecond calls) :=
  inferInstanceAs (Decidable (calls.IsChain _))

/-- The time for which the bucket is filled between a call and the last of
those behind it. -/
def paidMs : AllowCall → List AllowCall → ℚ
  | _, [] => 0
  | c, d :: calls => ((d.start : ℚ) - c.stop) + paidMs d calls

/-- A bucket with `held` tokens at a call, and what comes in behind it,
cover the tokens of the call and of those behind it, up to any of them. -/
def CoveredFrom (perSecond held : ℚ) (c : AllowCall) (calls : List AllowCall) : Prop :=
  ∀ block ∈ calls.inits, (block.length : ℚ) + 1 ≤ held + perSecond * paidMs c block / 1000

instance (perSecond held : ℚ) (c : AllowCall) (calls : List AllowCall) :
    Decidable (CoveredFrom perSecond held c calls) :=
  inferInstanceAs (Decidable (∀ block ∈ calls.inits, _))

/-- Any calls in a row are covered by a full bucket at the first of them. -/
def Covered (capacity perSecond : ℚ) : List AllowCall → Prop
  | [] => True
  | c :: calls => CoveredFrom perSecond capacity c calls ∧ Covered capacity perSecond calls

instance Covered.decidable (capacity perSecond : ℚ) :
    (calls : List AllowCall) → Decidable (Covered capacity perSecond calls)
  | [] => isTrue trivial
  | c :: calls =>
      have := Covered.decidable capacity perSecond calls
      inferInstanceAs (Decidable (CoveredFrom _ _ c calls ∧ Covered _ _ calls))

section CoveredFrom

variable {perSecond : ℚ} {c d : AllowCall} {calls : List AllowCall}

theorem CoveredFrom.one_le {held : ℚ} (h : CoveredFrom perSecond held c calls) : 1 ≤ held := by
  have hnil := h [] ((List.mem_inits [] calls).mpr List.nil_prefix)
  simpa [paidMs] using hnil

/-- The first call takes a token, and then what has come in until the next
one counts. -/
theorem coveredFrom_cons {held : ℚ} :
    CoveredFrom perSecond held c (d :: calls) ↔
      1 ≤ held ∧
        CoveredFrom perSecond (held - 1 + perSecond * ((d.start : ℚ) - c.stop) / 1000) d calls := by
  have hblock : ∀ block : List AllowCall, (((d :: block).length : ℚ) + 1 ≤
        held + perSecond * paidMs c (d :: block) / 1000) ↔
      ((block.length : ℚ) + 1 ≤ held - 1 + perSecond * ((d.start : ℚ) - c.stop) / 1000 +
        perSecond * paidMs d block / 1000) := by
    intro block
    rw [List.length_cons, Nat.cast_add, Nat.cast_one, paidMs, mul_add, add_div]
    constructor <;> intro h <;> linarith
  constructor
  · intro h
    refine ⟨h.one_le, fun block hmem => (hblock block).mp (h _ ?_)⟩
    rw [List.inits, List.mem_cons]
    exact .inr (List.mem_map_of_mem hmem)
  · rintro ⟨hone, h⟩ block hmem
    rw [List.inits, List.mem_cons, List.mem_map] at hmem
    obtain rfl | ⟨block, hmem, rfl⟩ := hmem
    · simpa [paidMs] using hone
    · exact (hblock block).mpr (h block hmem)

theorem coveredFrom_min {held held' : ℚ} :
    CoveredFrom perSecond (min held held') c calls ↔
      CoveredFrom perSecond held c calls ∧ CoveredFrom perSecond held' c calls := by
  simp only [CoveredFrom, ← forall₂_and]
  refine forall₂_congr fun block _ => ?_
  rw [← min_add_add_right, le_min_iff]

end CoveredFrom

/-- **A bucket** lets all calls through if and only if they are covered by
what it holds at the first, and those behind it by a full bucket. -/
theorem RateLimit.Bucket.all_allowed_iff {rate : RateLimit} {capacity perSecond : ℚ} {t : ℕ}
    (h : rate.Bucket capacity perSecond t) (hrate : 0 ≤ perSecond) {c : AllowCall}
    {calls : List AllowCall} (hclock : ClockFrom t (c :: calls)) :
    (∀ allowed ∈ trace allowStep rate (c :: calls), allowed = true) ↔
      CoveredFrom perSecond (rate.level c.start) c calls ∧ Covered capacity perSecond calls := by
  induction calls generalizing rate t c with
  | nil =>
      have hcall := allowStep_eq (h.last_eq.trans_le hclock.1)
      simp [trace, hcall, CoveredFrom, Covered, paidMs]
  | cons d calls ih =>
      obtain ⟨hstart, hstop, hrest⟩ := hclock
      have hcall := allowStep_eq (h.last_eq.trans_le hstart)
      by_cases hone : 1 ≤ rate.level c.start
      · have hlevel : (allowStep rate c).2.level d.start = min capacity
            (rate.level c.start - 1 + perSecond * ((d.start : ℚ) - c.stop) / 1000) := by
          rw [(h.step hrate hstart).level_eq, hcall]
          simp [hone]
        have hnext := ih (h.step hrate hstart) hrest
        rw [hlevel, coveredFrom_min] at hnext
        rw [trace, List.forall_mem_cons, hnext, coveredFrom_cons, Covered]
        have hfirst : (allowStep rate c).1 = true := by simp [hcall, hone]
        tauto
      · have hfirst : (allowStep rate c).1 = false := by simp [hcall, hone]
        refine iff_of_false ?_ fun hcov => hone hcov.1.one_le
        rw [trace, List.forall_mem_cons, hfirst]
        exact fun hall => Bool.false_ne_true hall.1

/-- **Fairness.** All calls after `rate_limit_init` are allowed if and only
if any of them in a row are covered: the capacity, and what comes in
between one call and the next, is at least a token for each. -/
theorem calls_allowed_iff {capacity perSecond : ℚ} (hcap : 1 ≤ capacity) (hrate : 0 < perSecond)
    {t : UInt64} {calls : List AllowCall} (hclock : ClockFrom t.toNat calls) :
    (∀ allowed ∈ trace allowStep (rateLimitInit capacity perSecond t.toNat) calls,
      allowed = true) ↔ Covered capacity perSecond calls := by
  cases calls with
  | nil => simp [trace, Covered]
  | cons c calls =>
      have hinit := bucket_init hcap perSecond t.toNat
      have hpast : (0 : ℚ) ≤ (c.start : ℚ) - t.toNat :=
        sub_nonneg.mpr (by exact_mod_cast hclock.1)
      have hgain : 0 ≤ perSecond * ((c.start : ℚ) - t.toNat) / 1000 := by positivity
      have hfull : (rateLimitInit capacity perSecond t.toNat).level c.start = capacity := by
        rw [hinit.level_eq]
        exact min_eq_left (le_add_of_nonneg_right hgain)
      rw [hinit.all_allowed_iff hrate.le hclock, hfull, Covered]

def slowCalls (n : ℕ) : List AllowCall :=
  (List.range n).map fun i => ⟨UInt64.ofNat (10000 * i), UInt64.ofNat (10000 * i + 2000)⟩

/-- The gateway allows fifty requests a second. Of calls ten seconds apart
none is refused, even if each takes two seconds. -/
theorem calls_allowed_iff_slow :
    Spaced rateLimitRefillSec (slowCalls 6) ∧
      trace allowStep (rateLimitInit rateLimitCap rateLimitRefillSec 0) (slowCalls 6) =
        List.replicate 6 true :=
  ⟨by decide +kernel, List.eq_replicate_iff.mpr ⟨by decide +kernel,
    (@calls_allowed_iff rateLimitCap rateLimitRefillSec (by decide) (by decide) 0 (slowCalls 6)
      (by decide +kernel)).mpr (by decide +kernel)⟩⟩

def steadyCalls (ms : ℕ) (n : ℕ) : List AllowCall :=
  (List.range n).map fun i => ⟨UInt64.ofNat (20 * i), UInt64.ofNat (20 * i + ms)⟩

/-- If each call ends when the next one starts, nothing ever comes in, and
the hundred and first request is refused. -/
theorem conforming_refused_steady :
    ClockFrom 0 (steadyCalls 20 101) ∧ Spaced rateLimitRefillSec (steadyCalls 20 101) ∧
      (trace allowStep (rateLimitInit rateLimitCap rateLimitRefillSec 0)
        (steadyCalls 20 101)).getLast? = some false :=
  ⟨by decide +kernel, by decide +kernel, by decide +kernel⟩

end LinuxMiniProjects.Gateway
