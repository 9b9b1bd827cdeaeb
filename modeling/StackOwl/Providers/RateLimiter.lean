import Mathlib.Algebra.BigOperators.Group.List.Basic
import Mathlib.Algebra.Order.Archimedean.Basic
import Mathlib.Algebra.Order.Field.Rat
import Mathlib.Tactic.Linarith
import Mathlib.Tactic.Positivity
import StackOwl.Lib.Run

/-!
# The rate limiter of a provider

`RateLimiter` (`providers/rate_limiter.py`): a token bucket that is refilled when it is
looked at.  A look takes the lock across no wait, so it is one step; the sleep of a caller
that finds too little lies outside, and each caller looks again when its sleep is over.  The
clock is read anew for the refill, for the rate of the refill and for the rate the sleep is
computed with.

Tokens, rates and instants are rationals.

## Main results

* `granted_within` — what any window of time is granted.
* `served_alone` — a caller nobody competes with is granted after finitely many looks.
* `rateLimiter_bound` — the bound along every run of requests within the capacity.
-/

namespace StackOwl.Providers

open Lib List

/-- `RateLimiter`, less its name, its clock and its lock. -/
structure RateLimiter where
  capacity : Option Int
  refillRate : ℚ
  tokens : ℚ
  lastRefill : ℚ
  penaltyFactor : ℚ := 1
  penaltyUntil : ℚ := 0

/-- The clock as `_refill` reads it, as the rate of the refill does, and as the rate of the
sleep does. -/
structure ClockReadings where
  refill : ℚ
  rate : ℚ
  sleep : ℚ

/-- The readings are in order, none before `clock`. -/
def ClockReadings.after (clock : ℚ) (r : ClockReadings) : Prop :=
  clock ≤ r.refill ∧ r.refill ≤ r.rate ∧ r.rate ≤ r.sleep

instance (clock : ℚ) (r : ClockReadings) : Decidable (r.after clock) := by
  unfold ClockReadings.after
  infer_instance

inductive Look where
  | granted
  | refused
  | sleeps (seconds : ℚ)
  deriving DecidableEq

namespace RateLimiter

/-- `__init__`. -/
def new (capacity : Option Int) (refillRate : Option ℚ) (now : ℚ) : RateLimiter :=
  { capacity
    refillRate := refillRate.getD 0
    tokens := (capacity.map fun capacity => (capacity : ℚ)).getD 0
    lastRefill := now }

def fromRpm (rateLimitRpm : Option Int) (now : ℚ) : RateLimiter :=
  match rateLimitRpm with
  | none => new none none now
  | some rpm => if rpm ≤ 0 then new none none now else new (some rpm) (some (rpm / 60)) now

variable (limiter : RateLimiter)

/-- `penalize`: the limiter, and whether it was paced. -/
def penalize (factor durationSeconds now : ℚ) : RateLimiter × Bool :=
  match limiter.capacity with
  | none => (limiter, false)
  | some _ =>
    ({ limiter with penaltyFactor := max (1 / 20) factor, penaltyUntil := now + durationSeconds },
      true)

def effectiveRefillRate (now : ℚ) : ℚ :=
  if now < limiter.penaltyUntil then limiter.refillRate * limiter.penaltyFactor
  else limiter.refillRate

def refill (r : ClockReadings) : RateLimiter :=
  match limiter.capacity with
  | none => limiter
  | some capacity =>
    let elapsed := r.refill - limiter.lastRefill
    if elapsed ≤ 0 then limiter
    else
      let added := elapsed * limiter.effectiveRefillRate r.rate
      { limiter with
        tokens :=
          if 0 < added then min (capacity : ℚ) (limiter.tokens + added) else limiter.tokens
        lastRefill := r.refill }

/-- One pass of the loop of `acquire`. -/
def look (tokens : Int) (r : ClockReadings) : RateLimiter × Look :=
  match limiter.capacity with
  | none => (limiter, .granted)
  | some _ =>
    let refilled := limiter.refill r
    if (tokens : ℚ) ≤ refilled.tokens then
      ({ refilled with tokens := refilled.tokens - tokens }, .granted)
    else if refilled.refillRate ≤ 0 then (refilled, .refused)
    else
      let deficit := tokens - refilled.tokens
      (refilled, .sleeps (max (deficit / refilled.effectiveRefillRate r.sleep) (1 / 100)))

end RateLimiter

/-! ## Callers -/

/-- Where an `acquire` is. -/
inductive Acquiring where
  | sleeping (wakes : ℚ)
  | granted
  | refused
  deriving DecidableEq

/-- One `acquire(tokens)`. -/
structure Caller where
  tokens : Int
  state : Acquiring
  deriving DecidableEq

/-- A limiter with its callers, the last reading of the clock, and the grants made so far. -/
structure Bucket where
  limiter : RateLimiter
  clock : ℚ
  callers : List Caller := []
  grants : List (ℚ × Int) := []

/-- What happens next: a call of `acquire`, caller `i` looking again, or a penalty. -/
inductive LimiterOp where
  | acquire (tokens : Int) (r : ClockReadings)
  | recheck (i : Nat) (r : ClockReadings)
  | penalize (factor durationSeconds now : ℚ)

def Look.next (r : ClockReadings) : Look → Acquiring
  | .granted => .granted
  | .refused => .refused
  | .sleeps seconds => .sleeping (r.sleep + seconds)

def Bucket.look (b : Bucket) (tokens : Int) (r : ClockReadings) : Bucket × Acquiring :=
  let looked := b.limiter.look tokens r
  ({ b with
      limiter := looked.1
      clock := r.sleep
      grants := if looked.2 = .granted then (r.refill, tokens) :: b.grants else b.grants },
    looked.2.next r)

variable (b : Bucket)

def bucketStep : LimiterOp → Bucket
  | .acquire tokens r =>
    let looked := b.look tokens r
    { looked.1 with callers := b.callers ++ [⟨tokens, looked.2⟩] }
  | .recheck i r =>
    match b.callers[i]? with
    | some ⟨tokens, .sleeping _⟩ =>
      let looked := b.look tokens r
      { looked.1 with callers := b.callers.set i ⟨tokens, looked.2⟩ }
    | _ => b
  | .penalize factor durationSeconds now =>
    { b with limiter := (b.limiter.penalize factor durationSeconds now).1, clock := now }

/-- A provider's limiter, made at `now`. -/
def Bucket.made (rateLimitRpm : Option Int) (now : ℚ) : Bucket :=
  { limiter := .fromRpm rateLimitRpm now, clock := now }

/-- Who sleeps has slept enough at an instant. -/
def Acquiring.awakeBy (instant : ℚ) : Acquiring → Bool
  | .sleeping wakes => wakes ≤ instant
  | .granted | .refused => true

/-- The clock does not go back, and a caller looks again when its sleep is over. -/
def Timed : LimiterOp → Prop
  | .acquire _ r => r.after b.clock
  | .recheck i r =>
    r.after b.clock ∧ b.callers[i]?.all (fun caller => caller.state.awakeBy r.refill) = true
  | .penalize _ _ now => b.clock ≤ now

instance (b : Bucket) : ∀ op, Decidable (Timed b op)
  | .acquire _ r => inferInstanceAs (Decidable (r.after b.clock))
  | .recheck i r => inferInstanceAs (Decidable (r.after b.clock ∧
      b.callers[i]?.all (fun caller => caller.state.awakeBy r.refill) = true))
  | .penalize _ _ now => inferInstanceAs (Decidable (b.clock ≤ now))

/-! ## What is claimed -/

def granted (since till : ℚ) : ℚ :=
  ((b.grants.filter fun grant => since ≤ grant.1 ∧ grant.1 ≤ till).map
    fun grant => (grant.2 : ℚ)).sum

/-- Nobody but caller `i` looks at the bucket. -/
def Alone (i : Nat) : LimiterOp → Prop
  | .acquire _ _ => False
  | .recheck j _ => j = i
  | .penalize _ _ _ => True

def looks (ops : List LimiterOp) : Nat :=
  ops.countP fun op => match op with
    | .recheck _ _ => true
    | .acquire _ _ | .penalize _ _ _ => false

/-- The limiter keeps its bound: the level is within the capacity, no window of time is
granted more than the capacity and what flows in meanwhile, a refill credits no more than the
provider's own rate, and a caller nobody competes with is granted after some number of
looks. -/
structure WithinLimit (b : Bucket) : Prop where
  level : ∀ capacity ∈ b.limiter.capacity, 0 ≤ b.limiter.tokens ∧ b.limiter.tokens ≤ capacity
  window : ∀ capacity ∈ b.limiter.capacity, ∀ since till, since ≤ till →
    granted b since till ≤ capacity + b.limiter.refillRate * (till - since)
  credited : ∀ capacity ∈ b.limiter.capacity, ∀ r, b.limiter.lastRefill ≤ r.refill →
    (b.limiter.refill r).tokens ≤
      b.limiter.tokens + b.limiter.refillRate * (r.refill - b.limiter.lastRefill)
  served : ∀ i, ∃ n, ∀ ops, (∀ op ∈ ops, Alone i op) → Meets bucketStep Timed b ops →
    n ≤ looks ops → ∀ caller ∈ (run bucketStep b ops).callers[i]?, caller.state = .granted

/-- A request is for some of the capacity, and a penalty slows down. -/
def Fair : LimiterOp → Prop
  | .acquire tokens _ => 0 ≤ tokens ∧ ∀ capacity ∈ b.limiter.capacity, tokens ≤ capacity
  | .recheck _ _ => True
  | .penalize factor _ _ => factor ≤ 1

instance (b : Bucket) : ∀ op, Decidable (Fair b op)
  | .acquire tokens _ => inferInstanceAs
      (Decidable (0 ≤ tokens ∧ ∀ capacity ∈ b.limiter.capacity, tokens ≤ capacity))
  | .recheck _ _ => isTrue trivial
  | .penalize factor _ _ => inferInstanceAs (Decidable (factor ≤ 1))

/-! ## A refill -/

section
variable {limiter : RateLimiter} {capacity : Int}

structure Filling (limiter : RateLimiter) (capacity : Int) : Prop where
  hasCapacity : limiter.capacity = some capacity
  rate : 0 < limiter.refillRate
  atLeast : 1 / 20 ≤ limiter.penaltyFactor
  nonneg : 0 ≤ limiter.tokens
  le : limiter.tokens ≤ capacity

theorem Filling.effective_le (h : Filling limiter capacity) (hslow : limiter.penaltyFactor ≤ 1)
    (now : ℚ) : limiter.effectiveRefillRate now ≤ limiter.refillRate := by
  unfold RateLimiter.effectiveRefillRate
  split
  · exact mul_le_of_le_one_right h.rate.le hslow
  · exact le_refl _

theorem Filling.le_effective (h : Filling limiter capacity) (now : ℚ) :
    limiter.refillRate * (1 / 20) ≤ limiter.effectiveRefillRate now := by
  have hrate := h.rate
  unfold RateLimiter.effectiveRefillRate
  split
  · exact mul_le_mul_of_nonneg_left h.atLeast hrate.le
  · linarith

structure Refilled (limiter : RateLimiter) (capacity : Int) (r : ClockReadings)
    (refilled : RateLimiter) : Prop where
  filling : Filling refilled capacity
  rate : refilled.refillRate = limiter.refillRate
  lastRefill : refilled.lastRefill = r.refill
  factor : refilled.penaltyFactor = limiter.penaltyFactor
  ge : limiter.tokens ≤ refilled.tokens
  le : limiter.penaltyFactor ≤ 1 → refilled.tokens ≤
    limiter.tokens + limiter.refillRate * (r.refill - limiter.lastRefill)
  gains : refilled.tokens = capacity ∨
    limiter.tokens + limiter.refillRate * (1 / 20) * (r.refill - limiter.lastRefill) ≤
      refilled.tokens

variable {r : ClockReadings}

theorem Filling.refill (h : Filling limiter capacity) (hr : limiter.lastRefill ≤ r.refill) :
    Refilled limiter capacity r (limiter.refill r) := by
  have hle := h.le
  unfold RateLimiter.refill
  rw [h.hasCapacity]
  dsimp only
  by_cases helapsed : r.refill - limiter.lastRefill ≤ 0
  · have heq : r.refill = limiter.lastRefill := le_antisymm (by linarith) hr
    rw [if_pos helapsed]
    refine ⟨h, rfl, heq.symm, rfl, le_refl _, fun _ => ?_, Or.inr ?_⟩
    · rw [heq, sub_self, mul_zero, add_zero]
    · rw [heq, sub_self, mul_zero, add_zero]
  · rw [if_neg helapsed]
    replace helapsed : 0 < r.refill - limiter.lastRefill := not_le.mp helapsed
    have hup := fun hslow =>
      mul_le_mul_of_nonneg_left (h.effective_le hslow r.rate) helapsed.le
    have hlow := mul_le_mul_of_nonneg_left (h.le_effective r.rate) helapsed.le
    have hrate : 0 < limiter.refillRate * (1 / 20) := by linarith [h.rate]
    have hadded : 0 < (r.refill - limiter.lastRefill) * limiter.effectiveRefillRate r.rate :=
      lt_of_lt_of_le (mul_pos helapsed hrate) hlow
    rw [if_pos hadded]
    generalize hgain : (r.refill - limiter.lastRefill) * limiter.effectiveRefillRate r.rate =
      added at *
    have hnonneg := h.nonneg
    refine ⟨⟨rfl, h.rate, h.atLeast, ?_, min_le_left _ _⟩, rfl, rfl, rfl, ?_, fun hslow => ?_,
      ?_⟩
    · exact le_min (by linarith) (by linarith)
    · exact le_min hle (by linarith)
    · have hbase := hup hslow
      refine le_trans (min_le_right _ _) ?_
      linarith
    · rcases min_choice (capacity : ℚ) (limiter.tokens + added) with hmin | hmin
      · exact Or.inl hmin
      · refine Or.inr ?_
        dsimp only
        rw [hmin]
        linarith

inductive Looked (limiter : RateLimiter) (capacity : Int) (tokens : Int) (r : ClockReadings) :
    RateLimiter × Look → Prop
  | granted (refilled : RateLimiter) (h : Refilled limiter capacity r refilled)
      (henough : (tokens : ℚ) ≤ refilled.tokens) :
      Looked limiter capacity tokens r
        ({ refilled with tokens := refilled.tokens - tokens }, .granted)
  | sleeps (refilled : RateLimiter) (h : Refilled limiter capacity r refilled)
      (hshort : refilled.tokens < tokens) (seconds : ℚ) (hseconds : 1 / 100 ≤ seconds) :
      Looked limiter capacity tokens r (refilled, .sleeps seconds)

theorem Filling.look (h : Filling limiter capacity) (tokens : Int)
    (hr : limiter.lastRefill ≤ r.refill) :
    Looked limiter capacity tokens r (limiter.look tokens r) := by
  have hrefilled := h.refill hr
  unfold RateLimiter.look
  rw [h.hasCapacity]
  dsimp only
  by_cases henough : (tokens : ℚ) ≤ (limiter.refill r).tokens
  · rw [if_pos henough]
    exact .granted _ hrefilled henough
  · rw [if_neg henough, if_neg (not_le.mpr hrefilled.filling.rate)]
    exact .sleeps _ hrefilled (not_le.mp henough) _ (le_max_right _ _)

end

/-! ## The bound -/

def grantedSince (since : ℚ) : ℚ :=
  ((b.grants.filter fun grant => since ≤ grant.1).map fun grant => (grant.2 : ℚ)).sum

structure Bounded (b : Bucket) (capacity : Int) : Prop where
  filling : Filling b.limiter capacity
  slow : b.limiter.penaltyFactor ≤ 1
  clock : b.limiter.lastRefill ≤ b.clock
  past : ∀ grant ∈ b.grants, grant.1 ≤ b.limiter.lastRefill
  flow : ∀ since ≤ b.limiter.lastRefill,
    grantedSince b since + b.limiter.tokens ≤
      capacity + b.limiter.refillRate * (b.limiter.lastRefill - since)
  window : ∀ since till, since ≤ till →
    granted b since till ≤ capacity + b.limiter.refillRate * (till - since)
  requests : ∀ caller ∈ b.callers,
    0 ≤ caller.tokens ∧ caller.tokens ≤ capacity ∧ caller.state ≠ .refused

theorem granted_of_till {b : Bucket} {till : ℚ} (h : ∀ grant ∈ b.grants, grant.1 ≤ till)
    (since : ℚ) : granted b since till = grantedSince b since := by
  have hsame : (b.grants.filter fun grant => since ≤ grant.1 ∧ grant.1 ≤ till) =
      b.grants.filter fun grant => since ≤ grant.1 := by
    apply filter_congr
    intro grant hgrant
    simp [h grant hgrant]
  rw [granted, grantedSince, hsame]

variable {since : ℚ}

theorem grantedSince_of_past {b : Bucket} (h : ∀ grant ∈ b.grants, grant.1 < since)
    : grantedSince b since = 0 := by
  have hnone : (b.grants.filter fun grant => since ≤ grant.1) = [] := by
    rw [filter_eq_nil_iff]
    intro grant hgrant
    simp [h grant hgrant]
  rw [grantedSince, hnone]
  rfl

variable {tokens : Int}

theorem grantedSince_cons {b : Bucket} {at_ : ℚ} (h : since ≤ at_) :
    grantedSince { b with grants := (at_, tokens) :: b.grants } since =
      tokens + grantedSince b since := by
  simp [grantedSince, h]

theorem granted_cons {b : Bucket} {instant till : ℚ} (h : ¬ (since ≤ instant ∧ instant ≤ till)) :
    granted { b with grants := (instant, tokens) :: b.grants } since till =
      granted b since till := by
  rw [granted, granted, filter_cons_of_neg (by simpa using h)]

section
variable {b} {capacity : Int} {r : ClockReadings} {refilled : RateLimiter}

/-- What was granted since an instant and what is left after a refill are within what the
bucket held and took in. -/
theorem Bounded.flow_refilled (h : Bounded b capacity)
    (hrefilled : Refilled b.limiter capacity r refilled) (hsince : since ≤ r.refill) :
    grantedSince b since + refilled.tokens ≤
      capacity + b.limiter.refillRate * (r.refill - since) := by
  rcases le_or_gt since b.limiter.lastRefill with hold | hnew
  · have hflow := h.flow since hold
    have hle := hrefilled.le h.slow
    linarith
  · have hnone : grantedSince b since = 0 :=
      grantedSince_of_past fun grant hgrant => lt_of_le_of_lt (h.past grant hgrant) hnew
    have hlevel := hrefilled.filling.le
    have hinflow : 0 ≤ b.limiter.refillRate * (r.refill - since) :=
      mul_nonneg h.filling.rate.le (by linarith)
    linarith

/-- A bucket after a look that leaves the limiter `limiter`. -/
theorem Bounded.slept (h : Bounded b capacity) (hr : r.after b.clock)
    (hrefilled : Refilled b.limiter capacity r refilled) :
    Bounded { b with limiter := refilled, clock := r.sleep } capacity where
  filling := hrefilled.filling
  slow := by
    show refilled.penaltyFactor ≤ 1
    rw [hrefilled.factor]
    exact h.slow
  clock := by
    show refilled.lastRefill ≤ r.sleep
    rw [hrefilled.lastRefill]
    exact hr.2.1.trans hr.2.2
  past grant hgrant := by
    show grant.1 ≤ refilled.lastRefill
    rw [hrefilled.lastRefill]
    exact (h.past grant hgrant).trans (h.clock.trans hr.1)
  flow since hsince := by
    change since ≤ refilled.lastRefill at hsince
    show grantedSince b since + refilled.tokens ≤
      capacity + refilled.refillRate * (refilled.lastRefill - since)
    rw [hrefilled.rate, hrefilled.lastRefill]
    rw [hrefilled.lastRefill] at hsince
    exact h.flow_refilled hrefilled hsince
  window since till hwindow := by
    show granted b since till ≤ capacity + refilled.refillRate * (till - since)
    rw [hrefilled.rate]
    exact h.window since till hwindow
  requests := h.requests

theorem Bounded.granted (h : Bounded b capacity) (hr : r.after b.clock)
    (hrefilled : Refilled b.limiter capacity r refilled) (hnonneg : 0 ≤ tokens)
    (henough : (tokens : ℚ) ≤ refilled.tokens) :
    Bounded { b with
      limiter := { refilled with tokens := refilled.tokens - tokens }
      clock := r.sleep
      grants := (r.refill, tokens) :: b.grants } capacity := by
  have hslept := h.slept hr hrefilled
  have hcast : (0 : ℚ) ≤ tokens := by exact_mod_cast hnonneg
  have hlast : ∀ grant ∈ b.grants, grant.1 ≤ r.refill := fun grant hgrant =>
    (h.past grant hgrant).trans (h.clock.trans hr.1)
  constructor
  · have hfilling := hrefilled.filling
    exact ⟨hfilling.hasCapacity, hfilling.rate, hfilling.atLeast, sub_nonneg.mpr henough,
      (sub_le_self _ hcast).trans hfilling.le⟩
  · exact hslept.slow
  · exact hslept.clock
  · intro grant hgrant
    show grant.1 ≤ refilled.lastRefill
    rw [hrefilled.lastRefill]
    rcases mem_cons.mp hgrant with rfl | hold
    · exact le_refl _
    · exact hlast grant hold
  · intro since hsince
    change since ≤ refilled.lastRefill at hsince
    rw [hrefilled.lastRefill] at hsince
    have hflow := h.flow_refilled hrefilled hsince
    have hsum : grantedSince { b with grants := (r.refill, tokens) :: b.grants } since =
        tokens + grantedSince b since := grantedSince_cons hsince
    show grantedSince { b with grants := (r.refill, tokens) :: b.grants } since +
      (refilled.tokens - tokens) ≤ capacity + refilled.refillRate * (refilled.lastRefill - since)
    rw [hsum, hrefilled.rate, hrefilled.lastRefill]
    linarith
  · intro since till hwindow
    show StackOwl.Providers.granted { b with grants := (r.refill, tokens) :: b.grants } since till ≤
      capacity + refilled.refillRate * (till - since)
    rw [hrefilled.rate]
    by_cases hinside : since ≤ r.refill ∧ r.refill ≤ till
    · have hall : ∀ grant ∈ (r.refill, tokens) :: b.grants, grant.1 ≤ till := by
        intro grant hgrant
        rcases mem_cons.mp hgrant with rfl | hold
        · exact hinside.2
        · exact (hlast grant hold).trans hinside.2
      rw [granted_of_till hall, grantedSince_cons hinside.1]
      have hflow := h.flow_refilled hrefilled hinside.1
      have hinflow : b.limiter.refillRate * (r.refill - since) ≤
          b.limiter.refillRate * (till - since) :=
        mul_le_mul_of_nonneg_left (by linarith [hinside.2]) h.filling.rate.le
      linarith
    · rw [granted_cons hinside]
      exact h.window since till hwindow
  · exact h.requests

theorem Bounded.look (h : Bounded b capacity) (hr : r.after b.clock) (hnonneg : 0 ≤ tokens) :
    Bounded (b.look tokens r).1 capacity ∧ (b.look tokens r).2 ≠ .refused := by
  have hlook := h.filling.look tokens (h.clock.trans hr.1)
  unfold Bucket.look
  generalize b.limiter.look tokens r = looked at hlook
  cases hlook with
  | granted refilled hrefilled henough =>
    exact ⟨h.granted hr hrefilled hnonneg henough, Acquiring.noConfusion⟩
  | sleeps refilled hrefilled => exact ⟨h.slept hr hrefilled, Acquiring.noConfusion⟩

theorem Bounded.withCallers (h : Bounded b capacity) {callers : List Caller}
    (hcallers : ∀ caller ∈ callers,
      0 ≤ caller.tokens ∧ caller.tokens ≤ capacity ∧ caller.state ≠ .refused) :
    Bounded { b with callers := callers } capacity :=
  ⟨h.filling, h.slow, h.clock, h.past, h.flow, h.window, hcallers⟩

variable {limiter : RateLimiter}

theorem penalize_eq (h : Filling limiter capacity) (factor durationSeconds now : ℚ) :
    (limiter.penalize factor durationSeconds now).1 =
      { limiter with
        penaltyFactor := max (1 / 20) factor, penaltyUntil := now + durationSeconds } := by
  unfold RateLimiter.penalize
  split
  · rename_i hnone
    rw [h.hasCapacity] at hnone
    cases hnone
  · rfl

theorem Filling.penalize (h : Filling limiter capacity) (factor durationSeconds now : ℚ) :
    Filling (limiter.penalize factor durationSeconds now).1 capacity := by
  rw [penalize_eq h]
  exact ⟨h.hasCapacity, h.rate, le_max_left _ _, h.nonneg, h.le⟩

theorem Bounded.penalize (h : Bounded b capacity) {factor now : ℚ} (hfactor : factor ≤ 1)
    (hnow : b.clock ≤ now) (durationSeconds : ℚ) :
    Bounded (bucketStep b (.penalize factor durationSeconds now)) capacity := by
  have hfilling := h.filling.penalize factor durationSeconds now
  rw [bucketStep]
  rw [penalize_eq h.filling] at hfilling ⊢
  exact ⟨hfilling, max_le (by norm_num) hfactor, h.clock.trans hnow, h.past, h.flow, h.window,
    h.requests⟩

theorem Bounded.step (h : Bounded b capacity) {op : LimiterOp} (htimed : Timed b op)
    (hfair : Fair b op) : Bounded (bucketStep b op) capacity := by
  cases op with
  | acquire tokens r =>
    have hle : tokens ≤ capacity := hfair.2 capacity h.filling.hasCapacity
    have hlook := h.look htimed hfair.1
    refine hlook.1.withCallers ?_
    intro caller hcaller
    rcases mem_snoc.mp hcaller with hold | rfl
    · exact h.requests caller hold
    · exact ⟨hfair.1, hle, hlook.2⟩
  | recheck i r =>
    rw [bucketStep]
    split
    · rename_i tokens wakes hcaller
      have hrequest := h.requests _ (mem_of_getElem? hcaller)
      have hlook := h.look htimed.1 hrequest.1
      refine hlook.1.withCallers ?_
      intro caller hmem
      rcases mem_or_eq_of_mem_set hmem with hold | rfl
      · exact h.requests caller hold
      · exact ⟨hrequest.1, hrequest.2.1, hlook.2⟩
    · exact h
  | penalize factor durationSeconds now => exact h.penalize hfair htimed durationSeconds

end

/-! ## A caller alone -/

section
variable {b} {capacity : Int} {i : Nat}

/-- A bucket that fills, at a clock that has not gone back. -/
structure Steady (b : Bucket) (capacity : Int) : Prop where
  filling : Filling b.limiter capacity
  clock : b.limiter.lastRefill ≤ b.clock

theorem Steady.penalize (h : Steady b capacity) {factor durationSeconds now : ℚ}
    (hnow : b.clock ≤ now) :
    Steady (bucketStep b (.penalize factor durationSeconds now)) capacity := by
  have hfilling := h.filling.penalize factor durationSeconds now
  have hlast : (b.limiter.penalize factor durationSeconds now).1.lastRefill =
      b.limiter.lastRefill := by
    rw [penalize_eq h.filling]
  refine ⟨hfilling, ?_⟩
  show (b.limiter.penalize factor durationSeconds now).1.lastRefill ≤ now
  rw [hlast]
  exact h.clock.trans hnow

/-- What a caller that sleeps until `wakes` gains with every look: a sleep is long enough for
some tokens to flow in, once the caller was the last to look before it. -/
def gainOf (b : Bucket) (wakes : ℚ) : ℚ :=
  b.limiter.tokens +
    if b.limiter.lastRefill + 1 / 100 ≤ wakes then b.limiter.refillRate * (1 / 2000) else 0

variable {wakes : ℚ}

theorem Steady.recheck (h : Steady b capacity)
    (hcaller : b.callers[i]? = some ⟨tokens, .sleeping wakes⟩) (hnonneg : 0 ≤ tokens)
    {r : ClockReadings} (hr : r.after b.clock) (hwakes : wakes ≤ r.refill) :
    Steady (bucketStep b (.recheck i r)) capacity ∧
      (bucketStep b (.recheck i r)).limiter.refillRate = b.limiter.refillRate ∧
      ((tokens ≤ capacity ∧ (bucketStep b (.recheck i r)).callers[i]? = some ⟨tokens, .granted⟩) ∨
        ∃ later, (bucketStep b (.recheck i r)).callers[i]? = some ⟨tokens, .sleeping later⟩ ∧
          (tokens ≤ capacity →
            gainOf b wakes + b.limiter.refillRate * (1 / 2000) ≤
              gainOf (bucketStep b (.recheck i r)) later)) := by
  have hlook := h.filling.look tokens (h.clock.trans hr.1)
  have hplace : i < b.callers.length := (List.getElem?_eq_some_iff.mp hcaller).1
  have hclock : r.refill ≤ r.sleep := hr.2.1.trans hr.2.2
  have hstep : bucketStep b (.recheck i r) =
      { (b.look tokens r).1 with
        callers := b.callers.set i ⟨tokens, (b.look tokens r).2⟩ } := by
    rw [bucketStep, hcaller]
  rw [hstep]
  unfold Bucket.look
  generalize b.limiter.look tokens r = looked at hlook
  cases hlook with
  | granted refilled hrefilled henough =>
    have hfilling := hrefilled.filling
    have hle := hfilling.le
    have hcast : (0 : ℚ) ≤ tokens := by exact_mod_cast hnonneg
    refine ⟨⟨⟨hfilling.hasCapacity, hfilling.rate, hfilling.atLeast, sub_nonneg.mpr henough,
      (sub_le_self _ hcast).trans hle⟩, ?_⟩, hrefilled.rate, Or.inl ⟨?_, ?_⟩⟩
    · show refilled.lastRefill ≤ r.sleep
      rw [hrefilled.lastRefill]
      exact hclock
    · exact_mod_cast henough.trans hle
    · exact List.getElem?_set_self hplace
  | sleeps refilled hrefilled hshort seconds hseconds =>
    have hlast := hrefilled.lastRefill
    refine ⟨⟨hrefilled.filling, ?_⟩, hrefilled.rate, Or.inr ⟨r.sleep + seconds, ?_, ?_⟩⟩
    · show refilled.lastRefill ≤ r.sleep
      rw [hlast]
      exact hclock
    · exact List.getElem?_set_self hplace
    · intro hfits
      have hfull : (tokens : ℚ) ≤ capacity := by exact_mod_cast hfits
      have hge := hrefilled.ge
      have hrate := h.filling.rate
      show gainOf b wakes + b.limiter.refillRate * (1 / 2000) ≤
        refilled.tokens + if refilled.lastRefill + 1 / 100 ≤ r.sleep + seconds then
          refilled.refillRate * (1 / 2000) else 0
      rw [hlast, if_pos (by linarith), hrefilled.rate, gainOf]
      split
      · -- the sleep was the caller's own, so something has flowed in
        rename_i hown
        have hgain : b.limiter.tokens +
            b.limiter.refillRate * (1 / 20) * (r.refill - b.limiter.lastRefill) ≤
              refilled.tokens := by
          rcases hrefilled.gains with hcap | hgain
          · linarith
          · exact hgain
        have hflow : b.limiter.refillRate * (1 / 20) * (1 / 100) ≤
            b.limiter.refillRate * (1 / 20) * (r.refill - b.limiter.lastRefill) :=
          mul_le_mul_of_nonneg_left (by linarith) (by linarith)
        linarith
      · linarith

/-- Nothing a caller alone sees but its own looks moves it. -/
theorem callers_alone {op : LimiterOp} (halone : Alone i op)
    (hidle : ∀ caller ∈ b.callers[i]?, ∀ wakes, caller.state ≠ .sleeping wakes) :
    (bucketStep b op).callers = b.callers := by
  cases op with
  | acquire tokens r => cases halone
  | recheck j r =>
    obtain rfl : j = i := halone
    rw [bucketStep]
    split
    · rename_i tokens wakes hcaller
      exact absurd rfl (hidle _ hcaller wakes)
    · rfl
  | penalize factor durationSeconds now => rfl

theorem granted_alone {ops : List LimiterOp} (halone : ∀ op ∈ ops, Alone i op)
    (hidle : ∀ caller ∈ b.callers[i]?, caller.state = .granted) :
    ∀ caller ∈ (run bucketStep b ops).callers[i]?, caller.state = .granted := by
  induction ops generalizing b with
  | nil => exact hidle
  | cons op ops ih =>
    have hsame : (bucketStep b op).callers = b.callers :=
      callers_alone (halone op mem_cons_self) fun caller hcaller wakes hsleeps => by
        rw [hidle caller hcaller] at hsleeps
        cases hsleeps
    refine ih (fun later hlater => halone later (mem_cons_of_mem _ hlater)) ?_
    rw [hsame]
    exact hidle

theorem gainOf_le (h : Steady b capacity) (wakes : ℚ) :
    gainOf b wakes ≤ capacity + b.limiter.refillRate * (1 / 2000) := by
  have hle := h.filling.le
  have hrate := h.filling.rate
  unfold gainOf
  split
  · linarith
  · linarith

theorem gainOf_nonneg (h : Steady b capacity) (wakes : ℚ) : 0 ≤ gainOf b wakes := by
  have hnonneg := h.filling.nonneg
  have hrate := h.filling.rate
  unfold gainOf
  split
  · linarith
  · linarith

theorem Steady.alone (h : Steady b capacity)
    (hcaller : b.callers[i]? = some ⟨tokens, .sleeping wakes⟩) (hnonneg : 0 ≤ tokens)
    (hfits : tokens ≤ capacity) {ops : List LimiterOp} (halone : ∀ op ∈ ops, Alone i op)
    (htimed : Meets bucketStep Timed b ops) :
    (∀ caller ∈ (run bucketStep b ops).callers[i]?, caller.state = .granted) ∨
      gainOf b wakes + looks ops * (b.limiter.refillRate * (1 / 2000)) ≤
        capacity + b.limiter.refillRate * (1 / 2000) := by
  induction ops generalizing b wakes with
  | nil =>
    refine Or.inr ?_
    have hle := gainOf_le h wakes
    simpa [looks] using hle
  | cons op ops ih =>
    have hrest := fun later hlater => halone later (mem_cons_of_mem op hlater)
    cases op with
    | acquire tokens r => exact absurd (halone _ mem_cons_self) id
    | penalize factor durationSeconds now =>
      have hpaced := penalize_eq h.filling factor durationSeconds now
      have hgain : gainOf (bucketStep b (.penalize factor durationSeconds now)) wakes =
          gainOf b wakes := by
        unfold gainOf
        rw [bucketStep, hpaced]
      have hrate : (bucketStep b (.penalize factor durationSeconds now)).limiter.refillRate =
          b.limiter.refillRate := by
        rw [bucketStep, hpaced]
      have hlater := ih (h.penalize htimed.1) hcaller hrest htimed.2
      rw [hgain, hrate] at hlater
      exact hlater
    | recheck j r =>
      obtain rfl : j = i := halone _ mem_cons_self
      have hwakes : wakes ≤ r.refill := by
        have hawake := htimed.1.2
        rw [hcaller] at hawake
        exact of_decide_eq_true hawake
      obtain ⟨hsteady, hrate, hgranted | ⟨later, hsleeps, hgain⟩⟩ :=
        h.recheck hcaller hnonneg htimed.1.1 hwakes
      · refine Or.inl (@granted_alone (bucketStep b (.recheck j r)) j ops hrest ?_)
        intro caller hmem
        rw [hgranted.2] at hmem
        rw [← Option.some.inj hmem]
      · have hlater := ih hsteady hsleeps hrest htimed.2
        rw [hrate] at hlater
        refine hlater.imp id fun hbound => ?_
        have hgained := hgain hfits
        have hlooks : looks (.recheck j r :: ops) = looks ops + 1 := by
          simp [looks]
        rw [hlooks]
        push_cast
        linarith

/-- **A caller nobody competes with is granted** after finitely many looks. -/
theorem Steady.served (h : Steady b capacity)
    (hrequest : ∀ caller ∈ b.callers[i]?,
      0 ≤ caller.tokens ∧ caller.tokens ≤ capacity ∧ caller.state ≠ .refused) :
    ∃ n, ∀ ops, (∀ op ∈ ops, Alone i op) → Meets bucketStep Timed b ops → n ≤ looks ops →
      ∀ caller ∈ (run bucketStep b ops).callers[i]?, caller.state = .granted := by
  have hrate : 0 < b.limiter.refillRate * (1 / 2000) := by linarith [h.filling.rate]
  obtain ⟨n, hn⟩ := exists_nat_gt
    ((capacity + b.limiter.refillRate * (1 / 2000)) / (b.limiter.refillRate * (1 / 2000)))
  rw [div_lt_iff₀ hrate] at hn
  refine ⟨n, fun ops halone htimed hlooks => ?_⟩
  cases hcaller : b.callers[i]? with
  | none =>
    refine granted_alone halone ?_
    rw [hcaller]
    intro caller hmem
    cases hmem
  | some caller =>
    obtain ⟨tokens, state⟩ := caller
    obtain ⟨hnonneg, hfits, hstate⟩ := hrequest _ hcaller
    cases state with
    | refused => exact absurd rfl hstate
    | granted =>
      refine granted_alone halone ?_
      rw [hcaller]
      intro caller hmem
      rw [← Option.some.inj hmem]
    | sleeping wakes =>
      rcases h.alone hcaller hnonneg hfits halone htimed with hgranted | hbound
      · exact hgranted
      · have hmany : (n : ℚ) * (b.limiter.refillRate * (1 / 2000)) ≤
            looks ops * (b.limiter.refillRate * (1 / 2000)) :=
          mul_le_mul_of_nonneg_right (by exact_mod_cast hlooks) hrate.le
        have hstart := gainOf_nonneg h wakes
        linarith

end

/-! ## Runs -/

/-- Without a limit everyone is granted at once. -/
structure Unlimited (b : Bucket) : Prop where
  noCapacity : b.limiter.capacity = none
  granted : ∀ caller ∈ b.callers, caller.state = .granted

theorem Unlimited.step {b : Bucket} (h : Unlimited b) (op : LimiterOp) :
    Unlimited (bucketStep b op) := by
  have hlook : ∀ tokens r, b.limiter.look tokens r = (b.limiter, .granted) := by
    intro tokens r
    rw [RateLimiter.look, h.noCapacity]
  cases op with
  | acquire tokens r =>
    refine ⟨?_, ?_⟩
    · show (b.limiter.look tokens r).1.capacity = none
      rw [hlook]
      exact h.noCapacity
    · intro caller hcaller
      rcases mem_snoc.mp hcaller with hold | rfl
      · exact h.granted caller hold
      · show (b.limiter.look tokens r).2.next r = .granted
        rw [hlook]
        rfl
  | recheck i r =>
    rw [bucketStep]
    split
    · rename_i tokens wakes hcaller
      cases h.granted _ (mem_of_getElem? hcaller)
    · exact h
  | penalize factor durationSeconds now =>
    have hsame : b.limiter.penalize factor durationSeconds now = (b.limiter, false) := by
      unfold RateLimiter.penalize
      split
      · rfl
      · rename_i hsome
        rw [h.noCapacity] at hsome
        cases hsome
    rw [bucketStep, hsame]
    exact ⟨h.noCapacity, h.granted⟩

theorem Unlimited.within {b : Bucket} (h : Unlimited b) : WithinLimit b := by
  have hnone : ∀ capacity, capacity ∉ b.limiter.capacity := by
    rw [h.noCapacity]
    exact nofun
  refine ⟨fun c hc => absurd hc (hnone c), fun c hc => absurd hc (hnone c),
    fun c hc => absurd hc (hnone c), fun i => ⟨0, fun ops halone _ _ => ?_⟩⟩
  exact granted_alone halone fun caller hcaller =>
    h.granted caller (mem_of_getElem? hcaller)

theorem Bounded.within {b : Bucket} {capacity : Int} (h : Bounded b capacity) :
    WithinLimit b := by
  have hcapacity : ∀ c ∈ b.limiter.capacity, c = capacity := by
    intro c hc
    rw [h.filling.hasCapacity] at hc
    exact (Option.some.inj hc).symm
  constructor
  · intro c hc
    rw [hcapacity c hc]
    exact ⟨h.filling.nonneg, h.filling.le⟩
  · intro c hc since till hwindow
    rw [hcapacity c hc]
    exact h.window since till hwindow
  · intro c hc r hr
    exact (h.filling.refill hr).le h.slow
  · intro i
    exact Steady.served ⟨h.filling, h.clock⟩ fun caller hcaller =>
      h.requests caller (mem_of_getElem? hcaller)

theorem bounded_made {rpm : Int} (h : 0 < rpm) (now : ℚ) :
    Bounded (.made (some rpm) now) rpm := by
  have hlimiter : RateLimiter.fromRpm (some rpm) now = .new (some rpm) (some (rpm / 60)) now := by
    rw [RateLimiter.fromRpm, if_neg (not_le.mpr h)]
  have hpos : (0 : ℚ) < rpm := by exact_mod_cast h
  rw [Bucket.made, hlimiter]
  refine ⟨⟨rfl, ?_, ?_, hpos.le, le_refl _⟩, le_refl _, le_refl _, ?_, ?_, ?_, ?_⟩
  · show (0 : ℚ) < rpm / 60
    linarith
  · show (1 / 20 : ℚ) ≤ 1
    norm_num
  · intro grant hgrant
    cases hgrant
  · intro since hsince
    have hinflow : 0 ≤ (rpm : ℚ) / 60 * (now - since) :=
      mul_nonneg (by linarith) (sub_nonneg.mpr hsince)
    show (0 : ℚ) + rpm ≤ rpm + rpm / 60 * (now - since)
    linarith
  · intro since till hwindow
    have hinflow : 0 ≤ (rpm : ℚ) / 60 * (till - since) :=
      mul_nonneg (by linarith) (sub_nonneg.mpr hwindow)
    show (0 : ℚ) ≤ rpm + rpm / 60 * (till - since)
    linarith
  · intro caller hcaller
    cases hcaller

/-- **The limiter keeps its bound** in every run in which each request is for some of the
capacity and each penalty slows down. -/
theorem rateLimiter_bound (rateLimitRpm : Option Int) (now : ℚ) (ops : List LimiterOp)
    (h : Meets bucketStep (fun b op => Timed b op ∧ Fair b op) (.made rateLimitRpm now) ops) :
    Along bucketStep WithinLimit (.made rateLimitRpm now) ops := by
  have hunlimited : RateLimiter.fromRpm rateLimitRpm now = .new none none now →
      Along bucketStep WithinLimit (.made rateLimitRpm now) ops := by
    intro hnone
    refine (along_of_inv (I := Unlimited) (fun _ op hb => hb.step op) ?_ ops).mono
      fun _ hb => hb.within
    rw [Bucket.made, hnone]
    exact ⟨rfl, nofun⟩
  cases rateLimitRpm with
  | none => exact hunlimited rfl
  | some rpm =>
    by_cases hrpm : rpm ≤ 0
    · exact hunlimited (if_pos hrpm)
    · exact (along_of_meets (I := fun b => Bounded b rpm)
        (fun _ _ hb hop => hb.step hop.1 hop.2) (bounded_made (not_le.mp hrpm) now) h).mono
        fun _ hb => hb.within

/-- A caller waits out its sleep under a penalty. -/
def pacedRun : List LimiterOp :=
  [.acquire 60 ⟨0, 0, 0⟩, .acquire 1 ⟨0, 0, 0⟩, .penalize (3 / 4) 60 0, .recheck 1 ⟨1, 1, 1⟩]

theorem rateLimiter_bound_pacedRun :
    Along bucketStep WithinLimit (.made (some 60) 0) pacedRun := by
  refine rateLimiter_bound (some 60) 0 pacedRun ?_
  decide +kernel

/-- A caller that asks for more than the capacity can be made to look as often as one likes. -/
theorem oversized_sleeps {b : Bucket} {capacity : Int} {i : Nat} (h : Steady b capacity)
    (hover : capacity < tokens) {wakes : ℚ}
    (hcaller : b.callers[i]? = some ⟨tokens, .sleeping wakes⟩) (hnonneg : 0 ≤ tokens) (n : Nat) :
    ∃ ops, (∀ op ∈ ops, Alone i op) ∧ Meets bucketStep Timed b ops ∧ looks ops = n ∧
      ∃ later, (run bucketStep b ops).callers[i]? = some ⟨tokens, .sleeping later⟩ := by
  induction n generalizing b wakes with
  | zero => exact ⟨[], fun op hop => absurd hop not_mem_nil, trivial, rfl, wakes, hcaller⟩
  | succ n ih =>
    have hr : ClockReadings.after b.clock
        ⟨max b.clock wakes, max b.clock wakes, max b.clock wakes⟩ :=
      ⟨le_max_left _ _, le_refl _, le_refl _⟩
    obtain ⟨hsteady, -, hgranted | ⟨later, hsleeps, -⟩⟩ :=
      h.recheck hcaller hnonneg hr (le_max_right _ _)
    · exact absurd hgranted.1 (not_le.mpr hover)
    · obtain ⟨ops, halone, htimed, hlooks, hend⟩ := ih hsteady hsleeps
      refine ⟨.recheck i _ :: ops, ?_, ⟨⟨hr, ?_⟩, htimed⟩, ?_, hend⟩
      · intro op hop
        rcases mem_cons.mp hop with rfl | hrest
        · rfl
        · exact halone op hrest
      · rw [hcaller]
        exact decide_eq_true (le_max_right _ _)
      · rw [← hlooks]
        simp [looks]

/-- A request for more than the capacity is looked after without end. -/
theorem oversized_never_granted :
    ¬ Along bucketStep WithinLimit (.made (some 60) 0) [.acquire 61 ⟨0, 0, 0⟩] := by
  intro h
  have hsteady : Steady (bucketStep (.made (some 60) 0) (.acquire 61 ⟨0, 0, 0⟩)) 60 :=
    ⟨⟨by decide +kernel, by decide +kernel, by decide +kernel, by decide +kernel,
      by decide +kernel⟩, by decide +kernel⟩
  have hcaller : (bucketStep (.made (some 60) 0) (.acquire 61 ⟨0, 0, 0⟩)).callers[0]? =
      some ⟨61, .sleeping 1⟩ := by decide +kernel
  obtain ⟨n, hserved⟩ := h.last.served 0
  obtain ⟨ops, halone, htimed, hlooks, later, hsleeps⟩ :=
    oversized_sleeps hsteady (by decide) hcaller (by decide) n
  cases hserved ops halone htimed hlooks.ge _ hsleeps

end StackOwl.Providers
