import Mathlib.Data.List.Basic
import Mathlib.Logic.Function.Basic
import StackOwl.Lib.Run
import StackOwl.Providers.CircuitBreaker

/-!
# Rounds under shared circuit breakers

`resilient_round` (`providers/_resilient_round.py`).  A round passes the gate of its
breaker, waits for the limiter, runs, and records its outcome; a fault by rate limit sets
a cooldown as well.  What runs between two awaits is one step: the gate, the end of the
wait, and all that follows the end of `do_round`.

Any number of rounds share any number of breakers.  Beside each breaker stands what it
does not keep itself and nothing in it reads: how many half-open periods it has had, the
reading the last one began at, and when the cooldown that `open_for` set ends.

Inputs: the outcome of each round, what `is_provider_fault` makes of it, and every clock
reading.

## Main results

* `moved_by_probe_only` — where late outcomes reach no breaker that has left CLOSED, there
  is one probe, it alone closes the breaker, cooldowns last as set, and a breaker that
  refuses comes to admit.
* `late_success_closes` — an outcome from before the outage closes a HALF_OPEN breaker.
* `wedged_refuses` — a flag that no round clears refuses every caller, however late.
-/

namespace StackOwl.Providers

open Lib Option Function Bool

/-! ## Outcomes -/

inductive FailureCause where
  | notAFault
  | auth
  | rateLimit
  | server5xx
  | transport
  | billing
  | modelNotFound
  | payloadTooLarge
  | timeout
  | overloaded
  | badRequest
  deriving DecidableEq

inductive RecoveryAction where
  | none
  | retry
  | backoff
  | rotateCredential
  | compress
  | fallbackModel
  | abort
  deriving DecidableEq

def RECOVERY_FOR_CAUSE : FailureCause → RecoveryAction
  | .notAFault => .none
  | .transport => .retry
  | .server5xx => .retry
  | .timeout => .retry
  | .rateLimit => .backoff
  | .overloaded => .backoff
  | .billing => .rotateCredential
  | .payloadTooLarge => .compress
  | .modelNotFound => .fallbackModel
  | .badRequest => .abort
  | .auth => .abort

/-- Membership of `_BREAKER_FAULTS`. -/
def breakerFault (cause : FailureCause) : Bool :=
  RECOVERY_FOR_CAUSE cause == .retry || RECOVERY_FOR_CAUSE cause == .backoff

/-- An exception of a round: its cause, what `is_provider_fault` answers for it, and the
finite `Retry-After` of its response. -/
structure Raised where
  cause : FailureCause
  providerFault : Bool := breakerFault cause
  retryAfter : Option ℚ := none

/-- How `do_round` ends; a cancelled round raises what is no fault. -/
inductive RoundResult where
  | returned
  | raised (exc : Raised)

/-- Where a round is: waiting for the limiter, running, or over. -/
inductive Phase where
  | acquiring
  | running
  | over
  deriving DecidableEq

/-- A round the gate let through.  `period` counts its breaker's half-open periods up to
its admission. -/
structure Round where
  breaker : Nat
  limiter : Bool
  cooldownHours : Option Duration
  admittedProbe : Bool
  period : Nat
  phase : Phase
  deriving DecidableEq

def Duration.ofHours : Duration → Duration
  | .finite hours => .finite (hours * 3600)
  | .nonFinite => .nonFinite

variable (r : Round)

/-- The cooldown a fault by rate limit asks for. -/
def Round.cooldownSeconds (exc : Raised) : Option Duration :=
  if exc.cause = .rateLimit ∧ r.limiter = true then
    match exc.retryAfter with
    | some seconds => some (.finite seconds)
    | none => r.cooldownHours.map Duration.ofHours
  else none

/-- The clock readings of the end of a round: `record` takes two, `open_for` one. -/
structure Readings where
  promoted : ℚ
  recorded : ℚ
  cooled : ℚ

def Round.records (r : Round) (result : RoundResult) (at' : Readings) (b : CircuitBreaker) :
    CircuitBreaker :=
  match result with
  | .returned => b.record true at'.promoted at'.recorded
  | .raised exc =>
    let b := if exc.providerFault then b.record false at'.promoted at'.recorded else b
    match r.cooldownSeconds exc with
    | some seconds => b.openFor seconds at'.cooled
    | none => b

variable (result : RoundResult) (at' : Readings)

/-- All that follows the end of `do_round`. -/
def Round.settle (b : CircuitBreaker) :
    CircuitBreaker :=
  if r.admittedProbe then (r.records result at' b).clearProbe else r.records result at' b

/-! ## Breakers with what is kept beside them -/

/-- A breaker, its half-open periods so far, the reading that began the last of them, and
when the cooldown that stands ends. -/
structure Site where
  breaker : CircuitBreaker
  halfOpens : Nat := 0
  promotedAt : Option ℚ := none
  cooldownEnd : Option ℚ := none

variable (s : Site)

/-- A reading of the clock begins a half-open period if it promotes the breaker. -/
def Site.reads (now : ℚ) : Site :=
  if s.breaker.promotes now then
    { s with halfOpens := s.halfOpens + 1, promotedAt := some now }
  else s

/-- The round is the probe admitted in the current half-open period. -/
def Round.isProbeOf : Bool :=
  r.admittedProbe && decide (r.period = s.halfOpens) && decide (s.breaker.state = .halfOpen)

def Round.cooldownSet : Option ℚ :=
  match result with
  | .returned => none
  | .raised exc => (r.cooldownSeconds exc).map fun seconds => at'.cooled + seconds.cooldown

/-- The cooldown that stands behind the end of a round.  One that stood is not the round's
to move, unless it is the probe and its outcome was recorded. -/
def Round.cooldownLeft :
    Option ℚ :=
  match s.cooldownEnd with
  | none => r.cooldownSet result at'
  | some e =>
    if r.isProbeOf s then
      if (r.records result at' s.breaker).state = .halfOpen then some e
      else r.cooldownSet result at'
    else some e

def Site.settled (r : Round) (result : RoundResult) (at' : Readings) : Site :=
  let read :=
    match result with
    | .returned => s.reads at'.promoted
    | .raised exc => if exc.providerFault then s.reads at'.promoted else s
  { read with
    breaker := r.settle result at' s.breaker
    cooldownEnd := r.cooldownLeft result at' s }

/-! ## Runs -/

/-- The breakers and the rounds let through so far. -/
structure RoundWorld where
  sites : Nat → Site
  rounds : List Round := []

/-- One thing that can happen next. -/
inductive RoundOp where
  /-- A caller comes to the gate. -/
  | enter (breaker : Nat) (limiter : Bool) (cooldownHours : Option Duration) (now : ℚ)
  /-- The limiter lets the round through, or fails open. -/
  | acquired (i : Nat)
  /-- The limiter refuses, or the wait for it is cancelled. -/
  | refused (i : Nat)
  /-- `do_round` ends. -/
  | finish (i : Nat) (result : RoundResult) (at' : Readings)
  | openFor (breaker : Nat) (seconds : Duration) (now : ℚ)
  /-- `state` is read. -/
  | read (breaker : Nat) (now : ℚ)

namespace RoundWorld

def setSite (w : RoundWorld) (b : Nat) (s : Site) : RoundWorld :=
  { w with sites := update w.sites b s }

def setPhase (w : RoundWorld) (i : Nat) (phase : Phase) : RoundWorld :=
  { w with rounds := w.rounds.modify i fun r => { r with phase } }

/-- `resilient_round` up to its first await. -/
def enter (w : RoundWorld) (b : Nat) (limiter : Bool) (cooldownHours : Option Duration)
    (now : ℚ) : RoundWorld :=
  let s := w.sites b
  let after : Site := { s.reads now with breaker := (s.breaker.gate now).1 }
  let round : Round :=
    { breaker := b, limiter, cooldownHours
      admittedProbe := decide ((s.breaker.gate now).2 = .probe)
      period := after.halfOpens
      phase := if limiter then .acquiring else .running }
  match (s.breaker.gate now).2 with
  | .refused => w.setSite b after
  | _ => { w.setSite b after with rounds := w.rounds ++ [round] }

end RoundWorld

def roundStep (w : RoundWorld) : RoundOp → RoundWorld
  | .enter b limiter cooldownHours now => w.enter b limiter cooldownHours now
  | .acquired i =>
    match w.rounds[i]? with
    | some r => if r.phase = .acquiring then w.setPhase i .running else w
    | none => w
  | .refused i =>
    match w.rounds[i]? with
    | some r => if r.phase = .acquiring then w.setPhase i .over else w
    | none => w
  | .finish i result at' =>
    match w.rounds[i]? with
    | some r =>
      if r.phase = .running then
        (w.setSite r.breaker ((w.sites r.breaker).settled r result at')).setPhase i .over
      else w
    | none => w
  | .openFor b seconds now =>
    let s := w.sites b
    w.setSite b { s with
      breaker := s.breaker.openFor seconds now
      cooldownEnd := some (now + seconds.cooldown) }
  | .read b now =>
    let s := w.sites b
    w.setSite b { s.reads now with breaker := s.breaker.promote now }

/-! ## What is claimed of a run -/

/-- The round was admitted as the probe of the breaker and is not over. -/
def Round.Probing (b : Nat) : Prop :=
  r.admittedProbe = true ∧ r.breaker = b ∧ r.phase ≠ .over

instance (r : Round) (b : Nat) : Decidable (r.Probing b) :=
  inferInstanceAs (Decidable (_ ∧ _))

/-- At most one probe of the breaker is unfinished. -/
def OneProbe (w : RoundWorld) (b : Nat) : Prop :=
  ∀ (i j : Nat) (r r' : Round), w.rounds[i]? = some r → w.rounds[j]? = some r' →
    r.Probing b → r'.Probing b → i = j

/-- A cooldown that stands ends when it was set to end: until then the breaker is OPEN, and
it was found HALF_OPEN by a reading from then on. -/
def Cooled : Prop :=
  ∀ e, s.cooldownEnd = some e →
    s.breaker.state = .opened ∧ s.breaker.windowEnd = some e ∨
      s.breaker.state = .halfOpen ∧ ∃ now, s.promotedAt = some now ∧ e ≤ now

/-- An OPEN breaker admits a probe from some reading on.  Any breaker lets somebody through
from some reading on, now or, however it ends, behind the end of its probe. -/
structure Heals (w : RoundWorld) (b : Nat) : Prop where
  ofOpened : (w.sites b).breaker.state = .opened → (w.sites b).breaker.Recovers (· = .probe)
  ofProbe : (w.sites b).breaker.Recovers (· ≠ .refused) ∨
    ∃ (i : Nat) (r : Round), w.rounds[i]? = some r ∧ r.Probing b ∧
      ∀ result at', (r.settle result at' (w.sites b).breaker).Recovers (· ≠ .refused)

structure Guarded (w : RoundWorld) (b : Nat) : Prop where
  oneProbe : (w.sites b).breaker.state = .halfOpen → OneProbe w b
  cooled : Cooled (w.sites b)
  heals : Heals w b

/-- A step that closes a breaker is the success of the probe admitted in its current
half-open period. -/
def ClosesByProbe (w : RoundWorld) (op : RoundOp) : Prop :=
  ∀ b, (w.sites b).breaker.state ≠ .closed →
    ((roundStep w op).sites b).breaker.state = .closed →
    ∃ (i : Nat) (r : Round) (at' : Readings), op = .finish i .returned at' ∧
      w.rounds[i]? = some r ∧ r.breaker = b ∧ r.isProbeOf (w.sites b) = true

/-- An outcome of a round that is not the current probe of its breaker changes nothing there
that matters: a success does not find it HALF_OPEN; and while a cooldown stands a fault
neither finds it HALF_OPEN nor reaches the threshold, and a cooldown ends with it. -/
def Harmless (r : Round) (result : RoundResult) (at' : Readings) : Prop :=
  match result with
  | .returned => (s.breaker.promote at'.promoted).state ≠ .halfOpen
  | .raised exc => ∀ e ∈ s.cooldownEnd,
      (exc.providerFault = true → (s.breaker.promote at'.promoted).state ≠ .halfOpen ∧
        (s.breaker.promote at'.promoted).tripsAt at'.recorded = false) ∧
      ∀ seconds ∈ r.cooldownSeconds exc, at'.cooled + seconds.cooldown = e

instance (s : Site) (r : Round) (at' : Readings) : ∀ result, Decidable (Harmless s r result at')
  | .returned => inferInstanceAs (Decidable (_ ≠ _))
  | .raised exc => inferInstanceAs (Decidable (∀ e ∈ s.cooldownEnd,
      (_ → _) ∧ ∀ seconds ∈ r.cooldownSeconds exc, _))

/-- No late outcome disturbs a breaker: a caller meets a free HALF_OPEN breaker only when no
earlier probe is unfinished, the limiter lets the current probe through, and an outcome that
is not the current probe's is harmless. -/
def Undisturbed (w : RoundWorld) : RoundOp → Prop
  | .enter b _ _ now =>
    ((w.sites b).breaker.promote now).state = .halfOpen →
      (w.sites b).breaker.probeInFlight = false → ∀ r ∈ w.rounds, ¬ r.Probing b
  | .refused i => ∀ r ∈ w.rounds[i]?, r.phase = .acquiring →
      r.isProbeOf (w.sites r.breaker) = false
  | .finish i result at' => ∀ r ∈ w.rounds[i]?, r.phase = .running →
      r.isProbeOf (w.sites r.breaker) = false → Harmless (w.sites r.breaker) r result at'
  | .acquired _ | .openFor .. | .read .. => True

instance (w : RoundWorld) : ∀ op, Decidable (Undisturbed w op)
  | .enter .. => inferInstanceAs (Decidable (_ → _ → ∀ r ∈ w.rounds, _))
  | .refused i => inferInstanceAs (Decidable (∀ r ∈ w.rounds[i]?, _ → _))
  | .finish i _ _ => inferInstanceAs (Decidable (∀ r ∈ w.rounds[i]?, _ → _ → Harmless _ _ _ _))
  | .acquired _ | .openFor .. | .read .. => isTrue trivial

/-! ## The invariant -/

section
variable {w : RoundWorld} {b : Nat}

/-- A breaker and the rounds it let through.  A set flag has an owner, the unfinished probe
of the current half-open period. -/
structure SiteInv (s : Site) (rounds : List Round) (b : Nat) : Prop where
  since : s.breaker.state = .opened → s.breaker.openedAt.isSome
  oneProbe : ∀ (i j : Nat) (r r' : Round), rounds[i]? = some r → rounds[j]? = some r' →
    r.Probing b → r'.Probing b → i = j
  periods : ∀ (i : Nat) (r : Round), rounds[i]? = some r → r.breaker = b → r.period ≤ s.halfOpens
  owned : s.breaker.probeInFlight = true → s.breaker.state = .halfOpen ∧
    ∃ (i : Nat) (r : Round), rounds[i]? = some r ∧ r.Probing b ∧ r.period = s.halfOpens
  cooled : Cooled s

variable {r}

theorem settle_flag (hr : r.admittedProbe = true) (result : RoundResult) (at' : Readings)
    (c : CircuitBreaker) : (r.settle result at' c).probeInFlight = false := by
  unfold Round.settle
  rw [if_pos hr]
  rfl

variable {c : CircuitBreaker}

/-- The end of a round leaves an OPEN breaker its instant. -/
theorem settle_since (r : Round) (result : RoundResult) (at' : Readings)
    (hc : c.state = .opened → c.openedAt.isSome) :
    (r.settle result at' c).state = .opened → (r.settle result at' c).openedAt.isSome := by
  have hrecords : (r.records result at' c).state = .opened →
      (r.records result at' c).openedAt.isSome := by
    cases result with
    | returned => exact c.record_since hc true _ _
    | raised exc =>
      simp only [Round.records]
      split
      · exact fun _ => rfl
      · split
        · exact c.record_since hc false _ _
        · exact hc
  unfold Round.settle
  split
  · exact hrecords
  · exact hrecords

theorem SiteInv.guarded (h : SiteInv (w.sites b) w.rounds b) : Guarded w b where
  oneProbe _ := h.oneProbe
  cooled := h.cooled
  heals := by
    constructor
    · intro hopened
      refine CircuitBreaker.recovers_of_opened _ hopened (h.since hopened) ?_
      refine eq_false_iff.mpr fun hflag => ?_
      rw [(h.owned hflag).1] at hopened
      cases hopened
    · cases hflag : (w.sites b).breaker.probeInFlight with
      | false => exact .inl (CircuitBreaker.recovers_of_free _ h.since hflag)
      | true =>
        obtain ⟨-, i, r, hi, hprobing, -⟩ := h.owned hflag
        refine .inr ⟨i, r, hi, hprobing, fun result at' => ?_⟩
        exact CircuitBreaker.recovers_of_free _ (settle_since r result at' h.since)
          (settle_flag hprobing.1 result at' _)

variable {rounds : List Round} {s}

/-- A reading keeps the invariant: it promotes only a breaker whose flag is free. -/
theorem SiteInv.reads (h : SiteInv s rounds b) (now : ℚ) :
    SiteInv { s.reads now with breaker := s.breaker.promote now } rounds b := by
  unfold Site.reads
  cases hp : s.breaker.promotes now with
  | false =>
    simp only [false_eq_true, if_false, s.breaker.promote_of_not hp]
    exact h
  | true =>
    obtain ⟨hopened, e, hend, hle⟩ := (s.breaker.promotes_iff now).mp hp
    have hflag : s.breaker.probeInFlight = false := by
      refine eq_false_iff.mpr fun hset => ?_
      rw [(h.owned hset).1] at hopened
      cases hopened
    simp only [if_true, s.breaker.promote_of_promotes hp]
    constructor
    · intro hhalf
      cases hhalf
    · exact h.oneProbe
    · exact fun i r hi hb => Nat.le_succ_of_le (h.periods i r hi hb)
    · intro hset
      rw [hflag] at hset
      cases hset
    · intro e' he'
      right
      refine ⟨rfl, now, rfl, ?_⟩
      rcases h.cooled e' he' with ⟨-, hend'⟩ | ⟨hhalf, -⟩
      · rw [hend] at hend'
        exact some.inj hend' ▸ hle
      · rw [hopened] at hhalf
        cases hhalf

variable {i : Nat} {phase : Phase}

/-- Rounds that only end, or run, keep the invariant, unless the owner of the flag ends. -/
theorem SiteInv.setPhase (h : SiteInv s rounds b) (hi : rounds[i]? = some r) (hr : r.phase ≠ .over)
    (howner : phase = .over → s.breaker.probeInFlight = true →
      ¬ (r.Probing b ∧ r.period = s.halfOpens)) :
    SiteInv s (rounds.modify i fun r => { r with phase }) b := by
  have hback : ∀ (j : Nat) (r' : Round),
      (rounds.modify i fun r => { r with phase })[j]? = some r' →
      ∃ r₀ : Round, rounds[j]? = some r₀ ∧ r'.breaker = r₀.breaker ∧ r'.period = r₀.period ∧
        (r'.Probing b → r₀.Probing b) := by
    intro j r' hj
    rw [List.getElem?_modify] at hj
    obtain ⟨r₀, hr₀, hmap⟩ := map_eq_some_iff.mp hj
    by_cases hij : i = j
    · subst hij
      cases hi.symm.trans hr₀
      rw [if_pos rfl] at hmap
      subst hmap
      exact ⟨r, hi, rfl, rfl, fun hp => ⟨hp.1, hp.2.1, hr⟩⟩
    · rw [if_neg hij] at hmap
      subst hmap
      exact ⟨r₀, hr₀, rfl, rfl, id⟩
  refine ⟨h.since, ?_, ?_, ?_, h.cooled⟩
  · intro j k r' r'' hj hk hp hp'
    obtain ⟨r₁, hr₁, -, -, hprobing⟩ := hback j r' hj
    obtain ⟨r₂, hr₂, -, -, hprobing'⟩ := hback k r'' hk
    exact h.oneProbe j k r₁ r₂ hr₁ hr₂ (hprobing hp) (hprobing' hp')
  · intro j r' hj hb
    obtain ⟨r₁, hr₁, hbreaker, hperiod, -⟩ := hback j r' hj
    rw [hperiod]
    exact h.periods j r₁ hr₁ (hbreaker ▸ hb)
  · intro hflag
    obtain ⟨hhalf, k, r', hk, hprobing, hperiod⟩ := h.owned hflag
    refine ⟨hhalf, k, ?_⟩
    by_cases hik : i = k
    · subst hik
      cases hi.symm.trans hk
      have hnotover : phase ≠ .over := fun hover =>
        howner hover hflag ⟨hprobing, hperiod⟩
      refine ⟨{ r with phase }, ?_, ⟨hprobing.1, hprobing.2.1, hnotover⟩, hperiod⟩
      rw [List.getElem?_modify, hi, map_eq_map, map_some, if_pos rfl]
    · refine ⟨r', ?_, hprobing, hperiod⟩
      rw [List.getElem?_modify, hk, map_eq_map, map_some, if_neg hik]

theorem isProbeOf_of_owner (hprobing : r.Probing b) (hperiod : r.period = s.halfOpens)
    (hhalf : s.breaker.state = .halfOpen) :
    r.isProbeOf s = true := by
  simp [Round.isProbeOf, hprobing.1, hperiod, hhalf]

variable {result} {at'}

theorem records_flag (h : (r.records result at' c).probeInFlight = true) :
    (r.records result at' c) = c ∧ r.cooldownSet result at' = none := by
  cases result with
  | returned => cases h
  | raised exc =>
    simp only [Round.records, Round.cooldownSet] at h ⊢
    cases hcooldown : r.cooldownSeconds exc with
    | some seconds =>
      rw [hcooldown] at h
      cases h
    | none =>
      rw [hcooldown] at h
      cases hfault : exc.providerFault with
      | true =>
        rw [hfault] at h
        cases h
      | false => exact ⟨rfl, rfl⟩

variable {e : ℚ}

theorem records_cooldownSet (h : r.cooldownSet result at' = some e) :
    (r.records result at' c).state = .opened ∧ (r.records result at' c).windowEnd = some e := by
  cases result with
  | returned => cases h
  | raised exc =>
    obtain ⟨seconds, hseconds, rfl⟩ := map_eq_some_iff.mp h
    simp only [Round.records, hseconds]
    exact ⟨rfl, rfl⟩

theorem Harmless.cooled (h : Harmless s r result at') (hs : Cooled s)
    (he : s.cooldownEnd = some e) :
    (r.records result at' s.breaker).state = .opened ∧
        (r.records result at' s.breaker).windowEnd = some e ∨
      s.breaker.state = .halfOpen ∧ r.records result at' s.breaker = s.breaker := by
  -- a breaker that a reading does not find HALF_OPEN is OPEN until the cooldown ends
  have hopened : ∀ now, (s.breaker.promote now).state ≠ .halfOpen →
      (s.breaker.promote now).state = .opened ∧ s.breaker.windowEnd = some e := by
    intro now hnot
    rcases hs e he with ⟨hstate, hend⟩ | ⟨hstate, -⟩
    · refine ⟨(s.breaker.promote_opened_iff now).mpr ⟨hstate, ?_⟩, hend⟩
      refine eq_false_iff.mpr fun hp => hnot ?_
      rw [s.breaker.promote_of_promotes hp]
    · refine absurd ?_ hnot
      rw [s.breaker.promote_of_not (s.breaker.promotes_of_ne (by rw [hstate]; decide)), hstate]
  cases result with
  | returned =>
    obtain ⟨hstate, hend⟩ := hopened at'.promoted h
    left
    constructor
    · rw [Round.records, CircuitBreaker.record_ok_state, if_neg h, hstate]
    · rw [Round.records, CircuitBreaker.record_ok_windowEnd _ _ h, hend]
  | raised exc =>
    obtain ⟨hfault, hcooldown⟩ := h e he
    simp only [Round.records]
    cases hseconds : r.cooldownSeconds exc with
    | some seconds =>
      left
      refine ⟨rfl, ?_⟩
      exact congrArg some (hcooldown seconds hseconds)
    | none =>
      dsimp only
      split
      · rename_i hcounted
        obtain ⟨hnot, htrips⟩ := hfault hcounted
        obtain ⟨hstate, hend⟩ := hopened at'.promoted hnot
        left
        constructor
        · rw [CircuitBreaker.record_fault_state, if_neg, hstate]
          rintro (hhalf | hreached)
          · exact hnot hhalf
          · rw [htrips] at hreached
            cases hreached
        · rw [CircuitBreaker.record_fault_windowEnd _ hnot htrips, hend]
      · exact (hs e he).imp id fun hhalf => ⟨hhalf.1, rfl⟩

theorem settle_state (r : Round) (result : RoundResult) (at' : Readings) (c : CircuitBreaker) :
    (r.settle result at' c).state = (r.records result at' c).state := by
  unfold Round.settle
  split <;> rfl

theorem settle_windowEnd (r : Round) (result : RoundResult) (at' : Readings)
    (c : CircuitBreaker) :
    (r.settle result at' c).windowEnd = (r.records result at' c).windowEnd := by
  unfold Round.settle
  split <;> rfl

/-- The end of a round moves the counters of its site as a reading does, if at all. -/
theorem settled_promotedAt (s : Site) (r : Round) (result : RoundResult) (at' : Readings) :
    s.halfOpens ≤ (s.settled r result at').halfOpens ∧
      (s.breaker.state = .halfOpen → (s.settled r result at').promotedAt = s.promotedAt) := by
  have hreads : s.halfOpens ≤ (s.reads at'.promoted).halfOpens ∧
      (s.breaker.state = .halfOpen → (s.reads at'.promoted).promotedAt = s.promotedAt) := by
    unfold Site.reads
    split
    · rename_i hp
      refine ⟨Nat.le_succ _, fun hhalf => ?_⟩
      rw [((s.breaker.promotes_iff _).mp hp).1] at hhalf
      cases hhalf
    · exact ⟨le_rfl, fun _ => rfl⟩
  cases result with
  | returned => exact hreads
  | raised exc =>
    simp only [Site.settled]
    split
    · exact hreads
    · exact ⟨le_rfl, fun _ => rfl⟩

theorem SiteInv.settled (h : SiteInv s rounds b)
    (hok : r.isProbeOf s = false → Harmless s r result at') :
    SiteInv (s.settled r result at') rounds b where
  since := settle_since r result at' h.since
  oneProbe := h.oneProbe
  periods j r' hj hb' :=
    (h.periods j r' hj hb').trans (settled_promotedAt s r result at').1
  owned := by
    intro hflag
    cases hprobe : r.admittedProbe with
    | true =>
      have hfree := settle_flag hprobe result at' s.breaker
      exact absurd (hfree.symm.trans hflag) (by decide)
    | false =>
      -- nothing was recorded, so the breaker is as it was
      have hsettle : r.settle result at' s.breaker = r.records result at' s.breaker := by
        unfold Round.settle
        rw [hprobe]
        rfl
      have hset : (r.records result at' s.breaker).probeInFlight = true := hsettle ▸ hflag
      obtain ⟨hsame, -⟩ := records_flag hset
      rw [hsame] at hset
      obtain ⟨hhalf, howner⟩ := h.owned hset
      have hnot : s.breaker.promotes at'.promoted = false :=
        s.breaker.promotes_of_ne (by rw [hhalf]; decide)
      have hperiod : (s.settled r result at').halfOpens = s.halfOpens := by
        have hreads : s.reads at'.promoted = s := by
          unfold Site.reads
          rw [hnot]
          rfl
        cases result with
        | returned =>
          show (s.reads at'.promoted).halfOpens = s.halfOpens
          rw [hreads]
        | raised exc =>
          simp only [Site.settled, hreads, ite_self]
      rw [hperiod]
      refine ⟨?_, howner⟩
      show (r.settle result at' s.breaker).state = .halfOpen
      rw [hsettle, hsame, hhalf]
  cooled := by
    intro e he
    show (r.settle result at' s.breaker).state = .opened ∧
        (r.settle result at' s.breaker).windowEnd = some e ∨
      (r.settle result at' s.breaker).state = .halfOpen ∧
        ∃ now, (s.settled r result at').promotedAt = some now ∧ e ≤ now
    rw [settle_state, settle_windowEnd]
    replace he : r.cooldownLeft result at' s = some e := he
    have hset : r.cooldownSet result at' = some e →
        (r.records result at' s.breaker).state = .opened ∧
          (r.records result at' s.breaker).windowEnd = some e := records_cooldownSet
    -- a breaker that is HALF_OPEN behind the end was so before
    have hkept : ∀ now, s.breaker.state = .halfOpen → s.promotedAt = some now →
        (s.settled r result at').promotedAt = some now := fun now hhalf hnow =>
      ((settled_promotedAt s r result at').2 hhalf).trans hnow
    unfold Round.cooldownLeft at he
    cases hstands : s.cooldownEnd with
    | none =>
      rw [hstands] at he
      exact .inl (hset he)
    | some e' =>
      rw [hstands] at he
      dsimp only at he
      cases hprobe : r.isProbeOf s with
      | false =>
        rw [hprobe] at he
        obtain rfl := some.inj he
        rcases (hok hprobe).cooled h.cooled hstands with hopened | ⟨hhalf, hsame⟩
        · exact .inl hopened
        · rw [hsame]
          rcases h.cooled e' hstands with hopened | ⟨-, now, hnow, hle⟩
          · exact .inl hopened
          · exact .inr ⟨hhalf, now, hkept now hhalf hnow, hle⟩
      | true =>
        rw [hprobe] at he
        have hhalf : s.breaker.state = .halfOpen := by
          simp only [Round.isProbeOf, and_eq_true, decide_eq_true_eq] at hprobe
          exact hprobe.2
        simp only [if_true] at he
        split at he
        · rename_i hstill
          obtain rfl := some.inj he
          rcases h.cooled e' hstands with ⟨hopened, -⟩ | ⟨-, now, hnow, hle⟩
          · rw [hhalf] at hopened
            cases hopened
          · exact .inr ⟨hstill, now, hkept now hhalf hnow, hle⟩
        · exact .inl (hset he)

def RoundInv (w : RoundWorld) : Prop := ∀ b, SiteInv (w.sites b) w.rounds b

theorem RoundInv.setSite (h : RoundInv w) (hs : SiteInv s w.rounds b) :
    RoundInv (w.setSite b s) := by
  intro b'
  by_cases hb : b' = b
  · subst hb
    simpa only [RoundWorld.setSite, update_self] using hs
  · simpa only [RoundWorld.setSite, update_of_ne hb] using h b'

theorem RoundInv.setPhase (h : RoundInv w) (hi : w.rounds[i]? = some r) (hr : r.phase ≠ .over)
    (howner : phase = .over → (w.sites r.breaker).breaker.probeInFlight = true →
      ¬ (r.Probing r.breaker ∧ r.period = (w.sites r.breaker).halfOpens)) :
    RoundInv (w.setPhase i phase) := by
  intro b'
  refine (h b').setPhase hi hr fun hover hflag hown => ?_
  obtain ⟨hprobing, hperiod⟩ := hown
  obtain rfl := hprobing.2.1
  exact howner hover hflag ⟨hprobing, hperiod⟩

theorem SiteInv.append (h : SiteInv s rounds b)
    (hfresh : r.Probing b → ∀ r' ∈ rounds, ¬ r'.Probing b)
    (hperiod : r.breaker = b → r.period ≤ s.halfOpens) : SiteInv s (rounds ++ [r]) b := by
  have hsplit : ∀ (j : Nat) (r' : Round), (rounds ++ [r])[j]? = some r' →
      rounds[j]? = some r' ∨ j = rounds.length ∧ r' = r := by
    intro j r' hj
    rcases lt_or_ge j rounds.length with hlt | hge
    · rw [List.getElem?_append_left hlt] at hj
      exact .inl hj
    · rw [List.getElem?_append_right hge] at hj
      obtain ⟨hzero, hr'⟩ := List.getElem?_eq_some_iff.mp hj
      have hlast : j - rounds.length = 0 := Nat.lt_one_iff.mp hzero
      simp only [hlast, List.getElem_cons_zero] at hr'
      exact .inr ⟨by omega, hr'.symm⟩
  refine ⟨h.since, ?_, ?_, ?_, h.cooled⟩
  · intro j k r₁ r₂ hj hk hp hp'
    rcases hsplit j r₁ hj with hold | ⟨hlast, rfl⟩
    · rcases hsplit k r₂ hk with hold' | ⟨-, rfl⟩
      · exact h.oneProbe j k r₁ r₂ hold hold' hp hp'
      · exact absurd hp (hfresh hp' r₁ (List.mem_of_getElem? hold))
    · rcases hsplit k r₂ hk with hold' | ⟨hlast', -⟩
      · exact absurd hp' (hfresh hp r₂ (List.mem_of_getElem? hold'))
      · exact hlast.trans hlast'.symm
  · intro j r' hj hb
    rcases hsplit j r' hj with hj | ⟨-, rfl⟩
    · exact h.periods j r' hj hb
    · exact hperiod hb
  · intro hflag
    obtain ⟨hhalf, j, r', hj, hown⟩ := h.owned hflag
    exact ⟨hhalf, j, r', List.getElem?_append_left
      (List.getElem?_eq_some_iff.mp hj).1 ▸ hj, hown⟩

theorem SiteInv.admitProbe (h : SiteInv s rounds b) (hhalf : s.breaker.state = .halfOpen)
    (hr : r.Probing b) (hnone : ∀ r' ∈ rounds, ¬ r'.Probing b) (hperiod : r.period = s.halfOpens) :
    SiteInv { s with breaker := { s.breaker with probeInFlight := true } } (rounds ++ [r]) b := by
  have happended : SiteInv s (rounds ++ [r]) b :=
    h.append (fun _ => hnone) (fun _ => le_of_eq hperiod)
  refine ⟨happended.since, happended.oneProbe, happended.periods, fun _ => ?_, h.cooled⟩
  exact ⟨hhalf, rounds.length, r, List.getElem?_concat_length, hr, hperiod⟩

/-- The gate keeps the invariant where it admits a probe only while none is unfinished. -/
theorem RoundInv.enter (h : RoundInv w) {limiter : Bool} {cooldownHours : Option Duration}
    {now : ℚ} (hok : Undisturbed w (.enter b limiter cooldownHours now)) :
    RoundInv (w.enter b limiter cooldownHours now) := by
  have hreads := (h b).reads now
  unfold RoundWorld.enter
  cases hadmission : ((w.sites b).breaker.gate now).2 with
  | refused =>
    have hother : ((w.sites b).breaker.gate now).2 ≠ .probe := by rw [hadmission]; decide
    have hgate := CircuitBreaker.gate_of_ne_probe _ hother
    simp only [hgate, hadmission]
    exact h.setSite hreads
  | admitted =>
    have hother : ((w.sites b).breaker.gate now).2 ≠ .probe := by rw [hadmission]; decide
    have hgate := CircuitBreaker.gate_of_ne_probe _ hother
    simp only [hgate, hadmission]
    intro b'
    refine ((h.setSite hreads) b').append (fun hprobing => ?_) fun hb => ?_
    · exact absurd hprobing.1 (by simp)
    · obtain rfl : b = b' := hb
      simp [RoundWorld.setSite]
  | probe =>
    have hgate := (w.sites b).breaker.gate_of_probe hadmission
    obtain ⟨hhalf, hfree⟩ := ((w.sites b).breaker.gate_probe_iff now).mp hadmission
    have hnone := hok hhalf hfree
    simp only [hgate, hadmission]
    intro b'
    by_cases hb : b' = b
    · subst hb
      simp only [RoundWorld.setSite, update_self]
      refine hreads.admitProbe hhalf ⟨by simp, rfl, ?_⟩ hnone rfl
      cases limiter <;> simp
    · simp only [RoundWorld.setSite, update_of_ne hb]
      refine (h b').append (fun hprobing => ?_) fun hbreaker => ?_
      · exact absurd hprobing.2.1.symm hb
      · exact absurd hbreaker.symm hb

/-- **One undisturbed step keeps the invariant.** -/
theorem RoundInv.step (h : RoundInv w) {op : RoundOp} (hok : Undisturbed w op) :
    RoundInv (roundStep w op) := by
  cases op with
  | enter b limiter cooldownHours now => exact h.enter hok
  | acquired i =>
    simp only [roundStep]
    split
    · rename_i r hi
      split
      · rename_i hphase
        exact h.setPhase hi (by rw [hphase]; decide) (nofun)
      · exact h
    · exact h
  | refused i =>
    simp only [roundStep]
    split
    · rename_i r hi
      split
      · rename_i hphase
        refine h.setPhase hi (by rw [hphase]; decide) fun _ hflag hown => ?_
        have hnot := hok r hi hphase
        rw [isProbeOf_of_owner hown.1 hown.2 ((h r.breaker).owned hflag).1] at hnot
        cases hnot
      · exact h
    · exact h
  | finish i result at' =>
    simp only [roundStep]
    split
    · rename_i r hi
      split
      · rename_i hphase
        have hsettled := (h r.breaker).settled (hok r hi hphase)
        refine (h.setSite hsettled).setPhase (i := i) (r := r) hi (by rw [hphase]; decide) ?_
        intro _ hflag hown
        -- a flag that is still set is not a probe's that has just ended
        simp only [RoundWorld.setSite, update_self] at hflag
        have hfree := settle_flag hown.1.1 result at' (w.sites r.breaker).breaker
        exact absurd (hfree.symm.trans hflag) (by decide)
      · exact h
    · exact h
  | openFor b seconds now =>
    refine h.setSite ⟨fun _ => rfl, (h b).oneProbe, (h b).periods, fun hflag => ?_, ?_⟩
    · cases hflag
    · intro e he
      left
      refine ⟨rfl, ?_⟩
      cases he
      rfl
  | read b now => exact h.setSite ((h b).reads now)

/-- A success closes, of the breakers that are not CLOSED, only one a reading finds
HALF_OPEN; a fault and a cooldown close none. -/
theorem settle_closes (hbefore : c.state ≠ .closed) (h : (r.settle result at' c).state = .closed) :
    result = .returned ∧ (c.promote at'.promoted).state = .halfOpen := by
  have hpromoted : (c.promote at'.promoted).state ≠ .closed := fun hclosed =>
    hbefore ((c.promote_closed_iff _).mp hclosed)
  rw [settle_state] at h
  cases result with
  | returned =>
    refine ⟨rfl, ?_⟩
    by_contra hhalf
    rw [Round.records, CircuitBreaker.record_ok_state, if_neg hhalf] at h
    exact hpromoted h
  | raised exc =>
    exfalso
    simp only [Round.records] at h
    split at h
    · cases h
    · split at h
      · rw [CircuitBreaker.record_fault_state] at h
        split at h
        · cases h
        · exact hpromoted h
      · exact hbefore h

theorem closesByProbe_of_undisturbed {op : RoundOp} (hok : Undisturbed w op) :
    ClosesByProbe w op := by
  intro b hbefore hafter
  -- the state a reading leaves is CLOSED only if it was
  have hread : ∀ now, ((w.sites b).breaker.promote now).state ≠ .closed := fun now hclosed =>
    hbefore (((w.sites b).breaker.promote_closed_iff now).mp hclosed)
  have hset : ∀ (b' : Nat) (s : Site), ((w.setSite b' s).sites b).breaker.state = .closed →
      b = b' ∧ s.breaker.state = .closed := by
    intro b' s hclosed
    by_cases hb : b = b'
    · subst hb
      simp only [RoundWorld.setSite, update_self] at hclosed
      exact ⟨rfl, hclosed⟩
    · simp only [RoundWorld.setSite, update_of_ne hb] at hclosed
      exact absurd hclosed hbefore
  cases op with
  | enter b' limiter cooldownHours now =>
    exfalso
    have hgate : ((w.sites b').breaker.gate now).1.state =
        ((w.sites b').breaker.promote now).state := by
      by_cases hprobe : ((w.sites b').breaker.gate now).2 = .probe
      · rw [CircuitBreaker.gate_of_probe _ hprobe]
      · rw [CircuitBreaker.gate_of_ne_probe _ hprobe]
    have hclosed : b = b' ∧ ((w.sites b').breaker.gate now).1.state = .closed := by
      simp only [roundStep, RoundWorld.enter] at hafter
      split at hafter
      · exact hset _ _ hafter
      · exact hset _ _ hafter
    obtain ⟨rfl, hclosed⟩ := hclosed
    exact hread now (hgate ▸ hclosed)
  | acquired i | refused i =>
    exfalso
    simp only [roundStep] at hafter
    split at hafter
    · split at hafter
      · exact hbefore hafter
      · exact hbefore hafter
    · exact hbefore hafter
  | finish i result at' =>
    simp only [roundStep] at hafter
    split at hafter
    · rename_i r hi
      split at hafter
      · rename_i hphase
        obtain ⟨rfl, hclosed⟩ := hset _ _ hafter
        obtain ⟨rfl, hhalf⟩ := settle_closes hbefore hclosed
        refine ⟨i, r, at', rfl, hi, rfl, ?_⟩
        by_contra hnot
        exact hok r hi hphase (eq_false_iff.mpr hnot) hhalf
      · exact absurd hafter hbefore
    · exact absurd hafter hbefore
  | openFor b' seconds now =>
    obtain ⟨-, hclosed⟩ := hset _ _ hafter
    cases hclosed
  | read b' now =>
    obtain ⟨rfl, hclosed⟩ := hset _ _ hafter
    exact absurd hclosed (hread now)

end

/-- Breakers as they are made, each with its own thresholds and windows. -/
def RoundWorld.init (breakers : Nat → CircuitBreaker) : RoundWorld where
  sites b :=
    { breaker :=
        { failureThreshold := (breakers b).failureThreshold
          windowSeconds := (breakers b).windowSeconds
          halfOpenSeconds := (breakers b).halfOpenSeconds } }

theorem RoundInv.init (breakers : Nat → CircuitBreaker) : RoundInv (RoundWorld.init breakers) := by
  intro b
  constructor
  · intro h
    cases h
  · intro i j r r' hi
    cases hi
  · intro i r hi
    cases hi
  · intro h
    cases h
  · intro e he
    cases he

/-- **One probe moves the breaker.**  In an undisturbed run of rounds over any breakers, in
every state reached at most one probe of a HALF_OPEN breaker is unfinished, a cooldown ends
when it was set to, and a breaker that refuses comes to admit; and a breaker is closed only by
the success of the probe admitted in its current half-open period. -/
theorem moved_by_probe_only (breakers : Nat → CircuitBreaker) (ops : List RoundOp)
    (hops : Meets roundStep Undisturbed (RoundWorld.init breakers) ops) :
    Along roundStep (fun w => ∀ b, Guarded w b) (RoundWorld.init breakers) ops ∧
      Meets roundStep ClosesByProbe (RoundWorld.init breakers) ops := by
  have hstep : ∀ w op, RoundInv w → Undisturbed w op → RoundInv (roundStep w op) :=
    fun _ _ h hok => h.step hok
  constructor
  · exact Along.mono (fun _ h b => (h b).guarded)
      (along_of_meets hstep (RoundInv.init breakers) hops)
  · exact meets_of_meets hstep (fun _ _ _ hok => closesByProbe_of_undisturbed hok)
      (RoundInv.init breakers) hops

def Readings.at (now : ℚ) : Readings := ⟨now, now, now⟩

def outage : RoundResult := .raised { cause := .server5xx }

/-- A fault by rate limit, with the seconds its response names. -/
def rateLimited (seconds : ℚ) : RoundResult :=
  .raised { cause := .rateLimit, retryAfter := some seconds }

/-- Four rounds are let through; three fail, and the breaker opens at 1. -/
def breakerOpens : List RoundOp :=
  [.enter 0 false none 0, .enter 0 false none 0, .enter 0 false none 0, .enter 0 false none 0,
    .finish 0 outage (.at 1), .finish 1 outage (.at 1), .finish 2 outage (.at 1)]

/-- A probe closes it, and the fourth round ends; a later round is rate-limited, and a probe
is let through when its cooldown is over. -/
def probeCloses : List RoundOp :=
  breakerOpens ++
    [.enter 0 false none 5, .enter 0 true none 31, .enter 0 false none 32, .acquired 4,
      .finish 4 .returned (.at 33), .finish 3 .returned (.at 34), .enter 0 true none 40,
      .acquired 5, .finish 5 (rateLimited 120) (.at 41), .enter 0 false none 160,
      .enter 0 false none 161, .finish 6 .returned (.at 162)]

theorem moved_by_probe_only_recovery :
    Along roundStep (fun w => ∀ b, Guarded w b) (RoundWorld.init fun _ => {}) probeCloses ∧
      Meets roundStep ClosesByProbe (RoundWorld.init fun _ => {}) probeCloses :=
  moved_by_probe_only (fun _ => {}) probeCloses (by decide +kernel)

/-- The probe is running when the fourth round, let through before the outage, succeeds: it
closes the breaker. -/
theorem late_success_closes :
    ¬ ∀ (breakers : Nat → CircuitBreaker) (ops : List RoundOp),
      Along roundStep (fun w => ∀ b, Guarded w b) (RoundWorld.init breakers) ops ∧
        Meets roundStep ClosesByProbe (RoundWorld.init breakers) ops := by
  intro h
  have hmeets := (h (fun _ => {})
    ((breakerOpens ++ [.enter 0 false none 31]) ++ [.finish 3 .returned (.at 32)])).2
  have hlast := ((meets_append _ _ _).mp hmeets).2.1
  obtain ⟨i, r, at', hop, hr, -, hprobe⟩ := hlast 0 (by decide +kernel) (by decide +kernel)
  cases hop
  have hround : (run roundStep (RoundWorld.init fun _ => {})
      (breakerOpens ++ [.enter 0 false none 31])).rounds[3]? =
      some ⟨0, false, none, false, 0, .running⟩ := by decide +kernel
  rw [hround] at hr
  cases hr
  revert hprobe
  decide +kernel

/-- A caller comes to a gate, or a state is read. -/
def RoundOp.atGate : RoundOp → Bool
  | .enter .. | .read .. => true
  | _ => false

/-- A HALF_OPEN breaker whose flag is set refuses whoever comes. -/
theorem wedged_step {w : RoundWorld} {b : Nat}
    (h : (w.sites b).breaker.state = .halfOpen ∧ (w.sites b).breaker.probeInFlight = true)
    {op : RoundOp} (hop : op.atGate = true) :
    ((roundStep w op).sites b).breaker = (w.sites b).breaker := by
  have hpromote : ∀ now, (w.sites b).breaker.promote now = (w.sites b).breaker := fun now =>
    (w.sites b).breaker.promote_of_not
      ((w.sites b).breaker.promotes_of_ne (by rw [h.1]; decide))
  have hset : ∀ (b' : Nat) (s : Site), (b' = b → s.breaker = (w.sites b).breaker) →
      ((w.setSite b' s).sites b).breaker = (w.sites b).breaker := by
    intro b' s hs
    by_cases hb : b = b'
    · subst hb
      simpa only [RoundWorld.setSite, update_self] using hs rfl
    · simp only [RoundWorld.setSite, update_of_ne hb]
  cases op with
  | acquired | refused | finish | openFor => cases hop
  | read b' now =>
    refine hset b' _ fun hb => ?_
    subst hb
    exact hpromote now
  | enter b' limiter cooldownHours now =>
    have hgate : b' = b → ((w.sites b').breaker.gate now).1 = (w.sites b).breaker := by
      intro hb
      subst hb
      rw [CircuitBreaker.gate_of_ne_probe, hpromote now]
      rw [ne_eq, CircuitBreaker.gate_probe_iff, h.2]
      simp
    simp only [roundStep, RoundWorld.enter]
    split
    · exact hset b' _ hgate
    · exact hset b' _ hgate

/-- Callers alone never clear the flag: whoever comes is refused, however late. -/
theorem wedged_refuses {w : RoundWorld} {b : Nat}
    (h : (w.sites b).breaker.state = .halfOpen ∧ (w.sites b).breaker.probeInFlight = true)
    (ops : List RoundOp) (hops : ∀ op ∈ ops, op.atGate = true) (now : ℚ) :
    (((run roundStep w ops).sites b).breaker.gate now).2 = .refused := by
  have hstep : ∀ (w' : RoundWorld) (op : RoundOp),
      ((w'.sites b).breaker.state = .halfOpen ∧ (w'.sites b).breaker.probeInFlight = true) →
      op.atGate = true → ((roundStep w' op).sites b).breaker.state = .halfOpen ∧
        ((roundStep w' op).sites b).breaker.probeInFlight = true :=
    fun w' op hw' hop => by rw [wedged_step hw' hop]; exact hw'
  obtain ⟨hstate, hflag⟩ := (along_of_meets hstep h (meets_of_forall hops)).last
  refine (CircuitBreaker.gate_refuses_iff _ now).mpr (.inr ⟨?_, hflag⟩)
  rw [CircuitBreaker.promote_of_not _ (CircuitBreaker.promotes_of_ne _ (by rw [hstate]; decide)),
    hstate]

/-- A probe whose wait for the limiter is cancelled leaves the flag set. -/
theorem cancelled_probe_wedges :
    let w := run roundStep (RoundWorld.init fun _ => {})
      (breakerOpens ++ [.enter 0 true none 31, .refused 4])
    (((run roundStep w [.enter 0 true none 900]).sites 0).breaker.gate 1000).2 = .refused :=
  wedged_refuses (by decide +kernel) _ (by decide) 1000

end StackOwl.Providers
