import Mathlib.Algebra.Order.Field.Rat
import Mathlib.Tactic.Linarith

/-!
# The circuit breaker of a provider

`CircuitBreaker` (`providers/circuit_breaker.py`).  A breaker is CLOSED, OPEN since an
instant and for a window, or HALF_OPEN; the window is the adaptive one or was set by
`open_for`.  A mutator holds the lock across no await, so each is one step.  A method
that reads the clock twice takes two readings, which need not be ordered.

Instants and durations are rationals; a duration a caller asks for need not be finite.

## Main results

* `gate_refuses_iff` — who is refused at a reading.
* `recovers_of_free` — a breaker whose probe flag is free admits from some reading on.
* `record_ok_state`, `record_fault_state` — where an outcome moves the state.
-/

namespace StackOwl.Providers

open Option Bool

inductive CircuitState where
  | closed
  | opened
  | halfOpen
  deriving DecidableEq

/-- A number of seconds as a float holds it. -/
inductive Duration where
  | finite (seconds : ℚ)
  | nonFinite
  deriving DecidableEq

def HALF_OPEN_BACKOFF_CAP_SECONDS : ℚ := 900

/-- What `open_for` makes of the seconds it is given. -/
def Duration.cooldown : Duration → ℚ
  | .finite seconds => max seconds 0
  | .nonFinite => max HALF_OPEN_BACKOFF_CAP_SECONDS 0

/-- `CircuitBreaker`, less its name, its clock and its lock. -/
structure CircuitBreaker where
  failureThreshold : Int := 3
  windowSeconds : ℚ := 60
  halfOpenSeconds : ℚ := 30
  currentHalfOpenSeconds : ℚ := halfOpenSeconds
  state : CircuitState := .closed
  failures : List ℚ := []
  openedAt : Option ℚ := none
  probeInFlight : Bool := false

namespace CircuitBreaker

variable (b : CircuitBreaker) (now : ℚ)

def elapsed : Bool :=
  b.openedAt.any fun openedAt => decide (b.currentHalfOpenSeconds ≤ now - openedAt)

/-- The reading finds an OPEN breaker whose window has elapsed. -/
def promotes : Bool :=
  decide (b.state = .opened) && b.elapsed now

/-- `_maybe_promote_to_half_open`. -/
def promote : CircuitBreaker :=
  if b.promotes now then { b with state := .halfOpen } else b

def recent (failures : List ℚ) (now : ℚ) : List ℚ :=
  failures.dropWhile fun failure => decide (failure < now - b.windowSeconds)

/-- One more failure reaches the threshold. -/
def tripsAt : Bool :=
  decide (b.failureThreshold ≤ (b.recent (b.failures ++ [now]) now).length)

def recordFailure : CircuitBreaker :=
  if b.state = .halfOpen then
    { b with
      currentHalfOpenSeconds := min (b.currentHalfOpenSeconds * 2) HALF_OPEN_BACKOFF_CAP_SECONDS
      state := .opened
      openedAt := some now
      failures := [] }
  else if b.tripsAt now then { b with state := .opened, openedAt := some now, failures := [] }
  else { b with failures := b.recent (b.failures ++ [now]) now }

def recordSuccess (priorState : CircuitState) (now : ℚ) : CircuitBreaker :=
  match priorState with
  | .halfOpen =>
    { b with
      currentHalfOpenSeconds := b.halfOpenSeconds
      state := .closed
      openedAt := none
      failures := [] }
  | .closed =>
    if b.failures = [] then b else { b with failures := b.recent b.failures now }
  | .opened => b

/-- `record`, which reads the clock before and within the bookkeeping. -/
def record (ok : Bool) (now later : ℚ) : CircuitBreaker :=
  let b := b.promote now
  { (if ok then b.recordSuccess b.state later else b.recordFailure later) with
    probeInFlight := false }

def openFor (seconds : Duration) (now : ℚ) : CircuitBreaker :=
  { b with
    currentHalfOpenSeconds := seconds.cooldown
    state := .opened
    openedAt := some now
    failures := []
    probeInFlight := false }

def clearProbe : CircuitBreaker :=
  { b with probeInFlight := false }

end CircuitBreaker

/-- What the gate of `resilient_round` answers. -/
inductive Admission where
  | refused
  | admitted
  | probe
  deriving DecidableEq

namespace CircuitBreaker

/-- The gate of `resilient_round`: the state is read, and a HALF_OPEN breaker asked for
its probe (`admit_probe`). -/
def gate (b : CircuitBreaker) (now : ℚ) : CircuitBreaker × Admission :=
  let b := b.promote now
  match b.state with
  | .opened => (b, .refused)
  | .halfOpen =>
    if b.probeInFlight then (b, .refused) else ({ b with probeInFlight := true }, .probe)
  | .closed => (b, .admitted)

def windowEnd (b : CircuitBreaker) : Option ℚ :=
  b.openedAt.map (· + b.currentHalfOpenSeconds)

/-- From some reading on, callers are let through. -/
def Recovers (b : CircuitBreaker) (admission : Admission → Prop) : Prop :=
  ∃ instant, ∀ now, instant ≤ now → admission (b.gate now).2

/-! ## What a reading does -/

variable (b : CircuitBreaker)

theorem promotes_iff (now : ℚ) :
    b.promotes now = true ↔ b.state = .opened ∧ ∃ e, b.windowEnd = some e ∧ e ≤ now := by
  unfold promotes elapsed windowEnd
  cases b.openedAt with
  | none => simp
  | some openedAt =>
    simp only [any_some, and_eq_true, decide_eq_true_eq, map_some,
      some.injEq, exists_eq_left']
    constructor
    · rintro ⟨hopened, helapsed⟩
      exact ⟨hopened, by linarith⟩
    · rintro ⟨hopened, hend⟩
      exact ⟨hopened, by linarith⟩

variable {now : ℚ}

theorem promote_of_not (h : b.promotes now = false) : b.promote now = b := by
  unfold promote
  rw [h]
  rfl

theorem promote_of_promotes (h : b.promotes now = true) :
    b.promote now = { b with state := .halfOpen } := by
  unfold promote
  rw [h]
  rfl

theorem promotes_of_ne (h : b.state ≠ .opened) : b.promotes now = false := by
  unfold promotes
  rw [decide_eq_false h, Bool.false_and]

@[simp] theorem promote_probeInFlight (now : ℚ) :
    (b.promote now).probeInFlight = b.probeInFlight := by
  unfold promote
  split <;> rfl

@[simp] theorem promote_openedAt (now : ℚ) : (b.promote now).openedAt = b.openedAt := by
  unfold promote
  split <;> rfl

@[simp] theorem promote_windowEnd (now : ℚ) : (b.promote now).windowEnd = b.windowEnd := by
  unfold promote
  split <;> rfl

theorem promote_closed_iff (now : ℚ) :
    (b.promote now).state = .closed ↔ b.state = .closed := by
  cases h : b.promotes now with
  | false => rw [b.promote_of_not h]
  | true =>
    rw [b.promote_of_promotes h]
    have hopened := ((b.promotes_iff now).mp h).1
    simp [hopened]

/-- A breaker found OPEN was OPEN, and no window was over. -/
theorem promote_opened_iff (now : ℚ) :
    (b.promote now).state = .opened ↔ b.state = .opened ∧ b.promotes now = false := by
  cases h : b.promotes now with
  | false => simp [b.promote_of_not h]
  | true => simp [b.promote_of_promotes h]

/-! ## The gate -/

theorem gate_refuses_iff (now : ℚ) :
    (b.gate now).2 = .refused ↔ (b.promote now).state = .opened ∨
      (b.promote now).state = .halfOpen ∧ b.probeInFlight = true := by
  simp only [gate, promote_probeInFlight]
  cases (b.promote now).state with
  | closed => simp
  | opened => simp
  | halfOpen => cases b.probeInFlight <;> simp

theorem gate_probe_iff (now : ℚ) :
    (b.gate now).2 = .probe ↔
      (b.promote now).state = .halfOpen ∧ b.probeInFlight = false := by
  simp only [gate, promote_probeInFlight]
  cases (b.promote now).state with
  | closed => simp
  | opened => simp
  | halfOpen => cases b.probeInFlight <;> simp

/-- The gate sets the flag of whom it admits as the probe, and nothing else. -/
theorem gate_of_probe (h : (b.gate now).2 = .probe) :
    (b.gate now).1 = { b.promote now with probeInFlight := true } := by
  obtain ⟨hstate, hflag⟩ := (b.gate_probe_iff now).mp h
  simp only [gate, promote_probeInFlight, hstate, hflag]
  rfl

theorem gate_of_ne_probe (h : (b.gate now).2 ≠ .probe) :
    (b.gate now).1 = b.promote now := by
  revert h
  simp only [gate, promote_probeInFlight]
  cases (b.promote now).state with
  | closed => exact fun _ => rfl
  | opened => exact fun _ => rfl
  | halfOpen => cases b.probeInFlight <;> simp

/-- A breaker that is OPEN since an instant, with its flag free, admits a probe once the
window is over. -/
theorem recovers_of_opened (hstate : b.state = .opened) (hsince : b.openedAt.isSome)
    (hflag : b.probeInFlight = false) : b.Recovers (· = .probe) := by
  obtain ⟨openedAt, hopenedAt⟩ := isSome_iff_exists.mp hsince
  refine ⟨openedAt + b.currentHalfOpenSeconds, fun now hnow => ?_⟩
  have hpromotes : b.promotes now = true :=
    (b.promotes_iff now).mpr ⟨hstate, _, by rw [windowEnd, hopenedAt, map_some], hnow⟩
  refine (b.gate_probe_iff now).mpr ⟨?_, hflag⟩
  rw [b.promote_of_promotes hpromotes]

/-- With the flag free, a breaker that knows since when it is OPEN lets somebody through
from some reading on. -/
theorem recovers_of_free (hsince : b.state = .opened → b.openedAt.isSome)
    (hflag : b.probeInFlight = false) : b.Recovers (· ≠ .refused) := by
  by_cases hstate : b.state = .opened
  · obtain ⟨instant, hprobe⟩ := b.recovers_of_opened hstate (hsince hstate) hflag
    refine ⟨instant, fun now hnow => ?_⟩
    have hadmitted := hprobe now hnow
    simp only at hadmitted ⊢
    rw [hadmitted]
    decide
  · refine ⟨0, fun now _ hrefused => ?_⟩
    rcases (b.gate_refuses_iff now).mp hrefused with hopened | ⟨-, hset⟩
    · exact hstate ((b.promote_opened_iff now).mp hopened).1
    · rw [hflag] at hset
      cases hset

/-! ## What an outcome does -/

theorem record_ok_state (now later : ℚ) :
    (b.record true now later).state =
      if (b.promote now).state = .halfOpen then .closed else (b.promote now).state := by
  simp only [record, recordSuccess, if_true]
  cases hstate : (b.promote now).state with
  | closed => dsimp only; split <;> simp [hstate]
  | opened => simp [hstate]
  | halfOpen => simp

/-- A success that finds the breaker not HALF_OPEN leaves the window. -/
theorem record_ok_windowEnd (later : ℚ) (h : (b.promote now).state ≠ .halfOpen) :
    (b.record true now later).windowEnd = b.windowEnd := by
  rw [← b.promote_windowEnd now]
  simp only [record, recordSuccess, if_true]
  cases hstate : (b.promote now).state with
  | closed => dsimp only; split <;> rfl
  | opened => rfl
  | halfOpen => exact absurd hstate h

theorem record_fault_state (now later : ℚ) :
    (b.record false now later).state =
      if (b.promote now).state = .halfOpen ∨ (b.promote now).tripsAt later = true then .opened
      else (b.promote now).state := by
  simp only [record, recordFailure, false_eq_true, if_false]
  by_cases hhalf : (b.promote now).state = .halfOpen
  · simp [hhalf]
  · cases htrips : (b.promote now).tripsAt later <;> simp [hhalf]

theorem record_fault_windowEnd {now later : ℚ} (hhalf : (b.promote now).state ≠ .halfOpen)
    (htrips : (b.promote now).tripsAt later = false) :
    (b.record false now later).windowEnd = b.windowEnd := by
  rw [← b.promote_windowEnd now]
  simp only [record, recordFailure, false_eq_true, if_false, hhalf, htrips]
  rfl

theorem record_since (hsince : b.state = .opened → b.openedAt.isSome) (ok : Bool)
    (now later : ℚ) :
    (b.record ok now later).state = .opened → (b.record ok now later).openedAt.isSome := by
  have hpromoted : (b.promote now).state = .opened → (b.promote now).openedAt.isSome := by
    intro h
    rw [promote_openedAt]
    exact hsince ((b.promote_opened_iff now).mp h).1
  revert hpromoted
  cases ok with
  | false =>
    simp only [record, recordFailure, false_eq_true, if_false]
    intro hpromoted
    split
    · exact fun _ => rfl
    · split
      · exact fun _ => rfl
      · exact hpromoted
  | true =>
    simp only [record, recordSuccess, if_true]
    cases hstate : (b.promote now).state with
    | halfOpen => exact fun _ h => CircuitState.noConfusion h
    | opened => exact fun hpromoted _ => hpromoted rfl
    | closed =>
      dsimp only
      split
      · intro _ h
        rw [hstate] at h
        cases h
      · exact fun _ h => CircuitState.noConfusion h

end CircuitBreaker

end StackOwl.Providers
