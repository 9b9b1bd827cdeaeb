import Mathlib.Algebra.Order.Field.Rat
import StackOwl.Authz.Bounds
import StackOwl.Durable.FailureClass
import StackOwl.Providers.ResumeValidation

/-!
# The budget of a turn

After each round of a turn the governor compares what was consumed with the caps on steps, time,
input tokens and cost (`pipeline/budget/governor.py`).  The callback of the round then folds
advice into the messages, asks a present human whether to raise the cap that was reached, or
stops the turn (`pipeline/budget/callback.py`).

A check reads sources of its own: a clock, the time spent on waiting for a human, and the
ledger of the turn.  Floats are rationals.

## Main results

* `check_isSome_iff` — a breach is reported exactly where some axis that is metered stands at
  its cap.
* `limit_raiseCaps` — a raise changes the cap of its own axis only.
-/

namespace StackOwl.Pipeline

open Lib Authz Durable Providers

/-! ## The governor -/

inductive Cap where
  | steps
  | time
  | tokens
  | cost
  deriving DecidableEq

def Cap.text : Cap → String
  | .steps => "steps"
  | .time => "time"
  | .tokens => "tokens"
  | .cost => "cost"

/-- `BudgetGovernor`; `tracked` says that a cost tracker is wired, `waits` a source of waits. -/
structure BudgetGovernor where
  maxSteps : Option Int
  maxTimeS : Option ℚ
  maxCostUsd : Option ℚ
  maxInputTokens : Option Int
  tracked : Bool
  t0 : ℚ
  waits : Bool
  priorCostUsd : ℚ
  priorInputTokens : Int

/-- `__init__`. -/
def BudgetGovernor.new (caps : ResourceCaps) (tracked : Bool) (startedMonotonic : ℚ)
    (priorCostUsd : ℚ) (priorInputTokens : Int) (waits : Bool) : BudgetGovernor where
  maxSteps := caps.maxSteps
  maxTimeS := caps.maxTimeS
  maxCostUsd := caps.maxCostUsd
  maxInputTokens := caps.maxInputTokens
  tracked := tracked
  t0 := startedMonotonic
  waits := waits
  priorCostUsd := max 0 priorCostUsd
  priorInputTokens := max 0 priorInputTokens

/-- What the sources say at a check; `none` for a ledger that cannot be read. -/
structure Readings where
  monotonic : ℚ
  humanWait : ℚ
  turnCostUsd : ℚ
  turnInputTokens : Option Int

variable (iteration : Nat) (toolCalls : Option Nat)

def stepsDone : Int :=
  match toolCalls with
  | none => iteration + 1
  | some calls => max (iteration + 1) calls

variable (g : BudgetGovernor) (r : Readings)

def BudgetGovernor.computeElapsed : ℚ :=
  let elapsed := r.monotonic - g.t0
  max 0 (if g.waits then elapsed - max 0 r.humanWait else elapsed)

def BudgetGovernor.currentInputTokens : Int :=
  g.priorInputTokens + if g.tracked then r.turnInputTokens.getD 0 else 0

def BudgetGovernor.currentCostUsd : ℚ :=
  g.priorCostUsd + if g.tracked then r.turnCostUsd else 0

def BudgetGovernor.stepsRemaining (iteration : Nat) (toolCalls : Option Nat) : Option Int :=
  g.maxSteps.map fun maxSteps => max 0 (maxSteps - stepsDone iteration toolCalls)

/-- `BudgetBreach`, without what the callback adds. -/
structure BudgetBreach where
  cap : Cap
  limit : ℚ
  actual : ℚ

def BudgetGovernor.limit : Cap → Option ℚ
  | .steps => g.maxSteps.map Int.cast
  | .time => g.maxTimeS
  | .tokens => g.maxInputTokens.map Int.cast
  | .cost => g.maxCostUsd

/-- Tokens and cost are checked only where a cost tracker is wired. -/
def BudgetGovernor.metered : Cap → Bool
  | .steps => true
  | .time => true
  | .tokens => g.tracked
  | .cost => g.tracked

def BudgetGovernor.gauge (iteration : Nat) (toolCalls : Option Nat) : Cap → ℚ
  | .steps => stepsDone iteration toolCalls
  | .time => g.computeElapsed r
  | .tokens => g.currentInputTokens r
  | .cost => g.currentCostUsd r

def BudgetGovernor.checkCap (iteration : Nat) (toolCalls : Option Nat) (cap : Cap)
    : Option BudgetBreach :=
  match g.limit cap with
  | none => none
  | some limit =>
    let actual := g.gauge r iteration toolCalls cap
    if g.metered cap = true ∧ limit ≤ actual then some ⟨cap, limit, actual⟩ else none

def BudgetGovernor.check (iteration : Nat) (toolCalls : Option Nat) : Option BudgetBreach :=
  [Cap.steps, .time, .tokens, .cost].findSome? (g.checkCap r iteration toolCalls)

def BudgetGovernor.raiseCaps : Cap → BudgetGovernor
  | .steps => { g with maxSteps := g.maxSteps.map (· * 2 + 1) }
  | .time => { g with maxTimeS := g.maxTimeS.map (· * 2) }
  | .tokens => { g with maxInputTokens := g.maxInputTokens.map (· * 2) }
  | .cost => { g with maxCostUsd := g.maxCostUsd.map (· * 2) }

/-! ## The callback -/

def convergeText (remaining total : Int) : String :=
  "[budget] " ++ toString remaining ++ " step(s) left of " ++ toString total ++
    " for this turn. Stop exploring and converge now: answer with what you already have, " ++
    "and name anything you could not determine. Be concrete and brief. " ++
    "If one more tool call would complete the answer, make that call and then report."

def CONVERGE_AT_FRACTION : ℚ := 3 / 4

def convergeDirective (iteration nCalls : Nat) (alreadySent : Bool) :
    Option String :=
  if alreadySent then none
  else
    match g.stepsRemaining iteration (some nCalls) with
    | none => none
    | some remaining =>
      let done := stepsDone iteration (some nCalls)
      let total := done + remaining
      if total ≤ 0 ∨ remaining ≤ 0 then none
      else if (done : ℚ) / total < CONVERGE_AT_FRACTION then none
      else some (convergeText remaining total)

structure PlanCounts where
  completed : Int
  cancelled : Int
  inProgress : Int
  pending : Int
  total : Int

def planSignature (counts : PlanCounts) : Int × Int × Int × Int :=
  (counts.completed, counts.cancelled, counts.inProgress, counts.pending)

def NO_PROGRESS_STEPS : Int := 5

def MAX_PLAN_NUDGES : Nat := 3

/-- `_NO_PLAN_DIRECTIVE`. -/
def noPlanText (steps : Int) : String :=
  "[plan] You have taken " ++ toString steps ++ " steps and there is no plan for this turn. " ++
    "Write one now with the `todo` capability: the concrete steps you intend to " ++
    "take, then keep their status current as you go. Then continue — do not " ++
    "restate what you have already done."

/-- `_REPLAN_DIRECTIVE`. -/
def replanText (steps : Int) : String :=
  "[plan] No plan item has advanced in " ++ toString steps ++ " steps. The current approach is " ++
    "not working, so revise the plan rather than repeating it: update `todo` with " ++
    "what you have RULED OUT and why, and what you will do differently. Keep " ++
    "everything you have already established — do not start over. If the goal " ++
    "cannot be reached, say so and stop."

/-- The variables of `make_budget_callback`. -/
structure CallbackState where
  convergeSent : Bool := false
  lastSignature : Option (Int × Int × Int × Int) := none
  unchangedSince : Int := 0
  planNudges : Nat := 0

/-- `_progress_directive`; `none` for counts that cannot be had. -/
def progressDirective (cb : CallbackState) (counts : Option PlanCounts) (iteration : Nat) :
    CallbackState × Option String :=
  match counts with
  | none => (cb, none)
  | some counts =>
    if MAX_PLAN_NUDGES ≤ cb.planNudges then (cb, none)
    else if some (planSignature counts) ≠ cb.lastSignature then
      ({ cb with lastSignature := some (planSignature counts), unchangedSince := iteration }, none)
    else
      let stepsStill := iteration - cb.unchangedSince + 1
      if stepsStill < NO_PROGRESS_STEPS then (cb, none)
      else
        ({ cb with unchangedSince := iteration, planNudges := cb.planNudges + 1 },
          some (if counts.total = 0 then noPlanText stepsStill else replanText stepsStill))

def lastAssistantText (messages : List Message) : Text :=
  (messages.reverse.findSome? fun m =>
    match m.get "content" with
    | .str s => if isText (m.get "role") "assistant" then some s else none
    | _ => none).getD []

/-- One character, case folded, as far as a word of plain letters can tell. -/
def foldCase (c : Char) : Char := if c = 'ſ' then 's' else c.toLower

/-- `answer.strip().casefold() == _RAISE.casefold()`. -/
def isRaise (answer : Option String) : Bool :=
  match answer with
  | some text => (strip text.toList).map foldCase = "raise".toList
  | none => false

/-- What the callback comes to: a message that is folded in, or the breach with the partial
work. -/
inductive GateOutcome where
  | folds (text : Option String)
  | stops (breach : BudgetBreach) (partialText : Text) (toolCallRecords : List Message)

def GateOutcome.breach? : GateOutcome → Option BudgetBreach
  | .folds _ => none
  | .stops breach _ _ => some breach

/-- What a round hands to the callback. -/
structure IterState where
  iteration : Nat
  messages : List Message
  toolCallRecords : List Message

/-- `_gate`.  `asks` says that a human is present and there is a gateway to ask; `answer` is what
came back, `none` after a timeout or an error. -/
def gate (asks : Bool) (answer : Option String) (plan : Option PlanCounts) (g : BudgetGovernor)
    (cb : CallbackState) (r : Readings) (s : IterState) :
    BudgetGovernor × CallbackState × GateOutcome :=
  let nCalls := s.toolCallRecords.length
  match g.check r s.iteration (some nCalls) with
  | none =>
    match convergeDirective g s.iteration nCalls cb.convergeSent with
    | some text => (g, { cb with convergeSent := true }, .folds (some text))
    | none =>
      let (cb, progress) := progressDirective cb plan s.iteration
      (g, cb, .folds progress)
  | some breach =>
    if asks = true ∧ isRaise answer = true then (g.raiseCaps breach.cap, cb, .folds none)
    else (g, cb, .stops breach (lastAssistantText s.messages) s.toolCallRecords)

/-! ## Checks and raises -/

variable {g} {r} {iteration} {toolCalls} {breach : BudgetBreach}

theorem checkCap_eq_some_iff {cap : Cap} :
    g.checkCap r iteration toolCalls cap = some breach ↔
      ∃ limit, g.limit cap = some limit ∧ g.metered cap = true ∧
        limit ≤ g.gauge r iteration toolCalls cap ∧
        breach = ⟨cap, limit, g.gauge r iteration toolCalls cap⟩ := by
  rw [BudgetGovernor.checkCap]
  cases g.limit cap with
  | none => simp
  | some limit =>
    by_cases hOver : g.metered cap = true ∧ limit ≤ g.gauge r iteration toolCalls cap
    · simp [hOver, eq_comm]
    · simp only [if_neg hOver]
      constructor
      · rintro ⟨⟩
      · rintro ⟨limit', hLimit, hMetered, hReached, -⟩
        cases hLimit
        exact absurd ⟨hMetered, hReached⟩ hOver

theorem check_eq_some (h : g.check r iteration toolCalls = some breach) :
    g.limit breach.cap = some breach.limit ∧ g.metered breach.cap = true ∧
      breach.limit ≤ breach.actual ∧
      breach.actual = g.gauge r iteration toolCalls breach.cap := by
  obtain ⟨cap, -, hCap⟩ := List.exists_of_findSome?_eq_some h
  obtain ⟨limit, hLimit, hMetered, hReached, rfl⟩ := checkCap_eq_some_iff.mp hCap
  exact ⟨hLimit, hMetered, hReached, rfl⟩

/-- **The brake.** -/
theorem check_isSome_iff (g : BudgetGovernor) (r : Readings) (iteration : Nat)
    (toolCalls : Option Nat) :
    (g.check r iteration toolCalls).isSome = true ↔
      ∃ cap limit, g.limit cap = some limit ∧ g.metered cap = true ∧
        limit ≤ g.gauge r iteration toolCalls cap := by
  constructor
  · intro h
    obtain ⟨breach, hBreach⟩ := Option.isSome_iff_exists.mp h
    obtain ⟨hLimit, hMetered, hReached, hGauge⟩ := check_eq_some hBreach
    exact ⟨breach.cap, breach.limit, hLimit, hMetered, hGauge ▸ hReached⟩
  · rintro ⟨cap, limit, hLimit, hMetered, hReached⟩
    have hCap : g.checkCap r iteration toolCalls cap = some ⟨cap, limit, _⟩ :=
      checkCap_eq_some_iff.mpr ⟨limit, hLimit, hMetered, hReached, rfl⟩
    have hMem : cap ∈ [Cap.steps, .time, .tokens, .cost] := by
      cases cap <;> decide
    rw [BudgetGovernor.check, List.findSome?_isSome_iff]
    exact ⟨cap, hMem, by rw [hCap]; rfl⟩

def Cap.raised (cap : Cap) (limit : ℚ) : ℚ :=
  match cap with
  | .steps => limit * 2 + 1
  | _ => limit * 2

/-- **A raise.**  It changes the cap of its own axis only. -/
theorem limit_raiseCaps (g : BudgetGovernor) (cap other : Cap) :
    (g.raiseCaps cap).limit other =
      if other = cap then (g.limit cap).map cap.raised else g.limit other := by
  by_cases hSame : other = cap
  · subst hSame
    rw [if_pos rfl]
    cases other with
    | time | cost => rfl
    | steps | tokens =>
      simp [BudgetGovernor.raiseCaps, BudgetGovernor.limit, Cap.raised, Option.map_map,
        Function.comp_def]
  · rw [if_neg hSame]
    cases cap <;> cases other <;> first | rfl | exact absurd rfl hSame

end StackOwl.Pipeline
