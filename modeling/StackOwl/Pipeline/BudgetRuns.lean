import Mathlib.Tactic.Linarith
import StackOwl.Lib.Run
import StackOwl.Pipeline.BudgetGovernor

/-!
# The brake over a whole turn

A turn is driven in attempts.  `_run_with_tools` (`pipeline/steps/execute.py`) makes a new
governor for each, with the caps of the owl and with the cost and the tokens that the task row
has of the attempts before; the records of the tool calls are handed on, the rounds and the clock
start over.  After each round the row is written, then the callback decides.  A corrective round
is given back to the `IterationBudget`, and the next one has its index again.

## Main results

* `Tallied.step` — the gauges are what the rounds of the turn consumed, over all attempts.
* `budget_brake` — the brake fires exactly where a gauge stands at its cap; an approved raise lets
  the turn go on, and nothing else does.
-/

namespace StackOwl.Pipeline

open Lib Authz Providers

/-! ## Turns -/

/-- What is the same for all attempts of a turn: the caps, whether a cost tracker is wired, and
whether there is a human to ask. -/
structure TurnSetup where
  caps : ResourceCaps
  tracked : Bool
  asks : Bool

/-- A round of the loop: what it consumes, what the callback is handed, and what the human
answers should the callback ask. -/
structure Round where
  messages : List Message := []
  calls : List Message := []
  tokens : Nat := 0
  cost : ℚ := 0
  cost_nonneg : 0 ≤ cost := by decide
  seconds : ℚ := 0
  waited : ℚ := 0
  answer : Option String := none
  plan : Option PlanCounts := none
  /-- `iter_budget.refund`. -/
  refunded : Bool := false

/-- What the index of the next round is further by. -/
def Round.charged (r : Round) : Nat := if r.refunded then 0 else 1

inductive TurnEvent where
  | round (r : Round)
  /-- The gateway starts over on a stronger tier. -/
  | escalate
  /-- The attempt ended or was parked, and is resumed so much later. -/
  | resume (seconds : ℚ)

/-- A turn in an attempt; `rounds` is the index of the next round, `turnTokens` and `turnCost` are
the ledger of the attempt, `rowTokens` and `rowCost` the task row. -/
structure Turn where
  governor : BudgetGovernor
  callback : CallbackState
  rounds : Nat
  records : List Message
  now : ℚ
  humanWait : ℚ
  turnTokens : Nat
  turnCost : ℚ
  rowTokens : Int
  rowCost : ℚ
  stopped : Option BudgetBreach

variable (setup : TurnSetup)

def TurnSetup.newTurn (started : ℚ) : Turn where
  governor := .new setup.caps setup.tracked started 0 0 true
  callback := {}
  rounds := 0
  records := []
  now := started
  humanWait := 0
  turnTokens := 0
  turnCost := 0
  rowTokens := 0
  rowCost := 0
  stopped := none

variable (t : Turn)

def Turn.readings : Readings :=
  ⟨t.now, t.humanWait, t.turnCost, some t.turnTokens⟩

variable (r : Round)

def Turn.consume : Turn :=
  { t with
    records := t.records ++ r.calls
    now := t.now + r.seconds
    humanWait := t.humanWait + r.waited
    turnTokens := t.turnTokens + r.tokens
    turnCost := t.turnCost + r.cost }

/-- `_persist_cost_cb`. -/
def Turn.persist : Turn :=
  { t with
    rowTokens := max 0 (t.governor.currentInputTokens t.readings)
    rowCost := max 0 (t.governor.currentCostUsd t.readings) }

def TurnSetup.gated :
    BudgetGovernor × CallbackState × GateOutcome :=
  gate setup.asks r.answer r.plan t.governor t.callback (t.consume r).readings
    ⟨t.rounds, r.messages, t.records ++ r.calls⟩

def TurnSetup.complete : Turn :=
  { (t.consume r).persist with
    governor := (setup.gated t r).1
    callback := (setup.gated t r).2.1
    rounds := t.rounds + r.charged
    stopped := (setup.gated t r).2.2.breach? }

def turnStep : TurnEvent → Turn
  | .round r =>
    match t.stopped with
    | some _ => t
    | none => setup.complete t r
  | .escalate =>
    match t.stopped with
    | some _ => t
    | none => { t with rounds := 0, records := [] }
  | .resume seconds =>
    { t with
      governor := .new setup.caps setup.tracked (t.now + seconds) t.rowCost t.rowTokens true
      callback := {}
      rounds := 0
      now := t.now + seconds
      humanWait := 0
      turnTokens := 0
      turnCost := 0
      stopped := none }

/-! ## What was consumed -/

/-- What an observer counts: tokens and cost of all rounds of the turn, the calls since the last
change of the tier, the rounds that were not given back and the time of the attempt. -/
structure Totals where
  tokens : Nat
  cost : ℚ
  calls : Nat
  rounds : Nat
  seconds : ℚ
  waited : ℚ

def noteTurn (total : Totals) : TurnEvent → Totals
  | .round r =>
    match t.stopped with
    | some _ => total
    | none =>
      { tokens := total.tokens + r.tokens
        cost := total.cost + r.cost
        calls := total.calls + r.calls.length
        rounds := total.rounds + r.charged
        seconds := total.seconds + r.seconds
        waited := total.waited + r.waited }
  | .escalate =>
    match t.stopped with
    | some _ => total
    | none => { total with calls := 0, rounds := 0 }
  | .resume _ => { total with rounds := 0, seconds := 0, waited := 0 }

def afterEvents (started : ℚ) (events : List TurnEvent) : Turn × Totals :=
  run (watch (turnStep setup) noteTurn) (setup.newTurn started, ⟨0, 0, 0, 0, 0, 0⟩) events

def Turn.gaugeAfter : Cap → ℚ :=
  t.governor.gauge (t.consume r).readings t.rounds (some (t.records ++ r.calls).length)

def Turn.checkAfter : Option BudgetBreach :=
  t.governor.check (t.consume r).readings t.rounds (some (t.records ++ r.calls).length)

/-- The gauges of a turn are what the observer counted. -/
structure Tallied (setup : TurnSetup) (t : Turn) (total : Totals) : Prop where
  tracked : t.governor.tracked = setup.tracked
  waits : t.governor.waits = true
  tokens : t.governor.currentInputTokens t.readings =
    if setup.tracked then (total.tokens : Int) else 0
  cost : t.governor.currentCostUsd t.readings = if setup.tracked then total.cost else 0
  rowTokens : t.rowTokens = if setup.tracked then (total.tokens : Int) else 0
  rowCost : t.rowCost = if setup.tracked then total.cost else 0
  cost_nonneg : 0 ≤ total.cost
  calls : t.records.length = total.calls
  rounds : t.rounds = total.rounds
  seconds : t.now - t.governor.t0 = total.seconds
  waited : t.humanWait = total.waited

/-! ## Rounds -/

/-- What the callback changes of the governor are its caps. -/
structure SameMeter (g g' : BudgetGovernor) : Prop where
  tracked : g'.tracked = g.tracked
  waits : g'.waits = g.waits
  t0 : g'.t0 = g.t0
  priorCostUsd : g'.priorCostUsd = g.priorCostUsd
  priorInputTokens : g'.priorInputTokens = g.priorInputTokens

theorem SameMeter.refl (g : BudgetGovernor) : SameMeter g g := ⟨rfl, rfl, rfl, rfl, rfl⟩

theorem sameMeter_raiseCaps (g : BudgetGovernor) (cap : Cap) : SameMeter g (g.raiseCaps cap) := by
  cases cap <;> exact ⟨rfl, rfl, rfl, rfl, rfl⟩

variable {g g' : BudgetGovernor}

theorem SameMeter.currentInputTokens (h : SameMeter g g') (r : Readings) :
    g'.currentInputTokens r = g.currentInputTokens r := by
  rw [BudgetGovernor.currentInputTokens, BudgetGovernor.currentInputTokens, h.tracked,
    h.priorInputTokens]

theorem SameMeter.currentCostUsd (h : SameMeter g g') (r : Readings) :
    g'.currentCostUsd r = g.currentCostUsd r := by
  rw [BudgetGovernor.currentCostUsd, BudgetGovernor.currentCostUsd, h.tracked, h.priorCostUsd]

theorem gated_of_none {setup : TurnSetup} {t : Turn} {r : Round} (h : t.checkAfter r = none) :
    (setup.gated t r).1 = t.governor ∧ (setup.gated t r).2.2.breach? = none := by
  have hCheck : t.governor.check (t.consume r).readings t.rounds
      (some (t.records ++ r.calls).length) = none := h
  rw [TurnSetup.gated, gate, hCheck]
  dsimp only
  split
  · exact ⟨rfl, rfl⟩
  · exact ⟨rfl, rfl⟩

variable {setup} {t} {breach : BudgetBreach} {r}

theorem gated_of_some (h : t.checkAfter r = some breach) :
    setup.gated t r =
      if setup.asks = true ∧ isRaise r.answer = true then
        (t.governor.raiseCaps breach.cap, t.callback, .folds none)
      else (t.governor, t.callback,
        .stops breach (lastAssistantText r.messages) (t.records ++ r.calls)) := by
  have hCheck : t.governor.check (t.consume r).readings t.rounds
      (some (t.records ++ r.calls).length) = some breach := h
  rw [TurnSetup.gated, gate, hCheck]

/-- Whatever the callback decides, it reads the same meters afterwards. -/
theorem sameMeter_gated (setup : TurnSetup) (t : Turn) (r : Round) :
    SameMeter t.governor (setup.gated t r).1 := by
  cases hCheck : t.checkAfter r with
  | none =>
    rw [(gated_of_none hCheck).1]
    exact .refl t.governor
  | some breach =>
    rw [gated_of_some hCheck]
    split
    · exact sameMeter_raiseCaps t.governor breach.cap
    · exact .refl t.governor

theorem Tallied.newTurn (setup : TurnSetup) (started : ℚ) :
    Tallied setup (setup.newTurn started) ⟨0, 0, 0, 0, 0, 0⟩ := by
  have hTokens : (setup.newTurn started).governor.currentInputTokens
      (setup.newTurn started).readings = 0 := by
    show max 0 0 + (if setup.tracked then (0 : Int) else 0) = 0
    rw [ite_self]
    rfl
  have hCost : (setup.newTurn started).governor.currentCostUsd
      (setup.newTurn started).readings = 0 := by
    show max 0 0 + (if setup.tracked then (0 : ℚ) else 0) = 0
    rw [ite_self, max_self, add_zero]
  exact
    { tracked := rfl
      waits := rfl
      tokens := hTokens.trans (ite_self 0).symm
      cost := hCost.trans (ite_self 0).symm
      rowTokens := (ite_self (0 : Int)).symm
      rowCost := (ite_self (0 : ℚ)).symm
      cost_nonneg := le_refl 0
      calls := rfl
      rounds := rfl
      seconds := sub_self started
      waited := rfl }

variable {total : Totals}

theorem Tallied.consume (h : Tallied setup t total) (r : Round) :
    t.governor.currentInputTokens (t.consume r).readings =
        (if setup.tracked then ((total.tokens + r.tokens : Nat) : Int) else 0) ∧
      t.governor.currentCostUsd (t.consume r).readings =
        if setup.tracked then total.cost + r.cost else 0 := by
  have hTokens := h.tokens
  have hCost := h.cost
  simp only [BudgetGovernor.currentInputTokens, BudgetGovernor.currentCostUsd, h.tracked,
    Turn.readings, Turn.consume, Option.getD_some] at hTokens hCost ⊢
  cases hTracked : setup.tracked with
  | false =>
    rw [hTracked] at hTokens hCost
    exact ⟨hTokens, hCost⟩
  | true =>
    simp only [hTracked, if_true] at hTokens hCost ⊢
    constructor
    · omega
    · linarith

/-- **One event.** -/
theorem Tallied.step (h : Tallied setup t total) (e : TurnEvent) :
    Tallied setup (turnStep setup t e) (noteTurn t total e) := by
  cases e with
  | round r =>
    rw [turnStep, noteTurn]
    cases t.stopped with
    | some breach => exact h
    | none =>
      dsimp only
      have hMeter := sameMeter_gated setup t r
      obtain ⟨hTokens, hCost⟩ := h.consume r
      have hNonneg : 0 ≤ total.cost + r.cost := add_nonneg h.cost_nonneg r.cost_nonneg
      exact
        { tracked := hMeter.tracked.trans h.tracked
          waits := hMeter.waits.trans h.waits
          tokens := (hMeter.currentInputTokens _).trans hTokens
          cost := (hMeter.currentCostUsd _).trans hCost
          rowTokens := by
            show max 0 (t.governor.currentInputTokens (t.consume r).readings) = _
            rw [hTokens]
            apply max_eq_right
            split <;> omega
          rowCost := by
            show max 0 (t.governor.currentCostUsd (t.consume r).readings) = _
            rw [hCost]
            apply max_eq_right
            split
            · exact hNonneg
            · exact le_refl 0
          cost_nonneg := hNonneg
          calls := by
            show (t.records ++ r.calls).length = _
            rw [List.length_append, h.calls]
          rounds := congrArg (· + r.charged) h.rounds
          seconds := by
            show t.now + r.seconds - (setup.gated t r).1.t0 = total.seconds + r.seconds
            have hSeconds := h.seconds
            rw [hMeter.t0]
            linarith
          waited := congrArg (· + r.waited) h.waited }
  | escalate =>
    rw [turnStep, noteTurn]
    cases t.stopped with
    | some breach => exact h
    | none => exact { h with calls := rfl, rounds := rfl }
  | resume seconds =>
    have hRowTokens := h.rowTokens
    have hRowCost := h.rowCost
    exact
      { tracked := rfl
        waits := rfl
        tokens := by
          show max 0 t.rowTokens + (if setup.tracked then (0 : Int) else 0) =
            if setup.tracked then (total.tokens : Int) else 0
          rw [hRowTokens]
          split <;> omega
        cost := by
          show max 0 t.rowCost + (if setup.tracked then (0 : ℚ) else 0) =
            if setup.tracked then total.cost else 0
          rw [hRowCost, ite_self, add_zero]
          apply max_eq_right
          split
          · exact h.cost_nonneg
          · exact le_refl 0
        rowTokens := hRowTokens
        rowCost := hRowCost
        cost_nonneg := h.cost_nonneg
        calls := h.calls
        rounds := rfl
        seconds := sub_self _
        waited := rfl }

/-- **Every turn.** -/
theorem tallied_afterEvents (setup : TurnSetup) (started : ℚ) (events : List TurnEvent) :
    Tallied setup (afterEvents setup started events).1 (afterEvents setup started events).2 := by
  have hStart : Tallied setup (setup.newTurn started) ⟨0, 0, 0, 0, 0, 0⟩ :=
    Tallied.newTurn setup started
  have hAll : Along (watch (turnStep setup) noteTurn) (fun s => Tallied setup s.1 s.2)
      (setup.newTurn started, ⟨0, 0, 0, 0, 0, 0⟩) events :=
    along_of_inv (I := fun s : Turn × Totals => Tallied setup s.1 s.2)
      (fun s e h => h.step e) hStart events
  exact hAll.last

/-! ## The brake -/

/-- What holds at the end of a round of a turn that goes on so far. -/
structure Brakes (setup : TurnSetup) (t : Turn) (total : Totals) (r : Round) : Prop where
  fires : (t.checkAfter r).isSome = true ↔ ∃ cap limit, t.governor.limit cap = some limit ∧
    t.governor.metered cap = true ∧ limit ≤ t.gaugeAfter r cap
  metered : ∀ cap, t.governor.metered cap = true ↔
    cap = .steps ∨ cap = .time ∨ setup.tracked = true
  steps : t.gaugeAfter r .steps =
    max (total.rounds + 1 : ℚ) ((total.calls + r.calls.length : Nat) : ℚ)
  time : t.gaugeAfter r .time =
    max 0 (total.seconds + r.seconds - max 0 (total.waited + r.waited))
  tokens : setup.tracked = true → t.gaugeAfter r .tokens = ((total.tokens + r.tokens : Nat) : ℚ)
  cost : setup.tracked = true → t.gaugeAfter r .cost = total.cost + r.cost
  goesOn : t.checkAfter r = none → (turnStep setup t (.round r)).stopped = none ∧
    (turnStep setup t (.round r)).governor = t.governor
  stops : ∀ breach, t.checkAfter r = some breach →
    ¬ (setup.asks = true ∧ isRaise r.answer = true) →
    (turnStep setup t (.round r)).stopped = some breach ∧
    ∀ next, turnStep setup (turnStep setup t (.round r)) (.round next) =
      turnStep setup t (.round r)
  raises : ∀ breach, t.checkAfter r = some breach →
    setup.asks = true → isRaise r.answer = true →
    (turnStep setup t (.round r)).stopped = none ∧
    (∀ next, (turnStep setup (turnStep setup t (.round r)) (.round next)).rounds =
        (turnStep setup t (.round r)).rounds + next.charged ∧
      (turnStep setup (turnStep setup t (.round r)) (.round next)).records =
        (turnStep setup t (.round r)).records ++ next.calls) ∧
    (∀ cap, cap ≠ breach.cap →
      (turnStep setup t (.round r)).governor.limit cap = t.governor.limit cap) ∧
    (turnStep setup t (.round r)).governor.limit breach.cap =
      some (breach.cap.raised breach.limit)
  raisedAbove : ∀ breach, t.checkAfter r = some breach →
    setup.asks = true → isRaise r.answer = true →
    (if breach.cap = .steps then t.gaugeAfter r breach.cap ≤ 2 * breach.limit
      else t.gaugeAfter r breach.cap < 2 * breach.limit) →
    ∃ limit, (turnStep setup t (.round r)).governor.limit breach.cap = some limit ∧
      t.gaugeAfter r breach.cap < limit

theorem turnStep_round (h : t.stopped = none) (r : Round) :
    turnStep setup t (.round r) = setup.complete t r := by
  rw [turnStep, h]

theorem turnStep_of_stopped (h : t.stopped = some breach) (r : Round) :
    turnStep setup t (.round r) = t := by
  rw [turnStep, h]

theorem raised_of_approved (hRunning : t.stopped = none) (hBreach : t.checkAfter r = some breach)
    (hAsks : setup.asks = true) (hAnswer : isRaise r.answer = true) :
    (turnStep setup t (.round r)).stopped = none ∧
      (turnStep setup t (.round r)).governor = t.governor.raiseCaps breach.cap ∧
      (turnStep setup t (.round r)).governor.limit breach.cap =
        some (breach.cap.raised breach.limit) := by
  have hGated : setup.gated t r = (t.governor.raiseCaps breach.cap, t.callback, .folds none) := by
    rw [gated_of_some hBreach, if_pos ⟨hAsks, hAnswer⟩]
  have hStopped : (turnStep setup t (.round r)).stopped = none := by
    rw [turnStep_round hRunning]
    show (setup.gated t r).2.2.breach? = none
    rw [hGated]
    rfl
  have hGovernor : (turnStep setup t (.round r)).governor =
      t.governor.raiseCaps breach.cap := by
    rw [turnStep_round hRunning]
    show (setup.gated t r).1 = _
    rw [hGated]
  refine ⟨hStopped, hGovernor, ?_⟩
  rw [hGovernor, limit_raiseCaps, if_pos rfl, (check_eq_some hBreach).1]
  rfl

theorem Tallied.brakes (h : Tallied setup t total) (hRunning : t.stopped = none) (r : Round) :
    Brakes setup t total r where
  fires := check_isSome_iff t.governor (t.consume r).readings t.rounds _
  metered cap := by
    cases cap with
    | steps | time => simp [BudgetGovernor.metered]
    | tokens | cost => simp [BudgetGovernor.metered, h.tracked]
  steps := by
    have hCalls : (t.records ++ r.calls).length = total.calls + r.calls.length := by
      rw [List.length_append, h.calls]
    show ((stepsDone t.rounds (some (t.records ++ r.calls).length) : Int) : ℚ) = _
    rw [hCalls, h.rounds, stepsDone]
    push_cast
    rfl
  time := by
    show max 0 (if t.governor.waits then
      t.now + r.seconds - t.governor.t0 - max 0 (t.humanWait + r.waited)
      else t.now + r.seconds - t.governor.t0) = _
    have hSeconds : t.now + r.seconds - t.governor.t0 = total.seconds + r.seconds := by
      have hBefore := h.seconds
      linarith
    rw [h.waits, if_pos rfl, hSeconds, h.waited]
  tokens hTracked := by
    have hTokens := (h.consume r).1
    rw [if_pos hTracked] at hTokens
    show ((t.governor.currentInputTokens (t.consume r).readings : Int) : ℚ) = _
    rw [hTokens]
    rfl
  cost hTracked := by
    have hCost := (h.consume r).2
    rw [if_pos hTracked] at hCost
    exact hCost
  goesOn hNone := by
    rw [turnStep_round hRunning]
    obtain ⟨hGovernor, hOutcome⟩ := @gated_of_none setup t r hNone
    exact ⟨hOutcome, hGovernor⟩
  stops breach hBreach hAnswer := by
    have hStopped : (turnStep setup t (.round r)).stopped = some breach := by
      rw [turnStep_round hRunning]
      show (setup.gated t r).2.2.breach? = some breach
      rw [gated_of_some hBreach, if_neg hAnswer]
      rfl
    exact ⟨hStopped, fun next => turnStep_of_stopped hStopped next⟩
  raises breach hBreach hAsks hAnswer := by
    obtain ⟨hStopped, hGovernor, hLimit⟩ := raised_of_approved hRunning hBreach hAsks hAnswer
    refine ⟨hStopped, fun next => ?_, fun cap hOther => ?_, hLimit⟩
    · rw [turnStep_round hStopped]
      exact ⟨rfl, rfl⟩
    · rw [hGovernor, limit_raiseCaps, if_neg hOther]
  raisedAbove breach hBreach hAsks hAnswer hBelow := by
    refine ⟨_, (raised_of_approved hRunning hBreach hAsks hAnswer).2.2, ?_⟩
    cases hCap : breach.cap with
    | steps =>
      rw [if_pos hCap, hCap] at hBelow
      show t.gaugeAfter r .steps < breach.limit * 2 + 1
      linarith
    | time | tokens | cost =>
      rw [if_neg (by rw [hCap]; decide), hCap] at hBelow
      exact hBelow.trans_eq (mul_comm 2 breach.limit)

/-- **The brake.**  After any events of a turn that goes on so far, and for any next round: the
brake fires exactly where the gauge of an axis that is metered stands at its cap; calls, tokens
and cost are counted over all attempts, rounds and time over this one; without an approval no
further round is completed; an approved raise lets the turn go on, changes no other cap, and puts
the cap above what was consumed wherever that is below twice the cap, or at it for steps. -/
theorem budget_brake (setup : TurnSetup) (started : ℚ) (events : List TurnEvent) (r : Round)
    (hRunning : (afterEvents setup started events).1.stopped = none) :
    Brakes setup (afterEvents setup started events).1 (afterEvents setup started events).2 r :=
  (tallied_afterEvents setup started events).brakes hRunning r

def twoSteps : TurnSetup := ⟨{ maxSteps := some 2 }, true, false⟩

theorem budget_brake_twoSteps :
    Brakes twoSteps (afterEvents twoSteps 0 [.round {}]).1 (afterEvents twoSteps 0 [.round {}]).2
      {} :=
  budget_brake twoSteps 0 [.round {}] {} (by decide +kernel)

/-- No input token is allowed, and a human is there to ask. -/
def noTokens : TurnSetup := ⟨{ maxInputTokens := some 0 }, true, true⟩

/-- **Rounds start over, and twice nothing is nothing.**  A turn of two steps has completed two
rounds, with a resume between them, and goes on; an approved raise of a cap of zero leaves it at
what was consumed. -/
theorem rounds_start_over :
    (afterEvents twoSteps 0 [.round {}, .resume 0, .round {}]).1.stopped = none ∧
      (twoSteps.newTurn 0).governor.limit .steps = some 2 ∧
      ((noTokens.newTurn 0).checkAfter { answer := some "Raise" }).isSome = true ∧
      (afterEvents noTokens 0 [.round { answer := some "Raise" }]).1.stopped = none ∧
      (afterEvents noTokens 0 [.round { answer := some "Raise" }]).1.governor.limit .tokens =
        some ((noTokens.newTurn 0).gaugeAfter { answer := some "Raise" } .tokens) := by
  decide +kernel

end StackOwl.Pipeline
