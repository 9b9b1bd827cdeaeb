import Mathlib.Data.List.Basic
import StackOwl.Authz.Delegation
import StackOwl.Durable.Ledger

/-!
# The delegation ladder

`DelegateTaskTool._run_delegation` (`tools/agents/delegate_task.py`): one attempt on
the owl delegated to, then at most one more on the same owl and one on the secretary.
What a child run does is an input of the ladder: the tools it ran before it ended,
and how it ended.  A side-effecting tool of a durable child is ledgered as it runs
(`ledger_guard`), under the one child id all attempts share.

The gate between the first attempt and the second reads what the child's record
says (durable parent) or what the owl may run (any other).  Nothing is read again
between the second attempt and the third.

## Main results

* `ladder_careful_iff` — the ladders that repeat nothing that may have acted, and
  call a child done only on effects whose coupling is declared.
* `bounded_attempt_is_safe` — a bounded owl that passes the gate of a non-durable
  parent can run no side-effecting tool but a router tool.
-/

namespace StackOwl.Agents

open Authz
open Durable (LedgerStatus TaskStatus)

/-! ## Tools and their effects -/

inductive ActionSeverity where
  | read
  | write
  | consequential
  deriving DecidableEq

/-- `ToolManifest.commit_coupling`; a manifest that declares none has `none`. -/
inductive CommitCoupling where
  | transactional
  | idempotentKeyed
  | unconfirmed
  deriving DecidableEq

/-- The fields of `ToolManifest` the ladder and the ledger guard read. -/
structure ToolManifest where
  actionSeverity : ActionSeverity
  commitCoupling : Option CommitCoupling := none

/-- `ToolRegistry.get`. -/
abbrev ToolRegistry := String → Option ToolManifest

def SIDE_EFFECT_SEVERITIES : List ActionSeverity := [.write, .consequential]

/-- `is_side_effecting` of the ledger: everything but a read is guarded. -/
def isSideEffecting (severity : ActionSeverity) : Bool := severity ≠ .read

theorem mem_SIDE_EFFECT_SEVERITIES (severity : ActionSeverity) :
    severity ∈ SIDE_EFFECT_SEVERITIES ↔ isSideEffecting severity = true := by
  cases severity <;> decide

variable (toolRegistry : Option ToolRegistry)

/-- The coupling a ledgered tool is read with: no registry, a tool that is no longer
in it and a manifest without one are all undeclared. -/
def couplingOf (toolName : String) :
    Option CommitCoupling :=
  (toolRegistry.bind (· toolName)).bind (·.commitCoupling)

/-- The couplings under which an effect can be told to have happened once. -/
def SAFE_COUPLINGS : List (Option CommitCoupling) :=
  [some .transactional, some .idempotentKeyed]

/-- One tool call a child run made: it came back, or the run ended inside it. -/
structure ToolUse where
  toolName : String
  cameBack : Bool
  deriving DecidableEq

/-- One row of the child's ledger, as the ladder reads it. -/
structure LedgerEntry where
  toolName : String
  status : LedgerStatus

/-- The call runs a side-effecting tool: only a registered tool runs. -/
def ToolUse.acts (use : ToolUse) : Bool :=
  match toolRegistry.bind (· use.toolName) with
  | none => false
  | some manifest => isSideEffecting manifest.actionSeverity

/-- What `ledger_guard` leaves of a call under a durable child. -/
def ToolUse.entry (use : ToolUse) : LedgerEntry :=
  { toolName := use.toolName
    status := if use.cameBack then .committed else .intent }

/-! ## What an attempt ends with -/

inductive DelegationStatus where
  | ok
  | empty
  | timeout
  | childError
  | truncated
  | refused
  | cycle
  | targetNotFound
  | offTopic
  deriving DecidableEq

def DelegationStatus.text : DelegationStatus → String
  | .ok => "ok"
  | .empty => "empty"
  | .timeout => "timeout"
  | .childError => "child_error"
  | .truncated => "truncated"
  | .refused => "refused"
  | .cycle => "cycle"
  | .targetNotFound => "target_not_found"
  | .offTopic => "off_topic"

def RETRIABLE : List DelegationStatus := [.timeout, .empty, .childError]

/-- An attempt with this status may be made again. -/
def redelegatable (status : DelegationStatus) : Bool :=
  status == .offTopic || decide (status ∈ RETRIABLE)

structure A2AResult where
  status : DelegationStatus
  content : String := ""
  childDetail : String := ""
  resolvedOwl : String := ""
  deriving DecidableEq

/-- How `delegate` ends: it raises, it returns something that is no `A2AResult`, or
it returns one, with the verdict of the relevance gate on it (the reason it was found
off topic, or none). -/
inductive Outcome where
  | raised (error : String)
  | notAResult
  | returned (res : A2AResult) (offTopic : Option String)

/-- One child run: the tools it called, in order, and how it ended. -/
structure ChildRun where
  calls : List ToolUse
  outcome : Outcome

variable (run : ChildRun)

def ChildRun.effects :
    List ToolUse :=
  run.calls.filter (·.acts toolRegistry)

/-- `_relevance_gate`: only an `ok` is judged. -/
def relevanceGate (res : A2AResult) (offTopic : Option String) : A2AResult :=
  if res.status = .ok then
    match offTopic with
    | none => res
    | some reason => { res with status := .offTopic, childDetail := reason }
  else res

/-! ## What the caller is told -/

/-- `ToolResult` of this tool: the record of its payload, with the note a success
carries and the error a failure does. -/
structure ToolResult where
  success : Bool
  record : List (String × String)
  note : String := ""
  error : String := ""

variable (target : String)

def provenanceFooter : String :=
  "\n\n— delegated to '" ++ target ++ "' (sub-run); result above is " ++ target ++
    "'s, not the caller's."

def okResult (record : List (String × String)) (note : String) : ToolResult :=
  { success := true, record, note }

def honestFailedResult (record : List (String × String)) (msg : String) : ToolResult :=
  { success := false, record, error := msg }

def childErrorResult (detail : String) : ToolResult :=
  okResult
    [("status", "child_error"), ("to_owl", target),
      ("detail", "specialist '" ++ target ++ "' failed (specialist detail (untrusted): " ++
        detail ++ "); do NOT delegate again — handle it yourself or tell the user."),
      ("result", "")]
    (target ++ " failed")

def truncatedResult (result : String) : ToolResult :=
  okResult
    [("status", "truncated"), ("to_owl", target), ("result", result),
      ("detail", target ++ "'s answer was cut off by a resource cap; treat as INCOMPLETE.")]
    (target ++ " answer truncated")

def recoveredResult (original via result : String) : ToolResult :=
  okResult
    [("status", "recovered_via_secretary"), ("to_owl", via), ("original", original),
      ("result", "[" ++ original ++ " was unavailable, so " ++ via ++
        " handled this instead:]\n" ++ result ++ provenanceFooter via)]
    ("recovered: " ++ via ++ " handled the sub-task after " ++ original ++ " failed")

def honestUncertainResult : ToolResult :=
  let msg := "FAILED — delegation to '" ++ target ++
    "' did not complete and may have partially performed a consequential action; it was " ++
    "NOT retried to avoid duplicating it. Do NOT retry automatically — verify state, or " ++
    "re-issue explicitly if safe."
  honestFailedResult [("status", "uncertain"), ("to_owl", target), ("result", msg)] msg

def honestOfftopicWriteResult : ToolResult :=
  let msg := "FAILED — '" ++ target ++
    "' completed but its response did not address your request, and because it can " ++
    "perform consequential actions it was NOT re-delegated (it may have already acted). " ++
    "Verify state before retrying; do NOT auto-retry."
  honestFailedResult [("status", "off_topic"), ("to_owl", target), ("result", msg)] msg

def honestIrrelevantResult : ToolResult :=
  let msg := "FAILED — the delegated response(s) did not address your request and no " ++
    "available specialist could answer it. Do NOT retry this delegation. Handle it " ++
    "directly with your own knowledge/tools, or rephrase the sub-task more concretely."
  honestFailedResult [("status", "irrelevant"), ("result", msg)] msg

def mapTerminal (result : A2AResult) (target : String) : ToolResult :=
  match result.status with
  | .ok =>
    okResult
      [("status", "ok"), ("to_owl", target), ("result", result.content ++ provenanceFooter target)]
      (target ++ " handled the sub-task")
  | .empty =>
    okResult [("status", "empty"), ("to_owl", target), ("result", "")]
      (target ++ " produced no result")
  | .truncated => truncatedResult target result.content
  | _ =>
    childErrorResult target
      (if result.childDetail = "" then result.status.text else result.childDetail)

/-- `_map_terminal_or_persisted`: `persisted` is what the child's row has as its
result, `none` where it could not be read. -/
def mapTerminalOrPersisted (result : A2AResult) (target : String)
    (persisted : Option (Option String)) : ToolResult :=
  if result.status = .ok then mapTerminal result target
  else
    match persisted with
    | none | some none | some (some "") => honestUncertainResult target
    | some (some text) =>
      okResult
        [("status", "ok"), ("to_owl", target), ("result", text ++ provenanceFooter target)]
        (target ++ " completed durably (reused persisted result)")

/-! ## The gate -/

/-- `_can_side_effect`: what cannot be verified counts as side-effecting. -/
def canSideEffect (owlName : String) (owlRegistry : Option OwlRegistry)
    (toolRegistry : Option ToolRegistry) : Bool :=
  match resolveOwlBounds owlName owlRegistry with
  | none => true
  | some bounds =>
    match bounds.tools with
    | none => true
    | some tools =>
      match toolRegistry with
      | none => true
      | some get =>
        decide (∃ name ∈ tools,
          (get name).any (decide <| ·.actionSeverity ∈ SIDE_EFFECT_SEVERITIES) = true)

/-- The facts of `_child_ledger_facts`. -/
structure LedgerFacts where
  childStarted : Bool
  hasUncertainEffect : Bool
  hasUncommittedIntent : Bool
  childTerminal : Bool

/-- `_child_ledger_facts`: `childStatus` is the status on the child's row, `none` where
the store failed. -/
def childLedgerFacts (rows : List LedgerEntry) (childStatus : Option TaskStatus) : LedgerFacts :=
  match childStatus with
  | none => ⟨true, true, true, false⟩
  | some status =>
    { childStarted := !rows.isEmpty
      hasUncertainEffect :=
        rows.any fun r => couplingOf toolRegistry r.toolName == some .unconfirmed
      hasUncommittedIntent :=
        rows.any fun r =>
          r.status != .committed &&
            !decide (couplingOf toolRegistry r.toolName ∈ SAFE_COUPLINGS)
      childTerminal := decide (status ∈ [.completed, .failed]) }

inductive CommitCouplingAnswer where
  | done
  | safeRetry
  | honestUncertain
  deriving DecidableEq

def resolveCommitCouplingAnswer (facts : LedgerFacts) : CommitCouplingAnswer :=
  if !facts.childStarted then .safeRetry
  else if facts.hasUncertainEffect || facts.hasUncommittedIntent then .honestUncertain
  else if facts.childTerminal then .done
  else .honestUncertain

/-! ## The ladder -/

/-- What one call of `_run_delegation` is given. -/
structure Delegation where
  caller : String
  target : String
  chain : List String
  /-- `registry.secretary_name()`, `none` without a registry. -/
  secretary : Option String
  /-- `durable_scope.child_task_id is not None`. -/
  durable : Bool
  owlRegistry : Option OwlRegistry
  toolRegistry : Option ToolRegistry

/-- What the durable store holds of the child when the gate reads it: the rows
an earlier drive of the same child left, its status, and its stored result. -/
structure ChildRecord where
  earlier : List LedgerEntry := []
  childStatus : Option TaskStatus := some .running
  persisted : Option (Option String) := some none

/-- The three runs a ladder can make. -/
structure Runs where
  first : ChildRun
  retry : ChildRun
  fallback : ChildRun

structure Rung where
  toOwl : String
  run : ChildRun

/-- The memo of `_run_delegation`, and the attempts made so far.  The sub-task is one
for the whole ladder, so the memo is keyed by the owl. -/
structure Climb where
  memo : List (String × A2AResult) := []
  made : List Rung := []

variable (climb : Climb) (toOwl : String)

/-- What the memo replays: only an `ok`. -/
def Climb.recall : Option A2AResult :=
  (climb.memo.lookup toOwl).filter (·.status = .ok)

def attempt (run : ChildRun) :
    Climb × Except ToolResult A2AResult :=
  match climb.recall toOwl with
  | some cached => (climb, .ok cached)
  | none =>
    let climb := { climb with made := climb.made ++ [⟨toOwl, run⟩] }
    match run.outcome with
    | .raised error =>
      (climb, .error (okResult
        [("status", "error"), ("to_owl", toOwl), ("detail", error)]
        ("delegation to " ++ toOwl ++ " failed")))
    | .notAResult =>
      let res : A2AResult :=
        { status := .childError, resolvedOwl := toOwl, childDetail := "non-A2AResult return" }
      ({ climb with memo := (toOwl, res) :: climb.memo }, .ok res)
    | .returned res offTopic =>
      let res := relevanceGate res offTopic
      ({ climb with memo := (toOwl, res) :: climb.memo }, .ok res)

/-- What a ladder ends with: the attempts it made, whether it stamped the child
superseded, whether the child's record answered for it, the result, and the clean
success signal the child is terminalized by. -/
structure Report where
  made : List Rung
  superseded : Bool := false
  childDone : Bool := false
  result : ToolResult
  terminalOk : Bool := false

variable (d : Delegation)

/-- `_terminalize_durable_child`: the status the parent stamps, if it stamps one. -/
def Report.childStatus (report : Report) (d : Delegation) : Option TaskStatus :=
  if d.durable then some (if report.terminalOk then .completed else .failed) else none

/-- The fallback is a different owl, outside the chain. -/
def Delegation.fallbackOwl : Option String :=
  d.secretary.filter fun secretary =>
    secretary ≠ d.caller ∧ secretary ≠ d.target ∧ secretary ∉ d.chain

variable (runs : Runs)

def fallBack (climb : Climb) : Report :=
  match d.fallbackOwl with
  | none => { made := climb.made, superseded := d.durable, result := honestIrrelevantResult }
  | some secretary =>
    match attempt climb secretary runs.fallback with
    | (climb, .error result) =>
      { made := climb.made, superseded := d.durable, result }
    | (climb, .ok fb) =>
      if fb.status = .ok then
        { made := climb.made, superseded := d.durable,
          result := recoveredResult d.target secretary fb.content, terminalOk := true }
      else
        { made := climb.made, superseded := d.durable, result := honestIrrelevantResult }

def climbOn (climb : Climb) (result : A2AResult) :
    Report :=
  if result.status ∈ RETRIABLE then
    match attempt climb d.target runs.retry with
    | (climb, .error result) =>
      { made := climb.made, superseded := d.durable, result }
    | (climb, .ok result) =>
      if result.status = .ok then
        { made := climb.made, superseded := d.durable,
          result := mapTerminal result d.target, terminalOk := true }
      else if redelegatable result.status then fallBack d runs climb
      else
        { made := climb.made, superseded := d.durable,
          result := mapTerminal result d.target }
  else fallBack d runs climb

variable (record : ChildRecord)

def ledgerAfter (run : ChildRun) :
    List LedgerEntry :=
  record.earlier ++ (run.effects d.toolRegistry).map (·.entry)

/-- What the gate answers: a non-durable parent goes by what the owl may run. -/
def gate (run : ChildRun) :
    CommitCouplingAnswer :=
  if d.durable then
    resolveCommitCouplingAnswer
      (childLedgerFacts d.toolRegistry (ledgerAfter d record run) record.childStatus)
  else if canSideEffect d.target d.owlRegistry d.toolRegistry then .honestUncertain
  else .safeRetry

/-- `_resolve`. -/
def ladder (runs : Runs) : Report :=
  match attempt {} d.target runs.first with
  | (climb, .error result) => { made := climb.made, result }
  | (climb, .ok result) =>
    if result.status = .ok then
      { made := climb.made, result := mapTerminal result d.target, terminalOk := true }
    else if redelegatable result.status = false then
      { made := climb.made, result := mapTerminal result d.target }
    else
      match gate d record runs.first with
      | .done =>
        { made := climb.made, childDone := true,
          result := mapTerminalOrPersisted result d.target record.persisted,
          terminalOk := true }
      | .honestUncertain =>
        { made := climb.made
          result :=
            if result.status = .offTopic then honestOfftopicWriteResult d.target
            else honestUncertainResult d.target }
      | .safeRetry => climbOn d runs climb result

/-! ## Which attempts a ladder makes -/

def ended (run : ChildRun) : Except ToolResult A2AResult :=
  (attempt {} toOwl run).2

theorem attempt_of_recall {toOwl : String} (h : climb.recall toOwl = none) (run : ChildRun) :
    (attempt climb toOwl run).2 = ended toOwl run ∧
      (attempt climb toOwl run).1.made = climb.made ++ [⟨toOwl, run⟩] ∧
      (attempt climb toOwl run).1.memo =
        match ended toOwl run with
        | .error _ => climb.memo
        | .ok res => (toOwl, res) :: climb.memo := by
  have hnew : ({} : Climb).recall toOwl = none := rfl
  unfold ended attempt
  rw [h, hnew]
  cases run.outcome <;> exact ⟨rfl, rfl, rfl⟩

/-- An answer that is not an `ok` is never replayed. -/
theorem recall_self (memo : List (String × A2AResult)) (made : List Rung)
    (toOwl : String) {res : A2AResult} (h : res.status ≠ .ok) :
    (Climb.mk ((toOwl, res) :: memo) made).recall toOwl = none := by
  simp [Climb.recall, h]

/-- Another owl's answer is never replayed. -/
theorem recall_ne (memo : List (String × A2AResult)) (made : List Rung)
    (res : A2AResult) {toOwl other : String} (h : other ≠ toOwl) :
    (Climb.mk ((toOwl, res) :: memo) made).recall other =
      (Climb.mk memo made).recall other := by
  simp [Climb.recall, List.lookup_cons, beq_false_of_ne h]

theorem status_ne_ok_of_redelegatable {status : DelegationStatus}
    (h : redelegatable status = true) : status ≠ .ok := by
  rintro rfl
  exact absurd h (by decide)

variable {d}

theorem fallbackOwl_ne {secretary : String} (h : d.fallbackOwl = some secretary) :
    secretary ≠ d.target := by
  have := (Option.filter_eq_some_iff.mp h).2
  simp only [decide_eq_true_eq] at this
  exact this.2.1

def lastRung (d : Delegation) (runs : Runs) : List Rung :=
  (d.fallbackOwl.map fun secretary => Rung.mk secretary runs.fallback).toList

theorem fallBack_made (climb : Climb)
    (h : ∀ secretary, d.fallbackOwl = some secretary → climb.recall secretary = none) :
    (fallBack d runs climb).made = climb.made ++ lastRung d runs ∧
      (fallBack d runs climb).childDone = false := by
  unfold fallBack lastRung
  cases howl : d.fallbackOwl with
  | none => exact ⟨(List.append_nil _).symm, rfl⟩
  | some secretary =>
    have hmade := (attempt_of_recall climb (h secretary howl) runs.fallback).2.1
    dsimp only
    generalize attempt climb secretary runs.fallback = out at hmade ⊢
    obtain ⟨climb', error | fb⟩ := out
    · exact ⟨hmade, rfl⟩
    · dsimp only
      split
      · exact ⟨hmade, rfl⟩
      · exact ⟨hmade, rfl⟩

def laterRungs (d : Delegation) (runs : Runs) (status : DelegationStatus) : List Rung :=
  if status ∈ RETRIABLE then
    ⟨d.target, runs.retry⟩ ::
      match ended d.target runs.retry with
      | .error _ => []
      | .ok retry => if redelegatable retry.status = true then lastRung d runs else []
  else lastRung d runs

theorem climbOn_made (d : Delegation) (runs : Runs) (made : List Rung)
    {first : A2AResult} (hok : first.status ≠ .ok) :
    (climbOn d runs ⟨[(d.target, first)], made⟩ first).made =
        made ++ laterRungs d runs first.status ∧
      (climbOn d runs ⟨[(d.target, first)], made⟩ first).childDone = false := by
  have hother : ∀ made secretary, d.fallbackOwl = some secretary →
      (Climb.mk [(d.target, first)] made).recall secretary = none :=
    fun made secretary howl => recall_ne [] made first (fallbackOwl_ne howl)
  unfold climbOn laterRungs
  by_cases hretry : first.status ∈ RETRIABLE
  · obtain ⟨hended, hmade, hmemo⟩ :=
      attempt_of_recall _ (recall_self [] made d.target hok) runs.retry
    rw [if_pos hretry, if_pos hretry]
    generalize attempt _ d.target runs.retry = out at hended hmade hmemo ⊢
    obtain ⟨⟨memo', made'⟩, error | retry⟩ := out
    · rw [← hended]
      exact ⟨hmade, rfl⟩
    · rw [← hended] at hmemo ⊢
      obtain rfl : memo' = (d.target, retry) :: [(d.target, first)] := hmemo
      obtain rfl : made' = made ++ [⟨d.target, runs.retry⟩] := hmade
      dsimp only
      by_cases hok' : retry.status = .ok
      · rw [if_pos hok', if_neg (fun h => status_ne_ok_of_redelegatable h hok')]
        exact ⟨rfl, rfl⟩
      · rw [if_neg hok']
        by_cases hredo : redelegatable retry.status = true
        · rw [if_pos hredo, if_pos hredo]
          obtain ⟨hlast, hdone⟩ := fallBack_made runs
            ⟨(d.target, retry) :: [(d.target, first)], made ++ [⟨d.target, runs.retry⟩]⟩
            fun secretary howl =>
              (recall_ne _ _ retry (fallbackOwl_ne howl)).trans (hother _ secretary howl)
          exact ⟨hlast.trans (by simp), hdone⟩
        · rw [if_neg hredo, if_neg hredo]
          exact ⟨rfl, rfl⟩
  · rw [if_neg hretry, if_neg hretry]
    exact fallBack_made runs _ (hother made)

/-- The attempts a ladder makes, rung by rung. -/
def rungs (d : Delegation) (record : ChildRecord) (runs : Runs) : List Rung :=
  ⟨d.target, runs.first⟩ ::
    match ended d.target runs.first with
    | .error _ => []
    | .ok first =>
      if redelegatable first.status = true ∧ gate d record runs.first = .safeRetry then
        laterRungs d runs first.status
      else []

/-- A ladder makes the attempts of `rungs`, and calls the child done where the gate
does after a first attempt that could be made again. -/
theorem ladder_spec (d : Delegation) (record : ChildRecord) (runs : Runs) :
    (ladder d record runs).made = rungs d record runs ∧
      ((ladder d record runs).childDone = true ↔
        ∃ first, ended d.target runs.first = .ok first ∧
          redelegatable first.status = true ∧ gate d record runs.first = .done) := by
  obtain ⟨hended, hmade, hmemo⟩ :=
    attempt_of_recall {} (show Climb.recall {} d.target = none from rfl) runs.first
  unfold ladder rungs
  generalize attempt {} d.target runs.first = out at hended hmade hmemo ⊢
  obtain ⟨⟨memo, made⟩, error | first⟩ := out
  · rw [← hended]
    exact ⟨hmade, by simp⟩
  · rw [← hended] at hmemo ⊢
    obtain rfl : made = [⟨d.target, runs.first⟩] := hmade
    obtain rfl : memo = [(d.target, first)] := hmemo
    simp only [Except.ok.injEq, exists_eq_left']
    by_cases hok : first.status = .ok
    · have hredo : redelegatable first.status ≠ true :=
        fun h => status_ne_ok_of_redelegatable h hok
      rw [if_pos hok, if_neg fun h => hredo h.1]
      exact ⟨rfl, by simp [hredo]⟩
    · rw [if_neg hok]
      by_cases hredo : redelegatable first.status = true
      · rw [if_neg (by simp [hredo])]
        simp only [hredo, true_and]
        cases gate d record runs.first with
        | done => simp
        | honestUncertain => simp
        | safeRetry =>
          obtain ⟨hlater, hdone⟩ := climbOn_made d runs [⟨d.target, runs.first⟩] hok
          exact ⟨by rw [hlater]; rfl, by simp [hdone]⟩
      · rw [if_pos (by simpa using hredo), if_neg fun h => hredo h.1]
        exact ⟨rfl, by simp [hredo]⟩

/-! ## The gate, read off its inputs -/

/-- How an attempt ended, `none` where it raised. -/
def ChildRun.status (run : ChildRun) : Option DelegationStatus :=
  match run.outcome with
  | .raised _ => none
  | .notAResult => some .childError
  | .returned res offTopic => some (relevanceGate res offTopic).status

theorem status_eq (run : ChildRun) :
    run.status = (ended toOwl run).toOption.map (·.status) := by
  show run.status = ((attempt {} toOwl run).2).toOption.map (·.status)
  unfold ChildRun.status attempt
  cases run.outcome <;> rfl

/-- The gate lets the ladder go on: a durable child that was read and has no row, or
an owl that can run nothing side-effecting. -/
def passes (d : Delegation) (record : ChildRecord) (run : ChildRun) : Prop :=
  if d.durable then
    record.childStatus ≠ none ∧ ledgerAfter d record run = []
  else canSideEffect d.target d.owlRegistry d.toolRegistry = false

theorem gate_eq_safeRetry (d : Delegation) (record : ChildRecord) (run : ChildRun) :
    gate d record run = .safeRetry ↔ passes d record run := by
  unfold gate passes
  by_cases hdurable : d.durable = true
  · rw [if_pos hdurable, if_pos hdurable]
    cases record.childStatus with
    | none => simp [childLedgerFacts, resolveCommitCouplingAnswer]
    | some status =>
      cases hrows : ledgerAfter d record run with
      | nil => simp [childLedgerFacts, resolveCommitCouplingAnswer]
      | cons row rows =>
        simp only [resolveCommitCouplingAnswer, childLedgerFacts, List.isEmpty_cons,
          Bool.not_false, Bool.not_true, Bool.false_eq_true, if_false, ne_eq,
          reduceCtorEq, not_false_eq_true, and_false, iff_false]
        split
        · exact CommitCouplingAnswer.noConfusion
        · split <;> exact CommitCouplingAnswer.noConfusion
  · rw [if_neg hdurable, if_neg hdurable]
    cases canSideEffect d.target d.owlRegistry d.toolRegistry <;> simp

/-- The child's row is terminal, as `_child_ledger_facts` reads it. -/
def ChildRecord.terminal : Prop :=
  ∃ status ∈ [TaskStatus.completed, .failed], record.childStatus = some status

/-- No row of the child's ledger is of an unconfirmed tool, and none is an open intent
of a tool that is neither transactional nor keyed. -/
def settled (rows : List LedgerEntry) : Prop :=
  ∀ row ∈ rows, couplingOf toolRegistry row.toolName ≠ some .unconfirmed ∧
    (row.status ≠ .committed → couplingOf toolRegistry row.toolName ∈ SAFE_COUPLINGS)

theorem gate_eq_done (d : Delegation) (record : ChildRecord) (run : ChildRun) :
    gate d record run = .done ↔
      d.durable = true ∧ record.terminal ∧ ledgerAfter d record run ≠ [] ∧
        settled d.toolRegistry (ledgerAfter d record run) := by
  unfold gate
  by_cases hdurable : d.durable = true
  · rw [if_pos hdurable]
    simp only [hdurable, true_and, ChildRecord.terminal]
    cases record.childStatus with
    | none => simp [childLedgerFacts, resolveCommitCouplingAnswer]
    | some status =>
      generalize ledgerAfter d record run = rows
      cases rows with
      | nil => simp [childLedgerFacts, resolveCommitCouplingAnswer]
      | cons row rows =>
        have hsettled : (childLedgerFacts d.toolRegistry (row :: rows)
              (some status)).hasUncertainEffect = false ∧
            (childLedgerFacts d.toolRegistry (row :: rows)
              (some status)).hasUncommittedIntent = false ↔
            settled d.toolRegistry (row :: rows) := by
          simp only [childLedgerFacts, List.any_eq_false, settled, ← forall₂_and]
          refine forall₂_congr fun r _ => ?_
          simp
        generalize hfacts : childLedgerFacts d.toolRegistry (row :: rows) (some status) = facts
        have hstarted : facts.childStarted = true := by rw [← hfacts]; rfl
        have hterminal : facts.childTerminal = true ↔ status ∈ [.completed, .failed] := by
          rw [← hfacts]
          exact decide_eq_true_iff
        unfold resolveCommitCouplingAnswer
        cases hu : facts.hasUncertainEffect <;> cases hi : facts.hasUncommittedIntent <;>
          cases ht : facts.childTerminal <;> simp_all
  · rw [if_neg hdurable]
    refine iff_of_false ?_ fun h => hdurable h.1
    split <;> exact CommitCouplingAnswer.noConfusion

-- A committed effect of a tool that declares no coupling passes for a done one.
example : resolveCommitCouplingAnswer
    (childLedgerFacts none [⟨"shell", .committed⟩] (some .completed)) = .done := by decide

/-! ## The law of the ladder -/

/-- The run executed a side-effecting tool whose effect is neither transactional nor
keyed. -/
def ChildRun.mayHaveActed : Prop :=
  ∃ use ∈ run.effects toolRegistry, couplingOf toolRegistry use.toolName ∉ SAFE_COUPLINGS

/-- What a ladder owes: it makes a further attempt only behind attempts that cannot
have acted, and it calls a durable child done only where that child is terminal and
each of its effects is transactional or keyed. -/
structure Careful (d : Delegation) (record : ChildRecord) (runs : Runs) : Prop where
  attempts : ∀ before rung after,
    (ladder d record runs).made = before ++ rung :: after →
      ∀ earlier ∈ before, ¬ earlier.run.mayHaveActed d.toolRegistry
  done : (ladder d record runs).childDone = true →
    record.terminal ∧
      ∀ row ∈ ledgerAfter d record runs.first,
        couplingOf d.toolRegistry row.toolName ∈ SAFE_COUPLINGS

def againAfterFirst (d : Delegation) (record : ChildRecord) (runs : Runs) : Prop :=
  ∃ status, runs.first.status = some status ∧ redelegatable status = true ∧
    passes d record runs.first ∧ (status ∈ RETRIABLE ∨ d.fallbackOwl ≠ none)

def againAfterRetry (d : Delegation) (record : ChildRecord) (runs : Runs) : Prop :=
  ∃ status retried, runs.first.status = some status ∧ status ∈ RETRIABLE ∧
    passes d record runs.first ∧ runs.retry.status = some retried ∧
    redelegatable retried = true ∧ d.fallbackOwl ≠ none

/-- What stands before some element of a list is the list without its last. -/
theorem forall_before_iff {α : Type*} (p : α → Prop) (l : List α) :
    (∀ before a after, l = before ++ a :: after → ∀ earlier ∈ before, p earlier) ↔
      ∀ earlier ∈ l.dropLast, p earlier := by
  constructor
  · intro h
    obtain rfl | ⟨front, last, rfl⟩ := l.eq_nil_or_concat
    · simp
    · intro earlier hearlier
      rw [List.concat_eq_append, List.dropLast_concat] at hearlier
      exact h front last [] (List.concat_eq_append) earlier hearlier
  · rintro h before a after rfl earlier hearlier
    apply h
    rw [List.dropLast_append_of_ne_nil (List.cons_ne_nil a after)]
    exact List.mem_append_left _ hearlier

theorem redelegatable_of_retriable {status : DelegationStatus} (h : status ∈ RETRIABLE) :
    redelegatable status = true := by
  simp [redelegatable, h]

theorem forall_rungs_iff (p : ChildRun → Prop) (d : Delegation) (record : ChildRecord)
    (runs : Runs) :
    (∀ rung ∈ (rungs d record runs).dropLast, p rung.run) ↔
      (againAfterFirst d record runs → p runs.first) ∧
        (againAfterRetry d record runs → p runs.retry) := by
  unfold rungs againAfterFirst againAfterRetry
  rw [status_eq d.target runs.first, status_eq d.target runs.retry]
  cases hfirst : ended d.target runs.first with
  | error e => simp [Except.toOption]
  | ok first =>
    simp only [Except.toOption, Option.map_some, Option.some.injEq, exists_eq_left']
    by_cases hpasses : passes d record runs.first
    · have hgate := (gate_eq_safeRetry d record runs.first).mpr hpasses
      by_cases hredo : redelegatable first.status = true
      · simp only [hpasses, hgate, hredo, and_self, if_true, true_and]
        unfold laterRungs lastRung
        by_cases hretry : first.status ∈ RETRIABLE
        · rw [if_pos hretry]
          cases hsecond : ended d.target runs.retry with
          | error e => simp [hretry]
          | ok retry =>
            cases howl : d.fallbackOwl with
            | none => by_cases h : redelegatable retry.status = true <;> simp [hretry, h]
            | some secretary =>
              by_cases h : redelegatable retry.status = true <;> simp [hretry, h]
        · rw [if_neg hretry]
          cases howl : d.fallbackOwl with
          | none => simp [hretry]
          | some secretary => simp [hretry]
      · have hretry : first.status ∉ RETRIABLE :=
          fun h => hredo (redelegatable_of_retriable h)
        simp [hredo, hretry]
    · have hgate : gate d record runs.first ≠ .safeRetry :=
        fun h => hpasses ((gate_eq_safeRetry d record runs.first).mp h)
      simp [hpasses, hgate]

/-- The inputs on which nothing goes wrong. -/
structure Harmless (d : Delegation) (record : ChildRecord) (runs : Runs) : Prop where
  /-- An owl whose bounds hold no side-effecting tool executed none, where the parent is
  not durable and another attempt follows. -/
  bounded : d.durable = false → againAfterFirst d record runs →
    ¬ runs.first.mayHaveActed d.toolRegistry
  /-- The retry behind which the secretary is asked cannot have acted. -/
  retried : againAfterRetry d record runs → ¬ runs.retry.mayHaveActed d.toolRegistry
  /-- A durable child that is found settled ledgered no tool of undeclared coupling. -/
  declared : d.durable = true →
    (∃ status, runs.first.status = some status ∧ redelegatable status = true) →
    record.terminal → settled d.toolRegistry (ledgerAfter d record runs.first) →
    ∀ row ∈ ledgerAfter d record runs.first,
      couplingOf d.toolRegistry row.toolName ≠ none

/-- A durable child that the gate lets go on has run nothing side-effecting. -/
theorem not_mayHaveActed_of_passes {record : ChildRecord} {run : ChildRun}
    (hdurable : d.durable = true) (h : passes d record run) :
    ¬ run.mayHaveActed d.toolRegistry := by
  unfold passes at h
  rw [if_pos hdurable] at h
  have hnil := (List.append_eq_nil_iff.mp h.2).2
  rintro ⟨use, hmem, -⟩
  rw [List.map_eq_nil_iff.mp hnil] at hmem
  exact absurd hmem List.not_mem_nil

/-- The ladders that are careful are those whose inputs are harmless. -/
theorem ladder_careful_iff (d : Delegation) (record : ChildRecord) (runs : Runs) :
    Careful d record runs ↔ Harmless d record runs := by
  obtain ⟨hmade, hdone⟩ := ladder_spec d record runs
  have hattempts :=
    (forall_before_iff (fun rung : Rung => ¬ rung.run.mayHaveActed d.toolRegistry)
      (rungs d record runs)).trans
      (forall_rungs_iff (fun run => ¬ run.mayHaveActed d.toolRegistry) d record runs)
  have hstatus : (∃ first, ended d.target runs.first = .ok first ∧
        redelegatable first.status = true ∧ gate d record runs.first = .done) ↔
      (∃ status, runs.first.status = some status ∧ redelegatable status = true) ∧
        gate d record runs.first = .done := by
    rw [status_eq d.target]
    cases ended d.target runs.first with
    | error e => simp [Except.toOption]
    | ok first => simp [Except.toOption]
  rw [hstatus, gate_eq_done] at hdone
  constructor
  · rintro ⟨hbefore, hchild⟩
    rw [hmade] at hbefore
    obtain ⟨hfirst, hretry⟩ := hattempts.mp hbefore
    refine ⟨fun _ => hfirst, hretry, fun hdurable hredo hterminal hsettled row hrow => ?_⟩
    have hrows := List.ne_nil_of_mem hrow
    have hsafe := (hchild (hdone.mpr ⟨hredo, hdurable, hterminal, hrows, hsettled⟩)).2
      row hrow
    intro hundeclared
    rw [hundeclared] at hsafe
    exact absurd hsafe (by decide)
  · rintro ⟨hbounded, hretry, hdeclared⟩
    refine ⟨?_, fun hchild => ?_⟩
    · rw [hmade]
      refine hattempts.mpr ⟨fun hagain => ?_, hretry⟩
      cases hdurable : d.durable with
      | false => exact hbounded hdurable hagain
      | true =>
        obtain ⟨-, -, -, hpasses, -⟩ := hagain
        exact not_mayHaveActed_of_passes hdurable hpasses
    · obtain ⟨hredo, hdurable, hterminal, -, hsettled⟩ := hdone.mp hchild
      refine ⟨hterminal, fun row hrow => ?_⟩
      have hcoupling := hdeclared hdurable hredo hterminal hsettled row hrow
      have hconfirmed := (hsettled row hrow).1
      cases h : couplingOf d.toolRegistry row.toolName with
      | none => exact absurd h hcoupling
      | some coupling =>
        cases coupling with
        | transactional => decide
        | idempotentKeyed => decide
        | unconfirmed => exact absurd h hconfirmed

/-- A retry that sent a message and then timed out is followed by the secretary. -/
theorem retry_acts_then_secretary :
    let tools : ToolRegistry := fun name =>
      if name = "send_message" then some ⟨.consequential, some .unconfirmed⟩ else none
    let d : Delegation :=
      { caller := "scout", target := "clerk", chain := [], secretary := some "secretary",
        durable := true, owlRegistry := none, toolRegistry := some tools }
    let timedOut : Outcome := .returned { status := .timeout } none
    let runs : Runs :=
      { first := ⟨[], timedOut⟩, retry := ⟨[⟨"send_message", true⟩], timedOut⟩,
        fallback := ⟨[], timedOut⟩ }
    ¬ Careful d {} runs := by
  intro tools d timedOut runs h
  refine h.attempts [⟨"clerk", runs.first⟩, ⟨"clerk", runs.retry⟩]
    ⟨"secretary", runs.fallback⟩ [] rfl ⟨"clerk", runs.retry⟩ (by simp) ?_
  exact ⟨⟨"send_message", true⟩, by decide, by decide⟩

/-- An owl that passes the gate of a non-durable parent, and whose calls went through
the dispatch seam under the same bounds, ran no side-effecting tool but one the seam
unites in. -/
theorem bounded_attempt_is_safe {ceiling : Option BoundsSpec} {run : ChildRun}
    (hgate : canSideEffect d.target d.owlRegistry d.toolRegistry = false)
    (hdispatch : ∀ use ∈ run.calls,
      permits (computeEffectiveBounds ⟨d.target, ceiling⟩ d.owlRegistry) use.toolName = true) :
    ∀ use ∈ run.effects d.toolRegistry, use.toolName ∈ ROUTER_TOOLS := by
  intro use huse
  obtain ⟨hcall, hacts⟩ := List.mem_filter.mp huse
  have hpermits := hdispatch use hcall
  rw [computeEffectiveBounds_eq, permits_withRouterTools] at hpermits
  obtain hown | ⟨hrouter, -⟩ := hpermits
  · rw [permits_childFloor, Bool.and_eq_true] at hown
    have howl := hown.1
    unfold canSideEffect at hgate
    cases hbounds : resolveOwlBounds d.target d.owlRegistry with
    | none => simp [hbounds] at hgate
    | some bounds =>
      cases htools : bounds.tools with
      | none => simp [hbounds, htools] at hgate
      | some tools =>
        cases htreg : d.toolRegistry with
        | none => simp [hbounds, htools, htreg] at hgate
        | some get =>
          simp only [hbounds, htools, htreg, decide_eq_false_iff_not, not_exists,
            not_and] at hgate
          have hmem : use.toolName ∈ tools := by
            simpa [permits_eq, toolsAxis, hbounds, htools] using howl
          have hread := hgate use.toolName hmem
          rw [htreg] at hacts
          cases hget : get use.toolName with
          | none => simp [ToolUse.acts, hget] at hacts
          | some manifest =>
            have hsevere : isSideEffecting manifest.actionSeverity = true := by
              simpa [ToolUse.acts, hget] using hacts
            rw [← mem_SIDE_EFFECT_SEVERITIES] at hsevere
            simp [hget, hsevere] at hread
  · exact hrouter

theorem bounded_attempt_is_safe_reader :
    let tools : Option ToolRegistry := some fun _ => some ⟨.read, none⟩
    let run : ChildRun := ⟨[⟨"read_file", true⟩], .notAResult⟩
    ∀ use ∈ run.effects tools, use.toolName ∈ ROUTER_TOOLS := by
  intro tools run
  let d : Delegation :=
    { caller := "scout", target := "clerk", chain := [], secretary := none, durable := false,
      owlRegistry := some fun _ => some (some { tools := some {"read_file"} }),
      toolRegistry := tools }
  exact @bounded_attempt_is_safe d none run (by decide) (by decide)

end StackOwl.Agents
