import StackOwl.Durable.Task

/-!
# The gate a command passes

`authz/action_policy.py` and `commands/spec/execute.py`: the severity check, the
action-policy gate and the call of the handler, for a command row as the caller holds it.

A handler's run is not part of `execute_command_task`'s own work; `starts` is the point at
which it is called.

## Main results

* `outcome_of_starts` — a handler is called when the gate lets the command run at once, or
  when the row carries an approval.
-/

namespace StackOwl.Commands

open Durable

/-! ## Severities and requesters -/

inductive Severity where
  | read | write | consequential
  deriving DecidableEq

def ALL_SEVERITIES : List Severity := [.read, .write, .consequential]

inductive RequesterKind where
  | owner | owl | voiceUnverified | autonomous
  deriving DecidableEq

/-- The kind a row's text stands for; the code compares it with two of the names, and
takes every other text for one that runs its reversible orders at once. -/
def RequesterKind.ofText (text : String) : RequesterKind :=
  if text = "owl" then .owl
  else if text = "autonomous" then .autonomous
  else if text = "voice-unverified" then .voiceUnverified
  else .owner

structure ControlPrincipal where
  principalId : String
  granted : List Severity

def ControlPrincipal.may (p : ControlPrincipal) (severity : Severity) : Bool :=
  severity ∈ p.granted

/-- `principal_for`: every requester kind is granted every severity. -/
def principalFor (requesterKind : String) : ControlPrincipal :=
  ⟨requesterKind, ALL_SEVERITIES⟩

/-! ## Declarations -/

/-- A validated payload, by its two dumps: `model_dump_json()`, and `json.dumps` of
`model_dump()`. -/
structure Payload where
  modelDumpJson : String
  dumps : String

/-- `CommandSpec`; `payloadModel` is `model_validate_json`, or nothing where it raises. -/
structure CommandSpec where
  payloadModel : String → Option Payload
  severity : Severity
  reversible : Bool
  undoCommandType : Option String := none
  undo_matches_reversible : reversible = undoCommandType.isSome := by decide

/-- `CommandSpecRegistry` and `CommandHandlerRegistry`. -/
structure CommandRegistry where
  spec : String → Option CommandSpec
  hasHandler : String → Bool

/-! ## The action policy -/

inductive ActionPolicyOutcome where
  | runAtOnce | needsApproval | needsStepUp
  deriving DecidableEq

def ActionPolicyOutcome.value : ActionPolicyOutcome → String
  | .runAtOnce => "run_at_once"
  | .needsApproval => "needs_approval"
  | .needsStepUp => "needs_step_up"

structure ActionPolicyDecision where
  outcome : ActionPolicyOutcome
  attending : Bool
  authorityGrantId : Option String

def attends (requesterKind : RequesterKind) : Bool := requesterKind ≠ .autonomous

/-- Truthiness of `authority_grant_id`. -/
def granted (authorityGrantId : Option String) : Bool := authorityGrantId.any (· ≠ "")

/-- `decide`: severity first, then reversibility, then who asks. -/
def ActionPolicy.decide (severity : Severity) (reversible : Bool)
    (requesterKind : RequesterKind) (authorityGrantId : Option String) :
    ActionPolicyDecision :=
  if severity = .consequential then
    ⟨.needsStepUp, attends requesterKind, none⟩
  else if reversible = false then
    if requesterKind = .autonomous ∧ granted authorityGrantId = true then
      ⟨.runAtOnce, attends requesterKind, authorityGrantId⟩
    else
      ⟨.needsStepUp, attends requesterKind, none⟩
  else if requesterKind = .owl then
    ⟨.needsApproval, attends requesterKind, none⟩
  else
    ⟨.runAtOnce, attends requesterKind, none⟩

/-! ## `execute_command_task` -/

structure CommandContext where
  commandId : String
  commandType : String
  requesterKind : String
  utteranceId : Option String
  authorityGrantId : Option String

inductive Execution where
  /-- `CommandTypeNotDeclaredError`, or the payload is not valid. -/
  | raises
  /-- `CommandRefusedError`. -/
  | refused (commandType : String) (severity : Severity) (requesterKind : String)
  /-- `CommandNeedsDecisionError`. -/
  | needsDecision (commandType : String) (outcome : ActionPolicyOutcome)
      (payloadSummary : String)
  /-- The handler is called. -/
  | starts (context : CommandContext)

def PAYLOAD_SUMMARY_MAX_LEN : Nat := 256

/-- `gate_verdict == "approved"`. -/
def APPROVED : String := "approved"

/-- `value or fallback` for a nullable text. -/
def textOr (fallback : String) : Option String → String
  | none => fallback
  | some text => if text = "" then fallback else text

def gate (spec : CommandSpec) (task : DurableTask) : ActionPolicyDecision :=
  ActionPolicy.decide spec.severity spec.reversible
    (.ofText (textOr "owner" task.context.requesterKind)) task.context.authorityGrantId

/-- `execute_command_task`, up to the call of the handler. -/
def executeCommandTask (registry : CommandRegistry) (task : DurableTask) : Execution :=
  let commandType := task.commandType.getD ""
  let commandId := textOr task.taskId task.commandId
  let requesterKind := textOr "owner" task.context.requesterKind
  match registry.spec commandType with
  | none => .raises
  | some spec =>
    match spec.payloadModel (textOr "\x7b\x7d" task.context.commandPayload) with
    | none => .raises
    | some payload =>
      if (principalFor requesterKind).may spec.severity = false then
        .refused commandType spec.severity requesterKind
      else if task.gateVerdict ≠ some APPROVED ∧
          (gate spec task).outcome ≠ .runAtOnce then
        .needsDecision commandType (gate spec task).outcome
          (String.ofList (payload.dumps.toList.take PAYLOAD_SUMMARY_MAX_LEN))
      else if registry.hasHandler commandType = false then
        .raises
      else
        .starts
          { commandId := commandId, commandType := commandType,
            requesterKind := requesterKind, utteranceId := task.context.utteranceId,
            authorityGrantId :=
              if task.gateVerdict = some APPROVED then task.context.authorityGrantId
              else (gate spec task).authorityGrantId }

/-- The gate wants a decision on the row's command. -/
def gated (registry : CommandRegistry) (task : DurableTask) : Bool :=
  (registry.spec (task.commandType.getD "")).any fun spec =>
    (gate spec task).outcome ≠ .runAtOnce

/-- **What the gate lets through.**  Of the commands that want a decision, only a row with
an approval reaches its handler. -/
theorem outcome_of_starts {registry : CommandRegistry} {task : DurableTask}
    {context : CommandContext} (h : executeCommandTask registry task = .starts context) :
    gated registry task = false ∨ task.gateVerdict = some APPROVED := by
  unfold executeCommandTask at h
  dsimp only at h
  split at h
  · cases h
  rename_i spec hspec
  split at h
  · cases h
  split at h
  · cases h
  split at h
  · cases h
  rename_i hgate
  by_cases hverdict : task.gateVerdict = some APPROVED
  · exact Or.inr hverdict
  · left
    have houtcome : (gate spec task).outcome = .runAtOnce := by
      by_contra hne
      exact hgate ⟨hverdict, hne⟩
    rw [gated, hspec]
    simp [houtcome]

theorem value_ne_approved (outcome : ActionPolicyOutcome) : outcome.value ≠ APPROVED := by
  cases outcome <;> decide

end StackOwl.Commands
