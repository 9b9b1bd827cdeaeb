import Mathlib.Data.List.Basic

/-!
# The durable task

The persisted unit of long-running work (`pipeline/durable/task.py`) and the two
small text conventions its columns rest on: comma lists (`_split`) and
destinations of the form `channel:address` (`addressing.py`).

Time stamps are `Stamp`, microseconds since the Unix epoch.  The program stores
`datetime.now(UTC).isoformat()`; all such texts carry the same offset, so their
text order, which is what SQLite compares, is the order of the instants.

## Main results

* `split_join` — a comma list of non-empty comma-free names reads back.
-/

namespace StackOwl.Durable

/-- Microseconds since the Unix epoch. -/
abbrev Stamp := Int

/-- `timedelta(seconds=n)` in `Stamp` units. -/
def seconds (n : Int) : Int := n * 1000000

inductive TaskStatus where
  | pending | running | recovering | parked | completed | failed | deadLetter
  deriving DecidableEq

def LIVE_TASK_STATUSES : List TaskStatus :=
  [.pending, .running, .recovering, .parked]

def TERMINAL_TASK_STATUSES : List TaskStatus :=
  [.completed, .failed, .deadLetter]

def DEFAULT_MAX_ATTEMPTS : Int := 30

def DEFAULT_PRINCIPAL_ID : String := "principal-default"

/-- `Literal["goal", "command"]`, the `kind` column. -/
inductive TaskKind where
  | goal | command
  deriving DecidableEq

/-- The columns that are written when a row is born and afterwards only carried
along: the context of the originating turn, the objective-work fields and the
command payload. -/
structure TaskContext where
  owlName : Option String := none
  channel : Option String := none
  creationCeiling : Option String := none
  taskEnvelope : Option String := none
  parentOwl : Option String := none
  delegateKey : Option String := none
  position : Option Int := none
  verified : Option Bool := none
  estimatedComplexity : Option String := none
  decompositionDepth : Option Int := none
  worktreePath : Option String := none
  storyBranch : Option String := none
  commandPayload : Option String := none
  requesterKind : Option String := none
  nonce : Option String := none
  utteranceId : Option String := none
  authorityGrantId : Option String := none
  deriving DecidableEq

/-- `DurableTask`: the domain model, with the model's own defaults. -/
structure DurableTask where
  taskId : String
  ownerId : String := DEFAULT_PRINCIPAL_ID
  goal : String
  status : TaskStatus
  currentStep : Int := 0
  threadId : Option String := none
  result : Option String := none
  sessionKey : Option String := none
  parentTaskId : Option String := none
  leaseOwner : Option String := none
  superseded : Bool := false
  destination : Option String := none
  achievement : Option String := none
  deliveredAt : Option Stamp := none
  acknowledgedAt : Option Stamp := none
  attemptCount : Int := 0
  maxAttempts : Int := DEFAULT_MAX_ATTEMPTS
  lastError : Option String := none
  lastFailureClass : Option String := none
  bannedCapabilities : List String := []
  nextAttemptAt : Option Stamp := none
  leaseExpiresAt : Option Stamp := none
  dependsOn : List String := []
  triggerKind : Option String := none
  idempotencyKey : Option String := none
  kind : TaskKind := .goal
  commandType : Option String := none
  commandId : Option String := none
  gateVerdict : Option String := none
  context : TaskContext := {}
  createdAt : Stamp
  updatedAt : Stamp
  deriving DecidableEq

/-! ## Comma lists -/

/-- `",".join(parts) or None`, as the comma-list columns are written. -/
def join (parts : List String) : Option String :=
  let joined := ",".intercalate parts
  if joined = "" then none else some joined

/-- `_split`: a stored comma list; absent or empty text reads as no items. -/
def split (raw : Option String) : List String :=
  match raw with
  | none => []
  | some text =>
    ((text.toList.splitOn ',').map String.ofList).filter (fun p => p ≠ "")

/-- A comma list of non-empty names without commas reads back as written. -/
theorem split_join {parts : List String}
    (h : ∀ p ∈ parts, p ≠ "" ∧ ',' ∉ p.toList) : split (join parts) = parts := by
  have hfilter : parts.filter (fun p => p ≠ "") = parts :=
    List.filter_eq_self.mpr (fun p hp => by simpa using (h p hp).1)
  cases parts with
  | nil => decide
  | cons p rest =>
    have hsplit : (",".intercalate (p :: rest)).toList.splitOn ',' =
        (p :: rest).map String.toList := by
      rw [String.toList_intercalate]
      refine List.splitOn_intercalate ',' (fun l hl => ?_) (by simp)
      obtain ⟨q, hq, rfl⟩ := List.mem_map.mp hl
      exact (h q hq).2
    have hne : ",".intercalate (p :: rest) ≠ "" := by
      intro hempty
      rw [hempty] at hsplit
      have hp : p.toList = [] := by
        simpa using (congrArg List.head? hsplit).symm
      exact (h p List.mem_cons_self).1 (String.toList_eq_nil_iff.mp hp)
    simp only [join, if_neg hne, split, hsplit, List.map_map]
    simpa [Function.comp_def] using hfilter

/-! ## Destinations -/

/-- `address_of`: the part of a destination after the first colon, if any. -/
def addressOf (destination : Option String) : Option String :=
  match destination with
  | none => none
  | some text =>
    if ':' ∈ text.toList then
      let address := String.ofList ((text.toList.dropWhile (· ≠ ':')).drop 1)
      if address = "" then none else some address
    else
      none

end StackOwl.Durable
