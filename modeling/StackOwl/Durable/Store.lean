import Mathlib.Data.List.Dedup
import StackOwl.Durable.FailureClass
import StackOwl.Durable.Schema

/-!
# The durable task store

`DurableTaskStore` (`pipeline/durable/store.py`), bound to one owner.  Each
`…Sql` definition is one `UPDATE` of the source: its `WHERE` clause and its
`SET` list.  The operations around them follow the methods.

A method that reads and then writes is split where the source awaits between the
two: `failAndRequeueWith` is the writing half of `failAndRequeue`, given the row
an earlier `get` answered.  The clock, the jitter and the configured permanent
classes are arguments.  `journal_fanout.notify_committed`, logging and the
operator notification of `_escalate` change no table and are left out.
-/

namespace StackOwl.Durable

open Lib

def truthy : Option String → Bool
  | none => false
  | some text => text ≠ ""

/-- `value or None` for a text argument. -/
def orNone (text : String) : Option String :=
  if text = "" then none else some text

/-- `text[:n]`. -/
def clip (n : Nat) (text : String) : String :=
  String.ofList (text.toList.take n)

/-! ## Reads -/

variable (owner taskId : String) (db : Db)

/-- `get`: a miss raises. -/
def get : Result DurableTask :=
  match db.find owner taskId with
  | none => .error (.taskNotFound taskId)
  | some row => .ok (rowToTask row)

def requireOwned : Result Unit :=
  match db.find owner taskId with
  | none => .error (.taskNotFound taskId)
  | some _ => .ok ()

variable (status : TaskStatus)

/-- `list(status)`. -/
def listTasks (db : Db) :
    List DurableTask :=
  (db.tasks.rows.filter (fun r => r.ownerId == owner && r.status == status)).map
    rowToTask

variable (r : Row)

/-- `_owes_delivery`, of one row: a destination and no proof of arrival.  A read that fails
answers `False`. -/
def Row.owesDelivery (readFails : Bool) : Bool :=
  !readFails && truthy r.destination && r.deliveredAt.isNone

def owesDelivery (owner taskId : String) (readFails : Bool) (db : Db) : Bool :=
  match db.find owner taskId with
  | none => false
  | some row => row.owesDelivery readFails

/-! ## Birth -/

variable (task : DurableTask)

/-- `task.model_copy(update={"owner_id": owner})`. -/
def DurableTask.filedUnder (owner : String) : DurableTask :=
  { task with ownerId := owner }

/-- `create`.  A command row is inserted together with its journal event. -/
def create (db : Db) : Result Db :=
  match task.kind with
  | .command => do
      let db ← db.insertRow (taskInsertColumns (task.filedUnder owner))
      db.record
        { actorId := owner, targetId := task.taskId
          attrs := .commandEnqueued (clip 64 (task.commandType.getD ""))
            (clip 64 (task.context.requesterKind.getD "")) }
  | .goal =>
    if task.ownerId = owner then
      db.insertRow (taskInsertColumns task)
    else
      .error (.ownerMismatch task.ownerId)

/-- The loop-contract `UPDATE` of `enqueue`. -/
def loopContractSql : Update where
  guard := isKey owner task.taskId
  set r := { r with
    destination := task.destination
    achievement := task.achievement
    maxAttempts := some task.maxAttempts
    dependsOn := join task.dependsOn
    triggerKind := task.triggerKind
    idempotencyKey := task.idempotencyKey }
  keepsKey _ := ⟨rfl, rfl⟩

/-- `enqueue`: the insert, the loop contract and the journal event commit in one
transaction. -/
def enqueue (db : Db) : Result Db := do
  let db ← db.insertRow (taskInsertColumns (task.filedUnder owner))
  let (db, _) ← db.execute (loopContractSql owner task)
  db.record
    { actorId := owner, targetId := task.taskId
      attrs := .taskEnqueued task.triggerKind task.dependsOn.length
        task.maxAttempts }

/-- What a parent names when it mints a delegated child. -/
structure ChildSpec where
  childTaskId : String
  parentTaskId : String
  parentOwl : String
  delegateKey : String
  goal : String
  owlName : String
  channel : String

variable (now : Stamp)

/-- The row `create_child_task` inserts: born `running`, with no lease. -/
def childRow (spec : ChildSpec) (now : Stamp) : Row where
  taskId := spec.childTaskId
  ownerId := owner
  goal := spec.goal
  status := .running
  parentTaskId := some spec.parentTaskId
  context :=
    { parentOwl := some spec.parentOwl, delegateKey := some spec.delegateKey
      owlName := some spec.owlName, channel := some spec.channel }
  createdAt := now
  updatedAt := now

/-- `create_child_task`: `ON CONFLICT(owner_id, task_id) DO NOTHING`, then the
record is read back. -/
def createChildTask (spec : ChildSpec) (now : Stamp) (db : Db) :
    Result (Db × DurableTask) := do
  let db ← match db.find owner spec.childTaskId with
    | some _ => pure db
    | none => db.insertRow (childRow owner spec now)
  let record ← get owner spec.childTaskId db
  return (db, record)

/-! ## The attempt ceiling -/

def UNACHIEVED_EFFECT_MAX_ATTEMPTS : Int := 3

def BACKOFF_SECONDS : List Int := [5, 15, 60, 300, 900]

/-- `_backoff_for`: the rung of the ladder for `attempt`, plus the jitter. -/
def backoffFor (attempt jitter : Int) : Int :=
  let idx := min (max (attempt - 1) 0) (BACKOFF_SECONDS.length - 1)
  seconds (BACKOFF_SECONDS.getD idx.toNat 900) + jitter

/-- What one `fail_and_requeue` call is told, and the clock it reads. -/
structure FailCall where
  error : String
  failureClass : String := ""
  banned : List String := []
  /-- `permanent_classes()` at the time of the call. -/
  permanentClasses : List String := PERMANENT_CLASSES_FALLBACK
  now : Stamp
  jitter : Int := 0

variable (row : DurableTask)

/-- A destination that names nobody: the row cannot prove delivery. -/
def undeliverable : Bool :=
  truthy row.destination && (addressOf row.destination).isNone

/-- The ceiling `fail_and_requeue` applies. -/
def ceilingFor (failureClass : String) : Int :=
  if failureClass ∈ SMALL_CEILING_CLASSES ∨ undeliverable row then
    min row.maxAttempts UNACHIEVED_EFFECT_MAX_ATTEMPTS
  else
    row.maxAttempts

variable (call : FailCall)

/-- `permanent or exhausted`: whether `fail_and_requeue` stops for good. -/
def givesUp : Bool :=
  call.failureClass ∈ call.permanentClasses ||
    row.attemptCount + 1 ≥ ceilingFor row call.failureClass

/-- `sorted(set(row.banned_capabilities) | set(banned))`. -/
def mergeBanned (banned : List String) : List String :=
  (row.bannedCapabilities ++ banned).dedup.insertionSort (· ≤ ·)

/-- The dead-letter `UPDATE` of `fail_and_requeue`. -/
def deadLetterSql :
    Update where
  guard := isKey owner taskId
  set r := { r with
    status := .deadLetter
    attemptCount := some (row.attemptCount + 1)
    lastError := some (clip 2000 call.error)
    lastFailureClass := orNone call.failureClass
    bannedCapabilities := join (mergeBanned row call.banned)
    leaseOwner := none
    leaseExpiresAt := none
    updatedAt := call.now }
  keepsKey _ := ⟨rfl, rfl⟩

/-- The requeueing `UPDATE` of `fail_and_requeue`. -/
def requeueSql :
    Update where
  guard := isKey owner taskId
  set r := { r with
    status := .pending
    attemptCount := some (row.attemptCount + 1)
    checkpointBlob :=
      if call.failureClass = "corrupt_state" then none else r.checkpointBlob
    currentStep :=
      if call.failureClass = "corrupt_state" then 0 else r.currentStep
    lastError := some (clip 2000 call.error)
    lastFailureClass := orNone call.failureClass
    bannedCapabilities := join (mergeBanned row call.banned)
    nextAttemptAt :=
      some (call.now + backoffFor (row.attemptCount + 1) call.jitter)
    leaseOwner := none
    leaseExpiresAt := none
    updatedAt := call.now }
  keepsKey _ := ⟨rfl, rfl⟩

/-- The writing half of `fail_and_requeue`, for the `row` its `get` answered. -/
def failAndRequeueWith (db : Db) : Result (Db × TaskStatus) :=
  if givesUp row call then do
    let (db, rowcount) ← db.execute (deadLetterSql owner taskId row call)
    if rowcount = 1 then
      let db ← db.record
        { actorId := owner, targetId := taskId
          attrs := .taskDeadLettered row.triggerKind (row.attemptCount + 1)
            row.maxAttempts row.leaseOwner (orNone call.failureClass)
            (call.failureClass ∈ call.permanentClasses) none }
      return (db, .deadLetter)
    return (db, .deadLetter)
  else do
    let (db, _) ← db.execute (requeueSql owner taskId row call)
    return (db, .pending)

/-- `fail_and_requeue`: the status written. -/
def failAndRequeue (db : Db) :
    Result (Db × TaskStatus) := do
  let row ← get owner taskId db
  failAndRequeueWith owner taskId row call db

/-! ## Status writes -/

/-- The keyword arguments of `update_status`, the clock it reads, and whether the read of
`_owes_delivery` fails. -/
structure StatusFields where
  currentStep : Option Int := none
  threadId : Option String := none
  result : Option String := none
  terminal : Bool := false
  readFails : Bool := false
  permanentClasses : List String := PERMANENT_CLASSES_FALLBACK
  now : Stamp
  jitter : Int := 0

variable (fields : StatusFields)

/-- The `fail_and_requeue` call `update_status` makes for a failure. -/
def StatusFields.failCall : FailCall where
  error :=
    match fields.result with
    | none => "task failed with no reported reason"
    | some text =>
      if text = "" then "task failed with no reported reason" else text
  failureClass := classifyFailure fields.result
  permanentClasses := fields.permanentClasses
  now := fields.now
  jitter := fields.jitter

/-- The `UPDATE` of `update_status`: only the supplied fields are written. -/
def updateStatusSql : Update where
  guard := isKey owner taskId
  set r := { r with
    status := status
    updatedAt := fields.now
    currentStep := fields.currentStep.getD r.currentStep
    threadId := fields.threadId.or r.threadId
    result := fields.result.or r.result }
  keepsKey _ := ⟨rfl, rfl⟩

/-- The status `update_status` goes on with: a completion that still owes its
answer is held at `running`. -/
def heldStatus (owes : Bool) :
    TaskStatus :=
  if status = .completed ∧ blankOrNone fields.result = false ∧ owes = true then
    .running
  else
    status

/-- `update_status`; answers the status written. -/
def updateStatus (db : Db) : Result (Db × TaskStatus) := do
  let status := heldStatus status fields (owesDelivery owner taskId fields.readFails db)
  if status = .failed ∧ fields.terminal = false then
    requireOwned owner taskId db
    failAndRequeue owner taskId fields.failCall db
  else
    requireOwned owner taskId db
    let (db, _) ← db.execute (updateStatusSql owner taskId status fields)
    return (db, status)

def terminalizeChild (result : Option String) (now : Stamp) (db : Db) : Result Db := do
  let (db, _) ← updateStatus owner taskId status
    { result, terminal := true, now } db
  return db

/-- `supersede_child`. -/
def supersedeChildSql : Update where
  guard := isKey owner taskId
  set r := { r with superseded := true, updatedAt := now }
  keepsKey _ := ⟨rfl, rfl⟩

/-- `claim_child_lease`: only an unleased row can be taken. -/
def claimChildLeaseSql (leaseOwner : String) (now : Stamp) :
    Update where
  guard r := isKey owner taskId r && r.leaseOwner.isNone
  set r := { r with leaseOwner := some leaseOwner, updatedAt := now }
  keepsKey _ := ⟨rfl, rfl⟩

/-- `save_checkpoint`. -/
def saveCheckpointSql (blob : String) : Update where
  guard := isKey owner taskId
  set r := { r with checkpointBlob := some blob }
  keepsKey _ := ⟨rfl, rfl⟩

/-- `update_achievement`. -/
def updateAchievementSql (achievement : String) : Update where
  guard := isKey owner taskId
  set r := { r with achievement := some achievement }
  keepsKey _ := ⟨rfl, rfl⟩

/-- `repoint_retry`: only a row that has not started. -/
def repointRetrySql (idempotencyKey goal : String) (now : Stamp) :
    Update where
  guard r := r.ownerId == owner && r.idempotencyKey == some idempotencyKey &&
    r.status == .pending
  set r := { r with goal := goal, updatedAt := now }
  keepsKey _ := ⟨rfl, rfl⟩

/-- `set_dependencies`. -/
def setDependenciesSql (dependsOn : List String) (now : Stamp) : Update where
  guard := isKey owner taskId
  set r := { r with
    dependsOn := join dependsOn, nextAttemptAt := none, updatedAt := now }
  keepsKey _ := ⟨rfl, rfl⟩

/-- `set_dependencies`: a missing row raises. -/
def setDependencies (dependsOn : List String) (now : Stamp) (db : Db) : Result Db := do
  requireOwned owner taskId db
  let (db, _) ← db.execute (setDependenciesSql owner taskId dependsOn now)
  return db

/-- `save_checkpoint`: a missing row raises. -/
def saveCheckpoint (blob : String) (db : Db) : Result Db := do
  requireOwned owner taskId db
  let (db, _) ← db.execute (saveCheckpointSql owner taskId blob)
  return db

/-! ## The action-policy gate -/

/-- The parking `UPDATE` of `park_for_decision`. -/
def parkSql (outcome : String) (now : Stamp) : Update where
  guard := isKey owner taskId
  set r := { r with
    status := .parked
    gateVerdict := some outcome
    leaseOwner := none
    leaseExpiresAt := none
    updatedAt := now }
  keepsKey _ := ⟨rfl, rfl⟩

/-- `park_for_decision`, by the rows of `tasks` and the journal it writes. -/
def parkForDecision (commandType requesterKind outcome payloadSummary : String) (now : Stamp)
    (db : Db) : Result Db := do
  let (db, _) ← db.execute (parkSql owner taskId outcome now)
  db.record
    { actorId := owner, targetId := taskId
      attrs := .commandPendingApproval (clip 64 commandType)
        (clip 64 requesterKind) (clip 64 outcome) (clip 256 payloadSummary) }

/-- The approving `UPDATE` of `resume_command_after_answer`. -/
def resumeApprovedSql : Update where
  guard := isKey owner taskId
  set r := { r with
    status := .pending
    gateVerdict := some "approved"
    leaseOwner := none
    leaseExpiresAt := none
    updatedAt := now }
  keepsKey _ := ⟨rfl, rfl⟩

def resumeCommandAfterAnswer (approved : Bool) (reason : Option String)
    (permanentClasses : List String) (now : Stamp) (jitter : Int) (db : Db) : Result Db := do
  if approved then
    let (db, _) ← db.execute (resumeApprovedSql owner taskId now)
    return db
  else
    let error :=
      if truthy reason then "command denied: " ++ reason.getD ""
      else "command denied"
    let (db, _) ← failAndRequeue owner taskId
      { error, failureClass := "command_denied", permanentClasses, now, jitter } db
    return db

/-! ## Leases -/

def DEFAULT_LEASE_SECONDS : Int := 900

/-- The compare-and-set of `claim`. -/
def claimSql (worker : String) (expires now : Stamp) :
    Update where
  guard r := isKey owner taskId r && r.status == .pending
  set r := { r with
    status := .running
    leaseOwner := some worker
    leaseExpiresAt := some expires
    updatedAt := now }
  keepsKey _ := ⟨rfl, rfl⟩

/-- `claim`: whether this caller won. -/
def claim (worker : String) (leaseSeconds : Int) (now : Stamp) (db : Db) : Result (Db × Bool) := do
  let (db, rowcount) ← db.execute
    (claimSql owner taskId worker (now + seconds leaseSeconds) now)
  if rowcount = 1 then
    let db ← db.record
      { actorId := worker, targetId := taskId
        attrs := .taskClaimed worker leaseSeconds }
    return (db, true)
  return (db, false)

def ceilingReachedSql : Bool :=
  r.attemptCount.getD 0 + 1 ≥ r.maxAttempts.getD DEFAULT_MAX_ATTEMPTS

def statusOrDeadLetter (onSurvive : TaskStatus) (r : Row) : TaskStatus :=
  if ceilingReachedSql r then .deadLetter else onSurvive

def expiredLeaseWhere (r : Row) : Bool :=
  r.ownerId == owner && r.status == .running &&
    match r.leaseExpiresAt with
    | none => false
    | some expires => expires ≤ now

/-- The `UPDATE` of `reclaim_expired`. -/
def reclaimExpiredSql : Update where
  guard := expiredLeaseWhere owner now
  set r := { r with
    status := statusOrDeadLetter .pending r
    leaseOwner := none
    leaseExpiresAt := none
    attemptCount := some (r.attemptCount.getD 0 + 1)
    lastError := some "worker lease expired (crash or hang)"
    lastFailureClass := some "lease_expired"
    updatedAt := now }
  keepsKey _ := ⟨rfl, rfl⟩

/-- `reclaim_expired`: how many rows were taken. -/
def reclaimExpired (db : Db) :
    Result (Db × Nat) :=
  db.execute (reclaimExpiredSql owner now)

/-- The `UPDATE` of `claim_for_recovery`, charged or not. -/
def claimForRecoverySql (countAttempt : Bool) (now : Stamp) : Update where
  guard r := isKey owner taskId r &&
    (r.status == .running || r.status == .recovering)
  set r :=
    if countAttempt then
      { r with
        status := statusOrDeadLetter .recovering r
        updatedAt := now
        attemptCount := some (r.attemptCount.getD 0 + 1)
        lastFailureClass := some "reclaimed_stale"
        lastError :=
          some "reclaimed while running — the worker never came back" }
    else
      { r with status := .recovering, updatedAt := now }
  keepsKey r := by cases countAttempt <;> exact ⟨rfl, rfl⟩

/-- `claim_for_recovery`: whether this call's `UPDATE` matched. -/
def claimForRecovery (countAttempt : Bool) (now : Stamp) (db : Db) : Result (Db × Bool) := do
  let (db, affected) ← db.execute
    (claimForRecoverySql owner taskId countAttempt now)
  return (db, affected == 1)

/-! ## Completion -/

variable (result : String)

/-- The `UPDATE` of `mark_delivered`. -/
def markDeliveredSql (now : Stamp) :
    Update where
  guard := isKey owner taskId
  set r := { r with
    status := .completed
    result := some result
    deliveredAt := some now
    leaseOwner := none
    leaseExpiresAt := none
    updatedAt := now }
  keepsKey _ := ⟨rfl, rfl⟩

/-- `mark_delivered`: a proof that matched no row records nothing. -/
def markDelivered (now : Stamp) (db : Db) :
    Result Db := do
  let (db, _) ← db.execute (markDeliveredSql owner taskId result now)
  match db.find owner taskId with
  | none => return db
  | some returned =>
    let db ← db.record
      { actorId := owner, targetId := taskId
        attrs := .taskFinished "delivered" }
    if returned.kind = .command ∧ truthy returned.commandType then
      db.record
        { actorId := owner, targetId := taskId
          attrs := .commandCompleted
            (clip 64 (returned.commandType.getD "")) }
    else
      return db

/-- The `UPDATE` of `mark_completed_unaddressed`: `delivered_at` stays as it
is. -/
def markCompletedUnaddressedSql (now : Stamp) :
    Update where
  guard := isKey owner taskId
  set r := { r with
    status := .completed
    result := some result
    acknowledgedAt := some now
    leaseOwner := none
    leaseExpiresAt := none
    updatedAt := now }
  keepsKey _ := ⟨rfl, rfl⟩

def markCompletedUnaddressed (now : Stamp) (db : Db) : Result Db := do
  let (db, affected) ← db.execute
    (markCompletedUnaddressedSql owner taskId result now)
  if affected = 0 then
    return db
  else
    db.record
      { actorId := owner, targetId := taskId
        attrs := .taskFinished "unaddressed" }

/-! ## Sweeps -/

/-- The `UPDATE` of `resolve_unannounced_dead_letters`. -/
def acknowledgeSql : Update where
  guard := isKey owner taskId
  set r := { r with acknowledgedAt := some now }
  keepsKey _ := ⟨rfl, rfl⟩

/-- The candidates of `revive_undelivered_failures`. -/
def undeliveredFailure : Bool :=
  r.ownerId == owner && r.status == .failed && r.destination.isSome &&
    r.deliveredAt.isNone

/-- `classify_failure(r["last_error"] or r["result"]) or None`. -/
def revivedClass : Option String :=
  orNone (classifyFailure (if truthy r.lastError then r.lastError else r.result))

/-- The per-row `UPDATE` of `revive_undelivered_failures`, guarded by
`status='failed'`. -/
def reviveSql (cls : Option String) (now : Stamp) :
    Update where
  guard r := isKey owner taskId r && r.status == .failed
  set r := { r with
    status := .pending
    checkpointBlob := none
    currentStep := 0
    lastError := r.lastError.or r.result
    lastFailureClass := r.lastFailureClass.or cls
    nextAttemptAt := none
    leaseOwner := none
    leaseExpiresAt := none
    updatedAt := now }
  keepsKey _ := ⟨rfl, rfl⟩

/-- The statement text `heal_unreachable_owners` leaves on a row it retires. -/
def UNREACHABLE_MESSAGE : String :=
  "retired by the unreachable-owner sweep: filed under a " ++
    "non-principal, no destination, so nothing was waiting on it " ++
    "and it could never be claimed"

/-- The per-row `UPDATE` of `heal_unreachable_owners`: `WHERE task_id=?`. -/
def retireSql : Update where
  guard r := r.taskId == taskId
  set r := { r with
    status := .deadLetter
    lastError := some UNREACHABLE_MESSAGE
    updatedAt := now }
  keepsKey _ := ⟨rfl, rfl⟩

/-! ## Pruning -/

def DAY : Int := 86400000000

/-- `updated_at < datetime('now', '-N day')`.  The stored text has a `T` where
SQLite's has a blank, so on one calendar day the stored text is the greater one
and the comparison is between days.  A negative `N` makes an invalid modifier,
whose `NULL` compares to nothing. -/
def olderThanDays (days : Int) (now updatedAt : Stamp) : Bool :=
  0 ≤ days && updatedAt / DAY < now / DAY - days

/-- The goal rows `prune_completed` deletes. -/
def prunedGoal (days : Int) (now : Stamp) (r : Row) : Bool :=
  r.ownerId == owner && r.status == .completed && r.kind != .command &&
    olderThanDays days now r.updatedAt

/-- The command rows `prune_completed` deletes. -/
def prunedCommand (days : Int) (now : Stamp) (r : Row) : Bool :=
  r.ownerId == owner && r.status == .completed && r.kind == .command &&
    olderThanDays days now r.updatedAt

/-- `prune_completed`: the ledger rows of the pruned goal tasks first, then the
goal rows and the command rows, each past its own window. -/
def pruneCompleted (olderThan commandOlderThan : Int) (now : Stamp) (db : Db) : Db × Nat :=
  let doomed := (db.tasks.rows.filter (prunedGoal owner olderThan now)).map
    Row.taskId
  let ledger := db.ledger.filter
    (fun l => !(l.ownerId == owner && l.taskId ∈ doomed))
  let goals := db.tasks.deleteWhere (prunedGoal owner olderThan now)
  let tasks := goals.deleteWhere (prunedCommand owner commandOlderThan now)
  ({ db with tasks, ledger }, db.tasks.rows.length - tasks.rows.length)

end StackOwl.Durable
