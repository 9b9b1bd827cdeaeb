import StackOwl.Durable.Task
import StackOwl.Lib.Table

/-!
# The `tasks` table, the journal and the database

A `Row` is one row of the `tasks` table with its columns as SQLite stores them:
nullable columns are options, the comma lists are still text.  The table carries
the schema's three unique indexes; `Db` adds the journal, the side-effect ledger
and the principals.

Every write of the store is one `UPDATE`, `INSERT` or `DELETE`.  An `Update` is
a `WHERE` guard and a `SET` function that leaves the primary key alone, which no
statement of the store writes.

## Main results

* `rowToTask_insertColumns` — a freshly inserted task reads back.
* `find_execute`, `find_insertRow` — the row of one key after a statement.
* `execute_isOk` — a statement that keeps or drops its rows' index keys is never
  refused.
-/

namespace StackOwl.Durable

open Lib

/-! ## Rows -/

structure Row where
  taskId : String
  ownerId : String
  goal : String
  status : TaskStatus
  currentStep : Int := 0
  threadId : Option String := none
  result : Option String := none
  sessionKey : Option String := none
  parentTaskId : Option String := none
  leaseOwner : Option String := none
  superseded : Bool := false
  destination : Option String := none
  achievement : Option String := none
  deliveredAt : Option Stamp := none
  acknowledgedAt : Option Stamp := none
  attemptCount : Option Int := some 0
  maxAttempts : Option Int := some DEFAULT_MAX_ATTEMPTS
  lastError : Option String := none
  lastFailureClass : Option String := none
  bannedCapabilities : Option String := none
  nextAttemptAt : Option Stamp := none
  leaseExpiresAt : Option Stamp := none
  dependsOn : Option String := none
  triggerKind : Option String := none
  idempotencyKey : Option String := none
  kind : TaskKind := .goal
  commandType : Option String := none
  commandId : Option String := none
  gateVerdict : Option String := none
  checkpointBlob : Option String := none
  context : TaskContext := {}
  createdAt : Stamp
  updatedAt : Stamp

/-- `int(value or default)` for a nullable integer column: `NULL` and `0` both
read as the default. -/
def intOr (default : Int) : Option Int → Int
  | none => default
  | some n => if n = 0 then default else n

/-- `_task_insert_columns`; the columns it does not name take the schema's
defaults. -/
def taskInsertColumns (task : DurableTask) : Row where
  taskId := task.taskId
  ownerId := task.ownerId
  goal := task.goal
  status := task.status
  currentStep := task.currentStep
  threadId := task.threadId
  result := task.result
  sessionKey := task.sessionKey
  parentTaskId := task.parentTaskId
  leaseOwner := task.leaseOwner
  superseded := task.superseded
  destination := task.destination
  achievement := task.achievement
  triggerKind := task.triggerKind
  maxAttempts := some task.maxAttempts
  dependsOn := join task.dependsOn
  idempotencyKey := task.idempotencyKey
  kind := task.kind
  commandType := task.commandType
  commandId := task.commandId
  gateVerdict := task.gateVerdict
  context := task.context
  createdAt := task.createdAt
  updatedAt := task.updatedAt

def rowToTask (row : Row) : DurableTask where
  taskId := row.taskId
  ownerId := row.ownerId
  goal := row.goal
  status := row.status
  currentStep := row.currentStep
  threadId := row.threadId
  result := row.result
  sessionKey := row.sessionKey
  parentTaskId := row.parentTaskId
  leaseOwner := row.leaseOwner
  superseded := row.superseded
  destination := row.destination
  achievement := row.achievement
  deliveredAt := row.deliveredAt
  acknowledgedAt := row.acknowledgedAt
  attemptCount := intOr 0 row.attemptCount
  maxAttempts := intOr DEFAULT_MAX_ATTEMPTS row.maxAttempts
  lastError := row.lastError
  lastFailureClass := row.lastFailureClass
  bannedCapabilities := split row.bannedCapabilities
  nextAttemptAt := row.nextAttemptAt
  leaseExpiresAt := row.leaseExpiresAt
  dependsOn := split row.dependsOn
  triggerKind := row.triggerKind
  idempotencyKey := row.idempotencyKey
  kind := row.kind
  commandType := row.commandType
  commandId := row.commandId
  gateVerdict := row.gateVerdict
  context := row.context
  createdAt := row.createdAt
  updatedAt := row.updatedAt

/-- A task as born (nothing attempted, delivered or leased yet, a non-zero
ceiling, comma-free dependency ids) reads back from its row as it was written. -/
theorem rowToTask_insertColumns (task : DurableTask)
    (hmax : task.maxAttempts ≠ 0)
    (hdeps : ∀ d ∈ task.dependsOn, d ≠ "" ∧ ',' ∉ d.toList) :
    rowToTask (taskInsertColumns task) =
      { task with
        deliveredAt := none, acknowledgedAt := none, attemptCount := 0,
        lastError := none, lastFailureClass := none, bannedCapabilities := [],
        nextAttemptAt := none, leaseExpiresAt := none } := by
  have hdepends : split (join task.dependsOn) = task.dependsOn := split_join hdeps
  have hbanned : split none = [] := rfl
  simp [rowToTask, taskInsertColumns, intOr, hmax, hdepends, hbanned]

/-! ## Unique indexes -/

/-- `PRIMARY KEY (owner_id, task_id)`. -/
def primaryKey (r : Row) : Option (List String) :=
  some [r.ownerId, r.taskId]

/-- `idx_tasks_idempotency_live`: one live row per owner and idempotency key. -/
def idempotencyLive (r : Row) : Option (List String) :=
  if r.status ∈ LIVE_TASK_STATUSES then
    r.idempotencyKey.map (fun k => [r.ownerId, k])
  else
    none

/-- `idx_tasks_command_id`. -/
def commandKey (r : Row) : Option (List String) :=
  r.commandId.map (fun c => [c])

/-- The unique indexes of `tasks`. -/
def taskKeys : List (Row → Option (List String)) :=
  [primaryKey, idempotencyLive, commandKey]

/-- The `tasks` table. -/
abbrev TaskTable := Table Row (List String) taskKeys

/-! ## Journal -/

/-- The typed `attrs` of the journal events the store records; the constructor
is the event's `type`. -/
inductive Attrs where
  | taskEnqueued (triggerKind : Option String) (dependsOnCount : Nat)
      (maxAttempts : Int)
  | taskClaimed (leaseOwner : String) (leaseSeconds : Int)
  | taskFinished (completionMode : String)
  | taskDeadLettered (taskKind : Option String) (attemptCount maxAttempts : Int)
      (leaseOwner failureClass : Option String) (permanent : Bool)
      (dependencyIds : Option String)
  | commandEnqueued (commandType requesterKind : String)
  | commandCompleted (commandType : String)
  | commandPendingApproval (commandType requesterKind outcome : String)
      (payloadSummary : String)

/-- `_MAX_LABEL_LEN`: attrs labels hold at most 64 characters. -/
def MAX_LABEL_LEN : Nat := 64

def MAX_PAYLOAD_SUMMARY_LEN : Nat := 256

/-- `max_length` of a label. -/
def labelFits (label : String) : Bool := label.length ≤ MAX_LABEL_LEN

/-- `max_length` of an optional label. -/
def labelFits? : Option String → Bool
  | none => true
  | some label => labelFits label

/-- The bounds the attrs models enforce when they are built. -/
def Attrs.valid : Attrs → Bool
  | .taskEnqueued triggerKind _ _ => labelFits? triggerKind
  | .taskClaimed leaseOwner _ => labelFits leaseOwner
  | .taskFinished _ => true
  | .taskDeadLettered taskKind _ _ leaseOwner failureClass _ _ =>
    labelFits? taskKind && labelFits? leaseOwner && labelFits? failureClass
  | .commandEnqueued commandType requesterKind =>
    labelFits commandType && labelFits requesterKind
  | .commandCompleted commandType => labelFits commandType
  | .commandPendingApproval commandType requesterKind outcome summary =>
    labelFits commandType && labelFits requesterKind && labelFits outcome &&
      summary.length ≤ MAX_PAYLOAD_SUMMARY_LEN

/-- One journal row: who acted, on what, and the typed attrs. -/
structure JournalEvent where
  actorId : String
  targetId : String
  attrs : Attrs

/-! ## The database -/

/-- One row of `side_effect_ledger`, by what the task store reads of it. -/
structure LedgerRow where
  idempotencyKey : String
  taskId : String
  ownerId : String

/-- The tables the task store reads and writes. -/
structure Db where
  tasks : TaskTable
  journal : List JournalEvent := []
  ledger : List LedgerRow := []
  principals : List String := []

def Db.fresh : Db where
  tasks := { rows := [], unique := by decide }

/-- The exceptions a store operation raises. -/
inductive StoreError where
  /-- `DurableTaskNotFoundError`. -/
  | taskNotFound (taskId : String)
  /-- `_insert_owned`: the row names an owner the store is not bound to. -/
  | ownerMismatch (ownerId : String)
  /-- A unique index refused the statement. -/
  | integrity
  /-- An attrs model refused its values. -/
  | invalidAttrs

/-- An operation that may raise; a raising transaction leaves no change. -/
abbrev Result := Except StoreError

/-- One `UPDATE tasks SET set WHERE guard`. -/
structure Update where
  guard : Row → Bool
  set : Row → Row
  /-- No statement of the store writes the primary key. -/
  keepsKey : ∀ r, (set r).ownerId = r.ownerId ∧ (set r).taskId = r.taskId

def Update.on (u : Update) : Row → Row := patch u.guard u.set

/-- Run an `UPDATE`; answers the new database and the row count. -/
def Db.execute (u : Update) (db : Db) : Result (Db × Nat) :=
  match db.tasks.updateWhere u.guard u.set with
  | none => .error .integrity
  | some tasks => .ok ({ db with tasks }, db.tasks.rows.countP u.guard)

def Db.insertRow (r : Row) (db : Db) : Result Db :=
  match db.tasks.insert r with
  | none => .error .integrity
  | some tasks => .ok { db with tasks }

/-- `journal.record` inside the caller's transaction. -/
def Db.record (event : JournalEvent) (db : Db) : Result Db :=
  if event.attrs.valid then
    .ok { db with journal := db.journal ++ [event] }
  else
    .error .invalidAttrs

/-- `WHERE task_id = ? AND owner_id = ?`. -/
def isKey (ownerId taskId : String) (r : Row) : Bool :=
  r.ownerId == ownerId && r.taskId == taskId

/-- The row stored under a primary key. -/
def Db.find (db : Db) (ownerId taskId : String) : Option Row :=
  db.tasks.find? (isKey ownerId taskId)

/-- The status stored under a primary key. -/
def Db.status (db : Db) (ownerId taskId : String) : Option TaskStatus :=
  (db.find ownerId taskId).map Row.status

variable {o i : String}

theorem status_eq_some_iff {db : Db} {s : TaskStatus} :
    db.status o i = some s ↔ ∃ r, db.find o i = some r ∧ r.status = s := by
  simp [Db.status]

/-! ## The row of one key after a statement -/

variable {r : Row}

theorem isKey_iff :
    isKey o i r = true ↔ r.ownerId = o ∧ r.taskId = i := by
  simp [isKey]

theorem Update.isKey_set (u : Update) (o i : String) (r : Row) :
    isKey o i (u.set r) = isKey o i r := by
  simp [isKey, u.keepsKey r]

variable {u : Update}

theorem Update.on_of_guard (h : u.guard r = true) :
    u.on r = u.set r :=
  patch_of_true h

theorem Update.on_of_not_guard (h : u.guard r = false) :
    u.on r = r :=
  patch_of_false h

theorem Update.isKey_on (u : Update) (o i : String) (r : Row) :
    isKey o i (u.on r) = isKey o i r := by
  unfold Update.on patch
  split
  · exact u.isKey_set o i r
  · rfl

theorem key_of_find {db : Db} (h : db.find o i = some r) : r.ownerId = o ∧ r.taskId = i :=
  isKey_iff.mp (Table.sat_of_find? h)

theorem mem_of_find {db : Db} (h : db.find o i = some r) : r ∈ db.tasks.rows :=
  Table.mem_of_find? h

private theorem primaryKey_of_isKey (h : isKey o i r = true) : primaryKey r = some [o, i] := by
  obtain ⟨ho, hi⟩ := isKey_iff.mp h
  simp [primaryKey, ho, hi]

private theorem primaryKey_mem : primaryKey ∈ taskKeys := by
  simp [taskKeys]

theorem find_of_mem {db : Db} (h : r ∈ db.tasks.rows) :
    db.find r.ownerId r.taskId = some r := by
  cases hfound : db.find r.ownerId r.taskId with
  | none =>
    have := List.find?_eq_none.mp hfound r h
    exact absurd (isKey_iff.mpr ⟨rfl, rfl⟩) this
  | some s =>
    obtain ⟨ho, hi⟩ := key_of_find hfound
    have hkey : primaryKey s = primaryKey r := by simp [primaryKey, ho, hi]
    rw [db.tasks.eq_of_key primaryKey_mem (mem_of_find hfound) h hkey rfl]

theorem rows_nodup (db : Db) : db.tasks.rows.Nodup := by
  have hkeys := db.tasks.unique primaryKey primaryKey_mem
  have hmap : db.tasks.rows.filterMap primaryKey =
      db.tasks.rows.map (fun r => [r.ownerId, r.taskId]) :=
    congrFun List.filterMap_eq_map' _
  rw [hmap] at hkeys
  exact hkeys.of_map

variable {db db' : Db}

/-- What an `UPDATE` that was not refused left behind. -/
theorem execute_ok {n : Nat} (h : db.execute u = .ok (db', n)) :
    db'.tasks.rows = db.tasks.rows.map u.on ∧ db'.journal = db.journal ∧
      n = db.tasks.rows.countP u.guard := by
  unfold Db.execute at h
  split at h
  · cases h
  · rename_i tasks htasks
    cases h
    exact ⟨Table.rows_updateWhere htasks, rfl, rfl⟩

/-- The row of every key after an `UPDATE`. -/
theorem find_execute {n : Nat} (h : db.execute u = .ok (db', n)) (o i : String) :
    db'.find o i = (db.find o i).map u.on :=
  Table.find?_of_map (execute_ok h).1 (u.isKey_on o i)

/-- An `UPDATE` that leaves every row with the index keys it had in `db₀`, or out
of the index, is never refused. -/
theorem execute_isOk_of_map (db₀ db : Db) {p : Row → Row}
    (hrows : db.tasks.rows = db₀.tasks.rows.map p)
    (h : ∀ r ∈ db₀.tasks.rows, ∀ key ∈ taskKeys,
      key (u.on (p r)) = key r ∨ key (u.on (p r)) = none) :
    ∃ db' n, db.execute u = .ok (db', n) := by
  obtain ⟨tasks, htasks⟩ :=
    Table.updateWhere_isSome_of_map db₀.tasks db.tasks hrows h
  exact ⟨{ db with tasks }, db.tasks.rows.countP u.guard, by
    simp [Db.execute, htasks]⟩

/-- An `UPDATE` that keeps, or takes out of the index, every key of the rows it
matches is never refused. -/
theorem execute_isOk (db : Db)
    (h : ∀ r, u.guard r = true → ∀ key ∈ taskKeys, key (u.set r) = key r ∨ key (u.set r) = none) :
    ∃ db' n, db.execute u = .ok (db', n) := by
  obtain ⟨tasks, htasks⟩ := db.tasks.updateWhere_isSome h
  exact ⟨{ db with tasks }, db.tasks.rows.countP u.guard, by
    simp [Db.execute, htasks]⟩

/-- A rewriting that carries the key columns along and makes no dead row live
keeps every index key, or takes it out of the index. -/
theorem keys_kept {r r' : Row} (howner : r'.ownerId = r.ownerId)
    (htask : r'.taskId = r.taskId)
    (hidem : r'.idempotencyKey = r.idempotencyKey)
    (hcommand : r'.commandId = r.commandId)
    (hlive : r'.status ∈ LIVE_TASK_STATUSES → r.status ∈ LIVE_TASK_STATUSES) :
    ∀ key ∈ taskKeys, key r' = key r ∨ key r' = none := by
  intro key hkey
  simp only [taskKeys, List.mem_cons, List.not_mem_nil, or_false] at hkey
  rcases hkey with rfl | rfl | rfl
  · exact Or.inl (by simp [primaryKey, howner, htask])
  · by_cases hl : r'.status ∈ LIVE_TASK_STATUSES
    · exact Or.inl (by simp [idempotencyLive, hl, hlive hl, hidem, howner])
    · exact Or.inr (by simp [idempotencyLive, hl])
  · exact Or.inl (by simp [commandKey, hcommand])

/-- An `UPDATE` that ends the rows it matches and carries their keys along is never
refused: an ended row is outside the live index. -/
theorem execute_isOk_of_ended (db : Db)
    (hkeys : ∀ r, (u.set r).idempotencyKey = r.idempotencyKey ∧
      (u.set r).commandId = r.commandId) (hended : ∀ r, (u.set r).status ∉ LIVE_TASK_STATUSES) :
    ∃ db' n, db.execute u = .ok (db', n) :=
  execute_isOk db (fun r _ => keys_kept (u.keepsKey r).1 (u.keepsKey r).2
    (hkeys r).1 (hkeys r).2 (fun hlive => absurd hlive (hended r)))

/-- The row count of an `UPDATE` addressed by primary key. -/
theorem countP_of_key (db : Db) {guard : Row → Bool}
    (hguard : ∀ r, guard r = true → isKey o i r = true) :
    db.tasks.rows.countP guard = ((db.find o i).filter guard).toList.length :=
  db.tasks.countP_of_key primaryKey_mem (fun _ h => primaryKey_of_isKey h) hguard

/-- A `SELECT` narrowed to one key answers the row of the key, when it matches. -/
theorem filter_of_key (db : Db) (q : Row → Bool) (o i : String) :
    db.tasks.rows.filter (fun r => q r && isKey o i r) =
      ((db.find o i).filter q).toList := by
  have hkey := db.tasks.filter_eq_of_key primaryKey_mem
    (fun r (h : isKey o i r = true) => primaryKey_of_isKey h)
  rw [← List.filter_filter, hkey]
  show (db.find o i).toList.filter q = _
  cases db.find o i with
  | none => rfl
  | some r => cases hq : q r <;> simp [Option.filter, hq]

/-- An `EXISTS` addressed by primary key asks the row of the key. -/
theorem any_of_key (db : Db) (q : Row → Bool) (o i : String) :
    db.tasks.rows.any (fun r => isKey o i r && q r) = (db.find o i).any q := by
  rw [Bool.eq_iff_iff, List.any_eq_true, Option.any_eq_true]
  constructor
  · rintro ⟨r, hr, hsat⟩
    rw [Bool.and_eq_true] at hsat
    obtain ⟨ho, hi⟩ := isKey_iff.mp hsat.1
    have hfound := find_of_mem hr
    rw [ho, hi] at hfound
    exact ⟨r, hfound, hsat.2⟩
  · rintro ⟨r, hfound, hq⟩
    refine ⟨r, mem_of_find hfound, ?_⟩
    rw [Bool.and_eq_true]
    exact ⟨Table.sat_of_find? hfound, hq⟩

theorem find_insertRow (h : db.insertRow r = .ok db') (o i : String) :
    db'.find o i = (db.find o i).or (if isKey o i r then some r else none) := by
  unfold Db.insertRow at h
  split at h
  · cases h
  · rename_i tasks htasks
    cases h
    exact Table.find?_insert htasks

theorem find_none_of_insertRow (h : db.insertRow r = .ok db') :
    db.find r.ownerId r.taskId = none := by
  unfold Db.insertRow at h
  split at h
  · cases h
  · rename_i tasks htasks
    exact Table.find?_none_of_insert htasks primaryKey_mem
      (fun _ h => primaryKey_of_isKey h) rfl

theorem find_deleteWhere (db : Db) (guard : Row → Bool) (o i : String) :
    ({ db with tasks := db.tasks.deleteWhere guard } : Db).find o i =
      (db.find o i).filter (fun r => !guard r) :=
  Table.find?_deleteWhere primaryKey_mem (fun _ h => primaryKey_of_isKey h)

end StackOwl.Durable
