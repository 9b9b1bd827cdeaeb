import StackOwl.Durable.Store

/-!
# Which rows the loop may run

`CLAIMABLE_WHERE`, `_deps_satisfied`, `claimable` and `_reserved_command_row`
(`pipeline/durable/store.py`).  `claimable` reads a window of rows with one
`SELECT … LIMIT` and only then asks `_deps_satisfied` of each row of the window,
which dead-letters a row whose dependency failed; the database is threaded
through the scan because of that write.

`ORDER BY created_at` leaves rows of one instant in insertion order.
-/

namespace StackOwl.Durable

open Lib

variable (owner : String) (now : Stamp)

def claimableWhere (db : Db) (r : Row) : Bool :=
  r.ownerId == owner && r.status == .pending && !r.superseded &&
    (match r.nextAttemptAt with
      | none => true
      | some due => due ≤ now) &&
    (match r.parentTaskId with
      | none => true
      | some parent => !db.tasks.rows.any (fun p =>
        isKey owner parent p &&
          (p.status == .completed || p.status == .deadLetter)))

def failedDeps (deps : List String) (db : Db) : List String :=
  deps.filter (fun d => db.status owner d == some .deadLetter || db.status owner d == some .failed)

def depsLanded (deps : List String) (db : Db) : Bool :=
  deps.all (fun d => db.status owner d == some .completed)

/-- The cascading `UPDATE` of `_deps_satisfied`. -/
def cascadeSql (taskId : String) (failed : List String) (now : Stamp) :
    Update where
  guard := isKey owner taskId
  set r := { r with
    status := .deadLetter
    lastError :=
      some ("a dependency will never land: " ++ ",".intercalate failed)
    lastFailureClass := some "dependency_failed"
    updatedAt := now }
  keepsKey _ := ⟨rfl, rfl⟩

/-- The writing half of the cascade, for the row its `get` answered. -/
def cascadeWith (taskId : String) (cascading : DurableTask) (failed : List String) (now : Stamp)
    (db : Db) : Result Db := do
  let (db, rowcount) ← db.execute (cascadeSql owner taskId failed now)
  if rowcount = 1 then
    db.record
      { actorId := owner, targetId := taskId
        attrs := .taskDeadLettered cascading.triggerKind cascading.attemptCount
          cascading.maxAttempts cascading.leaseOwner (some "dependency_failed")
          true (some (",".intercalate failed)) }
  else
    return db

def depsSatisfied (taskId : String) (deps : List String) (now : Stamp) (db : Db)
    : Result (Db × Bool) :=
  match failedDeps owner deps db with
  | [] => .ok (db, depsLanded owner deps db)
  | d :: ds => do
      let cascading ← get owner taskId db
      let db ← cascadeWith owner taskId cascading (d :: ds) now db
      return (db, false)

/-- `not deps or await self._deps_satisfied(…)`, for one fetched row. -/
def rowReady (r : Row) (db : Db) :
    Result (Db × Bool) :=
  if split r.dependsOn = [] then
    .ok (db, true)
  else
    depsSatisfied owner r.taskId (split r.dependsOn) now db

/-- The loop of `claimable` over the rows it fetched: the rows offered. -/
def scanReady (owner : String) (now : Stamp) :
    List Row → Db → Result (Db × List DurableTask)
  | [], db => .ok (db, [])
  | r :: rows, db => do
      let (db, ready) ← rowReady owner now r db
      let (db, out) ← scanReady owner now rows db
      return (db, if ready then rowToTask r :: out else out)

/-- The loop of `_reserved_command_row`: the first ready row. -/
def firstReady (owner : String) (now : Stamp) :
    List Row → Db → Result (Db × Option DurableTask)
  | [], db => .ok (db, none)
  | r :: rows, db => do
      let (db, ready) ← rowReady owner now r db
      if ready then
        return (db, some (rowToTask r))
      else
        firstReady owner now rows db

def claimableWindow (lim : Int) (stamp : Stamp) (db : Db) :
    List Row :=
  limit lim
    (orderBy Row.createdAt (db.tasks.rows.filter (claimableWhere owner stamp db)))

def RESERVED_COMMAND_CANDIDATES : Int := 5

/-- The rows `_reserved_command_row` fetches. -/
def reservedWindow (stamp : Stamp) (db : Db) : List Row :=
  limit RESERVED_COMMAND_CANDIDATES
    (orderBy Row.createdAt (db.tasks.rows.filter
      (fun r => claimableWhere owner stamp db r && r.kind == .command)))

def reservedCommandRow (stamp now : Stamp) (db : Db) :
    Result (Db × Option DurableTask) :=
  firstReady owner now (reservedWindow owner stamp db) db

/-- `claimable`: `stamp` is the instant asked about, `now` the clock its writes
are stamped with. -/
def claimable (lim : Int) (stamp now : Stamp) (db : Db) :
    Result (Db × List DurableTask) := do
  let (db, out) ← scanReady owner now (claimableWindow owner lim stamp db) db
  if lim > 0 ∧ ¬ out.any (fun t => t.kind == .command) then
    let (db, reserved) ← reservedCommandRow owner stamp now db
    match reserved with
    | none => return (db, out)
    | some command =>
      if (out.length : Int) ≥ lim then
        return (db, out.dropLast ++ [command])
      else
        return (db, out ++ [command])
  else
    return (db, out)

end StackOwl.Durable
