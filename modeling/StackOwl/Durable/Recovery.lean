import StackOwl.Durable.Store

/-!
# Crash recovery and the liveness sweep

`DurableTaskRecoverer` (`pipeline/durable/recovery.py`) and
`TaskLivenessSweepHandler` (`scheduler/handlers/task_liveness_sweep.py`): both
drive a row through the one unit `reclaim_one`, the boot pass uncharged, the live
sweep with `count_attempt=True`.

`_reconstruct_state` either answers a pipeline state or raises (an undecodable
checkpoint, a backend error); which of the two is the parameter `resumable`, of
the task and the checkpoint text that is loaded for it.  A launched drive runs
in the background; the passes answer which rows they launched one for.
-/

namespace StackOwl.Durable

open Lib

/-- Whether `_reconstruct_state` answers for a task and its checkpoint. -/
abbrev Resumable := DurableTask → Option String → Bool

def attemptsExhausted (task : DurableTask) : Bool :=
  task.maxAttempts ≠ 0 && task.attemptCount ≥ task.maxAttempts

variable (owner : String) (db : Db)

def loadCheckpoint (taskId : String) (db : Db) : Option String :=
  (db.find owner taskId).bind Row.checkpointBlob

def returnToRunning (taskId : String) (now : Stamp) (db : Db) :
    Result (Db × TaskStatus) :=
  updateStatus owner taskId .running { now } db

/-- `reclaim_one` with its `_claim_and_reconstruct`: whether a drive was
launched.  It never raises; a failure after the claim leaves the row as the claim
left it. -/
def reclaimOne (resumable : Resumable) (task : DurableTask) (countAttempt : Bool) (now : Stamp)
    (db : Db) : Db × Bool :=
  if attemptsExhausted task then
    (db, false)
  else
    match claimForRecovery owner task.taskId countAttempt now db with
    | .error _ => (db, false)
    | .ok (db, false) => (db, false)
    | .ok (db, true) =>
      if resumable task (loadCheckpoint owner task.taskId db) then
        match returnToRunning owner task.taskId now db with
        | .error _ => (db, false)
        | .ok (db, _) => (db, true)
      else
        (db, false)

/-- `reclaim_one` of each task in turn, through the recoverer `ownerOf` names:
the tasks a drive was launched for. -/
def reclaimEach (ownerOf : DurableTask → String) (resumable : Resumable)
    (countAttempt : Bool) (now : Stamp) :
    List DurableTask → Db → Db × List DurableTask
  | [], db => (db, [])
  | task :: tasks, db =>
    let (db, launched) :=
      reclaimOne (ownerOf task) resumable task countAttempt now db
    let (db, rest) :=
      reclaimEach ownerOf resumable countAttempt now tasks db
    (db, if launched then task :: rest else rest)

/-! ## Boot recovery -/

/-- A row whose parent has ended, as `list_zombie_children` reads it. -/
def zombieChild (child : Row) : Bool :=
  child.ownerId == owner &&
    (child.status == .running || child.status == .recovering) &&
    match child.parentTaskId with
    | none => false
    | some parent => db.tasks.rows.any (fun p =>
      isKey child.ownerId parent p &&
        (p.status == .completed || p.status == .failed))

def listZombieChildren : List DurableTask :=
  (db.tasks.rows.filter (zombieChild owner db)).map rowToTask

/-- The loop of `_reap_zombie_children`: fail-open per zombie. -/
def reapEach (owner : String) (now : Stamp) : List DurableTask → Db → Db
  | [], db => db
  | z :: zs, db =>
    match terminalizeChild owner z.taskId .failed
        (some "abandoned: parent already terminal") now db with
    | .error _ => reapEach owner now zs db
    | .ok db => reapEach owner now zs db

def reapZombieChildren (now : Stamp) (db : Db) : Db :=
  reapEach owner now (listZombieChildren owner db) db

/-- The scan of `recover`: roots only, one entry per task id. -/
def scanOrphans (seen : List String) : List DurableTask → List DurableTask
  | [] => []
  | task :: tasks =>
    if task.parentTaskId.isSome then
      scanOrphans seen tasks
    else if task.taskId ∈ seen then
      scanOrphans seen tasks
    else
      task :: scanOrphans (task.taskId :: seen) tasks

/-- The orphans of `recover`: roots listed `running` or `recovering`. -/
def orphans : List DurableTask :=
  scanOrphans []
    (listTasks owner .running db ++ listTasks owner .recovering db)

/-- `recover`: the orphans are listed, the zombie children reaped, then each
orphan is reclaimed, uncharged. -/
def recover (resumable : Resumable) (now : Stamp) (db : Db) :
    Db × List DurableTask :=
  reclaimEach (fun _ => owner) resumable false now (orphans owner db)
    (reapZombieChildren owner now db)

/-! ## The liveness sweep -/

/-- `_DEFAULT_STALE_AFTER_S`, in `Stamp` units. -/
def DEFAULT_STALE_AFTER : Int := seconds 600

def otherOwnersWithRunningTasks : List String :=
  ((db.tasks.rows.filter (fun r => r.status == .running && r.ownerId != "" &&
    r.ownerId != owner)).map Row.ownerId).dedup

/-- A root row silent for at least the threshold. -/
def isStale (staleAfter : Int) (now : Stamp) (task : DurableTask) : Bool :=
  task.parentTaskId.isNone && now - task.updatedAt ≥ staleAfter

/-- `_find_stale`: this principal's rows first, then every other owner's. -/
def findStale (staleAfter : Int) (now : Stamp) (db : Db) :
    List DurableTask :=
  (listTasks owner .running db ++
    (otherOwnersWithRunningTasks owner db).flatMap
      (fun o => listTasks o .running db)).filter (isStale staleAfter now)

/-- `TaskLivenessSweepHandler.execute`: every stale row is reclaimed under its
own owner, charged. -/
def livenessSweep (staleAfter : Int) (resumable : Resumable) (now : Stamp) (db : Db)
    : Db × List DurableTask :=
  reclaimEach DurableTask.ownerId resumable true now
    (findStale owner staleAfter now db) db

end StackOwl.Durable
