import StackOwl.Commands.Handlers
import StackOwl.Durable.FailureClass
import StackOwl.Lib.IsoTime
import Mathlib.Logic.Function.Basic

/-!
# The tables of the scheduler

`jobs` with its retry slot, `job_runs` and the terminal failures in `audit_log`, as the
statements of `scheduler/` change them.  Every statement names one job by its primary key:
the table is a function of the job's id.  Times are stored as the texts of instants and are
compared as texts.

## Main results

* `commit_jobs_self`, `commit_jobs_of_ne` — what a transaction does to the row it names,
  and that it leaves the others.
-/

namespace StackOwl.Scheduler

open Lib Function
open Commands (truthyJson)

/-! ## Rows -/

/-- A row of `jobs`, the retry slot included. -/
structure Row extends Commands.Job where
  retryCount : Nat := 0
  retryAt : Option String := none

/-- `json_extract(params, '$.run_once') = 1`. -/
def Row.storedRunOnce (row : Row) : Bool :=
  match row.params.lookup "run_once" with
  | some (.bool b) => b
  | some (.int n) => n = 1
  | some (.float x) => x.text = "1.0"
  | _ => false

structure JobRun extends Commands.JobRun where
  jobId : String

/-- `JobResult`, as far as a settlement looks at it. -/
structure JobResult extends Commands.JobResult where
  error : Option String := none

structure Tables where
  jobs : String → Option Row
  jobRuns : List JobRun
  /-- The targets of `job_failed_terminal` in `audit_log`. -/
  audited : List String

/-- What a statement does to the row of its job. -/
inductive Write where
  | keep
  /-- `UPDATE jobs SET … WHERE job_id = ?`. -/
  | set (f : Row → Row)
  /-- `DELETE FROM jobs WHERE job_id = ?`. -/
  | delete

def Write.apply : Write → Option Row → Option Row
  | .keep, row => row
  | .set f, row => row.map f
  | .delete, _ => none

namespace Tables

variable (db : Tables) (jobId : String)

/-- `SELECT … FROM job_runs WHERE idempotency_key = ? AND status = 'completed'`. -/
def completed (key : String) : Bool :=
  db.jobRuns.any fun run => run.idempotencyKey == key && run.completed

/-- The runs that are left: a deleted job takes its own with it. -/
def cascade : Write → List JobRun
  | .delete => db.jobRuns.filter fun run => run.jobId ≠ jobId
  | _ => db.jobRuns

def inserted (row : Option Row) (run : Option Commands.JobRun) : List JobRun :=
  match row, run with
  | some _, some run => [{ toJobRun := run, jobId := jobId }]
  | _, _ => []

/-- A transaction on one job: what it does to the row, the run it records and whether it
writes the audit row of a terminal failure. -/
def commit (write : Write) (run : Option Commands.JobRun) (audit : Bool) : Tables where
  jobs := update db.jobs jobId (write.apply (db.jobs jobId))
  jobRuns := db.cascade jobId write ++ inserted jobId (write.apply (db.jobs jobId)) run
  audited := if audit then jobId :: db.audited else db.audited

variable {db jobId}

@[simp] theorem commit_jobs_self (write : Write) (run : Option Commands.JobRun)
    (audit : Bool) :
    (db.commit jobId write run audit).jobs jobId = write.apply (db.jobs jobId) :=
  update_self _ _ _

theorem commit_jobs_of_ne (write : Write) (run : Option Commands.JobRun) (audit : Bool)
    {other : String} (h : other ≠ jobId) :
    (db.commit jobId write run audit).jobs other = db.jobs other :=
  update_of_ne h _ _

end Tables

end StackOwl.Scheduler
