import StackOwl.Commands.Policy
import StackOwl.Commands.Receipts
import StackOwl.Lib.Json

/-!
# The handlers of the scheduling and authority commands

`scheduler/commands.py` and `authz/commands.py`, with what they call: the mutators of
`JobScheduler`, `scheduler_mutations` and `standing_authority`.  A handler is a coroutine:
`Progress` is what it holds between two of its reads and transactions, and `advance` takes
it to the next one.  What it meets there is given: the time, the ids it draws, the next run
of a schedule, what the job's own handler answers, and whether a statement raises.

The result of a handler is left out, and so is the text of its error.

## Main results

* `advance_moves` — what one stretch of a handler can do to the receipts, and when it
  changes something.
* `advance_fails` — a stretch that finds what it reads, and of which nothing raises, does
  not fail.
-/

namespace StackOwl.Commands

open Lib Option

/-! ## The tables -/

inductive JobStatus where
  | pending | running | completed | failed
  deriving DecidableEq

/-- A row of `jobs`; its retry slot is written by the poller alone. -/
structure Job where
  jobId : String
  handlerName : String
  schedule : String
  idempotencyKey : String
  lastRunAt : Option String := none
  nextRunAt : String
  status : JobStatus
  claimedAt : Option String := none
  circuitBrokenAt : Option String := none
  failureCount : Int := 0
  lastError : Option String := none
  enabled : Bool := true
  replayMissed : Bool := false
  primaryChannel : Option String := none
  params : List (String × Json) := []
  targetChannels : List String := []
  targetAddresses : List (String × Json) := []

variable (job : Job)

def Job.primaryKey : Option (String ⊕ String) := some (.inl job.jobId)

/-- `idempotency_key … UNIQUE`. -/
def Job.uniqueKey : Option (String ⊕ String) := some (.inr job.idempotencyKey)

abbrev Jobs := Table Job (String ⊕ String) [Job.primaryKey, Job.uniqueKey]

theorem noJobs_unique :
    ∀ key ∈ [Job.primaryKey, Job.uniqueKey], (([] : List Job).filterMap key).Nodup := by
  simp

variable (jobId : String)

/-- `SELECT * FROM jobs WHERE job_id = ?`. -/
def Jobs.of (jobs : Jobs) : Option Job :=
  jobs.find? fun job => job.jobId == jobId

/-- `UPDATE jobs SET … WHERE job_id = ?`, of columns that are in no index. -/
def Jobs.set (f : Job → Job) (jobs : Jobs) : Jobs :=
  (jobs.updateWhere (fun job => job.jobId == jobId) f).getD jobs

/-- `DELETE FROM jobs WHERE job_id = ?`. -/
def Jobs.delete (jobs : Jobs) : Jobs :=
  jobs.deleteWhere fun job => job.jobId == jobId

def truthyJson : Json → Bool
  | .null => false
  | .bool b => b
  | .int n => n ≠ 0
  | .float x => x.text ≠ "0.0" && x.text ≠ "-0.0"
  | .str s => s ≠ ""
  | .arr items => !items.isEmpty
  | .obj fields => !fields.isEmpty
  | .other _ => true

/-- `job.params.get("run_once")`. -/
def Job.runOnce : Bool := (job.params.lookup "run_once").any truthyJson

def Job.occurrenceKey : String := job.idempotencyKey ++ "@" ++ job.nextRunAt

structure JobRun where
  idempotencyKey : String
  completed : Bool

/-- `Literal["job"]`. -/
inductive ScopeKind where
  | job
  deriving DecidableEq

structure StandingAuthority where
  id : String
  scopeKind : ScopeKind
  scopeId : String
  commandType : String
  grantedBy : String
  provenance : String := "granted"
  grantedAt : String
  revokedAt : Option String := none
  deriving DecidableEq

def StandingAuthority.primaryKey (row : StandingAuthority) : Option String := some row.id

abbrev Authority := Table StandingAuthority String [StandingAuthority.primaryKey]

theorem noAuthority_unique :
    ∀ key ∈ [StandingAuthority.primaryKey],
      (([] : List StandingAuthority).filterMap key).Nodup := by
  simp

structure Desk where
  jobs : Jobs
  runs : List JobRun
  authority : Authority
  receipts : Receipts

/-! ## Commands -/

structure JobLifecyclePayload where
  jobId : String

structure CreateJobPayload where
  handlerName : String
  schedule : String
  params : List (String × Json) := []
  replayMissed : Bool := false
  primaryChannel : Option String := none
  targetChannels : List String := []
  targetAddresses : List (String × Json) := []

structure EditJobPayload where
  jobId : String
  schedule : Option String := none
  goal : Option String := none

structure SnoozeJobPayload where
  jobId : String
  untilIso : String

structure AuthorityScopePayload where
  scopeKind : ScopeKind
  scopeId : String
  commandType : String

def PAUSE_JOB : String := "scheduling.pause_job"
def RESUME_JOB : String := "scheduling.resume_job"
def CREATE_JOB : String := "scheduling.create_job"
def EDIT_JOB : String := "scheduling.edit_job"
def DELETE_JOB : String := "scheduling.delete_job"
def RUN_NOW_JOB : String := "scheduling.run_now_job"
def SET_OWL_SCHEDULE : String := "scheduling.set_owl_schedule"
def PAUSE_OWL_JOB : String := "scheduling.pause_owl_job"
def RESUME_OWL_JOB : String := "scheduling.resume_owl_job"
def AUTHORITY_GRANT : String := "authority.grant"
def AUTHORITY_REVOKE : String := "authority.revoke"

/-- A command with its validated payload. -/
inductive Order where
  | pauseJob (p : JobLifecyclePayload)
  | resumeJob (p : JobLifecyclePayload)
  | pauseOwlJob (p : JobLifecyclePayload)
  | resumeOwlJob (p : JobLifecyclePayload)
  | createJob (p : CreateJobPayload)
  | editJob (p : EditJobPayload)
  | deleteJob (p : JobLifecyclePayload)
  | runNowJob (p : JobLifecyclePayload)
  | setOwlSchedule (p : SnoozeJobPayload)
  | grant (p : AuthorityScopePayload)
  | revoke (p : AuthorityScopePayload)

/-- The payload models: what `model_validate_json` makes of a text, and the dumps of what
it made. -/
structure Models where
  lifecycle : String → Option JobLifecyclePayload
  create : String → Option CreateJobPayload
  edit : String → Option EditJobPayload
  snooze : String → Option SnoozeJobPayload
  scope : String → Option AuthorityScopePayload
  dump : Order → Payload

def Models.order (m : Models) (commandType text : String) : Option Order :=
  if commandType = PAUSE_JOB then (m.lifecycle text).map .pauseJob
  else if commandType = RESUME_JOB then (m.lifecycle text).map .resumeJob
  else if commandType = PAUSE_OWL_JOB then (m.lifecycle text).map .pauseOwlJob
  else if commandType = RESUME_OWL_JOB then (m.lifecycle text).map .resumeOwlJob
  else if commandType = CREATE_JOB then (m.create text).map .createJob
  else if commandType = EDIT_JOB then (m.edit text).map .editJob
  else if commandType = DELETE_JOB then (m.lifecycle text).map .deleteJob
  else if commandType = RUN_NOW_JOB then (m.lifecycle text).map .runNowJob
  else if commandType = SET_OWL_SCHEDULE then (m.snooze text).map .setOwlSchedule
  else if commandType = AUTHORITY_GRANT then (m.scope text).map .grant
  else if commandType = AUTHORITY_REVOKE then (m.scope text).map .revoke
  else none

/-- The severity and the undo type of each command type. -/
def DECLARATIONS : List (String × Severity × Option String) :=
  [(PAUSE_JOB, .write, some RESUME_JOB),
    (RESUME_JOB, .write, some PAUSE_JOB),
    (PAUSE_OWL_JOB, .write, some RESUME_OWL_JOB),
    (RESUME_OWL_JOB, .write, some PAUSE_OWL_JOB),
    (CREATE_JOB, .write, some DELETE_JOB),
    (EDIT_JOB, .write, some EDIT_JOB),
    (DELETE_JOB, .write, none),
    (RUN_NOW_JOB, .write, none),
    (SET_OWL_SCHEDULE, .write, some SET_OWL_SCHEDULE),
    (AUTHORITY_GRANT, .consequential, some AUTHORITY_REVOKE),
    (AUTHORITY_REVOKE, .consequential, some AUTHORITY_GRANT)]

def declaredCommands (m : Models) (others : CommandRegistry) : CommandRegistry where
  spec commandType :=
    match DECLARATIONS.lookup commandType with
    | none => others.spec commandType
    | some (severity, undoCommandType) =>
      some
        { payloadModel := fun text => (m.order commandType text).map m.dump
          severity := severity
          reversible := undoCommandType.isSome
          undoCommandType := undoCommandType
          undo_matches_reversible := rfl }
  hasHandler commandType :=
    (DECLARATIONS.lookup commandType).isSome || others.hasHandler commandType

/-! ## Stretches of a handler -/

inductive HandlerError where
  /-- No database is configured. -/
  | unavailable
  | noSuchJob (jobId : String)
  /-- A receipt names a job that is not there. -/
  | phantomJob (commandId : String)
  | raised

structure JobResult where
  success : Bool
  verified : Option Bool := none

/-- `is_trustworthy_success`. -/
def JobResult.trustworthy (result : JobResult) : Bool :=
  result.success && result.verified != some false

inductive Progress where
  | called
  | resuming (nextRun : String)
  | snoozing (prior : Option String)
  | creating (job : Job)
  | editing (current : Job) (nextRun : String)
  | reloading
  | checking (job : Job)
  | running (job : Job)
  /-- The job is claimed; its handler is to run. -/
  | dispatching (job : Job)
  | settling (job : Job) (result : JobResult)
  | revoking
  | succeeded
  | failed (error : HandlerError)
  /-- The process is gone. -/
  | crashed

/-- What a stretch of a handler meets. -/
structure Surroundings where
  hasPool : Bool
  now : String
  /-- `uuid4().hex`. -/
  hex : String
  /-- `compute_next_run`. -/
  nextRun : String → String
  /-- A statement, or what it calls, raises. -/
  raises : Bool
  /-- `delete_finished_one_shot` goes through. -/
  retires : Bool
  hasJobHandler : String → Bool
  /-- What the job's handler answers. -/
  result : JobResult
  /-- What `_settle` leaves of a one-shot. -/
  settled : Jobs

inductive Change where
  | paused | resumed | created | edited | deleted | snoozed | ran | granted | revoked
  deriving DecidableEq

def Change.byAuthority : Change → Bool
  | .granted | .revoked => true
  | _ => false

structure Moved where
  progress : Progress
  desk : Desk
  change : Option Change := none

variable (x : Surroundings) (d : Desk)

def reading (next : Progress) : Moved :=
  { progress := if x.raises then .failed .raised else next, desk := d }

variable (c : CommandContext)

/-- The transaction of a mutator: the receipt first, and what it does when that is new;
`none` is an exception, on which nothing stays. -/
def guarded (undoPayload : Option String) (x : Surroundings) (d : Desk) (again : Progress)
    (first : Desk → Option Moved) : Moved :=
  if x.raises then { progress := .failed .raised, desk := d }
  else
    match recordCommandExecution c.commandId c.commandType undoPayload d.receipts with
    | (false, _) => { progress := again, desk := d }
    | (true, receipts) =>
      (first { d with receipts := receipts }).getD { progress := .failed .raised, desk := d }

def undoText (fields : List (String × Json)) : String :=
  "\x7b" ++ ", ".intercalate ((dumpsFields fields).map printField) ++ "\x7d"

def pause (jobId : String) (x : Surroundings) (d : Desk) : Moved :=
  guarded c none x d .succeeded fun d =>
    some
      { progress := .succeeded
        desk := { d with jobs := d.jobs.set jobId fun job =>
          { job with status := .failed, enabled := false } }
        change := some .paused }

/-- `resume`, up to its transaction. -/
def resume : Progress :=
  match d.jobs.of jobId with
  | none => .succeeded
  -- a one-shot keeps its own slot
  | some job => .resuming (if job.runOnce then job.nextRunAt else x.nextRun job.schedule)

def resumeUpdate (jobId nextRun : String) (x : Surroundings) (d : Desk) : Moved :=
  guarded c none x d .succeeded fun d =>
    some
      { progress := .succeeded
        desk := { d with jobs := d.jobs.set jobId fun job =>
          { job with
            status := .pending, enabled := true, failureCount := 0, lastError := none
            circuitBrokenAt := none, nextRunAt := nextRun } }
        change := some .resumed }

/-- `snooze`, behind its read of the slot it displaces. -/
def snoozeUpdate (p : SnoozeJobPayload) (prior : Option String) (x : Surroundings) (d : Desk)
    : Moved :=
  let undoPayload := undoText
    [("job_id", .str p.jobId), ("until", prior.elim .null .str)]
  guarded c (some undoPayload) x d .succeeded fun d =>
    some
      { progress := .succeeded
        desk := { d with jobs := d.jobs.set p.jobId fun job =>
          { job with status := .pending, enabled := true, nextRunAt := p.untilIso } }
        change := some .snoozed }

/-- `stop_job`: a job that is gone is no change. -/
def stopJob (jobId : String) (x : Surroundings) (d : Desk) : Moved :=
  guarded c none x d .succeeded fun d =>
    match d.jobs.of jobId with
    | none => some { progress := .succeeded, desk := d }
    | some _ =>
      some
        { progress := .succeeded
          desk := { d with jobs := d.jobs.delete jobId }
          change := some .deleted }

def existingCreatedJob (commandId : String) (d : Desk) : Option Job := do
  let text ← getUndoPayload commandId d.receipts
  let payload ← loads text
  let jobId ← payload.textAt ["job_id"]
  if jobId = "" then none else d.jobs.of jobId

def newJob (p : CreateJobPayload) (x : Surroundings) : Job where
  jobId := p.handlerName ++ "-" ++ String.ofList (x.hex.toList.take 8)
  handlerName := p.handlerName
  schedule := p.schedule
  idempotencyKey := p.handlerName ++ ":" ++
    (p.handlerName ++ "-" ++ String.ofList (x.hex.toList.take 8))
  nextRunAt := x.nextRun p.schedule
  status := .pending
  params := p.params
  replayMissed := p.replayMissed
  primaryChannel := p.primaryChannel
  targetChannels := p.targetChannels
  targetAddresses := p.targetAddresses

/-- The transaction of `create_job`. -/
def createInsert (job : Job) (x : Surroundings) (d : Desk) : Moved :=
  let again := if (existingCreatedJob c.commandId d).isSome then .succeeded
    else .failed (.phantomJob c.commandId)
  guarded c (some (undoText [("job_id", .str job.jobId)])) x d again fun d => do
    let jobs ← Table.insert job d.jobs
    some { progress := .succeeded, desk := { d with jobs := jobs }, change := some .created }

/-- A re-read of the job that `update_job` ends with. -/
def reload : Progress :=
  if (d.jobs.of jobId).isSome then .succeeded else .failed (.noSuchJob jobId)

/-- `update_job`, up to its transaction. -/
def updateJob (p : EditJobPayload) (x : Surroundings) (d : Desk) : Progress :=
  match d.jobs.of p.jobId with
  | none => .failed (.noSuchJob p.jobId)
  | some current => .editing current (p.schedule.elim current.nextRunAt x.nextRun)

/-- `params["goal"] = goal`. -/
def setGoal (goal : Option String) (params : List (String × Json)) : List (String × Json) :=
  match goal with
  | none => params
  | some goal => params.filter (fun field => field.1 ≠ "goal") ++ [("goal", .str goal)]

def editUpdate (p : EditJobPayload) (current : Job) (nextRun : String) (x : Surroundings) (d : Desk)
    : Moved :=
  let undoPayload := undoText
    [("job_id", .str p.jobId), ("schedule", .str current.schedule),
      ("goal", (current.params.lookup "goal").getD .null)]
  guarded c (some undoPayload) x d (reload p.jobId d) fun d =>
    some
      { progress := .reloading
        desk := { d with jobs := d.jobs.set p.jobId fun job =>
          { job with
            schedule := p.schedule.getD current.schedule, nextRunAt := nextRun
            params := setGoal p.goal current.params } }
        change := some .edited }

/-- `run_now`, up to its claim or the look at its runs; every rejection is a success of the
command. -/
def runNow : Progress :=
  match d.jobs.of jobId with
  | none => .failed (.noSuchJob jobId)
  | some job =>
    if job.enabled = false then .succeeded
    else if job.runOnce then .checking job
    else .running job

/-- `_occurrence_completed`, and the retirement of a one-shot that has finished. -/
def checkOccurrence : Moved :=
  if x.raises then { progress := .failed .raised, desk := d }
  else if d.runs.any fun run => run.idempotencyKey == job.occurrenceKey && run.completed then
    { progress := .succeeded
      desk := if x.retires then { d with jobs := d.jobs.delete job.jobId } else d }
  else
    { progress := .running job, desk := d }

/-- The claim of `run_now`. -/
def claimRun (job : Job) (x : Surroundings) (d : Desk) : Moved :=
  guarded c none x d .succeeded fun d =>
    match d.jobs.of job.jobId with
    | some { status := .pending, .. } =>
      some
        { progress := .dispatching job
          desk := { d with jobs := d.jobs.set job.jobId fun job =>
            { job with status := .running, claimedAt := some x.now } } }
    | _ => some { progress := .succeeded, desk := d }

def restoreAfterRun (jobs : Jobs) : Jobs :=
  if job.runOnce then jobs.set job.jobId fun job => { job with status := .pending }
  else jobs.set job.jobId fun stored =>
    { stored with
      status := .pending, lastRunAt := some x.now, nextRunAt := x.nextRun job.schedule }

/-- The job's handler runs, if there is one. -/
def dispatchRun : Moved :=
  if x.hasJobHandler job.handlerName then
    { progress := .settling job x.result, desk := d, change := some .ran }
  else
    { progress := if x.raises then .failed .raised else .succeeded
      desk := if x.raises then d else { d with jobs := restoreAfterRun job x d.jobs } }

/-- What `run_now` records of the run, and what becomes of the job. -/
def settleRun (result : JobResult) (x : Surroundings) (d : Desk) : Moved :=
  if x.raises then { progress := .failed .raised, desk := d }
  else
    { progress := .succeeded
      desk := { d with
        runs := d.runs ++ [⟨job.occurrenceKey, result.trustworthy⟩]
        jobs := if job.runOnce then x.settled else restoreAfterRun job x d.jobs } }

variable (p : AuthorityScopePayload)

def grantAuthority (x : Surroundings) (d : Desk) : Moved :=
  let row : StandingAuthority :=
    { id := x.hex, scopeKind := p.scopeKind, scopeId := p.scopeId,
      commandType := p.commandType, grantedBy := c.requesterKind, grantedAt := x.now }
  match (if x.raises then none else Table.insert row d.authority) with
  | none => { progress := .failed .raised, desk := d }
  | some authority =>
    { progress := .succeeded, desk := { d with authority := authority }
      change := some .granted }

/-- A row `revoke` closes. -/
def StandingAuthority.active (row : StandingAuthority) : Bool :=
  row.scopeKind == p.scopeKind && row.scopeId == p.scopeId &&
    row.commandType == p.commandType && row.revokedAt.isNone

/-- `find_active` finds one. -/
def hasActive (d : Desk) : Bool :=
  d.authority.rows.any (StandingAuthority.active p)

/-- The `UPDATE` of `revoke`. -/
def revokeUpdate (x : Surroundings) (d : Desk) : Moved :=
  if x.raises then { progress := .failed .raised, desk := d }
  else if hasActive p d = false then { progress := .succeeded, desk := d }
  else
    { progress := .succeeded
      desk := { d with
        authority := (d.authority.updateWhere (StandingAuthority.active p) fun row =>
          { row with revokedAt := some x.now }).getD d.authority }
      change := some .revoked }

def call (order : Order) (x : Surroundings) (d : Desk) : Moved :=
  match order with
  | .pauseJob p | .pauseOwlJob p => pause c p.jobId x d
  | .resumeJob p | .resumeOwlJob p => reading x d (resume p.jobId x d)
  | .createJob p =>
    reading x d
      (if (existingCreatedJob c.commandId d).isSome then .succeeded
      else .creating (newJob p x))
  | .editJob p => reading x d (updateJob p x d)
  | .deleteJob p => stopJob c p.jobId x d
  | .runNowJob p => reading x d (runNow p.jobId d)
  | .setOwlSchedule p => reading x d (.snoozing ((d.jobs.of p.jobId).map Job.nextRunAt))
  | .grant p => grantAuthority c p x d
  | .revoke p => reading x d (if hasActive p d then .revoking else .succeeded)

def advance (order : Order) (progress : Progress) (x : Surroundings) (d : Desk) : Moved :=
  match order, progress with
  | order, .called =>
    if x.hasPool then call c order x d
    else { progress := .failed .unavailable, desk := d }
  | .resumeJob p, .resuming nextRun | .resumeOwlJob p, .resuming nextRun =>
    resumeUpdate c p.jobId nextRun x d
  | .setOwlSchedule p, .snoozing prior => snoozeUpdate c p prior x d
  | .createJob _, .creating job => createInsert c job x d
  | .editJob p, .editing current nextRun => editUpdate c p current nextRun x d
  | .editJob p, .reloading => reading x d (reload p.jobId d)
  | .runNowJob _, .checking job => checkOccurrence job x d
  | .runNowJob _, .running job => claimRun c job x d
  | .runNowJob _, .dispatching job => dispatchRun job x d
  | .runNowJob _, .settling job result => settleRun job result x d
  | .revoke p, .revoking => revokeUpdate p x d
  | _, progress => { progress := progress, desk := d }

/-! ## What a stretch can do -/

def Progress.fails : Progress → Bool
  | .failed _ => true
  | _ => false

/-- The next stretch of the handler finds what it reads: its job, or the job that the
command's receipt names; `grant` has nothing to find. -/
def repeatable (order : Order) (progress : Progress) (d : Desk) : Bool :=
  match order, progress with
  | .createJob _, .creating _ => (existingCreatedJob c.commandId d).isSome
  | .editJob p, .called | .editJob p, .editing _ _ | .editJob p, .reloading =>
    (d.jobs.of p.jobId).isSome
  | .runNowJob p, .called => (d.jobs.of p.jobId).isSome
  | .grant _, .called => false
  | _, _ => true

/-- The command writes a receipt before it changes anything. -/
def Order.receipted : Order → Bool
  | .grant _ | .revoke _ => false
  | _ => true

/-- The next stretch of the handler may write to `standing_authority`. -/
def writesAuthority (order : Order) (progress : Progress) (d : Desk) : Bool :=
  match order, progress with
  | .grant _, .called => true
  | .revoke p, .revoking => hasActive p d
  | _, _ => false

def Order.runsJob : Order → Bool
  | .runNowJob _ => true
  | _ => false

def claims (order : Order) : Progress → Bool
  | .dispatching _ => order.runsJob
  | _ => false

theorem of_claims {order : Order} {progress : Progress} (h : claims order progress = true) :
    ∃ p job, order = .runNowJob p ∧ progress = .dispatching job := by
  cases progress with
  | dispatching job =>
    cases order with
    | runNowJob p => exact ⟨p, job, rfl, rfl⟩
    | _ => cases h
  | _ => cases h

/-- What a stretch can do: nothing to the receipts, and no change; the first receipt of
the command, and a change or a claim; the run of a claimed job; or a change without a
receipt. -/
inductive Moves (c : CommandContext) (order : Order) (progress : Progress) (d : Desk)
    (m : Moved) : Prop where
  | still (hchange : m.change = none) (hreceipts : m.desk.receipts = d.receipts)
      (hidle : claims order m.progress = false)
  | first (hfree : d.receipts.of c.commandId = none)
      (hkept : ∀ id, (d.receipts.of id).isSome → (m.desk.receipts.of id).isSome)
      (hrecorded : (m.desk.receipts.of c.commandId).isSome)
      (hreceipted : order.receipted = true) (hbefore : claims order progress = false)
      (hone : m.change = none ∨ claims order m.progress = false)
  | ran (hbefore : claims order progress = true) (hidle : claims order m.progress = false)
      (hreceipts : m.desk.receipts = d.receipts)
  | authority (hreceipted : order.receipted = false)
      (hbefore : claims order progress = false) (hidle : claims order m.progress = false)
      (hreceipts : m.desk.receipts = d.receipts)
      (hwrites : writesAuthority order progress d = true)
      (hkind : ∀ change, m.change = some change → change.byAuthority = true)

section

variable {c} {order : Order} {progress : Progress} {x} {d}

theorem Moves.kept {m : Moved} (h : Moves c order progress d m) {id : String}
    (hid : (d.receipts.of id).isSome = true) : (m.desk.receipts.of id).isSome = true := by
  cases h with
  | still _ hreceipts => rw [hreceipts]; exact hid
  | first _ hkept => exact hkept id hid
  | ran _ _ hreceipts => rw [hreceipts]; exact hid
  | authority _ _ _ hreceipts => rw [hreceipts]; exact hid

variable {next : Progress}

theorem reading_moves (hnext : claims order next = false) :
    Moves c order progress d (reading x d next) := by
  refine .still rfl rfl ?_
  unfold reading
  cases x.raises with
  | true => rfl
  | false => exact hnext

variable {again : Progress} {undoPayload : Option String} {first : Desk → Option Moved}

theorem guarded_moves (hreceipted : order.receipted = true)
    (hbefore : claims order progress = false) (hagain : claims order again = false)
    (hfirst : ∀ d m, first d = some m → m.desk.receipts = d.receipts ∧
      (m.change = none ∨ claims order m.progress = false)) :
    Moves c order progress d (guarded c undoPayload x d again first) := by
  unfold guarded
  split
  · exact .still rfl rfl rfl
  rcases recordCommandExecution_spec c.commandId c.commandType undoPayload d.receipts with
    ⟨r, -, hrecord⟩ | ⟨hfree, receipts, hrecord, hof⟩
  · rw [hrecord]
    exact .still rfl rfl hagain
  · rw [hrecord]
    dsimp only
    cases hm : first { d with receipts := receipts } with
    | none => exact .still rfl rfl rfl
    | some m =>
      obtain ⟨hreceipts, hone⟩ := hfirst _ m hm
      refine .first hfree (fun id hid => ?_) ?_ hreceipted hbefore hone
      · have hkept := receipt_kept c.commandId c.commandType undoPayload hid
        rw [hrecord] at hkept
        rw [getD_some, hreceipts]
        exact hkept
      · rw [getD_some, hreceipts, hof, if_pos rfl]
        exact isSome_or.trans (Bool.or_true _)

theorem pause_moves (hreceipted : order.receipted = true) :
    Moves c order .called d (pause c jobId x d) := by
  refine guarded_moves hreceipted rfl rfl fun d m hm => ?_
  cases hm
  exact ⟨rfl, .inr rfl⟩

theorem resume_idle : claims order (resume jobId x d) = false := by
  unfold resume
  split <;> rfl

theorem resumeUpdate_moves (nextRun : String) (hreceipted : order.receipted = true) :
    Moves c order (.resuming nextRun) d (resumeUpdate c jobId nextRun x d) := by
  refine guarded_moves hreceipted rfl rfl fun d m hm => ?_
  cases hm
  exact ⟨rfl, .inr rfl⟩

theorem snoozeUpdate_moves (p : SnoozeJobPayload) (prior : Option String)
    (hreceipted : order.receipted = true) :
    Moves c order (.snoozing prior) d (snoozeUpdate c p prior x d) := by
  unfold snoozeUpdate
  refine guarded_moves hreceipted rfl rfl fun d m hm => ?_
  cases hm
  exact ⟨rfl, .inr rfl⟩

theorem stopJob_moves (hreceipted : order.receipted = true) :
    Moves c order .called d (stopJob c jobId x d) := by
  refine guarded_moves hreceipted rfl rfl fun d m hm => ?_
  split at hm
  · cases hm
    exact ⟨rfl, .inr rfl⟩
  · cases hm
    exact ⟨rfl, .inr rfl⟩

theorem createInsert_moves (hreceipted : order.receipted = true) :
    Moves c order (.creating job) d (createInsert c job x d) := by
  unfold createInsert
  refine guarded_moves hreceipted rfl ?_ fun d m hm => ?_
  · split <;> rfl
  · obtain ⟨jobs, -, heq⟩ := bind_eq_some_iff.mp hm
    cases heq
    exact ⟨rfl, .inr rfl⟩

theorem reload_idle : claims order (reload jobId d) = false := by
  unfold reload
  split <;> rfl

theorem updateJob_idle (p : EditJobPayload) : claims order (updateJob p x d) = false := by
  unfold updateJob
  split <;> rfl

theorem editUpdate_moves (p : EditJobPayload) (current : Job) (nextRun : String)
    (hreceipted : order.receipted = true) :
    Moves c order (.editing current nextRun) d (editUpdate c p current nextRun x d) := by
  unfold editUpdate
  refine guarded_moves hreceipted rfl (reload_idle p.jobId) fun d m hm => ?_
  cases hm
  exact ⟨rfl, .inr rfl⟩

theorem runNow_idle : claims order (runNow jobId d) = false := by
  unfold runNow
  split
  · rfl
  split
  · rfl
  split <;> rfl

theorem checkOccurrence_moves :
    Moves c order (.checking job) d (checkOccurrence job x d) := by
  unfold checkOccurrence
  split
  · exact .still rfl rfl rfl
  split
  · refine .still rfl ?_ rfl
    split <;> rfl
  · exact .still rfl rfl rfl

theorem claimRun_moves (hreceipted : order.receipted = true) :
    Moves c order (.running job) d (claimRun c job x d) := by
  refine guarded_moves hreceipted rfl rfl fun d m hm => ?_
  split at hm
  · cases hm
    exact ⟨rfl, .inl rfl⟩
  · cases hm
    exact ⟨rfl, .inl rfl⟩

theorem dispatchRun_moves (p : JobLifecyclePayload) :
    Moves c (.runNowJob p) (.dispatching job) d (dispatchRun job x d) := by
  unfold dispatchRun
  split
  · exact .ran rfl rfl rfl
  · refine .ran rfl ?_ ?_
    · dsimp only
      split <;> rfl
    · dsimp only
      split <;> rfl

theorem settleRun_moves (result : JobResult) :
    Moves c order (.settling job result) d (settleRun job result x d) := by
  unfold settleRun
  split
  · exact .still rfl rfl rfl
  · exact .still rfl rfl rfl

theorem grantAuthority_moves :
    Moves c (.grant p) .called d (grantAuthority c p x d) := by
  unfold grantAuthority
  dsimp only
  split
  · exact .still rfl rfl rfl
  · refine .authority rfl rfl rfl rfl rfl fun change hchange => ?_
    cases hchange
    rfl

theorem revokeUpdate_moves :
    Moves c (.revoke p) .revoking d (revokeUpdate p x d) := by
  unfold revokeUpdate
  split
  · exact .still rfl rfl rfl
  split
  · exact .still rfl rfl rfl
  · rename_i hactive
    refine .authority rfl rfl rfl rfl (Bool.of_not_eq_false hactive) fun change hchange => ?_
    cases hchange
    rfl

theorem call_moves : Moves c order .called d (call c order x d) := by
  cases order with
  | pauseJob p => exact pause_moves p.jobId rfl
  | pauseOwlJob p => exact pause_moves p.jobId rfl
  | resumeJob p => exact reading_moves (resume_idle p.jobId)
  | resumeOwlJob p => exact reading_moves (resume_idle p.jobId)
  | createJob p =>
    refine reading_moves ?_
    split <;> rfl
  | editJob p => exact reading_moves (updateJob_idle p)
  | deleteJob p => exact stopJob_moves p.jobId rfl
  | runNowJob p => exact reading_moves (runNow_idle p.jobId)
  | setOwlSchedule p => exact reading_moves rfl
  | grant p => exact grantAuthority_moves p
  | revoke p =>
    refine reading_moves ?_
    split <;> rfl

/-- **What a stretch can do.** -/
theorem advance_moves : Moves c order progress d (advance c order progress x d) := by
  unfold advance
  split
  · split
    · exact call_moves
    · exact .still rfl rfl rfl
  · exact resumeUpdate_moves _ _ rfl
  · exact resumeUpdate_moves _ _ rfl
  · exact snoozeUpdate_moves _ _ rfl
  · exact createInsert_moves _ rfl
  · exact editUpdate_moves _ _ _ rfl
  · exact reading_moves (reload_idle _)
  · exact checkOccurrence_moves _
  · exact claimRun_moves _ rfl
  · exact dispatchRun_moves _ _
  · exact settleRun_moves _ _
  · exact revokeUpdate_moves _
  · -- every stretch that is about to run a job is named above
    rename_i hdispatching _ _
    refine .still rfl rfl ?_
    by_contra hclaims
    obtain ⟨p, job, rfl, rfl⟩ := of_claims (Bool.of_not_eq_false hclaims)
    exact hdispatching p job rfl rfl

/-! ## Repeats -/

theorem reading_fails (hraises : x.raises = false) (hnext : next.fails = false)
    : (reading x d next).progress.fails = false := by
  rw [reading, hraises]
  exact hnext

theorem guarded_fails (hraises : x.raises = false) (hagain : again.fails = false)
    (hfirst : d.receipts.of c.commandId = none → ∀ d, ∃ m, first d = some m ∧
      m.progress.fails = false) :
    (guarded c undoPayload x d again first).progress.fails = false := by
  rw [guarded, hraises, if_neg Bool.false_ne_true]
  rcases recordCommandExecution_spec c.commandId c.commandType undoPayload d.receipts with
    ⟨r, -, hrecord⟩ | ⟨hfree, receipts, hrecord, -⟩
  · rw [hrecord]
    exact hagain
  · obtain ⟨m, hm, hsucceeds⟩ := hfirst hfree { d with receipts := receipts }
    rw [hrecord]
    simp only [hm, getD_some]
    exact hsucceeds

theorem receipt_of_existing (h : (existingCreatedJob c.commandId d).isSome = true) :
    d.receipts.of c.commandId ≠ none := by
  intro hfree
  rw [existingCreatedJob, getUndoPayload, hfree] at h
  cases h

theorem reload_fails {jobId : String} (hjob : (d.jobs.of jobId).isSome = true) :
    (reload jobId d).fails = false := by
  rw [reload, if_pos hjob]
  rfl

theorem call_fails (hraises : x.raises = false)
    (hrepeats : repeatable c order .called d = true) :
    (call c order x d).progress.fails = false := by
  cases order with
  | pauseJob p | pauseOwlJob p =>
    exact guarded_fails hraises rfl fun _ d => ⟨_, rfl, rfl⟩
  | resumeJob p | resumeOwlJob p =>
    refine reading_fails hraises ?_
    unfold resume
    split <;> rfl
  | createJob p =>
    refine reading_fails hraises ?_
    split <;> rfl
  | editJob p =>
    obtain ⟨job, hjob⟩ := isSome_iff_exists.mp hrepeats
    refine reading_fails hraises ?_
    rw [updateJob, hjob]
    rfl
  | deleteJob p =>
    refine guarded_fails hraises rfl fun _ d => ?_
    cases d.jobs.of p.jobId with
    | none => exact ⟨_, rfl, rfl⟩
    | some job => exact ⟨_, rfl, rfl⟩
  | runNowJob p =>
    obtain ⟨job, hjob⟩ := isSome_iff_exists.mp hrepeats
    refine reading_fails hraises ?_
    simp only [runNow, hjob]
    split
    · rfl
    split <;> rfl
  | setOwlSchedule p => exact reading_fails hraises rfl
  | grant p => cases hrepeats
  | revoke p =>
    refine reading_fails hraises ?_
    split <;> rfl

/-- **A repeat does not fail.** -/
theorem advance_fails (hpool : x.hasPool = true) (hraises : x.raises = false)
    (hrepeats : repeatable c order progress d = true) (hprogress : progress.fails = false) :
    (advance c order progress x d).progress.fails = false := by
  unfold advance
  split
  · rw [if_pos hpool]
    exact call_fails hraises hrepeats
  · exact guarded_fails hraises rfl fun _ d => ⟨_, rfl, rfl⟩
  · exact guarded_fails hraises rfl fun _ d => ⟨_, rfl, rfl⟩
  · exact guarded_fails hraises rfl fun _ d => ⟨_, rfl, rfl⟩
  · have hexisting : (existingCreatedJob c.commandId d).isSome = true := hrepeats
    refine guarded_fails hraises ?_ fun hfree => absurd hfree (receipt_of_existing hexisting)
    rw [if_pos hexisting]
    rfl
  · exact guarded_fails hraises (reload_fails hrepeats) fun _ d => ⟨_, rfl, rfl⟩
  · exact reading_fails hraises (reload_fails hrepeats)
  · rw [checkOccurrence, hraises, if_neg Bool.false_ne_true]
    split <;> rfl
  · refine guarded_fails hraises rfl fun _ d => ?_
    split
    · exact ⟨_, rfl, rfl⟩
    · exact ⟨_, rfl, rfl⟩
  · unfold dispatchRun
    rw [hraises]
    split <;> rfl
  · rw [settleRun, hraises]
    rfl
  · rw [revokeUpdate, hraises, if_neg Bool.false_ne_true]
    split <;> rfl
  · exact hprogress

end

end StackOwl.Commands
