import StackOwl.Lib.Run
import StackOwl.Scheduler.Rows

/-!
# The coroutines of the scheduler

`scheduler/scheduler.py`, `scheduler_mutations.py` and `scheduler_helpers.py`, statement by
statement.  A routine is a coroutine at work on one job: a dispatch from its read of the row
to its settlement, a request of the user, a reaper or the sweep.  It holds the row as it
read it, and goes on in stretches, each with one statement or transaction; between two
stretches of a routine any other may run.

A stretch meets an answer: what the job's handler returns, whether it is registered, and
whether a `DELETE` or an `INSERT` whose failure is caught goes through.  Where a statement
raises, the routine is gone.  The schedule language is a parameter.

## Main results

* `mem_advance` — the routines behind a stretch.
* `stretch_next_cases`, `stretch_leaves` — where a routine goes on behind a stretch, and what
  the stretch makes of its row.
-/

namespace StackOwl.Scheduler

open Lib Option
open Durable (classifyFailure)

def MAX_RETRIES : Nat := 3

/-- `_RETRY_DELAY_MIN`, in seconds. -/
def RETRY_DELAY_SEC : Nat := 5 * 60

def STALE_RUNNING_AFTER_SEC : Nat := 2400

def ONE_SHOT_REARM_BACKOFF_SEC : List Nat := [300, 900, 1800, 3600]

def rearmDelay (attempt : Int) : Nat :=
  ONE_SHOT_REARM_BACKOFF_SEC.getD
    (min (attempt - 1).toNat (ONE_SHOT_REARM_BACKOFF_SEC.length - 1)) 0

/-- What the scheduler's coroutines ask that depends on no row. -/
structure World where
  /-- `compute_next_run` of a schedule, in the configured timezone. -/
  computeNextRun : String → Instant → Instant
  /-- A slot lies behind the time, or is no date. -/
  stuck : String → Instant → Bool
  /-- A missed slot lies inside the replay window; `none` where it is no date. -/
  insideWindow : String → Instant → Option Bool
  /-- `_loses_an_occurrence` of a schedule. -/
  losesAnOccurrence : String → Instant → Bool
  permanentClasses : List String
  /-- `_unify_scheduler_enabled`. -/
  unifyScheduler : Bool

def shouldRetry (consequential transient unverifiedEffect : Bool) : Bool :=
  if consequential then false else transient || unverifiedEffect

def World.mayRetry (w : World) : Bool :=
  if w.unifyScheduler then shouldRetry false true false else true

/-- `is_permanent(classify_failure(error))`. -/
def World.permanent (w : World) (error : Option String) : Bool :=
  classifyFailure error ≠ "" && w.permanentClasses.contains (classifyFailure error)

/-! ## Routines -/

/-- What `update_job` is called with. -/
structure Edit where
  schedule : Option String := none
  goal : Option String := none
  params : Option (List (String × Json)) := none

inductive Read where
  /-- The due query of a poll. -/
  | due
  /-- The query of `recover` for overdue jobs. -/
  | missed
  | runNow
  | resume
  | edit (e : Edit)
  /-- `reap_timed_out_running`. -/
  | timedOut
  /-- `reap_stale_running`. -/
  | stale
  /-- `_retire_recorded_terminal_one_shots`. -/
  | terminal

inductive Phase where
  /-- `job_runs` is asked for the occurrence next. -/
  | checking
  /-- The occurrence is recorded. -/
  | skipping
  | claiming
  /-- The job is claimed, and has no handler. -/
  | releasing
  /-- The job's handler runs. -/
  | executing
  /-- `run_now` records the run next. -/
  | recording (result : JobResult)
  | settling (result : JobResult)
  /-- `_restore_after_run` of a run. -/
  | restoring (result : JobResult)
  /-- The deletion of a finished one-shot has failed. -/
  | noting
  /-- A permanently failed one-shot could not be retired. -/
  | keeping (error : Option String)
  | resuming
  | editing (e : Edit)
  | reaping
  | reapingStale
  /-- `recover` drops a missed occurrence. -/
  | dropping
  | healing (recorded : Bool)

/-- A coroutine at work on a job. -/
structure Routine where
  id : Nat
  jobId : String
  /-- The row as it was read. -/
  job : Row
  read : Read
  phase : Phase
  claimedAt : Instant

def Read.isRunNow : Read → Bool
  | .runNow => true
  | _ => false

def Phase.holds : Phase → Bool
  | .releasing | .executing | .recording _ | .settling _ | .restoring _ | .noting
  | .keeping _ => true
  | _ => false

/-- The handler of the job has started, and its run is not settled. -/
def Phase.unsettled : Phase → Bool
  | .executing | .recording _ | .settling _ | .restoring _ | .noting | .keeping _ => true
  | _ => false

def Phase.isClaiming : Phase → Bool
  | .claiming => true
  | _ => false

def Phase.isChecking : Phase → Bool
  | .checking => true
  | _ => false

structure Answer where
  /-- `_should_defer_under_load`. -/
  defer : Bool := false
  hasHandler : Bool := true
  /-- What the handler returns, or its exception or timeout comes to. -/
  result : JobResult := { success := true }
  /-- The statement whose failure is caught goes through. -/
  goes : Bool := true
  /-- The audit row is written. -/
  audits : Bool := true

/-- A stretch of a routine: what its transaction does, and where the routine is then. -/
structure Stretch where
  write : Write := .keep
  run : Option Commands.JobRun := none
  audit : Bool := false
  next : Option Phase := none

variable (w : World) (now : Instant) (x : Answer)

/-! ### Dispatching -/

variable (k : Routine)

/-- The dedup of `_run_job`, and `_occurrence_completed`. -/
def lookUp (recorded : Bool) : Stretch :=
  if x.defer && !k.read.isRunNow then {}
  else { next := some (if recorded then .skipping else .claiming) }

def World.nextRun (schedule : String) : String := isoformat (w.computeNextRun schedule now)

/-- `delete_finished_one_shot`. -/
def retire : Write := if x.goes then .delete else .keep

variable (job : Row)

/-- `_advance_past_serviced_occurrence`; `run_now` comes here with one-shots alone. -/
def advancePastServicedOccurrence : Stretch :=
  if job.runOnce then { write := retire x }
  else if w.stuck job.nextRunAt now then
    { write := .set fun row => { row with nextRunAt := w.nextRun now job.schedule } }
  else {}

/-- The compare-and-swap of `_run_job` and `run_now`. -/
def claim (row : Option Row) : Stretch :=
  if row.any (fun row => row.status = .pending) then
    { write := .set fun row =>
        { row with status := .running, claimedAt := some (isoformat now) }
      next := some (if x.hasHandler then .executing else .releasing) }
  else {}

def restoreAfterRun : Write :=
  if job.runOnce then .set fun row => { row with status := .pending }
  else .set fun row =>
    { row with
      status := .pending, lastRunAt := some (isoformat now)
      nextRunAt := w.nextRun now job.schedule }

def release : Stretch :=
  { write :=
      if k.read.isRunNow then restoreAfterRun w now k.job
      else .set fun row => { row with status := .pending } }

/-- `_record_run`; the insertion raises for a job that is gone. -/
def recordRun (result : JobResult) (row : Option Row) : Stretch :=
  match row with
  | none => {}
  | some _ =>
    { run := some ⟨job.occurrenceKey, result.trustworthy⟩
      next := some (if job.runOnce then .settling result else .restoring result) }

/-! ### Settling -/

def markCompleted : Stretch :=
  -- a one-shot has no next occurrence
  if job.runOnce then
    { write := retire x, next := if x.goes then none else some .noting }
  else
    { write := .set fun row =>
        { row with
          status := .pending, lastRunAt := some (isoformat now)
          nextRunAt := w.nextRun now job.schedule
          retryCount := 0, retryAt := none, failureCount := 0, lastError := none }
      run := some ⟨job.occurrenceKey, true⟩ }

variable (lastError : Option String)

def rearmOneShot : Stretch :=
  { write := .set fun row =>
      { row with
        status := .pending, lastRunAt := some (isoformat now)
        nextRunAt := isoformat (now.plus (rearmDelay (job.failureCount + 1)))
        retryCount := 0, retryAt := none, failureCount := job.failureCount + 1, lastError } }

/-- `early_retry_at`: the ladder's rung for a recurring job, where it lies before the slot. -/
def earlyRetryAt : Option String :=
  let candidate := isoformat (now.plus (rearmDelay (job.failureCount + 1)))
  if w.permanent lastError = false ∧ candidate < w.nextRun now job.schedule then some candidate
  else none

def markFailed : Stretch :=
  if job.runOnce then
    if w.permanent lastError then
      { write := if x.audits then retire x else .keep
        audit := x.audits
        next := if x.audits && x.goes then none else some (.keeping lastError) }
    else rearmOneShot now job lastError
  else
    { write := .set fun row =>
        { row with
          status := .pending, lastRunAt := some (isoformat now)
          nextRunAt := w.nextRun now job.schedule
          retryCount := 0, retryAt := earlyRetryAt w now job lastError
          failureCount := job.failureCount + 1, lastError } }

/-- A failed run is retried at its own slot. -/
def willRetry : Bool := decide (job.retryCount + 1 < MAX_RETRIES) && w.mayRetry

def settle (result : JobResult) : Stretch :=
  if result.trustworthy then markCompleted w now x job
  else if willRetry w job then
    { write := .set fun row =>
        { row with
          status := .pending, retryCount := job.retryCount + 1
          retryAt := some (isoformat (now.plus RETRY_DELAY_SEC)) } }
  else markFailed w now x job result.error

/-- What `_retire_completed_one_shot` does when the deletion has failed. -/
def noteRun : Stretch :=
  { run := if x.goes then some ⟨job.occurrenceKey, true⟩ else none }

/-- What `_mark_failed` does when a one-shot could not be retired. -/
def keepFailed : Stretch :=
  { write := if x.goes then .set fun row => { row with status := .failed, lastError }
      else .keep }

/-! ### Requests and upkeep -/

/-- The slot `resume` writes: a one-shot keeps the one it had when it was read. -/
def resumedSlot : String :=
  if job.runOnce then job.nextRunAt else w.nextRun now job.schedule

def resumeUpdate : Stretch :=
  { write := .set fun row =>
      { row with
        status := .pending, enabled := true, failureCount := 0, lastError := none
        circuitBrokenAt := none, nextRunAt := resumedSlot w now job } }

def PROTECTED_PARAM_KEYS : List String := ["owl", "created_by"]

/-- `merged_params`. -/
def Edit.merge (e : Edit) (params : List (String × Json)) : List (String × Json) :=
  let safe := (e.params.getD []).filter fun field => field.1 ∉ PROTECTED_PARAM_KEYS
  Commands.setGoal e.goal
    (params.filter (fun field => (safe.lookup field.1).isNone) ++ safe)

/-- The slot `update_job` writes: it moves with the schedule alone. -/
def Edit.slot (e : Edit) (job : Row) : String :=
  e.schedule.elim job.nextRunAt (w.nextRun now)

def editUpdate (e : Edit) (job : Row) : Stretch :=
  { write := .set fun row =>
      { row with
        schedule := e.schedule.getD job.schedule, nextRunAt := e.slot w now job
        params := e.merge job.params } }

/-- The guarded `UPDATE` of `reap_timed_out_running`. -/
def reap : Stretch :=
  { write := .set fun row =>
      match row.status with
      | .running => { row with status := .pending }
      | _ => row }

/-- The `UPDATE`s of `reap_stale_running`. -/
def reapStale : Stretch :=
  { write :=
      if job.runOnce then .set fun row => { row with status := .pending }
      else .set fun row =>
        { row with status := .pending, nextRunAt := w.nextRun now job.schedule } }

def dropMissed : Stretch :=
  { write := .set fun row => { row with nextRunAt := w.nextRun now job.schedule } }

/-- A turn of the sweep: the audit row first, where it is missing. -/
def heal (recorded : Bool) : Stretch :=
  if recorded then { write := retire x }
  else { audit := x.audits, next := if x.audits then some (.healing true) else none }

/-! ### One stretch -/

def Routine.stretch (db : Tables) (k : Routine) : Stretch :=
  match k.phase with
  | .checking => lookUp x k (db.completed k.job.occurrenceKey)
  | .skipping => advancePastServicedOccurrence w now x k.job
  | .claiming => claim now x (db.jobs k.jobId)
  | .releasing => release w now k
  | .executing =>
    { next := some (if k.read.isRunNow then .recording x.result else .settling x.result) }
  | .recording result => recordRun k.job result (db.jobs k.jobId)
  | .settling result => settle w now x k.job result
  | .restoring _ => { write := restoreAfterRun w now k.job }
  | .noting => noteRun x k.job
  | .keeping error => keepFailed x error
  | .resuming => resumeUpdate w now k.job
  | .editing e => editUpdate w now e k.job
  | .reaping => reap
  | .reapingStale => reapStale w now k.job
  | .dropping => dropMissed w now k.job
  | .healing recorded => heal x recorded

/-! ## Reads -/

variable (row : Row)

/-- The due query: a pending retry alone governs. -/
def Row.due : Bool :=
  match row.retryAt with
  | some retryAt => decide (retryAt ≤ isoformat now)
  | none => decide (row.nextRunAt ≤ isoformat now)

def Row.shouldReplay : Bool :=
  row.replayMissed || row.runOnce || w.losesAnOccurrence row.schedule now

/-- What a routine does with the row it reads; `none` where the read does not take it. -/
def Read.begin (audited : Bool) : Read → Option Phase
  | .due =>
    if row.status = .pending ∧ row.enabled = true ∧ row.due now = true then some .checking
    else none
  | .missed =>
    if row.status = .pending ∧ row.nextRunAt ≤ isoformat now then
      match w.insideWindow row.nextRunAt now with
      | none => none
      | some inside =>
        if row.shouldReplay w now && inside then some .checking
        else if row.runOnce then none else some .dropping
    else none
  | .runNow =>
    if row.enabled = true then some (if row.runOnce then .checking else .claiming) else none
  | .resume => some .resuming
  | .edit e => some (.editing e)
  | .timedOut =>
    match row.status, row.claimedAt with
    | .running, some claimedAt =>
      if claimedAt < isoformat (now.minus STALE_RUNNING_AFTER_SEC) then some .reaping
      else none
    | _, _ => none
  | .stale => if row.status = .running then some .reapingStale else none
  | .terminal =>
    if row.status = .failed ∧ row.enabled = true ∧ row.storedRunOnce = true then
      some (.healing audited)
    else none

/-! ## The system -/

structure System where
  db : Tables
  routines : List Routine
  clock : Instant

inductive Op where
  | tick (t : Instant)
  | read (id : Nat) (r : Read) (jobId : String)
  | advance (id : Nat) (x : Answer)
  /-- A statement of the routine raises. -/
  | abort (id : Nat)
  | pause (jobId : String)
  | snooze (jobId untilIso : String)
  | stop (jobId : String)
  /-- The process is gone, and another has started. -/
  | restart

namespace System

variable (s : System)

def find (id : Nat) : Option Routine := s.routines.find? fun k => k.id == id

def others (id : Nat) : List Routine := s.routines.filter fun k => k.id ≠ id

def moved (phase : Phase) : Routine :=
  { k with
    phase := phase
    claimedAt := if k.phase.isClaiming then s.clock else k.claimedAt }

def update (jobId : String) (write : Write) : System :=
  { s with db := s.db.commit jobId write none false }

def advance (x : Answer) : System :=
  let stretch := k.stretch w s.clock x s.db
  { s with
    db := s.db.commit k.jobId stretch.write stretch.run stretch.audit
    routines := s.others k.id ++ (stretch.next.map (s.moved k)).toList }

def start (id : Nat) (r : Read) (jobId : String) (row : Row) : System :=
  match r.begin w s.clock row (s.db.audited.contains jobId) with
  | none => s
  | some phase =>
    { s with
      routines := s.routines ++
        [{ id, jobId, job := row, read := r, phase, claimedAt := s.clock }] }

end System

/-- `pause`. -/
def pauseRow : Row := { row with status := .failed, enabled := false }

/-- `snooze`. -/
def snoozeRow (untilIso : String) (row : Row) : Row :=
  { row with status := .pending, enabled := true, nextRunAt := untilIso }

def step (s : System) : Op → System
  | .tick t => { s with clock := max s.clock t }
  | .read id r jobId =>
    match s.find id, s.db.jobs jobId with
    | none, some row => s.start w id r jobId row
    | _, _ => s
  | .advance id x =>
    match s.find id with
    | some k => s.advance w k x
    | none => s
  | .abort id => { s with routines := s.others id }
  | .pause jobId => s.update jobId (.set pauseRow)
  | .snooze jobId untilIso => s.update jobId (.set (snoozeRow untilIso))
  | .stop jobId => s.update jobId .delete
  | .restart => { s with routines := [] }

def System.starts (s : System) : Op → Option String
  | .advance id x =>
    match s.find id with
    | some k =>
      if k.phase.isClaiming && x.hasHandler &&
          (s.db.jobs k.jobId).any (fun row => row.status = .pending) then
        some k.jobId
      else none
    | none => none
  | _ => none

/-! ## Stretches and steps -/

variable {w now x} {s : System}

namespace System

variable {id : Nat}

theorem find_spec {k : Routine} (h : s.find id = some k) :
    k ∈ s.routines ∧ k.id = id := by
  rw [find] at h
  have hid := List.find?_some h
  exact ⟨List.mem_of_find?_eq_some h, beq_iff_eq.mp hid⟩

theorem mem_others {k : Routine} :
    k ∈ s.others id ↔ k ∈ s.routines ∧ k.id ≠ id := by
  simp [others]

theorem mem_advance {k b : Routine} :
    b ∈ (s.advance w k x).routines ↔
      (b ∈ s.routines ∧ b.id ≠ k.id) ∨
        ∃ phase, (k.stretch w s.clock x s.db).next = some phase ∧ b = s.moved k phase := by
  rw [advance, List.mem_append, mem_others]
  refine or_congr Iff.rfl ?_
  rw [mem_toList, map_eq_some_iff]
  exact exists_congr fun phase => and_congr Iff.rfl eq_comm

theorem mem_start {r : Read} {jobId : String} {row : Row} {b : Routine}
    (h : b ∈ (s.start w id r jobId row).routines) :
    b ∈ s.routines ∨
      ∃ phase, r.begin w s.clock row (s.db.audited.contains jobId) = some phase ∧
        b = { id, jobId, job := row, read := r, phase, claimedAt := s.clock } := by
  rw [start] at h
  split at h
  · exact .inl h
  · rename_i phase hbegin
    rcases List.mem_append.mp h with hold | hnew
    · exact .inl hold
    · exact .inr ⟨phase, hbegin, List.mem_singleton.mp hnew⟩

@[simp] theorem start_db (id : Nat) (r : Read) (jobId : String) (row : Row) :
    (s.start w id r jobId row).db = s.db := by
  rw [start]
  split <;> rfl

@[simp] theorem start_clock (id : Nat) (r : Read) (jobId : String) (row : Row) :
    (s.start w id r jobId row).clock = s.clock := by
  rw [start]
  split <;> rfl

theorem moved_claimedAt_of_holds {k : Routine} (h : k.phase.holds = true) (phase : Phase) :
    (s.moved k phase).claimedAt = k.claimedAt := by
  rw [moved]
  cases hphase : k.phase <;> simp_all [Phase.holds, Phase.isClaiming]

end System

theorem any_pending {row : Option Row} :
    row.any (fun row => row.status = .pending) = true ↔
      ∃ found, row = some found ∧ found.status = .pending := by
  cases row <;> simp

variable {phase : Phase}

theorem begin_holds {row : Row} {audited : Bool} {r : Read}
    (h : r.begin w now row audited = some phase) : phase.holds = false := by
  cases r <;> simp only [Read.begin] at h
  case due | stale | terminal =>
    split at h
    · cases h
      rfl
    · cases h
  case resume | edit e =>
    cases h
    rfl
  case runNow =>
    split at h
    · cases h
      split <;> rfl
    · cases h
  case missed =>
    repeat' split at h
    all_goals
      cases h
      try rfl
  case timedOut =>
    repeat' split at h
    all_goals
      cases h
      try rfl

variable {db : Tables} {k}

section

variable (h : (k.stretch w now x db).next = some phase)

include h

theorem stretch_next_cases :
    (k.phase = .checking ∧ (phase = .skipping ∨ phase = .claiming) ∧
        (k.stretch w now x db).write = .keep) ∨
      (k.phase = .claiming ∧ phase.holds = true ∧
        ∃ row, db.jobs k.jobId = some row ∧ row.status = .pending) ∨
      (k.phase.holds = true ∧ phase.holds = true ∧ (k.stretch w now x db).write = .keep) ∨
      phase = .healing true ∧ (k.stretch w now x db).write = .keep := by
  cases hphase : k.phase with
  | checking =>
    simp only [Routine.stretch, hphase, lookUp] at h ⊢
    split at h
    · cases h
    · rename_i hdefer
      cases h
      rw [if_neg hdefer]
      refine .inl ⟨trivial, ?_, rfl⟩
      split
      · exact .inl rfl
      · exact .inr rfl
  | claiming =>
    simp only [Routine.stretch, hphase, claim] at h
    split at h
    · rename_i hpending
      cases h
      refine .inr (.inl ⟨rfl, ?_, any_pending.mp hpending⟩)
      split <;> rfl
    · cases h
  | executing =>
    simp only [Routine.stretch, hphase] at h ⊢
    cases h
    refine .inr (.inr (.inl ⟨rfl, ?_, trivial⟩))
    split <;> rfl
  | recording result =>
    simp only [Routine.stretch, hphase, recordRun] at h ⊢
    split at h
    · cases h
    · cases h
      refine .inr (.inr (.inl ⟨rfl, ?_, rfl⟩))
      split <;> rfl
  | settling result =>
    simp only [Routine.stretch, hphase, settle, markCompleted, markFailed,
      rearmOneShot] at h ⊢
    refine .inr (.inr (.inl ⟨rfl, ?_⟩))
    repeat' split at h
    all_goals
      cases h
      try simp_all [retire, Phase.holds]
  | healing recorded =>
    simp only [Routine.stretch, hphase, heal] at h ⊢
    split at h
    · cases h
    · rename_i hrecorded
      rw [if_neg hrecorded]
      split at h <;> cases h
      exact .inr (.inr (.inr ⟨rfl, rfl⟩))
  | skipping =>
    simp only [Routine.stretch, hphase, advancePastServicedOccurrence] at h
    repeat' split at h
    all_goals cases h
  | releasing | restoring result | noting | keeping error | resuming | editing e | reaping
  | reapingStale | dropping =>
    simp only [Routine.stretch, hphase, release, noteRun, keepFailed, resumeUpdate,
      editUpdate, reap, reapStale, dropMissed] at h
    cases h

/-- A routine holds a claim behind a stretch if it held it before, or has just won it. -/
theorem stretch_holds (hholds : phase.holds = true) :
    k.phase.holds = true ∨
      k.phase = .claiming ∧ ∃ row, db.jobs k.jobId = some row ∧ row.status = .pending := by
  rcases stretch_next_cases h with ⟨-, hlook, -⟩ | ⟨hclaiming, -, hpending⟩ | ⟨hheld, -⟩ |
    ⟨rfl, -⟩
  · rcases hlook with rfl | rfl <;> cases hholds
  · exact .inr ⟨hclaiming, hpending⟩
  · exact .inl hheld
  · cases hholds

/-- A routine that is not done has written nothing, unless it has just claimed its job. -/
theorem stretch_write_of_next : k.phase = .claiming ∨ (k.stretch w now x db).write = .keep := by
  rcases stretch_next_cases h with ⟨-, -, hkeep⟩ | ⟨hclaiming, -⟩ | ⟨-, -, hkeep⟩ | ⟨-, hkeep⟩
  · exact .inr hkeep
  · exact .inl hclaiming
  · exact .inr hkeep
  · exact .inr hkeep

theorem stretch_next :
    phase.holds = true ∨ k.phase = .checking ∧ (phase = .skipping ∨ phase = .claiming) ∨
      phase = .healing true := by
  rcases stretch_next_cases h with ⟨hchecking, hlook, -⟩ | ⟨-, hholds, -⟩ | ⟨-, hholds, -⟩ |
    ⟨hhealing, -⟩
  · exact .inr (.inl ⟨hchecking, hlook⟩)
  · exact .inl hholds
  · exact .inl hholds
  · exact .inr (.inr hhealing)

end

/-- What a stretch makes of its row, where it does not delete it. -/
inductive Routine.Leaves (w : World) (now : Instant) (db : Tables) (k : Routine) (row : Row) :
    Row → Prop
  | same : k.Leaves w now db row row
  | claimed (hphase : k.phase = .claiming)
      (hpending : ∃ found, db.jobs k.jobId = some found ∧ found.status = .pending) :
      k.Leaves w now db row { row with status := .running, claimedAt := some (isoformat now) }
  /-- A run gives up its claim. -/
  | freed (hphase : k.phase = .releasing ∨ (∃ result, k.phase = .settling result) ∨
        ∃ result, k.phase = .restoring result)
      (lastRunAt : Option String) (nextRunAt : String) (retryCount : Nat)
      (retryAt : Option String) (failureCount : Int) (lastError : Option String) :
      k.Leaves w now db row
        { row with
          status := .pending, lastRunAt, nextRunAt, retryCount, retryAt, failureCount,
          lastError }
  | parked (error : Option String) (hphase : k.phase = .keeping error) :
      k.Leaves w now db row { row with status := .failed, lastError := error }
  | moved (hphase : k.phase = .skipping ∧ k.job.runOnce = false ∨ k.phase = .dropping) :
      k.Leaves w now db row { row with nextRunAt := w.nextRun now k.job.schedule }
  | resumed (hphase : k.phase = .resuming) :
      k.Leaves w now db row
        { row with
          status := .pending, enabled := true, failureCount := 0, lastError := none
          circuitBrokenAt := none, nextRunAt := resumedSlot w now k.job }
  | edited (e : Edit) (hphase : k.phase = .editing e) :
      k.Leaves w now db row
        { row with
          schedule := e.schedule.getD k.job.schedule, nextRunAt := e.slot w now k.job
          params := e.merge k.job.params }
  | reaped (hphase : k.phase = .reaping) (hrunning : row.status = .running) :
      k.Leaves w now db row { row with status := .pending }
  | staled (hphase : k.phase = .reapingStale) :
      k.Leaves w now db row
        { row with
          status := .pending
          nextRunAt := if k.job.runOnce then row.nextRunAt
            else w.nextRun now k.job.schedule }

/-- **The inversion of a stretch.** -/
theorem stretch_leaves {row row' : Row} (h : row' ∈ (k.stretch w now x db).write.apply (some row)) :
    k.Leaves w now db row row' := by
  cases hphase : k.phase with
  | checking =>
    simp only [Routine.stretch, hphase, lookUp] at h
    split at h <;>
      · cases h
        exact .same
  | skipping =>
    simp only [Routine.stretch, hphase, advancePastServicedOccurrence, retire] at h
    split at h
    · split at h <;> cases h
      exact .same
    · rename_i honce
      split at h
      · cases h
        exact .moved (.inl ⟨hphase, Bool.eq_false_iff.mpr honce⟩)
      · cases h
        exact .same
  | claiming =>
    simp only [Routine.stretch, hphase, claim] at h
    split at h
    · rename_i hpending
      cases h
      exact .claimed hphase (any_pending.mp hpending)
    · cases h
      exact .same
  | releasing =>
    simp only [Routine.stretch, hphase, release, restoreAfterRun] at h
    repeat' split at h
    all_goals
      cases h
      exact .freed (.inl hphase) _ _ _ _ _ _
  | executing | noting =>
    simp only [Routine.stretch, hphase, noteRun] at h
    cases h
    exact .same
  | recording result =>
    simp only [Routine.stretch, hphase, recordRun] at h
    split at h <;>
      · cases h
        exact .same
  | settling result =>
    simp only [Routine.stretch, hphase, settle, markCompleted, markFailed, rearmOneShot,
      retire] at h
    repeat' split at h
    all_goals
      cases h
      try first
        | exact .freed (.inr (.inl ⟨result, hphase⟩)) _ _ _ _ _ _
        | exact .same
  | restoring result =>
    simp only [Routine.stretch, hphase, restoreAfterRun] at h
    split at h <;>
      · cases h
        exact .freed (.inr (.inr ⟨result, hphase⟩)) _ _ _ _ _ _
  | keeping error =>
    simp only [Routine.stretch, hphase, keepFailed] at h
    split at h <;> cases h
    · exact .parked error hphase
    · exact .same
  | resuming =>
    simp only [Routine.stretch, hphase, resumeUpdate] at h
    cases h
    exact .resumed hphase
  | editing e =>
    simp only [Routine.stretch, hphase, editUpdate] at h
    cases h
    exact .edited e hphase
  | reaping =>
    simp only [Routine.stretch, hphase, reap, Write.apply, map_some,
      mem_some_iff] at h
    split at h
    · rename_i hrunning
      subst h
      exact .reaped hphase hrunning
    · subst h
      exact .same
  | reapingStale =>
    have hrow : row' = { row with
        status := .pending
        nextRunAt := if k.job.runOnce then row.nextRunAt
          else w.nextRun now k.job.schedule } := by
      simp only [Routine.stretch, hphase, reapStale] at h
      split at h <;>
        · rename_i honce
          cases h
          simp [honce]
    rw [hrow]
    exact .staled hphase
  | dropping =>
    simp only [Routine.stretch, hphase, dropMissed] at h
    cases h
    exact .moved (.inr hphase)
  | healing recorded =>
    simp only [Routine.stretch, hphase, heal, retire] at h
    repeat' split at h
    all_goals
      cases h
      try exact .same

/-! ## A small system -/

def dailyWorld : World where
  computeNextRun _ now := now.plus 86400
  stuck slot now := decide (slot ≤ isoformat now)
  insideWindow _ _ := some true
  losesAnOccurrence _ _ := true
  permanentClasses := Durable.PERMANENT_CLASSES_FALLBACK
  unifyScheduler := true

def noon : Instant := ⟨63925502400000000, by decide⟩

/-- A daily job that is due. -/
def digest : Row where
  jobId := "digest-1"
  handlerName := "digest"
  schedule := "every 1d"
  idempotencyKey := "digest:digest-1"
  nextRunAt := isoformat noon
  status := .pending

/-- A process with one job and nothing under way. -/
def idleWith : System where
  db := { jobs := fun jobId => if jobId = row.jobId then some row else none,
          jobRuns := [], audited := [] }
  routines := []
  clock := noon

/-- A poll takes a due job as far as its handler. -/
def pollStarts (id : Nat) (jobId : String) : List Op :=
  [.read id .due jobId, .advance id {}, .advance id {}]

end StackOwl.Scheduler
