import StackOwl.Commands.Handlers

/-!
# What an undo gives back

A reversible scheduling command and the command its undo submits
(`scheduler/commands.py`, `scheduler/scheduler_mutations.py`, `commands/spec/undo.py`), each
run to its end with nothing in between.  `pause` and `resume` are undone by one another with
the same payload; `edit_job` and `set_owl_schedule` by themselves, with what their mutator
captured of the row it overwrote: the schedule and the goal, or the slot.

## Main results

* `perform_spec` — what such a command leaves of the row, and what it captures.
* `undo_restores_iff` — the undo gives back schedule, params, slot, `enabled` and status
  exactly where the row was what the undo writes besides what was captured.
-/

namespace StackOwl.Commands

open Lib Option

/-! ## A command from end to end -/

/-- The stretches of a handler, one after the other. -/
def drive (c : CommandContext) (order : Order) (x : Surroundings) :
    Nat → Progress → Desk → Progress × Desk
  | 0, progress, d => (progress, d)
  | n + 1, progress, d =>
    let m := advance c order progress x d
    drive c order x n m.progress m.desk

variable (order : Order) (x : Surroundings)

/-- The handler of a command is called and runs to its end; none of those below has more
than three stretches. -/
def perform (c : CommandContext) (order : Order) (x : Surroundings) (d : Desk) : Desk :=
  (drive c order x 3 .called d).2

/-- The job whose row a command overwrites and its undo is to give back. -/
def Order.undoTarget : Order → Option String
  | .pauseJob p | .resumeJob p | .pauseOwlJob p | .resumeOwlJob p => some p.jobId
  | .editJob p => some p.jobId
  | .setOwlSchedule p => some p.jobId
  | _ => none

def Order.onRow (job : Job) : Job :=
  match order with
  | .pauseJob _ | .pauseOwlJob _ => { job with status := .failed, enabled := false }
  | .resumeJob _ | .resumeOwlJob _ =>
    { job with
      status := .pending, enabled := true, failureCount := 0, lastError := none
      circuitBrokenAt := none
      nextRunAt := if job.runOnce then job.nextRunAt else x.nextRun job.schedule }
  | .editJob p =>
    { job with
      schedule := p.schedule.getD job.schedule
      nextRunAt := p.schedule.elim job.nextRunAt x.nextRun
      params := setGoal p.goal job.params }
  | .setOwlSchedule p =>
    { job with status := .pending, enabled := true, nextRunAt := p.untilIso }
  | _ => job

/-! ## The undo's payload -/

/-- The fields a mutator captures of the row it is about to overwrite. -/
def captured (prior : Job) : Option (List (String × Json)) :=
  match order with
  | .editJob p =>
    some [("job_id", .str p.jobId), ("schedule", .str prior.schedule),
      ("goal", (prior.params.lookup "goal").getD .null)]
  | .setOwlSchedule p =>
    some [("job_id", .str p.jobId), ("until", .str prior.nextRunAt)]
  | _ => none

variable (fields : List (String × Json))

/-- A `str` field with `min_length=1`. -/
def requiredText (key : String) (fields : List (String × Json)) : Option String :=
  match fields.lookup key with
  | some (.str s) => if s = "" then none else some s
  | _ => none

/-- A `str | None` field. -/
def optionalText (key : String) (fields : List (String × Json)) : Option (Option String) :=
  match fields.lookup key with
  | none | some .null => some none
  | some (.str s) => some (some s)
  | _ => none

/-- `extra="forbid"`. -/
def onlyFields (keys : List String) (fields : List (String × Json)) : Bool :=
  fields.all fun field => field.1 ∈ keys

def validateLifecycle : Option JobLifecyclePayload :=
  if onlyFields ["job_id"] fields then
    (requiredText "job_id" fields).map fun jobId => ⟨jobId⟩
  else none

def validateEdit : Option EditJobPayload :=
  if onlyFields ["job_id", "schedule", "goal"] fields then
    match requiredText "job_id" fields, optionalText "schedule" fields,
        optionalText "goal" fields with
    | some jobId, some schedule, some goal => some ⟨jobId, schedule, goal⟩
    | _, _, _ => none
  else none

def validateSnooze : Option SnoozeJobPayload :=
  if onlyFields ["job_id", "until"] fields then
    match requiredText "job_id" fields, requiredText "until" fields with
    | some jobId, some untilIso => some ⟨jobId, untilIso⟩
    | _, _ => none
  else none

/-- The declared undo command of an order, with the payload `request_undo` submits for it:
what was captured, or else the order's own.  A payload its model refuses is not submitted. -/
def undoOrder (prior : Job) : Option Order :=
  match order with
  | .pauseJob p => (validateLifecycle [("job_id", .str p.jobId)]).map .resumeJob
  | .resumeJob p => (validateLifecycle [("job_id", .str p.jobId)]).map .pauseJob
  | .pauseOwlJob p => (validateLifecycle [("job_id", .str p.jobId)]).map .resumeOwlJob
  | .resumeOwlJob p => (validateLifecycle [("job_id", .str p.jobId)]).map .pauseOwlJob
  | .editJob _ => (captured order prior).bind fun fields =>
    (validateEdit fields).map .editJob
  | .setOwlSchedule _ => (captured order prior).bind fun fields =>
    (validateSnooze fields).map .setOwlSchedule
  | _ => none

/-! ## What is to be given back -/

/-- The columns an undo is to give back; `params` as the dictionary it is. -/
structure SameColumns (prior row : Job) : Prop where
  schedule : row.schedule = prior.schedule
  params : ∀ key, row.params.lookup key = prior.params.lookup key
  nextRunAt : row.nextRunAt = prior.nextRunAt
  enabled : row.enabled = prior.enabled
  status : row.status = prior.status

/-- The undo of the command is submitted, and behind it the row has the columns it had. -/
def Restores (c u : CommandContext) (order : Order) (x y : Surroundings) (jobId : String)
    (prior : Job) (d : Desk) : Prop :=
  ∃ back, undoOrder order prior = some back ∧
    ∃ row, (perform u back y (perform c order x d)).jobs.of jobId = some row ∧
      SameColumns prior row

def Surroundings.Smooth : Prop := x.hasPool = true ∧ x.raises = false

/-- Neither of two commands has run before. -/
structure Unseen (c u : CommandContext) (d : Desk) : Prop where
  first : d.receipts.of c.commandId = none
  second : d.receipts.of u.commandId = none
  ne : u.commandId ≠ c.commandId

/-- The slot that `compute_next_run` gives the row, unless it keeps its own, is the one it
has. -/
def SlotStands (job : Job) : Prop :=
  job.runOnce = true ∨ x.nextRun job.schedule = job.nextRunAt

/-- The goal is a text, or there is none and none is set: one that is `None` is skipped when
it is to be given back. -/
def GoalStands (goal : Option String) (params : List (String × Json)) : Prop :=
  match params.lookup "goal" with
  | some (.str _) => True
  | none | some .null => goal = none
  | _ => False

/-- Where the row is what the undo writes besides what was captured of it. -/
def Recoverable (y : Surroundings) (jobId : String) (prior : Job) : Prop :=
  jobId ≠ "" ∧
  match order with
  | .pauseJob _ | .pauseOwlJob _ =>
    prior.status = .pending ∧ prior.enabled = true ∧ SlotStands y prior
  | .resumeJob _ | .resumeOwlJob _ =>
    prior.status = .failed ∧ prior.enabled = false ∧ SlotStands x prior
  | .editJob p =>
    y.nextRun prior.schedule = prior.nextRunAt ∧ GoalStands p.goal prior.params
  | .setOwlSchedule _ =>
    prior.status = .pending ∧ prior.enabled = true ∧ prior.nextRunAt ≠ ""
  | _ => False

/-! ## A command that runs to its end -/

theorem guarded_first {c : CommandContext} {x : Surroundings} {d : Desk}
    (undoPayload : Option String) (again : Progress) (first : Desk → Option Moved)
    (hx : x.raises = false) (hfree : d.receipts.of c.commandId = none) :
    ∃ receipts : Receipts,
      guarded c undoPayload x d again first =
        (first { d with receipts := receipts }).getD
          { progress := .failed .raised, desk := d } ∧
      getUndoPayload c.commandId receipts = undoPayload ∧
      ∀ id, id ≠ c.commandId → receipts.of id = d.receipts.of id := by
  rcases recordCommandExecution_spec c.commandId c.commandType undoPayload d.receipts with
    ⟨r, hr, -⟩ | ⟨-, receipts, hrecord, hof⟩
  · rw [hfree] at hr
    cases hr
  · refine ⟨receipts, ?_, ?_, fun id hid => ?_⟩
    · rw [guarded, hx, if_neg Bool.false_ne_true, hrecord]
    · rw [getUndoPayload, hof, hfree, if_pos rfl]
      rfl
    · rw [hof, if_neg (Ne.symm hid), or_none]

/-- An update of a job's row by id, of columns in no index, is read back. -/
theorem of_set {jobs : Jobs} {jobId : String} {job : Job} (f : Job → Job)
    (hkeys : ∀ job, (f job).jobId = job.jobId ∧ (f job).idempotencyKey = job.idempotencyKey)
    (hjob : jobs.of jobId = some job) : (jobs.set jobId f).of jobId = some (f job) := by
  have hadmitted : ∀ r : Job, (r.jobId == jobId) = true →
      ∀ key ∈ [Job.primaryKey, Job.uniqueKey], key (f r) = key r ∨ key (f r) = none := by
    intro r _ key hkey
    refine Or.inl ?_
    rcases List.mem_cons.mp hkey with rfl | hkey
    · rw [Job.primaryKey, Job.primaryKey, (hkeys r).1]
    · obtain rfl := List.mem_singleton.mp hkey
      rw [Job.uniqueKey, Job.uniqueKey, (hkeys r).2]
  obtain ⟨jobs', hupdate⟩ := Table.updateWhere_isSome jobs hadmitted
  have hsame : ∀ r : Job,
      (((patch (fun job : Job => job.jobId == jobId) f r).jobId == jobId) : Bool) =
        (r.jobId == jobId) := by
    intro r
    unfold patch
    split
    · rw [(hkeys r).1]
    · rfl
  have hread := Table.find?_of_map (q := fun job : Job => job.jobId == jobId)
    (Table.rows_updateWhere hupdate) hsame
  rw [Jobs.set, hupdate, getD_some, Jobs.of, hread]
  rw [Jobs.of] at hjob
  have hid : (job.jobId == jobId) = true :=
    Table.sat_of_find? (q := fun job : Job => job.jobId == jobId) hjob
  rw [hjob, map_some]
  have hpatched : patch (fun job : Job => job.jobId == jobId) f job = f job := patch_of_true hid
  exact congrArg some hpatched

/-- What a command that runs to its end leaves: the row, the receipt with what it captured,
and the other receipts. -/
structure Performed (c : CommandContext) (order : Order) (x : Surroundings) (jobId : String)
    (prior : Job) (d after : Desk) : Prop where
  row : after.jobs.of jobId = some (order.onRow x prior)
  receipt : getUndoPayload c.commandId after.receipts = (captured order prior).map undoText
  others : ∀ id, id ≠ c.commandId → after.receipts.of id = d.receipts.of id

section

variable {c : CommandContext} {order} {x} {d : Desk} {prior : Job} {jobId : String}

theorem guarded_performed (order : Order) (again next : Progress) (change : Change) (f : Job → Job)
    (hx : x.Smooth) (hfree : d.receipts.of c.commandId = none)
    (hrow : d.jobs.of jobId = some prior)
    (hkeys : ∀ job, (f job).jobId = job.jobId ∧ (f job).idempotencyKey = job.idempotencyKey)
    (hmeans : f prior = order.onRow x prior) :
    let m := guarded c ((captured order prior).map undoText) x d again fun d =>
      some
        { progress := next
          desk := { d with jobs := d.jobs.set jobId f }
          change := some change }
    m.progress = next ∧ Performed c order x jobId prior d m.desk := by
  obtain ⟨receipts, hguarded, hpayload, hothers⟩ :=
    guarded_first ((captured order prior).map undoText) again
      (fun d => some
        { progress := next
          desk := { d with jobs := d.jobs.set jobId f }
          change := some change }) hx.2 hfree
  intro m
  have hm : m = _ := hguarded
  rw [hm]
  refine ⟨rfl, ?_, hpayload, hothers⟩
  show (d.jobs.set jobId f).of jobId = some (order.onRow x prior)
  rw [of_set f hkeys hrow, hmeans]

theorem advance_called (hx : x.Smooth) : advance c order .called x d = call c order x d := by
  rw [advance, if_pos hx.1]

theorem reading_smooth (hx : x.Smooth) (next : Progress) :
    reading x d next = { progress := next, desk := d } := by
  rw [reading, hx.2]
  rfl

theorem drive_succeeded (n : Nat) : drive c order x n .succeeded d = (.succeeded, d) := by
  induction n with
  | zero => rfl
  | succ n ih =>
    have hstays : advance c order .succeeded x d = { progress := .succeeded, desk := d } := by
      cases order <;> rfl
    rw [drive, hstays]
    exact ih

variable {m : Moved}

theorem perform_one (hcalled : advance c order .called x d = m) (hm : m.progress = .succeeded) :
    perform c order x d = m.desk := by
  rw [perform, drive, hcalled, hm, drive_succeeded]

/-- What a command leaves that has a read before its transaction. -/
theorem perform_two {progress : Progress}
    (hcalled : advance c order .called x d = { progress := progress, desk := d })
    (hread : advance c order progress x d = m) (hm : m.progress = .succeeded) :
    perform c order x d = m.desk := by
  rw [perform, drive, hcalled]
  show (drive c order x 2 progress d).2 = m.desk
  rw [drive, hread, hm, drive_succeeded]

/-- What a command leaves that has a read on either side of its transaction. -/
theorem perform_three {progress next : Progress}
    (hcalled : advance c order .called x d = { progress := progress, desk := d })
    (hread : advance c order progress x d = m) (hm : m.progress = next)
    (hlast : (advance c order next x m.desk).desk = m.desk) :
    perform c order x d = m.desk := by
  rw [perform, drive, hcalled]
  show (drive c order x 2 progress d).2 = m.desk
  rw [drive, hread, hm]
  exact hlast

section

variable (hx : x.Smooth) (hfree : d.receipts.of c.commandId = none)

include hx hfree

theorem perform_pause (hrow : d.jobs.of jobId = some prior)
    (hcall : call c order x d = pause c jobId x d) (hcaptured : captured order prior = none)
    (hmeans : { prior with status := .failed, enabled := false } = order.onRow x prior) :
    Performed c order x jobId prior d (perform c order x d) := by
  obtain ⟨hends, hperformed⟩ :=
    guarded_performed order .succeeded .succeeded .paused
      (fun job => { job with status := .failed, enabled := false })
      hx hfree hrow (fun _ => ⟨rfl, rfl⟩) hmeans
  rw [hcaptured] at hends hperformed
  rw [perform_one ((advance_called hx).trans hcall) hends]
  exact hperformed

theorem perform_resume (hrow : d.jobs.of jobId = some prior)
    (hcall : call c order x d = reading x d (resume jobId x d))
    (hnext : ∀ nextRun, advance c order (.resuming nextRun) x d = resumeUpdate c jobId nextRun x d)
    (hcaptured : captured order prior = none)
    (hmeans : order.onRow x prior = (Order.resumeJob ⟨jobId⟩).onRow x prior) :
    Performed c order x jobId prior d (perform c order x d) := by
  obtain ⟨hends, hperformed⟩ :=
    guarded_performed order .succeeded .succeeded .resumed
      (fun job =>
        { job with
          status := .pending, enabled := true, failureCount := 0, lastError := none
          circuitBrokenAt := none
          nextRunAt := if prior.runOnce then prior.nextRunAt else x.nextRun prior.schedule })
      hx hfree hrow (fun _ => ⟨rfl, rfl⟩) hmeans.symm
  have hcalled := (advance_called hx).trans (hcall.trans (reading_smooth hx _))
  rw [resume, hrow] at hcalled
  rw [hcaptured] at hends hperformed
  rw [perform_two hcalled (hnext _) hends]
  exact hperformed

theorem perform_snooze {p : SnoozeJobPayload} (hrow : d.jobs.of p.jobId = some prior) :
    Performed c (.setOwlSchedule p) x p.jobId prior d (perform c (.setOwlSchedule p) x d) := by
  obtain ⟨hends, hperformed⟩ :=
    guarded_performed (.setOwlSchedule p) .succeeded .succeeded .snoozed
      (fun job => { job with status := .pending, enabled := true, nextRunAt := p.untilIso })
      hx hfree hrow (fun _ => ⟨rfl, rfl⟩) rfl
  have hcalled : advance c (.setOwlSchedule p) .called x d = _ :=
    (advance_called hx).trans (reading_smooth hx _)
  rw [hrow] at hcalled
  rw [perform_two hcalled rfl hends]
  exact hperformed

theorem perform_edit {p : EditJobPayload} (hrow : d.jobs.of p.jobId = some prior) :
    Performed c (.editJob p) x p.jobId prior d (perform c (.editJob p) x d) := by
  obtain ⟨hends, hperformed⟩ :=
    guarded_performed (.editJob p) (reload p.jobId d) .reloading .edited
      (fun job =>
        { job with
          schedule := p.schedule.getD prior.schedule
          nextRunAt := p.schedule.elim prior.nextRunAt x.nextRun
          params := setGoal p.goal prior.params })
      hx hfree hrow (fun _ => ⟨rfl, rfl⟩) rfl
  have hcalled : advance c (.editJob p) .called x d = _ :=
    (advance_called hx).trans (reading_smooth hx _)
  rw [updateJob, hrow] at hcalled
  rw [perform_three hcalled rfl hends rfl]
  exact hperformed

end

/-- **A command that runs to its end** overwrites the row and captures what it declares. -/
theorem perform_spec (hx : x.Smooth) (htarget : order.undoTarget = some jobId)
    (hfree : d.receipts.of c.commandId = none) (hrow : d.jobs.of jobId = some prior) :
    Performed c order x jobId prior d (perform c order x d) := by
  cases order with
  | pauseJob p | pauseOwlJob p =>
    cases htarget
    exact perform_pause hx hfree hrow rfl rfl rfl
  | resumeJob p | resumeOwlJob p =>
    cases htarget
    exact perform_resume hx hfree hrow rfl (fun _ => rfl) rfl rfl
  | setOwlSchedule p =>
    cases htarget
    exact perform_snooze hx hfree hrow
  | editJob p =>
    cases htarget
    exact perform_edit hx hfree hrow
  | _ => cases htarget

end

/-! ## The payload of the undo -/

theorem validateLifecycle_jobId (jobId : String) :
    validateLifecycle [("job_id", .str jobId)] = if jobId = "" then none else some ⟨jobId⟩ := by
  have hfields : onlyFields ["job_id"] [("job_id", Json.str jobId)] = true := rfl
  rw [validateLifecycle, if_pos hfields]
  show Option.map _ (if jobId = "" then none else some jobId) = _
  split <;> rfl

theorem validateSnooze_fields (jobId untilIso : String) :
    validateSnooze [("job_id", .str jobId), ("until", .str untilIso)] =
      if jobId = "" ∨ untilIso = "" then none else some ⟨jobId, untilIso⟩ := by
  have hfields : onlyFields ["job_id", "until"]
      [("job_id", Json.str jobId), ("until", Json.str untilIso)] = true := rfl
  rw [validateSnooze, if_pos hfields]
  have hjob : requiredText "job_id" [("job_id", .str jobId), ("until", .str untilIso)] =
      if jobId = "" then none else some jobId := rfl
  have huntil : requiredText "until" [("job_id", .str jobId), ("until", .str untilIso)] =
      if untilIso = "" then none else some untilIso := rfl
  rw [hjob, huntil]
  by_cases hempty : jobId = ""
  · rw [if_pos hempty, if_pos (Or.inl hempty)]
  by_cases hnever : untilIso = ""
  · rw [if_neg hempty, if_pos hnever, if_pos (Or.inr hnever)]
  · rw [if_neg hempty, if_neg hnever, if_neg (not_or.mpr ⟨hempty, hnever⟩)]

theorem validateEdit_fields (jobId schedule : String) (goal : Json) :
    validateEdit [("job_id", .str jobId), ("schedule", .str schedule), ("goal", goal)] =
      if jobId = "" then none
      else (optionalText "goal" [("goal", goal)]).map fun goal =>
        ⟨jobId, some schedule, goal⟩ := by
  have hfields : onlyFields ["job_id", "schedule", "goal"]
      [("job_id", Json.str jobId), ("schedule", Json.str schedule), ("goal", goal)] = true := rfl
  rw [validateEdit, if_pos hfields]
  have hjob : requiredText "job_id"
      [("job_id", .str jobId), ("schedule", .str schedule), ("goal", goal)] =
      if jobId = "" then none else some jobId := rfl
  have hschedule : optionalText "schedule"
      [("job_id", .str jobId), ("schedule", .str schedule), ("goal", goal)] =
      some (some schedule) := rfl
  have hgoal : optionalText "goal"
      [("job_id", .str jobId), ("schedule", .str schedule), ("goal", goal)] =
      optionalText "goal" [("goal", goal)] := rfl
  rw [hjob, hschedule, hgoal]
  by_cases hempty : jobId = ""
  · rw [if_pos hempty, if_pos hempty]
  · rw [if_neg hempty, if_neg hempty]
    cases optionalText "goal" [("goal", goal)] with
    | none => rfl
    | some goal => rfl

theorem lookup_setGoal (goal : String) (params : List (String × Json)) (key : String) :
    (setGoal (some goal) params).lookup key =
      if key = "goal" then some (.str goal) else params.lookup key := by
  have hkept : (params.filter fun field => field.1 ≠ "goal").lookup key =
      if key = "goal" then none else params.lookup key := by
    induction params with
    | nil => exact (ite_self none).symm
    | cons field params ih =>
      by_cases hgoal : field.1 = "goal"
      · rw [List.filter_cons_of_neg (by simp [hgoal]), ih]
        split
        · rfl
        · rename_i hkey
          rw [List.lookup_cons, hgoal, beq_eq_false_iff_ne.mpr hkey]
      · rw [List.filter_cons_of_pos (by simp [hgoal]), List.lookup_cons, List.lookup_cons, ih]
        by_cases hkey : key = field.1
        · rw [hkey, beq_self_eq_true]
          exact (if_neg hgoal).symm
        · rw [beq_eq_false_iff_ne.mpr hkey]
  rw [setGoal, List.lookup_append, hkept]
  by_cases hkey : key = "goal"
  · rw [if_pos hkey, if_pos hkey, hkey]
    rfl
  · rw [if_neg hkey, if_neg hkey, List.lookup_cons, beq_eq_false_iff_ne.mpr hkey]
    exact or_none

/-! ## Behind the undo -/

section

variable {c u : CommandContext} {order} {x} {y : Surroundings} {d : Desk} {prior : Job}
  {jobId : String}

theorem undoTarget_of_undoOrder {back : Order} (htarget : order.undoTarget = some jobId)
    (hback : undoOrder order prior = some back) :
    back.undoTarget = some jobId ∧ jobId ≠ "" := by
  cases order with
  | pauseJob p | pauseOwlJob p | resumeJob p | resumeOwlJob p =>
    simp only [undoOrder, validateLifecycle_jobId] at hback
    split at hback
    · cases hback
    · rename_i hjob
      cases hback
      cases htarget
      exact ⟨rfl, hjob⟩
  | editJob p =>
    simp only [undoOrder, captured, bind_some, validateEdit_fields] at hback
    split at hback
    · cases hback
    · rename_i hjob
      rw [map_map] at hback
      obtain ⟨goal, -, rfl⟩ := map_eq_some_iff.mp hback
      cases htarget
      exact ⟨rfl, hjob⟩
  | setOwlSchedule p =>
    simp only [undoOrder, captured, bind_some, validateSnooze_fields] at hback
    split at hback
    · cases hback
    · rename_i hfields
      cases hback
      cases htarget
      exact ⟨rfl, fun hjob => hfields (Or.inl hjob)⟩
  | _ => cases hback

theorem restores_iff_row (hx : x.Smooth) (hy : y.Smooth)
    (htarget : order.undoTarget = some jobId) (hunseen : Unseen c u d)
    (hrow : d.jobs.of jobId = some prior) :
    Restores c u order x y jobId prior d ↔
      ∃ back, undoOrder order prior = some back ∧
        SameColumns prior (back.onRow y (order.onRow x prior)) := by
  have hfirst := perform_spec hx htarget hunseen.first hrow
  refine exists_congr fun back => and_congr_right fun hback => ?_
  have hfree : (perform c order x d).receipts.of u.commandId = none :=
    (hfirst.others u.commandId hunseen.ne).trans hunseen.second
  have hsecond := perform_spec hy (undoTarget_of_undoOrder htarget hback).1 hfree hfirst.row
  rw [hsecond.row]
  constructor
  · rintro ⟨row, hread, hsame⟩
    cases hread
    exact hsame
  · intro hsame
    exact ⟨_, rfl, hsame⟩

/-- A one-shot keeps its slot, and another stands where it is computed again. -/
theorem slotStands_iff {job : Job} :
    (if job.runOnce then job.nextRunAt else x.nextRun job.schedule) = job.nextRunAt ↔
      SlotStands x job := by
  rw [SlotStands]
  cases job.runOnce with
  | true => exact ⟨fun _ => Or.inl rfl, fun _ => rfl⟩
  | false => exact ⟨Or.inr, fun h => h.resolve_left Bool.false_ne_true⟩

theorem goal_undone (goal : Option String) (params : List (String × Json)) :
    (∃ back, optionalText "goal" [("goal", (params.lookup "goal").getD .null)] = some back ∧
      ∀ key, (setGoal back (setGoal goal params)).lookup key = params.lookup key) ↔
      GoalStands goal params := by
  have hnone : (params.lookup "goal").getD .null = .null →
      ((∃ back, optionalText "goal" [("goal", Json.null)] = some back ∧
        ∀ key, (setGoal back (setGoal goal params)).lookup key = params.lookup key) ↔
        goal = none) := by
    intro hnull
    constructor
    · rintro ⟨back, hback, hsame⟩
      cases hback
      cases goal with
      | none => rfl
      | some goal =>
        have hgoal := (lookup_setGoal goal params "goal").symm.trans (hsame "goal")
        rw [← hgoal, if_pos rfl] at hnull
        cases hnull
    · rintro rfl
      exact ⟨none, rfl, fun _ => rfl⟩
  unfold GoalStands
  cases hread : params.lookup "goal" with
  | none =>
    rw [hread] at hnone
    exact hnone rfl
  | some value =>
    rw [hread] at hnone
    cases value with
    | null => exact hnone rfl
    | str text =>
      refine iff_true_intro ⟨some text, rfl, fun key => ?_⟩
      rw [lookup_setGoal]
      by_cases hkey : key = "goal"
      · rw [if_pos hkey, hkey, hread]
      · rw [if_neg hkey]
        cases goal with
        | none => rfl
        | some goal => rw [lookup_setGoal, if_neg hkey]
    | _ => exact iff_false_intro fun ⟨_, hback, _⟩ => nomatch hback

theorem edit_undone {p : EditJobPayload} (hjob : p.jobId ≠ "") :
    (∃ back, undoOrder (.editJob p) prior = some back ∧
      SameColumns prior (back.onRow y ((Order.editJob p).onRow x prior))) ↔
      Recoverable (.editJob p) x y p.jobId prior := by
  simp only [undoOrder, captured, bind_some, validateEdit_fields, if_neg hjob,
    map_map]
  constructor
  · rintro ⟨back, hback, hsame⟩
    obtain ⟨goal, hgoal, rfl⟩ := map_eq_some_iff.mp hback
    exact ⟨hjob, hsame.nextRunAt, (goal_undone p.goal prior.params).mp ⟨goal, hgoal, hsame.params⟩⟩
  · rintro ⟨-, hslot, hstands⟩
    obtain ⟨goal, hgoal, hparams⟩ := (goal_undone p.goal prior.params).mpr hstands
    exact ⟨_, map_eq_some_iff.mpr ⟨goal, hgoal, rfl⟩, rfl, hparams, hslot, rfl, rfl⟩

theorem undone_iff (htarget : order.undoTarget = some jobId) (hjob : jobId ≠ "") :
    (∃ back, undoOrder order prior = some back ∧
      SameColumns prior (back.onRow y (order.onRow x prior))) ↔
      Recoverable order x y jobId prior := by
  cases order with
  | pauseJob p | pauseOwlJob p | resumeJob p | resumeOwlJob p =>
    cases htarget
    simp only [undoOrder, validateLifecycle_jobId, if_neg hjob, map_some]
    constructor
    · rintro ⟨back, heq, hsame⟩
      cases heq
      exact ⟨hjob, hsame.status.symm, hsame.enabled.symm, slotStands_iff.mp hsame.nextRunAt⟩
    · rintro ⟨-, hstatus, henabled, hslot⟩
      exact ⟨_, rfl, rfl, fun _ => rfl, slotStands_iff.mpr hslot, henabled.symm, hstatus.symm⟩
  | setOwlSchedule p =>
    cases htarget
    simp only [undoOrder, captured, bind_some, validateSnooze_fields]
    constructor
    · rintro ⟨back, heq, hsame⟩
      split at heq
      · cases heq
      · rename_i hfields
        cases heq
        exact ⟨hjob, hsame.status.symm, hsame.enabled.symm, fun h => hfields (Or.inr h)⟩
    · rintro ⟨-, hstatus, henabled, hslot⟩
      rw [if_neg (not_or.mpr ⟨hjob, hslot⟩)]
      exact ⟨_, rfl, rfl, fun _ => rfl, rfl, henabled.symm, hstatus.symm⟩
  | editJob p =>
    cases htarget
    exact edit_undone hjob
  | _ => cases htarget

/-- **What an undo gives back.**  The receipt of the command holds what its mutator captured
of the row, and the undo gives the columns back exactly where the row was what the undo
writes besides. -/
theorem undo_restores_iff (hx : x.Smooth) (hy : y.Smooth)
    (htarget : order.undoTarget = some jobId) (hunseen : Unseen c u d)
    (hrow : d.jobs.of jobId = some prior) :
    getUndoPayload c.commandId (perform c order x d).receipts =
        (captured order prior).map undoText ∧
      (Restores c u order x y jobId prior d ↔ Recoverable order x y jobId prior) := by
  refine ⟨(perform_spec hx htarget hunseen.first hrow).receipt, ?_⟩
  rw [restores_iff_row hx hy htarget hunseen hrow]
  by_cases hjob : jobId = ""
  · constructor
    · rintro ⟨back, hback, -⟩
      exact absurd hjob (undoTarget_of_undoOrder htarget hback).2
    · intro h
      exact absurd hjob h.1
  · exact undone_iff htarget hjob

end

def reminder (status : JobStatus) (enabled : Bool) : Job where
  jobId := "goal-1"
  handlerName := "goal_execution"
  schedule := "daily@08:00"
  idempotencyKey := "goal-1"
  nextRunAt := "2026-03-02T08:00:00+00:00"
  status := status
  enabled := enabled

def reminderDesk (status : JobStatus) (enabled : Bool) : Desk where
  jobs := ⟨[reminder status enabled], by simp [Job.primaryKey, Job.uniqueKey]⟩
  runs := []
  authority := ⟨[], noAuthority_unique⟩
  receipts := .empty

def calm : Surroundings where
  hasPool := true
  now := "2026-03-01T12:00:00+00:00"
  hex := ""
  nextRun _ := "2026-03-02T08:00:00+00:00"
  raises := false
  retires := true
  hasJobHandler _ := true
  result := { success := true }
  settled := ⟨[], noJobs_unique⟩

def snoozeCommand : CommandContext := ⟨"snooze-1", SET_OWL_SCHEDULE, "owner", none, none⟩
def undoCommand : CommandContext := ⟨"undo-1", SET_OWL_SCHEDULE, "owner", none, none⟩

def tillTomorrow : Order :=
  .setOwlSchedule ⟨"goal-1", "2026-03-03T12:00:00+00:00"⟩

theorem reminder_unseen (status : JobStatus) (enabled : Bool) :
    Unseen snoozeCommand undoCommand (reminderDesk status enabled) :=
  ⟨rfl, rfl, by decide⟩

/-- The snooze of a job that waits is given back. -/
theorem waiting_restored :
    Restores snoozeCommand undoCommand tillTomorrow calm calm "goal-1"
      (reminder .pending true) (reminderDesk .pending true) :=
  (undo_restores_iff ⟨rfl, rfl⟩ ⟨rfl, rfl⟩ rfl (reminder_unseen _ _) rfl).2.mpr
    ⟨by decide, rfl, rfl, by decide⟩

/-- A paused job runs again when its snooze is undone. -/
theorem paused_resumed :
    ¬ Restores snoozeCommand undoCommand tillTomorrow calm calm "goal-1"
      (reminder .failed false) (reminderDesk .failed false) := by
  rw [restores_iff_row ⟨rfl, rfl⟩ ⟨rfl, rfl⟩ rfl (reminder_unseen _ _) rfl,
    undone_iff rfl (by decide)]
  rintro ⟨-, hstatus, -⟩
  cases hstatus

end StackOwl.Commands
