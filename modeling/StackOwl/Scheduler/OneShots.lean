import StackOwl.Scheduler.Routines

/-!
# Finished one-shots

A one-shot that has succeeded is deleted.  Where the deletion fails, its run is recorded in
`job_runs` for the occurrence, whose key holds the job's slot: the next dispatch that reads
the row finds the record and deletes the row instead of running the job.  Whatever moves the
slot in between loses the record.

## Main results

* `finished_stays_finished` — a finished one-shot is not started again, and the next dispatch
  that reads its row deletes it, in every run of the system in which nothing moves the slot
  of a finished job, and none of its dispatches is past its look at `job_runs` when the run
  is recorded.
* `snoozed_runs_again` — a one-shot whose deletion has failed is run again after a `snooze`.
-/

namespace StackOwl.Scheduler

open Lib Bool

variable {w : World} {now : Instant} {x : Answer} {s : System}

/-! ## Finishing -/

abbrev Finished := String → Bool

/-- A run of the job is recorded as completed for the occurrence. -/
def Tables.recorded (db : Tables) (jobId key : String) : Bool :=
  db.jobRuns.any fun run =>
    run.jobId == jobId && (run.idempotencyKey == key && run.completed)

/-- The stretch settles a trustworthy success of a one-shot, and the deletion of the row or
the record of the run is committed. -/
def System.finishes (w : World) (x : Answer) (s : System) (k : Routine) : Bool :=
  k.job.runOnce &&
    match k.phase with
    | .settling result => result.trustworthy && x.goes
    | .noting => (s.advance w k x).db.recorded k.jobId k.job.occurrenceKey
    | _ => false

def noteFinished (w : World) (s : System) (f : Finished) : Op → Finished
  | .advance id x =>
    match s.find id with
    | some k => if s.finishes w x k then Function.update f k.jobId true else f
    | none => f
  | _ => f

/-- The operation does not start the job, if it has finished. -/
def LeavesFinished (jobId : String) (sf : System × Finished) (op : Op) : Prop :=
  sf.2 jobId = true → sf.1.starts op ≠ some jobId

def Read.dispatches : Read → Bool
  | .due | .missed | .runNow => true
  | _ => false

/-- The next dispatch that reads the row deletes it: one that reads it now, and one that has
read it and not yet looked for its occurrence. -/
structure Retires (w : World) (s : System) (jobId : String) : Prop where
  reads : ∀ id r row, s.find id = none → s.db.jobs jobId = some row → r.dispatches = true →
    (r.begin w s.clock row (s.db.audited.contains jobId)).isSome →
      (run (step w) s [.read id r jobId, .advance id {}, .advance id {}]).db.jobs jobId = none
  checks : ∀ k ∈ s.routines, k.jobId = jobId → (s.db.jobs jobId).isSome →
    k.phase = .checking → (k.stretch w s.clock {} s.db).next = some .skipping
  skips : ∀ k ∈ s.routines, k.jobId = jobId → (s.db.jobs jobId).isSome →
    k.phase = .skipping → (k.stretch w s.clock {} s.db).write = .delete

/-! ## Where a record is kept -/

/-- A dispatch that is not past its look at `job_runs`, and looks for this slot. -/
def Routine.looksFor (slot : String) (k : Routine) : Prop :=
  k.phase.holds = false ∧ k.phase.isClaiming = false ∧
    (k.phase.isChecking = true → k.job.nextRunAt = slot)

/-- The run is recorded for the slot the row has, and the other dispatches of the job look
for it as well. -/
def System.RecordsSlot (s : System) (k : Routine) : Prop :=
  (∀ row ∈ s.db.jobs k.jobId, row.nextRunAt = k.job.nextRunAt) ∧
    ∀ b ∈ s.others k.id, b.jobId = k.jobId → b.looksFor k.job.nextRunAt

def Routine.writtenSlot (w : World) (now : Instant) (k : Routine) : Option String :=
  match k.phase with
  | .resuming => some (resumedSlot w now k.job)
  | .editing e => some (e.slot w now k.job)
  | _ => none

def Routine.staysOneShot (k : Routine) : Bool :=
  match k.phase with
  | .editing e => ({ k.job with params := e.merge k.job.params } : Row).runOnce
  | _ => true

def Phase.isNoting : Phase → Bool
  | .noting => true
  | _ => false

def System.HasSlot (s : System) (jobId slot : String) : Prop :=
  ∀ row ∈ s.db.jobs jobId, row.nextRunAt = slot

/-- No edit makes the job a recurring one; a request leaves a finished job at its slot; and a
run that is recorded in place of a deletion is recorded for the slot the row has. -/
def KeepsFinished (w : World) (jobId : String) (sf : System × Finished) : Op → Prop
  | .snooze other untilIso =>
    other = jobId → sf.2 jobId = true → sf.1.HasSlot jobId untilIso
  | .advance id x => ∀ k ∈ sf.1.find id, k.jobId = jobId →
      k.staysOneShot = true ∧
        (sf.2 jobId = true → ∀ slot ∈ k.writtenSlot w sf.1.clock, sf.1.HasSlot jobId slot) ∧
        (sf.1.finishes w x k = true → k.phase.isNoting = true → sf.1.RecordsSlot k)
  | _ => True

instance (slot : String) (k : Routine) : Decidable (k.looksFor slot) :=
  inferInstanceAs (Decidable (_ ∧ _ ∧ (_ → _)))

instance (k : Routine) : Decidable (s.RecordsSlot k) :=
  inferInstanceAs (Decidable ((∀ row ∈ s.db.jobs k.jobId, _) ∧ ∀ b ∈ s.others k.id, _))

instance (jobId slot : String) : Decidable (s.HasSlot jobId slot) :=
  inferInstanceAs (Decidable (∀ row ∈ s.db.jobs jobId, _))

instance KeepsFinished.decidable (jobId : String) (sf : System × Finished) :
    ∀ op, Decidable (KeepsFinished w jobId sf op)
  | .snooze _ _ => inferInstanceAs (Decidable (_ → _ → _))
  | .advance id _ =>
    inferInstanceAs (Decidable (∀ k ∈ sf.1.find id, _ → _ ∧ (_ → ∀ slot ∈ _, _) ∧ _))
  | .tick _ | .read _ _ _ | .abort _ | .pause _ | .stop _ | .restart => isTrue trivial

instance (jobId : String) (sf : System × Finished) (op : Op) :
    Decidable (LeavesFinished jobId sf op) :=
  inferInstanceAs (Decidable (sf.2 jobId = true → sf.1.starts op ≠ some jobId))

/-! ## The invariant -/

structure OneShot (jobId key : String) (s : System) : Prop where
  row : ∀ row ∈ s.db.jobs jobId, row.runOnce = true ∧ row.idempotencyKey = key
  routines : ∀ k ∈ s.routines, k.jobId = jobId →
    k.job.runOnce = true ∧ k.job.idempotencyKey = key ∧ k.phase ≠ .dropping

/-- What is left of a finished job: its row, if it is there, at the slot of its record, and
dispatches that look for it. -/
def Done (jobId : String) (s : System) : Prop :=
  ∀ row ∈ s.db.jobs jobId, s.db.recorded jobId row.occurrenceKey = true ∧
    ∀ k ∈ s.routines, k.jobId = jobId → k.looksFor row.nextRunAt

variable {db : Tables}

theorem completed_of_recorded {jobId key : String} (h : db.recorded jobId key = true) :
    db.completed key = true := by
  simp only [Tables.recorded, Tables.completed, List.any_eq_true, and_eq_true] at h ⊢
  obtain ⟨run, hrun, -, hkey⟩ := h
  exact ⟨run, hrun, hkey⟩

variable {other : String} {write : Write}

theorem recorded_commit {jobId key : String} (run : Option Commands.JobRun) (audit : Bool)
    (hwrite : other = jobId → write ≠ .delete) (h : db.recorded jobId key = true) :
    (db.commit other write run audit).recorded jobId key = true := by
  simp only [Tables.recorded, List.any_eq_true, and_eq_true, beq_iff_eq] at h ⊢
  obtain ⟨found, hfound, hjob, hkey⟩ := h
  refine ⟨found, List.mem_append_left _ ?_, hjob, hkey⟩
  cases write with
  | keep => exact hfound
  | set f => exact hfound
  | delete =>
    refine List.mem_filter.mpr ⟨hfound, ?_⟩
    rw [hjob]
    exact decide_eq_true fun heq => hwrite heq.symm rfl

/-! ## Stretches -/

variable {k : Routine} {row' : Row}

theorem stretch_one_shot {row : Row} (h : row' ∈ (k.stretch w now x db).write.apply (some row))
    (hstays : k.staysOneShot = true) (hrow : row.runOnce = true) :
    row'.runOnce = true ∧ row'.idempotencyKey = row.idempotencyKey := by
  cases stretch_leaves h with
  | edited e hphase =>
    simp only [Routine.staysOneShot, hphase] at hstays
    exact ⟨hstays, rfl⟩
  | same | claimed _ _ | freed _ | parked _ _ | moved _ | resumed _ | reaped _ _ | staled _ =>
    exact ⟨hrow, rfl⟩

/-- A stretch that is not a run's, of a request that writes the slot the row has, leaves a
one-shot at its slot. -/
theorem stretch_slot {row : Row} (h : row' ∈ (k.stretch w now x db).write.apply (some row))
    (hholds : k.phase.holds = false) (hclaiming : k.phase.isClaiming = false)
    (hdropping : k.phase ≠ .dropping) (honce : k.job.runOnce = true)
    (hslot : ∀ slot ∈ k.writtenSlot w now, row.nextRunAt = slot) :
    row'.nextRunAt = row.nextRunAt := by
  cases stretch_leaves h with
  | same => rfl
  | claimed hphase _ => simp [hphase, Phase.isClaiming] at hclaiming
  | freed hrun =>
    rcases hrun with hphase | ⟨result, hphase⟩ | ⟨result, hphase⟩ <;>
      simp [hphase, Phase.holds] at hholds
  | parked error hphase => rfl
  | moved hphase =>
    rcases hphase with ⟨-, hrecurring⟩ | hphase
    · rw [honce] at hrecurring
      cases hrecurring
    · exact absurd hphase hdropping
  | resumed hphase => exact (hslot _ (by simp [Routine.writtenSlot, hphase])).symm
  | edited e hphase => exact (hslot _ (by simp [Routine.writtenSlot, hphase])).symm
  | reaped hphase _ => rfl
  | staled hphase => exact if_pos honce

theorem apply_of_mem {row : Option Row} (h : row' ∈ write.apply row) :
    write ≠ .delete ∧ ∃ old, row = some old ∧ row' ∈ write.apply (some old) := by
  cases write with
  | keep => exact ⟨by simp, row', h, rfl⟩
  | set f =>
    obtain ⟨old, hold, -⟩ := Option.map_eq_some_iff.mp h
    exact ⟨by simp, old, hold, by rw [← hold]; exact h⟩
  | delete => cases h

/-! ## Steps -/

variable {jobId key : String} {routines : List Routine}

theorem OneShot.subset (h : OneShot jobId key s) (hsubset : ∀ k ∈ routines, k ∈ s.routines) :
    OneShot jobId key { s with routines := routines } :=
  ⟨h.row, fun k hk => h.routines k (hsubset k hk)⟩

theorem OneShot.advance (h : OneShot jobId key s) (hk : k ∈ s.routines)
    (hstays : k.jobId = jobId → k.staysOneShot = true) : OneShot jobId key (s.advance w k x) := by
  constructor
  · intro row' hrow'
    by_cases hjob : k.jobId = jobId
    · subst hjob
      simp only [System.advance, Tables.commit_jobs_self] at hrow'
      obtain ⟨-, row, hrow, hmem⟩ := apply_of_mem hrow'
      have hold := h.row row hrow
      have hnew := stretch_one_shot hmem (hstays rfl) hold.1
      exact ⟨hnew.1, hnew.2.trans hold.2⟩
    · simp only [System.advance, Tables.commit_jobs_of_ne _ _ _ (Ne.symm hjob)] at hrow'
      exact h.row row' hrow'
  · intro b hb hjob
    rcases System.mem_advance.mp hb with ⟨hold, -⟩ | ⟨phase, hnext, rfl⟩
    · exact h.routines b hold hjob
    · obtain ⟨honce, hkey, -⟩ := h.routines k hk hjob
      refine ⟨honce, hkey, ?_⟩
      show phase ≠ .dropping
      rintro rfl
      rcases stretch_next hnext with hholds | ⟨-, hor⟩ | hheal
      · cases hholds
      · rcases hor with heq | heq <;> cases heq
      · cases hheal

variable {row : Row}

theorem OneShot.start (h : OneShot jobId key s) (id : Nat) (r : Read)
    (hrow : s.db.jobs other = some row) :
    OneShot jobId key (s.start w id r other row) := by
  constructor
  · intro row' hrow'
    rw [System.start_db] at hrow'
    exact h.row row' hrow'
  · intro b hb hjob
    rcases System.mem_start hb with hold | ⟨phase, hbegin, rfl⟩
    · exact h.routines b hold hjob
    · obtain rfl : other = jobId := hjob
      obtain ⟨honce, hkey⟩ := h.row row hrow
      refine ⟨honce, hkey, ?_⟩
      show phase ≠ .dropping
      rintro rfl
      cases r with
      | missed =>
        simp only [Read.begin, honce, if_true] at hbegin
        repeat' split at hbegin
        all_goals cases hbegin
      | due | runNow | resume | edit e | timedOut | stale | terminal =>
        simp only [Read.begin] at hbegin
        repeat' split at hbegin
        all_goals cases hbegin

theorem OneShot.update (h : OneShot jobId key s) (other : String) (write : Write)
    (hwrite : ∀ row row', row' ∈ write.apply (some row) →
      row'.runOnce = row.runOnce ∧ row'.idempotencyKey = row.idempotencyKey) :
    OneShot jobId key (s.update other write) := by
  refine ⟨?_, h.routines⟩
  intro row' hrow'
  by_cases hjob : jobId = other
  · subst hjob
    simp only [System.update, Tables.commit_jobs_self] at hrow'
    obtain ⟨-, row, hrow, hmem⟩ := apply_of_mem hrow'
    obtain ⟨honce, hkey⟩ := hwrite row row' hmem
    exact ⟨honce.trans (h.row row hrow).1, hkey.trans (h.row row hrow).2⟩
  · simp only [System.update, Tables.commit_jobs_of_ne _ _ _ hjob] at hrow'
    exact h.row row' hrow'

theorem occurrenceKey_eq (hkey : row'.idempotencyKey = row.idempotencyKey)
    (hslot : row'.nextRunAt = row.nextRunAt) : row'.occurrenceKey = row.occurrenceKey := by
  rw [Commands.Job.occurrenceKey, Commands.Job.occurrenceKey, hkey, hslot]

theorem Done.completed (h : Done jobId s) (hone : OneShot jobId key s) (hk : k ∈ s.routines)
    (hjob : k.jobId = jobId) (hrow : s.db.jobs jobId = some row) (hphase : k.phase = .checking) :
    s.db.completed k.job.occurrenceKey = true := by
  obtain ⟨hrecorded, hlooks⟩ := h row hrow
  have hkey : k.job.idempotencyKey = row.idempotencyKey :=
    (hone.routines k hk hjob).2.1.trans (hone.row row hrow).2.symm
  rw [occurrenceKey_eq hkey ((hlooks k hk hjob).2.2 (by rw [hphase]; rfl))]
  exact completed_of_recorded hrecorded

/-- **The step lemma of a stretch**: a finished job stays at its slot. -/
theorem Done.advance (h : Done jobId s) (hone : OneShot jobId key s) (hk : k ∈ s.routines)
    (hstays : k.jobId = jobId → k.staysOneShot = true)
    (hslot : k.jobId = jobId → ∀ slot ∈ k.writtenSlot w s.clock, s.HasSlot jobId slot) :
    Done jobId (s.advance w k x) := by
  intro row' hrow'
  by_cases hjob : k.jobId = jobId
  · subst hjob
    simp only [System.advance, Tables.commit_jobs_self] at hrow'
    obtain ⟨hwrite, row, hrow, hmem⟩ := apply_of_mem hrow'
    obtain ⟨hrecorded, hlooks⟩ := h row hrow
    obtain ⟨hholds, hclaiming, hchecking⟩ := hlooks k hk rfl
    obtain ⟨honce, -, hdropping⟩ := hone.routines k hk rfl
    have hkey := (stretch_one_shot hmem (hstays rfl) (hone.row row hrow).1).2
    have hnext := stretch_slot hmem hholds hclaiming hdropping honce
      fun slot hs => hslot rfl slot hs row hrow
    refine ⟨?_, ?_⟩
    · rw [occurrenceKey_eq hkey hnext]
      exact recorded_commit _ _ (fun _ => hwrite) hrecorded
    · intro b hb hbjob
      rw [hnext]
      rcases System.mem_advance.mp hb with ⟨hold, -⟩ | ⟨phase, hphase, rfl⟩
      · exact hlooks b hold hbjob
      · rcases stretch_next hphase with hheld | ⟨hlook, hor⟩ | hheal
        · rcases stretch_holds hphase hheld with hwas | ⟨hwas, -⟩
          · rw [hholds] at hwas
            cases hwas
          · rw [hwas] at hclaiming
            cases hclaiming
        · have hfound := h.completed hone hk rfl hrow hlook
          have hskipping : phase = .skipping := by
            simp only [Routine.stretch, hlook, lookUp, hfound, if_true] at hphase
            split at hphase <;> cases hphase
            rfl
          rw [hskipping]
          exact ⟨rfl, rfl, fun heq => by cases heq⟩
        · rw [hheal]
          exact ⟨rfl, rfl, fun heq => by cases heq⟩
  · simp only [System.advance, Tables.commit_jobs_of_ne _ _ _ (Ne.symm hjob)] at hrow'
    obtain ⟨hrecorded, hlooks⟩ := h row' hrow'
    refine ⟨recorded_commit _ _ (fun heq => absurd heq hjob) hrecorded, ?_⟩
    intro b hb hbjob
    rcases System.mem_advance.mp hb with ⟨hold, -⟩ | ⟨phase, -, rfl⟩
    · exact hlooks b hold hbjob
    · exact absurd hbjob hjob

theorem Done.finish (hone : OneShot jobId key s) (hk : k ∈ s.routines) (hjob : k.jobId = jobId)
    (hfinishes : s.finishes w x k = true) (hrecords : k.phase.isNoting = true → s.RecordsSlot k) :
    Done jobId (s.advance w k x) := by
  subst hjob
  intro row' hrow'
  simp only [System.advance, Tables.commit_jobs_self] at hrow'
  obtain ⟨hwrite, row, hrow, hmem⟩ := apply_of_mem hrow'
  obtain ⟨honce, hkey, -⟩ := hone.routines k hk rfl
  rw [System.finishes, honce, Bool.true_and] at hfinishes
  split at hfinishes
  · rename_i result hphase
    simp only [Bool.and_eq_true] at hfinishes
    refine absurd ?_ hwrite
    simp only [Routine.stretch, hphase, settle, hfinishes.1, if_true, markCompleted, honce,
      retire, hfinishes.2]
  · rename_i hphase
    obtain ⟨hrowSlot, hothers⟩ := hrecords (by rw [hphase]; rfl)
    have hkeep : (k.stretch w s.clock x s.db).write = .keep := by
      simp only [Routine.stretch, hphase, noteRun]
    rw [hkeep] at hmem
    obtain rfl : row = row' := Option.some.inj hmem
    have hslot : row.nextRunAt = k.job.nextRunAt := hrowSlot row hrow
    refine ⟨?_, ?_⟩
    · rw [occurrenceKey_eq ((hone.row row hrow).2.trans hkey.symm) hslot]
      exact hfinishes
    · intro b hb hbjob
      rw [hslot]
      rcases System.mem_advance.mp hb with hold | ⟨phase, hnext, rfl⟩
      · exact hothers b (System.mem_others.mpr hold) hbjob
      · simp only [Routine.stretch, hphase, noteRun] at hnext
        cases hnext
  · cases hfinishes

theorem Done.start (h : Done jobId s) (hone : OneShot jobId key s) (id : Nat) (r : Read)
    (hrow : s.db.jobs other = some row) :
    Done jobId (s.start w id r other row) := by
  intro row' hrow'
  rw [System.start_db] at hrow' ⊢
  obtain ⟨hrecorded, hlooks⟩ := h row' hrow'
  refine ⟨hrecorded, ?_⟩
  intro b hb hjob
  rcases System.mem_start hb with hold | ⟨phase, hbegin, rfl⟩
  · exact hlooks b hold hjob
  · obtain rfl : other = jobId := hjob
    obtain rfl : row = row' := Option.some.inj (hrow.symm.trans hrow')
    refine ⟨begin_holds hbegin, ?_, fun _ => rfl⟩
    show phase.isClaiming = false
    have honce := (hone.row row hrow).1
    cases r with
    | runNow =>
      simp only [Read.begin, honce, if_true] at hbegin
      split at hbegin <;> cases hbegin
      rfl
    | due | missed | resume | edit e | timedOut | stale | terminal =>
      simp only [Read.begin] at hbegin
      repeat' split at hbegin
      all_goals
        cases hbegin
        try rfl

theorem Done.subset (h : Done jobId s) (hsubset : ∀ k ∈ routines, k ∈ s.routines) :
    Done jobId { s with routines := routines } := by
  intro row hrow
  obtain ⟨hrecorded, hlooks⟩ := h row hrow
  exact ⟨hrecorded, fun k hk => hlooks k (hsubset k hk)⟩

theorem Done.update (h : Done jobId s) (other : String) (write : Write)
    (hwrite : other = jobId → ∀ row ∈ s.db.jobs jobId, ∀ row' ∈ write.apply (some row),
      row'.idempotencyKey = row.idempotencyKey ∧ row'.nextRunAt = row.nextRunAt) :
    Done jobId (s.update other write) := by
  intro row' hrow'
  by_cases hjob : other = jobId
  · subst hjob
    simp only [System.update, Tables.commit_jobs_self] at hrow'
    obtain ⟨hdelete, row, hrow, hmem⟩ := apply_of_mem hrow'
    obtain ⟨hrecorded, hlooks⟩ := h row hrow
    obtain ⟨hkey, hslot⟩ := hwrite rfl row hrow row' hmem
    refine ⟨?_, ?_⟩
    · rw [occurrenceKey_eq hkey hslot]
      exact recorded_commit _ _ (fun _ => hdelete) hrecorded
    · rw [hslot]
      exact hlooks
  · simp only [System.update, Tables.commit_jobs_of_ne _ _ _ (Ne.symm hjob)] at hrow'
    obtain ⟨hrecorded, hlooks⟩ := h row' hrow'
    exact ⟨recorded_commit _ _ (fun heq => absurd heq hjob) hrecorded, hlooks⟩

/-- The job is a one-shot, and once it has finished it stays so. -/
structure Kept (jobId key : String) (sf : System × Finished) : Prop where
  one : OneShot jobId key sf.1
  done : sf.2 jobId = true → Done jobId sf.1

variable {sf : System × Finished}

/-- **The step lemma.** -/
theorem Kept.step (h : Kept jobId key sf) {op : Op} (hop : KeepsFinished w jobId sf op) :
    Kept jobId key (watch (step w) (noteFinished w) sf op) := by
  cases op with
  | tick t => exact ⟨⟨h.one.row, h.one.routines⟩, h.done⟩
  | read id r other =>
    simp only [watch, Scheduler.step, noteFinished]
    split
    · rename_i row hfind hrow
      exact ⟨h.one.start id r hrow, fun hf => (h.done hf).start h.one id r hrow⟩
    · exact h
  | advance id x =>
    simp only [watch, Scheduler.step, noteFinished]
    cases hfind : sf.1.find id with
    | none => exact h
    | some k =>
      have hk := (System.find_spec hfind).1
      have hkeeps := hop k hfind
      refine ⟨h.one.advance hk fun hjob => (hkeeps hjob).1, ?_⟩
      intro hf
      by_cases hwas : sf.2 jobId = true
      · exact (h.done hwas).advance h.one hk (fun hjob => (hkeeps hjob).1)
          fun hjob => (hkeeps hjob).2.1 hwas
      · simp only at hf
        split at hf
        · rename_i hfinishes
          have hjob : k.jobId = jobId := by
            by_contra hne
            rw [Function.update_of_ne (Ne.symm hne)] at hf
            exact hwas hf
          exact Done.finish h.one hk hjob hfinishes ((hkeeps hjob).2.2 hfinishes)
        · exact absurd hf hwas
  | abort id =>
    have hsubset : ∀ k ∈ sf.1.others id, k ∈ sf.1.routines :=
      fun k hk => (System.mem_others.mp hk).1
    exact ⟨h.one.subset hsubset, fun hf => (h.done hf).subset hsubset⟩
  | pause other =>
    refine ⟨h.one.update other _ ?_, fun hf => (h.done hf).update other _ ?_⟩
    · intro row row' hrow'
      cases hrow'
      exact ⟨rfl, rfl⟩
    · intro _ row _ row' hrow'
      cases hrow'
      exact ⟨rfl, rfl⟩
  | snooze other untilIso =>
    refine ⟨h.one.update other _ ?_, fun hf => (h.done hf).update other _ ?_⟩
    · intro row row' hrow'
      cases hrow'
      exact ⟨rfl, rfl⟩
    · intro hjob row hrow row' hrow'
      cases hrow'
      exact ⟨rfl, (hop hjob hf row hrow).symm⟩
  | stop other =>
    refine ⟨h.one.update other _ ?_, fun hf => (h.done hf).update other _ ?_⟩
    · intro row row' hrow'
      cases hrow'
    · intro _ row _ row' hrow'
      cases hrow'
  | restart =>
    have hsubset : ∀ k ∈ ([] : List Routine), k ∈ sf.1.routines := fun k hk => by cases hk
    exact ⟨h.one.subset hsubset, fun hf => (h.done hf).subset hsubset⟩

theorem Kept.leavesFinished (h : Kept jobId key sf) (op : Op) :
    LeavesFinished jobId sf op := by
  intro hf hstarts
  cases op with
  | advance id x =>
    simp only [System.starts] at hstarts
    cases hfind : sf.1.find id with
    | none => simp [hfind] at hstarts
    | some k =>
      simp only [hfind] at hstarts
      split at hstarts
      · rename_i hwins
        cases hstarts
        simp only [and_eq_true] at hwins
        obtain ⟨row, hrow, -⟩ := any_pending.mp hwins.2
        have hlooks := (h.done hf row hrow).2 k (System.find_spec hfind).1 rfl
        rw [hlooks.2.1] at hwins
        exact false_ne_true hwins.1.1
      · cases hstarts
  | tick t | read id r other | abort id | pause other | snooze other untilIso | stop other
  | restart => cases hstarts

variable {phase : Phase}

theorem begin_checking {audited : Bool} {r : Read} (hdispatches : r.dispatches = true)
    (honce : row.runOnce = true) (h : r.begin w now row audited = some phase)
    : phase = .checking := by
  cases r with
  | due | runNow =>
    simp only [Read.begin, honce, if_true] at h
    split at h <;> cases h
    rfl
  | missed =>
    simp only [Read.begin, honce, if_true] at h
    repeat' split at h
    all_goals
      cases h
      try rfl
  | resume | edit e | timedOut | stale | terminal => cases hdispatches

/-- The routine at the end of the list is found, if no other has its number. -/
theorem find_append (db : Tables) (clock : Instant) (h : ∀ b ∈ routines, b.id ≠ k.id) :
    System.find { db, routines := routines ++ [k], clock } k.id = some k := by
  have hnone : routines.find? (fun b => b.id == k.id) = none :=
    List.find?_eq_none.mpr fun b hb => by simpa using h b hb
  simp [System.find, List.find?_append, hnone]

theorem find_advance (h : (k.stretch w s.clock x s.db).next = some phase) :
    (s.advance w k x).find k.id = some (s.moved k phase) := by
  rw [System.advance, h]
  exact find_append (k := s.moved k phase) _ _ fun b hb => (System.mem_others.mp hb).2

theorem step_advance {id : Nat} (hfind : s.find id = some k) :
    step w s (.advance id x) = s.advance w k x := by
  simp only [step, hfind]

/-- A dispatch of a one-shot whose occurrence is recorded deletes it in two stretches. -/
theorem retired_in_two (hfind : s.find k.id = some k) (hphase : k.phase = .checking)
    (honce : k.job.runOnce = true) (hfound : s.db.completed k.job.occurrenceKey = true) :
    (run (step w) s [.advance k.id {}, .advance k.id {}]).db.jobs k.jobId = none := by
  have hnext : (k.stretch w s.clock {} s.db).next = some .skipping := by
    simp only [Routine.stretch, hphase, lookUp, hfound]
    rfl
  simp only [run]
  rw [step_advance hfind, step_advance (find_advance hnext)]
  simp only [System.advance, System.moved, Tables.commit_jobs_self, Routine.stretch,
    advancePastServicedOccurrence, honce, if_true, retire, Write.apply]

/-- **A finished one-shot is retired by the next dispatch that reads its row.** -/
theorem Done.retires (h : Done jobId s) (hone : OneShot jobId key s) : Retires w s jobId := by
  constructor
  · intro id r row hfind hrow hdispatches hbegin
    obtain ⟨phase, hphase⟩ := Option.isSome_iff_exists.mp hbegin
    obtain ⟨honce, -⟩ := hone.row row hrow
    obtain rfl := begin_checking hdispatches honce hphase
    have hfound : s.db.completed row.occurrenceKey = true :=
      completed_of_recorded (h row hrow).1
    have hfresh : ∀ b ∈ s.routines, b.id ≠ id := by
      intro b hb heq
      have hnot := List.find?_eq_none.mp hfind b hb
      simp [heq] at hnot
    have hstart : step w s (.read id r jobId) =
        { s with routines := s.routines ++ [⟨id, jobId, row, r, .checking, s.clock⟩] } := by
      simp only [step, hfind, hrow, System.start, hphase]
    show (run (step w) (step w s (.read id r jobId)) [.advance id {}, .advance id {}]).db.jobs
      jobId = none
    rw [hstart]
    exact retired_in_two (k := ⟨id, jobId, row, r, .checking, s.clock⟩)
      (find_append _ _ hfresh) rfl honce hfound
  · intro k hk hjob hthere hphase
    obtain ⟨row, hrow⟩ := Option.isSome_iff_exists.mp hthere
    have hfound := h.completed hone hk hjob hrow hphase
    simp only [Routine.stretch, hphase, lookUp, hfound]
    rfl
  · intro k hk hjob _ hphase
    simp only [Routine.stretch, hphase, advancePastServicedOccurrence,
      (hone.routines k hk hjob).1, if_true, retire]

/-! ## Runs -/

/-- **A finished one-shot never runs again**: once a run of it has succeeded and its row is
deleted or the run recorded, no handler of it is started, and the next poll, `recover` or
`run_now` that reads its row deletes it; in every run of the system in which no record is
lost. -/
theorem finished_stays_finished (w : World) {jobId : String} {s : System} (ops : List Op)
    (hstart : s.routines = []) (honce : ∀ row ∈ s.db.jobs jobId, row.runOnce = true)
    (h : Meets (watch (step w) (noteFinished w)) (KeepsFinished w jobId) (s, fun _ => false) ops) :
    Meets (watch (step w) (noteFinished w)) (LeavesFinished jobId) (s, fun _ => false) ops ∧
      Along (watch (step w) (noteFinished w))
        (fun sf => sf.2 jobId = true → Retires w sf.1 jobId) (s, fun _ => false) ops := by
  obtain ⟨key, hkey⟩ : ∃ key, ∀ row ∈ s.db.jobs jobId, row.idempotencyKey = key := by
    cases hrow : s.db.jobs jobId with
    | none => exact ⟨"", fun row hmem => by cases hmem⟩
    | some row => exact ⟨row.idempotencyKey, fun row' hmem => by cases hmem; rfl⟩
  have hfirst : Kept jobId key (s, fun _ => false) := by
    refine ⟨⟨fun row hrow => ⟨honce row hrow, hkey row hrow⟩, ?_⟩, fun hf => by cases hf⟩
    intro k hk
    rw [hstart] at hk
    cases hk
  constructor
  · exact meets_of_meets (fun _ _ hs hop => hs.step hop) (fun _ op hs _ => hs.leavesFinished op)
      hfirst h
  · exact (along_of_meets (fun _ _ hs hop => hs.step hop) hfirst h).mono
      fun sf hs hf => (hs.done hf).retires hs.one

def reminder : Row where
  jobId := "reminder-1"
  handlerName := "goal_execution"
  schedule := "in 5m"
  idempotencyKey := "goal_execution:reminder-1"
  nextRunAt := isoformat noon
  status := .pending
  params := [("run_once", .bool true)]

/-- The reminder runs, and cannot be deleted; its run is recorded. -/
def reminderRuns : List Op :=
  pollStarts 1 "reminder-1" ++
    [.advance 1 {}, .advance 1 { goes := false }, .advance 1 {}]

/-- A reminder that could not be deleted is left to the reaper and the next poll. -/
theorem finished_stays_finished_reminder :
    let ops := reminderRuns ++ [.tick (noon.plus 3000), .read 2 .timedOut "reminder-1",
      .advance 2 {}, .read 3 .due "reminder-1", .advance 3 {}, .advance 3 {}]
    Meets (watch (step dailyWorld) (noteFinished dailyWorld)) (LeavesFinished "reminder-1")
        (idleWith reminder, fun _ => false) ops ∧
      Along (watch (step dailyWorld) (noteFinished dailyWorld))
        (fun sf => sf.2 "reminder-1" = true → Retires dailyWorld sf.1 "reminder-1")
        (idleWith reminder, fun _ => false) ops :=
  finished_stays_finished dailyWorld _ rfl
    (by
      intro row hrow
      cases hrow
      decide)
    (by decide)

/-- **A reminder that could not be deleted is run again when it is snoozed**: the record of
its run is kept under the slot it had. -/
theorem snoozed_runs_again :
    ¬ Meets (watch (step dailyWorld) (noteFinished dailyWorld)) (LeavesFinished "reminder-1")
      (idleWith reminder, fun _ => false)
      (reminderRuns ++ [.snooze "reminder-1" (isoformat (noon.plus 600)),
        .tick (noon.plus 900)] ++ pollStarts 2 "reminder-1") := by
  decide

end StackOwl.Scheduler
