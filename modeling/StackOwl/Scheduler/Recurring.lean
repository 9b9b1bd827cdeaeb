import StackOwl.Scheduler.Routines

/-!
# Recurring jobs and their retries

A recurring job goes back to `pending` whatever becomes of its runs.  A failed run arms
`retry_at`, which masks the slot in the due query: `_settle` at a fixed delay, and
`_mark_failed` on a ladder, where the rung lies before the next slot.  `_mark_completed`
takes the retry back.  `_restore_after_run`, which ends a `run_now`, leaves it as it is and
moves the slot.

## Main results

* `retry_ends_iff` — over any run without requests, a recurring job lives, is `pending`
  when it is settled, and has a retry only behind a failed run and only before its slot;
  exactly if no successful `run_now` is restored while the job has a retry or a count of
  retries, and no slot is moved in front of a retry that `_mark_failed` has armed.
* `retry_outlives_success` — a retry that is pending outlives a successful `run_now`.
-/

namespace StackOwl.Scheduler

open Lib Option

variable {w : World} {now : Instant} {x : Answer} {s : System} {jobId : String}

/-! ## What has become of the runs -/

/-- The last run that was settled, and the retry that is armed. -/
structure Outcome where
  /-- The run was a trustworthy success. -/
  last : Option Bool := none
  /-- `_mark_failed` has armed the retry. -/
  early : Bool := false

def Routine.outcome (w : World) (o : Outcome) (k : Routine) : Outcome :=
  match k.phase with
  | .settling result =>
    { last := some result.trustworthy
      early := !result.trustworthy && !willRetry w k.job }
  | .restoring result => { o with last := some result.trustworthy }
  | _ => o

def noteOutcome (w : World) (jobId : String) (s : System) (o : Outcome) : Op → Outcome
  | .advance id _ =>
    match s.find id with
    | some k => if k.jobId = jobId then k.outcome w o else o
    | none => o
  | _ => o

/-- The job is not requested to stop, pause, move or change. -/
def Unattended (jobId : String) : Op → Prop
  | .read _ (.resume) other | .read _ (.edit _) other => other ≠ jobId
  | .pause other | .snooze other _ | .stop other => other ≠ jobId
  | _ => True

def Lives (jobId : String) (s : System) : Prop :=
  ∃ row, s.db.jobs jobId = some row ∧ row.status ≠ .failed

/-- The settlement of a run, by the poller or by `run_now`. -/
def Phase.settles : Phase → Bool
  | .settling _ | .restoring _ => true
  | _ => false

def System.settles (s : System) (jobId : String) : Op → Bool
  | .advance id _ => (s.find id).any fun k => k.jobId = jobId && k.phase.settles
  | _ => false

/-- The job is `pending` behind the settlement of a run. -/
def SettlesPending (w : World) (jobId : String) (so : System × Outcome) (op : Op) : Prop :=
  so.1.settles jobId op = true →
    ∃ row, (step w so.1 op).db.jobs jobId = some row ∧ row.status = .pending

/-- A retry is pending only behind a failed run, a success clears it and its count, and one
that `_mark_failed` has armed lies before the slot. -/
structure RetrySound (row : Row) (o : Outcome) : Prop where
  failing : row.retryAt.isSome → o.last = some false
  cleared : o.last = some true → row.retryCount = 0
  before : o.early = true → ∀ retryAt ∈ row.retryAt, ∃ t u : Instant,
    retryAt = isoformat t ∧ row.nextRunAt = isoformat u ∧ t < u

def KeepsCadence (jobId : String) (so : System × Outcome) : Prop :=
  Lives jobId so.1 ∧ ∀ row ∈ so.1.db.jobs jobId, RetrySound row so.2

/-! ## What keeps a retry in its bounds -/

/-- A `run_now` that was a success is restored. -/
def Phase.restoresSuccess : Phase → Bool
  | .restoring result => result.trustworthy
  | _ => false

/-- The slot that is written over the row's, beside a settlement by `_settle`. -/
def Routine.movedSlot (w : World) (now : Instant) (k : Routine) : Option String :=
  match k.phase with
  | .skipping => if w.stuck k.job.nextRunAt now then some (w.nextRun now k.job.schedule) else none
  | .releasing => if k.read.isRunNow then some (w.nextRun now k.job.schedule) else none
  | .restoring _ | .reapingStale | .dropping => some (w.nextRun now k.job.schedule)
  | _ => none

/-- A stretch that leaves the retry as it is: a success finds none, and a slot that is moved
lies behind the one that `_mark_failed` has armed. -/
structure LeavesRetry (w : World) (now : Instant) (k : Routine) (row : Row) (o : Outcome) :
    Prop where
  success : k.phase.restoresSuccess = true → row.retryAt = none ∧ row.retryCount = 0
  slot : o.early = true → ∀ slot ∈ k.movedSlot w now, ∀ retryAt ∈ row.retryAt, retryAt < slot

def KeepsRetry (w : World) (jobId : String) (so : System × Outcome) : Op → Prop
  | .advance id _ => ∀ k ∈ so.1.find id, k.jobId = jobId →
      ∀ row ∈ so.1.db.jobs jobId, LeavesRetry w so.1.clock k row so.2
  | _ => True

instance Unattended.decidable (jobId : String) : ∀ op, Decidable (Unattended jobId op)
  | .read _ r other =>
    match r with
    | .resume | .edit _ => inferInstanceAs (Decidable (other ≠ jobId))
    | .due | .missed | .runNow | .timedOut | .stale | .terminal => isTrue trivial
  | .pause other | .snooze other _ | .stop other => inferInstanceAs (Decidable (other ≠ jobId))
  | .tick _ | .advance _ _ | .abort _ | .restart => isTrue trivial

instance (k : Routine) (row : Row) (o : Outcome) : Decidable (LeavesRetry w now k row o) :=
  decidable_of_iff
    ((k.phase.restoresSuccess = true → row.retryAt = none ∧ row.retryCount = 0) ∧
      (o.early = true → ∀ slot ∈ k.movedSlot w now, ∀ retryAt ∈ row.retryAt, retryAt < slot))
    ⟨fun h => ⟨h.1, h.2⟩, fun h => ⟨h.success, h.slot⟩⟩

instance KeepsRetry.decidable (so : System × Outcome) : ∀ op, Decidable (KeepsRetry w jobId so op)
  | .advance id _ =>
    inferInstanceAs (Decidable (∀ k ∈ so.1.find id, _ → _))
  | .tick _ | .read _ _ _ | .abort _ | .pause _ | .snooze _ _ | .stop _ | .restart =>
    isTrue trivial

/-! ## The invariant -/

/-- A phase of a routine on a recurring job that is not requested to change. -/
def Phase.recurs : Phase → Bool
  | .noting | .keeping _ | .resuming | .editing _ | .healing _ => false
  | _ => true

/-- The job is a recurring one that lives, and its routines know it as one. -/
structure Recurs (jobId : String) (s : System) : Prop where
  row : ∃ row, s.db.jobs jobId = some row ∧ row.runOnce = false ∧ row.status ≠ .failed
  routines : ∀ k ∈ s.routines, k.jobId = jobId →
    k.job.runOnce = false ∧ k.phase.recurs = true

variable {k : Routine}

theorem stretch_recurs (w : World) (now : Instant) (x : Answer) (db : Tables)
    (honce : k.job.runOnce = false) (hrecurs : k.phase.recurs = true) (row : Row) :
    ∃ row', (k.stretch w now x db).write.apply (some row) = some row' ∧
      row'.runOnce = row.runOnce ∧
      (row'.status = .pending ∨ row'.status = .running ∨ row'.status = row.status) ∧
      (k.phase.settles = true → row'.status = .pending) ∧
      ((∃ result, k.phase = .settling result) ∨
        row'.retryAt = row.retryAt ∧ row'.retryCount = row.retryCount ∧
          row'.nextRunAt = (k.movedSlot w now).getD row.nextRunAt) := by
  cases hphase : k.phase with
  | noting | keeping error | resuming | editing e | healing recorded =>
    simp [hphase, Phase.recurs] at hrecurs
  | checking =>
    refine ⟨row, ?_, rfl, .inr (.inr rfl), by simp [Phase.settles], .inr ⟨rfl, rfl, ?_⟩⟩
    · simp only [Routine.stretch, hphase, lookUp]
      split <;> rfl
    · simp [Routine.movedSlot, hphase]
  | claiming =>
    simp only [Routine.stretch, hphase, claim, Routine.movedSlot, Phase.settles]
    split
    · exact ⟨_, rfl, rfl, .inr (.inl rfl), by simp, .inr ⟨rfl, rfl, rfl⟩⟩
    · exact ⟨_, rfl, rfl, .inr (.inr rfl), by simp, .inr ⟨rfl, rfl, rfl⟩⟩
  | skipping =>
    simp only [Routine.stretch, hphase, advancePastServicedOccurrence, honce,
      Bool.false_eq_true, if_false, Routine.movedSlot, Phase.settles]
    split
    · exact ⟨_, rfl, rfl, .inr (.inr rfl), by simp, .inr ⟨rfl, rfl, rfl⟩⟩
    · exact ⟨_, rfl, rfl, .inr (.inr rfl), by simp, .inr ⟨rfl, rfl, rfl⟩⟩
  | releasing =>
    simp only [Routine.stretch, hphase, release, restoreAfterRun, honce,
      Bool.false_eq_true, if_false, Routine.movedSlot, Phase.settles]
    split
    · exact ⟨_, rfl, rfl, .inl rfl, by simp, .inr ⟨rfl, rfl, rfl⟩⟩
    · exact ⟨_, rfl, rfl, .inl rfl, by simp, .inr ⟨rfl, rfl, rfl⟩⟩
  | executing =>
    exact ⟨row, by simp only [Routine.stretch, hphase]; rfl, rfl, .inr (.inr rfl),
      by simp [Phase.settles], .inr ⟨rfl, rfl, by simp [Routine.movedSlot, hphase]⟩⟩
  | recording result =>
    refine ⟨row, ?_, rfl, .inr (.inr rfl), by simp [Phase.settles], .inr ⟨rfl, rfl, ?_⟩⟩
    · simp only [Routine.stretch, hphase, recordRun]
      split <;> rfl
    · simp [Routine.movedSlot, hphase]
  | settling result =>
    simp only [Routine.stretch, hphase, settle, markCompleted, markFailed, honce,
      Bool.false_eq_true, if_false]
    split
    · exact ⟨_, rfl, rfl, .inl rfl, fun _ => rfl, .inl ⟨result, rfl⟩⟩
    · split
      · exact ⟨_, rfl, rfl, .inl rfl, fun _ => rfl, .inl ⟨result, rfl⟩⟩
      · exact ⟨_, rfl, rfl, .inl rfl, fun _ => rfl, .inl ⟨result, rfl⟩⟩
  | restoring result =>
    simp only [Routine.stretch, hphase, restoreAfterRun, honce, Bool.false_eq_true, if_false,
      Routine.movedSlot]
    exact ⟨_, rfl, rfl, .inl rfl, fun _ => rfl, .inr ⟨rfl, rfl, rfl⟩⟩
  | reaping =>
    simp only [Routine.stretch, hphase, reap, Routine.movedSlot, Phase.settles]
    cases hstatus : row.status with
    | running =>
      exact ⟨{ row with status := .pending }, by simp [Write.apply, hstatus], rfl, .inl rfl,
        by simp, .inr ⟨rfl, rfl, rfl⟩⟩
    | pending | completed | failed =>
      exact ⟨row, by simp [Write.apply, hstatus], rfl, .inr (.inr hstatus), by simp,
        .inr ⟨rfl, rfl, rfl⟩⟩
  | reapingStale =>
    simp only [Routine.stretch, hphase, reapStale, honce, Bool.false_eq_true, if_false,
      Routine.movedSlot, Phase.settles]
    exact ⟨_, rfl, rfl, .inl rfl, by simp, .inr ⟨rfl, rfl, rfl⟩⟩
  | dropping =>
    simp only [Routine.stretch, hphase, dropMissed, Routine.movedSlot, Phase.settles]
    exact ⟨_, rfl, rfl, .inr (.inr rfl), by simp, .inr ⟨rfl, rfl, rfl⟩⟩

variable {db : Tables}

theorem stretch_next_recurs {phase : Phase} (honce : k.job.runOnce = false)
    (hrecurs : k.phase.recurs = true) (h : (k.stretch w now x db).next = some phase) :
    phase.recurs = true := by
  cases hphase : k.phase with
  | noting | keeping error | resuming | editing e | healing recorded =>
    simp [hphase, Phase.recurs] at hrecurs
  | checking | skipping | claiming | releasing | executing | recording result
  | settling result | restoring result | reaping | reapingStale | dropping =>
    simp only [Routine.stretch, hphase, lookUp, advancePastServicedOccurrence, claim, release,
      recordRun, settle, markCompleted, markFailed, honce, Bool.false_eq_true, if_false, reap,
      reapStale, dropMissed] at h
    repeat' split at h
    all_goals
      cases h
      try rfl

/-! ## The retry behind a stretch -/

/-- A retry that `_mark_failed` arms lies before the slot it writes: the texts are compared
as the instants are. -/
theorem earlyRetryAt_before {job : Row} {error : Option String} {retryAt : String}
    (h : retryAt ∈ earlyRetryAt w now job error) :
    ∃ t u : Instant, retryAt = isoformat t ∧ w.nextRun now job.schedule = isoformat u ∧ t < u := by
  simp only [earlyRetryAt] at h
  split at h
  · rename_i hcap
    cases h
    exact ⟨_, _, rfl, rfl, isoformat_lt_iff.mp hcap.2⟩
  · cases h

variable {result : JobResult}

/-- `_settle` leaves the retry of a recurring job in its bounds, whatever it was. -/
theorem settle_sound {job row row' : Row} {last : Option Bool} (honce : job.runOnce = false)
    (h : row' ∈ (settle w now x job result).write.apply (some row))
    (hlast : last = some result.trustworthy) :
    RetrySound row' ⟨last, !result.trustworthy && !willRetry w job⟩ := by
  subst hlast
  simp only [settle, markCompleted, markFailed, honce, Bool.false_eq_true, if_false] at h
  split at h
  · rename_i htrust
    cases h
    exact ⟨by simp, fun _ => rfl, by simp⟩
  · rename_i htrust
    have hfailed := Bool.eq_false_iff.mpr htrust
    split at h
    · rename_i hretry
      cases h
      exact ⟨fun _ => congrArg some hfailed, by simp [hfailed], by simp [hretry]⟩
    · cases h
      exact ⟨fun _ => congrArg some hfailed, fun _ => rfl, fun _ _ => earlyRetryAt_before⟩

theorem movedSlot_iso {slot : String} (h : slot ∈ k.movedSlot w now) :
    ∃ u, slot = isoformat u := by
  refine ⟨w.computeNextRun k.job.schedule now, ?_⟩
  simp only [Routine.movedSlot] at h
  repeat' split at h
  all_goals
    cases h
    try rfl

variable {o : Outcome} {row row' : Row}

/-- An armed retry stays before the slot exactly if the slot that is written, if one is, lies
behind it. -/
theorem before_iff (hsound : RetrySound row o)
    (hslot : row'.nextRunAt = (k.movedSlot w now).getD row.nextRunAt) :
    (o.early = true → ∀ retryAt ∈ row.retryAt, ∃ t u : Instant,
        retryAt = isoformat t ∧ row'.nextRunAt = isoformat u ∧ t < u) ↔
      (o.early = true → ∀ slot ∈ k.movedSlot w now, ∀ retryAt ∈ row.retryAt, retryAt < slot) := by
  refine forall_congr' fun hearly => ?_
  cases hmoved : k.movedSlot w now with
  | none =>
    rw [hmoved, getD_none] at hslot
    rw [hslot]
    exact iff_of_true (hsound.before hearly) (by simp)
  | some slot =>
    rw [hmoved, getD_some] at hslot
    obtain ⟨u, rfl⟩ := movedSlot_iso hmoved
    simp only [mem_some_iff, forall_eq', hslot]
    refine forall₂_congr fun retryAt hretry => ?_
    obtain ⟨t, -, rfl, -, -⟩ := hsound.before hearly retryAt hretry
    constructor
    · rintro ⟨t', u', ht, hu, hlt⟩
      rw [ht, hu]
      exact isoformat_lt_iff.mpr hlt
    · intro hlt
      exact ⟨t, u, rfl, rfl, isoformat_lt_iff.mp hlt⟩

/-- What a stretch that leaves the retry alone must find for it to stay in its bounds. -/
theorem kept_sound_iff (hsound : RetrySound row o)
    (hsettling : ∀ result, k.phase ≠ .settling result) (hat : row'.retryAt = row.retryAt)
    (hcount : row'.retryCount = row.retryCount)
    (hslot : row'.nextRunAt = (k.movedSlot w now).getD row.nextRunAt) :
    RetrySound row' (k.outcome w o) ↔ LeavesRetry w now k row o := by
  have hbefore := before_iff hsound hslot
  have hlast : (k.outcome w o).early = o.early ∧
      ((k.phase.restoresSuccess = false ∧
          ((k.outcome w o).last = o.last ∨ (k.outcome w o).last = some false)) ∨
        k.phase.restoresSuccess = true ∧ (k.outcome w o).last = some true) := by
    cases hphase : k.phase with
    | settling result => exact absurd hphase (hsettling result)
    | restoring result =>
      simp only [Routine.outcome, hphase, Phase.restoresSuccess]
      cases result.trustworthy <;> simp
    | checking | skipping | claiming | releasing | executing | recording result | noting
    | keeping error | resuming | editing e | reaping | reapingStale | dropping
    | healing recorded => simp [Routine.outcome, hphase, Phase.restoresSuccess]
  obtain ⟨hearly, hcases⟩ := hlast
  constructor
  · intro h
    refine ⟨fun hsuccess => ?_, hbefore.mp (by simpa only [hat, hearly] using h.before)⟩
    rcases hcases with ⟨hno, -⟩ | ⟨-, hyes⟩
    · exact absurd hsuccess (by simp [hno])
    · refine ⟨not_isSome_iff_eq_none.mp fun hsome => ?_, hcount ▸ h.cleared hyes⟩
      have hfailing := h.failing (by rwa [hat])
      rw [hyes] at hfailing
      cases hfailing
  · intro h
    refine ⟨fun hsome => ?_, fun hyes => ?_, ?_⟩
    · rw [hat] at hsome
      rcases hcases with ⟨-, hsame | hfailed⟩ | ⟨hsuccess, -⟩
      · exact hsame.trans (hsound.failing hsome)
      · exact hfailed
      · rw [(h.success hsuccess).1] at hsome
        cases hsome
    · rw [hcount]
      rcases hcases with ⟨-, hsame | hfailed⟩ | ⟨hsuccess, -⟩
      · exact hsound.cleared (hsame.symm.trans hyes)
      · rw [hfailed] at hyes
        cases hyes
      · exact (h.success hsuccess).2
    · simpa only [hat, hearly] using hbefore.mpr h.slot

theorem leavesRetry_settling (hphase : k.phase = .settling result) (row : Row) (o : Outcome)
    : LeavesRetry w now k row o :=
  ⟨by simp [hphase, Phase.restoresSuccess], by simp [hphase, Routine.movedSlot]⟩

/-- A stretch keeps the retry of a recurring job in its bounds exactly if it leaves it so. -/
theorem stretch_sound_iff (honce : k.job.runOnce = false) (hrecurs : k.phase.recurs = true)
    (hsound : RetrySound row o) (h : (k.stretch w now x db).write.apply (some row) = some row') :
    RetrySound row' (k.outcome w o) ↔ LeavesRetry w now k row o := by
  obtain ⟨found, hfound, -, -, -, hretry⟩ :=
    stretch_recurs w now x db honce hrecurs row
  cases h.symm.trans hfound
  by_cases hsettling : ∃ result, k.phase = .settling result
  · obtain ⟨result, hphase⟩ := hsettling
    refine iff_of_true ?_ (leavesRetry_settling hphase row o)
    simp only [Routine.stretch, hphase] at h
    simpa only [Routine.outcome, hphase] using settle_sound honce h rfl
  · obtain ⟨hat, hcount, hslot⟩ := hretry.resolve_left hsettling
    exact kept_sound_iff hsound (fun result hphase => hsettling ⟨result, hphase⟩) hat hcount hslot

section

variable (h : Recurs jobId s)

include h

/-! ## Steps -/

theorem Recurs.lives : Lives jobId s := by
  obtain ⟨row, hrow, -, hstatus⟩ := h.row
  exact ⟨row, hrow, hstatus⟩

theorem Recurs.subset {routines : List Routine} (hsubset : ∀ k ∈ routines, k ∈ s.routines) :
    Recurs jobId { s with routines := routines } :=
  ⟨h.row, fun k hk => h.routines k (hsubset k hk)⟩

theorem Recurs.advance (hk : k ∈ s.routines) : Recurs jobId (s.advance w k x) := by
  constructor
  · obtain ⟨row, hrow, honce, hstatus⟩ := h.row
    by_cases hjob : k.jobId = jobId
    · subst hjob
      obtain ⟨hread, hrecurs⟩ := h.routines k hk rfl
      obtain ⟨row', hrow', hsame, hlives, -, -⟩ :=
        stretch_recurs w s.clock x s.db hread hrecurs row
      refine ⟨row', ?_, hsame.trans honce, ?_⟩
      · rw [System.advance, Tables.commit_jobs_self, hrow]
        exact hrow'
      · rcases hlives with hpending | hrunning | hkept
        · simp [hpending]
        · simp [hrunning]
        · rwa [hkept]
    · refine ⟨row, ?_, honce, hstatus⟩
      rw [System.advance, Tables.commit_jobs_of_ne _ _ _ (Ne.symm hjob)]
      exact hrow
  · intro b hb hjob
    rcases System.mem_advance.mp hb with ⟨hold, -⟩ | ⟨phase, hnext, rfl⟩
    · exact h.routines b hold hjob
    · obtain ⟨honce, hrecurs⟩ := h.routines k hk hjob
      exact ⟨honce, stretch_next_recurs honce hrecurs hnext⟩

theorem Recurs.start (id : Nat) {r : Read} {other : String} (hrow : s.db.jobs other = some row)
    (hop : Unattended jobId (.read id r other)) :
    Recurs jobId (s.start w id r other row) := by
  constructor
  · rw [System.start_db]
    exact h.row
  · intro b hb hjob
    rcases System.mem_start hb with hold | ⟨phase, hbegin, rfl⟩
    · exact h.routines b hold hjob
    · obtain rfl : other = jobId := hjob
      obtain ⟨found, hfound, honce, hstatus⟩ := h.row
      cases hrow.symm.trans hfound
      refine ⟨honce, ?_⟩
      cases r with
      | resume => exact absurd rfl hop
      | edit e => exact absurd rfl hop
      | terminal =>
        simp only [Read.begin, hstatus, false_and, if_false] at hbegin
        cases hbegin
      | due | stale | runNow | missed | timedOut =>
        simp only [Read.begin] at hbegin
        repeat' split at hbegin
        all_goals
          cases hbegin
          try rfl

theorem Recurs.step (op : Op) (hop : Unattended jobId op) : Recurs jobId (step w s op) := by
  cases op with
  | tick t => exact ⟨h.row, h.routines⟩
  | abort id => exact h.subset fun k hk => (System.mem_others.mp hk).1
  | restart => exact h.subset fun k hk => absurd hk List.not_mem_nil
  | advance id x =>
    simp only [Scheduler.step]
    split
    · rename_i k hfind
      exact h.advance (System.find_spec hfind).1
    · exact h
  | read id r other =>
    simp only [Scheduler.step]
    split
    · rename_i row hfind hrow
      exact h.start id hrow hop
    · exact h
  | pause other | snooze other untilIso | stop other =>
    refine ⟨?_, h.routines⟩
    simp only [Scheduler.step, System.update, Tables.commit_jobs_of_ne _ _ _ (Ne.symm hop)]
    exact h.row

theorem Recurs.settlesPending (o : Outcome) (op : Op) : SettlesPending w jobId (s, o) op := by
  intro hsettles
  cases op with
  | advance id x =>
    simp only [System.settles, any_eq_true, Bool.and_eq_true, decide_eq_true_eq]
      at hsettles
    obtain ⟨k, hfind, rfl, hphase⟩ := hsettles
    obtain ⟨row, hrow, -, -⟩ := h.row
    obtain ⟨honce, hrecurs⟩ := h.routines k (System.find_spec hfind).1 rfl
    obtain ⟨row', hrow', -, -, hpending, -⟩ :=
      stretch_recurs w s.clock x s.db honce hrecurs row
    refine ⟨row', ?_, hpending hphase⟩
    simp only [Scheduler.step, hfind, System.advance, Tables.commit_jobs_self, hrow, hrow']
  | tick _ | read _ _ _ | abort _ | pause _ | snooze _ _ | stop _ | restart => cases hsettles

end

/-- A step that leaves the row and what is known of its runs. -/
theorem keepsCadence_congr {s' : System} (hjobs : s'.db.jobs jobId = s.db.jobs jobId)
    (h : KeepsCadence jobId (s, o)) : KeepsCadence jobId (s', o) := by
  simpa only [KeepsCadence, Lives, hjobs] using h

/-- **One step.**  The cadence of a recurring job is kept exactly by the steps that keep its
retry in its bounds. -/
theorem keepsCadence_step_iff (op : Op) (hrecurs : Recurs jobId s) (hop : Unattended jobId op)
    (h : KeepsCadence jobId (s, o)) :
    KeepsCadence jobId (watch (step w) (noteOutcome w jobId) (s, o) op) ↔
      KeepsRetry w jobId (s, o) op := by
  cases op with
  | tick _ | abort _ | restart => exact iff_of_true (keepsCadence_congr (s := s) rfl h) trivial
  | read id r other =>
    refine iff_of_true (keepsCadence_congr (s := s) ?_ h) trivial
    simp only [step]
    split
    · rw [System.start_db]
    · rfl
  | pause other | snooze other untilIso | stop other =>
    refine iff_of_true (keepsCadence_congr (s := s) ?_ h) trivial
    exact Tables.commit_jobs_of_ne _ _ _ (Ne.symm hop)
  | advance id x =>
    cases hfind : s.find id with
    | none =>
      refine iff_of_true ?_ (by simp [KeepsRetry, hfind])
      simpa only [watch, step, noteOutcome, hfind] using h
    | some k =>
      simp only [watch, step, noteOutcome, hfind, KeepsRetry, mem_some_iff, forall_eq']
      by_cases hjob : k.jobId = jobId
      · subst hjob
        have hlives : Lives k.jobId (s.advance w k x) :=
          (hrecurs.advance (System.find_spec hfind).1).lives
        obtain ⟨row, hrow, -, -⟩ := hrecurs.row
        obtain ⟨honce, hphase⟩ := hrecurs.routines k (System.find_spec hfind).1 rfl
        obtain ⟨row', hrow', -⟩ :=
          stretch_recurs w s.clock x s.db honce hphase row
        have hnew : (s.advance w k x).db.jobs k.jobId = some row' := by
          simp only [System.advance, Tables.commit_jobs_self]
          exact (congrArg _ hrow).trans hrow'
        have hsound := stretch_sound_iff honce hphase (h.2 row hrow) hrow'
        simp only [KeepsCadence, hlives, true_and, if_pos, hnew, hrow, mem_some_iff,
          forall_eq', forall_const]
        exact hsound
      · have hcommit : (s.advance w k x).db.jobs jobId = s.db.jobs jobId :=
          Tables.commit_jobs_of_ne _ _ _ (Ne.symm hjob)
        rw [if_neg hjob]
        exact iff_of_true (keepsCadence_congr (s := s) hcommit h) fun heq => absurd heq hjob

/-! ## Runs -/

/-- **A recurring job never dies, and exactly so no retry outlives its occurrence.**  In
every run without requests, any recurring job that is not `failed` lives, is `pending`
behind every settlement, and has a retry only behind a failed run and, where `_mark_failed`
has armed it, only before its slot — exactly if no successful `run_now` is restored over a
retry or a count of retries, and no slot is written in front of an armed one. -/
theorem retry_ends_iff (w : World) {so : System × Outcome} {row : Row} (ops : List Op)
    (hstart : so.1.routines = []) (hrow : so.1.db.jobs jobId = some row)
    (honce : row.runOnce = false) (hlives : row.status ≠ .failed) (hsound : RetrySound row so.2)
    (hunattended : Meets (watch (step w) (noteOutcome w jobId)) (fun _ => Unattended jobId)
      so ops) :
    (Along (watch (step w) (noteOutcome w jobId)) (KeepsCadence jobId) so ops ∧
        Meets (watch (step w) (noteOutcome w jobId)) (SettlesPending w jobId) so ops) ↔
      Meets (watch (step w) (noteOutcome w jobId)) (KeepsRetry w jobId) so ops := by
  have hrecurs : Recurs jobId so.1 := by
    refine ⟨⟨row, hrow, honce, hlives⟩, fun k hk => ?_⟩
    rw [hstart] at hk
    cases hk
  have hkeeps : KeepsCadence jobId so := by
    refine ⟨hrecurs.lives, fun found hfound => ?_⟩
    rw [hrow] at hfound
    cases hfound
    exact hsound
  have hstep : ∀ (so : System × Outcome) op, Recurs jobId so.1 → Unattended jobId op →
      Recurs jobId (watch (step w) (noteOutcome w jobId) so op).1 :=
    fun _ op h hop => h.step op hop
  have hsettles := meets_of_meets hstep (fun so op h _ => h.settlesPending (w := w) so.2 op)
    hrecurs hunattended
  rw [and_iff_left hsettles]
  exact along_iff_meets_of_meets hstep
    (fun so op h hop => keepsCadence_step_iff (s := so.1) (o := so.2) op h hop) hrecurs hkeeps
    hunattended

def pollFails (id : Nat) (jobId : String) : List Op :=
  pollStarts id jobId ++ [.advance id { result := { success := false } }, .advance id {}]

/-- `run_now` runs the job. -/
def runNow (id : Nat) (jobId : String) (result : JobResult) : List Op :=
  [.read id .runNow jobId, .advance id {}, .advance id { result }, .advance id {}, .advance id {}]

/-- Three runs fail, and so does a `run_now`; the retry that is armed ends in a success. -/
theorem retry_ends_iff_digest :
    let ops := pollFails 1 "digest-1" ++ [.tick (noon.plus 300)] ++ pollFails 2 "digest-1" ++
      [.tick (noon.plus 600)] ++ pollFails 3 "digest-1" ++
      runNow 4 "digest-1" { success := false } ++ [.tick (noon.plus 900)] ++
      pollStarts 5 "digest-1" ++ [.advance 5 {}, .advance 5 {}]
    Along (watch (step dailyWorld) (noteOutcome dailyWorld "digest-1"))
        (KeepsCadence "digest-1") (idleWith digest, {}) ops ∧
      Meets (watch (step dailyWorld) (noteOutcome dailyWorld "digest-1"))
        (SettlesPending dailyWorld "digest-1") (idleWith digest, {}) ops :=
  (retry_ends_iff dailyWorld _ rfl rfl (by decide +kernel) (by decide)
    ⟨by decide, by decide, by simp⟩ (by decide +kernel)).mpr (by decide +kernel)

/-- **A retry outlives a success**: a run fails, a `run_now` succeeds, and the retry is
pending still. -/
theorem retry_outlives_success :
    let ops := pollFails 1 "digest-1" ++ runNow 2 "digest-1" { success := true }
    Meets (watch (step dailyWorld) (noteOutcome dailyWorld "digest-1"))
        (fun _ => Unattended "digest-1") (idleWith digest, {}) ops ∧
      ¬ Along (watch (step dailyWorld) (noteOutcome dailyWorld "digest-1"))
        (KeepsCadence "digest-1") (idleWith digest, {}) ops := by
  refine ⟨by decide, fun h => ?_⟩
  have hpending : ∃ so, so = (run (watch (step dailyWorld) (noteOutcome dailyWorld "digest-1"))
      (idleWith digest, {}) (pollFails 1 "digest-1" ++ runNow 2 "digest-1" { success := true })) ∧
      (so.1.db.jobs "digest-1").any (fun row => row.retryAt.isSome) = true ∧
      so.2.last = some true :=
    ⟨_, rfl, by decide +kernel, by decide +kernel⟩
  obtain ⟨so, hso, hsome, hlast⟩ := hpending
  obtain ⟨row, hrow, hretry⟩ := (any_eq_true _ _).mp hsome
  have hfailing := ((hso ▸ h.last).2 row hrow).failing hretry
  rw [hlast] at hfailing
  cases hfailing

end StackOwl.Scheduler
