import StackOwl.Scheduler.Routines

/-!
# Paused jobs

`pause` sets a job's row to `failed` and disables it.  A run that was under way then takes
the row back to `pending` when it is settled, and leaves it disabled.  The due query and
`run_now` ask whether a job is enabled; the query of `recover` and the claim do not.

## Main results

* `stays_paused` — a paused job is not started, and its row stays until it is stopped or a
  run from before the pause is settled, in every run of the system in which `recover`
  replays no paused job, no dispatch that read the row before the pause is on its way to a
  claim when a write takes the row back to `pending`, and none deletes it.
* `paused_job_replayed` — a job that is paused while it runs is run again by the next
  process.
-/

namespace StackOwl.Scheduler

open Lib Option Function

variable {w : World} {now : Instant} {x : Answer} {s : System}

/-! ## Pauses -/

abbrev Pauses := String → Option Instant

def Phase.isResuming : Phase → Bool
  | .resuming => true
  | _ => false

/-- A pause lasts until a `resume` or a `snooze` of the job is committed. -/
def notePause (s : System) (p : Pauses) : Op → Pauses
  | .pause jobId => update p jobId (some s.clock)
  | .snooze jobId _ => update p jobId none
  | .advance id _ =>
    match s.find id with
    | some k => if k.phase.isResuming then update p k.jobId none else p
    | none => p
  | _ => p

/-- The operation stops the job, or takes a run of it that was claimed before the time on
to its settlement. -/
def System.concludes (s : System) (jobId : String) (since : Instant) : Op → Bool
  | .stop other => other = jobId
  | .advance id _ => (s.find id).any fun k =>
    k.jobId = jobId && k.phase.unsettled && decide (k.claimedAt ≤ since)
  | _ => false

/-- The operation leaves the job paused: it starts no handler of it, and deletes its row
only if it stops the job or settles a run from before the pause. -/
def LeavesPaused (w : World) (jobId : String) (sp : System × Pauses) (op : Op) : Prop :=
  ∀ pausedAt ∈ sp.2 jobId,
    sp.1.starts op ≠ some jobId ∧
      ((sp.1.db.jobs jobId).isSome → ((step w sp.1 op).db.jobs jobId).isNone →
        sp.1.concludes jobId pausedAt op = true)

/-! ## Where a pause is kept -/

/-- A dispatch has read the row and not claimed the job. -/
def Phase.unclaimed : Phase → Bool
  | .checking | .claiming => true
  | _ => false

/-- The stretches that write `pending`, beside `resume`. -/
def Phase.frees : Phase → Bool
  | .releasing | .settling _ | .restoring _ | .reapingStale => true
  | _ => false

/-- No dispatch of the job is on its way to a claim. -/
def System.Settled (s : System) (jobId : String) : Prop :=
  ∀ k ∈ s.routines, k.jobId = jobId → k.phase.unclaimed = false

/-- A stretch that retires a one-shot for another reason than a run of its own. -/
def Routine.sweeps (x : Answer) (k : Routine) : Bool :=
  match k.phase with
  | .skipping => k.job.runOnce && x.goes
  | .healing recorded => recorded && x.goes
  | _ => false

def Read.isMissed : Read → Bool
  | .missed => true
  | _ => false

def Row.replayed (w : World) (now : Instant) (row : Row) : Bool :=
  (Read.begin w now row false .missed).any Phase.isChecking

/-- `recover` replays no paused job; a paused row is taken back to `pending` while no older
dispatch is on its way to a claim, and retired by none. -/
def KeepsPauses (w : World) (sp : System × Pauses) : Op → Prop
  | .read _ r jobId => r.isMissed = true → (sp.2 jobId).isSome →
      ∀ row ∈ sp.1.db.jobs jobId, row.replayed w sp.1.clock = false
  | .advance id x => ∀ k ∈ sp.1.find id, (sp.2 k.jobId).isSome →
      (k.phase.frees = true → sp.1.Settled k.jobId) ∧ k.sweeps x = false
  | _ => True

instance (jobId : String) (sp : System × Pauses) (op : Op) :
    Decidable (LeavesPaused w jobId sp op) :=
  inferInstanceAs (Decidable (∀ pausedAt ∈ sp.2 jobId, _))

instance (jobId : String) : Decidable (s.Settled jobId) :=
  inferInstanceAs (Decidable (∀ k ∈ s.routines, _ → _))

instance KeepsPauses.decidable (sp : System × Pauses) : ∀ op, Decidable (KeepsPauses w sp op)
  | .read _ _ jobId => inferInstanceAs (Decidable (_ → _ → ∀ row ∈ sp.1.db.jobs jobId, _))
  | .advance id _ => inferInstanceAs (Decidable (∀ k ∈ sp.1.find id, _ → (_ → _) ∧ _))
  | .tick _ | .abort _ | .pause _ | .snooze _ _ | .stop _ | .restart => isTrue trivial

/-! ## The invariant -/

/-- The row of a paused job: it is disabled, and if a settlement has taken it back to
`pending`, no dispatch is on its way to it. -/
structure Rests (s : System) (jobId : String) (row : Row) : Prop where
  disabled : row.enabled = false
  notRunning : row.status ≠ .running
  settled : row.status = .pending → s.Settled jobId

/-- What a pause leaves: the row rests, and every claim is older than the pause. -/
structure PauseHolds (sp : System × Pauses) : Prop where
  dated : ∀ k ∈ sp.1.routines, k.phase.holds = true → k.claimedAt ≤ sp.1.clock
  rests : ∀ jobId pausedAt, sp.2 jobId = some pausedAt →
    ∀ row ∈ sp.1.db.jobs jobId, Rests sp.1 jobId row
  before : ∀ jobId pausedAt, sp.2 jobId = some pausedAt →
    ∀ k ∈ sp.1.routines, k.jobId = jobId → k.phase.holds = true → k.claimedAt ≤ pausedAt

variable {k : Routine} {db : Tables}

theorem stretch_rests {row row' : Row} (hresuming : k.phase.isResuming = false)
    (h : row' ∈ (k.stretch w now x db).write.apply (some row)) :
    row'.enabled = row.enabled ∧
      (row'.status = .running → row.status = .running ∨
        k.phase = .claiming ∧ ∃ found, db.jobs k.jobId = some found ∧ found.status = .pending) ∧
      (row'.status = .pending → row.status = .pending ∨ row.status = .running ∨
        k.phase.frees = true) := by
  cases stretch_leaves h with
  | same | moved _ | edited _ _ => exact ⟨rfl, .inl, .inl⟩
  | claimed hphase hpending =>
    exact ⟨rfl, fun _ => .inr ⟨hphase, hpending⟩, by simp⟩
  | freed hphase =>
    refine ⟨rfl, by simp, fun _ => .inr (.inr ?_)⟩
    rcases hphase with hphase | ⟨result, hphase⟩ | ⟨result, hphase⟩ <;>
      · rw [hphase]
        rfl
  | parked _ _ => exact ⟨rfl, by simp, by simp⟩
  | resumed hphase =>
    rw [hphase] at hresuming
    cases hresuming
  | reaped _ hrunning => exact ⟨rfl, fun _ => .inl hrunning, fun _ => .inr (.inl hrunning)⟩
  | staled hphase =>
    refine ⟨rfl, by simp, fun _ => .inr (.inr ?_)⟩
    rw [hphase]
    rfl

variable {row : Row}

/-- A stretch that deletes its row retires a one-shot, behind a run of its own or not. -/
theorem stretch_deletes (h : (k.stretch w now x db).write.apply (some row) = none) :
    k.phase.unsettled = true ∨ k.sweeps x = true := by
  cases hphase : k.phase with
  | executing | recording result | settling result | restoring result | noting
  | keeping error => exact .inl rfl
  | skipping =>
    simp only [Routine.stretch, hphase, advancePastServicedOccurrence, retire] at h
    repeat' split at h
    all_goals simp_all [Write.apply, Routine.sweeps]
  | healing recorded =>
    simp only [Routine.stretch, hphase, heal, retire] at h
    repeat' split at h
    all_goals simp_all [Write.apply, Routine.sweeps]
  | checking =>
    simp only [Routine.stretch, hphase, lookUp] at h
    split at h <;> cases h
  | claiming =>
    simp only [Routine.stretch, hphase, claim] at h
    split at h <;> cases h
  | releasing =>
    simp only [Routine.stretch, hphase, release, restoreAfterRun] at h
    repeat' split at h
    all_goals cases h
  | reapingStale =>
    simp only [Routine.stretch, hphase, reapStale] at h
    split at h <;> cases h
  | resuming | editing e | reaping | dropping =>
    simp only [Routine.stretch, hphase, resumeUpdate, editUpdate, reap, dropMissed] at h
    cases h

/-! ## Steps -/

variable {sp : System × Pauses}

theorem PauseHolds.not_pending (h : PauseHolds sp) (hk : k ∈ sp.1.routines)
    (hpaused : (sp.2 k.jobId).isSome) (hphase : k.phase = .claiming) :
    ¬ ∃ row, sp.1.db.jobs k.jobId = some row ∧ row.status = .pending := by
  rintro ⟨row, hrow, hstatus⟩
  obtain ⟨pausedAt, hp⟩ := isSome_iff_exists.mp hpaused
  have hunclaimed := (h.rests k.jobId pausedAt hp row hrow).settled hstatus k hk rfl
  rw [hphase] at hunclaimed
  cases hunclaimed

variable {jobId : String} {s' : System}

/-- Only a dispatch of the job itself takes it to a claim. -/
theorem Rests.of_mem (h : Rests s jobId row)
    (hmem : ∀ k ∈ s'.routines, k.jobId = jobId → k ∈ s.routines ∨ k.phase.unclaimed = false) :
    Rests s' jobId row := by
  refine ⟨h.disabled, h.notRunning, ?_⟩
  intro hpending k hk hjob
  rcases hmem k hk hjob with hold | hclaimed
  · exact h.settled hpending k hold hjob
  · exact hclaimed

theorem Settled.of_mem (h : s.Settled jobId)
    (hmem : ∀ k ∈ s'.routines, k ∈ s.routines ∨ k.phase.unclaimed = false) :
    s'.Settled jobId := by
  intro k hk hjob
  rcases hmem k hk with hold | hclaimed
  · exact h k hold hjob
  · exact hclaimed

theorem notePause_advance {p : Pauses} {id : Nat} {pausedAt : Instant}
    (hfind : s.find id = some k) (h : notePause s p (.advance id x) jobId = some pausedAt) :
    p jobId = some pausedAt ∧ (k.jobId = jobId → k.phase.isResuming = false) := by
  simp only [notePause, hfind] at h
  split at h
  · by_cases hjob : jobId = k.jobId
    · rw [hjob, update_self] at h
      cases h
    · rw [update_of_ne hjob] at h
      exact ⟨h, fun heq => absurd heq.symm hjob⟩
  · rename_i hresuming
    exact ⟨h, fun _ => by simpa using hresuming⟩

/-- **The step lemma of a stretch.** -/
theorem PauseHolds.advance (h : PauseHolds sp) {id : Nat} (hfind : sp.1.find id = some k)
    (hkeeps : (sp.2 k.jobId).isSome →
      (k.phase.frees = true → sp.1.Settled k.jobId) ∧ k.sweeps x = false) :
    PauseHolds (sp.1.advance w k x, notePause sp.1 sp.2 (.advance id x)) := by
  have hk := (System.find_spec hfind).1
  have hclaimed : ∀ phase, (k.stretch w sp.1.clock x sp.1.db).next = some phase →
      phase.holds = true → k.phase.holds = true ∨
        k.phase = .claiming ∧
          ∃ row, sp.1.db.jobs k.jobId = some row ∧ row.status = .pending := by
    intro phase hnext hholds
    exact stretch_holds hnext hholds
  constructor
  · intro b hb hholds
    rcases System.mem_advance.mp hb with ⟨hold, -⟩ | ⟨phase, hnext, rfl⟩
    · exact h.dated b hold hholds
    · rcases hclaimed phase hnext hholds with hheld | ⟨hclaiming, -⟩
      · rw [System.moved_claimedAt_of_holds hheld]
        exact h.dated k hk hheld
      · simp [System.moved, System.advance, hclaiming, Phase.isClaiming]
  · intro jobId pausedAt hp row' hrow'
    obtain ⟨hpaused, hresuming⟩ := notePause_advance (x := x) hfind hp
    by_cases hjob : k.jobId = jobId
    · subst hjob
      simp only [System.advance, Tables.commit_jobs_self] at hrow'
      cases hrow : sp.1.db.jobs k.jobId with
      | none =>
        rw [hrow] at hrow'
        cases hwrite : (k.stretch w sp.1.clock x sp.1.db).write <;>
          rw [hwrite] at hrow' <;> cases hrow'
      | some row =>
        rw [hrow] at hrow'
        have hrests := h.rests k.jobId pausedAt hpaused row hrow
        obtain ⟨henabled, hrunning, hpending⟩ := stretch_rests (hresuming rfl) hrow'
        have hsome : (sp.2 k.jobId).isSome := by rw [hpaused]; rfl
        refine ⟨henabled.trans hrests.disabled, ?_, ?_⟩
        · intro hstatus
          rcases hrunning hstatus with hwas | ⟨hclaiming, hfound⟩
          · exact hrests.notRunning hwas
          · exact h.not_pending hk hsome hclaiming hfound
        · intro hstatus
          have hsettled : sp.1.Settled k.jobId := by
            rcases hpending hstatus with hwas | hwas | hfrees
            · exact hrests.settled hwas
            · exact absurd hwas hrests.notRunning
            · exact (hkeeps hsome).1 hfrees
          refine Settled.of_mem hsettled ?_
          intro b hb
          rcases System.mem_advance.mp hb with ⟨hold, -⟩ | ⟨phase, hnext, rfl⟩
          · exact .inl hold
          · refine .inr ?_
            rcases stretch_next hnext with hholds | ⟨hchecking, -⟩ | hhealing
            · show phase.unclaimed = false
              cases hphase : phase <;> simp_all [Phase.holds, Phase.unclaimed]
            · have hunclaimed := hsettled k hk rfl
              rw [hchecking] at hunclaimed
              cases hunclaimed
            · rw [hhealing]
              rfl
    · simp only [System.advance, Tables.commit_jobs_of_ne _ _ _ (Ne.symm hjob)] at hrow'
      refine (h.rests jobId pausedAt hpaused row' hrow').of_mem ?_
      intro b hb hbjob
      rcases System.mem_advance.mp hb with ⟨hold, -⟩ | ⟨phase, -, rfl⟩
      · exact .inl hold
      · exact absurd hbjob hjob
  · intro jobId pausedAt hp b hb hbjob hholds
    obtain ⟨hpaused, -⟩ := notePause_advance (x := x) hfind hp
    rcases System.mem_advance.mp hb with ⟨hold, -⟩ | ⟨phase, hnext, rfl⟩
    · exact h.before jobId pausedAt hpaused b hold hbjob hholds
    · rcases hclaimed phase hnext hholds with hheld | ⟨hclaiming, hfound⟩
      · rw [System.moved_claimedAt_of_holds hheld]
        exact h.before jobId pausedAt hpaused k hk hbjob hheld
      · refine absurd hfound (h.not_pending hk ?_ hclaiming)
        rw [show k.jobId = jobId from hbjob, hpaused]
        rfl

/-- What a read begins with is on its way to a claim only if the row is enabled, or
`recover` replays it. -/
theorem begin_unclaimed {audited : Bool} {r : Read} {phase : Phase}
    (h : r.begin w now row audited = some phase) (hunclaimed : phase.unclaimed = true) :
    row.enabled = true ∨ r.isMissed = true ∧ row.replayed w now = true := by
  cases r with
  | due =>
    simp only [Read.begin] at h
    split at h
    · rename_i hdue
      exact .inl hdue.2.1
    · cases h
  | runNow =>
    simp only [Read.begin] at h
    split at h
    · rename_i henabled
      exact .inl henabled
    · cases h
  | missed =>
    refine .inr ⟨rfl, ?_⟩
    have hchecking : phase = .checking := by
      simp only [Read.begin] at h
      repeat' split at h
      all_goals
        cases h
        try first | rfl | cases hunclaimed
    have hfalse : Read.begin w now row false .missed = some .checking := by
      rw [← hchecking]
      exact h
    simp [Row.replayed, hfalse, Phase.isChecking]
  | resume | edit e | timedOut | stale | terminal =>
    simp only [Read.begin] at h
    repeat' split at h
    all_goals
      cases h
      try cases hunclaimed

theorem PauseHolds.start (h : PauseHolds sp) (id : Nat) (r : Read)
    (hrow : sp.1.db.jobs jobId = some row)
    (hkeeps : r.isMissed = true → (sp.2 jobId).isSome → row.replayed w sp.1.clock = false) :
    PauseHolds (sp.1.start w id r jobId row, sp.2) := by
  constructor
  · intro b hb hholds
    rw [System.start_clock]
    rcases System.mem_start hb with hold | ⟨phase, hbegin, rfl⟩
    · exact h.dated b hold hholds
    · exact le_refl _
  · intro other pausedAt hp row' hrow'
    rw [System.start_db] at hrow'
    have hrests := h.rests other pausedAt hp row' hrow'
    refine hrests.of_mem ?_
    intro b hb hjob
    rcases System.mem_start hb with hold | ⟨phase, hbegin, rfl⟩
    · exact .inl hold
    · obtain rfl : jobId = other := hjob
      obtain rfl : row = row' := some.inj (hrow.symm.trans hrow')
      refine .inr ?_
      by_contra hunclaimed
      rcases begin_unclaimed hbegin (by simpa using hunclaimed) with henabled | ⟨hmissed, hyes⟩
      · rw [hrests.disabled] at henabled
        cases henabled
      · rw [hkeeps hmissed (by rw [hp]; rfl)] at hyes
        cases hyes
  · intro other pausedAt hp b hb hjob hholds
    rcases System.mem_start hb with hold | ⟨phase, hbegin, rfl⟩
    · exact h.before other pausedAt hp b hold hjob hholds
    · rw [begin_holds hbegin] at hholds
      cases hholds

theorem PauseHolds.update (h : PauseHolds sp) (jobId : String) (write : Write)
    (pausedAt : Option Instant)
    (hwrite : ∀ since, pausedAt = some since →
      (∀ k ∈ sp.1.routines, k.jobId = jobId → k.phase.holds = true → k.claimedAt ≤ since) ∧
        ∀ row, ∀ row' ∈ write.apply row, row'.enabled = false ∧ row'.status = .failed) :
    PauseHolds (sp.1.update jobId write, update sp.2 jobId pausedAt) := by
  constructor
  · exact h.dated
  · intro other since hp row hrow
    by_cases hjob : other = jobId
    · subst hjob
      simp only [update_self] at hp
      simp only [System.update, Tables.commit_jobs_self] at hrow
      obtain ⟨hdisabled, hstatus⟩ := (hwrite since hp).2 _ row hrow
      exact ⟨hdisabled, by simp [hstatus], by simp [hstatus]⟩
    · simp only [update_of_ne hjob] at hp
      simp only [System.update, Tables.commit_jobs_of_ne _ _ _ hjob] at hrow
      exact (h.rests other since hp row hrow).of_mem fun k hk _ => .inl hk
  · intro other since hp k hk hjob hholds
    by_cases hother : other = jobId
    · subst hother
      simp only [update_self] at hp
      exact (hwrite since hp).1 k hk hjob hholds
    · simp only [update_of_ne hother] at hp
      exact h.before other since hp k hk hjob hholds

theorem PauseHolds.subset (h : PauseHolds sp) {routines : List Routine}
    (hsubset : ∀ k ∈ routines, k ∈ sp.1.routines) :
    PauseHolds ({ sp.1 with routines := routines }, sp.2) where
  dated k hk := h.dated k (hsubset k hk)
  rests jobId pausedAt hp row hrow :=
    (h.rests jobId pausedAt hp row hrow).of_mem fun k hk _ => .inl (hsubset k hk)
  before jobId pausedAt hp k hk := h.before jobId pausedAt hp k (hsubset k hk)

/-- **The step lemma.** -/
theorem PauseHolds.step (h : PauseHolds sp) {op : Op} (hop : KeepsPauses w sp op)
    : PauseHolds (watch (step w) notePause sp op) := by
  cases op with
  | tick t =>
    refine ⟨fun k hk hholds => (h.dated k hk hholds).trans (le_max_left _ _), ?_, h.before⟩
    intro jobId pausedAt hp row hrow
    exact (h.rests jobId pausedAt hp row hrow).of_mem fun k hk _ => .inl hk
  | read id r jobId =>
    simp only [watch, Scheduler.step, notePause]
    split
    · rename_i row hfind hrow
      exact h.start id r hrow fun hmissed hp => hop hmissed hp row hrow
    · exact h
  | advance id x =>
    simp only [watch, Scheduler.step]
    split
    · rename_i k hfind
      exact h.advance hfind (hop k hfind)
    · rename_i hfind
      simp only [notePause, hfind]
      exact h
  | abort id => exact h.subset fun k hk => (System.mem_others.mp hk).1
  | pause jobId =>
    refine h.update jobId (.set pauseRow) (some sp.1.clock) ?_
    intro since hsince
    cases hsince
    refine ⟨fun k hk _ hholds => h.dated k hk hholds, ?_⟩
    intro row row' hrow'
    obtain ⟨found, -, rfl⟩ := map_eq_some_iff.mp hrow'
    exact ⟨rfl, rfl⟩
  | snooze jobId untilIso => exact h.update jobId _ none nofun
  | stop jobId =>
    have hstopped := h.update jobId .delete (sp.2 jobId) fun since hsince =>
      ⟨h.before jobId since hsince, fun row row' hrow' => by cases hrow'⟩
    rwa [update_eq_self] at hstopped
  | restart => exact h.subset fun k hk => by cases hk

/-! ## Runs -/

/-- A statement that belongs to no routine deletes a row only where it says so. -/
theorem update_deletes {other : String} {write : Write} (hthere : (s.db.jobs jobId).isSome)
    (hgone : ((s.update other write).db.jobs jobId).isNone) :
    other = jobId ∧ write = .delete := by
  obtain ⟨row, hrow⟩ := isSome_iff_exists.mp hthere
  by_cases hjob : other = jobId
  · subst hjob
    simp only [System.update, Tables.commit_jobs_self, hrow] at hgone
    refine ⟨rfl, ?_⟩
    cases write with
    | keep => cases hgone
    | set f => cases hgone
    | delete => rfl
  · simp only [System.update, Tables.commit_jobs_of_ne _ _ _ (Ne.symm hjob), hrow] at hgone
    cases hgone

theorem PauseHolds.leavesPaused (h : PauseHolds sp) {op : Op} (hop : KeepsPauses w sp op)
    (jobId : String) : LeavesPaused w jobId sp op := by
  intro pausedAt hp
  have hsome : (sp.2 jobId).isSome := by rw [show sp.2 jobId = some pausedAt from hp]; rfl
  cases op with
  | advance id x =>
    simp only [System.starts, System.concludes, Scheduler.step]
    cases hfind : sp.1.find id with
    | none =>
      refine ⟨by simp, fun hthere hgone => ?_⟩
      exact absurd (isNone_iff_eq_none.mp hgone) (isSome_iff_ne_none.mp hthere)
    | some k =>
      have hk := (System.find_spec hfind).1
      constructor
      · simp only
        split
        · rename_i hwins
          simp only [Bool.and_eq_true] at hwins
          intro heq
          obtain rfl : k.jobId = jobId := some.inj heq
          refine h.not_pending hk hsome ?_ (any_pending.mp hwins.2)
          cases hphase : k.phase <;> simp_all [Phase.isClaiming]
        · simp
      · intro hthere hgone
        by_cases hjob : k.jobId = jobId
        · subst hjob
          obtain ⟨row, hrow⟩ := isSome_iff_exists.mp hthere
          simp only [System.advance, Tables.commit_jobs_self, hrow,
            isNone_iff_eq_none] at hgone
          have hkeeps := (hop k hfind hsome).2
          rcases stretch_deletes hgone with hunsettled | hsweeps
          · have hholds : k.phase.holds = true := by
              cases hphase : k.phase <;> simp_all [Phase.unsettled, Phase.holds]
            simp [hunsettled, h.before k.jobId pausedAt hp k hk rfl hholds]
          · rw [hkeeps] at hsweeps
            cases hsweeps
        · simp only [System.advance, Tables.commit_jobs_of_ne _ _ _ (Ne.symm hjob)] at hgone
          rw [isNone_iff_eq_none.mp hgone] at hthere
          cases hthere
  | read id r other =>
    refine ⟨by simp [System.starts], ?_⟩
    intro hthere hgone
    have hkept : (Scheduler.step w sp.1 (.read id r other)).db = sp.1.db := by
      simp only [Scheduler.step]
      split
      · exact System.start_db _ _ _ _
      · rfl
    rw [hkept] at hgone
    exact absurd (isNone_iff_eq_none.mp hgone) (isSome_iff_ne_none.mp hthere)
  | tick t | abort id | restart =>
    refine ⟨by simp [System.starts], fun hthere hgone => ?_⟩
    exact absurd (isNone_iff_eq_none.mp hgone) (isSome_iff_ne_none.mp hthere)
  | pause other =>
    refine ⟨by simp [System.starts], ?_⟩
    intro hthere hgone
    cases (update_deletes hthere hgone).2
  | snooze other untilIso =>
    refine ⟨by simp [System.starts], ?_⟩
    intro hthere hgone
    cases (update_deletes hthere hgone).2
  | stop other =>
    refine ⟨by simp [System.starts], ?_⟩
    intro hthere hgone
    simp [System.concludes, (update_deletes hthere hgone).1]

/-- **A paused job stays paused**: until it is resumed or snoozed, no handler of it is
started, and its row is deleted only by `stop_job` or by the settlement of a run from before
the pause; in every run of the system in which no pause is undone. -/
theorem stays_paused (w : World) (jobId : String) {s : System} (ops : List Op)
    (hstart : s.routines = [])
    (h : Meets (watch (step w) notePause) (KeepsPauses w) (s, fun _ => none) ops) :
    Meets (watch (step w) notePause) (LeavesPaused w jobId) (s, fun _ => none) ops := by
  have hfirst : PauseHolds (s, fun _ => none) := by
    constructor <;> simp [hstart]
  exact meets_of_meets (fun _ _ hs hop => hs.step hop)
    (fun _ _ hs hop => hs.leavesPaused hop jobId) hfirst h

/-- A job that is paused while it runs, and a day of polls, reapers and requests. -/
theorem stays_paused_digest :
    Meets (watch (step dailyWorld) notePause) (LeavesPaused dailyWorld "digest-1")
      (idleWith digest, fun _ => none)
      (pollStarts 1 "digest-1" ++ [.pause "digest-1", .advance 1 {}, .advance 1 {},
        .tick (noon.plus 90000), .read 2 .due "digest-1", .read 3 .runNow "digest-1",
        .read 4 .timedOut "digest-1", .read 5 .terminal "digest-1", .restart,
        .read 6 .stale "digest-1", .read 7 .due "digest-1"]) :=
  stays_paused dailyWorld "digest-1" _ rfl (by decide)

/-- **A job paused while it ran is replayed by the next process**: its settlement has taken
the row back to `pending`, and `recover` asks for nothing else. -/
theorem paused_job_replayed :
    ¬ Meets (watch (step dailyWorld) notePause) (LeavesPaused dailyWorld "digest-1")
      (idleWith digest, fun _ => none)
      (pollStarts 1 "digest-1" ++ [.pause "digest-1", .advance 1 {}, .advance 1 {},
        .tick (noon.plus 90000), .restart, .read 2 .missed "digest-1", .advance 2 {},
        .advance 2 {}]) := by
  decide

end StackOwl.Scheduler
