import StackOwl.Scheduler.Routines

/-!
# One run of a job at a time

`_run_job` and `run_now` start a job's handler behind one compare-and-swap: `pending` to
`running`.  It excludes a second run as long as nothing but the run itself takes the row back
to `pending` before the run is settled.  `resume`, `snooze` and the reapers do so whatever
the row is at, so the run of a job that is resumed or snoozed can be joined by another.

## Main results

* `never_twice_at_once` — no handler is started beside an unsettled run of its job, in every
  run of the system in which these four leave a claimed job alone.
* `resumed_twice_at_once` — a `resume` in the middle of a run starts a second one.
-/

namespace StackOwl.Scheduler

open Lib List

variable {w : World} {now : Instant} {x : Answer} {s : System}

/-! ## What is excluded -/

/-- The operation starts no handler beside an unsettled run of its job. -/
def StartsAlone (s : System) (op : Op) : Prop :=
  ∀ jobId ∈ s.starts op, ∀ k ∈ s.routines, k.jobId = jobId → k.phase.unsettled = false

def System.Free (s : System) (jobId : String) : Prop :=
  ∀ k ∈ s.routines, k.jobId = jobId → k.phase.holds = false

/-- No claim on the job is older than the reaper lets it be. -/
def System.Fresh (s : System) (jobId : String) : Prop :=
  ∀ k ∈ s.routines, k.jobId = jobId → k.phase.holds = true →
    s.clock ≤ k.claimedAt.plus STALE_RUNNING_AFTER_SEC

/-- The row has not been claimed anew since the reaper read it. -/
def System.Unclaimed (s : System) (k : Routine) : Prop :=
  ∀ row ∈ s.db.jobs k.jobId, row.status = .running → row.claimedAt = k.job.claimedAt

/-- The write of `pending` by `resume` and the reaper of the start, which asks for no status. -/
def Phase.overwrites : Phase → Bool
  | .resuming | .reapingStale => true
  | _ => false

def Phase.isReaping : Phase → Bool
  | .reaping => true
  | _ => false

def Read.isTimedOut : Read → Bool
  | .timedOut => true
  | _ => false

/-- A stretch that writes `pending` for no run of its own leaves a claimed job alone. -/
def System.LeavesClaims (s : System) (k : Routine) : Prop :=
  (k.phase.overwrites = true → s.Free k.jobId) ∧ (k.phase.isReaping = true → s.Unclaimed k)

/-- `resume`, `snooze` and the reapers leave a claimed job alone. -/
def Undisturbed (s : System) : Op → Prop
  | .read _ r jobId => r.isTimedOut = true → s.Fresh jobId
  | .snooze jobId _ => s.Free jobId
  | .advance id _ => ∀ k ∈ s.find id, s.LeavesClaims k
  | _ => True

instance (op : Op) : Decidable (StartsAlone s op) :=
  inferInstanceAs (Decidable (∀ jobId ∈ s.starts op, ∀ k ∈ s.routines, _ → _))

instance (jobId : String) : Decidable (s.Free jobId) :=
  inferInstanceAs (Decidable (∀ k ∈ s.routines, _ → _))

instance (jobId : String) : Decidable (s.Fresh jobId) :=
  inferInstanceAs (Decidable (∀ k ∈ s.routines, _ → _ → _))

instance (k : Routine) : Decidable (s.Unclaimed k) :=
  inferInstanceAs (Decidable (∀ row ∈ s.db.jobs k.jobId, _ → _))

instance (k : Routine) : Decidable (s.LeavesClaims k) :=
  inferInstanceAs (Decidable (_ ∧ _))

instance Undisturbed.decidable (s : System) : ∀ op, Decidable (Undisturbed s op)
  | .read _ r jobId => inferInstanceAs (Decidable (r.isTimedOut = true → s.Fresh jobId))
  | .snooze jobId _ => inferInstanceAs (Decidable (s.Free jobId))
  | .advance id _ => inferInstanceAs (Decidable (∀ k ∈ s.find id, _))
  | .tick _ | .abort _ | .pause _ | .stop _ | .restart => isTrue trivial

/-! ## The invariant -/

/-- The row of a claimed job: it is not `pending`, and while it is `running` its claim is
the routine's. -/
structure Guards (k : Routine) (row : Row) : Prop where
  notPending : row.status ≠ .pending
  dated : row.status = .running → row.claimedAt = some (isoformat k.claimedAt)

/-- At most one routine has a claim on a job, the row keeps others from it, and a reaper has
read no claim that is still held. -/
structure Exclusive (s : System) : Prop where
  alone : ∀ a ∈ s.routines, ∀ b ∈ s.routines, a.phase.holds = true → b.phase.holds = true →
    a.jobId = b.jobId → a.id = b.id
  guarded : ∀ k ∈ s.routines, k.phase.holds = true → ∀ row ∈ s.db.jobs k.jobId, Guards k row
  reaps : ∀ r ∈ s.routines, r.phase = .reaping → ∃ claimedAt,
    r.job.claimedAt = some claimedAt ∧ claimedAt < isoformat s.clock ∧
      ∀ k ∈ s.routines, k.phase.holds = true → k.jobId = r.jobId →
        isoformat k.claimedAt ≠ claimedAt

theorem Exclusive.subset (h : Exclusive s) {routines : List Routine}
    (hsubset : ∀ k ∈ routines, k ∈ s.routines) :
    Exclusive { s with routines := routines } where
  alone a ha b hb := h.alone a (hsubset a ha) b (hsubset b hb)
  guarded k hk := h.guarded k (hsubset k hk)
  reaps r hr hphase := by
    obtain ⟨claimedAt, hread, hlt, hnone⟩ := h.reaps r (hsubset r hr) hphase
    exact ⟨claimedAt, hread, hlt, fun k hk => hnone k (hsubset k hk)⟩

theorem Exclusive.commit (h : Exclusive s) {jobId : String} {write : Write}
    (run : Option Commands.JobRun) (audit : Bool)
    (hwrite : ∀ k ∈ s.routines, k.phase.holds = true → k.jobId = jobId →
      ∀ row ∈ s.db.jobs jobId, Guards k row → ∀ row' ∈ write.apply (some row), Guards k row') :
    Exclusive { s with db := s.db.commit jobId write run audit } where
  alone := h.alone
  guarded := by
    intro k hk hholds row hrow
    by_cases hjob : k.jobId = jobId
    · simp only [hjob, Tables.commit_jobs_self] at hrow
      cases hold : s.db.jobs jobId with
      | none =>
        rw [hold] at hrow
        cases write <;> cases hrow
      | some old =>
        rw [hold] at hrow
        have hguards := h.guarded k hk hholds old (by rw [hjob, hold]; rfl)
        exact hwrite k hk hholds hjob old hold hguards row hrow
    · simp only [Tables.commit_jobs_of_ne _ _ _ hjob] at hrow
      exact h.guarded k hk hholds row hrow
  reaps := h.reaps

theorem Exclusive.commit_free (h : Exclusive s) {jobId : String} (write : Write)
    (run : Option Commands.JobRun) (audit : Bool) (hfree : s.Free jobId) :
    Exclusive { s with db := s.db.commit jobId write run audit } := by
  refine h.commit run audit ?_
  intro k hk hholds hjob
  rw [hfree k hk hjob] at hholds
  cases hholds

/-- A routine that comes in: a reaper has read no claim that is held; and if the routine has
a claim, it is the only one, the row is guarded, and no reaper has read it. -/
theorem Exclusive.insert (h : Exclusive s) {b : Routine}
    (hreaping : b.phase = .reaping → ∃ claimedAt, b.job.claimedAt = some claimedAt ∧
      claimedAt < isoformat s.clock ∧
        ∀ k ∈ s.routines, k.phase.holds = true → k.jobId = b.jobId →
          isoformat k.claimedAt ≠ claimedAt)
    (hholds : b.phase.holds = true → s.Free b.jobId ∧
      (∀ row ∈ s.db.jobs b.jobId, Guards b row) ∧
      ∀ r ∈ s.routines, r.phase = .reaping → b.jobId = r.jobId →
        r.job.claimedAt ≠ some (isoformat b.claimedAt)) :
    Exclusive { s with routines := s.routines ++ [b] } where
  alone := by
    intro a ha c hc hholdsA hholdsC hjob
    rcases mem_append.mp ha with holdA | hnewA <;>
      rcases mem_append.mp hc with holdC | hnewC
    · exact h.alone a holdA c holdC hholdsA hholdsC hjob
    · rw [mem_singleton.mp hnewC] at hholdsC hjob
      rw [(hholds hholdsC).1 a holdA hjob] at hholdsA
      cases hholdsA
    · rw [mem_singleton.mp hnewA] at hholdsA hjob
      rw [(hholds hholdsA).1 c holdC hjob.symm] at hholdsC
      cases hholdsC
    · rw [mem_singleton.mp hnewA, mem_singleton.mp hnewC]
  guarded := by
    intro k hk hholdsK
    rcases mem_snoc.mp hk with hk | rfl
    · exact h.guarded k hk hholdsK
    · exact (hholds hholdsK).2.1
  reaps := by
    intro r hr hphase
    rcases mem_snoc.mp hr with hold | hnew
    · obtain ⟨claimedAt, hread, hlt, hnone⟩ := h.reaps r hold hphase
      refine ⟨claimedAt, hread, hlt, ?_⟩
      intro k hk hholdsK hjob heq
      rcases mem_append.mp hk with holdK | hnewK
      · exact hnone k holdK hholdsK hjob heq
      · rw [mem_singleton.mp hnewK] at hholdsK hjob heq
        exact (hholds hholdsK).2.2 r hold hphase hjob (heq ▸ hread)
    · rw [hnew] at hphase ⊢
      obtain ⟨claimedAt, hread, hlt, hnone⟩ := hreaping hphase
      refine ⟨claimedAt, hread, hlt, ?_⟩
      intro k hk hholdsK hjob
      rcases mem_snoc.mp hk with holdK | hnewK
      · exact hnone k holdK hholdsK hjob
      · rw [hnewK, hphase] at hholdsK
        cases hholdsK

/-! ## Steps -/

variable {k : Routine}

/-- What a stretch makes of the status of its row, where it is neither the routine's own
claim that it gives up nor one of the writes that ask for no status. -/
theorem stretch_guards {db : Tables} (hholds : k.phase.holds = false)
    (hphase : k.phase ≠ .claiming)
    (hfrees : k.phase ≠ .resuming ∧ k.phase ≠ .reaping ∧ k.phase ≠ .reapingStale)
    (other : Routine) (row : Row) (h : Guards other row) :
    ∀ row' ∈ (k.stretch w now x db).write.apply (some row), Guards other row' := by
  intro row' hrow'
  have hnot : ∀ {phase : Phase}, k.phase = phase → phase.holds = false := by
    rintro phase rfl
    exact hholds
  cases stretch_leaves hrow' with
  | same => exact h
  | moved hmoved => exact ⟨h.notPending, h.dated⟩
  | edited e hediting => exact ⟨h.notPending, h.dated⟩
  | claimed hclaiming _ => exact absurd hclaiming hphase
  | freed hrun =>
    rcases hrun with hk | ⟨result, hk⟩ | ⟨result, hk⟩ <;> cases hnot hk
  | parked error hkeeping => cases hnot hkeeping
  | resumed hresuming => exact absurd hresuming hfrees.1
  | reaped hreaping _ => exact absurd hreaping hfrees.2.1
  | staled hstale => exact absurd hstale hfrees.2.2

/-- A stretch, in its three parts: the routine leaves, its transaction is committed, and it
comes back if it is not done. -/
theorem Exclusive.advance_of
    (hcommit : Exclusive
      { s with
        routines := s.others k.id
        db := s.db.commit k.jobId (k.stretch w s.clock x s.db).write
          (k.stretch w s.clock x s.db).run (k.stretch w s.clock x s.db).audit })
    (hnext : ∀ phase, (k.stretch w s.clock x s.db).next = some phase → phase.holds = true →
      System.Free { s with routines := s.others k.id } k.jobId ∧
        (∀ row ∈ (k.stretch w s.clock x s.db).write.apply (s.db.jobs k.jobId),
          Guards (s.moved k phase) row) ∧
        ∀ r ∈ s.routines, r.phase = .reaping → k.jobId = r.jobId →
          r.job.claimedAt ≠ some (isoformat (s.moved k phase).claimedAt)) :
    Exclusive (s.advance w k x) := by
  rw [System.advance]
  cases hstretch : (k.stretch w s.clock x s.db).next with
  | none => simpa using hcommit
  | some phase =>
    have hreaping : phase ≠ .reaping := by
      rcases stretch_next hstretch with hholds | ⟨-, rfl | rfl⟩ | rfl
      · rintro rfl
        cases hholds
      all_goals simp
    refine hcommit.insert (b := s.moved k phase) (fun h => absurd h hreaping) ?_
    intro hholds
    obtain ⟨hfree, hguards, hreaps⟩ := hnext phase hstretch hholds
    refine ⟨hfree, ?_, ?_⟩
    · intro row hrow
      refine hguards row ?_
      simpa [System.moved] using hrow
    · intro r hr hphase hjob
      exact hreaps r (System.mem_others.mp hr).1 hphase hjob

/-- **The step lemma of a stretch.** -/
theorem Exclusive.advance (h : Exclusive s) (hk : k ∈ s.routines) (hleaves : s.LeavesClaims k) :
    Exclusive (s.advance w k x) := by
  have hothers : Exclusive { s with routines := s.others k.id } :=
    h.subset fun b hb => (System.mem_others.mp hb).1
  by_cases hholds : k.phase.holds = true
  · -- the claim of the routine is the only one
    have hfree : System.Free { s with routines := s.others k.id } k.jobId := by
      intro b hb hjob
      obtain ⟨hmem, hid⟩ := System.mem_others.mp hb
      by_contra hheld
      exact hid (h.alone b hmem k hk (by simpa using hheld) hholds hjob)
    refine Exclusive.advance_of (hothers.commit_free _ _ _ hfree) ?_
    intro phase hnext _
    have hwrite := stretch_write_of_next hnext
    have hclaiming : k.phase ≠ .claiming := by
      intro hphase
      rw [hphase] at hholds
      cases hholds
    have hmoved := System.moved_claimedAt_of_holds (s := s) hholds phase
    refine ⟨hfree, ?_, ?_⟩
    · intro row hrow
      rw [hwrite.resolve_left hclaiming] at hrow
      obtain ⟨hpending, hdated⟩ := h.guarded k hk hholds row hrow
      exact ⟨hpending, hmoved ▸ hdated⟩
    · intro r hr hphase hjob heq
      obtain ⟨claimedAt, hread, -, hnone⟩ := h.reaps r hr hphase
      rw [hmoved, hread] at heq
      exact hnone k hk hholds hjob (Option.some.inj heq).symm
  · have hheld : k.phase.holds = false := by simpa using hholds
    have hnew : ∀ phase, (k.stretch w s.clock x s.db).next = some phase → phase.holds = true →
        k.phase = .claiming ∧
          ∃ row, s.db.jobs k.jobId = some row ∧ row.status = .pending := by
      intro phase hnext hphase
      exact (stretch_holds hnext hphase).resolve_left hholds
    by_cases hphase : k.phase = .claiming
    · by_cases hpending : (s.db.jobs k.jobId).any (fun row => row.status = .pending) = true
      · -- nobody else has a claim: the row would not be pending
        obtain ⟨row, hrow, hstatus⟩ := any_pending.mp hpending
        have hfree : s.Free k.jobId := by
          intro b hb hjob
          by_contra hbholds
          refine (h.guarded b hb (by simpa using hbholds) row ?_).notPending hstatus
          rw [hjob]
          exact hrow
        have hfree' : System.Free { s with routines := s.others k.id } k.jobId :=
          fun b hb => hfree b (System.mem_others.mp hb).1
        refine Exclusive.advance_of (hothers.commit_free _ _ _ hfree') ?_
        intro phase _ _
        have hmoved : (s.moved k phase).claimedAt = s.clock := by
          simp [System.moved, hphase, Phase.isClaiming]
        refine ⟨hfree', ?_, ?_⟩
        · intro row' hrow'
          have hwrite : (k.stretch w s.clock x s.db).write = .set fun row =>
              { row with status := .running, claimedAt := some (isoformat s.clock) } := by
            simp only [Routine.stretch, hphase, claim, if_pos hpending]
          rw [hwrite, hrow] at hrow'
          cases hrow'
          exact ⟨by simp, fun _ => by rw [hmoved]⟩
        · intro r hr hreaping _ heq
          obtain ⟨claimedAt, hread, hlt, -⟩ := h.reaps r hr hreaping
          rw [hmoved, hread] at heq
          exact absurd (Option.some.inj heq) hlt.ne
      · have hstretch : k.stretch w s.clock x s.db = {} := by
          simp only [Routine.stretch, hphase, claim, if_neg hpending]
        refine Exclusive.advance_of (hothers.commit _ _ ?_) ?_
        · intro b _ _ _ row _ hguards row' hrow'
          rw [hstretch] at hrow'
          cases hrow'
          exact hguards
        · intro phase hnext
          rw [hstretch] at hnext
          cases hnext
    · refine Exclusive.advance_of (hothers.commit _ _ ?_)
        fun phase hnext hp => absurd (hnew phase hnext hp).1 hphase
      intro b hb hbholds hjob row hrow hguards
      have hbmem := (System.mem_others.mp hb).1
      by_cases hfrees : k.phase ≠ .resuming ∧ k.phase ≠ .reaping ∧ k.phase ≠ .reapingStale
      · exact stretch_guards hheld hphase hfrees b row hguards
      · intro row' hrow'
        cases hphase : k.phase <;> simp [hphase] at hfrees
        case resuming | reapingStale =>
          rw [hleaves.1 (by rw [hphase]; rfl) b hbmem hjob] at hbholds
          cases hbholds
        case reaping =>
          have hunclaimed := hleaves.2 (by rw [hphase]; rfl)
          obtain ⟨claimedAt, hread, -, hnone⟩ := h.reaps k hk hphase
          simp only [Routine.stretch, hphase, reap, Write.apply, Option.map_some,
            Option.mem_some_iff] at hrow'
          split at hrow'
          · rename_i hrunning
            -- the claim is the one the reaper has read, and that one is not held
            have hclaim := (hunclaimed row hrow hrunning).symm.trans (hguards.dated hrunning)
            rw [hread] at hclaim
            exact absurd (Option.some.inj hclaim).symm (hnone b hbmem hbholds hjob)
          · subst hrow'
            exact hguards

theorem begin_reaping {row : Row} {audited : Bool} {r : Read}
    (h : r.begin w now row audited = some .reaping) :
    r = .timedOut ∧ ∃ claimedAt, row.claimedAt = some claimedAt ∧
      claimedAt < isoformat (now.minus STALE_RUNNING_AFTER_SEC) := by
  cases r with
  | timedOut =>
    simp only [Read.begin] at h
    repeat' split at h
    all_goals cases h
    rename_i claimedAt _ hclaim hlt
    exact ⟨rfl, claimedAt, hclaim, hlt⟩
  | due | missed | runNow | resume | edit e | stale | terminal =>
    simp only [Read.begin] at h
    repeat' split at h
    all_goals cases h

/-- A read brings no claim, and a reaper reads none that is held. -/
theorem Exclusive.start (h : Exclusive s) (id : Nat) (r : Read) (jobId : String) (row : Row)
    (hfresh : r = .timedOut → s.Fresh jobId) : Exclusive (s.start w id r jobId row) := by
  rw [System.start]
  split
  · exact h
  · rename_i phase hbegin
    refine h.insert ?_ ?_
    · rintro rfl
      obtain ⟨htimedOut, claimedAt, hclaim, hlt⟩ := begin_reaping hbegin
      refine ⟨claimedAt, hclaim, ?_, ?_⟩
      · exact hlt.trans_le (isoformat_le_iff.mpr (Instant.minus_le _ _))
      · intro k hk hholds hjob
        have hage := Instant.minus_le_of_le_plus (hfresh htimedOut k hk hjob hholds)
        exact (hlt.trans_le (isoformat_le_iff.mpr hage)).ne'
    · intro hholds
      rw [begin_holds hbegin] at hholds
      cases hholds

/-- **The step lemma.** -/
theorem Exclusive.step (h : Exclusive s) {op : Op} (hop : Undisturbed s op) :
    Exclusive (step w s op) := by
  cases op with
  | tick t =>
    refine ⟨h.alone, h.guarded, ?_⟩
    intro r hr hphase
    obtain ⟨claimedAt, hread, hlt, hnone⟩ := h.reaps r hr hphase
    exact ⟨claimedAt, hread,
      hlt.trans_le (isoformat_le_iff.mpr (le_max_left _ _)), hnone⟩
  | read id r jobId =>
    simp only [Scheduler.step]
    split
    · refine h.start id r jobId _ ?_
      rintro rfl
      exact hop rfl
    · exact h
  | advance id x =>
    simp only [Scheduler.step]
    split
    · rename_i k hfind
      exact h.advance (System.find_spec hfind).1 (hop k hfind)
    · exact h
  | abort id => exact h.subset fun k hk => (System.mem_others.mp hk).1
  | pause jobId =>
    refine h.commit none false ?_
    intro k _ _ _ row _ _ row' hrow'
    cases hrow'
    exact ⟨by simp [pauseRow], by simp [pauseRow]⟩
  | snooze jobId untilIso => exact h.commit_free _ none false hop
  | stop jobId =>
    refine h.commit none false ?_
    intro k _ _ _ row _ _ row' hrow'
    cases hrow'
  | restart => exact h.subset fun k hk => by cases hk

theorem Exclusive.startsAlone (h : Exclusive s) (op : Op) : StartsAlone s op := by
  intro jobId hstarts k hk hjob
  cases op with
  | advance id x =>
    simp only [System.starts] at hstarts
    split at hstarts
    · rename_i claimer _
      split at hstarts
      · rename_i hwins
        cases hstarts
        simp only [Bool.and_eq_true] at hwins
        obtain ⟨row, hrow, hstatus⟩ := any_pending.mp hwins.2
        by_contra hunsettled
        have hholds : k.phase.holds = true := by
          cases hphase : k.phase <;> simp_all [Phase.unsettled, Phase.holds]
        exact (h.guarded k hk hholds row (hjob ▸ hrow)).notPending hstatus
      · cases hstarts
    · cases hstarts
  | tick t | read id r jobId | abort id | pause jobId | snooze jobId untilIso | stop jobId
  | restart => cases hstarts

/-! ## Runs -/

/-- **Where no `resume`, `snooze` or reaper takes a claimed job back to `pending`, no handler
is started beside an unsettled run of its job**: in every run of the system, from any
tables. -/
theorem never_twice_at_once (w : World) {s : System} (ops : List Op)
    (hstart : s.routines = []) (h : Meets (step w) Undisturbed s ops) :
    Meets (step w) StartsAlone s ops := by
  have hfirst : Exclusive s := by
    constructor <;> simp [hstart]
  exact meets_of_meets (fun _ _ hs hop => hs.step hop) (fun _ op hs _ => hs.startsAlone op)
    hfirst h

/-! ## A run joined by another -/

/-- Resumed once its run is settled, a job is run again by itself. -/
theorem never_twice_at_once_digest :
    Meets (step dailyWorld) StartsAlone (idleWith digest)
      (pollStarts 1 "digest-1" ++ [.advance 1 {}, .advance 1 {}, .read 2 .resume "digest-1",
        .advance 2 {}, .read 3 .runNow "digest-1", .advance 3 {}]) :=
  never_twice_at_once dailyWorld _ rfl (by decide)

/-- **A `resume` while the handler runs lets `run_now` start it once more.** -/
theorem resumed_twice_at_once :
    ¬ Meets (step dailyWorld) StartsAlone (idleWith digest)
      (pollStarts 1 "digest-1" ++ [.read 2 .resume "digest-1", .advance 2 {},
        .read 3 .runNow "digest-1", .advance 3 {}]) := by
  decide

end StackOwl.Scheduler
