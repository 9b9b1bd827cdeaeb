import StackOwl.Durable.Runs

/-!
# Dead letters and their journal events

The store means to record one `task.dead_lettered` event for each real
transition of a row to `dead_letter`.  Of the statements that can write that
status, the ceiling branch of `fail_and_requeue` and the dependency cascade
record the event whenever their `UPDATE` matched the row, whatever its status
was; `reclaim_expired`, a charged `claim_for_recovery`, `update_status` and the
unreachable-owner sweep record nothing.

## Main results

* `deathEvents_commit` — the events of one transaction against the transition it
  makes.
* `one_event_per_death` — events and transitions agree over every run in which no
  silent statement kills the row and no loud one hits it already dead.
-/

namespace StackOwl.Durable

open Lib Bool

variable (o i : String)

/-- A `task.dead_lettered` event for the task of the key. -/
def isDeathOf (event : JournalEvent) : Bool :=
  event.actorId == o && event.targetId == i &&
    match event.attrs with
    | .taskDeadLettered .. => true
    | _ => false

/-- The `task.dead_lettered` events recorded for the task of the key. -/
def deathEvents (journal : List JournalEvent) : Nat :=
  journal.countP (isDeathOf o i)

/-- One when a status changed to `dead_letter` from another one. -/
def died (before after : Option TaskStatus) : Nat :=
  if before.isSome ∧ before ≠ some .deadLetter ∧ after = some .deadLetter then 1
  else 0

variable (db : Db)

/-- One when the step moves the row of the key to `dead_letter`. -/
def deathStep (op : Op) : Nat :=
  died (db.status o i) ((step db op).status o i)

/-- How often the row of the key moved to `dead_letter` over a run. -/
def deaths (ops : List Op) : Nat :=
  tally step (deathStep o i) db ops

/-- `update_status` hands the row to the give-up branch of
`fail_and_requeue`. -/
def statusGivesUp (status : TaskStatus) (fields : StatusFields) (r : Row) :
    Bool :=
  heldStatus status fields (r.owesDelivery fields.readFails) == .failed && !fields.terminal &&
    givesUp (rowToTask r) fields.failCall

/-- A statement that records the event does not hit the row already dead, and a
statement that records nothing does not kill it. -/
def OneEventPerDeath (op : Op) : Prop :=
  ∀ r, db.find o i = some r →
    match op with
    | .failAndRequeue owner taskId row call =>
      owner = o → taskId = i → givesUp row call = true →
        r.status ≠ .deadLetter
    | .cascade owner taskId _ _ _ =>
      owner = o → taskId = i → r.status ≠ .deadLetter
    | .updateStatus owner taskId status fields =>
      owner = o → taskId = i →
        (statusGivesUp status fields r = true → r.status ≠ .deadLetter) ∧
          (status = .deadLetter → r.status = .deadLetter)
    | .reclaimExpired owner now =>
      expiredLeaseWhere owner now r = true → ceilingReachedSql r = false
    | .claimForRecovery owner taskId countAttempt _ =>
      owner = o → taskId = i → countAttempt = true →
        r.status = .running ∨ r.status = .recovering →
          ceilingReachedSql r = false
    | .retire taskId _ => taskId = i → r.status = .deadLetter
    | _ => True

/-! ## Events of one transaction -/

theorem died_self (s : Option TaskStatus) : died s s = 0 := by
  unfold died
  split
  · rename_i h
    exact absurd h.2.2 h.2.1
  · rfl

private theorem died_kept {r r' : Row}
    (h : r'.status = .deadLetter → r.status = .deadLetter) :
    died (some r.status) (some r'.status) = 0 := by
  unfold died
  split
  · rename_i hdied
    exact absurd (congrArg some (h (Option.some.inj hdied.2.2))) hdied.2.1
  · rfl

private theorem deathEvents_ite (c : Prop) [Decidable c] (event : JournalEvent) :
    deathEvents o i (if c then [event] else []) =
      if c ∧ isDeathOf o i event = true then 1 else 0 := by
  by_cases hc : c <;> by_cases he : isDeathOf o i event = true <;>
    simp [deathEvents, hc, he]

private theorem deathEvents_failEvents (owner taskId : String) (row : DurableTask) (call : FailCall)
    (db : Db) :
    deathEvents o i (failEvents owner taskId row call db) =
      if (db.find owner taskId).any (fun _ => givesUp row call) ∧
        (owner = o ∧ taskId = i) then 1 else 0 := by
  unfold failEvents
  rw [deathEvents_ite]
  cases db.find owner taskId <;>
    simp [isDeathOf]

private theorem deathEvents_cascadeEvents (owner taskId : String) (cascading : DurableTask)
    (failed : List String) (db : Db) :
    deathEvents o i (cascadeEvents owner taskId cascading failed db) =
      if (db.find owner taskId).any (fun _ => true) ∧
        (owner = o ∧ taskId = i) then 1 else 0 := by
  unfold cascadeEvents
  rw [deathEvents_ite]
  cases db.find owner taskId <;>
    simp [isDeathOf]

/-- `update_status` records what the failure it hands on records. -/
private theorem deathEvents_statusEvents (owner taskId : String) (status : TaskStatus)
    (fields : StatusFields) (db : Db) :
    deathEvents o i (statusEvents owner taskId status fields db) =
      if (db.find owner taskId).any (statusGivesUp status fields) ∧
        (owner = o ∧ taskId = i) then 1 else 0 := by
  unfold statusEvents
  cases hfound : db.find owner taskId with
  | none => simp [deathEvents]
  | some r =>
    by_cases hfail : heldStatus status fields (r.owesDelivery fields.readFails) = .failed ∧
        fields.terminal = false
    · simp only [if_pos hfail, deathEvents_failEvents, hfound]
      simp [statusGivesUp, hfail]
    · have hnot : statusGivesUp status fields r = false := by
        by_contra hgives
        simp only [statusGivesUp, not_eq_false, and_eq_true,
          beq_iff_eq, not_eq_true'] at hgives
        exact hfail hgives.1
      simp [if_neg hfail, deathEvents, hnot]

def Op.recordsDeath : Op → Bool
  | .failAndRequeue .. => true
  | .cascade .. => true
  | .updateStatus .. => true
  | _ => false

variable {op : Op}

private theorem deathEvents_quiet (hquiet : op.recordsDeath = false) :
    deathEvents o i (op.events db) = 0 := by
  cases op with
  | failAndRequeue | cascade | updateStatus => cases hquiet
  | create owner task =>
    cases hkind : task.kind <;>
      simp [Op.events, createEvents, hkind, deathEvents, isDeathOf]
  | enqueue => simp [Op.events, enqueueEvent, deathEvents, isDeathOf]
  | parkForDecision => simp [Op.events, parkEvent, deathEvents, isDeathOf]
  | claim =>
    simp only [Op.events, claimEvents, deathEvents_ite]
    simp [isDeathOf]
  | markCompletedUnaddressed =>
    simp only [Op.events, unaddressedEvents, deathEvents_ite]
    simp [isDeathOf]
  | markDelivered owner taskId =>
    simp only [Op.events, deliveredEvents]
    split
    · rfl
    · split <;> simp [deathEvents, isDeathOf]
  | _ => rfl

variable {o i} {db} {u : Update} {r : Row}

/-- A statement of an operation that records no death does not kill a row it may
not kill. -/
private theorem set_alive (hfound : db.find o i = some r) (hop : OneEventPerDeath o i db op)
    (hquiet : op.recordsDeath = false) (hu : op.effect = .update u) (hg : u.guard r = true)
    (hset : (u.set r).status = .deadLetter) :
    r.status = .deadLetter := by
  obtain ⟨rfl, rfl⟩ := key_of_find hfound
  have hop := hop r hfound
  cases op with
  | failAndRequeue | cascade | updateStatus => cases hquiet
  | create | enqueue | createChildTask | pruneCompleted => cases hu
  | retire taskId now =>
    cases hu
    exact hop (beq_iff_eq.mp hg).symm
  | reclaimExpired owner now =>
    cases hu
    simp [reclaimExpiredSql, statusOrDeadLetter, hop hg] at hset
  | claimForRecovery owner taskId countAttempt now =>
    cases hu
    obtain ⟨hkey, hstatus⟩ := claimForRecoverySql_guard_iff.mp hg
    obtain ⟨ho, hi⟩ := isKey_iff.mp hkey
    cases countAttempt with
    | false => cases hset
    | true =>
      have hceiling := hop ho.symm hi.symm rfl hstatus
      simp [claimForRecoverySql, statusOrDeadLetter, hceiling] at hset
  | parkForDecision | resumeApproved | claim | revive | markDelivered
  | markCompletedUnaddressed =>
    cases hu
    cases hset
  | claimChildLease | supersedeChild | saveCheckpoint | updateAchievement
  | setDependencies | repointRetry | acknowledge =>
    cases hu
    exact hset

variable {owner taskId : String} {status : TaskStatus} {fields : StatusFields}

private theorem statusSql_givesUp (h : statusGivesUp status fields r = true) :
    ((statusSql owner taskId status fields r).set r).status = .deadLetter := by
  simp only [statusGivesUp, and_eq_true, beq_iff_eq, not_eq_true'] at h
  unfold statusSql
  simp only [if_pos h.1, failSql_status, failStatus, h.2, if_true]

private theorem statusSql_deadLetter (h : statusGivesUp status fields r = false)
    (hdead : ((statusSql owner taskId status fields r).set r).status = .deadLetter)
    : status = .deadLetter := by
  unfold statusSql at hdead
  dsimp only at hdead
  split at hdead
  · rename_i hfail
    have hgives : givesUp (rowToTask r) fields.failCall = false := by
      simpa [statusGivesUp, hfail] using h
    simp [failSql_status, failStatus, hgives] at hdead
  · have hheld : heldStatus status fields (r.owesDelivery fields.readFails) = .deadLetter := hdead
    unfold heldStatus at hheld
    split at hheld
    · cases hheld
    · exact hheld

/-- Where no statement records or makes a death, both counts are zero. -/
private theorem deathEvents_commit_quiet (hop : OneEventPerDeath o i db op)
    (hquiet : op.recordsDeath = false) :
    deathEvents o i (op.events db) = died (db.status o i)
      ((op.effect.on o i (db.find o i)).map Row.status) := by
  rw [deathEvents_quiet o i db hquiet, Db.status]
  cases hfound : db.find o i with
  | none => simp [died]
  | some r =>
    cases heffect : op.effect with
    | insert s => exact (died_self _).symm
    | update u =>
      refine (died_kept (fun hdead => ?_)).symm
      unfold Update.on patch at hdead
      split at hdead
      · exact set_alive hfound hop hquiet heffect ‹_› hdead
      · exact hdead
    | delete guard =>
      cases hg : guard r <;> simp [Effect.on, Option.filter, hg, died]

/-- A statement addressed by primary key, on the row of its key or another. -/
private theorem status_on_key (hguard : u.guard = isKey owner taskId) :
    ((Effect.update u).on o i (db.find o i)).map Row.status =
      if owner = o ∧ taskId = i then
        (db.find o i).map (fun r => (u.set r).status)
      else db.status o i := by
  cases hfound : db.find o i with
  | none => simp [Effect.on, Db.status, hfound]
  | some r =>
    obtain ⟨rfl, rfl⟩ := key_of_find hfound
    by_cases hkey : owner = r.ownerId ∧ taskId = r.taskId
    · have hg : u.guard r = true := by
        rw [hguard]
        exact isKey_iff.mpr ⟨hkey.1.symm, hkey.2.symm⟩
      simp [Effect.on, Update.on, patch, hg, hkey]
    · have hg : u.guard r = false := by
        rw [hguard]
        by_contra h
        obtain ⟨h1, h2⟩ := isKey_iff.mp (by simpa using h)
        exact hkey ⟨h1.symm, h2.symm⟩
      simp [Effect.on, Update.on, patch, hg, hkey, Db.status, hfound]

/-- A statement addressed by primary key that kills the rows it `fires` on, all
of them alive, and no other row. -/
private theorem died_loud (hguard : u.guard = isKey owner taskId) (fires : Row → Bool)
    (hfires : ∀ r, db.find o i = some r → owner = o → taskId = i → fires r = true →
      r.status ≠ .deadLetter ∧ (u.set r).status = .deadLetter)
    (hspares : ∀ r, db.find o i = some r → owner = o → taskId = i → fires r = false →
      (u.set r).status = .deadLetter → r.status = .deadLetter) :
    (if (db.find owner taskId).any fires ∧ (owner = o ∧ taskId = i) then 1
      else 0) =
      died (db.status o i)
        (((Effect.update u).on o i (db.find o i)).map Row.status) := by
  rw [status_on_key hguard]
  by_cases hkey : owner = o ∧ taskId = i
  · obtain ⟨rfl, rfl⟩ := hkey
    cases hfound : db.find owner taskId with
    | none => simp [died, Db.status, hfound]
    | some r =>
      cases hf : fires r with
      | true =>
        obtain ⟨halive, hdead⟩ := hfires r hfound rfl rfl hf
        simp [Db.status, hfound, hf, died, halive, hdead]
      | false =>
        have hzero : died (some r.status) (some (u.set r).status) = 0 :=
          died_kept (hspares r hfound rfl rfl hf)
        simp [Db.status, hfound, hf, hzero]
  · simp [hkey, died_self]

/-- A committed operation records one event when it kills the row, and none
otherwise. -/
theorem deathEvents_commit (hop : OneEventPerDeath o i db op) :
    deathEvents o i (op.events db) = died (db.status o i)
      ((op.effect.on o i (db.find o i)).map Row.status) := by
  cases op with
  | failAndRequeue owner taskId row call =>
    simp only [Op.effect, Op.events, deathEvents_failEvents]
    refine died_loud (failSql_guard owner taskId row call) _ ?_ ?_
    · intro r hfound ho hi hgives
      exact ⟨hop r hfound ho hi hgives, by simp [failSql_status, failStatus, hgives]⟩
    · intro r hfound ho hi hgives hdead
      simp [failSql_status, failStatus, hgives] at hdead
  | cascade owner taskId cascading failed now =>
    simp only [Op.effect, Op.events, deathEvents_cascadeEvents]
    refine died_loud rfl _ ?_ ?_
    · intro r hfound ho hi _
      exact ⟨hop r hfound ho hi, rfl⟩
    · intro r hfound ho hi hfalse
      cases hfalse
  | updateStatus owner taskId status fields =>
    simp only [Op.effect, Op.events, deathEvents_statusEvents]
    refine died_loud rfl _ ?_ ?_
    · intro r hfound ho hi hgives
      refine ⟨(hop r hfound ho hi).1 hgives, ?_⟩
      exact statusSql_givesUp hgives
    · intro r hfound ho hi hspared hdead
      exact (hop r hfound ho hi).2 (statusSql_deadLetter hspared hdead)
  | _ => exact deathEvents_commit_quiet hop rfl

theorem deathEvents_step (hop : OneEventPerDeath o i db op) :
    deathEvents o i (step db op).journal =
      deathEvents o i db.journal + deathStep o i db op := by
  unfold deathStep
  rcases step_cases db op with hsame | hcommit
  · rw [hsame, died_self, Nat.add_zero]
  · rw [hcommit.journal, deathEvents, List.countP_append]
    have hstatus : (step db op).status o i =
        (op.effect.on o i (db.find o i)).map Row.status := by
      rw [Db.status, hcommit.find]
    rw [hstatus, ← deathEvents_commit hop]
    rfl

/-- **One journal event for each dead-letter transition**, over every run whose
steps do not record an event for a dead row or kill the row silently. -/
theorem one_event_per_death (o i : String) (db : Db) (ops : List Op)
    (h : Meets step (OneEventPerDeath o i) db ops) :
    deathEvents o i (run step db ops).journal =
      deathEvents o i db.journal + deaths o i db ops :=
  add_tally_of_step (m := fun db => deathEvents o i db.journal)
    (fun _ _ => deathEvents_step) h

def singleAttemptTask : DurableTask where
  taskId := "task-1"
  goal := "summarise the file"
  status := .pending
  maxAttempts := 1
  createdAt := 0
  updatedAt := 0

/-- The lease of the only attempt expires and is swept. -/
def sweptRun : List Op :=
  [.enqueue DEFAULT_PRINCIPAL_ID singleAttemptTask,
   .claim DEFAULT_PRINCIPAL_ID "task-1" "worker-a" DEFAULT_LEASE_SECONDS 1,
   .reclaimExpired DEFAULT_PRINCIPAL_ID (seconds 1000)]

/-- A failure of the only attempt, reported twice by concurrent callers that read
the same row. -/
def failedTwiceRun : List Op :=
  [.enqueue DEFAULT_PRINCIPAL_ID singleAttemptTask,
   .failAndRequeue DEFAULT_PRINCIPAL_ID "task-1" singleAttemptTask
     { error := "boom", now := 2 },
   .failAndRequeue DEFAULT_PRINCIPAL_ID "task-1" singleAttemptTask
     { error := "boom", now := 3 }]

/-- The swept row dies without an event; the failure reported twice records two
events for one death. -/
theorem death_events_diverge :
    (deathEvents DEFAULT_PRINCIPAL_ID "task-1" (run step Db.fresh sweptRun).journal,
      deaths DEFAULT_PRINCIPAL_ID "task-1" Db.fresh sweptRun) = (0, 1) ∧
    (deathEvents DEFAULT_PRINCIPAL_ID "task-1"
        (run step Db.fresh failedTwiceRun).journal,
      deaths DEFAULT_PRINCIPAL_ID "task-1" Db.fresh failedTwiceRun) = (2, 1) := by
  decide

/-- One failure of the only attempt, recorded once. -/
theorem one_event_per_death_here :
    deathEvents DEFAULT_PRINCIPAL_ID "task-1"
      (run step Db.fresh (failedTwiceRun.take 2)).journal =
      deathEvents DEFAULT_PRINCIPAL_ID "task-1" Db.fresh.journal +
        deaths DEFAULT_PRINCIPAL_ID "task-1" Db.fresh (failedTwiceRun.take 2) := by
  refine one_event_per_death _ _ _ _ ⟨fun r hr => trivial, fun r hr => ?_, trivial⟩
  cases hr
  intro _ _ _ hdead
  cases hdead

end StackOwl.Durable
