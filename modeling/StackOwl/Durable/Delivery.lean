import StackOwl.Durable.Runs

/-!
# Delivery and completion

The loop's completion rule: a task is complete when its outcome reached its
destination, and `delivered_at` is the proof.  Two invariants follow from it.

* **Delivered is final.**  The claims of `pending`, expired and `failed` rows
  compare the status before they write; `fail_and_requeue`, `update_status`,
  `park_for_decision`, `resume_command_after_answer`, the dependency cascade and
  the unreachable-owner sweep do not, and a stale call of one of these reopens a
  delivered row.
* **Completion needs proof.**  `update_status` holds a completion open when the
  answer of *this* call is not blank; a later completion without an answer leaves
  the stored one in place.

## Main results

* `completed_step` — a step that does not reopen or prune a completed row leaves it
  completed.
* `delivered_until_pruned` — a delivered row stays completed until it is pruned,
  in every run that issues no unguarded write for it while it is delivered.
* `completed_has_proof` — a completed row with an answer and a destination
  carries its proof, in every run that never completes a row without an answer
  over an unproven stored one.
-/

namespace StackOwl.Durable

open Lib

/-! ## Completed rows -/

variable (o i : String)

def Completed (db : Db) : Prop :=
  db.status o i = some .completed

def Absent (db : Db) : Prop :=
  db.status o i = none

/-- The operation moves the completed row `r` of the key out of `completed`, or
deletes it. -/
def reopens (owner d : String) (r : Row) : Op → Prop
  | .updateStatus o i status fields =>
    o = owner ∧ i = d ∧
      heldStatus status fields (r.owesDelivery fields.readFails) ≠ .completed
  | .failAndRequeue o i _ _ => o = owner ∧ i = d
  | .parkForDecision o i _ _ _ _ _ => o = owner ∧ i = d
  | .resumeApproved o i _ => o = owner ∧ i = d
  | .cascade o i _ _ _ => o = owner ∧ i = d
  | .retire i _ => i = d
  | .pruneCompleted o olderThan commandOlderThan now =>
    pruned o olderThan commandOlderThan now r = true
  | _ => False

variable {op : Op} {r : Row} {u : Update} {owner d : String}

/-- Every statement a completed row matches leaves it completed, when it does not
reopen it. -/
private theorem set_completed (hkey : r.ownerId = owner ∧ r.taskId = d) (hr : r.status = .completed)
    (hkeeps : ¬ reopens owner d r op) (hu : op.effect = .update u) (hg : u.guard r = true)
    : (u.set r).status = .completed := by
  obtain ⟨rfl, rfl⟩ := hkey
  have hother : ∀ {s : TaskStatus}, r.status = s → s ≠ .completed → False :=
    fun hs hne => hne (hs.symm.trans hr)
  cases op with
  | create | enqueue | createChildTask | pruneCompleted => cases hu
  | updateStatus o i status fields =>
    cases hu
    obtain ⟨ho, hi⟩ := isKey_iff.mp hg
    have hheld : heldStatus status fields (r.owesDelivery fields.readFails) = .completed := by
      by_contra hne
      exact hkeeps ⟨ho.symm, hi.symm, hne⟩
    show ((statusSql o i status fields r).set r).status = .completed
    rw [statusSql, hheld]
    rfl
  | failAndRequeue o i row call =>
    cases hu
    rw [failSql_guard] at hg
    obtain ⟨ho, hi⟩ := isKey_iff.mp hg
    exact absurd ⟨ho.symm, hi.symm⟩ hkeeps
  | parkForDecision | resumeApproved | cascade =>
    cases hu
    obtain ⟨ho, hi⟩ := isKey_iff.mp hg
    exact absurd ⟨ho.symm, hi.symm⟩ hkeeps
  | retire i now =>
    cases hu
    exact absurd (beq_iff_eq.mp hg).symm hkeeps
  | claimForRecovery =>
    cases hu
    rcases (claimForRecoverySql_guard_iff.mp hg).2 with hs | hs
    · exact (hother hs (by decide)).elim
    · exact (hother hs (by decide)).elim
  | claim =>
    cases hu
    exact (hother (claimSql_guard_iff.mp hg).2 (by decide)).elim
  | revive =>
    cases hu
    exact (hother (reviveSql_guard_iff.mp hg).2 (by decide)).elim
  | reclaimExpired =>
    cases hu
    exact (hother (reclaimExpiredSql_guard_iff.mp hg).1.2 (by decide)).elim
  | markDelivered | markCompletedUnaddressed =>
    cases hu
    rfl
  | repointRetry | claimChildLease | supersedeChild | saveCheckpoint
  | updateAchievement | setDependencies | acknowledge =>
    cases hu
    exact hr

variable {db : Db}

/-- A step that neither reopens nor prunes a completed row leaves it completed. -/
theorem completed_step (hdone : Completed owner d db)
    (hkeeps : ∀ r, db.find owner d = some r → r.status = .completed → ¬ reopens owner d r op)
    : Completed owner d (step db op) := by
  obtain ⟨r, hr, hstatus⟩ := status_eq_some_iff.mp hdone
  have hop := hkeeps r hr hstatus
  rcases step_find db op owner d with hsame | heffect
  · exact status_eq_some_iff.mpr ⟨r, hsame.trans hr, hstatus⟩
  · rw [hr] at heffect
    cases heq : op.effect with
    | insert s =>
      rw [heq] at heffect
      exact status_eq_some_iff.mpr ⟨r, heffect, hstatus⟩
    | update u =>
      rw [heq] at heffect
      refine status_eq_some_iff.mpr ⟨u.on r, heffect, ?_⟩
      unfold Update.on patch
      split
      · exact set_completed (key_of_find hr) hstatus hop heq ‹_›
      · exact hstatus
    | delete guard =>
      have hspared : guard r = false := by
        cases op with
        | pruneCompleted o olderThan commandOlderThan now =>
          cases heq
          simpa [reopens] using hop
        | _ => cases heq
      rw [heq] at heffect
      refine status_eq_some_iff.mpr ⟨r, ?_, hstatus⟩
      rw [heffect]
      simp [Effect.on, Option.filter, hspared]

/-! ## Delivered is final -/

def Row.delivered (r : Row) : Bool :=
  r.status == .completed && r.deliveredAt.isSome

/-- The row of the key has reached its destination. -/
def Delivered (db : Db) : Prop :=
  ∃ r, db.find o i = some r ∧ r.delivered = true

/-- At whatever point of the run the row is delivered, from there on its status
stays `completed` until the row is deleted. -/
def DeliveredIsFinal (db : Db) (ops : List Op) : Prop :=
  ∀ before after, ops = before ++ after →
    Delivered o i (run step db before) →
      Until step (Completed o i) (Absent o i) (run step db before) after

/-- The writes that name the row and compare no status, other than the ones that
complete it. -/
def unguardedWrite : Op → Bool
  | .updateStatus owner taskId status _ =>
    owner == o && taskId == i && status != .completed
  | .failAndRequeue owner taskId _ _ => owner == o && taskId == i
  | .parkForDecision owner taskId _ _ _ _ _ => owner == o && taskId == i
  | .resumeApproved owner taskId _ => owner == o && taskId == i
  | .cascade owner taskId _ _ _ => owner == o && taskId == i
  | .retire taskId _ => taskId == i
  | _ => false

/-- No unguarded write is issued for the row while it is delivered. -/
def SparesDelivered (db : Db) (op : Op) : Prop :=
  Delivered o i db → unguardedWrite o i op = false

theorem delivered_iff :
    r.delivered = true ↔ r.status = .completed ∧ r.deliveredAt.isSome := by
  simp [Row.delivered]

/-- No statement takes the proof of arrival back. -/
theorem deliveredAt_kept (hproof : r.deliveredAt.isSome = true) (hu : op.effect = .update u) :
    (u.set r).deliveredAt.isSome = true := by
  cases op with
  | create | enqueue | createChildTask | pruneCompleted => cases hu
  | updateStatus owner taskId status fields =>
    cases hu
    show ((statusSql owner taskId status fields r).set r).deliveredAt.isSome = true
    unfold statusSql failSql
    dsimp only
    split
    · split <;> exact hproof
    · exact hproof
  | failAndRequeue owner taskId row call =>
    cases hu
    unfold failSql
    split <;> exact hproof
  | claimForRecovery owner taskId countAttempt now =>
    cases hu
    cases countAttempt <;> exact hproof
  | markDelivered =>
    cases hu
    rfl
  | _ =>
    cases hu
    exact hproof

variable {o i}

/-- A write that spares the delivered row does not reopen it: its completion is
never held open, since the proof is there. -/
private theorem not_reopens_of_spared (hr : r.delivered = true)
    (hspared : unguardedWrite o i op = false) (hu : op.effect = .update u) :
    ¬ reopens o i r op := by
  cases op with
  | updateStatus owner taskId status fields =>
    rintro ⟨rfl, rfl, hheld⟩
    have hstatus : status = .completed := by
      simpa [unguardedWrite] using hspared
    have howes : r.owesDelivery fields.readFails = false := by
      have hproof : r.deliveredAt.isNone = false := by
        simpa using (delivered_iff.mp hr).2
      simp [Row.owesDelivery, hproof]
    exact hheld (by simp [heldStatus, hstatus, howes])
  | failAndRequeue | parkForDecision | resumeApproved | cascade =>
    rintro ⟨rfl, rfl⟩
    simp [unguardedWrite] at hspared
  | retire =>
    rintro rfl
    simp [unguardedWrite] at hspared
  | pruneCompleted => cases hu
  | _ => exact id

/-- Every statement a spared delivered row matches leaves it delivered. -/
private theorem set_delivered (hkey : r.ownerId = o ∧ r.taskId = i) (hr : r.delivered = true)
    (hspared : unguardedWrite o i op = false) (hu : op.effect = .update u) (hg : u.guard r = true) :
    (u.set r).delivered = true := by
  obtain ⟨hdone, hproof⟩ := delivered_iff.mp hr
  have hstatus := set_completed hkey hdone (not_reopens_of_spared hr hspared hu) hu hg
  exact delivered_iff.mpr ⟨hstatus, deliveredAt_kept hproof hu⟩

theorem delivered_step (hd : Delivered o i db) (hspares : SparesDelivered o i db op) :
    Delivered o i (step db op) ∨ Absent o i (step db op) := by
  obtain ⟨r, hfound, hr⟩ := hd
  refine (step_keeps hfound hr (fun u hu hg =>
    set_delivered (key_of_find hfound) hr (hspares ⟨r, hfound, hr⟩) hu hg)).imp
      id (fun hgone => ?_)
  simp [Absent, Db.status, hgone]

/-- **Delivered is final**, in every run that issues no unguarded write for the
row while it is delivered. -/
theorem delivered_until_pruned (o i : String) (db : Db) (ops : List Op)
    (h : Meets step (SparesDelivered o i) db ops) :
    DeliveredIsFinal o i db ops := by
  intro before after hops hd
  subst hops
  have hafter := ((meets_append db before after).mp h).2
  apply (until_of_meets (fun s op => delivered_step) (Or.inl hd) hafter).mono
  rintro s ⟨r, hfound, hr⟩
  exact status_eq_some_iff.mpr ⟨r, hfound, (delivered_iff.mp hr).1⟩

/-- A chat task that owes its answer to a destination. -/
def chatTask : DurableTask where
  taskId := "task-1"
  goal := "summarise the file"
  status := .pending
  destination := some "telegram:72055773"
  createdAt := 0
  updatedAt := 0

/-- A turn is enqueued, claimed and delivered. -/
def deliveredRun : List Op :=
  [.enqueue DEFAULT_PRINCIPAL_ID chatTask,
   .claim DEFAULT_PRINCIPAL_ID "task-1" "worker-a" DEFAULT_LEASE_SECONDS 1,
   .markDelivered DEFAULT_PRINCIPAL_ID "task-1" "the summary" 2]

/-- The checkpoint callback's `update_status(task_id, 'running',
current_step=n)`, issued by a drive that outlived the delivery. -/
def lateCheckpoint : Op :=
  .updateStatus DEFAULT_PRINCIPAL_ID "task-1" .running
    { currentStep := some 2, now := 3 }

/-- The late checkpoint of a stale drive reopens the delivered row. -/
theorem delivered_not_final :
    ¬ DeliveredIsFinal DEFAULT_PRINCIPAL_ID "task-1" Db.fresh
      (deliveredRun ++ [lateCheckpoint]) := by
  intro hfinal
  have hdelivered : Delivered DEFAULT_PRINCIPAL_ID "task-1"
      (run step Db.fresh deliveredRun) := ⟨_, rfl, rfl⟩
  rcases hfinal deliveredRun [lateCheckpoint] rfl hdelivered with h | ⟨-, h⟩
  · exact absurd h (by unfold Absent; decide)
  · rcases h with h | h
    · exact absurd h (by unfold Absent; decide)
    · exact absurd h (by unfold Completed; decide)

/-- A delivered row survives the claim of another worker and the lease sweep. -/
theorem delivered_until_pruned_here :
    DeliveredIsFinal DEFAULT_PRINCIPAL_ID "task-1" Db.fresh
      (deliveredRun ++
        [.claim DEFAULT_PRINCIPAL_ID "task-1" "worker-b" DEFAULT_LEASE_SECONDS 3,
         .reclaimExpired DEFAULT_PRINCIPAL_ID 4]) := by
  apply delivered_until_pruned _ _ _ _
  refine ⟨?_, ?_, ?_, ?_, ?_, trivial⟩ <;> intro _ <;> rfl

/-! ## Completion needs proof -/

/-- `DurableTaskRunner._finalize`: only a row that is still `running` is
finalized. -/
def finalize (owner taskId : String) (status : TaskStatus)
    (result : Option String) (now : Stamp) (db : Db) :
    Result (Db × TaskStatus) := do
  let current ← get owner taskId db
  if current.status = .running then
    updateStatus owner taskId status { result, now } db
  else
    return (db, current.status)

/-- An answer is stored, somebody is waiting for it, and neither
`delivered_at` nor `acknowledged_at` says it was dealt with. -/
def Row.owesAnswer (r : Row) : Bool :=
  truthy r.destination && !blankOrNone r.result && r.deliveredAt.isNone &&
    r.acknowledgedAt.isNone

def Row.proven (r : Row) : Prop :=
  r.status = .completed → r.owesAnswer = false

/-- Whatever row the key has, it is proven. -/
def CompletedHasProof (o i : String) (db : Db) : Prop :=
  ∀ r, db.find o i = some r → r.proven

/-- The ways a row can come to be completed without its proof are left out: an
`update_status('completed')` that has no result, or whose own read fails, over a row
that owes its answer, and a row born completed with an answer somebody waits for. -/
def NoBareCompletion (o i : String) (db : Db) : Op → Prop
  | .updateStatus owner taskId status fields =>
    owner = o → taskId = i → status = .completed →
      fields.result = none ∨ fields.readFails = true →
      ∀ r, db.find o i = some r →
        { r with result := fields.result.or r.result }.owesAnswer = false
  | .create owner task => owner = o → task.taskId = i →
      (taskInsertColumns (task.filedUnder owner)).proven
  | .enqueue owner task => owner = o → task.taskId = i →
      (taskInsertColumns (task.filedUnder owner)).proven
  | _ => True

/-- A completion through `update_status` leaves a proven row, except over a
stored answer that is still owed. -/
private theorem statusSql_proven {taskId : String} {status : TaskStatus} {fields : StatusFields}
    (h : status = .completed → fields.result = none ∨ fields.readFails = true →
      { r with result := fields.result.or r.result }.owesAnswer = false) :
    ((statusSql owner taskId status fields r).set r).proven := by
  unfold statusSql
  dsimp only
  split
  · intro hstatus
    rw [failSql_status, failStatus] at hstatus
    split at hstatus <;> cases hstatus
  · rename_i hplain
    intro hstatus
    have hheld : heldStatus status fields (r.owesDelivery fields.readFails) = .completed := hstatus
    unfold heldStatus at hheld
    split at hheld
    · cases hheld
    · rename_i hopen
      by_cases hbare : fields.result = none ∨ fields.readFails = true
      · exact h hheld hbare
      obtain ⟨hresult, hread⟩ := not_or.mp hbare
      obtain ⟨text, hresult⟩ := Option.ne_none_iff_exists'.mp hresult
      by_cases hblank : blankOrNone (some text) = true
      · simp [updateStatusSql, Row.owesAnswer, hresult, hblank]
      · have howes : r.owesDelivery fields.readFails = false := by
          by_contra howes
          exact hopen ⟨hheld, by simpa [hresult] using hblank,
            by simpa using howes⟩
        have hdest : (truthy r.destination && r.deliveredAt.isNone) = false := by
          simpa [Row.owesDelivery, hread] using howes
        rw [Bool.and_eq_false_iff] at hdest
        rcases hdest with h | h <;>
          simp [updateStatusSql, Row.owesAnswer, h]

/-- Every statement but the excluded completion leaves a proven row proven. -/
private theorem set_proven (hfound : db.find o i = some r) (hr : r.proven)
    (hop : NoBareCompletion o i db op) (hu : op.effect = .update u) (hg : u.guard r = true) :
    (u.set r).proven := by
  obtain ⟨rfl, rfl⟩ := key_of_find hfound
  cases op with
  | create | enqueue | createChildTask | pruneCompleted => cases hu
  | updateStatus owner taskId status fields =>
    cases hu
    obtain ⟨howner, htask⟩ := isKey_iff.mp hg
    exact statusSql_proven (fun hstatus hresult =>
      hop howner.symm htask.symm hstatus hresult r hfound)
  | failAndRequeue owner taskId row call =>
    cases hu
    intro hstatus
    rw [failSql_status, failStatus] at hstatus
    split at hstatus <;> cases hstatus
  | claimForRecovery owner taskId countAttempt now =>
    cases hu
    intro hstatus
    cases countAttempt with
    | false => cases hstatus
    | true =>
      simp only [claimForRecoverySql, if_true, statusOrDeadLetter] at hstatus
      split at hstatus <;> cases hstatus
  | reclaimExpired owner now =>
    cases hu
    intro hstatus
    simp only [reclaimExpiredSql, statusOrDeadLetter] at hstatus
    split at hstatus <;> cases hstatus
  | markDelivered =>
    cases hu
    intro _
    simp [Row.owesAnswer, markDeliveredSql]
  | markCompletedUnaddressed =>
    cases hu
    intro _
    simp [Row.owesAnswer, markCompletedUnaddressedSql]
  | acknowledge =>
    cases hu
    intro _
    simp [Row.owesAnswer, acknowledgeSql]
  | parkForDecision | resumeApproved | cascade | claim | retire | revive =>
    cases hu
    intro hstatus
    cases hstatus
  | claimChildLease | supersedeChild | saveCheckpoint | updateAchievement
  | setDependencies | repointRetry =>
    cases hu
    exact hr

theorem completedHasProof_step (hproof : CompletedHasProof o i db)
    (hop : NoBareCompletion o i db op) :
    CompletedHasProof o i (step db op) := by
  intro r' hr'
  cases hfound : db.find o i with
  | some r =>
    rcases step_keeps hfound (hproof r hfound)
        (fun u hu hg => set_proven hfound (hproof r hfound) hop hu hg) with
      ⟨s, hs, hproven⟩ | hgone
    · rw [hs] at hr'
      cases hr'
      exact hproven
    · rw [hgone] at hr'
      cases hr'
  | none =>
    obtain ⟨ho, hi⟩ := key_of_find hr'
    have hbirth := step_birth hfound hr'
    cases op with
    | create owner task =>
      cases hbirth
      exact hop ho hi
    | enqueue owner task =>
      cases hbirth
      exact hop ho hi
    | createChildTask =>
      cases hbirth
      intro hstatus
      cases hstatus
    | _ => cases hbirth

/-- **Completion needs proof**, in every run without a bare completion. -/
theorem completed_has_proof (o i : String) (db : Db) (ops : List Op)
    (hstart : CompletedHasProof o i db)
    (h : Meets step (NoBareCompletion o i) db ops) :
    Along step (CompletedHasProof o i) db ops :=
  along_of_meets (fun _ _ => completedHasProof_step) hstart h

/-- The first drive's answer is held open for its delivery; the recovery drive
after it finishes with nothing to say. -/
def quietRecoveryRun : List Op :=
  [.enqueue DEFAULT_PRINCIPAL_ID chatTask,
   .claim DEFAULT_PRINCIPAL_ID "task-1" "worker-a" DEFAULT_LEASE_SECONDS 1,
   .updateStatus DEFAULT_PRINCIPAL_ID "task-1" .completed
     { result := some "the summary", now := 2 },
   .claimForRecovery DEFAULT_PRINCIPAL_ID "task-1" true 3,
   .updateStatus DEFAULT_PRINCIPAL_ID "task-1" .running { now := 4 },
   .updateStatus DEFAULT_PRINCIPAL_ID "task-1" .completed { now := 5 }]

/-- The quiet completion closes the row over the undelivered answer. -/
theorem completed_without_proof :
    ¬ Along step (CompletedHasProof DEFAULT_PRINCIPAL_ID "task-1") Db.fresh
      quietRecoveryRun := by
  intro h
  exact absurd (h.last _ rfl rfl) (by decide)

/-- Held open, then delivered. -/
theorem completed_has_proof_here :
    Along step (CompletedHasProof DEFAULT_PRINCIPAL_ID "task-1") Db.fresh
      [.enqueue DEFAULT_PRINCIPAL_ID chatTask,
       .updateStatus DEFAULT_PRINCIPAL_ID "task-1" .completed
         { result := some "the summary", now := 2 },
       .markDelivered DEFAULT_PRINCIPAL_ID "task-1" "the summary" 3] := by
  apply completed_has_proof _ _ _ _ (fun r hr => by cases hr)
  refine ⟨?_, ?_, trivial, trivial⟩
  · intro _ _ hstatus
    cases hstatus
  · rintro _ _ _ (hbare | hbare) <;> cases hbare

end StackOwl.Durable
