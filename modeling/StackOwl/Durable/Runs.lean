import StackOwl.Durable.Recovery
import StackOwl.Durable.StoreSpec
import StackOwl.Lib.Run

/-!
# Runs of the task table

`Op` lists every writing transaction of the store; `step` commits one.  A
transaction that raises leaves the database as it was.  The methods that read and
then write appear by their writing half, whose read values are arguments of the
operation: a run with arbitrary such values contains every interleaving, stale
reads included.  `update_status` reads only its own row: a stale answer of
`_owes_delivery` can only be an older "yes" (nothing clears `delivered_at`), and
the write it leads to is the one of `update_status(…, 'running', result=…)`.

Every operation acts on the row of one key by one `Effect`, an insertion, an
`UPDATE` or a deletion, and appends its journal events.  `step_cases` says so
once, and the invariants of the development are derived from it.

## Main results

* `step_cases` — a step changes nothing, or commits its operation's effect and
  journal events.
* `step_find` — what a step makes of the row of one key.
-/

namespace StackOwl.Durable

open Lib

/-- The writing transactions of the store, each with the owner it is bound to. -/
inductive Op where
  | create (owner : String) (task : DurableTask)
  | enqueue (owner : String) (task : DurableTask)
  | createChildTask (owner : String) (spec : ChildSpec) (now : Stamp)
  | updateStatus (owner taskId : String) (status : TaskStatus)
      (fields : StatusFields)
  | claimForRecovery (owner taskId : String) (countAttempt : Bool) (now : Stamp)
  | claimChildLease (owner taskId leaseOwner : String) (now : Stamp)
  | supersedeChild (owner taskId : String) (now : Stamp)
  | saveCheckpoint (owner taskId blob : String)
  | updateAchievement (owner taskId achievement : String)
  | parkForDecision (owner taskId commandType requesterKind outcome
      payloadSummary : String) (now : Stamp)
  | resumeApproved (owner taskId : String) (now : Stamp)
  | cascade (owner taskId : String) (cascading : DurableTask)
      (failed : List String) (now : Stamp)
  | claim (owner taskId worker : String) (leaseSeconds : Int) (now : Stamp)
  | reclaimExpired (owner : String) (now : Stamp)
  | repointRetry (owner idempotencyKey goal : String) (now : Stamp)
  | setDependencies (owner taskId : String) (dependsOn : List String)
      (now : Stamp)
  | retire (taskId : String) (now : Stamp)
  | acknowledge (owner taskId : String) (now : Stamp)
  | revive (owner taskId : String) (cls : Option String) (now : Stamp)
  | failAndRequeue (owner taskId : String) (row : DurableTask) (call : FailCall)
  | markDelivered (owner taskId result : String) (now : Stamp)
  | markCompletedUnaddressed (owner taskId result : String) (now : Stamp)
  | pruneCompleted (owner : String) (olderThan commandOlderThan : Int)
      (now : Stamp)

/-- An `UPDATE` on its own, its row count unused. -/
def runUpdate (u : Update) (db : Db) : Result Db := do
  let (db, _) ← db.execute u
  return db

def Op.transaction (op : Op) (db : Db) : Result Db :=
  match op with
  | .create owner task => Durable.create owner task db
  | .enqueue owner task => Durable.enqueue owner task db
  | .createChildTask owner spec now => do
      let (db, _) ← Durable.createChildTask owner spec now db
      return db
  | .updateStatus owner taskId status fields => do
      let (db, _) ← Durable.updateStatus owner taskId status fields db
      return db
  | .claimForRecovery owner taskId countAttempt now => do
      let (db, _) ← Durable.claimForRecovery owner taskId countAttempt now db
      return db
  | .claimChildLease owner taskId leaseOwner now =>
    runUpdate (claimChildLeaseSql owner taskId leaseOwner now) db
  | .supersedeChild owner taskId now =>
    runUpdate (supersedeChildSql owner taskId now) db
  | .saveCheckpoint owner taskId blob =>
    Durable.saveCheckpoint owner taskId blob db
  | .updateAchievement owner taskId achievement =>
    runUpdate (updateAchievementSql owner taskId achievement) db
  | .parkForDecision owner taskId commandType requesterKind outcome summary
      now =>
      Durable.parkForDecision owner taskId commandType requesterKind outcome
        summary now db
  | .resumeApproved owner taskId now =>
    runUpdate (resumeApprovedSql owner taskId now) db
  | .cascade owner taskId cascading failed now =>
    cascadeWith owner taskId cascading failed now db
  | .claim owner taskId worker leaseSeconds now => do
      let (db, _) ← Durable.claim owner taskId worker leaseSeconds now db
      return db
  | .reclaimExpired owner now => do
      let (db, _) ← Durable.reclaimExpired owner now db
      return db
  | .repointRetry owner key goal now =>
    runUpdate (repointRetrySql owner key goal now) db
  | .setDependencies owner taskId dependsOn now =>
    Durable.setDependencies owner taskId dependsOn now db
  | .retire taskId now => runUpdate (retireSql taskId now) db
  | .acknowledge owner taskId now =>
    runUpdate (acknowledgeSql owner taskId now) db
  | .revive owner taskId cls now =>
    runUpdate (reviveSql owner taskId cls now) db
  | .failAndRequeue owner taskId row call => do
      let (db, _) ← failAndRequeueWith owner taskId row call db
      return db
  | .markDelivered owner taskId result now =>
    Durable.markDelivered owner taskId result now db
  | .markCompletedUnaddressed owner taskId result now =>
    Durable.markCompletedUnaddressed owner taskId result now db
  | .pruneCompleted owner olderThan commandOlderThan now =>
    .ok (Durable.pruneCompleted owner olderThan commandOlderThan now db).1

/-- One committed transaction; a raising one is rolled back. -/
def step (db : Db) (op : Op) : Db :=
  match op.transaction db with
  | .error _ => db
  | .ok db => db

/-! ## What an operation does to the row of one key -/

/-- What a committed operation does to the table. -/
inductive Effect where
  | insert (r : Row)
  | update (u : Update)
  | delete (guard : Row → Bool)

/-- The effect on the row of the key `(o, i)`. -/
def Effect.on (o i : String) : Effect → Option Row → Option Row
  | .insert r, none => if isKey o i r then some r else none
  | .insert _, some s => some s
  | .update u, row => row.map u.on
  | .delete guard, row => row.filter (fun r => !guard r)

def Op.effect : Op → Effect
  | .create owner task => .insert (taskInsertColumns (task.filedUnder owner))
  | .enqueue owner task => .insert (taskInsertColumns (task.filedUnder owner))
  | .createChildTask owner spec now => .insert (childRow owner spec now)
  | .updateStatus owner taskId status fields =>
    .update (statusUpdate owner taskId status fields)
  | .claimForRecovery owner taskId countAttempt now =>
    .update (claimForRecoverySql owner taskId countAttempt now)
  | .claimChildLease owner taskId leaseOwner now =>
    .update (claimChildLeaseSql owner taskId leaseOwner now)
  | .supersedeChild owner taskId now => .update (supersedeChildSql owner taskId now)
  | .saveCheckpoint owner taskId blob => .update (saveCheckpointSql owner taskId blob)
  | .updateAchievement owner taskId achievement =>
    .update (updateAchievementSql owner taskId achievement)
  | .parkForDecision owner taskId _ _ outcome _ now =>
    .update (parkSql owner taskId outcome now)
  | .resumeApproved owner taskId now => .update (resumeApprovedSql owner taskId now)
  | .cascade owner taskId _ failed now => .update (cascadeSql owner taskId failed now)
  | .claim owner taskId worker leaseSeconds now =>
    .update (claimSql owner taskId worker (now + seconds leaseSeconds) now)
  | .reclaimExpired owner now => .update (reclaimExpiredSql owner now)
  | .repointRetry owner key goal now => .update (repointRetrySql owner key goal now)
  | .setDependencies owner taskId dependsOn now =>
    .update (setDependenciesSql owner taskId dependsOn now)
  | .retire taskId now => .update (retireSql taskId now)
  | .acknowledge owner taskId now => .update (acknowledgeSql owner taskId now)
  | .revive owner taskId cls now => .update (reviveSql owner taskId cls now)
  | .failAndRequeue owner taskId row call => .update (failSql owner taskId row call)
  | .markDelivered owner taskId result now =>
    .update (markDeliveredSql owner taskId result now)
  | .markCompletedUnaddressed owner taskId result now =>
    .update (markCompletedUnaddressedSql owner taskId result now)
  | .pruneCompleted owner olderThan commandOlderThan now =>
    .delete (pruned owner olderThan commandOlderThan now)

def Op.events (db : Db) : Op → List JournalEvent
  | .create owner task => createEvents owner task
  | .enqueue owner task => [enqueueEvent owner task]
  | .updateStatus owner taskId status fields =>
    statusEvents owner taskId status fields db
  | .parkForDecision owner taskId commandType requesterKind outcome summary _ =>
    [parkEvent owner taskId commandType requesterKind outcome summary]
  | .cascade owner taskId cascading failed _ =>
    cascadeEvents owner taskId cascading failed db
  | .claim owner taskId worker leaseSeconds _ =>
    claimEvents owner taskId worker leaseSeconds db
  | .failAndRequeue owner taskId row call => failEvents owner taskId row call db
  | .markDelivered owner taskId _ _ => deliveredEvents owner taskId db
  | .markCompletedUnaddressed owner taskId _ _ =>
    unaddressedEvents owner taskId db
  | _ => []

/-- The database `db'` after `op` committed in `db`. -/
structure Commits (op : Op) (db db' : Db) : Prop where
  find : ∀ o i, db'.find o i = op.effect.on o i (db.find o i)
  journal : db'.journal = db.journal ++ op.events db

variable {db db' : Db} {op : Op} {u : Update}

theorem Updates.commits (heffect : op.effect = .update u) (h : Updates u (op.events db) db db') :
    Commits op db db' := by
  refine ⟨fun o i => ?_, h.journal⟩
  rw [heffect, h.find]
  rfl

variable {r : Row}

theorem Inserts.commits (heffect : op.effect = .insert r) (h : Inserts r (op.events db) db db') :
    Commits op db db' := by
  refine ⟨fun o i => ?_, h.journal⟩
  rw [heffect, h.find]
  cases db.find o i <;> rfl

theorem runUpdate_spec (h : runUpdate u db = .ok db') : Updates u [] db db' := by
  obtain ⟨⟨db₁, n⟩, hexec, heq⟩ := bind_eq_ok h
  cases heq
  exact updates_execute hexec

theorem transaction_spec (h : op.transaction db = .ok db') : db' = db ∨ Commits op db db' := by
  cases op with
  | create owner task => exact .inr ((create_spec h).commits rfl)
  | enqueue owner task => exact .inr ((enqueue_spec h).commits rfl)
  | createChildTask owner spec now =>
    obtain ⟨⟨db₁, record⟩, hchild, heq⟩ := bind_eq_ok h
    cases heq
    exact (createChildTask_spec hchild).imp id (fun h => h.commits rfl)
  | updateStatus owner taskId status fields =>
    obtain ⟨⟨db₁, written⟩, hstatus, heq⟩ := bind_eq_ok h
    cases heq
    obtain ⟨r, -, hupd, -⟩ := updateStatus_spec hstatus
    exact .inr (hupd.commits rfl)
  | claimForRecovery owner taskId countAttempt now =>
    obtain ⟨⟨db₁, claimed⟩, hclaim, heq⟩ := bind_eq_ok h
    cases heq
    exact .inr ((claimForRecovery_spec hclaim).1.commits rfl)
  | claimChildLease => exact .inr ((runUpdate_spec h).commits rfl)
  | supersedeChild => exact .inr ((runUpdate_spec h).commits rfl)
  | saveCheckpoint => exact .inr ((saveCheckpoint_spec h).commits rfl)
  | updateAchievement => exact .inr ((runUpdate_spec h).commits rfl)
  | parkForDecision => exact .inr ((parkForDecision_spec h).commits rfl)
  | resumeApproved => exact .inr ((runUpdate_spec h).commits rfl)
  | cascade => exact .inr ((cascadeWith_spec h).commits rfl)
  | claim owner taskId worker leaseSeconds now =>
    obtain ⟨⟨db₁, won⟩, hclaim, heq⟩ := bind_eq_ok h
    cases heq
    exact .inr ((claim_spec hclaim).1.commits rfl)
  | reclaimExpired owner now =>
    obtain ⟨⟨db₁, n⟩, hreclaim, heq⟩ := bind_eq_ok h
    cases heq
    exact .inr ((updates_execute hreclaim).commits rfl)
  | repointRetry => exact .inr ((runUpdate_spec h).commits rfl)
  | setDependencies => exact .inr ((setDependencies_spec h).commits rfl)
  | retire => exact .inr ((runUpdate_spec h).commits rfl)
  | acknowledge => exact .inr ((runUpdate_spec h).commits rfl)
  | revive => exact .inr ((runUpdate_spec h).commits rfl)
  | failAndRequeue owner taskId row call =>
    obtain ⟨⟨db₁, status⟩, hfail, heq⟩ := bind_eq_ok h
    cases heq
    exact .inr ((failAndRequeueWith_spec hfail).1.commits rfl)
  | markDelivered => exact .inr ((markDelivered_spec h).commits rfl)
  | markCompletedUnaddressed =>
    exact .inr ((markCompletedUnaddressed_spec h).commits rfl)
  | pruneCompleted owner olderThan commandOlderThan now =>
    cases h
    refine .inr ⟨fun o i => ?_, by simp [Op.events, pruneCompleted]⟩
    exact pruneCompleted_find owner olderThan commandOlderThan now db o i

/-- **What a step can do.**  It changes nothing, or it commits its operation. -/
theorem step_cases (db : Db) (op : Op) :
    step db op = db ∨ Commits op db (step db op) := by
  unfold step
  cases h : op.transaction db with
  | error e => exact .inl rfl
  | ok db' => exact transaction_spec h

theorem step_find (db : Db) (op : Op) (o i : String) :
    (step db op).find o i = db.find o i ∨
      (step db op).find o i = op.effect.on o i (db.find o i) :=
  (step_cases db op).imp (fun h => by rw [h]) (fun h => h.find o i)

variable {o i : String}

/-- A fact `P` of a row that every `UPDATE` matching it keeps is kept by a step,
unless the row is deleted. -/
theorem step_keeps {P : Row → Prop} (hr : db.find o i = some r) (hP : P r)
    (hset : ∀ u, op.effect = .update u → u.guard r = true → P (u.set r)) :
    (∃ r', (step db op).find o i = some r' ∧ P r') ∨
      (step db op).find o i = none := by
  rcases step_find db op o i with hsame | heffect
  · exact .inl ⟨r, hsame.trans hr, hP⟩
  · rw [heffect, hr]
    cases hop : op.effect with
    | insert s => exact .inl ⟨r, rfl, hP⟩
    | update u =>
      refine .inl ⟨u.on r, rfl, ?_⟩
      unfold Update.on patch
      split
      · exact hset u hop ‹_›
      · exact hP
    | delete guard =>
      by_cases hg : guard r = true
      · exact .inr (by simp [Effect.on, Option.filter, hg])
      · exact .inl ⟨r, by simp [Effect.on, Option.filter, hg], hP⟩

/-- A row that appears under a free key was inserted by the step. -/
theorem step_birth (hfree : db.find o i = none) (hr : (step db op).find o i = some r) :
    op.effect = .insert r := by
  rcases step_find db op o i with hsame | heffect
  · rw [hsame, hfree] at hr
    cases hr
  · rw [heffect, hfree] at hr
    cases hop : op.effect with
    | insert s =>
      rw [hop] at hr
      simp only [Effect.on] at hr
      split at hr
      · cases hr
        rfl
      · cases hr
    | update u =>
      rw [hop] at hr
      cases hr
    | delete guard =>
      rw [hop] at hr
      cases hr

end StackOwl.Durable
