import StackOwl.Durable.Ceiling
import StackOwl.Durable.DispatchSpec
import StackOwl.Durable.Liveness
import StackOwl.Durable.Reshape
import StackOwl.Durable.Runs

/-!
# Waiting on children

`_dispatch` returns as soon as `_maybe_reshape` has split the task it was given.  The
row keeps what its claim wrote: it is `running`, with a lease.  `set_dependencies` makes
it wait and leaves both in place, so what becomes of it is decided by `reclaim_expired`.

`LoopOp` lists what the ticks write while it waits: the sweep of expired leases, the
dependency check of a fetched row, the claim of a row, the end of a run, the pruning.

## Main results

* `waits_free_iff` — the schedules on which waiting costs nothing.
-/

namespace StackOwl.Durable

open Lib

/-- What the ticks do to the table while a split task waits. -/
inductive LoopOp where
  | reclaimExpired (now : Stamp)
  | checkDeps (taskId : String) (now : Stamp)
  | claim (taskId worker : String) (leaseSeconds : Int) (now : Stamp)
  | markDelivered (taskId result : String) (now : Stamp)
  | markCompletedUnaddressed (taskId result : String) (now : Stamp)
  | failAndRequeue (taskId : String) (call : FailCall)
  | pruneCompleted (olderThan commandOlderThan : Int) (now : Stamp)

section

variable (owner parent : String)

/-- `_deps_satisfied` of a row that `claimable` fetched. -/
def checkDeps (taskId : String) (now : Stamp) (db : Db) : Db :=
  match db.find owner taskId with
  | none => db
  | some r =>
    match rowReady owner now r db with
    | .error _ => db
    | .ok (db, _) => db

def failRun (taskId : String) (call : FailCall) (db : Db) : Db :=
  match failAndRequeue owner taskId call db with
  | .error _ => db
  | .ok (db, _) => db

/-- One operation.  The dispatch that split the parent started no run of it, so the
runs that end are those of other tasks. -/
def LoopOp.apply (db : Db) : LoopOp → Db
  | .reclaimExpired now => step db (.reclaimExpired owner now)
  | .checkDeps taskId now => Durable.checkDeps owner taskId now db
  | .claim taskId worker leaseSeconds now =>
    step db (.claim owner taskId worker leaseSeconds now)
  | .markDelivered taskId result now =>
    if taskId = parent then db else step db (.markDelivered owner taskId result now)
  | .markCompletedUnaddressed taskId result now =>
    if taskId = parent then db
    else step db (.markCompletedUnaddressed owner taskId result now)
  | .failAndRequeue taskId call =>
    if taskId = parent then db else failRun owner taskId call db
  | .pruneCompleted olderThan commandOlderThan now =>
    step db (.pruneCompleted owner olderThan commandOlderThan now)

def waitsOn (db : Db) : List String :=
  split ((db.find owner parent).bind Row.dependsOn)

variable (deps : List String)

def someDead (db : Db) : Bool := deps.any (fun d => db.status owner d == some .deadLetter)

/-- The table, and whether the parent has waited on all of them so far. -/
structure WaitWorld where
  db : Db
  waiting : Bool

/-- The parent waits until all of them are completed or one is dead-lettered. -/
def waitStep (w : WaitWorld) (op : LoopOp) : WaitWorld :=
  let db := op.apply owner parent w.db
  ⟨db, w.waiting && !depsLanded owner deps db && !someDead owner deps db⟩

/-- The tables as the split leaves them. -/
def splitWorld (c : ReshapeCall) (db : Db) : WaitWorld :=
  let left := (maybeReshape owner c db).1
  let deps := waitsOn owner c.task.taskId left
  ⟨left, !depsLanded owner deps left && !someDead owner deps left⟩

/-- Nothing stands in the way of a row that it was split: it is free again, its backoff
is over and its dependencies are completed. -/
def MayBeOffered (db : Db) (r : Row) : Prop :=
  r.status = .pending ∧ r.nextAttemptAt = none ∧ r.ready owner db = true

/-- The row was charged no attempt, keeps its failure class and is not dead. -/
def Uncharged (r r' : Row) : Prop :=
  r'.attemptCount.getD 0 = r.attemptCount.getD 0 ∧
    r'.lastFailureClass = r.lastFailureClass ∧ r'.status ≠ .deadLetter

/-- A step taken while the parent waits does not charge it; and when it completes the
last of the children, the parent may be offered. -/
def Costless (w : WaitWorld) (op : LoopOp) : Prop :=
  w.waiting = true → ∀ r, w.db.find owner parent = some r →
    ∃ r', (op.apply owner parent w.db).find owner parent = some r' ∧ Uncharged r r' ∧
      (depsLanded owner deps (op.apply owner parent w.db) = true →
        MayBeOffered owner (op.apply owner parent w.db) r')

/-- The operation takes the parent: its lease has expired, or one of the rows it waits
on is `failed`. -/
def LoopOp.takes (db : Db) (r : Row) : LoopOp → Bool
  | .reclaimExpired now => expiredLeaseWhere owner now r
  | .checkDeps taskId _ =>
    taskId == parent && !(failedDeps owner deps db).isEmpty && cascadeFits r
  | _ => false

/-- A step taken while the parent waits does not take it, and completes the last of the
children only where the parent is `pending` again. -/
def Spares (w : WaitWorld) (op : LoopOp) : Prop :=
  w.waiting = true → ∀ r, w.db.find owner parent = some r →
    op.takes owner parent deps w.db r = false ∧
      (depsLanded owner deps (op.apply owner parent w.db) = true → r.status = .pending)

end

/-! ## The parent's row after an operation -/

section

variable {owner parent : String} {deps : List String} {db : Db} {r : Row} {taskId : String}

/-- A statement about the row of another key leaves a row alone. -/
theorem step_find_other {op : Op} {u : Update} (heffect : op.effect = .update u)
    (hguard : ∀ s, u.guard s = true → isKey owner taskId s = true) (hne : taskId ≠ parent) :
    (step db op).find owner parent = db.find owner parent := by
  rcases step_find db op owner parent with hsame | hfind
  · exact hsame
  · rw [hfind, heffect]
    cases hr : db.find owner parent with
    | none => rfl
    | some s =>
      have hmiss : u.guard s = false := by
        by_contra hg
        have hkey := isKey_iff.mp (hguard s (by simpa using hg))
        exact hne (hkey.2.symm.trans (key_of_find hr).2)
      exact congrArg some (Update.on_of_not_guard hmiss)

theorem checkDeps_eq (now : Stamp) (hr : db.find owner taskId = some r) :
    checkDeps owner taskId now db =
      if failedDeps owner (split r.dependsOn) db = [] then db
      else step db (.cascade owner taskId (rowToTask r)
        (failedDeps owner (split r.dependsOn) db) now) := by
  obtain ⟨ho, rfl⟩ := key_of_find hr
  unfold checkDeps rowReady
  rw [hr]
  dsimp only
  by_cases hnone : split r.dependsOn = []
  · rw [if_pos hnone, hnone]
    rfl
  · rw [if_neg hnone]
    unfold depsSatisfied
    cases hfailed : failedDeps owner (split r.dependsOn) db with
    | nil => rfl
    | cons d ds =>
      have hget : get owner r.taskId db = .ok (rowToTask r) := by rw [get, hr]
      rw [if_neg (List.cons_ne_nil d ds), hget]
      have htransaction :
          Op.transaction (.cascade owner r.taskId (rowToTask r) (d :: ds) now) db =
            cascadeWith owner r.taskId (rowToTask r) (d :: ds) now db := rfl
      rw [step, htransaction]
      cases hwrite : cascadeWith owner r.taskId (rowToTask r) (d :: ds) now db with
      | error e => simp [hwrite, bind, Except.bind]
      | ok left => simp [hwrite, bind, Except.bind, pure, Except.pure]

/-- A cascade is written exactly where the journal takes its event. -/
theorem step_cascade {failed : List String} (now : Stamp) (hr : db.find owner taskId = some r) :
    (step db (.cascade owner taskId (rowToTask r) failed now)).find owner taskId =
      some (if cascadeFits r then (cascadeSql owner taskId failed now).set r else r) := by
  obtain ⟨db₁, n, hexec⟩ := cascade_isOk owner taskId failed now db
  have hcount := rowcount_of_isKey hexec rfl
  rw [hr, Option.isSome_some, if_pos rfl] at hcount
  subst hcount
  have hlabel : labelFits? (some "dependency_failed") = true := by decide
  have hvalid : Attrs.valid (.taskDeadLettered r.triggerKind (rowToTask r).attemptCount
      (rowToTask r).maxAttempts r.leaseOwner (some "dependency_failed") true
      (some (",".intercalate failed))) = cascadeFits r := by
    rw [Attrs.valid, hlabel, Bool.and_true, cascadeFits]
  have htransaction : Op.transaction
      (.cascade owner taskId (rowToTask r) failed now) db =
      db₁.record
        { actorId := owner, targetId := taskId
          attrs := .taskDeadLettered r.triggerKind (rowToTask r).attemptCount
            (rowToTask r).maxAttempts r.leaseOwner (some "dependency_failed") true
            (some (",".intercalate failed)) } := by
    show cascadeWith owner taskId (rowToTask r) failed now db = _
    simp only [cascadeWith, hexec]
    rfl
  unfold step
  rw [htransaction, Db.record]
  simp only [hvalid]
  by_cases hfits : cascadeFits r = true
  · rw [if_pos hfits, if_pos hfits]
    exact (updates_execute hexec).find_matched hr (Table.sat_of_find? hr)
  · rw [if_neg hfits, if_neg hfits]
    exact hr


theorem depsLanded_of_claim {taskId worker : String} {leaseSeconds : Int} {now : Stamp}
    (h : depsLanded owner deps (step db (.claim owner taskId worker leaseSeconds now)) = true) :
    depsLanded owner deps db = true := by
  refine List.all_eq_true.mpr fun d hd => ?_
  have hlanded := beq_iff_eq.mp (List.all_eq_true.mp h d hd)
  obtain ⟨s, hs, hstatus⟩ := status_eq_some_iff.mp hlanded
  rw [beq_iff_eq]
  rcases step_find db (.claim owner taskId worker leaseSeconds now) owner d with hf | hf
  · exact status_eq_some_iff.mpr ⟨s, hf.symm.trans hs, hstatus⟩
  · rw [hs] at hf
    obtain ⟨r, hr, hon⟩ := Option.map_eq_some_iff.mp hf.symm
    refine status_eq_some_iff.mpr ⟨r, hr, ?_⟩
    unfold Update.on patch at hon
    split at hon
    · rw [← hon] at hstatus
      cases hstatus
    · rw [hon]
      exact hstatus

def Claimed (r r' : Row) : Prop :=
  r.status = .pending ∧ ∃ worker expires now,
    r' = (claimSql r.ownerId r.taskId worker expires now).set r

/-- An operation that does not take the parent leaves its row alone, or claims it and
completes nothing. -/
theorem find_apply_of_not_takes {op : LoopOp} (hr : db.find owner parent = some r)
    (hdeps : split r.dependsOn = deps) (hcompleted : r.status ≠ .completed)
    (h : op.takes owner parent deps db r = false) :
    ∃ r', (op.apply owner parent db).find owner parent = some r' ∧ (r' = r ∨
      Claimed r r' ∧ (depsLanded owner deps (op.apply owner parent db) = true →
        depsLanded owner deps db = true)) := by
  obtain ⟨ho, hi⟩ := key_of_find hr
  cases op with
  | reclaimExpired now =>
    refine ⟨r, ?_, .inl rfl⟩
    rcases step_find db (.reclaimExpired owner now) owner parent with hs | hs
    · exact hs.trans hr
    · refine hs.trans ?_
      rw [hr]
      exact congrArg some (Update.on_of_not_guard h)
  | checkDeps taskId now =>
    refine ⟨r, ?_, .inl rfl⟩
    show (Durable.checkDeps owner taskId now db).find owner parent = some r
    cases hfound : db.find owner taskId with
    | none =>
      unfold Durable.checkDeps
      rw [hfound]
      exact hr
    | some s =>
      rw [checkDeps_eq now hfound]
      by_cases hid : taskId = parent
      · subst hid
        obtain rfl : r = s := Option.some.inj (hr.symm.trans hfound)
        rw [hdeps]
        split
        · exact hr
        · rename_i hfailed
          have hfits : cascadeFits r = false := by
            simpa [LoopOp.takes, hfailed] using h
          rw [step_cascade now hfound, hfits]
          rfl
      · split
        · exact hr
        · exact (step_find_other rfl (fun _ hg => hg) hid).trans hr
  | claim taskId worker leaseSeconds now =>
    rcases step_find db (.claim owner taskId worker leaseSeconds now) owner parent
      with hs | hs
    · exact ⟨r, hs.trans hr, .inl rfl⟩
    · rw [hr] at hs
      refine ⟨_, hs, ?_⟩
      by_cases hg : (claimSql owner taskId worker (now + seconds leaseSeconds) now).guard
          r = true
      · obtain ⟨hkey, hpending⟩ := claimSql_guard_iff.mp hg
        obtain ⟨-, rfl⟩ := isKey_iff.mp hkey
        subst ho
        exact .inr ⟨⟨hpending, worker, _, now, Update.on_of_guard hg⟩,
          depsLanded_of_claim⟩
      · exact .inl (Update.on_of_not_guard (by simpa using hg))
  | markDelivered taskId result now | markCompletedUnaddressed taskId result now =>
    refine ⟨r, ?_, .inl rfl⟩
    by_cases hid : taskId = parent
    · simp only [LoopOp.apply, if_pos hid]
      exact hr
    · simp only [LoopOp.apply, if_neg hid]
      exact (step_find_other rfl (fun _ hg => hg) hid).trans hr
  | failAndRequeue taskId call =>
    refine ⟨r, ?_, .inl rfl⟩
    by_cases hid : taskId = parent
    · simp only [LoopOp.apply, if_pos hid]
      exact hr
    · simp only [LoopOp.apply, if_neg hid]
      unfold failRun
      cases hfail : failAndRequeue owner taskId call db with
      | error e => exact hr
      | ok out =>
        obtain ⟨s, -, hupd, -⟩ := failAndRequeue_spec hfail
        have hguard : ∀ t, (failSql owner taskId (rowToTask s) call).guard t = true →
            isKey owner taskId t = true := by
          intro t ht
          rwa [failSql_guard] at ht
        exact (hupd.find_other hguard fun hkey => hid hkey.2).trans hr
  | pruneCompleted olderThan commandOlderThan now =>
    refine ⟨r, ?_, .inl rfl⟩
    show (pruneCompleted owner olderThan commandOlderThan now db).1.find owner parent =
      some r
    rw [pruneCompleted_find, hr]
    have hkept : pruned owner olderThan commandOlderThan now r = false := by
      simp [pruned, prunedGoal, prunedCommand, hcompleted]
    simp [Option.filter, hkept]

/-- An operation that takes the parent charges it, or dead-letters it. -/
theorem find_apply_of_takes {op : LoopOp} (hr : db.find owner parent = some r)
    (hdeps : split r.dependsOn = deps) (h : op.takes owner parent deps db r = true) :
    ∃ r', (op.apply owner parent db).find owner parent = some r' ∧ ¬ Uncharged r r' := by
  obtain ⟨rfl, rfl⟩ := key_of_find hr
  cases op with
  | reclaimExpired now =>
    obtain ⟨db', n, hok⟩ := reclaimExpired_isOk r.ownerId now db
    have hstep : step db (.reclaimExpired r.ownerId now) = db' := by
      have hrun : reclaimExpired r.ownerId now db = .ok (db', n) := hok
      simp [step, Op.transaction, hrun, bind, Except.bind, pure, Except.pure]
    refine ⟨reclaimedRow r now, ?_, fun hsame => ?_⟩
    · show (step db (.reclaimExpired r.ownerId now)).find r.ownerId r.taskId = _
      rw [hstep]
      exact reclaimExpired_row hr h hok
    · have hcount : r.attemptCount.getD 0 + 1 = r.attemptCount.getD 0 := hsame.1
      omega
  | checkDeps taskId now =>
    simp only [LoopOp.takes, Bool.and_eq_true, beq_iff_eq, Bool.not_eq_true',
      List.isEmpty_eq_false_iff] at h
    obtain ⟨⟨rfl, hfailed⟩, hfits⟩ := h
    refine ⟨(cascadeSql r.ownerId r.taskId (failedDeps r.ownerId deps db) now).set r, ?_,
      fun hsame => hsame.2.2 rfl⟩
    show (Durable.checkDeps r.ownerId r.taskId now db).find r.ownerId r.taskId = _
    rw [checkDeps_eq now hr, hdeps, if_neg hfailed, step_cascade now hr, if_pos hfits]
  | claim => cases h
  | markDelivered => cases h
  | markCompletedUnaddressed => cases h
  | failAndRequeue => cases h
  | pruneCompleted => cases h

end

/-! ## Runs -/

section

variable {owner parent : String} {deps : List String} {w : WaitWorld}

/-- While the parent waits, its row is there, waits on `deps`, has no backoff and has not
ended; and not all of `deps` are completed. -/
def Held (owner parent : String) (deps : List String) (w : WaitWorld) : Prop :=
  w.waiting = true → depsLanded owner deps w.db = false ∧
    ∃ r, w.db.find owner parent = some r ∧ split r.dependsOn = deps ∧
      r.nextAttemptAt = none ∧ r.status ≠ .completed ∧ r.status ≠ .deadLetter

/-- While the parent waits, a step costs it nothing exactly where it spares it. -/
theorem costless_iff_spares (h : Held owner parent deps w) (op : LoopOp) :
    Costless owner parent deps w op ↔ Spares owner parent deps w op := by
  by_cases hw : w.waiting = true
  · obtain ⟨hlanded, r, hr, hdeps, hnext, hcompleted, hdead⟩ := h hw
    simp only [Costless, Spares, hw, true_implies, hr, Option.some.injEq, forall_eq']
    cases htakes : op.takes owner parent deps w.db r with
    | true =>
      obtain ⟨r', hr', hcharged⟩ := find_apply_of_takes hr hdeps htakes
      refine iff_of_false ?_ (fun hs => by cases hs.1)
      rintro ⟨s, hs, hun, -⟩
      cases hr'.symm.trans hs
      exact hcharged hun
    | false =>
      obtain ⟨r', hr', hkept⟩ := find_apply_of_not_takes hr hdeps hcompleted htakes
      simp only [hr', Option.some.injEq, exists_eq_left', true_and]
      rcases hkept with rfl | ⟨⟨hpending, worker, expires, now, rfl⟩, hback⟩
      · have hun : Uncharged r' r' := ⟨rfl, rfl, hdead⟩
        simp only [hun, true_and]
        refine forall_congr' fun hdone => ⟨fun ho => ho.1, fun hp => ⟨hp, hnext, ?_⟩⟩
        rw [Row.ready, hdeps]
        exact hdone
      · have hnot : ¬ depsLanded owner deps (op.apply owner parent w.db) = true := by
          intro hdone
          rw [hback hdone] at hlanded
          cases hlanded
        have hun : Uncharged r ((claimSql r.ownerId r.taskId worker expires now).set r) :=
          ⟨rfl, rfl, fun hdead => by cases hdead⟩
        exact iff_of_true ⟨hun, fun hdone => absurd hdone hnot⟩
          fun hdone => absurd hdone hnot
  · exact iff_of_true (fun hwait => absurd hwait hw) fun hwait => absurd hwait hw

theorem Held.step (h : Held owner parent deps w) {op : LoopOp}
    (hs : Spares owner parent deps w op) :
    Held owner parent deps (waitStep owner parent deps w op) := by
  intro hwaiting
  simp only [waitStep, Bool.and_eq_true, Bool.not_eq_true'] at hwaiting
  obtain ⟨⟨hw, hlanded⟩, -⟩ := hwaiting
  obtain ⟨-, r, hr, hdeps, hnext, hcompleted, hdead⟩ := h hw
  obtain ⟨r', hr', hkept⟩ :=
    find_apply_of_not_takes hr hdeps hcompleted (hs hw r hr).1
  refine ⟨hlanded, r', hr', ?_⟩
  rcases hkept with rfl | ⟨⟨-, worker, expires, now, rfl⟩, -⟩
  · exact ⟨hdeps, hnext, hcompleted, hdead⟩
  · refine ⟨hdeps, hnext, ?_, ?_⟩
    · intro hstatus
      cases hstatus
    · intro hstatus
      cases hstatus

end

section

variable {owner : String} {c : ReshapeCall} {db : Db} {r : Row}
  (hsplit : (maybeReshape owner c db).2 = true) (hr : db.find owner c.task.taskId = some r)

include hsplit hr

theorem find_split :
    (maybeReshape owner c db).1.find owner c.task.taskId =
      some ((setDependenciesSql owner c.task.taskId
        ((c.children owner db).map DurableTask.taskId) c.waitsAt).set r) := by
  cases hc : c.children owner db with
  | nil => simp [maybeReshape, hc] at hsplit
  | cons child rest =>
    cases hall : enqueueAll owner c.fault 0 (child :: rest) db with
    | error left => simp [maybeReshape, hc, hall] at hsplit
    | ok left =>
      have hparent : left.find owner c.task.taskId = some r :=
        (find_parent (hc ▸ hall)).trans hr
      cases hset : raising (c.fault (child :: rest).length)
          (setDependencies owner c.task.taskId
            ((child :: rest).map DurableTask.taskId) c.waitsAt left) with
      | error e =>
        rw [maybeReshape, hc] at hsplit
        simp only [hall, hset] at hsplit
        cases hsplit
      | ok db' =>
        have hdb : (maybeReshape owner c db).1 = db' := by
          rw [maybeReshape, hc]
          simp only [hall, hset]
        rw [hdb]
        exact (setDependencies_spec (raising_ok.mp hset).2).find_matched hparent
          (Table.sat_of_find? hparent)

end

/-- **Waiting costs nothing** on exactly the schedules in which no sweep finds the
parent's lease expired while it waits, and the last child is completed only once the
parent is `pending` again. -/
theorem waits_free_iff (owner : String) (c : ReshapeCall) (db : Db)
    (hsplit : (maybeReshape owner c db).2 = true)
    (hlive : ∃ s ∈ LIVE_TASK_STATUSES, db.status owner c.task.taskId = some s)
    (ops : List LoopOp) :
    let deps := waitsOn owner c.task.taskId (maybeReshape owner c db).1
    Meets (waitStep owner c.task.taskId deps) (Costless owner c.task.taskId deps)
        (splitWorld owner c db) ops ↔
      Meets (waitStep owner c.task.taskId deps) (Spares owner c.task.taskId deps)
        (splitWorld owner c db) ops := by
  intro deps
  have hstart : Held owner c.task.taskId deps (splitWorld owner c db) := by
    intro hwaiting
    simp only [splitWorld, Bool.and_eq_true, Bool.not_eq_true'] at hwaiting
    obtain ⟨s, hs, hstatus⟩ := hlive
    obtain ⟨r, hr, rfl⟩ := status_eq_some_iff.mp hstatus
    refine ⟨hwaiting.1, _, find_split hsplit hr, ?_, rfl, ?_, ?_⟩
    · show _ = waitsOn owner c.task.taskId (maybeReshape owner c db).1
      rw [waitsOn, find_split hsplit hr]
      rfl
    · intro hcompleted
      rw [show r.status = .completed from hcompleted] at hs
      revert hs
      decide
    · intro hdead
      rw [show r.status = .deadLetter from hdead] at hs
      revert hs
      decide
  have hkept : ∀ w op, Held owner c.task.taskId deps w →
      Spares owner c.task.taskId deps w op →
      Held owner c.task.taskId deps (waitStep owner c.task.taskId deps w op) :=
    fun w op h hs => h.step hs
  have hiff : ∀ w op, Held owner c.task.taskId deps w →
      (Costless owner c.task.taskId deps w op ↔ Spares owner c.task.taskId deps w op) :=
    fun w op h => costless_iff_spares h op
  constructor
  · exact meets_of_meets (fun w op h hc => hkept w op h ((hiff w op h).mp hc))
      (fun w op h hc => (hiff w op h).mp hc) hstart
  · exact meets_of_meets hkept (fun w op h hs => (hiff w op h).mpr hs) hstart

/-- A task that spent its budget three times, under the lease of its last claim. -/
def claimedDb : Db where
  tasks :=
    { rows := [{ taskInsertColumns spentTask with
        attemptCount := some 3
        lastFailureClass := some "budget"
        leaseOwner := some "worker-1"
        leaseExpiresAt := some (seconds DEFAULT_LEASE_SECONDS) }]
      unique := by decide }

/-- Its plan of two steps. -/
def wholeReshape : ReshapeCall := { brokenReshape with fault := fun _ => false }

/-- **Charged for waiting.**  The sweep after the lease has run out takes the parent,
whose children have not been started. -/
theorem waiting_charged :
    ¬ Meets (waitStep DEFAULT_PRINCIPAL_ID "task-1" ["task-1-sub0-0a1b2c", "task-1-sub1-0a1b2c"])
      (Costless DEFAULT_PRINCIPAL_ID "task-1" ["task-1-sub0-0a1b2c", "task-1-sub1-0a1b2c"])
      (splitWorld DEFAULT_PRINCIPAL_ID wholeReshape claimedDb)
      [.reclaimExpired (seconds 901)] := by
  rintro ⟨h, -⟩
  obtain ⟨r', hr', hun, -⟩ := h (by decide) _ rfl
  cases hr'
  exact absurd hun.1 (by decide)

/-- The first child is completed before the lease runs out. -/
theorem waits_free_here :
    let deps := waitsOn DEFAULT_PRINCIPAL_ID "task-1"
      (maybeReshape DEFAULT_PRINCIPAL_ID wholeReshape claimedDb).1
    Meets (waitStep DEFAULT_PRINCIPAL_ID "task-1" deps)
      (Costless DEFAULT_PRINCIPAL_ID "task-1" deps)
      (splitWorld DEFAULT_PRINCIPAL_ID wholeReshape claimedDb)
      [.markDelivered "task-1-sub0-0a1b2c" "the figures" (seconds 60)] := by
  refine (waits_free_iff DEFAULT_PRINCIPAL_ID wholeReshape claimedDb (by decide)
    ⟨.running, by decide, by decide⟩ _).mpr ⟨fun _ r hr => ?_, trivial⟩
  cases hr
  exact ⟨by decide, by decide⟩

end StackOwl.Durable
