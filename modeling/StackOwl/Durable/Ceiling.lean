import StackOwl.Durable.RecoverySpec

/-!
# The attempt ceiling

The ceiling is applied by a Python expression over the mapped task
(`fail_and_requeue`) and by a SQL `CASE` over the stored columns
(`reclaim_expired`, a charged `claim_for_recovery`).  The two differ in three
places: a stored `max_attempts` of `0` reads as the default in Python and as zero
in SQL; the small ceiling of some failure classes, and of a destination that
names nobody, exists in Python only; so does the give-up on a permanent class.

## Main results

* `ceilings_agree_iff` — the rows and failure classes on which the paths decide
  alike.
-/

namespace StackOwl.Durable

open Lib

variable (r : Row)

def chargedCount : Int := r.attemptCount.getD 0 + 1

variable (call : FailCall)

def smallCeiling : Prop :=
  call.failureClass ∈ SMALL_CEILING_CLASSES ∨ undeliverable (rowToTask r) = true

instance (r : Row) (call : FailCall) : Decidable (smallCeiling r call) :=
  inferInstanceAs (Decidable (_ ∨ _))

/-- Where SQL stops, Python stops too: the stored ceiling is not the zero Python
reads as the default, or Python has its own reason.  Where SQL goes on, Python
has no reason of its own. -/
def CeilingsAgree : Prop :=
  if r.maxAttempts.getD DEFAULT_MAX_ATTEMPTS ≤ chargedCount r then
    r.maxAttempts ≠ some 0 ∨ call.failureClass ∈ call.permanentClasses ∨
      (if smallCeiling r call then UNACHIEVED_EFFECT_MAX_ATTEMPTS
        else DEFAULT_MAX_ATTEMPTS) ≤ chargedCount r
  else
    call.failureClass ∉ call.permanentClasses ∧
      (smallCeiling r call → chargedCount r < UNACHIEVED_EFFECT_MAX_ATTEMPTS)

/-- `NULL` and `0` both count as no attempt, in Python and in SQL. -/
theorem attemptCount_rowToTask :
    (rowToTask r).attemptCount + 1 = chargedCount r := by
  show intOr 0 r.attemptCount + 1 = r.attemptCount.getD 0 + 1
  cases r.attemptCount with
  | none => rfl
  | some n => by_cases hn : n = 0 <;> simp [intOr, hn]

theorem givesUp_iff :
    givesUp (rowToTask r) call = true ↔
      call.failureClass ∈ call.permanentClasses ∨
        (if smallCeiling r call then
            min (intOr DEFAULT_MAX_ATTEMPTS r.maxAttempts)
              UNACHIEVED_EFFECT_MAX_ATTEMPTS
          else intOr DEFAULT_MAX_ATTEMPTS r.maxAttempts) ≤ chargedCount r := by
  rw [← attemptCount_rowToTask]
  simp only [givesUp, Bool.or_eq_true, decide_eq_true_eq]
  rfl

theorem ceilingReachedSql_iff :
    ceilingReachedSql r = true ↔
      r.maxAttempts.getD DEFAULT_MAX_ATTEMPTS ≤ chargedCount r := by
  simp [ceilingReachedSql, chargedCount]

/-- The ceiling Python reads differs from the stored one only at zero. -/
theorem intOr_maxAttempts :
    intOr DEFAULT_MAX_ATTEMPTS r.maxAttempts =
      if r.maxAttempts = some 0 then DEFAULT_MAX_ATTEMPTS
      else r.maxAttempts.getD DEFAULT_MAX_ATTEMPTS := by
  cases r.maxAttempts with
  | none => rfl
  | some n => by_cases hn : n = 0 <;> simp [intOr, hn]

/-- The two ceiling expressions decide alike exactly where `CeilingsAgree`. -/
theorem givesUp_iff_ceilingReachedSql :
    (givesUp (rowToTask r) call = true ↔ ceilingReachedSql r = true) ↔
      CeilingsAgree r call := by
  have hpython := givesUp_iff r call
  have hsql := ceilingReachedSql_iff r
  rw [intOr_maxAttempts] at hpython
  unfold CeilingsAgree
  rw [hpython]
  have hzero : r.maxAttempts = some 0 →
      r.maxAttempts.getD DEFAULT_MAX_ATTEMPTS = 0 := fun h => by rw [h]; rfl
  by_cases hreached : ceilingReachedSql r = true
  · have hle := hsql.mp hreached
    rw [if_pos hle]
    by_cases hmax : r.maxAttempts = some 0
    · simp only [hreached, hmax, if_true, iff_true, not_true_eq_false, false_or,
        DEFAULT_MAX_ATTEMPTS, UNACHIEVED_EFFECT_MAX_ATTEMPTS, ne_eq]
      split <;> simp
    · simp only [hreached, hmax, if_false, iff_true, not_false_eq_true, true_or,
        ne_eq]
      apply Or.inr
      split <;> omega
  · have hlt : ¬ r.maxAttempts.getD DEFAULT_MAX_ATTEMPTS ≤ chargedCount r :=
      fun h => hreached (hsql.mpr h)
    rw [if_neg hlt]
    simp only [hreached, iff_false, not_or, not_le, Bool.false_eq_true]
    apply and_congr_right
    intro _
    have hbase : chargedCount r <
        if r.maxAttempts = some 0 then DEFAULT_MAX_ATTEMPTS
        else r.maxAttempts.getD DEFAULT_MAX_ATTEMPTS := by
      by_cases hmax : r.maxAttempts = some 0
      · rw [hzero hmax] at hlt
        rw [if_pos hmax, DEFAULT_MAX_ATTEMPTS]
        omega
      · rw [if_neg hmax]
        omega
    by_cases hsmall : smallCeiling r call
    · simp only [hsmall, if_true, forall_const, Int.lt_min]
      exact ⟨fun h => h.2, fun h => ⟨hbase, h⟩⟩
    · simp only [hsmall, if_false, false_imp_iff, hbase]

/-- The row after one failure charged by `fail_and_requeue`. -/
def failedRow : Row :=
  (failSql r.ownerId r.taskId (rowToTask r) call).set r

/-- The row after `reclaim_expired` charged it. -/
def reclaimedRow (now : Stamp) : Row :=
  (reclaimExpiredSql r.ownerId now).set r

/-- The row after a charged `claim_for_recovery`. -/
def recoveredRow (now : Stamp) : Row :=
  (claimForRecoverySql r.ownerId r.taskId true now).set r

theorem reclaimExpired_row {owner taskId : String} {now : Stamp} {db db' : Db}
    {n : Nat} {r : Row} (hr : db.find owner taskId = some r)
    (hexpired : expiredLeaseWhere owner now r = true)
    (h : reclaimExpired owner now db = .ok (db', n)) :
    db'.find owner taskId = some (reclaimedRow r now) := by
  obtain ⟨rfl, rfl⟩ := key_of_find hr
  exact (updates_execute h).find_matched hr hexpired

def Row.survived : Prop := r.status ≠ .deadLetter

instance (r : Row) : Decidable r.survived :=
  inferInstanceAs (Decidable (_ ≠ _))

/-- A row survives the Python path exactly when it survives both SQL paths. -/
def OneCeilingRule (now : Stamp) : Prop :=
  ((failedRow r call).survived ↔ (reclaimedRow r now).survived) ∧
    ((failedRow r call).survived ↔ (recoveredRow r now).survived)

theorem failedRow_survived :
    (failedRow r call).survived ↔ ¬ givesUp (rowToTask r) call = true := by
  rw [Row.survived, failedRow, failSql_status, failStatus]
  split <;> simp [*]

theorem statusOrDeadLetter_survived {s : TaskStatus} (hs : s ≠ .deadLetter)
    (r : Row) :
    statusOrDeadLetter s r ≠ .deadLetter ↔ ¬ ceilingReachedSql r = true := by
  unfold statusOrDeadLetter
  split <;> simp [*]

/-- **One ceiling rule** holds of exactly the rows and failures of
`CeilingsAgree`. -/
theorem ceilings_agree_iff (r : Row) (call : FailCall) (now : Stamp) :
    OneCeilingRule r call now ↔ CeilingsAgree r call := by
  have hreclaim : (reclaimedRow r now).survived ↔ ¬ ceilingReachedSql r = true :=
    statusOrDeadLetter_survived (by decide) r
  have hrecover : (recoveredRow r now).survived ↔ ¬ ceilingReachedSql r = true :=
    statusOrDeadLetter_survived (by decide) r
  rw [OneCeilingRule, failedRow_survived, hreclaim, hrecover, and_self,
    not_iff_not]
  exact givesUp_iff_ceilingReachedSql r call

/-- A root-cause task filed for a channel that names nobody, at its third
attempt of thirty. -/
def unaddressedRow : Row where
  taskId := "task-1"
  ownerId := DEFAULT_PRINCIPAL_ID
  goal := "find the root cause"
  status := .running
  destination := some "rca"
  attemptCount := some 2
  createdAt := 0
  updatedAt := 0

/-- `fail_and_requeue` stops the row at its small ceiling; the SQL paths hand it
back to the loop. -/
theorem ceilings_disagree :
    ¬ OneCeilingRule unaddressedRow { error := "boom", now := 1 } 1 := by
  rintro ⟨h, -⟩
  exact absurd h (by decide)

end StackOwl.Durable
