import StackOwl.Durable.Runs
import StackOwl.Durable.Sweeps

/-!
# The frame of the unreachable-owner sweep

`heal_unreachable_owners` selects rows by owner and status and retires each of
them with an `UPDATE` that names the `task_id` alone.  The primary key is
`(owner_id, task_id)`, so the `UPDATE` also hits the rows other owners have under
that id, and the row itself when it has ended since the `SELECT`.

## Main results

* `heal_frame_iff` — the sweep leaves the protected rows alone, under any
  interference, exactly when none of them shares the id of a retired candidate.
-/

namespace StackOwl.Durable

open Lib

/-- A row the sweep has no business with: its owner is a registered principal, or
its status is one of the four the `SELECT` leaves out. -/
def Protected (principals : List String) (r : Row) : Prop :=
  r.ownerId ∈ principals ∨
    r.status ∈ [TaskStatus.completed, .failed, .deadLetter, .parked]

/-- `P` holds of every `UPDATE` of a sweep: of the candidate it is for, the
database it runs on and the one it leaves. -/
def EachWrite (env : Interference) (statement : Row → Option Update)
    (P : Row → Db → Db → Prop) : Nat → List Row → Db → Prop
  | _, [], _ => True
  | k, c :: rows, db =>
    match statement c with
    | none => EachWrite env statement P k rows db
    | some u =>
      match (env k db).execute u with
      | .error _ => EachWrite env statement P (k + 1) rows (env k db)
      | .ok (db', _) =>
        P c (env k db) db' ∧ EachWrite env statement P (k + 1) rows db'

theorem eachWrite_congr {env : Interference} {statement : Row → Option Update}
    {P Q : Row → Db → Db → Prop}
    (h : ∀ c u s s' n, statement c = some u → s.execute u = .ok (s', n) →
      (P c s s' ↔ Q c s s')) (k : Nat) (rows : List Row) (db : Db) :
    EachWrite env statement P k rows db ↔ EachWrite env statement Q k rows db := by
  induction rows generalizing k db with
  | nil => exact Iff.rfl
  | cons c rows ih =>
    unfold EachWrite
    cases hc : statement c with
    | none => exact ih k db
    | some u =>
      cases hexec : (env k db).execute u with
      | error e =>
        simp only [hexec]
        exact ih (k + 1) (env k db)
      | ok out =>
        simp only [hexec]
        exact and_congr (h c u _ _ _ hc hexec) (ih (k + 1) out.1)

/-- The rows protected in `s` are as they were in `s'`. -/
def Frames (s s' : Db) : Prop :=
  ∀ o i r, s.find o i = some r → Protected s.principals r → s'.find o i = some r

/-- The row carries what the sweep writes already. -/
def alreadyRetired (now : Stamp) (r : Row) : Prop :=
  r.status = .deadLetter ∧ r.lastError = some UNREACHABLE_MESSAGE ∧
    r.updatedAt = now

/-- No row protected in `s` has the id of the candidate, but one that carries what
the sweep writes already. -/
def NoCollision (now : Stamp) (c : Row) (s : Db) : Prop :=
  ∀ r ∈ s.tasks.rows, Protected s.principals r → r.taskId = c.taskId →
    alreadyRetired now r

/-- **The tenant frame**: no `UPDATE` of the sweep changes a protected row. -/
def HealFrames (lim : Int) (now : Stamp) (env : Interference) (db : Db) : Prop :=
  EachWrite env (retireStatement now) (fun _ s s' => Frames s s') 0
    (unreachableRows lim db) db

/-- Whenever the sweep retires a candidate, no protected row has its id. -/
def HealsApart (lim : Int) (now : Stamp) (env : Interference) (db : Db) : Prop :=
  EachWrite env (retireStatement now) (fun c s _ => NoCollision now c s) 0
    (unreachableRows lim db) db

/-! ## One write -/

theorem retireSql_set_eq_iff (taskId : String) (now : Stamp) (r : Row) :
    (retireSql taskId now).set r = r ↔ alreadyRetired now r := by
  constructor
  · intro h
    exact ⟨congrArg Row.status h.symm, congrArg Row.lastError h.symm,
      congrArg Row.updatedAt h.symm⟩
  · rintro ⟨hstatus, herror, hupdated⟩
    cases r
    simp only at hstatus herror hupdated
    simp [retireSql, hstatus, herror, hupdated]

theorem retireStatement_eq_some {now : Stamp} {c : Row} {u : Update}
    (h : retireStatement now c = some u) : u = retireSql c.taskId now := by
  unfold retireStatement at h
  split at h
  · cases h
  · exact (Option.some.inj h).symm

/-- What one `UPDATE` of the sweep makes of a row. -/
theorem retireSql_on_eq_iff (taskId : String) (now : Stamp) (r : Row) :
    (retireSql taskId now).on r = r ↔
      (r.taskId = taskId → alreadyRetired now r) := by
  rw [← retireSql_set_eq_iff taskId now r]
  by_cases hid : r.taskId = taskId
  · have hguard : (retireSql taskId now).guard r = true := beq_iff_eq.mpr hid
    rw [Update.on_of_guard hguard]
    exact ⟨fun h _ => h, fun h => h hid⟩
  · have hguard : (retireSql taskId now).guard r = false := by
      simpa [retireSql] using hid
    rw [Update.on_of_not_guard hguard]
    exact ⟨fun _ h => absurd h hid, fun _ => rfl⟩

/-- One `UPDATE` of the sweep keeps the frame exactly when there is no
collision. -/
theorem frames_iff {now : Stamp} {c : Row} {s s' : Db} {n : Nat}
    (hexec : s.execute (retireSql c.taskId now) = .ok (s', n)) :
    Frames s s' ↔ NoCollision now c s := by
  constructor
  · intro hframe r hr hprotected
    have hfound := find_of_mem hr
    have hkept := hframe _ _ r hfound hprotected
    rw [find_execute hexec, hfound, Option.map_some] at hkept
    exact (retireSql_on_eq_iff c.taskId now r).mp (Option.some.inj hkept)
  · intro hnone o i r hr hprotected
    rw [find_execute hexec, hr, Option.map_some]
    exact congrArg some ((retireSql_on_eq_iff c.taskId now r).mpr
      (hnone r (mem_of_find hr) hprotected))

/-- **The tenant frame** of the sweep, under any interference between its
statements, holds exactly when no protected row has the id of a candidate at the
moment the candidate is retired. -/
theorem heal_frame_iff (lim : Int) (now : Stamp) (env : Interference) (db : Db) :
    HealFrames lim now env db ↔ HealsApart lim now env db := by
  refine eachWrite_congr (fun c u s s' n hc hexec => ?_) 0 _ db
  rw [retireStatement_eq_some hc] at hexec
  exact frames_iff hexec

/-! ## The sweep on its own -/

/-- Nothing runs between the statements. -/
def noInterference : Interference := fun _ db => db

/-- A stranded row with no destination, filed under somebody who is no
principal. -/
def strandedTask : DurableTask where
  taskId := "task-1"
  ownerId := "ghost"
  goal := "rollover summary"
  status := .pending
  createdAt := 0
  updatedAt := 0

/-- A task of a registered principal has the id of the stranded one. -/
def collidingDb : Db :=
  { run step Db.fresh [.enqueue "ghost" strandedTask,
      .enqueue DEFAULT_PRINCIPAL_ID strandedTask] with
    principals := [DEFAULT_PRINCIPAL_ID] }

/-- The sweep retires the principal's task along with the stranded one. -/
theorem heal_crosses_tenants :
    ¬ HealFrames 500 1 noInterference collidingDb := by
  intro h
  have hframe := h.1 DEFAULT_PRINCIPAL_ID "task-1" _ rfl (Or.inl (by decide))
  exact absurd (congrArg (Option.map Row.status) hframe) (by decide)

end StackOwl.Durable
