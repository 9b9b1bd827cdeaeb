import StackOwl.Durable.Store

/-!
# The store's healing sweeps

`revive_undelivered_failures` and `heal_unreachable_owners`
(`pipeline/durable/store.py`).  Each reads its candidates with one `SELECT` and
then writes row by row, fail-open.  Other work may run at every `await` in
between: `env k` is what it makes of the database before the `k`-th statement of
the sweep.

A `SELECT` without `ORDER BY` answers in insertion order.
-/

namespace StackOwl.Durable

open Lib

/-- What concurrent work makes of the database before each statement. -/
abbrev Interference := Nat → Db → Db

/-- The per-row loop of a sweep.  `statement` answers the write for a candidate,
or nothing when the candidate is only reported; the count is of the rows dealt
with, a refused statement not among them. -/
def sweepEach (env : Interference) (statement : Row → Option Update) :
    Nat → List Row → Db → Db × Nat
  | _, [], db => (db, 0)
  | k, r :: rows, db =>
    match statement r with
    | none => sweepEach env statement k rows db
    | some u =>
      match (env k db).execute u with
      | .error _ => sweepEach env statement (k + 1) rows (env k db)
      | .ok (db, _) =>
        let (db, n) := sweepEach env statement (k + 1) rows db
        (db, n + 1)

def reviveUndeliveredFailures (owner : String) (lim : Int) (now : Stamp)
    (env : Interference) (db : Db) : Db × Nat :=
  let rows := limit lim
    (orderBy (fun r => -r.updatedAt) (db.tasks.rows.filter (undeliveredFailure owner)))
  sweepEach env (fun r => some (reviveSql owner r.taskId (revivedClass r) now))
    0 rows db

/-- The rows `heal_unreachable_owners` selects: filed under no registered
principal, and not in one of the four statuses its `WHERE` leaves out. -/
def unreachable (principals : List String) (r : Row) : Bool :=
  r.ownerId ∉ principals &&
    !(r.status == .completed || r.status == .failed ||
      r.status == .deadLetter || r.status == .parked)

/-- The write of `heal_unreachable_owners` for one candidate: a row that owes an
answer is reported and left alone. -/
def retireStatement (now : Stamp) (r : Row) : Option Update :=
  if truthy r.destination then none else some (retireSql r.taskId now)

/-- The candidates of `heal_unreachable_owners`; with no principals on record it
does not look. -/
def unreachableRows (lim : Int) (db : Db) : List Row :=
  if db.principals = [] then []
  else limit lim (db.tasks.rows.filter (unreachable db.principals))

def healUnreachableOwners (lim : Int) (now : Stamp) (env : Interference)
    (db : Db) : Db × Nat :=
  sweepEach env (retireStatement now) 0 (unreachableRows lim db) db

end StackOwl.Durable
