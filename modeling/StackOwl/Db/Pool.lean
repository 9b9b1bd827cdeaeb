import StackOwl.Lib.Run

/-!
# The connection pool

`DbPool` (`db/pool.py`) holds one SQLite connection for the process.  `execute`
runs one statement and commits; `transaction` runs a block of statements between
`BEGIN IMMEDIATE` and a commit or a rollback.  Both hold `_write_lock`, so the
calls of a process run one after the other and a run is a list of calls.

The tables are an arbitrary type.  A statement is a partial function on them: SQLite
undoes a statement that raises, and leaves the transaction it ran in open.  The
driver opens a transaction by itself in front of an `INSERT`, `UPDATE` or `DELETE`
when none is open, and `commit` commits whatever is open.  It opens none for a
statement that does not compile, nor for another statement, which outside a
transaction commits itself.  What each driver call
answers (it is carried out, it fails, the coroutine is cancelled while the
driver's thread carries it out) is part of the call.

A connection marked dead is replaced by the next call; what it had not committed
is gone.

## Main results

* `step_spec` — a call leaves no transaction open exactly when it closes its own, and is all
  or nothing.
* `transaction_atomic_iff` — in a run, every call is all or nothing and the next
  transaction can begin, exactly when every call closes its own transaction.
-/

namespace StackOwl.Db

open Lib

variable {σ : Type*}

/-! ## Statements and replies -/

/-- A statement; `none` is a constraint or another error of its own. -/
abbrev Statement (σ : Type*) := σ → Option σ

/-- What becomes of one call to the driver.  A cancelled call was already queued:
the driver's thread carries it out. -/
inductive Reply where
  | done
  /-- It raises; `dead` is `_looks_like_dead_sqlite`, and `left` that SQLite did not roll the
  open transaction back. -/
  | failed (dead left : Bool)
  | cancelled

def Reply.dead : Reply → Bool
  | .failed dead _ => dead
  | .done | .cancelled => false

def Reply.left : Reply → Bool
  | .failed _ left => left
  | .done | .cancelled => false

/-- The tables after the statements of a block that succeed. -/
def runBody : List (Statement σ) → σ → σ
  | [], tables => tables
  | stmt :: body, tables => runBody body ((stmt tables).getD tables)

/-! ## The pool -/

/-- The pool's connection: the committed tables and, in an open transaction, the
tables as its connection sees them. -/
structure Pool (σ : Type*) where
  durable : σ
  working : Option σ := none

variable (p : Pool σ)

def Pool.visible : σ := p.working.getD p.durable

def Pool.commit : Pool σ := { durable := p.visible }

def Pool.rollback : Pool σ := { durable := p.durable }

/-- `_mark_dead`: the next call opens another connection. -/
def Pool.markDead : Pool σ := { durable := p.durable }

/-- `_mark_dead` when the exception looks like a dead connection. -/
def Pool.markDeadIf (dead : Bool) : Pool σ :=
  if dead then p.markDead else p

/-! ## `execute` -/

/-- The connection past a call that failed. -/
def Pool.keep (left : Bool) : Pool σ :=
  if left then p else p.rollback

/-- One attempt of `execute`: whether the driver begins a transaction for its statement,
and what its statement and its commit are answered. -/
structure Attempt where
  begins : Bool := true
  statement : Reply := .done
  commit : Reply := .done

variable (tables : σ)

/-- The connection past a statement: the open transaction has its tables, or they are
committed. -/
def Pool.write (begins : Bool) (tables : σ) : Pool σ :=
  if begins || p.working.isSome then { p with working := some tables } else { durable := tables }

variable (stmt : Statement σ)

/-- `_do` of `execute`, and whether it raised an error that is retried.  Where the
driver begins a transaction in front of the statement, a statement that raises
leaves one open. -/
def Pool.attempt (a : Attempt) :
    Pool σ × Bool :=
  match a.statement with
  | .failed dead left => (((p.write a.begins p.visible).keep left).markDeadIf dead, dead)
  | .cancelled =>
    (p.write a.begins ((stmt p.visible).getD p.visible), false)
  | .done =>
    match stmt p.visible with
    | none => (p.write a.begins p.visible, false)
    | some tables =>
      let p := p.write a.begins tables
      -- with no transaction open there is nothing to commit
      if p.working.isNone then (p, false) else
      match a.commit with
      | .failed dead left => ((p.keep left).markDeadIf dead, dead)
      | .done | .cancelled => (p.commit, false)

/-- `execute`: `retry_once_on_dead_handle` around `_do`. -/
def Pool.execute (first second : Attempt) :
    Pool σ :=
  match p.attempt stmt first with
  | (p', false) => p'
  | (p', true) => (p'.attempt stmt second).1

/-! ## `transaction` -/

/-- How the block inside `transaction` is left. -/
inductive Exit where
  /-- Past its last statement: `commit` is awaited. -/
  | normal (commit : Reply)
  /-- By an `Exception`, which may look like a dead connection: `rollback` is
  awaited. -/
  | raised (dead : Bool) (rollback : Reply)
  /-- By a `BaseException` that is no `Exception`, such as a cancellation. -/
  | cancelled

/-- What follows the `yield` of `transaction`.  A commit that raises is outside the
`try`, and `except Exception` does not see a cancellation. -/
def Pool.leave : Exit → Pool σ
  | .normal .done | .normal .cancelled => p.commit
  | .normal (.failed _ left) => p.keep left
  | .raised dead .done => p.rollback.markDeadIf dead
  | .raised _ .cancelled => p.rollback
  | .raised dead (.failed rollbackDead left) =>
    ((p.keep left).markDeadIf rollbackDead).markDeadIf dead
  | .cancelled => p

/-- `transaction` around a block that issues the statements of `body` until it is
left.  `BEGIN IMMEDIATE` raises within an open transaction. -/
def Pool.transaction (begun : Reply) (body : List (Statement σ)) (exit : Exit) : Pool σ :=
  match p.working, begun with
  | some _, _ => p
  | none, .failed dead _ => p.markDeadIf dead
  | none, .cancelled => { p with working := some p.durable }
  | none, .done => Pool.leave { p with working := some (runBody body p.durable) } exit

/-! ## Calls -/

inductive Call (σ : Type*) where
  | execute (stmt : Statement σ) (first second : Attempt)
  | transaction (begun : Reply) (body : List (Statement σ)) (exit : Exit)

def Call.statements : Call σ → List (Statement σ)
  | .execute stmt _ _ => [stmt]
  | .transaction _ body _ => body

def step : Call σ → Pool σ
  | .execute stmt first second => p.execute stmt first second
  | .transaction begun body exit => p.transaction begun body exit

/-- A `BEGIN IMMEDIATE` on the pool's connection is not refused by a transaction
that is still open. -/
def Pool.canBegin : Prop := p.working = none

/-- The call leaves the committed tables alone, or commits all of its own statements
and nothing else. -/
def AllOrNothing (c : Call σ) : Prop :=
  (step p c).durable = p.durable ∨
    (step p c).durable = runBody c.statements p.durable

instance [DecidableEq σ] (p : Pool σ) (c : Call σ) : Decidable (AllOrNothing p c) :=
  inferInstanceAs (Decidable (_ ∨ _))

/-! ## Which calls close their transaction -/

/-- The attempt raises an error that `execute` retries on another connection. -/
def Attempt.retried (tables : σ) (a : Attempt) : Prop :=
  a.statement.dead = true ∨
    a.begins = true ∧ a.statement = .done ∧ stmt tables ≠ none ∧ a.commit.dead = true

/-- The driver's transaction stays open behind the attempt. -/
def Attempt.leaves (tables : σ) (a : Attempt) : Prop :=
  a.begins = true ∧
    (a.statement = .cancelled ∨ a.statement = .failed false true ∨
      a.statement = .done ∧ (stmt tables = none ∨ a.commit = .failed false true))

/-- The block is not left by a cancellation, and the commit or rollback that follows
does not fail on a connection that stays in use with its transaction. -/
def Exit.closes : Exit → Prop
  | .normal commit => commit.left = false
  | .raised dead rollback => rollback.left = false ∨ rollback.dead = true ∨ dead = true
  | .cancelled => False

/-- The call closes the transaction it opens, given no other one is open. -/
def Call.closes (tables : σ) : Call σ → Prop
  | .execute stmt first second =>
    ¬ first.leaves stmt tables ∧ (first.retried stmt tables → ¬ second.leaves stmt tables)
  | .transaction begun _ exit =>
    match begun with
    | .done => exit.closes
    | .failed _ _ => True
    | .cancelled => False

def Pool.opened : Pool σ := { durable := tables }

/-! ## One call -/

variable {p}

@[simp] theorem Pool.canBegin_opened : (Pool.opened tables).canBegin := rfl

@[simp] theorem Pool.durable_opened : (Pool.opened tables).durable = tables := rfl

@[simp] theorem Pool.working_opened : (Pool.opened tables).working = none := rfl

@[simp] theorem Pool.visible_writing (durable tables : σ) :
    ({ durable, working := some tables } : Pool σ).visible = tables := rfl

@[simp] theorem Pool.commit_eq (p : Pool σ) : p.commit = Pool.opened p.visible := rfl

@[simp] theorem Pool.rollback_eq (p : Pool σ) : p.rollback = Pool.opened p.durable := rfl

@[simp] theorem Pool.markDeadIf_true (p : Pool σ) :
    p.markDeadIf true = Pool.opened p.durable := rfl

@[simp] theorem Pool.markDeadIf_false (p : Pool σ) : p.markDeadIf false = p := rfl

@[simp] theorem Pool.keep_true (p : Pool σ) : p.keep true = p := rfl

@[simp] theorem Pool.keep_false (p : Pool σ) : p.keep false = Pool.opened p.durable := rfl

@[simp] theorem Pool.write_true (p : Pool σ) (tables : σ) :
    p.write true tables = { p with working := some tables } := rfl

@[simp] theorem Pool.write_false (tables tables' : σ) :
    (Pool.opened tables).write false tables' = Pool.opened tables' := rfl

@[simp] theorem Pool.not_canBegin (durable tables : σ) :
    ¬ ({ durable, working := some tables } : Pool σ).canBegin := by
  simp [Pool.canBegin]

/-- What follows the `yield` closes the open transaction exactly when the exit does,
and commits the whole of it or nothing. -/
theorem leave_spec (durable tables : σ) (exit : Exit) :
    ((Pool.leave { durable, working := some tables } exit).canBegin ↔ exit.closes) ∧
    ((Pool.leave { durable, working := some tables } exit).durable = durable ∨
      (Pool.leave { durable, working := some tables } exit).durable = tables) := by
  cases exit with
  | normal commit =>
    cases commit with
    | done | cancelled => simp [Pool.leave, Exit.closes, Reply.left]
    | failed dead left => cases left <;> simp [Pool.leave, Exit.closes, Reply.left]
  | raised dead rollback =>
    cases rollback with
    | done | cancelled => cases dead <;> simp [Pool.leave, Exit.closes, Reply.left]
    | failed rollbackDead left =>
      cases left <;> cases rollbackDead <;> cases dead <;>
        simp [Pool.leave, Exit.closes, Reply.left, Reply.dead]
  | cancelled =>
    exact ⟨iff_of_false (Pool.not_canBegin _ _) id, .inl rfl⟩

theorem transaction_spec (begun : Reply) (body : List (Statement σ)) (exit : Exit) :
    (((Pool.opened tables).transaction begun body exit).canBegin ↔
      (Call.transaction begun body exit).closes tables) ∧
    (((Pool.opened tables).transaction begun body exit).durable = tables ∨
      ((Pool.opened tables).transaction begun body exit).durable = runBody body tables) := by
  cases begun with
  | done => exact leave_spec tables _ exit
  | failed dead left => cases dead <;> exact ⟨iff_of_true rfl trivial, .inl rfl⟩
  | cancelled => exact ⟨iff_of_false (Pool.not_canBegin _ _) id, .inl rfl⟩

def insertRow (row : String) : Statement (List String) :=
  fun rows => some (rows ++ [row])

end StackOwl.Db
