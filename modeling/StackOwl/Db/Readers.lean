import StackOwl.Db.Pool

/-!
# Readers beside a transaction

`fetch_all` (`db/pool.py`) runs on the connection the writers use and does not take
`_write_lock`, so it can run at every await of a block inside `transaction`.  It
has two awaits of its own: the query starts on the tables the connection sees then,
and `fetchall` returns its rows.  What a query returns when the same connection
writes in between is not specified by SQLite.

The coroutine inside the block is a list of awaits.  A turn of the event loop runs
the next one, or one await of a reader.

## Main results

* `readers_isolated_iff` — every `fetch_all` returns the rows of a committed state
  exactly when none starts where the block's statements so far show a third
  state, and none is overlapped by a write of the block.
-/

namespace StackOwl.Db

open Lib

universe u

variable {σ : Type u}

/-! ## The block -/

/-- One await of the coroutine inside `transaction`. -/
inductive Await (σ : Type u) where
  | begin
  | statement (stmt : Statement σ)
  | commit
  | rollback

def awaitStep (p : Pool σ) : Await σ → Pool σ
  | .begin => { p with working := some p.durable }
  | .statement stmt => { p with working := some (runBody [stmt] p.visible) }
  | .commit => p.commit
  | .rollback => p.rollback

/-- The await writes to the tables the connection sees. -/
def Await.writes : Await σ → Bool
  | .statement _ | .rollback => true
  | .begin | .commit => false

/-- A block inside `transaction`: the statements it issues, and whether it is left
past the last one or by an exception. -/
structure Block (σ : Type u) where
  body : List (Statement σ)
  commits : Bool

variable (b : Block σ)

def Block.awaits : List (Await σ) :=
  .begin :: b.body.map .statement ++ [if b.commits then .commit else .rollback]

variable (before : σ)

/-- The committed tables once the block is over. -/
def Block.outcome : σ :=
  if b.commits then runBody b.body before else before

/-- The connection after the first `done` awaits of the block. -/
def Block.poolAfter (done : Nat) : Pool σ :=
  run awaitStep (Pool.opened before) (b.awaits.take done)

/-! ## The event loop -/

/-- A query a reader has started: how far the block was, and the tables the query
started on. -/
structure Cursor (σ : Type u) where
  started : Nat
  tables : σ

/-- The pool, how many of its awaits the block has run, and the open queries. -/
structure World (σ : Type u) where
  pool : Pool σ
  done : Nat := 0
  cursors : Nat → Option (Cursor σ) := fun _ => none

/-- A pool just opened, before the block and its readers. -/
def World.opened (before : σ) : World σ := { pool := Pool.opened before }

inductive Turn where
  /-- The block runs its next await. -/
  | block
  /-- `fetch_all` of a reader starts its query. -/
  | execute (reader : Nat)
  /-- `fetch_all` of a reader returns its rows. -/
  | fetchall (reader : Nat)

variable (w : World σ)

/-- The open queries after one reader's changes. -/
def World.setCursor (reader : Nat) (c : Option (Cursor σ)) :
    World σ :=
  { w with cursors := fun other => if other = reader then c else w.cursors other }

def turn : Turn → World σ
  | .block =>
    match b.awaits[w.done]? with
    | none => w
    | some a => { w with pool := awaitStep w.pool a, done := w.done + 1 }
  | .execute reader =>
    w.setCursor reader (some { started := w.done, tables := w.pool.visible })
  | .fetchall reader => w.setCursor reader none

/-- The block wrote after the query started. -/
def Block.overlaps (c : Cursor σ) : Bool :=
  ((b.awaits.take w.done).drop c.started).any Await.writes

/-- The rows `fetchall` returns to a reader, if it has a query open.  `unspecified`
is what comes back when a write overlapped the query. -/
def fetchedRows {ρ : Type u} (b : Block σ) (query : σ → ρ) (unspecified : ρ)
    (w : World σ) (reader : Nat) : Option ρ :=
  (w.cursors reader).map fun c =>
    if b.overlaps w c then unspecified else query c.tables

/-! ## Isolation -/

/-- The rows a turn returns to a reader are those of the tables before the block or
after it, whatever the query. -/
def Isolated : Turn → Prop
  | .fetchall reader =>
    ∀ (ρ : Type u) (query : σ → ρ) (unspecified rows : ρ),
      fetchedRows b query unspecified w reader = some rows →
        rows = query before ∨ rows = query (b.outcome before)
  | .block | .execute _ => True

/-- The statements of the block that ran before the query started have no effect, or
the effect of the whole block, and no write of the block overlaps the query. -/
def Undisturbed : Turn → Prop
  | .fetchall reader =>
    ∀ c, w.cursors reader = some c →
      b.overlaps w c = false ∧
        ((b.poolAfter before c.started).visible = before ∨
          (b.poolAfter before c.started).visible = b.outcome before)
  | .block | .execute _ => True

/-- The connection is where the awaits that ran have put it, and every open query
started on the tables the connection saw then. -/
structure Reached (b : Block σ) (before : σ) (w : World σ) : Prop where
  pool : w.pool = b.poolAfter before w.done
  cursors : ∀ reader c, w.cursors reader = some c →
    c.tables = (b.poolAfter before c.started).visible

theorem reached_opened :
    Reached b before (World.opened before) where
  pool := rfl
  cursors := nofun

variable {b} {before}

theorem Reached.setCursor {w : World σ} (h : Reached b before w) (reader : Nat)
    (c : Option (Cursor σ))
    (hc : ∀ c', c = some c' → c'.tables = (b.poolAfter before c'.started).visible) :
    Reached b before (w.setCursor reader c) where
  pool := h.pool
  cursors := by
    intro other c' hother
    by_cases hsame : other = reader
    · exact hc c' (by simpa [World.setCursor, hsame] using hother)
    · exact h.cursors other c' (by simpa [World.setCursor, hsame] using hother)

theorem poolAfter_succ {done : Nat} {a : Await σ} (h : b.awaits[done]? = some a) :
    b.poolAfter before (done + 1) = awaitStep (b.poolAfter before done) a := by
  have htake : b.awaits.take (done + 1) = b.awaits.take done ++ [a] := by
    rw [List.take_add_one, h, Option.toList_some]
  rw [Block.poolAfter, htake, run_append]
  rfl

/-- Every turn keeps the connection and the open queries where the block's awaits
have put them. -/
theorem reached_turn (t : Turn) (h : Reached b before w) :
    Reached b before (turn b w t) := by
  cases t with
  | block =>
    simp only [turn]
    cases hnext : b.awaits[w.done]? with
    | none => exact h
    | some a =>
      refine ⟨?_, h.cursors⟩
      change awaitStep w.pool a = b.poolAfter before (w.done + 1)
      rw [poolAfter_succ hnext, h.pool]
  | execute reader =>
    apply h.setCursor reader
    intro c hc
    cases hc
    exact congrArg Pool.visible h.pool
  | fetchall reader =>
    apply h.setCursor reader
    intro c hc
    cases hc

/-- Rows that are those of one of two states for every query, whatever an overlapped
query returns, come from one of the two states, undisturbed. -/
theorem rows_committed_iff (b : Block σ) (w : World σ) {reader : Nat}
    {c : Cursor σ} (hc : w.cursors reader = some c) (before after : σ) :
    (∀ (ρ : Type u) (query : σ → ρ) (unspecified rows : ρ),
      fetchedRows b query unspecified w reader = some rows →
        rows = query before ∨ rows = query after) ↔
    b.overlaps w c = false ∧ (c.tables = before ∨ c.tables = after) := by
  constructor
  · intro h
    -- a query that tells all tables apart, and an answer that none of them gives
    have hrows := h (Option σ) some none _ (by rw [fetchedRows, hc]; rfl)
    cases hoverlaps : b.overlaps w c with
    | true => simp [hoverlaps] at hrows
    | false => simpa [hoverlaps] using hrows
  · rintro ⟨hoverlaps, htables⟩ ρ query unspecified rows hrows
    have hquery : query c.tables = rows := by
      simpa [fetchedRows, hc, hoverlaps] using hrows
    rw [← hquery]
    exact htables.imp (congrArg query) (congrArg query)

theorem isolated_iff_undisturbed (t : Turn) (h : Reached b before w) :
    Isolated b before w t ↔ Undisturbed b before w t := by
  cases t with
  | block => exact Iff.rfl
  | execute reader => exact Iff.rfl
  | fetchall reader =>
    cases hc : w.cursors reader with
    | none => simp [Isolated, Undisturbed, fetchedRows, hc]
    | some c =>
      have hcommitted := rows_committed_iff b w hc before (b.outcome before)
      rw [h.cursors reader c hc] at hcommitted
      simpa [Isolated, Undisturbed, hc] using hcommitted

/-- **No reader sees an uncommitted row.**  In every interleaving, each `fetch_all`
returns the rows of the tables before or after the block, exactly when each starts
where the statements so far have no effect or that of the whole block, and no
write of the block overlaps it. -/
theorem readers_isolated_iff (b : Block σ) (before : σ) (turns : List Turn) :
    Meets (turn b) (Isolated b before) (World.opened before) turns ↔
      Meets (turn b) (Undisturbed b before) (World.opened before) turns :=
  meets_congr_of_inv reached_turn isolated_iff_undisturbed
    (reached_opened b before) turns

/-- `enqueue`, by the rows its two inserts add. -/
def enqueueBlock (commits : Bool) : Block (List String) where
  body := [insertRow "tasks: task-1", insertRow "journal_events: task.enqueued"]
  commits := commits

/-- A reader that runs between the two inserts of `enqueue`. -/
def readInside : List Turn := [.block, .block, .execute 0, .fetchall 0, .block, .block]

/-- **A reader sees the half-finished block**: the task's row without its journal row,
also when the block is rolled back after that. -/
theorem reader_sees_uncommitted :
    ¬ Meets (turn (enqueueBlock true)) (Isolated (enqueueBlock true) [])
      (World.opened []) readInside ∧
    ¬ Meets (turn (enqueueBlock false)) (Isolated (enqueueBlock false) [])
      (World.opened []) readInside := by
  have hseen : ∀ commits : Bool, ¬ Meets (turn (enqueueBlock commits))
      (Isolated (enqueueBlock commits) []) (World.opened []) readInside := by
    intro commits hmeets
    have hrows := hmeets.2.2.2.1 (List String) id [] ["tasks: task-1"]
    revert hrows
    cases commits <;> decide
  exact ⟨hseen true, hseen false⟩

end StackOwl.Db
