import Mathlib.Logic.Function.Basic
import StackOwl.Db.Pool

/-!
# Calls to the pool, interleaved

`execute`, `execute_returning_rowcount`, `fetch_all` and `transaction` (`db/pool.py`) as
coroutines of one event loop.  A turn of the loop resumes one call with the reply of the
driver call it awaits, and runs it up to its next await.  Writes hold `_write_lock`, opening
holds `_lock`, and reads hold neither: `_mark_dead` sets `self._conn` to `None` whoever uses
the connection, and `execute` reads `self._conn` again between its statement and its commit.

The driver begins a transaction in front of a statement that changes data.  What a driver
call that fails leaves of it is part of the reply, and so is whether the error looks like a
dead connection.  A connection that was marked dead keeps its transaction until it is
collected, if it ever is.

The committed statements are listed with the calls that issued them.

## Main results

* `independent_of_clean` — in a run in which no failing statement or commit leaves a
  transaction behind, and no connection is marked dead under another write, the calls are
  independent units.
-/

namespace StackOwl.Db.PoolCalls

open Lib Function

variable {σ : Type*}

/-! ## Connections -/

/-- The transaction of a connection: none, one that the driver has begun and that holds no
lock, or one that holds the database's write lock, with the tables that it sees and the
statements that were run in it. -/
inductive Txn (σ : Type*) where
  | closed
  | begun
  | writing (tables : σ) (statements : List (Nat × Statement σ))

namespace Txn

def isWriting : Txn σ → Bool
  | writing _ _ => true
  | closed | begun => false

def visible (durable : σ) : Txn σ → σ
  | writing tables _ => tables
  | closed | begun => durable

def statements : Txn σ → List (Nat × Statement σ)
  | writing _ statements => statements
  | closed | begun => []

end Txn

/-- What a driver call that fails leaves open: nothing (it was refused before the driver's
`BEGIN`, or SQLite rolled back), a transaction without the write lock (`SQLITE_BUSY`), or
one with it. -/
inductive Left where
  | closed
  | begun
  | writing
  deriving DecidableEq

/-- A driver call that fails; `dead` is `_looks_like_dead_sqlite`. -/
structure Failure where
  dead : Bool
  left : Left

inductive Reply where
  | done
  | failed (f : Failure)

/-- The transaction after a driver call that failed.  SQLite undoes the statement. -/
def Txn.after (durable : σ) (t : Txn σ) : Left → Txn σ
  | .closed => .closed
  | .begun =>
    match t with
    | .closed => .begun
    | .begun | .writing _ _ => t
  | .writing =>
    match t with
    | .closed | .begun => .writing durable []
    | .writing _ _ => t

/-! ## Calls -/

/-- What a call is asked to do: `execute` and `execute_returning_rowcount` are `write`.  The
body of a `transaction` raises what its statements raise. -/
inductive Task (σ : Type*) where
  | write (stmt : Statement σ)
  | block (body : List (Statement σ))
  | read

def Task.statements : Task σ → List (Statement σ)
  | write stmt => [stmt]
  | block body => body
  | read => []

/-- What a call does after `ensure_available`. -/
inductive Next (σ : Type*) where
  | start (task : Task σ)
  | retryWrite (stmt : Statement σ)
  | retryRead

def Next.task : Next σ → Task σ
  | start task => task
  | retryWrite stmt => .write stmt
  | retryRead => .read

inductive Stage (σ : Type*) where
  | idle
  /-- `_lock`, to open a connection. -/
  | ensuring (next : Next σ)
  /-- `aiosqlite.connect`. -/
  | connecting (next : Next σ)
  /-- The pragmas. -/
  | configuring (next : Next σ)
  /-- `_write_lock`. -/
  | waiting (task : Task σ)
  /-- The statement of `execute`. -/
  | statement (stmt : Statement σ) (retried : Bool) (c : Nat)
  /-- Its commit. -/
  | commit (stmt : Statement σ) (retried : Bool) (c : Nat)
  /-- `BEGIN IMMEDIATE`. -/
  | begin (body : List (Statement σ)) (c : Nat)
  /-- The next statement of the block, or its commit past the last one. -/
  | body (all rest : List (Statement σ)) (c : Nat)
  /-- The rollback of a block whose body raised. -/
  | rollback (all : List (Statement σ)) (dead : Bool) (c : Nat)
  /-- The query of `fetch_all`. -/
  | reading (retried : Bool)
  | ended (task : Task σ) (returned : Bool)

/-- The pool, its connections and its calls. -/
structure World (σ : Type*) where
  durable : σ
  /-- The statements that are durable, each with the call that issued it. -/
  committed : List (Nat × Statement σ) := []
  conns : Nat → Txn σ := fun _ => .closed
  /-- How many connections have been opened. -/
  opened : Nat
  /-- `self._conn`. -/
  live : Option Nat
  /-- Who holds `_lock`. -/
  opener : Option Nat := none
  /-- Who holds `_write_lock`. -/
  writer : Option Nat := none
  calls : Nat → Stage σ := fun _ => .idle

namespace World

variable (w : World σ) (id : Nat)

def setCall (s : Stage σ) : World σ :=
  { w with calls := update w.calls id s }

variable (c : Nat)

def setConn (t : Txn σ) : World σ :=
  { w with conns := update w.conns c t }

/-- The call ends, and releases `_write_lock` if it holds it. -/
def finish (task : Task σ) (returned : Bool) : World σ :=
  { w.setCall id (.ended task returned) with
    writer := if w.writer = some id then none else w.writer }

/-- `_mark_dead`, if the error looks like a dead connection. -/
def markDeadIf (dead : Bool) : World σ :=
  if dead then { w with live := none } else w

/-- Another connection holds the database's write lock. -/
def lockedElsewhere : Bool :=
  (List.range w.opened).any fun other => other ≠ c && (w.conns other).isWriting

/-! ## `ensure_available` -/

variable (stmt : Statement σ) (retried : Bool)

/-- `_do` of `execute`, up to its statement. -/
def attemptWrite : World σ :=
  match w.live with
  | none => w.finish id (.write stmt) false
  | some c => w.setCall id (.statement stmt retried c)

/-- `_do` of `fetch_all`. -/
def attemptRead : World σ :=
  match w.live with
  | none => w.finish id .read false
  | some _ => w.setCall id (.reading retried)

/-- What follows `ensure_available`. -/
def proceed : Next σ → World σ
  | .start .read => w.attemptRead id false
  | .start task => w.setCall id (.waiting task)
  | .retryWrite stmt => w.attemptWrite id stmt true
  | .retryRead => w.attemptRead id true

/-- `ensure_available`, up to its first await. -/
def ensure (next : Next σ) : World σ :=
  match w.live with
  | some _ => w.proceed id next
  | none =>
    match w.opener with
    | some _ => w.setCall id (.ensuring next)
    | none => { w.setCall id (.connecting next) with opener := some id }

/-- `ensure_available` raises. -/
def notAvailable (next : Next σ) : World σ :=
  { w.finish id next.task false with live := none, opener := none }

/-- `retry_once_on_dead_handle`, past an attempt that raised. -/
def retryOnce (next : Next σ) (retried dead : Bool) : World σ :=
  if dead && !retried then w.ensure id next else w.finish id next.task false

/-! ## Writing -/

/-- A statement on a connection: its transaction afterwards, and, if it raised, whether the
error looks like a dead connection.  The driver waits for a write lock held elsewhere until
it gives up. -/
def runStatement (reply : Reply) :
    Txn σ × Option Bool :=
  let t := w.conns c
  if w.lockedElsewhere c then (t.after w.durable .begun, some true)
  else
    match reply with
    | .failed f => (t.after w.durable f.left, some f.dead)
    | .done =>
      match stmt (t.visible w.durable) with
      | none => (t.after w.durable .writing, some false)
      | some tables => (.writing tables (t.statements ++ [(id, stmt)]), none)

/-- `commit` on a connection. -/
def commitConn : World σ :=
  { w.setConn c .closed with
    durable := (w.conns c).visible w.durable
    committed := w.committed ++ (w.conns c).statements }

/-- The call gets `_write_lock`. -/
def acquire (task : Task σ) : World σ :=
  match w.live with
  | none => w.finish id task false
  | some c =>
    match task with
    | .write stmt => { w.setCall id (.statement stmt false c) with writer := some id }
    | .block body => { w.setCall id (.begin body c) with writer := some id }
    | .read => w

/-- Past the statement of `execute`: `self._conn` is read again for the commit. -/
def afterStatement (c : Nat) (reply : Reply) : World σ :=
  let r := w.runStatement id c stmt reply
  let w := w.setConn c r.1
  match r.2 with
  | some dead => (w.markDeadIf dead).retryOnce id (.retryWrite stmt) retried dead
  | none =>
    match w.live with
    | none => w.finish id (.write stmt) false
    | some c' => w.setCall id (.commit stmt retried c')

/-- Past the commit of `execute`. -/
def afterCommit (c : Nat) :
    Reply → World σ
  | .done => (w.commitConn c).finish id (.write stmt) true
  | .failed f =>
    ((w.setConn c ((w.conns c).after w.durable f.left)).markDeadIf f.dead).retryOnce id
      (.retryWrite stmt) retried f.dead

/-- Past `BEGIN IMMEDIATE`, which is refused inside an open transaction. -/
def afterBegin (body : List (Statement σ)) (c : Nat) (reply : Reply) : World σ :=
  match w.conns c with
  | .begun | .writing _ _ => w.finish id (.block body) false
  | .closed =>
    if w.lockedElsewhere c then (w.markDeadIf true).finish id (.block body) false
    else
      match reply with
      | .failed f => (w.markDeadIf f.dead).finish id (.block body) false
      | .done => (w.setConn c (.writing w.durable [])).setCall id (.body body body c)

/-- Past an await of the block: a commit that raises is outside the `try`. -/
def afterBody (all rest : List (Statement σ)) (c : Nat) (reply : Reply) : World σ :=
  match rest with
  | [] =>
    match reply with
    | .done => (w.commitConn c).finish id (.block all) true
    | .failed f =>
      (w.setConn c ((w.conns c).after w.durable f.left)).finish id (.block all) false
  | stmt :: rest =>
    let r := w.runStatement id c stmt reply
    match r.2 with
    | some dead => (w.setConn c r.1).setCall id (.rollback all dead c)
    | none => (w.setConn c r.1).setCall id (.body all rest c)

def afterRollback (all : List (Statement σ)) (dead : Bool) (c : Nat) :
    Reply → World σ
  | .done => ((w.setConn c .closed).markDeadIf dead).finish id (.block all) false
  | .failed f =>
    ((w.setConn c ((w.conns c).after w.durable f.left)).markDeadIf (f.dead || dead)).finish id
      (.block all) false

/-! ## Turns -/

/-- One turn of a call that awaits what `s` says. -/
def resume (reply : Reply) : Stage σ → World σ
  | .idle | .ended _ _ => w
  | .ensuring next =>
    match w.opener with
    | some _ => w
    | none => w.ensure id next
  | .connecting next =>
    match reply with
    | .failed _ => w.notAvailable id next
    | .done =>
      { (w.setConn w.opened .closed).setCall id (.configuring next) with
        live := some w.opened
        opened := w.opened + 1 }
  | .configuring next =>
    match reply with
    | .failed _ => w.notAvailable id next
    | .done =>
      match w.live with
      | none => w.notAvailable id next
      | some _ => { w with opener := none }.proceed id next
  | .waiting task =>
    match w.writer with
    | some _ => w
    | none => w.acquire id task
  | .statement stmt retried c => w.afterStatement id stmt retried c reply
  | .commit stmt retried c => w.afterCommit id stmt retried c reply
  | .begin body c => w.afterBegin id body c reply
  | .body all rest c => w.afterBody id all rest c reply
  | .rollback all dead c => w.afterRollback id all dead c reply
  | .reading retried =>
    match reply with
    | .done => w.finish id .read true
    | .failed f => (w.markDeadIf f.dead).retryOnce id .retryRead retried f.dead

/-- The connection that the holder of `_write_lock` works on. -/
def writerConn : Option Nat :=
  match w.writer.map w.calls with
  | some (.statement _ _ c) | some (.commit _ _ c) | some (.begin _ c) | some (.body _ _ c)
  | some (.rollback _ _ c) => some c
  | _ => none

end World

inductive Event (σ : Type*) where
  /-- A call is made. -/
  | call (id : Nat) (task : Task σ)
  /-- The loop resumes a call with the reply to what it awaits. -/
  | turn (id : Nat) (reply : Reply)
  /-- A connection that nothing refers to any more is closed. -/
  | collect (c : Nat)

def step (w : World σ) : Event σ → World σ
  | .call id task =>
    match w.calls id with
    | .idle => w.ensure id (.start task)
    | _ => w
  | .turn id reply => w.resume id reply (w.calls id)
  | .collect c =>
    if w.live = some c ∨ w.writerConn = some c then w else w.setConn c .closed

def World.opening (tables : σ) : World σ := { durable := tables, opened := 1, live := some 0 }

/-! ## Independent units -/

namespace Stage

/-- The call holds `_write_lock`. -/
def locked : Stage σ → Bool
  | ensuring (.retryWrite _) | connecting (.retryWrite _) | configuring (.retryWrite _) => true
  | statement _ _ _ | commit _ _ _ | begin _ _ | body _ _ _ | rollback _ _ _ => true
  | _ => false

/-- The call holds `_lock`. -/
def opens : Stage σ → Bool
  | connecting _ | configuring _ => true
  | _ => false

/-- The retry of `execute` is looking for a connection. -/
def recovering : Stage σ → Bool
  | ensuring (.retryWrite _) | connecting (.retryWrite _) => true
  | _ => false

/-- The call reads `self._conn` when it is resumed. -/
def needsLive : Stage σ → Bool
  | waiting _ | statement _ _ _ | commit _ _ _ => true
  | _ => false

/-- The connection in whose transaction the call has run statements. -/
def owns : Stage σ → Option Nat
  | commit _ _ c | body _ _ c | rollback _ _ c => some c
  | _ => none

def applied : Stage σ → List (Statement σ)
  | ended task true => task.statements
  | _ => []

end Stage

def World.committedOf (w : World σ) (id : Nat) : List (Statement σ) :=
  (w.committed.filter (·.1 = id)).map (·.2)

/-- The calls are independent units: what a call that returned issued is durable, once and
nothing else of it; nothing is durable of a call that raised; and when no write is under
way, one that waits finds a connection with no transaction, and no connection holds the
write lock. -/
structure Independent (tables : σ) (w : World σ) : Prop where
  durable : w.durable = runBody (w.committed.map (·.2)) tables
  applied : ∀ id task, w.calls id = .ended task true → w.committedOf id = task.statements
  unapplied : ∀ id task, w.calls id = .ended task false → w.committedOf id = []
  found : w.writer = none → ∀ id task, w.calls id = .waiting task → w.live ≠ none
  noneOpen : w.writer = none → ∀ c, w.live = some c → w.conns c = .closed
  unlocked : w.writer = none → ∀ c, (w.conns c).isWriting = false

/-- No other call reads `self._conn` when it is resumed. -/
def World.alone (w : World σ) (id : Nat) : Prop :=
  ∀ other, other ≠ id → (w.calls other).needsLive = false

/-- The turn of a call at `s` leaves no transaction behind, and no connection of others
dead. -/
def CleanTurn (w : World σ) (id : Nat) (reply : Reply) : Stage σ → Prop
  | .statement stmt retried _ =>
    match reply with
    | .done => (stmt w.durable).isSome
    | .failed f =>
      if f.dead then f.left ≠ .writing ∧ (retried = true → w.alone id)
      else f.left = .closed
  | .commit _ retried _ =>
    match reply with
    | .done => True
    | .failed f => f.left = .closed ∧ (f.dead = true → retried = true → w.alone id)
  | .begin _ _ =>
    match reply with
    | .done => True
    | .failed f => f.dead = true → w.alone id
  | .body _ [] _ =>
    match reply with
    | .done => True
    | .failed f => f.left = .closed
  | .rollback _ dead _ =>
    match reply with
    | .done => dead = true → w.alone id
    | .failed f => f.left = .closed ∧ ((f.dead || dead) = true → w.alone id)
  | .reading _ =>
    match reply with
    | .done => True
    | .failed f => f.dead = true → w.alone id
  | .connecting (.retryWrite _) | .configuring _ =>
    match reply with
    | .done => True
    | .failed _ => w.alone id
  | _ => True

/-- A statement of `execute` satisfies the constraints, or fails before the driver's `BEGIN`,
or fails as a dead connection without the write lock; a commit or a rollback that fails has
rolled back; and `self._conn` becomes `None` under no other call that reads it. -/
def Clean (w : World σ) : Event σ → Prop
  | .turn id reply => CleanTurn w id reply (w.calls id)
  | .call _ _ | .collect _ => True

/-! ## What holds between turns -/

/-- The retry of a write is looking for a connection. -/
def World.recovers (w : World σ) : Prop :=
  ∃ id, w.writer = some id ∧ (w.calls id).recovering = true

def Fits (w : World σ) (id : Nat) : Stage σ → Prop
  | .connecting _ => w.live = none
  | .waiting _ => w.live ≠ none ∨ w.recovers
  | .statement _ _ c => w.live = some c ∧ w.conns c = .closed
  | .commit stmt _ c =>
    w.live = some c ∧ w.conns c = .writing (runBody [stmt] w.durable) [(id, stmt)]
  | .begin _ c => c < w.opened ∧ w.conns c = .closed
  | .body all rest c =>
    ∃ done, all = done ++ rest ∧
      w.conns c = .writing (runBody done w.durable) (done.map fun stmt => (id, stmt))
  | _ => True

structure Inv (tables : σ) (w : World σ) : Prop where
  durable : w.durable = runBody (w.committed.map (·.2)) tables
  applied : ∀ id, w.committedOf id = (w.calls id).applied
  locked : ∀ id, (w.calls id).locked = true ↔ w.writer = some id
  opens : ∀ id, (w.calls id).opens = true ↔ w.opener = some id
  fresh : ∀ c, w.opened ≤ c → w.conns c = .closed
  live : ∀ c, w.live = some c → c < w.opened ∧ w.conns c ≠ .begun
  owned : ∀ c, (w.conns c).isWriting = true →
    ∃ id, w.writer = some id ∧ (w.calls id).owns = some c
  fits : ∀ id, Fits w id (w.calls id)

theorem Stage.locked_of_owns {s : Stage σ} {c : Nat} (hOwns : s.owns = some c) :
    s.locked = true := by
  cases s <;> simp_all [Stage.owns, Stage.locked]

theorem Inv.independent {tables : σ} {w : World σ} (h : Inv tables w) : Independent tables w where
  durable := h.durable
  applied := by
    intro id task hEnded
    simpa [hEnded, Stage.applied] using h.applied id
  unapplied := by
    intro id task hEnded
    simpa [hEnded, Stage.applied] using h.applied id
  found := by
    intro hWriter id task hWaiting
    have hFits := h.fits id
    rw [hWaiting] at hFits
    cases hFits with
    | inl hLive => exact hLive
    | inr hRecovers =>
      obtain ⟨other, hOther, -⟩ := hRecovers
      simp [hWriter] at hOther
  noneOpen := by
    intro hWriter c hLive
    cases hConn : w.conns c with
    | closed => rfl
    | begun => exact absurd hConn (h.live c hLive).2
    | writing t ss =>
      obtain ⟨id, hId, -⟩ := h.owned c (by simp [hConn, Txn.isWriting])
      simp [hWriter] at hId
  unlocked := by
    intro hWriter c
    by_contra hWriting
    obtain ⟨id, hId, -⟩ := h.owned c (by simpa using hWriting)
    simp [hWriter] at hId

/-! ## One turn -/

section

variable {tables : σ} {w w' : World σ} {id : Nat} {s : Stage σ}

def Stage.worksOn : Stage σ → Option Nat
  | statement _ _ c | commit _ _ c | begin _ c | body _ _ c | rollback _ _ c => some c
  | _ => none

/-- A call holds `_write_lock`, and is at work on a connection. -/
structure Working (w : World σ) (id c : Nat) : Prop where
  holds : w.writer = some id
  recovering : (w.calls id).recovering = false
  opens : (w.calls id).opens = false
  owns : (w.calls id).owns = none ∨ (w.calls id).owns = some c
  nothing : (w.calls id).applied = []

theorem Inv.working (h : Inv tables w) {c : Nat} (hStage : w.calls id = s)
    (hWorks : s.worksOn = some c) : Working w id c := by
  have hLocked := h.locked id
  rw [hStage] at hLocked
  cases s with
  | statement _ _ _ | commit _ _ _ | begin _ _ | body _ _ _ | rollback _ _ _ =>
    cases hWorks
    exact ⟨hLocked.mp rfl, by rw [hStage]; rfl, by rw [hStage]; rfl,
      by simp [hStage, Stage.owns], by rw [hStage]; rfl⟩
  | _ => cases hWorks

/-- The lock `holder` after a turn of `id`, which then holds it or not. -/
def lockAfter (holder : Option Nat) (id : Nat) (held : Bool) : Option Nat :=
  if held then some id else if holder = some id then none else holder

variable {holder : Option Nat}

theorem lockAfter_iff {id : Nat} {held : Bool}
    (hFree : held = true → holder = none ∨ holder = some id) {before after : Nat → Bool}
    (hBefore : ∀ other, before other = true ↔ holder = some other) (hSelf : after id = held)
    (hOther : ∀ other, other ≠ id → after other = before other) (other : Nat)
    : after other = true ↔ lockAfter holder id held = some other := by
  by_cases hId : other = id
  · subst hId
    cases held with
    | true => simp [hSelf, lockAfter]
    | false => by_cases hHolder : holder = some other <;> simp [hSelf, lockAfter, hHolder]
  · rw [hOther other hId, hBefore other]
    cases held with
    | true =>
      have hHolder := hFree rfl
      simp only [lockAfter, if_true, Option.some.injEq, Ne.symm hId, iff_false]
      rcases hHolder with hNone | hSome
      · simp [hNone]
      · simp [hSome, Ne.symm hId]
    | false =>
      by_cases hHolder : holder = some id
      · simp [lockAfter, hHolder, Ne.symm hId]
      · simp [lockAfter, hHolder]

theorem Inv.next (h : Inv tables w) (hCalls : w'.calls = update w.calls id s)
    (hDurable : w'.durable = runBody (w'.committed.map (·.2)) tables)
    (hApplied : ∀ other, w'.committedOf other =
      if other = id then s.applied else w.committedOf other)
    (hWriter : w'.writer = lockAfter w.writer id s.locked)
    (hFree : s.locked = true → w.writer = none ∨ w.writer = some id)
    (hOpener : w'.opener = lockAfter w.opener id s.opens)
    (hOpening : s.opens = true → w.opener = none ∨ w.opener = some id)
    (hFresh : ∀ c, w'.opened ≤ c → w'.conns c = .closed)
    (hLive : ∀ c, w'.live = some c → c < w'.opened ∧ w'.conns c ≠ .begun)
    (hOwned : ∀ c, (w'.conns c).isWriting = true →
      s.owns = some c ∨ w.writer ≠ some id ∧ (w.conns c).isWriting = true)
    (hSelf : Fits w' id s)
    (hOthers : ∀ other, other ≠ id → Fits w other (w.calls other) → Fits w' other (w.calls other)) :
    Inv tables w' where
  durable := hDurable
  applied := by
    intro other
    rw [hApplied, hCalls]
    by_cases hId : other = id
    · simp [hId]
    · simp [hId, h.applied other]
  locked := by
    rw [hWriter, hCalls]
    exact lockAfter_iff hFree h.locked (by simp) (fun other hId => by simp [hId])
  opens := by
    rw [hOpener, hCalls]
    exact lockAfter_iff hOpening h.opens (by simp) (fun other hId => by simp [hId])
  fresh := hFresh
  live := hLive
  owned := by
    intro c hWriting
    rcases hOwned c hWriting with hOwns | ⟨hNot, hBefore⟩
    · refine ⟨id, ?_, by simp [hCalls, hOwns]⟩
      rw [hWriter, Stage.locked_of_owns hOwns]
      rfl
    · obtain ⟨other, hOther, hOwns⟩ := h.owned c hBefore
      have hId : other ≠ id := fun hEq => hNot (hEq ▸ hOther)
      have hUnlocked : s.locked = false := by
        by_contra hLocked
        rcases hFree (by simpa using hLocked) with hNone | hSome
        · simp [hNone] at hOther
        · exact hNot hSome
      refine ⟨other, ?_, by simp [hCalls, hId, hOwns]⟩
      rw [hWriter, hUnlocked]
      simp [lockAfter, hOther, hId]
  fits := by
    intro other
    rw [hCalls]
    by_cases hId : other = id
    · subst hId
      simpa using hSelf
    · simpa [hId] using hOthers other hId (h.fits other)

theorem Inv.writer_of_owned (h : Inv tables w) {c : Nat} (hWriting : (w.conns c).isWriting = true)
    (hWriter : w.writer = some id) : (w.calls id).owns = some c := by
  obtain ⟨other, hOther, hOwns⟩ := h.owned c hWriting
  rw [hWriter] at hOther
  cases hOther
  exact hOwns

/-- The retry of another write goes on looking for a connection. -/
theorem World.recovers_of_other (hCalls : w'.calls = update w.calls id s)
    (hWriter : w'.writer = lockAfter w.writer id s.locked)
    (hFree : s.locked = true → w.writer = none ∨ w.writer = some id)
    (hStage : (w.calls id).recovering = false) (hRecovers : w.recovers) : w'.recovers := by
  obtain ⟨other, hOther, hRecovering⟩ := hRecovers
  have hId : other ≠ id := by
    rintro rfl
    simp [hStage] at hRecovering
  have hUnlocked : s.locked = false := by
    by_contra hLocked
    rcases hFree (by simpa using hLocked) with hNone | hSome
    · simp [hNone] at hOther
    · rw [hSome] at hOther
      exact hId (Option.some.inj hOther).symm
  refine ⟨other, ?_, by simpa [hCalls, hId] using hRecovering⟩
  rw [hWriter, hUnlocked]
  simp [lockAfter, hOther, hId]

variable {other : Nat}

theorem fits_of_quiet (hDurable : w'.durable = w.durable) (hConns : w'.conns = w.conns)
    (hOpened : w'.opened = w.opened)
    (hLive : w'.live = w.live ∧ (w.recovers → w'.live ≠ none ∨ w'.recovers) ∨ w'.live = none ∧
      s.needsLive = false)
    (hFits : Fits w other s) : Fits w' other s := by
  rcases hLive with ⟨hLive, hRecovers⟩ | ⟨hLive, hNeeds⟩
  · cases s with
    | waiting task =>
      rcases hFits with hSome | hBefore
      · exact .inl (by rwa [hLive])
      · exact hRecovers hBefore
    | connecting next => exact hLive.trans hFits
    | statement _ _ _ | commit _ _ _ | begin _ _ | body _ _ _ =>
      simpa only [Fits, hDurable, hConns, hOpened, hLive] using hFits
    | _ => trivial
  · cases s with
    | waiting _ | statement _ _ _ | commit _ _ _ => simp [Stage.needsLive] at hNeeds
    | connecting next => exact hLive
    | begin _ _ | body _ _ _ => simpa only [Fits, hDurable, hConns, hOpened] using hFits
    | _ => trivial

theorem Inv.quiet (h : Inv tables w) (hCalls : w'.calls = update w.calls id s)
    (hSame : w'.durable = w.durable ∧ w'.committed = w.committed ∧ w'.conns = w.conns ∧
      w'.opened = w.opened)
    (hApplied : s.applied = (w.calls id).applied)
    (hWriter : w'.writer = lockAfter w.writer id s.locked)
    (hFree : s.locked = true → w.writer = none ∨ w.writer = some id)
    (hOpener : w'.opener = lockAfter w.opener id s.opens)
    (hOpening : s.opens = true → w.opener = none ∨ w.opener = some id)
    (hOwns : (w.calls id).owns = none)
    (hLive : w'.live = w.live ∧ (w.recovers → w'.live ≠ none ∨ w'.recovers) ∨
      w'.live = none ∧ w.alone id)
    (hSelf : Fits w' id s) : Inv tables w' := by
  obtain ⟨hDurable, hCommitted, hConns, hOpened⟩ := hSame
  refine h.next hCalls ?_ ?_ hWriter hFree hOpener hOpening ?_ ?_ ?_ hSelf ?_
  · rw [hDurable, hCommitted, h.durable]
  · intro other
    have hOf : w'.committedOf other = w.committedOf other := by
      simp [World.committedOf, hCommitted]
    rw [hOf]
    by_cases hId : other = id
    · simp [hId, hApplied, h.applied id]
    · simp [hId]
  · rw [hOpened, hConns]
    exact h.fresh
  · intro c hSome
    rw [hOpened, hConns]
    rcases hLive with ⟨hSameLive, -⟩ | ⟨hNone, -⟩
    · exact h.live c (hSameLive ▸ hSome)
    · simp [hNone] at hSome
  · intro c hWriting
    rw [hConns] at hWriting
    refine .inr ⟨fun hHeld => ?_, hWriting⟩
    simpa [hOwns] using h.writer_of_owned hWriting hHeld
  · intro other hId hFits
    refine fits_of_quiet hDurable hConns hOpened ?_ hFits
    rcases hLive with hSameLive | ⟨hNone, hAlone⟩
    · exact .inl hSameLive
    · exact .inr ⟨hNone, hAlone other hId⟩

theorem fits_of_unlocked (hUnlocked : s.locked = false) (hLive : w'.live = w.live ∨ w'.live = none)
    (hWaiting : ∀ task, s = .waiting task → w'.live ≠ none ∨ w'.recovers) (hFits : Fits w other s)
    : Fits w' other s := by
  cases s with
  | connecting next =>
    rcases hLive with hSame | hNone
    · exact hSame.trans hFits
    · exact hNone
  | waiting task => exact hWaiting task rfl
  | statement _ _ _ | commit _ _ _ | begin _ _ | body _ _ _ | rollback _ _ _ =>
    simp [Stage.locked] at hUnlocked
  | _ => trivial

variable {t : Txn σ}

theorem Inv.held {c : Nat} (h : Inv tables w) (hWork : Working w id c)
    (hCalls : w'.calls = update w.calls id s) (hConns : w'.conns = update w.conns c t)
    (hOpened : w'.opened = w.opened)
    (hDurable : w'.durable = runBody (w'.committed.map (·.2)) tables)
    (hApplied : ∀ other, w'.committedOf other =
      if other = id then s.applied else w.committedOf other)
    (hWriter : w'.writer = lockAfter w.writer id s.locked) (hOpener : w'.opener = w.opener)
    (hOpens : s.opens = false) (hFresh : c < w.opened ∨ t = .closed)
    (hBegun : t = .begun → w'.live ≠ some c) (hOwns : t.isWriting = true → s.owns = some c)
    (hLive : w'.live = w.live ∨ w'.live = none ∧ (w.alone id ∨ w'.recovers)) (hSelf : Fits w' id s)
    : Inv tables w' := by
  have hNotOpener : w.opener ≠ some id := by
    intro hOpening
    simpa [hWork.opens] using (h.opens id).mpr hOpening
  refine h.next hCalls hDurable hApplied hWriter (fun _ => .inr hWork.holds) ?_ ?_ ?_ ?_ ?_ hSelf ?_
  · simp [hOpener, hOpens, lockAfter, hNotOpener]
  · simp [hOpens]
  · intro other hAbove
    rw [hOpened] at hAbove
    rw [hConns]
    by_cases hConn : other = c
    · subst hConn
      rcases hFresh with hBelow | hClosed
      · omega
      · simp [hClosed]
    · simpa [hConn] using h.fresh other hAbove
  · intro other hSome
    have hBefore : w.live = some other := by
      rcases hLive with hSame | ⟨hNone, -⟩
      · rwa [hSame] at hSome
      · simp [hNone] at hSome
    rw [hOpened, hConns]
    refine ⟨(h.live other hBefore).1, ?_⟩
    by_cases hConn : other = c
    · subst hConn
      simpa using fun hTxn => hBegun hTxn hSome
    · simpa [hConn] using (h.live other hBefore).2
  · intro other hWriting
    rw [hConns] at hWriting
    by_cases hConn : other = c
    · subst hConn
      exact .inl (hOwns (by simpa using hWriting))
    · have hOther := h.writer_of_owned (by simpa [hConn] using hWriting) hWork.holds
      rcases hWork.owns with hNone | hSome
      · simp [hNone] at hOther
      · rw [hSome] at hOther
        exact absurd (Option.some.inj hOther).symm hConn
  · intro other hId hFits
    have hUnlocked : (w.calls other).locked = false := by
      by_contra hLocked
      have hOther := (h.locked other).mp (by simpa using hLocked)
      rw [hWork.holds] at hOther
      exact hId (Option.some.inj hOther).symm
    refine fits_of_unlocked hUnlocked (hLive.imp_right And.left) ?_ hFits
    intro task hWaiting
    rcases hLive with hSame | ⟨hNone, hAlone | hRecovers⟩
    · rw [hWaiting] at hFits
      rcases hFits with hSome | ⟨writer, hWriterIs, hRecovering⟩
      · exact .inl (hSame ▸ hSome)
      · rw [hWork.holds] at hWriterIs
        cases hWriterIs
        simp [hWork.recovering] at hRecovering
    · simpa [hWaiting, Stage.needsLive] using hAlone other hId
    · exact .inr hRecovers

/-! ## Finding a connection -/

theorem lockAfter_self {held : Bool} (hHolder : held = true ↔ holder = some id)
    : lockAfter holder id held = holder := by
  cases held with
  | true => simpa [lockAfter, eq_comm] using hHolder
  | false =>
    have hOther : holder ≠ some id := by simpa using hHolder
    simp [lockAfter, hOther]

theorem Inv.lockAfter_writer (h : Inv tables w) (hLocked : s.locked = (w.calls id).locked) :
    lockAfter w.writer id s.locked = w.writer :=
  lockAfter_self (hLocked ▸ h.locked id)

theorem Inv.lockAfter_opener (h : Inv tables w) (hOpens : s.opens = (w.calls id).opens) :
    lockAfter w.opener id s.opens = w.opener :=
  lockAfter_self (hOpens ▸ h.opens id)

/-- A turn that changes what the call awaits, and nothing else. -/
theorem Inv.setCall (h : Inv tables w) (hApplied : s.applied = (w.calls id).applied)
    (hLocked : s.locked = (w.calls id).locked) (hOpens : s.opens = (w.calls id).opens)
    (hOwns : (w.calls id).owns = none)
    (hRecovers : w.recovers → w.live ≠ none ∨ (w.setCall id s).recovers)
    (hSelf : Fits (w.setCall id s) id s) : Inv tables (w.setCall id s) := by
  refine h.quiet rfl ⟨rfl, rfl, rfl, rfl⟩ hApplied ?_ ?_ ?_ ?_ hOwns (.inl ⟨rfl, hRecovers⟩) hSelf
  · exact (h.lockAfter_writer hLocked).symm
  · exact fun hHeld => .inr ((h.locked id).mp (hLocked ▸ hHeld))
  · exact (h.lockAfter_opener hOpens).symm
  · exact fun hHeld => .inr ((h.opens id).mp (hOpens ▸ hHeld))

/-- A connection in use has no transaction, unless a write is at work on it. -/
theorem Inv.closed_of_live (h : Inv tables w) {c : Nat} (hLive : w.live = some c)
    (hOwner : ∀ writer, w.writer = some writer → (w.calls writer).owns = none) :
    w.conns c = .closed := by
  cases hConn : w.conns c with
  | closed => rfl
  | begun => exact absurd hConn (h.live c hLive).2
  | writing t ss =>
    obtain ⟨writer, hWriter, hOwns⟩ := h.owned c (by simp [hConn, Txn.isWriting])
    simp [hOwner writer hWriter] at hOwns

theorem World.ensure_setCall (w : World σ) (id : Nat) (s : Stage σ) (next : Next σ) :
    (w.setCall id s).ensure id next = w.ensure id next := by
  cases hLive : w.live with
  | none => cases hOpener : w.opener <;> simp [World.ensure, World.setCall, hLive, hOpener]
  | some c =>
    cases next with
    | start task => cases task <;> simp [World.ensure, World.proceed, World.attemptRead,
        World.setCall, hLive]
    | retryWrite stmt | retryRead => simp [World.ensure, World.proceed, World.attemptWrite,
        World.attemptRead, World.setCall, hLive]

section

variable (h : Inv tables w)

include h

theorem Inv.ensure (id : Nat) (next : Next σ) (hStage : w.calls id = .ensuring next) :
    Inv tables (w.ensure id next) := by
  have hNotOpening : (w.calls id).opens = false := by simp [hStage, Stage.opens]
  cases hLive : w.live with
  | none =>
    cases hOpener : w.opener with
    | some other =>
      have hSame : w.ensure id next = w := by
        unfold World.ensure
        rw [hLive, hOpener]
        simp only [World.setCall, ← hStage, update_eq_self]
      rw [hSame]
      exact h
    | none =>
      have hEnsure : w.ensure id next =
          { w.setCall id (.connecting next) with opener := some id } := by
        simp [World.ensure, hLive, hOpener]
      have hLocked : (Stage.connecting next).locked = (w.calls id).locked := by
        rw [hStage]
        cases next <;> rfl
      rw [hEnsure]
      refine h.quiet rfl ⟨rfl, rfl, rfl, rfl⟩ (by simp [hStage, Stage.applied])
        (h.lockAfter_writer hLocked).symm (fun hHeld => .inr ((h.locked id).mp
          (hLocked ▸ hHeld))) rfl (fun _ => .inl hOpener) (by simp [hStage, Stage.owns])
        (.inl ⟨rfl, ?_⟩) hLive
      rintro ⟨writer, hWriter, hRecovering⟩
      refine .inr ⟨writer, hWriter, ?_⟩
      by_cases hId : writer = id
      · subst hId
        cases next <;> simp_all [World.setCall, Stage.recovering]
      · simpa [World.setCall, hId] using hRecovering
  | some c =>
    have hEnsure : w.ensure id next = w.proceed id next := by simp [World.ensure, hLive]
    have hSet : ∀ s : Stage σ, s.applied = [] → s.locked = (Stage.ensuring next).locked →
        s.opens = false → Fits (w.setCall id s) id s → Inv tables (w.setCall id s) :=
      fun s hApplied hLocked hOpens => h.setCall (by rw [hStage, hApplied]; rfl)
        (by rw [hStage, hLocked]) (by rw [hStage, hOpens]; rfl) (by simp [hStage, Stage.owns])
        (fun _ => .inl (by simp [hLive]))
    rw [hEnsure]
    cases next with
    | start task =>
      cases task with
      | read =>
        simp only [World.proceed, World.attemptRead, hLive]
        exact hSet _ rfl rfl rfl trivial
      | write stmt | block body =>
        exact hSet _ rfl rfl rfl (.inl (by simp [World.setCall, hLive]))
    | retryWrite stmt =>
      have hWriter : w.writer = some id := (h.locked id).mp (by simp [hStage, Stage.locked])
      have hClosed : w.conns c = .closed := by
        refine h.closed_of_live hLive fun writer hHolder => ?_
        rw [hWriter] at hHolder
        cases hHolder
        simp [hStage, Stage.owns]
      simp only [World.proceed, World.attemptWrite, hLive]
      exact hSet _ rfl rfl rfl ⟨hLive, hClosed⟩
    | retryRead =>
      simp only [World.proceed, World.attemptRead, hLive]
      exact hSet _ rfl rfl rfl trivial

/-- The same from a stage that holds what `ensure_available` is called with. -/
theorem Inv.ensure_of_stage {next : Next σ} (hApplied : (w.calls id).applied = [])
    (hOwns : (w.calls id).owns = none) (hOpens : (w.calls id).opens = false)
    (hLocked : (w.calls id).locked = (Stage.ensuring next).locked)
    (hStage : (w.calls id).recovering = false) :
    Inv tables (w.ensure id next) := by
  have hEnsuring : Inv tables (w.setCall id (.ensuring next)) := by
    refine h.setCall (by rw [hApplied]; rfl) hLocked.symm (by rw [hOpens]; rfl) hOwns ?_ trivial
    refine fun hRecovers => .inr (World.recovers_of_other rfl ?_ ?_ hStage hRecovers)
    · exact (h.lockAfter_writer hLocked.symm).symm
    · exact fun hHeld => .inr ((h.locked id).mp (hLocked ▸ hHeld))
  have hEnsured := hEnsuring.ensure id next (by simp [World.setCall])
  rwa [World.ensure_setCall] at hEnsured

/-- A call that ends without having run anything in an open transaction. -/
theorem Inv.finish (task : Task σ) (returned dead : Bool)
    (hApplied : (Stage.ended task returned).applied = (w.calls id).applied)
    (hOwns : (w.calls id).owns = none) (hOpens : (w.calls id).opens = false)
    (hStage : (w.calls id).recovering = false) (hDead : dead = true → w.alone id) :
    Inv tables ((w.markDeadIf dead).finish id task returned) := by
  have hNotOpener : w.opener ≠ some id := by
    intro hOpening
    simpa [hOpens] using (h.opens id).mpr hOpening
  cases dead with
  | true =>
    exact h.quiet rfl ⟨rfl, rfl, rfl, rfl⟩ hApplied rfl (by simp [Stage.locked])
      (by simp [World.markDeadIf, World.finish, World.setCall, lockAfter, Stage.opens,
        hNotOpener]) (by simp [Stage.opens]) hOwns (.inr ⟨rfl, hDead rfl⟩) trivial
  | false =>
    refine h.quiet rfl ⟨rfl, rfl, rfl, rfl⟩ hApplied rfl (by simp [Stage.locked])
      (by simp [World.markDeadIf, World.finish, World.setCall, lockAfter, Stage.opens,
        hNotOpener]) (by simp [Stage.opens]) hOwns (.inl ⟨rfl, ?_⟩) trivial
    exact fun hRecovers => .inr
      (World.recovers_of_other rfl rfl (by simp [Stage.locked]) hStage hRecovers)

theorem Inv.notAvailable {next : Next σ}
    (hStage : w.calls id = .connecting next ∨ w.calls id = .configuring next)
    (hAlone : w.alone id ∨ w.live = none ∧ (w.calls id).recovering = false) :
    Inv tables (w.notAvailable id next) := by
  have hOpener : w.opener = some id := by
    refine (h.opens id).mp ?_
    rcases hStage with hStage | hStage <;> simp [hStage, Stage.opens]
  have hOwns : (w.calls id).owns = none := by
    rcases hStage with hStage | hStage <;> simp [hStage, Stage.owns]
  have hApplied : (w.calls id).applied = [] := by
    rcases hStage with hStage | hStage <;> simp [hStage, Stage.applied]
  refine h.quiet rfl ⟨rfl, rfl, rfl, rfl⟩ (by rw [hApplied]; rfl) rfl (by simp [Stage.locked])
    (by simp [World.notAvailable, lockAfter, Stage.opens, hOpener]) (by simp [Stage.opens])
    hOwns ?_ trivial
  rcases hAlone with hAlone | ⟨hLive, hRecovering⟩
  · exact .inr ⟨rfl, hAlone⟩
  · exact .inl ⟨hLive.symm, fun hRecovers => .inr
      (World.recovers_of_other rfl rfl (by simp [Stage.locked]) hRecovering hRecovers)⟩

theorem Inv.connected {next : Next σ} (hStage : w.calls id = .connecting next) :
    Inv tables (w.resume id .done (.connecting next)) := by
  have hDead : w.live = none := by
    have hFits := h.fits id
    rwa [hStage] at hFits
  have hConns : update w.conns w.opened .closed = w.conns := by
    rw [← h.fresh w.opened (Nat.le_refl _), update_eq_self]
  have hOpener : w.opener = some id := (h.opens id).mp (by simp [hStage, Stage.opens])
  have hLocked : (Stage.configuring next).locked = (w.calls id).locked := by
    rw [hStage]
    cases next <;> rfl
  refine h.next (s := .configuring next) rfl h.durable ?_ (h.lockAfter_writer hLocked).symm
    (fun hHeld => .inr ((h.locked id).mp (hLocked ▸ hHeld))) hOpener (fun _ => .inr hOpener)
    ?_ ?_ ?_ trivial ?_
  · intro other
    show w.committedOf other = _
    by_cases hId : other = id
    · subst hId
      simpa [hStage, Stage.applied] using h.applied other
    · simp [hId]
  · intro c hAbove
    simp only [World.resume, World.setCall, World.setConn, hConns] at hAbove ⊢
    exact h.fresh c (by omega)
  · intro c hSome
    simp only [World.resume, World.setCall, World.setConn, hConns, Option.some.injEq] at hSome ⊢
    subst hSome
    exact ⟨by omega, by simp [h.fresh w.opened (Nat.le_refl _)]⟩
  · intro c hWriting
    simp only [World.resume, World.setCall, World.setConn, hConns] at hWriting
    refine .inr ⟨fun hHeld => ?_, hWriting⟩
    simpa [hStage, Stage.owns] using h.writer_of_owned hWriting hHeld
  · intro other hId hFits
    cases hOther : w.calls other with
    | connecting next' =>
      have hOpening := (h.opens other).mp (by simp [hOther, Stage.opens])
      rw [hOpener] at hOpening
      exact absurd (Option.some.inj hOpening).symm hId
    | waiting task => exact .inl (by simp [World.resume])
    | statement _ _ _ | commit _ _ _ =>
      rw [hOther] at hFits
      simp [Fits, hDead] at hFits
    | begin body c =>
      rw [hOther] at hFits
      simp only [Fits, World.resume, World.setCall, World.setConn, hConns] at hFits ⊢
      exact ⟨by omega, hFits.2⟩
    | body all rest c =>
      rw [hOther] at hFits
      simpa only [Fits, World.resume, World.setCall, World.setConn, hConns] using hFits
    | _ => trivial

theorem Inv.configured {next : Next σ} (hStage : w.calls id = .configuring next) :
    Inv tables (w.resume id .done (.configuring next)) := by
  have hOpener : w.opener = some id := (h.opens id).mp (by simp [hStage, Stage.opens])
  have hRecovering : (w.calls id).recovering = false := by simp [hStage, Stage.recovering]
  have hLocked : (Stage.ensuring next).locked = (w.calls id).locked := by
    rw [hStage]
    cases next <;> rfl
  cases hLive : w.live with
  | none =>
    have hResume : w.resume id .done (.configuring next) = w.notAvailable id next := by
      simp [World.resume, hLive]
    rw [hResume]
    exact h.notAvailable (.inr hStage) (.inr ⟨hLive, hRecovering⟩)
  | some c =>
    have hEnsuring : Inv tables { w.setCall id (.ensuring next) with opener := none } := by
      refine h.quiet rfl ⟨rfl, rfl, rfl, rfl⟩ (by simp [hStage, Stage.applied])
        (h.lockAfter_writer hLocked).symm
        (fun hHeld => .inr ((h.locked id).mp (hLocked ▸ hHeld)))
        (by simp [lockAfter, Stage.opens, hOpener]) (by simp [Stage.opens])
        (by simp [hStage, Stage.owns]) (.inl ⟨rfl, fun _ => .inl ?_⟩) trivial
      simp [World.setCall, hLive]
    have hEnsured := hEnsuring.ensure id next (by simp [World.setCall])
    have hResume : w.resume id .done (.configuring next) =
        ({ w with opener := none } : World σ).ensure id next := by
      simp [World.resume, World.ensure, hLive]
    rw [hResume, ← World.ensure_setCall _ id (.ensuring next)]
    exact hEnsured

theorem Inv.acquire {task : Task σ} (hStage : w.calls id = .waiting task)
    (hFree : w.writer = none) :
    Inv tables (w.acquire id task) := by
  have hNoOwner : ∀ writer, w.writer = some writer → (w.calls writer).owns = none := by
    simp [hFree]
  have hNotRecovers : ¬ w.recovers := by
    rintro ⟨writer, hWriter, -⟩
    simp [hFree] at hWriter
  have hNotOpener : w.opener ≠ some id := by
    intro hOpening
    simpa [hStage, Stage.opens] using (h.opens id).mpr hOpening
  have hFits := h.fits id
  rw [hStage] at hFits
  have hSome : w.live ≠ none := hFits.resolve_right hNotRecovers
  obtain ⟨c, hLive⟩ := Option.ne_none_iff_exists'.mp hSome
  have hClosed := h.closed_of_live hLive hNoOwner
  cases task with
  | read =>
    simpa [World.acquire, hLive] using h
  | write stmt =>
    simp only [World.acquire, hLive]
    exact h.quiet (s := .statement stmt false c) rfl ⟨rfl, rfl, rfl, rfl⟩
      (by simp [hStage, Stage.applied]) rfl (fun _ => .inl hFree)
      (by simp [World.setCall, lockAfter, Stage.opens, hNotOpener]) (by simp [Stage.opens])
      (by simp [hStage, Stage.owns])
      (.inl ⟨rfl, fun hRecovers => absurd hRecovers hNotRecovers⟩) ⟨hLive, hClosed⟩
  | block body =>
    simp only [World.acquire, hLive]
    exact h.quiet (s := .begin body c) rfl ⟨rfl, rfl, rfl, rfl⟩
      (by simp [hStage, Stage.applied]) rfl (fun _ => .inl hFree)
      (by simp [World.setCall, lockAfter, Stage.opens, hNotOpener]) (by simp [Stage.opens])
      (by simp [hStage, Stage.owns])
      (.inl ⟨rfl, fun hRecovers => absurd hRecovers hNotRecovers⟩)
      ⟨(h.live c hLive).1, hClosed⟩

/-! ## Writing -/

theorem Inv.not_lockedElsewhere {c : Nat} (hWork : Working w id c) :
    w.lockedElsewhere c = false := by
  simp only [World.lockedElsewhere, List.any_eq_false, Bool.and_eq_true, decide_eq_true_eq]
  rintro other - ⟨hOther, hWriting⟩
  have hOwner := h.writer_of_owned hWriting hWork.holds
  rcases hWork.owns with hNone | hSome
  · simp [hNone] at hOwner
  · rw [hSome] at hOwner
    exact hOther (Option.some.inj hOwner).symm

end

theorem committedOf_append (w : World σ) (ss : List (Statement σ)) (id other : Nat) :
    ((w.committed ++ ss.map fun stmt => (id, stmt)).filter (·.1 = other)).map (·.2) =
      w.committedOf other ++ if other = id then ss else [] := by
  rw [List.filter_append, List.map_append, World.committedOf]
  congr 1
  by_cases hId : other = id
  · subst hId
    induction ss with
    | nil => simp
    | cons stmt ss ih => simpa using ih
  · induction ss with
    | nil => simp
    | cons stmt ss ih => simp [hId, Ne.symm hId]

theorem runBody_append (first second : List (Statement σ)) (before : σ) :
    runBody (first ++ second) before = runBody second (runBody first before) := by
  induction first generalizing before with
  | nil => rfl
  | cons stmt first ih => exact ih _

section

variable {c : Nat} (h : Inv tables w) (hWork : Working w id c)

include h hWork

theorem Inv.works (hCalls : w'.calls = update w.calls id s) (hConns : w'.conns = update w.conns c t)
    (hSame : w'.opened = w.opened ∧ w'.durable = w.durable ∧ w'.committed = w.committed ∧
      w'.opener = w.opener)
    (hStage : s.applied = [] ∧ s.opens = false)
    (hWriter : w'.writer = lockAfter w.writer id s.locked) (hFresh : c < w.opened ∨ t = .closed)
    (hBegun : t = .begun → w'.live ≠ some c) (hOwns : t.isWriting = true → s.owns = some c)
    (hLive : w'.live = w.live ∨ w'.live = none ∧ (w.alone id ∨ w'.recovers)) (hSelf : Fits w' id s)
    : Inv tables w' := by
  obtain ⟨hOpened, hDurable, hCommitted, hOpener⟩ := hSame
  refine h.held hWork hCalls hConns hOpened ?_ ?_ hWriter hOpener hStage.2 hFresh hBegun hOwns
    hLive hSelf
  · rw [hDurable, hCommitted, h.durable]
  · intro other
    have hOf : w'.committedOf other = w.committedOf other := by
      simp [World.committedOf, hCommitted]
    rw [hOf]
    by_cases hId : other = id
    · subst hId
      simp [hStage.1, h.applied other, hWork.nothing]
    · simp [hId]

theorem Inv.close (task : Task σ) (dead : Bool) (hDead : dead = true → w.alone id) :
    Inv tables (((w.setConn c .closed).markDeadIf dead).finish id task false) := by
  cases dead with
  | true =>
    exact h.works hWork (s := .ended task false) (t := .closed) rfl rfl ⟨rfl, rfl, rfl, rfl⟩
      ⟨rfl, rfl⟩ rfl (.inr rfl) (by simp) (by simp [Txn.isWriting])
      (.inr ⟨rfl, .inl (hDead rfl)⟩) trivial
  | false =>
    exact h.works hWork (s := .ended task false) (t := .closed) rfl rfl ⟨rfl, rfl, rfl, rfl⟩
      ⟨rfl, rfl⟩ rfl (.inr rfl) (by simp) (by simp [Txn.isWriting]) (.inl rfl) trivial

/-- An attempt of `execute` that raised, and left no write lock behind. -/
theorem Inv.retryOnce {stmt : Statement σ} {retried dead : Bool} (hBelow : c < w.opened)
    (hTxn : t = .closed ∨ t = .begun ∧ dead = true)
    (hAlone : dead = true → retried = true → w.alone id) :
    Inv tables (((w.setConn c t).markDeadIf dead).retryOnce id (.retryWrite stmt) retried
      dead) := by
  have hNotWriting : t.isWriting = true → False := by
    rcases hTxn with rfl | ⟨rfl, -⟩ <;> simp [Txn.isWriting]
  cases dead with
  | false =>
    have hClosed : t = .closed := by simpa using hTxn
    subst hClosed
    exact h.close hWork (.write stmt) false (by simp)
  | true =>
    cases retried with
    | true =>
      exact h.works hWork (s := .ended (.write stmt) false) (t := t) rfl rfl
        ⟨rfl, rfl, rfl, rfl⟩ ⟨rfl, rfl⟩ rfl (.inl hBelow)
        (fun _ => by simp [World.retryOnce, World.finish, World.markDeadIf, World.setCall])
        (fun hWriting => (hNotWriting hWriting).elim)
        (.inr ⟨rfl, .inl (hAlone rfl rfl)⟩) trivial
    | false =>
      have hEnsuring : Inv tables
          (((w.setConn c t).markDeadIf true).setCall id (.ensuring (.retryWrite stmt))) :=
        h.works hWork (s := .ensuring (.retryWrite stmt)) (t := t) rfl rfl
          ⟨rfl, rfl, rfl, rfl⟩ ⟨rfl, rfl⟩ hWork.holds (.inl hBelow)
          (fun _ => by simp [World.markDeadIf, World.setCall])
          (fun hWriting => (hNotWriting hWriting).elim)
          (.inr ⟨rfl, .inr ⟨id, hWork.holds, by simp [World.setCall, Stage.recovering]⟩⟩) trivial
      have hEnsured := hEnsuring.ensure id (.retryWrite stmt)
        (by simp [World.setCall])
      rwa [World.ensure_setCall] at hEnsured

theorem Inv.commitConn (task : Task σ)
    (hConn : w.conns c =
      .writing (runBody task.statements w.durable) (task.statements.map fun stmt => (id, stmt))) :
    Inv tables ((w.commitConn c).finish id task true) := by
  refine h.held hWork (s := .ended task true) (t := .closed) rfl rfl rfl ?_ ?_ rfl rfl rfl
    (.inr rfl) (by simp) (by simp [Txn.isWriting]) (.inl rfl) trivial
  · simp only [World.commitConn, World.finish, World.setCall, World.setConn, hConn, Txn.visible,
      Txn.statements, List.map_append, runBody_append, ← h.durable]
    congr 1
    simp [comp_def]
  · intro other
    have hOf : ((w.commitConn c).finish id task true).committedOf other =
        w.committedOf other ++ if other = id then task.statements else [] := by
      rw [← committedOf_append]
      simp [World.committedOf, World.finish, World.setCall, World.commitConn, hConn,
        Txn.statements]
    rw [hOf]
    by_cases hId : other = id
    · subst hId
      have hNothing : w.committedOf other = [] := (h.applied other).trans hWork.nothing
      simp [hNothing, Stage.applied]
    · simp [hId]

end

variable {reply : Reply} {retried : Bool}

section

variable (h : Inv tables w)

include h

variable {stmt : Statement σ}

theorem Inv.afterStatement {c : Nat} (hStage : w.calls id = .statement stmt retried c)
    (hClean : CleanTurn w id reply (.statement stmt retried c)) :
    Inv tables (w.afterStatement id stmt retried c reply) := by
  have hWork := h.working hStage rfl
  obtain ⟨hLive, hClosed⟩ : w.live = some c ∧ w.conns c = .closed := by
    have hFits := h.fits id
    rwa [hStage] at hFits
  have hBelow := (h.live c hLive).1
  have hAlone := h.not_lockedElsewhere hWork
  cases reply with
  | failed f =>
    have hRun : w.runStatement id c stmt (.failed f) =
        ((Txn.closed : Txn σ).after w.durable f.left, some f.dead) := by
      simp [World.runStatement, hAlone, hClosed]
    simp only [World.afterStatement, hRun]
    refine h.retryOnce hWork hBelow ?_ ?_
    · cases hDead : f.dead with
      | false =>
        have hLeft : f.left = .closed := by simpa [CleanTurn, hDead] using hClean
        exact .inl (by rw [hLeft]; rfl)
      | true =>
        have hLeft : f.left ≠ .writing := by
          have hBoth : f.left ≠ .writing ∧ (retried = true → w.alone id) := by
            simpa [CleanTurn, hDead] using hClean
          exact hBoth.1
        cases hAfter : f.left with
        | closed => exact .inl rfl
        | begun => exact .inr ⟨rfl, rfl⟩
        | writing => exact absurd hAfter hLeft
    · intro hDead hRetried
      have hBoth : f.left ≠ .writing ∧ (retried = true → w.alone id) := by
        simpa [CleanTurn, hDead] using hClean
      exact hBoth.2 hRetried
  | done =>
    obtain ⟨after, hAfter⟩ := Option.isSome_iff_exists.mp hClean
    have hRun : w.runStatement id c stmt .done = (.writing after [(id, stmt)], none) := by
      simp [World.runStatement, hAlone, hClosed, Txn.visible, Txn.statements, hAfter]
    have hCommit : w.afterStatement id stmt retried c .done =
        (w.setConn c (.writing after [(id, stmt)])).setCall id (.commit stmt retried c) := by
      simp [World.afterStatement, hRun, World.setConn, hLive]
    rw [hCommit]
    refine h.works hWork (s := .commit stmt retried c) (t := .writing after [(id, stmt)]) rfl rfl
      ⟨rfl, rfl, rfl, rfl⟩ ⟨rfl, rfl⟩ hWork.holds (.inl hBelow)
      (by simp) (by simp [Stage.owns]) (.inl rfl) ⟨hLive, ?_⟩
    simp [World.setCall, World.setConn, runBody, hAfter]

theorem Inv.afterCommit {c : Nat} (hStage : w.calls id = .commit stmt retried c)
    (hClean : CleanTurn w id reply (.commit stmt retried c)) :
    Inv tables (w.afterCommit id stmt retried c reply) := by
  have hWork := h.working hStage rfl
  obtain ⟨hLive, hConn⟩ : w.live = some c ∧
      w.conns c = .writing (runBody [stmt] w.durable) [(id, stmt)] := by
    have hFits := h.fits id
    rwa [hStage] at hFits
  cases reply with
  | done => exact h.commitConn hWork (.write stmt) hConn
  | failed f =>
    have hLeft : (w.conns c).after w.durable f.left = .closed := by rw [hClean.1]; rfl
    simp only [World.afterCommit, hLeft]
    exact h.retryOnce hWork (h.live c hLive).1 (.inl rfl) hClean.2

/-! ## Blocks -/

theorem Inv.afterBegin {body : List (Statement σ)} {c : Nat} (hStage : w.calls id = .begin body c)
    (hClean : CleanTurn w id reply (.begin body c)) :
    Inv tables (w.afterBegin id body c reply) := by
  have hWork := h.working hStage rfl
  obtain ⟨hBelow, hClosed⟩ : c < w.opened ∧ w.conns c = .closed := by
    have hFits := h.fits id
    rwa [hStage] at hFits
  have hAlone := h.not_lockedElsewhere hWork
  cases reply with
  | failed f =>
    have hFailed : w.afterBegin id body c (.failed f) =
        (w.markDeadIf f.dead).finish id (.block body) false := by
      simp [World.afterBegin, hClosed, hAlone]
    rw [hFailed]
    exact h.finish (.block body) false _ (by rw [hWork.nothing]; rfl)
      (by simp [hStage, Stage.owns]) hWork.opens hWork.recovering hClean
  | done =>
    have hBegun : w.afterBegin id body c .done =
        (w.setConn c (.writing w.durable [])).setCall id (.body body body c) := by
      simp [World.afterBegin, hClosed, hAlone]
    rw [hBegun]
    refine h.works hWork (s := .body body body c) (t := .writing w.durable []) rfl rfl
      ⟨rfl, rfl, rfl, rfl⟩ ⟨rfl, rfl⟩ hWork.holds (.inl hBelow) (by simp) (by simp [Stage.owns])
      (.inl rfl) ⟨[], rfl, ?_⟩
    simp [World.setCall, World.setConn, runBody]

theorem Inv.afterBody {all rest : List (Statement σ)} {c : Nat}
    (hStage : w.calls id = .body all rest c) (hClean : CleanTurn w id reply (.body all rest c)) :
    Inv tables (w.afterBody id all rest c reply) := by
  have hWork := h.working hStage rfl
  obtain ⟨done, hAll, hConn⟩ : ∃ done, all = done ++ rest ∧
      w.conns c = .writing (runBody done w.durable) (done.map fun stmt => (id, stmt)) := by
    have hFits := h.fits id
    rwa [hStage] at hFits
  have hBelow : c < w.opened := by
    by_contra hAbove
    simp [h.fresh c (by omega)] at hConn
  have hAlone := h.not_lockedElsewhere hWork
  cases rest with
  | nil =>
    rw [List.append_nil] at hAll
    subst hAll
    cases reply with
    | done => exact h.commitConn hWork (.block all) hConn
    | failed f =>
      have hLeft : f.left = .closed := hClean
      simp only [World.afterBody, hLeft, Txn.after]
      exact h.close hWork (.block all) false (by simp)
  | cons stmt rest =>
    -- a statement that fails, and what it leaves: the transaction, or nothing
    have hRollback : ∀ (left : Left) (dead : Bool),
        Inv tables ((w.setConn c ((w.conns c).after w.durable left)).setCall id
          (.rollback all dead c)) := by
      intro left dead
      exact h.works hWork (s := .rollback all dead c) rfl rfl ⟨rfl, rfl, rfl, rfl⟩ ⟨rfl, rfl⟩
        hWork.holds (.inl hBelow)
        (fun hBegun => by cases left <;> simp [hConn, Txn.after] at hBegun)
        (fun _ => rfl) (.inl rfl) trivial
    cases reply with
    | failed f =>
      have hRun : w.runStatement id c stmt (.failed f) =
          ((w.conns c).after w.durable f.left, some f.dead) := by
        simp [World.runStatement, hAlone]
      simp only [World.afterBody, hRun]
      exact hRollback f.left f.dead
    | done =>
      cases hStmt : stmt (runBody done w.durable) with
      | none =>
        have hRun : w.runStatement id c stmt .done =
            ((w.conns c).after w.durable .writing, some false) := by
          simp [World.runStatement, hAlone, hConn, Txn.visible, hStmt]
        simp only [World.afterBody, hRun]
        exact hRollback .writing false
      | some after =>
        have hRun : w.runStatement id c stmt .done =
            (.writing (runBody (done ++ [stmt]) w.durable)
              ((done ++ [stmt]).map fun stmt => (id, stmt)), none) := by
          simp [World.runStatement, hAlone, hConn, Txn.visible, Txn.statements, hStmt,
            runBody_append, runBody]
        simp only [World.afterBody, hRun]
        refine h.works hWork (s := .body all rest c) rfl rfl ⟨rfl, rfl, rfl, rfl⟩ ⟨rfl, rfl⟩
          hWork.holds (.inl hBelow) (by simp) (fun _ => rfl) (.inl rfl) ⟨done ++ [stmt], ?_, ?_⟩
        · simp [hAll]
        · simp [World.setCall, World.setConn]

theorem Inv.afterRollback {all : List (Statement σ)} {dead : Bool} {c : Nat}
    (hStage : w.calls id = .rollback all dead c)
    (hClean : CleanTurn w id reply (.rollback all dead c)) :
    Inv tables (w.afterRollback id all dead c reply) := by
  have hWork := h.working hStage rfl
  cases reply with
  | done => exact h.close hWork (.block all) _ hClean
  | failed f =>
    have hLeft : (w.conns c).after w.durable f.left = .closed := by rw [hClean.1]; rfl
    simp only [World.afterRollback, hLeft]
    exact h.close hWork (.block all) _ hClean.2

/-! ## Readers, and connections collected -/

theorem Inv.afterRead (hStage : w.calls id = .reading retried)
    (hClean : CleanTurn w id reply (.reading retried)) :
    Inv tables (w.resume id reply (.reading retried)) := by
  have hOwns : (w.calls id).owns = none := by simp [hStage, Stage.owns]
  have hOpens : (w.calls id).opens = false := by simp [hStage, Stage.opens]
  have hIdle : (w.calls id).recovering = false := by simp [hStage, Stage.recovering]
  have hEmpty : (w.calls id).applied = [] := by simp [hStage, Stage.applied]
  have hUnlocked : (w.calls id).locked = false := by simp [hStage, Stage.locked]
  cases reply with
  | done =>
    exact h.finish .read true false (by rw [hEmpty]; rfl) hOwns hOpens hIdle (by simp)
  | failed f =>
    by_cases hRetry : f.dead = true ∧ retried = false
    · obtain ⟨hDead, hFirst⟩ := hRetry
      have hAlone : w.alone id := hClean hDead
      have hWriter : lockAfter w.writer id (Stage.ensuring (Next.retryRead (σ := σ))).locked =
          w.writer := h.lockAfter_writer hUnlocked.symm
      have hOpener : lockAfter w.opener id (Stage.ensuring (Next.retryRead (σ := σ))).opens =
          w.opener := h.lockAfter_opener hOpens.symm
      have hDropped : Inv tables ({ w with live := none }.setCall id (.ensuring .retryRead)) :=
        h.quiet rfl ⟨rfl, rfl, rfl, rfl⟩ (by rw [hEmpty]; rfl) hWriter.symm
          (by simp [Stage.locked]) hOpener.symm (by simp [Stage.opens]) hOwns
          (.inr ⟨rfl, hAlone⟩) trivial
      have hEnsured := hDropped.ensure id .retryRead (by simp [World.setCall])
      rw [World.ensure_setCall] at hEnsured
      simpa [World.resume, World.retryOnce, World.markDeadIf, hDead, hFirst] using hEnsured
    · have hOver : (f.dead && !retried) = false := by
        cases hDead : f.dead <;> cases retried <;> simp_all
      simp only [World.resume, World.retryOnce, hOver]
      exact h.finish .read false _ (by rw [hEmpty]; rfl) hOwns hOpens hIdle hClean

theorem Inv.collect {c : Nat} (hLive : w.live ≠ some c) (hConn : w.writerConn ≠ some c) :
    Inv tables (w.setConn c .closed) where
  durable := h.durable
  applied := h.applied
  locked := h.locked
  opens := h.opens
  fresh := by
    intro other hAbove
    by_cases hId : other = c
    · simp [World.setConn, hId]
    · simpa [World.setConn, hId] using h.fresh other hAbove
  live := by
    intro other hSome
    have hId : other ≠ c := by
      rintro rfl
      exact hLive hSome
    simpa [World.setConn, hId] using h.live other hSome
  owned := by
    intro other hWriting
    by_cases hId : other = c
    · simp [World.setConn, hId, Txn.isWriting] at hWriting
    · exact h.owned other (by simpa [World.setConn, hId] using hWriting)
  fits := by
    intro id
    have hFits := h.fits id
    show Fits (w.setConn c .closed) id (w.calls id)
    cases hStage : w.calls id <;> rw [hStage] at hFits
    case connecting next => exact hFits
    case waiting task => exact hFits
    case statement stmt retried other | commit stmt retried other =>
      have hId : other ≠ c := by
        rintro rfl
        exact hLive hFits.1
      simpa [Fits, World.setConn, hId] using hFits
    case begin body other =>
      refine ⟨hFits.1, ?_⟩
      by_cases hId : other = c
      · simp [World.setConn, hId]
      · simpa [World.setConn, hId] using hFits.2
    case body all rest other =>
      have hWriter : w.writer = some id := (h.locked id).mp (by simp [hStage, Stage.locked])
      have hId : other ≠ c := by
        rintro rfl
        exact hConn (by simp [World.writerConn, hWriter, hStage])
      simpa [Fits, World.setConn, hId] using hFits
    all_goals trivial

end

end

/-! ## Runs -/

theorem step_inv {tables : σ} {w : World σ} (h : Inv tables w) (e : Event σ) (hClean : Clean w e) :
    Inv tables (step w e) := by
  cases e with
  | call id task =>
    cases hStage : w.calls id with
    | idle =>
      simp only [step, hStage]
      exact h.ensure_of_stage (by simp [hStage, Stage.applied]) (by simp [hStage, Stage.owns])
        (by simp [hStage, Stage.opens]) (by simp [hStage, Stage.locked])
        (by simp [hStage, Stage.recovering])
    | _ => simpa only [step, hStage] using h
  | collect c =>
    simp only [step]
    split
    · exact h
    · next hFree =>
        obtain ⟨hLive, hConn⟩ := not_or.mp hFree
        exact h.collect hLive hConn
  | turn id reply =>
    simp only [Clean] at hClean
    simp only [step]
    cases hStage : w.calls id with
    | idle | ended task returned => exact h
    | ensuring next =>
      cases hOpener : w.opener with
      | some other => simpa [World.resume, hOpener] using h
      | none => simpa [World.resume, hOpener] using h.ensure id next hStage
    | connecting next =>
      cases reply with
      | done => exact h.connected hStage
      | failed f =>
        refine h.notAvailable (.inl hStage) ?_
        cases next with
        | retryWrite stmt => exact .inl (by simpa [hStage, CleanTurn] using hClean)
        | start task | retryRead =>
          have hFits := h.fits id
          rw [hStage] at hFits
          exact .inr ⟨hFits, by simp [hStage, Stage.recovering]⟩
    | configuring next =>
      cases reply with
      | done => exact h.configured hStage
      | failed f =>
        exact h.notAvailable (.inr hStage)
          (.inl (by simpa [hStage, CleanTurn] using hClean))
    | waiting task =>
      cases hWriter : w.writer with
      | some other => simpa [World.resume, hWriter] using h
      | none => simpa [World.resume, hWriter] using h.acquire hStage hWriter
    | statement stmt retried c => exact h.afterStatement hStage (hStage ▸ hClean)
    | commit stmt retried c => exact h.afterCommit hStage (hStage ▸ hClean)
    | begin body c => exact h.afterBegin hStage (hStage ▸ hClean)
    | body all rest c => exact h.afterBody hStage (hStage ▸ hClean)
    | rollback all dead c => exact h.afterRollback hStage (hStage ▸ hClean)
    | reading retried => exact h.afterRead hStage (hStage ▸ hClean)

theorem inv_opening (tables : σ) : Inv tables (World.opening tables) where
  durable := rfl
  applied := by simp [World.opening, World.committedOf, Stage.applied]
  locked := by simp [World.opening, Stage.locked]
  opens := by simp [World.opening, Stage.opens]
  fresh := by simp [World.opening]
  live := by simp [World.opening]
  owned := by simp [World.opening, Txn.isWriting]
  fits := by simp [World.opening, Fits]

/-- **Independent units.**  In a run in which no failing statement, commit or rollback leaves
a transaction behind, and no connection is marked dead under another write, the calls are
independent units in every state reached. -/
theorem independent_of_clean (tables : σ) (events : List (Event σ))
    (hClean : Meets step Clean (World.opening tables) events) :
    Along step (Independent tables) (World.opening tables) events := by
  have hStep : ∀ w e, Inv tables w → Clean w e → Inv tables (step w e) :=
    fun w e h => step_inv h e
  exact (along_of_meets hStep (inv_opening tables) hClean).mono fun w h => h.independent

def insertion (row : Nat) : Statement (List Nat) := fun rows => some (rows ++ [row])

def violation : Statement (List Nat) := fun _ => none

/-- An `execute` that violates a constraint, and a `transaction` after it. -/
def violationThenBlock : List (Event (List Nat)) :=
  [.call 0 (.write violation), .turn 0 .done, .turn 0 .done,
    .call 1 (.block [insertion 1]), .turn 1 .done, .turn 1 .done]

/-- An `execute` whose commit is refused, and another one after it. -/
def refusalThenWrite : List (Event (List Nat)) :=
  [.call 0 (.write (insertion 0)), .turn 0 .done, .turn 0 .done,
    .turn 0 (.failed ⟨false, .writing⟩),
    .call 1 (.write (insertion 1)), .turn 1 .done, .turn 1 .done, .turn 1 .done]

/-- **What a failed write leaves.**  Past a constraint violation the next `transaction`
cannot begin, and a row whose commit was refused is committed by the next write. -/
theorem failed_write_lingers :
    ¬ Along step (Independent []) (World.opening []) violationThenBlock ∧
      (run step (World.opening []) violationThenBlock).calls 1 =
        .ended (.block [insertion 1]) false ∧
      (run step (World.opening []) refusalThenWrite).calls 0 =
        .ended (.write (insertion 0)) false ∧
      (run step (World.opening []) refusalThenWrite).durable = [0, 1] := by
  refine ⟨fun hAlong => ?_, rfl, rfl, rfl⟩
  have hOpen : (run step (World.opening []) violationThenBlock).conns 0 = .closed :=
    hAlong.last.noneOpen rfl 0 rfl
  have hWriting : (run step (World.opening []) violationThenBlock).conns 0 = .writing [] [] := rfl
  rw [hWriting] at hOpen
  cases hOpen

/-- A run that meets the condition: a read and a write whose connection dies under the
write's statement, and which runs it again on the next one. -/
def busyThenWrite : List (Event (List Nat)) :=
  [.call 0 (.write (insertion 0)), .call 1 .read, .turn 0 .done,
    .turn 0 (.failed ⟨true, .begun⟩), .turn 1 .done, .turn 0 .done, .turn 0 .done,
    .turn 0 .done, .turn 0 .done]

theorem independent_busyThenWrite :
    Meets step Clean (World.opening []) busyThenWrite ∧
      Along step (Independent []) (World.opening []) busyThenWrite ∧
      (run step (World.opening []) busyThenWrite).durable = [0] := by
  have hClean : Meets step Clean (World.opening []) busyThenWrite := by
    refine ⟨trivial, trivial, trivial, ?_, trivial, trivial, trivial, rfl, trivial, trivial⟩
    exact ⟨by decide, fun hRetried => by simp at hRetried⟩
  exact ⟨hClean, independent_of_clean [] busyThenWrite hClean, rfl⟩

end StackOwl.Db.PoolCalls
