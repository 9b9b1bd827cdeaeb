import StackOwl.Audit.Chain
import StackOwl.Lib.Run

/-!
# Concurrent audit writers

Three kinds of writer append to the audit log.  `AuditLogger.append` reads the tail and
inserts within `BEGIN IMMEDIATE` on a connection of its own.  `chain_append_via_pool`
with a connection reads and inserts within the pool transaction its caller holds.
Without one it reads through `fetch_all`, which sees what the pool's connection sees,
and inserts through `execute`, a statement of its own.

SQLite has one write transaction at a time.  A run is a list of statements of any
number of writers, in any order; a statement that has to wait, or fails, leaves the log
as it is.

## Main results

* `verified_step` — what is committed and what is open are both kept verifiable by
  every statement but an insert behind a tail that is no longer the tail.
* `chain_verifies_of_fresh` — the log verifies in every state of a run without such an
  insert.
-/

namespace StackOwl.Audit

open Lib

variable {F : Type*} (floatRepr : F → String)

/-! ## The log and its writers -/

/-- Who holds the write transaction. -/
inductive Owner where
  | logger (writer : Nat)
  | pool
  deriving DecidableEq

structure Txn (F : Type*) where
  owner : Owner
  /-- The table as its connection sees it. -/
  table : Table F
  /-- The tail hash its writer has read for the next insert. -/
  prevHash : Option String := none
  /-- The block that began it is still running; a cancelled block leaves the pool's
  transaction open. -/
  held : Bool := true

/-- The committed log, the write transaction if one is open, and the tail hashes the
writers without a connection have read. -/
structure Shared (F : Type*) where
  table : Table F
  txn : Option (Txn F) := none
  prevHashes : Nat → Option String := fun _ => none

inductive Statement (F : Type*) where
  /-- `BEGIN IMMEDIATE`. -/
  | begin (owner : Owner)
  /-- The `SELECT` of the tail hash within the transaction. -/
  | readTail (owner : Owner)
  /-- The `INSERT` within the transaction. -/
  | insert (owner : Owner) (event : Event F)
  | commit (owner : Owner)
  | rollback (owner : Owner)
  /-- The pool's transaction is cancelled between two statements. -/
  | abandon
  /-- `db.fetch_all` of the tail hash. -/
  | fetchTail (writer : Nat)
  /-- `db.execute` of the `INSERT`. -/
  | execute (writer : Nat) (event : Event F)

variable (s : Shared F)

/-- The open transaction of a block that is still running. -/
def Shared.heldBy (owner : Owner) : Option (Txn F) :=
  s.txn.filter fun t => t.owner = owner && t.held

def Shared.poolTable : Table F :=
  match s.txn with
  | some t => if t.owner = .pool then t.table else s.table
  | none => s.table

/-- `execute` does not wait: nobody holds the write transaction. -/
def Shared.free : Bool :=
  match s.txn with
  | some t => t.owner = .pool && !t.held
  | none => true

def step : Statement F → Shared F
  | .begin owner =>
    match s.txn with
    | some _ => s
    | none => { s with txn := some { owner := owner, table := s.table } }
  | .readTail owner =>
    match s.heldBy owner with
    | some t => { s with txn := some { t with prevHash := some (tailHash t.table.rows) } }
    | none => s
  | .insert owner event =>
    match s.heldBy owner with
    | some t =>
      match t.prevHash with
      | some prevHash =>
        { s with txn := some { t with
            table := t.table.append (event.entry floatRepr prevHash)
            prevHash := none } }
      | none => s
    | none => s
  | .commit owner =>
    match s.heldBy owner with
    | some t => { s with table := t.table, txn := none }
    | none => s
  | .rollback owner =>
    match s.heldBy owner with
    | some _ => { s with txn := none }
    | none => s
  | .abandon =>
    match s.heldBy .pool with
    | some t => { s with txn := some { t with held := false, prevHash := none } }
    | none => s
  | .fetchTail writer =>
    { s with prevHashes :=
        Function.update s.prevHashes writer (some (tailHash s.poolTable.rows)) }
  | .execute writer event =>
    match s.prevHashes writer, s.free with
    | some prevHash, true =>
      { table := s.poolTable.append (event.entry floatRepr prevHash)
        prevHashes := Function.update s.prevHashes writer none }
    | _, _ => s

/-! ## Runs -/

/-- The statement is no insert behind a hash that is no longer the tail's. -/
def Fresh : Statement F → Prop
  | .execute writer _ =>
    s.free = true → ∀ prevHash ∈ s.prevHashes writer,
      prevHash = tailHash s.poolTable.rows
  | _ => True

instance (s : Shared F) : ∀ op, Decidable (Fresh s op)
  | .execute _ _ => inferInstanceAs (Decidable (_ → _))
  | .begin _ | .readTail _ | .insert _ _ | .commit _ | .rollback _ | .abandon
  | .fetchTail _ => isTrue trivial

/-- The committed log and the open transaction verify, and a hash read within the
transaction is its tail's. -/
structure Verified (s : Shared F) : Prop where
  table : verifyChain floatRepr s.table.rows = (true, none)
  txn : ∀ t ∈ s.txn, verifyChain floatRepr t.table.rows = (true, none)
  prevHash : ∀ t ∈ s.txn, ∀ h ∈ t.prevHash, h = tailHash t.table.rows

theorem verifyChain_append {t : Table F}
    (h : verifyChain floatRepr t.rows = (true, none)) (event : Event F) :
    verifyChain floatRepr
      (t.append (event.entry floatRepr (tailHash t.rows))).rows = (true, none) := by
  rw [verifyChain_iff] at h ⊢
  exact chained_concat_appended floatRepr h _ event

variable {s}

theorem heldBy_eq {owner : Owner} {t : Txn F} (h : s.heldBy owner = some t) : s.txn = some t :=
  (Option.filter_eq_some_iff.mp h).1

theorem Verified.poolTable (h : Verified floatRepr s) :
    verifyChain floatRepr s.poolTable.rows = (true, none) := by
  unfold Shared.poolTable
  split
  · rename_i t ht
    split
    · exact h.txn t ht
    · exact h.table
  · exact h.table

theorem Verified.setTxn (h : Verified floatRepr s) {t : Txn F}
    (htable : verifyChain floatRepr t.table.rows = (true, none))
    (hprev : ∀ hash ∈ t.prevHash, hash = tailHash t.table.rows) :
    Verified floatRepr { s with txn := some t } where
  table := h.table
  txn := by
    rintro _ ⟨⟩
    exact htable
  prevHash := by
    rintro _ ⟨⟩
    exact hprev

theorem verified_closed {table : Table F} {prevHashes : Nat → Option String}
    (h : verifyChain floatRepr table.rows = (true, none)) :
    Verified floatRepr { table := table, prevHashes := prevHashes } where
  table := h
  txn := by rintro _ ⟨⟩
  prevHash := by rintro _ ⟨⟩

/-- Every statement keeps the log verified but an insert behind a hash that is no longer
the tail's. -/
theorem verified_step (h : Verified floatRepr s) (op : Statement F) (hfresh : Fresh s op) :
    Verified floatRepr (step floatRepr s op) := by
  cases op with
  | begin owner =>
    cases htxn : s.txn with
    | some t => simpa only [step, htxn] using h
    | none =>
      simp only [step, htxn]
      exact h.setTxn floatRepr h.table (by simp)
  | readTail owner =>
    cases hheld : s.heldBy owner with
    | none => simpa only [step, hheld] using h
    | some t =>
      simp only [step, hheld]
      exact h.setTxn floatRepr (h.txn t (heldBy_eq hheld)) (by simp)
  | insert owner event =>
    cases hheld : s.heldBy owner with
    | none => simpa only [step, hheld] using h
    | some t =>
      cases hprev : t.prevHash with
      | none => simpa only [step, hheld, hprev] using h
      | some prevHash =>
        have htxn := heldBy_eq hheld
        have htail := h.prevHash t htxn prevHash hprev
        simp only [step, hheld, hprev, htail]
        exact h.setTxn floatRepr
          (verifyChain_append floatRepr (h.txn t htxn) event) (by simp)
  | commit owner =>
    cases hheld : s.heldBy owner with
    | none => simpa only [step, hheld] using h
    | some t =>
      simp only [step, hheld]
      exact verified_closed floatRepr (h.txn t (heldBy_eq hheld))
  | rollback owner =>
    cases hheld : s.heldBy owner with
    | none => simpa only [step, hheld] using h
    | some t =>
      simp only [step, hheld]
      exact verified_closed floatRepr h.table
  | abandon =>
    cases hheld : s.heldBy .pool with
    | none => simpa only [step, hheld] using h
    | some t =>
      simp only [step, hheld]
      exact h.setTxn floatRepr (h.txn t (heldBy_eq hheld)) (by simp)
  | fetchTail writer => exact ⟨h.table, h.txn, h.prevHash⟩
  | execute writer event =>
    cases hprev : s.prevHashes writer with
    | none => simpa only [step, hprev] using h
    | some prevHash =>
      cases hfree : s.free with
      | false => simpa only [step, hprev, hfree] using h
      | true =>
        have htail := hfresh hfree prevHash hprev
        simp only [step, hprev, hfree, htail]
        exact verified_closed floatRepr
          (verifyChain_append floatRepr (h.poolTable floatRepr) event)

/-- **Concurrent writers.**  From a log that verifies and no open transaction, the log
verifies in every state of a run in which every insert without a connection comes behind
the hash of the last row. -/
theorem chain_verifies_of_fresh (table : Table F)
    (hv : verifyChain floatRepr table.rows = (true, none)) (ops : List (Statement F))
    (h : Meets (step floatRepr) Fresh { table := table } ops) :
    Along (step floatRepr)
      (fun s => verifyChain floatRepr s.table.rows = (true, none)) { table := table }
      ops := by
  have hverified : Along (step floatRepr) (Verified floatRepr) { table := table } ops :=
    along_of_meets (fun _ op hs => verified_step floatRepr hs op)
      (verified_closed floatRepr hv) h
  exact hverified.mono fun _ hs => hs.table

def jobEvent (timestamp : Nat) : Event Nat where
  eventType := "job.parked"
  actor := "scheduler"
  target := some "daily_digest"
  timestamp := timestamp
  detailsJson := "\x7b\x7d"

/-- A writer without a connection reads the tail, and inserts when a logger's append has
been rolled back; a caller's transaction appends behind it. -/
theorem chain_verifies_behind_rollback :
    Along (step reprWhole)
      (fun s => verifyChain reprWhole s.table.rows = (true, none))
      { table := ⟨[], 0⟩ }
      [.begin (.logger 1), .fetchTail 2, .readTail (.logger 1),
        .insert (.logger 1) (jobEvent 1700000000), .rollback (.logger 1),
        .execute 2 (jobEvent 1700000060), .begin .pool, .readTail .pool,
        .insert .pool (jobEvent 1700000120), .commit .pool] :=
  chain_verifies_of_fresh reprWhole ⟨[], 0⟩ rfl _ (by decide +kernel)

/-- Two writers without a connection read one tail: the second row breaks the chain. -/
theorem forked_chain :
    let s := run (step reprWhole) { table := ⟨[], 0⟩ }
      [.fetchTail 1, .fetchTail 2, .execute 1 (jobEvent 1700000000),
        .execute 2 (jobEvent 1700000060)]
    verifyChain reprWhole s.table.rows = (false, some 2) := by
  decide +kernel

end StackOwl.Audit
