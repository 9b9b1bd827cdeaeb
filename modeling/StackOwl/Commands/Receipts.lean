import StackOwl.Lib.Table

/-!
# Command receipts

`command_receipts` and `record_command_execution`: the row a mutator writes in its own
transaction, before it applies its change.

## Main results

* `recordCommandExecution_spec` — a command is recorded at its first call, and never again.
* `receipt_kept` — no receipt is taken away.
-/

namespace StackOwl.Commands

open Lib

/-- A row of `command_receipts`, without its time. -/
structure Receipt where
  commandId : String
  commandType : String
  undoPayload : Option String := none

def Receipt.primaryKey (r : Receipt) : Option String := some r.commandId

abbrev Receipts := Table Receipt String [Receipt.primaryKey]

def Receipts.empty : Receipts := ⟨[], by simp⟩

variable (commandId : String)

/-- `SELECT 1 FROM command_receipts WHERE command_id = ?`. -/
def Receipts.of (receipts : Receipts) : Option Receipt :=
  receipts.find? fun r => r.commandId == commandId

/-- `record_command_execution`: `INSERT OR IGNORE`, and whether it inserted. -/
def recordCommandExecution (commandType : String) (undoPayload : Option String)
    (receipts : Receipts) : Bool × Receipts :=
  match Table.insert ⟨commandId, commandType, undoPayload⟩ receipts with
  | none => (false, receipts)
  | some receipts => (true, receipts)

def getUndoPayload (receipts : Receipts) : Option String :=
  (receipts.of commandId).bind Receipt.undoPayload

/-- **The guard.**  The first call for a command records it; every later one leaves the
receipts as they are. -/
theorem recordCommandExecution_spec (commandType : String) (undoPayload : Option String)
    (receipts : Receipts) :
    (∃ r, receipts.of commandId = some r ∧
      recordCommandExecution commandId commandType undoPayload receipts =
        (false, receipts)) ∨
    (receipts.of commandId = none ∧ ∃ receipts',
      recordCommandExecution commandId commandType undoPayload receipts =
        (true, receipts') ∧
      ∀ id, receipts'.of id = (receipts.of id).or
        (if commandId = id then some ⟨commandId, commandType, undoPayload⟩ else none)) := by
  have hkey : ∀ s : Receipt, (s.commandId == commandId) = true →
      s.primaryKey = some commandId := fun s hs => congrArg some (eq_of_beq hs)
  unfold recordCommandExecution
  cases hinsert : Table.insert ⟨commandId, commandType, undoPayload⟩ receipts with
  | some receipts' =>
    refine Or.inr ⟨Table.find?_none_of_insert hinsert List.mem_cons_self hkey rfl,
      receipts', rfl, fun id => ?_⟩
    rw [Receipts.of, Table.find?_insert hinsert]
    simp only [beq_iff_eq]
    rfl
  | none =>
    left
    cases hfind : receipts.of commandId with
    | some r => exact ⟨r, rfl, rfl⟩
    | none =>
      -- no row has the key, so nothing refuses the insertion
      have hfree := List.find?_eq_none.mp hfind
      have hadmitted : ∀ key ∈ [Receipt.primaryKey], ∀ s ∈ receipts.rows, ∀ id,
          key ⟨commandId, commandType, undoPayload⟩ = some id → key s ≠ some id := by
        intro key hkey s hs id hid hsame
        obtain rfl := List.mem_singleton.mp hkey
        cases hid
        exact hfree s hs (beq_iff_eq.mpr (Option.some.inj hsame))
      obtain ⟨receipts', hsome⟩ := Table.insert_isSome hadmitted
      rw [hsome] at hinsert
      cases hinsert

theorem receipt_kept (commandType : String) (undoPayload : Option String) {receipts : Receipts}
    {id : String} (h : (receipts.of id).isSome = true) :
    ((recordCommandExecution commandId commandType undoPayload receipts).2.of id).isSome =
      true := by
  rcases recordCommandExecution_spec commandId commandType undoPayload receipts with
    ⟨r, -, hrecord⟩ | ⟨-, receipts', hrecord, hof⟩
  · rw [hrecord]
    exact h
  · rw [hrecord, hof, Option.isSome_or, h, Bool.true_or]

end StackOwl.Commands
