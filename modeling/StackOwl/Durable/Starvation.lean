import StackOwl.Durable.DispatchSpec
import StackOwl.Durable.Runs

/-!
# Head-of-line starvation

`claimable` fetches the oldest `limit` claimable rows and only then asks which of
them are ready; the rows behind them are not looked at.  The reserved slot looks
at the five oldest commands in the same way.  Reshaping makes an older row wait on
younger ones, so waiting rows stand in front of the ready ones they wait for.

## Main results

* `offers_iff` — when `claimable` offers a row, from the table it is given.
* `no_starvation_iff` — the tables on which a ready row is never kept back.
-/

namespace StackOwl.Durable

open Lib

variable (owner : String) (stamp : Stamp) (db : Db)

/-- Some claimable row is ready. -/
def HasReady : Prop :=
  ∃ r ∈ db.tasks.rows, claimableWhere owner stamp db r = true ∧
    r.ready owner db = true

variable (lim : Int)

/-- `claimable` answers at least one row. -/
def Offers (stamp now : Stamp) (db : Db) : Prop :=
  ∃ db' out, claimable owner lim stamp now db = .ok (db', out) ∧ out ≠ []

/-- No starvation: where a row is ready, `claimable` answers a row. -/
def NoStarvation (stamp now : Stamp) (db : Db) :
    Prop :=
  HasReady owner stamp db → Offers owner lim stamp now db

/-- The five oldest commands that are claimable once the rows of `dead` are
dead-lettered. -/
def reservedAfter (dead : List String) :
    List Row :=
  limit RESERVED_COMMAND_CANDIDATES
    (orderBy Row.createdAt (db.tasks.rows.filter
      (fun r => claimableAfter owner stamp db dead r && r.kind == .command)))

/-- The two windows reach a ready row: the oldest `limit` claimable rows have one,
or the five oldest commands have one once the first window's hopeless rows are
dead-lettered; and the journal takes the events of both scans. -/
def Reaches (stamp : Stamp) (db : Db) : Prop :=
  let window := claimableWindow owner lim stamp db
  let commands := reservedAfter owner stamp db (deadAfter owner db [] window)
  journalled owner db [] window = true ∧
    ((∃ r ∈ window, r.ready owner db = true ∧ r.kind = .command) ∨
      journalled owner db (deadAfter owner db [] window)
          (commands.takeWhile (fun r => !r.ready owner db)) = true ∧
        ((∃ r ∈ window, r.ready owner db = true) ∨ ∃ r ∈ commands, r.ready owner db = true))

/-! ## The windows -/

theorem scanned_window (stamp : Stamp) (db : Db) :
    Scanned owner db [] (claimableWindow owner lim stamp db) := by
  have hmem : ∀ r ∈ claimableWindow owner lim stamp db,
      r ∈ db.tasks.rows ∧ claimableWhere owner stamp db r = true := by
    intro r hr
    exact List.mem_filter.mp (mem_orderBy.mp (mem_of_mem_limit hr))
  exact
    { stored := fun r hr => (hmem r hr).1
      owned := fun r hr => (claimableWhere_iff.mp (hmem r hr).2).1.1.1
      pending := fun r hr => (claimableWhere_iff.mp (hmem r hr).2).1.1.2
      free := fun _ _ => List.not_mem_nil
      nodup := nodup_limit (nodup_orderBy ((rows_nodup db).filter _)) }

theorem scanned_reserved (dead : List String) :
    Scanned owner db dead (reservedAfter owner stamp db dead) := by
  have hmem : ∀ r ∈ reservedAfter owner stamp db dead,
      r ∈ db.tasks.rows ∧ claimableWhere owner stamp db r = true ∧
        r.taskId ∉ dead := by
    intro r hr
    obtain ⟨hstored, hsat⟩ :=
      List.mem_filter.mp (mem_orderBy.mp (mem_of_mem_limit hr))
    rw [Bool.and_eq_true, claimableAfter, Bool.and_eq_true, Bool.and_eq_true,
      decide_eq_true_eq] at hsat
    exact ⟨hstored, hsat.1.1.1, hsat.1.1.2⟩
  exact
    { stored := fun r hr => (hmem r hr).1
      owned := fun r hr => (claimableWhere_iff.mp (hmem r hr).2.1).1.1.1
      pending := fun r hr => (claimableWhere_iff.mp (hmem r hr).2.1).1.1.2
      free := fun r hr => (hmem r hr).2.2
      nodup := nodup_limit (nodup_orderBy ((rows_nodup db).filter _)) }

variable {owner} {db}

/-- The reserved slot's window, from the table the call started in. -/
theorem reservedWindow_after {db' : Db} {dead : List String} (h : DeadLettered owner db dead db')
    (stamp : Stamp) :
    reservedWindow owner stamp db' = reservedAfter owner stamp db dead := by
  unfold reservedWindow reservedAfter
  rw [filter_claimable h stamp (fun r => r.kind == .command)]

/-! ## When a row is offered -/

private theorem any_command_iff {rows : List Row} :
    (rows.map rowToTask).any (fun t => t.kind == .command) = true ↔
      ∃ r ∈ rows, r.kind = .command := by
  simp [rowToTask]

private theorem offered_ne_nil_iff (window : List Row) :
    (window.filter (Row.ready owner db)).map rowToTask ≠ [] ↔
      ∃ r ∈ window, r.ready owner db = true := by
  simp [List.filter_eq_nil_iff]

/-- The batch with the reserved command in it, over the last row of a full one. -/
def withReserved (out : List DurableTask) :
    Option DurableTask → List DurableTask
  | none => out
  | some command =>
    if (out.length : Int) ≥ lim then out.dropLast ++ [command]
    else out ++ [command]

variable {lim} {out : List DurableTask}

private theorem withReserved_ne_nil_iff {reserved : Option DurableTask} :
    withReserved lim out reserved ≠ [] ↔ out ≠ [] ∨ reserved.isSome = true := by
  cases reserved with
  | none => simp [withReserved]
  | some command =>
    unfold withReserved
    dsimp only
    split <;> simp

variable {stamp} {now : Stamp}

/-- `claimable` once its window was scanned: the rows it answers are the ready ones
of the window, with the reserved command when no command is among them. -/
theorem claimable_of_scan {db₁ : Db}
    (hscan : scanReady owner now (claimableWindow owner lim stamp db) db = .ok (db₁, out)) :
    claimable owner lim stamp now db =
      if lim > 0 ∧ ¬ out.any (fun t => t.kind == .command) = true then do
        let (db, reserved) ← reservedCommandRow owner stamp now db₁
        return (db, withReserved lim out reserved)
      else .ok (db₁, out) := by
  unfold claimable
  rw [hscan]
  show (if lim > 0 ∧ ¬ out.any (fun t => t.kind == .command) = true then _ else _) = _
  split
  · cases reservedCommandRow owner stamp now db₁ with
    | error e => rfl
    | ok answer =>
      obtain ⟨db₂, reserved⟩ := answer
      cases reserved with
      | none => rfl
      | some command =>
        show (if _ then _ else _) = Except.ok (db₂, if _ then _ else _)
        split <;> rfl
  · rfl

def readyRows (owner : String) (lim : Int) (stamp : Stamp) (db : Db) : List Row :=
  (claimableWindow owner lim stamp db).filter (Row.ready owner db)

def reservedRows (owner : String) (lim : Int) (stamp : Stamp) (db : Db) : List Row :=
  reservedAfter owner stamp db
    (deadAfter owner db [] (claimableWindow owner lim stamp db))

/-- What a call of `claimable` answers, from the table it is given. -/
theorem claimable_ok_iff {owner : String} {lim : Int} {stamp now : Stamp} {db : Db}
    {out : List DurableTask} :
    (∃ db', claimable owner lim stamp now db = .ok (db', out)) ↔
      journalled owner db [] (claimableWindow owner lim stamp db) = true ∧
      if lim > 0 ∧ ¬ ∃ r ∈ readyRows owner lim stamp db, r.kind = .command then
        journalled owner db (deadAfter owner db [] (claimableWindow owner lim stamp db))
          ((reservedRows owner lim stamp db).takeWhile (fun r => !r.ready owner db)) =
            true ∧
        out = withReserved lim ((readyRows owner lim stamp db).map rowToTask)
          (((reservedRows owner lim stamp db).find? (Row.ready owner db)).map rowToTask)
      else out = (readyRows owner lim stamp db).map rowToTask := by
  have hscan := scanReady_spec (DeadLettered.refl owner db)
    (scanned_window owner lim stamp db) now
  split at hscan
  · rename_i hfits
    obtain ⟨db₁, hok, hdead⟩ := hscan
    have hcommand : ((readyRows owner lim stamp db).map rowToTask).any
        (fun t => t.kind == .command) = true ↔
          ∃ r ∈ readyRows owner lim stamp db, r.kind = .command := any_command_iff
    rw [claimable_of_scan hok, hfits]
    simp only [true_and]
    by_cases hslot : lim > 0 ∧ ¬ ∃ r ∈ readyRows owner lim stamp db, r.kind = .command
    · rw [if_pos hslot, if_pos ⟨hslot.1, fun hany => hslot.2 (hcommand.mp hany)⟩]
      have hfirst := firstReady_spec hdead (scanned_reserved owner stamp db _) now
      unfold reservedCommandRow reservedRows
      rw [reservedWindow_after hdead stamp]
      split at hfirst
      · rename_i hjournal
        obtain ⟨db₂, hfound⟩ := hfirst
        rw [hfound, hjournal]
        constructor
        · rintro ⟨db', heq⟩
          cases heq
          exact ⟨rfl, rfl⟩
        · rintro ⟨-, rfl⟩
          exact ⟨db₂, rfl⟩
      · rename_i hjournal
        obtain ⟨e, herror⟩ := hfirst
        rw [herror]
        constructor
        · rintro ⟨db', heq⟩
          cases heq
        · rintro ⟨htaken, -⟩
          exact absurd htaken hjournal
    · rw [if_neg hslot, if_neg fun h => hslot ⟨h.1, fun hany => h.2 (hcommand.mpr hany)⟩]
      constructor
      · rintro ⟨db', heq⟩
        cases heq
        rfl
      · rintro rfl
        exact ⟨db₁, rfl⟩
  · rename_i hfits
    obtain ⟨e, herror⟩ := hscan
    unfold claimable
    rw [herror]
    constructor
    · rintro ⟨db', heq⟩
      cases heq
    · rintro ⟨hfit, -⟩
      exact absurd hfit hfits

/-- `claimable` answers a row exactly where its two windows reach a ready one. -/
theorem offers_iff (hlim : 1 ≤ lim) :
    Offers owner lim stamp now db ↔ Reaches owner lim stamp db := by
  have hpos : lim > 0 := by omega
  have hcommand : (∃ r ∈ readyRows owner lim stamp db, r.kind = .command) ↔
      ∃ r ∈ claimableWindow owner lim stamp db,
        r.ready owner db = true ∧ r.kind = .command := by
    simp only [readyRows, List.mem_filter, and_assoc]
  have hready : (readyRows owner lim stamp db).map rowToTask ≠ [] ↔
      ∃ r ∈ claimableWindow owner lim stamp db, r.ready owner db = true :=
    offered_ne_nil_iff _
  have hreserved : (((reservedRows owner lim stamp db).find?
      (Row.ready owner db)).map rowToTask).isSome = true ↔
        ∃ r ∈ reservedRows owner lim stamp db, r.ready owner db = true := by
    rw [Option.isSome_map, List.find?_isSome]
  have hswap : Offers owner lim stamp now db ↔
      ∃ out, (∃ db', claimable owner lim stamp now db = .ok (db', out)) ∧ out ≠ [] := by
    constructor
    · rintro ⟨db', out, heq, hne⟩
      exact ⟨out, ⟨db', heq⟩, hne⟩
    · rintro ⟨out, ⟨db', heq⟩, hne⟩
      exact ⟨db', out, heq, hne⟩
  rw [hswap]
  simp only [claimable_ok_iff, hcommand, hpos, true_and, and_assoc, exists_and_left]
  unfold Reaches
  apply and_congr Iff.rfl
  by_cases hany : ∃ r ∈ claimableWindow owner lim stamp db,
      r.ready owner db = true ∧ r.kind = .command
  · have hsome : ∃ r ∈ claimableWindow owner lim stamp db, r.ready owner db = true :=
      hany.imp fun r hr => ⟨hr.1, hr.2.1⟩
    simp only [hany, not_true_eq_false, if_false, true_or, iff_true, exists_eq_left]
    exact hready.mpr hsome
  · simp only [hany, not_false_eq_true, if_true, false_or, and_assoc, exists_and_left,
      exists_eq_left, withReserved_ne_nil_iff, hready, hreserved]
    rfl

/-- **No head-of-line starvation**, on exactly the tables without a ready row and
those where the two windows reach one. -/
theorem no_starvation_iff (owner : String) (lim : Int) (stamp now : Stamp)
    (db : Db) (hlim : 1 ≤ lim) :
    NoStarvation owner lim stamp now db ↔
      ¬ HasReady owner stamp db ∨ Reaches owner lim stamp db := by
  rw [NoStarvation, offers_iff hlim]
  exact imp_iff_not_or

/-- A parent made to wait on the child it was reshaped into. -/
def reshapedRun : List Op :=
  [.enqueue DEFAULT_PRINCIPAL_ID
     { taskId := "parent", goal := "ship the release", status := .pending
       createdAt := 0, updatedAt := 0 },
   .enqueue DEFAULT_PRINCIPAL_ID
     { taskId := "child", goal := "write the changelog", status := .pending
       createdAt := 1, updatedAt := 1 },
   .setDependencies DEFAULT_PRINCIPAL_ID "parent" ["child"] 2]

/-- With one slot, the waiting parent hides the ready child. -/
theorem parent_starves_child :
    ¬ NoStarvation DEFAULT_PRINCIPAL_ID 1 3 3 (run step Db.fresh reshapedRun) := by
  intro h
  have hready : HasReady DEFAULT_PRINCIPAL_ID 3 (run step Db.fresh reshapedRun) :=
    ⟨_, List.mem_cons_of_mem _ List.mem_cons_self, by decide, by decide⟩
  obtain ⟨db', out, heq, hne⟩ := h hready
  cases heq
  exact hne rfl

/-- With two slots the child is offered. -/
theorem no_starvation_here :
    NoStarvation DEFAULT_PRINCIPAL_ID 2 3 3 (run step Db.fresh reshapedRun) := by
  refine (no_starvation_iff _ _ _ _ _ (by decide)).mpr (Or.inr ?_)
  refine ⟨by decide, Or.inr ⟨by decide, Or.inl ?_⟩⟩
  exact ⟨_, List.mem_cons_of_mem _ List.mem_cons_self, by decide⟩

end StackOwl.Durable
