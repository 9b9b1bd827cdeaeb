import Mathlib.Data.List.Sort
import StackOwl.Objectives.Driver

/-!
# The positions of sub-goals

`list_subgoals`, `add_subgoals` and `replace_subgoal_with_children` (`objectives/store.py`): a split
moves the later rows up by the number of its children and leaves the parent's place free; a batch
is numbered from the count of the rows.

## Main results

* `plan_kept` — where every batch finds the positions below the count of the rows taken, the plan
  is what the batches and the splits make of it, and the ticks come to one that runs a sub-goal.
-/

namespace StackOwl.Objectives

open Lib List

/-- A row of `objective_subgoals`. -/
structure PlanRow where
  subgoal : Subgoal
  position : Nat

def PlanRow.id (row : PlanRow) : String := row.subgoal.id

def listSubgoals (rows : List PlanRow) : List PlanRow :=
  rows.insertionSort fun a b => a.position ≤ b.position

def placed (start : Nat) (items : List Subgoal) : List PlanRow :=
  (items.zipIdx start).map fun item => ⟨item.1, item.2⟩

def addSubgoals (items : List Subgoal) (rows : List PlanRow) : List PlanRow :=
  rows ++ placed (listSubgoals rows).length items

/-- The `UPDATE` of a split. -/
def shiftFrom (position count : Nat) (row : PlanRow) : PlanRow :=
  if position ≤ row.position then { row with position := row.position + count } else row

/-- The `UPDATE`, the `INSERT`s and the `DELETE` of a split. -/
def splitStatements (parent : PlanRow) (children : List Subgoal) :
    List (List PlanRow → List PlanRow) :=
  map (shiftFrom parent.position children.length) ::
    (placed parent.position children).map (fun row rows => rows ++ [row]) ++
    [filter fun row => row.id ≠ parent.id]

/-- A transaction, which is rolled back if one of its statements fails. -/
def transaction (statements : List (List PlanRow → List PlanRow)) (fault : Option Nat)
    (rows : List PlanRow) : List PlanRow :=
  if fault.any (· < statements.length) then rows
  else statements.foldl (fun rows statement => statement rows) rows

def replaceSubgoalWithChildren (parent : PlanRow) (children : List Subgoal) (fault : Option Nat)
    (rows : List PlanRow) : List PlanRow :=
  if children = [] then rows else transaction (splitStatements parent children) fault rows

/-! ## Runs -/

/-- An id is minted wherever one is inserted. -/
inductive PlanStep where
  | batch (items : List Subgoal)
  | split (id : String) (children : List (String × Rat)) (fault : Option Nat)

/-- The children of a split, pending, one level deeper. -/
def childrenOf (parent : Subgoal) (children : List (String × Rat)) : List Subgoal :=
  children.map fun child =>
    { id := child.1
      estimatedComplexity := child.2
      decompositionDepth := parent.decompositionDepth + 1 }

def planStep (rows : List PlanRow) : PlanStep → List PlanRow
  | .batch items => addSubgoals items rows
  | .split id children fault =>
    match (listSubgoals rows).find? (·.id = id) with
    | none => rows
    | some parent =>
      replaceSubgoalWithChildren parent (childrenOf parent.subgoal children) fault rows

def intended (plan : List Subgoal) : PlanStep → List Subgoal
  | .batch items => plan ++ items
  | .split id children fault =>
    if children = [] ∨ fault.any (· < children.length + 2) then plan
    else plan.flatMap fun sg => if sg.id = id then childrenOf sg children else [sg]

def watchedStep : List PlanRow × List Subgoal → PlanStep → List PlanRow × List Subgoal :=
  watch planStep fun _ plan step => intended plan step

/-- The rows list the plan, and no position is taken twice. -/
def PlanKept (s : List PlanRow × List Subgoal) : Prop :=
  (listSubgoals s.1).map PlanRow.subgoal = s.2 ∧ (s.1.map PlanRow.position).Nodup

/-- New ids, none of which is taken. -/
def Untaken (new : List String) (rows : List PlanRow) : Prop :=
  new.Nodup ∧ ∀ id ∈ new, id ∉ rows.map PlanRow.id

/-- Ids are fresh, and a batch is empty or finds every position below the count of the rows. -/
def Numbered (s : List PlanRow × List Subgoal) : PlanStep → Prop
  | .batch items =>
    Untaken (items.map Subgoal.id) s.1 ∧ (items = [] ∨ ∀ row ∈ s.1, row.position < s.1.length)
  | .split _ children _ => Untaken (children.map Prod.fst) s.1

instance : ∀ s step, Decidable (Numbered s step)
  | _, .batch _ | _, .split _ _ _ => by unfold Numbered Untaken; infer_instance

/-! ## Sorted rows -/

variable {rows listed : List PlanRow} {parent : PlanRow}

def Rising (rows : List PlanRow) : Prop := rows.Pairwise fun a b => a.position < b.position

/-- The positions rise, and no id is taken twice. -/
structure Ordered (rows : List PlanRow) : Prop where
  rising : Rising (listSubgoals rows)
  ids : (rows.map PlanRow.id).Nodup

theorem perm_listSubgoals (rows : List PlanRow) : (listSubgoals rows).Perm rows :=
  perm_insertionSort _ rows

theorem mem_of_listed {row : PlanRow} (h : row ∈ listSubgoals rows) : row ∈ rows :=
  (perm_listSubgoals rows).subset h

theorem Rising.nodup (h : Rising listed) : (listed.map PlanRow.position).Nodup :=
  pairwise_map.mpr (h.imp fun hlt => Nat.ne_of_lt hlt)

theorem listSubgoals_eq (hperm : rows.Perm listed) (hrising : Rising listed) :
    listSubgoals rows = listed := by
  have hsorted : (listSubgoals rows).Pairwise fun a b => a.position ≤ b.position := by
    have : IsTrans PlanRow fun a b => a.position ≤ b.position := ⟨fun _ _ _ => Nat.le_trans⟩
    have : Std.Total fun a b : PlanRow => a.position ≤ b.position := ⟨fun _ _ => Nat.le_total _ _⟩
    exact pairwise_insertionSort _ rows
  have hsame := (perm_listSubgoals rows).trans hperm
  refine hsame.eq_of_pairwise (fun a b ha hb hab hba => ?_) hsorted (hrising.imp Nat.le_of_lt)
  exact inj_on_of_nodup_map hrising.nodup (hsame.subset ha) hb (Nat.le_antisymm hab hba)

theorem Ordered.positions (h : Ordered rows) : (rows.map PlanRow.position).Nodup :=
  ((perm_listSubgoals rows).map _).nodup_iff.mp h.rising.nodup

theorem Ordered.of_perm (hperm : rows.Perm listed) (hrising : Rising listed)
    (hids : (rows.map PlanRow.id).Nodup) : Ordered rows ∧ listSubgoals rows = listed := by
  have hlisted := listSubgoals_eq hperm hrising
  exact ⟨⟨hlisted ▸ hrising, hids⟩, hlisted⟩

/-! ## Placed rows -/

section

variable {start : Nat} {items : List Subgoal}

theorem mem_placed {row : PlanRow} (h : row ∈ placed start items) :
    start ≤ row.position ∧ row.position < start + items.length := by
  obtain ⟨item, hitem, rfl⟩ := mem_map.mp h
  exact ⟨le_snd_of_mem_zipIdx hitem, snd_lt_add_of_mem_zipIdx hitem⟩

theorem placed_rising (start : Nat) (items : List Subgoal) : Rising (placed start items) := by
  have hrange := pairwise_lt_range' (s := start) (n := items.length)
  rw [← zipIdx_map_snd start items] at hrange
  exact pairwise_map.mpr (pairwise_map.mp hrange)

theorem map_placed (start : Nat) (items : List Subgoal) :
    (placed start items).map PlanRow.subgoal = items := by
  rw [placed, map_map]
  exact zipIdx_map_fst start items

theorem map_id_placed (start : Nat) (items : List Subgoal) :
    (placed start items).map PlanRow.id = items.map Subgoal.id := by
  conv_rhs => rw [← map_placed start items, map_map]
  rfl

theorem nodup_append_placed (h : (rows.map PlanRow.id).Nodup)
    (hfresh : Untaken (items.map Subgoal.id) rows) :
    ((rows ++ placed start items).map PlanRow.id).Nodup := by
  rw [map_append, map_id_placed]
  exact h.append hfresh.1 fun id hid hnew => hfresh.2 id hnew hid

/-- **A batch behind every position is listed at the end.** -/
theorem Ordered.add (h : Ordered rows) (hfresh : Untaken (items.map Subgoal.id) rows)
    (hnumbered : items = [] ∨ ∀ row ∈ rows, row.position < rows.length) :
    Ordered (addSubgoals items rows) ∧ listSubgoals (addSubgoals items rows) =
      listSubgoals rows ++ placed (listSubgoals rows).length items := by
  refine Ordered.of_perm ((perm_listSubgoals rows).symm.append_right _)
    (pairwise_append.mpr ⟨h.rising, placed_rising _ _, fun row hrow new hnew => ?_⟩)
    (nodup_append_placed h.ids hfresh)
  have hplace := mem_placed hnew
  rcases hnumbered with rfl | hbelow
  · cases hnew
  · have hlt := hbelow row (mem_of_listed hrow)
    rw [(perm_listSubgoals rows).length_eq] at hplace
    omega

end

/-! ## Splits -/

theorem shiftFrom_subgoal (position count : Nat) (row : PlanRow) :
    (shiftFrom position count row).subgoal = row.subgoal := by
  unfold shiftFrom
  split <;> rfl

theorem map_id_shiftFrom (position count : Nat) (rows : List PlanRow) :
    (rows.map (shiftFrom position count)).map PlanRow.id = rows.map PlanRow.id := by
  rw [map_map]
  exact map_congr_left fun row _ => congrArg Subgoal.id (shiftFrom_subgoal ..)

section

variable {children : List Subgoal}

theorem length_splitStatements (parent : PlanRow) (children : List Subgoal) :
    (splitStatements parent children).length = children.length + 2 := by
  simp [splitStatements, placed]

variable {fault : Option Nat}

/-- A split of no children, and one that fails at a statement, changes nothing. -/
theorem replace_eq_self (h : children = [] ∨ fault.any (· < children.length + 2)) :
    replaceSubgoalWithChildren parent children fault rows = rows := by
  rw [replaceSubgoalWithChildren, transaction, length_splitStatements]
  rcases h with hnone | hfault
  · exact if_pos hnone
  · rw [if_pos hfault, ite_self]

theorem foldl_insert (new rows : List PlanRow) :
    (new.map fun row (rows : List PlanRow) => rows ++ [row]).foldl
      (fun rows statement => statement rows) rows = rows ++ new := by
  induction new generalizing rows with
  | nil => exact (append_nil rows).symm
  | cons row new ih =>
    rw [map_cons, foldl_cons, ih, append_assoc]
    rfl

def inPlace (parent : PlanRow) (children : List Subgoal) (row : PlanRow) : List PlanRow :=
  if row.id = parent.id then placed parent.position children
  else [shiftFrom parent.position children.length row]

theorem perm_inPlace (hids : (rows.map PlanRow.id).Nodup) (hparent : parent ∈ rows)
    (hfresh : Untaken (children.map Subgoal.id) rows) :
    ((rows.map (shiftFrom parent.position children.length) ++
        placed parent.position children).filter fun row => row.id ≠ parent.id).Perm
      (rows.flatMap (inPlace parent children)) := by
  have hkeep : ∀ part : List PlanRow, parent.id ∉ part.map PlanRow.id →
      part.filter (fun row => row.id ≠ parent.id) = part := fun part hnot =>
    filter_eq_self.mpr fun row hrow => decide_eq_true fun hsame =>
      hnot (hsame ▸ mem_map_of_mem hrow)
  have hothers : ∀ part : List PlanRow, parent.id ∉ part.map PlanRow.id →
      part.flatMap (inPlace parent children) =
        part.map (shiftFrom parent.position children.length) := fun part hnot => by
    rw [map_eq_flatMap]
    exact flatMap_congr fun row hrow => if_neg fun hsame : row.id = parent.id =>
      hnot (hsame ▸ mem_map_of_mem hrow)
  have hchildren : parent.id ∉ (placed parent.position children).map PlanRow.id := by
    rw [map_id_placed]
    exact fun hmem => hfresh.2 _ hmem (mem_map_of_mem hparent)
  obtain ⟨front, back, rfl⟩ := append_of_mem hparent
  rw [map_append, map_cons, nodup_append, nodup_cons] at hids
  have hfront : parent.id ∉ front.map PlanRow.id := fun hmem =>
    hids.2.2 _ hmem _ mem_cons_self rfl
  have hback := hids.2.1.1
  rw [flatMap_append, flatMap_cons, hothers front hfront, hothers back hback, inPlace, if_pos rfl,
    map_append, map_cons, filter_append, filter_append,
    filter_cons_of_neg (by simp [PlanRow.id, shiftFrom_subgoal]), hkeep _ hchildren, hkeep, hkeep,
    append_assoc]
  · exact perm_append_comm.append_left _
  · rwa [map_id_shiftFrom]
  · rwa [map_id_shiftFrom]

variable (h : Ordered rows) (hparent : parent ∈ rows)

include h hparent

theorem mem_inPlace {row new : PlanRow} (hrow : row ∈ rows)
    (hnew : new ∈ inPlace parent children row) :
    (row = parent ∧ parent.position ≤ new.position ∧
      new.position < parent.position + children.length) ∨
    (row.position < parent.position ∧ new.position = row.position) ∨
    parent.position < row.position ∧ new.position = row.position + children.length := by
  unfold inPlace at hnew
  split at hnew
  · rename_i hsame
    exact .inl ⟨inj_on_of_nodup_map h.ids hrow hparent hsame, mem_placed hnew⟩
  · rename_i hother
    rw [mem_singleton.mp hnew]
    have hne : row.position ≠ parent.position := fun hsame =>
      hother (congrArg PlanRow.id (inj_on_of_nodup_map h.positions hrow hparent hsame))
    unfold shiftFrom
    split
    · exact .inr (.inr ⟨by omega, rfl⟩)
    · exact .inr (.inl ⟨by omega, rfl⟩)

/-- **A split replaces the parent in place.** -/
theorem Ordered.split (hsome : children ≠ []) (hdone : ¬fault.any (· < children.length + 2))
    (hfresh : Untaken (children.map Subgoal.id) rows) :
    Ordered (replaceSubgoalWithChildren parent children fault rows) ∧
      listSubgoals (replaceSubgoalWithChildren parent children fault rows) =
        (listSubgoals rows).flatMap (inPlace parent children) := by
  have hafter : replaceSubgoalWithChildren parent children fault rows =
      (rows.map (shiftFrom parent.position children.length) ++
        placed parent.position children).filter fun row => row.id ≠ parent.id := by
    rw [replaceSubgoalWithChildren, if_neg hsome, transaction, length_splitStatements, if_neg hdone,
      splitStatements, cons_append, foldl_cons, foldl_append, foldl_insert]
    rfl
  have hperm : (replaceSubgoalWithChildren parent children fault rows).Perm
      ((listSubgoals rows).flatMap (inPlace parent children)) := by
    rw [hafter]
    exact (perm_inPlace h.ids hparent hfresh).trans ((perm_listSubgoals rows).symm.flatMap_right _)
  refine Ordered.of_perm hperm (pairwise_flatMap.mpr ⟨fun row _ => ?_, h.rising.imp_of_mem ?_⟩) ?_
  · unfold inPlace
    split
    · exact placed_rising _ _
    · exact pairwise_singleton _ _
  · intro a b ha hb hlt x hx y hy
    rcases mem_inPlace h hparent (mem_of_listed ha) hx with
      ⟨rfl, hx⟩ | hx | hx <;>
    rcases mem_inPlace h hparent (mem_of_listed hb) hy with
      ⟨rfl, hy⟩ | hy | hy <;> omega
  · rw [hafter]
    have hshifted := map_id_shiftFrom parent.position children.length rows
    rw [Untaken, ← hshifted] at hfresh
    exact (nodup_append_placed (hshifted ▸ h.ids) hfresh).sublist (filter_sublist.map _)

end

/-! ## Runs keep the plan -/

/-- What holds between the steps of a run. -/
def PlanInv (s : List PlanRow × List Subgoal) : Prop :=
  Ordered s.1 ∧ (listSubgoals s.1).map PlanRow.subgoal = s.2

variable {s : List PlanRow × List Subgoal}

theorem PlanInv.kept (h : PlanInv s) : PlanKept s :=
  ⟨h.2, h.1.positions⟩

theorem map_id_childrenOf (parent : Subgoal) (children : List (String × Rat)) :
    (childrenOf parent children).map Subgoal.id = children.map Prod.fst := map_map

theorem PlanInv.step (h : PlanInv s) (step : PlanStep) (hnumbered : Numbered s step)
    : PlanInv (watchedStep s step) := by
  obtain ⟨rows, plan⟩ := s
  obtain ⟨hordered, rfl⟩ : Ordered rows ∧ (listSubgoals rows).map PlanRow.subgoal = plan := h
  cases step with
  | batch items =>
    obtain ⟨hadded, hlisted⟩ := hordered.add hnumbered.1 hnumbered.2
    refine ⟨hadded, ?_⟩
    show (listSubgoals (addSubgoals items rows)).map _ = _ ++ items
    rw [hlisted, map_append, map_placed]
  | split id children fault =>
    have hplan : ((listSubgoals rows).map PlanRow.subgoal).flatMap
        (fun sg => if sg.id = id then childrenOf sg children else [sg]) =
      (listSubgoals rows).flatMap fun row =>
        if row.id = id then childrenOf row.subgoal children else [row.subgoal] := flatMap_map ..
    show PlanInv (planStep rows (.split id children fault), intended _ (.split id children fault))
    rw [planStep, intended, hplan]
    cases hfind : (listSubgoals rows).find? (·.id = id) with
    | none =>
      refine ⟨hordered, (ite_eq_left_iff.mpr fun _ => ?_).symm⟩
      rw [map_eq_flatMap]
      exact flatMap_congr fun row hrow => if_neg (by simpa using find?_eq_none.mp hfind row hrow)
    | some parent =>
      dsimp only
      have hchildren : childrenOf parent.subgoal children = [] ↔ children = [] := map_eq_nil_iff
      have hlength : (childrenOf parent.subgoal children).length = children.length := length_map ..
      obtain rfl : parent.id = id := by simpa using find?_some hfind
      have hparent := mem_of_listed (mem_of_find?_eq_some hfind)
      by_cases hdone : children = [] ∨ fault.any (· < children.length + 2)
      · rw [if_pos hdone, replace_eq_self (by rwa [hchildren, hlength])]
        exact ⟨hordered, rfl⟩
      · rw [if_neg hdone]
        rw [not_or, ← hlength, ← hchildren] at hdone
        have hfresh : Untaken ((childrenOf parent.subgoal children).map Subgoal.id) rows := by
          rw [map_id_childrenOf]
          exact hnumbered
        obtain ⟨hsplit, hlisted⟩ := hordered.split hparent hdone.1 hdone.2 hfresh
        refine ⟨hsplit, ?_⟩
        show (listSubgoals (replaceSubgoalWithChildren ..)).map _ = _
        rw [hlisted, map_flatMap]
        refine flatMap_congr fun row hrow => ?_
        unfold inPlace
        split
        · rename_i hsame
          have hrow := mem_of_listed hrow
          rw [map_placed, inj_on_of_nodup_map hordered.ids hrow hparent hsame]
        · exact congrArg (· :: []) (shiftFrom_subgoal ..)

/-! ## Ticks -/

/-- What a tick does with the sub-goal that is next. -/
inductive TickResult where
  | idle
  | runs (sg : Subgoal)
  | splits (rows : List PlanRow)

/-- The tick of an objective, where the decomposer answers with some children. -/
def planningTick (children : List (String × Rat)) (rows : List PlanRow) : TickResult :=
  match nextPending ((listSubgoals rows).map PlanRow.subgoal) with
  | none => .idle
  | some nxt =>
    if ADAPTIVE_DECOMPOSITION_THRESHOLD ≤ nxt.estimatedComplexity ∧
        nxt.decompositionDepth < MAX_DECOMPOSITION_DEPTH ∧ 2 ≤ children.length then
      .splits (planStep rows (.split nxt.id children none))
    else .runs nxt

/-- A tick runs a sub-goal after at most so many splits. -/
def RunsWithin (decompose : List PlanRow → List (String × Rat)) : Nat → List PlanRow → Prop
  | 0, rows => ∃ sg, planningTick (decompose rows) rows = .runs sg
  | splits + 1, rows =>
    match planningTick (decompose rows) rows with
    | .idle => False
    | .runs _ => True
    | .splits after => RunsWithin decompose splits after

/-- The decomposer's children have new ids. -/
def Mints (decompose : List PlanRow → List (String × Rat)) : Prop :=
  ∀ rows, Untaken ((decompose rows).map Prod.fst) rows

variable {nxt : Subgoal}

theorem nextPending_split {plan : List Subgoal} {child : String × Rat} {rest : List (String × Rat)}
    (hids : (plan.map Subgoal.id).Nodup) (hnext : nextPending plan = some nxt) :
    nextPending (intended plan (.split nxt.id (child :: rest) none)) =
      (childrenOf nxt (child :: rest)).head? := by
  obtain ⟨-, front, back, rfl, hbefore⟩ := find?_eq_some_iff_append.mp hnext
  rw [map_append, map_cons, nodup_append] at hids
  rw [intended, if_neg (by simp), flatMap_append, flatMap_cons, if_pos rfl, nextPending,
    find?_append, find?_eq_none.mpr fun sg hsg => ?_]
  · rfl
  · obtain ⟨old, hold, hmem⟩ := mem_flatMap.mp hsg
    rw [if_neg (hids.2.2 _ (mem_map_of_mem hold) _ mem_cons_self), mem_singleton] at hmem
    simpa [hmem] using hbefore old hold

variable {decompose : List PlanRow → List (String × Rat)} (hmints : Mints decompose)

include hmints

theorem runsWithin_of_next {splits : Nat} (h : PlanInv s) (hnext : nextPending s.2 = some nxt)
    (hdepth : MAX_DECOMPOSITION_DEPTH ≤ nxt.decompositionDepth + splits) :
    RunsWithin decompose splits s.1 := by
  induction splits generalizing s nxt with
  | zero =>
    refine ⟨nxt, ?_⟩
    rw [planningTick, h.2, hnext]
    exact if_neg fun hsplit => absurd hsplit.2.1 (Nat.not_lt.mpr hdepth)
  | succ splits ih =>
    rw [RunsWithin, planningTick, h.2, hnext]
    dsimp only
    by_cases hsplit : ADAPTIVE_DECOMPOSITION_THRESHOLD ≤ nxt.estimatedComplexity ∧
        nxt.decompositionDepth < MAX_DECOMPOSITION_DEPTH ∧ 2 ≤ (decompose s.1).length
    · rw [if_pos hsplit]
      have hafter := h.step (.split nxt.id (decompose s.1) none) (hmints s.1)
      have hids : (s.2.map Subgoal.id).Nodup := by
        rw [← h.2, map_map]
        exact ((perm_listSubgoals s.1).map _).nodup_iff.mpr h.1.ids
      cases hchildren : decompose s.1 with
      | nil => simp [hchildren] at hsplit
      | cons child rest =>
        rw [hchildren] at hafter
        refine ih hafter (nextPending_split hids hnext) ?_
        show _ ≤ nxt.decompositionDepth + 1 + splits
        omega
    · rw [if_neg hsplit]
      trivial

/-- **An objective comes to a tick that runs a sub-goal.** -/
theorem runs_within (h : PlanInv s) (hpending : ∃ row ∈ s.1, row.subgoal.status = .pending) :
    RunsWithin decompose MAX_DECOMPOSITION_DEPTH s.1 := by
  obtain ⟨row, hrow, hstatus⟩ := hpending
  cases hnext : nextPending s.2 with
  | none =>
    have hnot := find?_eq_none.mp hnext row.subgoal
      (h.2 ▸ mem_map_of_mem ((perm_listSubgoals s.1).symm.subset hrow))
    exact absurd hstatus (by simpa using hnot)
  | some nxt => exact runsWithin_of_next hmints h hnext (Nat.le_add_left ..)

omit hmints

/-- **The plan of an objective** along a run of batches and splits, whose batches find every
position below the count of the rows taken; a split that fails; and the ticks behind it. -/
theorem plan_kept (steps : List PlanStep) (h : Meets watchedStep Numbered ([], []) steps) :
    Along watchedStep PlanKept ([], []) steps ∧
    (∀ parent children rows, ∀ fault < (splitStatements parent children).length,
      replaceSubgoalWithChildren parent children (some fault) rows = rows) ∧
    ∀ decompose, Mints decompose →
      Along watchedStep
        (fun s => (∃ row ∈ s.1, row.subgoal.status = .pending) →
          RunsWithin decompose MAX_DECOMPOSITION_DEPTH s.1) ([], []) steps := by
  have hinv : Along watchedStep PlanInv ([], []) steps :=
    along_of_meets (fun _ step hs hnumbered => hs.step step hnumbered)
      ⟨⟨Pairwise.nil, nodup_nil⟩, rfl⟩ h
  refine ⟨hinv.mono fun _ hs => hs.kept, fun parent children rows fault hfails => ?_,
    fun decompose hmints => hinv.mono fun _ hs => runs_within hmints hs⟩
  rw [length_splitStatements] at hfails
  exact replace_eq_self (.inr (decide_eq_true hfails))

/-- Two steps, of which the last is split. -/
theorem plan_kept_of_two :
    Along watchedStep PlanKept ([], [])
      [.batch [{ id := "a" }, { id := "b" }], .split "b" [("c", 0), ("d", 0)] none,
        .batch [{ id := "e" }]] :=
  (plan_kept _ (by decide)).1

/-- A batch behind the split of an earlier step takes a position that is taken. -/
theorem position_taken_twice : ¬∀ steps, Along watchedStep PlanKept ([], []) steps := by
  intro h
  have hlast := (h [.batch [{ id := "a" }, { id := "b" }], .split "a" [("c", 0), ("d", 0)] none,
    .batch [{ id := "e" }]]).last
  exact absurd hlast.2 (by decide)

end StackOwl.Objectives
