import Mathlib.Algebra.GroupWithZero.Nat
import Mathlib.Data.List.Basic
import StackOwl.Lib.Text

/-!
# Blocks of pieces

A text split at a separator and joined again, and where a block of consecutive pieces stands
in it: behind the pieces before it, each with its separator, and before a separator or the
end.

## Main results

* `intercalate_block` — a joined text around one of its blocks.
* `splitOn_intercalate_block` — a block is split again into its pieces.
-/

namespace StackOwl.Lib

open List

variable {α : Type*} {a : α}

def terminated (a : α) (pieces : List (List α)) : List α := pieces.flatMap (· ++ [a])

def preceded (a : α) (pieces : List (List α)) : List α := pieces.flatMap (a :: ·)

theorem length_terminated (pieces : List (List α)) :
    (terminated a pieces).length = (pieces.map fun piece => piece.length + 1).sum := by
  induction pieces with
  | nil => rfl
  | cons piece pieces ih =>
    rw [terminated, flatMap_cons, length_append, length_append,
      length_singleton, map_cons, sum_cons, ← ih, terminated]

variable {block : List (List α)}

theorem intercalate_append_preceded (hblock : block ≠ []) (after : List (List α)) :
    [a].intercalate (block ++ after) = [a].intercalate block ++ preceded a after := by
  induction block with
  | nil => exact absurd rfl hblock
  | cons piece block ih =>
    cases block with
    | nil =>
      clear ih hblock
      induction after generalizing piece with
      | nil => simp [preceded]
      | cons next after ih =>
        have hrest := ih next
        rw [singleton_append] at hrest
        rw [singleton_append, intercalate_cons_cons, hrest]
        simp [preceded]
    | cons next block =>
      rw [cons_append, intercalate_cons_of_ne_nil (by simp),
        ih (cons_ne_nil _ _), intercalate_cons_cons, append_assoc]
      simp only [append_assoc]

theorem intercalate_terminated_append (before : List (List α)) (hblock : block ≠ []) :
    [a].intercalate (before ++ block) = terminated a before ++ [a].intercalate block := by
  induction before with
  | nil => rfl
  | cons piece before ih =>
    rw [cons_append, intercalate_cons_of_ne_nil (by simp [hblock]), ih]
    simp [terminated]

theorem intercalate_block (before after : List (List α)) (hblock : block ≠ []) :
    [a].intercalate (before ++ block ++ after) =
      terminated a before ++ [a].intercalate block ++ preceded a after := by
  rw [intercalate_append_preceded (by simp [hblock]), intercalate_terminated_append before hblock]

theorem length_intercalate_succ (hblock : block ≠ []) :
    ([a].intercalate block).length + 1 = (block.map fun piece => piece.length + 1).sum := by
  have hclosed : [a].intercalate (block ++ [[]]) = terminated a block := by
    rw [intercalate_terminated_append block (cons_ne_nil _ _), intercalate_singleton, append_nil]
  rw [← length_terminated, ← hclosed, intercalate_append_preceded hblock, length_append]
  rfl

/-- A joined text is split into what its pieces are split into. -/
theorem splitOn_intercalate_flatMap [BEq α] [LawfulBEq α] (hblock : block ≠ []) :
    ([a].intercalate block).splitOn a = block.flatMap fun piece => piece.splitOn a := by
  induction block with
  | nil => exact absurd rfl hblock
  | cons piece block ih =>
    cases block with
    | nil => simp
    | cons next block =>
      have hjoined : [a].intercalate (piece :: next :: block) =
          piece ++ a :: [a].intercalate (next :: block) := by
        simp [intercalate_cons_cons]
      rw [hjoined, splitOn_append_cons_self, ih (cons_ne_nil _ _)]
      rfl

theorem splitOn_intercalate_block [BEq α] [LawfulBEq α] {text : List α}
    (hmem : ∀ piece ∈ block, piece ∈ text.splitOn a) (hblock : block ≠ []) :
    ([a].intercalate block).splitOn a = block :=
  splitOn_intercalate a (fun piece h => not_mem_of_mem_splitOn (hmem piece h)) hblock

end StackOwl.Lib
