import Mathlib.Data.List.Basic

/-!
# Positions in a sorted list

In a list that never falls, the first entry that is a value stands behind those below it.

## Main results

* `findIdx_eq_countBelow` — the position of the first entry that is a value.
-/

namespace StackOwl.Lib

variable {xs : List Nat} {x : Nat}

/-- How many entries at the front of a list are below a bound. -/
def countBelow (bound : Nat) (xs : List Nat) : Nat := (xs.takeWhile (· < bound)).length

theorem countBelow_cons (bound x : Nat) (xs : List Nat) :
    countBelow bound (x :: xs) = if x < bound then countBelow bound xs + 1 else 0 := by
  by_cases h : x < bound <;> simp [countBelow, h]

theorem countBelow_le_length (bound : Nat) (xs : List Nat) : countBelow bound xs ≤ xs.length :=
  (List.takeWhile_prefix _).length_le

theorem countBelow_eq_zero {bound : Nat} (h : ∀ x ∈ xs, bound ≤ x) : countBelow bound xs = 0 := by
  cases xs with
  | nil => rfl
  | cons x xs => rw [countBelow_cons, if_neg (Nat.not_lt.mpr (h x List.mem_cons_self))]

theorem countBelow_mono {low high : Nat} (h : low ≤ high) (xs : List Nat) :
    countBelow low xs ≤ countBelow high xs := by
  induction xs with
  | nil => exact Nat.le_refl _
  | cons x xs ih =>
    rw [countBelow_cons, countBelow_cons]
    by_cases hx : x < low
    · rw [if_pos hx, if_pos (Nat.lt_of_lt_of_le hx h)]
      exact Nat.succ_le_succ ih
    · rw [if_neg hx]
      exact Nat.zero_le _

/-- The first entry that is a value stands behind the entries below it. -/
theorem findIdx_eq_countBelow (hsorted : xs.Pairwise (· ≤ ·)) (hmem : x ∈ xs) :
    xs.findIdx? (· == x) = some (countBelow x xs) := by
  induction xs with
  | nil => cases hmem
  | cons y ys ih =>
    obtain ⟨hleast, hrest⟩ := List.pairwise_cons.mp hsorted
    rw [List.findIdx?_cons, countBelow_cons]
    by_cases heq : y = x
    · rw [if_pos (by simp [heq]), if_neg (by omega)]
    · have htail : x ∈ ys := (List.mem_cons.mp hmem).resolve_left (Ne.symm heq)
      have hlt : y < x := Nat.lt_of_le_of_ne (hleast x htail) heq
      rw [if_neg (by simp [heq]), if_pos hlt, ih hrest htail]
      rfl

end StackOwl.Lib
