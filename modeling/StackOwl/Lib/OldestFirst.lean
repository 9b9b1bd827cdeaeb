import Mathlib.Algebra.Order.Group.Int
import Mathlib.Algebra.Ring.Int.Defs
import Mathlib.Data.List.Basic

/-!
# Replacing from the front until a total is small enough

A list whose items weigh something is to weigh no more than a limit.  Items are replaced one
after the other, from the front; the walk stops as soon as the total is within the limit.  What
replaces an item may depend on its position and may weigh more than the item did.

## Main results

* `untilWithin_eq` — the walk is a replacement of some items at the front, no more than needed.
* `totalOf_frontReplaced` — the total after it is the total before less what was saved.
* `untilWithin_idem` — walking again replaces nothing more.
-/

namespace StackOwl.Lib

variable {α : Type*} (weight : α → Int) (replace : Nat → α → α)

def totalOf (xs : List α) : Int := (xs.map weight).sum

/-- The first `k` items replaced; the first of all stands at position `i`. -/
def frontReplaced : Nat → Nat → List α → List α
  | i, k + 1, x :: xs => replace i x :: frontReplaced (i + 1) k xs
  | _, _, xs => xs

/-- What replacing the first `k` items saves. -/
def savedBy : Nat → Nat → List α → Int
  | i, k + 1, x :: xs => weight x - weight (replace i x) + savedBy (i + 1) k xs
  | _, _, _ => 0

/-- The walk, with the running total `left`. -/
def untilWithin (limit : Int) : Nat → Int → List α → List α
  | _, _, [] => []
  | i, left, x :: xs =>
    if left ≤ limit then x :: xs
    else replace i x ::
      untilWithin limit (i + 1) (left - (weight x - weight (replace i x))) xs

variable {weight replace}

@[simp] theorem totalOf_cons (x : α) (xs : List α) :
    totalOf weight (x :: xs) = weight x + totalOf weight xs :=
  List.sum_cons

variable (i : Nat)

@[simp] theorem frontReplaced_zero (xs : List α) :
    frontReplaced replace i 0 xs = xs := by
  cases xs <;> rfl

variable (k : Nat)

@[simp] theorem frontReplaced_nil : frontReplaced replace i k [] = [] := by
  cases k <;> rfl

@[simp] theorem savedBy_zero (xs : List α) : savedBy weight replace i 0 xs = 0 := by
  cases xs <;> rfl

@[simp] theorem savedBy_nil : savedBy weight replace i k [] = 0 := by
  cases k <;> rfl

theorem getElem?_frontReplaced (xs : List α) (j : Nat) :
    (frontReplaced replace i k xs)[j]? =
      if j < k then (xs[j]?).map (replace (i + j)) else xs[j]? := by
  induction xs generalizing i k j with
  | nil => simp
  | cons x xs ih =>
    cases k with
    | zero => simp
    | succ k =>
      cases j with
      | zero => simp [frontReplaced]
      | succ j =>
        have hStep := ih (i + 1) k j
        rw [show i + 1 + j = i + (j + 1) by omega] at hStep
        simpa [frontReplaced] using hStep

@[simp] theorem length_frontReplaced (xs : List α) :
    (frontReplaced replace i k xs).length = xs.length := by
  induction xs generalizing i k with
  | nil => simp
  | cons x xs ih =>
    cases k with
    | zero => simp
    | succ k => simp [frontReplaced, ih]

/-- **The total after a replacement.** -/
theorem totalOf_frontReplaced (xs : List α) :
    totalOf weight (frontReplaced replace i k xs) =
      totalOf weight xs - savedBy weight replace i k xs := by
  induction xs generalizing i k with
  | nil => simp
  | cons x xs ih =>
    cases k with
    | zero => simp
    | succ k =>
      have hRest := ih (i + 1) k
      simp only [frontReplaced, savedBy, totalOf_cons]
      omega

theorem savedBy_of_length_le {k : Nat} {xs : List α} (hk : xs.length ≤ k) (i : Nat) :
    savedBy weight replace i k xs = savedBy weight replace i xs.length xs := by
  induction xs generalizing i k with
  | nil => simp
  | cons x xs ih =>
    cases k with
    | zero => simp at hk
    | succ k =>
      show _ + savedBy weight replace (i + 1) k xs = _ + savedBy weight replace (i + 1) _ xs
      rw [ih (Nat.le_of_succ_le_succ hk)]

variable (weight replace) in
/-- **The walk.**  It replaces the items in front of the first position at which enough is
saved, and all of them where there is none. -/
theorem untilWithin_eq (limit : Int) (i : Nat) (left : Int) (xs : List α) :
    ∃ k ≤ xs.length, untilWithin weight replace limit i left xs = frontReplaced replace i k xs ∧
      (∀ j < k, limit < left - savedBy weight replace i j xs) ∧
      (k < xs.length → left - savedBy weight replace i k xs ≤ limit) := by
  induction xs generalizing i left with
  | nil => exact ⟨0, Nat.le_refl 0, rfl, fun j hj => absurd hj (Nat.not_lt_zero j), by simp⟩
  | cons x xs ih =>
    by_cases hWithin : left ≤ limit
    · refine ⟨0, Nat.zero_le _, ?_, fun j hj => absurd hj (Nat.not_lt_zero j), fun _ => ?_⟩
      · rw [untilWithin, if_pos hWithin, frontReplaced_zero]
      · simpa using hWithin
    · obtain ⟨k, hLength, hWalk, hBefore, hAfter⟩ :=
        ih (i + 1) (left - (weight x - weight (replace i x)))
      refine ⟨k + 1, Nat.succ_le_succ hLength, ?_, fun j hj => ?_, fun hk => ?_⟩
      · rw [untilWithin, if_neg hWithin, hWalk]
        rfl
      · cases j with
        | zero => simpa using Int.not_le.mp hWithin
        | succ j =>
          have hStep := hBefore j (Nat.lt_of_succ_lt_succ hj)
          simp only [savedBy]
          omega
      · have hStep := hAfter (Nat.lt_of_succ_lt_succ hk)
        simp only [savedBy]
        omega

theorem frontReplaced_idem (hReplace : ∀ i x, replace i (replace i x) = replace i x)
    (i k : Nat) (xs : List α) {j : Nat} (hj : j ≤ k) :
    frontReplaced replace i j (frontReplaced replace i k xs) = frontReplaced replace i k xs := by
  apply List.ext_getElem?
  intro n
  simp only [getElem?_frontReplaced]
  by_cases hn : n < j
  · rw [if_pos hn, if_pos (show n < k by omega), Option.map_map]
    exact congrArg (Option.map · _) (funext (hReplace (i + n)))
  · rw [if_neg hn]

/-- **Walking again replaces nothing more.** -/
theorem untilWithin_idem (hReplace : ∀ i x, replace i (replace i x) = replace i x)
    {limit : Int} {i k : Nat} {xs : List α} (hk : k ≤ xs.length)
    (hEnough : k < xs.length → totalOf weight (frontReplaced replace i k xs) ≤ limit) :
    untilWithin weight replace limit i (totalOf weight (frontReplaced replace i k xs))
      (frontReplaced replace i k xs) = frontReplaced replace i k xs := by
  obtain ⟨j, hj, hAgain, hBefore, -⟩ := untilWithin_eq weight replace limit i
    (totalOf weight (frontReplaced replace i k xs)) (frontReplaced replace i k xs)
  have hOnly : j ≤ k := by
    by_contra hMore
    rw [length_frontReplaced] at hj
    have hOver := hBefore 0 (show 0 < j by omega)
    have hWithin := hEnough (show k < xs.length by omega)
    rw [savedBy_zero] at hOver
    omega
  rw [hAgain, frontReplaced_idem hReplace i k xs hOnly]

end StackOwl.Lib
