import Mathlib.Logic.Function.Basic
import Mathlib.Data.List.Basic

/-!
# Assignments carried out in order

A list of assignments carried out on a map, one after the other.  What a place holds
afterwards is the last word on it, and what it held before where there is none.

## Main results

* `replay_apply` — the last word on a place is what it holds.
* `replay_eq_iff` — when a list of assignments brings a map to another one.
-/

namespace StackOwl.Lib

open Option

variable {P V : Type*} [DecidableEq P]

/-- The assignments `writes`, in their order. -/
def replay (m : P → V) : List (P × V) → P → V
  | [] => m
  | w :: writes => replay (Function.update m w.1 w.2) writes

/-- What the last assignment to `p` puts there. -/
def lastWord (p : P) : List (P × V) → Option V
  | [] => none
  | w :: writes => (lastWord p writes).or (if w.1 = p then some w.2 else none)

theorem replay_append (m : P → V) (ws vs : List (P × V)) :
    replay m (ws ++ vs) = replay (replay m ws) vs := by
  induction ws generalizing m with
  | nil => rfl
  | cons w ws ih => exact ih _

theorem replay_apply (m : P → V) (writes : List (P × V)) (p : P) :
    replay m writes p = (lastWord p writes).getD (m p) := by
  induction writes generalizing m with
  | nil => rfl
  | cons w writes ih =>
    rw [replay, ih, lastWord]
    cases lastWord p writes with
    | some v => rfl
    | none =>
      rw [none_or, getD_none, Function.update_apply]
      by_cases hp : w.1 = p
      · rw [if_pos hp, if_pos hp.symm, getD_some]
      · rw [if_neg hp, if_neg (Ne.symm hp), getD_none]

theorem replay_eq_iff (m target : P → V) (writes : List (P × V)) :
    replay m writes = target ↔ ∀ p, (lastWord p writes).getD (m p) = target p := by
  simp only [funext_iff, replay_apply]

theorem lastWord_eq_none_iff (p : P) (writes : List (P × V)) :
    lastWord p writes = none ↔ ∀ w ∈ writes, w.1 ≠ p := by
  induction writes with
  | nil => simp [lastWord]
  | cons w writes ih =>
    rw [lastWord, or_eq_none_iff, ih, List.forall_mem_cons, and_comm]
    simp

variable {p : P} {v : V} {writes : List (P × V)}

theorem mem_of_lastWord (h : lastWord p writes = some v) : (p, v) ∈ writes := by
  induction writes with
  | nil => cases h
  | cons w writes ih =>
    rw [lastWord, or_eq_some_iff] at h
    rcases h with hlater | ⟨-, hhead⟩
    · exact List.mem_cons_of_mem _ (ih hlater)
    · split at hhead
      · rename_i hp
        cases hhead
        rw [← hp]
        exact List.mem_cons_self
      · cases hhead

/-- Of assignments that all put the same thing at `p`, so does the last. -/
theorem lastWord_eq_some (hmem : ∃ w ∈ writes, w.1 = p) (hsame : ∀ w ∈ writes, w.1 = p → w.2 = v) :
    lastWord p writes = some v := by
  cases hlast : lastWord p writes with
  | none =>
    obtain ⟨w, hw, hp⟩ := hmem
    exact absurd hp ((lastWord_eq_none_iff p writes).mp hlast w hw)
  | some u => exact congrArg some (hsame (p, u) (mem_of_lastWord hlast) rfl)

end StackOwl.Lib
