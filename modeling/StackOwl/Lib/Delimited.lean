import Mathlib.Data.List.Infix

/-!
# Delimited pieces

A list is cut at every occurrence of a delimiter, found from left to right and not overlapping
(`splitOn`).  A piece comes back whole in front of a delimiter where the delimiter does not occur
in it, nor begins in it and ends in the one that follows (`Free`).

## Main results

* `splitOn_append` — a piece that is free is the first one.
* `exists_free` — where the delimiter occurs there is a first time, in front of which all is free.
-/

namespace StackOwl.Lib

open List

variable {α : Type*} [DecidableEq α]

/-- The pieces of what comes after `skip` more elements of a delimiter. -/
def splitFrom (delimiter : List α) : Nat → List α → List (List α)
  | _, [] => [[]]
  | skip + 1, _ :: s => splitFrom delimiter skip s
  | 0, c :: s =>
    if delimiter <+: c :: s then [] :: splitFrom delimiter (delimiter.length - 1) s
    else
      match splitFrom delimiter 0 s with
      | [] => [[c]]
      | piece :: pieces => (c :: piece) :: pieces

def splitOn (delimiter s : List α) : List (List α) := splitFrom delimiter 0 s

/-- The list with `new` for every occurrence that `splitOn` finds. -/
def replaceFrom (delimiter new : List α) : Nat → List α → List α
  | _, [] => []
  | skip + 1, _ :: s => replaceFrom delimiter new skip s
  | 0, c :: s =>
    if delimiter <+: c :: s then new ++ replaceFrom delimiter new (delimiter.length - 1) s
    else c :: replaceFrom delimiter new 0 s

def replaceAll (delimiter new s : List α) : List α := replaceFrom delimiter new 0 s

def Free (delimiter piece : List α) : Prop := ¬delimiter <:+: piece ++ delimiter.dropLast

instance (delimiter piece : List α) : Decidable (Free delimiter piece) :=
  inferInstanceAs (Decidable ¬delimiter <:+: piece ++ delimiter.dropLast)

variable {delimiter piece s : List α}

omit [DecidableEq α] in
theorem isPrefix_dropLast_append (delimiter piece s : List α) :
    piece ++ delimiter.dropLast <+: piece ++ (delimiter ++ s) := by
  refine (prefix_append_right_inj piece).mpr ?_
  exact ( dropLast_prefix delimiter).trans (prefix_append delimiter s)

variable {c : α}

omit [DecidableEq α] in
theorem Free.not_prefix (hd : delimiter ≠ []) (h : Free delimiter (c :: piece)) (s : List α) :
    ¬delimiter <+: c :: (piece ++ (delimiter ++ s)) := by
  intro hprefix
  have hlength : delimiter.length ≤ (c :: piece ++ delimiter.dropLast).length := by
    have hpos := length_pos_iff.mpr hd
    rw [length_append, length_cons, length_dropLast]
    omega
  exact h (prefix_of_prefix_length_le hprefix (isPrefix_dropLast_append delimiter (c :: piece) s)
    hlength).isInfix

omit [DecidableEq α] in
theorem Free.of_cons (h : Free delimiter (c :: piece)) : Free delimiter piece :=
  fun hwithin => h (hwithin.trans (suffix_cons c _).isInfix)

theorem splitFrom_skip (delimiter t s : List α) :
    splitFrom delimiter t.length (t ++ s) = splitOn delimiter s := by
  induction t with
  | nil => rfl
  | cons c t ih => exact ih

/-- **A free piece in front of a delimiter.** -/
theorem splitOn_append (hd : delimiter ≠ []) (h : Free delimiter piece) (s : List α) :
    splitOn delimiter (piece ++ (delimiter ++ s)) = piece :: splitOn delimiter s := by
  induction piece with
  | nil =>
    cases delimiter with
    | nil => exact absurd rfl hd
    | cons c rest =>
      have hprefix : c :: rest <+: c :: (rest ++ s) := prefix_append (c :: rest) s
      show splitFrom (c :: rest) 0 (c :: (rest ++ s)) = _
      rw [splitFrom, if_pos hprefix, length_cons, Nat.add_sub_cancel, splitFrom_skip]
  | cons c piece ih =>
    show splitFrom delimiter 0 (c :: (piece ++ (delimiter ++ s))) = _
    have hrest : splitFrom delimiter 0 (piece ++ (delimiter ++ s)) =
        piece :: splitOn delimiter s := ih h.of_cons
    rw [splitFrom, if_neg (h.not_prefix hd s), hrest]

theorem splitOn_eq_singleton (h : ¬delimiter <:+: s) : splitOn delimiter s = [s] := by
  induction s with
  | nil => rfl
  | cons c s ih =>
    have hrest : splitFrom delimiter 0 s = [s] :=
      ih fun hwithin => h (hwithin.trans (suffix_cons c s).isInfix)
    rw [splitOn, splitFrom, if_neg fun hprefix => h hprefix.isInfix, hrest]

omit [DecidableEq α] in
/-- **The first occurrence.** -/
theorem exists_free (hd : delimiter ≠ []) (h : delimiter <:+: s) :
    ∃ before after, s = before ++ (delimiter ++ after) ∧ Free delimiter before := by
  induction s with
  | nil => exact absurd (infix_nil.mp h) hd
  | cons c s ih =>
    by_cases hprefix : delimiter <+: c :: s
    · obtain ⟨after, hafter⟩ := hprefix
      refine ⟨[], after, hafter.symm, fun hwithin => ?_⟩
      have hlength := hwithin.length_le
      have hpos := length_pos_iff.mpr hd
      rw [nil_append, length_dropLast] at hlength
      omega
    · obtain ⟨before, after, rfl, hfree⟩ := ih ((infix_cons_iff.mp h).resolve_left hprefix)
      refine ⟨c :: before, after, rfl, fun hwithin => ?_⟩
      rcases infix_cons_iff.mp hwithin with hhere | hlater
      · exact hprefix (hhere.trans (isPrefix_dropLast_append delimiter (c :: before) after))
      · exact hfree hlater

theorem mem_of_mem_splitFrom {skip : Nat} (h : piece ∈ splitFrom delimiter skip s)
    (hc : c ∈ piece) : c ∈ s := by
  induction s generalizing skip piece with
  | nil =>
    rw [splitFrom, mem_singleton] at h
    rwa [h] at hc
  | cons x s ih =>
    cases skip with
    | succ skip => exact mem_cons_of_mem x (ih h hc)
    | zero =>
      rw [splitFrom] at h
      split at h
      · rcases mem_cons.mp h with rfl | hlater
        · cases hc
        · exact mem_cons_of_mem x (ih hlater hc)
      · split at h
        · rw [mem_singleton.mp h] at hc
          rw [mem_singleton.mp hc]
          exact mem_cons_self ..
        · rename_i first pieces hsplit
          rcases mem_cons.mp h with rfl | hlater
          · rcases mem_cons.mp hc with rfl | hc
            · exact mem_cons_self ..
            · exact mem_cons_of_mem x (ih (hsplit ▸ mem_cons_self ..) hc)
          · exact mem_cons_of_mem x (ih (hsplit ▸ mem_cons_of_mem _ hlater) hc)

end StackOwl.Lib
