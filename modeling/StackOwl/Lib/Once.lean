import Mathlib.Data.List.Nodup

/-!
# At most once

A list of names under which something was done, and a list of parties, of which some are
about to do something under a name.  Nothing is done twice under a name as long as no party
comes to be about to under one that is taken.

## Main results

* `filterMap_set` — what the names are made of, apart from one party.
* `Once.apart` — two parties are about to do different things.
* `Once.enter`, `Once.finish`, `Once.record` — a party that comes to be about to, that then
  does it, and that does it at once.
-/

namespace StackOwl.Lib

open List

variable {α β : Type*} {intent : α → Option β}

/-- The names of one party stand apart from those of the others, whatever becomes of it. -/
theorem filterMap_set (intent : α → Option β) {l : List α} {i : Nat} {a : α}
    (hi : l[i]? = some a) :
    ∃ others, (l.filterMap intent).Perm ((intent a).toList ++ others) ∧
      ∀ b, ((l.set i b).filterMap intent).Perm ((intent b).toList ++ others) := by
  obtain ⟨hlt, rfl⟩ := List.getElem?_eq_some_iff.mp hi
  have hsplit : ∀ (b : α) (before after : List α),
      ((before ++ b :: after).filterMap intent).Perm
        ((intent b).toList ++ (before.filterMap intent ++ after.filterMap intent)) := by
    intro b before after
    rw [List.filterMap_append, List.filterMap_cons]
    cases intent b with
    | none => exact List.Perm.refl _
    | some x => exact List.perm_middle
  refine ⟨(l.take i).filterMap intent ++ (l.drop (i + 1)).filterMap intent, ?_, fun b => ?_⟩
  · have hl : l = l.take i ++ l[i] :: l.drop (i + 1) := by
      rw [List.getElem_cons_drop, List.take_append_drop]
    conv_lhs => rw [hl]
    exact hsplit l[i] _ _
  · rw [List.set_eq_take_append_cons_drop, if_pos hlt]
    exact hsplit b _ _

/-- Nothing was done twice, or will be by the parties that are about to. -/
def Once (intent : α → Option β) (done : List β) (parties : List α) : Prop :=
  (done ++ parties.filterMap intent).Nodup

namespace Once

variable {done : List β} {parties : List α} {i : Nat} {a b : α} {x : β}

theorem nil (intent : α → Option β) : Once intent [] [] := nodup_nil

section

variable (h : Once intent done parties)

include h

theorem nodup : done.Nodup := (nodup_append.mp h).1

theorem not_mem (hi : parties[i]? = some a) (ha : intent a = some x) : x ∉ done := by
  intro hdone
  have hintent : x ∈ parties.filterMap intent :=
    mem_filterMap.mpr ⟨a, mem_of_getElem? hi, ha⟩
  exact (nodup_append.mp h).2.2 x hdone x hintent rfl

theorem apart {j : Nat} (hij : i ≠ j) (hi : parties[i]? = some a) (hj : parties[j]? = some b)
    (ha : intent a = some x) :
    intent b ≠ some x := by
  have hpairs := List.pairwise_iff_getElem.mp
    (List.pairwise_filterMap.mp (List.nodup_append.mp h).2.1)
  obtain ⟨hilt, rfl⟩ := List.getElem?_eq_some_iff.mp hi
  obtain ⟨hjlt, rfl⟩ := List.getElem?_eq_some_iff.mp hj
  intro hb
  rcases Nat.lt_or_gt_of_ne hij with hlt | hgt
  · exact hpairs i j hilt hjlt hlt x ha x hb rfl
  · exact hpairs j i hjlt hilt hgt x hb x ha rfl

theorem join (ha : intent a = none) : Once intent done (parties ++ [a]) := by
  unfold Once
  rw [filterMap_append, filterMap_cons_none ha, filterMap_nil,
    append_nil]
  exact h

theorem joinWith (ha : intent a = some x) (hfresh : x ∉ done ++ parties.filterMap intent) :
    Once intent done (parties ++ [a]) := by
  unfold Once
  rw [filterMap_append, filterMap_cons_some ha, filterMap_nil,
    ← append_assoc]
  exact nodup_append.mpr ⟨h, nodup_singleton x, fun y hy z hz heq =>
    hfresh (mem_singleton.mp hz ▸ heq ▸ hy)⟩

theorem keep (hi : parties[i]? = some a) (hb : intent b = intent a) :
    Once intent done (parties.set i b) := by
  obtain ⟨others, hold, hnew⟩ := filterMap_set intent hi
  refine ((hnew b).append_left done).nodup_iff.mpr ?_
  rw [hb]
  exact (hold.append_left done).nodup_iff.mp h

theorem idle (hi : parties[i]? = some a) (hb : intent b = none) :
    Once intent done (parties.set i b) := by
  obtain ⟨others, hold, hnew⟩ := filterMap_set intent hi
  have hbefore := (hold.append_left done).nodup_iff.mp h
  refine ((hnew b).append_left done).nodup_iff.mpr ?_
  rw [hb]
  refine hbefore.sublist (List.Sublist.append_left ?_ done)
  exact sublist_append_right _ _

/-- A party comes to be about to do what nobody did, or is about to. -/
theorem enter (hi : parties[i]? = some a) (ha : intent a = none) (hb : intent b = some x)
    (hfresh : x ∉ done ++ parties.filterMap intent) :
    Once intent done (parties.set i b) := by
  obtain ⟨others, hold, hnew⟩ := filterMap_set intent hi
  rw [ha] at hold
  have hcons := nodup_cons.mpr ⟨hfresh, h⟩
  refine ((hnew b).append_left done).nodup_iff.mpr ?_
  rw [hb]
  exact nodup_middle.mpr (((hold.append_left done).cons x).nodup_iff.mp hcons)

theorem finish (hi : parties[i]? = some a) (ha : intent a = some x) (hb : intent b = none) :
    Once intent (done ++ [x]) (parties.set i b) := by
  obtain ⟨others, hold, hnew⟩ := filterMap_set intent hi
  rw [ha] at hold
  refine ((hnew b).append_left (done ++ [x])).nodup_iff.mpr ?_
  rw [hb, append_assoc]
  exact (hold.append_left done).nodup_iff.mp h

theorem record (hi : parties[i]? = some a) (hb : intent b = none)
    (hfresh : x ∉ done ++ parties.filterMap intent) :
    Once intent (done ++ [x]) (parties.set i b) := by
  have hidle : (done ++ (parties.set i b).filterMap intent).Nodup := h.idle hi hb
  unfold Once
  rw [append_assoc, singleton_append, nodup_middle, nodup_cons]
  refine ⟨fun hmem => ?_, hidle⟩
  obtain ⟨others, hold, hnew⟩ := filterMap_set intent hi
  rcases mem_append.mp hmem with hdone | hother
  · exact hfresh (mem_append_left _ hdone)
  · rw [(hnew b).mem_iff, hb] at hother
    exact hfresh (mem_append_right _ (hold.mem_iff.mpr (mem_append_right _ hother)))

end

end Once

end StackOwl.Lib
