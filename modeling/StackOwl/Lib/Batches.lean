import StackOwl.Lib.Table

/-!
# Deleting in batches

The rows that satisfy a predicate, in the order of a unique key, are a queue.  A statement
`DELETE … WHERE key IN (SELECT key … WHERE doomed ORDER BY key LIMIT n)` takes the first
`n` of that queue, whatever other rows lie between them.

## Main results

* `queued_withoutFirst` — what is left of the queue is its rest.
* `withoutFirst_withoutFirst` — two batches are one batch of both sizes.
* `perm_withoutFirst` — the rows are those a batch takes and those it leaves.
-/

namespace StackOwl.Lib

open List

variable {ρ : Type*} (key : ρ → Int) (doomed : ρ → Bool)

def queued (rows : List ρ) : List ρ := orderBy key (rows.filter doomed)

/-- The rows without the first `n` doomed ones, which are found by their keys. -/
def withoutFirst (n : Nat) (rows : List ρ) : List ρ :=
  rows.filter fun r => decide (key r ∉ ((queued key doomed rows).take n).map key)

variable {key doomed}

theorem perm_queued (rows : List ρ) : (queued key doomed rows).Perm (rows.filter doomed) :=
  perm_insertionSort _ _

variable {rows : List ρ}

theorem mem_queued {r : ρ} :
    r ∈ queued key doomed rows ↔ r ∈ rows ∧ doomed r = true := by
  rw [queued, mem_orderBy, mem_filter]

variable (doomed) in
theorem nodup_keys_queued (hkeys : (rows.map key).Nodup) :
    ((queued key doomed rows).map key).Nodup :=
  ((perm_queued rows).map key).nodup_iff.mpr
    (hkeys.sublist (filter_sublist.map key))

variable (doomed) in
theorem pairwise_queued (hkeys : (rows.map key).Nodup) :
    (queued key doomed rows).Pairwise fun a b => key a < key b := by
  have hle : (queued key doomed rows).Pairwise fun a b => key a ≤ key b :=
    pairwise_insertionSort _ _
  have hne := pairwise_map.mp (nodup_keys_queued doomed hkeys)
  exact (hle.and hne).imp fun h => lt_of_le_of_ne h.1 h.2

theorem filter_queued (hkeys : (rows.map key).Nodup) (n : Nat) :
    (queued key doomed rows).filter
        (fun r => decide (key r ∉ ((queued key doomed rows).take n).map key)) =
      (queued key doomed rows).drop n := by
  have hnodup := nodup_keys_queued doomed hkeys
  have hsplit := take_append_drop n (queued key doomed rows)
  have hdisjoint : ∀ r ∈ (queued key doomed rows).drop n,
      key r ∉ ((queued key doomed rows).take n).map key := by
    intro r hr hmem
    rw [← hsplit, map_append, nodup_append] at hnodup
    exact hnodup.2.2 (key r) hmem (key r) (mem_map_of_mem hr) rfl
  have htake : ((queued key doomed rows).take n).filter
      (fun r => decide (key r ∉ ((queued key doomed rows).take n).map key)) = [] := by
    apply filter_eq_nil_iff.mpr
    intro r hr
    simpa using mem_map_of_mem hr
  have hdrop : ((queued key doomed rows).drop n).filter
      (fun r => decide (key r ∉ ((queued key doomed rows).take n).map key)) =
        (queued key doomed rows).drop n := by
    apply filter_eq_self.mpr
    intro r hr
    simpa using hdisjoint r hr
  conv_lhs => rw [← hsplit]
  rw [filter_append, hsplit, htake, hdrop, nil_append]

variable (doomed) in
theorem nodup_keys_withoutFirst (hkeys : (rows.map key).Nodup) (n : Nat) :
    ((withoutFirst key doomed n rows).map key).Nodup :=
  hkeys.sublist (filter_sublist.map key)

/-- **What is left of the queue is its rest.** -/
theorem queued_withoutFirst (hkeys : (rows.map key).Nodup) (n : Nat) :
    queued key doomed (withoutFirst key doomed n rows) = (queued key doomed rows).drop n := by
  have hsame : ((withoutFirst key doomed n rows).filter doomed).Perm
      ((queued key doomed rows).drop n) := by
    rw [← filter_queued hkeys n, withoutFirst, filter_filter]
    have hcomm : (fun r => doomed r &&
        decide (key r ∉ ((queued key doomed rows).take n).map key)) = fun r =>
          decide (key r ∉ ((queued key doomed rows).take n).map key) && doomed r :=
      funext fun r => Bool.and_comm _ _
    rw [hcomm, ← filter_filter]
    exact ((perm_queued rows).filter _).symm
  have hleft := pairwise_queued doomed (nodup_keys_withoutFirst doomed hkeys n)
  have hright := (pairwise_queued doomed hkeys).sublist
    (drop_sublist n (queued key doomed rows))
  refine List.Perm.eq_of_pairwise ?_ hleft hright ((perm_queued _).trans hsame)
  intro a b _ _ hab hba
  omega

theorem withoutFirst_zero (rows : List ρ) : withoutFirst key doomed 0 rows = rows := by
  simp [withoutFirst]

/-- **Two batches are one batch of both sizes.** -/
theorem withoutFirst_withoutFirst (hkeys : (rows.map key).Nodup) (n m : Nat) :
    withoutFirst key doomed m (withoutFirst key doomed n rows) =
      withoutFirst key doomed (n + m) rows := by
  conv_lhs => rw [withoutFirst]
  rw [queued_withoutFirst hkeys]
  unfold withoutFirst
  rw [filter_filter]
  apply filter_congr
  intro r _
  rw [take_add, map_append]
  simp only [mem_append, not_or, Bool.decide_and, Bool.and_comm]

theorem mem_withoutFirst (hkeys : (rows.map key).Nodup) {n : Nat} {r : ρ} :
    r ∈ withoutFirst key doomed n rows ↔
      r ∈ rows ∧ r ∉ (queued key doomed rows).take n := by
  rw [withoutFirst, mem_filter, decide_eq_true_eq]
  constructor
  · intro h
    exact ⟨h.1, fun hmem => h.2 (mem_map_of_mem hmem)⟩
  · intro h
    refine ⟨h.1, fun hmem => h.2 ?_⟩
    obtain ⟨s, hs, hkey⟩ := mem_map.mp hmem
    have hsrows : s ∈ rows := (mem_queued.mp (mem_of_mem_take hs)).1
    rwa [← inj_on_of_nodup_map hkeys hsrows h.1 hkey]

/-- **The rows are those a batch takes and those it leaves.** -/
theorem perm_withoutFirst (hkeys : (rows.map key).Nodup) (n : Nat) :
    rows.Perm ((queued key doomed rows).take n ++ withoutFirst key doomed n rows) := by
  have hrows : rows.Nodup := List.Nodup.of_map key hkeys
  have hqueue : (queued key doomed rows).Nodup :=
    List.Nodup.of_map key (nodup_keys_queued doomed hkeys)
  have hparts : ((queued key doomed rows).take n ++ withoutFirst key doomed n rows).Nodup := by
    rw [nodup_append]
    refine ⟨hqueue.sublist (take_sublist _ _), hrows.sublist filter_sublist, ?_⟩
    intro a ha b hb hab
    exact ((mem_withoutFirst hkeys).mp hb).2 (hab ▸ ha)
  apply (perm_ext_iff_of_nodup hrows hparts).mpr
  intro r
  rw [mem_append, mem_withoutFirst hkeys]
  constructor
  · intro hr
    by_cases hmem : r ∈ (queued key doomed rows).take n
    · exact Or.inl hmem
    · exact Or.inr ⟨hr, hmem⟩
  · intro h
    rcases h with hmem | hmem
    · exact (mem_queued.mp (mem_of_mem_take hmem)).1
    · exact hmem.1

end StackOwl.Lib
