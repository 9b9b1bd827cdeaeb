import Mathlib.Data.List.Nodup
import Mathlib.Data.List.Pairwise
import Mathlib.Data.List.Sort

/-!
# Tables with unique indexes

A relational table as a list of rows in insertion order, together with the
unique indexes the schema declares on it.  An index is a function
`ρ → Option ι`: `none` means the row is outside a partial index (a `WHERE`
clause on the index, or a `NULL` key).  The structure carries the uniqueness of
every index as a field, so a table that breaks one cannot be built; a statement
that would break one is refused and answers `none`.

The three writing statements are `updateWhere`, `insert` and `deleteWhere`.
Reads are `find?` (by a predicate) and the `orderBy` / `limit` pair.

## Main results

* `eq_of_key` — two rows of a table with one index key are the same row.
* `rows_updateWhere`, `rows_insert`, `rows_deleteWhere` — what a statement that
  was not refused did.
* `updateWhere_isSome`, `updateWhere_isSome_of_map` — an update that keeps or
  drops every index key of the rows it touches is never refused.
* `countP_of_key` — the row count of a statement addressed by a unique key.
* `find?_of_map`, `find?_insert`, `find?_deleteWhere` — reading a row back after
  each statement.
-/

namespace StackOwl.Lib

open List

/-- A table: its rows in insertion order, and the unique indexes `keys`. -/
structure Table (ρ ι : Type*) (keys : List (ρ → Option ι)) where
  /-- The rows, oldest insertion first. -/
  rows : List ρ
  /-- No two rows share a key of any unique index. -/
  unique : ∀ key ∈ keys, (rows.filterMap key).Nodup

/-- The row rewriting of one `UPDATE … SET set WHERE guard`. -/
def patch {ρ : Type*} (guard : ρ → Bool) (set : ρ → ρ) (r : ρ) : ρ :=
  if guard r then set r else r

/-- `ORDER BY f` (ascending, ties in insertion order). -/
def orderBy {ρ : Type*} (f : ρ → Int) (rows : List ρ) : List ρ :=
  rows.insertionSort (fun a b => f a ≤ f b)

/-- `LIMIT n`: a negative limit means no limit. -/
def limit {ρ : Type*} (n : Int) (rows : List ρ) : List ρ :=
  if n < 0 then rows else rows.take n.toNat

@[simp] theorem mem_orderBy {ρ : Type*} {f : ρ → Int} {rows : List ρ} {r : ρ} :
    r ∈ orderBy f rows ↔ r ∈ rows := by
  simp [orderBy]

variable {n : Int}

theorem mem_of_mem_limit {ρ : Type*} {rows : List ρ} {r : ρ} (h : r ∈ limit n rows) : r ∈ rows := by
  unfold limit at h
  split at h
  · exact h
  · exact mem_of_mem_take h

theorem nodup_orderBy {ρ : Type*} {f : ρ → Int} {rows : List ρ}
    (h : rows.Nodup) : (orderBy f rows).Nodup :=
  (perm_insertionSort _ rows).nodup_iff.mpr h

theorem nodup_limit {ρ : Type*} {rows : List ρ} (h : rows.Nodup) :
    (limit n rows).Nodup := by
  unfold limit
  split
  · exact h
  · exact h.sublist (take_sublist _ _)

/-- The first of the ordered rows is the row that comes before every other one. -/
theorem head?_orderBy {ρ : Type*} {f : ρ → Int} {rows : List ρ} {r : ρ} (hr : r ∈ rows)
    (hfirst : ∀ s ∈ rows, s = r ∨ f r < f s) : (orderBy f rows).head? = some r := by
  have hsorted : (orderBy f rows).Pairwise (fun a b => f a ≤ f b) :=
    pairwise_insertionSort _ rows
  have hmem : r ∈ orderBy f rows := mem_orderBy.mpr hr
  cases hordered : orderBy f rows with
  | nil => simp [hordered] at hmem
  | cons s rest =>
    rw [hordered] at hsorted hmem
    have hs : s ∈ rows := by
      rw [← mem_orderBy (f := f), hordered]
      exact mem_cons_self
    rcases mem_cons.mp hmem with rfl | hrest
    · rfl
    · have hle := (pairwise_cons.mp hsorted).1 r hrest
      rcases hfirst s hs with rfl | hlt
      · rfl
      · omega

@[simp] theorem patch_of_true {ρ : Type*} {guard : ρ → Bool} {set : ρ → ρ}
    {r : ρ} (h : guard r = true) : patch guard set r = set r := by
  simp [patch, h]

@[simp] theorem patch_of_false {ρ : Type*} {guard : ρ → Bool} {set : ρ → ρ}
    {r : ρ} (h : guard r = false) : patch guard set r = r := by
  simp [patch, h]

namespace Table

variable {ρ ι : Type*} {keys : List (ρ → Option ι)}

variable {key : ρ → Option ι} {i : ι} (t : Table ρ ι keys)

/-- Two rows of a table that share a key of a unique index are the same row. -/
theorem eq_of_key (hkey : key ∈ keys) {r s : ρ} (hr : r ∈ t.rows) (hs : s ∈ t.rows)
    (hri : key r = some i) (hsi : key s = some i) : r = s := by
  have hpair := pairwise_filterMap.mp (t.unique key hkey)
  by_contra hne
  have hsymm : Std.Symm fun a b : ρ =>
      ∀ i, key a = some i → ∀ j, key b = some j → i ≠ j :=
    ⟨fun _ _ hab i hi j hj => (hab j hj i hi).symm⟩
  exact hpair.forall hr hs hne i hri i hsi rfl

/-- The first row that satisfies `q`. -/
def find? (t : Table ρ ι keys) (q : ρ → Bool) : Option ρ :=
  t.rows.find? q

variable {q : ρ → Bool} {r : ρ}

theorem mem_of_find? {t : Table ρ ι keys} (h : t.find? q = some r) : r ∈ t.rows :=
  mem_of_find?_eq_some h

theorem sat_of_find? {t : Table ρ ι keys} (h : t.find? q = some r) : q r = true :=
  find?_some h

variable {rows : List ρ}

private theorem filter_eq_find? (h : rows.Pairwise (fun a b => ¬ (q a = true ∧ q b = true))) :
    rows.filter q = (rows.find? q).toList := by
  induction rows with
  | nil => rfl
  | cons r rows ih =>
    rw [pairwise_cons] at h
    cases hr : q r with
    | false => simp [hr, ih h.2]
    | true =>
      have hrest : rows.filter q = [] :=
        filter_eq_nil_iff.mpr (fun s hs hqs => h.1 s hs ⟨hr, hqs⟩)
      simp [hr, hrest]

/-- Where `q` picks out one key of a unique index, the rows that satisfy it are
the one `find?` answers. -/
theorem filter_eq_of_key (hkey : key ∈ keys) (hq : ∀ r, q r = true → key r = some i) :
    t.rows.filter q = (t.find? q).toList := by
  apply filter_eq_find?
  apply (pairwise_filterMap.mp (t.unique key hkey)).imp
  intro a b hab ⟨ha, hb⟩
  exact hab i (hq a ha) i (hq b hb) rfl

/-- The row count of a statement addressed by one key of a unique index. -/
theorem countP_of_key {guard : ρ → Bool} (hkey : key ∈ keys) (hq : ∀ r, q r = true → key r = some i)
    (hguard : ∀ r, guard r = true → q r = true) :
    t.rows.countP guard = ((t.find? q).filter guard).toList.length := by
  have hboth : guard = fun r => guard r && q r := by
    funext r
    cases hg : guard r with
    | false => rfl
    | true => simp [hguard r hg]
  rw [hboth, countP_eq_length_filter, ← filter_filter,
    t.filter_eq_of_key hkey hq, ← hboth]
  cases hfound : t.find? q with
  | none => rfl
  | some r => cases hg : guard r <;> simp [hg, Option.filter]

/-! ## Statements -/

variable [DecidableEq ι]

/-- `UPDATE … SET set WHERE guard`; `none` when a unique index refuses it. -/
def updateWhere (guard : ρ → Bool) (set : ρ → ρ) (t : Table ρ ι keys) :
    Option (Table ρ ι keys) :=
  if h : ∀ key ∈ keys, ((t.rows.map (patch guard set)).filterMap key).Nodup then
    some { rows := t.rows.map (patch guard set), unique := h }
  else
    none

/-- `INSERT`; `none` when a unique index refuses it. -/
def insert (r : ρ) (t : Table ρ ι keys) : Option (Table ρ ι keys) :=
  if h : ∀ key ∈ keys, ((t.rows ++ [r]).filterMap key).Nodup then
    some { rows := t.rows ++ [r], unique := h }
  else
    none

omit [DecidableEq ι] in
private theorem unique_filter (p : ρ → Bool) :
    ∀ key ∈ keys, ((t.rows.filter p).filterMap key).Nodup := fun key hkey =>
  (t.unique key hkey).sublist (filter_sublist.filterMap key)

omit [DecidableEq ι] in
/-- `DELETE FROM … WHERE guard`. -/
def deleteWhere (guard : ρ → Bool) (t : Table ρ ι keys) : Table ρ ι keys :=
  { rows := t.rows.filter (fun r => !guard r), unique := unique_filter t _ }

variable {t} {t' : Table ρ ι keys} {guard : ρ → Bool} {set : ρ → ρ}

theorem rows_updateWhere (h : t.updateWhere guard set = some t') :
    t'.rows = t.rows.map (patch guard set) := by
  unfold updateWhere at h
  split at h
  · cases h
    rfl
  · cases h

theorem rows_insert (h : t.insert r = some t') : t'.rows = t.rows ++ [r] := by
  unfold insert at h
  split at h
  · cases h
    rfl
  · cases h

theorem insert_isSome (h : ∀ key ∈ keys, ∀ s ∈ t.rows, ∀ i, key r = some i → key s ≠ some i) :
    ∃ t', t.insert r = some t' := by
  have hunique : ∀ key ∈ keys, ((t.rows ++ [r]).filterMap key).Nodup := by
    intro key hkey
    rw [filterMap_append, nodup_append]
    refine ⟨t.unique key hkey, ?_, ?_⟩
    · cases hr : key r <;> simp [hr]
    · intro i hi j hj hij
      obtain ⟨s, hs, hsi⟩ := mem_filterMap.mp hi
      obtain ⟨r', hr', hrj⟩ := mem_filterMap.mp hj
      obtain rfl := mem_singleton.mp hr'
      exact h key hkey s hs j hrj (hij ▸ hsi)
  exact ⟨_, dif_pos hunique⟩

omit [DecidableEq ι] in
@[simp] theorem rows_deleteWhere (guard : ρ → Bool) (t : Table ρ ι keys) :
    (t.deleteWhere guard).rows = t.rows.filter (fun r => !guard r) := rfl

omit [DecidableEq ι] in
private theorem filterMap_sublist_of_keepsOrDrops {key' : ρ → Option ι}
    (h : ∀ r ∈ rows, key' r = key r ∨ key' r = none) :
    (rows.filterMap key').Sublist (rows.filterMap key) := by
  induction rows with
  | nil => exact List.Sublist.refl _
  | cons r rows ih =>
    have htail := ih (fun s hs => h s (mem_cons_of_mem _ hs))
    rcases h r mem_cons_self with hr | hr
    · cases hk : key r with
      | none => simpa [filterMap_cons, hr, hk] using htail
      | some i => simpa [filterMap_cons, hr, hk] using htail
    · rw [filterMap_cons_none hr]
      cases hk : key r with
      | none => simpa [filterMap_cons, hk] using htail
      | some i =>
        rw [filterMap_cons_some hk]
        exact htail.cons i

/-- An update of a table whose rows come from those of another one is not refused
when every row ends up with the keys it had there, or out of the index. -/
theorem updateWhere_isSome_of_map {p : ρ → ρ} (t₀ t : Table ρ ι keys)
    (hrows : t.rows = t₀.rows.map p)
    (h : ∀ r ∈ t₀.rows, ∀ key ∈ keys, key (patch guard set (p r)) = key r ∨
      key (patch guard set (p r)) = none) :
    ∃ t', t.updateWhere guard set = some t' := by
  have hunique : ∀ key ∈ keys,
      ((t.rows.map (patch guard set)).filterMap key).Nodup := by
    intro key hkey
    rw [hrows, map_map, filterMap_map]
    refine (t₀.unique key hkey).sublist ?_
    exact filterMap_sublist_of_keepsOrDrops (fun r hr => h r hr key hkey)
  exact ⟨_, dif_pos hunique⟩

/-- An update that keeps, or takes out of the index, every key of the rows it
touches is never refused. -/
theorem updateWhere_isSome (t : Table ρ ι keys)
    (h : ∀ r, guard r = true → ∀ key ∈ keys, key (set r) = key r ∨ key (set r) = none) :
    ∃ t', t.updateWhere guard set = some t' := by
  apply updateWhere_isSome_of_map t t (map_id _).symm
  intro r _ key hkey
  cases hg : guard r with
  | false => exact Or.inl (by simp [hg])
  | true => simpa [hg] using h r hg key hkey

/-! ## Reading back -/

omit [DecidableEq ι] in
/-- A rewriting that does not change whether rows satisfy `q` rewrites the row
found by `q`. -/
theorem find?_of_map {f : ρ → ρ} (hrows : t'.rows = t.rows.map f) (hq : ∀ r, q (f r) = q r) :
    t'.find? q = (t.find? q).map f := by
  have hq' : q ∘ f = q := funext hq
  rw [find?, hrows, find?_map, hq']
  rfl

theorem find?_insert (h : t.insert r = some t') :
    t'.find? q = (t.find? q).or (if q r then some r else none) := by
  rw [find?, rows_insert h, find?_append]
  cases hr : q r <;> simp [find?, hr]

omit [DecidableEq ι] in
/-- Where `q` picks out one index key, a deletion removes the row found by `q`
exactly when its guard matches it. -/
theorem find?_deleteWhere (hkey : key ∈ keys) (hq : ∀ r, q r = true → key r = some i) :
    (t.deleteWhere guard).find? q = (t.find? q).filter (fun r => !guard r) := by
  rw [find?, rows_deleteWhere, ← head?_filter, filter_filter]
  simp only [Bool.and_comm (q _)]
  rw [← filter_filter, t.filter_eq_of_key hkey hq]
  cases t.find? q with
  | none => rfl
  | some r => cases hg : guard r <;> simp [hg, Option.filter]

theorem find?_none_of_insert (h : t.insert r = some t') (hkey : key ∈ keys)
    (hq : ∀ s, q s = true → key s = some i) (hr : key r = some i) : t.find? q = none := by
  refine find?_eq_none.mpr (fun s hs hqs => ?_)
  have hnodup := t'.unique key hkey
  rw [rows_insert h, filterMap_append, nodup_append] at hnodup
  refine hnodup.2.2 i ?_ i ?_ rfl
  · exact mem_filterMap.mpr ⟨s, hs, hq s hqs⟩
  · simp [hr]

end Table

end StackOwl.Lib
