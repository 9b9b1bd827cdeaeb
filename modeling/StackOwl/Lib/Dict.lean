import Mathlib.Data.List.Nodup

/-!
# Dictionaries in insertion order

A dictionary is the list of its items in the order their keys came in, with each key once.
Assigning to a key that is there keeps its place; a new key goes to the end.

## Main results

* `get?_set`, `get?_erase` — reading after an assignment and after a removal.
* `eq_empty_iff` — a dictionary in which nothing is found is empty.
* `count_bump`, `count_erase` — counters, of which a missing one stands at zero.
-/

namespace StackOwl.Lib

open List

variable {κ ν : Type*} [DecidableEq κ]

theorem mem_of_lookup {κ ν : Type*} [BEq κ] [LawfulBEq κ] {key : κ} {value : ν}
    {items : List (κ × ν)} (h : items.lookup key = some value) : (key, value) ∈ items := by
  obtain ⟨before, after, rfl, -⟩ := lookup_eq_some_iff.mp h
  exact mem_append_right _ mem_cons_self

/-- `d[key] = value` on the items. -/
def setItem (key : κ) (value : ν) : List (κ × ν) → List (κ × ν)
  | [] => [(key, value)]
  | item :: rest =>
    if item.1 = key then (key, value) :: rest else item :: setItem key value rest

def findItem (key : κ) : List (κ × ν) → Option ν
  | [] => none
  | item :: rest => if item.1 = key then some item.2 else findItem key rest

variable {items : List (κ × ν)} {value : ν}

theorem mem_keys_setItem {key other : κ} (h : other ∈ (setItem key value items).map Prod.fst) :
    other = key ∨ other ∈ items.map Prod.fst := by
  induction items with
  | nil => exact Or.inl (mem_singleton.mp h)
  | cons item rest ih =>
    rw [setItem] at h
    split at h
    · rcases mem_cons.mp h with rfl | hrest
      · exact Or.inl rfl
      · exact Or.inr (mem_cons_of_mem _ hrest)
    · rcases mem_cons.mp h with rfl | hrest
      · exact Or.inr mem_cons_self
      · exact (ih hrest).imp id (mem_cons_of_mem _)

theorem nodup_setItem {key : κ} (h : (items.map Prod.fst).Nodup) :
    ((setItem key value items).map Prod.fst).Nodup := by
  induction items with
  | nil => exact nodup_singleton key
  | cons item rest ih =>
    rw [map_cons, nodup_cons] at h
    rw [setItem]
    split
    · rename_i hkey
      rw [map_cons, nodup_cons, ← hkey]
      exact h
    · rename_i hkey
      rw [map_cons, nodup_cons]
      refine ⟨fun hmem => ?_, ih h.2⟩
      rcases mem_keys_setItem hmem with heq | hrest
      · exact hkey heq
      · exact h.1 hrest

variable (key other : κ)

theorem findItem_setItem (value : ν) (items : List (κ × ν)) :
    findItem other (setItem key value items) =
      if other = key then some value else findItem other items := by
  induction items with
  | nil => simp only [setItem, findItem, eq_comm]
  | cons item rest ih =>
    rw [setItem]
    by_cases hkey : item.1 = key
    · rw [if_pos hkey, findItem, findItem, hkey]
      by_cases hother : other = key
      · rw [if_pos hother, if_pos hother.symm]
      · rw [if_neg hother, if_neg (Ne.symm hother), if_neg (Ne.symm hother)]
    · rw [if_neg hkey, findItem, findItem, ih]
      by_cases hother : item.1 = other
      · rw [if_pos hother, if_neg (fun h => hkey (hother.trans h)), if_pos hother]
      · rw [if_neg hother, if_neg hother]

theorem findItem_filter (items : List (κ × ν)) :
    findItem other (items.filter fun item => item.1 ≠ key) =
      if other = key then none else findItem other items := by
  induction items with
  | nil => simp only [filter_nil, findItem, ite_self]
  | cons item rest ih =>
    by_cases hkey : item.1 = key
    · rw [filter_cons_of_neg (by simp [hkey]), ih, findItem, hkey]
      by_cases hother : other = key
      · rw [if_pos hother, if_pos hother]
      · rw [if_neg hother, if_neg hother, if_neg (Ne.symm hother)]
    · rw [filter_cons_of_pos (by simp [hkey]), findItem, findItem, ih]
      by_cases hother : item.1 = other
      · rw [if_pos hother, if_pos hother, if_neg (fun h => hkey (hother.trans h))]
      · rw [if_neg hother, if_neg hother]

theorem findItem_append (front back : List (κ × ν)) :
    findItem key (front ++ back) = (findItem key front).or (findItem key back) := by
  induction front with
  | nil => rfl
  | cons item front ih =>
    rw [cons_append, findItem, findItem, ih]
    split
    · rfl
    · rfl

theorem findItem_of_not_mem {key : κ} (h : key ∉ items.map Prod.fst) :
    findItem key items = none := by
  induction items with
  | nil => rfl
  | cons item items ih =>
    rw [map_cons, mem_cons, not_or] at h
    rw [findItem, if_neg (Ne.symm h.1), ih h.2]

/-- A dictionary: its items in the order of their keys' first assignments. -/
structure Dict (κ ν : Type*) where
  items : List (κ × ν)
  nodup : (items.map Prod.fst).Nodup

namespace Dict

def empty : Dict κ ν := ⟨[], nodup_nil⟩

variable (d : Dict κ ν)

/-- `d.get(key)`. -/
def get? (key : κ) : Option ν := findItem key d.items

/-- `d[key] = value`. -/
def set (key : κ) (value : ν) : Dict κ ν :=
  ⟨setItem key value d.items, nodup_setItem d.nodup⟩

def erase (key : κ) : Dict κ ν :=
  ⟨d.items.filter fun item => item.1 ≠ key,
    List.Nodup.sublist (filter_sublist.map Prod.fst) d.nodup⟩

/-- `d[key] = value` and `d.move_to_end(key)`. -/
def toEnd (key : κ) (value : ν) : Dict κ ν where
  items := (d.erase key).items ++ [(key, value)]
  nodup := by
    rw [map_append]
    refine (d.erase key).nodup.append (nodup_singleton key) ?_
    simp [erase]

/-- `d.popitem(last=False)`, so many times. -/
def dropFirst (n : Nat) : Dict κ ν :=
  ⟨d.items.drop n, d.nodup.sublist ((drop_sublist n d.items).map Prod.fst)⟩

/-- `len(d)`. -/
def size : Nat := d.items.length

omit [DecidableEq κ] in
@[simp] theorem size_dropFirst (n : Nat) : (d.dropFirst n).size = d.size - n :=
  length_drop

theorem toEnd_toEnd (key : κ) (value other : ν) :
    (d.toEnd key value).toEnd key other = d.toEnd key other := by
  simp [toEnd, erase, filter_filter]

theorem toEnd_erase (key : κ) (value : ν) :
    (d.erase key).toEnd key value = d.toEnd key value := by
  simp [toEnd, erase, filter_filter]

variable {key} {d}

theorem size_toEnd_le (h : d.get? key ≠ none) (value : ν) :
    (d.toEnd key value).size ≤ d.size := by
  have hmem : key ∈ d.items.map Prod.fst := not_not.mp fun hnot => h (findItem_of_not_mem hnot)
  obtain ⟨item, hitem, hkey⟩ := mem_map.mp hmem
  have hless : (d.erase key).size < d.items.length :=
    length_filter_lt_length_iff_exists.mpr ⟨item, hitem, by simp [hkey]⟩
  show ((d.erase key).items ++ [(key, value)]).length ≤ _
  rw [length_append]
  exact hless

/-- `list(d)`. -/
def keys (d : Dict κ ν) : List κ := d.items.map Prod.fst

omit [DecidableEq κ] in
theorem keys_dropFirst (d : Dict κ ν) (n : Nat) : (d.dropFirst n).keys = d.keys.drop n :=
  map_drop

@[simp] theorem get?_empty (key : κ) : (empty : Dict κ ν).get? key = none := rfl

@[simp] theorem get?_set (d : Dict κ ν) (key other : κ) (value : ν) :
    (d.set key value).get? other = if other = key then some value else d.get? other :=
  findItem_setItem key other value d.items

@[simp] theorem get?_erase (d : Dict κ ν) (key other : κ) :
    (d.erase key).get? other = if other = key then none else d.get? other :=
  findItem_filter key other d.items

@[simp] theorem get?_toEnd (d : Dict κ ν) (key other : κ) (value : ν) :
    (d.toEnd key value).get? other = if other = key then some value else d.get? other := by
  show findItem other ((d.erase key).items ++ [(key, value)]) = _
  rw [findItem_append]
  show ((d.erase key).get? other).or (findItem other [(key, value)]) = _
  rw [get?_erase]
  by_cases hkey : other = key
  · simp [hkey, findItem]
  · simp [hkey, Ne.symm hkey, findItem]

theorem get?_dropFirst (d : Dict κ ν) (n : Nat) (key : κ) :
    (d.dropFirst n).get? key =
      if key ∈ (d.items.take n).map Prod.fst then none else d.get? key := by
  have hsplit := take_append_drop n d.items
  have hnodup := d.nodup
  rw [← hsplit, map_append, nodup_append] at hnodup
  split
  · rename_i hmem
    exact findItem_of_not_mem fun hlater => hnodup.2.2 key hmem key hlater rfl
  · rename_i hnot
    have hwhole : findItem key d.items = findItem key (d.items.take n ++ d.items.drop n) := by
      rw [hsplit]
    rw [findItem_append, findItem_of_not_mem hnot] at hwhole
    exact hwhole.symm

theorem eq_empty_iff (d : Dict κ ν) : d = empty ↔ ∀ key, d.get? key = none := by
  obtain ⟨items, hnodup⟩ := d
  constructor
  · intro h key
    rw [h, get?_empty]
  · intro h
    cases items with
    | nil => rfl
    | cons item rest =>
      have hfound : findItem item.1 (item :: rest) = some item.2 := if_pos rfl
      exact absurd (h item.1) (by rw [get?, hfound]; exact Option.some_ne_none _)

theorem findItem_of_mem (h : key ∈ items.map Prod.fst) :
    findItem key items ≠ none := by
  induction items with
  | nil => cases h
  | cons item rest ih =>
    rw [findItem]
    split
    · exact Option.some_ne_none _
    · rename_i hne
      rcases mem_cons.mp h with rfl | hrest
      · exact absurd rfl hne
      · exact ih hrest

theorem get?_of_mem_keys (h : key ∈ d.keys) : d.get? key ≠ none :=
  findItem_of_mem h

/-! ## Counters -/

/-- `d.get(key, 0)`. -/
def count (d : Dict κ Nat) (key : κ) : Nat := (d.get? key).getD 0

/-- `d[key] = d.get(key, 0) + 1`. -/
def bump (d : Dict κ Nat) (key : κ) : Dict κ Nat := d.set key (d.count key + 1)

@[simp] theorem count_empty (key : κ) : (empty : Dict κ Nat).count key = 0 := rfl

@[simp] theorem count_set (d : Dict κ Nat) (key other : κ) (n : Nat) :
    (d.set key n).count other = if other = key then n else d.count other := by
  rw [count, get?_set]
  split
  · rfl
  · rfl

@[simp] theorem count_bump (d : Dict κ Nat) (key other : κ) :
    (d.bump key).count other = if other = key then d.count key + 1 else d.count other :=
  count_set d key other _

@[simp] theorem count_erase (d : Dict κ Nat) (key other : κ) :
    (d.erase key).count other = if other = key then 0 else d.count other := by
  rw [count, get?_erase]
  split
  · rfl
  · rfl

end Dict

end StackOwl.Lib
