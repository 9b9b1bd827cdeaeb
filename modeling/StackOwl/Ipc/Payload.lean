import Mathlib.Data.List.Nodup
import StackOwl.Lib.JsonCodec

/-!
# Payloads of frames

The values a frame holds beside texts, numbers and truth values: the free-form objects
of a `dict[str, object]`, and what pydantic and its JSON parser do with them.  Both are
third-party code and a parameter, `JsonLayer`; what the frames rely on is
`JsonLayer.Lawful`.

The keys of a Python dict are distinct; that a dictionary is one is part of what its
codec carries.

## Main results

* `PyObj.exact` — exactly the payloads of JSON's own kinds, with finite floats and
  without surrogates, are read back.
-/

namespace StackOwl.Ipc

open Lib List Option

/-- A destination, `int | str`. -/
inductive Target where
  | int (n : Int)
  | str (s : Text)

/-- pydantic's serialiser and validator, and the parser behind the latter.  `F` are the
floats and `O` the Python objects that no JSON value equals (a tuple, a set, a date). -/
structure JsonLayer (F O : Type) where
  finite : F → Bool
  printFloat : F → FloatText
  readFloat : FloatText → F
  /-- What an object of another kind is serialised as. -/
  dumpOther : O → Option Json
  /-- What the validators make of a value of another JSON type. -/
  coerceBool : Json → Option Bool
  coerceInt : Json → Option Int
  coerceFloat : Json → Option F
  coerceTarget : Json → Option Target
  /-- The limits of the serialiser. -/
  printLimits : Limits
  /-- The limits of the parser. -/
  readLimits : Limits
  loads : String → Option Json

variable {F O : Type}

/-- What is documented of the third-party code. -/
structure JsonLayer.Lawful (L : JsonLayer F O) : Prop where
  /-- A finite float is printed as a literal that denotes it. -/
  readFloat_printFloat : ∀ x, L.finite x = true → L.readFloat (L.printFloat x) = x
  literal : ∀ x, L.finite x = true →
    readNumber (L.printFloat x).text.toList = some (.float (L.printFloat x), [])
  /-- Whatever is serialised, JSON is printed. -/
  readable_dumpOther : ∀ o v, L.dumpOther o = some v → v.Readable
  /-- The parser reads what a JSON text denotes, unless its limits are exceeded. -/
  loads : ∀ text v, Lib.loads text = some v →
    L.loads text = if L.readLimits.Admit v then some v else none

inductive PyObj (F O : Type) where
  | none
  | bool (b : Bool)
  | int (n : Int)
  | float (x : F)
  | str (s : Text)
  | list (items : List (PyObj F O))
  | dict (fields : List (Text × PyObj F O))
  | other (o : O)

/-! ## Dictionaries -/

/-- `d[key] = value`: the key keeps its place. -/
def setItem {α : Type} (key : Text) (value : α) : List (Text × α) → List (Text × α)
  | [] => [(key, value)]
  | field :: fields =>
    if field.1 = key then (key, value) :: fields else field :: setItem key value fields

def dictOf {α : Type} (fields : List (Text × α)) : List (Text × α) :=
  fields.foldl (fun dict field => setItem field.1 field.2 dict) []

variable {α : Type} {fields : List (Text × α)}

theorem mem_keys_setItem {key k : Text} {value : α} :
    k ∈ (setItem key value fields).map Prod.fst ↔ k = key ∨ k ∈ fields.map Prod.fst := by
  induction fields with
  | nil => simp [setItem]
  | cons field fields ih =>
    rw [setItem]
    split
    · rename_i h
      simp [h]
    · rw [map_cons, mem_cons, ih, map_cons, mem_cons]
      exact or_left_comm

theorem nodup_setItem (key : Text) (value : α) (h : (fields.map Prod.fst).Nodup) :
    ((setItem key value fields).map Prod.fst).Nodup := by
  induction fields with
  | nil => simp [setItem]
  | cons field fields ih =>
    rw [map_cons, nodup_cons] at h
    rw [setItem]
    split
    · rename_i heq
      subst heq
      exact nodup_cons.mpr h
    · rename_i hne
      rw [map_cons, nodup_cons, mem_keys_setItem]
      exact ⟨not_or.mpr ⟨hne, h.1⟩, ih h.2⟩

theorem setItem_of_not_mem {key : Text} (value : α) (h : key ∉ fields.map Prod.fst) :
    setItem key value fields = fields ++ [(key, value)] := by
  induction fields with
  | nil => rfl
  | cons field fields ih =>
    rw [map_cons, mem_cons, not_or] at h
    rw [setItem, if_neg (Ne.symm h.1), ih h.2, cons_append]

theorem nodup_dictOf (fields : List (Text × α)) :
    ((dictOf fields).map Prod.fst).Nodup := by
  have hfold : ∀ (fields dict : List (Text × α)), (dict.map Prod.fst).Nodup →
      ((fields.foldl (fun d f => setItem f.1 f.2 d) dict).map Prod.fst).Nodup := by
    intro fields
    induction fields with
    | nil => exact fun _ h => h
    | cons field fields ih =>
      intro dict h
      exact ih _ (nodup_setItem field.1 field.2 h)
  exact hfold fields [] nodup_nil

theorem dictOf_of_nodup (h : (fields.map Prod.fst).Nodup) :
    dictOf fields = fields := by
  have hfold : ∀ (fields dict : List (Text × α)),
      ((dict ++ fields).map Prod.fst).Nodup →
      fields.foldl (fun d f => setItem f.1 f.2 d) dict = dict ++ fields := by
    intro fields
    induction fields with
    | nil => exact fun dict _ => (append_nil dict).symm
    | cons field fields ih =>
      intro dict h
      have hkey : field.1 ∉ dict.map Prod.fst := by
        rw [map_append, nodup_append] at h
        exact fun hmem => h.2.2 _ hmem _ mem_cons_self rfl
      rw [foldl_cons, setItem_of_not_mem field.2 hkey, ih _ (by simpa using h)]
      simp
  exact hfold fields [] h

/-! ## Objects -/

variable (L : JsonLayer F O)

mutual

/-- An object as it is serialised; a float that JSON cannot write becomes `null`. -/
def PyObj.dump : PyObj F O → Option Json
  | .none => some .null
  | .bool b => some (.bool b)
  | .int n => some (.int n)
  | .float x => some (if L.finite x then .float (L.printFloat x) else .null)
  | .str s => s.string?.map .str
  | .list items => (dumpItems items).map .arr
  | .dict fields => (dumpFields fields).map .obj
  | .other o => L.dumpOther o

def dumpItems : List (PyObj F O) → Option (List Json)
  | [] => some []
  | item :: items => do
      let v ← item.dump
      let vs ← dumpItems items
      some (v :: vs)

def dumpFields : List (Text × PyObj F O) → Option (List (String × Json))
  | [] => some []
  | (key, value) :: fields => do
      let k ← key.string?
      let v ← value.dump
      let rest ← dumpFields fields
      some ((k, v) :: rest)

end

mutual

def PyObj.load : Json → PyObj F O
  | .null => .none
  | .bool b => .bool b
  | .int n => .int n
  | .float x => .float (L.readFloat x)
  | .str s => .str (Text.ofString s)
  | .arr items => .list (loadItems items)
  | .obj fields => .dict (dictOf (loadFields fields))
  | .other text => .str (Text.ofString text)

def loadItems : List Json → List (PyObj F O)
  | [] => []
  | item :: items => PyObj.load item :: loadItems items

def loadFields : List (String × Json) → List (Text × PyObj F O)
  | [] => []
  | (key, value) :: fields =>
    (Text.ofString key, PyObj.load value) :: loadFields fields

end

mutual

/-- The object is of JSON's own kinds, its floats are finite, its texts have no
surrogates, and it is within the limits. -/
def PyObj.Carries (digits depth : Nat) : PyObj F O → Prop
  | .none | .bool _ => True
  | .int n => intWithin digits n = true
  | .float x => L.finite x = true
  | .str s => s.Scalar
  | .list items => 0 < depth ∧ CarriesItems digits (depth - 1) items
  | .dict fields =>
    0 < depth ∧ (fields.map Prod.fst).Nodup ∧ CarriesFields digits (depth - 1) fields
  | .other _ => False

def CarriesItems (digits depth : Nat) : List (PyObj F O) → Prop
  | [] => True
  | item :: items => item.Carries digits depth ∧ CarriesItems digits depth items

def CarriesFields (digits depth : Nat) : List (Text × PyObj F O) → Prop
  | [] => True
  | (key, value) :: fields =>
    key.Scalar ∧ value.Carries digits depth ∧ CarriesFields digits depth fields

end

/-! ## What comes back -/

variable {L}

mutual

theorem PyObj.readable (hL : L.Lawful) : ∀ {x : PyObj F O} {v : Json},
    x.dump L = some v → v.Readable
  | .none, _, h | .bool _, _, h | .int _, _, h => by
    cases h
    trivial
  | .float x, _, h => by
    rw [PyObj.dump] at h
    cases h
    split
    · rename_i hfinite
      exact hL.literal x hfinite
    · trivial
  | .str s, _, h => by
    obtain ⟨t, -, rfl⟩ := map_eq_some_iff.mp h
    trivial
  | .list items, _, h => by
    obtain ⟨vs, hvs, rfl⟩ := map_eq_some_iff.mp h
    exact readable_dumpItems hL hvs
  | .dict fields, _, h => by
    obtain ⟨fs, hfs, rfl⟩ := map_eq_some_iff.mp h
    exact readable_dumpFields hL hfs
  | .other o, v, h => hL.readable_dumpOther o v h

theorem readable_dumpItems (hL : L.Lawful) : ∀ {items : List (PyObj F O)} {vs : List Json},
    dumpItems L items = some vs → ReadableItems vs
  | [], _, h => by
    cases h
    trivial
  | item :: items, _, h => by
    obtain ⟨v, hv, h⟩ := bind_eq_some_iff.mp h
    obtain ⟨rest, hrest, h⟩ := bind_eq_some_iff.mp h
    cases h
    exact ⟨PyObj.readable hL hv, readable_dumpItems hL hrest⟩

theorem readable_dumpFields (hL : L.Lawful) :
    ∀ {fields : List (Text × PyObj F O)} {fs : List (String × Json)},
    dumpFields L fields = some fs → ReadableFields fs
  | [], _, h => by
    cases h
    trivial
  | (key, value) :: fields, _, h => by
    obtain ⟨k, -, h⟩ := bind_eq_some_iff.mp h
    obtain ⟨v, hv, h⟩ := bind_eq_some_iff.mp h
    obtain ⟨rest, hrest, h⟩ := bind_eq_some_iff.mp h
    cases h
    exact ⟨PyObj.readable hL hv, readable_dumpFields hL hrest⟩

end

/-- The keys of a dictionary come back, whatever becomes of the values. -/
theorem keys_loadFields : ∀ {fields : List (Text × PyObj F O)} {fs : List (String × Json)},
    dumpFields L fields = some fs → (loadFields L fs).map Prod.fst = fields.map Prod.fst
  | [], _, h => by
    cases h
    rfl
  | (key, value) :: fields, _, h => by
    obtain ⟨k, hk, h⟩ := bind_eq_some_iff.mp h
    obtain ⟨v, -, h⟩ := bind_eq_some_iff.mp h
    obtain ⟨rest, hrest, h⟩ := bind_eq_some_iff.mp h
    cases h
    rw [loadFields, map_cons, map_cons, keys_loadFields hrest,
      Text.ofString_of_string? hk]

theorem PyObj.load_ne_other (v : Json) (o : O) : PyObj.load L v ≠ .other o := by
  cases v <;> rw [PyObj.load] <;> intro h <;> cases h

mutual

theorem PyObj.exact (hL : L.Lawful) (digits : Nat) : ∀ (depth : Nat) (x : PyObj F O),
    x.Carries L digits depth ↔
      ∃ v, x.dump L = some v ∧ v.within digits depth = true ∧ PyObj.load L v = x
  | _, .none => ⟨fun _ => ⟨_, rfl, rfl, rfl⟩, fun _ => trivial⟩
  | _, .bool b => ⟨fun _ => ⟨_, rfl, rfl, rfl⟩, fun _ => trivial⟩
  | _, .int n => by
    constructor
    · intro h
      exact ⟨_, rfl, h, rfl⟩
    · rintro ⟨v, hv, h, -⟩
      cases hv
      exact h
  | _, .float x => by
    rw [PyObj.Carries]
    constructor
    · intro h
      refine ⟨.float (L.printFloat x), by rw [PyObj.dump, if_pos h], rfl, ?_⟩
      rw [PyObj.load, hL.readFloat_printFloat x h]
    · rintro ⟨v, hv, -, h⟩
      by_contra hfinite
      rw [PyObj.dump, if_neg hfinite] at hv
      cases hv
      cases h
  | _, .str s => by
    rw [PyObj.Carries, Text.scalar_iff]
    constructor
    · rintro ⟨t, ht⟩
      refine ⟨.str t, by rw [PyObj.dump, ht]; rfl, rfl, ?_⟩
      rw [PyObj.load, Text.ofString_of_string? ht]
    · rintro ⟨v, hv, -, -⟩
      obtain ⟨t, ht, -⟩ := map_eq_some_iff.mp hv
      exact ⟨t, ht⟩
  | depth, .list items => by
    rw [PyObj.Carries, exact_dumpItems hL digits (depth - 1) items]
    constructor
    · rintro ⟨hdepth, vs, hvs, hwithin, hload⟩
      refine ⟨.arr vs, by rw [PyObj.dump, hvs]; rfl, ?_, by rw [PyObj.load, hload]⟩
      rw [Json.within, hwithin, Bool.and_true, decide_eq_true hdepth]
    · rintro ⟨v, hv, hwithin, hload⟩
      obtain ⟨vs, hvs, rfl⟩ := map_eq_some_iff.mp hv
      rw [Json.within, Bool.and_eq_true, decide_eq_true_eq] at hwithin
      rw [PyObj.load, PyObj.list.injEq] at hload
      exact ⟨hwithin.1, vs, hvs, hwithin.2, hload⟩
  | depth, .dict fields => by
    rw [PyObj.Carries, exact_dumpFields hL digits (depth - 1) fields]
    constructor
    · rintro ⟨hdepth, hkeys, fs, hfs, hwithin, hload⟩
      refine ⟨.obj fs, by rw [PyObj.dump, hfs]; rfl, ?_, ?_⟩
      · rw [Json.within, hwithin, Bool.and_true, decide_eq_true hdepth]
      · rw [PyObj.load, hload, dictOf_of_nodup hkeys]
    · rintro ⟨v, hv, hwithin, hload⟩
      obtain ⟨fs, hfs, rfl⟩ := map_eq_some_iff.mp hv
      rw [Json.within, Bool.and_eq_true, decide_eq_true_eq] at hwithin
      rw [PyObj.load, PyObj.dict.injEq] at hload
      -- what is read has distinct keys, and the keys are the dictionary's own
      have hkeys : (fields.map Prod.fst).Nodup := hload ▸ nodup_dictOf _
      rw [dictOf_of_nodup (by rw [keys_loadFields hfs]; exact hkeys)] at hload
      exact ⟨hwithin.1, hkeys, fs, hfs, hwithin.2, hload⟩
  | _, .other o => ⟨fun h => h.elim, fun ⟨v, _, _, h⟩ => PyObj.load_ne_other v o h⟩

theorem exact_dumpItems (hL : L.Lawful) (digits : Nat) :
    ∀ (depth : Nat) (items : List (PyObj F O)),
    CarriesItems L digits depth items ↔
      ∃ vs, dumpItems L items = some vs ∧ itemsWithin digits depth vs = true ∧
        loadItems L vs = items
  | _, [] => ⟨fun _ => ⟨[], rfl, rfl, rfl⟩, fun _ => trivial⟩
  | depth, item :: items => by
    rw [CarriesItems, PyObj.exact hL digits depth item,
      exact_dumpItems hL digits depth items]
    constructor
    · rintro ⟨⟨v, hv, hwithin, hx⟩, vs, hvs, hrest, hxs⟩
      refine ⟨v :: vs, by rw [dumpItems, hv, hvs]; rfl, ?_, by rw [loadItems, hx, hxs]⟩
      rw [itemsWithin, hwithin, hrest, Bool.and_self]
    · rintro ⟨all, hall, hwithin, hload⟩
      obtain ⟨v, hv, hall⟩ := bind_eq_some_iff.mp hall
      obtain ⟨vs, hvs, hall⟩ := bind_eq_some_iff.mp hall
      cases hall
      rw [itemsWithin, Bool.and_eq_true] at hwithin
      rw [loadItems, List.cons.injEq] at hload
      exact ⟨⟨v, hv, hwithin.1, hload.1⟩, vs, hvs, hwithin.2, hload.2⟩

theorem exact_dumpFields (hL : L.Lawful) (digits : Nat) :
    ∀ (depth : Nat) (fields : List (Text × PyObj F O)),
    CarriesFields L digits depth fields ↔
      ∃ fs, dumpFields L fields = some fs ∧ fieldsWithin digits depth fs = true ∧
        loadFields L fs = fields
  | _, [] => ⟨fun _ => ⟨[], rfl, rfl, rfl⟩, fun _ => trivial⟩
  | depth, (key, value) :: fields => by
    rw [CarriesFields, Text.scalar_iff, PyObj.exact hL digits depth value,
      exact_dumpFields hL digits depth fields]
    constructor
    · rintro ⟨⟨k, hk⟩, ⟨v, hv, hwithin, hx⟩, fs, hfs, hrest, hxs⟩
      refine ⟨(k, v) :: fs, by rw [dumpFields, hk, hv, hfs]; rfl, ?_, ?_⟩
      · rw [fieldsWithin, hwithin, hrest, Bool.and_self]
      · rw [loadFields, hx, hxs, Text.ofString_of_string? hk]
    · rintro ⟨all, hall, hwithin, hload⟩
      obtain ⟨k, hk, hall⟩ := bind_eq_some_iff.mp hall
      obtain ⟨v, hv, hall⟩ := bind_eq_some_iff.mp hall
      obtain ⟨fs, hfs, hall⟩ := bind_eq_some_iff.mp hall
      cases hall
      rw [fieldsWithin, Bool.and_eq_true] at hwithin
      rw [loadFields, List.cons.injEq, Prod.mk.injEq] at hload
      exact ⟨⟨k, hk⟩, ⟨v, hv, hwithin.1, hload.1.2⟩, fs, hfs, hwithin.2, hload.2⟩

end

end StackOwl.Ipc
