import StackOwl.Lib.JsonCompact
import Mathlib.Algebra.Group.Nat.Defs

/-!
# Values as JSON

How the values of a typed record are written as a JSON object and read back.  A codec
knows which values come back: a string with half a surrogate pair has no JSON text, and
a value nested too deep or an integer of too many digits is refused by a printer or a
reader that has a limit.

Codecs compose: each combinator derives its own condition from those of its parts.

## Main results

* `Codec.exact` — exactly the values a codec carries are read back from what they are
  written as.
* `Record.carries_tagged` — the same of a record behind its tag.
-/

namespace StackOwl.Lib

open List Bool

/-! ## Code points -/

/-- A code point of a string; a surrogate counted from the first one. -/
inductive CodePoint where
  | scalar (c : Char)
  | surrogate (n : Fin 2048)
  deriving DecidableEq

def CodePoint.char? : CodePoint → Option Char
  | .scalar c => some c
  | .surrogate _ => none

/-- A string of code points, surrogates included. -/
abbrev Text := List CodePoint

def Text.ofString (s : String) : Text := s.toList.map .scalar

def Text.string? (t : Text) : Option String := (t.mapM CodePoint.char?).map String.ofList

/-- No code point is a surrogate. -/
def Text.Scalar (t : Text) : Prop := ∀ c ∈ t, c.char? ≠ none

theorem Text.string?_ofString (s : String) : (Text.ofString s).string? = some s := by
  have hchars : ∀ cs : List Char,
      (cs.map CodePoint.scalar).mapM CodePoint.char? = some cs := by
    intro cs
    induction cs with
    | nil => rfl
    | cons c cs ih =>
      rw [map_cons, mapM_cons, ih]
      rfl
  rw [Text.string?, Text.ofString, hchars, Option.map_some, String.ofList_toList]

theorem Text.ofString_of_string? {t : Text} {s : String} (h : t.string? = some s) :
    Text.ofString s = t := by
  obtain ⟨cs, hcs, rfl⟩ := Option.map_eq_some_iff.mp h
  rw [Text.ofString, String.toList_ofList]
  clear h
  induction t generalizing cs with
  | nil =>
    cases hcs
    rfl
  | cons c t ih =>
    rw [mapM_cons] at hcs
    obtain ⟨d, hd, hcs⟩ := Option.bind_eq_some_iff.mp hcs
    obtain ⟨ds, hds, hcs⟩ := Option.bind_eq_some_iff.mp hcs
    cases hcs
    cases c with
    | surrogate n => cases hd
    | scalar c =>
      cases hd
      rw [map_cons, ih ds hds]

theorem Text.scalar_iff (t : Text) : t.Scalar ↔ ∃ s, t.string? = some s := by
  constructor
  · intro h
    induction t with
    | nil => exact ⟨_, rfl⟩
    | cons c t ih =>
      obtain ⟨s, hs⟩ := ih (fun d hd => h d (mem_cons_of_mem c hd))
      obtain ⟨cs, hcs, -⟩ := Option.map_eq_some_iff.mp hs
      obtain ⟨d, hd⟩ := Option.ne_none_iff_exists'.mp (h c mem_cons_self)
      refine ⟨String.ofList (d :: cs), ?_⟩
      rw [Text.string?, mapM_cons, hcs, hd]
      rfl
  · rintro ⟨s, hs⟩ c hc
    rw [← Text.ofString_of_string? hs] at hc
    obtain ⟨d, -, rfl⟩ := mem_map.mp hc
    exact Option.some_ne_none d

theorem Text.scalar_ofString (s : String) : (Text.ofString s).Scalar :=
  (Text.scalar_iff _).mpr ⟨s, Text.string?_ofString s⟩

/-! ## Limits -/

/-- How deep values may nest, and how many digits an integer may have. -/
structure Limits where
  depth : Nat
  digits : Nat

def intWithin (digits : Nat) (n : Int) : Bool := n.natAbs < 10 ^ digits

mutual

/-- The value nests no deeper, and no integer in it has more digits. -/
def Json.within (digits depth : Nat) : Json → Bool
  | .arr items => 0 < depth && itemsWithin digits (depth - 1) items
  | .obj fields => 0 < depth && fieldsWithin digits (depth - 1) fields
  | .int n => intWithin digits n
  | .null | .bool _ | .float _ | .str _ | .other _ => true

def itemsWithin (digits depth : Nat) : List Json → Bool
  | [] => true
  | item :: items => item.within digits depth && itemsWithin digits depth items

def fieldsWithin (digits depth : Nat) : List (String × Json) → Bool
  | [] => true
  | (_, value) :: fields => value.within digits depth && fieldsWithin digits depth fields

end

def Limits.Admit (limits : Limits) (v : Json) : Prop :=
  v.within limits.digits limits.depth = true

instance (limits : Limits) (v : Json) : Decidable (limits.Admit v) :=
  inferInstanceAs (Decidable (_ = true))

/-! ## Codecs -/

theorem mapM_cons_eq_some {β γ : Type} {f : β → Option γ} {x : β} {xs : List β}
    {ys : List γ} : (x :: xs).mapM f = some ys ↔
      ∃ y rest, f x = some y ∧ xs.mapM f = some rest ∧ ys = y :: rest := by
  rw [mapM_cons]
  constructor
  · intro h
    obtain ⟨y, hy, h⟩ := Option.bind_eq_some_iff.mp h
    obtain ⟨rest, hrest, h⟩ := Option.bind_eq_some_iff.mp h
    cases h
    exact ⟨y, rest, hy, hrest, rfl⟩
  · rintro ⟨y, rest, hy, hrest, rfl⟩
    rw [hy, hrest]
    rfl

theorem length_of_mapM {β γ : Type} {f : β → Option γ} {xs : List β} {ys : List γ}
    (h : xs.mapM f = some ys) : ys.length = xs.length := by
  induction xs generalizing ys with
  | nil =>
    cases h
    rfl
  | cons x xs ih =>
    obtain ⟨y, rest, -, hrest, rfl⟩ := mapM_cons_eq_some.mp h
    rw [length_cons, length_cons, ih hrest]

/-- How the values of a type are written as JSON and read back; `none` is an error.
`Carries digits depth` are the values that come back within such limits. -/
structure Codec (α : Type) where
  dump : α → Option Json
  load : Json → Option α
  Carries : Nat → Nat → α → Prop
  readable : ∀ {x v}, dump x = some v → v.Readable
  exact : ∀ digits depth x, Carries digits depth x ↔
    ∃ v, dump x = some v ∧ v.within digits depth = true ∧ load v = some x

namespace Codec

variable {α : Type}

/-- Truth values; `coerce` is what a reader makes of other values. -/
def bool (coerce : Json → Option Bool) : Codec Bool where
  dump b := some (.bool b)
  load
    | .null => none
    | .bool b => some b
    | v => coerce v
  Carries _ _ _ := True
  readable h := by cases h; trivial
  exact digits depth b := by
    refine ⟨fun _ => ⟨_, rfl, rfl, rfl⟩, fun _ => trivial⟩

def int (coerce : Json → Option Int) : Codec Int where
  dump n := some (.int n)
  load
    | .null => none
    | .int n => some n
    | v => coerce v
  Carries digits _ n := intWithin digits n = true
  readable h := by cases h; trivial
  exact digits depth n := by
    constructor
    · intro h
      exact ⟨_, rfl, h, rfl⟩
    · rintro ⟨v, hv, h, -⟩
      cases hv
      exact h

def text : Codec Text where
  dump t := t.string?.map .str
  load
    | .str s => some (Text.ofString s)
    | _ => none
  Carries _ _ t := t.Scalar
  readable h := by
    obtain ⟨s, -, rfl⟩ := Option.map_eq_some_iff.mp h
    trivial
  exact digits depth t := by
    rw [Text.scalar_iff]
    constructor
    · rintro ⟨s, hs⟩
      refine ⟨.str s, by rw [hs]; rfl, rfl, ?_⟩
      exact congrArg some (Text.ofString_of_string? hs)
    · rintro ⟨v, hv, -, -⟩
      obtain ⟨s, hs, -⟩ := Option.map_eq_some_iff.mp hv
      exact ⟨s, hs⟩

/-- A value or nothing, where nothing else is written as `null`. -/
def option (c : Codec α) (hnull : c.load .null = none) : Codec (Option α) where
  dump
    | none => some .null
    | some x => c.dump x
  load
    | .null => some none
    | v => (c.load v).map some
  Carries digits depth x := ∀ y ∈ x, c.Carries digits depth y
  readable {x v} h := by
    cases x with
    | none => cases h; trivial
    | some x => exact c.readable h
  exact digits depth x := by
    cases x with
    | none => exact ⟨fun _ => ⟨_, rfl, rfl, rfl⟩, nofun⟩
    | some x =>
      have hsome : (∀ y ∈ some x, c.Carries digits depth y) ↔
          c.Carries digits depth x := by simp
      rw [hsome, c.exact]
      apply exists_congr
      intro v
      refine and_congr_right (fun _ => and_congr_right (fun _ => ?_))
      cases v <;> simp [hnull]

theorem readable_items (c : Codec α) {xs : List α} {items : List Json}
    (h : xs.mapM c.dump = some items) : ReadableItems items := by
  induction xs generalizing items with
  | nil =>
    cases h
    trivial
  | cons x xs ih =>
    obtain ⟨item, rest, hitem, hrest, rfl⟩ := mapM_cons_eq_some.mp h
    exact ⟨c.readable hitem, ih hrest⟩

theorem exact_items (c : Codec α) (digits depth : Nat) (xs : List α) :
    (∀ x ∈ xs, c.Carries digits depth x) ↔
      ∃ items, xs.mapM c.dump = some items ∧ itemsWithin digits depth items = true ∧
        items.mapM c.load = some xs := by
  induction xs with
  | nil => exact ⟨fun _ => ⟨[], rfl, rfl, rfl⟩, nofun⟩
  | cons x xs ih =>
    rw [forall_mem_cons, c.exact, ih]
    constructor
    · rintro ⟨⟨v, hv, hwithin, hload⟩, items, hitems, hrest, hloads⟩
      refine ⟨v :: items, mapM_cons_eq_some.mpr ⟨v, items, hv, hitems, rfl⟩, ?_,
        mapM_cons_eq_some.mpr ⟨x, xs, hload, hloads, rfl⟩⟩
      rw [itemsWithin, hwithin, hrest, Bool.and_self]
    · rintro ⟨vs, hvs, hwithin, hloads⟩
      obtain ⟨v, items, hv, hitems, rfl⟩ := mapM_cons_eq_some.mp hvs
      obtain ⟨y, ys, hload, hrest, hxs⟩ := mapM_cons_eq_some.mp hloads
      cases hxs
      rw [itemsWithin, and_eq_true] at hwithin
      exact ⟨⟨v, hv, hwithin.1, hload⟩, items, hitems, hwithin.2, hrest⟩

def list (c : Codec α) : Codec (List α) where
  dump xs := (xs.mapM c.dump).map .arr
  load
    | .arr items => items.mapM c.load
    | _ => none
  Carries digits depth xs := 0 < depth ∧ ∀ x ∈ xs, c.Carries digits (depth - 1) x
  readable h := by
    obtain ⟨items, hitems, rfl⟩ := Option.map_eq_some_iff.mp h
    exact c.readable_items hitems
  exact digits depth xs := by
    rw [c.exact_items]
    constructor
    · rintro ⟨hdepth, items, hitems, hwithin, hload⟩
      refine ⟨.arr items, by rw [hitems]; rfl, ?_, hload⟩
      rw [Json.within, hwithin, Bool.and_true, decide_eq_true hdepth]
    · rintro ⟨v, hv, hwithin, hload⟩
      obtain ⟨items, hitems, rfl⟩ := Option.map_eq_some_iff.mp hv
      rw [Json.within, and_eq_true, decide_eq_true_eq] at hwithin
      exact ⟨hwithin.1, items, hitems, hwithin.2, hload⟩

end Codec

/-! ## Records -/

/-- The value of a key; of two fields with one key, the last one's. -/
def findField (fields : List (String × Json)) (key : String) : Option Json :=
  fields.reverse.lookup key

/-- How the fields of a record are written and found again. -/
structure Record (α : Type) where
  keys : List String
  dump : α → Option (List (String × Json))
  load : (String → Option Json) → Option α
  Carries : Nat → Nat → α → Prop
  keys_dump : ∀ {x fields}, dump x = some fields → fields.map Prod.fst = keys
  load_congr : ∀ {find find' : String → Option Json},
    (∀ key ∈ keys, find key = find' key) → load find = load find'
  readable : ∀ {x fields}, dump x = some fields → ReadableFields fields
  exact : ∀ digits depth x, Carries digits depth x ↔
    ∃ fields, dump x = some fields ∧ fieldsWithin digits depth fields = true ∧
      load (findField fields) = some x

variable {v : Json} {key : String} {fields : List (String × Json)}

/-- A field is found before the fields behind it, where they have other keys. -/
theorem findField_cons_self (h : key ∉ fields.map Prod.fst)
    : findField ((key, v) :: fields) key = some v := by
  have hnone : fields.reverse.lookup key = none := by
    rw [lookup_eq_none_iff]
    intro field hfield
    rw [bne_iff_ne]
    rintro rfl
    exact h (mem_map_of_mem (mem_reverse.mp hfield))
  rw [findField, reverse_cons, lookup_append, hnone]
  simp

theorem findField_cons_ne {key' : String} (h : key' ≠ key) (v : Json)
    (fields : List (String × Json)) :
    findField ((key, v) :: fields) key' = findField fields key' := by
  rw [findField, reverse_cons, lookup_append, findField]
  have hne : (key' == key) = false := beq_eq_false_iff_ne.mpr h
  simp [lookup_cons, hne]

namespace Record

variable {α β : Type}

def nil : Record Unit where
  keys := []
  dump _ := some []
  load _ := some ()
  Carries _ _ _ := True
  keys_dump h := by cases h; rfl
  load_congr _ := rfl
  readable h := by cases h; trivial
  exact digits depth x := ⟨fun _ => ⟨[], rfl, rfl, rfl⟩, fun _ => trivial⟩

@[simp] theorem keys_nil : nil.keys = [] := rfl

def loadField (c : Codec α) (default : Option α) : Option Json → Option α
  | none => default
  | some v => c.load v

def cons (key : String) (c : Codec α) (default : Option α) (r : Record β)
    (hkey : key ∉ r.keys := by simp) : Record (α × β) where
  keys := key :: r.keys
  dump x := do
    let v ← c.dump x.1
    let fields ← r.dump x.2
    some ((key, v) :: fields)
  load find := do
    let x ← loadField c default (find key)
    let y ← r.load find
    some (x, y)
  Carries digits depth x := c.Carries digits depth x.1 ∧ r.Carries digits depth x.2
  keys_dump h := by
    obtain ⟨v, -, h⟩ := Option.bind_eq_some_iff.mp h
    obtain ⟨fields, hfields, h⟩ := Option.bind_eq_some_iff.mp h
    cases h
    rw [map_cons, r.keys_dump hfields]
  load_congr h := by
    rw [h key mem_cons_self,
      r.load_congr (fun k hk => h k (mem_cons_of_mem _ hk))]
  readable h := by
    obtain ⟨v, hv, h⟩ := Option.bind_eq_some_iff.mp h
    obtain ⟨fields, hfields, h⟩ := Option.bind_eq_some_iff.mp h
    cases h
    exact ⟨c.readable hv, r.readable hfields⟩
  exact digits depth x := by
    have hload : ∀ v fields, r.dump x.2 = some fields →
        r.load (findField ((key, v) :: fields)) = r.load (findField fields) := by
      intro v fields hfields
      apply r.load_congr
      intro k hk
      have hne : k ≠ key := by
        rintro rfl
        exact hkey hk
      exact findField_cons_ne hne v fields
    have hfind : ∀ v fields, r.dump x.2 = some fields →
        findField ((key, v) :: fields) key = some v := by
      intro v fields hfields
      exact findField_cons_self (by rw [r.keys_dump hfields]; exact hkey)
    rw [c.exact, r.exact]
    constructor
    · rintro ⟨⟨v, hv, hwithin, hx⟩, fields, hfields, hrest, hy⟩
      refine ⟨(key, v) :: fields, by rw [hv, hfields]; rfl, ?_, ?_⟩
      · rw [fieldsWithin, hwithin, hrest, Bool.and_self]
      · rw [hfind v fields hfields, hload v fields hfields, hy]
        simp [loadField, hx]
    · rintro ⟨all, hall, hwithin, hloads⟩
      obtain ⟨v, hv, hall⟩ := Option.bind_eq_some_iff.mp hall
      obtain ⟨fields, hfields, hall⟩ := Option.bind_eq_some_iff.mp hall
      cases hall
      rw [fieldsWithin, and_eq_true] at hwithin
      rw [hfind v fields hfields, hload v fields hfields] at hloads
      obtain ⟨a, ha, hloads⟩ := Option.bind_eq_some_iff.mp hloads
      obtain ⟨b, hb, hloads⟩ := Option.bind_eq_some_iff.mp hloads
      cases hloads
      exact ⟨⟨v, hv, hwithin.1, ha⟩, fields, hfields, hwithin.2, hb⟩

@[simp] theorem keys_cons (key : String) (c : Codec α) (default : Option α) (r : Record β)
    (hkey : key ∉ r.keys) : (cons key c default r hkey).keys = key :: r.keys := rfl

variable (r : Record α)

/-- The same fields, as the values of another type. -/
def iso (pack : α → β) (parts : β → α) (hpack : ∀ y, pack (parts y) = y)
    (hparts : ∀ x, parts (pack x) = x) : Record β where
  keys := r.keys
  dump y := r.dump (parts y)
  load find := (r.load find).map pack
  Carries digits depth y := r.Carries digits depth (parts y)
  keys_dump h := r.keys_dump h
  load_congr h := by rw [r.load_congr h]
  readable h := r.readable h
  exact digits depth y := by
    rw [r.exact]
    refine exists_congr (fun fields => and_congr_right (fun _ => and_congr_right ?_))
    intro _
    rw [Option.map_eq_some_iff]
    constructor
    · intro h
      exact ⟨parts y, h, hpack y⟩
    · rintro ⟨x, hx, rfl⟩
      rw [hx, hparts]

@[simp] theorem keys_iso (pack : α → β) (parts : β → α) (hpack : ∀ y, pack (parts y) = y)
    (hparts : ∀ x, parts (pack x) = x) :
    (r.iso pack parts hpack hparts).keys = r.keys := rfl

/-- Reading the fields of an object; a key the record does not have is an error. -/
def loadFields (known : List String) (fields : List (String × Json)) :
    Option α :=
  if fields.all (fun field => field.1 ∈ known) then r.load (findField fields) else none

variable {x : α}

/-- What is read back of an object with the fields of a record, maybe behind others
whose keys are known too. -/
theorem loadFields_eq {known : List String} {front : List (String × Json)}
    (hfields : r.dump x = some fields) (hknown : ∀ key ∈ r.keys, key ∈ known)
    (hfront : ∀ key ∈ front.map Prod.fst, key ∈ known ∧ key ∉ r.keys) :
    r.loadFields known (front ++ fields) = r.load (findField fields) := by
  have hall : (front ++ fields).all (fun field => field.1 ∈ known) = true := by
    rw [all_eq_true]
    intro field hfield
    rw [decide_eq_true_eq]
    rcases mem_append.mp hfield with h | h
    · exact (hfront _ (mem_map_of_mem h)).1
    · exact hknown _ (r.keys_dump hfields ▸ mem_map_of_mem h)
  rw [loadFields, if_pos hall]
  apply r.load_congr
  intro key hkey
  clear hall
  induction front with
  | nil => rfl
  | cons field front ih =>
    have hne : key ≠ field.1 := by
      rintro rfl
      exact (hfront _ mem_cons_self).2 hkey
    rw [cons_append, findField_cons_ne hne]
    exact ih (fun k hk => hfront k (mem_cons_of_mem _ hk))

def object : Codec α where
  dump x := (r.dump x).map .obj
  load
    | .obj fields => r.loadFields r.keys fields
    | _ => none
  Carries digits depth x := 0 < depth ∧ r.Carries digits (depth - 1) x
  readable h := by
    obtain ⟨fields, hfields, rfl⟩ := Option.map_eq_some_iff.mp h
    exact r.readable hfields
  exact digits depth x := by
    have hload : ∀ fields, r.dump x = some fields →
        r.loadFields r.keys fields = r.load (findField fields) := by
      intro fields hfields
      have hback : r.loadFields r.keys ([] ++ fields) = r.load (findField fields) :=
        r.loadFields_eq hfields (fun _ h => h) (nofun)
      exact hback
    rw [r.exact]
    constructor
    · rintro ⟨hdepth, fields, hfields, hwithin, hx⟩
      refine ⟨.obj fields, by rw [hfields]; rfl, ?_, ?_⟩
      · rw [Json.within, hwithin, Bool.and_true, decide_eq_true hdepth]
      · exact (hload fields hfields).trans hx
    · rintro ⟨v, hv, hwithin, hx⟩
      obtain ⟨fields, hfields, rfl⟩ := Option.map_eq_some_iff.mp hv
      rw [Json.within, and_eq_true, decide_eq_true_eq] at hwithin
      exact ⟨hwithin.1, fields, hfields, hwithin.2, (hload fields hfields).symm.trans hx⟩

/-! ## Tags -/

def dumpTagged (key tag : String) (r : Record α) (x : α) : Option Json :=
  (r.dump x).map fun fields => .obj ((key, .str tag) :: fields)

variable {r} {tag : String}

theorem readable_tagged (h : r.dumpTagged key tag x = some v) : v.Readable := by
  obtain ⟨fields, hfields, rfl⟩ := Option.map_eq_some_iff.mp h
  exact ⟨trivial, r.readable hfields⟩

theorem obj_of_tagged (h : r.dumpTagged key tag x = some v) : ∃ fields, v = .obj fields := by
  obtain ⟨fields, -, rfl⟩ := Option.map_eq_some_iff.mp h
  exact ⟨_, rfl⟩

def readTag (key : String) : Json → Option (String × List (String × Json))
  | .obj fields =>
    match findField fields key with
    | some (.str tag) => some (tag, fields)
    | _ => none
  | _ => none

def loadTagged (key : String) (r : Record α) (fields : List (String × Json)) : Option α :=
  r.loadFields (key :: r.keys) fields

/-- Exactly the records that are carried are read back behind their tags, as a variant
`mk` of a type whose reader goes by the tag. -/
theorem carries_tagged (key tag : String) (r : Record α) (hkey : key ∉ r.keys)
    {mk : α → β} (hmk : Function.Injective mk)
    {load : String → List (String × Json) → Option β}
    (hvariant : ∀ fields, load tag fields = (r.loadTagged key fields).map mk)
    (digits depth : Nat) (x : α) :
    0 < depth ∧ r.Carries digits (depth - 1) x ↔
      ∃ v, r.dumpTagged key tag x = some v ∧ v.within digits depth = true ∧
        ((readTag key v).bind fun found => load found.1 found.2) = some (mk x) := by
  have hload : ∀ fields, r.dump x = some fields →
      ((readTag key (.obj ((key, .str tag) :: fields))).bind
        fun found => load found.1 found.2) = (r.load (findField fields)).map mk := by
    intro fields hfields
    have hback : r.loadFields (key :: r.keys) ([(key, .str tag)] ++ fields) =
        r.load (findField fields) := by
      refine r.loadFields_eq hfields (fun _ h => mem_cons_of_mem _ h) ?_
      intro k hk
      obtain rfl := mem_singleton.mp hk
      exact ⟨mem_cons_self, hkey⟩
    rw [readTag, findField_cons_self (by rw [r.keys_dump hfields]; exact hkey)]
    exact (hvariant _).trans (congrArg (Option.map mk) hback)
  rw [r.exact]
  constructor
  · rintro ⟨hdepth, fields, hfields, hwithin, hx⟩
    refine ⟨_, by rw [dumpTagged, hfields]; rfl, ?_, ?_⟩
    · rw [Json.within, fieldsWithin, Json.within, hwithin, decide_eq_true hdepth]
      rfl
    · rw [hload fields hfields, hx, Option.map_some]
  · rintro ⟨v, hv, hwithin, hx⟩
    obtain ⟨fields, hfields, rfl⟩ := Option.map_eq_some_iff.mp hv
    rw [hload fields hfields] at hx
    obtain ⟨y, hy, hxy⟩ := Option.map_eq_some_iff.mp hx
    rw [Json.within, fieldsWithin, and_eq_true, and_eq_true,
      decide_eq_true_eq] at hwithin
    exact ⟨hwithin.1, fields, hfields, hwithin.2.2, hmk hxy ▸ hy⟩

end Record

end StackOwl.Lib
