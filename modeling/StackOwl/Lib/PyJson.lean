import Mathlib.Data.List.Perm.Basic
import Mathlib.Data.List.Sort
import Mathlib.Data.Rat.Init
import StackOwl.Lib.JsonText

/-!
# Python values as JSON

What `json.dumps` makes of a value of Python's own kinds, with sorted keys, and what
`json.loads` makes of a text.  A tuple is written as a list, a key that is no string as
the string it is printed as; keys that cannot be compared with one another, and keys of
other kinds, are a `TypeError`, and an integer of too many digits is a `ValueError`.

The number that a literal is rounded to is a parameter, `rounds`: it orders keys and is
what numbers are compared by.

## Main results

* `eq_ofJson` — what is written and read again equals the value exactly where the value
  has no tuple, no key that is no string, and no `NaN` but the one the reader makes.
-/

namespace StackOwl.Lib

open List

/-! ## Values -/

/-- A float.  A `NaN` equals nothing but itself; `own` is the one the JSON reader has. -/
inductive PyFloat where
  | literal (x : FloatLiteral)
  | infinity (negative : Bool)
  | nan (own : Bool)
  deriving DecidableEq

inductive PyKey where
  | none
  | bool (b : Bool)
  | int (n : Int)
  | float (x : PyFloat)
  | str (s : Text)
  | tuple (items : List PyKey)

/-- A value of Python's own kinds; the items of a dictionary in the order they were set. -/
inductive PyValue where
  | none
  | bool (b : Bool)
  | int (n : Int)
  | float (x : PyFloat)
  | str (s : Text)
  | list (items : List PyValue)
  | tuple (items : List PyValue)
  | dict (items : List (PyKey × PyValue))

inductive Worth where
  | finite (q : ℚ)
  | infinity (negative : Bool)
  | nan

/-- `a < b`; a `NaN` is less than nothing, and nothing is less than it. -/
def Worth.lt : Worth → Worth → Bool
  | .finite a, .finite b => a < b
  | .infinity true, .finite _ => true
  | .finite _, .infinity false => true
  | .infinity true, .infinity false => true
  | _, _ => false

/-- `a == b`. -/
def Worth.eq : Worth → Worth → Bool
  | .finite a, .finite b => a == b
  | .infinity a, .infinity b => a == b
  | _, _ => false

def CodePoint.number : CodePoint → Nat
  | .scalar c => c.toNat
  | .surrogate n => 0xD800 + n

section

variable (rounds : FloatLiteral → ℚ)

def PyFloat.worth : PyFloat → Worth
  | .literal x => .finite (rounds x)
  | .infinity negative => .infinity negative
  | .nan _ => .nan

def PyKey.number? : PyKey → Option Worth
  | .bool b => some (.finite b.toNat)
  | .int n => some (.finite n)
  | .float x => some (x.worth rounds)
  | _ => Option.none

def PyValue.number? : PyValue → Option Worth
  | .bool b => some (.finite b.toNat)
  | .int n => some (.finite n)
  | .float x => some (x.worth rounds)
  | _ => Option.none

def numbersEq (a b : Option Worth) : Bool :=
  match a, b with
  | some a, some b => a.eq b
  | _, _ => false

mutual

/-- `a == b` of keys; a `NaN` is found by its identity. -/
def PyKey.eq : PyKey → PyKey → Bool
  | .none, .none => true
  | .str s, .str t => s == t
  | .tuple xs, .tuple ys => keysEq xs ys
  | .float (.nan own), .float (.nan own') => own && own'
  | k, l => numbersEq (k.number? rounds) (l.number? rounds)

def keysEq : List PyKey → List PyKey → Bool
  | [], [] => true
  | x :: xs, y :: ys => x.eq y && keysEq xs ys
  | _, _ => false

end

mutual

/-- `a == b`, where the parts of lists, tuples and dictionaries may be identical.  Whether
two `NaN` are one object is known of the reader's own only. -/
def PyValue.eq : PyValue → PyValue → Bool
  | .none, .none => true
  | .str s, .str t => s == t
  | .list xs, .list ys => itemsEq xs ys
  | .tuple xs, .tuple ys => itemsEq xs ys
  | .dict xs, .dict ys => xs.length == ys.length && fieldsEq xs ys
  | .float (.nan own), .float (.nan own') => own && own'
  | v, w => numbersEq (v.number? rounds) (w.number? rounds)

def itemsEq : List PyValue → List PyValue → Bool
  | [], [] => true
  | x :: xs, y :: ys => x.eq y && itemsEq xs ys
  | _, _ => false

def fieldsEq : List (PyKey × PyValue) → List (PyKey × PyValue) → Bool
  | [], _ => true
  | (key, value) :: xs, ys =>
    (match ys.find? (fun field => key.eq rounds field.1) with
      | some field => value.eq field.2
      | Option.none => false) && fieldsEq xs ys

end

end

/-! ## Writing -/

/-- Why a value is not written. -/
inductive DumpError where
  | type
  | digits

def PyFloat.json : PyFloat → JsonFloat
  | .literal x => .literal x
  | .infinity negative => .infinity negative
  | .nan _ => .nan

def keyText (digits : Nat) : PyKey → Except DumpError Text
  | .str s => .ok s
  | .float x => .ok (scalars x.json.print)
  | .bool true => .ok (scalars "true".toList)
  | .bool false => .ok (scalars "false".toList)
  | .none => .ok (scalars "null".toList)
  | .int n =>
    if intWithin digits n then .ok (scalars (toString n).toList) else .error .digits
  | .tuple _ => .error .type

def PyKey.isStr : PyKey → Bool
  | .str _ => true
  | _ => false

/-- `sorted` compares any two of the keys; one key is compared with nothing.  Tuples are
no keys of JSON, so it does not matter which of them can be compared. -/
def sortable (rounds : FloatLiteral → ℚ) (keys : List PyKey) : Bool :=
  keys.length ≤ 1 || keys.all PyKey.isStr || keys.all (fun k => (k.number? rounds).isSome)

/-- `a < b` of keys that can be compared. -/
def PyKey.lt (rounds : FloatLiteral → ℚ) : PyKey → PyKey → Bool
  | .str s, .str t => s.map CodePoint.number < t.map CodePoint.number
  | k, l =>
    match k.number? rounds, l.number? rounds with
    | some a, some b => a.lt b
    | _, _ => false

section

variable (rounds : FloatLiteral → ℚ) (digits : Nat)

def sortItems {α : Type} (items : List (PyKey × α)) : List (PyKey × α) :=
  items.insertionSort (fun a b => b.1.lt rounds a.1 = false)

/-- The items of a dictionary, one after the other. -/
def writeKeyed : List (PyKey × Except DumpError JsonTree) →
    Except DumpError (List (Text × JsonTree))
  | [] => .ok []
  | (key, value) :: rest => do
      let key ← keyText digits key
      let value ← value
      let rest ← writeKeyed rest
      .ok ((key, value) :: rest)

/-- A dictionary, whose values are written where they are reached. -/
def writeDict (items : List (PyKey × Except DumpError JsonTree)) :
    Except DumpError JsonTree :=
  if sortable rounds (items.map Prod.fst) then
    (writeKeyed digits (sortItems rounds items)).map .obj
  else .error .type

mutual

/-- The JSON value that `json.dumps(…, sort_keys=True)` prints. -/
def PyValue.toJson : PyValue → Except DumpError JsonTree
  | .none => .ok .null
  | .bool b => .ok (.bool b)
  | .int n => if intWithin digits n then .ok (.int n) else .error .digits
  | .float x => .ok (.float x.json)
  | .str s => .ok (.str s)
  | .list items => (itemsToJson items).map .arr
  | .tuple items => (itemsToJson items).map .arr
  | .dict items => writeDict rounds digits (fieldsToJson items)

def itemsToJson : List PyValue → Except DumpError (List JsonTree)
  | [] => .ok []
  | item :: items => do
      let item ← item.toJson
      let items ← itemsToJson items
      .ok (item :: items)

def fieldsToJson : List (PyKey × PyValue) → List (PyKey × Except DumpError JsonTree)
  | [] => []
  | (key, value) :: fields => (key, value.toJson) :: fieldsToJson fields

end

/-- `json.dumps(value, sort_keys=True, ensure_ascii=False)`. -/
def dumpsText (v : PyValue) : Except DumpError Text := (v.toJson rounds digits).map JsonTree.print

end

/-! ## Reading -/

/-- `d[key] = value`: the key keeps its place. -/
def assign {κ α : Type} [DecidableEq κ] (key : κ) (value : α) : List (κ × α) → List (κ × α)
  | [] => [(key, value)]
  | field :: fields =>
    if field.1 = key then (key, value) :: fields else field :: assign key value fields

/-- The dictionary that a reader fills, field by field. -/
def assignAll {κ α : Type} [DecidableEq κ] (fields : List (κ × α)) : List (κ × α) :=
  fields.foldl (fun dict field => assign field.1 field.2 dict) []

def PyFloat.ofJson : JsonFloat → PyFloat
  | .literal x => .literal x
  | .infinity negative => .infinity negative
  | .nan => .nan true

mutual

def ofJson : JsonTree → PyValue
  | .null => .none
  | .bool b => .bool b
  | .int n => .int n
  | .float x => .float (.ofJson x)
  | .str s => .str s
  | .arr items => .list (itemsOfJson items)
  | .obj fields =>
    .dict ((assignAll (fieldsOfJson fields)).map fun field => (.str field.1, field.2))

def itemsOfJson : List JsonTree → List PyValue
  | [] => []
  | item :: items => ofJson item :: itemsOfJson items

def fieldsOfJson : List (Text × JsonTree) → List (Text × PyValue)
  | [] => []
  | (key, value) :: fields => (key, ofJson value) :: fieldsOfJson fields

end

/-- `json.loads(text)`. -/
def loadsText (limits : Limits) (text : Text) : Except LoadError PyValue :=
  (loadTree limits text).map ofJson

/-! ## Dictionaries -/

section

variable {κ α : Type} [DecidableEq κ] {fields : List (κ × α)} {key : κ} {value : α}

theorem mem_keys_assign {k : κ} :
    k ∈ (assign key value fields).map Prod.fst ↔ k = key ∨ k ∈ fields.map Prod.fst := by
  induction fields with
  | nil => simp [assign]
  | cons field fields ih =>
    rw [assign]
    split
    · rename_i h
      simp [h]
    · rw [map_cons, mem_cons, ih, map_cons, mem_cons]
      exact or_left_comm

theorem nodup_assign (key : κ) (value : α) (h : (fields.map Prod.fst).Nodup) :
    ((assign key value fields).map Prod.fst).Nodup := by
  induction fields with
  | nil => simp [assign]
  | cons field fields ih =>
    rw [map_cons, nodup_cons] at h
    rw [assign]
    split
    · rename_i heq
      subst heq
      exact nodup_cons.mpr h
    · rename_i hne
      rw [map_cons, nodup_cons, mem_keys_assign]
      exact ⟨not_or.mpr ⟨hne, h.1⟩, ih h.2⟩

theorem assign_of_not_mem (value : α) (h : key ∉ fields.map Prod.fst) :
    assign key value fields = fields ++ [(key, value)] := by
  induction fields with
  | nil => rfl
  | cons field fields ih =>
    rw [map_cons, mem_cons, not_or] at h
    rw [assign, if_neg (Ne.symm h.1), ih h.2, cons_append]

theorem forall_assign {P : α → Prop} (hvalue : P value) (h : ∀ field ∈ fields, P field.2) :
    ∀ field ∈ assign key value fields, P field.2 := by
  induction fields with
  | nil =>
    intro field hfield
    obtain rfl := mem_singleton.mp hfield
    exact hvalue
  | cons field fields ih =>
    rw [forall_mem_cons] at h
    rw [assign]
    split
    · exact forall_mem_cons.mpr ⟨hvalue, h.2⟩
    · exact forall_mem_cons.mpr ⟨h.1, ih h.2⟩

theorem nodup_assignAll (fields : List (κ × α)) :
    ((assignAll fields).map Prod.fst).Nodup := by
  have hfold : ∀ (fields dict : List (κ × α)), (dict.map Prod.fst).Nodup →
      ((fields.foldl (fun d f => assign f.1 f.2 d) dict).map Prod.fst).Nodup := by
    intro fields
    induction fields with
    | nil => exact fun _ h => h
    | cons field fields ih => exact fun dict h => ih _ (nodup_assign field.1 field.2 h)
  exact hfold fields [] nodup_nil

theorem forall_assignAll {P : α → Prop} (h : ∀ field ∈ fields, P field.2) :
    ∀ field ∈ assignAll fields, P field.2 := by
  have hfold : ∀ (fields dict : List (κ × α)), (∀ field ∈ fields, P field.2) →
      (∀ field ∈ dict, P field.2) →
      ∀ field ∈ fields.foldl (fun d f => assign f.1 f.2 d) dict, P field.2 := by
    intro fields
    induction fields with
    | nil => exact fun _ _ h => h
    | cons field fields ih =>
      intro dict hfields hdict
      rw [forall_mem_cons] at hfields
      exact ih _ hfields.2 (forall_assign hfields.1 hdict)
  exact hfold fields [] h (by rintro field ⟨⟩)

theorem assignAll_of_nodup (h : (fields.map Prod.fst).Nodup) :
    assignAll fields = fields := by
  have hfold : ∀ (fields dict : List (κ × α)), ((dict ++ fields).map Prod.fst).Nodup →
      fields.foldl (fun d f => assign f.1 f.2 d) dict = dict ++ fields := by
    intro fields
    induction fields with
    | nil => exact fun dict _ => (append_nil dict).symm
    | cons field fields ih =>
      intro dict hdict
      have hnew : field.1 ∉ dict.map Prod.fst := by
        rw [map_append, map_cons] at hdict
        intro hmem
        exact (nodup_append.mp hdict).2.2 _ hmem _ mem_cons_self rfl
      rw [foldl_cons, assign_of_not_mem field.2 hnew, ih]
      · rw [append_assoc, singleton_append]
      · rwa [append_assoc, singleton_append]
  exact (hfold fields [] h).trans (nil_append fields)

theorem assignAll_ne_nil (h : fields ≠ []) :
    assignAll fields ≠ [] := by
  have hassign : ∀ (key : κ) (value : α) dict, assign key value dict ≠ [] := by
    intro key value dict
    cases dict with
    | nil => exact cons_ne_nil _ _
    | cons field dict =>
      rw [assign]
      split <;> exact cons_ne_nil _ _
  have hfold : ∀ (fields dict : List (κ × α)), dict ≠ [] →
      fields.foldl (fun d f => assign f.1 f.2 d) dict ≠ [] := by
    intro fields
    induction fields with
    | nil => exact fun _ h => h
    | cons field fields ih => exact fun dict _ => ih _ (hassign _ _ dict)
  cases fields with
  | nil => exact absurd rfl h
  | cons field fields => exact hfold fields _ (hassign field.1 field.2 [])

end

/-! ## Kinds of values -/

def textKeys {α : Type} (items : List (PyKey × α)) : List Text :=
  items.filterMap fun item =>
    match item.1 with
    | .str s => some s
    | _ => Option.none

mutual

def PyValue.proper : PyValue → Bool
  | .list items => itemsProper items
  | .tuple items => itemsProper items
  | .dict items => decide (textKeys items).Nodup && fieldsProper items
  | .none | .bool _ | .int _ | .float _ | .str _ => true

def itemsProper : List PyValue → Bool
  | [] => true
  | item :: items => item.proper && itemsProper items

def fieldsProper : List (PyKey × PyValue) → Bool
  | [] => true
  | (_, value) :: fields => value.proper && fieldsProper fields

end

mutual

/-- The value has no tuple, no key that is no string, and no `NaN` of its own. -/
def PyValue.plain : PyValue → Bool
  | .list items => itemsPlain items
  | .tuple _ => false
  | .dict items => fieldsPlain items
  | .float (.nan own) => own
  | .none | .bool _ | .int _ | .float _ | .str _ => true

def itemsPlain : List PyValue → Bool
  | [] => true
  | item :: items => item.plain && itemsPlain items

def fieldsPlain : List (PyKey × PyValue) → Bool
  | [] => true
  | (key, value) :: fields => key.isStr && value.plain && fieldsPlain fields

end

mutual

def PyValue.within (depth : Nat) : PyValue → Bool
  | .list items => 0 < depth && itemsWithinPy (depth - 1) items
  | .tuple items => 0 < depth && itemsWithinPy (depth - 1) items
  | .dict items => 0 < depth && fieldsWithinPy (depth - 1) items
  | .none | .bool _ | .int _ | .float _ | .str _ => true

def itemsWithinPy (depth : Nat) : List PyValue → Bool
  | [] => true
  | item :: items => item.within depth && itemsWithinPy depth items

def fieldsWithinPy (depth : Nat) : List (PyKey × PyValue) → Bool
  | [] => true
  | (_, value) :: fields => value.within depth && fieldsWithinPy depth fields

end

/-! ## Lists of parts -/

theorem fieldsOfJson_eq (fields : List (Text × JsonTree)) :
    fieldsOfJson fields = fields.map fun field => (field.1, ofJson field.2) := by
  induction fields with
  | nil => rfl
  | cons field fields ih => exact congrArg ((field.1, ofJson field.2) :: ·) ih

theorem fieldsPlain_eq (items : List (PyKey × PyValue)) :
    fieldsPlain items = items.all fun item => item.1.isStr && item.2.plain := by
  induction items with
  | nil => rfl
  | cons item items ih => rw [fieldsPlain, ih, all_cons]

theorem fieldsWithinPy_eq (depth : Nat) (items : List (PyKey × PyValue)) :
    fieldsWithinPy depth items = items.all fun item => item.2.within depth := by
  induction items with
  | nil => rfl
  | cons item items ih => rw [fieldsWithinPy, ih, all_cons]

theorem treeFieldsWithin_eq (depth : Nat) (fields : List (Text × JsonTree)) :
    treeFieldsWithin depth fields = fields.all fun field => field.2.within depth := by
  induction fields with
  | nil => rfl
  | cons field fields ih => rw [treeFieldsWithin, ih, all_cons]

theorem treeFieldsFit_eq (digits : Nat) (fields : List (Text × JsonTree)) :
    treeFieldsFit digits fields = fields.all fun field => field.2.fits digits := by
  induction fields with
  | nil => rfl
  | cons field fields ih => rw [treeFieldsFit, ih, all_cons]

theorem fieldsProper_iff {items : List (PyKey × PyValue)} :
    fieldsProper items = true ↔ ∀ item ∈ items, item.2.proper = true := by
  induction items with
  | nil =>
    constructor
    · rintro - item ⟨⟩
    · exact fun _ => rfl
  | cons item items ih => rw [fieldsProper, Bool.and_eq_true, ih, forall_mem_cons]

/-! ## What is written -/

section

variable (rounds : FloatLiteral → ℚ) (digits : Nat)

theorem fieldsEq_eq (xs ys : List (PyKey × PyValue)) :
    fieldsEq rounds xs ys = xs.all fun x =>
      match ys.find? (fun field => x.1.eq rounds field.1) with
      | some field => x.2.eq rounds field.2
      | Option.none => false := by
  induction xs with
  | nil => rfl
  | cons x xs ih => rw [fieldsEq, ih, all_cons]

theorem fieldsToJson_eq (items : List (PyKey × PyValue)) :
    fieldsToJson rounds digits items =
      items.map fun item => (item.1, item.2.toJson rounds digits) := by
  induction items with
  | nil => rfl
  | cons item items ih => exact congrArg ((item.1, item.2.toJson rounds digits) :: ·) ih

def Written (item : PyKey × PyValue) (field : Text × JsonTree) : Prop :=
  keyText digits item.1 = .ok field.1 ∧ item.2.toJson rounds digits = .ok field.2

variable {fields : List (Text × JsonTree)}

theorem forall₂_of_writeKeyed {items : List (PyKey × Except DumpError JsonTree)}
    (h : writeKeyed digits items = .ok fields) :
    List.Forall₂ (fun item field => keyText digits item.1 = .ok field.1 ∧
      item.2 = .ok field.2) items fields := by
  induction items generalizing fields with
  | nil =>
    cases h
    exact .nil
  | cons item items ih =>
    obtain ⟨key, value⟩ := item
    rw [writeKeyed] at h
    cases hkey : keyText digits key with
    | error e =>
      rw [hkey] at h
      cases h
    | ok k =>
      cases value with
      | error e =>
        rw [hkey] at h
        cases h
      | ok v =>
        cases hrest : writeKeyed digits items with
        | error e =>
          rw [hkey, hrest] at h
          cases h
        | ok rest =>
          rw [hkey, hrest] at h
          cases h
          exact .cons ⟨hkey, rfl⟩ (ih hrest)

variable {items : List (PyKey × PyValue)} {t : JsonTree}

theorem written_of_dict (h : (PyValue.dict items).toJson rounds digits = .ok t) :
    sortable rounds (items.map Prod.fst) = true ∧
      ∃ fields sorted, t = .obj sorted ∧ List.Forall₂ (Written rounds digits) items fields ∧
        fields.Perm sorted := by
  have hkeys : (fieldsToJson rounds digits items).map Prod.fst = items.map Prod.fst := by
    rw [fieldsToJson_eq, map_map]
    rfl
  rw [PyValue.toJson, writeDict, hkeys] at h
  split at h
  · rename_i hsortable
    cases hwrite : writeKeyed digits
        (sortItems rounds (fieldsToJson rounds digits items)) with
    | error e =>
      rw [hwrite] at h
      cases h
    | ok sorted =>
      rw [hwrite] at h
      cases h
      have hperm : (fieldsToJson rounds digits items).Perm
          (sortItems rounds (fieldsToJson rounds digits items)) :=
        (perm_insertionSort _ _).symm
      obtain ⟨fields, hfields, hsorted⟩ :=
        perm_comp_forall₂ hperm (forall₂_of_writeKeyed digits hwrite)
      rw [fieldsToJson_eq, forall₂_map_left_iff] at hfields
      exact ⟨hsortable, fields, sorted, rfl, hfields, hsorted⟩
  · cases h

/-- A relation between the parts makes two tests agree on the wholes. -/
theorem all_eq_of_forall₂ {α β : Type} {R : α → β → Prop} {p : α → Bool} {q : β → Bool}
    {xs : List α} {ys : List β} (h : List.Forall₂ R xs ys)
    (hpq : ∀ x ∈ xs, ∀ y, R x y → q y = p x) : ys.all q = xs.all p := by
  induction h with
  | nil => rfl
  | cons hxy _ ih =>
    rw [forall_mem_cons] at hpq
    rw [all_cons, all_cons, hpq.1 _ hxy, ih hpq.2]

theorem ok_of_map {ε α β : Type} {f : α → β} {x : Except ε α} {b : β}
    (h : x.map f = .ok b) : ∃ a, x = .ok a ∧ f a = b := by
  cases x with
  | error e => cases h
  | ok a => exact ⟨a, rfl, Except.ok.inj h⟩

theorem itemsToJson_cons {item : PyValue} {items : List PyValue} {ts : List JsonTree}
    (h : itemsToJson rounds digits (item :: items) = .ok ts) :
    ∃ t rest, item.toJson rounds digits = .ok t ∧
      itemsToJson rounds digits items = .ok rest ∧ ts = t :: rest := by
  rw [itemsToJson] at h
  cases hitem : item.toJson rounds digits with
  | error e =>
    rw [hitem] at h
    cases h
  | ok t =>
    cases hrest : itemsToJson rounds digits items with
    | error e =>
      rw [hitem, hrest] at h
      cases h
    | ok rest =>
      rw [hitem, hrest] at h
      cases h
      exact ⟨t, rest, rfl, rfl, rfl⟩

variable {s : Text}

theorem str_eq_iff {key : PyKey} :
    (PyKey.str s).eq rounds key = true ↔ key = .str s := by
  cases key with
  | str t =>
    rw [PyKey.eq, beq_iff_eq, PyKey.str.injEq]
    exact eq_comm
  | none | bool _ | int _ | float _ | tuple _ =>
    simp [PyKey.eq, numbersEq, PyKey.number?]

theorem find_str (hnodup : (textKeys items).Nodup) {v : PyValue} (h : (PyKey.str s, v) ∈ items) :
    items.find? (fun field => (PyKey.str s).eq rounds field.1) = some (.str s, v) := by
  induction items with
  | nil => cases h
  | cons item items ih =>
    obtain ⟨key, value⟩ := item
    by_cases hkey : key = .str s
    · subst hkey
      have hfirst : (PyKey.str s).eq rounds (PyKey.str s) = true := str_eq_iff rounds |>.mpr rfl
      rw [find?_cons, hfirst]
      rcases mem_cons.mp h with heq | hrest
      · exact congrArg some heq.symm
      · have hmem : s ∈ textKeys items :=
          mem_filterMap.mpr ⟨(.str s, v), hrest, rfl⟩
        exact absurd hmem (nodup_cons.mp hnodup).1
    · have hmiss : (PyKey.str s).eq rounds key = false := by
        rw [Bool.eq_false_iff, ne_eq, str_eq_iff]
        exact hkey
      rw [find?_cons, hmiss]
      rcases mem_cons.mp h with heq | hrest
      · exact absurd (congrArg Prod.fst heq).symm hkey
      · refine ih ?_ hrest
        cases key with
        | str t => exact (nodup_cons.mp hnodup).2
        | none | bool _ | int _ | float _ | tuple _ => exact hnodup

theorem keys_of_written (h : List.Forall₂ (Written rounds digits) items fields)
    (hstr : ∀ item ∈ items, item.1.isStr = true) :
    fields.map Prod.fst = textKeys items := by
  induction h with
  | nil => rfl
  | @cons item field items fields hwritten _ ih =>
    rw [forall_mem_cons] at hstr
    obtain ⟨key, value⟩ := item
    cases key with
    | str s =>
      have hs : s = field.1 := Except.ok.inj hwritten.1
      rw [map_cons, ih hstr.2, ← hs]
      rfl
    | none | bool _ | int _ | float _ | tuple _ => cases hstr.1

theorem isStr_of_sortable {keys : List PyKey} (h : sortable rounds keys = true) :
    (∀ key ∈ keys, key.isStr = true) ∨ ∀ key ∈ keys, key.isStr = false := by
  simp only [sortable, Bool.or_eq_true, decide_eq_true_eq, all_eq_true] at h
  rcases h with (hlength | hstr) | hnumber
  · match keys, hlength with
    | [], _ => exact Or.inl (by rintro key ⟨⟩)
    | [key], _ =>
      cases hkey : key.isStr with
      | true => exact Or.inl (by simpa using hkey)
      | false => exact Or.inr (by simpa using hkey)
  · exact Or.inl hstr
  · refine Or.inr fun key hkey => ?_
    have hsome := hnumber key hkey
    cases key with
    | str s => cases hsome
    | none | bool _ | int _ | float _ | tuple _ => rfl

theorem ofJson_obj (h : (fields.map Prod.fst).Nodup) :
    ofJson (.obj fields) = .dict (fields.map fun field => (.str field.1, ofJson field.2)) := by
  have hnodup : ((fields.map fun field => (field.1, ofJson field.2)).map Prod.fst).Nodup := by
    rw [map_map]
    exact h
  rw [ofJson, fieldsOfJson_eq, assignAll_of_nodup hnodup, map_map]
  rfl

/-- A dictionary read again equals the one that was written where all keys are strings
and all values equal theirs. -/
theorem eq_ofJson_dict (hnodup : (textKeys items).Nodup)
    (h : (PyValue.dict items).toJson rounds digits = .ok t)
    (ih : ∀ item ∈ items, ∀ t, item.2.toJson rounds digits = .ok t →
      (ofJson t).eq rounds item.2 = item.2.plain) :
    (ofJson t).eq rounds (.dict items) = fieldsPlain items := by
  obtain ⟨hsortable, fields, sorted, rfl, hwritten, hperm⟩ :=
    written_of_dict rounds digits h
  rcases isStr_of_sortable rounds hsortable with hstr | hother
  · have hstr' : ∀ item ∈ items, item.1.isStr = true :=
      fun item hitem => hstr _ (mem_map_of_mem hitem)
    have hkeys := keys_of_written rounds digits hwritten hstr'
    have hsorted : (sorted.map Prod.fst).Nodup :=
      (hperm.map Prod.fst).nodup_iff.mp (by rwa [hkeys])
    have hlength : sorted.length = items.length :=
      hperm.length_eq.symm.trans hwritten.length_eq.symm
    rw [ofJson_obj hsorted, PyValue.eq, length_map, hlength, beq_self_eq_true,
      Bool.true_and, fieldsEq_eq, all_map, ← hperm.all_eq, fieldsPlain_eq]
    apply all_eq_of_forall₂ hwritten
    rintro ⟨key, value⟩ hitem field ⟨hkey, hvalue⟩
    cases key with
    | str s =>
      have hs : s = field.1 := Except.ok.inj hkey
      subst hs
      simp only [Function.comp, find_str rounds hnodup hitem, PyKey.isStr, Bool.true_and]
      exact ih _ hitem _ hvalue
    | none | bool _ | int _ | float _ | tuple _ => cases hstr' _ hitem
  · have hmiss : ∀ s : Text,
        items.find? (fun field => (PyKey.str s).eq rounds field.1) = Option.none := by
      intro s
      rw [find?_eq_none]
      intro item hitem heq
      have hkey := hother _ (mem_map_of_mem hitem)
      rw [(str_eq_iff rounds).mp heq] at hkey
      cases hkey
    cases items with
    | nil =>
      cases hwritten
      rw [nil_perm.mp hperm]
      rfl
    | cons item items =>
      have hne : sorted ≠ [] := by
        rintro rfl
        rw [perm_nil.mp hperm] at hwritten
        cases hwritten
      have hplain : fieldsPlain (item :: items) = false := by
        have hkey := hother item.1 mem_cons_self
        rw [fieldsPlain, hkey]
        rfl
      rw [hplain, ofJson, PyValue.eq, fieldsOfJson_eq]
      have hfilled : assignAll (sorted.map fun field => (field.1, ofJson field.2)) ≠ [] :=
        assignAll_ne_nil (by simpa using hne)
      obtain ⟨field, rest, hcons⟩ := exists_cons_of_ne_nil hfilled
      rw [hcons, map_cons, fieldsEq, hmiss]
      exact Bool.and_false _

mutual

/-- **Read again.**  What is written and read again equals the value exactly where the
value is plain. -/
theorem eq_ofJson : ∀ (v : PyValue) (t : JsonTree), v.proper = true →
    v.toJson rounds digits = .ok t → (ofJson t).eq rounds v = v.plain
  | .none, _, _, h => by
    cases h
    rfl
  | .bool b, _, _, h => by
    cases h
    exact beq_self_eq_true _
  | .int n, _, _, h => by
    rw [PyValue.toJson] at h
    split at h
    · cases h
      exact beq_self_eq_true _
    · cases h
  | .float (.literal x), _, _, h => by
    cases h
    exact beq_self_eq_true _
  | .float (.infinity negative), _, _, h => by
    cases h
    exact beq_self_eq_true negative
  | .float (.nan own), _, _, h => by
    cases h
    exact Bool.true_and own
  | .str s, _, _, h => by
    cases h
    exact beq_self_eq_true s
  | .list items, t, hv, h => by
    obtain ⟨ts, hitems, rfl⟩ := ok_of_map h
    exact itemsEq_ofJson items ts hv hitems
  | .tuple items, t, hv, h => by
    obtain ⟨ts, -, rfl⟩ := ok_of_map h
    rfl
  | .dict items, t, hv, h => by
    rw [PyValue.proper, Bool.and_eq_true, decide_eq_true_eq] at hv
    exact eq_ofJson_dict rounds digits hv.1 h (fieldEq_ofJson items hv.2)

theorem itemsEq_ofJson : ∀ (items : List PyValue) (ts : List JsonTree),
    itemsProper items = true → itemsToJson rounds digits items = .ok ts →
    itemsEq rounds (itemsOfJson ts) items = itemsPlain items
  | [], _, _, h => by
    cases h
    rfl
  | item :: items, ts, hv, h => by
    rw [itemsProper, Bool.and_eq_true] at hv
    obtain ⟨t, rest, hitem, hrest, rfl⟩ := itemsToJson_cons rounds digits h
    rw [itemsOfJson, itemsEq, eq_ofJson item t hv.1 hitem,
      itemsEq_ofJson items rest hv.2 hrest, itemsPlain]

theorem fieldEq_ofJson : ∀ (fields : List (PyKey × PyValue)), fieldsProper fields = true →
    ∀ field ∈ fields, ∀ t, field.2.toJson rounds digits = .ok t →
      (ofJson t).eq rounds field.2 = field.2.plain
  | [], _, _, hfield => by cases hfield
  | (key, value) :: fields, hv, field, hfield => by
    rw [fieldsProper, Bool.and_eq_true] at hv
    intro t h
    rcases mem_cons.mp hfield with rfl | hrest
    · exact eq_ofJson value t hv.1 h
    · exact fieldEq_ofJson fields hv.2 field hrest t h

end

mutual

theorem fits_toJson : ∀ (v : PyValue) (t : JsonTree), v.toJson rounds digits = .ok t →
    t.fits digits = true
  | .none, _, h | .bool _, _, h | .float _, _, h | .str _, _, h => by
    cases h
    rfl
  | .int n, _, h => by
    rw [PyValue.toJson] at h
    split at h
    · rename_i hn
      cases h
      exact hn
    · cases h
  | .list items, _, h | .tuple items, _, h => by
    obtain ⟨ts, hitems, rfl⟩ := ok_of_map h
    exact itemsFit_toJson items ts hitems
  | .dict items, _, h => by
    obtain ⟨-, fields, sorted, rfl, hwritten, hperm⟩ := written_of_dict rounds digits h
    have hall : fields.all (fun field => field.2.fits digits) = items.all fun _ => true :=
      all_eq_of_forall₂ hwritten fun item hitem field hfield =>
        fieldFits_toJson items item hitem field.2 hfield.2
    rw [JsonTree.fits, treeFieldsFit_eq, ← hperm.all_eq, hall]
    simp

theorem itemsFit_toJson : ∀ (items : List PyValue) (ts : List JsonTree),
    itemsToJson rounds digits items = .ok ts → treeItemsFit digits ts = true
  | [], _, h => by
    cases h
    rfl
  | item :: items, ts, h => by
    obtain ⟨t, rest, hitem, hrest, rfl⟩ := itemsToJson_cons rounds digits h
    rw [treeItemsFit, fits_toJson item t hitem, itemsFit_toJson items rest hrest]
    rfl

theorem fieldFits_toJson : ∀ (fields : List (PyKey × PyValue)), ∀ field ∈ fields,
    ∀ t, field.2.toJson rounds digits = .ok t → t.fits digits = true
  | [], _, hfield => by cases hfield
  | (key, value) :: fields, field, hfield => by
    intro t h
    rcases mem_cons.mp hfield with rfl | hrest
    · exact fits_toJson value t h
    · exact fieldFits_toJson fields field hrest t h

end

mutual

theorem within_toJson : ∀ (v : PyValue) (t : JsonTree) (depth : Nat),
    v.toJson rounds digits = .ok t → t.within depth = v.within depth
  | .none, _, _, h | .bool _, _, _, h | .float _, _, _, h | .str _, _, _, h => by
    cases h
    rfl
  | .int n, _, _, h => by
    rw [PyValue.toJson] at h
    split at h
    · cases h
      rfl
    · cases h
  | .list items, _, depth, h | .tuple items, _, depth, h => by
    obtain ⟨ts, hitems, rfl⟩ := ok_of_map h
    rw [JsonTree.within, PyValue.within, itemsWithin_toJson items ts (depth - 1) hitems]
  | .dict items, _, depth, h => by
    obtain ⟨-, fields, sorted, rfl, hwritten, hperm⟩ := written_of_dict rounds digits h
    have hall : fields.all (fun field => field.2.within (depth - 1)) =
        items.all fun item => item.2.within (depth - 1) :=
      all_eq_of_forall₂ hwritten fun item hitem field hfield =>
        fieldWithin_toJson items item hitem field.2 (depth - 1) hfield.2
    rw [JsonTree.within, PyValue.within, treeFieldsWithin_eq, fieldsWithinPy_eq,
      ← hperm.all_eq, hall]

theorem itemsWithin_toJson : ∀ (items : List PyValue) (ts : List JsonTree) (depth : Nat),
    itemsToJson rounds digits items = .ok ts →
    treeItemsWithin depth ts = itemsWithinPy depth items
  | [], _, _, h => by
    cases h
    rfl
  | item :: items, ts, depth, h => by
    obtain ⟨t, rest, hitem, hrest, rfl⟩ := itemsToJson_cons rounds digits h
    rw [treeItemsWithin, itemsWithinPy, within_toJson item t depth hitem,
      itemsWithin_toJson items rest depth hrest]

theorem fieldWithin_toJson : ∀ (fields : List (PyKey × PyValue)), ∀ field ∈ fields,
    ∀ t depth, field.2.toJson rounds digits = .ok t →
      t.within depth = field.2.within depth
  | [], _, hfield => by cases hfield
  | (key, value) :: fields, field, hfield => by
    intro t depth h
    rcases mem_cons.mp hfield with rfl | hrest
    · exact within_toJson value t depth h
    · exact fieldWithin_toJson fields field hrest t depth h

end

end

/-! ## What is read -/

theorem textKeys_of_str {α : Type} (fields : List (Text × α)) :
    textKeys (fields.map fun field => (PyKey.str field.1, field.2)) =
      fields.map Prod.fst := by
  induction fields with
  | nil => rfl
  | cons field fields ih => exact congrArg (field.1 :: ·) ih

mutual

/-- What is read is a value: each dictionary in it has each key once. -/
theorem proper_ofJson : ∀ t : JsonTree, (ofJson t).proper = true
  | .null | .bool _ | .int _ | .float _ | .str _ => rfl
  | .arr items => itemsProper_ofJson items
  | .obj fields => by
    rw [ofJson, PyValue.proper, textKeys_of_str, Bool.and_eq_true, decide_eq_true_eq]
    refine ⟨nodup_assignAll _, fieldsProper_iff.mpr fun item hitem => ?_⟩
    obtain ⟨field, hfield, rfl⟩ := mem_map.mp hitem
    have hvalues : ∀ field ∈ fieldsOfJson fields, field.2.proper = true :=
      fieldProper_ofJson fields
    exact forall_assignAll (P := fun v => v.proper = true) hvalues field hfield

theorem itemsProper_ofJson : ∀ items : List JsonTree,
    itemsProper (itemsOfJson items) = true
  | [] => rfl
  | item :: items => by
    rw [itemsOfJson, itemsProper, proper_ofJson item, itemsProper_ofJson items]
    rfl

theorem fieldProper_ofJson : ∀ fields : List (Text × JsonTree),
    ∀ field ∈ fieldsOfJson fields, field.2.proper = true
  | [], _, hfield => by cases hfield
  | (key, value) :: fields, field, hfield => by
    rcases mem_cons.mp hfield with rfl | hrest
    · exact proper_ofJson value
    · exact fieldProper_ofJson fields field hrest

end

end StackOwl.Lib
