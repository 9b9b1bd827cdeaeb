import StackOwl.Lib.PyJson
import StackOwl.Lib.Text

/-!
# JSON over code points, without blanks

Whichever separators a value is printed with, it is read back, so that the text says which
value it is.

## Main results

* `printTight_inj` — two values of one text are one value.
* `eq_of_toJson` — two plain values that are written as one JSON value are equal.
-/

namespace StackOwl.Lib

open List

/-! ## One text, one value -/

mutual

/-- A value nests no deeper than the reader's calls do. -/
theorem within_of_nesting : ∀ (v : JsonTree) (depth : Nat), v.nesting ≤ depth →
    v.within depth = true
  | .null, _, _ | .bool _, _, _ | .int _, _, _ | .float _, _, _ | .str _, _, _ => rfl
  | .arr items, depth, h => by
    rw [JsonTree.nesting] at h
    rw [JsonTree.within, Bool.and_eq_true, decide_eq_true_eq]
    exact ⟨by omega, itemsWithin_of_nesting items (depth - 1) (by omega)⟩
  | .obj fields, depth, h => by
    rw [JsonTree.nesting] at h
    rw [JsonTree.within, Bool.and_eq_true, decide_eq_true_eq]
    exact ⟨by omega, fieldsWithin_of_nesting fields (depth - 1) (by omega)⟩

theorem itemsWithin_of_nesting : ∀ (items : List JsonTree) (depth : Nat),
    treeItemsNesting items ≤ depth → treeItemsWithin depth items = true
  | [], _, _ => rfl
  | item :: items, depth, h => by
    rw [treeItemsNesting] at h
    rw [treeItemsWithin, within_of_nesting item depth (by omega),
      itemsWithin_of_nesting items depth (by omega)]
    rfl

theorem fieldsWithin_of_nesting : ∀ (fields : List (Text × JsonTree)) (depth : Nat),
    treeFieldsNesting fields ≤ depth → treeFieldsWithin depth fields = true
  | [], _, _ => rfl
  | (key, value) :: fields, depth, h => by
    rw [treeFieldsNesting] at h
    rw [treeFieldsWithin, within_of_nesting value depth (by omega),
      fieldsWithin_of_nesting fields depth (by omega)]
    rfl

end

variable {v w : JsonTree}

theorem printWith_inj {spaced : Bool} {digits : Nat} (hv : v.fits digits = true)
    (hw : w.fits digits = true) (h : v.printWith spaced = w.printWith spaced) : v = w := by
  -- Deep enough for both.
  let limits : Limits := ⟨v.nesting + w.nesting, digits⟩
  have hReadV : loadTree limits (v.printWith spaced) = .ok v := by
    rw [@loads_printWith spaced limits v hv,
      within_of_nesting v (v.nesting + w.nesting) (by omega)]
    rfl
  have hReadW : loadTree limits (w.printWith spaced) = .ok w := by
    rw [@loads_printWith spaced limits w hw,
      within_of_nesting w (v.nesting + w.nesting) (by omega)]
    rfl
  rw [h, hReadW] at hReadV
  exact (Except.ok.inj hReadV).symm

/-- **One text, one value.** -/
theorem printTight_inj {digits : Nat} (hv : v.fits digits = true) (hw : w.fits digits = true)
    (h : v.printTight = w.printTight) : v = w :=
  printWith_inj hv hw h

/-! ## One JSON value, equal values -/

/-- What stands on the one side is related to something on the other. -/
theorem exists_right_of_mem {α β : Type*} {R : α → β → Prop} {xs : List α} {ys : List β}
    (h : List.Forall₂ R xs ys) {x : α} (hx : x ∈ xs) : ∃ y ∈ ys, R x y := by
  induction h with
  | nil => cases hx
  | cons hHead _ ih =>
    rcases mem_cons.mp hx with rfl | hRest
    · exact ⟨_, mem_cons_self, hHead⟩
    · obtain ⟨y, hy, hR⟩ := ih hRest
      exact ⟨y, mem_cons_of_mem _ hy, hR⟩

section

variable (rounds : FloatLiteral → ℚ) (digits : Nat) {t : JsonTree}

/-- Two dictionaries that are written as one object are equal where their values are. -/
theorem eq_of_toJson_dict {items others : List (PyKey × PyValue)}
    (hPlain : fieldsPlain items = true) (hNodup : (textKeys others).Nodup)
    (h : (PyValue.dict items).toJson rounds digits = .ok t)
    (hOther : (PyValue.dict others).toJson rounds digits = .ok t)
    (hPlainOther : fieldsPlain others = true)
    (ih : ∀ item ∈ items, ∀ other ∈ others, ∀ t, item.2.toJson rounds digits = .ok t →
      other.2.toJson rounds digits = .ok t → item.2.eq rounds other.2 = true) :
    (PyValue.dict items).eq rounds (.dict others) = true := by
  obtain ⟨-, fields, sorted, rfl, hWritten, hPerm⟩ := written_of_dict rounds digits h
  obtain ⟨-, fields', sorted', hSame, hWritten', hPerm'⟩ := written_of_dict rounds digits hOther
  cases hSame
  have hLength : items.length = others.length := by
    rw [hWritten.length_eq, hWritten'.length_eq]
    exact (hPerm.trans hPerm'.symm).length_eq
  rw [fieldsPlain_eq, all_eq_true] at hPlain hPlainOther
  rw [PyValue.eq, hLength, beq_self_eq_true, Bool.true_and, fieldsEq_eq, all_eq_true]
  rintro ⟨key, value⟩ hItem
  have hKeyStr := hPlain _ hItem
  rw [Bool.and_eq_true] at hKeyStr
  -- The field of the item stands in the other dictionary as well.
  obtain ⟨field, hField, hKey, hValue⟩ := exists_right_of_mem hWritten hItem
  have hFieldOther : field ∈ fields' := hPerm'.mem_iff.mpr (hPerm.mem_iff.mp hField)
  obtain ⟨⟨key', value'⟩, hItem', hKey', hValue'⟩ :=
    exists_right_of_mem hWritten'.flip hFieldOther
  have hKeyStr' := hPlainOther _ hItem'
  rw [Bool.and_eq_true] at hKeyStr'
  cases key with
  | str s =>
    cases key' with
    | str s' =>
      have hs : s = field.1 := Except.ok.inj hKey
      have hs' : s' = field.1 := Except.ok.inj hKey'
      rw [← hs] at hs'
      subst hs'
      simp only [find_str rounds hNodup hItem']
      exact ih _ hItem _ hItem' _ hValue hValue'
    | none | bool _ | int _ | float _ | tuple _ => cases hKeyStr'.1
  | none | bool _ | int _ | float _ | tuple _ => cases hKeyStr.1

theorem eq_of_toJson_plain {w : PyValue} (hPlain : w.plain = true)
    (h : w.toJson rounds digits = .ok t) :
    match t with
    | .null => w = .none
    | .bool b => w = .bool b
    | .int n => w = .int n
    | .float x => ∃ y, w = .float y ∧ y.json = x
    | .str s => w = .str s
    | .arr ts => ∃ items, w = .list items ∧ itemsToJson rounds digits items = .ok ts
    | .obj _ => ∃ items, w = .dict items := by
  cases w with
  | int n =>
    rw [PyValue.toJson] at h
    split at h
    · cases h
      rfl
    · cases h
  | list items =>
    obtain ⟨ts, hItems, rfl⟩ := ok_of_map h
    exact ⟨items, rfl, hItems⟩
  | dict items =>
    obtain ⟨-, -, sorted, rfl, -⟩ := written_of_dict rounds digits h
    exact ⟨items, rfl⟩
  | tuple items => cases hPlain
  | float x =>
    cases h
    exact ⟨x, rfl, rfl⟩
  | none | bool _ | str _ =>
    cases h
    rfl

/-- Two floats of one JSON value are equal, if a `NaN` among them is the reader's. -/
theorem eq_of_json {x y : PyFloat} (hx : (PyValue.float x).plain = true)
    (hy : (PyValue.float y).plain = true) (h : y.json = x.json) :
    (PyValue.float x).eq rounds (.float y) = true := by
  cases x with
  | literal a =>
    cases y with
    | literal b =>
      cases h
      exact beq_self_eq_true _
    | infinity _ | nan _ => cases h
  | infinity a =>
    cases y with
    | infinity b =>
      cases h
      exact beq_self_eq_true a
    | literal _ | nan _ => cases h
  | nan own =>
    cases y with
    | nan own' =>
      show (own && own') = true
      rw [Bool.and_eq_true]
      exact ⟨hx, hy⟩
    | literal _ | infinity _ => cases h

mutual

/-- **One JSON value, equal values.** -/
theorem eq_of_toJson : ∀ (v w : PyValue) (t : JsonTree), v.plain = true → w.plain = true →
    w.proper = true → v.toJson rounds digits = .ok t → w.toJson rounds digits = .ok t →
    v.eq rounds w = true
  | .none, w, t, _, hPlain, _, h, h' => by
    cases h
    rw [eq_of_toJson_plain rounds digits hPlain h']
    rfl
  | .bool b, w, t, _, hPlain, _, h, h' => by
    cases h
    rw [eq_of_toJson_plain rounds digits hPlain h']
    exact beq_self_eq_true _
  | .int n, w, t, _, hPlain, _, h, h' => by
    rw [PyValue.toJson] at h
    split at h
    · cases h
      rw [eq_of_toJson_plain rounds digits hPlain h']
      exact beq_self_eq_true _
    · cases h
  | .float x, w, t, hOwn, hPlain, _, h, h' => by
    cases h
    obtain ⟨y, rfl, hJson⟩ := eq_of_toJson_plain rounds digits hPlain h'
    exact eq_of_json rounds hOwn hPlain hJson
  | .str s, w, t, _, hPlain, _, h, h' => by
    cases h
    rw [eq_of_toJson_plain rounds digits hPlain h']
    exact beq_self_eq_true s
  | .tuple items, w, t, hTuple, _, _, _, _ => by cases hTuple
  | .list items, w, t, hItems, hPlain, hProper, h, h' => by
    obtain ⟨ts, hTrees, rfl⟩ := ok_of_map h
    obtain ⟨others, rfl, hOthers⟩ := eq_of_toJson_plain rounds digits hPlain h'
    exact itemsEq_of_toJson items others ts hItems hPlain hProper hTrees hOthers
  | .dict items, w, t, hItems, hPlain, hProper, h, h' => by
    obtain ⟨-, -, sorted, rfl, -⟩ := written_of_dict rounds digits h
    obtain ⟨others, rfl⟩ := eq_of_toJson_plain rounds digits hPlain h'
    rw [PyValue.proper, Bool.and_eq_true, decide_eq_true_eq, fieldsProper_iff] at hProper
    have hPlains := hPlain
    rw [PyValue.plain, fieldsPlain_eq, all_eq_true] at hPlains
    refine eq_of_toJson_dict rounds digits hItems hProper.1 h h' hPlain ?_
    intro item hItem other hOther t hJson hJson'
    have hValuePlain := hPlains other hOther
    rw [Bool.and_eq_true] at hValuePlain
    exact fieldEq_of_toJson items hItems item hItem other.2 t hValuePlain.2
      (hProper.2 other hOther) hJson hJson'

theorem itemsEq_of_toJson : ∀ (items others : List PyValue) (ts : List JsonTree),
    itemsPlain items = true → itemsPlain others = true → itemsProper others = true →
    itemsToJson rounds digits items = .ok ts → itemsToJson rounds digits others = .ok ts →
    itemsEq rounds items others = true
  | [], others, ts, _, _, _, h, h' => by
    cases h
    cases others with
    | nil => rfl
    | cons other others =>
      obtain ⟨_, _, -, -, hNil⟩ := itemsToJson_cons rounds digits h'
      cases hNil
  | item :: items, others, ts, hItems, hPlain, hProper, h, h' => by
    obtain ⟨t, rest, hItem, hRest, rfl⟩ := itemsToJson_cons rounds digits h
    cases others with
    | nil => cases h'
    | cons other others =>
      obtain ⟨_, _, hOther, hOthers, hCons⟩ := itemsToJson_cons rounds digits h'
      cases hCons
      rw [itemsPlain, Bool.and_eq_true] at hItems hPlain
      rw [itemsProper, Bool.and_eq_true] at hProper
      rw [itemsEq, eq_of_toJson item other t hItems.1 hPlain.1 hProper.1 hItem hOther,
        itemsEq_of_toJson items others rest hItems.2 hPlain.2 hProper.2 hRest hOthers]
      rfl

theorem fieldEq_of_toJson : ∀ (fields : List (PyKey × PyValue)), fieldsPlain fields = true →
    ∀ field ∈ fields, ∀ (w : PyValue) (t : JsonTree), w.plain = true → w.proper = true →
      field.2.toJson rounds digits = .ok t → w.toJson rounds digits = .ok t →
      field.2.eq rounds w = true
  | [], _, _, hField => by cases hField
  | (key, value) :: fields, hFields, field, hField => by
    rw [fieldsPlain, Bool.and_eq_true, Bool.and_eq_true] at hFields
    intro w t hPlain hProper h h'
    rcases mem_cons.mp hField with rfl | hRest
    · exact eq_of_toJson value w t hFields.1.2 hPlain hProper h h'
    · exact fieldEq_of_toJson fields hFields.2 field hRest w t hPlain hProper h h'

end

end

end StackOwl.Lib
