import StackOwl.Lib.PyJson

/-!
# Checkpoints of a ReAct loop

`serialize` and `deserialize`: a checkpoint as a JSON text and back, through pydantic's
`model_dump` and validation.  What json refuses with a `TypeError` becomes a
`ReActCheckpointDecodeError`; what it rewrites (a tuple, a key that is no string) it does
not refuse.

## Main results

* `checkpoint_exact_iff` — the checkpoints that are refused or come back as they were,
  and the texts that are read or refused.
-/

namespace StackOwl.Durable

open Lib Option Bool

def CHECKPOINT_SCHEMA_VERSION : Int := 1

/-- What the interpreter and pydantic fix. -/
structure CheckpointRuntime where
  /-- The number a float literal is rounded to. -/
  rounds : FloatLiteral → ℚ
  /-- How deep `model_dump` goes. -/
  dumpDepth : Nat
  /-- How deep `json.loads` goes, and the digits an integer may have. -/
  limits : Limits
  /-- The integer that pydantic makes of another value. -/
  coerceInt : PyValue → Option Int

/-- An entry of `messages` or of `tool_call_records`. -/
structure CheckpointRecord where
  items : List (PyKey × PyValue)
  proper : (PyValue.dict items).proper = true

structure ReActCheckpoint where
  schemaVersion : Int
  iteration : Int
  messages : List CheckpointRecord
  toolCallRecords : List CheckpointRecord
  one_le : 1 ≤ schemaVersion
  zero_le : 0 ≤ iteration

/-- What `serialize` and `deserialize` raise: `ReActCheckpointDecodeError`,
`CheckpointSchemaError`, the `ValueError` of an integer of too many digits, and what a
value nested too deep is answered with. -/
inductive CheckpointError where
  | decode
  | schema
  | digits
  | depth
  deriving DecidableEq

def recordList (records : List CheckpointRecord) : PyValue :=
  .list (records.map fun record => .dict record.items)

def SCHEMA_VERSION : Text := Text.ofString "schema_version"

def ITERATION : Text := Text.ofString "iteration"

def MESSAGES : Text := Text.ofString "messages"

def TOOL_CALL_RECORDS : Text := Text.ofString "tool_call_records"

def ReActCheckpoint.payload (cp : ReActCheckpoint) : PyValue :=
  .dict [(.str SCHEMA_VERSION, .int cp.schemaVersion), (.str ITERATION, .int cp.iteration),
    (.str MESSAGES, recordList cp.messages),
    (.str TOOL_CALL_RECORDS, recordList cp.toolCallRecords)]

/-! ## Serialising -/

section

variable (R : CheckpointRuntime) (cp : ReActCheckpoint)

/-- `cp.model_dump()`, which copies what it does not find nested too deep. -/
def modelDump : Except CheckpointError PyValue :=
  if cp.payload.within R.dumpDepth then .ok cp.payload else .error .depth

def serialize : Except CheckpointError Text := do
  let payload ← modelDump R cp
  match dumpsText R.rounds R.limits.digits payload with
  | .ok blob => .ok blob
  | .error .type => .error .decode
  | .error .digits => .error .digits

/-! ## Deserialising -/

def isNamed (name : Text) : PyKey → Bool
  | .str s => s == name
  | _ => false

def fieldOf (name : Text) : (items : List (PyKey × PyValue)) → fieldsProper items = true →
    Option { v : PyValue // v.proper = true }
  | [], _ => none
  | (key, value) :: items, h =>
    if isNamed name key then some ⟨value, (and_eq_true_iff.mp h).1⟩
    else fieldOf name items (and_eq_true_iff.mp h).2

def intOf : PyValue → Option Int
  | .int n => some n
  | .bool b => some b.toNat
  | v => R.coerceInt v

def recordOf : (v : PyValue) → v.proper = true → Option CheckpointRecord
  | .dict items, h => if items.all (fun item => item.1.isStr) then some ⟨items, h⟩ else none
  | _, _ => none

def recordItems : (items : List PyValue) → itemsProper items = true →
    Option (List CheckpointRecord)
  | [], _ => some []
  | item :: items, h => do
      let record ← recordOf item (and_eq_true_iff.mp h).1
      let records ← recordItems items (and_eq_true_iff.mp h).2
      some (record :: records)

/-- pydantic's `list[dict[str, Any]]`. -/
def recordsOf : (v : PyValue) → v.proper = true → Option (List CheckpointRecord)
  | .list items, h => recordItems items h
  | _, _ => none

def recordField (field : Option { v : PyValue // v.proper = true }) :
    Option (List CheckpointRecord) :=
  match field with
  | none => some []
  | some v => recordsOf v.1 v.2

def versionField (field : Option { v : PyValue // v.proper = true }) : Option Int :=
  match field with
  | none => some CHECKPOINT_SCHEMA_VERSION
  | some v => intOf R v.1

/-- `ReActCheckpoint(**raw)`; other keys are ignored. -/
def validate (items : List (PyKey × PyValue)) (h : fieldsProper items = true) :
    Option ReActCheckpoint := do
  let schemaVersion ← versionField R (fieldOf SCHEMA_VERSION items h)
  let iteration ← (fieldOf ITERATION items h).bind fun v => intOf R v.1
  let messages ← recordField (fieldOf MESSAGES items h)
  let toolCallRecords ← recordField (fieldOf TOOL_CALL_RECORDS items h)
  if hbounds : 1 ≤ schemaVersion ∧ 0 ≤ iteration then
    some ⟨schemaVersion, iteration, messages, toolCallRecords, hbounds.1, hbounds.2⟩
  else none

/-- The version gate: an `int`, which a truth value is too, of a known version. -/
def versionKnown (items : List (PyKey × PyValue)) (h : fieldsProper items = true) : Bool :=
  match (fieldOf SCHEMA_VERSION items h).map Subtype.val with
  | none => true
  | some (.int n) => n ≤ CHECKPOINT_SCHEMA_VERSION
  | some (.bool _) => true
  | some _ => false

def construct : (raw : PyValue) → raw.proper = true → Except CheckpointError ReActCheckpoint
  | .dict items, h =>
    have hitems := (and_eq_true_iff.mp h).2
    if versionKnown items hitems then
      match validate R items hitems with
      | some cp => .ok cp
      | none => .error .decode
    else .error .schema
  | _, _ => .error .decode

def deserialize (blob : Text) : Except CheckpointError ReActCheckpoint :=
  match loadTree R.limits blob with
  | .error .decode => .error .decode
  | .error .digits => .error .digits
  | .error .depth => .error .depth
  | .ok raw => construct R (ofJson raw) (proper_ofJson raw)

/-! ## Exact or refused -/

/-- `a == b` of two checkpoints. -/
def ReActCheckpoint.eq (a b : ReActCheckpoint) : Bool :=
  a.schemaVersion == b.schemaVersion && a.iteration == b.iteration &&
    (recordList a.messages).eq R.rounds (recordList b.messages) &&
    (recordList a.toolCallRecords).eq R.rounds (recordList b.toolCallRecords)

/-- The checkpoint is refused, or its text gives an equal one. -/
def ExactOrRefused : Prop :=
  serialize R cp = .error .decode ∨
    ∃ blob cp', serialize R cp = .ok blob ∧ deserialize R blob = .ok cp' ∧
      cp'.eq R cp = true

/-- The text gives a checkpoint of a known version, or is refused. -/
def ReadOrRefused (blob : Text) : Prop :=
  (∃ cp, deserialize R blob = .ok cp ∧ cp.schemaVersion ≤ CHECKPOINT_SCHEMA_VERSION) ∨
    deserialize R blob = .error .decode ∨ deserialize R blob = .error .schema

/-- The checkpoint nests no deeper than `model_dump` goes; and json refuses its payload
for a type, or writes it, and then it is of version 1, plain, and no deeper than
`json.loads` goes. -/
def Restorable : Prop :=
  cp.payload.within R.dumpDepth = true ∧
    (cp.payload.toJson R.rounds R.limits.digits = .error .type ∨
      (∃ t, cp.payload.toJson R.rounds R.limits.digits = .ok t) ∧
        cp.schemaVersion = CHECKPOINT_SCHEMA_VERSION ∧ cp.payload.plain = true ∧
        cp.payload.within R.limits.depth = true)

end

/-! ## What is read of what was written -/

theorem fieldOf_ofJson {fields : List (Text × JsonTree)}
    (hnodup : (fields.map Prod.fst).Nodup) {name : Text} {t : JsonTree}
    (hmem : (name, t) ∈ fields)
    (h : fieldsProper (fields.map fun field => (PyKey.str field.1, ofJson field.2)) = true) :
    fieldOf name (fields.map fun field => (.str field.1, ofJson field.2)) h =
      some ⟨ofJson t, proper_ofJson t⟩ := by
  induction fields with
  | nil => cases hmem
  | cons field fields ih =>
    rw [List.map_cons, List.nodup_cons] at hnodup
    simp only [List.map_cons, fieldOf]
    by_cases hname : field.1 = name
    · have hnamed : isNamed name (.str field.1) = true := beq_iff_eq.mpr hname
      rw [if_pos hnamed]
      rcases List.mem_cons.mp hmem with heq | hrest
      · subst heq
        rfl
      · have hkey : name ∈ fields.map Prod.fst := List.mem_map_of_mem hrest
        exact absurd (hname ▸ hkey) hnodup.1
    · have hnamed : ¬ isNamed name (.str field.1) = true := by
        rw [isNamed, beq_iff_eq]
        exact hname
      rw [if_neg hnamed]
      rcases List.mem_cons.mp hmem with heq | hrest
      · exact absurd (congrArg Prod.fst heq).symm hname
      · exact ih hnodup.2 hrest _

section

variable {R : CheckpointRuntime} {cp : ReActCheckpoint} {records : List CheckpointRecord}

theorem recordItems_ofJson {ts : List JsonTree}
    (hts : itemsToJson R.rounds R.limits.digits (records.map fun record => .dict record.items) =
      .ok ts)
    (h : itemsProper (itemsOfJson ts) = true) :
    ∃ read, recordItems (itemsOfJson ts) h = some read ∧
      (read.map fun record => PyValue.dict record.items) = itemsOfJson ts := by
  induction records generalizing ts with
  | nil =>
    cases hts
    exact ⟨[], rfl, rfl⟩
  | cons record records ih =>
    obtain ⟨t, rest, ht, hrest, rfl⟩ := itemsToJson_cons R.rounds R.limits.digits hts
    obtain ⟨-, fields, sorted, rfl, -, -⟩ := written_of_dict R.rounds R.limits.digits ht
    obtain ⟨read, hread, hmap⟩ := ih hrest (and_eq_true_iff.mp h).2
    have hstr : ((assignAll (fieldsOfJson sorted)).map
        fun field => (PyKey.str field.1, field.2)).all (fun item => item.1.isStr) =
        true := by
      rw [List.all_map, List.all_eq_true]
      exact fun _ _ => rfl
    refine ⟨⟨_, (and_eq_true_iff.mp h).1⟩ :: read, ?_, ?_⟩
    · simp only [itemsOfJson, recordItems, ofJson, recordOf, hstr, if_true, hread]
      rfl
    · rw [List.map_cons, hmap]
      rfl

variable {t : JsonTree}

theorem recordField_ofJson (h : (recordList records).toJson R.rounds R.limits.digits = .ok t) :
    ∃ read, recordField (some ⟨ofJson t, proper_ofJson t⟩) = some read ∧
      recordList read = ofJson t := by
  obtain ⟨ts, hts, rfl⟩ := ok_of_map h
  obtain ⟨read, hread, hmap⟩ := recordItems_ofJson hts (itemsProper_ofJson ts)
  exact ⟨read, hread, congrArg PyValue.list hmap⟩

theorem proper_recordList (records : List CheckpointRecord) :
    (recordList records).proper = true := by
  induction records with
  | nil => rfl
  | cons record records ih =>
    exact and_eq_true_iff.mpr ⟨record.proper, ih⟩

theorem written_payload (h : cp.payload.toJson R.rounds R.limits.digits = .ok t) :
    ∃ fields messages calls, t = .obj fields ∧ (fields.map Prod.fst).Nodup ∧
      (SCHEMA_VERSION, .int cp.schemaVersion) ∈ fields ∧
      (ITERATION, .int cp.iteration) ∈ fields ∧
      (MESSAGES, messages) ∈ fields ∧ (TOOL_CALL_RECORDS, calls) ∈ fields ∧
      (recordList cp.messages).toJson R.rounds R.limits.digits = .ok messages ∧
      (recordList cp.toolCallRecords).toJson R.rounds R.limits.digits = .ok calls := by
  have hint : ∀ {n : Int} {t : JsonTree},
      (PyValue.int n).toJson R.rounds R.limits.digits = .ok t → t = .int n := by
    intro n t hn
    rw [PyValue.toJson] at hn
    split at hn
    · exact (Except.ok.inj hn).symm
    · cases hn
  obtain ⟨-, fields, sorted, rfl, hwritten, hperm⟩ :=
    written_of_dict R.rounds R.limits.digits h
  have hnodup : (sorted.map Prod.fst).Nodup := by
    have hkeys := keys_of_written R.rounds R.limits.digits hwritten
      (by simp [PyKey.isStr])
    refine (hperm.map Prod.fst).nodup_iff.mp ?_
    rw [hkeys]
    exact (by decide : [SCHEMA_VERSION, ITERATION, MESSAGES, TOOL_CALL_RECORDS].Nodup)
  cases hwritten with
  | @cons _ version _ _ hversion hwritten =>
  cases hwritten with
  | @cons _ iteration _ _ hiteration hwritten =>
  cases hwritten with
  | @cons _ messages _ _ hmessages hwritten =>
  cases hwritten with
  | @cons _ calls _ _ hcalls hwritten =>
  cases hwritten
  have hfield : ∀ {name : Text} {v : PyValue} {field : Text × JsonTree},
      Written R.rounds R.limits.digits (.str name, v) field → field = (name, field.2) :=
    fun hw => Prod.ext (Except.ok.inj hw.1).symm rfl
  refine ⟨sorted, messages.2, calls.2, rfl, hnodup, ?_, ?_, ?_, ?_, hmessages.2, hcalls.2⟩
  · rw [← hint hversion.2, ← hfield hversion]
    exact hperm.mem_iff.mp (by simp)
  · rw [← hint hiteration.2, ← hfield hiteration]
    exact hperm.mem_iff.mp (by simp)
  · rw [← hfield hmessages]
    exact hperm.mem_iff.mp (by simp)
  · rw [← hfield hcalls]
    exact hperm.mem_iff.mp (by simp)

theorem construct_congr {v w : PyValue} (h : v = w) (hv : v.proper = true)
    (hw : w.proper = true) : construct R v hv = construct R w hw := by
  subst h
  rfl

/-- The checkpoint that is made of what was written: one of version 1 is read again, and
equals the other where its parts do. -/
theorem construct_payload (h : cp.payload.toJson R.rounds R.limits.digits = .ok t) :
    (cp.schemaVersion ≠ CHECKPOINT_SCHEMA_VERSION →
      construct R (ofJson t) (proper_ofJson t) = .error .schema) ∧
    (cp.schemaVersion = CHECKPOINT_SCHEMA_VERSION →
      ∃ cp', construct R (ofJson t) (proper_ofJson t) = .ok cp' ∧
        cp'.eq R cp = cp.payload.plain) := by
  obtain ⟨fields, messages, calls, rfl, hnodup, hversion, hiteration, hmessages, hcalls,
    hwrittenMessages, hwrittenCalls⟩ := written_payload h
  have hobj := ofJson_obj hnodup
  have hproper := hobj ▸ proper_ofJson (.obj fields)
  rw [construct_congr hobj (proper_ofJson _) hproper]
  have hitems := (and_eq_true_iff.mp hproper).2
  have hfieldVersion := fieldOf_ofJson hnodup hversion hitems
  have hfieldIteration := fieldOf_ofJson hnodup hiteration hitems
  have hfieldMessages := fieldOf_ofJson hnodup hmessages hitems
  have hfieldCalls := fieldOf_ofJson hnodup hcalls hitems
  have hknown : versionKnown
      (fields.map fun field => (PyKey.str field.1, ofJson field.2)) hitems =
      decide (cp.schemaVersion ≤ CHECKPOINT_SCHEMA_VERSION) := by
    rw [versionKnown, hfieldVersion]
    rfl
  have hone : (1 : Int) ≤ cp.schemaVersion := cp.one_le
  constructor
  · intro hne
    have hnew : ¬ cp.schemaVersion ≤ CHECKPOINT_SCHEMA_VERSION := by
      rw [CHECKPOINT_SCHEMA_VERSION] at hne ⊢
      omega
    rw [construct]
    simp only [hknown, hnew, decide_false, false_eq_true, if_false]
  · intro heq
    obtain ⟨readMessages, hreadMessages, hlistMessages⟩ :=
      recordField_ofJson hwrittenMessages
    obtain ⟨readCalls, hreadCalls, hlistCalls⟩ := recordField_ofJson hwrittenCalls
    have hvalid : validate R
        (fields.map fun field => (PyKey.str field.1, ofJson field.2)) hitems =
        some ⟨cp.schemaVersion, cp.iteration, readMessages, readCalls, cp.one_le, cp.zero_le⟩ := by
      rw [validate, hfieldVersion, hfieldIteration, hfieldMessages, hfieldCalls,
        hreadMessages, hreadCalls]
      simp [ofJson, versionField, intOf, cp.one_le, cp.zero_le]
    refine ⟨⟨cp.schemaVersion, cp.iteration, readMessages, readCalls, cp.one_le,
      cp.zero_le⟩, ?_, ?_⟩
    · rw [construct]
      simp only [hknown, heq, le_refl, decide_true, if_true, hvalid]
    · have heqMessages := eq_ofJson R.rounds R.limits.digits _ _
        (proper_recordList cp.messages) hwrittenMessages
      have heqCalls := eq_ofJson R.rounds R.limits.digits _ _
        (proper_recordList cp.toolCallRecords) hwrittenCalls
      rw [ReActCheckpoint.eq, hlistMessages, hlistCalls, heqMessages, heqCalls]
      simp [ReActCheckpoint.payload, PyValue.plain, fieldsPlain, PyKey.isStr]

theorem exactOrRefused_of_written {blob : Text} (h : serialize R cp = .ok blob) :
    ExactOrRefused R cp ↔
      ∃ cp', deserialize R blob = .ok cp' ∧ cp'.eq R cp = true := by
  constructor
  · rintro (hrefused | ⟨blob', cp', hblob, hread⟩)
    · rw [h] at hrefused
      cases hrefused
    · obtain rfl := Except.ok.inj (h.symm.trans hblob)
      exact ⟨cp', hread⟩
  · rintro ⟨cp', hread⟩
    exact .inr ⟨blob, cp', h, hread⟩

theorem not_exactOrRefused_of_error {e : CheckpointError} (h : serialize R cp = .error e)
    (hother : e ≠ .decode) : ¬ ExactOrRefused R cp := by
  rintro (hrefused | ⟨blob, cp', hblob, -⟩)
  · exact hother (Except.error.inj (h.symm.trans hrefused))
  · rw [h] at hblob
    cases hblob

theorem exactOrRefused_iff (R : CheckpointRuntime) (cp : ReActCheckpoint) :
    ExactOrRefused R cp ↔ Restorable R cp := by
  by_cases hdepth : cp.payload.within R.dumpDepth = true
  · have hdump : modelDump R cp = .ok cp.payload := by rw [modelDump, if_pos hdepth]
    cases hjson : cp.payload.toJson R.rounds R.limits.digits with
    | error e =>
      have hwrite : dumpsText R.rounds R.limits.digits cp.payload = .error e := by
        rw [dumpsText, hjson]
        rfl
      cases e with
      | type =>
        have hserialize : serialize R cp = .error .decode := by
          simp [serialize, hdump, hwrite, bind, Except.bind]
        exact iff_of_true (.inl hserialize) ⟨hdepth, .inl hjson⟩
      | digits =>
        have hserialize : serialize R cp = .error .digits := by
          simp [serialize, hdump, hwrite, bind, Except.bind]
        refine iff_of_false (not_exactOrRefused_of_error hserialize (by decide)) ?_
        rintro ⟨-, hrefused | ⟨⟨t, ht⟩, -⟩⟩
        · rw [hjson] at hrefused
          cases hrefused
        · rw [hjson] at ht
          cases ht
    | ok t =>
      have hwrite : dumpsText R.rounds R.limits.digits cp.payload = .ok t.print := by
        rw [dumpsText, hjson]
        rfl
      have hserialize : serialize R cp = .ok t.print := by
        simp [serialize, hdump, hwrite, bind, Except.bind]
      have hload := loads_print (fits_toJson R.rounds R.limits.digits _ t hjson)
      rw [within_toJson R.rounds R.limits.digits _ t R.limits.depth hjson] at hload
      obtain ⟨hnew, hknown⟩ := construct_payload hjson
      have hrestorable : Restorable R cp ↔
          cp.schemaVersion = CHECKPOINT_SCHEMA_VERSION ∧ cp.payload.plain = true ∧
            cp.payload.within R.limits.depth = true := by
        simp [Restorable, hdepth, hjson]
      rw [exactOrRefused_of_written hserialize, hrestorable]
      cases hwithin : cp.payload.within R.limits.depth with
      | false =>
        have hread : deserialize R t.print = .error .depth := by
          rw [deserialize, hload, hwithin]
          rfl
        simp [hread]
      | true =>
        have hread : deserialize R t.print =
            construct R (ofJson t) (proper_ofJson t) := by
          rw [deserialize, hload, hwithin]
          rfl
        by_cases hversion : cp.schemaVersion = CHECKPOINT_SCHEMA_VERSION
        · obtain ⟨cp', hconstruct, heq⟩ := hknown hversion
          rw [hread, hconstruct]
          simp [hversion, heq]
        · rw [hread, hnew hversion]
          simp [hversion]
  · have hserialize : serialize R cp = .error .depth := by
      simp [serialize, modelDump, hdepth, bind, Except.bind]
    exact iff_of_false (not_exactOrRefused_of_error hserialize (by decide)) fun h => hdepth h.1

end

variable {items : List (PyKey × PyValue)}

theorem version_of_validate {R : CheckpointRuntime} {h : fieldsProper items = true}
    {cp : ReActCheckpoint} (hvalid : validate R items h = some cp) :
    versionField R (fieldOf SCHEMA_VERSION items h) = some cp.schemaVersion := by
  rw [validate] at hvalid
  obtain ⟨version, hversion, hvalid⟩ := bind_eq_some_iff.mp hvalid
  obtain ⟨iteration, -, hvalid⟩ := bind_eq_some_iff.mp hvalid
  obtain ⟨messages, -, hvalid⟩ := bind_eq_some_iff.mp hvalid
  obtain ⟨calls, -, hvalid⟩ := bind_eq_some_iff.mp hvalid
  split at hvalid
  · cases hvalid
    exact hversion
  · cases hvalid

theorem version_le_of_known {R : CheckpointRuntime} {h : fieldsProper items = true}
    {cp : ReActCheckpoint} (hknown : versionKnown items h = true)
    (hvalid : validate R items h = some cp) :
    cp.schemaVersion ≤ CHECKPOINT_SCHEMA_VERSION := by
  have hversion := version_of_validate hvalid
  rw [versionKnown] at hknown
  cases hfield : fieldOf SCHEMA_VERSION items h with
  | none =>
    rw [hfield] at hversion
    exact le_of_eq (some.inj hversion).symm
  | some v =>
    obtain ⟨v, hv⟩ := v
    rw [hfield] at hversion hknown
    cases v with
    | int n =>
      obtain rfl : n = cp.schemaVersion := some.inj hversion
      exact of_decide_eq_true hknown
    | bool b =>
      rw [← some.inj hversion]
      cases b <;> decide
    | none | float _ | str _ | list _ | tuple _ | dict _ => cases hknown

theorem construct_cases (R : CheckpointRuntime) (raw : PyValue) (h : raw.proper = true) :
    (∃ cp, construct R raw h = .ok cp ∧ cp.schemaVersion ≤ CHECKPOINT_SCHEMA_VERSION) ∨
      construct R raw h = .error .decode ∨ construct R raw h = .error .schema := by
  cases raw with
  | dict items =>
    have hitems := (and_eq_true_iff.mp h).2
    rw [construct]
    by_cases hknown : versionKnown items hitems = true
    · rw [if_pos hknown]
      cases hvalid : validate R items hitems with
      | none => exact .inr (.inl rfl)
      | some cp => exact .inl ⟨cp, rfl, version_le_of_known hknown hvalid⟩
    · rw [if_neg hknown]
      exact .inr (.inr rfl)
  | none | bool _ | int _ | float _ | str _ | list _ | tuple _ =>
    exact .inr (.inl rfl)

theorem readOrRefused_iff (R : CheckpointRuntime) (blob : Text) :
    ReadOrRefused R blob ↔ ∀ e, loadsText R.limits blob = .error e → e = .decode := by
  rw [ReadOrRefused, deserialize, loadsText]
  cases hload : loadTree R.limits blob with
  | ok raw =>
    refine iff_of_true (construct_cases R (ofJson raw) (proper_ofJson raw)) ?_
    rintro e ⟨⟩
  | error e =>
    have herror : ∀ e' : LoadError,
        (Except.error e : Except LoadError JsonTree).map ofJson = .error e' ↔ e = e' := by
      intro e'
      exact ⟨fun h => Except.error.inj h, fun h => congrArg Except.error h⟩
    simp only [herror, forall_eq']
    cases e <;> simp

/-- **Exact or refused.**  A checkpoint is refused or comes back as it was exactly where
`model_dump` does not find it nested too deep and json refuses its payload with a
`TypeError`, or writes it and the checkpoint is of version 1, has no tuple, no key that is
no string and no `NaN` of its own, and nests no deeper than `json.loads` goes.  A text is
read or refused exactly where `json.loads` reads it or finds no JSON in it. -/
theorem checkpoint_exact_iff (R : CheckpointRuntime) :
    (∀ cp, ExactOrRefused R cp ↔ Restorable R cp) ∧
      ∀ blob, ReadOrRefused R blob ↔
        ∀ e, loadsText R.limits blob = .error e → e = .decode :=
  ⟨exactOrRefused_iff R, readOrRefused_iff R⟩

def usualRuntime : CheckpointRuntime where
  rounds _ := 0
  dumpDepth := 255
  limits := ⟨990, 4300⟩
  coerceInt _ := none

def tupleCheckpoint : ReActCheckpoint where
  schemaVersion := 1
  iteration := 0
  messages := [⟨[(.str (Text.ofString "content"), .tuple [.int 1])], by decide⟩]
  toolCallRecords := []
  one_le := by decide
  zero_le := by decide

/-- **Rewritten.**  The tuple is written, and comes back as a list. -/
theorem tuple_rewritten : ¬ ExactOrRefused usualRuntime tupleCheckpoint := by
  rw [exactOrRefused_iff]
  rintro ⟨-, hrefused | ⟨-, -, hplain, -⟩⟩
  · have hwritten : (tupleCheckpoint.payload.toJson usualRuntime.rounds
        usualRuntime.limits.digits).isOk = true := by decide +kernel
    rw [hrefused] at hwritten
    cases hwritten
  · cases hplain

end StackOwl.Durable
