import StackOwl.Lib.Table

/-!
# The journal and its needs-you items

`journal.recorder.record` inserts a row of `journal_events`; a type that needs the owner
opens an item of `needs_you` in the same transaction, and a type that `resolves` others
closes theirs.  `resolve` and `_expire_item` close an item from outside.  Every
function runs on its caller's transaction: `none` is an exception, on which that
transaction is rolled back.

Ids are drawn from `ids`, one after the other; `UNIQUE` and `PRIMARY KEY` refuse one that
was drawn before.  An id is a UUID text, which no secret shape matches, so the leak
guard is not applied to the `item_id` of an event's attrs.
-/

namespace StackOwl.Journal

open Lib

/-! ## Vocabularies -/

inductive ActorKind where
  | owner | device | voiceWorker | autonomous | owl

def ActorKind.value : ActorKind → String
  | .owner => "owner"
  | .device => "device"
  | .voiceWorker => "voice_worker"
  | .autonomous => "autonomous"
  | .owl => "owl"

inductive NeedsYouKind where
  | approval | question | incident | alert | device

def NeedsYouKind.value : NeedsYouKind → String
  | .approval => "approval"
  | .question => "question"
  | .incident => "incident"
  | .alert => "alert"
  | .device => "device"

inductive Outcome where
  | ok | failed | healed | parked | pending | deadLettered | expired

inductive AttentionClass where
  | ambient | needsYou
  deriving DecidableEq

inductive Intensity where
  | normal | high

/-! ## Events and their registry -/

/-- `attrs`: the models of the two types of this package, and any other one by its
name and its string fields. -/
inductive Attrs where
  | needsYouOpened (itemId : String) (kind : NeedsYouKind) (intensity : Intensity)
  | needsYouResolved (itemId : String) (kind : NeedsYouKind) (resolvedBy : String)
  | other (model : String) (fields : List (String × String))

/-- The name of the model an `attrs` value is an instance of. -/
def Attrs.model : Attrs → String
  | .needsYouOpened .. => "NeedsYouOpenedAttrs"
  | .needsYouResolved .. => "NeedsYouResolvedAttrs"
  | .other model _ => model

/-- `scan_attrs`. -/
def Attrs.scan (redact : String → String) : Attrs → Attrs
  | .needsYouOpened itemId kind intensity => .needsYouOpened itemId kind intensity
  | .needsYouResolved itemId kind resolvedBy =>
    .needsYouResolved itemId kind (redact resolvedBy)
  | .other model fields => .other model (fields.map fun f => (f.1, redact f.2))

/-- The item an event is the `needs_you.resolved` of. -/
def Attrs.resolvedItem : Attrs → Option String
  | .needsYouResolved itemId _ _ => some itemId
  | _ => none

@[simp] theorem Attrs.resolvedItem_scan (redact : String → String) (a : Attrs) :
    (a.scan redact).resolvedItem = a.resolvedItem := by
  cases a <;> rfl

structure RecordRef where
  kind : String
  locator : List (String × String)

/-- `_scan_record_ref`, before it is rendered. -/
def RecordRef.scan (redact : String → String) (ref : RecordRef) : RecordRef :=
  { ref with locator := ref.locator.map fun f => (f.1, redact f.2) }

/-- What an emitter hands to `record`. -/
structure JournalEvent where
  type : String
  actorKind : ActorKind
  actorId : String
  targetKind : ActorKind
  targetId : String
  outcome : Outcome
  attention : Option String := none
  intensity : Option String := none
  recordRef : Option RecordRef := none
  attrs : Attrs

/-- One declared event type; `__post_init__` refuses one whose attention does not agree
with its intensity and its needs-you kind. -/
structure EventTypeSpec where
  attrsModel : String
  attentionClass : AttentionClass
  intensity : Option Intensity := none
  needsYouKind : Option NeedsYouKind := none
  resolves : List String := []
  intensity_iff : intensity.isSome ↔ attentionClass = .needsYou := by decide
  kind_iff : needsYouKind.isSome ↔ attentionClass = .needsYou := by decide

def NEEDS_YOU_OPENED : String := "needs_you.opened"
def NEEDS_YOU_RESOLVED : String := "needs_you.resolved"

/-- The declaration of `needs_you.opened`. -/
def openedSpec : EventTypeSpec where
  attrsModel := "NeedsYouOpenedAttrs"
  attentionClass := .ambient

/-- The declaration of `needs_you.resolved`. -/
def resolvedSpec : EventTypeSpec where
  attrsModel := "NeedsYouResolvedAttrs"
  attentionClass := .ambient

/-- `EventRegistry`: what every module declared, this package's two types among it.  The
model of `needs_you.resolved` is declared for no other type. -/
structure EventRegistry where
  get : String → Option EventTypeSpec
  opened : get NEEDS_YOU_OPENED = some openedSpec
  resolved : get NEEDS_YOU_RESOLVED = some resolvedSpec
  only_resolved : ∀ type spec, get type = some spec →
    spec.attrsModel = resolvedSpec.attrsModel → type = NEEDS_YOU_RESOLVED

/-- What the functions below call: the registry, `redact_secret_shapes`, the rendering
of a `record_ref`, and `sha256` with its `hexdigest`. -/
structure Env where
  registry : EventRegistry
  redact : String → String
  dumpJson : RecordRef → String
  sha256 : String → String

/-! ## The tables -/

structure JournalRow where
  cursor : Nat
  eventId : String
  type : String
  actorKind : ActorKind
  actorId : String
  targetKind : ActorKind
  targetId : String
  outcome : Outcome
  attention : AttentionClass
  intensity : Option Intensity
  recordRef : Option String
  attrs : Attrs

structure NeedsYouItem where
  id : String
  kind : NeedsYouKind
  intensity : Intensity
  recordRef : Option String
  dedupeKey : String
  waiterKind : Option String := none
  waiterId : Option String := none
  expiresAt : Option String := none
  version : Nat
  openedCursor : Nat
  resolvedCursor : Option Nat := none
  answer : Option String := none
  resolvedBy : Option String := none

variable (r : NeedsYouItem)

/-- `resolved_cursor IS NULL`. -/
def NeedsYouItem.isOpen : Bool := r.resolvedCursor.isNone

/-- The primary key of `needs_you`. -/
def NeedsYouItem.primaryKey : Option (String ⊕ String) := some (.inl r.id)

/-- The partial unique index on `dedupe_key`. -/
def NeedsYouItem.openKey : Option (String ⊕ String) :=
  if r.isOpen then some (.inr r.dedupeKey) else none

/-- `journal_events` with its `sqlite_sequence`, and `needs_you`. -/
structure JournalDb where
  seq : Nat
  events : Table JournalRow String [fun e => some e.eventId]
  items : Table NeedsYouItem (String ⊕ String)
    [NeedsYouItem.primaryKey, NeedsYouItem.openKey]

def JournalDb.empty : JournalDb where
  seq := 0
  events := ⟨[], by simp⟩
  items := ⟨[], by simp⟩

/-- `UPDATE needs_you SET set WHERE guard RETURNING *`. -/
def JournalDb.update (guard : NeedsYouItem → Bool) (set : NeedsYouItem → NeedsYouItem)
    (s : JournalDb) : Option (Option NeedsYouItem × JournalDb) :=
  (s.items.updateWhere guard set).map fun items =>
    ((s.items.find? guard).map set, { s with items := items })

/-- The one `INSERT` of `record`; the row's cursor is drawn from the sequence. -/
def JournalDb.insertEvent (row : Nat → JournalRow) (s : JournalDb) :
    Option (Nat × JournalDb) :=
  (s.events.insert (row (s.seq + 1))).map fun events =>
    (s.seq + 1, { s with seq := s.seq + 1, events := events })

def JournalDb.journalCursorForEventId (eventId : String) (s : JournalDb) : Option Nat :=
  (s.events.find? fun e => e.eventId == eventId).map JournalRow.cursor

/-! ## Opening and closing an item -/

def MAX_LABEL_LEN : Nat := 64

/-- `label[:_MAX_LABEL_LEN]`. -/
def truncated (label : String) : String := String.ofList (label.toList.take MAX_LABEL_LEN)

def dedupeKey (kind targetKind targetId : String) : String :=
  kind ++ ":" ++ targetKind ++ ":" ++ targetId

variable (itemId : String)

/-- `open_item`; `none` inside is the no-op on a duplicate. -/
def openItem (kind : NeedsYouKind) (intensity : Intensity) (key : String)
    (recordRef : Option String) (openedCursor : Nat) (s : JournalDb) :
    Option (Option String × JournalDb) :=
  -- ON CONFLICT(dedupe_key) WHERE resolved_cursor IS NULL DO NOTHING
  if (s.items.find? fun r => r.isOpen && r.dedupeKey == key).isSome then
    some (none, s)
  else
    (s.items.insert
      { id := itemId, kind := kind, intensity := intensity, recordRef := recordRef,
        dedupeKey := key, version := 1, openedCursor := openedCursor }).map fun items =>
      (some itemId, { s with items := items })

def resolveOpenItem (key : String) (resolvedCursor : Nat) (resolvedBy : String)
    (s : JournalDb) : Option (Option NeedsYouItem × JournalDb) :=
  s.update (fun r => r.isOpen && r.dedupeKey == key) fun r =>
    { r with resolvedCursor := some resolvedCursor,
             resolvedBy := some (truncated resolvedBy) }

variable (env : Env)

def bindWaiter (kind : NeedsYouKind) (targetKind : ActorKind)
    (targetId waiterKind waiterId : String) (expiresAt : Option String) (s : JournalDb) :
    Option (Option NeedsYouItem × JournalDb) :=
  let key := dedupeKey kind.value targetKind.value (env.redact targetId)
  s.update (fun r => r.isOpen && r.dedupeKey == key) fun r =>
    { r with waiterKind := some waiterKind, waiterId := some waiterId,
             expiresAt := expiresAt }

/-! ## `record` -/

def itemRef : RecordRef :=
  ⟨"sqlite", [("table", "needs_you"), ("id", itemId)]⟩

/-- A call of `record`: the event ids it draws, and the event. -/
abbrev Record := (Nat → String) → JournalEvent → JournalDb → Option (String × JournalDb)

variable (writesPaused : Bool)

def insertRecord (eventId : String) (event : JournalEvent) (s : JournalDb)
    : Option (EventTypeSpec × Nat × JournalDb) := do
  if writesPaused then none
  let spec ← env.registry.get event.type
  if event.attrs.model ≠ spec.attrsModel then none
  if event.attention.isSome || event.intensity.isSome then none
  let (cursor, s) ← s.insertEvent fun cursor =>
    { cursor := cursor, eventId := eventId, type := event.type,
      actorKind := event.actorKind, actorId := env.redact event.actorId,
      targetKind := event.targetKind, targetId := env.redact event.targetId,
      outcome := event.outcome, attention := spec.attentionClass,
      intensity := spec.intensity,
      recordRef := event.recordRef.map fun ref => env.dumpJson (ref.scan env.redact),
      attrs := event.attrs.scan env.redact }
  some (spec, cursor, s)

variable (ids : Nat → String)

/-- The item a needs-you event opens, with its `needs_you.opened`. -/
def openFor (nested : Record) (ids : Nat → String) (event : JournalEvent) (kind : NeedsYouKind)
    (intensity : Intensity) (cursor : Nat) (s : JournalDb) :
    Option JournalDb := do
  let key := dedupeKey kind.value event.targetKind.value (env.redact event.targetId)
  let ref := event.recordRef.map fun ref => env.dumpJson (ref.scan env.redact)
  let (opened, s) ← openItem (ids 0) kind intensity key ref cursor s
  match opened with
  | none => some s
  | some itemId =>
    let (_, s) ← nested (fun n => ids (n + 1))
      { type := NEEDS_YOU_OPENED, actorKind := event.actorKind,
        actorId := event.actorId, targetKind := event.targetKind,
        targetId := event.targetId, outcome := .ok, recordRef := some (itemRef itemId),
        attrs := .needsYouOpened itemId kind intensity } s
    some s

/-- The items a resolving event closes, one opening type after the other, each with its
`needs_you.resolved`. -/
def closeFor (env : Env) (nested : Record) (event : JournalEvent) (cursor : Nat) :
    List String → (Nat → String) → JournalDb → Option JournalDb
  | [], _, s => some s
  | openingType :: rest, ids, s => do
      let openingSpec ← env.registry.get openingType
      match openingSpec.needsYouKind with
      | none => closeFor env nested event cursor rest ids s
      | some kind =>
        let key := dedupeKey kind.value event.targetKind.value (env.redact event.targetId)
        let resolvedBy := truncated ("system:" ++ event.type)
        let (resolved, s) ← resolveOpenItem key cursor resolvedBy s
        match resolved with
        | none => closeFor env nested event cursor rest ids s
        | some item =>
          let (_, s) ← nested ids
            { type := NEEDS_YOU_RESOLVED, actorKind := event.actorKind,
              actorId := event.actorId, targetKind := event.targetKind,
              targetId := event.targetId, outcome := .ok,
              recordRef := some (itemRef item.id),
              attrs := .needsYouResolved item.id kind resolvedBy } s
          closeFor env nested event cursor rest (fun n => ids (n + 1)) s

/-- The opening half of `record`'s wiring: `__post_init__` gives a type a kind and an
intensity together, where it needs the owner. -/
def openNeeded (nested : Record) (ids : Nat → String) (event : JournalEvent) (spec : EventTypeSpec)
    (cursor : Nat) (s : JournalDb) : Option JournalDb :=
  match spec.needsYouKind, spec.intensity with
  | some kind, some intensity => openFor env nested ids event kind intensity cursor s
  | _, _ => some s

/-- The body of `record`, over the call it makes of itself; `writesPaused` is what is
left of the write gate after `bypass_write_gate`. -/
def recordBody (nested : Record) : Record :=
  fun ids event s => do
    let (spec, cursor, s) ← insertRecord env writesPaused (ids 0) event s
    let s ← openNeeded env nested (fun n => ids (n + 1)) event spec cursor s
    let s ← closeFor env nested event cursor spec.resolves (fun n => ids (n + 3)) s
    some (ids 0, s)

/-- `record`.  It calls itself for the package's own two types alone, which need no
owner and resolve nothing, so the inner call makes none. -/
def record : Record :=
  recordBody env writesPaused (recordBody env writesPaused fun _ _ _ => none)

/-! ## `resolve` and `_expire_item` -/

inductive Resolution where
  | resolved | expired | refused
  deriving DecidableEq

structure NeedsYouResolution where
  itemId : String
  outcome : Resolution
  answer : Option String
  version : Nat
  kind : NeedsYouKind
  waiterKind : Option String
  waiterId : Option String

def NeedsYouItem.report (outcome : Resolution) (answer : Option String) :
    NeedsYouResolution :=
  { itemId := r.id, outcome := outcome, answer := answer, version := r.version,
    kind := r.kind, waiterKind := r.waiterKind, waiterId := r.waiterId }

/-- The outcome of a settled row: only an answer sets `answer`. -/
def NeedsYouItem.settledReport : NeedsYouResolution :=
  r.report (if r.answer.isSome then .resolved else .expired) r.answer

def computeItemDigest (kind : NeedsYouKind) (recordRef : Option String) (version : Nat) : String :=
  String.ofList ((env.sha256
    (kind.value ++ ":" ++ recordRef.getD "" ++ ":" ++ toString version)).toList.take 16)

def rereadSettledOrRefused (s : JournalDb) :
    Option (NeedsYouResolution × JournalDb) :=
  (s.items.find? fun r => r.id == itemId).map fun r =>
    (if r.resolvedCursor.isSome then r.settledReport else r.report .refused none, s)

def CLAIM_SENTINEL : Nat := 0

/-- The winner's `needs_you.resolved`, and the cursor put in the sentinel's place. -/
def fixUp (item : NeedsYouItem) (actorKind : ActorKind) (outcome : Outcome) (resolvedBy : String)
    (s : JournalDb) :
    Option JournalDb := do
  let (eventId, s) ← record env writesPaused ids
    { type := NEEDS_YOU_RESOLVED, actorKind := actorKind, actorId := resolvedBy,
      targetKind := .owner, targetId := item.id, outcome := outcome,
      recordRef := some (itemRef item.id),
      attrs := .needsYouResolved item.id item.kind resolvedBy } s
  let cursor ← s.journalCursorForEventId eventId
  let (_, s) ← s.update (fun r => r.id == item.id) fun r =>
    { r with resolvedCursor := some cursor }
  some s

def EXPIRY_RESOLVED_BY : String := "system:needs_you_expiry_sweep"

def expireItem (itemId resolvedBy : String) (s : JournalDb) :
    Option (NeedsYouResolution × JournalDb) := do
  let resolvedBy := truncated resolvedBy
  let (claimed, claimedDb) ← s.update (fun r => r.id == itemId && r.isOpen) fun r =>
    { r with resolvedCursor := some CLAIM_SENTINEL, resolvedBy := some resolvedBy }
  match claimed with
  | none => rereadSettledOrRefused itemId claimedDb
  | some item =>
    let s ← fixUp env writesPaused ids item .autonomous .expired resolvedBy claimedDb
    some (item.report .expired none, s)

def resolve (itemId answer resolvedBy : String) (expectedVersion : Option Nat)
    (expectedDigest : Option String) (now : String) (s : JournalDb) :
    Option (NeedsYouResolution × JournalDb) := do
  let resolvedBy := truncated resolvedBy
  let row ← s.items.find? fun r => r.id == itemId
  if row.resolvedCursor.isSome then
    some (row.settledReport, s)
  else if row.expiresAt.any (· ≤ now) then
    -- expiry wins over anything the caller submitted
    expireItem env writesPaused ids itemId EXPIRY_RESOLVED_BY s
  else if expectedVersion.any (· ≠ row.version) then
    some (row.report .refused none, s)
  else if expectedDigest.any (· ≠ computeItemDigest env row.kind row.recordRef row.version)
  then
    some (row.report .refused none, s)
  else
    let redacted := env.redact answer
    let (claimed, claimedDb) ← s.update
      (fun r => r.id == itemId && r.isOpen && r.version == row.version) fun r =>
        { r with resolvedCursor := some CLAIM_SENTINEL, answer := some redacted,
                 resolvedBy := some resolvedBy }
    match claimed with
    | none => rereadSettledOrRefused itemId claimedDb
    | some _ =>
      let s ← fixUp env writesPaused ids row .owner .ok resolvedBy claimedDb
      some (row.report .resolved (some redacted), s)

/-! ## The transactions -/

/-- A transaction of a caller.  A pass of the expiry sweep is one `expireItem` for each item
it found, each in a transaction of its own; so are the items that are abandoned or
stranded by a restart. -/
inductive NeedsYouOp where
  /-- An event of a type that is not this package's own. -/
  | record (event : JournalEvent) (domain : event.type ≠ NEEDS_YOU_RESOLVED)
  | bindWaiter (kind : NeedsYouKind) (targetKind : ActorKind)
      (targetId waiterKind waiterId : String) (expiresAt : Option String)
  | resolve (itemId answer resolvedBy : String) (expectedVersion : Option Nat)
      (expectedDigest : Option String) (now : String)
  | expireItem (itemId resolvedBy : String)

/-- A transaction, with what it meets: the write gate and the ids it draws. -/
structure Transaction where
  op : NeedsYouOp
  writesPaused : Bool
  ids : Nat → String

def Transaction.body (t : Transaction) (s : JournalDb) : Option JournalDb :=
  match t.op with
  | .record event _ => (record env t.writesPaused t.ids event s).map Prod.snd
  | .bindWaiter kind targetKind targetId waiterKind waiterId expiresAt =>
    (bindWaiter env kind targetKind targetId waiterKind waiterId expiresAt s).map
      Prod.snd
  | .resolve itemId answer resolvedBy expectedVersion expectedDigest now =>
    (resolve env t.writesPaused t.ids itemId answer resolvedBy expectedVersion
      expectedDigest now s).map Prod.snd
  | .expireItem itemId resolvedBy =>
    (expireItem env t.writesPaused t.ids itemId resolvedBy s).map Prod.snd

def journalStep (s : JournalDb) (t : Transaction) : JournalDb :=
  (t.body env s).getD s

end StackOwl.Journal
