import StackOwl.Ipc.Payload

/-!
# Wire frames

The frames of the gateway's link to the core (`ipc/frames.py`): frozen models with a
string `type`, which forbid keys they do not declare.  Each frame lists its fields in
the order of the source, under the names they have on the wire and with their defaults;
the union goes by `type`.

## Main results

* `Frame.exact` — exactly the frames that are carried are validated from what they are
  serialised as.
-/

namespace StackOwl.Ipc

open Lib

structure Pydantic (F O : Type) extends JsonLayer F O where
  lawful : toJsonLayer.Lawful

variable {F O : Type} (P : Pydantic F O)

/-! ## Types of fields -/

/-- `int`. -/
def intField : Codec Int := Codec.int P.coerceInt

/-- `bool`. -/
def boolField : Codec Bool := Codec.bool P.coerceBool

/-- `str`. -/
def strField : Codec Text := Codec.text

/-- `str | None`. -/
def optStrField : Codec (Option Text) := strField.option rfl

/-- `int | None`. -/
def optIntField : Codec (Option Int) := (intField P).option rfl

/-- `float`; infinities and NaN are serialised as `null`. -/
def floatField : Codec F where
  dump x := some (if P.finite x then .float (P.printFloat x) else .null)
  load
    | .null => none
    | .float x => some (P.readFloat x)
    | v => P.coerceFloat v
  Carries _ _ x := P.finite x = true
  readable {x v} h := by
    cases h
    split
    · rename_i hfinite
      exact P.lawful.literal x hfinite
    · trivial
  exact digits depth x := by
    constructor
    · intro h
      refine ⟨.float (P.printFloat x), by rw [if_pos h], rfl, ?_⟩
      exact congrArg some (P.lawful.readFloat_printFloat x h)
    · rintro ⟨v, hv, -, h⟩
      by_contra hfinite
      rw [if_neg hfinite] at hv
      cases hv
      cases h

/-- `float | None`. -/
def optFloatField : Codec (Option F) := (floatField P).option rfl

/-- `int | str`. -/
def targetField : Codec Target where
  dump
    | .int n => some (.int n)
    | .str s => s.string?.map .str
  load
    | .null => none
    | .int n => some (.int n)
    | .str s => some (.str (Text.ofString s))
    | v => P.coerceTarget v
  Carries digits _
    | .int n => intWithin digits n = true
    | .str s => s.Scalar
  readable {x v} h := by
    cases x with
    | int n =>
      cases h
      trivial
    | str s =>
      obtain ⟨t, -, rfl⟩ := Option.map_eq_some_iff.mp h
      trivial
  exact digits depth x := by
    cases x with
    | int n =>
      constructor
      · intro h
        exact ⟨_, rfl, h, rfl⟩
      · rintro ⟨v, hv, h, -⟩
        cases hv
        exact h
    | str s =>
      simp only [Text.scalar_iff]
      constructor
      · rintro ⟨t, ht⟩
        refine ⟨.str t, by rw [ht]; rfl, rfl, ?_⟩
        simp only [Text.ofString_of_string? ht]
      · rintro ⟨v, hv, -, -⟩
        obtain ⟨t, ht, -⟩ := Option.map_eq_some_iff.mp hv
        exact ⟨t, ht⟩

/-- `int | str | None`. -/
def optTargetField : Codec (Option Target) := (targetField P).option rfl

/-- `dict[str, object]`. -/
def dictField : Codec (List (Text × PyObj F O)) where
  dump fields := (PyObj.dict fields).dump P.toJsonLayer
  load
    | .obj fields => some (dictOf (loadFields P.toJsonLayer fields))
    | _ => none
  Carries digits depth fields := (PyObj.dict fields).Carries P.toJsonLayer digits depth
  readable h := PyObj.readable P.lawful h
  exact digits depth fields := by
    rw [PyObj.exact P.lawful]
    apply exists_congr
    intro v
    refine and_congr_right (fun _ => and_congr_right (fun _ => ?_))
    cases v <;> simp [PyObj.load]

/-- `dict[str, object] | None`. -/
def optDictField : Codec (Option (List (Text × PyObj F O))) := (dictField P).option rfl

/-- The `kind` of a chunk, `Literal["answer", "progress"]`. -/
inductive ChunkKind where
  | answer
  | progress

def ChunkKind.text : ChunkKind → String
  | .answer => "answer"
  | .progress => "progress"

/-- `Literal["answer", "progress"]`. -/
def kindField : Codec ChunkKind where
  dump kind := some (.str kind.text)
  load
    | .str "answer" => some .answer
    | .str "progress" => some .progress
    | _ => none
  Carries _ _ _ := True
  readable h := by cases h; trivial
  exact digits depth kind := by
    refine ⟨fun _ => ⟨_, rfl, rfl, ?_⟩, fun _ => trivial⟩
    cases kind <;> rfl

/-! ## Frames -/

open Record

structure Action where
  label : Text
  command : Text
  destructive : Bool := false

def Action.record : Record Action :=
  (cons "label" strField none <|
    cons "command" strField none <|
    cons "destructive" (boolField P) (some false) nil).iso
    (fun (label, command, destructive, ()) => ⟨label, command, destructive⟩)
    (fun a => (a.label, a.command, a.destructive, ())) (fun _ => rfl) (fun _ => rfl)

def PROTOCOL_VERSION : Int := 7

/-- `0.0`. -/
def zero : FloatText := ⟨"0.0", by decide⟩

/-- Either direction, on (re)connect: a fresh peer is ready. -/
structure HelloFrame where
  senderPid : Int
  protocolVersion : Int := PROTOCOL_VERSION
  highestMigration : Int
  registryDigest : Text
  linkSecret : Option Text := none

def HelloFrame.record : Record HelloFrame :=
  (cons "sender_pid" (intField P) none <|
    cons "protocol_version" (intField P) (some PROTOCOL_VERSION) <|
    cons "highest_migration" (intField P) none <|
    cons "registry_digest" strField none <|
    cons "link_secret" optStrField (some none) nil).iso
    (fun (a, b, c, d, e, ()) => ⟨a, b, c, d, e⟩)
    (fun f => (f.senderPid, f.protocolVersion, f.highestMigration, f.registryDigest,
      f.linkSecret, ()))
    (fun _ => rfl) (fun _ => rfl)

/-- Core to gateway: a clean, intentional disconnect. -/
structure GoodbyeFrame where
  reason : Text := []

def GoodbyeFrame.record : Record GoodbyeFrame :=
  (cons "reason" strField (some []) nil).iso
    (fun (reason, ()) => ⟨reason⟩)
    (fun f => (f.reason, ()))
    (fun _ => rfl) (fun _ => rfl)

/-- Core to gateway: the core is about to replace itself. -/
structure RestartNoticeFrame (F : Type) where
  reason : Text := []
  graceSeconds : F

def RestartNoticeFrame.record : Record (RestartNoticeFrame F) :=
  (cons "reason" strField (some []) <|
    cons "grace_seconds" (floatField P) (some (P.readFloat zero)) nil).iso
    (fun (reason, graceSeconds, ()) => ⟨reason, graceSeconds⟩)
    (fun f => (f.reason, f.graceSeconds, ()))
    (fun _ => rfl) (fun _ => rfl)

/-- Gateway to core: a raw inbound message. -/
structure IngressFrame where
  text : Text
  sessionKey : Text
  channel : Text
  traceId : Text
  chatId : Option Target := none
  isReply : Bool := false
  isDirect : Bool := false

def IngressFrame.record : Record IngressFrame :=
  (cons "text" strField none <|
    cons "session_key" strField none <|
    cons "channel" strField none <|
    cons "trace_id" strField none <|
    cons "chat_id" (optTargetField P) (some none) <|
    cons "is_reply" (boolField P) (some false) <|
    cons "is_direct" (boolField P) (some false) nil).iso
    (fun (a, b, c, d, e, g, h, ()) => ⟨a, b, c, d, e, g, h⟩)
    (fun f => (f.text, f.sessionKey, f.channel, f.traceId, f.chatId, f.isReply, f.isDirect, ()))
    (fun _ => rfl) (fun _ => rfl)

/-- Core to gateway: one streamed response fragment. -/
structure ChunkFrame (F O : Type) where
  content : Text
  isFinal : Bool
  chunkIndex : Int
  traceId : Text
  owlName : Text
  durationMs : Option F := none
  kind : ChunkKind := .answer
  target : Option Target := none
  isFloor : Bool := false
  actions : List Action := []
  rawKeyboard : Option (List (Text × PyObj F O)) := none
  displaySuffix : Option Text := none

def ChunkFrame.record : Record (ChunkFrame F O) :=
  (cons "content" strField none <|
    cons "is_final" (boolField P) none <|
    cons "chunk_index" (intField P) none <|
    cons "trace_id" strField none <|
    cons "owl_name" strField none <|
    cons "duration_ms" (optFloatField P) (some none) <|
    cons "kind" kindField (some .answer) <|
    cons "target" (optTargetField P) (some none) <|
    cons "is_floor" (boolField P) (some false) <|
    cons "actions" (Action.record P).object.list (some []) <|
    cons "raw_keyboard" (optDictField P) (some none) <|
    cons "display_suffix" optStrField (some none) nil).iso
    (fun (a, b, c, d, e, g, h, i, j, k, l, m, ()) => ⟨a, b, c, d, e, g, h, i, j, k, l, m⟩)
    (fun f => (f.content, f.isFinal, f.chunkIndex, f.traceId, f.owlName, f.durationMs,
      f.kind, f.target, f.isFloor, f.actions, f.rawKeyboard, f.displaySuffix, ()))
    (fun _ => rfl) (fun _ => rfl)

/-- Core to gateway: a proactive text to deliver on a channel. -/
structure SendTextFrame where
  channel : Text
  text : Text
  target : Option Target := none

def SendTextFrame.record : Record SendTextFrame :=
  (cons "channel" strField none <|
    cons "text" strField none <|
    cons "target" (optTargetField P) (some none) nil).iso
    (fun (channel, text, target, ()) => ⟨channel, text, target⟩)
    (fun f => (f.channel, f.text, f.target, ()))
    (fun _ => rfl) (fun _ => rfl)

/-- Core to gateway: a file to upload on a channel. -/
structure SendFileFrame where
  channel : Text
  filePath : Text
  caption : Option Text := none
  target : Option Target := none

def SendFileFrame.record : Record SendFileFrame :=
  (cons "channel" strField none <|
    cons "file_path" strField none <|
    cons "caption" optStrField (some none) <|
    cons "target" (optTargetField P) (some none) nil).iso
    (fun (a, b, c, d, ()) => ⟨a, b, c, d⟩)
    (fun f => (f.channel, f.filePath, f.caption, f.target, ()))
    (fun _ => rfl) (fun _ => rfl)

/-- Core to gateway: a muted, self-deleting probe text. -/
structure SendEphemeralFrame where
  requestId : Text
  channel : Text
  text : Text
  target : Target

def SendEphemeralFrame.record : Record SendEphemeralFrame :=
  (cons "request_id" strField none <|
    cons "channel" strField none <|
    cons "text" strField none <|
    cons "target" (targetField P) none nil).iso
    (fun (a, b, c, d, ()) => ⟨a, b, c, d⟩)
    (fun f => (f.requestId, f.channel, f.text, f.target, ()))
    (fun _ => rfl) (fun _ => rfl)

/-- Gateway to core: the message id of a `SendEphemeralFrame`. -/
structure EphemeralSentFrame where
  requestId : Text
  messageId : Int

def EphemeralSentFrame.record : Record EphemeralSentFrame :=
  (cons "request_id" strField none <| cons "message_id" (intField P) none nil).iso
    (fun (requestId, messageId, ()) => ⟨requestId, messageId⟩)
    (fun f => (f.requestId, f.messageId, ()))
    (fun _ => rfl) (fun _ => rfl)

/-- Core to gateway: delete an ephemeral message. -/
structure DeleteMessageFrame where
  channel : Text
  target : Target
  messageId : Int

def DeleteMessageFrame.record : Record DeleteMessageFrame :=
  (cons "channel" strField none <|
    cons "target" (targetField P) none <|
    cons "message_id" (intField P) none nil).iso
    (fun (channel, target, messageId, ()) => ⟨channel, target, messageId⟩)
    (fun f => (f.channel, f.target, f.messageId, ()))
    (fun _ => rfl) (fun _ => rfl)

/-- Core to gateway: one committed journal row. -/
structure JournalEventFrame (F O : Type) where
  cursor : Int
  eventId : Text
  eventType : Text
  schemaVersion : Int
  occurredAt : Text
  actorKind : Text
  actorId : Text
  deviceId : Option Text := none
  targetKind : Text
  targetId : Text
  outcome : Text
  attention : Option Text := none
  intensity : Option Text := none
  recordRef : Option (List (Text × PyObj F O)) := none
  attrs : List (Text × PyObj F O)
  traceId : Option Text := none
  durationMs : Option Int := none

def JournalEventFrame.record : Record (JournalEventFrame F O) :=
  (cons "cursor" (intField P) none <|
    cons "event_id" strField none <|
    cons "event_type" strField none <|
    cons "schema_version" (intField P) none <|
    cons "occurred_at" strField none <|
    cons "actor_kind" strField none <|
    cons "actor_id" strField none <|
    cons "device_id" optStrField (some none) <|
    cons "target_kind" strField none <|
    cons "target_id" strField none <|
    cons "outcome" strField none <|
    cons "attention" optStrField (some none) <|
    cons "intensity" optStrField (some none) <|
    cons "record_ref" (optDictField P) (some none) <|
    cons "attrs" (dictField P) none <|
    cons "trace_id" optStrField (some none) <|
    cons "duration_ms" (optIntField P) (some none) nil).iso
    (fun (a, b, c, d, e, g, h, i, j, k, l, m, n, o, p, q, r, ()) =>
      ⟨a, b, c, d, e, g, h, i, j, k, l, m, n, o, p, q, r⟩)
    (fun f => (f.cursor, f.eventId, f.eventType, f.schemaVersion, f.occurredAt,
      f.actorKind, f.actorId, f.deviceId, f.targetKind, f.targetId, f.outcome,
      f.attention, f.intensity, f.recordRef, f.attrs, f.traceId, f.durationMs, ()))
    (fun _ => rfl) (fun _ => rfl)

/-- Core to gateway: a tool asks the user a question. -/
structure ClarifyAskFrame where
  clarifyId : Text
  sessionKey : Text
  question : Text
  traceId : Text
  channel : Text := []
  choices : List Text := []
  target : Option Target := none
  needsYouItemId : Option Text := none

def ClarifyAskFrame.record : Record ClarifyAskFrame :=
  (cons "clarify_id" strField none <|
    cons "session_key" strField none <|
    cons "question" strField none <|
    cons "trace_id" strField none <|
    cons "channel" strField (some []) <|
    cons "choices" strField.list (some []) <|
    cons "target" (optTargetField P) (some none) <|
    cons "needs_you_item_id" optStrField (some none) nil).iso
    (fun (a, b, c, d, e, g, h, i, ()) => ⟨a, b, c, d, e, g, h, i⟩)
    (fun f => (f.clarifyId, f.sessionKey, f.question, f.traceId, f.channel, f.choices,
      f.target, f.needsYouItemId, ()))
    (fun _ => rfl) (fun _ => rfl)

/-- Gateway to core: the answer to a pending clarify. -/
structure ClarifyReplyFrame where
  clarifyId : Text
  answer : Text

def ClarifyReplyFrame.record : Record ClarifyReplyFrame :=
  (cons "clarify_id" strField none <| cons "answer" strField none nil).iso
    (fun (clarifyId, answer, ()) => ⟨clarifyId, answer⟩)
    (fun f => (f.clarifyId, f.answer, ()))
    (fun _ => rfl) (fun _ => rfl)

/-- Core to gateway: a tool needs the user's consent. -/
structure ConsentRequestFrame where
  consentId : Text
  channel : Text
  toolName : Text
  sessionKey : Text
  replyTarget : Option Target := none
  itemId : Option Text := none
  category : Option Text := none
  summary : Text := []
  allowRelaxation : Bool := true

def ConsentRequestFrame.record : Record ConsentRequestFrame :=
  (cons "consent_id" strField none <|
    cons "channel" strField none <|
    cons "tool_name" strField none <|
    cons "session_key" strField none <|
    cons "reply_target" (optTargetField P) (some none) <|
    cons "item_id" optStrField (some none) <|
    cons "category" optStrField (some none) <|
    cons "summary" strField (some []) <|
    cons "allow_relaxation" (boolField P) (some true) nil).iso
    (fun (a, b, c, d, e, g, h, i, j, ()) => ⟨a, b, c, d, e, g, h, i, j⟩)
    (fun f => (f.consentId, f.channel, f.toolName, f.sessionKey, f.replyTarget,
      f.itemId, f.category, f.summary, f.allowRelaxation, ()))
    (fun _ => rfl) (fun _ => rfl)

/-- Gateway to core: the user's consent decision. -/
structure ConsentResponseFrame where
  consentId : Text
  scope : Text

def ConsentResponseFrame.record : Record ConsentResponseFrame :=
  (cons "consent_id" strField none <| cons "scope" strField none nil).iso
    (fun (consentId, scope, ()) => ⟨consentId, scope⟩)
    (fun f => (f.consentId, f.scope, ()))
    (fun _ => rfl) (fun _ => rfl)

/-- Gateway to core: work is waiting. -/
structure TasksEnqueuedFrame where

def TasksEnqueuedFrame.record : Record TasksEnqueuedFrame :=
  nil.iso (fun () => ⟨⟩) (fun _ => ()) (fun _ => rfl) (fun _ => rfl)

structure AckFrame where
  ref : Text := []
  status : Text := Text.ofString "ok"
  detail : Text := []

def AckFrame.record : Record AckFrame :=
  (cons "ref" strField (some []) <|
    cons "status" strField (some (Text.ofString "ok")) <|
    cons "detail" strField (some []) nil).iso
    (fun (ref, status, detail, ()) => ⟨ref, status, detail⟩)
    (fun f => (f.ref, f.status, f.detail, ()))
    (fun _ => rfl) (fun _ => rfl)

/-! ## The union -/

inductive Frame (F O : Type) where
  | hello (f : HelloFrame)
  | goodbye (f : GoodbyeFrame)
  | restartNotice (f : RestartNoticeFrame F)
  | ingress (f : IngressFrame)
  | chunk (f : ChunkFrame F O)
  | sendText (f : SendTextFrame)
  | sendFile (f : SendFileFrame)
  | sendEphemeral (f : SendEphemeralFrame)
  | ephemeralSent (f : EphemeralSentFrame)
  | deleteMessage (f : DeleteMessageFrame)
  | journalEvent (f : JournalEventFrame F O)
  | clarifyAsk (f : ClarifyAskFrame)
  | clarifyReply (f : ClarifyReplyFrame)
  | consentRequest (f : ConsentRequestFrame)
  | consentResponse (f : ConsentResponseFrame)
  | tasksEnqueued (f : TasksEnqueuedFrame)
  | ack (f : AckFrame)

def Frame.dump : Frame F O → Option Json
  | .hello f => (HelloFrame.record P).dumpTagged "type" "hello" f
  | .goodbye f => GoodbyeFrame.record.dumpTagged "type" "goodbye" f
  | .restartNotice f => (RestartNoticeFrame.record P).dumpTagged "type" "restart_notice" f
  | .ingress f => (IngressFrame.record P).dumpTagged "type" "ingress" f
  | .chunk f => (ChunkFrame.record P).dumpTagged "type" "chunk" f
  | .sendText f => (SendTextFrame.record P).dumpTagged "type" "send_text" f
  | .sendFile f => (SendFileFrame.record P).dumpTagged "type" "send_file" f
  | .sendEphemeral f => (SendEphemeralFrame.record P).dumpTagged "type" "send_ephemeral" f
  | .ephemeralSent f => (EphemeralSentFrame.record P).dumpTagged "type" "ephemeral_sent" f
  | .deleteMessage f => (DeleteMessageFrame.record P).dumpTagged "type" "delete_message" f
  | .journalEvent f => (JournalEventFrame.record P).dumpTagged "type" "journal_event" f
  | .clarifyAsk f => (ClarifyAskFrame.record P).dumpTagged "type" "clarify_ask" f
  | .clarifyReply f => ClarifyReplyFrame.record.dumpTagged "type" "clarify_reply" f
  | .consentRequest f =>
    (ConsentRequestFrame.record P).dumpTagged "type" "consent_request" f
  | .consentResponse f =>
    ConsentResponseFrame.record.dumpTagged "type" "consent_response" f
  | .tasksEnqueued f => TasksEnqueuedFrame.record.dumpTagged "type" "tasks_enqueued" f
  | .ack f => AckFrame.record.dumpTagged "type" "ack" f

/-- The frame a `type` and its fields are. -/
def Frame.ofType (type : String) (fields : List (String × Json)) : Option (Frame F O) :=
  match type with
  | "hello" => ((HelloFrame.record P).loadTagged "type" fields).map .hello
  | "goodbye" => (GoodbyeFrame.record.loadTagged "type" fields).map .goodbye
  | "restart_notice" =>
    ((RestartNoticeFrame.record P).loadTagged "type" fields).map .restartNotice
  | "ingress" => ((IngressFrame.record P).loadTagged "type" fields).map .ingress
  | "chunk" => ((ChunkFrame.record P).loadTagged "type" fields).map .chunk
  | "send_text" => ((SendTextFrame.record P).loadTagged "type" fields).map .sendText
  | "send_file" => ((SendFileFrame.record P).loadTagged "type" fields).map .sendFile
  | "send_ephemeral" =>
    ((SendEphemeralFrame.record P).loadTagged "type" fields).map .sendEphemeral
  | "ephemeral_sent" =>
    ((EphemeralSentFrame.record P).loadTagged "type" fields).map .ephemeralSent
  | "delete_message" =>
    ((DeleteMessageFrame.record P).loadTagged "type" fields).map .deleteMessage
  | "journal_event" =>
    ((JournalEventFrame.record P).loadTagged "type" fields).map .journalEvent
  | "clarify_ask" => ((ClarifyAskFrame.record P).loadTagged "type" fields).map .clarifyAsk
  | "clarify_reply" =>
    (ClarifyReplyFrame.record.loadTagged "type" fields).map .clarifyReply
  | "consent_request" =>
    ((ConsentRequestFrame.record P).loadTagged "type" fields).map .consentRequest
  | "consent_response" =>
    (ConsentResponseFrame.record.loadTagged "type" fields).map .consentResponse
  | "tasks_enqueued" =>
    (TasksEnqueuedFrame.record.loadTagged "type" fields).map .tasksEnqueued
  | "ack" => (AckFrame.record.loadTagged "type" fields).map .ack
  | _ => none

/-- The frame a JSON value is validated as; an unknown type, a missing field, one of the
wrong type and a key that is not declared are errors. -/
def Frame.load (v : Json) : Option (Frame F O) :=
  (readTag "type" v).bind fun found => Frame.ofType P found.1 found.2

/-- Every field of the frame comes back. -/
def Frame.Carries (digits depth : Nat) : Frame F O → Prop
  | .hello f => 0 < depth ∧ (HelloFrame.record P).Carries digits (depth - 1) f
  | .goodbye f => 0 < depth ∧ GoodbyeFrame.record.Carries digits (depth - 1) f
  | .restartNotice f =>
    0 < depth ∧ (RestartNoticeFrame.record P).Carries digits (depth - 1) f
  | .ingress f => 0 < depth ∧ (IngressFrame.record P).Carries digits (depth - 1) f
  | .chunk f => 0 < depth ∧ (ChunkFrame.record P).Carries digits (depth - 1) f
  | .sendText f => 0 < depth ∧ (SendTextFrame.record P).Carries digits (depth - 1) f
  | .sendFile f => 0 < depth ∧ (SendFileFrame.record P).Carries digits (depth - 1) f
  | .sendEphemeral f =>
    0 < depth ∧ (SendEphemeralFrame.record P).Carries digits (depth - 1) f
  | .ephemeralSent f =>
    0 < depth ∧ (EphemeralSentFrame.record P).Carries digits (depth - 1) f
  | .deleteMessage f =>
    0 < depth ∧ (DeleteMessageFrame.record P).Carries digits (depth - 1) f
  | .journalEvent f =>
    0 < depth ∧ (JournalEventFrame.record P).Carries digits (depth - 1) f
  | .clarifyAsk f => 0 < depth ∧ (ClarifyAskFrame.record P).Carries digits (depth - 1) f
  | .clarifyReply f => 0 < depth ∧ ClarifyReplyFrame.record.Carries digits (depth - 1) f
  | .consentRequest f =>
    0 < depth ∧ (ConsentRequestFrame.record P).Carries digits (depth - 1) f
  | .consentResponse f =>
    0 < depth ∧ ConsentResponseFrame.record.Carries digits (depth - 1) f
  | .tasksEnqueued f => 0 < depth ∧ TasksEnqueuedFrame.record.Carries digits (depth - 1) f
  | .ack f => 0 < depth ∧ AckFrame.record.Carries digits (depth - 1) f

theorem Frame.readable {f : Frame F O} {v : Json} (h : f.dump P = some v) : v.Readable := by
  cases f <;> exact readable_tagged h

/-- Exactly the frames that are carried are validated from what they are serialised as:
whatever the type, its record comes back behind its tag. -/
theorem Frame.exact (digits depth : Nat) (f : Frame F O) : f.Carries P digits depth ↔
    ∃ v, f.dump P = some v ∧ v.within digits depth = true ∧ Frame.load P v = some f := by
  cases f
  all_goals
    refine carries_tagged "type" _ _ ?_ ?_ (fun _ => rfl) digits depth _
    · simp [HelloFrame.record, GoodbyeFrame.record, RestartNoticeFrame.record,
        IngressFrame.record, ChunkFrame.record, SendTextFrame.record,
        SendFileFrame.record, SendEphemeralFrame.record, EphemeralSentFrame.record,
        DeleteMessageFrame.record, JournalEventFrame.record, ClarifyAskFrame.record,
        ClarifyReplyFrame.record, ConsentRequestFrame.record, ConsentResponseFrame.record,
        TasksEnqueuedFrame.record, AckFrame.record]
    · intro f g h
      injection h

end StackOwl.Ipc
