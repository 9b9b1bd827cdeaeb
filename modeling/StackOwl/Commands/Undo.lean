import StackOwl.Commands.Approval
import StackOwl.Commands.Receipts
import StackOwl.Lib.Json
import StackOwl.Lib.Once

/-!
# Undo requests

`commands/spec/undo.py` and `authz/undo.py` over the task store: a request reads the
command it is to undo, looks for a later command on the same target, and submits the
reverse command.  Requests stand beside one another, each at one of these points, while
commands are submitted and complete; a command's completion is remembered when its row is
not.

What the store's other rows and transactions do is arbitrary, but for the command rows,
which `submit_command` alone creates.

## Main results

* `told_named` — a later command that is found by a target's field did change the target.
* `undo_once` — over a run, a request is let through exactly while its command is the last
  one of its target and 24 hours have not passed, and one reverse command is submitted for
  it at most, if the look-up tells of every later change and every submitted reverse, and
  requests for one command do not overlap.
* `paused_job_undone_twice` — a run in which a resumed job is resumed by its undo, twice.
-/

namespace StackOwl.Commands

open Lib List Option
open Durable (DurableTask Stamp)

/-! ## The gate -/

def UNDO_WINDOW : Int := Durable.seconds (24 * 3600)

structure UndoDecision where
  allowed : Bool
  code : Option String := none
  reason : Option String := none
  remedy : Option String := none

/-- `decide_undo`: a later change outranks the time that has passed. -/
def decideUndo (elapsed : Int) (superseded : Bool) : UndoDecision :=
  if superseded then
    { allowed := false
      code := some "superseded"
      reason := some "a later command already changed this target"
      remedy := some "undo is no longer available -- issue a new command instead" }
  else if elapsed ≥ UNDO_WINDOW then
    { allowed := false
      code := some "expired"
      reason := some "the 24-hour undo window has passed"
      remedy := some "undo is no longer available -- issue a new command instead" }
  else
    { allowed := true }

theorem allowed_decideUndo (elapsed : Int) (superseded : Bool) :
    (decideUndo elapsed superseded).allowed = true ↔
      superseded = false ∧ elapsed < UNDO_WINDOW := by
  unfold decideUndo
  split
  · simp_all
  · split
    · simp_all
    · simp_all

structure UndoRefusal where
  code : String
  reason : String
  remedy : String
  deriving DecidableEq

def NOT_FOUND : UndoRefusal where
  code := "not_found"
  reason := "no completed command exists with that id"
  remedy := "check the command id and try again"

def NOT_COMPLETED : UndoRefusal where
  code := "not_completed"
  reason := "this command has not completed yet"
  remedy := "wait for it to finish, then try again"

def NOT_REVERSIBLE : UndoRefusal where
  code := "not_reversible"
  reason := "this command has no undo"
  remedy := "there is nothing to undo — issue a new command instead"

def UndoDecision.refusal (decision : UndoDecision) : UndoRefusal where
  code := textOr "refused" decision.code
  reason := textOr "" decision.reason
  remedy := textOr "" decision.remedy

/-! ## The target of a command -/

/-- `command_payload or "{}"`. -/
def payloadText (task : DurableTask) : String :=
  textOr "\x7b\x7d" task.context.commandPayload

/-- The fields that name a target, in the order they are looked at.  Every payload model
that has one declares it as a text. -/
def TARGET_KEYS : List (List String) := [["job_id"], ["name"], ["manifest", "name"]]

/-- `target_key` and `target_job_id`. -/
def targetField (payload : Json) : Option (List String × String) :=
  TARGET_KEYS.findSome? fun key => (payload.textAt key).map fun value => (key, value)

/-- `json_extract(command_payload, '$.key')`. -/
def jsonExtract (payload : Option String) (key : List String) : Option String :=
  (payload.bind loads).bind (Json.textAt key)

/-- A row `has_later_completed_command` selects. -/
def laterMatch (payload : String) (after : Stamp) (excludeTaskId : String)
    (target : Option (List String × String)) (commandType : Option String)
    (r : Durable.Row) : Bool :=
  r.ownerId == Durable.DEFAULT_PRINCIPAL_ID &&
    r.kind == .command && r.status == .completed &&
    (match target with
    | some (key, value) =>
      jsonExtract r.context.commandPayload key == some value &&
        commandType.all fun type => r.commandType == some type
    | none => r.context.commandPayload == some payload) &&
    r.taskId != excludeTaskId && r.deliveredAt.any fun at' => after < at'

def hasLaterCompletedCommand (payload : String) (after : Stamp) (excludeTaskId : String)
    (target : Option (List String × String)) (commandType : Option String)
    (db : Durable.Db) : Bool :=
  db.tasks.rows.any (laterMatch payload after excludeTaskId target commandType)

/-! ## Requests -/

/-- The command registries.  A payload that a model has validated is dumped as an object. -/
structure UndoEnv where
  commands : CommandRegistry
  dumps : ∀ type spec text payload, commands.spec type = some spec →
    spec.payloadModel text = some payload →
      ∃ fields, loads payload.modelDumpJson = some (.obj fields)

inductive UndoRequest where
  /-- The command was found at `now`, completed. -/
  | found (commandId : String) (original : DurableTask) (undoCommandType : String)
      (deliveredAt now : Stamp)
  /-- The gate has let the request through. -/
  | allowed (commandId : String) (original : DurableTask) (undoCommandType : String)
  | submitted (commandId : String)
  | refused (refusal : UndoRefusal)
  | raised
  deriving DecidableEq

structure Completion where
  ownerId : String
  taskId : String
  commandType : Option String
  commandId : Option String
  payload : Option String
  deliveredAt : Stamp
  deriving DecidableEq

def completionOf (r : Durable.Row) : Option Completion :=
  if r.kind = .command ∧ r.status = .completed then
    r.deliveredAt.map fun at' =>
      ⟨r.ownerId, r.taskId, r.commandType, r.commandId, r.context.commandPayload, at'⟩
  else none

structure UndoWorld where
  tasks : Durable.Db
  receipts : Receipts
  /-- Every command that has completed. -/
  history : List Completion := []
  requests : List UndoRequest := []
  /-- Every reverse command a request has submitted, behind the id of the command that it
  undoes. -/
  reverses : List (String × String) := []

def UndoWorld.fresh : UndoWorld where
  tasks := .fresh
  receipts := .empty

variable (w : UndoWorld)

/-- The task store moves on, and what has completed is remembered. -/
def UndoWorld.setTasks (db : Durable.Db) : UndoWorld :=
  { w with
    tasks := db
    history := w.history ++
      (db.tasks.rows.filterMap completionOf).filter fun c => c ∉ w.history }

def UndoWorld.setRequest (i : Nat) (request : UndoRequest) : UndoWorld :=
  { w with requests := w.requests.set i request }

inductive UndoOp where
  /-- `submit_command` creates a row. -/
  | submit (commandId commandType text requesterKind : String)
      (authorityGrantId : Option String) (now : Stamp)
  /-- Any other transaction of the task store. -/
  | store (op : Durable.Op)
  /-- A mutator writes its receipt. -/
  | receipt (commandId commandType : String) (undoPayload : Option String)
  /-- A request reads the command it is to undo, -/
  | request (commandId : String) (now : Stamp)
  /-- looks for a later one, -/
  | lookup (i : Nat)
  /-- and submits the reverse command. -/
  | resubmit (i : Nat) (commandId requesterKind : String) (now : Stamp)

variable (env : UndoEnv) (commandId : String)

/-- The insertion of `submit_command`: the type is declared, its model accepts the payload,
and the row is new. -/
def submitRow (commandType text requesterKind : String) (authorityGrantId : Option String)
    (now : Stamp) (db : Durable.Db) :
    Option Durable.Db := do
  let spec ← env.commands.spec commandType
  let payload ← spec.payloadModel text
  match Durable.create Durable.DEFAULT_PRINCIPAL_ID
    (submittedTask commandId commandType payload.modelDumpJson requesterKind authorityGrantId
      now) db with
  | .ok db => some db
  | .error _ => none

def getByCommandId (db : Durable.Db) : Option DurableTask :=
  (db.tasks.find? fun r => r.ownerId == Durable.DEFAULT_PRINCIPAL_ID &&
    r.commandId == some commandId).map Durable.rowToTask

/-- `request_undo` up to its look-up. -/
def findOriginal (now : Stamp) (db : Durable.Db) :
    UndoRequest :=
  match getByCommandId commandId db with
  | none => .refused NOT_FOUND
  | some original =>
    match original.kind, original.status, original.deliveredAt with
    | .command, .completed, some deliveredAt =>
      match env.commands.spec (original.commandType.getD "") with
      | none => .raised
      | some spec =>
        match spec.undoCommandType with
        | none => .refused NOT_REVERSIBLE
        | some undoCommandType =>
          if undoCommandType = "" then .refused NOT_REVERSIBLE
          else .found commandId original undoCommandType deliveredAt now
    | _, _, _ => .refused NOT_COMPLETED

variable (original : DurableTask)

/-- What the look-up is asked about a command. -/
def isSuperseded (fields : List (String × Json)) (deliveredAt : Stamp) (db : Durable.Db) : Bool :=
  hasLaterCompletedCommand (payloadText original) deliveredAt original.taskId
    (targetField (.obj fields)) (some (original.commandType.getD "")) db

def judge (undoCommandType : String) (deliveredAt now : Stamp) (db : Durable.Db) : UndoRequest :=
  match loads (payloadText original) with
  | some (.obj fields) =>
    let decision :=
      decideUndo (now - deliveredAt) (isSuperseded original fields deliveredAt db)
    if decision.allowed then .allowed commandId original undoCommandType
    else .refused decision.refusal
  | _ => .raised

def resubmitPayload (receipts : Receipts) :
    String :=
  (getUndoPayload commandId receipts).getD (payloadText original)

def undoStep (w : UndoWorld) : UndoOp → UndoWorld
  | .submit commandId commandType text requesterKind authorityGrantId now =>
    match submitRow env commandId commandType text requesterKind authorityGrantId now
      w.tasks with
    | none => w
    | some db => w.setTasks db
  | .store op => if commandFree op then w.setTasks (Durable.step w.tasks op) else w
  | .receipt commandId commandType undoPayload =>
    { w with
      receipts := (recordCommandExecution commandId commandType undoPayload w.receipts).2 }
  | .request commandId now =>
    { w with requests := w.requests ++ [findOriginal env commandId now w.tasks] }
  | .lookup i =>
    match w.requests[i]? with
    | some (.found commandId original undoCommandType deliveredAt now) =>
      w.setRequest i
        (judge commandId original undoCommandType deliveredAt now w.tasks)
    | _ => w
  | .resubmit i newId requesterKind now =>
    match w.requests[i]? with
    | some (.allowed commandId original undoCommandType) =>
      match submitRow env newId undoCommandType
        (resubmitPayload commandId original w.receipts) requesterKind none now
        w.tasks with
      | none => w.setRequest i .raised
      | some db =>
        { w.setTasks db with
          requests := w.requests.set i (.submitted newId)
          reverses := w.reverses ++ [(commandId, newId)] }
    | _ => w

/-! ## What a request is to go by -/

/-- The subsystem of a command type: what stands before its first point. -/
def family (commandType : Option String) : List Char :=
  (commandType.getD "").toList.takeWhile (· ≠ '.')

def names (payload : Option String) (value : String) : Bool :=
  TARGET_KEYS.any fun key => jsonExtract payload key == some value

/-- The name of what a command changed: the one in its payload, or the one in the payload
of its undo, which a command that creates something leaves. -/
def targetName (receipts : Receipts) : Option String :=
  ((loads (payloadText original)).bind targetField <|>
    ((original.commandId.bind fun id => getUndoPayload id receipts).bind loads).bind
      targetField).map Prod.snd

/-- The completed command changed what `original` did, whatever its type: it is one of the
same subsystem and names it, or, where it has no name, it has the payload of `original`. -/
def Completion.changes (c : Completion) (original : DurableTask) (receipts : Receipts) :
    Bool :=
  match targetName original receipts with
  | some value =>
    family c.commandType == family original.commandType &&
      (names c.payload value || names (c.commandId.bind fun id => getUndoPayload id receipts) value)
  | none => c.payload == some (payloadText original)

/-- Another command completed after `original` and changed its target. -/
def changedLater (deliveredAt : Stamp) : Bool :=
  w.history.any fun c =>
    c.ownerId == Durable.DEFAULT_PRINCIPAL_ID && c.taskId != original.taskId &&
      deliveredAt < c.deliveredAt && c.changes original w.receipts

def UndoRequest.pending : UndoRequest → Option String
  | .allowed commandId _ _ => some commandId
  | _ => none

/-- The undo law at a step: a look-up lets its request through exactly if less than 24
hours have passed and no later command changed the target; and the request then submits
the reverse command, as the first one for its command. -/
def lawful (w : UndoWorld) (op : UndoOp) : Bool :=
  match op with
  | .lookup i =>
    match w.requests[i]? with
    | some (.found commandId original undoCommandType deliveredAt now) =>
      decide ((undoStep env w op).requests[i]? =
          some (.allowed commandId original undoCommandType)) ==
        (decide (now - deliveredAt < UNDO_WINDOW) && !changedLater w original deliveredAt)
    | _ => true
  | .resubmit i newId _ _ =>
    match w.requests[i]? with
    | some (.allowed commandId _ _) =>
      decide (commandId ∉ w.reverses.map Prod.fst ∧
        (undoStep env w op).reverses = w.reverses ++ [(commandId, newId)])
    | _ => true
  | _ => true

/-- The look-up tells a request what it is to go by.  A request within the 24 hours that
finds a later command by its payload text has one that changed the target; one that finds
none has none that did, no reverse command was submitted for its command, and no other
request for it is about to.  A request that submits has a payload that the reverse command
accepts, and a new id. -/
def toldApart (w : UndoWorld) : UndoOp → Bool
  | .lookup i =>
    match w.requests[i]? with
    | some (.found commandId original _ deliveredAt now) =>
      match loads (payloadText original) with
      | some (.obj fields) =>
        decide (UNDO_WINDOW ≤ now - deliveredAt) ||
          if isSuperseded original fields deliveredAt w.tasks then
            (targetField (.obj fields)).isSome || changedLater w original deliveredAt
          else
            !changedLater w original deliveredAt &&
              decide (commandId ∉ w.reverses.map Prod.fst ++
                w.requests.filterMap UndoRequest.pending)
      | _ => true
    | _ => true
  | .resubmit i newId requesterKind now =>
    match w.requests[i]? with
    | some (.allowed commandId original undoCommandType) =>
      (submitRow env newId undoCommandType
        (resubmitPayload commandId original w.receipts) requesterKind none now
        w.tasks).isSome
    | _ => true
  | _ => true

/-! ## What the task store leaves -/

def Readable (text : String) : Prop := ∃ fields, loads text = some (.obj fields)

def PayloadsReadable (db : Durable.Db) : Prop :=
  ∀ o i r, db.find o i = some r → r.kind = .command →
    Readable (payloadText (Durable.rowToTask r))

variable {text : String}

theorem readable_textOr (h : Readable text) :
    Readable (textOr "\x7b\x7d" (some text)) := by
  show Readable (if text = "" then _ else text)
  split
  · exact ⟨[], rfl⟩
  · exact h

variable {db : Durable.Db}

theorem PayloadsReadable.step (h : PayloadsReadable db) {op : Durable.Op}
    (hfree : commandFree op = true) :
    PayloadsReadable (Durable.step db op) := by
  intro o i r' hr' hkind
  obtain ⟨r, hr, hsame⟩ := find_commandFree hfree SameCommand.refl
    (fun _ r hop => sameCommand_set hop r) hr' hkind
  have hreadable := h o i r hr (hsame.kind ▸ hkind)
  show Readable (textOr _ r'.context.commandPayload)
  rw [hsame.context]
  exact hreadable

variable {env} {commandId} {commandType requesterKind : String} {db' : Durable.Db}

variable {authorityGrantId : Option String}

theorem submitRow_step {now : Stamp}
    (h : submitRow env commandId commandType text requesterKind authorityGrantId now db =
      some db') :
    ∃ dump, Readable dump ∧ db' = Durable.step db (.create Durable.DEFAULT_PRINCIPAL_ID
      (submittedTask commandId commandType dump requesterKind authorityGrantId now)) := by
  simp only [submitRow, bind_eq_bind] at h
  obtain ⟨spec, hspec, h⟩ := bind_eq_some_iff.mp h
  obtain ⟨payload, hpayload, h⟩ := bind_eq_some_iff.mp h
  split at h
  · rename_i hcreate
    cases h
    have hcommits : (Durable.Op.create Durable.DEFAULT_PRINCIPAL_ID (submittedTask commandId
        commandType payload.modelDumpJson requesterKind authorityGrantId now)).transaction db =
          .ok db' := hcreate
    exact ⟨payload.modelDumpJson, env.dumps commandType spec text payload hspec hpayload,
      (Durable.step_of_ok hcommits).symm⟩
  · cases h

theorem PayloadsReadable.submitRow {now : Stamp} (h : PayloadsReadable db)
    (hsubmit : submitRow env commandId commandType text requesterKind authorityGrantId now db =
      some db')
    : PayloadsReadable db' := by
  obtain ⟨dump, hdump, rfl⟩ := submitRow_step hsubmit
  intro o i r' hr' hkind
  rcases find_create hr' with hold | ⟨-, rfl⟩
  · exact h o i r' hold hkind
  · exact readable_textOr hdump

/-! ## The invariant -/

/-- The completed commands of the table are remembered. -/
def Remembered : Prop :=
  ∀ r ∈ w.tasks.tasks.rows, ∀ c, completionOf r = some c → c ∈ w.history

structure UndoSound (w : UndoWorld) : Prop where
  readable : PayloadsReadable w.tasks
  remembered : Remembered w
  originals : ∀ commandId original undoCommandType deliveredAt now,
    .found commandId original undoCommandType deliveredAt now ∈ w.requests →
      Readable (payloadText original)
  once : Once UndoRequest.pending (w.reverses.map Prod.fst) w.requests

theorem undoSound_fresh : UndoSound .fresh where
  readable := fun _ _ _ h => nomatch h
  remembered := fun _ h => absurd h not_mem_nil
  originals := fun _ _ _ _ _ h => absurd h not_mem_nil
  once := Once.nil _

theorem remembered_setTasks (db : Durable.Db) :
    Remembered (w.setTasks db) := by
  intro r hr c hc
  by_cases hold : c ∈ w.history
  · exact mem_append_left _ hold
  · refine mem_append_right _ (mem_filter.mpr ⟨?_, by simpa using hold⟩)
    exact mem_filterMap.mpr ⟨r, hr, hc⟩

variable {w}

theorem UndoSound.tasks (h : UndoSound w) (hreadable : PayloadsReadable db) :
    UndoSound (w.setTasks db) :=
  ⟨hreadable, remembered_setTasks w db, h.originals, h.once⟩

variable {original} {undoCommandType : String}

theorem readable_findOriginal {id : String} {now deliveredAt now' : Stamp} (h : PayloadsReadable db)
    (hfound : findOriginal env commandId now db =
      .found id original undoCommandType deliveredAt now') :
    Readable (payloadText original) := by
  unfold findOriginal at hfound
  split at hfound
  · cases hfound
  rename_i task htask
  split at hfound
  · rename_i hkind _ _
    split at hfound
    · cases hfound
    split at hfound
    · cases hfound
    split at hfound
    · cases hfound
    cases hfound
    obtain ⟨r, hr, rfl⟩ := map_eq_some_iff.mp htask
    exact h _ _ r (Durable.find_of_mem (Table.mem_of_find? hr)) hkind
  · cases hfound

/-- A request that has just been found is not about to submit. -/
theorem pending_findOriginal (env : UndoEnv) (commandId : String) (now : Stamp)
    (db : Durable.Db) : (findOriginal env commandId now db).pending = none := by
  unfold findOriginal
  repeat' split
  all_goals rfl

/-! ## Look-ups -/

variable {excludeTaskId : String} {r : Durable.Row} {payload : String} {after : Stamp}

theorem completionOf_laterMatch {target : Option (List String × String)}
    {commandType : Option String}
    (h : laterMatch payload after excludeTaskId target commandType r = true) :
    ∃ at', after < at' ∧ r.ownerId = Durable.DEFAULT_PRINCIPAL_ID ∧
      r.taskId ≠ excludeTaskId ∧
      completionOf r = some ⟨r.ownerId, r.taskId, r.commandType, r.commandId,
        r.context.commandPayload, at'⟩ := by
  simp only [laterMatch, Bool.and_eq_true, beq_iff_eq, bne_iff_ne, Option.any_eq_true,
    decide_eq_true_eq] at h
  obtain ⟨⟨⟨⟨⟨howner, hkind⟩, hstatus⟩, -⟩, htask⟩, at', hat, hlater⟩ := h
  refine ⟨at', hlater, howner, htask, ?_⟩
  rw [completionOf, if_pos ⟨hkind, hstatus⟩, hat]
  rfl

variable {value : String} {key : List String}

theorem field_of_laterMatch {type : String}
    (h : laterMatch payload after excludeTaskId (some (key, value)) (some type) r = true) :
    jsonExtract r.context.commandPayload key = some value ∧ r.commandType = some type := by
  simp only [laterMatch, Bool.and_eq_true, beq_iff_eq, all_some] at h
  obtain ⟨⟨⟨-, hextract, htype⟩, -⟩, -⟩ := h
  exact ⟨hextract, htype⟩

theorem mem_of_targetField {payload : Json} (h : targetField payload = some (key, value))
    : key ∈ TARGET_KEYS := by
  obtain ⟨key', hkey', heq⟩ := exists_of_findSome?_eq_some h
  obtain ⟨value', -, hpair⟩ := map_eq_some_iff.mp heq
  cases hpair
  exact hkey'

variable {fields : List (String × Json)}

/-- **What the look-up tells.**  A later command that it finds by the field of the target
did change the target. -/
theorem told_named {deliveredAt : Stamp} (hremembered : Remembered w)
    (hloads : loads (payloadText original) = some (.obj fields))
    (hnamed : (targetField (.obj fields)).isSome)
    (htold : isSuperseded original fields deliveredAt w.tasks = true) :
    changedLater w original deliveredAt = true := by
  obtain ⟨⟨key, value⟩, hfield⟩ := isSome_iff_exists.mp hnamed
  obtain ⟨r, hr, hmatch⟩ := any_eq_true.mp htold
  rw [hfield] at hmatch
  obtain ⟨at', hlater, howner, htask, hcompletion⟩ := completionOf_laterMatch hmatch
  obtain ⟨hextract, htype⟩ := field_of_laterMatch hmatch
  have hname : targetName original w.receipts = some value := by
    rw [targetName, hloads, bind_some, hfield]
    rfl
  have hnames : names r.context.commandPayload value = true :=
    any_eq_true.mpr ⟨key, mem_of_targetField hfield, beq_iff_eq.mpr hextract⟩
  have hfamily : family r.commandType = family original.commandType := by
    rw [htype]
    rfl
  refine any_eq_true.mpr ⟨_, hremembered r hr _ hcompletion, ?_⟩
  simp [Completion.changes, hname, hnames, hfamily, howner, htask, hlater]

variable {deliveredAt now : Stamp}

theorem judge_allowed_iff (hloads : loads (payloadText original) = some (.obj fields)) :
    judge commandId original undoCommandType deliveredAt now db =
        .allowed commandId original undoCommandType ↔
      now - deliveredAt < UNDO_WINDOW ∧
        isSuperseded original fields deliveredAt db = false := by
  rw [and_comm, ← allowed_decideUndo, judge, hloads]
  dsimp only
  split
  · rename_i hallowed
    exact iff_of_true rfl hallowed
  · rename_i hrefused
    exact iff_of_false (fun h => nomatch h) hrefused

theorem judge_ne_found (commandId undoCommandType : String) (original : DurableTask)
    (deliveredAt now : Stamp) (db : Durable.Db) (id : String) (task : DurableTask)
    (type : String) (at' now' : Stamp) :
    judge commandId original undoCommandType deliveredAt now db ≠
      .found id task type at' now' := by
  unfold judge
  split
  · dsimp only
    split
    · exact fun h => nomatch h
    · exact fun h => nomatch h
  · exact fun h => nomatch h

/-- A request that is not let through is not about to submit. -/
theorem pending_judge
    (h : judge commandId original undoCommandType deliveredAt now db ≠
      .allowed commandId original undoCommandType) :
    (judge commandId original undoCommandType deliveredAt now db).pending = none := by
  cases hloads : loads (payloadText original) with
  | none =>
    rw [judge, hloads]
    rfl
  | some payload =>
    cases payload with
    | obj fields =>
      have hrefused : (decideUndo (now - deliveredAt)
          (isSuperseded original fields deliveredAt db)).allowed ≠ true := fun hallowed =>
        h ((judge_allowed_iff hloads).mpr ((allowed_decideUndo _ _).mp hallowed).symm)
      rw [judge, hloads]
      dsimp only
      rw [if_neg hrefused]
      rfl
    | _ =>
      rw [judge, hloads]
      rfl

/-! ## Runs -/

variable {i : Nat}

theorem UndoSound.originals_set (h : UndoSound w) {after : UndoRequest}
    (hafter : ∀ id task type at' now', after ≠ .found id task type at' now') (commandId : String)
    (original : DurableTask) (undoCommandType : String) (deliveredAt now : Stamp)
    (hmem : .found commandId original undoCommandType deliveredAt now ∈
      w.requests.set i after) : Readable (payloadText original) := by
  rcases mem_or_eq_of_mem_set hmem with hold | hnew
  · exact h.originals commandId original undoCommandType deliveredAt now hold
  · exact absurd hnew.symm (hafter commandId original undoCommandType deliveredAt now)

/-- A look-up that lets its request through has told it that its command has no reverse,
submitted or pending. -/
theorem fresh_of_toldApart (h : UndoSound w)
    (hi : w.requests[i]? = some (.found commandId original undoCommandType deliveredAt now))
    (htold : toldApart env w (.lookup i) = true)
    (hallowed : judge commandId original undoCommandType deliveredAt now w.tasks =
      .allowed commandId original undoCommandType) :
    commandId ∉ w.reverses.map Prod.fst ++ w.requests.filterMap UndoRequest.pending := by
  obtain ⟨fields, hloads⟩ := h.originals _ _ _ _ _ (mem_of_getElem? hi)
  obtain ⟨hwithin, hnone⟩ := (judge_allowed_iff hloads).mp hallowed
  have hopen : decide (UNDO_WINDOW ≤ now - deliveredAt) = false :=
    decide_eq_false (Int.not_le.mpr hwithin)
  simp only [toldApart, hi, hloads, hopen, hnone, Bool.false_or, Bool.false_eq_true,
    if_false, Bool.and_eq_true, decide_eq_true_eq] at htold
  exact htold.2

variable {op : UndoOp}

/-- **The step lemma.** -/
theorem undoSound_step (h : UndoSound w) (htold : toldApart env w op = true) :
    UndoSound (undoStep env w op) := by
  cases op <;> simp only [undoStep]
  case submit commandId commandType text requesterKind authorityGrantId now =>
    split
    · exact h
    · rename_i hsubmit
      exact h.tasks (h.readable.submitRow hsubmit)
  case store op =>
    split
    · rename_i hfree
      exact h.tasks (h.readable.step hfree)
    · exact h
  case receipt commandId commandType undoPayload =>
    exact ⟨h.readable, h.remembered, h.originals, h.once⟩
  case request commandId now =>
    refine ⟨h.readable, h.remembered, fun id original type deliveredAt now' hmem => ?_,
      h.once.join (pending_findOriginal ..)⟩
    rcases mem_snoc.mp hmem with hold | hnew
    · exact h.originals id original type deliveredAt now' hold
    · exact readable_findOriginal h.readable hnew.symm
  case lookup i =>
    split
    · rename_i commandId original undoCommandType deliveredAt now hi
      refine ⟨h.readable, h.remembered, h.originals_set (judge_ne_found _ _ _ _ _ _), ?_⟩
      by_cases hallowed : judge commandId original undoCommandType deliveredAt now
          w.tasks = .allowed commandId original undoCommandType
      · have hfresh := fresh_of_toldApart h hi htold hallowed
        exact h.once.enter hi rfl (by rw [hallowed]; rfl) hfresh
      · exact h.once.idle hi (pending_judge hallowed)
    · exact h
  case resubmit i newId requesterKind now =>
    split
    · rename_i commandId original undoCommandType hi
      split
      · rename_i hnone
        simp only [toldApart, hi, hnone] at htold
        cases htold
      · rename_i db hsubmit
        have hafter : ∀ id task type at' now', UndoRequest.submitted newId ≠
            .found id task type at' now' := fun _ _ _ _ _ hfound => nomatch hfound
        refine ⟨h.readable.submitRow hsubmit, remembered_setTasks w db,
          h.originals_set hafter, ?_⟩
        rw [map_append]
        exact h.once.finish hi rfl rfl
    · exact h

/-- A look-up that tells all decides as the law says. -/
theorem judge_lawful (h : UndoSound w)
    (hi : w.requests[i]? = some (.found commandId original undoCommandType deliveredAt now))
    (htold : toldApart env w (.lookup i) = true) :
    judge commandId original undoCommandType deliveredAt now w.tasks =
        .allowed commandId original undoCommandType ↔
      now - deliveredAt < UNDO_WINDOW ∧ changedLater w original deliveredAt = false := by
  obtain ⟨fields, hloads⟩ := h.originals _ _ _ _ _ (mem_of_getElem? hi)
  rw [judge_allowed_iff hloads]
  refine and_congr_right fun hwithin => ?_
  have hopen : decide (UNDO_WINDOW ≤ now - deliveredAt) = false :=
    decide_eq_false (Int.not_le.mpr hwithin)
  simp only [toldApart, hi, hloads, hopen, Bool.false_or] at htold
  cases hsuperseded : isSuperseded original fields deliveredAt w.tasks with
  | true =>
    rw [hsuperseded, if_pos rfl] at htold
    have hchanged : changedLater w original deliveredAt = true := by
      rcases (Bool.or_eq_true _ _).mp htold with hnamed | hchanged
      · exact told_named h.remembered hloads hnamed hsuperseded
      · exact hchanged
    rw [hchanged]
  | false =>
    rw [hsuperseded] at htold
    have hchanged : changedLater w original deliveredAt = false := by
      simpa using ((Bool.and_eq_true _ _).mp htold).1
    rw [hchanged]

theorem lawful_of_sound (h : UndoSound w) (htold : toldApart env w op = true) :
    lawful env w op = true := by
  cases op with
  | lookup i =>
    simp only [lawful]
    split
    · rename_i commandId original undoCommandType deliveredAt now hi
      have hlt := (List.getElem?_eq_some_iff.mp hi).1
      have hnext : (undoStep env w (.lookup i)).requests[i]? =
          some (judge commandId original undoCommandType deliveredAt now w.tasks) := by
        simp only [undoStep, hi]
        exact List.getElem?_set_self hlt
      have hlaw := judge_lawful h hi htold
      simp [hnext, hlaw]
    · rfl
  | resubmit i newId requesterKind now =>
    simp only [lawful]
    split
    · rename_i commandId original undoCommandType hi
      rw [toldApart, hi] at htold
      obtain ⟨db, hsubmit⟩ := isSome_iff_exists.mp htold
      exact decide_eq_true ⟨h.once.not_mem hi rfl, by simp only [undoStep, hi, hsubmit]⟩
    · rfl
  | _ => rfl

/-- **The undo law.**  Whatever completes, on whatever targets, and whatever is undone, in
whatever order: a request is let through exactly if its command completed less than 24
hours before and no command that completed later changed its target, and goes on to submit
the reverse command; and no command has its reverse submitted twice, as long as the
look-ups tell what they are to. -/
theorem undo_once (env : UndoEnv) (ops : List UndoOp)
    (h : Meets (undoStep env) (fun w op => toldApart env w op = true) .fresh ops) :
    Meets (undoStep env) (fun w op => lawful env w op = true) .fresh ops ∧
      Along (undoStep env) (fun w => (w.reverses.map Prod.fst).Nodup) .fresh ops := by
  have hstep : ∀ w op, UndoSound w → toldApart env w op = true →
      UndoSound (undoStep env w op) := fun _ _ hsound htold => undoSound_step hsound htold
  refine ⟨meets_of_meets hstep (fun _ _ hsound htold => lawful_of_sound hsound htold)
    undoSound_fresh h, ?_⟩
  exact (along_of_meets hstep undoSound_fresh h).mono fun w hsound => hsound.once.nodup

/-! ## A job that is resumed -/

/-- `JobLifecyclePayload`, of a text as it dumps one. -/
def jobLifecyclePayload (text : String) : Option Payload :=
  match loads text with
  | some (.obj [("job_id", .str jobId)]) =>
    if jobId = "" then none
    else some ⟨text, dumps (.obj [("job_id", .str jobId)])⟩
  | _ => none

def lifecycleSpec (undoCommandType : String) : CommandSpec where
  payloadModel := jobLifecyclePayload
  severity := .write
  reversible := true
  undoCommandType := some undoCommandType
  undo_matches_reversible := rfl

/-- The pair of commands that pause a job and resume it. -/
def lifecycleEnv : UndoEnv where
  commands :=
    { spec := fun commandType =>
        if commandType = "scheduling.pause_job" then
          some (lifecycleSpec "scheduling.resume_job")
        else if commandType = "scheduling.resume_job" then
          some (lifecycleSpec "scheduling.pause_job")
        else none
      hasHandler := fun commandType =>
        commandType = "scheduling.pause_job" ∨ commandType = "scheduling.resume_job" }
  dumps := by
    intro type spec text payload hspec hpayload
    have hmodel : spec.payloadModel = jobLifecyclePayload := by
      dsimp only at hspec
      split at hspec
      · cases hspec
        rfl
      · split at hspec
        · cases hspec
          rfl
        · cases hspec
    rw [hmodel, jobLifecyclePayload] at hpayload
    split at hpayload
    · rename_i hloads
      split at hpayload
      · cases hpayload
      · cases hpayload
        exact ⟨_, hloads⟩
    · cases hpayload

def complete (commandId : String) (now : Stamp) : List UndoOp :=
  [.store (.claim Durable.DEFAULT_PRINCIPAL_ID ("cmd-" ++ commandId) "inline" 900 now),
    .store (.markDelivered Durable.DEFAULT_PRINCIPAL_ID ("cmd-" ++ commandId)
      "command completed" (now + 1))]

def pausedAndUndone : List UndoOp :=
  [.submit "p" "scheduling.pause_job" "\x7b\"job_id\":\"job-1\"\x7d" "owner" none 0] ++
    complete "p" 1 ++ [.request "p" 10, .lookup 0, .resubmit 0 "r" "owner" 11]

/-- A pause is undone. -/
theorem paused_job_undone :
    Meets (undoStep lifecycleEnv) (fun w op => lawful lifecycleEnv w op = true) .fresh
        pausedAndUndone ∧
      (run (undoStep lifecycleEnv) .fresh pausedAndUndone).reverses = [("p", "r")] :=
  ⟨(undo_once lifecycleEnv pausedAndUndone (by decide +kernel)).1, by decide +kernel⟩

/-- The job is resumed by the undo, and the pause is undone again. -/
def pausedAndUndoneTwice : List UndoOp :=
  pausedAndUndone ++ complete "r" 12 ++
    [.request "p" 20, .lookup 1, .resubmit 1 "s" "owner" 21]

/-- The second request is let through although the job was resumed after its pause, and
submits a second reverse command. -/
theorem paused_job_undone_twice :
    ¬ Meets (undoStep lifecycleEnv) (fun w op => lawful lifecycleEnv w op = true) .fresh
        pausedAndUndoneTwice ∧
      (run (undoStep lifecycleEnv) .fresh pausedAndUndoneTwice).history.map
        (fun c => (c.commandType, c.payload, c.deliveredAt)) =
          [(some "scheduling.pause_job", some "\x7b\"job_id\":\"job-1\"\x7d", 2),
            (some "scheduling.resume_job", some "\x7b\"job_id\":\"job-1\"\x7d", 13)] ∧
      (run (undoStep lifecycleEnv) .fresh pausedAndUndoneTwice).reverses =
        [("p", "r"), ("p", "s")] := by
  decide +kernel

end StackOwl.Commands
