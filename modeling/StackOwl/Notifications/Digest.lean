import StackOwl.Lib.Run
import StackOwl.Lib.Table

/-!
# The digest of batched notifications

`NotificationDigestJob` (`notifications/digest_job.py`), and what
`NotificationRouter._apply_decision` and `write_log_row` write for it.  The router puts a
batched notification into `notification_queue` and then files it in `notification_log`,
where the notification id is the primary key.  A tick selects the rows that are due and
flushes one after the other.

Each statement and each transport is one step, which may fail, and the process may stop
between any two of them; the router goes on between the steps of a tick.  Beside the
tables stand the ids filed so far, the ids whose transport reported success, those whose
tick went on to its log write, and those whose flush was completed; nothing reads these.

Instants are integers.  Whether the job has a deliverer is a parameter.

## Main results

* `flushed_once` — where the log has room for the row a tick writes, a notification is
  flushed once, and leaves the queue transported or with its body in the outbox.
* `batched_row_blocks_guard` — the row of the router takes that room.
-/

namespace StackOwl.Notifications

open Lib List Option

/-! ## Tables -/

inductive DeliveryStatus where
  | delivered
  | batched
  | suppressed
  | failed
  deriving DecidableEq

inductive Urgency where
  | critical
  | normal
  | low
  deriving DecidableEq

structure QueueRow where
  notificationId : String
  messageHash : String
  urgency : Urgency
  category : String
  channel : String
  jobId : Option String := none
  scheduledFor : Int
  message : Option String
  attempts : Nat := 0

structure LogRow where
  notificationId : String
  urgency : Urgency
  category : String
  channel : String
  jobId : Option String
  deliveryStatus : DeliveryStatus
  createdAt : Int
  deliveredAt : Option Int
  messageHash : String

structure OutboxRow where
  identityKey : String
  body : String
  reason : String
  channel : Option String
  category : Option String
  urgency : Option Urgency
  jobId : Option String

abbrev QueueTable := Table QueueRow String [fun r => some r.notificationId]

abbrev LogTable := Table LogRow String [fun r => some r.notificationId]

def DEFAULT_PRINCIPAL_ID : String := "principal-default"

def MAX_FLUSH_ATTEMPTS : Nat := 5

/-- `_DELETE_QUEUE_SQL`. -/
def deleteQueue (notificationId : String) (queue : QueueTable) : QueueTable :=
  queue.deleteWhere fun r => r.notificationId == notificationId

/-- `_BUMP_ATTEMPTS_SQL`. -/
def bumpAttempts (attempts : Nat) (notificationId : String) (queue : QueueTable) : QueueTable :=
  (queue.updateWhere (fun r => r.notificationId == notificationId)
    fun r => { r with attempts }).getD queue

/-- `_SELECT_DUE_SQL`. -/
def selectDue (now : Int) (queue : QueueTable) : List QueueRow :=
  orderBy QueueRow.scheduledFor (queue.rows.filter fun r => decide (r.scheduledFor ≤ now))

/-- `write_log_row`: an insert that fails, or whose id is taken, is passed over. -/
def writeLogRow (ok : Bool) (row : LogRow) (log : LogTable) : LogTable :=
  if ok then (log.insert row).getD log else log

def LogTable.status (log : LogTable) (notificationId : String) : Option DeliveryStatus :=
  (log.find? fun r => r.notificationId == notificationId).map LogRow.deliveryStatus

def QueueRow.logRow (r : QueueRow) (deliveryStatus : DeliveryStatus) (createdAt : Int)
    (deliveredAt : Option Int) : LogRow where
  notificationId := r.notificationId
  urgency := r.urgency
  category := r.category
  channel := r.channel
  jobId := r.jobId
  deliveryStatus := deliveryStatus
  createdAt := createdAt
  deliveredAt := deliveredAt
  messageHash := r.messageHash

/-- What the outbox records of a notification that is given up. -/
def QueueRow.deadLetter (r : QueueRow) (body : String) : OutboxRow where
  identityKey := DEFAULT_PRINCIPAL_ID
  body := body
  reason := "transport_failed"
  channel := some r.channel
  category := some r.category
  urgency := some r.urgency
  jobId := r.jobId

/-! ## Ticks -/

/-- What `_submit_deliver_digest` reports, or that it raises. -/
inductive Transport where
  | delivered
  | pendingApproval
  | failed
  | raised
  deriving DecidableEq

/-- Where `_flush_row` is: before the statement, or the transport, that is named. -/
inductive Stage where
  | check
  | reconcile
  | transport
  | logDelivered
  | deleteDelivered
  | logFailed
  | outbox
  | deleteFailed
  | bump
  deriving DecidableEq

/-- A tick under way: its instant, the row it flushes with those still to come, and where it
is. -/
structure Tick where
  now : Int
  row : QueueRow
  rest : List QueueRow
  stage : Stage := .check

/-- The tables, the tick under way, the batched rows the router has still to file, and what
has happened.  An outbox row stands with the notification it was recorded for, which is not in
the table. -/
structure DigestWorld where
  queue : QueueTable := ⟨[], by simp⟩
  log : LogTable := ⟨[], by simp⟩
  outbox : List (String × OutboxRow) := []
  tick : Option Tick := none
  unfiled : List LogRow := []
  ids : List String := []
  sent : List String := []
  toLog : List String := []
  completed : List String := []

def Tick.next (t : Tick) : Option Tick :=
  match t.rest with
  | [] => none
  | row :: rest => some { t with row, rest, stage := .check }

namespace DigestWorld

def goTo (w : DigestWorld) (t : Tick) (stage : Stage) : DigestWorld :=
  { w with tick := some { t with stage } }

def done (w : DigestWorld) (t : Tick) : DigestWorld :=
  { w with tick := t.next }

section
variable (hasDeliverer : Bool)

/-- The next statement, or the transport, of the tick under way. -/
def proceed (w : DigestWorld) (t : Tick) (ok : Bool) (transport : Transport) : DigestWorld :=
  let r := t.row
  match t.stage with
  | .check =>
    if ok && w.log.status r.notificationId == some .delivered then w.goTo t .reconcile
    else if r.message.isSome && hasDeliverer then w.goTo t .transport
    else w.goTo t .logDelivered
  | .reconcile =>
    if ok then
      { w.done t with
        queue := deleteQueue r.notificationId w.queue
        completed := w.completed ++ [r.notificationId] }
    else w.done t
  | .transport =>
    match transport with
    | .delivered => { w.goTo t .logDelivered with sent := w.sent ++ [r.notificationId] }
    | .pendingApproval => w.done t
    | .failed => w.goTo t (if MAX_FLUSH_ATTEMPTS ≤ r.attempts + 1 then .logFailed else .bump)
    | .raised => { w with tick := none }
  | .logDelivered =>
    { w.goTo t .deleteDelivered with
      log := writeLogRow ok (r.logRow .delivered t.now (some t.now)) w.log
      toLog := w.toLog ++ [r.notificationId] }
  | .deleteDelivered =>
    if ok then
      { w.done t with
        queue := deleteQueue r.notificationId w.queue
        completed := w.completed ++ [r.notificationId] }
    else w.done t
  | .logFailed =>
    { w.goTo t .outbox with log := writeLogRow ok (r.logRow .failed t.now none) w.log }
  | .outbox =>
    match r.message with
    | some body =>
      if ok && body != "" then
        { w.goTo t .deleteFailed with
          outbox := w.outbox ++ [(r.notificationId, r.deadLetter body)] }
      else w.goTo t .deleteFailed
    | none => w.goTo t .deleteFailed
  | .deleteFailed =>
    if ok then { w.done t with queue := deleteQueue r.notificationId w.queue } else w.done t
  | .bump =>
    if ok then
      { w.done t with queue := bumpAttempts (r.attempts + 1) r.notificationId w.queue }
    else w.done t

end

end DigestWorld

/-- One thing that can happen next. -/
inductive DigestOp where
  /-- The router queues a notification it batches, unless the insert fails. -/
  | enqueue (row : QueueRow) (body : String) (createdAt : Int) (ok : Bool)
  /-- The router files a batched notification. -/
  | fileBatched (i : Nat) (ok : Bool)
  /-- The router files a notification it has not batched. -/
  | file (row : LogRow) (ok : Bool)
  /-- A tick selects the rows that are due. -/
  | tick (now : Int) (ok : Bool)
  | proceed (ok : Bool) (transport : Transport)
  /-- The process stops. -/
  | stop

def digestStep (hasDeliverer : Bool) (w : DigestWorld) : DigestOp → DigestWorld
  | .enqueue row body createdAt ok =>
    let row := { row with message := some body, attempts := 0 }
    match ok, w.queue.insert row with
    | true, some queue =>
      { w with
        queue
        unfiled := w.unfiled ++ [row.logRow .batched createdAt none]
        ids := w.ids ++ [row.notificationId] }
    | _, _ => w
  | .fileBatched i ok =>
    match w.unfiled[i]? with
    | some row => { w with log := writeLogRow ok row w.log, unfiled := w.unfiled.eraseIdx i }
    | none => w
  | .file row ok =>
    { w with log := writeLogRow ok row w.log, ids := w.ids ++ [row.notificationId] }
  | .tick now ok =>
    match w.tick, ok, selectDue now w.queue with
    | none, true, row :: rest => { w with tick := some { now, row, rest } }
    | _, _, _ => w
  | .proceed ok transport =>
    match w.tick with
    | some t => w.proceed hasDeliverer t ok transport
    | none => w
  | .stop => { w with tick := none, unfiled := [] }

/-! ## What the tables say -/

variable {queue : QueueTable}

theorem queue_eq {r r' : QueueRow} (hr : r ∈ queue.rows) (hr' : r' ∈ queue.rows)
    (h : r.notificationId = r'.notificationId) : r = r' :=
  queue.eq_of_key mem_cons_self hr hr' rfl (congrArg some h.symm)

variable {log : LogTable}

theorem log_status {row : LogRow} (h : row ∈ log.rows) :
    log.status row.notificationId = some row.deliveryStatus := by
  unfold LogTable.status
  cases hfind : log.find? fun r => r.notificationId == row.notificationId with
  | none =>
    have hnone := find?_eq_none.mp hfind row h
    simp at hnone
  | some found =>
    have hid : found.notificationId = row.notificationId := by
      simpa using Table.sat_of_find? hfind
    have hsame : found = row := log.eq_of_key mem_cons_self
      (Table.mem_of_find? hfind) h rfl (congrArg some hid.symm)
    rw [hsame, map_some]

variable {id : String}

theorem status_eq_some {status : DeliveryStatus} (h : log.status id = some status) :
    ∃ row ∈ log.rows, row.notificationId = id ∧ row.deliveryStatus = status := by
  obtain ⟨row, hfind, hstatus⟩ := map_eq_some_iff.mp h
  exact ⟨row, Table.mem_of_find? hfind, by simpa using Table.sat_of_find? hfind, hstatus⟩

/-- A written row is read back under its id where none stood; all else stays. -/
theorem status_writeLogRow (ok : Bool) (row : LogRow) (log : LogTable) (id : String) :
    (writeLogRow ok row log).status id =
      if ok = true ∧ id = row.notificationId ∧ log.status id = none then
        some row.deliveryStatus
      else log.status id := by
  unfold writeLogRow
  cases ok with
  | false => simp
  | true =>
    simp only [if_true, true_and]
    cases hinsert : log.insert row with
    | none =>
      rw [getD_none, if_neg]
      rintro ⟨rfl, hnone⟩
      have hfree : ∃ t', log.insert row = some t' := by
        refine Table.insert_isSome fun key hkey s hs i hi => ?_
        obtain rfl := mem_singleton.mp hkey
        intro hsi
        cases hi
        have hstatus := log_status hs
        rw [some.inj hsi, hnone] at hstatus
        cases hstatus
      obtain ⟨t', ht'⟩ := hfree
      rw [hinsert] at ht'
      cases ht'
    | some t' =>
      have hnone : log.status row.notificationId = none := by
        unfold LogTable.status
        rw [Table.find?_none_of_insert hinsert mem_cons_self
          (fun s hs => congrArg some (by simpa using hs)) rfl, map_none]
      rw [getD_some]
      unfold LogTable.status
      rw [Table.find?_insert hinsert]
      by_cases hid : id = row.notificationId
      · subst hid
        have hfind : log.find? (fun r => r.notificationId == row.notificationId) = none := by
          simpa [LogTable.status] using hnone
        simp [hfind]
      · have hne : (row.notificationId == id) = false := by
          simpa using fun h => hid h.symm
        simp [hne, hid]

theorem status_writeLogRow_of_ne_none {status : DeliveryStatus} (h : log.status id = some status)
    (ok : Bool) (row : LogRow) :
    (writeLogRow ok row log).status id = some status := by
  rw [status_writeLogRow, if_neg, h]
  rintro ⟨-, -, hnone⟩
  rw [h] at hnone
  cases hnone

variable {ok : Bool}

theorem mem_writeLogRow {row row' : LogRow} (h : row' ∈ (writeLogRow ok row log).rows) :
    row' ∈ log.rows ∨ row' = row := by
  unfold writeLogRow at h
  split at h
  · cases hinsert : log.insert row with
    | none =>
      rw [hinsert] at h
      exact .inl h
    | some t' =>
      rw [hinsert, getD_some, Table.rows_insert hinsert] at h
      exact (mem_append.mp h).imp id mem_singleton.mp
  · exact .inl h

variable {r : QueueRow}

theorem mem_deleteQueue :
    r ∈ (deleteQueue id queue).rows ↔ r ∈ queue.rows ∧ r.notificationId ≠ id := by
  unfold deleteQueue
  rw [Table.rows_deleteWhere, mem_filter]
  simp

theorem rows_bumpAttempts (attempts : Nat) (id : String) (queue : QueueTable) :
    (bumpAttempts attempts id queue).rows =
      queue.rows.map (patch (fun r => r.notificationId == id) fun r => { r with attempts }) := by
  unfold bumpAttempts
  have hkeys : ∀ r : QueueRow, (r.notificationId == id) = true →
      ∀ key ∈ [fun r : QueueRow => some r.notificationId],
        key { r with attempts } = key r ∨ key { r with attempts } = none := by
    intro r _ key hkey
    obtain rfl := mem_singleton.mp hkey
    exact .inl rfl
  obtain ⟨t', ht'⟩ := queue.updateWhere_isSome hkeys
  rw [ht', getD_some, Table.rows_updateWhere ht']

theorem mem_bumpAttempts {attempts : Nat} (h : r ∈ (bumpAttempts attempts id queue).rows) :
    ∃ r₀ ∈ queue.rows, r.notificationId = r₀.notificationId ∧ r.message = r₀.message := by
  rw [rows_bumpAttempts] at h
  obtain ⟨r₀, hr₀, rfl⟩ := mem_map.mp h
  refine ⟨r₀, hr₀, ?_⟩
  unfold patch
  split <;> exact ⟨rfl, rfl⟩

theorem mem_bumpAttempts_of_mem (attempts : Nat) (h : r ∈ queue.rows) :
    ∃ r' ∈ (bumpAttempts attempts id queue).rows, r'.notificationId = r.notificationId ∧
      (r.notificationId ≠ id → r' = r) := by
  rw [rows_bumpAttempts]
  refine ⟨_, mem_map_of_mem h, ?_, fun hne => ?_⟩
  · unfold patch
    split <;> rfl
  · exact patch_of_false (by simpa using hne)

theorem selectDue_spec (now : Int) (queue : QueueTable) :
    (∀ r ∈ selectDue now queue, r ∈ queue.rows) ∧
      ((selectDue now queue).map QueueRow.notificationId).Nodup := by
  constructor
  · intro r hr
    exact (mem_filter.mp (mem_orderBy.mp hr)).1
  · have hall : (queue.rows.map QueueRow.notificationId).Nodup := by
      rw [← filterMap_eq_map]
      exact queue.unique _ mem_cons_self
    refine (List.Perm.map _ (perm_insertionSort _ _)).nodup_iff.mpr ?_
    exact hall.sublist (filter_sublist.map _)

/-! ## What a step does -/

def DigestOp.newId : DigestOp → Option String
  | .enqueue row _ _ _ => some row.notificationId
  | .file row _ => some row.notificationId
  | _ => none

/-- What a step can do to the log, the queue, the outbox and the ids. -/
inductive Effect (w : DigestWorld) (op : DigestOp) : DigestWorld → Prop
  | nothing {tick unfiled sent toLog completed} :
    Effect w op { w with tick, unfiled, sent, toLog, completed }
  | writes {ok row tick unfiled toLog} :
    Effect w op { w with log := writeLogRow ok row w.log, tick, unfiled, toLog }
  | files {ok row} (hnew : op.newId = some row.notificationId) :
    Effect w op
      { w with log := writeLogRow ok row w.log, ids := w.ids ++ [row.notificationId] }
  | queues {row id queue unfiled} (hinsert : w.queue.insert row = some queue)
      (hid : row.notificationId = id) (hnew : op.newId = some id) :
    Effect w op { w with queue, unfiled, ids := w.ids ++ [id] }
  | deletes {t tick completed} (ht : t ∈ w.tick)
      (hstage : t.stage = .reconcile ∨ t.stage = .deleteDelivered ∨ t.stage = .deleteFailed) :
    Effect w op { w with queue := deleteQueue t.row.notificationId w.queue, tick, completed }
  | bumps {t tick} (ht : t ∈ w.tick) :
    Effect w op
      { w with queue := bumpAttempts (t.row.attempts + 1) t.row.notificationId w.queue, tick }
  | records {t body tick} (ht : t ∈ w.tick) (hstage : t.stage = .outbox) :
    Effect w op
      { w with outbox := w.outbox ++ [(t.row.notificationId, t.row.deadLetter body)], tick }

theorem digestStep_effect (hasDeliverer : Bool) (w : DigestWorld) (op : DigestOp) :
    Effect w op (digestStep hasDeliverer w op) := by
  cases op <;> simp only [digestStep]
  case stop => exact .nothing
  case file => exact .files rfl
  case tick => split <;> exact .nothing
  case fileBatched =>
    split
    · exact .writes
    · exact .nothing
  case enqueue =>
    split
    · rename_i hinsert
      exact .queues hinsert rfl rfl
    · exact .nothing
  case proceed ok transport =>
    split
    · rename_i t ht
      unfold DigestWorld.proceed
      cases hs : t.stage <;> dsimp only
      case check =>
        split
        · exact .nothing
        · split <;> exact .nothing
      case transport => split <;> exact .nothing
      case logDelivered | logFailed => exact .writes
      case outbox =>
        split
        · split
          · exact .records ht hs
          · exact .nothing
        · exact .nothing
      case reconcile | deleteDelivered | deleteFailed =>
        split
        · exact .deletes ht (by simp [hs])
        · exact .nothing
      case bump =>
        split
        · exact .bumps ht
        · exact .nothing
    · exact .nothing

/-! ## What is claimed of a run -/

/-- A tick transports no notification whose flush has come to its log write before. -/
def NoResend (w : DigestWorld) : DigestOp → Prop
  | .proceed _ _ => ∀ t ∈ w.tick, t.stage = .transport → t.row.notificationId ∉ w.toLog
  | _ => True

instance (w : DigestWorld) : ∀ op, Decidable (NoResend w op)
  | .proceed _ _ => inferInstanceAs (Decidable (∀ t ∈ w.tick, _ → _))
  | .enqueue .. | .fileBatched .. | .file .. | .tick .. | .stop =>
    isTrue trivial

/-- A notification leaves the queue transported, or recorded with its body in the outbox. -/
def LeavesFlushed (hasDeliverer : Bool) (w : DigestWorld) (op : DigestOp) : Prop :=
  ∀ r ∈ w.queue.rows,
    (∀ r' ∈ (digestStep hasDeliverer w op).queue.rows, r'.notificationId ≠ r.notificationId) →
    r.notificationId ∈ w.sent ∨
      ∃ body, r.message = some body ∧ (r.notificationId, r.deadLetter body) ∈ w.outbox

/-- The log says nothing but 'delivered' of a notification whose flush was completed. -/
def LogTruthful (w : DigestWorld) : Prop :=
  ∀ row ∈ w.log.rows, row.notificationId ∈ w.completed → row.deliveryStatus = .delivered

/-- What a tick may meet at the stage it is at. -/
def StageUnblocked (status : Option DeliveryStatus) (message : Option String) (ok : Bool) :
    Stage → Prop
  | .check => ok = true ∨ status ≠ some .delivered
  | .logDelivered => status = none
  | .deleteDelivered => ok = true ∨ status = some .delivered
  | .outbox => ok = true ∧ message ≠ some ""
  | _ => True

instance (status : Option DeliveryStatus) (message : Option String) (ok : Bool) :
    ∀ stage, Decidable (StageUnblocked status message ok stage)
  | .check | .deleteDelivered => inferInstanceAs (Decidable (_ ∨ _))
  | .logDelivered => inferInstanceAs (Decidable (_ = _))
  | .outbox => inferInstanceAs (Decidable (_ ∧ _))
  | .reconcile | .transport | .logFailed | .deleteFailed | .bump =>
    isTrue trivial

/-- Ids are new; no row stands in the log where a tick comes to write that it has delivered,
nor is a batched one filed behind it; where that write has failed, the row is deleted before
anything stops; the look into the log does not miss a delivery; and a dead letter is
recorded. -/
def Unblocked (w : DigestWorld) : DigestOp → Prop
  | .enqueue row _ _ _ => row.notificationId ∉ w.ids
  | .file row _ => row.notificationId ∉ w.ids
  | .fileBatched i ok => ∀ row ∈ w.unfiled[i]?, ok = true → row.notificationId ∈ w.toLog →
      w.log.status row.notificationId ≠ none
  | .tick _ _ => True
  | .proceed ok _ => ∀ t ∈ w.tick,
      StageUnblocked (w.log.status t.row.notificationId) t.row.message ok t.stage
  | .stop => ∀ t ∈ w.tick, t.stage = .deleteDelivered →
      w.log.status t.row.notificationId = some .delivered

instance (w : DigestWorld) : ∀ op, Decidable (Unblocked w op)
  | .enqueue .. | .file .. => inferInstanceAs (Decidable (_ ∉ _))
  | .fileBatched i _ => inferInstanceAs (Decidable (∀ row ∈ w.unfiled[i]?, _ → _ → _))
  | .tick _ _ => isTrue trivial
  | .proceed .. => inferInstanceAs (Decidable (∀ t ∈ w.tick, StageUnblocked _ _ _ _))
  | .stop => inferInstanceAs (Decidable (∀ t ∈ w.tick, _ → _))

/-! ## The invariant -/

/-- What a tick has found and done, by the stage it is at. -/
def StageHolds (w : DigestWorld) (r : QueueRow) : Stage → Prop
  | .check => True
  | .reconcile => w.log.status r.notificationId = some .delivered
  | .transport | .logFailed | .outbox | .bump => r.notificationId ∉ w.toLog
  | .logDelivered => r.notificationId ∉ w.toLog ∧ r.notificationId ∈ w.sent
  | .deleteDelivered => r.notificationId ∈ w.toLog ∧ r.notificationId ∈ w.sent
  | .deleteFailed => r.notificationId ∉ w.toLog ∧
      ∃ body, r.message = some body ∧ (r.notificationId, r.deadLetter body) ∈ w.outbox

/-- The rows of a tick are queued, each once. -/
structure TickHolds (w : DigestWorld) (t : Tick) : Prop where
  queued : ∀ r ∈ t.row :: t.rest, r ∈ w.queue.rows
  nodup : ((t.row :: t.rest).map QueueRow.notificationId).Nodup
  stage : StageHolds w t.row t.stage

/-- What is filed, queued or under way has an id; what is queued has a body; the log says
'delivered' of a queued notification only if it was sent; and a notification that came to its
log write and is still queued is found in the log, or its tick is about to delete it. -/
structure DigestInv (w : DigestWorld) : Prop where
  tick : ∀ t ∈ w.tick, TickHolds w t
  queueIds : ∀ r ∈ w.queue.rows, r.notificationId ∈ w.ids ∧ r.message.isSome
  logIds : ∀ row ∈ w.log.rows, row.notificationId ∈ w.ids
  unfiledIds : ∀ row ∈ w.unfiled, row.notificationId ∈ w.ids ∧ row.deliveryStatus = .batched
  toLogIds : ∀ id ∈ w.toLog, id ∈ w.ids
  sent : ∀ r ∈ w.queue.rows, w.log.status r.notificationId = some .delivered →
    r.notificationId ∈ w.sent
  logged : ∀ id ∈ w.toLog, w.log.status id = none ∨ w.log.status id = some .delivered
  settled : ∀ r ∈ w.queue.rows, r.notificationId ∈ w.toLog →
    w.log.status r.notificationId = some .delivered ∨
      ∃ t ∈ w.tick, t.stage = .deleteDelivered ∧ t.row.notificationId = r.notificationId
  completed : ∀ id ∈ w.completed, id ∈ w.toLog ∨ w.log.status id = some .delivered

section
variable {w : DigestWorld}

theorem status_eq_none_of_fresh (h : DigestInv w) {id : String} (hid : id ∉ w.ids) :
    w.log.status id = none := by
  cases hstatus : w.log.status id with
  | none => rfl
  | some status =>
    obtain ⟨row, hrow, rfl, -⟩ := status_eq_some hstatus
    exact absurd (h.logIds row hrow) hid

theorem DigestInv.truthful (h : DigestInv w) : LogTruthful w := by
  intro row hrow hcompleted
  have hstatus := log_status hrow
  rcases h.completed _ hcompleted with htoLog | hdelivered
  · rcases h.logged _ htoLog with hnone | hdelivered
    · rw [hstatus] at hnone
      cases hnone
    · exact some.inj (hstatus.symm.trans hdelivered)
  · exact some.inj (hstatus.symm.trans hdelivered)

/-- A tick that comes to its transport, or has passed it, has not been to the log write. -/
theorem DigestInv.noResend (h : DigestInv w) (op : DigestOp) : NoResend w op := by
  cases op with
  | proceed ok transport =>
    intro t ht hstage
    have hholds := (h.tick t ht).stage
    rw [hstage] at hholds
    exact hholds
  | enqueue | fileBatched | file | tick | stop => trivial

variable {t : Tick} {w' : DigestWorld}

/-- The row the tick is at is done with: those to come are still queued. -/
theorem TickHolds.next (h : TickHolds w t)
    (hrest : ∀ r ∈ w.queue.rows, r.notificationId ≠ t.row.notificationId →
      r ∈ w'.queue.rows) : ∀ t' ∈ t.next, TickHolds w' t' := by
  intro t' ht'
  unfold Tick.next at ht'
  split at ht'
  · cases ht'
  · rename_i row rest hsplit
    cases ht'
    have hnodup := h.nodup
    rw [map_cons, nodup_cons, hsplit] at hnodup
    refine ⟨fun r hr => ?_, hnodup.2, trivial⟩
    refine hrest r (h.queued r (mem_cons_of_mem _ (hsplit ▸ hr))) fun hid => ?_
    exact hnodup.1 (hid ▸ mem_map_of_mem hr)

/-- What a tick holds, it holds while its rows stay queued, deliveries stay filed, and nothing
else comes to the log write. -/
theorem TickHolds.mono (h : TickHolds w t) (hqueue : ∀ r ∈ w.queue.rows, r ∈ w'.queue.rows)
    (htoLog : w'.toLog = w.toLog) (hsent : w'.sent = w.sent) (houtbox : w'.outbox = w.outbox)
    (hlog : ∀ id, w.log.status id = some .delivered → w'.log.status id = some .delivered) :
    TickHolds w' t where
  queued r hr := hqueue r (h.queued r hr)
  nodup := h.nodup
  stage := by
    have hstage := h.stage
    cases hs : t.stage <;> rw [hs] at hstage <;>
      simp only [StageHolds, htoLog, hsent, houtbox] at hstage ⊢
    · exact hlog _ hstage
    all_goals exact hstage

/-- A step that writes no log row and queues nothing new keeps the invariant, if its tick is in
order and none leaves a row undeleted whose delivery was not filed. -/
theorem DigestInv.onward (h : DigestInv w) (hlog : w'.log = w.log) (hids : w'.ids = w.ids)
    (hunfiled : ∀ row ∈ w'.unfiled, row ∈ w.unfiled) (htoLog : w'.toLog = w.toLog)
    (hsent : w.sent ⊆ w'.sent)
    (hqueue : ∀ r ∈ w'.queue.rows, ∃ r₀ ∈ w.queue.rows,
      r.notificationId = r₀.notificationId ∧ r.message = r₀.message)
    (hcompleted : ∀ id ∈ w'.completed,
      id ∈ w.completed ∨ id ∈ w.toLog ∨ w.log.status id = some .delivered)
    (htick : ∀ t ∈ w'.tick, TickHolds w' t)
    (hsettled : ∀ t ∈ w.tick, t.stage = .deleteDelivered → ∀ r ∈ w'.queue.rows,
      t.row.notificationId = r.notificationId →
        w.log.status r.notificationId = some .delivered) :
    DigestInv w' where
  tick := htick
  queueIds r hr := by
    obtain ⟨r₀, hr₀, hid, hmessage⟩ := hqueue r hr
    rw [hid, hmessage, hids]
    exact h.queueIds r₀ hr₀
  logIds := by rw [hlog, hids]; exact h.logIds
  unfiledIds row hrow := by rw [hids]; exact h.unfiledIds row (hunfiled row hrow)
  toLogIds := by rw [htoLog, hids]; exact h.toLogIds
  sent r hr hstatus := by
    obtain ⟨r₀, hr₀, hid, -⟩ := hqueue r hr
    rw [hlog] at hstatus
    rw [hid] at hstatus ⊢
    exact hsent (h.sent r₀ hr₀ hstatus)
  logged := by rw [htoLog, hlog]; exact h.logged
  settled r hr hlogged := by
    obtain ⟨r₀, hr₀, hid, -⟩ := hqueue r hr
    rw [htoLog] at hlogged
    rw [hlog]
    left
    rcases h.settled r₀ hr₀ (hid ▸ hlogged) with hdelivered | ⟨t, ht, hstage, hrow⟩
    · rw [hid]
      exact hdelivered
    · exact hsettled t ht hstage r hr (hrow.trans hid.symm)
  completed id hid := by
    rw [htoLog, hlog]
    rcases hcompleted id hid with hold | hnew
    · exact h.completed id hold
    · exact hnew

/-- A log row that is written, or not, keeps the invariant: it reports a delivery only of what
was sent, and no other of what came to its log write. -/
theorem DigestInv.writes (h : DigestInv w) {row : LogRow} (hlog : w'.log = writeLogRow ok row w.log)
    (hqueue : w'.queue = w.queue) (hids : w.ids ⊆ w'.ids) (hrow : row.notificationId ∈ w'.ids)
    (hunfiled : ∀ row ∈ w'.unfiled, row ∈ w.unfiled) (hcompleted : w'.completed = w.completed)
    (hsent : w'.sent = w.sent)
    (hdelivered : row.deliveryStatus = .delivered → ∀ r ∈ w.queue.rows,
      r.notificationId = row.notificationId → row.notificationId ∈ w.sent)
    (htoLog : w'.toLog = w.toLog ∧ (ok = true → row.notificationId ∈ w.toLog →
      w.log.status row.notificationId ≠ none) ∨ w'.toLog = w.toLog ++ [row.notificationId] ∧
      row.deliveryStatus = .delivered ∧ w.log.status row.notificationId = none ∧ ∃ t ∈ w'.tick,
      t.stage = .deleteDelivered ∧ t.row.notificationId = row.notificationId)
    (htick : ∀ t ∈ w'.tick, TickHolds w' t)
    (hkept : ∀ t ∈ w.tick, t.stage = .deleteDelivered → t ∈ w'.tick) :
    DigestInv w' := by
  have hstatus : ∀ id status, w.log.status id = some status → w'.log.status id = some status :=
    fun id status hs => hlog ▸ status_writeLogRow_of_ne_none hs ok row
  have hback : ∀ id, w'.log.status id = w.log.status id ∨
      ok = true ∧ id = row.notificationId ∧ w.log.status id = none ∧
        w'.log.status id = some row.deliveryStatus := by
    intro id
    rw [hlog, status_writeLogRow]
    split
    · rename_i hwritten
      exact .inr ⟨hwritten.1, hwritten.2.1, hwritten.2.2, rfl⟩
    · exact .inl rfl
  have holdLog : ∀ id ∈ w.toLog, id ∈ w'.toLog := by
    intro id hid
    rcases htoLog with ⟨hsame, -⟩ | ⟨hnew, -⟩
    · exact hsame ▸ hid
    · rw [hnew]
      exact mem_append_left _ hid
  refine ⟨htick, ?_, ?_, ?_, ?_, ?_, ?_, ?_, ?_⟩
  · intro r hr
    rw [hqueue] at hr
    exact (h.queueIds r hr).imp (fun hid => hids hid) id
  · intro row' hrow'
    rw [hlog] at hrow'
    rcases mem_writeLogRow hrow' with hold | rfl
    · exact hids (h.logIds row' hold)
    · exact hrow
  · intro row' hrow'
    exact (h.unfiledIds row' (hunfiled row' hrow')).imp (fun hid => hids hid) id
  · intro id hid
    rcases htoLog with ⟨hsame, -⟩ | ⟨hnew, -⟩
    · exact hids (h.toLogIds id (hsame ▸ hid))
    · rw [hnew] at hid
      rcases mem_snoc.mp hid with hold | rfl
      · exact hids (h.toLogIds id hold)
      · exact hrow
  · intro r hr hdel
    rw [hqueue] at hr
    rw [hsent]
    rcases hback r.notificationId with hsame | ⟨-, hid, -, hwritten⟩
    · exact h.sent r hr (hsame ▸ hdel)
    · rw [hwritten] at hdel
      rw [hid]
      exact hdelivered (some.inj hdel) r hr hid
  · intro id hid
    rcases hback id with hsame | ⟨hok, rfl, hnone, hwritten⟩
    · rw [hsame]
      rcases htoLog with ⟨hold, -⟩ | ⟨hnew, -, hnone, -⟩
      · exact h.logged id (hold ▸ hid)
      · rw [hnew] at hid
        rcases mem_snoc.mp hid with hold | hlast
        · exact h.logged id hold
        · left
          rw [hlast]
          exact hnone
    · right
      rcases htoLog with ⟨hold, hblocked⟩ | ⟨-, hdel, -, -⟩
      · exact absurd hnone (hblocked hok (hold ▸ hid))
      · rw [hwritten, hdel]
  · intro r hr hid
    rw [hqueue] at hr
    have holdCase : r.notificationId ∈ w.toLog →
        w'.log.status r.notificationId = some .delivered ∨
          ∃ t ∈ w'.tick, t.stage = .deleteDelivered ∧
            t.row.notificationId = r.notificationId := by
      intro hold
      rcases h.settled r hr hold with hdel | ⟨t, ht, hstage, hrow'⟩
      · exact .inl (hstatus _ _ hdel)
      · exact .inr ⟨t, hkept t ht hstage, hstage, hrow'⟩
    rcases htoLog with ⟨hsame, -⟩ | ⟨hnew, -, -, hat⟩
    · exact holdCase (hsame ▸ hid)
    · rw [hnew] at hid
      rcases mem_snoc.mp hid with hold | hlast
      · exact holdCase hold
      · obtain ⟨t, ht, hstage, hrow'⟩ := hat
        exact .inr ⟨t, ht, hstage, hrow'.trans hlast.symm⟩
  · intro id hid
    rw [hcompleted] at hid
    rcases h.completed id hid with hold | hdel
    · exact .inl (holdLog id hold)
    · exact .inr (hstatus id _ hdel)

theorem mem_deleteQueue_of_ne (hr : r ∈ w.queue.rows)
    (hid : r.notificationId ≠ t.row.notificationId) :
    r ∈ (deleteQueue t.row.notificationId w.queue).rows :=
  mem_deleteQueue.mpr ⟨hr, hid⟩

section

variable (h : DigestInv w) (ht : w.tick = some t)

include h ht

theorem DigestInv.delete {completed : List String}
    (hcompleted : ∀ id ∈ completed, id ∈ w.completed ∨ id ∈ w.toLog ∨
      w.log.status id = some .delivered) :
    DigestInv { w.done t with
      queue := deleteQueue t.row.notificationId w.queue, completed } := by
  refine h.onward rfl rfl (fun _ hrow => hrow) rfl (List.Subset.refl _) ?_ hcompleted ?_ ?_
  · exact fun r hr => ⟨r, (mem_deleteQueue.mp hr).1, rfl, rfl⟩
  · exact (h.tick t ht).next fun r hr hid => mem_deleteQueue_of_ne hr hid
  · intro t' ht' _ r hr hrow
    cases ht.symm.trans ht'
    exact absurd hrow.symm (mem_deleteQueue.mp hr).2

/-- A tick goes on to its next row, its own still queued. -/
theorem DigestInv.done
    (hstage : t.stage = .deleteDelivered → w.log.status t.row.notificationId = some .delivered) :
    DigestInv (w.done t) := by
  refine h.onward rfl rfl (fun _ hrow => hrow) rfl (List.Subset.refl _)
    (fun r hr => ⟨r, hr, rfl, rfl⟩) (fun _ hid => .inl hid)
    ((h.tick t ht).next fun r hr _ => hr) ?_
  intro t' ht' hdelete r _ hrow
  cases ht.symm.trans ht'
  rw [← hrow]
  exact hstage hdelete

theorem DigestInv.goTo (hfrom : t.stage ≠ .deleteDelivered) {stage : Stage} {sent : List String}
    {outbox : List (String × OutboxRow)} (hsent : w.sent ⊆ sent)
    (hstage : StageHolds { w.goTo t stage with sent, outbox } t.row stage) :
    DigestInv { w.goTo t stage with sent, outbox } := by
  refine h.onward rfl rfl (fun _ hrow => hrow) rfl hsent
    (fun r hr => ⟨r, hr, rfl, rfl⟩) (fun _ hid => .inl hid) ?_ ?_
  · intro t' ht'
    cases ht'
    exact ⟨(h.tick t ht).queued, (h.tick t ht).nodup, hstage⟩
  · intro t' ht' hdelete
    cases ht.symm.trans ht'
    exact absurd hdelete hfrom

/-- What is queued, passed the look into the log and is not about to be deleted has not come to
its log write. -/
theorem DigestInv.not_toLog (hstage : t.stage = .check)
    (hstatus : w.log.status t.row.notificationId ≠ some .delivered) :
    t.row.notificationId ∉ w.toLog := by
  intro hid
  have hqueued := (h.tick t ht).queued t.row mem_cons_self
  rcases h.settled t.row hqueued hid with hdelivered | ⟨t', ht', hdelete, -⟩
  · exact hstatus hdelivered
  · cases ht.symm.trans ht'
    rw [hstage] at hdelete
    cases hdelete

theorem DigestInv.proceed (transport : Transport)
    (hok : StageUnblocked (w.log.status t.row.notificationId) t.row.message ok t.stage) :
    DigestInv (w.proceed true t ok transport) := by
  have hold := h.tick t ht
  have hqueued := hold.queued t.row mem_cons_self
  have hstage := hold.stage
  unfold DigestWorld.proceed
  cases hs : t.stage <;> rw [hs] at hstage hok <;> dsimp only
  case check =>
    have hfrom : t.stage ≠ .deleteDelivered := by rw [hs]; decide
    split
    · rename_i hfound
      rw [Bool.and_eq_true, beq_iff_eq] at hfound
      exact h.goTo ht hfrom (List.Subset.refl _) hfound.2
    · rename_i hfound
      have hstatus : w.log.status t.row.notificationId ≠ some .delivered := by
        intro hdelivered
        rcases hok with rfl | hnot
        · simp [hdelivered] at hfound
        · exact hnot hdelivered
      have hbody : t.row.message.isSome = true := (h.queueIds t.row hqueued).2
      rw [hbody]
      exact h.goTo ht hfrom (List.Subset.refl _) (h.not_toLog ht hs hstatus)
  case reconcile =>
    have hnot : t.stage = .deleteDelivered →
        w.log.status t.row.notificationId = some .delivered := fun _ => hstage
    split
    · refine h.delete ht fun id hid => ?_
      rcases mem_snoc.mp hid with hbefore | rfl
      · exact .inl hbefore
      · exact .inr (.inr hstage)
    · exact h.done ht hnot
  case transport =>
    have hfrom : t.stage ≠ .deleteDelivered := by rw [hs]; decide
    cases transport with
    | delivered =>
      exact h.goTo ht hfrom (subset_append_left _ _)
        ⟨hstage, mem_append_right _ mem_cons_self⟩
    | pendingApproval => exact h.done ht fun hdelete => absurd hdelete hfrom
    | failed =>
      refine h.goTo ht hfrom (List.Subset.refl _) ?_
      split <;> exact hstage
    | raised =>
      refine h.onward rfl rfl (fun _ hrow => hrow) rfl (List.Subset.refl _)
        (fun r hr => ⟨r, hr, rfl, rfl⟩) (fun _ hid => .inl hid)
        (fun t' ht' => by cases ht') ?_
      intro t' ht' hdelete
      cases ht.symm.trans ht'
      exact absurd hdelete hfrom
  case logDelivered =>
    refine h.writes rfl rfl (List.Subset.refl _) (h.queueIds t.row hqueued).1
      (fun _ hrow => hrow) rfl rfl (fun _ _ _ _ => hstage.2)
      (.inr ⟨rfl, rfl, hok, _, rfl, rfl, rfl⟩) ?_ ?_
    · intro t' ht'
      cases ht'
      exact ⟨hold.queued, hold.nodup, mem_append_right _ mem_cons_self, hstage.2⟩
    · intro t' ht' hdelete
      cases ht.symm.trans ht'
      rw [hs] at hdelete
      cases hdelete
  case deleteDelivered =>
    split
    · refine h.delete ht fun id hid => ?_
      rcases mem_snoc.mp hid with hbefore | rfl
      · exact .inl hbefore
      · exact .inr (.inl hstage.1)
    · rename_i hfailed
      exact h.done ht fun _ => hok.resolve_left hfailed
  case logFailed =>
    refine h.writes rfl rfl (List.Subset.refl _) (h.queueIds t.row hqueued).1
      (fun _ hrow => hrow) rfl rfl (fun hdelivered => by cases hdelivered)
      (.inl ⟨rfl, fun _ hlogged => absurd hlogged hstage⟩) ?_ ?_
    · intro t' ht'
      cases ht'
      exact ⟨hold.queued, hold.nodup, hstage⟩
    · intro t' ht' hdelete
      cases ht.symm.trans ht'
      rw [hs] at hdelete
      cases hdelete
  case outbox =>
    have hfrom : t.stage ≠ .deleteDelivered := by rw [hs]; decide
    obtain ⟨body, hbody⟩ := isSome_iff_exists.mp (h.queueIds t.row hqueued).2
    have hnonempty : (body != "") = true := by
      have hne := hok.2
      rw [hbody] at hne
      simpa using hne
    rw [hbody]
    dsimp only
    rw [if_pos (by rw [hok.1, hnonempty]; rfl)]
    exact h.goTo ht hfrom (List.Subset.refl _)
      ⟨hstage, body, hbody, mem_append_right _ mem_cons_self⟩
  case deleteFailed =>
    split
    · exact h.delete ht fun _ hid => .inl hid
    · exact h.done ht fun hdelete => by rw [hs] at hdelete; cases hdelete
  case bump =>
    have hnot : t.stage = .deleteDelivered →
        w.log.status t.row.notificationId = some .delivered := fun hdelete => by
      rw [hs] at hdelete
      cases hdelete
    split
    · refine h.onward rfl rfl (fun _ hrow => hrow) rfl (List.Subset.refl _)
        (fun r hr => mem_bumpAttempts hr) (fun _ hid => .inl hid) ?_ ?_
      · refine hold.next fun r hr hid => ?_
        obtain ⟨r', hr', -, hsame⟩ := mem_bumpAttempts_of_mem (t.row.attempts + 1) hr
        exact hsame hid ▸ hr'
      · intro t' ht' hdelete
        cases ht.symm.trans ht'
        rw [hs] at hdelete
        cases hdelete
    · exact h.done ht hnot

end

/-- **One unblocked step keeps the invariant.** -/
theorem DigestInv.step (h : DigestInv w) {op : DigestOp} (hok : Unblocked w op) :
    DigestInv (digestStep true w op) := by
  have hdelivered : ∀ (ok : Bool) (row : LogRow) (id : String),
      w.log.status id = some .delivered →
      (writeLogRow ok row w.log).status id = some .delivered := fun ok row id hid =>
    status_writeLogRow_of_ne_none hid ok row
  cases op <;> simp only [digestStep]
  case enqueue row body createdAt ok =>
    split
    · rename_i queue hinsert
      have hmem : ∀ r, r ∈ queue.rows ↔
          r ∈ w.queue.rows ∨ r = { row with message := some body, attempts := 0 } := by
        intro r
        rw [Table.rows_insert hinsert, mem_append, mem_singleton]
      have hstatus := status_eq_none_of_fresh h hok
      refine ⟨?_, ?_, ?_, ?_, ?_, ?_, h.logged, ?_, h.completed⟩
      · exact fun t ht => (h.tick t ht).mono (fun r hr => (hmem r).mpr (.inl hr)) rfl rfl rfl
          fun _ hid => hid
      · intro r hr
        rcases (hmem r).mp hr with hold | rfl
        · exact (h.queueIds r hold).imp (mem_append_left _) id
        · exact ⟨mem_append_right _ mem_cons_self, rfl⟩
      · exact fun row' hrow' => mem_append_left _ (h.logIds row' hrow')
      · intro row' hrow'
        rcases mem_snoc.mp hrow' with hold | rfl
        · exact (h.unfiledIds row' hold).imp (mem_append_left _) id
        · exact ⟨mem_append_right _ mem_cons_self, rfl⟩
      · exact fun id hid => mem_append_left _ (h.toLogIds id hid)
      · intro r hr hdel
        rcases (hmem r).mp hr with hold | rfl
        · exact h.sent r hold hdel
        · rw [hstatus] at hdel
          cases hdel
      · intro r hr hid
        rcases (hmem r).mp hr with hold | rfl
        · exact h.settled r hold hid
        · exact absurd (h.toLogIds _ hid) hok
    · exact h
  case fileBatched i ok =>
    split
    · rename_i row hrow
      have hmem := mem_of_getElem? hrow
      obtain ⟨hid, hbatched⟩ := h.unfiledIds row hmem
      refine h.writes rfl rfl (List.Subset.refl _) hid
        (fun row' hrow' => mem_of_mem_eraseIdx hrow') rfl rfl
        (fun hdel => by rw [hbatched] at hdel; cases hdel) (.inl ⟨rfl, hok row hrow⟩) ?_
        (fun _ ht _ => ht)
      exact fun t ht => (h.tick t ht).mono (fun _ hr => hr) rfl rfl rfl (hdelivered ok row)
    · exact h
  case file row ok =>
    refine h.writes rfl rfl (subset_append_left _ _)
      (mem_append_right _ mem_cons_self) (fun _ hrow => hrow) rfl rfl
      (fun _ r hr hid => absurd (hid ▸ (h.queueIds r hr).1) hok)
      (.inl ⟨rfl, fun _ hlogged => absurd (h.toLogIds _ hlogged) hok⟩) ?_ (fun _ ht _ => ht)
    exact fun t ht => (h.tick t ht).mono (fun _ hr => hr) rfl rfl rfl (hdelivered ok row)
  case tick now ok =>
    split
    · rename_i row rest hnone hselect
      obtain ⟨hqueued, hnodup⟩ := selectDue_spec now w.queue
      rw [hselect] at hqueued hnodup
      refine h.onward rfl rfl (fun _ hrow => hrow) rfl (List.Subset.refl _)
        (fun r hr => ⟨r, hr, rfl, rfl⟩) (fun _ hid => .inl hid) ?_ ?_
      · intro t ht
        cases ht
        exact ⟨hqueued, hnodup, trivial⟩
      · intro t ht
        rw [hnone] at ht
        cases ht
    · exact h
  case proceed ok transport =>
    split
    · rename_i t ht
      exact h.proceed ht transport (hok t ht)
    · exact h
  case stop =>
    refine h.onward rfl rfl (fun _ hrow => by cases hrow) rfl (List.Subset.refl _)
      (fun r hr => ⟨r, hr, rfl, rfl⟩) (fun _ hid => .inl hid) (fun t ht => by cases ht) ?_
    intro t ht hdelete r _ hrow
    rw [← hrow]
    exact hok t ht hdelete

/-- Only a delete takes rows out of the queue. -/
theorem DigestInv.leavesFlushed (h : DigestInv w) (op : DigestOp) : LeavesFlushed true w op := by
  intro r hr hgone
  have hstays : r ∉ (digestStep true w op).queue.rows := fun hmem => hgone r hmem rfl
  have heffect := digestStep_effect true w op
  generalize digestStep true w op = w' at heffect hgone hstays
  cases heffect with
  | nothing | writes | files | records => exact absurd hr hstays
  | queues hinsert =>
    dsimp only at hstays
    rw [Table.rows_insert hinsert] at hstays
    exact absurd (mem_append_left _ hr) hstays
  | @deletes t _ _ ht hs =>
    -- the row that is deleted is the one the tick is at
    have hrow : r = t.row := by
      refine queue_eq hr ((h.tick t ht).queued _ mem_cons_self) ?_
      by_contra hne
      exact hstays (mem_deleteQueue.mpr ⟨hr, hne⟩)
    have hstage := (h.tick t ht).stage
    rcases hs with hs | hs | hs <;> rw [hs] at hstage <;> rw [hrow] at hr ⊢
    · exact .inl (h.sent _ hr hstage)
    · exact .inl hstage.2
    · exact .inr hstage.2
  | @bumps t _ ht =>
    obtain ⟨r', hr', hid, -⟩ := mem_bumpAttempts_of_mem (t.row.attempts + 1) hr
    exact absurd hid (hgone r' hr')

end

theorem DigestInv.init : DigestInv {} where
  tick := fun _ ht => by cases ht
  queueIds := fun _ hr => by cases hr
  logIds := fun _ hr => by cases hr
  unfiledIds := fun _ hr => by cases hr
  toLogIds := fun _ hr => by cases hr
  sent := fun _ hr => by cases hr
  logged := fun _ hr => by cases hr
  settled := fun _ hr => by cases hr
  completed := fun _ hr => by cases hr

/-- **Batched notifications are flushed once.**  In an unblocked run of the router and the
ticks of a job with a deliverer, no notification is transported again once its flush came to
the log write, one leaves the queue only transported or with its body in the outbox, and the
log says nothing but 'delivered' of a completed flush. -/
theorem flushed_once (ops : List DigestOp) (hops : Meets (digestStep true) Unblocked {} ops) :
    Meets (digestStep true) NoResend {} ops ∧
      Meets (digestStep true) (LeavesFlushed true) {} ops ∧
      Along (digestStep true) LogTruthful {} ops := by
  have hstep : ∀ w op, DigestInv w → Unblocked w op → DigestInv (digestStep true w op) :=
    fun _ _ h hok => h.step hok
  refine ⟨?_, ?_, ?_⟩
  · exact meets_of_meets hstep (fun _ op h _ => h.noResend op) DigestInv.init hops
  · exact meets_of_meets hstep (fun _ op h _ => h.leavesFlushed op) DigestInv.init hops
  · exact Along.mono (fun _ h => h.truthful) (along_of_meets hstep DigestInv.init hops)

/-- Two notifications whose batched rows the log did not take: one is flushed, its delete fails
and the next tick finds it delivered; the other is given up at its fifth failure. -/
def flushedAndGivenUp : List DigestOp :=
  let failure : List DigestOp := [.tick 60 true, .proceed true .failed, .proceed true .failed]
  [.enqueue ⟨"n1", "h1", .normal, "brief", "telegram", none, 50, none, 0⟩ "Good morning" 0 true,
    .fileBatched 0 false, .tick 60 true, .proceed true .delivered, .proceed true .delivered,
    .proceed true .delivered, .proceed false .delivered, .tick 120 true,
    .proceed true .delivered, .proceed true .delivered,
    .enqueue ⟨"n2", "h2", .low, "news", "slack", some "j", 40, none, 0⟩ "Headlines" 0 true,
    .fileBatched 0 false] ++
    (replicate 4 (failure ++ [.proceed true .failed])).flatten ++ failure ++
    [.proceed false .failed, .proceed true .failed, .proceed true .failed]

theorem flushed_once_given_up :
    Meets (digestStep true) NoResend {} flushedAndGivenUp ∧
      Meets (digestStep true) (LeavesFlushed true) {} flushedAndGivenUp ∧
      Along (digestStep true) LogTruthful {} flushedAndGivenUp :=
  flushed_once flushedAndGivenUp (by decide)

/-- What the router filed under an id stays, so that no tick finds it delivered. -/
theorem batched_row_blocks_guard (hasDeliverer : Bool) {w : DigestWorld} {status : DeliveryStatus}
    (h : w.log.status id = some status) (ops : List DigestOp) :
    (run (digestStep hasDeliverer) w ops).log.status id = some status := by
  refine (along_of_inv (I := fun w : DigestWorld => w.log.status id = some status) ?_ h ops).last
  intro w op hw
  have heffect := digestStep_effect hasDeliverer w op
  generalize digestStep hasDeliverer w op = w' at heffect ⊢
  cases heffect with
  | writes | files => exact status_writeLogRow_of_ne_none hw _ _
  | nothing | queues | deletes | bumps | records => exact hw

/-- The router files its batched row; the transport succeeds, the delivered row is refused and
the delete fails: the next tick transports the notification again. -/
theorem resent_after_failed_delete :
    ¬ ∀ ops : List DigestOp,
      Meets (digestStep true) NoResend {} ops ∧
        Meets (digestStep true) (LeavesFlushed true) {} ops ∧
        Along (digestStep true) LogTruthful {} ops := by
  intro h
  have hresent := (h
    [.enqueue ⟨"n1", "h1", .normal, "brief", "telegram", none, 50, none, 0⟩ "Good morning" 0 true,
      .fileBatched 0 true, .tick 60 true, .proceed true .delivered, .proceed true .delivered,
      .proceed true .delivered, .proceed false .delivered, .tick 120 true,
      .proceed true .delivered, .proceed true .delivered]).1
  revert hresent
  decide

end StackOwl.Notifications
