import StackOwl.Notifications.Digest

/-!
# What becomes of a batched notification

`NotificationDigestJob._flush_row` (`notifications/digest_job.py`) once more, from the side of
what is queued: whatever stands in the log when a row is flushed, a notification is transported
at most once, and it is queued, transported, or recorded with its body, as long as the delete
that ends its flush is not lost.

## Main results

* `FlushInv.step` — a step that is intact keeps the order of a flush.
* `FlushInv.held`, `FlushInv.absent` — it loses no notification, and makes nothing of one that
  was never queued.
-/

namespace StackOwl.Notifications

open Lib List

/-! ## Steps that lose nothing -/

/-- What a flush may meet at the stage it is at. -/
def StageIntact (status : Option DeliveryStatus) (message : Option String) (ok : Bool) :
    Stage → Prop
  | .check => ok = true ∨ status ≠ some .delivered
  | .deleteDelivered => ok = true ∨ status = some .delivered
  | .outbox => ok = true ∧ message ≠ some ""
  | .deleteFailed => ok = true
  | _ => True

instance (status : Option DeliveryStatus) (message : Option String) (ok : Bool) :
    ∀ stage, Decidable (StageIntact status message ok stage)
  | .check | .deleteDelivered => inferInstanceAs (Decidable (_ ∨ _))
  | .outbox => inferInstanceAs (Decidable (_ ∧ _))
  | .deleteFailed => inferInstanceAs (Decidable (_ = _))
  | .reconcile | .transport | .logDelivered | .logFailed | .bump =>
    isTrue trivial

/-- Whether a stop at the stage leaves nothing to be done twice. -/
def StageSettled (status : Option DeliveryStatus) : Stage → Prop
  | .logDelivered => False
  | .deleteFailed => False
  | .deleteDelivered => status = some .delivered
  | _ => True

instance (status : Option DeliveryStatus) : ∀ stage, Decidable (StageSettled status stage)
  | .logDelivered | .deleteFailed => isFalse id
  | .deleteDelivered => inferInstanceAs (Decidable (_ = _))
  | .check | .reconcile | .transport | .logFailed | .outbox | .bump =>
    isTrue trivial

/-- Ids are new; the look into the log does not miss a delivery; a dead letter is recorded; and
the delete after a transport, or after a dead letter, is neither lost nor cut off, unless the
log has the delivery. -/
def FlushIntact (w : DigestWorld) : DigestOp → Prop
  | .enqueue row _ _ _ => row.notificationId ∉ w.ids
  | .file row _ => row.notificationId ∉ w.ids
  | .fileBatched _ _ => True
  | .tick _ _ => True
  | .proceed ok _ => ∀ t ∈ w.tick,
      StageIntact (w.log.status t.row.notificationId) t.row.message ok t.stage
  | .stop => ∀ t ∈ w.tick, StageSettled (w.log.status t.row.notificationId) t.stage

instance (w : DigestWorld) : ∀ op, Decidable (FlushIntact w op)
  | .enqueue .. | .file .. => inferInstanceAs (Decidable (_ ∉ _))
  | .fileBatched .. | .tick .. => isTrue trivial
  | .proceed .. => inferInstanceAs (Decidable (∀ t ∈ w.tick, StageIntact _ _ _ _))
  | .stop => inferInstanceAs (Decidable (∀ t ∈ w.tick, _))

def transported (w : DigestWorld) (op : DigestOp) : List String :=
  match op, w.tick with
  | .proceed _ .delivered, some t =>
    if t.stage = .transport then [t.row.notificationId] else []
  | _, _ => []

/-! ## The order of a flush -/

/-- A flush that has transported its row and has not deleted it. -/
def Stage.delivering : Stage → Bool
  | .logDelivered => true
  | .deleteDelivered => true
  | _ => false

def FlushStage (w : DigestWorld) (r : QueueRow) : Stage → Prop
  | .check => True
  | .reconcile => w.log.status r.notificationId = some .delivered
  | .transport | .logFailed | .outbox | .bump => r.notificationId ∉ w.sent
  | .logDelivered | .deleteDelivered => r.notificationId ∈ w.sent
  | .deleteFailed => r.notificationId ∉ w.sent ∧
      ∃ body, r.message = some body ∧ (r.notificationId, r.deadLetter body) ∈ w.outbox

/-- The rows of a tick are queued, each once. -/
structure FlushTick (w : DigestWorld) (t : Tick) : Prop where
  queued : ∀ r ∈ t.row :: t.rest, r ∈ w.queue.rows
  nodup : ((t.row :: t.rest).map QueueRow.notificationId).Nodup
  stage : FlushStage w t.row t.stage

/-- What is filed, queued, transported or recorded has an id.  A queued notification that was
transported is delivered in the log, or its flush is about to delete it; one that was recorded
is about to be deleted; and none is both transported and recorded. -/
structure FlushInv (w : DigestWorld) : Prop where
  tick : ∀ t ∈ w.tick, FlushTick w t
  queueIds : ∀ r ∈ w.queue.rows, r.notificationId ∈ w.ids ∧ r.message.isSome
  logIds : ∀ row ∈ w.log.rows, row.notificationId ∈ w.ids
  unfiledIds : ∀ row ∈ w.unfiled, row.notificationId ∈ w.ids ∧ row.deliveryStatus = .batched
  sentIds : ∀ id ∈ w.sent, id ∈ w.ids
  outboxIds : ∀ entry ∈ w.outbox, entry.1 ∈ w.ids
  delivered : ∀ r ∈ w.queue.rows, w.log.status r.notificationId = some .delivered →
    r.notificationId ∈ w.sent
  settled : ∀ r ∈ w.queue.rows, r.notificationId ∈ w.sent →
    w.log.status r.notificationId = some .delivered ∨
      ∃ t ∈ w.tick, t.stage.delivering = true ∧ t.row.notificationId = r.notificationId
  recorded : ∀ r ∈ w.queue.rows, ∀ entry ∈ w.outbox, entry.1 = r.notificationId →
    ∃ t ∈ w.tick, t.stage = .deleteFailed ∧ t.row.notificationId = r.notificationId
  apart : ∀ entry ∈ w.outbox, entry.1 ∉ w.sent

section
variable {w : DigestWorld}

theorem FlushInv.init : FlushInv {} where
  tick := fun _ ht => by cases ht
  queueIds := fun _ hr => by cases hr
  logIds := fun _ hr => by cases hr
  unfiledIds := fun _ hr => by cases hr
  sentIds := fun _ hr => by cases hr
  outboxIds := fun _ hr => by cases hr
  delivered := fun _ hr => by cases hr
  settled := fun _ hr => by cases hr
  recorded := fun _ hr => by cases hr
  apart := fun _ hr => by cases hr

variable {t : Tick} {w' : DigestWorld}

/-- The row the tick is at is done with: those to come are still queued. -/
theorem FlushTick.next (h : FlushTick w t)
    (hrest : ∀ r ∈ w.queue.rows, r.notificationId ≠ t.row.notificationId →
      r ∈ w'.queue.rows) : ∀ t' ∈ t.next, FlushTick w' t' := by
  intro t' ht'
  unfold Tick.next at ht'
  split at ht'
  · cases ht'
  · rename_i row rest hsplit
    cases ht'
    have hnodup := h.nodup
    rw [map_cons, nodup_cons, hsplit] at hnodup
    refine ⟨fun r hr => ?_, hnodup.2, trivial⟩
    refine hrest r (h.queued r (mem_cons_of_mem _ (hsplit ▸ hr))) fun hid => ?_
    exact hnodup.1 (hid ▸ mem_map_of_mem hr)

/-- What a flush holds, it holds while its rows stay queued and deliveries stay filed. -/
theorem FlushTick.mono (h : FlushTick w t) (hqueue : ∀ r ∈ w.queue.rows, r ∈ w'.queue.rows)
    (hsent : w'.sent = w.sent) (houtbox : w'.outbox = w.outbox)
    (hlog : ∀ id, w.log.status id = some .delivered → w'.log.status id = some .delivered) :
    FlushTick w' t where
  queued r hr := hqueue r (h.queued r hr)
  nodup := h.nodup
  stage := by
    have hstage := h.stage
    cases hs : t.stage <;> rw [hs] at hstage <;>
      simp only [FlushStage, hsent, houtbox] at hstage ⊢
    · exact hlog _ hstage
    all_goals exact hstage

inductive Writes (w : DigestWorld) : LogTable → Prop
  | nothing : Writes w w.log
  | row (ok : Bool) (row : LogRow)
      (hdelivered : row.deliveryStatus = .delivered → ∀ r ∈ w.queue.rows,
        r.notificationId = row.notificationId → r.notificationId ∈ w.sent) :
      Writes w (writeLogRow ok row w.log)

variable {id : String} {log : LogTable}

theorem Writes.kept (h : Writes w log) (hid : w.log.status id = some .delivered) :
    log.status id = some .delivered := by
  cases h with
  | nothing => exact hid
  | row ok row _ => exact status_writeLogRow_of_ne_none hid ok row

variable {r : QueueRow}

theorem Writes.sent (h : Writes w log) (hinv : FlushInv w) (hr : r ∈ w.queue.rows)
    (hid : log.status r.notificationId = some .delivered) :
    r.notificationId ∈ w.sent := by
  cases h with
  | nothing => exact hinv.delivered r hr hid
  | row ok row hdelivered =>
    rw [status_writeLogRow] at hid
    split at hid
    · rename_i hwritten
      exact hdelivered (Option.some.inj hid) r hr hwritten.2.1
    · exact hinv.delivered r hr hid

section

variable (h : FlushInv w)

include h

/-- A step that neither transports nor records anything keeps the invariant, if its tick is in
order and a flush that was under way goes on, or leaves no trace that matters. -/
theorem FlushInv.onward (hlog : Writes w w'.log) (hids : w.ids ⊆ w'.ids)
    (hlogIds : ∀ row ∈ w'.log.rows, row.notificationId ∈ w'.ids)
    (hunfiled : ∀ row ∈ w'.unfiled, row ∈ w.unfiled) (hsent : w'.sent = w.sent)
    (houtbox : w'.outbox = w.outbox)
    (hqueue : ∀ r ∈ w'.queue.rows, ∃ r₀ ∈ w.queue.rows,
      r.notificationId = r₀.notificationId ∧ r.message = r₀.message)
    (htick : ∀ t ∈ w'.tick, FlushTick w' t)
    (hdelivering : ∀ t ∈ w.tick, t.stage.delivering = true → ∀ r ∈ w'.queue.rows,
      t.row.notificationId = r.notificationId →
        w'.log.status r.notificationId = some .delivered ∨
          ∃ t' ∈ w'.tick, t'.stage.delivering = true ∧
            t'.row.notificationId = r.notificationId)
    (hfailed : ∀ t ∈ w.tick, t.stage = .deleteFailed → ∀ r ∈ w'.queue.rows,
      t.row.notificationId = r.notificationId →
        ∃ t' ∈ w'.tick, t'.stage = .deleteFailed ∧
          t'.row.notificationId = r.notificationId) :
    FlushInv w' where
  tick := htick
  queueIds r hr := by
    obtain ⟨r₀, hr₀, hid, hmessage⟩ := hqueue r hr
    rw [hid, hmessage]
    exact (h.queueIds r₀ hr₀).imp (fun hmem => hids hmem) id
  logIds := hlogIds
  unfiledIds row hrow := (h.unfiledIds row (hunfiled row hrow)).imp (fun hmem => hids hmem) id
  sentIds id hid := hids (h.sentIds id (hsent ▸ hid))
  outboxIds entry hentry := hids (h.outboxIds entry (houtbox ▸ hentry))
  delivered r hr hstatus := by
    obtain ⟨r₀, hr₀, hid, -⟩ := hqueue r hr
    rw [hid] at hstatus ⊢
    rw [hsent]
    exact hlog.sent h hr₀ hstatus
  settled r hr hmem := by
    obtain ⟨r₀, hr₀, hid, -⟩ := hqueue r hr
    rw [hsent, hid] at hmem
    rcases h.settled r₀ hr₀ hmem with hdelivered | ⟨t, ht, hstage, hrow⟩
    · exact .inl (hid ▸ hlog.kept hdelivered)
    · exact hdelivering t ht hstage r hr (hrow.trans hid.symm)
  recorded r hr entry hentry hid := by
    obtain ⟨r₀, hr₀, hsame, -⟩ := hqueue r hr
    rw [houtbox] at hentry
    obtain ⟨t, ht, hstage, hrow⟩ := h.recorded r₀ hr₀ entry hentry (hid.trans hsame)
    exact hfailed t ht hstage r hr (hrow.trans hsame.symm)
  apart entry hentry := by
    rw [houtbox] at hentry
    rw [hsent]
    exact h.apart entry hentry

/-- While no flush is about to delete a transported row, the log has what was transported. -/
theorem FlushInv.delivered_of_sent (ht : t ∈ w.tick) (hstage : t.stage.delivering = false)
    (hr : r ∈ w.queue.rows) (hsent : r.notificationId ∈ w.sent) :
    w.log.status r.notificationId = some .delivered := by
  rcases h.settled r hr hsent with hdelivered | ⟨t', ht', hdelivering, -⟩
  · exact hdelivered
  · cases ht.symm.trans ht'
    rw [hstage] at hdelivering
    cases hdelivering

/-- What is queued stands in no dead letter, unless it is about to be deleted. -/
theorem FlushInv.not_recorded (ht : t ∈ w.tick) (hstage : t.stage ≠ .deleteFailed)
    (hr : r ∈ w.queue.rows) : ∀ entry ∈ w.outbox, entry.1 ≠ r.notificationId := by
  intro entry hentry hid
  obtain ⟨t', ht', hfailed, -⟩ := h.recorded r hr entry hentry hid
  cases ht.symm.trans ht'
  exact hstage hfailed

theorem FlushInv.leaves (ht : t ∈ w.tick)
    (hdelivering : t.stage.delivering = true → w.log.status t.row.notificationId = some .delivered)
    (hfailed : t.stage ≠ .deleteFailed) {queue : QueueTable} {tick : Option Tick}
    (hqueue : ∀ r ∈ queue.rows, ∃ r₀ ∈ w.queue.rows,
      r.notificationId = r₀.notificationId ∧ r.message = r₀.message)
    (htick : ∀ t' ∈ tick, FlushTick { w with queue, tick } t') :
    FlushInv { w with queue, tick } := by
  refine h.onward .nothing (List.Subset.refl _) h.logIds (fun _ hrow => hrow) rfl rfl hqueue
    htick ?_ ?_
  · intro t' ht' hstage r _ hrow
    cases ht.symm.trans ht'
    exact .inl (hrow ▸ hdelivering hstage)
  · intro t' ht' hstop
    cases ht.symm.trans ht'
    exact absurd hstop hfailed

variable {stage : Stage}

theorem FlushInv.goTo (ht : t ∈ w.tick) (hfrom : t.stage.delivering = false)
    (hfailed : t.stage ≠ .deleteFailed) (hstage : FlushStage w t.row stage) :
    FlushInv (w.goTo t stage) := by
  refine h.leaves ht (fun hdelivering => ?_) hfailed (fun r hr => ⟨r, hr, rfl, rfl⟩) ?_
  · rw [hfrom] at hdelivering
    cases hdelivering
  · intro t' ht'
    cases ht'
    exact ⟨(h.tick t ht).queued, (h.tick t ht).nodup, hstage⟩

theorem FlushInv.done (ht : t ∈ w.tick)
    (hdelivering : t.stage.delivering = true → w.log.status t.row.notificationId = some .delivered)
    (hfailed : t.stage ≠ .deleteFailed) :
    FlushInv (w.done t) :=
  h.leaves ht hdelivering hfailed (fun r hr => ⟨r, hr, rfl, rfl⟩)
    ((h.tick t ht).next fun _ hr _ => hr)

theorem FlushInv.delete (ht : t ∈ w.tick) (completed : List String) :
    FlushInv { w.done t with
      queue := deleteQueue t.row.notificationId w.queue
      completed } := by
  have hother : ∀ t' ∈ w.tick, ∀ r ∈ (deleteQueue t.row.notificationId w.queue).rows,
      t'.row.notificationId ≠ r.notificationId := by
    intro t' ht' r hr hrow
    cases ht.symm.trans ht'
    exact (mem_deleteQueue.mp hr).2 hrow.symm
  refine h.onward .nothing (List.Subset.refl _) h.logIds (fun _ hrow => hrow) rfl rfl
    (fun r hr => ⟨r, (mem_deleteQueue.mp hr).1, rfl, rfl⟩) ?_ ?_ ?_
  · exact (h.tick t ht).next fun r hr hid => mem_deleteQueue.mpr ⟨hr, hid⟩
  · exact fun t' ht' _ r hr hrow => absurd hrow (hother t' ht' r hr)
  · exact fun t' ht' _ r hr hrow => absurd hrow (hother t' ht' r hr)

theorem FlushInv.logs (ht : t ∈ w.tick) (ok : Bool) {row : LogRow} (toLog : List String)
    (hid : row.notificationId = t.row.notificationId)
    (hdelivered : row.deliveryStatus = .delivered → t.row.notificationId ∈ w.sent)
    (hfrom : t.stage.delivering = true → stage.delivering = true)
    (hfailed : t.stage ≠ .deleteFailed)
    (hstage : FlushStage { w with log := writeLogRow ok row w.log } t.row stage) :
    FlushInv { w.goTo t stage with log := writeLogRow ok row w.log, toLog } := by
  have hold := h.tick t ht
  have hqueued := hold.queued t.row mem_cons_self
  refine h.onward (.row ok row ?_) (List.Subset.refl _) ?_ (fun _ hrow => hrow) rfl rfl
    (fun r hr => ⟨r, hr, rfl, rfl⟩) ?_ ?_ ?_
  · intro hstatus r _ hsame
    rw [hsame, hid]
    exact hdelivered hstatus
  · intro row' hrow'
    rcases mem_writeLogRow hrow' with hbefore | rfl
    · exact h.logIds row' hbefore
    · rw [hid]
      exact (h.queueIds t.row hqueued).1
  · intro t' ht'
    cases ht'
    refine ⟨hold.queued, hold.nodup, ?_⟩
    cases stage <;> exact hstage
  · intro t' ht' hdelivering r _ hrow
    cases ht.symm.trans ht'
    exact .inr ⟨_, rfl, hfrom hdelivering, hrow⟩
  · intro t' ht' hstop
    cases ht.symm.trans ht'
    exact absurd hstop hfailed

theorem FlushInv.transports (ht : t ∈ w.tick) (hs : t.stage = .transport) :
    FlushInv { w.goTo t .logDelivered with sent := w.sent ++ [t.row.notificationId] } := by
  have hold := h.tick t ht
  have hqueued := hold.queued t.row mem_cons_self
  have hfailed : t.stage ≠ .deleteFailed := by rw [hs]; decide
  refine ⟨?_, h.queueIds, h.logIds, h.unfiledIds, ?_, h.outboxIds, ?_, ?_, ?_, ?_⟩
  · intro t' ht'
    cases ht'
    exact ⟨hold.queued, hold.nodup, mem_append_right _ mem_cons_self⟩
  · intro id hid
    rcases mem_snoc.mp hid with hbefore | rfl
    · exact h.sentIds id hbefore
    · exact (h.queueIds t.row hqueued).1
  · exact fun r hr hstatus => mem_append_left _ (h.delivered r hr hstatus)
  · intro r hr hsent
    rcases mem_snoc.mp hsent with hbefore | hlast
    · exact .inl (h.delivered_of_sent ht (by rw [hs]; rfl) hr hbefore)
    · exact .inr ⟨_, rfl, rfl, hlast.symm⟩
  · exact fun r hr entry hentry hid => absurd hid (h.not_recorded ht hfailed hr entry hentry)
  · intro entry hentry hsent
    rcases mem_snoc.mp hsent with hbefore | hlast
    · exact h.apart entry hentry hbefore
    · exact h.not_recorded ht hfailed hqueued entry hentry hlast

theorem FlushInv.records (ht : t ∈ w.tick) (hs : t.stage = .outbox) {body : String}
    (hbody : t.row.message = some body) :
    FlushInv { w.goTo t .deleteFailed with
      outbox := w.outbox ++ [(t.row.notificationId, t.row.deadLetter body)] } := by
  have hold := h.tick t ht
  have hunsent : t.row.notificationId ∉ w.sent := by
    have hstage := hold.stage
    rw [hs] at hstage
    exact hstage
  have hentries : ∀ entry ∈ w.outbox ++ [(t.row.notificationId, t.row.deadLetter body)],
      entry ∈ w.outbox ∨ entry.1 = t.row.notificationId := fun entry hentry =>
    (mem_append.mp hentry).imp_right fun hlast => by rw [mem_singleton.mp hlast]
  refine ⟨?_, h.queueIds, h.logIds, h.unfiledIds, h.sentIds, ?_, h.delivered, ?_, ?_, ?_⟩
  · intro t' ht'
    cases ht'
    exact ⟨hold.queued, hold.nodup, hunsent, body, hbody,
      mem_append_right _ mem_cons_self⟩
  · intro entry hentry
    rcases hentries entry hentry with hbefore | hlast
    · exact h.outboxIds entry hbefore
    · rw [hlast]
      exact (h.queueIds t.row (hold.queued t.row mem_cons_self)).1
  · exact fun r hr hsent => .inl (h.delivered_of_sent ht (by rw [hs]; rfl) hr hsent)
  · intro r hr entry hentry hid
    rcases hentries entry hentry with hbefore | hlast
    · exact absurd hid (h.not_recorded ht (by rw [hs]; decide) hr entry hbefore)
    · exact ⟨_, rfl, rfl, hlast.symm.trans hid⟩
  · intro entry hentry
    rcases hentries entry hentry with hbefore | hlast
    · exact h.apart entry hbefore
    · rw [hlast]
      exact hunsent

theorem FlushInv.proceed (ht : t ∈ w.tick) {ok : Bool} (transport : Transport)
    (hok : StageIntact (w.log.status t.row.notificationId) t.row.message ok t.stage) :
    FlushInv (w.proceed true t ok transport) := by
  have hold := h.tick t ht
  have hstage := hold.stage
  have hqueued := hold.queued t.row mem_cons_self
  unfold DigestWorld.proceed
  cases hs : t.stage <;> rw [hs] at hok hstage <;> dsimp only
  case check =>
    have hfrom : t.stage.delivering = false := by rw [hs]; rfl
    have hfailed : t.stage ≠ .deleteFailed := by rw [hs]; decide
    split
    · rename_i hfound
      have hdelivered : w.log.status t.row.notificationId = some .delivered := by
        simpa using (Bool.and_eq_true_iff.mp hfound).2
      exact h.goTo ht hfrom hfailed hdelivered
    · rename_i hfound
      have hstatus : w.log.status t.row.notificationId ≠ some .delivered := by
        intro hdelivered
        rcases hok with rfl | hnot
        · simp [hdelivered] at hfound
        · exact hnot hdelivered
      rw [(h.queueIds t.row hqueued).2]
      exact h.goTo ht hfrom hfailed fun hsent =>
        hstatus (h.delivered_of_sent ht hfrom hqueued hsent)
  case reconcile =>
    split
    · exact h.delete ht _
    · exact h.done ht (fun _ => hstage) (by rw [hs]; decide)
  case transport =>
    have hfrom : t.stage.delivering = false := by rw [hs]; rfl
    have hfailed : t.stage ≠ .deleteFailed := by rw [hs]; decide
    cases transport with
    | delivered => exact h.transports ht hs
    | pendingApproval =>
      exact h.done ht (fun hdelivering => by rw [hfrom] at hdelivering; cases hdelivering) hfailed
    | failed =>
      refine h.goTo ht hfrom hfailed ?_
      split <;> exact hstage
    | raised =>
      exact h.leaves ht (fun hdelivering => by rw [hfrom] at hdelivering; cases hdelivering)
        hfailed (fun r hr => ⟨r, hr, rfl, rfl⟩) fun t' ht' => by cases ht'
  case logDelivered =>
    exact h.logs ht ok _ rfl (fun _ => hstage) (fun _ => rfl) (by rw [hs]; decide) hstage
  case deleteDelivered =>
    split
    · exact h.delete ht _
    · rename_i hlost
      exact h.done ht (fun _ => hok.resolve_left hlost) (by rw [hs]; decide)
  case logFailed =>
    exact h.logs ht ok w.toLog rfl (fun hdelivered => by cases hdelivered)
      (fun hdelivering => by rw [hs] at hdelivering; cases hdelivering) (by rw [hs]; decide) hstage
  case outbox =>
    obtain ⟨body, hbody⟩ := Option.isSome_iff_exists.mp (h.queueIds t.row hqueued).2
    have hnonempty : (body != "") = true := by
      have hne := hok.2
      rw [hbody] at hne
      simpa using hne
    rw [hbody]
    dsimp only
    rw [if_pos (by rw [hok.1, hnonempty]; rfl)]
    exact h.records ht hs hbody
  case deleteFailed =>
    have hdeleted : ok = true := hok
    rw [if_pos hdeleted]
    exact h.delete ht _
  case bump =>
    have hnot : ¬ t.stage.delivering = true := by rw [hs]; decide
    have hfailed : t.stage ≠ .deleteFailed := by rw [hs]; decide
    split
    · refine h.leaves ht (absurd · hnot) hfailed (fun r hr => mem_bumpAttempts hr) ?_
      refine hold.next fun r hr hid => ?_
      obtain ⟨r', hr', -, hsame⟩ := mem_bumpAttempts_of_mem (t.row.attempts + 1) hr
      exact hsame hid ▸ hr'
    · exact h.done ht (absurd · hnot) hfailed

end

variable {op : DigestOp}

/-- **One intact step keeps the order of a flush.** -/
theorem FlushInv.step (h : FlushInv w) (hok : FlushIntact w op) :
    FlushInv (digestStep true w op) := by
  cases op <;> simp only [digestStep]
  case enqueue row body createdAt ok =>
    split
    · rename_i queue hinsert
      have hmem : ∀ r, r ∈ queue.rows ↔
          r ∈ w.queue.rows ∨ r = { row with message := some body, attempts := 0 } := by
        intro r
        rw [Table.rows_insert hinsert, mem_append, mem_singleton]
      have hfree : ∀ log : LogRow, log ∈ w.log.rows → log.notificationId ≠ row.notificationId :=
        fun log hlog hid => hok (hid ▸ h.logIds log hlog)
      refine ⟨?_, ?_, ?_, ?_, ?_, ?_, ?_, ?_, ?_, h.apart⟩
      · exact fun t ht => (h.tick t ht).mono (fun r hr => (hmem r).mpr (.inl hr)) rfl rfl
          fun _ hid => hid
      · intro r hr
        rcases (hmem r).mp hr with hold | rfl
        · exact (h.queueIds r hold).imp (mem_append_left _) id
        · exact ⟨mem_append_right _ mem_cons_self, rfl⟩
      · exact fun row' hrow' => mem_append_left _ (h.logIds row' hrow')
      · intro row' hrow'
        rcases mem_snoc.mp hrow' with hold | rfl
        · exact (h.unfiledIds row' hold).imp (mem_append_left _) id
        · exact ⟨mem_append_right _ mem_cons_self, rfl⟩
      · exact fun id hid => mem_append_left _ (h.sentIds id hid)
      · exact fun entry hentry => mem_append_left _ (h.outboxIds entry hentry)
      · intro r hr hstatus
        rcases (hmem r).mp hr with hold | rfl
        · exact h.delivered r hold hstatus
        · obtain ⟨log, hlog, hid, -⟩ := status_eq_some hstatus
          exact absurd hid (hfree log hlog)
      · intro r hr hsent
        rcases (hmem r).mp hr with hold | rfl
        · exact h.settled r hold hsent
        · exact absurd (h.sentIds _ hsent) hok
      · intro r hr entry hentry hid
        rcases (hmem r).mp hr with hold | rfl
        · exact h.recorded r hold entry hentry hid
        · exact absurd (hid ▸ h.outboxIds entry hentry) hok
    · exact h
  case fileBatched i ok =>
    split
    · rename_i row hrow
      obtain ⟨hid, hbatched⟩ := h.unfiledIds row (mem_of_getElem? hrow)
      have hwrites : Writes w (writeLogRow ok row w.log) :=
        .row ok row fun hdelivered => by rw [hbatched] at hdelivered; cases hdelivered
      refine h.onward hwrites (List.Subset.refl _) ?_
        (fun row' hrow' => mem_of_mem_eraseIdx hrow') rfl rfl
        (fun r hr => ⟨r, hr, rfl, rfl⟩) ?_ ?_ ?_
      · intro row' hrow'
        rcases mem_writeLogRow hrow' with hold | rfl
        · exact h.logIds row' hold
        · exact hid
      · exact fun t ht => (h.tick t ht).mono (fun _ hr => hr) rfl rfl fun _ => hwrites.kept
      · exact fun t ht hstage r _ hsame => .inr ⟨t, ht, hstage, hsame⟩
      · exact fun t ht hstage r _ hsame => ⟨t, ht, hstage, hsame⟩
    · exact h
  case file row ok =>
    have hwrites : Writes w (writeLogRow ok row w.log) :=
      .row ok row fun _ r hr hid => absurd (hid ▸ (h.queueIds r hr).1) hok
    refine h.onward hwrites (subset_append_left _ _) ?_ (fun _ hrow => hrow) rfl rfl
      (fun r hr => ⟨r, hr, rfl, rfl⟩) ?_ ?_ ?_
    · intro row' hrow'
      rcases mem_writeLogRow hrow' with hold | rfl
      · exact mem_append_left _ (h.logIds row' hold)
      · exact mem_append_right _ mem_cons_self
    · exact fun t ht => (h.tick t ht).mono (fun _ hr => hr) rfl rfl fun _ => hwrites.kept
    · exact fun t ht hstage r _ hsame => .inr ⟨t, ht, hstage, hsame⟩
    · exact fun t ht hstage r _ hsame => ⟨t, ht, hstage, hsame⟩
  case tick now ok =>
    split
    · rename_i row rest hnone hselect
      obtain ⟨hqueued, hnodup⟩ := selectDue_spec now w.queue
      rw [hselect] at hqueued hnodup
      refine h.onward .nothing (List.Subset.refl _) h.logIds (fun _ hrow => hrow) rfl rfl
        (fun r hr => ⟨r, hr, rfl, rfl⟩) ?_ ?_ ?_
      · intro t ht
        cases ht
        exact ⟨hqueued, hnodup, trivial⟩
      · intro t ht
        rw [hnone] at ht
        cases ht
      · intro t ht
        rw [hnone] at ht
        cases ht
    · exact h
  case proceed ok transport =>
    split
    · rename_i t ht
      exact h.proceed ht transport (hok t ht)
    · exact h
  case stop =>
    refine h.onward .nothing (List.Subset.refl _) h.logIds (fun _ hrow => by cases hrow) rfl rfl
      (fun r hr => ⟨r, hr, rfl, rfl⟩) (fun t ht => by cases ht) ?_ ?_
    · intro t ht hstage r _ hrow
      have hsettled := hok t ht
      cases hs : t.stage <;> rw [hs] at hstage hsettled
      case deleteDelivered => exact .inl (hrow ▸ hsettled)
      case logDelivered => exact absurd hsettled id
      all_goals cases hstage
    · intro t ht hstage r _ hrow
      have hsettled := hok t ht
      rw [hstage] at hsettled
      exact absurd hsettled id

/-! ## What a step does to one notification -/

theorem sent_proceed (w : DigestWorld) (t : Tick) (ok : Bool) (transport : Transport) :
    (w.proceed true t ok transport).sent = w.sent ++
      if t.stage = .transport ∧ transport = .delivered then [t.row.notificationId] else [] := by
  unfold DigestWorld.proceed DigestWorld.done DigestWorld.goTo
  cases t.stage with
  | transport => cases transport <;> simp
  | logDelivered | logFailed => simp
  | check =>
    simp only [reduceCtorEq, false_and, if_false, append_nil]
    split
    · rfl
    · split <;> rfl
  | outbox =>
    simp only [reduceCtorEq, false_and, if_false, append_nil]
    split
    · split <;> rfl
    · rfl
  | reconcile | deleteDelivered | deleteFailed | bump =>
    simp only [reduceCtorEq, false_and, if_false, append_nil]
    split <;> rfl

theorem sent_digestStep (w : DigestWorld) (op : DigestOp) :
    (digestStep true w op).sent = w.sent ++ transported w op := by
  cases op with
  | proceed ok transport =>
    simp only [digestStep, transported]
    cases w.tick with
    | none => cases transport <;> simp
    | some t =>
      dsimp only
      rw [sent_proceed]
      cases transport <;> simp
  | enqueue | fileBatched | tick =>
    simp only [digestStep, transported, append_nil]
    split <;> rfl
  | file | stop => simp [digestStep, transported]

/-- Only the dead letter of a flush comes into the outbox. -/
theorem outbox_digestStep (w : DigestWorld) (op : DigestOp) :
    ∃ added, (digestStep true w op).outbox = w.outbox ++ added ∧
      ∀ entry ∈ added, ∃ t ∈ w.tick, t.stage = .outbox ∧ entry.1 = t.row.notificationId := by
  have heffect := digestStep_effect true w op
  generalize digestStep true w op = w' at heffect ⊢
  cases heffect with
  | @records t _ _ ht hs =>
    refine ⟨_, rfl, fun entry hentry => ⟨t, ht, hs, ?_⟩⟩
    rw [mem_singleton.mp hentry]
  | nothing | writes | files | queues | deletes | bumps =>
    exact ⟨[], (append_nil _).symm, fun _ hentry => by cases hentry⟩

/-- What is queued was queued before, with the same body, or is brought in by the step. -/
theorem queue_digestStep (hr : r ∈ (digestStep true w op).queue.rows) :
    (∃ r₀ ∈ w.queue.rows, r.notificationId = r₀.notificationId ∧ r.message = r₀.message) ∨
      op.newId = some r.notificationId := by
  have heffect := digestStep_effect true w op
  generalize digestStep true w op = w' at heffect hr
  cases heffect with
  | nothing | writes | files | records => exact .inl ⟨r, hr, rfl, rfl⟩
  | deletes => exact .inl ⟨r, (mem_deleteQueue.mp hr).1, rfl, rfl⟩
  | bumps => exact .inl (mem_bumpAttempts hr)
  | queues hinsert hid hnew =>
    dsimp only at hr
    rw [Table.rows_insert hinsert] at hr
    rcases mem_snoc.mp hr with hbefore | hlast
    · exact .inl ⟨r, hbefore, rfl, rfl⟩
    · rw [hlast, hid]
      exact .inr hnew

theorem ids_digestStep (hid : id ∉ w.ids) (hnew : op.newId ≠ some id) :
    id ∉ (digestStep true w op).ids := by
  have happend : ∀ id', op.newId = some id' → id ∉ w.ids ++ [id'] := by
    intro id' hnew' hmem
    rcases mem_snoc.mp hmem with hbefore | hlast
    · exact hid hbefore
    · exact hnew (hlast ▸ hnew')
  have heffect := digestStep_effect true w op
  generalize digestStep true w op = w' at heffect ⊢
  cases heffect with
  | files hnew' => exact happend _ hnew'
  | queues _ _ hnew' => exact happend _ hnew'
  | nothing | writes | deletes | bumps | records => exact hid

/-- The notification is transported, recorded with its body, or queued. -/
def Held (w : DigestWorld) (id body : String) : Prop :=
  id ∈ w.sent ∨ (∃ entry ∈ w.outbox, entry.1 = id ∧ entry.2.body = body) ∨
    ∃ r ∈ w.queue.rows, r.notificationId = id ∧ r.message = some body

structure Absent (w : DigestWorld) (id : String) : Prop where
  sent : id ∉ w.sent
  outbox : ∀ entry ∈ w.outbox, entry.1 ≠ id
  queue : ∀ r ∈ w.queue.rows, r.notificationId ≠ id

theorem mem_transported (h : id ∈ transported w op) :
    ∃ t ∈ w.tick, t.stage = .transport ∧ t.row.notificationId = id := by
  unfold transported at h
  split at h
  · rename_i t ht
    split at h
    · rename_i hs
      exact ⟨t, ht, hs, (mem_singleton.mp h).symm⟩
    · cases h
  · cases h

variable {body : String}

/-- What is queued stays, or leaves the queue transported or recorded. -/
theorem FlushInv.held_of_queued (h : FlushInv w) (op : DigestOp) (hr : r ∈ w.queue.rows)
    (hbody : r.message = some body) :
    Held (digestStep true w op) r.notificationId body := by
  have hstays : ∀ w' : DigestWorld, r ∈ w'.queue.rows → Held w' r.notificationId body :=
    fun w' hmem => .inr (.inr ⟨r, hmem, rfl, hbody⟩)
  have hsent := sent_digestStep w op
  have heffect := digestStep_effect true w op
  generalize digestStep true w op = w' at heffect hsent ⊢
  cases heffect with
  | nothing | writes | files | records => exact hstays _ hr
  | queues hinsert =>
    refine hstays _ ?_
    dsimp only
    rw [Table.rows_insert hinsert]
    exact mem_append_left _ hr
  | @deletes t _ _ ht hs =>
    by_cases hid : r.notificationId = t.row.notificationId
    · -- the row that is deleted is the one the flush is at
      have hrow := queue_eq hr ((h.tick t ht).queued _ mem_cons_self) hid
      have hstage := (h.tick t ht).stage
      rw [hrow] at hr hbody ⊢
      rcases hs with hs | hs | hs <;> rw [hs] at hstage
      · exact .inl (h.delivered t.row hr hstage)
      · exact .inl hstage
      · obtain ⟨-, body', hbody', hmem⟩ := hstage
        exact .inr (.inl ⟨_, hmem, rfl, Option.some.inj (hbody'.symm.trans hbody)⟩)
    · exact hstays _ (mem_deleteQueue.mpr ⟨hr, hid⟩)
  | @bumps t _ ht =>
    obtain ⟨r', hr', hid, -⟩ := mem_bumpAttempts_of_mem (t.row.attempts + 1) hr
    obtain ⟨r₀, hr₀, hid₀, hmessage⟩ := mem_bumpAttempts hr'
    have hsame : r₀ = r := queue_eq hr₀ hr (hid₀.symm.trans hid)
    refine .inr (.inr ⟨r', hr', hid, ?_⟩)
    rw [hmessage, hsame, hbody]

theorem FlushInv.held (h : FlushInv w) (op : DigestOp) (hheld : Held w id body) :
    Held (digestStep true w op) id body := by
  rcases hheld with hsent | ⟨entry, hentry, hid, hbody⟩ | ⟨r, hr, rfl, hbody⟩
  · left
    rw [sent_digestStep]
    exact mem_append_left _ hsent
  · obtain ⟨added, houtbox, -⟩ := outbox_digestStep w op
    refine .inr (.inl ⟨entry, ?_, hid, hbody⟩)
    rw [houtbox]
    exact mem_append_left _ hentry
  · exact h.held_of_queued op hr hbody

/-- A step makes nothing of a notification the digest does not have, unless it brings it in. -/
theorem FlushInv.absent (h : FlushInv w) (habsent : Absent w id) (hnew : op.newId ≠ some id) :
    Absent (digestStep true w op) id where
  sent hsent := by
    rw [sent_digestStep] at hsent
    rcases mem_append.mp hsent with hbefore | hnow
    · exact habsent.sent hbefore
    · obtain ⟨t, ht, -, hid⟩ := mem_transported hnow
      exact habsent.queue t.row ((h.tick t ht).queued _ mem_cons_self) hid
  outbox entry hentry hid := by
    obtain ⟨added, houtbox, hadded⟩ := outbox_digestStep w op
    rw [houtbox] at hentry
    rcases mem_append.mp hentry with hbefore | hnow
    · exact habsent.outbox entry hbefore hid
    · obtain ⟨t, ht, -, hrow⟩ := hadded entry hnow
      refine habsent.queue t.row ((h.tick t ht).queued _ mem_cons_self) ?_
      rw [← hrow]
      exact hid
  queue r hr hid := by
    rcases queue_digestStep hr with ⟨r₀, hr₀, hsame, -⟩ | hbrought
    · exact habsent.queue r₀ hr₀ (hsame ▸ hid)
    · exact hnew (hid ▸ hbrought)

theorem FlushInv.absent_of_fresh (h : FlushInv w) (hid : id ∉ w.ids) :
    Absent w id where
  sent hsent := hid (h.sentIds id hsent)
  outbox entry hentry hsame := hid (hsame ▸ h.outboxIds entry hentry)
  queue r hr hsame := hid (hsame ▸ (h.queueIds r hr).1)

end

end StackOwl.Notifications
