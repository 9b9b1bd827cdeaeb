import StackOwl.Journal.Settlement

/-!
# The item a command task waits on

`get_item_by_waiter` and what the transactions of the journal do to the items bound to a
command task.  Only `park_for_decision` binds one; a question that a turn asks under the
same key takes an open one away.

## Main results

* `getItemByWaiter_of_latest` — the item opened last is the one that is read.
* `keepsWaiter_step` — no transaction binds an item to a command task.
* `Latest.kept` — a settled item stays the latest one.
-/

namespace StackOwl.Journal

open Lib Option

def WAITER_KIND_COMMAND : String := "command"

/-- `WHERE waiter_kind = ? AND waiter_id = ?`. -/
def NeedsYouItem.waits (waiterKind waiterId : String) (r : NeedsYouItem) : Bool :=
  r.waiterKind == some waiterKind && r.waiterId == some waiterId

/-- `get_item_by_waiter`: `ORDER BY opened_cursor DESC LIMIT 1`. -/
def getItemByWaiter (waiterKind waiterId : String) (s : JournalDb) : Option NeedsYouItem :=
  (orderBy (fun r => -(r.openedCursor : Int))
    (s.items.rows.filter (NeedsYouItem.waits waiterKind waiterId))).head?

/-- The item was opened after every other one bound to the command task. -/
structure Latest (s : JournalDb) (taskId : String) (r : NeedsYouItem) : Prop where
  mem : r ∈ s.items.rows
  waits : r.waits WAITER_KIND_COMMAND taskId = true
  last : ∀ q ∈ s.items.rows, q.waits WAITER_KIND_COMMAND taskId = true →
    q.id = r.id ∨ q.openedCursor < r.openedCursor

variable {taskId : String} {r : NeedsYouItem}

theorem getItemByWaiter_of_latest {s : JournalDb} (h : Latest s taskId r) :
    getItemByWaiter WAITER_KIND_COMMAND taskId s = some r := by
  refine head?_orderBy (List.mem_filter.mpr ⟨h.mem, h.waits⟩) fun q hq => ?_
  obtain ⟨hmem, hwaits⟩ := List.mem_filter.mp hq
  rcases h.last q hmem hwaits with hid | hlt
  · exact Or.inl (item_ext hmem h.mem hid)
  · right
    omega

variable {waiterKind waiterId : String}

theorem mem_of_getItemByWaiter {s : JournalDb}
    (h : getItemByWaiter waiterKind waiterId s = some r) :
    r ∈ s.items.rows ∧ r.waits waiterKind waiterId = true :=
  List.mem_filter.mp (mem_orderBy.mp (List.mem_of_head? h))

/-! ## Frames -/

/-- The items bound to a command task were bound to it before. -/
def KeepsWaiter (taskId : String) (s s' : JournalDb) : Prop :=
  ∀ r' ∈ s'.items.rows, r'.waits WAITER_KIND_COMMAND taskId = true →
    ∃ r ∈ s.items.rows, r.id = r'.id ∧ r.openedCursor = r'.openedCursor ∧
      r.waits WAITER_KIND_COMMAND taskId = true

theorem KeepsWaiter.refl (taskId : String) (s : JournalDb) : KeepsWaiter taskId s s :=
  fun r hr hwaits => ⟨r, hr, rfl, rfl, hwaits⟩

theorem KeepsWaiter.trans {s s' s'' : JournalDb} (h : KeepsWaiter taskId s s')
    (h' : KeepsWaiter taskId s' s'') :
    KeepsWaiter taskId s s'' := by
  intro r'' hr'' hwaits''
  obtain ⟨r', hr', hid', hcursor', hwaits'⟩ := h' r'' hr'' hwaits''
  obtain ⟨r, hr, hid, hcursor, hwaits⟩ := h r' hr' hwaits'
  exact ⟨r, hr, hid.trans hid', hcursor.trans hcursor', hwaits⟩

variable {s s' : JournalDb}

theorem KeepsWaiter.of_items (h : s'.items = s.items) : KeepsWaiter taskId s s' :=
  fun r hr hwaits => ⟨r, h ▸ hr, rfl, rfl, hwaits⟩

variable {env : Env}

theorem Latest.kept {how : Option Settler} (h : Latest s taskId r) (hclosed : r.isOpen = false)
    (hadvance : Advance env how s s') (hkeeps : KeepsWaiter taskId s s') : Latest s' taskId r := by
  refine ⟨hadvance.kept r h.mem hclosed, h.waits, fun q hq hwaits => ?_⟩
  obtain ⟨q₀, hq₀, hid, hcursor, hwaits₀⟩ := hkeeps q hq hwaits
  rw [← hid, ← hcursor]
  exact h.last q₀ hq₀ hwaits₀

theorem keepsWaiter_update {guard : NeedsYouItem → Bool} {set : NeedsYouItem → NeedsYouItem}
    {claimed : Option NeedsYouItem} (h : s.update guard set = some (claimed, s'))
    (hset : ∀ r, (set r).id = r.id ∧ (set r).openedCursor = r.openedCursor ∧
      ((set r).waits WAITER_KIND_COMMAND taskId = true →
        r.waits WAITER_KIND_COMMAND taskId = true)) : KeepsWaiter taskId s s' := by
  obtain ⟨items, hitems, heq⟩ := map_eq_some_iff.mp h
  obtain ⟨-, rfl⟩ := Prod.mk.inj heq
  intro r' hr' hwaits
  rw [Table.rows_updateWhere hitems] at hr'
  obtain ⟨r, hr, rfl⟩ := List.mem_map.mp hr'
  cases hguard : guard r with
  | true =>
    rw [patch_of_true hguard] at hwaits ⊢
    obtain ⟨hid, hcursor, hkeeps⟩ := hset r
    exact ⟨r, hr, hid.symm, hcursor.symm, hkeeps hwaits⟩
  | false =>
    rw [patch_of_false hguard] at hwaits ⊢
    exact ⟨r, hr, rfl, rfl, hwaits⟩

variable {cursor : Nat} {kind : NeedsYouKind} {itemId : String}

theorem keepsWaiter_openItem {intensity : Intensity} {key : String} {recordRef : Option String}
    {opened : Option String}
    (h : openItem itemId kind intensity key recordRef cursor s = some (opened, s')) :
    KeepsWaiter taskId s s' := by
  simp only [openItem] at h
  split at h
  · cases h
    exact KeepsWaiter.refl taskId s
  · obtain ⟨items, hitems, heq⟩ := map_eq_some_iff.mp h
    cases heq
    intro r hr hwaits
    rw [Table.rows_insert hitems] at hr
    rcases List.mem_append.mp hr with hold | hnew
    · exact ⟨r, hold, rfl, rfl, hwaits⟩
    · obtain rfl := List.mem_singleton.mp hnew
      cases hwaits

variable {writesPaused : Bool} {ids : Nat → String} {event : JournalEvent}

variable {nested : Record} {eventId : String}

theorem keepsWaiter_own (htype : event.type = NEEDS_YOU_OPENED ∨ event.type = NEEDS_YOU_RESOLVED)
    (h : recordBody env writesPaused nested ids event s = some (eventId, s')) :
    KeepsWaiter taskId s s' := by
  rcases htype with htype | htype
  · obtain ⟨e, hinserted, -⟩ := inserted_of_opened htype h
    exact KeepsWaiter.of_items hinserted.items
  · obtain ⟨e, hinserted, -⟩ := inserted_of_resolved htype h
    exact KeepsWaiter.of_items hinserted.items

theorem keepsWaiter_closeFor {types : List String}
    (h : closeFor env (recordBody env writesPaused nested) event cursor types ids s
      = some s') : KeepsWaiter taskId s s' := by
  induction types generalizing ids s with
  | nil =>
    cases h
    exact KeepsWaiter.refl taskId _
  | cons openingType rest ih =>
    simp only [closeFor, bind_eq_bind] at h
    obtain ⟨openingSpec, -, h⟩ := bind_eq_some_iff.mp h
    split at h
    · exact ih h
    obtain ⟨⟨resolved, s₁⟩, hupdate, h⟩ := bind_eq_some_iff.mp h
    have hclosed : KeepsWaiter taskId s s₁ :=
      keepsWaiter_update hupdate fun r => ⟨rfl, rfl, id⟩
    cases resolved with
    | none => exact hclosed.trans (ih h)
    | some item =>
      obtain ⟨⟨eventId, s₂⟩, hrecord, h⟩ := bind_eq_some_iff.mp h
      exact (hclosed.trans (keepsWaiter_own (Or.inr rfl) hrecord)).trans (ih h)

theorem keepsWaiter_openNeeded {spec : EventTypeSpec}
    (h : openNeeded env (recordBody env writesPaused nested) ids event spec cursor s
      = some s') : KeepsWaiter taskId s s' := by
  simp only [openNeeded] at h
  split at h
  · simp only [openFor, bind_eq_bind] at h
    obtain ⟨⟨opened, s₁⟩, hopen, h⟩ := bind_eq_some_iff.mp h
    have hopened : KeepsWaiter taskId s s₁ := keepsWaiter_openItem hopen
    cases opened with
    | none =>
      cases h
      exact hopened
    | some itemId =>
      obtain ⟨⟨eventId, s₂⟩, hrecord, h⟩ := bind_eq_some_iff.mp h
      cases h
      exact hopened.trans (keepsWaiter_own (Or.inl rfl) hrecord)
  · cases h
    exact KeepsWaiter.refl taskId s

theorem keepsWaiter_record (h : record env writesPaused ids event s = some (eventId, s')) :
    KeepsWaiter taskId s s' := by
  simp only [record, recordBody, bind_eq_bind] at h
  obtain ⟨⟨spec, cursor, s₁⟩, hinsert, h⟩ := bind_eq_some_iff.mp h
  obtain ⟨-, -, -, e, hinserted, -⟩ := inserted_of_insertRecord hinsert
  obtain ⟨s₂, hopen, h⟩ := bind_eq_some_iff.mp h
  obtain ⟨s₃, hclose, h⟩ := bind_eq_some_iff.mp h
  cases h
  exact ((KeepsWaiter.of_items hinserted.items).trans (keepsWaiter_openNeeded hopen)).trans
    (keepsWaiter_closeFor hclose)

theorem keepsWaiter_fixUp {item : NeedsYouItem} {actorKind : ActorKind} {outcome : Outcome}
    {label : String} (h : fixUp env writesPaused ids item actorKind outcome label s = some s') :
    KeepsWaiter taskId s s' := by
  simp only [fixUp, bind_eq_bind] at h
  obtain ⟨⟨eventId, s₁⟩, hrecord, h⟩ := bind_eq_some_iff.mp h
  obtain ⟨cursor, -, h⟩ := bind_eq_some_iff.mp h
  obtain ⟨⟨claimed, s₂⟩, hupdate, h⟩ := bind_eq_some_iff.mp h
  cases h
  exact (keepsWaiter_record hrecord).trans
    (keepsWaiter_update hupdate fun r => ⟨rfl, rfl, id⟩)

variable {resolvedBy : String} {report : NeedsYouResolution}

theorem keepsWaiter_expireItem
    (h : expireItem env writesPaused ids itemId resolvedBy s = some (report, s')) :
    KeepsWaiter taskId s s' := by
  simp only [expireItem, bind_eq_bind] at h
  obtain ⟨⟨claimed, s₁⟩, hclaim, h⟩ := bind_eq_some_iff.mp h
  have hclaimed : KeepsWaiter taskId s s₁ :=
    keepsWaiter_update hclaim fun r => ⟨rfl, rfl, id⟩
  cases claimed with
  | none =>
    rw [reread_same h]
    exact hclaimed
  | some item =>
    obtain ⟨s₂, hfix, h⟩ := bind_eq_some_iff.mp h
    cases h
    exact hclaimed.trans (keepsWaiter_fixUp hfix)

theorem keepsWaiter_resolve {answer : String} {expectedVersion : Option Nat}
    {expectedDigest : Option String} {now : String}
    (h : resolve env writesPaused ids itemId answer resolvedBy expectedVersion expectedDigest now s
      = some (report, s'))
    : KeepsWaiter taskId s s' := by
  simp only [resolve, bind_eq_bind] at h
  obtain ⟨row, -, h⟩ := bind_eq_some_iff.mp h
  split at h
  · cases h
    exact KeepsWaiter.refl taskId s
  split at h
  · exact keepsWaiter_expireItem h
  split at h
  · cases h
    exact KeepsWaiter.refl taskId s
  split at h
  · cases h
    exact KeepsWaiter.refl taskId s
  obtain ⟨⟨claimed, s₁⟩, hclaim, h⟩ := bind_eq_some_iff.mp h
  have hclaimed : KeepsWaiter taskId s s₁ :=
    keepsWaiter_update hclaim fun r => ⟨rfl, rfl, id⟩
  cases claimed with
  | none =>
    rw [reread_same h]
    exact hclaimed
  | some item =>
    obtain ⟨s₂, hfix, h⟩ := bind_eq_some_iff.mp h
    cases h
    exact hclaimed.trans (keepsWaiter_fixUp hfix)

/-- Binding an item to another waiter takes it away at most. -/
theorem keepsWaiter_bindWaiter {targetKind : ActorKind} {targetId : String}
    {expiresAt : Option String} {bound : Option NeedsYouItem}
    (hother : ¬ (waiterKind = WAITER_KIND_COMMAND ∧ waiterId = taskId))
    (h : bindWaiter env kind targetKind targetId waiterKind waiterId expiresAt s = some (bound, s'))
    : KeepsWaiter taskId s s' := by
  refine keepsWaiter_update h fun r => ⟨rfl, rfl, fun hwaits => ?_⟩
  exact absurd (by simpa [NeedsYouItem.waits] using hwaits) hother

def Transaction.bindsTurns (t : Transaction) : Bool :=
  match t.op with
  | .bindWaiter _ _ _ waiterKind _ _ => waiterKind != WAITER_KIND_COMMAND
  | _ => true

/-- **No transaction binds an item to a command task**, but the one that parks it. -/
theorem keepsWaiter_step (env : Env) (taskId : String) (s : JournalDb) (t : Transaction)
    (hturns : t.bindsTurns = true) : KeepsWaiter taskId s (journalStep env s t) := by
  unfold journalStep
  cases hbody : t.body env s with
  | none => exact KeepsWaiter.refl taskId s
  | some s' =>
    obtain ⟨op, writesPaused, ids⟩ := t
    cases op with
    | record event domain =>
      obtain ⟨⟨eventId, s₁⟩, hcall, rfl⟩ := map_eq_some_iff.mp hbody
      exact keepsWaiter_record hcall
    | bindWaiter kind targetKind targetId waiterKind waiterId expiresAt =>
      obtain ⟨⟨bound, s₁⟩, hcall, rfl⟩ := map_eq_some_iff.mp hbody
      have hother : waiterKind ≠ WAITER_KIND_COMMAND := by
        simpa [Transaction.bindsTurns] using hturns
      exact keepsWaiter_bindWaiter (fun h => hother h.1) hcall
    | resolve itemId answer resolvedBy expectedVersion expectedDigest now =>
      obtain ⟨⟨report, s₁⟩, hcall, rfl⟩ := map_eq_some_iff.mp hbody
      exact keepsWaiter_resolve hcall
    | expireItem itemId resolvedBy =>
      obtain ⟨⟨report, s₁⟩, hcall, rfl⟩ := map_eq_some_iff.mp hbody
      exact keepsWaiter_expireItem hcall

end StackOwl.Journal
