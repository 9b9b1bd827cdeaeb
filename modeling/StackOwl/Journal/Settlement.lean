import StackOwl.Journal.NeedsYou
import StackOwl.Lib.Run
import Mathlib.Data.List.Induction

/-!
# A needs-you item settles once

Three writers close an item: an answer, an expiry, and a resolving event.  Each closes it
together with the item's one `needs_you.resolved`, and nothing touches a closed item again.

## Main results

* `advance_step` — what one transaction does to the items.
* `settled_by_run` — every settled item was settled by one transaction of the run, and
  is as that one left it.
* `needs_you_settles_once` — this, the open items, and what a late `resolve` reports.
-/

namespace StackOwl.Journal

open Lib List Bool

/-! ## Invariants -/

/-- The `needs_you.resolved` rows of an item. -/
def JournalDb.resolutions (s : JournalDb) (id : String) : List JournalRow :=
  s.events.rows.filter fun e => e.attrs.resolvedItem == some id

/-- Items and journal rows agree. -/
structure Linked (s : JournalDb) : Prop where
  increasing : s.events.rows.Pairwise (·.cursor < ·.cursor)
  bounded : ∀ e ∈ s.events.rows, 0 < e.cursor ∧ e.cursor ≤ s.seq
  named : ∀ e ∈ s.events.rows, ∀ id, e.attrs.resolvedItem = some id →
    ∃ r ∈ s.items.rows, r.id = id ∧ r.isOpen = false
  opened : ∀ r ∈ s.items.rows, r.isOpen = true → r.answer = none
  settled : ∀ r ∈ s.items.rows, r.isOpen = false → ∃ e, s.resolutions r.id = [e]

theorem linked_empty : Linked .empty where
  increasing := List.Pairwise.nil
  bounded := fun _ h => absurd h not_mem_nil
  named := fun _ h => absurd h not_mem_nil
  opened := fun _ h => absurd h not_mem_nil
  settled := fun _ h => absurd h not_mem_nil

theorem item_ext {s : JournalDb} {r q : NeedsYouItem} (hr : r ∈ s.items.rows)
    (hq : q ∈ s.items.rows) (hid : r.id = q.id) : r = q :=
  s.items.eq_of_key mem_cons_self hr hq rfl
    (congrArg (fun id => some (Sum.inl id)) hid.symm)

theorem open_item_ext {s : JournalDb} {r q : NeedsYouItem} (hr : r ∈ s.items.rows)
    (hq : q ∈ s.items.rows) (hr_open : r.isOpen = true) (hq_open : q.isOpen = true)
    (hkey : r.dedupeKey = q.dedupeKey) : r = q := by
  refine s.items.eq_of_key (mem_cons_of_mem _ mem_cons_self) hr hq
    (if_pos hr_open) ?_
  rw [hkey]
  exact if_pos hq_open

variable {r : NeedsYouItem}

/-- An open item has no `needs_you.resolved`. -/
theorem Linked.resolutions_open {s : JournalDb} (hs : Linked s) (hr : r ∈ s.items.rows)
    (hopen : r.isOpen = true) : s.resolutions r.id = [] := by
  refine filter_eq_nil_iff.mpr fun e he hnames => ?_
  obtain ⟨q, hq, hid, hclosed⟩ := hs.named e he r.id (by simpa using hnames)
  rw [item_ext hq hr hid, hopen] at hclosed
  cases hclosed

/-! ## How an item was settled -/

/-- The writer that settled an item: an answer (as it is stored), an expiry, or the
resolving event at a cursor. -/
inductive Settler where
  | answer (text : String)
  | expiry
  | event (cursor : Nat) (type : String)

/-- What the writer left in the row, beside the item's `needs_you.resolved`. -/
def Settler.left (s : JournalDb) (r : NeedsYouItem) (e : JournalRow) : Settler → Prop
  | .answer text => r.answer = some text ∧ r.resolvedCursor = some e.cursor
  | .expiry => r.answer = none ∧ r.resolvedCursor = some e.cursor
  | .event cursor type =>
    r.answer = none ∧ r.resolvedCursor = some cursor ∧
      r.resolvedBy = some (truncated ("system:" ++ type)) ∧
      ∃ o ∈ s.events.rows, o.cursor = cursor ∧ o.type = type

/-- The item has one `needs_you.resolved`, which names who resolved it, and is as the
writer left it. -/
def Wrote (env : Env) (how : Settler) (s : JournalDb) (r : NeedsYouItem) : Prop :=
  ∃ e kind label, s.resolutions r.id = [e] ∧ r.resolvedBy = some label ∧
    e.attrs = .needsYouResolved r.id kind (env.redact label) ∧ how.left s r e

/-- What a stretch of writes does: it settles open items in one way, and leaves the
settled ones as they are. -/
structure Advance (env : Env) (how : Option Settler) (s s' : JournalDb) : Prop where
  linked : Linked s'
  grows : s.events.rows <+: s'.events.rows
  kept : ∀ r ∈ s.items.rows, r.isOpen = false → r ∈ s'.items.rows
  settled : ∀ r ∈ s'.items.rows, r.isOpen = false → r ∈ s.items.rows ∨
    (∀ q ∈ s.items.rows, q.id = r.id → q.isOpen = true) ∧
      ∃ h ∈ how, Wrote env h s' r

variable {env : Env} {how : Option Settler}

theorem Advance.refl {s : JournalDb} (hs : Linked s) :
    Advance env how s s :=
  ⟨hs, prefix_rfl, fun _ hr _ => hr, fun _ hr _ => .inl hr⟩

variable {s s' : JournalDb}

theorem Wrote.mono {how : Settler} (h : Wrote env how s r) (hr' : r ∈ s'.items.rows)
    (hclosed : r.isOpen = false) (hs' : Linked s') (hgrows : s.events.rows <+: s'.events.rows) :
    Wrote env how s' r := by
  obtain ⟨e, kind, label, he, hby, hattrs, hleft⟩ := h
  refine ⟨e, kind, label, ?_, hby, hattrs, ?_⟩
  · obtain ⟨e', he'⟩ := hs'.settled r hr' hclosed
    have hsub : s.resolutions r.id <+: s'.resolutions r.id := hgrows.filter _
    rw [he, he'] at hsub
    rw [he', hsub.eq_of_length rfl]
  · cases how with
    | answer text => exact hleft
    | expiry => exact hleft
    | event cursor type =>
      obtain ⟨ho, hc, hb, o, hmem, hoc⟩ := hleft
      exact ⟨ho, hc, hb, o, hgrows.subset hmem, hoc⟩

variable {s'' : JournalDb}

theorem Advance.trans (h : Advance env how s s') (h' : Advance env how s' s'')
    : Advance env how s s'' where
  linked := h'.linked
  grows := h.grows.trans h'.grows
  kept := fun r hr hclosed => h'.kept r (h.kept r hr hclosed) hclosed
  settled := by
    intro r hr hclosed
    rcases h'.settled r hr hclosed with hr' | ⟨hwasopen, hhow⟩
    · refine (h.settled r hr' hclosed).imp id ?_
      rintro ⟨hwasopen, how', hmem, hwrote⟩
      exact ⟨hwasopen, how', hmem, hwrote.mono hr hclosed h'.linked h'.grows⟩
    · refine .inr ⟨fun q hq hid => ?_, hhow⟩
      -- had it been closed before, it would still be there
      by_contra hq_closed
      have hq' := h.kept q hq (by simpa using hq_closed)
      exact hq_closed (hwasopen q hq' hid)

/-! ## The statements -/

/-- One row stands in the place of another one. -/
def Replaced (s s' : JournalDb) (old new : NeedsYouItem) : Prop :=
  ∀ r, r ∈ s'.items.rows ↔ r = new ∨ r ∈ s.items.rows ∧ r.id ≠ old.id

theorem Replaced.trans {a b c : NeedsYouItem} (h : Replaced s s' a b) (h' : Replaced s' s'' b c)
    (hid : b.id = a.id) :
    Replaced s s'' a c := by
  intro r
  rw [h' r, h r]
  constructor
  · rintro (rfl | ⟨rfl | hr, hne⟩)
    · exact .inl rfl
    · exact absurd rfl hne
    · exact .inr hr
  · rintro (rfl | hr)
    · exact .inl rfl
    · exact .inr ⟨.inr hr, hid ▸ hr.2⟩

variable {guard : NeedsYouItem → Bool}

variable {set : NeedsYouItem → NeedsYouItem} {claimed : Option NeedsYouItem}

theorem update_one (hr : r ∈ s.items.rows) (hguard : guard r = true)
    (honly : ∀ q ∈ s.items.rows, guard q = true → q = r)
    (h : s.update guard set = some (claimed, s')) :
    claimed = some (set r) ∧ Replaced s s' r (set r) ∧ s'.events = s.events ∧
      s'.seq = s.seq := by
  obtain ⟨items, hitems, heq⟩ := Option.map_eq_some_iff.mp h
  cases heq
  have hfound : s.items.find? guard = some r := by
    cases hfind : s.items.find? guard with
    | none => exact absurd hguard (by simpa using find?_eq_none.mp hfind r hr)
    | some q => rw [honly q (Table.mem_of_find? hfind) (Table.sat_of_find? hfind)]
  refine ⟨by rw [hfound, Option.map_some], fun q => ?_, rfl, rfl⟩
  rw [Table.rows_updateWhere hitems, mem_map]
  constructor
  · rintro ⟨p, hp, rfl⟩
    cases hpg : guard p with
    | true =>
      obtain rfl := honly p hp hpg
      exact .inl (patch_of_true hpg)
    | false =>
      rw [patch_of_false hpg]
      refine .inr ⟨hp, fun hid => ?_⟩
      rw [item_ext hp hr hid, hguard] at hpg
      cases hpg
  · rintro (rfl | ⟨hq, hne⟩)
    · exact ⟨r, hr, patch_of_true hguard⟩
    · refine ⟨q, hq, patch_of_false ?_⟩
      by_contra hqg
      exact hne (congrArg NeedsYouItem.id (honly q hq (by simpa using hqg)))

theorem update_none (hnone : ∀ q ∈ s.items.rows, guard q = false)
    (h : s.update guard set = some (claimed, s')) : claimed = none ∧ s' = s := by
  obtain ⟨items, hitems, heq⟩ := Option.map_eq_some_iff.mp h
  cases heq
  have hfound : s.items.find? guard = none :=
    find?_eq_none.mpr fun q hq => by simp [hnone q hq]
  have hrows : items.rows = s.items.rows := by
    rw [Table.rows_updateWhere hitems]
    exact (map_congr_left fun q hq => patch_of_false (hnone q hq)).trans (map_id _)
  have hsame : items = s.items := by
    obtain ⟨rows, unique⟩ := items
    obtain rfl : rows = _ := hrows
    rfl
  exact ⟨by rw [hfound, Option.map_none], by rw [hsame]⟩

/-- A row was appended to the journal, and nothing else was touched. -/
structure Inserted (s s' : JournalDb) (e : JournalRow) : Prop where
  events : s'.events.rows = s.events.rows ++ [e]
  cursor : e.cursor = s.seq + 1
  seq : s'.seq = s.seq + 1
  items : s'.items = s.items

variable {writesPaused : Bool} {event : JournalEvent} {eventId : String}

variable {spec : EventTypeSpec} {cursor : Nat}

theorem inserted_of_insertRecord
    (h : insertRecord env writesPaused eventId event s = some (spec, cursor, s')) :
    env.registry.get event.type = some spec ∧ event.attrs.model = spec.attrsModel ∧
      cursor = s.seq + 1 ∧ ∃ e, Inserted s s' e ∧ e.eventId = eventId ∧
        e.type = event.type ∧ e.attrs = event.attrs.scan env.redact := by
  simp only [insertRecord, Option.bind_eq_bind] at h
  split at h
  · cases h
  obtain ⟨spec', hspec, h⟩ := Option.bind_eq_some_iff.mp h
  split at h
  · cases h
  rename_i hmodel
  split at h
  · cases h
  obtain ⟨⟨cursor', s₁⟩, hinsert, h⟩ := Option.bind_eq_some_iff.mp h
  cases h
  obtain ⟨events, hevents, heq⟩ := Option.map_eq_some_iff.mp hinsert
  cases heq
  exact ⟨hspec, not_not.mp hmodel, rfl, _,
    ⟨Table.rows_insert hevents, rfl, rfl, rfl⟩, rfl, rfl, rfl⟩

variable {e : JournalRow}

theorem Inserted.grows (h : Inserted s s' e) :
    s.events.rows <+: s'.events.rows :=
  ⟨[e], h.events.symm⟩

theorem Inserted.resolutions (h : Inserted s s' e) (id : String) : s'.resolutions id =
      s.resolutions id ++ if e.attrs.resolvedItem == some id then [e] else [] := by
  rw [JournalDb.resolutions, h.events, filter_append, filter_cons,
    filter_nil]
  rfl

theorem Inserted.ordered (h : Inserted s s' e) (hs : Linked s) :
    s'.events.rows.Pairwise (·.cursor < ·.cursor) ∧
      ∀ o ∈ s'.events.rows, 0 < o.cursor ∧ o.cursor ≤ s'.seq := by
  have hcursor := h.cursor
  rw [h.events, h.seq]
  constructor
  · refine pairwise_append.mpr ⟨hs.increasing, pairwise_singleton _ _, ?_⟩
    intro o ho o' ho'
    obtain rfl := mem_singleton.mp ho'
    have := (hs.bounded o ho).2
    omega
  · intro o ho
    rcases mem_snoc.mp ho with hold | rfl
    · have := hs.bounded o hold
      omega
    · omega

theorem advance_of_inserted (hs : Linked s) (h : Inserted s s' e)
    (hnames : e.attrs.resolvedItem = none) : Advance env how s s' := by
  obtain ⟨hincreasing, hbounded⟩ := h.ordered hs
  have hresolutions : ∀ id, s'.resolutions id = s.resolutions id := by
    intro id
    simp [h.resolutions, hnames]
  refine ⟨⟨hincreasing, hbounded, ?_, ?_, ?_⟩, h.grows, ?_, ?_⟩
  · intro o ho id hid
    rw [h.items]
    rw [h.events] at ho
    rcases mem_snoc.mp ho with hold | rfl
    · exact hs.named o hold id hid
    · rw [hnames] at hid
      cases hid
  · rw [h.items]
    exact hs.opened
  · rw [h.items]
    simp only [hresolutions]
    exact hs.settled
  · rw [h.items]
    exact fun r hr _ => hr
  · rw [h.items]
    exact fun r hr _ => .inl hr

theorem advance_of_closed_iff (hs : Linked s)
    (hclosed : ∀ q, q.isOpen = false → (q ∈ s'.items.rows ↔ q ∈ s.items.rows))
    (hopened : ∀ q ∈ s'.items.rows, q.isOpen = true → q.answer = none)
    (hevents : s'.events = s.events) (hseq : s'.seq = s.seq) : Advance env how s s' := by
  have hresolutions : ∀ id, s'.resolutions id = s.resolutions id := by
    intro id
    rw [JournalDb.resolutions, hevents]
    rfl
  refine ⟨⟨?_, ?_, ?_, hopened, ?_⟩, ?_, ?_, ?_⟩
  · rw [hevents]
    exact hs.increasing
  · rw [hevents, hseq]
    exact hs.bounded
  · rw [hevents]
    intro o ho id hnames
    obtain ⟨q, hq, hqid, hqclosed⟩ := hs.named o ho id hnames
    exact ⟨q, (hclosed q hqclosed).mpr hq, hqid, hqclosed⟩
  · intro q hq hqclosed
    rw [hresolutions]
    exact hs.settled q ((hclosed q hqclosed).mp hq) hqclosed
  · exact hevents ▸ prefix_rfl
  · exact fun q hq hqclosed => (hclosed q hqclosed).mpr hq
  · exact fun q hq hqclosed => .inl ((hclosed q hqclosed).mp hq)

variable {r' : NeedsYouItem}

theorem advance_of_bound (hs : Linked s) (hr : r ∈ s.items.rows) (hopen : r.isOpen = true)
    (h : Replaced s s' r r') (hopen' : r'.isOpen = true) (hanswer : r'.answer = r.answer)
    (hevents : s'.events = s.events) (hseq : s'.seq = s.seq) :
    Advance env how s s' := by
  refine advance_of_closed_iff hs (fun q hq => ?_) (fun q hq hqopen => ?_) hevents hseq
  · rw [h q]
    constructor
    · rintro (rfl | ⟨hmem, -⟩)
      · rw [hopen'] at hq
        cases hq
      · exact hmem
    · intro hmem
      refine .inr ⟨hmem, fun hsame => ?_⟩
      rw [item_ext hmem hr hsame, hopen] at hq
      cases hq
  · rcases (h q).mp hq with rfl | ⟨hmem, -⟩
    · exact hanswer.trans (hs.opened r hr hopen)
    · exact hs.opened q hmem hqopen

theorem advance_of_opened (hs : Linked s) (h : s'.items.rows = s.items.rows ++ [r])
    (hopen : r.isOpen = true) (hanswer : r.answer = none) (hevents : s'.events = s.events)
    (hseq : s'.seq = s.seq) : Advance env how s s' := by
  refine advance_of_closed_iff hs (fun q hq => ?_) (fun q hq hqopen => ?_) hevents hseq
  · rw [h, mem_append, mem_singleton]
    refine or_iff_left ?_
    rintro rfl
    rw [hopen] at hq
    cases hq
  · rw [h] at hq
    rcases mem_snoc.mp hq with hold | hnew
    · exact hs.opened q hold hqopen
    · exact hnew ▸ hanswer

variable {kind : NeedsYouKind} {label : String} {s₁ : JournalDb}

/-- **An open item is closed**, together with its `needs_you.resolved`. -/
theorem advance_of_settled {how : Settler} (hs : Linked s) (hr : r ∈ s.items.rows)
    (hopen : r.isOpen = true) (h : Replaced s s' r r') (hid : r'.id = r.id)
    (hclosed' : r'.isOpen = false) (hinserted : Inserted s s₁ e) (hevents : s'.events = s₁.events)
    (hseq : s'.seq = s₁.seq) (hlabel : r'.resolvedBy = some label)
    (hattrs : e.attrs = .needsYouResolved r.id kind (env.redact label)) (hleft : how.left s' r' e) :
    Advance env (some how) s s' := by
  have hnames : e.attrs.resolvedItem = some r.id := by
    rw [hattrs]
    rfl
  have hresolutions : ∀ id, s'.resolutions id =
      s.resolutions id ++ if r.id = id then [e] else [] := by
    intro id
    rw [JournalDb.resolutions, hevents]
    refine (hinserted.resolutions id).trans ?_
    simp [hnames]
  have hone : s'.resolutions r.id = [e] := by
    rw [hresolutions, hs.resolutions_open hr hopen, if_pos rfl, nil_append]
  have hkept : ∀ q ∈ s.items.rows, q.isOpen = false → q ∈ s'.items.rows := by
    intro q hq hqclosed
    refine (h q).mpr (.inr ⟨hq, fun hsame => ?_⟩)
    rw [item_ext hq hr hsame, hopen] at hqclosed
    cases hqclosed
  obtain ⟨hincreasing, hbounded⟩ := hinserted.ordered hs
  refine ⟨⟨hevents ▸ hincreasing, ?_, ?_, ?_, ?_⟩, hevents ▸ hinserted.grows, hkept, ?_⟩
  · rw [hevents, hseq]
    exact hbounded
  · intro o ho id hoid
    rw [hevents, hinserted.events] at ho
    rcases mem_snoc.mp ho with hold | rfl
    · obtain ⟨q, hq, hqid, hqclosed⟩ := hs.named o hold id hoid
      exact ⟨q, hkept q hq hqclosed, hqid, hqclosed⟩
    · rw [hnames] at hoid
      exact ⟨r', (h r').mpr (.inl rfl), hid.trans (Option.some.inj hoid), hclosed'⟩
  · intro q hq hqopen
    rcases (h q).mp hq with rfl | ⟨hmem, -⟩
    · rw [hclosed'] at hqopen
      cases hqopen
    · exact hs.opened q hmem hqopen
  · intro q hq hqclosed
    rcases (h q).mp hq with rfl | ⟨hmem, hne⟩
    · exact ⟨e, hid ▸ hone⟩
    · obtain ⟨o, ho⟩ := hs.settled q hmem hqclosed
      exact ⟨o, by rw [hresolutions, ho, if_neg fun h => hne h.symm, append_nil]⟩
  · intro q hq hqclosed
    rcases (h q).mp hq with rfl | ⟨hmem, -⟩
    · refine .inr ⟨fun p hp hpid => ?_, how, rfl, e, kind, label, hid ▸ hone, hlabel,
        hid ▸ hattrs, hleft⟩
      rw [item_ext hp hr (hpid.trans hid)]
      exact hopen
    · exact .inl hmem

/-! ## `record` -/

variable {ids : Nat → String} {nested : Record}

/-- The types of this package need no owner and resolve nothing: recording one is its
`INSERT` alone. -/
theorem inserted_of_recordBody (hspec : env.registry.get event.type = some spec)
    (hkind : spec.needsYouKind = none) (hresolves : spec.resolves = [])
    (h : recordBody env writesPaused nested ids event s = some (eventId, s')) :
    ∃ e, Inserted s s' e ∧ e.eventId = eventId ∧ e.attrs = event.attrs.scan env.redact := by
  simp only [recordBody, Option.bind_eq_bind] at h
  obtain ⟨⟨spec', cursor, s₁⟩, hinsert, h⟩ := Option.bind_eq_some_iff.mp h
  obtain ⟨hspec', -, -, e, hinserted, heventId, -, hattrs⟩ :=
    inserted_of_insertRecord hinsert
  cases hspec.symm.trans hspec'
  simp only [openNeeded, hkind, hresolves, closeFor, Option.bind_some, Option.some.injEq,
    Prod.mk.injEq] at h
  obtain ⟨rfl, rfl⟩ := h
  exact ⟨e, hinserted, heventId, hattrs⟩

theorem inserted_of_resolved (htype : event.type = NEEDS_YOU_RESOLVED)
    (h : recordBody env writesPaused nested ids event s = some (eventId, s')) :
    ∃ e, Inserted s s' e ∧ e.eventId = eventId ∧ e.attrs = event.attrs.scan env.redact :=
  inserted_of_recordBody (htype ▸ env.registry.resolved) rfl rfl h

theorem inserted_of_opened (htype : event.type = NEEDS_YOU_OPENED)
    (h : recordBody env writesPaused nested ids event s = some (eventId, s')) :
    ∃ e, Inserted s s' e ∧ e.eventId = eventId ∧ e.attrs = event.attrs.scan env.redact :=
  inserted_of_recordBody (htype ▸ env.registry.opened) rfl rfl h

theorem openFor_advance {intensity : Intensity} (hs : Linked s)
    (h : openFor env (recordBody env writesPaused nested) ids event kind intensity cursor s
      = some s') : Advance env how s s' := by
  simp only [openFor, Option.bind_eq_bind] at h
  obtain ⟨⟨opened, s₁⟩, hopen, h⟩ := Option.bind_eq_some_iff.mp h
  simp only [openItem] at hopen
  split at hopen
  · cases hopen
    cases h
    exact Advance.refl hs
  · obtain ⟨items, hitems, heq⟩ := Option.map_eq_some_iff.mp hopen
    cases heq
    have hopened : Advance env how s { s with items := items } :=
      advance_of_opened hs (Table.rows_insert hitems) rfl rfl rfl rfl
    obtain ⟨⟨eventId, s₂⟩, hrecord, h⟩ := Option.bind_eq_some_iff.mp h
    cases h
    obtain ⟨e, hinserted, -, hattrs⟩ := inserted_of_opened rfl hrecord
    refine hopened.trans (advance_of_inserted hopened.linked hinserted ?_)
    rw [hattrs]
    rfl

theorem truncated_truncated (label : String) :
    truncated (truncated label) = truncated label := by
  simp [truncated, take_take]

/-- **The closing loop.**  Each item a resolving event closes is settled by that event. -/
theorem closeFor_advance {types : List String} (hs : Linked s)
    (hevent : ∃ o ∈ s.events.rows, o.cursor = cursor ∧ o.type = event.type)
    (h : closeFor env (recordBody env writesPaused nested) event cursor types ids s
      = some s') : Advance env (some (.event cursor event.type)) s s' := by
  induction types generalizing ids s with
  | nil =>
    cases h
    exact Advance.refl hs
  | cons openingType rest ih =>
    simp only [closeFor, Option.bind_eq_bind] at h
    obtain ⟨openingSpec, -, h⟩ := Option.bind_eq_some_iff.mp h
    split at h
    · exact ih hs hevent h
    rename_i kind _
    obtain ⟨⟨resolved, s₁⟩, hupdate, hrest⟩ := Option.bind_eq_some_iff.mp h
    by_cases hopen : ∃ r ∈ s.items.rows, (r.isOpen && r.dedupeKey ==
        dedupeKey kind.value event.targetKind.value (env.redact event.targetId)) = true
    · obtain ⟨r, hr, hguard⟩ := hopen
      have hboth := and_eq_true_iff.mp hguard
      obtain ⟨rfl, hreplaced, hevents₁, hseq₁⟩ := update_one hr hguard
        (fun q hq hqguard => by
          have hqboth := and_eq_true_iff.mp hqguard
          refine open_item_ext hq hr hqboth.1 hboth.1 ?_
          rw [eq_of_beq hqboth.2, eq_of_beq hboth.2]) hupdate
      obtain ⟨⟨eventId, s₂⟩, hrecord, hrest⟩ := Option.bind_eq_some_iff.mp hrest
      obtain ⟨e, hinserted, -, hattrs⟩ := inserted_of_resolved rfl hrecord
      have hinserted' : Inserted s { s with seq := s₂.seq, events := s₂.events } e :=
        ⟨hevents₁ ▸ hinserted.events, hseq₁ ▸ hinserted.cursor, hseq₁ ▸ hinserted.seq, rfl⟩
      obtain ⟨o, ho, hoc⟩ := hevent
      have ho' : o ∈ s₂.events.rows := hinserted'.grows.subset ho
      have hlabel : some (truncated (truncated ("system:" ++ event.type))) =
          some (truncated ("system:" ++ event.type)) :=
        congrArg some (truncated_truncated _)
      have hreplaced' : Replaced s s₂ r _ := fun q => hinserted.items ▸ hreplaced q
      have hclosed : Advance env (some (.event cursor event.type)) s s₂ :=
        advance_of_settled hs hr hboth.1 hreplaced' rfl rfl hinserted' rfl rfl hlabel
          hattrs ⟨hs.opened r hr hboth.1, rfl, hlabel, o, ho', hoc⟩
      exact hclosed.trans (ih hclosed.linked ⟨o, ho', hoc⟩ hrest)
    · obtain ⟨rfl, rfl⟩ := update_none (fun q hq => by
        by_contra hguard
        exact hopen ⟨q, hq, by simpa using hguard⟩) hupdate
      exact ih hs hevent hrest

theorem resolvedItem_of_domain (hspec : env.registry.get event.type = some spec)
    (hmodel : event.attrs.model = spec.attrsModel) (hdomain : event.type ≠ NEEDS_YOU_RESOLVED) :
    event.attrs.resolvedItem = none := by
  cases hattrs : event.attrs with
  | needsYouResolved itemId kind resolvedBy =>
    rw [hattrs] at hmodel
    exact absurd (env.registry.only_resolved _ _ hspec hmodel.symm) hdomain
  | needsYouOpened itemId kind intensity => rfl
  | other model fields => rfl

theorem record_advance (hs : Linked s) (hdomain : event.type ≠ NEEDS_YOU_RESOLVED)
    (h : record env writesPaused ids event s = some (eventId, s')) :
    Advance env (some (.event (s.seq + 1) event.type)) s s' := by
  simp only [record, recordBody, Option.bind_eq_bind] at h
  obtain ⟨⟨spec, cursor, s₁⟩, hinsert, h⟩ := Option.bind_eq_some_iff.mp h
  obtain ⟨hspec, hmodel, rfl, e, hinserted, -, htype, hattrs⟩ :=
    inserted_of_insertRecord hinsert
  have hnames : e.attrs.resolvedItem = none := by
    rw [hattrs, Attrs.resolvedItem_scan]
    exact resolvedItem_of_domain hspec hmodel hdomain
  have hinsert_advance : Advance env (some (.event (s.seq + 1) event.type)) s s₁ :=
    advance_of_inserted hs hinserted hnames
  have he : e ∈ s₁.events.rows := by
    rw [hinserted.events]
    exact mem_append_right _ mem_cons_self
  obtain ⟨s₂, hopen, h⟩ := Option.bind_eq_some_iff.mp h
  have hopen_advance : Advance env (some (.event (s.seq + 1) event.type)) s₁ s₂ := by
    simp only [openNeeded] at hopen
    split at hopen
    · exact openFor_advance hinsert_advance.linked hopen
    · cases hopen
      exact Advance.refl hinsert_advance.linked
  obtain ⟨s₃, hclose, h⟩ := Option.bind_eq_some_iff.mp h
  cases h
  have he₂ : ∃ o ∈ s₂.events.rows, o.cursor = s.seq + 1 ∧ o.type = event.type :=
    ⟨e, hopen_advance.grows.subset he, hinserted.cursor, htype⟩
  exact (hinsert_advance.trans hopen_advance).trans
    (closeFor_advance hopen_advance.linked he₂ hclose)

/-! ## `resolve` and `_expire_item` -/

theorem cursor_of_inserted (h : Inserted s s' e) :
    s'.journalCursorForEventId e.eventId = some e.cursor := by
  have he : e ∈ s'.events.rows := by
    rw [h.events]
    exact mem_append_right _ mem_cons_self
  rw [JournalDb.journalCursorForEventId]
  cases hfind : s'.events.find? fun o => o.eventId == e.eventId with
  | none => exact absurd (find?_eq_none.mp hfind e he) (by simp)
  | some o =>
    have hid : o.eventId = e.eventId := by simpa using Table.sat_of_find? hfind
    have hsame : o = e :=
      s'.events.eq_of_key mem_cons_self (Table.mem_of_find? hfind) he rfl
        (congrArg some hid.symm)
    rw [hsame, Option.map_some]

variable {item r₁ : NeedsYouItem} {actorKind : ActorKind}

/-- **The winner.**  An open item that was claimed is settled by the fix-up: its
`needs_you.resolved` is recorded, and its cursor takes the sentinel's place. -/
theorem fixUp_advance {outcome : Outcome} {how : Settler} (hs : Linked s) (hr : r ∈ s.items.rows)
    (hopen : r.isOpen = true) (hclaimed : Replaced s s₁ r r₁) (hid : r₁.id = r.id)
    (hitem : item.id = r.id) (hlabel : r₁.resolvedBy = some label) (hevents : s₁.events = s.events)
    (hseq : s₁.seq = s.seq)
    (hhow : (∃ text, how = .answer text ∧ r₁.answer = some text) ∨ how = .expiry ∧ r₁.answer = none)
    (h : fixUp env writesPaused ids item actorKind outcome label s₁ = some s') :
    Advance env (some how) s s' := by
  simp only [fixUp, Option.bind_eq_bind] at h
  obtain ⟨⟨eventId, s₂⟩, hrecord, h⟩ := Option.bind_eq_some_iff.mp h
  obtain ⟨e, hinserted, rfl, hattrs⟩ := inserted_of_resolved rfl hrecord
  simp only [cursor_of_inserted hinserted, Option.bind_some] at h
  obtain ⟨⟨claimed, s₃⟩, hupdate, h⟩ := Option.bind_eq_some_iff.mp h
  cases h
  have hr₁ : r₁ ∈ s₂.items.rows := by
    rw [hinserted.items]
    exact (hclaimed r₁).mpr (.inl rfl)
  obtain ⟨-, hfixed, hevents₃, hseq₃⟩ := update_one hr₁ (by simp [hid, hitem])
    (fun q hq hqid => item_ext hq hr₁ (by rw [eq_of_beq hqid, hid, hitem])) hupdate
  have hreplaced : Replaced s s₃ r _ :=
    Replaced.trans (fun q => hinserted.items ▸ hclaimed q) hfixed hid
  have hinserted' : Inserted s { s with seq := s₂.seq, events := s₂.events } e :=
    ⟨hevents ▸ hinserted.events, hseq ▸ hinserted.cursor, hseq ▸ hinserted.seq, rfl⟩
  refine advance_of_settled hs hr hopen hreplaced hid rfl hinserted' hevents₃ hseq₃ hlabel
    (hitem ▸ hattrs) ?_
  rcases hhow with ⟨text, rfl, hanswer⟩ | ⟨rfl, hanswer⟩
  · exact ⟨hanswer, rfl⟩
  · exact ⟨hanswer, rfl⟩

variable {report : NeedsYouResolution} {itemId : String}

theorem reread_same (h : rereadSettledOrRefused itemId s = some (report, s')) :
    s' = s := by
  obtain ⟨r, -, heq⟩ := Option.map_eq_some_iff.mp h
  exact (Prod.mk.inj heq).2.symm

variable {resolvedBy : String}

theorem expireItem_advance (hs : Linked s)
    (h : expireItem env writesPaused ids itemId resolvedBy s = some (report, s')) :
    Advance env (some .expiry) s s' := by
  simp only [expireItem, Option.bind_eq_bind] at h
  obtain ⟨⟨claimed, s₁⟩, hclaim, hrest⟩ := Option.bind_eq_some_iff.mp h
  by_cases hopen : ∃ r ∈ s.items.rows, (r.id == itemId && r.isOpen) = true
  · obtain ⟨r, hr, hguard⟩ := hopen
    have hboth := and_eq_true_iff.mp hguard
    obtain ⟨rfl, hreplaced, hevents, hseq⟩ := update_one hr hguard
      (fun q hq hqguard => item_ext hq hr (by
        rw [eq_of_beq (and_eq_true_iff.mp hqguard).1, eq_of_beq hboth.1])) hclaim
    obtain ⟨s₂, hfix, hrest⟩ := Option.bind_eq_some_iff.mp hrest
    cases hrest
    exact fixUp_advance hs hr hboth.2 hreplaced rfl rfl rfl hevents hseq
      (.inr ⟨rfl, hs.opened r hr hboth.2⟩) hfix
  · obtain ⟨rfl, rfl⟩ := update_none (fun q hq => by
      by_contra hguard
      exact hopen ⟨q, hq, by simpa using hguard⟩) hclaim
    rw [reread_same hrest]
    exact Advance.refl hs

def Transaction.settler (env : Env) (s : JournalDb) (t : Transaction) : Option Settler :=
  match t.op with
  | .record event _ => some (.event (s.seq + 1) event.type)
  | .bindWaiter .. => none
  | .resolve itemId answer _ _ _ now =>
    (s.items.find? fun r => r.id == itemId).map fun r =>
      if r.expiresAt.any (· ≤ now) then .expiry else .answer (env.redact answer)
  | .expireItem .. => some .expiry

variable {expectedVersion : Option Nat} {expectedDigest : Option String} {now : String}

variable {answer : String}

theorem resolve_advance (hs : Linked s)
    (h : resolve env writesPaused ids itemId answer resolvedBy expectedVersion expectedDigest now s
      = some (report, s')) :
    Advance env ((s.items.find? fun r => r.id == itemId).map fun r =>
      if r.expiresAt.any (· ≤ now) then .expiry else .answer (env.redact answer)) s s' := by
  simp only [resolve, Option.bind_eq_bind] at h
  obtain ⟨row, hfound, h⟩ := Option.bind_eq_some_iff.mp h
  have hrow : row ∈ s.items.rows := Table.mem_of_find? hfound
  have hid : row.id = itemId := by simpa using Table.sat_of_find? hfound
  rw [hfound, Option.map_some]
  split at h
  · cases h
    exact Advance.refl hs
  rename_i hnull
  have hopen : row.isOpen = true := by simpa [NeedsYouItem.isOpen] using hnull
  split at h
  · rename_i hexpired
    rw [if_pos hexpired]
    exact expireItem_advance hs h
  rename_i hlive
  rw [if_neg hlive]
  split at h
  · cases h
    exact Advance.refl hs
  split at h
  · cases h
    exact Advance.refl hs
  obtain ⟨⟨claimed, s₁⟩, hclaim, h⟩ := Option.bind_eq_some_iff.mp h
  obtain ⟨rfl, hreplaced, hevents, hseq⟩ := update_one hrow (by simp [hid, hopen])
    (fun q hq hqguard => item_ext hq hrow (by
      simp only [and_eq_true, beq_iff_eq] at hqguard
      rw [hqguard.1.1, hid])) hclaim
  obtain ⟨s₂, hfix, h⟩ := Option.bind_eq_some_iff.mp h
  cases h
  exact fixUp_advance hs hrow hopen hreplaced rfl rfl rfl hevents hseq
    (.inl ⟨_, rfl, rfl⟩) hfix

theorem bindWaiter_advance {targetKind : ActorKind} {targetId waiterKind waiterId : String}
    {expiresAt : Option String} {bound : Option NeedsYouItem} (hs : Linked s)
    (h : bindWaiter env kind targetKind targetId waiterKind waiterId expiresAt s =
      some (bound, s')) : Advance env how s s' := by
  by_cases hopen : ∃ r ∈ s.items.rows, (r.isOpen && r.dedupeKey ==
      dedupeKey kind.value targetKind.value (env.redact targetId)) = true
  · obtain ⟨r, hr, hguard⟩ := hopen
    have hboth := and_eq_true_iff.mp hguard
    obtain ⟨-, hreplaced, hevents, hseq⟩ := update_one hr hguard
      (fun q hq hqguard => by
        have hqboth := and_eq_true_iff.mp hqguard
        refine open_item_ext hq hr hqboth.1 hboth.1 ?_
        rw [eq_of_beq hqboth.2, eq_of_beq hboth.2]) h
    exact advance_of_bound hs hr hboth.1 hreplaced hboth.1 rfl hevents hseq
  · obtain ⟨-, rfl⟩ := update_none (fun q hq => by
      by_contra hguard
      exact hopen ⟨q, hq, by simpa using hguard⟩) h
    exact Advance.refl hs

/-! ## What is reported -/

theorem fixUp_row {outcome : Outcome} (hr₁ : r₁ ∈ s₁.items.rows) (hitem : item.id = r₁.id)
    (h : fixUp env writesPaused ids item actorKind outcome label s₁ = some s') :
    ∃ r ∈ s'.items.rows, r.id = r₁.id ∧ r.isOpen = false ∧ r.answer = r₁.answer := by
  simp only [fixUp, Option.bind_eq_bind] at h
  obtain ⟨⟨eventId, s₂⟩, hrecord, h⟩ := Option.bind_eq_some_iff.mp h
  obtain ⟨e, hinserted, -, -⟩ := inserted_of_resolved rfl hrecord
  obtain ⟨cursor, -, h⟩ := Option.bind_eq_some_iff.mp h
  obtain ⟨⟨claimed, s₃⟩, hupdate, h⟩ := Option.bind_eq_some_iff.mp h
  cases h
  have hr₂ : r₁ ∈ s₂.items.rows := by
    rw [hinserted.items]
    exact hr₁
  obtain ⟨-, hfixed, -, -⟩ := update_one hr₂ (by simp [hitem])
    (fun q hq hqid => item_ext hq hr₂ (by rw [eq_of_beq hqid, hitem])) hupdate
  exact ⟨_, (hfixed _).mpr (.inl rfl), rfl, rfl, rfl⟩

variable {text : String}

theorem reread_reports (h : rereadSettledOrRefused itemId s = some (report, s'))
    (hanswer : report.answer = some text) :
    ∃ r ∈ s'.items.rows, r.id = itemId ∧ r.isOpen = false ∧ r.answer = some text := by
  obtain ⟨r, hfound, heq⟩ := Option.map_eq_some_iff.mp h
  obtain ⟨hreport, rfl⟩ := Prod.mk.inj heq
  split at hreport
  · rename_i hsettled
    subst hreport
    refine ⟨r, Table.mem_of_find? hfound, by simpa using Table.sat_of_find? hfound, ?_, hanswer⟩
    simpa [NeedsYouItem.isOpen] using hsettled
  · subst hreport
    cases hanswer

theorem expireItem_reports
    (h : expireItem env writesPaused ids itemId resolvedBy s = some (report, s'))
    (hanswer : report.answer = some text) :
    ∃ r ∈ s'.items.rows, r.id = itemId ∧ r.isOpen = false ∧ r.answer = some text := by
  simp only [expireItem, Option.bind_eq_bind] at h
  obtain ⟨⟨claimed, s₁⟩, hclaim, h⟩ := Option.bind_eq_some_iff.mp h
  cases claimed with
  | none => exact reread_reports h hanswer
  | some item =>
    obtain ⟨s₂, hfix, h⟩ := Option.bind_eq_some_iff.mp h
    cases h
    cases hanswer

/-- **What `resolve` reports as the answer** is the answer in the row of the item. -/
theorem resolve_reports
    (h : resolve env writesPaused ids itemId answer resolvedBy expectedVersion expectedDigest now s
      = some (report, s'))
    (hanswer : report.answer = some text) :
    ∃ r ∈ s'.items.rows, r.id = itemId ∧ r.isOpen = false ∧ r.answer = some text := by
  simp only [resolve, Option.bind_eq_bind] at h
  obtain ⟨row, hfound, h⟩ := Option.bind_eq_some_iff.mp h
  have hrow : row ∈ s.items.rows := Table.mem_of_find? hfound
  have hid : row.id = itemId := by simpa using Table.sat_of_find? hfound
  split at h
  · rename_i hsettled
    cases h
    exact ⟨row, hrow, hid, by simpa [NeedsYouItem.isOpen] using hsettled, hanswer⟩
  rename_i hnull
  have hopen : row.isOpen = true := by simpa [NeedsYouItem.isOpen] using hnull
  split at h
  · exact expireItem_reports h hanswer
  split at h
  · cases h
    cases hanswer
  split at h
  · cases h
    cases hanswer
  obtain ⟨⟨claimed, s₁⟩, hclaim, h⟩ := Option.bind_eq_some_iff.mp h
  obtain ⟨rfl, hreplaced, -, -⟩ := update_one hrow (by simp [hid, hopen])
    (fun q hq hqguard => item_ext hq hrow (by
      simp only [and_eq_true, beq_iff_eq] at hqguard
      rw [hqguard.1.1, hid])) hclaim
  obtain ⟨s₂, hfix, h⟩ := Option.bind_eq_some_iff.mp h
  cases h
  obtain ⟨r, hr, hrid, hclosed, hranswer⟩ := fixUp_row ((hreplaced _).mpr (.inl rfl)) rfl hfix
  exact ⟨r, hr, hrid.trans hid, hclosed, hranswer.trans hanswer⟩

/-! ## Runs -/

/-- **The step lemma.** -/
theorem advance_step (hs : Linked s) (t : Transaction) :
    Advance env (t.settler env s) s (journalStep env s t) := by
  unfold journalStep
  cases hbody : t.body env s with
  | none => exact Advance.refl hs
  | some s' =>
    obtain ⟨op, writesPaused, ids⟩ := t
    cases op with
    | record event domain =>
      obtain ⟨⟨eventId, s₁⟩, hcall, rfl⟩ := Option.map_eq_some_iff.mp hbody
      exact record_advance hs domain hcall
    | bindWaiter kind targetKind targetId waiterKind waiterId expiresAt =>
      obtain ⟨⟨bound, s₁⟩, hcall, rfl⟩ := Option.map_eq_some_iff.mp hbody
      exact bindWaiter_advance hs hcall
    | resolve itemId answer resolvedBy expectedVersion expectedDigest now =>
      obtain ⟨⟨report, s₁⟩, hcall, rfl⟩ := Option.map_eq_some_iff.mp hbody
      exact resolve_advance hs hcall
    | expireItem itemId resolvedBy =>
      obtain ⟨⟨report, s₁⟩, hcall, rfl⟩ := Option.map_eq_some_iff.mp hbody
      exact expireItem_advance hs hcall

theorem linked_run (hs : Linked s) (ts : List Transaction) :
    Linked (run (journalStep env) s ts) := by
  have hstep : ∀ s t, Linked s → Linked (journalStep env s t) :=
    fun _ t hlinked => (advance_step hlinked t).linked
  exact (along_of_inv hstep hs ts).last

theorem settled_run (hs : Linked s) (hr : r ∈ s.items.rows) (hclosed : r.isOpen = false)
    (ts : List Transaction) :
    r ∈ (run (journalStep env) s ts).items.rows := by
  induction ts generalizing s with
  | nil => exact hr
  | cons t ts ih =>
    have hadvance : Advance env _ s (journalStep env s t) := advance_step hs t
    exact ih hadvance.linked (hadvance.kept r hr hclosed)

/-- A transaction of the run that found the item open, or not there, and settled it. -/
def SettledBy (env : Env) (ts : List Transaction) (r : NeedsYouItem) (how : Settler) : Prop :=
  ∃ before t after, ts = before ++ t :: after ∧
    (∀ q ∈ (run (journalStep env) .empty before).items.rows, q.id = r.id → q.isOpen = true) ∧
    r ∈ (run (journalStep env) .empty (before ++ [t])).items.rows ∧
    t.settler env (run (journalStep env) .empty before) = some how

/-- **The run lemma.** -/
theorem settled_by_run (env : Env) (ts : List Transaction)
    (hr : r ∈ (run (journalStep env) .empty ts).items.rows) (hclosed : r.isOpen = false) :
    ∃ how, SettledBy env ts r how ∧ Wrote env how (run (journalStep env) .empty ts) r := by
  induction ts using reverseRecOn with
  | nil => exact absurd hr not_mem_nil
  | append_singleton ts t ih =>
    have hlinked : Linked (run (journalStep env) .empty ts) := linked_run linked_empty ts
    have hadvance : Advance env _ _ (journalStep env _ t) := advance_step hlinked t
    have hlast : run (journalStep env) .empty (ts ++ [t]) =
        journalStep env (run (journalStep env) .empty ts) t := run_append _ _ _
    have hr' := hr
    rw [hlast] at hr'
    rw [hlast]
    rcases hadvance.settled r hr' hclosed with hold | ⟨hwasopen, how, hhow, hwrote⟩
    · obtain ⟨how, ⟨before, t', after, rfl, hsettled⟩, hwrote⟩ := ih hold
      refine ⟨how, ⟨before, t', after ++ [t], by simp, hsettled⟩, ?_⟩
      exact hwrote.mono hr' hclosed hadvance.linked hadvance.grows
    · exact ⟨how, ⟨ts, t, [], rfl, hwasopen, hr, hhow⟩, hwrote⟩

/-! ## The items -/

theorem open_items_le_one (s : JournalDb) (key : String) :
    (s.items.rows.filter fun r => r.isOpen && r.dedupeKey == key).length ≤ 1 := by
  rw [s.items.filter_eq_of_key (mem_cons_of_mem _ mem_cons_self) (i := Sum.inr key) fun r hr => ?_]
  · exact Option.length_toList_le
  · have hboth := and_eq_true_iff.mp hr
    rw [NeedsYouItem.openKey, if_pos hboth.1, eq_of_beq hboth.2]

/-- A `resolve` that comes late reads the settled row. -/
theorem resolve_settled (hr : r ∈ s.items.rows) (hclosed : r.isOpen = false) (writesPaused : Bool)
    (ids : Nat → String) (answer resolvedBy : String) (expectedVersion : Option Nat)
    (expectedDigest : Option String) (now : String) :
    resolve env writesPaused ids r.id answer resolvedBy expectedVersion expectedDigest now s
      = some (r.settledReport, s) := by
  have hfound : s.items.find? (fun q => q.id == r.id) = some r := by
    cases hfind : s.items.find? fun q => q.id == r.id with
    | none => exact absurd (find?_eq_none.mp hfind r hr) (by simp)
    | some q =>
      have hid : q.id = r.id := by simpa using Table.sat_of_find? hfind
      rw [item_ext (Table.mem_of_find? hfind) hr hid]
  have hsome : r.resolvedCursor.isSome = true := by
    simpa [NeedsYouItem.isOpen] using hclosed
  simp only [resolve, hfound, Option.bind_eq_bind, Option.bind_some, hsome, if_true]

/-- What a late call is told, where the item was answered or has expired. -/
def Settler.outcome : Settler → Option Resolution
  | .answer _ => some .resolved
  | .expiry => some .expired
  | .event .. => none

/-- **Needs-you items settle exactly once.**  In every state a run reaches from the
empty tables, at most one item of a key is open.  A settled item was settled by one
transaction, which found it open; it has one `needs_you.resolved`, whose cursor it carries,
or that of the event that resolved it, never the sentinel; no later transaction changes it;
and a late `resolve` of an item that was answered, or has expired, reports just that. -/
theorem needs_you_settles_once (env : Env) (ts : List Transaction) :
    (∀ key, ((run (journalStep env) .empty ts).items.rows.filter fun r =>
      r.isOpen && r.dedupeKey == key).length ≤ 1) ∧
    ∀ r ∈ (run (journalStep env) .empty ts).items.rows, r.isOpen = false →
      (∀ more, r ∈ (run (journalStep env) .empty (ts ++ more)).items.rows) ∧
      r.resolvedCursor ≠ some CLAIM_SENTINEL ∧
      ∃ how, SettledBy env ts r how ∧ Wrote env how (run (journalStep env) .empty ts) r ∧
        ∀ outcome, how.outcome = some outcome →
          ∀ writesPaused ids answer resolvedBy expectedVersion expectedDigest now,
            resolve env writesPaused ids r.id answer resolvedBy expectedVersion
                expectedDigest now (run (journalStep env) .empty ts) =
              some (r.report outcome r.answer, run (journalStep env) .empty ts) := by
  have hlinked : Linked (run (journalStep env) .empty ts) := linked_run linked_empty ts
  refine ⟨open_items_le_one _, fun r hr hclosed => ?_⟩
  obtain ⟨how, hsettled, hwrote⟩ := settled_by_run env ts hr hclosed
  refine ⟨fun more => ?_, ?_, how, hsettled, hwrote, fun outcome houtcome => ?_⟩
  · rw [run_append]
    exact settled_run hlinked hr hclosed more
  · obtain ⟨e, kind, label, he, -, -, hleft⟩ := hwrote
    have hmem : e ∈ (run (journalStep env) .empty ts).events.rows :=
      mem_of_mem_filter (he ▸ mem_singleton_self e)
    have hpos := (hlinked.bounded e hmem).1
    cases how with
    | answer text =>
      rw [hleft.2]
      exact fun h => absurd (Option.some.inj h) (Nat.ne_of_gt hpos)
    | expiry =>
      rw [hleft.2]
      exact fun h => absurd (Option.some.inj h) (Nat.ne_of_gt hpos)
    | event cursor type =>
      obtain ⟨-, hcursor, -, o, ho, rfl, -⟩ := hleft
      rw [hcursor]
      exact fun h => absurd (Option.some.inj h) (Nat.ne_of_gt (hlinked.bounded o ho).1)
  · intro writesPaused ids answer resolvedBy expectedVersion expectedDigest now
    rw [resolve_settled hr hclosed]
    obtain ⟨e, kind, label, -, -, -, hleft⟩ := hwrote
    cases how with
    | answer text =>
      cases houtcome
      rw [NeedsYouItem.settledReport, hleft.1]
      rfl
    | expiry =>
      cases houtcome
      rw [NeedsYouItem.settledReport, hleft.1]
      rfl
    | event cursor type => cases houtcome

/-! ## A resolving event -/

def parkedSpec : EventTypeSpec where
  attrsModel := "JobParkedAttrs"
  attentionClass := .needsYou
  intensity := some .high
  needsYouKind := some .incident

def resumedSpec : EventTypeSpec where
  attrsModel := "JobResumedAttrs"
  attentionClass := .ambient
  resolves := ["job.parked"]
  intensity_iff := resolvedSpec.intensity_iff
  kind_iff := resolvedSpec.kind_iff

/-- A registry with one type that opens items and one that resolves it. -/
def jobRegistry : EventRegistry where
  get type :=
    if type = "job.parked" then some parkedSpec
    else if type = "job.resumed" then some resumedSpec
    else if type = NEEDS_YOU_OPENED then some openedSpec
    else if type = NEEDS_YOU_RESOLVED then some resolvedSpec
    else none
  opened := rfl
  resolved := rfl
  only_resolved := by
    intro type spec hget hmodel
    by_contra hother
    split at hget
    · cases hget
      exact absurd hmodel (by decide)
    split at hget
    · cases hget
      exact absurd hmodel (by decide)
    split at hget
    · cases hget
      exact absurd hmodel (by decide)
    cases hget

def jobEnv : Env where
  registry := jobRegistry
  redact := id
  dumpJson := fun _ => ""
  sha256 := id

def jobEvent (type model : String) : JournalEvent where
  type := type
  actorKind := .autonomous
  actorId := "scheduler"
  targetKind := .autonomous
  targetId := "job-1"
  outcome := .ok
  attrs := .other model []

def parkedThenResumed : List Transaction :=
  [⟨.record (jobEvent "job.parked" "JobParkedAttrs") (by decide), false, fun n => "a" ++ n.repr⟩,
    ⟨.record (jobEvent "job.resumed" "JobResumedAttrs") (by decide), false, fun n => "b" ++ n.repr⟩]

/-- The item carries the cursor of the resuming event, which is not that of its
`needs_you.resolved`, and a late answer is told that it expired. -/
theorem resumed_item_reports_expired :
    let s := run (journalStep jobEnv) .empty parkedThenResumed
    s.items.rows.map (fun r => (r.id, r.resolvedCursor)) = [("a1", some 3)] ∧
      (s.resolutions "a1").map JournalRow.cursor = [4] ∧
      (resolve jobEnv false (fun n => "c" ++ n.repr) "a1" "retry" "telegram" none none
        "2026-01-01" s).map (fun res => (res.1.outcome, res.1.answer)) =
          some (.expired, none) := by
  decide

end StackOwl.Journal
