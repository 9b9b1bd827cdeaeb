import StackOwl.Lib.Run
import StackOwl.Lib.Window
import Mathlib.Order.Nat

/-!
# Journal rows on their way to the gateway's subscribers

The gateway's end of the journal fan-out (`runtime/gateway_link.py`): live pushes and the
catch-up that a `Hello` triggers share `_last_delivered_cursor`, the watermark.  Each
accepted connection is a coroutine of its own that routes its frames one after another;
a dead connection's coroutine may still be at work when the next one starts.  The
coroutines give way to each other at the reads of `read_since`, in `narrate`, and in
the hooks between the watermark and `emit`.

A row is its cursor.  A subscriber that raises is isolated by the bus, so `hand`
has no such case.  Any committed row may arrive as a push, at any time and on any
connection.

## Main results

* `delivered_step_iff` — what one step must not do for the rows handed over to be the
  rows the watermark has passed.
* `along_delivered_iff` — over a run, every row the watermark passes is handed over
  exactly once and in order exactly when each step takes the next row.
-/

namespace StackOwl.Runtime

open Lib List Option

/-! ## The journal -/

/-- `journal_events`, by the cursors of its rows. -/
structure Journal where
  cursors : List Nat
  increasing : cursors.Pairwise (· < ·)

variable (j : Journal)

def Journal.currentMaxCursor : Nat := j.cursors.foldr max 0

variable {c : Nat}

private theorem le_foldr_max {l : List Nat} (h : c ∈ l) :
    c ≤ l.foldr max 0 := by
  induction l with
  | nil => cases h
  | cons d l ih =>
    rcases mem_cons.mp h with rfl | hrest
    · exact Nat.le_max_left _ _
    · exact Nat.le_trans (ih hrest) (Nat.le_max_right _ _)

theorem Journal.le_currentMaxCursor {j : Journal} (h : c ∈ j.cursors) :
    c ≤ j.currentMaxCursor :=
  le_foldr_max h

/-- A transaction commits a row; its cursor is above every other. -/
def Journal.append (c : Nat) (h : j.currentMaxCursor < c) : Journal where
  cursors := j.cursors ++ [c]
  increasing := pairwise_append.mpr
    ⟨j.increasing, pairwise_singleton _ _, fun d hd e he => by
      obtain rfl := mem_singleton.mp he
      exact Nat.lt_of_le_of_lt (Journal.le_currentMaxCursor hd) h⟩

def JOURNAL_CATCH_UP_PAGE_LIMIT : Nat := 200

/-- `read_since`: one page of the rows above a cursor. -/
def Journal.readSince (cursor : Nat) : List Nat :=
  (j.cursors.filter (cursor < ·)).take JOURNAL_CATCH_UP_PAGE_LIMIT

/-! ## The gateway -/

/-- A frame the gateway reads from a connection, as far as the journal is concerned. -/
inductive Frame where
  /-- A compatible `HelloFrame`. -/
  | hello
  | journalEvent (cursor : Nat)

/-- Where a connection's coroutine is. -/
inductive Task where
  | idle
  /-- In `read_since`, from the watermark it was called with. -/
  | reading (cursor : Nat)
  /-- Before the first of the rows; `again` when the page they are from was full. -/
  | rows (todo : List Nat) (again : Bool)
  /-- In `narrate` of a row. -/
  | narrating (cursor : Nat) (todo : List Nat) (again : Bool)
  /-- Past the watermark's advance, in the hooks of a row. -/
  | announcing (cursor : Nat) (todo : List Nat) (again : Bool)

/-- The coroutine of one accepted connection: the frames it has not routed yet, and
where it is. -/
structure Handler where
  frames : List Frame := []
  task : Task := .idle

/-- The row whose hand-over is under way. -/
def Handler.announced (h : Handler) : Option Nat :=
  match h.task with
  | .announcing cursor _ _ => some cursor
  | _ => none

/-- `GatewayLink`, by its part in the fan-out: the watermark at boot and now, the rows
emitted so far, and the connections' coroutines. -/
structure GatewayLink where
  journal : Journal
  initial : Nat
  lastDeliveredCursor : Nat
  handed : List Nat := []
  handlers : List Handler := []

/-- `set_initial_cursor` at boot. -/
def GatewayLink.boot (journal : Journal) : GatewayLink where
  journal := journal
  initial := journal.currentMaxCursor
  lastDeliveredCursor := journal.currentMaxCursor

/-- One step of the world around the gateway, or of one coroutine. -/
inductive LinkOp where
  | commit (cursor : Nat)
  /-- A core connects. -/
  | connect
  /-- A frame arrives. -/
  | receive (i : Nat) (frame : Frame)
  /-- The connection breaks; what it had not delivered is gone. -/
  | lose (i : Nat)
  /-- `run` takes the next frame. -/
  | route (i : Nat)
  /-- `read_since` answers or raises. -/
  | read (i : Nat) (ok : Bool)
  /-- `_deliver_journal_row` compares with the watermark, or the page is done. -/
  | next (i : Nat)
  /-- `narrate` answers or raises; the watermark advances. -/
  | narrated (i : Nat) (ok : Bool)
  /-- The hooks are done and `emit` hands the row to the subscribers. -/
  | hand (i : Nat)

/-- The frame is a push of a committed row, or no push. -/
def Frame.committed : Frame → Bool
  | .hello => true
  | .journalEvent cursor => cursor ∈ j.cursors

variable (s : GatewayLink)

/-- Where a coroutine is after a step of its own. -/
def GatewayLink.advance (h : Handler) : LinkOp → Handler
  | .receive _ frame =>
    if frame.committed s.journal then { h with frames := h.frames ++ [frame] } else h
  | .lose _ => { h with frames := [] }
  | .route _ =>
    match h.task, h.frames with
    | .idle, .hello :: frames => ⟨frames, .reading s.lastDeliveredCursor⟩
    | .idle, .journalEvent cursor :: frames => ⟨frames, .rows [cursor] false⟩
    | _, _ => h
  | .read _ ok =>
    match h.task with
    | .reading cursor =>
      let page := s.journal.readSince cursor
      if ok ∧ page ≠ [] then
        { h with task := .rows page (page.length == JOURNAL_CATCH_UP_PAGE_LIMIT) }
      else { h with task := .idle }
    | _ => h
  | .next _ =>
    match h.task with
    | .rows [] again =>
      { h with task := if again then .reading s.lastDeliveredCursor else .idle }
    | .rows (cursor :: todo) again =>
      { h with
        task := if cursor ≤ s.lastDeliveredCursor then .rows todo again
          else .narrating cursor todo again }
    | _ => h
  | .narrated _ ok =>
    match h.task with
    | .narrating cursor todo again =>
      { h with task := if ok then .announcing cursor todo again else .rows todo again }
    | _ => h
  | .hand _ =>
    match h.task with
    | .announcing _ todo again => { h with task := .rows todo again }
    | _ => h
  | .commit _ | .connect => h

def Handler.watermark (h : Handler) (now : Nat) : LinkOp → Nat
  | .narrated _ _ =>
    match h.task with
    | .narrating cursor _ _ => cursor
    | _ => now
  | _ => now

/-- The rows a step of a coroutine hands over. -/
def Handler.hands (h : Handler) : LinkOp → List Nat
  | .hand _ => h.announced.toList
  | _ => []

def LinkOp.handler : LinkOp → Option Nat
  | .commit _ | .connect => none
  | .receive i _ | .lose i | .route i | .read i _ | .next i | .narrated i _ | .hand i =>
    some i

variable (op : LinkOp)

def GatewayLink.stepHandler (i : Nat) (op : LinkOp) : GatewayLink :=
  match s.handlers[i]? with
  | none => s
  | some h =>
    { s with
      lastDeliveredCursor := h.watermark s.lastDeliveredCursor op
      handed := s.handed ++ h.hands op
      handlers := s.handlers.set i (s.advance h op) }

def linkStep : GatewayLink :=
  match op with
  | .commit cursor =>
    if h : s.journal.currentMaxCursor < cursor then
      { s with journal := s.journal.append cursor h }
    else s
  | .connect => { s with handlers := s.handlers ++ [{}] }
  | .receive i _ | .lose i | .route i | .read i _ | .next i | .narrated i _ | .hand i =>
    s.stepHandler i op

/-! ## Delivery -/

/-- The rows whose hand-over is under way. -/
def GatewayLink.announcing : List Nat :=
  s.handlers.filterMap Handler.announced

/-- The rows the watermark has passed since boot. -/
def GatewayLink.passed : List Nat :=
  window s.journal.cursors s.initial s.lastDeliveredCursor

/-- The rows handed over so far are the rows the watermark has passed, each once and in
the order of their cursors, except for the last ones, whose hand-over is under way. -/
def Delivered : Prop :=
  ∃ rest, s.handed ++ rest = s.passed ∧ rest.Perm s.announcing

/-- A coroutine's step keeps to the next row: a row that could be narrated is the first
above the watermark; one that could not is the watermark's own; a row is emitted while no
hand-over of an earlier row is under way. -/
def GatewayLink.keepsTurn (h : Handler) : LinkOp → Prop
  | .narrated _ ok =>
    match h.task with
    | .narrating cursor _ _ =>
      if ok then IsNext s.journal.cursors s.lastDeliveredCursor cursor
      else cursor = s.lastDeliveredCursor
    | _ => True
  | .hand _ =>
    match h.task with
    | .announcing cursor _ _ => ∀ other ∈ s.announcing, cursor ≤ other
    | _ => True
  | _ => True

/-- The step keeps to the next row. -/
def OnTurn : Prop :=
  ∀ i h, op.handler = some i → s.handlers[i]? = some h → s.keepsTurn h op

/-! ## What holds of every run -/

def Frame.row : Frame → Option Nat
  | .hello => none
  | .journalEvent cursor => some cursor

/-- The rows a coroutine is still to look at, or at work on. -/
def Task.ahead : Task → List Nat
  | .idle | .reading _ => []
  | .rows todo _ => todo
  | .narrating cursor todo _ | .announcing cursor todo _ => cursor :: todo

/-- The rows on their way through a connection. -/
def Handler.rows (h : Handler) : List Nat := h.frames.filterMap Frame.row ++ h.task.ahead

/-- The watermark and the rows on their way are rows of the journal, and a row that
is being narrated was not there at boot. -/
structure Linked (s : GatewayLink) : Prop where
  bounded : s.initial ≤ s.journal.currentMaxCursor
  known : s.initial = s.lastDeliveredCursor ∨
    s.initial < s.lastDeliveredCursor ∧ s.lastDeliveredCursor ∈ s.journal.cursors
  rows : ∀ h ∈ s.handlers, ∀ c ∈ h.rows, c ∈ s.journal.cursors
  narrating : ∀ h ∈ s.handlers, ∀ c todo again,
    h.task = .narrating c todo again → s.initial < c

variable {s}

theorem Linked.initial_le (h : Linked s) :
    s.initial ≤ s.lastDeliveredCursor :=
  h.known.elim Nat.le_of_eq fun hpast => Nat.le_of_lt hpast.1

theorem Linked.le_max (h : Linked s) :
    s.lastDeliveredCursor ≤ s.journal.currentMaxCursor :=
  h.known.elim (fun heq => heq ▸ h.bounded) fun hpast =>
    Journal.le_currentMaxCursor hpast.2

theorem linked_boot (journal : Journal) : Linked (GatewayLink.boot journal) where
  bounded := Nat.le_refl _
  known := .inl rfl
  rows := fun _ h => absurd h not_mem_nil
  narrating := fun _ h => absurd h not_mem_nil

variable {h : Handler}

/-- A step of a coroutine refers to rows it referred to, or to rows of the journal. -/
theorem rows_advance (hc : c ∈ (s.advance h op).rows) :
    c ∈ h.rows ∨ c ∈ s.journal.cursors := by
  obtain ⟨frames, task⟩ := h
  simp only [Handler.rows, mem_append] at hc ⊢
  cases op with
  | commit cursor => exact .inl hc
  | connect => exact .inl hc
  | receive i frame =>
    simp only [GatewayLink.advance] at hc
    split at hc
    · rename_i hcommitted
      cases frame with
      | hello =>
        rw [filterMap_append] at hc
        exact .inl (by simpa [Frame.row] using hc)
      | journalEvent cursor =>
        simp only [Frame.committed, decide_eq_true_eq] at hcommitted
        simp only [filterMap_append, mem_append, filterMap_cons,
          filterMap_nil, mem_singleton, Frame.row] at hc
        obtain (hframes | rfl) | htask := hc
        · exact .inl (.inl hframes)
        · exact .inr hcommitted
        · exact .inl (.inr htask)
    · exact .inl hc
  | lose i => exact .inl (hc.elim (fun h => absurd h not_mem_nil) .inr)
  | route i =>
    cases task with
    | idle =>
      rcases frames with _ | ⟨_ | cursor, frames⟩ <;>
        simp only [GatewayLink.advance, filterMap_cons, Frame.row, Task.ahead,
          mem_cons, not_mem_nil, or_false] at hc ⊢ <;> tauto
    | _ => exact .inl hc
  | read i ok =>
    cases task with
    | reading cursor =>
      simp only [GatewayLink.advance] at hc
      split at hc
      · refine hc.imp .inl fun hpage => ?_
        exact mem_of_mem_filter (mem_of_mem_take hpage)
      · exact .inl hc
    | _ => exact .inl hc
  | next i =>
    cases task with
    | rows todo again =>
      rcases todo with _ | ⟨cursor, todo⟩
      · cases again <;> exact .inl hc
      · simp only [GatewayLink.advance] at hc
        split at hc <;> simp only [Task.ahead, mem_cons] at hc ⊢ <;> tauto
    | _ => exact .inl hc
  | narrated i ok =>
    cases task with
    | narrating cursor todo again =>
      cases ok <;> simp only [GatewayLink.advance, Task.ahead, mem_cons,
        Bool.false_eq_true, if_false, if_true] at hc ⊢ <;> tauto
    | _ => exact .inl hc
  | hand i =>
    cases task with
    | announcing cursor todo again =>
      simp only [GatewayLink.advance, Task.ahead, mem_cons] at hc ⊢
      tauto
    | _ => exact .inl hc

variable {todo : List Nat} {again : Bool} {op}

theorem narrating_advance (hc : (s.advance h op).task = .narrating c todo again) :
    h.task = .narrating c todo again ∨ s.lastDeliveredCursor < c := by
  obtain ⟨frames, task⟩ := h
  unfold GatewayLink.advance at hc
  split at hc
  · split at hc <;> exact .inl hc
  · exact .inl hc
  · split at hc
    · cases hc
    · cases hc
    · exact .inl hc
  · split at hc
    · dsimp only at hc
      split at hc <;> cases hc
    · exact .inl hc
  · split at hc
    · dsimp only at hc
      split at hc <;> cases hc
    · dsimp only at hc
      split at hc
      · cases hc
      · rename_i habove
        cases hc
        exact .inr (Nat.lt_of_not_le habove)
    · exact .inl hc
  · split at hc
    · dsimp only at hc
      split at hc <;> cases hc
    · exact .inl hc
  · split at hc
    · cases hc
    · exact .inl hc
  · exact .inl hc
  · exact .inl hc

/-- A step of a coroutine leaves the watermark, or moves it up to the row at hand. -/
theorem watermark_cases (h : Handler) (lastDeliveredCursor : Nat) (op : LinkOp) :
    h.watermark lastDeliveredCursor op = lastDeliveredCursor ∨
      ∃ c todo again, h.task = .narrating c todo again ∧
        h.watermark lastDeliveredCursor op = c := by
  unfold Handler.watermark
  split
  · split
    · rename_i c todo again htask
      exact .inr ⟨c, todo, again, htask, rfl⟩
    · exact .inl rfl
  · exact .inl rfl

theorem Linked.stepHandler (hs : Linked s) (i : Nat) (op : LinkOp) :
    Linked (s.stepHandler i op) := by
  unfold GatewayLink.stepHandler
  cases hi : s.handlers[i]? with
  | none => exact hs
  | some h =>
    have hmem := mem_of_getElem? hi
    refine ⟨hs.bounded, ?_, ?_, ?_⟩
    · obtain heq | ⟨c, todo, again, htask, heq⟩ :=
        watermark_cases h s.lastDeliveredCursor op
      · simp only [heq]
        exact hs.known
      · simp only [heq]
        refine .inr ⟨hs.narrating h hmem c todo again htask, hs.rows h hmem c ?_⟩
        simp [Handler.rows, htask, Task.ahead]
    · intro h' hh' c hc
      rcases mem_or_eq_of_mem_set hh' with hold | rfl
      · exact hs.rows h' hold c hc
      · exact (rows_advance op hc).elim (hs.rows h hmem c) id
    · intro h' hh' c todo again htask
      rcases mem_or_eq_of_mem_set hh' with hold | rfl
      · exact hs.narrating h' hold c todo again htask
      · exact (narrating_advance htask).elim (hs.narrating h hmem c todo again)
          (Nat.lt_of_le_of_lt hs.initial_le)

/-- **The links hold in every run.** -/
theorem linked_step (s : GatewayLink) (op : LinkOp) (hs : Linked s) :
    Linked (linkStep s op) := by
  cases op with
  | commit cursor =>
    simp only [linkStep]
    split
    · rename_i hnew
      refine ⟨?_, ?_, ?_, hs.narrating⟩
      · exact Nat.le_trans hs.bounded (Nat.le_trans (Nat.le_of_lt hnew)
          (Journal.le_currentMaxCursor (mem_append_right _ mem_cons_self)))
      · exact hs.known.imp id fun hpast => ⟨hpast.1, mem_append_left _ hpast.2⟩
      · intro h hh c hc
        exact mem_append_left _ (hs.rows h hh c hc)
    · exact hs
  | connect =>
    refine ⟨hs.bounded, hs.known, ?_, ?_⟩
    · intro h hh c hc
      rcases mem_snoc.mp hh with hold | rfl
      · exact hs.rows h hold c hc
      · cases hc
    · intro h hh c todo again htask
      rcases mem_snoc.mp hh with hold | rfl
      · exact hs.narrating h hold c todo again htask
      · cases htask
  | receive i frame => exact hs.stepHandler i _
  | lose i => exact hs.stepHandler i _
  | route i => exact hs.stepHandler i _
  | read i ok => exact hs.stepHandler i _
  | next i => exact hs.stepHandler i _
  | narrated i ok => exact hs.stepHandler i _
  | hand i => exact hs.stepHandler i _

/-! ## One step -/

theorem delivered_congr {s' : GatewayLink} (hhanded : s'.handed = s.handed)
    (hpassed : s'.passed = s.passed) (hannounced : s'.announcing.Perm s.announcing) :
    Delivered s' ↔ Delivered s := by
  unfold Delivered
  rw [hhanded, hpassed]
  exact exists_congr fun rest => and_congr_right fun _ =>
    ⟨fun h => h.trans hannounced, fun h => h.trans hannounced.symm⟩

variable {i : Nat}

/-- The hand-overs under way when one coroutine moves. -/
theorem announcing_stepHandler (hi : s.handlers[i]? = some h) (op : LinkOp) :
    (h.announced.toList ++ (s.stepHandler i op).announcing).Perm
      ((s.advance h op).announced.toList ++ s.announcing) := by
  simp only [GatewayLink.stepHandler, hi, GatewayLink.announcing]
  exact filterMap_set_perm (s.advance h op) hi

/-- A step that moves neither the watermark nor a hand-over changes nothing. -/
theorem delivered_of_quiet (hi : s.handlers[i]? = some h)
    (hwatermark : h.watermark s.lastDeliveredCursor op = s.lastDeliveredCursor)
    (hhands : h.hands op = []) (hannounced : (s.advance h op).announced = h.announced) :
    Delivered (s.stepHandler i op) ↔ Delivered s := by
  have hperm := announcing_stepHandler hi op
  rw [hannounced] at hperm
  refine delivered_congr ?_ ?_ ((perm_append_left_iff _).mp hperm)
  · simp only [GatewayLink.stepHandler, hi, hhands, append_nil]
  · simp only [GatewayLink.stepHandler, hi, GatewayLink.passed, hwatermark]

/-- The end of a narration moves the watermark to its row and hands nothing over. -/
theorem narrated_moves (hs : Linked s) (hi : s.handlers[i]? = some h)
    (htask : h.task = .narrating c todo again) (ok : Bool) :
    s.initial < c ∧ c ∈ s.journal.cursors ∧
      (s.stepHandler i (.narrated i ok)).passed = window s.journal.cursors s.initial c ∧
      (s.stepHandler i (.narrated i ok)).handed = s.handed := by
  have hmem := mem_of_getElem? hi
  have hrow : c ∈ h.rows := by simp [Handler.rows, htask, Task.ahead]
  refine ⟨hs.narrating h hmem c todo again htask, hs.rows h hmem c hrow, ?_, ?_⟩
  · simp only [GatewayLink.stepHandler, hi, GatewayLink.passed, Handler.watermark, htask]
  · simp only [GatewayLink.stepHandler, hi, Handler.hands, append_nil]

theorem delivered_narrated (hs : Linked s) (hdelivered : Delivered s) (hi : s.handlers[i]? = some h)
    (htask : h.task = .narrating c todo again) :
    Delivered (s.stepHandler i (.narrated i true)) ↔
      IsNext s.journal.cursors s.lastDeliveredCursor c := by
  obtain ⟨hlc, hc, hpassed', hhanded⟩ := narrated_moves hs hi htask true
  have hincreasing := s.journal.increasing
  obtain ⟨rest, hpassed, hrest⟩ := hdelivered
  have hperm := announcing_stepHandler hi (.narrated i true)
  simp only [Handler.announced, htask, GatewayLink.advance, if_true, toList_none,
    toList_some, nil_append, singleton_append] at hperm
  constructor
  · rintro ⟨rest', hpassed₂, hrest'⟩
    rw [hpassed', hhanded] at hpassed₂
    have hlength : (window s.journal.cursors s.initial c).length =
        s.passed.length + 1 := by
      rw [← hpassed₂, ← hpassed, length_append, length_append,
        hrest'.length_eq, hperm.length_eq, length_cons, hrest.length_eq]
      rfl
    exact (window_next_iff hincreasing hs.initial_le hc hlc).mp hlength
  · intro hnext
    refine ⟨rest ++ [c], ?_, ?_⟩
    · rw [hhanded, hpassed', window_split hincreasing hs.initial_le hnext.2.1.le,
        window_next hincreasing hnext, ← append_assoc, hpassed, GatewayLink.passed]
    · exact (perm_append_singleton c rest).trans ((hrest.cons c).trans hperm.symm)

theorem delivered_not_narrated (hs : Linked s) (hdelivered : Delivered s)
    (hi : s.handlers[i]? = some h) (htask : h.task = .narrating c todo again) :
    Delivered (s.stepHandler i (.narrated i false)) ↔ c = s.lastDeliveredCursor := by
  obtain ⟨hlc, hc, hpassed', hhanded⟩ := narrated_moves hs hi htask false
  have hperm := announcing_stepHandler hi (.narrated i false)
  simp only [Handler.announced, htask, GatewayLink.advance, Bool.false_eq_true, if_false,
    toList_none, nil_append] at hperm
  constructor
  · rintro ⟨rest', hpassed₂, hrest'⟩
    obtain ⟨rest, hpassed, hrest⟩ := hdelivered
    rw [hpassed', hhanded] at hpassed₂
    refine (window_length_eq_iff s.journal.increasing hs.known hc hlc).mp ?_
    show _ = s.passed.length
    rw [← hpassed₂, ← hpassed, length_append, length_append,
      hrest'.length_eq, hperm.length_eq, hrest.length_eq]
  · rintro rfl
    exact (delivered_congr hhanded hpassed' hperm).mpr hdelivered

theorem mem_announcing (hi : s.handlers[i]? = some h) (htask : h.task = .announcing c todo again)
    : c ∈ s.announcing :=
  mem_filterMap.mpr ⟨h, mem_of_getElem? hi, by rw [Handler.announced, htask]⟩

/-- Of the rows whose hand-over is under way, the first is the next to be handed over. -/
theorem prefix_passed_iff (hdelivered : Delivered s) (hc : c ∈ s.announcing) :
    s.handed ++ [c] <+: s.passed ↔ ∀ other ∈ s.announcing, c ≤ other := by
  obtain ⟨rest, hpassed, hrest⟩ := hdelivered
  have hincreasing : s.passed.Pairwise (· < ·) := s.journal.increasing.filter _
  rw [← hpassed, pairwise_append] at hincreasing
  rw [← hpassed, prefix_append_right_inj]
  cases hfirst : rest with
  | nil => exact absurd (hrest.mem_iff.mpr hc) (hfirst ▸ not_mem_nil)
  | cons first later =>
    rw [hfirst] at hrest
    have hlater := pairwise_cons.mp (hfirst ▸ hincreasing.2.1)
    rw [cons_prefix_cons, and_iff_left nil_prefix]
    constructor
    · rintro rfl other hother
      rcases mem_cons.mp (hrest.mem_iff.mpr hother) with rfl | hmem
      · exact Nat.le_refl _
      · exact (hlater.1 other hmem).le
    · intro hleast
      have hle := hleast first (hrest.mem_iff.mp mem_cons_self)
      rcases mem_cons.mp (hrest.mem_iff.mpr hc) with rfl | hmem
      · rfl
      · exact absurd (hlater.1 c hmem) (Nat.not_lt.mpr hle)

theorem delivered_hand (hdelivered : Delivered s) (hi : s.handlers[i]? = some h)
    (htask : h.task = .announcing c todo again) :
    Delivered (s.stepHandler i (.hand i)) ↔ ∀ other ∈ s.announcing, c ≤ other := by
  rw [← prefix_passed_iff hdelivered (mem_announcing hi htask)]
  have hperm := announcing_stepHandler hi (.hand i)
  simp only [Handler.announced, htask, GatewayLink.advance, toList_none,
    toList_some, nil_append, singleton_append] at hperm
  have hpassed' : (s.stepHandler i (.hand i)).passed = s.passed := by
    simp only [GatewayLink.stepHandler, hi, GatewayLink.passed, Handler.watermark]
  have hhanded : (s.stepHandler i (.hand i)).handed = s.handed ++ [c] := by
    simp only [GatewayLink.stepHandler, hi, Handler.hands, Handler.announced, htask,
      toList_some]
  constructor
  · rintro ⟨rest', hpassed₂, -⟩
    rw [hpassed', hhanded] at hpassed₂
    exact ⟨rest', hpassed₂⟩
  · rintro ⟨rest', hprefix⟩
    obtain ⟨rest, hpassed, hrest⟩ := hdelivered
    refine ⟨rest', by rw [hhanded, hpassed', hprefix], ?_⟩
    have hcons : rest = c :: rest' := by
      rw [← hpassed, append_assoc] at hprefix
      exact (append_cancel_left hprefix).symm
    rw [hcons] at hrest
    exact (hrest.trans hperm.symm).cons_inv

theorem announced_receive (s : GatewayLink) (h : Handler) (i : Nat) (frame : Frame) :
    (s.advance h (.receive i frame)).announced = h.announced := by
  simp only [GatewayLink.advance]
  split <;> rfl

theorem announced_route (s : GatewayLink) (h : Handler) (i : Nat) :
    (s.advance h (.route i)).announced = h.announced := by
  simp only [GatewayLink.advance]
  split
  · rename_i htask _
    simp [Handler.announced, htask]
  · rename_i htask _
    simp [Handler.announced, htask]
  · rfl

theorem announced_read (s : GatewayLink) (h : Handler) (i : Nat) (ok : Bool) :
    (s.advance h (.read i ok)).announced = h.announced := by
  simp only [GatewayLink.advance]
  split
  · rename_i htask
    split <;> simp [Handler.announced, htask]
  · rfl

theorem announced_next (s : GatewayLink) (h : Handler) (i : Nat) :
    (s.advance h (.next i)).announced = h.announced := by
  simp only [GatewayLink.advance]
  split
  · rename_i htask
    split <;> simp [Handler.announced, htask]
  · rename_i htask
    split <;> simp [Handler.announced, htask]
  · rfl

theorem delivered_stepHandler_iff (hs : Linked s) (hdelivered : Delivered s)
    (hi : s.handlers[i]? = some h) (hop : op.handler = some i) :
    Delivered (s.stepHandler i op) ↔ s.keepsTurn h op := by
  have hquiet : h.watermark s.lastDeliveredCursor op = s.lastDeliveredCursor →
      h.hands op = [] → (s.advance h op).announced = h.announced →
      s.keepsTurn h op → (Delivered (s.stepHandler i op) ↔ s.keepsTurn h op) :=
    fun hwatermark hhands hannounced hturn =>
      iff_of_true ((delivered_of_quiet hi hwatermark hhands hannounced).mpr hdelivered) hturn
  cases op with
  | commit cursor => cases hop
  | connect => cases hop
  | receive j frame => exact hquiet rfl rfl (announced_receive s h j frame) trivial
  | lose j => exact hquiet rfl rfl rfl trivial
  | route j => exact hquiet rfl rfl (announced_route s h j) trivial
  | read j ok => exact hquiet rfl rfl (announced_read s h j ok) trivial
  | next j => exact hquiet rfl rfl (announced_next s h j) trivial
  | narrated j ok =>
    cases hop
    cases htask : h.task with
    | narrating c todo again =>
      rw [GatewayLink.keepsTurn, htask]
      cases ok with
      | true => exact delivered_narrated hs hdelivered hi htask
      | false => exact delivered_not_narrated hs hdelivered hi htask
    | _ =>
      refine hquiet ?_ rfl ?_ ?_ <;>
        simp [Handler.watermark, GatewayLink.advance, GatewayLink.keepsTurn, htask]
  | hand j =>
    cases hop
    cases htask : h.task with
    | announcing c todo again =>
      rw [GatewayLink.keepsTurn, htask]
      exact delivered_hand hdelivered hi htask
    | _ =>
      refine hquiet rfl ?_ ?_ ?_ <;>
        simp [Handler.hands, Handler.announced, GatewayLink.advance,
          GatewayLink.keepsTurn, htask]

/-- **The step lemma.**  A step keeps the rows handed over in step with the watermark
exactly when it keeps to the next row. -/
theorem delivered_step_iff (hs : Linked s) (hdelivered : Delivered s) (op : LinkOp) :
    Delivered (linkStep s op) ↔ OnTurn s op := by
  have hcoroutine : ∀ i, op.handler = some i →
      (Delivered (s.stepHandler i op) ↔ OnTurn s op) := by
    intro i hop
    have hturn : OnTurn s op ↔ ∀ h, s.handlers[i]? = some h → s.keepsTurn h op := by
      unfold OnTurn
      constructor
      · exact fun hall h hi => hall i h hop hi
      · intro hall j h hj hi
        cases hop.symm.trans hj
        exact hall h hi
    rw [hturn]
    cases hi : s.handlers[i]? with
    | none =>
      simp only [GatewayLink.stepHandler, hi]
      exact iff_of_true hdelivered (fun h hh => nomatch hh)
    | some h =>
      rw [delivered_stepHandler_iff hs hdelivered hi hop]
      exact ⟨fun hh h' hh' => some.inj hh' ▸ hh, fun hall => hall h rfl⟩
  cases op with
  | commit cursor =>
    have hkept : Delivered (linkStep s (.commit cursor)) ↔ Delivered s := by
      simp only [linkStep]
      split
      · rename_i hnew
        refine delivered_congr rfl ?_ (List.Perm.refl _)
        exact window_append_of_lt (Nat.lt_of_le_of_lt hs.le_max hnew)
      · exact Iff.rfl
    exact iff_of_true (hkept.mpr hdelivered) (fun i h hi => nomatch hi)
  | connect =>
    have hannounced : (linkStep s .connect).announcing = s.announcing := by
      simp [linkStep, GatewayLink.announcing, Handler.announced]
    have hkept : Delivered (linkStep s .connect) ↔ Delivered s :=
      delivered_congr rfl rfl (hannounced ▸ List.Perm.refl _)
    exact iff_of_true (hkept.mpr hdelivered) (fun i h hi => nomatch hi)
  | receive i frame => exact hcoroutine i rfl
  | lose i => exact hcoroutine i rfl
  | route i => exact hcoroutine i rfl
  | read i ok => exact hcoroutine i rfl
  | next i => exact hcoroutine i rfl
  | narrated i ok => exact hcoroutine i rfl
  | hand i => exact hcoroutine i rfl

/-! ## Runs -/

theorem delivered_boot (journal : Journal) : Delivered (GatewayLink.boot journal) :=
  ⟨[], (window_eq_nil fun _ _ h => h).symm, List.Perm.refl _⟩

/-- The states a run reaches hand over in step with the watermark exactly when its steps
keep to the next row. -/
theorem along_delivered_iff (hs : Linked s) (hdelivered : Delivered s) (ops : List LinkOp) :
    Along linkStep Delivered s ops ↔ Meets linkStep OnTurn s ops :=
  along_iff_meets_of_inv linked_step (fun _ op hs hd => delivered_step_iff hs hd op) hs
    hdelivered ops

end StackOwl.Runtime
