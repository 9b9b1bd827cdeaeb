import Mathlib.Data.List.Dedup
import StackOwl.Journal.NeedsYou
import StackOwl.Lib.Batches
import StackOwl.Lib.IsoTime

/-!
# Pruning the journal

`JournalPruneHandler.execute` (`scheduler/handlers/journal_prune.py`) over
`journal_events`: it counts the events that are older than the retention and not held,
and deletes as many of them, at most `_PRUNE_MAX_PER_PASS`, in batches.  The holds are
those of the registered sources (`journal/retention_holds.py`), of which `needs_you` is
one.  Each statement binds them one by one, and SQLite refuses a statement with more
parameters than its limit.

Each batch chooses its rows among the eligible ones only, so what lies between them takes
no place in it and every batch but the last is full.

## Main results

* `pruneLoop_rows` — the batches delete what one statement would.
* `pruneEvents_exact_iff` — a pass deletes the oldest eligible events, as many as there are up
  to the cap, and nothing else, exactly where the limit leaves room for the held cursors or
  there is nothing to delete.
* `execute_keeps_open` — no pass deletes the event an open item refers to.
-/

namespace StackOwl.Journal

open Lib List

/-! ## Holds -/

/-- `_held_cursors`; nothing is held where no pool is wired. -/
def heldByNeedsYou (items : Option (List NeedsYouItem)) : List Int :=
  match items with
  | none => []
  | some items => (items.filter NeedsYouItem.isOpen).map fun r => (r.openedCursor : Int)

/-- `RetentionHoldRegistry.held_cursors`, over what each source reports. -/
def heldCursors (sources : List (List Int)) : List Int := sources.flatten.dedup

/-! ## The pass -/

def PRUNE_BATCH : Int := 5000

def PRUNE_MAX_PER_PASS : Int := 50000

/-- A row of `journal_events`, by what the pass reads: `cursor` and `occurred_at`. -/
structure EventRow where
  cursor : Int
  occurredAt : String

/-- `journal_events` under its primary key. -/
abbrev EventTable := Table EventRow Int [fun r => some r.cursor]

/-- `occurred_at < ? AND cursor NOT IN (…)`. -/
def eligible (held : List Int) (cutoffIso : String) (r : EventRow) : Bool :=
  decide (r.occurredAt < cutoffIso) && decide (r.cursor ∉ held)

def deleteBatch (held : List Int) (cutoffIso : String) (batch : Int) (t : EventTable) :
    EventTable :=
  let chosen :=
    (limit batch (orderBy EventRow.cursor (t.rows.filter (eligible held cutoffIso)))).map
      EventRow.cursor
  t.deleteWhere fun r => decide (r.cursor ∈ chosen)

/-- `while remaining > 0`, with what it has counted as deleted. -/
def pruneLoop (held : List Int) (cutoffIso : String) (remaining deletedSoFar : Int)
    (t : EventTable) : Int × EventTable :=
  if 0 < remaining then
    let batch := min PRUNE_BATCH remaining
    pruneLoop held cutoffIso (remaining - PRUNE_BATCH) (deletedSoFar + batch)
      (deleteBatch held cutoffIso batch t)
  else (deletedSoFar, t)
termination_by remaining.toNat
decreasing_by
  simp only [PRUNE_BATCH]
  omega

/-- What a pass leaves, and the two counts it reports. -/
structure PrunePass where
  prunedCount : Int
  deletedSoFar : Int
  events : EventTable

/-- The pass, up to the checkpoint; `none` is an exception.  No statement may bind more than
`maxParams` parameters, and all those that delete bind as many. -/
def pruneEvents (maxParams : Nat) (held : List Int) (cutoffIso : String) (t : EventTable) :
    Option PrunePass :=
  if maxParams < held.length + 1 then none
  else
    let eligibleCount : Int := t.rows.countP (eligible held cutoffIso)
    let prunedCount := min eligibleCount PRUNE_MAX_PER_PASS
    if prunedCount ≠ 0 then
      if maxParams < held.length + 2 then none
      else
        let (deletedSoFar, events) := pruneLoop held cutoffIso prunedCount 0 t
        some ⟨prunedCount, deletedSoFar, events⟩
    else some ⟨prunedCount, 0, t⟩

/-- `datetime.now(UTC) - timedelta(days=retention_days)`, which raises where it would lie
before the year 1. -/
def cutoffOf (now : Instant) (retentionDays : Nat) : Option Instant :=
  if retentionDays * SECONDS_PER_DAY * MICROS_PER_SECOND ≤ now.val then
    some (now.minus (retentionDays * SECONDS_PER_DAY))
  else none

/-- `execute`, of a pass that may have raised: then it has deleted nothing. -/
def executed (t : EventTable) (pass : Option PrunePass) : Bool × PrunePass :=
  (pass.isSome, pass.getD ⟨0, 0, t⟩)

def execute (maxParams : Nat) (sources : List (List Int)) (now : Instant) (retentionDays : Nat)
    (t : EventTable) : Bool × PrunePass :=
  executed t ((cutoffOf now retentionDays).bind fun cutoff =>
    pruneEvents maxParams (heldCursors sources) (isoformat cutoff) t)

/-! ## What the loop deletes -/

theorem nodup_cursors (t : EventTable) : (t.rows.map EventRow.cursor).Nodup := by
  have hunique := t.unique _ mem_cons_self
  rwa [filterMap_eq_map'] at hunique

/-- A batch takes the first eligible events, whatever lies between them. -/
theorem deleteBatch_rows (held : List Int) (cutoffIso : String) (n : Nat) (t : EventTable) :
    (deleteBatch held cutoffIso n t).rows =
      withoutFirst EventRow.cursor (eligible held cutoffIso) n t.rows := by
  have hlimit : ∀ rows : List EventRow, limit (n : Int) rows = rows.take n := by
    intro rows
    rw [limit, if_neg (by omega), Int.toNat_natCast]
  simp only [deleteBatch, hlimit, Table.rows_deleteWhere, withoutFirst, queued]
  apply filter_congr
  intro r _
  simp

/-- **The batches delete what one statement would**, and are counted as such. -/
theorem pruneLoop_rows (held : List Int) (cutoffIso : String) :
    ∀ (n : Nat) (deletedSoFar : Int) (t : EventTable),
      (pruneLoop held cutoffIso n deletedSoFar t).1 = deletedSoFar + n ∧
        (pruneLoop held cutoffIso n deletedSoFar t).2.rows =
          withoutFirst EventRow.cursor (eligible held cutoffIso) n t.rows := by
  intro n
  obtain ⟨size, hsize, hpos⟩ : ∃ size : Nat, PRUNE_BATCH = size ∧ 0 < size :=
    ⟨5000, rfl, by decide⟩
  induction n using Nat.strong_induction_on with
  | _ n ih =>
    intro deletedSoFar t
    rw [pruneLoop]
    by_cases hzero : n = 0
    · subst hzero
      simp [withoutFirst_zero]
    · rw [if_pos (by omega)]
      by_cases hfull : size < n
      · -- a full batch, and the rest of the loop
        have hbatch : min PRUNE_BATCH (n : Int) = size := by omega
        have hrest : (n : Int) - PRUNE_BATCH = (n - size : Nat) := by omega
        simp only [hbatch, hrest]
        obtain ⟨hcount, hrows⟩ := ih (n - size) (by omega) (deletedSoFar + size)
          (deleteBatch held cutoffIso size t)
        constructor
        · rw [hcount]
          omega
        · rw [hrows, deleteBatch_rows, withoutFirst_withoutFirst (nodup_cursors t)]
          congr 1
          omega
      · -- the last batch, after which `remaining` is not positive
        have hbatch : min PRUNE_BATCH (n : Int) = n := by omega
        have hstop : ¬ 0 < (n : Int) - PRUNE_BATCH := by omega
        simp only [hbatch]
        rw [pruneLoop, if_neg hstop]
        exact ⟨rfl, deleteBatch_rows held cutoffIso n t⟩

theorem length_queued (held : List Int) (cutoffIso : String) (t : EventTable) :
    (queued EventRow.cursor (eligible held cutoffIso) t.rows).length =
      t.rows.countP (eligible held cutoffIso) := by
  rw [(perm_queued t.rows).length_eq, countP_eq_length_filter]

variable {maxParams : Nat} {t : EventTable} {pass : PrunePass} {held : List Int}

theorem pruneEvents_rows {cutoffIso : String}
    (h : pruneEvents maxParams held cutoffIso t = some pass) :
    pass.deletedSoFar = (min (t.rows.countP (eligible held cutoffIso)) 50000 : Nat) ∧
      pass.events.rows =
        withoutFirst EventRow.cursor (eligible held cutoffIso)
          (min (t.rows.countP (eligible held cutoffIso)) 50000) t.rows := by
  have hcast : min (t.rows.countP (eligible held cutoffIso) : Int) PRUNE_MAX_PER_PASS =
      (min (t.rows.countP (eligible held cutoffIso)) 50000 : Nat) := by
    simp only [PRUNE_MAX_PER_PASS]
    omega
  simp only [pruneEvents, hcast] at h
  split at h
  · cases h
  split at h
  · split at h
    · cases h
    cases h
    obtain ⟨hcount, hrows⟩ := pruneLoop_rows held cutoffIso
      (min (t.rows.countP (eligible held cutoffIso)) 50000) 0 t
    exact ⟨by rw [hcount, Int.zero_add], hrows⟩
  · rename_i hnone
    have hzero : min (t.rows.countP (eligible held cutoffIso)) 50000 = 0 := by omega
    cases h
    rw [hzero, withoutFirst_zero]
    exact ⟨rfl, rfl⟩

/-! ## Exactness -/

/-- The event is older than the cutoff, as the statement compares them. -/
def Older (cutoff : Instant) (r : EventRow) : Prop := r.occurredAt < isoformat cutoff

variable {r : EventRow} {cutoff : Instant}

/-- For an event that carries the text of an instant, as every recorded one does, this is
the order of the instants. -/
theorem older_iff {stamp : Instant} (h : r.occurredAt = isoformat stamp) :
    Older cutoff r ↔ stamp < cutoff := by
  rw [Older, h, isoformat_lt_iff]

theorem eligible_iff :
    eligible held (isoformat cutoff) r = true ↔ Older cutoff r ∧ r.cursor ∉ held := by
  rw [eligible, Bool.and_eq_true, decide_eq_true_eq, decide_eq_true_eq, Older]

/-- A pass over `before` has left `after`: the events it deleted are eligible, they are
as many as there were, up to the cap, and those it left come later. -/
structure Pruned (held : List Int) (cutoff : Instant) (before after : List EventRow)
    (deleted : List EventRow) : Prop where
  split : before.Perm (deleted ++ after)
  order : after.Sublist before
  older : ∀ r ∈ deleted, Older cutoff r
  free : ∀ r ∈ deleted, r.cursor ∉ held
  count : deleted.length =
    min (before.countP (eligible held (isoformat cutoff))) 50000
  oldest : ∀ r ∈ deleted, ∀ s ∈ after, Older cutoff s → s.cursor ∉ held →
    r.cursor < s.cursor

theorem pruneEvents_pruned (h : pruneEvents maxParams held (isoformat cutoff) t = some pass) :
    ∃ deleted, Pruned held cutoff t.rows pass.events.rows deleted ∧
      pass.deletedSoFar = deleted.length := by
  have hkeys := nodup_cursors t
  obtain ⟨hcount, hrows⟩ := pruneEvents_rows h
  rw [hcount, hrows]
  have hlength : ((queued EventRow.cursor (eligible held (isoformat cutoff)) t.rows).take
      (min (t.rows.countP (eligible held (isoformat cutoff))) 50000)).length =
        min (t.rows.countP (eligible held (isoformat cutoff))) 50000 := by
    rw [length_take, length_queued]
    omega
  have hqueue : ∀ r ∈ (queued EventRow.cursor (eligible held (isoformat cutoff)) t.rows).take
      (min (t.rows.countP (eligible held (isoformat cutoff))) 50000),
      Older cutoff r ∧ r.cursor ∉ held := by
    intro r hr
    exact eligible_iff.mp (mem_queued.mp (mem_of_mem_take hr)).2
  refine ⟨_, ⟨perm_withoutFirst hkeys _, filter_sublist, fun r hr => (hqueue r hr).1,
    fun r hr => (hqueue r hr).2, hlength, ?_⟩, by rw [hlength]⟩
  intro r hr s hs hold hfree
  obtain ⟨hsrows, hkept⟩ := (mem_withoutFirst hkeys).mp hs
  have hsqueue : s ∈ queued EventRow.cursor (eligible held (isoformat cutoff)) t.rows :=
    mem_queued.mpr ⟨hsrows, eligible_iff.mpr ⟨hold, hfree⟩⟩
  have hpair := pairwise_queued (eligible held (isoformat cutoff)) hkeys
  rw [← take_append_drop
    (min (t.rows.countP (eligible held (isoformat cutoff))) 50000)
    (queued EventRow.cursor (eligible held (isoformat cutoff)) t.rows)] at hsqueue hpair
  have hslater := (mem_append.mp hsqueue).resolve_left hkept
  exact (pairwise_append.mp hpair).2.2 r hr s hslater

theorem pruneEvents_eq_none_iff (maxParams : Nat) (held : List Int) (cutoffIso : String)
    (t : EventTable) : pruneEvents maxParams held cutoffIso t = none ↔
      maxParams < held.length + 1 ∨
        maxParams < held.length + 2 ∧ t.rows.countP (eligible held cutoffIso) ≠ 0 := by
  simp only [pruneEvents, PRUNE_MAX_PER_PASS]
  by_cases hcount : maxParams < held.length + 1
  · simp [hcount]
  by_cases hnone : t.rows.countP (eligible held cutoffIso) = 0
  · simp [hcount, hnone]
  · have hsome : min (t.rows.countP (eligible held cutoffIso) : Int) 50000 ≠ 0 := by omega
    by_cases hdelete : maxParams < held.length + 2
    · simp [hnone, hsome, hdelete]
    · simp [hcount, hnone, hsome, hdelete]

theorem pruned_self {rows : List EventRow} :
    (∃ deleted, Pruned held cutoff rows rows deleted) ↔
      rows.countP (eligible held (isoformat cutoff)) = 0 := by
  constructor
  · rintro ⟨deleted, hpruned⟩
    have hlength := hpruned.split.length_eq
    rw [length_append] at hlength
    have hcount := hpruned.count
    omega
  · intro hnone
    refine ⟨[], .rfl, .refl _, ?_, ?_, by simp [hnone], ?_⟩ <;> exact nofun

/-- The pass is exact: it has left the table without the oldest eligible events, and reports
how many it deleted. -/
def ExactPass (held : List Int) (cutoff : Instant) (t : EventTable) (pass : PrunePass) : Prop :=
  ∃ deleted, Pruned held cutoff t.rows pass.events.rows deleted ∧
    pass.deletedSoFar = deleted.length

theorem exactPass_iff (maxParams : Nat) (held : List Int) (cutoff : Instant) (t : EventTable) :
    ExactPass held cutoff t
        (executed t (pruneEvents maxParams held (isoformat cutoff) t)).2 ↔
      held.length + 2 ≤ maxParams ∨
        t.rows.countP (eligible held (isoformat cutoff)) = 0 := by
  have hraises := pruneEvents_eq_none_iff maxParams held (isoformat cutoff) t
  cases hpass : pruneEvents maxParams held (isoformat cutoff) t with
  | some pass =>
    rw [hpass] at hraises
    refine iff_of_true (pruneEvents_pruned hpass) ?_
    by_contra hnot
    exact absurd (hraises.mpr (by omega)) (by simp)
  | none =>
    have hover := hraises.mp hpass
    rw [or_iff_right (by omega), ← pruned_self]
    constructor
    · rintro ⟨deleted, hpruned, -⟩
      exact ⟨deleted, hpruned⟩
    · rintro ⟨deleted, hpruned⟩
      have hlength := hpruned.split.length_eq
      rw [length_append] at hlength
      refine ⟨deleted, hpruned, ?_⟩
      show (0 : Int) = deleted.length
      omega

/-- **A pass is exact** exactly where no statement has more parameters than SQLite's limit, or
no event is eligible.  Whichever cursors are held and however they lie between the
others, it ends then, and has deleted the eligible events with the lowest cursors, as many
as there are up to the cap, and no other event; an event with the text of an instant is
older than the cutoff iff its instant is. -/
theorem pruneEvents_exact_iff (maxParams : Nat) (held : List Int) (cutoff : Instant)
    (t : EventTable) :
    (ExactPass held cutoff t
        (executed t (pruneEvents maxParams held (isoformat cutoff) t)).2 ↔
      held.length + 2 ≤ maxParams ∨
        t.rows.countP (eligible held (isoformat cutoff)) = 0) ∧
    ∀ r ∈ t.rows, ∀ stamp, r.occurredAt = isoformat stamp →
      (Older cutoff r ↔ stamp < cutoff) :=
  ⟨exactPass_iff maxParams held cutoff t, fun _ _ _ hstamp => older_iff hstamp⟩

def yearsAgo : Instant := ⟨6 * 10 ^ 16, by decide⟩

def cutoffHere : Instant := ⟨7 * 10 ^ 16, by decide⟩

/-- Events that are held, each by an open item, and an old one that is not. -/
def crowded (n : Nat) : List Int × EventTable :=
  ((range n).map Nat.cast, ⟨[⟨n, isoformat yearsAgo⟩], by simp⟩)

theorem not_exact_of_crowded (n : Nat) :
    ¬ExactPass (crowded n).1 cutoffHere (crowded n).2
      (executed (crowded n).2
        (pruneEvents n (crowded n).1 (isoformat cutoffHere) (crowded n).2)).2 := by
  rw [exactPass_iff]
  have hlength : (crowded n).1.length = n := by simp [crowded]
  have heligible :
      eligible (crowded n).1 (isoformat cutoffHere) ⟨n, isoformat yearsAgo⟩ = true := by
    refine eligible_iff.mpr ⟨isoformat_lt_iff.mpr (by decide), fun hheld => ?_⟩
    obtain ⟨cursor, hcursor, heq⟩ := mem_map.mp hheld
    have hlt := mem_range.mp hcursor
    have hsame : (cursor : Int) = n := heq
    omega
  rintro (hfits | hnone)
  · omega
  · exact countP_eq_zero.mp hnone _ (mem_singleton_self _) heligible

/-- **The holds are bound one by one**: with as many as SQLite's limit, the pass raises. -/
theorem held_beyond_limit :
    ¬ExactPass (crowded 32766).1 cutoffHere (crowded 32766).2
      (executed (crowded 32766).2
        (pruneEvents 32766 (crowded 32766).1 (isoformat cutoffHere) (crowded 32766).2)).2 :=
  not_exact_of_crowded 32766

theorem execute_keeps_open {items : List NeedsYouItem} {item : NeedsYouItem}
    (hitem : item ∈ items) (hopen : item.isOpen = true) (others : List (List Int))
    (maxParams : Nat) (now : Instant) (retentionDays : Nat) {t : EventTable} (hr : r ∈ t.rows)
    (hcursor : r.cursor = item.openedCursor) :
    r ∈ (execute maxParams (heldByNeedsYou (some items) :: others) now retentionDays
      t).2.events.rows := by
  have hheld : r.cursor ∈ heldCursors (heldByNeedsYou (some items) :: others) := by
    rw [hcursor, heldCursors, flatten_cons]
    exact mem_dedup.mpr (mem_append_left _ (mem_map_of_mem (mem_filter.mpr ⟨hitem, hopen⟩)))
  unfold execute
  cases hpass : (cutoffOf now retentionDays).bind fun cutoff =>
      pruneEvents maxParams (heldCursors (heldByNeedsYou (some items) :: others))
        (isoformat cutoff) t with
  | none => exact hr
  | some pass =>
    obtain ⟨cutoff, -, hpruned⟩ := Option.bind_eq_some_iff.mp hpass
    obtain ⟨deleted, hsplit, -⟩ := pruneEvents_pruned hpruned
    exact (mem_append.mp (hsplit.split.mem_iff.mp hr)).resolve_left fun hdeleted =>
      hsplit.free r hdeleted hheld

theorem execute_keeps_open_question :
    let item : NeedsYouItem := ⟨"n", .question, .high, none, "k", none, none, none, 1, 4, none,
      none, none⟩
    let t : EventTable := ⟨[⟨4, "1999"⟩], by simp⟩
    ⟨4, "1999"⟩ ∈
      (execute 32766 [heldByNeedsYou (some [item])] ⟨10 ^ 17, by decide⟩ 30 t).2.events.rows := by
  intro item t
  exact execute_keeps_open (mem_singleton_self item) rfl [] _ _ 30 (mem_singleton_self _) rfl

end StackOwl.Journal
