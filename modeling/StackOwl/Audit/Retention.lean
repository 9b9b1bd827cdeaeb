import StackOwl.Audit.Tamper

/-!
# Retention of the audit log

`AuditRetention.prune` (`audit/retention.py`) deletes the rows past their cutoff: one
cutoff for most rows, an older one for the records of deleted rows.  It drops the
trigger that forbids deletion, deletes and creates the trigger again in one
transaction, and then appends a row that says what it did.

A prune is modelled with the statement at which it raises, if it does.

## Main results

* `prune_keeps_log_iff` — a prune leaves the log as its class cutoffs say, and
  verifiable, or fails without a trace, exactly when every row left keeps the digest it
  was chained to, or the failure comes before the deletion is committed.
* `linksKept_iff_isPrefix` — the rows left keep their digests exactly when they are the
  oldest rows of the log.
-/

namespace StackOwl.Audit

open Lib List

variable {F : Type*} [LT F] [DecidableLT F] (floatRepr jsonFloat : F → String)

/-! ## The store -/

/-- `audit_log` and its delete trigger. -/
structure Store (F : Type*) extends Table F where
  /-- The trigger `audit_log_no_delete` exists. -/
  noDelete : Bool

/-- A prune: its windows, the cutoffs they come to, and the time it is recorded at. -/
structure Retention (F : Type*) where
  retentionDays : Int
  cutoffTs : F
  deletionCutoffTs : F
  now : F

def deletionEvent : String := "row.deleted"

/-- The statements of `prune`, in order. -/
inductive Stage where
  | count
  | beginExclusive
  | dropTrigger
  | deleteOrdinary
  | deleteDeletions
  | createTrigger
  | commit
  | oldestKept
  | appendRecord
  deriving DecidableEq

def Stage.inTransaction : Stage → Bool
  | .beginExclusive | .dropTrigger | .deleteOrdinary | .deleteDeletions
  | .createTrigger | .commit => true
  | .count | .oldestKept | .appendRecord => false

/-! ## Prune -/

variable (p : Retention F)

/-- `timestamp < cutoff_ts AND event_type != DELETION_EVENT`. -/
def Retention.ordinaryPast (row : Entry F) : Bool :=
  decide (row.timestamp < p.cutoffTs) && row.eventType != deletionEvent

/-- `timestamp < deletion_cutoff_ts AND event_type = DELETION_EVENT`. -/
def Retention.deletionPast (row : Entry F) : Bool :=
  decide (row.timestamp < p.deletionCutoffTs) && row.eventType == deletionEvent

/-- `SELECT COUNT(*)` of the rows to prune. -/
def Retention.countToPrune (rows : List (Row F)) : Nat :=
  rows.countP fun row => p.ordinaryPast row.toEntry || p.deletionPast row.toEntry

variable (fault : Option Stage) (s : Store F)

/-- The exclusive transaction; a statement that raises rolls it back. -/
def Retention.deletePast :
    Option (Store F) :=
  if fault.any Stage.inTransaction then none
  else
    let dropped := { s with noDelete := false }
    let ordinary :=
      { dropped with
        rows := dropped.rows.filter fun row => !p.ordinaryPast row.toEntry }
    let deletions :=
      { ordinary with
        rows := ordinary.rows.filter fun row => !p.deletionPast row.toEntry }
    some { deletions with noDelete := true }

/-- `SELECT MIN(timestamp)`. -/
def oldestKept (rows : List (Row F)) : Option F :=
  rows.foldl (fun oldest row =>
    match oldest with
    | none => some row.timestamp
    | some t => some (if row.timestamp < t then row.timestamp else t)) none

/-- The `json.dumps` of `_append_prune_record`. -/
def pruneDetails (prunedCount : Nat) (oldestKeptAt : Option F) (retentionDays : Int) :
    String :=
  "\x7b\"pruned_count\": " ++ toString prunedCount ++ ", \"oldest_kept_at\": " ++
    (oldestKeptAt.map jsonFloat).getD "null" ++ ", \"retention_days\": " ++
    toString retentionDays ++ "\x7d"

/-- The event `_append_prune_record` writes. -/
def Retention.pruneEvent (prunedCount : Nat) (oldest : Option F) :
    Event F where
  eventType := "system_audit_prune"
  actor := "system"
  target := none
  timestamp := p.now
  detailsJson := pruneDetails jsonFloat prunedCount oldest p.retentionDays

def Retention.appendPruneRecord (prunedCount : Nat) (oldest : Option F) (s : Store F) : Store F :=
  let entry := (p.pruneEvent jsonFloat prunedCount oldest).entry floatRepr
    (tailHash s.rows)
  { s with toTable := s.toTable.append entry }

/-- `prune`: the store it leaves and, unless it raises, the count it answers. -/
def Retention.prune :
    Store F × Option Nat :=
  if fault = some .count then (s, none)
  else
    let count := p.countToPrune s.rows
    match if 0 < count then p.deletePast fault s else some s with
    | none => (s, none)
    | some pruned =>
      if fault = some .oldestKept ∨ fault = some .appendRecord then (pruned, none)
      else (p.appendPruneRecord floatRepr jsonFloat count (oldestKept pruned.rows) pruned,
        some count)

/-! ## What a prune should leave -/

/-- The row is not past the cutoff of its class. -/
def Retention.keeps (row : Entry F) : Bool :=
  !(p.ordinaryPast row || p.deletionPast row)

/-- The rows not past the cutoff of their class. -/
def Retention.survivors (rows : List (Row F)) : List (Row F) :=
  rows.filter fun row => p.keeps row.toEntry

/-- What is expected of a prune: it leaves the survivors and one record behind them, in
a log that verifies, or it raises and leaves the store as it was. -/
def Retention.KeepsLog : Prop :=
  match p.prune floatRepr jsonFloat fault s with
  | (after, some _) =>
    (∃ record : Row F, after.rows = p.survivors s.rows ++ [record] ∧
      record.eventType = "system_audit_prune") ∧
    verifyChain floatRepr after.rows = (true, none)
  | (after, none) => after = s

/-- Every row left has in front of it the digest it was chained to. -/
def Retention.LinksKept (p : Retention F) (rows : List (Row F)) : Prop :=
  HashChain.LinksKept Entry.integrityHash p.keeps "" "" (entries rows)

/-- The prune does not raise and keeps the links, or it raises before its deletion is
committed, or with nothing to delete. -/
def Retention.Safe : Prop :=
  match fault with
  | none => p.LinksKept s.rows
  | some .oldestKept | some .appendRecord => p.countToPrune s.rows = 0
  | some _ => True

theorem entries_survivors (rows : List (Row F)) :
    entries (p.survivors rows) = (entries rows).filter p.keeps := by
  rw [entries, entries, Retention.survivors, filter_map]
  rfl

variable {rows : List (Row F)}

theorem survivors_of_count_zero {p : Retention F} (h : p.countToPrune rows = 0) :
    p.survivors rows = rows := by
  rw [Retention.survivors, filter_eq_self]
  intro row hrow
  have hpast := countP_eq_zero.mp h row hrow
  simpa [Retention.keeps] using hpast

theorem linksKept_of_count_zero {p : Retention F} (h : p.countToPrune rows = 0) :
    p.LinksKept rows := by
  refine HashChain.linksKept_of_all "" fun e he => ?_
  obtain ⟨row, hrow, rfl⟩ := mem_map.mp he
  have hpast := countP_eq_zero.mp h row hrow
  simpa [Retention.keeps] using hpast

theorem deletePast_committed {fault : Option Stage} (h : fault.any Stage.inTransaction = false)
    (s : Store F) :
    p.deletePast fault s =
      some { s with rows := p.survivors s.rows, noDelete := true } := by
  simp only [Retention.deletePast, h, Bool.false_eq_true, if_false, Retention.survivors,
    filter_filter, Option.some.injEq, Store.mk.injEq, Table.mk.injEq, and_true]
  refine filter_congr fun row _ => ?_
  rw [Retention.keeps, Bool.not_or, Bool.and_comm]

def Retention.pruned : Store F :=
  if 0 < p.countToPrune s.rows then
    { s with rows := p.survivors s.rows, noDelete := true }
  else s

theorem rows_pruned :
    (p.pruned s).rows = p.survivors s.rows := by
  unfold Retention.pruned
  split
  · rfl
  · exact (survivors_of_count_zero (by omega)).symm

/-- A deletion leaves no trace exactly when it deletes nothing. -/
theorem pruned_eq_iff :
    p.pruned s = s ↔ p.countToPrune s.rows = 0 := by
  constructor
  · intro h
    have hrows : p.survivors s.rows = s.rows :=
      (rows_pruned p s).symm.trans (congrArg (fun t => t.rows) h)
    rw [Retention.survivors, filter_eq_self] at hrows
    rw [Retention.countToPrune, countP_eq_zero]
    intro row hrow
    simpa [Retention.keeps] using hrows row hrow
  · intro h
    rw [Retention.pruned, if_neg (by omega)]

/-- What a prune does: it raises with its deletion undone, raises with its deletion
committed, or records it. -/
theorem prune_eq :
    p.prune floatRepr jsonFloat fault s =
      if fault = some .count ∨
          (fault.any Stage.inTransaction = true ∧ 0 < p.countToPrune s.rows) then
        (s, none)
      else if fault = some .oldestKept ∨ fault = some .appendRecord then
        (p.pruned s, none)
      else
        (p.appendPruneRecord floatRepr jsonFloat (p.countToPrune s.rows)
          (oldestKept (p.pruned s).rows) (p.pruned s), some (p.countToPrune s.rows)) := by
  unfold Retention.prune
  by_cases hfirst : fault = some .count
  · rw [if_pos hfirst, if_pos (Or.inl hfirst)]
  · rw [if_neg hfirst]
    by_cases hcount : 0 < p.countToPrune s.rows
    · cases hfault : fault.any Stage.inTransaction with
      | true => simp [hcount, hfault, Retention.deletePast]
      | false =>
        simp only [hcount, hfirst, if_true, false_or, Bool.false_eq_true, false_and,
          if_false, deletePast_committed p hfault s, Retention.pruned]
    · simp only [hcount, hfirst, if_false, false_or, and_false, Retention.pruned]

/-- Behind the survivors the record is appended, in a log that verifies exactly when the
survivors keep their links. -/
theorem appendPruneRecord_iff {s t : Store F} (hv : verifyChain floatRepr s.rows = (true, none))
    (hfree : HashChain.CollisionFree sha256Hex (payloads floatRepr "" (entries s.rows) ++
      payloads floatRepr "" (entries (p.survivors s.rows))))
    (ht : t.rows = p.survivors s.rows) (count : Nat) (oldest : Option F) :
    ((∃ record : Row F, (p.appendPruneRecord floatRepr jsonFloat count oldest t).rows =
          p.survivors s.rows ++ [record] ∧ record.eventType = "system_audit_prune") ∧
        verifyChain floatRepr
          (p.appendPruneRecord floatRepr jsonFloat count oldest t).rows = (true, none)) ↔
      p.LinksKept s.rows := by
  rw [verifyChain_iff] at hv
  have hlinks : Chained floatRepr "" (entries (p.survivors s.rows)) ↔
      p.LinksKept s.rows := by
    rw [entries_survivors] at hfree ⊢
    exact HashChain.linked_filter_iff (payload_prev_inj floatRepr) p.keeps hv hfree
  rw [← hlinks, verifyChain_iff]
  constructor
  · rintro ⟨⟨record, hrows, -⟩, hchain⟩
    rw [hrows, entries, map_append] at hchain
    exact ((HashChain.linked_append "" _ _).mp hchain).1
  · intro hchain
    rw [← ht] at hchain ⊢
    exact ⟨⟨_, rfl, rfl⟩, chained_concat_appended floatRepr hchain _ _⟩

/-- **Retention.**  Of a log that verifies, a prune leaves the survivors and one record
in a log that verifies, or fails without a trace, exactly when it is safe. -/
theorem prune_keeps_log_iff (p : Retention F) (fault : Option Stage) (s : Store F)
    (hv : verifyChain floatRepr s.rows = (true, none))
    (hfree : HashChain.CollisionFree sha256Hex
      (payloads floatRepr "" (entries s.rows) ++
        payloads floatRepr "" (entries (p.survivors s.rows)))) :
    p.KeepsLog floatRepr jsonFloat fault s ↔ p.Safe fault s := by
  have hdone := appendPruneRecord_iff floatRepr jsonFloat p hv hfree (rows_pruned p s)
    (p.countToPrune s.rows) (oldestKept (p.pruned s).rows)
  rw [Retention.KeepsLog, prune_eq]
  cases fault with
  | none => simpa [Retention.Safe] using hdone
  | some stage =>
    cases hstage : stage.inTransaction with
    | true =>
      have hsafe : p.Safe (some stage) s := by
        cases stage <;> trivial
      refine iff_of_true ?_ hsafe
      by_cases hcount : 0 < p.countToPrune s.rows
      · simp [hstage, hcount]
      · have hlinks : p.LinksKept s.rows := linksKept_of_count_zero (by omega)
        have hfirst : stage ≠ .count := by
          rintro rfl
          cases hstage
        have hlast : ¬ (stage = .oldestKept ∨ stage = .appendRecord) := by
          rintro (rfl | rfl) <;> cases hstage
        simpa [hcount, hfirst, hlast] using hdone.mpr hlinks
    | false =>
      cases stage with
      | count => exact iff_of_true rfl trivial
      | oldestKept => simpa [Stage.inTransaction, Retention.Safe] using pruned_eq_iff p s
      | appendRecord => simpa [Stage.inTransaction, Retention.Safe] using pruned_eq_iff p s
      | _ => cases hstage

/-- In a log whose first row stands alone, the survivors keep their links exactly when
they are the oldest rows. -/
theorem linksKept_iff_isPrefix (p : Retention F) (hv : verifyChain floatRepr rows = (true, none))
    (hfirst : ∀ e ∈ (entries rows).head?, e.StandsAlone floatRepr)
    (hfree : HashChain.CollisionFree sha256Hex
      (payloads floatRepr "" (entries rows) ++
        payloads floatRepr "" (entries (p.survivors rows)))) :
    p.LinksKept rows ↔ entries (p.survivors rows) <+: entries rows := by
  rw [verifyChain_iff] at hv
  rw [entries_survivors] at hfree ⊢
  have hlinks := HashChain.linked_filter_iff (payload_prev_inj floatRepr) p.keeps hv hfree
  refine hlinks.symm.trans ⟨fun hchain => ?_, fun hprefix => ?_⟩
  · have hnodup := nodup_integrityHash floatRepr hv hfirst
      (hfree.mono (subset_append_left _ _))
    exact HashChain.isPrefix_of_linked (payload_prev_inj floatRepr) hv hnodup
      (fun e he => integrityHash_ne_empty floatRepr hv he) hchain
      filter_sublist.subset hfree
  · obtain ⟨rest, hrest⟩ := hprefix
    rw [← hrest] at hv
    exact ((HashChain.linked_append "" _ _).mp hv).1

def deletedRow : Row Nat where
  auditId := 1
  eventType := "row.deleted"
  actor := "owls"
  target := some "skills"
  timestamp := 1700000000
  details := "\x7b\x7d"
  integrityHash := "925eb151aa517c2d95394327c6db2c83a93413d7d3f2796cef6b8260a1296c00"
  chainVersion := some "v2"

def consentRow : Row Nat where
  auditId := 2
  eventType := "consent.granted"
  actor := "alice"
  target := none
  timestamp := 1700000060
  details := "\x7b\x7d"
  integrityHash := "aa426e9f7ffd0b2c3474818412e06283415272f70fb90cd6546a2e9214c0e31d"
  chainVersion := some "v2"

/-- A log with the record in front of the consent. -/
def deletionLog : Store Nat where
  rows := [deletedRow, consentRow]
  lastId := 2
  noDelete := true

/-- The consent goes and the record in front of it stays. -/
theorem linksKept_iff_isPrefix_both :
    let p : Retention Nat :=
      { retentionDays := 90, cutoffTs := 1700000090, deletionCutoffTs := 1690000000,
        now := 1707776090 }
    p.survivors deletionLog.rows = [deletedRow] ∧ p.LinksKept deletionLog.rows :=
  ⟨rfl, (linksKept_iff_isPrefix reprWhole _ (by decide +kernel) (by decide +kernel)
    (by decide +kernel)).mpr ⟨_, rfl⟩⟩

/-- The consent is past its cutoff and the record in front of it is not: the prune keeps
the log. -/
theorem prune_keeps_record :
    Retention.KeepsLog reprWhole reprWhole
      { retentionDays := 90, cutoffTs := 1700000090, deletionCutoffTs := 1690000000,
        now := 1707776090 } none deletionLog :=
  (prune_keeps_log_iff reprWhole reprWhole _ none deletionLog (by decide +kernel)
    (by decide +kernel)).mpr ⟨rfl, trivial⟩

/-- The record is past its cutoff and the consent behind it is not: the log no longer
verifies, and a prune that raises at its own record has deleted the row. -/
theorem prune_breaks_chain :
    let p : Retention Nat :=
      { retentionDays := 90, cutoffTs := 1700000030, deletionCutoffTs := 1700000030,
        now := 1707776030 }
    let completed := p.prune reprWhole reprWhole none deletionLog
    let raised := p.prune reprWhole reprWhole (some .appendRecord) deletionLog
    verifyChain reprWhole deletionLog.rows = (true, none) ∧
      completed.2 = some 1 ∧ verifyChain reprWhole completed.1.rows = (false, some 2) ∧
      raised.2 = none ∧ raised.1.rows = [consentRow] := by
  decide +kernel

end StackOwl.Audit
