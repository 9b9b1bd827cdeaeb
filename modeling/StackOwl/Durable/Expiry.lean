import StackOwl.Durable.StoreSpec
import StackOwl.Lib.IsoTime

/-!
# What a prune deletes

`prune_completed` compares the stored text of `updated_at`, an `isoformat`, with the text
SQLite makes of `datetime('now', '-N day')`.  Both begin with the date; where one goes on
with a `T` the other has a blank, so the rest never decides.

## Main results

* `isoformat_lt_datetimeText_iff` — the texts are compared by their dates.
* `prune_exact_iff` — a prune deletes exactly the expired rows and their ledger iff no
  expired row carries the date of its cutoff and no expired command has a ledger.
-/

namespace StackOwl.Durable

open Lib

/-! ## The texts -/

variable (t : Instant)

/-- SQLite's `datetime(…)`: `YYYY-MM-DD HH:MM:SS`. -/
def datetimeText : String :=
  String.ofList (dateText (t.val / (SECONDS_PER_DAY * MICROS_PER_SECOND)) ++
    ' ' :: clockText (t.val / MICROS_PER_SECOND % SECONDS_PER_DAY))

/-- `datetime('now', '-N day')`.  `none` compares to nothing: a negative `N` makes an
invalid modifier, whose value is `NULL`, and before the year 1 the text is below that of
every instant. -/
def sqliteCutoff (now : Instant) (days : Int) : Option String :=
  if 0 ≤ days ∧ days.toNat * SECONDS_PER_DAY * MICROS_PER_SECOND ≤ now.val then
    some (datetimeText (now.minus (days.toNat * SECONDS_PER_DAY)))
  else none

/-- `updated_at < datetime('now', '-N day')`, of the texts. -/
def updatedBefore (now : Instant) (days : Int) (updatedAt : Instant) : Bool :=
  match sqliteCutoff now days with
  | none => false
  | some cutoff => decide (isoformat updatedAt < cutoff)

/-- The microseconds since the Unix epoch, 719162 days after the first of January of the
year 1. -/
def stampOf : Stamp := t.val - 719162 * DAY

def dayOf : Nat := t.val / (SECONDS_PER_DAY * MICROS_PER_SECOND)

theorem dayOf_lt : dayOf t < MAX_DAYS := by
  have ht : t.val < MAX_DAYS * (SECONDS_PER_DAY * MICROS_PER_SECOND) := by
    rw [← Nat.mul_assoc]
    exact t.property
  exact (Nat.div_lt_iff_lt_mul (by decide)).mpr ht

/-- **The texts are compared by their dates.** -/
theorem isoformat_lt_datetimeText_iff {t c : Instant} :
    isoformat t < datetimeText c ↔ dayOf t < dayOf c := by
  rw [String.lt_iff_toList_lt, isoformat, datetimeText, String.toList_ofList,
    String.toList_ofList]
  rcases Nat.lt_trichotomy (dayOf t) (dayOf c) with hlt | heq | hgt
  · have hdates := dateText_lt hlt (dayOf_lt c)
    exact iff_of_true (append_lt_append (by simp) hdates _ _) hlt
  · -- one date: the `T` is greater than the blank
    apply iff_of_false _ (by omega)
    rw [← dayOf, heq, dayOf]
    apply List.lt_asymm
    exact List.append_left_lt (List.cons_lt_cons_iff.mpr (Or.inl (by decide)))
  · have hdates := dateText_lt hgt (dayOf_lt t)
    apply iff_of_false _ (by omega)
    apply List.lt_asymm
    exact append_lt_append (by simp) hdates _ _

theorem dayOf_eq : (dayOf t : Int) = (t.val : Int) / DAY := rfl

theorem stampOf_div : stampOf t / DAY = (dayOf t : Int) - 719162 := by
  rw [dayOf_eq]
  show ((t.val : Int) - 719162 * DAY) / DAY = (t.val : Int) / DAY - 719162
  simp only [DAY]
  omega

theorem dayOf_minus {now : Instant} {days : Nat}
    (h : days * SECONDS_PER_DAY * MICROS_PER_SECOND ≤ now.val) :
    days ≤ dayOf now ∧ dayOf (now.minus (days * SECONDS_PER_DAY)) = dayOf now - days := by
  have hval : (now.minus (days * SECONDS_PER_DAY)).val = now.val - days * 86400000000 := by
    show now.val - days * SECONDS_PER_DAY * MICROS_PER_SECOND = _
    rw [Nat.mul_assoc days]
    rfl
  rw [Nat.mul_assoc days] at h
  have hle : days * 86400000000 ≤ now.val := h
  show days ≤ now.val / 86400000000 ∧ _ / 86400000000 = now.val / 86400000000 - days
  rw [hval]
  omega

theorem olderThanDays_stampOf (days : Int) (now updatedAt : Instant) :
    olderThanDays days (stampOf now) (stampOf updatedAt) = true ↔
      0 ≤ days ∧ (dayOf updatedAt : Int) < dayOf now - days := by
  rw [olderThanDays, stampOf_div, stampOf_div, Bool.and_eq_true, decide_eq_true_eq,
    decide_eq_true_eq]
  show 0 ≤ days ∧ ((dayOf updatedAt : Int) - 719162 : Int) < dayOf now - 719162 - days ↔ _
  omega

theorem updatedBefore_eq (now : Instant) (days : Int) (updatedAt : Instant) :
    updatedBefore now days updatedAt =
      olderThanDays days (stampOf now) (stampOf updatedAt) := by
  rw [Bool.eq_iff_iff, olderThanDays_stampOf]
  simp only [updatedBefore, sqliteCutoff]
  by_cases hcut : 0 ≤ days ∧ days.toNat * SECONDS_PER_DAY * MICROS_PER_SECOND ≤ now.val
  · obtain ⟨hreach, hcutoff⟩ := dayOf_minus hcut.2
    rw [if_pos hcut]
    dsimp only
    rw [decide_eq_true_eq, isoformat_lt_datetimeText_iff, hcutoff]
    omega
  · rw [if_neg hcut]
    simp only [Bool.false_eq_true, false_iff]
    intro h
    obtain ⟨hdays, hday⟩ := h
    apply hcut
    refine ⟨hdays, ?_⟩
    rw [Nat.mul_assoc days.toNat]
    show days.toNat * 86400000000 ≤ now.val
    have hnow : dayOf now = now.val / 86400000000 := rfl
    omega

/-! ## Expired rows -/

def windowOf (olderThan commandOlderThan : Int) (r : Row) : Int :=
  if r.kind = .command then commandOlderThan else olderThan

/-- A completed row of the owner that was last written more than its window ago. -/
def Expired (owner : String) (olderThan commandOlderThan : Int) (now : Stamp) (r : Row) :
    Prop :=
  r.ownerId = owner ∧ r.status = .completed ∧
    r.updatedAt < now - windowOf olderThan commandOlderThan r * DAY

def LedgerOf (r : Row) (l : LedgerRow) : Prop := l.ownerId = r.ownerId ∧ l.taskId = r.taskId

/-- The rows deleted are the expired ones, and the ledger rows deleted are those of the
deleted tasks. -/
structure PrunesExactly (owner : String) (olderThan commandOlderThan : Int) (now : Stamp)
    (db : Db) : Prop where
  tasks : ∀ r ∈ db.tasks.rows,
    r ∉ (pruneCompleted owner olderThan commandOlderThan now db).1.tasks.rows ↔
      Expired owner olderThan commandOlderThan now r
  ledger : ∀ l ∈ db.ledger,
    l ∉ (pruneCompleted owner olderThan commandOlderThan now db).1.ledger ↔
      ∃ r ∈ db.tasks.rows, LedgerOf r l ∧
        r ∉ (pruneCompleted owner olderThan commandOlderThan now db).1.tasks.rows

/-- No expired row carries the date of its cutoff, or is one by a negative window, and no
expired command has ledger rows. -/
def DatesDecide (owner : String) (olderThan commandOlderThan : Int) (now : Stamp) (db : Db) :
    Prop :=
  ∀ r ∈ db.tasks.rows, Expired owner olderThan commandOlderThan now r →
    0 ≤ windowOf olderThan commandOlderThan r ∧
    r.updatedAt / DAY ≠ (now - windowOf olderThan commandOlderThan r * DAY) / DAY ∧
    (r.kind = .command → ∀ l ∈ db.ledger, ¬ LedgerOf r l)

/-- Dates are compared where instants are, but for those of one date. -/
theorem day_lt_iff (updatedAt now window : Int) :
    updatedAt / DAY < now / DAY - window ↔
      updatedAt < now - window * DAY ∧ updatedAt / DAY ≠ (now - window * DAY) / DAY := by
  simp only [DAY]
  omega

section

variable {owner : String} {olderThan commandOlderThan : Int} {now : Stamp} {db : Db}
  {r : Row}

/-- The row's own test, whichever of the two statements makes it. -/
theorem pruned_iff : pruned owner olderThan commandOlderThan now r = true ↔
    r.ownerId = owner ∧ r.status = .completed ∧
      olderThanDays (windowOf olderThan commandOlderThan r) now r.updatedAt = true := by
  unfold pruned prunedGoal prunedCommand windowOf
  cases r.kind <;> simp [and_assoc]

/-- What the test lacks to the comparison of the instants. -/
theorem pruned_iff_expired : pruned owner olderThan commandOlderThan now r = true ↔
    Expired owner olderThan commandOlderThan now r ∧
      0 ≤ windowOf olderThan commandOlderThan r ∧
      r.updatedAt / DAY ≠ (now - windowOf olderThan commandOlderThan r * DAY) / DAY := by
  rw [pruned_iff, Expired, olderThanDays, Bool.and_eq_true, decide_eq_true_eq,
    decide_eq_true_eq, day_lt_iff]
  constructor
  · intro h
    obtain ⟨howner, hstatus, hwindow, hold, hday⟩ := h
    exact ⟨⟨howner, hstatus, hold⟩, hwindow, hday⟩
  · intro h
    obtain ⟨⟨howner, hstatus, hold⟩, hwindow, hday⟩ := h
    exact ⟨howner, hstatus, hwindow, hold, hday⟩

theorem mem_tasks_pruneCompleted :
    r ∈ (pruneCompleted owner olderThan commandOlderThan now db).1.tasks.rows ↔
      r ∈ db.tasks.rows ∧ pruned owner olderThan commandOlderThan now r = false := by
  simp only [pruneCompleted, Table.rows_deleteWhere, List.mem_filter, pruned,
    Bool.or_eq_false_iff, Bool.not_eq_true', and_assoc]

theorem mem_ledger_pruneCompleted {l : LedgerRow} (hl : l ∈ db.ledger) :
    l ∉ (pruneCompleted owner olderThan commandOlderThan now db).1.ledger ↔
      ∃ r ∈ db.tasks.rows, LedgerOf r l ∧ prunedGoal owner olderThan now r = true := by
  simp only [pruneCompleted, List.mem_filter, hl, true_and, Bool.not_eq_true',
    Bool.not_eq_false, Bool.and_eq_true, beq_iff_eq, decide_eq_true_eq, List.mem_map]
  constructor
  · intro h
    obtain ⟨howner, r, ⟨hr, hpruned⟩, hid⟩ := h
    refine ⟨r, hr, ⟨?_, hid.symm⟩, hpruned⟩
    rw [howner]
    simp only [prunedGoal, Bool.and_eq_true, beq_iff_eq] at hpruned
    exact hpruned.1.1.1.symm
  · intro h
    obtain ⟨r, hr, ⟨howner, hid⟩, hpruned⟩ := h
    refine ⟨?_, r, ⟨hr, hpruned⟩, hid.symm⟩
    rw [howner]
    simp only [prunedGoal, Bool.and_eq_true, beq_iff_eq] at hpruned
    exact hpruned.1.1.1

variable (commandOlderThan) in
theorem prunedGoal_iff : prunedGoal owner olderThan now r = true ↔
    pruned owner olderThan commandOlderThan now r = true ∧ r.kind ≠ .command := by
  unfold pruned prunedGoal prunedCommand
  cases r.kind <;> simp

theorem eq_of_ledgerOf {s : Row} {l : LedgerRow} (hr : r ∈ db.tasks.rows)
    (hs : s ∈ db.tasks.rows) (hrl : LedgerOf r l) (hsl : LedgerOf s l) : r = s := by
  have hkey : primaryKey ∈ taskKeys := List.mem_cons_self
  apply db.tasks.eq_of_key hkey hr hs rfl
  rw [primaryKey, ← hsl.1, ← hsl.2, hrl.1, hrl.2]

/-! ## When a prune is exact -/

/-- The rows deleted are the expired ones where no date is that of a cutoff. -/
theorem tasks_exact_iff :
    (∀ r ∈ db.tasks.rows,
      r ∉ (pruneCompleted owner olderThan commandOlderThan now db).1.tasks.rows ↔
        Expired owner olderThan commandOlderThan now r) ↔
    ∀ r ∈ db.tasks.rows, Expired owner olderThan commandOlderThan now r →
      pruned owner olderThan commandOlderThan now r = true := by
  constructor
  · intro h r hr hexpired
    by_contra hkept
    have hmem := mem_tasks_pruneCompleted.mpr ⟨hr, Bool.eq_false_iff.mpr hkept⟩
    exact (h r hr).mpr hexpired hmem
  · intro h r hr
    rw [mem_tasks_pruneCompleted, not_and, Bool.not_eq_false]
    constructor
    · intro hpruned
      exact (pruned_iff_expired.mp (hpruned hr)).1
    · intro hexpired _
      exact h r hr hexpired

/-- The ledger rows deleted are those of the deleted tasks where no command among these
has any. -/
theorem ledger_exact_iff :
    (∀ l ∈ db.ledger,
      l ∉ (pruneCompleted owner olderThan commandOlderThan now db).1.ledger ↔
        ∃ r ∈ db.tasks.rows, LedgerOf r l ∧
          r ∉ (pruneCompleted owner olderThan commandOlderThan now db).1.tasks.rows) ↔
    ∀ r ∈ db.tasks.rows, pruned owner olderThan commandOlderThan now r = true →
      r.kind = .command → ∀ l ∈ db.ledger, ¬ LedgerOf r l := by
  constructor
  · intro h r hr hpruned hcommand l hl hrl
    have hgone : r ∉ (pruneCompleted owner olderThan commandOlderThan now db).1.tasks.rows := by
      intro hmem
      rw [(mem_tasks_pruneCompleted.mp hmem).2] at hpruned
      cases hpruned
    obtain ⟨s, hs, hsl, hgoal⟩ :=
      (mem_ledger_pruneCompleted hl).mp ((h l hl).mpr ⟨r, hr, hrl, hgone⟩)
    obtain rfl := eq_of_ledgerOf hr hs hrl hsl
    exact ((prunedGoal_iff commandOlderThan).mp hgoal).2 hcommand
  · intro h l hl
    rw [mem_ledger_pruneCompleted hl]
    constructor
    · intro hgoal
      obtain ⟨r, hr, hrl, hgoal⟩ := hgoal
      have hpruned := ((prunedGoal_iff commandOlderThan).mp hgoal).1
      refine ⟨r, hr, hrl, fun hmem => ?_⟩
      rw [(mem_tasks_pruneCompleted.mp hmem).2] at hpruned
      cases hpruned
    · intro hgone
      obtain ⟨r, hr, hrl, hgone⟩ := hgone
      have hpruned : pruned owner olderThan commandOlderThan now r = true := by
        by_contra hkept
        exact hgone (mem_tasks_pruneCompleted.mpr ⟨hr, Bool.eq_false_iff.mpr hkept⟩)
      have hgoal : r.kind ≠ .command := fun hcommand => h r hr hpruned hcommand l hl hrl
      exact ⟨r, hr, hrl, (prunedGoal_iff commandOlderThan).mpr ⟨hpruned, hgoal⟩⟩

end

/-- **When a prune is exact.**  The comparison of the texts is that of the stamps' dates;
and a prune deletes exactly the expired rows, and with them exactly their ledger, iff no
expired row carries the date of its cutoff and no expired command has ledger rows. -/
theorem prune_exact_iff (owner : String) (olderThan commandOlderThan : Int) (now : Stamp)
    (db : Db) :
    (∀ (t : Instant) (days : Int) (updatedAt : Instant),
      updatedBefore t days updatedAt = olderThanDays days (stampOf t) (stampOf updatedAt)) ∧
    (PrunesExactly owner olderThan commandOlderThan now db ↔
      DatesDecide owner olderThan commandOlderThan now db) := by
  refine ⟨updatedBefore_eq, ?_⟩
  constructor
  · intro h r hr hexpired
    have hpruned := tasks_exact_iff.mp h.tasks r hr hexpired
    obtain ⟨-, hwindow, hday⟩ := pruned_iff_expired.mp hpruned
    exact ⟨hwindow, hday, ledger_exact_iff.mp h.ledger r hr hpruned⟩
  · intro h
    constructor
    · apply tasks_exact_iff.mpr
      intro r hr hexpired
      obtain ⟨hwindow, hday, -⟩ := h r hr hexpired
      exact pruned_iff_expired.mpr ⟨hexpired, hwindow, hday⟩
    · apply ledger_exact_iff.mpr
      intro r hr hpruned
      exact (h r hr (pruned_iff_expired.mp hpruned).1).2.2

/-- A delivered task, last written at eleven in the morning of the day after the epoch. -/
def deliveredTask : Row where
  taskId := "report"
  ownerId := DEFAULT_PRINCIPAL_ID
  goal := "write the report"
  status := .completed
  createdAt := 0
  updatedAt := DAY + seconds 39600

/-- Twenty-five hours later, on the day after, a prune of what is older than one day
leaves it. -/
theorem expired_row_left :
    ¬ PrunesExactly DEFAULT_PRINCIPAL_ID 1 31 (2 * DAY + seconds 43200)
      ⟨⟨[deliveredTask], by decide⟩, [], [], []⟩ := by
  intro h
  have hgone := (h.tasks deliveredTask List.mem_cons_self).mpr ⟨rfl, rfl, by decide⟩
  exact hgone (mem_tasks_pruneCompleted.mpr ⟨List.mem_cons_self, by decide⟩)

end StackOwl.Durable
