import StackOwl.Durable.StoreSpec

/-!
# What the dispatch scan does

The scan of `claimable` reads the rows it was given one by one and dead-letters
those that wait on a failed dependency, which can fail the rows after them in
turn.  What it offers and what it dead-letters is a function of the table it
started from: `Row.ready` and `deadAfter`.

## Main results

* `scanReady_spec` — the scan offers the rows that were ready at the start, unless
  the journal refuses one of the events it records.
* `firstReady_spec` — the reserved slot takes the first such row.
* `filter_claimable` — the rows that are claimable after a scan.
-/

namespace StackOwl.Durable

open Lib List

/-! ## The scan, from the table it started in -/

variable (owner : String) (db : Db)

def Row.ready (r : Row) : Bool :=
  depsLanded owner (split r.dependsOn) db

/-- The status a dependency has once the rows of `dead` are dead-lettered. -/
def statusAfter (dead : List String) (d : String) :
    Option TaskStatus :=
  if d ∈ dead then some .deadLetter else db.status owner d

/-- A dependency of the row will never land. -/
def waitsOnFailed (dead : List String) (r : Row) :
    Bool :=
  (split r.dependsOn).any (fun d =>
    statusAfter owner db dead d == some .deadLetter ||
      statusAfter owner db dead d == some .failed)

/-- The ids that are dead-lettered once the rows are scanned. -/
def deadAfter (owner : String) (db : Db) : List String → List Row → List String
  | dead, [] => dead
  | dead, r :: rows =>
    deadAfter owner db
      (if waitsOnFailed owner db dead r then r.taskId :: dead else dead) rows

/-- The bounds the journal puts on the event of a cascade. -/
def cascadeFits (r : Row) : Bool :=
  labelFits? r.triggerKind && labelFits? r.leaseOwner

/-- The journal takes the event of every row the scan dead-letters. -/
def journalled (owner : String) (db : Db) : List String → List Row → Bool
  | _, [] => true
  | dead, r :: rows =>
    if waitsOnFailed owner db dead r then
      cascadeFits r && journalled owner db (r.taskId :: dead) rows
    else
      journalled owner db dead rows

/-- `db'` is `db` once the pending rows of `dead` were dead-lettered. -/
structure DeadLettered (owner : String) (db : Db) (dead : List String)
    (db' : Db) : Prop where
  pending : ∀ d ∈ dead, db.status owner d = some .pending
  rows : ∃ f : Row → Row, db'.tasks.rows = db.tasks.rows.map f ∧
    (∀ r, (f r).ownerId = r.ownerId ∧ (f r).taskId = r.taskId) ∧
    (∀ r, r.ownerId = owner → r.taskId ∈ dead → (f r).status = .deadLetter) ∧
    (∀ r, ¬ (r.ownerId = owner ∧ r.taskId ∈ dead) → f r = r)

theorem DeadLettered.refl :
    DeadLettered owner db [] db where
  pending _ hd := absurd hd not_mem_nil
  rows := ⟨id, (map_id _).symm, fun _ => ⟨rfl, rfl⟩,
    fun _ _ hd => absurd hd not_mem_nil, fun _ _ => rfl⟩

variable {dead : List String} {owner} {db} {db' : Db} {r : Row}

section

variable (h : DeadLettered owner db dead db')

include h

theorem DeadLettered.find (hr : r ∈ db.tasks.rows) (howner : r.ownerId = owner)
    (hfree : r.taskId ∉ dead) :
    db'.find owner r.taskId = some r := by
  obtain ⟨f, hrows, -, -, hkept⟩ := h.rows
  have hsame : f r = r := hkept r (fun hdead => hfree hdead.2)
  have hmem : r ∈ db'.tasks.rows := by
    rw [hrows]
    exact mem_map.mpr ⟨r, hr, hsame⟩
  have hfound := find_of_mem hmem
  rw [howner] at hfound
  exact hfound

theorem DeadLettered.status (d : String) : db'.status owner d = statusAfter owner db dead d := by
  obtain ⟨f, hrows, hkeys, hdead, hkept⟩ := h.rows
  have hfind : db'.find owner d = (db.find owner d).map f :=
    Table.find?_of_map hrows (fun r => by simp [isKey, hkeys r])
  unfold statusAfter
  rw [Db.status, hfind]
  by_cases hd : d ∈ dead
  · obtain ⟨r, hr, -⟩ := status_eq_some_iff.mp (h.pending d hd)
    obtain ⟨howner, hid⟩ := key_of_find hr
    rw [if_pos hd, hr]
    show some (f r).status = some .deadLetter
    rw [hdead r howner (hid ▸ hd)]
  · rw [if_neg hd, Db.status]
    cases hr : db.find owner d with
    | none => rfl
    | some r =>
      obtain ⟨-, hid⟩ := key_of_find hr
      show some (f r).status = some r.status
      rw [hkept r (fun hdead => hd (hid ▸ hdead.2))]

/-! ## One row -/

theorem failedDeps_eq_nil_iff (r : Row) :
    failedDeps owner (split r.dependsOn) db' = [] ↔
      waitsOnFailed owner db dead r = false := by
  unfold failedDeps waitsOnFailed
  rw [filter_eq_nil_iff, any_eq_false]
  simp only [h.status]

/-- Dead-lettering pending rows completes no dependency and takes none back. -/
theorem depsLanded_deadLettered (deps : List String) :
    depsLanded owner deps db' = depsLanded owner deps db := by
  unfold depsLanded
  refine congrArg (deps.all ·) (funext (fun d => ?_))
  rw [h.status]
  unfold statusAfter
  split
  · rw [h.pending d ‹_›]
    rfl
  · rfl

end

theorem not_ready_of_waits (hpending : ∀ d ∈ dead, db.status owner d = some .pending)
    (h : waitsOnFailed owner db dead r = true) : r.ready owner db = false := by
  unfold waitsOnFailed at h
  obtain ⟨d, hd, hfailed⟩ := any_eq_true.mp h
  unfold Row.ready depsLanded
  rw [all_eq_false]
  refine ⟨d, hd, ?_⟩
  unfold statusAfter at hfailed
  split at hfailed
  · rw [hpending d ‹_›]
    decide
  · rw [Bool.or_eq_true, beq_iff_eq, beq_iff_eq] at hfailed
    rcases hfailed with hs | hs <;> rw [hs] <;> decide

/-- A cascade is never refused by an index: a dead row is outside the live one. -/
theorem cascade_isOk (owner taskId : String) (failed : List String) (now : Stamp)
    (db : Db) : ∃ db' n,
      db.execute (cascadeSql owner taskId failed now) = .ok (db', n) :=
  execute_isOk_of_ended db (fun _ => ⟨rfl, rfl⟩)
    (fun _ => show TaskStatus.deadLetter ∉ LIVE_TASK_STATUSES by decide)

theorem DeadLettered.cons {owner : String} {db db' db'' : Db} {dead : List String}
    {r : Row} (h : DeadLettered owner db dead db') (hr : r ∈ db.tasks.rows)
    (howner : r.ownerId = owner) (hpending : r.status = .pending)
    {failed : List String} {now : Stamp}
    (hrows : db''.tasks.rows = db'.tasks.rows.map (cascadeSql owner r.taskId failed now).on) :
    DeadLettered owner db (r.taskId :: dead) db'' where
  pending d hd := by
    rcases mem_cons.mp hd with rfl | hd
    · have hfound := find_of_mem hr
      rw [howner] at hfound
      exact status_eq_some_iff.mpr ⟨r, hfound, hpending⟩
    · exact h.pending d hd
  rows := by
    obtain ⟨f, hf, hkeys, hdead, hkept⟩ := h.rows
    have hhit : ∀ s : Row, s.ownerId = owner → s.taskId = r.taskId →
        ((cascadeSql owner r.taskId failed now).on s).status = .deadLetter := by
      intro s ho hi
      have hguard : (cascadeSql owner r.taskId failed now).guard s = true :=
        isKey_iff.mpr ⟨ho, hi⟩
      rw [Update.on_of_guard hguard]
      rfl
    have hmiss : ∀ s : Row, ¬ (s.ownerId = owner ∧ s.taskId = r.taskId) →
        (cascadeSql owner r.taskId failed now).on s = s := by
      intro s hne
      have hguard : (cascadeSql owner r.taskId failed now).guard s = false := by
        by_contra hg
        exact hne (isKey_iff.mp (Bool.not_eq_false _ ▸ hg))
      rw [Update.on_of_not_guard hguard]
    refine ⟨(cascadeSql owner r.taskId failed now).on ∘ f, ?_, fun s => ?_,
      fun s ho hd => ?_, fun s hne => ?_⟩
    · rw [hrows, hf, map_map]
    · by_cases hkey : (f s).ownerId = owner ∧ (f s).taskId = r.taskId
      · have hguard : (cascadeSql owner r.taskId failed now).guard (f s) = true :=
          isKey_iff.mpr hkey
        rw [Function.comp, Update.on_of_guard hguard]
        exact hkeys s
      · rw [Function.comp, hmiss (f s) hkey]
        exact hkeys s
    · by_cases hid : s.taskId = r.taskId
      · exact hhit (f s) ((hkeys s).1.trans ho) ((hkeys s).2.trans hid)
      · have hmem : s.taskId ∈ dead := (mem_cons.mp hd).resolve_left hid
        rw [Function.comp, hmiss (f s) (fun hkey => hid ((hkeys s).2 ▸ hkey.2))]
        exact hdead s ho hmem
    · have hout : ¬ (s.ownerId = owner ∧ s.taskId ∈ dead) :=
        fun hd => hne ⟨hd.1, mem_cons_of_mem _ hd.2⟩
      rw [Function.comp, hkept s hout]
      exact hmiss s (fun hkey => hne ⟨hkey.1, hkey.2 ▸ mem_cons_self⟩)

theorem cascade_spec (h : DeadLettered owner db dead db') (hr : r ∈ db.tasks.rows)
    (howner : r.ownerId = owner) (hpending : r.status = .pending) (hfree : r.taskId ∉ dead)
    (failed : List String) (now : Stamp) :
    if cascadeFits r then
      ∃ db'', cascadeWith owner r.taskId (rowToTask r) failed now db' = .ok db'' ∧
        DeadLettered owner db (r.taskId :: dead) db''
    else
      ∃ e, cascadeWith owner r.taskId (rowToTask r) failed now db' = .error e := by
  obtain ⟨db₁, n, hexec⟩ := cascade_isOk owner r.taskId failed now db'
  have hcount := rowcount_of_isKey hexec rfl
  rw [h.find hr howner hfree, Option.isSome_some, if_pos rfl] at hcount
  subst hcount
  have hdead := h.cons hr howner hpending (updates_execute hexec).rows
  have hcascade : cascadeWith owner r.taskId (rowToTask r) failed now db' =
      db₁.record
        { actorId := owner, targetId := r.taskId
          attrs := .taskDeadLettered r.triggerKind (rowToTask r).attemptCount
            (rowToTask r).maxAttempts r.leaseOwner (some "dependency_failed")
            true (some (",".intercalate failed)) } := by
    simp only [cascadeWith, hexec]
    rfl
  have hlabel : labelFits? (some "dependency_failed") = true := by decide
  have hvalid : Attrs.valid (.taskDeadLettered r.triggerKind (rowToTask r).attemptCount
      (rowToTask r).maxAttempts r.leaseOwner (some "dependency_failed") true
      (some (",".intercalate failed))) = cascadeFits r := by
    rw [Attrs.valid, hlabel, Bool.and_true]
    rfl
  rw [hcascade, Db.record, hvalid]
  split
  · exact ⟨_, rfl, ⟨hdead.pending, hdead.rows⟩⟩
  · exact ⟨_, rfl⟩

theorem rowReady_spec (h : DeadLettered owner db dead db') (hr : r ∈ db.tasks.rows)
    (howner : r.ownerId = owner) (hpending : r.status = .pending) (hfree : r.taskId ∉ dead)
    (now : Stamp) :
    if waitsOnFailed owner db dead r then
      if cascadeFits r then
        ∃ db'', rowReady owner now r db' = .ok (db'', false) ∧
          DeadLettered owner db (r.taskId :: dead) db''
      else ∃ e, rowReady owner now r db' = .error e
    else rowReady owner now r db' = .ok (db', r.ready owner db) := by
  have hnil := failedDeps_eq_nil_iff h r
  unfold rowReady
  by_cases hdeps : split r.dependsOn = []
  · have hwaits : waitsOnFailed owner db dead r = false := by
      simp [waitsOnFailed, hdeps]
    have hready : r.ready owner db = true := by
      simp [Row.ready, hdeps, depsLanded]
    rw [hwaits, if_pos hdeps, hready]
    simp
  · rw [if_neg hdeps]
    unfold depsSatisfied
    by_cases hwaits : waitsOnFailed owner db dead r = true
    · rw [if_pos hwaits]
      have hget : get owner r.taskId db' = .ok (rowToTask r) := by
        rw [get, h.find hr howner hfree]
      cases hfailed : failedDeps owner (split r.dependsOn) db' with
      | nil =>
        rw [hnil.mp hfailed] at hwaits
        cases hwaits
      | cons d ds =>
        have hcascade := cascade_spec h hr howner hpending hfree (d :: ds) now
        simp only [hget]
        split at hcascade
        · obtain ⟨db'', hok, hdead⟩ := hcascade
          rw [if_pos ‹_›]
          refine ⟨db'', ?_, hdead⟩
          show (cascadeWith owner r.taskId (rowToTask r) (d :: ds) now db' >>= _)
            = _
          rw [hok]
          rfl
        · obtain ⟨e, herror⟩ := hcascade
          rw [if_neg ‹_›]
          refine ⟨e, ?_⟩
          show (cascadeWith owner r.taskId (rowToTask r) (d :: ds) now db' >>= _)
            = _
          rw [herror]
          rfl
    · rw [if_neg hwaits, hnil.mpr (by simpa using hwaits)]
      show Except.ok (db', depsLanded owner (split r.dependsOn) db') = _
      rw [depsLanded_deadLettered h]
      rfl

/-! ## The two loops -/

/-- Distinct pending rows of the owner, none of them dead-lettered yet. -/
structure Scanned (owner : String) (db : Db) (dead : List String)
    (rows : List Row) : Prop where
  stored : ∀ r ∈ rows, r ∈ db.tasks.rows
  owned : ∀ r ∈ rows, r.ownerId = owner
  pending : ∀ r ∈ rows, r.status = .pending
  free : ∀ r ∈ rows, r.taskId ∉ dead
  nodup : rows.Nodup

variable {rows : List Row}

theorem Scanned.tail (h : Scanned owner db dead (r :: rows)) :
    Scanned owner db dead rows where
  stored s hs := h.stored s (mem_cons_of_mem _ hs)
  owned s hs := h.owned s (mem_cons_of_mem _ hs)
  pending s hs := h.pending s (mem_cons_of_mem _ hs)
  free s hs := h.free s (mem_cons_of_mem _ hs)
  nodup := h.nodup.of_cons

theorem Scanned.cons {owner : String} {db : Db} {dead : List String} {r : Row}
    {rows : List Row} (h : Scanned owner db dead (r :: rows)) :
    Scanned owner db (r.taskId :: dead) rows where
  stored := h.tail.stored
  owned := h.tail.owned
  pending := h.tail.pending
  nodup := h.tail.nodup
  free s hs hmem := by
    rcases mem_cons.mp hmem with hid | hdead
    · have hr := find_of_mem (h.stored r mem_cons_self)
      have hs' := find_of_mem (h.tail.stored s hs)
      rw [h.owned r mem_cons_self] at hr
      rw [h.tail.owned s hs, hid, hr] at hs'
      have hsame : r = s := Option.some.inj hs'
      exact (nodup_cons.mp h.nodup).1 (hsame ▸ hs)
    · exact h.tail.free s hs hdead

/-- The ids that are dead-lettered once one more row is scanned. -/
def deadStep (owner : String) (db : Db) (dead : List String) (r : Row) :
    List String :=
  if waitsOnFailed owner db dead r then r.taskId :: dead else dead

/-- The journal takes what scanning the row records. -/
def rowFits (owner : String) (db : Db) (dead : List String) (r : Row) : Bool :=
  !waitsOnFailed owner db dead r || cascadeFits r

theorem journalled_cons (owner : String) (db : Db) (dead : List String) (r : Row)
    (rows : List Row) :
    journalled owner db dead (r :: rows) = (rowFits owner db dead r &&
      journalled owner db (deadStep owner db dead r) rows) := by
  unfold rowFits deadStep
  rw [journalled]
  by_cases hwaits : waitsOnFailed owner db dead r = true <;> simp [hwaits]

theorem Scanned.step (h : Scanned owner db dead (r :: rows)) :
    Scanned owner db (deadStep owner db dead r) rows := by
  unfold deadStep
  split
  · exact h.cons
  · exact h.tail

theorem rowReady_step (h : DeadLettered owner db dead db')
    (hrows : Scanned owner db dead (r :: rows)) (now : Stamp) :
    if rowFits owner db dead r then
      ∃ db'', rowReady owner now r db' = .ok (db'', r.ready owner db) ∧
        DeadLettered owner db (deadStep owner db dead r) db''
    else ∃ e, rowReady owner now r db' = .error e := by
  have hrow := rowReady_spec h (hrows.stored r mem_cons_self)
    (hrows.owned r mem_cons_self) (hrows.pending r mem_cons_self)
    (hrows.free r mem_cons_self) now
  unfold rowFits deadStep
  by_cases hwaits : waitsOnFailed owner db dead r = true
  · rw [if_pos hwaits] at hrow
    rw [if_pos hwaits, hwaits, not_ready_of_waits h.pending hwaits]
    exact hrow
  · rw [if_neg hwaits] at hrow
    have hclear : waitsOnFailed owner db dead r = false := by simpa using hwaits
    rw [if_neg hwaits, hclear]
    exact ⟨db', hrow, h⟩

/-- The scan of `claimable` offers the rows that were ready when it started, unless
the journal refuses an event. -/
theorem scanReady_spec (h : DeadLettered owner db dead db') (hrows : Scanned owner db dead rows)
    (now : Stamp) :
    if journalled owner db dead rows then
      ∃ db'', scanReady owner now rows db' =
          .ok (db'', (rows.filter (Row.ready owner db)).map rowToTask) ∧
        DeadLettered owner db (deadAfter owner db dead rows) db''
    else ∃ e, scanReady owner now rows db' = .error e := by
  induction rows generalizing dead db' with
  | nil => exact ⟨db', rfl, h⟩
  | cons r rows ih =>
    have hrow := rowReady_step h hrows now
    rw [journalled_cons]
    unfold scanReady
    by_cases hfits : rowFits owner db dead r = true
    · rw [if_pos hfits] at hrow
      obtain ⟨db₁, hok, hdead⟩ := hrow
      have hrest := ih hdead hrows.step
      rw [hfits, Bool.true_and, hok]
      split at hrest
      · obtain ⟨db₂, hscan, hdead₂⟩ := hrest
        rw [if_pos ‹_›]
        refine ⟨db₂, ?_, hdead₂⟩
        show (scanReady owner now rows db₁ >>= _) = _
        rw [hscan, filter_cons]
        cases r.ready owner db <;> rfl
      · obtain ⟨e, hscan⟩ := hrest
        rw [if_neg ‹_›]
        refine ⟨e, ?_⟩
        show (scanReady owner now rows db₁ >>= _) = _
        rw [hscan]
        rfl
    · rw [if_neg hfits] at hrow
      obtain ⟨e, herror⟩ := hrow
      rw [Bool.eq_false_of_not_eq_true hfits, Bool.false_and, herror]
      exact ⟨e, rfl⟩

/-- The reserved slot takes the first row that was ready when the scans started,
unless the journal refuses an event before it. -/
theorem firstReady_spec (h : DeadLettered owner db dead db') (hrows : Scanned owner db dead rows)
    (now : Stamp) :
    if journalled owner db dead (rows.takeWhile (fun r => !r.ready owner db)) then
      ∃ db'', firstReady owner now rows db' =
        .ok (db'', (rows.find? (Row.ready owner db)).map rowToTask)
    else ∃ e, firstReady owner now rows db' = .error e := by
  induction rows generalizing dead db' with
  | nil => exact ⟨db', rfl⟩
  | cons r rows ih =>
    have hrow := rowReady_step h hrows now
    unfold firstReady
    by_cases hready : r.ready owner db = true
    · have hfits : rowFits owner db dead r = true := by
        cases hwaits : waitsOnFailed owner db dead r with
        | false => simp [rowFits, hwaits]
        | true =>
          rw [not_ready_of_waits h.pending hwaits] at hready
          cases hready
      rw [if_pos hfits] at hrow
      obtain ⟨db₁, hok, -⟩ := hrow
      rw [takeWhile_cons_of_neg (by simp [hready]),
        find?_cons_of_pos hready, hok, hready]
      exact ⟨db₁, rfl⟩
    · have hno : r.ready owner db = false := Bool.eq_false_of_not_eq_true hready
      rw [takeWhile_cons_of_pos (by simp [hno]),
        find?_cons_of_neg hready, journalled_cons]
      by_cases hfits : rowFits owner db dead r = true
      · rw [if_pos hfits] at hrow
        obtain ⟨db₁, hok, hdead⟩ := hrow
        rw [hfits, Bool.true_and, hok, hno]
        exact ih hdead hrows.step
      · rw [if_neg hfits] at hrow
        obtain ⟨e, herror⟩ := hrow
        rw [Bool.eq_false_of_not_eq_true hfits, Bool.false_and, herror]
        exact ⟨e, rfl⟩

/-! ## What is claimable after a scan -/

/-- The row is claimable once the rows of `dead` are dead-lettered: neither it nor
its parent is among them. -/
def claimableAfter (owner : String) (stamp : Stamp) (db : Db) (dead : List String)
    (r : Row) : Bool :=
  claimableWhere owner stamp db r && r.taskId ∉ dead &&
    match r.parentTaskId with
    | none => true
    | some parent => parent ∉ dead

variable {stamp : Stamp}

theorem claimableWhere_iff :
    claimableWhere owner stamp db r = true ↔
      ((r.ownerId = owner ∧ r.status = .pending) ∧ r.superseded = false) ∧
      (∀ due, r.nextAttemptAt = some due → due ≤ stamp) ∧
      (∀ parent, r.parentTaskId = some parent →
        db.status owner parent ≠ some .completed ∧
          db.status owner parent ≠ some .deadLetter) := by
  unfold claimableWhere
  rw [Bool.and_eq_true, Bool.and_eq_true, Bool.and_eq_true, Bool.and_eq_true,
    beq_iff_eq, beq_iff_eq, Bool.not_eq_true', and_assoc]
  refine and_congr Iff.rfl (and_congr ?_ ?_)
  · cases r.nextAttemptAt with
    | none => simp
    | some due => simp
  · cases r.parentTaskId with
    | none => simp
    | some parent =>
      simp only [any_of_key, Db.status, Option.some.injEq, forall_eq']
      cases hp : db.find owner parent with
      | none => simp
      | some p => simp

/-- Whether a row is claimable after the scan, from the table it started in. -/
theorem claimableWhere_after (h : DeadLettered owner db dead db')
    (hkept : ¬ (r.ownerId = owner ∧ r.taskId ∈ dead)) :
    claimableWhere owner stamp db' r = claimableAfter owner stamp db dead r := by
  have hstatus : ∀ parent, (db'.status owner parent ≠ some .completed ∧
      db'.status owner parent ≠ some .deadLetter) ↔
        (db.status owner parent ≠ some .completed ∧
          db.status owner parent ≠ some .deadLetter) ∧ parent ∉ dead := by
    intro parent
    rw [h.status]
    unfold statusAfter
    split
    · rename_i hmem
      exact ⟨fun hne => absurd rfl hne.2, fun hne => absurd hmem hne.2⟩
    · rename_i hmem
      exact ⟨fun hne => ⟨hne, hmem⟩, fun hne => hne.1⟩
  rw [Bool.eq_iff_iff, claimableAfter, Bool.and_eq_true, Bool.and_eq_true,
    claimableWhere_iff, claimableWhere_iff]
  simp only [hstatus]
  have hfree : r.ownerId = owner → r.taskId ∉ dead :=
    fun ho hd => hkept ⟨ho, hd⟩
  cases r.parentTaskId with
  | none =>
    simp only [decide_not, Bool.not_eq_true', decide_eq_false_iff_not]
    constructor
    · rintro ⟨hc, hdue, -⟩
      exact ⟨⟨⟨hc, hdue, nofun⟩, hfree hc.1.1⟩, trivial⟩
    · rintro ⟨⟨⟨hc, hdue, -⟩, -⟩, -⟩
      exact ⟨hc, hdue, nofun⟩
  | some parent =>
    simp only [decide_not, Bool.not_eq_true', decide_eq_false_iff_not,
      Option.some.injEq, forall_eq']
    constructor
    · rintro ⟨hc, hdue, hp, hd⟩
      exact ⟨⟨⟨hc, hdue, hp⟩, hfree hc.1.1⟩, hd⟩
    · rintro ⟨⟨⟨hc, hdue, hp⟩, -⟩, hd⟩
      exact ⟨hc, hdue, hp, hd⟩

/-- The claimable rows after a scan are those of the table it started in that are
still claimable. -/
theorem filter_claimable (h : DeadLettered owner db dead db') (stamp : Stamp) (q : Row → Bool) :
    db'.tasks.rows.filter (fun r => claimableWhere owner stamp db' r && q r) =
      db.tasks.rows.filter (fun r => claimableAfter owner stamp db dead r && q r)
      := by
  obtain ⟨f, hrows, hkeys, hdead, hkept⟩ := h.rows
  have hgone : ∀ r, r.ownerId = owner ∧ r.taskId ∈ dead →
      claimableWhere owner stamp db' (f r) = false ∧
        claimableAfter owner stamp db dead r = false := by
    intro r hd
    refine ⟨?_, ?_⟩
    · have hstatus := hdead r hd.1 hd.2
      simp [claimableWhere, hstatus]
    · simp [claimableAfter, hd.2]
  have hsame : ∀ r, (claimableWhere owner stamp db' (f r) && q (f r)) =
      (claimableAfter owner stamp db dead r && q r) := by
    intro r
    by_cases hd : r.ownerId = owner ∧ r.taskId ∈ dead
    · rw [(hgone r hd).1, (hgone r hd).2, Bool.false_and, Bool.false_and]
    · rw [hkept r hd, claimableWhere_after h hd]
  rw [hrows, filter_map]
  have hpred : ((fun r => claimableWhere owner stamp db' r && q r) ∘ f) =
      fun r => claimableAfter owner stamp db dead r && q r := funext hsame
  rw [hpred]
  refine (map_congr_left (fun r hr => ?_)).trans (map_id _)
  have hclaimable := (mem_filter.mp hr).2
  apply hkept r
  intro hd
  rw [(hgone r hd).2, Bool.false_and] at hclaimable
  cases hclaimable

end StackOwl.Durable
