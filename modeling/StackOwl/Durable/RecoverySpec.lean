import StackOwl.Durable.Recovery
import StackOwl.Durable.StoreSpec

/-!
# What the recovery passes do to a row

`reclaim_one` on the table is `recoverRow` on the row of its key and nothing on
any other row; a pass over the table is at most one such step for each row.

## Main results

* `reclaimOne_own`, `reclaimOne_other` — the row-level account of `reclaim_one`.
* `livenessSweep_find`, `recover_find` — the row-level account of the two passes.
-/

namespace StackOwl.Durable

open Lib List

/-! ## One reclaim -/

/-- `running` or `recovering`: what `claim_for_recovery` takes. -/
def Row.orphaned (r : Row) : Bool :=
  r.status == .running || r.status == .recovering

/-- The row as `claim_for_recovery` leaves it when it matched. -/
def claimedRow (countAttempt : Bool) (now : Stamp) (r : Row) : Row :=
  (claimForRecoverySql r.ownerId r.taskId countAttempt now).set r

/-- `reclaim_one` on the row of its task: the row it leaves, and whether a drive
was launched. -/
def recoverRow (resumable : Resumable) (task : DurableTask)
    (countAttempt : Bool) (now : Stamp) (r : Row) : Row × Bool :=
  if attemptsExhausted task = false ∧ r.orphaned = true then
    let claimed := claimedRow countAttempt now r
    if resumable task claimed.checkpointBlob then
      ({ claimed with status := .running, updatedAt := now }, true)
    else
      (claimed, false)
  else
    (r, false)

variable {r : Row} {owner taskId : String} {now : Stamp}

theorem returnToRunning_of_execute {db db' : Db} {n : Nat} (hr : db.find owner taskId = some r)
    (h : db.execute (updateStatusSql owner taskId .running { now }) = .ok (db', n)) :
    returnToRunning owner taskId now db = .ok (db', .running) := by
  simp [returnToRunning, updateStatus, heldStatus, requireOwned, hr, h]
  rfl

theorem Row.orphaned_iff : r.orphaned = true ↔
    r.status = .running ∨ r.status = .recovering := by
  simp [Row.orphaned]

private theorem claimedRow_carries (countAttempt : Bool) (now : Stamp) (r : Row) :
    (claimedRow countAttempt now r).ownerId = r.ownerId ∧
    (claimedRow countAttempt now r).taskId = r.taskId ∧
    (claimedRow countAttempt now r).idempotencyKey = r.idempotencyKey ∧
    (claimedRow countAttempt now r).commandId = r.commandId := by
  cases countAttempt <;> exact ⟨rfl, rfl, rfl, rfl⟩

/-- The claim is never refused: it takes live rows and leaves them live or
dead. -/
theorem claimForRecovery_isOk (owner taskId : String) (countAttempt : Bool)
    (now : Stamp) (db : Db) :
    ∃ db' claimed,
      claimForRecovery owner taskId countAttempt now db = .ok (db', claimed) := by
  have hexec : ∃ db' n, db.execute
      (claimForRecoverySql owner taskId countAttempt now) = .ok (db', n) := by
    apply execute_isOk db
    intro r hg
    obtain ⟨-, hstatus⟩ := claimForRecoverySql_guard_iff.mp hg
    obtain ⟨howner, htask, hidem, hcommand⟩ :=
      claimedRow_carries countAttempt now r
    apply keys_kept howner htask hidem hcommand
    intro _
    rcases hstatus with h | h <;> rw [h] <;> decide
  obtain ⟨db', n, hexec⟩ := hexec
  exact ⟨db', n == 1, by simp [claimForRecovery, hexec]⟩

variable {countAttempt : Bool}

/-- Claiming a row and returning it to `running` gives it back its index keys,
so the second statement is not refused either. -/
private theorem returnToRunning_isOk {db db₁ : Db} (hr : db.find owner taskId = some r)
    (horphaned : r.orphaned = true)
    (hupd : Updates (claimForRecoverySql owner taskId countAttempt now) [] db db₁) :
    ∃ db' n, db₁.execute (updateStatusSql owner taskId .running { now }) =
      .ok (db', n) := by
  apply execute_isOk_of_map db db₁ hupd.rows
  intro s hs
  by_cases hkey : isKey owner taskId s = true
  · obtain ⟨ho, hi⟩ := isKey_iff.mp hkey
    have hfound := find_of_mem hs
    rw [ho, hi, hr] at hfound
    cases hfound
    have hg : (claimForRecoverySql owner taskId countAttempt now).guard r =
        true :=
      claimForRecoverySql_guard_iff.mpr ⟨hkey, Row.orphaned_iff.mp horphaned⟩
    obtain ⟨howner, htask, hidem, hcommand⟩ :=
      claimedRow_carries countAttempt now r
    have hon : (claimForRecoverySql owner taskId countAttempt now).on r =
        claimedRow countAttempt now r := Update.on_of_guard hg
    have hkey' : (updateStatusSql owner taskId .running { now }).guard
        (claimedRow countAttempt now r) = true :=
      isKey_iff.mpr ⟨howner.trans ho, htask.trans hi⟩
    rw [hon, Update.on_of_guard hkey']
    refine keys_kept howner htask hidem hcommand (fun _ => ?_)
    rcases Row.orphaned_iff.mp horphaned with h | h <;> rw [h] <;> decide
  · have hkey' : isKey owner taskId s = false := by simpa using hkey
    have hon : (claimForRecoverySql owner taskId countAttempt now).on s = s :=
      Update.on_of_not_guard (by simp [claimForRecoverySql, hkey'])
    rw [hon, Update.on_of_not_guard (by exact hkey')]
    exact fun key _ => Or.inl rfl

/-- The claim on the row of its key: it wins exactly a `running` or `recovering`
one. -/
theorem claimForRecovery_find {db db' : Db} {claimed : Bool} (hr : db.find owner taskId = some r)
    (h : claimForRecovery owner taskId countAttempt now db = .ok (db', claimed)) :
    claimed = r.orphaned ∧ db'.find owner taskId =
      some (if r.orphaned then claimedRow countAttempt now r else r) := by
  obtain ⟨hupd, hclaimed⟩ := claimForRecovery_spec h
  obtain ⟨rfl, rfl⟩ := key_of_find hr
  have hwins : claimed = r.orphaned := by
    rw [hclaimed, recoverable, hr]
    rfl
  refine ⟨hwins, ?_⟩
  by_cases horphaned : r.orphaned = true
  · rw [if_pos horphaned]
    apply hupd.find_matched hr
    exact claimForRecoverySql_guard_iff.mpr
      ⟨isKey_iff.mpr ⟨rfl, rfl⟩, Row.orphaned_iff.mp horphaned⟩
  · rw [if_neg horphaned]
    apply hupd.find_unmatched hr
    by_contra hg
    have hstatus := (claimForRecoverySql_guard_iff.mp (by simpa using hg)).2
    exact horphaned (Row.orphaned_iff.mpr hstatus)

private theorem returnToRunning_find {db db₁ : Db} (hr : db.find owner taskId = some r)
    (horphaned : r.orphaned = true)
    (h : claimForRecovery owner taskId countAttempt now db = .ok (db₁, true)) :
    ∃ db₂, returnToRunning owner taskId now db₁ = .ok (db₂, .running) ∧
      db₂.find owner taskId = some { claimedRow countAttempt now r with
        status := .running, updatedAt := now } := by
  have hrow := (claimForRecovery_find hr h).2
  rw [if_pos horphaned] at hrow
  obtain ⟨db₂, n, hexec⟩ :=
    returnToRunning_isOk hr horphaned (claimForRecovery_spec h).1
  refine ⟨db₂, returnToRunning_of_execute hrow hexec, ?_⟩
  have hkey : isKey owner taskId (claimedRow countAttempt now r) = true :=
    Table.sat_of_find? hrow
  exact (updates_execute hexec).find_matched hrow hkey

variable {db : Db} {task : DurableTask}

theorem reclaimOne_own (resumable : Resumable) (countAttempt : Bool) (now : Stamp)
    (hr : db.find owner task.taskId = some r) :
    (reclaimOne owner resumable task countAttempt now db).1.find owner
        task.taskId =
      some (recoverRow resumable task countAttempt now r).1 ∧
    (reclaimOne owner resumable task countAttempt now db).2 =
      (recoverRow resumable task countAttempt now r).2 := by
  unfold reclaimOne recoverRow
  cases hexhausted : attemptsExhausted task with
  | true => simp [hr]
  | false =>
    obtain ⟨db₁, claimed, hclaim⟩ :=
      claimForRecovery_isOk owner task.taskId countAttempt now db
    obtain ⟨hwins, hrow⟩ := claimForRecovery_find hr hclaim
    cases horphaned : r.orphaned with
    | false =>
      rw [horphaned] at hwins hrow
      subst hwins
      simpa [hclaim] using hrow
    | true =>
      rw [horphaned] at hwins
      rw [if_pos horphaned] at hrow
      subst hwins
      have hblob : loadCheckpoint owner task.taskId db₁ =
          (claimedRow countAttempt now r).checkpointBlob := by
        simp [loadCheckpoint, hrow]
      simp only [hclaim, hblob, and_self, if_true]
      by_cases hresume : resumable task
          (claimedRow countAttempt now r).checkpointBlob = true
      · obtain ⟨db₂, hreturn, hfinal⟩ := returnToRunning_find hr horphaned hclaim
        rw [if_pos hresume, if_pos hresume, hreturn]
        exact ⟨hfinal, rfl⟩
      · rw [if_neg hresume, if_neg hresume]
        exact ⟨hrow, rfl⟩

variable {o i : String} {resumable : Resumable}

/-- `reclaim_one` leaves every other row alone. -/
theorem reclaimOne_other (hne : ¬ (owner = o ∧ task.taskId = i)) :
    (reclaimOne owner resumable task countAttempt now db).1.find o i =
      db.find o i := by
  unfold reclaimOne
  by_cases hexhausted : attemptsExhausted task = true
  · rw [if_pos hexhausted]
  · rw [if_neg hexhausted]
    obtain ⟨db₁, claimed, hclaim⟩ :=
      claimForRecovery_isOk owner task.taskId countAttempt now db
    have hfind := (claimForRecovery_spec hclaim).1.find_other
      (fun r hg => (claimForRecoverySql_guard_iff.mp hg).1) hne
    rw [hclaim]
    cases claimed with
    | false => exact hfind
    | true =>
      dsimp only
      split
      · cases hreturn : returnToRunning owner task.taskId now db₁ with
        | error e => exact hfind
        | ok out =>
          obtain ⟨db₂, status⟩ := out
          obtain ⟨r, -, hupd, -⟩ := updateStatus_spec hreturn
          exact (hupd.find_other (fun _ hg => hg) hne).trans hfind
      · exact hfind

theorem reclaimOne_absent (h : db.find o i = none) :
    (reclaimOne owner resumable task countAttempt now db).1.find o i = none := by
  by_cases hkey : owner = o ∧ task.taskId = i
  · obtain ⟨rfl, rfl⟩ := hkey
    unfold reclaimOne
    by_cases hexhausted : attemptsExhausted task = true
    · rw [if_pos hexhausted]
      exact h
    · rw [if_neg hexhausted]
      obtain ⟨db₁, claimed, hclaim⟩ :=
        claimForRecovery_isOk owner task.taskId countAttempt now db
      obtain ⟨hupd, hclaimed⟩ := claimForRecovery_spec hclaim
      have hlost : claimed = false := by simp [hclaimed, recoverable, h]
      rw [hclaim, hlost]
      show db₁.find owner task.taskId = none
      rw [hupd.find, h]
      rfl
  · rw [reclaimOne_other hkey, h]

/-! ## A list of reclaims -/

/-- The task of the key, reclaimed under the owner `ownerOf` names. -/
def reclaims (ownerOf : DurableTask → String) (o i : String)
    (task : DurableTask) : Bool :=
  ownerOf task == o && task.taskId == i

def launchedFor (ownerOf : DurableTask → String) (o i : String)
    (launched : List DurableTask) : Bool :=
  launched.any (reclaims ownerOf o i)

variable {ownerOf : DurableTask → String} {tasks : List DurableTask}

theorem reclaimEach_none (resumable : Resumable) (countAttempt : Bool) (now : Stamp) (db : Db)
    (h : tasks.filter (reclaims ownerOf o i) = []) :
    (reclaimEach ownerOf resumable countAttempt now tasks db).1.find o i =
        db.find o i ∧
      launchedFor ownerOf o i
        (reclaimEach ownerOf resumable countAttempt now tasks db).2 = false := by
  induction tasks generalizing db with
  | nil => exact ⟨rfl, rfl⟩
  | cons task tasks ih =>
    rw [filter_eq_nil_iff] at h
    have hhead : reclaims ownerOf o i task = false := by
      simpa using h task mem_cons_self
    have hne : ¬ (ownerOf task = o ∧ task.taskId = i) := by
      simpa [reclaims] using hhead
    have hrest : tasks.filter (reclaims ownerOf o i) = [] :=
      filter_eq_nil_iff.mpr
        (fun t ht => h t (mem_cons_of_mem _ ht))
    obtain ⟨hfind, hlaunched⟩ := ih
      (reclaimOne (ownerOf task) resumable task countAttempt now db).1 hrest
    simp only [reclaimEach]
    refine ⟨hfind.trans (reclaimOne_other hne), ?_⟩
    split
    · simp only [launchedFor, any_cons, hhead, Bool.false_or]
      exact hlaunched
    · exact hlaunched

theorem reclaimEach_absent (tasks : List DurableTask) (h : db.find o i = none) :
    (reclaimEach ownerOf resumable countAttempt now tasks db).1.find o i =
      none := by
  induction tasks generalizing db with
  | nil => exact h
  | cons task tasks ih => exact ih (reclaimOne_absent h)

theorem reclaimEach_one (resumable : Resumable) (countAttempt : Bool) (now : Stamp)
    (h : tasks.filter (reclaims ownerOf o i) = [task]) (hr : db.find o i = some r) :
    (reclaimEach ownerOf resumable countAttempt now tasks db).1.find o i =
        some (recoverRow resumable task countAttempt now r).1 ∧
      launchedFor ownerOf o i
        (reclaimEach ownerOf resumable countAttempt now tasks db).2 =
          (recoverRow resumable task countAttempt now r).2 := by
  induction tasks generalizing db with
  | nil => cases h
  | cons t tasks ih =>
    simp only [reclaimEach]
    by_cases hhead : reclaims ownerOf o i t = true
    · rw [filter_cons_of_pos hhead] at h
      obtain ⟨rfl, hrest⟩ := cons_eq_cons.mp h
      obtain ⟨rfl, rfl⟩ : ownerOf t = o ∧ t.taskId = i := by
        simpa [reclaims] using hhead
      obtain ⟨hfind, hlaunched⟩ := reclaimEach_none resumable countAttempt now
        (reclaimOne (ownerOf t) resumable t countAttempt now db).1 hrest
      obtain ⟨hrow, hdrive⟩ := reclaimOne_own resumable countAttempt now hr
      refine ⟨hfind.trans hrow, ?_⟩
      rw [← hdrive]
      split
      · rename_i hlaunch
        rw [hlaunch]
        simp [launchedFor, hhead]
      · rename_i hlaunch
        rw [hlaunched]
        simpa using hlaunch
    · rw [filter_cons_of_neg hhead] at h
      have hne : ¬ (ownerOf t = o ∧ t.taskId = i) := by
        simpa [reclaims] using hhead
      obtain ⟨hfind, hlaunched⟩ := ih h ((reclaimOne_other hne).trans hr)
      refine ⟨hfind, ?_⟩
      split
      · have hfalse : reclaims ownerOf o i t = false := by simpa using hhead
        simp only [launchedFor, any_cons, hfalse, Bool.false_or]
        exact hlaunched
      · exact hlaunched

/-! ## What the passes select -/

private theorem filter_listTasks (owner : String) (status : TaskStatus) (db : Db)
    (p : DurableTask → Bool) (o i : String) :
    (listTasks owner status db).filter
        (fun t => p t && reclaims DurableTask.ownerId o i t) =
      ((db.find o i).filter (fun r => (r.ownerId == owner && r.status == status)
        && p (rowToTask r))).toList.map rowToTask := by
  rw [listTasks, filter_map, filter_filter, ← filter_of_key]
  refine congrArg (map rowToTask) (filter_congr (fun r _ => ?_))
  show ((p (rowToTask r) && isKey o i r) && _) = _
  ac_rfl

def sweepPicks (owner : String) (staleAfter : Int) (now : Stamp) (r : Row) :
    Bool :=
  r.status == .running && isStale staleAfter now (rowToTask r) &&
    (r.ownerId == owner || r.ownerId != "")

private theorem flatMap_of_key {α : Type} {owners : List String}
    (hnodup : owners.Nodup) (o : String) (xs : List α) :
    owners.flatMap (fun a => if o = a then xs else []) =
      if o ∈ owners then xs else [] := by
  induction owners with
  | nil => rfl
  | cons a owners ih =>
    rw [nodup_cons] at hnodup
    rw [flatMap_cons, ih hnodup.2]
    by_cases ha : o = a
    · rw [if_pos ha, if_neg (ha ▸ hnodup.1), if_pos (ha ▸ mem_cons_self), append_nil]
    · simp [ha]

private theorem mem_otherOwners (owner : String) (hr : db.find o i = some r)
    (hrunning : r.status = .running) :
    r.ownerId ∈ otherOwnersWithRunningTasks owner db ↔
      r.ownerId ≠ "" ∧ r.ownerId ≠ owner := by
  unfold otherOwnersWithRunningTasks
  rw [mem_dedup, mem_map]
  constructor
  · rintro ⟨s, hs, hsame⟩
    rw [← hsame]
    simp only [mem_filter, Bool.and_eq_true, bne_iff_ne] at hs
    exact ⟨hs.2.1.2, hs.2.2⟩
  · rintro ⟨hblank, hother⟩
    refine ⟨r, mem_filter.mpr ⟨mem_of_find hr, ?_⟩, rfl⟩
    simp [hrunning, hblank, hother]

theorem findStale_of_key (owner : String) (staleAfter : Int) (now : Stamp)
    (db : Db) (o i : String) :
    (findStale owner staleAfter now db).filter (reclaims DurableTask.ownerId o i)
      = ((db.find o i).filter (sweepPicks owner staleAfter now)).toList.map
        rowToTask := by
  rw [findStale, filter_filter, filter_append, filter_flatMap]
  simp only [Bool.and_comm (reclaims _ o i _), filter_listTasks]
  cases hr : db.find o i with
  | none => simp
  | some r =>
    have hentry : ∀ a : String, (Option.filter (fun r =>
        (r.ownerId == a && r.status == .running) &&
          isStale staleAfter now (rowToTask r)) (some r)).toList.map rowToTask =
        if r.ownerId = a then
          if r.status = .running ∧ isStale staleAfter now (rowToTask r) = true
          then [rowToTask r] else []
        else [] := by
      intro a
      by_cases ha : r.ownerId = a <;>
        by_cases hstale : isStale staleAfter now (rowToTask r) = true <;>
          by_cases hrunning : r.status = .running <;>
            simp [Option.filter, ha, hstale, hrunning]
    have hnodup : (otherOwnersWithRunningTasks owner db).Nodup :=
      nodup_dedup _
    simp only [hentry]
    rw [flatMap_of_key hnodup]
    by_cases hpick : r.status = .running ∧
        isStale staleAfter now (rowToTask r) = true
    · have hmem := mem_otherOwners owner hr hpick.1
      rw [if_pos hpick]
      by_cases hown : r.ownerId = owner
      · rw [if_pos hown, if_neg (fun h => (hmem.mp h).2 hown)]
        simp [Option.filter, sweepPicks, hpick, hown]
      · by_cases hblank : r.ownerId = ""
        · rw [if_neg hown, if_neg (fun h => (hmem.mp h).1 hblank)]
          have hne : owner ≠ "" := fun h => hown (hblank.trans h.symm)
          simp [Option.filter, sweepPicks, hblank, hne.symm]
        · rw [if_neg hown, if_pos (hmem.mpr ⟨hblank, hown⟩)]
          simp [Option.filter, sweepPicks, hpick, hblank]
    · have hnot : sweepPicks owner staleAfter now r = false := by
        by_contra h
        rw [Bool.not_eq_false, sweepPicks, Bool.and_eq_true,
          Bool.and_eq_true, beq_iff_eq] at h
        exact hpick h.1
      simp [hpick, Option.filter, hnot]

/-! ## The liveness sweep -/

def sweepRow (owner : String) (staleAfter : Int) (resumable : Resumable)
    (now : Stamp) (r : Row) : Row × Bool :=
  if sweepPicks owner staleAfter now r then
    recoverRow resumable (rowToTask r) true now r
  else
    (r, false)

theorem livenessSweep_find (owner : String) (staleAfter : Int) (resumable : Resumable)
    (now : Stamp) (hr : db.find o i = some r) :
    (livenessSweep owner staleAfter resumable now db).1.find o i =
        some (sweepRow owner staleAfter resumable now r).1 ∧
      launchedFor DurableTask.ownerId o i
        (livenessSweep owner staleAfter resumable now db).2 =
          (sweepRow owner staleAfter resumable now r).2 := by
  have hlist := findStale_of_key owner staleAfter now db o i
  rw [hr] at hlist
  unfold livenessSweep sweepRow
  by_cases hpick : sweepPicks owner staleAfter now r = true
  · rw [if_pos hpick]
    refine reclaimEach_one resumable true now ?_ hr
    rw [hlist]
    simp [Option.filter, hpick]
  · rw [if_neg hpick, ← hr]
    apply reclaimEach_none resumable true now db
    rw [hlist]
    simp [Option.filter, hpick]

/-! ## Zombie children -/

/-- The row of a zombie child once it is reaped. -/
def reapedRow (now : Stamp) (r : Row) : Row :=
  { r with
    status := .failed
    result := some "abandoned: parent already terminal"
    updatedAt := now }

/-- The `UPDATE` that reaps a zombie is never refused: a failed row is outside the
live index. -/
private theorem reap_isOk (owner taskId : String) (fields : StatusFields)
    (db : Db) : ∃ db' n,
      db.execute (updateStatusSql owner taskId .failed fields) = .ok (db', n) :=
  execute_isOk_of_ended db (fun _ => ⟨rfl, rfl⟩)
    (fun _ => show TaskStatus.failed ∉ LIVE_TASK_STATUSES by decide)

private theorem reap_find (owner : String) (now : Stamp) (z : DurableTask)
    (zs : List DurableTask) (db : Db) : ∃ db₁,
      reapEach owner now (z :: zs) db = reapEach owner now zs db₁ ∧
      ∀ o i, db₁.find o i =
        if owner = o ∧ z.taskId = i then (db.find o i).map (reapedRow now)
        else db.find o i := by
  cases hfound : db.find owner z.taskId with
  | none =>
    have herror : terminalizeChild owner z.taskId .failed
        (some "abandoned: parent already terminal") now db =
          .error (.taskNotFound z.taskId) := by
      simp [terminalizeChild, updateStatus, heldStatus, requireOwned, hfound]
      rfl
    refine ⟨db, by rw [reapEach, herror], fun o i => ?_⟩
    by_cases hkey : owner = o ∧ z.taskId = i
    · obtain ⟨rfl, rfl⟩ := hkey
      simp [hfound]
    · rw [if_neg hkey]
  | some r =>
    obtain ⟨db₁, n, hexec⟩ := reap_isOk owner z.taskId
      { result := some "abandoned: parent already terminal",
        terminal := true, now } db
    have hok : terminalizeChild owner z.taskId .failed
        (some "abandoned: parent already terminal") now db = .ok db₁ := by
      simp [terminalizeChild, updateStatus, heldStatus, requireOwned, hfound,
        hexec]
      rfl
    refine ⟨db₁, by rw [reapEach, hok], fun o i => ?_⟩
    have hupd := updates_execute hexec
    by_cases hkey : owner = o ∧ z.taskId = i
    · obtain ⟨rfl, rfl⟩ := hkey
      have hg : isKey owner z.taskId r = true := Table.sat_of_find? hfound
      rw [if_pos ⟨rfl, rfl⟩, hfound, hupd.find_matched hfound hg]
      rfl
    · rw [if_neg hkey]
      exact hupd.find_other (fun _ hg => hg) hkey

/-- Reaping the zombies listed fails their rows and no other; reaping twice is
reaping once. -/
theorem reapEach_find (owner : String) (now : Stamp) (zs : List DurableTask)
    (db : Db) (o i : String) :
    (reapEach owner now zs db).find o i =
      if launchedFor (fun _ => owner) o i zs then
        (db.find o i).map (reapedRow now)
      else db.find o i := by
  induction zs generalizing db with
  | nil => rfl
  | cons z zs ih =>
    obtain ⟨db₁, hstep, hfind⟩ := reap_find owner now z zs db
    rw [hstep, ih, hfind]
    by_cases hkey : owner = o ∧ z.taskId = i
    · have htwice : reapedRow now ∘ reapedRow now = reapedRow now := rfl
      simp [launchedFor, reclaims, hkey, htwice]
    · have hnot : reclaims (fun _ => owner) o i z = false := by
        simpa [reclaims] using hkey
      simp [launchedFor, hnot, hkey]

theorem launchedFor_zombies (hr : db.find o i = some r) :
    launchedFor (fun _ => owner) o i (listZombieChildren owner db) =
      zombieChild owner db r := by
  rw [Bool.eq_iff_iff]
  simp only [launchedFor, listZombieChildren, any_map, any_eq_true,
    mem_filter, Function.comp, reclaims, Bool.and_eq_true, beq_iff_eq]
  constructor
  · rintro ⟨s, ⟨hs, hzombie⟩, howner, htask⟩
    have hkey : s.ownerId = owner := by
      simp only [zombieChild, Bool.and_eq_true, beq_iff_eq] at hzombie
      exact hzombie.1.1
    have hfound := find_of_mem hs
    have hid : s.taskId = i := htask
    rw [hkey, howner, hid, hr] at hfound
    rw [Option.some.inj hfound]
    exact hzombie
  · intro hzombie
    obtain ⟨ho, hi⟩ := key_of_find hr
    have hkey : r.ownerId = owner := by
      simp only [zombieChild, Bool.and_eq_true, beq_iff_eq] at hzombie
      exact hzombie.1.1
    exact ⟨r, ⟨mem_of_find hr, hzombie⟩, hkey.symm.trans ho, hi⟩

/-! ## Boot recovery -/

/-- The scan of `recover` keeps the first root of each id it has not seen. -/
private theorem scanOrphans_of_key (i : String) (tasks : List DurableTask)
    (seen : List String) :
    (scanOrphans seen tasks).filter (fun t => t.taskId == i) =
      if i ∈ seen then []
      else (tasks.filter (fun t => t.parentTaskId.isNone && t.taskId == i)).take 1
      := by
  induction tasks generalizing seen with
  | nil => simp [scanOrphans]
  | cons t tasks ih =>
    unfold scanOrphans
    by_cases hchild : t.parentTaskId.isSome = true
    · have hroot : t.parentTaskId.isNone = false := by simpa using hchild
      rw [if_pos hchild, ih]
      simp [hroot]
    · have hroot : t.parentTaskId.isNone = true := by simpa using hchild
      rw [if_neg hchild]
      by_cases hid : t.taskId = i
      · by_cases hseen : i ∈ seen
        · simp [hid, hseen, ih]
        · simp [hid, hseen, ih, hroot]
      · by_cases hseen : t.taskId ∈ seen
        · simp [hid, hseen, ih]
        · simp [hid, hseen, ih, Ne.symm hid]

/-- A root row boot recovery takes for an orphan. -/
def bootPicks (owner : String) (r : Row) : Bool :=
  r.ownerId == owner && r.orphaned && r.parentTaskId.isNone

theorem orphans_of_key (owner : String) (hr : db.find o i = some r) :
    (orphans owner db).filter (reclaims (fun _ => owner) o i) =
      if bootPicks owner r then [rowToTask r] else [] := by
  by_cases howner : owner = o
  · subst howner
    have hid : ∀ status, (listTasks owner status db).filter
        (fun t => t.parentTaskId.isNone && t.taskId == i) =
        ((db.find owner i).filter (fun r =>
          (r.ownerId == owner && r.status == status) &&
            r.parentTaskId.isNone)).toList.map rowToTask := by
      intro status
      have hlist := filter_listTasks owner status db
        (fun t => t.parentTaskId.isNone) owner i
      refine Eq.trans (filter_congr (fun t ht => ?_)) hlist
      obtain ⟨s, hs, rfl⟩ := mem_map.mp ht
      have hs' : s.ownerId = owner ∧ s.status = status := by
        simpa using (mem_filter.mp hs).2
      have howner : (rowToTask s).ownerId = owner := hs'.1
      simp [reclaims, howner]
    have hkey : reclaims (fun _ => owner) owner i = fun t => t.taskId == i := by
      funext t
      simp [reclaims]
    rw [hkey, orphans, scanOrphans_of_key, if_neg not_mem_nil,
      filter_append, hid, hid, hr]
    obtain ⟨ho, -⟩ := key_of_find hr
    cases hroot : r.parentTaskId with
    | some parent => simp [Option.filter, bootPicks, hroot]
    | none =>
      cases hstatus : r.status <;>
        simp [Option.filter, bootPicks, Row.orphaned, hroot, hstatus, ho]
  · obtain ⟨ho, -⟩ := key_of_find hr
    have hnot : bootPicks owner r = false := by
      simp [bootPicks, ho, Ne.symm howner]
    rw [hnot]
    apply filter_eq_nil_iff.mpr
    intro t _
    simp [reclaims, howner]

def bootRow (owner : String) (resumable : Resumable) (now : Stamp) (db : Db)
    (r : Row) : Row × Bool :=
  if zombieChild owner db r then
    (reapedRow now r, false)
  else if bootPicks owner r then
    recoverRow resumable (rowToTask r) false now r
  else
    (r, false)

private theorem bootPicks_of_zombie (h : zombieChild owner db r = true) :
    bootPicks owner r = false := by
  cases hparent : r.parentTaskId with
  | none => simp [zombieChild, hparent] at h
  | some parent => simp [bootPicks, hparent]

theorem recover_find (owner : String) (resumable : Resumable) (now : Stamp)
    (hr : db.find o i = some r) :
    (recover owner resumable now db).1.find o i =
        some (bootRow owner resumable now db r).1 ∧
      launchedFor (fun _ => owner) o i (recover owner resumable now db).2 =
        (bootRow owner resumable now db r).2 := by
  have hreaped := reapEach_find owner now (listZombieChildren owner db) db o i
  have hlist := orphans_of_key owner hr
  rw [launchedFor_zombies hr, hr] at hreaped
  unfold recover bootRow
  by_cases hzombie : zombieChild owner db r = true
  · rw [if_pos hzombie] at hreaped ⊢
    rw [bootPicks_of_zombie hzombie] at hlist
    have hnone := reclaimEach_none resumable false now
      (reapZombieChildren owner now db) hlist
    exact ⟨hnone.1.trans hreaped, hnone.2⟩
  · rw [if_neg hzombie] at hreaped ⊢
    by_cases hpick : bootPicks owner r = true
    · rw [if_pos hpick] at hlist ⊢
      exact reclaimEach_one resumable false now hlist hreaped
    · rw [if_neg hpick] at hlist ⊢
      have hnone := reclaimEach_none resumable false now
        (reapZombieChildren owner now db) hlist
      exact ⟨hnone.1.trans hreaped, hnone.2⟩

end StackOwl.Durable
