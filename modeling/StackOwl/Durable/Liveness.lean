import StackOwl.Durable.RecoverySpec
import StackOwl.Durable.Runs

/-!
# Running rows within reach of recovery

Four passes look for rows whose driver is gone.  `reclaim_expired` needs a lease,
the liveness sweep and boot recovery a root with attempts to spend, the zombie
reaper a parent that is `completed` or `failed`.  What is `running` and fits none
of these stays `running`.

## Main results

* `takes_of_covered` — a pass takes every row its filter covers, from some time
  on.
* `notLost_iff` — a running row is found again exactly when its parent is live or
  it is `Covered`.
* `no_running_row_lost_iff` — the runs that lose no row.
-/

namespace StackOwl.Durable

open Lib Option Bool

/-! ## The recovery passes -/

/-- The recovery passes of one owner, each with the clock it reads. -/
inductive RecoveryPass where
  | reclaimExpired (now : Stamp)
  | livenessSweep (resumable : Resumable) (now : Stamp)
  | recover (resumable : Resumable) (now : Stamp)
  | reapZombieChildren (now : Stamp)

variable (owner : String) (staleAfter : Int) (db : Db)

def recoveryStep :
    RecoveryPass → Db
  | .reclaimExpired now => step db (.reclaimExpired owner now)
  | .livenessSweep resumable now =>
    (livenessSweep owner staleAfter resumable now db).1
  | .recover resumable now => (recover owner resumable now db).1
  | .reapZombieChildren now => reapZombieChildren owner now db

def RecoveryPass.launches (taskId : String) (db : Db) : RecoveryPass → Bool
  | .livenessSweep resumable now =>
    launchedFor DurableTask.ownerId owner taskId
      (Durable.livenessSweep owner staleAfter resumable now db).2
  | .recover resumable now =>
    launchedFor (fun _ => owner) owner taskId
      (Durable.recover owner resumable now db).2
  | _ => false

/-- The pass changes the status of the task's row or launches a drive for it. -/
def Notices (taskId : String) (db : Db) (pass : RecoveryPass) : Prop :=
  (recoveryStep owner staleAfter db pass).status owner taskId ≠
      db.status owner taskId ∨
    pass.launches owner staleAfter taskId db = true

/-- The pass selects the row and does not find its attempts spent. -/
def RecoveryPass.takes (r : Row) :
    RecoveryPass → Bool
  | .reclaimExpired now => expiredLeaseWhere owner now r
  | .livenessSweep _ now =>
    sweepPicks owner staleAfter now r && !attemptsExhausted (rowToTask r)
  | .recover _ _ =>
    zombieChild owner db r ||
      bootPicks owner r && !attemptsExhausted (rowToTask r)
  | .reapZombieChildren _ => zombieChild owner db r

variable {r : Row} {db}

theorem orphaned_of_zombie {owner : String} (h : zombieChild owner db r = true) :
    r.orphaned = true := by
  simp only [zombieChild, and_eq_true] at h
  exact h.1.2

variable {staleAfter} {pass : RecoveryPass}

/-- Every pass takes `running` and `recovering` rows only. -/
theorem orphaned_of_takes {owner : String} (h : pass.takes owner staleAfter db r = true) :
    r.orphaned = true := by
  cases pass with
  | reclaimExpired now =>
    obtain ⟨⟨-, hrunning⟩, -⟩ := reclaimExpiredSql_guard_iff.mp h
    exact Row.orphaned_iff.mpr (.inl hrunning)
  | livenessSweep resumable now =>
    simp only [RecoveryPass.takes, sweepPicks, and_eq_true, beq_iff_eq] at h
    exact Row.orphaned_iff.mpr (.inl h.1.1.1)
  | recover resumable now =>
    simp only [RecoveryPass.takes, or_eq_true, and_eq_true] at h
    rcases h with hzombie | ⟨hpick, -⟩
    · exact orphaned_of_zombie hzombie
    · simp only [bootPicks, and_eq_true] at hpick
      exact hpick.1.2
  | reapZombieChildren now => exact orphaned_of_zombie h

/-- The lease sweep is never refused: it takes running rows and leaves them
pending or dead. -/
theorem reclaimExpired_isOk (now : Stamp) (db : Db) :
    ∃ db' n, db.execute (reclaimExpiredSql owner now) = .ok (db', n) := by
  refine execute_isOk db (fun r hg => keys_kept rfl rfl rfl rfl (fun _ => ?_))
  obtain ⟨⟨-, hrunning⟩, -⟩ := reclaimExpiredSql_guard_iff.mp hg
  rw [hrunning]
  decide

/-- The row after a pass, and whether a drive was launched for it. -/
def RecoveryPass.onRow (staleAfter : Int) (db : Db) (r : Row) :
    RecoveryPass → Row × Bool
  | .reclaimExpired now => ((reclaimExpiredSql owner now).on r, false)
  | .livenessSweep resumable now =>
    sweepRow owner staleAfter resumable now r
  | .recover resumable now => bootRow owner resumable now db r
  | .reapZombieChildren now =>
    (if zombieChild owner db r then reapedRow now r else r, false)

variable {owner} {taskId : String}

theorem recoveryStep_find (staleAfter : Int) (pass : RecoveryPass)
    (hr : db.find owner taskId = some r) :
    (recoveryStep owner staleAfter db pass).find owner taskId =
        some (pass.onRow owner staleAfter db r).1 ∧
      pass.launches owner staleAfter taskId db =
        (pass.onRow owner staleAfter db r).2 := by
  cases pass with
  | reclaimExpired now =>
    obtain ⟨db', n, hexec⟩ := reclaimExpired_isOk owner now db
    have hstep : step db (.reclaimExpired owner now) = db' := by
      simp only [step, Op.transaction, reclaimExpired, hexec]
      rfl
    refine ⟨?_, rfl⟩
    show (step db (.reclaimExpired owner now)).find owner taskId = _
    rw [hstep, find_execute hexec, hr]
    rfl
  | livenessSweep resumable now =>
    exact livenessSweep_find owner staleAfter resumable now hr
  | recover resumable now => exact recover_find owner resumable now hr
  | reapZombieChildren now =>
    refine ⟨?_, rfl⟩
    show (reapZombieChildren owner now db).find owner taskId = _
    rw [reapZombieChildren, reapEach_find, launchedFor_zombies hr, hr]
    show _ = some (if zombieChild owner db r then reapedRow now r else r)
    split <;> rfl

theorem onRow_of_not_takes (h : pass.takes owner staleAfter db r = false) :
    pass.onRow owner staleAfter db r = (r, false) := by
  cases pass with
  | reclaimExpired now =>
    have hguard : (reclaimExpiredSql owner now).guard r = false := h
    show ((reclaimExpiredSql owner now).on r, false) = (r, false)
    rw [Update.on_of_not_guard hguard]
  | livenessSweep resumable now =>
    show sweepRow owner staleAfter resumable now r = (r, false)
    unfold sweepRow
    split
    · rename_i hpick
      have hspent : attemptsExhausted (rowToTask r) = true := by
        simpa [RecoveryPass.takes, hpick] using h
      simp [recoverRow, hspent]
    · rfl
  | recover resumable now =>
    simp only [RecoveryPass.takes, or_eq_false_iff] at h
    obtain ⟨hzombie, hpick⟩ := h
    show bootRow owner resumable now db r = (r, false)
    rw [bootRow, hzombie]
    split
    · contradiction
    · split
      · rename_i hboot
        have hspent : attemptsExhausted (rowToTask r) = true := by
          simpa [hboot] using hpick
        simp [recoverRow, hspent]
      · rfl
  | reapZombieChildren now =>
    have hzombie : zombieChild owner db r = false := h
    simp [RecoveryPass.onRow, hzombie]

/-- A reclaim of a running row with attempts left changes its status or drives
it. -/
private theorem recoverRow_notices {resumable : Resumable} {countAttempt : Bool} {now : Stamp}
    (hleft : attemptsExhausted (rowToTask r) = false) (hrunning : r.status = .running) :
    (recoverRow resumable (rowToTask r) countAttempt now r).1.status ≠ .running ∨
      (recoverRow resumable (rowToTask r) countAttempt now r).2 = true := by
  have horphaned : r.orphaned = true := Row.orphaned_iff.mpr (Or.inl hrunning)
  rw [recoverRow, if_pos ⟨hleft, horphaned⟩]
  dsimp only
  split
  · exact Or.inr rfl
  · apply Or.inl
    cases countAttempt with
    | false => exact nofun
    | true =>
      show statusOrDeadLetter .recovering r ≠ .running
      unfold statusOrDeadLetter
      split <;> decide

theorem onRow_of_takes (hrunning : r.status = .running)
    (h : pass.takes owner staleAfter db r = true) :
    (pass.onRow owner staleAfter db r).1.status ≠ .running ∨
      (pass.onRow owner staleAfter db r).2 = true := by
  cases pass with
  | reclaimExpired now =>
    have hguard : (reclaimExpiredSql owner now).guard r = true := h
    apply Or.inl
    show ((reclaimExpiredSql owner now).on r).status ≠ .running
    rw [Update.on_of_guard hguard]
    show statusOrDeadLetter .pending r ≠ .running
    unfold statusOrDeadLetter
    split <;> decide
  | livenessSweep resumable now =>
    simp only [RecoveryPass.takes, and_eq_true, not_eq_true'] at h
    show (sweepRow owner staleAfter resumable now r).1.status ≠ .running ∨ _
    rw [RecoveryPass.onRow, sweepRow, if_pos h.1]
    exact recoverRow_notices h.2 hrunning
  | recover resumable now =>
    simp only [RecoveryPass.takes, or_eq_true, and_eq_true,
      not_eq_true'] at h
    rw [RecoveryPass.onRow, bootRow]
    split
    · exact Or.inl (nofun)
    · rename_i hzombie
      obtain ⟨hpick, hleft⟩ := h.resolve_left hzombie
      rw [if_pos hpick]
      exact recoverRow_notices hleft hrunning
  | reapZombieChildren now =>
    have hzombie : zombieChild owner db r = true := h
    apply Or.inl
    simp [RecoveryPass.onRow, hzombie, reapedRow]

theorem notices_iff (pass : RecoveryPass) (hr : db.find owner taskId = some r)
    (hrunning : r.status = .running) :
    Notices owner staleAfter taskId db pass ↔
      pass.takes owner staleAfter db r = true := by
  obtain ⟨hrow, hlaunch⟩ := recoveryStep_find staleAfter pass hr
  have hbefore : db.status owner taskId = some .running :=
    status_eq_some_iff.mpr ⟨r, hr, hrunning⟩
  rw [Notices, hlaunch, hbefore, Db.status, hrow, map_some]
  constructor
  · intro hnotice
    by_contra hnot
    rw [onRow_of_not_takes (by simpa using hnot)] at hnotice
    rcases hnotice with h | h
    · exact h (congrArg some hrunning)
    · cases h
  · intro htakes
    refine (onRow_of_takes hrunning htakes).imp (fun hne => ?_) id
    exact fun h => hne (some.inj h)

/-! ## Rows that stay as they are -/

/-- The status of the parent's row: none for a root, and none for a child whose
parent was deleted. -/
def parentStatus (db : Db) (r : Row) : Option TaskStatus :=
  r.parentTaskId.bind (db.status r.ownerId)

def ParentLive (db : Db) (r : Row) : Prop :=
  ∃ s ∈ LIVE_TASK_STATUSES, parentStatus db r = some s

theorem zombieChild_iff :
    zombieChild owner db r = true ↔ (r.ownerId = owner ∧ r.orphaned = true) ∧
      (parentStatus db r = some .completed ∨ parentStatus db r = some .failed) := by
  unfold zombieChild parentStatus
  rw [and_eq_true, and_eq_true, beq_iff_eq]
  apply and_congr Iff.rfl
  cases hparent : r.parentTaskId with
  | none => simp
  | some parent =>
    simp only [any_of_key, bind_some, Db.status]
    cases db.find r.ownerId parent with
    | none => simp
    | some p => simp

theorem recoveryStep_absent (pass : RecoveryPass) (h : db.find owner taskId = none) :
    (recoveryStep owner staleAfter db pass).find owner taskId = none := by
  have hreaped : ∀ now, (reapZombieChildren owner now db).find owner taskId =
      none := by
    intro now
    rw [reapZombieChildren, reapEach_find, h]
    split <;> rfl
  cases pass with
  | reclaimExpired now =>
    rcases step_find db (.reclaimExpired owner now) owner taskId with hs | hs
    · exact hs.trans h
    · rw [h] at hs
      exact hs
  | livenessSweep resumable now => exact reclaimEach_absent _ h
  | recover resumable now => exact reclaimEach_absent _ (hreaped now)
  | reapZombieChildren now => exact hreaped now

/-- No pass touches a row that has ended, nor makes one where there was none. -/
theorem recoveryStep_ended (pass : RecoveryPass)
    (h : ∀ s ∈ LIVE_TASK_STATUSES, db.status owner taskId ≠ some s) :
    (recoveryStep owner staleAfter db pass).status owner taskId =
      db.status owner taskId := by
  cases hfound : db.find owner taskId with
  | none =>
    rw [Db.status, recoveryStep_absent pass hfound, Db.status, hfound]
  | some r =>
    have hnot : pass.takes owner staleAfter db r = false := by
      by_contra htakes
      have horphaned := orphaned_of_takes (by simpa using htakes)
      rcases Row.orphaned_iff.mp horphaned with hs | hs
      · exact h .running (by decide) (status_eq_some_iff.mpr ⟨r, hfound, hs⟩)
      · exact h .recovering (by decide)
          (status_eq_some_iff.mpr ⟨r, hfound, hs⟩)
    rw [Db.status, (recoveryStep_find staleAfter pass hfound).1,
      onRow_of_not_takes hnot, Db.status, hfound]

/-! ## Lost rows -/

/-- A running row some pass can take: it has a lease, or it is a root with
attempts to spend, or its parent is `completed` or `failed`. -/
def Covered (db : Db) (r : Row) : Prop :=
  r.leaseExpiresAt.isSome ∨
    (r.parentTaskId = none ∧ attemptsExhausted (rowToTask r) = false) ∨
    parentStatus db r = some .completed ∨ parentStatus db r = some .failed

/-- From some time on, running the recovery passes once each, in any order,
changes the status of the row or launches a drive for it.  A delegated child is
left to its parent while the parent is live. -/
def NotLost (owner : String) (staleAfter : Int) (taskId : String) (db : Db)
    (r : Row) : Prop :=
  ¬ ParentLive db r →
    ∃ T : Stamp, ∀ expired stale boot reap : Stamp,
      T ≤ expired → T ≤ stale → T ≤ boot → T ≤ reap →
      ∀ (sweeps boots : Resumable) (passes : List RecoveryPass),
        passes.Perm [.reclaimExpired expired, .livenessSweep sweeps stale,
          .recover boots boot, .reapZombieChildren reap] →
        Sometime (recoveryStep owner staleAfter)
          (Notices owner staleAfter taskId) db passes

/-- The row as it was, and the status its parent had. -/
def Unchanged (owner taskId : String) (db : Db) (r : Row) (db' : Db) : Prop :=
  db'.find owner taskId = some r ∧ parentStatus db' r = parentStatus db r

theorem takes_congr {db' : Db} (pass : RecoveryPass) (h : parentStatus db' r = parentStatus db r) :
    pass.takes owner staleAfter db' r = pass.takes owner staleAfter db r := by
  have hzombie : zombieChild owner db' r = zombieChild owner db r := by
    rw [Bool.eq_iff_iff, zombieChild_iff, zombieChild_iff, h]
  cases pass <;> simp [RecoveryPass.takes, hzombie]

theorem unchanged_step {s : Db} (hlive : ¬ ParentLive db r) (h : Unchanged owner taskId db r s)
    (hnot : pass.takes owner staleAfter s r = false) :
    Unchanged owner taskId db r (recoveryStep owner staleAfter s pass) := by
  obtain ⟨hr, hparent⟩ := h
  refine ⟨?_, ?_⟩
  · rw [(recoveryStep_find staleAfter pass hr).1, onRow_of_not_takes hnot]
  · rw [← hparent]
    unfold parentStatus
    cases hp : r.parentTaskId with
    | none => rfl
    | some parent =>
      obtain ⟨howner, -⟩ := key_of_find hr
      rw [howner]
      refine recoveryStep_ended pass (fun status hs hrow => hlive ?_)
      refine ⟨status, hs, ?_⟩
      rw [← hparent, parentStatus, hp, howner]
      exact hrow

theorem takes_of_covered (staleAfter : Int) (hr : db.find owner taskId = some r)
    (hrunning : r.status = .running) (hcovered : Covered db r) :
    ∃ T : Stamp,
      (∀ now, T ≤ now → (RecoveryPass.reclaimExpired now).takes owner staleAfter db r = true) ∨
      (∀ sweeps now, T ≤ now →
        (RecoveryPass.livenessSweep sweeps now).takes owner staleAfter db r =
          true) ∨
      (∀ now, T ≤ now →
        (RecoveryPass.reapZombieChildren now).takes owner staleAfter db r =
          true) := by
  obtain ⟨howner, -⟩ := key_of_find hr
  rcases hcovered with hlease | ⟨hroot, hleft⟩ | hparent
  · obtain ⟨expires, hexpires⟩ := isSome_iff_exists.mp hlease
    refine ⟨expires, .inl (fun now hnow => ?_)⟩
    exact reclaimExpiredSql_guard_iff.mpr
      ⟨⟨howner, hrunning⟩, expires, hexpires, hnow⟩
  · refine ⟨r.updatedAt + staleAfter,
      .inr (.inl (fun sweeps now hnow => ?_))⟩
    have hle : staleAfter ≤ now - r.updatedAt := Int.le_sub_left_of_add_le hnow
    have hstale : isStale staleAfter now (rowToTask r) = true := by
      simp [isStale, rowToTask, hroot, hle]
    simp [RecoveryPass.takes, sweepPicks, hrunning, hstale, howner, hleft]
  · refine ⟨0, .inr (.inr (fun now _ => ?_))⟩
    exact zombieChild_iff.mpr
      ⟨⟨howner, Row.orphaned_iff.mpr (.inl hrunning)⟩, hparent⟩

theorem covered_of_takes (h : pass.takes owner staleAfter db r = true) :
    Covered db r := by
  have hzombie : zombieChild owner db r = true → Covered db r :=
    fun hz => .inr (.inr (zombieChild_iff.mp hz).2)
  cases pass with
  | reclaimExpired now =>
    obtain ⟨-, expires, hexpires, -⟩ := reclaimExpiredSql_guard_iff.mp h
    exact .inl (by simp [hexpires])
  | livenessSweep sweeps now =>
    simp only [RecoveryPass.takes, sweepPicks, isStale, and_eq_true,
      not_eq_true'] at h
    have hroot : r.parentTaskId = none := by
      simpa [rowToTask] using h.1.1.2.1
    exact .inr (.inl ⟨hroot, h.2⟩)
  | recover boots now =>
    simp only [RecoveryPass.takes, or_eq_true, and_eq_true,
      not_eq_true'] at h
    rcases h with hz | ⟨hpick, hleft⟩
    · exact hzombie hz
    · simp only [bootPicks, and_eq_true, isNone_iff_eq_none] at hpick
      exact .inr (.inl ⟨hpick.2, hleft⟩)
  | reapZombieChildren now => exact hzombie h

/-- A row that its parent does not hold and no pass covers is left as it is by
every pass, however late the passes run. -/
theorem within_reach_of_notLost (hr : db.find owner taskId = some r)
    (hrunning : r.status = .running) (hfound : NotLost owner staleAfter taskId db r) :
    ParentLive db r ∨ Covered db r := by
  have hstart : Unchanged owner taskId db r db := ⟨hr, rfl⟩
  by_contra hnot
  obtain ⟨hlive, huncovered⟩ := not_or.mp hnot
  obtain ⟨T, hT⟩ := hfound hlive
  have hsome := hT T T T T le_rfl le_rfl le_rfl le_rfl (fun _ _ => true)
    (fun _ _ => true) _ (List.Perm.refl _)
  have hidle : ∀ s pass, Unchanged owner taskId db r s →
      RecoveryPass.takes owner staleAfter s r pass = false := by
    intro s pass h
    by_contra htakes
    rw [takes_congr pass h.2] at htakes
    exact huncovered (covered_of_takes (by simpa using htakes))
  apply (not_sometime_iff db _).mpr ?_ hsome
  apply meets_of_inv (fun s pass h => unchanged_step hlive h (hidle s pass h)) _
    hstart
  intro s pass h hnotice
  rw [notices_iff pass h.1 hrunning, hidle s pass h] at hnotice
  cases hnotice

/-- In a run whose passes do not notice the row it stays as it was, so none of them
takes it in the first state. -/
theorem takes_false_of_meets (hr : db.find owner taskId = some r) (hrunning : r.status = .running)
    (hlive : ¬ ParentLive db r) {passes : List RecoveryPass}
    (hmeets : Meets (recoveryStep owner staleAfter)
      (fun s pass => ¬ Notices owner staleAfter taskId s pass) db passes) (hmem : pass ∈ passes) :
    RecoveryPass.takes owner staleAfter db r pass = false := by
  have hstart : Unchanged owner taskId db r db := ⟨hr, rfl⟩
  have hstep : ∀ s pass, Unchanged owner taskId db r s →
      ¬ Notices owner staleAfter taskId s pass →
        Unchanged owner taskId db r (recoveryStep owner staleAfter s pass) := by
    intro s pass h hnot
    rw [notices_iff pass h.1 hrunning, not_eq_true] at hnot
    exact unchanged_step hlive h hnot
  obtain ⟨s, h, hnot⟩ := exists_of_mem_meets hstep hstart hmeets hmem
  rw [notices_iff pass h.1 hrunning, not_eq_true, takes_congr pass h.2] at hnot
  exact hnot

/-- A covered row is found by the pass that covers it, in whatever order the
passes run, once they run late enough. -/
theorem notLost_of_within_reach (staleAfter : Int) (hr : db.find owner taskId = some r)
    (hrunning : r.status = .running) (hcase : ParentLive db r ∨ Covered db r) :
    NotLost owner staleAfter taskId db r := by
  intro hlive
  obtain ⟨T, hT⟩ := takes_of_covered staleAfter hr hrunning
    (hcase.resolve_left hlive)
  refine ⟨T, fun expired stale boot reap h1 h2 h3 h4 sweeps boots passes
    hperm => ?_⟩
  by_contra hnone
  have hmissed : ∀ pass, pass ∈ passes →
      RecoveryPass.takes owner staleAfter db r pass = false :=
    fun _ => takes_false_of_meets hr hrunning hlive
      ((not_sometime_iff db passes).mp hnone)
  rcases hT with hT | hT | hT
  · have := hmissed (.reclaimExpired expired) (hperm.mem_iff.mpr (by simp))
    rw [hT expired h1] at this
    cases this
  · have := hmissed (.livenessSweep sweeps stale) (hperm.mem_iff.mpr (by simp))
    rw [hT sweeps stale h2] at this
    cases this
  · have := hmissed (.reapZombieChildren reap) (hperm.mem_iff.mpr (by simp))
    rw [hT reap h4] at this
    cases this

theorem notLost_iff (staleAfter : Int) (hr : db.find owner taskId = some r)
    (hrunning : r.status = .running) :
    NotLost owner staleAfter taskId db r ↔ ParentLive db r ∨ Covered db r :=
  ⟨within_reach_of_notLost hr hrunning, notLost_of_within_reach staleAfter hr hrunning⟩

/-- The row of the task is not lost while it is running. -/
def NoneLost (owner taskId : String) (staleAfter : Int) (db : Db) : Prop :=
  ∀ r, db.find owner taskId = some r → r.status = .running →
    NotLost owner staleAfter taskId db r

/-- The row of the task is within reach of a pass, or of its live parent, while it
is running. -/
def WithinReach (owner taskId : String) (db : Db) : Prop :=
  ∀ r, db.find owner taskId = some r → r.status = .running →
    ParentLive db r ∨ Covered db r

/-- **No running row is lost** in the states a run reaches, exactly in the runs
that keep every running row within reach. -/
theorem no_running_row_lost_iff (owner taskId : String) (staleAfter : Int)
    (db : Db) (ops : List Op) :
    Along step (NoneLost owner taskId staleAfter) db ops ↔
      Along step (WithinReach owner taskId) db ops := by
  constructor
  · intro h
    exact h.mono (fun s hs r hr hrunning =>
      (notLost_iff staleAfter hr hrunning).mp (hs r hr hrunning))
  · intro h
    exact h.mono (fun s hs r hr hrunning =>
      (notLost_iff staleAfter hr hrunning).mpr (hs r hr hrunning))

def parentTask : DurableTask where
  taskId := "parent"
  goal := "ship the release"
  status := .pending
  createdAt := 0
  updatedAt := 0

def childSpec : ChildSpec where
  childTaskId := "child"
  parentTaskId := "parent"
  parentOwl := "planner"
  delegateKey := "step-1"
  goal := "write the changelog"
  owlName := "writer"
  channel := "cli"

/-- A claimed parent delegates to a child, and fails for good while the child is
still running. -/
def severedRun : List Op :=
  [.enqueue DEFAULT_PRINCIPAL_ID parentTask,
   .claim DEFAULT_PRINCIPAL_ID "parent" "worker-a" DEFAULT_LEASE_SECONDS 1,
   .createChildTask DEFAULT_PRINCIPAL_ID childSpec 2,
   .updateStatus DEFAULT_PRINCIPAL_ID "parent" .failed
     { result := some "403 forbidden", now := 3 }]

/-- The running child of a dead-lettered parent is lost. -/
theorem running_row_lost :
    ¬ Along step (NoneLost DEFAULT_PRINCIPAL_ID "child" DEFAULT_STALE_AFTER)
      Db.fresh severedRun := by
  intro h
  have hfound := h.last _ rfl rfl
  rw [notLost_iff DEFAULT_STALE_AFTER rfl rfl] at hfound
  rcases hfound with ⟨s, hs, hparent⟩ | hlease | ⟨hroot, -⟩ | hparent | hparent
  · have hdead : s = .deadLetter := (some.inj hparent).symm
    subst hdead
    exact absurd hs (by decide)
  · cases hlease
  · cases hroot
  · cases hparent
  · cases hparent

end StackOwl.Durable
