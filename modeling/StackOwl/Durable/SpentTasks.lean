import StackOwl.Durable.Ceiling
import StackOwl.Durable.Runs

/-!
# Spent tasks and recovery

A liveness sweep charges an attempt when it claims a stale row, and boot recovery
charges nothing.  `attempts_exhausted` stops a row whose attempts are spent before
the claim; the charged claim itself stops a row with its last attempt, writing
`dead_letter`, but it answers by its row count only, and what follows the claim
writes `running` and launches a drive.

## Main results

* `passRow_attempts` — what one pass charges and launches.
* `spent_is_final_iff` — the passes that leave a spent row alone: those that find
  no stale row at its last attempt with a checkpoint to resume.
-/

namespace StackOwl.Durable

open Lib

/-! ## Passes over one row -/

/-- A recovery pass: the handler's owner, the clock it reads, and whether each
task can be reconstructed. -/
inductive Pass where
  | sweep (owner : String) (staleAfter : Int) (resumable : Resumable)
      (now : Stamp)
  | boot (owner : String) (resumable : Resumable) (now : Stamp)

def passStep (db : Db) : Pass → Db
  | .sweep owner staleAfter resumable now =>
    (livenessSweep owner staleAfter resumable now db).1
  | .boot owner resumable now => (recover owner resumable now db).1

/-- The pass launches a drive for the row of the key. -/
def Pass.launches (o i : String) (db : Db) : Pass → Bool
  | .sweep owner staleAfter resumable now =>
    launchedFor DurableTask.ownerId o i
      (livenessSweep owner staleAfter resumable now db).2
  | .boot owner resumable now =>
    launchedFor (fun _ => owner) o i (recover owner resumable now db).2

/-- What a pass makes of one row, and whether it launches a drive for it. -/
def Pass.onRow (db : Db) (r : Row) : Pass → Row × Bool
  | .sweep owner staleAfter resumable now =>
    sweepRow owner staleAfter resumable now r
  | .boot owner resumable now => bootRow owner resumable now db r

variable {o i : String} {db : Db} {r : Row} (pass : Pass)

theorem passStep_find (hr : db.find o i = some r) :
    (passStep db pass).find o i = some (pass.onRow db r).1 ∧
      pass.launches o i db = (pass.onRow db r).2 := by
  cases pass with
  | sweep owner staleAfter resumable now =>
    exact livenessSweep_find owner staleAfter resumable now hr
  | boot owner resumable now => exact recover_find owner resumable now hr

/-! ## Attempts -/

def attemptsSpent (r : Row) : Int := r.attemptCount.getD 0

/-- The stored ceiling, `NULL` read as the default. -/
def attemptCeiling (r : Row) : Int := r.maxAttempts.getD DEFAULT_MAX_ATTEMPTS

theorem attemptsExhausted_iff (hceiling : 1 ≤ attemptCeiling r) :
    attemptsExhausted (rowToTask r) = true ↔
      attemptCeiling r ≤ attemptsSpent r := by
  have hmax : (rowToTask r).maxAttempts = attemptCeiling r := by
    show intOr DEFAULT_MAX_ATTEMPTS r.maxAttempts = attemptCeiling r
    rw [intOr_maxAttempts, if_neg]
    · rfl
    · intro hzero
      simp [attemptCeiling, hzero] at hceiling
  have hcount : (rowToTask r).attemptCount = attemptsSpent r := by
    have h := attemptCount_rowToTask r
    unfold chargedCount at h
    unfold attemptsSpent
    omega
  have hne : attemptCeiling r ≠ 0 := by omega
  simp [attemptsExhausted, hmax, hcount, hne]

theorem ceilingReachedSql_iff_spent (r : Row) :
    ceilingReachedSql r = true ↔ attemptCeiling r ≤ attemptsSpent r + 1 :=
  ceilingReachedSql_iff r

variable (countAttempt : Bool)

def charge : Int := if countAttempt then 1 else 0

theorem claimedRow_attempts (now : Stamp) (r : Row) :
    attemptCeiling (claimedRow countAttempt now r) = attemptCeiling r ∧
    attemptsSpent (claimedRow countAttempt now r) =
      attemptsSpent r + charge countAttempt ∧
    (claimedRow countAttempt now r).checkpointBlob = r.checkpointBlob := by
  cases countAttempt with
  | false =>
    refine ⟨rfl, ?_, rfl⟩
    show attemptsSpent r = attemptsSpent r + 0
    omega
  | true => exact ⟨rfl, rfl, rfl⟩

/-- What a recovery step may do to the attempts of a row: nothing, without a
drive, or a charge to a row that still has attempts to spend. -/
def ChargesWithin (r : Row) (out : Row × Bool) : Prop :=
  attemptCeiling out.1 = attemptCeiling r ∧
    (attemptsSpent out.1 = attemptsSpent r ∧ out.2 = false ∨
      attemptsSpent out.1 = attemptsSpent r + charge countAttempt ∧
        attemptsSpent r < attemptCeiling r)

theorem recoverRow_attempts (resumable : Resumable) (countAttempt : Bool) (now : Stamp)
    (hceiling : 1 ≤ attemptCeiling r) :
    ChargesWithin countAttempt r
      (recoverRow resumable (rowToTask r) countAttempt now r) := by
  obtain ⟨hsame, hcharged, -⟩ := claimedRow_attempts countAttempt now r
  unfold recoverRow
  by_cases htaken : attemptsExhausted (rowToTask r) = false ∧ r.orphaned = true
  · have hleft : attemptsSpent r < attemptCeiling r := by
      have hspent := attemptsExhausted_iff hceiling
      rw [htaken.1] at hspent
      by_contra hge
      exact absurd (hspent.mpr (by omega)) (by decide)
    rw [if_pos htaken]
    dsimp only
    split
    · exact ⟨hsame, Or.inr ⟨hcharged, hleft⟩⟩
    · exact ⟨hsame, Or.inr ⟨hcharged, hleft⟩⟩
  · rw [if_neg htaken]
    exact ⟨rfl, Or.inl ⟨rfl, rfl⟩⟩

/-- Only the live sweep charges an attempt. -/
def Pass.charges : Pass → Bool
  | .sweep .. => true
  | .boot .. => false

theorem passRow_attempts (db : Db) (pass : Pass) (hceiling : 1 ≤ attemptCeiling r) :
    ChargesWithin pass.charges r (pass.onRow db r) := by
  have hidle : ∀ b, ChargesWithin b r (r, false) :=
    fun b => ⟨rfl, Or.inl ⟨rfl, rfl⟩⟩
  cases pass with
  | sweep owner staleAfter resumable now =>
    show ChargesWithin true r (sweepRow owner staleAfter resumable now r)
    unfold sweepRow
    split
    · exact recoverRow_attempts resumable true now hceiling
    · exact hidle true
  | boot owner resumable now =>
    show ChargesWithin false r (bootRow owner resumable now db r)
    unfold bootRow
    split
    · exact ⟨rfl, Or.inl ⟨rfl, rfl⟩⟩
    · split
      · exact recoverRow_attempts resumable false now hceiling
      · exact hidle false

theorem passRow_dead (hdead : r.status = .deadLetter) :
    pass.onRow db r = (r, false) := by
  cases pass with
  | sweep owner staleAfter resumable now =>
    have hpick : sweepPicks owner staleAfter now r = false := by
      simp [sweepPicks, hdead]
    simp [Pass.onRow, sweepRow, hpick]
  | boot owner resumable now =>
    have hzombie : zombieChild owner db r = false := by
      simp [zombieChild, hdead]
    have hpick : bootPicks owner r = false := by
      simp [bootPicks, Row.orphaned, hdead]
    simp [Pass.onRow, bootRow, hzombie, hpick]

/-! ## A spent task is final -/

/-- When the charged claim of a sweep moves the row to `dead_letter`, no drive is
launched for it and the pass leaves it there. -/
def DeadClaimIsFinal (o i : String) (db : Db) (pass : Pass) : Prop :=
  match pass with
  | .boot .. => True
  | .sweep owner staleAfter _ now => ∀ r, db.find o i = some r →
      sweepPicks owner staleAfter now r = true →
      attemptsExhausted (rowToTask r) = false →
      (claimedRow true now r).status = .deadLetter →
        pass.launches o i db = false ∧
          (passStep db pass).status o i = some .deadLetter

/-- The key's row is dead. -/
def Dead (o i : String) (db : Db) : Prop :=
  db.status o i = some .deadLetter

def chargedDrive (o i : String) (db : Db) (pass : Pass) : Nat :=
  if pass.charges && pass.launches o i db then 1 else 0

/-- The charged drives a sequence of passes launches for the row of the key. -/
def chargedDrives (o i : String) (db : Db) (passes : List Pass) : Nat :=
  tally passStep (chargedDrive o i) db passes

/-- A spent task is never driven again: `r` is the row before the first pass. -/
structure SpentIsFinal (o i : String) (r : Row) (db : Db) (passes : List Pass) :
    Prop where
  claim : Meets passStep (DeadClaimIsFinal o i) db passes
  stays : ∀ before after, passes = before ++ after →
    Dead o i (run passStep db before) →
      Along passStep (Dead o i) (run passStep db before) after
  drives : chargedDrives o i db passes ≤
    (attemptCeiling r - attemptsSpent r).toNat
  count : Along passStep (fun db => ∀ r', db.find o i = some r' →
    attemptsSpent r' ≤ max (attemptCeiling r) (attemptsSpent r)) db passes

/-- No sweep finds the row stale at its last attempt with a checkpoint to
resume. -/
def SparesLastAttempt (o i : String) (db : Db) (pass : Pass) : Prop :=
  match pass with
  | .boot .. => True
  | .sweep owner staleAfter resumable now => ∀ r, db.find o i = some r →
      sweepPicks owner staleAfter now r = true →
      attemptsSpent r + 1 = attemptCeiling r →
        resumable (rowToTask r) r.checkpointBlob = false

/-- The row of the key exists, with the ceiling it started with. -/
def HasCeiling (o i : String) (ceiling : Int) (db : Db) : Prop :=
  ∃ r, db.find o i = some r ∧ attemptCeiling r = ceiling

variable {ceiling : Int}

theorem hasCeiling_step (hpos : 1 ≤ ceiling) (pass : Pass) (h : HasCeiling o i ceiling db) :
    HasCeiling o i ceiling (passStep db pass) := by
  obtain ⟨r, hr, rfl⟩ := h
  have hout := passRow_attempts db pass hpos
  exact ⟨_, (passStep_find pass hr).1, hout.1⟩

def attemptsLeft (o i : String) (db : Db) : Nat :=
  match db.find o i with
  | none => 0
  | some r => (attemptCeiling r - attemptsSpent r).toNat

theorem attemptsLeft_step (hpos : 1 ≤ ceiling) (pass : Pass) (h : HasCeiling o i ceiling db) :
    chargedDrive o i db pass + attemptsLeft o i (passStep db pass) ≤
      attemptsLeft o i db := by
  obtain ⟨r, hr, rfl⟩ := h
  obtain ⟨hrow, hlaunch⟩ := passStep_find pass hr
  obtain ⟨hsame, hcharge⟩ := passRow_attempts db pass hpos
  unfold chargedDrive attemptsLeft
  rw [hr, hrow, hlaunch]
  dsimp only
  rw [hsame]
  rcases hcharge with ⟨hspent, hidle⟩ | ⟨hspent, hleft⟩
  · rw [hspent, hidle, Bool.and_false]
    simp
  · cases hcharges : pass.charges with
    | false =>
      rw [hspent, hcharges]
      simp [charge]
    | true =>
      rw [hspent, hcharges, charge, if_pos rfl]
      split <;> omega

theorem dead_step (h : Dead o i db) :
    Dead o i (passStep db pass) := by
  obtain ⟨r, hr, hdead⟩ := status_eq_some_iff.mp h
  refine status_eq_some_iff.mpr ⟨r, ?_, hdead⟩
  rw [(passStep_find pass hr).1, passRow_dead pass hdead]

/-- A charged claim kills exactly a row at its last attempt. -/
private theorem deadClaim_iff (now : Stamp) (hceiling : 1 ≤ attemptCeiling r) :
    (attemptsExhausted (rowToTask r) = false ∧ (claimedRow true now r).status = .deadLetter) ↔
        attemptsSpent r + 1 = attemptCeiling r := by
  have hstatus : (claimedRow true now r).status =
      statusOrDeadLetter .recovering r := rfl
  have hexhausted := attemptsExhausted_iff hceiling
  have hreached := ceilingReachedSql_iff_spent r
  rw [hstatus, statusOrDeadLetter, ← Bool.not_eq_true, hexhausted]
  by_cases hcase : ceilingReachedSql r = true
  · rw [if_pos hcase]
    have hle := hreached.mp hcase
    constructor
    · rintro ⟨hleft, -⟩
      omega
    · intro hlast
      exact ⟨by omega, rfl⟩
  · rw [if_neg hcase]
    have hlt : ¬ attemptCeiling r ≤ attemptsSpent r + 1 :=
      fun h => hcase (hreached.mpr h)
    constructor
    · rintro ⟨-, hdead⟩
      cases hdead
    · intro hlast
      omega

theorem deadClaimIsFinal_iff (hpos : 1 ≤ ceiling) (pass : Pass) (h : HasCeiling o i ceiling db) :
    DeadClaimIsFinal o i db pass ↔ SparesLastAttempt o i db pass := by
  obtain ⟨r, hr, rfl⟩ := h
  cases pass with
  | boot => exact Iff.rfl
  | sweep owner staleAfter resumable now =>
    obtain ⟨hrow, hlaunch⟩ :=
      passStep_find (.sweep owner staleAfter resumable now) hr
    have hout : ∀ (_ : sweepPicks owner staleAfter now r = true)
        (_ : attemptsSpent r + 1 = attemptCeiling r),
        (Pass.sweep owner staleAfter resumable now).onRow db r =
          if resumable (rowToTask r) r.checkpointBlob then
            ({ claimedRow true now r with
                status := .running, updatedAt := now }, true)
          else (claimedRow true now r, false) := by
      intro hpick hlast
      have htaken := ((deadClaim_iff now hpos).mpr hlast).1
      have horphaned : r.orphaned = true := by
        simp only [sweepPicks, Bool.and_eq_true, beq_iff_eq] at hpick
        simp [Row.orphaned, hpick.1.1]
      show sweepRow owner staleAfter resumable now r = _
      rw [sweepRow, if_pos hpick, recoverRow, if_pos ⟨htaken, horphaned⟩]
      rfl
    constructor
    · intro hfinal s hs hpick hlast
      obtain rfl : r = s := Option.some.inj (hr.symm.trans hs)
      obtain ⟨hleft, hdead⟩ := (deadClaim_iff now hpos).mpr hlast
      have hnone := (hfinal r hr hpick hleft hdead).1
      rw [hlaunch, hout hpick hlast] at hnone
      by_contra hresume
      rw [if_pos (by simpa using hresume)] at hnone
      cases hnone
    · intro hspares s hs hpick hleft hdead
      obtain rfl : r = s := Option.some.inj (hr.symm.trans hs)
      have hlast := (deadClaim_iff now hpos).mp ⟨hleft, hdead⟩
      have hresume := hspares r hr hpick hlast
      have hleave := hout hpick hlast
      rw [if_neg (by simp [hresume])] at hleave
      refine ⟨by rw [hlaunch, hleave], ?_⟩
      exact status_eq_some_iff.mpr ⟨_, hrow.trans (by rw [hleave]), hdead⟩

/-- **A spent task is never driven again** by exactly the passes that find no
stale row at its last attempt with a checkpoint to resume. -/
theorem spent_is_final_iff (o i : String) (r : Row) (db : Db)
    (passes : List Pass) (hr : db.find o i = some r)
    (hceiling : 1 ≤ attemptCeiling r) :
    SpentIsFinal o i r db passes ↔
      Meets passStep (SparesLastAttempt o i) db passes := by
  have hstart : HasCeiling o i (attemptCeiling r) db := ⟨r, hr, rfl⟩
  have hclaim := meets_congr_of_inv
    (fun db pass h => hasCeiling_step hceiling pass h)
    (fun db pass h => deadClaimIsFinal_iff hceiling pass h) hstart passes
  rw [← hclaim]
  refine ⟨fun h => h.claim, fun h => ⟨h, ?_, ?_, ?_⟩⟩
  · intro before after _ hdead
    exact along_of_inv (fun db pass hd => dead_step pass hd) hdead after
  · have hpaid : chargedDrives o i db passes +
        attemptsLeft o i (run passStep db passes) ≤ attemptsLeft o i db :=
      tally_add_le_of_step (fun db pass h => hasCeiling_step hceiling pass h)
        (fun db pass h => attemptsLeft_step hceiling pass h) hstart passes
    have hleft : attemptsLeft o i db =
        (attemptCeiling r - attemptsSpent r).toNat := by
      simp [attemptsLeft, hr]
    omega
  · have hcount : Along passStep (fun db => ∃ r', db.find o i = some r' ∧
        attemptCeiling r' = attemptCeiling r ∧
          attemptsSpent r' ≤ max (attemptCeiling r) (attemptsSpent r))
        db passes := by
      refine along_of_inv (fun db pass => ?_) ⟨r, hr, rfl, by omega⟩ passes
      rintro ⟨s, hs, hsame, hbound⟩
      obtain ⟨hsame', hcharge⟩ :=
        passRow_attempts db pass (hsame ▸ hceiling)
      refine ⟨_, (passStep_find pass hs).1, hsame'.trans hsame, ?_⟩
      rcases hcharge with ⟨hspent, -⟩ | ⟨hspent, hleft⟩
      · omega
      · have hone : charge pass.charges ≤ 1 := by
          unfold charge
          split <;> omega
        omega
    apply hcount.mono
    rintro db ⟨s, hs, -, hbound⟩ s' hs'
    obtain rfl : s = s' := Option.some.inj (hs.symm.trans hs')
    exact hbound

def twoAttemptTask : DurableTask where
  taskId := "task-1"
  goal := "summarise the file"
  status := .pending
  maxAttempts := 2
  createdAt := 0
  updatedAt := 0

/-- The task is claimed by a worker that goes silent. -/
def silentRun : List Op :=
  [.enqueue DEFAULT_PRINCIPAL_ID twoAttemptTask,
   .claim DEFAULT_PRINCIPAL_ID "task-1" "worker-a" DEFAULT_LEASE_SECONDS 0]

/-- A liveness sweep at second `at`, with every task resumable. -/
def sweepAt (second : Int) : Pass :=
  .sweep DEFAULT_PRINCIPAL_ID DEFAULT_STALE_AFTER (fun _ _ => true)
    (seconds second)

/-- The second sweep claims the row dead and drives it again. -/
theorem spent_not_final :
    ∃ r, (run step Db.fresh silentRun).find DEFAULT_PRINCIPAL_ID "task-1" = some r ∧
      1 ≤ attemptCeiling r ∧
      ¬ SpentIsFinal DEFAULT_PRINCIPAL_ID "task-1" r (run step Db.fresh silentRun)
        [sweepAt 1000, sweepAt 2000] := by
  refine ⟨_, rfl, by decide, fun h => ?_⟩
  have hsecond := h.claim.2.1
  have hlaunch := (hsecond _ rfl (by decide) (by decide) (by decide)).1
  exact absurd hlaunch (by decide)

/-- One sweep, then a boot. -/
theorem spent_is_final_here :
    ∃ r, SpentIsFinal DEFAULT_PRINCIPAL_ID "task-1" r
      (run step Db.fresh silentRun)
      [sweepAt 1000, .boot DEFAULT_PRINCIPAL_ID (fun _ _ => true) 2000] := by
  refine ⟨_, (spent_is_final_iff _ _ _ _ _ rfl (by decide)).mpr ?_⟩
  refine ⟨fun r hr _ hlast => ?_, trivial, trivial⟩
  cases hr
  exact absurd hlast (by decide)

end StackOwl.Durable
