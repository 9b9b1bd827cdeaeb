import Mathlib.Data.List.Nodup
import StackOwl.Objectives.Driver

/-!
# The stories of an epic

A story is merged, tested on the integration branch, and only then `done`.  A merge is not
taken back: tests that fail afterwards leave it there, and a process that dies before the
row is `done` leaves it there too, under a clean worktree, from which the story starts
again.  Recovery counts as an attempt but does not look at the budget.

## Main results

* `rowOk_of_local` — a change at one story leaves what holds of the others.
* `verified_of_clean` — in a run in which no merge is orphaned and no orphan is restarted on
  its last attempt, a story is merged at most once, only when it is done, and started within
  its budget.
-/

namespace StackOwl.Objectives

open Lib List

/-! ## What an epic promises -/

/-- A story is merged at most once; one that is not done, and whose code does not run, is not
merged; and none is started more often than its budget. -/
structure Verified (w : World) : Prop where
  once : ∀ sg ∈ w.subgoals, w.merged.count sg.id ≤ 1
  unmerged : ∀ sg ∈ w.subgoals, sg.status ≠ .done → w.stories sg.id = none →
    w.merged.count sg.id = 0
  budget : ∀ sg ∈ w.subgoals, w.started.count sg.id ≤ MAX_SUBGOAL_ATTEMPTS

variable (w : World)

/-- A step that starts a story finds it without a task, and its dependencies done. -/
def StartsReady (e : Event) : Prop :=
  ∀ id, (step w e).started = w.started ++ [id] →
    w.stories id = none ∧ ∀ sg ∈ w.subgoals, sg.id = id →
      ∀ dep ∈ sg.dependsOn, ∃ other ∈ w.subgoals, other.id = dep ∧ other.status = .done

/-- The story's merge is on the branch, and its row is not yet `done`. -/
def StoryPoint.merged : StoryPoint → Bool
  | .integrating | .cleaning | .finishing => true
  | _ => false

/-- The tick restarts no orphan on its last attempt. -/
def Tick.withinBudget : Tick → Bool
  | .recovering sg true _ => sg.attempts + 1 < MAX_SUBGOAL_ATTEMPTS
  | _ => true

/-- No merge is orphaned: the integration tests pass, and no crash or exception comes between
a story's merge and its `done` row.  No orphan is restarted on its last attempt, and nobody
else ends the objective. -/
def KeepsMerges : Event → Prop
  | .story id reply => ∀ s ∈ w.stories id, s.point = .integrating → reply = .ok
  | .storyRaised id => ∀ s ∈ w.stories id, s.point.merged = false
  | .crash => ∀ sg ∈ w.subgoals, ∀ s ∈ w.stories sg.id, s.point.merged = false
  | .turn _ => w.tick.withinBudget = true
  | .abandon | .abandonStops => False
  | .fire _ | .raised => True

instance (w : World) (e : Event) : Decidable (KeepsMerges w e) :=
  match e with
  | .story id _ => inferInstanceAs (Decidable (∀ s ∈ w.stories id, _ → _))
  | .storyRaised id => inferInstanceAs (Decidable (∀ s ∈ w.stories id, _))
  | .crash => inferInstanceAs (Decidable (∀ sg ∈ w.subgoals, ∀ s ∈ w.stories sg.id, _))
  | .turn _ => inferInstanceAs (Decidable (_ = _))
  | .abandon | .abandonStops => isFalse id
  | .fire _ | .raised => isTrue trivial

/-! ## What holds of a story -/

/-- The row of a story, against its task, its merges and its starts. -/
def RowOk (sg : Subgoal) : Prop :=
  match sg.status with
  | .pending =>
    w.stories sg.id = none ∧ w.merged.count sg.id = 0 ∧
      w.started.count sg.id ≤ sg.attempts ∧ sg.attempts < MAX_SUBGOAL_ATTEMPTS
  | .running =>
    (w.started.count sg.id ≤ sg.attempts + 1 ∧ sg.attempts < MAX_SUBGOAL_ATTEMPTS) ∧
      match w.stories sg.id with
      | none => w.merged.count sg.id = 0
      | some s =>
        s.subgoal.attempts = sg.attempts ∧
          w.merged.count sg.id = if s.point.merged then 1 else 0
  | .failed | .blocked =>
    w.stories sg.id = none ∧ w.merged.count sg.id = 0 ∧
      w.started.count sg.id ≤ MAX_SUBGOAL_ATTEMPTS
  | .done =>
    w.stories sg.id = none ∧ w.merged.count sg.id = 1 ∧
      w.started.count sg.id ≤ MAX_SUBGOAL_ATTEMPTS

def Orphans (todo : List Subgoal) : Prop :=
  (todo.map Subgoal.id).Nodup ∧
    ∀ sg ∈ todo, sg ∈ w.subgoals ∧ sg.status = .running ∧ w.stories sg.id = none

def Ready (todo : List Subgoal) : Prop :=
  (todo.map Subgoal.id).Nodup ∧
    ∀ sg ∈ todo, sg ∈ w.subgoals ∧ sg.status = .pending ∧
      ∀ dep ∈ sg.dependsOn, ∃ other ∈ w.subgoals, other.id = dep ∧ other.status = .done

def TickOk : Prop :=
  match w.tick with
  | .orphan sg rest | .recovering sg _ rest => Orphans w (sg :: rest)
  | .launching rest => Ready w rest
  | .idle | .listing | .listed | .relisting | .settlingEpic | .blocking => True
  | _ => False

structure Epic (w : World) : Prop where
  epic : w.epic = true
  kind : w.blockerKind ≠ some .transient
  nodup : (w.subgoals.map Subgoal.id).Nodup
  rows : ∀ sg ∈ w.subgoals, RowOk w sg
  tick : TickOk w

variable {w' : World}

/-- What the tick relies on stays true where orphans and ready stories stay so. -/
theorem TickOk.mono {w : World} (h : TickOk w) (hTick : w'.tick = w.tick)
    (hOrphans : ∀ todo, Orphans w todo → Orphans w' todo)
    (hReady : ∀ todo, Ready w todo → Ready w' todo) : TickOk w' := by
  unfold TickOk at h ⊢
  rw [hTick]
  cases hAt : w.tick with
  | orphan sg rest | recovering sg restart rest =>
    simp only [hAt] at h
    exact hOrphans _ h
  | launching rest =>
    simp only [hAt] at h
    exact hReady _ h
  | idle | listing | listed | relisting | settlingEpic | blocking => trivial
  | _ => simp [hAt] at h

variable {w} {sg : Subgoal}

theorem RowOk.verified (h : RowOk w sg) :
    w.merged.count sg.id ≤ 1 ∧
      (sg.status ≠ .done → w.stories sg.id = none → w.merged.count sg.id = 0) ∧
      w.started.count sg.id ≤ MAX_SUBGOAL_ATTEMPTS := by
  unfold RowOk at h
  cases hStatus : sg.status <;> simp only [hStatus] at h
  case pending => exact ⟨by omega, fun _ _ => h.2.1, by omega⟩
  case running =>
    obtain ⟨⟨hStarted, hAttempts⟩, hStory⟩ := h
    cases hTask : w.stories sg.id with
    | none =>
      simp only [hTask] at hStory
      exact ⟨by omega, fun _ _ => hStory, by omega⟩
    | some s =>
      simp only [hTask] at hStory
      refine ⟨?_, fun _ hNone => by simp at hNone, by omega⟩
      rw [hStory.2]
      split <;> omega
  case failed | blocked => exact ⟨by omega, fun _ _ => h.2.1, h.2.2⟩
  case done => exact ⟨by omega, fun hNot => absurd rfl hNot, h.2.2⟩

theorem Epic.verified (h : Epic w) : Verified w where
  once := fun sg hSg => (h.rows sg hSg).verified.1
  unmerged := fun sg hSg => (h.rows sg hSg).verified.2.1
  budget := fun sg hSg => (h.rows sg hSg).verified.2.2

/-! ## A change at one story -/

/-- `w'` differs from `w` at one story only, as far as rows, tasks, merges and starts go. -/
structure LocalAt (id : String) (w w' : World) : Prop where
  ids : w'.subgoals.map Subgoal.id = w.subgoals.map Subgoal.id
  rows : ∀ sg, sg.id ≠ id → (sg ∈ w'.subgoals ↔ sg ∈ w.subgoals)
  stories : ∀ other, other ≠ id → w'.stories other = w.stories other
  merged : ∀ other, other ≠ id → w'.merged.count other = w.merged.count other
  started : ∀ other, other ≠ id → w'.started.count other = w.started.count other

variable {id : String}

theorem LocalAt.trans {w'' : World} (h : LocalAt id w w') (h' : LocalAt id w' w'') :
    LocalAt id w w'' where
  ids := h'.ids.trans h.ids
  rows := fun sg hId => (h'.rows sg hId).trans (h.rows sg hId)
  stories := fun other hId => (h'.stories other hId).trans (h.stories other hId)
  merged := fun other hId => (h'.merged other hId).trans (h.merged other hId)
  started := fun other hId => (h'.started other hId).trans (h.started other hId)

theorem localAt_setSubgoal (w : World) (id : String) (st : SubgoalStatus)
    (attempts : Option Nat) : LocalAt id w (w.setSubgoal id st attempts) where
  ids := by
    simp only [World.setSubgoal, updateSubgoal, map_map]
    refine map_congr_left fun sg _ => ?_
    by_cases hId : sg.id = id <;> simp [hId]
  rows := by
    intro sg hId
    simp only [World.setSubgoal, mem_updateSubgoal]
    constructor
    · rintro (⟨before, -, hBefore, rfl⟩ | ⟨-, hSg⟩)
      · exact absurd hBefore hId
      · exact hSg
    · exact fun hSg => .inr ⟨hId, hSg⟩
  stories := fun _ _ => rfl
  merged := fun _ _ => rfl
  started := fun _ _ => rfl

theorem localAt_setStory (w : World) (id : String) (s : Option Story) :
    LocalAt id w (w.setStory id s) where
  ids := rfl
  rows := fun _ _ => Iff.rfl
  stories := fun other hId => by simp [World.setStory, hId]
  merged := fun _ _ => rfl
  started := fun _ _ => rfl

theorem localAt_endStory (w : World) (id : String) : LocalAt id w (w.endStory id) where
  ids := rfl
  rows := fun _ _ => Iff.rfl
  stories := fun other hId => by simp [World.endStory, World.setStory, hId]
  merged := fun _ _ => rfl
  started := fun _ _ => rfl

/-- A story's row says the same wherever its task, its merges and its starts are the same. -/
theorem RowOk.congr (h : RowOk w sg) (hStory : w'.stories sg.id = w.stories sg.id)
    (hMerged : w'.merged.count sg.id = w.merged.count sg.id)
    (hStarted : w'.started.count sg.id = w.started.count sg.id) : RowOk w' sg := by
  unfold RowOk at h ⊢
  rw [hStory, hMerged, hStarted]
  exact h

theorem rowOk_of_local (h : ∀ sg ∈ w.subgoals, RowOk w sg) (hLocal : LocalAt id w w')
    (hSelf : ∀ sg ∈ w'.subgoals, sg.id = id → RowOk w' sg) :
    ∀ sg ∈ w'.subgoals, RowOk w' sg := by
  intro sg hSg
  by_cases hId : sg.id = id
  · exact hSelf sg hSg hId
  · exact (h sg ((hLocal.rows sg hId).mp hSg)).congr (hLocal.stories _ hId)
      (hLocal.merged _ hId) (hLocal.started _ hId)

variable {todo : List Subgoal}

theorem Orphans.of_local (h : Orphans w todo) (hLocal : LocalAt id w w')
    (hOther : ∀ sg ∈ todo, sg.id ≠ id) : Orphans w' todo := by
  refine ⟨h.1, fun sg hSg => ?_⟩
  obtain ⟨hRow, hRunning, hTask⟩ := h.2 sg hSg
  have hId := hOther sg hSg
  exact ⟨(hLocal.rows sg hId).mpr hRow, hRunning, (hLocal.stories _ hId).trans hTask⟩

theorem Ready.of_local (h : Ready w todo) (hLocal : LocalAt id w w')
    (hOther : ∀ sg ∈ todo, sg.id ≠ id)
    (hNotDone : ∀ sg ∈ w.subgoals, sg.id = id → sg.status ≠ .done) : Ready w' todo := by
  refine ⟨h.1, fun sg hSg => ?_⟩
  obtain ⟨hRow, hPending, hDeps⟩ := h.2 sg hSg
  refine ⟨(hLocal.rows sg (hOther sg hSg)).mpr hRow, hPending, fun dep hDep => ?_⟩
  obtain ⟨other, hOtherRow, hId, hDone⟩ := hDeps dep hDep
  have hDifferent : other.id ≠ id := fun hSame => hNotDone other hOtherRow hSame hDone
  exact ⟨other, (hLocal.rows other hDifferent).mpr hOtherRow, hId, hDone⟩

/-! ## The tick -/

theorem Epic.no_task (h : Epic w) (hSg : sg ∈ w.subgoals) (hStatus : sg.status ≠ .running) :
    w.stories sg.id = none := by
  have hRow := h.rows sg hSg
  unfold RowOk at hRow
  cases hAt : sg.status with
  | running => exact absurd hAt hStatus
  | pending | failed | blocked | done =>
    simp only [hAt] at hRow
    exact hRow.1

variable {rest : List Subgoal}

theorem others_of_nodup (hNodup : ((sg :: rest).map Subgoal.id).Nodup) :
    (rest.map Subgoal.id).Nodup ∧ ∀ other ∈ rest, other.id ≠ sg.id := by
  rw [map_cons, nodup_cons] at hNodup
  refine ⟨hNodup.2, fun other hOther hSame => hNodup.1 ?_⟩
  rw [← hSame]
  exact mem_map_of_mem hOther

theorem nodup_filter (h : Epic w) (keep : Subgoal → Bool) :
    ((w.subgoals.filter keep).map Subgoal.id).Nodup :=
  h.nodup.sublist (filter_sublist.map Subgoal.id)

theorem Epic.launchReady (h : Epic w) : Epic w.launchReady where
  epic := h.epic
  kind := h.kind
  nodup := h.nodup
  rows := h.rows
  tick := by
    refine ⟨nodup_filter h _, fun sg hSg => ?_⟩
    exact readinessSet_done hSg

theorem Epic.recoverRest (hEpic : w.epic = true) (hKind : w.blockerKind ≠ some .transient)
    (hNodup : (w.subgoals.map Subgoal.id).Nodup) (hRows : ∀ sg ∈ w.subgoals, RowOk w sg)
    (hRest : Orphans w rest) :
    Epic (w.recoverRest rest) := by
  cases rest with
  | nil => exact ⟨hEpic, hKind, hNodup, hRows, trivial⟩
  | cons sg rest => exact ⟨hEpic, hKind, hNodup, hRows, hRest⟩

theorem Epic.advance (h : Epic w) : Epic w.advance := by
  simp only [World.advance, h.epic, if_true, World.advanceEpic]
  split
  · exact h.launchReady
  · next sg rest hOrphans =>
      refine Epic.recoverRest h.epic h.kind h.nodup h.rows ⟨?_, fun other hOther => ?_⟩
      · rw [← hOrphans]
        exact nodup_filter h _
      · rw [← hOrphans, mem_filter, decide_eq_true_eq] at hOther
        exact hOther

variable {st : SubgoalStatus} {attempts : Option Nat}

theorem Epic.recovered (h : Epic w) (hOrphans : Orphans w (sg :: rest))
    (hWrite : st = .blocked ∨ st = .pending ∧ attempts = some (sg.attempts + 1) ∧
      sg.attempts + 1 < MAX_SUBGOAL_ATTEMPTS) :
    Epic ((w.setSubgoal sg.id st attempts).recoverRest rest) := by
  have hLocal := localAt_setSubgoal w sg.id st attempts
  obtain ⟨hSg, hRunning, hTask⟩ := hOrphans.2 sg mem_cons_self
  obtain ⟨hNodup, hOther⟩ := others_of_nodup hOrphans.1
  have hRow := h.rows sg hSg
  simp only [RowOk, hRunning, hTask] at hRow
  obtain ⟨⟨hStarted, hAttempts⟩, hMerged⟩ := hRow
  refine Epic.recoverRest h.epic h.kind (hLocal.ids ▸ h.nodup)
    (rowOk_of_local h.rows hLocal fun sg' hSg' hId => ?_)
    (Orphans.of_local ⟨hNodup, fun other hRest => hOrphans.2 other (mem_cons_of_mem _ hRest)⟩
      hLocal hOther)
  simp only [World.setSubgoal, mem_updateSubgoal] at hSg'
  rcases hSg' with ⟨before, hBefore, hSame, rfl⟩ | ⟨hNot, -⟩
  · have hEq : before = sg := inj_on_of_nodup_map h.nodup hBefore hSg hSame
    subst hEq
    rcases hWrite with rfl | ⟨rfl, rfl, hBudget⟩
    · exact ⟨hTask, hMerged, by show w.started.count before.id ≤ _; omega⟩
    · exact ⟨hTask, hMerged, hStarted, hBudget⟩
  · exact absurd hId hNot

theorem Epic.launch (h : Epic w) (hReady : Ready w (sg :: rest)) : Epic (w.launch sg rest) := by
  obtain ⟨hSg, hPending, -⟩ := hReady.2 sg mem_cons_self
  obtain ⟨hNodup, hOther⟩ := others_of_nodup hReady.1
  have hLocal : LocalAt sg.id w (w.launch sg rest) :=
    { ids := (localAt_setSubgoal w sg.id .running none).ids
      rows := (localAt_setSubgoal w sg.id .running none).rows
      stories := (localAt_setStory w sg.id _).stories
      merged := fun _ _ => rfl
      started := fun other hId => by
        simp [World.launch, count_append, Ne.symm hId] }
  have hRow := h.rows sg hSg
  simp only [RowOk, hPending] at hRow
  obtain ⟨-, hMerged, hStarted, hAttempts⟩ := hRow
  refine ⟨h.epic, h.kind, hLocal.ids ▸ h.nodup,
    rowOk_of_local h.rows hLocal fun sg' hSg' hId => ?_,
    Ready.of_local ⟨hNodup, fun other hRest => hReady.2 other (mem_cons_of_mem _ hRest)⟩
      hLocal hOther fun other hRow hSame => ?_⟩
  · simp only [World.launch, World.setStory, World.setSubgoal, mem_updateSubgoal] at hSg'
    rcases hSg' with ⟨before, hBefore, hSame, rfl⟩ | ⟨hNot, -⟩
    · have hEq : before = sg := inj_on_of_nodup_map h.nodup hBefore hSg hSame
      subst hEq
      simp [RowOk, World.launch, World.setStory, World.setSubgoal, StoryPoint.merged, hMerged,
        hAttempts, hStarted]
    · exact absurd hId hNot
  · have hEq : other = sg := inj_on_of_nodup_map h.nodup hRow hSg hSame
    simp [hEq, hPending]

theorem epic_turn (h : Epic w) (reply : TickReply) (hBudget : w.tick.withinBudget = true) :
    Epic (w.turn reply) := by
  have hTick := h.tick
  unfold TickOk at hTick
  cases hAt : w.tick <;> simp only [World.turn, hAt] at hTick ⊢
  case idle => exact h
  case listing =>
    refine ⟨h.epic, h.kind, h.nodup, h.rows, ?_⟩
    by_cases hActive : w.status = .active <;> simp [TickOk, hActive]
  case listed => exact h.advance
  case relisting => exact h.launchReady
  case orphan sg rest =>
    cases reply with
    | restart | keep => exact ⟨h.epic, h.kind, h.nodup, h.rows, hTick⟩
    | ok | children _ | outcome _ => exact h
  case recovering sg restart rest =>
    cases restart with
    | true =>
      simp only [hAt, Tick.withinBudget, decide_eq_true_eq] at hBudget
      exact h.recovered hTick (.inr ⟨rfl, rfl, hBudget⟩)
    | false => exact h.recovered hTick (.inl rfl)
  case launching rest =>
    cases rest with
    | nil => exact ⟨h.epic, h.kind, h.nodup, h.rows, trivial⟩
    | cons sg rest => exact h.launch hTick
  case settlingEpic =>
    simp only [World.settleEpic]
    split <;> exact ⟨h.epic, h.kind, h.nodup, h.rows, trivial⟩
  case blocking => exact ⟨h.epic, by simp [World.setStatus], h.nodup, h.rows, trivial⟩

/-! ## The stories -/

variable {s : Story}

theorem Epic.row_of_task (h : Epic w) (hTask : w.stories id = some s) (hSg : sg ∈ w.subgoals)
    (hId : sg.id = id) :
    sg.status = .running ∧ w.started.count id ≤ sg.attempts + 1 ∧
      sg.attempts < MAX_SUBGOAL_ATTEMPTS ∧ s.subgoal.attempts = sg.attempts ∧
      w.merged.count id = if s.point.merged then 1 else 0 := by
  subst hId
  have hRunning : sg.status = .running := by
    by_contra hNot
    simp [h.no_task hSg hNot] at hTask
  have hRow := h.rows sg hSg
  simp only [RowOk, hRunning, hTask] at hRow
  exact ⟨hRunning, hRow.1.1, hRow.1.2, hRow.2.1, hRow.2.2⟩

/-- A story with a task is neither an orphan nor ready, so the tick relies on nothing of it. -/
theorem Epic.of_story (h : Epic w) (hTask : w.stories id = some s) (hLocal : LocalAt id w w')
    (hEpic : w'.epic = w.epic) (hKind : w'.blockerKind = w.blockerKind) (hTick : w'.tick = w.tick)
    (hSelf : ∀ sg ∈ w'.subgoals, sg.id = id → RowOk w' sg) :
    Epic w' where
  epic := hEpic.trans h.epic
  kind := hKind ▸ h.kind
  nodup := hLocal.ids ▸ h.nodup
  rows := rowOk_of_local h.rows hLocal hSelf
  tick := by
    have hOther : ∀ sg : Subgoal, w.stories sg.id = none → sg.id ≠ id := by
      rintro sg hNone rfl
      simp [hNone] at hTask
    refine h.tick.mono hTick (fun todo hTodo => ?_) fun todo hTodo => ?_
    · exact hTodo.of_local hLocal fun sg hSg => hOther sg (hTodo.2 sg hSg).2.2
    · refine hTodo.of_local hLocal (fun sg hSg => ?_) fun sg hSg hId => ?_
      · obtain ⟨hRow, hPending, -⟩ := hTodo.2 sg hSg
        exact hOther sg (h.no_task hRow (by simp [hPending]))
      · simp [(h.row_of_task hTask hSg hId).1]

section

variable (h : Epic w) (hTask : w.stories id = some s)

include h hTask

theorem Epic.moveStory {point : StoryPoint} (lock : Option String)
    (hMerged : point.merged = s.point.merged) :
    Epic { w.moveStory id s point with lock := lock } := by
  have hLocal : LocalAt id w { w.moveStory id s point with lock := lock } :=
    ⟨rfl, fun _ _ => Iff.rfl, (localAt_setStory w id _).stories, fun _ _ => rfl, fun _ _ => rfl⟩
  refine h.of_story hTask hLocal rfl rfl rfl fun sg hSg hId => ?_
  obtain ⟨hRunning, hStarted, hAttempts, hSame, hCount⟩ := h.row_of_task hTask hSg hId
  subst hId
  simp only [RowOk, hRunning, World.moveStory, World.setStory, Function.update_self]
  exact ⟨⟨hStarted, hAttempts⟩, hSame, by rw [hMerged]; exact hCount⟩

/-- A story writes its row `running` again. -/
theorem Epic.setRunning : Epic (w.setSubgoal id .running none) := by
  refine h.of_story hTask (localAt_setSubgoal w id .running none) rfl rfl rfl fun sg hSg hId => ?_
  simp only [World.setSubgoal, mem_updateSubgoal] at hSg
  rcases hSg with ⟨before, hBefore, hSame, rfl⟩ | ⟨hNot, -⟩
  · have hRow := h.rows before hBefore
    simp only [RowOk, (h.row_of_task hTask hBefore hSame).1] at hRow
    exact hRow
  · exact absurd hId hNot

theorem Epic.endStory
    (hWrite : if s.point.merged then st = .done else st = .blocked ∨ st = .pending ∧
      attempts = some (s.subgoal.attempts + 1) ∧ s.subgoal.attempts + 1 < MAX_SUBGOAL_ATTEMPTS) :
    Epic ((w.setSubgoal id st attempts).endStory id) := by
  have hLocal := (localAt_setSubgoal w id st attempts).trans
    (localAt_endStory (w.setSubgoal id st attempts) id)
  refine h.of_story hTask hLocal rfl rfl rfl fun sg hSg hId => ?_
  simp only [World.endStory, World.setStory, World.setSubgoal, mem_updateSubgoal] at hSg
  rcases hSg with ⟨before, hBefore, hSame, rfl⟩ | ⟨hNot, -⟩
  · obtain ⟨-, hStarted, hAttempts, hStory, hCount⟩ := h.row_of_task hTask hBefore hSame
    subst hSame
    cases hMerged : s.point.merged with
    | true =>
      simp only [hMerged, if_true] at hWrite hCount
      subst hWrite
      refine ⟨by simp [World.endStory, World.setStory], hCount, ?_⟩
      show w.started.count before.id ≤ _
      omega
    | false =>
      simp only [hMerged, Bool.false_eq_true, if_false] at hWrite hCount
      rcases hWrite with rfl | ⟨rfl, rfl, hBudget⟩
      · refine ⟨by simp [World.endStory, World.setStory], hCount, ?_⟩
        show w.started.count before.id ≤ _
        omega
      · refine ⟨by simp [World.endStory, World.setStory], hCount, ?_, hBudget⟩
        show w.started.count before.id ≤ s.subgoal.attempts + 1
        omega
  · exact absurd hId hNot

theorem Epic.merge (hBefore : s.point.merged = false) :
    Epic { w.moveStory id s .integrating with
      lock := some id, merged := w.merged ++ [id] } := by
  have hLocal : LocalAt id w { w.moveStory id s .integrating with
      lock := some id, merged := w.merged ++ [id] } :=
    { ids := rfl
      rows := fun _ _ => Iff.rfl
      stories := (localAt_setStory w id _).stories
      merged := fun other hId => by simp [count_append, Ne.symm hId]
      started := fun _ _ => rfl }
  refine h.of_story hTask hLocal rfl rfl rfl fun sg hSg hId => ?_
  obtain ⟨hRunning, hStarted, hAttempts, hSame, hCount⟩ := h.row_of_task hTask hSg hId
  subst hId
  simp only [hBefore, Bool.false_eq_true, if_false] at hCount
  simp [RowOk, hRunning, World.moveStory, World.setStory, StoryPoint.merged, hStarted, hAttempts,
    hSame, hCount]

theorem epic_storyTurn {reply : StoryReply} (hTests : s.point = .integrating → reply = .ok) :
    Epic (w.storyTurn id s reply) := by
  have hFollowed : ∀ {next : StoryPoint} (reply : StoryReply), s.point.merged = false →
      next.merged = false → Epic (w.followed id s next reply) := by
    intro next reply hBefore hNext
    cases reply with
    | ok | moved => exact h.moveStory hTask w.lock (hNext.trans hBefore.symm)
    | retry | escalate => exact h.moveStory hTask w.lock hBefore.symm
  have hAgain : ∀ {next : StoryPoint}, s.point.merged = false → next.merged = false →
      Epic ((w.setSubgoal id .running none).moveStory id s next) := fun hBefore hNext =>
    (h.setRunning hTask).moveStory (w := w.setSubgoal id .running none) hTask w.lock
      (hNext.trans hBefore.symm)
  cases hPoint : s.point <;> simp only [World.storyTurn, hPoint]
  case checking | preparing | committing | testing => exact hFollowed _ (by rw [hPoint]; rfl) rfl
  case placing | moving => exact hAgain (by rw [hPoint]; rfl) rfl
  case coding => cases reply <;> exact h.moveStory hTask w.lock (by rw [hPoint]; rfl)
  case merging =>
    split
    · exact h
    · split
      · exact h.merge hTask (by rw [hPoint]; rfl)
      · exact h.moveStory hTask (some id) (by rw [hPoint]; rfl)
  case integrating =>
    simp only [hTests hPoint, if_true]
    exact h.moveStory hTask none (by rw [hPoint]; rfl)
  case cleaning => exact h.moveStory hTask w.lock (by rw [hPoint]; rfl)
  case finishing | escalating => exact h.endStory hTask (by simp [hPoint, StoryPoint.merged])
  case retrying =>
    simp only [World.retryOrBlock]
    refine h.endStory hTask ?_
    by_cases hBudget : s.subgoal.attempts + 1 < MAX_SUBGOAL_ATTEMPTS <;>
      simp [hPoint, StoryPoint.merged, hBudget]

end

theorem Epic.lost (h : Epic w) (hEpic : w'.epic = w.epic) (hKind : w'.blockerKind = w.blockerKind)
    (hRows : w'.subgoals = w.subgoals) (hMerged : w'.merged = w.merged)
    (hStarted : w'.started = w.started) (hTick : w'.tick = w.tick ∨ w'.tick = .idle)
    (hStories : ∀ sg ∈ w.subgoals, w'.stories sg.id = w.stories sg.id ∨ w'.stories sg.id = none ∧
      ∀ s ∈ w.stories sg.id, s.point.merged = false)
    : Epic w' where
  epic := hEpic.trans h.epic
  kind := hKind ▸ h.kind
  nodup := hRows ▸ h.nodup
  rows := by
    intro sg hSg
    rw [hRows] at hSg
    rcases hStories sg hSg with hSame | ⟨hNone, hUnmerged⟩
    · exact (h.rows sg hSg).congr hSame (by rw [hMerged]) (by rw [hStarted])
    · cases hTask : w.stories sg.id with
      | none =>
        exact (h.rows sg hSg).congr (hNone.trans hTask.symm) (by rw [hMerged]) (by rw [hStarted])
      | some s =>
        obtain ⟨hRunning, hCount, hAttempts, -, hMerges⟩ := h.row_of_task hTask hSg rfl
        rw [hUnmerged s hTask] at hMerges
        simp only [RowOk, hRunning, hNone, hMerged, hStarted]
        exact ⟨⟨hCount, hAttempts⟩, hMerges⟩
  tick := by
    rcases hTick with hTick | hTick
    · refine h.tick.mono hTick (fun todo hTodo => ⟨hTodo.1, fun sg hSg => ?_⟩) fun todo hTodo => ?_
      · obtain ⟨hRow, hRunning, hTask⟩ := hTodo.2 sg hSg
        rcases hStories sg hRow with hSame | ⟨hNone, -⟩
        · exact ⟨hRows ▸ hRow, hRunning, hSame.trans hTask⟩
        · exact ⟨hRows ▸ hRow, hRunning, hNone⟩
      · unfold Ready
        rw [hRows]
        exact hTodo
    · unfold TickOk
      rw [hTick]
      trivial

/-! ## Runs -/

theorem epic_step (h : Epic w) {e : Event} (hKeeps : KeepsMerges w e) :
    Epic (step w e) := by
  cases e with
  | fire cooled =>
    simp only [step]
    by_cases hIdle : w.tick = .idle
    · rw [if_pos hIdle, if_neg fun hCooled => h.kind hCooled.2.1]
      exact ⟨h.epic, h.kind, h.nodup, h.rows, trivial⟩
    · rw [if_neg hIdle]
      exact h
  | turn reply => exact epic_turn h reply hKeeps
  | raised => exact ⟨h.epic, h.kind, h.nodup, h.rows, trivial⟩
  | story id reply =>
    simp only [step]
    cases hTask : w.stories id with
    | none => exact h
    | some s => exact epic_storyTurn h hTask fun hPoint => hKeeps s hTask hPoint
  | storyRaised id =>
    refine h.lost rfl rfl rfl rfl rfl (.inl rfl) fun sg _ => ?_
    by_cases hId : sg.id = id
    · subst hId
      exact .inr ⟨by simp [step, World.endStory, World.setStory], hKeeps⟩
    · exact .inl (by simp [step, World.endStory, World.setStory, hId])
  | crash => exact h.lost rfl rfl rfl rfl rfl (.inr rfl) fun sg hSg => .inr ⟨rfl, hKeeps sg hSg⟩
  | abandon | abandonStops => exact absurd hKeeps id

theorem launching_of_started (h : Epic w) {reply : TickReply}
    (hStarted : (w.turn reply).started = w.started ++ [id]) :
    ∃ sg rest, w.tick = .launching (sg :: rest) ∧ sg.id = id := by
  have hTick := h.tick
  unfold TickOk at hTick
  cases hAt : w.tick with
  | launching rest =>
    cases rest with
    | nil => simp [World.turn, hAt] at hStarted
    | cons sg rest =>
      simp only [World.turn, hAt, World.launch, append_cancel_left_eq,
        cons.injEq, and_true] at hStarted
      exact ⟨sg, rest, rfl, hStarted⟩
  | listed =>
    simp only [World.turn, hAt, World.advance, h.epic, if_true, World.advanceEpic] at hStarted
    split at hStarted <;> simp [World.launchReady, World.recoverRest] at hStarted
  | orphan sg rest => cases reply <;> simp [World.turn, hAt] at hStarted
  | recovering sg restart rest =>
    cases restart <;> cases rest <;>
      simp [World.turn, hAt, World.recoverRest, World.setSubgoal] at hStarted
  | settlingEpic =>
    simp only [World.turn, hAt, World.settleEpic] at hStarted
    split at hStarted <;> simp at hStarted
  | idle | listing | relisting | blocking =>
    simp [World.turn, hAt, World.launchReady, World.setStatus] at hStarted
  | _ => simp [hAt] at hTick

theorem starts_ready (h : Epic w) (e : Event) : StartsReady w e := by
  intro id hStarted
  cases e with
  | turn reply =>
    obtain ⟨sg, rest, hAt, rfl⟩ := launching_of_started h hStarted
    have hReady := h.tick
    simp only [TickOk, hAt] at hReady
    obtain ⟨hSg, hPending, hDeps⟩ := hReady.2 sg mem_cons_self
    refine ⟨h.no_task hSg (by simp [hPending]), fun other hOther hSame => ?_⟩
    have hEq : other = sg := inj_on_of_nodup_map h.nodup hOther hSg hSame
    rw [hEq]
    exact hDeps
  | story other reply =>
    simp only [step] at hStarted
    cases hTask : w.stories other with
    | none => simp [hTask] at hStarted
    | some s =>
      simp only [hTask, (storyTurn_frame w other s reply).2.2.2] at hStarted
      simp at hStarted
  | fire cooled =>
    simp only [step] at hStarted
    split at hStarted
    · split at hStarted <;> simp at hStarted
    · simp at hStarted
  | abandonStops =>
    simp only [step] at hStarted
    split at hStarted <;> simp at hStarted
  | raised | crash | storyRaised _ | abandon =>
    simp [step, World.endStory, World.setStory, World.setStatus] at hStarted

theorem epic_start (p : Plan) (unify : Bool) : Epic (p.start true unify) where
  epic := rfl
  kind := by simp [Plan.start]
  nodup := by
    have hIds : p.rows.map Subgoal.id = p.subgoals.map (·.1) := by
      simp [Plan.rows, Function.comp_def]
    show (p.rows.map Subgoal.id).Nodup
    rw [hIds]
    exact p.nodup
  rows := by
    intro sg hSg
    obtain ⟨row, -, rfl⟩ := mem_map.mp hSg
    exact ⟨rfl, rfl, le_refl _, by show 0 < MAX_SUBGOAL_ATTEMPTS; decide⟩
  tick := trivial

/-- **Verified.**  In a run in which the integration tests pass, no crash or exception comes
between a story's merge and its `done` row, and no orphan is restarted on its last attempt,
an epic's stories are merged at most once, only when done, and started within their budget,
after their dependencies and one task at a time. -/
theorem verified_of_clean (p : Plan) (unify : Bool) (events : List Event)
    (h : Meets step KeepsMerges (p.start true unify) events) :
    Along step Verified (p.start true unify) events ∧
      Meets step StartsReady (p.start true unify) events := by
  have hStep : ∀ w e, Epic w → KeepsMerges w e → Epic (step w e) :=
    fun w e hEpic hKeeps => epic_step hEpic hKeeps
  have hReady : ∀ w e, Epic w → KeepsMerges w e → StartsReady w e :=
    fun w e hEpic _ => starts_ready hEpic e
  have hAlong := along_of_meets hStep (epic_start p unify) h
  exact ⟨hAlong.mono fun _ hEpic => hEpic.verified,
    meets_of_meets hStep hReady (epic_start p unify) h⟩

def twoStories : Plan := ⟨[("base", 0, []), ("top", 0, ["base"])], by decide⟩

def launchingTick : List Event :=
  [.fire true, .turn .ok, .turn .ok, .turn .ok, .turn .ok, .turn .ok]

def restartingTick : List Event :=
  [.fire true, .turn .ok, .turn .ok, .turn .restart] ++ replicate 5 (.turn .ok)

/-- Both stories are merged, the first after a crash under `claude_code`. -/
def recoveredEpic : List Event :=
  launchingTick ++ replicate 3 (.story "base" .ok) ++ [.crash] ++ restartingTick ++
    replicate 10 (.story "base" .ok) ++ launchingTick ++
    replicate 10 (.story "top" .ok)

theorem verified_twoStories :
    (run step (twoStories.start true true) recoveredEpic).merged = ["base", "top"] ∧
      Along step Verified (twoStories.start true true) recoveredEpic ∧
      Meets step StartsReady (twoStories.start true true) recoveredEpic := by
  refine ⟨by decide, verified_of_clean twoStories true recoveredEpic ?_⟩
  decide

def oneStory : Plan := ⟨[("story", 0, [])], by decide⟩

/-- It is merged, and the tests of the integration branch fail. -/
def failedIntegration : List Event :=
  launchingTick ++ replicate 7 (.story "story" .ok) ++
    [.story "story" .escalate, .story "story" .ok]

/-- The process dies before its `done` row, when its worktree is gone. -/
def crashedMerge : List Event :=
  launchingTick ++ replicate 9 (.story "story" .ok) ++ [.crash] ++ restartingTick ++
    replicate 10 (.story "story" .ok)

def crashedAttempts : List Event :=
  launchingTick ++ [.crash] ++ restartingTick ++ [.crash] ++ restartingTick ++ [.crash] ++
    restartingTick

/-- **Merges are not taken back.**  A story escalated for failing integration tests stays on
the branch, one whose `done` row was lost is merged twice, and one that crashes is started a
fourth time. -/
theorem escalated_stays_merged :
    ¬ Along step Verified (oneStory.start true true) failedIntegration ∧
      (run step (oneStory.start true true) failedIntegration).subgoals.map Subgoal.status =
        [.blocked] ∧
      (run step (oneStory.start true true) failedIntegration).merged = ["story"] ∧
      (run step (oneStory.start true true) crashedMerge).merged = ["story", "story"] ∧
      (run step (oneStory.start true true) crashedAttempts).started.length = 4 := by
  refine ⟨fun hAlong => ?_, by decide, by decide, by decide, by decide⟩
  have hLast := hAlong.last
  have hUnmerged := hLast.unmerged
  revert hUnmerged
  decide

end StackOwl.Objectives
