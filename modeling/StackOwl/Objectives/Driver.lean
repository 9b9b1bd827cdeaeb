import Mathlib.Data.Rat.Defs
import Mathlib.Logic.Function.Basic
import StackOwl.Lib.Run

/-!
# The objective driver

`ObjectiveDriverHandler` (`objectives/driver.py`) advances objectives from a standing job.
A plain objective runs its sub-goals one after the other inside the tick; an epic launches
every ready story as a background task, `run_story` (`objectives/epic_runner.py`), which
merges its work into the epic's integration branch.

One objective is followed, by the rows of the database and by what its coroutines await.  A
step resumes one of them: it does what lies before its next await.  A crash loses the
coroutines and keeps the rows and the branch.  `update_status` and `update_subgoal` write
by id whatever the row holds.

What each await answers is part of the step: the outcome of a sub-goal's run, the children
of a split, whether a git or test command succeeds, and the state of an orphan's worktree.
The runs that are started, the messages of completion and the merges are listed.

## Main results

* `readinessSet_done` — a ready story's dependencies are done.
-/

namespace StackOwl.Objectives

/-! ## Rows -/

inductive ObjectiveStatus where
  | active
  | blocked
  | done
  | abandoned
  deriving DecidableEq

inductive SubgoalStatus where
  | pending
  | running
  | done
  | failed
  | blocked
  deriving DecidableEq

inductive BlockerKind where
  | transient
  | decision
  deriving DecidableEq

/-- A sub-goal, or a story of an epic. -/
structure Subgoal where
  id : String
  status : SubgoalStatus := .pending
  attempts : Nat := 0
  estimatedComplexity : Rat := 0
  decompositionDepth : Nat := 0
  dependsOn : List String := []
  deriving DecidableEq

/-- `update_subgoal`; attempts that are not given stay. -/
def updateSubgoal (id : String) (status : SubgoalStatus) (attempts : Option Nat)
    (subgoals : List Subgoal) : List Subgoal :=
  subgoals.map fun sg =>
    if sg.id = id then { sg with status := status, attempts := attempts.getD sg.attempts }
    else sg

variable {subgoals : List Subgoal} {sg : Subgoal}

theorem mem_updateSubgoal {id : String} {st : SubgoalStatus} {attempts : Option Nat} :
    sg ∈ updateSubgoal id st attempts subgoals ↔
      (∃ before ∈ subgoals, before.id = id ∧
        sg = { before with status := st, attempts := attempts.getD before.attempts }) ∨
      sg.id ≠ id ∧ sg ∈ subgoals := by
  simp only [updateSubgoal, List.mem_map]
  constructor
  · rintro ⟨before, hBefore, rfl⟩
    by_cases hId : before.id = id
    · exact .inl ⟨before, hBefore, hId, by simp [hId]⟩
    · exact .inr (by simpa [hId] using hBefore)
  · rintro (⟨before, hBefore, hId, rfl⟩ | ⟨hId, hSg⟩)
    · exact ⟨before, hBefore, by simp [hId]⟩
    · exact ⟨sg, hSg, by simp [hId]⟩

/-- The cascade of `update_status`. -/
def stopLive (subgoals : List Subgoal) : List Subgoal :=
  subgoals.map fun sg =>
    if sg.status = .pending ∨ sg.status = .running then { sg with status := .blocked } else sg

/-- `replace_subgoal_with_children`, whose rows are inserted pending; an id that is taken
fails the transaction. -/
def replaceWithChildren (parent : Subgoal) (children : List (String × Rat))
    (subgoals : List Subgoal) : List Subgoal :=
  let ids := children.map (·.1)
  if ids.Nodup ∧ ∀ id ∈ ids, id ∉ subgoals.map Subgoal.id then
    subgoals.flatMap fun sg =>
      if sg.id = parent.id then
        children.map fun child =>
          { id := child.1, estimatedComplexity := child.2,
            decompositionDepth := parent.decompositionDepth + 1 }
      else [sg]
  else subgoals

/-- `next_pending_subgoal`. -/
def nextPending (subgoals : List Subgoal) : Option Subgoal :=
  subgoals.find? (·.status = .pending)

/-- `readiness_set`, by its stories. -/
def readinessSet (subgoals : List Subgoal) : List Subgoal :=
  subgoals.filter fun sg =>
    sg.status = .pending ∧
      ∀ dep ∈ sg.dependsOn, dep ∈ (subgoals.filter (·.status = .done)).map Subgoal.id

theorem readinessSet_done (hReady : sg ∈ readinessSet subgoals) :
    sg ∈ subgoals ∧ sg.status = .pending ∧
      ∀ dep ∈ sg.dependsOn, ∃ other ∈ subgoals, other.id = dep ∧ other.status = .done := by
  simp only [readinessSet, List.mem_filter, decide_eq_true_eq] at hReady
  refine ⟨hReady.1, hReady.2.1, fun dep hDep => ?_⟩
  obtain ⟨other, hOther, hId⟩ := List.mem_map.mp (hReady.2.2 dep hDep)
  simp only [List.mem_filter, decide_eq_true_eq] at hOther
  exact ⟨other, hOther.1, hId, hOther.2⟩

/-! ## Retries -/

def MAX_SUBGOAL_ATTEMPTS : Nat := 3

def ADAPTIVE_DECOMPOSITION_THRESHOLD : Rat := ⟨7, 10, by decide, by decide⟩

def MAX_DECOMPOSITION_DEPTH : Nat := 2

/-- `Failure`, by what `should_retry` reads. -/
structure Failure where
  transient : Bool
  consequential : Bool
  unverifiedEffect : Bool := false

def shouldRetry (f : Failure) : Bool :=
  if f.consequential then false else f.transient || f.unverifiedEffect

def mayRetry (unify : Bool) : Bool :=
  if unify then shouldRetry { transient := true, consequential := false } else true

/-! ## What the coroutines await -/

/-- One write of a sub-goal's outcome. -/
inductive Write where
  | subgoal (id : String) (status : SubgoalStatus) (attempts : Option Nat)
  /-- The objective is `blocked`. -/
  | block (kind : BlockerKind)
  deriving DecidableEq

/-- How the run of a sub-goal ends. -/
inductive Outcome where
  | success
  | error
  | reversiblePark
  | irreversiblePark
  | refuted

def onSubgoalFailure (unify : Bool) (sg : Subgoal) : List Write :=
  let used := sg.attempts + 1
  if used < MAX_SUBGOAL_ATTEMPTS ∧ mayRetry unify then [.subgoal sg.id .pending (some used)]
  else [.subgoal sg.id .failed (some used), .block .transient]

def settle (unify : Bool) (sg : Subgoal) : Outcome → List Write
  | .success => [.subgoal sg.id .done none]
  | .error | .reversiblePark => onSubgoalFailure unify sg
  | .irreversiblePark => [.subgoal sg.id .blocked none, .block .decision]
  | .refuted => [.subgoal sg.id .failed none, .block .decision]

inductive Tick where
  | idle
  /-- `_requeue_recoverable` found the objective, and lists its sub-goals. -/
  | requeueing
  /-- The stuck sub-goal is to be reset. -/
  | resetting (id : String)
  /-- The objective is to be active again. -/
  | reactivating
  /-- The active objectives are listed. -/
  | listing
  /-- The objective is among those, and to be advanced. -/
  | listed
  /-- No sub-goal is pending: the answer is synthesized. -/
  | completing
  /-- The objective is `done`; its live sub-goals are to be stopped. -/
  | stopping
  /-- The completion is to be sent. -/
  | announcing
  /-- The decomposer works on a complex sub-goal. -/
  | planning (sg : Subgoal)
  | splitting (sg : Subgoal) (children : List (String × Rat))
  /-- The sub-goal is to be `running`. -/
  | marking (sg : Subgoal)
  /-- The backend runs it. -/
  | running (sg : Subgoal)
  | settling (writes : List Write)
  /-- The worktree of an orphan is looked at. -/
  | orphan (sg : Subgoal) (rest : List Subgoal)
  /-- The orphan is to be restarted, or escalated. -/
  | recovering (sg : Subgoal) (restart : Bool) (rest : List Subgoal)
  /-- The stories are listed again. -/
  | relisting
  /-- The ready stories that are still to be launched. -/
  | launching (rest : List Subgoal)
  /-- `_settle_epic_status` lists the stories. -/
  | settlingEpic
  /-- The epic is to be blocked on its owner. -/
  | blocking
  deriving DecidableEq

/-- What `run_story` awaits. -/
inductive StoryPoint where
  /-- The git status of the repository. -/
  | checking
  /-- The worktree. -/
  | preparing
  /-- The row's worktree is to be written. -/
  | placing
  /-- `claude_code`. -/
  | coding
  /-- The row is to point at the worktree that `claude_code` made. -/
  | moving
  /-- The commit. -/
  | committing
  /-- The tests in the worktree. -/
  | testing
  /-- The repository's lock, and the merge. -/
  | merging
  /-- The tests of the integration branch. -/
  | integrating
  /-- The removal of the worktree. -/
  | cleaning
  /-- The row is to be `done`. -/
  | finishing
  /-- The row is to be `pending` again, or `blocked`. -/
  | retrying
  /-- The row is to be `blocked`. -/
  | escalating
  deriving DecidableEq

/-- A background task of `run_story`, with the story as it was launched. -/
structure Story where
  subgoal : Subgoal
  point : StoryPoint

/-- What a story's await answers: `moved` is a success in a worktree of its own, and `retry`
and `escalate` are failures by what follows them. -/
inductive StoryReply where
  | ok
  | moved
  | retry
  | escalate
  deriving DecidableEq

/-- The objective, its rows, the coroutines that work on it, and the integration branch. -/
structure World where
  /-- It is an epic: `repo` is set. -/
  epic : Bool
  unify : Bool := true
  status : ObjectiveStatus := .active
  blockerKind : Option BlockerKind := none
  subgoals : List Subgoal
  tick : Tick := .idle
  stories : String → Option Story := fun _ => none
  /-- Who holds the repository's merge lock. -/
  lock : Option String := none
  /-- The runs of sub-goals and stories that were started. -/
  started : List String := []
  /-- The merges into the integration branch, by story. -/
  merged : List String := []
  /-- How many completions were sent. -/
  announced : Nat := 0

namespace World

variable (w : World)

def setSubgoal (id : String) (status : SubgoalStatus) (attempts : Option Nat) :
    World :=
  { w with subgoals := updateSubgoal id status attempts w.subgoals }

def setStory (id : String) (s : Option Story) : World :=
  { w with stories := Function.update w.stories id s }

/-- `update_status`, without its cascade. -/
def setStatus (status : ObjectiveStatus) (kind : Option BlockerKind) : World :=
  { w with status := status, blockerKind := kind }

def apply : Write → World
  | .subgoal id status attempts => w.setSubgoal id status attempts
  | .block kind => w.setStatus .blocked (some kind)

/-! ## The tick -/

/-- `_advance_epic` past its orphans: every ready story is launched. -/
def launchReady : World :=
  { w with tick := .launching (readinessSet w.subgoals) }

def recoverRest : List Subgoal → World
  | [] => { w with tick := .relisting }
  | sg :: rest => { w with tick := .orphan sg rest }

/-- `_advance_epic`, up to its first await past the list. -/
def advanceEpic : World :=
  match w.subgoals.filter fun sg => sg.status = .running ∧ w.stories sg.id = none with
  | [] => w.launchReady
  | sg :: rest => w.recoverRest (sg :: rest)

/-- `_advance`, up to its first await past `next_pending_subgoal`. -/
def advance : World :=
  if w.epic then w.advanceEpic
  else
    match nextPending w.subgoals with
    | none => { w with tick := .completing }
    | some sg =>
      if ADAPTIVE_DECOMPOSITION_THRESHOLD ≤ sg.estimatedComplexity ∧
          sg.decompositionDepth < MAX_DECOMPOSITION_DEPTH then
        { w with tick := .planning sg }
      else { w with tick := .marking sg }

/-- `_settle_epic_status`, up to its write. -/
def settleEpic : World :=
  if w.subgoals.any (·.status = .running) ∨ readinessSet w.subgoals ≠ [] then
    { w with tick := .idle }
  else { w with tick := .blocking }

/-- A story's row is `running`, and its task is created. -/
def launch (sg : Subgoal) (rest : List Subgoal) : World :=
  { (w.setSubgoal sg.id .running none).setStory sg.id (some ⟨sg, .checking⟩) with
    started := w.started ++ [sg.id]
    tick := .launching rest }

end World

/-- What the tick's await answers. -/
inductive TickReply where
  | ok
  /-- The steps of the decomposer, with fresh ids. -/
  | children (specs : List (String × Rat))
  | outcome (o : Outcome)
  /-- The orphan has no worktree or a clean one, so it is restarted. -/
  | restart
  /-- Its worktree is dirty, or cannot be read. -/
  | keep

namespace World

variable (w : World)

def turn (reply : TickReply) : World :=
  match w.tick with
  | .idle => w
  | .requeueing =>
    match w.subgoals.find? fun sg => sg.status = .failed ∨ sg.status = .blocked with
    | some sg => { w with tick := .resetting sg.id }
    | none => { w with tick := .reactivating }
  | .resetting id => { w.setSubgoal id .pending (some 0) with tick := .reactivating }
  | .reactivating => { w.setStatus .active none with tick := .listing }
  | .listing => { w with tick := if w.status = .active then .listed else .idle }
  | .listed => w.advance
  | .completing => { w.setStatus .done none with tick := .stopping }
  | .stopping => { w with subgoals := stopLive w.subgoals, tick := .announcing }
  | .announcing => { w with announced := w.announced + 1, tick := .idle }
  | .planning sg =>
    match reply with
    | .children specs =>
      if specs.length < 2 then { w with tick := .marking sg }
      else { w with tick := .splitting sg specs }
    | _ => { w with tick := .marking sg }
  | .splitting sg specs =>
    { w with subgoals := replaceWithChildren sg specs w.subgoals, tick := .idle }
  | .marking sg =>
    { w.setSubgoal sg.id .running none with
      started := w.started ++ [sg.id]
      tick := .running sg }
  | .running sg =>
    match reply with
    | .outcome o => { w with tick := .settling (settle w.unify sg o) }
    | _ => w
  | .settling [] => { w with tick := .idle }
  | .settling (x :: rest) => { w.apply x with tick := .settling rest }
  | .orphan sg rest =>
    match reply with
    | .restart => { w with tick := .recovering sg true rest }
    | .keep => { w with tick := .recovering sg false rest }
    | _ => w
  | .recovering sg true rest =>
    (w.setSubgoal sg.id .pending (some (sg.attempts + 1))).recoverRest rest
  | .recovering sg false rest => (w.setSubgoal sg.id .blocked none).recoverRest rest
  | .relisting => w.launchReady
  | .launching [] => { w with tick := .settlingEpic }
  | .launching (sg :: rest) => w.launch sg rest
  | .settlingEpic => w.settleEpic
  | .blocking => { w.setStatus .blocked (some .decision) with tick := .idle }

/-! ## Stories -/

def moveStory (id : String) (s : Story) (point : StoryPoint) : World :=
  w.setStory id (some { s with point := point })

def endStory (id : String) : World :=
  { w.setStory id none with lock := if w.lock = some id then none else w.lock }

def retryOrBlock (id : String) (s : Story) : World :=
  let used := s.subgoal.attempts + 1
  (w.setSubgoal id (if used < MAX_SUBGOAL_ATTEMPTS then .pending else .blocked)
    (some used)).endStory id

def followed (id : String) (s : Story) (next : StoryPoint) : StoryReply → World
  | .ok | .moved => w.moveStory id s next
  | .retry => w.moveStory id s .retrying
  | .escalate => w.moveStory id s .escalating

def storyTurn (id : String) (s : Story) (reply : StoryReply) : World :=
  match s.point with
  | .checking => w.followed id s .preparing (if reply = .ok then .ok else .escalate)
  | .preparing => w.followed id s .placing (if reply = .ok then .ok else .escalate)
  | .placing => (w.setSubgoal id .running none).moveStory id s .coding
  | .coding =>
    match reply with
    | .ok => w.moveStory id s .committing
    | .moved => w.moveStory id s .moving
    | .retry | .escalate => w.moveStory id s .retrying
  | .moving => (w.setSubgoal id .running none).moveStory id s .committing
  | .committing => w.followed id s .testing reply
  | .testing => w.followed id s .merging (if reply = .ok then .ok else .retry)
  | .merging =>
    match w.lock with
    | some _ => w
    | none =>
      if reply = .ok then
        { w.moveStory id s .integrating with
          lock := some id, merged := w.merged ++ [id] }
      else { w.moveStory id s .escalating with lock := some id }
  | .integrating =>
    if reply = .ok then { w.moveStory id s .cleaning with lock := none }
    else w.moveStory id s .escalating
  | .cleaning => w.moveStory id s .finishing
  | .finishing => (w.setSubgoal id .done none).endStory id
  | .retrying => w.retryOrBlock id s
  | .escalating => (w.setSubgoal id .blocked none).endStory id

end World

/-! ## Steps -/

inductive Event where
  /-- The job fires; `cooled` is whether the objective was blocked for long enough. -/
  | fire (cooled : Bool)
  | turn (reply : TickReply)
  /-- An exception ends the tick's work on the objective. -/
  | raised
  | story (id : String) (reply : StoryReply)
  /-- An exception ends a story's task. -/
  | storyRaised (id : String)
  | crash
  /-- Someone else's `update_status(objective_id, 'abandoned')`, and its cascade. -/
  | abandon
  | abandonStops

def step (w : World) : Event → World
  | .fire cooled =>
    if w.tick = .idle then
      if w.status = .blocked ∧ w.blockerKind = some .transient ∧ cooled = true then
        { w with tick := .requeueing }
      else { w with tick := .listing }
    else w
  | .turn reply => w.turn reply
  | .raised => { w with tick := .idle }
  | .story id reply =>
    match w.stories id with
    | some s => w.storyTurn id s reply
    | none => w
  | .storyRaised id => w.endStory id
  | .crash => { w with tick := .idle, stories := fun _ => none, lock := none }
  | .abandon => w.setStatus .abandoned none
  | .abandonStops =>
    if w.status = .abandoned then { w with subgoals := stopLive w.subgoals } else w

/-! ## What a turn leaves alone -/

theorem apply_frame (w : World) (x : Write) :
    (w.apply x).epic = w.epic ∧ (w.apply x).stories = w.stories := by
  cases x <;> exact ⟨rfl, rfl⟩

theorem recoverRest_frame (w : World) (rest : List Subgoal) :
    (w.recoverRest rest).epic = w.epic ∧ (w.recoverRest rest).stories = w.stories := by
  cases rest <;> exact ⟨rfl, rfl⟩

/-- Only a launch changes the background tasks. -/
theorem turn_frame (w : World) (reply : TickReply)
    (hTick : ∀ sg rest, w.tick ≠ .launching (sg :: rest)) :
    (w.turn reply).epic = w.epic ∧ (w.turn reply).stories = w.stories := by
  cases hAt : w.tick with
  | listed =>
    simp only [World.turn, hAt, World.advance, World.advanceEpic]
    split
    · split
      · exact ⟨rfl, rfl⟩
      · exact recoverRest_frame w _
    · split
      · exact ⟨rfl, rfl⟩
      · split <;> exact ⟨rfl, rfl⟩
  | requeueing =>
    simp only [World.turn, hAt]
    split <;> exact ⟨rfl, rfl⟩
  | planning sg =>
    simp only [World.turn, hAt]
    split
    · split <;> exact ⟨rfl, rfl⟩
    · exact ⟨rfl, rfl⟩
  | running sg => cases reply <;> simp [World.turn, hAt]
  | orphan sg rest => cases reply <;> simp [World.turn, hAt]
  | settling writes =>
    cases writes with
    | nil => simp [World.turn, hAt]
    | cons x rest =>
      simp only [World.turn, hAt]
      exact apply_frame w x
  | recovering sg restart rest =>
    cases restart <;>
      · simp only [World.turn, hAt]
        exact recoverRest_frame _ rest
  | launching rest =>
    cases rest with
    | nil => simp [World.turn, hAt]
    | cons sg rest => exact absurd hAt (hTick sg rest)
  | settlingEpic =>
    simp only [World.turn, hAt, World.settleEpic]
    split <;> exact ⟨rfl, rfl⟩
  | _ => simp [World.turn, hAt, World.setSubgoal, World.setStatus, World.launchReady]

/-- A story writes its own row only. -/
theorem storyTurn_frame (w : World) (id : String) (s : Story) (reply : StoryReply) :
    (w.storyTurn id s reply).epic = w.epic ∧ (w.storyTurn id s reply).status = w.status ∧
      (w.storyTurn id s reply).tick = w.tick ∧
      (w.storyTurn id s reply).started = w.started := by
  have hFollowed : ∀ next reply, (w.followed id s next reply).epic = w.epic ∧
      (w.followed id s next reply).status = w.status ∧
      (w.followed id s next reply).tick = w.tick ∧
      (w.followed id s next reply).started = w.started := by
    intro next reply
    cases reply <;> exact ⟨rfl, rfl, rfl, rfl⟩
  cases hPoint : s.point with
  | checking | preparing | committing | testing =>
    simp only [World.storyTurn, hPoint]
    exact hFollowed _ _
  | placing | moving | cleaning | finishing | retrying | escalating =>
    simp only [World.storyTurn, hPoint]
    exact ⟨rfl, rfl, rfl, rfl⟩
  | coding =>
    cases reply <;>
      · simp only [World.storyTurn, hPoint]
        exact ⟨rfl, rfl, rfl, rfl⟩
  | merging =>
    simp only [World.storyTurn, hPoint]
    split
    · exact ⟨rfl, rfl, rfl, rfl⟩
    · split <;> exact ⟨rfl, rfl, rfl, rfl⟩
  | integrating =>
    simp only [World.storyTurn, hPoint]
    split <;> exact ⟨rfl, rfl, rfl, rfl⟩

/-! ## Objectives just created -/

/-- The sub-goals of an objective just created, under different ids. -/
structure Plan where
  subgoals : List (String × Rat × List String)
  nodup : (subgoals.map (·.1)).Nodup

def Plan.rows (p : Plan) : List Subgoal :=
  p.subgoals.map fun sg => { id := sg.1, estimatedComplexity := sg.2.1, dependsOn := sg.2.2 }

def Plan.start (p : Plan) (epic unify : Bool) : World :=
  { epic := epic, unify := unify, subgoals := p.rows }

end StackOwl.Objectives
