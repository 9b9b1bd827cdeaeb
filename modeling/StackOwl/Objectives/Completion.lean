import StackOwl.Objectives.Driver

/-!
# Completing a plain objective

The driver infers that a plain objective is complete from `next_pending_subgoal` alone.  A
sub-goal that is left `running` by a crash or an exception, or `failed` by one between its
row and the objective's, is not pending either, and no tick looks for it.

## Main results

* `consistent_turn` — what every turn of the tick preserves, per await.
* `completion_sound` — in a run that no crash or exception interrupts between a sub-goal's
  `running` row and the last row of its outcome, an objective that is done has all its
  sub-goals done, and no tick finds one stranded.
-/

namespace StackOwl.Objectives

open Lib

/-! ## What holds at each await -/

/-- The driver counts on the sub-goal to be run, or is done with it. -/
def Calm (st : SubgoalStatus) : Prop := st = .pending ∨ st = .done

/-- The sub-goal waits for the objective to be requeued. -/
def Stuck (st : SubgoalStatus) : Prop := st = .failed ∨ st = .blocked

/-- Every sub-goal is calm, but those under `id`, which have `P`. -/
def AllBut (id : String) (P : SubgoalStatus → Prop) (subgoals : List Subgoal) : Prop :=
  ∀ sg ∈ subgoals, sg.id = id ∧ P sg.status ∨ Calm sg.status

def AllCalm (subgoals : List Subgoal) : Prop := ∀ sg ∈ subgoals, Calm sg.status

def AllDone (subgoals : List Subgoal) : Prop := ∀ sg ∈ subgoals, sg.status = .done

/-- Between two ticks. -/
structure Resting (status : ObjectiveStatus) (kind : Option BlockerKind)
    (subgoals : List Subgoal) : Prop where
  active : status = .active → AllCalm subgoals
  blocked : status = .blocked → kind = some .transient → ∃ id, AllBut id Stuck subgoals
  done : status = .done → AllDone subgoals

/-- What the tick of a plain objective relies on at each await. -/
def Consistent (w : World) : Prop :=
  match w.tick with
  | .idle | .listing | .settling [] => Resting w.status w.blockerKind w.subgoals
  | .requeueing => w.status = .blocked ∧ ∃ id, AllBut id Stuck w.subgoals
  | .resetting id => w.status = .blocked ∧ AllBut id Stuck w.subgoals
  | .reactivating => w.status = .blocked ∧ AllCalm w.subgoals
  | .listed | .planning _ | .splitting _ _ | .marking _ =>
    w.status = .active ∧ AllCalm w.subgoals
  | .completing => w.status = .active ∧ AllDone w.subgoals
  | .stopping | .announcing => w.status = .done ∧ AllDone w.subgoals
  | .running sg => w.status = .active ∧ AllBut sg.id (· = .running) w.subgoals
  | .settling [.subgoal id st _] =>
    w.status = .active ∧ Calm st ∧ AllBut id (fun _ => True) w.subgoals
  | .settling [.subgoal id st _, .block _] =>
    w.status = .active ∧ Stuck st ∧ AllBut id (fun _ => True) w.subgoals
  | .settling [.block _] =>
    w.status = .active ∧ ∃ id, AllBut id Stuck w.subgoals
  | _ => False

/-- A plain objective, and no background task. -/
structure Plain (w : World) : Prop where
  plain : w.epic = false
  storyless : ∀ id, w.stories id = none
  consistent : Consistent w

/-! ## Rows -/

theorem AllCalm.allBut {subgoals : List Subgoal} (h : AllCalm subgoals) (id : String)
    (P : SubgoalStatus → Prop) : AllBut id P subgoals :=
  fun sg hSg => .inr (h sg hSg)

theorem AllDone.allCalm {subgoals : List Subgoal} (h : AllDone subgoals) : AllCalm subgoals :=
  fun sg hSg => .inr (h sg hSg)

variable {id : String}

theorem AllBut.mono {P Q : SubgoalStatus → Prop} {subgoals : List Subgoal}
    (h : AllBut id P subgoals) (hPQ : ∀ st, P st → Q st) : AllBut id Q subgoals :=
  fun sg hSg => (h sg hSg).imp_left fun hP => ⟨hP.1, hPQ _ hP.2⟩

theorem AllBut.update {P : SubgoalStatus → Prop} {subgoals : List Subgoal}
    (h : AllBut id P subgoals) (st : SubgoalStatus) (attempts : Option Nat) :
    AllBut id (· = st) (updateSubgoal id st attempts subgoals) := by
  intro sg hSg
  rcases mem_updateSubgoal.mp hSg with ⟨before, -, hId, rfl⟩ | ⟨hId, hBefore⟩
  · exact .inl ⟨hId, rfl⟩
  · rcases h sg hBefore with ⟨hSame, -⟩ | hCalm
    · exact absurd hSame hId
    · exact .inr hCalm

theorem AllBut.calm {st : SubgoalStatus} {subgoals : List Subgoal}
    (h : AllBut id (· = st) subgoals) (hCalm : Calm st) : AllCalm subgoals := by
  intro sg hSg
  rcases h sg hSg with ⟨-, hStatus⟩ | hOther
  · rwa [hStatus]
  · exact hOther

theorem AllDone.stopLive {subgoals : List Subgoal} (h : AllDone subgoals) :
    AllDone (stopLive subgoals) := by
  intro sg hSg
  obtain ⟨before, hBefore, rfl⟩ := List.mem_map.mp hSg
  simp [h before hBefore]

theorem AllCalm.replace {subgoals : List Subgoal} (h : AllCalm subgoals) (parent : Subgoal)
    (children : List (String × Rat)) :
    AllCalm (replaceWithChildren parent children subgoals) := by
  intro sg hSg
  simp only [replaceWithChildren] at hSg
  split at hSg
  · obtain ⟨before, hBefore, hMem⟩ := List.mem_flatMap.mp hSg
    split at hMem
    · obtain ⟨child, -, rfl⟩ := List.mem_map.mp hMem
      exact .inl rfl
    · rw [List.mem_singleton.mp hMem]
      exact h before hBefore
  · exact h sg hSg

theorem AllCalm.allDone {subgoals : List Subgoal} (h : AllCalm subgoals)
    (hNext : nextPending subgoals = none) : AllDone subgoals := by
  intro sg hSg
  have hNot : sg.status ≠ .pending := by
    simpa using List.find?_eq_none.mp hNext sg hSg
  exact (h sg hSg).resolve_left hNot

/-! ## One turn -/

section

variable {status : ObjectiveStatus} {kind : Option BlockerKind} {subgoals : List Subgoal}

theorem Resting.of_active (hStatus : status = .active) (hCalm : AllCalm subgoals) :
    Resting status kind subgoals where
  active := fun _ => hCalm
  blocked := fun hBlocked => by simp [hStatus] at hBlocked
  done := fun hDone => by simp [hStatus] at hDone

theorem Resting.of_blocked {id : String} (hStatus : status = .blocked)
    (hRows : AllBut id Stuck subgoals) : Resting status kind subgoals where
  active := fun hActive => by simp [hStatus] at hActive
  blocked := fun _ _ => ⟨id, hRows⟩
  done := fun hDone => by simp [hStatus] at hDone

theorem Resting.of_done (hStatus : status = .done) (hDone : AllDone subgoals) :
    Resting status kind subgoals where
  active := fun hActive => by simp [hStatus] at hActive
  blocked := fun hBlocked => by simp [hStatus] at hBlocked
  done := fun _ => hDone

end

variable {w : World}

theorem consistent_settle {sg : Subgoal} (o : Outcome) (hStatus : w.status = .active)
    (hRows : AllBut sg.id (· = .running) w.subgoals) :
    Consistent { w with tick := .settling (settle w.unify sg o) } := by
  have hAny : AllBut sg.id (fun _ => True) w.subgoals := hRows.mono fun _ _ => trivial
  cases o with
  | success => exact ⟨hStatus, .inr rfl, hAny⟩
  | irreversiblePark => exact ⟨hStatus, .inr rfl, hAny⟩
  | refuted => exact ⟨hStatus, .inl rfl, hAny⟩
  | error | reversiblePark =>
    simp only [settle, onSubgoalFailure]
    split
    · exact ⟨hStatus, .inl rfl, hAny⟩
    · exact ⟨hStatus, .inl rfl, hAny⟩

theorem consistent_apply {x : Write} {rest : List Write} (h : Consistent w)
    (hTick : w.tick = .settling (x :: rest)) :
    Consistent { w.apply x with tick := .settling rest } := by
  simp only [Consistent, hTick] at h
  cases x with
  | subgoal id st attempts =>
    match rest, h with
    | [], ⟨hStatus, hCalm, hRows⟩ =>
      exact .of_active hStatus ((hRows.update st attempts).calm hCalm)
    | [.block kind], ⟨hStatus, hStuck, hRows⟩ =>
      refine ⟨hStatus, id, (hRows.update st attempts).mono ?_⟩
      rintro _ rfl
      exact hStuck
  | block kind =>
    match rest, h with
    | [], ⟨_, id, hRows⟩ => exact Resting.of_blocked rfl hRows

theorem consistent_turn (h : Plain w) (reply : TickReply) :
    Consistent (w.turn reply) := by
  have hAt := h.consistent
  unfold Consistent at hAt
  cases hTick : w.tick <;> simp only [World.turn, hTick] at hAt ⊢
  case idle => exact h.consistent
  case requeueing =>
    obtain ⟨hStatus, id, hRows⟩ := hAt
    cases hFind : w.subgoals.find? fun sg => sg.status = .failed ∨ sg.status = .blocked with
    | none =>
      refine ⟨hStatus, fun sg hSg => ?_⟩
      have hNot : ¬ Stuck sg.status := by
        simpa [Stuck] using List.find?_eq_none.mp hFind sg hSg
      rcases hRows sg hSg with ⟨-, hStuck⟩ | hCalm
      · exact absurd hStuck hNot
      · exact hCalm
    | some sg =>
      -- the only sub-goal that is not calm is the one found
      have hStuck : Stuck sg.status := by simpa [Stuck] using List.find?_some hFind
      have hId : sg.id = id := by
        rcases hRows sg (List.mem_of_find?_eq_some hFind) with ⟨hSame, -⟩ | hCalm
        · exact hSame
        · rcases hStuck with hFailed | hBlocked
          · simp [Calm, hFailed] at hCalm
          · simp [Calm, hBlocked] at hCalm
      exact ⟨hStatus, hId ▸ hRows⟩
  case resetting id => exact ⟨hAt.1, (hAt.2.update .pending (some 0)).calm (.inl rfl)⟩
  case reactivating => exact .of_active rfl hAt.2
  case listing =>
    by_cases hActive : w.status = .active
    · rw [if_pos hActive]
      exact ⟨hActive, hAt.active hActive⟩
    · rw [if_neg hActive]
      exact hAt
  case listed =>
    simp only [World.advance, h.plain]
    cases hNext : nextPending w.subgoals with
    | none => exact ⟨hAt.1, hAt.2.allDone hNext⟩
    | some sg =>
      simp only [Bool.false_eq_true, if_false]
      split
      · exact hAt
      · exact hAt
  case completing => exact ⟨rfl, hAt.2⟩
  case stopping => exact ⟨hAt.1, hAt.2.stopLive⟩
  case announcing => exact .of_done hAt.1 hAt.2
  case planning sg =>
    split
    · split
      · exact hAt
      · exact hAt
    · exact hAt
  case splitting sg specs => exact .of_active hAt.1 (hAt.2.replace sg specs)
  case marking sg => exact ⟨hAt.1, (hAt.2.allBut sg.id fun _ => True).update .running none⟩
  case running sg =>
    cases reply with
    | outcome o => exact consistent_settle o hAt.1 hAt.2
    | _ =>
      simp only [Consistent, hTick]
      exact hAt
  case settling writes =>
    cases writes with
    | nil => exact hAt
    | cons x rest => exact consistent_apply h.consistent hTick

/-! ## Runs -/

/-- No crash and no exception between a sub-goal's `running` row and the last row of its
outcome, and nobody else ends the objective. -/
def Undisturbed (w : World) : Event → Prop
  | .crash | .raised =>
    match w.tick with
    | .running _ | .settling (_ :: _) => False
    | _ => True
  | .abandon | .abandonStops => False
  | _ => True

/-- A tick can be given up at any await but those of a run and its outcome. -/
theorem consistent_dropped {w w' : World} (h : Consistent w) (hRows : w'.subgoals = w.subgoals)
    (hStatus : w'.status = w.status) (hKind : w'.blockerKind = w.blockerKind)
    (hIdle : w'.tick = .idle) (hFree : Undisturbed w .raised) : Consistent w' := by
  have hResting : Resting w.status w.blockerKind w.subgoals := by
    unfold Consistent at h
    cases hTick : w.tick <;> simp only [hTick] at h
    case idle | listing => exact h
    case requeueing =>
      obtain ⟨hBlocked, id, hBut⟩ := h
      exact .of_blocked hBlocked hBut
    case resetting id => exact .of_blocked h.1 h.2
    case reactivating => exact .of_blocked h.1 (h.2.allBut "" Stuck)
    case listed | planning _ | splitting _ _ | marking _ => exact .of_active h.1 h.2
    case completing => exact .of_active h.1 h.2.allCalm
    case stopping | announcing => exact .of_done h.1 h.2
    case settling writes =>
      cases writes with
      | nil => exact h
      | cons x rest => simp [Undisturbed, hTick] at hFree
    case running sg => simp [Undisturbed, hTick] at hFree
  simp only [Consistent, hIdle, hStatus, hKind, hRows]
  exact hResting

theorem Plain.not_launching (h : Plain w) (sg : Subgoal) (rest : List Subgoal) :
    w.tick ≠ .launching (sg :: rest) := by
  intro hTick
  have hAt := h.consistent
  simp only [Consistent, hTick] at hAt

theorem plain_step (h : Plain w) (e : Event) (hFree : Undisturbed w e) :
    Plain (step w e) := by
  cases e with
  | fire cooled =>
    have hAt := h.consistent
    simp only [step]
    split
    · next hIdle =>
        simp only [Consistent, hIdle] at hAt
        split
        · next hBlocked =>
            exact ⟨h.plain, h.storyless, hBlocked.1, hAt.blocked hBlocked.1 hBlocked.2.1⟩
        · exact ⟨h.plain, h.storyless, hAt⟩
    · exact h
  | turn reply =>
    have hFrame := turn_frame w reply h.not_launching
    exact ⟨hFrame.1.trans h.plain, fun id => (congrFun hFrame.2 id).trans (h.storyless id),
      consistent_turn h reply⟩
  | raised =>
    exact ⟨h.plain, h.storyless, consistent_dropped h.consistent rfl rfl rfl rfl hFree⟩
  | story id reply =>
    simp only [step, h.storyless id]
    exact h
  | storyRaised id =>
    refine ⟨h.plain, fun other => ?_, h.consistent⟩
    by_cases hId : other = id
    · simp [step, World.endStory, World.setStory, hId]
    · simpa [step, World.endStory, World.setStory, hId] using h.storyless other
  | crash =>
    exact ⟨h.plain, fun _ => rfl, consistent_dropped h.consistent rfl rfl rfl rfl hFree⟩
  | abandon | abandonStops => exact hFree.elim

theorem plain_start (p : Plan) (unify : Bool) : Plain (p.start false unify) where
  plain := rfl
  storyless := fun _ => rfl
  consistent := by
    refine .of_active rfl fun sg hSg => ?_
    obtain ⟨row, -, rfl⟩ := List.mem_map.mp hSg
    exact .inl rfl

theorem Plain.allDone (h : Plain w) (hDone : w.status = .done) :
    AllDone w.subgoals := by
  have hAt := h.consistent
  simp only [Consistent] at hAt
  split at hAt
  all_goals first
    | exact hAt.done hDone
    | exact hAt.2
    | simp [hDone] at hAt

theorem plain_run (p : Plan) (unify : Bool) (events : List Event)
    (h : Meets step Undisturbed (p.start false unify) events) :
    Along step Plain (p.start false unify) events := by
  have hStep : ∀ w e, Plain w → Undisturbed w e → Plain (step w e) :=
    fun w e hPlain hFree => plain_step hPlain e hFree
  exact along_of_meets hStep (plain_start p unify) h

/-- A tick does not count on the sub-goal: its run was lost, or nobody requeued it. -/
def Stranded (st : SubgoalStatus) : Prop := st = .running ∨ st = .failed ∨ st = .blocked

/-- A sub-goal that a tick of the active objective finds stranded is run again, or the
objective is blocked, before the objective is done. -/
def Accounted (w : World) (events : List Event) : Prop :=
  ∀ before after, events = before ++ after →
    (run step w before).tick = .listed →
      ∀ sg ∈ (run step w before).subgoals, Stranded sg.status →
        Until step (fun v => v.status ≠ .done)
          (fun v => v.status = .blocked ∨
            (run step w before).started.count sg.id < v.started.count sg.id)
          (run step w before) after

/-- **Completion.**  In a run that no crash or exception interrupts between a sub-goal's
`running` row and the last row of its outcome, a plain objective that is done has all its
sub-goals done, and no stranded sub-goal is passed over. -/
theorem completion_sound (p : Plan) (unify : Bool) (events : List Event)
    (h : Meets step Undisturbed (p.start false unify) events) :
    Along step (fun w => w.status = .done → AllDone w.subgoals) (p.start false unify) events ∧
      Accounted (p.start false unify) events := by
  have hPlain := plain_run p unify events h
  refine ⟨hPlain.mono fun w hw => hw.allDone, ?_⟩
  rintro before after rfl hListed sg hSg hStranded
  have hAt := hPlain.reached.consistent
  simp only [Consistent, hListed] at hAt
  rcases hAt.2 sg hSg with hPending | hDone
  · simp [Stranded, hPending] at hStranded
  · simp [Stranded, hDone] at hStranded

def twoSteps : Plan := ⟨[("first", 0, []), ("second", 0, [])], by decide⟩

/-- One tick, that runs the next sub-goal to a success. -/
def successfulTick : List Event :=
  [.fire false, .turn .ok, .turn .ok, .turn .ok, .turn (.outcome .success), .turn .ok, .turn .ok]

def completingTick : List Event :=
  [.fire false, .turn .ok, .turn .ok, .turn .ok, .turn .ok, .turn .ok]

/-- Both steps succeed. -/
theorem completion_twoSteps :
    let events := successfulTick ++ successfulTick ++ completingTick
    (run step (twoSteps.start false true) events).announced = 1 ∧
      Along step (fun w => w.status = .done → AllDone w.subgoals) (twoSteps.start false true)
        events ∧
      Accounted (twoSteps.start false true) events := by
  refine ⟨by decide, completion_sound twoSteps true _ ?_⟩
  simp [Meets, Undisturbed, successfulTick, completingTick]

/-- The process dies while the first step runs. -/
def crashedRun : List Event :=
  [.fire false, .turn .ok, .turn .ok, .turn .ok, .crash] ++ successfulTick ++ completingTick

/-- **The run is lost.**  The objective is announced as complete, and the step whose run the
crash lost was stopped with it. -/
theorem crashed_step_passed_over :
    ¬ Along step (fun w => w.status = .done → AllDone w.subgoals) (twoSteps.start false true)
        crashedRun ∧
      (run step (twoSteps.start false true) crashedRun).announced = 1 ∧
      (run step (twoSteps.start false true) crashedRun).subgoals.map Subgoal.status =
        [.blocked, .done] := by
  refine ⟨fun hAlong => ?_, by decide, by decide⟩
  have hDone : AllDone (run step (twoSteps.start false true) crashedRun).subgoals :=
    hAlong.last (by decide)
  have hBlocked : ¬ AllDone (run step (twoSteps.start false true) crashedRun).subgoals := by
    unfold AllDone
    decide
  exact hBlocked hDone

end StackOwl.Objectives
