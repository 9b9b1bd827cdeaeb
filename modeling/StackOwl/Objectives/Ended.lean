import StackOwl.Objectives.Driver

/-!
# An ended objective

`update_status` and `update_subgoal` write whatever the rows hold, so an objective that is
abandoned stays so only if nothing that has already read it as live writes afterwards: a
tick past its list of active objectives, or a background story.

## Main results

* `ended_turn` — a turn of the tick keeps an ended objective ended.
* `stays_ended` — in a run in which the objective is abandoned only while no tick has it in
  hand and no story runs, every step of the ended objective leaves it ended.
-/

namespace StackOwl.Objectives

open Lib

/-! ## Ending -/

/-- The driver wrote `done`, or someone `abandoned`. -/
def World.hasEnded (w : World) : Prop := w.status = .abandoned ∨ w.status = .done

/-- The sub-goal is live, or done. -/
def Moving (st : SubgoalStatus) : Prop := st = .pending ∨ st = .running ∨ st = .done

/-- A step keeps an ended objective ended: its status does not become active, blocked or
done, no sub-goal becomes pending, running or done, and no run or story is started. -/
structure StaysEnded (w w' : World) : Prop where
  status : w'.status = w.status ∨ w'.status = .abandoned
  subgoals : ∀ sg' ∈ w'.subgoals, Moving sg'.status →
    ∃ sg ∈ w.subgoals, sg.id = sg'.id ∧ sg.status = sg'.status
  started : w'.started = w.started

/-- What the tick awaits is followed by no write of a row that is live or done. -/
def Tick.quiet : Tick → Bool
  | .idle | .listing | .stopping | .announcing | .settling [] => true
  | _ => false

def Tick.ofEpic : Tick → Bool
  | .orphan _ _ | .recovering _ _ _ | .relisting | .launching _ | .settlingEpic | .blocking =>
    true
  | _ => false

/-- The objective is abandoned while no tick has it in hand and none of its stories runs. -/
def AtRest (w : World) : Event → Prop
  | .abandon => w.tick.quiet = true ∧ ∀ id, w.stories id = none
  | _ => True

structure Orderly (w : World) : Prop where
  plain : w.epic = false → ∀ id, w.stories id = none
  ofEpic : w.tick.ofEpic = true → w.epic = true
  completing : w.tick = .completing → w.epic = false
  ended : w.hasEnded → w.tick.quiet = true ∧ ∀ id, w.stories id = none

/-! ## One turn -/

theorem StaysEnded.of_same {w w' : World} (hStatus : w'.status = w.status)
    (hRows : w'.subgoals = w.subgoals) (hStarted : w'.started = w.started) : StaysEnded w w' where
  status := .inl hStatus
  subgoals := by
    rw [hRows]
    exact fun sg hSg _ => ⟨sg, hSg, rfl, rfl⟩
  started := hStarted

theorem stopLive_moving {subgoals : List Subgoal} {sg' : Subgoal}
    (hSg : sg' ∈ stopLive subgoals) (hMoving : Moving sg'.status) : sg' ∈ subgoals := by
  obtain ⟨sg, hBefore, rfl⟩ := List.mem_map.mp hSg
  split at hMoving
  · rcases hMoving with h | h | h <;> simp at h
  · next hLive => simpa [hLive] using hBefore

theorem StaysEnded.of_stopLive {w w' : World} (hStatus : w'.status = w.status)
    (hRows : w'.subgoals = stopLive w.subgoals) (hStarted : w'.started = w.started) :
    StaysEnded w w' where
  status := .inl hStatus
  subgoals := by
    rw [hRows]
    exact fun sg' hSg hMoving => ⟨sg', stopLive_moving hSg hMoving, rfl, rfl⟩
  started := hStarted

variable {w : World}

theorem ended_turn (h : Orderly w) (hEnded : w.hasEnded) (reply : TickReply) :
    StaysEnded w (w.turn reply) ∧ (w.turn reply).hasEnded ∧ (w.turn reply).tick.quiet = true := by
  have hQuiet := (h.ended hEnded).1
  have hNotActive : w.status ≠ .active := by
    rintro hActive
    rcases hEnded with hStatus | hStatus <;> simp [hStatus] at hActive
  cases hTick : w.tick with
  | idle =>
    simp only [World.turn, hTick]
    exact ⟨.of_same rfl rfl rfl, hEnded, rfl⟩
  | listing =>
    simp only [World.turn, hTick, if_neg hNotActive]
    exact ⟨.of_same rfl rfl rfl, hEnded, rfl⟩
  | stopping =>
    simp only [World.turn, hTick]
    exact ⟨.of_stopLive rfl rfl rfl, hEnded, rfl⟩
  | announcing =>
    simp only [World.turn, hTick]
    exact ⟨.of_same rfl rfl rfl, hEnded, rfl⟩
  | settling writes =>
    cases writes with
    | nil =>
      simp only [World.turn, hTick]
      exact ⟨.of_same rfl rfl rfl, hEnded, rfl⟩
    | cons x rest => simp [hTick, Tick.quiet] at hQuiet
  | _ => simp [hTick, Tick.quiet] at hQuiet

/-- A turn writes `done` at one await only, and never `abandoned`. -/
theorem ends_of_completing (hNot : ¬ w.hasEnded) {reply : TickReply}
    (hEnded : (w.turn reply).hasEnded) : w.tick = .completing := by
  by_contra hOther
  refine hNot ?_
  cases hTick : w.tick <;> simp only [World.turn, hTick] at hEnded
  case completing => exact absurd hTick hOther
  case requeueing => split at hEnded <;> exact hEnded
  case listed =>
    simp only [World.advance, World.advanceEpic] at hEnded
    split at hEnded
    · split at hEnded <;> exact hEnded
    · split at hEnded
      · exact hEnded
      · split at hEnded <;> exact hEnded
  case planning sg =>
    split at hEnded
    · split at hEnded <;> exact hEnded
    · exact hEnded
  case running sg => cases reply <;> exact hEnded
  case orphan sg rest => cases reply <;> exact hEnded
  case settling writes =>
    cases writes with
    | nil => exact hEnded
    | cons x rest =>
      cases x with
      | subgoal id st attempts => exact hEnded
      | block kind => simp [World.hasEnded, World.apply, World.setStatus] at hEnded
  case recovering sg restart rest => cases restart <;> cases rest <;> exact hEnded
  case launching rest => cases rest <;> exact hEnded
  case settlingEpic =>
    simp only [World.settleEpic] at hEnded
    split at hEnded <;> exact hEnded
  all_goals
    first
      | exact hEnded
      | simp [World.hasEnded, World.setStatus] at hEnded

/-- What the tick awaits next belongs to an epic, or completes a plain objective. -/
theorem turn_kind (h : Orderly w) (reply : TickReply) :
    ((w.turn reply).tick.ofEpic = true → w.epic = true) ∧
      ((w.turn reply).tick = .completing → w.epic = false) := by
  have hEpic := h.ofEpic
  have hCompleting := h.completing
  cases hTick : w.tick <;> simp only [World.turn, hTick]
  all_goals simp only [hTick, Tick.ofEpic, forall_const] at hEpic
  case relisting | blocking => simp [World.launchReady, hEpic]
  case listing | requeueing => split <;> simp [Tick.ofEpic]
  case listed =>
    simp only [World.advance, World.advanceEpic]
    split
    · next hIs =>
        split
        · simp [World.launchReady, hIs]
        · simp [World.recoverRest, hIs]
    · next hIs =>
        have hPlain : w.epic = false := by simpa using hIs
        split
        · simp [Tick.ofEpic, hPlain]
        · split <;> simp [Tick.ofEpic]
  case planning sg =>
    split
    · split <;> simp [Tick.ofEpic]
    · simp [Tick.ofEpic]
  case running sg => cases reply <;> simp [hTick, Tick.ofEpic]
  case settling writes => cases writes <;> simp [Tick.ofEpic]
  case orphan sg rest => cases reply <;> simp [hTick, hEpic]
  case recovering sg restart rest =>
    cases restart <;> cases rest <;> simp [World.recoverRest, hEpic]
  case launching rest => cases rest <;> simp [World.launch, hEpic]
  case settlingEpic =>
    simp only [World.settleEpic]
    split <;> simp [hEpic]
  all_goals simp [Tick.ofEpic]

/-! ## Runs -/

theorem endStory_storyless (h : ∀ id, w.stories id = none) (id other : String) :
    (w.endStory id).stories other = none := by
  by_cases hId : other = id
  · simp [World.endStory, World.setStory, hId]
  · simpa [World.endStory, World.setStory, hId] using h other

theorem orderly_turn (h : Orderly w) (reply : TickReply) :
    Orderly (w.turn reply) := by
  have hPlain : w.epic = false → ∀ sg rest, w.tick ≠ .launching (sg :: rest) := by
    intro hIs sg rest hTick
    simp [h.ofEpic (by simp [hTick, Tick.ofEpic])] at hIs
  by_cases hLaunch : ∃ sg rest, w.tick = .launching (sg :: rest)
  · -- a launch: the objective is an epic, and still active
    obtain ⟨sg, rest, hTick⟩ := hLaunch
    have hEpic : w.epic = true := h.ofEpic (by simp [hTick, Tick.ofEpic])
    have hNot : ¬ w.hasEnded := by
      intro hEnded
      simpa [hTick, Tick.quiet] using (h.ended hEnded).1
    have hStill : ¬ (w.turn reply).hasEnded := by
      intro hEnded
      simp [ends_of_completing hNot hEnded] at hTick
    have hSame : (w.turn reply).epic = w.epic := by simp [World.turn, hTick, World.launch,
      World.setSubgoal, World.setStory]
    exact ⟨fun hIs => by simp [hSame, hEpic] at hIs,
      fun hOf => hSame ▸ (turn_kind h reply).1 hOf,
      fun hIs => hSame ▸ (turn_kind h reply).2 hIs, fun hEnded => absurd hEnded hStill⟩
  · have hFrame := turn_frame w reply fun sg rest hTick => hLaunch ⟨sg, rest, hTick⟩
    have hStories : (∀ id, w.stories id = none) → ∀ id, (w.turn reply).stories id = none :=
      fun hNone id => (congrFun hFrame.2 id).trans (hNone id)
    refine ⟨fun hIs => hStories (h.plain (hFrame.1 ▸ hIs)),
      fun hOf => hFrame.1.trans ((turn_kind h reply).1 hOf),
      fun hIs => hFrame.1.trans ((turn_kind h reply).2 hIs), fun hEnded => ?_⟩
    by_cases hBefore : w.hasEnded
    · exact ⟨(ended_turn h hBefore reply).2.2, hStories (h.ended hBefore).2⟩
    · have hTick := ends_of_completing hBefore hEnded
      refine ⟨?_, hStories (h.plain (h.completing hTick))⟩
      simp [World.turn, hTick, Tick.quiet]

theorem orderly_step (h : Orderly w) (e : Event) (hRest : AtRest w e) :
    Orderly (step w e) := by
  cases e with
  | fire cooled =>
    simp only [step]
    split
    · split
      · next hBlocked =>
          refine ⟨h.plain, by simp [Tick.ofEpic], by simp, fun hEnded => ?_⟩
          rcases hEnded with hStatus | hStatus <;> simp [hBlocked.1] at hStatus
      · exact ⟨h.plain, by simp [Tick.ofEpic], by simp,
          fun hEnded => ⟨rfl, (h.ended hEnded).2⟩⟩
    · exact h
  | turn reply => exact orderly_turn h reply
  | raised =>
    exact ⟨h.plain, by simp [step, Tick.ofEpic], by simp [step],
      fun hEnded => ⟨rfl, (h.ended hEnded).2⟩⟩
  | story id reply =>
    cases hStory : w.stories id with
    | none => simpa only [step, hStory] using h
    | some s =>
      simp only [step, hStory]
      obtain ⟨hEpic, hStatus, hTick, -⟩ := storyTurn_frame w id s reply
      have hIs : w.epic = true := by
        by_contra hPlain
        simpa [hStory] using h.plain (by simpa using hPlain) id
      refine ⟨fun hPlain => by simp [hEpic, hIs] at hPlain, fun _ => hEpic.trans hIs,
        fun hAt => hEpic.trans (h.completing (hTick.symm.trans hAt)), fun hEnded => ?_⟩
      have hBefore : w.hasEnded := by simpa only [World.hasEnded, hStatus] using hEnded
      simpa [hStory] using (h.ended hBefore).2 id
  | storyRaised id =>
    exact ⟨fun hIs => endStory_storyless (h.plain hIs) id, h.ofEpic, h.completing,
      fun hEnded => ⟨(h.ended hEnded).1, endStory_storyless (h.ended hEnded).2 id⟩⟩
  | crash =>
    exact ⟨fun _ _ => rfl, by simp [step, Tick.ofEpic], by simp [step],
      fun _ => ⟨rfl, fun _ => rfl⟩⟩
  | abandon => exact ⟨h.plain, h.ofEpic, h.completing, fun _ => hRest⟩
  | abandonStops =>
    simp only [step]
    split
    · exact ⟨h.plain, h.ofEpic, h.completing, h.ended⟩
    · exact h

theorem ended_step (h : Orderly w) (e : Event) (hEnded : w.hasEnded) :
    StaysEnded w (step w e) := by
  cases e with
  | fire cooled =>
    simp only [step]
    split
    · split <;> exact .of_same rfl rfl rfl
    · exact .of_same rfl rfl rfl
  | turn reply => exact (ended_turn h hEnded reply).1
  | raised | crash => exact .of_same rfl rfl rfl
  | story id reply =>
    simp only [step, (h.ended hEnded).2 id]
    exact .of_same rfl rfl rfl
  | storyRaised id => exact .of_same rfl rfl rfl
  | abandon => exact ⟨.inr rfl, fun sg hSg _ => ⟨sg, hSg, rfl, rfl⟩, rfl⟩
  | abandonStops =>
    simp only [step]
    split
    · exact .of_stopLive rfl rfl rfl
    · exact .of_same rfl rfl rfl

theorem orderly_start (p : Plan) (epic unify : Bool) : Orderly (p.start epic unify) where
  plain := fun _ _ => rfl
  ofEpic := by simp [Plan.start, Tick.ofEpic]
  completing := by simp [Plan.start]
  ended := by simp [Plan.start, World.hasEnded]

/-- **Ended.**  In a run in which the objective is abandoned only while no tick has it in hand
and none of its stories runs, every step of the ended objective leaves it ended. -/
theorem stays_ended (p : Plan) (epic unify : Bool) (events : List Event)
    (h : Meets step AtRest (p.start epic unify) events) :
    Meets step (fun w e => w.hasEnded → StaysEnded w (step w e)) (p.start epic unify)
      events := by
  have hStep : ∀ w e, Orderly w → AtRest w e → Orderly (step w e) :=
    fun w e hOrderly hRest => orderly_step hOrderly e hRest
  have hEnded : ∀ w e, Orderly w → AtRest w e → w.hasEnded → StaysEnded w (step w e) :=
    fun w e hOrderly _ => ended_step hOrderly e
  exact meets_of_meets hStep hEnded (orderly_start p epic unify) h

def oneStep : Plan := ⟨[("only", 0, [])], by decide⟩

def abandonedAtRest : List Event :=
  [.abandon, .abandonStops, .fire true, .turn .ok, .fire true]

theorem ended_oneStep :
    Meets step (fun w e => w.hasEnded → StaysEnded w (step w e)) (oneStep.start false true)
        abandonedAtRest ∧
      (run step (oneStep.start false true) abandonedAtRest).status = .abandoned := by
  refine ⟨stays_ended oneStep false true _ ?_, by decide⟩
  exact ⟨⟨rfl, fun _ => rfl⟩, trivial, trivial, trivial, trivial, trivial⟩

/-- It is abandoned while its step runs, and the run parks. -/
def abandonedMidRun : List Event :=
  [.fire false, .turn .ok, .turn .ok, .turn .ok, .abandon, .abandonStops,
    .turn (.outcome .irreversiblePark), .turn .ok, .turn .ok]

/-- A story of an epic is abandoned while it runs, and is to be retried. -/
def abandonedStory : List Event :=
  [.fire false, .turn .ok, .turn .ok, .turn .ok, .abandon, .abandonStops,
    .story "only" .ok, .story "only" .ok, .story "only" .ok, .story "only" .retry,
    .story "only" .ok]

/-- **An abandoned objective comes back.**  The tick that runs its step blocks it, and a
story that fails is pending again. -/
theorem abandoned_revived :
    ¬ Meets step (fun w e => w.hasEnded → StaysEnded w (step w e)) (oneStep.start false true)
        abandonedMidRun ∧
      (run step (oneStep.start false true) abandonedMidRun).status = .blocked ∧
      (run step (oneStep.start true true) abandonedStory).status = .abandoned ∧
      (run step (oneStep.start true true) abandonedStory).subgoals.map Subgoal.status =
        [.pending] := by
  refine ⟨fun hMeets => ?_, by decide, by decide, by decide⟩
  have hLast := hMeets.2.2.2.2.2.2.2.2.1 (.inl (by decide))
  have hStatus := hLast.status
  revert hStatus
  decide

end StackOwl.Objectives
