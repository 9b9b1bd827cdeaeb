import StackOwl.Durable.FailureClass
import StackOwl.Durable.Store
import StackOwl.Lib.Text
import StackOwl.Objectives.Graph

/-!
# Splitting a task

When a failing task is split and into what (`pipeline/durable/decompose.py`), with the
two readings of the store the decision rests on (`wants_reshaping`,
`count_prior_reshaping_failures`).

## Main results

* `nodup_childIds` — the children of one plan have different ids.
* `planSubtasks_child` — every child is a pending goal of the loop, with no key that an
  index but the primary one covers.
-/

namespace StackOwl.Durable

open Lib Objectives

/-! ## When -/

def RESHAPING_CLASSES : List String := ["budget"]

def wantsReshaping (failureClass : String) : Bool := failureClass ∈ RESHAPING_CLASSES

def DECOMPOSE_AFTER_ATTEMPTS : Int := 3

variable (task : DurableTask)

def shouldDecompose (priorFailures : Int) : Bool :=
  decide (DECOMPOSE_AFTER_ATTEMPTS ≤ task.attemptCount + max 0 priorFailures) &&
    task.dependsOn.isEmpty && !truthy task.parentTaskId

/-- `count_prior_reshaping_failures`; a count that cannot be read is 0. -/
def countPriorReshapingFailures (owner goal : String) (unreadable : Bool) (db : Db) :
    Int :=
  if goal = "" ∨ unreadable then 0
  else db.tasks.rows.countP (fun r =>
    r.ownerId == owner && r.goal == goal &&
      r.lastFailureClass.any (· ∈ RESHAPING_CLASSES) &&
      r.status ∈ [TaskStatus.failed, .completed, .deadLetter])

/-! ## Into what -/

/-- `ObjectiveDecomposer.decompose_specs`, which may raise. -/
abbrev Decomposer := String → Option (List SubgoalSpec)

/-- `f"{task.task_id}-sub{i}-{hex}"`. -/
def childId (taskId : String) (hex : Nat → String) (i : Nat) : String :=
  taskId ++ "-sub" ++ i.repr ++ "-" ++ hex i

/-- The achievement of a child whose spec declares none. -/
def STEP_DONE : String := "this step is done and its result is available to the parent"

def childOf (hex : Nat → String) (n : Nat) (now : Stamp) (spec : SubgoalSpec) (i : Nat)
    : DurableTask where
  taskId := childId task.taskId hex i
  goal := spec.description
  status := .pending
  triggerKind := some "subgoal"
  parentTaskId := some task.taskId
  dependsOn := (spec.dependsOn.filter (fun j : Int => 0 ≤ j ∧ j < n ∧ j ≠ i)).map
    (fun j => childId task.taskId hex j.toNat)
  destination := task.destination
  context := { channel := task.context.channel, owlName := task.context.owlName }
  sessionKey := task.sessionKey
  achievement := some (spec.criteria.getD STEP_DONE)
  maxAttempts := task.maxAttempts
  createdAt := now
  updatedAt := now

variable (decomposer : Option Decomposer)

/-- `plan_subtasks`: `hex i` is the six digits `uuid4` gives the id of the child. -/
def planSubtasks (hex : Nat → String) (now : Stamp) : List DurableTask :=
  match decomposer with
  | none => []
  | some decomposeSpecs =>
    let goal := String.ofList (strip task.goal.toList)
    if goal = "" then []
    else
      match decomposeSpecs goal with
      | none => []
      | some specs =>
        if specs.length < 2 then []
        else if (validateGraph specs).isSome then []
        else specs.mapIdx fun i spec => childOf task hex specs.length now spec i

/-! ## The children of one plan -/

theorem childId_inj {taskId : String} {hex : Nat → String} {i j : Nat}
    (h : childId taskId hex i = childId taskId hex j) : i = j := by
  have hdash : ∀ n : Nat, '-' ∉ n.repr.toList := by
    intro n hmem
    exact absurd (isDigit_of_mem_repr hmem) (by decide)
  have htexts : i.repr.toList ++ '-' :: (hex i).toList =
      j.repr.toList ++ '-' :: (hex j).toList := by
    simpa [childId, String.toList_append, List.append_assoc] using
      congrArg String.toList h
  exact repr_inj (String.toList_inj.mp (split_first (hdash i) (hdash j) htexts).1)

/-- What `plan_subtasks` returns: nothing, or the children of an accepted batch. -/
theorem planSubtasks_accepted (hex : Nat → String) (now : Stamp) :
    planSubtasks task decomposer hex now = [] ∨
      ∃ specs : List SubgoalSpec, 2 ≤ specs.length ∧ validateGraph specs = none ∧
        planSubtasks task decomposer hex now =
          specs.mapIdx fun i spec => childOf task hex specs.length now spec i := by
  unfold planSubtasks
  split
  · exact .inl rfl
  · dsimp only
    split
    · exact .inl rfl
    · split
      · exact .inl rfl
      · split
        · exact .inl rfl
        · rename_i specs _ hlen
          split
          · exact .inl rfl
          · rename_i hvalid
            exact .inr ⟨specs, Nat.not_lt.mp hlen, by simpa using hvalid, rfl⟩

/-- What `plan_subtasks` returns: nothing, or the children of a batch of at least two. -/
theorem planSubtasks_cases (hex : Nat → String) (now : Stamp) :
    planSubtasks task decomposer hex now = [] ∨
      ∃ specs : List SubgoalSpec, 2 ≤ specs.length ∧ planSubtasks task decomposer hex now =
        specs.mapIdx fun i spec => childOf task hex specs.length now spec i := by
  obtain hnil | ⟨specs, hlen, -, hplan⟩ := planSubtasks_accepted task decomposer hex now
  · exact .inl hnil
  · exact .inr ⟨specs, hlen, hplan⟩

theorem planSubtasks_child {task : DurableTask} {decomposer : Option Decomposer}
    {hex : Nat → String} {now : Stamp} {child : DurableTask}
    (h : child ∈ planSubtasks task decomposer hex now) :
    ∃ n spec i, child = childOf task hex n now spec i := by
  obtain hnil | ⟨specs, -, hplan⟩ := planSubtasks_cases task decomposer hex now
  · rw [hnil] at h
    cases h
  · rw [hplan] at h
    obtain ⟨i, hi, rfl⟩ := List.mem_mapIdx.mp h
    exact ⟨_, _, i, rfl⟩

/-- **The children of one plan have different ids.** -/
theorem nodup_childIds (hex : Nat → String) (now : Stamp) :
    ((planSubtasks task decomposer hex now).map DurableTask.taskId).Nodup := by
  obtain hnil | ⟨specs, -, hplan⟩ := planSubtasks_cases task decomposer hex now
  · rw [hnil]
    exact List.nodup_nil
  · have hids : (planSubtasks task decomposer hex now).map DurableTask.taskId =
        (List.range specs.length).map (childId task.taskId hex) := by
      rw [hplan]
      refine List.ext_getElem (by simp) fun i hi _ => ?_
      simp [childOf]
    rw [hids]
    exact List.nodup_range.map fun i j => childId_inj

end StackOwl.Durable
