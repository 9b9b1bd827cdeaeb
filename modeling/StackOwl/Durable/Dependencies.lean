import StackOwl.Durable.Delivery

/-!
# Satisfied dependencies

`_deps_satisfied` reads the current rows by id and takes a missing one for
unsatisfied, while `prune_completed` deletes completed rows by age, whoever still
waits on them.  A dependency also stops being satisfied when a write that compares
no status moves its completed row.

## Main results

* `satisfied_of_completed` — completed dependencies satisfy `_deps_satisfied`.
* `dependencies_stay_satisfied` — satisfied dependencies stay so in every run of
  such steps.
-/

namespace StackOwl.Durable

open Lib

variable (owner taskId : String) (deps : List String) (db : Db)

/-- `_deps_satisfied` answers `True`. -/
def Satisfied : Prop :=
  ∀ now, depsSatisfied owner taskId deps now db = .ok (db, true)

/-- The row is pending and depends on `deps`. -/
def WaitsOn : Prop :=
  ∃ r, db.find owner taskId = some r ∧ r.status = .pending ∧
    split r.dependsOn = deps

/-- A step that takes the row of `d` out of `completed` is a prune. -/
def LeavesByPruning (d : String) (db : Db) (op : Op) : Prop :=
  Completed owner d db → ¬ Completed owner d (step db op) →
    ∃ o olderThan commandOlderThan now,
      op = .pruneCompleted o olderThan commandOlderThan now

/-- At some moment of the run the row of `d` was completed, and it has not left
`completed` since, except by pruning. -/
def Reached (d : String) (db : Db) (ops : List Op) : Prop :=
  ∃ earlier later, ops = earlier ++ later ∧
    Completed owner d (run step db earlier) ∧
      Meets step (LeavesByPruning owner d) (run step db earlier) later

/-- Once every dependency of the pending row has reached `completed`, now or
earlier, `_deps_satisfied` answers `True` at every later moment. -/
def StaysSatisfied (ops : List Op) : Prop :=
  ∀ before after, ops = before ++ after →
    WaitsOn owner taskId deps (run step db before) →
    (∀ d ∈ deps, Reached owner d db before) →
      Along step (Satisfied owner taskId deps) (run step db before) after

/-- No completed dependency is pruned, or written by an operation that compares no
status. -/
def KeepsDependencies (op : Op) :
    Prop :=
  ∀ d ∈ deps, ∀ r, db.find owner d = some r → r.status = .completed →
    ¬ reopens owner d r op

theorem satisfied_of_completed {owner taskId : String} {deps : List String}
    {db : Db} (h : ∀ d ∈ deps, Completed owner d db) :
    Satisfied owner taskId deps db := by
  intro now
  have hfailed : failedDeps owner deps db = [] := by
    apply List.filter_eq_nil_iff.mpr
    intro d hd
    rw [show db.status owner d = some .completed from h d hd]
    decide
  have hlanded : depsLanded owner deps db = true := by
    apply List.all_eq_true.mpr
    intro d hd
    rw [show db.status owner d = some .completed from h d hd]
    decide
  rw [depsSatisfied, hfailed, hlanded]

/-- **A satisfied dependency stays satisfied**, in every run that neither prunes a
completed dependency nor writes one without comparing its status. -/
theorem dependencies_stay_satisfied (owner taskId : String) (deps : List String)
    (db : Db) (ops : List Op)
    (h : Meets step (KeepsDependencies owner deps) db ops) :
    StaysSatisfied owner taskId deps db ops := by
  intro before after hops _ hreached
  subst hops
  obtain ⟨hbefore, hafter⟩ := (meets_append db before after).mp h
  have hkept : ∀ d ∈ deps, ∀ s op, Completed owner d s →
      KeepsDependencies owner deps s op → Completed owner d (step s op) :=
    fun d hd s op hdone hop => completed_step hdone (hop d hd)
  have hdone : ∀ d ∈ deps, Completed owner d (run step db before) := by
    intro d hd
    obtain ⟨earlier, later, rfl, hdone, -⟩ := hreached d hd
    rw [run_append]
    have hlater := ((meets_append db earlier later).mp hbefore).2
    exact (along_of_meets (hkept d hd) hdone hlater).last
  have hall := along_of_meets
    (fun s op (hs : ∀ d ∈ deps, Completed owner d s) hop d hd =>
      hkept d hd s op (hs d hd) hop) hdone hafter
  exact hall.mono (fun s hs => satisfied_of_completed hs)

def waitingParent : DurableTask where
  taskId := "parent"
  goal := "ship the release"
  status := .pending
  dependsOn := ["left", "right"]
  createdAt := 0
  updatedAt := 0

def childTask : DurableTask where
  taskId
  goal := "write a part"
  status := .pending
  createdAt := 0
  updatedAt := 0

/-- The children are delivered two days apart, and what was completed more than a
day ago is pruned in between. -/
def slowChildrenRun : List Op :=
  [.enqueue DEFAULT_PRINCIPAL_ID waitingParent,
   .enqueue DEFAULT_PRINCIPAL_ID (childTask "left"),
   .enqueue DEFAULT_PRINCIPAL_ID (childTask "right"),
   .markDelivered DEFAULT_PRINCIPAL_ID "left" "the left part" 1,
   .pruneCompleted DEFAULT_PRINCIPAL_ID 1 31 (2 * DAY),
   .markDelivered DEFAULT_PRINCIPAL_ID "right" "the right part" (2 * DAY + 1)]

/-- Both children were delivered, and the parent is not satisfied. -/
theorem pruned_dependency_unsatisfied :
    ¬ StaysSatisfied DEFAULT_PRINCIPAL_ID "parent" ["left", "right"] Db.fresh
      slowChildrenRun := by
  intro h
  have hsat := h slowChildrenRun [] rfl ⟨_, rfl, rfl, by decide⟩ (fun d hd => by
    rcases List.mem_cons.mp hd with rfl | hd
    · refine ⟨slowChildrenRun.take 4, slowChildrenRun.drop 4, rfl, rfl,
        fun _ _ => ⟨_, _, _, _, rfl⟩, fun hdone => ?_, trivial⟩
      exact absurd hdone (by unfold Completed; decide)
    · obtain rfl := List.mem_singleton.mp hd
      exact ⟨slowChildrenRun, [], rfl, rfl, trivial⟩)
  cases hsat 0

/-- Delivered a day apart, both children are still there when the parent is asked
for. -/
theorem dependencies_stay_satisfied_here :
    StaysSatisfied DEFAULT_PRINCIPAL_ID "parent" ["left", "right"] Db.fresh
      (slowChildrenRun.take 4 ++
        [.pruneCompleted DEFAULT_PRINCIPAL_ID 1 31 DAY,
         .markDelivered DEFAULT_PRINCIPAL_ID "right" "the right part" DAY]) := by
  apply dependencies_stay_satisfied
  refine ⟨?_, ?_, ?_, ?_, ?_, ?_, trivial⟩
  · exact fun _ _ _ _ _ h => h
  · exact fun _ _ _ _ _ h => h
  · exact fun _ _ _ _ _ h => h
  · exact fun _ _ _ _ _ h => h
  · intro d hd r hr hdone
    rcases List.mem_cons.mp hd with rfl | hd
    · cases hr
      show ¬ pruned _ _ _ _ _ = true
      decide
    · obtain rfl := List.mem_singleton.mp hd
      cases hr
      cases hdone
  · exact fun _ _ _ _ _ h => h

end StackOwl.Durable
