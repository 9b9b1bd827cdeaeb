import StackOwl.Durable.Decompose
import StackOwl.Lib.Run
import StackOwl.Objectives.Validation

/-!
# The children of a plan get done

`plan_subtasks` turns the indices of an accepted batch into ids of its own rows.  The
rows depend on each other exactly as the batch does, so a child that is not completed
has, somewhere below it, one whose dependencies all are.

## Main results

* `waits_iff_depends` — the edges of the rows are the edges of the batch.
* `accepted_means_progress` — the validation is exact, an accepted batch becomes its rows, and
  completing ready children never gets stuck.
-/

namespace StackOwl.Durable

open Lib Objectives List

/-! ## Completing children -/

variable (children : List DurableTask)

def completedIds : List String :=
  (children.filter (·.status = .completed)).map DurableTask.taskId

def DepsCompleted (child : DurableTask) : Prop :=
  ∀ dep ∈ child.dependsOn, dep ∈ completedIds children

instance (children : List DurableTask) (child : DurableTask) :
    Decidable (DepsCompleted children child) :=
  inferInstanceAs (Decidable (∀ dep ∈ child.dependsOn, _))

/-- `readiness_set` over the child rows: those that are not completed and wait on
nothing. -/
def readyChildren : List DurableTask :=
  children.filter fun child => child.status ≠ .completed ∧ DepsCompleted children child

def complete (id : String) : List DurableTask :=
  if id ∈ (readyChildren children).map DurableTask.taskId then
    children.map fun child =>
      if child.taskId = id then { child with status := .completed } else child
  else children

/-- As long as some child is not completed, one of those could be run. -/
def Progress : Prop :=
  (∃ child ∈ children, child.status ≠ .completed) →
    ∃ child ∈ children, child.status ≠ .completed ∧ DepsCompleted children child

/-! ## The edges of a plan -/

def edges : List (String × List String) :=
  children.map fun child => (child.taskId, child.dependsOn)

theorem edges_complete (id : String) :
    edges (complete children id) = edges children := by
  unfold complete
  split
  · unfold edges
    rw [map_map]
    apply map_congr_left
    intro child _
    simp only [Function.comp_apply]
    split <;> rfl
  · rfl

variable {task : DurableTask} {hex : Nat → String}

variable {i : Nat} {now : Stamp} {dep : String} {spec : SubgoalSpec}

theorem childOf_dependsOn {n : Nat} :
    dep ∈ (childOf task hex n now spec i).dependsOn ↔
      ∃ j : Nat, (j : Int) ∈ spec.dependsOn ∧ j < n ∧ j ≠ i ∧
        dep = childId task.taskId hex j := by
  simp only [childOf, mem_map, mem_filter, decide_eq_true_eq]
  constructor
  · intro h
    obtain ⟨j, ⟨hmem, hpos, hlt, hne⟩, rfl⟩ := h
    obtain ⟨k, rfl⟩ := Int.eq_ofNat_of_zero_le hpos
    exact ⟨k, hmem, by omega, by omega, rfl⟩
  · intro h
    obtain ⟨j, hmem, hlt, hne, rfl⟩ := h
    exact ⟨j, ⟨hmem, by omega, by omega, by omega⟩, rfl⟩

variable {specs : List SubgoalSpec}

/-- **The edges of the rows are the edges of the batch**, where it is accepted: no edge
is left out and none is added. -/
theorem waits_iff_depends (hvalid : validateGraph specs = none) (hspec : specs[i]? = some spec) :
    dep ∈ (childOf task hex specs.length now spec i).dependsOn ↔
      ∃ j, Depends specs i j ∧ dep = childId task.taskId hex j := by
  have hexact := (validateGraph_eq_none_iff specs).mp hvalid
  rw [childOf_dependsOn]
  constructor
  · intro h
    obtain ⟨j, hmem, -, -, hdep⟩ := h
    exact ⟨j, ⟨spec, hspec, hmem⟩, hdep⟩
  · intro h
    obtain ⟨j, hij, hdep⟩ := h
    have hself : j ≠ i := by
      intro hji
      subst hji
      exact hexact.2 ⟨j, Relation.TransGen.single hij⟩
    obtain ⟨spec', hspec', hmem⟩ := hij
    rw [hspec] at hspec'
    cases hspec'
    have hin := hexact.1 spec (mem_of_getElem? hspec) j hmem
    exact ⟨j, hmem, by omega, hself, hdep⟩

/-! ## Progress -/

/-- The rows are the children of the batch, whichever of them are completed. -/
structure PlanOf (specs : List SubgoalSpec) (task : DurableTask) (hex : Nat → String)
    (children : List DurableTask) : Prop where
  child : ∀ row ∈ children, ∃ i, row.taskId = childId task.taskId hex i ∧
    ∀ dep, dep ∈ row.dependsOn ↔ ∃ j, Depends specs i j ∧ dep = childId task.taskId hex j
  row : ∀ i < specs.length, ∃ row ∈ children, row.taskId = childId task.taskId hex i

variable {children}

theorem runnable_below (hvalid : validateGraph specs = none)
    (hplan : PlanOf specs task hex children) (hgrounded : Grounded specs i) :
    ∀ row ∈ children, row.taskId = childId task.taskId hex i → row.status ≠ .completed →
      ∃ child ∈ children, child.status ≠ .completed ∧ DepsCompleted children child := by
  induction hgrounded with
  | intro i _ ih =>
    intro row hrow hid hopen
    by_cases hdeps : DepsCompleted children row
    · exact ⟨row, hrow, hopen, hdeps⟩
    · simp only [DepsCompleted, not_forall] at hdeps
      obtain ⟨dep, hdep, hmissing⟩ := hdeps
      obtain ⟨i', hid', hwaits⟩ := hplan.child row hrow
      have hii : i' = i := childId_inj (hid'.symm.trans hid)
      subst hii
      obtain ⟨j, hij, rfl⟩ := (hwaits dep).mp hdep
      have hj : j < specs.length := by
        obtain ⟨spec, hspec, hmem⟩ := hij
        have hin := ((validateGraph_eq_none_iff specs).mp hvalid).1 spec
          (mem_of_getElem? hspec) j hmem
        omega
      obtain ⟨below, hbelow, hidBelow⟩ := hplan.row j hj
      apply ih j hij below hbelow hidBelow
      intro hdone
      apply hmissing
      rw [← hidBelow]
      exact mem_map_of_mem (mem_filter.mpr ⟨hbelow, by simpa using hdone⟩)

theorem PlanOf.progress (hvalid : validateGraph specs = none)
    (hplan : PlanOf specs task hex children) : Progress children := by
  intro hopen
  obtain ⟨row, hrow, hstatus⟩ := hopen
  obtain ⟨i, hid, -⟩ := hplan.child row hrow
  exact runnable_below hvalid hplan (grounded_of_accepted hvalid i) row hrow hid hstatus

/-- What the rows are the children of is read off their ids and edges. -/
theorem PlanOf.of_edges {children' : List DurableTask} (hplan : PlanOf specs task hex children)
    (hedges : edges children' = edges children) :
    PlanOf specs task hex children' where
  child row hrow := by
    have hmem : (row.taskId, row.dependsOn) ∈ edges children := by
      rw [← hedges]
      exact mem_map_of_mem hrow
    obtain ⟨same, hsame, heq⟩ := mem_map.mp hmem
    rw [Prod.mk.injEq] at heq
    obtain ⟨i, hid, hwaits⟩ := hplan.child same hsame
    exact ⟨i, heq.1 ▸ hid, heq.2 ▸ hwaits⟩
  row i hi := by
    obtain ⟨same, hsame, hid⟩ := hplan.row i hi
    have hmem : (same.taskId, same.dependsOn) ∈ edges children' := by
      rw [hedges]
      exact mem_map_of_mem hsame
    obtain ⟨row, hrow, heq⟩ := mem_map.mp hmem
    rw [Prod.mk.injEq] at heq
    exact ⟨row, hrow, heq.1.trans hid⟩

theorem planOf_mapIdx (hvalid : validateGraph specs = none) (task : DurableTask)
    (hex : Nat → String) (now : Stamp) :
    PlanOf specs task hex
      (specs.mapIdx fun i spec => childOf task hex specs.length now spec i) where
  child row hrow := by
    obtain ⟨i, hi, rfl⟩ := mem_mapIdx.mp hrow
    exact ⟨i, rfl, fun dep => waits_iff_depends hvalid (getElem?_eq_getElem hi)⟩
  row i hi := ⟨_, mem_mapIdx.mpr ⟨i, hi, rfl⟩, rfl⟩

/-- Row `i` is the child of spec `i`, and waits on exactly what that depends on. -/
structure RowsOf (specs : List SubgoalSpec) (task : DurableTask) (hex : Nat → String)
    (rows : List DurableTask) : Prop where
  length : rows.length = specs.length
  row : ∀ (i : Nat) (spec : SubgoalSpec), specs[i]? = some spec → ∃ row, rows[i]? = some row ∧
    row.taskId = childId task.taskId hex i ∧ row.goal = spec.description ∧
    ∀ dep, dep ∈ row.dependsOn ↔ ∃ j, Depends specs i j ∧ dep = childId task.taskId hex j

/-- An accepted batch of at least two specs becomes its rows. -/
theorem rowsOf_accepted {decomposeSpecs : Decomposer} (hex : Nat → String) (now : Stamp)
    (hgoal : String.ofList (strip task.goal.toList) ≠ "")
    (hspecs : decomposeSpecs (String.ofList (strip task.goal.toList)) = some specs)
    (hlength : 2 ≤ specs.length) (hvalid : validateGraph specs = none) :
    RowsOf specs task hex (planSubtasks task (some decomposeSpecs) hex now) := by
  have hplan : planSubtasks task (some decomposeSpecs) hex now =
      specs.mapIdx fun i spec => childOf task hex specs.length now spec i := by
    simp only [planSubtasks, if_neg hgoal, hspecs, if_neg (Nat.not_lt.mpr hlength), hvalid]
    rfl
  rw [hplan]
  refine ⟨length_mapIdx, fun i spec hspec => ?_⟩
  refine ⟨_, by rw [getElem?_mapIdx, hspec]; rfl, rfl, rfl, fun dep => ?_⟩
  exact waits_iff_depends hvalid hspec

/-- **Acceptance is exact and means progress.**  A batch is accepted iff its indices are
in range and no story depends on itself; an accepted batch of at least two specs becomes one
row a spec, with exactly its edges; and whichever ready children of a plan are
completed, in whichever order, a child whose dependencies are all completed is left as
long as some child is not completed itself. -/
theorem accepted_means_progress :
    (∀ specs : List SubgoalSpec, validateGraph specs = none ↔ InRange specs ∧ ¬ Cyclic specs) ∧
    (∀ (task : DurableTask) (decomposeSpecs : Decomposer) (hex : Nat → String) (now : Stamp)
      (specs : List SubgoalSpec), String.ofList (strip task.goal.toList) ≠ "" →
      decomposeSpecs (String.ofList (strip task.goal.toList)) = some specs →
      2 ≤ specs.length → validateGraph specs = none →
      RowsOf specs task hex (planSubtasks task (some decomposeSpecs) hex now)) ∧
    ∀ (task : DurableTask) (decomposer : Option Decomposer) (hex : Nat → String)
      (now : Stamp) (ids : List String),
      Along complete Progress (planSubtasks task decomposer hex now) ids := by
  refine ⟨validateGraph_eq_none_iff, fun task decomposeSpecs hex now specs hgoal hspecs hlength
    hvalid => rowsOf_accepted hex now hgoal hspecs hlength hvalid,
    fun task decomposer hex now ids => ?_⟩
  obtain hnil | ⟨specs, -, hvalid, hplan⟩ := planSubtasks_accepted task decomposer hex now
  · rw [hnil]
    have hstep : ∀ (children : List DurableTask) (id : String), children = [] →
        complete children id = [] := by
      intro children id hempty
      rw [hempty]
      rfl
    have hprogress : ∀ children : List DurableTask, children = [] → Progress children := by
      intro children hempty hopen
      obtain ⟨child, hchild, -⟩ := hopen
      rw [hempty] at hchild
      cases hchild
    exact (along_of_inv hstep rfl ids).mono hprogress
  · rw [hplan]
    have hstep : ∀ (children : List DurableTask) (id : String),
        PlanOf specs task hex children → PlanOf specs task hex (complete children id) :=
      fun children id hrows => hrows.of_edges (edges_complete children id)
    have hprogress : ∀ children, PlanOf specs task hex children → Progress children :=
      fun children hrows => hrows.progress hvalid
    exact (along_of_inv hstep (planOf_mapIdx hvalid task hex now) ids).mono hprogress

end StackOwl.Durable
