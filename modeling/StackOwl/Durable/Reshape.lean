import StackOwl.Durable.Decompose
import StackOwl.Durable.StoreSpec

/-!
# Reshaping a task

`TaskLoop._maybe_reshape` (`pipeline/durable/loop.py`): a task that keeps failing for a
reason repetition cannot fix is split, its children are enqueued one transaction each,
and the task is made to wait for them.  An exception anywhere is answered with
`False`: the task is run the ordinary way.

Which of the writes raises is an input.  A write that raises has left no change.

## Main results

* `enqueueAll_ok_iff` — the children of a plan are all written exactly when no write
  raises and none of their ids is taken.
* `reshape_all_or_nothing_iff` — a reshape is all or nothing exactly when the first
  enqueue raises, or nothing does.
-/

namespace StackOwl.Durable

open Lib List

/-- One call of `_maybe_reshape`: the task as it was claimed, the decomposer found, the
digits of the ids, and which of the writes raises. -/
structure ReshapeCall where
  task : DurableTask
  decomposer : Option Decomposer
  hex : Nat → String
  /-- The count of earlier failures cannot be read. -/
  priorUnreadable : Bool := false
  plannedAt : Stamp
  waitsAt : Stamp
  /-- The write of that position raises; the enqueues come first. -/
  fault : Nat → Bool := fun _ => false

variable (owner : String) (c : ReshapeCall) (db : Db)

def ReshapeCall.children :
    List DurableTask :=
  if wantsReshaping (c.task.lastFailureClass.getD "") then
    let prior := countPriorReshapingFailures owner c.task.goal c.priorUnreadable db
    if shouldDecompose c.task prior then
      planSubtasks c.task c.decomposer c.hex c.plannedAt
    else []
  else []

def raising (fault : Bool) (written : Result Db) : Result Db :=
  if fault then .error .integrity else written

/-- The loop over the children; an exception leaves what is enqueued so far. -/
def enqueueAll (owner : String) (fault : Nat → Bool) :
    Nat → List DurableTask → Db → Except Db Db
  | _, [], db => .ok db
  | k, child :: rest, db =>
    match raising (fault k) (enqueue owner child db) with
    | .error _ => .error db
    | .ok db => enqueueAll owner fault (k + 1) rest db

/-- `_maybe_reshape`: the tables it leaves, and its answer. -/
def maybeReshape : Db × Bool :=
  match c.children owner db with
  | [] => (db, false)
  | child :: rest =>
    let children := child :: rest
    match enqueueAll owner c.fault 0 children db with
    | .error left => (left, false)
    | .ok left =>
      match raising (c.fault children.length)
          (setDependencies owner c.task.taskId (children.map DurableTask.taskId)
            c.waitsAt left) with
      | .error _ => (left, false)
      | .ok db => (db, true)

/-! ## All or nothing -/

/-- The ids of the tasks table, in the order of their insertion. -/
def Db.ids : List String := db.tasks.rows.map Row.taskId

/-- The call answers `False` and leaves the tasks alone, or answers `True` and the task
depends on exactly the rows that are new. -/
def ReshapedWhole : Prop :=
  let out := maybeReshape owner c db
  (out.2 = false → out.1.tasks = db.tasks) ∧
    (out.2 = true → ∃ parent, out.1.find owner c.task.taskId = some parent ∧
      split parent.dependsOn = out.1.ids.drop db.ids.length)

def ReshapeCall.refuses (k : Nat) (child : DurableTask) : Prop :=
  c.fault k = true ∨ (db.find owner child.taskId).isSome

/-- No write of a child raises, nor the one that makes the task wait. -/
def ReshapeCall.completes : Prop :=
  (∀ k child, (c.children owner db)[k]? = some child → ¬ c.refuses owner db k child) ∧
    c.fault (c.children owner db).length = false ∧
    (db.find owner c.task.taskId).isSome

/-- Nothing is to be enqueued, or the first enqueue raises, or no write does and the
ids can be read back from a comma list. -/
def ReshapeCall.unbroken : Prop :=
  c.children owner db = [] ∨
    (∃ first, (c.children owner db)[0]? = some first ∧ c.refuses owner db 0 first) ∨
    c.completes owner db ∧ ∀ child ∈ c.children owner db, ',' ∉ child.taskId.toList

/-! ## One enqueue -/

variable {db} {db' : Db} {n : Nat}

theorem ids_execute {u : Update} (h : db.execute u = .ok (db', n)) :
    db'.ids = db.ids := by
  rw [Db.ids, Db.ids, (execute_ok h).1, map_map]
  refine map_congr_left fun r _ => ?_
  simp only [Function.comp_apply, Update.on, patch]
  split
  · exact (u.keepsKey r).2
  · rfl

variable {owner} {task : DurableTask}

theorem ids_enqueue (h : enqueue owner task db = .ok db') : db'.ids = db.ids ++ [task.taskId] := by
  obtain ⟨db₁, hinsert, h⟩ := bind_eq_ok h
  obtain ⟨⟨db₂, n⟩, hexec, hrecord⟩ := bind_eq_ok h
  have hrows : db₁.ids = db.ids ++ [task.taskId] := by
    unfold Db.insertRow at hinsert
    split at hinsert
    · cases hinsert
    · rename_i tasks htasks
      cases hinsert
      simp [Db.ids, Table.rows_insert htasks, taskInsertColumns, DurableTask.filedUnder]
  rw [record_ok hrecord]
  exact (ids_execute hexec).trans hrows

variable {now : Stamp} {hex : Nat → String} {i : Nat} {spec : Objectives.SubgoalSpec}

theorem enqueue_childOf_ok (h : db.find owner (childOf task hex n now spec i).taskId = none) :
    ∃ db', enqueue owner (childOf task hex n now spec i) db = .ok db' := by
  have hinsert : ∃ tasks, db.tasks.insert
      (taskInsertColumns ((childOf task hex n now spec i).filedUnder owner)) =
        some tasks := by
    refine Table.insert_isSome fun key hkey r hr v hv hrv => ?_
    simp only [taskKeys, mem_cons, not_mem_nil, or_false] at hkey
    rcases hkey with rfl | rfl | rfl
    · have hsame := hrv.trans hv.symm
      simp only [primaryKey, Option.some.injEq, cons.injEq, and_true] at hsame
      have hfound := find_of_mem hr
      rw [hsame.1, hsame.2] at hfound
      exact absurd (hfound.symm.trans h) (by simp)
    · simp [idempotencyLive, taskInsertColumns, DurableTask.filedUnder, childOf] at hv
    · simp [commandKey, taskInsertColumns, DurableTask.filedUnder, childOf] at hv
  obtain ⟨tasks, htasks⟩ := hinsert
  obtain ⟨db₂, m, hexec⟩ := execute_isOk
    (u := loopContractSql owner (childOf task hex n now spec i)) { db with tasks } (by
      intro r _ key hkey
      simp only [taskKeys, mem_cons, not_mem_nil, or_false] at hkey
      rcases hkey with rfl | rfl | rfl
      · exact .inl rfl
      · exact .inr (by simp [idempotencyLive, loopContractSql, childOf])
      · exact .inl rfl)
  have hlabel : (enqueueEvent owner (childOf task hex n now spec i)).attrs.valid = true :=
    rfl
  have hrecord := show db₂.record (enqueueEvent owner (childOf task hex n now spec i)) =
    .ok { db₂ with journal := db₂.journal ++
      [enqueueEvent owner (childOf task hex n now spec i)] } from if_pos hlabel
  refine ⟨_, Eq.trans ?_ hrecord⟩
  simp only [enqueue, Db.insertRow, htasks]
  exact congrArg (fun x => x >>= fun out : Db × Nat =>
    out.1.record (enqueueEvent owner (childOf task hex n now spec i))) hexec

theorem enqueue_childOf_ok_iff :
    (∃ db', enqueue owner (childOf task hex n now spec i) db = .ok db') ↔
      db.find owner (childOf task hex n now spec i).taskId = none :=
  ⟨fun ⟨_, h⟩ => (enqueue_spec h).free, enqueue_childOf_ok⟩

variable {taskId : String}

theorem find_enqueue_of_ne (h : enqueue owner task db = .ok db') (hne : taskId ≠ task.taskId) :
    db'.find owner taskId = db.find owner taskId := by
  have hkey : isKey owner taskId (taskInsertColumns (task.filedUnder owner)) = false := by
    simp [isKey, taskInsertColumns, DurableTask.filedUnder, Ne.symm hne]
  rw [(enqueue_spec h).find, hkey]
  simp

/-! ## All the children -/

theorem raising_ok {fault : Bool} {written : Result Db} :
    raising fault written = .ok db ↔ fault = false ∧ written = .ok db := by
  cases fault <;> simp [raising]

variable {fault : Nat → Bool} {k : Nat} {rest : List DurableTask} {child : DurableTask}

theorem enqueueAll_cons_ok :
    enqueueAll owner fault k (child :: rest) db = .ok db' ↔
      ∃ db₁, raising (fault k) (enqueue owner child db) = .ok db₁ ∧
        enqueueAll owner fault (k + 1) rest db₁ = .ok db' := by
  simp only [enqueueAll]
  split
  · rename_i hraised
    simp [hraised]
  · rename_i db₁ hwritten
    simp [hwritten]

variable {left : Db}

/-- What the loop leaves, whether it ends or raises, holds at least the ids from
before. -/
theorem ids_enqueueAll {children : List DurableTask}
    (h : enqueueAll owner fault k children db = .ok left ∨
      enqueueAll owner fault k children db = .error left) :
    db.ids <+: left.ids := by
  induction children generalizing k db with
  | nil =>
    simp only [enqueueAll, Except.ok.injEq, reduceCtorEq, or_false] at h
    exact h ▸ prefix_rfl
  | cons child rest ih =>
    simp only [enqueueAll] at h
    split at h
    · simp only [reduceCtorEq, Except.error.injEq, false_or] at h
      exact h ▸ prefix_rfl
    · rename_i db₁ hwritten
      have hone := ids_enqueue (raising_ok.mp hwritten).2
      exact (hone ▸ prefix_append _ _).trans (ih h)

theorem ids_enqueueAll_ok {children : List DurableTask}
    (h : enqueueAll owner fault k children db = .ok db') :
    db'.ids = db.ids ++ children.map DurableTask.taskId := by
  induction children generalizing k db with
  | nil =>
    simp only [enqueueAll, Except.ok.injEq] at h
    simp [h]
  | cons child rest ih =>
    obtain ⟨db₁, hwritten, hrest⟩ := enqueueAll_cons_ok.mp h
    rw [ih hrest, ids_enqueue (raising_ok.mp hwritten).2]
    simp

/-- The keys of the other rows are as before once the children are written. -/
theorem find_enqueueAll_ok {children : List DurableTask}
    (h : enqueueAll owner fault k children db = .ok db')
    (hne : taskId ∉ children.map DurableTask.taskId) :
    db'.find owner taskId = db.find owner taskId := by
  induction children generalizing k db with
  | nil =>
    simp only [enqueueAll, Except.ok.injEq] at h
    rw [h]
  | cons child rest ih =>
    obtain ⟨db₁, hwritten, hrest⟩ := enqueueAll_cons_ok.mp h
    simp only [map_cons, mem_cons, not_or] at hne
    rw [ih hrest hne.2, find_enqueue_of_ne (raising_ok.mp hwritten).2 hne.1]

/-- **All the children are written** exactly when no write of one raises and every id
is free. -/
theorem enqueueAll_ok_iff {children : List DurableTask}
    (hchild : ∀ child ∈ children, ∃ task hex n now spec i, child = childOf task hex n now spec i)
    (hnodup : (children.map DurableTask.taskId).Nodup) :
    (∃ db', enqueueAll owner fault k children db = .ok db') ↔
      ∀ j child, children[j]? = some child →
        fault (k + j) = false ∧ db.find owner child.taskId = none := by
  induction children generalizing k db with
  | nil => simp [enqueueAll]
  | cons child rest ih =>
    obtain ⟨hfresh, hrestNodup⟩ := nodup_cons.mp hnodup
    have hrestChild := fun c hc => hchild c (mem_cons_of_mem _ hc)
    obtain ⟨task, hex, n, now, spec, i, rfl⟩ := hchild _ mem_cons_self
    constructor
    · rintro ⟨db', h⟩
      obtain ⟨db₁, hwritten, hrest⟩ := enqueueAll_cons_ok.mp h
      obtain ⟨hfault, henqueue⟩ := raising_ok.mp hwritten
      have htail := (ih hrestChild hrestNodup).mp ⟨db', hrest⟩
      intro j c hj
      cases j with
      | zero =>
        cases hj
        exact ⟨hfault, enqueue_childOf_ok_iff.mp ⟨db₁, henqueue⟩⟩
      | succ j =>
        obtain ⟨hlater, hfree⟩ := htail j c hj
        have hne : c.taskId ≠ (childOf task hex n now spec i).taskId := by
          intro hsame
          exact hfresh (hsame ▸ mem_map_of_mem (mem_of_getElem? hj))
        rw [find_enqueue_of_ne henqueue hne] at hfree
        exact ⟨by rwa [Nat.add_assoc, Nat.add_comm 1] at hlater, hfree⟩
    · intro h
      obtain ⟨hfault, hfree⟩ := h 0 _ rfl
      obtain ⟨db₁, henqueue⟩ := enqueue_childOf_ok hfree
      have hrest : ∃ db', enqueueAll owner fault (k + 1) rest db₁ = .ok db' :=
        (ih hrestChild hrestNodup).mpr (by
        intro j c hj
        obtain ⟨hlater, hfree⟩ := h (j + 1) c hj
        have hne : c.taskId ≠ (childOf task hex n now spec i).taskId := by
          intro hsame
          exact hfresh (hsame ▸ mem_map_of_mem (mem_of_getElem? hj))
        rw [find_enqueue_of_ne henqueue hne]
        exact ⟨by rwa [Nat.add_assoc, Nat.add_comm 1], hfree⟩)
      obtain ⟨db', hall⟩ := hrest
      exact ⟨db', enqueueAll_cons_ok.mpr ⟨db₁, raising_ok.mpr ⟨hfault, henqueue⟩, hall⟩⟩

/-! ## The parent -/

/-- `set_dependencies` succeeds on every row that exists. -/
theorem setDependencies_ok_iff (dependsOn : List String) (now : Stamp) :
    (∃ db', setDependencies owner taskId dependsOn now db = .ok db') ↔
      (db.find owner taskId).isSome = true := by
  obtain ⟨db', n, hexec⟩ := execute_isOk (u := setDependenciesSql owner taskId dependsOn now)
    db (fun r _ => keys_kept rfl rfl rfl rfl id)
  cases hfound : db.find owner taskId with
  | none =>
    simp only [setDependencies, requireOwned, hfound]
    refine iff_of_false ?_ (by simp)
    rintro ⟨left, h⟩
    cases h
  | some r =>
    refine iff_of_true ⟨db', ?_⟩ rfl
    simp only [setDependencies, requireOwned, hfound]
    exact congrArg (fun x => x >>= fun out : Db × Nat => Except.ok out.1) hexec

variable {dependsOn : List String}

theorem ids_setDependencies (h : setDependencies owner taskId dependsOn now db = .ok db')
    : db'.ids = db.ids := by
  obtain ⟨_, -, h⟩ := bind_eq_ok h
  obtain ⟨⟨db₁, n⟩, hexec, heq⟩ := bind_eq_ok h
  cases heq
  exact ids_execute hexec

theorem find_setDependencies (h : setDependencies owner taskId dependsOn now db = .ok db') :
    ∃ parent, db'.find owner taskId = some parent ∧ parent.dependsOn = join dependsOn := by
  obtain ⟨r, hfound⟩ := Option.isSome_iff_exists.mp ((setDependencies_ok_iff _ _).mp ⟨db', h⟩)
  have hupdate := (setDependencies_spec h).find owner taskId
  rw [hfound, Option.map_some, Update.on_of_guard (isKey_iff.mpr (key_of_find hfound))]
    at hupdate
  exact ⟨_, hupdate, rfl⟩

/-- The ids of a plan read back from the comma list exactly when none has a comma. -/
theorem split_join_iff (ids : List String) (hnonempty : ∀ i ∈ ids, i ≠ "") :
    split (join ids) = ids ↔ ∀ i ∈ ids, ',' ∉ i.toList := by
  constructor
  · intro h i hi
    rw [← h] at hi
    cases hjoin : join ids with
    | none => simp [hjoin, split] at hi
    | some text =>
      simp only [hjoin, split, mem_filter, mem_map] at hi
      obtain ⟨⟨piece, hpiece, rfl⟩, -⟩ := hi
      rw [String.toList_ofList]
      exact not_mem_of_mem_splitOn hpiece
  · intro h
    exact split_join fun i hi => ⟨hnonempty i hi, h i hi⟩

/-! ## The call -/

variable {c}

theorem children_childOf (h : child ∈ c.children owner db) :
    ∃ n spec i, child = childOf c.task c.hex n c.plannedAt spec i := by
  unfold ReshapeCall.children at h
  split at h
  · dsimp only at h
    split at h
    · exact planSubtasks_child h
    · cases h
  · cases h

theorem nodup_children (owner : String) (c : ReshapeCall) (db : Db) :
    ((c.children owner db).map DurableTask.taskId).Nodup := by
  unfold ReshapeCall.children
  split
  · dsimp only
    split
    · exact nodup_childIds _ _ _ _
    · exact nodup_nil
  · exact nodup_nil

theorem childId_ne (taskId : String) (hex : Nat → String) (i : Nat) :
    childId taskId hex i ≠ "" ∧ childId taskId hex i ≠ taskId := by
  have hlength : taskId.length < (childId taskId hex i).length := by
    simp only [childId, String.length_append, show "-sub".length = 4 from rfl]
    omega
  constructor <;> intro hsame <;> simp [hsame] at hlength

theorem written_iff (owner : String) (c : ReshapeCall) (db : Db) :
    (∃ left, enqueueAll owner c.fault 0 (c.children owner db) db = .ok left) ↔
      ∀ k child, (c.children owner db)[k]? = some child → ¬ c.refuses owner db k child := by
  rw [enqueueAll_ok_iff
    (fun child hchild => by
      obtain ⟨n, spec, i, rfl⟩ := children_childOf hchild
      exact ⟨_, _, n, _, spec, i, rfl⟩)
    (nodup_children owner c db)]
  simp only [Nat.zero_add, ReshapeCall.refuses, not_or, Bool.not_eq_true,
    Option.isSome_eq_false_iff, Option.isNone_iff_eq_none]

theorem find_parent (h : enqueueAll owner c.fault 0 (c.children owner db) db = .ok left) :
    left.find owner c.task.taskId = db.find owner c.task.taskId := by
  refine find_enqueueAll_ok h fun hmem => ?_
  obtain ⟨child, hchild, hid⟩ := mem_map.mp hmem
  obtain ⟨n, spec, i, rfl⟩ := children_childOf hchild
  exact (childId_ne c.task.taskId c.hex i).2 hid

theorem tasks_ne_of_ids {child : String} {rest : List String}
    (h : db.ids ++ child :: rest <+: left.ids) : left.tasks ≠ db.tasks := by
  intro hsame
  have hids : left.ids = db.ids := by rw [Db.ids, Db.ids, hsame]
  have hlength := h.length_le
  rw [hids, length_append, length_cons] at hlength
  omega

variable {first : DurableTask}

theorem first_written (hc : c.children owner db = first :: rest)
    (h : ¬ c.refuses owner db 0 first) :
    ∃ db₁, raising (c.fault 0) (enqueue owner first db) = .ok db₁ := by
  obtain ⟨n, spec, i, rfl⟩ := children_childOf (hc ▸ mem_cons_self)
  simp only [ReshapeCall.refuses, not_or, Bool.not_eq_true, Option.isSome_eq_false_iff,
    Option.isNone_iff_eq_none] at h
  obtain ⟨db₁, henqueue⟩ := enqueue_childOf_ok h.2
  exact ⟨db₁, raising_ok.mpr ⟨h.1, henqueue⟩⟩

theorem first_raises (h : c.refuses owner db 0 first) :
    ∃ e, raising (c.fault 0) (enqueue owner first db) = .error e := by
  cases hwrite : raising (c.fault 0) (enqueue owner first db) with
  | error e => exact ⟨e, rfl⟩
  | ok db₁ =>
    obtain ⟨hfault, henqueue⟩ := raising_ok.mp hwrite
    have hfree : db.find owner first.taskId = none := (enqueue_spec henqueue).free
    rcases h with hbad | htaken
    · rw [hfault] at hbad
      cases hbad
    · rw [hfree] at htaken
      cases htaken

/-- How a call with children ends: the first enqueue raises; a later write does, with
the first child left behind; or none does. -/
theorem maybeReshape_cases (hc : c.children owner db = first :: rest) :
    (c.refuses owner db 0 first ∧ maybeReshape owner c db = (db, false)) ∨
    (¬ c.refuses owner db 0 first ∧ ¬ c.completes owner db ∧
      ∃ left, maybeReshape owner c db = (left, false) ∧ left.tasks ≠ db.tasks) ∨
    (¬ c.refuses owner db 0 first ∧ c.completes owner db ∧
      ∃ db' parent, maybeReshape owner c db = (db', true) ∧
        db'.ids = db.ids ++ (c.children owner db).map DurableTask.taskId ∧
        db'.find owner c.task.taskId = some parent ∧
        parent.dependsOn = join ((c.children owner db).map DurableTask.taskId)) := by
  have hwritten := written_iff owner c db
  by_cases hrefuses : c.refuses owner db 0 first
  · obtain ⟨e, hraised⟩ := first_raises hrefuses
    exact .inl ⟨hrefuses, by simp [maybeReshape, hc, enqueueAll, hraised]⟩
  · refine .inr ?_
    cases hall : enqueueAll owner c.fault 0 (c.children owner db) db with
    | error left =>
      refine .inl ⟨hrefuses, fun hcompletes => ?_, left, ?_, ?_⟩
      · obtain ⟨left', hok⟩ := hwritten.mpr hcompletes.1
        rw [hall] at hok
        cases hok
      · rw [hc] at hall
        simp [maybeReshape, hc, hall]
      · obtain ⟨db₁, hwrite⟩ := first_written hc hrefuses
        rw [hc, enqueueAll, hwrite] at hall
        have hone := ids_enqueue (raising_ok.mp hwrite).2
        exact tasks_ne_of_ids (hone ▸ ids_enqueueAll (.inr hall))
    | ok left =>
      have hids := ids_enqueueAll_ok hall
      have hparent := find_parent hall
      have hall' := hc ▸ hall
      cases hwait : raising (c.fault (c.children owner db).length)
          (setDependencies owner c.task.taskId
            ((c.children owner db).map DurableTask.taskId) c.waitsAt left) with
      | error e =>
        refine .inl ⟨hrefuses, fun hcompletes => ?_, left, ?_, ?_⟩
        · have hexists := hcompletes.2.2
          rw [← hparent] at hexists
          obtain ⟨db', hset⟩ := setDependencies_ok_iff
            ((c.children owner db).map DurableTask.taskId) c.waitsAt |>.mpr hexists
          rw [raising_ok.mpr ⟨hcompletes.2.1, hset⟩] at hwait
          cases hwait
        · rw [hc] at hwait
          simp only [maybeReshape, hc, hall', hwait]
        · rw [hc, map_cons] at hids
          exact tasks_ne_of_ids ⟨[], by rw [append_nil, hids]⟩
      | ok db' =>
        obtain ⟨hfault, hset⟩ := raising_ok.mp hwait
        obtain ⟨parent, hfind, hwaits⟩ := find_setDependencies hset
        have hexists := (setDependencies_ok_iff _ _).mp ⟨db', hset⟩
        rw [hparent] at hexists
        refine .inr ⟨hrefuses, ⟨hwritten.mp ⟨left, hall⟩, hfault, hexists⟩, db',
          parent, ?_, ?_, hfind, hwaits⟩
        · rw [hc] at hwait
          simp only [maybeReshape, hc, hall', hwait]
        · rw [ids_setDependencies hset, hids]

/-- **All or nothing.**  A reshape leaves the tasks alone and answers `False`, or
answers `True` and makes the task wait for exactly the rows it added, if and only if
nothing is to be enqueued, or the first enqueue raises, or nothing does. -/
theorem reshape_all_or_nothing_iff (owner : String) (c : ReshapeCall) (db : Db) :
    ReshapedWhole owner c db ↔ c.unbroken owner db := by
  have hcomma := split_join_iff ((c.children owner db).map DurableTask.taskId) (by
    intro id hid
    obtain ⟨child, hchild, rfl⟩ := mem_map.mp hid
    obtain ⟨n, spec, i, rfl⟩ := children_childOf hchild
    exact (childId_ne c.task.taskId c.hex i).1)
  cases hc : c.children owner db with
  | nil => simp [ReshapedWhole, ReshapeCall.unbroken, maybeReshape, hc]
  | cons first rest =>
    obtain ⟨hrefuses, hout⟩ | ⟨hfirst, hbroken, left, hout, hleft⟩ |
      ⟨hfirst, hcompletes, db', parent, hout, hids, hfind, hwaits⟩ :=
      maybeReshape_cases hc
    · simp [ReshapedWhole, ReshapeCall.unbroken, hout, hc, hrefuses]
    · simp [ReshapedWhole, ReshapeCall.unbroken, hout, hc, hfirst, hbroken, hleft]
    · have hnew : db'.ids.drop db.ids.length =
          (c.children owner db).map DurableTask.taskId := by
        rw [hids, drop_left]
      simp only [ReshapedWhole, ReshapeCall.unbroken, hout, hfind, hnew, hc,
        getElem?_cons_zero, Option.some.injEq, exists_eq_left', hfirst, hcompletes,
        reduceCtorEq, false_or, true_and, Bool.true_eq_false, false_implies, true_implies,
        hwaits]
      rw [hc] at hcomma
      simpa using hcomma

/-- A task that spent its budget three times. -/
def spentTask : DurableTask where
  taskId := "task-1"
  goal := "summarise the quarter"
  status := .running
  attemptCount := 3
  lastFailureClass := some "budget"
  createdAt := 0
  updatedAt := 0

def spentDb : Db where
  tasks := { rows := [taskInsertColumns spentTask], unique := by decide }

/-- Its plan of two steps, the second of which cannot be written. -/
def brokenReshape : ReshapeCall where
  task := spentTask
  decomposer := some fun _ => some [⟨"collect the figures", none, []⟩, ⟨"write", none, [0]⟩]
  hex := fun _ => "0a1b2c"
  plannedAt := 1
  waitsAt := 2
  fault := fun k => k = 1

/-- **An orphaned child.**  The call answers `False` with its first child enqueued. -/
theorem reshape_leaves_orphan :
    ¬ ReshapedWhole DEFAULT_PRINCIPAL_ID brokenReshape spentDb ∧
      (maybeReshape DEFAULT_PRINCIPAL_ID brokenReshape spentDb).1.ids =
        ["task-1", "task-1-sub0-0a1b2c"] := by
  have hids : (maybeReshape DEFAULT_PRINCIPAL_ID brokenReshape spentDb).1.ids =
      ["task-1", "task-1-sub0-0a1b2c"] := by decide
  refine ⟨fun h => ?_, hids⟩
  have hsame := h.1 (by decide)
  rw [Db.ids, hsame] at hids
  revert hids
  decide

end StackOwl.Durable
