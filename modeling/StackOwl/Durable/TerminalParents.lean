import StackOwl.Durable.Liveness
import StackOwl.Durable.ReservedSlot

/-!
# Children of an ended parent

Two statements ask whether a parent has ended, each by its own list: `CLAIMABLE_WHERE`
by `completed` and `dead_letter`, `list_zombie_children` by `completed` and `failed`.
`TERMINAL_TASK_STATUSES` has all three.

## Main results

* `parents_stop_children` — the tables on which an ended parent stops its children.
-/

namespace StackOwl.Durable

open Lib

def ParentEnded (db : Db) (r : Row) : Prop :=
  ∃ s ∈ TERMINAL_TASK_STATUSES, parentStatus db r = some s

/-- The child is never answered by `claimable`; where it is being run it is listed as a
zombie, and reaping fails it. -/
structure Stopped (db : Db) (r : Row) : Prop where
  unclaimed : ∀ owner lim stamp now db' out,
    claimable owner lim stamp now db = .ok (db', out) → rowToTask r ∉ out
  listed : r.orphaned = true → rowToTask r ∈ listZombieChildren r.ownerId db
  reaped : r.orphaned = true → ∀ now,
    (reapZombieChildren r.ownerId now db).status r.ownerId r.taskId = some .failed

def ParentsStop (db : Db) : Prop :=
  ∀ r ∈ db.tasks.rows, ParentEnded db r → Stopped db r

/-- No child of a failed parent is free to be claimed, and none of a dead-lettered one
is being run. -/
def ChildrenRest (db : Db) : Prop :=
  ∀ r ∈ db.tasks.rows,
    (parentStatus db r = some .failed →
      ¬ (r.status = .pending ∧ r.superseded = false ∧ r.ready r.ownerId db = true)) ∧
    (parentStatus db r = some .deadLetter → r.orphaned = false)

/-- The journal takes the cascade of every row. -/
def LabelsFit (db : Db) : Prop := ∀ r ∈ db.tasks.rows, cascadeFits r = true

/-! ## The two lists -/

variable {db : Db} {r : Row}

theorem parentEnded_iff : ParentEnded db r ↔
    parentStatus db r = some .completed ∨ parentStatus db r = some .failed ∨
      parentStatus db r = some .deadLetter := by
  simp [ParentEnded, TERMINAL_TASK_STATUSES]

variable {owner : String} {stamp : Stamp}

/-- A claimable row's parent is neither `completed` nor dead-lettered. -/
theorem parentStatus_of_claimable (h : claimableWhere owner stamp db r = true) :
    parentStatus db r ≠ some .completed ∧ parentStatus db r ≠ some .deadLetter := by
  obtain ⟨⟨⟨howner, -⟩, -⟩, -, hparent⟩ := claimableWhere_iff.mp h
  unfold parentStatus
  cases hp : r.parentTaskId with
  | none => simp
  | some parent =>
    rw [Option.bind_some, howner]
    exact hparent parent hp

theorem eq_of_rowToTask {s : Row} (hr : r ∈ db.tasks.rows) (hs : s ∈ db.tasks.rows)
    (h : rowToTask r = rowToTask s) : r = s := by
  have howner : r.ownerId = s.ownerId := congrArg DurableTask.ownerId h
  have hid : r.taskId = s.taskId := congrArg DurableTask.taskId h
  have hrfound := find_of_mem hr
  rw [howner, hid, find_of_mem hs] at hrfound
  exact (Option.some.inj hrfound).symm

theorem claimable_of_answered {lim : Int} {now : Stamp} {db' : Db} {out : List DurableTask}
    (hr : r ∈ db.tasks.rows) (h : claimable owner lim stamp now db = .ok (db', out))
    (hout : rowToTask r ∈ out) :
    claimableWhere owner stamp db r = true ∧ r.ready owner db = true := by
  obtain ⟨s, hs, hsame, hwhere, hready⟩ := answers_of_claimable h _ hout
  obtain rfl := eq_of_rowToTask hr hs hsame
  exact ⟨hwhere, hready⟩

theorem listed_iff (hr : r ∈ db.tasks.rows) :
    rowToTask r ∈ listZombieChildren r.ownerId db ↔ r.orphaned = true ∧
      (parentStatus db r = some .completed ∨ parentStatus db r = some .failed) := by
  unfold listZombieChildren
  rw [List.mem_map]
  constructor
  · rintro ⟨s, hs, hsame⟩
    obtain ⟨hstored, hzombie⟩ := List.mem_filter.mp hs
    obtain rfl := eq_of_rowToTask hstored hr hsame
    obtain ⟨⟨-, horphaned⟩, hparent⟩ := zombieChild_iff.mp hzombie
    exact ⟨horphaned, hparent⟩
  · rintro ⟨horphaned, hparent⟩
    exact ⟨r, List.mem_filter.mpr
      ⟨hr, zombieChild_iff.mpr ⟨⟨rfl, horphaned⟩, hparent⟩⟩, rfl⟩

theorem reaped_of_listed (hr : r ∈ db.tasks.rows) (horphaned : r.orphaned = true)
    (hparent : parentStatus db r = some .completed ∨ parentStatus db r = some .failed)
    (now : Stamp) :
    (reapZombieChildren r.ownerId now db).status r.ownerId r.taskId = some .failed := by
  have hfound := find_of_mem hr
  have hzombie : zombieChild r.ownerId db r = true :=
    zombieChild_iff.mpr ⟨⟨rfl, horphaned⟩, hparent⟩
  rw [Db.status, reapZombieChildren, reapEach_find, launchedFor_zombies hfound,
    hzombie, if_pos rfl, hfound]
  rfl

/-! ## The tables on which a parent stops its children -/

theorem parentsStop_of_rest (h : ChildrenRest db) : ParentsStop db := by
  intro r hr hended
  obtain ⟨hfailed, hdead⟩ := h r hr
  have hlist : r.orphaned = true →
      parentStatus db r = some .completed ∨ parentStatus db r = some .failed := by
    intro horphaned
    rcases parentEnded_iff.mp hended with hp | hp | hp
    · exact Or.inl hp
    · exact Or.inr hp
    · rw [hdead hp] at horphaned
      cases horphaned
  refine ⟨?_, fun ho => (listed_iff hr).mpr ⟨ho, hlist ho⟩,
    fun ho now => reaped_of_listed hr ho (hlist ho) now⟩
  intro owner lim stamp now db' out hcall hout
  obtain ⟨hwhere, hready⟩ := claimable_of_answered hr hcall hout
  obtain ⟨hcompleted, hdeadLetter⟩ := parentStatus_of_claimable hwhere
  obtain ⟨⟨⟨rfl, hpending⟩, hlive⟩, -⟩ := claimableWhere_iff.mp hwhere
  rcases parentEnded_iff.mp hended with hp | hp | hp
  · exact hcompleted hp
  · exact hfailed hp ⟨hpending, hlive, hready⟩
  · exact hdeadLetter hp

theorem journalled_of_fits {rows : List Row} (h : ∀ r ∈ rows, cascadeFits r = true)
    (dead : List String) :
    journalled owner db dead rows = true := by
  induction rows generalizing dead with
  | nil => rfl
  | cons r rows ih =>
    have hrest := ih (fun s hs => h s (List.mem_cons_of_mem _ hs))
    rw [journalled_cons, hrest, Bool.and_true, rowFits,
      h r List.mem_cons_self, Bool.or_true]

theorem answered_of_ready (now : Stamp) (hfits : LabelsFit db) (hr : r ∈ db.tasks.rows)
    (hwhere : claimableWhere owner stamp db r = true) (hready : r.ready owner db = true) :
    ∃ db' out, claimable owner (-1) stamp now db = .ok (db', out) ∧
      rowToTask r ∈ out := by
  have hjournal : journalled owner db [] (claimableWindow owner (-1) stamp db) = true :=
    journalled_of_fits (fun s hs => hfits s
      (List.mem_filter.mp (mem_orderBy.mp (mem_of_mem_limit hs))).1) []
  have hanswer := @claimable_ok_iff owner (-1) stamp now db
    ((readyRows owner (-1) stamp db).map rowToTask)
  obtain ⟨db', hok⟩ := hanswer.mpr
    ⟨hjournal, (if_neg fun hslot => absurd hslot.1 (by decide)).mpr rfl⟩
  refine ⟨db', _, hok, List.mem_map_of_mem (List.mem_filter.mpr ⟨?_, hready⟩)⟩
  exact mem_orderBy.mpr (List.mem_filter.mpr ⟨hr, hwhere⟩)

theorem rest_of_parentsStop (hfits : LabelsFit db) (h : ParentsStop db) :
    ChildrenRest db := by
  intro r hr
  constructor
  · rintro hfailed ⟨hpending, hlive, hready⟩
    have hstopped := h r hr (parentEnded_iff.mpr (Or.inr (Or.inl hfailed)))
    have hwhere : claimableWhere r.ownerId (r.nextAttemptAt.getD 0) db r = true := by
      refine claimableWhere_iff.mpr ⟨⟨⟨rfl, hpending⟩, hlive⟩, ?_, ?_⟩
      · intro due hdue
        rw [hdue]
        exact le_rfl
      · intro parent hparent
        have hstatus : db.status r.ownerId parent = some .failed := by
          rw [parentStatus, hparent] at hfailed
          exact hfailed
        rw [hstatus]
        decide
    obtain ⟨db', out, hok, hout⟩ := answered_of_ready 0 hfits hr hwhere hready
    exact hstopped.unclaimed _ _ _ _ _ _ hok hout
  · intro hdead
    by_contra horphaned
    have hrun : r.orphaned = true := by simpa using horphaned
    have hstopped := h r hr (parentEnded_iff.mpr (Or.inr (Or.inr hdead)))
    rcases ((listed_iff hr).mp (hstopped.listed hrun)).2 with hp | hp <;>
      rw [hdead] at hp <;> cases hp

/-- **An ended parent stops its children** where no child of a failed parent is free to
be claimed and none of a dead-lettered one is being run; and only there, while the
journal takes the events a scan of `claimable` records. -/
theorem parents_stop_children (db : Db) :
    (ChildrenRest db → ParentsStop db) ∧
      (LabelsFit db → ParentsStop db → ChildrenRest db) :=
  ⟨parentsStop_of_rest, rest_of_parentsStop⟩

/-- A task split in two, of which the first part was never started. -/
def splitTask : List Op :=
  [.enqueue DEFAULT_PRINCIPAL_ID
     { taskId := "parent", goal := "ship the release", status := .pending
       createdAt := 0, updatedAt := 0 },
   .enqueue DEFAULT_PRINCIPAL_ID
     { taskId := "child", goal := "write the changelog", status := .pending
       parentTaskId := some "parent", createdAt := 1, updatedAt := 1 }]

/-- The child of a failed parent is still answered. -/
theorem failed_parent_claims :
    ¬ ParentsStop (run step Db.fresh (splitTask ++
      [.updateStatus DEFAULT_PRINCIPAL_ID "parent" .failed { terminal := true, now := 2 }])) := by
  intro h
  have hstopped := h _ (List.mem_of_getElem? (i := 1) rfl)
    ⟨.failed, by decide, by decide⟩
  exact hstopped.unclaimed DEFAULT_PRINCIPAL_ID 10 3 3 _ _ rfl (by decide)

/-- The child of a completed one is not. -/
theorem parents_stop_here :
    ParentsStop (run step Db.fresh (splitTask ++ [.updateStatus DEFAULT_PRINCIPAL_ID "parent"
      .completed { terminal := true, now := 2 }])) := by
  refine (parents_stop_children _).1 ?_
  show ∀ r ∈ _, _
  decide

end StackOwl.Durable
