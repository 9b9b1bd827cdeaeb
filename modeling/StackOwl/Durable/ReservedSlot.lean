import StackOwl.Durable.Starvation

/-!
# The reserved command slot

`claimable` keeps one slot for a command: where none of the ready rows of its window is
one, `_reserved_command_row` looks at the five oldest claimable commands and the first
ready one takes the place of the last row of a full batch.  A sixth command is not
looked at, ready or not.

## Main results

* `answers_of_claimable` — every task a call answers is the one of a claimable row whose
  dependencies are completed.
* `reserved_slot_iff` — the tables on which the slot is kept for a ready command.
-/

namespace StackOwl.Durable

open Lib List

variable (owner : String) (stamp : Stamp) (db : Db)

/-- Some claimable command has its dependencies completed. -/
def HasReadyCommand : Prop :=
  ∃ r ∈ db.tasks.rows, claimableWhere owner stamp db r = true ∧
    r.ready owner db = true ∧ r.kind = .command

/-- The task of a claimable row whose dependencies are completed. -/
def Answers (t : DurableTask) : Prop :=
  ∃ r ∈ db.tasks.rows, t = rowToTask r ∧ claimableWhere owner stamp db r = true ∧
    r.ready owner db = true

/-- At most `lim` tasks of distinct ids, each one that may be claimed, and a command
among them if there is one. -/
structure Serves (owner : String) (lim : Int) (stamp : Stamp) (db : Db)
    (out : List DurableTask) : Prop where
  length : (out.length : Int) ≤ lim
  distinct : (out.map DurableTask.taskId).Nodup
  answers : ∀ t ∈ out, Answers owner stamp db t
  command : HasReadyCommand owner stamp db → ∃ t ∈ out, t.kind = .command

/-- `claimable` answers, and serves a command where one is ready. -/
def KeepsSlot (lim : Int) (stamp now : Stamp) (db : Db) : Prop :=
  ∃ db' out, claimable owner lim stamp now db = .ok (db', out) ∧
    Serves owner lim stamp db out

/-- The two windows reach a ready command if there is one, and the journal takes the
events of both scans. -/
def ReachesCommand (lim : Int) (stamp : Stamp) (db : Db) : Prop :=
  let window := claimableWindow owner lim stamp db
  let commands := reservedAfter owner stamp db (deadAfter owner db [] window)
  journalled owner db [] window = true ∧
    ((∃ r ∈ window, r.ready owner db = true ∧ r.kind = .command) ∨
      journalled owner db (deadAfter owner db [] window)
          (commands.takeWhile (fun r => !r.ready owner db)) = true ∧
        (HasReadyCommand owner stamp db → ∃ r ∈ commands, r.ready owner db = true))

/-! ## The rows of the two windows -/

theorem length_limit {ρ : Type*} {n : Int} (h : 0 ≤ n) (rows : List ρ) :
    ((limit n rows).length : Int) ≤ n := by
  unfold limit
  rw [if_neg (by omega), length_take]
  omega

variable {owner} {lim : Int} {stamp} {db} {r : Row}

theorem mem_readyRows (h : r ∈ readyRows owner lim stamp db) :
    r ∈ db.tasks.rows ∧ claimableWhere owner stamp db r = true ∧
      r.ready owner db = true := by
  obtain ⟨hwindow, hready⟩ := mem_filter.mp h
  obtain ⟨hstored, hwhere⟩ :=
    mem_filter.mp (mem_orderBy.mp (mem_of_mem_limit hwindow))
  exact ⟨hstored, hwhere, hready⟩

theorem mem_reservedRows (h : r ∈ reservedRows owner lim stamp db) :
    r ∈ db.tasks.rows ∧ claimableWhere owner stamp db r = true ∧ r.kind = .command := by
  rw [reservedRows, reservedAfter] at h
  obtain ⟨hstored, hsat⟩ := mem_filter.mp (mem_orderBy.mp (mem_of_mem_limit h))
  rw [Bool.and_eq_true, claimableAfter, Bool.and_eq_true, Bool.and_eq_true,
    beq_iff_eq] at hsat
  exact ⟨hstored, hsat.1.1.1, hsat.2⟩

theorem eq_of_taskId {s : Row} (hr : r ∈ db.tasks.rows)
    (hrw : claimableWhere owner stamp db r = true) (hs : s ∈ db.tasks.rows)
    (hsw : claimableWhere owner stamp db s = true) (hid : r.taskId = s.taskId) : r = s := by
  have hrfound := find_of_mem hr
  have hsfound := find_of_mem hs
  rw [(claimableWhere_iff.mp hrw).1.1.1, hid] at hrfound
  rw [(claimableWhere_iff.mp hsw).1.1.1, hrfound] at hsfound
  exact Option.some.inj hsfound

theorem nodup_readyRows (owner : String) (lim : Int) (stamp : Stamp) (db : Db) :
    (((readyRows owner lim stamp db).map rowToTask).map DurableTask.taskId).Nodup := by
  rw [map_map]
  apply List.Nodup.map_on
  · intro r hr s hs hid
    obtain ⟨hrstored, hrw, -⟩ := mem_readyRows hr
    obtain ⟨hsstored, hsw, -⟩ := mem_readyRows hs
    exact eq_of_taskId hrstored hrw hsstored hsw hid
  · exact (nodup_limit (nodup_orderBy ((rows_nodup db).filter _))).filter _

theorem length_readyRows (hlim : 0 ≤ lim) (stamp : Stamp) (db : Db) :
    ((readyRows owner lim stamp db).length : Int) ≤ lim := by
  have hwindow := length_limit hlim (orderBy Row.createdAt
    (db.tasks.rows.filter (claimableWhere owner stamp db)))
  have hfilter := length_filter_le (Row.ready owner db)
    (claimableWindow owner lim stamp db)
  rw [claimableWindow] at hfilter
  rw [readyRows, claimableWindow]
  omega

/-! ## The reserved command takes its place -/

variable {out : List DurableTask} {reserved : Option DurableTask}

theorem mem_withReserved {t : DurableTask} (h : t ∈ withReserved lim out reserved)
    : t ∈ out ∨ reserved = some t := by
  cases reserved with
  | none => exact .inl h
  | some command =>
    unfold withReserved at h
    dsimp only at h
    split at h
    · rcases mem_snoc.mp h with hold | hnew
      · exact .inl (mem_of_mem_dropLast hold)
      · exact .inr (congrArg some hnew.symm)
    · rcases mem_snoc.mp h with hold | hnew
      · exact .inl hold
      · exact .inr (congrArg some hnew.symm)

theorem reserved_mem_withReserved (lim : Int) (out : List DurableTask)
    (command : DurableTask) : command ∈ withReserved lim out (some command) := by
  unfold withReserved
  dsimp only
  split <;> exact mem_append_right _ (mem_singleton_self command)

theorem length_withReserved (hlim : 1 ≤ lim) (hout : (out.length : Int) ≤ lim)
    (reserved : Option DurableTask) :
    ((withReserved lim out reserved).length : Int) ≤ lim := by
  cases reserved with
  | none => exact hout
  | some command =>
    unfold withReserved
    dsimp only
    split
    · rw [length_append, length_dropLast, length_singleton]
      omega
    · rw [length_append, length_singleton]
      omega

theorem nodup_withReserved (hout : (out.map DurableTask.taskId).Nodup)
    (hfresh : ∀ t ∈ reserved, t.taskId ∉ out.map DurableTask.taskId) :
    ((withReserved lim out reserved).map DurableTask.taskId).Nodup := by
  cases reserved with
  | none => exact hout
  | some command =>
    have hnew := hfresh command rfl
    unfold withReserved
    dsimp only
    split
    · have hsub : (out.dropLast.map DurableTask.taskId).Sublist
          (out.map DurableTask.taskId) := (dropLast_sublist out).map _
      rw [map_append, map_singleton, ← concat_eq_append]
      exact (hout.sublist hsub).concat (fun hmem => hnew (hsub.subset hmem))
    · rw [map_append, map_singleton, ← concat_eq_append]
      exact hout.concat hnew

/-! ## What a call answers -/

/-- The row the reserved slot takes: a ready command that is not among the ready rows
of the window, where those have no command. -/
theorem reserved_spec (h : (reservedRows owner lim stamp db).find? (Row.ready owner db) = some r) :
    (r ∈ db.tasks.rows ∧ claimableWhere owner stamp db r = true ∧
      r.ready owner db = true) ∧ r.kind = .command := by
  obtain ⟨hstored, hwhere, hkind⟩ := mem_reservedRows (mem_of_find?_eq_some h)
  exact ⟨⟨hstored, hwhere, find?_some h⟩, hkind⟩

variable {now : Stamp} {db' : Db}

/-- **What may be answered.**  Every task a call answers is the one of a claimable row
whose dependencies are completed. -/
theorem answers_of_claimable (h : claimable owner lim stamp now db = .ok (db', out)) :
    ∀ t ∈ out, Answers owner stamp db t := by
  have hready : ∀ t ∈ (readyRows owner lim stamp db).map rowToTask,
      Answers owner stamp db t := by
    intro t ht
    obtain ⟨r, hr, rfl⟩ := mem_map.mp ht
    obtain ⟨hstored, hwhere, hrdy⟩ := mem_readyRows hr
    exact ⟨r, hstored, rfl, hwhere, hrdy⟩
  obtain ⟨-, hout⟩ := claimable_ok_iff.mp ⟨db', h⟩
  intro t ht
  split at hout
  · rw [hout.2] at ht
    rcases mem_withReserved ht with hold | hnew
    · exact hready t hold
    · obtain ⟨r, hr, rfl⟩ := Option.map_eq_some_iff.mp hnew
      obtain ⟨⟨hstored, hwhere, hrdy⟩, -⟩ := reserved_spec hr
      exact ⟨r, hstored, rfl, hwhere, hrdy⟩
  · exact hready t (hout ▸ ht)

/-- At most `lim` tasks of distinct ids, whatever the windows reach. -/
theorem bounded_of_claimable (hlim : 1 ≤ lim)
    (h : claimable owner lim stamp now db = .ok (db', out)) :
    (out.length : Int) ≤ lim ∧ (out.map DurableTask.taskId).Nodup := by
  have hlength : (((readyRows owner lim stamp db).map rowToTask).length : Int) ≤ lim := by
    rw [length_map]
    exact length_readyRows (by omega) stamp db
  have hnodup := nodup_readyRows owner lim stamp db
  obtain ⟨-, hout⟩ := claimable_ok_iff.mp ⟨db', h⟩
  split at hout
  · rename_i hslot
    rw [hout.2]
    refine ⟨length_withReserved hlim hlength _, nodup_withReserved hnodup ?_⟩
    intro t ht hmem
    obtain ⟨r, hr, rfl⟩ := Option.map_eq_some_iff.mp ht
    obtain ⟨⟨hstored, hwhere, -⟩, hkind⟩ := reserved_spec hr
    rw [map_map] at hmem
    obtain ⟨s, hs, hid⟩ := mem_map.mp hmem
    obtain ⟨hsstored, hswhere, -⟩ := mem_readyRows hs
    have hsame := eq_of_taskId hsstored hswhere hstored hwhere hid
    exact hslot.2 ⟨s, hs, hsame ▸ hkind⟩
  · rw [hout]
    exact ⟨hlength, hnodup⟩

/-- **The reserved slot** is kept for a ready command on exactly the tables on which
the two windows reach one. -/
theorem reserved_slot_iff (owner : String) (lim : Int) (stamp now : Stamp) (db : Db)
    (hlim : 1 ≤ lim) :
    KeepsSlot owner lim stamp now db ↔ ReachesCommand owner lim stamp db := by
  have hpos : lim > 0 := by omega
  have hcommand : (∃ r ∈ readyRows owner lim stamp db, r.kind = .command) ↔
      ∃ r ∈ claimableWindow owner lim stamp db,
        r.ready owner db = true ∧ r.kind = .command := by
    simp only [readyRows, mem_filter, and_assoc]
  have hserves : ∀ db' out, claimable owner lim stamp now db = .ok (db', out) →
      (Serves owner lim stamp db out ↔
        (HasReadyCommand owner stamp db → ∃ t ∈ out, t.kind = .command)) := by
    intro db' out h
    obtain ⟨hlength, hnodup⟩ := bounded_of_claimable hlim h
    exact ⟨fun hs => hs.command,
      fun hc => ⟨hlength, hnodup, answers_of_claimable h, hc⟩⟩
  constructor
  · rintro ⟨db', out, h, hs⟩
    obtain ⟨hjournal, hout⟩ := claimable_ok_iff.mp ⟨db', h⟩
    refine ⟨hjournal, ?_⟩
    split at hout
    · rename_i hslot
      refine .inr ⟨hout.1, fun hhas => ?_⟩
      obtain ⟨t, ht, hkind⟩ := hs.command hhas
      rw [hout.2] at ht
      rcases mem_withReserved ht with hold | hnew
      · obtain ⟨r, hr, rfl⟩ := mem_map.mp hold
        exact absurd ⟨r, hr, hkind⟩ hslot.2
      · obtain ⟨r, hr, rfl⟩ := Option.map_eq_some_iff.mp hnew
        exact ⟨r, mem_of_find?_eq_some hr, find?_some hr⟩
    · rename_i hslot
      refine .inl (hcommand.mp ?_)
      by_contra hnone
      exact hslot ⟨hpos, hnone⟩
  · rintro ⟨hjournal, hreach⟩
    by_cases hany : ∃ r ∈ readyRows owner lim stamp db, r.kind = .command
    · obtain ⟨db', h⟩ := claimable_ok_iff.mpr ⟨hjournal, (if_neg fun hslot =>
        hslot.2 hany).mpr rfl⟩
      refine ⟨db', _, h, (hserves _ _ h).mpr fun _ => ?_⟩
      obtain ⟨r, hr, hkind⟩ := hany
      exact ⟨rowToTask r, mem_map_of_mem hr, hkind⟩
    · obtain ⟨hjournal', hfound⟩ :=
        hreach.resolve_left (fun h => hany (hcommand.mpr h))
      obtain ⟨db', h⟩ := claimable_ok_iff.mpr ⟨hjournal, (if_pos ⟨hpos, hany⟩).mpr ⟨hjournal', rfl⟩⟩
      refine ⟨db', _, h, (hserves _ _ h).mpr fun hhas => ?_⟩
      obtain ⟨r, hr, hready⟩ := hfound hhas
      have hsome : ((reservedRows owner lim stamp db).find?
          (Row.ready owner db)).isSome = true := find?_isSome.mpr ⟨r, hr, hready⟩
      obtain ⟨s, hs⟩ := Option.isSome_iff_exists.mp hsome
      rw [hs]
      exact ⟨rowToTask s, reserved_mem_withReserved _ _ _, (reserved_spec hs).2⟩

def commandTask (taskId : String) (dependsOn : List String) (createdAt : Stamp) :
    DurableTask where
  taskId
  goal := "send the digest"
  status := .pending
  dependsOn
  kind := .command
  createdAt
  updatedAt := createdAt

/-- Five commands that wait on a goal, the goal, and a sixth command. -/
def sixCommands : List Op :=
  [.enqueue DEFAULT_PRINCIPAL_ID (commandTask "c1" ["goal"] 0),
   .enqueue DEFAULT_PRINCIPAL_ID (commandTask "c2" ["goal"] 1),
   .enqueue DEFAULT_PRINCIPAL_ID (commandTask "c3" ["goal"] 2),
   .enqueue DEFAULT_PRINCIPAL_ID (commandTask "c4" ["goal"] 3),
   .enqueue DEFAULT_PRINCIPAL_ID (commandTask "c5" ["goal"] 4),
   .enqueue DEFAULT_PRINCIPAL_ID
     { taskId := "goal", goal := "write the changelog", status := .pending
       createdAt := 5, updatedAt := 5 },
   .enqueue DEFAULT_PRINCIPAL_ID (commandTask "c6" [] 6)]

/-- Five waiting commands hide the ready sixth from both windows. -/
theorem five_hide_sixth :
    ¬ KeepsSlot DEFAULT_PRINCIPAL_ID 5 7 7 (run step Db.fresh sixCommands) := by
  rintro ⟨db', out, heq, hserves⟩
  have hready : HasReadyCommand DEFAULT_PRINCIPAL_ID 7 (run step Db.fresh sixCommands) :=
    ⟨_, mem_of_getElem? (i := 6) rfl, by decide, by decide, rfl⟩
  obtain ⟨t, ht, -⟩ := hserves.command hready
  cases heq
  cases ht

/-- With seven slots the sixth command is reached. -/
theorem reserved_slot_here :
    KeepsSlot DEFAULT_PRINCIPAL_ID 7 7 7 (run step Db.fresh sixCommands) := by
  refine (reserved_slot_iff _ _ _ _ _ (by decide)).mpr ⟨by decide, .inl ?_⟩
  exact ⟨_, mem_of_getElem? (i := 6) rfl, by decide, rfl⟩

end StackOwl.Durable
