import StackOwl.Lib.Run
import StackOwl.Tools.ApplyPatch

/-!
# Undoing a change

`EditTool` (`tools/io/edit.py`) and `UndoWriteTool` (`tools/io/undo_store.py`): a change of
files by an edit or by a patch, whatever happens to other files and to the ring after it,
and the undo of the change by its token.

The hint an edit gives where nothing matched, and its diff, are left out.

## Main results

* `edit_succeeded`, `execute_succeeded` — what a change that succeeded has done.
* `holds_later` — its snapshot is in the ring still, after fewer others than the bound.
* `undo_exact_iff` — when the undo brings back exactly what was there.
* `reversible_of_distinct` — it does for a patch that names no path twice.
* `carriage_returns_lost` — the undo of an edit of a file with CRLF line endings.
* `ring_kept` — the ring over every session of changes and undos.
-/

namespace StackOwl.Tools

open Lib List Option Function

/-! ## Edits -/

/-- The `OSError`s one edit meets, call by call. -/
structure EditFaults where
  read : Option String := none
  snapshot : Option SnapshotFault := none
  stays : String → Bool := fun _ => false
  write : Option WriteFault := none
  verify : Option String := none
  restore : UndoFaults := {}

/-- `EditTool._err`. -/
def editError (message : String) (committed : Bool) : ToolRun :=
  .returned { success := false, error := some message, sideEffectCommitted := committed }

section
variable (ws : Workspace) (fuzzy : List Char → List Char → List Char → FuzzyResult)

def edit (faults : EditFaults) (token path oldString newString : String) (store : UndoStore)
    (files : Files) : ToolRun × UndoStore × Files :=
  let target := ws.target path
  if path = "" then (editError "Missing path" false, store, files)
  else if oldString = "" then (editError "old_string cannot be empty" false, store, files)
  else if !ws.inside target then (editError "Path traversal denied" false, store, files)
  else
    match readText files target faults.read with
    | .error .missing => (editError ("File not found: " ++ path) false, store, files)
    | .error (.os error) =>
      (editError ("Could not read " ++ path ++ ": " ++ error) false, store, files)
    | .error .undecodable => (.raised "UnicodeDecodeError", store, files)
    | .ok raw =>
      let found := fuzzy (normalizeNewlines raw) (normalizeNewlines oldString.toList)
        (normalizeNewlines newString.toList)
      if found.error.getD "" ≠ "" ∨ found.count = 0 then
        let base := found.error.filter (· ≠ "")
        (editError (base.getD ("Could not find a match for old_string in " ++ path)) false,
          store, files)
      else
        let store := store.snapshot token target raw faults.stays faults.snapshot
        match faults.snapshot with
        | some fault => (.raised fault.error, store, files)
        | none =>
          match writeText files target (withNewline (detectNewline raw) found.content)
              faults.write with
          | (files, some error) =>
            (editError ("Failed to write " ++ path ++ ": " ++ error) true, store, files)
          | (files, none) =>
            match readText files target faults.verify with
            | .error .undecodable => (.raised "UnicodeDecodeError", store, files)
            | .error _ =>
              (editError ("Post-write verification failed: could not re-read " ++ path) true,
                store, files)
            | .ok verify =>
              if normalizeNewlines verify ≠ found.content then
                match store.restore ws.inside faults.restore files token with
                | (.raised what, store, files) => (.raised what, store, files)
                | (.done .., store, files) =>
                  (editError ("Post-write verification failed for " ++ path) true, store, files)
              else
                (.returned { success := true, output := "Edited " ++ path ++ " (matched via " ++
                  found.strategy.getD "None" ++ ").\nUndo token: " ++ token }, store, files)

/-! ## Changes -/

/-- A change of files. -/
inductive Change where
  | edit (path oldString newString : String)
  | patch (text : String)

/-- The `OSError`s a change meets. -/
structure ChangeFaults where
  edit : EditFaults := {}
  ops : Nat → OpFaults := fun _ => {}
  exit : ExitFaults := {}

variable (scan : String → List PatchOperation)

/-- The change is made, under `token` if it succeeds. -/
def perform (faults : ChangeFaults) (token : String) (store : UndoStore) (files : Files) :
    Change → ToolRun × UndoStore × Files
  | .edit path oldString newString =>
    edit ws fuzzy faults.edit token path oldString newString store files
  | .patch text => execute ws fuzzy scan faults.ops faults.exit token text store files

def Change.touched : Change → List String
  | .edit path _ _ => [ws.target path]
  | .patch text => (scan text).flatMap (·.touched ws)

/-! ## Undoing -/

def undoWrite (faults : UndoFaults) (token : Option String) (store : UndoStore)
    (files : Files) : ToolRun × UndoStore × Files :=
  match (token.filter (· ≠ "")).or store.latestToken with
  | none =>
    (.returned
      { success := false
        error := some "Nothing to undo: no snapshots are available."
        sideEffectCommitted := false }, store, files)
  | some token =>
    match store.restore ws.inside faults files token with
    | (.done true message, store, files) =>
      (.returned { success := true, output := message }, store, files)
    | (.done false message, store, files) =>
      (.returned { success := false, error := some message }, store, files)
    | (.raised what, store, files) => (.raised what, store, files)

/-! ## What comes after -/

/-- One thing that happens between a change and its undo. -/
inductive LaterOp where
  | write (path : String) (content : Option (List UInt8))
  | snapshot (token target : String) (content : List Char)
  | group (token : String) (restoreItems : List (String × List Char))
      (deletePaths : List String)

def laterStep (s : UndoStore × Files) : LaterOp → UndoStore × Files
  | .write path content => (s.1, update s.2 path content)
  | .snapshot token target content => (s.1.snapshot token target content, s.2)
  | .group token restoreItems deletePaths =>
    (s.1.snapshotGroup token restoreItems deletePaths, s.2)

def LaterOp.isSnapshot : LaterOp → Bool
  | .write .. => false
  | .snapshot .. | .group .. => true

/-- The operation is about other files, and draws another token. -/
def Elsewhere (touched : List String) (token : String) : LaterOp → Prop
  | .write path _ => path ∉ touched
  | .snapshot next target _ => next ≠ token ∧ target ∉ touched
  | .group next restoreItems deletePaths =>
    next ≠ token ∧ (∀ item ∈ restoreItems, item.1 ∉ touched) ∧
      ∀ path ∈ deletePaths, path ∉ touched

/-- What `uuid4` gives: a token no snapshot of the ring has. -/
structure Fresh (store : UndoStore) (token : String) : Prop where
  nonempty : token ≠ ""
  other : ∀ m ∈ store.index, m.token ≠ token

/-- The undo of the change `token` stands for brings back `files` where the change touched
them; a second one does nothing; the other snapshots are as they were. -/
structure UndoneExactly (files : Files) (touched : List String) (token : String)
    (s : UndoStore × Files) : Prop where
  restored : ∀ path ∈ touched,
    (undoWrite ws {} (some token) s.1 s.2).2.2 path = files path
  once :
    (undoWrite ws {} (some token) (undoWrite ws {} (some token) s.1 s.2).2.1
      (undoWrite ws {} (some token) s.1 s.2).2.2).2 =
      (undoWrite ws {} (some token) s.1 s.2).2
  index : (undoWrite ws {} (some token) s.1 s.2).2.1.index =
    s.1.index.filter fun m => m.token ≠ token
  blobs : ∀ other, other ≠ token →
    (undoWrite ws {} (some token) s.1 s.2).2.1.blobs other = s.1.blobs other

/-- An edit is undone exactly where the file has no carriage return; a patch, where at each
path the last word, of what the operations that took its pre-image found and of nothing for
a file that was created, is what the path held before. -/
def Reversible (ops : Nat → OpFaults) (files : Files) : Change → Prop
  | .edit path _ _ => ∀ raw, (files (ws.target path)).bind decode = some raw → '\r' ∉ raw
  | .patch text => ∀ path ∈ (scan text).flatMap (·.touched ws),
    lastWord path (groupWrites (taken (trail ws fuzzy (planned ops (scan text)) files))
      (made (trail ws fuzzy (planned ops (scan text)) files))) = some (files path)

/-! ## What a successful change has done -/

variable {files : Files} {path : String} {store : UndoStore} {token : String}

theorem edit_succeeded {faults : EditFaults} {oldString newString : String}
    (h : (edit ws fuzzy faults token path oldString newString store files).1.succeeded = true) :
    ∃ raw, files (ws.target path) = some (encode raw) ∧ ws.inside (ws.target path) = true ∧
      (edit ws fuzzy faults token path oldString newString store files).2.1 =
        store.snapshot token (ws.target path) raw faults.stays := by
  simp only [edit] at h ⊢
  split at h
  · cases h
  split at h
  · cases h
  split at h
  · cases h
  rename_i hpath hold hinside
  rw [if_neg hpath, if_neg hold, if_neg hinside]
  split at h
  · cases h
  · cases h
  · cases h
  rename_i raw hread
  split at h
  · cases h
  rename_i hfound
  rw [if_neg hfound]
  cases hsnapshot : faults.snapshot with
  | some error =>
    rw [hsnapshot] at h
    cases h
  | none =>
    rw [hsnapshot] at h
    simp only at h ⊢
    generalize writeText files _ _ _ = out at h ⊢
    obtain ⟨files', _ | error⟩ := out
    · simp only at h ⊢
      split at h
      · cases h
      · cases h
      · split at h
        · split at h <;> cases h
        · rename_i hsame
          rw [if_neg hsame]
          exact ⟨raw, encode_of_readText hread, by simpa using hinside, rfl⟩
    · cases h

variable {patch : String}

theorem execute_succeeded {faults : Nat → OpFaults} {exit : ExitFaults}
    (h : (execute ws fuzzy scan faults exit token patch store files).1.succeeded = true) :
    refusal ws scan patch = none ∧
      stop (trail ws fuzzy (planned faults (scan patch)) files) = none ∧
      (execute ws fuzzy scan faults exit token patch store files).2.1 =
        store.snapshotGroup token (taken (trail ws fuzzy (planned faults (scan patch)) files))
          (made (trail ws fuzzy (planned faults (scan patch)) files)) exit.stays := by
  unfold execute at h ⊢
  cases hrefused : refusal ws scan patch with
  | some error =>
    rw [hrefused] at h
    cases h
  | none =>
    rw [hrefused] at h
    simp only [(of_refusal ws hrefused).1] at h ⊢
    obtain ⟨hstop, hsnapshot⟩ := (applyAll_succeeded ws fuzzy _ exit token store files).mp h
    refine ⟨trivial, hstop, ?_⟩
    rw [applyAll, applyOps_trail, hstop, hsnapshot]
    rfl

/-! ## The books of a successful patch -/

variable {ops : List (PatchOperation × OpFaults)}

theorem touched_of_booked {w : String × Option (List UInt8)}
    (h : w ∈ groupWrites (taken (trail ws fuzzy ops files)) (made (trail ws fuzzy ops files))) :
    w.1 ∈ ops.flatMap (·.1.touched ws) := by
  induction ops generalizing files with
  | nil => exact absurd h not_mem_nil
  | cons head ops ih =>
    obtain ⟨op, faults⟩ := head
    have hop := reported ws fuzzy op faults files
    rw [trail] at h
    generalize report ws fuzzy op faults files = r at h hop
    have hparts : w ∈ groupWrites r.1.preImages r.1.created ∨
        w ∈ groupWrites (taken (trail ws fuzzy ops r.1.files))
          (made (trail ws fuzzy ops r.1.files)) := by
      obtain ⟨r, _ | error⟩ := r <;>
        simp only [groupWrites, taken, made, flatMap_cons, map_append, mem_append,
          isNone_none, isNone_some, if_true, Bool.false_eq_true, if_false,
          flatMap_nil, append_nil] at h ⊢ <;> tauto
    rw [flatMap_cons, mem_append]
    rcases hparts with hhead | htail
    · refine Or.inl ?_
      rcases mem_append.mp hhead with htook | hmade
      · obtain ⟨item, hitem, rfl⟩ := mem_map.mp htook
        exact (hop.found item hitem).1
      · obtain ⟨path, hpath, rfl⟩ := mem_map.mp hmade
        exact (hop.missing path hpath).1
    · exact Or.inr (ih htail)

theorem booked_of_touched (hstop : stop (trail ws fuzzy ops files) = none)
    (h : path ∈ ops.flatMap (·.1.touched ws)) :
    ∃ w ∈ groupWrites (taken (trail ws fuzzy ops files)) (made (trail ws fuzzy ops files)),
      w.1 = path := by
  induction ops generalizing files with
  | nil => exact absurd h not_mem_nil
  | cons head ops ih =>
    obtain ⟨op, faults⟩ := head
    have hop := reported ws fuzzy op faults files
    rw [trail] at hstop ⊢
    generalize report ws fuzzy op faults files = r at hstop hop ⊢
    obtain ⟨r, _ | error⟩ := r
    · rw [stop_cons rfl] at hstop
      have hjoin : ∀ w, w ∈ groupWrites r.preImages r.created ∨
          w ∈ groupWrites (taken (trail ws fuzzy ops r.files))
            (made (trail ws fuzzy ops r.files)) →
          w ∈ groupWrites (taken ((r, none) :: trail ws fuzzy ops r.files))
            (made ((r, none) :: trail ws fuzzy ops r.files)) := by
        intro w hw
        simp only [groupWrites, taken, made, flatMap_cons, map_append,
          mem_append] at hw ⊢
        tauto
      rcases mem_append.mp (flatMap_cons ▸ h) with hhead | htail
      · rcases hop.booked rfl path hhead with ⟨item, hitem, rfl⟩ | hmade
        · exact ⟨_, hjoin _ (Or.inl (mem_append_left _ (mem_map.mpr ⟨item, hitem, rfl⟩))), rfl⟩
        · exact ⟨_, hjoin _ (Or.inl (mem_append_right _ (mem_map.mpr ⟨path, hmade, rfl⟩))), rfl⟩
      · obtain ⟨w, hw, hpath⟩ := ih hstop htail
        exact ⟨w, hjoin w (Or.inr hw), hpath⟩
    · cases hstop

theorem inside_of_touched (h : refusal ws scan patch = none)
    (hpath : path ∈ (scan patch).flatMap (·.touched ws)) : ws.inside path = true := by
  obtain ⟨-, hparsed, hinside⟩ := of_refusal ws h
  obtain ⟨op, hop, hpath⟩ := mem_flatMap.mp hpath
  obtain ⟨named, hnamed, rfl⟩ := mem_map.mp hpath
  refine hinside op hop named ?_
  have herrors := hparsed op hop
  unfold PatchOperation.parseErrors at herrors
  unfold PatchOperation.paths
  rcases mem_cons.mp hnamed with rfl | hnew
  · exact mem_cons_self
  · refine mem_cons_of_mem _ ?_
    cases hkind : op.operation with
    | add | update | delete => simp [hkind] at hnew
    | move =>
      rw [hkind] at hnew
      have hsome : op.newPath = some named := by simpa using hnew
      have hne : named ≠ "" := by
        rintro rfl
        simp [hkind, hsome] at herrors
      simp [hsome, Option.filter, hne]

/-! ## The undo -/

variable {s : UndoStore × Files}

/-- The snapshot of a change is in the ring after fewer others than the bound. -/
theorem holds_later {snap : SnapshotMeta} {blob : List UInt8} {newer : Nat}
    (h : s.1.Holds snap blob newer) {touched : List String} {later : List LaterOp}
    (helse : ∀ op ∈ later, Elsewhere touched snap.token op)
    (hfew : newer + later.countP LaterOp.isSnapshot < s.1.bound) :
    ∃ newer', (run laterStep s later).1.Holds snap blob newer' := by
  induction later generalizing s newer with
  | nil => exact ⟨newer, h⟩
  | cons op later ih =>
    have hhead := helse op mem_cons_self
    have htail := fun next hnext => helse next (mem_cons_of_mem _ hnext)
    rw [countP_cons] at hfew
    cases op with
    | write path content =>
      rw [LaterOp.isSnapshot, if_neg (by decide)] at hfew
      exact ih (s := laterStep s (.write path content)) h htail hfew
    | snapshot token target content =>
      rw [LaterOp.isSnapshot, if_pos rfl] at hfew
      have hpushed := h.push (by omega) ⟨token, .file target⟩ (encode content) (fun _ => false)
        hhead.1
      exact ih (s := laterStep s (.snapshot token target content)) hpushed htail
        (by rw [laterStep, UndoStore.snapshot, UndoStore.bound_push]; omega)
    | group token restoreItems deletePaths =>
      rw [LaterOp.isSnapshot, if_pos rfl] at hfew
      have hpushed := h.push (by omega) ⟨token, .group⟩ (groupBlob restoreItems deletePaths)
        (fun _ => false) hhead.1
      exact ih (s := laterStep s (.group token restoreItems deletePaths)) hpushed htail
        (by rw [laterStep, UndoStore.snapshotGroup, UndoStore.bound_push]; omega)

theorem undoWrite_snd (htoken : token ≠ "") (faults : UndoFaults) (store : UndoStore)
    (files : Files) :
    (undoWrite ws faults (some token) store files).2 =
      (store.restore ws.inside faults files token).2 := by
  have hgiven : (Option.filter (fun t => decide (t ≠ "")) (some token)).or store.latestToken =
      some token := by
    simp [Option.filter, htoken]
  unfold undoWrite
  rw [hgiven]
  simp only
  generalize store.restore ws.inside faults files token = out
  obtain ⟨⟨_ | _, message⟩ | _, store', files'⟩ := out <;> rfl

/-- Where the restore drops the snapshot and leaves `after`, only `after` is in question. -/
theorem undoneExactly_iff (htoken : token ≠ "") {message : String} {after : Files}
    (h : s.1.restore ws.inside {} s.2 token = (.done true message, s.1.consume token, after))
    (files : Files) (touched : List String) :
    UndoneExactly ws files touched token s ↔ ∀ path ∈ touched, after path = files path := by
  have hundo : (undoWrite ws {} (some token) s.1 s.2).2 = (s.1.consume token, after) := by
    rw [undoWrite_snd ws htoken, h]
  constructor
  · intro hexact path hpath
    rw [← hexact.restored path hpath, hundo]
  · intro hback
    refine ⟨fun path hpath => by rw [hundo]; exact hback path hpath, ?_, by rw [hundo]; rfl,
      fun other hother => ?_⟩
    · rw [hundo, undoWrite_snd ws htoken]
      obtain ⟨again, hagain⟩ := s.1.restore_consume ws.inside {} after token
      rw [hagain]
    · rw [hundo]
      exact update_of_ne hother ..

/-- After a change that succeeded and fewer than `max_snapshots` snapshots of other files,
the undo by its token brings back exactly what was there if and only if the change is
reversible. -/
theorem undo_exact_iff (change : Change) (faults : ChangeFaults) (token : String)
    (store : UndoStore) (files : Files) (later : List LaterOp) (hfresh : Fresh store token)
    (hdone : (perform ws fuzzy scan faults token store files change).1.succeeded = true)
    (hlater : ∀ op ∈ later, Elsewhere (change.touched ws scan) token op)
    (hfew : later.countP LaterOp.isSnapshot ≤ store.maxSnapshots - 1) :
    UndoneExactly ws files (change.touched ws scan) token
        (run laterStep (perform ws fuzzy scan faults token store files change).2 later) ↔
      Reversible ws fuzzy scan faults.ops files change := by
  have hroom : 0 + later.countP LaterOp.isSnapshot < store.bound := by
    unfold UndoStore.bound
    omega
  cases change with
  | edit path oldString newString =>
    obtain ⟨raw, hraw, hinside, hstore⟩ := edit_succeeded ws fuzzy hdone
    have hholds : (perform ws fuzzy scan faults token store files
        (.edit path oldString newString)).2.1.Holds ⟨token, .file (ws.target path)⟩
          (encode raw) 0 := by
      rw [perform, hstore]
      exact store.holds_push _ _ _ hfresh.other
    have hbound : (perform ws fuzzy scan faults token store files
        (.edit path oldString newString)).2.1.bound = store.bound := by
      rw [perform, hstore]
      rfl
    obtain ⟨newer, hring⟩ := holds_later hholds hlater (hbound ▸ hroom)
    obtain ⟨message, hrestore⟩ := hring.restore_file hinside
      (run laterStep (perform ws fuzzy scan faults token store files
        (.edit path oldString newString)).2 later).2
    rw [undoneExactly_iff ws hfresh.nonempty hrestore]
    simp only [Change.touched, mem_singleton, forall_eq, update_self, hraw,
      Option.some.injEq, encode_inj, normalizeNewlines_eq_self_iff, Reversible, bind_some,
      decode_encode, forall_eq']
  | patch text =>
    obtain ⟨hrefused, hstop, hstore⟩ := execute_succeeded ws fuzzy scan hdone
    have htouched := flatMap_touched_planned ws faults.ops (scan text)
    have hbooked := fun path (hpath : path ∈ (scan text).flatMap (·.touched ws)) =>
      booked_of_touched ws fuzzy hstop (htouched ▸ hpath)
    have hinside : ∀ w ∈ groupWrites (taken (trail ws fuzzy (planned faults.ops (scan text)) files))
        (made (trail ws fuzzy (planned faults.ops (scan text)) files)),
        ws.inside w.1 = true := fun w hw =>
      inside_of_touched ws scan hrefused (htouched ▸ touched_of_booked ws fuzzy hw)
    have hholds : (perform ws fuzzy scan faults token store files (.patch text)).2.1.Holds
        ⟨token, .group⟩ (groupBlob (taken (trail ws fuzzy (planned faults.ops (scan text)) files))
          (made (trail ws fuzzy (planned faults.ops (scan text)) files))) 0 := by
      rw [perform, hstore]
      exact store.holds_push _ _ _ hfresh.other
    have hbound : (perform ws fuzzy scan faults token store files (.patch text)).2.1.bound =
        store.bound := by
      rw [perform, hstore]
      rfl
    obtain ⟨newer, hring⟩ := holds_later hholds hlater (hbound ▸ hroom)
    obtain ⟨message, hrestore⟩ := hring.restore_group
      (fun item hitem => hinside (item.1, some (encode item.2))
        (mem_append_left _ (mem_map.mpr ⟨item, hitem, rfl⟩)))
      (fun path hpath => hinside (path, none) (mem_append_right _ (mem_map.mpr ⟨path, hpath, rfl⟩)))
      (run laterStep (perform ws fuzzy scan faults token store files (.patch text)).2 later).2
    rw [undoneExactly_iff ws hfresh.nonempty hrestore]
    refine forall₂_congr fun path hpath => ?_
    rw [replay_apply]
    cases hword : lastWord path _ with
    | none =>
      obtain ⟨w, hw, hp⟩ := hbooked path hpath
      exact absurd hp ((lastWord_eq_none_iff path _).mp hword w hw)
    | some content => rw [getD_some, Option.some.injEq]

/-- A patch that went through is reversible where it names no path twice and every file it
names is a text. -/
theorem reversible_of_distinct {text : String} {ops : Nat → OpFaults}
    (hrefused : refusal ws scan text = none)
    (hstop : stop (trail ws fuzzy (planned ops (scan text)) files) = none)
    (hdistinct : ((scan text).flatMap (·.touched ws)).Nodup)
    (hread : ∀ path ∈ (scan text).flatMap (·.touched ws), ∀ bytes, files path = some bytes →
      (decode bytes).isSome = true)
    (hwhole : ∀ i kept error, (ops i).write ≠ some (.torn kept error)) :
    Reversible ws fuzzy scan ops files (.patch text) := by
  obtain ⟨-, hparsed, -⟩ := of_refusal ws hrefused
  have htouched := flatMap_touched_planned ws ops (scan text)
  have horiginals := tookOriginals_planned ws fuzzy files hdistinct hread hwhole hparsed
  intro path hpath
  exact lastWord_eq_some (booked_of_touched ws fuzzy hstop (htouched ▸ hpath))
    (horiginals.words_same path)

end

/-! ## Two edits -/

def matching (old new : List Char) (content _ _ : List Char) : FuzzyResult :=
  if content = old then ⟨new, 1, some "exact", none⟩ else ⟨content, 0, none, some "no match"⟩

/-- One file is appended to, another is deleted and a third is made. -/
theorem reversible_of_distinct_added :
    Reversible ⟨id, id, fun _ => true⟩ (matching [] ['x'])
      (fun _ => [appending "a" "x", { operation := .delete, filePath := "b" },
        { operation := .add, filePath := "c", hunks := [{ lines := [⟨.added, "y"⟩] }] }])
      (fun _ => {}) (fun path => if path = "a" ∨ path = "b" then some [] else none)
      (.patch "p") :=
  reversible_of_distinct ⟨id, id, fun _ => true⟩ _ _ (by decide) (by decide) (by decide)
    (by
      intro path _ bytes h
      split at h <;> cases h
      rfl)
    nofun

/-- A file with one line feed is restored. -/
theorem undo_exact_iff_line_feed :
    let ws : Workspace := ⟨id, id, fun _ => true⟩
    let files : Files := fun path => if path = "a" then some [97, 10] else none
    let change : Change := .edit "a" "a" "b"
    UndoneExactly ws files (change.touched ws fun _ => []) "t"
        (run laterStep (perform ws (matching ['a', '\n'] ['b', '\n']) (fun _ => []) {} "t" {}
          files change).2 [.snapshot "u" "c" []]) ↔
      Reversible ws (matching ['a', '\n'] ['b', '\n']) (fun _ => []) (fun _ => {}) files
        change := by
  intro ws files change
  exact undo_exact_iff ws _ (fun _ => []) change {} "t" {} files [.snapshot "u" "c" []]
    ⟨by decide, nofun⟩ (by decide)
    (by simp [Elsewhere, change, Change.touched, ws, Workspace.target]) (by decide)

/-- A file with CRLF line endings comes back with line feeds. -/
theorem carriage_returns_lost :
    ¬ ∀ (ws : Workspace) (fuzzy : List Char → List Char → List Char → FuzzyResult)
      (scan : String → List PatchOperation) (change : Change) (faults : ChangeFaults)
      (token : String) (store : UndoStore) (files : Files) (later : List LaterOp),
      Fresh store token →
      (perform ws fuzzy scan faults token store files change).1.succeeded = true →
      (∀ op ∈ later, Elsewhere (change.touched ws scan) token op) →
      later.countP LaterOp.isSnapshot ≤ store.maxSnapshots - 1 →
      UndoneExactly ws files (change.touched ws scan) token
        (run laterStep (perform ws fuzzy scan faults token store files change).2 later) := by
  intro h
  let files : Files := fun path => if path = "a" then some [97, 13, 10] else none
  have hexact := h ⟨id, id, fun _ => true⟩ (matching ['a', '\n'] ['b', '\n']) (fun _ => [])
    (.edit "a" "a" "b") {} "t" {} files [] ⟨by decide, nofun⟩ (by decide) nofun (by decide)
  have hrestored := hexact.restored "a" mem_cons_self
  revert hrestored
  decide

/-! ## The ring over a session -/

/-- No more snapshots than the bound, each under a token of its own. -/
structure UndoStore.Ring (store : UndoStore) : Prop where
  bounded : store.index.length ≤ store.bound
  distinct : (store.index.map SnapshotMeta.token).Nodup

/-- No snapshot is without its blob. -/
def UndoStore.Backed (store : UndoStore) : Prop :=
  ∀ token ∈ store.index.map SnapshotMeta.token, (store.blobs token).isSome = true

/-- No blob is without its snapshot. -/
def UndoStore.Listed (store : UndoStore) : Prop :=
  ∀ token, (store.blobs token).isSome = true → token ∈ store.index.map SnapshotMeta.token

/-- In a run in which the index is always `saved`, and no blob stays behind where it is `tidy`. -/
structure UndoStore.Kept (saved tidy : Prop) (store : UndoStore) : Prop where
  ring : store.Ring
  backed : saved → store.Backed
  listed : saved → tidy → store.Listed

/-- The index is saved. -/
def Saves (fault : Option SnapshotFault) : Prop := ∀ index, fault ≠ some (.index index)

/-- No blob is written in part, and none stays that is to go. -/
def Tidies (fault : Option SnapshotFault) (stays : String → Bool) : Prop :=
  (∀ kept error, fault ≠ some (.blob (.torn kept error))) ∧ ∀ token, stays token = false

theorem saveIndex_cases (old new : List SnapshotMeta) (fault : Option IndexFault) :
    saveIndex old new fault = new ∨ saveIndex old new fault = old ∨
      saveIndex old new fault = [] := by
  obtain _ | ⟨_ | _⟩ | ⟨_ | _, _⟩ := fault <;> simp [saveIndex]

theorem evict_listed {stays : String → Bool} (hstays : ∀ token, stays token = false)
    {bound : Nat} {metas : List SnapshotMeta} {blobs : String → Option (List UInt8)}
    (h : ∀ token, (blobs token).isSome = true → token ∈ metas.map SnapshotMeta.token)
    (token : String) (hblob : ((evict stays bound metas blobs).2 token).isSome = true) :
    token ∈ (evict stays bound metas blobs).1.map SnapshotMeta.token := by
  induction metas generalizing blobs with
  | nil => exact h token hblob
  | cons stale metas ih =>
    rw [evict] at hblob ⊢
    split at hblob
    · rename_i hlong
      rw [if_pos hlong]
      refine ih (fun other hother => ?_) hblob
      rw [hstays, if_neg Bool.false_ne_true] at hother
      by_cases hstale : other = stale.token
      · rw [hstale, update_self] at hother
        cases hother
      · rw [update_of_ne hstale] at hother
        exact (mem_cons.mp (h other hother)).resolve_left hstale
    · rename_i hshort
      rw [if_neg hshort]
      exact h token hblob

section

variable {saved tidy : Prop} {store : UndoStore} {token : String} {snap : SnapshotMeta}

/-- A saved index is a ring where the old one and the new one are. -/
theorem UndoStore.Ring.save {new : List SnapshotMeta} (h : store.Ring)
    (hbounded : new.length ≤ store.bound) (hdistinct : (new.map SnapshotMeta.token).Nodup)
    (blobs : String → Option (List UInt8)) (fault : Option IndexFault) :
    ({ store with index := saveIndex store.index new fault, blobs } : UndoStore).Ring := by
  rcases saveIndex_cases store.index new fault with heq | heq | heq
  · exact ⟨by rw [heq]; exact hbounded, by rw [heq]; exact hdistinct⟩
  · exact ⟨by rw [heq]; exact h.bounded, by rw [heq]; exact h.distinct⟩
  · exact ⟨by rw [heq]; exact Nat.zero_le _, by rw [heq]; exact nodup_nil⟩

theorem UndoStore.Ring.append (h : store.Ring)
    (hfresh : snap.token ∉ store.index.map SnapshotMeta.token) :
    ((store.index ++ [snap]).map SnapshotMeta.token).Nodup := by
  rw [map_append, nodup_append']
  refine ⟨h.distinct, nodup_singleton _, ?_⟩
  rintro _ hold hnew
  rw [map_singleton, mem_singleton] at hnew
  exact hfresh (hnew ▸ hold)

theorem UndoStore.Kept.push (h : store.Kept saved tidy)
    (hfresh : snap.token ∉ store.index.map SnapshotMeta.token) (blob : List UInt8)
    {stays : String → Bool} {fault : Option SnapshotFault} (hsaves : saved → Saves fault)
    (htidies : tidy → Tidies fault stays) : (store.push snap blob stays fault).Kept saved tidy := by
  have hnodup := h.ring.append hfresh
  have hindex := evict_index stays store.bound (store.index ++ [snap])
    (update store.blobs snap.token (some blob))
  have hlength : (evict stays store.bound (store.index ++ [snap])
      (update store.blobs snap.token (some blob))).1.length ≤ store.bound := by
    rw [hindex, length_drop]
    omega
  have hkept : ((evict stays store.bound (store.index ++ [snap])
      (update store.blobs snap.token (some blob))).1.map SnapshotMeta.token).Nodup := by
    rw [hindex]
    exact hnodup.sublist ((drop_sublist _ _).map _)
  rcases fault with _ | ⟨_ | ⟨kept, error⟩⟩ | fault
  · refine ⟨h.ring.save hlength hkept _ none, fun hsaved => ?_, fun hsaved htidy => ?_⟩
    · -- the blobs of the snapshots that stay are not among those that go
      intro token htoken
      show ((evict stays store.bound _ _).2 token).isSome = true
      change token ∈ (evict stays store.bound _ _).1.map SnapshotMeta.token at htoken
      rw [hindex] at htoken
      rw [← take_append_drop ((store.index ++ [snap]).length - store.bound)
        (store.index ++ [snap]), map_append, nodup_append'] at hnodup
      rw [evict_blobs _ _ _ _ fun m hm heq =>
        hnodup.2.2 (mem_map_of_mem hm) (heq ▸ htoken)]
      have hthere := ((drop_sublist _ _).map SnapshotMeta.token).subset htoken
      by_cases hnew : token = snap.token
      · rw [hnew, update_self]
        rfl
      · rw [update_of_ne hnew]
        rw [map_append, mem_append, map_singleton, mem_singleton] at hthere
        exact h.backed hsaved token (hthere.resolve_right hnew)
    · refine evict_listed (htidies htidy).2 fun token hblob => ?_
      by_cases hnew : token = snap.token
      · simp [hnew]
      · rw [update_of_ne hnew] at hblob
        rw [map_append]
        exact mem_append_left _ (h.listed hsaved htidy token hblob)
  · exact h
  · refine ⟨⟨h.ring.bounded, h.ring.distinct⟩, fun hsaved token htoken => ?_, fun _ htidy => ?_⟩
    · show (update store.blobs snap.token _ token).isSome = true
      rw [update_apply]
      split
      · rfl
      · exact h.backed hsaved token htoken
    · exact absurd rfl ((htidies htidy).1 kept error)
  · have hnever : saved → False := fun hsaved => hsaves hsaved fault rfl
    exact ⟨h.ring.save hlength hkept _ (some fault), fun hsaved => (hnever hsaved).elim,
      fun hsaved => (hnever hsaved).elim⟩

variable {faults : UndoFaults} (hsaves : saved → faults.index = none)
  (htidies : tidy → faults.blobStays = false)

include hsaves htidies

theorem UndoStore.Kept.consume (h : store.Kept saved tidy) (token : String) :
    (store.consume token faults).Kept saved tidy := by
  refine ⟨h.ring.save ((length_filter_le _ _).trans h.ring.bounded)
    (h.ring.distinct.sublist (filter_sublist.map _)) _ _, fun hsaved other hother => ?_,
    fun hsaved htidy other hblob => ?_⟩
  · change other ∈ (saveIndex _ _ faults.index).map SnapshotMeta.token at hother
    rw [hsaves hsaved] at hother
    obtain ⟨m, hm, rfl⟩ := mem_map.mp hother
    obtain ⟨hm, hne⟩ := mem_filter.mp hm
    have hblob := h.backed hsaved _ (mem_map_of_mem hm)
    show ((if faults.blobStays then _ else _ : String → Option (List UInt8)) m.token).isSome = true
    split
    · exact hblob
    · rw [update_of_ne (by simpa using hne)]
      exact hblob
  · change ((if faults.blobStays then _ else _ : String → Option (List UInt8)) other).isSome =
      true at hblob
    rw [htidies htidy, if_neg Bool.false_ne_true] at hblob
    show other ∈ (saveIndex _ _ faults.index).map SnapshotMeta.token
    rw [hsaves hsaved]
    by_cases hother : other = token
    · rw [hother, update_self] at hblob
      cases hblob
    · rw [update_of_ne hother] at hblob
      obtain ⟨m, hm, rfl⟩ := mem_map.mp (h.listed hsaved htidy other hblob)
      exact mem_map_of_mem (mem_filter.mpr ⟨hm, by simpa using hother⟩)

theorem UndoStore.Kept.restore (h : store.Kept saved tidy) {inside : String → Bool}
    {files : Files} {out : Restored × UndoStore × Files}
    (hout : store.restore inside faults files token = out) : out.2.1.Kept saved tidy := by
  subst hout
  unfold UndoStore.restore restoreGroup
  repeat' split
  all_goals first | exact h | exact h.consume hsaves htidies token

end

section
variable (ws : Workspace) (fuzzy : List Char → List Char → List Char → FuzzyResult)
  (scan : String → List PatchOperation) {saved tidy : Prop} {store : UndoStore} {token : String}

/-- What a session does: a change under a token, an undo, and what others write. -/
inductive SessionOp where
  | change (faults : ChangeFaults) (token : String) (change : Change)
  | undo (faults : UndoFaults) (token : Option String)
  | write (path : String) (content : Option (List UInt8))

def sessionStep (s : UndoStore × Files) : SessionOp → UndoStore × Files
  | .change faults token change => (perform ws fuzzy scan faults token s.1 s.2 change).2
  | .undo faults token => (undoWrite ws faults token s.1 s.2).2
  | .write path content => (s.1, update s.2 path content)

/-- A new token is one that no snapshot has. -/
def FreshToken (s : UndoStore × Files) : SessionOp → Prop
  | .change _ token _ => token ∉ s.1.index.map SnapshotMeta.token
  | .undo .. | .write .. => True

def IndexSaved (_ : UndoStore × Files) : SessionOp → Prop
  | .change faults _ _ =>
    Saves faults.edit.snapshot ∧ faults.edit.restore.index = none ∧ Saves faults.exit.snapshot
  | .undo faults _ => faults.index = none
  | .write .. => True

def BlobsTidy (_ : UndoStore × Files) : SessionOp → Prop
  | .change faults _ _ =>
    Tidies faults.edit.snapshot faults.edit.stays ∧ faults.edit.restore.blobStays = false ∧
      Tidies faults.exit.snapshot faults.exit.stays
  | .undo faults _ => faults.blobStays = false
  | .write .. => True

variable {s : UndoStore × Files}

/-- A change takes a snapshot under its token, or none; an edit whose write is not what it reads
back takes its own back. -/
theorem UndoStore.Kept.perform {faults : ChangeFaults} {change : Change} (h : s.1.Kept saved tidy)
    (hfresh : FreshToken s (.change faults token change))
    (hsaves : saved → IndexSaved s (.change faults token change))
    (htidies : tidy → BlobsTidy s (.change faults token change)) :
    (perform ws fuzzy scan faults token s.1 s.2 change).2.1.Kept saved tidy := by
  cases change with
  | edit path oldString newString =>
    show (edit ws fuzzy faults.edit token path oldString newString s.1 s.2).2.1.Kept saved tidy
    have htaken := fun raw => @Kept.push _ _ _ ⟨token, .file (ws.target path)⟩ h hfresh
      (encode raw) _ _ (fun hsaved => (hsaves hsaved).1) fun htidy => (htidies htidy).1
    unfold edit
    dsimp only
    repeat' split
    all_goals first | exact h | exact htaken _ | skip
    all_goals
      rename_i hrestore
      exact (htaken _).restore (fun hsaved => (hsaves hsaved).2.1)
        (fun htidy => (htidies htidy).2.1) hrestore
  | patch text =>
    show (execute ws fuzzy scan faults.ops faults.exit token text s.1 s.2).2.1.Kept saved tidy
    have htaken := fun blob => @Kept.push _ _ _ ⟨token, .group⟩ h hfresh blob _ _
      (fun hsaved => (hsaves hsaved).2.2) fun htidy => (htidies htidy).2.2
    unfold execute applyAll
    repeat' split
    all_goals first | exact h | exact htaken _

theorem UndoStore.Kept.session {op : SessionOp} (h : s.1.Kept saved tidy) (hfresh : FreshToken s op)
    (hsaves : saved → IndexSaved s op) (htidies : tidy → BlobsTidy s op)
    : (sessionStep ws fuzzy scan s op).1.Kept saved tidy := by
  cases op with
  | change faults token change => exact h.perform ws fuzzy scan hfresh hsaves htidies
  | undo faults token =>
    show (undoWrite ws faults token s.1 s.2).2.1.Kept saved tidy
    unfold undoWrite
    split
    · exact h
    · rename_i token _
      generalize hout : s.1.restore ws.inside faults s.2 token = out
      have hleft := h.restore hsaves htidies hout
      obtain ⟨⟨_ | _, message⟩ | what, store, files⟩ := out <;> exact hleft
  | write path content => exact h

/-- **The ring** over every session of changes and undos.  Whatever fails on the way, it holds no
more snapshots than its bound, each under a token of its own.  While the index can be saved, each
has its blob; and there is no other one while blobs are written whole and unlinked besides. -/
theorem ring_kept (files : Files) (maxSnapshots : Nat) (ops : List SessionOp)
    (h : Meets (sessionStep ws fuzzy scan) FreshToken ({ maxSnapshots }, files) ops) :
    Along (sessionStep ws fuzzy scan) (fun s => s.1.Ring) ({ maxSnapshots }, files) ops ∧
      (Meets (sessionStep ws fuzzy scan) IndexSaved ({ maxSnapshots }, files) ops →
        Along (sessionStep ws fuzzy scan) (fun s => s.1.Backed) ({ maxSnapshots }, files) ops ∧
          (Meets (sessionStep ws fuzzy scan) BlobsTidy ({ maxSnapshots }, files) ops →
            Along (sessionStep ws fuzzy scan) (fun s => s.1.Listed) ({ maxSnapshots }, files)
              ops)) := by
  have hinit (saved tidy : Prop) : UndoStore.Kept saved tidy { maxSnapshots } :=
    ⟨⟨Nat.zero_le _, nodup_nil⟩, fun _ => nofun, fun _ _ => nofun⟩
  refine ⟨?_, fun hsaved => ⟨?_, fun htidy => ?_⟩⟩
  · exact (along_of_meets (fun (s : UndoStore × Files) op (hkept : s.1.Kept False False) hfresh =>
      hkept.session ws fuzzy scan hfresh False.elim False.elim) (hinit _ _) h).mono
        fun _ hkept => hkept.ring
  · exact (along_of_meets (fun (s : UndoStore × Files) op (hkept : s.1.Kept True False) hmeets =>
      hkept.session ws fuzzy scan hmeets.1 (fun _ => hmeets.2) False.elim) (hinit _ _)
        (meets_and.mpr ⟨h, hsaved⟩)).mono fun _ hkept => hkept.backed trivial
  · exact (along_of_meets (fun (s : UndoStore × Files) op (hkept : s.1.Kept True True) hmeets =>
      hkept.session ws fuzzy scan hmeets.1 (fun _ => hmeets.2.1) fun _ => hmeets.2.2) (hinit _ _)
        (meets_and.mpr ⟨h, meets_and.mpr ⟨hsaved, htidy⟩⟩)).mono fun _ hkept =>
          hkept.listed trivial trivial

end

theorem ring_kept_undone :
    let files : Files := fun path => if path = "a" then some [97, 10] else none
    let ops : List SessionOp :=
      [.change {} "t" (.edit "a" "a" "b"), .change {} "u" (.edit "a" "a" "b"), .undo {} none]
    Along (sessionStep ⟨id, id, fun _ => true⟩ (matching ['a', '\n'] ['b', '\n']) fun _ => [])
      (fun s => s.1.Listed) ({ maxSnapshots := 1 }, files) ops := by
  intro files ops
  have hkept := ring_kept ⟨id, id, fun _ => true⟩ (matching ['a', '\n'] ['b', '\n'])
    (fun _ => []) files 1 ops
    ⟨(by decide : "t" ∉ ([] : List String)), (by decide : "u" ∉ ["t"]), trivial, trivial⟩
  exact (hkept.2 ⟨⟨nofun, rfl, nofun⟩, ⟨nofun, rfl, nofun⟩, rfl, trivial⟩).2
    ⟨⟨⟨nofun, fun _ => rfl⟩, rfl, nofun, fun _ => rfl⟩,
      ⟨⟨nofun, fun _ => rfl⟩, rfl, nofun, fun _ => rfl⟩, rfl, trivial⟩

end StackOwl.Tools
