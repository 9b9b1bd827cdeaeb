import Mathlib.Data.List.DropRight
import StackOwl.Tools.UndoStore

/-!
# Applying a patch

`ApplyPatchTool` (`tools/io/apply_patch.py`).  The operations of a patch are carried out
in order; the pre-image of each file that is updated, deleted or moved is put on a list
first, each file that was created on another one.  Where an operation fails, rollback
writes the pre-images back in the order they were taken and then deletes what was created.

The reading of a patch's lines, the fuzzy matcher and `pathlib`'s resolution of a path are
parameters; no link changes while a patch is applied.  The diffs of the report are left
out.

## Main results

* `rollback_eq` — rollback as a list of assignments.
* `applyOps_trail` — what an application leaves, told operation by operation.
* `allOrNothing_iff` — when a patch that fails leaves every file as it was.
* `allOrNothing_of_distinct` — it does where no two operations name one path, no file is
  undecodable and no new file is left half written.
* `rolls_back_to_first_update` — a file updated twice is left with the first update.
-/

namespace StackOwl.Tools

open Lib List Function

/-! ## Patches -/

inductive OperationType where
  | add
  | update
  | delete
  | move
  deriving DecidableEq

/-- `HunkLine.prefix`: a blank, a minus or a plus. -/
inductive LineMark where
  | context
  | removed
  | added
  deriving DecidableEq

structure HunkLine where
  mark : LineMark
  content : String
  deriving DecidableEq

structure Hunk where
  contextHint : Option String := none
  lines : List HunkLine := []
  deriving DecidableEq

structure PatchOperation where
  operation : OperationType
  filePath : String
  newPath : Option String := none
  hunks : List Hunk := []
  deriving DecidableEq

/-! ## Hunks -/

/-- What `fuzzy_find_and_replace` returns. -/
structure FuzzyResult where
  content : List Char
  count : Nat
  strategy : Option String := none
  error : Option String := none

/-- `text.find(pattern)`. -/
def findText (pattern : List Char) : List Char → Option Nat
  | [] => if pattern = [] then some 0 else none
  | c :: rest =>
    if pattern.isPrefixOf (c :: rest) then some 0
    else (findText pattern rest).map (· + 1)

def countOccurrences (text pattern : List Char) : Nat :=
  text.tails.countP (pattern.isPrefixOf ·)

def joinLines (lines : List String) : List Char := ("\n".intercalate lines).toList

def Hunk.hint (hunk : Hunk) : Option String := hunk.contextHint.filter (· ≠ "")

section
variable (fuzzy : List Char → List Char → List Char → FuzzyResult)

def applyChangeHunk (op : PatchOperation) (hunk : Hunk) (newContent : List Char)
    (searchLines replaceLines : List String) : Except String (List Char) :=
  let searchPattern := joinLines searchLines
  let replacement := joinLines replaceLines
  let found := fuzzy newContent searchPattern replacement
  if found.error.getD "" ≠ "" ∧ found.count = 0 then
    let label := match hunk.hint with
      | some hint => "'" ++ hint ++ "'"
      | none => "(no hint)"
    let miss := op.filePath ++ ": hunk " ++ label ++ " not found — " ++ found.error.getD ""
    match hunk.hint.bind fun hint => findText hint.toList newContent with
    | none => .error miss
    | some hintPos =>
      let windowStart := hintPos - 500
      let windowEnd := min newContent.length (hintPos + 2000)
      let again := fuzzy ((newContent.take windowEnd).drop windowStart) searchPattern replacement
      if 0 < again.count then
        .ok (newContent.take windowStart ++ again.content ++ newContent.drop windowEnd)
      else .error miss
  else .ok found.content

def applyAdditionHunk (op : PatchOperation) (hunk : Hunk) (newContent : List Char)
    (replaceLines : List String) : Except String (List Char) :=
  let insertText := joinLines replaceLines
  let appended := newContent.rdropWhile (· = '\n') ++ '\n' :: (insertText ++ ['\n'])
  match hunk.hint with
  | none => .ok appended
  | some hint =>
    let occurrences := countOccurrences newContent hint.toList
    if 1 < occurrences then
      .error (op.filePath ++ ": addition-only hunk context hint '" ++ hint ++
        "' is ambiguous (" ++ occurrences.repr ++
        " occurrences) — provide a more unique hint")
    else
      match findText hint.toList newContent with
      | none => .ok appended
      | some hintPos =>
        match findText ['\n'] (newContent.drop hintPos) with
        | some eol =>
          .ok (newContent.take (hintPos + eol + 1) ++ insertText ++
            '\n' :: newContent.drop (hintPos + eol + 1))
        | none => .ok (newContent ++ '\n' :: insertText)

def Hunk.texts (hunk : Hunk) (marks : List LineMark) : List String :=
  (hunk.lines.filter (·.mark ∈ marks)).map HunkLine.content

def applyHunks (op : PatchOperation) (current : List Char) : Except String (List Char) :=
  op.hunks.foldlM (fun newContent hunk =>
    let searchLines := hunk.texts [.context, .removed]
    let replaceLines := hunk.texts [.context, .added]
    if searchLines ≠ [] then
      applyChangeHunk fuzzy op hunk newContent searchLines replaceLines
    else applyAdditionHunk op hunk newContent replaceLines) current

end

/-! ## Operations -/

/-- `resolve_in_workspace`, `Path.resolve` and the confinement `is_within_root` checks of a
resolved path. -/
structure Workspace where
  anchor : String → String
  resolve : String → String
  inside : String → Bool

def Workspace.target (ws : Workspace) (path : String) : String := ws.resolve (ws.anchor path)

/-- `_ApplyState`, with the files it is about. -/
structure ApplyState where
  files : Files
  preImages : List (String × List Char) := []
  created : List String := []
  summary : List String := []

/-- What ends an application: an `_ApplyError`, an `OSError`, or what is not caught. -/
inductive PatchError where
  | apply (message : String)
  | os (message : String)
  | uncaught (what : String)

/-- The `OSError`s one operation meets, call by call. -/
structure OpFaults where
  read : Option String := none
  probe : Option String := none
  mkdir : Option String := none
  write : Option WriteFault := none
  unlink : Option String := none

/-- What a failed read raises, with `missing` for a file that is not there. -/
def ReadError.raise (missing : String) : ReadError → PatchError
  | .missing => .apply missing
  | .os error => .os error
  | .undecodable => .uncaught "UnicodeDecodeError"

section
variable (ws : Workspace) (fuzzy : List Char → List Char → List Char → FuzzyResult)

def applyUpdate (op : PatchOperation) (faults : OpFaults) (s : ApplyState) :
    ApplyState × Option PatchError :=
  let target := ws.target op.filePath
  match readText s.files target faults.read with
  | .error e => (s, some (e.raise ("UPDATE " ++ op.filePath ++ ": file not found")))
  | .ok raw =>
    match applyHunks fuzzy op (normalizeNewlines raw) with
    | .error message => (s, some (.apply message))
    | .ok newContent =>
      let s := { s with preImages := s.preImages ++ [(target, raw)] }
      match writeText s.files target (withNewline (detectNewline raw) newContent) faults.write with
      | (files, some error) => ({ s with files }, some (.os error))
      | (files, none) =>
        ({ s with files, summary := s.summary ++ ["updated  " ++ op.filePath] }, none)

def applyAdd (op : PatchOperation) (faults : OpFaults) (s : ApplyState) :
    ApplyState × Option PatchError :=
  let target := ws.target op.filePath
  match faults.probe with
  | some error => (s, some (.os error))
  | none =>
    if (s.files target).isSome then
      (s, some (.apply ("ADD " ++ op.filePath ++ ": file already exists (would overwrite)")))
    else
      match faults.mkdir with
      | some error => (s, some (.os error))
      | none =>
        let content := joinLines (op.hunks.flatMap (·.texts [.added]))
        match writeText s.files target content faults.write with
        | (files, some error) => ({ s with files }, some (.os error))
        | (files, none) =>
          ({ s with
              files
              created := s.created ++ [target]
              summary := s.summary ++ ["created  " ++ op.filePath] }, none)

def applyDelete (op : PatchOperation) (faults : OpFaults) (s : ApplyState) :
    ApplyState × Option PatchError :=
  let target := ws.target op.filePath
  match readText s.files target faults.read with
  | .error e => (s, some (e.raise ("DELETE " ++ op.filePath ++ ": file not found")))
  | .ok raw =>
    let s := { s with preImages := s.preImages ++ [(target, raw)] }
    match unlink s.files target faults.unlink with
    | (files, some error) => ({ s with files }, some (.os error))
    | (files, none) =>
      ({ s with files, summary := s.summary ++ ["deleted  " ++ op.filePath] }, none)

def applyMove (op : PatchOperation) (faults : OpFaults) (s : ApplyState) :
    ApplyState × Option PatchError :=
  match op.newPath with
  | none => (s, some (.uncaught "AssertionError"))
  | some newPath =>
    let src := ws.target op.filePath
    let dst := ws.target newPath
    match readText s.files src faults.read with
    | .error e => (s, some (e.raise ("MOVE " ++ op.filePath ++ ": source not found")))
    | .ok raw =>
      match faults.probe with
      | some error => (s, some (.os error))
      | none =>
        if (s.files dst).isSome then
          (s, some (.apply ("MOVE -> " ++ newPath ++
            ": destination already exists (would overwrite)")))
        else
          let s := { s with preImages := s.preImages ++ [(src, raw)] }
          match faults.mkdir with
          | some error => (s, some (.os error))
          | none =>
            match writeText s.files dst raw faults.write with
            | (files, some error) => ({ s with files }, some (.os error))
            | (files, none) =>
              let s := { s with files, created := s.created ++ [dst] }
              match unlink s.files src faults.unlink with
              | (files, some error) => ({ s with files }, some (.os error))
              | (files, none) =>
                ({ s with
                    files
                    summary := s.summary ++
                      ["moved    " ++ op.filePath ++ " -> " ++ newPath] }, none)

/-- One operation of the loop of `_apply_all`. -/
def applyOp (op : PatchOperation) (faults : OpFaults) (s : ApplyState) :
    ApplyState × Option PatchError :=
  match op.operation with
  | .update => applyUpdate ws fuzzy op faults s
  | .add => applyAdd ws op faults s
  | .delete => applyDelete ws op faults s
  | .move => applyMove ws op faults s

/-- The loop of `_apply_all`, each operation with the errors it meets. -/
def applyOps : List (PatchOperation × OpFaults) → ApplyState → ApplyState × Option PatchError
  | [], s => (s, none)
  | (op, faults) :: ops, s =>
    match applyOp ws fuzzy op faults s with
    | (s, some error) => (s, some error)
    | (s, none) => applyOps ops s

/-! ## Rollback -/

/-- The pre-images written back by `_rollback`, in the order they were taken. -/
def rollbackWrites (faults : RestoreFaults) : Nat → List (String × List Char) → Files → Files
  | _, [], files => files
  | i, (path, content) :: items, files =>
    rollbackWrites faults (i + 1) items (writeText files path content (faults.write i)).1

/-- The created files deleted by `_rollback`. -/
def rollbackUnlinks (faults : RestoreFaults) : Nat → List String → Files → Files
  | _, [], files => files
  | i, path :: paths, files =>
    rollbackUnlinks faults (i + 1) paths (unlink files path (faults.unlink i)).1

def rollback (faults : RestoreFaults) (s : ApplyState) : Files :=
  rollbackUnlinks faults 0 s.created (rollbackWrites faults 0 s.preImages s.files)

/-! ## The tool -/

structure ToolResult where
  success : Bool
  output : String := ""
  error : Option String := none
  sideEffectCommitted : Bool := true

/-- How a call of a tool ends. -/
inductive ToolRun where
  | returned (result : ToolResult)
  | raised (what : String)

def ToolRun.succeeded : ToolRun → Bool
  | .returned result => result.success
  | .raised _ => false

/-- The `OSError`s a call meets after the operations: in rollback, or as the group
snapshot is written. -/
structure ExitFaults where
  rollback : RestoreFaults := {}
  snapshot : Option SnapshotFault := none
  stays : String → Bool := fun _ => false

variable (ops : List (PatchOperation × OpFaults)) (files : Files)

def applyAll (faults : ExitFaults) (token : String) (store : UndoStore) (files : Files)
    : ToolRun × UndoStore × Files :=
  match applyOps ws fuzzy ops { files } with
  | (s, some (.apply message)) =>
    (.returned { success := false, error := some ("Patch apply failed and ALL files were " ++
      "rolled back (no partial application): " ++ message) }, store, rollback faults.rollback s)
  | (s, some (.os message)) =>
    (.returned { success := false, error := some ("Filesystem error during apply; ALL files " ++
      "were rolled back: " ++ message) }, store, rollback faults.rollback s)
  | (s, some (.uncaught what)) => (.raised what, store, s.files)
  | (s, none) =>
    let store := store.snapshotGroup token s.preImages s.created faults.stays faults.snapshot
    match faults.snapshot with
    | some fault => (.raised fault.error, store, s.files)
    | none =>
      (.returned { success := true, output := "Patch applied to " ++ s.summary.length.repr ++
        " file(s).\nUndo token: " ++ token ++
        " (call undo_write to revert this ENTIRE patch — all files)\n\n" ++
        "\n".intercalate s.summary }, store, s.files)

def MAX_PATCH_BYTES : Nat := 2 * 1024 * 1024

/-- What `parse_v4a_patch` finds wrong with an operation. -/
def PatchOperation.parseErrors (op : PatchOperation) : List String :=
  (if op.filePath = "" then ["Operation with empty file path"] else []) ++
    (if op.operation = .update ∧ op.hunks = [] then
      ["UPDATE " ++ quoted op.filePath ++ ": no hunks found"] else []) ++
    (if op.operation = .move ∧ op.newPath.getD "" = "" then
      ["MOVE " ++ quoted op.filePath ++ ": missing destination path (expected 'src -> dst')"]
    else [])

/-- `parse_v4a_patch`, over what its lines are read as. -/
def parseV4aPatch (scan : String → List PatchOperation) (patch : String) :
    List PatchOperation × Option String :=
  let errors := (scan patch).flatMap PatchOperation.parseErrors
  if errors ≠ [] then ([], some ("Parse error: " ++ "; ".intercalate errors))
  else (scan patch, none)

def PatchOperation.paths (op : PatchOperation) : List String :=
  op.filePath :: match op.operation, op.newPath.filter (· ≠ "") with
    | .move, some newPath => [newPath]
    | _, _ => []

/-- Why `execute` refuses a patch before it touches a file. -/
def refusal (scan : String → List PatchOperation) (patch : String) : Option String :=
  let size := (utf8 patch).length
  let parsed := parseV4aPatch scan patch
  if patch = "" then some "Missing patch"
  else if MAX_PATCH_BYTES < size then
    some ("Patch too large (" ++ size.repr ++ " bytes; limit " ++ MAX_PATCH_BYTES.repr ++
      "). Split it into smaller patches.")
  else if parsed.2.getD "" ≠ "" then
    some ("Patch parse failed (nothing applied): " ++ parsed.2.getD "")
  else if parsed.1 = [] then some "Patch contained no operations."
  else
    ((parsed.1.flatMap PatchOperation.paths).find? fun path =>
      !ws.inside (ws.target path)).map fun path =>
        "Path traversal denied: '" ++ ws.anchor path ++
          "' resolves outside the workspace. No files were modified."

def planned (faults : Nat → OpFaults) (ops : List PatchOperation) :
    List (PatchOperation × OpFaults) :=
  ops.zipIdx.map fun p => (p.1, faults p.2)

variable (exit : ExitFaults)

/-- `execute`; `faults` gives the `OSError`s the `i`-th operation meets. -/
def execute (scan : String → List PatchOperation) (faults : Nat → OpFaults)
    (exit : ExitFaults) (token patch : String) (store : UndoStore) (files : Files) :
    ToolRun × UndoStore × Files :=
  match refusal ws scan patch with
  | some error =>
    (.returned { success := false, error := some error, sideEffectCommitted := false },
      store, files)
  | none =>
    applyAll ws fuzzy (planned faults (parseV4aPatch scan patch).1) exit token store files

/-! ## Operation by operation -/

def report (op : PatchOperation) (faults : OpFaults) (files : Files) :
    ApplyState × Option PatchError :=
  applyOp ws fuzzy op faults { files }

/-- The reports of the operations an application gets to, the failed one included. -/
def trail : List (PatchOperation × OpFaults) → Files → List (ApplyState × Option PatchError)
  | [], _ => []
  | (op, faults) :: ops, files =>
    let r := report ws fuzzy op faults files
    r :: if r.2.isNone then trail ops r.1.files else []

def ApplyState.add (s r : ApplyState) : ApplyState where
  files := r.files
  preImages := s.preImages ++ r.preImages
  created := s.created ++ r.created
  summary := s.summary ++ r.summary

variable (tr : List (ApplyState × Option PatchError))

/-- The pre-images the operations took, in their order. -/
def taken : List (String × List Char) :=
  tr.flatMap (·.1.preImages)

def made : List String :=
  tr.flatMap (·.1.created)

/-- The files as the last of them left them. -/
def left : Files :=
  (tr.getLast?.map (·.1.files)).getD files

def stop : Option PatchError :=
  tr.getLast?.bind (·.2)

theorem applyOp_eq_report (op : PatchOperation) (faults : OpFaults) (s : ApplyState) :
    applyOp ws fuzzy op faults s =
      (s.add (report ws fuzzy op faults s.files).1, (report ws fuzzy op faults s.files).2) := by
  obtain ⟨files, preImages, created, summary⟩ := s
  unfold report applyOp
  cases op.operation with
  | update =>
    simp only [applyUpdate]
    cases readText files (ws.target op.filePath) faults.read with
    | error e => simp [ApplyState.add]
    | ok raw =>
      simp only
      cases applyHunks fuzzy op (normalizeNewlines raw) with
      | error message => simp [ApplyState.add]
      | ok newContent =>
        simp only
        generalize writeText _ _ _ _ = out
        obtain ⟨files', _ | error⟩ := out <;> simp [ApplyState.add]
  | add =>
    simp only [applyAdd]
    cases faults.probe with
    | some error => simp [ApplyState.add]
    | none =>
      simp only
      split
      · simp [ApplyState.add]
      · cases faults.mkdir with
        | some error => simp [ApplyState.add]
        | none =>
          simp only
          generalize writeText _ _ _ _ = out
          obtain ⟨files', _ | error⟩ := out <;> simp [ApplyState.add]
  | delete =>
    simp only [applyDelete]
    cases readText files (ws.target op.filePath) faults.read with
    | error e => simp [ApplyState.add]
    | ok raw =>
      simp only
      generalize unlink _ _ _ = out
      obtain ⟨files', _ | error⟩ := out <;> simp [ApplyState.add]
  | move =>
    simp only [applyMove]
    cases op.newPath with
    | none => simp [ApplyState.add]
    | some newPath =>
      simp only
      cases readText files (ws.target op.filePath) faults.read with
      | error e => simp [ApplyState.add]
      | ok raw =>
        simp only
        cases faults.probe with
        | some error => simp [ApplyState.add]
        | none =>
          simp only
          split
          · simp [ApplyState.add]
          · cases faults.mkdir with
            | some error => simp [ApplyState.add]
            | none =>
              simp only
              generalize writeText _ _ _ _ = out
              obtain ⟨files', _ | error⟩ := out
              · simp only
                generalize unlink _ _ _ = out'
                obtain ⟨files'', _ | error⟩ := out' <;> simp [ApplyState.add]
              · simp [ApplyState.add]

def PatchOperation.touched (op : PatchOperation) : List String :=
  (op.filePath :: match op.operation with
    | .move => op.newPath.toList
    | _ => []).map ws.target

structure Reported (op : PatchOperation) (faults : OpFaults) (files : Files)
    (r : ApplyState × Option PatchError) : Prop where
  found : ∀ item ∈ r.1.preImages,
    item.1 ∈ op.touched ws ∧ files item.1 = some (encode item.2)
  missing : ∀ path ∈ r.1.created, path ∈ op.touched ws ∧ files path = none
  /-- A file that is on neither list was not changed, but for a torn write. -/
  unbooked : ∀ path, (∀ item ∈ r.1.preImages, item.1 ≠ path) → path ∉ r.1.created →
    (path ∈ op.touched ws → ∀ kept error, faults.write ≠ some (.torn kept error)) →
      r.1.files path = files path
  booked : r.2 = none → ∀ path ∈ op.touched ws,
    (∃ item ∈ r.1.preImages, item.1 = path) ∨ path ∈ r.1.created
  caught : (∀ path ∈ op.touched ws, ∀ bytes, files path = some bytes →
    (decode bytes).isSome = true) → op.parseErrors = [] → ∀ what, r.2 ≠ some (.uncaught what)

theorem writeText_of_ne (text : List Char) (fault : Option WriteFault) {path other : String}
    (h : other ≠ path) :
    (writeText files path text fault).1 other = files other := by
  rcases fault with _ | ⟨error⟩ | ⟨kept, error⟩
  · exact update_of_ne h ..
  · rfl
  · exact update_of_ne h ..

variable {files' : Files}

theorem writeText_error {files : Files} {path error : String} {text : List Char}
    {fault : Option WriteFault} (h : writeText files path text fault = (files', some error)) :
    files' = files ∨ ∃ kept error, fault = some (.torn kept error) := by
  rcases fault with _ | ⟨_⟩ | ⟨kept, error⟩
  · cases h
  · exact .inl (Prod.mk.inj h).1.symm
  · exact .inr ⟨kept, error, rfl⟩

theorem unlink_of_ne (fault : Option String) {path other : String} (h : other ≠ path)
    : (unlink files path fault).1 other = files other := by
  cases fault with
  | some error => rfl
  | none => rw [unlink_clean, update_of_ne h]

variable {files} {path : String} {fault : Option String} {e : ReadError}

theorem raise_of_readText (h : readText files path fault = .error e) {missing what : String}
    (hraise : e.raise missing = .uncaught what) :
    ∃ bytes, files path = some bytes ∧ decode bytes = none := by
  unfold readText at h
  split at h
  · cases h
    cases hraise
  · cases h
    cases hraise
  · rename_i bytes hbytes
    split at h
    · cases h
    · rename_i hdecode
      exact ⟨bytes, hbytes, hdecode⟩

variable {op : PatchOperation} {faults : OpFaults}

theorem Reported.stopped (error : PatchError)
    (hcaught : (∀ path ∈ op.touched ws, ∀ bytes, files path = some bytes →
      (decode bytes).isSome = true) → op.parseErrors = [] → ∀ what, error ≠ .uncaught what) :
    Reported ws op faults files ({ files }, some error) :=
  ⟨by simp, by simp, fun _ _ _ _ => rfl, nofun,
    fun hread hparsed what heq => hcaught hread hparsed what (Option.some.inj heq)⟩

variable {raw : List Char} {summary : List String} {error : Option PatchError}

/-- An operation that took the pre-image of one file and created none. -/
theorem Reported.took (hpath : path ∈ op.touched ws) (hfound : files path = some (encode raw))
    (hframe : ∀ other, other ≠ path → (other ∈ op.touched ws → ∀ kept e,
      faults.write ≠ some (.torn kept e)) → files' other = files other)
    (honly : error = none → ∀ other ∈ op.touched ws, other = path)
    (hcaught : ∀ what, error ≠ some (.uncaught what)) :
    Reported ws op faults files
      ({ files := files', preImages := [(path, raw)], summary }, error) := by
  refine ⟨?_, nofun, fun other hother _ htorn => ?_, fun hnone other hmem => ?_,
    fun _ _ => hcaught⟩
  · rintro item hitem
    obtain rfl := mem_singleton.mp hitem
    exact ⟨hpath, hfound⟩
  · exact hframe other (hother _ mem_cons_self).symm htorn
  · exact .inl ⟨_, mem_cons_self, (honly hnone other hmem).symm⟩

/-- An operation that took the pre-image of one file and created another. -/
theorem Reported.moved {src dst : String} (hsrc : src ∈ op.touched ws)
    (hfound : files src = some (encode raw)) (hdst : dst ∈ op.touched ws)
    (hmissing : files dst = none)
    (hframe : ∀ other, other ≠ src → other ≠ dst → files' other = files other)
    (honly : ∀ other ∈ op.touched ws, other = src ∨ other = dst)
    (hcaught : ∀ what, error ≠ some (.uncaught what)) :
    Reported ws op faults files
      ({ files := files', preImages := [(src, raw)], created := [dst], summary }, error) := by
  refine ⟨?_, ?_, fun other hnot hnew _ => ?_, fun _ other hmem => ?_, fun _ _ => hcaught⟩
  · rintro item hitem
    obtain rfl := mem_singleton.mp hitem
    exact ⟨hsrc, hfound⟩
  · rintro path hpath
    obtain rfl := mem_singleton.mp hpath
    exact ⟨hdst, hmissing⟩
  · exact hframe other (hnot _ mem_cons_self).symm
      fun heq => hnew (heq ▸ mem_cons_self)
  · rcases honly other hmem with rfl | rfl
    · exact .inl ⟨_, mem_cons_self, rfl⟩
    · exact .inr mem_cons_self

theorem not_uncaught_of_read (h : readText files path fault = .error e)
    (hpath : path ∈ op.touched ws) (missing : String)
    (hread : ∀ path ∈ op.touched ws, ∀ bytes, files path = some bytes →
      (decode bytes).isSome = true)
    (what : String) : e.raise missing ≠ .uncaught what := by
  intro hraise
  obtain ⟨bytes, hbytes, hnone⟩ := raise_of_readText h hraise
  have hsome := hread path hpath bytes hbytes
  rw [hnone] at hsome
  cases hsome

theorem touched_self : ws.target op.filePath ∈ op.touched ws := mem_cons_self

theorem touched_only (hop : op.operation ≠ .move) :
    ∀ path ∈ op.touched ws, path = ws.target op.filePath := by
  simp [PatchOperation.touched]

theorem reported_update (hop : op.operation = .update) (faults : OpFaults) (files : Files) :
    Reported ws op faults files (report ws fuzzy op faults files) := by
  simp only [report, applyOp, hop, applyUpdate]
  cases hread : readText files (ws.target op.filePath) faults.read with
  | error e => exact .stopped ws _ fun h _ => not_uncaught_of_read ws hread (touched_self ws) _ h
  | ok raw =>
    have hfound := encode_of_readText hread
    simp only
    cases applyHunks fuzzy op (normalizeNewlines raw) with
    | error message => exact .stopped ws _ fun _ _ => nofun
    | ok newContent =>
      have hframe := fun (other : String) (h : other ≠ ws.target op.filePath) =>
        writeText_of_ne files (withNewline (detectNewline raw) newContent) faults.write h
      simp only
      generalize writeText files _ _ _ = out at hframe
      obtain ⟨files', _ | error⟩ := out <;>
        exact .took ws (touched_self ws) hfound (fun other h _ => hframe other h)
          (fun _ => touched_only ws (by simp [hop])) fun _ => nofun

theorem reported_add (hop : op.operation = .add) (faults : OpFaults) (files : Files) :
    Reported ws op faults files (report ws fuzzy op faults files) := by
  simp only [report, applyOp, hop, applyAdd]
  cases faults.probe with
  | some error => exact .stopped ws _ fun _ _ => nofun
  | none =>
    simp only
    split
    · exact .stopped ws _ fun _ _ => nofun
    · rename_i hthere
      have hmissing : files (ws.target op.filePath) = none := by simpa using hthere
      cases faults.mkdir with
      | some error => exact .stopped ws _ fun _ _ => nofun
      | none =>
        have hframe := fun (other : String) (h : other ≠ ws.target op.filePath) =>
          writeText_of_ne files (joinLines (op.hunks.flatMap (·.texts [.added]))) faults.write h
        simp only
        generalize hout : writeText files _ _ _ = out at hframe
        obtain ⟨files', _ | error⟩ := out
        · refine ⟨nofun, ?_, fun path _ hpath _ => ?_, fun _ path hpath => ?_,
            fun _ _ _ => nofun⟩
          · rintro path hpath
            obtain rfl := mem_singleton.mp hpath
            exact ⟨(touched_self ws), hmissing⟩
          · exact hframe path fun heq => hpath (heq ▸ mem_cons_self)
          · exact .inr (touched_only ws (by simp [hop]) path hpath ▸ mem_cons_self)
        · refine ⟨nofun, nofun, fun path _ _ htorn => ?_, nofun, fun _ _ _ => nofun⟩
          rcases writeText_error hout with heq | ⟨kept, e, hfault⟩
          · rw [heq]
          · refine hframe path ?_
            rintro rfl
            exact htorn (touched_self ws) kept e hfault

theorem reported_delete (hop : op.operation = .delete) (faults : OpFaults) (files : Files) :
    Reported ws op faults files (report ws fuzzy op faults files) := by
  simp only [report, applyOp, hop, applyDelete]
  cases hread : readText files (ws.target op.filePath) faults.read with
  | error e => exact .stopped ws _ fun h _ => not_uncaught_of_read ws hread (touched_self ws) _ h
  | ok raw =>
    have hfound := encode_of_readText hread
    have hframe := fun (other : String) (h : other ≠ ws.target op.filePath) =>
      unlink_of_ne files faults.unlink h
    simp only
    generalize unlink files _ _ = out at hframe
    obtain ⟨files', _ | error⟩ := out <;>
      exact .took ws (touched_self ws) hfound (fun other h _ => hframe other h)
        (fun _ => touched_only ws (by simp [hop])) fun _ => nofun

theorem reported_move (hop : op.operation = .move) (faults : OpFaults) (files : Files) :
    Reported ws op faults files (report ws fuzzy op faults files) := by
  simp only [report, applyOp, hop, applyMove]
  cases hnew : op.newPath with
  | none =>
    refine .stopped ws _ fun _ hparsed => ?_
    simp [PatchOperation.parseErrors, hop, hnew] at hparsed
  | some newPath =>
    have htouched : op.touched ws = [ws.target op.filePath, ws.target newPath] := by
      simp [PatchOperation.touched, hop, hnew]
    simp only
    cases hread : readText files (ws.target op.filePath) faults.read with
    | error e => exact .stopped ws _ fun h _ => not_uncaught_of_read ws hread (touched_self ws) _ h
    | ok raw =>
      have hfound := encode_of_readText hread
      simp only
      cases faults.probe with
      | some error => exact .stopped ws _ fun _ _ => nofun
      | none =>
        simp only
        split
        · exact .stopped ws _ fun _ _ => nofun
        · rename_i hthere
          have hmissing : files (ws.target newPath) = none := by simpa using hthere
          have hdst : ws.target newPath ∈ op.touched ws := by simp [htouched]
          cases faults.mkdir with
          | some error =>
            exact .took ws (touched_self ws) hfound (fun _ _ _ => rfl) nofun fun _ => nofun
          | none =>
            have hframe := fun (other : String) (h : other ≠ ws.target newPath) =>
              writeText_of_ne files raw faults.write h
            simp only
            generalize hout : writeText files _ _ _ = out at hframe
            obtain ⟨files', _ | error⟩ := out
            · have hframe' := fun (other : String) (h : other ≠ ws.target op.filePath) =>
                unlink_of_ne files' faults.unlink h
              have honly : ∀ other ∈ op.touched ws,
                  other = ws.target op.filePath ∨ other = ws.target newPath := by
                simp [htouched]
              simp only
              generalize unlink files' _ _ = out' at hframe'
              obtain ⟨files'', _ | error⟩ := out' <;>
                exact .moved ws (touched_self ws) hfound hdst hmissing
                  (fun other hsrc hne => (hframe' other hsrc).trans (hframe other hne))
                  honly fun _ => nofun
            · refine .took ws (touched_self ws) hfound (fun other _ htorn => ?_) nofun
                fun _ => nofun
              rcases writeText_error hout with heq | ⟨kept, e, hfault⟩
              · rw [heq]
              · refine hframe other ?_
                rintro rfl
                exact htorn hdst kept e hfault

theorem reported (op : PatchOperation) (faults : OpFaults) (files : Files) :
    Reported ws op faults files (report ws fuzzy op faults files) := by
  cases hop : op.operation with
  | update => exact reported_update ws fuzzy hop faults files
  | add => exact reported_add ws fuzzy hop faults files
  | delete => exact reported_delete ws fuzzy hop faults files
  | move => exact reported_move ws fuzzy hop faults files

theorem left_cons (files : Files) (r : ApplyState × Option PatchError)
    (tr : List (ApplyState × Option PatchError)) : left files (r :: tr) = left r.1.files tr := by
  cases tr with
  | nil => rfl
  | cons next tr =>
    rw [left, left, getLast?_cons_cons, getLast?_cons, Option.map_some]
    rfl

variable {r : ApplyState × Option PatchError}

theorem stop_cons (h : r.2 = none) (tr : List (ApplyState × Option PatchError))
    : stop (r :: tr) = stop tr := by
  cases tr with
  | nil => exact h
  | cons next tr => rw [stop, stop, getLast?_cons_cons]

theorem applyOps_trail (s : ApplyState) :
    applyOps ws fuzzy ops s =
      ({ files := left s.files (trail ws fuzzy ops s.files)
         preImages := s.preImages ++ taken (trail ws fuzzy ops s.files)
         created := s.created ++ made (trail ws fuzzy ops s.files)
         summary := s.summary ++ (trail ws fuzzy ops s.files).flatMap (·.1.summary) },
        stop (trail ws fuzzy ops s.files)) := by
  induction ops generalizing s with
  | nil => simp [applyOps, trail, left, taken, made, stop]
  | cons head ops ih =>
    obtain ⟨op, faults⟩ := head
    rw [applyOps, applyOp_eq_report, trail]
    generalize report ws fuzzy op faults s.files = r
    obtain ⟨r, _ | error⟩ := r
    · have hnext : (s.add r).files = r.files := rfl
      simp only [ih, hnext, Option.isNone_none, if_true, left_cons, stop_cons]
      simp [ApplyState.add, taken, made, append_assoc]
    · simp [ApplyState.add, left, taken, made, stop]

/-! ## Rollback as assignments -/

/-- What the writes of rollback put down, as far as the system lets them. -/
def restoreWords (faults : RestoreFaults) : Nat → List (String × List Char) →
    List (String × Option (List UInt8))
  | _, [] => []
  | i, (path, content) :: items =>
    (match faults.write i with
      | none => [(path, some (encode content))]
      | some (.refused _) => []
      | some (.torn kept _) => [(path, some ((encode content).take kept))]) ++
      restoreWords faults (i + 1) items

def removeWords (faults : RestoreFaults) : Nat → List String →
    List (String × Option (List UInt8))
  | _, [] => []
  | i, path :: paths =>
    (match faults.unlink i with
      | none => [(path, none)]
      | some _ => []) ++ removeWords faults (i + 1) paths

theorem rollbackWrites_eq (faults : RestoreFaults) (i : Nat) (items : List (String × List Char))
    (files : Files) :
    rollbackWrites faults i items files = replay files (restoreWords faults i items) := by
  induction items generalizing i files with
  | nil => rfl
  | cons item items ih =>
    obtain ⟨path, content⟩ := item
    rw [rollbackWrites, restoreWords, ih, replay_append]
    cases faults.write i with
    | none => rfl
    | some fault => cases fault <;> rfl

theorem rollbackUnlinks_eq (faults : RestoreFaults) (i : Nat) (paths : List String)
    (files : Files) :
    rollbackUnlinks faults i paths files = replay files (removeWords faults i paths) := by
  induction paths generalizing i files with
  | nil => rfl
  | cons path paths ih =>
    rw [rollbackUnlinks, removeWords, ih, replay_append]
    cases faults.unlink i with
    | none => rw [unlink_clean]; rfl
    | some error => rfl

/-- Rollback carries out its assignments: the pre-images in the order they were taken,
then the deletions. -/
theorem rollback_eq (faults : RestoreFaults) (s : ApplyState) :
    rollback faults s =
      replay s.files (restoreWords faults 0 s.preImages ++ removeWords faults 0 s.created) := by
  rw [rollback, rollbackWrites_eq, rollbackUnlinks_eq, replay_append]

/-- Without errors these are the assignments of a group restore. -/
theorem words_clean (preImages : List (String × List Char)) (created : List String) :
    restoreWords {} 0 preImages ++ removeWords {} 0 created = groupWrites preImages created := by
  have hrestore : ∀ i, restoreWords {} i preImages =
      preImages.map fun item => (item.1, some (encode item.2)) := by
    induction preImages with
    | nil => exact fun _ => rfl
    | cons item items ih => exact fun i => congrArg (_ :: ·) (ih (i + 1))
  have hremove : ∀ i, removeWords {} i created = created.map fun path => (path, none) := by
    induction created with
    | nil => exact fun _ => rfl
    | cons path paths ih => exact fun i => congrArg (_ :: ·) (ih (i + 1))
  rw [hrestore, hremove, groupWrites]

/-! ## All or nothing -/

/-- What is put back where application stopped: nothing, where the error is not caught. -/
def words :
    List (String × Option (List UInt8)) :=
  match stop tr with
  | some (.apply _) | some (.os _) =>
    restoreWords exit.rollback 0 (taken tr) ++ removeWords exit.rollback 0 (made tr)
  | _ => []

/-- The last of what is put back at `path` is what the path held before the patch; where
nothing is, the operations have left it as it was. -/
def Recovers (files : Files) (tr : List (ApplyState × Option PatchError)) (path : String) : Prop :=
  (lastWord path (words exit tr)).getD (left files tr path) = files path

theorem applyAll_files (token : String) (store : UndoStore) (files : Files) :
    (applyAll ws fuzzy ops exit token store files).2.2 =
      replay (left files (trail ws fuzzy ops files)) (words exit (trail ws fuzzy ops files)) := by
  rw [applyAll, applyOps_trail]
  generalize trail ws fuzzy ops files = tr
  unfold words
  rcases hstop : stop tr with _ | ⟨message⟩ | ⟨message⟩ | ⟨what⟩
  · simp only
    cases exit.snapshot <;> rfl
  · exact rollback_eq _ _
  · exact rollback_eq _ _
  · rfl

theorem applyAll_succeeded (token : String) (store : UndoStore) (files : Files) :
    (applyAll ws fuzzy ops exit token store files).1.succeeded = true ↔
      stop (trail ws fuzzy ops files) = none ∧ exit.snapshot = none := by
  rw [applyAll, applyOps_trail]
  generalize trail ws fuzzy ops files = tr
  rcases hstop : stop tr with _ | ⟨message⟩ | ⟨message⟩ | ⟨what⟩
  · simp only
    cases exit.snapshot <;> simp [ToolRun.succeeded]
  · simp [ToolRun.succeeded]
  · simp [ToolRun.succeeded]
  · simp [ToolRun.succeeded]

theorem of_refusal {scan : String → List PatchOperation} {patch : String}
    (h : refusal ws scan patch = none) :
    (parseV4aPatch scan patch).1 = scan patch ∧
      (∀ op ∈ scan patch, op.parseErrors = []) ∧
      ∀ op ∈ scan patch, ∀ path ∈ op.paths, ws.inside (ws.target path) = true := by
  by_cases herrors : (scan patch).flatMap PatchOperation.parseErrors = []
  · have hparsed : parseV4aPatch scan patch = (scan patch, none) := by
      rw [parseV4aPatch]
      exact if_neg (not_not.mpr herrors)
    have hfound : ((scan patch).flatMap PatchOperation.paths).find?
        (fun path => !ws.inside (ws.target path)) = none := by
      rw [refusal, hparsed] at h
      simp only [Option.getD_none, ne_eq, not_true_eq_false, if_false] at h
      split at h
      · cases h
      split at h
      · cases h
      split at h
      · cases h
      exact Option.map_eq_none_iff.mp h
    refine ⟨congrArg Prod.fst hparsed, flatMap_eq_nil_iff.mp herrors,
      fun op hop path hpath => ?_⟩
    simpa using find?_eq_none.mp hfound path (mem_flatMap.mpr ⟨op, hop, hpath⟩)
  · have hparsed : parseV4aPatch scan patch = ([], some ("Parse error: " ++
        "; ".intercalate ((scan patch).flatMap PatchOperation.parseErrors))) := by
      rw [parseV4aPatch]
      exact if_pos herrors
    have hlong : "Parse error: " ++
        "; ".intercalate ((scan patch).flatMap PatchOperation.parseErrors) ≠ "" := by simp
    rw [refusal, hparsed] at h
    simp only [Option.getD_some, if_pos hlong] at h
    split at h
    · cases h
    split at h <;> cases h

/-- A call that does not return a success leaves every file as it was, exactly where the
patch is refused, or goes through, or every path recovers. -/
theorem allOrNothing_iff (scan : String → List PatchOperation) (faults : Nat → OpFaults)
    (exit : ExitFaults) (token patch : String) (store : UndoStore) (files : Files) :
    ((execute ws fuzzy scan faults exit token patch store files).1.succeeded = false →
        (execute ws fuzzy scan faults exit token patch store files).2.2 = files) ↔
      refusal ws scan patch ≠ none ∨
        stop (trail ws fuzzy (planned faults (scan patch)) files) = none ∧
          exit.snapshot = none ∨
        ∀ path, Recovers exit files
          (trail ws fuzzy (planned faults (scan patch)) files) path := by
  unfold execute
  cases hrefused : refusal ws scan patch with
  | some error => exact iff_of_true (fun _ => rfl) (.inl nofun)
  | none =>
    rw [(of_refusal ws hrefused).1]
    generalize planned faults (scan patch) = ops
    have hfiles := applyAll_files ws fuzzy ops exit token store files
    have hsucceeded := applyAll_succeeded ws fuzzy ops exit token store files
    generalize applyAll ws fuzzy ops exit token store files = out at hfiles hsucceeded
    rw [hfiles, replay_eq_iff, ← Bool.not_eq_true, hsucceeded]
    constructor
    · intro h
      by_cases hthrough : stop (trail ws fuzzy ops files) = none ∧ exit.snapshot = none
      · exact .inr (.inl hthrough)
      · exact .inr (.inr (h hthrough))
    · rintro (hnever | hthrough | hrecovers) hfail
      · exact absurd rfl hnever
      · exact absurd hthrough hfail
      · exact hrecovers

/-! ## Patches that name no path twice -/

/-- What the operations took and made is what was there, in `files`, before all of them. -/
structure TookOriginals (files : Files) (touched : List String)
    (tr : List (ApplyState × Option PatchError)) : Prop where
  found : ∀ item ∈ taken tr, item.1 ∈ touched ∧ files item.1 = some (encode item.2)
  missing : ∀ path ∈ made tr, path ∈ touched ∧ files path = none
  unbooked : ∀ path, (∀ item ∈ taken tr, item.1 ≠ path) → path ∉ made tr →
    left files tr path = files path
  caught : ∀ what, stop tr ≠ some (.uncaught what)

theorem Reported.frame (h : Reported ws op faults files r) (hpath : path ∉ op.touched ws)
    : r.1.files path = files path := by
  refine h.unbooked path (fun item hitem heq => hpath ?_) (fun hmade => hpath ?_)
    (fun hmem => absurd hmem hpath)
  · rw [← heq]
    exact (h.found item hitem).1
  · exact (h.missing path hmade).1

theorem tookOriginals (files : Files) (hdistinct : (ops.flatMap (·.1.touched ws)).Nodup)
    (hread : ∀ path ∈ ops.flatMap (·.1.touched ws), ∀ bytes, files path = some bytes →
      (decode bytes).isSome = true)
    (hwhole : ∀ p ∈ ops, ∀ kept error, p.2.write ≠ some (.torn kept error))
    (hparsed : ∀ p ∈ ops, p.1.parseErrors = []) :
    TookOriginals files (ops.flatMap (·.1.touched ws)) (trail ws fuzzy ops files) := by
  induction ops generalizing files with
  | nil => exact ⟨nofun, nofun, fun _ _ _ => rfl, fun _ => nofun⟩
  | cons head ops ih =>
    obtain ⟨op, faults⟩ := head
    rw [flatMap_cons, nodup_append'] at hdistinct
    obtain ⟨-, hrest, hapart⟩ := hdistinct
    have hop := reported ws fuzzy op faults files
    have hreadOp := fun path hpath => hread path (mem_append_left _ hpath)
    have hcaught := hop.caught hreadOp (hparsed _ mem_cons_self)
    -- The files of the later operations are those from before this one.
    have hlater : ∀ path ∈ ops.flatMap (·.1.touched ws),
        (report ws fuzzy op faults files).1.files path = files path :=
      fun path hpath => hop.frame ws fun hmem => hapart hmem hpath
    have hunbooked := fun path hitems hmade => hop.unbooked path hitems hmade
      fun _ => hwhole _ mem_cons_self
    rw [trail]
    generalize report ws fuzzy op faults files = r at hop hcaught hlater hunbooked
    obtain ⟨r, _ | error⟩ := r
    · have htail := ih r.files hrest
        (fun path hpath bytes hbytes => hread path (mem_append_right _ hpath) bytes
          ((hlater path hpath).symm.trans hbytes))
        (fun p hp => hwhole p (mem_cons_of_mem _ hp))
        (fun p hp => hparsed p (mem_cons_of_mem _ hp))
      simp only [Option.isNone_none, if_true]
      generalize trail ws fuzzy ops r.files = tr at htail
      refine ⟨fun item hitem => ?_, fun path hpath => ?_, fun path hitems hmade => ?_, ?_⟩
      · rcases mem_append.mp hitem with hhead | hmem
        · exact ⟨mem_append_left _ (hop.found item hhead).1, (hop.found item hhead).2⟩
        · obtain ⟨htouched, hfound⟩ := htail.found item hmem
          exact ⟨mem_append_right _ htouched, (hlater _ htouched).symm.trans hfound⟩
      · rcases mem_append.mp hpath with hhead | hmem
        · exact ⟨mem_append_left _ (hop.missing path hhead).1, (hop.missing path hhead).2⟩
        · obtain ⟨htouched, hnone⟩ := htail.missing path hmem
          exact ⟨mem_append_right _ htouched, (hlater _ htouched).symm.trans hnone⟩
      · rw [left_cons]
        refine (htail.unbooked path (fun item hitem => hitems item (mem_append_right _ hitem))
          fun hmem => hmade (mem_append_right _ hmem)).trans ?_
        exact hunbooked path (fun item hitem => hitems item (mem_append_left _ hitem))
          fun hmem => hmade (mem_append_left _ hmem)
      · rw [stop_cons rfl]
        exact htail.caught
    · refine ⟨fun item hitem => ?_, fun path hpath => ?_, fun path hitems hmade => ?_,
        fun what heq => hcaught what heq⟩
      · have hhead : item ∈ r.preImages := by simpa [taken] using hitem
        exact ⟨mem_append_left _ (hop.found item hhead).1, (hop.found item hhead).2⟩
      · have hhead : path ∈ r.created := by simpa [made] using hpath
        exact ⟨mem_append_left _ (hop.missing path hhead).1, (hop.missing path hhead).2⟩
      · exact hunbooked path
          (fun item hitem => hitems item (by simpa [taken] using hitem))
          fun hmem => hmade (by simpa [made] using hmem)

theorem map_fst_planned (faults : Nat → OpFaults) (ops : List PatchOperation) :
    (planned faults ops).map Prod.fst = ops := by
  rw [planned, map_map]
  exact zipIdx_map_fst 0 ops

theorem flatMap_touched_planned (faults : Nat → OpFaults) (ops : List PatchOperation) :
    (planned faults ops).flatMap (·.1.touched ws) = ops.flatMap (·.touched ws) := by
  rw [← flatMap_map Prod.fst (PatchOperation.touched ws), map_fst_planned]

theorem tookOriginals_planned (files : Files) {faults : Nat → OpFaults}
    {ops : List PatchOperation} (hdistinct : (ops.flatMap (·.touched ws)).Nodup)
    (hread : ∀ path ∈ ops.flatMap (·.touched ws), ∀ bytes, files path = some bytes →
      (decode bytes).isSome = true)
    (hwhole : ∀ i kept error, (faults i).write ≠ some (.torn kept error))
    (hparsed : ∀ op ∈ ops, op.parseErrors = []) :
    TookOriginals files (ops.flatMap (·.touched ws))
      (trail ws fuzzy (planned faults ops) files) := by
  rw [← flatMap_touched_planned ws faults] at hdistinct hread ⊢
  refine tookOriginals ws fuzzy _ files hdistinct hread (fun p hp => ?_) fun p hp =>
    hparsed p.1 ?_
  · obtain ⟨q, -, rfl⟩ := mem_map.mp hp
    exact hwhole q.2
  · rw [← map_fst_planned faults ops]
    exact mem_map.mpr ⟨p, hp, rfl⟩

variable {tr}

theorem TookOriginals.words_same {touched : List String} (h : TookOriginals files touched tr)
    (path : String) : ∀ w ∈ groupWrites (taken tr) (made tr), w.1 = path → w.2 = files path := by
  rintro w hw rfl
  rcases mem_append.mp hw with hrestore | hremove
  · obtain ⟨item, hitem, rfl⟩ := mem_map.mp hrestore
    exact (h.found item hitem).2.symm
  · obtain ⟨made, hmade, rfl⟩ := mem_map.mp hremove
    exact (h.missing made hmade).2.symm

/-- Where what was taken and made is what was there before, rollback brings it back. -/
theorem TookOriginals.recovers {touched : List String} (h : TookOriginals files touched tr)
    (hfail : stop tr ≠ none) (path : String) : Recovers {} files tr path := by
  have hwords : words {} tr = groupWrites (taken tr) (made tr) := by
    have hcaught := h.caught
    unfold words
    rcases hstop : stop tr with _ | ⟨message⟩ | ⟨message⟩ | ⟨what⟩
    · exact absurd hstop hfail
    · exact words_clean _ _
    · exact words_clean _ _
    · exact absurd hstop (hcaught what)
  rw [Recovers, hwords]
  by_cases hword : ∃ w ∈ groupWrites (taken tr) (made tr), w.1 = path
  · rw [lastWord_eq_some hword (h.words_same path), Option.getD_some]
  · push Not at hword
    rw [(lastWord_eq_none_iff path _).mpr hword, Option.getD_none]
    refine h.unbooked path (fun item hitem => ?_) fun hmade => ?_
    · exact hword (item.1, some (encode item.2))
        (mem_append_left _ (mem_map.mpr ⟨item, hitem, rfl⟩))
    · exact hword (path, none) (mem_append_right _ (mem_map.mpr ⟨path, hmade, rfl⟩)) rfl

/-- A patch that names no path twice is all or nothing where the files it names are texts,
no write is torn, and neither rollback nor the snapshot meets an error. -/
theorem allOrNothing_of_distinct (scan : String → List PatchOperation)
    (faults : Nat → OpFaults) (token patch : String) (store : UndoStore) (files : Files)
    (hdistinct : ((scan patch).flatMap (·.touched ws)).Nodup)
    (hread : ∀ path ∈ (scan patch).flatMap (·.touched ws), ∀ bytes, files path = some bytes →
      (decode bytes).isSome = true)
    (hwhole : ∀ i kept error, (faults i).write ≠ some (.torn kept error))
    (hfail : (execute ws fuzzy scan faults {} token patch store files).1.succeeded = false) :
    (execute ws fuzzy scan faults {} token patch store files).2.2 = files := by
  unfold execute at hfail ⊢
  cases hrefused : refusal ws scan patch with
  | some error => rfl
  | none =>
    obtain ⟨hscan, hparsed, -⟩ := of_refusal ws hrefused
    have horiginals := tookOriginals_planned ws fuzzy files hdistinct hread hwhole hparsed
    rw [hrefused] at hfail
    simp only [hscan] at hfail ⊢
    have hstop : stop (trail ws fuzzy (planned faults (scan patch)) files) ≠ none := by
      intro hnone
      have hsucceeded := (applyAll_succeeded ws fuzzy (planned faults (scan patch)) {} token
        store files).mpr ⟨hnone, rfl⟩
      rw [hsucceeded] at hfail
      cases hfail
    rw [applyAll_files, replay_eq_iff]
    exact horiginals.recovers hstop

end

/-! ## A patch that fails -/

/-- An operation that adds a line at the end of a file. -/
def appending (path line : String) : PatchOperation where
  operation := .update
  filePath := path
  hunks := [{ lines := [⟨.added, line⟩] }]

theorem allOrNothing_of_distinct_missing :
    let files : Files := fun path => if path = "a" then some [] else none
    (execute ⟨id, id, fun _ => true⟩ (fun content _ _ => ⟨content, 0, none, none⟩)
      (fun _ => [appending "a" "x", { operation := .delete, filePath := "b" }]) (fun _ => {}) {}
      "t" "p" {} files).2.2 = files :=
  allOrNothing_of_distinct ⟨id, id, fun _ => true⟩ _ _ _ "t" "p" {} _ (by decide)
    (by
      intro path _ bytes h
      split at h <;> cases h
      rfl)
    nofun (by decide)

/-- Two updates of one file and a delete of one that is not there: rollback leaves the
file with the first update. -/
theorem rolls_back_to_first_update :
    ¬ ∀ (ws : Workspace) (fuzzy : List Char → List Char → List Char → FuzzyResult)
      (scan : String → List PatchOperation) (faults : Nat → OpFaults) (exit : ExitFaults)
      (token patch : String) (store : UndoStore) (files : Files),
      (execute ws fuzzy scan faults exit token patch store files).1.succeeded = false →
        (execute ws fuzzy scan faults exit token patch store files).2.2 = files := by
  intro h
  let files : Files := fun path => if path = "a" then some [] else none
  have hkept := h ⟨id, id, fun _ => true⟩ (fun content _ _ => ⟨content, 0, none, none⟩)
    (fun _ => [appending "a" "x", appending "a" "y", { operation := .delete, filePath := "b" }])
    (fun _ => {}) {} "t" "p" {} files (by decide)
  have hfirst := congrFun hkept "a"
  revert hfirst
  decide

end StackOwl.Tools
