import StackOwl.Lib.JsonAscii
import StackOwl.Lib.Replay
import StackOwl.Lib.Text
import StackOwl.Tools.TextFiles

/-!
# The undo store

`UndoStore` (`tools/io/undo_store.py`): a ring of pre-images, the oldest first.  A
single snapshot keeps the text of one file; a group snapshot keeps the texts of many and
the files to delete, as one JSON text.  A restore reads the blob with its line endings
translated, writes back, and drops the snapshot.

The index is kept as the list it is loaded as; where its text is not whole, that is the
empty one.  A token is given where the store draws one; the stamps of the snapshots, which
nothing reads, are left out.

## Main results

* `readGroup_groupBlob` — a group snapshot is read back from its blob.
* `restoreGroup_files` — what a group restore makes of the files.
* `push_keeps` — a snapshot survives while fewer than the bound follow it.
-/

namespace StackOwl.Tools

open Lib List Option Function

/-- What a snapshot is of: a file, or `__group__`, which no resolved path is. -/
inductive SnapshotTarget where
  | file (path : String)
  | group

structure SnapshotMeta where
  token : String
  targetPath : SnapshotTarget

def MAX_SNAPSHOTS : Nat := 50

/-- `UndoStore`: the index, oldest first, and the blob of each token. -/
structure UndoStore where
  maxSnapshots : Nat := MAX_SNAPSHOTS
  index : List SnapshotMeta := []
  blobs : String → Option (List UInt8) := fun _ => none

def UndoStore.bound (store : UndoStore) : Nat := max 1 store.maxSnapshots

/-! ## Saving the index -/

/-- An `OSError` of `_save_index`: before the file was opened, or with a text in it that is
whole or not. -/
inductive IndexFault where
  | refused (error : String)
  | torn (whole : Bool) (error : String)

def IndexFault.error : IndexFault → String
  | .refused error | .torn _ error => error

/-- What the index is read as next, `old` before and `new` the one to be saved. -/
def saveIndex (old new : List SnapshotMeta) : Option IndexFault → List SnapshotMeta
  | none | some (.torn true _) => new
  | some (.refused _) => old
  | some (.torn false _) => []

/-! ## Snapshots -/

/-- The `OSError` that a snapshot raises. -/
inductive SnapshotFault where
  | blob (fault : WriteFault)
  | index (fault : IndexFault)

def SnapshotFault.error : SnapshotFault → String
  | .blob (.refused error) | .blob (.torn _ error) => error
  | .index fault => fault.error

/-- The oldest snapshots past the bound go, each with its blob; the blobs that `stays` names
cannot be unlinked. -/
def evict (stays : String → Bool) (bound : Nat) : List SnapshotMeta →
    (String → Option (List UInt8)) → List SnapshotMeta × (String → Option (List UInt8))
  | [], blobs => ([], blobs)
  | stale :: metas, blobs =>
    if bound < (stale :: metas).length then
      evict stays bound metas
        (if stays stale.token then blobs else update blobs stale.token none)
    else (stale :: metas, blobs)

def UndoStore.push (store : UndoStore) (snap : SnapshotMeta) (blob : List UInt8)
    (stays : String → Bool := fun _ => false) : Option SnapshotFault → UndoStore
  | some (.blob (.refused _)) => store
  | some (.blob (.torn kept _)) =>
    { store with blobs := update store.blobs snap.token (some (blob.take kept)) }
  | some (.index fault) =>
    let (index, blobs) := evict stays store.bound (store.index ++ [snap])
      (update store.blobs snap.token (some blob))
    { store with index := saveIndex store.index index (some fault), blobs }
  | none =>
    let (index, blobs) := evict stays store.bound (store.index ++ [snap])
      (update store.blobs snap.token (some blob))
    { store with index, blobs }

def UndoStore.snapshot (store : UndoStore) (token target : String) (content : List Char)
    (stays : String → Bool := fun _ => false) (fault : Option SnapshotFault := none) :
    UndoStore :=
  store.push ⟨token, .file target⟩ (encode content) stays fault

def groupPayload (restoreItems : List (String × List Char)) (deletePaths : List String) :
    Json :=
  .obj
    [("restore", .arr (restoreItems.map fun item =>
        .obj [("path", .str item.1), ("content", .str (String.ofList item.2))])),
      ("delete", .arr (deletePaths.map .str))]

def groupBlob (restoreItems : List (String × List Char)) (deletePaths : List String) :
    List UInt8 :=
  utf8 (ascii (groupPayload restoreItems deletePaths))

def UndoStore.snapshotGroup (store : UndoStore) (token : String)
    (restoreItems : List (String × List Char)) (deletePaths : List String)
    (stays : String → Bool := fun _ => false) (fault : Option SnapshotFault := none) :
    UndoStore :=
  store.push ⟨token, .group⟩ (groupBlob restoreItems deletePaths) stays fault

def UndoStore.latestToken (store : UndoStore) : Option String :=
  store.index.getLast?.map SnapshotMeta.token

/-! ## Restoring -/

/-- `str(item.get(key, ""))`, of a text. -/
def textField (key : String) (fields : List (String × Json)) : Option String :=
  match fields.lookup key with
  | none => some ""
  | some (.str s) => some s
  | some _ => none

def readItem : Json → Option (String × List Char)
  | .obj fields => do
    let path ← textField "path" fields
    let content ← textField "content" fields
    some (path, content.toList)
  | _ => none

def readPath : Json → Option String
  | .str s => some s
  | _ => none

/-- The items of `payload.get(key, [])`. -/
def arrayField (key : String) (fields : List (String × Json)) : Option (List Json) :=
  match fields.lookup key with
  | none => some []
  | some (.arr items) => some items
  | some _ => none

/-- What a payload of `snapshot_group` names; of another shape, nothing is made. -/
def readGroup : Json → Option (List (String × List Char) × List String)
  | .obj fields => do
    let items ← arrayField "restore" fields
    let restoreItems ← items.mapM readItem
    let paths ← arrayField "delete" fields
    let deletePaths ← paths.mapM readPath
    some (restoreItems, deletePaths)
  | _ => none

/-- The `OSError`s that meet a restore: the `i`-th file written back, the `i`-th deleted. -/
structure RestoreFaults where
  write : Nat → Option WriteFault := fun _ => none
  unlink : Nat → Option String := fun _ => none

/-- Besides, those of the store's own files: the blob cannot be unlinked, the index not saved. -/
structure UndoFaults extends RestoreFaults where
  blobStays : Bool := false
  index : Option IndexFault := none

/-- What `restore` does: it returns, or a payload it did not write makes it raise, or an index
that is not saved. -/
inductive Restored where
  | done (success : Bool) (message : String)
  | raised (what : String)

/-- The snapshot is dropped: its blob, then its entry. -/
def UndoStore.consume (store : UndoStore) (token : String) (faults : UndoFaults := {}) :
    UndoStore :=
  { store with
    index := saveIndex store.index (store.index.filter fun m => m.token ≠ token) faults.index
    blobs := if faults.blobStays then store.blobs else update store.blobs token none }

/-- What `restore` returns behind `_save_index`. -/
def UndoFaults.consumed (faults : UndoFaults) (success : Bool) (message : String) : Restored :=
  match faults.index with
  | none => .done success message
  | some fault => .raised fault.error

section
variable (inside : String → Bool)

section
variable (faults : RestoreFaults)

/-- The files written back, with the number of those restored and of those skipped. -/
def writeBack : Nat → List (String × List Char) → Files → Files × Nat × Nat
  | _, [], files => (files, 0, 0)
  | i, (path, content) :: items, files =>
    if inside path then
      let (files, error) := writeText files path content (faults.write i)
      let (files, restored, skipped) := writeBack (i + 1) items files
      if error.isNone then (files, restored + 1, skipped) else (files, restored, skipped + 1)
    else
      let (files, restored, skipped) := writeBack (i + 1) items files
      (files, restored, skipped + 1)

def deleteCreated : Nat → List String → Files → Files × Nat
  | _, [], files => (files, 0)
  | i, path :: paths, files =>
    if inside path then deleteCreated (i + 1) paths (unlink files path (faults.unlink i)).1
    else
      let (files, skipped) := deleteCreated (i + 1) paths files
      (files, skipped + 1)

end

variable (faults : UndoFaults)

def restoreGroup (store : UndoStore) (files : Files) (token : String) (blobText : List Char) :
    Restored × UndoStore × Files :=
  match loads (String.ofList blobText) with
  | none => (.done false ("Corrupt group snapshot for token " ++ quoted token), store, files)
  | some payload =>
    match readGroup payload with
    | none => (.raised "malformed group snapshot", store, files)
    | some (restoreItems, deletePaths) =>
      let (files, restored, skipped) :=
        writeBack inside faults.toRestoreFaults 0 restoreItems files
      let (files, outside) := deleteCreated inside faults.toRestoreFaults 0 deletePaths files
      let skipped := skipped + outside
      (faults.consumed (skipped == 0)
        ("Reverted patch: " ++ restored.repr ++ " file(s) restored" ++
          (if skipped ≠ 0 then
            ", " ++ skipped.repr ++ " skipped (outside workspace or unwritable)"
          else "") ++ " (token " ++ token ++ ")."),
        store.consume token faults, files)

def UndoStore.restore (store : UndoStore) (files : Files) (token : String) :
    Restored × UndoStore × Files :=
  match store.index.find? (·.token = token) with
  | none => (.done false ("Unknown undo token: " ++ quoted token), store, files)
  | some snap =>
    match store.blobs snap.token with
    | none => (.done false ("Pre-image for token " ++ quoted token ++ " is missing"), store, files)
    | some blob =>
      match (decode blob).map normalizeNewlines with
      | none => (.raised "UnicodeDecodeError", store, files)
      | some preImage =>
        match snap.targetPath with
        | .group => restoreGroup inside faults store files token preImage
        | .file target =>
          if inside target then
            match writeText files target preImage (faults.write 0) with
            | (files, some error) =>
              (.done false ("Failed to restore " ++ target ++ ": " ++ error), store, files)
            | (files, none) =>
              (faults.consumed true
                ("Restored " ++ target ++ " from pre-image (token " ++ token ++ ")."),
                store.consume token faults, files)
          else
            (.done false ("Refusing to restore outside the workspace: " ++ target), store, files)

end

/-! ## Group snapshots -/

variable (restoreItems : List (String × List Char)) (deletePaths : List String)

theorem readable_groupPayload : (groupPayload restoreItems deletePaths).Readable := by
  have hitems : ∀ items : List (String × List Char), ReadableItems (items.map fun item =>
      .obj [("path", .str item.1), ("content", .str (String.ofList item.2))]) := by
    intro items
    induction items with
    | nil => trivial
    | cons item items ih => exact ⟨⟨trivial, trivial, trivial⟩, ih⟩
  have hpaths : ∀ paths : List String, ReadableItems (paths.map .str) := by
    intro paths
    induction paths with
    | nil => trivial
    | cons path paths ih => exact ⟨trivial, ih⟩
  exact ⟨hitems restoreItems, hpaths deletePaths, trivial⟩

theorem mapM_map_eq_some {α β : Type} {f : β → Option α} {g : α → β}
    (h : ∀ x, f (g x) = some x) (xs : List α) : (xs.map g).mapM f = some xs := by
  induction xs with
  | nil => rfl
  | cons x xs ih =>
    rw [map_cons, mapM_cons, h, ih]
    rfl

theorem readGroup_groupPayload :
    readGroup (groupPayload restoreItems deletePaths) = some (restoreItems, deletePaths) := by
  have hitem : ∀ item : String × List Char, readItem (.obj
      [("path", .str item.1), ("content", .str (String.ofList item.2))]) = some item := by
    intro item
    show some (item.1, (String.ofList item.2).toList) = some item
    rw [String.toList_ofList]
  have hitems := mapM_map_eq_some hitem restoreItems
  have hpaths := mapM_map_eq_some (f := readPath) (g := Json.str) (fun _ => rfl) deletePaths
  simp [groupPayload, readGroup, arrayField, lookup_cons, hitems, hpaths]

/-- The blob of a group snapshot is the same text with its line endings translated: it
has none. -/
theorem read_groupBlob :
    (decode (groupBlob restoreItems deletePaths)).map normalizeNewlines =
      some (ascii (groupPayload restoreItems deletePaths)).toList := by
  have hplain : '\r' ∉ (ascii (groupPayload restoreItems deletePaths)).toList := by
    intro hmem
    exact absurd (ascii_plain _ _ hmem) (by decide)
  rw [groupBlob, decode, utf8Decode_utf8, map_some, map_some,
    (normalizeNewlines_eq_self_iff _).mpr hplain]

/-- What a group restore makes of each file, as assignments. -/
def groupWrites :
    List (String × Option (List UInt8)) :=
  restoreItems.map (fun item => (item.1, some (encode item.2))) ++
    deletePaths.map fun path => (path, none)

theorem writeBack_clean (inside : String → Bool) (i : Nat) (items : List (String × List Char))
    (files : Files) (h : ∀ item ∈ items, inside item.1 = true) :
    writeBack inside {} i items files =
      (replay files (items.map fun item => (item.1, some (encode item.2))), items.length, 0) := by
  induction items generalizing i files with
  | nil => rfl
  | cons item items ih =>
    obtain ⟨path, content⟩ := item
    have hhead : inside path = true := h (path, content) mem_cons_self
    have htail := fun m hm => h m (mem_cons_of_mem _ hm)
    simp only [writeBack, hhead, if_true, writeText, ih _ _ htail]
    rfl

theorem unlink_clean (files : Files) (path : String) :
    (unlink files path none).1 = update files path none := by
  cases hfile : files path with
  | none => rw [unlink, hfile, if_neg (by decide), ← hfile, update_eq_self]
  | some bytes => rw [unlink, hfile, if_pos isSome_some]

theorem deleteCreated_clean (inside : String → Bool) (i : Nat) (paths : List String)
    (files : Files) (h : ∀ path ∈ paths, inside path = true) :
    deleteCreated inside {} i paths files =
      (replay files (paths.map fun path => (path, none)), 0) := by
  induction paths generalizing i files with
  | nil => rfl
  | cons path paths ih =>
    have hhead : inside path = true := h path mem_cons_self
    have htail := fun m hm => h m (mem_cons_of_mem _ hm)
    simp only [deleteCreated, hhead, if_true, unlink_clean, ih _ _ htail]
    rfl

/-- A group restore carries out its assignments and drops the snapshot. -/
theorem restoreGroup_clean (inside : String → Bool) (store : UndoStore) (files : Files)
    (token : String) (restoreItems : List (String × List Char)) (deletePaths : List String)
    (hitems : ∀ item ∈ restoreItems, inside item.1 = true)
    (hpaths : ∀ path ∈ deletePaths, inside path = true) :
    ∃ message, restoreGroup inside {} store files token
        (ascii (groupPayload restoreItems deletePaths)).toList =
      (.done true message, store.consume token,
        replay files (groupWrites restoreItems deletePaths)) := by
  unfold restoreGroup
  rw [String.ofList_toList, loads_ascii (readable_groupPayload restoreItems deletePaths)]
  simp only [readGroup_groupPayload, writeBack_clean inside 0 restoreItems files hitems,
    deleteCreated_clean inside 0 deletePaths _ hpaths, ← replay_append]
  exact ⟨_, rfl⟩

/-! ## The ring -/

theorem evict_index (stays : String → Bool) (bound : Nat) (metas : List SnapshotMeta)
    (blobs : String → Option (List UInt8)) :
    (evict stays bound metas blobs).1 = metas.drop (metas.length - bound) := by
  induction metas generalizing blobs with
  | nil => simp [evict]
  | cons stale metas ih =>
    rw [evict]
    split
    · rename_i hlong
      rw [length_cons] at hlong
      rw [ih, length_cons, Nat.succ_sub (by omega), drop_succ_cons]
    · rename_i hshort
      rw [Nat.sub_eq_zero_of_le (by omega), drop_zero]

theorem evict_blobs (stays : String → Bool) (bound : Nat) (metas : List SnapshotMeta)
    (blobs : String → Option (List UInt8)) {token : String}
    (h : ∀ m ∈ metas.take (metas.length - bound), m.token ≠ token) :
    (evict stays bound metas blobs).2 token = blobs token := by
  induction metas generalizing blobs with
  | nil => rfl
  | cons stale metas ih =>
    rw [evict]
    split
    · rename_i hlong
      rw [length_cons] at hlong
      rw [length_cons, Nat.succ_sub (by omega), take_succ_cons] at h
      rw [ih _ (fun m hm => h m (mem_cons_of_mem _ hm))]
      split
      · rfl
      · exact update_of_ne (h stale mem_cons_self).symm ..
    · rfl

/-- The snapshot is in the ring with its blob, and no other has its token. -/
structure UndoStore.Holds (store : UndoStore) (snap : SnapshotMeta) (blob : List UInt8)
    (newer : Nat) : Prop where
  split : ∃ older later, store.index = older ++ snap :: later ∧ later.length ≤ newer ∧
    ∀ m ∈ older ++ later, m.token ≠ snap.token
  blob : store.blobs snap.token = some blob

section

variable (store : UndoStore) (snap : SnapshotMeta) (blob : List UInt8) (stays : String → Bool)

theorem UndoStore.bound_push (fault : Option SnapshotFault) :
    (store.push snap blob stays fault).bound = store.bound := by
  unfold UndoStore.push
  split <;> rfl

theorem UndoStore.index_push :
    (store.push snap blob stays none).index =
      (store.index ++ [snap]).drop ((store.index ++ [snap]).length - store.bound) :=
  evict_index _ _ _ _

theorem UndoStore.holds_push (hfresh : ∀ m ∈ store.index, m.token ≠ snap.token) :
    (store.push snap blob stays none).Holds snap blob 0 := by
  have hbound : 1 ≤ store.bound := Nat.le_max_left ..
  have hdrop : (store.index ++ [snap]).length - store.bound ≤ store.index.length := by
    rw [length_append, length_singleton]
    omega
  constructor
  · refine ⟨_, [], (store.index_push snap blob stays).trans (drop_append_of_le_length hdrop),
      Nat.le_refl _, fun m hm => ?_⟩
    rw [append_nil] at hm
    exact hfresh m (mem_of_mem_drop hm)
  · refine (evict_blobs _ _ _ _ fun m hm => ?_).trans (update_self ..)
    rw [take_append_of_le_length hdrop] at hm
    exact hfresh m (mem_of_mem_take hm)

end

variable {store : UndoStore} {newer : Nat}

/-- A snapshot survives another one while fewer than the bound are newer. -/
theorem UndoStore.Holds.push {snap : SnapshotMeta} {blob : List UInt8}
    (h : store.Holds snap blob newer) (hroom : newer + 1 < store.bound) (next : SnapshotMeta)
    (nextBlob : List UInt8) (stays : String → Bool) (hnext : next.token ≠ snap.token) :
    (store.push next nextBlob stays none).Holds snap blob (newer + 1) := by
  obtain ⟨older, later, hindex, hlater, hother⟩ := h.split
  have hdrop : (store.index ++ [next]).length - store.bound ≤ older.length := by
    rw [hindex]
    simp only [length_append, length_cons, length_nil]
    omega
  have hjoined : store.index ++ [next] = older ++ snap :: (later ++ [next]) := by
    rw [hindex]
    simp
  constructor
  · refine ⟨older.drop ((store.index ++ [next]).length - store.bound), later ++ [next], ?_,
      ?_, fun m hm => ?_⟩
    · rw [store.index_push, ← drop_append_of_le_length hdrop, ← hjoined]
    · rw [length_append, length_singleton]
      omega
    · rcases mem_append.mp hm with hold | hnew
      · exact hother m (mem_append_left _ (mem_of_mem_drop hold))
      · rcases mem_append.mp hnew with hlate | hlast
        · exact hother m (mem_append_right _ hlate)
        · rw [mem_singleton.mp hlast]
          exact hnext
  · refine (evict_blobs _ _ _ _ fun m hm => ?_).trans
      ((update_of_ne hnext.symm ..).trans h.blob)
    rw [hjoined, take_append_of_le_length (hjoined ▸ hdrop)] at hm
    exact hother m (mem_append_left _ (mem_of_mem_take hm))

theorem UndoStore.Holds.find {snap : SnapshotMeta} {blob : List UInt8}
    (h : store.Holds snap blob newer) :
    store.index.find? (·.token = snap.token) = some snap := by
  obtain ⟨older, later, hindex, -, hother⟩ := h.split
  have hskip : older.find? (fun m => decide (m.token = snap.token)) = none :=
    find?_eq_none.mpr fun m hm =>
      by simpa using hother m (mem_append_left _ hm)
  rw [hindex, find?_append, hskip, none_or, find?_cons_of_pos]
  simp

/-! ## Restoring -/

/-- A single snapshot puts back its text with the line endings translated. -/
theorem UndoStore.Holds.restore_file {token target : String} {content : List Char}
    (h : store.Holds ⟨token, .file target⟩ (encode content) newer) {inside : String → Bool}
    (hinside : inside target = true) (files : Files) :
    ∃ message, store.restore inside {} files token =
      (.done true message, store.consume token,
        update files target (some (encode (normalizeNewlines content)))) := by
  have hfind : store.index.find? (·.token = token) = some ⟨token, .file target⟩ := h.find
  have hblob : store.blobs token = some (encode content) := h.blob
  unfold UndoStore.restore
  simp only [hfind, hblob, decode_encode, map_some, hinside, if_true, writeText]
  exact ⟨_, rfl⟩

theorem UndoStore.Holds.restore_group {token : String} {restoreItems : List (String × List Char)}
    {deletePaths : List String}
    (h : store.Holds ⟨token, .group⟩ (groupBlob restoreItems deletePaths) newer)
    {inside : String → Bool} (hitems : ∀ item ∈ restoreItems, inside item.1 = true)
    (hpaths : ∀ path ∈ deletePaths, inside path = true) (files : Files) :
    ∃ message, store.restore inside {} files token =
      (.done true message, store.consume token,
        replay files (groupWrites restoreItems deletePaths)) := by
  have hfind : store.index.find? (·.token = token) = some ⟨token, .group⟩ := h.find
  have hblob : store.blobs token = some (groupBlob restoreItems deletePaths) := h.blob
  unfold UndoStore.restore
  simp only [hfind, hblob, read_groupBlob]
  exact restoreGroup_clean inside store files token restoreItems deletePaths hitems hpaths

/-- A dropped snapshot changes nothing any more. -/
theorem UndoStore.restore_consume (store : UndoStore) (inside : String → Bool)
    (faults : UndoFaults) (files : Files) (token : String) :
    ∃ message, (store.consume token).restore inside faults files token =
      (.done false message, store.consume token, files) := by
  have hnone : (store.consume token).index.find? (·.token = token) = none := by
    rw [find?_eq_none]
    intro m hm
    simpa using (mem_filter.mp hm).2
  unfold UndoStore.restore
  rw [hnone]
  exact ⟨_, rfl⟩

end StackOwl.Tools
