import StackOwl.Tools.PatchBounds

/-!
# Reading back a patch

A patch is read back where no line of it has a marker in it, every path is one trimmed line,
every update has a hunk, every hunk a line and every hint is one trimmed line, or a blank.

## Main results

* `tidy_scanPatch` — what the operations that are read have in common.
* `patch_read_back_iff` — when a patch is read back.
* `content_ends_patch` — a new file with an end marker in its first line.
-/

namespace StackOwl.Tools

open Lib Durable Memory List

/-! ## What is read -/

/-- A text of one line, with no blank at its ends. -/
def Trimmed (text : String) : Prop := strip text.toList = text.toList ∧ '\n' ∉ text.toList

def Hunk.OneLine (hunk : Hunk) : Prop := ∀ hint ∈ hunk.contextHint, '\n' ∉ hint.toList

structure PatchOperation.Tidy (op : PatchOperation) : Prop where
  filePath : Trimmed op.filePath
  newPath : ∀ path ∈ op.newPath, Trimmed path
  hunks : ∀ hunk ∈ op.hunks, hunk.lines ≠ [] ∧ hunk.OneLine

structure Scan.Tidy (s : Scan) : Prop where
  operations : ∀ op ∈ s.operations, op.Tidy
  currentOp : ∀ op ∈ s.currentOp, op.Tidy
  currentHunk : ∀ hunk ∈ s.currentHunk, hunk.OneLine

section
variable {line : List Char} {taken : List Char}

theorem trimmed_of_group (hline : '\n' ∉ line) (h : taken <:+: line) :
    Trimmed (String.ofList (strip taken)) := by
  rw [Trimmed, String.toList_ofList]
  exact ⟨strip_strip taken, fun hmem => hline (h.subset ((strip_sublist taken).subset hmem))⟩

theorem mem_captures {items : List (Item Char)} {groups : List (List Char)}
    (h : captures items none line = some groups) (htaken : taken ∈ groups) :
    taken <:+: line := by
  obtain ⟨found, hfound, rfl⟩ := captures_eq_some.mp h
  obtain ⟨hmatches, htext⟩ := matches_of_matchItems hfound
  exact (hmatches.mem_groups htaken).1.trans (htext ▸ (prefix_append _ _).isInfix)

theorem trimmed_of_fileHeader {word path : String} (hline : '\n' ∉ line)
    (h : fileHeader word line = some path) : Trimmed path := by
  unfold fileHeader at h
  split at h
  · rename_i taken hgroups
    cases h
    exact trimmed_of_group hline (mem_captures hgroups (mem_singleton_self taken))
  · cases h

theorem trimmed_of_moveHeader {src dst : String} (hline : '\n' ∉ line)
    (h : moveHeader line = some (src, dst)) : Trimmed src ∧ Trimmed dst := by
  unfold moveHeader at h
  split at h
  · rename_i first second hgroups
    cases Option.some.inj h
    exact ⟨trimmed_of_group hline (mem_captures hgroups (mem_cons_self ..)),
      trimmed_of_group hline (mem_captures hgroups (mem_cons_of_mem _ (mem_singleton_self second)))⟩
  · cases h

theorem oneLine_of_contextHint {lines : List HunkLine} (hline : '\n' ∉ line) :
    Hunk.OneLine { contextHint := contextHint line, lines } := by
  intro hint hhint
  have hread : contextHint line = some hint := hhint
  unfold contextHint at hread
  split at hread
  · rename_i taken hgroups
    cases hread
    rw [String.toList_ofList]
    exact fun hmem => hline ((mem_captures hgroups (mem_singleton_self taken)).subset hmem)
  · cases hread

theorem tidy_withHunk {op : PatchOperation} {hunk : Option Hunk} (hop : op.Tidy)
    (hhunk : ∀ h ∈ hunk, h.OneLine) : (op.withHunk hunk).Tidy := by
  cases hunk with
  | none => exact hop
  | some hunk =>
    by_cases hlines : hunk.lines = []
    · have hsame : op.withHunk (some hunk) = op := if_pos hlines
      rw [hsame]
      exact hop
    · rw [withHunk_some op hunk hlines]
      refine ⟨hop.filePath, hop.newPath, fun other hother => ?_⟩
      rcases mem_snoc.mp hother with hold | rfl
      · exact hop.hunks other hold
      · exact ⟨hlines, hhunk other rfl⟩

variable {s : Scan}

theorem tidy_saved (h : s.Tidy) : ∀ op ∈ s.saved, op.Tidy := by
  unfold Scan.saved
  cases hcurrent : s.currentOp with
  | none => exact h.operations
  | some current =>
    intro op hop
    rcases mem_snoc.mp hop with hold | rfl
    · exact h.operations op hold
    · exact tidy_withHunk (h.currentOp current hcurrent) h.currentHunk

theorem contextHint_readLine (hunk : Hunk) (c : Char) (rest : List Char) :
    (hunk.readLine c rest).contextHint = hunk.contextHint := by
  unfold Hunk.readLine
  split_ifs <;> rfl

theorem tidy_fresh {path : String} (operation : OperationType) (h : Trimmed path) :
    PatchOperation.Tidy { operation, filePath := path } :=
  ⟨h, fun _ hnone => (by cases hnone), fun _ hnil => absurd hnil not_mem_nil⟩

theorem tidy_step (h : s.Tidy) (hline : '\n' ∉ line) : (s.step line).Tidy := by
  have hsaved := tidy_saved h
  have hfresh : ∀ hunk ∈ (some {} : Option Hunk), hunk.OneLine := by
    intro hunk hhunk
    cases hhunk
    exact nofun
  unfold Scan.step
  split
  · rename_i path hread
    refine ⟨hsaved, fun op hop => ?_, nofun⟩
    cases hop
    exact tidy_fresh .update (trimmed_of_fileHeader hline hread)
  · rename_i path _ hread
    refine ⟨hsaved, fun op hop => ?_, hfresh⟩
    cases hop
    exact tidy_fresh .add (trimmed_of_fileHeader hline hread)
  · rename_i path _ _ hread
    refine ⟨fun op hop => ?_, fun _ hnone => (by cases hnone), nofun⟩
    rcases mem_snoc.mp hop with hold | rfl
    · exact hsaved op hold
    · exact tidy_fresh .delete (trimmed_of_fileHeader hline hread)
  · rename_i src dst _ _ _ hread
    obtain ⟨hsrc, hdst⟩ := trimmed_of_moveHeader hline hread
    refine ⟨fun op hop => ?_, fun _ hnone => (by cases hnone), nofun⟩
    rcases mem_snoc.mp hop with hold | rfl
    · exact hsaved op hold
    · refine ⟨hsrc, fun path hpath => ?_, fun _ hnil => absurd hnil not_mem_nil⟩
      cases hpath
      exact hdst
  · split
    · unfold Scan.openHunk
      split
      · rename_i op hop
        refine ⟨h.operations, fun other hother => ?_, fun hunk hhunk => ?_⟩
        · cases hother
          exact tidy_withHunk (h.currentOp op hop) h.currentHunk
        · cases hhunk
          exact oneLine_of_contextHint hline
      · exact h
    · unfold Scan.addLine
      split
      · rename_i op c rest hop
        refine ⟨h.operations, h.currentOp, fun hunk hhunk => ?_⟩
        cases hhunk
        rw [Hunk.OneLine, contextHint_readLine]
        cases hcurrent : s.currentHunk with
        | none => exact nofun
        | some hunk => exact h.currentHunk hunk hcurrent
      · exact h

end

theorem tidy_foldl {s : Scan} (h : s.Tidy) {lines : List (List Char)}
    (hlines : ∀ line ∈ lines, '\n' ∉ line) : (lines.foldl Scan.step s).Tidy := by
  induction lines generalizing s with
  | nil => exact h
  | cons line lines ih =>
    exact ih (tidy_step h (hlines line (mem_cons_self ..))) fun other hother =>
      hlines other (mem_cons_of_mem line hother)

theorem tidy_scanPatch (patch : String) : ∀ op ∈ scanPatch patch, op.Tidy := by
  have hempty : Scan.Tidy {} :=
    ⟨fun _ hnil => absurd hnil not_mem_nil, fun _ hnone => (by cases hnone),
      nofun⟩
  refine tidy_saved (tidy_foldl hempty fun line hline => ?_)
  have hmem : line ∈ patch.toList.splitOn '\n' :=
    mem_of_mem_take (mem_of_mem_drop hline)
  exact not_mem_of_mem_splitOn hmem

/-! ## Reading back -/

theorem newline_not_mem_fileLine {word path : String} (hword : '\n' ∉ word.toList)
    (h : '\n' ∉ path.toList) : '\n' ∉ fileLine word path := by
  intro hmem
  rcases mem_append.mp hmem with hmem | hmem
  · exact absurd hmem (by decide)
  rcases mem_append.mp hmem with hmem | hmem
  · exact hword hmem
  rcases mem_append.mp hmem with hmem | hmem
  · exact absurd hmem (by decide)
  · exact h hmem

theorem newline_not_mem_render {line : HunkLine} (h : '\n' ∉ line.content.toList) :
    '\n' ∉ line.render := by
  intro hmem
  rcases mem_cons.mp hmem with hmark | hmem
  · cases hkind : line.mark <;> rw [hkind] at hmark <;> cases hmark
  · exact h hmem

theorem newline_not_mem_renderHint {hunk : Hunk} (h : hunk.OneLine) :
    '\n' ∉ renderHint hunk.contextHint := by
  cases hhint : hunk.contextHint with
  | none => decide
  | some hint =>
    intro hmem
    rcases mem_append.mp hmem with hmem | hmem
    · exact absurd hmem (by decide)
    rcases mem_append.mp hmem with hmem | hmem
    · exact h hint hhint hmem
    · exact absurd hmem (by decide)

variable {op : PatchOperation}

theorem newline_not_mem_op (hw : op.Writable) (ht : op.Tidy) :
    ∀ line ∈ op.render, '\n' ∉ line := by
  have hcontent : ∀ hunk ∈ op.hunks, ∀ line ∈ hunk.lines.map HunkLine.render,
      '\n' ∉ line := by
    intro hunk hhunk line hline
    obtain ⟨inner, hinner, rfl⟩ := mem_map.mp hline
    exact newline_not_mem_render (hw.content hunk hhunk inner hinner)
  have hshape := hw.shape
  unfold PatchOperation.render
  intro line hline
  cases hop : op.operation with
  | update =>
    rw [hop] at hline
    rcases mem_cons.mp hline with rfl | hline
    · exact newline_not_mem_fileLine (by decide) ht.filePath.2
    · obtain ⟨hunk, hhunk, hline⟩ := mem_flatMap.mp hline
      rcases mem_cons.mp hline with rfl | hline
      · exact newline_not_mem_renderHint (ht.hunks hunk hhunk).2
      · exact hcontent hunk hhunk line hline
  | add =>
    rw [hop] at hline
    rcases mem_cons.mp hline with rfl | hline
    · exact newline_not_mem_fileLine (by decide) ht.filePath.2
    · obtain ⟨hunk, hhunk, hline⟩ := mem_flatMap.mp hline
      exact hcontent hunk hhunk line hline
  | delete =>
    rw [hop] at hline
    rw [mem_singleton.mp hline]
    exact newline_not_mem_fileLine (by decide) ht.filePath.2
  | move =>
    rw [hop] at hline hshape
    obtain ⟨dst, hdst⟩ := Option.isSome_iff_exists.mp hshape.1
    rw [mem_singleton.mp hline, hdst]
    refine newline_not_mem_fileLine (by decide) ?_
    rw [String.toList_append, String.toList_append, mem_append, mem_append]
    rintro ((hmem | hmem) | hmem)
    · exact ht.filePath.2 hmem
    · exact absurd hmem (by decide)
    · exact (ht.newPath dst hdst).2 hmem

variable {ops : List PatchOperation}

theorem scanPatch_renderPatch (h : ∀ line ∈ renderBody ops, '\n' ∉ line) :
    scanPatch (renderPatch ops) =
      ((between [] (renderBody ops ++ ["*** End Patch".toList])).foldl Scan.step {}).saved := by
  have hlines : (renderPatch ops).toList.splitOn '\n' =
      "*** Begin Patch".toList :: (renderBody ops ++ ["*** End Patch".toList]) := by
    rw [renderPatch, String.toList_ofList]
    refine splitOn_intercalate '\n' (fun line hline => ?_) (cons_ne_nil _ _)
    rcases mem_cons.mp hline with rfl | hline
    · decide
    rcases mem_snoc.mp hline with hline | rfl
    · exact h line hline
    · decide
  have hbegin : hasBegin "*** Begin Patch".toList = true := by decide
  rw [scanPatch, hlines, patchLines_eq, between, if_pos hbegin]

structure PatchOperation.Legible (op : PatchOperation) : Prop where
  filePath : Plain op.filePath.toList
  newPath : ∀ path ∈ op.newPath, Plain path.toList
  hunks : op.operation = .update → op.hunks ≠ []
  lines : ∀ hunk ∈ op.hunks, hunk.lines ≠ []
  hint : ∀ hunk ∈ op.hunks, ∀ hint ∈ hunk.contextHint, hint = " " ∨ Plain hint.toList

theorem hintRead_eq_iff {hint : String} (hline : '\n' ∉ hint.toList) :
    String.ofList (hintRead hint.toList) = hint ↔ hint = " " ∨ Plain hint.toList := by
  have hlist : String.ofList (hintRead hint.toList) = hint ↔
      hintRead hint.toList = hint.toList := by
    constructor
    · intro h
      rw [← String.toList_ofList (l := hintRead hint.toList), h]
    · intro h
      rw [h, String.ofList_toList]
  rw [hlist, hintRead]
  by_cases hblank : hint.toList.all isSpace = true
  · have hnever : ¬Plain hint.toList := by
      intro hplain
      obtain ⟨c, rest, hcons⟩ := exists_cons_of_ne_nil hplain.1
      have hhead := hplain.head c (by rw [hcons]; rfl)
      rw [all_eq_true.mp hblank c (hcons ▸ mem_cons_self ..)] at hhead
      cases hhead
    rw [if_pos hblank, or_iff_left hnever]
    constructor
    · intro h
      rw [← String.ofList_toList (s := hint), ← h]
    · rintro rfl
      rfl
  · have hne : hint.toList ≠ [] := by
      intro hnil
      exact hblank (by rw [hnil]; rfl)
    have hother : hint ≠ " " := by
      rintro rfl
      exact hblank rfl
    rw [if_neg hblank, or_iff_right hother]
    exact ⟨fun h => ⟨hne, h, hline⟩, fun h => h.2.1⟩

theorem toList_ne_nil {text : String} : text.toList ≠ [] ↔ text ≠ "" := by
  rw [Ne, String.toList_eq_nil_iff]

theorem parseErrors_eq_nil :
    op.parseErrors = [] ↔ op.filePath ≠ "" ∧ (op.operation = .update → op.hunks ≠ []) ∧
      (op.operation = .move → op.newPath.getD "" ≠ "") := by
  unfold PatchOperation.parseErrors
  simp only [append_eq_nil_iff, ite_eq_right_iff, cons_ne_nil, imp_false, not_and,
    and_assoc]

theorem parseV4aPatch_eq {patch : String} :
    parseV4aPatch scanPatch patch = (ops, none) ↔
      scanPatch patch = ops ∧ ∀ op ∈ ops, op.parseErrors = [] := by
  unfold parseV4aPatch
  by_cases herrors : (scanPatch patch).flatMap PatchOperation.parseErrors = []
  · rw [if_neg (not_not_intro herrors), Prod.mk.injEq, and_iff_left rfl]
    refine ⟨fun h => ⟨h, ?_⟩, fun h => h.1⟩
    rw [← h]
    exact flatMap_eq_nil_iff.mp herrors
  · rw [if_pos herrors, Prod.mk.injEq]
    constructor
    · rintro ⟨_, hsome⟩
      cases hsome
    · rintro ⟨rfl, hnone⟩
      exact absurd (flatMap_eq_nil_iff.mpr hnone) herrors

theorem newPath_eq_none (hw : op.Writable) (h : op.operation ≠ .move) :
    op.newPath = none := by
  have hshape := hw.shape
  cases hop : op.operation with
  | update => rw [hop] at hshape; exact hshape
  | add => rw [hop] at hshape; exact hshape.1
  | delete => rw [hop] at hshape; exact hshape.1
  | move => exact absurd hop h

theorem sound_of_tidy (hw : op.Writable) (ht : op.Tidy) (herrors : op.parseErrors = []) :
    op.Sound := by
  obtain ⟨hpath, _, hmove⟩ := parseErrors_eq_nil.mp herrors
  refine ⟨⟨toList_ne_nil.mpr hpath, ht.filePath⟩, fun path hnew => ?_,
    fun hunk hhunk => (ht.hunks hunk hhunk).1, fun hunk hhunk => (ht.hunks hunk hhunk).2⟩
  have hop : op.operation = .move := by
    by_contra hother
    rw [newPath_eq_none hw hother] at hnew
    cases hnew
  have hsome : op.newPath = some path := hnew
  have hne := hmove hop
  rw [hsome] at hne
  exact ⟨toList_ne_nil.mpr hne, ht.newPath path hnew⟩

theorem tidy_of_legible (h : op.Legible) : op.Tidy := by
  refine ⟨h.filePath.2, fun path hpath => (h.newPath path hpath).2, fun hunk hhunk =>
    ⟨h.lines hunk hhunk, fun hint hhint => ?_⟩⟩
  rcases h.hint hunk hhunk hint hhint with rfl | hplain
  · decide
  · exact hplain.2.2

theorem parseErrors_of_legible (hw : op.Writable) (h : op.Legible) :
    op.parseErrors = [] := by
  refine parseErrors_eq_nil.mpr ⟨toList_ne_nil.mp h.filePath.1, h.hunks, fun hop => ?_⟩
  have hshape := hw.shape
  rw [hop] at hshape
  obtain ⟨dst, hdst⟩ := Option.isSome_iff_exists.mp hshape.1
  rw [hdst]
  exact toList_ne_nil.mp (h.newPath dst hdst).1

theorem reread_eq_iff (hs : op.Sound) :
    op.reread = op ↔
      ∀ hunk ∈ op.hunks, ∀ hint ∈ hunk.contextHint, hint = " " ∨ Plain hint.toList := by
  have hhunk (hunk : Hunk) (hmem : hunk ∈ op.hunks) : hunk.reread = hunk ↔
      ∀ hint ∈ hunk.contextHint, hint = " " ∨ Plain hint.toList := by
    have hline := hs.hint hunk hmem
    obtain ⟨contextHint, lines⟩ := hunk
    cases contextHint with
    | none => exact ⟨fun _ _ hnone => (by cases hnone), fun _ => rfl⟩
    | some hint =>
      have hiff := hintRead_eq_iff (hline hint rfl)
      constructor
      · intro h other hother
        cases hother
        exact hiff.mp (Option.some.inj (congrArg Hunk.contextHint h))
      · intro h
        show Hunk.mk (some (String.ofList (hintRead hint.toList))) lines = _
        rw [hiff.mpr (h hint rfl)]
  have hop : op.reread = op ↔ op.hunks.map Hunk.reread = op.hunks.map id := by
    rw [map_id]
    exact ⟨fun h => congrArg PatchOperation.hunks h, fun h => by rw [PatchOperation.reread, h]⟩
  rw [hop, map_inj_left]
  exact forall₂_congr hhunk

theorem unmarked_of_read (hw : ∀ op ∈ ops, op.Writable)
    (hlines : ∀ op ∈ ops, ∀ hunk ∈ op.hunks, hunk.lines ≠ [])
    (hread : ((between [] (renderBody ops ++ ["*** End Patch".toList])).foldl Scan.step {}).saved =
      ops) : Unmarked (renderBody ops) := by
  obtain ⟨before, after, hsplit, hclean⟩ :=
    between_cut [] (renderBody ops) (by decide : hasBegin "*** End Patch".toList = false)
      (by decide)
  rw [nil_append] at hsplit
  have hweight := weight_saved_foldl (between [] (renderBody ops ++ ["*** End Patch".toList]))
  have htotal := countP_body hw
  rw [hread] at hweight
  rw [hsplit, countP_append, countP_append] at htotal
  have hbefore : before.countP counted = 0 := by omega
  have hafter : after.countP counted = 0 := by omega
  refine hclean ?_ ?_
  · cases before with
    | nil => rfl
    | cons line before =>
      have hline := counted_head ops line (by rw [hsplit]; rfl)
      exact absurd hline (countP_eq_zero.mp hbefore line (mem_cons_self ..))
  · by_contra hne
    have hlast : after.getLast hne ∈ (renderBody ops).getLast? := by
      rw [hsplit, getLast?_append_of_ne_nil _ (append_ne_nil_of_right_ne_nil _ hne),
        getLast?_append_of_ne_nil _ hne]
      exact getLast?_eq_some_getLast hne
    exact absurd (counted_last hlines _ hlast)
      (countP_eq_zero.mp hafter _ (getLast_mem hne))

/-- **When a patch is read back.** -/
theorem patch_read_back_iff {ops : List PatchOperation} (hw : ∀ op ∈ ops, op.Writable) :
    parseV4aPatch scanPatch (renderPatch ops) = (ops, none) ↔
      (∀ op ∈ ops, op.Legible) ∧ Unmarked (renderBody ops) := by
  have hbody (hs : ∀ op ∈ ops, op.Sound) (hclean : Unmarked (renderBody ops)) :
      ((between [] (renderBody ops ++ ["*** End Patch".toList])).foldl Scan.step {}).saved =
        ops.map PatchOperation.reread := by
    rw [between_of_unmarked hclean [] (by decide) (by decide)]
    exact saved_foldl_body hw hs {}
  have hnewline (ht : ∀ op ∈ ops, op.Tidy) : ∀ line ∈ renderBody ops, '\n' ∉ line := by
    intro line hline
    obtain ⟨op, hop, hline⟩ := mem_flatMap.mp hline
    exact newline_not_mem_op (hw op hop) (ht op hop) line hline
  rw [parseV4aPatch_eq]
  constructor
  · rintro ⟨hread, herrors⟩
    have ht : ∀ op ∈ ops, op.Tidy := hread ▸ tidy_scanPatch (renderPatch ops)
    have hs : ∀ op ∈ ops, op.Sound := fun op hop =>
      sound_of_tidy (hw op hop) (ht op hop) (herrors op hop)
    rw [scanPatch_renderPatch (hnewline ht)] at hread
    have hclean := unmarked_of_read hw (fun op hop => (hs op hop).lines) hread
    rw [hbody hs hclean] at hread
    have hreread : ∀ op ∈ ops, op.reread = op := by
      rw [← map_id ops, map_map] at hread
      exact map_inj_left.mp hread
    refine ⟨fun op hop => ?_, hclean⟩
    exact ⟨(hs op hop).filePath, (hs op hop).newPath,
      (parseErrors_eq_nil.mp (herrors op hop)).2.1, (hs op hop).lines,
      (reread_eq_iff (hs op hop)).mp (hreread op hop)⟩
  · rintro ⟨hl, hclean⟩
    have ht : ∀ op ∈ ops, op.Tidy := fun op hop => tidy_of_legible (hl op hop)
    have herrors : ∀ op ∈ ops, op.parseErrors = [] := fun op hop =>
      parseErrors_of_legible (hw op hop) (hl op hop)
    have hs : ∀ op ∈ ops, op.Sound := fun op hop =>
      sound_of_tidy (hw op hop) (ht op hop) (herrors op hop)
    refine ⟨?_, herrors⟩
    rw [scanPatch_renderPatch (hnewline ht), hbody hs hclean]
    have hsame : ops.map PatchOperation.reread = ops.map id :=
      map_congr_left fun op hop => (reread_eq_iff (hs op hop)).mpr (hl op hop).hint
    rw [hsame, map_id]

def fourFiles : List PatchOperation :=
  [ { operation := .add, filePath := "notes.md"
      hunks := [{ lines := [⟨.added, "# Notes"⟩, ⟨.added, ""⟩, ⟨.added, "@@ - +"⟩] }] },
    { operation := .update, filePath := "src/a b.py"
      hunks := [{ contextHint := some "def run()"
                  lines := [⟨.context, "x"⟩, ⟨.removed, ""⟩] },
                { contextHint := some " ", lines := [⟨.added, "*** Add File: y"⟩] }] },
    { operation := .delete, filePath := "old.txt" },
    { operation := .move, filePath := "a -", newPath := some "> b" } ]

theorem writable_fourFiles : ∀ op ∈ fourFiles, op.Writable := by
  intro op hop
  simp only [fourFiles, mem_cons, not_mem_nil, or_false] at hop
  rcases hop with rfl | rfl | rfl | rfl <;>
    exact ⟨by decide, by decide, by decide⟩

theorem patch_read_back_fourFiles :
    parseV4aPatch scanPatch (renderPatch fourFiles) = (fourFiles, none) ↔
      (∀ op ∈ fourFiles, op.Legible) ∧ Unmarked (renderBody fourFiles) :=
  patch_read_back_iff writable_fourFiles

/-- A new file with an end marker in its first line, and a deletion behind it. -/
def endedFile : List PatchOperation :=
  [ { operation := .add, filePath := "a"
      hunks := [{ lines := [⟨.added, "*** End Patch"⟩, ⟨.added, "x"⟩] }] },
    { operation := .delete, filePath := "b" } ]

/-- An empty file is read, and the deletion is not. -/
theorem content_ends_patch :
    (∀ op ∈ endedFile, op.Writable) ∧
      parseV4aPatch scanPatch (renderPatch endedFile) =
        ([{ operation := .add, filePath := "a" }], none) ∧
      parseV4aPatch scanPatch (renderPatch endedFile) ≠ (endedFile, none) := by
  have hread : parseV4aPatch scanPatch (renderPatch endedFile) =
      ([{ operation := .add, filePath := "a" }], none) := by decide +kernel
  refine ⟨?_, hread, by rw [hread]; decide⟩
  intro op hop
  simp only [endedFile, mem_cons, not_mem_nil, or_false] at hop
  rcases hop with rfl | rfl <;> exact ⟨by decide, by decide, by decide⟩

end StackOwl.Tools
