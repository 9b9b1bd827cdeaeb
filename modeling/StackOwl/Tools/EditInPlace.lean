import StackOwl.Tools.LineEndings
import StackOwl.Tools.MatchedText
import StackOwl.Tools.UndoWrite

/-!
# Edits in place

What `EditTool.execute` (`tools/io/edit.py`) changes in a file with the matcher of
`tools/io/fuzzy_match.py`.  The content is translated to line feeds, the one match of a text
is replaced, and all of it is written with the line ending the file was found to have.  So
the file may change outside of the match, and the match may be wider than the text it was
asked for.

## Main results

* `edit_writes`, `edit_succeeds` — what a successful edit writes, and which edits succeed.
* `edit_in_place_iff` — when an edit changes the text it was asked for, and nothing else.
* `other_ending_rewritten` — the line ending of another line is rewritten.
-/

namespace StackOwl.Tools

open Lib Function

/-- `fuzzy_find_and_replace(..., replace_all=False)`. -/
def matcher (similarity : Similarity) (content oldNorm newNorm : List Char) : FuzzyResult :=
  fuzzyFindAndReplace similarity content oldNorm newNorm false

section
variable {ws : Workspace} {fuzzy : List Char → List Char → List Char → FuzzyResult}
  {token path oldString newString : String} {store : UndoStore} {files : Files}

theorem edit_writes {faults : EditFaults}
    (h : (edit ws fuzzy faults token path oldString newString store files).1.succeeded = true) :
    ∃ raw, files (ws.target path) = some (encode raw) ∧ oldString ≠ "" ∧
      let found := fuzzy (normalizeNewlines raw) (normalizeNewlines oldString.toList)
        (normalizeNewlines newString.toList)
      found.count ≠ 0 ∧
        (edit ws fuzzy faults token path oldString newString store files).2.2 =
          update files (ws.target path)
            (some (encode (withNewline (detectNewline raw) found.content))) := by
  simp only [edit] at h ⊢
  split at h
  · cases h
  split at h
  · cases h
  split at h
  · cases h
  rename_i hpath hold hinside
  rw [if_neg hpath, if_neg hold, if_neg hinside]
  split at h
  · cases h
  · cases h
  · cases h
  rename_i raw hread
  refine ⟨raw, encode_of_readText hread, hold, ?_⟩
  split at h
  · cases h
  rename_i hfound
  rw [if_neg hfound]
  refine ⟨fun hzero => hfound (.inr hzero), ?_⟩
  cases hsnapshot : faults.snapshot with
  | some error =>
    rw [hsnapshot] at h
    cases h
  | none =>
    rw [hsnapshot] at h
    cases hwrite : faults.write with
    | some fault =>
      rw [hwrite] at h
      cases fault <;> cases h
    | none =>
      rw [hwrite, writeText] at h
      rw [writeText]
      dsimp only at h ⊢
      split at h
      · cases h
      · cases h
      · split at h
        · split at h <;> cases h
        · rename_i hsame
          rw [if_neg hsame]

theorem readText_encode {text : List Char} (h : files path = some (encode text)) :
    readText files path none = .ok text := by
  simp [readText, h]

/-- Where no call fails, an edit whose matcher finds a text without carriage returns
succeeds: it reads back what it wrote. -/
theorem edit_succeeds {raw : List Char} (hpath : path ≠ "") (hold : oldString ≠ "")
    (hinside : ws.inside (ws.target path) = true)
    (hfile : files (ws.target path) = some (encode raw)) {content : List Char}
    {strategy : Option String}
    (hfound : fuzzy (normalizeNewlines raw) (normalizeNewlines oldString.toList)
      (normalizeNewlines newString.toList) = { content, count := 1, strategy })
    (hclean : '\r' ∉ content) :
    (edit ws fuzzy {} token path oldString newString store files).1.succeeded = true := by
  have hback := normalizeNewlines_withNewline (isNewline_detectNewline raw) hclean
  rw [edit]
  dsimp only
  rw [if_neg hpath, if_neg hold, if_neg (by simp [hinside]), readText_encode hfile]
  dsimp only
  rw [hfound, if_neg (by simp), writeText]
  dsimp only
  rw [readText_encode (update_self ..)]
  dsimp only
  rw [if_neg (not_not_intro hback)]
  rfl

end

variable {content newNorm : List Char} {similarity : Similarity}

theorem matcher_of_count {oldNorm : List Char}
    (h : (matcher similarity content oldNorm newNorm).count ≠ 0) :
    ∃ strategy region, locate similarity content oldNorm = some (strategy, [region]) ∧
      matcher similarity content oldNorm newNorm =
        { content := content.take region.1 ++ newNorm ++ content.drop region.2, count := 1
          strategy := some strategy.name } :=
  fuzzyFindAndReplace_of_success h

/-- What the matcher makes of a text without carriage returns has none. -/
theorem cr_not_mem_replaced {region : Nat × Nat} (hcontent : '\r' ∉ content)
    (hnew : '\r' ∉ newNorm) :
    '\r' ∉ content.take region.1 ++ newNorm ++ content.drop region.2 := by
  intro hmem
  rcases List.mem_append.mp hmem with hmem | hback
  · rcases List.mem_append.mp hmem with hfront | hmiddle
    · exact hcontent (List.mem_of_mem_take hfront)
    · exact hnew hmiddle
  · exact hcontent (List.mem_of_mem_drop hback)

theorem edit_of_match {ws : Workspace} {raw : List Char} {token path oldString newString : String}
    {store : UndoStore} {files : Files} (hpath : path ≠ "") (hold : oldString ≠ "")
    (hinside : ws.inside (ws.target path) = true)
    (hfile : files (ws.target path) = some (encode raw))
    (hfound : (matcher similarity (normalizeNewlines raw) (normalizeNewlines oldString.toList)
      (normalizeNewlines newString.toList)).count ≠ 0) :
    (edit ws (matcher similarity) {} token path oldString newString store files).1.succeeded =
      true := by
  obtain ⟨strategy, region, -, hresult⟩ := matcher_of_count hfound
  exact edit_succeeds hpath hold hinside hfile hresult
    (cr_not_mem_replaced (cr_not_mem_normalizeNewlines raw) (cr_not_mem_normalizeNewlines _))

/-- An edit that succeeds changes its match alone, and matched what it was asked for, exactly
where the rest of the file uses the one line ending and the edges of the match are clean. -/
theorem edit_in_place_iff (ws : Workspace) (similarity : Similarity) (faults : EditFaults)
    (token path oldString newString : String) (store : UndoStore) (files : Files)
    (h : (edit ws (matcher similarity) faults token path oldString newString store
      files).1.succeeded = true) :
    ∃ raw out strategy region front matched back,
      files (ws.target path) = some (encode raw) ∧
      (edit ws (matcher similarity) faults token path oldString newString store files).2.2 =
        update files (ws.target path) (some (encode out)) ∧
      locate similarity (normalizeNewlines raw) (normalizeNewlines oldString.toList) =
        some (strategy, [region]) ∧
      raw = front ++ matched ++ back ∧
      Cuts (normalizeNewlines raw) region (normalizeNewlines front) (normalizeNewlines matched)
        (normalizeNewlines back) ∧
      (out = front ++
            withNewline (detectNewline raw) (normalizeNewlines newString.toList) ++ back ∧
          SameUnder (normalizeNewlines raw) (normalizeNewlines oldString.toList)
            (normalizeNewlines matched) strategy ↔
        (UsesOnly (detectNewline raw) front ∧ UsesOnly (detectNewline raw) back) ∧
          CleanEdges (normalizeNewlines raw) (normalizeNewlines oldString.toList)
            (normalizeNewlines front) (normalizeNewlines matched) strategy) := by
  obtain ⟨raw, hfile, hold, hcount, hfiles⟩ := edit_writes h
  obtain ⟨strategy, region, hlocate, hresult⟩ := matcher_of_count hcount
  have hpattern : normalizeNewlines oldString.toList ≠ [] :=
    normalizeNewlines_ne_nil fun hnil => hold (String.toList_eq_nil_iff.mp hnil)
  have hregion : region ∈ strategy.regions similarity (normalizeNewlines raw)
      (normalizeNewlines oldString.toList) := by
    rw [(locate_eq_some hlocate).1]
    exact List.mem_singleton_self region
  obtain ⟨front', matched', back', hcuts, hsame⟩ := regions_cut hpattern hregion
  obtain ⟨through, back, hraw, hthrough, rfl⟩ := exists_split hcuts.text
  obtain ⟨front, matched, rfl, rfl, rfl⟩ := exists_split hthrough
  refine ⟨raw, _, strategy, region, front, matched, back, hfile, hfiles, hlocate, hraw, hcuts,
    ?_⟩
  rw [hresult, hcuts.take, hcuts.drop, withNewline_append, withNewline_append,
    restored_around_iff hraw, hsame]

def oneFile (text : List Char) : Files := fun path =>
  if path = "f" then some (encode text) else none

def plainWorkspace : Workspace := ⟨id, id, fun _ => true⟩

def noneSimilar : Similarity := ⟨fun _ _ _ => false, fun _ _ => false⟩

/-- A line of a file with one line ending, edited in place. -/
theorem edited_in_place :
    ∃ raw out strategy region front matched back,
      oneFile ['a', '\r', '\n', 'b', '\r', '\n'] "f" = some (encode raw) ∧
      (edit plainWorkspace (matcher noneSimilar) {} "t" "f" "b" "d" {}
          (oneFile ['a', '\r', '\n', 'b', '\r', '\n'])).2.2 =
        update (oneFile ['a', '\r', '\n', 'b', '\r', '\n']) "f" (some (encode out)) ∧
      locate noneSimilar (normalizeNewlines raw) (normalizeNewlines "b".toList) =
        some (strategy, [region]) ∧
      raw = front ++ matched ++ back ∧
      Cuts (normalizeNewlines raw) region (normalizeNewlines front) (normalizeNewlines matched)
        (normalizeNewlines back) ∧
      (out = front ++ withNewline (detectNewline raw) (normalizeNewlines "d".toList) ++ back ∧
          SameUnder (normalizeNewlines raw) (normalizeNewlines "b".toList)
            (normalizeNewlines matched) strategy ↔
        (UsesOnly (detectNewline raw) front ∧ UsesOnly (detectNewline raw) back) ∧
          CleanEdges (normalizeNewlines raw) (normalizeNewlines "b".toList)
            (normalizeNewlines front) (normalizeNewlines matched) strategy) :=
  edit_in_place_iff plainWorkspace noneSimilar {} "t" "f" "b" "d" {} _
    (edit_of_match (by decide) (by decide) rfl (if_pos rfl) (by decide))

/-- One carriage return and line feed in a file makes it the line ending of every line. -/
theorem other_ending_rewritten :
    ¬ ∀ (ws : Workspace) (similarity : Similarity) (faults : EditFaults)
      (token path oldString newString : String) (store : UndoStore) (files : Files),
      (edit ws (matcher similarity) faults token path oldString newString store
          files).1.succeeded = true →
        ∃ raw out strategy region front matched back,
          files (ws.target path) = some (encode raw) ∧
          (edit ws (matcher similarity) faults token path oldString newString store files).2.2 =
            update files (ws.target path) (some (encode out)) ∧
          locate similarity (normalizeNewlines raw)
            (normalizeNewlines oldString.toList) = some (strategy, [region]) ∧
          raw = front ++ matched ++ back ∧
          out = front ++
            withNewline (detectNewline raw) (normalizeNewlines newString.toList) ++ back ∧
          SameUnder (normalizeNewlines raw) (normalizeNewlines oldString.toList)
            (normalizeNewlines matched) strategy := by
  intro h
  let mixed : List Char := ['a', '\r', '\n', 'b', '\n', 'c']
  have hsuccess : (edit plainWorkspace (matcher noneSimilar) {} "t" "f" "b" "d" {}
      (oneFile mixed)).1.succeeded = true :=
    edit_of_match (by decide) (by decide) rfl (if_pos rfl) (by decide)
  have hlocate : locate noneSimilar (normalizeNewlines mixed)
      (normalizeNewlines "b".toList) = some (.exact, [(2, 3)]) := by decide
  obtain ⟨raw, hraw, -, hcount, hfiles⟩ := edit_writes hsuccess
  obtain ⟨raw', out, strategy, region, front, matched, back, hraw', hfiles', hlocate', hparts,
    hout, hsame⟩ := h plainWorkspace noneSimilar {} "t" "f" "b" "d" {} (oneFile mixed) hsuccess
  obtain rfl : mixed = raw := encode_inj.mp (Option.some.inj hraw)
  obtain rfl : mixed = raw' := encode_inj.mp (Option.some.inj hraw')
  rw [hlocate] at hlocate'
  obtain ⟨rfl, -⟩ := Prod.mk.inj (Option.some.inj hlocate')
  obtain ⟨strategy, region', hfound, hresult⟩ := matcher_of_count hcount
  rw [hlocate] at hfound
  obtain ⟨-, hregion⟩ := Prod.mk.inj (Option.some.inj hfound)
  obtain rfl : (2, 3) = region' := List.singleton_inj.mp hregion
  have hwritten : ['a', '\r', '\n', 'd', '\r', '\n', 'c'] = out := by
    have hheld := congrFun (hfiles.symm.trans hfiles') (plainWorkspace.target "f")
    rw [hresult, update_self, update_self] at hheld
    have hcontent : withNewline (detectNewline mixed) ((normalizeNewlines mixed).take 2 ++
        normalizeNewlines "d".toList ++ (normalizeNewlines mixed).drop 3) =
        ['a', '\r', '\n', 'd', '\r', '\n', 'c'] := by decide
    exact hcontent.symm.trans (encode_inj.mp (Option.some.inj hheld))
  -- the file grew by one character, which is all the match is replaced with
  have hbefore := congrArg List.length hparts
  have hafter := congrArg List.length (hwritten.trans hout)
  have hnew : (withNewline (detectNewline mixed) (normalizeNewlines "d".toList)).length = 1 := by
    decide
  rw [List.length_append, List.length_append] at hbefore hafter
  rw [hnew] at hafter
  have hold : mixed.length = 6 := rfl
  have hgrown : ['a', '\r', '\n', 'd', '\r', '\n', 'c'].length = 7 := rfl
  obtain rfl : matched = [] := List.length_eq_zero_iff.mp (by omega)
  have hb : normalizeNewlines [] = normalizeNewlines "b".toList := hsame
  exact absurd hb (by decide)

end StackOwl.Tools
