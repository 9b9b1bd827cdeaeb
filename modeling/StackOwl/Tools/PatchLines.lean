import StackOwl.Tools.PatchParser

/-!
# The lines of a patch, one by one

What the line machine does with each line that a written patch has: a header opens an operation,
a mark a hunk, and any other line is put at the end of the hunk.

## Main results

* `fileHeader_fileLine`, `moveHeader_fileLine` — a header gives its paths back.
* `contextHint_render` — the hint that is read from a mark, whatever blanks the hint has.
* `saved_foldl_body` — the operations that are read from the lines of a patch.
-/

namespace StackOwl.Tools

open Lib Durable Memory List Option

/-! ## Blanks -/

theorem exists_strip (text : List Char) :
    ∃ before after, text = before ++ (strip text ++ after) ∧
      (∀ c ∈ before, isSpace c = true) ∧ ∀ c ∈ after, isSpace c = true := by
  let inner := text.dropWhile isSpace
  refine ⟨text.takeWhile isSpace, (inner.reverse.takeWhile isSpace).reverse, ?_,
    fun c hc => mem_takeWhile_imp hc,
    fun c hc => mem_takeWhile_imp (mem_reverse.mp hc)⟩
  have hinner : strip text ++ (inner.reverse.takeWhile isSpace).reverse = inner := by
    show (inner.reverse.dropWhile isSpace).reverse ++ _ = inner
    rw [← reverse_append, takeWhile_append_dropWhile, reverse_reverse]
  rw [hinner, takeWhile_append_dropWhile]

/-- A name as a header holds it: one line, not empty, with no blank at its ends. -/
def Plain (text : List Char) : Prop := text ≠ [] ∧ strip text = text ∧ '\n' ∉ text

instance (text : List Char) : Decidable (Plain text) :=
  inferInstanceAs (Decidable (_ ∧ _ ∧ _))

section
variable {text : List Char}

theorem Plain.head (h : Plain text) : ∀ c ∈ text.head?, isSpace c = false := by
  intro c hc
  obtain ⟨rest, hrest⟩ := head?_eq_some_iff.mp hc
  exact head_strip (h.2.1.trans hrest)

theorem Plain.last (h : Plain text) : ∀ c ∈ text.getLast?, isSpace c = false := by
  have hne : strip text ≠ [] := h.2.1.symm ▸ h.1
  have hlast := last_strip hne
  simp only [h.2.1] at hlast
  intro c hc
  rw [getLast?_eq_some_getLast h.1] at hc
  rwa [← some.inj hc]

theorem Plain.line (h : Plain text) : ∀ c ∈ text, notNewline c = true := by
  intro c hc
  refine decide_eq_true fun heq => h.2.2 ?_
  rwa [← heq]

end

/-! ## Headers -/

variable {prev : Option Char} {items : List (Item Char)} {t : List Char}

/-- A text without the delimiter, in front of a blank, is not left before its end. -/
theorem matchItems_gap_eq_none {x y : Char} {text : List Char} (hy : isSpace y = false)
    (ht : ∀ c ∈ t.head?, isSpace c = true) (hlast : ∀ d ∈ text.getLast?, isSpace d = false)
    (hfree : ¬[x, y] <:+: text) {a b : List Char} (happend : a ++ b = text) (hb : b ≠ []) :
    matchItems (.many isSpace 0 none true :: (literal [x, y] ++ items)) prev (b ++ t) =
      none := by
  refine matchItems_cons_eq_none.mpr fun cut hcut => ?_
  have hrun : cut ∈ manyCuts isSpace 0 none true (b ++ t) := hcut
  obtain ⟨hsplit, hspaces, _⟩ := mem_manyCuts.mp hrun
  have hend : isSpace (b.getLast hb) = false :=
    hlast _ (happend ▸ getLast?_append_of_ne_nil a hb ▸ getLast?_eq_some_getLast hb)
  obtain ⟨tail, hwhole, hremains⟩ : ∃ tail, b = cut.1 ++ tail ∧ cut.2 = tail ++ t := by
    rcases append_eq_append_iff.mp hsplit with ⟨tail, hb, hrest⟩ | ⟨tail, hcut1, _⟩
    · exact ⟨tail, hb, hrest⟩
    · have hspace := hspaces _ (hcut1 ▸ mem_append_left tail (getLast_mem hb))
      rw [hend] at hspace
      cases hspace
  have htail : tail ≠ [] := by
    rintro rfl
    rw [append_nil] at hwhole
    have hmem := Eq.mp (congrArg (b.getLast hb ∈ ·) hwhole) (getLast_mem hb)
    have hspace := hspaces _ hmem
    rw [hend] at hspace
    cases hspace
  by_contra hsome
  obtain ⟨found, hfound⟩ := ne_none_iff_exists'.mp hsome
  have hprefix := prefix_of_matchItems_literal hfound
  rw [hremains] at hprefix
  match tail, htail with
  | [d], _ =>
    obtain ⟨rest, rfl⟩ := (cons_prefix_cons.mp hprefix).2
    have hspace := ht y rfl
    rw [hy] at hspace
    cases hspace
  | d :: e :: tail, _ =>
    have hdelimiter := cons_prefix_cons.mp hprefix
    have hsecond := cons_prefix_cons.mp hdelimiter.2
    refine hfree ⟨a ++ cut.1, tail, ?_⟩
    rw [← happend, hwhole, hdelimiter.1, hsecond.1, append_assoc, append_assoc]
    rfl

theorem captures_name {path : List Char} (h : Plain path) :
    captures [.many isSpace 0 none true, .group notNewline true] prev (' ' :: path) =
      some [path] :=
  captures_many_whole (x := [' ']) (all_eq_true.mp rfl) (Nat.zero_le _) h.head
    (captures_group_all h.1 h.line)

variable {c : Char}

theorem captures_blank {least : Nat} {groups : List (List Char)} (hleast : least ≤ 1)
    (hc : isSpace c = false) (h : captures items (some ' ') (c :: t) = some groups) :
    captures (.many isSpace least none true :: items) prev (' ' :: c :: t) = some groups :=
  captures_many_whole (x := [' ']) (all_eq_true.mp rfl) hleast
    (fun d hd => by rwa [← some.inj hd]) h

theorem fileHeader_fileLine (word : String) {path : String} (hne : word.toList ≠ [])
    (hword : ∀ c ∈ word.toList.head?, isSpace c = false) (h : Plain path.toList) :
    fileHeader word (fileLine word path) = some path := by
  have hcaptures : captures (fileHeaderPattern word) none (fileLine word path) =
      some [path.toList] := by
    show captures (literal ['*', '*', '*'] ++ _) _ (['*', '*', '*'] ++ ([' '] ++ _)) = _
    rw [captures_literal]
    refine captures_many_whole (x := [' ']) (all_eq_true.mp rfl) (Nat.zero_le _) ?_ ?_
    · rwa [head?_append_of_ne_nil _ hne]
    rw [captures_literal]
    refine captures_blank (Nat.le_refl 1) rfl ?_
    show captures (literal ['F', 'i', 'l', 'e', ':'] ++ _) _ (['F', 'i', 'l', 'e', ':'] ++ _) = _
    rw [captures_literal]
    exact captures_name h
  rw [fileHeader, hcaptures]
  show some (String.ofList (strip path.toList)) = _
  rw [h.2.1, String.ofList_toList]

theorem moveHeader_fileLine {src dst : String} (hsrc : Plain src.toList)
    (hdst : Plain dst.toList) (hfree : ¬['-', '>'] <:+: src.toList) :
    moveHeader (fileLine "Move" (src ++ " -> " ++ dst)) = some (src, dst) := by
  have htext : (src ++ " -> " ++ dst).toList = src.toList ++ (' ' :: '-' :: '>' :: ' ' ::
      dst.toList) := by
    rw [String.toList_append, String.toList_append, append_assoc]
    rfl
  have hcaptures : captures moveHeaderPattern none (fileLine "Move" (src ++ " -> " ++ dst)) =
      some [src.toList, dst.toList] := by
    rw [fileLine, htext]
    show captures (literal ['*', '*', '*'] ++ _) _ (['*', '*', '*'] ++ _) = _
    rw [captures_literal]
    refine captures_blank (Nat.zero_le _) rfl ?_
    show captures (literal ['M', 'o', 'v', 'e'] ++ _) _ (['M', 'o', 'v', 'e'] ++ _) = _
    rw [captures_literal]
    refine captures_blank (Nat.le_refl 1) rfl ?_
    show captures (literal ['F', 'i', 'l', 'e', ':'] ++ _) _ (['F', 'i', 'l', 'e', ':'] ++ _) = _
    rw [captures_literal]
    have hhead : ∀ c ∈ (src.toList ++ (' ' :: '-' :: '>' :: ' ' :: dst.toList)).head?,
        isSpace c = false := by
      rw [head?_append_of_ne_nil _ hsrc.1]
      exact hsrc.head
    have hblank : ∀ c ∈ (' ' :: '-' :: '>' :: ' ' :: dst.toList).head?, isSpace c = true := by
      intro c hc
      obtain rfl : ' ' = c := some.inj hc
      rfl
    refine captures_many_whole (x := [' ']) (all_eq_true.mp rfl) (Nat.zero_le _) hhead ?_
    refine captures_group_first hsrc.1 hsrc.line ?_ fun a b happend _ hb =>
      matchItems_gap_eq_none rfl hblank hsrc.last hfree happend hb
    refine captures_blank (Nat.zero_le _) rfl ?_
    show captures (literal ['-', '>'] ++ _) _ (['-', '>'] ++ _) = _
    rw [captures_literal]
    exact captures_name hdst
  rw [moveHeader, hcaptures]
  show some (String.ofList (strip src.toList), String.ofList (strip dst.toList)) = _
  rw [hsrc.2.1, hdst.2.1, String.ofList_toList, String.ofList_toList]

/-- The hint that is read from a line with `hint` between the marks. -/
def hintRead (hint : List Char) : List Char :=
  if hint.all isSpace then [' '] else strip hint

variable {hint : List Char}

/-- Of a hint of blanks the last one but the mark's own is taken. -/
theorem captures_blankHint (hblank : ∀ c ∈ hint, isSpace c = true) :
    captures (.many isSpace 0 none true :: .group notNewline false :: .many isSpace 0 none true ::
      literal ['@', '@']) prev (' ' :: (hint ++ [' ', '@', '@'])) = some [[' ']] := by
  have hblanks : ∀ c ∈ ' ' :: hint, isSpace c = true := by
    intro c hc
    rcases mem_cons.mp hc with rfl | hc
    · rfl
    · exact hblank c hc
  have hlast : captures (.group notNewline false :: .many isSpace 0 none true ::
      literal ['@', '@']) (lastOr prev (' ' :: hint)) [' ', '@', '@'] = some [[' ']] := rfl
  rw [← cons_append]
  refine captures_many hblanks (Nat.zero_le _) hlast ?_
  intro a b happend hspaces _ hlonger
  rw [if_pos rfl] at hlonger
  obtain ⟨more, rfl, hmore⟩ :
      ∃ more, a = ' ' :: hint ++ more ∧ [' ', '@', '@'] = more ++ b := by
    rcases append_eq_append_iff.mp happend with ⟨more, hmore, _⟩ | hlater
    · rw [hmore, length_append] at hlonger
      omega
    · exact hlater
  match more with
  | [] =>
    rw [append_nil] at hlonger
    omega
  | [c] =>
    obtain rfl : ['@', '@'] = b := (cons.inj hmore).2
    rfl
  | c :: d :: more =>
    have hmark : '@' = d := (cons.inj (cons.inj hmore).2).1
    have hspace := hspaces d (mem_append_right _ (mem_cons_of_mem c (mem_cons_self ..)))
    rw [← hmark] at hspace
    cases hspace

theorem contextHint_render (hfree : ¬['@', '@'] <:+: hint) (hline : '\n' ∉ hint) :
    contextHint (['@', '@', ' '] ++ (hint ++ [' ', '@', '@'])) =
      some (String.ofList (hintRead hint)) := by
  have hcaptures : captures hintPattern none (['@', '@'] ++ (' ' :: (hint ++ [' ', '@', '@']))) =
      some [hintRead hint] := by
    rw [hintPattern, captures_literal, hintRead]
    split
    · rename_i hblank
      exact captures_blankHint (all_eq_true.mp hblank)
    · rename_i hblank
      obtain ⟨before, after, htext, hbefore, hafter⟩ := exists_strip hint
      have hne : strip hint ≠ [] := by
        intro hnil
        refine hblank (all_eq_true.mpr fun c hc => ?_)
        rw [htext, hnil] at hc
        exact (mem_append.mp hc).elim (hbefore c) (hafter c)
      have hplain : Plain (strip hint) :=
        ⟨hne, strip_strip hint, fun hmem => hline ((strip_sublist hint).subset hmem)⟩
      have hinner : ¬['@', '@'] <:+: strip hint := by
        intro hinside
        refine hfree (hinside.trans ?_)
        exact ⟨before, after, by rw [append_assoc, ← htext]⟩
      have hclose (last : Option Char) :
          captures (.many isSpace 0 none true :: literal ['@', '@']) last
          (after ++ [' ', '@', '@']) = some [] := by
        have hblanks : ∀ c ∈ after ++ [' '], isSpace c = true := by
          intro c hc
          rcases mem_snoc.mp hc with hc | hc
          · exact hafter c hc
          · exact hc ▸ rfl
        have hmarks : captures (.many isSpace 0 none true :: literal ['@', '@']) last
            ((after ++ [' ']) ++ ['@', '@']) = some [] :=
          captures_many_whole hblanks (Nat.zero_le _)
            (by rintro c ⟨⟩; rfl) rfl
        rwa [append_assoc] at hmarks
      have hopen : ∀ c ∈ (after ++ [' ', '@', '@']).head?, isSpace c = true := by
        cases after with
        | nil =>
          rintro c ⟨⟩
          rfl
        | cons d after => exact fun c hc => hafter c (some.inj hc ▸ mem_cons_self ..)
      have hgap (last : Option Char) (a b : List Char) (happend : a ++ b = strip hint)
          (hb : b ≠ []) : matchItems (.many isSpace 0 none true :: (literal ['@', '@'] ++ []))
            last (b ++ (after ++ [' ', '@', '@'])) = none :=
        matchItems_gap_eq_none rfl hopen hplain.last hinner happend hb
      have hgroup (last : Option Char) : captures (.group notNewline false :: _) last _ = _ :=
        captures_group_first hne hplain.line (hclose _) fun a b happend _ hb =>
          hgap _ a b happend hb
      have hhead : ∀ c ∈ (strip hint ++ (after ++ [' ', '@', '@'])).head?,
          isSpace c = false := by
        rw [head?_append_of_ne_nil _ hne]
        exact hplain.head
      have hblanks : ∀ c ∈ ' ' :: before, isSpace c = true := by
        intro c hc
        rcases mem_cons.mp hc with rfl | hc
        · rfl
        · exact hbefore c hc
      have hsplit : ' ' :: (hint ++ [' ', '@', '@']) =
          ' ' :: before ++ (strip hint ++ (after ++ [' ', '@', '@'])) := by
        rw [cons_append, ← append_assoc (strip hint), ← append_assoc before, ← htext]
      rw [hsplit]
      exact captures_many_whole hblanks (Nat.zero_le _) hhead (hgroup _)
  have hsame : ['@', '@', ' '] ++ (hint ++ [' ', '@', '@']) =
      ['@', '@'] ++ (' ' :: (hint ++ [' ', '@', '@'])) := rfl
  rw [contextHint, hsame, hcaptures]

/-! ## One line -/

section
variable (s : Scan) {path : String}

theorem step_update (h : Plain path.toList) :
    s.step (fileLine "Update" path) =
      { operations := s.saved
        currentOp := some { operation := .update, filePath := path } } := by
  have hread := fileHeader_fileLine "Update" (by decide) (by rintro c ⟨⟩; rfl) h
  unfold Scan.step
  rw [hread]

theorem step_add (h : Plain path.toList) :
    s.step (fileLine "Add" path) =
      { operations := s.saved
        currentOp := some { operation := .add, filePath := path }
        currentHunk := some {} } := by
  have hupdate : fileHeader "Update" (fileLine "Add" path) = none := rfl
  have hread := fileHeader_fileLine "Add" (by decide) (by rintro c ⟨⟩; rfl) h
  unfold Scan.step
  rw [hupdate, hread]

theorem step_delete (h : Plain path.toList) :
    s.step (fileLine "Delete" path) =
      { operations := s.saved ++ [{ operation := .delete, filePath := path }] } := by
  have hupdate : fileHeader "Update" (fileLine "Delete" path) = none := rfl
  have hadd : fileHeader "Add" (fileLine "Delete" path) = none := rfl
  have hread := fileHeader_fileLine "Delete" (by decide) (by rintro c ⟨⟩; rfl) h
  unfold Scan.step
  rw [hupdate, hadd, hread]

theorem step_move {dst : String} (h : Plain path.toList) (hdst : Plain dst.toList)
    (hfree : ¬['-', '>'] <:+: path.toList) :
    s.step (fileLine "Move" (path ++ " -> " ++ dst)) =
      { operations := s.saved ++
          [{ operation := .move, filePath := path, newPath := some dst }] } := by
  have hupdate : fileHeader "Update" (fileLine "Move" (path ++ " -> " ++ dst)) = none := rfl
  have hadd : fileHeader "Add" (fileLine "Move" (path ++ " -> " ++ dst)) = none := rfl
  have hdelete : fileHeader "Delete" (fileLine "Move" (path ++ " -> " ++ dst)) = none := rfl
  unfold Scan.step
  rw [hupdate, hadd, hdelete, moveHeader_fileLine h hdst hfree]

end

theorem fileHeader_eq_none (hc : c ≠ '*') (word : String) (rest : List Char) :
    fileHeader word (c :: rest) = none := by
  have hnone : captures (fileHeaderPattern word) none (c :: rest) = none :=
    map_eq_none_iff.mpr (matchItems_one_of_not (decide_eq_false hc))
  rw [fileHeader, hnone]

theorem moveHeader_eq_none (hc : c ≠ '*') (rest : List Char) :
    moveHeader (c :: rest) = none := by
  have hnone : captures moveHeaderPattern none (c :: rest) = none :=
    map_eq_none_iff.mpr (matchItems_one_of_not (decide_eq_false hc))
  rw [moveHeader, hnone]

theorem step_eq (hc : c ≠ '*') (s : Scan) (rest : List Char) :
    s.step (c :: rest) =
      if ['@', '@'] <+: c :: rest then s.openHunk (c :: rest) else s.addLine (c :: rest) := by
  unfold Scan.step
  rw [fileHeader_eq_none hc, fileHeader_eq_none hc, fileHeader_eq_none hc, moveHeader_eq_none hc]

theorem step_hunkLine (operations : List PatchOperation) (op : PatchOperation) (hunk : Hunk)
    (line : HunkLine) :
    Scan.step ⟨operations, some op, some hunk⟩ line.render =
      ⟨operations, some op, some { hunk with lines := hunk.lines ++ [line] }⟩ := by
  have hmark : line.mark.char ≠ '*' ∧ line.mark.char ≠ '@' := by
    cases line.mark <;> decide
  have hprefix : ¬['@', '@'] <+: line.mark.char :: line.content.toList :=
    fun h => hmark.2 (cons_prefix_cons.mp h).1.symm
  have hread : hunk.readLine line.mark.char line.content.toList =
      { hunk with lines := hunk.lines ++ [line] } := by
    obtain ⟨mark, content⟩ := line
    cases mark <;> simp [Hunk.readLine, LineMark.char]
  rw [HunkLine.render, step_eq hmark.1, if_neg hprefix]
  show Scan.mk operations (some op)
    (some (hunk.readLine line.mark.char line.content.toList)) = _
  rw [hread]

theorem foldl_hunkLines (operations : List PatchOperation) (op : PatchOperation) (hunk : Hunk)
    (lines : List HunkLine) :
    (lines.map HunkLine.render).foldl Scan.step ⟨operations, some op, some hunk⟩ =
      ⟨operations, some op, some { hunk with lines := hunk.lines ++ lines }⟩ := by
  induction lines generalizing hunk with
  | nil => rw [map_nil, foldl_nil, append_nil]
  | cons line lines ih =>
    rw [map_cons, foldl_cons, step_hunkLine, ih, append_assoc]
    rfl

/-! ## A patch -/

def Hunk.reread (hunk : Hunk) : Hunk :=
  { hunk with contextHint :=
      hunk.contextHint.map fun hint => String.ofList (hintRead hint.toList) }

def PatchOperation.reread (op : PatchOperation) : PatchOperation :=
  { op with hunks := op.hunks.map Hunk.reread }

theorem contextHint_renderHint {hint : Option String}
    (h : ∀ text ∈ hint, ¬['@', '@'] <:+: text.toList ∧ '\n' ∉ text.toList) :
    contextHint (renderHint hint) =
      hint.map fun text => String.ofList (hintRead text.toList) := by
  cases hint with
  | none => rfl
  | some text => exact contextHint_render (h text rfl).1 (h text rfl).2

/-- A hunk is read after what stands before it is put away. -/
theorem foldl_hunk {hunk : Hunk}
    (h : ∀ text ∈ hunk.contextHint, ¬['@', '@'] <:+: text.toList ∧ '\n' ∉ text.toList)
    (operations : List PatchOperation) (op : PatchOperation) (current : Option Hunk) :
    hunk.render.foldl Scan.step ⟨operations, some op, current⟩ =
      ⟨operations, some (op.withHunk current), some hunk.reread⟩ := by
  have hmark : Scan.step ⟨operations, some op, current⟩ (renderHint hunk.contextHint) =
      ⟨operations, some (op.withHunk current),
        some { contextHint := contextHint (renderHint hunk.contextHint) }⟩ := by
    obtain ⟨rest, hrest⟩ : ∃ rest, renderHint hunk.contextHint = '@' :: '@' :: rest := by
      cases hunk.contextHint with
      | none => exact ⟨[], rfl⟩
      | some text => exact ⟨_, rfl⟩
    have hprefix : ['@', '@'] <+: '@' :: '@' :: rest := prefix_append ['@', '@'] rest
    rw [hrest, step_eq (by decide), if_pos hprefix]
    rfl
  rw [Hunk.render, foldl_cons, hmark, foldl_hunkLines, contextHint_renderHint h]
  rfl

theorem withHunk_some (op : PatchOperation) (hunk : Hunk) (h : hunk.lines ≠ []) :
    op.withHunk (some hunk) = { op with hunks := op.hunks ++ [hunk] } := if_neg h

theorem saved_foldl_hunks {hunks : List Hunk}
    (h : ∀ hunk ∈ hunks, hunk.lines ≠ [] ∧
      ∀ text ∈ hunk.contextHint, ¬['@', '@'] <:+: text.toList ∧ '\n' ∉ text.toList)
    (operations : List PatchOperation) (op : PatchOperation) (current : Option Hunk) :
    ((hunks.flatMap Hunk.render).foldl Scan.step ⟨operations, some op, current⟩).saved =
      operations ++ [{ op.withHunk current with
        hunks := (op.withHunk current).hunks ++ hunks.map Hunk.reread }] := by
  induction hunks generalizing op current with
  | nil =>
    rw [map_nil, append_nil]
    rfl
  | cons hunk hunks ih =>
    have hhunk := h hunk (mem_cons_self ..)
    have hrest := ih fun other hother => h other (mem_cons_of_mem hunk hother)
    rw [flatMap_cons, foldl_append, foldl_hunk hhunk.2, hrest,
      withHunk_some _ hunk.reread hhunk.1, map_cons, append_assoc]
    rfl

/-- An operation as a patch can say it: the lines of its hunks are lines, no hint has the mark in
it, and of two paths neither has the arrow in it. -/
structure PatchOperation.Writable (op : PatchOperation) : Prop where
  shape : match op.operation with
    | .add => op.newPath = none ∧ op.hunks.length ≤ 1 ∧ ∀ hunk ∈ op.hunks,
        hunk.contextHint = none ∧ hunk.lines ≠ [] ∧
          ∀ line ∈ hunk.lines, line.mark = .added
    | .update => op.newPath = none
    | .delete => op.newPath = none ∧ op.hunks = []
    | .move => op.newPath.isSome = true ∧ op.hunks = [] ∧
        ∀ path ∈ op.paths, ¬['-', '>'] <:+: path.toList
  content : ∀ hunk ∈ op.hunks, ∀ line ∈ hunk.lines, '\n' ∉ line.content.toList
  hint : ∀ hunk ∈ op.hunks, ∀ hint ∈ hunk.contextHint, ¬['@', '@'] <:+: hint.toList

/-- What of an operation is read as it was written, but for its hints. -/
structure PatchOperation.Sound (op : PatchOperation) : Prop where
  filePath : Plain op.filePath.toList
  newPath : ∀ path ∈ op.newPath, Plain path.toList
  lines : ∀ hunk ∈ op.hunks, hunk.lines ≠ []
  hint : ∀ hunk ∈ op.hunks, ∀ hint ∈ hunk.contextHint, '\n' ∉ hint.toList

theorem saved_foldl_op {op : PatchOperation} (hw : op.Writable) (hs : op.Sound) (s : Scan) :
    (op.render.foldl Scan.step s).saved = s.saved ++ [op.reread] := by
  have hshape := hw.shape
  obtain ⟨operation, filePath, newPath, hunks⟩ := op
  cases operation with
  | update =>
    obtain rfl : newPath = none := hshape
    show ((hunks.flatMap Hunk.render).foldl Scan.step (s.step (fileLine "Update" filePath))).saved
      = _
    rw [step_update s hs.filePath, saved_foldl_hunks fun hunk hhunk =>
      ⟨hs.lines hunk hhunk, fun hint hhint => ⟨hw.hint hunk hhunk hint hhint,
        hs.hint hunk hhunk hint hhint⟩⟩]
    rfl
  | add =>
    obtain ⟨hnew, hone, hhunks⟩ := hshape
    obtain rfl : newPath = none := hnew
    show ((hunks.flatMap (·.lines.map HunkLine.render)).foldl Scan.step
      (s.step (fileLine "Add" filePath))).saved = _
    rw [step_add s hs.filePath]
    match hunks, hone, hhunks with
    | [], _, _ => rfl
    | [hunk], _, hhunks =>
      obtain ⟨hhint, hlines, _⟩ := hhunks hunk (mem_cons_self ..)
      obtain ⟨contextHint, lines⟩ := hunk
      obtain rfl : contextHint = none := hhint
      rw [flatMap_singleton, foldl_hunkLines]
      show s.saved ++ [PatchOperation.withHunk _ (some ⟨none, lines⟩)] = _
      rw [withHunk_some _ ⟨none, lines⟩ hlines]
      rfl
  | delete =>
    obtain ⟨hnew, hhunks⟩ := hshape
    obtain rfl : newPath = none := hnew
    obtain rfl : hunks = [] := hhunks
    show (s.step (fileLine "Delete" filePath)).saved = _
    rw [step_delete s hs.filePath]
    rfl
  | move =>
    obtain ⟨hsome, hhunks, hfree⟩ := hshape
    obtain ⟨dst, hdst⟩ := isSome_iff_exists.mp hsome
    obtain rfl : newPath = some dst := hdst
    obtain rfl : hunks = [] := hhunks
    show (s.step (fileLine "Move" (filePath ++ " -> " ++ dst))).saved = _
    rw [step_move s hs.filePath (hs.newPath dst rfl) (hfree filePath (mem_cons_self ..))]
    rfl

/-- **The operations that are read from the lines of a patch.** -/
theorem saved_foldl_body {ops : List PatchOperation} (hw : ∀ op ∈ ops, op.Writable)
    (hs : ∀ op ∈ ops, op.Sound) (s : Scan) :
    ((renderBody ops).foldl Scan.step s).saved = s.saved ++ ops.map PatchOperation.reread := by
  induction ops generalizing s with
  | nil => exact (append_nil _).symm
  | cons op ops ih =>
    have hrest := ih (fun other h => hw other (mem_cons_of_mem op h))
      fun other h => hs other (mem_cons_of_mem op h)
    rw [renderBody, flatMap_cons, foldl_append, ← renderBody, hrest,
      saved_foldl_op (hw op (mem_cons_self ..)) (hs op (mem_cons_self ..)),
      map_cons, append_assoc, singleton_append]

end StackOwl.Tools
