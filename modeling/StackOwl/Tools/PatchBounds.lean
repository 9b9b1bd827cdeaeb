import StackOwl.Tools.PatchLines

/-!
# Where a patch begins and ends

The markers are looked for inside every line, the content of a file included.  A line with a
begin marker drops the lines before it, one with an end marker the lines behind it; and since no
line is worth more than one line of what is read, what is dropped is missing.

## Main results

* `patchLines_eq`, `between_cut` — the lines between the markers, cut out of those that are there.
* `weight_saved_foldl` — what is read has no more headers and lines of hunks than there are lines.
* `counted_head`, `counted_last` — a patch starts and ends with a line that counts.
-/

namespace StackOwl.Tools

open Lib Durable Memory List

/-! ## The markers -/

/-- The lines behind the last begin marker, up to the first end marker. -/
def between : List (List Char) → List (List Char) → List (List Char)
  | kept, [] => kept
  | kept, line :: lines =>
    if hasBegin line then between [] lines
    else if hasEnd line then kept
    else between (kept ++ [line]) lines

theorem findMarkers_between (before lines : List (List Char)) (start : Option Nat)
    (hstart : start.elim 0 (· + 1) ≤ before.length) :
    ((before ++ lines).take ((findMarkers before.length lines start).2.getD
        (before ++ lines).length)).drop
      ((findMarkers before.length lines start).1.elim 0 (· + 1)) =
      between (before.drop (start.elim 0 (· + 1))) lines := by
  induction lines generalizing before start with
  | nil => simp [findMarkers, between]
  | cons line lines ih =>
    have hbefore : before ++ line :: lines = before ++ [line] ++ lines := by simp
    have hlength : before.length + 1 = (before ++ [line]).length := by simp
    rw [findMarkers, between]
    by_cases hbegin : hasBegin line = true
    · have hnext := ih (before ++ [line]) (some before.length) (by simp)
      rw [if_pos hbegin, if_pos hbegin, hbefore, hlength, hnext]
      simp
    · rw [if_neg hbegin, if_neg hbegin]
      by_cases hend : hasEnd line = true
      · rw [if_pos hend, if_pos hend]
        simp
      · have hnext := ih (before ++ [line]) start (by rw [← hlength]; omega)
        rw [if_neg hend, if_neg hend, hbefore, hlength, hnext,
          drop_append_of_le_length hstart]

theorem patchLines_eq (lines : List (List Char)) : patchLines lines = between [] lines :=
  findMarkers_between [] lines none (Nat.zero_le _)

def Unmarked (lines : List (List Char)) : Prop :=
  ∀ line ∈ lines, hasBegin line = false ∧ hasEnd line = false

variable {lines : List (List Char)}

theorem between_of_unmarked (h : Unmarked lines) (kept : List (List Char)) {last : List Char}
    (hbegin : hasBegin last = false) (hend : hasEnd last = true)
    : between kept (lines ++ [last]) = kept ++ lines := by
  induction lines generalizing kept with
  | nil =>
    show between kept [last] = _
    rw [between, hbegin, hend, append_nil]
    rfl
  | cons line lines ih =>
    have hline := h line (mem_cons_self ..)
    have hrest := ih (fun other hother => h other (mem_cons_of_mem line hother))
      (kept ++ [line])
    rw [cons_append, between, hline.1, hline.2]
    show between (kept ++ [line]) (lines ++ [last]) = _
    rw [hrest, append_assoc]
    rfl

/-- The lines are cut out of what is there; where none is lost, none has a marker. -/
theorem between_cut (kept lines : List (List Char)) {last : List Char}
    (hbegin : hasBegin last = false) (hend : hasEnd last = true) :
    ∃ before after, kept ++ lines = before ++ (between kept (lines ++ [last]) ++ after) ∧
      (before = [] → after = [] → Unmarked lines) := by
  induction lines generalizing kept with
  | nil =>
    refine ⟨[], [], ?_, fun _ _ line hline => absurd hline not_mem_nil⟩
    show _ = [] ++ (between kept [last] ++ [])
    rw [between, hbegin, hend]
    simp
  | cons line lines ih =>
    rw [cons_append, between]
    by_cases hb : hasBegin line = true
    · obtain ⟨before, after, hsplit, _⟩ := ih []
      refine ⟨kept ++ line :: before, after, ?_, fun hnil _ => by simp at hnil⟩
      rw [if_pos hb, append_assoc, cons_append, ← hsplit]
      rfl
    · rw [if_neg hb]
      by_cases he : hasEnd line = true
      · refine ⟨[], line :: lines, by rw [if_pos he]; rfl, nofun⟩
      · obtain ⟨before, after, hsplit, hclean⟩ := ih (kept ++ [line])
        refine ⟨before, after, ?_, fun hnil hnil' other hother => ?_⟩
        · rw [if_neg he, ← hsplit, append_assoc]
          rfl
        · rcases mem_cons.mp hother with rfl | hother
          · exact ⟨Bool.eq_false_of_not_eq_true hb, Bool.eq_false_of_not_eq_true he⟩
          · exact hclean hnil hnil' other hother

/-! ## Weights -/

def PatchOperation.weight (op : PatchOperation) : Nat :=
  1 + (op.hunks.map fun hunk => hunk.lines.length).sum

def counted (line : List Char) : Bool := ¬['@', '@'] <+: line

def Scan.weight (s : Scan) : Nat :=
  (s.operations.map PatchOperation.weight).sum + s.currentOp.elim 0 PatchOperation.weight +
    s.currentHunk.elim 0 (·.lines.length)

theorem weight_withHunk (op : PatchOperation) (hunk : Option Hunk) :
    (op.withHunk hunk).weight = op.weight + hunk.elim 0 (·.lines.length) := by
  cases hunk with
  | none => rfl
  | some hunk =>
    by_cases hlines : hunk.lines = []
    · have hsame : op.withHunk (some hunk) = op := if_pos hlines
      rw [hsame]
      show op.weight = op.weight + hunk.lines.length
      rw [hlines]
      rfl
    · rw [withHunk_some op hunk hlines]
      show 1 + ((op.hunks ++ [hunk]).map fun hunk => hunk.lines.length).sum =
        1 + (op.hunks.map fun hunk => hunk.lines.length).sum + hunk.lines.length
      rw [map_append, sum_append, map_singleton, sum_singleton]
      omega

theorem weight_saved (s : Scan) : (s.saved.map PatchOperation.weight).sum ≤ s.weight := by
  unfold Scan.saved Scan.weight
  cases s.currentOp with
  | none => simp
  | some op =>
    show ((s.operations ++ [op.withHunk s.currentHunk]).map PatchOperation.weight).sum ≤
      (s.operations.map PatchOperation.weight).sum + op.weight + _
    rw [map_append, sum_append, map_singleton, sum_singleton,
      weight_withHunk]
    omega

theorem length_readLine (hunk : Hunk) (c : Char) (rest : List Char) :
    (hunk.readLine c rest).lines.length ≤ hunk.lines.length + 1 := by
  unfold Hunk.readLine
  split_ifs <;> simp

theorem weight_openHunk (s : Scan) (line : List Char) : (s.openHunk line).weight ≤ s.weight := by
  unfold Scan.openHunk
  cases hop : s.currentOp with
  | none => exact Nat.le_refl _
  | some op =>
    show (s.operations.map PatchOperation.weight).sum + (op.withHunk s.currentHunk).weight + 0 ≤
      (s.operations.map PatchOperation.weight).sum + s.currentOp.elim 0 _ + _
    rw [weight_withHunk, hop]
    show _ ≤ (s.operations.map PatchOperation.weight).sum + op.weight + _
    omega

theorem weight_addLine (s : Scan) (line : List Char) :
    (s.addLine line).weight ≤ s.weight + 1 := by
  unfold Scan.addLine
  split
  · rename_i op c rest hop
    have hlines := length_readLine (s.currentHunk.getD {}) c rest
    have hcurrent : (s.currentHunk.getD {}).lines.length =
        s.currentHunk.elim 0 (·.lines.length) := by
      cases s.currentHunk <;> rfl
    show (s.operations.map PatchOperation.weight).sum +
        s.currentOp.elim 0 PatchOperation.weight +
          ((s.currentHunk.getD {}).readLine c rest).lines.length ≤
      (s.operations.map PatchOperation.weight).sum +
        s.currentOp.elim 0 PatchOperation.weight + s.currentHunk.elim 0 (·.lines.length) + 1
    omega
  · exact Nat.le_succ _

theorem weight_step (s : Scan) (line : List Char) :
    (s.step line).weight ≤ s.weight + if counted line then 1 else 0 := by
  have hsaved := weight_saved s
  by_cases hmark : ['@', '@'] <+: line
  · obtain ⟨rest, rfl⟩ := hmark
    have hprefix : ['@', '@'] <+: '@' :: '@' :: rest := prefix_append ['@', '@'] rest
    show (s.step ('@' :: '@' :: rest)).weight ≤ _
    rw [step_eq (by decide), if_pos hprefix]
    exact Nat.le_add_right_of_le (weight_openHunk s _)
  · have hcounted : counted line = true := decide_eq_true hmark
    rw [if_pos hcounted]
    unfold Scan.step
    split
    · show (s.saved.map PatchOperation.weight).sum + 1 + 0 ≤ s.weight + 1
      omega
    · show (s.saved.map PatchOperation.weight).sum + 1 + 0 ≤ s.weight + 1
      omega
    · show ((s.saved ++ [_]).map PatchOperation.weight).sum + 0 + 0 ≤ s.weight + 1
      rw [map_append, sum_append, map_singleton, sum_singleton]
      show _ + 1 + 0 + 0 ≤ _
      omega
    · show ((s.saved ++ [_]).map PatchOperation.weight).sum + 0 + 0 ≤ s.weight + 1
      rw [map_append, sum_append, map_singleton, sum_singleton]
      show _ + 1 + 0 + 0 ≤ _
      omega
    · rw [if_neg hmark]
      exact weight_addLine s line

theorem weight_foldl (s : Scan) (lines : List (List Char)) :
    (lines.foldl Scan.step s).weight ≤ s.weight + lines.countP counted := by
  induction lines generalizing s with
  | nil => exact Nat.le_refl _
  | cons line lines ih =>
    have hstep := weight_step s line
    have hrest := ih (s.step line)
    rw [foldl_cons, countP_cons]
    omega

/-- **Every header and every line of a hunk is worth one line.** -/
theorem weight_saved_foldl (lines : List (List Char)) :
    ((lines.foldl Scan.step {}).saved.map PatchOperation.weight).sum ≤ lines.countP counted := by
  have hfold := weight_foldl {} lines
  have hsaved := weight_saved (lines.foldl Scan.step {})
  have hempty : Scan.weight {} = 0 := rfl
  omega

/-! ## Written lines -/

theorem counted_of_ne {c : Char} (hc : c ≠ '@') (rest : List Char) :
    counted (c :: rest) = true :=
  decide_eq_true fun hmark => hc (cons_prefix_cons.mp hmark).1.symm

theorem counted_fileLine (word path : String) : counted (fileLine word path) = true :=
  counted_of_ne (by decide) _

theorem counted_render (line : HunkLine) : counted line.render = true :=
  counted_of_ne (by cases line.mark <;> decide) _

theorem countP_renders (lines : List HunkLine) :
    (lines.map HunkLine.render).countP counted = lines.length := by
  rw [countP_eq_length.mpr, length_map]
  intro line hline
  obtain ⟨inner, _, rfl⟩ := mem_map.mp hline
  exact counted_render inner

theorem countP_hunk (hunk : Hunk) : hunk.render.countP counted = hunk.lines.length := by
  have hmark : counted (renderHint hunk.contextHint) = false := by
    refine decide_eq_false fun h => h ?_
    cases hunk.contextHint with
    | none => exact prefix_refl _
    | some hint => exact prefix_append ['@', '@'] _
  rw [Hunk.render, countP_cons_of_neg (by rw [hmark]; decide), countP_renders]

theorem countP_flatMap {hunks : List Hunk} {render : Hunk → List (List Char)}
    (h : ∀ hunk, (render hunk).countP counted = hunk.lines.length) :
    (hunks.flatMap render).countP counted = (hunks.map fun hunk => hunk.lines.length).sum := by
  rw [List.countP_flatMap]
  exact congrArg List.sum (List.map_congr_left fun hunk _ => h hunk)

theorem countP_op {op : PatchOperation} (hw : op.Writable) :
    op.render.countP counted = op.weight := by
  have hheader (word path : String) (lines : List (List Char)) :
      (fileLine word path :: lines).countP counted = 1 + lines.countP counted := by
    rw [countP_cons_of_pos (counted_fileLine word path), Nat.add_comm]
  have hshape := hw.shape
  unfold PatchOperation.render PatchOperation.weight
  cases hop : op.operation with
  | update => exact (hheader _ _ _).trans (congrArg (1 + ·) (countP_flatMap countP_hunk))
  | add =>
    exact (hheader _ _ _).trans (congrArg (1 + ·) (countP_flatMap fun hunk =>
      countP_renders hunk.lines))
  | delete =>
    rw [hop] at hshape
    rw [hshape.2]
    exact hheader _ _ []
  | move =>
    rw [hop] at hshape
    rw [hshape.2.1]
    exact hheader _ _ []

variable {ops : List PatchOperation}

theorem countP_body (hw : ∀ op ∈ ops, op.Writable) :
    (renderBody ops).countP counted = (ops.map PatchOperation.weight).sum := by
  rw [renderBody, List.countP_flatMap]
  exact congrArg List.sum (List.map_congr_left fun op hop => countP_op (hw op hop))

theorem counted_head (ops : List PatchOperation) :
    ∀ line ∈ (renderBody ops).head?, counted line = true := by
  intro line hline
  cases ops with
  | nil => cases hline
  | cons op ops =>
    obtain ⟨word, path, rest, hrender⟩ :
        ∃ word path rest, op.render = fileLine word path :: rest := by
      unfold PatchOperation.render
      cases op.operation <;> exact ⟨_, _, _, rfl⟩
    rw [renderBody, flatMap_cons, hrender] at hline
    cases hline
    exact counted_fileLine word path

theorem counted_last_flatMap {α : Type*} {xs : List α} {render : α → List (List Char)}
    (h : ∀ x ∈ xs, ∀ line ∈ (render x).getLast?, counted line = true) :
    ∀ line ∈ (xs.flatMap render).getLast?, counted line = true := by
  intro line hline
  rw [getLast?_flatMap] at hline
  obtain ⟨x, hx, hlast⟩ := exists_of_findSome?_eq_some hline
  exact h x (mem_reverse.mp hx) line hlast

theorem counted_last_cons {first : List Char} (hfirst : counted first = true)
    (h : ∀ line ∈ lines.getLast?, counted line = true) :
    ∀ line ∈ (first :: lines).getLast?, counted line = true := by
  intro line hline
  rw [getLast?_cons] at hline
  cases hline
  cases hlast : lines.getLast? with
  | none => exact hfirst
  | some last => exact h last hlast

theorem counted_last_renders (lines : List HunkLine) :
    ∀ line ∈ (lines.map HunkLine.render).getLast?, counted line = true := by
  intro line hline
  obtain ⟨inner, _, rfl⟩ := mem_map.mp (mem_of_getLast? hline)
  exact counted_render inner

theorem counted_last (h : ∀ op ∈ ops, ∀ hunk ∈ op.hunks, hunk.lines ≠ []) :
    ∀ line ∈ (renderBody ops).getLast?, counted line = true := by
  refine counted_last_flatMap fun op hop => ?_
  have hhunk (hunk : Hunk) (hmem : hunk ∈ op.hunks) :
      ∀ line ∈ hunk.render.getLast?, counted line = true := by
    have hlines : hunk.lines.map HunkLine.render ≠ [] :=
      fun hnil => h op hop hunk hmem (map_eq_nil_iff.mp hnil)
    rw [Hunk.render, getLast?_cons_of_ne_nil hlines]
    exact counted_last_renders hunk.lines
  unfold PatchOperation.render
  cases op.operation with
  | update => exact counted_last_cons (counted_fileLine _ _) (counted_last_flatMap hhunk)
  | add =>
    exact counted_last_cons (counted_fileLine _ _)
      (counted_last_flatMap fun hunk _ => counted_last_renders hunk.lines)
  | delete => exact counted_last_cons (counted_fileLine _ _) fun line hline => by cases hline
  | move => exact counted_last_cons (counted_fileLine _ _) fun line hline => by cases hline

end StackOwl.Tools
