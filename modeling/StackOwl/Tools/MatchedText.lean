import StackOwl.Lib.Lines
import StackOwl.Lib.Sorted
import StackOwl.Tools.FuzzyMatch

/-!
# What is matched

Where a strategy of `tools/io/fuzzy_match.py` finds a pattern, and when the text it takes for
it is the pattern under the strategy's own normalization.  Whole lines always are.  A match in
a copy of the text is taken back by a table, and may come back wider than it was: with the
blanks around it, or with the rest of what one character became.

## Main results

* `lineBlocks_cuts` — what is found by lines is whole lines.
* `collapseFrom_take_countBelow` — the table of the blanks says what becomes of each front.
* `mapPositionNormToOrig_cuts` — a region of the translated copy, taken back.
* `regions_cut` — what is found is the pattern, under the normalization, where its edges are
  clean.
-/

namespace StackOwl.Tools

open Lib List Option
open Durable (strip isSpace)

/-! ## Regions -/

structure Cuts (content : List Char) (region : Nat × Nat) (front matched back : List Char) :
    Prop where
  text : content = front ++ matched ++ back
  start : region.1 = front.length
  stop : region.2 = front.length + matched.length

variable {region : Nat × Nat} {front matched back : List Char}

theorem Cuts.take {content : List Char} (h : Cuts content region front matched back)
    : content.take region.1 = front := by
  rw [h.text, h.start, append_assoc, take_left]

theorem Cuts.drop {content : List Char} (h : Cuts content region front matched back)
    : content.drop region.2 = back := by
  rw [h.text, h.stop, ← length_append, drop_left]

variable {position : Nat} {text : List Char}

theorem mem_exactFrom {pattern : List Char} (h : region ∈ exactFrom pattern position text) :
    ∃ front back, text = front ++ pattern ++ back ∧ region.1 = position + front.length ∧
      region.2 = position + front.length + pattern.length := by
  induction text generalizing position with
  | nil =>
    rw [exactFrom] at h
    split at h
    · rename_i hempty
      obtain rfl := mem_singleton.mp h
      exact ⟨[], [], by rw [hempty]; rfl, rfl, by rw [hempty]; rfl⟩
    · cases h
  | cons c rest ih =>
    rw [exactFrom] at h
    rcases mem_append.mp h with hhere | hlater
    · split at hhere
      · rename_i hprefix
        obtain rfl := mem_singleton.mp hhere
        obtain ⟨back, hback⟩ := isPrefixOf_iff_prefix.mp hprefix
        exact ⟨[], back, hback.symm, rfl, rfl⟩
      · cases hhere
    · obtain ⟨front, back, rfl, hstart, hstop⟩ := ih hlater
      refine ⟨c :: front, back, rfl, ?_, ?_⟩
      · rw [hstart, length_cons]
        omega
      · rw [hstop, length_cons]
        omega

variable {content pattern : List Char}

theorem strategyExact_cuts (h : region ∈ strategyExact content pattern) :
    ∃ front back, Cuts content region front pattern back := by
  obtain ⟨front, back, htext, hstart, hstop⟩ := mem_exactFrom h
  rw [Nat.zero_add] at hstart hstop
  exact ⟨front, back, htext, hstart, hstop⟩

/-! ## Blanks -/

def endsBlank : Bool → List Char → Bool
  | inRun, [] => inRun
  | _, c :: rest => endsBlank (isBlank c) rest

theorem collapseFrom_append (inRun : Bool) (front back : List Char) :
    collapseFrom inRun (front ++ back) =
      collapseFrom inRun front ++ collapseFrom (endsBlank inRun front) back := by
  induction front generalizing inRun with
  | nil => rfl
  | cons c front ih =>
    rw [cons_append, collapseFrom, collapseFrom, endsBlank]
    cases hblank : isBlank c <;> cases inRun <;> simp [ih]

variable {c : Char}

theorem collapseFrom_of_not_blank (h : isBlank c = false) (inRun : Bool) (rest : List Char) :
    collapseFrom inRun (c :: rest) = c :: collapseFrom false rest := by
  rw [collapseFrom, if_neg (by simp [h])]

theorem collapseFrom_true_of_blank (h : isBlank c = true) (rest : List Char) :
    collapseFrom true (c :: rest) = collapseFrom true rest := by
  rw [collapseFrom, if_pos h, if_pos rfl]

theorem collapseFrom_false_of_blank (h : isBlank c = true) (rest : List Char) :
    collapseFrom false (c :: rest) = ' ' :: collapseFrom true rest := by
  rw [collapseFrom, if_pos h, if_neg Bool.false_ne_true]

variable {rest : List Char}

theorem not_blank_of_collapseFrom_true {copy : List Char} {m : Char}
    (h : collapseFrom true rest = m :: copy) : isBlank m = false := by
  induction rest with
  | nil => cases h
  | cons c rest ih =>
    cases hblank : isBlank c with
    | true =>
      rw [collapseFrom_true_of_blank hblank] at h
      exact ih h
    | false =>
      rw [collapseFrom_of_not_blank hblank] at h
      obtain ⟨rfl, -⟩ := cons.inj h
      exact hblank

/-! ### The walk -/

/-- The table of `_map_normalized_positions`, from the middle of a text on. -/
def walk (inRun : Bool) (text : List Char) (n : Nat) : List Nat :=
  origToNorm (n + (collapseFrom inRun text).length) text (collapseFrom inRun text) n

/-- A character of the text stands for the next one of its copy. -/
def Advances (inRun inRun' : Bool) (c : Char) (rest : List Char) : Prop :=
  ∃ m, ∀ k, collapseFrom inRun (c :: rest.take k) = m :: collapseFrom inRun' (rest.take k)

/-- A character of the text is one of those that become the next one of its copy, or none. -/
def Lingers (inRun inRun' : Bool) (c : Char) (rest : List Char) : Prop :=
  ∀ k, k ≠ 0 → collapseFrom inRun (c :: rest.take k) = collapseFrom inRun' (rest.take k)

theorem walk_cons (inRun : Bool) (c : Char) (rest : List Char) (n : Nat) :
    ∃ inRun',
      walk inRun (c :: rest) n = n :: walk inRun' rest (n + 1) ∧ Advances inRun inRun' c rest ∨
      walk inRun (c :: rest) n = n :: walk inRun' rest n ∧ Lingers inRun inRun' c rest := by
  cases hblank : isBlank c with
  | false =>
    refine ⟨false, .inl ⟨?_, c, fun k => collapseFrom_of_not_blank hblank inRun _⟩⟩
    rw [walk, collapseFrom_of_not_blank hblank, origToNorm, if_pos rfl, length_cons,
      walk, Nat.add_right_comm, Nat.add_assoc]
  | true =>
    cases inRun with
    | true =>
      refine ⟨true, .inr ⟨?_, fun k _ => collapseFrom_true_of_blank hblank _⟩⟩
      rw [walk, collapseFrom_true_of_blank hblank, walk]
      cases hcopy : collapseFrom true rest with
      | nil => rfl
      | cons m copy =>
        have hm := not_blank_of_collapseFrom_true hcopy
        have hne : c ≠ m := by
          rintro rfl
          rw [hm] at hblank
          cases hblank
        have hspace : m ≠ ' ' := by
          rintro rfl
          cases hm
        rw [origToNorm, if_neg hne, if_neg (by simp [hspace])]
    | false =>
      have hadvances : Advances false true c rest :=
        ⟨' ', fun k => collapseFrom_false_of_blank hblank _⟩
      by_cases hspace : c = ' '
      · refine ⟨true, .inl ⟨?_, hadvances⟩⟩
        rw [walk, collapseFrom_false_of_blank hblank, origToNorm, if_pos hspace,
          length_cons, walk, Nat.add_right_comm, Nat.add_assoc]
      · -- a tab waits for the last blank of its run
        have htab : (isBlank c && ' ' == ' ') = true := by simp [hblank]
        cases rest with
        | nil =>
          refine ⟨true, .inl ⟨?_, hadvances⟩⟩
          rw [walk, collapseFrom_false_of_blank hblank, origToNorm, if_neg hspace,
            if_pos htab]
          rfl
        | cons d rest =>
          cases hnext : isBlank d with
          | false =>
            refine ⟨true, .inl ⟨?_, hadvances⟩⟩
            rw [walk, collapseFrom_false_of_blank hblank, origToNorm, if_neg hspace,
              if_pos htab, if_pos (by simp [hnext]), length_cons, walk,
              Nat.add_right_comm, Nat.add_assoc]
          | true =>
            have hcopy : collapseFrom false (c :: d :: rest) =
                collapseFrom false (d :: rest) := by
              rw [collapseFrom_false_of_blank hblank, collapseFrom_true_of_blank hnext,
                collapseFrom_false_of_blank hnext]
            refine ⟨false, .inr ⟨?_, ?_⟩⟩
            · rw [walk, hcopy, walk, collapseFrom_false_of_blank hnext, origToNorm,
                if_neg hspace, if_pos htab, if_neg (by simp [hnext])]
            · intro k hk
              obtain ⟨k, rfl⟩ := Nat.exists_eq_succ_of_ne_zero hk
              rw [take_succ_cons, collapseFrom_false_of_blank hblank,
                collapseFrom_true_of_blank hnext, collapseFrom_false_of_blank hnext]

variable {inRun inRun' : Bool}

theorem Advances.copy (h : Advances inRun inRun' c rest) :
    ∃ m, collapseFrom inRun (c :: rest) = m :: collapseFrom inRun' rest ∧
      ∀ k, collapseFrom inRun (c :: rest.take k) = m :: collapseFrom inRun' (rest.take k) := by
  obtain ⟨m, hm⟩ := h
  have hall := hm rest.length
  rw [take_length] at hall
  exact ⟨m, hall, hm⟩

theorem Lingers.copy (h : Lingers inRun inRun' c rest) :
    collapseFrom inRun (c :: rest) = collapseFrom inRun' rest := by
  have hall := h (rest.length + 1) (Nat.succ_ne_zero _)
  rw [take_of_length_le (Nat.le_succ _)] at hall
  exact hall

/-- The table starts where it is told to, and never falls. -/
theorem walk_sorted (inRun : Bool) (text : List Char) (n : Nat) :
    (∀ entry ∈ walk inRun text n, n ≤ entry) ∧ (walk inRun text n).Pairwise (· ≤ ·) := by
  induction text generalizing inRun n with
  | nil => exact ⟨fun _ h => (nomatch h), List.Pairwise.nil⟩
  | cons c rest ih =>
    have hstep : ∃ inRun' n', n ≤ n' ∧ walk inRun (c :: rest) n = n :: walk inRun' rest n' := by
      obtain ⟨inRun', ⟨hwalk, -⟩ | ⟨hwalk, -⟩⟩ := walk_cons inRun c rest n
      · exact ⟨inRun', n + 1, Nat.le_succ n, hwalk⟩
      · exact ⟨inRun', n, Nat.le_refl n, hwalk⟩
    obtain ⟨inRun', n', hle, hwalk⟩ := hstep
    obtain ⟨hleast, hsorted⟩ := ih inRun' n'
    have habove : ∀ entry ∈ walk inRun' rest n', n ≤ entry :=
      fun entry h => Nat.le_trans hle (hleast entry h)
    rw [hwalk]
    refine ⟨?_, pairwise_cons.mpr ⟨habove, hsorted⟩⟩
    intro entry hentry
    rcases mem_cons.mp hentry with rfl | hrest
    · exact Nat.le_refl _
    · exact habove entry hrest

theorem mem_walk (inRun : Bool) (text : List Char) (n : Nat) {j : Nat} (hn : n ≤ j)
    (hj : j < n + (collapseFrom inRun text).length) : j ∈ walk inRun text n := by
  induction text generalizing inRun n with
  | nil => exact absurd hj (Nat.not_lt.mpr hn)
  | cons c rest ih =>
    obtain ⟨inRun', ⟨hwalk, hadvances⟩ | ⟨hwalk, hlingers⟩⟩ := walk_cons inRun c rest n
    · obtain ⟨m, hcopy, -⟩ := hadvances.copy
      rw [hcopy, length_cons] at hj
      rw [hwalk]
      rcases Nat.eq_or_lt_of_le hn with rfl | hlt
      · exact mem_cons_self
      · exact mem_cons_of_mem _ (ih inRun' (n + 1) hlt (by omega))
    · rw [hlingers.copy] at hj
      rw [hwalk]
      exact mem_cons_of_mem _ (ih inRun' n hn hj)

/-- The characters whose entries are below a position become the copy up to there. -/
theorem collapseFrom_take_countBelow (inRun : Bool) (text : List Char) (n : Nat) {t : Nat}
    (hn : n ≤ t) (ht : t ≤ n + (collapseFrom inRun text).length) :
    collapseFrom inRun (text.take (countBelow t (walk inRun text n))) =
      (collapseFrom inRun text).take (t - n) := by
  induction text generalizing inRun n with
  | nil => simp [collapseFrom]
  | cons c rest ih =>
    obtain ⟨inRun', ⟨hwalk, hadvances⟩ | ⟨hwalk, hlingers⟩⟩ := walk_cons inRun c rest n
    · rw [hwalk, countBelow_cons]
      rcases Nat.eq_or_lt_of_le hn with rfl | hlt
      · rw [if_neg (Nat.lt_irrefl _), Nat.sub_self]
        rfl
      · obtain ⟨m, hcopy, htake⟩ := hadvances.copy
        rw [hcopy, length_cons] at ht
        have hrest := ih inRun' (n + 1) hlt (by omega)
        have hsub : t - n = t - (n + 1) + 1 := by omega
        rw [if_pos hlt, take_succ_cons, htake, hrest, hcopy, hsub, take_succ_cons]
    · rw [hwalk, countBelow_cons]
      rcases Nat.eq_or_lt_of_le hn with rfl | hlt
      · rw [if_neg (Nat.lt_irrefl _), Nat.sub_self]
        rfl
      · rw [hlingers.copy] at ht ⊢
        have hrest := ih inRun' n hn ht
        -- the next character has the same entry
        have hnext : countBelow t (walk inRun' rest n) ≠ 0 := by
          intro hzero
          rw [hzero, take_zero] at hrest
          have hlength := congrArg length hrest
          rw [length_take] at hlength
          simp only [collapseFrom, length_nil] at hlength
          omega
        rw [if_pos hlt, take_succ_cons, hlingers _ hnext, hrest]

variable {x : Nat} {xs : List Nat}

theorem lastIndexFrom_eq_none (h : x ∉ xs) (i : Nat) :
    lastIndexFrom x i xs = none := by
  induction xs generalizing i with
  | nil => rfl
  | cons y xs ih =>
    have hne : y ≠ x := fun heq => h (heq ▸ mem_cons_self)
    rw [lastIndexFrom, ih (fun hmem => h (mem_cons_of_mem _ hmem)), if_neg hne]
    rfl

/-- Behind the last entry that is a value stand those above it. -/
theorem lastIndexFrom_succ (hsorted : xs.Pairwise (· ≤ ·)) (hmem : x ∈ xs) (i : Nat) :
    (lastIndexFrom x i xs).map (· + 1) = some (i + countBelow (x + 1) xs) := by
  induction xs generalizing i with
  | nil => cases hmem
  | cons y xs ih =>
    obtain ⟨hleast, hrest⟩ := pairwise_cons.mp hsorted
    rw [lastIndexFrom, countBelow_cons]
    by_cases htail : x ∈ xs
    · obtain ⟨j, hj⟩ : ∃ j, lastIndexFrom x (i + 1) xs = some j := by
        have hlast := ih hrest htail (i + 1)
        cases hfound : lastIndexFrom x (i + 1) xs with
        | none => rw [hfound] at hlast; cases hlast
        | some j => exact ⟨j, rfl⟩
      have hlast := ih hrest htail (i + 1)
      rw [hj, map_some] at hlast
      rw [hj, some_or, map_some, hlast,
        if_pos (Nat.lt_succ_of_le (hleast x htail)), Nat.add_right_comm, Nat.add_assoc]
    · obtain rfl : x = y := (mem_cons.mp hmem).resolve_right htail
      have habove : ∀ z ∈ xs, x + 1 ≤ z := by
        intro z hz
        refine Nat.lt_of_le_of_ne (hleast z hz) ?_
        rintro rfl
        exact htail hz
      rw [lastIndexFrom_eq_none htail, if_pos rfl, if_pos (Nat.lt_succ_self x),
        countBelow_eq_zero habove]
      rfl

def positionOf (content : List Char) (t : Nat) : Nat := countBelow t (walk false content 0)

theorem mapNormalizedPosition_eq (hlt : region.1 < region.2)
    (hle : region.2 ≤ (collapse content).length) :
    mapNormalizedPosition content (collapse content) region =
      (positionOf content region.1,
        min (positionOf content region.2 +
          ((content.drop (positionOf content region.2)).takeWhile isBlank).length)
          content.length) := by
  have htable : origToNorm (collapse content).length content (collapse content) 0 =
      walk false content 0 := by
    rw [walk, Nat.zero_add]
    rfl
  have hcopy : collapse content = collapseFrom false content := rfl
  have hsorted := (walk_sorted false content 0).2
  have hstart : region.1 ∈ walk false content 0 :=
    mem_walk false content 0 (Nat.zero_le _) (by rw [← hcopy]; omega)
  have hstop : region.2 - 1 ∈ walk false content 0 :=
    mem_walk false content 0 (Nat.zero_le _) (by rw [← hcopy]; omega)
  have hlast := lastIndexFrom_succ hsorted hstop 0
  rw [Nat.zero_add, Nat.sub_add_cancel (by omega)] at hlast
  rw [mapNormalizedPosition, htable, findIdx_eq_countBelow hsorted hstart, hlast]
  rfl

theorem length_walk (inRun : Bool) (text : List Char) (n : Nat) :
    (walk inRun text n).length = text.length := by
  induction text generalizing inRun n with
  | nil => rfl
  | cons c rest ih =>
    obtain ⟨inRun', ⟨hwalk, -⟩ | ⟨hwalk, -⟩⟩ := walk_cons inRun c rest n <;>
      rw [hwalk, length_cons, length_cons, ih]

theorem positionOf_le (content : List Char) (t : Nat) :
    positionOf content t ≤ content.length := by
  rw [← length_walk false content 0]
  exact countBelow_le_length t _

/-! ### The edges of a match -/

theorem endsBlank_collapseFrom (inRun : Bool) (text : List Char) :
    endsBlank inRun (collapseFrom inRun text) = endsBlank inRun text := by
  induction text generalizing inRun with
  | nil => rfl
  | cons c rest ih =>
    rw [endsBlank]
    cases hblank : isBlank c with
    | false => rw [collapseFrom_of_not_blank hblank, endsBlank, hblank, ih]
    | true =>
      cases inRun with
      | true => rw [collapseFrom_true_of_blank hblank, ih]
      | false =>
        rw [collapseFrom_false_of_blank hblank, endsBlank, ← ih]
        rfl

theorem endsBlank_append (inRun : Bool) (front back : List Char) :
    endsBlank inRun (front ++ back) = endsBlank (endsBlank inRun front) back := by
  induction front generalizing inRun with
  | nil => rfl
  | cons c front ih => exact ih (isBlank c)

theorem collapse_ne_nil (h : text ≠ []) : collapse text ≠ [] := by
  cases text with
  | nil => exact absurd rfl h
  | cons c rest =>
    cases hblank : isBlank c with
    | false => simp [collapse, collapseFrom_of_not_blank hblank]
    | true => simp [collapse, collapseFrom_false_of_blank hblank]

variable {blanks : List Char}

theorem collapseFrom_true_of_blanks (h : ∀ c ∈ blanks, isBlank c = true) :
    collapseFrom true blanks = [] := by
  induction blanks with
  | nil => rfl
  | cons c blanks ih =>
    rw [collapseFrom_true_of_blank (h c mem_cons_self)]
    exact ih fun d hd => h d (mem_cons_of_mem _ hd)

theorem endsBlank_of_blanks (h : ∀ c ∈ blanks, isBlank c = true) (hne : blanks ≠ []) (inRun : Bool)
    : endsBlank inRun blanks = true := by
  induction blanks generalizing inRun with
  | nil => exact absurd rfl hne
  | cons c blanks ih =>
    rw [endsBlank, h c mem_cons_self]
    cases blanks with
    | nil => rfl
    | cons d blanks =>
      exact ih (fun x hx => h x (mem_cons_of_mem _ hx)) (cons_ne_nil _ _) true

/-- The match neither begins inside a run of blanks nor ends in blanks its pattern has not. -/
def BlankEdges (front matched pattern : List Char) : Prop :=
  ¬(endsBlank false front = true ∧ matched.head?.any isBlank = true) ∧
    (endsBlank false matched = true → endsBlank false pattern = true)

theorem collapse_match_iff {core : List Char} (hpattern : pattern ≠ [])
    (hcore : collapseFrom (endsBlank false front) core = collapse pattern)
    (hblanks : ∀ c ∈ blanks, isBlank c = true) :
    collapse (core ++ blanks) = collapse pattern ↔
      BlankEdges front (core ++ blanks) pattern := by
  cases core with
  | nil => exact absurd hcore.symm (collapse_ne_nil hpattern)
  | cons c core =>
    by_cases hcut : endsBlank false front = true ∧ isBlank c = true
    · -- the copy of the whole has a blank the pattern has not
      obtain ⟨hfront, hc⟩ := hcut
      refine iff_of_false ?_ (fun h => h.1 ⟨hfront, by simpa using hc⟩)
      intro heq
      rw [hfront, collapseFrom_true_of_blank hc] at hcore
      rw [collapse, cons_append, collapseFrom_false_of_blank hc, collapseFrom_append,
        ← hcore] at heq
      have hlength := congrArg length heq
      rw [length_cons, length_append] at hlength
      omega
    · have hwhole : collapse (c :: core) = collapse pattern := by
        rw [← hcore]
        cases hfront : endsBlank false front with
        | false => rfl
        | true =>
          have hc : isBlank c = false := by
            rw [hfront] at hcut
            simpa using hcut
          rw [collapse, collapseFrom_of_not_blank hc, collapseFrom_of_not_blank hc]
      have hends : endsBlank false (c :: core) = endsBlank false pattern := by
        rw [← endsBlank_collapseFrom, ← endsBlank_collapseFrom false pattern]
        exact congrArg (endsBlank false) hwhole
      have hbegins : ¬(endsBlank false front = true ∧
          (c :: core ++ blanks).head?.any isBlank = true) := by
        simpa using hcut
      rw [BlankEdges, and_iff_right hbegins, endsBlank_append, hends, collapse,
        collapseFrom_append, hends]
      change collapse (c :: core) ++ _ = _ ↔ _
      rw [hwhole, append_right_eq_self]
      cases hpat : endsBlank false pattern with
      | true => simp [collapseFrom_true_of_blanks hblanks]
      | false =>
        cases blanks with
        | nil => simp [collapseFrom, endsBlank]
        | cons d blanks =>
          rw [endsBlank_of_blanks hblanks (cons_ne_nil _ _),
            collapseFrom_false_of_blank (hblanks d mem_cons_self)]
          simp

theorem strategyWhitespaceNormalized_cuts (hpattern : pattern ≠ [])
    (h : region ∈ strategyWhitespaceNormalized content pattern) :
    ∃ front matched back, Cuts content region front matched back ∧
      (collapse matched = collapse pattern ↔ BlankEdges front matched pattern) := by
  obtain ⟨found, hfound, rfl⟩ := mem_map.mp h
  obtain ⟨before, after, hcut⟩ := strategyExact_cuts hfound
  have hpositive : 0 < (collapse pattern).length :=
    length_pos_iff.mpr (collapse_ne_nil hpattern)
  have hlength := congrArg length hcut.text
  rw [length_append, length_append] at hlength
  have hlt : found.1 < found.2 := by
    rw [hcut.start, hcut.stop]
    omega
  have hle : found.2 ≤ (collapse content).length := by
    rw [hcut.stop]
    omega
  let start := positionOf content found.1
  let stop := positionOf content found.2
  have horder : start ≤ stop := countBelow_mono (Nat.le_of_lt hlt) _
  have hstop : stop ≤ content.length := positionOf_le content _
  have hfront : collapse (content.take start) = before := by
    have htake := collapseFrom_take_countBelow false content 0 (Nat.zero_le found.1)
      (by rw [Nat.zero_add]; exact Nat.le_trans (Nat.le_of_lt hlt) hle)
    exact htake.trans hcut.take
  have hthrough : collapse (content.take stop) = before ++ collapse pattern := by
    have htake := collapseFrom_take_countBelow false content 0 (Nat.zero_le found.2)
      (by rw [Nat.zero_add]; exact hle)
    refine htake.trans ?_
    change (collapse content).take found.2 = _
    rw [hcut.text, hcut.stop, ← length_append, take_left]
  let core := (content.take stop).drop start
  have hsplit : content.take stop = content.take start ++ core := by
    rw [← take_append_drop start (content.take stop), take_take, Nat.min_eq_left horder]
  have hcore : collapseFrom (endsBlank false (content.take start)) core = collapse pattern := by
    rw [hsplit, collapse, collapseFrom_append] at hthrough
    exact append_cancel_left (hfront ▸ hthrough)
  let blanks := (content.drop stop).takeWhile isBlank
  have hblanks : ∀ c ∈ blanks, isBlank c = true := fun c hc => mem_takeWhile_imp hc
  refine ⟨content.take start, core ++ blanks, (content.drop stop).dropWhile isBlank, ?_,
    collapse_match_iff hpattern hcore hblanks⟩
  rw [mapNormalizedPosition_eq hlt hle]
  have hback : blanks ++ (content.drop stop).dropWhile isBlank = content.drop stop :=
    takeWhile_append_dropWhile
  have htext : content = content.take start ++ (core ++ blanks) ++
      (content.drop stop).dropWhile isBlank := by
    rw [← append_assoc, ← hsplit, append_assoc, hback, take_append_drop]
  have hstart : start = (content.take start).length := by
    rw [length_take, Nat.min_eq_left (Nat.le_trans horder hstop)]
  have hthere : stop + blanks.length =
      (content.take start).length + (core ++ blanks).length := by
    rw [← length_append, ← append_assoc, ← hsplit, length_append,
      length_take, Nat.min_eq_left hstop]
  refine ⟨htext, hstart, ?_⟩
  change min (stop + blanks.length) content.length = _
  rw [← hthere, Nat.min_eq_left]
  rw [hthere, ← length_append]
  exact (congrArg length htext).symm ▸ (prefix_append _ _).length_le

/-- Two blanks before a match are half taken in, and all the blanks inside it are. -/
example : strategyWhitespaceNormalized "a   b  c".toList "b c".toList = [(2, 8)] := by decide

/-! ## Lines -/

theorem unlines_splitLines (text : List Char) : unlines (splitLines text) = text :=
  intercalate_splitOn '\n'

theorem splitLines_ne_nil (text : List Char) : splitLines text ≠ [] := by
  simp [splitLines]

variable {lines : List (List Char)}

theorem splitLines_unlines (h : ∀ line ∈ lines, line ∈ splitLines text) (hne : lines ≠ []) :
    splitLines (unlines lines) = lines :=
  splitOn_intercalate_block h hne

variable {i count : Nat}

theorem block_ne_nil (hcount : 0 < count) (hi : i + count ≤ lines.length) :
    block lines i count ≠ [] := by
  apply ne_nil_of_length_pos
  rw [block, length_take, length_drop]
  omega

theorem mem_of_mem_block {line : List Char} (h : line ∈ block lines i count) : line ∈ lines :=
  mem_of_mem_drop (mem_of_mem_take h)

theorem lines_around_block (lines : List (List Char)) (i count : Nat) :
    lines = lines.take i ++ block lines i count ++ lines.drop (i + count) := by
  rw [block, append_assoc, ← drop_drop, take_append_drop,
    take_append_drop]

theorem lineBlocks_cuts {accepts : Nat → Bool} (hcount : 0 < count)
    (h : region ∈ lineBlocks content count accepts) :
    ∃ i, accepts i = true ∧ i + count ≤ (splitLines content).length ∧
      Cuts content region (terminated '\n' ((splitLines content).take i))
        (unlines (block (splitLines content) i count))
        (preceded '\n' ((splitLines content).drop (i + count))) := by
  rw [lineBlocks] at h
  obtain ⟨i, hi, rfl⟩ := mem_map.mp h
  obtain ⟨hrange, haccepts⟩ := mem_filter.mp hi
  have hbound : i + count ≤ (splitLines content).length := by
    have hlt := mem_range.mp hrange
    omega
  have hblock := block_ne_nil hcount hbound
  have htext : content = terminated '\n' ((splitLines content).take i) ++
      unlines (block (splitLines content) i count) ++
      preceded '\n' ((splitLines content).drop (i + count)) := by
    conv_lhs => rw [← unlines_splitLines content, lines_around_block (splitLines content) i count]
    exact intercalate_block _ _ hblock
  have hthrough : (((splitLines content).take (i + count)).map fun line => line.length + 1).sum =
      (terminated '\n' ((splitLines content).take i)).length +
        ((unlines (block (splitLines content) i count)).length + 1) := by
    rw [length_terminated, unlines, length_intercalate_succ hblock, block, ← sum_append,
      ← map_append, take_add]
  refine ⟨i, haccepts, hbound, htext, (length_terminated _).symm, ?_⟩
  have hlength := congrArg length htext
  rw [length_append, length_append] at hlength
  rw [calculateLinePositions, hthrough]
  omega

theorem splitLines_block (hcount : 0 < count) (hi : i + count ≤ (splitLines content).length) :
    splitLines (unlines (block (splitLines content) i count)) =
      block (splitLines content) i count :=
  splitLines_unlines (fun _ => mem_of_mem_block) (block_ne_nil hcount hi)

theorem length_splitLines_pos (text : List Char) : 0 < (splitLines text).length :=
  length_pos_iff.mpr (splitLines_ne_nil text)

theorem findNormalizedMatches_cuts {trim : List Char → List Char}
    (h : region ∈ findNormalizedMatches trim content pattern) :
    ∃ before block after,
      Cuts content region (terminated '\n' before) (unlines block) (preceded '\n' after) ∧
        mapLines trim (unlines block) = mapLines trim pattern := by
  obtain ⟨i, haccepts, hbound, hcuts⟩ := lineBlocks_cuts (length_splitLines_pos _) h
  refine ⟨_, _, _, hcuts, ?_⟩
  rw [mapLines, splitLines_block (length_splitLines_pos _) hbound, block, map_take, map_drop]
  exact eq_of_beq haccepts

theorem strategyTrimmedBoundary_cuts (h : region ∈ strategyTrimmedBoundary content pattern) :
    ∃ front matched back, Cuts content region front matched back ∧
      unlines (trimEnds (splitLines matched)) = unlines (trimEnds (splitLines pattern)) := by
  obtain ⟨i, haccepts, hbound, hcuts⟩ := lineBlocks_cuts (length_splitLines_pos _) h
  refine ⟨_, _, _, hcuts, ?_⟩
  rw [splitLines_block (length_splitLines_pos _) hbound]
  exact eq_of_beq haccepts

/-! ## Unicode -/

theorem unicodeNormalize_append (front back : List Char) :
    unicodeNormalize (front ++ back) = unicodeNormalize front ++ unicodeNormalize back :=
  flatMap_append

/-- `UNICODE_MAP` puts in no line feed. -/
theorem unicodeChar_cases (c : Char) : unicodeChar c = [c] ∨ '\n' ∉ unicodeChar c := by
  have htable : ∀ entry ∈ UNICODE_MAP, '\n' ∉ entry.2 := by decide
  rw [unicodeChar]
  cases hfound : UNICODE_MAP.lookup c with
  | none => exact .inl rfl
  | some replacement =>
    obtain ⟨before, after, hsplit, -⟩ := lookup_eq_some_iff.mp hfound
    have hmem : (c, replacement) ∈ UNICODE_MAP :=
      hsplit ▸ mem_append_right _ mem_cons_self
    exact .inr (htable _ hmem)

variable {before after : List Char}

/-- A line feed of the copy is a line feed of the text. -/
theorem boundary_of_newline (h : unicodeNormalize content = before ++ '\n' :: after) :
    ∃ k, unicodeNormalize (content.take k) = before := by
  induction content generalizing before with
  | nil => cases before <;> cases h
  | cons c rest ih =>
    have hsplit : unicodeChar c ++ unicodeNormalize rest = before ++ '\n' :: after := h
    rcases append_eq_append_iff.mp hsplit with ⟨more, rfl, hrest⟩ | ⟨more, hhere, hmore⟩
    · obtain ⟨k, rfl⟩ := ih hrest
      exact ⟨k + 1, rfl⟩
    · cases more with
      | nil =>
        refine ⟨1, ?_⟩
        rw [append_nil] at hhere
        simpa [unicodeNormalize] using hhere
      | cons d more =>
        obtain ⟨rfl, -⟩ := cons.inj hmore
        rcases unicodeChar_cases c with hkept | hnone
        · cases before with
          | nil => exact ⟨0, rfl⟩
          | cons b before =>
            rw [hkept] at hhere
            cases before <;> cases hhere
        · exact absurd (hhere ▸ mem_append_right _ mem_cons_self) hnone

/-- The positions of a text's characters in its copy. -/
def positions (position : Nat) (content : List Char) : List Nat :=
  (buildOrigToNormMap position content).dropLast

@[simp] theorem positions_cons (position : Nat) (c : Char) (rest : List Char) :
    positions position (c :: rest) =
      position :: positions (position + (unicodeChar c).length) rest := by
  rw [positions, buildOrigToNormMap, dropLast_cons_of_ne_nil]
  · rfl
  · cases rest <;> exact cons_ne_nil _ _

theorem unicodeNormalize_cons (c : Char) (rest : List Char) :
    unicodeNormalize (c :: rest) = unicodeChar c ++ unicodeNormalize rest :=
  flatMap_cons

theorem findIdx_positions {target start : Nat}
    (h : (positions position content).findIdx? (· == target) = some start) :
    start < content.length ∧
      target = position + (unicodeNormalize (content.take start)).length ∧
      (positions position content).drop start = positions target (content.drop start) := by
  induction content generalizing position start with
  | nil => cases h
  | cons c rest ih =>
    rw [positions_cons, findIdx?_cons] at h
    split at h
    · rename_i heq
      cases h
      obtain rfl : position = target := eq_of_beq heq
      exact ⟨Nat.zero_lt_succ _, rfl, rfl⟩
    · obtain ⟨before, hbefore, rfl⟩ := map_eq_some_iff.mp h
      obtain ⟨hlt, htarget, hdrop⟩ := ih hbefore
      refine ⟨Nat.succ_lt_succ hlt, ?_, ?_⟩
      · rw [take_succ_cons, unicodeNormalize_cons, length_append, htarget]
        omega
      · rw [positions_cons, drop_succ_cons, hdrop, drop_succ_cons]

/-- The characters below a bound become a copy that reaches it, and no fewer do. -/
theorem countBelow_positions (position bound : Nat) (content : List Char) :
    (bound ≤ position + (unicodeNormalize content).length →
      bound ≤ position + (unicodeNormalize
        (content.take (countBelow bound (positions position content)))).length) ∧
    ∀ k, bound ≤ position + (unicodeNormalize (content.take k)).length →
      countBelow bound (positions position content) ≤ k := by
  induction content generalizing position with
  | nil => exact ⟨fun h => h, fun k _ => Nat.zero_le k⟩
  | cons c rest ih =>
    obtain ⟨hreach, hleast⟩ := ih (position + (unicodeChar c).length)
    rw [positions_cons, countBelow_cons]
    split
    · rename_i hlt
      constructor
      · intro hbound
        rw [unicodeNormalize_cons, length_append] at hbound
        rw [take_succ_cons, unicodeNormalize_cons, length_append, ← Nat.add_assoc]
        exact hreach (by omega)
      · intro k hk
        cases k with
        | zero =>
          simp only [take_zero] at hk
          exact absurd hlt (Nat.not_lt.mpr hk)
        | succ k =>
          rw [take_succ_cons, unicodeNormalize_cons, length_append,
            ← Nat.add_assoc] at hk
          exact Nat.succ_le_succ (hleast k hk)
    · rename_i hnot
      exact ⟨fun _ => Nat.le_add_right_of_le (Nat.le_of_not_lt hnot), fun k _ => Nat.zero_le k⟩

theorem length_positions (position : Nat) (content : List Char) :
    (positions position content).length = content.length := by
  induction content generalizing position with
  | nil => rfl
  | cons c rest ih => rw [positions_cons, length_cons, length_cons, ih]

theorem length_unicodeNormalize_take_mono {k : Nat} (h : i ≤ k) (content : List Char) :
    (unicodeNormalize (content.take i)).length ≤ (unicodeNormalize (content.take k)).length := by
  have hsplit : content.take k = content.take i ++ (content.take k).drop i := by
    have hhalves := take_append_drop i (content.take k)
    rw [take_take, Nat.min_eq_left h] at hhalves
    exact hhalves.symm
  rw [hsplit, unicodeNormalize_append, length_append]
  exact Nat.le_add_right _ _

variable {copied : List Char}

/-- The characters that are taken for a region of the copy become it and as little more as
can be. -/
theorem takes_for_copy (position : Nat) (h : unicodeNormalize rest = copied ++ after) :
    let taken := countBelow (position + copied.length) (positions position rest)
    copied.length ≤ (unicodeNormalize (rest.take taken)).length ∧
      unicodeNormalize (rest.take taken) <+: copied ++ after ∧
        ∀ k, copied.length ≤ (unicodeNormalize (rest.take k)).length →
          (unicodeNormalize (rest.take taken)).length ≤
            (unicodeNormalize (rest.take k)).length := by
  intro taken
  obtain ⟨hreach, hleast⟩ := countBelow_positions position (position + copied.length) rest
  have hprefix : unicodeNormalize (rest.take taken) <+: copied ++ after := by
    rw [← h]
    conv_rhs => rw [← take_append_drop taken rest, unicodeNormalize_append]
    exact prefix_append _ _
  refine ⟨?_, hprefix, ?_⟩
  · apply Nat.le_of_add_le_add_left
    apply hreach
    rw [h, length_append]
    omega
  · intro k hk
    exact length_unicodeNormalize_take_mono (hleast k (Nat.add_le_add_left hk position)) rest

/-- A region of the copy taken back to the text: it becomes the region where this ends
between two characters. -/
theorem mapPositionNormToOrig_cuts {found : Nat × Nat}
    (hcut : Cuts (unicodeNormalize content) found before copied after)
    (h : mapPositionNormToOrig (buildOrigToNormMap 0 content) found = some region) :
    ∃ front matched back, Cuts content region front matched back ∧
      unicodeNormalize front = before ∧
        (unicodeNormalize matched = copied ↔
          ∃ k, (unicodeNormalize (content.take k)).length = before.length + copied.length) := by
  obtain ⟨start, hstart, rfl⟩ := map_eq_some_iff.mp h
  obtain ⟨hlt, htarget, hdrop⟩ := findIdx_positions hstart
  rw [Nat.zero_add] at htarget
  have hsplit : unicodeNormalize (content.take start) ++ unicodeNormalize (content.drop start) =
      before ++ (copied ++ after) := by
    rw [← unicodeNormalize_append, take_append_drop, hcut.text, append_assoc]
  obtain ⟨hbefore, hrest⟩ := append_inj hsplit (htarget.symm.trans hcut.start)
  let taken := countBelow (found.1 + copied.length) (positions found.1 (content.drop start))
  obtain ⟨hlong, hprefix, hleast⟩ := takes_for_copy found.1 hrest
  have htaken : (((buildOrigToNormMap 0 content).dropLast.drop start).takeWhile
      (· < found.2)).length = taken := by
    change (((positions 0 content).drop start).takeWhile (· < found.2)).length = taken
    rw [hdrop, hcut.stop, ← hcut.start]
    rfl
  have hbound : taken ≤ (content.drop start).length := by
    rw [← length_positions found.1]
    exact countBelow_le_length _ _
  have hwidth : start = (content.take start).length := by
    rw [length_take, Nat.min_eq_left (Nat.le_of_lt hlt)]
  refine ⟨content.take start, (content.drop start).take taken,
    (content.drop start).drop taken, ⟨?_, hwidth, ?_⟩, hbefore, ?_, ?_⟩
  · rw [append_assoc, take_append_drop, take_append_drop]
  · rw [htaken, ← hwidth, length_take, Nat.min_eq_left hbound]
  · intro heq
    refine ⟨start + taken, ?_⟩
    rw [take_add, unicodeNormalize_append, length_append, hbefore, heq]
  · rintro ⟨k, hk⟩
    have hbeyond := length_unicodeNormalize_take_mono (by omega : k ≤ start + (k - start)) content
    rw [take_add, unicodeNormalize_append, length_append, hbefore, hk] at hbeyond
    have hshort : (unicodeNormalize ((content.drop start).take (k - start))).length ≤
        copied.length := by
      by_cases hbehind : start ≤ k
      · have hsum : (unicodeNormalize (content.take (start + (k - start)))).length =
            before.length + copied.length := by
          rw [Nat.add_sub_cancel' hbehind, hk]
        rw [take_add, unicodeNormalize_append, length_append, hbefore] at hsum
        exact Nat.le_of_add_le_add_left (Nat.le_of_eq hsum)
      · rw [Nat.sub_eq_zero_of_le (Nat.le_of_not_le hbehind)]
        exact Nat.zero_le _
    have hexact := Nat.le_trans (hleast _ (Nat.le_of_add_le_add_left hbeyond)) hshort
    have hcopied := prefix_append copied after
    exact (prefix_of_prefix_length_le hprefix hcopied hexact).eq_of_length_le hlong

/-- Whole lines of the copy end between two characters of the text. -/
theorem boundary_of_lines {block : List Char} {after : List (List Char)}
    (h : unicodeNormalize content = front ++ block ++ preceded '\n' after) :
    ∃ k, (unicodeNormalize (content.take k)).length = front.length + block.length := by
  rw [← length_append]
  cases after with
  | nil =>
    refine ⟨content.length, ?_⟩
    rw [take_length, h]
    exact congrArg length (append_nil _)
  | cons line after =>
    have hends : unicodeNormalize content =
        (front ++ block) ++ '\n' :: (line ++ preceded '\n' after) := h
    obtain ⟨k, hk⟩ := boundary_of_newline hends
    exact ⟨k, congrArg length hk⟩

/-! ## The strategies -/

/-- A text is equal to a pattern under the normalization of a strategy; the last two find
texts that are only similar. -/
def SameUnder (content pattern matched : List Char) : Strategy → Prop
  | .exact => matched = pattern
  | .lineTrimmed => mapLines strip matched = mapLines strip pattern
  | .whitespaceNormalized => collapse matched = collapse pattern
  | .indentationFlexible => mapLines lstrip matched = mapLines lstrip pattern
  | .escapeNormalized => matched = unescape pattern
  | .trimmedBoundary =>
    unlines (trimEnds (splitLines matched)) = unlines (trimEnds (splitLines pattern))
  | .unicodeNormalized =>
    -- the copies are matched exactly, and by trimmed lines where this finds nothing
    if strategyExact (unicodeNormalize content) (unicodeNormalize pattern) = [] then
      mapLines strip (unicodeNormalize matched) = mapLines strip (unicodeNormalize pattern)
    else unicodeNormalize matched = unicodeNormalize pattern
  | .blockAnchor => True
  | .contextAware => True

/-- A match begins and ends where its pattern does: not inside a run of blanks, nor with
blanks the pattern has not; and where the copies are matched exactly, not inside what a
character became. -/
def CleanEdges (content pattern front matched : List Char) : Strategy → Prop
  | .whitespaceNormalized => BlankEdges front matched pattern
  | .unicodeNormalized =>
    strategyExact (unicodeNormalize content) (unicodeNormalize pattern) ≠ [] →
      ∃ k, (unicodeNormalize (content.take k)).length =
        (unicodeNormalize front).length + (unicodeNormalize pattern).length
  | _ => True

theorem strategyUnicodeNormalized_cuts (h : region ∈ strategyUnicodeNormalized content pattern) :
    ∃ front matched back, Cuts content region front matched back ∧
      (SameUnder content pattern matched .unicodeNormalized ↔
        CleanEdges content pattern front matched .unicodeNormalized) := by
  rw [strategyUnicodeNormalized] at h
  split at h
  · cases h
  obtain ⟨found, hfound, hregion⟩ := mem_filterMap.mp h
  by_cases hexact : strategyExact (unicodeNormalize content) (unicodeNormalize pattern) = []
  · rw [if_pos hexact] at hfound
    obtain ⟨before, block, after, hcut, hsame⟩ := findNormalizedMatches_cuts hfound
    obtain ⟨front, matched, back, hcuts, -, hcopied⟩ := mapPositionNormToOrig_cuts hcut hregion
    refine ⟨front, matched, back, hcuts, iff_of_true ?_ (fun hfail => absurd hexact hfail)⟩
    rw [SameUnder, if_pos hexact, hcopied.mpr (boundary_of_lines hcut.text), hsame]
  · rw [if_neg hexact] at hfound
    obtain ⟨before, after, hcut⟩ := strategyExact_cuts hfound
    obtain ⟨front, matched, back, hcuts, rfl, hcopied⟩ := mapPositionNormToOrig_cuts hcut hregion
    refine ⟨front, matched, back, hcuts, ?_⟩
    rw [SameUnder, if_neg hexact, hcopied]
    exact ⟨fun hends _ => hends, fun hends => hends hexact⟩

/-- Half of what a dash becomes takes all of the dash. -/
example : strategyUnicodeNormalized ['a', '—', 'b'] ['a', '-'] = [(0, 2)] := by decide

/-- What a strategy finds is equal to the pattern under its normalization exactly where the
edges are clean. -/
theorem regions_cut {similarity : Similarity} {strategy : Strategy} (hpattern : pattern ≠ [])
    (h : region ∈ strategy.regions similarity content pattern) :
    ∃ front matched back, Cuts content region front matched back ∧
      (SameUnder content pattern matched strategy ↔
        CleanEdges content pattern front matched strategy) := by
  cases strategy with
  | exact =>
    obtain ⟨front, back, hcuts⟩ := strategyExact_cuts h
    exact ⟨front, pattern, back, hcuts, iff_of_true rfl trivial⟩
  | lineTrimmed =>
    obtain ⟨before, block, after, hcuts, hsame⟩ := findNormalizedMatches_cuts h
    exact ⟨_, _, _, hcuts, iff_of_true hsame trivial⟩
  | whitespaceNormalized => exact strategyWhitespaceNormalized_cuts hpattern h
  | indentationFlexible =>
    obtain ⟨before, block, after, hcuts, hsame⟩ := findNormalizedMatches_cuts h
    exact ⟨_, _, _, hcuts, iff_of_true hsame trivial⟩
  | escapeNormalized =>
    rw [Strategy.regions, strategyEscapeNormalized] at h
    split at h
    · cases h
    · obtain ⟨front, back, hcuts⟩ := strategyExact_cuts h
      exact ⟨front, unescape pattern, back, hcuts, iff_of_true rfl trivial⟩
  | trimmedBoundary =>
    obtain ⟨front, matched, back, hcuts, hsame⟩ := strategyTrimmedBoundary_cuts h
    exact ⟨front, matched, back, hcuts, iff_of_true hsame trivial⟩
  | unicodeNormalized => exact strategyUnicodeNormalized_cuts h
  | blockAnchor =>
    rw [Strategy.regions, strategyBlockAnchor] at h
    split at h
    · cases h
    · obtain ⟨i, -, -, hcuts⟩ := lineBlocks_cuts (length_splitLines_pos _) h
      exact ⟨_, _, _, hcuts, iff_of_true trivial trivial⟩
  | contextAware =>
    obtain ⟨i, -, -, hcuts⟩ := lineBlocks_cuts (length_splitLines_pos _) h
    exact ⟨_, _, _, hcuts, iff_of_true trivial trivial⟩

end StackOwl.Tools
