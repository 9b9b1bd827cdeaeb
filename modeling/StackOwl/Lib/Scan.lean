import StackOwl.Lib.Regex

/-!
# Scanning a list for patterns

The matches of some patterns in a list, found from left to right and not overlapping: the list
is cut into segments, each a match or one element that begins none.

## Main results

* `segmented_segments` — the segments are matches, and elements where there is none.
* `Segmented.append` — what is behind some of the segments is segmented by the others.
* `exists_cut` — a position is between two segments, or inside a match.
-/

namespace StackOwl.Lib

open List

variable {α : Type*}

/-- A piece of a list: one element that begins no match, or a match with its captures. -/
inductive Segment (α : Type*) where
  | other (c : α)
  | found (text : List α) (groups : List (List α))

def Segment.text : Segment α → List α
  | .other c => [c]
  | .found text _ => text

def joined (segments : List (Segment α)) : List α := segments.flatMap Segment.text

def firstMatch (patterns : List (List (Item α))) (prev : Option α) (s : List α) :
    Option (Found α) :=
  patterns.findSome? fun items => matchItems items prev s

/-- The segments of what comes after `skip` more elements of a match. -/
def segmentsFrom (patterns : List (List (Item α))) : Nat → Option α → List α → List (Segment α)
  | _, _, [] => []
  | skip + 1, _, c :: s => segmentsFrom patterns skip (some c) s
  | 0, prev, c :: s =>
    match firstMatch patterns prev (c :: s) with
    | some found =>
      .found found.text found.groups ::
        segmentsFrom patterns (found.text.length - 1) (some c) s
    | none => .other c :: segmentsFrom patterns 0 (some c) s

/-- The segments of a list.  No pattern may match the empty list. -/
def segments (patterns : List (List (Item α))) (s : List α) : List (Segment α) :=
  segmentsFrom patterns 0 none s

def spansFrom : Nat → List (Segment α) → List (Nat × Nat)
  | _, [] => []
  | i, .other _ :: segments => spansFrom (i + 1) segments
  | i, .found text _ :: segments =>
    (i, i + text.length) :: spansFrom (i + text.length) segments

/-! ## What the segments are -/

def Solid (patterns : List (List (Item α))) : Prop :=
  ∀ prev s found, firstMatch patterns prev s = some found → found.text ≠ []

/-- The segments are matches, and elements where there is none. -/
inductive Segmented (patterns : List (List (Item α))) :
    Option α → List α → List (Segment α) → Prop where
  | nil (prev : Option α) : Segmented patterns prev [] []
  | other {prev : Option α} {c : α} {s : List α} {rest : List (Segment α)}
      (none_ : firstMatch patterns prev (c :: s) = none)
      (rest_ : Segmented patterns (some c) s rest) :
      Segmented patterns prev (c :: s) (.other c :: rest)
  | found {prev : Option α} {s : List α} {found : Found α} {rest : List (Segment α)}
      (some_ : firstMatch patterns prev s = some found) (solid : found.text ≠ [])
      (rest_ : Segmented patterns (lastOr prev found.text) found.rest rest) :
      Segmented patterns prev s (.found found.text found.groups :: rest)

section
variable {patterns : List (List (Item α))} {prev : Option α} {s : List α} {found : Found α}

theorem firstMatch_eq_some (h : firstMatch patterns prev s = some found) :
    ∃ items ∈ patterns, Matches items prev found ∧ found.text ++ found.rest = s := by
  obtain ⟨items, hitems, hmatch⟩ := exists_of_findSome?_eq_some h
  exact ⟨items, hitems, matches_of_matchItems hmatch⟩

theorem solid_of_items (h : ∀ items ∈ patterns, 0 < (items.map Item.least).sum) :
    Solid patterns := by
  intro prev s found hfound hnil
  obtain ⟨items, hitems, hmatches, _⟩ := firstMatch_eq_some hfound
  have hle := hmatches.least_le
  rw [hnil] at hle
  exact absurd (h items hitems) (Nat.not_lt.mpr hle)

theorem segmentsFrom_skip (patterns : List (List (Item α))) (prev : Option α) (x s : List α) :
    segmentsFrom patterns x.length prev (x ++ s) =
      segmentsFrom patterns 0 (lastOr prev x) s := by
  induction x generalizing prev with
  | nil => rfl
  | cons c x ih =>
    rw [lastOr_cons]
    exact ih (some c)

theorem segmentsFrom_found (h : firstMatch patterns prev s = some found) (hne : found.text ≠ []) :
    segmentsFrom patterns 0 prev s = .found found.text found.groups ::
      segmentsFrom patterns 0 (lastOr prev found.text) found.rest := by
  obtain ⟨_, _, _, htext⟩ := firstMatch_eq_some h
  obtain ⟨c, x, hx⟩ := exists_cons_of_ne_nil hne
  rw [hx, cons_append] at htext
  subst htext
  rw [segmentsFrom, h]
  show _ :: segmentsFrom patterns (found.text.length - 1) (some c) (x ++ found.rest) = _
  rw [hx, length_cons, Nat.add_sub_cancel, segmentsFrom_skip, lastOr_cons]

theorem segmentsFrom_other {c : α} (h : firstMatch patterns prev (c :: s) = none) :
    segmentsFrom patterns 0 prev (c :: s) =
      .other c :: segmentsFrom patterns 0 (some c) s := by
  rw [segmentsFrom, h]

/-- **What the segments are.** -/
theorem segmented_segments (hsolid : Solid patterns) (prev : Option α) (s : List α) :
    Segmented patterns prev s (segmentsFrom patterns 0 prev s) := by
  induction hlength : s.length using Nat.strongRecOn generalizing prev s with
  | ind n ih =>
    cases s with
    | nil => exact .nil prev
    | cons c s =>
      cases hmatch : firstMatch patterns prev (c :: s) with
      | none =>
        rw [segmentsFrom_other hmatch]
        refine .other hmatch (ih s.length ?_ (some c) s rfl)
        rw [← hlength]
        exact Nat.lt_succ_self _
      | some found =>
        have hne := hsolid prev (c :: s) found hmatch
        obtain ⟨_, _, _, htext⟩ := firstMatch_eq_some hmatch
        rw [segmentsFrom_found hmatch hne]
        refine .found hmatch hne (ih found.rest.length ?_ _ found.rest rfl)
        have hpos := length_pos_iff.mpr hne
        rw [← hlength, ← htext, length_append]
        omega

theorem Segmented.eq {cut : List (Segment α)} (h : Segmented patterns prev s cut) :
    cut = segmentsFrom patterns 0 prev s := by
  induction h with
  | nil => rfl
  | other hnone _ ih => rw [segmentsFrom_other hnone, ← ih]
  | found hsome hne _ ih => rw [segmentsFrom_found hsome hne, ← ih]

theorem Segmented.joined {cut : List (Segment α)} (h : Segmented patterns prev s cut) :
    joined cut = s := by
  induction h with
  | nil => rfl
  | other _ _ ih => exact congrArg _ ih
  | found hsome _ _ ih =>
    obtain ⟨_, _, _, htext⟩ := firstMatch_eq_some hsome
    rw [← htext, ← ih]
    rfl

theorem joined_append (a b : List (Segment α)) :
    StackOwl.Lib.joined (a ++ b) = StackOwl.Lib.joined a ++ StackOwl.Lib.joined b :=
  flatMap_append

theorem lastOr_append (prev : Option α) (x y : List α) :
    lastOr prev (x ++ y) = lastOr (lastOr prev x) y := by
  unfold lastOr
  rw [getLast?_append, Option.or_assoc]

variable {a b : List (Segment α)}

/-- **What is behind some of the segments** is segmented by the others. -/
theorem Segmented.append (h : Segmented patterns prev s (a ++ b)) :
    Segmented patterns (lastOr prev (StackOwl.Lib.joined a)) (StackOwl.Lib.joined b) b := by
  induction a generalizing prev s with
  | nil =>
    have hjoined := h.joined
    rw [nil_append] at h hjoined
    rwa [hjoined]
  | cons first a ih =>
    cases h with
    | other _ hrest => exact (@lastOr_cons _ prev _ _) ▸ ih hrest
    | found _ _ hrest =>
      have hinner := ih hrest
      rwa [← lastOr_append] at hinner

theorem Segmented.mem_found {cut : List (Segment α)} (h : Segmented patterns prev s cut)
    {text : List α} {groups : List (List α)} (hmem : .found text groups ∈ cut) :
    ∃ before s rest, firstMatch patterns before s = some { text, groups, rest } := by
  induction h with
  | nil => cases hmem
  | other _ _ ih =>
    cases hmem with
    | tail _ hmem => exact ih hmem
  | @found prev s found rest hsome _ _ ih =>
    cases hmem with
    | head => exact ⟨prev, s, found.rest, hsome⟩
    | tail _ hmem => exact ih hmem

/-! ## Parts of the list -/

/-- The patterns do not look at the element before. -/
def Blind (patterns : List (List (Item α))) : Prop :=
  ∀ prev prev' s, firstMatch patterns prev s = firstMatch patterns prev' s

theorem blind_of_items (h : ∀ items ∈ patterns, ∀ item ∈ items, item.looksBehind = false) :
    Blind patterns := by
  intro prev prev' s
  induction patterns with
  | nil => rfl
  | cons items patterns ih =>
    have hhead : matchItems items prev s = matchItems items prev' s :=
      matchItems_of_not_behind (h items (mem_cons_self ..)) prev prev' s
    have htail : firstMatch patterns prev s = firstMatch patterns prev' s :=
      ih fun inner hinner => h inner (mem_cons_of_mem items hinner)
    show (items :: patterns).findSome? _ = (items :: patterns).findSome? _
    rw [findSome?_cons, findSome?_cons, hhead]
    cases matchItems items prev' s with
    | some found => rfl
    | none => exact htail

theorem segmentsFrom_of_blind (h : Blind patterns) (prev prev' : Option α) (s : List α) :
    segmentsFrom patterns 0 prev s = segmentsFrom patterns 0 prev' s := by
  cases s with
  | nil => rfl
  | cons c s => simp only [segmentsFrom, h prev prev']

/-- What is behind some of the segments, scanned by itself. -/
theorem segmentsFrom_joined (hsolid : Solid patterns) (hblind : Blind patterns)
    (h : segmentsFrom patterns 0 prev s = a ++ b) (prev' : Option α) :
    segmentsFrom patterns 0 prev' (joined b) = b := by
  have hall := segmented_segments hsolid prev s
  rw [h] at hall
  rw [segmentsFrom_of_blind hblind prev' (lastOr prev (joined a)), ← hall.append.eq]

theorem segmentsFrom_append {w : List α}
    (h : ∀ c ∈ w, ∀ prev s, firstMatch patterns prev (c :: s) = none) (prev : Option α)
    (s : List α) : segmentsFrom patterns 0 prev (w ++ s) =
      w.map .other ++ segmentsFrom patterns 0 (lastOr prev w) s := by
  induction w generalizing prev with
  | nil => rfl
  | cons c w ih =>
    show segmentsFrom patterns 0 prev (c :: (w ++ s)) = _
    rw [segmentsFrom_other (h c (mem_cons_self ..) prev (w ++ s)),
      ih (fun d hd => h d (mem_cons_of_mem c hd)) (some c), lastOr_cons]
    rfl

/-- A match does not depend on what is behind it. -/
def Stable (patterns : List (List (Item α))) : Prop :=
  ∀ prev x y, (firstMatch patterns prev (x ++ y) = none → firstMatch patterns prev x = none) ∧
    ∀ found z, firstMatch patterns prev (x ++ y) = some found → x = found.text ++ z →
      firstMatch patterns prev x = some { found with rest := z }

/-- **The front of a list**, scanned by itself. -/
theorem Segmented.front (hstable : Stable patterns) (h : Segmented patterns prev s (a ++ b))
    {z y : List α} (hz : StackOwl.Lib.joined b = z ++ y) :
    segmentsFrom patterns 0 prev (StackOwl.Lib.joined a ++ z) =
      a ++ segmentsFrom patterns 0 (lastOr prev (StackOwl.Lib.joined a)) z := by
  induction a generalizing prev s with
  | nil => rfl
  | cons first a ih =>
    have hwhole := h.joined
    rw [joined_append, hz, ← append_assoc] at hwhole
    cases h with
    | other hnone hrest =>
      rw [← hwhole] at hnone
      rw [show StackOwl.Lib.joined (.other _ :: a) ++ z = _ :: (StackOwl.Lib.joined a ++ z)
        from rfl] at hnone ⊢
      rw [segmentsFrom_other ((hstable _ _ y).1 hnone), ih hrest]
      exact congrArg (_ :: a ++ segmentsFrom patterns 0 · z) (lastOr_cons _ _).symm
    | @found _ _ found _ hsome hne hrest =>
      have hx : StackOwl.Lib.joined (.found found.text found.groups :: a) ++ z =
          found.text ++ (StackOwl.Lib.joined a ++ z) := append_assoc ..
      rw [← hwhole] at hsome
      have hfront := (hstable _ _ y).2 found _ hsome hx
      rw [segmentsFrom_found hfront hne, ih hrest, ← lastOr_append]
      rfl

theorem stable_literal [DecidableEq α] (text : List α) : Stable [literal text] := by
  have hfirst (prev : Option α) (s : List α) :
      firstMatch [literal text] prev s = matchItems (literal text) prev s :=
    findSome?_singleton
  intro prev x y
  constructor
  · intro hnone
    rw [hfirst, Option.eq_none_iff_forall_ne_some] at *
    intro found hfound
    obtain ⟨hfields, rfl⟩ := matchItems_literal_eq_some.mp hfound
    refine hnone { found with rest := found.rest ++ y } (matchItems_literal_eq_some.mpr ?_)
    rw [hfields]
    exact ⟨rfl, (append_assoc ..).symm⟩
  · intro found z hsome hx
    rw [hfirst] at hsome ⊢
    obtain ⟨hfields, _⟩ := matchItems_literal_eq_some.mp hsome
    refine matchItems_literal_eq_some.mpr ?_
    rw [hfields] at hx ⊢
    exact ⟨rfl, hx.symm⟩

end

/-! ## Positions -/

theorem spansFrom_append (i : Nat) (a b : List (Segment α)) :
    spansFrom i (a ++ b) = spansFrom i a ++ spansFrom (i + (joined a).length) b := by
  induction a generalizing i with
  | nil => rfl
  | cons first a ih =>
    have hlength : (joined (first :: a)).length = first.text.length + (joined a).length :=
      length_append
    cases first with
    | other c =>
      show spansFrom (i + 1) (a ++ b) = spansFrom (i + 1) a ++ _
      rw [ih, hlength, Nat.add_assoc]
      rfl
    | found text groups =>
      show _ :: spansFrom (i + text.length) (a ++ b) =
        (_ :: spansFrom (i + text.length) a) ++ _
      rw [ih, hlength, Nat.add_assoc]
      rfl

theorem spansFrom_shift (i : Nat) (cut : List (Segment α)) :
    spansFrom i cut = (spansFrom 0 cut).map fun span => (i + span.1, i + span.2) := by
  induction cut generalizing i with
  | nil => rfl
  | cons first cut ih =>
    cases first with
    | other c =>
      show spansFrom (i + 1) cut = (spansFrom (0 + 1) cut).map _
      rw [ih (i + 1), ih (0 + 1), map_map]
      refine map_congr_left fun span _ => ?_
      simp only [Function.comp_apply, Prod.mk.injEq]
      omega
    | found text groups =>
      show _ :: spansFrom (i + text.length) cut = (_ :: spansFrom (0 + text.length) cut).map _
      rw [ih (i + text.length), ih (0 + text.length), map_cons, map_map]
      refine congrArg₂ cons ?_ (map_congr_left fun span _ => ?_)
      · simp only [Prod.mk.injEq]
        omega
      · simp only [Function.comp_apply, Prod.mk.injEq]
        omega

theorem length_joined_cons (first : Segment α) (a : List (Segment α)) :
    (joined (first :: a)).length = first.text.length + (joined a).length :=
  length_append

/-- **A span is where one of the matches is**, and the spans before it are those of the segments
before it. -/
theorem spansFrom_eq_append_cons {i : Nat} {cut : List (Segment α)} {front back : List (Nat × Nat)}
    {span : Nat × Nat} (h : spansFrom i cut = front ++ span :: back) :
    ∃ a text groups b, cut = a ++ .found text groups :: b ∧ spansFrom i a = front ∧
      span = (i + (joined a).length, i + (joined a).length + text.length) := by
  induction cut generalizing i front with
  | nil => exact absurd h (append_ne_nil_of_right_ne_nil front (cons_ne_nil _ _)).symm
  | cons first cut ih =>
    cases first with
    | other c =>
      obtain ⟨a, text, groups, b, rfl, hfront, rfl⟩ := ih (i := i + 1) h
      refine ⟨.other c :: a, text, groups, b, rfl, hfront, ?_⟩
      simp only [length_joined_cons, Segment.text, length_singleton, Prod.mk.injEq]
      omega
    | found first groups =>
      cases front with
      | nil =>
        obtain ⟨rfl, _⟩ := cons.inj h
        exact ⟨[], first, groups, cut, rfl, rfl, rfl⟩
      | cons head front =>
        obtain ⟨hhead, hrest⟩ := cons.inj h
        obtain ⟨a, text, inner, b, rfl, hfront, rfl⟩ := ih hrest
        refine ⟨.found first groups :: a, text, inner, b, rfl, ?_, ?_⟩
        · exact congrArg₂ cons hhead hfront
        · simp only [length_joined_cons, Segment.text, Prod.mk.injEq]
          omega

variable {cut : List (Segment α)} {i : Nat} {span : Nat × Nat}

theorem mem_spansFrom (h : span ∈ spansFrom i cut) :
    ∃ a text groups b, cut = a ++ .found text groups :: b ∧
      span = (i + (joined a).length, i + (joined a).length + text.length) := by
  obtain ⟨front, back, hspans⟩ := append_of_mem h
  obtain ⟨a, text, groups, b, hcut, _, hspan⟩ := spansFrom_eq_append_cons hspans
  exact ⟨a, text, groups, b, hcut, hspan⟩

theorem le_of_mem_spansFrom (h : span ∈ spansFrom i cut) :
    i ≤ span.1 ∧ span.1 ≤ span.2 ∧ span.2 ≤ i + (joined cut).length := by
  obtain ⟨a, text, groups, b, rfl, rfl⟩ := mem_spansFrom h
  have hlength : (joined (a ++ .found text groups :: b)).length =
      (joined a).length + (text.length + (joined b).length) := by
    rw [joined_append, length_append, length_joined_cons]
    rfl
  show i ≤ i + (joined a).length ∧ _ ≤ i + (joined a).length + text.length ∧
    i + (joined a).length + text.length ≤ _
  omega

theorem pairwise_spansFrom (i : Nat) (cut : List (Segment α)) :
    (spansFrom i cut).Pairwise fun span later => span.2 ≤ later.1 := by
  induction cut generalizing i with
  | nil => exact .nil
  | cons first cut ih =>
    cases first with
    | other c => exact ih (i + 1)
    | found text groups =>
      exact .cons (fun later hlater => (le_of_mem_spansFrom hlater).1) (ih (i + text.length))

/-- **A position is between two segments, or inside a match.** -/
theorem exists_cut {k : Nat} (hk : k ≤ (joined cut).length) :
    (∃ a b, cut = a ++ b ∧ (joined a).length = k) ∨
      ∃ a text groups b, cut = a ++ .found text groups :: b ∧ (joined a).length < k ∧
        k < (joined a).length + text.length := by
  induction cut generalizing k with
  | nil =>
    obtain rfl : k = 0 := Nat.le_zero.mp hk
    exact .inl ⟨[], [], rfl, rfl⟩
  | cons first cut ih =>
    rw [length_joined_cons] at hk
    by_cases hzero : k = 0
    · exact .inl ⟨[], first :: cut, rfl, hzero.symm⟩
    by_cases hinside : k < first.text.length
    · cases first with
      | other c =>
        have hone : k < 1 := hinside
        omega
      | found text groups =>
        exact .inr ⟨[], text, groups, cut, rfl, Nat.pos_of_ne_zero hzero,
          (Nat.zero_add _).symm ▸ hinside⟩
    · rcases ih (k := k - first.text.length) (by omega) with
        ⟨a, b, rfl, ha⟩ | ⟨a, text, groups, b, rfl, hlow, hhigh⟩
      · refine .inl ⟨first :: a, b, rfl, ?_⟩
        rw [length_joined_cons]
        omega
      · refine .inr ⟨first :: a, text, groups, b, rfl, ?_, ?_⟩
        · rw [length_joined_cons]
          omega
        · rw [length_joined_cons]
          omega

end StackOwl.Lib
