import StackOwl.Objectives.Graph
import Mathlib.Data.Finset.Card
import Mathlib.Logic.Relation

/-!
# What the validation accepts

The search of `validate_graph` against the dependency relation of the batch.  A black
node has only finite descents below it, a gray node is an ancestor of the one being
visited, and every visit leaves one white node fewer, so the depth is never the reason
a search stops.

## Main results

* `validateGraph_eq_none_iff` — the batch is accepted iff every index is in range and
  no story depends on itself, however indirectly.
* `grounded_of_accepted` — below every story of an accepted batch, dependencies end.
-/

namespace StackOwl.Objectives

open Relation List

variable (specs : List SubgoalSpec)

/-- Story `i` of the batch depends on story `j`. -/
def Depends (i j : Nat) : Prop :=
  ∃ spec, specs[i]? = some spec ∧ (j : Int) ∈ spec.dependsOn

/-- Every dependency lies in the batch. -/
def InRange : Prop :=
  ∀ spec ∈ specs, ∀ dep ∈ spec.dependsOn, 0 ≤ dep ∧ dep < specs.length

/-- Some story depends on itself, through others or not. -/
def Cyclic : Prop :=
  ∃ i, TransGen (Depends specs) i i

/-- Every chain of dependencies below the story is finite. -/
def Grounded (i : Nat) : Prop :=
  Acc (fun j i => Depends specs i j) i

variable {specs} {i : Nat}

theorem Grounded.not_cycle (h : Grounded specs i) : ¬ TransGen (Depends specs) i i := by
  induction h with
  | intro i _ ih =>
    intro hcycle
    obtain ⟨j, hij, hji⟩ := TransGen.head'_iff.mp hcycle
    exact ih j hij (TransGen.tail'_iff.mpr ⟨i, hji, hij⟩)

theorem outOfRange_eq_none_iff :
    outOfRange specs = none ↔ InRange specs := by
  constructor
  · intro hrange spec hspec dep hdep
    obtain ⟨i, hi⟩ := mem_iff_getElem?.mp hspec
    have hnone := findSome?_eq_none_iff.mp
      (findSome?_eq_none_iff.mp hrange (spec, i) (mem_zipIdx_iff_getElem?.mpr hi))
      dep hdep
    by_contra hbad
    rw [if_pos (by omega)] at hnone
    cases hnone
  · intro h
    apply findSome?_eq_none_iff.mpr
    intro p hp
    apply findSome?_eq_none_iff.mpr
    intro dep hdep
    have hspec : p.1 ∈ specs :=
      mem_iff_getElem?.mpr ⟨p.2, mem_zipIdx_iff_getElem?.mp hp⟩
    have hin := h p.1 hspec dep hdep
    exact if_neg (by omega)

variable {j : Nat}

/-- The nodes `visit` goes through are the dependencies of the story. -/
theorem mem_deps_iff (hrange : InRange specs) :
    j ∈ (((specs[i]?).map SubgoalSpec.dependsOn).getD []).map Int.toNat ↔
      Depends specs i j := by
  cases hspec : specs[i]? with
  | none => simp [Depends, hspec]
  | some spec =>
    simp only [Option.map_some, Option.getD_some, mem_map, Depends, hspec,
      Option.some.injEq, exists_eq_left']
    constructor
    · intro h
      obtain ⟨dep, hdep, rfl⟩ := h
      have hin := hrange spec (mem_of_getElem? hspec) dep hdep
      rwa [Int.toNat_of_nonneg hin.1]
    · intro h
      exact ⟨j, h, Int.toNat_natCast j⟩

/-! ## Colours -/

/-- The colour of a node; there are no others than those of the batch. -/
def colorAt (color : List Color) (i : Nat) : Color := color.getD i .black

def whites (color : List Color) : Nat :=
  ((Finset.range color.length).filter fun i => colorAt color i = .white).card

theorem lt_of_colorAt {color : List Color} (h : colorAt color i ≠ .black) :
    i < color.length := by
  by_contra hge
  rw [colorAt, getD_eq_getElem?_getD,
    getElem?_eq_none (Nat.le_of_not_lt hge)] at h
  exact h rfl

theorem colorAt_set {color : List Color} {c : Color} (hi : i < color.length) :
    colorAt (color.set i c) j = if j = i then c else colorAt color j := by
  by_cases h : j = i
  · subst h
    simp [colorAt, getD_eq_getElem?_getD, hi]
  · simp [colorAt, getD_eq_getElem?_getD, h, Ne.symm h]

/-- A search changes colours from white to black only. -/
structure Settles (color color' : List Color) : Prop where
  length : color'.length = color.length
  kept : ∀ i, colorAt color' i = colorAt color i ∨
    colorAt color i = .white ∧ colorAt color' i = .black

theorem Settles.refl (color : List Color) : Settles color color :=
  ⟨rfl, fun _ => .inl rfl⟩

theorem Settles.trans {a b c : List Color} (hab : Settles a b) (hbc : Settles b c) :
    Settles a c where
  length := hbc.length.trans hab.length
  kept i := by
    rcases hab.kept i with hab | ⟨hw, hb⟩
    · rcases hbc.kept i with hbc | ⟨hw', hb'⟩
      · exact .inl (hbc.trans hab)
      · exact .inr ⟨hab ▸ hw', hb'⟩
    · rcases hbc.kept i with hbc | ⟨hw', -⟩
      · exact .inr ⟨hw, hbc.trans hb⟩
      · rw [hb] at hw'
        cases hw'

variable {color color' : List Color}

theorem Settles.black (h : Settles color color') (hi : colorAt color i = .black) :
    colorAt color' i = .black := by
  rcases h.kept i with hkept | ⟨-, hb⟩
  · rw [hkept, hi]
  · exact hb

theorem Settles.gray_iff (h : Settles color color') :
    colorAt color' i = .gray ↔ colorAt color i = .gray := by
  rcases h.kept i with hkept | ⟨hw, hb⟩
  · rw [hkept]
  · simp [hw, hb]

theorem Settles.whites_le (h : Settles color color') :
    whites color' ≤ whites color := by
  unfold whites
  rw [h.length]
  apply Finset.card_le_card
  intro i hi
  rw [Finset.mem_filter] at hi ⊢
  rcases h.kept i with hkept | ⟨-, hb⟩
  · exact ⟨hi.1, hkept ▸ hi.2⟩
  · rw [hb] at hi
    cases hi.2

theorem whites_set_lt (hi : colorAt color i = .white) :
    whites (color.set i .gray) < whites color := by
  have hlt : i < color.length := lt_of_colorAt (by rw [hi]; decide)
  unfold whites
  rw [length_set]
  apply Finset.card_lt_card
  rw [Finset.ssubset_iff_of_subset]
  · refine ⟨i, Finset.mem_filter.mpr ⟨Finset.mem_range.mpr hlt, hi⟩, ?_⟩
    simp [colorAt_set hlt]
  · intro j hj
    rw [Finset.mem_filter, colorAt_set hlt] at hj
    by_cases hji : j = i
    · simp [hji] at hj
    · rw [if_neg hji] at hj
      exact Finset.mem_filter.mpr hj

/-! ## The search -/

def BlacksGrounded (specs : List SubgoalSpec) (color : List Color) : Prop :=
  ∀ i, colorAt color i = .black → Grounded specs i

/-- The gray nodes are on the path to the node. -/
def GraysLeadTo (specs : List SubgoalSpec) (color : List Color) (i : Nat) : Prop :=
  ∀ g, colorAt color g = .gray → ReflTransGen (Depends specs) g i

/-- What a search that started from `color` has found: a cycle, or the nodes of `found`
grounded. -/
def Searched (specs : List SubgoalSpec) (color : List Color) (found : List Nat) :
    Except GraphError (List Color) → Prop
  | .error _ => Cyclic specs
  | .ok color' => Settles color color' ∧ BlacksGrounded specs color' ∧
      ∀ i ∈ found, colorAt color' i = .black

/-- The loop over the dependencies of a gray node finds a cycle or grounds them all,
where visiting one white node does. -/
theorem visitDeps_searched {path : List Nat}
    {search : Nat → List Nat → List Color → Except GraphError (List Color)} {n : Nat}
    (hsearch : ∀ dep path color, colorAt color dep = .white → whites color ≤ n →
      BlacksGrounded specs color → GraysLeadTo specs color dep →
        Searched specs color [dep] (search dep path color)) :
    ∀ (deps : List Nat) (color : List Color), (∀ dep ∈ deps, Depends specs i dep) →
      whites color ≤ n → BlacksGrounded specs color → GraysLeadTo specs color i →
        Searched specs color deps (visitDeps search path deps color) := by
  intro deps
  induction deps with
  | nil =>
    intro color _ _ hblacks _
    exact ⟨Settles.refl color, hblacks, by simp⟩
  | cons dep deps ih =>
    intro color hdeps hwhites hblacks hgrays
    have hdep : Depends specs i dep := hdeps dep mem_cons_self
    have hrest : ∀ d ∈ deps, Depends specs i d := fun d hd =>
      hdeps d (mem_cons_of_mem dep hd)
    unfold visitDeps
    cases hcolor : color.getD dep .black with
    | gray =>
      -- the dependency is on the path to `i`, which closes the cycle
      exact ⟨i, TransGen.head' hdep (hgrays dep hcolor)⟩
    | black =>
      have hrun := ih color hrest hwhites hblacks hgrays
      dsimp only
      cases hresult : visitDeps search path deps color with
      | error e => rwa [hresult] at hrun
      | ok color' =>
        rw [hresult] at hrun
        obtain ⟨hsettles, hblacks', hfound⟩ := hrun
        exact ⟨hsettles, hblacks',
          forall_mem_cons.mpr ⟨hsettles.black hcolor, hfound⟩⟩
    | white =>
      have hlead : GraysLeadTo specs color dep := fun g hg => (hgrays g hg).tail hdep
      have hone := hsearch dep (path ++ [dep]) color hcolor hwhites hblacks hlead
      dsimp only
      cases hvisit : search dep (path ++ [dep]) color with
      | error e => rwa [hvisit] at hone
      | ok color₁ =>
        rw [hvisit] at hone
        obtain ⟨hsettles, hblacks₁, hfound₁⟩ := hone
        have hgrays₁ : GraysLeadTo specs color₁ i := fun g hg =>
          hgrays g (hsettles.gray_iff.mp hg)
        have hrun := ih color₁ hrest (hsettles.whites_le.trans hwhites) hblacks₁ hgrays₁
        dsimp only
        cases hresult : visitDeps search path deps color₁ with
        | error e => rwa [hresult] at hrun
        | ok color₂ =>
          rw [hresult] at hrun
          obtain ⟨hsettles₂, hblacks₂, hfound₂⟩ := hrun
          exact ⟨hsettles.trans hsettles₂, hblacks₂, forall_mem_cons.mpr
            ⟨hsettles₂.black (hfound₁ dep mem_cons_self), hfound₂⟩⟩

/-- **A visit of a white node** finds a cycle or grounds the node, at any depth that the
white nodes do not exceed. -/
theorem visit_searched (hrange : InRange specs) :
    ∀ (depth i : Nat) (path : List Nat) (color : List Color),
      colorAt color i = .white → whites color ≤ depth → BlacksGrounded specs color →
        GraysLeadTo specs color i → Searched specs color [i] (visit specs depth i path color) := by
  intro depth
  induction depth with
  | zero =>
    intro i path color hwhite hwhites
    have hlt := whites_set_lt hwhite
    omega
  | succ depth ih =>
    intro i path color hwhite hwhites hblacks hgrays
    have hlt : i < color.length := lt_of_colorAt (by rw [hwhite]; decide)
    have hblacks₁ : BlacksGrounded specs (color.set i .gray) := by
      intro j hj
      rw [colorAt_set hlt] at hj
      by_cases hji : j = i
      · simp [hji] at hj
      · rw [if_neg hji] at hj
        exact hblacks j hj
    have hgrays₁ : GraysLeadTo specs (color.set i .gray) i := by
      intro g hg
      rw [colorAt_set hlt] at hg
      by_cases hgi : g = i
      · rw [hgi]
      · rw [if_neg hgi] at hg
        exact hgrays g hg
    have hwhites₁ : whites (color.set i .gray) ≤ depth := by
      have hfewer := whites_set_lt hwhite
      omega
    let deps := (((specs[i]?).map SubgoalSpec.dependsOn).getD []).map Int.toNat
    have hrun : Searched specs (color.set i .gray) deps
        (visitDeps (visit specs depth) path deps (color.set i .gray)) :=
      visitDeps_searched ih deps (color.set i .gray)
        (fun dep hdep => (mem_deps_iff hrange).mp hdep) hwhites₁ hblacks₁ hgrays₁
    unfold visit
    dsimp only
    cases hresult : visitDeps (visit specs depth) path
        ((((specs[i]?).map SubgoalSpec.dependsOn).getD []).map Int.toNat)
        (color.set i .gray) with
    | error e => rwa [hresult] at hrun
    | ok color' =>
      rw [hresult] at hrun
      obtain ⟨hsettles, hblacks', hfound⟩ := hrun
      have hlt' : i < color'.length := by
        rw [hsettles.length, length_set]
        exact hlt
      have hgrounded : Grounded specs i := by
        constructor
        intro j hj
        exact hblacks' j (hfound j ((mem_deps_iff hrange).mpr hj))
      refine ⟨⟨by rw [length_set, hsettles.length, length_set], ?_⟩, ?_, ?_⟩
      · intro j
        rw [colorAt_set hlt']
        by_cases hji : j = i
        · subst hji
          exact .inr ⟨hwhite, if_pos rfl⟩
        · have hkept := hsettles.kept j
          rw [colorAt_set hlt, if_neg hji] at hkept
          rw [if_neg hji]
          exact hkept
      · intro j hj
        rw [colorAt_set hlt'] at hj
        by_cases hji : j = i
        · rwa [hji]
        · rw [if_neg hji] at hj
          exact hblacks' j hj
      · intro j hj
        rw [mem_singleton.mp hj, colorAt_set hlt', if_pos rfl]

/-- The loop over all nodes: it stops at a cycle, or every node is grounded. -/
theorem visitAll_searched (hrange : InRange specs) :
    ∀ (rest : List Nat) (color : List Color), color.length = specs.length →
      BlacksGrounded specs color → (∀ i, colorAt color i ≠ .gray) →
      (∀ i, i ∈ rest ∨ colorAt color i = .black) →
        (∃ e, visitAll specs rest color = some e ∧ Cyclic specs) ∨
          visitAll specs rest color = none ∧ ∀ i, Grounded specs i := by
  intro rest
  induction rest with
  | nil =>
    intro color _ hblacks _ hrest
    refine .inr ⟨rfl, fun i => hblacks i ?_⟩
    simpa using hrest i
  | cons i rest ih =>
    intro color hlen hblacks hgrays hrest
    unfold visitAll
    cases hcolor : color.getD i .black with
    | gray => exact absurd hcolor (hgrays i)
    | black =>
      apply ih color hlen hblacks hgrays
      intro j
      rcases hrest j with hj | hj
      · rcases mem_cons.mp hj with rfl | hj
        · exact .inr hcolor
        · exact .inl hj
      · exact .inr hj
    | white =>
      have hwhites : whites color ≤ specs.length := by
        have hcard := Finset.card_filter_le (Finset.range color.length)
          (fun i => colorAt color i = .white)
        rw [Finset.card_range] at hcard
        exact hcard.trans hlen.le
      have hvisit := visit_searched hrange specs.length i [i] color hcolor hwhites hblacks
        (fun g hg => absurd hg (hgrays g))
      dsimp only
      cases hresult : visit specs specs.length i [i] color with
      | error e =>
        rw [hresult] at hvisit
        exact .inl ⟨e, rfl, hvisit⟩
      | ok color' =>
        rw [hresult] at hvisit
        obtain ⟨hsettles, hblacks', hfound⟩ := hvisit
        apply ih color' (hsettles.length.trans hlen) hblacks'
        · intro j hj
          exact hgrays j (hsettles.gray_iff.mp hj)
        · intro j
          rcases hrest j with hj | hj
          · rcases mem_cons.mp hj with rfl | hj
            · exact .inr (hfound j mem_cons_self)
            · exact .inl hj
          · exact .inr (hsettles.black hj)

theorem colorAt_replicate (n i : Nat) :
    colorAt (replicate n .white) i = if i < n then .white else .black := by
  by_cases h : i < n <;> simp [colorAt, getD_eq_getElem?_getD, h]

theorem visitAll_white (hrange : InRange specs) :
    (∃ e, visitAll specs (range specs.length)
        (replicate specs.length .white) = some e ∧ Cyclic specs) ∨
      visitAll specs (range specs.length)
        (replicate specs.length .white) = none ∧ ∀ i, Grounded specs i := by
  apply visitAll_searched hrange _ _ length_replicate
  · intro i hi
    rw [colorAt_replicate] at hi
    have hge : ¬ i < specs.length := fun hlt => by simp [hlt] at hi
    constructor
    intro j hj
    obtain ⟨spec, hspec, -⟩ := hj
    rw [getElem?_eq_none (Nat.le_of_not_lt hge)] at hspec
    cases hspec
  · intro i
    rw [colorAt_replicate]
    split <;> decide
  · intro i
    rw [colorAt_replicate, mem_range]
    by_cases hlt : i < specs.length
    · exact .inl hlt
    · exact .inr (if_neg hlt)

/-- **The validation is exact**: a batch is accepted iff every index is in range and no
story depends on itself. -/
theorem validateGraph_eq_none_iff (specs : List SubgoalSpec) :
    validateGraph specs = none ↔ InRange specs ∧ ¬ Cyclic specs := by
  unfold validateGraph
  cases hout : outOfRange specs with
  | some e =>
    have hnot : ¬ InRange specs := fun h => by
      rw [outOfRange_eq_none_iff.mpr h] at hout
      cases hout
    simp [hnot]
  | none =>
    have hrange := outOfRange_eq_none_iff.mp hout
    dsimp only
    rcases visitAll_white hrange with ⟨e, hsome, hcyclic⟩ | ⟨hnone, hgrounded⟩
    · simp [hsome, hcyclic]
    · have hacyclic : ¬ Cyclic specs := by
        intro h
        obtain ⟨i, hi⟩ := h
        exact (hgrounded i).not_cycle hi
      simp [hnone, hrange, hacyclic]

/-- **Below every story of an accepted batch, dependencies end.** -/
theorem grounded_of_accepted (h : validateGraph specs = none) (i : Nat) : Grounded specs i := by
  have hexact := (validateGraph_eq_none_iff specs).mp h
  rcases visitAll_white hexact.1 with ⟨e, -, hcyclic⟩ | ⟨-, hgrounded⟩
  · exact absurd hcyclic hexact.2
  · exact hgrounded i

end StackOwl.Objectives
