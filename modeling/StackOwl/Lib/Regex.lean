import Mathlib.Algebra.GroupWithZero.Nat
import Mathlib.Data.List.Infix

/-!
# Patterns over lists

A pattern is a sequence of items: one element of a class, a run of a class, a run that is
captured, and a look at the element before or behind.  A run may be taken as long or as short as
possible first; the first way to match every item, in this order of preference, is the match
(`matchItems`).  The element in front of the text, if there is one, is an argument.

## Main results

* `matches_of_matchItems` — a match takes for each item what the item accepts.
* `mem_groups` — a capture is a run of its class within what is matched.
* `matchItems_many` — the match of a run, from the runs that are preferred to it failing.
-/

namespace StackOwl.Lib

open List Option

variable {α : Type*}

inductive Item (α : Type*) where
  | one (p : α → Bool)
  | many (p : α → Bool) (least : Nat) (most : Option Nat) (greedy : Bool)
  | group (p : α → Bool) (greedy : Bool)
  | behind (f : Option α → Bool)
  | ahead (f : Option α → Bool)

/-- A match at the front of a text, with the rest of the text. -/
structure Found (α : Type*) where
  text : List α
  groups : List (List α)
  rest : List α

/-- The ways to cut a text behind a run of a class, the shortest run first. -/
def runCuts (p : α → Bool) : List α → List (List α × List α)
  | [] => [([], [])]
  | c :: s =>
    ([], c :: s) :: if p c then (runCuts p s).map fun cut => (c :: cut.1, cut.2) else []

/-- The runs of so many elements, in the order of preference. -/
def manyCuts (p : α → Bool) (least : Nat) (most : Option Nat) (greedy : Bool) (s : List α) :
    List (List α × List α) :=
  let cuts := (runCuts p s).filter fun cut =>
    least ≤ cut.1.length && most.all fun bound => cut.1.length ≤ bound
  if greedy then cuts.reverse else cuts

/-- What one item can take from the front of a text, in the order of preference. -/
def Item.cuts : Item α → Option α → List α → List (List α × List α)
  | .one _, _, [] => []
  | .one p, _, c :: s => if p c then [([c], s)] else []
  | .many p least most greedy, _, s => manyCuts p least most greedy s
  | .group p greedy, _, s => manyCuts p 1 none greedy s
  | .behind f, prev, s => if f prev then [([], s)] else []
  | .ahead f, _, s => if f s.head? then [([], s)] else []

def Item.captured : Item α → List α → List (List α)
  | .group _ _, taken => [taken]
  | _, _ => []

def lastOr (prev : Option α) (taken : List α) : Option α := taken.getLast?.or prev

def matchItems : List (Item α) → Option α → List α → Option (Found α)
  | [], _, s => some { text := [], groups := [], rest := s }
  | item :: items, prev, s =>
    (item.cuts prev s).findSome? fun cut =>
      (matchItems items (lastOr prev cut.1) cut.2).map fun found =>
        { text := cut.1 ++ found.text, groups := item.captured cut.1 ++ found.groups,
          rest := found.rest }

def captures (items : List (Item α)) (prev : Option α) (s : List α) :
    Option (List (List α)) :=
  (matchItems items prev s).map Found.groups

def literal [DecidableEq α] (text : List α) : List (Item α) := text.map fun c => .one (· = c)

/-! ## Cuts -/

variable {p : α → Bool} {s : List α} {cut : List α × List α}

theorem mem_runCuts :
    cut ∈ runCuts p s ↔ cut.1 ++ cut.2 = s ∧ ∀ c ∈ cut.1, p c = true := by
  induction s generalizing cut with
  | nil =>
    rw [runCuts, mem_singleton]
    constructor
    · rintro rfl
      exact ⟨rfl, fun c hc => absurd hc not_mem_nil⟩
    · intro h
      have hnil := append_eq_nil_iff.mp h.1
      exact Prod.ext hnil.1 hnil.2
  | cons x s ih =>
    rw [runCuts, mem_cons]
    constructor
    · rintro (rfl | hmem)
      · exact ⟨rfl, fun c hc => absurd hc not_mem_nil⟩
      · split at hmem
        · rename_i hx
          obtain ⟨inner, hinner, rfl⟩ := mem_map.mp hmem
          have hcut := ih.mp hinner
          refine ⟨congrArg (x :: ·) hcut.1, fun c hc => ?_⟩
          rcases mem_cons.mp hc with rfl | hc
          · exact hx
          · exact hcut.2 c hc
        · exact absurd hmem not_mem_nil
    · rintro ⟨happend, hclass⟩
      rcases hfirst : cut.1 with _ | ⟨y, taken⟩
      · rw [hfirst] at happend
        exact .inl (Prod.ext hfirst happend)
      · rw [hfirst] at happend hclass
        have hcons := List.cons.inj happend
        have hx : p x = true := hcons.1 ▸ hclass y (mem_cons_self ..)
        rw [if_pos hx]
        refine .inr (mem_map.mpr ⟨(taken, cut.2), ih.mpr ⟨hcons.2, fun c hc => ?_⟩, ?_⟩)
        · exact hclass c (mem_cons_of_mem y hc)
        · exact Prod.ext (by rw [hfirst, hcons.1]) rfl

variable {greedy : Bool}

theorem mem_manyCuts {least : Nat} {most : Option Nat} :
    cut ∈ manyCuts p least most greedy s ↔
      cut.1 ++ cut.2 = s ∧ (∀ c ∈ cut.1, p c = true) ∧ least ≤ cut.1.length ∧
        ∀ bound ∈ most, cut.1.length ≤ bound := by
  have hmost : (most.all fun bound => decide (cut.1.length ≤ bound)) = true ↔
      ∀ bound ∈ most, cut.1.length ≤ bound := by
    cases most with
    | none => simp
    | some bound => simp
  have hfilter : cut ∈ (runCuts p s).filter (fun cut =>
        least ≤ cut.1.length && most.all fun bound => cut.1.length ≤ bound) ↔
      cut.1 ++ cut.2 = s ∧ (∀ c ∈ cut.1, p c = true) ∧ least ≤ cut.1.length ∧
        ∀ bound ∈ most, cut.1.length ≤ bound := by
    rw [mem_filter, mem_runCuts, Bool.and_eq_true, decide_eq_true_iff, hmost, and_assoc]
  unfold manyCuts
  split
  · rw [mem_reverse, hfilter]
  · exact hfilter

/-- What an item accepts: what it takes, between the element before and the rest. -/
def Item.Takes : Item α → Option α → List α → List α → Prop
  | .one p, _, taken, _ => ∃ c, taken = [c] ∧ p c = true
  | .many p least most _, _, taken, _ =>
    (∀ c ∈ taken, p c = true) ∧ least ≤ taken.length ∧ ∀ bound ∈ most, taken.length ≤ bound
  | .group p _, _, taken, _ => (∀ c ∈ taken, p c = true) ∧ taken ≠ []
  | .behind f, prev, taken, _ => taken = [] ∧ f prev = true
  | .ahead f, _, taken, rest => taken = [] ∧ f rest.head? = true

variable {item : Item α}

theorem Item.takes_of_mem_cuts {prev : Option α} (h : cut ∈ item.cuts prev s) :
    cut.1 ++ cut.2 = s ∧ item.Takes prev cut.1 cut.2 := by
  cases item with
  | one p =>
    cases s with
    | nil => exact absurd h not_mem_nil
    | cons c s =>
      rw [Item.cuts] at h
      split at h
      · rename_i hc
        rw [mem_singleton.mp h]
        exact ⟨rfl, c, rfl, hc⟩
      · exact absurd h not_mem_nil
  | many p least most greedy =>
    have hrun := mem_manyCuts.mp h
    exact ⟨hrun.1, hrun.2⟩
  | group p greedy =>
    have hrun := mem_manyCuts.mp h
    exact ⟨hrun.1, hrun.2.1, ne_nil_of_length_pos hrun.2.2.1⟩
  | behind f =>
    rw [Item.cuts] at h
    split at h
    · rename_i hf
      rw [mem_singleton.mp h]
      exact ⟨rfl, rfl, hf⟩
    · exact absurd h not_mem_nil
  | ahead f =>
    rw [Item.cuts] at h
    split at h
    · rename_i hf
      rw [mem_singleton.mp h]
      exact ⟨rfl, rfl, hf⟩
    · exact absurd h not_mem_nil

/-- The runs shorter than one of them stand before it, the longer ones behind it. -/
theorem runCuts_split (x t : List α) (hx : ∀ c ∈ x, p c = true) :
    ∃ shorter longer, runCuts p (x ++ t) = shorter ++ (x, t) :: longer ∧
      (∀ cut ∈ shorter, cut.1.length < x.length) ∧ ∀ cut ∈ longer, x.length < cut.1.length := by
  induction x with
  | nil =>
    cases t with
    | nil => exact ⟨[], [], rfl, by simp, by simp⟩
    | cons c t =>
      refine ⟨[], if p c then (runCuts p t).map fun cut => (c :: cut.1, cut.2) else [], rfl,
        by simp, fun cut hcut => ?_⟩
      split at hcut
      · obtain ⟨inner, _, rfl⟩ := mem_map.mp hcut
        exact Nat.succ_pos _
      · exact absurd hcut not_mem_nil
  | cons c x ih =>
    obtain ⟨shorter, longer, hruns, hshorter, hlonger⟩ :=
      ih fun d hd => hx d (mem_cons_of_mem c hd)
    have hc := hx c (mem_cons_self ..)
    refine ⟨([], c :: (x ++ t)) :: shorter.map fun cut => (c :: cut.1, cut.2),
      longer.map fun cut => (c :: cut.1, cut.2), ?_, ?_, ?_⟩
    · rw [cons_append, runCuts, if_pos hc, hruns, map_append, map_cons,
        cons_append]
    · intro cut hcut
      rcases mem_cons.mp hcut with rfl | hcut
      · exact Nat.succ_pos _
      · obtain ⟨inner, hinner, rfl⟩ := mem_map.mp hcut
        exact Nat.succ_lt_succ (hshorter inner hinner)
    · intro cut hcut
      obtain ⟨inner, hinner, rfl⟩ := mem_map.mp hcut
      exact Nat.succ_lt_succ (hlonger inner hinner)

variable {x t : List α}

/-- The runs that are preferred to one of them stand before it. -/
theorem manyCuts_split {least : Nat} (greedy : Bool) (hx : ∀ c ∈ x, p c = true)
    (hleast : least ≤ x.length) :
    ∃ before after, manyCuts p least none greedy (x ++ t) = before ++ (x, t) :: after ∧
      ∀ cut ∈ before, if greedy then x.length < cut.1.length else cut.1.length < x.length := by
  obtain ⟨shorter, longer, hruns, hshorter, hlonger⟩ := runCuts_split x t hx
  let keep : List α × List α → Bool := fun cut => least ≤ cut.1.length && true
  have hkeep : keep (x, t) = true :=
    Bool.and_eq_true_iff.mpr ⟨decide_eq_true hleast, rfl⟩
  have hfilter : (runCuts p (x ++ t)).filter keep =
      shorter.filter keep ++ (x, t) :: longer.filter keep := by
    rw [hruns, filter_append, filter_cons_of_pos hkeep]
  cases greedy with
  | true =>
    refine ⟨(longer.filter keep).reverse, (shorter.filter keep).reverse, ?_, fun cut hcut => ?_⟩
    · show ((runCuts p (x ++ t)).filter keep).reverse = _
      rw [hfilter, reverse_append, reverse_cons, append_assoc,
        singleton_append]
    · exact hlonger cut (mem_filter.mp (mem_reverse.mp hcut)).1
  | false =>
    exact ⟨shorter.filter keep, longer.filter keep, hfilter,
      fun cut hcut => hshorter cut (mem_filter.mp hcut).1⟩

/-- The run that is found is the first one that goes on, in the order of preference. -/
theorem findSome?_manyCuts {β : Type*} {f : List α × List α → Option β} {least : Nat} {b : β}
    (hx : ∀ c ∈ x, p c = true) (hleast : least ≤ x.length) (hfound : f (x, t) = some b)
    (hbefore : ∀ cut : List α × List α, cut.1 ++ cut.2 = x ++ t → (∀ c ∈ cut.1, p c = true) →
      least ≤ cut.1.length →
      (if greedy then x.length < cut.1.length else cut.1.length < x.length) → f cut = none) :
    (manyCuts p least none greedy (x ++ t)).findSome? f = some b := by
  obtain ⟨before, after, hcuts, hpreferred⟩ := manyCuts_split greedy (t := t) hx hleast
  have hnone : before.findSome? f = none := by
    refine findSome?_eq_none_iff.mpr fun cut hcut => ?_
    have hmem := mem_manyCuts.mp (hcuts ▸ mem_append_left ((x, t) :: after) hcut)
    exact hbefore cut hmem.1 hmem.2.1 hmem.2.2.1 (hpreferred cut hcut)
  rw [hcuts, findSome?_append, hnone, findSome?_cons, hfound]
  rfl

/-! ## Matches -/

variable {items : List (Item α)} {prev : Option α}

theorem matchItems_cons_eq_none :
    matchItems (item :: items) prev s = none ↔
      ∀ cut ∈ item.cuts prev s, matchItems items (lastOr prev cut.1) cut.2 = none := by
  rw [matchItems, findSome?_eq_none_iff]
  exact forall₂_congr fun cut _ => map_eq_none_iff

inductive Matches : List (Item α) → Option α → Found α → Prop where
  | nil (prev : Option α) (rest : List α) : Matches [] prev { text := [], groups := [], rest }
  | cons {item : Item α} {items : List (Item α)} {prev : Option α} {taken : List α}
      {found : Found α} (takes : item.Takes prev taken (found.text ++ found.rest))
      (matches_ : Matches items (lastOr prev taken) found) :
      Matches (item :: items) prev
        { text := taken ++ found.text, groups := item.captured taken ++ found.groups,
          rest := found.rest }

variable {found : Found α}

/-- **What is matched.**  It and what is left make up the text. -/
theorem matches_of_matchItems (h : matchItems items prev s = some found) :
    Matches items prev found ∧ found.text ++ found.rest = s := by
  induction items generalizing s prev found with
  | nil =>
    cases h
    exact ⟨.nil prev s, rfl⟩
  | cons item items ih =>
    obtain ⟨cut, hcut, hmatch⟩ := exists_of_findSome?_eq_some h
    obtain ⟨inner, hinner, rfl⟩ := map_eq_some_iff.mp hmatch
    obtain ⟨hsplit, htakes⟩ := Item.takes_of_mem_cuts hcut
    obtain ⟨hmatches, htext⟩ := ih hinner
    refine ⟨.cons (htext.symm ▸ htakes) hmatches, ?_⟩
    rw [append_assoc, htext, hsplit]

/-- How many elements an item takes at least. -/
def Item.least : Item α → Nat
  | .one _ | .group _ _ => 1
  | .many _ least _ _ => least
  | .behind _ | .ahead _ => 0

variable {taken : List α}

theorem Item.Takes.least_le {rest : List α} (h : item.Takes prev taken rest) :
    item.least ≤ taken.length := by
  cases item with
  | one p =>
    obtain ⟨c, rfl, _⟩ := h
    exact Nat.le_refl 1
  | many p least most greedy => exact h.2.1
  | group p greedy => exact length_pos_iff.mpr h.2
  | behind | ahead => exact Nat.zero_le _

theorem Matches.least_le (h : Matches items prev found) :
    (items.map Item.least).sum ≤ found.text.length := by
  induction h with
  | nil => exact Nat.le_refl 0
  | @cons item items prev taken found htakes _ ih =>
    show item.least + (items.map Item.least).sum ≤ (taken ++ found.text).length
    rw [length_append]
    exact Nat.add_le_add htakes.least_le ih

theorem Matches.head_one (h : Matches (.one p :: items) prev found) :
    ∃ c back, found.text = c :: back ∧ p c = true := by
  cases h with
  | @cons _ _ _ _ found htakes _ =>
    obtain ⟨c, rfl, hc⟩ := htakes
    exact ⟨c, found.text, rfl, hc⟩

theorem Matches.last_one (h : Matches (items ++ [.one p]) prev found) :
    ∃ front c, found.text = front ++ [c] ∧ p c = true := by
  induction items generalizing prev found with
  | nil =>
    cases h with
    | cons htakes hrest =>
      obtain ⟨c, rfl, hc⟩ := htakes
      cases hrest
      exact ⟨[], c, rfl, hc⟩
  | cons item items ih =>
    cases h with
    | @cons _ _ _ taken found _ hrest =>
      obtain ⟨front, c, hfront, hc⟩ := ih hrest
      refine ⟨taken ++ front, c, ?_, hc⟩
      show taken ++ found.text = _
      rw [hfront, append_assoc]

/-- **A capture is a run of its class within what is matched.** -/
theorem Matches.mem_groups (h : Matches items prev found) (htaken : taken ∈ found.groups) :
    taken <:+: found.text ∧ taken ≠ [] ∧
      ∃ p greedy, Item.group p greedy ∈ items ∧ ∀ c ∈ taken, p c = true := by
  induction h with
  | nil prev rest => exact absurd htaken not_mem_nil
  | @cons item items prev first found htakes hmatches ih =>
    rcases mem_append.mp htaken with hhere | hlater
    · cases item with
      | group p greedy =>
        obtain rfl := mem_singleton.mp hhere
        exact ⟨(prefix_append taken found.text).isInfix, htakes.2, p, greedy,
          mem_cons_self .., htakes.1⟩
      | one | many | behind | ahead => exact absurd hhere not_mem_nil
    · obtain ⟨hinside, hne, p, greedy, hitem, hclass⟩ := ih hlater
      exact ⟨hinside.trans (suffix_append first found.text).isInfix, hne, p, greedy,
        mem_cons_of_mem item hitem, hclass⟩

theorem matchItems_one_cons {c : α} (hc : p c = true) :
    matchItems (.one p :: items) prev (c :: s) =
      (matchItems items (some c) s).map fun found => { found with text := c :: found.text } := by
  rw [matchItems, Item.cuts, if_pos hc, findSome?_singleton]
  rfl

theorem matchItems_one_of_not {c : α} (hc : p c = false) :
    matchItems (.one p :: items) prev (c :: s) = none := by
  rw [matchItems, Item.cuts, if_neg (ne_true_of_eq_false hc)]
  rfl

theorem lastOr_cons (c : α) (taken : List α) :
    lastOr prev (c :: taken) = lastOr (some c) taken := by
  unfold lastOr
  rw [getLast?_cons]
  cases taken.getLast? <;> rfl

theorem matchItems_literal [DecidableEq α] (text s : List α) :
    matchItems (literal text ++ items) prev (text ++ s) =
      (matchItems items (lastOr prev text) s).map fun found =>
        { found with text := text ++ found.text } := by
  induction text generalizing prev with
  | nil =>
    show matchItems items prev s = _
    exact map_id'.symm
  | cons c text ih =>
    show matchItems (.one (· = c) :: (literal text ++ items)) prev (c :: (text ++ s)) = _
    have hhead : matchItems (.one (fun d => decide (d = c)) :: (literal text ++ items)) prev
        (c :: (text ++ s)) = (matchItems (literal text ++ items) (some c) (text ++ s)).map _ :=
      matchItems_one_cons (decide_eq_true rfl)
    rw [hhead, ih, Option.map_map, lastOr_cons]
    rfl

variable {text : List α}

theorem prefix_of_matchItems_literal [DecidableEq α]
    (h : matchItems (literal text ++ items) prev s = some found) : text <+: s := by
  induction text generalizing s prev found with
  | nil => exact nil_prefix
  | cons c text ih =>
    cases s with
    | nil => cases h
    | cons d s =>
      by_cases hd : d = c
      · subst hd
        have hstep : matchItems (literal (d :: text) ++ items) prev (d :: s) =
            (matchItems (literal text ++ items) (some d) s).map _ :=
          matchItems_one_cons (decide_eq_true rfl)
        rw [hstep] at h
        obtain ⟨inner, hinner, _⟩ := map_eq_some_iff.mp h
        exact cons_prefix_cons.mpr ⟨rfl, ih hinner⟩
      · have hnone : matchItems (literal (c :: text) ++ items) prev (d :: s) = none :=
          matchItems_one_of_not (decide_eq_false hd)
        rw [hnone] at h
        cases h

/-- **The match of a run**, from the runs that are preferred to it failing. -/
theorem matchItems_many {least : Nat} (hx : ∀ c ∈ x, p c = true) (hleast : least ≤ x.length)
    (hfound : matchItems items (lastOr prev x) t = some found)
    (hbefore : ∀ a b : List α, a ++ b = x ++ t → (∀ c ∈ a, p c = true) → least ≤ a.length →
      (if greedy then x.length < a.length else a.length < x.length) →
      matchItems items (lastOr prev a) b = none) :
    matchItems (.many p least none greedy :: items) prev (x ++ t) =
      some { found with text := x ++ found.text } := by
  refine findSome?_manyCuts hx hleast (by rw [hfound]; rfl) fun cut happend hclass hlen hpref => ?_
  rw [hbefore cut.1 cut.2 happend hclass hlen hpref]
  rfl

theorem matchItems_group (hx : ∀ c ∈ x, p c = true) (hne : x ≠ [])
    (hfound : matchItems items (lastOr prev x) t = some found)
    (hbefore : ∀ a b : List α, a ++ b = x ++ t → (∀ c ∈ a, p c = true) → 1 ≤ a.length →
      (if greedy then x.length < a.length else a.length < x.length) →
      matchItems items (lastOr prev a) b = none) :
    matchItems (.group p greedy :: items) prev (x ++ t) =
      some { found with text := x ++ found.text, groups := x :: found.groups } := by
  refine findSome?_manyCuts hx (length_pos_iff.mpr hne) (by rw [hfound]; rfl)
    fun cut happend hclass hlen hpref => ?_
  rw [hbefore cut.1 cut.2 happend hclass hlen hpref]
  rfl

theorem length_le_of_append_eq {a b : List α} (h : a ++ b = x ++ t) (ha : ∀ c ∈ a, p c = true)
    (ht : ∀ c ∈ t.head?, p c = false) : a.length ≤ x.length := by
  by_contra hlonger
  rcases append_eq_append_iff.mp h with ⟨rest, rfl, _⟩ | ⟨rest, rfl, rfl⟩
  · rw [length_append] at hlonger
    omega
  · cases rest with
    | nil => exact hlonger (by rw [append_nil])
    | cons c rest =>
      have hp := ha c (mem_append_right x (mem_cons_self ..))
      rw [ht c rfl] at hp
      cases hp

def Item.looksBehind : Item α → Bool
  | .behind _ => true
  | _ => false

/-- A pattern that does not look behind matches the same after any element. -/
theorem matchItems_of_not_behind (h : ∀ item ∈ items, item.looksBehind = false)
    (prev prev' : Option α) (s : List α) : matchItems items prev s = matchItems items prev' s := by
  induction items generalizing prev prev' s with
  | nil => rfl
  | cons item items ih =>
    have hcuts : item.cuts prev s = item.cuts prev' s := by
      cases item with
      | behind f => cases h _ (mem_cons_self ..)
      | one => cases s <;> rfl
      | many | group | ahead => rfl
    have hrest (cut : List α × List α) : matchItems items (lastOr prev cut.1) cut.2 =
        matchItems items (lastOr prev' cut.1) cut.2 :=
      ih (fun inner hinner => h inner (mem_cons_of_mem item hinner)) _ _ _
    simp only [matchItems, hcuts, hrest]

theorem matchItems_literal_eq_some [DecidableEq α] :
    matchItems (literal text) prev s = some found ↔
      found = { text, groups := [], rest := found.rest } ∧ text ++ found.rest = s := by
  have happend : literal text = literal text ++ [] := (append_nil _).symm
  have hfound (rest : List α) : matchItems (literal text) prev (text ++ rest) =
      some { text, groups := [], rest } := by
    rw [happend, matchItems_literal]
    show some { text := text ++ [], groups := [], rest } = some (Found.mk text [] rest)
    rw [append_nil]
  constructor
  · intro h
    rw [happend] at h
    obtain ⟨rest, rfl⟩ := prefix_of_matchItems_literal h
    rw [← happend, hfound rest] at h
    cases h
    exact ⟨rfl, rfl⟩
  · rintro ⟨hfields, rfl⟩
    rw [hfound, ← hfields]

/-! ## Captures -/

@[simp] theorem captures_literal [DecidableEq α] (text s : List α) :
    captures (literal text ++ items) prev (text ++ s) =
      captures items (lastOr prev text) s := by
  rw [captures, matchItems_literal, Option.map_map]
  rfl

variable {groups : List (List α)}

theorem captures_eq_some :
    captures items prev s = some groups ↔
      ∃ found, matchItems items prev s = some found ∧ found.groups = groups :=
  map_eq_some_iff

theorem captures_many {least : Nat} (hx : ∀ c ∈ x, p c = true) (hleast : least ≤ x.length)
    (hgroups : captures items (lastOr prev x) t = some groups)
    (hbefore : ∀ a b : List α, a ++ b = x ++ t → (∀ c ∈ a, p c = true) → least ≤ a.length →
      (if greedy then x.length < a.length else a.length < x.length) →
      matchItems items (lastOr prev a) b = none) :
    captures (.many p least none greedy :: items) prev (x ++ t) = some groups := by
  obtain ⟨found, hfound, rfl⟩ := captures_eq_some.mp hgroups
  rw [captures, matchItems_many hx hleast hfound hbefore]
  rfl

/-- A run up to where its class ends, taken whole. -/
theorem captures_many_whole {least : Nat} (hx : ∀ c ∈ x, p c = true) (hleast : least ≤ x.length)
    (ht : ∀ c ∈ t.head?, p c = false) (hgroups : captures items (lastOr prev x) t = some groups) :
    captures (.many p least none true :: items) prev (x ++ t) = some groups := by
  refine captures_many hx hleast hgroups fun a b happend hclass _ hlonger => ?_
  have hle := length_le_of_append_eq happend hclass ht
  rw [if_pos rfl] at hlonger
  exact absurd hlonger (Nat.not_lt.mpr hle)

/-- A run that is captured up to the first place where the pattern goes on. -/
theorem captures_group_first (hne : x ≠ []) (hx : ∀ c ∈ x, p c = true)
    (hgroups : captures items (lastOr prev x) t = some groups)
    (hbefore : ∀ a b : List α, a ++ b = x → a ≠ [] → b ≠ [] →
      matchItems items (lastOr prev a) (b ++ t) = none) :
    captures (.group p false :: items) prev (x ++ t) = some (x :: groups) := by
  obtain ⟨found, hfound, rfl⟩ := captures_eq_some.mp hgroups
  rw [captures, matchItems_group hx hne hfound]
  · rfl
  · intro a b happend _ hlen hshorter
    rw [if_neg Bool.false_ne_true] at hshorter
    obtain ⟨rest, rfl, rfl⟩ : ∃ rest, x = a ++ rest ∧ b = rest ++ t := by
      rcases append_eq_append_iff.mp happend with ⟨rest, hrest, hb⟩ | ⟨rest, ha, _⟩
      · exact ⟨rest, hrest, hb⟩
      · rw [ha, length_append] at hshorter
        omega
    refine hbefore a rest rfl (ne_nil_of_length_pos hlen) ?_
    rw [length_append] at hshorter
    exact ne_nil_of_length_pos (by omega)

theorem captures_group_all (hne : x ≠ []) (hx : ∀ c ∈ x, p c = true) :
    captures [.group p true] prev x = some [x] := by
  have hend : matchItems ([] : List (Item α)) (lastOr prev x) [] =
      some { text := [], groups := [], rest := [] } := rfl
  have hmatch : matchItems [.group p true] prev (x ++ []) = some _ :=
    matchItems_group hx hne hend fun a b happend _ _ hlonger => by
      have hlength := congrArg List.length happend
      rw [length_append, length_append, length_nil] at hlength
      rw [if_pos rfl] at hlonger
      omega
  rw [append_nil] at hmatch
  rw [captures, hmatch]
  rfl

end StackOwl.Lib
