import StackOwl.Channels.Splitter

/-!
# Code blocks and links in a message

A code block is what is between a fence and the next one, with both, the fences of the text
taken by twos; a link is a match of `_LINK_SPAN_RE`.  A cut that divides none of them leaves the
others where they were, in the text behind it.

## Main results

* `keepsFences_iff` — when `_choose_cut` divides no code block.
* `keepsLinks_iff` — when it divides no link: it does so only with a cut at the limit.
* `fences`, `links` — the blocks behind a cut are those of the text behind it.
-/

namespace StackOwl.Channels

open Lib Durable List

variable {patterns : List (List (Item Char))} {text : List Char} {cut : Nat}

/-! ## Matches around a cut -/

def Uncut (patterns : List (List (Item Char))) (text : List Char) (cut : Nat) : Prop :=
  ∀ span ∈ finditer patterns text, ¬(span.1 < cut ∧ cut < span.2)

instance : Decidable (Uncut patterns text cut) :=
  inferInstanceAs (Decidable (∀ span ∈ finditer patterns text, _))

theorem Uncut.exists_segments (hsolid : Solid patterns) (hcut : cut ≤ text.length)
    (h : Uncut patterns text cut) :
    ∃ a b, segments patterns text = a ++ b ∧ (joined a).length = cut := by
  rw [← joined_segments hsolid text] at hcut
  rcases exists_cut hcut with hbetween | ⟨a, found, groups, b, hab, hlow, hhigh⟩
  · exact hbetween
  · refine absurd ?_ (h ((joined a).length, (joined a).length + found.length) ?_)
    · exact ⟨hlow, hhigh⟩
    · show _ ∈ spansFrom 0 (segments patterns text)
      rw [hab, spansFrom_append, Nat.zero_add]
      exact mem_append_right _ (mem_cons_self ..)

variable {a b : List (Segment Char)}

theorem uncut_of_segments (h : segments patterns text = a ++ b) (hcut : (joined a).length = cut) :
    Uncut patterns text cut := by
  intro span hspan
  have hmem : span ∈ spansFrom 0 (segments patterns text) := hspan
  rw [h, spansFrom_append, hcut, Nat.zero_add] at hmem
  rcases mem_append.mp hmem with hfront | hback
  · have hle := (le_of_mem_spansFrom hfront).2.2
    omega
  · have hle := (le_of_mem_spansFrom hback).1
    omega

/-- A span, so many characters further on. -/
def shift (d : Nat) (span : Nat × Nat) : Nat × Nat := (d + span.1, d + span.2)

/-- How far the text behind a cut begins, without the blanks in front. -/
def skipped (text : List Char) (cut : Nat) : Nat := text.length - (lstrip (text.drop cut)).length

theorem spansFrom_other (i : Nat) (w : List Char) : spansFrom i (w.map .other) = [] := by
  induction w generalizing i with
  | nil => rfl
  | cons c w ih => exact ih (i + 1)

/-- **The matches behind a cut** are those of the text behind it. -/
theorem finditer_cut (hsolid : Solid patterns) (hblind : Blind patterns)
    (hspace : ∀ c, isSpace c = true → ∀ prev s, firstMatch patterns prev (c :: s) = none)
    (h : segments patterns text = a ++ b) (hcut : (joined a).length = cut) :
    finditer patterns text = spansFrom 0 a ++
      (finditer patterns (lstrip (text.drop cut))).map (shift (skipped text cut)) := by
  have hjoined : joined a ++ joined b = text := by
    rw [← joined_append, ← h, joined_segments hsolid]
  have hdrop : text.drop cut = joined b := by
    rw [← hjoined, ← hcut, drop_left]
  have hblanks : (joined b).takeWhile isSpace ++ lstrip (joined b) = joined b :=
    takeWhile_append_dropWhile
  have hbehind : b = ((joined b).takeWhile isSpace).map .other ++
      segments patterns (lstrip (joined b)) := by
    have hscan := segmentsFrom_joined hsolid hblind h none
    rw [← hblanks, segmentsFrom_append (fun c hc => hspace c (mem_takeWhile_imp hc)),
      segmentsFrom_of_blind hblind _ none] at hscan
    exact hscan.symm
  have hskipped : skipped text cut = cut + ((joined b).takeWhile isSpace).length := by
    have hlength := congrArg length hjoined
    have hrest := congrArg length hblanks
    rw [length_append] at hlength hrest
    unfold skipped
    rw [hdrop]
    omega
  have hjoinedBlanks (w : List Char) : joined (w.map .other) = w := by
    induction w with
    | nil => rfl
    | cons c w ih => exact congrArg (c :: ·) ih
  show spansFrom 0 (segments patterns text) = _
  rw [h, spansFrom_append, Nat.zero_add, hcut, hdrop, hskipped]
  refine congrArg (spansFrom 0 a ++ ·) ?_
  rw [hbehind, spansFrom_append, spansFrom_other, nil_append, hjoinedBlanks, ← hbehind,
    spansFrom_shift]
  rfl

variable {span : Nat × Nat}

theorem exists_match_of_mem_finditer (hsolid : Solid patterns) (h : span ∈ finditer patterns text) :
    ∃ prev s found, firstMatch patterns prev s = some found ∧
      span.2 = span.1 + found.text.length ∧
      ∀ k < found.text.length, text[span.1 + k]? = found.text[k]? := by
  obtain ⟨a, found, groups, b, hab, rfl⟩ := mem_spansFrom h
  have hmem : .found found groups ∈ segmentsFrom patterns 0 none text := by
    show _ ∈ segments patterns text
    rw [hab]
    exact mem_append_right a (mem_cons_self ..)
  obtain ⟨prev, s, rest, hmatch⟩ := (segmented_segments hsolid none text).mem_found hmem
  have htext : text = joined a ++ (found ++ joined b) := by
    rw [← joined_segments hsolid text, hab, joined_append]
    rfl
  refine ⟨prev, s, _, hmatch, rfl, fun k hk => ?_⟩
  show text[0 + (joined a).length + k]? = found[k]?
  rw [htext, getElem?_append_right (by omega), Nat.zero_add, Nat.add_sub_cancel_left,
    getElem?_append_left hk]

/-! ## Fences -/

theorem blind_fence : Blind FENCE := blind_of_items (by decide)

theorem stable_fence : Stable FENCE := stable_literal _

variable {prev : Option Char} {s : List Char} {found : Found Char}

theorem firstMatch_fence (h : firstMatch FENCE prev s = some found)
    : found.text = [backtick, backtick, backtick] := by
  have hliteral : matchItems (literal [backtick, backtick, backtick]) prev s = some found := by
    rw [← h]
    exact findSome?_singleton.symm
  rw [(matchItems_literal_eq_some.mp hliteral).1]

variable {c : Char}

theorem fence_space (hc : isSpace c = true) (prev : Option Char) (s : List Char) :
    firstMatch FENCE prev (c :: s) = none := by
  have hne : decide (c = backtick) = false := by
    refine decide_eq_false fun heq => ?_
    rw [heq] at hc
    revert hc
    decide
  show findSome? (fun items => matchItems items prev (c :: s)) [_] = none
  rw [findSome?_singleton]
  exact matchItems_one_of_not hne

theorem spansFrom_short (i : Nat) (prev : Option Char) {z : List Char} (hz : z.length < 3) :
    spansFrom i (segmentsFrom FENCE 0 prev z) = [] := by
  refine eq_nil_iff_forall_not_mem.mpr fun span hspan => ?_
  have hbounds := le_of_mem_spansFrom hspan
  have hscan := segmented_segments solid_fence prev z
  obtain ⟨a, found, groups, b, hab, rfl⟩ := mem_spansFrom hspan
  have hmem : .found found groups ∈ segmentsFrom FENCE 0 prev z :=
    hab ▸ mem_append_right a (mem_cons_self ..)
  obtain ⟨_, _, _, hmatch⟩ := hscan.mem_found hmem
  have hfound : found = [backtick, backtick, backtick] := firstMatch_fence hmatch
  rw [hscan.joined, hfound] at hbounds
  have hlength : i + (joined a).length + 3 ≤ i + z.length := hbounds.2.2
  omega

theorem finditer_take (h : segments FENCE text = a ++ b) {z y : List Char}
    (hz : joined b = z ++ y) (hlength : (joined a ++ z).length = cut) (hshort : z.length < 3) :
    finditer FENCE (text.take cut) = spansFrom 0 a := by
  have hall : Segmented FENCE none text (a ++ b) := h ▸ segmented_segments solid_fence none text
  have hfront : text.take cut = joined a ++ z := by
    rw [← joined_segments solid_fence text, h, joined_append, hz, ← append_assoc, ← hlength,
      take_left]
  show spansFrom 0 (segmentsFrom FENCE 0 none (text.take cut)) = _
  rw [hfront, hall.front stable_fence hz, spansFrom_append, spansFrom_short _ _ hshort,
    append_nil]

theorem length_of_mem_fences (h : span ∈ finditer FENCE text) :
    span.2 = span.1 + 3 := by
  obtain ⟨_, _, found, hmatch, hstop, _⟩ := exists_match_of_mem_finditer solid_fence h
  rw [hstop, firstMatch_fence hmatch]
  rfl

/-- **The fences in front of a cut** are the fences of the text that end in front of it. -/
theorem exists_fences_take (hcut : cut ≤ text.length) :
    ∃ a b, segments FENCE text = a ++ b ∧ finditer FENCE (text.take cut) = spansFrom 0 a ∧
      (joined a).length ≤ cut ∧ ∀ span ∈ spansFrom (joined a).length b, cut < span.2 := by
  rw [← joined_segments solid_fence text] at hcut
  have hspans {a b : List (Segment Char)} (hab : segments FENCE text = a ++ b) :
      finditer FENCE text = spansFrom 0 a ++ spansFrom (joined a).length b := by
    show spansFrom 0 (segments FENCE text) = _
    rw [hab, spansFrom_append, Nat.zero_add]
  rcases exists_cut hcut with ⟨a, b, hab, hlength⟩ | ⟨a, found, groups, b, hab, hlow, hhigh⟩
  · refine ⟨a, b, hab, finditer_take hab (nil_append _).symm ?_ (by decide),
      Nat.le_of_eq hlength, fun span hspan => ?_⟩
    · rw [append_nil, hlength]
    · have hle := (le_of_mem_spansFrom hspan).1
      have hthree := length_of_mem_fences (hspans hab ▸ mem_append_right _ hspan)
      omega
  · have hfence : (joined a).length + found.length = (joined a).length + 3 :=
      length_of_mem_fences (hspans hab ▸ mem_append_right _ (mem_cons_self ..))
    have hpart : (found.take (cut - (joined a).length)).length = cut - (joined a).length := by
      rw [length_take]
      omega
    have hz : joined (.found found groups :: b) = found.take (cut - (joined a).length) ++
        (found.drop (cut - (joined a).length) ++ joined b) := by
      rw [← append_assoc, take_append_drop]
      rfl
    refine ⟨a, .found found groups :: b, hab, finditer_take hab hz ?_ ?_, Nat.le_of_lt hlow,
      fun span hspan => ?_⟩
    · rw [length_append, hpart]
      omega
    · rw [hpart]
      omega
    · rcases mem_cons.mp hspan with rfl | hspan
      · exact hhigh
      · have hle := le_of_mem_spansFrom hspan
        omega

/-- The cut is in front of a code block, or behind it. -/
def FenceClean (text : List Char) (cut : Nat) : Prop :=
  (fenceIndices text cut).length % 2 = 0 ∧ Uncut FENCE text cut

instance : Decidable (FenceClean text cut) :=
  inferInstanceAs (Decidable (_ ∧ _))

/-- **Going back before an open fence.** -/
theorem fenceClean_avoidOpenFence (hcut : cut ≤ text.length)
    (hodd : (fenceIndices text cut).length % 2 = 1) :
    FenceClean text (avoidOpenFence text cut) := by
  obtain ⟨a, b, hab, hfences, _, _⟩ := exists_fences_take hcut
  have hindices : fenceIndices text cut = (spansFrom 0 a).map Prod.fst :=
    congrArg (map Prod.fst) hfences
  rw [hindices, length_map] at hodd
  rcases eq_nil_or_concat' (spansFrom 0 a) with hnil | ⟨front, span, hspans⟩
  · rw [hnil] at hodd
    cases hodd
  obtain ⟨before, found, groups, after, rfl, hfront, rfl⟩ :=
    @spansFrom_eq_append_cons _ 0 a front [] span hspans
  have hretreat : avoidOpenFence text cut = (joined before).length := by
    unfold avoidOpenFence
    rw [hindices, length_map, if_pos hodd, hspans, map_append]
    show (_ ++ [0 + (joined before).length]).getLastD cut = _
    rw [getLastD_concat, Nat.zero_add]
  rw [append_assoc] at hab
  rw [hretreat]
  constructor
  · show ((finditer FENCE (text.take (joined before).length)).map Prod.fst).length % 2 = 0
    rw [finditer_take hab (nil_append _).symm (by rw [append_nil]) (by decide), hfront, length_map]
    rw [hspans, length_append, length_singleton] at hodd
    omega
  · exact uncut_of_segments hab rfl

/-! ## Links -/

theorem blind_linkSpan : Blind LINK_SPAN := blind_of_items (by decide)

theorem firstMatch_linkSpan (h : firstMatch LINK_SPAN prev s = some found) :
    (∃ c back, found.text = c :: back ∧ c ∈ ['<', '[']) ∧
      ∃ front c, found.text = front ++ [c] ∧ c ∈ ['>', ')'] := by
  obtain ⟨items, hitems, hmatches, _⟩ := firstMatch_eq_some h
  have hends (p q : Char → Bool) (middle : List (Item Char))
      (hitems : items = (.one p :: middle) ++ [.one q])
      (hp : ∀ c, p c = true → c ∈ ['<', '[']) (hq : ∀ c, q c = true → c ∈ ['>', ')']) :
      (∃ c back, found.text = c :: back ∧ c ∈ ['<', '[']) ∧
        ∃ front c, found.text = front ++ [c] ∧ c ∈ ['>', ')'] := by
    rw [hitems] at hmatches
    obtain ⟨c, back, hback, hc⟩ := Matches.head_one hmatches
    obtain ⟨front, d, hfront, hd⟩ := Matches.last_one hmatches
    exact ⟨⟨c, back, hback, hp c hc⟩, front, d, hfront, hq d hd⟩
  cases hitems with
  | head =>
    refine hends _ _ [.many (fun c => c ≠ '<' && c ≠ '>') 1 none true] rfl ?_ ?_
    · intro c hc
      rw [of_decide_eq_true hc]
      decide
    · intro c hc
      rw [of_decide_eq_true hc]
      decide
  | tail _ hitems =>
    obtain rfl := mem_singleton.mp hitems
    refine hends _ _ [.many (· ≠ ']') 1 none true, .one (· = ']'), .one (· = '('),
      .many (fun c => c ≠ ')' && !isSpace c) 1 none true] rfl ?_ ?_
    · intro c hc
      rw [of_decide_eq_true hc]
      decide
    · intro c hc
      rw [of_decide_eq_true hc]
      decide

theorem linkSpan_space (hc : isSpace c = true) (prev : Option Char) (s : List Char) :
    firstMatch LINK_SPAN prev (c :: s) = none := by
  refine Option.eq_none_iff_forall_ne_some.mpr fun found hfound => ?_
  obtain ⟨⟨d, back, hback, hd⟩, _⟩ := firstMatch_linkSpan hfound
  obtain ⟨_, _, _, htext⟩ := firstMatch_eq_some hfound
  rw [hback] at htext
  obtain rfl := (cons.inj htext).1
  have hblank : ∀ c ∈ ['<', '['], isSpace c = false :=
    forall_mem_cons.mpr ⟨rfl, forall_mem_singleton.mpr rfl⟩
  exact Bool.false_ne_true (hblank d hd ▸ hc)

variable {spans : List (Nat × Nat)}

theorem retreat_spec (hsorted : spans.Pairwise fun span later => span.2 ≤ later.1)
    (hle : ∀ span ∈ spans, span.1 ≤ span.2) :
    (retreat cut spans = cut ∨ ∃ span ∈ spans, span.1 < cut ∧ retreat cut spans = span.1) ∧
      ∀ span ∈ spans, ¬(span.1 < retreat cut spans ∧ retreat cut spans < span.2) := by
  induction spans with
  | nil => exact ⟨.inl rfl, fun span hspan => absurd hspan not_mem_nil⟩
  | cons first spans ih =>
    obtain ⟨hfirst, hrest⟩ := pairwise_cons.mp hsorted
    have hfirstLe := hle first (mem_cons_self ..)
    obtain ⟨hwhere, hinside⟩ := ih hrest fun span hspan => hle span (mem_cons_of_mem _ hspan)
    rw [retreat]
    split
    · refine ⟨.inl rfl, fun span hspan => ?_⟩
      rcases mem_cons.mp hspan with rfl | hspan
      · omega
      · have hlater := hfirst span hspan
        omega
    split
    · refine ⟨.inr ⟨first, mem_cons_self .., by omega, rfl⟩, fun span hspan => ?_⟩
      rcases mem_cons.mp hspan with rfl | hspan
      · omega
      · have hlater := hfirst span hspan
        omega
    · have hbehind : first.2 ≤ retreat cut spans := by
        rcases hwhere with hcut | ⟨span, hspan, _, hstart⟩
        · omega
        · have hlater := hfirst span hspan
          omega
      refine ⟨hwhere.imp_right (Exists.imp fun span => And.imp_left (mem_cons_of_mem _)),
        fun span hspan => ?_⟩
      rcases mem_cons.mp hspan with rfl | hspan
      · omega
      · exact hinside span hspan

/-- **Going back before an open link.** -/
theorem avoidSplitLink_spec (text : List Char) (cut : Nat) :
    (avoidSplitLink text cut = cut ∨ ∃ span ∈ finditer LINK_SPAN text,
      span.1 < cut ∧ avoidSplitLink text cut = span.1) ∧
      Uncut LINK_SPAN text (avoidSplitLink text cut) :=
  retreat_spec (pairwise_spansFrom 0 _) fun _ hspan =>
    (le_of_mem_finditer solid_linkSpan hspan).1

theorem uncut_fence_of_link (h : span ∈ finditer LINK_SPAN text) :
    Uncut FENCE text span.1 := by
  intro fence hfence hinside
  obtain ⟨_, _, found, hmatch, hstop, htext⟩ := exists_match_of_mem_finditer solid_fence hfence
  obtain ⟨_, _, link, hlink, _, hstart⟩ := exists_match_of_mem_finditer solid_linkSpan h
  obtain ⟨⟨c, back, hback, hc⟩, _⟩ := firstMatch_linkSpan hlink
  have hhere : text[span.1]? = some c := by
    have hzero := hstart 0 (by rw [hback]; exact Nat.succ_pos _)
    rwa [hback] at hzero
  obtain ⟨k, hk⟩ := Nat.exists_eq_add_of_le (Nat.le_of_lt hinside.1)
  rw [firstMatch_fence hmatch] at hstop htext
  have hthree : k < 3 := by
    have hlength : fence.2 = fence.1 + 3 := hstop
    omega
  have hbacktick : ∀ k < 3, [backtick, backtick, backtick][k]? = some backtick := by decide
  rw [hk, htext k hthree, hbacktick k hthree] at hhere
  cases hhere
  revert hc
  decide

/-! ## What a cut keeps -/

/-- The cut in front of the guard of `_choose_cut`. -/
def guardedCut (limit : Nat) (text : List Char) : Nat :=
  avoidSplitLink text (avoidOpenFence text (breakCut limit text))

theorem chooseCut_eq (limit : Nat) (text : List Char) :
    chooseCut limit text = if guardedCut limit text = 0 then limit else guardedCut limit text := by
  show (if guardedCut limit text ≤ 0 then limit else guardedCut limit text) = _
  simp only [Nat.le_zero]

/-- The text a pass begins with keeps its cut out of code blocks: where nothing is left in front
of the cut, the limit is outside of them; a link that is open at the cut does not begin in one;
and a cut at the limit is not inside the fence a block begins with. -/
def KeepsFences (limit : Nat) (text : List Char) : Prop :=
  if guardedCut limit text = 0 then FenceClean text limit
  else if guardedCut limit text < avoidOpenFence text (breakCut limit text) then
    (fenceIndices text (guardedCut limit text)).length % 2 = 0
  else (fenceIndices text (breakCut limit text)).length % 2 = 0 →
    Uncut FENCE text (breakCut limit text)

/-- The text a pass begins with keeps its cut out of links: where nothing is left in front of the
cut, the limit is outside of them. -/
def KeepsLinks (limit : Nat) (text : List Char) : Prop :=
  guardedCut limit text = 0 → Uncut LINK_SPAN text limit

instance (limit : Nat) : Decidable (KeepsFences limit text) :=
  inferInstanceAs (Decidable (if _ = 0 then FenceClean _ _ else if _ < _ then _ = 0
    else _ = 0 → Uncut _ _ _))

instance (limit : Nat) : Decidable (KeepsLinks limit text) :=
  inferInstanceAs (Decidable (_ → _))

variable {limit : Nat}

/-- **When a cut divides no code block.** -/
theorem keepsFences_iff (hlong : limit ≤ text.length) :
    KeepsFences limit text ↔ FenceClean text (chooseCut limit text) := by
  have hbreak : breakCut limit text ≤ text.length := (breakCut_le limit text).trans hlong
  rw [chooseCut_eq]
  unfold KeepsFences
  split
  · exact Iff.rfl
  rcases (avoidSplitLink_spec text (avoidOpenFence text (breakCut limit text))).1 with
    hsame | ⟨span, hspan, hlow, hstart⟩
  · have hguarded : guardedCut limit text = avoidOpenFence text (breakCut limit text) := hsame
    rw [if_neg (by omega), hguarded]
    by_cases hodd : (fenceIndices text (breakCut limit text)).length % 2 = 1
    · exact ⟨fun _ => fenceClean_avoidOpenFence hbreak hodd, fun _ heven => by omega⟩
    · have heven : (fenceIndices text (breakCut limit text)).length % 2 = 0 := by omega
      have hcut : avoidOpenFence text (breakCut limit text) = breakCut limit text := if_neg hodd
      rw [hcut]
      exact ⟨fun h => ⟨heven, h heven⟩, fun h _ => h.2⟩
  · have hguarded : guardedCut limit text = span.1 := hstart
    rw [if_pos (by omega), hguarded]
    exact ⟨fun h => ⟨h, uncut_fence_of_link hspan⟩, And.left⟩

/-- **When a cut divides no link.** -/
theorem keepsLinks_iff :
    KeepsLinks limit text ↔ Uncut LINK_SPAN text (chooseCut limit text) := by
  rw [chooseCut_eq]
  unfold KeepsLinks
  split
  · rename_i hzero
    exact ⟨fun h => h hzero, fun h _ => h⟩
  · rename_i hne
    exact ⟨fun _ => (avoidSplitLink_spec text _).2, fun _ hzero => absurd hzero hne⟩

/-! ## Blocks -/

/-- The fences taken by twos, from the beginning of the first to the end of the second. -/
def pairUp : List (Nat × Nat) → List (Nat × Nat)
  | opening :: closing :: spans => (opening.1, closing.2) :: pairUp spans
  | _ => []

theorem pairUp_append {front : List (Nat × Nat)} (back : List (Nat × Nat))
    (heven : front.length % 2 = 0) : pairUp (front ++ back) = pairUp front ++ pairUp back := by
  induction front using pairUp.induct with
  | case1 opening closing spans ih =>
    have hrest : spans.length % 2 = 0 := by
      simp only [length_cons] at heven
      omega
    show _ :: pairUp (spans ++ back) = _ :: (pairUp spans ++ pairUp back)
    rw [ih hrest]
  | case2 spans hspans =>
    cases spans with
    | nil => rfl
    | cons opening spans =>
      cases spans with
      | nil => cases heven
      | cons closing spans => exact absurd rfl (hspans opening closing spans)

theorem pairUp_shift (d : Nat) (spans : List (Nat × Nat)) :
    pairUp (spans.map (shift d)) = (pairUp spans).map (shift d) := by
  induction spans using pairUp.induct with
  | case1 opening closing spans ih => exact congrArg (_ :: ·) ih
  | case2 spans hspans =>
    cases spans with
    | nil => rfl
    | cons opening spans =>
      cases spans with
      | nil => rfl
      | cons closing spans => exact absurd rfl (hspans opening closing spans)

theorem exists_of_mem_pairUp {block : Nat × Nat} (h : block ∈ pairUp spans)
    : ∃ closing ∈ spans, block.2 = closing.2 := by
  induction spans using pairUp.induct with
  | case1 opening closing spans ih =>
    rcases mem_cons.mp h with rfl | hrest
    · exact ⟨closing, mem_cons_of_mem _ (mem_cons_self ..), rfl⟩
    · obtain ⟨span, hspan, hstop⟩ := ih hrest
      exact ⟨span, mem_cons_of_mem _ (mem_cons_of_mem _ hspan), hstop⟩
  | case2 spans hspans =>
    rw [pairUp] at h
    · exact absurd h not_mem_nil
    · exact hspans

def codeBlocks (text : List Char) : List (Nat × Nat) := pairUp (finditer FENCE text)

def linkSpans (text : List Char) : List (Nat × Nat) := finditer LINK_SPAN text

/-- A kind of block that is found again behind a cut: where the blocks of a text are, which cuts
divide none, which texts leave none open, and that blocks do not end with a blank. -/
structure Blocks where
  blocks : List Char → List (Nat × Nat)
  Clean : List Char → Nat → Prop
  Closed : List Char → Prop
  ends : ∀ {text : List Char}, ∀ block ∈ blocks text,
    ∃ k c, block.2 = k + 1 ∧ text[k]? = some c ∧ isSpace c = false
  behind : ∀ {text : List Char} {cut : Nat}, cut ≤ text.length → Clean text cut →
    (∃ front, blocks text = front ++
        (blocks (lstrip (text.drop cut))).map (shift (skipped text cut)) ∧
      ∀ block ∈ front, block.2 ≤ cut) ∧ (Closed text → Closed (lstrip (text.drop cut)))
  divided : ∀ {text : List Char} {cut : Nat}, cut ≤ text.length → Closed text →
    ¬Clean text cut → ∃ block ∈ blocks text, block.1 < cut ∧ cut < block.2

theorem finditer_ends (hsolid : Solid patterns)
    (hlast : ∀ prev s found, firstMatch patterns prev s = some found →
      ∃ front c, found.text = front ++ [c] ∧ isSpace c = false)
    (h : span ∈ finditer patterns text) :
    ∃ k c, span.2 = k + 1 ∧ text[k]? = some c ∧ isSpace c = false := by
  obtain ⟨prev, s, found, hmatch, hstop, htext⟩ := exists_match_of_mem_finditer hsolid h
  obtain ⟨front, c, hfront, hc⟩ := hlast prev s found hmatch
  rw [hfront, length_append, length_singleton] at hstop htext
  refine ⟨span.1 + front.length, c, hstop, ?_, hc⟩
  rw [htext front.length (Nat.lt_succ_self _), getElem?_append_right (Nat.le_refl _), Nat.sub_self]
  rfl

/-- The fences of the text are taken by twos without one that is left. -/
def FencesClosed (text : List Char) : Prop := (finditer FENCE text).length % 2 = 0

instance : Decidable (FencesClosed text) := inferInstanceAs (Decidable (_ = 0))

/-- **A cut that is not clean divides a code block.** -/
theorem exists_divided_codeBlock (hcut : cut ≤ text.length) (hclosed : FencesClosed text)
    (h : ¬FenceClean text cut) : ∃ block ∈ codeBlocks text, block.1 < cut ∧ cut < block.2 := by
  obtain ⟨a, b, hab, hfences, hle, hlater⟩ := exists_fences_take hcut
  have hspans : finditer FENCE text = spansFrom 0 a ++ spansFrom (joined a).length b := by
    show spansFrom 0 (segments FENCE text) = _
    rw [hab, spansFrom_append, Nat.zero_add]
  have hsorted := pairwise_spansFrom (joined a).length b
  have hthree : ∀ span ∈ finditer FENCE text, span.2 = span.1 + 3 :=
    fun span hspan => length_of_mem_fences hspan
  have hblock {front back : List (Nat × Nat)} {opening closing : Nat × Nat}
      (hsplit : finditer FENCE text = front ++ opening :: closing :: back)
      (heven : front.length % 2 = 0) : (opening.1, closing.2) ∈ codeBlocks text := by
    unfold codeBlocks
    rw [hsplit, pairUp_append _ heven]
    exact mem_append_right _ (mem_cons_self ..)
  have hclosed : (spansFrom 0 a ++ spansFrom (joined a).length b).length % 2 = 0 :=
    hspans ▸ hclosed
  rw [length_append] at hclosed
  by_cases hodd : (spansFrom 0 a).length % 2 = 1
  · rcases eq_nil_or_concat' (spansFrom 0 a) with hnil | ⟨front, opening, hfront⟩
    · rw [hnil] at hodd
      cases hodd
    cases hback : spansFrom (joined a).length b with
    | nil =>
      rw [hback, length_nil] at hclosed
      omega
    | cons closing back =>
      rw [hfront, length_append, length_singleton] at hodd
      rw [hfront, hback, append_assoc, singleton_append] at hspans
      refine ⟨_, hblock hspans (by omega), ?_, ?_⟩
      · have hopening : opening ∈ spansFrom 0 a :=
          hfront ▸ mem_append_right _ (mem_cons_self ..)
        have hstop := (le_of_mem_spansFrom hopening).2.2
        have hlength := hthree opening (hspans ▸ mem_append_right _ (mem_cons_self ..))
        show opening.1 < cut
        omega
      · exact hlater closing (hback ▸ mem_cons_self ..)
  · have hindices : (fenceIndices text cut).length % 2 = 0 := by
      unfold fenceIndices
      rw [hfences, length_map]
      omega
    have hinside : ¬Uncut FENCE text cut := fun huncut => h ⟨hindices, huncut⟩
    unfold Uncut at hinside
    push Not at hinside
    obtain ⟨opening, hopening, hlow, hhigh⟩ := hinside
    rw [hspans] at hopening
    rcases mem_append.mp hopening with hbefore | hopening
    · have hstop := (le_of_mem_spansFrom hbefore).2.2
      omega
    obtain ⟨early, back, hback⟩ := append_of_mem hopening
    have hearly : early = [] := by
      refine eq_nil_iff_forall_not_mem.mpr fun span hspan => ?_
      rw [hback] at hsorted hlater
      have hbefore := (pairwise_append.mp hsorted).2.2 span hspan opening
        (mem_cons_self ..)
      have hbehind := hlater span (mem_append_left _ hspan)
      omega
    rw [hearly, nil_append] at hback
    cases back with
    | nil =>
      rw [hback, length_singleton] at hclosed
      omega
    | cons closing back =>
      rw [hback] at hspans
      refine ⟨_, hblock hspans (by omega), hlow, ?_⟩
      rw [hback] at hsorted
      have hnext := (pairwise_cons.mp hsorted).1 closing (mem_cons_self ..)
      have hlength := hthree closing (hspans ▸ mem_append_right _
        (mem_cons_of_mem _ (mem_cons_self ..)))
      show cut < closing.2
      omega

/-- **Code blocks.** -/
def fences : Blocks where
  blocks := codeBlocks
  Clean := FenceClean
  Closed := FencesClosed
  ends := by
    intro text block hblock
    obtain ⟨closing, hclosing, hstop⟩ := exists_of_mem_pairUp hblock
    rw [hstop]
    refine finditer_ends solid_fence (fun prev s found hmatch => ?_) hclosing
    exact ⟨[backtick, backtick], backtick, firstMatch_fence hmatch, by decide⟩
  behind := by
    intro text cut hcut hclean
    obtain ⟨a, b, hab, hlength⟩ := hclean.2.exists_segments solid_fence hcut
    have hsplit := finditer_cut solid_fence blind_fence (fun c hc => fence_space hc) hab hlength
    have hfront : finditer FENCE (text.take cut) = spansFrom 0 a :=
      finditer_take hab (nil_append _).symm (by rw [append_nil, hlength]) (by decide)
    have heven : (spansFrom 0 a).length % 2 = 0 := by
      have hindices := hclean.1
      unfold fenceIndices at hindices
      rwa [length_map, hfront] at hindices
    refine ⟨⟨pairUp (spansFrom 0 a), ?_, fun block hblock => ?_⟩, fun hclosed => ?_⟩
    · show pairUp (finditer FENCE text) = _
      rw [hsplit, pairUp_append _ heven, pairUp_shift]
      rfl
    · obtain ⟨closing, hclosing, hstop⟩ := exists_of_mem_pairUp hblock
      have hle := (le_of_mem_spansFrom hclosing).2.2
      omega
    · unfold FencesClosed at hclosed ⊢
      rw [hsplit, length_append, length_map] at hclosed
      omega
  divided := exists_divided_codeBlock

/-- **Links.** -/
def links : Blocks where
  blocks := linkSpans
  Clean := Uncut LINK_SPAN
  Closed := fun _ => True
  ends := by
    intro text block hblock
    refine finditer_ends solid_linkSpan (fun prev s found hmatch => ?_) hblock
    obtain ⟨_, front, c, hfront, hc⟩ := firstMatch_linkSpan hmatch
    have hblank : ∀ c ∈ ['>', ')'], isSpace c = false :=
      forall_mem_cons.mpr ⟨rfl, forall_mem_singleton.mpr rfl⟩
    exact ⟨front, c, hfront, hblank c hc⟩
  behind := by
    intro text cut hcut hclean
    obtain ⟨a, b, hab, hlength⟩ := hclean.exists_segments solid_linkSpan hcut
    refine ⟨⟨spansFrom 0 a, ?_, fun block hblock => ?_⟩, id⟩
    · exact finditer_cut solid_linkSpan blind_linkSpan (fun c hc => linkSpan_space hc) hab hlength
    · have hle := (le_of_mem_spansFrom hblock).2.2
      omega
  divided := by
    intro text cut _ _ hinside
    unfold Uncut at hinside
    push Not at hinside
    exact hinside

end StackOwl.Channels
