import StackOwl.Durable.FailureClass
import StackOwl.Lib.Scan
import Mathlib.Data.List.DropRight

/-!
# The message splitter

`BaseMessageSplitter` (`channels/splitter.py`).  A text that is longer than `char_limit` is cut
pass by pass: behind the last paragraph break of the window, or behind its last sentence, or at
the limit; then the cut goes back before a code fence that is open there, and before a link that
is open there; and where nothing is left in front of the cut, it is the limit after all.

The text is a list of code points.

## Main results

* `chooseCut_bounds` — a cut leaves something in front of it, and no more than the limit.
* `pass_eq` — what a pass leaves out are blanks on both sides of its cut.
-/

namespace StackOwl.Channels

open Lib Durable List Option

/-! ## Patterns -/

def backtick : Char := Char.ofNat 0x60

/-- `_PARAGRAPH_RE`. -/
def PARAGRAPH : List (List (Item Char)) := [[.one (· = '\n'), .many (· = '\n') 1 none true]]

/-- `_SENTENCE_RE`. -/
def SENTENCE : List (List (Item Char)) :=
  [[.behind fun prev => prev.any (· ∈ ['.', '?', '!', '。', '？', '！']), .many isSpace 1 none true]]

/-- `_FENCE_RE`. -/
def FENCE : List (List (Item Char)) := [literal [backtick, backtick, backtick]]

/-- `_LINK_SPAN_RE`. -/
def LINK_SPAN : List (List (Item Char)) :=
  [[.one (· = '<'), .many (fun c => c ≠ '<' && c ≠ '>') 1 none true, .one (· = '>')],
   [.one (· = '['), .many (· ≠ ']') 1 none true, .one (· = ']'), .one (· = '('),
    .many (fun c => c ≠ ')' && !isSpace c) 1 none true, .one (· = ')')]]

def PARAGRAPH_LOOKBACK : Nat := 400

variable (text : List Char)

/-- `finditer`: where the matches are. -/
def finditer (patterns : List (List (Item Char))) (text : List Char) : List (Nat × Nat) :=
  spansFrom 0 (segments patterns text)

/-! ## Cuts -/

def findParagraphCut (window : List Char) : Option Nat :=
  let searchFrom := window.length - PARAGRAPH_LOOKBACK
  (finditer PARAGRAPH (window.drop searchFrom)).getLast?.map fun found => searchFrom + found.2

def findSentenceCut (window : List Char) : Option Nat :=
  (finditer SENTENCE window).getLast?.map Prod.snd

/-- `fence_indices` of `_avoid_open_fence`. -/
def fenceIndices (cut : Nat) : List Nat :=
  (finditer FENCE (text.take cut)).map Prod.fst

def avoidOpenFence (cut : Nat) : Nat :=
  if (fenceIndices text cut).length % 2 = 1 then (fenceIndices text cut).getLastD cut else cut

/-- The loop of `_avoid_split_link`. -/
def retreat (cut : Nat) : List (Nat × Nat) → Nat
  | [] => cut
  | (start, stop) :: spans =>
    if cut ≤ start then cut else if cut < stop then start else retreat cut spans

def avoidSplitLink (cut : Nat) : Nat := retreat cut (finditer LINK_SPAN text)

variable (limit : Nat)

/-- The cut `_choose_cut` starts with. -/
def breakCut (text : List Char) : Nat :=
  let window := text.take limit
  ((findParagraphCut window).or (findSentenceCut window)).getD limit

def chooseCut (text : List Char) : Nat :=
  let cut := breakCut limit text
  let cut := avoidOpenFence text cut
  let cut := avoidSplitLink text cut
  if cut ≤ 0 then limit else cut

/-! ## The loop -/

def lstrip : List Char := text.dropWhile isSpace

def rstrip : List Char := text.rdropWhile isSpace

def headOf (remaining : List Char) : List Char :=
  rstrip (remaining.take (chooseCut limit remaining))

/-- `remaining` behind a pass. -/
def restOf (remaining : List Char) : List Char :=
  lstrip (remaining.drop (chooseCut limit remaining))

/-- The loop of `split`, for so many passes at most. -/
def splitLoop (limit : Nat) : Nat → List (List Char) → List Char → Option (List (List Char))
  | 0, _, _ => none
  | fuel + 1, chunks, remaining =>
    if limit < remaining.length then
      let head := headOf limit remaining
      splitLoop limit fuel (if head ≠ [] then chunks ++ [head] else chunks)
        (restOf limit remaining)
    else some (if remaining ≠ [] then chunks ++ [remaining] else chunks)

def split (fuel : Nat) (text : List Char) : Option (List (List Char)) :=
  if text = [] then some []
  else if text.length ≤ limit then some [text]
  else splitLoop limit fuel [] text

/-- `TelegramMessageSplitter.char_limit`. -/
def telegramLimit : Nat := 3800

/-- The states of the loop: where `remaining` begins in the text, and `remaining`. -/
def states (limit : Nat) : Nat → Nat → List Char → List (Nat × List Char)
  | 0, _, _ => []
  | fuel + 1, start, remaining =>
    (start, remaining) ::
      if limit < remaining.length then
        states limit fuel (start + (remaining.length - (restOf limit remaining).length))
          (restOf limit remaining)
      else []

/-! ## Bounds -/

section
variable {patterns : List (List (Item Char))} {text}

theorem joined_segments (hsolid : Solid patterns) (text : List Char) :
    joined (segments patterns text) = text :=
  (segmented_segments hsolid none text).joined

theorem le_of_mem_finditer (hsolid : Solid patterns) {span : Nat × Nat}
    (h : span ∈ finditer patterns text) : span.1 ≤ span.2 ∧ span.2 ≤ text.length := by
  have hbounds := le_of_mem_spansFrom h
  rw [joined_segments hsolid, Nat.zero_add] at hbounds
  exact hbounds.2

theorem solid_paragraph : Solid PARAGRAPH := solid_of_items (by decide)

theorem solid_sentence : Solid SENTENCE := solid_of_items (by decide)

theorem solid_fence : Solid FENCE := solid_of_items (by decide)

theorem solid_linkSpan : Solid LINK_SPAN := solid_of_items (by decide)

variable {window : List Char} {cut : Nat}

theorem findParagraphCut_le (h : findParagraphCut window = some cut) : cut ≤ window.length := by
  unfold findParagraphCut at h
  obtain ⟨span, hspan, rfl⟩ := map_eq_some_iff.mp h
  have hle := (le_of_mem_finditer solid_paragraph (mem_of_getLast? hspan)).2
  rw [length_drop] at hle
  omega

theorem findSentenceCut_le (h : findSentenceCut window = some cut) : cut ≤ window.length := by
  obtain ⟨span, hspan, rfl⟩ := map_eq_some_iff.mp h
  exact (le_of_mem_finditer solid_sentence (mem_of_getLast? hspan)).2

theorem breakCut_le (text : List Char) : breakCut limit text ≤ limit := by
  have hwindow : (text.take limit).length ≤ limit := length_take_le limit text
  unfold breakCut
  dsimp only
  cases hparagraph : findParagraphCut (text.take limit) with
  | some cut =>
    have hcut := findParagraphCut_le hparagraph
    rw [some_or, getD_some]
    omega
  | none =>
    rw [none_or]
    cases hsentence : findSentenceCut (text.take limit) with
    | some cut =>
      have hcut := findSentenceCut_le hsentence
      rw [getD_some]
      omega
    | none => exact Nat.le_refl limit

theorem avoidOpenFence_le (text : List Char) (cut : Nat) : avoidOpenFence text cut ≤ cut := by
  unfold avoidOpenFence
  split
  · cases hlast : (fenceIndices text cut).getLast? with
    | none => rw [getLastD_eq_getLast?, hlast]; exact Nat.le_refl cut
    | some start =>
      obtain ⟨span, hspan, rfl⟩ := mem_map.mp (mem_of_getLast? hlast)
      have hbounds := le_of_mem_finditer solid_fence hspan
      have htake := length_take_le cut text
      rw [getLastD_eq_getLast?, hlast]
      show span.1 ≤ cut
      omega
  · exact Nat.le_refl cut

theorem retreat_le (cut : Nat) (spans : List (Nat × Nat)) : retreat cut spans ≤ cut := by
  induction spans with
  | nil => exact Nat.le_refl cut
  | cons span spans ih =>
    rw [retreat]
    split
    · exact Nat.le_refl cut
    · split
      · omega
      · exact ih

/-- **A cut leaves something in front of it**, and no more than the limit. -/
theorem chooseCut_bounds {limit : Nat} (hlimit : 1 ≤ limit) (text : List Char) :
    1 ≤ chooseCut limit text ∧ chooseCut limit text ≤ limit := by
  have hle : avoidSplitLink text (avoidOpenFence text (breakCut limit text)) ≤ limit :=
    (retreat_le _ _).trans ((avoidOpenFence_le text _).trans (breakCut_le limit text))
  unfold chooseCut
  dsimp only
  split <;> omega

end

/-! ## Passes -/

variable {limit} {remaining : List Char}

theorem length_restOf_le : (restOf limit remaining).length ≤
    remaining.length - chooseCut limit remaining := by
  have hsuffix := (dropWhile_suffix (l := remaining.drop (chooseCut limit remaining))
    isSpace).length_le
  rw [length_drop] at hsuffix
  exact hsuffix

theorem length_restOf_lt (hlimit : 1 ≤ limit) (hlong : limit < remaining.length) :
    (restOf limit remaining).length < remaining.length := by
  have hcut := (chooseCut_bounds hlimit remaining).1
  have hle := @length_restOf_le limit remaining
  omega

/-- **What a pass does to the text**: blanks on both sides of the cut are left out. -/
theorem pass_eq (limit : Nat) (remaining : List Char) :
    ∃ before after, (∀ c ∈ before ++ after, isSpace c = true) ∧
      headOf limit remaining ++ before = remaining.take (chooseCut limit remaining) ∧
      after ++ restOf limit remaining = remaining.drop (chooseCut limit remaining) := by
  refine ⟨_, _, fun c hc => ?_, rdropWhile_append_rtakeWhile,
    takeWhile_append_dropWhile⟩
  rcases mem_append.mp hc with hbefore | hafter
  · exact mem_rtakeWhile_imp hbefore
  · exact mem_takeWhile_imp hafter

theorem splitLoop_succ (fuel : Nat) (chunks : List (List Char)) :
    splitLoop limit (fuel + 1) chunks remaining =
      if limit < remaining.length then
        splitLoop limit fuel
          (if headOf limit remaining ≠ [] then chunks ++ [headOf limit remaining] else chunks)
          (restOf limit remaining)
      else some (if remaining ≠ [] then chunks ++ [remaining] else chunks) := rfl

end StackOwl.Channels
