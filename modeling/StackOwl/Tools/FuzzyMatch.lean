import Mathlib.Algebra.GroupWithZero.Nat
import StackOwl.Durable.FailureClass
import StackOwl.Tools.ApplyPatch

/-!
# Fuzzy matching

`tools/io/fuzzy_match.py`: a chain of strategies, each of which finds the regions of a text
that are a pattern in its eyes.  The first strategy that finds one decides.  Some match in a
copy of the text and take the positions back: by whole lines, by a table of what each
character became, or by walking text and copy at once.

What `SequenceMatcher.ratio` says of two texts is a parameter.

## Main results

* `locate_eq_some` — what is located is what its strategy finds.
* `fuzzyFindAndReplace_of_success` — a success replaces the one region that was found.
-/

namespace StackOwl.Tools

open Lib
open Durable (strip isSpace)

/-! ## Strategies -/

inductive Strategy where
  | exact
  | lineTrimmed
  | whitespaceNormalized
  | indentationFlexible
  | escapeNormalized
  | trimmedBoundary
  | unicodeNormalized
  | blockAnchor
  | contextAware
  deriving DecidableEq

def Strategy.name : Strategy → String
  | .exact => "exact"
  | .lineTrimmed => "line_trimmed"
  | .whitespaceNormalized => "whitespace_normalized"
  | .indentationFlexible => "indentation_flexible"
  | .escapeNormalized => "escape_normalized"
  | .trimmedBoundary => "trimmed_boundary"
  | .unicodeNormalized => "unicode_normalized"
  | .blockAnchor => "block_anchor"
  | .contextAware => "context_aware"

/-- The regions of a text, each by its start and its end. -/
abbrev Regions := List (Nat × Nat)

variable (content : List Char)

def slice (start stop : Nat) (content : List Char) : List Char :=
  (content.take stop).drop start

variable (text : List Char)

def splitLines : List (List Char) := text.splitOn '\n'

variable (lines : List (List Char))

/-- `"\n".join(lines)`. -/
def unlines : List Char := ['\n'].intercalate lines

def exactFrom (pattern : List Char) (position : Nat) : List Char → Regions
  | [] => if pattern = [] then [(position, position)] else []
  | c :: rest =>
    (if pattern.isPrefixOf (c :: rest) then [(position, position + pattern.length)] else []) ++
      exactFrom pattern (position + 1) rest

variable (pattern : List Char)

/-- `_strategy_exact`; regions may overlap. -/
def strategyExact : Regions := exactFrom pattern 0 content

def calculateLinePositions (startLine endLine contentLength : Nat) :
    Nat × Nat :=
  (((lines.take startLine).map fun line => line.length + 1).sum,
    min contentLength (((lines.take endLine).map fun line => line.length + 1).sum - 1))

def lineBlocks (count : Nat) (accepts : Nat → Bool) : Regions :=
  let lines := splitLines content
  ((List.range (lines.length + 1 - count)).filter accepts).map fun i =>
    calculateLinePositions lines i (i + count) content.length

def block (i count : Nat) : List (List Char) :=
  (lines.drop i).take count

def lstrip : List Char := text.dropWhile isSpace

def mapLines (trim : List Char → List Char) (text : List Char) : List Char :=
  unlines ((splitLines text).map trim)

/-- `_find_normalized_matches`, where the lines are trimmed. -/
def findNormalizedMatches (trim : List Char → List Char) (content pattern : List Char) :
    Regions :=
  let patternNormalized := mapLines trim pattern
  let count := (splitLines patternNormalized).length
  lineBlocks content count fun i =>
    unlines (block ((splitLines content).map trim) i count) == patternNormalized

def strategyLineTrimmed : Regions :=
  findNormalizedMatches strip content pattern

def strategyIndentationFlexible : Regions :=
  findNormalizedMatches lstrip content pattern

/-! ### Blanks -/

def isBlank (c : Char) : Bool := c = ' ' || c = '\t'

/-- What is left of a text whose front ended inside a run of blanks, or did not. -/
def collapseFrom : Bool → List Char → List Char
  | _, [] => []
  | inRun, c :: rest =>
    if isBlank c then
      if inRun then collapseFrom true rest else ' ' :: collapseFrom true rest
    else c :: collapseFrom false rest

/-- `re.sub(r"[ \t]+", " ", s)`. -/
def collapse : List Char := collapseFrom false text

/-- `orig_to_norm`: text and copy are walked at once. -/
def origToNorm (total : Nat) : List Char → List Char → Nat → List Nat
  | [], _, _ => []
  | _ :: rest, [], n => total :: origToNorm total rest [] n
  | c :: rest, m :: normalized, n =>
    if c = m then n :: origToNorm total rest normalized (n + 1)
    else if isBlank c && m == ' ' then
      if rest.head?.any fun next => !isBlank next then
        n :: origToNorm total rest normalized (n + 1)
      else n :: origToNorm total rest (m :: normalized) n
    else n :: origToNorm total rest (m :: normalized) n

def lastIndexFrom (x : Nat) (i : Nat) : List Nat → Option Nat
  | [] => none
  | y :: rest => (lastIndexFrom x (i + 1) rest).or (if y = x then some i else none)

/-- `_map_normalized_positions`, of one region. -/
def mapNormalizedPosition (original normalized : List Char) (region : Nat × Nat) : Nat × Nat :=
  let table := origToNorm normalized.length original normalized 0
  let start := (table.findIdx? (· == region.1)).getD
    ((table.findIdx? (region.1 ≤ ·)).getD 0)
  let stop := ((lastIndexFrom (region.2 - 1) 0 table).map (· + 1)).getD
    (start + (region.2 - region.1))
  -- blanks behind the region are taken in
  let stop := stop + ((original.drop stop).takeWhile isBlank).length
  (start, min stop original.length)

def strategyWhitespaceNormalized : Regions :=
  (strategyExact (collapse content) (collapse pattern)).map
    (mapNormalizedPosition content (collapse content))

/-! ### Escapes -/

/-- `s.replace("\\x", y)`. -/
def replaceEscape (x y : Char) : List Char → List Char
  | '\\' :: c :: rest =>
    if c = x then y :: replaceEscape x y rest else '\\' :: replaceEscape x y (c :: rest)
  | c :: rest => c :: replaceEscape x y rest
  | [] => []

def unescape : List Char :=
  replaceEscape 'r' '\r' (replaceEscape 't' '\t' (replaceEscape 'n' '\n' text))

def strategyEscapeNormalized : Regions :=
  if unescape pattern = pattern then [] else strategyExact content (unescape pattern)

/-! ### Boundaries -/

def trimFirst : List (List Char) → List (List Char)
  | [] => []
  | line :: rest => strip line :: rest

def trimLast : List (List Char) :=
  (trimFirst lines.reverse).reverse

/-- The first line trimmed, and the last of several. -/
def trimEnds : List (List Char) :=
  if lines.length > 1 then trimLast (trimFirst lines) else trimFirst lines

def strategyTrimmedBoundary : Regions :=
  let count := (splitLines pattern).length
  lineBlocks content count fun i =>
    unlines (trimEnds (block (splitLines content) i count)) ==
      unlines (trimEnds (splitLines pattern))

/-! ### Unicode -/

def UNICODE_MAP : List (Char × List Char) :=
  [('\u201c', ['"']), ('\u201d', ['"']), ('\u2018', ['\'']), ('\u2019', ['\'']),
    ('\u2014', ['-', '-']), ('\u2013', ['-']), ('\u2026', ['.', '.', '.']), ('\u00a0', [' '])]

def unicodeChar (c : Char) : List Char := (UNICODE_MAP.lookup c).getD [c]

/-- `_unicode_normalize`; what is put in is never replaced again. -/
def unicodeNormalize : List Char := text.flatMap unicodeChar

def buildOrigToNormMap (position : Nat) : List Char → List Nat
  | [] => [position]
  | c :: rest => position :: buildOrigToNormMap (position + (unicodeChar c).length) rest

/-- `_map_positions_norm_to_orig`, of one region; `none` where it starts inside what a
character became. -/
def mapPositionNormToOrig (table : List Nat) (region : Nat × Nat) : Option (Nat × Nat) :=
  (table.dropLast.findIdx? (· == region.1)).map fun start =>
    (start, start + ((table.dropLast.drop start).takeWhile (· < region.2)).length)

def strategyUnicodeNormalized : Regions :=
  let normPattern := unicodeNormalize pattern
  let normContent := unicodeNormalize content
  if normContent = content ∧ normPattern = pattern then []
  else
    let exactMatches := strategyExact normContent normPattern
    let normMatches :=
      if exactMatches = [] then strategyLineTrimmed normContent normPattern else exactMatches
    normMatches.filterMap (mapPositionNormToOrig (buildOrigToNormMap 0 content))

/-! ### Similarity -/

/-- `SequenceMatcher(None, a, b).ratio()`, as far as it is asked. -/
structure Similarity where
  /-- At least 0.50 for a unique block, 0.70 for one of several. -/
  middle : (unique : Bool) → List Char → List Char → Bool
  /-- At least 0.80. -/
  line : List Char → List Char → Bool

variable (similarity : Similarity)

def strategyBlockAnchor (content pattern : List Char) : Regions :=
  let patternLines := splitLines (unicodeNormalize pattern)
  let normLines := splitLines (unicodeNormalize content)
  let count := patternLines.length
  if count < 2 then []
  else
    let anchored := fun i =>
      strip (normLines.getD i []) == strip (patternLines.getD 0 []) &&
        strip (normLines.getD (i + count - 1) []) == strip (patternLines.getD (count - 1) [])
    let candidates := (List.range (normLines.length + 1 - count)).countP anchored
    lineBlocks content count fun i =>
      anchored i && (decide (count ≤ 2) ||
        similarity.middle (candidates = 1) (unlines (block normLines (i + 1) (count - 2)))
          (unlines (block patternLines 1 (count - 2))))

def strategyContextAware (content pattern : List Char) : Regions :=
  let patternLines := splitLines pattern
  let count := patternLines.length
  lineBlocks content count fun i =>
    let similar := (patternLines.zip (block (splitLines content) i count)).countP fun (p, c) =>
      similarity.line (strip p) (strip c)
    count ≤ 2 * similar

/-! ## The chain -/

def Strategy.regions (content pattern : List Char) :
    Strategy → Regions
  | .exact => strategyExact content pattern
  | .lineTrimmed => strategyLineTrimmed content pattern
  | .whitespaceNormalized => strategyWhitespaceNormalized content pattern
  | .indentationFlexible => strategyIndentationFlexible content pattern
  | .escapeNormalized => strategyEscapeNormalized content pattern
  | .trimmedBoundary => strategyTrimmedBoundary content pattern
  | .unicodeNormalized => strategyUnicodeNormalized content pattern
  | .blockAnchor => strategyBlockAnchor similarity content pattern
  | .contextAware => strategyContextAware similarity content pattern

def STRATEGIES : List Strategy :=
  [.exact, .lineTrimmed, .whitespaceNormalized, .indentationFlexible, .escapeNormalized,
    .trimmedBoundary, .unicodeNormalized, .blockAnchor, .contextAware]

/-- The first strategy that finds regions, with what it finds. -/
def locate (content pattern : List Char) :
    Option (Strategy × Regions) :=
  STRATEGIES.findSome? fun strategy =>
    let regions := strategy.regions similarity content pattern
    if regions = [] then none else some (strategy, regions)

/-! ## Replacing -/

/-- A suspect of `_detect_escape_drift`: a backslash and a quote, as `repr` writes the two
and as it writes the quote. -/
structure Suspect where
  text : List Char
  shown : String
  plain : String

def SUSPECTS : List Suspect :=
  [⟨['\\', '\''], "\"\\\\'\"", "\"'\""⟩, ⟨['\\', '"'], "'\\\\\"'", "'\"'"⟩]

def detectEscapeDrift (found : Regions) (oldString newString : List Char) :
    Option String :=
  let matchedRegions := found.flatMap fun region => slice region.1 region.2 content
  (SUSPECTS.find? fun suspect =>
    (findText suspect.text newString).isSome && (findText suspect.text oldString).isSome &&
      (findText suspect.text matchedRegions).isNone).map fun suspect =>
    "Escape-drift detected: old_string and new_string contain the literal sequence " ++
      suspect.shown ++ " but the matched region of the file does not. This is almost always " ++
      "a tool-call serialization artifact where an apostrophe or quote got prefixed with a " ++
      "spurious backslash. Re-read the file with read_file and pass old_string/new_string " ++
      "without backslash-escaping " ++ suspect.plain ++ " characters."

/-- `_apply_replacements`: from the last region to the first. -/
def applyReplacements (found : Regions) (newString : List Char) :
    List Char :=
  (found.mergeSort fun x y => y.1 ≤ x.1).foldl
    (fun result region => result.take region.1 ++ newString ++ result.drop region.2) content

def fuzzyFindAndReplace (content oldString newString : List Char) (replaceAll : Bool)
    : FuzzyResult :=
  if oldString = [] then
    { content, count := 0, error := some "old_string cannot be empty" }
  else if oldString = newString then
    { content, count := 0, error := some "old_string and new_string are identical" }
  else
    match locate similarity content oldString with
    | none =>
      { content, count := 0
        error := some "Could not find a match for old_string in the file" }
    | some (strategy, found) =>
      if 1 < found.length ∧ replaceAll = false then
        { content, count := 0
          error := some ("Found " ++ found.length.repr ++ " matches for old_string. Provide " ++
            "more context to make it unique, or use replace_all=True.") }
      else
        match if strategy = .exact then none
          else detectEscapeDrift content found oldString newString with
        | some drift => { content, count := 0, error := some drift }
        | none =>
          { content := applyReplacements content found newString, count := found.length
            strategy := some strategy.name }

/-! ### What a success is -/

variable {similarity}

theorem locate_eq_some {content pattern : List Char} {strategy : Strategy} {found : Regions}
    (h : locate similarity content pattern = some (strategy, found)) :
    strategy.regions similarity content pattern = found ∧ found ≠ [] := by
  obtain ⟨candidate, -, hfound⟩ := List.exists_of_findSome?_eq_some h
  dsimp only at hfound
  split at hfound
  · cases hfound
  · rename_i hne
    cases hfound
    exact ⟨rfl, hne⟩

/-- Without `replace_all`, a success has put the new text in the place of one region. -/
theorem fuzzyFindAndReplace_of_success {content oldString newString : List Char}
    (h : (fuzzyFindAndReplace similarity content oldString newString false).count ≠ 0) :
    ∃ strategy region, locate similarity content oldString = some (strategy, [region]) ∧
      fuzzyFindAndReplace similarity content oldString newString false =
        { content := content.take region.1 ++ newString ++ content.drop region.2, count := 1
          strategy := some strategy.name } := by
  unfold fuzzyFindAndReplace at h ⊢
  split at h
  · exact absurd rfl h
  split at h
  · exact absurd rfl h
  rename_i hgiven hnew
  rw [if_neg hgiven, if_neg hnew]
  cases hlocate : locate similarity content oldString with
  | none =>
    rw [hlocate] at h
    exact absurd rfl h
  | some located =>
    obtain ⟨strategy, found⟩ := located
    rw [hlocate] at h
    dsimp only at h ⊢
    split at h
    · exact absurd rfl h
    rename_i hunique
    have hnonempty := (locate_eq_some hlocate).2
    have hone : found.length = 1 := by
      have hpositive := List.length_pos_iff.mpr hnonempty
      have hfew : ¬ 1 < found.length := fun hmany => hunique ⟨hmany, rfl⟩
      omega
    obtain ⟨region, rfl⟩ := List.length_eq_one_iff.mp hone
    split at h
    · exact absurd rfl h
    refine ⟨strategy, region, rfl, ?_⟩
    rw [if_neg hunique, applyReplacements, List.mergeSort_singleton]
    rfl

end StackOwl.Tools
