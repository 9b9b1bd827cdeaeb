import StackOwl.Lib.Lines
import StackOwl.Lib.Regex
import StackOwl.Memory.CuratedRuns
import StackOwl.Tools.ApplyPatch

/-!
# Reading a patch

`parse_v4a_patch` (`tools/io/patch_parser.py`).  The lines between two markers are read one by
one: a header opens an operation, a line that starts with `@@` a hunk, any other line is one of
the hunk's.
-/

namespace StackOwl.Tools

open Lib Durable Memory

/-! ## Lines -/

/-- `.` of a pattern. -/
def notNewline (c : Char) : Bool := c ≠ '\n'

/-- `\*\*\*\s*<word>\s+File:\s*(.+)`. -/
def fileHeaderPattern (word : String) : List (Item Char) :=
  literal ['*', '*', '*'] ++ .many isSpace 0 none true :: (literal word.toList ++
    .many isSpace 1 none true :: (literal ['F', 'i', 'l', 'e', ':'] ++
      [.many isSpace 0 none true, .group notNewline true]))

/-- `\*\*\*\s*Move\s+File:\s*(.+?)\s*->\s*(.+)`. -/
def moveHeaderPattern : List (Item Char) :=
  literal ['*', '*', '*'] ++ .many isSpace 0 none true :: (literal ['M', 'o', 'v', 'e'] ++
    .many isSpace 1 none true :: (literal ['F', 'i', 'l', 'e', ':'] ++
      .many isSpace 0 none true :: .group notNewline false :: .many isSpace 0 none true ::
        (literal ['-', '>'] ++ [.many isSpace 0 none true, .group notNewline true])))

/-- `@@\s*(.+?)\s*@@`. -/
def hintPattern : List (Item Char) :=
  literal ['@', '@'] ++ .many isSpace 0 none true :: .group notNewline false ::
    .many isSpace 0 none true :: literal ['@', '@']

variable (line : List Char)

/-- `update_match`, `add_match` or `delete_match`, with `group(1).strip()`. -/
def fileHeader (word : String) (line : List Char) : Option String :=
  match captures (fileHeaderPattern word) none line with
  | some [path] => some (String.ofList (strip path))
  | _ => none

/-- `move_match`, with both groups stripped. -/
def moveHeader : Option (String × String) :=
  match captures moveHeaderPattern none line with
  | some [src, dst] => some (String.ofList (strip src), String.ofList (strip dst))
  | _ => none

/-- `hint_match`. -/
def contextHint : Option String :=
  match captures hintPattern none line with
  | some [hint] => some (String.ofList hint)
  | _ => none

/-! ## The line machine -/

def PatchOperation.withHunk (op : PatchOperation) : Option Hunk → PatchOperation
  | some hunk => if hunk.lines = [] then op else { op with hunks := op.hunks ++ [hunk] }
  | none => op

def Hunk.readLine (hunk : Hunk) (c : Char) (rest : List Char) : Hunk :=
  if c = '+' then { hunk with lines := hunk.lines ++ [⟨.added, String.ofList rest⟩] }
  else if c = '-' then { hunk with lines := hunk.lines ++ [⟨.removed, String.ofList rest⟩] }
  else if c = ' ' then { hunk with lines := hunk.lines ++ [⟨.context, String.ofList rest⟩] }
  else if c = '\\' then hunk
  else { hunk with lines := hunk.lines ++ [⟨.context, String.ofList (c :: rest)⟩] }

/-- What the loop over the lines carries. -/
structure Scan where
  operations : List PatchOperation := []
  currentOp : Option PatchOperation := none
  currentHunk : Option Hunk := none

def Scan.saved (s : Scan) : List PatchOperation :=
  match s.currentOp with
  | some op => s.operations ++ [op.withHunk s.currentHunk]
  | none => s.operations

/-- A line that starts with `@@`. -/
def Scan.openHunk (s : Scan) (line : List Char) : Scan :=
  match s.currentOp with
  | some op =>
    { s with
        currentOp := some (op.withHunk s.currentHunk)
        currentHunk := some { contextHint := contextHint line } }
  | none => s

/-- A line of a hunk; an empty one, and one outside every operation, is passed over. -/
def Scan.addLine (s : Scan) (line : List Char) : Scan :=
  match s.currentOp, line with
  | some _, c :: rest => { s with currentHunk := some ((s.currentHunk.getD {}).readLine c rest) }
  | _, _ => s

def Scan.step (s : Scan) (line : List Char) : Scan :=
  match fileHeader "Update" line, fileHeader "Add" line, fileHeader "Delete" line,
      moveHeader line with
  | some path, _, _, _ =>
    { operations := s.saved, currentOp := some { operation := .update, filePath := path } }
  | none, some path, _, _ =>
    { operations := s.saved, currentOp := some { operation := .add, filePath := path },
      currentHunk := some {} }
  | none, none, some path, _ =>
    { operations := s.saved ++ [{ operation := .delete, filePath := path }] }
  | none, none, none, some (src, dst) =>
    { operations := s.saved ++ [{ operation := .move, filePath := src, newPath := some dst }] }
  | none, none, none, none =>
    if ['@', '@'] <+: line then s.openHunk line else s.addLine line

/-! ## The markers -/

def hasBegin : Bool :=
  "*** Begin Patch".toList <:+: line || "***Begin Patch".toList <:+: line

def hasEnd : Bool :=
  "*** End Patch".toList <:+: line || "***End Patch".toList <:+: line

/-- `start_idx` and `end_idx`, from the `i`-th line on. -/
def findMarkers : Nat → List (List Char) → Option Nat → Option Nat × Option Nat
  | _, [], start => (start, none)
  | i, line :: lines, start =>
    if hasBegin line then findMarkers (i + 1) lines (some i)
    else if hasEnd line then (start, some i)
    else findMarkers (i + 1) lines start

def patchLines (lines : List (List Char)) : List (List Char) :=
  let markers := findMarkers 0 lines none
  (lines.take (markers.2.getD lines.length)).drop (markers.1.elim 0 (· + 1))

/-- The operations `parse_v4a_patch` reads. -/
def scanPatch (patch : String) : List PatchOperation :=
  ((patchLines (patch.toList.splitOn '\n')).foldl Scan.step {}).saved

/-! ## Writing a patch -/

/-- `HunkLine.prefix`. -/
def LineMark.char : LineMark → Char
  | .context => ' '
  | .removed => '-'
  | .added => '+'

def HunkLine.render (line : HunkLine) : List Char := line.mark.char :: line.content.toList

def renderHint : Option String → List Char
  | none => ['@', '@']
  | some hint => ['@', '@', ' '] ++ (hint.toList ++ [' ', '@', '@'])

def Hunk.render (hunk : Hunk) : List (List Char) :=
  renderHint hunk.contextHint :: hunk.lines.map HunkLine.render

def fileLine (word : String) (path : String) : List Char :=
  "*** ".toList ++ (word.toList ++ (" File: ".toList ++ path.toList))

/-- The lines of an operation.  The content of a new file has no `@@` line. -/
def PatchOperation.render (op : PatchOperation) : List (List Char) :=
  match op.operation with
  | .update => fileLine "Update" op.filePath :: op.hunks.flatMap Hunk.render
  | .add => fileLine "Add" op.filePath :: op.hunks.flatMap (·.lines.map HunkLine.render)
  | .delete => [fileLine "Delete" op.filePath]
  | .move => [fileLine "Move" (op.filePath ++ " -> " ++ op.newPath.getD "")]

/-- The lines between the markers of a patch that is written. -/
def renderBody (ops : List PatchOperation) : List (List Char) :=
  ops.flatMap PatchOperation.render

def renderPatch (ops : List PatchOperation) : String :=
  String.ofList (['\n'].intercalate
    ("*** Begin Patch".toList :: renderBody ops ++ ["*** End Patch".toList]))

end StackOwl.Tools
