import StackOwl.Durable.FailureClass
import StackOwl.Lib.Delimited
import StackOwl.Lib.Run
import StackOwl.Tools.TextFiles

/-!
# Curated memory

`CuratedMemory` (`memory/curated.py`) keeps what it is told in one file a target: entries with
their durability in front, a delimiter between them.  `add` refuses past a budget, once it has
dropped the oldest entries that are only kept until changed.

A file is written with the line endings of the system, which are line feeds, and read with
universal newlines.  A store holds anything entries can be read from and written to (`Format`), so
that the same calls run on files of text and on lists.

What `_alias_lookup` returns may change between two calls; `str.casefold` is a parameter.
-/

namespace StackOwl.Memory

open Durable Lib Tools

/-! ## Entries -/

/-- `DURABILITIES`. -/
inductive Durability where
  | permanent
  | untilChanged
  deriving DecidableEq

def Durability.name : Durability → String
  | .permanent => "permanent"
  | .untilChanged => "until_changed"

def Durability.ofName (name : String) : Option Durability :=
  [Durability.permanent, .untilChanged].find? fun d => d.name = name

structure Entry where
  text : List Char
  durability : Durability
  deriving DecidableEq

/-- `[permanent]` or `[until_changed]`. -/
def marker (durability : Durability) : List Char := '[' :: (durability.name.toList ++ [']'])

def Entry.rendered (e : Entry) : List Char := marker e.durability ++ ' ' :: e.text

/-- `Entry.parse`; after the marker, `_DURABILITY_RE` takes blanks and then the rest. -/
def Entry.parse (raw : List Char) : Entry :=
  match [Durability.permanent, .untilChanged].find? fun d => marker d <+: strip raw with
  | some durability =>
    { text := strip ((strip raw).drop (marker durability).length), durability }
  | none => { text := strip raw, durability := .permanent }

def ENTRY_DELIMITER : List Char := ['\n', '§', '\n']

def render (entries : List Entry) : List Char :=
  ENTRY_DELIMITER.intercalate (entries.map Entry.rendered)

variable (text : List Char)

def contain : List Char := strip (replaceAll ENTRY_DELIMITER ['\n'] text)

/-- How entries are kept. -/
structure Format (β : Type*) where
  read : β → List Entry
  write : List Entry → β

/-- A file of text, as `entries` reads it and `_write` writes it. -/
def textFormat : Format (List Char) where
  read raw :=
    ((splitOn ENTRY_DELIMITER (normalizeNewlines raw)).filter fun chunk => strip chunk ≠ []).map
      Entry.parse
  write entries := render entries ++ ['\n']

def listFormat : Format (List Entry) where
  read := id
  write := id

/-! ## Budgets -/

def USER_TARGET : String := "user"

def USER_BUDGET_CHARS : Nat := 1375

def OWL_BUDGET_CHARS : Nat := 2200

variable (target : String)

def budgetFor : Nat :=
  if target = USER_TARGET then USER_BUDGET_CHARS else OWL_BUDGET_CHARS

/-- `_effective_budget`; `UNTIL_CHANGED_RESERVE_SHARE` is a quarter. -/
def effectiveBudget : Durability → Nat
  | .permanent => budgetFor target * 3 / 4
  | .untilChanged => budgetFor target

/-- `_max_entry_chars`; `MAX_ENTRY_BUDGET_FRACTION` is a half. -/
def maxEntryChars : Nat := budgetFor target / 2

/-- The loop of `_evict_to_fit`: what is kept, and what is not.  Each turn drops an entry. -/
def evictFrom (budget : Nat) : Nat → List Entry → List Entry × List Entry
  | 0, kept => (kept, [])
  | turns + 1, kept =>
    if (render kept).length ≤ budget then (kept, [])
    else
      match kept.dropLast.findIdx? fun e => e.durability = .untilChanged with
      | none => (kept, [])
      | some oldest =>
        let (later, evicted) := evictFrom budget turns (kept.eraseIdx oldest)
        (later, (kept[oldest]?).toList ++ evicted)

def evictToFit (candidate : List Entry) (budget : Nat) : List Entry × List Entry :=
  evictFrom budget candidate.length candidate

/-! ## Files -/

/-- `_SAFE_TARGET_RE.match`; its `$` also stands before a newline at the end. -/
def isSafeTarget : Bool :=
  let rest := target.toList.tail
  target.toList.head?.any Char.isAlphanum &&
    (rest.takeWhile (fun c => c.isAlphanum || c == '_' || c == '-')).length ≤ 63 &&
    (rest.dropWhile (fun c => c.isAlphanum || c == '_' || c == '-') == [] ||
      rest.dropWhile (fun c => c.isAlphanum || c == '_' || c == '-') == ['\n'])

section
variable (casefold : String → String)

/-- `resolve_target`, where `stems` are those of the files there are. -/
def resolveTarget (aliases : List (String × String)) (stems : List String) (target : String) :
    String :=
  if target = USER_TARGET then target
  else
    match (aliases.lookup (casefold target)).filter (· ≠ "") with
    | some canonical => canonical
    | none =>
      if target ∈ stems then target
      else
        match (stems.filter fun stem => casefold stem = casefold target).dedup with
        | [stem] => stem
        | _ => target

/-- `path_for`, without the suffix; `none` where it raises `ValueError`. -/
def stemFor (aliases : List (String × String)) (stems : List String) (target : String) :
    Option String :=
  if target = USER_TARGET then some "USER"
  else if isSafeTarget (resolveTarget casefold aliases stems target) then
    some (resolveTarget casefold aliases stems target)
  else none

/-- The store: what `_alias_lookup` returns, and the files by their stems. -/
structure CuratedMemory (β : Type*) where
  aliases : List (String × String)
  files : List (String × β)

variable {β : Type*} (F : Format β)

namespace CuratedMemory

variable (m : CuratedMemory β)

def pathFor (target : String) : Option String :=
  stemFor casefold m.aliases (m.files.map Prod.fst) target

def entriesAt (stem : String) : List Entry :=
  match m.files.lookup stem with
  | some content => F.read content
  | none => []

/-- `entries`; `none` where it raises `ValueError`. -/
def entries (target : String) : Option (List Entry) :=
  (m.pathFor casefold target).map (m.entriesAt F)

def put (stem : String) (content : β) : CuratedMemory β :=
  { m with
    files :=
      if stem ∈ m.files.map Prod.fst then
        m.files.map fun file => if file.1 = stem then (stem, content) else file
      else m.files ++ [(stem, content)] }

end CuratedMemory

/-! ## Calls -/

inductive MemoryCall where
  | add (target text durability : String)
  | replace (target oldText newText durability : String)
  | remove (target text : String)
  /-- The aliases become others. -/
  | useAliases (aliases : List (String × String))

/-- What a call comes to: it writes the entries of a file, finds what it would add there, or
refuses (or raises). -/
inductive Verdict where
  | stores (stem : String) (entries : List Entry)
  | present
  | refused

/-- `add`, where the entries that are there are `existing`. -/
def planAdd (text : List Char) (durability : Durability) (stem : String) (existing : List Entry)
    : Verdict :=
  if existing.any fun e => e.text = text then .present
  else
    let candidate := existing ++ [⟨text, durability⟩]
    let budget := effectiveBudget target durability
    let candidate :=
      if budget < (render candidate).length then (evictToFit candidate budget).1 else candidate
    if budget < (render candidate).length then .refused else .stores stem candidate

/-- `replace`: the first entry that has the old text in it is the one. -/
def planReplace (oldText newText : List Char) (durability : Durability) (stem : String)
    (existing : List Entry) : Verdict :=
  match existing.findIdx? fun e => strip oldText <:+: e.text with
  | none => .refused
  | some i =>
    let updated := existing.set i { text := newText, durability }
    if effectiveBudget target durability < (render updated).length then .refused
    else .stores stem updated

/-- `remove`. -/
def planRemove (stem : String) (existing : List Entry) : Verdict :=
  let keep := existing.filter fun e => !(strip text <:+: e.text)
  if keep.length = existing.length then .refused else .stores stem keep

/-- The checks of `add` and `replace` on what is to be written. -/
def admitted (text : List Char) (durability : String) : Option Durability :=
  if text = [] then none
  else if maxEntryChars target < text.length then none
  else Durability.ofName durability

/-- What a call does with the entries that are there; `path` is `path_for`, and `existing` what
is in a file. -/
def plan (path : String → Option String) (existing : String → List Entry) : MemoryCall → Verdict
  | .add target text durability =>
    match admitted target (contain text.toList) durability, path target with
    | some d, some stem => planAdd target (contain text.toList) d stem (existing stem)
    | _, _ => .refused
  | .replace target oldText newText durability =>
    match admitted target (contain newText.toList) durability, path target with
    | some d, some stem =>
      planReplace target oldText.toList (contain newText.toList) d stem (existing stem)
    | _, _ => .refused
  | .remove target text =>
    match path target with
    | some stem => planRemove text.toList stem (existing stem)
    | none => .refused
  | .useAliases _ => .refused

namespace CuratedMemory

def verdict (m : CuratedMemory β) (call : MemoryCall) : Verdict :=
  plan (m.pathFor casefold) (m.entriesAt F) call

def step (m : CuratedMemory β) (call : MemoryCall) : CuratedMemory β :=
  match call with
  | .useAliases aliases => { m with aliases }
  | call =>
    match m.verdict casefold F call with
    | .stores stem entries => m.put stem (F.write entries)
    | _ => m

end CuratedMemory

end

/-! ## What is claimed -/

/-- The files, and the lists that the same calls make of plain lists. -/
abbrev Twin := CuratedMemory (List Char) × CuratedMemory (List Entry)

section
variable (casefold : String → String)

def twinStep (w : Twin) (call : MemoryCall) : Twin :=
  (w.1.step casefold textFormat call, w.2.step casefold listFormat call)

/-- Every target has exactly the entries of the plain list, and writing them again would leave
them as they are. -/
def Faithful (w : Twin) : Prop := ∀ target,
  w.1.entries casefold textFormat target = w.2.entries casefold listFormat target ∧
    ∀ entries ∈ w.1.entries casefold textFormat target,
      textFormat.read (textFormat.write entries) = entries

/-! ## Conditions -/

/-- A text that a file gives back: no carriage return is in it, and no delimiter in it or made by
it and the line feed that follows. -/
def Clean : Prop := '\r' ∉ text ∧ ¬ENTRY_DELIMITER <:+: text ++ ['\n']

instance (text : List Char) : Decidable (Clean text) :=
  inferInstanceAs (Decidable ('\r' ∉ text ∧ ¬ENTRY_DELIMITER <:+: text ++ ['\n']))

def MemoryCall.contained? : MemoryCall → Option (List Char)
  | .add _ text _ => some (contain text.toList)
  | .replace _ _ newText _ => some (contain newText.toList)
  | .remove .. | .useAliases _ => none

def StoresClean (w : Twin) (call : MemoryCall) : Prop :=
  ∀ stem entries, w.1.verdict casefold textFormat call = .stores stem entries →
    ∀ text ∈ call.contained?, Clean text

end

end StackOwl.Memory
