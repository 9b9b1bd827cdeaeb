import Mathlib.Data.List.DropRight
import Mathlib.Data.List.Infix

/-!
# Naming what went wrong

The retry policy's vocabulary (`pipeline/durable/failure_class.py`): a failure
text is classified by the first pattern of a table one of whose needles it
contains, and the class decides whether repeating the work can help.

The table is matched against `error.strip().casefold()`.  Every needle is
ASCII, so `casefold` needs only the characters whose folding contains an ASCII
character; every other character folds to text no needle can meet.
-/

namespace StackOwl.Durable

/-! ## Text -/

/-- `str.isspace` for one character, as `str.strip` uses it. -/
def isSpace (c : Char) : Bool :=
  (0x9 ≤ c.toNat && c.toNat ≤ 0xD) || (0x1C ≤ c.toNat && c.toNat ≤ 0x20) ||
  c.toNat == 0x85 || c.toNat == 0xA0 || c.toNat == 0x1680 ||
  (0x2000 ≤ c.toNat && c.toNat ≤ 0x200A) || c.toNat == 0x2028 ||
  c.toNat == 0x2029 || c.toNat == 0x202F || c.toNat == 0x205F ||
  c.toNat == 0x3000

/-- `str.strip()`. -/
def strip (text : List Char) : List Char :=
  ((text.dropWhile isSpace).reverse.dropWhile isSpace).reverse

section

theorem strip_eq (text : List Char) :
    strip text = (text.dropWhile isSpace).rdropWhile isSpace := rfl

theorem strip_sublist (text : List Char) : (strip text).Sublist text :=
  (List.rdropWhile_prefix isSpace _).sublist.trans (List.dropWhile_suffix _).sublist

variable {text : List Char} {c : Char}

theorem head_strip {rest : List Char} (h : strip text = c :: rest) :
    isSpace c = false := by
  obtain ⟨t, ht⟩ := List.rdropWhile_prefix isSpace (text.dropWhile isSpace)
  rw [← strip_eq, h, List.cons_append] at ht
  have hhead := List.head?_dropWhile_not isSpace text
  rw [← ht] at hhead
  simpa using hhead

theorem last_strip (h : strip text ≠ []) : isSpace ((strip text).getLast h) = false :=
  Bool.eq_false_iff.mpr (List.rdropWhile_last_not isSpace (text.dropWhile isSpace) h)

theorem strip_eq_self {rest : List Char} (hc : isSpace c = false)
    (hlast : isSpace ((c :: rest).getLast (List.cons_ne_nil c rest)) = false) :
    strip (c :: rest) = c :: rest := by
  rw [strip_eq, List.dropWhile_cons_of_neg (by simp [hc]), List.rdropWhile_eq_self_iff]
  intro _
  simp [hlast]

theorem strip_strip (text : List Char) : strip (strip text) = strip text := by
  cases h : strip text with
  | nil => rfl
  | cons c rest =>
    have hne : strip text ≠ [] := by simp [h]
    have hlast := last_strip hne
    simp only [h] at hlast
    exact strip_eq_self (head_strip h) hlast

end

/-- `not text.strip()`. -/
def blank (text : String) : Bool := text.toList.all isSpace

/-- `not (text or "").strip()`. -/
def blankOrNone : Option String → Bool
  | none => true
  | some text => blank text

/-- `str.casefold` of one character, exact wherever the result contains an ASCII
character. -/
def casefoldChar (c : Char) : List Char :=
  if 0x41 ≤ c.toNat && c.toNat ≤ 0x5A then
    [Char.ofNat (c.toNat + 32)]
  else match c.toNat with
    | 0xDF | 0x1E9E => ['s', 's']
    | 0x130 => ['i', '\u0307']
    | 0x149 => ['\u02bc', 'n']
    | 0x17F => ['s']
    | 0x1F0 => ['j', '\u030c']
    | 0x1E96 => ['h', '\u0331']
    | 0x1E97 => ['t', '\u0308']
    | 0x1E98 => ['w', '\u030a']
    | 0x1E99 => ['y', '\u030a']
    | 0x1E9A => ['a', '\u02be']
    | 0x212A => ['k']
    | 0xFB00 => ['f', 'f']
    | 0xFB01 => ['f', 'i']
    | 0xFB02 => ['f', 'l']
    | 0xFB03 => ['f', 'f', 'i']
    | 0xFB04 => ['f', 'f', 'l']
    | 0xFB05 | 0xFB06 => ['s', 't']
    | _ => [c]

def casefold (text : List Char) : List Char := text.flatMap casefoldChar

/-! ## Classes -/

/-- `_PATTERNS`: needles and the class they name, checked in order. -/
def PATTERNS : List (List String × String) :=
  [ (["budget:stop:", "cost_budget_stopped"], "budget"),
    (["401", "403", "unauthorized", "forbidden", "invalid api key",
      "authentication", "permission denied"], "auth"),
    (["404", "not found", "no such file", "does not exist"], "not_found"),
    (["resume transcript", "resumetranscripterror", "invalid resume"], "corrupt_state"),
    (["timeout", "timed out", "deadline exceeded"], "timeout"),
    (["connection refused", "connection reset", "temporarily unavailable",
      "503", "502", "econnrefused"], "transient"),
    (["malformed job"], "permanent") ]

/-- The first class of the table one of whose needles occurs in the text. -/
def firstMatch (text : List Char) : List (List String × String) → String
  | [] => ""
  | (needles, cls) :: rest =>
    if needles.any (fun n => n.toList <:+: text) then cls
    else firstMatch text rest

/-- `classify_failure` of a recorded text; `""` when the class is unknown. -/
def classifyFailure (error : Option String) : String :=
  match error with
  | none => ""
  | some message =>
    let text := casefold (strip message.toList)
    if text = [] then "" else firstMatch text PATTERNS

def PERMANENT_CLASSES_FALLBACK : List String :=
  ["permanent", "auth", "not_found", "refused"]

def SMALL_CEILING_CLASSES : List String :=
  ["unachieved_effect", "blocked_capability", "floored_turn"]

example : classifyFailure (some " HTTP 401 UNAUTHORIZED ") = "auth" := by decide

end StackOwl.Durable
