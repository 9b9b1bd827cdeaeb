import Mathlib.Data.List.Sort

/-!
# JSON texts

JSON values as a language's standard encoder prints them with sorted keys and
without escaping letters outside ASCII: `", "` and `": "` as separators, the
quotation mark, the backslash and every control character escaped.

A float is carried as the text it prints as, and so is a value of a type the encoder
does not know; of a float that is read, that is the text it was written as.

## Main results

* `dumps_plain` — no printed value holds a control character, so control characters
  can separate printed values from other texts.
-/

namespace StackOwl.Lib

open List

def Plain (text : String) : Prop := ∀ c ∈ text.toList, 32 ≤ c.toNat

instance (text : String) : Decidable (Plain text) :=
  decidableBAll _ text.toList

structure FloatText where
  text : String
  plain : Plain text
  deriving DecidableEq

/-- A JSON value; the fields of an object in the order they were set. -/
inductive Json where
  | null
  | bool (b : Bool)
  | int (n : Int)
  | float (x : FloatText)
  | str (s : String)
  | arr (items : List Json)
  | obj (fields : List (String × Json))
  /-- A value of another type, printed as the string it converts to. -/
  | other (text : String)

/-! ## Printing -/

variable (c : Char)

def escapeChar : List Char :=
  if c = '"' then ['\\', '"']
  else if c = '\\' then ['\\', '\\']
  else if c.toNat = 10 then ['\\', 'n']
  else if c.toNat = 13 then ['\\', 'r']
  else if c.toNat = 9 then ['\\', 't']
  else if c.toNat = 12 then ['\\', 'f']
  else if c.toNat = 8 then ['\\', 'b']
  else if c.toNat < 32 then
    ['\\', 'u', '0', '0', Nat.digitChar (c.toNat / 16), Nat.digitChar (c.toNat % 16)]
  else [c]

def quote (s : String) : String :=
  String.ofList (['"'] ++ s.toList.flatMap escapeChar ++ ['"'])

def sortFields (fields : List (String × String)) : List (String × String) :=
  fields.insertionSort (fun a b => ¬ b.1 < a.1)

def printField (field : String × String) : String :=
  quote field.1 ++ ": " ++ field.2

def printObject (fields : List (String × String)) : String :=
  "\x7b" ++ ", ".intercalate ((sortFields fields).map printField) ++ "\x7d"

mutual

def dumps : Json → String
  | .null => "null"
  | .bool true => "true"
  | .bool false => "false"
  | .int n => toString n
  | .float x => x.text
  | .str s => quote s
  | .arr items => "[" ++ ", ".intercalate (dumpsItems items) ++ "]"
  | .obj fields => printObject (dumpsFields fields)
  | .other text => quote text

def dumpsItems : List Json → List String
  | [] => []
  | item :: items => dumps item :: dumpsItems items

def dumpsFields : List (String × Json) → List (String × String)
  | [] => []
  | (key, value) :: fields => (key, dumps value) :: dumpsFields fields

end

/-! ## Plain texts -/

theorem plain_append {s t : String} (hs : Plain s) (ht : Plain t) :
    Plain (s ++ t) := by
  intro c hc
  rw [String.toList_append, mem_append] at hc
  exact hc.elim (hs c) (ht c)

theorem plain_intercalate {sep : String} {parts : List String} (hsep : Plain sep)
    (hparts : ∀ part ∈ parts, Plain part) : Plain (sep.intercalate parts) := by
  intro c hc
  rw [String.toList_intercalate] at hc
  induction parts with
  | nil => simp at hc
  | cons part rest ih =>
    have hpart := hparts part mem_cons_self
    have hrest := fun p hp => hparts p (mem_cons_of_mem _ hp)
    cases rest with
    | nil => exact hpart c (by simpa using hc)
    | cons next rest =>
      rw [map_cons, map_cons, intercalate_cons_cons,
        append_assoc, mem_append, mem_append] at hc
      rcases hc with hc | hc | hc
      · exact hpart c hc
      · exact hsep c hc
      · exact ih hrest hc

theorem of_all {cs : List Char} (h : (cs.all fun c => 32 ≤ c.toNat) = true) :
    ∀ c ∈ cs, 32 ≤ c.toNat := by
  intro c hc
  exact of_decide_eq_true (all_eq_true.mp h c hc)

theorem plain_escapeChar : ∀ d ∈ escapeChar c, 32 ≤ d.toNat := by
  have hdigit : ∀ n < 16, 32 ≤ (Nat.digitChar n).toNat := by decide
  unfold escapeChar
  split_ifs with hquote hback hn hr ht hf hb hcontrol
  · exact of_all (by decide)
  · exact of_all (by decide)
  · exact of_all (by decide)
  · exact of_all (by decide)
  · exact of_all (by decide)
  · exact of_all (by decide)
  · exact of_all (by decide)
  · have hhigh := hdigit (c.toNat / 16) (by omega)
    have hlow := hdigit (c.toNat % 16) (by omega)
    intro d hd
    simp only [mem_cons, not_mem_nil, or_false] at hd
    obtain rfl | rfl | rfl | rfl | rfl | rfl := hd
    all_goals first | exact hhigh | exact hlow | decide
  · intro d hd
    obtain rfl := mem_singleton.mp hd
    exact Nat.not_lt.mp hcontrol

theorem plain_quote (s : String) : Plain (quote s) := by
  have hquote : 32 ≤ ('"' : Char).toNat := by decide
  intro c hc
  simp only [quote, String.toList_ofList, mem_append, mem_singleton,
    mem_flatMap] at hc
  obtain (rfl | ⟨d, -, hd⟩) | rfl := hc
  · exact hquote
  · exact plain_escapeChar d c hd
  · exact hquote

theorem plain_toString_int (n : Int) : Plain (toString n) := by
  have hdigits : ∀ m : Nat, Plain m.repr := by
    intro m c hc
    rw [Nat.toList_repr] at hc
    have hdigit := Nat.isDigit_of_mem_toDigits (by decide) (by decide) hc
    simp only [Char.isDigit, Bool.and_eq_true, decide_eq_true_eq] at hdigit
    exact le_trans (by decide) (UInt32.le_iff_toNat_le.mp hdigit.1)
  cases n with
  | ofNat m => exact hdigits m
  | negSucc m => exact plain_append (by decide) (hdigits (m + 1))

theorem plain_printObject {fields : List (String × String)}
    (h : ∀ field ∈ fields, Plain field.2) : Plain (printObject fields) := by
  apply plain_append (plain_append (by decide) (plain_intercalate (by decide) ?_))
    (by decide)
  intro part hpart
  obtain ⟨field, hfield, rfl⟩ := mem_map.mp hpart
  have hmem : field ∈ fields := (mem_insertionSort _).mp hfield
  exact plain_append (plain_append (plain_quote field.1) (by decide)) (h field hmem)

mutual

theorem dumps_plain : ∀ value : Json, Plain (dumps value)
  | .null => by decide
  | .bool true => by decide
  | .bool false => by decide
  | .int n => plain_toString_int n
  | .float x => x.plain
  | .str s => plain_quote s
  | .arr items =>
    plain_append (plain_append (by decide)
      (plain_intercalate (by decide) (dumpsItems_plain items))) (by decide)
  | .obj fields => plain_printObject (dumpsFields_plain fields)
  | .other text => plain_quote text

theorem dumpsItems_plain : ∀ (items : List Json), ∀ part ∈ dumpsItems items, Plain part
  | [], _, h => by cases h
  | item :: items, part, h => by
    rcases mem_cons.mp h with rfl | hrest
    · exact dumps_plain item
    · exact dumpsItems_plain items part hrest

theorem dumpsFields_plain :
    ∀ (fields : List (String × Json)), ∀ field ∈ dumpsFields fields, Plain field.2
  | [], _, h => by cases h
  | (key, value) :: fields, field, h => by
    rcases mem_cons.mp h with rfl | hrest
    · exact dumps_plain value
    · exact dumpsFields_plain fields field hrest

end

/-- Keys are printed in order, whatever order they were set in. -/
example : dumps (.obj [("b", .int 1), ("a", .str "x\n")]) =
    "\x7b\"a\": \"x\\n\", \"b\": 1\x7d" := by decide

/-! ## Reading

The value a text denotes, as a standard decoder reads it, and the string at a path of
keys.  A surrogate counts only as a half of a pair, and the first of two fields with one
key is the one that is found. -/

def isBlank : Bool := c = ' ' || c = '\t' || c = '\n' || c = '\r'

variable (cs : List Char)

def skipBlanks : List Char := cs.dropWhile isBlank

def hexDigit : Option Nat :=
  if c.isDigit then some (c.toNat - '0'.toNat)
  else if 'a' ≤ c ∧ c ≤ 'f' then some (c.toNat - 'a'.toNat + 10)
  else if 'A' ≤ c ∧ c ≤ 'F' then some (c.toNat - 'A'.toNat + 10)
  else none

/-- The code unit four digits stand for. -/
def codeUnit (a b c d : Char) : Option Nat := do
  let a ← hexDigit a
  let b ← hexDigit b
  let c ← hexDigit c
  let d ← hexDigit d
  some (((a * 16 + b) * 16 + c) * 16 + d)

def unescape : Option Char :=
  if c = '"' ∨ c = '\\' ∨ c = '/' then some c
  else if c = 'n' then some '\n'
  else if c = 'r' then some '\r'
  else if c = 't' then some '\t'
  else if c = 'f' then some (Char.ofNat 12)
  else if c = 'b' then some (Char.ofNat 8)
  else none

/-- The first half of a pair of surrogates. -/
def isHigh (unit : Nat) : Bool := 0xD800 ≤ unit && unit < 0xDC00

def isLow (unit : Nat) : Bool := 0xDC00 ≤ unit && unit < 0xE000

def ofPair (high low : Nat) : Char :=
  Char.ofNat (0x10000 + (high - 0xD800) * 0x400 + (low - 0xDC00))

/-- A string up to its closing quotation mark, and what follows it; `high` is a first
half that waits for its second. -/
def readString (high : Option Nat) : List Char → Option (List Char × List Char)
  | [] => none
  | '"' :: rest => if high = none then some ([], rest) else none
  | '\\' :: escaped :: rest =>
    if escaped = 'u' then
      match rest with
      | a :: b :: c :: d :: rest => do
          let unit ← codeUnit a b c d
          match high with
          | some first =>
            if isLow unit then
              let (cs, rest) ← readString none rest
              some (ofPair first unit :: cs, rest)
            else none
          | none =>
            if isHigh unit then readString (some unit) rest
            else if isLow unit then none
            else
              let (cs, rest) ← readString none rest
              some (Char.ofNat unit :: cs, rest)
      | _ => none
    else if high = none then do
      let c ← unescape escaped
      let (cs, rest) ← readString none rest
      some (c :: cs, rest)
    else none
  | c :: rest =>
    if high = none ∧ 32 ≤ c.toNat then do
      let (cs, rest) ← readString none rest
      some (c :: cs, rest)
    else none

def readDigits : List Char × List Char := cs.span Char.isDigit

def readFraction : List Char → List Char × List Char
  | '.' :: rest =>
    if (readDigits rest).1 = [] then ([], '.' :: rest)
    else ('.' :: (readDigits rest).1, (readDigits rest).2)
  | cs => ([], cs)

def readExponent : List Char → List Char × List Char
  | c :: rest =>
    let (sign, digits) := match rest with
      | '+' :: digits => (['+'], digits)
      | '-' :: digits => (['-'], digits)
      | digits => ([], digits)
    if (c = 'e' ∨ c = 'E') ∧ (readDigits digits).1 ≠ [] then
      (c :: sign ++ (readDigits digits).1, (readDigits digits).2)
    else ([], c :: rest)
  | [] => ([], [])

def ofDigits (ds : List Char) : Nat :=
  ds.foldl (fun n d => n * 10 + (d.toNat - '0'.toNat)) 0

/-- A number behind its sign. -/
def unsigned (sign cs : List Char) : Option (Json × List Char) :=
  let (whole, cs) := readDigits cs
  if whole = [] ∨ whole.length ≠ 1 ∧ whole.head? = some '0' then none
  else
    let (fraction, cs) := readFraction cs
    let (exponent, cs) := readExponent cs
    let text := String.ofList (sign ++ whole ++ fraction ++ exponent)
    if fraction = [] ∧ exponent = [] then
      some (.int (if sign = [] then ofDigits whole else -ofDigits whole), cs)
    else if h : Plain text then some (.float ⟨text, h⟩, cs)
    else none

def readNumber : Option (Json × List Char) :=
  match cs with
  | '-' :: rest => unsigned ['-'] rest
  | rest => unsigned [] rest

def readLiteral : Option (Json × List Char) :=
  if "null".toList.isPrefixOf cs then some (.null, cs.drop 4)
  else if "true".toList.isPrefixOf cs then some (.bool true, cs.drop 4)
  else if "false".toList.isPrefixOf cs then some (.bool false, cs.drop 5)
  else readNumber cs

mutual

def readValue : Nat → List Char → Option (Json × List Char)
  | 0, _ => none
  | n + 1, cs =>
    match skipBlanks cs with
    | '"' :: rest => do
        let (s, rest) ← readString none rest
        some (.str (String.ofList s), rest)
    | '[' :: rest =>
      match skipBlanks rest with
      | ']' :: rest => some (.arr [], rest)
      | rest => do
          let (items, rest) ← readItems n rest
          some (.arr items, rest)
    | '\x7b' :: rest =>
      match skipBlanks rest with
      | '\x7d' :: rest => some (.obj [], rest)
      | rest => do
          let (fields, rest) ← readFields n rest
          some (.obj fields, rest)
    | cs => readLiteral cs

/-- The items of an array, up to its closing bracket. -/
def readItems : Nat → List Char → Option (List Json × List Char)
  | 0, _ => none
  | n + 1, cs => do
      let (item, rest) ← readValue n cs
      match skipBlanks rest with
      | ',' :: rest => do
          let (items, rest) ← readItems n rest
          some (item :: items, rest)
      | ']' :: rest => some ([item], rest)
      | _ => none

/-- The fields of an object, up to its closing brace. -/
def readFields : Nat → List Char → Option (List (String × Json) × List Char)
  | 0, _ => none
  | n + 1, cs =>
    match skipBlanks cs with
    | '"' :: rest => do
        let (key, rest) ← readString none rest
        match skipBlanks rest with
        | ':' :: rest => do
            let (value, rest) ← readValue n rest
            match skipBlanks rest with
            | ',' :: rest => do
                let (fields, rest) ← readFields n rest
                some ((String.ofList key, value) :: fields, rest)
            | '\x7d' :: rest => some ([(String.ofList key, value)], rest)
            | _ => none
        | _ => none
    | _ => none

end

/-- A text that is one value.  Every character is read by two calls at most. -/
def loads (text : String) : Option Json :=
  match readValue (2 * text.toList.length + 2) text.toList with
  | some (value, rest) => if skipBlanks rest = [] then some value else none
  | none => none

def Json.textAt : List String → Json → Option String
  | [], .str s => some s
  | key :: path, .obj fields => (fields.lookup key).bind (textAt path)
  | _, _ => none

end StackOwl.Lib
