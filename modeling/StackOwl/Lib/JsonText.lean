import StackOwl.Lib.JsonCodec

/-!
# JSON over code points

The standard codec of a language whose strings are code points: a lone surrogate is
printed as it is, the constants `NaN`, `Infinity` and `-Infinity` are numbers, integers
may have so many digits, and values may nest so deep.  The printer separates with
`", "` and `": "` and escapes the quotation mark, the backslash and control characters.

## Main results

* `loads_print` — a printed value is read back where it nests no deeper than the reader
  goes, and is refused for its depth otherwise.
-/

namespace StackOwl.Lib

open List Option

/-! ## Characters among code points -/

def scalars (cs : List Char) : Text := cs.map .scalar

def Text.front : Text → List Char
  | .scalar c :: t => c :: Text.front t
  | _ => []

def Text.back : Text → Text
  | .scalar _ :: t => Text.back t
  | t => t

@[simp] theorem scalars_nil : scalars [] = [] := rfl

@[simp] theorem scalars_cons (c : Char) (cs : List Char) :
    scalars (c :: cs) = .scalar c :: scalars cs := rfl

theorem front_scalars (cs : List Char) (t : Text) :
    Text.front (scalars cs ++ t) = cs ++ t.front := by
  induction cs with
  | nil => rfl
  | cons c cs ih => exact congrArg (c :: ·) ih

theorem back_scalars (cs : List Char) (t : Text) :
    Text.back (scalars cs ++ t) = t.back := by
  induction cs with
  | nil => rfl
  | cons c cs ih => exact ih

theorem scalars_front (t : Text) : scalars t.front ++ t.back = t := by
  induction t with
  | nil => rfl
  | cons c t ih =>
    cases c with
    | scalar c => exact congrArg (.scalar c :: ·) ih
    | surrogate n => rfl

/-! ## Values -/

/-- The text is a number literal with a fraction or an exponent. -/
def isFloatLiteral (x : FloatText) : Bool :=
  match readNumber x.text.toList with
  | some (.float y, []) => y == x
  | _ => false

theorem readNumber_of_literal {x : FloatText} (h : isFloatLiteral x = true) :
    readNumber x.text.toList = some (.float x, []) := by
  unfold isFloatLiteral at h
  split at h
  · rename_i y heq
    rw [heq, beq_iff_eq.mp h]
  · cases h

/-- A number literal with a fraction or an exponent. -/
structure FloatLiteral where
  text : FloatText
  literal : isFloatLiteral text = true
  deriving DecidableEq

/-- A floating-point number: the literal it is printed as, or one of the constants. -/
inductive JsonFloat where
  | literal (x : FloatLiteral)
  | infinity (negative : Bool)
  | nan

/-- A JSON value; the fields of an object in the order they stand in. -/
inductive JsonTree where
  | null
  | bool (b : Bool)
  | int (n : Int)
  | float (x : JsonFloat)
  | str (s : Text)
  | arr (items : List JsonTree)
  | obj (fields : List (Text × JsonTree))

/-! ## Printing -/

def JsonFloat.print : JsonFloat → List Char
  | .literal x => x.text.text.toList
  | .infinity false => "Infinity".toList
  | .infinity true => "-Infinity".toList
  | .nan => "NaN".toList

def escapePoint : CodePoint → Text
  | .scalar c => scalars (escapeChar c)
  | .surrogate n => [.surrogate n]

def quoteText (s : Text) : Text := .scalar '"' :: (s.flatMap escapePoint ++ [.scalar '"'])

/-- What stands behind a separator: `json.dumps` puts a blank there unless it is told not to. -/
def gap (spaced : Bool) : Text := if spaced then [.scalar ' '] else []

section

variable (spaced : Bool)

mutual

def JsonTree.printWith : JsonTree → Text
  | .null => scalars "null".toList
  | .bool true => scalars "true".toList
  | .bool false => scalars "false".toList
  | .int n => scalars (toString n).toList
  | .float x => scalars x.print
  | .str s => quoteText s
  | .arr [] => scalars ['[', ']']
  | .arr (item :: items) => .scalar '[' :: (item.printWith ++ printTreeItems items)
  | .obj [] => scalars ['\x7b', '\x7d']
  | .obj ((key, value) :: fields) =>
    .scalar '\x7b' :: (quoteText key ++ .scalar ':' :: (gap spaced ++
      (value.printWith ++ printTreeFields fields)))

/-- The further items of an array and its closing bracket. -/
def printTreeItems : List JsonTree → Text
  | [] => [.scalar ']']
  | item :: items => .scalar ',' :: (gap spaced ++ (item.printWith ++ printTreeItems items))

/-- The further fields of an object and its closing brace. -/
def printTreeFields : List (Text × JsonTree) → Text
  | [] => [.scalar '\x7d']
  | (key, value) :: fields =>
    .scalar ',' :: (gap spaced ++ (quoteText key ++ .scalar ':' :: (gap spaced ++
      (value.printWith ++ printTreeFields fields))))

end

end

def JsonTree.print : JsonTree → Text := JsonTree.printWith true

/-- The printer with the separators `","` and `":"`. -/
def JsonTree.printTight : JsonTree → Text := JsonTree.printWith false

/-! ## Reading -/

/-- Why a text is not read: it is no JSON text, an integer in it has too many digits, or
it nests too deep. -/
inductive LoadError where
  | decode
  | digits
  | depth

def pointOf (unit : Nat) : CodePoint :=
  if h : 0xD800 ≤ unit ∧ unit < 0xE000 then .surrogate ⟨unit - 0xD800, by omega⟩
  else .scalar (Char.ofNat unit)

/-- The code unit four digits stand for. -/
def unitOf (a b c d : CodePoint) : Option Nat := do
  let a ← a.char?
  let b ← b.char?
  let c ← c.char?
  let d ← d.char?
  codeUnit a b c d

/-- A string up to its closing quotation mark, and what follows it; `held` is an escaped
first half of a pair that may be followed by its second. -/
def readText (held : Option Nat) : Text → Option (Text × Text)
  | [] => none
  | .scalar '"' :: rest => some ((held.map pointOf).toList, rest)
  | .scalar '\\' :: escaped :: rest =>
    if escaped = .scalar 'u' then
      match rest with
      | a :: b :: c :: d :: rest => do
          let unit ← unitOf a b c d
          match held with
          | some high =>
            if isLow unit then
              let (s, rest) ← readText none rest
              some (.scalar (ofPair high unit) :: s, rest)
            else if isHigh unit then
              let (s, rest) ← readText (some unit) rest
              some (pointOf high :: s, rest)
            else
              let (s, rest) ← readText none rest
              some (pointOf high :: pointOf unit :: s, rest)
          | none =>
            if isHigh unit then readText (some unit) rest
            else
              let (s, rest) ← readText none rest
              some (pointOf unit :: s, rest)
      | _ => none
    else do
      let c ← escaped.char?
      let c ← unescape c
      let (s, rest) ← readText none rest
      some ((held.map pointOf).toList ++ .scalar c :: s, rest)
  | c :: rest =>
    if c.char?.all (fun c => 32 ≤ c.toNat) then do
      let (s, rest) ← readText none rest
      some ((held.map pointOf).toList ++ c :: s, rest)
    else none

def skipSpace (t : Text) : Text := t.dropWhile (fun c => c.char?.any isBlank)

def JSON_WORDS : List (List Char × JsonTree) :=
  [("null".toList, .null), ("true".toList, .bool true), ("false".toList, .bool false),
    ("NaN".toList, .float .nan), ("Infinity".toList, .float (.infinity false)),
    ("-Infinity".toList, .float (.infinity true))]

def readTreeNumber (digits : Nat) (t : Text) : Except LoadError (JsonTree × Text) :=
  match readNumber t.front with
  | some (.int n, rest) =>
    if intWithin digits n then .ok (.int n, scalars rest ++ t.back) else .error .digits
  | some (.float x, rest) =>
    if h : isFloatLiteral x = true then
      .ok (.float (.literal ⟨x, h⟩), scalars rest ++ t.back)
    else .error .decode
  | _ => .error .decode

/-- A value without parts, and what follows it. -/
def readWord (digits : Nat) (t : Text) : Except LoadError (JsonTree × Text) :=
  match JSON_WORDS.find? (fun word => (scalars word.1).isPrefixOf t) with
  | some (word, v) => .ok (v, t.drop word.length)
  | none => readTreeNumber digits t

def readQuoted (t : Text) : Except LoadError (Text × Text) :=
  match readText none t with
  | some read => .ok read
  | none => .error .decode

section

variable (digits : Nat)

mutual

/-- A value that nests no deeper than `depth`, and what follows it. -/
def readTree : Nat → Nat → Text → Except LoadError (JsonTree × Text)
  | 0, _, _ => .error .decode
  | n + 1, depth, t =>
    match skipSpace t with
    | .scalar '"' :: rest => do
        let (s, rest) ← readQuoted rest
        .ok (.str s, rest)
    | .scalar '[' :: rest =>
      match depth with
      | 0 => .error .depth
      | depth + 1 =>
        match skipSpace rest with
        | .scalar ']' :: rest => .ok (.arr [], rest)
        | rest => do
            let (items, rest) ← readTreeItems n depth rest
            .ok (.arr items, rest)
    | .scalar '\x7b' :: rest =>
      match depth with
      | 0 => .error .depth
      | depth + 1 =>
        match skipSpace rest with
        | .scalar '\x7d' :: rest => .ok (.obj [], rest)
        | rest => do
            let (fields, rest) ← readTreeFields n depth rest
            .ok (.obj fields, rest)
    | t => readWord digits t

/-- The items of an array, up to its closing bracket. -/
def readTreeItems : Nat → Nat → Text → Except LoadError (List JsonTree × Text)
  | 0, _, _ => .error .decode
  | n + 1, depth, t => do
      let (item, rest) ← readTree n depth t
      match skipSpace rest with
      | .scalar ',' :: rest => do
          let (items, rest) ← readTreeItems n depth rest
          .ok (item :: items, rest)
      | .scalar ']' :: rest => .ok ([item], rest)
      | _ => .error .decode

/-- The fields of an object, up to its closing brace. -/
def readTreeFields : Nat → Nat → Text → Except LoadError (List (Text × JsonTree) × Text)
  | 0, _, _ => .error .decode
  | n + 1, depth, t =>
    match skipSpace t with
    | .scalar '"' :: rest => do
        let (key, rest) ← readQuoted rest
        match skipSpace rest with
        | .scalar ':' :: rest => do
            let (value, rest) ← readTree n depth rest
            match skipSpace rest with
            | .scalar ',' :: rest => do
                let (fields, rest) ← readTreeFields n depth rest
                .ok ((key, value) :: fields, rest)
            | .scalar '\x7d' :: rest => .ok ([(key, value)], rest)
            | _ => .error .decode
        | _ => .error .decode
    | _ => .error .decode

end

end

/-- A text that is one value.  A byte order mark is refused; every code point is read by
two calls at most. -/
def loadTree (limits : Limits) (t : Text) : Except LoadError JsonTree :=
  if t.head? = some (.scalar (Char.ofNat 0xFEFF)) then .error .decode
  else
    match readTree limits.digits (2 * t.length + 2) limits.depth t with
    | .error e => .error e
    | .ok (v, rest) => if skipSpace rest = [] then .ok v else .error .decode

/-! ## Reading strings -/

variable {c : Char}

theorem readText_unescape {escaped : Char} (hu : escaped ≠ 'u') (h : unescape escaped = some c)
    (rest : Text) :
    readText none (.scalar '\\' :: .scalar escaped :: rest) =
      (readText none rest).map fun p => (.scalar c :: p.1, p.2) := by
  have hpoint : CodePoint.scalar escaped ≠ .scalar 'u' := by
    rintro ⟨⟩
    exact hu rfl
  rw [readText.eq_def]
  simp only [hpoint, h, CodePoint.char?, if_false, bind_eq_bind, bind_some]
  cases readText none rest <;> rfl

theorem readText_plain {c : CodePoint} (hquote : c ≠ .scalar '"')
    (hslash : c ≠ .scalar '\\')
    (h : c.char?.all (fun c => decide (32 ≤ c.toNat)) = true) (rest : Text) :
    readText none (c :: rest) =
      (readText none rest).map fun p => (c :: p.1, p.2) := by
  rw [readText.eq_def]
  split
  · contradiction
  · rename_i heq
    exact absurd (cons.inj heq).1 hquote
  · rename_i heq
    exact absurd (cons.inj heq).1 hslash
  · rename_i heq
    cases heq
    rw [if_pos h]
    cases readText none rest <;> rfl

theorem readText_control (h : c.toNat < 32) (rest : Text) :
    readText none (scalars ['\\', 'u', '0', '0', Nat.digitChar (c.toNat / 16),
        Nat.digitChar (c.toNat % 16)] ++ rest) =
      (readText none rest).map fun p => (.scalar c :: p.1, p.2) := by
  have hunit : unitOf (.scalar '0') (.scalar '0') (.scalar (Nat.digitChar (c.toNat / 16)))
      (.scalar (Nat.digitChar (c.toNat % 16))) = some c.toNat := by
    have hzero : hexDigit '0' = some 0 := by decide
    have hhigh := hexDigit_digitChar (c.toNat / 16) (by omega)
    have hlow := hexDigit_digitChar (c.toNat % 16) (by omega)
    simp only [unitOf, CodePoint.char?, codeUnit, hzero, hhigh, hlow, bind_eq_bind,
      bind_some, some.injEq]
    omega
  have hhigh : isHigh c.toNat = false := by simp [isHigh]; omega
  have hpoint : pointOf c.toNat = .scalar c := by
    rw [pointOf, dif_neg (by omega), Char.ofNat_toNat]
  rw [readText.eq_def]
  simp only [scalars_cons, scalars_nil, cons_append, nil_append, hunit, hhigh,
    hpoint, if_true, bind_eq_bind, bind_some, Bool.false_eq_true, if_false]
  cases readText none rest <;> rfl

theorem readText_escapePoint (c : CodePoint) (rest : Text) :
    readText none (escapePoint c ++ rest) =
      (readText none rest).map fun p => (c :: p.1, p.2) := by
  cases c with
  | surrogate n => exact readText_plain (by simp) (by simp) rfl rest
  | scalar c =>
    rw [escapePoint]
    generalize escapeChar c = cs, escaped_escapeChar c = h
    cases h with
    | letter hu h => exact readText_unescape hu h rest
    | control h => exact readText_control h rest
    | plain hquote hslash h =>
      have hplain : (CodePoint.scalar c).char?.all (fun c => decide (32 ≤ c.toNat)) =
          true := decide_eq_true h
      exact readText_plain (by simpa using hquote) (by simpa using hslash) hplain rest

theorem readQuoted_print (s rest : Text) :
    readQuoted (s.flatMap escapePoint ++ .scalar '"' :: rest) = .ok (s, rest) := by
  have hread : readText none (s.flatMap escapePoint ++ .scalar '"' :: rest) =
      some (s, rest) := by
    induction s with
    | nil => rfl
    | cons c s ih =>
      rw [flatMap_cons, append_assoc, readText_escapePoint, ih]
      rfl
  rw [readQuoted, hread]

/-! ## Reading values -/

mutual

def JsonTree.fits (digits : Nat) : JsonTree → Bool
  | .arr items => treeItemsFit digits items
  | .obj fields => treeFieldsFit digits fields
  | .int n => intWithin digits n
  | .null | .bool _ | .float _ | .str _ => true

def treeItemsFit (digits : Nat) : List JsonTree → Bool
  | [] => true
  | item :: items => item.fits digits && treeItemsFit digits items

def treeFieldsFit (digits : Nat) : List (Text × JsonTree) → Bool
  | [] => true
  | (_, value) :: fields => value.fits digits && treeFieldsFit digits fields

end

mutual

def JsonTree.within (depth : Nat) : JsonTree → Bool
  | .arr items => 0 < depth && treeItemsWithin (depth - 1) items
  | .obj fields => 0 < depth && treeFieldsWithin (depth - 1) fields
  | .null | .bool _ | .int _ | .float _ | .str _ => true

def treeItemsWithin (depth : Nat) : List JsonTree → Bool
  | [] => true
  | item :: items => item.within depth && treeItemsWithin depth items

def treeFieldsWithin (depth : Nat) : List (Text × JsonTree) → Bool
  | [] => true
  | (_, value) :: fields => value.within depth && treeFieldsWithin depth fields

end

mutual

/-- The calls that reading a printed value nests. -/
def JsonTree.nesting : JsonTree → Nat
  | .arr items => 1 + treeItemsNesting items
  | .obj fields => 1 + treeFieldsNesting fields
  | .null | .bool _ | .int _ | .float _ | .str _ => 1

def treeItemsNesting : List JsonTree → Nat
  | [] => 1
  | item :: items => 1 + item.nesting + treeItemsNesting items

def treeFieldsNesting : List (Text × JsonTree) → Nat
  | [] => 1
  | (_, value) :: fields => 1 + value.nesting + treeFieldsNesting fields

end

/-- What reading comes to where the depth decides. -/
def reached {α : Type} (deep : Bool) (out : α) : Except LoadError α :=
  if deep then .ok out else .error .depth

theorem readNumber_word {word : List Char × JsonTree} (h : word ∈ JSON_WORDS)
    (cs : List Char) : readNumber (word.1 ++ cs) = none := by
  simp only [JSON_WORDS, mem_cons, not_mem_nil, or_false] at h
  obtain rfl | rfl | rfl | rfl | rfl | rfl := h <;> simp [readNumber, unsigned, readDigits_eq]

variable {t : Text} {v : Json}

theorem readWord_number {digits : Nat} {rest : List Char} (h : readNumber t.front = some (v, rest))
    : readWord digits t = readTreeNumber digits t := by
  have hnone : JSON_WORDS.find? (fun word => (scalars word.1).isPrefixOf t) = none := by
    rw [find?_eq_none]
    intro word hword hprefix
    obtain ⟨r, rfl⟩ := isPrefixOf_iff_prefix.mp hprefix
    rw [front_scalars, readNumber_word hword] at h
    cases h
  rw [readWord, hnone]

theorem readTree_number {digits n depth : Nat} {rest : List Char}
    (h : readNumber t.front = some (v, rest)) :
    readTree digits (n + 1) depth t = readTreeNumber digits t := by
  obtain ⟨c, cs, hfront, hc⟩ := head_of_readNumber h
  have ht : t = .scalar c :: (scalars cs ++ t.back) := by
    conv_lhs => rw [← scalars_front t, hfront]
    rfl
  have hne {d : Char} := @ne_of_numeral c hc d
  have hskip : skipSpace t = t := by
    rw [ht]
    simp [skipSpace, CodePoint.char?, isBlank_of_numeral hc]
  rw [readTree, hskip]
  split
  · exact absurd (CodePoint.scalar.inj (cons.inj ht).1).symm (hne rfl (by decide))
  · exact absurd (CodePoint.scalar.inj (cons.inj ht).1).symm (hne rfl (by decide))
  · exact absurd (CodePoint.scalar.inj (cons.inj ht).1).symm (hne rfl (by decide))
  · exact readWord_number h

section

variable {spaced : Bool}

theorem head_printTree : ∀ v : JsonTree, ∃ c rest, v.printWith spaced = .scalar c :: rest ∧
    isBlank c = false ∧ c ≠ ']' ∧ c ≠ '\x7d'
  | .null | .bool true | .bool false | .str _ | .arr [] | .arr (_ :: _) | .obj []
  | .obj (_ :: _) | .float .nan | .float (.infinity true) | .float (.infinity false) =>
    ⟨_, _, rfl, rfl, by decide, by decide⟩
  | .int n => by
    obtain ⟨c, cs, hcs, hc⟩ := head_number (readNumber_int n)
    exact ⟨c, scalars cs, congrArg scalars hcs, hc⟩
  | .float (.literal x) => by
    obtain ⟨c, cs, hcs, hc⟩ := head_number (readNumber_of_literal x.literal)
    exact ⟨c, scalars cs, congrArg scalars hcs, hc⟩

theorem stops_printTreeItems (items : List JsonTree) (rest : Text) :
    Stops (printTreeItems spaced items ++ rest).front := by
  cases items with
  | nil => exact stops_of_head (.inr (.inl rfl))
  | cons item items => exact stops_of_head (.inl rfl)

theorem stops_printTreeFields (fields : List (Text × JsonTree)) (rest : Text) :
    Stops (printTreeFields spaced fields ++ rest).front := by
  cases fields with
  | nil => exact stops_of_head (.inr (.inr rfl))
  | cons field fields => exact stops_of_head (.inl rfl)

section

variable (digits : Nat)

theorem skipSpace_gap (t : Text) : skipSpace (gap spaced ++ t) = skipSpace t := by
  cases spaced <;> rfl

theorem readTree_gap (n depth : Nat) (t : Text) :
    readTree digits n depth (gap spaced ++ t) = readTree digits n depth t := by
  cases n with
  | zero => rfl
  | succ n => rw [readTree, readTree, skipSpace_gap]

theorem readTreeItems_gap (n depth : Nat) (t : Text) :
    readTreeItems digits n depth (gap spaced ++ t) = readTreeItems digits n depth t := by
  cases n with
  | zero => rfl
  | succ n => rw [readTreeItems, readTreeItems, readTree_gap]

theorem readTreeFields_gap (n depth : Nat) (t : Text) :
    readTreeFields digits n depth (gap spaced ++ t) = readTreeFields digits n depth t := by
  cases n with
  | zero => rfl
  | succ n => rw [readTreeFields, readTreeFields, skipSpace_gap]

variable {rest : Text}

theorem readNumber_front {cs : List Char} (hcs : readNumber cs = some (v, []))
    (hrest : Stops rest.front) :
    readNumber (Text.front (scalars cs ++ rest)) = some (v, rest.front) := by
  rw [front_scalars]
  exact readNumber_append hrest hcs

theorem readTree_int {m : Int} (hm : intWithin digits m = true) (hrest : Stops rest.front)
    (n depth : Nat) :
    readTree digits (n + 1) depth (scalars (toString m).toList ++ rest) =
      .ok (.int m, rest) := by
  have hread := readNumber_front (readNumber_int m) hrest
  rw [readTree_number hread, readTreeNumber, hread]
  simp only [hm, if_true, back_scalars, scalars_front]

theorem readTree_literal (x : FloatLiteral) (hrest : Stops rest.front) (n depth : Nat) :
    readTree digits (n + 1) depth (scalars x.text.text.toList ++ rest) =
      .ok (.float (.literal x), rest) := by
  have hread := readNumber_front (readNumber_of_literal x.literal) hrest
  rw [readTree_number hread, readTreeNumber, hread]
  simp only [dif_pos x.literal, back_scalars, scalars_front]

theorem readTree_bracket (hblank : isBlank c = false) (hc : c ≠ ']') (n depth : Nat) (rest : Text) :
    readTree digits (n + 1) (depth + 1) (.scalar '[' :: .scalar c :: rest) =
      (readTreeItems digits n depth (.scalar c :: rest)).map fun p => (.arr p.1, p.2) := by
  have hskip : skipSpace (.scalar c :: rest) = .scalar c :: rest := by
    simp [skipSpace, CodePoint.char?, hblank]
  have hopen : skipSpace (.scalar '[' :: .scalar c :: rest) =
      .scalar '[' :: .scalar c :: rest := rfl
  rw [readTree, hopen]
  simp only [hskip]
  split
  · rename_i heq
    exact absurd (CodePoint.scalar.inj (cons.inj heq).1) hc
  · cases readTreeItems digits n depth (.scalar c :: rest) <;> rfl

theorem readTree_brace (hblank : isBlank c = false) (hc : c ≠ '\x7d') (n depth : Nat)
    (rest : Text) :
    readTree digits (n + 1) (depth + 1) (.scalar '\x7b' :: .scalar c :: rest) =
      (readTreeFields digits n depth (.scalar c :: rest)).map fun p => (.obj p.1, p.2) := by
  have hskip : skipSpace (.scalar c :: rest) = .scalar c :: rest := by
    simp [skipSpace, CodePoint.char?, hblank]
  have hopen : skipSpace (.scalar '\x7b' :: .scalar c :: rest) =
      .scalar '\x7b' :: .scalar c :: rest := rfl
  rw [readTree, hopen]
  simp only [hskip]
  split
  · rename_i heq
    exact absurd (CodePoint.scalar.inj (cons.inj heq).1) hc
  · cases readTreeFields digits n depth (.scalar c :: rest) <;> rfl

mutual

/-- A printed value is read back in front of what follows it, or refused for its depth. -/
theorem readTree_print : ∀ (v : JsonTree) (n depth : Nat) (rest : Text),
    v.fits digits = true → Stops rest.front → v.nesting ≤ n →
    readTree digits n depth (v.printWith spaced ++ rest) = reached (v.within depth) (v, rest)
  | v, 0, depth, rest, _, _, hn => by cases v <;> simp [JsonTree.nesting] at hn
  | .null, n + 1, depth, rest, _, _, _ => rfl
  | .bool true, n + 1, depth, rest, _, _, _ => rfl
  | .bool false, n + 1, depth, rest, _, _, _ => rfl
  | .float .nan, n + 1, depth, rest, _, _, _ => rfl
  | .float (.infinity false), n + 1, depth, rest, _, _, _ => rfl
  | .float (.infinity true), n + 1, depth, rest, _, _, _ => rfl
  | .float (.literal x), n + 1, depth, rest, _, hrest, _ =>
    readTree_literal digits x hrest n depth
  | .int m, n + 1, depth, rest, hv, hrest, _ => readTree_int digits hv hrest n depth
  | .str s, n + 1, depth, rest, _, _, _ => by
    rw [JsonTree.printWith, quoteText, cons_append, append_assoc,
      singleton_append]
    have hopen : ∀ t, skipSpace (.scalar '"' :: t) = .scalar '"' :: t := fun _ => rfl
    rw [readTree, hopen]
    simp only [readQuoted_print]
    rfl
  | .arr [], n + 1, 0, rest, _, _, _ => rfl
  | .arr [], n + 1, depth + 1, rest, _, _, _ => rfl
  | .arr (item :: items), n + 1, 0, rest, _, _, _ => rfl
  | .arr (item :: items), n + 1, depth + 1, rest, hv, _, hn => by
    have hitems := readTreeItems_print item items n depth rest hv
      (by simp only [JsonTree.nesting] at hn; omega)
    obtain ⟨c, cs, hcs, hblank, hc, -⟩ := head_printTree item
    rw [hcs, cons_append] at hitems
    rw [JsonTree.printWith, hcs, cons_append, append_assoc, cons_append,
      readTree_bracket digits hblank hc, hitems, JsonTree.within, Nat.add_sub_cancel]
    cases treeItemsWithin depth (item :: items) <;> rfl
  | .obj [], n + 1, 0, rest, _, _, _ => rfl
  | .obj [], n + 1, depth + 1, rest, _, _, _ => rfl
  | .obj (field :: fields), n + 1, 0, rest, _, _, _ => rfl
  | .obj ((key, value) :: fields), n + 1, depth + 1, rest, hv, _, hn => by
    have hfields := readTreeFields_print key value fields n depth rest hv
      (by simp only [JsonTree.nesting] at hn; omega)
    rw [quoteText] at hfields
    rw [JsonTree.printWith, quoteText]
    simp only [cons_append, append_assoc, nil_append] at hfields ⊢
    rw [readTree_brace digits rfl (by decide), hfields, JsonTree.within, Nat.add_sub_cancel]
    cases treeFieldsWithin depth ((key, value) :: fields) <;> rfl

theorem readTreeItems_print : ∀ (item : JsonTree) (items : List JsonTree) (n depth : Nat)
    (rest : Text), treeItemsFit digits (item :: items) = true →
    treeItemsNesting (item :: items) ≤ n →
    readTreeItems digits n depth (item.printWith spaced ++ (printTreeItems spaced items ++ rest)) =
      reached (treeItemsWithin depth (item :: items)) (item :: items, rest)
  | _, _, 0, _, _, _, hn => by simp [treeItemsNesting] at hn
  | item, [], n + 1, depth, rest, hv, hn => by
    simp only [treeItemsNesting] at hn
    simp only [treeItemsFit, Bool.and_true] at hv
    have hitem := readTree_print item n depth (.scalar ']' :: rest) hv
      (stops_of_head (.inr (.inl rfl))) (by omega)
    rw [printTreeItems, singleton_append, readTreeItems, hitem]
    simp only [treeItemsWithin, Bool.and_true]
    cases item.within depth <;> rfl
  | item, next :: items, n + 1, depth, rest, hv, hn => by
    rw [treeItemsNesting] at hn
    rw [treeItemsFit, Bool.and_eq_true] at hv
    have hitem := readTree_print item n depth (printTreeItems spaced (next :: items) ++ rest) hv.1
      (stops_printTreeItems _ rest) (by omega)
    have hitems := readTreeItems_print next items n depth rest hv.2 (by omega)
    have hskip : ∀ t : Text, skipSpace (.scalar ',' :: t) = .scalar ',' :: t := fun _ => rfl
    rw [readTreeItems, hitem, treeItemsWithin, printTreeItems]
    cases item.within depth with
    | false => rfl
    | true =>
      simp only [reached, if_true, bind, Except.bind, cons_append, append_assoc,
        hskip, readTreeItems_gap, hitems, Bool.true_and]
      cases treeItemsWithin depth (next :: items) <;> rfl

theorem readTreeFields_print : ∀ (key : Text) (value : JsonTree)
    (fields : List (Text × JsonTree)) (n depth : Nat) (rest : Text),
    treeFieldsFit digits ((key, value) :: fields) = true →
    treeFieldsNesting ((key, value) :: fields) ≤ n →
    readTreeFields digits n depth (quoteText key ++ .scalar ':' :: (gap spaced ++
        (value.printWith spaced ++ (printTreeFields spaced fields ++ rest)))) =
      reached (treeFieldsWithin depth ((key, value) :: fields))
        ((key, value) :: fields, rest)
  | _, _, _, 0, _, _, _, hn => by simp [treeFieldsNesting] at hn
  | key, value, [], n + 1, depth, rest, hv, hn => by
    simp only [treeFieldsNesting] at hn
    simp only [treeFieldsFit, Bool.and_true] at hv
    have hvalue := readTree_print value n depth (.scalar '\x7d' :: rest) hv
      (stops_of_head (.inr (.inr rfl))) (by omega)
    have hquote : ∀ t : Text, skipSpace (.scalar '"' :: t) = .scalar '"' :: t := fun _ => rfl
    have hcolon : ∀ t : Text, skipSpace (.scalar ':' :: t) = .scalar ':' :: t := fun _ => rfl
    rw [quoteText, printTreeFields]
    simp only [cons_append, append_assoc, nil_append]
    rw [readTreeFields, hquote]
    simp only [readQuoted_print, bind, Except.bind, hcolon, readTree_gap, hvalue,
      treeFieldsWithin, Bool.and_true]
    cases value.within depth <;> rfl
  | key, value, (key', value') :: fields, n + 1, depth, rest, hv, hn => by
    rw [treeFieldsNesting] at hn
    rw [treeFieldsFit, Bool.and_eq_true] at hv
    have hvalue := readTree_print value n depth
      (printTreeFields spaced ((key', value') :: fields) ++ rest) hv.1
      (stops_printTreeFields _ rest) (by omega)
    have hfields := readTreeFields_print key' value' fields n depth rest hv.2 (by omega)
    have hquote : ∀ t : Text, skipSpace (.scalar '"' :: t) = .scalar '"' :: t := fun _ => rfl
    have hcolon : ∀ t : Text, skipSpace (.scalar ':' :: t) = .scalar ':' :: t := fun _ => rfl
    have hcomma : ∀ t : Text, skipSpace (.scalar ',' :: t) = .scalar ',' :: t := fun _ => rfl
    rw [quoteText]
    simp only [cons_append, append_assoc, nil_append]
    rw [readTreeFields, hquote]
    simp only [readQuoted_print, bind, Except.bind, hcolon, readTree_gap, hvalue]
    rw [treeFieldsWithin]
    cases value.within depth with
    | false => rfl
    | true =>
      simp only [reached, if_true, printTreeFields, cons_append, append_assoc,
        hcomma, readTreeFields_gap, hfields, Bool.true_and]
      cases treeFieldsWithin depth ((key', value') :: fields) <;> rfl

end

end

/-! ## Reading texts -/

mutual

/-- Reading nests at most two calls for each code point. -/
theorem nesting_le_printTree : ∀ v : JsonTree, v.nesting ≤ 2 * (v.printWith spaced).length
  | .null | .bool _ | .int _ | .float _ | .str _ => by
    obtain ⟨c, cs, hcs, -⟩ := head_printTree _
    rw [hcs, length_cons, JsonTree.nesting]
    omega
  | .arr [] | .obj [] => by decide +revert
  | .arr (item :: items) => by
    have hitem := nesting_le_printTree item
    have hitems := nesting_le_printTreeItems items
    simp only [JsonTree.nesting, treeItemsNesting, JsonTree.printWith, length_cons,
      length_append]
    omega
  | .obj ((key, value) :: fields) => by
    have hvalue := nesting_le_printTree value
    have hfields := nesting_le_printTreeFields fields
    simp only [JsonTree.nesting, treeFieldsNesting, JsonTree.printWith, length_cons,
      length_append]
    omega

theorem nesting_le_printTreeItems : ∀ items : List JsonTree,
    treeItemsNesting items ≤ 2 * (printTreeItems spaced items).length
  | [] => by simp [treeItemsNesting, printTreeItems]
  | item :: items => by
    have hitem := nesting_le_printTree item
    have hitems := nesting_le_printTreeItems items
    simp only [treeItemsNesting, printTreeItems, length_cons, length_append]
    omega

theorem nesting_le_printTreeFields : ∀ fields : List (Text × JsonTree),
    treeFieldsNesting fields ≤ 2 * (printTreeFields spaced fields).length
  | [] => by simp [treeFieldsNesting, printTreeFields]
  | (key, value) :: fields => by
    have hvalue := nesting_le_printTree value
    have hfields := nesting_le_printTreeFields fields
    simp only [treeFieldsNesting, printTreeFields, length_cons, length_append]
    omega

end

/-- No printed value begins with a byte order mark. -/
theorem head?_printTree (v : JsonTree) :
    (v.printWith spaced).head? ≠ some (.scalar (Char.ofNat 0xFEFF)) := by
  have hascii : ∀ c : Char, c.toNat < 128 →
      some (CodePoint.scalar c) ≠ some (.scalar (Char.ofNat 0xFEFF)) := by
    intro c hc hmark
    rw [CodePoint.scalar.inj (some.inj hmark)] at hc
    revert hc
    decide
  have hnumber : ∀ {cs w r}, readNumber cs = some (w, r) →
      (scalars cs).head? ≠ some (.scalar (Char.ofNat 0xFEFF)) := by
    intro cs w r hcs
    obtain ⟨c, rest, rfl, hc⟩ := head_of_readNumber hcs
    apply hascii
    rcases hc with rfl | hdigit
    · decide
    · rw [Char.isDigit, Bool.and_eq_true, decide_eq_true_eq, decide_eq_true_eq] at hdigit
      exact Nat.lt_of_le_of_lt (UInt32.le_iff_toNat_le.mp hdigit.2) (by decide)
  cases v with
  | null => exact hascii 'n' (by decide)
  | bool b =>
    cases b
    · exact hascii 'f' (by decide)
    · exact hascii 't' (by decide)
  | int n => exact hnumber (readNumber_int n)
  | float x =>
    rcases x with x | negative | _
    · exact hnumber (readNumber_of_literal x.literal)
    · cases negative
      · exact hascii 'I' (by decide)
      · exact hascii '-' (by decide)
    · exact hascii 'N' (by decide)
  | str s => exact hascii '"' (by decide)
  | arr items => cases items <;> exact hascii '[' (by decide)
  | obj fields => cases fields <;> exact hascii '\x7b' (by decide)

/-- **Read back.**  A printed value whose integers are short enough is read back, where it
nests no deeper than the reader goes. -/
theorem loads_printWith {limits : Limits} {v : JsonTree} (h : v.fits limits.digits = true) :
    loadTree limits (v.printWith spaced) = reached (v.within limits.depth) v := by
  have hnesting := @nesting_le_printTree spaced v
  have hread := @readTree_print spaced limits.digits v (2 * (v.printWith spaced).length + 2)
    limits.depth [] h (by rintro c ⟨⟩) (by omega)
  rw [append_nil] at hread
  rw [loadTree, if_neg (head?_printTree v), hread]
  cases v.within limits.depth <;> rfl

theorem loads_print {limits : Limits} {v : JsonTree} (h : v.fits limits.digits = true) :
    loadTree limits v.print = reached (v.within limits.depth) v :=
  loads_printWith h

end

example : JsonTree.print (.obj [(Text.ofString "a", .arr [.str [.surrogate 0], .float .nan])]) =
    scalars "\x7b\"a\": [\"".toList ++ .surrogate 0 :: scalars "\", NaN]\x7d".toList := by
  decide

end StackOwl.Lib
