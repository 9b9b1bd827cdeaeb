import Mathlib.Data.List.Basic
import StackOwl.Durable.FailureClass
import StackOwl.Lib.Sha256

/-!
# The statements of a migration file

`_split_sql` (`db/migrations/runner.py`) cuts the text of a migration into statements at the
`;` that stand outside string literals, comments and the bodies of triggers; it fails an
assertion at a letter that is not of ASCII.  `semantic_checksum` and `_is_data_statement` read a
text through it.

`isalpha` stands for `str.isalpha` of one character.

## Main results

* `splitSql_text` — the statements, put one after the other, are the text of the file, less
  white space: nothing of it is lost, and nothing is there twice.
-/

namespace StackOwl.Db

open Durable Lib List

/-! ## Tokens -/

/-- `[A-Za-z_]`. -/
def isWordChar (c : Char) : Bool := c.isAlpha || c == '_'

/-- `_WORD_RE.findall`. -/
def wordTokens (text : List Char) : List (List Char) :=
  (text.splitOnP fun c => !isWordChar c).filter fun word => !word.isEmpty

def upper (word : List Char) : String := String.ofList (word.map Char.toUpper)

/-- A block comment, after its `/*`, and what follows it. -/
def closeComment : List Char → List Char × List Char
  | '*' :: '/' :: rest => (['*', '/'], rest)
  | c :: rest => (c :: (closeComment rest).1, (closeComment rest).2)
  | [] => ([], [])

/-- A literal, after its opening quote, and what follows it; a doubled quote does not close
it. -/
def closeLiteral (quote : Char) : List Char → List Char × List Char
  | [] => ([], [])
  | [c] => ([c], [])
  | c :: c' :: rest =>
    if c = quote then
      if c' = quote then
        (c :: c' :: (closeLiteral quote rest).1, (closeLiteral quote rest).2)
      else ([c], c' :: rest)
    else (c :: (closeLiteral quote (c' :: rest)).1, (closeLiteral quote (c' :: rest)).2)

/-- `_ends_with_create`, of the text before the word `TRIGGER`. -/
def endsWithCreate (text : List Char) : Bool :=
  match (wordTokens text).reverse with
  | [] => false
  | last :: prior =>
    upper last == "CREATE" ||
      (upper last == "TEMP" || upper last == "TEMPORARY") &&
        prior.head?.any fun word => upper word == "CREATE"

/-! ## The splitter -/

structure SplitState where
  statements : List (List Char) := []
  buf : List Char := []
  inTrigger : Bool := false
  depth : Nat := 0

namespace SplitState

variable (st : SplitState)

def add (text : List Char) : SplitState := { st with buf := st.buf ++ text }

/-- A word: the body of a trigger opens with its `BEGIN` and closes with its `END`. -/
def word (text : List Char) : SplitState :=
  if upper text = "TRIGGER" ∧ endsWithCreate st.buf then { st.add text with inTrigger := true }
  else if st.inTrigger ∧ upper text = "BEGIN" then { st.add text with depth := st.depth + 1 }
  else if st.inTrigger ∧ upper text = "END" ∧ 0 < st.depth then
    { st.add text with depth := st.depth - 1 }
  else st.add text

def finish : SplitState where
  statements := st.statements ++ if strip st.buf = [] then [] else [strip st.buf]

/-- A `;`. -/
def semicolon : SplitState :=
  if st.inTrigger ∧ 0 < st.depth then st.add [';'] else (st.add [';']).finish

end SplitState

section
variable (isalpha : Char → Bool) (keepComments : Bool)

/-- The loop of `_split_sql`; each turn reads a character at least. -/
def scan : Nat → List Char → SplitState → Option SplitState
  | 0, _, st => some st
  | _ + 1, [], st => some st
  | fuel + 1, ch :: rest, st =>
    if ch = '-' ∧ rest.head? = some '-' then
      scan fuel ((ch :: rest).dropWhile (· ≠ '\n'))
        (if keepComments then st.add ((ch :: rest).takeWhile (· ≠ '\n')) else st)
    else if ch = '/' ∧ rest.head? = some '*' then
      scan fuel (closeComment rest.tail).2
        (if keepComments then st.add ('/' :: '*' :: (closeComment rest.tail).1) else st)
    else if ch = '\'' ∨ ch = '"' then
      scan fuel (closeLiteral ch rest).2 (st.add (ch :: (closeLiteral ch rest).1))
    else if isalpha ch ∨ ch = '_' then
      -- `assert m is not None`
      if isWordChar ch then
        scan fuel ((ch :: rest).dropWhile isWordChar) (st.word ((ch :: rest).takeWhile isWordChar))
      else none
    else if ch = ';' then scan fuel rest st.semicolon
    else scan fuel rest (st.add [ch])

def splitSql (sql : String) : Option (List String) :=
  (scan isalpha keepComments sql.length sql.toList {}).map fun st =>
    st.finish.statements.map String.ofList

end

section
variable (isalpha : Char → Bool)

def DATA_KEYWORDS : List String := ["INSERT", "UPDATE", "DELETE", "REPLACE"]

/-- `str.split()`. -/
def splitWhitespace (text : List Char) : List (List Char) :=
  (text.splitOnP isSpace).filter fun word => !word.isEmpty

def isDataStatement (stmt : String) : Option Bool :=
  (splitSql isalpha false stmt).map fun bare =>
    bare.head?.any fun first =>
      (splitWhitespace first.toList).head?.any fun word => DATA_KEYWORDS.contains (upper word)

def semanticChecksum (sql : String) : Option String :=
  (splitSql isalpha false sql).map fun stmts =>
    let statements := stmts.map fun stmt =>
      " ".intercalate ((splitWhitespace stmt.toList).map String.ofList)
    let meaningful := statements.filter fun stmt =>
      stmt.toList.any fun c => c != ' ' && c != ';'
    sha256Hex (";".intercalate meaningful)

end

example : splitSql Char.isAlpha true "-- a;\nSELECT 'b;';create TRIGGER t BEGIN a; END; c" =
    some ["-- a;\nSELECT 'b;';", "create TRIGGER t BEGIN a; END;", "c"] := by decide

/-! ## The text of the statements -/

def solid (text : List Char) : List Char := text.filter fun c => !isSpace c

@[simp] theorem solid_nil : solid [] = [] := rfl

@[simp] theorem solid_append (text text' : List Char) :
    solid (text ++ text') = solid text ++ solid text' :=
  filter_append text text'

theorem solid_dropWhile (text : List Char) : solid (text.dropWhile isSpace) = solid text := by
  induction text with
  | nil => rfl
  | cons c text ih =>
    rw [dropWhile_cons]
    split
    · rename_i hspace
      rw [ih, solid, solid, filter_cons_of_neg (by simp [hspace])]
    · rfl

theorem solid_reverse (text : List Char) : solid text.reverse = (solid text).reverse :=
  filter_reverse

@[simp] theorem solid_strip (text : List Char) : solid (strip text) = solid text := by
  unfold strip
  rw [solid_reverse, solid_dropWhile, solid_reverse, solid_dropWhile, reverse_reverse]

theorem closeComment_append (text : List Char) :
    (closeComment text).1 ++ (closeComment text).2 = text := by
  induction text using closeComment.induct with
  | case1 rest => rfl
  | case2 c rest hopen ih =>
    rw [closeComment]
    · rw [cons_append, ih]
    · exact hopen
  | case3 => rfl

theorem closeLiteral_append (quote : Char) (text : List Char) :
    (closeLiteral quote text).1 ++ (closeLiteral quote text).2 = text := by
  fun_induction closeLiteral quote text with
  | case1 => rfl
  | case2 c => rfl
  | case3 rest ih => rw [cons_append, cons_append, ih]
  | case4 => rfl
  | case5 c c' rest hquote ih => rw [cons_append, ih]

def SplitState.text (st : SplitState) : List Char := solid st.statements.flatten ++ solid st.buf

@[simp] theorem SplitState.text_add (st : SplitState) (text : List Char) :
    (st.add text).text = st.text ++ solid text := by
  simp [SplitState.text, SplitState.add]

@[simp] theorem SplitState.text_finish (st : SplitState) : st.finish.text = st.text := by
  unfold SplitState.text SplitState.finish
  split
  · rename_i hblank
    rw [← solid_strip st.buf, hblank]
    simp
  · simp

theorem SplitState.text_word (st : SplitState) (text : List Char) :
    (st.word text).text = st.text ++ solid text := by
  unfold SplitState.word
  split
  · exact st.text_add text
  · split
    · exact st.text_add text
    · split <;> exact st.text_add text

theorem SplitState.text_semicolon (st : SplitState) :
    st.semicolon.text = st.text ++ solid [';'] := by
  unfold SplitState.semicolon
  split
  · exact st.text_add _
  · rw [SplitState.text_finish, SplitState.text_add]

theorem text_scan {isalpha : Char → Bool} {fuel : Nat} {text : List Char} {st st' : SplitState}
    (hfuel : text.length ≤ fuel) (h : scan isalpha true fuel text st = some st') :
    st'.text = st.text ++ solid text := by
  induction fuel generalizing text st with
  | zero =>
    obtain rfl := eq_nil_of_length_eq_zero (Nat.le_zero.mp hfuel)
    cases h
    exact (append_nil _).symm
  | succ fuel ih =>
    cases text with
    | nil =>
      cases h
      exact (append_nil _).symm
    | cons ch rest =>
      -- what one turn reads, and what it leaves
      have hturn : ∀ {read left : List Char} {st₁ : SplitState}, read ++ left = ch :: rest →
          read ≠ [] → st₁.text = st.text ++ solid read →
          scan isalpha true fuel left st₁ = some st' →
          st'.text = st.text ++ solid (ch :: rest) := by
        intro read left st₁ hread hsome htext hscan
        have hlength := congrArg length hread
        rw [length_append] at hlength
        have hpos := length_pos_iff.mpr hsome
        rw [ih (by omega) hscan, htext, append_assoc, ← solid_append, hread]
      unfold scan at h
      split at h
      · rename_i hdash
        rw [if_pos rfl] at h
        refine hturn takeWhile_append_dropWhile ?_ (st.text_add _) h
        rw [hdash.1, takeWhile_cons_of_pos (by decide)]
        exact cons_ne_nil _ _
      · split at h
        · rename_i hslash
          rw [if_pos rfl] at h
          refine hturn ?_ (cons_ne_nil _ _) (st.text_add _) h
          obtain ⟨rfl, hstar⟩ := hslash
          cases rest with
          | nil => cases hstar
          | cons c rest =>
            cases hstar
            rw [cons_append, cons_append, closeComment_append]
            rfl
        · split at h
          · refine hturn ?_ (cons_ne_nil _ _) (st.text_add _) h
            rw [cons_append, closeLiteral_append]
          · split at h
            · split at h
              · rename_i hword
                refine hturn takeWhile_append_dropWhile ?_ (st.text_word _) h
                rw [takeWhile_cons_of_pos hword]
                exact cons_ne_nil _ _
              · cases h
            · split at h
              · rename_i hsemicolon
                subst hsemicolon
                exact hturn (singleton_append) (cons_ne_nil _ _) st.text_semicolon h
              · exact hturn (singleton_append) (cons_ne_nil _ _) (st.text_add _) h

/-- **The statements are the text of the file**, less white space. -/
theorem splitSql_text {isalpha : Char → Bool} {sql : String} {stmts : List String}
    (h : splitSql isalpha true sql = some stmts) :
    solid (stmts.flatMap String.toList) = solid sql.toList := by
  obtain ⟨st, hscan, rfl⟩ := Option.map_eq_some_iff.mp h
  have htext : st.finish.text = solid sql.toList := by
    rw [SplitState.text_finish, text_scan (Nat.le_of_eq String.length_toList) hscan]
    rfl
  rw [← htext, flatMap_map]
  simp [SplitState.text, SplitState.finish, solid]

end StackOwl.Db
