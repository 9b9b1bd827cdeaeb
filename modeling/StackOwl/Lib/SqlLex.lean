import Mathlib.Data.List.TakeWhile

/-!
# The tokens of SQL

How SQLite cuts the text of a statement into tokens: literals, quoted names, comments,
parameters, numbers and operators.  White space and comments give no token.  A parenthesis is a
token of its own unless it stands in one of the others.

Each token comes with the number of characters that follow it, which says where in the text it
is.  A reading runs on when its last token or comment would take in whatever came next.

## Main results

* `lex_append` — a text that does not run on, with a blank or a closing parenthesis after it, is
  read as it is alone, and then what follows.
* `exists_lex_of_closed` — a text in front of a closing parenthesis does not run on, where that
  parenthesis is read as one.
-/

namespace StackOwl.Lib

open List

/-- A token; keywords, names, literals, parameters and operators by their text. -/
inductive SqlToken where
  | lparen
  | rparen
  | other (text : String)
  deriving DecidableEq

/-! ## One token -/

variable (c : Char)

def isSqlSpace : Bool := (9 ≤ c.toNat && c.toNat ≤ 13) || c.toNat == 32

def isIdChar : Bool := c.isAlphanum || c == '_' || c == '$' || 128 ≤ c.toNat

def isHexDigit : Bool :=
  c.isDigit || ('a' ≤ c && c ≤ 'f') || ('A' ≤ c && c ≤ 'F')

variable (s : List Char)

/-- The first character of the text meets `p`. -/
def hasHead (p : Char → Bool) (s : List Char) : Bool := s.head?.any p

/-- What follows a character, if there is one that meets `p`. -/
def dropIf (p : Char → Bool) (s : List Char) : List Char := if hasHead p s then s.tail else s

/-- What follows a block comment, after its opening. -/
def afterComment : List Char → Option (List Char)
  | '*' :: '/' :: rest => some rest
  | _ :: rest => afterComment rest
  | [] => none

/-- What follows a literal or a quoted name, after its opening; a doubled quote does not close
it. -/
def afterQuote (quote : Char) : List Char → Option (List Char)
  | [] => none
  | [c] => if c = quote then some [] else none
  | c :: c' :: rest =>
    if c = quote then if c' = quote then afterQuote quote rest else some (c' :: rest)
    else afterQuote quote (c' :: rest)

def afterBracket : List Char → Option (List Char)
  | [] => none
  | c :: rest => if c = ']' then some rest else afterBracket rest

/-- What follows a blob literal, after its opening; `even` says that its digits are so far. -/
def afterBlob (even : Bool) : List Char → Option (List Char)
  | [] => none
  | c :: rest =>
    if isHexDigit c then afterBlob (!even) rest
    else if c = '\'' ∧ even then some rest
    else none

def afterDigits : List Char := s.dropWhile Char.isDigit

def afterExponent : List Char :=
  if hasHead (fun c => c == 'e' || c == 'E') s then
    if hasHead Char.isDigit s.tail then afterDigits s.tail
    else if hasHead (fun c => c == '+' || c == '-') s.tail then
      if hasHead Char.isDigit s.tail.tail then afterDigits s.tail.tail else s
    else s
  else s

/-- What follows the digits of a number that starts with `c`. -/
def afterNumeral : List Char :=
  if c = '0' ∧ hasHead (fun c => c == 'x' || c == 'X') s ∧ hasHead isHexDigit s.tail then
    s.tail.dropWhile isHexDigit
  else if c = '.' then afterExponent (afterDigits s)
  else if hasHead (· == '.') (afterDigits s) then
    afterExponent (afterDigits (afterDigits s).tail)
  else afterExponent (afterDigits s)

/-- What follows a number that starts with `c`; no name follows it directly. -/
def afterNumber : Option (List Char) :=
  if hasHead isIdChar (afterNumeral c s) then none else some (afterNumeral c s)

/-- What follows the array part of a parameter. -/
def afterIndex : List Char → Option (List Char)
  | [] => none
  | c :: rest => if c = ')' then some rest else if isSqlSpace c then none else afterIndex rest

/-- What follows a named parameter; `named` says that its name has begun. -/
def afterParameter : Bool → List Char → Option (List Char)
  | named, [] => if named then some [] else none
  | named, [c] =>
    if isIdChar c then some []
    else if c = '(' ∧ named then none
    else if named then some [c] else none
  | named, c :: c' :: rest =>
    if isIdChar c then afterParameter true (c' :: rest)
    else if c = '(' ∧ named then afterIndex (c' :: rest)
    else if c = ':' ∧ c' = ':' then afterParameter named rest
    else if named then some (c :: c' :: rest) else none

/-- What follows an operator that starts with `c`. -/
def afterOperator : Option (List Char) :=
  if c = '-' then some (if hasHead (· == '>') s then dropIf (· == '>') s.tail else s)
  else if c = '=' then some (dropIf (· == '=') s)
  else if c = '<' then some (dropIf (fun c => c == '=' || c == '>' || c == '<') s)
  else if c = '>' then some (dropIf (fun c => c == '=' || c == '>') s)
  else if c = '|' then some (dropIf (· == '|') s)
  else if c = '!' then if hasHead (· == '=') s then some s.tail else none
  else if c ∈ [';', '+', '*', '/', '%', ',', '&', '~', '.'] then some s
  else none

inductive LexKind where
  | space
  | lparen
  | rparen
  | other

/-- A piece of the text, and what follows it. -/
structure Lexeme where
  kind : LexKind
  rest : List Char
  runsOn : Bool := false

/-- The piece that starts with `c`, if there is one. -/
def lexeme : Option Lexeme :=
  if c = '(' then some { kind := .lparen, rest := s }
  else if c = ')' then some { kind := .rparen, rest := s }
  else if isSqlSpace c ∧ c ≠ '\x0b' then
    some { kind := .space, rest := s.dropWhile (· == '\x0b') }
  else if c = '-' ∧ hasHead (· == '-') s then
    some { kind := .space, rest := s.dropWhile (· != '\n'), runsOn := s.all (· != '\n') }
  else if c = '/' ∧ hasHead (· == '*') s then
    -- at the very end of a text it is no comment
    if s.tail = [] then some { kind := .other, rest := s, runsOn := true }
    else
      match afterComment s.tail with
      | some rest => some { kind := .space, rest }
      | none => some { kind := .space, rest := [], runsOn := true }
  else if c = '\'' ∨ c = '"' ∨ c = '`' then
    (afterQuote c s).map fun rest => { kind := .other, rest }
  else if c = '[' then (afterBracket s).map fun rest => { kind := .other, rest }
  else if (c = 'x' ∨ c = 'X') ∧ hasHead (· == '\'') s then
    (afterBlob true s.tail).map fun rest => { kind := .other, rest }
  else if c.isDigit ∨ (c = '.' ∧ hasHead Char.isDigit s) then
    (afterNumber c s).map fun rest => { kind := .other, rest }
  else if c = '\uFEFF' then some { kind := .space, rest := s }
  else if isIdChar c ∧ c ≠ '$' then some { kind := .other, rest := s.dropWhile isIdChar }
  else if c = '?' then some { kind := .other, rest := afterDigits s }
  else if c = '$' ∨ c = '@' ∨ c = ':' ∨ c = '#' then
    (afterParameter false s).map fun rest => { kind := .other, rest }
  else (afterOperator c s).map fun rest => { kind := .other, rest }

/-! ## A text -/

/-- The tokens of a text, each with the number of characters after it. -/
structure Reading where
  tokens : List (SqlToken × Nat)
  runsOn : Bool

/-- The token of a piece of the text `c :: s`. -/
def Lexeme.emit (l : Lexeme) (c : Char) (s : List Char) : List (SqlToken × Nat) :=
  match l.kind with
  | .space => []
  | .lparen => [(.lparen, l.rest.length)]
  | .rparen => [(.rparen, l.rest.length)]
  | .other =>
    [(.other (String.ofList ((c :: s).take ((c :: s).length - l.rest.length))), l.rest.length)]

def read : Nat → List Char → Option Reading
  | _, [] => some { tokens := [], runsOn := false }
  | 0, _ :: _ => none
  | fuel + 1, c :: s =>
    (lexeme c s).bind fun l => (read fuel l.rest).map fun r =>
      { tokens := l.emit c s ++ r.tokens, runsOn := l.runsOn || r.runsOn }

/-- The reading of a text; there is none where a piece of it is no token. -/
def lex (text : List Char) : Option Reading := read text.length text

example : (lex "a = '(' -- (\n AND x".toList).map Reading.tokens =
    some [(.other "a", 18), (.other "=", 16), (.other "'('", 12), (.other "AND", 2),
      (.other "x", 0)] := by decide

/-! ## Parentheses -/

/-- The depth after some tokens, from one before them; there is none where a parenthesis is
closed that they have not opened. -/
def depthAfter : Nat → List SqlToken → Option Nat
  | depth, [] => some depth
  | depth, .lparen :: tokens => depthAfter (depth + 1) tokens
  | 0, .rparen :: _ => none
  | depth + 1, .rparen :: tokens => depthAfter depth tokens
  | depth, .other _ :: tokens => depthAfter depth tokens

/-- Every parenthesis among the tokens is matched by another of them. -/
def Balanced (tokens : List SqlToken) : Prop := depthAfter 0 tokens = some 0

instance (tokens : List SqlToken) : Decidable (Balanced tokens) :=
  inferInstanceAs (Decidable (depthAfter 0 tokens = some 0))

/-- The tokens in front of the first one outside parentheses that meets `p`, and those after
it. -/
def breakAt (p : String → Bool) : Nat → List SqlToken → Option (List SqlToken × List SqlToken)
  | _, [] => none
  | depth, .lparen :: tokens =>
    (breakAt p (depth + 1) tokens).map fun (before, after) => (.lparen :: before, after)
  | depth, .rparen :: tokens =>
    (breakAt p (depth - 1) tokens).map fun (before, after) => (.rparen :: before, after)
  | depth, .other text :: tokens =>
    if depth = 0 ∧ p text then some ([], tokens)
    else (breakAt p depth tokens).map fun (before, after) => (.other text :: before, after)

/-! ## What follows a text -/

/-- A blank or a closing parenthesis: no token that it does not end takes it in, but for
literals, comments and the like. -/
def EndsTokens (d : Char) : Prop := d = ')' ∨ d = ' '

section
variable {d : Char} {s} {u rest : List Char} {p : Char → Bool}

theorem hasHead_append (hp : p d = false) (s u : List Char) :
    hasHead p (s ++ d :: u) = hasHead p s := by
  cases s with
  | nil => exact hp
  | cons c s => rfl

theorem ne_nil_of_hasHead (h : hasHead p s = true) : s ≠ [] := by
  rintro rfl
  cases h

theorem tail_append_of_hasHead (h : hasHead p s = true) (t : List Char) :
    (s ++ t).tail = s.tail ++ t :=
  tail_append_of_ne_nil (ne_nil_of_hasHead h)

theorem dropIf_append (hp : p d = false) (s u : List Char) :
    dropIf p (s ++ d :: u) = dropIf p s ++ d :: u := by
  unfold dropIf
  rw [hasHead_append hp]
  split
  · rename_i hhead
    exact tail_append_of_hasHead hhead _
  · rfl

theorem dropWhile_append_stop (hp : p d = false) (s u : List Char) :
    (s ++ d :: u).dropWhile p = s.dropWhile p ++ d :: u := by
  induction s with
  | nil => exact dropWhile_cons_of_neg (by simp [hp])
  | cons c s ih =>
    rw [cons_append, dropWhile_cons, dropWhile_cons, ih]
    split <;> rfl

variable {t : List Char}

theorem dropWhile_append_of_all (h : s.all p = false) :
    (s ++ t).dropWhile p = s.dropWhile p ++ t := by
  induction s with
  | nil => cases h
  | cons c s ih =>
    rw [cons_append, dropWhile_cons, dropWhile_cons]
    split
    · rename_i hc
      refine ih ?_
      rw [all_cons, hc, Bool.true_and] at h
      exact h
    · rfl

theorem afterComment_append (h : afterComment s = some rest) (t : List Char) :
    afterComment (s ++ t) = some (rest ++ t) := by
  fun_induction afterComment s with
  | case1 rest' =>
    cases h
    rfl
  | case2 c rest' hopen ih =>
    rw [cons_append, afterComment]
    · exact ih h
    · rintro tail rfl hcons
      cases rest' with
      | nil =>
        cases h
      | cons c' rest' =>
        obtain ⟨rfl, -⟩ := cons.inj hcons
        exact hopen rest' rfl rfl
  | case3 => cases h

variable {quote : Char}

theorem afterQuote_append (hd : d ≠ quote) (h : afterQuote quote s = some rest) (u : List Char) :
    afterQuote quote (s ++ d :: u) = some (rest ++ d :: u) := by
  fun_induction afterQuote quote s with
  | case1 => cases h
  | case2 =>
    cases h
    simp [afterQuote, hd]
  | case3 => cases h
  | case4 rest' ih =>
    simp only [cons_append, afterQuote, if_true]
    exact ih h
  | case5 c' rest' hsingle =>
    cases h
    simp [afterQuote, hsingle]
  | case6 c c' rest' hquote ih =>
    simp only [cons_append, afterQuote, if_neg hquote]
    exact ih h

/-- What no quote closes, no closing parenthesis closes. -/
theorem afterQuote_eq_none (hd : d ≠ quote) (h : afterQuote quote s = none) :
    afterQuote quote (s ++ [d]) = none := by
  fun_induction afterQuote quote s with
  | case1 => simp [afterQuote, hd]
  | case2 => cases h
  | case3 c hquote => simp [afterQuote, hquote, hd]
  | case4 rest' ih =>
    simp only [cons_append, afterQuote, if_true]
    exact ih h
  | case5 => cases h
  | case6 c c' rest' hquote ih =>
    simp only [cons_append, afterQuote, if_neg hquote]
    exact ih h

theorem afterBracket_append (h : afterBracket s = some rest) (t : List Char) :
    afterBracket (s ++ t) = some (rest ++ t) := by
  induction s with
  | nil => cases h
  | cons c s ih =>
    rw [cons_append]
    unfold afterBracket at h ⊢
    split
    · rename_i hclose
      rw [if_pos hclose] at h
      rw [Option.some.inj h]
    · rename_i hopen
      rw [if_neg hopen] at h
      exact ih h

theorem afterBracket_eq_none (hd : d ≠ ']') (h : afterBracket s = none) :
    afterBracket (s ++ [d]) = none := by
  induction s with
  | nil => simp [afterBracket, hd]
  | cons c s ih =>
    rw [cons_append]
    unfold afterBracket at h ⊢
    split
    · rename_i hclose
      rw [if_pos hclose] at h
      cases h
    · rename_i hopen
      rw [if_neg hopen] at h
      exact ih h

theorem afterBlob_append (hd : EndsTokens d) (even : Bool) (s u : List Char) :
    afterBlob even (s ++ d :: u) = (afterBlob even s).map (· ++ d :: u) := by
  induction s generalizing even with
  | nil => rcases hd with rfl | rfl <;> rfl
  | cons c s ih =>
    simp only [cons_append, afterBlob]
    split
    · exact ih _
    · split <;> rfl

theorem afterDigits_append (hd : EndsTokens d) (s u : List Char) :
    afterDigits (s ++ d :: u) = afterDigits s ++ d :: u :=
  dropWhile_append_stop (by rcases hd with rfl | rfl <;> rfl) s u

/-- What neither of the two meets, a stop does not. -/
theorem EndsTokens.fails (hd : EndsTokens d) (hclose : p ')' = false) (hblank
    : p ' ' = false) : p d = false := by
  rcases hd with rfl | rfl
  · exact hclose
  · exact hblank

theorem afterExponent_append (hd : EndsTokens d) (s u : List Char) :
    afterExponent (s ++ d :: u) = afterExponent s ++ d :: u := by
  unfold afterExponent
  rw [hasHead_append (hd.fails rfl rfl)]
  split
  · rename_i hhead
    rw [tail_append_of_hasHead hhead, hasHead_append (hd.fails rfl rfl)]
    split
    · exact afterDigits_append hd _ _
    · rw [hasHead_append (hd.fails rfl rfl)]
      split
      · rename_i hsign
        rw [tail_append_of_hasHead hsign, hasHead_append (hd.fails rfl rfl)]
        split
        · exact afterDigits_append hd _ _
        · rfl
      · rfl
  · rfl

theorem afterNumeral_append (hd : EndsTokens d) (c : Char) (s u : List Char) :
    afterNumeral c (s ++ d :: u) = afterNumeral c s ++ d :: u := by
  unfold afterNumeral
  rw [hasHead_append (hd.fails rfl rfl)]
  by_cases hhex : hasHead (fun c => c == 'x' || c == 'X') s = true
  · rw [tail_append_of_hasHead hhex, hasHead_append (hd.fails rfl rfl)]
    split
    · exact dropWhile_append_stop (hd.fails rfl rfl) _ _
    · rw [afterDigits_append hd, afterExponent_append hd, hasHead_append (hd.fails rfl rfl)]
      split
      · rfl
      · split
        · rename_i hpoint
          rw [tail_append_of_hasHead hpoint, afterDigits_append hd, afterExponent_append hd]
        · rfl
  · have hnot : ∀ q : Prop, ¬(c = '0' ∧ hasHead (fun c => c == 'x' || c == 'X') s = true ∧ q) :=
      fun q h => hhex h.2.1
    simp only [if_neg (hnot _), afterDigits_append hd, afterExponent_append hd]
    rw [hasHead_append (hd.fails rfl rfl)]
    split
    · rfl
    · split
      · rename_i hpoint
        rw [tail_append_of_hasHead hpoint, afterDigits_append hd, afterExponent_append hd]
      · rfl

theorem afterNumber_append (hd : EndsTokens d) (c : Char) (s u : List Char) :
    afterNumber c (s ++ d :: u) = (afterNumber c s).map (· ++ d :: u) := by
  unfold afterNumber
  rw [afterNumeral_append hd, hasHead_append (hd.fails rfl rfl)]
  split <;> rfl

theorem afterOperator_append (hd : EndsTokens d) (c : Char) (s u : List Char) :
    afterOperator c (s ++ d :: u) = (afterOperator c s).map (· ++ d :: u) := by
  have hdrop : ∀ p : Char → Bool, p ')' = false → p ' ' = false →
      some (dropIf p (s ++ d :: u)) = (some (dropIf p s)).map (· ++ d :: u) := by
    intro p hclose hblank
    rw [dropIf_append (hd.fails hclose hblank)]
    rfl
  unfold afterOperator
  split
  · rw [hasHead_append (hd.fails rfl rfl)]
    split
    · rename_i hhead
      rw [tail_append_of_hasHead hhead, dropIf_append (hd.fails rfl rfl)]
      rfl
    · rfl
  · split
    · exact hdrop _ rfl rfl
    · split
      · exact hdrop _ rfl rfl
      · split
        · exact hdrop _ rfl rfl
        · split
          · exact hdrop _ rfl rfl
          · split
            · rw [hasHead_append (hd.fails rfl rfl)]
              split
              · rename_i hhead
                rw [tail_append_of_hasHead hhead]
                rfl
              · rfl
            · split <;> rfl

theorem afterIndex_append (h : afterIndex s = some rest) (t : List Char) :
    afterIndex (s ++ t) = some (rest ++ t) := by
  induction s with
  | nil => cases h
  | cons c s ih =>
    rw [cons_append]
    unfold afterIndex at h ⊢
    split
    · rename_i hclose
      rw [if_pos hclose] at h
      rw [Option.some.inj h]
    · rename_i hopen
      rw [if_neg hopen] at h
      split
      · rename_i hspace
        rw [if_pos hspace] at h
        cases h
      · rename_i hspace
        rw [if_neg hspace] at h
        exact ih h

/-- A closing parenthesis may close the array part of a parameter; then nothing is left. -/
theorem afterIndex_of_none (h : afterIndex s = none) :
    afterIndex (s ++ [')']) = none ∨ afterIndex (s ++ [')']) = some [] := by
  induction s with
  | nil => exact .inr rfl
  | cons c s ih =>
    rw [cons_append]
    unfold afterIndex at h ⊢
    split
    · rename_i hclose
      rw [if_pos hclose] at h
      cases h
    · rename_i hopen
      rw [if_neg hopen] at h
      split
      · exact .inl rfl
      · rename_i hspace
        rw [if_neg hspace] at h
        exact ih h

variable {named : Bool}

theorem afterParameter_append (hd : EndsTokens d) (h : afterParameter named s = some rest)
    (u : List Char) :
    afterParameter named (s ++ d :: u) = some (rest ++ d :: u) := by
  have hid : isIdChar d = false := hd.fails rfl rfl
  have hopen : d ≠ '(' := by rcases hd with rfl | rfl <;> decide
  have hcolon : d ≠ ':' := by rcases hd with rfl | rfl <;> decide
  have hstop : afterParameter true (d :: u) = some (d :: u) := by
    cases u <;> simp [afterParameter, hid, hopen, hcolon]
  fun_induction afterParameter named s with
  | case1 =>
    cases h
    exact hstop
  | case2 => cases h
  | case3 named c hc =>
    cases h
    simp only [cons_append, nil_append, afterParameter, if_pos hc]
    exact hstop
  | case4 => cases h
  | case5 c hc hnot =>
    cases h
    have hnotOpen : c ≠ '(' := fun heq => hnot ⟨heq, rfl⟩
    simp [afterParameter, hc, hnotOpen, hcolon]
  | case6 => cases h
  | case7 named c c' rest' hc ih =>
    simp only [cons_append, afterParameter, if_pos hc]
    exact ih h
  | case8 named c c' rest' hc hopens =>
    simp only [cons_append, afterParameter, if_neg hc, if_pos hopens]
    exact afterIndex_append h _
  | case9 named c c' rest' hc hopens hcolons ih =>
    simp only [cons_append, afterParameter, if_neg hc, if_neg hopens, if_pos hcolons]
    exact ih h
  | case10 c c' rest' hc hcolons hopens =>
    cases h
    have hnotOpen : c ≠ '(' := fun heq => hopens ⟨heq, rfl⟩
    simp [afterParameter, hc, hnotOpen, hcolons]
  | case11 => cases h

theorem afterParameter_of_none (h : afterParameter named s = none) :
    afterParameter named (s ++ [')']) = none ∨ afterParameter named (s ++ [')']) = some [] := by
  fun_induction afterParameter named s with
  | case1 => cases h
  | case2 named hnamed =>
    left
    have hclose : isIdChar ')' = false := by decide
    simp [afterParameter, hnamed, hclose]
  | case3 => cases h
  | case4 named c hc hopens =>
    right
    simp only [cons_append, nil_append, afterParameter, if_neg hc, if_pos hopens]
    rfl
  | case5 => cases h
  | case6 named c hc hopens hnamed =>
    left
    have hcolon : ¬(c = ':' ∧ ')' = ':') := fun heq => absurd heq.2 (by decide)
    simp only [cons_append, nil_append, afterParameter, if_neg hc, if_neg hopens,
      if_neg hcolon, if_neg hnamed]
  | case7 named c c' rest' hc ih =>
    simp only [cons_append, afterParameter, if_pos hc]
    exact ih h
  | case8 named c c' rest' hc hopens =>
    simp only [cons_append, afterParameter, if_neg hc, if_pos hopens]
    exact afterIndex_of_none h
  | case9 named c c' rest' hc hopens hcolons ih =>
    simp only [cons_append, afterParameter, if_neg hc, if_neg hopens, if_pos hcolons]
    exact ih h
  | case10 => cases h
  | case11 named c c' rest' hc hopens hcolons hnamed =>
    left
    simp only [cons_append, afterParameter, if_neg hc, if_neg hopens, if_neg hcolons,
      if_neg hnamed]

/-! ## What follows a piece -/

/-- With `t` after the text, a piece that does not run on is the same. -/
def Goes (t : List Char) (a b : Option Lexeme) : Prop :=
  ∀ l, a = some l → l.runsOn = false → b = some { l with rest := l.rest ++ t }

/-- With a closing parenthesis after the text, a piece that runs on takes it in; what is no token
takes it in or is none. -/
def Ends (a b : Option Lexeme) : Prop :=
  (a = none → b = none ∨ b = some { kind := .other, rest := [] }) ∧
    ∀ l, a = some l → l.runsOn = true → b = some { kind := .space, rest := [], runsOn := true }

variable {a' b' : Option Lexeme}

theorem Goes.ite {p : Prop} [Decidable p] {a b : Option Lexeme} (h : p → Goes t a b)
    (h' : ¬p → Goes t a' b') :
    Goes t (if p then a else a') (if p then b else b') := by
  split
  · exact h ‹_›
  · exact h' ‹_›

theorem Ends.ite {p : Prop} [Decidable p] {a b : Option Lexeme} (h : p → Ends a b)
    (h' : ¬p → Ends a' b') : Ends (if p then a else a') (if p then b else b') := by
  split
  · exact h ‹_›
  · exact h' ‹_›

variable {l l' : Lexeme}

theorem Goes.some (h : l' = { l with rest := l.rest ++ t }) :
    Goes t (some l) (some l') := by
  intro l₁ hl₁ _
  cases hl₁
  rw [h]

theorem Ends.some (h : l.runsOn = false) : Ends (some l) (some l') := by
  refine ⟨fun hnone => (by cases hnone), fun l₁ hl₁ hruns => ?_⟩
  cases hl₁
  rw [h] at hruns
  cases hruns

variable {a b : Option (List Char)}

theorem Goes.map (h : ∀ rest, a = Option.some rest → b = Option.some (rest ++ t)) :
    Goes t (a.map fun rest => { kind := .other, rest })
      (b.map fun rest => { kind := .other, rest }) := by
  intro l hl _
  obtain ⟨rest, hrest, rfl⟩ := Option.map_eq_some_iff.mp hl
  rw [h rest hrest]
  rfl

theorem Ends.map (h : a = none → b = none ∨ b = Option.some []) :
    Ends (a.map fun rest => { kind := .other, rest })
      (b.map fun rest => { kind := .other, rest }) := by
  refine ⟨fun hnone => ?_, fun l hl hruns => ?_⟩
  · rcases h (Option.map_eq_none_iff.mp hnone) with hb | hb
    · exact .inl (by rw [hb]; rfl)
    · exact .inr (by rw [hb]; rfl)
  · obtain ⟨rest, -, rfl⟩ := Option.map_eq_some_iff.mp hl
    cases hruns

theorem of_map_append (h : b = a.map (· ++ t)) :
    ∀ rest, a = some rest → b = some (rest ++ t) := by
  intro rest hrest
  rw [h, hrest]
  rfl

theorem none_of_map_append (h : b = a.map (· ++ t)) :
    a = none → b = none ∨ b = some [] := by
  intro hnone
  rw [h, hnone]
  exact .inl rfl

theorem afterComment_eq_none (h : afterComment s = none) : afterComment (s ++ [')']) = none := by
  fun_induction afterComment s with
  | case1 => cases h
  | case2 c rest' hopen ih =>
    rw [cons_append, afterComment]
    · exact ih h
    · rintro tail rfl hcons
      cases rest' with
      | nil => cases hcons
      | cons c' rest' =>
        obtain ⟨rfl, -⟩ := cons.inj hcons
        exact hopen rest' rfl rfl
  | case3 => rfl

/-- **A piece, with more text after it.** -/
theorem lexeme_goes (hd : EndsTokens d) (c : Char) (s u : List Char) :
    Goes (d :: u) (lexeme c s) (lexeme c (s ++ d :: u)) := by
  have hquote : ∀ q, q = '\'' ∨ q = '"' ∨ q = '`' → d ≠ q := by
    rintro q (rfl | rfl | rfl) <;> rcases hd with rfl | rfl <;> decide
  unfold lexeme
  rw [hasHead_append (hd.fails rfl rfl), hasHead_append (hd.fails rfl rfl),
    hasHead_append (hd.fails rfl rfl), hasHead_append (hd.fails rfl rfl)]
  refine .ite (fun _ => .some rfl) fun _ => .ite (fun _ => .some rfl) fun _ => .ite (fun _ => ?_)
    fun _ => .ite (fun _ => ?_) fun _ => .ite (fun hopens => ?_) fun _ => .ite (fun hquotes => ?_)
    fun _ => .ite (fun _ => ?_) fun _ => .ite (fun hblob => ?_) fun _ => .ite (fun _ => ?_)
    fun _ => .ite (fun _ => .some rfl) fun _ => .ite (fun _ => ?_) fun _ => .ite (fun _ => ?_)
    fun _ => .ite (fun _ => ?_) fun _ => ?_
  · exact .some (by rw [dropWhile_append_stop (hd.fails rfl rfl)])
  · -- a line comment that ends, ends where it did
    intro l hl hruns
    cases hl
    dsimp only at hruns ⊢
    rw [dropWhile_append_of_all hruns, all_append, hruns, Bool.false_and]
  · by_cases htail : s.tail = []
    · rw [if_pos htail]
      intro l hl hruns
      cases hl
      cases hruns
    · have htail' : (s ++ d :: u).tail = s.tail ++ d :: u := tail_append_of_hasHead hopens.2 _
      rw [if_neg htail, htail', if_neg (by simp)]
      intro l hl hruns
      split at hl
      · rename_i rest hrest
        cases hl
        rw [afterComment_append hrest]
      · cases hl
        cases hruns
  · exact .map fun rest hrest => afterQuote_append (hquote c hquotes) hrest u
  · exact .map fun rest hrest => afterBracket_append hrest _
  · rw [tail_append_of_hasHead hblob.2]
    exact .map (of_map_append (afterBlob_append hd true s.tail u))
  · exact .map (of_map_append (afterNumber_append hd c s u))
  · exact .some (by rw [dropWhile_append_stop (hd.fails rfl rfl)])
  · exact .some (by rw [afterDigits_append hd])
  · exact .map fun rest hrest => afterParameter_append hd hrest u
  · exact .map (of_map_append (afterOperator_append hd c s u))

/-- **A piece, with a closing parenthesis after the text.** -/
theorem lexeme_ends (s : List Char) :
    Ends (lexeme c s) (lexeme c (s ++ [')'])) := by
  have hd : EndsTokens ')' := .inl rfl
  unfold lexeme
  rw [hasHead_append rfl, hasHead_append rfl, hasHead_append rfl, hasHead_append rfl]
  refine .ite (fun _ => .some rfl) fun _ => .ite (fun _ => .some rfl)
    fun _ => .ite (fun _ => .some rfl) fun _ => .ite (fun _ => ?_)
    fun _ => .ite (fun hopens => ?_) fun _ => .ite (fun hquotes => ?_)
    fun _ => .ite (fun _ => ?_) fun _ => .ite (fun hblob => ?_) fun _ => .ite (fun _ => ?_)
    fun _ => .ite (fun _ => .some rfl) fun _ => .ite (fun _ => .some rfl)
    fun _ => .ite (fun _ => .some rfl) fun _ => .ite (fun _ => ?_) fun _ => ?_
  · refine ⟨fun hnone => (by cases hnone), fun l hl hruns => ?_⟩
    cases hl
    dsimp only at hruns
    have hall : (s ++ [')']).all (· != '\n') = true := by
      rw [all_append, hruns]
      rfl
    rw [dropWhile_eq_nil_iff.mpr fun c hc => all_eq_true.mp hall c hc, hall]
  · have htail' : (s ++ [')']).tail = s.tail ++ [')'] := tail_append_of_hasHead hopens.2 _
    have hmore : s.tail ++ [')'] ≠ [] := by simp
    rw [htail', if_neg hmore]
    by_cases htail : s.tail = []
    · rw [if_pos htail, htail]
      exact ⟨fun hnone => (by cases hnone), fun l hl hruns => rfl⟩
    · rw [if_neg htail]
      cases hclose : afterComment s.tail with
      | some rest =>
        rw [afterComment_append hclose]
        exact .some rfl
      | none =>
        rw [afterComment_eq_none hclose]
        exact ⟨fun hnone => (by cases hnone), fun l hl hruns => rfl⟩
  · refine .map fun hnone => .inl (afterQuote_eq_none ?_ hnone)
    rcases hquotes with rfl | rfl | rfl <;> decide
  · exact .map fun hnone => .inl (afterBracket_eq_none (by decide) hnone)
  · rw [tail_append_of_hasHead hblob.2]
    exact .map (none_of_map_append (afterBlob_append hd true s.tail []))
  · exact .map (none_of_map_append (afterNumber_append hd c s []))
  · exact .map afterParameter_of_none
  · exact .map (none_of_map_append (afterOperator_append hd c s []))

/-! ## Readings -/

theorem afterComment_suffix (h : afterComment s = some rest) : rest <:+ s := by
  fun_induction afterComment s with
  | case1 rest' =>
    cases h
    exact (suffix_cons _ _).trans (suffix_cons _ _)
  | case2 c rest' hopen ih => exact (ih h).trans (suffix_cons _ _)
  | case3 => cases h

theorem afterQuote_suffix (h : afterQuote quote s = some rest) : rest <:+ s := by
  fun_induction afterQuote quote s with
  | case1 | case3 => cases h
  | case2 =>
    cases h
    exact nil_suffix
  | case4 rest' ih => exact (ih h).trans ((suffix_cons _ _).trans (suffix_cons _ _))
  | case5 =>
    cases h
    exact suffix_cons _ _
  | case6 c c' rest' hquote ih => exact (ih h).trans (suffix_cons _ _)

theorem afterBracket_suffix (h : afterBracket s = some rest) : rest <:+ s := by
  fun_induction afterBracket s with
  | case1 => cases h
  | case2 =>
    cases h
    exact suffix_cons _ _
  | case3 c rest' hopen ih => exact (ih h).trans (suffix_cons _ _)

theorem afterBlob_suffix {even : Bool} (h : afterBlob even s = some rest) : rest <:+ s := by
  fun_induction afterBlob even s with
  | case1 | case4 => cases h
  | case2 even c rest' hhex ih => exact (ih h).trans (suffix_cons _ _)
  | case3 =>
    cases h
    exact suffix_cons _ _

theorem afterDigits_suffix (s : List Char) : afterDigits s <:+ s := dropWhile_suffix _

theorem afterExponent_suffix (s : List Char) : afterExponent s <:+ s := by
  unfold afterExponent
  split
  · split
    · exact (afterDigits_suffix _).trans (tail_suffix _)
    · split
      · split
        · exact (afterDigits_suffix _).trans ((tail_suffix _).trans (tail_suffix _))
        · exact suffix_rfl
      · exact suffix_rfl
  · exact suffix_rfl

theorem afterNumeral_suffix (s : List Char) : afterNumeral c s <:+ s := by
  unfold afterNumeral
  have hdigits := afterDigits_suffix s
  split
  · exact (dropWhile_suffix _).trans (tail_suffix _)
  · split
    · exact (afterExponent_suffix _).trans hdigits
    · split
      · exact (afterExponent_suffix _).trans ((afterDigits_suffix _).trans
          ((tail_suffix _).trans hdigits))
      · exact (afterExponent_suffix _).trans hdigits

variable {c}

theorem afterNumber_suffix (h : afterNumber c s = some rest) : rest <:+ s := by
  unfold afterNumber at h
  split at h
  · cases h
  · rw [← Option.some.inj h]
    exact afterNumeral_suffix c s

theorem afterIndex_suffix (h : afterIndex s = some rest) : rest <:+ s := by
  fun_induction afterIndex s with
  | case1 | case3 => cases h
  | case2 =>
    cases h
    exact suffix_cons _ _
  | case4 c rest' hopen hspace ih => exact (ih h).trans (suffix_cons _ _)

theorem afterParameter_suffix (h : afterParameter named s = some rest) :
    rest <:+ s := by
  fun_induction afterParameter named s with
  | case1 | case3 =>
    cases h
    exact nil_suffix
  | case2 | case4 | case6 | case11 => cases h
  | case5 | case10 =>
    cases h
    exact suffix_rfl
  | case7 named c c' rest' hc ih => exact (ih h).trans (suffix_cons _ _)
  | case8 named c c' rest' hc hopens =>
    exact (afterIndex_suffix h).trans (suffix_cons _ _)
  | case9 named c c' rest' hc hopens hcolons ih =>
    exact (ih h).trans ((suffix_cons _ _).trans (suffix_cons _ _))

theorem dropIf_suffix (p : Char → Bool) (s : List Char) : dropIf p s <:+ s := by
  unfold dropIf
  split
  · exact tail_suffix _
  · exact suffix_rfl

theorem afterOperator_suffix (h : afterOperator c s = some rest) : rest <:+ s := by
  unfold afterOperator at h
  repeat' split at h
  all_goals cases h
  · exact (dropIf_suffix _ _).trans (tail_suffix _)
  · exact suffix_rfl
  all_goals first
    | exact dropIf_suffix _ _
    | exact tail_suffix _
    | exact suffix_rfl

/-- What follows the piece is the end of the text. -/
def Within (s : List Char) (a : Option Lexeme) : Prop := ∀ l, a = some l → l.rest <:+ s

theorem Within.ite {p : Prop} [Decidable p] {a : Option Lexeme} (h : p → Within s a)
    (h' : ¬p → Within s a') : Within s (if p then a else a') := by
  split
  · exact h ‹_›
  · exact h' ‹_›

theorem Within.some (h : l.rest <:+ s) : Within s (some l) := by
  intro l' hl'
  cases hl'
  exact h

theorem Within.map (h : ∀ rest, a = Option.some rest → rest <:+ s) :
    Within s (a.map fun rest => { kind := .other, rest }) := by
  intro l hl
  obtain ⟨rest, hrest, rfl⟩ := Option.map_eq_some_iff.mp hl
  exact h rest hrest

theorem lexeme_suffix (h : lexeme c s = some l) : l.rest <:+ s := by
  have hrefl : s <:+ s := suffix_rfl
  suffices hwithin : Within s (lexeme c s) from hwithin l h
  clear h
  unfold lexeme
  refine .ite (fun _ => .some hrefl) fun _ => .ite (fun _ => .some hrefl)
    fun _ => .ite (fun _ => .some (dropWhile_suffix _))
    fun _ => .ite (fun _ => .some (dropWhile_suffix _))
    fun _ => .ite (fun _ => .ite (fun _ => .some hrefl) fun _ => ?_)
    fun _ => .ite (fun _ => .map fun _ => afterQuote_suffix)
    fun _ => .ite (fun _ => .map fun _ => afterBracket_suffix)
    fun _ => .ite (fun _ => .map fun _ hrest => (afterBlob_suffix hrest).trans (tail_suffix _))
    fun _ => .ite (fun _ => .map fun _ => afterNumber_suffix) fun _ => .ite (fun _ => .some hrefl)
    fun _ => .ite (fun _ => .some (dropWhile_suffix _))
    fun _ => .ite (fun _ => .some (afterDigits_suffix s))
    fun _ => .ite (fun _ => .map fun _ => afterParameter_suffix)
    fun _ => .map fun _ => afterOperator_suffix
  cases hclose : afterComment s.tail with
  | none => exact .some nil_suffix
  | some rest => exact .some ((afterComment_suffix hclose).trans (tail_suffix _))

theorem read_eq_lex {fuel : Nat} {text : List Char} (h : text.length ≤ fuel) :
    read fuel text = lex text := by
  suffices hall : ∀ {fuel fuel' : Nat} {text : List Char}, text.length ≤ fuel →
      text.length ≤ fuel' → read fuel text = read fuel' text from hall h (Nat.le_refl _)
  clear h
  intro fuel
  induction fuel with
  | zero =>
    intro fuel' text h h'
    obtain rfl := eq_nil_of_length_eq_zero (Nat.le_zero.mp h)
    cases fuel' <;> rfl
  | succ fuel ih =>
    intro fuel' text h h'
    cases text with
    | nil => cases fuel' <;> rfl
    | cons c s =>
      cases fuel' with
      | zero => cases h'
      | succ fuel' =>
        simp only [read]
        cases hl : lexeme c s with
        | none => rfl
        | some l =>
          have hlength := (lexeme_suffix hl).length_le
          rw [length_cons] at h h'
          rw [Option.bind_some, Option.bind_some,
            @ih fuel' l.rest (by omega) (by omega)]

theorem lex_cons (c : Char) (s : List Char) :
    lex (c :: s) = (lexeme c s).bind fun l => (lex l.rest).map fun r =>
      { tokens := l.emit c s ++ r.tokens, runsOn := l.runsOn || r.runsOn } := by
  unfold lex
  rw [length_cons, read]
  cases hl : lexeme c s with
  | none => rfl
  | some l =>
    rw [Option.bind_some, Option.bind_some, read_eq_lex (lexeme_suffix hl).length_le]
    rfl

/-- A token, with so many characters more after it. -/
def shift (n : Nat) (token : SqlToken × Nat) : SqlToken × Nat := (token.1, token.2 + n)

theorem emit_append (hl : lexeme c s = some l) (t : List Char) :
    Lexeme.emit { l with rest := l.rest ++ t } c (s ++ t) =
      (l.emit c s).map (shift t.length) := by
  have hle := (lexeme_suffix hl).length_le
  unfold Lexeme.emit
  cases l.kind with
  | space => rfl
  | lparen | rparen => simp [shift]
  | other =>
    have htake : (c :: (s ++ t)).take ((c :: (s ++ t)).length - (l.rest ++ t).length) =
        (c :: s).take ((c :: s).length - l.rest.length) := by
      rw [← cons_append, length_append, length_append, Nat.add_sub_add_right,
        take_append_of_le_length (Nat.sub_le _ _)]
    dsimp only
    rw [htake]
    simp [shift]

variable {r : Reading}

/-- **A text, with more after it**: where it does not run on, it is read as it is alone. -/
theorem lex_append (hd : EndsTokens d) (h : lex s = some r) (hruns : r.runsOn = false)
    (u : List Char) :
    lex (s ++ d :: u) = (lex (d :: u)).map fun r' =>
      { tokens := r.tokens.map (shift (d :: u).length) ++ r'.tokens, runsOn := r'.runsOn } := by
  generalize hn : s.length = n
  induction n using Nat.strong_induction_on generalizing s r with
  | _ n ih =>
    cases s with
    | nil =>
      cases h
      simp
    | cons c s =>
      rw [lex_cons] at h
      obtain ⟨l, hl, hrest⟩ := Option.bind_eq_some_iff.mp h
      obtain ⟨r₁, hr₁, rfl⟩ := Option.map_eq_some_iff.mp hrest
      rw [Bool.or_eq_false_iff] at hruns
      have hle := (lexeme_suffix hl).length_le
      rw [length_cons] at hn
      rw [cons_append, lex_cons, lexeme_goes hd c s u l hl hruns.1, Option.bind_some]
      dsimp only
      rw [ih l.rest.length (by omega) hr₁ hruns.2 rfl, emit_append hl, hruns.1]
      cases lex (d :: u) with
      | none => rfl
      | some r' => simp

/-- **A text in front of a closing parenthesis**: where that one is read as a token, the text
alone is read, and does not run on. -/
theorem exists_lex_of_closed (h : lex (s ++ [')']) = some r) (hlast
    : (.rparen, 0) ∈ r.tokens) : ∃ r', lex s = some r' ∧ r'.runsOn = false := by
  generalize hn : s.length = n
  induction n using Nat.strong_induction_on generalizing s r with
  | _ n ih =>
    cases s with
    | nil => exact ⟨_, rfl, rfl⟩
    | cons c s =>
      rw [cons_append, lex_cons] at h
      obtain ⟨l', hl', hrest⟩ := Option.bind_eq_some_iff.mp h
      obtain ⟨r₁, hr₁, rfl⟩ := Option.map_eq_some_iff.mp hrest
      obtain ⟨hnone, hover⟩ := lexeme_ends c s
      cases hl : lexeme c s with
      | none =>
        -- what is no token is none, or takes the parenthesis in
        rcases hnone hl with hbad | hall
        · rw [hbad] at hl'
          cases hl'
        · cases hall.symm.trans hl'
          cases hr₁
          simp [Lexeme.emit] at hlast
      | some l =>
        cases hruns : l.runsOn with
        | true =>
          cases (hover l hl hruns).symm.trans hl'
          cases hr₁
          simp [Lexeme.emit] at hlast
        | false =>
          have hsame := lexeme_goes (.inl rfl) c s [] l hl hruns
          cases hsame.symm.trans hl'
          have hle := (lexeme_suffix hl).length_le
          rw [length_cons] at hn
          have hlater : (SqlToken.rparen, 0) ∈ r₁.tokens := by
            rcases mem_append.mp hlast with hnow | hlater
            · rw [emit_append hl] at hnow
              obtain ⟨token, -, hshift⟩ := mem_map.mp hnow
              have hzero := congrArg Prod.snd hshift
              simp [shift] at hzero
            · exact hlater
          obtain ⟨r₂, hr₂, hruns₂⟩ := ih l.rest.length (by omega) hr₁ hlater rfl
          refine ⟨{ tokens := l.emit c s ++ r₂.tokens, runsOn := l.runsOn || r₂.runsOn }, ?_, ?_⟩
          · rw [lex_cons, hl, Option.bind_some, hr₂]
            rfl
          · rw [hruns, hruns₂]
            rfl

theorem lex_positions (h : lex s = some r) :
    (∀ token ∈ r.tokens, token.2 < s.length) ∧ r.tokens.Pairwise fun token later =>
      later.2 < token.2 := by
  generalize hn : s.length = n
  induction n using Nat.strong_induction_on generalizing s r with
  | _ n ih =>
    cases s with
    | nil =>
      cases h
      exact ⟨fun _ hmem => (by cases hmem), List.Pairwise.nil⟩
    | cons c s =>
      rw [lex_cons] at h
      obtain ⟨l, hl, hrest⟩ := Option.bind_eq_some_iff.mp h
      obtain ⟨r₁, hr₁, rfl⟩ := Option.map_eq_some_iff.mp hrest
      have hle := (lexeme_suffix hl).length_le
      rw [length_cons] at hn
      obtain ⟨hbound, hpairs⟩ := ih l.rest.length (by omega) hr₁ rfl
      have hemit : ∀ token ∈ l.emit c s, token.2 = l.rest.length := by
        unfold Lexeme.emit
        cases l.kind <;> simp
      have hone : (l.emit c s).Pairwise fun token later => later.2 < token.2 := by
        unfold Lexeme.emit
        cases l.kind <;> simp
      refine ⟨fun token hmem => ?_, pairwise_append.mpr ⟨hone, hpairs, ?_⟩⟩
      · rcases mem_append.mp hmem with hnow | hlater
        · have := hemit token hnow
          omega
        · have := hbound token hlater
          omega
      · intro token hnow later hlater
        rw [hemit token hnow]
        exact hbound later hlater

theorem map_fst_shift (n : Nat) (tokens : List (SqlToken × Nat)) :
    (tokens.map (shift n)).map Prod.fst = tokens.map Prod.fst := by
  rw [map_map]
  rfl

theorem lex_blank (hs : hasHead (· == '\x0b') s = false) : lex (' ' :: s) = lex s := by
  have hrest : s.dropWhile (· == '\x0b') = s := by
    cases s with
    | nil => rfl
    | cons c s => exact dropWhile_cons_of_neg (by simpa [hasHead] using hs)
  have hblank : lexeme ' ' s = some { kind := .space, rest := s } := by
    rw [← hrest]
    show some _ = _
    rw [hrest, hrest]
  rw [lex_cons, hblank, Option.bind_some]
  cases lex s <;> rfl

theorem lexeme_name (hc : c.isAlpha = true ∨ c = '_') (hs : s.all isIdChar = true)
    (hrest : rest.all (· == '\n') = true) :
    lexeme c (s ++ rest) = some { kind := .other, rest := rest } := by
  have hnl : ∀ x ∈ rest, x = '\n' := fun x hx => by simpa using all_eq_true.mp hrest x hx
  have hquote : hasHead (· == '\'') (s ++ rest) = false := by
    cases s with
    | nil =>
      cases rest with
      | nil => rfl
      | cons x rest => rw [hnl x (mem_cons_self ..)]; rfl
    | cons x s =>
      have hx : isIdChar x = true := all_eq_true.mp hs x (mem_cons_self ..)
      show (x == '\'') = false
      by_contra hx'
      have : x = '\'' := by simpa using hx'
      subst this
      cases hx
  have hdrop : (s ++ rest).dropWhile isIdChar = rest := by
    rw [dropWhile_append_of_pos (all_eq_true.mp hs)]
    cases rest with
    | nil => rfl
    | cons x rest => rw [hnl x (mem_cons_self ..)]; rfl
  have hidchar : isIdChar c = true := by
    rcases hc with hc | rfl
    · simp [isIdChar, Char.isAlphanum, hc]
    · rfl
  have hnot : ∀ x, x.isAlpha = false → x ≠ '_' → c ≠ x := by
    rintro x hx hx' rfl
    rcases hc with hc | hc
    · rw [hx] at hc
      cases hc
    · exact hx' hc
  have hcode : 65 ≤ c.toNat := by
    rcases hc with hc | rfl
    · have hcases : 65 ≤ c.val.toNat ∧ c.val.toNat ≤ 90 ∨ 97 ≤ c.val.toNat ∧ c.val.toNat ≤ 122 := by
        change (decide (c.val ≥ 65 ∧ c.val ≤ 90) ||
          decide (c.val ≥ 97) && decide (c.val ≤ 122)) = true at hc
        simpa [UInt32.le_iff_toNat_le] using hc
      show 65 ≤ c.val.toNat
      omega
    · decide
  have hspace : ¬isSqlSpace c = true := by
    simp only [isSqlSpace, Bool.or_eq_true, Bool.and_eq_true, decide_eq_true_eq, beq_iff_eq]
    omega
  have hdigit : ¬c.isDigit = true := by
    have hlt : '9'.toNat < c.toNat := Nat.lt_of_lt_of_le (by decide) hcode
    simp only [Char.isDigit, Bool.and_eq_true, decide_eq_true_eq, not_and]
    exact fun _ hle => Nat.not_le_of_lt hlt (UInt32.le_iff_toNat_le.mp hle)
  unfold lexeme
  rw [hquote, if_neg (hnot '(' rfl (by decide)), if_neg (hnot ')' rfl (by decide)),
    if_neg fun h => hspace h.1, if_neg fun h => hnot '-' rfl (by decide) h.1,
    if_neg fun h => hnot '/' rfl (by decide) h.1,
    if_neg (by simp [hnot '\'' rfl (by decide), hnot '"' rfl (by decide),
      hnot '`' rfl (by decide)]),
    if_neg (hnot '[' rfl (by decide)), if_neg (by simp),
    if_neg (by simp [hdigit, hnot '.' rfl (by decide)]), if_neg (hnot '\uFEFF' rfl (by decide)),
    if_pos ⟨hidchar, hnot '$' rfl (by decide)⟩, hdrop]

theorem lex_name (hc : c.isAlpha = true ∨ c = '_') (hs : s.all isIdChar = true)
    (hrest : rest.all (· == '\n') = true) :
    lex (c :: (s ++ rest)) = (lex rest).map fun r =>
      { tokens := (.other (String.ofList (c :: s)), rest.length) :: r.tokens,
        runsOn := r.runsOn } := by
  have htake : (c :: (s ++ rest)).take ((c :: (s ++ rest)).length - rest.length) = c :: s := by
    rw [← cons_append, length_append, Nat.add_sub_cancel, take_left]
  rw [lex_cons, lexeme_name hc hs hrest, Option.bind_some]
  dsimp only [Lexeme.emit]
  rw [htake]
  cases lex rest <;> rfl

end

/-! ## Texts that are closed -/

def closedTokens (text : List Char) : Option (List SqlToken) :=
  match lex text with
  | some ⟨tokens, false⟩ => some (tokens.map Prod.fst)
  | _ => none

theorem closedTokens_eq_some {text : List Char} {tokens : List SqlToken} :
    closedTokens text = some tokens ↔
      ∃ r, lex text = some r ∧ r.runsOn = false ∧ r.tokens.map Prod.fst = tokens := by
  unfold closedTokens
  constructor
  · intro h
    split at h
    · rename_i tokens' hlex
      exact ⟨_, hlex, rfl, Option.some.inj h⟩
    · cases h
  · rintro ⟨⟨tokens', runs⟩, hlex, rfl, rfl⟩
    rw [hlex]

section
variable {a b : List Char} {ta tb : List SqlToken}

theorem closedTokens_append_blank (ha : closedTokens a = some ta)
    (hb : closedTokens b = some tb) : closedTokens (a ++ ' ' :: b) = some (ta ++ tb) := by
  obtain ⟨ra, hlexa, hruns, rfl⟩ := closedTokens_eq_some.mp ha
  obtain ⟨rb, hlexb, hrunsb, rfl⟩ := closedTokens_eq_some.mp hb
  have hhead : hasHead (· == '\x0b') b = false := by
    -- a text that starts so is not read
    cases b with
    | nil => rfl
    | cons c b =>
      by_contra hc
      have hc : c = '\x0b' := by simpa [hasHead] using hc
      subst hc
      rw [lex_cons] at hlexb
      cases hlexb
  refine closedTokens_eq_some.mpr ⟨{
    tokens := ra.tokens.map (shift (' ' :: b).length) ++ rb.tokens, runsOn := false }, ?_, rfl, ?_⟩
  · rw [lex_append (.inr rfl) hlexa hruns, lex_blank hhead, hlexb, Option.map_some, hrunsb]
  · rw [map_append, map_fst_shift]

theorem lex_append_open (ha : closedTokens a = some ta) (b : List Char) :
    ∃ before, before.map Prod.fst = ta ∧
      lex (a ++ ' ' :: '(' :: b) = (lex b).map fun r =>
        { tokens := before ++ (.lparen, b.length) :: r.tokens, runsOn := r.runsOn } := by
  obtain ⟨ra, hlexa, hruns, rfl⟩ := closedTokens_eq_some.mp ha
  refine ⟨ra.tokens.map (shift (' ' :: '(' :: b).length), map_fst_shift _ _, ?_⟩
  have hopen : lexeme '(' b = some { kind := .lparen, rest := b } := rfl
  rw [lex_append (.inr rfl) hlexa hruns, lex_blank rfl, lex_cons, hopen, Option.bind_some,
    Option.map_map]
  rfl

/-- **A closed text in parentheses.** -/
theorem lex_append_close (hb : closedTokens b = some tb) :
    ∃ inner, inner.map Prod.fst = tb ∧
      lex (b ++ [')']) = some { tokens := inner ++ [(.rparen, 0)], runsOn := false } := by
  obtain ⟨rb, hlexb, hruns, rfl⟩ := closedTokens_eq_some.mp hb
  refine ⟨rb.tokens.map (shift 1), map_fst_shift _ _, ?_⟩
  rw [lex_append (.inl rfl) hlexb hruns]
  rfl

end

/-! ## Tokens in parentheses -/

section
variable {p : String → Bool} {depth depth' : Nat} {tokens : List SqlToken}

section

variable (h : depthAfter depth tokens = some depth')

include h

theorem depthAfter_append (more : List SqlToken) :
    depthAfter depth (tokens ++ more) = depthAfter depth' more := by
  fun_induction depthAfter depth tokens with
  | case1 depth => rw [Option.some.inj h, nil_append]
  | case2 depth tokens ih => exact ih h
  | case3 => cases h
  | case4 depth tokens ih => exact ih h
  | case5 depth text tokens ih => exact ih h

theorem depthAfter_succ : depthAfter (depth + 1) tokens = some (depth' + 1) := by
  fun_induction depthAfter depth tokens with
  | case1 depth => rw [Option.some.inj h, depthAfter]
  | case2 depth tokens ih => exact ih h
  | case3 => cases h
  | case4 depth tokens ih => exact ih h
  | case5 depth text tokens ih => exact ih h

theorem breakAt_append (hnone : breakAt p depth tokens = none) (more : List SqlToken) :
    breakAt p depth (tokens ++ more) =
      (breakAt p depth' more).map fun (before, after) => (tokens ++ before, after) := by
  fun_induction depthAfter depth tokens with
  | case1 depth =>
    rw [Option.some.inj h]
    simp
  | case2 depth tokens ih =>
    rw [breakAt, Option.map_eq_none_iff] at hnone
    rw [cons_append, breakAt, ih h hnone, Option.map_map]
    rfl
  | case3 => cases h
  | case4 depth tokens ih =>
    rw [breakAt, Option.map_eq_none_iff, Nat.succ_sub_one] at hnone
    rw [cons_append, breakAt, Nat.succ_sub_one, ih h hnone, Option.map_map]
    rfl
  | case5 depth text tokens ih =>
    rw [breakAt] at hnone
    split at hnone
    · cases hnone
    · rename_i hkeeps
      rw [Option.map_eq_none_iff] at hnone
      rw [cons_append, breakAt, if_neg hkeeps, ih h hnone, Option.map_map]
      rfl

theorem breakAt_succ : breakAt p (depth + 1) tokens = none := by
  fun_induction depthAfter depth tokens with
  | case1 => rfl
  | case2 depth tokens ih | case4 depth tokens ih =>
    rw [breakAt, Option.map_eq_none_iff]
    exact ih h
  | case3 => cases h
  | case5 depth text tokens ih =>
    rw [breakAt, if_neg (by simp), Option.map_eq_none_iff]
    exact ih h

end

theorem balanced_group (h : Balanced tokens) : Balanced (.lparen :: (tokens ++ [.rparen])) := by
  have hinner : depthAfter 1 tokens = some 1 := depthAfter_succ h
  show depthAfter 1 (tokens ++ [.rparen]) = some 0
  rw [depthAfter_append hinner]
  rfl

theorem breakAt_group (h : Balanced tokens) :
    breakAt p 0 (.lparen :: (tokens ++ [.rparen])) = none := by
  have hinner : depthAfter 1 tokens = some 1 := depthAfter_succ h
  rw [breakAt, breakAt_append hinner (breakAt_succ h)]
  rfl

end

end StackOwl.Lib
