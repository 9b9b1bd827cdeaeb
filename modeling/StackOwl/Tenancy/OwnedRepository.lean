import Mathlib.Data.List.Infix
import StackOwl.Durable.FailureClass
import StackOwl.Lib.SqlLex

/-!
# Owner-scoped statements

`OwnedRepository` (`tenancy/owned_repository.py`) composes the statements of the stores:
`owner_id = ?` with the caller's fragment beside it in parentheses.  A write refuses a fragment
whose parentheses, counted as characters, do not match; a read refuses none; `_execute_owned`
takes a whole statement that has `owner_id = ?` somewhere in it.

SQLite's rules for tokens are those of `Lib.SqlLex`, and the three statements are cut at their
keywords.  What a condition or a list of assignments says of a row is SQLite's (`Sqlite`); of it
only what `AND` means is used (`Sqlite.Conjoins`).

A table has a row's owner beside its other cells, and the rows of the other tables may be looked
at by a subquery.
-/

namespace StackOwl.Tenancy

open Durable Lib

/-! ## Checks -/

/-- `[A-Za-z0-9_]`. -/
def isWordChar (c : Char) : Bool := c.isAlphanum || c == '_'

/-- `_IDENT_RE.match`; its `$` also stands before a newline at the end. -/
def isIdent (text : List Char) : Bool :=
  hasHead (fun c => c.isAlpha || c == '_') text &&
    (text.dropWhile isWordChar == [] || text.dropWhile isWordChar == ['\n'])

/-- The loop of `_is_paren_balanced`. -/
def parenBalancedFrom : Nat → List Char → Bool
  | depth, [] => depth == 0
  | depth, ch :: fragment =>
    if ch = '(' then parenBalancedFrom (depth + 1) fragment
    else if ch = ')' then
      match depth with
      | 0 => false
      | depth + 1 => parenBalancedFrom depth fragment
    else parenBalancedFrom depth fragment

def isParenBalanced (fragment : List Char) : Bool := parenBalancedFrom 0 fragment

/-- `" ".join(sql.lower().split())`, as far as ASCII goes. -/
def normalized (sql : List Char) : List Char :=
  List.intercalate [' ']
    (((sql.map Char.toLower).splitOnP isSpace).filter fun word => !word.isEmpty)

def bindsOwner (sql : List Char) : Bool :=
  decide ("owner_id = ?".toList <:+: normalized sql) ||
    decide ("owner_id=?".toList <:+: normalized sql)

/-! ## Calls -/

inductive OwnedCall (V : Type*) where
  /-- `_fetch_owned`. -/
  | fetch (table whereSql : String) (params : List V)
  /-- `_update_owned`. -/
  | update (table setSql : String) (setParams : List V) (whereSql : String)
      (whereParams : List V)
  /-- `_delete_owned`. -/
  | delete (table whereSql : String) (whereParams : List V)
  /-- `_execute_owned`. -/
  | execute (sql : String) (params : List V)

section
variable {V : Type*} [DecidableEq V]

def ownerClause (extra : List Char) : List Char :=
  "WHERE owner_id = ?".toList ++ if extra = [] then [] else " AND (".toList ++ extra ++ [')']

/-- The base composes the statement; `_execute_owned` takes one. -/
def OwnedCall.isComposed : OwnedCall V → Bool
  | .execute .. => false
  | _ => true

def OwnedCall.fragment : OwnedCall V → List Char
  | .fetch _ whereSql _ => strip whereSql.toList
  | .update _ _ _ whereSql _ => strip whereSql.toList
  | .delete _ whereSql _ => strip whereSql.toList
  | .execute .. => []

/-- The parameters that are bound; those of a `WHERE` fragment that is blank are left out of a
write. -/
def OwnedCall.bound (owner : V) : OwnedCall V → List V
  | .fetch _ _ params => owner :: params
  | .update _ _ setParams whereSql whereParams =>
    setParams ++ owner :: if strip whereSql.toList = [] then [] else whereParams
  | .delete _ whereSql whereParams =>
    owner :: if strip whereSql.toList = [] then [] else whereParams
  | .execute _ params => params

/-- The end of `_owner_scoped_write`; `params` are those of the `SET` list. -/
def ownerScopedWrite (owner : V) (head : List Char) (params : List V) (whereSql : String)
    (whereParams : List V) : Option (List Char × List V) :=
  let extra := strip whereSql.toList
  if extra = [] then some (head ++ ' ' :: ownerClause extra, params ++ [owner])
  else if isParenBalanced extra then
    some (head ++ ' ' :: ownerClause extra, params ++ owner :: whereParams)
  else none

/-- The statement a call runs and its parameters; `none` where the call raises `ValueError`. -/
def OwnedCall.compose (owner : V) : OwnedCall V → Option (List Char × List V)
  | .fetch table whereSql params =>
    some ("SELECT * FROM ".toList ++ table.toList ++ ' ' :: ownerClause (strip whereSql.toList),
      owner :: params)
  | .update table setSql setParams whereSql whereParams =>
    if isIdent table.toList then
      if strip setSql.toList = [] then none
      else
        ownerScopedWrite owner
          ("UPDATE ".toList ++ table.toList ++ " SET ".toList ++ strip setSql.toList) setParams
          whereSql whereParams
    else none
  | .delete table whereSql whereParams =>
    if isIdent table.toList then
      ownerScopedWrite owner ("DELETE FROM ".toList ++ table.toList) [] whereSql whereParams
    else none
  | .execute sql params =>
    if bindsOwner sql.toList then if owner ∈ params then some (sql.toList, params) else none
    else none

end

/-! ## SQLite -/

structure OwnedRow (V : Type*) where
  owner : V
  cells : List (String × V)
  deriving DecidableEq

abbrev Tables (V : Type*) := String → List (OwnedRow V)

/-- SQLite's meaning of expressions.  Of a condition with `before` parameters in front of it, and
of the assignments of a `SET` list: what it says of a row among the tables, unless it is not well
formed or the number of parameters is wrong; and how many parameters a `SET` list takes. -/
structure Sqlite (V : Type*) where
  condition : (before : Nat) → List SqlToken → List V → Option (Tables V → OwnedRow V → Bool)
  assignment : List SqlToken → List V → Option (Tables V → OwnedRow V → OwnedRow V)
  slots : List SqlToken → Nat

def isKeyword (keyword text : String) : Bool := text.toList.map Char.toUpper == keyword.toList

/-- `owner_id = ?`. -/
def ownerTokens : List SqlToken := [.other "owner_id", .other "=", .other "?"]

/-- What `AND` means: `owner_id = ?`, and what follows it where no `OR`, which binds less, stands
outside parentheses. -/
structure Sqlite.Conjoins {V : Type*} [DecidableEq V] (S : Sqlite V) : Prop where
  alone : ∀ before params c, S.condition before ownerTokens params = some c → ∀ db row,
    c db row = decide (params[before]? = some row.owner)
  conj : ∀ before rest params, Balanced rest → breakAt (isKeyword "OR") 0 rest = none →
    S.condition before (ownerTokens ++ .other "AND" :: rest) params =
      (S.condition (before + 1) rest params).map fun c db row =>
        decide (params[before]? = some row.owner) && c db row

/-- What a statement does with the rows that meet its condition. -/
inductive SqlAction where
  | returns
  | deletes
  | updates (assignments : List SqlToken)

structure SqlStatement where
  action : SqlAction
  table : String
  condition : Option (List SqlToken)

/-- The `WHERE` clause, or nothing. -/
def parseWhere : List SqlToken → Option (Option (List SqlToken))
  | [] => some none
  | .other keyword :: condition => if isKeyword "WHERE" keyword then some (some condition) else none
  | _ => none

def parseStatement : List SqlToken → Option SqlStatement
  | .other verb :: .other word :: .other word' :: rest =>
    if isKeyword "SELECT" verb ∧ word = "*" ∧ isKeyword "FROM" word' then
      match rest with
      | .other table :: rest => (parseWhere rest).map (.mk .returns table)
      | _ => none
    else if isKeyword "DELETE" verb ∧ isKeyword "FROM" word then
      (parseWhere rest).map (.mk .deletes word')
    else if isKeyword "UPDATE" verb ∧ isKeyword "SET" word' then
      match breakAt (isKeyword "WHERE") 0 rest with
      | none => some (.mk (.updates rest) word none)
      | some (assignments, condition) => some (.mk (.updates assignments) word (some condition))
    else none
  | _ => none

/-- What a statement does with a row of its table. -/
inductive Touch (V : Type*) where
  | leaves
  | returns
  | deletes
  | updates (row : OwnedRow V)
  deriving DecidableEq

structure Effect (V : Type*) where
  table : String
  touch : Tables V → OwnedRow V → Touch V

section
variable {V : Type*} [DecidableEq V]

def Effect.result (e : Effect V) (db : Tables V) : List (OwnedRow V) :=
  (db e.table).filter fun row => e.touch db row = .returns

namespace Sqlite

variable (S : Sqlite V)

def before : SqlAction → Nat
  | .updates assignments => S.slots assignments
  | _ => 0

def act (params : List V) : SqlAction → Option (Tables V → OwnedRow V → Touch V)
  | .returns => some fun _ _ => .returns
  | .deletes => some fun _ _ => .deletes
  | .updates assignments =>
    (S.assignment assignments params).map fun a db row => .updates (a db row)

def satisfies (before : Nat) (condition : Option (List SqlToken)) (params : List V) :
    Option (Tables V → OwnedRow V → Bool) :=
  match condition with
  | none => some fun _ _ => true
  | some tokens => S.condition before tokens params

def statementEffect (params : List V) (st : SqlStatement) : Option (Effect V) :=
  (S.act params st.action).bind fun act =>
    (S.satisfies (S.before st.action) st.condition params).map fun c =>
      { table := st.table, touch := fun db row => if c db row then act db row else .leaves }

def effect (text : List Char) (params : List V) : Option (Effect V) :=
  (lex text).bind fun r =>
    (parseStatement (r.tokens.map Prod.fst)).bind (S.statementEffect params)

end Sqlite

/-! ## What is claimed of a call -/

/-- The tables differ in the rows of other owners only. -/
def Agree (owner : V) (db db' : Tables V) : Prop :=
  ∀ table, (db table).filter (fun row => row.owner = owner) =
    (db' table).filter fun row => row.owner = owner

/-- Only rows of the owner are read or changed: others are left alone, what is done with a row
of the owner does not depend on them, and neither does what is returned. -/
structure EffectScoped (owner : V) (e : Effect V) : Prop where
  untouched : ∀ db, ∀ row ∈ db e.table, row.owner ≠ owner → e.touch db row = .leaves
  independent : ∀ db db', Agree owner db db' → ∀ row ∈ db e.table, row.owner = owner →
    e.touch db row = e.touch db' row
  sameResult : ∀ db db', Agree owner db db' → e.result db = e.result db'

/-- The parenthesis that has `inner` characters, and one more, after it is matched by the one at
the end of the text. -/
def Matched (text : List Char) (inner : Nat) : Prop :=
  ∃ r before mid, lex text = some r ∧
    r.tokens = before ++ (.lparen, inner + 1) :: (mid ++ [(.rparen, 0)]) ∧
    Balanced (mid.map Prod.fst)

/-- A call that is accepted is within the scope of the owner, and what the base opens before the
fragment is closed by what it appends. -/
def CallScoped (S : Sqlite V) (owner : V) (call : OwnedCall V) : Prop :=
  ∀ text params, call.compose owner = some (text, params) →
    (∀ e, S.effect text params = some e → EffectScoped owner e) ∧
      (call.fragment ≠ [] → Matched text call.fragment.length)

/-! ## Conditions -/

/-- What tokens say of the rows of the owner does not depend on those of others. -/
def OwnOnly {β : Type*} (owner : V) (table : String) (meaning : Tables V → OwnedRow V → β) :
    Prop :=
  ∀ db db', Agree owner db db' → ∀ row ∈ db table, row.owner = owner →
    meaning db row = meaning db' row

/-- A fragment that only narrows: outside literals and comments, none of which it leaves open,
its parentheses match, and it does not look at the rows of others. -/
def FragmentHolds (S : Sqlite V) (owner : V) (table : String) (before : Nat) (params : List V)
    (extra : List Char) : Prop :=
  extra = [] ∨ ∃ tokens, closedTokens extra = some tokens ∧ Balanced tokens ∧
    ∀ c, S.condition before (.lparen :: (tokens ++ [.rparen])) params = some c →
      OwnOnly owner table c

/-- A `SET` list that is one: closed, its parentheses match, and no `WHERE` stands outside them;
with as many parameters as it takes, so that the owner is bound where it belongs; and it does not
look at the rows of others. -/
def SetHolds (S : Sqlite V) (owner : V) (table : String) (params : List V) (set : List Char)
    (tokens : List SqlToken) : Prop :=
  closedTokens set = some tokens ∧ Balanced tokens ∧
    breakAt (isKeyword "WHERE") 0 tokens = none ∧ params[S.slots tokens]? = some owner ∧
    ∃ a, S.assignment tokens params = some a ∧ OwnOnly owner table a

/-- The name in a text that `isIdent` takes. -/
def tableName (table : String) : String := String.ofList (table.toList.takeWhile isWordChar)

/-- `owner_id = ?`, and what narrows it. -/
def ownerCondition : Option (List SqlToken) → List SqlToken
  | none => ownerTokens
  | some conj => ownerTokens ++ .other "AND" :: conj

/-- Tokens that only narrow: their parentheses match, no `OR` stands outside them, and they do not
look at the rows of others. -/
def NarrowingHolds (S : Sqlite V) (owner : V) (table : String) (before : Nat) (params : List V) :
    Option (List SqlToken) → Prop
  | none => True
  | some conj => Balanced conj ∧ breakAt (isKeyword "OR") 0 conj = none ∧
      ∀ c, S.condition before conj params = some c → OwnOnly owner table c

/-- A statement whose condition is `owner_id = ?`, with the owner bound there, and what narrows
it. -/
structure SqlStatement.Holds (S : Sqlite V) (owner : V) (params : List V)
    (narrowing : Option (List SqlToken)) (st : SqlStatement) : Prop where
  condition_eq : st.condition = some (ownerCondition narrowing)
  bound : params[S.before st.action]? = some owner
  act : ∀ act, S.act params st.action = some act → OwnOnly owner st.table act
  narrows : NarrowingHolds S owner st.table (S.before st.action + 1) params narrowing

/-- A text of the caller's own that is such a statement. -/
def StatementHolds (S : Sqlite V) (owner : V) (params : List V) (sql : List Char) : Prop :=
  ∃ r, lex sql = some r ∧ ∃ st, parseStatement (r.tokens.map Prod.fst) = some st ∧
    ∃ narrowing, st.Holds S owner params narrowing

/-- What the base puts in front of `WHERE` is what it is meant to be: a read names a table, and an
update has a `SET` list that is one. -/
def HeadHolds (S : Sqlite V) (owner : V) (call : OwnedCall V) : Prop :=
  match call with
  | .fetch table _ _ => isIdent table.toList = true
  | .update table setSql _ _ _ =>
    ∃ tokens, SetHolds S owner (tableName table) (call.bound owner) (strip setSql.toList) tokens
  | _ => True

/-- What the caller adds only narrows. -/
def ExtraHolds (S : Sqlite V) (owner : V) (call : OwnedCall V) : Prop :=
  match call with
  | .fetch table .. | .delete table .. =>
    FragmentHolds S owner (tableName table) 1 (call.bound owner) call.fragment
  | .update table setSql _ _ _ => ∀ tokens, closedTokens (strip setSql.toList) = some tokens →
    FragmentHolds S owner (tableName table) (S.slots tokens + 1) (call.bound owner) call.fragment
  | .execute sql params => StatementHolds S owner params sql.toList

end

end StackOwl.Tenancy
