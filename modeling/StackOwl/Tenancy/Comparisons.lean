import StackOwl.Tenancy.OwnedRepository

/-!
# Comparisons

SQLite's meaning of a small part of its conditions: comparisons with `=` of literals, columns and
parameters, with `AND`, `OR` and parentheses.  What is not there is not well formed here.

## Main results

* `comparisons_conjoins` — `AND` means what it does, as far as this part goes.
-/

namespace StackOwl.Tenancy

open Durable Lib Option

abbrev Predicate := OwnedRow String → Bool

def slots (tokens : List SqlToken) : Nat := tokens.count (.other "?")

/-- A literal, a column or the `n`-th parameter; a column may be `NULL`. -/
def operand (params : List String) (n : Nat) : SqlToken → Option (OwnedRow String → Option String)
  | .other text =>
    if text = "?" then params[n]?.map fun value _ => some value
    else if text = "owner_id" then some fun row => some row.owner
    else if isIdent text.toList then some fun row => row.cells.lookup text
    else
      match text.toList with
      | '\'' :: literal =>
        if '\'' ∈ literal.dropLast then none
        else some fun _ => some (String.ofList literal.dropLast)
      | _ => none
  | _ => none

/-- `=`, which is not true of `NULL`. -/
def compare (left right : OwnedRow String → Option String) : Predicate := fun row =>
  match left row, right row with
  | some a, some b => decide (a = b)
  | _, _ => false

def comparison (params : List String) (n : Nat) : List SqlToken → Option Predicate
  | [left, .other "=", right] =>
    (operand params n left).bind fun f =>
      (operand params (n + slots [left]) right).map fun g => compare f g
  | _ => none

/-- `n` parameters stand in front of the tokens. -/
def meaning (params : List String) : Nat → Nat → List SqlToken → Option Predicate
  | 0, _, _ => none
  | fuel + 1, n, tokens =>
    match breakAt (isKeyword "OR") 0 tokens with
    | some (left, right) =>
      (meaning params fuel n left).bind fun f =>
        (meaning params fuel (n + slots left) right).map fun g row => f row || g row
    | none =>
      match breakAt (isKeyword "AND") 0 tokens with
      | some (left, right) =>
        (meaning params fuel n left).bind fun f =>
          (meaning params fuel (n + slots left) right).map fun g row => f row && g row
      | none =>
        if tokens.head? = some .lparen ∧ tokens.getLast? = some .rparen then
          meaning params fuel n tokens.tail.dropLast
        else comparison params n tokens

/-- `column = operand`. -/
def assign (params : List String) : List SqlToken → Option (OwnedRow String → OwnedRow String)
  | [.other column, .other "=", value] =>
    (operand params 0 value).map fun f row =>
      { row with cells := (column, (f row).getD "") :: row.cells }
  | _ => none

def comparisons : Sqlite String where
  condition n tokens params :=
    if params.length = n + slots tokens then
      (meaning params (tokens.length + 1) n tokens).map fun f _ row => f row
    else none
  assignment tokens params := (assign params tokens).map fun f _ row => f row
  slots := slots

variable {params : List String}

theorem comparisons_ownOnly {owner table : String} {n : Nat} {tokens : List SqlToken}
    {c : Tables String → OwnedRow String → Bool}
    (h : comparisons.condition n tokens params = some c) : OwnOnly owner table c := by
  change (if _ then _ else _) = _ at h
  split at h
  · obtain ⟨f, -, rfl⟩ := map_eq_some_iff.mp h
    exact fun _ _ _ _ _ _ => rfl
  · cases h

/-! ## Fuel -/

theorem length_breakAt {p : String → Bool} {depth : Nat} {tokens left right : List SqlToken}
    (h : breakAt p depth tokens = some (left, right)) :
    left.length + right.length < tokens.length := by
  induction tokens generalizing depth left with
  | nil => cases h
  | cons token tokens ih =>
    have hlater : ∀ depth', (breakAt p depth' tokens).map (fun sides =>
        (token :: sides.1, sides.2)) = some (left, right) →
        left.length + right.length < (token :: tokens).length := by
      intro depth' h
      obtain ⟨⟨before, after⟩, hbreak, hsame⟩ := map_eq_some_iff.mp h
      obtain rfl : token :: before = left := (Prod.mk.inj hsame).1
      obtain rfl : after = right := (Prod.mk.inj hsame).2
      have := ih hbreak
      simp only [List.length_cons]
      omega
    cases token with
    | lparen => exact hlater _ h
    | rparen => exact hlater _ h
    | other text =>
      rw [breakAt] at h
      split at h
      · cases Option.some.inj h
        simp
      · exact hlater _ h

theorem meaning_fuel {fuel fuel' n : Nat} {tokens : List SqlToken} (h : tokens.length < fuel)
    (h' : tokens.length < fuel') :
    meaning params fuel n tokens = meaning params fuel' n tokens := by
  induction fuel generalizing fuel' n tokens with
  | zero => cases h
  | succ fuel ih =>
    cases fuel' with
    | zero => cases h'
    | succ fuel' =>
      rw [meaning, meaning]
      cases hor : breakAt (isKeyword "OR") 0 tokens with
      | some sides =>
        obtain ⟨left, right⟩ := sides
        have hlength := length_breakAt hor
        dsimp only
        rw [@ih fuel' n left (by omega) (by omega),
          @ih fuel' (n + slots left) right (by omega) (by omega)]
      | none =>
        cases hand : breakAt (isKeyword "AND") 0 tokens with
        | some sides =>
          obtain ⟨left, right⟩ := sides
          have hlength := length_breakAt hand
          dsimp only
          rw [@ih fuel' n left (by omega) (by omega),
            @ih fuel' (n + slots left) right (by omega) (by omega)]
        | none =>
          dsimp only
          split
          · rename_i hgroup
            have hlength : tokens.tail.dropLast.length = tokens.tail.length - 1 :=
              List.length_dropLast
            have hpos : 0 < tokens.length := List.length_pos_iff.mpr fun hnil => by
              rw [hnil] at hgroup
              cases hgroup.1
            rw [List.length_tail] at hlength
            exact ih (by omega) (by omega)
          · rfl

/-! ## `AND` -/

theorem breakAt_owner (p : String → Bool)
    (hp : p "owner_id" = false ∧ p "=" = false ∧ p "?" = false) (rest : List SqlToken) :
    breakAt p 0 (ownerTokens ++ rest) =
      (breakAt p 0 rest).map fun (before, after) => (ownerTokens ++ before, after) := by
  refine breakAt_append rfl ?_ rest
  simp [ownerTokens, breakAt, hp]

theorem meaning_owner (params : List String) (fuel n : Nat) :
    meaning params (fuel + 1) n ownerTokens =
      params[n]?.map fun value => compare (fun row => some row.owner) fun _ => some value := by
  have hor := breakAt_owner (isKeyword "OR") (by decide) []
  have hand := breakAt_owner (isKeyword "AND") (by decide) []
  rw [List.append_nil, breakAt, map_none] at hor hand
  rw [meaning, hor, hand]
  dsimp only
  rw [if_neg (by decide)]
  simp [ownerTokens, comparison, operand, slots, Function.comp_def]

theorem compare_owner (value : String) (row : OwnedRow String) :
    compare (fun row => some row.owner) (fun _ => some value) row =
      decide (some value = some row.owner) := by
  rw [compare, decide_eq_decide, Option.some.injEq]
  exact eq_comm

theorem slots_owner (rest : List SqlToken) :
    slots (ownerTokens ++ .other "AND" :: rest) = slots rest + 1 := by
  simp [slots, ownerTokens]

/-- **`AND`.** -/
theorem meaning_conj {fuel n : Nat} {rest : List SqlToken}
    (hor : breakAt (isKeyword "OR") 0 rest = none) :
    meaning params (fuel + 2) n (ownerTokens ++ .other "AND" :: rest) =
      params[n]?.bind fun value => (meaning params (fuel + 1) (n + 1) rest).map fun g row =>
        compare (fun row => some row.owner) (fun _ => some value) row && g row := by
  have hno : breakAt (isKeyword "OR") 0 (ownerTokens ++ .other "AND" :: rest) = none := by
    have hkeeps : ¬(0 = 0 ∧ isKeyword "OR" "AND" = true) := by decide
    rw [breakAt_owner _ (by decide), breakAt, if_neg hkeeps, hor]
    rfl
  have hand : breakAt (isKeyword "AND") 0 (ownerTokens ++ .other "AND" :: rest) =
      some (ownerTokens, rest) := by
    have hhere : 0 = 0 ∧ isKeyword "AND" "AND" = true := by decide
    rw [breakAt_owner _ (by decide), breakAt, if_pos hhere]
    simp
  rw [meaning, hno, hand]
  dsimp only
  rw [meaning_owner, bind_map]
  rfl

/-- **`AND` means what it does.** -/
theorem comparisons_conjoins : comparisons.Conjoins := by
  constructor
  · intro n params c hc db row
    change (if _ then _ else _) = _ at hc
    split at hc
    · rw [meaning_owner, map_map] at hc
      obtain ⟨value, hvalue, rfl⟩ := map_eq_some_iff.mp hc
      simp only [hvalue]
      exact compare_owner value row
    · cases hc
  · intro n rest params hbalanced hor
    show (if params.length = n + slots (ownerTokens ++ .other "AND" :: rest) then _ else none) =
      Option.map _ (if params.length = n + 1 + slots rest then _ else none)
    rw [slots_owner, Nat.add_comm (slots rest), ← Nat.add_assoc]
    split
    · rename_i hlength
      have hvalue : params[n]? = some params[n] := List.getElem?_eq_getElem (by omega)
      have hlong : (ownerTokens ++ .other "AND" :: rest).length = rest.length + 3 + 1 := by
        simp [ownerTokens]
      have hfuel : meaning params (rest.length + 3 + 1) (n + 1) rest =
          meaning params (rest.length + 1) (n + 1) rest := meaning_fuel (by omega) (by omega)
      rw [hlong, meaning_conj hor, hvalue, bind_some, hfuel, map_map, map_map]
      refine congrArg (Option.map · _) (funext fun g => funext fun db => funext fun row => ?_)
      exact congrArg (· && g row) (compare_owner _ row)
    · rfl

end StackOwl.Tenancy
