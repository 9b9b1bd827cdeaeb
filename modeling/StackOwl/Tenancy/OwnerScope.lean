import StackOwl.Tenancy.Comparisons

/-!
# The scope of an owner

A condition `owner_id = ?` with what narrows it keeps a statement within the rows of the owner,
whatever the narrowing says, as long as it does not look at the rows of others.  So it is decided
by the text alone whether a fragment can escape: it narrows exactly where its parentheses, those
in literals and comments left out, match.  Characters are what the check counts.

## Main results

* `matched_iff` — the parenthesis in front of a fragment is matched by the one after it exactly
  where the fragment is closed and its own parentheses match.
* `owner_scope` — a call that is accepted is within the scope of the owner where its fragment only
  narrows, and of a call that the base composes only there.
* `owner_scope_escaped` — a fragment that a write accepts, and that closes the parenthesis in
  front of it.
-/

namespace StackOwl.Tenancy

open Durable Lib Option

universe u

variable {V : Type u} [DecidableEq V]

/-! ## Effects -/

section
variable {owner : V} {e : Effect V}

theorem result_eq (huntouched : ∀ db, ∀ row ∈ db e.table, row.owner ≠ owner →
    e.touch db row = .leaves) (db : Tables V) :
    e.result db = ((db e.table).filter fun row => row.owner = owner).filter
      fun row => e.touch db row = .returns := by
  rw [Effect.result, List.filter_filter]
  refine List.filter_congr fun row hrow => ?_
  by_cases hown : row.owner = owner
  · simp [hown]
  · simp [hown, huntouched db row hrow hown]

theorem EffectScoped.of_untouched
    (huntouched : ∀ db, ∀ row ∈ db e.table, row.owner ≠ owner → e.touch db row = .leaves)
    (hown : OwnOnly owner e.table e.touch) : EffectScoped owner e := by
  refine ⟨huntouched, hown, fun db db' hagree => ?_⟩
  rw [result_eq huntouched, result_eq huntouched, ← hagree e.table]
  refine List.filter_congr fun row hrow => ?_
  obtain ⟨hrow, howner⟩ := List.mem_filter.mp hrow
  rw [hown db db' hagree row hrow (of_decide_eq_true howner)]

/-- What a statement does whose condition is `owner_id = ?` and `inner`. -/
structure Guarded (owner : V) (e : Effect V) (inner : Tables V → OwnedRow V → Bool)
    (act : Tables V → OwnedRow V → Touch V) : Prop where
  acts : ∀ db row, act db row ≠ .leaves
  touch_eq : ∀ db row, e.touch db row =
    if (decide (row.owner = owner) && inner db row) = true then act db row else .leaves

section
variable {inner : Tables V → OwnedRow V → Bool} {act : Tables V → OwnedRow V → Touch V}

theorem Guarded.touch_owned (h : Guarded owner e inner act) (db : Tables V) {row : OwnedRow V}
    (howner : row.owner = owner) :
    e.touch db row = if inner db row = true then act db row else .leaves := by
  rw [h.touch_eq, decide_eq_true howner, Bool.true_and]

/-- **What only narrows keeps the scope.** -/
theorem Guarded.scoped (h : Guarded owner e inner act) (hinner : OwnOnly owner e.table inner)
    (hact : OwnOnly owner e.table act) : EffectScoped owner e := by
  refine .of_untouched (fun db row _ howner => ?_) fun db db' hagree row hrow howner => ?_
  · rw [h.touch_eq, decide_eq_false howner]
    rfl
  · rw [h.touch_owned db howner, h.touch_owned db' howner, hinner db db' hagree row hrow howner,
      hact db db' hagree row hrow howner]

theorem Guarded.ownOnly (h : Guarded owner e inner act) (hscoped : EffectScoped owner e) :
    OwnOnly owner e.table inner := by
  intro db db' hagree row hrow howner
  have hsame := hscoped.independent db db' hagree row hrow howner
  rw [h.touch_owned db howner, h.touch_owned db' howner] at hsame
  cases hinner : inner db row <;> cases hinner' : inner db' row
  · rfl
  · rw [hinner, hinner', if_neg Bool.false_ne_true, if_pos rfl] at hsame
    exact absurd hsame.symm (h.acts db' row)
  · rw [hinner, hinner', if_pos rfl, if_neg Bool.false_ne_true] at hsame
    exact absurd hsame (h.acts db row)
  · rfl

end

theorem OwnOnly.const {β : Type*} (owner : V) (table : String) (value : β) :
    OwnOnly owner table fun _ _ => value :=
  fun _ _ _ _ _ _ => rfl

end

/-! ## Conditions -/

section
variable {S : Sqlite V} {owner : V} {table : String} {before : Nat} {params : List V}

def Sqlite.narrowing (S : Sqlite V) (before : Nat) (params : List V) :
    Option (List SqlToken) → Option (Tables V → OwnedRow V → Bool)
  | none => some fun _ _ => true
  | some conj => S.condition before conj params

variable {c : Tables V → OwnedRow V → Bool}

theorem condition_ownerCondition (hS : S.Conjoins) (hparam : params[before]? = some owner)
    {narrowing : Option (List SqlToken)}
    (hnarrow : ∀ conj ∈ narrowing, Balanced conj ∧ breakAt (isKeyword "OR") 0 conj = none)
    (hc : S.condition before (ownerCondition narrowing) params = some c) :
    ∃ inner, S.narrowing (before + 1) params narrowing = some inner ∧
      ∀ db row, c db row = (decide (row.owner = owner) && inner db row) := by
  have howner : ∀ row : OwnedRow V, decide (params[before]? = some row.owner) =
      decide (row.owner = owner) := by
    refine fun row => decide_eq_decide.mpr ?_
    rw [hparam, some.injEq]
    exact eq_comm
  cases narrowing with
  | none =>
    refine ⟨fun _ _ => true, rfl, fun db row => ?_⟩
    rw [hS.alone before params c hc, howner, Bool.and_true]
  | some conj =>
    obtain ⟨hbalanced, hor⟩ := hnarrow conj rfl
    rw [ownerCondition, hS.conj before conj params hbalanced hor] at hc
    obtain ⟨inner, hinner, rfl⟩ := map_eq_some_iff.mp hc
    exact ⟨inner, hinner, fun db row => congrArg (· && inner db row) (howner row)⟩

theorem NarrowingHolds.shape {narrowing : Option (List SqlToken)}
    (h : NarrowingHolds S owner table before params narrowing) :
    ∀ conj ∈ narrowing, Balanced conj ∧ breakAt (isKeyword "OR") 0 conj = none := by
  rintro conj rfl
  exact ⟨h.1, h.2.1⟩

theorem NarrowingHolds.ownOnly {narrowing : Option (List SqlToken)}
    (h : NarrowingHolds S owner table before params narrowing)
    {inner : Tables V → OwnedRow V → Bool}
    (hinner : S.narrowing before params narrowing = some inner) : OwnOnly owner table inner := by
  cases narrowing with
  | none =>
    obtain rfl := some.inj hinner
    exact .const owner table true
  | some conj => exact h.2.2 inner hinner

omit [DecidableEq V] in
theorem act_ne_leaves {action : SqlAction} {act : Tables V → OwnedRow V → Touch V}
    (h : S.act params action = some act) (db : Tables V) (row : OwnedRow V) :
    act db row ≠ .leaves := by
  cases action with
  | returns | deletes =>
    obtain rfl := some.inj h
    exact nofun
  | updates assignments =>
    obtain ⟨a, -, rfl⟩ := map_eq_some_iff.mp h
    exact nofun

variable {st : SqlStatement} {e : Effect V}

theorem guarded_of_statementEffect (hS : S.Conjoins) {narrowing : Option (List SqlToken)}
    (hst : st.condition = some (ownerCondition narrowing))
    (hparam : params[S.before st.action]? = some owner)
    (hnarrow : ∀ conj ∈ narrowing, Balanced conj ∧ breakAt (isKeyword "OR") 0 conj = none)
    (he : S.statementEffect params st = some e) :
    e.table = st.table ∧ ∃ act inner, S.act params st.action = some act ∧
      S.narrowing (S.before st.action + 1) params narrowing = some inner ∧
      Guarded owner e inner act := by
  obtain ⟨act, hact, hrest⟩ := bind_eq_some_iff.mp he
  obtain ⟨c, hc, rfl⟩ := map_eq_some_iff.mp hrest
  rw [hst] at hc
  obtain ⟨inner, hinner, hceq⟩ := condition_ownerCondition hS hparam hnarrow hc
  refine ⟨rfl, act, inner, hact, hinner, fun db row => ?_, fun db row => ?_⟩
  · exact act_ne_leaves hact db row
  · dsimp only
    rw [hceq]

/-- **A statement that only narrows is within the scope of the owner.** -/
theorem SqlStatement.Holds.scoped (hS : S.Conjoins) {narrowing : Option (List SqlToken)}
    (h : st.Holds S owner params narrowing) (he : S.statementEffect params st = some e)
    : EffectScoped owner e := by
  obtain ⟨htable, act, inner, hact, hinner, hguarded⟩ :=
    guarded_of_statementEffect hS h.condition_eq h.bound h.narrows.shape he
  refine hguarded.scoped ?_ ?_
  · rw [htable]
    exact h.narrows.ownOnly hinner
  · rw [htable]
    exact h.act act hact

theorem ownOnly_of_scoped (hS : S.Conjoins) {conj : List SqlToken}
    (hst : st.condition = some (ownerCondition (some conj)))
    (hparam : params[S.before st.action]? = some owner) (hbalanced : Balanced conj)
    (hor : breakAt (isKeyword "OR") 0 conj = none) (hact : (S.act params st.action).isSome = true)
    (hscoped : ∀ e, S.statementEffect params st = some e → EffectScoped owner e)
    (hc : S.condition (S.before st.action + 1) conj params = some c) :
    OwnOnly owner st.table c := by
  obtain ⟨act, hact⟩ := isSome_iff_exists.mp hact
  have hruns : (S.statementEffect params st).isSome = true := by
    rw [Sqlite.statementEffect, hact, hst, bind_some, isSome_map]
    show (S.condition _ (ownerTokens ++ .other "AND" :: conj) params).isSome = true
    rw [hS.conj _ conj params hbalanced hor, hc]
    rfl
  have hshape : ∀ conj' ∈ some conj,
      Balanced conj' ∧ breakAt (isKeyword "OR") 0 conj' = none := by
    intro conj' hmem
    obtain rfl := some.inj hmem
    exact ⟨hbalanced, hor⟩
  obtain ⟨e, he⟩ := isSome_iff_exists.mp hruns
  obtain ⟨htable, act', inner, -, hinner, hguarded⟩ :=
    guarded_of_statementEffect hS hst hparam hshape he
  obtain rfl := some.inj (hc.symm.trans hinner)
  rw [← htable]
  exact hguarded.ownOnly (hscoped e he)

end

/-! ## Texts -/

theorem isIdChar_of_isWordChar {c : Char} (h : isWordChar c = true) : isIdChar c = true := by
  unfold isIdChar
  rw [show (c.isAlphanum || c == '_') = true from h]
  rfl

theorem closedTokens_table {table : String} (h : isIdent table.toList = true) :
    closedTokens table.toList = some [.other (tableName table)] := by
  unfold tableName
  unfold isIdent at h
  cases htable : table.toList with
  | nil =>
    rw [htable] at h
    cases h
  | cons c s =>
    rw [htable, Bool.and_eq_true] at h
    obtain ⟨hhead, hrest⟩ := h
    have hc : c.isAlpha = true ∨ c = '_' := by simpa [hasHead] using hhead
    have hword : isWordChar c = true := by
      rcases hc with hc | rfl
      · simp [isWordChar, Char.isAlphanum, hc]
      · rfl
    rw [List.dropWhile_cons_of_pos hword, Bool.or_eq_true, beq_iff_eq, beq_iff_eq] at hrest
    have hs : (s.takeWhile isWordChar).all isIdChar = true := by
      refine List.all_eq_true.mpr fun x hx => isIdChar_of_isWordChar ?_
      exact List.mem_takeWhile_imp hx
    have hnewline : (s.dropWhile isWordChar).all (· == '\n') = true := by
      rcases hrest with hrest | hrest <;> rw [hrest] <;> rfl
    have hread : ∃ r, lex (s.dropWhile isWordChar) = some r ∧ r.runsOn = false ∧ r.tokens = [] := by
      rcases hrest with hrest | hrest <;> rw [hrest]
      · exact ⟨_, rfl, rfl, rfl⟩
      · exact ⟨_, rfl, rfl, rfl⟩
    obtain ⟨r, hlex, hruns, htokens⟩ := hread
    have hname := lex_name hc hs hnewline
    rw [List.takeWhile_append_dropWhile, hlex, map_some] at hname
    refine closedTokens_eq_some.mpr ⟨_, hname, hruns, ?_⟩
    rw [htokens, List.takeWhile_cons_of_pos hword]
    rfl

/-- What stands in front of the `WHERE` of the base. -/
def OwnedCall.head : OwnedCall V → List Char
  | .fetch table _ _ => "SELECT * FROM ".toList ++ table.toList
  | .update table setSql _ _ _ =>
    "UPDATE ".toList ++ table.toList ++ " SET ".toList ++ strip setSql.toList
  | .delete table _ _ => "DELETE FROM ".toList ++ table.toList
  | .execute .. => []

theorem compose_eq {owner : V} {call : OwnedCall V} (hcomposed : call.isComposed = true)
    {text : List Char} {params : List V} (h : call.compose owner = some (text, params)) :
    text = call.head ++ ' ' :: ownerClause call.fragment ∧ params = call.bound owner := by
  have hwrite : ∀ head params' whereSql whereParams,
      ownerScopedWrite owner head params' whereSql whereParams = some (text, params) →
      text = head ++ ' ' :: ownerClause (strip whereSql.toList) ∧
        params = params' ++ owner :: if strip whereSql.toList = [] then [] else whereParams := by
    intro head params' whereSql whereParams h
    unfold ownerScopedWrite at h
    dsimp only at h
    split at h
    · rename_i hblank
      obtain ⟨rfl, rfl⟩ := Prod.mk.inj (some.inj h)
      rw [if_pos hblank]
      exact ⟨rfl, rfl⟩
    · rename_i hextra
      split at h
      · obtain ⟨rfl, rfl⟩ := Prod.mk.inj (some.inj h)
        rw [if_neg hextra]
        exact ⟨rfl, rfl⟩
      · cases h
  cases call with
  | fetch table whereSql params' =>
    obtain ⟨rfl, rfl⟩ := Prod.mk.inj (some.inj h)
    exact ⟨rfl, rfl⟩
  | update table setSql setParams whereSql whereParams =>
    rw [OwnedCall.compose] at h
    split at h
    · split at h
      · cases h
      · exact hwrite _ _ _ _ h
    · cases h
  | delete table whereSql whereParams =>
    rw [OwnedCall.compose] at h
    split at h
    · exact hwrite _ _ _ _ h
    · cases h
  | execute sql params' => cases hcomposed

variable {whereParams : List V}

theorem isIdent_of_update {owner : V} {table setSql whereSql : String} {setParams : List V}
    (h : ((OwnedCall.update table setSql setParams whereSql whereParams).compose owner).isSome =
      true)
    : isIdent table.toList = true := by
  rw [OwnedCall.compose] at h
  split at h
  · assumption
  · cases h

theorem isIdent_of_delete {owner : V} {table whereSql : String}
    (h : ((OwnedCall.delete table whereSql whereParams).compose owner).isSome = true) :
    isIdent table.toList = true := by
  rw [OwnedCall.compose] at h
  split at h
  · assumption
  · cases h

section
variable {head extra : List Char} {tokens : List SqlToken}

/-- **A fragment that is blank.** -/
theorem closedTokens_ownerClause_nil (hhead : closedTokens head = some tokens) :
    closedTokens (head ++ ' ' :: ownerClause []) =
      some (tokens ++ .other "WHERE" :: ownerCondition none) :=
  closedTokens_append_blank hhead (by decide)

theorem ownerClause_eq (hextra : extra ≠ []) : ownerClause extra =
    "WHERE owner_id = ? AND".toList ++ ' ' :: '(' :: (extra ++ [')']) := by
  have hguard : "WHERE owner_id = ? AND".toList = "WHERE owner_id = ?".toList ++ " AND".toList := by
    decide
  have hopen : " AND (".toList = " AND".toList ++ [' ', '('] := by decide
  unfold ownerClause
  rw [if_neg hextra, hguard, hopen]
  generalize "WHERE owner_id = ?".toList = clause
  generalize " AND".toList = conj
  simp

section

variable (hhead : closedTokens head = some tokens) (hextra : extra ≠ [])

include hhead hextra

/-- The condition of the base, up to the parenthesis that it opens. -/
theorem lex_ownerClause :
    ∃ before, before.map Prod.fst = tokens ++ (.other "WHERE" :: ownerTokens ++ [.other "AND"]) ∧
      lex (head ++ ' ' :: ownerClause extra) = (lex (extra ++ [')'])).map fun r =>
        { tokens := before ++ (.lparen, extra.length + 1) :: r.tokens, runsOn := r.runsOn } := by
  have hguard : closedTokens "WHERE owner_id = ? AND".toList =
      some (.other "WHERE" :: ownerTokens ++ [.other "AND"]) := by decide
  obtain ⟨before, hbefore, hlex⟩ :=
    lex_append_open (closedTokens_append_blank hhead hguard) (extra ++ [')'])
  refine ⟨before, hbefore, ?_⟩
  have htext : head ++ ' ' :: ownerClause extra =
      head ++ ' ' :: "WHERE owner_id = ? AND".toList ++ ' ' :: '(' :: (extra ++ [')']) := by
    rw [ownerClause_eq hextra, List.append_assoc]
    rfl
  rw [htext, hlex, List.length_append, List.length_singleton]

/-- **A fragment that is closed.** -/
theorem closedTokens_ownerClause {inner : List SqlToken}
    (hinner : closedTokens extra = some inner) :
    closedTokens (head ++ ' ' :: ownerClause extra) = some (tokens ++
      .other "WHERE" :: ownerCondition (some (.lparen :: (inner ++ [.rparen])))) := by
  obtain ⟨before, hbefore, hlex⟩ := lex_ownerClause hhead hextra
  obtain ⟨mid, hmid, hlast⟩ := lex_append_close hinner
  rw [hlast, map_some] at hlex
  refine closedTokens_eq_some.mpr ⟨_, hlex, rfl, ?_⟩
  simp [hbefore, hmid, ownerCondition]

/-- **The parenthesis in front of a fragment is matched by the one after it.** -/
theorem matched_iff :
    Matched (head ++ ' ' :: ownerClause extra) extra.length ↔
      ∃ inner, closedTokens extra = some inner ∧ Balanced inner := by
  obtain ⟨before, hbefore, hlex⟩ := lex_ownerClause hhead hextra
  constructor
  · rintro ⟨r, before', mid, hr, htokens, hbalanced⟩
    obtain ⟨-, hpairs⟩ := lex_positions hr
    rw [hlex] at hr
    obtain ⟨r', hr', rfl⟩ := map_eq_some_iff.mp hr
    -- a token is told by its position
    have hlast : r'.tokens = mid ++ [(.rparen, 0)] := by
      dsimp only at hpairs htokens
      obtain ⟨-, hlater, hbefore⟩ := List.pairwise_append.mp hpairs
      have hnotBefore : (SqlToken.lparen, extra.length + 1) ∉ before := fun hmem =>
        Nat.lt_irrefl _ (hbefore _ hmem _ (List.mem_cons_self ..))
      have hnotAfter : (SqlToken.lparen, extra.length + 1) ∉ r'.tokens := fun hmem =>
        Nat.lt_irrefl _ ((List.pairwise_cons.mp hlater).1 _ hmem)
      exact ((List.append_cons_inj_of_notMem hnotBefore hnotAfter).mp htokens).2.2
    have hclosed : (SqlToken.rparen, 0) ∈ r'.tokens := by
      rw [hlast]
      exact List.mem_append_right _ (List.mem_singleton_self _)
    obtain ⟨re, hre, hruns⟩ := exists_lex_of_closed hr' hclosed
    have hinner := closedTokens_eq_some.mpr ⟨re, hre, hruns, rfl⟩
    obtain ⟨mid', hmid', hlex'⟩ := lex_append_close hinner
    obtain rfl := some.inj (hr'.symm.trans hlex')
    obtain rfl := List.append_cancel_right hlast
    exact ⟨_, hinner, hmid' ▸ hbalanced⟩
  · rintro ⟨inner, hinner, hbalanced⟩
    obtain ⟨mid, hmid, hlast⟩ := lex_append_close hinner
    rw [hlast, map_some] at hlex
    exact ⟨_, before, mid, hlex, rfl, hmid.symm ▸ hbalanced⟩

end

end

/-! ## Calls -/

omit [DecidableEq V] in
theorem effect_eq {S : Sqlite V} {text : List Char} {tokens : List SqlToken}
    (h : closedTokens text = some tokens) (params : List V) :
    S.effect text params = (parseStatement tokens).bind (S.statementEffect params) := by
  obtain ⟨r, hlex, -, rfl⟩ := closedTokens_eq_some.mp h
  rw [Sqlite.effect, hlex, bind_some]

/-- What the base puts in front of `WHERE`, as it is read. -/
structure Headed (S : Sqlite V) (owner : V) (call : OwnedCall V) (tokens : List SqlToken)
    (action : SqlAction) (table : String) : Prop where
  reads : closedTokens call.head = some tokens
  parses : ∀ condition, parseStatement (tokens ++ .other "WHERE" :: condition) =
    some ⟨action, table, some condition⟩
  bound : (call.bound owner)[S.before action]? = some owner
  runs : (S.act (call.bound owner) action).isSome = true
  own : ∀ act, S.act (call.bound owner) action = some act → OwnOnly owner table act
  extra : ExtraHolds S owner call ↔
    FragmentHolds S owner table (S.before action + 1) (call.bound owner) call.fragment

theorem parseStatement_select (table : String) (condition : List SqlToken) :
    parseStatement ([.other "SELECT", .other "*", .other "FROM", .other table] ++
      .other "WHERE" :: condition) = some ⟨.returns, table, some condition⟩ := by
  have hselect : isKeyword "SELECT" "SELECT" = true := by decide
  have hfrom : isKeyword "FROM" "FROM" = true := by decide
  have hwhere : isKeyword "WHERE" "WHERE" = true := by decide
  simp [parseStatement, parseWhere, hselect, hfrom, hwhere]

theorem parseStatement_delete (table : String) (condition : List SqlToken) :
    parseStatement ([.other "DELETE", .other "FROM", .other table] ++
      .other "WHERE" :: condition) = some ⟨.deletes, table, some condition⟩ := by
  have hselect : isKeyword "SELECT" "DELETE" = false := by decide
  have hdelete : isKeyword "DELETE" "DELETE" = true := by decide
  have hfrom : isKeyword "FROM" "FROM" = true := by decide
  have hwhere : isKeyword "WHERE" "WHERE" = true := by decide
  simp [parseStatement, parseWhere, hselect, hdelete, hfrom, hwhere]

theorem parseStatement_update (table : String) {set : List SqlToken} (hset : Balanced set)
    (hwhere : breakAt (isKeyword "WHERE") 0 set = none) (condition : List SqlToken) :
    parseStatement (([.other "UPDATE", .other table, .other "SET"] ++ set) ++
      .other "WHERE" :: condition) = some ⟨.updates set, table, some condition⟩ := by
  have hselect : isKeyword "SELECT" "UPDATE" = false := by decide
  have hdelete : isKeyword "DELETE" "UPDATE" = false := by decide
  have hupdate : isKeyword "UPDATE" "UPDATE" = true := by decide
  have hkeyword : isKeyword "SET" "SET" = true := by decide
  have hbreak : breakAt (isKeyword "WHERE") 0 (set ++ .other "WHERE" :: condition) =
      some (set, condition) := by
    have hhere : isKeyword "WHERE" "WHERE" = true := by decide
    rw [breakAt_append hset hwhere, breakAt, if_pos ⟨rfl, hhere⟩]
    simp
  simp [parseStatement, hselect, hdelete, hupdate, hkeyword, hbreak]

theorem closedTokens_verb {verb table : String} {tokens : List SqlToken}
    (hverb : closedTokens verb.toList = some tokens) (h : isIdent table.toList = true) :
    closedTokens (verb.toList ++ ' ' :: table.toList) =
      some (tokens ++ [.other (tableName table)]) :=
  closedTokens_append_blank hverb (closedTokens_table h)

theorem headed_of_headHolds {S : Sqlite V} {owner : V} {call : OwnedCall V}
    (hcomposed : call.isComposed = true) (haccepted : (call.compose owner).isSome = true)
    (h : HeadHolds S owner call) :
    ∃ tokens action table, Headed S owner call tokens action table := by
  cases call with
  | fetch table whereSql params =>
    refine ⟨[.other "SELECT", .other "*", .other "FROM", .other (tableName table)], .returns,
      tableName table, ?_, parseStatement_select _, rfl, rfl, ?_, Iff.rfl⟩
    · have hverb : "SELECT * FROM ".toList = "SELECT * FROM".toList ++ [' '] := by decide
      have hread : closedTokens "SELECT * FROM".toList =
          some [.other "SELECT", .other "*", .other "FROM"] := by decide
      show closedTokens ("SELECT * FROM ".toList ++ table.toList) = _
      rw [hverb, List.append_assoc]
      exact closedTokens_verb hread h
    · intro act hact
      obtain rfl := some.inj hact
      exact OwnOnly.const owner _ _
  | update table setSql setParams whereSql whereParams =>
    obtain ⟨set, hset, hbalanced, hwhere, hparam, a, ha, hown⟩ := h
    refine ⟨[.other "UPDATE", .other (tableName table), .other "SET"] ++ set, .updates set,
      tableName table, ?_, parseStatement_update _ hbalanced hwhere, hparam, ?_, ?_, ?_⟩
    · have hverb : "UPDATE ".toList = "UPDATE".toList ++ [' '] := by decide
      have hkeyword : " SET ".toList = ' ' :: ("SET".toList ++ [' ']) := by decide
      have hread : closedTokens "UPDATE".toList = some [.other "UPDATE"] := by decide
      have hread' : closedTokens "SET".toList = some [.other "SET"] := by decide
      have hlist := closedTokens_append_blank (closedTokens_append_blank
        (closedTokens_verb hread (isIdent_of_update haccepted)) hread') hset
      unfold OwnedCall.head
      rw [hverb, hkeyword]
      generalize "UPDATE".toList = verb at hlist ⊢
      generalize "SET".toList = keyword at hlist ⊢
      simpa using hlist
    · rw [Sqlite.act, ha]
      rfl
    · intro act hact
      rw [Sqlite.act, ha] at hact
      obtain rfl := some.inj hact
      exact fun db db' hagree row hrow howner => congrArg _ (hown db db' hagree row hrow howner)
    · exact ⟨fun hextra => hextra set hset, fun hextra tokens htokens =>
        (some.inj (hset.symm.trans htokens)) ▸ hextra⟩
  | delete table whereSql whereParams =>
    refine ⟨[.other "DELETE", .other "FROM", .other (tableName table)], .deletes,
      tableName table, ?_, parseStatement_delete _, rfl, rfl, ?_, Iff.rfl⟩
    · have hverb : "DELETE FROM ".toList = "DELETE FROM".toList ++ [' '] := by decide
      have hread : closedTokens "DELETE FROM".toList = some [.other "DELETE", .other "FROM"] := by
        decide
      show closedTokens ("DELETE FROM ".toList ++ table.toList) = _
      rw [hverb, List.append_assoc]
      exact closedTokens_verb hread (isIdent_of_delete haccepted)
    · intro act hact
      obtain rfl := some.inj hact
      exact OwnOnly.const owner _ _
  | execute sql params => cases hcomposed

section
variable {S : Sqlite V} {owner : V} {call : OwnedCall V} {tokens : List SqlToken}
  {action : SqlAction} {table : String}

/-- **A call that the base composes**, of a fragment that only narrows. -/
theorem Headed.scoped (h : Headed S owner call tokens action table) (hS : S.Conjoins)
    (hcomposed : call.isComposed = true) (hextra : ExtraHolds S owner call) :
    CallScoped S owner call := by
  intro text params htext
  obtain ⟨rfl, rfl⟩ := compose_eq hcomposed htext
  -- the statement is read as the base means it
  have hstatement : ∃ narrowing, closedTokens (call.head ++ ' ' :: ownerClause call.fragment) =
        some (tokens ++ .other "WHERE" :: ownerCondition narrowing) ∧
      NarrowingHolds S owner table (S.before action + 1) (call.bound owner) narrowing := by
    rcases h.extra.mp hextra with hblank | ⟨inner, hinner, hbalanced, hown⟩
    · rw [hblank]
      exact ⟨none, closedTokens_ownerClause_nil h.reads, trivial⟩
    · by_cases hblank : call.fragment = []
      · rw [hblank]
        exact ⟨none, closedTokens_ownerClause_nil h.reads, trivial⟩
      · exact ⟨_, closedTokens_ownerClause h.reads hblank hinner, balanced_group hbalanced,
          breakAt_group hbalanced, hown⟩
  obtain ⟨narrowing, hread, hnarrow⟩ := hstatement
  refine ⟨fun e he => ?_, fun hblank => ?_⟩
  · rw [effect_eq hread, h.parses, bind_some] at he
    have hst : (SqlStatement.mk action table (some (ownerCondition narrowing))).Holds S owner
        (call.bound owner) narrowing := ⟨rfl, h.bound, h.own, hnarrow⟩
    exact hst.scoped hS he
  · refine (matched_iff h.reads hblank).mpr ?_
    obtain ⟨inner, hinner, hbalanced, -⟩ := (h.extra.mp hextra).resolve_left hblank
    exact ⟨inner, hinner, hbalanced⟩

/-- **Only there.** -/
theorem Headed.extraHolds (h : Headed S owner call tokens action table) (hS : S.Conjoins)
    (hcomposed : call.isComposed = true) (haccepted : (call.compose owner).isSome = true)
    (hscoped : CallScoped S owner call) : ExtraHolds S owner call := by
  obtain ⟨⟨text, params⟩, htext⟩ := isSome_iff_exists.mp haccepted
  obtain ⟨heffect, hmatched⟩ := hscoped text params htext
  obtain ⟨rfl, rfl⟩ := compose_eq hcomposed htext
  refine h.extra.mpr ?_
  by_cases hblank : call.fragment = []
  · exact Or.inl hblank
  · obtain ⟨inner, hinner, hbalanced⟩ := (matched_iff h.reads hblank).mp (hmatched hblank)
    have hread := closedTokens_ownerClause h.reads hblank hinner
    rw [effect_eq hread, h.parses, bind_some] at heffect
    exact Or.inr ⟨inner, hinner, hbalanced, fun c hc =>
      ownOnly_of_scoped hS rfl h.bound (balanced_group hbalanced) (breakAt_group hbalanced)
        h.runs heffect hc⟩

end

theorem scoped_of_statementHolds {S : Sqlite V} (hS : S.Conjoins) {owner : V} {sql : String}
    {params : List V} (h : StatementHolds S owner params sql.toList) :
    CallScoped S owner (.execute sql params) := by
  intro text params' htext
  have hsame : text = sql.toList ∧ params' = params := by
    rw [OwnedCall.compose] at htext
    split at htext
    · split at htext
      · exact (Prod.mk.inj (some.inj htext)).imp Eq.symm Eq.symm
      · cases htext
    · cases htext
  obtain ⟨rfl, rfl⟩ := hsame
  obtain ⟨r, hlex, st, hparse, narrowing, hst⟩ := h
  refine ⟨fun e he => ?_, fun hblank => absurd rfl hblank⟩
  rw [Sqlite.effect, hlex, bind_some, hparse, bind_some] at he
  exact hst.scoped hS he

/-- **The scope of an owner**: whatever the tables hold, a call that is accepted reads and changes
rows of the owner only, and closes what it opens, where what the caller adds only narrows; and of
the calls that the base composes, around what is a table and a `SET` list, only there. -/
theorem owner_scope (S : Sqlite V) (hS : S.Conjoins) (owner : V) (call : OwnedCall V)
    (haccepted : (call.compose owner).isSome = true) :
    (HeadHolds S owner call → ExtraHolds S owner call → CallScoped S owner call) ∧
      (call.isComposed = true → HeadHolds S owner call → CallScoped S owner call →
        ExtraHolds S owner call) := by
  constructor
  · intro hhead hextra
    cases hcomposed : call.isComposed with
    | true =>
      obtain ⟨tokens, action, table, hheaded⟩ := headed_of_headHolds hcomposed haccepted hhead
      exact hheaded.scoped hS hcomposed hextra
    | false =>
      cases call with
      | execute sql params => exact scoped_of_statementHolds hS hextra
      | fetch | update | delete => cases hcomposed
  · intro hcomposed hhead hscoped
    obtain ⟨tokens, action, table, hheaded⟩ := headed_of_headHolds hcomposed haccepted hhead
    exact hheaded.extraHolds hS hcomposed haccepted hscoped

/-- Literals with parentheses in them, and an `OR`, narrow what a delete deletes. -/
theorem owner_scope_delete : CallScoped comparisons "alice"
    (.delete "memories" "title = '()' OR (kind = ?)" ["note"]) := by
  refine (owner_scope comparisons comparisons_conjoins "alice"
    (.delete "memories" "title = '()' OR (kind = ?)" ["note"]) (by decide)).1 trivial
    (Or.inr ⟨[.other "title", .other "=", .other "'()'", .other "OR", .lparen, .other "kind",
      .other "=", .other "?", .rparen], by decide, by decide, fun c hc => ?_⟩)
  exact comparisons_ownOnly hc

/-- A delete of one owner, with a parenthesis in each of two literals, deletes what is another's. -/
theorem owner_scope_escaped : ¬∀ (call : OwnedCall String),
    (call.compose "alice").isSome = true → CallScoped comparisons "alice" call := by
  intro hall
  have hscoped := hall (.delete "memories" "'(' = '(') OR (')' = ')'" []) (by decide)
  let text := "DELETE FROM memories WHERE owner_id = ? AND ('(' = '(') OR (')' = ')')".toList
  have htext : (OwnedCall.delete "memories" "'(' = '(') OR (')' = ')'" []).compose "alice" =
      some (text, ["alice"]) := by decide
  have htouch : (comparisons.effect text ["alice"]).map (fun e => (e.table, e.touch
      (fun _ => [⟨"bob", []⟩]) ⟨"bob", []⟩)) = some ("memories", .deletes) := by decide
  obtain ⟨e, he, htouch⟩ := map_eq_some_iff.mp htouch
  have hleaves := ((hscoped text _ htext).1 e he).untouched (fun _ => [⟨"bob", []⟩]) ⟨"bob", []⟩
    (List.mem_singleton_self _) (by decide)
  have hdeletes := congrArg Prod.snd htouch
  exact absurd (hleaves.symm.trans hdeletes) (by decide)

end StackOwl.Tenancy
