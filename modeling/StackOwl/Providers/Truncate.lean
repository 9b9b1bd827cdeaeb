import StackOwl.Lib.OldestFirst
import StackOwl.Providers.ResumeValidation

/-!
# Trimming a transcript to a budget

Before each round the messages are measured; where they are larger than the budget, the outputs
of tools are replaced by a placeholder, the oldest first, until the rest fits
(`trim_messages_to_budget`, `providers/_truncate.py`).  The system message, the first user
message and the last two messages are never touched.

What `str` makes of a content that is no text is a parameter, `str`.

## Main results

* `trimFrom_eq_untilWithin` — the loop is the walk over the replaceable outputs.
* `TextOnly.of_elide` — replacing an output keeps every other field and every id.
* `trim_exact_iff` — the messages never grow exactly where eliding some of the oldest outputs
  meets the budget, or the outputs are together no shorter than their placeholders.
-/

namespace StackOwl.Providers

open Lib List

/-! ## Fields -/

def isKey (key : String) : PyKey → Bool
  | .str name => name = Text.ofString key
  | _ => false

/-- `message.get(key, default)`. -/
def Message.getD (m : Message) (key : String) (missing : PyValue) : PyValue :=
  ((m.find? fun item => isKey key item.1).map Prod.snd).getD missing

/-- `message[key] = value`. -/
def Message.set (key : String) (value : PyValue) : Message → Message
  | [] => [field key value]
  | item :: rest =>
    if isKey key item.1 then (item.1, value) :: rest else item :: Message.set key value rest

/-! ## The trimmer -/

def ELIDED_PLACEHOLDER : Text := Text.ofString "[earlier tool output elided to fit context]"

variable (str : PyValue → Text)

def contentChars (content : PyValue) : Nat :=
  match content with
  | .str s => s.length
  | other => (str other).length

def messageChars (message : Message) : Int :=
  contentChars str (message.getD "content" (.str []))

variable (messages : List Message)

def totalContentChars : Int :=
  totalOf (messageChars str) messages

def isToolResultBlock : PyValue → Bool
  | .dict block => isText (Message.get block "type") "tool_result"
  | _ => false

def isObservation (message : Message) : Bool :=
  let role := message.get "role"
  isText role "tool" ||
    isText role "user" &&
      match message.get "content" with
      | .str s => (Text.ofString "OBSERVATION:").isPrefixOf s
      | .list items => !items.isEmpty && items.all isToolResultBlock
      | _ => false

/-- The body of the loop over the blocks in `_elide`. -/
def elideBlock (block : Message) : Message :=
  if isText (block.get "type") "tool_result" then block.set "content" (.str ELIDED_PLACEHOLDER)
  else block

def elideItem : PyValue → PyValue
  | .dict block => .dict (elideBlock block)
  | other => other

def elide (message : Message) : Message :=
  match message.get "content" with
  | .list items => message.set "content" (.list (items.map elideItem))
  | _ => message.set "content" (.str ELIDED_PLACEHOLDER)

/-- `protected`. -/
def protectedOf : List Nat :=
  let n := messages.length
  (if (messages.head?).any fun m => isText (m.get "role") "system" then [0] else []) ++
    (messages.findIdx? fun m => isText (m.get "role") "user").toList ++
    [n - 1] ++ if 2 ≤ n then [n - 2] else []

/-- The loop of `trim_messages_to_budget`, at position `i`. -/
def trimFrom (str : PyValue → Text) (kept : List Nat) (budget : Int) :
    Nat → Int → List Message → List Message
  | _, _, [] => []
  | i, total, m :: rest =>
    if total ≤ budget then m :: rest
    else if i ∈ kept ∨ isObservation m = false then
      m :: trimFrom str kept budget (i + 1) total rest
    else
      let elided := elide m
      let before := messageChars str m
      let after := messageChars str elided
      elided :: trimFrom str kept budget (i + 1) (total - (before - after)) rest

variable (budget : Int)

def trimMessagesToBudget :
    List Message :=
  if messages.isEmpty then messages
  else
    let total := totalContentChars str messages
    if total ≤ budget then messages
    else trimFrom str (protectedOf messages) budget 0 total messages

/-! ## Reading after an assignment -/

variable {key other : String}

theorem isKey_eq {k : PyKey} (h : isKey key k = true) (h' : isKey other k = true) :
    key = other := by
  cases k with
  | str name =>
    have hKey : name = Text.ofString key := of_decide_eq_true h
    have hOther : name = Text.ofString other := of_decide_eq_true h'
    have hSame : Text.ofString key = Text.ofString other := hKey.symm.trans hOther
    have hRead := congrArg Text.string? hSame
    rw [Text.string?_ofString, Text.string?_ofString] at hRead
    exact Option.some.inj hRead
  | _ => cases h

theorem isKey_ofString (key : String) : isKey key (.str (Text.ofString key)) = true :=
  decide_eq_true rfl

variable (m : Message)

theorem Message.get_eq_getD (key : String) : m.get key = m.getD key .none := by
  induction m with
  | nil => rfl
  | cons item rest ih =>
    obtain ⟨k, value⟩ := item
    rw [Message.get, Message.getD] at ih ⊢
    cases k with
    | str name =>
      by_cases hName : name = Text.ofString key
      · simp [isKey, hName]
      · simpa [isKey, hName] using ih
    | _ => simpa [isKey] using ih

theorem Message.getD_set (key : String) (value missing : PyValue) :
    (m.set key value).getD key missing = value := by
  induction m with
  | nil => simp [Message.set, Message.getD, field, isKey_ofString]
  | cons item rest ih =>
    rw [Message.set]
    split
    · next hKey => simp [Message.getD, hKey]
    · next hKey =>
        rw [Message.getD, find?_cons_of_neg (by simpa using hKey)]
        exact ih

theorem Message.getD_set_of_ne (h : other ≠ key) (m : Message) (value missing : PyValue) :
    (m.set key value).getD other missing = m.getD other missing := by
  have hNot : ∀ k, isKey key k = true → ¬ isKey other k = true := fun k hKey hOther =>
    h (isKey_eq hOther hKey)
  induction m with
  | nil =>
    have hField := hNot _ (isKey_ofString key)
    simp [Message.set, Message.getD, field, hField]
  | cons item rest ih =>
    rw [Message.set]
    split
    · next hKey =>
        have hOther := hNot _ hKey
        simp [Message.getD, hOther]
    · by_cases hOther : isKey other item.1 = true
      · simp [Message.getD, hOther]
      · rw [Message.getD, Message.getD, find?_cons_of_neg (by simpa using hOther),
          find?_cons_of_neg (by simpa using hOther)]
        exact ih

theorem Message.get_set (key : String) (value : PyValue) :
    (m.set key value).get key = value := by
  rw [Message.get_eq_getD, Message.getD_set]

theorem Message.get_set_of_ne (h : other ≠ key) (m : Message) (value : PyValue) :
    (m.set key value).get other = m.get other := by
  rw [Message.get_eq_getD, Message.getD_set_of_ne h, Message.get_eq_getD]

theorem Message.set_set (key : String) (value other : PyValue) :
    (m.set key other).set key value = m.set key value := by
  induction m with
  | nil => simp [Message.set, field, isKey_ofString]
  | cons item rest ih =>
    by_cases hKey : isKey key item.1 = true
    · simp [Message.set, hKey]
    · simp [Message.set, hKey, ih]

/-! ## What a placeholder keeps -/

theorem elideBlock_get (h : key ≠ "content") (block : Message) :
    (elideBlock block).get key = block.get key := by
  rw [elideBlock]
  split
  · exact Message.get_set_of_ne h block _
  · rfl

theorem elide_get (h : key ≠ "content") (m : Message) :
    (elide m).get key = m.get key := by
  rw [elide]
  split
  · exact Message.get_set_of_ne h m _
  · exact Message.get_set_of_ne h m _

theorem elideBlock_idem (block : Message) : elideBlock (elideBlock block) = elideBlock block := by
  by_cases hType : isText (block.get "type") "tool_result" = true
  · have hElided : elideBlock block = block.set "content" (.str ELIDED_PLACEHOLDER) := if_pos hType
    have hAgain : isText ((elideBlock block).get "type") "tool_result" = true := by
      rw [elideBlock_get (by decide)]
      exact hType
    rw [elideBlock, if_pos hAgain, hElided, Message.set_set]
  · have hKept : elideBlock block = block := if_neg hType
    rw [hKept, hKept]

theorem elideItem_of_not {item : PyValue} (h : isToolResultBlock item = false) :
    elideItem item = item := by
  cases item with
  | dict block => exact congrArg PyValue.dict (if_neg (ne_true_of_eq_false h))
  | _ => rfl

theorem elideItem_idem (item : PyValue) : elideItem (elideItem item) = elideItem item := by
  cases item with
  | dict block => exact congrArg PyValue.dict (elideBlock_idem block)
  | _ => rfl

theorem elide_idem : elide (elide m) = elide m := by
  cases hContent : m.get "content" with
  | list items =>
    have hElided : elide m = m.set "content" (.list (items.map elideItem)) := by
      rw [elide, hContent]
    have hItems : (items.map elideItem).map elideItem = items.map elideItem := by
      rw [map_map]
      exact map_congr_left fun item _ => elideItem_idem item
    rw [hElided, elide, Message.get_set]
    show (m.set "content" _).set "content" (.list ((items.map elideItem).map elideItem)) = _
    rw [hItems, Message.set_set]
  | _ =>
    have hElided : elide m = m.set "content" (.str ELIDED_PLACEHOLDER) := by
      rw [elide, hContent]
    rw [hElided, elide, Message.get_set]
    exact Message.set_set m "content" _ _

theorem blocks_elide :
    (elide m).blocks "content" = (m.blocks "content").map elideBlock := by
  cases hContent : m.get "content" with
  | list items =>
    have hElided : (elide m).get "content" = .list (items.map elideItem) := by
      rw [elide, hContent]
      exact Message.get_set m "content" _
    rw [Message.blocks, Message.blocks, hContent, hElided]
    show (items.map elideItem).filterMap _ = (items.filterMap _).map elideBlock
    rw [filterMap_map, map_filterMap]
    apply filterMap_congr
    intro item _
    cases item <;> rfl
  | _ =>
    have hElided : (elide m).get "content" = .str ELIDED_PLACEHOLDER := by
      rw [elide, hContent]
      exact Message.get_set m "content" _
    rw [Message.blocks, Message.blocks, hContent, hElided]
    rfl

/-- Nothing but the text of tool outputs differs; what is no tool result stays. -/
structure TextOnly (m m' : Message) : Prop where
  fields : ∀ key, key ≠ "content" → m'.get key = m.get key
  items : ∀ items, m.get "content" = .list items → ∃ items', m'.get "content" = .list items' ∧
    List.Forall₂ (fun item item' => isToolResultBlock item = false → item' = item) items items'
  blocks : List.Forall₂
    (fun block block' => block' = block ∨ isText (block.get "type") "tool_result" = true ∧
      ∀ key, key ≠ "content" → block'.get key = block.get key)
    (m.blocks "content") (m'.blocks "content")

theorem TextOnly.of_elide : TextOnly m (elide m) where
  fields key h := elide_get h m
  items items hContent := by
    refine ⟨items.map elideItem, ?_, ?_⟩
    · rw [elide, hContent]
      exact Message.get_set m "content" _
    · rw [forall₂_map_right_iff, forall₂_same]
      intro item _ hOther
      exact elideItem_of_not hOther
  blocks := by
    rw [blocks_elide, forall₂_map_right_iff, forall₂_same]
    intro block _
    by_cases hType : isText (block.get "type") "tool_result" = true
    · exact .inr ⟨hType, fun key h => elideBlock_get h block⟩
    · exact .inl (if_neg hType)

/-- What is read of the blocks is the same where it does not depend on their text. -/
theorem filterMap_blocks_elide {β : Type*} {f : Message → Option β}
    (h : ∀ block, f (elideBlock block) = f block) (m : Message) :
    ((elide m).blocks "content").filterMap f = (m.blocks "content").filterMap f := by
  rw [blocks_elide, filterMap_map]
  exact filterMap_congr fun block _ => h block

theorem callIds_elide (kind : ProviderKind) (m : Message) :
    callIds str kind (elide m) = callIds str kind m := by
  have hRole : (elide m).get "role" = m.get "role" := elide_get (by decide) m
  have hCalls : (elide m).get "tool_calls" = m.get "tool_calls" := elide_get (by decide) m
  cases kind with
  | openai =>
    show openaiToolCallIds str (elide m) = openaiToolCallIds str m
    rw [openaiToolCallIds, openaiToolCallIds, hRole, Message.blocks, Message.blocks, hCalls]
  | anthropic =>
    show anthropicToolUseIds str (elide m) = anthropicToolUseIds str m
    rw [anthropicToolUseIds, anthropicToolUseIds, hRole, filterMap_blocks_elide]
    intro block
    rw [elideBlock_get (by decide), elideBlock_get (by decide)]

theorem resultIds_elide (kind : ProviderKind) (m : Message) :
    resultIds str kind (elide m) = resultIds str kind m := by
  have hRole : (elide m).get "role" = m.get "role" := elide_get (by decide) m
  have hId : (elide m).get "tool_call_id" = m.get "tool_call_id" := elide_get (by decide) m
  cases kind with
  | openai =>
    show (openaiResultId str (elide m)).toList = (openaiResultId str m).toList
    rw [openaiResultId, openaiResultId, hRole, hId]
  | anthropic =>
    show anthropicResultIds str (elide m) = anthropicResultIds str m
    rw [anthropicResultIds, anthropicResultIds, hRole, filterMap_blocks_elide]
    intro block
    rw [elideBlock_get (by decide), elideBlock_get (by decide)]

/-! ## The loop as a walk -/

/-- An output that may be replaced, at position `i`. -/
def Elidable (i : Nat) (m : Message) : Prop :=
  i ∉ protectedOf messages ∧ isObservation m = true

variable (kept : List Nat)

/-- The message at position `i`, replaced if it may be. -/
def elideUnprotected (i : Nat) (m : Message) : Message :=
  if i ∈ kept ∨ isObservation m = false then m else elide m

theorem trimFrom_eq_untilWithin (budget : Int) (i : Nat) (total : Int) (messages : List Message) :
    trimFrom str kept budget i total messages =
      untilWithin (messageChars str) (elideUnprotected kept) budget i total messages := by
  induction messages generalizing i total with
  | nil => rfl
  | cons m rest ih =>
    rw [trimFrom, untilWithin]
    by_cases hKept : i ∈ kept ∨ isObservation m = false
    · have hSame : elideUnprotected kept i m = m := if_pos hKept
      rw [if_pos hKept, hSame, Int.sub_self, Int.sub_zero, ih]
    · have hElided : elideUnprotected kept i m = elide m := if_neg hKept
      rw [if_neg hKept, hElided]
      simp only [ih]

theorem elideUnprotected_idem (i : Nat) (m : Message) :
    elideUnprotected kept i (elideUnprotected kept i m) = elideUnprotected kept i m := by
  by_cases hKept : i ∈ kept ∨ isObservation m = false
  · have hSame : elideUnprotected kept i m = m := if_pos hKept
    rw [hSame, hSame]
  · have hElided : elideUnprotected kept i m = elide m := if_neg hKept
    rw [hElided, elideUnprotected, elide_idem, ite_self]

theorem map_frontReplaced {β : Type*} {f : Message → β} (h : ∀ m, f (elide m) = f m)
    (kept : List Nat) (i k : Nat) (messages : List Message) :
    (frontReplaced (elideUnprotected kept) i k messages).map f = messages.map f := by
  have hOne : ∀ i m, f (elideUnprotected kept i m) = f m := by
    intro i m
    rw [elideUnprotected]
    split
    · rfl
    · exact h m
  induction messages generalizing i k with
  | nil => simp
  | cons m rest ih =>
    cases k with
    | zero => simp
    | succ k => simp [frontReplaced, hOne, ih]

theorem roles_frontReplaced (k : Nat) (messages : List Message) :
    (frontReplaced (elideUnprotected kept) 0 k messages).map (·.get "role") =
      messages.map (·.get "role") :=
  map_frontReplaced (fun m => elide_get (by decide) m) kept 0 k messages

theorem protectedOf_eq_of_roles {messages other : List Message}
    (h : other.map (·.get "role") = messages.map (·.get "role")) :
    protectedOf other = protectedOf messages := by
  have hLength : other.length = messages.length := by
    simpa using congrArg length h
  have hHead : ((other.head?).any fun m => isText (m.get "role") "system") =
      (messages.head?).any fun m => isText (m.get "role") "system" := by
    have hRead := congrArg (fun roles => (roles.head?).any fun role => isText role "system") h
    simpa [head?_map, Option.any_map] using hRead
  have hUser : (other.findIdx? fun m => isText (m.get "role") "user") =
      messages.findIdx? fun m => isText (m.get "role") "user" := by
    have hRead := congrArg (findIdx? fun role => isText role "user") h
    simpa [findIdx?_map, Function.comp_def] using hRead
  rw [protectedOf, protectedOf, hLength, hHead, hUser]


/-! ## What trimming is to do -/

def elideAll : List Message :=
  frontReplaced (elideUnprotected (protectedOf messages)) 0 messages.length messages

/-- How much smaller the outputs that may be replaced among the first `k` messages are as
placeholders. -/
def savedByFirst (k : Nat) : Int :=
  savedBy (messageChars str) (elideUnprotected (protectedOf messages)) 0 k messages

/-- What trimming keeps, what it alters and in which order, and what it reaches. -/
structure Trimmed (str : PyValue → Text) (budget : Int) (messages result : List Message) :
    Prop where
  length : result.length = messages.length
  roles : result.map (·.get "role") = messages.map (·.get "role")
  callIds : ∀ kind, result.map (callIds str kind) = messages.map (callIds str kind)
  resultIds : ∀ kind, result.map (resultIds str kind) = messages.map (resultIds str kind)
  altered : ∀ (i : Nat) (m m' : Message), messages[i]? = some m → result[i]? = some m' →
    m' ≠ m → Elidable messages i m ∧ TextOnly m m'
  oldestFirst : ∀ (i j : Nat) (m n n' : Message), i < j → messages[i]? = some m →
    Elidable messages i m → messages[j]? = some n → result[j]? = some n' → n' ≠ n →
    result[i]? = some (elide m)
  notLarger : totalContentChars str result ≤ totalContentChars str messages
  within : totalContentChars str (elideAll messages) ≤ budget →
    totalContentChars str result ≤ budget

/-- Some number of the oldest outputs is enough. -/
def Reachable : Prop :=
  ∃ k, totalContentChars str messages - savedByFirst str messages k ≤ budget

/-- **The result.**  The oldest outputs are replaced, as many as needed. -/
theorem trim_eq :
    ∃ k ≤ messages.length,
      trimMessagesToBudget str messages budget =
        frontReplaced (elideUnprotected (protectedOf messages)) 0 k messages ∧
      (∀ j < k, budget < totalContentChars str messages - savedByFirst str messages j) ∧
      (k < messages.length →
        totalContentChars str messages - savedByFirst str messages k ≤ budget) := by
  by_cases hEmpty : messages.isEmpty = true
  · rw [isEmpty_iff.mp hEmpty]
    exact ⟨0, Nat.le_refl 0, rfl, fun j hj => absurd hj (Nat.not_lt_zero j), by simp⟩
  by_cases hWithin : totalContentChars str messages ≤ budget
  · refine ⟨0, Nat.zero_le _, ?_, fun j hj => absurd hj (Nat.not_lt_zero j), fun _ => ?_⟩
    · rw [trimMessagesToBudget, if_neg hEmpty, frontReplaced_zero]
      exact if_pos hWithin
    · rw [savedByFirst, savedBy_zero]
      omega
  · have hLoop : trimMessagesToBudget str messages budget =
        untilWithin (messageChars str) (elideUnprotected (protectedOf messages)) budget 0
          (totalContentChars str messages) messages := by
      rw [trimMessagesToBudget, if_neg hEmpty, ← trimFrom_eq_untilWithin]
      exact if_neg hWithin
    rw [hLoop]
    exact untilWithin_eq _ _ budget 0 (totalContentChars str messages) messages

theorem trim_idem :
    trimMessagesToBudget str (trimMessagesToBudget str messages budget) budget =
      trimMessagesToBudget str messages budget := by
  obtain ⟨k, hk, hResult, -, hAfter⟩ := trim_eq str messages budget
  have hKept : protectedOf (trimMessagesToBudget str messages budget) = protectedOf messages := by
    rw [hResult]
    exact protectedOf_eq_of_roles (roles_frontReplaced _ k messages)
  generalize hTrimmed : trimMessagesToBudget str messages budget = result at *
  rw [trimMessagesToBudget, hKept]
  split
  · rfl
  · show (if totalContentChars str result ≤ budget then result else _) = result
    split
    · rfl
    · rw [trimFrom_eq_untilWithin, hResult]
      refine untilWithin_idem (elideUnprotected_idem _) hk fun hMore => ?_
      rw [totalOf_frontReplaced]
      exact hAfter hMore


theorem totalContentChars_frontReplaced (k : Nat) :
    totalContentChars str
        (frontReplaced (elideUnprotected (protectedOf messages)) 0 k messages) =
      totalContentChars str messages - savedByFirst str messages k :=
  totalOf_frontReplaced 0 k messages

variable {messages} {i : Nat} {m}

theorem eq_elide_of_altered {k : Nat} {m' : Message} (hm : messages[i]? = some m)
    (hm' : (frontReplaced (elideUnprotected (protectedOf messages)) 0 k messages)[i]? = some m')
    (hNe : m' ≠ m) : i < k ∧ Elidable messages i m ∧ m' = elide m := by
  rw [getElem?_frontReplaced, hm, Nat.zero_add] at hm'
  by_cases hi : i < k
  · rw [if_pos hi] at hm'
    have hReplaced : elideUnprotected (protectedOf messages) i m = m' := Option.some.inj hm'
    by_cases hKept : i ∈ protectedOf messages ∨ isObservation m = false
    · rw [elideUnprotected, if_pos hKept] at hReplaced
      exact absurd hReplaced.symm hNe
    · rw [elideUnprotected, if_neg hKept] at hReplaced
      rw [not_or, Bool.not_eq_false] at hKept
      exact ⟨hi, hKept, hReplaced.symm⟩
  · rw [if_neg hi] at hm'
    exact absurd (Option.some.inj hm').symm hNe

theorem Elidable.elideUnprotected_eq (h : Elidable messages i m) :
    elideUnprotected (protectedOf messages) i m = elide m := by
  apply if_neg
  rw [not_or, Bool.not_eq_false]
  exact h

theorem trimmed_of_notLarger {str : PyValue → Text} {budget : Int}
    (h : totalContentChars str (trimMessagesToBudget str messages budget) ≤
      totalContentChars str messages) :
    Trimmed str budget messages (trimMessagesToBudget str messages budget) := by
  obtain ⟨k, hk, hResult, -, hAfter⟩ := trim_eq str messages budget
  rw [hResult] at h ⊢
  exact
    { length := length_frontReplaced 0 k messages
      roles := roles_frontReplaced _ k messages
      callIds := fun kind => map_frontReplaced (callIds_elide str kind) _ 0 k messages
      resultIds := fun kind => map_frontReplaced (resultIds_elide str kind) _ 0 k messages
      altered := fun i m m' hm hm' hNe => by
        obtain ⟨-, hElidable, rfl⟩ := eq_elide_of_altered hm hm' hNe
        exact ⟨hElidable, TextOnly.of_elide m⟩
      oldestFirst := fun i j m n n' hij hm hElidable hn hn' hNe => by
        obtain ⟨hj, -, -⟩ := eq_elide_of_altered hn hn' hNe
        rw [getElem?_frontReplaced, if_pos (show i < k by omega), hm, Nat.zero_add]
        exact congrArg some hElidable.elideUnprotected_eq
      notLarger := h
      within := fun hAll => by
        rw [elideAll, totalContentChars_frontReplaced] at hAll
        rw [totalContentChars_frontReplaced]
        by_cases hMore : k < messages.length
        · exact hAfter hMore
        · rw [show k = messages.length by omega]
          exact hAll }

/-- The messages never grow exactly where the budget can be met, or all the placeholders are
no longer than what they stand for. -/
theorem trim_notLarger_iff (messages : List Message) (budget : Int) :
    totalContentChars str (trimMessagesToBudget str messages budget) ≤
        totalContentChars str messages ↔
      Reachable str messages budget ∨ 0 ≤ savedByFirst str messages messages.length := by
  obtain ⟨k, hk, hResult, hBefore, hAfter⟩ := trim_eq str messages budget
  have hNone : savedByFirst str messages 0 = 0 := savedBy_zero 0 messages
  rw [hResult, totalContentChars_frontReplaced]
  constructor
  · intro hSaved
    by_cases hMore : k < messages.length
    · exact .inl ⟨k, hAfter hMore⟩
    · right
      rw [show messages.length = k by omega]
      omega
  · intro hEnough
    by_cases hFirst : k = 0
    · rw [hFirst, hNone]
      omega
    -- Something was replaced, so the messages were over the budget.
    have hOver := hBefore 0 (show 0 < k by omega)
    rw [hNone] at hOver
    by_cases hMore : k < messages.length
    · have hWithin := hAfter hMore
      omega
    have hAll : k = messages.length := by omega
    rcases hEnough with ⟨j, hj⟩ | hSaved
    · have hLate : k ≤ j := by
        by_contra hEarly
        have hStill := hBefore j (show j < k by omega)
        omega
      have hSame : savedByFirst str messages j = savedByFirst str messages messages.length :=
        savedBy_of_length_le (show messages.length ≤ j by omega) 0
      rw [hSame, ← hAll] at hj
      omega
    · rw [hAll]
      omega

/-- **Trimming.**  It does all it is to do, and nothing more when done again, exactly where some
number of the oldest outputs is enough for the budget, or the outputs that may be replaced are
together no shorter than their placeholders. -/
theorem trim_exact_iff (str : PyValue → Text) (messages : List Message) (budget : Int) :
    (Trimmed str budget messages (trimMessagesToBudget str messages budget) ∧
      trimMessagesToBudget str (trimMessagesToBudget str messages budget) budget =
        trimMessagesToBudget str messages budget) ↔
      Reachable str messages budget ∨ 0 ≤ savedByFirst str messages messages.length := by
  rw [← trim_notLarger_iff]
  exact ⟨fun h => h.1.notLarger, fun h => ⟨trimmed_of_notLarger h, trim_idem str messages budget⟩⟩

/-- Two outputs shorter than their placeholder, of which the last is protected. -/
def shortOutputs : List Message :=
  [[textField "role" "user", textField "content" "question"],
    [textField "role" "tool", textField "content" "ok"],
    [textField "role" "assistant", textField "content" "a"],
    [textField "role" "tool", textField "content" "b"]]

/-- **A short output grows.** -/
theorem short_output_grows :
    totalContentChars strOfText shortOutputs = 12 ∧
      totalContentChars strOfText (trimMessagesToBudget strOfText shortOutputs 5) = 53 ∧
      ¬ Trimmed strOfText 5 shortOutputs (trimMessagesToBudget strOfText shortOutputs 5) := by
  have hBefore : totalContentChars strOfText shortOutputs = 12 := by decide
  have hAfter : totalContentChars strOfText
      (trimMessagesToBudget strOfText shortOutputs 5) = 53 := by decide
  refine ⟨hBefore, hAfter, fun h => ?_⟩
  have hNotLarger := h.notLarger
  rw [hBefore, hAfter] at hNotLarger
  exact absurd hNotLarger (by decide)

end StackOwl.Providers
