import StackOwl.Lib.PyJson

/-!
# Resume transcripts

A durable task goes on from the messages its checkpoint holds.  `validate_resume_transcript`
(`providers/resume_validation.py`) refuses a list that a provider would refuse: every call of a
tool is to be answered by a result, and no user turn is to follow a result directly.

Messages are dictionaries of any values.  What `str` makes of an id is a parameter, `str`.

## Main results

* `validate_eq_ok_iff` — the rules as the code checks them.
* `validate_exact_iff` — the result of a call is looked for anywhere, so the check is exact but
  for the lists in which a call is answered before it is made.
-/

namespace StackOwl.Providers

open Lib

/-! ## Messages -/

inductive ProviderKind where
  | anthropic
  | openai
  deriving DecidableEq

abbrev Message := List (PyKey × PyValue)

/-- `message.get(key)`. -/
def Message.get (m : Message) (key : String) : PyValue :=
  (m.findSome? fun field =>
    match field with
    | (.str name, value) => if name = Text.ofString key then some value else none
    | _ => none).getD .none

/-- `value == text`. -/
def isText (value : PyValue) (text : String) : Bool :=
  match value with
  | .str s => s == Text.ofString text
  | _ => false

def Message.blocks (m : Message) (key : String) : List Message :=
  match m.get key with
  | .list items =>
    items.filterMap fun item =>
      match item with
      | .dict block => some block
      | _ => none
  | _ => []

def isToolResultTurn (kind : ProviderKind) (message : Message) : Bool :=
  match kind with
  | .openai => isText (message.get "role") "tool"
  | .anthropic =>
    (message.blocks "content").any fun block => isText (block.get "type") "tool_result"

section

variable (str : PyValue → Text)

/-- `str(value)`, unless the value is `None`. -/
def idOf : PyValue → Option Text
  | .none => none
  | value => some (str value)

variable (message : Message)

def openaiToolCallIds : List Text :=
  if isText (message.get "role") "assistant" then
    (message.blocks "tool_calls").filterMap fun call => idOf str (call.get "id")
  else []

def openaiResultId : Option Text :=
  if isText (message.get "role") "tool" then idOf str (message.get "tool_call_id") else none

def anthropicToolUseIds : List Text :=
  if isText (message.get "role") "assistant" then
    (message.blocks "content").filterMap fun block =>
      if isText (block.get "type") "tool_use" then idOf str (block.get "id") else none
  else []

def anthropicResultIds : List Text :=
  if isText (message.get "role") "user" then
    (message.blocks "content").filterMap fun block =>
      if isText (block.get "type") "tool_result" then idOf str (block.get "tool_use_id")
      else none
  else []

def callIds : ProviderKind → Message → List Text
  | .anthropic => anthropicToolUseIds str
  | .openai => openaiToolCallIds str

def resultIds : ProviderKind → Message → List Text
  | .anthropic => anthropicResultIds str
  | .openai => fun message => (openaiResultId str message).toList

end

/-! ## The check -/

structure ResumeTranscriptError where
  reason : String
  danglingIds : List Text := []
  deriving DecidableEq

def EMPTY : String := "transcript is empty"

def SYSTEM : String :=
  "anthropic transcript contains a system-role message " ++
    "(system must be passed separately, not in messages)"

def UNMATCHED : String := "transcript has tool call(s) with no matching result message"

def DANGLING : String :=
  "transcript ends on an assistant turn with an unanswered tool call " ++
    "(resuming mid-dispatch would 400)"

def USER_AFTER_RESULT : String :=
  "transcript puts a user message directly after a tool result " ++
    "(two consecutive user turns on the Anthropic wire; the model " ++
    "continues the user's message instead of answering it) — the " ++
    "tool sequence must be closed by an assistant turn first"

/-- A user turn that is no tool result follows a tool result. -/
def breaksAfter (kind : ProviderKind) (message next : Message) : Bool :=
  isToolResultTurn kind message && isText (next.get "role") "user" &&
    !isToolResultTurn kind next

def breaks (kind : ProviderKind) : List Message → Bool
  | message :: next :: rest => breaksAfter kind message next || breaks kind (next :: rest)
  | _ => false

def validateResumeTranscript (str : PyValue → Text) (kind : ProviderKind)
    (messages : List Message) : Except ResumeTranscriptError Unit :=
  let answered := messages.flatMap (resultIds str kind)
  let declared := messages.flatMap (callIds str kind)
  let unmatched := declared.filter (· ∉ answered)
  let lastCallIds := ((messages.getLast?).map (callIds str kind)).getD []
  if messages = [] then .error ⟨EMPTY, []⟩
  else if kind = .anthropic ∧ messages.any fun m => isText (m.get "role") "system" then
    .error ⟨SYSTEM, []⟩
  else if unmatched ≠ [] then .error ⟨UNMATCHED, unmatched⟩
  else if lastCallIds ≠ [] then .error ⟨DANGLING, lastCallIds⟩
  else if kind = .anthropic ∧ breaks kind messages then .error ⟨USER_AFTER_RESULT, []⟩
  else .ok ()

/-! ## What a transcript is to be -/

section

variable (str : PyValue → Text) (kind : ProviderKind) (messages : List Message)

/-- The message at position `i` calls a tool under the id. -/
def Calls (i : Nat) (id : Text) : Prop :=
  ∃ m, messages[i]? = some m ∧ id ∈ callIds str kind m

/-- The message at position `j` answers the id. -/
def Answers (j : Nat) (id : Text) : Prop :=
  ∃ m, messages[j]? = some m ∧ id ∈ resultIds str kind m

/-- A user turn that is no tool result follows the tool result at position `i`. -/
def BreaksAt (i : Nat) : Prop :=
  ∃ m n, messages[i]? = some m ∧ messages[i + 1]? = some n ∧ breaksAfter kind m n = true

structure Resumable : Prop where
  nonempty : messages ≠ []
  noSystem : kind = .anthropic → ∀ m ∈ messages, isText (m.get "role") "system" = false
  answered : ∀ i id, Calls str kind messages i id → ∃ j, i < j ∧ Answers str kind messages j id
  closed : kind = .anthropic → ∀ i, ¬ BreaksAt kind messages i

/-- A call is answered, but not after it. -/
def AnsweredBefore : Prop :=
  ∃ i id, Calls str kind messages i id ∧ (∃ j, Answers str kind messages j id) ∧
    ∀ j, i < j → ¬ Answers str kind messages j id

/-- Another rule refuses the list: a system turn, a call without an answer, calls in the last
message, a user turn directly after a tool result. -/
def RefusedAnyway : Prop :=
  (kind = .anthropic ∧ ∃ m ∈ messages, isText (m.get "role") "system" = true) ∨
    (∃ i id, Calls str kind messages i id ∧ ∀ j, ¬ Answers str kind messages j id) ∨
    (∃ m ∈ messages.getLast?, callIds str kind m ≠ []) ∨
    (kind = .anthropic ∧ ∃ i, BreaksAt kind messages i)

variable {str kind messages}

theorem breaks_iff : breaks kind messages = true ↔ ∃ i, BreaksAt kind messages i := by
  fun_induction breaks kind messages with
  | case1 message next rest ih =>
    rw [Bool.or_eq_true, ih]
    constructor
    · rintro (hHere | ⟨i, m, n, hm, hn, hBreak⟩)
      · exact ⟨0, message, next, rfl, rfl, hHere⟩
      · exact ⟨i + 1, m, n, hm, hn, hBreak⟩
    · rintro ⟨i, m, n, hm, hn, hBreak⟩
      cases i with
      | zero =>
        cases hm
        cases hn
        exact .inl hBreak
      | succ i => exact .inr ⟨i, m, n, hm, hn, hBreak⟩
  | case2 messages hShort =>
    refine iff_of_false (by simp) ?_
    rintro ⟨i, m, n, hm, hn, -⟩
    match messages, hShort with
    | [], _ => simp at hm
    | [_], _ => simp at hn
    | m :: n :: rest, hShort => exact hShort m n rest rfl

theorem mem_gathered {α : Type*} {ids : α → List Text} {records : List α} {id : Text} :
    id ∈ records.flatMap ids ↔ ∃ (i : Nat) (m : α), records[i]? = some m ∧ id ∈ ids m := by
  rw [List.mem_flatMap]
  constructor
  · rintro ⟨m, hm, hId⟩
    obtain ⟨i, hi⟩ := List.mem_iff_getElem?.mp hm
    exact ⟨i, m, hi, hId⟩
  · rintro ⟨i, m, hi, hId⟩
    exact ⟨m, List.mem_of_getElem? hi, hId⟩

/-- The list is accepted exactly where no rule refuses it. -/
theorem validate_eq_ok_iff :
    validateResumeTranscript str kind messages = .ok () ↔
      messages ≠ [] ∧ ¬ RefusedAnyway str kind messages := by
  have hUnmatched : (messages.flatMap (callIds str kind)).filter
        (· ∉ messages.flatMap (resultIds str kind)) ≠ [] ↔
      ∃ i id, Calls str kind messages i id ∧ ∀ j, ¬ Answers str kind messages j id := by
    simp only [ne_eq, List.filter_eq_nil_iff, decide_eq_true_eq, mem_gathered, Answers, Calls]
    push Not
    constructor
    · rintro ⟨id, ⟨i, hCall⟩, hNone⟩
      exact ⟨i, id, hCall, hNone⟩
    · rintro ⟨i, id, hCall, hNone⟩
      exact ⟨id, ⟨i, hCall⟩, hNone⟩
  have hLast : ((messages.getLast?).map (callIds str kind)).getD [] ≠ [] ↔
      ∃ m ∈ messages.getLast?, callIds str kind m ≠ [] := by
    cases messages.getLast? <;> simp
  have hSystem : (messages.any fun m => isText (m.get "role") "system") = true ↔
      ∃ m ∈ messages, isText (m.get "role") "system" = true := by
    simp
  simp only [validateResumeTranscript]
  by_cases hEmpty : messages = []
  · simp [hEmpty]
  rw [if_neg hEmpty]
  split
  · next hRule =>
      exact iff_of_false (by simp) fun h => h.2 (.inl ⟨hRule.1, hSystem.mp hRule.2⟩)
  next hNoSystem =>
  split
  · next hRule => exact iff_of_false (by simp) fun h => h.2 (.inr (.inl (hUnmatched.mp hRule)))
  next hMatched =>
  split
  · next hRule =>
      exact iff_of_false (by simp) fun h => h.2 (.inr (.inr (.inl (hLast.mp hRule))))
  next hEnds =>
  split
  · next hRule =>
      exact iff_of_false (by simp) fun h =>
        h.2 (.inr (.inr (.inr ⟨hRule.1, breaks_iff.mp hRule.2⟩)))
  next hClosed =>
  refine iff_of_true rfl ⟨hEmpty, ?_⟩
  rintro (⟨hKind, hRule⟩ | hRule | hRule | ⟨hKind, hRule⟩)
  · exact hNoSystem ⟨hKind, hSystem.mpr hRule⟩
  · exact hMatched (hUnmatched.mpr hRule)
  · exact hEnds (hLast.mpr hRule)
  · exact hClosed ⟨hKind, breaks_iff.mpr hRule⟩

theorem not_last_of_answered {m : Message} (hLast : messages.getLast? = some m)
    (hAnswered : ∀ i id, Calls str kind messages i id →
      ∃ j, i < j ∧ Answers str kind messages j id) : callIds str kind m = [] := by
  rw [List.eq_nil_iff_forall_not_mem]
  intro id hId
  have hAt : messages[messages.length - 1]? = some m := by
    rw [← List.getLast?_eq_getElem?]
    exact hLast
  obtain ⟨j, hLater, n, hn, -⟩ := hAnswered _ id ⟨m, hAt, hId⟩
  have hBound := (List.getElem?_eq_some_iff.mp hn).1
  omega

theorem Resumable.accepted (h : Resumable str kind messages) :
    validateResumeTranscript str kind messages = .ok () := by
  rw [validate_eq_ok_iff]
  refine ⟨h.nonempty, ?_⟩
  rintro (⟨hKind, m, hm, hSystem⟩ | ⟨i, id, hCall, hNone⟩ | ⟨m, hm, hCalls⟩ | ⟨hKind, i, hBreak⟩)
  · rw [h.noSystem hKind m hm] at hSystem
    cases hSystem
  · obtain ⟨j, -, hAnswer⟩ := h.answered i id hCall
    exact hNone j hAnswer
  · exact hCalls (not_last_of_answered hm h.answered)
  · exact h.closed hKind i hBreak

/-- **Pairing.**  The check accepts exactly the transcripts to go on from, unless some call is
answered but not after it, and nothing else is wrong with the list. -/
theorem validate_exact_iff (str : PyValue → Text) (kind : ProviderKind)
    (messages : List Message) :
    (validateResumeTranscript str kind messages = .ok () ↔ Resumable str kind messages) ↔
      (AnsweredBefore str kind messages → RefusedAnyway str kind messages) := by
  constructor
  · rintro hExact ⟨i, id, hCall, -, hNever⟩
    by_contra hRefused
    have hSome : messages ≠ [] := by
      rintro rfl
      obtain ⟨m, hm, -⟩ := hCall
      simp at hm
    have hResumable := hExact.mp (validate_eq_ok_iff.mpr ⟨hSome, hRefused⟩)
    obtain ⟨j, hLater, hAnswer⟩ := hResumable.answered i id hCall
    exact hNever j hLater hAnswer
  · intro hOnly
    refine ⟨fun hOk => ?_, Resumable.accepted⟩
    obtain ⟨hSome, hRefused⟩ := validate_eq_ok_iff.mp hOk
    have hNotBefore : ¬ AnsweredBefore str kind messages := fun h => hRefused (hOnly h)
    refine ⟨hSome, fun hKind m hm => ?_, fun i id hCall => ?_, fun hKind i hBreak => ?_⟩
    · by_contra hSystem
      exact hRefused (.inl ⟨hKind, m, hm, by simpa using hSystem⟩)
    · by_contra hNever
      push Not at hNever
      have hSomewhere : ∃ j, Answers str kind messages j id := by
        by_contra hNone
        push Not at hNone
        exact hRefused (.inr (.inl ⟨i, id, hCall, hNone⟩))
      exact hNotBefore ⟨i, id, hCall, hSomewhere, hNever⟩
    · exact hRefused (.inr (.inr (.inr ⟨hKind, i, hBreak⟩)))

end

def field (key : String) (value : PyValue) : PyKey × PyValue := (.str (Text.ofString key), value)

def textField (key text : String) : PyKey × PyValue :=
  field key (.str (Text.ofString text))

/-- `str`, of texts. -/
def strOfText : PyValue → Text
  | .str s => s
  | _ => []

def resultFirst : List Message :=
  [[textField "role" "tool", textField "tool_call_id" "a", textField "content" "done"],
    [textField "role" "assistant", field "tool_calls" (.list [.dict [textField "id" "a"]])],
    [textField "role" "user", textField "content" "go on"]]

/-- **A result that comes too early is taken for an answer.** -/
theorem early_result_accepted :
    validateResumeTranscript strOfText .openai resultFirst = .ok () ∧
      ¬ Resumable strOfText .openai resultFirst := by
  refine ⟨by decide, fun h => ?_⟩
  obtain ⟨j, hLater, n, hn, hId⟩ :=
    h.answered 1 (Text.ofString "a") ⟨_, rfl, by decide⟩
  match j, hLater with
  | 2, _ =>
    cases hn
    revert hId
    decide
  | j + 3, _ => simp [resultFirst] at hn

end StackOwl.Providers
