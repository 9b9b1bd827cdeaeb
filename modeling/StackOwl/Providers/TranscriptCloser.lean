import Mathlib.Data.List.Induction
import StackOwl.Providers.ResumeValidation

/-!
# Closing an interrupted tool sequence

The resume load point infers which provider a transcript was written for and closes every
tool result that a user turn follows (`infer_provider_kind`,
`close_interrupted_tool_sequence`; `providers/resume_validation.py`).  The list is changed in
place, from its end to its start.

## Main results

* `closeFrom_eq` — the walk makes one pass: a closing turn between every result and the user
  turn after it.
* `closer_repairs` — a transcript that only rule 5 refuses is accepted once it is closed.
-/

namespace StackOwl.Providers

open Lib List

def inferProviderKind : List Message → ProviderKind
  | [] => .openai
  | m :: rest =>
    if isText (m.get "role") "tool" then .openai
    else if isToolResultTurn .anthropic m then .anthropic
    else inferProviderKind rest

def CLOSING_TURN_TEXT : String := "Operation interrupted."

def closingTurn : Message :=
  [(.str (Text.ofString "role"), .str (Text.ofString "assistant")),
    (.str (Text.ofString "content"), .str (Text.ofString CLOSING_TURN_TEXT))]

/-- The loop of `close_interrupted_tool_sequence`, at the positions below the given one, the
last of them first. -/
def closeFrom (kind : ProviderKind) : Nat → List Message → List Message × Nat
  | 0, messages => (messages, 0)
  | i + 1, messages =>
    match messages[i]?, messages[i + 1]? with
    | some message, some next =>
      if breaksAfter kind message next then
        let (closed, inserted) := closeFrom kind i (messages.insertIdx (i + 1) closingTurn)
        (closed, inserted + 1)
      else closeFrom kind i messages
    | _, _ => closeFrom kind i messages

/-- `close_interrupted_tool_sequence`: the list it leaves, and the count it returns. -/
def closeInterruptedToolSequence (kind : ProviderKind) (messages : List Message) :
    List Message × Nat :=
  if kind ≠ .anthropic then (messages, 0) else closeFrom kind (messages.length - 1) messages

/-! ## One pass -/

def marked (kind : ProviderKind) : List Message → List (Bool × Message)
  | message :: next :: rest =>
    if breaksAfter kind message next then
      (false, message) :: (true, closingTurn) :: marked kind (next :: rest)
    else (false, message) :: marked kind (next :: rest)
  | messages => messages.map (false, ·)

/-- How many user turns follow a tool result. -/
def adjacencies (kind : ProviderKind) : List Message → Nat
  | message :: next :: rest =>
    (if breaksAfter kind message next then 1 else 0) + adjacencies kind (next :: rest)
  | _ => 0

section

variable {kind : ProviderKind} (init : List Message)

theorem marked_append (message next : Message) :
    marked kind (init ++ [message, next]) =
      marked kind (init ++ [message]) ++
        if breaksAfter kind message next then [(true, closingTurn), (false, next)]
        else [(false, next)] := by
  induction init with
  | nil => by_cases h : breaksAfter kind message next = true <;> simp [marked, h]
  | cons first init ih =>
    cases init with
    | nil =>
      simp only [nil_append, cons_append, marked]
      by_cases hFirst : breaksAfter kind first message = true <;>
        by_cases hNext : breaksAfter kind message next = true <;> simp [hFirst, hNext]
    | cons second init =>
      simp only [cons_append, marked] at ih ⊢
      by_cases h : breaksAfter kind first second = true <;> simp [h, ih]

theorem adjacencies_append (message next : Message) :
    adjacencies kind (init ++ [message, next]) =
      adjacencies kind (init ++ [message]) +
        if breaksAfter kind message next then 1 else 0 := by
  induction init with
  | nil => simp [adjacencies]
  | cons first init ih =>
    cases init with
    | nil =>
      simp only [nil_append, cons_append, adjacencies] at ih ⊢
      omega
    | cons second init =>
      simp only [cons_append, adjacencies] at ih ⊢
      omega

theorem insertIdx_after (before inserted : Message) (rest : List Message)
    : (init ++ before :: rest).insertIdx (init.length + 1) inserted =
      init ++ before :: inserted :: rest := by
  induction init with
  | nil => rfl
  | cons first init ih => simp [ih]

theorem closeFrom_eq : ∀ (message : Message) (rest : List Message),
    closeFrom kind init.length (init ++ message :: rest) =
      ((marked kind (init ++ [message])).map Prod.snd ++ rest,
        adjacencies kind (init ++ [message])) := by
  induction init using reverseRecOn with
  | nil => intro message rest; simp [closeFrom, marked, adjacencies]
  | append_singleton init before ih =>
    intro message rest
    have hBefore : (init ++ [before] ++ message :: rest)[init.length]? = some before := by
      simp
    have hAt : (init ++ [before] ++ message :: rest)[init.length + 1]? = some message := by
      simp
    rw [length_append, length_singleton, closeFrom, hBefore, hAt]
    simp only [append_assoc, singleton_append]
    rw [marked_append, adjacencies_append]
    by_cases hBreak : breaksAfter kind before message = true
    · simp only [if_pos hBreak, insertIdx_after, ih, map_append]
      simp
    · simp only [if_neg hBreak, ih, map_append]
      simp

/-- **One pass.**  The list is closed at every adjacency, and these are counted. -/
theorem closeInterrupted_eq (messages : List Message) :
    closeInterruptedToolSequence .anthropic messages =
      ((marked .anthropic messages).map Prod.snd, adjacencies .anthropic messages) := by
  rw [closeInterruptedToolSequence, if_neg (by simp)]
  cases messages using reverseRecOn with
  | nil => rfl
  | append_singleton init message => simpa using closeFrom_eq init message []

/-! ## What the pass keeps -/

theorem unmarked (messages : List Message) :
    ((marked kind messages).filter (!·.1)).map Prod.snd = messages := by
  fun_induction marked kind messages with
  | case1 message next rest hBreak ih => simp [ih]
  | case2 message next rest hBreak ih => simp [ih]
  | case3 messages hShort => simp [filter_map, Function.comp_def]

variable {messages : List Message}

theorem marked_turns {m : Message} (h : (true, m) ∈ marked kind messages) : m = closingTurn := by
  fun_induction marked kind messages with
  | case1 message next rest hBreak ih =>
    simp only [mem_cons, Prod.mk.injEq, Bool.true_eq_false, false_and, false_or,
      true_and] at h
    exact h.elim id ih
  | case2 message next rest hBreak ih =>
    simp only [mem_cons, Prod.mk.injEq, Bool.true_eq_false, false_and, false_or] at h
    exact ih h
  | case3 messages hShort => simp at h

theorem count_marked (messages : List Message) :
    (marked kind messages).countP (·.1) = adjacencies kind messages := by
  fun_induction marked kind messages with
  | case1 message next rest hBreak ih =>
    rw [adjacencies, if_pos hBreak, ← ih]
    simp
    omega
  | case2 message next rest hBreak ih =>
    rw [adjacencies, if_neg hBreak, ← ih]
    simp
  | case3 messages hShort =>
    have hNone : adjacencies kind messages = 0 := by
      unfold adjacencies
      split
      · next message next rest => exact absurd rfl (hShort message next rest)
      · rfl
    rw [hNone, countP_eq_zero]
    simp

theorem getLast?_marked (messages : List Message) :
    ((marked kind messages).map Prod.snd).getLast? = messages.getLast? := by
  fun_induction marked kind messages with
  | case1 message next rest hBreak ih => simp [getLast?_cons, ih]
  | case2 message next rest hBreak ih => simp [getLast?_cons, ih]
  | case3 messages hShort => simp [Function.comp_def]

theorem flatMap_marked {α : Type} {f : Message → List α} (hNothing : f closingTurn = [])
    (messages : List Message) :
    ((marked kind messages).map Prod.snd).flatMap f = messages.flatMap f := by
  fun_induction marked kind messages with
  | case1 message next rest hBreak ih =>
    simp only [map_cons, flatMap_cons, hNothing, ih, nil_append]
  | case2 message next rest hBreak ih => simp only [map_cons, flatMap_cons, ih]
  | case3 messages hShort => simp [Function.comp_def]

/-! ## The closing turn -/

theorem isToolResultTurn_closingTurn : isToolResultTurn kind closingTurn = false := by
  cases kind <;> decide

theorem callIds_closingTurn (str : PyValue → Text) : callIds str kind closingTurn = [] := by
  cases kind <;> rfl

theorem resultIds_closingTurn (str : PyValue → Text) : resultIds str kind closingTurn = [] := by
  cases kind <;> rfl

theorem breaks_marked (messages : List Message) :
    breaks kind ((marked kind messages).map Prod.snd) = false := by
  have hTo : ∀ m, breaksAfter kind m closingTurn = false := by
    intro m
    have hRole : isText (closingTurn.get "role") "user" = false := by decide
    simp [breaksAfter, hRole]
  have hFrom : ∀ m, breaksAfter kind closingTurn m = false := by
    intro m
    simp [breaksAfter, isToolResultTurn_closingTurn]
  have hHead : ∀ next rest, ∃ tail,
      (marked kind (next :: rest)).map Prod.snd = next :: tail := by
    intro next rest
    cases rest with
    | nil => exact ⟨[], rfl⟩
    | cons second rest =>
      by_cases hBreak : breaksAfter kind next second = true <;> simp [marked, hBreak]
  fun_induction marked kind messages with
  | case1 message next rest hBreak ih =>
    obtain ⟨tail, hTail⟩ := hHead next rest
    rw [hTail] at ih
    simp only [map_cons, hTail, breaks, hTo, hFrom, Bool.false_or]
    exact ih
  | case2 message next rest hBreak ih =>
    obtain ⟨tail, hTail⟩ := hHead next rest
    rw [hTail] at ih
    simp only [map_cons, hTail, breaks, hBreak, Bool.false_or]
    exact ih
  | case3 messages hShort =>
    have hSame : (messages.map ((false, ·) : Message → Bool × Message)).map Prod.snd =
        messages := by
      simp [Function.comp_def]
    rw [hSame]
    unfold breaks
    split
    · next message next rest => exact absurd rfl (hShort message next rest)
    · rfl

theorem adjacencies_eq_zero (h : breaks kind messages = false) :
    adjacencies kind messages = 0 := by
  fun_induction adjacencies kind messages with
  | case1 message next rest ih =>
    rw [breaks, Bool.or_eq_false_iff] at h
    rw [ih h.2, if_neg (by simp [h.1])]
  | case2 messages hShort => rfl

theorem marked_of_not_breaks (h : breaks kind messages = false) :
    (marked kind messages).map Prod.snd = messages := by
  fun_induction marked kind messages with
  | case1 message next rest hBreak ih =>
    rw [breaks, Bool.or_eq_false_iff] at h
    rw [h.1] at hBreak
    cases hBreak
  | case2 message next rest hBreak ih =>
    rw [breaks, Bool.or_eq_false_iff] at h
    rw [map_cons, ih h.2]
  | case3 messages hShort => simp [Function.comp_def]

end

/-! ## The repair -/

/-- Rule 5 is the last one, so a list that it refuses meets the others. -/
theorem only_rule_five {str : PyValue → Text} {kind : ProviderKind} {messages : List Message}
    (h : validateResumeTranscript str kind messages = .error ⟨USER_AFTER_RESULT, []⟩) :
    messages ≠ [] ∧ kind = .anthropic ∧
      (messages.any fun m => isText (m.get "role") "system") = false ∧
      (messages.flatMap (callIds str kind)).filter
        (· ∉ messages.flatMap (resultIds str kind)) = [] ∧
      ((messages.getLast?).map (callIds str kind)).getD [] = [] := by
  simp only [validateResumeTranscript] at h
  split at h
  · exact absurd (ResumeTranscriptError.mk.inj (Except.error.inj h)).1 (by decide)
  next hSome =>
  split at h
  · exact absurd (ResumeTranscriptError.mk.inj (Except.error.inj h)).1 (by decide)
  next hNoSystem =>
  split at h
  · exact absurd (ResumeTranscriptError.mk.inj (Except.error.inj h)).1 (by decide)
  next hMatched =>
  split at h
  · exact absurd (ResumeTranscriptError.mk.inj (Except.error.inj h)).1 (by decide)
  next hEnds =>
  split at h
  · next hRule =>
      refine ⟨hSome, hRule.1, ?_, not_not.mp hMatched, not_not.mp hEnds⟩
      simpa [hRule.1] using hNoSystem
  · cases h

theorem accepted_of_closed {str : PyValue → Text} {kind : ProviderKind}
    {messages : List Message}
    (hOnly : validateResumeTranscript str kind messages = .error ⟨USER_AFTER_RESULT, []⟩)
    (hSound : breaks kind ((marked kind messages).map Prod.snd) = false) :
    validateResumeTranscript str kind ((marked kind messages).map Prod.snd) = .ok () := by
  obtain ⟨hSome, hKind, hNoSystem, hMatched, hEnds⟩ := only_rule_five hOnly
  have hStill : (marked kind messages).map Prod.snd ≠ [] := by
    intro hEmpty
    have hLast : ((marked kind messages).map Prod.snd).getLast? = messages.getLast? :=
      getLast?_marked messages
    rw [hEmpty] at hLast
    exact hSome (getLast?_eq_none_iff.mp hLast.symm)
  have hSystem : (((marked kind messages).map Prod.snd).any
      fun m => isText (m.get "role") "system") = false := by
    rw [any_eq_false] at hNoSystem ⊢
    intro m hm
    obtain ⟨⟨mark, m'⟩, hTurn, rfl⟩ := mem_map.mp hm
    cases mark with
    | true =>
      rw [marked_turns hTurn]
      decide
    | false =>
      refine hNoSystem m' ?_
      have hKept : ((marked kind messages).filter (!·.1)).map Prod.snd = messages :=
        unmarked messages
      rw [← hKept]
      exact mem_map.mpr ⟨(false, m'), mem_filter.mpr ⟨hTurn, rfl⟩, rfl⟩
  simp only [validateResumeTranscript, flatMap_marked (callIds_closingTurn str),
    flatMap_marked (resultIds_closingTurn str), getLast?_marked, hMatched, hEnds, hSystem, hSound,
    if_neg hStill]
  simp

/-- **The closer.**  A transcript that only rule 5 refuses is accepted once it is closed;
closing it again inserts nothing; the count is that of the adjacencies; and without the turns
that were inserted the list is as it was.  No list loses or gains a declared or answered id. -/
theorem closer_repairs (str : PyValue → Text) (messages : List Message) :
    let kind := inferProviderKind messages
    let closed := closeInterruptedToolSequence kind messages
    (validateResumeTranscript str kind messages = .error ⟨USER_AFTER_RESULT, []⟩ →
      validateResumeTranscript str kind closed.1 = .ok () ∧
      closeInterruptedToolSequence kind closed.1 = (closed.1, 0) ∧
      closed.2 = adjacencies kind messages ∧
      ∃ turns : List (Bool × Message), turns.map Prod.snd = closed.1 ∧
        (turns.filter (!·.1)).map Prod.snd = messages ∧
        turns.countP (·.1) = closed.2 ∧ ∀ m, (true, m) ∈ turns → m = closingTurn) ∧
    ∀ kind wire : ProviderKind, ∀ collect ∈ [callIds str wire, resultIds str wire],
      (closeInterruptedToolSequence kind messages).1.flatMap collect =
        messages.flatMap collect := by
  intro kind closed
  constructor
  · intro hOnly
    obtain ⟨hSome, hKind, hNoSystem, hMatched, hEnds⟩ := only_rule_five hOnly
    have hClosed : closed = ((marked kind messages).map Prod.snd, adjacencies kind messages) := by
      show closeInterruptedToolSequence kind messages = _
      rw [hKind]
      exact closeInterrupted_eq messages
    have hSound : breaks kind closed.1 = false := by
      rw [hClosed]
      exact breaks_marked messages
    refine ⟨?_, ?_, by rw [hClosed], marked kind messages, by rw [hClosed], unmarked messages,
      ?_, fun m hm => marked_turns hm⟩
    · have hFields : closed.1 = (marked kind messages).map Prod.snd := by rw [hClosed]
      rw [hFields] at hSound ⊢
      exact accepted_of_closed hOnly hSound
    · rw [hKind] at hSound ⊢
      rw [closeInterrupted_eq, marked_of_not_breaks hSound, adjacencies_eq_zero hSound]
    · rw [hClosed]
      exact count_marked messages
  · intro kind wire collect hCollect
    have hNothing : collect closingTurn = [] := by
      simp only [mem_cons, not_mem_nil, or_false] at hCollect
      rcases hCollect with rfl | rfl
      · exact callIds_closingTurn str
      · exact resultIds_closingTurn str
    cases kind with
    | openai => rfl
    | anthropic =>
      rw [closeInterrupted_eq]
      exact flatMap_marked hNothing messages

/-- A user turn follows the result of a call. -/
def interrupted : List Message :=
  [[textField "role" "assistant",
      field "content" (.list [.dict [textField "type" "tool_use", textField "id" "a"]])],
    [textField "role" "user",
      field "content"
        (.list [.dict [textField "type" "tool_result", textField "tool_use_id" "a"]])],
    [textField "role" "user", textField "content" "go on"]]

/-- One turn closes it. -/
theorem closer_repairs_interrupted :
    inferProviderKind interrupted = .anthropic ∧
      (closeInterruptedToolSequence .anthropic interrupted).2 = 1 ∧
      validateResumeTranscript strOfText .anthropic
        (closeInterruptedToolSequence .anthropic interrupted).1 = .ok () :=
  ⟨by decide, by decide, ((closer_repairs strOfText interrupted).1 rfl).1⟩

end StackOwl.Providers
