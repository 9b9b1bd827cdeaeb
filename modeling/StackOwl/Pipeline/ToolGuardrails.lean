import StackOwl.Lib.Dict
import StackOwl.Lib.JsonTight
import StackOwl.Lib.Sha256

/-!
# Tool-loop guardrails

The controller that watches the calls of one turn and warns of a loop: the same read with the
same result, the same call again, the same call failing again, the same tool failing again
(`pipeline/tool_guardrails.py`).  It keeps counters; what they are worth is read off the calls of
the turn, newest first.

What `repr(sorted(args))` gives is a parameter, `reprSorted`; it is `none` where the keys cannot
be ordered.

## Main results

* `Counts.step` — a call keeps the counters equal to the streaks of the turn.
* `args_eq_of_signature_eq` — one signature, one tool and equal arguments, unless the hash
  collides.
* `guardrails_report` — each warning is given exactly where its streak is long enough and no
  more specific one is.
-/

namespace StackOwl.Pipeline

open Lib List Bool

/-! ## Signatures -/

/-- What a call of the controller raises. -/
inductive GuardrailError where
  | typeError
  | unicodeEncodeError
  deriving DecidableEq

/-- `_sha256`. -/
def sha256Short (text : Text) : Except GuardrailError String :=
  match text.string? with
  | some s => .ok (String.ofList ((sha256Hex s).toList.take 16))
  | none => .error .unicodeEncodeError

structure ToolCallSignature where
  toolName : Text
  argsHash : String
  deriving DecidableEq

section

variable (rounds : FloatLiteral → ℚ) (digits : Nat) (reprSorted : List PyKey → Option Text)

/-- `canonical_tool_args`; a mapping is a dictionary. -/
def canonicalToolArgs (args : PyValue) : Except GuardrailError Text :=
  match args with
  | .dict items =>
    match args.toJson rounds digits with
    | .ok tree => .ok tree.printTight
    | .error _ =>
      match reprSorted (items.map Prod.fst) with
      | some text => .ok text
      | none => .error .typeError
  | _ => .ok (Text.ofString "{}")

def fromCall (toolName : Text) (args : PyValue) : Except GuardrailError ToolCallSignature :=
  match canonicalToolArgs rounds digits reprSorted args with
  | .error e => .error e
  | .ok text =>
    match sha256Short text with
    | .error e => .error e
    | .ok argsHash => .ok ⟨toolName, argsHash⟩

end

/-! ## Decisions -/

inductive GuardrailAction where
  | allow
  | warn

inductive GuardrailCode where
  | allow
  | idempotentNoProgress
  | repeatedExactCall
  | repeatedExactFailure
  | sameToolFailure

def GuardrailCode.text : GuardrailCode → String
  | .allow => "allow"
  | .idempotentNoProgress => "idempotent_no_progress_warning"
  | .repeatedExactCall => "repeated_exact_call_warning"
  | .repeatedExactFailure => "repeated_exact_failure_warning"
  | .sameToolFailure => "same_tool_failure_warning"

def GuardrailCode.message (tool : Text) (count : Nat) : GuardrailCode → Text
  | .allow => []
  | .idempotentNoProgress =>
    tool ++ Text.ofString (" returned the same result " ++ toString count ++ " times. Use the " ++
      "result already provided or change the query.")
  | .repeatedExactCall =>
    tool ++ Text.ofString (" has been called " ++ toString count ++ " times with identical " ++
      "arguments. Use the result you already have, or change the arguments.")
  | .repeatedExactFailure =>
    tool ++ Text.ofString (" has failed " ++ toString count ++ " times with identical " ++
      "arguments. Inspect the error and change strategy instead of retrying unchanged.")
  | .sameToolFailure =>
    tool ++ Text.ofString (" has failed " ++ toString count ++ " times this turn with " ++
      "different arguments. Consider a different tool or approach.")

structure ToolGuardrailDecision where
  action : GuardrailAction := .allow
  code : GuardrailCode := .allow
  message : Text := []
  toolName : Text := []
  count : Nat := 0
  signature : Option ToolCallSignature := none

def warn (code : GuardrailCode) (tool : Text) (count : Nat) (sig : ToolCallSignature) :
    ToolGuardrailDecision where
  action := .warn
  code := code
  message := code.message tool count
  toolName := tool
  count := count
  signature := some sig

/-! ## The controller -/

structure ToolCallGuardrailConfig where
  warningsEnabled : Bool := true
  exactRepeatWarnAfter : Int := 2
  sameToolFailureWarnAfter : Int := 3
  noProgressWarnAfter : Int := 2

structure ToolCallGuardrailController where
  config : ToolCallGuardrailConfig
  exactFailureCounts : Dict ToolCallSignature Nat
  sameToolFailureCounts : Dict Text Nat
  noProgress : Dict ToolCallSignature (String × Nat)
  exactRepeats : Dict ToolCallSignature Nat

/-- `__init__`, which calls `reset_for_turn`. -/
def ToolCallGuardrailController.new (config : ToolCallGuardrailConfig) :
    ToolCallGuardrailController :=
  ⟨config, .empty, .empty, .empty, .empty⟩

/-- The arguments of `after_call`. -/
structure ToolCall where
  toolName : Text
  args : PyValue
  result : Option Text
  failed : Bool
  idempotent : Bool

def ToolCall.resultHash (c : ToolCall) : Except GuardrailError String :=
  sha256Short (c.result.getD [])

def ToolCallGuardrailController.recordFailure (g : ToolCallGuardrailController)
    (toolName : Text) (signature : ToolCallSignature) :
    ToolCallGuardrailController × ToolGuardrailDecision :=
  let exact := g.exactFailureCounts.count signature + 1
  let same := g.sameToolFailureCounts.count toolName + 1
  let g' :=
    { g with
      exactFailureCounts := g.exactFailureCounts.set signature exact
      noProgress := g.noProgress.erase signature
      exactRepeats := g.exactRepeats.erase signature
      sameToolFailureCounts := g.sameToolFailureCounts.set toolName same }
  (g',
    if g.config.warningsEnabled ∧ g.config.exactRepeatWarnAfter ≤ exact then
      warn .repeatedExactFailure toolName exact signature
    else if g.config.warningsEnabled ∧ g.config.sameToolFailureWarnAfter ≤ same then
      warn .sameToolFailure toolName same signature
    else { toolName := toolName, count := exact, signature := some signature })

def ToolCallGuardrailConfig.decide (config : ToolCallGuardrailConfig) (toolName : Text)
    (noProgress repeats : Nat) (signature : ToolCallSignature) : ToolGuardrailDecision :=
  if config.warningsEnabled = false then
    { toolName := toolName, count := repeats, signature := some signature }
  else if config.noProgressWarnAfter ≤ noProgress then
    warn .idempotentNoProgress toolName noProgress signature
  else if config.exactRepeatWarnAfter ≤ repeats then
    warn .repeatedExactCall toolName repeats signature
  else { toolName := toolName, count := repeats, signature := some signature }

/-- How often the read has had this result, if the last call of it had `previous`. -/
def nextNoProgress (previous : Option (String × Nat)) (resultHash : String) : Nat :=
  match previous with
  | some (hash, n) => if hash = resultHash then n + 1 else 1
  | none => 1

/-- `after_call` behind the signature, for a call that succeeded. -/
def ToolCallGuardrailController.recordSuccess (g : ToolCallGuardrailController) (c : ToolCall)
    (signature : ToolCallSignature) :
    ToolCallGuardrailController × Except GuardrailError ToolGuardrailDecision :=
  let repeats := g.exactRepeats.count signature + 1
  let g' :=
    { g with
      exactFailureCounts := g.exactFailureCounts.erase signature
      sameToolFailureCounts := g.sameToolFailureCounts.erase c.toolName
      exactRepeats := g.exactRepeats.set signature repeats }
  if c.idempotent then
    match c.resultHash with
    | .error e => (g', .error e)
    | .ok hash =>
      let n := nextNoProgress (g.noProgress.get? signature) hash
      ({ g' with noProgress := g.noProgress.set signature (hash, n) },
        .ok (g.config.decide c.toolName n repeats signature))
  else
    ({ g' with noProgress := g.noProgress.erase signature },
      .ok (g.config.decide c.toolName 0 repeats signature))

section

variable (rounds : FloatLiteral → ℚ) (digits : Nat) (reprSorted : List PyKey → Option Text)

def ToolCallGuardrailController.afterCall (g : ToolCallGuardrailController) (c : ToolCall) :
    ToolCallGuardrailController × Except GuardrailError ToolGuardrailDecision :=
  match fromCall rounds digits reprSorted c.toolName c.args with
  | .error e => (g, .error e)
  | .ok signature =>
    if c.failed then
      let recorded := g.recordFailure c.toolName signature
      (recorded.1, .ok recorded.2)
    else g.recordSuccess c signature

/-- The controller after the calls of a turn; the newest call comes first. -/
def afterCalls (config : ToolCallGuardrailConfig) : List ToolCall → ToolCallGuardrailController
  | [] => .new config
  | c :: past => ((afterCalls config past).afterCall rounds digits reprSorted c).1

/-! ## The calls of a turn -/

/-- How many of the newest calls are good, up to the first that is not. -/
def streak (good : ToolCall → Bool) (calls : List ToolCall) : Nat := (calls.takeWhile good).length

@[simp] theorem streak_cons (good : ToolCall → Bool) (c : ToolCall) (calls : List ToolCall) :
    streak good (c :: calls) = if good c then streak good calls + 1 else 0 := by
  rw [streak, takeWhile_cons]
  cases good c <;> rfl

def ofSignature (s : ToolCallSignature) (past : List ToolCall) : List ToolCall :=
  past.filter fun c => fromCall rounds digits reprSorted c.toolName c.args = .ok s

def ofTool (tool : Text) (past : List ToolCall) : List ToolCall :=
  past.filter fun c => c.toolName = tool

def readWith (hash : String) (c : ToolCall) : Bool :=
  !c.failed && c.idempotent && c.resultHash = .ok hash

def noProgressEntry : List ToolCall → Option (String × Nat)
  | [] => none
  | c :: calls =>
    if c.failed = false ∧ c.idempotent = true then
      match c.resultHash with
      | .ok hash => some (hash, streak (readWith hash) (c :: calls))
      | .error _ => none
    else none

structure Counts (past : List ToolCall) (g : ToolCallGuardrailController) : Prop where
  exactFailures : ∀ s, g.exactFailureCounts.count s =
    streak (·.failed) (ofSignature rounds digits reprSorted s past)
  toolFailures : ∀ tool, g.sameToolFailureCounts.count tool =
    streak (·.failed) (ofTool tool past)
  exactRepeats : ∀ s, g.exactRepeats.count s =
    streak (!·.failed) (ofSignature rounds digits reprSorted s past)
  noProgress : ∀ s, g.noProgress.get? s =
    noProgressEntry (ofSignature rounds digits reprSorted s past)

variable {rounds digits reprSorted} {c : ToolCall}

theorem ofSignature_cons {signature : ToolCallSignature}
    (h : fromCall rounds digits reprSorted c.toolName c.args = .ok signature)
    (s : ToolCallSignature) (past : List ToolCall) :
    ofSignature rounds digits reprSorted s (c :: past) =
      if s = signature then c :: ofSignature rounds digits reprSorted s past
      else ofSignature rounds digits reprSorted s past := by
  rw [ofSignature, filter_cons, h]
  by_cases hs : s = signature
  · rw [if_pos hs, if_pos (decide_eq_true (congrArg Except.ok hs.symm))]
    rfl
  · rw [if_neg hs, if_neg (by simpa using Ne.symm hs)]
    rfl

theorem ofTool_cons (c : ToolCall) (tool : Text) (past : List ToolCall) :
    ofTool tool (c :: past) =
      if tool = c.toolName then c :: ofTool tool past else ofTool tool past := by
  rw [ofTool, filter_cons]
  by_cases hTool : tool = c.toolName
  · rw [if_pos hTool, if_pos (decide_eq_true hTool.symm)]
    rfl
  · rw [if_neg hTool, if_neg (by simpa using Ne.symm hTool)]
    rfl

theorem nextNoProgress_eq {hash : String} (hFailed : c.failed = false)
    (hRead : c.idempotent = true) (hHash : c.resultHash = .ok hash) (calls : List ToolCall) :
    nextNoProgress (noProgressEntry calls) hash = streak (readWith hash) (c :: calls) := by
  have hGood : readWith hash c = true := by simp [readWith, hFailed, hRead, hHash]
  rw [streak_cons, if_pos hGood]
  cases calls with
  | nil => rfl
  | cons d calls =>
    rw [noProgressEntry]
    split
    · next hLast =>
        cases hLastHash : d.resultHash with
        | error e =>
          have hOther : readWith hash d = false := by simp [readWith, hLastHash]
          simp [nextNoProgress, hOther]
        | ok last =>
          show (if last = hash then _ else _) = _
          by_cases hSame : last = hash
          · rw [if_pos hSame, hSame]
          · have hOther : readWith hash d = false := by simp [readWith, hLastHash, hSame]
            rw [if_neg hSame, streak_cons, hOther]
            rfl
    · next hLast =>
        have hOther : readWith hash d = false := by
          rw [eq_false_iff]
          intro hGoodD
          simp only [readWith, and_eq_true, not_eq_true'] at hGoodD
          exact hLast hGoodD.1
        simp [nextNoProgress, hOther]

variable {past : List ToolCall} {g : ToolCallGuardrailController}

section

variable {signature : ToolCallSignature} (h : Counts rounds digits reprSorted past g)
  (hSignature : fromCall rounds digits reprSorted c.toolName c.args = .ok signature)

include h hSignature

theorem Counts.recordFailure (hFailed : c.failed = true) :
    Counts rounds digits reprSorted (c :: past) (g.recordFailure c.toolName signature).1 where
  exactFailures s := by
    rw [ofSignature_cons hSignature]
    show (g.exactFailureCounts.set signature _).count s = _
    rw [Dict.count_set, h.exactFailures, h.exactFailures]
    split
    · next hs => rw [streak_cons, if_pos hFailed, hs]
    · rfl
  toolFailures tool := by
    rw [ofTool_cons]
    show (g.sameToolFailureCounts.set c.toolName _).count tool = _
    rw [Dict.count_set, h.toolFailures, h.toolFailures]
    split
    · next hTool => rw [streak_cons, if_pos hFailed, hTool]
    · rfl
  exactRepeats s := by
    rw [ofSignature_cons hSignature]
    show (g.exactRepeats.erase signature).count s = _
    rw [Dict.count_erase, h.exactRepeats]
    split
    · rw [streak_cons, hFailed]
      rfl
    · rfl
  noProgress s := by
    rw [ofSignature_cons hSignature]
    show (g.noProgress.erase signature).get? s = _
    rw [Dict.get?_erase, h.noProgress]
    split
    · rw [noProgressEntry, if_neg (by simp [hFailed])]
    · rfl

/-- The counters stay equal to the streaks when a call succeeds. -/
theorem Counts.recordSuccess (hFailed : c.failed = false)
    (hResult : c.idempotent = true → ∃ hash, c.resultHash = .ok hash) :
    Counts rounds digits reprSorted (c :: past) (g.recordSuccess c signature).1 := by
  have hKept : (g.recordSuccess c signature).1.exactFailureCounts =
        g.exactFailureCounts.erase signature ∧
      (g.recordSuccess c signature).1.sameToolFailureCounts =
        g.sameToolFailureCounts.erase c.toolName ∧
      (g.recordSuccess c signature).1.exactRepeats =
        g.exactRepeats.set signature (g.exactRepeats.count signature + 1) := by
    rw [ToolCallGuardrailController.recordSuccess]
    split
    · split <;> exact ⟨rfl, rfl, rfl⟩
    · exact ⟨rfl, rfl, rfl⟩
  obtain ⟨hExact, hTool, hRepeats⟩ := hKept
  exact
    { exactFailures := fun s => by
        rw [hExact, ofSignature_cons hSignature, Dict.count_erase, h.exactFailures]
        split
        · rw [streak_cons, hFailed]
          rfl
        · rfl
      toolFailures := fun tool => by
        rw [hTool, ofTool_cons, Dict.count_erase, h.toolFailures]
        split
        · rw [streak_cons, hFailed]
          rfl
        · rfl
      exactRepeats := fun s => by
        rw [hRepeats, ofSignature_cons hSignature, Dict.count_set, h.exactRepeats,
          h.exactRepeats]
        split
        · next hs => rw [streak_cons, hFailed, hs]; rfl
        · rfl
      noProgress := fun s => by
        rw [ofSignature_cons hSignature, ToolCallGuardrailController.recordSuccess]
        cases hRead : c.idempotent with
        | false =>
          show (g.noProgress.erase signature).get? s = _
          rw [Dict.get?_erase, h.noProgress]
          split
          · rw [noProgressEntry, if_neg (by simp [hRead])]
          · rfl
        | true =>
          obtain ⟨hash, hHash⟩ := hResult hRead
          rw [hHash]
          show (g.noProgress.set signature (hash, _)).get? s = _
          rw [Dict.get?_set, h.noProgress, h.noProgress,
            nextNoProgress_eq hFailed hRead hHash]
          split
          · next hs => rw [noProgressEntry, if_pos ⟨hFailed, hRead⟩, hHash, hs]
          · rfl }

end

theorem Counts.new (config : ToolCallGuardrailConfig) :
    Counts rounds digits reprSorted [] (.new config) where
  exactFailures _ := rfl
  toolFailures _ := rfl
  exactRepeats _ := rfl
  noProgress _ := rfl

variable (rounds digits reprSorted) in
/-- No text that is hashed for the call has a lone surrogate. -/
structure Hashable (c : ToolCall) : Prop where
  args : ∃ text, canonicalToolArgs rounds digits reprSorted c.args = .ok text ∧ text.Scalar
  result : c.failed = false → c.idempotent = true → (c.result.getD []).Scalar

theorem sha256Short_of_scalar {text : Text} (h : text.Scalar) :
    ∃ hash, sha256Short text = .ok hash := by
  obtain ⟨s, hs⟩ := (Text.scalar_iff text).mp h
  refine ⟨String.ofList ((sha256Hex s).toList.take 16), ?_⟩
  rw [sha256Short, hs]

theorem Hashable.signature (h : Hashable rounds digits reprSorted c) :
    ∃ text hash, canonicalToolArgs rounds digits reprSorted c.args = .ok text ∧
      sha256Short text = .ok hash ∧
      fromCall rounds digits reprSorted c.toolName c.args = .ok ⟨c.toolName, hash⟩ := by
  obtain ⟨text, hText, hScalar⟩ := h.args
  obtain ⟨hash, hHash⟩ := sha256Short_of_scalar hScalar
  refine ⟨text, hash, hText, hHash, ?_⟩
  simp only [fromCall, hText, hHash]

/-- **One call.** -/
theorem Counts.step (h : Counts rounds digits reprSorted past g)
    (hHashable : Hashable rounds digits reprSorted c) :
    Counts rounds digits reprSorted (c :: past) (g.afterCall rounds digits reprSorted c).1 := by
  obtain ⟨text, hash, -, -, hSignature⟩ := hHashable.signature
  rw [ToolCallGuardrailController.afterCall, hSignature]
  cases hFailed : c.failed with
  | true => exact h.recordFailure hSignature hFailed
  | false =>
    exact h.recordSuccess hSignature hFailed fun hRead =>
      sha256Short_of_scalar (hHashable.result hFailed hRead)

/-- **The whole turn.** -/
theorem counts_afterCalls (config : ToolCallGuardrailConfig)
    (h : ∀ c ∈ past, Hashable rounds digits reprSorted c) :
    Counts rounds digits reprSorted past (afterCalls rounds digits reprSorted config past) := by
  induction past with
  | nil => exact Counts.new config
  | cons c past ih =>
    rw [forall_mem_cons] at h
    exact (ih h.2).step h.1

theorem config_afterCall (g : ToolCallGuardrailController) (c : ToolCall) :
    (g.afterCall rounds digits reprSorted c).1.config = g.config := by
  rw [ToolCallGuardrailController.afterCall]
  split
  · rfl
  · split
    · rfl
    · rw [ToolCallGuardrailController.recordSuccess]
      split
      · split <;> rfl
      · rfl

theorem config_afterCalls (config : ToolCallGuardrailConfig) (past : List ToolCall) :
    (afterCalls rounds digits reprSorted config past).config = config := by
  induction past with
  | nil => rfl
  | cons c past ih => exact (config_afterCall _ c).trans ih

/-! ## The same call -/

variable (rounds digits reprSorted)

/-- The calls of the same tool with the same arguments. -/
def ofCall (c : ToolCall) (calls : List ToolCall) : List ToolCall :=
  calls.filter fun d => d.toolName = c.toolName ∧
    canonicalToolArgs rounds digits reprSorted d.args =
      canonicalToolArgs rounds digits reprSorted c.args

def sameRead (c d : ToolCall) : Bool :=
  !d.failed && d.idempotent && d.result.getD [] = c.result.getD []

/-- No two different texts among those hashed have one hash. -/
structure Apart (calls : List ToolCall) : Prop where
  args : ∀ c ∈ calls, ∀ d ∈ calls, ∀ s t,
    canonicalToolArgs rounds digits reprSorted c.args = .ok s →
    canonicalToolArgs rounds digits reprSorted d.args = .ok t →
    sha256Short s = sha256Short t → s = t
  results : ∀ c ∈ calls, ∀ d ∈ calls, c.failed = false → c.idempotent = true →
    d.failed = false → d.idempotent = true → c.resultHash = d.resultHash →
    c.result.getD [] = d.result.getD []

/-- The decision on the newest call: a warning exactly where its streak is long enough and that
of no more specific one is. -/
structure Reports (config : ToolCallGuardrailConfig) (c : ToolCall) (calls : List ToolCall)
    (d : ToolGuardrailDecision) : Prop where
  exactFailure : c.failed = true → (d.code = .repeatedExactFailure ↔
    config.warningsEnabled = true ∧ config.exactRepeatWarnAfter ≤
      streak (·.failed) (ofCall rounds digits reprSorted c calls))
  sameToolFailure : c.failed = true → (d.code = .sameToolFailure ↔
    config.warningsEnabled = true ∧
      config.sameToolFailureWarnAfter ≤ streak (·.failed) (ofTool c.toolName calls) ∧
      ¬ config.exactRepeatWarnAfter ≤
        streak (·.failed) (ofCall rounds digits reprSorted c calls))
  noProgress : c.failed = false → (d.code = .idempotentNoProgress ↔
    config.warningsEnabled = true ∧ config.noProgressWarnAfter ≤
      streak (sameRead c) (ofCall rounds digits reprSorted c calls))
  exactCall : c.failed = false → (d.code = .repeatedExactCall ↔
    config.warningsEnabled = true ∧
      config.exactRepeatWarnAfter ≤
        streak (!·.failed) (ofCall rounds digits reprSorted c calls) ∧
      ¬ config.noProgressWarnAfter ≤
        streak (sameRead c) (ofCall rounds digits reprSorted c calls))
  failures : d.code = .repeatedExactFailure ∨ d.code = .sameToolFailure → c.failed = true
  successes : d.code = .idempotentNoProgress ∨ d.code = .repeatedExactCall → c.failed = false
  action : d.action = .warn ↔ d.code ≠ .allow

variable {rounds digits reprSorted} {calls : List ToolCall}

theorem streak_congr {p q : ToolCall → Bool} (h : ∀ c ∈ calls, p c = q c) :
    streak p calls = streak q calls := by
  induction calls with
  | nil => rfl
  | cons c calls ih =>
    rw [forall_mem_cons] at h
    rw [streak_cons, streak_cons, h.1, ih h.2]

theorem ofSignature_eq_ofCall {s : ToolCallSignature}
    (hHashable : ∀ d ∈ calls, Hashable rounds digits reprSorted d)
    (hApart : Apart rounds digits reprSorted calls) (hc : c ∈ calls)
    (hSignature : fromCall rounds digits reprSorted c.toolName c.args = .ok s) :
    ofSignature rounds digits reprSorted s calls = ofCall rounds digits reprSorted c calls := by
  obtain ⟨text, hash, hText, hHash, hOwn⟩ := (hHashable c hc).signature
  rw [hOwn] at hSignature
  cases hSignature
  apply filter_congr
  intro d hd
  obtain ⟨text', hash', hText', hHash', hOther⟩ := (hHashable d hd).signature
  rw [hOther, hText, hText', decide_eq_decide, Except.ok.injEq, Except.ok.injEq,
    ToolCallSignature.mk.injEq]
  constructor
  · rintro ⟨hTool, rfl⟩
    exact ⟨hTool, hApart.args d hd c hc text' text hText' hText (hHash'.trans hHash.symm)⟩
  · rintro ⟨hTool, rfl⟩
    rw [hHash] at hHash'
    exact ⟨hTool, (Except.ok.inj hHash').symm⟩

theorem streak_readWith {hash : String} (hApart : Apart rounds digits reprSorted calls)
    (hc : c ∈ calls) (hFailed : c.failed = false) (hRead : c.idempotent = true)
    (hHash : c.resultHash = .ok hash) :
    streak (readWith hash) (ofCall rounds digits reprSorted c calls) =
      streak (sameRead c) (ofCall rounds digits reprSorted c calls) := by
  apply streak_congr
  intro d hd
  have hMem : d ∈ calls := (mem_filter.mp hd).1
  rw [readWith, sameRead]
  cases hFailedD : d.failed with
  | true => rfl
  | false =>
    cases hReadD : d.idempotent with
    | false => rfl
    | true =>
      show decide _ = decide _
      rw [decide_eq_decide]
      constructor
      · intro hHashD
        exact hApart.results d hMem c hc hFailedD hReadD hFailed hRead
          (hHashD.trans hHash.symm)
      · intro hResult
        rw [← hHash, ToolCall.resultHash, ToolCall.resultHash, hResult]

theorem ofCall_cons_self (c : ToolCall) (past : List ToolCall) :
    ofCall rounds digits reprSorted c (c :: past) =
      c :: ofCall rounds digits reprSorted c past :=
  filter_cons_of_pos (by simp)

theorem streak_sameRead_of_write (hWrite : c.idempotent = false) :
    streak (sameRead c) (ofCall rounds digits reprSorted c (c :: past)) = 0 := by
  rw [ofCall_cons_self, streak_cons, sameRead, hWrite, Bool.and_false, Bool.false_and]
  rfl

/-! ## What is reported -/

theorem reports_recordFailure {signature : ToolCallSignature} (hFailed : c.failed = true)
    (hExact : g.exactFailureCounts.count signature + 1 =
      streak (·.failed) (ofCall rounds digits reprSorted c (c :: past)))
    (hTool : g.sameToolFailureCounts.count c.toolName + 1 =
      streak (·.failed) (ofTool c.toolName (c :: past))) :
    Reports rounds digits reprSorted g.config c (c :: past)
      (g.recordFailure c.toolName signature).2 := by
  have hNot : ¬ c.failed = false := by simp [hFailed]
  rw [ToolCallGuardrailController.recordFailure]
  dsimp only
  rw [hExact, hTool]
  split
  · next hWarn =>
      constructor <;> simp [warn, hFailed, hWarn]
  · next hQuiet =>
      split
      · next hWarn =>
          have hShort : ¬ g.config.exactRepeatWarnAfter ≤
              streak (·.failed) (ofCall rounds digits reprSorted c (c :: past)) :=
            fun h => hQuiet ⟨hWarn.1, h⟩
          constructor <;> simp [warn, hFailed, hWarn, hShort]
      · next hSilent =>
          have hShort : ¬ (g.config.warningsEnabled = true ∧
              g.config.sameToolFailureWarnAfter ≤
                streak (·.failed) (ofTool c.toolName (c :: past)) ∧
              ¬ g.config.exactRepeatWarnAfter ≤
                streak (·.failed) (ofCall rounds digits reprSorted c (c :: past))) :=
            fun h => hSilent ⟨h.1, h.2.1⟩
          exact
            { exactFailure := fun _ => iff_of_false (by simp) hQuiet
              sameToolFailure := fun _ => iff_of_false (by simp) hShort
              noProgress := fun h => absurd h hNot
              exactCall := fun h => absurd h hNot
              failures := by simp
              successes := by simp
              action := by simp }

theorem reports_decide {config : ToolCallGuardrailConfig} {signature : ToolCallSignature}
    {n repeats : Nat} (hFailed : c.failed = false)
    (hReads : n = streak (sameRead c) (ofCall rounds digits reprSorted c (c :: past)))
    (hRepeats : repeats = streak (!·.failed) (ofCall rounds digits reprSorted c (c :: past))) :
    Reports rounds digits reprSorted config c (c :: past)
      (config.decide c.toolName n repeats signature) := by
  have hNot : ¬ c.failed = true := by simp [hFailed]
  rw [ToolCallGuardrailConfig.decide, hReads, hRepeats]
  split
  · next hDisabled =>
      constructor <;> simp [hFailed, hDisabled]
  · next hEnabled =>
      rw [not_eq_false] at hEnabled
      split
      · next hWarn =>
          constructor <;> simp [warn, hFailed, hEnabled, hWarn]
      · next hQuiet =>
          split
          · next hWarn =>
              constructor <;> simp [warn, hFailed, hEnabled, hWarn, hQuiet]
          · next hSilent =>
              constructor <;> simp [hFailed, hEnabled, hQuiet, hSilent]

/-- **The decision.** -/
theorem Counts.reports (h : Counts rounds digits reprSorted past g)
    (hHashable : ∀ d ∈ c :: past, Hashable rounds digits reprSorted d)
    (hApart : Apart rounds digits reprSorted (c :: past)) :
    ∃ decision, (g.afterCall rounds digits reprSorted c).2 = .ok decision ∧
      Reports rounds digits reprSorted g.config c (c :: past) decision := by
  obtain ⟨text, hash, -, -, hSignature⟩ := (hHashable c mem_cons_self).signature
  generalize (⟨c.toolName, hash⟩ : ToolCallSignature) = signature at hSignature
  have hCalls : ofSignature rounds digits reprSorted signature (c :: past) =
      ofCall rounds digits reprSorted c (c :: past) :=
    ofSignature_eq_ofCall hHashable hApart mem_cons_self hSignature
  have hOwn : ofSignature rounds digits reprSorted signature past =
      ofCall rounds digits reprSorted c past := by
    rw [ofSignature_cons hSignature, if_pos rfl, ofCall_cons_self] at hCalls
    exact (cons.inj hCalls).2
  have hToolOwn : ofTool c.toolName (c :: past) = c :: ofTool c.toolName past := by
    rw [ofTool_cons, if_pos rfl]
  rw [ToolCallGuardrailController.afterCall, hSignature]
  cases hFailed : c.failed with
  | true =>
    refine ⟨_, rfl, reports_recordFailure hFailed ?_ ?_⟩
    · rw [h.exactFailures, hOwn, ofCall_cons_self, streak_cons, if_pos hFailed]
    · rw [h.toolFailures, hToolOwn, streak_cons, if_pos hFailed]
  | false =>
    have hRepeats : g.exactRepeats.count signature + 1 =
        streak (!·.failed) (ofCall rounds digits reprSorted c (c :: past)) := by
      rw [h.exactRepeats, hOwn, ofCall_cons_self, streak_cons, hFailed]
      rfl
    show ∃ decision, (g.recordSuccess c signature).2 = .ok decision ∧ _
    rw [ToolCallGuardrailController.recordSuccess]
    cases hRead : c.idempotent with
    | false =>
      refine ⟨_, rfl, reports_decide hFailed ?_ hRepeats⟩
      exact (streak_sameRead_of_write hRead).symm
    | true =>
      obtain ⟨hash, hHash⟩ :=
        sha256Short_of_scalar ((hHashable c mem_cons_self).result hFailed hRead)
      have hResult : c.resultHash = .ok hash := hHash
      rw [hResult]
      refine ⟨_, rfl, reports_decide hFailed ?_ hRepeats⟩
      rw [h.noProgress, nextNoProgress_eq hFailed hRead hResult, hOwn, ← ofCall_cons_self]
      exact streak_readWith hApart mem_cons_self hFailed hRead hResult

variable (rounds digits) in
/-- A dictionary as JSON has them: its keys are strings, each once, and it can be written. -/
structure JsonLike (args : PyValue) : Prop where
  mapping : ∃ items, args = .dict items
  plain : args.plain = true
  proper : args.proper = true
  written : ∃ tree, args.toJson rounds digits = .ok tree

theorem JsonLike.canonical {args : PyValue} (h : JsonLike rounds digits args) :
    ∃ tree, args.toJson rounds digits = .ok tree ∧ tree.fits digits = true ∧
      canonicalToolArgs rounds digits reprSorted args = .ok tree.printTight := by
  obtain ⟨items, rfl⟩ := h.mapping
  obtain ⟨tree, hTree⟩ := h.written
  refine ⟨tree, hTree, fits_toJson rounds digits _ tree hTree, ?_⟩
  simp only [canonicalToolArgs, hTree]

theorem args_eq_of_canonical_eq {a b : PyValue} (ha : JsonLike rounds digits a)
    (hb : JsonLike rounds digits b)
    (h : canonicalToolArgs rounds digits reprSorted a =
      canonicalToolArgs rounds digits reprSorted b) : a.eq rounds b = true := by
  obtain ⟨tree, hTree, hFits, hText⟩ := @JsonLike.canonical rounds digits reprSorted _ ha
  obtain ⟨tree', hTree', hFits', hText'⟩ := @JsonLike.canonical rounds digits reprSorted _ hb
  rw [hText, hText', Except.ok.injEq] at h
  have hSame : tree = tree' := printTight_inj hFits hFits' h
  subst hSame
  exact eq_of_toJson rounds digits a b tree ha.plain hb.plain hb.proper hTree hTree'

/-- **One signature, one call.** -/
theorem same_call_of_signature_eq {a b : ToolCall}
    (hHashable : ∀ d ∈ calls, Hashable rounds digits reprSorted d)
    (hApart : Apart rounds digits reprSorted calls) (hMemA : a ∈ calls) (hMemB : b ∈ calls)
    (ha : JsonLike rounds digits a.args) (hb : JsonLike rounds digits b.args)
    (h : fromCall rounds digits reprSorted a.toolName a.args =
      fromCall rounds digits reprSorted b.toolName b.args) :
    a.toolName = b.toolName ∧ a.args.eq rounds b.args = true := by
  obtain ⟨text, hash, hText, hHash, hOwn⟩ := (hHashable a hMemA).signature
  obtain ⟨text', hash', hText', hHash', hOther⟩ := (hHashable b hMemB).signature
  rw [hOwn, hOther, Except.ok.injEq, ToolCallSignature.mk.injEq] at h
  have hTexts : text = text' := hApart.args a hMemA b hMemB text text' hText hText' (by
    rw [hHash, hHash', h.2])
  have hCanonical : canonicalToolArgs rounds digits reprSorted a.args =
      canonicalToolArgs rounds digits reprSorted b.args := by
    rw [hText, hText', hTexts]
  exact ⟨h.1, args_eq_of_canonical_eq ha hb hCanonical⟩

variable (rounds digits reprSorted) in
/-- **Guardrails.**  In a turn whose texts have no lone surrogate and no two hashes of which
collide, the newest call raises nothing and each warning is given exactly where its streak is
long enough and that of no more specific one is; two calls of one signature have the same tool
and equal arguments. -/
theorem guardrails_report (config : ToolCallGuardrailConfig) (past : List ToolCall)
    (c : ToolCall) (hHashable : ∀ d ∈ c :: past, Hashable rounds digits reprSorted d)
    (hApart : Apart rounds digits reprSorted (c :: past)) :
    (∃ decision,
      ((afterCalls rounds digits reprSorted config past).afterCall rounds digits
        reprSorted c).2 = .ok decision ∧
      Reports rounds digits reprSorted config c (c :: past) decision) ∧
    ∀ a ∈ c :: past, ∀ b ∈ c :: past, JsonLike rounds digits a.args →
      JsonLike rounds digits b.args →
      fromCall rounds digits reprSorted a.toolName a.args =
        fromCall rounds digits reprSorted b.toolName b.args →
      a.toolName = b.toolName ∧ a.args.eq rounds b.args = true := by
  refine ⟨?_, fun a ha b hb hA hB h => same_call_of_signature_eq hHashable hApart ha hb hA hB h⟩
  have hCounts := counts_afterCalls config fun d hd => hHashable d (mem_cons_of_mem c hd)
  have hReports := hCounts.reports hHashable hApart
  rw [config_afterCalls] at hReports
  exact hReports

end

/-! ## One call that fails three times -/

/-- `bash` with one argument, which fails. -/
def failingCall : ToolCall where
  toolName := Text.ofString "bash"
  args := .dict [(.str (Text.ofString "command"), .str (Text.ofString "make"))]
  result := some (Text.ofString "no rule")
  failed := true
  idempotent := false

theorem hashable_failingCall :
    ∀ c ∈ [failingCall, failingCall, failingCall],
      Hashable (fun _ => 0) 4300 (fun _ => some []) c := by
  intro c hc
  obtain rfl : c = failingCall := by simpa using hc
  exact ⟨⟨_, rfl, (Text.scalar_iff _).mpr ⟨_, rfl⟩⟩, fun h => absurd h (by decide)⟩

theorem apart_failingCall :
    Apart (fun _ => 0) 4300 (fun _ => some []) [failingCall, failingCall, failingCall] := by
  have hOnly : ∀ c ∈ [failingCall, failingCall, failingCall], c = failingCall := by
    intro c hc
    simpa using hc
  constructor
  · intro c hc d hd s t hs ht _
    rw [hOnly c hc] at hs
    rw [hOnly d hd, hs] at ht
    exact Except.ok.inj ht
  · intro c hc d hd _ _ _ _ _
    rw [hOnly c hc, hOnly d hd]

theorem guardrails_report_failingCall :
    (∃ decision,
      ((afterCalls (fun _ => 0) 4300 (fun _ => some []) ⟨true, 2, 3, 2⟩
        [failingCall, failingCall]).afterCall (fun _ => 0) 4300 (fun _ => some [])
          failingCall).2 = .ok decision ∧
      Reports (fun _ => 0) 4300 (fun _ => some []) ⟨true, 2, 3, 2⟩ failingCall
        [failingCall, failingCall, failingCall] decision) ∧
    ∀ a ∈ [failingCall, failingCall, failingCall],
    ∀ b ∈ [failingCall, failingCall, failingCall],
      JsonLike (fun _ => 0) 4300 a.args → JsonLike (fun _ => 0) 4300 b.args →
      fromCall (fun _ => 0) 4300 (fun _ => some []) a.toolName a.args =
        fromCall (fun _ => 0) 4300 (fun _ => some []) b.toolName b.args →
      a.toolName = b.toolName ∧ a.args.eq (fun _ => 0) b.args = true :=
  guardrails_report (fun _ => 0) 4300 (fun _ => some []) ⟨true, 2, 3, 2⟩
    [failingCall, failingCall] failingCall hashable_failingCall apart_failingCall

/-- **The failures of the call hide those of the tool.**  And a call without arguments has the
signature of one with an empty dictionary. -/
theorem exact_failure_hides_tool :
    (∃ decision,
      ((afterCalls (fun _ => 0) 4300 (fun _ => some []) ⟨true, 2, 3, 2⟩
        [failingCall, failingCall]).afterCall (fun _ => 0) 4300 (fun _ => some [])
          failingCall).2 = .ok decision ∧
      decision.code = .repeatedExactFailure ∧
      3 ≤ streak (·.failed) (ofTool failingCall.toolName [failingCall, failingCall, failingCall])) ∧
    fromCall (fun _ => 0) 4300 (fun _ => some []) failingCall.toolName .none =
      fromCall (fun _ => 0) 4300 (fun _ => some []) failingCall.toolName (.dict []) ∧
    PyValue.none.eq (fun _ => 0) (.dict []) = false := by
  refine ⟨?_, rfl, rfl⟩
  have hCounts := counts_afterCalls ⟨true, 2, 3, 2⟩ fun c hc =>
    hashable_failingCall c (mem_cons_of_mem failingCall hc)
  obtain ⟨decision, hDecision, hReports⟩ :=
    hCounts.reports hashable_failingCall apart_failingCall
  rw [config_afterCalls] at hReports
  exact ⟨decision, hDecision, (hReports.exactFailure rfl).mpr ⟨rfl, by decide⟩, by decide⟩

end StackOwl.Pipeline
