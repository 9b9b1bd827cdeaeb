import Mathlib.Logic.Function.Basic
import StackOwl.Lib.Dict
import StackOwl.Lib.Run

/-!
# Width slots

`DelegateTaskTool.execute` (`tools/agents/delegate_task.py`) around the ladder.  A call is
checked, waits at the cost pause, takes one of the width slots of its trace, waits for the
two statements of `_resolve_durable_child_scope` where its parent is durable, and runs the
ladder in a `try` whose `finally` gives the slot back.  One tool object serves all calls;
between two waits a call runs alone.  A wait ends with an answer, with an exception, or with
the cancellation of the task.

What the ladder does between two attempts is left open here: it makes an attempt, or ends.

## Main results

* `widthSlots_exact_iff` — the counters are exact in exactly the runs in which no call is
  cancelled in the statements between the slot and the `try`.
-/

namespace StackOwl.Agents

open Lib List Function

/-! ## Limits -/

def MAX_DELEGATION_DEPTH : Nat := 6
def MAX_DELEGATION_DEPTH_AUTONOMOUS : Nat := 10
def MAX_CONCURRENT_DELEGATIONS : Nat := 12
def MAX_CONCURRENT_DELEGATIONS_AUTONOMOUS : Nat := 20

def depthCap (delegationProfile : String) : Nat :=
  if delegationProfile = "autonomous" then MAX_DELEGATION_DEPTH_AUTONOMOUS
  else MAX_DELEGATION_DEPTH

def widthCap (delegationProfile : String) : Nat :=
  if delegationProfile = "autonomous" then MAX_CONCURRENT_DELEGATIONS_AUTONOMOUS
  else MAX_CONCURRENT_DELEGATIONS

def ATTEMPTS_MAX_ENTRIES : Nat := 256

/-! ## A call -/

inductive TargetResolution where
  | owl (name : String)
  | targetNotFound
  | unresolved

/-- What `execute` finds before its first wait: its arguments, the ambient trace context and
what the services have.  `durable` is a parent task id with a ReAct context and a database;
`guarded` is a cost guard. -/
structure DelegationCall where
  argumentsValid : Bool := true
  delegationDepth : Nat := 0
  delegationProfile : String := "interactive"
  traceId : Option String := none
  sessionKey : Option String := none
  caller : String := "secretary"
  delegatorWired : Bool := true
  resolution : TargetResolution
  delegationChain : List String := []
  guarded : Bool := true
  durable : Bool := false

variable (call : DelegationCall)

/-- `str(ctx.get("trace_id") or ctx.get("session_key") or "delegate-task")`. -/
def DelegationCall.traceKey : String :=
  let given := fun name : Option String => name.filter (· ≠ "")
  ((given call.traceId).or (given call.sessionKey)).getD "delegate-task"

inductive Refusal where
  | invalidArguments
  | depthLimit
  | unavailable
  | targetNotFound
  | unresolvedTarget
  | cycle
  | costBudget
  | widthLimit
  deriving DecidableEq

/-- The checks of `execute` in front of the cost pause. -/
def DelegationCall.refusal : Option Refusal :=
  if !call.argumentsValid then some .invalidArguments
  else if depthCap call.delegationProfile ≤ call.delegationDepth then some .depthLimit
  else if !call.delegatorWired then some .unavailable
  else
    match call.resolution with
    | .targetNotFound => some .targetNotFound
    | .unresolved => some .unresolvedTarget
    | .owl target =>
      if target ∈ call.delegationChain ∨ target = call.caller then some .cycle else none

/-- Where a call is: at the cost pause, at one of the two statements of
`_resolve_durable_child_scope`, in the `try`, or gone. -/
inductive CallPoint where
  | paused
  | creatingChild
  | claimingLease
  | delegating
  | refused (reason : Refusal)
  | returned
  | raised
  | cancelled
  deriving DecidableEq

def CallPoint.inFlight : CallPoint → Bool
  | .creatingChild | .claimingLease | .delegating => true
  | .paused | .refused _ | .returned | .raised | .cancelled => false

def DelegationCall.firstWait : CallPoint :=
  if call.durable then .creatingChild else .delegating

theorem inFlight_firstWait : call.firstWait.inFlight = true := by
  unfold DelegationCall.firstWait
  split
  · rfl
  · rfl

/-! ## The tool -/

/-- `DelegateTaskTool`: its two counters, and the calls made so far. -/
structure DelegateTool where
  active : Dict String Nat := .empty
  attempts : Dict String Nat := .empty
  calls : List (DelegationCall × CallPoint) := []

namespace DelegateTool

variable (tool : DelegateTool)

def tryAcquire (traceId : String) (widthLimit : Nat) : Option DelegateTool :=
  if widthLimit ≤ tool.active.count traceId then none
  else some { tool with active := tool.active.bump traceId }

def release (traceId : String) : DelegateTool :=
  if tool.active.count traceId ≤ 1 then
    { tool with active := tool.active.erase traceId, attempts := tool.attempts.erase traceId }
  else { tool with active := tool.active.set traceId (tool.active.count traceId - 1) }

/-- `_evict_oldest_idle_locked`. -/
def evictOldestIdle : DelegateTool :=
  match tool.attempts.keys.find? (tool.active.count · = 0) with
  | some candidate => { tool with attempts := tool.attempts.erase candidate }
  | none => tool

def chargeAttempt (traceId : String) : DelegateTool :=
  let tool := if ATTEMPTS_MAX_ENTRIES ≤ tool.attempts.size then tool.evictOldestIdle else tool
  { tool with attempts := tool.attempts.bump traceId }

def moveTo (i : Nat) (point : CallPoint) : DelegateTool :=
  { tool with calls := tool.calls.modify i fun call => (call.1, point) }

/-- `gate_or_continue` has answered; the call goes on to its slot and to the next wait. -/
def proceed (i : Nat) (call : DelegationCall) (answer : Bool) : DelegateTool :=
  if !answer then tool.moveTo i (.refused .costBudget)
  else
    match tool.tryAcquire call.traceKey (widthCap call.delegationProfile) with
    | none => tool.moveTo i (.refused .widthLimit)
    | some tool => tool.moveTo i call.firstWait

def makeCall : DelegateTool :=
  match call.refusal with
  | some reason => { tool with calls := tool.calls ++ [(call, .refused reason)] }
  | none =>
    let waiting := { tool with calls := tool.calls ++ [(call, .paused)] }
    if call.guarded then waiting else waiting.proceed tool.calls.length call true

/-- The `finally` of `execute`. -/
def exitTry (i : Nat) (call : DelegationCall) (point : CallPoint) : DelegateTool :=
  (tool.release call.traceKey).moveTo i point

end DelegateTool

inductive WaitEnd where
  | answered (proceed : Bool)
  | comesBack
  | attempts
  | returns
  | raises
  | cancelled

/-- Call `i` goes on from where it waits; what cannot happen there changes nothing. -/
def resume (tool : DelegateTool) (i : Nat) (call : DelegationCall) :
    CallPoint → WaitEnd → DelegateTool
  | .paused, .answered answer => tool.proceed i call answer
  | .paused, .raises => tool.moveTo i .raised
  | .paused, .cancelled => tool.moveTo i .cancelled
  | .creatingChild, .comesBack => tool.moveTo i .claimingLease
  | .claimingLease, .comesBack => tool.moveTo i .delegating
  -- a store error leaves the delegation without a durable scope
  | .creatingChild, .raises | .claimingLease, .raises => tool.moveTo i .delegating
  -- a cancellation is no `Exception`, and the `try` has not been entered
  | .creatingChild, .cancelled | .claimingLease, .cancelled => tool.moveTo i .cancelled
  | .delegating, .attempts => tool.chargeAttempt call.traceKey
  | .delegating, .returns => tool.exitTry i call .returned
  | .delegating, .raises => tool.exitTry i call .raised
  | .delegating, .cancelled => tool.exitTry i call .cancelled
  | _, _ => tool

/-- What happens next: a call is made, or a wait of call `i` ends. -/
inductive SlotOp where
  | call (call : DelegationCall)
  | resume (i : Nat) (how : WaitEnd)

def slotStep (tool : DelegateTool) : SlotOp → DelegateTool
  | .call call => tool.makeCall call
  | .resume i how =>
    match tool.calls[i]? with
    | some (call, point) => resume tool i call point how
    | none => tool

/-- The calls of a trace that have a slot and have not exited. -/
def inFlight (tool : DelegateTool) (key : String) : Nat :=
  tool.calls.countP fun call => call.1.traceKey = key ∧ call.2.inFlight

/-! ## What a step does to the counters -/

inductive SlotEffect where
  | none
  | acquires (call : DelegationCall)
  | charges (call : DelegationCall)
  | releases (call : DelegationCall)
  | leaks (call : DelegationCall)

def asks (tool : DelegateTool) (call : DelegationCall) : SlotEffect :=
  if widthCap call.delegationProfile ≤ tool.active.count call.traceKey then .none
  else .acquires call

def resumeEffect (tool : DelegateTool) (call : DelegationCall) : CallPoint → WaitEnd → SlotEffect
  | .paused, .answered true => asks tool call
  | .delegating, .attempts => .charges call
  | .delegating, .returns | .delegating, .raises | .delegating, .cancelled => .releases call
  | .creatingChild, .cancelled | .claimingLease, .cancelled => .leaks call
  | _, _ => .none

def slotEffect (tool : DelegateTool) : SlotOp → SlotEffect
  | .call call =>
    if call.refusal = Option.none ∧ call.guarded = false then asks tool call else .none
  | .resume i how =>
    match tool.calls[i]? with
    | some (call, point) => resumeEffect tool call point how
    | Option.none => .none

def DelegateTool.does (tool : DelegateTool) : SlotEffect → DelegateTool
  | .none | .leaks _ => tool
  | .acquires call => { tool with active := tool.active.bump call.traceKey }
  | .charges call => tool.chargeAttempt call.traceKey
  | .releases call => tool.release call.traceKey

def SlotEffect.enters (key : String) : SlotEffect → Nat
  | .acquires call => if call.traceKey = key then 1 else 0
  | .none | .charges _ | .releases _ | .leaks _ => 0

def SlotEffect.exits (key : String) : SlotEffect → Nat
  | .releases call | .leaks call => if call.traceKey = key then 1 else 0
  | .none | .acquires _ | .charges _ => 0

variable {i : Nat}

theorem countP_modify {α : Type*} (p : α → Bool) (f : α → α) {l : List α} {a : α}
    (h : l[i]? = some a) :
    (l.modify i f).countP p + (if p a then 1 else 0) =
      l.countP p + if p (f a) then 1 else 0 := by
  induction l generalizing i with
  | nil => cases h
  | cons b l ih =>
    cases i with
    | zero =>
      obtain rfl := Option.some.inj h
      rw [modify_zero_cons, countP_cons, countP_cons]
      omega
    | succ i =>
      have hrest := ih (i := i) h
      rw [modify_succ_cons, countP_cons, countP_cons]
      omega

theorem inFlight_moveTo {tool : DelegateTool} {i : Nat} {call : DelegationCall}
    {point : CallPoint} (h : tool.calls[i]? = some (call, point)) (next : CallPoint)
    (key : String) :
    inFlight (tool.moveTo i next) key +
        (if call.traceKey = key ∧ point.inFlight = true then 1 else 0) =
      inFlight tool key +
        if call.traceKey = key ∧ next.inFlight = true then 1 else 0 := by
  have hcount := countP_modify
    (fun call : DelegationCall × CallPoint => call.1.traceKey = key ∧ call.2.inFlight)
    (fun call => (call.1, next)) h
  simp only [decide_eq_true_eq] at hcount
  exact hcount

theorem inFlight_congr {tool other : DelegateTool} (h : tool.calls = other.calls)
    (key : String) : inFlight tool key = inFlight other key := by
  rw [inFlight, inFlight, h]

theorem calls_release (tool : DelegateTool) (traceId : String) :
    (tool.release traceId).calls = tool.calls := by
  unfold DelegateTool.release
  split
  · rfl
  · rfl

theorem calls_chargeAttempt (tool : DelegateTool) (traceId : String) :
    (tool.chargeAttempt traceId).calls = tool.calls := by
  unfold DelegateTool.chargeAttempt DelegateTool.evictOldestIdle
  split
  · split
    · rfl
    · rfl
  · rfl

variable {point : CallPoint}

theorem inFlight_pos {tool : DelegateTool} {call : DelegationCall}
    (h : tool.calls[i]? = some (call, point)) (hpoint : point.inFlight = true) :
    0 < inFlight tool call.traceKey := by
  rw [inFlight, countP_pos_iff]
  exact ⟨(call, point), mem_of_getElem? h, by simpa using hpoint⟩

/-! ### The counters of a step -/

structure SameCounters (tool other : DelegateTool) : Prop where
  active : tool.active = other.active
  attempts : tool.attempts = other.attempts

theorem proceed_counters (tool : DelegateTool) (i : Nat) (call : DelegationCall) :
    SameCounters (tool.proceed i call true) (tool.does (asks tool call)) := by
  unfold DelegateTool.proceed DelegateTool.tryAcquire asks
  by_cases hfull : widthCap call.delegationProfile ≤ tool.active.count call.traceKey
  · simp only [if_pos hfull]
    exact ⟨rfl, rfl⟩
  · simp only [if_neg hfull]
    exact ⟨rfl, rfl⟩

theorem resume_counters (tool : DelegateTool) (i : Nat) (call : DelegationCall)
    (point : CallPoint) (how : WaitEnd) :
    SameCounters (resume tool i call point how) (tool.does (resumeEffect tool call point how)) := by
  cases point with
  | paused =>
    cases how with
    | answered answer =>
      cases answer with
      | false => exact ⟨rfl, rfl⟩
      | true => exact proceed_counters tool i call
    | comesBack | attempts | returns | raises | cancelled => exact ⟨rfl, rfl⟩
  | creatingChild | claimingLease | delegating | refused | returned | raised | cancelled =>
    cases how with
    | answered | comesBack | attempts | returns | raises | cancelled => exact ⟨rfl, rfl⟩

theorem slotStep_counters (tool : DelegateTool) (op : SlotOp) :
    SameCounters (slotStep tool op) (tool.does (slotEffect tool op)) := by
  cases op with
  | call call =>
    rw [slotStep, slotEffect, DelegateTool.makeCall]
    cases hrefusal : call.refusal with
    | some reason => exact ⟨rfl, rfl⟩
    | none =>
      cases hguarded : call.guarded with
      | true => exact ⟨rfl, rfl⟩
      | false =>
        have hcounters := proceed_counters
          { tool with calls := tool.calls ++ [(call, CallPoint.paused)] }
          tool.calls.length call
        have hasks : SameCounters
            (DelegateTool.does { tool with calls := tool.calls ++ [(call, .paused)] }
              (asks tool call)) (tool.does (asks tool call)) := by
          unfold asks
          split
          · exact ⟨rfl, rfl⟩
          · exact ⟨rfl, rfl⟩
        exact ⟨hcounters.active.trans hasks.active, hcounters.attempts.trans hasks.attempts⟩
  | resume i how =>
    rw [slotStep, slotEffect]
    cases hcall : tool.calls[i]? with
    | none => exact ⟨rfl, rfl⟩
    | some found => exact resume_counters tool i found.1 found.2 how

/-! ### The calls in flight after a step -/

/-- The calls in flight are those an effect leaves, in terms of those before it. -/
def Balanced (tool after : DelegateTool) (effect : SlotEffect) : Prop :=
  ∀ key, inFlight after key + effect.exits key = inFlight tool key + effect.enters key

theorem balanced_moveTo {tool : DelegateTool} {call : DelegationCall} {point next : CallPoint}
    (h : tool.calls[i]? = some (call, point)) (hsame : next.inFlight = point.inFlight) :
    Balanced tool (tool.moveTo i next) .none := by
  intro key
  have hmove := inFlight_moveTo h next key
  rw [hsame] at hmove
  exact Nat.add_right_cancel hmove

theorem balanced_proceed {tool : DelegateTool} {i : Nat} {call : DelegationCall}
    (h : tool.calls[i]? = some (call, .paused)) :
    Balanced tool (tool.proceed i call true) (asks tool call) := by
  unfold DelegateTool.proceed DelegateTool.tryAcquire asks
  by_cases hfull : widthCap call.delegationProfile ≤ tool.active.count call.traceKey
  · simp only [if_pos hfull]
    exact balanced_moveTo h rfl
  · simp only [if_neg hfull]
    intro key
    have hmove := @inFlight_moveTo { tool with active := tool.active.bump call.traceKey }
      i call .paused h call.firstWait key
    rw [inFlight_firstWait] at hmove
    simp only [CallPoint.inFlight, Bool.false_eq_true, and_false, and_true, if_false] at hmove
    exact hmove

theorem balanced_exits {tool : DelegateTool} {call : DelegationCall} {point next : CallPoint}
    (h : tool.calls[i]? = some (call, point)) (hpoint : point.inFlight = true)
    (hnext : next.inFlight = false) (key : String) :
    inFlight (tool.moveTo i next) key + (if call.traceKey = key then 1 else 0) =
      inFlight tool key := by
  have hmove := inFlight_moveTo h next key
  simp only [hpoint, hnext, Bool.false_eq_true, and_false, and_true, if_false] at hmove
  exact hmove

theorem balanced_resume {tool : DelegateTool} {call : DelegationCall}
    (h : tool.calls[i]? = some (call, point)) (how : WaitEnd) :
    Balanced tool (resume tool i call point how) (resumeEffect tool call point how) := by
  have hexits : ∀ next : CallPoint, point.inFlight = true → next.inFlight = false →
      ∀ key, inFlight (tool.moveTo i next) key + (if call.traceKey = key then 1 else 0) =
        inFlight tool key := fun next hpoint hnext => balanced_exits h hpoint hnext
  cases point with
  | paused =>
    cases how with
    | answered answer =>
      cases answer with
      | false => exact balanced_moveTo h rfl
      | true => exact balanced_proceed h
    | raises | cancelled => exact balanced_moveTo h rfl
    | comesBack | attempts | returns => exact fun _ => rfl
  | creatingChild | claimingLease =>
    cases how with
    | comesBack | raises => exact balanced_moveTo h rfl
    | cancelled => exact hexits .cancelled rfl rfl
    | answered | attempts | returns => exact fun _ => rfl
  | delegating =>
    have hreleased : ∀ next : CallPoint, next.inFlight = false →
        Balanced tool (tool.exitTry i call next) (.releases call) := by
      intro next hnext key
      have hsame : (tool.exitTry i call next).calls = (tool.moveTo i next).calls := by
        rw [DelegateTool.exitTry, DelegateTool.moveTo, DelegateTool.moveTo, calls_release]
      rw [inFlight_congr hsame]
      exact hexits next rfl hnext key
    cases how with
    | returns => exact hreleased .returned rfl
    | raises => exact hreleased .raised rfl
    | cancelled => exact hreleased .cancelled rfl
    | attempts => exact fun key => inFlight_congr (calls_chargeAttempt tool _) key
    | answered | comesBack => exact fun _ => rfl
  | refused | returned | raised | cancelled => exact fun _ => by cases how <;> rfl

theorem inFlight_append (tool : DelegateTool) (call : DelegationCall)
    (hpoint : point.inFlight = false) (key : String) :
    inFlight { tool with calls := tool.calls ++ [(call, point)] } key = inFlight tool key := by
  simp only [inFlight, countP_append, countP_cons, countP_nil, hpoint]
  simp

theorem slotStep_inFlight (tool : DelegateTool) (op : SlotOp) :
    Balanced tool (slotStep tool op) (slotEffect tool op) := by
  cases op with
  | call call =>
    intro key
    rw [slotStep, slotEffect, DelegateTool.makeCall]
    cases hrefusal : call.refusal with
    | some reason => exact inFlight_append tool call rfl key
    | none =>
      cases hguarded : call.guarded with
      | true => exact inFlight_append tool call rfl key
      | false =>
        have hplaced : (tool.calls ++ [(call, CallPoint.paused)])[tool.calls.length]? =
            some (call, .paused) := by
          rw [getElem?_append_right (Nat.le_refl _), Nat.sub_self]
          rfl
        have hbalanced := @balanced_proceed
          { tool with calls := tool.calls ++ [(call, .paused)] } _ call hplaced key
        rw [inFlight_append tool call rfl key] at hbalanced
        exact hbalanced
  | resume i how =>
    rw [slotStep, slotEffect]
    cases hcall : tool.calls[i]? with
    | none => exact fun _ => rfl
    | some found => exact balanced_resume hcall how

/-! ## Runs -/

/-- What an observer of the tool keeps for each trace: the cap its last acquirer used, and the
attempts its calls have made since one of them was first in flight. -/
structure SlotNotes where
  cap : String → Nat := fun _ => 0
  charged : String → Nat := fun _ => 0

/-- The observer's notes after a step. -/
def noteSlots (tool : DelegateTool) (notes : SlotNotes) (op : SlotOp) : SlotNotes :=
  match slotEffect tool op with
  | .acquires call =>
    { notes with
      cap := update notes.cap call.traceKey (widthCap call.delegationProfile) }
  | .charges call =>
    { notes with
      charged := update notes.charged call.traceKey (notes.charged call.traceKey + 1) }
  | .releases call =>
    if inFlight tool call.traceKey = 1 then
      { notes with charged := update notes.charged call.traceKey 0 }
    else notes
  | .none | .leaks _ => notes

/-- The slots are exact: the counter of a trace is the number of its calls in flight and is
within the cap its last acquirer used; once all calls have exited no counter remains; and the
attempts of a live trace are all counted. -/
structure SlotsExact (s : DelegateTool × SlotNotes) : Prop where
  counted : ∀ key, s.1.active.count key = inFlight s.1 key
  capped : ∀ key, s.1.active.count key ≤ s.2.cap key
  idle : (∀ call ∈ s.1.calls, call.2.inFlight = false) →
    s.1.active = .empty ∧ s.1.attempts = .empty
  kept : ∀ key, 0 < inFlight s.1 key → s.1.attempts.count key = s.2.charged key

/-- The step cancels a call between its slot and the `try`. -/
def cancelsUnprotected (tool : DelegateTool) (op : SlotOp) : Bool :=
  match op with
  | .resume i .cancelled =>
    match tool.calls[i]? with
    | some (_, point) => point == .creatingChild || point == .claimingLease
    | none => false
  | _ => false

/-- What keeps the slots exact: no counter stands at zero, and attempts are counted for live
traces only. -/
structure SlotsKept (s : DelegateTool × SlotNotes) : Prop where
  counted : ∀ key, s.1.active.count key = inFlight s.1 key
  capped : ∀ key, s.1.active.count key ≤ s.2.cap key
  kept : ∀ key, s.1.attempts.count key = s.2.charged key
  positive : ∀ key, s.1.active.get? key ≠ some 0
  live : ∀ key, s.1.attempts.get? key ≠ none → 0 < inFlight s.1 key

theorem inFlight_of_idle {tool : DelegateTool}
    (h : ∀ call ∈ tool.calls, call.2.inFlight = false) (key : String) :
    inFlight tool key = 0 := by
  rw [inFlight, countP_eq_zero]
  intro call hcall
  simp [h call hcall]

theorem SlotsKept.exact {s : DelegateTool × SlotNotes} (h : SlotsKept s) : SlotsExact s where
  counted := h.counted
  capped := h.capped
  kept key _ := h.kept key
  idle hidle := by
    have hnone := inFlight_of_idle hidle
    constructor
    · rw [Dict.eq_empty_iff]
      intro key
      have hcount := h.counted key
      rw [hnone, Dict.count] at hcount
      cases hget : s.1.active.get? key with
      | none => rfl
      | some n =>
        rw [hget] at hcount
        exact absurd (hget.trans (congrArg some hcount)) (h.positive key)
    · rw [Dict.eq_empty_iff]
      intro key
      by_contra hsome
      exact absurd (h.live key hsome) (by rw [hnone]; exact Nat.lt_irrefl 0)

inductive EffectSpec (tool : DelegateTool) (op : SlotOp) : SlotEffect → Prop where
  | none (hprotected : cancelsUnprotected tool op = false) : EffectSpec tool op .none
  | acquires (call : DelegationCall) (hprotected : cancelsUnprotected tool op = false)
      (hroom : tool.active.count call.traceKey < widthCap call.delegationProfile) :
      EffectSpec tool op (.acquires call)
  | charges (call : DelegationCall) (hprotected : cancelsUnprotected tool op = false)
      (hlive : 0 < inFlight tool call.traceKey) : EffectSpec tool op (.charges call)
  | releases (call : DelegationCall) (hprotected : cancelsUnprotected tool op = false)
      (hlive : 0 < inFlight tool call.traceKey) : EffectSpec tool op (.releases call)
  | leaks (call : DelegationCall) (hunprotected : cancelsUnprotected tool op = true)
      (hlive : 0 < inFlight tool call.traceKey) : EffectSpec tool op (.leaks call)

variable {op : SlotOp}

theorem asks_spec {tool : DelegateTool} (hprotected : cancelsUnprotected tool op = false)
    (call : DelegationCall) :
    EffectSpec tool op (asks tool call) := by
  unfold asks
  split
  · exact .none hprotected
  · exact .acquires call hprotected (by omega)

theorem resumeEffect_spec {tool : DelegateTool} {call : DelegationCall}
    (h : tool.calls[i]? = some (call, point)) (how : WaitEnd) :
    EffectSpec tool (.resume i how) (resumeEffect tool call point how) := by
  have hunprotected : cancelsUnprotected tool (.resume i .cancelled) =
      (point == .creatingChild || point == .claimingLease) := by
    rw [cancelsUnprotected, h]
  cases point with
  | paused =>
    cases how with
    | answered answer =>
      cases answer with
      | false => exact .none rfl
      | true => exact asks_spec rfl call
    | cancelled => exact .none hunprotected
    | comesBack | attempts | returns | raises => exact .none rfl
  | creatingChild | claimingLease =>
    cases how with
    | cancelled => exact .leaks call hunprotected (inFlight_pos h rfl)
    | answered | comesBack | attempts | returns | raises => exact .none rfl
  | delegating =>
    cases how with
    | attempts => exact .charges call rfl (inFlight_pos h rfl)
    | returns | raises => exact .releases call rfl (inFlight_pos h rfl)
    | cancelled => exact .releases call hunprotected (inFlight_pos h rfl)
    | answered | comesBack => exact .none rfl
  | refused | returned | raised | cancelled =>
    cases how with
    | cancelled => exact .none hunprotected
    | answered | comesBack | attempts | returns | raises => exact .none rfl

theorem slotEffect_spec (tool : DelegateTool) (op : SlotOp) :
    EffectSpec tool op (slotEffect tool op) := by
  cases op with
  | call call =>
    rw [slotEffect]
    split
    · exact asks_spec rfl call
    · exact .none rfl
  | resume i how =>
    rw [slotEffect]
    cases hcall : tool.calls[i]? with
    | none =>
      refine .none ?_
      rw [cancelsUnprotected.eq_def]
      cases how with
      | cancelled => simp only [hcall]
      | answered | comesBack | attempts | returns | raises => rfl
    | some found => exact resumeEffect_spec hcall how

/-! ### What each effect keeps -/

section
variable {s : DelegateTool × SlotNotes} {after : DelegateTool} {call}

theorem SlotsKept.none (h : SlotsKept s) (hcounters : SameCounters after s.1)
    (hbalanced : Balanced s.1 after .none) : SlotsKept (after, s.2) := by
  have hflight : ∀ key, inFlight after key = inFlight s.1 key := hbalanced
  constructor
  · intro key
    simp only [hcounters.active, hflight]
    exact h.counted key
  · intro key
    simp only [hcounters.active]
    exact h.capped key
  · intro key
    simp only [hcounters.attempts]
    exact h.kept key
  · intro key
    simp only [hcounters.active]
    exact h.positive key
  · intro key
    simp only [hcounters.attempts, hflight]
    exact h.live key

theorem SlotsKept.acquires (h : SlotsKept s)
    (hcounters : SameCounters after (s.1.does (.acquires call)))
    (hbalanced : Balanced s.1 after (.acquires call))
    (hroom : s.1.active.count call.traceKey < widthCap call.delegationProfile) :
    SlotsKept (after, { s.2 with
      cap := update s.2.cap call.traceKey (widthCap call.delegationProfile) }) := by
  have hactive : after.active = s.1.active.bump call.traceKey := hcounters.active
  have hattempts : after.attempts = s.1.attempts := hcounters.attempts
  have hflight : ∀ key, inFlight after key =
      inFlight s.1 key + if call.traceKey = key then 1 else 0 := hbalanced
  constructor
  · intro key
    simp only [hactive, Dict.count_bump, hflight, h.counted]
    by_cases hkey : key = call.traceKey
    · rw [if_pos hkey, if_pos hkey.symm, hkey]
    · rw [if_neg hkey, if_neg (Ne.symm hkey), Nat.add_zero]
  · intro key
    simp only [hactive, Dict.count_bump]
    by_cases hkey : key = call.traceKey
    · rw [if_pos hkey, hkey, update_self]
      exact hroom
    · rw [if_neg hkey, update_of_ne hkey]
      exact h.capped key
  · intro key
    simp only [hattempts]
    exact h.kept key
  · intro key
    simp only [hactive, Dict.bump, Dict.get?_set]
    split
    · simp
    · exact h.positive key
  · intro key hkey
    simp only [hattempts] at hkey
    have hlive := h.live key hkey
    simp only [hflight]
    omega

theorem SlotsKept.charges (h : SlotsKept s)
    (hcounters : SameCounters after (s.1.does (.charges call)))
    (hbalanced : Balanced s.1 after (.charges call))
    (hlive : 0 < inFlight s.1 call.traceKey) :
    SlotsKept (after, { s.2 with
      charged := update s.2.charged call.traceKey
        (s.2.charged call.traceKey + 1) }) := by
  -- every entry belongs to a live trace, so nothing is evicted
  have hevict : s.1.evictOldestIdle = s.1 := by
    unfold DelegateTool.evictOldestIdle
    split
    · rename_i candidate hfound
      have hidle := find?_some hfound
      have hmem := mem_of_find?_eq_some hfound
      rw [decide_eq_true_eq, h.counted] at hidle
      have hsome : s.1.attempts.get? candidate ≠ .none := Dict.get?_of_mem_keys hmem
      exact absurd (h.live candidate hsome) (by omega)
    · rfl
  have hdoes : s.1.chargeAttempt call.traceKey =
      { s.1 with attempts := s.1.attempts.bump call.traceKey } := by
    unfold DelegateTool.chargeAttempt
    rw [hevict, ite_self]
  have hactive : after.active = s.1.active := by
    rw [hcounters.active, DelegateTool.does, hdoes]
  have hattempts : after.attempts = s.1.attempts.bump call.traceKey := by
    rw [hcounters.attempts, DelegateTool.does, hdoes]
  have hflight : ∀ key, inFlight after key = inFlight s.1 key := hbalanced
  constructor
  · intro key
    simp only [hactive, hflight]
    exact h.counted key
  · intro key
    simp only [hactive]
    exact h.capped key
  · intro key
    simp only [hattempts, Dict.count_bump, h.kept]
    by_cases hkey : key = call.traceKey
    · rw [if_pos hkey, hkey, update_self]
    · rw [if_neg hkey, update_of_ne hkey]
  · intro key
    simp only [hactive]
    exact h.positive key
  · intro key hkey
    simp only [hattempts, Dict.bump, Dict.get?_set] at hkey
    simp only [hflight]
    by_cases hsame : key = call.traceKey
    · rw [hsame]
      exact hlive
    · rw [if_neg hsame] at hkey
      exact h.live key hkey

theorem SlotsKept.releases (h : SlotsKept s)
    (hcounters : SameCounters after (s.1.does (.releases call)))
    (hbalanced : Balanced s.1 after (.releases call))
    (hlive : 0 < inFlight s.1 call.traceKey) :
    SlotsKept (after,
      if inFlight s.1 call.traceKey = 1 then
        { s.2 with charged := update s.2.charged call.traceKey 0 }
      else s.2) := by
  have hflight : ∀ key, inFlight after key + (if call.traceKey = key then 1 else 0) =
      inFlight s.1 key := hbalanced
  have hother : ∀ key, key ≠ call.traceKey → inFlight after key = inFlight s.1 key := by
    intro key hkey
    have hkeys := hflight key
    rw [if_neg (Ne.symm hkey)] at hkeys
    exact hkeys
  have hsame := hflight call.traceKey
  rw [if_pos rfl] at hsame
  have hcount := h.counted call.traceKey
  by_cases hlast : inFlight s.1 call.traceKey = 1
  · have hdoes : s.1.release call.traceKey =
        { s.1 with active := s.1.active.erase call.traceKey,
                   attempts := s.1.attempts.erase call.traceKey } := by
      rw [DelegateTool.release, if_pos (by omega)]
    have hactive : after.active = s.1.active.erase call.traceKey := by
      rw [hcounters.active, DelegateTool.does, hdoes]
    have hattempts : after.attempts = s.1.attempts.erase call.traceKey := by
      rw [hcounters.attempts, DelegateTool.does, hdoes]
    rw [if_pos hlast]
    constructor
    · intro key
      simp only [hactive, Dict.count_erase]
      by_cases hkey : key = call.traceKey
      · rw [if_pos hkey, hkey]
        omega
      · rw [if_neg hkey, hother key hkey]
        exact h.counted key
    · intro key
      simp only [hactive, Dict.count_erase]
      split
      · exact Nat.zero_le _
      · exact h.capped key
    · intro key
      simp only [hattempts, Dict.count_erase]
      by_cases hkey : key = call.traceKey
      · rw [if_pos hkey, hkey, update_self]
      · rw [if_neg hkey, update_of_ne hkey]
        exact h.kept key
    · intro key
      simp only [hactive, Dict.get?_erase]
      split
      · simp
      · exact h.positive key
    · intro key hkey
      simp only [hattempts, Dict.get?_erase] at hkey
      by_cases hkeys : key = call.traceKey
      · rw [if_pos hkeys] at hkey
        exact absurd rfl hkey
      · rw [if_neg hkeys] at hkey
        rw [hother key hkeys]
        exact h.live key hkey
  · have hdoes : s.1.release call.traceKey =
        { s.1 with active :=
            s.1.active.set call.traceKey (s.1.active.count call.traceKey - 1) } := by
      rw [DelegateTool.release, if_neg (by omega)]
    have hactive : after.active =
        s.1.active.set call.traceKey (s.1.active.count call.traceKey - 1) := by
      rw [hcounters.active, DelegateTool.does, hdoes]
    have hattempts : after.attempts = s.1.attempts := by
      rw [hcounters.attempts, DelegateTool.does, hdoes]
    rw [if_neg hlast]
    constructor
    · intro key
      simp only [hactive, Dict.count_set]
      by_cases hkey : key = call.traceKey
      · rw [if_pos hkey, hkey]
        omega
      · rw [if_neg hkey, hother key hkey]
        exact h.counted key
    · intro key
      simp only [hactive, Dict.count_set]
      have hcap := h.capped key
      by_cases hkey : key = call.traceKey
      · rw [if_pos hkey, ← hkey]
        omega
      · rw [if_neg hkey]
        exact hcap
    · intro key
      simp only [hattempts]
      exact h.kept key
    · intro key
      simp only [hactive, Dict.get?_set]
      split
      · intro hzero
        have hzero := Option.some.inj hzero
        omega
      · exact h.positive key
    · intro key hkey
      simp only [hattempts] at hkey
      have hlivekey := h.live key hkey
      show 0 < inFlight after key
      by_cases hkeys : key = call.traceKey
      · rw [hkeys]
        omega
      · rw [hother key hkeys]
        exact hlivekey

end

/-! ### Along a run -/

theorem slotsKept_step {s : DelegateTool × SlotNotes} (h : SlotsKept s)
    (hop : cancelsUnprotected s.1 op = false) : SlotsKept (watch slotStep noteSlots s op) := by
  have hcounters := slotStep_counters s.1 op
  have hbalanced := slotStep_inFlight s.1 op
  have hspec := slotEffect_spec s.1 op
  rw [watch, noteSlots]
  generalize slotEffect s.1 op = effect at hcounters hbalanced hspec
  cases hspec with
  | none => exact h.none hcounters hbalanced
  | acquires call _ hroom => exact h.acquires hcounters hbalanced hroom
  | charges call _ hlive => exact h.charges hcounters hbalanced hlive
  | releases call _ hlive => exact h.releases hcounters hbalanced hlive
  | leaks call hunprotected =>
    rw [hop] at hunprotected
    cases hunprotected

theorem protected_of_counted {s : DelegateTool × SlotNotes} (h : SlotsKept s)
    (hnext : SlotsExact (watch slotStep noteSlots s op)) : cancelsUnprotected s.1 op = false := by
  have hcounters := slotStep_counters s.1 op
  have hbalanced := slotStep_inFlight s.1 op
  have hspec := slotEffect_spec s.1 op
  have hcounted := hnext.counted
  simp only [watch] at hcounted
  generalize slotEffect s.1 op = effect at hcounters hbalanced hspec
  cases hspec with
  | none hprotected | acquires _ hprotected | charges _ hprotected | releases _ hprotected =>
    exact hprotected
  | leaks call =>
    have hflight : inFlight (slotStep s.1 op) call.traceKey + 1 =
        inFlight s.1 call.traceKey := by
      have hkey := hbalanced call.traceKey
      simp only [SlotEffect.exits, SlotEffect.enters, if_true, Nat.add_zero] at hkey
      exact hkey
    have hafter := hcounted call.traceKey
    have hbefore := h.counted call.traceKey
    rw [hcounters.active, DelegateTool.does] at hafter
    omega

theorem slotsKept_fresh : SlotsKept ({}, {}) where
  counted _ := rfl
  capped _ := Nat.le_refl 0
  kept _ := rfl
  positive _ h := by cases h
  live _ h := absurd rfl h

/-- **The slots are exact** in exactly the runs in which no call is cancelled between its
slot and the `try`. -/
theorem widthSlots_exact_iff (ops : List SlotOp) :
    Along (watch slotStep noteSlots) SlotsExact ({}, {}) ops ↔
      Meets (watch slotStep noteSlots) (fun s op => cancelsUnprotected s.1 op = false)
        ({}, {}) ops :=
  along_iff_meets_of_kept (I := SlotsKept) (fun _ h => h.exact)
    (fun _ _ h hop => slotsKept_step h hop) (fun _ _ h hnext => protected_of_counted h hnext)
    slotsKept_fresh ops

/-- A call with a durable parent, past the cost pause. -/
def durableCall : DelegationCall :=
  { traceId := some "t-1", resolution := .owl "scout", durable := true }

/-- The turn is stopped while the child's row is being written. -/
def cancelledInScope : List SlotOp :=
  [.call durableCall, .resume 0 (.answered true), .resume 0 .cancelled]

/-- The call has exited, and its slot is taken for good. -/
theorem cancelled_slot_leaks :
    ¬ Along (watch slotStep noteSlots) SlotsExact ({}, {}) cancelledInScope ∧
      (run slotStep {} cancelledInScope).calls.map Prod.snd = [.cancelled] ∧
      (run slotStep {} cancelledInScope).active.count "t-1" = 1 := by
  refine ⟨fun h => ?_, by decide, by decide⟩
  have hidle := h.last.idle (by decide)
  have hcount : (run slotStep {} cancelledInScope).active.count "t-1" = 0 := by
    have hempty : (run slotStep {} cancelledInScope).active = .empty := hidle.1
    rw [hempty, Dict.count_empty]
  revert hcount
  decide

end StackOwl.Agents
