import Mathlib.Algebra.GroupWithZero.Nat
import Mathlib.Logic.Function.Basic
import StackOwl.Agents.Ladder
import StackOwl.Durable.FailureClass
import StackOwl.Lib.Run

/-!
# Mailboxes of delegations

`A2AQueue` (`messaging/a2a.py`) and `A2ADelegator` (`owls/a2a_delegation.py`).  A
mailbox is a queue of an owl's name.  `delegate` posts a request to the mailbox of
the owl delegated to, starts the specialist as a task of its own, and awaits the next
message of the caller's own mailbox; the specialist posts its reply there as it ends.
Nobody reads the requests.

Any number of calls of any owls are in flight at a time.  A call ends by the message
it received, by its timeout, or with the turn that made it; the specialist of a call
that ended otherwise may still be running, and may already have posted.  `drain`
drops a mailbox: a call that waits on the dropped queue receives nothing more.

The cleaning of a child's error text is a parameter.

## Main results

* `delivered_of_undisturbed` — where the mailbox a call waits on is its own, every result
  is of the call's own child, and where it is left clean too, nothing stays behind.
* `boxes_bounded` — a mailbox holds no more than has been sent to its owl once.
* `request_taken_for_reply` — a nested delegation receives the request made of it.
-/

namespace StackOwl.Agents

open Lib List Function

/-! ## Messages -/

inductive MessageType where
  | request
  | response
  | event
  deriving DecidableEq

/-- `A2AMessage`, without the stamp nothing reads. -/
structure A2AMessage where
  fromOwl : String
  toOwl : String
  content : String
  messageType : MessageType
  traceId : String
  status : Option String := none
  error : Option String := none
  deriving DecidableEq

/-- A message in a mailbox, with the call it was sent for, which is not on the wire. -/
structure Envelope where
  message : A2AMessage
  call : Nat
  deriving DecidableEq

/-- What a specialist run ends with: the chunks of its answer, each with its floor
flag, and its errors, or a `StackOwlError`. -/
inductive ChildOutcome where
  | finished (responses : List (String × Bool)) (errors : List String)
  | failed (error : String)
  deriving DecidableEq

def KNOWN_STATUSES : List DelegationStatus :=
  [.ok, .empty, .timeout, .childError, .truncated, .refused, .cycle, .targetNotFound, .offTopic]

def knownStatus (text : Option String) : Option DelegationStatus :=
  KNOWN_STATUSES.find? fun status => some status.text == text

/-- `e.startswith("budget:stop:")`. -/
def budgetStop (error : String) : Bool :=
  "budget:stop:".toList.isPrefixOf error.toList

/-- The status and the detail `_run_specialist` decides; floor chunks do not count. -/
def replyStatus (sanitize : String → String) : ChildOutcome → DelegationStatus × String
  | .finished responses errors =>
    if errors ≠ [] then
      (if errors.any budgetStop then .truncated else .childError,
        sanitize ("; ".intercalate errors))
    else if Durable.blank (String.join ((responses.filter (!·.2)).map (·.1))) then
      (.empty, "")
    else (.ok, "")
  | .failed error => (.childError, sanitize error)

/-- The content of the reply: every chunk, the floor chunks among them. -/
def replyContent : ChildOutcome → String
  | .finished responses _ => String.join (responses.map (·.1))
  | .failed _ => ""

/-- How a received message becomes the result of the call. -/
def shapeResult (sanitize : String → String) (toOwl : String) (response : A2AMessage) :
    A2AResult where
  status :=
    match knownStatus response.status with
    | some status => status
    | none => if Durable.blank response.content then .empty else .ok
  content := response.content
  childDetail := sanitize (response.error.getD "")
  resolvedOwl := toOwl

/-! ## Calls -/

/-- Where a `delegate` call is: waiting for its mailbox, letting its child unwind after
a message, or over. -/
inductive CallPhase where
  | waiting
  | settling (got : Envelope)
  | answered (got : Envelope)
  | timedOut
  | abandoned
  deriving DecidableEq

def CallPhase.inFlight : CallPhase → Bool
  | .waiting | .settling _ => true
  | _ => false

/-- The message the call took for its child's reply. -/
def CallPhase.got : CallPhase → Option Envelope
  | .settling env | .answered env => some env
  | _ => none

/-- The specialist task of a call: running, through with its reply posted, or ended
without one. -/
inductive ChildTask where
  | running
  | posted (outcome : ChildOutcome)
  | ended
  deriving DecidableEq

def ChildTask.cancel : ChildTask → ChildTask
  | .running => .ended
  | task => task

/-- One `delegate` call.  `attached` is lost when the queue it waits on is drained. -/
structure Call where
  fromOwl : String
  toOwl : String
  subTask : String
  traceId : String
  phase : CallPhase := .waiting
  attached : Bool := true
  child : ChildTask := .running

/-- What a call that is over returned; a call abandoned with its turn returns nothing. -/
def Call.result (sanitize : String → String) (call : Call) : Option A2AResult :=
  match call.phase with
  | .answered env => some (shapeResult sanitize call.toOwl env.message)
  | .timedOut => some { status := .timeout, resolvedOwl := call.toOwl }
  | _ => none

def requestOf (fromOwl toOwl subTask traceId : String) : A2AMessage where
  fromOwl := fromOwl
  toOwl := toOwl
  content := subTask
  messageType := .request
  traceId := traceId

def replyOf (sanitize : String → String) (call : Call) (outcome : ChildOutcome) :
    A2AMessage where
  fromOwl := call.toOwl
  toOwl := call.fromOwl
  content := replyContent outcome
  messageType := .response
  traceId := call.traceId
  status := some (replyStatus sanitize outcome).1.text
  error :=
    if (replyStatus sanitize outcome).2 = "" then none
    else some (replyStatus sanitize outcome).2

/-- The mailboxes and the calls made so far. -/
structure MailWorld where
  boxes : String → List Envelope := fun _ => []
  calls : List Call := []

/-- One thing that can happen next. -/
inductive MailOp where
  | delegate (fromOwl toOwl subTask traceId : String)
  | childReplies (i : Nat) (outcome : ChildOutcome)
  | childEnds (i : Nat)
  | receive (i : Nat)
  | settled (i : Nat)
  | timeout (i : Nat)
  | abandon (i : Nat)
  | drain (owl : String)

def MailWorld.send (w : MailWorld) (env : Envelope) : MailWorld :=
  { w with
    boxes := update w.boxes env.message.toOwl
      (w.boxes env.message.toOwl ++ [env]) }

def MailWorld.setCall (w : MailWorld) (i : Nat) (f : Call → Call) : MailWorld :=
  { w with calls := w.calls.modify i f }

/-- The child's task is over, and no longer cancelled. -/
def Call.childDone (call : Call) : Call :=
  { call with child := call.child.cancel }

/-- The call takes `env` for its child's reply. -/
def Call.take (env : Envelope) (call : Call) : Call :=
  { call with phase := .settling env }

/-- `settle_specialist_task` is through: the child's task has ended. -/
def Call.settle (call : Call) : Call :=
  match call.phase with
  | .settling env => { call with phase := .answered env, child := call.child.cancel }
  | _ => call

/-- `A2ATimeoutError`: the child is cancelled, which it notices later. -/
def Call.expire (call : Call) : Call :=
  match call.phase with
  | .waiting => { call with phase := .timedOut }
  | _ => call

def Call.abandon (call : Call) : Call :=
  if call.phase.inFlight then { call with phase := .abandoned } else call

/-- The queue a call of `owl` waits on is not the mailbox of `owl` any more. -/
def Call.detach (owl : String) (call : Call) : Call :=
  if call.fromOwl = owl then { call with attached := false } else call

section
variable (sanitize : String → String)

/-- What happens next, where it can happen. -/
def mailStep (w : MailWorld) : MailOp → MailWorld
  | .delegate fromOwl toOwl subTask traceId =>
    let w := w.send ⟨requestOf fromOwl toOwl subTask traceId, w.calls.length⟩
    { w with calls := w.calls ++ [{ fromOwl, toOwl, subTask, traceId }] }
  | .childReplies i outcome =>
    match w.calls[i]? with
    | none => w
    | some call =>
      if call.child = .running then
        (w.setCall i ({ · with child := .posted outcome })).send
          ⟨replyOf sanitize call outcome, i⟩
      else w
  | .childEnds i => w.setCall i Call.childDone
  | .receive i =>
    match w.calls[i]? with
    | none => w
    | some call =>
      match call.phase, call.attached, w.boxes call.fromOwl with
      | .waiting, true, env :: rest =>
        { w with boxes := update w.boxes call.fromOwl rest }.setCall i
          (Call.take env)
      | _, _, _ => w
  | .settled i => w.setCall i Call.settle
  | .timeout i => w.setCall i Call.expire
  | .abandon i => w.setCall i Call.abandon
  | .drain owl =>
    { boxes := update w.boxes owl []
      calls := w.calls.map (Call.detach owl) }

/-! ## The law -/

/-- A result is the timeout's or that of the reply of the call's own child. -/
def OwnResults (w : MailWorld) : Prop :=
  ∀ (i : Nat) (call : Call) (result : A2AResult), w.calls[i]? = some call →
    call.result sanitize = some result →
      result = { status := .timeout, resolvedOwl := call.toOwl } ∨
        ∃ outcome, call.child = .posted outcome ∧
          result = shapeResult sanitize call.toOwl (replyOf sanitize call outcome)

/-- Besides, every message in a mailbox is of a call in flight, and a mailbox holds one of a
call at most. -/
structure MailLaw (w : MailWorld) : Prop where
  own : OwnResults sanitize w
  live : ∀ owl, ∀ env ∈ w.boxes owl, ∃ call : Call,
    w.calls[env.call]? = some call ∧ call.phase.inFlight = true
  distinct : ∀ owl, ((w.boxes owl).map Envelope.call).Nodup

variable {sanitize} in
theorem length_boxes_le {w : MailWorld} (h : MailLaw sanitize w) (owl : String) :
    (w.boxes owl).length ≤ w.calls.countP (·.phase.inFlight) := by
  let flying (i : Nat) : Bool := (w.calls[i]?).any (·.phase.inFlight)
  have hsub : (w.boxes owl).map Envelope.call ⊆
      (List.range w.calls.length).filter flying := by
    intro i hi
    obtain ⟨env, henv, rfl⟩ := List.mem_map.mp hi
    obtain ⟨call, hcall, hflight⟩ := h.live owl env henv
    obtain ⟨hlt, -⟩ := List.getElem?_eq_some_iff.mp hcall
    refine List.mem_filter.mpr ⟨List.mem_range.mpr hlt, ?_⟩
    simp only [flying, hcall, Option.any_some, hflight]
  calc (w.boxes owl).length = ((w.boxes owl).map Envelope.call).length := by rw [List.length_map]
    _ ≤ ((List.range w.calls.length).filter flying).length :=
        ((h.distinct owl).subperm hsub).length_le
    _ = ((List.finRange w.calls.length).map w.calls.get).countP (·.phase.inFlight) := by
        rw [← List.countP_eq_length_filter, ← List.map_coe_finRange_eq_range, List.countP_map,
          List.countP_map]
        refine List.countP_congr fun i _ => ?_
        simp [flying]
    _ = w.calls.countP (·.phase.inFlight) := by rw [← List.ofFn_eq_map, List.ofFn_get]

end

/-- None of the call's messages is in the mailbox of its caller or of its target. -/
def MailWorld.clean (w : MailWorld) (i : Nat) (call : Call) : Prop :=
  ∀ env ∈ w.boxes call.fromOwl ++ w.boxes call.toOwl, env.call ≠ i

instance (w : MailWorld) (i : Nat) (call : Call) : Decidable (w.clean i call) :=
  inferInstanceAs (Decidable (∀ env ∈ _, _))

/-- Where no mailbox is shared: a call starts on the empty mailbox of an owl none of
whose calls is in flight, to another owl that waits for nothing; and a child replies while
its call waits. -/
def Unshared (w : MailWorld) : MailOp → Prop
  | .delegate fromOwl toOwl _ _ =>
    w.boxes fromOwl = [] ∧ fromOwl ≠ toOwl ∧
      (∀ call ∈ w.calls, call.fromOwl = fromOwl → call.phase.inFlight = false) ∧
      ∀ call ∈ w.calls, call.fromOwl = toOwl → call.phase ≠ .waiting
  | .childReplies i _ =>
    ∀ call ∈ w.calls[i]?, call.child = .running → call.phase = .waiting
  | _ => True

/-- A call ends once its messages are gone. -/
def EndsClean (w : MailWorld) : MailOp → Prop
  | .settled i =>
    ∀ call ∈ w.calls[i]?, call.phase.inFlight = true → call.phase ≠ .waiting → w.clean i call
  | .timeout i => ∀ call ∈ w.calls[i]?, call.phase = .waiting → w.clean i call
  | .abandon i => ∀ call ∈ w.calls[i]?, call.phase.inFlight = true → w.clean i call
  | _ => True

instance (w : MailWorld) (op : MailOp) : Decidable (Unshared w op) :=
  match op with
  | .delegate .. => inferInstanceAs (Decidable (_ ∧ _ ∧ _ ∧ _))
  | .childReplies i _ => inferInstanceAs (Decidable (∀ call ∈ w.calls[i]?, _ → _))
  | .settled _ | .timeout _ | .abandon _ | .childEnds _ | .receive _ | .drain _ => isTrue trivial

instance (w : MailWorld) (op : MailOp) : Decidable (EndsClean w op) :=
  match op with
  | .settled i => inferInstanceAs (Decidable (∀ call ∈ w.calls[i]?, _ → _ → _))
  | .timeout i => inferInstanceAs (Decidable (∀ call ∈ w.calls[i]?, _ → _))
  | .abandon i => inferInstanceAs (Decidable (∀ call ∈ w.calls[i]?, _ → _))
  | .delegate .. | .childReplies .. | .childEnds _ | .receive _ | .drain _ => isTrue trivial

/-! ## The invariant -/

section
variable (sanitize : String → String) (tidy : Prop)

/-- The reply call `i` is waiting for. -/
def OwnReply (i : Nat) (call : Call) (env : Envelope) : Prop :=
  ∃ outcome, call.child = .posted outcome ∧ env = ⟨replyOf sanitize call outcome, i⟩

/-- `env` in the mailbox of `owl` was sent for `call`, which is in flight. -/
structure SentFor (owl : String) (env : Envelope) (call : Call) : Prop where
  inFlight : call.phase.inFlight = true
  addressed : owl = call.fromOwl ∨ owl = call.toOwl

/-- The mailbox a call waits on holds its own reply or nothing, and an owl has one call
in flight.  In a run that is tidy, calls have ended once their messages were gone. -/
structure MailInv (w : MailWorld) : Prop where
  placed : tidy → ∀ owl, ∀ env ∈ w.boxes owl, ∃ call : Call,
    w.calls[env.call]? = some call ∧ SentFor owl env call
  awaited : ∀ (i : Nat) (call : Call), w.calls[i]? = some call → call.phase = .waiting →
    ∀ env ∈ w.boxes call.fromOwl, OwnReply sanitize i call env
  got : ∀ (i : Nat) (call : Call) env, w.calls[i]? = some call →
    call.phase.got = some env → OwnReply sanitize i call env
  single : ∀ (i j : Nat) (call call' : Call), w.calls[i]? = some call →
    w.calls[j]? = some call' → call.phase.inFlight = true → call'.phase.inFlight = true →
      call.fromOwl = call'.fromOwl → i = j
  distinct : tidy → ∀ owl, ((w.boxes owl).map Envelope.call).Nodup

/-- What can become of call `i`, with `boxes` the mailboxes after the step. -/
structure GoesOn (boxes : String → List Envelope) (i : Nat) (call call' : Call) : Prop where
  fromOwl : call'.fromOwl = call.fromOwl
  toOwl : call'.toOwl = call.toOwl
  traceId : call'.traceId = call.traceId
  posted : ∀ outcome, call.child = .posted outcome → call'.child = .posted outcome
  waiting : call'.phase = .waiting → call.phase = .waiting
  inFlight : call'.phase.inFlight = true → call.phase.inFlight = true
  got : ∀ env, call'.phase.got = some env →
    call.phase.got = some env ∨ OwnReply sanitize i call env
  left : tidy → call.phase.inFlight = true → call'.phase.inFlight = true ∨
    ∀ owl, owl = call.fromOwl ∨ owl = call.toOwl → ∀ env ∈ boxes owl, env.call ≠ i

variable {sanitize} {tidy}

theorem GoesOn.refl (boxes : String → List Envelope) (i : Nat) (call : Call) :
    GoesOn sanitize tidy boxes i call call :=
  ⟨rfl, rfl, rfl, fun _ h => h, fun h => h, fun h => h, fun _ h => .inl h, fun _ => .inl⟩

variable {i : Nat} {boxes : String → List Envelope} {call : Call}

theorem GoesOn.ownReply {call' : Call} (h : GoesOn sanitize tidy boxes i call call')
    {env : Envelope} (hown : OwnReply sanitize i call env) : OwnReply sanitize i call' env := by
  obtain ⟨outcome, hposted, rfl⟩ := hown
  refine ⟨outcome, h.posted outcome hposted, ?_⟩
  simp only [replyOf, h.fromOwl, h.toOwl, h.traceId]

theorem MailInv.goOn {w w' : MailWorld} (h : MailInv sanitize tidy w) (g : Nat → Call → Call)
    (hcalls : ∀ i : Nat, w'.calls[i]? = (w.calls[i]?).map (g i))
    (hboxes : ∀ owl, (w'.boxes owl).Sublist (w.boxes owl))
    (hgo : ∀ (i : Nat) (call : Call), w.calls[i]? = some call →
      GoesOn sanitize tidy w'.boxes i call (g i call)) : MailInv sanitize tidy w' := by
  have hback : ∀ (i : Nat) (call' : Call), w'.calls[i]? = some call' →
      ∃ call, w.calls[i]? = some call ∧ GoesOn sanitize tidy w'.boxes i call call' := by
    intro i call' hcall'
    rw [hcalls] at hcall'
    obtain ⟨call, hcall, rfl⟩ := Option.map_eq_some_iff.mp hcall'
    exact ⟨call, hcall, hgo i call hcall⟩
  constructor
  · intro htidy owl env henv
    obtain ⟨call, hcall, hfor⟩ := h.placed htidy owl env ((hboxes owl).subset henv)
    have hstep := hgo env.call call hcall
    refine ⟨g env.call call, by rw [hcalls, hcall]; rfl, ?_, ?_⟩
    · rcases hstep.left htidy hfor.inFlight with hflight | hnone
      · exact hflight
      · exact absurd rfl (hnone owl hfor.addressed env henv)
    · rw [hstep.fromOwl, hstep.toOwl]
      exact hfor.addressed
  · intro i call' hcall' hwait env henv
    obtain ⟨call, hcall, hstep⟩ := hback i call' hcall'
    rw [hstep.fromOwl] at henv
    exact hstep.ownReply
      (h.awaited i call hcall (hstep.waiting hwait) env ((hboxes _).subset henv))
  · intro i call' env hcall' hgot
    obtain ⟨call, hcall, hstep⟩ := hback i call' hcall'
    exact hstep.ownReply ((hstep.got env hgot).elim (h.got i call env hcall) id)
  · intro i j call' call'' hi hj hfi hfj howl
    obtain ⟨call, hcall, hstep⟩ := hback i call' hi
    obtain ⟨other, hother, hstep'⟩ := hback j call'' hj
    refine h.single i j call other hcall hother (hstep.inFlight hfi) (hstep'.inFlight hfj) ?_
    rw [← hstep.fromOwl, ← hstep'.fromOwl, howl]
  · exact fun htidy owl => (h.distinct htidy owl).sublist ((hboxes owl).map _)

variable {w : MailWorld}

theorem MailInv.setCall (h : MailInv sanitize tidy w) (boxes : String → List Envelope)
    (hboxes : ∀ owl, (boxes owl).Sublist (w.boxes owl)) (i : Nat) (f : Call → Call)
    (hgo : ∀ call, w.calls[i]? = some call → GoesOn sanitize tidy boxes i call (f call)) :
    MailInv sanitize tidy ({ w with boxes := boxes }.setCall i f) := by
  refine h.goOn (fun j => if i = j then f else id) (fun j => ?_) hboxes fun j call hcall => ?_
  · simp only [MailWorld.setCall, getElem?_modify]
    split <;> rfl
  · show GoesOn sanitize tidy boxes j call ((if i = j then f else id) call)
    split
    · subst_vars
      exact hgo call hcall
    · exact GoesOn.refl _ _ _

theorem update_sublist {key : String} {kept : List Envelope} (hsub : kept.Sublist (boxes key))
    (owl : String) :
    (update boxes key kept owl).Sublist (boxes owl) := by
  rw [update_apply]
  split
  · rename_i heq
    rw [heq]
    exact hsub
  · exact List.Sublist.refl _

/-! ## One step -/

section

variable (h : MailInv sanitize tidy w)

include h

variable {outcome : ChildOutcome}

theorem sendReply_inv (hcall : w.calls[i]? = some call) (hwait : call.phase = .waiting)
    (hposted : call.child = .posted outcome) (hempty : w.boxes call.fromOwl = []) :
    MailInv sanitize tidy (w.send ⟨replyOf sanitize call outcome, i⟩) := by
  have hflight : call.phase.inFlight = true := by rw [hwait]; rfl
  have hbox : ∀ owl, ∀ env ∈ (w.send ⟨replyOf sanitize call outcome, i⟩).boxes owl,
      env ∈ w.boxes owl ∨ owl = call.fromOwl ∧ env = ⟨replyOf sanitize call outcome, i⟩ := by
    intro owl env henv
    change env ∈ update w.boxes call.fromOwl _ owl at henv
    rw [update_apply] at henv
    split at henv
    · rename_i heq
      rw [heq]
      exact (mem_append.mp henv).imp id fun hlast => ⟨rfl, mem_singleton.mp hlast⟩
    · exact .inl henv
  refine ⟨fun htidy owl env henv => ?_, fun j other hj hwaits env henv => ?_, h.got, h.single,
    fun htidy owl => ?_⟩
  · rcases hbox owl env henv with hold | ⟨rfl, rfl⟩
    · exact h.placed htidy owl env hold
    · exact ⟨call, hcall, hflight, .inl rfl⟩
  · rcases hbox other.fromOwl env henv with hold | ⟨howl, rfl⟩
    · exact h.awaited j other hj hwaits env hold
    · -- The only call of that owl in flight is the one replied to.
      obtain rfl : j = i :=
        h.single j i other call hj hcall (by rw [hwaits]; rfl) hflight howl
      obtain rfl : other = call := Option.some.inj (hj.symm.trans hcall)
      exact ⟨outcome, hposted, rfl⟩
  · show ((update w.boxes call.fromOwl _ owl).map Envelope.call).Nodup
    rw [update_apply]
    split
    · rw [replyOf, hempty]
      exact nodup_singleton i
    · exact h.distinct htidy owl

/-- A call that starts where nothing is waited for by its target and nothing lies in
its own mailbox. -/
theorem delegate_inv {fromOwl toOwl subTask traceId : String}
    (hfree : Unshared w (.delegate fromOwl toOwl subTask traceId)) :
    MailInv sanitize tidy (mailStep sanitize w (.delegate fromOwl toOwl subTask traceId)) := by
  obtain ⟨hempty, hne, hidle, hunaware⟩ := hfree
  have hlookup : ∀ (i : Nat) (call : Call),
      (mailStep sanitize w (.delegate fromOwl toOwl subTask traceId)).calls[i]? = some call →
        w.calls[i]? = some call ∨
          i = w.calls.length ∧
            call = Call.mk fromOwl toOwl subTask traceId .waiting true .running := by
    intro i call hcall
    change (w.calls ++ [_])[i]? = some call at hcall
    rw [List.getElem?_append] at hcall
    split at hcall
    · exact .inl hcall
    · rw [List.getElem?_singleton] at hcall
      split at hcall
      · exact .inr ⟨by omega, (Option.some.inj hcall).symm⟩
      · cases hcall
  have hbox : ∀ owl, ∀ env ∈
      (mailStep sanitize w (.delegate fromOwl toOwl subTask traceId)).boxes owl,
        env ∈ w.boxes owl ∨ owl = toOwl ∧ env.call = w.calls.length := by
    intro owl env henv
    change env ∈ update w.boxes toOwl _ owl at henv
    rw [update_apply] at henv
    split at henv
    · rename_i heq
      rw [heq]
      refine (List.mem_append.mp henv).imp id fun hlast => ⟨rfl, ?_⟩
      rw [List.mem_singleton.mp hlast]
    · exact .inl henv
  refine ⟨fun htidy owl env henv => ?_, fun i call hcall hwait env henv => ?_,
    fun i call env hcall hgot => ?_, fun i j call other hi hj hfi hfj howl => ?_,
    fun htidy owl => ?_⟩
  · rcases hbox owl env henv with hold | ⟨rfl, hnew⟩
    · obtain ⟨call, hcall, hfor⟩ := h.placed htidy owl env hold
      obtain ⟨hlt, -⟩ := List.getElem?_eq_some_iff.mp hcall
      exact ⟨call, (List.getElem?_append_left hlt).trans hcall, hfor⟩
    · refine ⟨Call.mk fromOwl owl subTask traceId .waiting true .running, ?_, rfl, .inr rfl⟩
      rw [hnew]
      exact List.getElem?_concat_length
  · rcases hlookup i call hcall with hold | ⟨rfl, rfl⟩
    · rcases hbox call.fromOwl env henv with hmem | ⟨howl, -⟩
      · exact h.awaited i call hold hwait env hmem
      · exact absurd hwait (hunaware call (List.mem_of_getElem? hold) howl)
    · rcases hbox fromOwl env henv with hmem | ⟨howl, -⟩
      · rw [hempty] at hmem
        cases hmem
      · exact absurd howl hne
  · rcases hlookup i call hcall with hold | ⟨rfl, rfl⟩
    · exact h.got i call env hold hgot
    · cases hgot
  · rcases hlookup i call hi with hold | ⟨rfl, rfl⟩ <;>
      rcases hlookup j other hj with hold' | ⟨rfl, rfl⟩
    · exact h.single i j call other hold hold' hfi hfj howl
    · rw [hidle call (List.mem_of_getElem? hold) howl] at hfi
      cases hfi
    · rw [hidle other (List.mem_of_getElem? hold') howl.symm] at hfj
      cases hfj
    · rfl
  · show ((update w.boxes toOwl _ owl).map Envelope.call).Nodup
    rw [update_apply]
    split
    · rw [List.map_append]
      refine List.Nodup.append (h.distinct htidy _) (List.nodup_singleton _) ?_
      -- An old message is of a call that is there already.
      rintro i hold hnew
      obtain ⟨env, henv, rfl⟩ := List.mem_map.mp hold
      obtain ⟨call, hcall, -⟩ := h.placed htidy _ env henv
      obtain ⟨hlt, -⟩ := List.getElem?_eq_some_iff.mp hcall
      exact absurd (List.mem_singleton.mp hnew) (Nat.ne_of_lt hlt)
    · exact h.distinct htidy owl

theorem MailInv.ended (i : Nat) (f : Call → Call)
    (hf : ∀ call, w.calls[i]? = some call → f call = call ∨
      (tidy → w.clean i call) ∧ call.phase.inFlight = true ∧
        ∃ phase : CallPhase, phase.inFlight = false ∧
          (phase.got = none ∨ phase.got = call.phase.got) ∧
          (f call = { call with phase } ∨
            f call = { call with phase, child := call.child.cancel })) :
    MailInv sanitize tidy (w.setCall i f) := by
  refine h.setCall w.boxes (fun _ => List.Sublist.refl _) i f fun call hcall => ?_
  rcases hf call hcall with hsame | ⟨hclean, hflight, phase, hover, hgot, hcall'⟩
  · rw [hsame]
    exact GoesOn.refl _ _ _
  · have hleft : tidy → ∀ owl, owl = call.fromOwl ∨ owl = call.toOwl →
        ∀ env ∈ w.boxes owl, env.call ≠ i := by
      rintro htidy owl (rfl | rfl) env henv
      · exact hclean htidy env (mem_append_left _ henv)
      · exact hclean htidy env (mem_append_right _ henv)
    have hwas : phase = .waiting → call.phase = .waiting := by
      rintro rfl
      cases hover
    have htaken : ∀ env, phase.got = some env →
        call.phase.got = some env ∨ OwnReply sanitize i call env := by
      intro env henv
      rcases hgot with hnone | hsame
      · rw [hnone] at henv
        cases henv
      · exact .inl (hsame ▸ henv)
    rcases hcall' with heq | heq <;> rw [heq]
    · exact ⟨rfl, rfl, rfl, fun _ hp => hp, hwas, fun _ => hflight, htaken,
        fun htidy _ => .inr (hleft htidy)⟩
    · exact ⟨rfl, rfl, rfl, fun _ hp => (by rw [hp]; rfl), hwas, fun _ => hflight, htaken,
        fun htidy _ => .inr (hleft htidy)⟩

/-- The child's reply goes to the mailbox of a caller that waits for it. -/
theorem childReplies_inv (hfree : Unshared w (.childReplies i outcome)) :
    MailInv sanitize tidy (mailStep sanitize w (.childReplies i outcome)) := by
  simp only [mailStep]
  split
  · exact h
  · rename_i call hcall
    split
    · rename_i hrun
      have hwait : call.phase = .waiting := hfree call hcall hrun
      have hposted : MailInv sanitize tidy (w.setCall i ({ · with child := .posted outcome })) := by
        refine h.setCall w.boxes (fun _ => List.Sublist.refl _) i _ fun c hc => ?_
        obtain rfl : c = call := Option.some.inj (hc.symm.trans hcall)
        exact ⟨rfl, rfl, rfl, fun o ho => (by rw [hrun] at ho; cases ho), fun hw => hw,
          fun hw => hw, fun _ hw => .inl hw, fun _ => .inl⟩
      -- The box holds the call's own reply at most, which the child has not posted yet.
      have hempty : w.boxes call.fromOwl = [] := by
        rw [eq_nil_iff_forall_not_mem]
        intro env henv
        obtain ⟨o, ho, -⟩ := h.awaited i call hcall hwait env henv
        rw [hrun] at ho
        cases ho
      have hnow : (w.setCall i ({ · with child := .posted outcome })).calls[i]? =
          some { call with child := .posted outcome } := by
        simp only [MailWorld.setCall, getElem?_modify_eq, hcall]
        rfl
      have hsent := sendReply_inv hposted hnow hwait rfl hempty
      exact hsent
    · exact h

/-- What a caller that waits takes from its mailbox is its own child's reply. -/
theorem receive_inv : MailInv sanitize tidy (mailStep sanitize w (.receive i)) := by
  simp only [mailStep]
  split
  · exact h
  · rename_i call hcall
    split
    · rename_i env rest hwait _ hbox
      have hrest : rest.Sublist (w.boxes call.fromOwl) := by
        rw [hbox]
        exact sublist_cons_self env rest
      refine h.setCall _ (update_sublist hrest) i _ fun c hc => ?_
      · obtain rfl : c = call := Option.some.inj (hc.symm.trans hcall)
        have hown : OwnReply sanitize i c env :=
          h.awaited i c hcall hwait env (by rw [hbox]; exact mem_cons_self)
        refine ⟨rfl, rfl, rfl, fun o ho => ho, fun hw => (by cases hw),
          fun _ => (by rw [hwait]; rfl), fun e he => .inr ?_, fun _ _ => .inl rfl⟩
        obtain rfl : env = e := Option.some.inj he
        exact hown
    · exact h

theorem mailStep_inv {op : MailOp} (hfree : Unshared w op) (hends : tidy → EndsClean w op) :
    MailInv sanitize tidy (mailStep sanitize w op) := by
  cases op with
  | delegate fromOwl toOwl subTask traceId => exact delegate_inv h hfree
  | childReplies i outcome => exact childReplies_inv h hfree
  | childEnds i =>
    refine h.setCall w.boxes (fun _ => List.Sublist.refl _) i _ fun call _ => ?_
    exact ⟨rfl, rfl, rfl, fun o ho => by simp only [Call.childDone, ho, ChildTask.cancel],
      fun hw => hw, fun hw => hw, fun _ hw => .inl hw, fun _ => .inl⟩
  | receive i => exact receive_inv h
  | settled i =>
    refine h.ended i _ fun call hcall => ?_
    unfold Call.settle
    split
    · rename_i env hsettling
      have hflight : call.phase.inFlight = true := by rw [hsettling]; rfl
      refine .inr ⟨fun htidy => hends htidy call hcall hflight (by rw [hsettling]; exact nofun),
        hflight, .answered env, rfl, .inr (by rw [hsettling]; rfl), .inr rfl⟩
    · exact .inl rfl
  | timeout i =>
    refine h.ended i _ fun call hcall => ?_
    unfold Call.expire
    split
    · rename_i hwait
      exact .inr ⟨fun htidy => hends htidy call hcall hwait, (by rw [hwait]; rfl), .timedOut, rfl,
        .inl rfl, .inl rfl⟩
    · exact .inl rfl
  | abandon i =>
    refine h.ended i _ fun call hcall => ?_
    unfold Call.abandon
    split
    · rename_i hflight
      exact .inr ⟨fun htidy => hends htidy call hcall hflight, hflight, .abandoned, rfl, .inl rfl,
        .inl rfl⟩
    · exact .inl rfl
  | drain owl =>
    refine h.goOn (fun _ => Call.detach owl) (fun i => getElem?_map ..)
      (update_sublist (nil_sublist _)) fun i call _ => ?_
    unfold Call.detach
    split
    · exact ⟨rfl, rfl, rfl, fun _ hp => hp, fun hw => hw, fun hw => hw, fun _ hw => .inl hw,
        fun _ => .inl⟩
    · exact GoesOn.refl _ _ _

theorem MailInv.own : OwnResults sanitize w := by
  intro i call result hcall hresult
  unfold Call.result at hresult
  split at hresult
  · rename_i env hphase
    obtain ⟨outcome, hposted, rfl⟩ := h.got i call env hcall (by rw [hphase]; rfl)
    exact .inr ⟨outcome, hposted, (Option.some.inj hresult).symm⟩
  · exact .inl (Option.some.inj hresult).symm
  · cases hresult

theorem MailInv.law (htidy : tidy) : MailLaw sanitize w := by
  refine ⟨h.own, fun owl env henv => ?_, h.distinct htidy⟩
  obtain ⟨call, hcall, hfor⟩ := h.placed htidy owl env henv
  exact ⟨call, hcall, hfor.inFlight⟩

end

end

/-- In every run in which no mailbox is shared, each result is the reply of the call's own
child; and no message outlives its call if calls end clean besides. -/
theorem delivered_of_undisturbed (sanitize : String → String) (ops : List MailOp)
    (h : Meets (mailStep sanitize) Unshared {} ops) :
    Along (mailStep sanitize) (OwnResults sanitize) {} ops ∧
      (Meets (mailStep sanitize) EndsClean {} ops →
        Along (mailStep sanitize) (MailLaw sanitize) {} ops) := by
  have hinit (tidy : Prop) : MailInv sanitize tidy {} :=
    ⟨by simp, by simp, by simp, by simp, by simp⟩
  constructor
  · exact (along_of_meets (I := MailInv sanitize False)
      (fun _ _ h hfree => mailStep_inv h hfree False.elim) (hinit _) h).mono
        fun _ h => h.own
  · intro hends
    exact (along_of_meets (I := MailInv sanitize True)
      (fun _ _ h hfree => mailStep_inv h hfree.1 fun _ => hfree.2) (hinit _)
        (meets_and.mpr ⟨h, hends⟩)).mono fun _ h => h.law trivial

/-- The secretary asks the scout; the request is dropped with the scout's session. -/
theorem delivered_of_undisturbed_round_trip :
    Along (mailStep id) (MailLaw id) {}
      [.delegate "secretary" "scout" "read" "t1", .childReplies 0 (.finished [("done", false)] []),
        .receive 0, .drain "scout", .settled 0] :=
  (delivered_of_undisturbed id _ (by decide)).2 (by decide)

/-! ## How much a mailbox holds -/

def ChildTask.isPosted : ChildTask → Bool
  | .posted _ => true
  | _ => false

/-- The messages of a call that are for `owl`: its request, and the reply of its child. -/
def Call.messagesFor (owl : String) (call : Call) : Nat :=
  (if call.toOwl = owl then 1 else 0) +
    if call.fromOwl = owl ∧ call.child.isPosted then 1 else 0

def MailWorld.sentTo (w : MailWorld) (owl : String) : Nat :=
  (w.calls.map (Call.messagesFor owl)).sum

theorem sum_map_modify {α : Type*} {g : α → Nat} {f : α → α} {k i : Nat} {xs : List α}
    (hnone : xs[i]? = none → k = 0) (hsome : ∀ x, xs[i]? = some x → g x + k ≤ g (f x)) :
    (xs.map g).sum + k ≤ ((xs.modify i f).map g).sum := by
  induction xs generalizing i with
  | nil =>
    obtain rfl := hnone rfl
    simp
  | cons x xs ih =>
    cases i with
    | zero =>
      have hhere := hsome x rfl
      simp only [modify_zero_cons, map_cons, sum_cons]
      omega
    | succ i =>
      have hrest := ih (i := i) hnone hsome
      simp only [modify_succ_cons, map_cons, sum_cons]
      omega

section

variable {sanitize : String → String} {w : MailWorld} {owl : String}
  {b : String → List Envelope}

theorem sentTo_setCall {i : Nat} {f : Call → Call}
    (hf : ∀ call, (call.messagesFor owl) ≤ (f call).messagesFor owl) :
    w.sentTo owl ≤ (MailWorld.setCall { w with boxes := b } i f).sentTo owl :=
  sum_map_modify (k := 0) (fun _ => rfl) fun call _ => hf call

theorem messagesFor_cancel (call : Call) (phase : CallPhase) :
    call.messagesFor owl ≤
      { call with phase, child := call.child.cancel }.messagesFor owl := by
  unfold Call.messagesFor
  cases call.child <;> exact Nat.le_refl _

theorem length_update_le {key : String} {kept : List Envelope}
    (hkept : kept.length ≤ (boxes key).length) (owl : String) :
    (update boxes key kept owl).length ≤ (boxes owl).length := by
  rw [update_apply]
  split
  · rename_i heq
    rw [heq]
    exact hkept
  · exact Nat.le_refl _

/-- A mailbox grows by no more than what is sent to its owl. -/
theorem length_boxes_mailStep (op : MailOp) (h : (w.boxes owl).length ≤ w.sentTo owl) :
    ((mailStep sanitize w op).boxes owl).length ≤ (mailStep sanitize w op).sentTo owl := by
  cases op with
  | delegate fromOwl toOwl subTask traceId =>
    show (update w.boxes toOwl _ owl).length ≤ ((w.calls ++ [_]).map (Call.messagesFor owl)).sum
    rw [map_append, sum_append, map_singleton, sum_singleton, update_apply]
    split
    · rename_i hto
      subst hto
      rw [length_append]
      exact Nat.add_le_add h (by simp [Call.messagesFor])
    · exact Nat.le_add_right_of_le h
  | childReplies i outcome =>
    simp only [mailStep]
    split
    · exact h
    · rename_i call hcall
      split
      · rename_i hrun
        have hmore := @sum_map_modify _ (Call.messagesFor owl) ({ · with child := .posted outcome })
          (if call.fromOwl = owl then 1 else 0) i w.calls
          (fun hnone => by rw [hcall] at hnone; cases hnone)
          (fun other hother => by
            obtain rfl : other = call := Option.some.inj (hother.symm.trans hcall)
            simp [Call.messagesFor, hrun, ChildTask.isPosted])
        refine Nat.le_trans ?_ hmore
        show (update w.boxes call.fromOwl _ owl).length ≤ w.sentTo owl + _
        rw [update_apply]
        split
        · rename_i howl
          subst howl
          rw [if_pos rfl, length_append]
          exact Nat.add_le_add_right h 1
        · exact Nat.le_add_right_of_le h
      · exact h
  | childEnds i =>
    exact Nat.le_trans h (sentTo_setCall (b := w.boxes) fun call =>
      messagesFor_cancel call call.phase)
  | receive i =>
    simp only [mailStep]
    split
    · exact h
    · rename_i call hcall
      split
      · rename_i env rest _ _ hbox
        have hrest : rest.length ≤ (w.boxes call.fromOwl).length := by
          rw [hbox]
          exact Nat.le_succ _
        exact Nat.le_trans (length_update_le hrest owl)
          (Nat.le_trans h (sentTo_setCall fun call => Nat.le_refl _))
      · exact h
  | settled i =>
    refine Nat.le_trans h (sentTo_setCall (b := w.boxes) fun call => ?_)
    unfold Call.settle
    split
    · exact messagesFor_cancel call _
    · exact Nat.le_refl _
  | timeout i =>
    refine Nat.le_trans h (sentTo_setCall (b := w.boxes) fun call => ?_)
    unfold Call.expire
    split
    · exact Nat.le_refl _
    · exact Nat.le_refl _
  | abandon i =>
    refine Nat.le_trans h (sentTo_setCall (b := w.boxes) fun call => ?_)
    unfold Call.abandon
    split
    · exact Nat.le_refl _
    · exact Nat.le_refl _
  | drain other =>
    show (update w.boxes other [] owl).length ≤ ((w.calls.map _).map _).sum
    refine Nat.le_trans (length_update_le (Nat.zero_le _) owl) (Nat.le_trans h ?_)
    rw [map_map]
    refine Nat.le_of_eq (congrArg sum (map_congr_left fun call _ => ?_))
    show _ = (Call.detach other call).messagesFor owl
    unfold Call.detach
    split
    · rfl
    · rfl

end

/-- In every run whatever, a mailbox holds no more than one request for each call to its owl
and one reply for each of the owl's calls whose child has posted. -/
theorem boxes_bounded (sanitize : String → String) (ops : List MailOp) :
    Along (mailStep sanitize) (fun w => ∀ owl, (w.boxes owl).length ≤ w.sentTo owl) {} ops :=
  along_of_inv (fun _ op h owl => length_boxes_mailStep op (h owl)) (fun _ => Nat.le_refl 0) ops

/-- The scout, asked by the secretary, asks the clerk, and receives the secretary's
request for the clerk's reply. -/
theorem request_taken_for_reply :
    ¬ ∀ (sanitize : String → String) (ops : List MailOp),
      Along (mailStep sanitize) (MailLaw sanitize) {} ops := by
  intro h
  have hlast := (h id [.delegate "secretary" "scout" "read" "t1",
    .delegate "scout" "clerk" "file" "t2", .receive 1, .settled 1]).last
  have hrun : ∃ calls, calls = (run (mailStep id) {} [.delegate "secretary" "scout" "read" "t1",
      .delegate "scout" "clerk" "file" "t2", .receive 1, .settled 1]).calls ∧
      (calls[1]?).map (fun call => (call.child, call.result id)) =
        some (.ended, some { status := .ok, content := "read", resolvedOwl := "clerk" }) :=
    ⟨_, rfl, by decide⟩
  obtain ⟨calls, hcalls, heq⟩ := hrun
  obtain ⟨call, hcall, hpair⟩ := Option.map_eq_some_iff.mp heq
  obtain ⟨hended, hresult⟩ := Prod.mk.inj hpair
  rcases hlast.own 1 call _ (hcalls ▸ hcall) hresult with htimeout | ⟨outcome, hposted, -⟩
  · revert htimeout
    simp
  · rw [hended] at hposted
    cases hposted

end StackOwl.Agents
