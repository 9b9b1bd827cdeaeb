import Mathlib.Logic.Function.Basic
import StackOwl.Notifications.Flush

/-!
# Proactive delivery

`ProactiveJobDeliverer` (`notifications/proactive_job.py`), `DeliveryLedger`
(`notifications/delivery_ledger.py`), `ProactiveDeliverer.deliver`
(`notifications/deliverer.py`) and `NotificationRouter.deliver`
(`notifications/router.py`).  For each channel of a job, an attempt claims the occurrence
in the ledger, hands the message to the deliverer, and marks the ledger with what came of
it.  The deliverer asks the router, sends, retries once, reroutes to the fallback channel,
and records what it could not send in the outbox.  What the router batches is queued, and
flushed by the ticks of the digest.

Any number of attempts are under way at a time, each between two awaits; statements fail,
and the process may stop.  A send that returns has been accepted; one that raises has not.
Kept beside the tables, and read by nothing in them: the attempts so far, and what the
channels have accepted.

`OnceAndKept` is what is claimed of a world, `DeliveredStays` of a step, and `Regular` the
condition on steps under which they are.
-/

namespace StackOwl.Notifications

open Lib

/-! ## The router's decision -/

inductive FocusMode where
  | off
  | soft
  | hard

/-- What the router finds: the category's subscription, the quiet hours, the focus mode, and
the cap on deliveries an hour with how many there were. -/
structure RouterInputs where
  subscribed : Bool := true
  quiet : Bool := false
  focusMode : FocusMode := .off
  cap : Int := 0
  sent : Int := 0

/-- `NotificationRouter._decide`. -/
def decideRoute (urgency : Urgency) (quiet : Bool) (focusMode : FocusMode) : DeliveryStatus :=
  if urgency = .critical then .delivered
  else if quiet then .batched
  else
    match focusMode with
    | .soft => .batched
    | .hard => if urgency = .low then .suppressed else .batched
    | .off => .delivered

/-- The decision of `NotificationRouter.deliver` for a notification of a job. -/
def RouterInputs.decision (inputs : RouterInputs) (urgency : Urgency) : DeliveryStatus :=
  if inputs.subscribed then
    match decideRoute urgency inputs.quiet inputs.focusMode with
    | .delivered =>
      -- `_apply_frequency_cap`
      if 0 < inputs.cap ∧ inputs.cap ≤ inputs.sent then .batched else .delivered
    | decision => decision
  else .suppressed

/-! ## Attempts -/

inductive LedgerState where
  | dispatched
  | delivered
  | failed

/-- The primary key of `delivery_attempts`: job, occurrence and channel. -/
abbrev Key := String × String × String

/-- Where an attempt is.  One that is `raised` has left `deliver_for_job` by an exception, one
that is `cut` went down with its process. -/
inductive AttemptStage where
  | routing
  | filing
  | sending (retried : Bool)
  | rerouting (retried : Bool)
  | recording
  | marking
  | over
  | raised
  | cut
  deriving DecidableEq

/-- An attempt to deliver a message of an occurrence on a channel, whose claim won.
`returned` is what the deliverer returned, `rerouted` that the fallback channel accepted. -/
structure Attempt where
  jobId : String
  occurrenceKey : String
  channel : String
  target : String
  message : String
  category : String
  urgency : Urgency
  surfaceUndelivered : Bool := true
  stage : AttemptStage := .routing
  notificationId : Option String := none
  returned : Option DeliveryStatus := none
  rerouted : Bool := false

variable (a : Attempt)

def Attempt.key : Key := (a.jobId, a.occurrenceKey, a.channel)

def UNREROUTED_CATEGORIES : List String := ["control_plane_setup"]

/-- What `record_undelivered` inserts, if it inserts. -/
def recordUndelivered (identityKey body reason channel category : String) (urgency : Urgency)
    (jobId : String) (ok : Bool) : Option OutboxRow :=
  if identityKey = "" ∨ body = "" ∨ ok = false then none
  else
    some
      { identityKey, body, reason
        channel := some channel
        category := some category
        urgency := some urgency
        jobId := some jobId }

def Attempt.undelivered (reason : String) (ok : Bool) : Option OutboxRow :=
  recordUndelivered a.target a.message reason a.channel a.category a.urgency a.jobId ok

def Attempt.logRow (notificationId : String) (deliveryStatus : DeliveryStatus) (now : Int)
    (hash : String → String) : LogRow where
  notificationId := notificationId
  urgency := a.urgency
  category := a.category
  channel := a.channel
  jobId := some a.jobId
  deliveryStatus := deliveryStatus
  createdAt := now
  deliveredAt := if deliveryStatus = .delivered then some now else none
  messageHash := hash a.message

def Attempt.queueRow (notificationId : String) (scheduledFor : Int) (hash : String → String)
    : QueueRow where
  notificationId := notificationId
  messageHash := hash a.message
  urgency := a.urgency
  category := a.category
  channel := a.channel
  jobId := some a.jobId
  scheduledFor := scheduledFor
  message := some a.message

/-- The ledger, the attempts, the digest with its tables, the outbox rows of the attempts, each
with its notification, and what was accepted: job, occurrence and the channel that accepted. -/
structure ProactiveWorld where
  ledger : Key → Option LedgerState := fun _ => none
  attempts : List Attempt := []
  digest : DigestWorld := {}
  outbox : List (String × OutboxRow) := []
  accepted : List Key := []

/-- One thing that can happen next. -/
inductive ProactiveOp where
  /-- `claim_dispatch`; one that wins hands its message to the deliverer. -/
  | claim (a : Attempt) (ok : Bool)
  /-- The router decides and makes its first write. -/
  | route (i : Nat) (notificationId styled : String) (inputs : RouterInputs)
      (now scheduledFor : Int) (ok : Bool)
  | routerRaises (i : Nat)
  /-- The router files what it has suppressed. -/
  | fileSuppressed (i : Nat) (now : Int) (ok : Bool)
  /-- A send returns, or raises. -/
  | send (i : Nat) (accepted : Bool)
  /-- The channel is not available. -/
  | unavailable (i : Nat)
  /-- The deliverer records what it could not send. -/
  | record (i : Nat) (ok : Bool)
  /-- `mark`. -/
  | mark (i : Nat) (ok : Bool)
  | digest (op : DigestOp)
  /-- The process stops. -/
  | stop

def Attempt.cutOff : Attempt :=
  match a.stage with
  | .over => a
  | .raised => a
  | _ => { a with stage := .cut }

section
variable (hash : String → String) (fallback : String)

def Attempt.giveUp : Attempt :=
  if a.surfaceUndelivered then { a with stage := .recording }
  else { a with stage := .marking, returned := some .failed }

/-- The transport on the attempt's own channel has failed: `_maybe_reroute`. -/
def Attempt.sendFails : Attempt :=
  if a.category ∈ UNREROUTED_CATEGORIES ∨ fallback = "" ∨ fallback = a.channel then a.giveUp
  else { a with stage := .rerouting false }

namespace ProactiveWorld

variable (w : ProactiveWorld)

def setAttempt (i : Nat) (a : Attempt) : ProactiveWorld :=
  { w with attempts := w.attempts.set i a }

def claim (a : Attempt) (ok : Bool) : ProactiveWorld :=
  let fresh : Attempt :=
    { a with stage := .routing, notificationId := none, returned := none, rerouted := false }
  if ok then
    match w.ledger a.key with
    | some .dispatched => w
    | some .delivered => w
    | _ =>
      { w with
        ledger := Function.update w.ledger a.key (some .dispatched)
        attempts := w.attempts ++ [fresh] }
  else w

/-- `NotificationRouter.deliver`, up to its log row. -/
def route (i : Nat) (a : Attempt) (notificationId styled : String) (inputs : RouterInputs)
    (now scheduledFor : Int) (ok : Bool) : ProactiveWorld :=
  let routed : Attempt := { a with notificationId := some notificationId }
  match inputs.decision a.urgency with
  | .delivered =>
    { w.setAttempt i { routed with message := styled, stage := .sending false } with
      digest := digestStep true w.digest
        (.file (a.logRow notificationId .delivered now hash) ok) }
  | .batched =>
    match ok, w.digest.queue.insert (a.queueRow notificationId scheduledFor hash) with
    | true, some _ =>
      { w.setAttempt i { routed with stage := .marking, returned := some .batched } with
        digest := digestStep true w.digest
          (.enqueue (a.queueRow notificationId scheduledFor hash) a.message now true) }
    | _, _ => w.setAttempt i { a with stage := .raised }
  | _ =>
    { w.setAttempt i { routed with stage := .filing } with
      outbox := w.outbox ++
        (a.undelivered "suppressed" ok).toList.map fun row => (notificationId, row) }

def accept (i : Nat) (a : Attempt) (rerouted : Bool) : ProactiveWorld :=
  { w.setAttempt i { a with stage := .marking, returned := some .delivered, rerouted } with
    accepted := w.accepted ++
      [(a.jobId, a.occurrenceKey, if rerouted then fallback else a.channel)] }

/-- A send returns, or raises and is retried once. -/
def send (i : Nat) (a : Attempt) (accepted : Bool) : ProactiveWorld :=
  match a.stage, accepted with
  | .sending _, true => w.accept fallback i a false
  | .sending false, false => w.setAttempt i { a with stage := .sending true }
  | .sending true, false => w.setAttempt i (a.sendFails fallback)
  | .rerouting _, true => w.accept fallback i a true
  | .rerouting false, false => w.setAttempt i { a with stage := .rerouting true }
  | .rerouting true, false => w.setAttempt i a.giveUp
  | _, _ => w

/-- What the flush of a batched message adds to what was accepted. -/
def flushed (op : DigestOp) : List Key :=
  match op, w.digest.tick with
  | .proceed _ .delivered, some t =>
    if t.stage = .transport then
      (w.attempts.find? fun a => a.notificationId == some t.row.notificationId).toList.map
        Attempt.key
    else []
  | _, _ => []

end ProactiveWorld

def proactiveStep (w : ProactiveWorld) : ProactiveOp → ProactiveWorld
  | .claim a ok => w.claim a ok
  | .route i notificationId styled inputs now scheduledFor ok =>
    match w.attempts[i]? with
    | some a =>
      if a.stage = .routing then
        w.route hash i a notificationId styled inputs now scheduledFor ok
      else w
    | none => w
  | .routerRaises i =>
    match w.attempts[i]? with
    | some a => if a.stage = .routing then w.setAttempt i { a with stage := .raised } else w
    | none => w
  | .fileSuppressed i now ok =>
    match w.attempts[i]? with
    | some a =>
      match a.stage, a.notificationId with
      | .filing, some notificationId =>
        { w.setAttempt i { a with stage := .marking, returned := some .suppressed } with
          digest := digestStep true w.digest
            (.file (a.logRow notificationId .suppressed now hash) ok) }
      | _, _ => w
    | none => w
  | .send i accepted =>
    match w.attempts[i]? with
    | some a => w.send fallback i a accepted
    | none => w
  | .unavailable i =>
    match w.attempts[i]? with
    | some a =>
      match a.stage with
      | .sending _ => w.setAttempt i (a.sendFails fallback)
      | .rerouting _ => w.setAttempt i a.giveUp
      | _ => w
    | none => w
  | .record i ok =>
    match w.attempts[i]? with
    | some a =>
      match a.stage, a.notificationId with
      | .recording, some notificationId =>
        { w.setAttempt i { a with stage := .marking, returned := some .failed } with
          outbox := w.outbox ++
            (a.undelivered "transport_failed" ok).toList.map fun row => (notificationId, row) }
      | _, _ => w
    | none => w
  | .mark i ok =>
    match w.attempts[i]? with
    | some a =>
      match a.stage, a.returned with
      | .marking, some status =>
        { w.setAttempt i { a with stage := .over } with
          ledger :=
            if ok then
              Function.update w.ledger a.key
                (some (if status = .delivered then .delivered else .failed))
            else w.ledger }
      | _, _ => w
    | none => w
  | .digest op =>
    { w with digest := digestStep true w.digest op, accepted := w.accepted ++ w.flushed op }
  | .stop =>
    { w with
      attempts := w.attempts.map Attempt.cutOff
      digest := digestStep true w.digest .stop }

end

/-! ## What is claimed of a run -/

def Attempt.occurrence : String × String := (a.jobId, a.occurrenceKey)

/-- What the message of an attempt was accepted as, where `sent` is what the digest has
transported. -/
def Attempt.acceptedAs (fallback : String) (sent : List String) (a : Attempt) : Option Key :=
  match a.returned, a.notificationId with
  | some .delivered, _ =>
    some (a.jobId, a.occurrenceKey, if a.rerouted then fallback else a.channel)
  | some .batched, some notificationId => if notificationId ∈ sent then some a.key else none
  | _, _ => none

/-- A channel has accepted the message. -/
def Delivered (fallback : String) (w : ProactiveWorld) (a : Attempt) : Prop :=
  ∃ key ∈ w.accepted, a.acceptedAs fallback w.digest.sent = some key

/-- The message is recorded in the outbox, with its body. -/
def Recorded (w : ProactiveWorld) (a : Attempt) : Prop :=
  ∃ entry ∈ w.outbox ++ w.digest.outbox,
    a.notificationId = some entry.1 ∧ entry.2.body = a.message

/-- The message is queued with its body, and was not transported or recorded. -/
def Waiting (w : ProactiveWorld) (a : Attempt) : Prop :=
  ∃ r ∈ w.digest.queue.rows, a.notificationId = some r.notificationId ∧
    r.message = some a.message ∧ r.notificationId ∉ w.digest.sent ∧
    ∀ entry ∈ w.outbox ++ w.digest.outbox, entry.1 ≠ r.notificationId

instance (fallback : String) (w : ProactiveWorld) (a : Attempt) :
    Decidable (Delivered fallback w a) :=
  inferInstanceAs (Decidable (∃ key ∈ w.accepted, _))

instance (w : ProactiveWorld) (a : Attempt) : Decidable (Recorded w a) :=
  inferInstanceAs (Decidable (∃ entry ∈ w.outbox ++ w.digest.outbox, _ ∧ _))

instance (w : ProactiveWorld) (a : Attempt) : Decidable (Waiting w a) :=
  inferInstanceAs (Decidable (∃ r ∈ w.digest.queue.rows, _ ∧ _ ∧ _ ∧ _))

def Placed (fallback : String) (w : ProactiveWorld) (a : Attempt) : Prop :=
  Delivered fallback w a ∧ ¬ Waiting w a ∧ ¬ Recorded w a ∨
    ¬ Delivered fallback w a ∧ Waiting w a ∧ ¬ Recorded w a ∨
    ¬ Delivered fallback w a ∧ ¬ Waiting w a ∧ Recorded w a

instance (fallback : String) (w : ProactiveWorld) (a : Attempt) :
    Decidable (Placed fallback w a) :=
  inferInstanceAs (Decidable (_ ∨ _ ∨ _))

/-- The outbox takes the message. -/
def Recordable (ok : Bool) : Prop :=
  a.target ≠ "" ∧ a.message ≠ "" ∧ ok = true

instance (a : Attempt) (ok : Bool) : Decidable (Recordable a ok) :=
  inferInstanceAs (Decidable (_ ∧ _ ∧ _))

/-- What the router decides can be done: the queue takes what is batched, and the outbox what
is suppressed. -/
def RouteRecords (decision : DeliveryStatus) (a : Attempt) (ok : Bool) : Prop :=
  match decision with
  | .delivered => True
  | .batched => ok = true
  | _ => Recordable a ok

instance (decision : DeliveryStatus) (a : Attempt) (ok : Bool) :
    Decidable (RouteRecords decision a ok) :=
  match decision with
  | .delivered => isTrue trivial
  | .batched => inferInstanceAs (Decidable (ok = true))
  | .suppressed | .failed => inferInstanceAs (Decidable (Recordable a ok))

/-- What was batched is not claimed again; the fallback channel takes a message only where it
is not a channel of the occurrence, and once; the router does not raise; notification ids are
new; the outbox takes what it is given; and the digest loses nothing. -/
def Regular (fallback : String) (w : ProactiveWorld) : ProactiveOp → Prop
  | .claim a _ => ∀ a' ∈ w.attempts, (a'.key = a.key → a'.returned ≠ some .batched) ∧
      (a.channel = fallback → a'.occurrence = a.occurrence → a'.rerouted = false)
  | .route i notificationId _ inputs _ _ ok => notificationId ∉ w.digest.ids ∧
      (∀ a' ∈ w.attempts, a'.notificationId ≠ some notificationId) ∧
      ∀ a ∈ w.attempts[i]?, RouteRecords (inputs.decision a.urgency) a ok
  | .routerRaises _ => False
  | .send i accepted => ∀ a ∈ w.attempts[i]?, accepted = true →
      (a.stage = .rerouting false ∨ a.stage = .rerouting true) →
      ∀ a' ∈ w.attempts, a'.occurrence = a.occurrence →
        a'.channel ≠ fallback ∧ a'.rerouted = false
  | .record i ok => ∀ a ∈ w.attempts[i]?, Recordable a ok
  | .digest op => FlushIntact w.digest op ∧
      ∀ id ∈ op.newId, ∀ a ∈ w.attempts, a.notificationId ≠ some id
  | .stop => FlushIntact w.digest .stop
  | .fileSuppressed .. => True
  | .unavailable _ => True
  | .mark .. => True

instance (fallback : String) (w : ProactiveWorld) : ∀ op, Decidable (Regular fallback w op)
  | .claim .. => inferInstanceAs (Decidable (∀ a' ∈ w.attempts, (_ → _) ∧ (_ → _ → _)))
  | .route i .. => inferInstanceAs (Decidable (_ ∧ (∀ a' ∈ w.attempts, _) ∧
      ∀ a ∈ w.attempts[i]?, RouteRecords _ a _))
  | .routerRaises _ => isFalse id
  | .send i _ => inferInstanceAs (Decidable (∀ a ∈ w.attempts[i]?, _ → _ →
      ∀ a' ∈ w.attempts, _ → _))
  | .record i _ => inferInstanceAs (Decidable (∀ a ∈ w.attempts[i]?, Recordable a _))
  | .digest op => inferInstanceAs (Decidable (_ ∧ ∀ id ∈ op.newId, ∀ a ∈ w.attempts, _))
  | .stop => inferInstanceAs (Decidable (FlushIntact w.digest .stop))
  | .fileSuppressed .. | .unavailable _ | .mark .. => isTrue trivial

end StackOwl.Notifications
