import Mathlib.Data.List.Nodup
import Mathlib.Data.List.Perm.Basic
import Mathlib.Logic.Function.Basic
import StackOwl.Durable.FailureClass
import StackOwl.Lib.Run
import StackOwl.Lib.Text

/-!
# Steering a running turn

`TurnRegistry` (`gateway/turn_registry.py`), the steering callback and the stop seam of
`pipeline/steps/execute.py`.  A session has one running turn and a queue of intakes.  A
message for a running turn goes to the mailbox of the turn, which the turn empties at
the boundaries of its loop; past that it becomes an intake of the queue.

Nothing is awaited while a turn's lock is held, so each call of the registry is one
step, and so is the sweep up to its hooks.  What is awaited between a boundary that
stops a turn and the re-routing of what it drained is a step of its own.  Each accepted
text is numbered; the numbers, and the lists of what became of the texts, are kept
beside the registry and read by nothing in it.

The verdict of the recovery actuator and the state of the turns' tasks are inputs.

## Main results

* `queues_bounded` — no queue and no mailbox is ever over its bound.
* `tally_eq_accepted` — over every run, a text that was accepted is in one place, if the
  mailboxes of turns that were removed count as one.
* `kept_of_orderly` — where no turn is removed before its mailbox is drained, it is in
  its turn's mailbox, folded into that turn, queued as an intake of its own, or dropped
  for one of three reasons.
* `oldest_is_superseded` — the ninth text a turn has not drained drops the first.
-/

namespace StackOwl.Gateway

open Lib List
open Durable (strip)

/-! ## Turns and intakes -/

def MAILBOX_MAX : Nat := 8

def MAX_WEDGE_REDISPATCH : Int := 2

def REDISPATCH_SUFFIX : String := "-redispatch-"

inductive TurnStatus where
  | running
  | finalizing
  | done
  deriving DecidableEq

/-- `_NEXT`, the legal one-way transitions. -/
def TurnStatus.next : TurnStatus → Option TurnStatus
  | .running => some .finalizing
  | .finalizing => some .done
  | .done => none

/-- The target of a turn: a chat of Telegram, or a channel or thread of Slack. -/
inductive Target where
  | chat (id : Int)
  | channel (id : String)

/-- A text `try_steer` accepted, with its number, and the turn and session it was
accepted for. -/
structure Steer where
  number : Nat
  text : String
  turn : String
  session : String
  deriving DecidableEq

/-- `PendingIntake`, with the session whose queue it is in and the steer it was made of,
if it was made of one. -/
structure PendingIntake where
  requestId : String
  originalInput : String
  target : Option Target
  session : String
  steer : Option Steer := none

/-- `Turn`, without the fields no call of the registry reads. -/
structure Turn where
  turnId : String
  sessionKey : String
  target : Option Target
  originalInput : String
  status : TurnStatus := .running
  stopRequested : Bool := false
  mailbox : List Steer := []

/-- `_put_steer_superseding`: the turn, and the oldest steer where the mailbox was full. -/
def Turn.putSteer (turn : Turn) (steer : Steer) : Turn × Option Steer :=
  if turn.mailbox.length < MAILBOX_MAX then
    ({ turn with mailbox := turn.mailbox ++ [steer] }, none)
  else ({ turn with mailbox := turn.mailbox.tail ++ [steer] }, turn.mailbox.head?)

/-- `_drain_mailbox_locked`; what was in it is read before. -/
def Turn.drained (turn : Turn) : Turn :=
  { turn with mailbox := [] }

/-- The two halves of `finalize_and_drain` on the turn. -/
def Turn.finalized (turn : Turn) : Turn :=
  { turn with
    status := if turn.status = .running then .finalizing else turn.status
    mailbox := [] }

/-- `TurnStopped` on its way to the stop seam. -/
structure TurnStopped where
  requestId : String
  drainedSteers : List Steer

/-- The `[steering]` message of a boundary, with the steers it was made of. -/
structure Fold where
  turn : String
  steers : List Steer
  content : String

/-- Why a steer was dropped; each is logged. -/
inductive DropReason where
  | superseded
  | queueFull
  | noLiveTurn

def DropReason.shown : DropReason → Bool
  | .superseded => false
  | .queueFull => false
  | .noLiveTurn => false

/-- The registry, and beside it what became of the steers.  The queues of the sessions
are one list. -/
structure Registry where
  perSessionQueueMax : Nat
  turns : List Turn := []
  running : String → Option String := fun _ => none
  queue : List PendingIntake := []
  stopped : List TurnStopped := []
  folds : List Fold := []
  started : List PendingIntake := []
  dropped : List (DropReason × Steer) := []
  removed : List Turn := []
  accepted : List Steer := []

def Registry.init (perSessionQueueMax : Nat) : Registry where
  perSessionQueueMax := max 1 perSessionQueueMax

namespace Registry

variable (w : Registry) (requestId : String)

def get : Option Turn :=
  w.turns.find? fun turn => turn.turnId == requestId

def setTurn (f : Turn → Turn) : Registry :=
  { w with
    turns := w.turns.map fun turn => if turn.turnId = requestId then f turn else turn }

/-! ## The intake queues -/

def depth (session : String) : Nat :=
  w.queue.countP fun intake => intake.session == session

/-- `enqueue`; `none` is `QueueFull`. -/
def enqueue (intake : PendingIntake) : Option Registry :=
  if w.perSessionQueueMax ≤ w.depth intake.session then none
  else some { w with queue := w.queue ++ [intake] }

/-- `pop_next`: the head of the session's queue is taken up. -/
def popNext (session : String) : Registry :=
  match w.queue.find? fun intake => intake.session == session with
  | none => w
  | some intake =>
    { w with
      queue := w.queue.eraseP fun intake => intake.session == session
      started := w.started ++ [intake] }

/-! ## Steering -/

/-- What `try_steer` returns, or its `QueueFull`. -/
inductive Steered where
  | STEER
  | NEW
  | queueFull

def convert (steer : Steer) (requestIdNew : String) (target : Option Target) : Registry × Steered :=
  match w.enqueue ⟨requestIdNew, steer.text, target, steer.session, some steer⟩ with
  | none => (w, .queueFull)
  | some w' => ({ w' with accepted := w.accepted ++ [steer] }, .NEW)

def trySteer (text sessionKey requestIdNew : String) (target : Option Target)
    : Registry × Steered :=
  let steer : Steer := ⟨w.accepted.length, text, requestId, sessionKey⟩
  match w.get requestId with
  | none => w.convert steer requestIdNew target
  | some turn =>
    if turn.status = .running then
      ({ w.setTurn requestId fun turn => (turn.putSteer steer).1 with
          dropped := w.dropped ++
            (turn.putSteer steer).2.toList.map fun oldest => (.superseded, oldest)
          accepted := w.accepted ++ [steer] }, .STEER)
    else w.convert steer requestIdNew target

/-- `make_steering_callback`: the turn drains its mailbox and folds what was in it, or
stops with it. -/
def boundary : Registry :=
  match w.get requestId with
  | none => w
  | some turn =>
    let w' := w.setTurn requestId Turn.drained
    if turn.stopRequested then
      { w' with stopped := w.stopped ++ [⟨requestId, turn.mailbox⟩] }
    else if turn.mailbox = [] then w'
    else
      { w' with
        folds := w.folds ++ [{
          turn := requestId
          steers := turn.mailbox
          content := "[steering] " ++ " ".intercalate (turn.mailbox.map Steer.text) }] }

def requestStop : Registry :=
  w.setTurn requestId fun turn => { turn with stopRequested := true }

def survivorId (turnId : String) (i : Nat) : String :=
  turnId ++ "-survivor-" ++ i.repr

/-- `_reroute_survivors_locked`, from ordinal `i` on. -/
def reroute (turn : Turn) : Nat → List Steer → Registry → Registry
  | _, [], w => w
  | i, steer :: rest, w =>
    reroute turn (i + 1) rest <|
      match w.enqueue ⟨survivorId turn.turnId i, steer.text, turn.target, turn.sessionKey,
          some steer⟩ with
      | none => { w with dropped := w.dropped ++ [(.queueFull, steer)] }
      | some w' => w'

def requeueSteersAsNew (steers : List Steer) : Registry :=
  if steers = [] then w
  else
    match w.get requestId with
    | none => { w with dropped := w.dropped ++ steers.map fun steer => (.noLiveTurn, steer) }
    | some turn => reroute turn 0 steers w

/-- The stop seam of the `i`th `TurnStopped` in flight. -/
def stopSeam (i : Nat) : Registry :=
  match w.stopped[i]? with
  | none => w
  | some stop =>
    { w with stopped := w.stopped.eraseIdx i }.requeueSteersAsNew stop.requestId
      stop.drainedSteers

/-- `finalize_and_drain`; the survivors it returns are the mailbox. -/
def finalizeAndDrain : Registry :=
  match w.get requestId with
  | none => w
  | some turn =>
    reroute turn 0 turn.mailbox (w.setTurn requestId Turn.finalized)

/-! ## The life of a turn -/

def casStatus (expect new : TurnStatus) :
    Registry × Bool :=
  match w.get requestId with
  | none => (w, false)
  | some turn =>
    if turn.status ≠ expect ∨ expect.next ≠ some new then (w, false)
    else (w.setTurn requestId fun turn => { turn with status := new }, true)

def register (sessionKey : String) (target : Option Target) (originalInput : String) : Registry :=
  let turn : Turn := { turnId := requestId, sessionKey, target, originalInput }
  { w with
    turns :=
      match w.get requestId with
      | none => w.turns ++ [turn]
      | some _ => (w.setTurn requestId fun _ => turn).turns
    running := Function.update w.running sessionKey (some requestId)
    removed := w.removed ++ (w.get requestId).toList }

def deregister : Registry :=
  match w.get requestId with
  | none => w
  | some turn =>
    { w with
      turns := w.turns.filter fun turn => turn.turnId != requestId
      running :=
        if w.running turn.sessionKey = some requestId then
          Function.update w.running turn.sessionKey none
        else w.running
      removed := w.removed ++ [turn] }

/-! ## The sweep -/

/-- What follows the last occurrence of `sep`, for `str.rpartition`. -/
def afterLast (sep : List Char) : List Char → Option (List Char)
  | [] => none
  | c :: cs =>
    match afterLast sep cs with
    | some tail => some tail
    | none => if sep.isPrefixOf (c :: cs) then some ((c :: cs).drop sep.length) else none

/-- Decimal digits, with single underscores between them. -/
def natOfDigits (digits : List Char) : Option Nat :=
  if (digits.splitOn '_').all fun group => !group.isEmpty && group.all Char.isDigit then
    some (Nat.ofDigitChars 10 (digits.filter (· ≠ '_')) 0)
  else none

/-- `int(text)` of a text in ASCII; `none` is `ValueError`. -/
def intOf (text : List Char) : Option Int :=
  match strip text with
  | '-' :: digits => (natOfDigits digits).map fun n => -n
  | '+' :: digits => (natOfDigits digits).map fun n => n
  | digits => (natOfDigits digits).map fun n => n

def wedgeRedispatchGeneration : Int :=
  match afterLast REDISPATCH_SUFFIX.toList requestId.toList with
  | none => 0
  | some tail => (intOf tail).getD 0

/-- The request id of the next re-dispatch of a wedged turn. -/
def redispatchId (turnId : String) : String :=
  turnId ++ REDISPATCH_SUFFIX ++ toString (wedgeRedispatchGeneration turnId + 1)

def redispatchWedgedGoal (turn : Turn) (mayRedispatch : Bool) : Registry :=
  if MAX_WEDGE_REDISPATCH ≤ wedgeRedispatchGeneration turn.turnId ∨ mayRedispatch = false then
    w
  else
    (w.enqueue {
      requestId := redispatchId turn.turnId
      originalInput := turn.originalInput
      target := turn.target
      session := turn.sessionKey }).getD w

/-- One round of the loop of `sweep`, for a turn whose task is `done` and whose time is
up. -/
def reap (done expired mayRedispatch : Bool) : Registry :=
  match w.get requestId with
  | none => w
  | some turn =>
    if done = true ∧ (turn.status ≠ .done ∨ expired = true) then
      if w.running turn.sessionKey = some requestId ∧ turn.status ≠ .done then
        (w.deregister requestId).redispatchWedgedGoal turn mayRedispatch
      else w.deregister requestId
    else w

/-- The loop of `sweep` over the keys that are left. -/
def sweepKeys (done expired : String → Bool) (mayRedispatch : Bool) :
    List String → Registry → Registry
  | [], w => w
  | requestId :: rest, w =>
    sweepKeys done expired mayRedispatch rest
      (w.reap requestId (done requestId) (expired requestId) mayRedispatch)

/-- `sweep`, over the keys it finds. -/
def sweep (done expired : String → Bool) (mayRedispatch : Bool) : Registry :=
  sweepKeys done expired mayRedispatch (w.turns.map Turn.turnId) w

end Registry

/-! ## Runs -/

/-- One thing that can happen next. -/
inductive TurnOp where
  | enqueue (sessionKey originalInput requestId : String) (target : Option Target)
  | trySteer (requestId text sessionKey requestIdNew : String) (target : Option Target)
  | boundary (requestId : String)
  | requestStop (requestId : String)
  | stopSeam (i : Nat)
  | finalizeAndDrain (requestId : String)
  | casStatus (requestId : String) (expect new : TurnStatus)
  | register (requestId sessionKey : String) (target : Option Target) (originalInput : String)
  | deregister (requestId : String)
  | popNext (sessionKey : String)
  | sweep (done expired : String → Bool) (mayRedispatch : Bool)

/-- What happens next.  A message the queue has no room for is turned away with a
notice. -/
def turnStep (w : Registry) : TurnOp → Registry
  | .enqueue sessionKey originalInput requestId target =>
    (w.enqueue ⟨requestId, originalInput, target, sessionKey, none⟩).getD w
  | .trySteer requestId text sessionKey requestIdNew target =>
    (w.trySteer requestId text sessionKey requestIdNew target).1
  | .boundary requestId => w.boundary requestId
  | .requestStop requestId => w.requestStop requestId
  | .stopSeam i => w.stopSeam i
  | .finalizeAndDrain requestId => w.finalizeAndDrain requestId
  | .casStatus requestId expect new => (w.casStatus requestId expect new).1
  | .register requestId sessionKey target originalInput =>
    w.register requestId sessionKey target originalInput
  | .deregister requestId => w.deregister requestId
  | .popNext sessionKey => w.popNext sessionKey
  | .sweep done expired mayRedispatch => w.sweep done expired mayRedispatch

/-! ## Where the texts are -/

namespace Registry

def waiting (w : Registry) : List Steer := w.turns.flatMap Turn.mailbox

/-- The steers on their way to the stop seam. -/
def carried (w : Registry) : List Steer := w.stopped.flatMap TurnStopped.drainedSteers

def folded (w : Registry) : List Steer := w.folds.flatMap Fold.steers

def queued (w : Registry) : List Steer := w.queue.filterMap PendingIntake.steer

def takenUp (w : Registry) : List Steer := w.started.filterMap PendingIntake.steer

def lost (w : Registry) : List Steer := w.dropped.map Prod.snd

/-- The steers in the mailboxes of turns that were removed. -/
def leftBehind (w : Registry) : List Steer := w.removed.flatMap Turn.mailbox

def whereabouts (w : Registry) : List Steer :=
  w.waiting ++ w.carried ++ w.folded ++ w.queued ++ w.takenUp ++ w.lost

/-- How often the steer is somewhere. -/
def tally (w : Registry) (steer : Steer) : Nat :=
  (w.whereabouts ++ w.leftBehind).count steer

/-- The request ids of the intakes in the queues and of the turns. -/
def liveIds (w : Registry) : List String :=
  w.queue.map PendingIntake.requestId ++ w.turns.map Turn.turnId

end Registry

/-- Every text that was accepted is in one place, once; a turn folds what was accepted for
it, an intake made of a text is of the text's session and has an id of its own, and
nothing is left in the mailbox of a turn that was removed. -/
structure Kept (w : Registry) : Prop where
  once : ∀ steer ∈ w.accepted, w.whereabouts.count steer = 1
  accepted : ∀ steer ∈ w.whereabouts, steer ∈ w.accepted
  waiting : ∀ turn ∈ w.turns, ∀ steer ∈ turn.mailbox, steer.turn = turn.turnId
  folded : ∀ fold ∈ w.folds, ∀ steer ∈ fold.steers, steer.turn = fold.turn
  queued : ∀ intake ∈ w.queue, ∀ steer ∈ intake.steer,
    intake.session = steer.session ∧ intake.originalInput = steer.text
  distinct : w.liveIds.Nodup
  emptied : ∀ turn ∈ w.removed, turn.mailbox = []

/-! ## The ledger of the texts -/

/-- The numbers of the accepted texts are their places, and each is somewhere, once. -/
structure Ledger (w : Registry) : Prop where
  ids : (w.turns.map Turn.turnId).Nodup
  numbers : w.accepted.map Steer.number = List.range w.accepted.length
  placed : ∀ steer, w.tally steer = w.accepted.count steer

theorem tally_eq (w : Registry) (steer : Steer) :
    w.tally steer =
      (w.turns.flatMap Turn.mailbox).count steer +
        (w.stopped.flatMap TurnStopped.drainedSteers).count steer +
        (w.folds.flatMap Fold.steers).count steer +
        (w.queue.filterMap PendingIntake.steer).count steer +
        (w.started.filterMap PendingIntake.steer).count steer +
        (w.dropped.map Prod.snd).count steer + (w.removed.flatMap Turn.mailbox).count steer := by
  simp only [Registry.tally, Registry.whereabouts, Registry.waiting, Registry.carried,
    Registry.folded, Registry.queued, Registry.takenUp, Registry.lost, Registry.leftBehind,
    count_append]

/-- Distinct numbers make the texts distinct. -/
theorem Ledger.nodup {w : Registry} (h : Ledger w) : w.accepted.Nodup := by
  refine List.Nodup.of_map Steer.number ?_
  rw [h.numbers]
  exact nodup_range

section
variable {turns : List Turn} {requestId : String} {turn : Turn}

theorem map_setTurn_of_not_mem (f : Turn → Turn) (h : requestId ∉ turns.map Turn.turnId) :
    (turns.map fun turn => if turn.turnId = requestId then f turn else turn) = turns := by
  refine (map_congr_left fun t ht => ?_).trans (map_id turns)
  have hne : t.turnId ≠ requestId := fun heq => h (heq ▸ mem_map_of_mem ht)
  rw [if_neg hne, id_eq]

theorem filter_of_not_mem (h : requestId ∉ turns.map Turn.turnId) :
    (turns.filter fun turn => turn.turnId != requestId) = turns := by
  refine filter_eq_self.mpr fun t ht => ?_
  exact bne_iff_ne.mpr fun heq => h (heq ▸ mem_map_of_mem ht)

theorem count_flatMap_setTurn (f : Turn → Turn) (steer : Steer)
    (hids : (turns.map Turn.turnId).Nodup)
    (hget : (turns.find? fun turn => turn.turnId == requestId) = some turn) :
    ((turns.map fun turn =>
        if turn.turnId = requestId then f turn else turn).flatMap Turn.mailbox).count steer +
      turn.mailbox.count steer =
    (turns.flatMap Turn.mailbox).count steer + (f turn).mailbox.count steer := by
  induction turns with
  | nil => cases hget
  | cons head rest ih =>
    obtain ⟨hnew, hrest⟩ := nodup_cons.mp hids
    simp only [map_cons, flatMap_cons, count_append]
    by_cases hhead : head.turnId = requestId
    · rw [find?_cons, beq_iff_eq.mpr hhead] at hget
      cases hget
      rw [map_setTurn_of_not_mem f (hhead ▸ hnew), if_pos hhead]
      omega
    · rw [find?_cons, beq_eq_false_iff_ne.mpr hhead] at hget
      rw [if_neg hhead]
      have := ih hrest hget
      omega

theorem count_flatMap_filter (steer : Steer) (hids : (turns.map Turn.turnId).Nodup)
    (hget : (turns.find? fun turn => turn.turnId == requestId) = some turn) :
    ((turns.filter fun turn => turn.turnId != requestId).flatMap Turn.mailbox).count steer +
      turn.mailbox.count steer = (turns.flatMap Turn.mailbox).count steer := by
  induction turns with
  | nil => cases hget
  | cons head rest ih =>
    obtain ⟨hnew, hrest⟩ := nodup_cons.mp hids
    by_cases hhead : head.turnId = requestId
    · rw [find?_cons, beq_iff_eq.mpr hhead] at hget
      cases hget
      rw [filter_cons_of_neg (by simpa using hhead), filter_of_not_mem (hhead ▸ hnew),
        flatMap_cons, count_append]
      omega
    · rw [find?_cons, beq_eq_false_iff_ne.mpr hhead] at hget
      rw [filter_cons_of_pos (by simpa using hhead), flatMap_cons,
        flatMap_cons, count_append, count_append]
      have := ih hrest hget
      omega

end

section
variable {w w' : Registry}

/-- A step that accepts nothing and leaves each text somewhere keeps the ledger. -/
theorem Ledger.of_moved (h : Ledger w) (hids : (w'.turns.map Turn.turnId).Nodup)
    (haccepted : w'.accepted = w.accepted) (htally : ∀ steer, w'.tally steer = w.tally steer) :
    Ledger w' where
  ids := hids
  numbers := by rw [haccepted, h.numbers]
  placed steer := by rw [htally, haccepted, h.placed]

variable {steer : Steer}

/-- So does one that accepts a text and puts it somewhere. -/
theorem Ledger.of_accepted (h : Ledger w) (hnumber : steer.number = w.accepted.length)
    (hids : (w'.turns.map Turn.turnId).Nodup) (haccepted : w'.accepted = w.accepted ++ [steer])
    (htally : ∀ other, w'.tally other = w.tally other + [steer].count other) : Ledger w' where
  ids := hids
  numbers := by
    rw [haccepted, map_append, h.numbers, length_append, length_singleton,
      range_succ, map_singleton, hnumber]
  placed other := by rw [htally, haccepted, count_append, h.placed]

variable {requestId : String} {f : Turn → Turn}

theorem ids_setTurn (w : Registry)
    (hf : ∀ turn, turn.turnId = requestId → (f turn).turnId = requestId) :
    (w.setTurn requestId f).turns.map Turn.turnId = w.turns.map Turn.turnId := by
  simp only [Registry.setTurn, map_map]
  refine map_congr_left fun turn _ => ?_
  simp only [Function.comp_apply]
  split
  · rename_i hturn
    rw [hf turn hturn, hturn]
  · rfl

theorem tally_setTurn (hids : (w.turns.map Turn.turnId).Nodup) {turn : Turn}
    (hget : w.get requestId = some turn) (f : Turn → Turn) (steer : Steer) :
    (w.setTurn requestId f).tally steer + turn.mailbox.count steer =
      w.tally steer + (f turn).mailbox.count steer := by
  have hwaiting := count_flatMap_setTurn f steer hids hget
  simp only [tally_eq, Registry.setTurn]
  omega

theorem not_mem_of_get_eq_none (h : w.get requestId = none) :
    requestId ∉ w.turns.map Turn.turnId := by
  intro hmem
  obtain ⟨turn, hturn, rfl⟩ := mem_map.mp hmem
  exact absurd (beq_self_eq_true _) (find?_eq_none.mp h turn hturn)

theorem setTurn_of_none (h : w.get requestId = none) (f : Turn → Turn) :
    w.setTurn requestId f = w := by
  simp only [Registry.setTurn, map_setTurn_of_not_mem f (not_mem_of_get_eq_none h)]

theorem Ledger.setTurn (h : Ledger w) (requestId : String)
    (hid : ∀ turn, turn.turnId = requestId → (f turn).turnId = requestId)
    (hmailbox : ∀ turn, (f turn).mailbox = turn.mailbox) : Ledger (w.setTurn requestId f) := by
  cases hget : w.get requestId with
  | none => rwa [setTurn_of_none hget]
  | some turn =>
    refine h.of_moved (by rw [ids_setTurn w hid]; exact h.ids) rfl fun steer => ?_
    have htally := tally_setTurn h.ids hget f steer
    rw [hmailbox] at htally
    omega

/-! ### Re-routing -/

variable {intake : PendingIntake}

theorem enqueue_eq_some (h : w.enqueue intake = some w') :
    w' = { w with queue := w.queue ++ [intake] } := by
  unfold Registry.enqueue at h
  split at h
  · cases h
  · exact (Option.some.inj h).symm

/-- What the re-routing of `steers` from ordinal `i` on adds to the queue and to what was
dropped. -/
structure Rerouted (turn : Turn) (i : Nat) (steers : List Steer) (added : List PendingIntake)
    (dropped : List (DropReason × Steer)) : Prop where
  count : ∀ steer, (added.filterMap PendingIntake.steer).count steer +
    (dropped.map Prod.snd).count steer = steers.count steer
  made : ∀ intake ∈ added, ∃ steer ∈ steers, intake.steer = some steer ∧
    intake.session = turn.sessionKey ∧ intake.originalInput = steer.text
  ids : (added.map PendingIntake.requestId).Sublist
    ((List.range' i steers.length).map (Registry.survivorId turn.turnId))

section

variable {turn : Turn} {i : Nat} {rest : List Steer} {added : List PendingIntake}
  {dropped : List (DropReason × Steer)} (h : Rerouted turn (i + 1) rest added dropped)

include h

theorem Rerouted.cons_dropped (reason : DropReason) :
    Rerouted turn i (steer :: rest) added ((reason, steer) :: dropped) where
  count other := by
    have hrest := h.count other
    simp only [map_cons, count_cons]
    omega
  made intake hintake := by
    obtain ⟨other, hother, hmade⟩ := h.made intake hintake
    exact ⟨other, mem_cons_of_mem _ hother, hmade⟩
  ids := by
    rw [length_cons, range'_succ, map_cons]
    exact h.ids.cons _

theorem Rerouted.cons_added :
    Rerouted turn i (steer :: rest)
      (⟨Registry.survivorId turn.turnId i, steer.text, turn.target, turn.sessionKey,
        some steer⟩ :: added) dropped where
  count other := by
    have hrest := h.count other
    simp only [filterMap_cons, count_cons]
    omega
  made intake hintake := by
    rcases mem_cons.mp hintake with rfl | hintake
    · exact ⟨steer, mem_cons_self, rfl, rfl, rfl⟩
    · obtain ⟨other, hother, hmade⟩ := h.made intake hintake
      exact ⟨other, mem_cons_of_mem _ hother, hmade⟩
  ids := by
    rw [length_cons, range'_succ, map_cons, map_cons]
    exact h.ids.cons_cons _

end

theorem reroute_spec (turn : Turn) (i : Nat) (steers : List Steer) (w : Registry) :
    ∃ added dropped, Rerouted turn i steers added dropped ∧
      Registry.reroute turn i steers w =
        { w with queue := w.queue ++ added, dropped := w.dropped ++ dropped } := by
  induction steers generalizing i w with
  | nil =>
    refine ⟨[], [], ⟨fun _ => rfl, fun _ h => absurd h not_mem_nil, nil_sublist _⟩, ?_⟩
    simp only [Registry.reroute, append_nil]
  | cons steer rest ih =>
    simp only [Registry.reroute]
    split
    · obtain ⟨added, dropped, hrest, heq⟩ := ih (i + 1)
        { w with dropped := w.dropped ++ [(.queueFull, steer)] }
      refine ⟨added, _, hrest.cons_dropped .queueFull, ?_⟩
      simp only [heq, append_assoc, singleton_append]
    · rename_i w' henqueue
      obtain ⟨added, dropped, hrest, heq⟩ := ih (i + 1) w'
      refine ⟨_, dropped, hrest.cons_added, ?_⟩
      rw [heq, enqueue_eq_some henqueue]
      simp only [append_assoc, singleton_append]

theorem tally_reroute (turn : Turn) (steers : List Steer) (w : Registry) (steer : Steer) :
    (Registry.reroute turn 0 steers w).tally steer = w.tally steer + steers.count steer := by
  obtain ⟨added, dropped, hrerouted, heq⟩ := reroute_spec turn 0 steers w
  have hcount := hrerouted.count steer
  simp only [heq, tally_eq, filterMap_append, map_append, count_append]
  omega

theorem turns_reroute (turn : Turn) (steers : List Steer) (w : Registry) :
    (Registry.reroute turn 0 steers w).turns = w.turns := by
  obtain ⟨added, dropped, -, heq⟩ := reroute_spec turn 0 steers w
  rw [heq]

theorem accepted_reroute (turn : Turn) (steers : List Steer) (w : Registry) :
    (Registry.reroute turn 0 steers w).accepted = w.accepted := by
  obtain ⟨added, dropped, -, heq⟩ := reroute_spec turn 0 steers w
  rw [heq]

/-! ### One step -/

theorem Ledger.enqueue (h : Ledger w) (hnone : intake.steer = none) :
    Ledger ((w.enqueue intake).getD w) := by
  cases henqueue : w.enqueue intake with
  | none => exact h
  | some w' =>
    obtain rfl := enqueue_eq_some henqueue
    refine h.of_moved h.ids rfl fun steer => ?_
    simp only [tally_eq, Option.getD_some, filterMap_append, filterMap_cons, hnone,
      filterMap_nil, append_nil]

theorem Ledger.popNext (h : Ledger w) (session : String) : Ledger (w.popNext session) := by
  unfold Registry.popNext
  split
  · exact h
  · rename_i intake hfind
    obtain ⟨hsession, before, after, hqueue, hbefore⟩ := find?_eq_some_iff_append.mp hfind
    have herase : (w.queue.eraseP fun intake => intake.session == session) = before ++ after := by
      rw [hqueue, eraseP_append_right _ (by simpa using hbefore), eraseP_cons, hsession, cond_true]
    refine h.of_moved h.ids rfl fun steer => ?_
    simp only [tally_eq, herase]
    simp only [hqueue, filterMap_append, filterMap_cons, filterMap_nil,
      count_append]
    cases intake.steer with
    | none =>
      simp only [count_nil]
      omega
    | some other =>
      simp only [count_cons, count_nil]
      omega

@[simp] theorem putSteer_turnId (turn : Turn) (steer : Steer) :
    (turn.putSteer steer).1.turnId = turn.turnId := by
  unfold Turn.putSteer
  split <;> rfl

@[simp] theorem putSteer_sessionKey (turn : Turn) (steer : Steer) :
    (turn.putSteer steer).1.sessionKey = turn.sessionKey := by
  unfold Turn.putSteer
  split <;> rfl

theorem mem_putSteer {turn : Turn} {other : Steer} (h : other ∈ (turn.putSteer steer).1.mailbox)
    : other ∈ turn.mailbox ∨ other = steer := by
  unfold Turn.putSteer at h
  split at h
  · exact (mem_append.mp h).imp_right mem_singleton.mp
  · exact (mem_append.mp h).imp mem_of_mem_tail mem_singleton.mp

theorem count_putSteer (turn : Turn) (steer other : Steer) :
    (turn.putSteer steer).1.mailbox.count other +
      (turn.putSteer steer).2.toList.count other =
    turn.mailbox.count other + [steer].count other := by
  unfold Turn.putSteer
  split
  · simp only [Option.toList_none, count_nil, count_append]
    omega
  · cases hmailbox : turn.mailbox with
    | nil => simp only [tail_nil, nil_append, head?_nil, Option.toList_none,
        count_nil, Nat.add_zero, Nat.zero_add]
    | cons oldest rest =>
      simp only [tail_cons, head?_cons, Option.toList_some, count_append,
        count_cons, count_nil]
      omega

section

variable (h : Ledger w)

include h

theorem Ledger.convert (hnumber : steer.number = w.accepted.length) (requestIdNew : String)
    (target : Option Target) :
    Ledger (w.convert steer requestIdNew target).1 := by
  unfold Registry.convert
  split
  · exact h
  · rename_i w' henqueue
    obtain rfl := enqueue_eq_some henqueue
    refine h.of_accepted hnumber h.ids rfl fun other => ?_
    simp only [tally_eq, filterMap_append, filterMap_cons, filterMap_nil,
      count_append]
    omega

theorem Ledger.trySteer (requestId text sessionKey requestIdNew : String) (target : Option Target) :
    Ledger (w.trySteer requestId text sessionKey requestIdNew target).1 := by
  simp only [Registry.trySteer]
  split
  · exact h.convert rfl requestIdNew target
  · rename_i turn hget
    split
    · refine h.of_accepted rfl ?_ rfl fun other => ?_
      · exact (ids_setTurn w fun turn hturn => (putSteer_turnId turn _).trans hturn).symm ▸ h.ids
      · let steer : Steer := ⟨w.accepted.length, text, requestId, sessionKey⟩
        have htally := tally_setTurn h.ids hget (fun turn => (turn.putSteer steer).1) other
        have hput := count_putSteer turn steer other
        simp only [tally_eq, Registry.setTurn, map_append, map_map,
          count_append] at htally ⊢
        have hold : ((turn.putSteer steer).2.toList.map
            (Prod.snd ∘ fun oldest => (DropReason.superseded, oldest))) =
            (turn.putSteer steer).2.toList := map_id _
        simp only [steer] at hput htally hold
        rw [hold]
        omega
    · exact h.convert rfl requestIdNew target

theorem Ledger.boundary (requestId : String) : Ledger (w.boundary requestId) := by
  unfold Registry.boundary
  split
  · exact h
  · rename_i turn hget
    have hids : ((w.setTurn requestId Turn.drained).turns.map Turn.turnId).Nodup := by
      rw [ids_setTurn w (f := Turn.drained) fun _ hturn => hturn]
      exact h.ids
    have htally : ∀ steer, (w.setTurn requestId Turn.drained).tally steer +
        turn.mailbox.count steer = w.tally steer := tally_setTurn h.ids hget Turn.drained
    simp only [tally_eq, Registry.setTurn] at htally
    split
    · refine h.of_moved hids rfl fun steer => ?_
      have hsteer := htally steer
      simp only [tally_eq, Registry.setTurn, flatMap_append, flatMap_singleton,
        count_append]
      omega
    · split
      · rename_i hempty
        refine h.of_moved hids rfl fun steer => ?_
        have hsteer := htally steer
        simp only [tally_eq, Registry.setTurn]
        rw [hempty, count_nil] at hsteer
        omega
      · refine h.of_moved hids rfl fun steer => ?_
        have hsteer := htally steer
        simp only [tally_eq, Registry.setTurn, flatMap_append, flatMap_singleton,
          count_append]
        omega

theorem Ledger.stopSeam (i : Nat) : Ledger (w.stopSeam i) := by
  unfold Registry.stopSeam
  split
  · exact h
  · rename_i stop hstop
    obtain ⟨hlt, rfl⟩ := List.getElem?_eq_some_iff.mp hstop
    have hcarried : ∀ steer,
        ((w.stopped.eraseIdx i).flatMap TurnStopped.drainedSteers).count steer +
          w.stopped[i].drainedSteers.count steer =
        (w.stopped.flatMap TurnStopped.drainedSteers).count steer := by
      intro steer
      have hperm := (List.getElem_cons_eraseIdx_perm hlt).flatMap_right
        TurnStopped.drainedSteers
      rw [← hperm.count_eq, List.flatMap_cons, List.count_append]
      omega
    unfold Registry.requeueSteersAsNew
    split
    · rename_i hempty
      refine h.of_moved h.ids rfl fun steer => ?_
      have hsteer := hcarried steer
      rw [hempty, List.count_nil] at hsteer
      simp only [tally_eq]
      omega
    · split
      · refine h.of_moved h.ids rfl fun steer => ?_
        have hsteer := hcarried steer
        simp only [tally_eq, List.map_append, List.map_map, List.count_append]
        have hdropped : (w.stopped[i].drainedSteers.map
            (Prod.snd ∘ fun steer => (DropReason.noLiveTurn, steer))) =
            w.stopped[i].drainedSteers := List.map_id _
        rw [hdropped]
        omega
      · refine h.of_moved ?_ (accepted_reroute _ _ _) fun steer => ?_
        · rw [turns_reroute]
          exact h.ids
        · have hsteer := hcarried steer
          rw [tally_reroute]
          simp only [tally_eq]
          omega

theorem Ledger.finalizeAndDrain (requestId : String) : Ledger (w.finalizeAndDrain requestId) := by
  unfold Registry.finalizeAndDrain
  split
  · exact h
  · rename_i turn hget
    refine h.of_moved ?_ (accepted_reroute _ _ _) fun steer => ?_
    · rw [turns_reroute, ids_setTurn w (f := Turn.finalized) fun _ hturn => hturn]
      exact h.ids
    · rw [tally_reroute]
      exact tally_setTurn h.ids hget Turn.finalized steer

theorem Ledger.casStatus (requestId : String) (expect new : TurnStatus) :
    Ledger (w.casStatus requestId expect new).1 := by
  unfold Registry.casStatus
  split
  · exact h
  · split
    · exact h
    · exact h.setTurn requestId (fun _ hturn => hturn) (fun _ => rfl)

theorem Ledger.deregister (requestId : String) : Ledger (w.deregister requestId) := by
  unfold Registry.deregister
  split
  · exact h
  · rename_i turn hget
    refine h.of_moved (h.ids.sublist (filter_sublist.map _)) rfl fun steer => ?_
    have hfilter := count_flatMap_filter steer h.ids hget
    simp only [tally_eq, flatMap_append, flatMap_singleton, count_append]
    omega

theorem Ledger.register (requestId sessionKey : String) (target : Option Target)
    (originalInput : String) :
    Ledger (w.register requestId sessionKey target originalInput) := by
  unfold Registry.register
  cases hget : w.get requestId with
  | none =>
    refine h.of_moved ?_ rfl fun steer => ?_
    · have hnew := not_mem_of_get_eq_none hget
      simp only [map_append, map_singleton]
      exact nodup_append.mpr ⟨h.ids, nodup_singleton _, fun id hid other hother heq =>
        hnew (mem_singleton.mp hother ▸ heq ▸ hid)⟩
    · simp only [tally_eq, flatMap_append, flatMap_singleton, Option.toList_none,
        append_nil]
  | some turn =>
    refine h.of_moved ?_ rfl fun steer => ?_
    · have hids : (w.setTurn requestId fun _ =>
          { turnId := requestId, sessionKey, target, originalInput }).turns.map Turn.turnId =
          w.turns.map Turn.turnId := ids_setTurn w fun _ _ => rfl
      exact hids.symm ▸ h.ids
    · have htally := tally_setTurn h.ids hget (fun _ =>
        { turnId := requestId, sessionKey, target, originalInput }) steer
      simp only [tally_eq, Registry.setTurn, flatMap_append, count_append,
        Option.toList_some, flatMap_singleton, count_nil] at htally ⊢
      omega

theorem Ledger.reap (requestId : String) (done expired mayRedispatch : Bool) :
    Ledger (w.reap requestId done expired mayRedispatch) := by
  unfold Registry.reap
  split
  · exact h
  · split
    · split
      · unfold Registry.redispatchWedgedGoal
        split
        · exact h.deregister requestId
        · exact (h.deregister requestId).enqueue rfl
      · exact h.deregister requestId
    · exact h

end

theorem Ledger.sweepKeys (done expired : String → Bool) (mayRedispatch : Bool) (keys : List String)
    (h : Ledger w) :
    Ledger (Registry.sweepKeys done expired mayRedispatch keys w) := by
  induction keys generalizing w with
  | nil => exact h
  | cons requestId rest ih => exact ih (h.reap requestId _ _ _)

/-- **One step keeps the ledger.** -/
theorem Ledger.step (h : Ledger w) (op : TurnOp) : Ledger (turnStep w op) := by
  cases op with
  | enqueue sessionKey originalInput requestId target => exact h.enqueue rfl
  | trySteer requestId text sessionKey requestIdNew target =>
    exact h.trySteer requestId text sessionKey requestIdNew target
  | boundary requestId => exact h.boundary requestId
  | requestStop requestId => exact h.setTurn requestId (fun _ hturn => hturn) (fun _ => rfl)
  | stopSeam i => exact h.stopSeam i
  | finalizeAndDrain requestId => exact h.finalizeAndDrain requestId
  | casStatus requestId expect new => exact h.casStatus requestId expect new
  | register requestId sessionKey target originalInput =>
    exact h.register requestId sessionKey target originalInput
  | deregister requestId => exact h.deregister requestId
  | popNext sessionKey => exact h.popNext sessionKey
  | sweep done expired mayRedispatch => exact Ledger.sweepKeys done expired mayRedispatch _ h

theorem Ledger.init (perSessionQueueMax : Nat) : Ledger (Registry.init perSessionQueueMax) where
  ids := nodup_nil
  numbers := rfl
  placed _ := rfl

end

/-- Over every run, a text that was accepted is in one place, the mailboxes of turns that
were removed among them, and nothing else is anywhere. -/
theorem tally_eq_accepted (perSessionQueueMax : Nat) (ops : List TurnOp) :
    Along turnStep
      (fun w => w.accepted.Nodup ∧ (w.whereabouts ++ w.leftBehind).Perm w.accepted)
      (Registry.init perSessionQueueMax) ops := by
  refine Along.mono (P := Ledger) (fun w h => ⟨h.nodup, ?_⟩)
    (along_of_inv (fun w op h => h.step op) (Ledger.init perSessionQueueMax) ops)
  exact perm_iff_count.mpr h.placed

/-! ## What is held at most -/

/-- No queue and no mailbox is over its bound. -/
structure Bounded (w : Registry) : Prop where
  queues : ∀ session, w.depth session ≤ w.perSessionQueueMax
  mailboxes : ∀ turn ∈ w.turns, turn.mailbox.length ≤ MAILBOX_MAX

theorem length_putSteer {turn : Turn} (steer : Steer) (h : turn.mailbox.length ≤ MAILBOX_MAX) :
    (turn.putSteer steer).1.mailbox.length ≤ MAILBOX_MAX := by
  unfold MAILBOX_MAX Turn.putSteer at *
  split
  · show (turn.mailbox ++ [steer]).length ≤ 8
    rw [length_append]
    exact Nat.succ_le_of_lt ‹_›
  · simp only [length_append, length_tail, length_singleton]
    omega

theorem Bounded.enqueue (h : Bounded w) {intake : PendingIntake}
    (hin : w.enqueue intake = some w') : Bounded w' := by
  have hroom : w.depth intake.session < w.perSessionQueueMax := by
    by_contra hfull
    rw [Registry.enqueue, if_pos (Nat.not_lt.mp hfull)] at hin
    cases hin
  obtain rfl := enqueue_eq_some hin
  refine ⟨fun session => ?_, h.mailboxes⟩
  have hdepth := h.queues session
  unfold Registry.depth at hdepth hroom ⊢
  rw [countP_append, countP_singleton]
  by_cases hsession : intake.session = session
  · subst hsession
    simpa using Nat.succ_le_of_lt hroom
  · simpa [hsession] using hdepth

theorem Bounded.setTurn (h : Bounded w) (requestId : String) {f : Turn → Turn}
    (hf : ∀ turn, turn.mailbox.length ≤ MAILBOX_MAX → (f turn).mailbox.length ≤ MAILBOX_MAX) :
    Bounded (w.setTurn requestId f) := by
  refine ⟨h.queues, fun turn hturn => ?_⟩
  obtain ⟨t, ht, rfl⟩ := mem_map.mp hturn
  split
  · exact hf t (h.mailboxes t ht)
  · exact h.mailboxes t ht

theorem Bounded.reroute (h : Bounded w) (turn : Turn) (i : Nat) (steers : List Steer) :
    Bounded (Registry.reroute turn i steers w) := by
  induction steers generalizing i w with
  | nil => exact h
  | cons steer rest ih =>
    apply ih
    split
    · exact ⟨h.queues, h.mailboxes⟩
    · exact h.enqueue ‹_›

theorem Bounded.getD (h : Bounded w) (intake : PendingIntake) :
    Bounded ((w.enqueue intake).getD w) := by
  cases hin : w.enqueue intake with
  | none => exact h
  | some w' => exact h.enqueue hin

theorem Bounded.deregister (h : Bounded w) (requestId : String) :
    Bounded (w.deregister requestId) := by
  unfold Registry.deregister
  split
  · exact h
  · exact ⟨h.queues, fun turn hturn => h.mailboxes turn (mem_filter.mp hturn).1⟩

theorem Bounded.sweepKeys (done expired : String → Bool) (mayRedispatch : Bool)
    (keys : List String) (h : Bounded w) :
    Bounded (Registry.sweepKeys done expired mayRedispatch keys w) := by
  induction keys generalizing w with
  | nil => exact h
  | cons requestId rest ih =>
    have hgone := h.deregister requestId
    apply ih
    unfold Registry.reap Registry.redispatchWedgedGoal
    repeat' split
    all_goals first | exact h | exact hgone | exact hgone.getD _

theorem Bounded.step (h : Bounded w) (op : TurnOp) : Bounded (turnStep w op) := by
  have hconvert : ∀ steer requestIdNew target,
      Bounded (w.convert steer requestIdNew target).1 := by
    intro steer requestIdNew target
    unfold Registry.convert
    split
    · exact h
    · have hqueued := h.enqueue ‹_›
      exact ⟨hqueued.queues, hqueued.mailboxes⟩
  cases op with
  | enqueue => exact h.getD _
  | trySteer requestId text sessionKey requestIdNew target =>
    have hput := h.setTurn requestId fun _ =>
      length_putSteer ⟨w.accepted.length, text, requestId, sessionKey⟩
    simp only [turnStep, Registry.trySteer]
    repeat' split
    · exact hconvert _ _ _
    · exact ⟨hput.queues, hput.mailboxes⟩
    · exact hconvert _ _ _
  | boundary requestId =>
    have hdrained := h.setTurn requestId (f := Turn.drained) fun _ _ => Nat.zero_le _
    simp only [turnStep, Registry.boundary]
    repeat' split
    all_goals first | exact h | exact ⟨hdrained.queues, hdrained.mailboxes⟩
  | requestStop requestId => exact h.setTurn requestId fun _ h => h
  | stopSeam i =>
    simp only [turnStep, Registry.stopSeam, Registry.requeueSteersAsNew]
    repeat' split
    all_goals first | exact h | exact ⟨h.queues, h.mailboxes⟩ | refine Bounded.reroute ?_ _ _ _
    exact ⟨h.queues, h.mailboxes⟩
  | finalizeAndDrain requestId =>
    simp only [turnStep, Registry.finalizeAndDrain]
    split
    · exact h
    · exact (h.setTurn requestId (f := Turn.finalized) fun _ _ => Nat.zero_le _).reroute _ _ _
  | casStatus requestId expect new =>
    simp only [turnStep, Registry.casStatus]
    repeat' split
    · exact h
    · exact h
    · exact h.setTurn requestId fun _ h => h
  | register requestId sessionKey target originalInput =>
    refine ⟨h.queues, fun turn hturn => ?_⟩
    simp only [turnStep, Registry.register] at hturn
    split at hturn
    · rcases mem_snoc.mp hturn with hold | rfl
      · exact h.mailboxes turn hold
      · exact Nat.zero_le _
    · exact (h.setTurn requestId fun _ _ => Nat.zero_le _).mailboxes turn hturn
  | deregister requestId => exact h.deregister requestId
  | popNext session =>
    simp only [turnStep, Registry.popNext]
    split
    · exact h
    · exact ⟨fun other => (eraseP_sublist.countP_le).trans (h.queues other), h.mailboxes⟩
  | sweep done expired mayRedispatch => exact h.sweepKeys done expired mayRedispatch _

/-- Over every run no queue is deeper than its bound and no mailbox fuller than its own. -/
theorem queues_bounded (perSessionQueueMax : Nat) (ops : List TurnOp) :
    Along turnStep Bounded (Registry.init perSessionQueueMax) ops :=
  along_of_inv (fun _ op h => Bounded.step h op) ⟨fun _ => Nat.zero_le _, by simp [Registry.init]⟩
    ops

/-! ## Runs that leave no text behind -/

namespace Registry

/-- The ids survivors of the turn would be given are not in use. -/
def unused (w : Registry) (turn : Turn) (survivors : Nat) : Prop :=
  ∀ i < survivors, survivorId turn.turnId i ∉ w.liveIds

instance (w : Registry) (turn : Turn) (survivors : Nat) : Decidable (w.unused turn survivors) :=
  inferInstanceAs (Decidable (∀ i < survivors, _))

/-- No turn of that id holds an undrained mailbox. -/
def drained (w : Registry) (requestId : String) : Prop :=
  ∀ turn ∈ w.get requestId, turn.mailbox = []

instance (w : Registry) (requestId : String) : Decidable (w.drained requestId) :=
  inferInstanceAs (Decidable (∀ turn ∈ w.get requestId, _))

/-- The loop of `sweep` removes only turns with nothing in their mailboxes, and the id of a
re-dispatch is new. -/
def sweepsDrained (done expired : String → Bool) (mayRedispatch : Bool) :
    List String → Registry → Prop
  | [], _ => True
  | requestId :: rest, w =>
    (∀ turn ∈ w.get requestId, done requestId = true →
      turn.status ≠ .done ∨ expired requestId = true →
        turn.mailbox = [] ∧ redispatchId turn.turnId ∉ w.liveIds) ∧
      sweepsDrained done expired mayRedispatch rest
        (w.reap requestId (done requestId) (expired requestId) mayRedispatch)

instance sweepsDrained.decidable (done expired : String → Bool) (mayRedispatch : Bool) :
    ∀ keys w, Decidable (sweepsDrained done expired mayRedispatch keys w)
  | [], _ => isTrue trivial
  | requestId :: rest, w =>
    have : Decidable (sweepsDrained done expired mayRedispatch rest
        (w.reap requestId (done requestId) (expired requestId) mayRedispatch)) :=
      sweepsDrained.decidable done expired mayRedispatch rest _
    inferInstanceAs (Decidable ((∀ turn ∈ w.get requestId, _) ∧ _))

end Registry

/-- Request ids are new and name one session, and no turn is removed, by `deregister`, by
a `register` of its id or by the sweep, before its mailbox is drained. -/
def Orderly (w : Registry) : TurnOp → Prop
  | .enqueue _ _ requestId _ => requestId ∉ w.liveIds
  | .trySteer requestId _ sessionKey requestIdNew _ =>
    requestIdNew ∉ w.liveIds ∧ ∀ turn ∈ w.get requestId, turn.sessionKey = sessionKey
  | .stopSeam i => ∀ stop ∈ w.stopped[i]?, ∀ turn ∈ w.get stop.requestId,
    w.unused turn stop.drainedSteers.length ∧
      ∀ steer ∈ stop.drainedSteers, steer.session = turn.sessionKey
  | .finalizeAndDrain requestId => ∀ turn ∈ w.get requestId, w.unused turn turn.mailbox.length
  | .register requestId _ _ _ =>
    requestId ∉ w.queue.map PendingIntake.requestId ∧ w.drained requestId
  | .deregister requestId => w.drained requestId
  | .sweep done expired mayRedispatch =>
    Registry.sweepsDrained done expired mayRedispatch (w.turns.map Turn.turnId) w
  | _ => True

instance (w : Registry) (op : TurnOp) : Decidable (Orderly w op) :=
  match op with
  | .enqueue .. => inferInstanceAs (Decidable (_ ∉ _))
  | .trySteer .. => inferInstanceAs (Decidable (_ ∧ ∀ turn ∈ w.get _, _))
  | .stopSeam i => inferInstanceAs
      (Decidable (∀ stop ∈ w.stopped[i]?, ∀ turn ∈ w.get stop.requestId, _))
  | .finalizeAndDrain requestId => inferInstanceAs (Decidable (∀ turn ∈ w.get requestId, _))
  | .register .. => inferInstanceAs (Decidable (_ ∧ w.drained _))
  | .deregister requestId => inferInstanceAs (Decidable (w.drained requestId))
  | .sweep .. => inferInstanceAs (Decidable (Registry.sweepsDrained _ _ _ _ w))
  | .boundary _ | .requestStop _ | .casStatus .. | .popNext _ => isTrue trivial

/-- What an orderly step keeps beside the ledger. -/
structure Housed (w : Registry) : Prop where
  mail : ∀ turn ∈ w.turns, ∀ steer ∈ turn.mailbox,
    steer.turn = turn.turnId ∧ steer.session = turn.sessionKey
  folded : ∀ fold ∈ w.folds, ∀ steer ∈ fold.steers, steer.turn = fold.turn
  queued : ∀ intake ∈ w.queue, ∀ steer ∈ intake.steer,
    intake.session = steer.session ∧ intake.originalInput = steer.text
  distinct : w.liveIds.Nodup
  emptied : ∀ turn ∈ w.removed, turn.mailbox = []

/-- Where nothing was left behind, the places the ledger counts are the ones a text can
be in. -/
theorem Ledger.kept {w : Registry} (h : Ledger w) (hhoused : Housed w) : Kept w := by
  have hbehind : w.leftBehind = [] := flatMap_eq_nil_iff.mpr hhoused.emptied
  have hcount : ∀ steer, w.whereabouts.count steer = w.accepted.count steer := by
    intro steer
    have hplaced := h.placed steer
    rwa [Registry.tally, hbehind, append_nil] at hplaced
  constructor
  · intro steer hsteer
    rw [hcount, count_eq_one_of_mem h.nodup hsteer]
  · intro steer hsteer
    rw [← count_pos_iff, ← hcount, count_pos_iff]
    exact hsteer
  · exact fun turn hturn steer hsteer => (hhoused.mail turn hturn steer hsteer).1
  · exact hhoused.folded
  · exact hhoused.queued
  · exact hhoused.distinct
  · exact hhoused.emptied

section
variable {w w' : Registry} {requestId : String}

theorem get_eq_some {turn : Turn} (h : w.get requestId = some turn) :
    turn ∈ w.turns ∧ turn.turnId = requestId :=
  ⟨mem_of_find?_eq_some h,
    beq_iff_eq.mp (find?_some (p := fun turn : Turn => turn.turnId == requestId) h)⟩

theorem Housed.ids (h : Housed w) : (w.turns.map Turn.turnId).Nodup :=
  (nodup_append.mp h.distinct).2.1

theorem Housed.get_of_mem (h : Housed w) {turn : Turn} (hturn : turn ∈ w.turns) :
    w.get turn.turnId = some turn := by
  cases hget : w.get turn.turnId with
  | none => exact absurd (mem_map_of_mem hturn) (not_mem_of_get_eq_none hget)
  | some found =>
    obtain ⟨hfound, hid⟩ := get_eq_some hget
    rw [inj_on_of_nodup_map h.ids hfound hturn hid]

variable {f : Turn → Turn}

theorem liveIds_setTurn (hid : ∀ turn, turn.turnId = requestId → (f turn).turnId = requestId) :
    (w.setTurn requestId f).liveIds = w.liveIds := by
  unfold Registry.liveIds
  rw [ids_setTurn w hid]
  rfl

theorem Housed.setTurn (h : Housed w)
    (hid : ∀ turn, turn.turnId = requestId → (f turn).turnId = requestId)
    (hmail : ∀ turn ∈ w.get requestId, ∀ steer ∈ (f turn).mailbox, steer.turn = requestId ∧
      steer.session = (f turn).sessionKey) :
    Housed (w.setTurn requestId f) where
  mail turn hturn steer hsteer := by
    obtain ⟨old, hold, rfl⟩ := mem_map.mp hturn
    by_cases holdId : old.turnId = requestId
    · simp only [if_pos holdId] at hsteer ⊢
      rw [hid old holdId]
      exact hmail old (holdId ▸ h.get_of_mem hold) steer hsteer
    · simp only [if_neg holdId] at hsteer ⊢
      exact h.mail old hold steer hsteer
  folded := h.folded
  queued := h.queued
  distinct := by
    rw [liveIds_setTurn hid]
    exact h.distinct
  emptied := h.emptied

theorem nodup_insert {before ids after : List String} (h : (before ++ after).Nodup)
    (hids : ids.Nodup) (hnew : ∀ id ∈ ids, id ∉ before ++ after) :
    (before ++ ids ++ after).Nodup := by
  have hperm : (before ++ ids ++ after).Perm (ids ++ (before ++ after)) := by
    rw [← append_assoc]
    exact perm_append_comm.append_right after
  refine hperm.nodup_iff.mpr (nodup_append.mpr ⟨hids, h, ?_⟩)
  intro id hid other hother heq
  exact hnew id hid (heq ▸ hother)

theorem Housed.addIntakes (h : Housed w) {added : List PendingIntake}
    (hadded : ∀ intake ∈ added, ∀ steer ∈ intake.steer,
      intake.session = steer.session ∧ intake.originalInput = steer.text)
    (hids : (added.map PendingIntake.requestId).Nodup)
    (hnew : ∀ id ∈ added.map PendingIntake.requestId, id ∉ w.liveIds) :
    Housed { w with queue := w.queue ++ added } where
  mail := h.mail
  folded := h.folded
  queued intake hintake := by
    rcases mem_append.mp hintake with hold | hnew
    · exact h.queued intake hold
    · exact hadded intake hnew
  distinct := by
    simp only [Registry.liveIds, map_append]
    exact nodup_insert h.distinct hids hnew
  emptied := h.emptied

variable {i : Nat}

theorem survivorId_inj {turnId : String} {j : Nat}
    (h : Registry.survivorId turnId i = Registry.survivorId turnId j) : i = j :=
  repr_inj ((String.append_right_inj _).mp h)

section

variable (h : Housed w)

include h

/-- Survivors are re-routed under ids of their own. -/
theorem Housed.reroute {turn : Turn} {steers : List Steer} (hunused : w.unused turn steers.length)
    (hsession : ∀ steer ∈ steers, steer.session = turn.sessionKey) :
    Housed (Registry.reroute turn 0 steers w) := by
  obtain ⟨added, dropped, hrerouted, heq⟩ := reroute_spec turn 0 steers w
  have hadded : Housed { w with queue := w.queue ++ added } := by
    refine h.addIntakes ?_ ?_ ?_
    · intro intake hintake steer hsteer
      obtain ⟨made, hmade, hfrom, hturn, htext⟩ := hrerouted.made intake hintake
      obtain rfl : made = steer := Option.some.inj (hfrom.symm.trans hsteer)
      exact ⟨hturn.trans (hsession made hmade).symm, htext⟩
    · refine List.Nodup.sublist hrerouted.ids (List.Nodup.map_on ?_ nodup_range')
      exact fun i _ j _ hij => survivorId_inj hij
    · intro id hid
      obtain ⟨i, hi, rfl⟩ := mem_map.mp (hrerouted.ids.subset hid)
      exact hunused i (by simpa using hi)
  rw [heq]
  exact ⟨hadded.mail, hadded.folded, hadded.queued, hadded.distinct, hadded.emptied⟩

theorem Housed.enqueue {intake : PendingIntake} (hnone : intake.steer = none)
    (hnew : intake.requestId ∉ w.liveIds) :
    Housed ((w.enqueue intake).getD w) := by
  cases henqueue : w.enqueue intake with
  | none => exact h
  | some w' =>
    obtain rfl := enqueue_eq_some henqueue
    refine h.addIntakes ?_ (nodup_singleton _) ?_
    · intro other hother steer hsteer
      rw [mem_singleton.mp hother, hnone] at hsteer
      cases hsteer
    · intro id hid
      rwa [mem_singleton.mp hid]

variable {requestIdNew : String}

theorem Housed.convert {steer : Steer} (hnew : requestIdNew ∉ w.liveIds) (target : Option Target) :
    Housed (w.convert steer requestIdNew target).1 := by
  unfold Registry.convert
  split
  · exact h
  · rename_i w' henqueue
    obtain rfl := enqueue_eq_some henqueue
    have hadded : Housed { w with queue := w.queue ++
        [⟨requestIdNew, steer.text, target, steer.session, some steer⟩] } := by
      refine h.addIntakes ?_ (nodup_singleton _) ?_
      · intro intake hintake other hother
        obtain rfl := mem_singleton.mp hintake
        cases hother
        exact ⟨rfl, rfl⟩
      · intro id hid
        rwa [mem_singleton.mp hid]
    exact ⟨hadded.mail, hadded.folded, hadded.queued, hadded.distinct, hadded.emptied⟩

/-! ### One orderly step -/

theorem Housed.popNext (session : String) : Housed (w.popNext session) := by
  unfold Registry.popNext
  split
  · exact h
  · have hsub : (w.queue.eraseP fun intake => intake.session == session).Sublist w.queue :=
      eraseP_sublist
    exact ⟨h.mail, h.folded, fun intake hintake => h.queued intake (hsub.subset hintake),
      h.distinct.sublist ((hsub.map _).append_right _), h.emptied⟩

theorem Housed.trySteer {sessionKey : String} (hnew : requestIdNew ∉ w.liveIds)
    (hsession : ∀ turn ∈ w.get requestId, turn.sessionKey = sessionKey) (text : String)
    (target : Option Target) :
    Housed (w.trySteer requestId text sessionKey requestIdNew target).1 := by
  simp only [Registry.trySteer]
  split
  · exact h.convert hnew target
  · rename_i turn hget
    split
    · let steer : Steer := ⟨w.accepted.length, text, requestId, sessionKey⟩
      have hput : Housed (w.setTurn requestId fun turn => (turn.putSteer steer).1) := by
        refine h.setTurn ?_ ?_
        · exact fun turn hid => (putSteer_turnId turn steer).trans hid
        · intro turn hturn other hother
          obtain ⟨hmem, hid⟩ := get_eq_some hturn
          rw [putSteer_sessionKey]
          rcases mem_putSteer hother with hold | rfl
          · exact hid ▸ h.mail turn hmem other hold
          · exact ⟨rfl, (hsession turn hturn).symm⟩
      exact ⟨hput.mail, hput.folded, hput.queued, hput.distinct, hput.emptied⟩
    · exact h.convert hnew target

theorem Housed.drain (requestId : String) : Housed (w.setTurn requestId Turn.drained) :=
  h.setTurn (fun _ hturn => hturn) fun _ _ _ hsteer => absurd hsteer not_mem_nil

theorem Housed.boundary (requestId : String) : Housed (w.boundary requestId) := by
  have hdrained := h.drain requestId
  unfold Registry.boundary
  split
  · exact h
  · rename_i turn hget
    obtain ⟨hturn, hid⟩ := get_eq_some hget
    split
    · exact ⟨hdrained.mail, hdrained.folded, hdrained.queued, hdrained.distinct,
        hdrained.emptied⟩
    · split
      · exact hdrained
      · refine ⟨hdrained.mail, ?_, hdrained.queued, hdrained.distinct, hdrained.emptied⟩
        intro fold hfold steer hsteer
        rcases mem_snoc.mp hfold with hold | rfl
        · exact h.folded fold hold steer hsteer
        · exact (h.mail turn hturn steer hsteer).1.trans hid

theorem Housed.stopSeam
    (hok : ∀ stop ∈ w.stopped[i]?, ∀ turn ∈ w.get stop.requestId,
      w.unused turn stop.drainedSteers.length ∧ ∀ steer ∈ stop.drainedSteers,
      steer.session = turn.sessionKey) :
    Housed (w.stopSeam i) := by
  unfold Registry.stopSeam
  split
  · exact h
  · rename_i stop hstop
    have herased : Housed { w with stopped := w.stopped.eraseIdx i } :=
      ⟨h.mail, h.folded, h.queued, h.distinct, h.emptied⟩
    unfold Registry.requeueSteersAsNew
    split
    · exact herased
    · split
      · exact ⟨h.mail, h.folded, h.queued, h.distinct, h.emptied⟩
      · rename_i turn hget
        obtain ⟨hunused, hsession⟩ := hok stop hstop turn hget
        exact herased.reroute hunused hsession

theorem Housed.finalizeAndDrain
    (hok : ∀ turn ∈ w.get requestId, w.unused turn turn.mailbox.length) :
    Housed (w.finalizeAndDrain requestId) := by
  unfold Registry.finalizeAndDrain
  split
  · exact h
  · rename_i turn hget
    obtain ⟨hturn, -⟩ := get_eq_some hget
    have hfinal : Housed (w.setTurn requestId Turn.finalized) :=
      h.setTurn (fun _ hid => hid) fun _ _ _ hsteer => absurd hsteer not_mem_nil
    refine hfinal.reroute ?_ fun steer hsteer => (h.mail turn hturn steer hsteer).2
    intro i hi
    rw [liveIds_setTurn (f := Turn.finalized) fun _ hid => hid]
    exact hok turn hget i hi

theorem Housed.keepMail (requestId : String)
    (hf : ∀ turn, (f turn).turnId = turn.turnId ∧ (f turn).mailbox = turn.mailbox ∧
      (f turn).sessionKey = turn.sessionKey) :
    Housed (w.setTurn requestId f) := by
  refine h.setTurn (fun turn hid => (hf turn).1.trans hid) ?_
  intro turn hturn steer hsteer
  obtain ⟨hmem, hid⟩ := get_eq_some hturn
  rw [(hf turn).2.1] at hsteer
  rw [(hf turn).2.2, ← hid]
  exact h.mail turn hmem steer hsteer

theorem Housed.register (hqueue : requestId ∉ w.queue.map PendingIntake.requestId)
    (hdrained : w.drained requestId) (sessionKey : String) (target : Option Target)
    (originalInput : String) :
    Housed (w.register requestId sessionKey target originalInput) := by
  let turn : Turn := { turnId := requestId, sessionKey, target, originalInput }
  have hremoved : ∀ turn ∈ w.removed ++ (w.get requestId).toList, turn.mailbox = [] := by
    intro old hold
    rcases mem_append.mp hold with hwas | hnow
    · exact h.emptied old hwas
    · exact hdrained old (Option.mem_toList.mp hnow)
  unfold Registry.register
  cases hget : w.get requestId with
  | none =>
    rw [hget] at hremoved
    have hturns := not_mem_of_get_eq_none hget
    refine ⟨?_, h.folded, h.queued, ?_, hremoved⟩
    · intro other hother steer hsteer
      rcases mem_snoc.mp hother with hold | rfl
      · exact h.mail other hold steer hsteer
      · cases hsteer
    · have hids := nodup_insert (((append_nil _).symm ▸ h.distinct :
        (w.liveIds ++ []).Nodup)) (nodup_singleton requestId) ?_
      · simpa only [Registry.liveIds, map_append, map_singleton, append_nil,
          append_assoc] using hids
      · intro id hid
        rw [mem_singleton.mp hid, append_nil]
        exact fun hmem => (mem_append.mp hmem).elim hqueue hturns
  | some old =>
    rw [hget] at hremoved
    have hset : Housed (w.setTurn requestId fun _ => turn) :=
      h.setTurn (fun _ _ => rfl) fun _ _ _ hsteer => absurd hsteer not_mem_nil
    exact ⟨hset.mail, h.folded, h.queued, hset.distinct, hremoved⟩

theorem Housed.deregister (hdrained : w.drained requestId) :
    Housed (w.deregister requestId) := by
  unfold Registry.deregister
  split
  · exact h
  · rename_i turn hget
    have hsub : (w.turns.filter fun turn => turn.turnId != requestId).Sublist w.turns :=
      filter_sublist
    refine ⟨fun turn hturn => h.mail turn (hsub.subset hturn), h.folded, h.queued,
      h.distinct.sublist ((hsub.map _).append_left _), ?_⟩
    intro old hold
    rcases mem_snoc.mp hold with hwas | hnow
    · exact h.emptied old hwas
    · exact hnow ▸ hdrained turn hget

end

theorem liveIds_deregister (w : Registry) (requestId : String) :
    (w.deregister requestId).liveIds ⊆ w.liveIds := by
  unfold Registry.deregister
  split
  · exact fun _ hid => hid
  · exact ((filter_sublist.map Turn.turnId).append_left _).subset

theorem Housed.sweepKeys {done expired : String → Bool} {mayRedispatch : Bool} {keys : List String}
    (h : Housed w) (hok : Registry.sweepsDrained done expired mayRedispatch keys w) :
    Housed (Registry.sweepKeys done expired mayRedispatch keys w) := by
  induction keys generalizing w with
  | nil => exact h
  | cons requestId rest ih =>
    obtain ⟨hfirst, hrest⟩ := hok
    refine ih ?_ hrest
    unfold Registry.reap
    split
    · exact h
    · rename_i turn hget
      split
      · rename_i hreaped
        obtain ⟨hempty, hnew⟩ := hfirst turn hget hreaped.1 hreaped.2
        have hgone : Housed (w.deregister requestId) := by
          refine h.deregister fun other hother => ?_
          rw [← Option.some.inj (hget.symm.trans hother)]
          exact hempty
        split
        · unfold Registry.redispatchWedgedGoal
          split
          · exact hgone
          · exact hgone.enqueue rfl fun hmem => hnew (liveIds_deregister w requestId hmem)
        · exact hgone
      · exact h

/-- **One orderly step keeps the texts housed.** -/
theorem Housed.step (h : Housed w) {op : TurnOp} (hok : Orderly w op) :
    Housed (turnStep w op) := by
  cases op with
  | enqueue sessionKey originalInput requestId target => exact h.enqueue rfl hok
  | trySteer requestId text sessionKey requestIdNew target =>
    exact h.trySteer hok.1 hok.2 text target
  | boundary requestId => exact h.boundary requestId
  | requestStop requestId => exact h.keepMail requestId fun _ => ⟨rfl, rfl, rfl⟩
  | stopSeam i => exact h.stopSeam hok
  | finalizeAndDrain requestId => exact h.finalizeAndDrain hok
  | casStatus requestId expect new =>
    simp only [turnStep, Registry.casStatus]
    split
    · exact h
    · split
      · exact h
      · exact h.keepMail requestId fun _ => ⟨rfl, rfl, rfl⟩
  | register requestId sessionKey target originalInput =>
    exact h.register hok.1 hok.2 sessionKey target originalInput
  | deregister requestId => exact h.deregister hok
  | popNext sessionKey => exact h.popNext sessionKey
  | sweep done expired mayRedispatch => exact h.sweepKeys hok

theorem Housed.init (perSessionQueueMax : Nat) : Housed (Registry.init perSessionQueueMax) where
  mail _ h := absurd h not_mem_nil
  folded _ h := absurd h not_mem_nil
  queued _ h := absurd h not_mem_nil
  distinct := nodup_nil
  emptied _ h := absurd h not_mem_nil

end

end StackOwl.Gateway
