import StackOwl.Lib.Run
import StackOwl.Runtime.TurnLedger

/-!
# The turns of the gateway

`GatewayLink` (`runtime/gateway_link.py`) forwards the messages of the users to a core
that may restart.  A message is submitted to the bound connection, or buffered while
there is none or a restart is announced; a core's `Hello` flushes the buffer; a turn is
in flight until its final chunk; when a connection ends, the turns in flight go back to
the front of the buffer; a replay that fails is queued again, and surfaced to the user
after `_MAX_REPLAY_ATTEMPTS` of them.

Every connection has a coroutine of its own, which takes one frame after the other and
waits inside a `Hello` until the flush is over.  `FrameConnection.send` takes a lock
that is fair, so the frames of one connection reach the core in the order in which
`send` is called, if they do; whether one does is part of the operation that calls it.

The frames that move no turn and the data of a message but its ids and channel are left
out.

## Main results

* `turnStep_ledger` — what an operation does to the ledger of the turns.
* `turns_kept` — no turn is lost, doubled, sent too often or overtaken in a run that
  keeps clear of the places where the code lets it.
-/

namespace StackOwl.Runtime

open Lib List Function

def shouldRetry (consequential transient unverifiedEffect : Bool) : Bool :=
  if consequential then false else transient || unverifiedEffect

/-- `_may_retry_replay`: a lost turn is transient and not consequential. -/
def mayRetryReplay : Bool := shouldRetry false true false

inductive Phase where
  /-- It waits for a frame. -/
  | reading
  /-- It is in `_flush_pending`: what it sends right now, with what becomes of that, and
  the messages still to come. -/
  | flushing (current : Option (IngressMessage × Bool)) (rest : List IngressMessage)
  | stopped
  deriving DecidableEq

/-- The messages a flush has swapped out and not yet sent. -/
def Phase.rest : Phase → List IngressMessage
  | .flushing _ rest => rest
  | .reading | .stopped => []

def Phase.current : Phase → List (IngressMessage × Bool)
  | .flushing current _ => current.toList
  | .reading | .stopped => []

def Phase.busy : Phase → Bool
  | .flushing _ _ => true
  | .reading | .stopped => false

/-- The turns of a `GatewayLink`, the coroutines of its connections, and what has
happened. -/
structure TurnLink where
  /-- The channels with an adapter. -/
  adapters : List String
  conn : Option Nat := none
  buffering : Bool := false
  pending : List IngressMessage := []
  inflight : List IngressMessage := []
  replayAttempts : String → Nat := fun _ => 0
  /-- The coroutines, by the number of their connection. -/
  handlers : List Phase := []
  submitted : List IngressMessage := []
  /-- The calls of `FrameConnection.send`; whether the frame reaches the core. -/
  calls : List (IngressMessage × Bool) := []
  /-- The turns whose final chunk was seen. -/
  finished : List IngressMessage := []
  /-- The turns that were surfaced to the user as failed. -/
  surfaced : List IngressMessage := []

def setTurn (msg : IngressMessage) : List IngressMessage → List IngressMessage
  | [] => [msg]
  | other :: turns =>
    if other.traceId = msg.traceId then msg :: turns else other :: setTurn msg turns

/-- `_inflight.pop(trace_id, None)`. -/
def popTurn (traceId : String) (turns : List IngressMessage) : List IngressMessage :=
  turns.filter fun msg => msg.traceId ≠ traceId

variable (link : TurnLink) (msg : IngressMessage)

/-- `_do_submit`; a message for a channel without an adapter is dropped. -/
def TurnLink.doSubmit (reaches : Bool) : TurnLink :=
  if msg.channel ∈ link.adapters then
    { link with
      inflight := setTurn msg link.inflight
      calls := link.calls ++ [(msg, reaches)] }
  else link

variable (delivered : Bool)

/-- The exception handler of `_flush_pending`; `delivered` is whether the notice of
`_notify_replay_failure` gets to the user. -/
def TurnLink.replayFailed :
    TurnLink :=
  let attempts := link.replayAttempts msg.traceId + 1
  let link := { link with inflight := popTurn msg.traceId link.inflight }
  if attempts < MAX_REPLAY_ATTEMPTS ∧ mayRetryReplay then
    { link with
      replayAttempts := update link.replayAttempts msg.traceId attempts
      pending := link.pending ++ [msg] }
  else
    { link with
      replayAttempts := update link.replayAttempts msg.traceId 0
      surfaced :=
        if msg.channel ∈ link.adapters ∧ delivered then link.surfaced ++ [msg]
        else link.surfaced }

def TurnLink.replayed : TurnLink :=
  { link with replayAttempts := update link.replayAttempts msg.traceId 0 }

/-- `drop_connection` and `finalize`. -/
def TurnLink.cut : TurnLink :=
  { link with
    conn := none
    buffering := true
    inflight := []
    pending := link.inflight ++ link.pending }

def TurnLink.setPhase (i : Nat) (phase : Phase) : TurnLink :=
  { link with handlers := link.handlers.set i phase }

/-- What can happen.  `i` is the number of a connection. -/
inductive TurnOp where
  | submit (msg : IngressMessage) (reaches : Bool)
  /-- `set_connection`. -/
  | bind
  | hello (i : Nat) (compatible : Bool)
  | restartNotice (i : Nat)
  /-- The final chunk of a turn. -/
  | final (i : Nat) (traceId : String)
  /-- The flush takes its next message. -/
  | next (i : Nat) (reaches delivered : Bool)
  /-- The `send` of the flush returns or raises. -/
  | returned (i : Nat) (delivered : Bool)
  /-- The connection ends. -/
  | ended (i : Nat)
  /-- The coroutine is cancelled, wherever it is. -/
  | cancelled (i : Nat)

def turnStep : TurnOp → TurnLink
  | .submit msg reaches =>
    let link := { link with submitted := link.submitted ++ [msg] }
    if link.conn = none ∨ link.buffering then
      { link with pending := link.pending ++ [msg] }
    else link.doSubmit msg reaches
  | .bind =>
    { link with conn := some link.handlers.length, handlers := link.handlers ++ [.reading] }
  | .hello i compatible =>
    if link.handlers[i]? = some .reading then
      if compatible then
        { link with buffering := false, pending := [] }.setPhase i
          (.flushing none link.pending)
      else { link with buffering := true }
    else link
  | .restartNotice i =>
    if link.handlers[i]? = some .reading then { link with buffering := true } else link
  | .final i traceId =>
    if link.handlers[i]? = some .reading then
      { link with
        finished := link.finished ++ link.submitted.filter fun msg =>
          msg.traceId = traceId ∧ msg ∉ link.finished
        inflight := popTurn traceId link.inflight }
    else link
  | .next i reaches delivered =>
    match link.handlers[i]? with
    | some (.flushing none []) => link.setPhase i .reading
    | some (.flushing none (msg :: rest)) =>
      if msg.channel ∉ link.adapters then
        (link.replayed msg).setPhase i (.flushing none rest)
      else if link.conn = none then
        (link.replayFailed msg delivered).setPhase i (.flushing none rest)
      else (link.doSubmit msg reaches).setPhase i (.flushing (some (msg, reaches)) rest)
    | _ => link
  | .returned i delivered =>
    match link.handlers[i]? with
    | some (.flushing (some (msg, true)) rest) =>
      (link.replayed msg).setPhase i (.flushing none rest)
    | some (.flushing (some (msg, false)) rest) =>
      (link.replayFailed msg delivered).setPhase i (.flushing none rest)
    | _ => link
  | .ended i =>
    if link.handlers[i]? = some .reading then link.cut.setPhase i .stopped else link
  | .cancelled i =>
    match link.handlers[i]? with
    | some .stopped | none => link
    | some _ => link.cut.setPhase i .stopped

/-! ## The ledger of a link -/

def TurnLink.ledger : Ledger where
  pending := link.pending
  held := link.handlers.flatMap Phase.rest
  sending := link.handlers.flatMap Phase.current
  inflight := link.inflight
  replayAttempts := link.replayAttempts
  submitted := link.submitted
  calls := link.calls
  finished := link.finished
  surfaced := link.surfaced

def TurnLink.nextOf (i : Nat) : Option IngressMessage :=
  match link.handlers[i]? with
  | some (.flushing none (msg :: _)) => some msg
  | _ => none

/-- The message whose send by a flush is about to fail. -/
def TurnLink.failingOf (i : Nat) : Option IngressMessage :=
  match link.handlers[i]? with
  | some (.flushing (some (msg, false)) _) => some msg
  | _ => none

/-- No flush is under way. -/
def TurnLink.Quiet : Prop := ∀ phase ∈ link.handlers, phase.busy = false

/-- A replay may fail: nothing else of its session waits, and if it was the last attempt
the user gets the notice. -/
def TurnLink.MayFail : Prop :=
  link.ledger.Alone msg ∧
    (¬ link.replayAttempts msg.traceId + 1 < MAX_REPLAY_ATTEMPTS → delivered = true)

/-- The operations that keep clear of the places where the code loses, doubles or
overtakes a turn. -/
def Orderly : TurnOp → Prop
  /- A new trace id and a channel with an adapter; what is sent at once overtakes nothing
  of its session that still waits in a buffer or behind a failed send. -/
  | .submit msg _ =>
    (∀ other ∈ link.submitted, other.traceId ≠ msg.traceId) ∧
    msg.channel ∈ link.adapters ∧
    (¬ (link.conn = none ∨ link.buffering = true) →
      ∀ other ∈ link.ledger.waiting, other.sessionKey ≠ msg.sessionKey)
  | .bind | .restartNotice _ => True
  /- No flush of another connection is under way. -/
  | .hello _ _ => link.Quiet
  /- The final chunk of a turn that is in flight, or of one that is finished. -/
  | .final _ traceId => ∀ msg ∈ link.submitted, msg.traceId = traceId →
      msg ∈ link.inflight ∨ msg ∈ link.finished
  /- Nothing of the session is in flight without having been sent. -/
  | .next i _ delivered => ∀ msg ∈ link.nextOf i,
      if link.conn = none then link.MayFail msg delivered
      else ∀ other ∈ link.inflight, other ∉ link.ledger.reached →
        other.sessionKey ≠ msg.sessionKey
  /- The turn is still in flight. -/
  | .returned i delivered => ∀ msg ∈ link.failingOf i,
      msg ∈ link.inflight ∧ link.MayFail msg delivered
  /- No flush is under way, and no turn is cut that was replayed before. -/
  | .ended _ => link.Quiet ∧ ∀ msg ∈ link.inflight, link.ledger.tries msg ≤ 1
  /- No other flush is under way, nothing is left of this one. -/
  | .cancelled i => (link.setPhase i .stopped).Quiet ∧ link.ledger.held = [] ∧
      ∀ msg ∈ link.inflight, link.ledger.tries msg ≤ 1

instance (link : TurnLink) : Decidable link.Quiet :=
  inferInstanceAs (Decidable (∀ phase ∈ link.handlers, _))

instance (t : Ledger) (msg : IngressMessage) : Decidable (t.Alone msg) :=
  inferInstanceAs (Decidable (_ → ∀ other ∈ t.waiting, _))

instance (link : TurnLink) (msg : IngressMessage) (delivered : Bool) :
    Decidable (link.MayFail msg delivered) :=
  inferInstanceAs (Decidable (_ ∧ _))

instance (link : TurnLink) : ∀ op, Decidable (Orderly link op)
  | .submit _ _ => inferInstanceAs (Decidable (_ ∧ _ ∧ (_ → ∀ other ∈ link.ledger.waiting, _)))
  | .bind | .restartNotice _ => isTrue trivial
  | .hello _ _ => inferInstanceAs (Decidable link.Quiet)
  | .final _ _ => inferInstanceAs (Decidable (∀ msg ∈ link.submitted, _ → _))
  | .next i _ _ => inferInstanceAs (Decidable (∀ msg ∈ link.nextOf i,
      if link.conn = none then link.MayFail msg _ else ∀ other ∈ link.inflight, _ → _))
  | .returned i _ => inferInstanceAs (Decidable (∀ msg ∈ link.failingOf i, _ ∧ link.MayFail msg _))
  | .ended _ => inferInstanceAs (Decidable (link.Quiet ∧ ∀ msg ∈ link.inflight, _))
  | .cancelled i => inferInstanceAs (Decidable ((link.setPhase i .stopped).Quiet ∧ _ ∧
      ∀ msg ∈ link.inflight, _))

/-- At most one flush is under way, and every message is for a channel with an
adapter. -/
structure OneFlush (link : TurnLink) : Prop where
  single : ∀ (i j : Nat) (p q : Phase), link.handlers[i]? = some p →
    link.handlers[j]? = some q → p.busy = true → q.busy = true → i = j
  registered : ∀ msg ∈ link.submitted, msg.channel ∈ link.adapters

/-! ### One flush -/

variable {p : Phase}

theorem Phase.rest_of_not_busy (h : p.busy = false) : p.rest = [] := by
  cases p with
  | flushing current rest => cases h
  | reading | stopped => rfl

theorem Phase.current_of_not_busy (h : p.busy = false) : p.current = [] := by
  cases p with
  | flushing current rest => cases h
  | reading | stopped => rfl

theorem flatMap_of_single {α : Type} {f : Phase → List α}
    (hf : ∀ p : Phase, p.busy = false → f p = []) :
    ∀ {phases : List Phase} {i : Nat} {p : Phase}, phases[i]? = some p →
      (∀ j q, phases[j]? = some q → q.busy = true → j = i) → phases.flatMap f = f p := by
  intro phases
  induction phases with
  | nil => intro i p h; simp at h
  | cons first rest ih =>
    intro i p h hsingle
    rw [flatMap_cons]
    cases i with
    | zero =>
      obtain rfl : first = p := by simpa using h
      have hnone : rest.flatMap f = [] := by
        rw [flatMap_eq_nil_iff]
        intro q hq
        obtain ⟨j, hj⟩ := getElem?_of_mem hq
        apply hf
        by_contra hbusy
        have hzero := hsingle (j + 1) q (by simpa using hj) (by simpa using hbusy)
        cases hzero
      rw [hnone, append_nil]
    | succ i =>
      have hfirst : first.busy = false := by
        by_contra hbusy
        have hsucc := hsingle 0 first (by simp) (by simpa using hbusy)
        cases hsucc
      rw [hf first hfirst, nil_append]
      refine ih (by simpa using h) ?_
      intro j q hj hbusy
      have hsucc := hsingle (j + 1) q (by simpa using hj) hbusy
      omega

variable {i : Nat} {phases : List Phase}

theorem flatMap_set {α : Type} {f : Phase → List α} (hf : ∀ p : Phase, p.busy = false → f p = [])
    (h : phases[i]? = some p) (p' : Phase)
    (hsingle : ∀ j q, phases[j]? = some q → q.busy = true → j = i) :
    (phases.set i p').flatMap f = f p' := by
  obtain ⟨hlt, -⟩ := List.getElem?_eq_some_iff.mp h
  refine flatMap_of_single hf (i := i) (by simp [hlt]) ?_
  intro j q hj hbusy
  by_contra hne
  rw [List.getElem?_set_ne (Ne.symm hne)] at hj
  exact hne (hsingle j q hj hbusy)

/-- The ledger after the one flush that may be under way has moved on. -/
theorem ledger_setPhase (h : link.handlers[i]? = some p) (p' : Phase)
    (hsingle : ∀ j q, link.handlers[j]? = some q → q.busy = true → j = i) :
    (link.setPhase i p').ledger =
      { link.ledger with held := p'.rest, sending := p'.current } := by
  rw [TurnLink.ledger, TurnLink.setPhase]
  simp only [flatMap_set (fun _ => Phase.rest_of_not_busy) h p' hsingle,
    flatMap_set (fun _ => Phase.current_of_not_busy) h p' hsingle]
  rfl

variable {link}

theorem held_ledger (h : link.handlers[i]? = some p)
    (hsingle : ∀ j q, link.handlers[j]? = some q → q.busy = true → j = i) :
    link.ledger.held = p.rest :=
  flatMap_of_single (fun _ => Phase.rest_of_not_busy) h hsingle

theorem sending_ledger (h : link.handlers[i]? = some p)
    (hsingle : ∀ j q, link.handlers[j]? = some q → q.busy = true → j = i) :
    link.ledger.sending = p.current :=
  flatMap_of_single (fun _ => Phase.current_of_not_busy) h hsingle

theorem TurnLink.Quiet.single (h : link.Quiet) (i : Nat) :
    ∀ j q, link.handlers[j]? = some q → q.busy = true → j = i := by
  intro j q hj hbusy
  have hidle := h q (mem_of_getElem? hj)
  rw [hbusy] at hidle
  cases hidle

/-! ### Ids -/

variable {msg} {turns : List IngressMessage}

theorem setTurn_of_fresh (h : ∀ other ∈ turns, other.traceId ≠ msg.traceId)
    : setTurn msg turns = turns ++ [msg] := by
  induction turns with
  | nil => rfl
  | cons other turns ih =>
    rw [forall_mem_cons] at h
    rw [setTurn, if_neg h.1, ih h.2, cons_append]

theorem popTurn_eq (hp : link.ledger.Placed) (hmsg : msg ∈ link.ledger.places) :
    popTurn msg.traceId link.inflight = link.inflight.filter fun other => other ≠ msg := by
  apply filter_congr
  intro other hother
  have hplace : other ∈ link.ledger.places := by
    simp only [Ledger.places, mem_append]
    exact .inl (.inl (.inr hother))
  rw [decide_eq_decide]
  constructor
  · rintro hid rfl
    exact hid rfl
  · intro hne hid
    exact hne (hp.eq_of_traceId hplace hmsg hid)

theorem filter_ne_of_not_mem (h : msg ∉ turns) :
    (turns.filter fun other => other ≠ msg) = turns := by
  apply filter_eq_self.mpr
  intro other hother
  apply decide_eq_true
  rintro rfl
  exact h hother

/-- A flush's message is not in flight while it is still to come. -/
theorem not_mem_inflight (hp : link.ledger.Placed) {rest : List IngressMessage}
    (hheld : link.ledger.held = msg :: rest) :
    msg ∉ link.inflight := by
  have hle := hp.count_le msg
  simp only [Ledger.places, hheld, count_append, count_cons_self] at hle
  rw [← count_eq_zero]
  have hsame : link.ledger.inflight = link.inflight := rfl
  rw [hsame] at hle
  omega

/-! ### Operations as steps of the ledger -/

theorem ledger_doSubmit (reaches : Bool) (hchannel : msg.channel ∈ link.adapters)
    (hfresh : ∀ other ∈ link.inflight, other.traceId ≠ msg.traceId) :
    link.doSubmit msg reaches =
      { link with
        inflight := link.inflight ++ [msg]
        calls := link.calls ++ [(msg, reaches)] } := by
  rw [TurnLink.doSubmit, if_pos hchannel, setTurn_of_fresh hfresh]

theorem ledger_replayFailed (hchannel : msg.channel ∈ link.adapters)
    (hnotice : ¬ link.replayAttempts msg.traceId + 1 < MAX_REPLAY_ATTEMPTS → delivered = true) :
    (link.replayFailed msg delivered).ledger =
      { link.ledger with inflight := popTurn msg.traceId link.inflight }.replayFailed msg := by
  have hretry : mayRetryReplay = true := rfl
  rw [TurnLink.replayFailed, Ledger.replayFailed]
  by_cases hleft : link.replayAttempts msg.traceId + 1 < MAX_REPLAY_ATTEMPTS
  · rw [if_pos ⟨hleft, hretry⟩]
    exact (if_pos hleft).symm
  · rw [if_neg (fun h => hleft h.1), if_pos ⟨hchannel, hnotice hleft⟩]
    exact (if_neg hleft).symm

@[simp] theorem handlers_replayFailed (link : TurnLink) (msg : IngressMessage)
    (delivered : Bool) : (link.replayFailed msg delivered).handlers = link.handlers := by
  rw [TurnLink.replayFailed]
  dsimp only
  split <;> rfl

theorem OneFlush.others (h : OneFlush link) (hi : link.handlers[i]? = some p) (hp : p.busy = true) :
    ∀ j q, link.handlers[j]? = some q → q.busy = true → j = i :=
  fun j q hj hq => h.single j i q p hj hi hq hp

theorem mem_places_of_inflight (h : msg ∈ link.inflight) : msg ∈ link.ledger.places := by
  simp only [Ledger.places, mem_append]
  exact .inl (.inl (.inr h))

theorem mem_places_of_held (h : msg ∈ link.ledger.held) : msg ∈ link.ledger.places := by
  simp only [Ledger.places, mem_append]
  exact .inl (.inl (.inl (.inr h)))

variable {reaches : Bool}

theorem step_submit (hp : link.ledger.Placed) (hop : Orderly link (.submit msg reaches)) :
    link.ledger.Step (turnStep link (.submit msg reaches)).ledger := by
  obtain ⟨hfresh, hchannel, hclear⟩ := hop
  by_cases hwait : link.conn = none ∨ link.buffering = true
  · have hstep : turnStep link (.submit msg reaches) =
        { link with
          submitted := link.submitted ++ [msg]
          pending := link.pending ++ [msg] } := by
      rw [turnStep]
      exact if_pos hwait
    rw [hstep]
    exact .buffer msg hfresh
  · have hinflight : ∀ other ∈ link.inflight, other.traceId ≠ msg.traceId :=
      fun other hother => hfresh other (hp.mem.mp (mem_places_of_inflight hother))
    have hstep : turnStep link (.submit msg reaches) =
        { link with
          submitted := link.submitted ++ [msg]
          inflight := link.inflight ++ [msg]
          calls := link.calls ++ [(msg, reaches)] } := by
      rw [turnStep]
      exact (if_neg hwait).trans (ledger_doSubmit reaches hchannel hinflight)
    rw [hstep]
    exact .direct msg reaches hfresh (hclear hwait)

theorem step_final {traceId : String} (hp : link.ledger.Placed)
    (hop : Orderly link (.final i traceId)) :
    link.ledger.Step (turnStep link (.final i traceId)).ledger := by
  rw [turnStep]
  split
  · by_cases hknown : ∃ msg ∈ link.submitted, msg.traceId = traceId
    · obtain ⟨msg, hsubmitted, rfl⟩ := hknown
      have hplace := hp.mem.mpr hsubmitted
      have hpop := popTurn_eq hp hplace
      have hsame : ∀ other ∈ link.submitted, other.traceId = msg.traceId ↔ other = msg := by
        intro other hother
        exact ⟨fun hid => hp.eq_of_traceId (hp.mem.mpr hother) hplace hid, fun heq => heq ▸ rfl⟩
      rcases hop msg hsubmitted rfl with hmem | hmem
      · have hnot : msg ∉ link.finished := hp.not_finished hmem
        have hone : (link.submitted.filter fun other =>
            decide (other.traceId = msg.traceId ∧ other ∉ link.finished)) = [msg] := by
          have hfilter : (link.submitted.filter fun other =>
              decide (other.traceId = msg.traceId ∧ other ∉ link.finished)) =
              link.submitted.filter fun other => other == msg := by
            apply filter_congr
            intro other hother
            rw [Bool.eq_iff_iff, decide_eq_true_eq, beq_iff_eq, hsame other hother]
            exact ⟨fun h => h.1, fun h => ⟨h, h ▸ hnot⟩⟩
          have hcount : link.submitted.count msg = 1 := by
            have hpos := count_pos_iff.mpr hsubmitted
            have hmost := hp.count_le msg
            rw [hp.count msg] at hmost
            exact Nat.le_antisymm hmost hpos
          rw [hfilter, filter_beq, hcount]
          rfl
        rw [hone, hpop]
        exact .finish msg hmem
      · have hnot : msg ∉ link.inflight := fun hinflight => hp.not_finished hinflight hmem
        have hnone : (link.submitted.filter fun other =>
            decide (other.traceId = msg.traceId ∧ other ∉ link.finished)) = [] := by
          rw [filter_eq_nil_iff]
          intro other hother hboth
          obtain ⟨hid, hnew⟩ := of_decide_eq_true hboth
          exact hnew ((hsame other hother).mp hid ▸ hmem)
        rw [hnone, hpop, filter_ne_of_not_mem hnot, append_nil]
        exact .same
    · have hnone : (link.submitted.filter fun other =>
          decide (other.traceId = traceId ∧ other ∉ link.finished)) = [] := by
        rw [filter_eq_nil_iff]
        intro other hother hboth
        exact hknown ⟨other, hother, (of_decide_eq_true hboth).1⟩
      have hpop : popTurn traceId link.inflight = link.inflight := by
        apply filter_eq_self.mpr
        intro other hother
        apply decide_eq_true
        intro hid
        exact hknown ⟨other, hp.mem.mp (mem_places_of_inflight hother), hid⟩
      rw [hnone, hpop, append_nil]
      exact .same
  · exact .same

theorem step_next {delivered : Bool} (hl : OneFlush link) (hp : link.ledger.Placed)
    (hop : Orderly link (.next i reaches delivered)) :
    link.ledger.Step (turnStep link (.next i reaches delivered)).ledger := by
  rw [turnStep]
  split
  · rename_i hi
    have hothers := hl.others hi rfl
    rw [ledger_setPhase link hi _ hothers]
    have hheld := held_ledger hi hothers
    have hsending := sending_ledger hi hothers
    show link.ledger.Step { link.ledger with held := [], sending := [] }
    rw [show ([] : List IngressMessage) = link.ledger.held from hheld.symm,
      show ([] : List (IngressMessage × Bool)) = link.ledger.sending from hsending.symm]
    exact .same
  · rename_i msg rest hi
    have hothers := hl.others hi rfl
    have hheld : link.ledger.held = msg :: rest := held_ledger hi hothers
    have hsending : link.ledger.sending = [] := sending_ledger hi hothers
    have hmem : msg ∈ link.ledger.held := by simp [hheld]
    have hsubmitted : msg ∈ link.submitted := hp.mem.mp (mem_places_of_held hmem)
    have hchannel := hl.registered msg hsubmitted
    have hnot := not_mem_inflight hp hheld
    have hnext : link.nextOf i = some msg := by
      rw [TurnLink.nextOf, hi]
    have hcond := hop msg hnext
    rw [if_neg (not_not.mpr hchannel)]
    split
    · rename_i hconn
      rw [if_pos hconn] at hcond
      have hpop : popTurn msg.traceId link.inflight = link.inflight := by
        rw [popTurn_eq hp (mem_places_of_held hmem), filter_ne_of_not_mem hnot]
      have hledger := ledger_replayFailed delivered hchannel hcond.2
      rw [hpop] at hledger
      have hset := ledger_setPhase (link.replayFailed msg delivered)
        (p := .flushing none (msg :: rest)) (by rw [handlers_replayFailed]; exact hi)
        (.flushing none rest) (by rw [handlers_replayFailed]; exact hothers)
      rw [hset, hledger]
      have hstep := Ledger.Step.refuse (t := link.ledger) msg rest hheld hsending hcond.1
      have heq : { link.ledger.replayFailed msg with held := rest, sending := [] } =
          Ledger.replayFailed { link.ledger with held := rest } msg := by
        rw [Ledger.replayFailed, Ledger.replayFailed]
        split <;> simp [hsending]
      rw [← heq] at hstep
      exact hstep
    · rename_i hconn
      rw [if_neg hconn] at hcond
      have hfresh : ∀ other ∈ link.inflight, other.traceId ≠ msg.traceId := by
        intro other hother hid
        have heq := hp.eq_of_traceId (mem_places_of_inflight hother)
          (mem_places_of_held hmem) hid
        exact hnot (heq ▸ hother)
      rw [ledger_doSubmit reaches hchannel hfresh]
      have hset := ledger_setPhase ({ link with
        inflight := link.inflight ++ [msg]
        calls := link.calls ++ [(msg, reaches)] }) (i := i) hi
        (.flushing (some (msg, reaches)) rest) hothers
      rw [hset]
      exact .take msg reaches rest hheld hsending hcond
  · exact .same

theorem step_returned {delivered : Bool} (hl : OneFlush link) (hp : link.ledger.Placed)
    (hop : Orderly link (.returned i delivered)) :
    link.ledger.Step (turnStep link (.returned i delivered)).ledger := by
  rw [turnStep]
  split
  · rename_i msg rest hi
    have hothers := hl.others hi rfl
    have hset := ledger_setPhase (link.replayed msg) (i := i) hi
      (.flushing none rest) hothers
    have hheld : link.ledger.held = rest := held_ledger hi hothers
    rw [hset]
    have hstep := Ledger.Step.forwarded (t := link.ledger) msg (sending_ledger hi hothers)
    rw [← hheld]
    exact hstep
  · rename_i msg rest hi
    have hothers := hl.others hi rfl
    have hheld : link.ledger.held = rest := held_ledger hi hothers
    have hsending : link.ledger.sending = [(msg, false)] := sending_ledger hi hothers
    have hfailing : link.failingOf i = some msg := by
      rw [TurnLink.failingOf, hi]
    obtain ⟨hmem, halone, hnotice⟩ := hop msg hfailing
    have hplace := mem_places_of_inflight hmem
    have hchannel := hl.registered msg (hp.mem.mp hplace)
    have hledger := ledger_replayFailed delivered hchannel hnotice
    rw [popTurn_eq hp hplace] at hledger
    have hset := ledger_setPhase (link.replayFailed msg delivered)
      (p := .flushing (some (msg, false)) rest)
      (by rw [handlers_replayFailed]; exact hi) (.flushing none rest)
      (by rw [handlers_replayFailed]; exact hothers)
    rw [hset, hledger]
    have hstep := Ledger.Step.failed (t := link.ledger) msg hsending hmem halone
    have heq : { Ledger.replayFailed
          { link.ledger with
            inflight := link.inflight.filter fun other => decide (other ≠ msg) } msg with
          held := rest, sending := [] } =
        Ledger.replayFailed
          { link.ledger with
            sending := []
            inflight := link.ledger.inflight.filter fun other => decide (other ≠ msg) }
          msg := by
      rw [← hheld, Ledger.replayFailed, Ledger.replayFailed]
      split <;> rfl
    rw [← heq] at hstep
    exact hstep
  · exact .same

theorem step_hello {compatible : Bool} (hop : Orderly link (.hello i compatible)) :
    link.ledger.Step (turnStep link (.hello i compatible)).ledger := by
  rw [turnStep]
  split
  · rename_i hi
    have hothers := hop.single i
    have hheld : link.ledger.held = [] := held_ledger hi hothers
    have hsending : link.ledger.sending = [] := sending_ledger hi hothers
    cases compatible with
    | true =>
      have hset := ledger_setPhase ({ link with buffering := false, pending := [] })
        (i := i) hi (.flushing none link.pending) hothers
      show link.ledger.Step (TurnLink.ledger (TurnLink.setPhase
        { link with buffering := false, pending := [] } i (.flushing none link.pending)))
      rw [hset]
      have hstep := Ledger.Step.swap hheld hsending
      have heq : { link.ledger with held := link.pending, pending := [], sending := [] } =
          { link.ledger with held := link.ledger.pending, pending := [] } := by
        rw [← hsending]
        rfl
      rw [← heq] at hstep
      exact hstep
    | false => exact .same
  · exact .same

/-- A connection that ends in the middle of nothing puts the turns in flight back. -/
theorem step_cut (hi : link.handlers[i]? = some p)
    (hothers : ∀ j q, link.handlers[j]? = some q → q.busy = true → j = i)
    (hheld : link.ledger.held = []) (htries : ∀ msg ∈ link.inflight, link.ledger.tries msg ≤ 1) :
    link.ledger.Step (link.cut.setPhase i .stopped).ledger := by
  rw [ledger_setPhase link.cut (i := i) hi .stopped hothers]
  have hstep := Ledger.Step.cut hheld htries
  have heq : { link.cut.ledger with held := Phase.stopped.rest, sending := Phase.stopped.current } =
      { link.ledger with
        sending := []
        inflight := []
        pending := link.ledger.inflight ++ link.ledger.pending } := by
    rw [show Phase.stopped.rest = link.ledger.held from hheld.symm]
    rfl
  rw [heq]
  exact hstep

theorem others_of_setPhase (h : (link.setPhase i .stopped).Quiet) :
    ∀ j q, link.handlers[j]? = some q → q.busy = true → j = i := by
  intro j q hj hbusy
  by_contra hne
  have hidle := h q (mem_of_getElem? (i := j) (by
    show (link.handlers.set i .stopped)[j]? = some q
    rw [getElem?_set_ne (Ne.symm hne)]
    exact hj))
  rw [hbusy] at hidle
  cases hidle

variable {op : TurnOp}

/-- An operation that keeps clear of the defects is a step of the ledger. -/
theorem turnStep_ledger (hl : OneFlush link) (hp : link.ledger.Placed) (hop : Orderly link op) :
    link.ledger.Step (turnStep link op).ledger := by
  cases op with
  | submit msg reaches => exact step_submit hp hop
  | bind =>
    have hledger : (turnStep link .bind).ledger = link.ledger := by
      simp [turnStep, TurnLink.ledger, Phase.rest, Phase.current]
    rw [hledger]
    exact .same
  | hello i compatible => exact step_hello hop
  | restartNotice i =>
    rw [turnStep]
    split <;> exact .same
  | final i traceId => exact step_final hp hop
  | next i reaches delivered => exact step_next hl hp hop
  | returned i delivered => exact step_returned hl hp hop
  | ended i =>
    rw [turnStep]
    split
    · rename_i hi
      exact step_cut hi (hop.1.single i) (held_ledger hi (hop.1.single i)) hop.2
    · exact .same
  | cancelled i =>
    rw [turnStep]
    split
    · exact .same
    · exact .same
    · rename_i p hover hi
      exact step_cut hi (others_of_setPhase hop.1) hop.2.1 hop.2.2

/-! ## Runs -/

theorem frame_replayFailed (link : TurnLink) (msg : IngressMessage) (delivered : Bool) :
    (link.replayFailed msg delivered).adapters = link.adapters ∧
      (link.replayFailed msg delivered).submitted = link.submitted := by
  rw [TurnLink.replayFailed]
  dsimp only
  split <;> exact ⟨rfl, rfl⟩

theorem frame_doSubmit (link : TurnLink) (msg : IngressMessage) (reaches : Bool) :
    (link.doSubmit msg reaches).adapters = link.adapters ∧
      (link.doSubmit msg reaches).submitted = link.submitted ∧
      (link.doSubmit msg reaches).handlers = link.handlers := by
  rw [TurnLink.doSubmit]
  split <;> exact ⟨rfl, rfl, rfl⟩

theorem registered_step (hl : OneFlush link) (hop : Orderly link op) :
    ∀ msg ∈ (turnStep link op).submitted, msg.channel ∈ (turnStep link op).adapters := by
  cases op with
  | submit msg reaches =>
    have hnew : ∀ other ∈ link.submitted ++ [msg], other.channel ∈ link.adapters := by
      intro other hother
      rcases mem_snoc.mp hother with hmem | rfl
      · exact hl.registered other hmem
      · exact hop.2.1
    rw [turnStep]
    dsimp only
    split
    · exact hnew
    · rw [(frame_doSubmit _ _ _).1, (frame_doSubmit _ _ _).2.1]
      exact hnew
  | bind => exact hl.registered
  | hello i compatible =>
    rw [turnStep]
    split
    · split <;> exact hl.registered
    · exact hl.registered
  | restartNotice i | final i traceId | ended i =>
    rw [turnStep]
    split <;> exact hl.registered
  | next i reaches delivered =>
    rw [turnStep]
    split
    · exact hl.registered
    · split
      · exact hl.registered
      · split
        · show ∀ msg ∈ (link.replayFailed _ _).submitted,
            msg.channel ∈ (link.replayFailed _ _).adapters
          rw [(frame_replayFailed _ _ _).1, (frame_replayFailed _ _ _).2]
          exact hl.registered
        · show ∀ msg ∈ (link.doSubmit _ _).submitted,
            msg.channel ∈ (link.doSubmit _ _).adapters
          rw [(frame_doSubmit _ _ _).1, (frame_doSubmit _ _ _).2.1]
          exact hl.registered
    · exact hl.registered
  | returned i delivered =>
    rw [turnStep]
    split
    · exact hl.registered
    · show ∀ msg ∈ (link.replayFailed _ _).submitted,
        msg.channel ∈ (link.replayFailed _ _).adapters
      rw [(frame_replayFailed _ _ _).1, (frame_replayFailed _ _ _).2]
      exact hl.registered
    · exact hl.registered
  | cancelled i =>
    rw [turnStep]
    split <;> exact hl.registered

/-- At most one coroutine is in a flush. -/
def Single (phases : List Phase) : Prop :=
  ∀ (i j : Nat) (p q : Phase), phases[i]? = some p → phases[j]? = some q →
    p.busy = true → q.busy = true → i = j

theorem single_set (h : ∀ j q, phases[j]? = some q → q.busy = true → j = i) (phase : Phase) :
    Single (phases.set i phase) := by
  have hall : ∀ j q, (phases.set i phase)[j]? = some q → q.busy = true → j = i := by
    intro j q hj hbusy
    by_contra hne
    rw [getElem?_set_ne (Ne.symm hne)] at hj
    exact hne (h j q hj hbusy)
  intro j k p q hj hk hp hq
  rw [hall j p hj hp, hall k q hk hq]

theorem single_append (h : Single phases) :
    Single (phases ++ [.reading]) := by
  have hold : ∀ (j : Nat) (q : Phase), (phases ++ [.reading])[j]? = some q →
      q.busy = true → phases[j]? = some q := by
    intro j q hj hbusy
    by_cases hlt : j < phases.length
    · rwa [getElem?_append_left hlt] at hj
    · rw [getElem?_append_right (Nat.le_of_not_lt hlt)] at hj
      obtain rfl : q = .reading := mem_singleton.mp (mem_of_getElem? hj)
      cases hbusy
  intro i j p q hi hj hp hq
  exact h i j p q (hold i p hi hp) (hold j q hj hq) hp hq

theorem single_step (hl : OneFlush link) (hop : Orderly link op) :
    Single (turnStep link op).handlers := by
  cases op <;> rw [turnStep]
  case submit msg reaches =>
    dsimp only
    split
    · exact hl.single
    · rw [(frame_doSubmit _ _ _).2.2]
      exact hl.single
  case bind => exact single_append hl.single
  case hello i compatible =>
    split
    · split
      · exact single_set (hop.single i) _
      · exact hl.single
    · exact hl.single
  case restartNotice i | final i traceId => split <;> exact hl.single
  case next i reaches delivered =>
    split
    · rename_i hi
      exact single_set (hl.others hi rfl) _
    · rename_i msg rest hi
      split
      · exact single_set (hl.others hi rfl) _
      · split
        · show Single ((link.replayFailed _ _).handlers.set i _)
          rw [handlers_replayFailed]
          exact single_set (hl.others hi rfl) _
        · show Single ((link.doSubmit _ _).handlers.set i _)
          rw [(frame_doSubmit _ _ _).2.2]
          exact single_set (hl.others hi rfl) _
    · exact hl.single
  case returned i delivered =>
    split
    · rename_i msg rest hi
      exact single_set (hl.others hi rfl) _
    · rename_i msg rest hi
      show Single ((link.replayFailed _ _).handlers.set i _)
      rw [handlers_replayFailed]
      exact single_set (hl.others hi rfl) _
    · exact hl.single
  case ended i =>
    split
    · exact single_set (hop.1.single i) _
    · exact hl.single
  case cancelled i =>
    split
    · exact hl.single
    · exact hl.single
    · exact single_set (others_of_setPhase hop.1) _

/-- What holds of a link in every state of an orderly run. -/
structure Sound (link : TurnLink) : Prop where
  linked : OneFlush link
  placed : link.ledger.Placed
  ordered : link.ledger.Ordered
  counted : link.ledger.Counted

theorem Sound.step (h : Sound link) (hop : Orderly link op) :
    Sound (turnStep link op) where
  linked := ⟨single_step h.linked hop, registered_step h.linked hop⟩
  placed := (turnStep_ledger h.linked h.placed hop).placed h.placed
  ordered := (turnStep_ledger h.linked h.placed hop).ordered h.ordered h.placed
  counted := (turnStep_ledger h.linked h.placed hop).counted h.counted h.ordered h.placed

theorem Sound.start (adapters : List String) : Sound { adapters := adapters } where
  linked := ⟨fun i j p q hi => by simp at hi, nofun⟩
  placed := ⟨fun msg => rfl, nodup_nil⟩
  ordered := ⟨fun session => List.Sublist.refl _, nofun⟩
  counted := by
    refine ⟨fun traceId => ?_, fun msg hmsg => ?_, fun call hcall => ?_, fun msg => ?_⟩
    · exact (by decide : 0 < MAX_REPLAY_ATTEMPTS)
    · cases hmsg
    · cases hcall
    · exact Nat.zero_le _

/-! ## No turn is lost -/

/-- What the gateway promises of the turns: every submitted message is in exactly one
place (buffered or held by a flush, in flight, finished or surfaced); it is sent at most
once and for every attempt to replay it, and one sent that often is not buffered any
more, nor surfaced twice; and the messages of a session first reach a core in the order
of their submission. -/
structure TurnsKept (link : TurnLink) : Prop where
  once : ∀ msg ∈ link.submitted, link.ledger.places.count msg = 1
  bounded : ∀ msg ∈ link.submitted, link.ledger.tries msg ≤ 1 + MAX_REPLAY_ATTEMPTS
  spent : ∀ msg ∈ link.ledger.held ++ link.pending,
    link.ledger.tries msg < 1 + MAX_REPLAY_ATTEMPTS
  ordered : ∀ session,
    (Ledger.onSession session link.ledger.firstSends).Sublist link.submitted

theorem Sound.kept (h : Sound link) : TurnsKept link where
  once msg hmsg := by
    have hpos := count_pos_iff.mpr (h.placed.mem.mpr hmsg)
    exact Nat.le_antisymm (h.placed.count_le msg) hpos
  bounded msg _ := h.counted.all msg
  spent msg hmsg := by
    have htries := h.counted.buffered msg hmsg
    have hattempts := h.counted.attempts msg.traceId
    omega
  ordered session := by
    refine List.Sublist.trans ?_ (h.ordered.sublist session)
    rw [Ledger.onSession_append]
    exact sublist_append_left _ _

/-- In every run that keeps clear of the defects the turns are kept, in every state it
reaches. -/
theorem turns_kept (adapters : List String) (ops : List TurnOp)
    (h : Meets turnStep Orderly { adapters := adapters } ops) :
    Along turnStep TurnsKept { adapters := adapters } ops :=
  (along_of_meets (fun _ _ hsound hop => hsound.step hop) (Sound.start adapters) h).mono
    fun _ hsound => hsound.kept

/-- A message of one session, for the runs below. -/
def exampleMessage (traceId : String) : IngressMessage := ⟨traceId, "s", "cli"⟩

/-- A message that was buffered and one that was not, a core that is lost with one turn
cut, and its replay. -/
theorem turns_kept_replay :
    TurnsKept (run turnStep { adapters := ["cli"] }
      [.submit (exampleMessage "a") true, .bind, .hello 0 true, .next 0 true true,
        .returned 0 true, .next 0 true true, .submit (exampleMessage "b") true,
        .final 0 "a", .ended 0, .bind, .hello 1 true, .next 1 true true,
        .returned 1 true, .next 1 true true, .final 1 "b"]) :=
  (turns_kept ["cli"] _ (by decide)).last

/-- A message that is submitted during a flush overtakes one the flush still holds, and a
flush that is cancelled loses what it holds. -/
theorem turns_overtaken_and_lost :
    ¬ TurnsKept (run turnStep { adapters := ["cli"] }
      [.submit (exampleMessage "a") true, .submit (exampleMessage "b") true, .bind,
        .hello 0 true, .next 0 true true, .submit (exampleMessage "c") true,
        .returned 0 true, .next 0 true true]) ∧
    ¬ TurnsKept (run turnStep { adapters := ["cli"] }
      [.submit (exampleMessage "a") true, .submit (exampleMessage "b") true, .bind,
        .hello 0 true, .next 0 true true, .cancelled 0]) := by
  constructor
  · intro h
    exact absurd (h.ordered "s") (by decide)
  · intro h
    exact absurd (h.once (exampleMessage "b") (by decide)) (by decide)

end StackOwl.Runtime
