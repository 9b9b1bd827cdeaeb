import Mathlib.Data.List.Nodup
import StackOwl.Lib.Run

/-!
# Questions to the user and their replies

`ClarifyGateway` (`interaction/clarify_gateway.py`) and the resolve-router of
`ClarifyPump` (`gateway/clarify_pump.py`).  A tool asks a question and parks on its
event; a message of the user is classified against the question that is pending for its
session and channel, and resolves the one pending then.

What runs between two awaits is one step.  `ask` awaits while it retires what is pending
for the session, and again until its own entry is in the registry; a removal of several
entries awaits after each; the pump awaits the classifier; and a waiter whose event is
set runs later, or is timed out or cancelled first.  A question is known by its number
for the token `ask` mints.  The replies that were handed over are kept beside the
registry, in order, and read by nothing in it.

Inputs: the classifier's verdicts, the clock, the journal's failures, and what settles a
question's item in the journal apart from its own waiter.  The redaction of secrets is
a parameter.  The item as a waiter found it when it came back is kept too.

## Main results

* `delivered_of_orderly` — where nothing else is asked, removed or timed out between a
  question, its reply and its waiter, a reply reaches the waiter it was classified for.
* `settled_elsewhere` — a waiter returns what another surface answered, though the
  user's own reply was reported consumed.
-/

namespace StackOwl.Interaction

open Lib List Option

/-! ## Questions -/

/-- The outcomes of `wait_for_answer`. -/
inductive Outcome where
  | answered
  | timedOut
  | cancelled
  deriving DecidableEq

/-- The durable item of a question: none was opened, it is open, or it was settled with an
answer or as expired. -/
inductive Item where
  | unbound
  | opened
  | settled (answer : Option String)
  deriving DecidableEq

/-- The caller of `wait_for_answer`: not there yet, parked, back, or cancelled. -/
inductive Waiter where
  | idle
  | parked
  | returned (answer : Option String) (outcome : Outcome)
  | cancelled
  deriving DecidableEq

/-- Where `ask` is: retiring what was pending, through with an entry, or through without
one. -/
inductive Stage where
  | retiring (replaced : List Nat)
  | registered
  | assumed
  deriving DecidableEq

/-- An `ask` and its `PendingClarify`.  The entry has an event if it is `blocking`, which
may be set. -/
structure Question where
  sessionKey : String
  channel : String
  question : String
  choices : List String
  blocking : Bool
  stage : Stage
  createdAt : Int := 0
  answer : Option String := none
  isSet : Bool := false
  cancelled : Bool := false
  item : Item := .unbound
  found : Item := .unbound
  waiter : Waiter := .idle

/-- A message of the user on its way through the pump: the question it is classified
against, the one it was handed to, and the pump's `(consumed, input_text)`. -/
structure Message where
  sessionKey : String
  channel : String
  text : String
  classifiedFor : Option Nat := none
  handedTo : Option Nat := none
  result : Option (Bool × String) := none

/-- The registry, the removals under way, and the messages so far. -/
structure ClarifyWorld where
  questions : List Question := []
  pending : List Nat := []
  removals : List (List Nat) := []
  messages : List Message := []
  replies : List (Nat × String) := []

def resolveDefault (choices : List String) (default : Option String) (highStakes : Bool) :
    Option String :=
  if highStakes then none
  else
    match choices with
    | [choice] => some choice
    | _ => default.filter fun answer => choices.isEmpty || choices.contains answer

/-- `_abandon_waiter`, less the settlement of the item. -/
def Question.abandon (q : Question) : Question :=
  if q.blocking && !q.isSet then { q with answer := none, isSet := true } else q

/-- `_resolve_entry` of an entry with an event. -/
def Question.resolve (answer : String) (q : Question) : Question :=
  { q with answer := some answer, isSet := true }

/-- The entry is made; `journaled` if an item was opened for it. -/
def Question.register (journaled : Bool) (now : Int) (q : Question) : Question :=
  { q with
    stage := .registered
    createdAt := now
    item := if q.blocking && journaled then .opened else .unbound }

def Question.bound (sessionKey channel : String) (q : Question) : Bool :=
  q.sessionKey == sessionKey && q.channel == channel

/-- What `needs_you.resolve` leaves of the item, and the answer the waiter relays. -/
def Item.resolve (redact : String → String) (answer : String) : Item → Item × Option String
  | .unbound => (.unbound, some answer)
  | .opened => (.settled (some (redact answer)), some answer)
  | .settled (some winner) =>
    (.settled (some winner), if winner = redact answer then some answer else some winner)
  | .settled none => (.settled none, none)

/-- The end of `wait_for_answer` once the event is set. -/
def Question.finish (redact : String → String) (journalFails : Bool) (q : Question) : Question :=
  match q.answer with
  | none =>
    { q with waiter := .returned none (if q.cancelled then .cancelled else .timedOut) }
  | some answer =>
    if journalFails then { q with waiter := .returned (some answer) .answered }
    else
      { q with
        item := (q.item.resolve redact answer).1
        found := q.item
        waiter := .returned (q.item.resolve redact answer).2 .answered }

namespace ClarifyWorld

def modify (w : ClarifyWorld) (i : Nat) (f : Question → Question) : ClarifyWorld :=
  { w with questions := w.questions.modify i f }

variable (w : ClarifyWorld) (i : Nat)

def pop : ClarifyWorld :=
  { w with pending := w.pending.erase i }

variable (sessionKey : String)

def ofSession : List Nat :=
  w.pending.filter fun i => (w.questions[i]?).any fun q => q.sessionKey == sessionKey

/-- `peek_for_session`: the first entry of the session and the channel. -/
def peekForSession (channel : String) : Option Nat :=
  w.pending.find? fun i => (w.questions[i]?).any (Question.bound sessionKey channel)

/-- An entry is popped, if it is still there, and its waiter is woken without an answer. -/
def remove : ClarifyWorld :=
  if i ∈ w.pending then (w.pop i).modify i Question.abandon else w

def resolveEntry (answer : String) : ClarifyWorld :=
  match w.questions[i]? with
  | none => w
  | some q =>
    if q.blocking then
      { w.modify i (Question.resolve answer) with replies := w.replies ++ [(i, answer)] }
    else w.pop i

def cancelPending (channel : String) : ClarifyWorld :=
  match w.peekForSession sessionKey channel with
  | none => w
  | some i =>
    (w.pop i).modify i fun q => Question.abandon { q with cancelled := true }

/-- `ask`, to its first await. -/
def ask (channel question : String) (choices : List String) (blocking : Bool)
    (default : Option String) (highStakes : Bool) (now : Int) :
    ClarifyWorld :=
  let asked : Question :=
    { sessionKey, channel, question, choices, blocking
      stage := .retiring (w.ofSession sessionKey), createdAt := now }
  match resolveDefault choices default highStakes with
  | none => { w with questions := w.questions ++ [asked] }
  | some assumed =>
    if blocking then
      { w with
        questions := w.questions ++
          [{ asked with stage := .registered, answer := some assumed, isSet := true }]
        pending := w.pending ++ [w.questions.length] }
    else { w with questions := w.questions ++ [{ asked with stage := .assumed }] }

/-- `ask` retires the next entry of its session. -/
def retire : ClarifyWorld :=
  match w.questions[i]? with
  | none => w
  | some q =>
    match q.stage with
    | .retiring (next :: rest) =>
      (w.modify i fun q => { q with stage := .retiring rest }).remove next
    | _ => w

/-- `ask` puts its entry into the registry. -/
def register (w : ClarifyWorld) (i : Nat) (journaled : Bool) (now : Int) : ClarifyWorld :=
  match w.questions[i]? with
  | none => w
  | some q =>
    if q.stage = .retiring [] then
      { w.modify i (Question.register journaled now) with pending := w.pending ++ [i] }
    else w

section
variable (redact : String → String)

/-- `wait_for_answer`, to its first await; where the event is set, to its end. -/
def wait (w : ClarifyWorld) (i : Nat) (journalFails : Bool) : ClarifyWorld :=
  match w.questions[i]? with
  | none => w
  | some q =>
    match q.stage, q.waiter with
    | .retiring _, _ => w
    | _, .idle =>
      if i ∉ w.pending ∨ q.blocking = false then
        w.modify i fun q => { q with waiter := .returned none .timedOut }
      else if q.isSet then (w.pop i).modify i (Question.finish redact journalFails)
      else w.modify i fun q => { q with waiter := .parked }
    | _, _ => w

/-- A parked waiter whose event is set runs. -/
def wake (w : ClarifyWorld) (i : Nat) (journalFails : Bool) : ClarifyWorld :=
  match w.questions[i]? with
  | none => w
  | some q =>
    if q.waiter = .parked ∧ q.isSet = true then
      (w.pop i).modify i (Question.finish redact journalFails)
    else w

end

/-- The wait of a parked waiter ends without its event. -/
def leave (w : ClarifyWorld) (i : Nat) (waiter : Waiter) : ClarifyWorld :=
  match w.questions[i]? with
  | none => w
  | some q =>
    if q.waiter = .parked then (w.pop i).modify i fun q => { q with waiter } else w

/-- The next entry of the `k`th removal under way. -/
def drop (w : ClarifyWorld) (k : Nat) : ClarifyWorld :=
  match w.removals[k]? with
  | some (next :: rest) => { w with removals := w.removals.set k rest }.remove next
  | _ => w

/-- The entries `sweep_expired` finds. -/
def expired (w : ClarifyWorld) (now ttl : Int) : List Nat :=
  w.pending.filter fun i => (w.questions[i]?).any fun q => decide (ttl ≤ now - q.createdAt)

/-- The folded input of a turn-yield resume. -/
def resumeInput (question inputText : String) : String :=
  "[Earlier you asked the user: " ++ question ++ "]\nThe user's reply: " ++ inputText ++
    "\nContinue accordingly."

/-- The pump resolves: the registry, the question the message was handed to, and what the
pump returns. -/
def pumpResolve (w : ClarifyWorld) (sessionKey channel text : String) :
    ClarifyWorld × Option Nat × (Bool × String) :=
  match w.peekForSession sessionKey channel with
  | none => (w, none, (false, text))
  | some i =>
    (w.resolveEntry i text, some i,
      match w.questions[i]? with
      | none => (false, text)
      | some q => if q.blocking then (true, text) else (false, resumeInput q.question text))

/-- `resolve_or_rewrite`, to its first await. -/
def arrive (w : ClarifyWorld) (hasClassifier : Bool) (sessionKey channel route target
    text : String) : ClarifyWorld :=
  let message : Message := { sessionKey, channel, text }
  if route = "command" then
    { w with
      messages := w.messages ++ [{ message with result := some (false, text) }]
      removals :=
        if target = "reset" then w.removals ++ [w.ofSession sessionKey] else w.removals }
  else
    match w.peekForSession sessionKey channel with
    | none =>
      { w with messages := w.messages ++ [{ message with result := some (false, text) }] }
    | some i =>
      if hasClassifier then
        { w with messages := w.messages ++ [{ message with classifiedFor := some i }] }
      else
        let (w', handedTo, result) := w.pumpResolve sessionKey channel text
        { w' with
          messages := w'.messages ++
            [{ message with classifiedFor := some i, handedTo, result := some result }] }

/-- The classifier has spoken on the `k`th message. -/
def classified (w : ClarifyWorld) (k : Nat) (isAnswer : Bool) : ClarifyWorld :=
  match w.messages[k]? with
  | none => w
  | some message =>
    if message.result ≠ none then w
    else if isAnswer then
      let (w', handedTo, result) := w.pumpResolve message.sessionKey message.channel message.text
      { w' with
        messages := w'.messages.set k { message with handedTo, result := some result } }
    else
      { w.cancelPending message.sessionKey message.channel with
        messages := w.messages.set k { message with result := some (false, message.text) } }

end ClarifyWorld

/-! ## Runs -/

/-- One thing that can happen next. -/
inductive ClarifyOp where
  | ask (sessionKey channel question : String) (choices : List String) (blocking : Bool)
      (default : Option String) (highStakes : Bool) (now : Int)
  | retire (i : Nat)
  | register (i : Nat) (journaled : Bool) (now : Int)
  | wait (i : Nat) (journalFails : Bool)
  | wake (i : Nat) (journalFails : Bool)
  | timeout (i : Nat)
  | cancelWait (i : Nat)
  | clearSession (sessionKey : String)
  | clearAll
  | sweepExpired (now ttl : Int)
  | drop (k : Nat)
  | arrive (sessionKey channel route target text : String)
  | classified (k : Nat) (isAnswer : Bool)
  | tap (i : Nat) (answer : String)
  | itemSettles (i : Nat) (answer : Option String)

section
variable (redact : String → String) (hasClassifier : Bool)

/-- The item is settled by another surface, by its expiry, or after an abandonment. -/
def Question.settleItem (answer : Option String) (q : Question) : Question :=
  if q.item = .opened then { q with item := .settled answer } else q

def clarifyStep (w : ClarifyWorld) : ClarifyOp → ClarifyWorld
  | .ask sessionKey channel question choices blocking default highStakes now =>
    w.ask sessionKey channel question choices blocking default highStakes now
  | .retire i => w.retire i
  | .register i journaled now => w.register i journaled now
  | .wait i journalFails => w.wait redact i journalFails
  | .wake i journalFails => w.wake redact i journalFails
  | .timeout i => w.leave i (.returned none .timedOut)
  | .cancelWait i => w.leave i .cancelled
  | .clearSession sessionKey => { w with removals := w.removals ++ [w.ofSession sessionKey] }
  | .clearAll => { w with removals := w.removals ++ [w.pending] }
  | .sweepExpired now ttl => { w with removals := w.removals ++ [w.expired now ttl] }
  | .drop k => w.drop k
  | .arrive sessionKey channel route target text =>
    w.arrive hasClassifier sessionKey channel route target text
  | .classified k isAnswer => w.classified k isAnswer
  | .tap i answer => if i ∈ w.pending then w.resolveEntry i answer else w
  | .itemSettles i answer => w.modify i (Question.settleItem answer)

end

/-! ## The law -/

def ClarifyWorld.lastReply (w : ClarifyWorld) (i : Nat) : Option String :=
  (w.replies.filter fun reply => reply.1 == i).getLast?.map Prod.snd

/-- The waiter holds the reply, and can still run, or has returned it; or the item had been
settled before the waiter came back, and it returned what the item had been settled with. -/
def Question.Holds (q : Question) (pending : Prop) (reply : String) : Prop :=
  q.blocking = true ∧
    match q.waiter with
    | .idle => pending ∧ q.isSet = true ∧ q.answer = some reply
    | .parked => q.isSet = true ∧ q.answer = some reply
    | .returned answer outcome =>
      outcome = .answered ∧ (answer = some reply ∨ q.found = .settled answer)
    | .cancelled => False

/-- A message is handed to the question it was classified against; if the pump reports it
consumed, the question's waiter holds the last of the replies it was handed; and a session
has one pending question that is not resolved. -/
structure Delivered (w : ClarifyWorld) : Prop where
  own : ∀ message ∈ w.messages, ∀ i ∈ message.handedTo, message.classifiedFor = some i
  answered : ∀ message ∈ w.messages, ∀ input, message.result = some (true, input) →
    ∃ i q reply, message.handedTo = some i ∧ w.questions[i]? = some q ∧
      (i, message.text) ∈ w.replies ∧ w.lastReply i = some reply ∧
        q.Holds (i ∈ w.pending) reply
  single : ∀ i ∈ w.pending, ∀ j ∈ w.pending, ∀ q q', w.questions[i]? = some q →
    w.questions[j]? = some q' → q.sessionKey = q'.sessionKey → q.isSet = false →
      q'.isSet = false → i = j

/-- The entry `ask` retires next. -/
def Question.nextRetired (q : Question) : Option Nat :=
  match q.stage with
  | .retiring replaced => replaced.head?
  | _ => none

/-- Nothing comes between a question, its reply and its waiter: an entry is registered
where no other of its session is unresolved; a message resolves the question it was
classified against; and an entry that was handed a reply is neither removed nor timed out
nor cancelled before its waiter runs. -/
def Orderly (w : ClarifyWorld) : ClarifyOp → Prop
  | .register i _ _ => ∀ q ∈ w.questions[i]?, ∀ j ∈ w.pending, ∀ q' ∈ w.questions[j]?,
    q'.sessionKey = q.sessionKey → q'.isSet = true
  | .retire i => ∀ q ∈ w.questions[i]?, ∀ next ∈ q.nextRetired, next ∈ w.pending →
    w.lastReply next = none
  | .drop k => ∀ ids ∈ w.removals[k]?, ∀ next ∈ ids.head?, next ∈ w.pending →
    w.lastReply next = none
  | .timeout i | .cancelWait i => ∀ q ∈ w.questions[i]?, q.waiter = .parked →
    w.lastReply i = none
  | .classified k isAnswer => ∀ message ∈ w.messages[k]?, message.result = none →
    ∀ i ∈ w.peekForSession message.sessionKey message.channel,
      (isAnswer = true → message.classifiedFor = some i) ∧
        (isAnswer = false → w.lastReply i = none)
  | _ => True

instance (w : ClarifyWorld) (op : ClarifyOp) : Decidable (Orderly w op) :=
  match op with
  | .register i _ _ => inferInstanceAs (Decidable
      (∀ q ∈ w.questions[i]?, ∀ j ∈ w.pending, ∀ q' ∈ w.questions[j]?, _ → _))
  | .retire i => inferInstanceAs (Decidable (∀ q ∈ w.questions[i]?, ∀ next ∈ q.nextRetired, _ → _))
  | .drop k => inferInstanceAs (Decidable (∀ ids ∈ w.removals[k]?, ∀ next ∈ ids.head?, _ → _))
  | .timeout i | .cancelWait i => inferInstanceAs (Decidable (∀ q ∈ w.questions[i]?, _ → _))
  | .classified k _ => inferInstanceAs (Decidable (∀ message ∈ w.messages[k]?, _ → _))
  | .ask .. | .wait .. | .wake .. | .clearSession _ | .clearAll | .sweepExpired .. | .arrive ..
  | .tap .. | .itemSettles .. => isTrue trivial

/-! ## What a step leaves of a question -/

/-- The entry of a question in the registry: it was registered, and nobody has come back
from waiting for it. -/
def Question.Live (q : Question) : Prop :=
  q.stage = .registered ∧
    (q.blocking = true → q.waiter = .idle ∨ q.waiter = .parked)

/-- What a step leaves of a question whose last reply, if it was handed one, is `reply`. -/
structure Onward (pending pending' : Prop) (reply : Option String) (q q' : Question) :
    Prop where
  sessionKey : q'.sessionKey = q.sessionKey
  isSet : q.isSet = true → q'.isSet = true
  holds : ∀ text, reply = some text → q.Holds pending text → q'.Holds pending' text
  live : pending' → q.Live → q'.Live
  early : ∀ replaced, q'.stage = .retiring replaced → q'.waiter = .idle ∧
    ∃ replaced, q.stage = .retiring replaced

/-- The entries, and what they hold. -/
structure Registered (w : ClarifyWorld) : Prop where
  nodup : w.pending.Nodup
  live : ∀ i ∈ w.pending, ∃ q, w.questions[i]? = some q ∧ q.Live
  early : ∀ (i : Nat) (q : Question) replaced, w.questions[i]? = some q →
    q.stage = .retiring replaced → q.waiter = .idle
  kept : ∀ i reply, w.lastReply i = some reply →
    ∃ q, w.questions[i]? = some q ∧ q.Holds (i ∈ w.pending) reply
  single : ∀ i ∈ w.pending, ∀ j ∈ w.pending, ∀ q q', w.questions[i]? = some q →
    w.questions[j]? = some q' → q.sessionKey = q'.sessionKey → q.isSet = false →
      q'.isSet = false → i = j

theorem Question.Holds.mono {q : Question} {pending pending' : Prop} {reply : String}
    (h : q.Holds pending reply) (hpending : pending → pending') : q.Holds pending' reply := by
  obtain ⟨hblocking, hrest⟩ := h
  refine ⟨hblocking, ?_⟩
  cases hwaiter : q.waiter with
  | idle =>
    rw [hwaiter] at hrest
    exact ⟨hpending hrest.1, hrest.2⟩
  | parked | returned | cancelled =>
    rw [hwaiter] at hrest
    exact hrest

section
variable {w w' : ClarifyWorld}

theorem Registered.onward (h : Registered w) (g : Nat → Question → Question)
    (hquestions : ∀ i : Nat, w'.questions[i]? = (w.questions[i]?).map (g i))
    (hpending : w'.pending.Sublist w.pending) (hreplies : w'.replies = w.replies)
    (hgo : ∀ (i : Nat) (q : Question), w.questions[i]? = some q →
      Onward (i ∈ w.pending) (i ∈ w'.pending) (w.lastReply i) q (g i q)) : Registered w' := by
  have hlast : ∀ i, w'.lastReply i = w.lastReply i := fun i => by
    unfold ClarifyWorld.lastReply
    rw [hreplies]
  have hback : ∀ (i : Nat) (q' : Question), w'.questions[i]? = some q' →
      ∃ q, w.questions[i]? = some q ∧ q' = g i q := by
    intro i q' hq'
    rw [hquestions] at hq'
    obtain ⟨q, hq, rfl⟩ := map_eq_some_iff.mp hq'
    exact ⟨q, hq, rfl⟩
  constructor
  · exact h.nodup.sublist hpending
  · intro i hi
    obtain ⟨q, hq, hlive⟩ := h.live i (hpending.subset hi)
    exact ⟨g i q, by rw [hquestions, hq]; rfl, (hgo i q hq).live hi hlive⟩
  · intro i q' replaced hq' hstage
    obtain ⟨q, hq, rfl⟩ := hback i q' hq'
    exact ((hgo i q hq).early replaced hstage).1
  · intro i reply hreply
    rw [hlast] at hreply
    obtain ⟨q, hq, hholds⟩ := h.kept i reply hreply
    exact ⟨g i q, by rw [hquestions, hq]; rfl, (hgo i q hq).holds reply hreply hholds⟩
  · intro i hi j hj qi' qj' hqi' hqj' hsession hseti hsetj
    obtain ⟨qi, hqi, rfl⟩ := hback i qi' hqi'
    obtain ⟨qj, hqj, rfl⟩ := hback j qj' hqj'
    have hgoi := hgo i qi hqi
    have hgoj := hgo j qj hqj
    refine h.single i (hpending.subset hi) j (hpending.subset hj) qi qj hqi hqj ?_ ?_ ?_
    · rw [← hgoi.sessionKey, ← hgoj.sessionKey, hsession]
    · exact Bool.eq_false_iff.mpr fun hset => by simp [hgoi.isSet hset] at hseti
    · exact Bool.eq_false_iff.mpr fun hset => by simp [hgoj.isSet hset] at hsetj

variable {q : Question} {reply : Option String}

theorem Onward.refl {pending pending' : Prop} (hpending : pending → pending')
    (hearly : ∀ replaced, q.stage = .retiring replaced → q.waiter = .idle) :
    Onward pending pending' reply q q where
  sessionKey := rfl
  isSet hset := hset
  holds _ _ hholds := hholds.mono hpending
  live _ hlive := hlive
  early replaced hstage := ⟨hearly replaced hstage, replaced, hstage⟩

theorem getElem?_modify (w : ClarifyWorld) (i j : Nat) (f : Question → Question) :
    (w.modify i f).questions[j]? =
      (w.questions[j]?).map fun q => if j = i then f q else q := by
  simp only [ClarifyWorld.modify, List.getElem?_modify]
  by_cases hij : i = j
  · subst hij
    simp
  · simp [hij, Ne.symm hij]

variable {i : Nat} {f : Question → Question}

theorem Registered.modify (h : Registered w)
    (hgo : ∀ q, w.questions[i]? = some q →
      Onward (i ∈ w.pending) (i ∈ w.pending) (w.lastReply i) q (f q)) :
    Registered (w.modify i f) := by
  refine h.onward (fun j q => if j = i then f q else q) (fun j => getElem?_modify w i j f)
    (List.Sublist.refl _) rfl ?_
  intro j q hq
  split
  · rename_i hj
    subst hj
    exact hgo q hq
  · exact Onward.refl id fun replaced => h.early j q replaced hq

theorem Registered.leaves (h : Registered w)
    (hquestions : ∀ j : Nat,
      w'.questions[j]? = (w.questions[j]?).map fun q => if j = i then f q else q)
    (hpending : w'.pending = w.pending.erase i) (hreplies : w'.replies = w.replies)
    (hgo : ∀ q, w.questions[i]? = some q →
      Onward (i ∈ w.pending) False (w.lastReply i) q (f q)) : Registered w' := by
  have hmem : ∀ j, j ∈ w'.pending ↔ j ≠ i ∧ j ∈ w.pending := fun j => by
    rw [hpending, h.nodup.mem_erase_iff]
  refine h.onward (fun j q => if j = i then f q else q) hquestions
    (hpending ▸ erase_sublist) hreplies ?_
  intro j q hq
  by_cases hj : j = i
  · subst hj
    have hnot : (j ∈ w'.pending) ↔ False := by simp [hmem]
    rw [if_pos rfl, propext hnot]
    exact hgo q hq
  · rw [if_neg hj]
    exact Onward.refl (fun hin => (hmem j).mpr ⟨hj, hin⟩) fun replaced => h.early j q replaced hq

theorem Registered.popModify (h : Registered w)
    (hgo : ∀ q, w.questions[i]? = some q → Onward (i ∈ w.pending) False (w.lastReply i) q (f q)) :
    Registered ((w.pop i).modify i f) :=
  h.leaves (fun j => getElem?_modify (w.pop i) i j f) rfl rfl hgo

theorem Registered.congr (h : Registered w) (hquestions : w'.questions = w.questions)
    (hpending : w'.pending = w.pending) (hreplies : w'.replies = w.replies) :
    Registered w' := by
  obtain ⟨questions, pending, removals, messages, replies⟩ := w'
  subst hquestions hpending hreplies
  exact ⟨h.nodup, h.live, h.early, h.kept, h.single⟩

theorem Registered.withReplies (h : Registered w) (replies : List (Nat × String))
    (hkept : ∀ i reply, { w with replies }.lastReply i = some reply →
      ∃ q, w.questions[i]? = some q ∧ q.Holds (i ∈ w.pending) reply) :
    Registered { w with replies } :=
  ⟨h.nodup, h.live, h.early, hkept, h.single⟩

/-! ## The operations -/

@[simp] theorem abandon_stage (q : Question) : q.abandon.stage = q.stage := by
  unfold Question.abandon
  split <;> rfl

@[simp] theorem abandon_waiter (q : Question) : q.abandon.waiter = q.waiter := by
  unfold Question.abandon
  split <;> rfl

@[simp] theorem abandon_sessionKey (q : Question) : q.abandon.sessionKey = q.sessionKey := by
  unfold Question.abandon
  split <;> rfl

theorem abandon_isSet (h : q.isSet = true) : q.abandon.isSet = true := by
  unfold Question.abandon
  split
  · rfl
  · exact h

theorem Onward.abandon {pending : Prop} (cancelled : Bool)
    (hearly : ∀ replaced, q.stage = .retiring replaced → q.waiter = .idle) :
    Onward pending False none q (Question.abandon { q with cancelled }) where
  sessionKey := abandon_sessionKey _
  isSet hset := abandon_isSet hset
  holds _ hnone := by cases hnone
  live hfalse := hfalse.elim
  early replaced hstage := by
    rw [abandon_stage] at hstage
    rw [abandon_waiter]
    exact ⟨hearly replaced hstage, replaced, hstage⟩

theorem Registered.remove (h : Registered w) (hreply : i ∈ w.pending → w.lastReply i = none) :
    Registered (w.remove i) := by
  unfold ClarifyWorld.remove
  split
  · rename_i hi
    refine h.popModify fun q hq => ?_
    rw [hreply hi]
    exact Onward.abandon q.cancelled fun replaced => h.early i q replaced hq
  · exact h

variable {sessionKey channel : String}

theorem peekForSession_mem (h : w.peekForSession sessionKey channel = some i) : i ∈ w.pending :=
  mem_of_find?_eq_some h

theorem Registered.cancelPending (h : Registered w)
    (hreply : ∀ i ∈ w.peekForSession sessionKey channel, w.lastReply i = none) :
    Registered (w.cancelPending sessionKey channel) := by
  unfold ClarifyWorld.cancelPending
  split
  · exact h
  · rename_i i hpeek
    refine h.popModify fun q hq => ?_
    rw [hreply i hpeek]
    exact Onward.abandon true fun replaced => h.early i q replaced hq

theorem lastReply_append (w : ClarifyWorld) (i j : Nat) (answer : String) :
    { w with replies := w.replies ++ [(i, answer)] }.lastReply j =
      if j = i then some answer else w.lastReply j := by
  unfold ClarifyWorld.lastReply
  simp only [filter_append, filter_cons, filter_nil]
  by_cases hij : i = j
  · subst hij
    simp
  · have hne : (i == j) = false := beq_eq_false_iff_ne.mpr hij
    rw [hne, if_neg (Ne.symm hij)]
    simp

theorem Question.resolve_holds (hlive : q.Live) (hblocking : q.blocking = true) {pending : Prop}
    (hpending : pending) (reply : String) :
    (q.resolve reply).Holds pending reply := by
  refine ⟨hblocking, ?_⟩
  rcases hlive.2 hblocking with hwaiter | hwaiter
  · simp only [Question.resolve, hwaiter, and_true]
    exact hpending
  · simp only [Question.resolve, hwaiter, and_self]

section

variable (h : Registered w)

include h

theorem Registered.resolveEntry (hi : i ∈ w.pending) (answer : String) :
    Registered (w.resolveEntry i answer) := by
  obtain ⟨q, hq, hlive⟩ := h.live i hi
  unfold ClarifyWorld.resolveEntry
  rw [hq]
  dsimp only
  split
  · rename_i hblocking
    -- the earlier replies are set aside while the entry takes this one
    have hcleared : Registered { w with replies := [] } :=
      h.withReplies [] fun j reply hlast => by cases hlast
    have hresolved := hcleared.modify (i := i) (f := Question.resolve answer) fun q' hq' =>
      { sessionKey := rfl
        isSet := fun _ => rfl
        holds := fun _ hlast => by cases hlast
        live := fun _ hold => hold
        early := fun replaced hstage => ⟨h.early i q' replaced hq' hstage, replaced, hstage⟩ }
    refine hresolved.withReplies (w.replies ++ [(i, answer)]) fun j reply hlast => ?_
    rw [getElem?_modify]
    have hlast' : (if j = i then some answer else w.lastReply j) = some reply :=
      (lastReply_append w i j answer).symm.trans hlast
    by_cases hj : j = i
    · subst hj
      rw [if_pos rfl] at hlast'
      obtain rfl := Option.some.inj hlast'
      refine ⟨q.resolve answer, by rw [hq]; simp, q.resolve_holds hlive hblocking hi answer⟩
    · rw [if_neg hj] at hlast'
      obtain ⟨q', hq', hholds⟩ := h.kept j reply hlast'
      exact ⟨q', by rw [hq']; simp [hj], hholds⟩
  · rename_i hblocking
    refine h.leaves (f := id) (fun j => ?_) rfl rfl fun q' hq' => ?_
    · simp only [ClarifyWorld.pop, id_eq, ite_self]
      exact map_id.symm ▸ rfl
    · obtain rfl := Option.some.inj (hq.symm.trans hq')
      exact ⟨rfl, id, fun text _ hholds => absurd hholds.1 hblocking, fun hfalse => hfalse.elim,
        fun replaced hstage => ⟨h.early i q replaced hq hstage, replaced, hstage⟩⟩

theorem Registered.addQuestion
    (hearly : ∀ replaced, q.stage = .retiring replaced → q.waiter = .idle) :
    Registered { w with questions := w.questions ++ [q] } := by
  have hold : ∀ {i : Nat} {q' : Question}, w.questions[i]? = some q' →
      (w.questions ++ [q])[i]? = some q' := fun hq' =>
    List.getElem?_append_left (List.getElem?_eq_some_iff.mp hq').1 ▸ hq'
  have hback : ∀ {i : Nat} {q' : Question}, i ∈ w.pending →
      (w.questions ++ [q])[i]? = some q' → w.questions[i]? = some q' := by
    intro i q' hi hq'
    obtain ⟨old, hq, -⟩ := h.live i hi
    rw [← hq', hold hq, hq]
  constructor
  · exact h.nodup
  · intro i hi
    obtain ⟨q', hq', hlive⟩ := h.live i hi
    exact ⟨q', hold hq', hlive⟩
  · intro i q' replaced hq' hstage
    rw [List.getElem?_append] at hq'
    split at hq'
    · exact h.early i q' replaced hq' hstage
    · obtain rfl := List.mem_singleton.mp (List.mem_of_getElem? hq')
      exact hearly replaced hstage
  · intro i reply hreply
    obtain ⟨q', hq', hholds⟩ := h.kept i reply hreply
    exact ⟨q', hold hq', hholds⟩
  · intro i hi j hj qi qj hqi hqj
    exact h.single i hi j hj qi qj (hback hi hqi) (hback hj hqj)

/-- An entry goes into the registry, where no other of its session is unresolved. -/
theorem Registered.addEntry (hq : w.questions[i]? = some q) (hlive : q.Live)
    (hnew : i ∉ w.pending)
    (hsingle : ∀ j ∈ w.pending, ∀ q', w.questions[j]? = some q' →
      q'.sessionKey = q.sessionKey → q'.isSet = false → q.isSet = true) :
    Registered { w with pending := w.pending ++ [i] } := by
  have hmem : ∀ {j}, j ∈ w.pending ++ [i] → j ∈ w.pending ∨ j = i := fun hj =>
    (mem_append.mp hj).imp_right mem_singleton.mp
  constructor
  · exact nodup_append.mpr ⟨h.nodup, nodup_singleton i, fun j hj k hk heq =>
      hnew (mem_singleton.mp hk ▸ heq ▸ hj)⟩
  · intro j hj
    rcases hmem hj with hold | rfl
    · exact h.live j hold
    · exact ⟨q, hq, hlive⟩
  · exact h.early
  · intro j reply hreply
    obtain ⟨q', hq', hholds⟩ := h.kept j reply hreply
    exact ⟨q', hq', hholds.mono fun hj => mem_append_left _ hj⟩
  · intro j hj k hk qj qk hqj hqk hsession hsetj hsetk
    rcases hmem hj with holdj | rfl
    · rcases hmem hk with holdk | rfl
      · exact h.single j holdj k holdk qj qk hqj hqk hsession hsetj hsetk
      · obtain rfl := Option.some.inj (hq.symm.trans hqk)
        have hset := hsingle j holdj qj hqj hsession hsetj
        exact absurd hset (Bool.eq_false_iff.mp hsetk)
    · obtain rfl := Option.some.inj (hq.symm.trans hqj)
      rcases hmem hk with holdk | rfl
      · have hset := hsingle k holdk qk hqk hsession.symm hsetk
        exact absurd hset (Bool.eq_false_iff.mp hsetj)
      · rfl

theorem Registered.ask (sessionKey channel question : String) (choices : List String)
    (blocking : Bool) (default : Option String) (highStakes : Bool) (now : Int) :
    Registered (w.ask sessionKey channel question choices blocking default highStakes now) := by
  simp only [ClarifyWorld.ask]
  split
  · exact h.addQuestion fun _ _ => rfl
  · split
    · rename_i assumed _ hblocking
      refine (h.addQuestion fun _ _ => rfl).addEntry (List.getElem?_concat_length)
        ⟨rfl, fun _ => .inl rfl⟩ ?_ fun _ _ _ _ _ _ => rfl
      intro hmem
      obtain ⟨q, hq, -⟩ := h.live _ hmem
      exact absurd (List.getElem?_eq_some_iff.mp hq).1 (Nat.lt_irrefl _)
    · exact h.addQuestion fun _ _ => rfl

variable {replaced : List Nat}

/-- A question that `ask` is not through with is not in the registry. -/
theorem Registered.not_mem_of_retiring (hq : w.questions[i]? = some q)
    (hstage : q.stage = .retiring replaced) :
    i ∉ w.pending := by
  intro hi
  obtain ⟨q', hq', hlive⟩ := h.live i hi
  obtain rfl := Option.some.inj (hq.symm.trans hq')
  exact absurd (hstage.symm.trans hlive.1) (by simp)

/-- `ask` goes on with a question that nobody waits for yet. -/
theorem Registered.asking (hq : w.questions[i]? = some q) (hstage : q.stage = .retiring replaced)
    (hsession : (f q).sessionKey = q.sessionKey) (hset : (f q).isSet = q.isSet)
    (hwaiter : (f q).waiter = q.waiter) :
    Registered (w.modify i f) := by
  have hnot := h.not_mem_of_retiring hq hstage
  have hidle := h.early i q replaced hq hstage
  refine h.modify fun q' hq' => ?_
  obtain rfl := Option.some.inj (hq.symm.trans hq')
  refine ⟨hsession, fun hold => hset.trans hold, ?_, fun hi => absurd hi hnot, ?_⟩
  · intro text _ hholds
    have hrest := hholds.2
    rw [hidle] at hrest
    exact absurd hrest.1 hnot
  · exact fun _ _ => ⟨hwaiter.trans hidle, replaced, hstage⟩

theorem Registered.retire (hok : Orderly w (.retire i)) : Registered (w.retire i) := by
  unfold ClarifyWorld.retire
  split
  · exact h
  · rename_i q hq
    split
    · rename_i next rest hstage
      have hnext : next ∈ q.nextRetired := by
        rw [Question.nextRetired, hstage]
        rfl
      exact (h.asking hq hstage rfl rfl rfl).remove (hok q hq next hnext)
    · exact h

theorem Registered.register {journaled : Bool} {now : Int}
    (hok : Orderly w (.register i journaled now)) :
    Registered (w.register i journaled now) := by
  unfold ClarifyWorld.register
  split
  · exact h
  · rename_i q hq
    split
    · rename_i hstage
      have hidle := h.early i q [] hq hstage
      have hasked := h.asking hq hstage (f := Question.register journaled now) rfl rfl rfl
      have hentry : (w.modify i (Question.register journaled now)).questions[i]? =
          some (q.register journaled now) := by
        rw [getElem?_modify, hq, map_some, if_pos rfl]
      refine hasked.addEntry hentry ⟨rfl, fun _ => .inl hidle⟩
        (h.not_mem_of_retiring hq hstage) ?_
      intro j hj q' hq' hsession hset
      rw [getElem?_modify] at hq'
      obtain ⟨old, hold, rfl⟩ := map_eq_some_iff.mp hq'
      have hne : j ≠ i := fun heq => h.not_mem_of_retiring hq hstage (heq ▸ hj)
      rw [if_neg hne] at hsession hset
      exact absurd (hok q hq j hj old hold hsession) (Bool.eq_false_iff.mp hset)
    · exact h

end

/-! ### The waiter -/

section
variable (redact : String → String) (journalFails : Bool)

@[simp] theorem finish_stage (q : Question) :
    (q.finish redact journalFails).stage = q.stage := by
  unfold Question.finish
  split
  · rfl
  · split <;> rfl

@[simp] theorem finish_sessionKey (q : Question) :
    (q.finish redact journalFails).sessionKey = q.sessionKey := by
  unfold Question.finish
  split
  · rfl
  · split <;> rfl

@[simp] theorem finish_isSet (q : Question) :
    (q.finish redact journalFails).isSet = q.isSet := by
  unfold Question.finish
  split
  · rfl
  · split <;> rfl

theorem Item.resolve_relays (reply : String) (item : Item) :
    (item.resolve redact reply).2 = some reply ∨
      item = .settled (item.resolve redact reply).2 := by
  cases item with
  | unbound => exact .inl rfl
  | opened => exact .inl rfl
  | settled answer =>
    cases answer with
    | none => exact .inr rfl
    | some winner =>
      by_cases hwon : winner = redact reply
      · exact .inl (if_pos hwon)
      · exact .inr (by simp only [Item.resolve, if_neg hwon])

/-- A waiter that runs with a reply returns it, or what it finds the item settled with. -/
theorem Question.finish_holds {reply : String} (hblocking : q.blocking = true)
    (hanswer : q.answer = some reply) (pending : Prop) :
    (q.finish redact journalFails).Holds pending reply := by
  unfold Question.finish
  rw [hanswer]
  dsimp only
  split
  · exact ⟨hblocking, rfl, .inl rfl⟩
  · exact ⟨hblocking, rfl, Item.resolve_relays redact reply q.item⟩

/-- A waiter that finds its event set runs to its end. -/
theorem Onward.finish {pending : Prop} (hstage : ∀ replaced, q.stage ≠ .retiring replaced)
    (hanswer : ∀ text, reply = some text → q.Holds pending text → q.answer = some text) :
    Onward pending False reply q (q.finish redact journalFails) where
  sessionKey := finish_sessionKey redact journalFails q
  isSet hset := (finish_isSet redact journalFails q).trans hset
  holds text hreply hholds :=
    q.finish_holds redact journalFails hholds.1 (hanswer text hreply hholds) False
  live hfalse := hfalse.elim
  early replaced hretiring := by
    rw [finish_stage] at hretiring
    exact absurd hretiring (hstage replaced)

theorem Registered.wait (h : Registered w) (i : Nat) :
    Registered (w.wait redact i journalFails) := by
  unfold ClarifyWorld.wait
  split
  · exact h
  · rename_i q hq
    split
    · exact h
    · rename_i hidle hthrough
      -- nothing but an entry that is set can hold a reply here
      have hheld : ∀ text, q.Holds (i ∈ w.pending) text →
          i ∈ w.pending ∧ q.isSet = true ∧ q.answer = some text := by
        intro text hholds
        have hrest := hholds.2
        rwa [hidle] at hrest
      split
      · rename_i hno
        refine h.modify fun q' hq' => ?_
        obtain rfl := Option.some.inj (hq.symm.trans hq')
        refine ⟨rfl, id, fun text _ hholds => ?_, fun hi hlive => ⟨hlive.1, fun hblocking => ?_⟩,
          fun replaced hretiring => absurd hretiring (hthrough replaced)⟩
        · rcases hno with hout | hyield
          · exact absurd (hheld text hholds).1 hout
          · exact absurd hholds.1 (Bool.eq_false_iff.mp hyield)
        · rcases hno with hout | hyield
          · exact absurd hi hout
          · exact absurd hblocking (Bool.eq_false_iff.mp hyield)
      · split
        · refine h.popModify fun q' hq' => ?_
          obtain rfl := Option.some.inj (hq.symm.trans hq')
          exact Onward.finish redact journalFails hthrough fun text _ hholds =>
            (hheld text hholds).2.2
        · rename_i hunset
          refine h.modify fun q' hq' => ?_
          obtain rfl := Option.some.inj (hq.symm.trans hq')
          exact ⟨rfl, id, fun text _ hholds => absurd (hheld text hholds).2.1 hunset,
            fun _ hlive => ⟨hlive.1, fun _ => .inr rfl⟩,
            fun replaced hretiring => absurd hretiring (hthrough replaced)⟩
    · exact h

theorem Registered.wake (h : Registered w) (i : Nat) :
    Registered (w.wake redact i journalFails) := by
  unfold ClarifyWorld.wake
  split
  · exact h
  · rename_i q hq
    split
    · rename_i hparked
      refine h.popModify fun q' hq' => ?_
      obtain rfl := Option.some.inj (hq.symm.trans hq')
      refine Onward.finish redact journalFails ?_ fun text _ hholds => ?_
      · intro replaced hretiring
        have hidle := h.early i q replaced hq hretiring
        rw [hparked.1] at hidle
        cases hidle
      · have hrest := hholds.2
        rw [hparked.1] at hrest
        exact hrest.2
    · exact h

end

theorem Registered.leave (h : Registered w) (waiter : Waiter)
    (hreply : ∀ q ∈ w.questions[i]?, q.waiter = .parked → w.lastReply i = none) :
    Registered (w.leave i waiter) := by
  unfold ClarifyWorld.leave
  split
  · exact h
  · rename_i q hq
    split
    · rename_i hparked
      refine h.popModify fun q' hq' => ?_
      obtain rfl := Option.some.inj (hq.symm.trans hq')
      rw [hreply q hq hparked]
      constructor
      · rfl
      · exact id
      · intro text hnone
        cases hnone
      · exact fun hfalse => hfalse.elim
      · intro replaced hretiring
        have hidle := h.early i q replaced hq hretiring
        rw [hparked] at hidle
        cases hidle
    · exact h

variable {k : Nat}

theorem Registered.drop (h : Registered w) (hok : Orderly w (.drop k)) :
    Registered (w.drop k) := by
  unfold ClarifyWorld.drop
  split
  · rename_i next rest hremoval
    have hset : Registered { w with removals := w.removals.set k rest } := h.congr rfl rfl rfl
    exact hset.remove (hok _ hremoval next rfl)
  · exact h

theorem Registered.settleItem (h : Registered w) (i : Nat) (answer : Option String) :
    Registered (w.modify i (Question.settleItem answer)) := by
  refine h.modify fun q hq => ?_
  unfold Question.settleItem
  split
  · exact ⟨rfl, id, fun _ _ hholds => hholds, fun _ hlive => hlive,
      fun replaced hretiring => ⟨h.early i q replaced hq hretiring, replaced, hretiring⟩⟩
  · exact Onward.refl id fun replaced => h.early i q replaced hq

/-! ### The pump -/

/-- The messages: each went where it was classified for, and what is reported consumed is
among the replies of that question. -/
structure Routed (messages : List Message) (replies : List (Nat × String)) : Prop where
  own : ∀ message ∈ messages, ∀ i ∈ message.handedTo, message.classifiedFor = some i
  consumed : ∀ message ∈ messages, ∀ input, message.result = some (true, input) →
    ∃ i, message.handedTo = some i ∧ (i, message.text) ∈ replies

theorem Routed.mono {messages messages' : List Message} {replies replies' : List (Nat × String)}
    (h : Routed messages replies) (hreplies : replies ⊆ replies')
    (hmessages : ∀ message ∈ messages', message ∈ messages ∨
      (∀ i ∈ message.handedTo, message.classifiedFor = some i) ∧
        ∀ input, message.result = some (true, input) →
          ∃ i, message.handedTo = some i ∧ (i, message.text) ∈ replies') :
    Routed messages' replies' where
  own message hmessage := by
    rcases hmessages message hmessage with hold | ⟨hown, -⟩
    · exact h.own message hold
    · exact hown
  consumed message hmessage input hinput := by
    rcases hmessages message hmessage with hold | ⟨-, hconsumed⟩
    · obtain ⟨i, hi, hreply⟩ := h.consumed message hold input hinput
      exact ⟨i, hi, hreplies hreply⟩
    · exact hconsumed input hinput

theorem messages_resolveEntry (w : ClarifyWorld) (i : Nat) (answer : String) :
    (w.resolveEntry i answer).messages = w.messages := by
  unfold ClarifyWorld.resolveEntry
  split
  · rfl
  · split <;> rfl

theorem replies_resolveEntry (w : ClarifyWorld) (i : Nat) (answer : String) :
    w.replies ⊆ (w.resolveEntry i answer).replies := by
  unfold ClarifyWorld.resolveEntry
  split
  · exact fun _ hreply => hreply
  · split
    · exact subset_append_left _ _
    · exact fun _ hreply => hreply

structure PumpResolved (w : ClarifyWorld) (peeked : Option Nat) (text : String)
    (out : ClarifyWorld × Option Nat × (Bool × String)) : Prop where
  registered : Registered out.1
  messages : out.1.messages = w.messages
  replies : w.replies ⊆ out.1.replies
  handedTo : out.2.1 = peeked
  consumed : ∀ input, out.2.2 = (true, input) →
    ∃ i, out.2.1 = some i ∧ (i, text) ∈ out.1.replies

theorem Registered.pumpResolve (h : Registered w) (sessionKey channel text : String) :
    PumpResolved w (w.peekForSession sessionKey channel) text
      (w.pumpResolve sessionKey channel text) := by
  unfold ClarifyWorld.pumpResolve
  split
  · rename_i hpeek
    exact ⟨h, rfl, fun _ hreply => hreply, hpeek.symm, fun input hinput => by cases hinput⟩
  · rename_i i hpeek
    have hi := peekForSession_mem hpeek
    refine ⟨h.resolveEntry hi text, messages_resolveEntry w i text,
      replies_resolveEntry w i text, hpeek.symm, fun input hinput => ⟨i, rfl, ?_⟩⟩
    obtain ⟨q, hq, -⟩ := h.live i hi
    rw [hq] at hinput
    dsimp only at hinput ⊢
    unfold ClarifyWorld.resolveEntry
    rw [hq]
    dsimp only
    split at hinput
    · rename_i hblocking
      rw [if_pos hblocking]
      exact mem_append_right _ mem_cons_self
    · cases hinput

structure ClarifyInv (w : ClarifyWorld) : Prop where
  registered : Registered w
  routed : Routed w.messages w.replies

theorem ClarifyInv.of_registered (h : ClarifyInv w) (hregistered : Registered w')
    (hmessages : w'.messages = w.messages) (hreplies : w.replies ⊆ w'.replies) :
    ClarifyInv w' where
  registered := hregistered
  routed := by
    rw [hmessages]
    exact h.routed.mono hreplies fun _ hold => .inl hold

theorem ClarifyInv.arrive (h : ClarifyInv w) (hasClassifier : Bool)
    (sessionKey channel route target text : String) :
    ClarifyInv (w.arrive hasClassifier sessionKey channel route target text) := by
  -- a message that was handed to nothing
  have hnone : ∀ message : Message, message.handedTo = none →
      (∀ input, message.result ≠ some (true, input)) →
      Routed (w.messages ++ [message]) w.replies := by
    intro message hhanded hresult
    refine h.routed.mono (fun _ hreply => hreply) fun other hother => ?_
    refine (mem_append.mp hother).imp_right fun hnew => ?_
    obtain rfl := mem_singleton.mp hnew
    refine ⟨fun i hi => ?_, fun input hinput => absurd hinput (hresult input)⟩
    rw [hhanded] at hi
    cases hi
  simp only [ClarifyWorld.arrive]
  split
  · exact ⟨h.registered.congr rfl rfl rfl, hnone _ rfl fun _ hinput => by cases hinput⟩
  · split
    · exact ⟨h.registered.congr rfl rfl rfl, hnone _ rfl fun _ hinput => by cases hinput⟩
    · rename_i i hpeek
      split
      · exact ⟨h.registered.congr rfl rfl rfl, hnone _ rfl fun _ hinput => by cases hinput⟩
      · have hresolved := h.registered.pumpResolve sessionKey channel text
        constructor
        · exact hresolved.registered.congr rfl rfl rfl
        · refine h.routed.mono hresolved.replies fun other hother => ?_
          rw [hresolved.messages] at hother
          refine (mem_append.mp hother).imp_right fun hnew => ?_
          obtain rfl := mem_singleton.mp hnew
          refine ⟨fun j hj => ?_, fun input hinput => ?_⟩
          · rw [hresolved.handedTo, hpeek] at hj
            exact hj
          · exact hresolved.consumed input (Option.some.inj hinput)

theorem replies_cancelPending (w : ClarifyWorld) (sessionKey channel : String) :
    (w.cancelPending sessionKey channel).replies = w.replies := by
  unfold ClarifyWorld.cancelPending
  split <;> rfl

theorem ClarifyInv.classified (h : ClarifyInv w) {isAnswer : Bool}
    (hok : Orderly w (.classified k isAnswer)) : ClarifyInv (w.classified k isAnswer) := by
  simp only [ClarifyWorld.classified]
  split
  · exact h
  · rename_i message hmessage
    split
    · exact h
    · rename_i hopen
      have hpeeked := hok message hmessage (not_not.mp hopen)
      split
      · rename_i hanswer
        have hresolved := h.registered.pumpResolve message.sessionKey message.channel message.text
        constructor
        · exact hresolved.registered.congr rfl rfl rfl
        · refine h.routed.mono hresolved.replies fun other hother => ?_
          rw [hresolved.messages] at hother
          refine (mem_or_eq_of_mem_set hother).imp_right ?_
          rintro rfl
          refine ⟨fun i hi => ?_, fun input hinput => ?_⟩
          · rw [hresolved.handedTo] at hi
            exact (hpeeked i hi).1 hanswer
          · exact hresolved.consumed input (Option.some.inj hinput)
      · rename_i hnew
        have hcancelled := h.registered.cancelPending fun i hi =>
          (hpeeked i hi).2 (Bool.eq_false_iff.mpr hnew)
        constructor
        · exact hcancelled.congr rfl rfl rfl
        · rw [replies_cancelPending]
          refine h.routed.mono (fun _ hreply => hreply) fun other hother => ?_
          refine (mem_or_eq_of_mem_set hother).imp_right ?_
          rintro rfl
          exact ⟨h.routed.own message (mem_of_getElem? hmessage),
            fun input hinput => by cases hinput⟩

theorem messages_remove (w : ClarifyWorld) (i : Nat) :
    (w.remove i).messages = w.messages ∧ (w.remove i).replies = w.replies := by
  unfold ClarifyWorld.remove
  split <;> exact ⟨rfl, rfl⟩

def ClarifyOp.ofReply : ClarifyOp → Bool
  | .arrive .. | .classified .. | .tap .. => true
  | _ => false

theorem messages_clarifyStep (redact : String → String) (hasClassifier : Bool)
    (w : ClarifyWorld) {op : ClarifyOp} (hop : op.ofReply = false) :
    (clarifyStep redact hasClassifier w op).messages = w.messages ∧
      (clarifyStep redact hasClassifier w op).replies = w.replies := by
  cases op with
  | arrive | classified | tap => cases hop
  | ask =>
    simp only [clarifyStep, ClarifyWorld.ask]
    split
    · exact ⟨rfl, rfl⟩
    · split <;> exact ⟨rfl, rfl⟩
  | retire i =>
    simp only [clarifyStep, ClarifyWorld.retire]
    split
    · exact ⟨rfl, rfl⟩
    · split
      · exact messages_remove _ _
      · exact ⟨rfl, rfl⟩
  | register i journaled now =>
    simp only [clarifyStep, ClarifyWorld.register]
    split
    · exact ⟨rfl, rfl⟩
    · split <;> exact ⟨rfl, rfl⟩
  | wait i journalFails =>
    simp only [clarifyStep, ClarifyWorld.wait]
    split
    · exact ⟨rfl, rfl⟩
    · split
      · exact ⟨rfl, rfl⟩
      · split
        · exact ⟨rfl, rfl⟩
        · split <;> exact ⟨rfl, rfl⟩
      · exact ⟨rfl, rfl⟩
  | wake i journalFails =>
    simp only [clarifyStep, ClarifyWorld.wake]
    split
    · exact ⟨rfl, rfl⟩
    · split <;> exact ⟨rfl, rfl⟩
  | timeout i | cancelWait i =>
    simp only [clarifyStep, ClarifyWorld.leave]
    split
    · exact ⟨rfl, rfl⟩
    · split <;> exact ⟨rfl, rfl⟩
  | clearSession | clearAll | sweepExpired | itemSettles => exact ⟨rfl, rfl⟩
  | drop k =>
    simp only [clarifyStep, ClarifyWorld.drop]
    split
    · exact messages_remove _ _
    · exact ⟨rfl, rfl⟩

/-- **One orderly step keeps the invariant.** -/
theorem ClarifyInv.step (redact : String → String) (hasClassifier : Bool)
    (h : ClarifyInv w) {op : ClarifyOp} (hok : Orderly w op) :
    ClarifyInv (clarifyStep redact hasClassifier w op) := by
  have hquiet : op.ofReply = false → Registered (clarifyStep redact hasClassifier w op) →
      ClarifyInv (clarifyStep redact hasClassifier w op) := by
    intro hop hregistered
    obtain ⟨hmessages, hreplies⟩ := messages_clarifyStep redact hasClassifier w hop
    exact h.of_registered hregistered hmessages (hreplies ▸ List.Subset.refl _)
  have hold := h.registered
  cases op with
  | ask sessionKey channel question choices blocking default highStakes now =>
    exact hquiet rfl
      (hold.ask sessionKey channel question choices blocking default highStakes now)
  | retire i => exact hquiet rfl (hold.retire hok)
  | register i journaled now => exact hquiet rfl (hold.register hok)
  | wait i journalFails => exact hquiet rfl (hold.wait redact journalFails i)
  | wake i journalFails => exact hquiet rfl (hold.wake redact journalFails i)
  | timeout i => exact hquiet rfl (hold.leave _ hok)
  | cancelWait i => exact hquiet rfl (hold.leave _ hok)
  | clearSession | clearAll | sweepExpired => exact hquiet rfl (hold.congr rfl rfl rfl)
  | drop k => exact hquiet rfl (hold.drop hok)
  | arrive sessionKey channel route target text =>
    exact h.arrive hasClassifier sessionKey channel route target text
  | classified k isAnswer => exact h.classified hok
  | tap i answer =>
    simp only [clarifyStep]
    split
    · rename_i hi
      exact h.of_registered (hold.resolveEntry hi answer) (messages_resolveEntry w i answer)
        (replies_resolveEntry w i answer)
    · exact h
  | itemSettles i answer => exact hquiet rfl (hold.settleItem i answer)

theorem ClarifyInv.delivered (h : ClarifyInv w) : Delivered w where
  own := h.routed.own
  answered message hmessage input hinput := by
    obtain ⟨i, hi, hreply⟩ := h.routed.consumed message hmessage input hinput
    have hmem : (i, message.text) ∈ w.replies.filter fun reply => reply.1 == i :=
      mem_filter.mpr ⟨hreply, beq_self_eq_true i⟩
    have hlast : w.lastReply i =
        some ((w.replies.filter fun reply => reply.1 == i).getLast (ne_nil_of_mem hmem)).2 := by
      unfold ClarifyWorld.lastReply
      rw [getLast?_eq_some_getLast (ne_nil_of_mem hmem), map_some]
    obtain ⟨q, hq, hholds⟩ := h.registered.kept i _ hlast
    exact ⟨i, q, _, hi, hq, hreply, hlast, hholds⟩
  single := h.registered.single

end

theorem ClarifyInv.init : ClarifyInv {} where
  registered := by
    constructor
    · exact nodup_nil
    · exact fun i hi => absurd hi not_mem_nil
    · intro i q replaced hq
      cases hq
    · intro i reply hreply
      cases hreply
    · exact fun i hi => absurd hi not_mem_nil
  routed := ⟨fun _ h => absurd h not_mem_nil, fun _ h => absurd h not_mem_nil⟩

/-- **Replies are delivered.**  In an orderly run a message is handed to the question it was
classified against, what is reported consumed is held by that question's waiter or was
returned by it, with the latest of its replies, and a session has one pending question
that is not resolved. -/
theorem delivered_of_orderly (redact : String → String) (hasClassifier : Bool)
    (ops : List ClarifyOp) (hops : Meets (clarifyStep redact hasClassifier) Orderly {} ops) :
    Along (clarifyStep redact hasClassifier) Delivered {} ops :=
  Along.mono (fun _ h => h.delivered)
    (along_of_meets (fun _ _ h hok => h.step redact hasClassifier hok) ClarifyInv.init hops)

/-- Two sessions: in one the reply answers the question, in the other the user pivots. -/
def answeredAndSetAside : List ClarifyOp :=
  [.ask "s" "telegram" "Which colour?" ["red", "blue"] true none false 0, .register 0 true 0,
    .wait 0 false, .ask "t" "cli" "Which file?" [] true none false 1, .register 1 true 1,
    .wait 1 false, .arrive "s" "telegram" "chat" "" "blue", .arrive "t" "cli" "chat" "" "hello",
    .classified 1 false, .classified 0 true, .wake 1 false, .wake 0 false,
    .sweepExpired 1801 1800, .drop 0]

theorem delivered_of_orderly_answered :
    Along (clarifyStep id true) Delivered {} answeredAndSetAside :=
  delivered_of_orderly id true answeredAndSetAside (by decide)

/-- What `wait_for_answer` returned. -/
def Waiter.back : Waiter → Option (Option String × Outcome)
  | .returned answer outcome => some (answer, outcome)
  | _ => none

/-- The item of a parked question is settled with an answer of another surface; then the
user replies. -/
def settledThenReplied : List ClarifyOp :=
  [.ask "s" "telegram" "Which colour?" ["red", "blue"] true none false 0, .register 0 true 0,
    .wait 0 false, .itemSettles 0 (some "red"), .arrive "s" "telegram" "chat" "" "blue",
    .classified 0 true, .wake 0 false]

/-- The reply is reported consumed, and its waiter returns what the item was settled
with. -/
theorem settled_elsewhere :
    ¬ ∀ (redact : String → String) (hasClassifier : Bool) (ops : List ClarifyOp),
      let w := run (clarifyStep redact hasClassifier) {} ops
      ∀ message ∈ w.messages, (∃ result ∈ message.result, result.1 = true) →
        ∀ i ∈ message.handedTo, ∀ q ∈ w.questions[i]?, ∀ back ∈ q.waiter.back,
          back = (some message.text, Outcome.answered) := by
  intro h
  have hreplied := h id true settledThenReplied
  revert hreplied
  decide

end StackOwl.Interaction
