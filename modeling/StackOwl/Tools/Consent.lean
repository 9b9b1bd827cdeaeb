import StackOwl.Journal.NeedsYou

/-!
# Consent to a consequential action

`ConsentPolicy.request` (`tools/consent.py`): the origin of the request, the hard tiers and the
standing grants are looked at first, and where none decides a prompter is asked.  What it answers
is put to the settlement of the needs-you item that was opened for the request, and the answer
that won is acted on.

A request stops where it awaits: before its item is opened, at the prompter, and before its
answer is settled.  Between any two of these another request may run, and anybody may write to
the journal.  `log` is what was asked and decided so far, the last first.

## Main results

* `consentStep` — a step of a request, or of the journal.
-/

namespace StackOwl.Tools

open Journal

/-! ## Vocabularies -/

inductive ConsentScope where
  | once | session | window | deny | denySession
  deriving DecidableEq

def ConsentScope.value : ConsentScope → String
  | .once => "once"
  | .session => "session"
  | .window => "window"
  | .deny => "deny"
  | .denySession => "deny_session"

/-- `ConsentScope(value)`; `none` is the `ValueError`. -/
def ConsentScope.ofValue? (value : String) : Option ConsentScope :=
  [.once, .session, .window, .deny, .denySession].find? fun scope => scope.value == value

def ConsentScope.allows : ConsentScope → Bool
  | .once | .session | .window => true
  | .deny | .denySession => false

inductive TrustTier where
  | alwaysAsk | askOnceSession | auto | never
  deriving DecidableEq

/-- The arguments of `request`, and the principal of the trace it is made in. -/
structure ConsentCall where
  toolName : String
  channel : String
  sessionKey : String
  category : Option String := none
  reversible : Bool := false
  principal : Option String := none

variable (call : ConsentCall)

def ConsentCall.key : String × String := (call.sessionKey, call.toolName)

structure ConsentRequest where
  toolName : String
  channel : String
  sessionKey : String
  category : Option String
  allowRelaxation : Bool
  reversible : Bool
  itemId : Option String

def PRINCIPAL_AUTONOMOUS_SCHEDULER : String := "autonomous:scheduler"

def DEFAULT_ALWAYS_ASK_TOOLS : List String := ["computer_use", "ha_call_service", "browser_dialog"]

def DEFAULT_ALWAYS_ASK_CATEGORIES : List String :=
  ["lock", "alarm", "destructive", "prompt_surface", "authority_widening", "owl_build"]

def PROVENANCE_CATEGORIES : List String := ["authority_widening", "owl_build"]

def NEVER_OFFICIAL_CHANNELS : List String := ["web", "voice"]

def CONFINED_EXECUTION_TOOLS : List String := ["execute_code"]

/-- How a policy is configured; `wired` says that it has a `db_pool`. -/
structure ConsentPolicy where
  tiers : List (String × TrustTier) := []
  alwaysAskTools : List String := DEFAULT_ALWAYS_ASK_TOOLS
  alwaysAskCategories : List String := DEFAULT_ALWAYS_ASK_CATEGORIES
  windowSeconds : Int := 900
  wired : Bool := false

namespace ConsentPolicy

def tier (policy : ConsentPolicy) (call : ConsentCall) : TrustTier :=
  (policy.tiers.lookup call.toolName).getD .alwaysAsk

def isAlwaysAsk (policy : ConsentPolicy) (call : ConsentCall) : Bool :=
  call.toolName ∈ policy.alwaysAskTools ∨ call.category.any (· ∈ policy.alwaysAskCategories)

def handed (policy : ConsentPolicy) (call : ConsentCall) (itemId : Option String) :
    ConsentRequest :=
  { toolName := call.toolName, channel := call.channel, sessionKey := call.sessionKey
    category := call.category, allowRelaxation := !policy.isAlwaysAsk call
    reversible := call.reversible, itemId }

end ConsentPolicy

/-! ## Where a request comes from -/

/-- `_is_official_channel`; `channels` is what the gateway holds, if that can be read. -/
def isOfficialChannel (channel : String) (channels : Option (List String)) : Bool :=
  channel ≠ "" ∧ channel ∉ NEVER_OFFICIAL_CHANNELS ∧ channel ∈ channels.getD []

/-- A request is judged by its origin, and the origin is official. -/
def ConsentCall.isOfficial (channels : Option (List String)) : Bool :=
  call.category.any (· ∈ PROVENANCE_CATEGORIES) ∧ isOfficialChannel call.channel channels

/-- `AutonomousPrompter.prompt`. -/
def autonomousPrompt (req : ConsentRequest) (channels : Option (List String)) : ConsentScope :=
  if !req.allowRelaxation ∧ req.category.any (· ∈ PROVENANCE_CATEGORIES) ∧
      isOfficialChannel req.channel channels then .once
  else if !req.allowRelaxation ∧ req.toolName ∈ CONFINED_EXECUTION_TOOLS then
    -- a registry that cannot be read may hold the channel
    if channels = none ∨ req.channel ≠ "" ∧ req.channel ∈ channels.getD [] then .deny
    else .once
  else if !req.allowRelaxation then .deny
  else .once

inductive Reversibility where
  | reversible | irreversible | unknown
  deriving DecidableEq

def mustReachUser (reversibility : Reversibility) (highStakes : Bool) : Bool :=
  highStakes || reversibility == .irreversible

/-- The branch of an action that can be undone. -/
def autoAllowed (resolverEnabled : Bool) : Bool :=
  call.reversible && (!resolverEnabled || !mustReachUser .reversible false)

/-! ## A policy at work -/

/-- What became of the answer of a prompter. -/
inductive Settlement where
  /-- No item was opened for the request. -/
  | unbound
  /-- The item could not be settled: `resolve` raised, or its transaction did. -/
  | failed (itemId : String)
  | settled (itemId : String)

def Settlement.itemId : Settlement → Option String
  | .unbound => none
  | .failed itemId | .settled itemId => some itemId

/-- The requests that are asked are numbered. -/
inductive ConsentEvent where
  /-- The request was decided without a prompt; its clock read `now`. -/
  | decided (call : ConsentCall) (now : Int) (channels : Option (List String)) (reason : String)
      (allowed : Bool)
  | asked (request : Nat) (call : ConsentCall)
  /-- The request drew its id, and the item was bound for it. -/
  | opened (request : Nat) (requestId : String) (item : Option NeedsYouItem)
  /-- A prompter answered, and `scope` was acted on when the clock read `now`. -/
  | answered (request : Nat) (call : ConsentCall) (answer : ConsentScope)
      (settlement : Settlement) (scope : ConsentScope) (now : Int)
  /-- The prompter raised: the request was denied. -/
  | failed (request : Nat) (call : ConsentCall)

inductive ConsentPhase where
  | opens
  | prompts (itemId : Option String)
  | settles (itemId : String) (answer : ConsentScope)
  | abandons (itemId : String)

structure ConsentTask where
  request : Nat
  call : ConsentCall
  phase : ConsentPhase := .opens

structure ConsentWorld where
  /-- `_session_batch`, of session and tool. -/
  sessionBatch : List (String × String) := []
  /-- `_session_deny`. -/
  sessionDeny : List (String × String) := []
  /-- `_windows`, with their ends. -/
  windows : List ((String × String) × Int) := []
  /-- How many requests were asked. -/
  requests : Nat := 0
  tasks : List ConsentTask := []
  journal : JournalDb := .empty
  log : List ConsentEvent := []

/-- What a transaction meets: the write gate, the ids it draws, and whether it is committed. -/
structure Circumstances where
  writesPaused : Bool := false
  ids : Nat → String
  commits : Bool := true

/-- The two readings of the clock where a window is granted. -/
structure Readings where
  pruned : Int
  granted : Int

/-! ## The item of a request -/

def MAX_ATTR_LEN : Nat := 64

/-- `ConsentRequestedAttrs`. -/
def ConsentCall.attrs : List (String × String) :=
  [("tool_name", call.toolName), ("channel", call.channel), ("session_key", call.sessionKey)] ++
    (call.category.map fun category => ("category", category)).toList

def consentRequested (requestId : String) : JournalEvent :=
  { type := "consent.requested", actorKind := .autonomous, actorId := "tools.consent"
    targetKind := .owner, targetId := requestId, outcome := .ok
    attrs := .other "ConsentRequestedAttrs" call.attrs }

/-- The transaction of `record_consent_requested`, with the item whose id it returns; `none` is
an exception, of its validation among others. -/
def openItemFor (env : Env) (met : Circumstances) (call : ConsentCall)
    (requestId expiresAt : String) (s : JournalDb) :
    Option (Option NeedsYouItem × JournalDb) := do
  if call.attrs.any fun field => MAX_ATTR_LEN < field.2.length then none
  let (_, s) ← record env met.writesPaused met.ids (consentRequested call requestId) s
  let (bound, s) ← bindWaiter env .approval .owner requestId "turn" requestId (some expiresAt) s
  if met.commits then some (bound, s) else none

def settleItem (env : Env) (met : Circumstances) (itemId : String) (answer : ConsentScope)
    (channel now : String) (s : JournalDb) : Option (NeedsYouResolution × JournalDb) :=
  if met.commits then
    resolve env met.writesPaused met.ids itemId answer.value
      ("consent_decision:" ++ channel) (some 1) (some (computeItemDigest env .approval none 1))
      now s
  else none

def settledScope (resolution : NeedsYouResolution) : ConsentScope :=
  (resolution.answer.bind ConsentScope.ofValue?).getD .deny

/-! ## Steps -/

namespace ConsentWorld
variable (env : Env) (policy : ConsentPolicy) (w : ConsentWorld)

def finalize (call : ConsentCall) (now : Int) (channels : Option (List String)) (allowed : Bool)
    (reason : String) : ConsentWorld :=
  { w with log := .decided call now channels reason allowed :: w.log }

def ask (call : ConsentCall) : ConsentWorld :=
  { w with
    requests := w.requests + 1
    tasks := w.tasks ++ [{ request := w.requests, call }]
    log := .asked w.requests call :: w.log }

/-- `_window_active`; a window that has ended is deleted. -/
def windowActive (call : ConsentCall) (now : Int) : Bool × ConsentWorld :=
  match w.windows.lookup call.key with
  | none => (false, w)
  | some expiry =>
    if now < expiry then (true, w)
    else (false, { w with windows := w.windows.filter (·.1 ≠ call.key) })

/-- `request`, up to its first await. -/
def request (call : ConsentCall) (now : Int) (channels : Option (List String))
    (resolverEnabled : Bool) : ConsentWorld :=
  let finalize (w : ConsentWorld) := w.finalize call now channels
  if call.isOfficial channels then finalize w true "official_channel"
  else if policy.tier call = .never then finalize w false "tier_never"
  else if call.sessionKey ≠ "" ∧ call.key ∈ w.sessionDeny then finalize w false "session_deny"
  else if policy.isAlwaysAsk call then w.ask call
  else if policy.tier call = .auto then finalize w true "tier_auto"
  else if autoAllowed call resolverEnabled then finalize w true "reversible_auto"
  else if (w.windowActive call now).1 then finalize (w.windowActive call now).2 true "window_grant"
  else if call.key ∈ w.sessionBatch then
    finalize (w.windowActive call now).2 true "session_batch"
  else (w.windowActive call now).2.ask call

/-- The standing grant or refusal of an answer that is acted on. -/
def grant (call : ConsentCall) (scope : ConsentScope) (clock : Readings) :
    ConsentWorld :=
  match scope with
  | .deny => w
  | .denySession =>
    if call.sessionKey ≠ "" then { w with sessionDeny := w.sessionDeny.insert call.key } else w
  | .once | .session | .window =>
    if policy.isAlwaysAsk call ∨ call.sessionKey = "" then w
    else if scope = .session ∨ policy.tier call = .askOnceSession then
      { w with sessionBatch := w.sessionBatch.insert call.key }
    else if scope = .window then
      { w with
        windows :=
          (call.key, clock.granted + policy.windowSeconds) ::
            w.windows.filter fun window => clock.pruned < window.2 ∧ window.1 ≠ call.key }
    else w

variable (i : Nat) (task : ConsentTask)

def act (answer : ConsentScope) (settlement : Settlement) (scope : ConsentScope) (clock : Readings)
    : ConsentWorld :=
  { w.grant policy task.call scope clock with
    tasks := w.tasks.eraseIdx i
    log := .answered task.request task.call answer settlement scope clock.granted :: w.log }

def opens (met : Circumstances) (requestId expiresAt : String) : ConsentWorld :=
  let opened :=
    if policy.wired then openItemFor env met task.call requestId expiresAt w.journal else none
  { w with
    journal := (opened.map Prod.snd).getD w.journal
    tasks :=
      w.tasks.set i
        { task with phase := .prompts ((opened.bind Prod.fst).map NeedsYouItem.id) }
    log := .opened task.request requestId (opened.bind Prod.fst) :: w.log }

/-- The prompter returns or raises (`none`); a scheduler's request is answered by the autonomous
prompter. -/
def answers (itemId : Option String) (answer : Option ConsentScope)
    (channels : Option (List String)) (clock : Readings) :
    ConsentWorld :=
  let answer :=
    if task.call.principal = some PRINCIPAL_AUTONOMOUS_SCHEDULER then
      some (autonomousPrompt (policy.handed task.call itemId) channels)
    else answer
  match answer, itemId with
  | some answer, some itemId =>
    { w with tasks := w.tasks.set i { task with phase := .settles itemId answer } }
  | some answer, none => w.act policy i task answer .unbound answer clock
  | none, some itemId => { w with tasks := w.tasks.set i { task with phase := .abandons itemId } }
  | none, none =>
    { w with tasks := w.tasks.eraseIdx i, log := .failed task.request task.call :: w.log }

/-- The answer is put to the settlement, and what won is acted on; the answer itself, where the
settlement failed. -/
def settles (itemId : String) (answer : ConsentScope) (met : Circumstances) (now : String)
    (clock : Readings) :
    ConsentWorld :=
  match settleItem env met itemId answer task.call.channel now w.journal with
  | some (resolution, journal) =>
    { w with journal }.act policy i task answer (.settled itemId) (settledScope resolution) clock
  | none => w.act policy i task answer (.failed itemId) answer clock

/-- `settle_or_abandon`, and the denial. -/
def abandons (itemId : String) (met : Circumstances) : ConsentWorld :=
  let expired :=
    if met.commits then
      expireItem env met.writesPaused met.ids itemId "system:consent_prompt_error" w.journal
    else none
  { w with
    journal := (expired.map Prod.snd).getD w.journal
    tasks := w.tasks.eraseIdx i
    log := .failed task.request task.call :: w.log }

end ConsentWorld

inductive ConsentOp where
  | request (call : ConsentCall) (now : Int) (channels : Option (List String))
      (resolverEnabled : Bool)
  /-- The request under way goes on from its await. -/
  | proceed (i : Nat) (met : Circumstances) (requestId expiresAt : String)
      (answer : Option ConsentScope) (channels : Option (List String)) (now : String)
      (clock : Readings)
  /-- The request is cancelled. -/
  | cancel (i : Nat)
  /-- Another one writes to the journal. -/
  | journal (transaction : Transaction)

/-- **A step.** -/
def consentStep (env : Env) (policy : ConsentPolicy) (w : ConsentWorld) :
    ConsentOp → ConsentWorld
  | .request call now channels resolverEnabled =>
    w.request policy call now channels resolverEnabled
  | .proceed i met requestId expiresAt answer channels now clock =>
    match w.tasks[i]? with
    | none => w
    | some task =>
      match task.phase with
      | .opens => w.opens env policy i task met requestId expiresAt
      | .prompts itemId => w.answers policy i task itemId answer channels clock
      | .settles itemId answer => w.settles env policy i task itemId answer met now clock
      | .abandons itemId => w.abandons env i task itemId met
  | .cancel i => { w with tasks := w.tasks.eraseIdx i }
  | .journal transaction => { w with journal := journalStep env w.journal transaction }

end StackOwl.Tools
