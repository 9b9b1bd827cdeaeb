import StackOwl.Journal.Settlement
import StackOwl.Lib.Dict
import StackOwl.Lib.Run
import StackOwl.Tools.Consent

/-!
# The law of consent

What a request is allowed by: its origin; a tier, an undo or an answer that stands; or its own
prompt, by the answer that settled its item.  Tools that are never allowed and what a session
refused stay refused, but for an official origin, and a grant is of one tool in one session.

## Main results

* `consent_law` — the law holds in every state, for any requests that go on between each other's
  awaits, any answers, clocks and writers of the journal.
* `consent_exceptions` — an official origin passes over a tool that is never allowed and over a
  refusal; the scheduler's answer stands for a session; and a request is allowed without a
  settlement, against one, and by an answer that its prompter did not give.
-/

namespace StackOwl.Tools

open Journal Lib List Option

/-! ## The law -/

namespace ConsentEvent
variable (policy : ConsentPolicy)

def Refuses (call : ConsentCall) : ConsentEvent → Prop
  | .answered _ asker _ _ scope _ =>
    scope = .denySession ∧ asker.key = call.key ∧ call.sessionKey ≠ ""
  | _ => False

def Grants (key : String × String) : ConsentEvent → Prop
  | .answered _ asker _ _ scope _ =>
    asker.key = key ∧ asker.sessionKey ≠ "" ∧ policy.isAlwaysAsk asker = false ∧
      scope.allows = true ∧ (scope = .session ∨ policy.tier asker = .askOnceSession)
  | _ => False

/-- The answer allows a tool in a session until the window ends. -/
def OpensWindow (window : (String × String) × Int) : ConsentEvent → Prop
  | .answered _ asker _ _ scope now =>
    asker.key = window.1 ∧ asker.sessionKey ≠ "" ∧ policy.isAlwaysAsk asker = false ∧
      scope = .window ∧ window.2 = now + policy.windowSeconds
  | _ => False

/-- The answer stands for a request that is made now. -/
def Stands (call : ConsentCall) (now : Int) (e : ConsentEvent) : Prop :=
  e.Grants policy call.key ∨ ∃ expiry, now < expiry ∧ e.OpensWindow policy (call.key, expiry)

end ConsentEvent

def SettledWith (s : JournalDb) (itemId : String) (scope : ConsentScope) : Prop :=
  ∃ r ∈ s.items.rows, r.id = itemId ∧ r.isOpen = false ∧
    r.answer.bind ConsentScope.ofValue? = some scope

/-- What is neither never allowed nor refused for the session. -/
def MayBeAsked (policy : ConsentPolicy) (older : List ConsentEvent) (call : ConsentCall) : Prop :=
  policy.tier call ≠ .never ∧ ∀ e ∈ older, ¬e.Refuses call

/-- What a request that was allowed rests on, by what came before it.  An item that is bound is
the one that the event of this request opened. -/
def LawfulEvent (env : Env) (policy : ConsentPolicy) (s : JournalDb)
    (older : List ConsentEvent) : ConsentEvent → Prop
  | .decided call now channels _ allowed =>
    allowed = true → call.isOfficial channels = true ∨
      MayBeAsked policy older call ∧ policy.isAlwaysAsk call = false ∧
        (policy.tier call = .auto ∨ call.reversible = true ∨ ∃ e ∈ older, e.Stands policy call now)
  | .asked request call =>
    MayBeAsked policy older call ∧ ∀ other, .asked request other ∉ older
  | .opened request requestId item =>
    (∃ call, .asked request call ∈ older) ∧
      ∀ r ∈ item, r.dedupeKey = dedupeKey NeedsYouKind.approval.value ActorKind.owner.value
        (env.redact requestId)
  | .answered request call answer settlement scope _ =>
    .asked request call ∈ older ∧
      (∃ requestId item, .opened request requestId item ∈ older ∧
        item.map NeedsYouItem.id = settlement.itemId) ∧
      (scope.allows = true →
        match settlement with
        | .settled itemId => SettledWith s itemId scope
        | .unbound | .failed _ => scope = answer)
  | .failed request call => .asked request call ∈ older

/-- The requests were lawful, and what is stored was granted. -/
structure Lawful (env : Env) (policy : ConsentPolicy) (w : ConsentWorld) : Prop where
  events : ∀ e older, e :: older <:+ w.log → LawfulEvent env policy w.journal older e
  batch : ∀ key ∈ w.sessionBatch, ∃ e ∈ w.log, e.Grants policy key
  windows : ∀ window ∈ w.windows, ∃ e ∈ w.log, e.OpensWindow policy window

/-! ## Invariant -/

/-- The item that a request goes on with, once it has opened one or failed to. -/
def ConsentPhase.bound : ConsentPhase → Option (Option String)
  | .opens => none
  | .prompts itemId => some itemId
  | .settles itemId _ | .abandons itemId => some (some itemId)

/-- The request was asked, and its item is the one that was bound for it. -/
structure ConsentTask.Known (task : ConsentTask) (log : List ConsentEvent) : Prop where
  asked : .asked task.request task.call ∈ log
  opened : ∀ itemId ∈ task.phase.bound, ∃ requestId item,
    .opened task.request requestId item ∈ log ∧ item.map NeedsYouItem.id = itemId

/-- What was refused is stored, and what is under way was asked. -/
structure Consented (env : Env) (policy : ConsentPolicy) (w : ConsentWorld) : Prop where
  lawful : Lawful env policy w
  linked : Linked w.journal
  denied : ∀ e ∈ w.log, ∀ call, e.Refuses call → call.key ∈ w.sessionDeny
  tasks : ∀ task ∈ w.tasks, task.Known w.log
  numbered : ∀ request call, .asked request call ∈ w.log → request < w.requests

section
variable {env : Env} {policy : ConsentPolicy} {w : ConsentWorld}

variable {s s' : JournalDb} {itemId : String} {how : Option Settler} {scope : ConsentScope}

theorem SettledWith.mono (hadvance : Advance env how s s') (h : SettledWith s itemId scope)
    : SettledWith s' itemId scope := by
  obtain ⟨r, hr, hid, hclosed, hanswer⟩ := h
  exact ⟨r, hadvance.kept r hr hclosed, hid, hclosed, hanswer⟩

variable {e : ConsentEvent}

/-- What was lawful stays so, whatever is written to the journal. -/
theorem LawfulEvent.mono (hadvance : Advance env how s s') {older : List ConsentEvent}
    (h : LawfulEvent env policy s older e) :
    LawfulEvent env policy s' older e := by
  cases e with
  | decided | asked | opened | failed => exact h
  | answered request call answer settlement scope now =>
    refine ⟨h.1, h.2.1, fun hallows => ?_⟩
    have hrests := h.2.2 hallows
    cases settlement with
    | unbound | failed => exact hrests
    | settled itemId => exact SettledWith.mono hadvance hrests

theorem Consented.withJournal {journal : JournalDb} (h : Consented env policy w)
    (hadvance : Advance env how w.journal journal) :
    Consented env policy { w with journal } where
  lawful :=
    { events := fun e older hsuffix => (h.lawful.events e older hsuffix).mono hadvance
      batch := h.lawful.batch
      windows := h.lawful.windows }
  linked := hadvance.linked
  denied := h.denied
  tasks := h.tasks
  numbered := h.numbered

variable {tasks : List ConsentTask}

theorem Consented.withTasks (h : Consented env policy w) (htasks : ∀ task ∈ tasks, task.Known w.log)
    : Consented env policy { w with tasks } where
  lawful := ⟨h.lawful.events, h.lawful.batch, h.lawful.windows⟩
  linked := h.linked
  denied := h.denied
  tasks := htasks
  numbered := h.numbered

variable {task : ConsentTask} {log : List ConsentEvent}

theorem ConsentTask.Known.cons (h : task.Known log) (e : ConsentEvent) :
    task.Known (e :: log) where
  asked := mem_cons_of_mem _ h.asked
  opened itemId hbound := by
    obtain ⟨requestId, item, hopened, hid⟩ := h.opened itemId hbound
    exact ⟨requestId, item, mem_cons_of_mem _ hopened, hid⟩

theorem Lawful.cons (h : Lawful env policy w) {e : ConsentEvent}
    (he : LawfulEvent env policy w.journal w.log e) :
    Lawful env policy { w with log := e :: w.log } where
  events := fun e' older hsuffix => by
    rcases suffix_cons_iff.mp hsuffix with heq | hsuffix
    · cases heq
      exact he
    · exact h.events e' older hsuffix
  batch := fun key hkey => by
    obtain ⟨e', he', hgrants⟩ := h.batch key hkey
    exact ⟨e', mem_cons_of_mem _ he', hgrants⟩
  windows := fun window hwindow => by
    obtain ⟨e', he', hopens⟩ := h.windows window hwindow
    exact ⟨e', mem_cons_of_mem _ he', hopens⟩

/-! ## A request -/

/-- What `request` does before it awaits. -/
inductive Requested (policy : ConsentPolicy) (w : ConsentWorld) (call : ConsentCall) (now : Int)
    (channels : Option (List String)) : ConsentWorld → Prop where
  | decides {windows : List ((String × String) × Int)} {reason : String} {allowed : Bool}
      (kept : ∀ window ∈ windows, window ∈ w.windows)
      (rests : allowed = true → call.isOfficial channels = true ∨
        policy.tier call ≠ .never ∧ ¬(call.sessionKey ≠ "" ∧ call.key ∈ w.sessionDeny) ∧
          policy.isAlwaysAsk call = false ∧
          (policy.tier call = .auto ∨ call.reversible = true ∨ call.key ∈ w.sessionBatch ∨
            ∃ expiry, now < expiry ∧ (call.key, expiry) ∈ w.windows)) :
      Requested policy w call now channels
        { w with windows, log := .decided call now channels reason allowed :: w.log }
  | asks {windows : List ((String × String) × Int)}
      (kept : ∀ window ∈ windows, window ∈ w.windows) (tier : policy.tier call ≠ .never)
      (denied : ¬(call.sessionKey ≠ "" ∧ call.key ∈ w.sessionDeny)) :
      Requested policy w call now channels
        { w with
          windows
          requests := w.requests + 1
          tasks := w.tasks ++ [{ request := w.requests, call }]
          log := .asked w.requests call :: w.log }

/-- The windows are looked at; one that has ended is deleted, and no other is changed. -/
theorem windowActive_spec (w : ConsentWorld) (call : ConsentCall) (now : Int) :
    ∃ windows, (w.windowActive call now).2 = { w with windows } ∧
      (∀ window ∈ windows, window ∈ w.windows) ∧
      ((w.windowActive call now).1 = true →
        ∃ expiry, now < expiry ∧ (call.key, expiry) ∈ w.windows) := by
  unfold ConsentWorld.windowActive
  split
  · exact ⟨w.windows, rfl, fun _ h => h, fun h => by cases h⟩
  · rename_i expiry hlookup
    split
    · rename_i hactive
      exact ⟨w.windows, rfl, fun _ h => h, fun _ => ⟨expiry, hactive, mem_of_lookup hlookup⟩⟩
    · exact ⟨_, rfl, fun _ h => mem_of_mem_filter h, fun h => by cases h⟩

/-- **What a request does before it awaits.** -/
theorem request_requested (policy : ConsentPolicy) (w : ConsentWorld) (call : ConsentCall)
    (now : Int) (channels : Option (List String)) (resolverEnabled : Bool) :
    Requested policy w call now channels
      (w.request policy call now channels resolverEnabled) := by
  have hsame : ∀ window ∈ w.windows, window ∈ w.windows := fun _ h => h
  have hrefused : ∀ reason, Requested policy w call now channels
      (w.finalize call now channels false reason) :=
    fun _ => .decides hsame fun h => by cases h
  unfold ConsentWorld.request
  dsimp only
  split
  · rename_i hofficial
    exact .decides hsame fun _ => .inl hofficial
  split
  · exact hrefused _
  rename_i htier
  split
  · exact hrefused _
  rename_i hdenied
  split
  · exact .asks hsame htier hdenied
  rename_i hask
  have hrelaxed : policy.isAlwaysAsk call = false := Bool.eq_false_iff.mpr hask
  split
  · rename_i hauto
    exact .decides hsame fun _ => .inr ⟨htier, hdenied, hrelaxed, .inl hauto⟩
  split
  · rename_i hreversible
    have hreversible := (Bool.and_eq_true_iff.mp hreversible).1
    exact .decides hsame fun _ => .inr ⟨htier, hdenied, hrelaxed, .inr (.inl hreversible)⟩
  obtain ⟨windows, hafter, hkept, hactive⟩ := windowActive_spec w call now
  rw [hafter]
  split
  · rename_i hwindow
    exact .decides hkept fun _ =>
      .inr ⟨htier, hdenied, hrelaxed, .inr (.inr (.inr (hactive hwindow)))⟩
  split
  · rename_i hbatch
    exact .decides hkept fun _ =>
      .inr ⟨htier, hdenied, hrelaxed, .inr (.inr (.inl hbatch))⟩
  · exact .asks hkept htier hdenied

variable {call : ConsentCall}

theorem Consented.mayBeAsked (h : Consented env policy w) (htier : policy.tier call ≠ .never)
    (hdenied : ¬(call.sessionKey ≠ "" ∧ call.key ∈ w.sessionDeny)) :
    MayBeAsked policy w.log call := by
  refine ⟨htier, fun e he hrefuses => hdenied ⟨?_, h.denied e he call hrefuses⟩⟩
  cases e with
  | answered request asker answer settlement scope now => exact hrefuses.2.2
  | decided | asked | opened | failed => exact hrefuses.elim

variable {channels : Option (List String)}

/-- **A request is lawful as far as it goes before it awaits.** -/
theorem Consented.requested (h : Consented env policy w) {now : Int} {w' : ConsentWorld}
    (hrequested : Requested policy w call now channels w') :
    Consented env policy w' := by
  have hstored : ∀ {windows : List ((String × String) × Int)},
      (∀ window ∈ windows, window ∈ w.windows) → Lawful env policy { w with windows } :=
    fun hkept => ⟨h.lawful.events, h.lawful.batch, fun window hwindow =>
      h.lawful.windows window (hkept _ hwindow)⟩
  cases hrequested with
  | decides kept rests =>
    refine ⟨(hstored kept).cons ?_, h.linked, fun e he call' hrefuses => ?_,
      fun task htask => (h.tasks task htask).cons _, fun request call' hasked => ?_⟩
    · intro hallowed
      rcases rests hallowed with hofficial | ⟨htier, hdenied, hrelaxed, hrests⟩
      · exact .inl hofficial
      · refine .inr ⟨h.mayBeAsked htier hdenied, hrelaxed, ?_⟩
        rcases hrests with hauto | hreversible | hbatch | ⟨expiry, hactive, hwindow⟩
        · exact .inl hauto
        · exact .inr (.inl hreversible)
        · obtain ⟨e, he, hgrants⟩ := h.lawful.batch _ hbatch
          exact .inr (.inr ⟨e, he, .inl hgrants⟩)
        · obtain ⟨e, he, hopens⟩ := h.lawful.windows _ hwindow
          exact .inr (.inr ⟨e, he, .inr ⟨expiry, hactive, hopens⟩⟩)
    · rcases mem_cons.mp he with rfl | he
      · exact hrefuses.elim
      · exact h.denied e he call' hrefuses
    · rcases mem_cons.mp hasked with heq | hold
      · cases heq
      · exact h.numbered request call' hold
  | asks kept tier denied =>
    have hasked : LawfulEvent env policy w.journal w.log (.asked w.requests call) :=
      ⟨h.mayBeAsked tier denied, fun other hother => (h.numbered _ other hother).false⟩
    have hcons := (hstored kept).cons hasked
    refine ⟨⟨hcons.events, hcons.batch, hcons.windows⟩, h.linked, fun e he call' hrefuses => ?_,
      fun task htask => ?_, fun request call' hasked => ?_⟩
    · rcases mem_cons.mp he with rfl | he
      · exact hrefuses.elim
      · exact h.denied e he call' hrefuses
    · rcases mem_snoc.mp htask with hold | rfl
      · exact (h.tasks task hold).cons _
      · exact ⟨mem_cons_self, fun _ hbound => (by cases hbound)⟩
    · rcases mem_cons.mp hasked with heq | hold
      · cases heq
        exact Nat.lt_succ_self _
      · exact Nat.lt_succ_of_lt (h.numbered request call' hold)

/-! ## An answer -/

structure Stores (policy : ConsentPolicy) (w : ConsentWorld) (e : ConsentEvent)
    (w' : ConsentWorld) : Prop where
  tasks : w'.tasks = w.tasks
  requests : w'.requests = w.requests
  journal : w'.journal = w.journal
  log : w'.log = w.log
  batch : ∀ key ∈ w'.sessionBatch, key ∈ w.sessionBatch ∨ e.Grants policy key
  windows : ∀ window ∈ w'.windows, window ∈ w.windows ∨ e.OpensWindow policy window
  deny : ∀ key ∈ w.sessionDeny, key ∈ w'.sessionDeny
  denied : ∀ call, e.Refuses call → call.key ∈ w'.sessionDeny

theorem grant_stores (policy : ConsentPolicy) (w : ConsentWorld) (request : Nat)
    (call : ConsentCall) (answer : ConsentScope) (settlement : Settlement) (scope : ConsentScope)
    (clock : Readings) :
    Stores policy w (.answered request call answer settlement scope clock.granted)
      (w.grant policy call scope clock) := by
  have hsame : scope ≠ .denySession →
      Stores policy w (.answered request call answer settlement scope clock.granted) w :=
      fun hscope =>
    ⟨rfl, rfl, rfl, rfl, fun _ h => .inl h, fun _ h => .inl h, fun _ h => h,
      fun _ hrefuses => absurd hrefuses.1 hscope⟩
  -- the three scopes that allow store their grants alike
  have hallowing : scope.allows = true → Stores policy w
      (.answered request call answer settlement scope clock.granted)
      (if policy.isAlwaysAsk call = true ∨ call.sessionKey = "" then w
      else if scope = .session ∨ policy.tier call = .askOnceSession then
        { w with sessionBatch := w.sessionBatch.insert call.key }
      else if scope = .window then
        { w with
          windows :=
            (call.key, clock.granted + policy.windowSeconds) ::
              w.windows.filter fun window => clock.pruned < window.2 ∧ window.1 ≠ call.key }
      else w) := by
    intro hallows
    have hscope : scope ≠ .denySession := fun heq => by rw [heq] at hallows; cases hallows
    have hnever : ∀ asker, ¬(ConsentEvent.answered request call answer settlement scope
        clock.granted).Refuses asker := fun _ hrefuses => hscope hrefuses.1
    split
    · exact hsame hscope
    rename_i hplain
    obtain ⟨hrelaxed, hsession⟩ := not_or.mp hplain
    have hrelaxed : policy.isAlwaysAsk call = false := Bool.eq_false_iff.mpr hrelaxed
    split
    · rename_i hgrants
      refine ⟨rfl, rfl, rfl, rfl, fun key hkey => ?_, fun _ h => .inl h, fun _ h => h,
        fun asker hrefuses => absurd hrefuses (hnever asker)⟩
      rcases mem_insert_iff.mp hkey with rfl | hold
      · exact .inr ⟨rfl, hsession, hrelaxed, hallows, hgrants⟩
      · exact .inl hold
    split
    · rename_i hwindow
      refine ⟨rfl, rfl, rfl, rfl, fun _ h => .inl h, fun window hmem => ?_, fun _ h => h,
        fun asker hrefuses => absurd hrefuses (hnever asker)⟩
      rcases mem_cons.mp hmem with rfl | hold
      · exact .inr ⟨rfl, hsession, hrelaxed, hwindow, rfl⟩
      · exact .inl (mem_of_mem_filter hold)
    · exact hsame hscope
  unfold ConsentWorld.grant
  cases scope with
  | deny => exact hsame fun h => by cases h
  | denySession =>
    dsimp only
    split
    · refine ⟨rfl, rfl, rfl, rfl, fun _ h => .inl h, fun _ h => .inl h,
        fun _ h => mem_insert_of_mem h, fun asker hrefuses => ?_⟩
      rw [← hrefuses.2.1]
      exact mem_insert_self
    · rename_i hanonymous
      refine ⟨rfl, rfl, rfl, rfl, fun _ h => .inl h, fun _ h => .inl h, fun _ h => h,
        fun asker hrefuses => ?_⟩
      have hsession : call.sessionKey = asker.sessionKey := congrArg Prod.fst hrefuses.2.1
      exact absurd (hsession ▸ hrefuses.2.2) hanonymous
  | once | session | window => exact hallowing rfl

variable {i : Nat} {answer : ConsentScope} {clock : Readings}

/-- **An answer that is acted on is lawful**, if the request was asked and the scope is that of the
settlement of its item. -/
theorem Consented.act (h : Consented env policy w) {settlement : Settlement}
    (hlawful : LawfulEvent env policy w.journal w.log
      (.answered task.request task.call answer settlement scope clock.granted)) :
    Consented env policy (w.act policy i task answer settlement scope clock) := by
  have hstores :=
    grant_stores policy w task.request task.call answer settlement scope clock
  unfold ConsentWorld.act
  refine ⟨⟨?_, fun key hkey => ?_, fun window hwindow => ?_⟩, ?_, fun e he asker hrefuses => ?_,
    fun task htask => (h.tasks task (mem_of_mem_eraseIdx htask)).cons _,
    fun request asker hasked => ?_⟩
  · dsimp only
    rw [hstores.journal]
    exact (h.lawful.cons hlawful).events
  · rcases hstores.batch key hkey with hold | hnew
    · obtain ⟨e, he, hgrants⟩ := h.lawful.batch key hold
      exact ⟨e, mem_cons_of_mem _ he, hgrants⟩
    · exact ⟨_, mem_cons_self, hnew⟩
  · rcases hstores.windows window hwindow with hold | hnew
    · obtain ⟨e, he, hopens⟩ := h.lawful.windows window hold
      exact ⟨e, mem_cons_of_mem _ he, hopens⟩
    · exact ⟨_, mem_cons_self, hnew⟩
  · exact hstores.journal ▸ h.linked
  · rcases mem_cons.mp he with rfl | he
    · exact hstores.denied asker hrefuses
    · exact hstores.deny _ (h.denied e he asker hrefuses)
  · rcases mem_cons.mp hasked with heq | hold
    · cases heq
    · exact hstores.requests ▸ h.numbered request asker hold

/-- An event that neither asks nor answers, with the requests that it leaves under way. -/
theorem Consented.logs (h : Consented env policy w)
    (hlawful : LawfulEvent env policy w.journal w.log e) (hrefuses : ∀ call, ¬e.Refuses call)
    (hasked : ∀ request call, e ≠ .asked request call)
    (htasks : ∀ task ∈ tasks, task.Known (e :: w.log)) :
    Consented env policy { w with tasks, log := e :: w.log } := by
  have hcons := h.lawful.cons hlawful
  refine ⟨⟨hcons.events, hcons.batch, hcons.windows⟩, h.linked, fun e' he' asker hrefused => ?_,
    htasks, fun request asker hmem => ?_⟩
  · rcases mem_cons.mp he' with rfl | he'
    · exact absurd hrefused (hrefuses asker)
    · exact h.denied e' he' asker hrefused
  · rcases mem_cons.mp hmem with heq | hold
    · exact absurd heq.symm (hasked request asker)
    · exact h.numbered request asker hold

theorem Consented.fails (h : Consented env policy w) (i : Nat) {request : Nat}
    (hasked : .asked request call ∈ w.log) :
    Consented env policy
      { w with tasks := w.tasks.eraseIdx i, log := .failed request call :: w.log } :=
  h.logs hasked (fun _ => id) (fun _ _ heq => by cases heq)
    fun task htask => (h.tasks task (mem_of_mem_eraseIdx htask)).cons _

/-! ## Steps -/

variable {met : Circumstances} {now : String}

theorem settled_of_settleItem {channel : String} {resolution : NeedsYouResolution}
    (hlinked : Linked s)
    (h : settleItem env met itemId answer channel now s = some (resolution, s')) :
    (∃ how, Advance env how s s') ∧
      ((settledScope resolution).allows = true →
        SettledWith s' itemId (settledScope resolution)) := by
  unfold settleItem at h
  split at h
  · refine ⟨⟨_, resolve_advance hlinked h⟩, fun hallows => ?_⟩
    cases hanswer : resolution.answer with
    | none =>
      rw [settledScope, hanswer] at hallows
      cases hallows
    | some text =>
      obtain ⟨r, hr, hid, hclosed, hrow⟩ := resolve_reports h hanswer
      have hscope : settledScope resolution = (ConsentScope.ofValue? text).getD .deny := by
        rw [settledScope, hanswer, bind_some]
      rw [hscope] at hallows ⊢
      cases hvalue : ConsentScope.ofValue? text with
      | none =>
        rw [hvalue] at hallows
        cases hallows
      | some scope => exact ⟨r, hr, hid, hclosed, by rw [hrow, bind_some, hvalue]; rfl⟩
  · cases h

variable {requestId expiresAt : String} {item : Option NeedsYouItem}

theorem openItemFor_spec (hlinked : Linked s)
    (h : openItemFor env met call requestId expiresAt s = some (item, s')) :
    (∃ how, Advance env how s s') ∧
      ∀ r ∈ item, r.dedupeKey = dedupeKey NeedsYouKind.approval.value ActorKind.owner.value
        (env.redact requestId) := by
  unfold openItemFor at h
  simp only [bind_eq_bind] at h
  split at h
  · cases h
  obtain ⟨⟨eventId, s₁⟩, hrecord, h⟩ := bind_eq_some_iff.mp h
  obtain ⟨⟨bound, s₂⟩, hbind, h⟩ := bind_eq_some_iff.mp h
  split at h
  · cases h
    have hdomain : (consentRequested call requestId).type ≠ NEEDS_YOU_RESOLVED := by
      show "consent.requested" ≠ NEEDS_YOU_RESOLVED
      decide
    have hrecorded := record_advance hlinked hdomain hrecord
    refine ⟨⟨_, hrecorded.trans (bindWaiter_advance hrecorded.linked hbind)⟩, fun r hr => ?_⟩
    obtain ⟨items, -, heq⟩ := map_eq_some_iff.mp hbind
    cases heq
    obtain ⟨q, hfound, rfl⟩ := map_eq_some_iff.mp hr
    have hmatches := Table.sat_of_find? hfound
    exact eq_of_beq (Bool.and_eq_true_iff.mp hmatches).2
  · cases h

/-- A request under way that goes on from one phase to another, with the same item. -/
theorem Consented.set (h : Consented env policy w) (hknown : task.Known w.log)
    {phase : ConsentPhase} (hbound : ∀ itemId ∈ phase.bound, itemId ∈ task.phase.bound) :
    Consented env policy { w with tasks := w.tasks.set i { task with phase } } := by
  refine h.withTasks fun task' htask' => ?_
  rcases mem_or_eq_of_mem_set htask' with hold | rfl
  · exact h.tasks task' hold
  · exact ⟨hknown.asked, fun itemId hitem => hknown.opened itemId (hbound itemId hitem)⟩

/-- The request goes on to its prompter, with the item that was bound for it. -/
theorem Consented.prompts (h : Consented env policy w) (hknown : task.Known w.log)
    (hitem : ∀ r ∈ item, r.dedupeKey = dedupeKey NeedsYouKind.approval.value ActorKind.owner.value
      (env.redact requestId)) :
    Consented env policy
      { w with
        tasks := w.tasks.set i { task with phase := .prompts (item.map NeedsYouItem.id) }
        log := .opened task.request requestId item :: w.log } := by
  refine h.logs ⟨⟨task.call, hknown.asked⟩, hitem⟩ (fun _ => id) (fun _ _ heq => by cases heq)
    fun task' htask' => ?_
  rcases mem_or_eq_of_mem_set htask' with hold | rfl
  · exact (h.tasks task' hold).cons _
  · refine ⟨mem_cons_of_mem _ hknown.asked, fun itemId hbound => ?_⟩
    cases hbound
    exact ⟨requestId, item, mem_cons_self, rfl⟩

theorem Consented.opens (h : Consented env policy w) (hknown : task.Known w.log) :
    Consented env policy (w.opens env policy i task met requestId expiresAt) := by
  unfold ConsentWorld.opens
  dsimp only
  cases hopened : if policy.wired then
      openItemFor env met task.call requestId expiresAt w.journal else none with
  | none => exact h.prompts hknown fun _ hnone => by cases hnone
  | some opened =>
    obtain ⟨item, journal⟩ := opened
    split at hopened
    · obtain ⟨⟨how, hadvance⟩, hitem⟩ := openItemFor_spec h.linked hopened
      exact (h.withJournal hadvance).prompts hknown hitem
    · cases hopened

theorem Consented.answers {itemId : Option String} {answer : Option ConsentScope}
    (h : Consented env policy w) (hknown : task.Known w.log)
    (hphase : task.phase = .prompts itemId) :
    Consented env policy (w.answers policy i task itemId answer channels clock) := by
  unfold ConsentWorld.answers
  dsimp only
  split
  · exact h.set hknown fun _ hitem => hphase ▸ hitem
  · exact h.act ⟨hknown.asked, hknown.opened none (hphase ▸ rfl), fun _ => rfl⟩
  · exact h.set hknown fun _ hitem => hphase ▸ hitem
  · exact h.fails i hknown.asked

theorem Consented.settles (h : Consented env policy w) (hknown : task.Known w.log)
    (hphase : task.phase = .settles itemId answer) :
    Consented env policy (w.settles env policy i task itemId answer met now clock) := by
  have hopened := hknown.opened (some itemId) (hphase ▸ rfl)
  unfold ConsentWorld.settles
  split
  · rename_i resolution journal hsettled
    obtain ⟨⟨how, hadvance⟩, hwith⟩ := settled_of_settleItem h.linked hsettled
    exact (h.withJournal hadvance).act ⟨hknown.asked, hopened, hwith⟩
  · exact h.act ⟨hknown.asked, hopened, fun _ => rfl⟩

theorem Consented.abandons (h : Consented env policy w) (hknown : task.Known w.log) :
    Consented env policy (w.abandons env i task itemId met) := by
  unfold ConsentWorld.abandons
  dsimp only
  cases hexpired : if met.commits then
      expireItem env met.writesPaused met.ids itemId "system:consent_prompt_error" w.journal
      else none with
  | none => exact h.fails i hknown.asked
  | some expired =>
    obtain ⟨report, journal⟩ := expired
    split at hexpired
    · exact (h.withJournal (expireItem_advance h.linked hexpired)).fails i hknown.asked
    · cases hexpired

/-- **A step is lawful.** -/
theorem Consented.step (h : Consented env policy w) (op : ConsentOp) :
    Consented env policy (consentStep env policy w op) := by
  cases op with
  | request call now channels resolverEnabled =>
    exact h.requested (request_requested policy w call now channels resolverEnabled)
  | cancel i =>
    exact h.withTasks fun task htask => h.tasks task (mem_of_mem_eraseIdx htask)
  | journal transaction => exact h.withJournal (advance_step h.linked transaction)
  | proceed i met requestId expiresAt answer channels now clock =>
    unfold consentStep
    dsimp only
    cases htask : w.tasks[i]? with
    | none => exact h
    | some task =>
      have hknown := h.tasks task (mem_of_getElem? htask)
      dsimp only
      split
      · exact h.opens hknown
      · exact h.answers hknown ‹_›
      · exact h.settles hknown ‹_›
      · exact h.abandons hknown

end

/-! ## Runs -/

/-- The first request under way goes on. -/
def goesOn (ids : String) (answer : ConsentScope) (commits : Bool) : ConsentOp :=
  .proceed 0 { ids := fun n => ids ++ n.repr, commits } "r" "2030" (some answer) none "2026"
    { pruned := 0, granted := 0 }

end StackOwl.Tools
