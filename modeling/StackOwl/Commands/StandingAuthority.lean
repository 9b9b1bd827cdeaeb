import Mathlib.Data.List.MinMax
import Mathlib.Data.String.Basic
import Mathlib.Logic.Function.Basic
import StackOwl.Commands.Reruns
import StackOwl.Lib.JsonAscii
import StackOwl.Lib.Run

/-!
# Revoked authority

`authz/standing_authority.py` as its two commands run it: what a grant and a revocation
write beside their rows, and whether a revocation lasts.  The commands are those of
`Commands.Reruns`: submitted, parked for their step-up, approved, claimed inline or by a
tick, run again when their lease expires, and cut off between any two stretches.

An observer keeps what the tables do not say: the journal's events and the audit rows with
the command they are of, and for each triple the journal as it was when a revocation went
through.

## Main results

* `advance_touches` — what a stretch does to `standing_authority`, and what it reports.
* `stays_revoked_iff` — revoked authority stays revoked in exactly the runs in which every
  grant that inserts its row is a command's first, approved since the last revocation.
* `regranted_by_rerun` — runs in which one is not.
-/

namespace StackOwl.Commands

open Lib List Function
open Journal (JournalDb JournalEvent ActorKind getItemByWaiter WAITER_KIND_COMMAND)

deriving instance DecidableEq for AuthorityScopePayload

/-! ## What the mutators record -/

def ScopeKind.value : ScopeKind → String
  | .job => "job"

def REQUESTER_KIND_TO_ACTOR_KIND : List (String × ActorKind) :=
  [("owner", .owner), ("owl", .owl), ("autonomous", .autonomous),
    ("voice-unverified", .voiceWorker)]

def actorKindFor (requesterKind : String) : ActorKind :=
  (REQUESTER_KIND_TO_ACTOR_KIND.lookup requesterKind).getD .autonomous

/-- `json.dumps` of a text. -/
def dumpText (text : String) : String := String.ofList (asciiString text)

/-- `json.dumps` of an object of texts, without blanks. -/
def dumpFields (fields : List (String × String)) : String :=
  "\x7b" ++ ",".intercalate
    (fields.map fun field => dumpText field.1 ++ ":" ++ dumpText field.2) ++ "\x7d"

/-- `_target`. -/
def authorityTarget (p : AuthorityScopePayload) : String :=
  "[" ++ ",".intercalate
    ([p.scopeKind.value, p.scopeId, p.commandType].map dumpText) ++ "]"

/-- The row a mutator appends to `audit_log`, without its time and its hashes. -/
structure AuditRecord where
  eventType : String
  actor : String
  target : String
  details : String

/-- The event both mutators record, each under its type, with its attributes and the name
of the one that holds who asked. -/
def authorityEvent (type attrsModel byField : String) (c : CommandContext)
    (p : AuthorityScopePayload) (id : String) : JournalEvent where
  type := type
  actorKind := actorKindFor c.requesterKind
  actorId := c.requesterKind
  targetKind := .owner
  targetId := authorityTarget p
  outcome := .ok
  recordRef := some ⟨"sqlite", [("table", "standing_authority"), ("id", id)]⟩
  attrs := .other attrsModel
    [("scope_kind", p.scopeKind.value), ("scope_id", p.scopeId),
      ("command_type", p.commandType), (byField, c.requesterKind)]

def AUTHORITY_GRANTED : String := "authority.granted"
def AUTHORITY_REVOKED : String := "authority.revoked"

/-- The event of `grant`. -/
def grantedEvent : CommandContext → AuthorityScopePayload → String → JournalEvent :=
  authorityEvent AUTHORITY_GRANTED "AuthorityGrantedAttrs" "granted_by"

/-- The event of `revoke`. -/
def revokedEvent : CommandContext → AuthorityScopePayload → String → JournalEvent :=
  authorityEvent AUTHORITY_REVOKED "AuthorityRevokedAttrs" "revoked_by"

def grantedAudit (c : CommandContext) (p : AuthorityScopePayload) (id : String) :
    AuditRecord where
  eventType := "authority_granted"
  actor := c.requesterKind
  target := authorityTarget p
  details := dumpFields
    [("command_type", p.commandType), ("id", id), ("provenance", "granted"),
      ("scope_id", p.scopeId), ("scope_kind", p.scopeKind.value)]

def revokedAudit (c : CommandContext) (p : AuthorityScopePayload) (id : String) :
    AuditRecord where
  eventType := "authority_revoked"
  actor := c.requesterKind
  target := authorityTarget p
  details := dumpFields
    [("command_type", p.commandType), ("id", id), ("scope_id", p.scopeId),
      ("scope_kind", p.scopeKind.value)]

/-- `find_active`: the newest of the open rows. -/
def findActive (p : AuthorityScopePayload) (d : Desk) : Option StandingAuthority :=
  (d.authority.rows.filter (StandingAuthority.active p)).argmax StandingAuthority.grantedAt

variable {p : AuthorityScopePayload}

theorem findActive_eq_none {d : Desk} :
    findActive p d = none ↔ hasActive p d = false := by
  rw [findActive, argmax_eq_none, filter_eq_nil_iff, hasActive]
  simp

/-! ## The observer -/

structure AuthorityNotes where
  /-- The task of each call, in their order. -/
  tasks : List String := []
  /-- The row a revocation has read, by its call. -/
  found : Nat → Option String := fun _ => none
  /-- The events and the audit rows of the two mutators, each behind the id of its
  command. -/
  events : List (String × JournalEvent) := []
  audits : List (String × AuditRecord) := []
  /-- The journal as it was when a revocation of the triple went through, until a grant
  approved since then executes. -/
  closed : AuthorityScopePayload → Option JournalDb := fun _ => none

def HandlerWorld.calledTask (w : HandlerWorld) : CommandOp → Option String
  | .execute i =>
    match w.command.dispatches[i]? with
    | some (.claimed task) => some task.taskId
    | _ => none
  | _ => none

/-- The item parked last for the task is approved, and was not settled then. -/
def approvedSince (before now : JournalDb) (taskId : String) : Bool :=
  (getItemByWaiter WAITER_KIND_COMMAND taskId now).any fun item =>
    !item.isOpen && item.answer == some APPROVED &&
      before.items.rows.all fun q => q.id != item.id || q.isOpen

/-- The grant that call `i` is about is a command's first, and was approved since the
triple was revoked, if it was. -/
def grantsAnew (w : HandlerWorld) (n : AuthorityNotes) (i : Nat) (commandId : String)
    (p : AuthorityScopePayload) : Bool :=
  (commandId, Change.granted) ∉ w.changes &&
    (n.closed p).all fun before =>
      (n.tasks[i]?).any fun taskId => approvedSince before w.command.journal taskId

def Progress.succeeds : Progress → Bool
  | .succeeded => true
  | _ => false

def Progress.isCalled : Progress → Bool
  | .called => true
  | _ => false

def recordedEvent (call : HandlerCall) (x : Surroundings) (found : Option String) :
    Option Change → Option JournalEvent
  | some .granted =>
    match call.order with
    | .grant p => some (grantedEvent call.context p x.hex)
    | _ => none
  | some .revoked =>
    match call.order with
    | .revoke p => some (revokedEvent call.context p (found.getD ""))
    | _ => none
  | _ => none

def recordedAudit (call : HandlerCall) (x : Surroundings) (found : Option String) :
    Option Change → Option AuditRecord
  | some .granted =>
    match call.order with
    | .grant p => some (grantedAudit call.context p x.hex)
    | _ => none
  | some .revoked =>
    match call.order with
    | .revoke p => some (revokedAudit call.context p (found.getD ""))
    | _ => none
  | _ => none

/-- A revocation goes through: for the first time, or closing rows. -/
def revokes (w : HandlerWorld) (call : HandlerCall) (m : Moved) : Bool :=
  !call.progress.succeeds && m.progress.succeeds &&
    (call.context.commandId ∉ w.succeeded || m.change == some .revoked)

def AuthorityNotes.closedAfter (n : AuthorityNotes) (w : HandlerWorld) (i : Nat)
    (call : HandlerCall) (m : Moved) : AuthorityScopePayload → Option JournalDb :=
  match call.order with
  | .grant p =>
    if m.change = some .granted ∧ grantsAnew w n i call.context.commandId p = true then
      update n.closed p none
    else n.closed
  | .revoke p =>
    if revokes w call m then update n.closed p (some w.command.journal)
    else n.closed
  | _ => n.closed

def AuthorityNotes.foundAfter (n : AuthorityNotes) (w : HandlerWorld) (i : Nat)
    (call : HandlerCall) : Nat → Option String :=
  match call.order, call.progress with
  | .revoke p, .called =>
    update n.found i ((findActive p w.desk).map StandingAuthority.id)
  | _, _ => n.found

def AuthorityNotes.advance (n : AuthorityNotes) (w : HandlerWorld) (i : Nat)
    (call : HandlerCall) (x : Surroundings) : AuthorityNotes :=
  let moved := Commands.advance call.context call.order call.progress x w.desk
  let commandId := call.context.commandId
  { n with
    found := n.foundAfter w i call
    events := n.events ++
      ((recordedEvent call x (n.found i) moved.change).map (commandId, ·)).toList
    audits := n.audits ++
      ((recordedAudit call x (n.found i) moved.change).map (commandId, ·)).toList
    closed := n.closedAfter w i call moved }

def noteAuthority (env : HandlerEnv) (w : HandlerWorld) (n : AuthorityNotes) :
    HandlerOp → AuthorityNotes
  | .command op =>
    { n with
      tasks := n.tasks ++
        ((w.handlerCall env op).bind fun _ => w.calledTask op).toList }
  | .advance i x =>
    match w.calls[i]? with
    | none => n
    | some call => n.advance w i call x
  | _ => n

def authorityStep (env : HandlerEnv) :
    HandlerWorld × AuthorityNotes → HandlerOp → HandlerWorld × AuthorityNotes :=
  watch (handlerStep env) (noteAuthority env)

def authorityFresh : HandlerWorld × AuthorityNotes := (.fresh, {})

/-! ## The property -/

def grantedRows (events : List (String × JournalEvent)) : List String :=
  events.filterMap fun entry =>
    if entry.2.type = AUTHORITY_GRANTED then
      entry.2.recordRef.bind fun ref => ref.locator.lookup "id"
    else none

/-- The types of the event and of the audit row of a change. -/
def changeTypes : Change → String × String
  | .granted => (AUTHORITY_GRANTED, "authority_granted")
  | _ => (AUTHORITY_REVOKED, "authority_revoked")

def HandlerWorld.authorityChanges (w : HandlerWorld) : List (String × Change) :=
  w.changes.filter fun entry => entry.2.byAuthority

/-- Every change of `standing_authority` has its event and its audit row, and every row
the event of its grant. -/
structure Recorded (w : HandlerWorld) (n : AuthorityNotes) : Prop where
  rows : w.desk.authority.rows.map StandingAuthority.id = grantedRows n.events
  events : n.events.map (fun entry => (entry.1, entry.2.type)) =
    w.authorityChanges.map fun entry => (entry.1, (changeTypes entry.2).1)
  audits : n.audits.map (fun entry => (entry.1, entry.2.eventType)) =
    w.authorityChanges.map fun entry => (entry.1, (changeTypes entry.2).2)

/-- **Revoked authority stays revoked**: `find_active` finds nothing for a triple while it
is closed, no command has granted twice, and what was changed is on record. -/
structure StaysRevoked (s : HandlerWorld × AuthorityNotes) : Prop where
  revoked : ∀ p, (s.2.closed p).isSome = true → findActive p s.1.desk = none
  once : ∀ commandId, s.1.changes.count (commandId, .granted) ≤ 1
  recorded : Recorded s.1 s.2

/-- The step is none of the seed-time routines: they write authority rows behind the
commands' back. -/
def byCommands (s : HandlerWorld × AuthorityNotes) : HandlerOp → Bool
  | .elsewhere _ _ authority => authority.rows == s.1.desk.authority.rows
  | _ => true

/-- `grant` gets its row in. -/
def inserts (x : Surroundings) (d : Desk) : Bool :=
  x.hasPool && !x.raises && d.authority.rows.all fun row => row.id != x.hex

/-- A grant that gets its row in is a command's first, and approved since the triple was
revoked. -/
def grantsInOrder (s : HandlerWorld × AuthorityNotes) : HandlerOp → Bool
  | .advance i x =>
    match s.1.calls[i]? with
    | some { context := c, order := .grant p, progress := .called, .. } =>
      !inserts x s.1.desk || grantsAnew s.1 s.2 i c.commandId p
    | _ => true
  | _ => true

/-! ## What a stretch does to the table -/

/-- The stretch leaves `standing_authority` as it is, and does not report otherwise. -/
def Keeps (d : Desk) (m : Moved) : Prop :=
  m.desk.authority = d.authority ∧
    ∀ change, m.change = some change → change.byAuthority = false

section

variable {c : CommandContext} {order : Order} {progress : Progress} {x : Surroundings}
  {d : Desk}

theorem Keeps.still (progress : Progress) : Keeps d { progress := progress, desk := d } :=
  ⟨rfl, fun _ h => nomatch h⟩

theorem Keeps.reports {m : Moved} {change : Change}
    (hauthority : m.desk.authority = d.authority) (hchange : m.change = some change)
    (hkind : change.byAuthority = false) : Keeps d m := by
  refine ⟨hauthority, fun other hother => ?_⟩
  rw [hchange] at hother
  cases hother
  exact hkind

theorem reading_keeps {next : Progress} : Keeps d (reading x d next) :=
  ⟨rfl, fun _ h => nomatch h⟩

theorem guarded_keeps {again : Progress} {undoPayload : Option String}
    {first : Desk → Option Moved} (hfirst : ∀ d m, first d = some m → Keeps d m) :
    Keeps d (guarded c undoPayload x d again first) := by
  unfold guarded
  split
  · exact Keeps.still _
  split
  · exact Keeps.still _
  · rename_i receipts _
    cases hm : first { d with receipts := receipts } with
    | none => exact Keeps.still _
    | some m => exact hfirst { d with receipts := receipts } m hm

theorem checkOccurrence_keeps (job : Job) : Keeps d (checkOccurrence job x d) := by
  unfold checkOccurrence
  split
  · exact Keeps.still _
  split
  · refine ⟨?_, fun _ h => nomatch h⟩
    dsimp only
    split <;> rfl
  · exact Keeps.still _

theorem claimRun_keeps (job : Job) : Keeps d (claimRun c job x d) := by
  refine guarded_keeps fun d m hm => ?_
  split at hm
  · cases hm
    exact ⟨rfl, fun _ h => nomatch h⟩
  · cases hm
    exact Keeps.still _

theorem dispatchRun_keeps (job : Job) : Keeps d (dispatchRun job x d) := by
  unfold dispatchRun
  split
  · exact Keeps.reports rfl rfl rfl
  · refine ⟨?_, fun _ h => nomatch h⟩
    dsimp only
    split <;> rfl

theorem settleRun_keeps (job : Job) (result : JobResult) :
    Keeps d (settleRun job result x d) := by
  unfold settleRun
  split
  · exact Keeps.still _
  · exact ⟨rfl, fun _ h => nomatch h⟩

theorem call_keeps (horder : order.receipted = true) : Keeps d (call c order x d) := by
  cases order with
  | pauseJob p | pauseOwlJob p =>
    refine guarded_keeps fun d m hm => ?_
    cases hm
    exact Keeps.reports rfl rfl rfl
  | resumeJob p | resumeOwlJob p => exact reading_keeps
  | createJob p => exact reading_keeps
  | editJob p => exact reading_keeps
  | deleteJob p =>
    refine guarded_keeps fun d m hm => ?_
    split at hm
    · cases hm
      exact Keeps.still _
    · cases hm
      exact Keeps.reports rfl rfl rfl
  | runNowJob p => exact reading_keeps
  | setOwlSchedule p => exact reading_keeps
  | grant p => cases horder
  | revoke p => cases horder

/-- The scheduling handlers leave the table alone. -/
theorem advance_keeps (horder : order.receipted = true) :
    Keeps d (advance c order progress x d) := by
  unfold advance
  split
  · split
    · exact call_keeps horder
    · exact Keeps.still _
  · refine guarded_keeps fun d m hm => ?_
    cases hm
    exact Keeps.reports rfl rfl rfl
  · refine guarded_keeps fun d m hm => ?_
    cases hm
    exact Keeps.reports rfl rfl rfl
  · refine guarded_keeps fun d m hm => ?_
    cases hm
    exact Keeps.reports rfl rfl rfl
  · refine guarded_keeps fun d m hm => ?_
    obtain ⟨jobs, -, heq⟩ := Option.bind_eq_some_iff.mp hm
    cases heq
    exact Keeps.reports rfl rfl rfl
  · refine guarded_keeps fun d m hm => ?_
    cases hm
    exact Keeps.reports rfl rfl rfl
  · exact reading_keeps
  · exact checkOccurrence_keeps _
  · exact claimRun_keeps _
  · exact dispatchRun_keeps _
  · exact settleRun_keeps _ _
  · cases horder
  · exact Keeps.still _

def grantedRow (c : CommandContext) (p : AuthorityScopePayload) (x : Surroundings) :
    StandingAuthority where
  id := x.hex
  scopeKind := p.scopeKind
  scopeId := p.scopeId
  commandType := p.commandType
  grantedBy := c.requesterKind
  grantedAt := x.now

theorem insert_eq_none {row : StandingAuthority} {t : Authority} :
    Table.insert row t = none ↔ ∃ r ∈ t.rows, r.id = row.id := by
  constructor
  · intro h
    by_contra hfree
    push Not at hfree
    obtain ⟨t', hsome⟩ := Table.insert_isSome (r := row) (t := t) fun key hkey s hs i hi hsi => by
      obtain rfl := mem_singleton.mp hkey
      exact hfree s hs (Option.some.inj (hsi.trans hi.symm))
    rw [hsome] at h
    cases h
  · rintro ⟨r, hr, hid⟩
    cases hinsert : Table.insert row t with
    | none => rfl
    | some t' =>
      exfalso
      have hfind := Table.find?_none_of_insert hinsert (q := fun s => s.id == row.id)
        mem_cons_self (fun s hs => congrArg some (eq_of_beq hs)) rfl
      exact find?_eq_none.mp hfind r hr (beq_iff_eq.mpr hid)

/-- What a stretch of an authority handler does to the table, and what it reports: nothing;
the insertion of a row; or the closing of the open ones. -/
inductive Touches (c : CommandContext) (order : Order) (progress : Progress)
    (x : Surroundings) (d : Desk) (m : Moved) : Prop where
  | nothing (hkeeps : Keeps d m)
      (hgrant : ∀ p, order = .grant p → progress.isCalled = true → inserts x d = false)
      (hrevoke : ∀ p, order = .revoke p → progress.succeeds = false →
        m.progress.succeeds = true → hasActive p d = false)
  | grants (p : AuthorityScopePayload) (horder : order = .grant p)
      (hcalled : progress.isCalled = true) (hinserts : inserts x d = true)
      (hrows : m.desk.authority.rows = d.authority.rows ++ [grantedRow c p x])
      (hchange : m.change = some .granted)
  | revokes (p : AuthorityScopePayload) (horder : order = .revoke p)
      (hrows : m.desk.authority.rows = d.authority.rows.map
        (patch (StandingAuthority.active p) fun row => { row with revokedAt := some x.now }))
      (hchange : m.change = some .revoked)

theorem grantAuthority_touches (p : AuthorityScopePayload) (hpool : x.hasPool = true) :
    Touches c (.grant p) .called x d (grantAuthority c p x d) := by
  have hnothing (hout : inserts x d = false) :
      Touches c (.grant p) .called x d { progress := .failed .raised, desk := d } :=
    .nothing (Keeps.still _) (fun _ _ _ => hout) fun _ horder => nomatch horder
  unfold grantAuthority
  dsimp only
  cases hraises : x.raises with
  | true => exact hnothing (by simp [inserts, hraises])
  | false =>
    rw [if_neg Bool.false_ne_true]
    cases hinsert : Table.insert (grantedRow c p x) d.authority with
    | none =>
      obtain ⟨row, hrow, hid⟩ := insert_eq_none.mp hinsert
      have hout : inserts x d = false := by
        rw [inserts, hpool, hraises]
        exact all_eq_false.mpr ⟨row, hrow, by simpa [grantedRow] using hid⟩
      simp only [grantedRow] at hinsert
      rw [hinsert]
      exact hnothing hout
    | some authority =>
      have hinserts : inserts x d = true := by
        rw [inserts, hpool, hraises]
        refine all_eq_true.mpr fun row hrow => ?_
        by_contra hclash
        have hid : row.id = x.hex := by simpa using hclash
        have hnone : Table.insert (grantedRow c p x) d.authority = none :=
          insert_eq_none.mpr ⟨row, hrow, hid⟩
        rw [hinsert] at hnone
        cases hnone
      have hrows := Table.rows_insert hinsert
      simp only [grantedRow] at hinsert
      rw [hinsert]
      exact .grants p rfl rfl hinserts hrows rfl

theorem revokeUpdate_touches (p : AuthorityScopePayload) :
    Touches c (.revoke p) .revoking x d (revokeUpdate p x d) := by
  have hkept : ∀ row, StandingAuthority.active p row = true →
      ∀ key ∈ [StandingAuthority.primaryKey],
        key { row with revokedAt := some x.now } = key row ∨
          key { row with revokedAt := some x.now } = none := by
    intro row _ key hkey
    obtain rfl := mem_singleton.mp hkey
    exact Or.inl rfl
  obtain ⟨authority, hupdate⟩ := Table.updateWhere_isSome d.authority hkept
  unfold revokeUpdate
  split
  · exact .nothing (Keeps.still _) (fun _ horder => nomatch horder)
      fun _ _ _ hthrough => nomatch hthrough
  split
  · rename_i hnone
    refine .nothing (Keeps.still _) (fun _ horder => nomatch horder) fun q horder _ _ => ?_
    cases horder
    exact hnone
  · refine .revokes p rfl ?_ rfl
    rw [hupdate]
    exact Table.rows_updateWhere hupdate

/-- **What a stretch does to `standing_authority`.** -/
theorem advance_touches : Touches c order progress x d (advance c order progress x d) := by
  by_cases hreceipted : order.receipted = true
  · refine .nothing (advance_keeps hreceipted) (fun p horder => ?_) fun p horder => ?_
    · rw [horder] at hreceipted
      cases hreceipted
    · rw [horder] at hreceipted
      cases hreceipted
  cases order with
  | grant p =>
    cases progress with
    | called =>
      cases hpool : x.hasPool with
      | true =>
        simp only [advance, hpool]
        exact grantAuthority_touches p hpool
      | false =>
        simp only [advance, hpool]
        exact .nothing (Keeps.still _) (fun _ _ _ => by simp [inserts, hpool])
          fun _ horder => by cases horder
    | _ =>
      exact .nothing (Keeps.still _) (fun _ _ hcalled => by cases hcalled)
        fun _ horder => by cases horder
  | revoke p =>
    cases progress with
    | called =>
      refine .nothing ?_ (fun _ horder => by cases horder) fun q horder _ hthrough => ?_
      · cases hpool : x.hasPool with
        | true =>
          simp only [advance, hpool]
          exact reading_keeps
        | false =>
          simp only [advance, hpool]
          exact Keeps.still _
      · cases horder
        cases hactive : hasActive p d with
        | false => rfl
        | true =>
          revert hthrough
          cases hpool : x.hasPool <;> cases hraises : x.raises <;>
            simp [advance, call, reading, hpool, hraises, hactive, Progress.succeeds]
    | revoking => exact revokeUpdate_touches p
    | succeeded =>
      exact .nothing (Keeps.still _) (fun _ horder => by cases horder)
        fun _ _ hbefore => by cases hbefore
    | _ =>
      exact .nothing (Keeps.still _) (fun _ horder => by cases horder)
        fun _ _ _ hthrough => by cases hthrough
  | _ => exact absurd rfl hreceipted

end

/-! ## What is found -/

theorem findActive_congr {d d' : Desk} (h : d'.authority.rows = d.authority.rows) :
    findActive p d' = findActive p d := by
  rw [findActive, h, findActive]

theorem findActive_grant {c : CommandContext} {x : Surroundings} {d d' : Desk}
    (h : d'.authority.rows = d.authority.rows ++ [grantedRow c p x]) :
    findActive p d' ≠ none := by
  rw [Ne, findActive_eq_none, hasActive, h]
  simp [StandingAuthority.active, grantedRow]

variable {q : AuthorityScopePayload}

theorem findActive_grant_of_ne {c : CommandContext} {x : Surroundings} {d d' : Desk}
    (h : d'.authority.rows = d.authority.rows ++ [grantedRow c p x]) (hne : q ≠ p)
    (hnone : findActive q d = none) : findActive q d' = none := by
  rw [findActive_eq_none] at hnone ⊢
  have hother : StandingAuthority.active q (grantedRow c p x) = false := by
    by_contra hactive
    have hsame := Bool.of_not_eq_false hactive
    simp only [StandingAuthority.active, grantedRow, Bool.and_eq_true, beq_iff_eq] at hsame
    obtain ⟨⟨⟨hkind, hid⟩, htype⟩, -⟩ := hsame
    cases p
    cases q
    simp_all
  rw [hasActive, h, any_append]
  rw [hasActive] at hnone
  simp [hnone, hother]

/-- A revocation leaves nothing of its triple, and nothing new. -/
theorem findActive_revoke {now : String} {d d' : Desk}
    (h : d'.authority.rows = d.authority.rows.map
      (patch (StandingAuthority.active p) fun row => { row with revokedAt := some now }))
    (hq : q = p ∨ findActive q d = none) : findActive q d' = none := by
  rw [findActive_eq_none, hasActive, h, any_map, any_eq_false]
  intro row hrow
  by_cases hactive : StandingAuthority.active p row = true
  · rw [comp, patch, if_pos hactive]
    simp [StandingAuthority.active]
  · rw [comp, patch, if_neg hactive]
    rcases hq with rfl | hnone
    · exact hactive
    · rw [findActive_eq_none, hasActive, any_eq_false] at hnone
      exact hnone row hrow

/-! ## The record -/

theorem authorityChanges_append {w w' : HandlerWorld} {entries : List (String × Change)}
    (h : w'.changes = w.changes ++ entries) :
    w'.authorityChanges = w.authorityChanges ++
      entries.filter fun entry => entry.2.byAuthority := by
  rw [HandlerWorld.authorityChanges, h, filter_append, HandlerWorld.authorityChanges]

variable {call : HandlerCall} {change : Option Change}

theorem recorded_none {x : Surroundings} {found : Option String}
    (h : ∀ ch, change = some ch → ch.byAuthority = false) :
    recordedEvent call x found change = none ∧ recordedAudit call x found change = none := by
  cases change with
  | none => exact ⟨rfl, rfl⟩
  | some ch =>
    have hkind := h ch rfl
    cases ch with
    | granted => cases hkind
    | revoked => cases hkind
    | _ => exact ⟨rfl, rfl⟩

variable {n : AuthorityNotes} {w : HandlerWorld}

/-- **The record of a stretch.** -/
theorem Recorded.advance (h : Recorded w n) (i : Nat) (call : HandlerCall) (x : Surroundings) :
    Recorded (w.advance i call x) (n.advance w i call x) := by
  obtain ⟨hids, hevents, haudits⟩ := h
  have htouches : Touches call.context call.order call.progress x w.desk
      (Commands.advance call.context call.order call.progress x w.desk) := advance_touches
  unfold HandlerWorld.advance AuthorityNotes.advance
  generalize Commands.advance call.context call.order call.progress x w.desk = m at htouches
  cases htouches with
  | nothing hkeeps _ _ =>
    obtain ⟨hauthority, hchange⟩ := hkeeps
    have hnone : (m.change.map fun change =>
        (call.context.commandId, change)).toList.filter
          (fun entry => entry.2.byAuthority) = [] := by
      cases hm : m.change with
      | none => rfl
      | some change => simp [hchange change hm]
    refine ⟨?_, ?_, ?_⟩
    · simp [recorded_none hchange, hauthority, hids]
    · rw [authorityChanges_append rfl, hnone]
      simpa [recorded_none hchange] using hevents
    · rw [authorityChanges_append rfl, hnone]
      simpa [recorded_none hchange] using haudits
  | grants p horder _ _ hrows hchange =>
    have hnamed : grantedRows [(call.context.commandId,
        grantedEvent call.context p x.hex)] = [x.hex] := rfl
    refine ⟨?_, ?_, ?_⟩
    · simp only [hrows, hchange, horder, recordedEvent, grantedRows, map_append, hids,
        filterMap_append]
      exact congrArg _ hnamed.symm
    · rw [authorityChanges_append rfl]
      simp only [hchange, horder, recordedEvent, map_append, hevents]
      rfl
    · rw [authorityChanges_append rfl]
      simp only [hchange, horder, recordedAudit, map_append, haudits]
      rfl
  | revokes p horder hrows hchange =>
    have hsame : ∀ row, (patch (StandingAuthority.active p)
        (fun row => { row with revokedAt := some x.now }) row).id = row.id := by
      intro row
      unfold patch
      split <;> rfl
    refine ⟨?_, ?_, ?_⟩
    · simp only [hrows, hchange, horder, recordedEvent, grantedRows, map_map,
        comp_def, hsame, hids, filterMap_append]
      exact (append_nil _).symm
    · rw [authorityChanges_append rfl]
      simp only [hchange, horder, recordedEvent, map_append, hevents]
      rfl
    · rw [authorityChanges_append rfl]
      simp only [hchange, horder, recordedAudit, map_append, haudits]
      rfl

/-! ## A step -/

variable {i : Nat}

theorem grantsInOrder_advance {x : Surroundings} (hi : w.calls[i]? = some call) :
    grantsInOrder (w, n) (.advance i x) = true ↔
      ∀ p, call.order = .grant p → call.progress.isCalled = true → inserts x w.desk = true →
        grantsAnew w n i call.context.commandId p = true := by
  obtain ⟨context, order, progress, rerun⟩ := call
  simp only [grantsInOrder, hi]
  cases order with
  | grant p => cases progress <;> simp [Progress.isCalled, Classical.or_iff_not_imp_left]
  | _ => simp

variable {s s' : HandlerWorld × AuthorityNotes}

theorem StaysRevoked.of_eq (h : StaysRevoked s)
    (hrows : s'.1.desk.authority.rows = s.1.desk.authority.rows)
    (hchanges : s'.1.changes = s.1.changes) (hclosed : s'.2.closed = s.2.closed)
    (hevents : s'.2.events = s.2.events) (haudits : s'.2.audits = s.2.audits) :
    StaysRevoked s' := by
  obtain ⟨hrevoked, honce, hids, htypes, hkinds⟩ := h
  refine ⟨fun p hp => ?_, fun commandId => ?_, ⟨?_, ?_, ?_⟩⟩
  · rw [findActive_congr hrows]
    exact hrevoked p (hclosed ▸ hp)
  · rw [hchanges]
    exact honce commandId
  · rw [hrows, hevents]
    exact hids
  · rw [hevents, HandlerWorld.authorityChanges, hchanges]
    exact htypes
  · rw [haudits, HandlerWorld.authorityChanges, hchanges]
    exact hkinds

/-- A stretch that leaves the table alone closes a triple of which nothing is open. -/
theorem closedAfter_nothing {m : Moved}
    (hkind : ∀ change, m.change = some change → change.byAuthority = false)
    (hrevoke : ∀ p, call.order = .revoke p → call.progress.succeeds = false →
      m.progress.succeeds = true → hasActive p w.desk = false)
    (hq : (n.closedAfter w i call m q).isSome = true) :
    (n.closed q).isSome = true ∨ hasActive q w.desk = false := by
  cases horder : call.order <;> simp only [AuthorityNotes.closedAfter, horder] at hq
  case grant p =>
    split at hq
    · rename_i hgrants
      have hnone := hkind .granted hgrants.1
      cases hnone
    · exact Or.inl hq
  case revoke p =>
    split at hq
    · rename_i hthrough
      simp only [revokes, Bool.and_eq_true, Bool.not_eq_true'] at hthrough
      by_cases hsame : q = p
      · right
        rw [hsame]
        exact hrevoke p horder hthrough.1.1 hthrough.1.2
      · left
        rwa [update_of_ne hsame] at hq
    · exact Or.inl hq
  all_goals exact Or.inl hq

theorem count_granted_append {changes : List (String × Change)} {id commandId : String} :
    (changes ++ (change.map fun ch => (id, ch)).toList).count (commandId, .granted) =
      changes.count (commandId, .granted) +
        if change = some .granted ∧ id = commandId then 1 else 0 := by
  rw [count_append]
  congr 1
  cases change with
  | none => simp
  | some ch =>
    by_cases hsame : ch = .granted ∧ id = commandId
    · obtain ⟨rfl, rfl⟩ := hsame
      simp
    · have hother : (commandId, Change.granted) ∉ [(id, ch)] := by
        intro hmem
        cases mem_singleton.mp hmem
        exact hsame ⟨rfl, rfl⟩
      rw [if_neg (by simpa using hsame)]
      exact count_eq_zero.mpr hother

/-- **A grant that gets its row in.**  The triple is closed no more, or the row may not be
there. -/
theorem staysRevoked_grants {c : CommandContext} {x : Surroundings} (h : StaysRevoked (w, n))
    (hrows : s'.1.desk.authority.rows = w.desk.authority.rows ++ [grantedRow c p x])
    (hcount : ∀ commandId, s'.1.changes.count (commandId, .granted) =
      w.changes.count (commandId, .granted) + if c.commandId = commandId then 1 else 0)
    (hclosed : s'.2.closed =
      if grantsAnew w n i c.commandId p = true then update n.closed p none else n.closed)
    (hrecorded : Recorded s'.1 s'.2) :
    StaysRevoked s' ↔ grantsAnew w n i c.commandId p = true := by
  constructor
  · intro hafter
    simp only [grantsAnew, Bool.and_eq_true, decide_eq_true_eq]
    refine ⟨fun htwice => ?_, ?_⟩
    · -- the command has granted before: two grants are one too many
      have hone := hafter.once c.commandId
      have hbefore := count_pos_iff.mpr htwice
      rw [hcount, if_pos rfl] at hone
      omega
    · -- the triple would still be closed, and the new row is found
      by_contra hstale
      rw [if_neg (by simp [grantsAnew, hstale])] at hclosed
      refine findActive_grant hrows (hafter.revoked p ?_)
      rw [hclosed]
      cases hp : n.closed p with
      | none => simp [hp] at hstale
      | some before => rfl
  · intro hanew
    rw [if_pos hanew] at hclosed
    simp only [grantsAnew, Bool.and_eq_true, decide_eq_true_eq] at hanew
    refine ⟨fun q hq => ?_, fun commandId => ?_, hrecorded⟩
    · rw [hclosed] at hq
      by_cases hsame : q = p
      · rw [hsame, update_self] at hq
        cases hq
      · rw [update_of_ne hsame] at hq
        exact findActive_grant_of_ne hrows hsame (h.revoked q hq)
    · rw [hcount]
      split
      · rename_i hsame
        rw [← hsame, count_eq_zero.mpr hanew.1]
      · exact h.once commandId

/-- **A stretch.** -/
theorem staysRevoked_advance {x : Surroundings} (h : StaysRevoked (w, n))
    (hi : w.calls[i]? = some call) :
    StaysRevoked (w.advance i call x, n.advance w i call x) ↔
      grantsInOrder (w, n) (.advance i x) = true := by
  rw [grantsInOrder_advance hi]
  have hrecorded := h.recorded.advance i call x
  have htouches : Touches call.context call.order call.progress x w.desk
      (advance call.context call.order call.progress x w.desk) := advance_touches
  have hchanges : (w.advance i call x).changes = w.changes ++
      ((advance call.context call.order call.progress x w.desk).change.map
        fun change => (call.context.commandId, change)).toList := rfl
  have hclosed : (n.advance w i call x).closed = n.closedAfter w i call
      (advance call.context call.order call.progress x w.desk) := rfl
  have hdesk : (w.advance i call x).desk =
      (advance call.context call.order call.progress x w.desk).desk := rfl
  generalize advance call.context call.order call.progress x w.desk = m
    at htouches hchanges hclosed hdesk
  cases htouches with
  | nothing hkeeps hgrant hrevoke =>
    obtain ⟨hauthority, hkind⟩ := hkeeps
    refine iff_of_true ⟨fun p hp => ?_, fun commandId => ?_, hrecorded⟩
      fun p horder hcalled hinserts => ?_
    · have hfound : findActive p (w.advance i call x).desk = findActive p w.desk :=
        findActive_congr (by rw [hdesk, hauthority])
      rw [hfound]
      rw [hclosed] at hp
      exact (closedAfter_nothing hkind hrevoke hp).elim (h.revoked p)
        findActive_eq_none.mpr
    · rw [hchanges]
      have hnone : ¬ (m.change = some .granted ∧ call.context.commandId = commandId) := by
        rintro ⟨hgranted, -⟩
        have hauthority := hkind .granted hgranted
        cases hauthority
      rw [count_granted_append, if_neg hnone]
      exact h.once commandId
    · rw [hgrant p horder hcalled] at hinserts
      cases hinserts
  | grants p horder hcalled hinserts hrows hchange =>
    simp only [AuthorityNotes.closedAfter, horder, hchange, true_and] at hclosed
    have hcount (commandId : String) :
        (w.advance i call x).changes.count (commandId, .granted) =
          w.changes.count (commandId, .granted) +
            if call.context.commandId = commandId then 1 else 0 := by
      rw [hchanges, count_granted_append]
      simp only [hchange, true_and]
    have hgrants : StaysRevoked (w.advance i call x, n.advance w i call x) ↔
        grantsAnew w n i call.context.commandId p = true :=
      staysRevoked_grants h (by rw [hdesk, hrows]) hcount hclosed hrecorded
    rw [hgrants]
    refine ⟨fun hanew q hq _ _ => ?_, fun hall => hall p horder hcalled hinserts⟩
    cases horder.symm.trans hq
    exact hanew
  | revokes p horder hrows hchange =>
    have hrows' := (congrArg (fun d => d.authority.rows) hdesk).trans hrows
    refine iff_of_true ⟨fun q hq => ?_, fun commandId => ?_, hrecorded⟩
      fun q hq => ?_
    · refine findActive_revoke hrows' ?_
      rw [hclosed] at hq
      simp only [AuthorityNotes.closedAfter, horder] at hq
      by_cases hsame : q = p
      · exact Or.inl hsame
      · right
        refine h.revoked q ?_
        split at hq
        · rwa [update_of_ne hsame] at hq
        · exact hq
    · rw [hchanges, count_granted_append, if_neg (by simp [hchange])]
      exact h.once commandId
    · rw [horder] at hq
      cases hq

/-- **The step lemma.** -/
theorem staysRevoked_step {env : HandlerEnv} {op : HandlerOp} (h : StaysRevoked s)
    (hop : byCommands s op = true) :
    StaysRevoked (authorityStep env s op) ↔ grantsInOrder s op = true := by
  obtain ⟨w, n⟩ := s
  cases op with
  | command op => exact iff_of_true (h.of_eq rfl rfl rfl rfl rfl) rfl
  | advance i x =>
    cases hi : w.calls[i]? with
    | none =>
      refine iff_of_true ?_ (by simp [grantsInOrder, hi])
      simpa [authorityStep, watch, handlerStep, noteAuthority, hi] using h
    | some call =>
      simp only [authorityStep, watch, handlerStep, noteAuthority, hi]
      exact staysRevoked_advance h hi
  | crash i =>
    refine iff_of_true ?_ rfl
    simp only [authorityStep, watch, handlerStep, noteAuthority]
    split
    · exact h
    · exact h.of_eq rfl rfl rfl rfl rfl
  | receipt commandId commandType undoPayload =>
    exact iff_of_true (h.of_eq rfl rfl rfl rfl rfl) rfl
  | elsewhere jobs runs authority =>
    exact iff_of_true (h.of_eq (eq_of_beq hop) rfl rfl rfl rfl) rfl

/-! ## Runs -/

theorem staysRevoked_fresh : StaysRevoked authorityFresh := by
  refine ⟨fun p h => ?_, fun _ => Nat.zero_le 1, ⟨rfl, rfl, rfl⟩⟩
  cases h

/-- **Revoked authority stays revoked** in exactly the runs in which every grant that gets
its row in is the first of its command, and approved since the triple was revoked. -/
theorem stays_revoked_iff (env : HandlerEnv) (ops : List HandlerOp)
    (h : Meets (authorityStep env) (fun s op => byCommands s op = true) authorityFresh ops) :
    Along (authorityStep env) StaysRevoked authorityFresh ops ↔
      Meets (authorityStep env) (fun s op => grantsInOrder s op = true) authorityFresh ops :=
  along_iff_meets_of_meets (I := fun _ => True) (fun _ _ _ _ => trivial)
    (fun _ _ _ hop hrevoked => staysRevoked_step hrevoked hop) trivial staysRevoked_fresh h

/-- An authority command on a job's deletions is submitted. -/
def authoritySubmitted (commandId commandType : String) : HandlerOp :=
  submitted commandId commandType ("\x7b\"scope_kind\":\"job\",\"scope_id\":\"job-1\"," ++
    "\"command_type\":\"scheduling.delete_job\"\x7d") "owner" none

/-- The gate parks the command in dispatch `i`, its item is approved, and pass `j` of the
sweep resumes it. -/
def resumedAt (commandId item : String) (i j : Nat) : List HandlerOp :=
  [.command (.claimInline "owner" ("cmd-" ++ commandId) "inline" 900 0), .command (.read i),
    .command (.execute i), .command (.park i 0 false fun n => item ++ n.repr),
    .command (answer (item ++ "1") "approved" (item ++ "'")),
    .command (.sweepList "owner" ("cmd-" ++ commandId)), .command (.sweepRead j),
    .command (.sweepResume j [] 1 0)]

def tickedAt (commandId : String) (i : Nat) : List HandlerOp :=
  [.command (.fetch "owner" ("cmd-" ++ commandId)), .command (.claim i "tick" 900 2),
    .command (.execute i)]

/-- A grant commits and its process goes down; a revocation closes its row. -/
def grantedAndRevoked : List HandlerOp :=
  [authoritySubmitted "g" AUTHORITY_GRANT] ++ resumedAt "g" "a" 0 0 ++ tickedAt "g" 1 ++
    [.advance 0 (smooth "r1"), authoritySubmitted "v" AUTHORITY_REVOKE] ++
    resumedAt "v" "b" 2 1 ++ tickedAt "v" 3 ++
    [.advance 1 (smooth "s1"), .advance 1 (smooth "s2")]

/-- Another grant is approved and executed after the revocation. -/
def grantedAnew : List HandlerOp :=
  grantedAndRevoked ++ [authoritySubmitted "h" AUTHORITY_GRANT] ++ resumedAt "h" "c" 4 2 ++
    tickedAt "h" 5 ++ [.advance 2 (smooth "r2")]

def deletions : AuthorityScopePayload := ⟨.job, "job-1", "scheduling.delete_job"⟩

/-- The triple is granted, revoked and granted anew. -/
theorem stays_revoked_grantedAnew :
    Along (authorityStep deskEnv) StaysRevoked authorityFresh grantedAnew ∧
      (run (authorityStep deskEnv) authorityFresh grantedAnew).1.changes =
        [("g", .granted), ("v", .revoked), ("h", .granted)] ∧
      (run (authorityStep deskEnv) authorityFresh grantedAnew).1.desk.authority.rows.map
        (fun row => (row.id, row.revokedAt)) =
          [("r1", some "2026-01-01T08:00:00"), ("r2", none)] := by
  rw [stays_revoked_iff deskEnv grantedAnew (by decide +kernel)]
  decide +kernel

/-- The lease of the grant expires after the revocation, and a tick runs it again. -/
def regranted : List HandlerOp :=
  grantedAndRevoked ++ reclaimed "g" 4 ++ [.advance 2 (smooth "r2")]

/-- A grant is approved, the triple is revoked, and only then does the grant execute. -/
def grantedLate : List HandlerOp :=
  [authoritySubmitted "g" AUTHORITY_GRANT] ++ resumedAt "g" "a" 0 0 ++
    [authoritySubmitted "v" AUTHORITY_REVOKE] ++ resumedAt "v" "b" 1 1 ++ tickedAt "v" 2 ++
    [.advance 0 (smooth "s1")] ++ tickedAt "g" 3 ++ [.advance 1 (smooth "r1")]

/-- The re-run gives the authority back, and so does the grant that comes late. -/
theorem regranted_by_rerun :
    (Meets (authorityStep deskEnv) (fun s op => byCommands s op = true) authorityFresh
        regranted ∧
      ¬ Along (authorityStep deskEnv) StaysRevoked authorityFresh regranted ∧
      (run (authorityStep deskEnv) authorityFresh regranted).1.changes =
        [("g", .granted), ("v", .revoked), ("g", .granted)] ∧
      (findActive deletions (run (authorityStep deskEnv) authorityFresh regranted).1.desk).map
          StandingAuthority.id = some "r2") ∧
    Meets (authorityStep deskEnv) (fun s op => byCommands s op = true) authorityFresh
        grantedLate ∧
      ¬ Along (authorityStep deskEnv) StaysRevoked authorityFresh grantedLate ∧
      (findActive deletions (run (authorityStep deskEnv) authorityFresh grantedLate).1.desk).map
          StandingAuthority.id = some "r1" := by
  have hrerun : ((run (authorityStep deskEnv) authorityFresh regranted).2.closed
        deletions).isSome = true ∧
      (run (authorityStep deskEnv) authorityFresh regranted).1.changes =
        [("g", .granted), ("v", .revoked), ("g", .granted)] ∧
      (findActive deletions (run (authorityStep deskEnv) authorityFresh regranted).1.desk).map
          StandingAuthority.id = some "r2" := by
    decide +kernel
  have hlate : ((run (authorityStep deskEnv) authorityFresh grantedLate).2.closed
        deletions).isSome = true ∧
      (findActive deletions (run (authorityStep deskEnv) authorityFresh grantedLate).1.desk).map
          StandingAuthority.id = some "r1" := by
    decide +kernel
  obtain ⟨hclosed, hchanges, hfound⟩ := hrerun
  obtain ⟨hclosed', hfound'⟩ := hlate
  refine ⟨⟨by decide +kernel, fun h => ?_, hchanges, hfound⟩, by decide +kernel,
    fun h => ?_, hfound'⟩
  · rw [h.last.revoked deletions hclosed] at hfound
    cases hfound
  · rw [h.last.revoked deletions hclosed'] at hfound'
    cases hfound'

end StackOwl.Commands
