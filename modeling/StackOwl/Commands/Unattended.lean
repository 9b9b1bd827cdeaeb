import StackOwl.Commands.StandingAuthority

/-!
# Unattended commands

`submit_command` up to its row: it looks a standing authority up, and what it has found
goes with the row.  A later dispatch asks the row, not the table.  Between the look-up, the
creation of the row and each of its dispatches stand the steps of the command machinery,
the stretches of the authority handlers and the seed-time grants, in any order.

## Main results

* `granted_of_starts` — an irreversible command that starts unattended carries the id of a
  grant.
* `kept_of_step` — a row of `standing_authority` stays as it is, or is closed by a
  revocation of its triple.
* `started_under_authority` — over a run, an unattended irreversible command starts under
  the grant its submission found active, which is active still unless it was revoked since.
* `started_after_revocation` — a run in which it was.
-/

namespace StackOwl.Commands

open Lib List Option Bool
open Durable (DurableTask Stamp)

/-! ## Submissions -/

/-- A call of `submit_command` that has looked its authority up. -/
structure Submission where
  owner : String
  commandId : String
  commandType : String
  payload : String
  requesterKind : String
  /-- `authority_scope`. -/
  authorityScope : Option (ScopeKind × String)
  /-- What `find_active` has answered. -/
  grant : Option StandingAuthority
  /-- The number of revocations until then. -/
  mark : Nat

def Submission.scope (s : Submission) : Option AuthorityScopePayload :=
  s.authorityScope.map fun scope => ⟨scope.1, scope.2, s.commandType⟩

def Submission.authorityGrantId (s : Submission) : Option String :=
  s.grant.map StandingAuthority.id

/-- The look-up: only for a run that nobody attends. -/
def resolveAuthority (requesterKind commandType : String)
    (authorityScope : Option (ScopeKind × String)) (d : Desk) : Option StandingAuthority :=
  match authorityScope with
  | none => none
  | some (scopeKind, scopeId) =>
    if requesterKind = "autonomous" then findActive ⟨scopeKind, scopeId, commandType⟩ d
    else none

structure UnattendedWorld where
  handlers : HandlerWorld
  submissions : List Submission := []
  /-- The triples of which a revocation has closed rows, in order. -/
  revocations : List AuthorityScopePayload := []

inductive UnattendedOp where
  /-- `submit_command` looks its authority up, -/
  | resolve (owner commandId commandType payload requesterKind : String)
      (authorityScope : Option (ScopeKind × String))
  /-- and creates its row. -/
  | create (i : Nat) (now : Stamp)
  /-- A step of the machinery, of a handler, or of the rest of the program. -/
  | handlers (op : HandlerOp)

/-- Nobody else submits commands, and beside the two handlers only seed-time grants write
authority rows. -/
def ordinary (w : HandlerWorld) : HandlerOp → Bool
  | .command (.submit ..) => false
  | .elsewhere _ _ authority => w.desk.authority.rows.all fun row => row ∈ authority.rows
  | _ => true

def closings (w : HandlerWorld) : HandlerOp → List AuthorityScopePayload
  | .advance i x =>
    match w.calls[i]? with
    | none => []
    | some call =>
      match call.order with
      | .revoke p =>
        if (advance call.context call.order call.progress x w.desk).change =
            some .revoked then [p]
        else []
      | _ => []
  | _ => []

variable (env : HandlerEnv)

def unattendedStep (w : UnattendedWorld) : UnattendedOp →
    UnattendedWorld
  | .resolve owner commandId commandType payload requesterKind authorityScope =>
    { w with
      submissions := w.submissions ++
        [{ owner := owner, commandId := commandId, commandType := commandType,
           payload := payload, requesterKind := requesterKind,
           authorityScope := authorityScope
           grant := resolveAuthority requesterKind commandType authorityScope
             w.handlers.desk
           mark := w.revocations.length }] }
  | .create i now =>
    match w.submissions[i]? with
    | none => w
    | some s =>
      { w with
        handlers := handlerStep env w.handlers
          (.command (.submit s.owner s.commandId s.commandType s.payload
            s.requesterKind s.authorityGrantId now)) }
  | .handlers op =>
    if ordinary w.handlers op then
      { w with
        handlers := handlerStep env w.handlers op
        revocations := w.revocations ++ closings w.handlers op }
    else w

def UnattendedWorld.fresh : UnattendedWorld where
  handlers := .fresh

/-! ## Starts -/

/-- A command of which nobody has approved the run, that nobody attends, and that cannot be
undone. -/
def unattended (registry : CommandRegistry) (task : DurableTask) : Bool :=
  task.kind == .command && task.gateVerdict != some APPROVED &&
    RequesterKind.ofText (textOr "owner" task.context.requesterKind) == .autonomous &&
    (registry.spec (task.commandType.getD "")).any fun spec =>
      spec.severity != .consequential && !spec.reversible

/-- The row of such a command whose handler the step calls. -/
def startsUnattended (w : UnattendedWorld) :
    UnattendedOp → Option DurableTask
  | .handlers (.command (.execute i)) =>
    match w.handlers.command.dispatches[i]? with
    | some (.claimed task) =>
      match executeCommandTask env.toEnv.commands task with
      | .starts _ => if unattended env.toEnv.commands task then some task else none
      | _ => none
    | _ => none
  | _ => none

/-- The job of the command that starts holds an authority for it now. -/
def startsAuthorized (w : UnattendedWorld) (op : UnattendedOp) : Bool :=
  (startsUnattended env w op).all fun task =>
    w.submissions.any fun s =>
      "cmd-" ++ s.commandId == task.taskId &&
        s.scope.any fun p => hasActive p w.handlers.desk

/-- The grant under which a command runs: its submission found it active, the row carries
its id, and it is as it was unless the triple was revoked since. -/
structure RunsUnder (w : UnattendedWorld) (task : DurableTask) (s : Submission)
    (p : AuthorityScopePayload) (grant : StandingAuthority) : Prop where
  submitted : s ∈ w.submissions
  ofTask : task.taskId = "cmd-" ++ s.commandId
  ofType : task.commandType = some s.commandType
  scope : s.scope = some p
  found : s.grant = some grant
  active : StandingAuthority.active p grant = true
  carried : task.context.authorityGrantId = some grant.id
  standing : grant ∈ w.handlers.desk.authority.rows ∨ p ∈ w.revocations.drop s.mark

variable {task : DurableTask}

/-- **What the gate goes by.**  An irreversible command that starts unattended carries the
id of a grant. -/
theorem granted_of_starts {registry : CommandRegistry} {context : CommandContext}
    (h : executeCommandTask registry task = .starts context)
    (hunattended : unattended registry task = true) :
    granted task.context.authorityGrantId = true := by
  simp only [unattended, and_eq_true, bne_iff_ne, ne_eq] at hunattended
  obtain ⟨⟨⟨-, hverdict⟩, -⟩, hspec⟩ := hunattended
  obtain ⟨spec, hspec, hsevere⟩ := (any_eq_true _ _).mp hspec
  simp only [and_eq_true, bne_iff_ne, ne_eq, not_eq_true'] at hsevere
  rcases outcome_of_starts h with hungated | happroved
  · rw [gated, hspec] at hungated
    have hgate : (gate spec task).outcome = .runAtOnce := by simpa using hungated
    rw [gate, ActionPolicy.decide, if_neg hsevere.1, if_pos hsevere.2] at hgate
    split at hgate
    · rename_i hgranted
      exact hgranted.2
    · cases hgate
  · exact absurd happroved hverdict

/-! ## The authority rows -/

variable {op : HandlerOp} {row : StandingAuthority}

/-- **What becomes of an authority row.**  It stays as it is, or a revocation of its triple
closes it. -/
theorem kept_of_step {w : HandlerWorld} (hop : ordinary w op = true)
    (hrow : row ∈ w.desk.authority.rows) :
    row ∈ (handlerStep env w op).desk.authority.rows ∨
      ∃ p ∈ closings w op, StandingAuthority.active p row = true := by
  cases op with
  | command op => exact .inl hrow
  | crash i =>
    left
    simp only [handlerStep]
    split
    · exact hrow
    · exact hrow
  | receipt commandId commandType undoPayload => exact .inl hrow
  | elsewhere jobs runs authority =>
    exact .inl (of_decide_eq_true (all_eq_true.mp hop row hrow))
  | advance i x =>
    cases hi : w.calls[i]? with
    | none =>
      left
      simpa only [handlerStep, hi] using hrow
    | some call =>
      simp only [handlerStep, closings, hi, HandlerWorld.advance]
      have htouches : Touches call.context call.order call.progress x w.desk
          (advance call.context call.order call.progress x w.desk) := advance_touches
      generalize advance call.context call.order call.progress x w.desk = m at htouches
      cases htouches with
      | nothing hkeeps _ _ =>
        left
        rw [hkeeps.1]
        exact hrow
      | grants p _ _ _ hrows _ =>
        left
        rw [hrows]
        exact mem_append_left _ hrow
      | revokes p horder hrows hchange =>
        by_cases hactive : StandingAuthority.active p row = true
        · right
          simp only [horder, hchange]
          exact ⟨p, mem_singleton.mpr rfl, hactive⟩
        · left
          rw [hrows]
          refine mem_map.mpr ⟨row, hrow, ?_⟩
          rw [patch, if_neg hactive]

theorem scope_of_active {p q : AuthorityScopePayload} (hp : StandingAuthority.active p row = true)
    (hq : StandingAuthority.active q row = true) : p = q := by
  simp only [StandingAuthority.active, and_eq_true, beq_iff_eq] at hp hq
  obtain ⟨⟨⟨-, hid⟩, htype⟩, -⟩ := hp
  obtain ⟨⟨⟨-, hid'⟩, htype'⟩, -⟩ := hq
  obtain ⟨_ | _, id, type⟩ := p
  obtain ⟨_ | _, id', type'⟩ := q
  dsimp only at hid htype hid' htype'
  rw [← hid, ← htype, hid', htype']

/-- What a submission has found was active for its triple, and is there still unless it was
revoked since. -/
structure Found (w : UnattendedWorld) (s : Submission) : Prop where
  mark : s.mark ≤ w.revocations.length
  grant : ∀ grant, s.grant = some grant → ∃ p, s.scope = some p ∧
    StandingAuthority.active p grant = true ∧
      (grant ∈ w.handlers.desk.authority.rows ∨ p ∈ w.revocations.drop s.mark)

variable {w : UnattendedWorld} {s : Submission}

theorem found_resolve (hmark : s.mark = w.revocations.length)
    (hgrant : s.grant = resolveAuthority s.requesterKind s.commandType s.authorityScope
      w.handlers.desk)
    : Found w s := by
  refine ⟨hmark.le, fun grant hfound => ?_⟩
  rw [hgrant] at hfound
  cases hscope : s.authorityScope with
  | none =>
    rw [hscope] at hfound
    cases hfound
  | some scope =>
    simp only [hscope, resolveAuthority] at hfound
    split at hfound
    · have hmem := argmax_mem hfound
      obtain ⟨hrow, hactive⟩ := mem_filter.mp hmem
      exact ⟨⟨scope.1, scope.2, s.commandType⟩, by rw [Submission.scope, hscope]; rfl,
        hactive, .inl hrow⟩
    · cases hfound

variable {env}

theorem Found.step (h : Found w s) (hop : ordinary w.handlers op = true) :
    Found { w with
      handlers := handlerStep env w.handlers op
      revocations := w.revocations ++ closings w.handlers op } s := by
  refine ⟨h.mark.trans (length_append ▸ Nat.le_add_right _ _), fun grant hgrant => ?_⟩
  obtain ⟨p, hscope, hactive, hstanding⟩ := h.grant grant hgrant
  refine ⟨p, hscope, hactive, ?_⟩
  dsimp only
  rw [drop_append_of_le_length h.mark]
  rcases hstanding with hrow | hrevoked
  · rcases kept_of_step env hop hrow with hkept | ⟨q, hq, hclosed⟩
    · exact .inl hkept
    · rw [scope_of_active hactive hclosed]
      exact .inr (mem_append_right _ hq)
  · exact .inr (mem_append_left _ hrevoked)

/-! ## The command rows -/

/-- The command rows of `db'` were in `db`, with the columns they were born with. -/
def KeepsCommand (db db' : Durable.Db) : Prop :=
  ∀ o i r', db'.find o i = some r' → r'.kind = .command →
    ∃ r, db.find o i = some r ∧ SameCommand r r'

theorem KeepsCommand.refl (db : Durable.Db) : KeepsCommand db db :=
  fun _ _ r' hr' _ => ⟨r', hr', SameCommand.refl r'⟩

variable {db : Durable.Db}

theorem keepsCommand_step {op : Durable.Op} (hfree : commandFree op = true) :
    KeepsCommand db (Durable.step db op) :=
  fun _ _ _ hr' hkind => find_commandFree hfree SameCommand.refl
    (fun _ r hop => sameCommand_set hop r) hr' hkind

variable {now : Stamp} {db' : Durable.Db}

theorem keepsCommand_claim {owner taskId worker : String} {leaseSeconds : Int} {won : Bool}
    (h : Durable.claim owner taskId worker leaseSeconds now db = .ok (db', won)) :
    KeepsCommand db db' :=
  fun o i r' hr' hkind =>
    let ⟨r, hr, hsame⟩ := keepsGate_claim h o i r' hr' hkind
    ⟨r, hr, hsame.toSameCommand⟩

theorem keepsCommand_park {env : Env} {w w' : CommandWorld} {outcome : ActionPolicyOutcome}
    {payloadSummary : String} {writesPaused : Bool} {ids : Nat → String}
    (h : parkTransaction env task outcome payloadSummary now writesPaused ids w = some w') :
    KeepsCommand w.tasks w'.tasks ∧ w'.dispatches = w.dispatches := by
  simp only [parkTransaction, bind_eq_bind] at h
  split at h
  · cases h
  rename_i tasks htasks
  obtain ⟨⟨eventId, s₁⟩, -, h⟩ := bind_eq_some_iff.mp h
  obtain ⟨⟨bound, s₂⟩, -, h⟩ := bind_eq_some_iff.mp h
  cases h
  have hstep : Durable.step w.tasks (.parkForDecision task.ownerId task.taskId
      (task.commandType.getD "") (textOr "owner" task.context.requesterKind) outcome.value
      payloadSummary now) = tasks := Durable.step_of_ok htasks
  refine ⟨?_, rfl⟩
  rw [← hstep]
  exact keepsCommand_step rfl

def Dispatch.holds : Dispatch → Option DurableTask
  | .fetched task | .claimed task | .parking task _ _ => some task
  | .won _ _ | .done => none

/-- What a step of the machinery does to the rows and to what the dispatches hold: a
command row was there before, and what is held was held before, or was read. -/
structure Holds (w w' : CommandWorld) : Prop where
  rows : KeepsCommand w.tasks w'.tasks
  held : ∀ d' ∈ w'.dispatches, ∀ task, d'.holds = some task →
    (∃ d ∈ w.dispatches, d.holds = some task) ∨
      ∃ o i r, w.tasks.find o i = some r ∧ task = Durable.rowToTask r

theorem Holds.of_eq {w w' : CommandWorld} (hrows : KeepsCommand w.tasks w'.tasks)
    (hdispatches : w'.dispatches = w.dispatches) : Holds w w' :=
  ⟨hrows, fun d' hd' _ hholds => .inl ⟨d', hdispatches ▸ hd', hholds⟩⟩

theorem Holds.untouched {w w' : CommandWorld} (hrows : w'.tasks = w.tasks)
    (hdispatches : w'.dispatches = w.dispatches) : Holds w w' :=
  .of_eq (hrows ▸ KeepsCommand.refl _) hdispatches

variable {d : Dispatch} {i : Nat}

theorem Holds.set {w w' : CommandWorld} (hrows : KeepsCommand w.tasks w'.tasks)
    (hdispatches : w'.dispatches = w.dispatches.set i d)
    (hd : ∀ task, d.holds = some task → (∃ d ∈ w.dispatches, d.holds = some task) ∨
      ∃ o i r, w.tasks.find o i = some r ∧ task = Durable.rowToTask r) : Holds w w' := by
  refine ⟨hrows, fun d' hd' task hholds => ?_⟩
  rw [hdispatches] at hd'
  rcases mem_or_eq_of_mem_set hd' with hold | rfl
  · exact .inl ⟨d', hold, hholds⟩
  · exact hd task hholds

theorem Holds.append {w w' : CommandWorld} (hrows : KeepsCommand w.tasks w'.tasks)
    (hdispatches : w'.dispatches = w.dispatches ++ [d])
    (hd : ∀ task, d.holds = some task →
      ∃ o i r, w.tasks.find o i = some r ∧ task = Durable.rowToTask r) : Holds w w' := by
  refine ⟨hrows, fun d' hd' task hholds => ?_⟩
  rw [hdispatches] at hd'
  rcases mem_snoc.mp hd' with hold | rfl
  · exact .inl ⟨d', hold, hholds⟩
  · exact .inr (hd task hholds)

theorem holds_dispatch {env : Env} {w : CommandWorld} {op : CommandOp}
    (hi : w.dispatches[i]? = some d) :
    Holds w (dispatchStep env w i d op) := by
  have hmem := mem_of_getElem? hi
  unfold dispatchStep
  split
  · split
    · exact .set (KeepsCommand.refl _) rfl fun _ h => nomatch h
    · rename_i tasks won hclaim
      refine .set (keepsCommand_claim hclaim) rfl fun other hother => .inl ⟨_, hmem, ?_⟩
      cases won with
      | true => exact hother
      | false => cases hother
  · split
    · exact .set (KeepsCommand.refl _) rfl fun _ h => nomatch h
    · rename_i task hget
      refine .set (KeepsCommand.refl _) rfl fun other hother => .inr ?_
      obtain ⟨r, hr, htask⟩ := Durable.get_ok hget
      cases hother
      exact ⟨_, _, r, hr, htask⟩
  · split
    · exact .set (KeepsCommand.refl _) rfl fun other hother => .inl ⟨_, hmem, hother⟩
    · exact .set (KeepsCommand.refl _) rfl fun _ h => nomatch h
  · split
    · exact .set (KeepsCommand.refl _) rfl fun _ h => nomatch h
    · rename_i w' hpark
      obtain ⟨hrows, hdispatches⟩ := keepsCommand_park hpark
      exact .set hrows (congrArg (fun ds => ds.set i .done) hdispatches) fun _ h => nomatch h
  · exact .untouched rfl rfl

theorem holds_sweep {w : CommandWorld} {op : CommandOp} {p : Sweep} :
    Holds w (sweepStep w i p op) := by
  unfold sweepStep
  split
  · split
    · exact .untouched rfl rfl
    · exact .untouched rfl rfl
  · split
    · exact .untouched rfl rfl
    · rename_i tasks hresume
      refine .of_eq ?_ rfl
      rcases Durable.resumeCommandAfterAnswer_step hresume with hstep | ⟨row, call, -, hstep⟩
      · rw [hstep]
        exact keepsCommand_step rfl
      · rw [hstep]
        exact keepsCommand_step rfl
  · exact .untouched rfl rfl

theorem holds_addressed (env : Env) (w : CommandWorld) (op : CommandOp) (i : Nat) :
    Holds w (match w.dispatches[i]? with
      | none => w
      | some d => dispatchStep env w i d op) ∧
    Holds w (match w.sweeps[i]? with
      | none => w
      | some p => sweepStep w i p op) := by
  constructor
  · split
    · exact .untouched rfl rfl
    · rename_i d hd
      exact holds_dispatch hd
  · split
    · exact .untouched rfl rfl
    · exact holds_sweep

/-- **A step of the machinery that submits nothing.** -/
theorem holds_step {env : Env} {hw : HandlerWorld} {w : CommandWorld} {op : CommandOp}
    (hop : ordinary hw (.command op) = true) : Holds w (commandStep env w op) := by
  cases op <;> simp only [commandStep]
  case submit owner commandId commandType payload requesterKind authorityGrantId now => cases hop
  case fetch owner taskId =>
    split
    · exact .untouched rfl rfl
    · rename_i r hr
      split
      · refine .append (KeepsCommand.refl _) rfl fun task htask => ?_
        cases htask
        exact ⟨owner, taskId, r, hr, rfl⟩
      · exact .untouched rfl rfl
  case claimInline owner taskId worker leaseSeconds now =>
    split
    · exact .untouched rfl rfl
    · rename_i tasks won hclaim
      cases won with
      | true => exact .append (keepsCommand_claim hclaim) rfl fun _ h => by cases h
      | false => exact .of_eq (keepsCommand_claim hclaim) rfl
  case store op =>
    split
    · rename_i hother
      exact .of_eq (keepsCommand_step (commandFree_of_otherWrite hother)) rfl
    · exact .untouched rfl rfl
  case journal t =>
    split
    · exact .untouched rfl rfl
    · exact .untouched rfl rfl
  case sweepList owner taskId =>
    split
    · exact .untouched rfl rfl
    split
    · exact .untouched rfl rfl
    · exact .untouched rfl rfl
  case claim | read | execute | park => exact (holds_addressed env w _ _).1
  case sweepRead | sweepResume => exact (holds_addressed env w _ _).2

/-! ## The run -/

/-- A command row was submitted, and carries what its submission has found. -/
def Backed (submissions : List Submission) (task : DurableTask) : Prop :=
  task.kind = .command → ∃ s ∈ submissions, task.taskId = "cmd-" ++ s.commandId ∧
    task.commandType = some s.commandType ∧
    task.context.authorityGrantId = s.authorityGrantId

/-- The submissions and the rows they are behind. -/
structure Resolved (w : UnattendedWorld) : Prop where
  found : ∀ s ∈ w.submissions, Found w s
  rows : ∀ o i r, w.handlers.command.tasks.find o i = some r →
    Backed w.submissions (Durable.rowToTask r)
  held : ∀ d ∈ w.handlers.command.dispatches, ∀ task, d.holds = some task →
    Backed w.submissions task

theorem resolved_fresh : Resolved .fresh where
  found := fun _ h => absurd h not_mem_nil
  rows := fun _ _ _ h => nomatch h
  held := fun _ h => absurd h not_mem_nil

variable {submissions : List Submission}

theorem Backed.of_sameCommand {o i : String} {r r' : Durable.Row}
    (h : Backed submissions (Durable.rowToTask r)) (hr : db.find o i = some r)
    (hr' : db'.find o i = some r') (hsame : SameCommand r r') :
    Backed submissions (Durable.rowToTask r') := by
  intro hkind
  obtain ⟨s, hs, htask, htype, hgrant⟩ := h (hsame.kind.symm.trans hkind)
  have hid : r'.taskId = r.taskId :=
    (Durable.key_of_find hr').2.trans (Durable.key_of_find hr).2.symm
  exact ⟨s, hs, hid.trans htask, hsame.commandType.trans htype,
    (congrArg Durable.TaskContext.authorityGrantId hsame.context).trans hgrant⟩

theorem Backed.mono {submissions' : List Submission} (h : Backed submissions task)
    (hsub : ∀ s ∈ submissions, s ∈ submissions') :
    Backed submissions' task :=
  fun hkind => let ⟨s, hs, hrest⟩ := h hkind; ⟨s, hsub s hs, hrest⟩

theorem Resolved.holds (h : Resolved w) {handlers : HandlerWorld}
    {revocations : List AuthorityScopePayload}
    (hholds : Holds w.handlers.command handlers.command)
    (hfound : ∀ s ∈ w.submissions,
      Found { w with handlers := handlers, revocations := revocations } s) :
    Resolved { w with handlers := handlers, revocations := revocations } := by
  refine ⟨hfound, fun o i r' hr' hkind => ?_, fun d' hd' task hd => ?_⟩
  · obtain ⟨r, hr, hsame⟩ := hholds.rows o i r' hr' hkind
    exact (h.rows o i r hr).of_sameCommand hr hr' hsame hkind
  · rcases hholds.held d' hd' task hd with ⟨d, hmem, hbefore⟩ | ⟨o, i, r, hr, rfl⟩
    · exact h.held d hmem task hbefore
    · exact h.rows o i r hr

theorem holds_handlers {w : HandlerWorld} (hop : ordinary w op = true) :
    Holds w.command (handlerStep env w op).command := by
  cases op with
  | command op => exact holds_step hop
  | advance i x =>
    simp only [handlerStep]
    split
    · exact .untouched rfl rfl
    · exact .untouched rfl rfl
  | crash i =>
    simp only [handlerStep]
    split
    · exact .untouched rfl rfl
    · exact .untouched rfl rfl
  | receipt commandId commandType undoPayload => exact .untouched rfl rfl
  | elsewhere jobs runs authority => exact .untouched rfl rfl

/-- **The step lemma.** -/
theorem resolved_step (op : UnattendedOp) (h : Resolved w) :
    Resolved (unattendedStep env w op) := by
  cases op with
  | resolve owner commandId commandType payload requesterKind authorityScope =>
    have hsub : ∀ s ∈ w.submissions, s ∈ (unattendedStep env w (.resolve owner commandId
        commandType payload requesterKind authorityScope)).submissions :=
      fun s hs => mem_append_left _ hs
    refine ⟨fun s hs => ?_, fun o i r hr => (h.rows o i r hr).mono hsub,
      fun d hd task hholds => (h.held d hd task hholds).mono hsub⟩
    rcases mem_snoc.mp hs with hold | rfl
    · obtain ⟨hmark, hgrant⟩ := h.found s hold
      exact ⟨hmark, hgrant⟩
    · exact found_resolve rfl rfl
  | create i now =>
    simp only [unattendedStep]
    split
    · exact h
    · rename_i s hs
      refine ⟨fun s' hs' => ?_, fun o j r hr => ?_, h.held⟩
      · obtain ⟨hmark, hgrant⟩ := h.found s' hs'
        exact ⟨hmark, hgrant⟩
      · rcases find_create hr with hold | ⟨-, rfl⟩
        · exact h.rows o j r hold
        · exact fun _ => ⟨s, mem_of_getElem? hs, rfl, rfl, rfl⟩
  | handlers op =>
    simp only [unattendedStep]
    split
    · rename_i hop
      exact h.holds (holds_handlers hop) fun s hs => (h.found s hs).step hop
    · exact h

theorem runsUnder_of_resolved {op : UnattendedOp} (h : Resolved w)
    (hstarts : startsUnattended env w op = some task) :
    ∃ s p grant, RunsUnder w task s p grant := by
  unfold startsUnattended at hstarts
  split at hstarts
  · split at hstarts
    · rename_i i claimed hclaimed
      split at hstarts
      · rename_i context hcontext
        split at hstarts
        · rename_i hunattended
          cases hstarts
          have hgranted := granted_of_starts hcontext hunattended
          have hkind : task.kind = .command := by
            simp only [unattended, and_eq_true] at hunattended
            exact eq_of_beq hunattended.1.1.1
          obtain ⟨s, hs, htask, htype, hcarried⟩ :=
            h.held _ (mem_of_getElem? hclaimed) task rfl hkind
          cases hgrant : s.grant with
          | none =>
            rw [hcarried, Submission.authorityGrantId, hgrant] at hgranted
            cases hgranted
          | some grant =>
            obtain ⟨p, hscope, hactive, hstanding⟩ := (h.found s hs).grant grant hgrant
            refine ⟨s, p, grant, hs, htask, htype, hscope, hgrant, hactive, ?_, hstanding⟩
            rw [hcarried, Submission.authorityGrantId, hgrant]
            rfl
        · cases hstarts
      · cases hstarts
    · cases hstarts
  · cases hstarts

/-- **An unattended irreversible command starts under the grant its submission found.**
Over every run: when the handler of such a command is called and nobody has approved it,
its row carries the id of a grant of the job and the command type that was active when
`submit_command` looked it up, and that is active still unless a revocation of the two has
closed it since. -/
theorem started_under_authority (env : HandlerEnv) (ops : List UnattendedOp) :
    Meets (unattendedStep env)
      (fun w op => ∀ task, startsUnattended env w op = some task →
        ∃ s p grant, RunsUnder w task s p grant) .fresh ops :=
  meets_of_inv (fun _ op h => resolved_step op h)
    (fun _ _ h _ hstarts => runsUnder_of_resolved h hstarts) resolved_fresh ops

/-! ## A run -/

def DELIVER_DIGEST : String := "notifications.deliver_digest"

/-- `DeliverDigestPayload`. -/
def readDigest (text : String) : Option Payload :=
  match loads text with
  | some (.obj [("job_id", .str jobId), ("channel", .str channel), ("message", .str message)]) =>
    if jobId = "" ∨ channel = "" ∨ message = "" then none
    else
      some
        { modelDumpJson := dumpFields
            [("job_id", jobId), ("channel", channel), ("message", message)]
          dumps := undoText
            [("job_id", .str jobId), ("channel", .str channel), ("message", .str message)] }
  | _ => none

/-- A desk that delivers digests, which cannot be undone. -/
def digestEnv : HandlerEnv where
  models := deskEnv.models
  others :=
    { spec := fun commandType =>
        if commandType = DELIVER_DIGEST then
          some { payloadModel := readDigest, severity := .write, reversible := false }
        else none
      hasHandler := fun commandType => commandType = DELIVER_DIGEST }
  journal := deskEnv.journal
  pendingApproval := deskEnv.pendingApproval

/-- The seed-time grant of a digest job. -/
def digestGranted : HandlerOp :=
  .elsewhere ⟨[], noJobs_unique⟩ []
    ⟨[{ id := "a", scopeKind := .job, scopeId := "digest-1", commandType := DELIVER_DIGEST,
        grantedBy := "owner", provenance := "seeded", grantedAt := "2026-01-01T07:00:00" }],
      by simp [StandingAuthority.primaryKey]⟩

/-- A digest is submitted and claimed inline, and its process goes down. -/
def digestClaimed : List UnattendedOp :=
  [.handlers digestGranted,
    .resolve "owner" "d" DELIVER_DIGEST
      "\x7b\"job_id\":\"digest-1\",\"channel\":\"cli\",\"message\":\"hi\"\x7d" "autonomous"
      (some (.job, "digest-1")),
    .create 0 0, .handlers (.command (.claimInline "owner" "cmd-d" "inline" 900 0))]

/-- The owner revokes the job's authority. -/
def digestRevoked : List UnattendedOp :=
  [.resolve "owner" "v" AUTHORITY_REVOKE
      ("\x7b\"scope_kind\":\"job\",\"scope_id\":\"digest-1\"," ++
        "\"command_type\":\"notifications.deliver_digest\"\x7d") "owner" none,
    .create 1 0] ++
    (resumedAt "v" "b" 1 0 ++ tickedAt "v" 2 ++
      [HandlerOp.advance 0 (smooth "s1"), .advance 0 (smooth "s2")]).map .handlers

/-- The lease expires, and a tick has the row. -/
def digestReclaimed : List UnattendedOp :=
  digestClaimed ++ digestRevoked ++ (reclaimed "d" 3).dropLast.map .handlers

/-- The digest goes out after its authority was revoked. -/
theorem started_after_revocation :
    ¬ Meets (unattendedStep digestEnv) (fun w op => startsAuthorized digestEnv w op = true)
        .fresh (digestReclaimed ++ [.handlers (.command (.execute 3))]) ∧
      (startsUnattended digestEnv (run (unattendedStep digestEnv) .fresh digestReclaimed)
        (.handlers (.command (.execute 3)))).map DurableTask.taskId = some "cmd-d" ∧
      findActive ⟨.job, "digest-1", DELIVER_DIGEST⟩
        (run (unattendedStep digestEnv) .fresh digestReclaimed).handlers.desk = none := by
  rw [meets_append]
  decide +kernel

end StackOwl.Commands
