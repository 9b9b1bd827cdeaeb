import StackOwl.Commands.Policy
import StackOwl.Durable.Passes
import StackOwl.Journal.Waiters

/-!
# A gated command runs after its approval

The life of a command row between its submission and the call of its handler: the loop's
ticks and the inline path of `submit_command`, `park_for_decision`, the answers to its
needs-you item and the passes of the command-resume sweep.  Every coroutine holds what it
has read; a step is one of its transactions, or one of its reads.  What a caller writes
after the handler, and every other write of the task store, is a `store` step.

## Main results

* `sound_step` — a row carries an approval only while the item parked last is answered
  with it.
* `gated_start_approved` — over a run, a gated handler is called after an approval of
  the item parked last, if no step acts on a row or an item that has moved on.
* `late_park_runs_unapproved` — a run in which one does.
-/

namespace StackOwl.Commands

open Lib Option Bool
open Journal (JournalDb NeedsYouItem Latest KeepsWaiter Linked getItemByWaiter WAITER_KIND_COMMAND)
open Durable (DurableTask Stamp)

/-! ## The journal's part -/

/-- The declaration of `command.pending_approval`. -/
def pendingApprovalSpec : Journal.EventTypeSpec where
  attrsModel := "CommandPendingApprovalAttrs"
  attentionClass := .needsYou
  intensity := some .normal
  needsYouKind := some .approval

def PENDING_APPROVAL : String := "command.pending_approval"

/-- The command registries, and the journal's environment with the event that parks. -/
structure Env where
  commands : CommandRegistry
  journal : Journal.Env
  pendingApproval : journal.registry.get PENDING_APPROVAL = some pendingApprovalSpec

/-- The event `park_for_decision` records. -/
def pendingApprovalEvent (task : DurableTask) (outcome : ActionPolicyOutcome)
    (payloadSummary : String) : Journal.JournalEvent where
  type := PENDING_APPROVAL
  actorKind := .autonomous
  actorId := task.ownerId
  targetKind := .owner
  targetId := task.taskId
  outcome := .parked
  recordRef := some ⟨"sqlite", [("table", "tasks"), ("task_id", task.taskId)]⟩
  attrs := .other "CommandPendingApprovalAttrs"
    [("command_type", Durable.clip 64 (task.commandType.getD "")),
      ("requester_kind", Durable.clip 64 (textOr "owner" task.context.requesterKind)),
      ("outcome", Durable.clip 64 outcome.value),
      ("payload_summary", Durable.clip 256 payloadSummary)]

/-! ## The world of a command -/

inductive Dispatch where
  /-- A tick has read the row and is to claim it. -/
  | fetched (task : DurableTask)
  /-- The inline path has claimed the row and is to read it. -/
  | won (owner taskId : String)
  /-- The row is claimed; the dispatch runs it as it has read it. -/
  | claimed (task : DurableTask)
  /-- The gate wants a decision; the dispatch is to park the row. -/
  | parking (task : DurableTask) (outcome : ActionPolicyOutcome) (payloadSummary : String)
  | done

/-- Where a pass of the command-resume sweep is, for one row. -/
inductive Sweep where
  | candidate (owner taskId : String)
  /-- The item that was read is settled. -/
  | answered (owner taskId : String) (item : NeedsYouItem)
  | done

structure CommandWorld where
  tasks : Durable.Db
  journal : JournalDb
  dispatches : List Dispatch := []
  sweeps : List Sweep := []

def CommandWorld.fresh : CommandWorld where
  tasks := .fresh
  journal := .empty

def submittedTask (commandId commandType payload requesterKind : String)
    (authorityGrantId : Option String) (now : Stamp) : DurableTask where
  taskId := "cmd-" ++ commandId
  goal := "command:" ++ commandType
  status := .pending
  kind := .command
  commandType := some commandType
  commandId := some commandId
  triggerKind := some "command"
  context :=
    { commandPayload := some payload, requesterKind := some requesterKind,
      authorityGrantId := authorityGrantId }
  createdAt := now
  updatedAt := now

inductive CommandOp where
  /-- `submit_command` creates the row. -/
  | submit (owner commandId commandType payload requesterKind : String)
      (authorityGrantId : Option String) (now : Stamp)
  /-- `claimable` offers the row to a tick. -/
  | fetch (owner taskId : String)
  | claim (i : Nat) (worker : String) (leaseSeconds : Int) (now : Stamp)
  /-- The inline path claims the row, -/
  | claimInline (owner taskId worker : String) (leaseSeconds : Int) (now : Stamp)
  /-- and reads it afresh. -/
  | read (i : Nat)
  | execute (i : Nat)
  | park (i : Nat) (now : Stamp) (writesPaused : Bool) (ids : Nat → String)
  /-- Any other transaction of the task store. -/
  | store (op : Durable.Op)
  /-- Any other transaction of the journal: answers, expiries, events. -/
  | journal (t : Journal.Transaction)
  /-- A pass lists the parked rows, -/
  | sweepList (owner taskId : String)
  /-- reads the item of one, -/
  | sweepRead (i : Nat)
  /-- and resumes it. -/
  | sweepResume (i : Nat) (permanentClasses : List String) (now : Stamp) (jitter : Int)

/-- The operation creates no command row: that is for `submit_command`. -/
def commandFree : Durable.Op → Bool
  | .create _ task | .enqueue _ task => task.kind != .command
  | _ => true

/-- The transactions of the task store that are nobody else's: `gate_verdict` is written by
the gate alone. -/
def otherWrite : Durable.Op → Bool
  | .parkForDecision .. | .resumeApproved .. => false
  | op => commandFree op

variable (env : Env) (w : CommandWorld)

/-- The transaction of `park_for_decision`. -/
def parkTransaction (task : DurableTask) (outcome : ActionPolicyOutcome) (payloadSummary : String)
    (now : Stamp) (writesPaused : Bool) (ids : Nat → String) (w : CommandWorld)
    : Option CommandWorld :=
  match Durable.parkForDecision task.ownerId task.taskId (task.commandType.getD "")
    (textOr "owner" task.context.requesterKind) outcome.value payloadSummary now w.tasks with
  | .error _ => none
  | .ok tasks => do
      let (_, journal) ← Journal.record env.journal writesPaused ids
        (pendingApprovalEvent task outcome payloadSummary) w.journal
      let (_, journal) ← Journal.bindWaiter env.journal .approval .owner task.taskId
        WAITER_KIND_COMMAND task.taskId none journal
      some { w with tasks := tasks, journal := journal }

def CommandWorld.setDispatch (i : Nat) (d : Dispatch) : CommandWorld :=
  { w with dispatches := w.dispatches.set i d }

def CommandWorld.setSweep (i : Nat) (p : Sweep) : CommandWorld :=
  { w with sweeps := w.sweeps.set i p }

def dispatchStep (i : Nat) : Dispatch → CommandOp →
    CommandWorld
  | .fetched task, .claim _ worker leaseSeconds now =>
    match Durable.claim task.ownerId task.taskId worker leaseSeconds now w.tasks with
    | .error _ => w.setDispatch i .done
    -- the row that runs is the one the tick has read, not the one it has claimed
    | .ok (tasks, won) =>
      { w with tasks := tasks }.setDispatch i (if won then .claimed task else .done)
  | .won owner taskId, .read _ =>
    match Durable.get owner taskId w.tasks with
    | .error _ => w.setDispatch i .done
    | .ok task => w.setDispatch i (.claimed task)
  | .claimed task, .execute _ =>
    match executeCommandTask env.commands task with
    | .needsDecision _ outcome payloadSummary =>
      w.setDispatch i (.parking task outcome payloadSummary)
    | _ => w.setDispatch i .done
  | .parking task outcome payloadSummary, .park _ now writesPaused ids =>
    match parkTransaction env task outcome payloadSummary now writesPaused ids w with
    | none => w.setDispatch i .done
    | some w => w.setDispatch i .done
  | _, _ => w

def sweepStep (i : Nat) : Sweep → CommandOp → CommandWorld
  | .candidate owner taskId, .sweepRead _ =>
    match getItemByWaiter WAITER_KIND_COMMAND taskId w.journal with
    | none => w.setSweep i .done
    | some item =>
      w.setSweep i (if item.isOpen then .done else .answered owner taskId item)
  | .answered owner taskId item, .sweepResume _ permanentClasses now jitter =>
    match Durable.resumeCommandAfterAnswer owner taskId (item.answer == some APPROVED)
        item.answer permanentClasses now jitter w.tasks with
    | .error _ => w.setSweep i .done
    | .ok tasks => { w with tasks := tasks }.setSweep i .done
  | _, _ => w

def commandStep (op : CommandOp) : CommandWorld :=
  match op with
  | .submit owner commandId commandType payload requesterKind authorityGrantId now =>
    { w with
      tasks := Durable.step w.tasks (.create owner
        (submittedTask commandId commandType payload requesterKind authorityGrantId now)) }
  | .fetch owner taskId =>
    match w.tasks.find owner taskId with
    | none => w
    | some r =>
      if r.kind = .command ∧ r.status = .pending then
        { w with dispatches := w.dispatches ++ [.fetched (Durable.rowToTask r)] }
      else w
  | .claimInline owner taskId worker leaseSeconds now =>
    match Durable.claim owner taskId worker leaseSeconds now w.tasks with
    | .error _ => w
    | .ok (tasks, won) =>
      { w with
        tasks := tasks
        dispatches := if won then w.dispatches ++ [.won owner taskId]
          else w.dispatches }
  | .claim i .. | .read i | .execute i | .park i .. =>
    match w.dispatches[i]? with
    | none => w
    | some d => dispatchStep env w i d op
  | .store op => if otherWrite op then { w with tasks := Durable.step w.tasks op } else w
  | .journal t =>
    if t.bindsTurns then { w with journal := Journal.journalStep env.journal w.journal t }
    else w
  | .sweepList owner taskId =>
    match w.tasks.find owner taskId with
    | none => w
    | some r =>
      if r.kind = .command ∧ r.status = .parked then
        { w with sweeps := w.sweeps ++ [.candidate owner taskId] }
      else w
  | .sweepRead i | .sweepResume i .. =>
    match w.sweeps[i]? with
    | none => w
    | some p => sweepStep w i p op

/-! ## What a start needs -/

/-- The item parked last for the task is settled, and answered exactly with an
approval. -/
def answeredApproved (taskId : String) (s : JournalDb) : Bool :=
  (getItemByWaiter WAITER_KIND_COMMAND taskId s).any fun item =>
    !item.isOpen && item.answer == some APPROVED

/-- The task of the command that wants a decision and whose handler the step calls. -/
def startsGated : CommandOp → Option String
  | .execute i =>
    match w.dispatches[i]? with
    | some (.claimed task) =>
      match executeCommandTask env.commands task with
      | .starts _ => if gated env.commands task then some task.taskId else none
      | _ => none
    | _ => none
  | _ => none

/-- A step that calls the handler of a command that wants a decision does so after its
approval. -/
def startsApproved (op : CommandOp) : Bool :=
  (startsGated env w op).all fun taskId => answeredApproved taskId w.journal

/-- The row is a command's, and carries an approval. -/
def carriesApproval (owner taskId : String) (db : Durable.Db) : Bool :=
  (db.find owner taskId).any fun r =>
    r.kind == .command && r.gateVerdict == some APPROVED

/-- No step acts on what has moved on: a dispatch that has read an approval runs while
the row still carries it; one that parks finds the command's row; and a pass that resumes
on an approval has read the item that was parked last. -/
def actsOnCurrent : CommandOp → Bool
  | .execute i =>
    match w.dispatches[i]? with
    | some (.claimed task) =>
      task.gateVerdict != some APPROVED ||
        carriesApproval task.ownerId task.taskId w.tasks
    | _ => true
  | .park i .. =>
    match w.dispatches[i]? with
    | some (.parking task _ _) =>
      (w.tasks.find task.ownerId task.taskId).any fun r => r.kind == .command
    | _ => true
  | .sweepResume i .. =>
    match w.sweeps[i]? with
    | some (.answered _ taskId item) =>
      item.answer != some APPROVED ||
        w.journal.items.rows.all fun q =>
          !q.waits WAITER_KIND_COMMAND taskId || q.id == item.id ||
            q.openedCursor < item.openedCursor
    | _ => true
  | _ => true

/-! ## What the writes of the task store leave -/

structure SameCommand (r r' : Durable.Row) : Prop where
  kind : r'.kind = r.kind
  commandType : r'.commandType = r.commandType
  commandId : r'.commandId = r.commandId
  context : r'.context = r.context

theorem SameCommand.refl (r : Durable.Row) : SameCommand r r := ⟨rfl, rfl, rfl, rfl⟩

structure SameGate (r r' : Durable.Row) : Prop extends SameCommand r r' where
  gateVerdict : r'.gateVerdict = r.gateVerdict

theorem SameGate.refl (r : Durable.Row) : SameGate r r := ⟨SameCommand.refl r, rfl⟩

variable {op : Durable.Op} {u : Durable.Update}

/-- No `UPDATE` of the task store writes the columns of the command, and only the gate's
write its verdict. -/
theorem set_kept (hop : op.effect = .update u) (r : Durable.Row) :
    SameCommand r (u.set r) ∧
      (otherWrite op = true → (u.set r).gateVerdict = r.gateVerdict) := by
  cases op with
  | create => cases hop
  | enqueue => cases hop
  | createChildTask => cases hop
  | pruneCompleted => cases hop
  | parkForDecision =>
    cases hop
    refine ⟨⟨rfl, rfl, rfl, rfl⟩, fun hother => ?_⟩
    cases hother
  | resumeApproved =>
    cases hop
    refine ⟨⟨rfl, rfl, rfl, rfl⟩, fun hother => ?_⟩
    cases hother
  | updateStatus owner taskId status fields =>
    cases hop
    have hkept : SameGate r ((Durable.statusSql owner taskId status fields r).set r) := by
      unfold Durable.statusSql
      dsimp only
      split
      · unfold Durable.failSql
        split <;> exact ⟨⟨rfl, rfl, rfl, rfl⟩, rfl⟩
      · exact ⟨⟨rfl, rfl, rfl, rfl⟩, rfl⟩
    exact ⟨hkept.toSameCommand, fun _ => hkept.gateVerdict⟩
  | claimForRecovery owner taskId countAttempt now =>
    cases hop
    cases countAttempt <;> exact ⟨⟨rfl, rfl, rfl, rfl⟩, fun _ => rfl⟩
  | failAndRequeue owner taskId row call =>
    cases hop
    unfold Durable.failSql
    split <;> exact ⟨⟨rfl, rfl, rfl, rfl⟩, fun _ => rfl⟩
  | _ =>
    cases hop
    exact ⟨⟨rfl, rfl, rfl, rfl⟩, fun _ => rfl⟩

theorem sameCommand_set (hop : op.effect = .update u) (r : Durable.Row) :
    SameCommand r (u.set r) := (set_kept hop r).1

theorem sameGate_set (hother : otherWrite op = true) (hop : op.effect = .update u)
    (r : Durable.Row) : SameGate r (u.set r) :=
  ⟨(set_kept hop r).1, (set_kept hop r).2 hother⟩

theorem commandFree_of_otherWrite (h : otherWrite op = true) :
    commandFree op = true := by
  cases op <;> first | exact h | rfl

variable {r' : Durable.Row} {o i : String}

/-- A command's row after a write that creates none was there before it, as what the
`UPDATE` of the write leaves of it. -/
theorem find_commandFree {S : Durable.Row → Durable.Row → Prop} {db : Durable.Db}
    (hfree : commandFree op = true) (hrefl : ∀ r, S r r)
    (hset : ∀ u r, op.effect = .update u → S r (u.set r))
    (hr' : (Durable.step db op).find o i = some r') (hkind : r'.kind = .command) :
    ∃ r, db.find o i = some r ∧ S r r' := by
  cases hfind : db.find o i with
  | some r =>
    refine ⟨r, rfl, ?_⟩
    have hkept : ∀ u, op.effect = .update u → u.guard r = true → S r (u.set r) :=
      fun u hop _ => hset u r hop
    rcases Durable.step_keeps hfind (hrefl r) hkept with ⟨q, hq, hsame⟩ | hnone
    · cases hr'.symm.trans hq
      exact hsame
    · rw [hnone] at hr'
      cases hr'
  | none =>
    have hbirth := Durable.step_birth hfind hr'
    cases op with
    | create owner task =>
      cases hbirth
      have hgoal : task.kind ≠ .command := by simpa [commandFree] using hfree
      exact absurd hkind hgoal
    | enqueue owner task =>
      cases hbirth
      have hgoal : task.kind ≠ .command := by simpa [commandFree] using hfree
      exact absurd hkind hgoal
    | createChildTask owner spec now =>
      cases hbirth
      cases hkind
    | _ => cases hbirth

variable {owner : String} {task : DurableTask}

theorem find_create {db : Durable.Db}
    (hr' : (Durable.step db (.create owner task)).find o i = some r') :
    db.find o i = some r' ∨
      i = task.taskId ∧ r' = Durable.taskInsertColumns (task.filedUnder owner) := by
  rcases Durable.step_find db (.create owner task) o i with hsame | heffect
  · exact Or.inl (hsame ▸ hr')
  · rw [heffect] at hr'
    cases hfind : db.find o i with
    | some r =>
      rw [hfind] at hr'
      exact Or.inl hr'
    | none =>
      rw [hfind] at hr'
      simp only [Durable.Op.effect, Durable.Effect.on] at hr'
      split at hr'
      · rename_i hkey
        cases hr'
        exact Or.inr ⟨(Durable.isKey_iff.mp hkey).2.symm, rfl⟩
      · cases hr'

variable {db db' : Durable.Db}

/-- A command's row after an `UPDATE` addressed by primary key. -/
theorem find_keyed {events : List Durable.JournalEvent} {taskId : String}
    (h : Durable.Updates u events db db') (hguard : u.guard = Durable.isKey owner taskId)
    (hr' : db'.find o i = some r') :
    ∃ r, db.find o i = some r ∧
      (¬ (owner = o ∧ taskId = i) ∧ r' = r ∨ owner = o ∧ taskId = i ∧ r' = u.set r) := by
  rw [h.find] at hr'
  obtain ⟨r, hr, rfl⟩ := map_eq_some_iff.mp hr'
  obtain ⟨ho, hi⟩ := Durable.key_of_find hr
  refine ⟨r, hr, ?_⟩
  by_cases hkey : owner = o ∧ taskId = i
  · have hg : u.guard r = true := by
      rw [hguard, Durable.isKey_iff, ho, hi]
      exact ⟨hkey.1.symm, hkey.2.symm⟩
    exact Or.inr ⟨hkey.1, hkey.2, Durable.Update.on_of_guard hg⟩
  · have hg : u.guard r = false := by
      by_contra hg
      rw [hguard] at hg
      have hmatched := Durable.isKey_iff.mp (of_not_eq_false hg)
      exact hkey ⟨hmatched.1.symm.trans ho, hmatched.2.symm.trans hi⟩
    exact Or.inl ⟨hkey, Durable.Update.on_of_not_guard hg⟩

/-! ## The invariant -/

/-- The item parked last for the task is settled, and answered with an approval. -/
def Approved (s : JournalDb) (taskId : String) : Prop :=
  ∃ r, Latest s taskId r ∧ r.isOpen = false ∧ r.answer = some APPROVED

variable {taskId : String} {s : JournalDb}

theorem answeredApproved_of_approved (h : Approved s taskId) :
    answeredApproved taskId s = true := by
  obtain ⟨r, hlatest, hclosed, hanswer⟩ := h
  rw [answeredApproved, Journal.getItemByWaiter_of_latest hlatest]
  simp [hclosed, hanswer]

variable {how : Option Journal.Settler} {s' : JournalDb}

theorem Approved.kept {env : Journal.Env} (h : Approved s taskId)
    (hadvance : Journal.Advance env how s s') (hkeeps : KeepsWaiter taskId s s')
    : Approved s' taskId := by
  obtain ⟨r, hlatest, hclosed, hanswer⟩ := h
  exact ⟨r, hlatest.kept hclosed hadvance hkeeps, hclosed, hanswer⟩

def CommandIds (db : Durable.Db) : Prop :=
  ∀ o i r, db.find o i = some r → r.kind = .command →
    ∃ c, r.commandId = some c ∧ i = "cmd-" ++ c

/-- The verdicts in the table are approvals of the items parked last. -/
def Verdicts (db : Durable.Db) (s : JournalDb) : Prop :=
  ∀ o i r, db.find o i = some r → r.kind = .command → r.gateVerdict = some APPROVED →
    Approved s i

/-- An answer a pass has read is that of a settled item of the task. -/
def Answers (sweeps : List Sweep) (s : JournalDb) : Prop :=
  ∀ owner taskId item, .answered owner taskId item ∈ sweeps → item ∈ s.items.rows ∧
    item.isOpen = false ∧ item.waits WAITER_KIND_COMMAND taskId = true

structure Sound (w : CommandWorld) : Prop where
  linked : Linked w.journal
  commands : CommandIds w.tasks
  verdicts : Verdicts w.tasks w.journal
  answers : Answers w.sweeps w.journal

theorem sound_fresh : Sound .fresh where
  linked := Journal.linked_empty
  commands := fun _ _ _ h => nomatch h
  verdicts := fun _ _ _ h => nomatch h
  answers := fun _ _ _ h => absurd h List.not_mem_nil

theorem command_ext (hids : CommandIds db) {o' : String} {r : Durable.Row}
    (hr : db.find o i = some r) (hr' : db.find o' i = some r') (hkind : r.kind = .command)
    (hkind' : r'.kind = .command) : o = o' := by
  obtain ⟨c, hc, hi⟩ := hids o i r hr hkind
  obtain ⟨c', hc', hi'⟩ := hids o' i r' hr' hkind'
  have hsame : c = c' := by
    have happend := congrArg String.toList (hi.symm.trans hi')
    rw [String.toList_append, String.toList_append] at happend
    exact String.toList_inj.mp (List.append_cancel_left happend)
  have hkey : Durable.commandKey ∈ Durable.taskKeys := by simp [Durable.taskKeys]
  have hrow : r = r' := db.tasks.eq_of_key hkey (Durable.mem_of_find hr)
    (Durable.mem_of_find hr') (by rw [Durable.commandKey, hc]; rfl)
    (by rw [Durable.commandKey, hc', hsame]; rfl)
  exact (Durable.key_of_find hr).1.symm.trans (hrow ▸ (Durable.key_of_find hr').1)

/-! ## Steps -/

/-- The command rows of `db'` were in `db`, with the columns the gate goes by. -/
def KeepsGate (db db' : Durable.Db) : Prop :=
  ∀ o i r', db'.find o i = some r' → r'.kind = .command →
    ∃ r, db.find o i = some r ∧ SameGate r r'

theorem keepsGate_step (hother : otherWrite op = true) :
    KeepsGate db (Durable.step db op) :=
  fun _ _ _ hr' hkind => find_commandFree (commandFree_of_otherWrite hother) SameGate.refl
    (fun _ r hop => sameGate_set hother hop r) hr' hkind

variable {now : Stamp}

theorem keepsGate_claim {worker : String} {leaseSeconds : Int} {won : Bool}
    (h : Durable.claim owner taskId worker leaseSeconds now db = .ok (db', won)) :
    KeepsGate db db' := by
  have hcommits : (Durable.Op.claim owner taskId worker leaseSeconds now).transaction db =
      .ok db' := by
    rw [Durable.Op.transaction, h]
    rfl
  rw [← Durable.step_of_ok hcommits]
  exact keepsGate_step rfl

theorem CommandIds.kept (h : CommandIds db) (hkeeps : KeepsGate db db') : CommandIds db' := by
  intro o i r' hr' hkind
  obtain ⟨r, hr, hsame⟩ := hkeeps o i r' hr' hkind
  rw [hsame.commandId]
  exact h o i r hr (hsame.kind ▸ hkind)

theorem Verdicts.kept (h : Verdicts db s) (hkeeps : KeepsGate db db') :
    Verdicts db' s := by
  intro o i r' hr' hkind hverdict
  obtain ⟨r, hr, hsame⟩ := hkeeps o i r' hr' hkind
  exact h o i r hr (hsame.kind ▸ hkind) (hsame.gateVerdict ▸ hverdict)

theorem Answers.kept {env : Journal.Env} {sweeps : List Sweep} (h : Answers sweeps s)
    (hadvance : Journal.Advance env how s s') : Answers sweeps s' := by
  intro owner taskId item hmem
  obtain ⟨hitem, hclosed, hwaits⟩ := h owner taskId item hmem
  exact ⟨hadvance.kept item hitem hclosed, hclosed, hwaits⟩

variable {p : Sweep}

theorem Answers.set {sweeps : List Sweep} (h : Answers sweeps s) (i : Nat)
    (hp : ∀ owner taskId item, p = .answered owner taskId item → item ∈ s.items.rows ∧
      item.isOpen = false ∧ item.waits WAITER_KIND_COMMAND taskId = true)
    : Answers (sweeps.set i p) s := by
  intro owner taskId item hmem
  rcases List.mem_or_eq_of_mem_set hmem with hold | hnew
  · exact h owner taskId item hold
  · exact hp owner taskId item hnew.symm

/-- A write that leaves the gate's columns alone. -/
theorem Sound.tasks {w : CommandWorld} (h : Sound w) (hkeeps : KeepsGate w.tasks db)
    : Sound { w with tasks := db } :=
  ⟨h.linked, h.commands.kept hkeeps, h.verdicts.kept hkeeps, h.answers⟩

theorem Sound.dispatches {w : CommandWorld} (h : Sound w) (dispatches : List Dispatch) :
    Sound { w with dispatches := dispatches } :=
  ⟨h.linked, h.commands, h.verdicts, h.answers⟩

theorem Sound.sweeps {w : CommandWorld} (h : Sound w) {sweeps : List Sweep}
    (hanswers : Answers sweeps w.journal) : Sound { w with sweeps := sweeps } :=
  ⟨h.linked, h.commands, h.verdicts, hanswers⟩

variable {w}

theorem Sound.swept (h : Sound w) (i : Nat) :
    Sound (w.setSweep i .done) :=
  h.sweeps (h.answers.set i fun _ _ _ hp => nomatch hp)

variable {env}

theorem sound_journal (h : Sound w) (t : Journal.Transaction) (hturns : t.bindsTurns = true) :
    Sound { w with journal := Journal.journalStep env.journal w.journal t } := by
  have hadvance : Journal.Advance env.journal _ w.journal
      (Journal.journalStep env.journal w.journal t) := Journal.advance_step h.linked t
  refine ⟨hadvance.linked, h.commands, fun o i r hr hkind hverdict => ?_,
    h.answers.kept hadvance⟩
  exact (h.verdicts o i r hr hkind hverdict).kept hadvance
    (Journal.keepsWaiter_step env.journal i w.journal t hturns)

theorem sound_submit (h : Sound w) (owner : String)
    (commandId commandType payload requesterKind : String) (authorityGrantId : Option String)
    (now : Stamp) :
    Sound { w with
      tasks := Durable.step w.tasks (.create owner
        (submittedTask commandId commandType payload requesterKind authorityGrantId now)) } := by
  refine ⟨h.linked, fun o i r' hr' hkind => ?_, fun o i r' hr' hkind hverdict => ?_,
    h.answers⟩
  · rcases find_create hr' with hold | ⟨hi, rfl⟩
    · exact h.commands o i r' hold hkind
    · exact ⟨commandId, rfl, hi⟩
  · rcases find_create hr' with hold | ⟨-, rfl⟩
    · exact h.verdicts o i r' hold hkind hverdict
    · cases hverdict

/-- **Parking.**  The row that is parked carries no approval, and the new item is that of
no other command. -/
theorem sound_park {w' : CommandWorld} {outcome : ActionPolicyOutcome} {payloadSummary : String}
    {writesPaused : Bool} {ids : Nat → String} (h : Sound w)
    (hrow : (w.tasks.find task.ownerId task.taskId).any (fun r => r.kind == .command) = true)
    (hpark : parkTransaction env task outcome payloadSummary now writesPaused ids w = some w')
    : Sound w' := by
  simp only [parkTransaction, bind_eq_bind] at hpark
  split at hpark
  · cases hpark
  rename_i tasks htasks
  obtain ⟨⟨eventId, s₁⟩, hrecord, hpark⟩ := bind_eq_some_iff.mp hpark
  obtain ⟨⟨bound, s₂⟩, hbind, hpark⟩ := bind_eq_some_iff.mp hpark
  cases hpark
  have hupdates := Durable.parkForDecision_spec htasks
  have hrecorded := Journal.record_advance h.linked
    (by decide : PENDING_APPROVAL ≠ Journal.NEEDS_YOU_RESOLVED) hrecord
  have hadvance := hrecorded.trans (Journal.bindWaiter_advance hrecorded.linked hbind)
  have hkeeps : ∀ i, task.taskId ≠ i → KeepsWaiter i w.journal s₂ := fun i hne =>
    (Journal.keepsWaiter_record hrecord).trans
      (Journal.keepsWaiter_bindWaiter (fun hsame => hne hsame.2) hbind)
  refine ⟨hadvance.linked, fun o i r' hr' hkind => ?_, fun o i r' hr' hkind hverdict => ?_,
    h.answers.kept hadvance⟩
  · obtain ⟨r, hr, ⟨-, rfl⟩ | ⟨-, -, rfl⟩⟩ := find_keyed hupdates rfl hr'
    · exact h.commands o i r' hr hkind
    · exact h.commands o i r hr hkind
  · obtain ⟨r, hr, ⟨hother, rfl⟩ | ⟨-, -, rfl⟩⟩ := find_keyed hupdates rfl hr'
    · refine (h.verdicts o i r' hr hkind hverdict).kept hadvance (hkeeps i fun hid => ?_)
      -- two command rows with one task id are one row
      obtain ⟨q, hq, hqkind⟩ := (any_eq_true _ _).mp hrow
      subst hid
      exact hother ⟨command_ext h.commands hq hr (eq_of_beq hqkind) hkind, rfl⟩
    · exact absurd (some.inj hverdict) (value_ne_approved outcome)

variable {item : NeedsYouItem}

/-- **Resuming.**  The pass approves the row only if the item it has read is the latest
one of the task. -/
theorem sound_resume {permanentClasses : List String} {jitter : Int} {tasks : Durable.Db}
    (h : Sound w) (hmem : .answered owner taskId item ∈ w.sweeps)
    (hcurrent : item.answer = some APPROVED → Latest w.journal taskId item)
    (hresume : Durable.resumeCommandAfterAnswer owner taskId (item.answer == some APPROVED)
      item.answer permanentClasses now jitter w.tasks = .ok tasks) :
    Sound { w with tasks := tasks } := by
  by_cases hanswer : item.answer = some APPROVED
  · rw [hanswer, beq_self_eq_true] at hresume
    obtain ⟨⟨tasks, n⟩, hexecute, heq⟩ := Durable.bind_eq_ok hresume
    cases heq
    have hupdates := Durable.updates_execute hexecute
    refine ⟨h.linked, fun o i r' hr' hkind => ?_,
      fun o i r' hr' hkind hverdict => ?_, h.answers⟩
    · obtain ⟨r, hr, ⟨-, rfl⟩ | ⟨-, -, rfl⟩⟩ := find_keyed hupdates rfl hr'
      · exact h.commands o i r' hr hkind
      · exact h.commands o i r hr hkind
    · obtain ⟨r, hr, ⟨-, rfl⟩ | ⟨-, rfl, -⟩⟩ := find_keyed hupdates rfl hr'
      · exact h.verdicts o i r' hr hkind hverdict
      · obtain ⟨-, hclosed, -⟩ := h.answers owner taskId item hmem
        exact ⟨item, hcurrent hanswer, hclosed, hanswer⟩
  · rw [beq_eq_false_iff_ne.mpr hanswer] at hresume
    rcases Durable.resumeCommandAfterAnswer_step hresume with hstep | ⟨row, call, -, rfl⟩
    · -- a denial takes the other branch
      obtain ⟨⟨db, status⟩, hfail, heq⟩ := Durable.bind_eq_ok hresume
      cases heq
      obtain ⟨row, -, rfl⟩ := Durable.failAndRequeue_step hfail
      exact h.tasks (keepsGate_step rfl)
    · exact h.tasks (keepsGate_step rfl)

theorem sound_dispatch {op : CommandOp} {i : Nat} {d : Dispatch} (h : Sound w)
    (hcurrent : ∀ task outcome payloadSummary j now writesPaused ids,
      d = .parking task outcome payloadSummary → op = .park j now writesPaused ids →
        (w.tasks.find task.ownerId task.taskId).any (fun r => r.kind == .command) = true) :
    Sound (dispatchStep env w i d op) := by
  unfold dispatchStep
  split
  · split
    · exact h.dispatches _
    · rename_i hclaim
      exact (h.tasks (keepsGate_claim hclaim)).dispatches _
  · split
    · exact h.dispatches _
    · exact h.dispatches _
  · split
    · exact h.dispatches _
    · exact h.dispatches _
  · split
    · exact h.dispatches _
    · rename_i hpark
      exact (sound_park h (hcurrent _ _ _ _ _ _ _ rfl rfl) hpark).dispatches _
  · exact h

theorem sound_sweep {op : CommandOp} {i : Nat} (h : Sound w) (hp : w.sweeps[i]? = some p)
    (hcurrent : ∀ owner taskId item j permanentClasses now jitter, p = .answered owner taskId item →
      op = .sweepResume j permanentClasses now jitter → item.answer = some APPROVED →
      Latest w.journal taskId item) :
    Sound (sweepStep w i p op) := by
  unfold sweepStep
  split
  · split
    · exact h.swept i
    · rename_i owner taskId _ item hread
      refine h.sweeps (h.answers.set i fun owner' taskId' item' hanswered => ?_)
      split at hanswered
      · cases hanswered
      · rename_i hclosed
        cases hanswered
        obtain ⟨hitem, hwaits⟩ := Journal.mem_of_getItemByWaiter hread
        exact ⟨hitem, eq_false_iff.mpr hclosed, hwaits⟩
  · split
    · exact h.swept i
    · rename_i hresume
      have hlatest := hcurrent _ _ _ _ _ _ _ rfl rfl
      exact (sound_resume h (List.mem_of_getElem? hp) hlatest hresume).swept i
  · exact h

theorem latest_of_current (h : Sound w) (hmem : .answered owner taskId item ∈ w.sweeps)
    (hcurrent : (item.answer != some APPROVED || w.journal.items.rows.all fun q =>
      !q.waits WAITER_KIND_COMMAND taskId || q.id == item.id ||
        q.openedCursor < item.openedCursor) = true)
    (hanswer : item.answer = some APPROVED) :
    Latest w.journal taskId item := by
  obtain ⟨hitem, -, hwaits⟩ := h.answers owner taskId item hmem
  refine ⟨hitem, hwaits, fun q hq hqwaits => ?_⟩
  simp only [hanswer, bne_self_eq_false, Bool.false_or] at hcurrent
  have hq := List.all_eq_true.mp hcurrent q hq
  simpa [hqwaits] using hq

/-- **The step lemma.** -/
theorem sound_step {op : CommandOp} (h : Sound w) (hcurrent : actsOnCurrent w op = true) :
    Sound (commandStep env w op) := by
  cases op <;> simp only [commandStep]
  case submit owner commandId commandType payload requesterKind authorityGrantId now =>
    exact sound_submit h owner commandId commandType payload requesterKind
      authorityGrantId now
  case fetch owner taskId =>
    split
    · exact h
    split
    · exact h.dispatches _
    · exact h
  case claimInline owner taskId worker leaseSeconds now =>
    split
    · exact h
    · rename_i hclaim
      exact (h.tasks (keepsGate_claim hclaim)).dispatches _
  case store op =>
    split
    · rename_i hother
      exact h.tasks (keepsGate_step hother)
    · exact h
  case journal t =>
    split
    · rename_i hturns
      exact sound_journal h t hturns
    · exact h
  case sweepList owner taskId =>
    split
    · exact h
    split
    · refine h.sweeps fun o i item hmem => ?_
      rcases List.mem_append.mp hmem with hold | hnew
      · exact h.answers o i item hold
      · exact nomatch List.mem_singleton.mp hnew
    · exact h
  case claim | read | execute =>
    split
    · exact h
    · exact sound_dispatch h fun _ _ _ _ _ _ _ _ hop => nomatch hop
  case park i now writesPaused ids =>
    split
    · exact h
    rename_i d hd
    refine sound_dispatch h fun task outcome payloadSummary _ _ _ _ hparking _ => ?_
    simpa only [actsOnCurrent, hd, hparking] using hcurrent
  case sweepRead i =>
    split
    · exact h
    · rename_i p hp
      exact sound_sweep h hp fun _ _ _ _ _ _ _ _ hop => nomatch hop
  case sweepResume i permanentClasses now jitter =>
    split
    · exact h
    rename_i p hp
    refine sound_sweep h hp fun owner taskId item _ _ _ _ hanswered _ hanswer => ?_
    subst hanswered
    rw [actsOnCurrent, hp] at hcurrent
    exact latest_of_current h (List.mem_of_getElem? hp) hcurrent hanswer

/-! ## Starts -/

/-- What a step that calls a gated handler goes by. -/
theorem claimed_of_startsGated {op : CommandOp} (h : startsGated env w op = some taskId) :
    ∃ i task, op = .execute i ∧ w.dispatches[i]? = some (.claimed task) ∧
      task.taskId = taskId ∧ task.gateVerdict = some APPROVED := by
  cases op with
  | execute i =>
    simp only [startsGated] at h
    split at h
    · rename_i task htask
      split at h
      · rename_i context hstarts
        split at h
        · rename_i hgated
          cases h
          rcases outcome_of_starts hstarts with hungated | hverdict
          · exact absurd hgated (not_eq_true _ ▸ hungated)
          · exact ⟨i, task, rfl, htask, rfl, hverdict⟩
        · cases h
      · cases h
    · cases h
  | _ => cases h

theorem startsApproved_of_sound {op : CommandOp} (h : Sound w)
    (hcurrent : actsOnCurrent w op = true) :
    startsApproved env w op = true := by
  rw [startsApproved, all_eq_true]
  intro taskId hstarts
  obtain ⟨i, task, rfl, htask, rfl, hverdict⟩ := claimed_of_startsGated hstarts
  -- the row still carries what the dispatch has read
  simp only [actsOnCurrent, htask, hverdict, bne_self_eq_false, Bool.false_or] at hcurrent
  obtain ⟨r, hr, hcarries⟩ := (any_eq_true _ _).mp hcurrent
  obtain ⟨hkind, happroved⟩ := (and_eq_true _ _).mp hcarries
  exact answeredApproved_of_approved
    (h.verdicts _ _ r hr (eq_of_beq hkind) (eq_of_beq happroved))

/-- **A gated command runs after its approval.**  Whatever is submitted, dispatched,
parked, answered, resumed, requeued or recovered, in whatever order: the handler of a
command that wants a decision is called only while the item parked last for its task
stands answered with an approval, as long as no step acts on a row or an item that has
moved on. -/
theorem gated_start_approved (env : Env) (ops : List CommandOp)
    (h : Meets (commandStep env) (fun w op => actsOnCurrent w op = true) .fresh ops) :
    Meets (commandStep env) (fun w op => startsApproved env w op = true) .fresh ops :=
  meets_of_meets (fun _ _ hsound hcurrent => sound_step hsound hcurrent)
    (fun _ _ hsound hcurrent => startsApproved_of_sound hsound hcurrent) sound_fresh h

/-! ## A late dispatch -/

def parkingRegistry : Journal.EventRegistry where
  get type :=
    if type = PENDING_APPROVAL then some pendingApprovalSpec
    else if type = Journal.NEEDS_YOU_OPENED then some Journal.openedSpec
    else if type = Journal.NEEDS_YOU_RESOLVED then some Journal.resolvedSpec
    else none
  opened := rfl
  resolved := rfl
  only_resolved := by
    intro type spec hget hmodel
    by_contra hother
    split at hget
    · cases hget
      exact absurd hmodel (by decide)
    split at hget
    · cases hget
      exact absurd hmodel (by decide)
    cases hget

/-- A desk with one command, which asks for a step-up. -/
def grantEnv : Env where
  commands :=
    { spec := fun commandType =>
        if commandType = "authority.grant" then
          some
            { payloadModel := fun text => some ⟨text, text⟩, severity := .consequential,
              reversible := true, undoCommandType := some "authority.revoke" }
        else none
      hasHandler := fun commandType => commandType = "authority.grant" }
  journal :=
    { registry := parkingRegistry, redact := id, dumpJson := fun _ => "", sha256 := id }
  pendingApproval := rfl

def answer (itemId text tag : String) : CommandOp :=
  .journal ⟨.resolve itemId text "owner" none none "2026-01-01", false, fun n => tag ++ n.repr⟩

/-- The command is submitted and parked with the item `a1`. -/
def submittedAndParked : List CommandOp :=
  [.submit "owner" "g" "authority.grant" "\x7b\x7d" "owner" none 0,
    .claimInline "owner" "cmd-g" "inline" 900 0, .read 0, .execute 0,
    .park 0 0 false fun n => "a" ++ n.repr]

/-- The item is answered, the row resumed and dispatched. -/
def answeredAndDispatched : List CommandOp :=
  [answer "a1" "approved" "b", .sweepList "owner" "cmd-g", .sweepRead 0,
    .sweepResume 0 [] 1 0, .fetch "owner" "cmd-g", .claim 1 "tick" 900 2, .execute 1]

/-- A grant is parked, approved and started. -/
theorem approved_grant_starts :
    Meets (commandStep grantEnv) (fun w op => startsApproved grantEnv w op = true) .fresh
        (submittedAndParked ++ answeredAndDispatched) ∧
      startsGated grantEnv
        (run (commandStep grantEnv) .fresh
          (submittedAndParked ++ answeredAndDispatched.dropLast)) (.execute 1) =
        some "cmd-g" :=
  ⟨gated_start_approved grantEnv (submittedAndParked ++ answeredAndDispatched) (by decide),
    by decide⟩

/-- A dispatch outlives its lease; its row is dispatched again, parked with `a1` and
approved; a pass reads `a1`, the first dispatch parks the row with `b1`, and the pass
resumes it. -/
def lateParkRun : List CommandOp :=
  [.submit "owner" "g" "authority.grant" "\x7b\x7d" "owner" none 0,
    .claimInline "owner" "cmd-g" "inline" 900 0, .read 0, .execute 0,
    .store (.reclaimExpired "owner" 1000000000),
    .fetch "owner" "cmd-g", .claim 1 "tick" 900 1001000000, .execute 1,
    .park 1 1002000000 false fun n => "a" ++ n.repr,
    answer "a1" "approved" "c", .sweepList "owner" "cmd-g", .sweepRead 0,
    .park 0 1003000000 false fun n => "b" ++ n.repr,
    .sweepResume 0 [] 1004000000 0, .fetch "owner" "cmd-g", .claim 2 "tick" 900 1005000000]

/-- The handler is called on the approval of `a1` while `b1`, the item parked last, is
open. -/
theorem late_park_runs_unapproved :
    let w := run (commandStep grantEnv) .fresh lateParkRun
    startsGated grantEnv w (.execute 2) = some "cmd-g" ∧
      (getItemByWaiter WAITER_KIND_COMMAND "cmd-g" w.journal).map
        (fun item => (item.id, item.isOpen)) = some ("b1", true) ∧
      startsApproved grantEnv w (.execute 2) = false ∧
      ¬ Meets (commandStep grantEnv) (fun w op => startsApproved grantEnv w op = true) .fresh
        (lateParkRun ++ [.execute 2]) := by
  decide

end StackOwl.Commands
