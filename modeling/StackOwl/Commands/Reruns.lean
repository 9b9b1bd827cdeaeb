import StackOwl.Commands.Approval
import StackOwl.Commands.Handlers
import StackOwl.Lib.Once

/-!
# A command's effect, once

The handlers of the scheduling and authority commands, called by the dispatches of command
rows.  A row whose lease has expired, or which is submitted anew, is dispatched again
whatever its handler has done, so calls of one command stand beside one another, each
between two of its stretches; a call whose process is gone goes no further.  Every change a
handler makes is remembered behind the id of its command.

What the rest of the program does with jobs, runs and authority rows is arbitrary, and so
are the receipts of other commands.

## Main results

* `handlerSound_advance` — a stretch changes something under an id under which nothing was
  changed.
* `effect_once` — over a run, no command id has a second effect and no re-run fails, if the
  authority handlers write for an id that has had none, and re-runs find what they read.
* `regranted_and_retired` — a run in which a grant is given twice, and one in which a
  re-run fails.
-/

namespace StackOwl.Commands

open Lib List Option Bool

/-! ## The world of the handlers -/

structure HandlerEnv where
  models : Models
  /-- What other subsystems declare. -/
  others : CommandRegistry
  journal : Journal.Env
  pendingApproval : journal.registry.get PENDING_APPROVAL = some pendingApprovalSpec

def HandlerEnv.toEnv (env : HandlerEnv) : Env where
  commands := declaredCommands env.models env.others
  journal := env.journal
  pendingApproval := env.pendingApproval

structure HandlerCall where
  context : CommandContext
  order : Order
  progress : Progress := .called
  /-- The command had had an effect, or had succeeded, when the handler was called. -/
  rerun : Bool

/-- The id of the command of which the call is about to run the job. -/
def HandlerCall.pending (call : HandlerCall) : Option String :=
  if claims call.order call.progress then some call.context.commandId else none

structure HandlerWorld where
  command : CommandWorld
  desk : Desk
  calls : List HandlerCall := []
  /-- Every change, behind the id of its command. -/
  changes : List (String × Change) := []
  /-- The ids of the commands of which a handler has succeeded. -/
  succeeded : List String := []

def HandlerWorld.fresh : HandlerWorld where
  command := .fresh
  desk :=
    { jobs := ⟨[], noJobs_unique⟩, runs := [], authority := ⟨[], noAuthority_unique⟩
      receipts := .empty }

inductive HandlerOp where
  /-- A step of the rows, the needs-you items and their dispatches. -/
  | command (op : CommandOp)
  /-- The next stretch of a call. -/
  | advance (i : Nat) (x : Surroundings)
  /-- The process of a call is gone. -/
  | crash (i : Nat)
  /-- The mutator of another command writes its receipt. -/
  | receipt (commandId commandType : String) (undoPayload : Option String)
  /-- The rest of the program works on the jobs, the runs and the authority rows. -/
  | elsewhere (jobs : Jobs) (runs : List JobRun) (authority : Authority)

variable (w : HandlerWorld)

def HandlerWorld.done (commandId : String) : Bool :=
  (w.desk.receipts.of commandId).isSome || commandId ∈ w.changes.map Prod.fst ||
    commandId ∈ w.succeeded

def HandlerWorld.handlerCall (env : HandlerEnv) (w : HandlerWorld) :
    CommandOp → Option HandlerCall
  | .execute i =>
    match w.command.dispatches[i]? with
    | some (.claimed task) =>
      match executeCommandTask env.toEnv.commands task with
      | .starts context =>
        (env.models.order context.commandType
          (textOr "\x7b\x7d" task.context.commandPayload)).map fun order =>
            { context := context, order := order, rerun := w.done context.commandId }
      | _ => none
    | _ => none
  | _ => none

def succeededWith (call : HandlerCall) : Progress → List String
  | .succeeded => [call.context.commandId]
  | _ => []

def HandlerWorld.advance (w : HandlerWorld) (i : Nat) (call : HandlerCall)
    (x : Surroundings) : HandlerWorld :=
  let moved := Commands.advance call.context call.order call.progress x w.desk
  { w with
    desk := moved.desk
    calls := w.calls.set i { call with progress := moved.progress }
    changes := w.changes ++
      (moved.change.map fun change => (call.context.commandId, change)).toList
    succeeded := w.succeeded ++ succeededWith call moved.progress }

def handlerStep (env : HandlerEnv) (w : HandlerWorld) : HandlerOp → HandlerWorld
  | .command op =>
    { w with
      command := commandStep env.toEnv w.command op
      calls := w.calls ++ (w.handlerCall env op).toList }
  | .advance i x =>
    match w.calls[i]? with
    | none => w
    | some call => w.advance i call x
  | .crash i =>
    match w.calls[i]? with
    | none => w
    | some call => { w with calls := w.calls.set i { call with progress := .crashed } }
  | .receipt commandId commandType undoPayload =>
    { w with
      desk := { w.desk with
        receipts := (recordCommandExecution commandId commandType undoPayload w.desk.receipts).2 } }
  | .elsewhere jobs runs authority =>
    { w with
      desk := { w.desk with jobs := jobs, runs := runs, authority := authority } }

/-! ## What a stretch is to go by -/

/-- The ids under which something was changed, or is about to be. -/
def HandlerWorld.taken : List String :=
  w.changes.map Prod.fst ++ w.calls.filterMap HandlerCall.pending

def HandlerWorld.authorityWritten (commandId : String) : Bool :=
  w.changes.any fun entry => entry.1 == commandId && entry.2.byAuthority

/-- An authority handler writes under an id under which nothing was changed, or is about to
be; a scheduling handler takes no step under one for which an authority handler has
written; and a stretch of a re-run has a database, finds what it reads, and raises
nothing. -/
def repeatsSafely : HandlerOp → Bool
  | .advance i x =>
    match w.calls[i]? with
    | none => true
    | some call =>
      (!writesAuthority call.order call.progress w.desk || call.context.commandId ∉ w.taken) &&
        (!call.order.receipted || !w.authorityWritten call.context.commandId) &&
        (!call.rerun || x.hasPool && !x.raises &&
          repeatable call.context call.order call.progress w.desk)
  | _ => true

/-- No command id has had two effects, and no re-run has failed. -/
structure EffectOnce (w : HandlerWorld) : Prop where
  once : (w.changes.map Prod.fst).Nodup
  reruns : ∀ call ∈ w.calls, call.rerun = true → call.progress.fails = false

/-! ## The invariant -/

structure HandlerSound (w : HandlerWorld) : Prop where
  /-- What the scheduling handlers have changed has a receipt, -/
  receipted : ∀ entry ∈ w.changes, entry.2.byAuthority = false →
    (w.desk.receipts.of entry.1).isSome = true
  /-- and so has what they are about to. -/
  claimed : ∀ call ∈ w.calls, ∀ commandId, call.pending = some commandId →
    (w.desk.receipts.of commandId).isSome = true
  once : Once HandlerCall.pending (w.changes.map Prod.fst) w.calls
  reruns : ∀ call ∈ w.calls, call.rerun = true → call.progress.fails = false

theorem handlerSound_fresh : HandlerSound .fresh where
  receipted := fun _ h => absurd h not_mem_nil
  claimed := fun _ h => absurd h not_mem_nil
  once := Once.nil _
  reruns := fun _ h => absurd h not_mem_nil

variable {w}

theorem HandlerSound.effectOnce (h : HandlerSound w) : EffectOnce w :=
  ⟨h.once.nodup, h.reruns⟩

variable {commandId : String}

/-- A call is about to run a job only when it is at that point. -/
theorem pending_eq_some {call : HandlerCall} :
    call.pending = some commandId ↔
      claims call.order call.progress = true ∧ call.context.commandId = commandId := by
  unfold HandlerCall.pending
  split
  · rename_i hclaims
    simp [hclaims]
  · rename_i hclaims
    simp [hclaims]

variable {env : HandlerEnv}

theorem called_of_handlerCall {op : CommandOp} {call : HandlerCall}
    (h : w.handlerCall env op = some call) :
    call.progress = .called := by
  cases op with
  | execute i =>
    simp only [HandlerWorld.handlerCall] at h
    split at h
    · split at h
      · obtain ⟨order, -, rfl⟩ := map_eq_some_iff.mp h
        rfl
      · cases h
    · cases h
  | _ => cases h

theorem pending_eq_none {call : HandlerCall} (h : claims call.order call.progress = false) :
    call.pending = none := by
  rw [HandlerCall.pending, h]
  rfl

theorem free_of_receipts (h : HandlerSound w) (hfree : w.desk.receipts.of commandId = none)
    (hwritten : w.authorityWritten commandId = false) : commandId ∉ w.taken := by
  intro htaken
  rcases mem_append.mp htaken with hchanged | hpending
  · obtain ⟨⟨id, change⟩, hentry, rfl⟩ := mem_map.mp hchanged
    cases hkind : change.byAuthority with
    | true =>
      have hany : w.authorityWritten id = true :=
        any_eq_true.mpr ⟨(id, change), hentry, by simp [hkind]⟩
      rw [hwritten] at hany
      cases hany
    | false =>
      have hreceipt := h.receipted _ hentry hkind
      rw [hfree] at hreceipt
      cases hreceipt
  · obtain ⟨call, hcall, hid⟩ := mem_filterMap.mp hpending
    have hreceipt := h.claimed call hcall commandId hid
    rw [hfree] at hreceipt
    cases hreceipt

variable {i : Nat}

theorem once_advance {call : HandlerCall} {m : Moved} (h : HandlerSound w)
    (hi : w.calls[i]? = some call) (hmoves : Moves call.context call.order call.progress w.desk m)
    (hauthority : writesAuthority call.order call.progress w.desk = true →
      call.context.commandId ∉ w.taken)
    (hwritten : call.order.receipted = true → w.authorityWritten call.context.commandId = false) :
    Once HandlerCall.pending
      ((w.changes ++ (m.change.map fun change =>
        (call.context.commandId, change)).toList).map Prod.fst)
      (w.calls.set i { call with progress := m.progress }) := by
  have hidle : claims call.order m.progress = false →
      HandlerCall.pending { call with progress := m.progress } = none := fun hclaims =>
    pending_eq_none hclaims
  have hpending : claims call.order call.progress = true →
      call.pending = some call.context.commandId := fun hclaims =>
    pending_eq_some.mpr ⟨hclaims, rfl⟩
  rw [map_append]
  cases hmoves with
  | still hchange _ hafter =>
    rw [hchange]
    simpa using h.once.idle hi (hidle hafter)
  | first hfree _ _ hreceipted hbefore hone =>
    have hfresh := free_of_receipts h hfree (hwritten hreceipted)
    cases hchange : m.change with
    | none =>
      simp only [map_none, toList_none, map_nil, append_nil]
      by_cases hclaims : claims call.order m.progress = true
      · exact h.once.enter hi (pending_eq_none hbefore)
          (pending_eq_some.mpr ⟨hclaims, rfl⟩) hfresh
      · exact h.once.idle hi (hidle (eq_false_iff.mpr hclaims))
    | some change =>
      have hafter := hone.resolve_left (by simp [hchange])
      exact h.once.record hi (hidle hafter) hfresh
  | ran hbefore hafter _ =>
    cases m.change with
    | none => simpa using h.once.idle hi (hidle hafter)
    | some change => exact h.once.finish hi (hpending hbefore) (hidle hafter)
  | authority _ _ hafter _ hwrites _ =>
    cases m.change with
    | none => simpa using h.once.idle hi (hidle hafter)
    | some change => exact h.once.record hi (hidle hafter) (hauthority hwrites)

/-- **A stretch.**  It changes something under an id under which nothing was changed. -/
theorem handlerSound_advance {call : HandlerCall} {x : Surroundings} (h : HandlerSound w)
    (hi : w.calls[i]? = some call) (hsafe : repeatsSafely w (.advance i x) = true) :
    HandlerSound (w.advance i call x) := by
  simp only [repeatsSafely, hi, and_eq_true, or_eq_true, not_eq_true',
    decide_eq_true_eq] at hsafe
  obtain ⟨⟨hauthority, hwritten⟩, hrepeats⟩ := hsafe
  have hmoves : Moves call.context call.order call.progress w.desk
      (advance call.context call.order call.progress x w.desk) := advance_moves
  have hmem := mem_of_getElem? hi
  refine ⟨fun entry hentry hkind => ?_, fun other hother id hid => ?_,
    once_advance h hi hmoves (fun hwrites => hauthority.resolve_left (by simp [hwrites]))
      (fun hreceipted => hwritten.resolve_left (by simp [hreceipted])),
    fun other hother hrerun => ?_⟩
  · rcases mem_append.mp hentry with hold | hnew
    · exact hmoves.kept (h.receipted entry hold hkind)
    · obtain ⟨change, hchange, rfl⟩ := map_eq_some_iff.mp (mem_toList.mp hnew)
      cases hmoves with
      | still hnone => rw [hnone] at hchange; cases hchange
      | first _ _ hrecorded => exact hrecorded
      | ran hbefore _ hreceipts =>
        rw [HandlerWorld.advance, hreceipts]
        exact h.claimed call hmem _ (pending_eq_some.mpr ⟨hbefore, rfl⟩)
      | authority _ _ _ _ _ hchanges =>
        rw [hchanges change hchange] at hkind
        cases hkind
  · rcases mem_or_eq_of_mem_set hother with hold | rfl
    · exact hmoves.kept (h.claimed other hold id hid)
    · obtain ⟨hclaims, rfl⟩ := pending_eq_some.mp hid
      cases hmoves with
      | first _ _ hrecorded => exact hrecorded
      | still _ _ hafter => exact absurd hclaims (eq_false_iff.mp hafter)
      | ran _ hafter => exact absurd hclaims (eq_false_iff.mp hafter)
      | authority _ _ hafter => exact absurd hclaims (eq_false_iff.mp hafter)
  · rcases mem_or_eq_of_mem_set hother with hold | rfl
    · exact h.reruns other hold hrerun
    · obtain ⟨⟨hpool, hraises⟩, hfinds⟩ := hrepeats.resolve_left (by simp_all)
      exact advance_fails hpool hraises hfinds (h.reruns call hmem hrerun)

theorem HandlerSound.desk (h : HandlerSound w) {desk : Desk}
    (hkept : ∀ id, (w.desk.receipts.of id).isSome = true → (desk.receipts.of id).isSome = true)
    : HandlerSound { w with desk := desk } :=
  ⟨fun entry hentry hkind => hkept _ (h.receipted entry hentry hkind),
    fun call hcall id hid => hkept id (h.claimed call hcall id hid), h.once, h.reruns⟩

theorem HandlerSound.call (h : HandlerSound w) {call : HandlerCall}
    (hcalled : call.progress = .called) :
    HandlerSound { w with calls := w.calls ++ [call] } := by
  have hidle : call.pending = none := pending_eq_none (by rw [hcalled]; rfl)
  refine ⟨h.receipted, fun other hother id hid => ?_, h.once.join hidle,
    fun other hother hrerun => ?_⟩
  · rcases mem_snoc.mp hother with hold | rfl
    · exact h.claimed other hold id hid
    · rw [hidle] at hid
      cases hid
  · rcases mem_snoc.mp hother with hold | rfl
    · exact h.reruns other hold hrerun
    · rw [hcalled]
      rfl

theorem HandlerSound.crash (h : HandlerSound w) {call : HandlerCall}
    (hi : w.calls[i]? = some call) :
    HandlerSound { w with calls := w.calls.set i { call with progress := .crashed } } := by
  refine ⟨h.receipted, fun other hother id hid => ?_, h.once.idle hi rfl,
    fun other hother hrerun => ?_⟩
  · rcases mem_or_eq_of_mem_set hother with hold | rfl
    · exact h.claimed other hold id hid
    · cases hid
  · rcases mem_or_eq_of_mem_set hother with hold | rfl
    · exact h.reruns other hold hrerun
    · rfl

/-- **The step lemma.** -/
theorem handlerSound_step {op : HandlerOp} (h : HandlerSound w)
    (hsafe : repeatsSafely w op = true) :
    HandlerSound (handlerStep env w op) := by
  cases op with
  | command op =>
    have hrows : HandlerSound { w with command := commandStep env.toEnv w.command op } :=
      ⟨h.receipted, h.claimed, h.once, h.reruns⟩
    simp only [handlerStep]
    cases hcall : w.handlerCall env op with
    | none => simpa using hrows
    | some call => exact hrows.call (called_of_handlerCall hcall)
  | advance i x =>
    cases hi : w.calls[i]? with
    | none => simpa only [handlerStep, hi] using h
    | some call =>
      simp only [handlerStep, hi]
      exact handlerSound_advance h hi hsafe
  | crash i =>
    simp only [handlerStep]
    split
    · exact h
    · rename_i call hi
      exact h.crash hi
  | receipt commandId commandType undoPayload =>
    exact h.desk fun id hid => receipt_kept commandId commandType undoPayload hid
  | elsewhere jobs runs authority => exact h.desk fun id hid => hid

/-- **At most one effect.**  Whatever is submitted, dispatched, reclaimed and dispatched
again, and wherever a handler's process goes down: no command id has two effects, and a
call of a handler whose command had had its effect does not fail, as long as re-runs find
what they read and the authority handlers write for an id that has had none. -/
theorem effect_once (env : HandlerEnv) (ops : List HandlerOp)
    (h : Meets (handlerStep env) (fun w op => repeatsSafely w op = true) .fresh ops) :
    Along (handlerStep env) EffectOnce .fresh ops :=
  (along_of_meets (fun _ _ hsound hsafe => handlerSound_step hsound hsafe)
    handlerSound_fresh h).mono fun _ hsound => hsound.effectOnce

/-! ## A desk -/

/-- `JobLifecyclePayload`. -/
def readLifecycle (text : String) : Option JobLifecyclePayload :=
  match loads text with
  | some (.obj [("job_id", .str jobId)]) => if jobId = "" then none else some ⟨jobId⟩
  | _ => none

/-- `AuthorityScopePayload`. -/
def readScope (text : String) : Option AuthorityScopePayload :=
  match loads text with
  | some (.obj [("scope_kind", .str scopeKind), ("scope_id", .str scopeId),
      ("command_type", .str commandType)]) =>
        if scopeKind ≠ "job" ∨ scopeId = "" ∨ commandType = "" then none
        else some ⟨.job, scopeId, commandType⟩
  | _ => none

def orderFields : Order → List (String × String)
  | .grant p | .revoke p =>
    [("scope_kind", "job"), ("scope_id", p.scopeId), ("command_type", p.commandType)]
  | .pauseJob p | .resumeJob p | .pauseOwlJob p | .resumeOwlJob p | .deleteJob p
  | .runNowJob p => [("job_id", p.jobId)]
  | .createJob _ | .editJob _ | .setOwlSchedule _ => []

/-- `model_dump_json()`, without blanks, and `json.dumps`, with them. -/
def dumpOrder (order : Order) : Payload where
  modelDumpJson := "\x7b" ++ ",".intercalate
    ((orderFields order).map fun field => quote field.1 ++ ":" ++ quote field.2) ++ "\x7d"
  dumps := undoText ((orderFields order).map fun field => (field.1, .str field.2))

/-- A desk that takes orders on jobs and authorities. -/
def deskEnv : HandlerEnv where
  models :=
    { lifecycle := readLifecycle, create := fun _ => none, edit := fun _ => none,
      snooze := fun _ => none, scope := readScope, dump := dumpOrder }
  others := { spec := fun _ => none, hasHandler := fun _ => false }
  journal := grantEnv.journal
  pendingApproval := grantEnv.pendingApproval

def reportJob : Job where
  jobId := "job-1"
  handlerName := "report"
  schedule := "every 1h"
  idempotencyKey := "report:job-1"
  nextRunAt := "2026-01-01T09:00:00"
  status := .pending
  params := [("run_once", .bool true)]

def jobThere : HandlerOp :=
  .elsewhere ⟨[reportJob], by simp [Job.primaryKey, Job.uniqueKey]⟩ []
    ⟨[], noAuthority_unique⟩

/-- A stretch in which nothing raises; a run that succeeds retires its job. -/
def smooth (hex : String) : Surroundings where
  hasPool := true
  now := "2026-01-01T08:00:00"
  hex := hex
  nextRun := fun _ => "2026-01-01T10:00:00"
  raises := false
  retires := true
  hasJobHandler := fun _ => true
  result := { success := true }
  settled := ⟨[], noJobs_unique⟩

def submitted (commandId commandType text requesterKind : String)
    (authorityGrantId : Option String) : HandlerOp :=
  .command (.submit "owner" commandId commandType text requesterKind authorityGrantId 0)

/-- The row of a command is claimed by its submitter and executed. -/
def executed (commandId : String) : List HandlerOp :=
  [.command (.claimInline "owner" ("cmd-" ++ commandId) "inline" 900 0),
    .command (.read 0), .command (.execute 0)]

/-- Its lease expires, and a tick dispatches it again, as dispatch `i`. -/
def reclaimed (commandId : String) (i : Nat) : List HandlerOp :=
  [.command (.store (.reclaimExpired "owner" 2000000000)),
    .command (.fetch "owner" ("cmd-" ++ commandId)),
    .command (.claim i "tick" 900 2001000000), .command (.execute i)]

/-- A pause commits; its process goes down before the row is finalized. -/
def pausedAndReclaimed : List HandlerOp :=
  [jobThere, submitted "p" PAUSE_JOB "\x7b\"job_id\":\"job-1\"\x7d" "owner" none] ++
    executed "p" ++ [.advance 0 (smooth "a")] ++ reclaimed "p" 1 ++
    [.advance 1 (smooth "b")]

/-- The pause has had its effect once, and both calls have succeeded. -/
theorem paused_once :
    Along (handlerStep deskEnv) EffectOnce .fresh pausedAndReclaimed ∧
      (run (handlerStep deskEnv) .fresh pausedAndReclaimed).changes = [("p", .paused)] ∧
      (run (handlerStep deskEnv) .fresh pausedAndReclaimed).succeeded = ["p", "p"] ∧
      (run (handlerStep deskEnv) .fresh pausedAndReclaimed).calls.map HandlerCall.rerun =
        [false, true] :=
  ⟨effect_once deskEnv pausedAndReclaimed (by decide +kernel), by decide +kernel⟩

/-- The gate parks the row of a command, its item `a1` is approved, and a tick dispatches
the row as dispatch 1. -/
def approved (commandId : String) : List HandlerOp :=
  executed commandId ++
    [.command (.park 0 0 false fun n => "a" ++ n.repr),
      .command (answer "a1" "approved" "b"),
      .command (.sweepList "owner" ("cmd-" ++ commandId)), .command (.sweepRead 0),
      .command (.sweepResume 0 [] 1 0), .command (.fetch "owner" ("cmd-" ++ commandId)),
      .command (.claim 1 "tick" 900 2), .command (.execute 1)]

/-- A grant commits; its process goes down before the row is finalized. -/
def grantedAndReclaimed : List HandlerOp :=
  [submitted "g" AUTHORITY_GRANT ("\x7b\"scope_kind\":\"job\",\"scope_id\":\"job-1\"," ++
    "\"command_type\":\"scheduling.delete_job\"\x7d") "owner" none] ++ approved "g" ++
    [.advance 0 (smooth "a")] ++ reclaimed "g" 2 ++ [.advance 1 (smooth "b")]

/-- A one-shot is run and retired; the process goes down before the row is finalized. -/
def retiredAndReclaimed : List HandlerOp :=
  [jobThere, submitted "r" RUN_NOW_JOB "\x7b\"job_id\":\"job-1\"\x7d" "autonomous"
    (some "grant-1")] ++ executed "r" ++ replicate 5 (.advance 0 (smooth "a")) ++
    reclaimed "r" 1 ++ [.advance 1 (smooth "b")]

/-- The re-run of the grant adds a second row, and that of the one-shot fails. -/
theorem regranted_and_retired :
    ¬ Along (handlerStep deskEnv) EffectOnce .fresh grantedAndReclaimed ∧
      (run (handlerStep deskEnv) .fresh grantedAndReclaimed).changes =
        [("g", .granted), ("g", .granted)] ∧
      (run (handlerStep deskEnv) .fresh grantedAndReclaimed).desk.authority.rows.map
        (fun row => (row.id, row.scopeId, row.revokedAt)) =
          [("a", "job-1", none), ("b", "job-1", none)] ∧
      ¬ Along (handlerStep deskEnv) EffectOnce .fresh retiredAndReclaimed ∧
      (run (handlerStep deskEnv) .fresh retiredAndReclaimed).succeeded = ["r"] ∧
      (run (handlerStep deskEnv) .fresh retiredAndReclaimed).calls.map
        (fun call => (call.rerun, call.progress.fails)) = [(false, false), (true, true)] := by
  have hgranted : (run (handlerStep deskEnv) .fresh grantedAndReclaimed).changes =
      [("g", .granted), ("g", .granted)] := by decide +kernel
  refine ⟨fun h => ?_, hgranted, by decide +kernel, fun h => ?_, by decide +kernel,
    by decide +kernel⟩
  · have honce := h.last.once
    rw [hgranted] at honce
    exact absurd honce (by decide)
  · exact absurd h.last.reruns (by decide +kernel)

end StackOwl.Commands
