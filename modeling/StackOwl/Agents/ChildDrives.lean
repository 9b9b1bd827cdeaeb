import StackOwl.Durable.IdempotencyKey
import StackOwl.Durable.StoreSpec
import StackOwl.Lib.Run

/-!
# The drives of a delegated durable child

`_resolve_durable_child_scope` and the attempts of a ladder
(`tools/agents/delegate_task.py`), over `create_child_task` and `claim_child_lease`
of the task store.  A live drive of a parent and a recovery drive of the same parent
reach the same `delegate_task` call and derive the same child id.

Any number of drives, of any parents, are at any of their awaits at a time.  A store
call may raise before its statement or after it; the delegation then goes on process
local, under no child id.  `delegate` cancels the specialist it timed out on and
does not wait for it: the pipeline runs on until it has unwound.  A crash of
the process ends the drives and the pipelines and leaves the table.

The result of the claim is logged and then dropped: a drive that lost the lease goes
on under the child id all the same.

## Main results

* `oneDriver_of_free` — where every claim finds the lease free and a ladder waits for
  the pipeline it cancelled, a child has one row and one driver.
* `loser_drives` — a recovery drive that lost the lease starts a second pipeline.
-/

namespace StackOwl.Agents

open Lib List
open Durable (Db ChildSpec ToolArgs Stamp isKey idempotencyKey createChildTask
  claimChildLeaseSql supersedeChildSql terminalizeChild)

/-! ## The child id -/

/-- `derive_child_task_id`: the prefix of the key, of 32 characters. -/
def deriveChildTaskId (delegateKey : String) : String :=
  "child-" ++ Durable.clip 32 delegateKey

/-- A parent's drive at its `delegate_task` call: the parent's task, the owner its rows
are filed under, the iteration of its ReAct context and the arguments. -/
structure DelegateCall where
  parentTaskId : String
  owner : String
  iteration : Nat
  args : ToolArgs
  goal : String
  caller : String

def DelegateCall.delegateKey (sha256 : String → String) (call : DelegateCall) : String :=
  idempotencyKey sha256 call.parentTaskId call.iteration "delegate_task" call.args

def DelegateCall.spec (sha256 : String → String) (call : DelegateCall) : ChildSpec where
  childTaskId := deriveChildTaskId (call.delegateKey sha256)
  parentTaskId := call.parentTaskId
  parentOwl := call.caller
  delegateKey := call.delegateKey sha256
  goal := call.goal
  owlName := call.caller
  channel := "internal"

def DelegateCall.childTaskId (sha256 : String → String) (call : DelegateCall) : String :=
  (call.spec sha256).childTaskId

/-! ## Drives and pipelines -/

/-- `_DurableChildScope`: the no-op scope, or a child id, with the answer of the claim
that was logged on the way. -/
inductive Scope where
  | processLocal
  | durable (leaseWon : Bool)
  deriving DecidableEq

/-- Where a drive is: before the insert, between the insert and the claim, between two
attempts of its ladder, inside one, or past the ladder. -/
inductive Phase where
  | entered
  | created
  | resolved (scope : Scope)
  | awaiting (scope : Scope)
  | returned (scope : Scope)

def Phase.scope : Phase → Option Scope
  | .entered | .created => none
  | .resolved scope | .awaiting scope | .returned scope => some scope

structure Drive where
  call : DelegateCall
  phase : Phase := .entered

/-- One child pipeline that was started under a child id: by which drive, and whether
it is still running. -/
structure Pipeline where
  owner : String
  childTaskId : String
  drive : Nat
  running : Bool := true

/-- The database, the drives and the pipelines started so far. -/
structure DriveWorld where
  db : Db
  drives : List Drive := []
  pipelines : List Pipeline := []

/-- A store call that comes back, raises before its statement, or raises after it. -/
inductive StoreFault where
  | clean
  | before
  | after
  deriving DecidableEq

/-- One thing that can happen next. -/
inductive DriveOp where
  | enter (call : DelegateCall)
  | create (i : Nat) (now : Stamp) (fault : StoreFault)
  | claim (i : Nat) (now : Stamp) (fault : StoreFault)
  | attempt (i : Nat)
  | answered (i : Nat)
  | unwound (p : Nat)
  | supersede (i : Nat) (now : Stamp)
  | finish (i : Nat) (terminalOk : Bool) (now : Stamp)
  | crash

def DriveWorld.setPhase (w : DriveWorld) (i : Nat) (phase : Phase) : DriveWorld :=
  { w with drives := w.drives.modify i ({ · with phase }) }

section
variable (sha256 : String → String) (w : DriveWorld) (i : Nat)

/-- `create_child_task`, as the scope resolution calls it. -/
def createStep (now : Stamp) (fault : StoreFault) (call : DelegateCall) : DriveWorld :=
  if fault = StoreFault.before then w.setPhase i (.resolved .processLocal)
  else
    match createChildTask call.owner (call.spec sha256) now w.db with
    | .error _ => w.setPhase i (.resolved .processLocal)
    | .ok (db, _) =>
      { w with db }.setPhase i
        (if fault = StoreFault.clean then .created else .resolved .processLocal)

/-- `claim_child_lease`; whatever it answers, the scope has the child id. -/
def claimStep (now : Stamp) (fault : StoreFault) (call : DelegateCall) : DriveWorld :=
  if fault = StoreFault.before then w.setPhase i (.resolved .processLocal)
  else
    match w.db.execute
      (claimChildLeaseSql call.owner (call.childTaskId sha256) call.parentTaskId now) with
    | .error _ => w.setPhase i (.resolved .processLocal)
    | .ok (db, rowcount) =>
      { w with db }.setPhase i (.resolved
        (if fault = StoreFault.clean then .durable (rowcount == 1) else .processLocal))

/-- `_attempt`: `delegate` starts a specialist task, under the child id if there is
one. -/
def attemptStep (scope : Scope) (call : DelegateCall) :
    DriveWorld :=
  let w := w.setPhase i (.awaiting scope)
  match scope with
  | .processLocal => w
  | .durable _ =>
    { w with pipelines := w.pipelines ++ [⟨call.owner, call.childTaskId sha256, i, true⟩] }

/-- `_supersede_durable_child`; a store error is logged. -/
def supersedeStep (scope : Scope) (now : Stamp) (call : DelegateCall) :
    DriveWorld :=
  match scope with
  | .processLocal => w
  | .durable _ =>
    match w.db.execute (supersedeChildSql call.owner (call.childTaskId sha256) now) with
    | .error _ => w
    | .ok (db, _) => { w with db }

/-- `_terminalize_durable_child`; a store error is logged. -/
def finishStep (scope : Scope) (terminalOk : Bool) (now : Stamp) (call : DelegateCall)
    : DriveWorld :=
  let w := w.setPhase i (.returned scope)
  match scope with
  | .processLocal => w
  | .durable _ =>
    match terminalizeChild call.owner (call.childTaskId sha256)
        (if terminalOk then .completed else .failed) none now w.db with
    | .error _ => w
    | .ok db => { w with db }

def Pipeline.stop (p : Pipeline) : Pipeline := { p with running := false }

def Drive.kill (d : Drive) : Drive :=
  { d with phase := .returned (d.phase.scope.getD .processLocal) }

/-- What happens next, where it can happen. -/
def driveStep : DriveOp → DriveWorld
  | .enter call => { w with drives := w.drives ++ [{ call }] }
  | .create i now fault =>
    match w.drives[i]? with
    | some ⟨call, .entered⟩ => createStep sha256 w i now fault call
    | _ => w
  | .claim i now fault =>
    match w.drives[i]? with
    | some ⟨call, .created⟩ => claimStep sha256 w i now fault call
    | _ => w
  | .attempt i =>
    match w.drives[i]? with
    | some ⟨call, .resolved scope⟩ => attemptStep sha256 w i scope call
    | _ => w
  | .answered i =>
    match w.drives[i]? with
    | some ⟨_, .awaiting scope⟩ => w.setPhase i (.resolved scope)
    | _ => w
  | .unwound p => { w with pipelines := w.pipelines.modify p Pipeline.stop }
  | .supersede i now =>
    match w.drives[i]? with
    | some ⟨call, .resolved scope⟩ => supersedeStep sha256 w scope now call
    | _ => w
  | .finish i terminalOk now =>
    match w.drives[i]? with
    | some ⟨call, .resolved scope⟩ => finishStep sha256 w i scope terminalOk now call
    | _ => w
  | .crash =>
    { w with drives := w.drives.map Drive.kill, pipelines := w.pipelines.map Pipeline.stop }

/-! ## The law -/

/-- What is noted of a pipeline as it is started under a child id: whether its drive
had won the lease, and whether no other pipeline was running under the id. -/
structure Start where
  leaseWon : Bool
  alone : Bool
  deriving DecidableEq

/-- A pipeline is running under the child id. -/
def DriveWorld.busy (owner childTaskId : String) : Bool :=
  w.pipelines.any fun p => p.running && p.owner == owner && p.childTaskId == childTaskId

def noteStart (starts : List Start) : DriveOp → List Start
  | .attempt i =>
    match w.drives[i]? with
    | some ⟨call, .resolved (.durable leaseWon)⟩ =>
      starts ++ [⟨leaseWon, !w.busy call.owner (call.childTaskId sha256)⟩]
    | _ => starts
  | _ => starts

/-- The drive is past an insert that came back, and under the child id. -/
def Phase.minted : Phase → Bool
  | .created => true
  | phase => phase.scope.any (· ≠ .processLocal)

/-- A child has exactly one row once it is minted, and every pipeline under its id was
started by the winner of the lease while no other was running. -/
structure OneDriver (s : DriveWorld × List Start) : Prop where
  oneRow : ∀ d ∈ s.1.drives, d.phase.minted = true →
    s.1.db.tasks.rows.countP (isKey d.call.owner (d.call.childTaskId sha256)) = 1
  starts : ∀ start ∈ s.2, start.leaseWon = true ∧ start.alone = true

/-- Where the lost claim is not reached: a claim finds the lease free, and a ladder makes
a further attempt once the pipeline of the last one has unwound. -/
def LeaseFree (s : DriveWorld × List Start) : DriveOp → Prop
  | .claim i _ _ => ∀ d, s.1.drives[i]? = some d → ∀ r,
      s.1.db.find d.call.owner (d.call.childTaskId sha256) = some r → r.leaseOwner = none
  | .attempt i => ∀ p ∈ s.1.pipelines, p.drive = i → p.running = false
  | _ => True

instance (s : DriveWorld × List Start) (op : DriveOp) :
    Decidable (LeaseFree sha256 s op) :=
  match op with
  | .claim i _ _ =>
    decidable_of_iff
      (((s.1.drives[i]?).all fun d =>
        (s.1.db.find d.call.owner (d.call.childTaskId sha256)).all
          (·.leaseOwner.isNone)) = true)
      (by simp [LeaseFree, Option.all_eq_true])
  | .attempt i => inferInstanceAs (Decidable (∀ p ∈ s.1.pipelines, p.drive = i → _))
  | .enter _ | .create .. | .answered _ | .unwound _ | .supersede .. | .finish .. | .crash =>
    isTrue trivial

/-! ## What a step leaves alone -/

/-- The lease and the row of a child outlive a step that keeps them. -/
def KeepsRows (db db' : Db) : Prop :=
  ∀ owner childTaskId r, db.find owner childTaskId = some r →
    ∃ r', db'.find owner childTaskId = some r' ∧
      (r.leaseOwner ≠ none → r'.leaseOwner ≠ none)

theorem KeepsRows.refl (db : Db) : KeepsRows db db :=
  fun _ _ r h => ⟨r, h, id⟩

variable {db db' : Db}

theorem keepsRows_of_updates {u : Durable.Update} {events : List Durable.JournalEvent}
    (h : Durable.Updates u events db db')
    (hset : ∀ r, r.leaseOwner ≠ none → (u.set r).leaseOwner ≠ none) : KeepsRows db db' := by
  intro owner childTaskId r hr
  refine ⟨u.on r, by rw [h.find, hr]; rfl, fun hlease => ?_⟩
  unfold Durable.Update.on patch
  split
  · exact hset r hlease
  · exact hlease

variable {now : Stamp} {owner : String} {record : Durable.DurableTask}

theorem keepsRows_createChildTask {spec : ChildSpec}
    (h : createChildTask owner spec now db = .ok (db', record)) :
    KeepsRows db db' := by
  obtain rfl | hins := Durable.createChildTask_spec h
  · exact KeepsRows.refl _
  · exact fun o c r hr => ⟨r, by rw [hins.find, hr]; rfl, id⟩

theorem find_of_createChildTask {spec : ChildSpec}
    (h : createChildTask owner spec now db = .ok (db', record)) :
    ∃ r, db'.find owner spec.childTaskId = some r := by
  unfold createChildTask at h
  split at h
  all_goals
    obtain ⟨db₁, -, h⟩ := Durable.bind_eq_ok h
    obtain ⟨task, hget, heq⟩ := Durable.bind_eq_ok h
    cases heq
    unfold Durable.get at hget
    split at hget
    · cases hget
    · exact ⟨_, by assumption⟩

theorem keepsRows_terminalizeChild {taskId : String} {status : Durable.TaskStatus}
    {result : Option String} (h : terminalizeChild owner taskId status result now db = .ok db') :
    KeepsRows db db' := by
  obtain ⟨⟨db₁, written⟩, hupdate, heq⟩ := Durable.bind_eq_ok h
  cases heq
  unfold Durable.updateStatus at hupdate
  rw [if_neg (by simp)] at hupdate
  obtain ⟨_, -, hupdate⟩ := Durable.bind_eq_ok hupdate
  obtain ⟨⟨db₂, n⟩, hexec, heq⟩ := Durable.bind_eq_ok hupdate
  cases heq
  exact keepsRows_of_updates (Durable.updates_execute hexec) fun r hlease => hlease

/-- The drives of a run that are under a child id keep their call and their scope, the
rows and leases stay, and no pipeline starts. -/
structure Carries (w w' : DriveWorld) : Prop where
  minted : ∀ (i : Nat) (d' : Drive), w'.drives[i]? = some d' → d'.phase.minted = true →
    ∃ d : Drive, w.drives[i]? = some d ∧ d.call = d'.call ∧ d.phase.minted = true
  durableBack : ∀ (i : Nat) (d' : Drive) won, w'.drives[i]? = some d' →
    d'.phase.scope = some (.durable won) →
      ∃ d : Drive, w.drives[i]? = some d ∧ d.call = d'.call ∧ d.phase.scope = some (.durable won)
  durableOn : ∀ (i : Nat) (d : Drive) won, w.drives[i]? = some d →
    d.phase.scope = some (.durable won) →
    ∃ d' : Drive, w'.drives[i]? = some d' ∧ d'.call = d.call ∧ d'.phase.scope = some (.durable won)
  rows : KeepsRows w.db w'.db
  pipelines : ∀ p ∈ w'.pipelines, p.running = true → p ∈ w.pipelines

theorem setPhase_drives (j : Nat) (phase : Phase) :
    (w.setPhase i phase).drives[j]? =
      if i = j then w.drives[j]?.map ({ · with phase }) else w.drives[j]? := by
  show (w.drives.modify i _)[j]? = _
  by_cases h : i = j <;> simp [h]

variable {w} {i} {d : Drive}

theorem setPhase_self (hd : w.drives[i]? = some d) (phase : Phase) :
    (w.setPhase i phase).drives[i]? = some { d with phase } := by
  rw [setPhase_drives, if_pos rfl, hd]
  rfl

variable {phase : Phase}

theorem carries_setPhase (hd : w.drives[i]? = some d)
    (hminted : phase.minted = true → d.phase.minted = true)
    (hscope : ∀ won, phase.scope = some (.durable won) ↔ d.phase.scope = some (.durable won)) :
    Carries w (w.setPhase i phase) := by
  have hself := setPhase_self hd phase
  refine ⟨?_, ?_, ?_, KeepsRows.refl _, fun p hp _ => hp⟩
  · intro j d' hd' hm
    by_cases hij : i = j
    · subst hij
      obtain rfl := Option.some.inj (hself.symm.trans hd')
      exact ⟨d, hd, rfl, hminted hm⟩
    · rw [setPhase_drives, if_neg hij] at hd'
      exact ⟨d', hd', rfl, hm⟩
  · intro j d' won hd' hs
    by_cases hij : i = j
    · subst hij
      obtain rfl := Option.some.inj (hself.symm.trans hd')
      exact ⟨d, hd, rfl, (hscope won).mp hs⟩
    · rw [setPhase_drives, if_neg hij] at hd'
      exact ⟨d', hd', rfl, hs⟩
  · intro j e won he hs
    by_cases hij : i = j
    · subst hij
      obtain rfl := Option.some.inj (hd.symm.trans he)
      exact ⟨_, hself, rfl, (hscope won).mpr hs⟩
    · exact ⟨e, by rw [setPhase_drives, if_neg hij]; exact he, rfl, hs⟩

theorem carries_db (h : KeepsRows w.db db) :
    Carries w { w with db } :=
  ⟨fun _ d hd hm => ⟨d, hd, rfl, hm⟩, fun _ d _ hd hs => ⟨d, hd, rfl, hs⟩,
    fun _ d _ hd hs => ⟨d, hd, rfl, hs⟩, h, fun _ hp _ => hp⟩

theorem Carries.trans {w' w'' : DriveWorld} (h : Carries w w') (h' : Carries w' w'') :
    Carries w w'' := by
  refine ⟨?_, ?_, ?_, ?_, fun p hp hrun => h.pipelines p (h'.pipelines p hp hrun) hrun⟩
  · intro i d'' hd'' hm
    obtain ⟨d', hd', hcall', hm'⟩ := h'.minted i d'' hd'' hm
    obtain ⟨d, hd, hcall, hm⟩ := h.minted i d' hd' hm'
    exact ⟨d, hd, hcall.trans hcall', hm⟩
  · intro i d'' won hd'' hs
    obtain ⟨d', hd', hcall', hs'⟩ := h'.durableBack i d'' won hd'' hs
    obtain ⟨d, hd, hcall, hs⟩ := h.durableBack i d' won hd' hs'
    exact ⟨d, hd, hcall.trans hcall', hs⟩
  · intro i d won hd hs
    obtain ⟨d', hd', hcall, hs'⟩ := h.durableOn i d won hd hs
    obtain ⟨d'', hd'', hcall', hs''⟩ := h'.durableOn i d' won hd' hs'
    exact ⟨d'', hd'', hcall'.trans hcall, hs''⟩
  · intro owner childTaskId r hr
    obtain ⟨r', hr', hlease⟩ := h.rows owner childTaskId r hr
    obtain ⟨r'', hr'', hlease'⟩ := h'.rows owner childTaskId r' hr'
    exact ⟨r'', hr'', fun hl => hlease' (hlease hl)⟩

/-! ## The invariant -/

/-- Every minted child has its row, every drive under a child id won its lease, no two
of them share a child, and a running pipeline belongs to one of them. -/
structure DriveInv (s : DriveWorld × List Start) : Prop where
  minted : ∀ (i : Nat) d, s.1.drives[i]? = some d → d.phase.minted = true →
    ∃ r, s.1.db.find d.call.owner (d.call.childTaskId sha256) = some r
  leased : ∀ (i : Nat) d won, s.1.drives[i]? = some d →
    d.phase.scope = some (.durable won) → won = true ∧
      ∃ r, s.1.db.find d.call.owner (d.call.childTaskId sha256) = some r ∧
        r.leaseOwner ≠ none
  unique : ∀ (i j : Nat) d e won won', s.1.drives[i]? = some d → s.1.drives[j]? = some e →
    d.phase.scope = some (.durable won) → e.phase.scope = some (.durable won') →
    d.call.owner = e.call.owner → d.call.childTaskId sha256 = e.call.childTaskId sha256 →
      i = j
  running : ∀ p ∈ s.1.pipelines, p.running = true → ∃ d won,
    s.1.drives[p.drive]? = some d ∧ d.phase.scope = some (.durable won) ∧
      d.call.owner = p.owner ∧ d.call.childTaskId sha256 = p.childTaskId
  noted : ∀ start ∈ s.2, start.leaseWon = true ∧ start.alone = true

variable {sha256} {starts : List Start}

theorem DriveInv.carries {w' : DriveWorld} (h : DriveInv sha256 (w, starts)) (hc : Carries w w') :
    DriveInv sha256 (w', starts) := by
  refine ⟨?_, ?_, ?_, ?_, h.noted⟩
  · intro i d' hd' hm
    obtain ⟨d, hd, hcall, hm⟩ := hc.minted i d' hd' hm
    obtain ⟨r, hr⟩ := h.minted i d hd hm
    obtain ⟨r', hr', -⟩ := hc.rows _ _ r hr
    exact ⟨r', hcall ▸ hr'⟩
  · intro i d' won hd' hs
    obtain ⟨d, hd, hcall, hs⟩ := hc.durableBack i d' won hd' hs
    obtain ⟨hwon, r, hr, hlease⟩ := h.leased i d won hd hs
    obtain ⟨r', hr', hkept⟩ := hc.rows _ _ r hr
    exact ⟨hwon, r', hcall ▸ hr', hkept hlease⟩
  · intro i j d' e' won won' hd' he' hds hes howner hchild
    obtain ⟨d, hd, hdcall, hds⟩ := hc.durableBack i d' won hd' hds
    obtain ⟨e, he, hecall, hes⟩ := hc.durableBack j e' won' he' hes
    rw [← hdcall, ← hecall] at howner hchild
    exact h.unique i j d e won won' hd he hds hes howner hchild
  · intro p hp hrun
    obtain ⟨d, won, hd, hs, howner, hchild⟩ := h.running p (hc.pipelines p hp hrun) hrun
    obtain ⟨d', hd', hcall, hs'⟩ := hc.durableOn _ d won hd hs
    exact ⟨d', won, hd', hs', hcall ▸ howner, hcall ▸ hchild⟩

theorem carries_processLocal (hd : w.drives[i]? = some d) (hscope : d.phase.scope = none) :
    Carries w (w.setPhase i (.resolved .processLocal)) :=
  carries_setPhase hd (by simp [Phase.minted, Phase.scope])
    (fun won => by rw [hscope]; simp [Phase.scope])

/-- A drive under no child id moves on: to a child id it needs the child's row, and to a
durable scope the lease as well, and that nobody else drives the child. -/
theorem DriveInv.setPhase (h : DriveInv sha256 (w, starts)) (hd : w.drives[i]? = some d)
    (hidle : d.phase.scope = none)
    (hminted : phase.minted = true → ∃ r, w.db.find d.call.owner (d.call.childTaskId sha256) =
      some r)
    (hleased : ∀ won, phase.scope = some (.durable won) → won = true ∧ ∃ r,
      w.db.find d.call.owner (d.call.childTaskId sha256) = some r ∧ r.leaseOwner ≠ none)
    (halone : ∀ won, phase.scope = some (.durable won) → ∀ (j : Nat) (e : Drive) won', i ≠ j →
      w.drives[j]? = some e → e.phase.scope = some (.durable won')
      → ¬ (e.call.owner = d.call.owner ∧ e.call.childTaskId sha256 = d.call.childTaskId sha256)) :
    DriveInv sha256 (w.setPhase i phase, starts) := by
  have hself := setPhase_self hd phase
  have hother : ∀ {j : Nat}, i ≠ j → ∀ {e : Drive},
      (w.setPhase i phase).drives[j]? = some e → w.drives[j]? = some e := by
    intro j hij e he
    rwa [setPhase_drives, if_neg hij] at he
  refine ⟨?_, ?_, ?_, ?_, h.noted⟩
  · intro j e he hm
    by_cases hij : i = j
    · subst hij
      obtain rfl := Option.some.inj (hself.symm.trans he)
      exact hminted hm
    · exact h.minted j e (hother hij he) hm
  · intro j e won he hs
    by_cases hij : i = j
    · subst hij
      obtain rfl := Option.some.inj (hself.symm.trans he)
      exact hleased won hs
    · exact h.leased j e won (hother hij he) hs
  · intro j k e e' won won' he he' hes hes' howner hchild
    by_cases hij : i = j
    · subst hij
      obtain rfl := Option.some.inj (hself.symm.trans he)
      by_contra hik
      exact halone won hes k e' won' hik (hother hik he') hes' ⟨howner.symm, hchild.symm⟩
    · by_cases hik : i = k
      · subst hik
        obtain rfl := Option.some.inj (hself.symm.trans he')
        exact absurd ⟨howner, hchild⟩ (halone won' hes' j e won hij (hother hij he) hes)
      · exact h.unique j k e e' won won' (hother hij he) (hother hik he') hes hes' howner
          hchild
  · intro p hp hrun
    obtain ⟨e, won, he, hs, hkey⟩ := h.running p hp hrun
    have hne : i ≠ p.drive := by
      rintro rfl
      obtain rfl := Option.some.inj (hd.symm.trans he)
      rw [hidle] at hs
      cases hs
    refine ⟨e, won, ?_, hs, hkey⟩
    rw [setPhase_drives, if_neg hne]
    exact he

variable {call : DelegateCall} {fault : StoreFault}

theorem createStep_inv (h : DriveInv sha256 (w, starts))
    (hd : w.drives[i]? = some ⟨call, .entered⟩) :
    DriveInv sha256 (createStep sha256 w i now fault call, starts) := by
  unfold createStep
  split
  · exact h.carries (carries_processLocal hd rfl)
  · cases hcreate : createChildTask call.owner (call.spec sha256) now w.db with
    | error e => exact h.carries (carries_processLocal hd rfl)
    | ok out =>
      have hdb := carries_db (keepsRows_createChildTask hcreate)
      dsimp only
      split
      · exact (h.carries hdb).setPhase hd rfl (fun _ => find_of_createChildTask hcreate)
          (fun _ hs => nomatch hs) fun _ hs => nomatch hs
      · exact h.carries (hdb.trans (carries_processLocal hd rfl))

theorem claimStep_inv (h : DriveInv sha256 (w, starts)) (hd : w.drives[i]? = some ⟨call, .created⟩)
    (hfree : ∀ r, w.db.find call.owner (call.childTaskId sha256) = some r → r.leaseOwner = none) :
    DriveInv sha256 (claimStep sha256 w i now fault call, starts) := by
  unfold claimStep
  split
  · exact h.carries (carries_processLocal hd rfl)
  · cases hexec : w.db.execute
      (claimChildLeaseSql call.owner (call.childTaskId sha256) call.parentTaskId now) with
    | error e => exact h.carries (carries_processLocal hd rfl)
    | ok out =>
      obtain ⟨db, rowcount⟩ := out
      have hupd := Durable.updates_execute hexec
      have hdb := carries_db (w := w) (keepsRows_of_updates hupd (fun _ _ => nofun))
      have hbase := h.carries hdb
      dsimp only
      split
      · obtain ⟨r, hr⟩ := h.minted i _ hd rfl
        have hguard : (claimChildLeaseSql call.owner (call.childTaskId sha256)
            call.parentTaskId now).guard r = true := by
          show (isKey call.owner (call.childTaskId sha256) r && r.leaseOwner.isNone) = true
          rw [hfree r hr, Durable.isKey_iff.mpr (Durable.key_of_find hr)]
          rfl
        have hcount : (rowcount == 1) = true := by
          have hone := Durable.countP_of_key w.db
            (fun r (hg : (claimChildLeaseSql call.owner (call.childTaskId sha256)
              call.parentTaskId now).guard r = true) => (Bool.and_eq_true _ _ ▸ hg).1)
          rw [hr, Option.filter_some, if_pos hguard] at hone
          rw [(Durable.execute_ok hexec).2.2, hone]
          rfl
        rw [hcount]
        have hnew := hupd.find_matched hr hguard
        refine hbase.setPhase hd rfl (fun _ => ⟨_, hnew⟩) (fun won hs => ?_)
          fun _ _ j e won' _ he hes => ?_
        · obtain rfl : true = won := by simpa [Phase.scope] using hs
          exact ⟨rfl, _, hnew, nofun⟩
        · -- whoever drives the child holds its lease
          rintro ⟨howner, hchild⟩
          obtain ⟨-, r', hr', hlease⟩ := h.leased j e won' he hes
          rw [howner, hchild] at hr'
          exact hlease (hfree r' hr')
      · exact h.carries (hdb.trans (carries_processLocal hd rfl))

/-- An attempt is made by the one drive of the child, behind its own pipelines. -/
theorem attemptStep_inv {scope : Scope} (h : DriveInv sha256 (w, starts))
    (hd : w.drives[i]? = some ⟨call, .resolved scope⟩)
    (hunwound : ∀ p ∈ w.pipelines, p.drive = i → p.running = false) :
    DriveInv sha256 (attemptStep sha256 w i scope call,
      noteStart sha256 w starts (.attempt i)) := by
  have hcarry : Carries w (w.setPhase i (.awaiting scope)) :=
    carries_setPhase hd (fun hm => hm) (fun won => Iff.rfl)
  have hbase := h.carries hcarry
  cases scope with
  | processLocal =>
    have hnote : noteStart sha256 w starts (.attempt i) = starts := by
      simp only [noteStart, hd]
    rw [hnote]
    exact hbase
  | durable leaseWon =>
    have hnote : noteStart sha256 w starts (.attempt i) =
        starts ++ [⟨leaseWon, !w.busy call.owner (call.childTaskId sha256)⟩] := by
      simp only [noteStart, hd]
    rw [hnote]
    refine ⟨hbase.minted, hbase.leased, hbase.unique, ?_, ?_⟩
    · intro p hp hrun
      obtain hold | hnew := mem_append.mp hp
      · exact hbase.running p hold hrun
      · obtain rfl := mem_singleton.mp hnew
        obtain ⟨d', hd', hcall, hs⟩ := hcarry.durableOn i _ leaseWon hd rfl
        exact ⟨d', leaseWon, hd', hs, by rw [hcall], by rw [hcall]⟩
    · intro start hstart
      obtain hold | hnew := mem_append.mp hstart
      · exact h.noted start hold
      · obtain rfl := mem_singleton.mp hnew
        refine ⟨(h.leased i _ leaseWon hd rfl).1, ?_⟩
        show (!w.busy call.owner (call.childTaskId sha256)) = true
        rw [Bool.not_eq_true', DriveWorld.busy, any_eq_false]
        intro p hp hbusy
        simp only [Bool.and_eq_true, beq_iff_eq] at hbusy
        obtain ⟨⟨hrun, howner⟩, hchild⟩ := hbusy
        obtain ⟨d, won, hpd, hs, hdowner, hdchild⟩ := h.running p hp hrun
        have hsame := h.unique p.drive i d _ won leaseWon hpd hd hs rfl
          (hdowner.trans howner) (hdchild.trans hchild)
        rw [hunwound p hp hsame] at hrun
        cases hrun

theorem kill_scope (d : Drive) (won : Bool) :
    d.kill.phase.scope = some (.durable won) ↔ d.phase.scope = some (.durable won) := by
  show some (d.phase.scope.getD .processLocal) = _ ↔ _
  cases d.phase.scope with
  | none => simp
  | some scope => simp

theorem carries_crash (w : DriveWorld) :
    Carries w { w with
      drives := w.drives.map Drive.kill, pipelines := w.pipelines.map Pipeline.stop } := by
  have hget : ∀ j : Nat, (w.drives.map Drive.kill)[j]? = w.drives[j]?.map Drive.kill :=
    fun j => getElem?_map
  refine ⟨?_, ?_, ?_, KeepsRows.refl _, ?_⟩
  · intro j d' hd' hm
    obtain ⟨d, hd, rfl⟩ := Option.map_eq_some_iff.mp ((hget j).symm.trans hd')
    refine ⟨d, hd, rfl, ?_⟩
    unfold Drive.kill Phase.minted at hm
    unfold Phase.minted
    cases hphase : d.phase <;> simp_all [Phase.scope]
  · intro j d' won hd' hs
    obtain ⟨d, hd, rfl⟩ := Option.map_eq_some_iff.mp ((hget j).symm.trans hd')
    exact ⟨d, hd, rfl, (kill_scope d won).mp hs⟩
  · intro j d won hd hs
    exact ⟨d.kill, (hget j).trans (by rw [hd]; rfl), rfl, (kill_scope d won).mpr hs⟩
  · intro p hp hrun
    obtain ⟨q, -, rfl⟩ := mem_map.mp hp
    cases hrun

theorem carries_enter (w : DriveWorld) (call : DelegateCall) :
    Carries w { w with drives := w.drives ++ [{ call }] } := by
  have hold : ∀ (j : Nat) (d : Drive), (w.drives ++ [Drive.mk call .entered])[j]? = some d →
      w.drives[j]? = some d ∨ d = ⟨call, .entered⟩ := by
    intro j d hd
    rw [List.getElem?_append] at hd
    split at hd
    · exact Or.inl hd
    · exact Or.inr (List.mem_singleton.mp (List.mem_of_getElem? hd))
  refine ⟨?_, ?_, ?_, KeepsRows.refl _, fun p hp _ => hp⟩
  · intro j d' hd' hm
    obtain h | rfl := hold j d' hd'
    · exact ⟨d', h, rfl, hm⟩
    · cases hm
  · intro j d' won hd' hs
    obtain h | rfl := hold j d' hd'
    · exact ⟨d', h, rfl, hs⟩
    · cases hs
  · intro j d won hd hs
    exact ⟨d, (List.getElem?_append_left (List.getElem?_eq_some_iff.mp hd).1).trans hd, rfl, hs⟩

theorem carries_unwound (w : DriveWorld) (p : Nat) :
    Carries w { w with pipelines := w.pipelines.modify p Pipeline.stop } := by
  refine ⟨fun _ d hd hm => ⟨d, hd, rfl, hm⟩, fun _ d _ hd hs => ⟨d, hd, rfl, hs⟩,
    fun _ d _ hd hs => ⟨d, hd, rfl, hs⟩, KeepsRows.refl _, fun q hq hrun => ?_⟩
  obtain ⟨j, hj⟩ := getElem?_of_mem hq
  rw [getElem?_modify] at hj
  obtain ⟨q', hq', heq⟩ := Option.map_eq_some_iff.mp hj
  split at heq
  · rw [← heq] at hrun
    cases hrun
  · rw [← heq]
    exact mem_of_getElem? hq'

variable {s : DriveWorld × List Start}

theorem driveStep_inv {op : DriveOp} (h : DriveInv sha256 s) (hfree : LeaseFree sha256 s op) :
    DriveInv sha256 (watch (driveStep sha256) (noteStart sha256) s op) := by
  obtain ⟨w, starts⟩ := s
  cases op with
  | enter call => exact h.carries (carries_enter w call)
  | create i now fault =>
    show DriveInv sha256 (driveStep sha256 w (.create i now fault), starts)
    simp only [driveStep]
    split
    · exact createStep_inv h (by assumption)
    · exact h
  | claim i now fault =>
    show DriveInv sha256 (driveStep sha256 w (.claim i now fault), starts)
    simp only [driveStep]
    split
    · rename_i hd
      exact claimStep_inv h hd (hfree _ hd)
    · exact h
  | attempt i =>
    show DriveInv sha256
      (driveStep sha256 w (.attempt i), noteStart sha256 w starts (.attempt i))
    simp only [driveStep]
    split
    · rename_i hd
      exact attemptStep_inv h hd hfree
    · rename_i hnot
      have hnote : noteStart sha256 w starts (.attempt i) = starts := by
        simp only [noteStart]
        split
        · rename_i hd
          exact absurd hd (hnot _ _)
        · rfl
      rw [hnote]
      exact h
  | answered i =>
    show DriveInv sha256 (driveStep sha256 w (.answered i), starts)
    simp only [driveStep]
    split
    · rename_i hd
      exact h.carries (carries_setPhase hd (fun hm => hm) (fun won => Iff.rfl))
    · exact h
  | unwound p => exact h.carries (carries_unwound w p)
  | supersede i now =>
    show DriveInv sha256 (driveStep sha256 w (.supersede i now), starts)
    simp only [driveStep]
    split
    · unfold supersedeStep
      split
      · exact h
      · split
        · exact h
        · rename_i hexec
          exact h.carries (carries_db
            (keepsRows_of_updates (Durable.updates_execute hexec) fun r hlease => hlease))
    · exact h
  | finish i terminalOk now =>
    show DriveInv sha256 (driveStep sha256 w (.finish i terminalOk now), starts)
    simp only [driveStep]
    split
    · rename_i scope hd
      have hcarry : Carries w (w.setPhase i (.returned scope)) :=
        carries_setPhase hd (fun hm => hm) (fun won => Iff.rfl)
      simp only [finishStep]
      split
      · exact h.carries hcarry
      · split
        · exact h.carries hcarry
        · rename_i hdone
          exact h.carries (hcarry.trans (carries_db (keepsRows_terminalizeChild hdone)))
    · exact h
  | crash => exact h.carries (carries_crash w)

theorem DriveInv.oneDriver (h : DriveInv sha256 s) :
    OneDriver sha256 s := by
  refine ⟨fun d hd hm => ?_, h.noted⟩
  obtain ⟨i, hi⟩ := getElem?_of_mem hd
  obtain ⟨r, hr⟩ := h.minted i d hi hm
  rw [Durable.countP_of_key s.1.db (fun _ hkey => hkey), hr, Option.filter_some,
    if_pos (Durable.isKey_iff.mpr (Durable.key_of_find hr))]
  rfl

/-- In every run in which each claim finds the lease free and each ladder waits for the
pipeline it cancelled, a child has one row and one driver in every state. -/
theorem oneDriver_of_free (sha256 : String → String) (db : Db) (ops : List DriveOp)
    (h : Meets (watch (driveStep sha256) (noteStart sha256)) (LeaseFree sha256) ({ db }, []) ops) :
    Along (watch (driveStep sha256) (noteStart sha256)) (OneDriver sha256)
      ({ db }, []) ops := by
  have hinit : DriveInv sha256 (({ db } : DriveWorld), []) :=
    ⟨by simp, by simp, by simp, by simp, by simp⟩
  exact (along_of_meets (fun _ _ => driveStep_inv) hinit h).mono fun _ => DriveInv.oneDriver

end

/-! ## Runs of two drives -/

/-- A delegation of the parent `task-1`, at its first iteration. -/
def reading : DelegateCall where
  parentTaskId := "task-1"
  owner := "principal-default"
  iteration := 0
  args := []
  goal := "read the report"
  caller := "scout"

/-- The live drive claims its child, times out on the first attempt, waits for the
pipeline and makes the second. -/
theorem oneDriver_of_free_reading :
    let ops : List DriveOp :=
      [.enter reading, .create 0 1 .clean, .claim 0 2 .clean, .attempt 0, .answered 0,
        .unwound 0, .supersede 0 3, .attempt 0, .answered 0, .finish 0 true 4]
    Along (watch (driveStep id) (noteStart id)) (OneDriver id) ({ db := .fresh }, []) ops := by
  intro ops
  exact oneDriver_of_free id .fresh ops (by decide)

/-- The recovery drive of the same parent loses the lease and starts a second
pipeline while the first is running. -/
theorem loser_drives :
    ¬ ∀ (sha256 : String → String) (db : Db) (ops : List DriveOp),
      Along (watch (driveStep sha256) (noteStart sha256)) (OneDriver sha256)
        ({ db }, []) ops := by
  intro h
  have hlast := (h (fun _ => "key") .fresh
    [.enter reading, .create 0 1 .clean, .claim 0 2 .clean, .attempt 0,
      .enter reading, .create 1 3 .clean, .claim 1 4 .clean, .attempt 1]).last.starts
  have hstarts : ∃ starts, starts = (run (watch (driveStep (fun _ => "key"))
      (noteStart (fun _ => "key"))) ({ db := Db.fresh }, [])
      [.enter reading, .create 0 1 .clean, .claim 0 2 .clean, .attempt 0,
        .enter reading, .create 1 3 .clean, .claim 1 4 .clean, .attempt 1]).2 ∧
      starts = [⟨true, true⟩, ⟨false, false⟩] := ⟨_, rfl, by decide⟩
  obtain ⟨starts, hrun, heq⟩ := hstarts
  rw [← hrun, heq] at hlast
  exact absurd (hlast ⟨false, false⟩ (by simp)) (by decide)

end StackOwl.Agents
