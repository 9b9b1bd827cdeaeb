import StackOwl.Durable.IdempotencyKey
import StackOwl.Durable.Task
import StackOwl.Lib.Run
import StackOwl.Lib.Table

/-!
# The side-effect ledger and its guard

`SideEffectLedger` (`pipeline/durable/ledger.py`) and `ledger_guard`
(`pipeline/durable/ledger_guard.py`).  A side-effecting tool call of a durable task
is recorded as an intent before it runs and as committed, with its result, after.

`begin` awaits a `SELECT` and then an `INSERT`, and the guard awaits the tool and
the `UPDATE` of `commit` after that.  Any number of drives, of any tasks, are at any
of these awaits at a time; an operation moves one call by one of them, or ends it
by a crash.  The context of a drive is mutable: the guard reads its iteration
when it begins and again when it commits.

## Main results

* `starts_le_one` — a side-effecting call of a given task, iteration, tool and
  arguments starts at most once over a run of any drives.
* `final_never_starts` — a call that returned, raised or crashed executes nothing
  later.
* `ledger_at_most_once` — the two, with what a call does that finds a row.
-/

namespace StackOwl.Durable

open Lib Bool

/-! ## The table -/

/-- `_STATUS_INTENT` and `_STATUS_COMMITTED`. -/
inductive LedgerStatus where
  | intent
  | committed
  deriving DecidableEq

/-- One row of `side_effect_ledger`. -/
structure SideEffectRow where
  idempotencyKey : String
  taskId : String
  ownerId : String
  stepIndex : Nat
  toolName : String
  status : LedgerStatus
  resultBlob : Option String := none
  createdAt : Stamp

def sideEffectKey (r : SideEffectRow) : Option String := some r.idempotencyKey

/-- The `side_effect_ledger` table. -/
abbrev SideEffectTable := Table SideEffectRow String [sideEffectKey]

/-- `owner_id = ? AND idempotency_key = ?`. -/
def isSideEffect (ownerId key : String) (r : SideEffectRow) : Bool :=
  r.ownerId == ownerId && r.idempotencyKey == key

inductive LedgerDecision where
  | proceed
  | alreadyCommitted (result : Option String)
  | uncertain

/-- What `begin` decides on a row it finds. -/
def decisionOf (r : SideEffectRow) : LedgerDecision :=
  match r.status with
  | .committed => .alreadyCommitted r.resultBlob
  | .intent => .uncertain

/-- The `UPDATE` of `commit`. -/
def commitResult (ownerId key result : String) (t : SideEffectTable) :
    SideEffectTable :=
  (t.updateWhere (isSideEffect ownerId key)
    (fun r => { r with status := .committed, resultBlob := some result })).getD t

/-! ## Tool calls -/

def isSideEffecting (actionSeverity : String) : Bool := actionSeverity ≠ "read"

/-- One tool call, as `ledger_guard` receives it. -/
structure ToolCall where
  name : String
  args : ToolArgs
  severity : String

/-- `DurableReActContext`, by what the guard reads of it. -/
structure DurableContext where
  taskId : String
  ownerId : String
  iteration : Nat := 0
  deriving DecidableEq

/-- How results are stored: `model_dump_json`, `model_validate_json`, and the result
that carries a text which is no stored result. -/
structure ResultCodec (ρ : Type*) where
  dump : ρ → String
  validate : String → Option ρ
  plainOutput : String → ρ

/-- `_deserialize_result`. -/
def ResultCodec.deserialize {ρ : Type*} (codec : ResultCodec ρ)
    (blob : Option String) : ρ :=
  (codec.validate (blob.getD "")).getD (codec.plainOutput (blob.getD ""))

inductive GuardError where
  /-- `DurableReplayUncertain`. -/
  | replayUncertain (taskId : String) (stepIndex : Nat) (toolName : String)
  /-- The primary key refused the intent. -/
  | integrity
  /-- The tool raised. -/
  | tool

inductive Phase (ρ : Type*) where
  /-- The guard was entered. -/
  | ready
  /-- `begin` found no row. -/
  | selected
  /-- The intent is written. -/
  | intended
  /-- The tool is running. -/
  | executing
  /-- The tool returned, the result is not recorded yet. -/
  | executed (result : ρ)
  | returned (result : ρ)
  | raised (error : GuardError)
  | crashed

def Phase.final {ρ : Type*} : Phase ρ → Bool
  | .returned _ | .raised _ | .crashed => true
  | _ => false

/-- The intent of the call is written and the tool not started. -/
def Phase.isIntended {ρ : Type*} : Phase ρ → Bool
  | .intended => true
  | _ => false

/-- One call of a drive: the drive, the context as the guard found it if the call
is guarded, and where the call is. -/
structure Invocation (ρ : Type*) where
  drive : Nat
  call : ToolCall
  guardedBy : Option DurableContext
  phase : Phase ρ

variable {ρ : Type*} (sha256 : String → String) (codec : ResultCodec ρ)

def DurableContext.keyOf (ctx : DurableContext) (call : ToolCall) : String :=
  ownedKey sha256 ctx.ownerId ctx.taskId ctx.iteration call.name call.args

/-! ## Drives -/

/-- The ledger, the context each drive activated, if any, and every call so far. -/
structure Drives (ρ : Type*) where
  ledger : SideEffectTable
  contexts : List (Option DurableContext) := []
  invocations : List (Invocation ρ) := []

inductive DriveOp (ρ : Type*) where
  /-- A drive starts, with a durable context or without. -/
  | activate (ctx : Option DurableContext)
  /-- The checkpoint callback of a drive sets `ctx.iteration`. -/
  | advance (drive iteration : Nat)
  /-- A drive dispatches a tool call. -/
  | dispatch (drive : Nat) (call : ToolCall)
  /-- The `SELECT` of `begin`. -/
  | select (i : Nat)
  /-- The `INSERT` of `begin`. -/
  | insert (i : Nat) (createdAt : Stamp)
  /-- The guard calls `execute_fn`. -/
  | execute (i : Nat)
  /-- The tool returns. -/
  | finish (i : Nat) (result : ρ)
  /-- The tool raises. -/
  | fail (i : Nat)
  /-- The `UPDATE` of `commit`. -/
  | commit (i : Nat)
  /-- The process of the call dies, or its coroutine is cancelled. -/
  | crash (i : Nat)

variable (s : Drives ρ)

def Drives.context (drive : Nat) : Option DurableContext :=
  (s.contexts[drive]?).join

variable (inv : Invocation ρ)

def Drives.setPhase (i : Nat) (inv : Invocation ρ) (phase : Phase ρ) :
    Drives ρ :=
  { s with invocations := s.invocations.set i { inv with phase } }

/-- What the guard does after the `SELECT` of `begin`. -/
def Drives.decide (ctx : DurableContext) :
    Phase ρ :=
  match s.ledger.find? (isSideEffect ctx.ownerId (ctx.keyOf sha256 inv.call)) with
  | none => .selected
  | some r =>
    match decisionOf r with
    | .alreadyCommitted result => .returned (codec.deserialize result)
    | .uncertain | .proceed =>
      .raised (.replayUncertain ctx.taskId ((s.context inv.drive).getD ctx).iteration inv.call.name)

def intentRow (ctx : DurableContext) (call : ToolCall) (createdAt : Stamp) :
    SideEffectRow where
  idempotencyKey := ctx.keyOf sha256 call
  taskId := ctx.taskId
  ownerId := ctx.ownerId
  stepIndex := ctx.iteration
  toolName := call.name
  status := .intent
  createdAt := createdAt

def Drives.advanceCall (i : Nat) (inv : Invocation ρ) :
    DriveOp ρ → Drives ρ
  | .select _ =>
    match inv.guardedBy, inv.phase with
    | some ctx, .ready => s.setPhase i inv (s.decide sha256 codec inv ctx)
    | _, _ => s
  | .insert _ createdAt =>
    match inv.guardedBy, inv.phase with
    | some ctx, .selected =>
      match s.ledger.insert (intentRow sha256 ctx inv.call createdAt) with
      | none => s.setPhase i inv (.raised .integrity)
      | some ledger => { s with ledger }.setPhase i inv .intended
    | _, _ => s
  | .execute _ =>
    match inv.guardedBy, inv.phase with
    | some _, .intended | none, .ready => s.setPhase i inv .executing
    | _, _ => s
  | .finish _ result =>
    match inv.guardedBy, inv.phase with
    | some _, .executing => s.setPhase i inv (.executed result)
    | none, .executing => s.setPhase i inv (.returned result)
    | _, _ => s
  | .fail _ =>
    match inv.phase with
    | .executing => s.setPhase i inv (.raised .tool)
    | _ => s
  | .commit _ =>
    match inv.guardedBy, inv.phase with
    | some ctx, .executed result =>
      let now := (s.context inv.drive).getD ctx
      { s with
        ledger := commitResult now.ownerId (now.keyOf sha256 inv.call)
          (codec.dump result) s.ledger }.setPhase i inv (.returned result)
    | _, _ => s
  | .crash _ => if inv.phase.final then s else s.setPhase i inv .crashed
  | .activate _ | .advance _ _ | .dispatch _ _ => s

def DriveOp.target : DriveOp ρ → Option Nat
  | .activate _ | .advance _ _ | .dispatch _ _ => none
  | .select i | .insert i _ | .execute i | .finish i _ | .fail i | .commit i
  | .crash i => some i

def driveStep (op : DriveOp ρ) : Drives ρ :=
  match op with
  | .activate ctx => { s with contexts := s.contexts ++ [ctx] }
  | .advance drive iteration =>
    { s with
      contexts := s.contexts.modify drive
        (fun ctx => ctx.map ({ · with iteration })) }
  | .dispatch drive call =>
    let ctx := if isSideEffecting call.severity then s.context drive else none
    { s with
      invocations := s.invocations ++
        [{ drive, call, guardedBy := ctx, phase := .ready }] }
  | .select i | .insert i _ | .execute i | .finish i _ | .fail i | .commit i
  | .crash i =>
    match s.invocations[i]? with
    | none => s
    | some inv => s.advanceCall sha256 codec i inv op

/-- A ledger as some earlier process left it, and no drive. -/
def Drives.fresh (ledger : SideEffectTable) : Drives ρ := { ledger }

/-! ## Counting the starts -/

/-- The number of guarded calls with `q` that an operation starts. -/
def starts (q : Nat → Invocation ρ → Bool) (s : Drives ρ) : DriveOp ρ → Nat
  | .execute i =>
    match s.invocations[i]? with
    | some inv => (inv.phase.isIntended && q i inv).toNat
    | none => 0
  | _ => 0

/-- The call is guarded under the given task, iteration, tool and arguments. -/
def Invocation.isCall (ownerId taskId : String) (stepIndex : Nat) (toolName : String)
    (args : ToolArgs) (inv : Invocation ρ) : Bool :=
  inv.guardedBy == some { taskId, ownerId, iteration := stepIndex } &&
    inv.call.name == toolName && canonicalArgs inv.call.args == canonicalArgs args

variable (key : String)

def Invocation.holds (inv : Invocation ρ) : Bool :=
  inv.phase.isIntended && inv.guardedBy.any (fun ctx => ctx.keyOf sha256 inv.call == key)

/-! ## At most one start -/

def SideEffectTable.has (t : SideEffectTable) (key : String) : Bool :=
  t.rows.any (fun r => r.idempotencyKey == key)

/-- What is left to start a call of a key with: the key itself, until it is in the
ledger, and the calls that hold its intent. -/
def unclaimed (s : Drives ρ) : Nat :=
  (!s.ledger.has key).toNat + s.invocations.countP (Invocation.holds sha256 key)

variable {i : Nat}

private theorem countP_set_add {α : Type*} {q : α → Bool} {l : List α} {a : α} (b : α)
    (h : l[i]? = some a) :
    (l.set i b).countP q + (q a).toNat = l.countP q + (q b).toNat := by
  obtain ⟨hi, rfl⟩ := List.getElem?_eq_some_iff.mp h
  have hle : (if q l[i] then 1 else 0) ≤ l.countP q := List.boole_getElem_le_countP hi
  rw [List.countP_set hi]
  cases hold : q l[i] <;> cases hnew : q b <;>
    simp only [hold, toNat_true, toNat_false, if_true, false_eq_true,
      if_false] at hle ⊢ <;> omega

theorem has_commitResult (ownerId key result k : String) (t : SideEffectTable) :
    (commitResult ownerId key result t).has k = t.has k := by
  unfold commitResult
  cases hupdate : t.updateWhere (isSideEffect ownerId key)
      (fun r => { r with status := .committed, resultBlob := some result }) with
  | none => rfl
  | some t' =>
    simp only [Option.getD_some, SideEffectTable.has, Table.rows_updateWhere hupdate,
      List.any_map]
    congr 1
    funext r
    simp only [Function.comp_apply, patch]
    split <;> rfl

variable {r : SideEffectRow}

/-- The primary key admits an intent only where the ledger has no row of its key. -/
theorem has_of_insert {t t' : SideEffectTable} (h : t.insert r = some t') :
    t.has r.idempotencyKey = false ∧
      ∀ key, t'.has key = (t.has key || r.idempotencyKey == key) := by
  constructor
  · have hnone := Table.find?_none_of_insert h
      (q := fun s => s.idempotencyKey == r.idempotencyKey)
      (show sideEffectKey ∈ [sideEffectKey] from List.mem_cons_self)
      (i := r.idempotencyKey)
      (fun s hs => by simpa [sideEffectKey] using hs) rfl
    rw [SideEffectTable.has, ← not_eq_true, List.any_eq_true]
    rintro ⟨s, hs, hkey⟩
    exact List.find?_eq_none.mp hnone s hs hkey
  · intro key
    simp [SideEffectTable.has, Table.rows_insert h]

theorem isIntended_decide (ctx : DurableContext) :
    (s.decide sha256 codec inv ctx).isIntended = false := by
  unfold Drives.decide
  split
  · rfl
  · split <;> rfl

variable {inv} {s}

/-- A call that moves to a phase without the intent gives up what it held. -/
theorem unclaimed_setPhase (phase : Phase ρ) (h : s.invocations[i]? = some inv)
    (hphase : phase.isIntended = false) :
    unclaimed sha256 key (s.setPhase i inv phase) + (inv.holds sha256 key).toNat =
      unclaimed sha256 key s := by
  have hcount := countP_set_add (q := Invocation.holds sha256 key)
    { inv with phase } h
  have hnew : Invocation.holds sha256 key { inv with phase } = false := by
    simp [Invocation.holds, hphase]
  rw [hnew, toNat_false] at hcount
  simp only [unclaimed, Drives.setPhase]
  omega

variable {ctx : DurableContext}

/-- Writing an intent turns the key into a call that holds it. -/
theorem unclaimed_insert {createdAt : Stamp} {ledger : SideEffectTable}
    (h : s.invocations[i]? = some inv) (hguard : inv.guardedBy = some ctx)
    (hphase : inv.phase.isIntended = false)
    (hinsert : s.ledger.insert (intentRow sha256 ctx inv.call createdAt) = some ledger) :
    unclaimed sha256 key ({ s with ledger }.setPhase i inv .intended) ≤
      unclaimed sha256 key s := by
  obtain ⟨hfresh, hkeys⟩ := has_of_insert hinsert
  have hcount := countP_set_add (q := Invocation.holds sha256 key)
    { inv with phase := .intended } h
  have hheld : inv.holds sha256 key = false := by
    simp [Invocation.holds, hphase]
  have hholds : ({ inv with phase := .intended } : Invocation ρ).holds sha256 key =
      (ctx.keyOf sha256 inv.call == key) := by
    simp [Invocation.holds, Phase.isIntended, hguard]
  rw [hheld, hholds] at hcount
  simp only [unclaimed, Drives.setPhase, hkeys]
  by_cases hkey : ctx.keyOf sha256 inv.call = key
  · have habsent : s.ledger.has key = false := hkey ▸ hfresh
    simp only [hkey, beq_self_eq_true, Bool.toNat_true, Bool.toNat_false] at hcount
    simp only [intentRow, hkey, habsent, beq_self_eq_true, Bool.or_true, Bool.not_true,
      Bool.not_false, Bool.toNat_true, Bool.toNat_false]
    omega
  · have hne : (ctx.keyOf sha256 inv.call == key) = false := beq_false_of_ne hkey
    simp only [hne, Bool.toNat_false] at hcount
    simp only [intentRow, hne, Bool.or_false]
    omega

/-- The await that starts the tool pays for the start with the call's own claim. -/
theorem unclaimed_execute (h : s.invocations[i]? = some inv) :
    starts (fun _ inv => inv.holds sha256 key) s (.execute i) +
        unclaimed sha256 key (s.advanceCall sha256 codec i inv (.execute i)) ≤
      unclaimed sha256 key s := by
  have hset := unclaimed_setPhase sha256 key (.executing) h rfl
  have hweight : starts (fun _ inv => inv.holds sha256 key) s (.execute i) ≤
      (inv.holds sha256 key).toNat := by
    simp only [starts, h, Invocation.holds, ← Bool.and_assoc, Bool.and_self]
    exact le_rfl
  have hcases : s.advanceCall sha256 codec i inv (.execute i) = s.setPhase i inv .executing ∨
      s.advanceCall sha256 codec i inv (.execute i) = s ∧
        inv.holds sha256 key = false := by
    simp only [Drives.advanceCall, Invocation.holds]
    cases hguard : inv.guardedBy with
    | none => cases inv.phase <;> simp [Phase.isIntended]
    | some ctx => cases inv.phase <;> simp [Phase.isIntended]
  obtain heq | ⟨heq, hheld⟩ := hcases
  · rw [heq]
    omega
  · rw [hheld, Bool.toNat_false] at hweight
    rw [heq]
    omega

theorem unclaimed_advanceCall (h : s.invocations[i]? = some inv) (op : DriveOp ρ)
    (htarget : op.target = some i) :
    starts (fun _ inv => inv.holds sha256 key) s op +
        unclaimed sha256 key (s.advanceCall sha256 codec i inv op) ≤
      unclaimed sha256 key s := by
  cases op <;> simp only [starts, Drives.advanceCall]
  case activate ctx => cases htarget
  case advance drive iteration => cases htarget
  case dispatch drive call => cases htarget
  case select j =>
    split
    · rename_i ctx hguard hphase
      have := unclaimed_setPhase sha256 key _ h
        (isIntended_decide sha256 codec s inv ctx)
      omega
    · omega
  case insert j createdAt =>
    split
    · rename_i ctx hguard hphase
      have hselected : inv.phase.isIntended = false := by rw [hphase]; rfl
      split
      · have := unclaimed_setPhase sha256 key (.raised .integrity) h rfl
        omega
      · rename_i ledger hinsert
        have := unclaimed_insert sha256 key h hguard hselected hinsert
        omega
    · omega
  case execute j =>
    obtain rfl : j = i := Option.some.inj htarget
    exact unclaimed_execute sha256 codec key h
  case finish j result =>
    split
    · have := unclaimed_setPhase sha256 key (.executed result) h rfl
      omega
    · have := unclaimed_setPhase sha256 key (.returned result) h rfl
      omega
    · omega
  case fail j =>
    split
    · have := unclaimed_setPhase sha256 key (.raised .tool) h rfl
      omega
    · omega
  case commit j =>
    split
    · rename_i ctx result hguard hphase
      have hset := unclaimed_setPhase sha256 key (.returned result) h rfl
      have hkept : ∀ owner k text, unclaimed sha256 key
          ({ s with ledger := commitResult owner k text s.ledger }.setPhase i inv
            (.returned result)) =
          unclaimed sha256 key (s.setPhase i inv (.returned result)) := by
        intro owner k text
        simp [unclaimed, Drives.setPhase, has_commitResult]
      rw [hkept]
      omega
    · omega
  case crash j =>
    split
    · omega
    · have := unclaimed_setPhase sha256 key (.crashed) h rfl
      omega

/-- **The step lemma.**  Every step pays for the start of a call of a key with what
is left of the key. -/
theorem unclaimed_step (s : Drives ρ) (op : DriveOp ρ) :
    starts (fun _ inv => inv.holds sha256 key) s op +
        unclaimed sha256 key (driveStep sha256 codec s op) ≤
      unclaimed sha256 key s := by
  have hcall : ∀ i, op.target = some i →
      starts (fun _ inv => inv.holds sha256 key) s op +
          unclaimed sha256 key (match s.invocations[i]? with
            | none => s
            | some inv => s.advanceCall sha256 codec i inv op) ≤
        unclaimed sha256 key s := by
    intro i htarget
    cases hinv : s.invocations[i]? with
    | none =>
      cases op <;> simp only [DriveOp.target, reduceCtorEq, Option.some.injEq]
        at htarget <;> subst htarget <;> simp [starts, hinv]
    | some inv => exact unclaimed_advanceCall sha256 codec key hinv op htarget
  cases op with
  | activate ctx => simp [starts, driveStep, unclaimed]
  | advance drive iteration => simp [starts, driveStep, unclaimed]
  | dispatch drive call =>
    simp [starts, driveStep, unclaimed, List.countP_append, Invocation.holds,
      Phase.isIntended]
  | select i => exact hcall i rfl
  | insert i createdAt => exact hcall i rfl
  | execute i => exact hcall i rfl
  | finish i result => exact hcall i rfl
  | fail i => exact hcall i rfl
  | commit i => exact hcall i rfl
  | crash i => exact hcall i rfl

theorem unclaimed_fresh_le (ledger : SideEffectTable) :
    unclaimed sha256 key (Drives.fresh ledger : Drives ρ) ≤ 1 := by
  simp only [unclaimed, Drives.fresh, List.countP_nil, Nat.add_zero]
  exact toNat_le _

/-- A weight that is at most another at every step has at most its tally. -/
theorem tally_starts_mono {q q' : Nat → Invocation ρ → Bool}
    (h : ∀ i inv, inv.phase.isIntended = true → q i inv = true → q' i inv = true)
    (s : Drives ρ) (ops : List (DriveOp ρ)) :
    tally (driveStep sha256 codec) (starts q) s ops ≤
      tally (driveStep sha256 codec) (starts q') s ops := by
  have hweight : ∀ s (op : DriveOp ρ), starts q s op ≤ starts q' s op := by
    intro s op
    cases op with
    | execute i =>
      simp only [starts]
      cases s.invocations[i]? with
      | none => exact le_rfl
      | some inv =>
        cases hphase : inv.phase.isIntended with
        | false => simp [hphase]
        | true =>
          cases hq : q i inv with
          | false => simp [hq]
          | true => simp [hphase, hq, h i inv hphase hq]
    | _ => exact le_rfl
  induction ops generalizing s with
  | nil => exact le_rfl
  | cons op ops ih => exact Nat.add_le_add (hweight s op) (ih _)

/-- **At most one start.**  Over a run of any drives, a side-effecting call of a given
task, iteration, tool and arguments starts at most once. -/
theorem starts_le_one (ownerId taskId : String) (stepIndex : Nat) (toolName : String)
    (args : ToolArgs) (ledger : SideEffectTable) (ops : List (DriveOp ρ)) :
    tally (driveStep sha256 codec)
      (starts (fun _ inv => inv.isCall ownerId taskId stepIndex toolName args))
      (Drives.fresh ledger) ops ≤ 1 := by
  have hkey : ∀ (i : Nat) (inv : Invocation ρ), inv.phase.isIntended = true →
      inv.isCall ownerId taskId stepIndex toolName args = true →
        inv.holds sha256 (ownedKey sha256 ownerId taskId stepIndex toolName args)
          = true := by
    intro i inv hphase hcall
    simp only [Invocation.isCall, and_eq_true, beq_iff_eq] at hcall
    obtain ⟨⟨hguard, hname⟩, hargs⟩ := hcall
    simp [Invocation.holds, hphase, hguard, DurableContext.keyOf, ownedKey,
      idempotencyKey, hname, hargs]
  let key := ownedKey sha256 ownerId taskId stepIndex toolName args
  have hmono : tally (driveStep sha256 codec)
      (starts (fun _ inv => inv.isCall ownerId taskId stepIndex toolName args))
      (Drives.fresh ledger) ops ≤
      tally (driveStep sha256 codec) (starts (fun _ inv => inv.holds sha256 key))
        (Drives.fresh ledger) ops :=
    tally_starts_mono sha256 codec hkey _ ops
  have hpaid : tally (driveStep sha256 codec)
      (starts (fun _ inv => inv.holds sha256 key)) (Drives.fresh ledger) ops ≤
      unclaimed sha256 key (Drives.fresh ledger : Drives ρ) :=
    le_trans (Nat.le_add_right _ _)
      (tally_add_le_of_step (I := fun _ => True) (fun _ _ _ => trivial)
        (fun s op _ => unclaimed_step sha256 codec key s op) trivial ops)
  exact le_trans hmono (le_trans hpaid (unclaimed_fresh_le sha256 key ledger))

/-! ## Calls that are over -/

def Drives.outcomeOn (s : Drives ρ) (inv : Invocation ρ) (ctx : DurableContext)
    (r : SideEffectRow) : Phase ρ :=
  match r.status with
  | .committed => .returned (codec.deserialize r.resultBlob)
  | .intent =>
    .raised (.replayUncertain ctx.taskId ((s.context inv.drive).getD ctx).iteration inv.call.name)

theorem decide_of_find?
    (h : s.ledger.find? (isSideEffect ctx.ownerId (ctx.keyOf sha256 inv.call)) = some r) :
    s.decide sha256 codec inv ctx = s.outcomeOn codec inv ctx r := by
  simp only [Drives.decide, h, decisionOf, Drives.outcomeOn]
  cases r.status <;> rfl

theorem final_outcomeOn (s : Drives ρ) (inv : Invocation ρ) (ctx : DurableContext)
    (r : SideEffectRow) : (s.outcomeOn codec inv ctx r).final = true := by
  unfold Drives.outcomeOn
  split <;> rfl

variable {j : Nat} {inv' : Invocation ρ}

theorem getElem?_setPhase {phase : Phase ρ} (h : s.invocations[i]? = some inv) (hne : j ≠ i) :
    (s.setPhase j inv' phase).invocations[i]? = some inv := by
  rw [Drives.setPhase, List.getElem?_set_ne hne, h]

theorem advanceCall_of_final (hfinal : inv.phase.final = true) (op : DriveOp ρ) :
    s.advanceCall sha256 codec i inv op = s := by
  cases op <;> simp only [Drives.advanceCall] <;>
    cases hguard : inv.guardedBy <;> cases hphase : inv.phase <;>
    simp_all [Phase.final]

theorem getElem?_advanceCall (h : s.invocations[i]? = some inv) (hne : j ≠ i) (op : DriveOp ρ) :
    (s.advanceCall sha256 codec j inv' op).invocations[i]? = some inv := by
  unfold Drives.advanceCall
  split
  all_goals first
    | exact h
    | (split
       all_goals first
         | exact h
         | exact getElem?_setPhase h hne
         | (split
            · exact getElem?_setPhase h hne
            · exact getElem?_setPhase (s := { s with ledger := _ }) h hne))

theorem getElem?_driveStep_of_final (h : s.invocations[i]? = some inv)
    (hfinal : inv.phase.final = true) (op : DriveOp ρ) :
    (driveStep sha256 codec s op).invocations[i]? = some inv := by
  have hcall : ∀ j, (match s.invocations[j]? with
      | none => s
      | some inv' => s.advanceCall sha256 codec j inv' op).invocations[i]? =
        some inv := by
    intro j
    by_cases hji : j = i
    · subst hji
      simp only [h, advanceCall_of_final sha256 codec hfinal]
    · cases s.invocations[j]? with
      | none => exact h
      | some inv' => exact getElem?_advanceCall sha256 codec h hji op
  cases op with
  | activate ctx => exact h
  | advance drive iteration => exact h
  | dispatch drive call =>
    obtain ⟨hlt, -⟩ := List.getElem?_eq_some_iff.mp h
    simp only [driveStep, List.getElem?_append_left hlt, h]
  | select j => exact hcall j
  | insert j createdAt => exact hcall j
  | execute j => exact hcall j
  | finish j result => exact hcall j
  | fail j => exact hcall j
  | commit j => exact hcall j
  | crash j => exact hcall j

/-- The number of starts of the call with the given index. -/
def startsOf (i : Nat) : Drives ρ → DriveOp ρ → Nat := starts (fun j _ => j == i)

/-- **A call that is over executes nothing.** -/
theorem final_never_starts (h : s.invocations[i]? = some inv) (hfinal : inv.phase.final = true)
    (ops : List (DriveOp ρ)) :
    tally (driveStep sha256 codec) (startsOf i) s ops = 0 := by
  have hweight : ∀ s' (op : DriveOp ρ), s'.invocations[i]? = some inv →
      startsOf i s' op + 0 ≤ 0 := by
    intro s' op hs'
    cases op with
    | execute j =>
      simp only [startsOf, starts]
      by_cases hji : j = i
      · subst hji
        have hidle : inv.phase.isIntended = false := by
          cases hphase : inv.phase <;> simp_all [Phase.final, Phase.isIntended]
        simp [hs', hidle]
      · split <;> simp [hji]
    | _ => exact le_rfl
  have htally := tally_add_le_of_step (m := fun _ => 0)
    (I := fun s' => s'.invocations[i]? = some inv)
    (fun s' op hs' => getElem?_driveStep_of_final sha256 codec hs' hfinal op)
    (fun s' op hs' => hweight s' op hs') h ops
  omega

/-! ## At most once -/

/-- A guarded call is about to find a row of its key. -/
structure FindsRow (s : Drives ρ) (i : Nat) (inv : Invocation ρ) (ctx : DurableContext)
    (r : SideEffectRow) : Prop where
  call : s.invocations[i]? = some inv
  guarded : inv.guardedBy = some ctx
  ready : inv.phase = .ready
  found : s.ledger.find? (isSideEffect ctx.ownerId (ctx.keyOf sha256 inv.call)) = some r

theorem select_of_findsRow (h : FindsRow sha256 s i inv ctx r) :
    driveStep sha256 codec s (.select i) =
      s.setPhase i inv (s.outcomeOn codec inv ctx r) := by
  simp only [driveStep, h.call, Drives.advanceCall, h.guarded, h.ready,
    decide_of_find? sha256 codec h.found]

/-- **At most once.**  Over a run of any drives, a side-effecting call of a given task,
iteration, tool and arguments starts at most once; and a call that finds a row of its
key ends there, with the recorded result or with the refusal to replay, the ledger
untouched, and never starts. -/
theorem ledger_at_most_once (ledger : SideEffectTable) :
    (∀ (ownerId taskId : String) (stepIndex : Nat) (toolName : String) (args : ToolArgs)
      (ops : List (DriveOp ρ)), tally (driveStep sha256 codec)
        (starts (fun _ inv => inv.isCall ownerId taskId stepIndex toolName args))
        (Drives.fresh ledger) ops ≤ 1) ∧
    ∀ (before after : List (DriveOp ρ)) (i : Nat) (inv : Invocation ρ)
      (ctx : DurableContext) (r : SideEffectRow),
      FindsRow sha256 (run (driveStep sha256 codec) (Drives.fresh ledger) before) i inv
        ctx r →
      let s := run (driveStep sha256 codec) (Drives.fresh ledger) before
      driveStep sha256 codec s (.select i) =
          s.setPhase i inv (s.outcomeOn codec inv ctx r) ∧
        tally (driveStep sha256 codec) (startsOf i) s (.select i :: after) = 0 := by
  refine ⟨fun ownerId taskId stepIndex toolName args ops =>
    starts_le_one sha256 codec ownerId taskId stepIndex toolName args ledger ops, ?_⟩
  intro before after i inv ctx r hfinds
  have hstep := select_of_findsRow sha256 codec hfinds
  refine ⟨hstep, ?_⟩
  obtain ⟨hlt, -⟩ := List.getElem?_eq_some_iff.mp hfinds.call
  have hended : (driveStep sha256 codec
      (run (driveStep sha256 codec) (Drives.fresh ledger) before)
        (.select i)).invocations[i]? =
      some { inv with phase := (run (driveStep sha256 codec) (Drives.fresh ledger)
        before).outcomeOn codec inv ctx r } := by
    rw [hstep, Drives.setPhase, List.getElem?_set_self hlt]
  have hrest := final_never_starts sha256 codec hended
    (final_outcomeOn codec _ inv ctx r) after
  simp only [tally, hrest]
  rfl

/-- A codec that stores a text as it is. -/
def textCodec : ResultCodec String := ⟨id, some, id⟩

def sendReport : ToolCall := ⟨"send_message", [], "consequential"⟩

/-- A drive sends a report, ends at the given awaits, and is driven again. -/
def retried (ending : List (DriveOp String)) : Drives String :=
  run (driveStep id textCodec) (Drives.fresh ⟨[], fun _ _ => List.nodup_nil⟩)
    ([.activate (some ⟨"task-1", "principal-default", 0⟩), .dispatch 0 sendReport,
        .select 0, .insert 0 7] ++ ending ++
      [.activate (some ⟨"task-1", "principal-default", 0⟩), .dispatch 1 sendReport])

def retriedCall : Invocation String where
  drive := 1
  call := sendReport
  guardedBy := some ⟨"task-1", "principal-default", 0⟩
  phase := .ready

/-- Driven again after the commit, the call returns what was recorded; driven again after
a crash between the intent and the tool, it is refused. -/
theorem ledger_at_most_once_retried :
    let committed := retried [.execute 0, .finish 0 "sent", .commit 0]
    let crashed := retried [.crash 0]
    (driveStep id textCodec committed (.select 1) =
        committed.setPhase 1 retriedCall (.returned "sent") ∧
      tally (driveStep id textCodec) (startsOf 1) committed
        [.select 1, .insert 1 8, .execute 1] = 0) ∧
    driveStep id textCodec crashed (.select 1) =
        crashed.setPhase 1 retriedCall
          (.raised (.replayUncertain "task-1" 0 "send_message")) ∧
      tally (driveStep id textCodec) (startsOf 1) crashed
        [.select 1, .insert 1 8, .execute 1] = 0 := by
  have hretry := fun ending =>
    (ledger_at_most_once id textCodec ⟨[], fun _ _ => List.nodup_nil⟩).2
      ([.activate (some ⟨"task-1", "principal-default", 0⟩), .dispatch 0 sendReport,
          .select 0, .insert 0 7] ++ ending ++
        [.activate (some ⟨"task-1", "principal-default", 0⟩), .dispatch 1 sendReport])
      [.insert 1 8, .execute 1] 1 retriedCall ⟨"task-1", "principal-default", 0⟩
  constructor
  · exact hretry [.execute 0, .finish 0 "sent", .commit 0]
      { intentRow id ⟨"task-1", "principal-default", 0⟩ sendReport 7 with
        status := .committed, resultBlob := some "sent" } ⟨rfl, rfl, rfl, by rfl⟩
  · exact hretry [.crash 0]
      (intentRow id ⟨"task-1", "principal-default", 0⟩ sendReport 7) ⟨rfl, rfl, rfl, by rfl⟩

end StackOwl.Durable
