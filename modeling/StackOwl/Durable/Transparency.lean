import StackOwl.Durable.Ledger

/-!
# What the ledger guard changes about a drive

`ledger_guard` around the calls of a ReAct loop that never crashes and whose tools
never raise (`pipeline/durable/ledger_guard.py`), with the checkpoint callback
(`make_checkpoint_callback`, `pipeline/durable/checkpoint_callback.py`) between the
iterations.  The loop awaits its calls one after another, so the guard is one function
here; `driveStep_of_ledgerGuard` is its relation to the awaits of
`StackOwl.Durable.Ledger`.

The tool is a function of the world, and what the model asks for next is a function of
the results of the iterations before.  The iteration a drive reports to the callback is
the `iter_budget.used - 1` of the provider: it starts at zero again when a drive resumes,
and repeats after a refunded round, so the indices are any list here.

## Main results

* `drive_iff` — a drive with a durable context shows the same calls and results as
  the drive without one exactly when no key of a side-effecting call is in the ledger
  before the call is made.
* `guard_transparent_iff` — that is, when no two side-effecting calls under one
  `ctx.iteration` are of one tool and one set of arguments, and the ledger has no row of
  the task for the calls of the drive.
-/

namespace StackOwl.Durable

open Lib List

variable {σ ρ : Type*} (sha256 : String → String) (codec : ResultCodec ρ)
  (clock : σ → Stamp) (tool : σ → ToolCall → ρ × σ)
  (plan : List (List ρ) → List ToolCall)

/-! ## One call -/

/-- The ledger, the world the tools act on, and the calls executed so far. -/
structure Machine (σ : Type*) where
  ledger : SideEffectTable
  world : σ
  executed : List ToolCall := []

def executeFn (m : Machine σ) (call : ToolCall) : ρ × Machine σ :=
  ((tool m.world call).1,
    { m with world := (tool m.world call).2, executed := m.executed ++ [call] })

/-- `begin` of a call that is not interrupted. -/
def beginCall (ctx : DurableContext) (m : Machine σ) (call : ToolCall) :
    Except GuardError (LedgerDecision × Machine σ) :=
  match m.ledger.find? (isSideEffect ctx.ownerId (ctx.keyOf sha256 call)) with
  | some r => .ok (decisionOf r, m)
  | none =>
    match m.ledger.insert (intentRow sha256 ctx call (clock m.world)) with
    | none => .error .integrity
    | some ledger => .ok (.proceed, { m with ledger })

/-- `ledger_guard` of a call that is not interrupted. -/
def ledgerGuard (active : Option DurableContext) (m : Machine σ) (call : ToolCall) :
    Except GuardError (ρ × Machine σ) :=
  match active with
  | none => .ok (executeFn tool m call)
  | some ctx =>
    if isSideEffecting call.severity then
      match beginCall sha256 clock ctx m call with
      | .error e => .error e
      | .ok (.alreadyCommitted result, m) => .ok (codec.deserialize result, m)
      | .ok (.uncertain, _) =>
        .error (.replayUncertain ctx.taskId ctx.iteration call.name)
      | .ok (.proceed, m) =>
        let (result, m) := executeFn tool m call
        .ok (result, { m with
          ledger := commitResult ctx.ownerId (ctx.keyOf sha256 call)
            (codec.dump result) m.ledger })
    else .ok (executeFn tool m call)

/-! ## The guard and its awaits -/

def awaits (i : Nat) (createdAt : Stamp) (result : ρ) : List (DriveOp ρ) :=
  [.select i, .insert i createdAt, .execute i, .finish i result, .commit i]

/-- How a call ends that the guard is done with. -/
def endOf : Except GuardError (ρ × Machine σ) → Phase ρ
  | .error e => .raised e
  | .ok (result, _) => .returned result

def ledgerAfter (m : Machine σ) : Except GuardError (ρ × Machine σ) → SideEffectTable
  | .error _ => m.ledger
  | .ok (_, m') => m'.ledger

theorem setPhase_last (ledger : SideEffectTable) (contexts : List (Option DurableContext))
    (l : List (Invocation ρ)) (inv inv' : Invocation ρ) (phase : Phase ρ) :
    Drives.setPhase ⟨ledger, contexts, l ++ [inv]⟩ l.length inv' phase =
      ⟨ledger, contexts, l ++ [{ inv' with phase }]⟩ := by
  simp [Drives.setPhase]

/-- **The guard is its awaits**: what it comes to when nothing interrupts it is what its steps
come to, one after another, beside any other drives. -/
theorem driveStep_of_ledgerGuard (s : Drives ρ) (d : Nat) (world : σ) (executed : List ToolCall)
    (call : ToolCall) :
    let m : Machine σ := ⟨s.ledger, world, executed⟩
    let out := ledgerGuard sha256 codec clock tool (s.context d) m call
    run (driveStep sha256 codec) s (.dispatch d call ::
        awaits s.invocations.length (clock world) (tool world call).1) =
      { s with
        ledger := ledgerAfter m out
        invocations := s.invocations ++
          [{ drive := d, call,
             guardedBy := if isSideEffecting call.severity then s.context d else none,
             phase := endOf out }] } := by
  obtain ⟨ledger, contexts, calls⟩ := s
  cases hctx : Drives.context (⟨ledger, contexts, calls⟩ : Drives ρ) d with
  | none =>
    simp [run, awaits, Drives.advanceCall, setPhase_last, driveStep, hctx, ledgerGuard,
      executeFn, endOf, ledgerAfter]
  | some ctx =>
    have hlive : ∀ ledger calls,
        Drives.context (⟨ledger, contexts, calls⟩ : Drives ρ) d = some ctx :=
      fun _ _ => hctx
    cases hside : isSideEffecting call.severity with
    | false =>
      simp [run, awaits, Drives.advanceCall, setPhase_last, driveStep, hside,
        ledgerGuard, executeFn, endOf, ledgerAfter]
    | true =>
      cases hfind :
          ledger.find? (isSideEffect ctx.ownerId (ctx.keyOf sha256 call)) with
      | some r =>
        cases hstatus : r.status <;>
          simp [run, awaits, Drives.advanceCall, setPhase_last, driveStep, hside,
            hlive, Drives.decide, hfind, decisionOf, hstatus, ledgerGuard, beginCall,
            endOf, ledgerAfter]
      | none =>
        cases hinsert :
            ledger.insert (intentRow sha256 ctx call (clock world)) <;>
          simp [run, awaits, Drives.advanceCall, setPhase_last, driveStep, hside,
            hlive, Drives.decide, hfind, hinsert, ledgerGuard, beginCall, executeFn,
            endOf, ledgerAfter]

/-! ## A drive -/

def runCalls (active : Option DurableContext) :
    Machine σ → List ToolCall → Except GuardError (List ρ × Machine σ)
  | m, [] => .ok ([], m)
  | m, call :: calls =>
    match ledgerGuard sha256 codec clock tool active m call with
    | .error e => .error e
    | .ok (result, m) =>
      match runCalls active m calls with
      | .error e => .error e
      | .ok (results, m) => .ok (result :: results, m)

/-- `_on_iter`, by what it does to the context. -/
def onIter (iteration : Nat) (ctx : DurableContext) : DurableContext :=
  { ctx with iteration := iteration + 1 }

/-- The next iterations of a loop: the results of each, and what they leave.  The
indices are those the provider reports at the end of each. -/
def drive : Option DurableContext → List Nat → List (List ρ) → Machine σ →
    Except GuardError (List (List ρ) × Machine σ)
  | _, [], _, m => .ok ([], m)
  | active, index :: indices, history, m =>
    match runCalls sha256 codec clock tool active m (plan history) with
    | .error e => .error e
    | .ok (results, m) =>
      match drive (active.map (onIter index)) indices (history ++ [results]) m with
      | .error e => .error e
      | .ok (rest, m) => .ok (results :: rest, m)

/-- What a drive shows: the results returned to the loop and the calls executed. -/
def observed : Except GuardError (List (List ρ) × Machine σ) →
    Except GuardError (List (List ρ) × List ToolCall) :=
  Except.map (fun out => (out.1, out.2.executed))

/-- The results and the world after the calls of one iteration, each executed. -/
def bareCalls : σ → List ToolCall → List ρ × σ
  | w, [] => ([], w)
  | w, call :: calls =>
    let rest := bareCalls (tool w call).2 calls
    ((tool w call).1 :: rest.1, rest.2)

/-- A call of a drive, and the `ctx.iteration` it is made under. -/
structure Dispatched where
  stepIndex : Nat
  call : ToolCall

def Dispatched.sideEffecting (d : Dispatched) : Bool := isSideEffecting d.call.severity

/-- The two calls are the same to `idempotency_key`. -/
def Dispatched.Same (d e : Dispatched) : Prop :=
  d.stepIndex = e.stepIndex ∧ d.call.name = e.call.name ∧
    canonicalArgs d.call.args = canonicalArgs e.call.args

/-- The calls a drive without a durable context asks for. -/
def dispatched : Nat → List Nat → List (List ρ) → σ → List Dispatched
  | _, [], _, _ => []
  | stepIndex, index :: indices, history, w =>
    let out := bareCalls tool w (plan history)
    (plan history).map (Dispatched.mk stepIndex) ++
      dispatched (index + 1) indices (history ++ [out.1]) out.2

/-! ## The keys of the calls -/

def DurableContext.keyAt (ctx : DurableContext) (d : Dispatched) : String :=
  ownedKey sha256 ctx.ownerId ctx.taskId d.stepIndex d.call.name d.call.args

/-- Each side-effecting call has a key of its own, that is not in the ledger. -/
def Unspent (key : Dispatched → String) (has : String → Bool) (calls : List Dispatched) :
    Prop :=
  (calls.filter Dispatched.sideEffecting).Pairwise (fun a b => key a ≠ key b) ∧
    ∀ d ∈ calls.filter Dispatched.sideEffecting, has (key d) = false

/-- The keys in the ledger after the calls. -/
def spent (key : Dispatched → String) (has : String → Bool) (calls : List Dispatched)
    (k : String) : Bool :=
  has k || calls.any (fun d => d.sideEffecting && key d == k)

variable {calls : List ToolCall} {call : ToolCall} {key : Dispatched → String}
  {has : String → Bool}

theorem unspent_nil : Unspent key has [] :=
  ⟨List.Pairwise.nil, fun _ h => absurd h not_mem_nil⟩

theorem spent_nil : spent key has [] = has := by
  funext k
  simp [spent]

theorem spent_append (before after : List Dispatched) :
    spent key has (before ++ after) = spent key (spent key has before) after := by
  funext k
  simp [spent, Bool.or_assoc]

theorem unspent_append {before after : List Dispatched} :
    Unspent key has (before ++ after) ↔
      Unspent key has before ∧ Unspent key (spent key has before) after := by
  have hspent : ∀ e, spent key has before (key e) = false ↔
      has (key e) = false ∧
        ∀ d ∈ before.filter Dispatched.sideEffecting, key d ≠ key e := by
    intro e
    simp [spent, mem_filter]
  simp only [Unspent, filter_append, pairwise_append, forall_mem_append, hspent]
  constructor
  · rintro ⟨⟨hbefore, hafter, hacross⟩, hold, hnew⟩
    exact ⟨⟨hbefore, hold⟩, hafter, fun e he => ⟨hnew e he, fun d hd => hacross d hd e he⟩⟩
  · rintro ⟨⟨hbefore, hold⟩, hafter, hnew⟩
    exact ⟨⟨hbefore, hafter, fun d hd e he => (hnew e he).2 d hd⟩, hold,
      fun e he => (hnew e he).1⟩

theorem unspent_cons {d : Dispatched} {calls : List Dispatched} :
    Unspent key has (d :: calls) ↔
      (d.sideEffecting = true → has (key d) = false) ∧
        Unspent key (spent key has [d]) calls := by
  rw [← singleton_append, unspent_append]
  refine and_congr_left' ?_
  cases hside : d.sideEffecting <;> simp [Unspent, hside]

/-! ## One call, specified -/

variable {t : SideEffectTable}

theorem find?_none_of_has {ownerId key : String} (h : t.has key = false)
    : t.find? (isSideEffect ownerId key) = none := by
  refine find?_eq_none.mpr fun r hr hkey => ?_
  simp only [isSideEffect, Bool.and_eq_true] at hkey
  rw [SideEffectTable.has, any_eq_false] at h
  exact h r hr hkey.2

theorem insert_isSome_of_has {r : SideEffectRow} (h : t.has r.idempotencyKey = false)
    : ∃ t', t.insert r = some t' := by
  refine Table.insert_isSome fun key hkey s hs i hr hsi => ?_
  obtain rfl := mem_singleton.mp hkey
  rw [SideEffectTable.has, any_eq_false] at h
  have hsame : s.idempotencyKey = r.idempotencyKey :=
    (Option.some.inj hsi).trans (Option.some.inj hr).symm
  exact h s hs (beq_iff_eq.mpr hsame)

variable {ctx : DurableContext}

theorem ledgerGuard_of_unspent {m : Machine σ}
    (h : isSideEffecting call.severity = true → m.ledger.has (ctx.keyOf sha256 call) = false) :
    ∃ ledger, ledgerGuard sha256 codec clock tool (some ctx) m call =
        .ok ((tool m.world call).1, ⟨ledger, (tool m.world call).2, m.executed ++ [call]⟩) ∧
      ledger.has = spent (ctx.keyAt sha256) m.ledger.has [⟨ctx.iteration, call⟩] := by
  cases hside : isSideEffecting call.severity with
  | false =>
    refine ⟨m.ledger, by simp [ledgerGuard, hside, executeFn], ?_⟩
    funext k
    simp [spent, Dispatched.sideEffecting, hside]
  | true =>
    have hfresh := h hside
    obtain ⟨ledger, hinsert⟩ := insert_isSome_of_has
      (r := intentRow sha256 ctx call (clock m.world)) hfresh
    refine ⟨commitResult ctx.ownerId (ctx.keyOf sha256 call)
      (codec.dump (tool m.world call).1) ledger, ?_, ?_⟩
    · simp [ledgerGuard, hside, beginCall, find?_none_of_has hfresh, hinsert, executeFn]
    · funext k
      rw [has_commitResult, (has_of_insert hinsert).2 k]
      simp only [spent, any_cons, any_nil, Dispatched.sideEffecting, hside, Bool.true_and,
        Bool.or_false]
      rfl

variable {m m' : Machine σ}

theorem ledgerGuard_of_spent {result : ρ} (hside : isSideEffecting call.severity = true)
    (h : m.ledger.has (ctx.keyOf sha256 call) = true)
    (hguard : ledgerGuard sha256 codec clock tool (some ctx) m call = .ok (result, m')) :
    m' = m := by
  simp only [ledgerGuard, hside, if_true, beginCall] at hguard
  cases hfind : m.ledger.find? (isSideEffect ctx.ownerId (ctx.keyOf sha256 call)) with
  | some r =>
    cases hstatus : r.status with
    | committed =>
      simp only [hfind, decisionOf, hstatus, Except.ok.injEq, Prod.mk.injEq] at hguard
      exact hguard.2.symm
    | intent => simp [hfind, decisionOf, hstatus] at hguard
  | none =>
    cases hinsert : m.ledger.insert (intentRow sha256 ctx call (clock m.world)) with
    | none => simp [hfind, hinsert] at hguard
    | some ledger =>
      have hfresh := (has_of_insert hinsert).1
      simp only [intentRow] at hfresh
      rw [h] at hfresh
      cases hfresh

variable {active : Option DurableContext}

theorem executed_ledgerGuard_le {result : ρ}
    (h : ledgerGuard sha256 codec clock tool active m call = .ok (result, m')) :
    m'.executed.length ≤ m.executed.length + 1 := by
  cases active with
  | none =>
    simp only [ledgerGuard, executeFn, Except.ok.injEq, Prod.mk.injEq] at h
    simp [← h.2]
  | some ctx =>
    by_cases hspent : isSideEffecting call.severity = true ∧
        m.ledger.has (ctx.keyOf sha256 call) = true
    · rw [ledgerGuard_of_spent sha256 codec clock tool hspent.1 hspent.2 h]
      exact Nat.le_succ _
    · have hfresh : isSideEffecting call.severity = true →
          m.ledger.has (ctx.keyOf sha256 call) = false :=
        fun hside => Bool.eq_false_iff.mpr fun hhas => hspent ⟨hside, hhas⟩
      obtain ⟨ledger, hguard, -⟩ :=
        ledgerGuard_of_unspent sha256 codec clock tool hfresh
      rw [hguard] at h
      simp only [Except.ok.injEq, Prod.mk.injEq] at h
      simp [← h.2]

/-! ## One iteration, specified -/

/-- Without a durable context every call is executed, and the ledger is not read. -/
theorem runCalls_none (m : Machine σ) (calls : List ToolCall) :
    runCalls sha256 codec clock tool none m calls =
      .ok ((bareCalls tool m.world calls).1,
        ⟨m.ledger, (bareCalls tool m.world calls).2, m.executed ++ calls⟩) := by
  induction calls generalizing m with
  | nil => simp [runCalls, bareCalls]
  | cons call calls ih =>
    simp [runCalls, ledgerGuard, executeFn, ih, bareCalls]

variable {results : List ρ}

theorem runCalls_cons_ok
    (h : runCalls sha256 codec clock tool active m (call :: calls) = .ok (results, m')) :
    ∃ result m₁ rest, ledgerGuard sha256 codec clock tool active m call = .ok (result, m₁) ∧
      runCalls sha256 codec clock tool active m₁ calls = .ok (rest, m') := by
  simp only [runCalls] at h
  split at h
  · cases h
  · rename_i result m₁ hcall
    split at h
    · cases h
    · rename_i rest m₂ hrest
      cases h
      exact ⟨result, m₁, rest, hcall, hrest⟩

theorem executed_runCalls_le
    (h : runCalls sha256 codec clock tool active m calls = .ok (results, m')) :
    m'.executed.length ≤ m.executed.length + calls.length := by
  induction calls generalizing m results with
  | nil =>
    simp only [runCalls, Except.ok.injEq, Prod.mk.injEq] at h
    simp [h.2]
  | cons call calls ih =>
    obtain ⟨result, m₁, rest, hcall, hrest⟩ := runCalls_cons_ok sha256 codec clock tool h
    have hhead := executed_ledgerGuard_le sha256 codec clock tool hcall
    have htail := ih hrest
    rw [length_cons]
    omega

/-- Unspent calls run as they do without a context, and spend their keys. -/
theorem runCalls_of_unspent
    (h : Unspent (ctx.keyAt sha256) m.ledger.has (calls.map (Dispatched.mk ctx.iteration))) :
    ∃ ledger, runCalls sha256 codec clock tool (some ctx) m calls =
        .ok ((bareCalls tool m.world calls).1,
          ⟨ledger, (bareCalls tool m.world calls).2, m.executed ++ calls⟩) ∧
      ledger.has =
        spent (ctx.keyAt sha256) m.ledger.has (calls.map (Dispatched.mk ctx.iteration)) := by
  induction calls generalizing m with
  | nil => exact ⟨m.ledger, by simp [runCalls, bareCalls], spent_nil.symm⟩
  | cons call calls ih =>
    obtain ⟨hcall, hrest⟩ := unspent_cons.mp h
    obtain ⟨ledger, hguard, hspent⟩ :=
      ledgerGuard_of_unspent sha256 codec clock tool hcall
    rw [← hspent] at hrest
    obtain ⟨ledger', hcalls, hkeys⟩ := ih
      (m := ⟨ledger, (tool m.world call).2, m.executed ++ [call]⟩) hrest
    refine ⟨ledger', by simp [runCalls, hguard, hcalls, bareCalls], ?_⟩
    rw [hkeys, hspent, ← spent_append]
    rfl

theorem unspent_of_runCalls
    (h : runCalls sha256 codec clock tool (some ctx) m calls = .ok (results, m'))
    (hall : m.executed.length + calls.length ≤ m'.executed.length) :
    Unspent (ctx.keyAt sha256) m.ledger.has (calls.map (Dispatched.mk ctx.iteration)) := by
  induction calls generalizing m results with
  | nil => exact unspent_nil
  | cons call calls ih =>
    obtain ⟨result, m₁, rest, hcall, hrest⟩ := runCalls_cons_ok sha256 codec clock tool h
    have htail := executed_runCalls_le sha256 codec clock tool hrest
    rw [length_cons] at hall
    -- a replayed first call would leave one call too few
    have hfresh : isSideEffecting call.severity = true →
        m.ledger.has (ctx.keyOf sha256 call) = false := by
      intro hside
      by_contra hhas
      have hsame := ledgerGuard_of_spent sha256 codec clock tool hside
        (by simpa using hhas) hcall
      rw [hsame] at htail
      omega
    obtain ⟨ledger, hguard, hspent⟩ :=
      ledgerGuard_of_unspent sha256 codec clock tool hfresh
    rw [hguard] at hcall
    simp only [Except.ok.injEq, Prod.mk.injEq] at hcall
    obtain ⟨-, rfl⟩ := hcall
    have hnext := ih hrest (by simp only [length_append, length_singleton]; omega)
    rw [hspent] at hnext
    exact unspent_cons.mpr ⟨hfresh, hnext⟩

/-! ## A drive, specified -/

variable {indices : List Nat} {history out : List (List ρ)}

theorem drive_cons_ok {index : Nat} :
    drive sha256 codec clock tool plan active (index :: indices) history m =
        .ok (out, m') ↔
      ∃ results m₁ rest,
        runCalls sha256 codec clock tool active m (plan history) = .ok (results, m₁) ∧
        drive sha256 codec clock tool plan (active.map (onIter index)) indices
          (history ++ [results]) m₁ = .ok (rest, m') ∧
        out = results :: rest := by
  simp only [drive]
  constructor
  · intro h
    split at h
    · cases h
    · rename_i results m₁ hcalls
      split at h
      · cases h
      · rename_i rest m₂ hrest
        simp only [Except.ok.injEq, Prod.mk.injEq] at h
        obtain ⟨rfl, rfl⟩ := h
        exact ⟨results, m₁, rest, hcalls, hrest, rfl⟩
  · rintro ⟨results, m₁, rest, hcalls, hrest, rfl⟩
    rw [hcalls]
    simp only [hrest]

/-- A drive with no durable context ends, and executes every call it asks for. -/
theorem drive_none_ok (stepIndex : Nat) (indices : List Nat) (history : List (List ρ))
    (m : Machine σ) :
    ∃ out m', drive sha256 codec clock tool plan none indices history m = .ok (out, m') ∧
      m'.executed = m.executed ++
        (dispatched tool plan stepIndex indices history m.world).map Dispatched.call := by
  induction indices generalizing stepIndex history m with
  | nil => exact ⟨_, _, rfl, by simp [dispatched]⟩
  | cons index indices ih =>
    obtain ⟨rest, m', hrest, hlog⟩ := ih (index + 1)
      (history ++ [(bareCalls tool m.world (plan history)).1])
      ⟨m.ledger, (bareCalls tool m.world (plan history)).2, m.executed ++ plan history⟩
    refine ⟨_, m', (drive_cons_ok sha256 codec clock tool plan).mpr
      ⟨_, _, rest, runCalls_none sha256 codec clock tool m _, hrest, rfl⟩, ?_⟩
    simp [hlog, dispatched, Function.comp_def]

/-- With the same results, a drive with a durable context executes no more calls. -/
theorem executed_drive_le {mb mb' : Machine σ}
    (h : drive sha256 codec clock tool plan active indices history m = .ok (out, m'))
    (hbare : drive sha256 codec clock tool plan none indices history mb = .ok (out, mb')) :
    m'.executed.length + mb.executed.length ≤ mb'.executed.length + m.executed.length := by
  induction indices generalizing active history out m mb with
  | nil =>
    simp only [drive, Except.ok.injEq, Prod.mk.injEq] at h hbare
    rw [← h.2, ← hbare.2, Nat.add_comm]
  | cons index indices ih =>
    obtain ⟨results, m₁, rest, hcalls, hrest, rfl⟩ :=
      (drive_cons_ok sha256 codec clock tool plan).mp h
    obtain ⟨results', mb₁, rest', hcalls', hrest', hout⟩ :=
      (drive_cons_ok sha256 codec clock tool plan).mp hbare
    cases hout
    have htail := ih hrest hrest'
    have hhead := executed_runCalls_le sha256 codec clock tool hcalls
    rw [runCalls_none] at hcalls'
    simp only [Except.ok.injEq, Prod.mk.injEq] at hcalls'
    have hbareHead : mb₁.executed.length =
        mb.executed.length + (plan history).length := by
      rw [← hcalls'.2, length_append]
    omega

theorem observed_eq_ok {x : Except GuardError (List (List ρ) × Machine σ)} :
    observed x = observed (.ok (out, m)) ↔
      ∃ m', x = .ok (out, m') ∧ m'.executed = m.executed := by
  cases x with
  | error e => simp [observed, Except.map]
  | ok x =>
    obtain ⟨out', m'⟩ := x
    simp [observed, Except.map]

/-- Two drives with the same first results show the same exactly when they show the
same from there on. -/
theorem observed_cons_inj (results : List ρ)
    {x y : Except GuardError (List (List ρ) × Machine σ)} :
    observed (match x with
        | .error e => .error e
        | .ok (rest, m) => .ok (results :: rest, m)) =
      observed (match y with
        | .error e => .error e
        | .ok (rest, m) => .ok (results :: rest, m)) ↔ observed x = observed y := by
  cases x <;> cases y <;> simp [observed, Except.map]

/-- **The drive lemma.**  A drive under a durable context shows what the bare drive
shows exactly when every key is unspent. -/
theorem drive_iff (ctx : DurableContext) (indices : List Nat) (history : List (List ρ))
    (m mb : Machine σ) (hworld : m.world = mb.world) (hexecuted : m.executed = mb.executed) :
    observed (drive sha256 codec clock tool plan (some ctx) indices history m) =
        observed (drive sha256 codec clock tool plan none indices history mb) ↔
      Unspent (ctx.keyAt sha256) m.ledger.has
        (dispatched tool plan ctx.iteration indices history m.world) := by
  induction indices generalizing ctx history m mb with
  | nil => simp [drive, observed, Except.map, hexecuted, dispatched, unspent_nil]
  | cons index indices ih =>
    have hbare := runCalls_none sha256 codec clock tool mb (plan history)
    obtain ⟨rest, mb', hrest, -⟩ := drive_none_ok sha256 codec clock tool plan
      (index + 1) indices (history ++ [(bareCalls tool mb.world (plan history)).1])
      ⟨mb.ledger, (bareCalls tool mb.world (plan history)).2, mb.executed ++ plan history⟩
    have hdrive : drive sha256 codec clock tool plan none (index :: indices) history mb =
        .ok ((bareCalls tool mb.world (plan history)).1 :: rest, mb') :=
      (drive_cons_ok sha256 codec clock tool plan).mpr ⟨_, _, rest, hbare, hrest, rfl⟩
    rw [dispatched, unspent_append]
    -- an unspent iteration leads both drives to the same world and the same log
    have hnext : Unspent (ctx.keyAt sha256) m.ledger.has
          ((plan history).map (Dispatched.mk ctx.iteration)) →
        (observed (drive sha256 codec clock tool plan (some ctx) (index :: indices)
            history m) = observed (drive sha256 codec clock tool plan none
              (index :: indices) history mb) ↔
          Unspent (ctx.keyAt sha256)
            (spent (ctx.keyAt sha256) m.ledger.has
              ((plan history).map (Dispatched.mk ctx.iteration)))
            (dispatched tool plan (index + 1) indices
              (history ++ [(bareCalls tool m.world (plan history)).1])
              (bareCalls tool m.world (plan history)).2)) := by
      intro hunspent
      obtain ⟨ledger, hcalls, hspent⟩ :=
        runCalls_of_unspent sha256 codec clock tool hunspent
      have hrec := ih (onIter index ctx)
        (history ++ [(bareCalls tool m.world (plan history)).1])
        ⟨ledger, (bareCalls tool m.world (plan history)).2, m.executed ++ plan history⟩
        ⟨mb.ledger, (bareCalls tool mb.world (plan history)).2,
          mb.executed ++ plan history⟩ (by rw [hworld]) (by rw [hexecuted])
      rw [← hspent]
      refine Iff.trans ?_ hrec
      simp only [drive, hcalls, hbare, Option.map_some, Option.map_none, ← hworld]
      exact observed_cons_inj _
    constructor
    · intro hsame
      rw [hdrive] at hsame
      obtain ⟨m', hguarded, hlog⟩ := observed_eq_ok.mp hsame
      obtain ⟨results, m₁, rest', hcalls, hdrive', hrests⟩ :=
        (drive_cons_ok sha256 codec clock tool plan).mp hguarded
      cases hrests
      have hle := executed_drive_le sha256 codec clock tool plan hdrive' hrest
      have hall : m.executed.length + (plan history).length ≤ m₁.executed.length := by
        rw [hlog, length_append, ← hexecuted] at hle
        omega
      have hunspent := unspent_of_runCalls sha256 codec clock tool hcalls hall
      exact ⟨hunspent, (hnext hunspent).mp (hdrive ▸ hsame)⟩
    · rintro ⟨hunspent, hlater⟩
      exact (hnext hunspent).mpr hlater

/-! ## Transparency -/

/-- What is hashed for the keys of the calls. -/
def hashedTexts (ownerId taskId : String) (calls : List Dispatched) : List String :=
  calls.flatMap fun d =>
    hashedFor sha256 ownerId taskId d.stepIndex d.call.name d.call.args

/-- **Transparency.**  A drive with a durable context shows the calls and the results
of the same drive without one exactly when the side-effecting calls under one
`ctx.iteration` differ from each other in the tool or the arguments, and the ledger has
no row for one of them before the drive. -/
theorem guard_transparent_iff (taskId ownerId : String) (start : Nat) (indices : List Nat)
    (history : List (List ρ)) (m : Machine σ)
    (hfree : HashChain.CollisionFree sha256 (hashedTexts sha256 ownerId taskId
      ((dispatched tool plan start indices history m.world).filter
        Dispatched.sideEffecting))) :
    observed (drive sha256 codec clock tool plan (some ⟨taskId, ownerId, start⟩) indices
        history m) =
      observed (drive sha256 codec clock tool plan none indices history m) ↔
    let calls := (dispatched tool plan start indices history m.world).filter
      Dispatched.sideEffecting
    calls.Pairwise (fun d e => ¬d.Same e) ∧
      ∀ d ∈ calls, m.ledger.has
        (ownedKey sha256 ownerId taskId d.stepIndex d.call.name d.call.args) = false := by
  rw [drive_iff sha256 codec clock tool plan ⟨taskId, ownerId, start⟩ indices history m m
    rfl rfl]
  have hkeys : ∀ {d e},
      d ∈ (dispatched tool plan start indices history m.world).filter
        Dispatched.sideEffecting →
      e ∈ (dispatched tool plan start indices history m.world).filter
        Dispatched.sideEffecting →
      (DurableContext.keyAt sha256 ⟨taskId, ownerId, start⟩ d ≠
        DurableContext.keyAt sha256 ⟨taskId, ownerId, start⟩ e ↔ ¬d.Same e) := by
    intro d e hd he
    exact not_congr (ownedKey_inj hfree
      (fun _ htext => mem_flatMap.mpr ⟨d, hd, htext⟩)
      (fun _ htext => mem_flatMap.mpr ⟨e, he, htext⟩))
  exact and_congr_left' (Pairwise.iff_of_mem (fun hd he => hkeys hd he))

/-- A world that counts, results that are its counts, and calls of two tools. -/
def countingTool (w : Nat) (_ : ToolCall) : Nat × Nat := (w, w + 1)

def countCodec : ResultCodec Nat where
  dump := Nat.repr
  validate := String.toNat?
  plainOutput := fun _ => 0

def writeNote : ToolCall where
  name := "write_file"
  args := [("path", .str "note.md"), ("content", .str "hello")]
  severity := "write"

def sendNote : ToolCall where
  name := "send_message"
  args := [("text", .str "hello")]
  severity := "consequential"

def emptyMachine : Machine Nat where
  ledger := ⟨[], fun _ _ => nodup_nil⟩
  world := 0

/-- A drive that is steered once: the second round repeats the index of the first. -/
theorem two_tools_transparent :
    observed (drive id countCodec (fun _ => 0) countingTool
        (fun history => if history.length = 1 then [] else [writeNote, sendNote])
        (some ⟨"task-1", "principal-default", 0⟩) [0, 0, 1] [] emptyMachine) =
      observed (drive id countCodec (fun _ => 0) countingTool
        (fun history => if history.length = 1 then [] else [writeNote, sendNote])
        none [0, 0, 1] [] emptyMachine) :=
  (guard_transparent_iff id countCodec (fun _ => 0) countingTool _ "task-1"
    "principal-default" 0 [0, 0, 1] [] emptyMachine (fun _ _ _ _ hsame => hsame)).mpr (by
      refine ⟨?_, fun call _ => rfl⟩
      simp [dispatched, bareCalls, Dispatched.sideEffecting, Dispatched.Same, writeNote,
        sendNote, isSideEffecting])

/-- The same call twice in one iteration is executed once. -/
theorem repeated_call_swallowed :
    observed (drive id countCodec (fun _ => 0) countingTool
        (fun _ => [writeNote, writeNote]) (some ⟨"task-1", "principal-default", 0⟩) [0] []
        emptyMachine) ≠
      observed (drive id countCodec (fun _ => 0) countingTool
        (fun _ => [writeNote, writeNote]) none [0] [] emptyMachine) := by
  intro hsame
  have hfresh := (drive_iff id countCodec (fun _ => 0) countingTool _
    ⟨"task-1", "principal-default", 0⟩ [0] [] emptyMachine emptyMachine rfl rfl).mp hsame
  simp [Unspent, dispatched, Dispatched.sideEffecting, writeNote, isSideEffecting] at hfresh

end StackOwl.Durable
