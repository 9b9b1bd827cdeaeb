import StackOwl.Durable.Delivery
import StackOwl.Durable.Sweeps

/-!
# The passes as runs

A recovery pass, a healing sweep, the scan of `claimable` and a gate's answer are
not transactions of their own: each is a sequence of store transactions, with
other work between them where the source awaits.  What holds of every run of `Op`
therefore holds across them.

## Main results

* `recover_via`, `livenessSweep_via`, `sweepEach_via`, `claimable_via` — the
  transactions each pass is made of.
* `Passes.inv` — an invariant of the transactions is one of the passes.
* `completedHasProof_passes` — completed rows keep their proof in every run of both.
-/

namespace StackOwl.Durable

open Lib

variable {db db' : Db} {op : Op}

theorem step_of_ok (h : op.transaction db = .ok db') :
    step db op = db' := by
  rw [step, h]

/-! ## Recovery -/

def Recovers : Op → Prop
  | .claimForRecovery .. => True
  | .updateStatus _ _ status _ => status = .running ∨ status = .failed
  | _ => False

variable (owner : String) (now : Stamp)

theorem reclaimOne_via (resumable : Resumable) (task : DurableTask) (countAttempt : Bool)
    (now : Stamp) (db : Db) :
    Via step Recovers db
      (reclaimOne owner resumable task countAttempt now db).1 := by
  unfold reclaimOne
  by_cases hexhausted : attemptsExhausted task = true
  · rw [if_pos hexhausted]
    exact Via.refl _ db
  · rw [if_neg hexhausted]
    cases hclaim : claimForRecovery owner task.taskId countAttempt now db with
    | error e => exact Via.refl _ db
    | ok out =>
      obtain ⟨db₁, claimed⟩ := out
      have hstep : step db (.claimForRecovery owner task.taskId countAttempt now)
          = db₁ := by
        apply step_of_ok
        rw [Op.transaction, hclaim]
        rfl
      have hfirst : Via step Recovers db db₁ := Via.single hstep trivial
      cases claimed with
      | false => exact hfirst
      | true =>
        dsimp only
        split
        · cases hreturn : returnToRunning owner task.taskId now db₁ with
          | error e => exact hfirst
          | ok out =>
            obtain ⟨db₂, written⟩ := out
            have hsecond : step db₁
                (.updateStatus owner task.taskId .running { now }) = db₂ := by
              apply step_of_ok
              rw [returnToRunning] at hreturn
              rw [Op.transaction, hreturn]
              rfl
            exact hfirst.trans (Via.single hsecond (.inl rfl))
        · exact hfirst

theorem reclaimEach_via (ownerOf : DurableTask → String) (resumable : Resumable)
    (countAttempt : Bool) (now : Stamp) (tasks : List DurableTask) (db : Db) :
    Via step Recovers db
      (reclaimEach ownerOf resumable countAttempt now tasks db).1 := by
  induction tasks generalizing db with
  | nil => exact Via.refl _ db
  | cons task tasks ih =>
    have hhead :=
      reclaimOne_via (ownerOf task) resumable task countAttempt now db
    exact hhead.trans (ih _)

theorem reapEach_via (zs : List DurableTask) (db : Db)
    : Via step Recovers db (reapEach owner now zs db) := by
  induction zs generalizing db with
  | nil => exact Via.refl _ db
  | cons z zs ih =>
    unfold reapEach
    cases hreap : terminalizeChild owner z.taskId .failed
        (some "abandoned: parent already terminal") now db with
    | error e => exact ih db
    | ok db₁ =>
      have hstep : step db (.updateStatus owner z.taskId .failed
          { result := some "abandoned: parent already terminal",
            terminal := true, now }) = db₁ := step_of_ok hreap
      have hhead : Via step Recovers db db₁ := Via.single hstep (.inr rfl)
      exact hhead.trans (ih db₁)

/-- Boot recovery is a run of claims, returns to `running` and reaped zombies. -/
theorem recover_via (resumable : Resumable) (now : Stamp) (db : Db)
    : Via step Recovers db (recover owner resumable now db).1 := by
  have hreaped := reapEach_via owner now (listZombieChildren owner db) db
  exact hreaped.trans (reclaimEach_via _ resumable false now _ _)

/-- The liveness sweep is a run of claims and returns to `running`. -/
theorem livenessSweep_via (staleAfter : Int) (resumable : Resumable) (now : Stamp) (db : Db) :
    Via step Recovers db (livenessSweep owner staleAfter resumable now db).1 :=
  reclaimEach_via _ resumable true now _ db

/-! ## Sweeps -/

/-- A healing sweep is a run of its own writes and of the transactions others
committed between them. -/
theorem sweepEach_via {statement : Row → Option Update} (opOf : Row → Op)
    (hop : ∀ r u, statement r = some u → (opOf r).transaction = runUpdate u)
    (others : Nat → List Op) (k : Nat) (rows : List Row) (db : Db) :
    Via step (fun op => (∃ j, op ∈ others j) ∨ ∃ r ∈ rows, op = opOf r) db
      (sweepEach (fun k db => run step db (others k)) statement k rows db).1 := by
  induction rows generalizing k db with
  | nil => exact Via.refl _ db
  | cons r rows ih =>
    have htail : ∀ k db, Via step
        (fun op => (∃ j, op ∈ others j) ∨ ∃ s ∈ r :: rows, op = opOf s) db
        (sweepEach (fun k db => run step db (others k)) statement k rows db).1 := by
      intro k db
      apply (ih k db).mono
      rintro op (hother | ⟨s, hs, hopOf⟩)
      · exact .inl hother
      · exact .inr ⟨s, List.mem_cons_of_mem _ hs, hopOf⟩
    unfold sweepEach
    cases hstatement : statement r with
    | none => exact htail k db
    | some u =>
      have hothers : Via step
          (fun op => (∃ j, op ∈ others j) ∨ ∃ s ∈ r :: rows, op = opOf s) db
          (run step db (others k)) :=
        ⟨others k, fun op hmem => .inl ⟨k, hmem⟩, rfl⟩
      dsimp only
      cases hexec : (run step db (others k)).execute u with
      | error e => exact hothers.trans (htail (k + 1) _)
      | ok out =>
        obtain ⟨db₁, n⟩ := out
        have hstep : step (run step db (others k)) (opOf r) = db₁ := by
          apply step_of_ok
          rw [hop r u hstatement, runUpdate, hexec]
          rfl
        have hwrite : Via step
            (fun op => (∃ j, op ∈ others j) ∨ ∃ s ∈ r :: rows, op = opOf s)
            (run step db (others k)) db₁ :=
          Via.single hstep (.inr ⟨r, List.mem_cons_self, rfl⟩)
        exact (hothers.trans hwrite).trans (htail (k + 1) db₁)

/-- The writes of `revive_undelivered_failures`. -/
def reviveOp (r : Row) : Op :=
  .revive owner r.taskId (revivedClass r) now

/-- The writes of `heal_unreachable_owners`. -/
def retireOp (r : Row) : Op :=
  .retire r.taskId now

theorem reviveUndeliveredFailures_via (lim : Int) (now : Stamp) (others : Nat → List Op) (db : Db) :
    Via step
      (fun op => (∃ j, op ∈ others j) ∨ ∃ r, op = reviveOp owner now r) db
      (reviveUndeliveredFailures owner lim now (fun k db => run step db (others k)) db).1 := by
  apply (sweepEach_via (reviveOp owner now) ?_ others 0 _ db).mono
  · rintro op (hother | ⟨r, -, hr⟩)
    · exact .inl hother
    · exact .inr ⟨r, hr⟩
  · intro r u hu
    cases hu
    rfl

theorem healUnreachableOwners_via (lim : Int) (now : Stamp)
    (others : Nat → List Op) (db : Db) :
    Via step (fun op => (∃ j, op ∈ others j) ∨ ∃ r, op = retireOp now r) db
      (healUnreachableOwners lim now (fun k db => run step db (others k)) db).1 := by
  apply (sweepEach_via (retireOp now) ?_ others 0 _ db).mono
  · rintro op (hother | ⟨r, -, hr⟩)
    · exact .inl hother
    · exact .inr ⟨r, hr⟩
  · intro r u hu
    unfold retireStatement at hu
    split at hu
    · cases hu
    · cases hu
      rfl

/-! ## Dispatch -/

def Cascades : Op → Prop
  | .cascade .. => True
  | _ => False

variable {owner} {now}

theorem rowReady_via {r : Row} {ready : Bool} (h : rowReady owner now r db = .ok (db', ready)) :
    Via step Cascades db db' := by
  unfold rowReady depsSatisfied at h
  split at h
  · cases h
    exact Via.refl _ _
  · split at h
    · cases h
      exact Via.refl _ _
    · rename_i d ds hfailed
      obtain ⟨cascading, -, h⟩ := bind_eq_ok h
      obtain ⟨db₁, hcascade, h⟩ := bind_eq_ok h
      have hstep : step db (.cascade owner r.taskId cascading (d :: ds) now) = db₁ :=
        step_of_ok hcascade
      cases h
      exact Via.single hstep trivial

variable {out : List DurableTask} {rows : List Row}

theorem scanReady_via (h : scanReady owner now rows db = .ok (db', out)) :
    Via step Cascades db db' := by
  induction rows generalizing db out with
  | nil =>
    cases h
    exact Via.refl _ _
  | cons r rows ih =>
    obtain ⟨⟨db₁, ready⟩, hrow, h⟩ := bind_eq_ok h
    obtain ⟨⟨db₂, rest⟩, hrest, h⟩ := bind_eq_ok h
    cases h
    exact (rowReady_via hrow).trans (ih hrest)

theorem firstReady_via {out : Option DurableTask}
    (h : firstReady owner now rows db = .ok (db', out)) :
    Via step Cascades db db' := by
  induction rows generalizing db with
  | nil =>
    cases h
    exact Via.refl _ _
  | cons r rows ih =>
    obtain ⟨⟨db₁, ready⟩, hrow, h⟩ := bind_eq_ok h
    have hhead := rowReady_via hrow
    cases ready with
    | true =>
      cases h
      exact hhead
    | false => exact hhead.trans (ih h)

/-- A `claimable` that answers is a run of cascades. -/
theorem claimable_via {lim : Int} {stamp : Stamp}
    (h : claimable owner lim stamp now db = .ok (db', out)) :
    Via step Cascades db db' := by
  obtain ⟨⟨db₁, offered⟩, hscan, h⟩ := bind_eq_ok h
  have hfirst := scanReady_via hscan
  dsimp only at h
  split at h
  · obtain ⟨⟨db₂, reserved⟩, hreserved, h⟩ := bind_eq_ok h
    have hboth := hfirst.trans (firstReady_via hreserved)
    cases reserved with
    | none =>
      cases h
      exact hboth
    | some command =>
      dsimp only at h
      split at h
      · cases h
        exact hboth
      · cases h
        exact hboth
  · cases h
    exact hfirst

/-! ## Failures and the gate's answer -/

variable {taskId : String}

/-- `fail_and_requeue` is its writing half, on the row it read. -/
theorem failAndRequeue_step {call : FailCall} {status : TaskStatus}
    (h : failAndRequeue owner taskId call db = .ok (db', status)) :
    ∃ row, get owner taskId db = .ok row ∧
      db' = step db (.failAndRequeue owner taskId row call) := by
  obtain ⟨row, hrow, hwrite⟩ := bind_eq_ok h
  have hcommits : (Op.failAndRequeue owner taskId row call).transaction db =
      .ok db' := by
    rw [Op.transaction, hwrite]
    rfl
  exact ⟨row, hrow, (step_of_ok hcommits).symm⟩

/-- `resume_command_after_answer` is one transaction: the approval, or a
`fail_and_requeue` of the row it read. -/
theorem resumeCommandAfterAnswer_step {approved : Bool} {reason : Option String}
    {permanentClasses : List String} {jitter : Int}
    (h : resumeCommandAfterAnswer owner taskId approved reason permanentClasses now jitter db =
      .ok db') :
    db' = step db (.resumeApproved owner taskId now) ∨
      ∃ row call, get owner taskId db = .ok row ∧
        db' = step db (.failAndRequeue owner taskId row call) := by
  cases approved with
  | true =>
    have hcommits : (Op.resumeApproved owner taskId now).transaction db = .ok db' :=
      h
    exact .inl (step_of_ok hcommits).symm
  | false =>
    obtain ⟨⟨db₁, status⟩, hfail, heq⟩ := bind_eq_ok h
    cases heq
    obtain ⟨row, hrow, hstep⟩ := failAndRequeue_step hfail
    exact .inr ⟨row, _, hrow, hstep⟩

/-! ## Proof across the passes -/

def OfAPass (op : Op) : Prop :=
  Recovers op ∨ Cascades op ∨ (∃ owner now r, op = reviveOp owner now r) ∨
    ∃ now r, op = retireOp now r

theorem noBareCompletion_pass {o i : String} (h : OfAPass op) : NoBareCompletion o i db op := by
  rcases h with h | h | ⟨owner, now, r, rfl⟩ | ⟨now, r, rfl⟩
  · cases op with
    | updateStatus owner taskId status fields =>
      intro _ _ hstatus
      subst hstatus
      rcases h with h | h <;> cases h
    | claimForRecovery => trivial
    | _ => cases h
  · cases op with
    | cascade => trivial
    | _ => cases h
  · trivial
  · trivial

/-! ## Runs of passes -/

/-- One transaction with `G`, or a pass; between the writes of a sweep others commit. -/
inductive Passes (G : Db → Op → Prop) : Db → Db → Prop
  | store {db : Db} {op : Op} (h : G db op) : Passes G db (step db op)
  | boot (owner : String) (resumable : Resumable) (now : Stamp) (db : Db) :
    Passes G db (recover owner resumable now db).1
  | sweep (owner : String) (staleAfter : Int) (resumable : Resumable) (now : Stamp) (db : Db) :
    Passes G db (livenessSweep owner staleAfter resumable now db).1
  | scan {owner : String} {lim : Int} {stamp now : Stamp} {db db' : Db} {out : List DurableTask}
    (h : claimable owner lim stamp now db = .ok (db', out)) : Passes G db db'
  | heal (lim : Int) (now : Stamp) (others : Nat → List Op) (db : Db)
    (h : ∀ k, ∀ op ∈ others k, ∀ s, G s op) :
    Passes G db (healUnreachableOwners lim now (fun k db => run step db (others k)) db).1
  | revive (owner : String) (lim : Int) (now : Stamp) (others : Nat → List Op) (db : Db)
    (h : ∀ k, ∀ op ∈ others k, ∀ s, G s op) :
    Passes G db
      (reviveUndeliveredFailures owner lim now (fun k db => run step db (others k)) db).1

/-- An invariant of the transactions is one of the passes. -/
theorem Passes.inv {G : Db → Op → Prop} {I : Db → Prop}
    (hstep : ∀ s op, I s → G s op ∨ OfAPass op → I (step s op)) (h : Passes G db db') (hI : I db) :
    I db' := by
  have hvia : ∀ {P : Op → Prop} {s s' : Db}, (∀ op, P op → (∀ s, G s op) ∨ OfAPass op) →
      Via step P s s' → I s → I s' := by
    intro P s s' hP hvia hI
    apply hvia.inv _ hI
    intro s op hs hop
    exact hstep s op hs ((hP op hop).imp_left fun hG => hG s)
  cases h with
  | store h => exact hstep _ _ hI (.inl h)
  | boot => exact hvia (fun _ h => .inr (.inl h)) (recover_via ..) hI
  | sweep => exact hvia (fun _ h => .inr (.inl h)) (livenessSweep_via ..) hI
  | scan h => exact hvia (fun _ h => .inr (.inr (.inl h))) (claimable_via h) hI
  | heal lim now others db h =>
    refine hvia ?_ (healUnreachableOwners_via lim now others db) hI
    rintro op (⟨k, hop⟩ | ⟨r, hr⟩)
    · exact .inl (h k op hop)
    · exact .inr (.inr (.inr (.inr ⟨now, r, hr⟩)))
  | revive owner lim now others db h =>
    refine hvia ?_ (reviveUndeliveredFailures_via owner lim now others db) hI
    rintro op (⟨k, hop⟩ | ⟨r, hr⟩)
    · exact .inl (h k op hop)
    · exact .inr (.inr (.inr (.inl ⟨owner, now, r, hr⟩)))

/-- **Completion keeps its proof** in every run of transactions and passes. -/
theorem completedHasProof_passes {o i : String}
    (h : Relation.ReflTransGen (Passes (NoBareCompletion o i)) Db.fresh db) :
    CompletedHasProof o i db := by
  induction h with
  | refl =>
    intro r hr
    cases hr
  | tail _ hpass ih =>
    apply hpass.inv _ ih
    rintro s op hs (hop | hop)
    · exact completedHasProof_step hs hop
    · exact completedHasProof_step hs (noBareCompletion_pass hop)

/-- A task is filed and claimed, and the process restarts and retires owners. -/
theorem completedHasProof_passes_restart :
    CompletedHasProof DEFAULT_PRINCIPAL_ID "task-1"
      (healUnreachableOwners 10 5 (fun _ db => db)
        (recover DEFAULT_PRINCIPAL_ID (fun _ _ => true) 4
          (step (step Db.fresh (.enqueue DEFAULT_PRINCIPAL_ID chatTask))
            (.claimForRecovery DEFAULT_PRINCIPAL_ID "task-1" true 3))).1).1 := by
  have hfiled : NoBareCompletion DEFAULT_PRINCIPAL_ID "task-1" Db.fresh
      (.enqueue DEFAULT_PRINCIPAL_ID chatTask) := by
    intro _ _ hstatus
    cases hstatus
  have hclaimed := (Relation.ReflTransGen.single (Passes.store hfiled)).tail
    (.store (show NoBareCompletion _ _ _ (.claimForRecovery DEFAULT_PRINCIPAL_ID "task-1" true 3)
      from trivial))
  exact completedHasProof_passes
    ((hclaimed.tail (.boot ..)).tail (.heal 10 5 (fun _ => []) _ (by simp)))

end StackOwl.Durable
