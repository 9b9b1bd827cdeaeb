import Mathlib.Data.List.Nodup
import StackOwl.Process.Registry

/-!
# The lifecycle of the process registry

What holds of the registry whatever order its calls, the exits of processes, cancellations and
restarts come in, and when the rest does.  A kill and a reap test that a handle is running and
write only after they have waited, so that one may write over what the other wrote; and a kill
gives its process up after a time, so that a sweep may prune one that is alive.

## Main results

* `lifecycle_iff` — where tokens are new, the registry keeps to its cap, loses no process, keeps
  what a terminal handle says, and kills what is overdue, in exactly the runs in which no call
  writes over another's end and no sweep prunes a process that is alive.
* `kill_overwrites_reap` — a run in which a kill writes over a reap.
-/

namespace StackOwl.Process

open Lib List

/-! ## What is claimed of a run -/

/-- The cap counts the running handles and the reservations; these are of starts in progress;
what was spawned is in the registry while its handle runs, and while its process does; and what
a sweep has seen overdue is terminal when it returns. -/
structure LifecycleHolds (maxProcesses : Nat) (w : RegistryWorld) : Prop where
  capped : (w.live : Int) + w.reserved ≤ maxProcesses
  released : (∀ call ∈ w.calls, call.starting = false) → w.reserved = 0
  tracked : ∀ h ∈ w.handles, h.isRunning = true → h.tracked = true
  supervised : ∀ t, w.transports[t]? = some none →
    ∃ h ∈ w.handles, h.transport = some t ∧ h.tracked = true
  swept : ∀ overdue autoKilled pruned, .over (.swept overdue autoKilled pruned) ∈ w.calls →
    ∀ j ∈ overdue, ∃ h, w.handles[j]? = some h ∧ h.isRunning = false

/-- A terminal handle says what it said. -/
def EndsStay (handles handles' : List ProcessHandle) : Prop :=
  ∀ (j : Nat) (h : ProcessHandle), handles[j]? = some h → h.isRunning = false →
    ∃ h' : ProcessHandle, handles'[j]? = some h' ∧ h'.status = h.status ∧
      h'.exitCode = h.exitCode

section
variable (maxProcesses : Nat) (maxLifetime deadPrune : Int) (catastrophic : List String → Bool)

/-- A terminal handle keeps its status and its exit code, until the program restarts. -/
def TerminalStays (w : RegistryWorld) (op : ProcessOp) : Prop :=
  match op with
  | .restart .. => True
  | op => EndsStay w.handles
      (registryStep maxProcesses maxLifetime deadPrune catastrophic w op).handles

/-- A sweep sees every running handle in the registry that is past its deadline. -/
def SweepSees (w : RegistryWorld) (op : ProcessOp) : Prop :=
  ∀ moment, op = .sweep moment → ∀ j h, w.handles[j]? = some h → h.tracked = true →
    h.isRunning = true → h.ttlDeadline ≤ moment → ∃ overdue,
      (registryStep maxProcesses maxLifetime deadPrune catastrophic w op).calls[w.calls.length]? =
        some (.sweep moment overdue overdue none 0) ∧ j ∈ overdue

end

def FreshToken (w : RegistryWorld) : ProcessOp → Prop
  | .spawn _ (.spawned _ token) _ _ => ∀ h ∈ w.handles, h.processId ≠ token
  | _ => True

instance (w : RegistryWorld) : ∀ op, Decidable (FreshToken w op)
  | .spawn _ (.spawned _ token) _ _ =>
    inferInstanceAs (Decidable (∀ h ∈ w.handles, h.processId ≠ token))
  | .spawn _ (.osError _) _ _ | .start .. | .gate .. | .poll .. | .kill .. | .sweep _
  | .proceed .. | .cancel _ | .exits .. | .restart .. => isTrue trivial

/-- A kill that comes to its writes finds the handle as its test did: the exit code is not
written where another kill has given the process up, and the status not where it was reaped. -/
def KillUnraced (w : RegistryWorld) (j : Nat) (stage : KillStage) (waited : Bool) : Prop :=
  ∀ h ∈ w.handles[j]?, match stage with
    | .terminating => True
    | .waiting => waited = true → (w.returncode h).isSome → h.status = .killed →
        h.exitCode ≠ none
    | .stopping => h.status = .running ∨ h.status = .killed

instance (w : RegistryWorld) (j : Nat) (stage : KillStage) (waited : Bool) :
    Decidable (KillUnraced w j stage waited) :=
  match stage with
  | .terminating => inferInstanceAs (Decidable (∀ h ∈ w.handles[j]?, True))
  | .waiting => inferInstanceAs (Decidable (∀ h ∈ w.handles[j]?, _ → _ → _ → _))
  | .stopping => inferInstanceAs (Decidable (∀ h ∈ w.handles[j]?, _ ∨ _))

/-- A call that comes to its writes finds the handle as its test did; two reaps write the
same. -/
def CallUnraced (w : RegistryWorld) (waited : Bool) : Call → Prop
  | .kill j stage => KillUnraced w j stage waited
  | .reap j _ => ∀ h ∈ w.handles[j]?, h.status ≠ .killed
  | .sweep _ _ _ (some (j, stage)) _ => KillUnraced w j stage waited
  | _ => True

instance (w : RegistryWorld) (waited : Bool) : ∀ call, Decidable (CallUnraced w waited call)
  | .kill j stage => inferInstanceAs (Decidable (KillUnraced w j stage waited))
  | .reap j _ => inferInstanceAs (Decidable (∀ h ∈ w.handles[j]?, _))
  | .sweep _ _ _ (some (j, stage)) _ => inferInstanceAs (Decidable (KillUnraced w j stage waited))
  | .sweep _ _ _ none _ | .gating .. | .spawning .. | .over _ => isTrue trivial

/-- No call writes over the end another has written. -/
def Unraced (w : RegistryWorld) : ProcessOp → Prop
  | .proceed i waited _ _ => ∀ call ∈ w.calls[i]?, CallUnraced w waited call
  | _ => True

instance (w : RegistryWorld) : ∀ op, Decidable (Unraced w op)
  | .proceed i waited _ _ =>
    inferInstanceAs (Decidable (∀ call ∈ w.calls[i]?, CallUnraced w waited call))
  | .spawn .. | .start .. | .gate .. | .poll .. | .kill .. | .sweep _ | .cancel _ | .exits ..
  | .restart .. => isTrue trivial

def CallPrunesExited (deadPrune : Int) (w : RegistryWorld) : Call → Prop
  | .sweep moment _ [] none _ => ∀ h ∈ w.handles, h.tracked = true →
      h.processId ∈ w.stale deadPrune moment → ∀ t ∈ h.transport, w.transports[t]? ≠ some none
  | _ => True

instance (deadPrune : Int) (w : RegistryWorld) :
    ∀ call, Decidable (CallPrunesExited deadPrune w call)
  | .sweep _ _ [] none _ =>
    inferInstanceAs (Decidable (∀ h ∈ w.handles, _ → _ → ∀ t ∈ h.transport, _))
  | .sweep _ _ (_ :: _) none _ | .sweep _ _ [] (some _) _ | .sweep _ _ (_ :: _) (some _) _
  | .kill .. | .reap .. | .gating .. | .spawning .. | .over _ => isTrue trivial

def PrunesExited (deadPrune : Int) (w : RegistryWorld) : ProcessOp → Prop
  | .proceed i _ _ _ => ∀ call ∈ w.calls[i]?, CallPrunesExited deadPrune w call
  | _ => True

instance (deadPrune : Int) (w : RegistryWorld) : ∀ op, Decidable (PrunesExited deadPrune w op)
  | .proceed i _ _ _ =>
    inferInstanceAs (Decidable (∀ call ∈ w.calls[i]?, _))
  | .spawn .. | .start .. | .gate .. | .poll .. | .kill .. | .sweep _ | .cancel _ | .exits ..
  | .restart .. => isTrue trivial

/-! ## The invariant -/

/-- What a sweep under way has seen is terminal, or still to be killed. -/
def SweepHolds (handles : List ProcessHandle) (overdue todo : List Nat)
    (killing : Option (Nat × KillStage)) : Prop :=
  ∀ j ∈ overdue, ∃ h, handles[j]? = some h ∧
    (h.isRunning = false ∨ j ∈ todo ∨ ∃ stage, killing = some (j, stage))

/-- What a call under way relies on. -/
def CallHolds (w : RegistryWorld) : Call → Prop
  | .reap j rc => ∃ h, w.handles[j]? = some h ∧ w.returncode h = some rc
  | .sweep _ overdue todo killing _ => SweepHolds w.handles overdue todo killing
  | .over (.swept overdue _ _) => SweepHolds w.handles overdue [] none
  | _ => True

structure HandleHolds (w : RegistryWorld) (h : ProcessHandle) : Prop where
  tracked : h.isRunning = true → h.tracked = true
  spawned : ∀ t ∈ h.transport, t < w.transports.length
  code : ∀ c, h.exitCode = some c → w.returncode h = some c
  ended : h.status = .exited ∨ h.status = .failed →
    ∃ c, h.exitCode = some c ∧ h.status = if c = 0 then .exited else .failed

/-- Ids are of one handle each, reservations of starts in progress; every process spawned has a
handle; and what is marked terminal is. -/
structure RegistryInv (maxProcesses : Nat) (w : RegistryWorld) : Prop where
  ids : (w.handles.map ProcessHandle.processId).Nodup
  capped : (w.live : Int) + w.reserved ≤ maxProcesses
  reserved : w.reserved = w.calls.countP Call.starting
  checkpoint : w.checkpoint.length ≤ maxProcesses
  handles : ∀ h ∈ w.handles, HandleHolds w h
  transports : ∀ t, t < w.transports.length → ∃ h ∈ w.handles, h.transport = some t
  owners : ∀ h ∈ w.handles, ∀ h' ∈ w.handles, ∀ t ∈ h.transport, h'.transport = some t →
    h'.processId = h.processId
  terminal : ∀ entry ∈ w.terminalAt, ∃ h ∈ w.handles, h.processId = entry.1 ∧
    h.isRunning = false
  calls : ∀ call ∈ w.calls, CallHolds w call

theorem RegistryInv.init (maxProcesses : Nat) : RegistryInv maxProcesses {} where
  ids := nodup_nil
  capped := by simp [RegistryWorld.live]
  reserved := rfl
  checkpoint := Nat.zero_le _
  handles := fun _ h => by cases h
  transports := fun _ h => by cases h
  owners := fun _ h => by cases h
  terminal := fun _ h => by cases h
  calls := fun _ h => by cases h

/-! ## Bookkeeping -/

section
variable {maxProcesses : Nat} {w w' : RegistryWorld}

@[simp] theorem saveCheckpoint_handles (w : RegistryWorld) (ok : Bool) :
    (w.saveCheckpoint ok).handles = w.handles := by
  cases ok <;> rfl

@[simp] theorem saveCheckpoint_transports (w : RegistryWorld) (ok : Bool) :
    (w.saveCheckpoint ok).transports = w.transports := by
  cases ok <;> rfl

@[simp] theorem saveCheckpoint_calls (w : RegistryWorld) (ok : Bool) :
    (w.saveCheckpoint ok).calls = w.calls := by
  cases ok <;> rfl

/-- Handles stay where they are and terminal, and return codes stay. -/
def Onward (w w' : RegistryWorld) : Prop :=
  ∀ (j : Nat) (h : ProcessHandle), w.handles[j]? = some h →
    ∃ h' : ProcessHandle, w'.handles[j]? = some h' ∧
    (h.isRunning = false → h'.isRunning = false) ∧
    ∀ c, w.returncode h = some c → w'.returncode h' = some c

theorem returncode_congr (htransports : w'.transports = w.transports) (h : ProcessHandle) :
    w'.returncode h = w.returncode h := by
  unfold RegistryWorld.returncode
  rw [htransports]

variable {h : ProcessHandle}

theorem HandleHolds.congr (hh : HandleHolds w h) (htransports : w'.transports = w.transports) :
    HandleHolds w' h where
  tracked := hh.tracked
  spawned := by rw [htransports]; exact hh.spawned
  code := by rw [returncode_congr htransports]; exact hh.code
  ended := hh.ended

theorem Onward.of_eq (hhandles : w'.handles = w.handles)
    (htransports : w'.transports = w.transports) : Onward w w' := by
  intro j h hj
  refine ⟨h, hhandles ▸ hj, fun hterminal => hterminal, fun c hc => ?_⟩
  rw [returncode_congr htransports]
  exact hc

variable {killing : Option (Nat × KillStage)} {overdue todo : List Nat}

theorem SweepHolds.onward (h : SweepHolds w.handles overdue todo killing) (hw : Onward w w') :
    SweepHolds w'.handles overdue todo killing := by
  intro j hj
  obtain ⟨hd, hget, hwhere⟩ := h j hj
  obtain ⟨hd', hget', hterminal, -⟩ := hw j hd hget
  exact ⟨hd', hget', hwhere.imp hterminal id⟩

variable {call : Call}

theorem CallHolds.onward (h : CallHolds w call) (hw : Onward w w') :
    CallHolds w' call := by
  cases call with
  | gating | spawning | kill => trivial
  | reap j rc =>
    obtain ⟨hd, hget, hcode⟩ := h
    obtain ⟨hd', hget', -, hcodes⟩ := hw j hd hget
    exact ⟨hd', hget', hcodes rc hcode⟩
  | sweep => exact SweepHolds.onward h hw
  | «over» outcome =>
    cases outcome with
    | swept => exact SweepHolds.onward h hw
    | started | refused | polled | killed | cancelled => trivial

theorem RegistryInv.reserved_nonneg (h : RegistryInv maxProcesses w) : 0 ≤ w.reserved := by
  rw [h.reserved]
  exact Int.natCast_nonneg _

theorem RegistryInv.save (h : RegistryInv maxProcesses w) (ok : Bool) :
    RegistryInv maxProcesses (w.saveCheckpoint ok) := by
  cases ok with
  | false => exact h
  | true =>
    refine ⟨h.ids, h.capped, h.reserved, ?_, fun hd hhd => (h.handles hd hhd).congr rfl,
      h.transports, h.owners, h.terminal,
      fun call hcall => (h.calls call hcall).onward (.of_eq rfl rfl)⟩
    have hcapped := h.capped
    have hreserved := h.reserved_nonneg
    have hlength : ((w.handles.filter fun h => h.tracked && h.isRunning).map
        ProcessHandle.entry).length = w.live := by
      rw [length_map, ← countP_eq_length_filter]
      rfl
    dsimp only [RegistryWorld.saveCheckpoint, if_true]
    rw [if_pos rfl, hlength]
    omega

variable {calls : List Call}

theorem RegistryInv.withCalls (h : RegistryInv maxProcesses w) {reserved : Int}
    (hreserved : reserved = calls.countP Call.starting)
    (hcapped : (w.live : Int) + reserved ≤ maxProcesses)
    (hcalls : ∀ call ∈ calls, CallHolds w call) :
    RegistryInv maxProcesses { w with calls, reserved } :=
  ⟨h.ids, hcapped, hreserved, h.checkpoint, fun hd hhd => (h.handles hd hhd).congr rfl,
    h.transports, h.owners, h.terminal,
    fun call hcall => (hcalls call hcall).onward (.of_eq rfl rfl)⟩

variable {i : Nat}

theorem countP_starting_set (hi : calls[i]? = some call) (call' : Call) :
    ((calls.set i call').countP Call.starting : Int) =
      calls.countP Call.starting - (if call.starting then 1 else 0) +
        if call'.starting then 1 else 0 := by
  obtain ⟨hlt, rfl⟩ := List.getElem?_eq_some_iff.mp hi
  have hle : (if Call.starting calls[i] then 1 else 0) ≤ calls.countP Call.starting :=
    List.boole_getElem_le_countP hlt
  rw [List.countP_set hlt]
  cases hold : calls[i].starting <;> cases hnew : call'.starting <;>
    simp only [hold, if_true, Bool.false_eq_true, if_false] at hle ⊢ <;> omega

theorem RegistryInv.setCall (h : RegistryInv maxProcesses w) {call call' : Call}
    (hi : w.calls[i]? = some call) (hsame : call'.starting = call.starting)
    (hcall : CallHolds w call') : RegistryInv maxProcesses (w.setCall i call') := by
  refine h.withCalls ?_ h.capped fun c hc => ?_
  · rw [countP_starting_set hi, hsame, h.reserved]
    omega
  · rcases mem_or_eq_of_mem_set hc with hold | rfl
    · exact h.calls c hold
    · exact hcall

theorem RegistryInv.addCall (h : RegistryInv maxProcesses w) (hstart : call.starting = false)
    (hcall : CallHolds w call) :
    RegistryInv maxProcesses (w.addCall call) := by
  refine h.withCalls ?_ h.capped fun c hc => ?_
  · rw [countP_append, countP_singleton, hstart, h.reserved]
    simp
  · rcases mem_snoc.mp hc with hold | rfl
    · exact h.calls c hold
    · exact hcall

theorem RegistryInv.rollback (h : RegistryInv maxProcesses w) (hi : w.calls[i]? = some call)
    (hstart : call.starting = true) {outcome : Outcome} (hcall : CallHolds w (.over outcome)) :
    RegistryInv maxProcesses (w.rollback i outcome) := by
  refine h.withCalls ?_ ?_ fun c hc => ?_
  · rw [countP_starting_set hi, hstart, h.reserved]
    simp [Call.starting]
  · have hcapped := h.capped
    omega
  · rcases mem_or_eq_of_mem_set hc with hold | rfl
    · exact h.calls c hold
    · exact hcall

/-! ## Handles -/

theorem returncode_eq_some {c : Int} :
    w.returncode h = some c ↔ ∃ t, h.transport = some t ∧ w.transports[t]? = some (some c) := by
  unfold RegistryWorld.returncode
  rw [Option.bind_eq_some_iff]
  refine exists_congr fun t => and_congr_right fun _ => ?_
  rw [Option.bind_eq_some_iff]
  exact ⟨fun ⟨code, hcode, heq⟩ => by rw [hcode]; exact congrArg some heq,
    fun hcode => ⟨some c, hcode, rfl⟩⟩

theorem RegistryInv.exits (h : RegistryInv maxProcesses w) {t : Nat}
    (ht : w.transports[t]? = some none) (rc : Int) :
    RegistryInv maxProcesses { w with transports := w.transports.set t (some rc) } := by
  have hcodes : ∀ (hd : ProcessHandle) c, w.returncode hd = some c →
      RegistryWorld.returncode { w with transports := w.transports.set t (some rc) } hd =
        some c := by
    intro hd c hc
    obtain ⟨t', ht', hcode⟩ := returncode_eq_some.mp hc
    refine returncode_eq_some.mpr ⟨t', ht', ?_⟩
    have hne : t ≠ t' := by
      rintro rfl
      rw [ht] at hcode
      cases hcode
    exact (getElem?_set_ne hne).trans hcode
  refine ⟨h.ids, h.capped, h.reserved, h.checkpoint, fun hd hhd => ?_, ?_, h.owners, h.terminal,
    fun call hcall => (h.calls call hcall).onward ?_⟩
  · have hold := h.handles hd hhd
    refine ⟨hold.tracked, ?_, fun c hc => hcodes hd c (hold.code c hc), hold.ended⟩
    simpa using hold.spawned
  · simpa using h.transports
  · exact fun j hd hj => ⟨hd, hj, fun hterminal => hterminal, hcodes hd⟩

variable {j : Nat} {hd' : ProcessHandle}

theorem Onward.set {hd : ProcessHandle} (hj : w.handles[j]? = some hd)
    (htransport : hd'.transport = hd.transport)
    (hrunning : hd.isRunning = false → hd'.isRunning = false) :
    Onward w (w.setHandle j hd') := by
  intro k hk hget
  have hcodes : ∀ h : ProcessHandle, (w.setHandle j hd').returncode h = w.returncode h :=
    returncode_congr rfl
  by_cases hjk : j = k
  · subst hjk
    cases hj.symm.trans hget
    obtain ⟨hlt, -⟩ := List.getElem?_eq_some_iff.mp hj
    refine ⟨hd', List.getElem?_set_self hlt, hrunning, fun c hc => ?_⟩
    unfold RegistryWorld.returncode at hc ⊢
    rw [htransport]
    exact hc
  · exact ⟨hk, (List.getElem?_set_ne hjk).trans hget, fun hterminal => hterminal,
      fun c hc => by rw [hcodes]; exact hc⟩

/-- A handle that is written stays what it is of, in the registry if it is not dropped, and
terminal. -/
structure Rewritten (h h' : ProcessHandle) : Prop where
  processId : h'.processId = h.processId
  transport : h'.transport = h.transport
  tracked : h'.tracked = true → h.tracked = true
  running : h'.isRunning = true → h.isRunning = true

theorem Rewritten.refl (h : ProcessHandle) : Rewritten h h := ⟨rfl, rfl, id, id⟩

variable {h' : ProcessHandle}

theorem Rewritten.terminal (hsame : Rewritten h h') (hterminal : h.isRunning = false)
    : h'.isRunning = false := by
  rw [Bool.eq_false_iff] at hterminal ⊢
  exact mt hsame.running hterminal

variable {handles : List ProcessHandle} {handles₀ : List ProcessHandle}

theorem ids_of_rewritten (hsame : List.Forall₂ Rewritten handles₀ handles) :
    handles.map ProcessHandle.processId = handles₀.map ProcessHandle.processId := by
  induction hsame with
  | nil => rfl
  | cons hhead _ ih => rw [map_cons, map_cons, ih, hhead.processId]

theorem countP_of_rewritten (hsame : List.Forall₂ Rewritten handles₀ handles) :
    handles.countP (fun h => h.tracked && h.isRunning) ≤
      handles₀.countP fun h => h.tracked && h.isRunning := by
  induction hsame with
  | nil => exact Nat.le_refl _
  | @cons h h' _ _ hhead _ ih =>
    have hle : (h'.tracked && h'.isRunning) = true → (h.tracked && h.isRunning) = true := by
      simpa using fun htracked hrunning => ⟨hhead.tracked htracked, hhead.running hrunning⟩
    rw [countP_cons, countP_cons]
    split
    · rename_i hlive
      rw [if_pos (hle hlive)]
      omega
    · omega

theorem RegistryInv.rewrite (h : RegistryInv maxProcesses w)
    (hsame : List.Forall₂ Rewritten w.handles handles)
    (hholds : ∀ h' ∈ handles, HandleHolds w h') {marked : List (String × Int)}
    (hmarked : marked ⊆ w.terminalAt) :
    RegistryInv maxProcesses { w with handles, terminalAt := marked } := by
  have hsub : ∀ h ∈ w.handles, ∃ h' ∈ handles, Rewritten h h' :=
    fun h hh => by
    obtain ⟨j, hj, rfl⟩ := List.mem_iff_getElem.mp hh
    exact ⟨_, List.getElem_mem (hsame.length_eq ▸ hj), hsame.get hj _⟩
  have hback : ∀ h' ∈ handles, ∃ h ∈ w.handles, Rewritten h h' :=
    fun h' hh' => by
    obtain ⟨j, hj, rfl⟩ := List.mem_iff_getElem.mp hh'
    exact ⟨_, List.getElem_mem (hsame.length_eq ▸ hj), hsame.get _ hj⟩
  refine ⟨(congrArg Nodup (ids_of_rewritten hsame)).mpr h.ids, ?_, h.reserved, h.checkpoint,
    fun h' hh' => (hholds h' hh').congr rfl, fun t ht => ?_, ?_, fun entry hentry => ?_,
    fun call hcall => (h.calls call hcall).onward fun j h₀ hj => ?_⟩
  · have hcapped := h.capped
    have hle := countP_of_rewritten hsame
    unfold RegistryWorld.live at hcapped ⊢
    dsimp only
    omega
  · obtain ⟨h₀, hh₀, htransport⟩ := h.transports t ht
    obtain ⟨h', hh', hwritten⟩ := hsub h₀ hh₀
    exact ⟨h', hh', hwritten.transport.trans htransport⟩
  · intro h₁ hh₁ h₂ hh₂ t ht ht'
    obtain ⟨h₁', hh₁', hwritten₁⟩ := hback h₁ hh₁
    obtain ⟨h₂', hh₂', hwritten₂⟩ := hback h₂ hh₂
    rw [hwritten₁.processId, hwritten₂.processId]
    exact h.owners h₁' hh₁' h₂' hh₂' t (hwritten₁.transport ▸ ht) (hwritten₂.transport ▸ ht')
  · obtain ⟨h₀, hh₀, hid, hterminal⟩ := h.terminal entry (hmarked hentry)
    obtain ⟨h', hh', hwritten⟩ := hsub h₀ hh₀
    exact ⟨h', hh', hwritten.processId.trans hid, hwritten.terminal hterminal⟩
  · obtain ⟨hlt, rfl⟩ := List.getElem?_eq_some_iff.mp hj
    have hlt' : j < handles.length := hsame.length_eq ▸ hlt
    have hwritten : Rewritten w.handles[j] handles[j] := hsame.get hlt hlt'
    refine ⟨handles[j], List.getElem?_eq_getElem hlt', hwritten.terminal, fun c hc => ?_⟩
    unfold RegistryWorld.returncode at hc ⊢
    rw [hwritten.transport]
    exact hc

theorem RegistryInv.setHandle (h : RegistryInv maxProcesses w) {hd : ProcessHandle}
    (hj : w.handles[j]? = some hd) (hsame : Rewritten hd hd') (htracked : hd'.tracked = hd.tracked)
    (hcode : ∀ c, hd'.exitCode = some c → w.returncode hd = some c)
    (hended : hd'.status = .exited ∨ hd'.status = .failed → ∃ c, hd'.exitCode = some c ∧
      hd'.status = if c = 0 then .exited else .failed) :
    RegistryInv maxProcesses (w.setHandle j hd') := by
  have hmem := List.mem_of_getElem? hj
  refine h.rewrite (List.forall₂_iff_get.mpr ⟨by simp, fun k hk hk' => ?_⟩) (fun h' hh' => ?_)
    (fun _ hentry => hentry)
  · show Rewritten w.handles[k] (w.handles.set j hd')[k]
    by_cases hjk : j = k
    · subst hjk
      obtain ⟨_, rfl⟩ := List.getElem?_eq_some_iff.mp hj
      rw [List.getElem_set_self]
      exact hsame
    · rw [List.getElem_set_ne hjk]
      exact .refl _
  · rcases List.mem_or_eq_of_mem_set hh' with hold | rfl
    · exact h.handles h' hold
    · have hold := h.handles hd hmem
      refine ⟨fun hrun => htracked ▸ hold.tracked (hsame.running hrun),
        hsame.transport ▸ hold.spawned, fun c hc => ?_, hended⟩
      have hbefore := hcode c hc
      unfold RegistryWorld.returncode at hbefore ⊢
      rw [hsame.transport]
      exact hbefore

variable {hd : ProcessHandle}

theorem RegistryInv.markTerminal (h : RegistryInv maxProcesses w) (hmem : hd ∈ w.handles)
    (hterminal : hd.isRunning = false) (now : Int) :
    RegistryInv maxProcesses (w.markTerminal hd.processId now) := by
  refine ⟨h.ids, h.capped, h.reserved, h.checkpoint, fun h' hh' => (h.handles h' hh').congr rfl,
    h.transports, h.owners, ?_, fun call hcall => (h.calls call hcall).onward (.of_eq rfl rfl)⟩
  intro entry hentry
  rcases mem_snoc.mp hentry with hold | rfl
  · exact h.terminal entry (mem_of_mem_filter hold)
  · exact ⟨hd, hmem, rfl, hterminal⟩

theorem register_fresh (hfresh : ∀ h' ∈ handles, h'.processId ≠ h.processId) :
    register h handles = handles ++ [h] := by
  have hsame : handles.map (fun h' =>
      if h'.processId = h.processId then { h' with tracked := false } else h') = handles :=
    (map_congr_left fun h' hh' => if_neg (hfresh h' hh')).trans (map_id' handles)
  rw [register, hsame]

theorem RegistryInv.commit (h : RegistryInv maxProcesses w) (hi : w.calls[i]? = some call)
    (hstart : call.starting = true) (hfresh : ∀ h' ∈ w.handles, h'.processId ≠ hd.processId)
    (htransport : hd.transport = some w.transports.length) (hrunning : hd.status = .running)
    (htracked : hd.tracked = true) (hcode : hd.exitCode = none) (saved : Bool) :
    RegistryInv maxProcesses (w.commit i hd saved) := by
  have hrun : hd.isRunning = true := by
    unfold ProcessHandle.isRunning
    rw [hrunning]
    rfl
  refine RegistryInv.save ?_ saved
  rw [register_fresh hfresh]
  -- the processes spawned before have their return codes
  have hcodes : ∀ (h' : ProcessHandle), (∀ t ∈ h'.transport, t < w.transports.length) →
      h'.transport.bind (fun t => (w.transports ++ [none])[t]?.bind id) = w.returncode h' := by
    intro h' hlt
    unfold RegistryWorld.returncode
    cases ht : h'.transport with
    | none => rfl
    | some t =>
      rw [Option.bind_some, Option.bind_some, List.getElem?_append_left (hlt t ht)]
  refine ⟨?_, ?_, ?_, h.checkpoint, ?_, ?_, ?_, ?_, ?_⟩
  · rw [List.map_append, List.nodup_append]
    refine ⟨h.ids, List.nodup_singleton _, fun id hid id' hid' heq => ?_⟩
    obtain ⟨h', hh', rfl⟩ := List.mem_map.mp hid
    exact hfresh h' hh' (heq.trans (List.mem_singleton.mp hid'))
  · have hcapped := h.capped
    have hlive : RegistryWorld.live
        { w with
          handles := w.handles ++ [hd]
          reserved := w.reserved - 1
          transports := w.transports ++ [none]
          calls := w.calls.set i (.over (.started w.handles.length)) } = w.live + 1 := by
      unfold RegistryWorld.live
      rw [List.countP_append, List.countP_singleton, htracked, hrun]
      rfl
    push_cast
    omega
  · rw [countP_starting_set hi, hstart, h.reserved]
    simp [Call.starting]
  · intro h' hh'
    rcases List.mem_append.mp hh' with hold | hnew
    · have hbefore := h.handles h' hold
      refine ⟨hbefore.tracked, fun t ht => ?_, fun c hc => ?_, hbefore.ended⟩
      · dsimp only
        rw [List.length_append]
        exact Nat.lt_succ_of_lt (hbefore.spawned t ht)
      · exact (hcodes h' hbefore.spawned).trans (hbefore.code c hc)
    · rw [List.mem_singleton.mp hnew]
      refine ⟨fun _ => htracked, fun t ht => ?_, fun c hc => ?_, ?_⟩
      · dsimp only
        rw [List.length_append, ← Option.some.inj (htransport.symm.trans ht)]
        exact Nat.lt_succ_self _
      · rw [hcode] at hc
        cases hc
      · rw [hrunning]
        rintro (hfalse | hfalse) <;> cases hfalse
  · intro t ht
    rw [List.length_append, List.length_singleton] at ht
    rcases Nat.lt_succ_iff_lt_or_eq.mp ht with hbefore | rfl
    · obtain ⟨h', hh', htr⟩ := h.transports t hbefore
      exact ⟨h', List.mem_append_left _ hh', htr⟩
    · exact ⟨hd, List.mem_append_right _ List.mem_cons_self, htransport⟩
  · -- what is spawned now was not spawned before
    have hfar : ∀ h' ∈ w.handles, h'.transport ≠ some w.transports.length := fun h' hh' heq =>
      Nat.lt_irrefl _ ((h.handles h' hh').spawned _ heq)
    intro h₁ hh₁ h₂ hh₂ t ht ht'
    rcases List.mem_append.mp hh₁ with hold₁ | hnew₁ <;>
      rcases List.mem_append.mp hh₂ with hold₂ | hnew₂
    · exact h.owners h₁ hold₁ h₂ hold₂ t ht ht'
    · rw [List.mem_singleton.mp hnew₂, htransport] at ht'
      exact absurd (ht.trans ht'.symm) (hfar h₁ hold₁)
    · rw [List.mem_singleton.mp hnew₁] at ht
      exact absurd (ht'.trans (ht.symm.trans htransport)) (hfar h₂ hold₂)
    · rw [List.mem_singleton.mp hnew₁, List.mem_singleton.mp hnew₂]
  · intro entry hentry
    obtain ⟨h', hh', hid, hfalse⟩ := h.terminal entry hentry
    exact ⟨h', List.mem_append_left _ hh', hid, hfalse⟩
  · have honward : Onward w
        { w with
          handles := w.handles ++ [hd]
          reserved := w.reserved - 1
          transports := w.transports ++ [none]
          calls := w.calls.set i (.over (.started w.handles.length)) } := by
      intro j h' hj
      obtain ⟨hlt, -⟩ := List.getElem?_eq_some_iff.mp hj
      refine ⟨h', (List.getElem?_append_left hlt).trans hj, fun hfalse => hfalse, fun c hc => ?_⟩
      exact (hcodes h' (h.handles h' (List.mem_of_getElem? hj)).spawned).trans hc
    intro c hc
    rcases List.mem_or_eq_of_mem_set hc with hold | rfl
    · exact (h.calls c hold).onward honward
    · trivial

variable {moment : Int}

theorem mem_stale {deadPrune : Int} {id : String} (h : id ∈ w.stale deadPrune moment) :
    ∃ entry ∈ w.terminalAt, entry.1 = id := by
  obtain ⟨entry, hentry, rfl⟩ := mem_map.mp h
  exact ⟨entry, mem_of_mem_filter hentry, rfl⟩

theorem RegistryInv.terminal_of_stale (h : RegistryInv maxProcesses w) {deadPrune : Int}
    (hmem : hd ∈ w.handles) (hstale : hd.processId ∈ w.stale deadPrune moment) :
    hd.isRunning = false := by
  obtain ⟨entry, hentry, hid⟩ := mem_stale hstale
  obtain ⟨h', hh', hid', hfalse⟩ := h.terminal entry hentry
  have hsame : h' = hd := inj_on_of_nodup_map h.ids hh' hmem (hid'.trans hid)
  exact hsame ▸ hfalse

theorem RegistryInv.prune (h : RegistryInv maxProcesses w) (deadPrune moment : Int)
    (autoKilled : Nat) (saved : Bool) :
    RegistryInv maxProcesses (w.prune deadPrune moment autoKilled saved) := by
  have hpruned : RegistryInv maxProcesses
      { w with
        handles := w.handles.map fun h =>
          if h.processId ∈ w.stale deadPrune moment then { h with tracked := false } else h
        terminalAt := w.terminalAt.filter fun entry =>
          decide (entry.1 ∉ w.stale deadPrune moment) } := by
    refine h.rewrite ?_ (fun h' hh' => ?_) (filter_subset_self _)
    · rw [List.forall₂_map_right_iff, List.forall₂_same]
      intro h₀ _
      split
      · exact ⟨rfl, rfl, fun hin => (Bool.noConfusion hin), id⟩
      · exact .refl h₀
    · obtain ⟨h₀, hh₀, rfl⟩ := mem_map.mp hh'
      have hold := h.handles h₀ hh₀
      split
      · rename_i hstale
        refine ⟨fun hrun => ?_, hold.spawned, hold.code, hold.ended⟩
        exact absurd (h.terminal_of_stale hh₀ hstale)
          (by rw [show h₀.isRunning = true from hrun]; decide)
      · exact hold
  unfold RegistryWorld.prune
  dsimp only
  split
  · exact hpruned
  · exact hpruned.save saved

/-- Handles that are adopted, of which those in the registry have ids of their own. -/
structure Adopted (handles : List ProcessHandle) : Prop where
  ids : ((handles.filter ProcessHandle.tracked).map ProcessHandle.processId).Nodup
  running : ∀ h ∈ handles, h.transport = none ∧ h.exitCode = none ∧ h.status = .running

theorem Adopted.register (h : Adopted handles)
    (hhd : hd.transport = none ∧ hd.exitCode = none ∧ hd.status = .running) :
    Adopted (register hd handles) where
  ids := by
    have hfilter : (handles.map fun h' =>
        if h'.processId = hd.processId then { h' with tracked := false } else h').filter
          ProcessHandle.tracked =
        (handles.filter ProcessHandle.tracked).filter fun h' =>
          decide (h'.processId ≠ hd.processId) := by
      have hids := h.ids
      clear h hids
      induction handles with
      | nil => rfl
      | cons h' handles ih =>
        rw [map_cons]
        by_cases hid : h'.processId = hd.processId
        · rw [if_pos hid, filter_cons_of_neg (by simp), ih]
          cases htracked : h'.tracked with
          | true => rw [filter_cons_of_pos htracked, filter_cons_of_neg (by simp [hid])]
          | false => rw [filter_cons_of_neg (by simp [htracked])]
        · rw [if_neg hid]
          cases htracked : h'.tracked with
          | true =>
            rw [filter_cons_of_pos htracked, filter_cons_of_pos htracked,
              filter_cons_of_pos (by simp [hid]), ih]
          | false =>
            rw [filter_cons_of_neg (by simp [htracked]),
              filter_cons_of_neg (by simp [htracked]), ih]
    unfold Process.register
    rw [filter_append, hfilter, map_append, nodup_append]
    refine ⟨h.ids.sublist (filter_sublist.map _), ?_, ?_⟩
    · exact List.Nodup.sublist (filter_sublist.map _) (nodup_singleton hd.processId)
    · intro id hid id' hid' heq
      obtain ⟨h', hh', rfl⟩ := mem_map.mp hid
      obtain ⟨h'', hh'', rfl⟩ := mem_map.mp hid'
      have hne := (mem_filter.mp hh').2
      rw [mem_singleton.mp (mem_of_mem_filter hh'')] at heq
      simp [heq] at hne
  running := by
    intro h' hh'
    rcases mem_snoc.mp hh' with hold | rfl
    · obtain ⟨h₀, hh₀, rfl⟩ := mem_map.mp hold
      split <;> exact h.running h₀ hh₀
    · exact hhd

theorem adopted_foldl {hs : List ProcessHandle}
    (hhs : ∀ h ∈ hs, h.transport = none ∧ h.exitCode = none ∧ h.status = .running)
    (h : Adopted handles) :
    Adopted (hs.foldl (fun handles h => register h handles) handles) ∧
      (hs.foldl (fun handles h => register h handles) handles).length =
        handles.length + hs.length := by
  induction hs generalizing handles with
  | nil => exact ⟨h, rfl⟩
  | cons hd hs ih =>
    obtain ⟨hadopted, hlength⟩ := ih (fun h' hh' => hhs h' (mem_cons_of_mem _ hh'))
      (h.register (hhs hd mem_cons_self))
    refine ⟨hadopted, hlength.trans ?_⟩
    simp only [Process.register, length_append, length_map, length_cons,
      length_nil]
    omega

theorem RegistryInv.reconcile (h : RegistryInv maxProcesses w) (maxLifetime : Int)
    (survivors : List (Bool × String)) (now : Int) (saved : Bool) :
    RegistryInv maxProcesses (w.reconcile maxLifetime survivors now saved) := by
  have hhs : ∀ h ∈ adopted maxLifetime w.checkpoint survivors now,
      h.transport = none ∧ h.exitCode = none ∧ h.status = .running := by
    intro hd hhd
    obtain ⟨⟨entry, alive, token⟩, -, hsome⟩ := mem_filterMap.mp hhd
    dsimp only at hsome
    split at hsome
    · cases hsome
      exact ⟨rfl, rfl, rfl⟩
    · cases hsome
  have hempty : Adopted [] := ⟨nodup_nil, fun _ hmem => by cases hmem⟩
  obtain ⟨hadopted, hlength⟩ := adopted_foldl hhs hempty
  refine RegistryInv.save ?_ saved
  have hrunning : ∀ h ∈ ((adopted maxLifetime w.checkpoint survivors now).foldl
      (fun handles h => register h handles) []).filter ProcessHandle.tracked,
      h.tracked = true ∧ h.transport = none ∧ h.exitCode = none ∧ h.status = .running :=
    fun hd hhd => ⟨(mem_filter.mp hhd).2, hadopted.running hd (mem_of_mem_filter hhd)⟩
  refine ⟨hadopted.ids, ?_, rfl, h.checkpoint, ?_, ?_, ?_, ?_, ?_⟩
  · have hcheckpoint := h.checkpoint
    have hsurvive : (adopted maxLifetime w.checkpoint survivors now).length ≤
        w.checkpoint.length := by
      refine Nat.le_trans (length_filterMap_le _ _) ?_
      rw [length_zip]
      exact Nat.min_le_left _ _
    have hlive := @countP_le_length _ (fun h : ProcessHandle => h.tracked && h.isRunning)
      (((adopted maxLifetime w.checkpoint survivors now).foldl
        (fun handles h => register h handles) []).filter ProcessHandle.tracked)
    have hfilter := length_filter_le ProcessHandle.tracked
      ((adopted maxLifetime w.checkpoint survivors now).foldl
        (fun handles h => register h handles) [])
    rw [hlength, length_nil, Nat.zero_add] at hfilter
    unfold RegistryWorld.live
    dsimp only
    omega
  · intro hd hhd
    obtain ⟨htracked, htransport, hcode, hstatus⟩ := hrunning hd hhd
    refine ⟨fun _ => htracked, fun t ht => ?_, fun c hc => ?_, fun hended => ?_⟩
    · rw [htransport] at ht
      cases ht
    · rw [hcode] at hc
      cases hc
    · rw [hstatus] at hended
      rcases hended with hfalse | hfalse <;> cases hfalse
  · exact fun t ht => absurd ht (Nat.not_lt_zero t)
  · intro hd hhd h' _ t ht _
    rw [(hrunning hd hhd).2.1] at ht
    cases ht
  · exact fun entry hentry => by cases hentry
  · exact fun call hcall => by cases hcall

/-! ## Steps of calls -/

/-- What a step of a kill, or of a reap, does to the registry. -/
structure Ends (maxProcesses : Nat) (w w' : RegistryWorld) : Prop where
  inv : RegistryInv maxProcesses w'
  calls : w'.calls = w.calls
  onward : Onward w w'

theorem Ends.refl (h : RegistryInv maxProcesses w) : Ends maxProcesses w w :=
  ⟨h, rfl, .of_eq rfl rfl⟩

theorem RegistryInv.killStep (h : RegistryInv maxProcesses w) (j : Nat) (stage : KillStage)
    (waited : Bool) (now : Int) (saved : Bool) :
    Ends maxProcesses w (w.killStep j stage waited now saved).1 ∧
      ((w.killStep j stage waited now saved).2 = none → ∀ hd,
        (w.killStep j stage waited now saved).1.handles[j]? = some hd →
          hd.isRunning = false) := by
  unfold RegistryWorld.killStep
  cases hj : w.handles[j]? with
  | none =>
    refine ⟨.refl h, fun _ hd hget => ?_⟩
    rw [hj] at hget
    cases hget
  | some hd =>
    have hholds := h.handles hd (List.mem_of_getElem? hj)
    obtain ⟨hlt, -⟩ := List.getElem?_eq_some_iff.mp hj
    cases stage with
    | terminating => exact ⟨.refl h, fun hnone => by cases hnone⟩
    | waiting =>
      dsimp only
      split
      · split
        · rename_i rc hrc
          refine ⟨⟨?_, rfl, .set hj rfl fun hfalse => hfalse⟩, fun hnone => by cases hnone⟩
          refine h.setHandle hj ⟨rfl, rfl, id, id⟩ rfl (fun c hc => ?_) fun hended => ?_
          · rw [← Option.some.inj hc]
            exact hrc
          · obtain ⟨c, hc, hstatus⟩ := hholds.ended hended
            have hsame : c = rc := Option.some.inj ((hholds.code c hc).symm.trans hrc)
            exact ⟨rc, rfl, hsame ▸ hstatus⟩
        · exact ⟨.refl h, fun hnone => by cases hnone⟩
      · exact ⟨.refl h, fun hnone => by cases hnone⟩
    | stopping =>
      have hset : RegistryInv maxProcesses
          (w.setHandle j { hd with status := .killed, lastActive := now }) := by
        refine h.setHandle hj ⟨rfl, rfl, id, fun hrun => by cases hrun⟩ rfl hholds.code
          fun hended => ?_
        rcases hended with hfalse | hfalse <;> cases hfalse
      have hself : (w.setHandle j { hd with status := .killed, lastActive := now }).handles[j]? =
          some { hd with status := .killed, lastActive := now } := List.getElem?_set_self hlt
      have hmarked := hset.markTerminal (List.mem_of_getElem? hself) rfl now
      refine ⟨⟨hmarked.save saved, by simp [RegistryWorld.markTerminal, RegistryWorld.setHandle],
        ?_⟩, fun _ hd' hget => ?_⟩
      · have honward : Onward w (w.setHandle j { hd with status := .killed, lastActive := now }) :=
          .set hj rfl fun _ => rfl
        intro k hk hget
        obtain ⟨hk', hget', hrest⟩ := honward k hk hget
        refine ⟨hk', by rw [saveCheckpoint_handles]; exact hget', hrest.1, fun c hc => ?_⟩
        rw [returncode_congr (saveCheckpoint_transports _ _)]
        exact hrest.2 c hc
      · rw [saveCheckpoint_handles] at hget
        cases hself.symm.trans hget
        rfl

variable {rc : Int}

theorem RegistryInv.reapStep (h : RegistryInv maxProcesses w) (hcall : CallHolds w (.reap j rc))
    (now : Int) :
    Ends maxProcesses w (w.reapStep j rc now) := by
  obtain ⟨hd, hj, hrc⟩ := hcall
  obtain ⟨hlt, -⟩ := List.getElem?_eq_some_iff.mp hj
  unfold RegistryWorld.reapStep
  rw [hj]
  have hfalse : ProcessHandle.isRunning { hd with
      exitCode := some rc
      status := if rc = 0 then .exited else .failed
      lastActive := now } = false := by
    split <;> rfl
  have hset : RegistryInv maxProcesses (w.setHandle j
      { hd with
        exitCode := some rc
        status := if rc = 0 then .exited else .failed
        lastActive := now }) := by
    refine h.setHandle hj ⟨rfl, rfl, id, fun hrun => ?_⟩ rfl (fun c hc => ?_)
      fun _ => ⟨rc, rfl, rfl⟩
    · rw [hfalse] at hrun
      cases hrun
    · rw [← Option.some.inj hc]
      exact hrc
  refine ⟨hset.markTerminal (List.mem_of_getElem? (List.getElem?_set_self hlt)) hfalse now, rfl, ?_⟩
  exact Onward.set hj rfl fun _ => hfalse

theorem RegistryInv.getScoped (h : RegistryInv maxProcesses w) (hj : w.handles[j]? = some hd)
    (hrunning : hd.isRunning = true) :
    w.getScoped hd.processId (some hd.sessionKey) = some j := by
  have htracked := (h.handles hd (List.mem_of_getElem? hj)).tracked hrunning
  obtain ⟨hlt, hgetElem⟩ := List.getElem?_eq_some_iff.mp hj
  have hfind : (w.handles.findIdx? fun h => h.tracked && h.processId == hd.processId) =
      some j := by
    rw [List.findIdx?_eq_some_iff_getElem]
    refine ⟨hlt, by rw [hgetElem, htracked]; simp, fun k hk => ?_⟩
    have hklt : k < w.handles.length := Nat.lt_trans hk hlt
    have hne : w.handles[k].processId ≠ hd.processId := by
      have hpairs := List.pairwise_iff_getElem.mp h.ids k j (by simpa using hklt)
        (by simpa using hlt) hk
      simpa [hgetElem] using hpairs
    simp [hne]
  unfold RegistryWorld.getScoped
  rw [hfind, Option.filter_some, if_pos]
  rw [hj]
  simp

theorem Ends.setCall (h : Ends maxProcesses w w') {call call' : Call} (hi : w.calls[i]? = some call)
    (hsame : call'.starting = call.starting) (hcall : CallHolds w' call')
    : RegistryInv maxProcesses (w'.setCall i call') :=
  h.inv.setCall (h.calls ▸ hi) hsame hcall

theorem isRunning_eq_false (hne : h.isRunning ≠ true) : h.isRunning = false :=
  Bool.eq_false_iff.mpr hne

variable {autoKilled : Nat}

theorem RegistryInv.sweepStep (h : RegistryInv maxProcesses w)
    (hi : w.calls[i]? = some (.sweep moment overdue todo killing autoKilled)) (deadPrune : Int)
    (waited : Bool) (now : Int) (saved : Bool) :
    RegistryInv maxProcesses
      (w.sweepStep deadPrune i moment overdue todo killing autoKilled waited now saved) := by
  have hholds : SweepHolds w.handles overdue todo killing :=
    h.calls _ (mem_of_getElem? hi)
  unfold RegistryWorld.sweepStep
  cases killing with
  | some target =>
    obtain ⟨j, stage⟩ := target
    obtain ⟨hends, hdead⟩ := h.killStep j stage waited now saved
    dsimp only
    cases hkill : w.killStep j stage waited now saved with
    | mk w' next =>
      rw [hkill] at hends hdead
      have honward := hholds.onward hends.onward
      cases next with
      | some stage' =>
        refine hends.setCall hi rfl fun k hk => ?_
        obtain ⟨hd, hget, hwhere⟩ := honward k hk
        refine ⟨hd, hget, hwhere.imp id (Or.imp id ?_)⟩
        rintro ⟨stage₀, htarget⟩
        obtain ⟨rfl, -⟩ := Prod.mk.inj (Option.some.inj htarget)
        exact ⟨stage', rfl⟩
      | none =>
        refine hends.setCall hi rfl fun k hk => ?_
        obtain ⟨hd, hget, hwhere⟩ := honward k hk
        rcases hwhere with hfalse | htodo | ⟨stage₀, htarget⟩
        · exact ⟨hd, hget, .inl hfalse⟩
        · exact ⟨hd, hget, .inr (.inl htodo)⟩
        · obtain ⟨rfl, -⟩ := Prod.mk.inj (Option.some.inj htarget)
          exact ⟨hd, hget, .inl (hdead rfl hd hget)⟩
  | none =>
    cases todo with
    | nil =>
      have hpruned := h.prune deadPrune moment autoKilled saved
      have hcalls : (w.prune deadPrune moment autoKilled saved).calls = w.calls := by
        unfold RegistryWorld.prune
        dsimp only
        split <;> simp
      have hi' : (w.prune deadPrune moment autoKilled saved).calls[i]? =
          some (.sweep moment overdue [] none autoKilled) := by
        rw [hcalls]
        exact hi
      have hlast : SweepHolds (w.prune deadPrune moment autoKilled saved).handles overdue []
          none := hpruned.calls _ (mem_of_getElem? hi')
      exact hpruned.setCall hi' rfl hlast
    | cons j todo =>
      -- the handle is dead, or it is the one its id finds
      have hskip : (∀ hd, w.handles[j]? = some hd → hd.isRunning = false) →
          SweepHolds w.handles overdue todo none := by
        intro hdead k hk
        obtain ⟨hd, hget, hwhere⟩ := hholds k hk
        rcases hwhere with hfalse | htodo | ⟨stage, htarget⟩
        · exact ⟨hd, hget, .inl hfalse⟩
        · rcases mem_cons.mp htodo with rfl | hrest
          · exact ⟨hd, hget, .inl (hdead hd hget)⟩
          · exact ⟨hd, hget, .inr (.inl hrest)⟩
        · cases htarget
      dsimp only
      split
      · rename_i hnone
        refine h.setCall hi rfl (hskip fun hd hget => ?_)
        rw [hnone] at hget
        cases hget
      · rename_i hd hget
        split
        · rename_i hhidden
          refine h.setCall hi rfl (hskip fun hd' hget' => ?_)
          cases hget.symm.trans hget'
          refine isRunning_eq_false fun hrun => ?_
          rw [h.getScoped hget hrun] at hhidden
          cases hhidden
        · rename_i j' hfound
          split
          · refine h.setCall hi rfl fun k hk => ?_
            obtain ⟨hdk, hgetk, hwhere⟩ := hholds k hk
            rcases hwhere with hfalse | htodo | ⟨stage, htarget⟩
            · exact ⟨hdk, hgetk, .inl hfalse⟩
            · rcases mem_cons.mp htodo with rfl | hrest
              · refine ⟨hdk, hgetk, ?_⟩
                cases hget.symm.trans hgetk
                by_cases hrun : hd.isRunning = true
                · rw [h.getScoped hget hrun] at hfound
                  cases hfound
                  exact .inr (.inr ⟨.terminating, rfl⟩)
                · exact .inl (isRunning_eq_false hrun)
              · exact ⟨hdk, hgetk, .inr (.inl hrest)⟩
            · cases htarget
          · rename_i hdead
            refine h.setCall hi rfl (hskip fun hd' hget' => ?_)
            cases hget.symm.trans hget'
            refine isRunning_eq_false fun hrun => hdead ?_
            rw [h.getScoped hget hrun] at hfound
            cases hfound
            rw [hget]
            exact hrun

variable {maxLifetime deadPrune : Int} {catastrophic : List String → Bool} {op : ProcessOp}

/-- **One step keeps the invariant**, whatever order the calls go on in. -/
theorem RegistryInv.step (h : RegistryInv maxProcesses w) (hfresh : FreshToken w op) :
    RegistryInv maxProcesses
      (registryStep maxProcesses maxLifetime deadPrune catastrophic w op) := by
  cases op with
  | start command sessionKey cwd =>
    simp only [registryStep, RegistryWorld.start]
    split
    · exact h.addCall rfl trivial
    · split
      · exact h.addCall rfl trivial
      · rename_i hroom
        have hstarting : ∀ call : Call, call.starting = true → CallHolds w call →
            RegistryInv maxProcesses ({ w with reserved := w.reserved + 1 }.addCall call) := by
          intro call hstart hcall
          have hcapped : (w.live : Int) + (w.reserved + 1) ≤ maxProcesses := by omega
          refine h.withCalls ?_ hcapped fun c hc => ?_
          · rw [countP_append, countP_singleton, hstart, h.reserved]
            simp
          · rcases mem_snoc.mp hc with hold | rfl
            · exact h.calls c hold
            · exact hcall
        split <;> exact hstarting _ rfl trivial
  | gate i declined =>
    simp only [registryStep]
    split
    · rename_i hi
      split
      · exact h.rollback hi rfl trivial
      · exact h.setCall hi rfl trivial
    · exact h
  | spawn i result now saved =>
    simp only [registryStep]
    split
    · rename_i hi
      split
      · rename_i pid token
        have hnew : ∀ h' ∈ w.handles, h'.processId ≠ token := hfresh
        exact h.commit hi rfl hnew rfl rfl rfl rfl saved
      · exact h.rollback hi rfl trivial
    · exact h
  | poll processId sessionKey =>
    simp only [registryStep]
    split
    · exact h.addCall rfl trivial
    · split
      · rename_i hd hget
        split
        · rename_i hrc
          exact h.addCall rfl ⟨hd, hget, hrc⟩
        · exact h.addCall rfl trivial
      · exact h
  | kill processId sessionKey =>
    simp only [registryStep]
    split
    · exact h.addCall rfl trivial
    · split <;> exact h.addCall rfl trivial
  | sweep moment =>
    refine h.addCall rfl fun j hj => ?_
    have hlt := mem_range.mp (mem_of_mem_filter hj)
    exact ⟨w.handles[j], getElem?_eq_getElem hlt, .inr (.inl hj)⟩
  | proceed i waited now saved =>
    simp only [registryStep]
    split
    · rename_i j stage hi
      obtain ⟨hends, -⟩ := h.killStep j stage waited now saved
      split
      · rename_i w' stage' hkill
        rw [hkill] at hends
        exact hends.setCall hi rfl trivial
      · rename_i w' hkill
        rw [hkill] at hends
        exact hends.setCall hi rfl trivial
    · rename_i j rc hi
      exact (h.reapStep (h.calls _ (mem_of_getElem? hi)) now).setCall hi rfl trivial
    · rename_i hi
      exact h.sweepStep hi deadPrune waited now saved
    · exact h
  | cancel i =>
    simp only [registryStep]
    split
    · rename_i hi
      exact h.rollback hi rfl trivial
    · rename_i hi
      exact h.rollback hi rfl trivial
    · exact h
    · rename_i hi
      exact h.setCall hi rfl trivial
    · exact h
    · rename_i hi
      exact h.setCall hi rfl trivial
    · exact h
  | exits t rc =>
    simp only [registryStep]
    split
    · rename_i ht
      exact h.exits ht rc
    · exact h
  | restart survivors now saved => exact h.reconcile maxLifetime survivors now saved

/-! ## What holds in every run -/

/-- What was spawned is in the registry while it is alive. -/
def Supervised (w : RegistryWorld) : Prop :=
  ∀ t, w.transports[t]? = some none → ∃ h ∈ w.handles, h.transport = some t ∧ h.tracked = true

theorem RegistryInv.released (h : RegistryInv maxProcesses w)
    (hidle : ∀ call ∈ w.calls, call.starting = false) : w.reserved = 0 := by
  have hnone : w.calls.countP Call.starting = 0 :=
    countP_eq_zero.mpr fun call hcall => by simp [hidle call hcall]
  rw [h.reserved, hnone]
  rfl

theorem RegistryInv.lifecycleHolds_iff (h : RegistryInv maxProcesses w) :
    LifecycleHolds maxProcesses w ↔ Supervised w := by
  refine ⟨fun hholds => hholds.supervised, fun hsupervised => ?_⟩
  refine ⟨h.capped, h.released, fun hd hhd => (h.handles hd hhd).tracked, hsupervised, ?_⟩
  intro overdue autoKilled pruned hcall j hj
  obtain ⟨hd, hget, hwhere⟩ := h.calls _ hcall j hj
  rcases hwhere with hterminal | htodo | ⟨stage, hkilling⟩
  · exact ⟨hd, hget, hterminal⟩
  · cases htodo
  · cases hkilling

theorem sweepSees_step (w : RegistryWorld) (op : ProcessOp) :
    SweepSees maxProcesses maxLifetime deadPrune catastrophic w op := by
  intro moment hop j hd hget htracked hrunning hdue
  subst hop
  obtain ⟨hlt, -⟩ := List.getElem?_eq_some_iff.mp hget
  refine ⟨_, List.getElem?_concat_length, List.mem_filter.mpr ⟨List.mem_range.mpr hlt, ?_⟩⟩
  rw [hget]
  simp [htracked, hrunning, hdue]

/-! ## What a terminal handle says -/

@[simp] theorem setCall_handles (w : RegistryWorld) (i : Nat) (call : Call) :
    (w.setCall i call).handles = w.handles := rfl

@[simp] theorem markTerminal_handles (w : RegistryWorld) (processId : String) (now : Int) :
    (w.markTerminal processId now).handles = w.handles := rfl

theorem EndsStay.refl (handles : List ProcessHandle) : EndsStay handles handles :=
  fun _ h hj _ => ⟨h, hj, rfl, rfl⟩

theorem EndsStay.append (handles : List ProcessHandle) (h : ProcessHandle) :
    EndsStay handles (handles ++ [h]) := by
  intro j h' hj _
  obtain ⟨hlt, -⟩ := List.getElem?_eq_some_iff.mp hj
  exact ⟨h', (List.getElem?_append_left hlt).trans hj, rfl, rfl⟩

theorem EndsStay.map {f : ProcessHandle → ProcessHandle} (handles : List ProcessHandle)
    (hf : ∀ h, (f h).status = h.status ∧ (f h).exitCode = h.exitCode) :
    EndsStay handles (handles.map f) := by
  intro j h hj _
  exact ⟨f h, by rw [getElem?_map, hj]; rfl, hf h⟩

/-- A handle that is written says what it said, if it was terminal. -/
theorem endsStay_set_iff (hj : handles[j]? = some h) :
    EndsStay handles (handles.set j h') ↔
      (h.isRunning = false → h'.status = h.status ∧ h'.exitCode = h.exitCode) := by
  obtain ⟨hlt, -⟩ := List.getElem?_eq_some_iff.mp hj
  constructor
  · intro hstay hterminal
    obtain ⟨h'', hget, hsame⟩ := hstay j h hj hterminal
    rw [List.getElem?_set_self hlt] at hget
    exact Option.some.inj hget ▸ hsame
  · intro hsame k hk hget hterminal
    by_cases hjk : j = k
    · subst hjk
      cases hj.symm.trans hget
      exact ⟨h', List.getElem?_set_self hlt, hsame hterminal⟩
    · exact ⟨hk, (List.getElem?_set_ne hjk).trans hget, rfl, rfl⟩

theorem ended_of_not_running (hterminal : h.isRunning = false) :
    h.status = .exited ∨ h.status = .failed ∨ h.status = .killed := by
  unfold ProcessHandle.isRunning at hterminal
  cases hstatus : h.status with
  | running => simp [hstatus] at hterminal
  | exited => exact .inl rfl
  | failed => exact .inr (.inl rfl)
  | killed => exact .inr (.inr rfl)

/-- A process that ended with a code has its code, unless it was killed without one. -/
theorem HandleHolds.code_of_ended (hh : HandleHolds w h) (hrc : w.returncode h = some rc)
    (hended : h.status = .exited ∨ h.status = .failed) :
    h.exitCode = some rc ∧ h.status = if rc = 0 then .exited else .failed := by
  obtain ⟨c, hc, hstatus⟩ := hh.ended hended
  have hsame : c = rc := Option.some.inj ((hh.code c hc).symm.trans hrc)
  exact ⟨hsame ▸ hc, hsame ▸ hstatus⟩

theorem RegistryInv.killStep_ends_iff (h : RegistryInv maxProcesses w) (j : Nat)
    (stage : KillStage) (waited : Bool) (now : Int) (saved : Bool) :
    EndsStay w.handles (w.killStep j stage waited now saved).1.handles ↔
      KillUnraced w j stage waited := by
  unfold RegistryWorld.killStep KillUnraced
  cases hj : w.handles[j]? with
  | none => exact iff_of_true (.refl _) fun _ hmem => by cases hmem
  | some hd =>
    have hholds := h.handles hd (mem_of_getElem? hj)
    simp only [Option.mem_def, Option.some.injEq, forall_eq']
    cases stage with
    | terminating => exact iff_of_true (.refl _) trivial
    | waiting =>
      dsimp only
      split
      · rename_i hwaited
        cases hrc : w.returncode hd with
        | none => exact iff_of_true (.refl _) fun _ hsome => by cases hsome
        | some rc =>
          dsimp only [RegistryWorld.setHandle]
          rw [endsStay_set_iff hj]
          constructor
          · intro hsame _ _ hkilled hnone
            have hterminal : hd.isRunning = false := by simp [ProcessHandle.isRunning, hkilled]
            have hcode := (hsame hterminal).2
            rw [hnone] at hcode
            cases hcode
          · intro hunraced hterminal
            refine ⟨rfl, ?_⟩
            rcases ended_of_not_running hterminal with hexited | hfailed | hkilled
            · exact (hholds.code_of_ended hrc (.inl hexited)).1.symm
            · exact (hholds.code_of_ended hrc (.inr hfailed)).1.symm
            · -- a code that another kill wrote is that of the process
              obtain ⟨c, hc⟩ := Option.ne_none_iff_exists'.mp (hunraced hwaited rfl hkilled)
              rw [hc, ← hrc, hholds.code c hc]
      · rename_i hwaited
        exact iff_of_true (.refl _) fun htrue => absurd htrue hwaited
    | stopping =>
      rw [saveCheckpoint_handles, markTerminal_handles]
      dsimp only [RegistryWorld.setHandle]
      rw [endsStay_set_iff hj]
      constructor
      · intro hsame
        by_cases hrunning : hd.isRunning = true
        · exact .inl (by simpa [ProcessHandle.isRunning] using hrunning)
        · exact .inr (hsame (isRunning_eq_false hrunning)).1.symm
      · rintro (hrunning | hkilled) hterminal
        · simp [ProcessHandle.isRunning, hrunning] at hterminal
        · exact ⟨hkilled.symm, rfl⟩

theorem RegistryInv.reapStep_ends_iff (h : RegistryInv maxProcesses w)
    (hcall : CallHolds w (.reap j rc)) (now : Int) :
    EndsStay w.handles (w.reapStep j rc now).handles ↔
      ∀ hd ∈ w.handles[j]?, hd.status ≠ .killed := by
  obtain ⟨hd, hj, hrc⟩ := hcall
  have hholds := h.handles hd (mem_of_getElem? hj)
  unfold RegistryWorld.reapStep
  rw [hj]
  simp only [Option.mem_def, Option.some.injEq, forall_eq']
  dsimp only [RegistryWorld.setHandle, RegistryWorld.markTerminal]
  rw [endsStay_set_iff hj]
  constructor
  · intro hsame hkilled
    have hterminal : hd.isRunning = false := by simp [ProcessHandle.isRunning, hkilled]
    have hstatus := (hsame hterminal).1
    rw [hkilled] at hstatus
    split at hstatus <;> cases hstatus
  · intro hkilled hterminal
    have hended : hd.status = .exited ∨ hd.status = .failed := by
      rcases ended_of_not_running hterminal with hexited | hfailed | hdead
      · exact .inl hexited
      · exact .inr hfailed
      · exact absurd hdead hkilled
    obtain ⟨hcode, hstatus⟩ := hholds.code_of_ended hrc hended
    exact ⟨hstatus.symm, hcode.symm⟩

theorem prune_handles (w : RegistryWorld) (moment : Int) (autoKilled : Nat) (saved : Bool) :
    (w.prune deadPrune moment autoKilled saved).handles =
      w.handles.map fun h =>
        if h.processId ∈ w.stale deadPrune moment then { h with tracked := false } else h := by
  unfold RegistryWorld.prune
  dsimp only
  split
  · rfl
  · exact saveCheckpoint_handles _ _

theorem prune_transports (w : RegistryWorld) (moment : Int) (autoKilled : Nat) (saved : Bool) :
    (w.prune deadPrune moment autoKilled saved).transports = w.transports := by
  unfold RegistryWorld.prune
  dsimp only
  split
  · rfl
  · exact saveCheckpoint_transports _ _

theorem RegistryInv.sweepStep_ends_iff (h : RegistryInv maxProcesses w) (waited : Bool) (now : Int)
    (saved : Bool) :
    EndsStay w.handles
        (w.sweepStep deadPrune i moment overdue todo killing autoKilled waited now saved).handles ↔
      CallUnraced w waited (.sweep moment overdue todo killing autoKilled) := by
  cases killing with
  | some target =>
    obtain ⟨j, stage⟩ := target
    have hends := h.killStep_ends_iff j stage waited now saved
    unfold RegistryWorld.sweepStep
    dsimp only [CallUnraced]
    rw [← hends]
    cases w.killStep j stage waited now saved with
    | mk w' next => cases next <;> exact Iff.rfl
  | none =>
    refine iff_of_true ?_ trivial
    unfold RegistryWorld.sweepStep
    cases todo with
    | nil =>
      rw [setCall_handles, prune_handles]
      refine .map w.handles fun h => ?_
      split <;> exact ⟨rfl, rfl⟩
    | cons j todo =>
      dsimp only
      split
      · exact .refl _
      · split
        · exact .refl _
        · split <;> exact .refl _

/-- The step writes no handle, and no process starts or ends in it. -/
def ProcessOp.bookkeeping : ProcessOp → Prop
  | .start .. | .gate .. | .poll .. | .kill .. | .sweep _ | .cancel _ => True
  | .spawn .. | .proceed .. | .exits .. | .restart .. => False

theorem handles_of_bookkeeping (hop : op.bookkeeping) :
    (registryStep maxProcesses maxLifetime deadPrune catastrophic w op).handles = w.handles ∧
      (registryStep maxProcesses maxLifetime deadPrune catastrophic w op).transports =
        w.transports := by
  cases op with
  | start command sessionKey cwd =>
    simp only [registryStep, RegistryWorld.start]
    split
    · exact ⟨rfl, rfl⟩
    · split <;> exact ⟨rfl, rfl⟩
  | gate i declined =>
    simp only [registryStep]
    split
    · split <;> exact ⟨rfl, rfl⟩
    · exact ⟨rfl, rfl⟩
  | poll processId sessionKey =>
    simp only [registryStep]
    split
    · exact ⟨rfl, rfl⟩
    · split
      · split <;> exact ⟨rfl, rfl⟩
      · exact ⟨rfl, rfl⟩
  | kill processId sessionKey =>
    simp only [registryStep]
    split
    · exact ⟨rfl, rfl⟩
    · split <;> exact ⟨rfl, rfl⟩
  | sweep moment => exact ⟨rfl, rfl⟩
  | cancel i =>
    simp only [registryStep]
    split <;> exact ⟨rfl, rfl⟩
  | spawn | proceed | exits | restart => exact hop.elim

/-- **What decides whether terminal handles stay as they are.** -/
theorem RegistryInv.terminalStays_iff (h : RegistryInv maxProcesses w) (hfresh : FreshToken w op) :
    TerminalStays maxProcesses maxLifetime deadPrune catastrophic w op ↔ Unraced w op := by
  have hkept (hop : op.bookkeeping) :
      EndsStay w.handles
        (registryStep maxProcesses maxLifetime deadPrune catastrophic w op).handles := by
    rw [(handles_of_bookkeeping hop).1]
    exact .refl _
  cases op with
  | start | gate | poll | kill | sweep | cancel => exact iff_of_true (hkept trivial) trivial
  | spawn i result now saved =>
    refine iff_of_true ?_ trivial
    simp only [TerminalStays, registryStep]
    split
    · split
      · rename_i pid token
        have hnew : ∀ h' ∈ w.handles, h'.processId ≠ token := hfresh
        unfold RegistryWorld.commit
        rw [saveCheckpoint_handles, register_fresh hnew]
        exact .append _ _
      · exact .refl _
    · exact .refl _
  | proceed i waited now saved =>
    simp only [TerminalStays, registryStep, Unraced]
    cases hi : w.calls[i]? with
    | none => exact iff_of_true (.refl _) fun _ hmem => by cases hmem
    | some call =>
      simp only [Option.mem_def, Option.some.injEq, forall_eq']
      cases call with
      | gating | spawning | «over» => exact iff_of_true (.refl _) trivial
      | kill j stage =>
        have hends := h.killStep_ends_iff j stage waited now saved
        dsimp only [CallUnraced]
        rw [← hends]
        cases w.killStep j stage waited now saved with
        | mk w' next => cases next <;> exact Iff.rfl
      | reap j rc => exact h.reapStep_ends_iff (h.calls _ (mem_of_getElem? hi)) now
      | sweep => exact h.sweepStep_ends_iff waited now saved
  | exits t rc =>
    refine iff_of_true ?_ trivial
    simp only [TerminalStays, registryStep]
    split <;> exact .refl _
  | restart => exact iff_of_true trivial trivial

/-! ## What is alive -/

/-- No process becomes alive, and the handle of each stays in the registry. -/
theorem Supervised.mono (h : Supervised w)
    (hexited : ∀ t : Nat, w'.transports[t]? = some none → w.transports[t]? = some none)
    (hhandles : ∀ hd ∈ w.handles, hd.tracked = true →
      ∃ hd' ∈ w'.handles, hd'.transport = hd.transport ∧ hd'.tracked = true) :
    Supervised w' := by
  intro t ht
  obtain ⟨hd, hmem, htransport, htracked⟩ := h t (hexited t ht)
  obtain ⟨hd', hmem', hsame, htracked'⟩ := hhandles hd hmem htracked
  exact ⟨hd', hmem', hsame.trans htransport, htracked'⟩

theorem Supervised.of_eq (h : Supervised w) (htransports : w'.transports = w.transports)
    (hhandles : w'.handles = w.handles) : Supervised w' :=
  h.mono (fun _ ht => htransports ▸ ht) fun hd hmem htracked =>
    ⟨hd, hhandles ▸ hmem, rfl, htracked⟩

theorem Supervised.set (h : Supervised w) (hj : w.handles[j]? = some hd)
    (htransport : hd'.transport = hd.transport) (htracked : hd'.tracked = hd.tracked) :
    Supervised (w.setHandle j hd') := by
  refine h.mono (fun _ ht => ht) fun h₀ hmem hin => ?_
  obtain ⟨k, hk⟩ := List.mem_iff_getElem?.mp hmem
  by_cases hjk : j = k
  · subst hjk
    cases hj.symm.trans hk
    obtain ⟨hlt, -⟩ := List.getElem?_eq_some_iff.mp hj
    exact ⟨hd', List.mem_of_getElem? (List.getElem?_set_self hlt), htransport, htracked.trans hin⟩
  · exact ⟨h₀, List.mem_of_getElem? ((List.getElem?_set_ne hjk).trans hk), rfl, hin⟩

theorem Supervised.killStep (h : Supervised w) (j : Nat) (stage : KillStage) (waited : Bool)
    (now : Int) (saved : Bool) : Supervised (w.killStep j stage waited now saved).1 := by
  unfold RegistryWorld.killStep
  split
  · exact h
  · rename_i hd hj
    split
    · exact h
    · split
      · split
        · exact h.set hj rfl rfl
        · exact h
      · exact h
    · have hset : Supervised (w.setHandle j { hd with status := .killed, lastActive := now }) :=
        h.set hj rfl rfl
      exact hset.of_eq (saveCheckpoint_transports _ _) (saveCheckpoint_handles _ _)

theorem Supervised.reapStep (h : Supervised w) (j : Nat) (rc now : Int) :
    Supervised (w.reapStep j rc now) := by
  unfold RegistryWorld.reapStep
  split
  · exact h
  · rename_i hd hj
    have hset : Supervised (w.setHandle j
        { hd with
          exitCode := some rc
          status := if rc = 0 then .exited else .failed
          lastActive := now }) := h.set hj rfl rfl
    exact hset.of_eq rfl rfl

theorem RegistryInv.supervised_prune_iff (h : RegistryInv maxProcesses w) (hw : Supervised w)
    (moment : Int) (autoKilled : Nat) (saved : Bool) :
    Supervised (w.prune deadPrune moment autoKilled saved) ↔
      ∀ hd ∈ w.handles, hd.tracked = true → hd.processId ∈ w.stale deadPrune moment →
        ∀ t ∈ hd.transport, w.transports[t]? ≠ some none := by
  unfold Supervised
  rw [prune_handles, prune_transports]
  constructor
  · intro hafter hd hmem _ hstale t ht halive
    obtain ⟨hd', hmem', htransport, htracked⟩ := hafter t halive
    obtain ⟨h₀, hh₀, rfl⟩ := mem_map.mp hmem'
    -- the handle of the process in the registry is the one that is pruned
    have htransport₀ : h₀.transport = some t := by
      split at htransport <;> exact htransport
    have hid := h.owners hd hmem h₀ hh₀ t ht htransport₀
    rw [if_pos (hid ▸ hstale)] at htracked
    cases htracked
  · intro hexited t halive
    obtain ⟨hd, hmem, htransport, htracked⟩ := hw t halive
    have hkept : hd.processId ∉ w.stale deadPrune moment :=
      fun hstale => hexited hd hmem htracked hstale t htransport halive
    refine ⟨_, mem_map_of_mem hmem, ?_⟩
    rw [if_neg hkept]
    exact ⟨htransport, htracked⟩

theorem RegistryInv.supervised_sweepStep_iff (h : RegistryInv maxProcesses w) (hw : Supervised w)
    (i : Nat) (moment : Int) (overdue todo : List Nat) (killing : Option (Nat × KillStage))
    (autoKilled : Nat) (waited : Bool) (now : Int) (saved : Bool) :
    Supervised
        (w.sweepStep deadPrune i moment overdue todo killing autoKilled waited now saved) ↔
      CallPrunesExited deadPrune w (.sweep moment overdue todo killing autoKilled) := by
  cases killing with
  | some target =>
    obtain ⟨j, stage⟩ := target
    have hkill := hw.killStep j stage waited now saved
    refine iff_of_true ?_ (by cases todo <;> trivial)
    unfold RegistryWorld.sweepStep
    dsimp only
    cases hstep : w.killStep j stage waited now saved with
    | mk w' next =>
      rw [hstep] at hkill
      cases next <;> exact hkill.of_eq rfl rfl
  | none =>
    cases todo with
    | nil => exact h.supervised_prune_iff hw moment autoKilled saved
    | cons j todo =>
      refine iff_of_true ?_ trivial
      unfold RegistryWorld.sweepStep
      dsimp only
      split
      · exact hw.of_eq rfl rfl
      · split
        · exact hw.of_eq rfl rfl
        · split <;> exact hw.of_eq rfl rfl

/-- **What decides whether the living stay supervised.** -/
theorem RegistryInv.supervised_step_iff (h : RegistryInv maxProcesses w)
    (hfresh : FreshToken w op) (hw : Supervised w) :
    Supervised (registryStep maxProcesses maxLifetime deadPrune catastrophic w op) ↔
      PrunesExited deadPrune w op := by
  have hkept (hop : op.bookkeeping) := hw.of_eq
    (@handles_of_bookkeeping maxProcesses w maxLifetime deadPrune catastrophic op hop).2
    (handles_of_bookkeeping hop).1
  cases op with
  | start | gate | poll | kill | sweep | cancel => exact iff_of_true (hkept trivial) trivial
  | spawn i result now saved =>
    refine iff_of_true ?_ trivial
    simp only [registryStep]
    split
    · split
      · rename_i pid token
        have hnew : ∀ h' ∈ w.handles, h'.processId ≠ token := hfresh
        intro t ht
        unfold RegistryWorld.commit at ht ⊢
        rw [saveCheckpoint_transports] at ht
        rw [saveCheckpoint_handles, register_fresh hnew]
        rcases Nat.lt_or_ge t w.transports.length with hbefore | hafter
        · rw [List.getElem?_append_left hbefore] at ht
          obtain ⟨hd, hmem, hrest⟩ := hw t ht
          exact ⟨hd, List.mem_append_left _ hmem, hrest⟩
        · obtain ⟨hlt, -⟩ := List.getElem?_eq_some_iff.mp ht
          rw [List.length_append, List.length_singleton] at hlt
          have hlast : t = w.transports.length := by omega
          refine ⟨_, List.mem_append_right _ List.mem_cons_self, ?_, rfl⟩
          rw [hlast]
          rfl
      · exact hw.of_eq rfl rfl
    · exact hw
  | proceed i waited now saved =>
    simp only [registryStep, PrunesExited]
    cases hi : w.calls[i]? with
    | none => exact iff_of_true hw fun _ hmem => by cases hmem
    | some call =>
      simp only [Option.mem_def, Option.some.injEq, forall_eq']
      cases call with
      | gating | spawning | «over» => exact iff_of_true hw trivial
      | kill j stage =>
        have hkill := hw.killStep j stage waited now saved
        refine iff_of_true ?_ trivial
        dsimp only
        cases hstep : w.killStep j stage waited now saved with
        | mk w' next =>
          rw [hstep] at hkill
          cases next <;> exact hkill.of_eq rfl rfl
      | reap j rc => exact iff_of_true ((hw.reapStep j rc now).of_eq rfl rfl) trivial
      | sweep moment overdue todo killing autoKilled =>
        exact h.supervised_sweepStep_iff hw i moment overdue todo killing autoKilled waited now
          saved
  | exits t rc =>
    refine iff_of_true ?_ trivial
    simp only [registryStep]
    split
    · rename_i ht
      refine hw.mono (fun k hk => ?_) fun hd hmem htracked => ⟨hd, hmem, rfl, htracked⟩
      by_cases htk : t = k
      · obtain ⟨hlt, -⟩ := List.getElem?_eq_some_iff.mp ht
        rw [htk, List.getElem?_set_self (htk ▸ hlt)] at hk
        cases hk
      · exact (List.getElem?_set_ne htk).symm.trans hk
    · exact hw
  | restart survivors now saved =>
    refine iff_of_true ?_ trivial
    intro t ht
    simp only [registryStep, RegistryWorld.reconcile, saveCheckpoint_transports] at ht
    cases ht

/-! ## Every run -/

variable {ops : List ProcessOp}

/-- Terminal handles stay as they are in exactly the runs in which no call writes over another's
end. -/
theorem meets_terminalStays_iff
    (hfresh : Meets (registryStep maxProcesses maxLifetime deadPrune catastrophic) FreshToken {}
      ops) :
    Meets (registryStep maxProcesses maxLifetime deadPrune catastrophic)
        (TerminalStays maxProcesses maxLifetime deadPrune catastrophic) {} ops ↔
      Meets (registryStep maxProcesses maxLifetime deadPrune catastrophic) Unraced {} ops :=
  meets_congr_of_meets (fun _ _ h hop => RegistryInv.step h hop)
    (fun _ _ h hop => RegistryInv.terminalStays_iff h hop) (RegistryInv.init maxProcesses) hfresh

/-- The rest holds in exactly the runs in which no sweep prunes what is alive. -/
theorem along_lifecycleHolds_iff
    (hfresh : Meets (registryStep maxProcesses maxLifetime deadPrune catastrophic) FreshToken {}
      ops) :
    Along (registryStep maxProcesses maxLifetime deadPrune catastrophic)
        (LifecycleHolds maxProcesses) {} ops ↔
      Meets (registryStep maxProcesses maxLifetime deadPrune catastrophic)
        (PrunesExited deadPrune) {} ops := by
  have hinit := RegistryInv.init maxProcesses
  have hempty : LifecycleHolds maxProcesses {} :=
    hinit.lifecycleHolds_iff.mpr fun _ ht => by cases ht
  refine along_iff_meets_of_meets (fun _ _ h hop => h.step hop) (fun w op h hop hholds => ?_) hinit
    hempty hfresh
  exact (h.step hop).lifecycleHolds_iff.trans
    (h.supervised_step_iff hop (h.lifecycleHolds_iff.mp hholds))

end

/-- **The lifecycle, exactly where it holds.** -/
theorem lifecycle_iff (maxProcesses : Nat) (maxLifetime deadPrune : Int)
    (catastrophic : List String → Bool) (ops : List ProcessOp)
    (hfresh : Meets (registryStep maxProcesses maxLifetime deadPrune catastrophic) FreshToken {}
      ops) :
    (Along (registryStep maxProcesses maxLifetime deadPrune catastrophic)
        (LifecycleHolds maxProcesses) {} ops ∧
      Meets (registryStep maxProcesses maxLifetime deadPrune catastrophic)
        (TerminalStays maxProcesses maxLifetime deadPrune catastrophic) {} ops ∧
      Meets (registryStep maxProcesses maxLifetime deadPrune catastrophic)
        (SweepSees maxProcesses maxLifetime deadPrune catastrophic) {} ops) ↔
    Meets (registryStep maxProcesses maxLifetime deadPrune catastrophic)
      (fun w op => Unraced w op ∧ PrunesExited deadPrune w op) {} ops := by
  have hsees : Meets (registryStep maxProcesses maxLifetime deadPrune catastrophic)
      (SweepSees maxProcesses maxLifetime deadPrune catastrophic) {} ops :=
    @meets_of_inv _ _ _ (fun _ => True) _ (fun _ _ _ => trivial)
      (fun w op _ => sweepSees_step w op) _ trivial ops
  rw [along_lifecycleHolds_iff hfresh, meets_terminalStays_iff hfresh, meets_and]
  exact ⟨fun ⟨hprunes, hunraced, _⟩ => ⟨hunraced, hprunes⟩,
    fun ⟨hunraced, hprunes⟩ => ⟨hprunes, hunraced, hsees⟩⟩

/-- A process that had to be asked for, and exited; one that outlived a restart, and its
deadline. -/
def supervisedRun : List ProcessOp :=
  [.start ["rm", "-rf"] "s" none, .gate 0 none, .spawn 0 (.spawned 7 "a") 0 true,
    .start ["ls"] "s" none, .exits 0 1, .poll "a" (some "s"), .proceed 2 true 1 true,
    .start ["ls"] "s" none, .spawn 3 (.spawned 8 "b") 2 true, .start ["ls"] "s" none, .cancel 4,
    .restart [(true, "c")] 5 true, .sweep 200, .proceed 0 true 200 true, .proceed 0 true 201 true,
    .proceed 0 true 202 true, .proceed 0 true 203 true, .sweep 600, .proceed 1 true 600 true]

theorem lifecycle_iff_supervisedRun :
    Along (registryStep 1 100 300 fun command => decide (command = ["rm", "-rf"]))
      (LifecycleHolds 1) {} supervisedRun ∧
    Meets (registryStep 1 100 300 fun command => decide (command = ["rm", "-rf"]))
      (TerminalStays 1 100 300 fun command => decide (command = ["rm", "-rf"])) {}
      supervisedRun ∧
    Meets (registryStep 1 100 300 fun command => decide (command = ["rm", "-rf"]))
      (SweepSees 1 100 300 fun command => decide (command = ["rm", "-rf"])) {} supervisedRun :=
  (lifecycle_iff 1 100 300 _ supervisedRun (by decide)).mpr (by decide)

/-- A kill waits for its process; it ends, and a poll reaps it. -/
def racedRun : List ProcessOp :=
  [.start ["sleep"] "s" none, .spawn 0 (.spawned 7 "a") 0 true, .kill "a" (some "s"),
    .proceed 1 true 1 true, .exits 0 (-15), .poll "a" (some "s"), .proceed 2 true 2 true,
    .proceed 1 true 3 true, .proceed 1 true 4 true]

/-- A kill gives its process up, and a sweep prunes it. -/
def givenUpRun : List ProcessOp :=
  [.start ["sleep"] "s" none, .spawn 0 (.spawned 7 "a") 0 true, .kill "a" (some "s"),
    .proceed 1 true 1 true, .proceed 1 false 6 true, .proceed 1 true 6 true, .sweep 1000,
    .proceed 2 true 1000 true]

/-- A kill writes over a reap, and a sweep prunes what is alive. -/
theorem kill_overwrites_reap :
    ¬ Meets (registryStep 8 100 300 fun _ => false) (TerminalStays 8 100 300 fun _ => false) {}
      racedRun ∧
    ¬ Along (registryStep 8 100 300 fun _ => false) (LifecycleHolds 8) {} givenUpRun := by
  constructor
  · rw [meets_terminalStays_iff (by decide)]
    decide
  · rw [along_lifecycleHolds_iff (by decide)]
    decide

end StackOwl.Process
