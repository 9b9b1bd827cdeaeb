import Mathlib.Data.List.Basic
import StackOwl.Lib.Run

/-!
# The process registry

`ProcessRegistry` (`process/registry.py`, `process/maintenance.py`), `ProcessHandle`
(`process/handle.py`) and `ProcessCheckpoint` (`process/checkpoint.py`).  A start reserves a
slot, asks for consent where the command is catastrophic, and spawns; a kill and the reaping of
an exited process test that the handle is running, await, and then write how it ended; a sweep
kills what has outlived its deadline, one after the other, and prunes what has been dead for
long.

Each call is a list entry that says where it is; one operation takes one call to its next
await.  Calls are cancelled, processes exit, and the program restarts, at any time.  Instants
are integers.

A handle is named by its place in the list of the handles made since the last restart, and
`tracked` says that it is in the registry.  `create_subprocess_exec` gives a process, or
raises and leaves none.
-/

namespace StackOwl.Process

open Lib

/-! ## Handles -/

inductive ProcessStatus where
  | running
  | exited
  | killed
  | failed
  deriving DecidableEq

/-- `ProcessHandle`; `transport` is the place of its process among those spawned, if it was
not adopted. -/
structure ProcessHandle where
  processId : String
  command : List String
  sessionKey : String
  transport : Option Nat
  pid : Option Int
  cwd : Option String := none
  status : ProcessStatus := .running
  exitCode : Option Int := none
  createdAt : Int
  lastActive : Int
  ttlDeadline : Int
  tracked : Bool := true

def ProcessHandle.isRunning (h : ProcessHandle) : Bool := h.status == .running

structure CheckpointEntry where
  processId : String
  pid : Option Int
  command : List String
  sessionKey : String
  createdAt : Int
  status : ProcessStatus

def ProcessHandle.entry (h : ProcessHandle) : CheckpointEntry where
  processId := h.processId
  pid := h.pid
  command := h.command
  sessionKey := h.sessionKey
  createdAt := h.createdAt
  status := h.status

/-! ## Calls -/

/-- `ProcessRegistryError`. -/
inductive Refusal where
  | emptyCommand
  | tooManyProcesses (occupied : Int) (max : Nat)
  | catastrophicDenied (detail : String)
  | spawnFailed (detail : String)

def Refusal.reason : Refusal → String
  | .emptyCommand => "empty_command"
  | .tooManyProcesses .. => "too_many_processes"
  | .catastrophicDenied _ => "catastrophic_denied"
  | .spawnFailed _ => "spawn_failed"

def Refusal.detail : Refusal → String
  | .emptyCommand => "no command given to start"
  | .tooManyProcesses occupied max =>
    "too many live processes (" ++ toString occupied ++ " >= " ++ toString max ++ "); " ++
      "kill one before starting another."
  | .catastrophicDenied detail => detail
  | .spawnFailed detail => detail

/-- What a call returned, or that it was cancelled. -/
inductive Outcome where
  | started (handle : Nat)
  | refused (refusal : Refusal)
  | polled (handle : Option Nat)
  | killed (existed : Bool)
  | swept (overdue : List Nat) (autoKilled pruned : Nat)
  | cancelled

/-- Which await of `kill` is next to return: that of `terminate_tree`, of the transport, or of
`stop_readers`. -/
inductive KillStage where
  | terminating
  | waiting
  | stopping

inductive Call where
  | gating (command : List String) (sessionKey : String) (cwd : Option String)
  | spawning (command : List String) (sessionKey : String) (cwd : Option String)
  | kill (handle : Nat) (stage : KillStage)
  | reap (handle : Nat) (returncode : Int)
  | sweep (moment : Int) (overdue todo : List Nat) (killing : Option (Nat × KillStage))
      (autoKilled : Nat)
  | over (outcome : Outcome)

def Call.starting : Call → Bool
  | .gating .. => true
  | .spawning .. => true
  | _ => false

/-- The handles, the reservations, when handles became terminal, the checkpoint on disk, the
return codes of the processes spawned, and the calls. -/
structure RegistryWorld where
  handles : List ProcessHandle := []
  reserved : Int := 0
  terminalAt : List (String × Int) := []
  checkpoint : List CheckpointEntry := []
  transports : List (Option Int) := []
  calls : List Call := []

/-! ## The registry -/

/-- `self._procs[handle.process_id] = handle`. -/
def register (h : ProcessHandle) (handles : List ProcessHandle) : List ProcessHandle :=
  handles.map (fun h' => if h'.processId = h.processId then { h' with tracked := false } else h') ++
    [h]

namespace RegistryWorld

variable (w : RegistryWorld)

def live : Nat := w.handles.countP fun h => h.tracked && h.isRunning

def getScoped (processId : String) (sessionKey : Option String) :
    Option Nat :=
  (w.handles.findIdx? fun h => h.tracked && h.processId == processId).filter fun i =>
    w.handles[i]?.any fun h => sessionKey.all fun key => h.sessionKey == key

/-- `_save_checkpoint`; a write that fails leaves the file. -/
def saveCheckpoint (ok : Bool) : RegistryWorld :=
  if ok then
    { w with
      checkpoint :=
        (w.handles.filter fun h => h.tracked && h.isRunning).map ProcessHandle.entry }
  else w

def markTerminal (processId : String) (now : Int) : RegistryWorld :=
  { w with terminalAt := w.terminalAt.filter (fun entry => entry.1 != processId) ++
      [(processId, now)] }

variable (i : Nat)

def setHandle (h : ProcessHandle) : RegistryWorld :=
  { w with handles := w.handles.set i h }

def setCall (call : Call) : RegistryWorld :=
  { w with calls := w.calls.set i call }

def addCall (call : Call) : RegistryWorld :=
  { w with calls := w.calls ++ [call] }

def returncode (h : ProcessHandle) : Option Int :=
  h.transport.bind fun t => w.transports[t]?.bind id

/-- A start gives its reservation back. -/
def rollback (outcome : Outcome) : RegistryWorld :=
  { w with reserved := w.reserved - 1, calls := w.calls.set i (.over outcome) }

/-- `kill`, from one await to the next; it has returned when there is no stage. -/
def killStep (stage : KillStage) (waited : Bool) (now : Int) (saved : Bool)
    : RegistryWorld × Option KillStage :=
  match w.handles[i]? with
  | none => (w, none)
  | some h =>
    match stage with
    | .terminating => (w, some (if h.transport.isSome then .waiting else .stopping))
    | .waiting =>
      if waited then
        match w.returncode h with
        | some rc => (w.setHandle i { h with exitCode := some rc }, some .stopping)
        | none => (w, some .waiting)
      else (w, some .stopping)
    | .stopping =>
      (((w.setHandle i { h with status := .killed, lastActive := now }).markTerminal h.processId
        now).saveCheckpoint saved, none)

/-- The rest of `_reap_if_exited`. -/
def reapStep (rc : Int) (now : Int) : RegistryWorld :=
  match w.handles[i]? with
  | none => w
  | some h =>
    (w.setHandle i
      { h with
        exitCode := some rc
        status := if rc = 0 then .exited else .failed
        lastActive := now }).markTerminal h.processId now

section
variable (deadPrune : Int)

/-- The handles that have been terminal for long. -/
def stale (w : RegistryWorld) (moment : Int) : List String :=
  (w.terminalAt.filter fun entry => decide (deadPrune ≤ moment - entry.2) &&
    w.handles.any fun h => h.tracked && h.processId == entry.1).map Prod.fst

/-- The dead-handle prune of a sweep, and its checkpoint. -/
def prune (w : RegistryWorld) (moment : Int) (autoKilled : Nat) (saved : Bool) : RegistryWorld :=
  let stale := w.stale deadPrune moment
  let pruned : RegistryWorld :=
    { w with
      handles := w.handles.map fun h =>
        if h.processId ∈ stale then { h with tracked := false } else h
      terminalAt := w.terminalAt.filter fun entry => decide (entry.1 ∉ stale) }
  if stale = [] ∧ autoKilled = 0 then pruned else pruned.saveCheckpoint saved

/-- `sweep`, from one await to the next. -/
def sweepStep (w : RegistryWorld) (i : Nat) (moment : Int) (overdue todo : List Nat)
    (killing : Option (Nat × KillStage)) (autoKilled : Nat) (waited : Bool) (now : Int)
    (saved : Bool) : RegistryWorld :=
  match killing, todo with
  | some (j, stage), todo =>
    match w.killStep j stage waited now saved with
    | (w', some stage) => w'.setCall i (.sweep moment overdue todo (some (j, stage)) autoKilled)
    | (w', none) => w'.setCall i (.sweep moment overdue todo none (autoKilled + 1))
  | none, j :: todo =>
    match w.handles[j]? with
    | none => w.setCall i (.sweep moment overdue todo none autoKilled)
    | some h =>
      match w.getScoped h.processId (some h.sessionKey) with
      | none => w.setCall i (.sweep moment overdue todo none autoKilled)
      | some j =>
        if w.handles[j]?.any ProcessHandle.isRunning then
          w.setCall i (.sweep moment overdue todo (some (j, .terminating)) autoKilled)
        else w.setCall i (.sweep moment overdue todo none (autoKilled + 1))
  | none, [] =>
    (w.prune deadPrune moment autoKilled saved).setCall i
      (.over (.swept overdue autoKilled (w.stale deadPrune moment).length))

end

end RegistryWorld

/-! ## Steps -/

/-- What `create_subprocess_exec` gives: a process with its pid, which gets a handle with a new
token, or an `OSError`. -/
inductive Spawn where
  | spawned (pid : Int) (token : String)
  | osError (detail : String)

/-- One thing that can happen next. -/
inductive ProcessOp where
  | start (command : List String) (sessionKey : String) (cwd : Option String)
  /-- The gate of a catastrophic command lets it pass, or declines. -/
  | gate (i : Nat) (declined : Option String)
  /-- The spawn of a start returns. -/
  | spawn (i : Nat) (result : Spawn) (now : Int) (saved : Bool)
  | poll (processId : String) (sessionKey : Option String)
  | kill (processId : String) (sessionKey : Option String)
  | sweep (moment : Int)
  /-- The await of a kill, a reap or a sweep returns; `waited` says that the transport did,
  before the timeout. -/
  | proceed (i : Nat) (waited : Bool) (now : Int) (saved : Bool)
  | cancel (i : Nat)
  /-- A process exits. -/
  | exits (transport : Nat) (returncode : Int)
  /-- The program restarts; the survivors say which pids of the checkpoint are alive, each with
  the token of a new handle. -/
  | restart (survivors : List (Bool × String)) (now : Int) (saved : Bool)

section
variable (maxProcesses : Nat) (maxLifetime deadPrune : Int) (catastrophic : List String → Bool)

/-- `start`, up to its first await. -/
def RegistryWorld.start (w : RegistryWorld) (command : List String) (sessionKey : String)
    (cwd : Option String) : RegistryWorld :=
  if command = [] then w.addCall (.over (.refused .emptyCommand))
  else if (maxProcesses : Int) ≤ w.live + w.reserved then
    w.addCall (.over (.refused (.tooManyProcesses (w.live + w.reserved) maxProcesses)))
  else
    { w with reserved := w.reserved + 1 }.addCall
      (if catastrophic command then .gating command sessionKey cwd
      else .spawning command sessionKey cwd)

def spawnedHandle (command : List String) (sessionKey : String) (cwd : Option String)
    (transport : Nat) (pid : Int) (token : String) (now : Int) : ProcessHandle where
  processId := token
  command := command
  sessionKey := sessionKey
  transport := some transport
  pid := some pid
  cwd := cwd
  createdAt := now
  lastActive := now
  ttlDeadline := now + maxLifetime

def RegistryWorld.commit (w : RegistryWorld) (i : Nat) (h : ProcessHandle) (saved : Bool) :
    RegistryWorld :=
  { w with
    handles := register h w.handles
    reserved := w.reserved - 1
    transports := w.transports ++ [none]
    calls := w.calls.set i (.over (.started w.handles.length)) }.saveCheckpoint saved

/-- The handle `reconcile` makes of a process that survived. -/
def adoptedHandle (entry : CheckpointEntry) (token : String) (now : Int) : ProcessHandle where
  processId := if entry.processId = "" then token else entry.processId
  command := entry.command
  sessionKey := entry.sessionKey
  transport := none
  pid := entry.pid
  createdAt := now
  lastActive := now
  ttlDeadline := now + maxLifetime

def adopted (checkpoint : List CheckpointEntry) (survivors : List (Bool × String)) (now : Int) :
    List ProcessHandle :=
  (checkpoint.zip survivors).filterMap fun (entry, alive, token) =>
    if entry.pid.isSome && alive then some (adoptedHandle maxLifetime entry token now) else none

/-- `reconcile`, at the start of the program. -/
def RegistryWorld.reconcile (w : RegistryWorld) (survivors : List (Bool × String)) (now : Int)
    (saved : Bool) : RegistryWorld :=
  let handles := (adopted maxLifetime w.checkpoint survivors now).foldl (fun handles h =>
    register h handles) []
  ({ handles := handles.filter ProcessHandle.tracked, checkpoint := w.checkpoint }
    : RegistryWorld).saveCheckpoint saved

def registryStep (w : RegistryWorld) : ProcessOp → RegistryWorld
  | .start command sessionKey cwd => w.start maxProcesses catastrophic command sessionKey cwd
  | .gate i declined =>
    match w.calls[i]? with
    | some (.gating command sessionKey cwd) =>
      match declined with
      | some detail => w.rollback i (.refused (.catastrophicDenied detail))
      | none => w.setCall i (.spawning command sessionKey cwd)
    | _ => w
  | .spawn i result now saved =>
    match w.calls[i]? with
    | some (.spawning command sessionKey cwd) =>
      match result with
      | .spawned pid token =>
        w.commit i
          (spawnedHandle maxLifetime command sessionKey cwd w.transports.length pid token now) saved
      | .osError detail => w.rollback i (.refused (.spawnFailed detail))
    | _ => w
  | .poll processId sessionKey =>
    match w.getScoped processId sessionKey with
    | none => w.addCall (.over (.polled none))
    | some j =>
      match w.handles[j]? with
      | some h =>
        match h.isRunning, w.returncode h with
        | true, some rc => w.addCall (.reap j rc)
        | _, _ => w.addCall (.over (.polled (some j)))
      | none => w
  | .kill processId sessionKey =>
    match w.getScoped processId sessionKey with
    | none => w.addCall (.over (.killed false))
    | some j =>
      if w.handles[j]?.any ProcessHandle.isRunning then w.addCall (.kill j .terminating)
      else w.addCall (.over (.killed true))
  | .sweep moment =>
    let overdue := (List.range w.handles.length).filter fun j =>
      w.handles[j]?.any fun h => h.tracked && h.isRunning && decide (h.ttlDeadline ≤ moment)
    w.addCall (.sweep moment overdue overdue none 0)
  | .proceed i waited now saved =>
    match w.calls[i]? with
    | some (.kill j stage) =>
      match w.killStep j stage waited now saved with
      | (w', some stage) => w'.setCall i (.kill j stage)
      | (w', none) => w'.setCall i (.over (.killed true))
    | some (.reap j rc) => (w.reapStep j rc now).setCall i (.over (.polled (some j)))
    | some (.sweep moment overdue todo killing autoKilled) =>
      w.sweepStep deadPrune i moment overdue todo killing autoKilled waited now saved
    | _ => w
  | .cancel i =>
    match w.calls[i]? with
    | some (.gating ..) => w.rollback i .cancelled
    | some (.spawning ..) => w.rollback i .cancelled
    -- `stop_readers` takes a cancellation for that of a reader
    | some (.kill _ .stopping) => w
    | some (.kill ..) => w.setCall i (.over .cancelled)
    | some (.sweep _ _ _ (some (_, .stopping)) _) => w
    | some (.sweep _ _ _ (some _) _) => w.setCall i (.over .cancelled)
    | _ => w
  | .exits t rc =>
    match w.transports[t]? with
    | some none => { w with transports := w.transports.set t (some rc) }
    | _ => w
  | .restart survivors now saved => w.reconcile maxLifetime survivors now saved

end

end StackOwl.Process
