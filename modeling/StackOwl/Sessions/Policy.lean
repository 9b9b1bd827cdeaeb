import Mathlib.Data.Int.Notation

/-!
# When a conversation ends by itself

The reset policy and the branch a message takes (`sessions/policy.py`, with the entry of
`sessions/models.py`): a lane keeps its key and changes its conversation, which is replaced where
the lane was wiped, where it went quiet or the day turned, and where the process it began under is
gone.

A conversation is the number of its minting.  A datetime is an instant and the offset of its zone,
in microseconds.
-/

namespace StackOwl.Sessions

structure Stamp where
  instant : Int
  offset : Int := 0

def MINUTE : Int := 60 * 1000000

def HOUR : Int := 60 * MINUTE

def DAY : Int := 24 * HOUR

def Stamp.hour (now : Stamp) : Int := (now.instant + now.offset) % DAY / HOUR

/-- `now.replace(hour=hour, minute=0, second=0, microsecond=0)`. -/
def Stamp.atHour (now : Stamp) (hour : Nat) : Int :=
  (now.instant + now.offset) / DAY * DAY + hour * HOUR - now.offset

inductive ResetReason where
  | daily
  | idle
  | explicit
  | contextFull
  | suspended
  | restart
  deriving DecidableEq

namespace ResetReason

def isAutomatic (reason : ResetReason) : Bool := reason ∈ [daily, idle, contextFull]

def endsTheConversation (reason : ResetReason) : Bool := reason ≠ restart

end ResetReason

inductive Branch where
  | new
  | suspended
  | resume
  | expired
  | existing
  | explicitReset

structure SessionEntry where
  conversationId : Nat
  owlName : String
  channel : String
  createdAt : Stamp
  updatedAt : Stamp
  messageCount : Nat := 0
  completedTurns : Nat := 0
  identityKey : Option String := none
  parentSessionKey : Option String := none
  chatId : Option String := none
  suspended : Bool := false
  resumePending : Bool := false
  resumeReason : Option String := none
  wasAutoReset : Bool := false
  autoResetReason : Option ResetReason := none
  isFreshReset : Bool := false
  expiryFinalized : Bool := false
  restartFailures : Nat := 0

inductive ResetMode where
  | none
  | idle
  | daily
  | both
  deriving DecidableEq

namespace ResetMode

def dailyArmed (mode : ResetMode) : Bool := mode = daily ∨ mode = both

def idleArmed (mode : ResetMode) : Bool := mode = idle ∨ mode = both

end ResetMode

/-- A policy that `__post_init__` accepts. -/
structure ResetPolicy where
  mode : ResetMode := .both
  atHour : Nat := 4
  idleMinutes : Nat := 1440
  atHour_le : atHour ≤ 23 := by decide
  idleMinutes_pos : 1 ≤ idleMinutes := by decide

def expiredReason (entry : SessionEntry) (now : Stamp) (policy : ResetPolicy) :
    Option ResetReason :=
  if policy.mode = .none then none
  else if policy.mode.idleArmed ∧
      entry.updatedAt.instant + policy.idleMinutes * MINUTE < now.instant then
    some .idle
  else if policy.mode.dailyArmed ∧ entry.updatedAt.instant <
      (if now.hour < policy.atHour then now.atHour policy.atHour - DAY
        else now.atHour policy.atHour) then
    some .daily
  else none

structure Resolution where
  branch : Branch
  reason : Option ResetReason := none
  mintsNewIncarnation : Bool := false

def resolve (entry : Option SessionEntry) (now : Stamp) (policy : ResetPolicy)
    (hasActiveWork : Bool) (processStartedAt : Option Stamp) : Resolution :=
  match entry with
  | none => { branch := .new, mintsNewIncarnation := true }
  | some entry =>
    if entry.suspended then
      { branch := .suspended, reason := some .suspended, mintsNewIncarnation := true }
    else if entry.resumePending then { branch := .resume }
    else
      match expiredReason entry now policy with
      | some reason =>
        if hasActiveWork then { branch := .existing }
        else { branch := .expired, reason := some reason, mintsNewIncarnation := true }
      | none =>
        if (processStartedAt.any fun started => entry.createdAt.instant < started.instant) ∧
            !hasActiveWork then
          { branch := .expired, reason := some .restart, mintsNewIncarnation := true }
        else { branch := .existing }

theorem expiredReason_ne_restart (entry : SessionEntry) (now : Stamp) (policy : ResetPolicy) :
    expiredReason entry now policy ≠ some .restart := by
  unfold expiredReason
  split
  · simp
  · split
    · simp
    · split <;> simp

/-- **When a message rolls the lane because the process is another.** -/
theorem resolve_restart_iff {entry : SessionEntry} {now started : Stamp} {policy : ResetPolicy}
    {hasActiveWork : Bool} :
    (resolve (some entry) now policy hasActiveWork (some started)).reason = some .restart ↔
      entry.suspended = false ∧ entry.resumePending = false ∧
        expiredReason entry now policy = none ∧
        entry.createdAt.instant < started.instant ∧ hasActiveWork = false := by
  unfold resolve
  cases hsuspended : entry.suspended with
  | true => simp [hsuspended]
  | false =>
    cases hresume : entry.resumePending with
    | true => simp [hsuspended, hresume]
    | false =>
      cases hexpired : expiredReason entry now policy with
      | some reason =>
        have hother : reason ≠ .restart := fun h =>
          expiredReason_ne_restart entry now policy (hexpired.trans (congrArg some h))
        cases hasActiveWork <;> simp [hsuspended, hresume, hexpired, hother]
      | none =>
        by_cases hbefore : entry.createdAt.instant < started.instant
        · cases hasActiveWork <;> simp [hsuspended, hresume, hexpired, hbefore]
        · simp [hsuspended, hresume, hexpired, hbefore]

end StackOwl.Sessions
