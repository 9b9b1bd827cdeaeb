import Mathlib.Logic.Basic
import Mathlib.Tactic.Common

/-!
# Changing and resetting the dashboard password

`ControlPlanePassword.replace_password` and `reset` change up to three records, the
password's hash, the setup code and the access token, in stores that fail on their own.
Every step has its undo: a write that does not read back puts the record before it back, and
a step that fails undoes the steps before it.

A record is what a later read of its store gives.  The outcome of every store, read and
delete call is part of the input.

## Main results

* `write_eq` — what a write leaves, whether its value verifies or not.
* `replacePassword_holds_iff`, `reset_holds_iff` — exactly when a transaction that fails
  leaves the three records as they were, or names what it did not.
-/

namespace StackOwl.ControlPlane

/-! ## The calls of the secret store -/

/-- What a store call does: `wrote` raises after the value landed, and after `reads other`,
which returns, a read gives `other`. -/
inductive StoreCall where
  | stored
  | refused
  | wrote
  | reads (other : Option String)
  deriving DecidableEq

namespace StoreCall

def raises : StoreCall → Bool
  | refused | wrote => true
  | stored | reads _ => false

def leaves (v : String) (record : Option String) : StoreCall → Option String
  | stored | wrote => some v
  | refused => record
  | reads other => other

end StoreCall

/-- What a delete does: `half` raises and leaves something else, and `kept` returns although
something is still read. -/
inductive DeleteCall where
  | removed
  | refused
  | half (left : Option String)
  | kept (left : Option String)

namespace DeleteCall

def raises : DeleteCall → Bool
  | refused | half _ => true
  | removed | kept _ => false

def leaves (record : Option String) : DeleteCall → Option String
  | removed => none
  | refused => record
  | half left | kept left => left

end DeleteCall

/-! ## Writing one record -/

/-- The calls of one write: the store, whether the value can be read back, and the undo. -/
structure WriteCalls where
  store : StoreCall
  readBack : Bool
  undoStore : StoreCall
  undoDelete : DeleteCall

structure RecordCalls extends WriteCalls where
  readBefore : Bool

/-- `_write`: what the store then holds, and whether the call returns. -/
def write (c : WriteCalls) (encoded : String) (previous record : Option String) :
    Option String × Bool :=
  let held := c.store.leaves encoded record
  if c.store.raises then (held, false)
  else
    let readBack := if c.readBack then held else none
    if readBack = some encoded then (held, true)
    else
      match previous with
      | none => (c.undoDelete.leaves held, false)
      | some p => (c.undoStore.leaves p held, false)

/-- `read_credential`: a token that cannot be read counts as absent. -/
def readCredential (readable : Bool) (token : Option String) : Option String :=
  if readable then token else none

/-- `rotate_credential`, of a fresh token or of the one to put back.  It stores, reads back
and undoes as `_write` does. -/
def rotateCredential (c : RecordCalls) (minted : String) (token : Option String) :
    Option String × Bool :=
  write c.toWriteCalls minted (readCredential c.readBefore token) token

/-- The common part of `set` and `issue_code`: a record that cannot be read is not
replaced. -/
def replaceRecord (c : RecordCalls) (encoded : String) (record : Option String) :
    Option String × Bool :=
  if c.readBefore then write c.toWriteCalls encoded record record else (record, false)

/-- `set`, which also returns the record that it replaced. -/
def set (c : RecordCalls) (encoded : String) (hash : Option String) :
    Option String × Option (Option String) :=
  match replaceRecord c encoded hash with
  | (held, true) => (held, some hash)
  | (held, false) => (held, none)

def issueCode (c : RecordCalls) (issued : String) (code : Option String) :
    Option String × Bool :=
  replaceRecord c issued code

/-! ## Clearing and putting back -/

structure ClearCalls where
  delete : DeleteCall
  readAfter : Bool

def clear (c : ClearCalls) (hash : Option String) : Option String × Bool :=
  let left := c.delete.leaves hash
  if c.delete.raises then (left, false)
  else if c.readAfter then (left, left.isNone)
  else (left, false)

structure RestoreCalls where
  store : StoreCall
  clear : ClearCalls

def restore (c : RestoreCalls) (previous hash : Option String) : Option String × Bool :=
  match previous with
  | none => clear c.clear hash
  | some p => (c.store.leaves p hash, !c.store.raises)

/-- `_restore_token`: a token that was absent needs no restoring. -/
def restoreToken (c : RecordCalls) (previous token : Option String) : Option String × Bool :=
  match previous with
  | none => (token, true)
  | some p => rotateCredential c p token

structure PutBackCalls where
  store : StoreCall
  delete : DeleteCall

def putCodeBack (c : PutBackCalls) (previous code : Option String) : Option String × Bool :=
  match previous with
  | none => (c.delete.leaves code, !c.delete.raises)
  | some p => (c.store.leaves p code, !c.store.raises)

structure ConsumeCalls where
  readCode : Bool
  delete : DeleteCall
  putBack : PutBackCalls

def consumeCode (c : ConsumeCalls) (code : Option String) : Option String × Bool :=
  if c.readCode then
    let left := c.delete.leaves code
    if c.delete.raises then ((putCodeBack c.putBack code left).1, false) else (left, true)
  else (code, false)

/-! ## The transactions -/

@[ext]
structure Secrets where
  hash : Option String
  code : Option String
  token : Option String
  deriving DecidableEq

/-- What the call derives anew, none of it stored before: the hash is salted, the code and
the token are drawn. -/
structure Fresh (s : Secrets) where
  hash : String
  code : String
  token : String
  hash_ne : s.hash ≠ some hash
  code_ne : s.code ≠ some code
  token_ne : s.token ≠ some token

structure ReplaceCalls where
  readToken : Bool
  rotate : RecordCalls
  set : RecordCalls
  consume : ConsumeCalls
  undoHash : RestoreCalls
  undoToken : RecordCalls

variable (s : Secrets)

/-- `_undo`; `written` is the record that `set` replaced, when it returned. -/
def undo (c : ReplaceCalls) (previousToken : Option String) (written : Option (Option String))
    (s : Secrets) : Secrets :=
  let hash :=
    match written with
    | some replaced => (restore c.undoHash replaced s.hash).1
    | none => s.hash
  { s with hash := hash, token := (restoreToken c.undoToken previousToken s.token).1 }

/-- `replace_password`: the records, and whether it returns. -/
def replacePassword (c : ReplaceCalls) (s : Secrets) (new : Fresh s) (consume_code : Bool) :
    Secrets × Bool :=
  let previousToken := readCredential c.readToken s.token
  match rotateCredential c.rotate new.token s.token with
  | (token, false) => ({ s with token := token }, false)
  | (token, true) =>
    match set c.set new.hash s.hash with
    | (hash, none) =>
      (undo c previousToken none { s with hash := hash, token := token }, false)
    | (hash, some replaced) =>
      if consume_code then
        match consumeCode c.consume s.code with
        | (code, true) => (⟨hash, code, token⟩, true)
        | (code, false) => (undo c previousToken (some replaced) ⟨hash, code, token⟩, false)
      else ({ s with hash := hash, token := token }, true)

structure ResetCalls where
  readCode : Bool
  readToken : Bool
  issue : RecordCalls
  rotate : RecordCalls
  clear : ClearCalls
  restoreToken : RecordCalls
  putBack : PutBackCalls

/-- How `reset` ends: `incomplete` is `PasswordResetIncomplete` with what stayed changed. -/
inductive ResetEnd where
  | returned
  | unavailable
  | incomplete (changed : List String)
  deriving DecidableEq

def CODE_CHANGED : String := "a new setup code was stored"

def TOKEN_CHANGED : String := "the access token was rotated"

def raiseResetFailure (changed : List String) : ResetEnd :=
  if changed = [] then .unavailable else .incomplete changed

variable (c : ResetCalls)

def reset (s : Secrets) (new : Fresh s) : Secrets × ResetEnd :=
  if c.readCode then
    let previousToken := readCredential c.readToken s.token
    match issueCode c.issue new.code s.code with
    | (code, false) => ({ s with code := code }, .unavailable)
    | (code, true) =>
      match rotateCredential c.rotate new.token s.token with
      | (token, false) =>
        let back := putCodeBack c.putBack s.code code
        ({ s with code := back.1, token := token },
          raiseResetFailure (if back.2 then [] else [CODE_CHANGED]))
      | (token, true) =>
        match clear c.clear s.hash with
        | (hash, true) => (⟨hash, code, token⟩, .returned)
        | (hash, false) =>
          let held := restoreToken c.restoreToken previousToken token
          let back := putCodeBack c.putBack s.code code
          (⟨hash, back.1, held.1⟩,
            raiseResetFailure
              ((if held.2 then [] else [TOKEN_CHANGED]) ++
                (if back.2 then [] else [CODE_CHANGED])))
  else (s, .unavailable)

/-! ## One write -/

namespace WriteCalls

/-- The value is stored, and read back. -/
def verified (c : WriteCalls) (v : String) : Prop :=
  c.readBack = true ∧ (c.store = .stored ∨ c.store = .reads (some v))

instance (c : WriteCalls) (v : String) : Decidable (c.verified v) :=
  inferInstanceAs (Decidable (_ ∧ _))

/-- What a write that does not verify leaves: a store that raises is not undone. -/
def leftover (c : WriteCalls) (v : String) (previous record : Option String) : Option String :=
  let held := c.store.leaves v record
  if c.store.raises then held
  else
    match previous with
    | none => c.undoDelete.leaves held
    | some p => c.undoStore.leaves p held

def UndoesWell (c : WriteCalls) : Prop :=
  c.undoStore = .stored ∧ c.undoDelete = .removed

/-- The write, which puts a record back, succeeds. -/
def WritesWell (c : WriteCalls) : Prop :=
  c.store = .stored ∧ c.readBack = true

end WriteCalls

theorem write_eq (c : WriteCalls) (v : String) (previous record : Option String) :
    write c v previous record =
      if c.verified v then (some v, true) else (c.leftover v previous record, false) := by
  cases hStore : c.store with
  | refused | wrote =>
    have hNot : ¬ c.verified v := by simp [WriteCalls.verified, hStore]
    simp [write, WriteCalls.leftover, hNot, hStore, StoreCall.raises]
  | stored =>
    cases hRead : c.readBack with
    | true =>
      have hVerified : c.verified v := ⟨hRead, .inl hStore⟩
      simp [write, hVerified, hStore, hRead, StoreCall.raises, StoreCall.leaves]
    | false =>
      have hNot : ¬ c.verified v := by simp [WriteCalls.verified, hRead]
      cases previous <;>
        simp [write, WriteCalls.leftover, hNot, hStore, hRead, StoreCall.raises]
  | reads other =>
    by_cases hVerified : c.verified v
    · have hOther : other = some v := by simpa [hStore] using hVerified.2
      simp [write, hVerified, hStore, hVerified.1, hOther, StoreCall.raises,
        StoreCall.leaves]
    · have hDiffers : ¬ (if c.readBack then other else none) = some v := by
        intro hBack
        refine hVerified ⟨?_, .inr ?_⟩
        · by_contra hUnread
          simp [hUnread] at hBack
        · cases hRead : c.readBack <;> simp_all
      cases previous <;>
        simp [write, WriteCalls.leftover, hVerified, hStore, hDiffers, StoreCall.raises,
          StoreCall.leaves]

theorem rotateCredential_eq (c : RecordCalls) (v : String) (token : Option String) :
    rotateCredential c v token =
      if c.verified v then (some v, true)
      else (c.leftover v (readCredential c.readBefore token) token, false) :=
  write_eq c.toWriteCalls v _ token

theorem replaceRecord_eq (c : RecordCalls) (v : String) (record : Option String) :
    replaceRecord c v record =
      if c.readBefore = true ∧ c.verified v then (some v, true)
      else (if c.readBefore then c.leftover v record record else record, false) := by
  cases hRead : c.readBefore with
  | false => simp [replaceRecord, hRead]
  | true =>
    by_cases hVerified : c.verified v <;>
      simp [replaceRecord, hRead, write_eq, hVerified]

/-! ## Restoring -/

namespace WriteCalls

/-- A write that does not verify leaves the record as it was: the store raised before it
wrote, or it returned and what the undo leaves is the record. -/
def PutsBack (c : WriteCalls) (v : String) (previous record : Option String) : Prop :=
  match c.store with
  | .refused => True
  | .wrote => False
  | .stored | .reads _ =>
    match previous with
    | none => c.undoDelete.leaves (c.store.leaves v record) = record
    | some p => c.undoStore.leaves p (c.store.leaves v record) = record

end WriteCalls

variable {v : String} {record : Option String}

theorem leftover_eq_iff {c : WriteCalls} {previous : Option String} (hFresh : record ≠ some v) :
    c.leftover v previous record = record ↔ c.PutsBack v previous record := by
  cases hStore : c.store with
  | refused => simp [WriteCalls.leftover, WriteCalls.PutsBack, hStore, StoreCall.raises,
      StoreCall.leaves]
  | wrote => simp [WriteCalls.leftover, WriteCalls.PutsBack, hStore, StoreCall.raises,
      StoreCall.leaves, hFresh.symm]
  | stored | reads other =>
    cases previous <;>
      simp [WriteCalls.leftover, WriteCalls.PutsBack, hStore, StoreCall.raises]

theorem putsBack_iff_of_undoesWell {c : WriteCalls} (hUndo : c.UndoesWell) (v : String)
    (previous record : Option String) :
    c.PutsBack v previous record ↔
      c.store ≠ .wrote ∧ (c.store.raises = false → previous = record) := by
  cases hStore : c.store with
  | refused | wrote => simp [WriteCalls.PutsBack, hStore, StoreCall.raises]
  | stored | reads other =>
    cases previous <;>
      simp [WriteCalls.PutsBack, hStore, StoreCall.raises, hUndo.1, hUndo.2,
        StoreCall.leaves, DeleteCall.leaves]

namespace PutBackCalls

/-- The restoring calls of `_put_code_back` succeed. -/
def Well (c : PutBackCalls) : Prop :=
  c.store = .stored ∧ c.delete = .removed

def Honest (c : PutBackCalls) (previous : Option String) : Prop :=
  match previous with
  | none => ∀ left, c.delete = .kept left → left = none
  | some p => ∀ other, c.store = .reads other → other = some p

end PutBackCalls

theorem putCodeBack_of_well {c : PutBackCalls} (hWell : c.Well) (previous code : Option String) :
    putCodeBack c previous code = (previous, true) := by
  cases previous <;>
    simp [putCodeBack, hWell.1, hWell.2, StoreCall.leaves, StoreCall.raises,
      DeleteCall.leaves, DeleteCall.raises]

/-- The code after a put-back is the one before, unless the put-back is known to have
failed, exactly when a put-back that returns is honest. -/
theorem putCodeBack_iff (c : PutBackCalls) (previous code : Option String) :
    ((putCodeBack c previous code).2 = true → (putCodeBack c previous code).1 = previous) ↔
      c.Honest previous := by
  cases previous with
  | none =>
    cases hDelete : c.delete <;>
      simp [putCodeBack, PutBackCalls.Honest, hDelete, DeleteCall.raises, DeleteCall.leaves]
  | some p =>
    cases hStore : c.store <;>
      simp [putCodeBack, PutBackCalls.Honest, hStore, StoreCall.raises, StoreCall.leaves]

/-- The restoring calls of `restore` succeed. -/
def RestoreCalls.Well (c : RestoreCalls) : Prop :=
  c.store = .stored ∧ c.clear.delete = .removed ∧ c.clear.readAfter = true

theorem restore_of_well {c : RestoreCalls} (hWell : c.Well) (previous hash : Option String) :
    restore c previous hash = (previous, true) := by
  cases previous <;>
    simp [restore, clear, hWell.1, hWell.2.1, hWell.2.2, StoreCall.leaves, StoreCall.raises,
      DeleteCall.leaves, DeleteCall.raises]

theorem restoreToken_of_writesWell {c : RecordCalls} (hWell : c.WritesWell)
    (previous token : Option String) :
    restoreToken c previous token = (previous.or token, true) := by
  cases previous with
  | none => simp [restoreToken]
  | some p =>
    have hVerified : c.verified p := ⟨hWell.2, .inl hWell.1⟩
    simp [restoreToken, rotateCredential_eq, hVerified]

theorem restoreToken_some (c : RecordCalls) (p : String) (token : Option String)
    (hBack : (restoreToken c (some p) token).2 = true) :
    (restoreToken c (some p) token).1 = some p := by
  by_cases hVerified : c.verified p
  · simp [restoreToken, rotateCredential_eq, hVerified]
  · simp [restoreToken, rotateCredential_eq, hVerified] at hBack

variable {readable : Bool} {token : Option String} {minted : String}

theorem readCredential_getD_eq_iff (hFresh : token ≠ some minted) :
    some ((readCredential readable token).getD minted) = token ↔
      readable = true ∧ token ≠ none := by
  cases readable with
  | false => simpa [readCredential] using hFresh.symm
  | true => cases token <;> simp [readCredential]

/-! ## Replacing the password -/

namespace ReplaceCalls

def RestoresWell (c : ReplaceCalls) : Prop :=
  c.rotate.UndoesWell ∧ c.set.UndoesWell ∧ c.consume.putBack.Well ∧ c.undoHash.Well ∧
    c.undoToken.WritesWell

def Sets (c : ReplaceCalls) (hash : String) : Prop :=
  c.set.readBefore = true ∧ c.set.verified hash

/-- The code, where it is to be used up, is read and its delete returns. -/
def Consumes (c : ReplaceCalls) (consume_code : Bool) : Prop :=
  consume_code = true → c.consume.readCode = true ∧ c.consume.delete.raises = false

/-- When the rotation verifies: the hash's store does not raise after it wrote, a later step
fails only if there was a token and it was read, and a delete of the code that returns has
removed it.  When it does not: its store did not raise after it wrote, and if it returned,
the token before was read or there was none. -/
def Undoable (c : ReplaceCalls) (s : Secrets) (new : Fresh s) (consume_code : Bool) : Prop :=
  if c.rotate.verified new.token then
    (c.set.readBefore = true → c.set.store ≠ .wrote) ∧
      (¬ (c.Sets new.hash ∧ c.Consumes consume_code) → c.readToken = true ∧ s.token ≠ none) ∧
      (c.Sets new.hash → consume_code = true → c.consume.readCode = true →
        ∀ left, c.consume.delete = .kept left → left = none)
  else
    c.rotate.store ≠ .wrote ∧
      (c.rotate.store.raises = false → c.rotate.readBefore = true ∨ s.token = none)

/-- As long as the restoring calls succeed, `replace_password` changes the records as
documented or not at all. -/
def AllOrNothing (c : ReplaceCalls) (s : Secrets) (new : Fresh s) (consume_code : Bool) :
    Prop :=
  c.RestoresWell →
    match replacePassword c s new consume_code with
    | (after, true) =>
      after = ⟨some new.hash, if consume_code then none else s.code, some new.token⟩
    | (after, false) => after = s

end ReplaceCalls

theorem set_eq (c : RecordCalls) (v : String) (hash : Option String) :
    set c v hash =
      if c.readBefore = true ∧ c.verified v then (some v, some hash)
      else (if c.readBefore then c.leftover v hash hash else hash, none) := by
  by_cases hSet : c.readBefore = true ∧ c.verified v <;> simp [set, replaceRecord_eq, hSet]

theorem consumeCode_of_well {c : ConsumeCalls} (hWell : c.putBack.Well) (code : Option String) :
    consumeCode c code =
      if c.readCode = true ∧ c.delete.raises = false then (c.delete.leaves code, true)
      else (code, false) := by
  cases hRead : c.readCode with
  | false => simp [consumeCode, hRead]
  | true => cases hRaises : c.delete.raises <;>
      simp [consumeCode, hRead, hRaises, putCodeBack_of_well hWell]

theorem undo_of_well {c : ReplaceCalls} (hWell : c.RestoresWell) (previousToken : Option String)
    (written : Option (Option String)) (s : Secrets) :
    undo c previousToken written s =
      { s with hash := written.getD s.hash, token := previousToken.or s.token } := by
  cases written <;>
    simp [undo, restore_of_well hWell.2.2.2.1, restoreToken_of_writesWell hWell.2.2.2.2]

/-- The rotation fails: only the token can differ. -/
theorem replacePassword_of_not_rotated {c : ReplaceCalls} {s : Secrets} {new : Fresh s}
    (consume_code : Bool) (hRotate : ¬ c.rotate.verified new.token) :
    replacePassword c s new consume_code =
      ({ s with token :=
          c.rotate.leftover new.token (readCredential c.rotate.readBefore s.token) s.token },
        false) := by
  simp [replacePassword, rotateCredential_eq, hRotate]

/-- The hash is not stored: the token goes back, and the hash is what the write left. -/
theorem replacePassword_of_not_set {c : ReplaceCalls} {s : Secrets} {new : Fresh s}
    (consume_code : Bool) (hWell : c.RestoresWell) (hRotate : c.rotate.verified new.token)
    (hSet : ¬ c.Sets new.hash) :
    replacePassword c s new consume_code =
      ({ s with
          hash := if c.set.readBefore then c.set.leftover new.hash s.hash s.hash else s.hash
          token := some ((readCredential c.readToken s.token).getD new.token) },
        false) := by
  have hNone : ¬ (c.set.readBefore = true ∧ c.set.verified new.hash) := hSet
  simp [replacePassword, rotateCredential_eq, hRotate, set_eq, hNone, undo_of_well hWell]

/-- The code is not used up: the hash and the token go back. -/
theorem replacePassword_of_not_consumed {c : ReplaceCalls} {s : Secrets} {new : Fresh s}
    (hWell : c.RestoresWell) (hRotate : c.rotate.verified new.token) (hSet : c.Sets new.hash)
    (hConsume : ¬ (c.consume.readCode = true ∧ c.consume.delete.raises = false)) :
    replacePassword c s new true =
      ({ s with token := some ((readCredential c.readToken s.token).getD new.token) }, false) := by
  have hSome : c.set.readBefore = true ∧ c.set.verified new.hash := hSet
  simp only [replacePassword, rotateCredential_eq, hRotate, set_eq, hSome,
    consumeCode_of_well hWell.2.2.1, hConsume, undo_of_well hWell, if_true, if_false,
    and_self, Option.getD_some, Option.or_some]

theorem replacePassword_of_passed {c : ReplaceCalls} {s : Secrets} {new : Fresh s}
    {consume_code : Bool} (hWell : c.RestoresWell) (hRotate : c.rotate.verified new.token)
    (hSet : c.Sets new.hash) (hConsume : c.Consumes consume_code) :
    replacePassword c s new consume_code =
      (⟨some new.hash, if consume_code then c.consume.delete.leaves s.code else s.code,
        some new.token⟩, true) := by
  have hSome : c.set.readBefore = true ∧ c.set.verified new.hash := hSet
  cases consume_code with
  | false => simp [replacePassword, rotateCredential_eq, hRotate, set_eq, hSome]
  | true => simp [replacePassword, rotateCredential_eq, hRotate, set_eq, hSome,
      consumeCode_of_well hWell.2.2.1, hConsume rfl]

/-- A delete that returns leaves nothing, unless something is kept. -/
theorem leaves_eq_none_iff {c : DeleteCall} (hRaises : c.raises = false)
    (record : Option String) :
    c.leaves record = none ↔ ∀ left, c = .kept left → left = none := by
  cases c <;> simp_all [DeleteCall.raises, DeleteCall.leaves]

theorem leftover_of_read_eq_iff {c : RecordCalls} (hFresh : record ≠ some v) :
    (if c.readBefore then c.leftover v record record else record) = record ↔
      (c.readBefore = true → c.PutsBack v record record) := by
  cases hRead : c.readBefore with
  | false => simp
  | true => simp [leftover_eq_iff hFresh]

theorem replacePassword_holds_iff (c : ReplaceCalls) (s : Secrets) (new : Fresh s)
    (consume_code : Bool) :
    c.AllOrNothing s new consume_code ↔
      (c.RestoresWell → c.Undoable s new consume_code) := by
  refine forall_congr' fun hWell => ?_
  have hToken : some ((readCredential c.readToken s.token).getD new.token) = s.token ↔
      c.readToken = true ∧ s.token ≠ none := readCredential_getD_eq_iff new.token_ne
  by_cases hRotate : c.rotate.verified new.token
  case neg =>
    have hPrevious : readCredential c.rotate.readBefore s.token = s.token ↔
        c.rotate.readBefore = true ∨ s.token = none := by
      cases c.rotate.readBefore <;> simp [readCredential, eq_comm]
    simp [replacePassword_of_not_rotated consume_code hRotate, ReplaceCalls.Undoable, hRotate,
      Secrets.ext_iff, leftover_eq_iff new.token_ne, putsBack_iff_of_undoesWell hWell.1,
      hPrevious]
  by_cases hSet : c.Sets new.hash
  case neg =>
    simp [replacePassword_of_not_set consume_code hWell hRotate hSet, ReplaceCalls.Undoable,
      hRotate, hSet, Secrets.ext_iff, leftover_of_read_eq_iff new.hash_ne,
      putsBack_iff_of_undoesWell hWell.2.1, hToken]
  have hStore : c.set.store ≠ .wrote := by
    cases hSet.2.2 with
    | inl hStored => simp [hStored]
    | inr hReads => simp [hReads]
  by_cases hConsume : c.Consumes consume_code
  case pos =>
    rw [replacePassword_of_passed hWell hRotate hSet hConsume]
    cases consume_code with
    | false => simp [ReplaceCalls.Undoable, hRotate, hSet, hConsume, hStore]
    | true =>
      have hReturns := hConsume rfl
      simp [ReplaceCalls.Undoable, hRotate, hSet, hConsume, hStore, hReturns.1,
        leaves_eq_none_iff hReturns.2]
  case neg =>
    cases consume_code with
    | false => exact absurd (fun h => by simp at h) hConsume
    | true =>
      have hFails : ¬ (c.consume.readCode = true ∧ c.consume.delete.raises = false) :=
        fun h => hConsume fun _ => h
      have hKept : c.consume.readCode = true →
          ∀ left, c.consume.delete = .kept left → left = none := by
        intro hRead left hDelete
        exact absurd ⟨hRead, by simp [hDelete, DeleteCall.raises]⟩ hFails
      simp only [replacePassword_of_not_consumed hWell hRotate hSet hFails, Secrets.ext_iff,
        hToken, ReplaceCalls.Undoable, hRotate, hSet, hConsume]
      simpa [hStore] using fun _ _ => hKept

/-! ## Resetting it -/

/-- The three values that a reset changes. -/
inductive Changed where
  | hash
  | code
  | token

def Secrets.get : Changed → Option String
  | .hash => s.hash
  | .code => s.code
  | .token => s.token

def Changed.text : Changed → Option String
  | .hash => none
  | .code => some CODE_CHANGED
  | .token => some TOKEN_CHANGED

def ResetEnd.names (e : ResetEnd) (v : Changed) : Prop :=
  match e with
  | .incomplete changed => ∃ text ∈ changed, v.text = some text
  | _ => False

namespace ResetCalls

def RestoresWell : Prop :=
  c.issue.UndoesWell ∧ c.rotate.UndoesWell ∧ c.restoreToken.WritesWell ∧ c.putBack.Well

/-- The hash is removed, and nothing is read afterwards. -/
def Clears (hash : Option String) : Prop :=
  c.clear.delete.raises = false ∧ c.clear.readAfter = true ∧ c.clear.delete.leaves hash = none

/-- Where the code that is issued does not verify, its write puts the code back.  Where the
token does not, its write puts the token back, and a put-back of the code that returns is
honest.  Where the hash is not cleared, its delete left it as it was, there was a token and
it was read, and a put-back of the code that returns is honest. -/
def Undoable (s : Secrets) (new : Fresh s) : Prop :=
  c.readCode = true → c.issue.readBefore = true →
    if c.issue.verified new.code then
      if c.rotate.verified new.token then
        ¬ c.Clears s.hash →
          c.clear.delete.leaves s.hash = s.hash ∧ (c.readToken = true ∧ s.token ≠ none) ∧
            c.putBack.Honest s.code
      else
        c.rotate.PutsBack new.token (readCredential c.rotate.readBefore s.token) s.token ∧
          c.putBack.Honest s.code
    else c.issue.PutsBack new.code s.code s.code

/-- A reset that returns has changed the records as documented.  One that raises has changed
nothing, if the restoring calls succeed, and otherwise names what differs. -/
def AllOrNothing (s : Secrets) (new : Fresh s) : Prop :=
  match reset c s new with
  | (after, .returned) => after = ⟨none, some new.code, some new.token⟩
  | (after, e) =>
    (c.RestoresWell → after = s) ∧
      (¬ c.RestoresWell → ∀ v, after.get v ≠ s.get v → e.names v)

end ResetCalls

theorem raiseResetFailure_ne_returned (changed : List String) :
    raiseResetFailure changed ≠ .returned := by
  by_cases hNil : changed = [] <;> simp [raiseResetFailure, hNil]

theorem names_raiseResetFailure (changed : List String) (v : Changed) :
    (raiseResetFailure changed).names v ↔ ∃ text ∈ changed, v.text = some text := by
  by_cases hNil : changed = [] <;> simp [raiseResetFailure, hNil, ResetEnd.names]

/-- Of the three values an error of `reset` names the token and the code, each under the
flag of its restoring call. -/
theorem unnamed_iff (after s : Secrets) (tokenBack codeBack : Bool) :
    (∀ v, after.get v ≠ s.get v →
        (raiseResetFailure ((if tokenBack then [] else [TOKEN_CHANGED]) ++
          (if codeBack then [] else [CODE_CHANGED]))).names v) ↔
      after.hash = s.hash ∧ (tokenBack = true → after.token = s.token) ∧
        (codeBack = true → after.code = s.code) := by
  have hCode : CODE_CHANGED ≠ TOKEN_CHANGED := by decide
  simp only [names_raiseResetFailure]
  constructor
  · intro hNamed
    refine ⟨?_, fun hToken => ?_, fun hBack => ?_⟩
    · by_contra hDiffers
      simpa [Changed.text] using hNamed .hash hDiffers
    · by_contra hDiffers
      cases codeBack <;>
        simpa [Changed.text, hToken, hCode.symm] using hNamed .token hDiffers
    · by_contra hDiffers
      cases tokenBack <;>
        simpa [Changed.text, hBack, hCode] using hNamed .code hDiffers
  · rintro ⟨hHash, hToken, hBack⟩ v hDiffers
    cases v with
    | hash => exact absurd hHash hDiffers
    | token =>
      have hFailed : tokenBack = false := by
        by_contra hTrue
        exact hDiffers (hToken (by simpa using hTrue))
      exact ⟨TOKEN_CHANGED, by simp [hFailed], rfl⟩
    | code =>
      have hFailed : codeBack = false := by
        by_contra hTrue
        exact hDiffers (hBack (by simpa using hTrue))
      exact ⟨CODE_CHANGED, by simp [hFailed], rfl⟩

theorem unavailable_iff (code : Option String) :
    (∀ v, ({ s with code := code } : Secrets).get v ≠ s.get v →
        ResetEnd.unavailable.names v) ↔ code = s.code := by
  constructor
  · intro hNamed
    by_contra hDiffers
    exact hNamed .code hDiffers
  · rintro rfl v hDiffers
    exact absurd rfl hDiffers

/-- With restoring calls that succeed nothing is named, so the two parts of the property are
one. -/
theorem allOrNothing_of_raised {c : ResetCalls} {s : Secrets} {new : Fresh s} {after : Secrets}
    {e : ResetEnd} (hReset : reset c s new = (after, e)) (hRaised : e ≠ .returned)
    (hWell : c.RestoresWell → ∀ v, ¬ e.names v) :
    c.AllOrNothing s new ↔ ∀ v, after.get v ≠ s.get v → e.names v := by
  have hSplit : c.AllOrNothing s new ↔
      (c.RestoresWell → after = s) ∧
        (¬ c.RestoresWell → ∀ v, after.get v ≠ s.get v → e.names v) := by
    cases e with
    | returned => exact absurd rfl hRaised
    | unavailable | incomplete changed => simp [ResetCalls.AllOrNothing, hReset]
  rw [hSplit]
  by_cases hRestores : c.RestoresWell
  · have hSame : after = s ↔ ∀ v, after.get v = s.get v := by
      constructor
      · rintro rfl v
        rfl
      · intro hGet
        exact Secrets.ext (hGet .hash) (hGet .code) (hGet .token)
    simp [hRestores, hSame, hWell hRestores]
  · simp [hRestores]

theorem clear_eq (c : ClearCalls) (hash : Option String) :
    clear c hash =
      (c.delete.leaves hash, !c.delete.raises && c.readAfter && (c.delete.leaves hash).isNone) := by
  cases hRaises : c.delete.raises <;> cases hRead : c.readAfter <;>
    simp [clear, hRaises, hRead]

theorem restoreToken_iff (c : RecordCalls) (hFresh : token ≠ some minted) :
    ((restoreToken c (readCredential readable token) (some minted)).2 = true →
        (restoreToken c (readCredential readable token) (some minted)).1 = token) ↔
      readable = true ∧ token ≠ none := by
  cases readable with
  | false => simp [readCredential, restoreToken, hFresh.symm]
  | true =>
    cases token with
    | none => simp [readCredential, restoreToken]
    | some p => simpa [readCredential] using restoreToken_some c p (some minted)

theorem nothing_named {tokenBack codeBack : Bool} (hToken : tokenBack = true)
    (hCode : codeBack = true) (v : Changed) :
    ¬ (raiseResetFailure ((if tokenBack then [] else [TOKEN_CHANGED]) ++
      (if codeBack then [] else [CODE_CHANGED]))).names v := by
  simp [hToken, hCode, names_raiseResetFailure]

theorem reset_of_not_issued {c : ResetCalls} {s : Secrets} {new : Fresh s}
    (hRead : c.readCode = true)
    (hIssue : ¬ (c.issue.readBefore = true ∧ c.issue.verified new.code)) :
    reset c s new =
      ({ s with code :=
          if c.issue.readBefore then c.issue.leftover new.code s.code s.code else s.code },
        .unavailable) := by
  simp [reset, hRead, issueCode, replaceRecord_eq, hIssue]

section

variable {c} {s} {new : Fresh s} (hRead : c.readCode = true)
  (hIssue : c.issue.readBefore = true ∧ c.issue.verified new.code)

include hRead hIssue

theorem reset_of_not_rotated (hRotate : ¬ c.rotate.verified new.token) :
    reset c s new =
      ({ s with
          code := (putCodeBack c.putBack s.code (some new.code)).1
          token :=
            c.rotate.leftover new.token (readCredential c.rotate.readBefore s.token) s.token },
        raiseResetFailure ((if true then [] else [TOKEN_CHANGED]) ++
          (if (putCodeBack c.putBack s.code (some new.code)).2 then []
            else [CODE_CHANGED]))) := by
  simp [reset, hRead, issueCode, replaceRecord_eq, hIssue, rotateCredential_eq, hRotate]

theorem reset_of_not_cleared (hRotate : c.rotate.verified new.token)
    (hClear : (clear c.clear s.hash).2 = false) :
    reset c s new =
      (⟨(clear c.clear s.hash).1, (putCodeBack c.putBack s.code (some new.code)).1,
          (restoreToken c.restoreToken (readCredential c.readToken s.token) (some new.token)).1⟩,
        raiseResetFailure
          ((if (restoreToken c.restoreToken (readCredential c.readToken s.token)
              (some new.token)).2 then [] else [TOKEN_CHANGED]) ++
            (if (putCodeBack c.putBack s.code (some new.code)).2 then []
              else [CODE_CHANGED]))) := by
  have hFailed : clear c.clear s.hash = ((clear c.clear s.hash).1, false) :=
    Prod.ext rfl hClear
  unfold reset
  rw [hFailed]
  simp [hRead, issueCode, replaceRecord_eq, hIssue, rotateCredential_eq, hRotate]

theorem reset_of_cleared (hRotate : c.rotate.verified new.token)
    (hClear : (clear c.clear s.hash).2 = true) :
    reset c s new =
      (⟨(clear c.clear s.hash).1, some new.code, some new.token⟩, .returned) := by
  have hPassed : clear c.clear s.hash = ((clear c.clear s.hash).1, true) :=
    Prod.ext rfl hClear
  unfold reset
  rw [hPassed]
  simp [hRead, issueCode, replaceRecord_eq, hIssue, rotateCredential_eq, hRotate]

end

theorem clears_iff (c : ResetCalls) (hash : Option String) :
    c.Clears hash ↔ (clear c.clear hash).2 = true := by
  simp [ResetCalls.Clears, clear_eq, and_assoc]

theorem reset_holds_iff (c : ResetCalls) (s : Secrets) (new : Fresh s) :
    c.AllOrNothing s new ↔ c.Undoable s new := by
  cases hRead : c.readCode with
  | false => simp [ResetCalls.AllOrNothing, ResetCalls.Undoable, reset, hRead]
  | true => ?_
  by_cases hIssue : c.issue.readBefore = true ∧ c.issue.verified new.code
  case neg =>
    rw [allOrNothing_of_raised (reset_of_not_issued hRead hIssue) (by simp)
      (fun _ v => by simp [ResetEnd.names])]
    rw [unavailable_iff, leftover_of_read_eq_iff new.code_ne]
    cases hBefore : c.issue.readBefore with
    | false => simp [ResetCalls.Undoable, hBefore]
    | true =>
      have hNot : ¬ c.issue.verified new.code := fun h => hIssue ⟨hBefore, h⟩
      simp [ResetCalls.Undoable, hRead, hBefore, hNot]
  by_cases hRotate : c.rotate.verified new.token
  case neg =>
    rw [allOrNothing_of_raised (reset_of_not_rotated hRead hIssue hRotate)
      (raiseResetFailure_ne_returned _)
      (fun hWell => nothing_named rfl (by rw [putCodeBack_of_well hWell.2.2.2]))]
    rw [unnamed_iff]
    simp [ResetCalls.Undoable, hRead, hIssue, hRotate, leftover_eq_iff new.token_ne,
      putCodeBack_iff]
  by_cases hClear : c.Clears s.hash
  case pos =>
    have hGone : (clear c.clear s.hash).1 = none := by
      simpa [clear_eq] using hClear.2.2
    simp [ResetCalls.AllOrNothing, ResetCalls.Undoable, hRead, hIssue, hRotate, hClear, hGone,
      reset_of_cleared hRead hIssue hRotate ((clears_iff c s.hash).mp hClear)]
  case neg =>
    have hFailed : (clear c.clear s.hash).2 = false := by
      simpa [clears_iff] using hClear
    rw [allOrNothing_of_raised (reset_of_not_cleared hRead hIssue hRotate hFailed)
      (raiseResetFailure_ne_returned _)
      (fun hWell => nothing_named (by rw [restoreToken_of_writesWell hWell.2.2.1])
        (by rw [putCodeBack_of_well hWell.2.2.2])),
      unnamed_iff, restoreToken_iff _ new.token_ne, putCodeBack_iff]
    simp [ResetCalls.Undoable, hRead, hIssue, hRotate, hClear, clear_eq]

/-! ## Both -/

/-- Exactly when the two transactions are all or nothing. -/
theorem transactions_hold_iff (s : Secrets) (new : Fresh s) :
    (∀ (c : ReplaceCalls) (consume_code : Bool),
        c.AllOrNothing s new consume_code ↔
          (c.RestoresWell → c.Undoable s new consume_code)) ∧
      ∀ c : ResetCalls, c.AllOrNothing s new ↔ c.Undoable s new :=
  ⟨fun c consume_code => replacePassword_holds_iff c s new consume_code,
    fun c => reset_holds_iff c s new⟩

def untokened : Secrets := ⟨some "hash", none, none⟩

def untokenedFresh : Fresh untokened where
  hash := "new hash"
  code := "new code"
  token := "new token"
  hash_ne := by decide
  code_ne := by decide
  token_ne := by decide

def writesWell : RecordCalls := ⟨⟨.stored, true, .stored, .removed⟩, true⟩

/-- Every call succeeds but the store of the hash, which refuses it. -/
def hashRefused : ReplaceCalls where
  readToken := true
  rotate := writesWell
  set := { writesWell with store := .refused }
  consume := ⟨true, .removed, ⟨.stored, .removed⟩⟩
  undoHash := ⟨.stored, ⟨.removed, true⟩⟩
  undoToken := writesWell

/-- Every call succeeds but the delete of the hash, which is refused. -/
def removalRefused : ResetCalls where
  readCode := true
  readToken := true
  issue := writesWell
  rotate := writesWell
  clear := ⟨.refused, true⟩
  restoreToken := writesWell
  putBack := ⟨.stored, .removed⟩

/-- Where there was no token, the one that was minted stays after the failure. -/
theorem minted_token_stays :
    ¬ ((∀ (c : ReplaceCalls) (s : Secrets) (new : Fresh s) (consume_code : Bool),
          c.AllOrNothing s new consume_code) ∧
        ∀ (c : ResetCalls) (s : Secrets) (new : Fresh s), c.AllOrNothing s new) ∧
      (replacePassword hashRefused untokened untokenedFresh true).1.token = some "new token" ∧
      reset removalRefused untokened untokenedFresh =
        (⟨some "hash", none, some "new token"⟩, .unavailable) := by
  refine ⟨fun hHolds => ?_, by decide, by decide⟩
  have hSame := hHolds.1 hashRefused untokened untokenedFresh true
    ⟨⟨rfl, rfl⟩, ⟨rfl, rfl⟩, ⟨rfl, rfl⟩, ⟨rfl, rfl, rfl⟩, ⟨rfl, rfl⟩⟩
  exact absurd (congrArg Secrets.token hSame) (by decide)

end StackOwl.ControlPlane
