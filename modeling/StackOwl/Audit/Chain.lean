import StackOwl.Lib.HashChain
import StackOwl.Lib.Sha256
import StackOwl.Lib.Text

/-!
# The audit log

`audit_log` (`audit/logger.py`) is a table of events, each of which carries the SHA-256
digest of a payload made of its columns and of the digest of the row before it.  There
are two payloads: rows stamped `v2` join their columns behind their lengths, older rows
concatenate some of them.  `verify_chain` goes through the rows in the order of
`audit_id` and compares.

A log is the list of its rows in that order.  A timestamp is a float; its type is a
parameter, with the function `floatRepr` that is `repr` on it.

## Main results

* `verifyChain_iff` — `verify_chain` answers `(True, None)` exactly when the rows are a
  hash chain behind the empty digest.
* `chained_concat_appended` — the row an append writes behind the tail it has read
  keeps the log a chain.
* `payloadV2_inj` — the v2 payload determines its columns, `NULL` being the empty text.
* `payload_eq_of_digest` — two rows that are not the first have one payload only where
  they carry the same format and the same digest in front of them.
-/

namespace StackOwl.Audit

open Lib

/-- A row of `audit_log` without its key. -/
structure Entry (F : Type*) where
  eventType : String
  actor : String
  target : Option String
  timestamp : F
  details : String
  integrityHash : String
  /-- Absent before migration 0059. -/
  chainVersion : Option String
  deriving DecidableEq

/-- A row of `audit_log`. -/
structure Row (F : Type*) extends Entry F where
  auditId : Nat
  deriving DecidableEq

variable {F : Type*} (floatRepr : F → String)

/-- `repr` of a float that is a whole number below `10 ^ 16`. -/
def reprWhole (n : Nat) : String := n.repr ++ ".0"

theorem reprWhole_injective : Function.Injective reprWhole := by
  intro n m h
  exact repr_inj ((String.append_left_inj ".0").mp h)

/-! ## The payload -/

/-- `_CHAIN_VERSION`. -/
def currentVersion : String := "v2"

def fieldSep : String := "\x1f"

def lp (value : Option String) : String := lengthPrefixed (value.getD "")

variable (prevHash eventType : String) (timestamp : F) (detailsJson : String)

/-- The payload of `compute_integrity_hash`. -/
def payloadV2 (actor target : Option String) (timestamp : F) (detailsJson : String) : String :=
  fieldSep.intercalate
    [currentVersion, lp prevHash, lp eventType, lp actor, lp target,
     lp (floatRepr timestamp), lp detailsJson]

/-- The payload of `compute_integrity_hash_v1`. -/
def payloadV1 :
    String :=
  prevHash ++ eventType ++ floatRepr timestamp ++ detailsJson

def computeIntegrityHash (actor target : Option String) (timestamp : F) (detailsJson : String)
    : String :=
  sha256Hex (payloadV2 floatRepr prevHash eventType actor target timestamp detailsJson)

def computeIntegrityHashV1 : String :=
  sha256Hex (payloadV1 floatRepr prevHash eventType timestamp detailsJson)

/-! ## Verification -/

/-- `d.get("chain_version") or "v1"`. -/
def Entry.version (e : Entry F) : String :=
  match e.chainVersion with
  | none => "v1"
  | some version => if version = "" then "v1" else version

variable (e : Entry F)

/-- The row is verified with the current payload. -/
def Entry.IsV2 : Prop := e.version = currentVersion

instance (e : Entry F) : Decidable e.IsV2 :=
  inferInstanceAs (Decidable (e.version = currentVersion))

/-- The hash `verify_chain` expects of a row behind `prevHash`. -/
def Entry.expected : String :=
  if e.IsV2 then
    computeIntegrityHash floatRepr prevHash e.eventType e.actor e.target e.timestamp
      e.details
  else
    computeIntegrityHashV1 floatRepr prevHash e.eventType e.timestamp e.details

/-- The loop of `verify_chain`. -/
def verifyFrom : String → List (Row F) → Bool × Option Nat
  | _, [] => (true, none)
  | prevHash, row :: rows =>
    if row.integrityHash ≠ row.expected floatRepr prevHash then
      (false, some row.auditId)
    else verifyFrom row.integrityHash rows

variable (rows : List (Row F))

def verifyChain : Bool × Option Nat := verifyFrom floatRepr "" rows

/-! ## Appending -/

/-- The columns an append is called with. -/
structure Event (F : Type*) where
  eventType : String
  actor : String
  target : Option String
  timestamp : F
  detailsJson : String

/-- The row inserted for an event behind `prevHash`. -/
def Event.entry (event : Event F) : Entry F where
  eventType := event.eventType
  actor := event.actor
  target := event.target
  timestamp := event.timestamp
  details := event.detailsJson
  integrityHash := computeIntegrityHash floatRepr prevHash event.eventType event.actor
    event.target event.timestamp event.detailsJson
  chainVersion := some currentVersion

/-- `SELECT integrity_hash FROM audit_log ORDER BY audit_id DESC LIMIT 1`, the empty text
when there is no row. -/
def tailHash : String :=
  (rows.getLast?.map fun row => row.integrityHash).getD ""

/-- `INSERT INTO audit_log` of a row whose key the table gives. -/
def insertRow (auditId : Nat) (entry : Entry F) (rows : List (Row F)) : List (Row F) :=
  rows ++ [{ entry with auditId := auditId }]

/-- The table and the last key it gave. -/
structure Table (F : Type*) where
  rows : List (Row F)
  lastId : Nat

def Table.append (entry : Entry F) (t : Table F) : Table F where
  rows := insertRow (t.lastId + 1) entry t.rows
  lastId := t.lastId + 1

/-! ## The log as a hash chain -/

def Entry.payload : String :=
  if e.IsV2 then
    payloadV2 floatRepr prevHash e.eventType e.actor e.target e.timestamp e.details
  else payloadV1 floatRepr prevHash e.eventType e.timestamp e.details

theorem Entry.expected_eq :
    e.expected floatRepr prevHash = sha256Hex (e.payload floatRepr prevHash) := by
  unfold Entry.expected Entry.payload
  split <;> rfl

def Chained (entries : List (Entry F)) : Prop :=
  HashChain.Linked (Entry.payload floatRepr) sha256Hex Entry.integrityHash prevHash entries

/-- The payloads `verify_chain` hashes behind `prevHash`. -/
def payloads (prevHash : String) (entries : List (Entry F)) : List String :=
  HashChain.payloads (Entry.payload floatRepr) Entry.integrityHash prevHash entries

def entries : List (Entry F) := rows.map Row.toEntry

theorem verifyFrom_iff :
    verifyFrom floatRepr prevHash rows = (true, none) ↔
      Chained floatRepr prevHash (entries rows) := by
  induction rows generalizing prevHash with
  | nil => simp [verifyFrom, Chained, entries, HashChain.Linked]
  | cons row rows ih =>
    by_cases hrow : row.integrityHash = row.expected floatRepr prevHash
    · have hlink : row.integrityHash = sha256Hex (row.payload floatRepr prevHash) :=
        hrow.trans (row.toEntry.expected_eq floatRepr prevHash)
      rw [verifyFrom, if_neg (not_not.mpr hrow), ih]
      exact ⟨fun h => ⟨hlink, h⟩, fun h => h.2⟩
    · rw [verifyFrom, if_pos hrow]
      refine ⟨fun h => by simp at h, fun h => ?_⟩
      exact absurd (h.1.trans (row.toEntry.expected_eq floatRepr prevHash).symm) hrow

theorem verifyChain_iff :
    verifyChain floatRepr rows = (true, none) ↔ Chained floatRepr "" (entries rows) :=
  verifyFrom_iff floatRepr "" rows

theorem tailHash_eq :
    tailHash rows = HashChain.tail Entry.integrityHash "" (entries rows) := by
  rw [HashChain.tail_eq, entries, List.getLast?_map, Option.map_map]
  rfl

theorem Event.isV2_entry (event : Event F) :
    (event.entry floatRepr prevHash).IsV2 := by
  simp [Entry.IsV2, Entry.version, Event.entry, currentVersion]

/-- The row an append writes behind the tail it has read keeps the log a chain. -/
theorem chained_concat_appended {rows : List (Row F)}
    (h : Chained floatRepr "" (entries rows)) (auditId : Nat) (event : Event F) :
    Chained floatRepr ""
      (entries (insertRow auditId (event.entry floatRepr (tailHash rows)) rows)) := by
  rw [insertRow, entries, List.map_append, List.map_singleton, Chained,
    HashChain.linked_concat]
  refine ⟨h, ?_⟩
  show computeIntegrityHash floatRepr _ _ _ _ _ _ = _
  rw [Entry.payload, if_pos (event.isV2_entry floatRepr _), tailHash_eq]
  rfl

/-! ## What a payload determines -/

theorem payloadV2_eq (actor target : Option String) (timestamp : F) (detailsJson : String) :
    (payloadV2 floatRepr prevHash eventType actor target timestamp detailsJson).toList =
      'v' :: '2' :: '\x1f' :: (fieldSep.intercalate (List.map lengthPrefixed
        [prevHash, eventType, actor.getD "", target.getD "", floatRepr timestamp,
         detailsJson])).toList := by
  have hversion : currentVersion.toList = ['v', '2'] := by rfl
  have hsep : fieldSep.toList = ['\x1f'] := by rfl
  have hfields : [lp (some prevHash), lp (some eventType), lp actor, lp target,
      lp (some (floatRepr timestamp)), lp (some detailsJson)] =
      List.map lengthPrefixed [prevHash, eventType, actor.getD "", target.getD "",
        floatRepr timestamp, detailsJson] := rfl
  rw [payloadV2, String.intercalate_cons_cons, String.toList_append,
    String.toList_append, hversion, hsep, hfields]
  rfl

variable {prevHash}

/-- The v2 payload determines its columns, `NULL` being the empty text. -/
theorem payloadV2_inj {prevHash' eventType eventType' : String}
    {actor actor' target target' : Option String} {timestamp timestamp' : F}
    {detailsJson detailsJson' : String}
    (h : payloadV2 floatRepr prevHash eventType actor target timestamp detailsJson =
      payloadV2 floatRepr prevHash' eventType' actor' target' timestamp' detailsJson') :
    prevHash = prevHash' ∧ eventType = eventType' ∧ actor.getD "" = actor'.getD "" ∧
      target.getD "" = target'.getD "" ∧ floatRepr timestamp = floatRepr timestamp' ∧
      detailsJson = detailsJson' := by
  have htexts := congrArg String.toList h
  rw [payloadV2_eq, payloadV2_eq] at htexts
  have hjoined := (List.cons.inj (List.cons.inj (List.cons.inj htexts).2).2).2
  have hfields := join_lengthPrefixed_inj fieldSep (by simp)
    (String.toList_inj.mp hjoined)
  simpa only [List.cons.injEq, and_true] using hfields

theorem toList_payloadV1 (prevHash eventType : String) (timestamp : F)
    (detailsJson : String) :
    (payloadV1 floatRepr prevHash eventType timestamp detailsJson).toList =
      prevHash.toList ++
        (eventType ++ floatRepr timestamp ++ detailsJson).toList := by
  simp [payloadV1]

/-- The payload of a row determines the digest in front of it. -/
theorem payload_prev_inj (p q : String) (e : Entry F)
    (h : e.payload floatRepr p = e.payload floatRepr q) : p = q := by
  unfold Entry.payload at h
  split at h
  · exact (payloadV2_inj floatRepr h).1
  · have htexts := congrArg String.toList h
    rw [toList_payloadV1, toList_payloadV1] at htexts
    exact String.toList_inj.mp (List.append_cancel_right htexts)

theorem sha256Hex_head (text : String) :
    ∃ c rest, (sha256Hex text).toList = c :: rest ∧ c ∈ Sha256.hexDigits := by
  have hlength := length_sha256Hex text
  cases hdigest : (sha256Hex text).toList with
  | nil =>
    rw [hdigest] at hlength
    cases hlength
  | cons c rest =>
    exact ⟨c, rest, rfl, isHex_of_mem_sha256Hex (hdigest ▸ List.mem_cons_self)⟩

theorem sha256Hex_ne_empty (text : String) : sha256Hex text ≠ "" := by
  intro hempty
  have hlength := length_sha256Hex text
  rw [hempty] at hlength
  cases hlength

variable {es : List (Entry F)} {e}

theorem exists_digest_of_chained (h : Chained floatRepr prevHash es) (he : e ∈ es) :
    ∃ text, e.integrityHash = sha256Hex text := by
  obtain ⟨before, after, rfl⟩ := List.append_of_mem he
  exact ⟨_, ((HashChain.linked_append _ _ _).mp h).2.1⟩

theorem integrityHash_ne_empty (h : Chained floatRepr prevHash es) (he : e ∈ es) :
    e.integrityHash ≠ "" := by
  obtain ⟨text, htext⟩ := exists_digest_of_chained floatRepr h he
  rw [htext]
  exact sha256Hex_ne_empty text

theorem payloadV2_ne_payloadV1 (prevHash eventType : String)
    (actor target : Option String) (timestamp : F) (detailsJson : String)
    (text eventType' : String) (timestamp' : F) (detailsJson' : String) :
    payloadV2 floatRepr prevHash eventType actor target timestamp detailsJson ≠
      payloadV1 floatRepr (sha256Hex text) eventType' timestamp' detailsJson' := by
  intro h
  have htexts := congrArg String.toList h
  obtain ⟨c, rest, hdigest, hc⟩ := sha256Hex_head text
  rw [payloadV2_eq, toList_payloadV1, hdigest, List.cons_append] at htexts
  have hhead : 'v' = c := (List.cons.inj htexts).1
  exact absurd (hhead ▸ hc) (by decide)

/-- Two rows behind digests have one payload only where they carry the same format and
the same digest in front of them. -/
theorem payload_eq_of_digest {x y : String} {f : Entry F}
    (h : e.payload floatRepr (sha256Hex x) = f.payload floatRepr (sha256Hex y)) :
    sha256Hex x = sha256Hex y ∧ (e.IsV2 ↔ f.IsV2) := by
  unfold Entry.payload at h
  split at h <;> rename_i he <;> split at h <;> rename_i hf
  · exact ⟨(payloadV2_inj floatRepr h).1, iff_of_true he hf⟩
  · exact (payloadV2_ne_payloadV1 floatRepr _ _ _ _ _ _ _ _ _ _ h).elim
  · exact (payloadV2_ne_payloadV1 floatRepr _ _ _ _ _ _ _ _ _ _ h.symm).elim
  · have htexts := congrArg String.toList h
    rw [toList_payloadV1, toList_payloadV1] at htexts
    have hdigests := List.append_inj htexts
      ((length_sha256Hex x).trans (length_sha256Hex y).symm)
    exact ⟨String.toList_inj.mp hdigests.1, iff_of_false he hf⟩

end StackOwl.Audit
