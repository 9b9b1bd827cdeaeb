import StackOwl.Audit.Chain

/-!
# Tamper evidence

What `verify_chain` shows of a log whose rows were changed behind its back, with the
`integrity_hash` columns as they were, or whose rows were deleted or moved.

The v2 payload protects every column, up to `NULL` for an empty text.  The v1 payload
protects the text that `event_type`, the timestamp and `details` make together, and
nothing else; every version that is not `v2` is read as v1.  A first row has no digest
in front of it, so its payload can be read in either format.

## Main results

* `payload_eq_iff` — which changes to a row leave its payload alone.
* `verifyChain_changed_iff` — a log with changed rows is accepted exactly when every row
  was changed in one of those ways.
* `nodup_integrityHash` — no digest appears twice in an accepted log.
* `verifyChain_moved` — a log with rows deleted or moved before the last is rejected.
-/

namespace StackOwl.Audit

open Lib List

variable {F : Type*} (floatRepr : F → String)

/-! ## Changed columns -/

/-- The columns the v2 payload holds are the same. -/
def SameColumns (e f : Entry F) : Prop :=
  e.eventType = f.eventType ∧ e.actor = f.actor ∧
    e.target.getD "" = f.target.getD "" ∧ e.timestamp = f.timestamp ∧
    e.details = f.details

instance [DecidableEq F] (e f : Entry F) : Decidable (SameColumns e f) :=
  inferInstanceAs (Decidable (_ ∧ _ ∧ _ ∧ _ ∧ _))

def Entry.textV1 (e : Entry F) : String :=
  e.eventType ++ floatRepr e.timestamp ++ e.details

/-- A change of a row that its format does not see. -/
def Unseen (e f : Entry F) : Prop :=
  (e.IsV2 ∧ f.IsV2 ∧ SameColumns e f) ∨
    (¬ e.IsV2 ∧ ¬ f.IsV2 ∧ e.textV1 floatRepr = f.textV1 floatRepr)

instance [DecidableEq F] (e f : Entry F) : Decidable (Unseen floatRepr e f) :=
  inferInstanceAs (Decidable (_ ∨ _))

theorem payload_of_v1 {e : Entry F} (he : ¬ e.IsV2) (prevHash : String) :
    e.payload floatRepr prevHash = prevHash ++ e.textV1 floatRepr := by
  rw [Entry.payload, if_neg he, payloadV1, Entry.textV1, String.append_assoc,
    String.append_assoc, String.append_assoc]

variable {e f : Entry F}

/-- Two rows of one format have one payload exactly when they differ in what the format
does not see. -/
theorem payload_eq_iff (hrepr : Function.Injective floatRepr) (prevHash : String)
    (hformat : e.IsV2 ↔ f.IsV2) :
    f.payload floatRepr prevHash = e.payload floatRepr prevHash ↔
      Unseen floatRepr e f := by
  by_cases he : e.IsV2
  · have hf := hformat.mp he
    rw [Entry.payload, Entry.payload, if_pos he, if_pos hf]
    constructor
    · intro h
      obtain ⟨-, htype, hactor, htarget, htime, hdetails⟩ := payloadV2_inj floatRepr h
      exact Or.inl ⟨he, hf, htype.symm, hactor.symm, htarget.symm, (hrepr htime).symm,
        hdetails.symm⟩
    · rintro (⟨-, -, htype, hactor, htarget, htime, hdetails⟩ | ⟨hne, -⟩)
      · simp only [payloadV2, lp, htype, hactor, htarget, htime, hdetails]
      · exact absurd he hne
  · have hf := mt hformat.mpr he
    rw [payload_of_v1 floatRepr he, payload_of_v1 floatRepr hf, String.append_right_inj]
    constructor
    · intro h
      exact Or.inr ⟨he, hf, h.symm⟩
    · rintro (⟨hv2, -⟩ | ⟨-, -, h⟩)
      · exact absurd hv2 he
      · exact h.symm

theorem Unseen.format (h : Unseen floatRepr e f) :
    e.IsV2 ↔ f.IsV2 := by
  rcases h with ⟨he, hf, -⟩ | ⟨he, hf, -⟩
  · exact iff_of_true he hf
  · exact iff_of_false he hf

/-! ## Changed logs -/

/-- The first rows of two logs are verified in one format. -/
def FirstFormat (es fs : List (Entry F)) : Prop :=
  ∀ e ∈ es.head?, ∀ f ∈ fs.head?, (e.IsV2 ↔ f.IsV2)

variable {prevHash : String} {es fs : List (Entry F)}

theorem forall₂_of_payloads_eq (hrepr : Function.Injective floatRepr)
    (hes : Chained floatRepr prevHash es)
    (hfirst : (∃ text, prevHash = sha256Hex text) ∨ FirstFormat es fs)
    (hstored : fs.map Entry.integrityHash = es.map Entry.integrityHash)
    (h : payloads floatRepr prevHash fs = payloads floatRepr prevHash es) :
    List.Forall₂ (Unseen floatRepr) es fs := by
  induction es generalizing prevHash fs with
  | nil =>
    rw [map_nil, map_eq_nil_iff] at hstored
    subst hstored
    exact List.Forall₂.nil
  | cons e es ih =>
    cases fs with
    | nil => cases hstored
    | cons f fs =>
      simp only [map_cons, cons.injEq] at hstored
      simp only [payloads, HashChain.payloads, cons.injEq] at h
      rw [hstored.1] at h
      have hformat : e.IsV2 ↔ f.IsV2 := by
        rcases hfirst with ⟨text, rfl⟩ | hfirst
        · exact (payload_eq_of_digest floatRepr h.1.symm).2
        · exact hfirst e rfl f rfl
      refine List.Forall₂.cons ?_ (ih hes.2 (Or.inl ⟨_, hes.1⟩) hstored.2 h.2)
      exact (payload_eq_iff floatRepr hrepr prevHash hformat).mp h.1

theorem payloads_eq_of_forall₂ (hrepr : Function.Injective floatRepr)
    (hstored : fs.map Entry.integrityHash = es.map Entry.integrityHash)
    (h : List.Forall₂ (Unseen floatRepr) es fs) :
    payloads floatRepr prevHash fs = payloads floatRepr prevHash es := by
  induction h generalizing prevHash with
  | nil => rfl
  | @cons e f es fs hrow hrows ih =>
    simp only [map_cons, cons.injEq] at hstored
    have hhead := (payload_eq_iff floatRepr hrepr prevHash hrow.format).mpr hrow
    have htail : payloads floatRepr e.integrityHash fs =
        payloads floatRepr e.integrityHash es := ih hstored.2
    simp only [payloads, HashChain.payloads, hstored.1] at htail ⊢
    rw [hhead, htail]

variable {log log' : List (Row F)}

/-- A log with changed rows is accepted exactly when every row was changed in a way its
format does not see. -/
theorem verifyChain_changed_iff (hrepr : Function.Injective floatRepr)
    (h : verifyChain floatRepr log = (true, none))
    (hfirst : FirstFormat (entries log) (entries log'))
    (hstored : (entries log').map Entry.integrityHash = (entries log).map Entry.integrityHash)
    (hfree : HashChain.CollisionFree sha256Hex (payloads floatRepr "" (entries log) ++
      payloads floatRepr "" (entries log'))) :
    verifyChain floatRepr log' = (true, none) ↔
      List.Forall₂ (Unseen floatRepr) (entries log) (entries log') := by
  rw [verifyChain_iff] at h ⊢
  constructor
  · intro h'
    exact forall₂_of_payloads_eq floatRepr hrepr h (Or.inr hfirst) hstored
      (HashChain.payloads_eq_of_linked h h' hstored hfree)
  · intro hrows
    exact HashChain.linked_of_payloads_eq h hstored
      (payloads_eq_of_forall₂ floatRepr hrepr hstored hrows)

/-! ## Deleted and moved rows -/

/-- The text can be the payload of a row behind a digest: it begins with one, or like a
v2 payload. -/
def ReadsChained (text : String) : Prop :=
  (64 ≤ text.length ∧ ((text.toList.take 64).all fun c => Sha256.hexDigits.contains c) = true) ∨
    ['v', '2', '\x1f'] <+: text.toList

instance (text : String) : Decidable (ReadsChained text) :=
  inferInstanceAs (Decidable (_ ∨ _))

/-- The payload of a first row cannot be taken for that of a later one. -/
def Entry.StandsAlone (e : Entry F) : Prop :=
  e.IsV2 ∨ ¬ ReadsChained (e.textV1 floatRepr)

instance (e : Entry F) : Decidable (e.StandsAlone floatRepr) :=
  inferInstanceAs (Decidable (_ ∨ _))

theorem readsChained_payload (text : String) (e : Entry F) :
    ReadsChained (e.payload floatRepr (sha256Hex text)) := by
  by_cases he : e.IsV2
  · right
    rw [Entry.payload, if_pos he, payloadV2_eq]
    exact prefix_append ['v', '2', '\x1f'] _
  · left
    rw [payload_of_v1 floatRepr he, String.length_append, ← String.length_toList,
      length_sha256Hex, String.toList_append,
      take_append_of_le_length (length_sha256Hex text).ge]
    refine ⟨by omega, all_eq_true.mpr fun c hc => ?_⟩
    exact contains_iff_mem.mpr (isHex_of_mem_sha256Hex (mem_of_mem_take hc))

/-- The payload of the first row is that of a later row only if they carry one digest. -/
theorem payload_first_ne {text : String} (he : e.StandsAlone floatRepr) :
    e.payload floatRepr "" ≠ f.payload floatRepr (sha256Hex text) := by
  intro h
  by_cases hv2 : e.IsV2
  · by_cases hf : f.IsV2
    · rw [Entry.payload, Entry.payload, if_pos hv2, if_pos hf] at h
      exact sha256Hex_ne_empty text (payloadV2_inj floatRepr h).1.symm
    · rw [Entry.payload, Entry.payload, if_pos hv2, if_neg hf] at h
      exact payloadV2_ne_payloadV1 floatRepr _ _ _ _ _ _ _ _ _ _ h
  · have hplain := he.resolve_left hv2
    rw [payload_of_v1 floatRepr hv2, String.empty_append] at h
    exact hplain (h ▸ readsChained_payload floatRepr text f)

theorem exists_digest_tail (h : Chained floatRepr "" es) (hne : es ≠ []) :
    ∃ text, HashChain.tail Entry.integrityHash "" es = sha256Hex text := by
  have htail : HashChain.tail Entry.integrityHash "" es ∈ es.map Entry.integrityHash :=
    HashChain.tail_mem_map "" hne
  obtain ⟨e, he, heq⟩ := mem_map.mp htail
  rw [← heq]
  exact exists_digest_of_chained floatRepr h he

/-- No digest appears twice in an accepted log whose first row stands alone. -/
theorem nodup_integrityHash (h : Chained floatRepr "" es)
    (hfirst : ∀ e ∈ es.head?, e.StandsAlone floatRepr)
    (hfree : HashChain.CollisionFree sha256Hex (payloads floatRepr "" es)) :
    (es.map Entry.integrityHash).Nodup := by
  refine HashChain.nodup_stored h hfree
    (fun e he => integrityHash_ne_empty floatRepr h he) ?_
  intro before e between f after hsplit hpayload
  have hchain : Chained floatRepr "" (before ++ e :: between) := by
    rw [hsplit] at h
    exact ((HashChain.linked_append "" _ _).mp h).1
  obtain ⟨y, hy⟩ := exists_digest_tail floatRepr hchain (by simp)
  rw [hy] at hpayload ⊢
  rcases eq_nil_or_concat before with rfl | ⟨init, last, rfl⟩
  · exact absurd hpayload
      (payload_first_ne floatRepr (hfirst e (by simp [hsplit])))
  · have hbefore : Chained floatRepr "" (init.concat last) :=
      ((HashChain.linked_append "" _ _).mp hchain).1
    obtain ⟨x, hx⟩ := exists_digest_tail floatRepr hbefore (by simp)
    rw [hx] at hpayload ⊢
    exact (payload_eq_of_digest floatRepr hpayload).1

theorem verifyChain_moved (h : verifyChain floatRepr log = (true, none))
    (hfirst : ∀ e ∈ (entries log).head?, e.StandsAlone floatRepr)
    (hfree : HashChain.CollisionFree sha256Hex (payloads floatRepr "" (entries log) ++
      payloads floatRepr "" (entries log')))
    (hrows : entries log' ⊆ entries log) (hlast : (entries log').getLast? = (entries log).getLast?)
    (hne : entries log' ≠ entries log) :
    verifyChain floatRepr log' ≠ (true, none) := by
  intro h'
  rw [verifyChain_iff] at h h'
  have hnodup := nodup_integrityHash floatRepr h hfirst
    (hfree.mono (subset_append_left _ _))
  have hstart := fun e he => integrityHash_ne_empty floatRepr (e := e) h he
  have hprefix := HashChain.isPrefix_of_linked (payload_prev_inj floatRepr) h hnodup
    hstart h' hrows hfree
  refine hne (HashChain.eq_of_isPrefix_of_tail hnodup hstart hprefix (prefix_refl _) ?_)
  rw [HashChain.tail_eq, HashChain.tail_eq, hlast]

/-! ## Tamper evidence -/

/-- **Tamper evidence.**  The v2 payload determines the digest in front of a row and its
columns, `NULL` and an empty target being one, and is no v1 payload behind a digest.
With the hashes as they were and the first row in its format, a changed log is accepted
only if each row was changed in a way its format does not see; with rows deleted or
moved before the last, it is rejected. -/
theorem tamper_evident (hrepr : Function.Injective floatRepr) :
    (∀ (p q : String) (e f : Entry F),
      payloadV2 floatRepr p e.eventType e.actor e.target e.timestamp e.details =
          payloadV2 floatRepr q f.eventType f.actor f.target f.timestamp f.details →
        p = q ∧ SameColumns e f) ∧
    (∀ (p text : String) (e f : Entry F),
      payloadV2 floatRepr p e.eventType e.actor e.target e.timestamp e.details ≠
        payloadV1 floatRepr (sha256Hex text) f.eventType f.timestamp f.details) ∧
    (∀ log log' : List (Row F), verifyChain floatRepr log = (true, none) →
      FirstFormat (entries log) (entries log') →
      (entries log').map Entry.integrityHash = (entries log).map Entry.integrityHash →
      HashChain.CollisionFree sha256Hex
        (payloads floatRepr "" (entries log) ++ payloads floatRepr "" (entries log')) →
      (verifyChain floatRepr log' = (true, none) ↔
        List.Forall₂ (Unseen floatRepr) (entries log) (entries log'))) ∧
    (∀ log log' : List (Row F), verifyChain floatRepr log = (true, none) →
      (∀ e ∈ (entries log).head?, e.StandsAlone floatRepr) →
      HashChain.CollisionFree sha256Hex
        (payloads floatRepr "" (entries log) ++ payloads floatRepr "" (entries log')) →
      entries log' ⊆ entries log →
      (entries log').getLast? = (entries log).getLast? →
      entries log' ≠ entries log →
      verifyChain floatRepr log' ≠ (true, none)) := by
  refine ⟨?_, ?_, ?_, ?_⟩
  · intro p q e f h
    obtain ⟨hprev, htype, hactor, htarget, htime, hdetails⟩ := payloadV2_inj floatRepr h
    exact ⟨hprev, htype, hactor, htarget, hrepr htime, hdetails⟩
  · intro p text e f
    exact payloadV2_ne_payloadV1 floatRepr _ _ _ _ _ _ _ _ _ _
  · intro log log' h hfirst hstored hfree
    exact verifyChain_changed_iff floatRepr hrepr h hfirst hstored hfree
  · intro log log' h hfirst hfree hrows hlast hne
    exact verifyChain_moved floatRepr h hfirst hfree hrows hlast hne

/-- A consent from before the v2 payload. -/
def legacyRow : Row Nat where
  auditId := 1
  eventType := "consent.granted"
  actor := "alice"
  target := some "gmail"
  timestamp := 1700000000
  details := "\x7b\x7d"
  integrityHash := "29a8db2b565b17bafbf9b3be5628fcb382a9978fba8b39165df6315a2bc0f417"
  chainVersion := some "v1"

/-- A consent with the v2 payload and no target. -/
def currentRow : Row Nat where
  auditId := 1
  eventType := "consent.granted"
  actor := "alice"
  target := none
  timestamp := 1700000000
  details := "\x7b\x7d"
  integrityHash := "50e95b6d10a24055316fc1f3e543027cd079fe39b259c445239de76a7db4f8d8"
  chainVersion := some "v2"

/-- Rows changed with their hashes as they were, and accepted: the actor of a v1 row, a
digit moved from its timestamp to its event type, its version; a v2 target set from
`NULL` to the empty text; and a first v2 row read as v1 with other columns. -/
theorem tampering_accepted :
    verifyChain reprWhole [legacyRow] = (true, none) ∧
    verifyChain reprWhole [{ legacyRow with actor := "mallory" }] = (true, none) ∧
    verifyChain reprWhole [{ legacyRow with eventType := "consent.granted1"
                                            timestamp := 700000000 }] = (true, none) ∧
    verifyChain reprWhole [{ legacyRow with chainVersion := some "v0" }] =
      (true, none) ∧
    verifyChain reprWhole [currentRow] = (true, none) ∧
    verifyChain reprWhole [{ currentRow with target := some "" }] = (true, none) ∧
    verifyChain reprWhole [{ currentRow with
        eventType := "v2\x1f0:\x1f15:consent.granted\x1f5:alice\x1f0:\x1f12:"
        details := "\x1f2:\x7b\x7d"
        chainVersion := some "v1" }] = (true, none) := by
  decide +kernel

/-- The row behind `currentRow`. -/
def laterRow : Row Nat where
  auditId := 2
  eventType := "consent.revoked"
  actor := "alice"
  target := some "gmail"
  timestamp := 1700000060
  details := "\x7b\x7d"
  integrityHash := "47f3d27d02ff6ebe5739580587e70d2c612ec5760ec4f08eafe32930bda939da"
  chainVersion := some "v2"

/-- A changed actor and a deleted first row are noticed. -/
theorem tamper_evident_later :
    verifyChain reprWhole [{ currentRow with actor := "mallory" }] ≠ (true, none) ∧
    verifyChain reprWhole [laterRow] ≠ (true, none) := by
  obtain ⟨-, -, hchanged, hmoved⟩ := tamper_evident reprWhole reprWhole_injective
  have haccepted : verifyChain reprWhole [currentRow, laterRow] = (true, none) := by
    decide +kernel
  constructor
  · intro h
    have hunseen := (hchanged [currentRow] [{ currentRow with actor := "mallory" }]
      (by decide +kernel) (by simp [FirstFormat, entries]; decide) rfl
      (by decide +kernel)).mp h
    exact absurd hunseen (by decide)
  · refine hmoved [currentRow, laterRow] [laterRow] haccepted ?_ (by decide +kernel)
      (by simp [entries]) rfl (by decide)
    decide

end StackOwl.Audit
