import StackOwl.Lib.Once
import StackOwl.Notifications.Proactive

/-!
# Proactive delivery, once and never lost

What an attempt has by the stage it is at, and where its message is, is kept by every regular
step of the ledger, the deliverer, the router and the digest.

## Main results

* `delivered_once` — where the router does not raise and nothing that was batched is claimed
  again, a channel accepts the message of an occurrence at most once, 'delivered' stays, and
  a message ends delivered, queued, or recorded with its body.
* `probe_not_recorded` — a probe that cannot be sent is recorded nowhere.
-/

namespace StackOwl.Notifications

open Lib List Option Function

/-! ## The invariant -/

/-- The key an attempt claimed, until another may claim it again. -/
def Attempt.claimed (a : Attempt) : Option Key :=
  if a.stage = .over ∧ (a.returned = some .suppressed ∨ a.returned = some .failed) then none
  else some a.key

/-- The occurrence the fallback channel has accepted. -/
def Attempt.reroutedFor (a : Attempt) : Option (String × String) :=
  if a.rerouted = true then some a.occurrence else none

def StageShape (a : Attempt) : Prop :=
  match a.stage with
  | .routing => a.notificationId = none ∧ a.returned = none
  | .filing | .sending _ | .rerouting _ | .recording =>
    a.notificationId.isSome ∧ a.returned = none
  | .marking | .over => a.notificationId.isSome ∧ a.returned.isSome
  | .raised => False
  | .cut => a.returned.isSome → a.notificationId.isSome

/-- The outbox of the attempts has the body under the id. -/
def Filed (w : ProactiveWorld) (id body : String) : Prop :=
  ∃ entry ∈ w.outbox, entry.1 = id ∧ entry.2.body = body

/-- The outbox of the attempts has nothing under the id. -/
def NotFiled (w : ProactiveWorld) (id : String) : Prop :=
  ∀ entry ∈ w.outbox, entry.1 ≠ id

/-- Where the message of an attempt is, by what the deliverer returned, or by its stage. -/
def Kept (w : ProactiveWorld) (a : Attempt) (id : String) : Prop :=
  match a.returned with
  | some .batched => Held w.digest id a.message ∧ NotFiled w id
  | some .delivered => Absent w.digest id ∧ NotFiled w id
  | some .suppressed => Absent w.digest id ∧ Filed w id a.message
  | some .failed => Absent w.digest id ∧ (a.surfaceUndelivered = true → Filed w id a.message)
  | none => Absent w.digest id ∧
    match a.stage with
    | .filing => id ∉ w.digest.ids ∧ Filed w id a.message
    | .sending _ | .rerouting _ | .recording => NotFiled w id
    | _ => True

/-- An attempt that is not over has its key dispatched, and no other may claim it while it was
accepted. -/
structure AttemptHolds (w : ProactiveWorld) (a : Attempt) : Prop where
  dispatched : a.stage ≠ .over → w.ledger a.key = some .dispatched
  locked : a.returned = some .delivered →
    w.ledger a.key = some .dispatched ∨ w.ledger a.key = some .delivered
  shape : StageShape a
  rerouted : a.rerouted = true → a.returned = some .delivered
  kept : ∀ id ∈ a.notificationId, Kept w a id

/-- Nobody claims what another has claimed, ids are not shared, an occurrence is rerouted once
and never where the fallback is one of its channels, and what was accepted is what the attempts
were accepted as. -/
structure ProactiveInv (fallback : String) (w : ProactiveWorld) : Prop where
  digest : FlushInv w.digest
  attempts : ∀ a ∈ w.attempts, AttemptHolds w a
  claimed : Once Attempt.claimed [] w.attempts
  named : Once Attempt.notificationId [] w.attempts
  reroutedOnce : Once Attempt.reroutedFor [] w.attempts
  apart : ∀ a ∈ w.attempts, a.rerouted = true → ∀ a' ∈ w.attempts,
    a'.occurrence = a.occurrence → a'.channel ≠ fallback
  outbox : ∀ entry ∈ w.outbox, ∃ a ∈ w.attempts, a.notificationId = some entry.1
  accepted : w.accepted.Perm (w.attempts.filterMap (Attempt.acceptedAs fallback w.digest.sent))

theorem ProactiveInv.init (fallback : String) : ProactiveInv fallback {} where
  digest := .init
  attempts := fun _ ha => by cases ha
  claimed := .nil _
  named := .nil _
  reroutedOnce := .nil _
  apart := fun _ ha => by cases ha
  outbox := fun _ hentry => by cases hentry
  accepted := List.Perm.refl _

/-! ## What the invariant says of the messages -/

section
variable {fallback : String} {w : ProactiveWorld} {a : Attempt}

theorem claimed_of_open (h : a.stage ≠ .over) : a.claimed = some a.key := by
  unfold Attempt.claimed
  rw [if_neg fun hover => h hover.1]

theorem claimed_eq_none (h : a.claimed = none) :
    a.stage = .over ∧ (a.returned = some .suppressed ∨ a.returned = some .failed) := by
  unfold Attempt.claimed at h
  split at h
  · assumption
  · cases h

theorem acceptedAs_eq_some {sent : List String} {key : Key}
    (h : a.acceptedAs fallback sent = some key) :
    a.claimed = some a.key ∧
      (key = a.key ∨ a.rerouted = true ∧ key = (a.jobId, a.occurrenceKey, fallback)) := by
  constructor
  · unfold Attempt.claimed
    rw [if_neg]
    rintro ⟨-, hsuppressed | hfailed⟩
    · simp [Attempt.acceptedAs, hsuppressed] at h
    · simp [Attempt.acceptedAs, hfailed] at h
  · unfold Attempt.acceptedAs at h
    split at h
    · split at h
      · rename_i hrerouted
        exact .inr ⟨hrerouted, (Option.some.inj h).symm⟩
      · exact .inl (Option.some.inj h).symm
    · split at h
      · exact .inl (Option.some.inj h).symm
      · cases h
    · cases h

theorem ProactiveInv.nodup (h : ProactiveInv fallback w) : w.accepted.Nodup := by
  refine h.accepted.nodup_iff.mpr (pairwise_filterMap.mpr ?_)
  have hclaimed := pairwise_filterMap.mp h.claimed
  have hrerouted := pairwise_filterMap.mp h.reroutedOnce
  refine (hclaimed.and hrerouted).imp_of_mem ?_
  rintro a a' ha ha' ⟨hkeys, hoccurrences⟩ key hkey key' hkey' rfl
  obtain ⟨hclaim, horigin⟩ := acceptedAs_eq_some hkey
  obtain ⟨hclaim', horigin'⟩ := acceptedAs_eq_some hkey'
  rcases horigin with rfl | ⟨hto, rfl⟩ <;> rcases horigin' with hsame | ⟨hto', hsame⟩
  · exact hkeys _ hclaim _ hclaim' hsame
  · simp only [Attempt.key, Prod.mk.injEq] at hsame
    obtain ⟨hjob, hocc, hchannel⟩ := hsame
    exact h.apart a' ha' hto' a ha (by rw [Attempt.occurrence, hjob, hocc, Attempt.occurrence])
      hchannel
  · simp only [Attempt.key, Prod.mk.injEq] at hsame
    obtain ⟨hjob, hocc, hchannel⟩ := hsame
    exact h.apart a ha hto a' ha' (by rw [Attempt.occurrence, ← hjob, ← hocc, Attempt.occurrence])
      hchannel.symm
  · simp only [Prod.mk.injEq] at hsame
    obtain ⟨hjob, hocc, -⟩ := hsame
    refine hoccurrences a.occurrence (if_pos hto) a'.occurrence (if_pos hto') ?_
    rw [Attempt.occurrence, hjob, hocc, Attempt.occurrence]

theorem acceptedAs_of_none (h : a.returned = none) (sent : List String) :
    a.acceptedAs fallback sent = none := by
  simp [Attempt.acceptedAs, h]

variable {b : Attempt}

theorem acceptedAs_of_unaccepted (ha : a.returned = none)
    (hb : b.returned = none ∨ b.returned = some .suppressed ∨ b.returned = some .failed)
    (sent : List String) : b.acceptedAs fallback sent = a.acceptedAs fallback sent := by
  rw [acceptedAs_of_none ha]
  rcases hb with hb | hb | hb <;> simp [Attempt.acceptedAs, hb]

theorem AttemptHolds.named (h : AttemptHolds w a) (hreturned : a.returned ≠ none) :
    ∃ id, a.notificationId = some id := by
  have hsome := isSome_iff_ne_none.mpr hreturned
  have hshape := h.shape
  unfold StageShape at hshape
  refine isSome_iff_exists.mp ?_
  cases hs : a.stage <;> rw [hs] at hshape <;> dsimp only at hshape
  case routing | filing | sending | rerouting | recording => exact absurd hshape.2 hreturned
  case marking | «over» => exact hshape.1
  case cut => exact hshape hsome

/-- Every message that the deliverer returned from is in one place, unless a probe failed. -/
theorem ProactiveInv.placed (h : ProactiveInv fallback w) (ha : a ∈ w.attempts)
    (hreturned : a.returned ≠ none)
    (hprobe : a.returned = some .failed → a.surfaceUndelivered = true) :
    Placed fallback w a := by
  have hholds := h.attempts a ha
  obtain ⟨id, hid⟩ := hholds.named hreturned
  have hkept := hholds.kept id hid
  have hmem : ∀ key, a.acceptedAs fallback w.digest.sent = some key →
      Delivered fallback w a := fun key hkey =>
    ⟨key, h.accepted.mem_iff.mpr (mem_filterMap.mpr ⟨a, ha, hkey⟩), hkey⟩
  have hnotWaiting : Absent w.digest id → ¬ Waiting w a := by
    rintro habsent ⟨r, hr, hsame, -⟩
    exact habsent.queue r hr (Option.some.inj (hsame.symm.trans hid))
  have hfiled : Filed w id a.message → Recorded w a := by
    rintro ⟨entry, hentry, hname, hbody⟩
    exact ⟨entry, mem_append_left _ hentry, by rw [hid, hname], hbody⟩
  have hnotRecorded : NotFiled w id → (∀ entry ∈ w.digest.outbox, entry.1 ≠ id) →
      ¬ Recorded w a := by
    rintro hnot hnone ⟨entry, hentry, hsame, -⟩
    have hname := Option.some.inj (hsame.symm.trans hid)
    exact (mem_append.mp hentry).elim (fun hmem => hnot entry hmem hname)
      fun hmem => hnone entry hmem hname
  unfold Kept at hkept
  cases hstatus : a.returned with
  | none => exact absurd hstatus hreturned
  | some status =>
    rw [hstatus] at hkept
    cases status with
    | delivered =>
      have hkey : a.acceptedAs fallback w.digest.sent =
          some (a.jobId, a.occurrenceKey, if a.rerouted then fallback else a.channel) := by
        simp [Attempt.acceptedAs, hstatus]
      exact .inl ⟨hmem _ hkey, hnotWaiting hkept.1, hnotRecorded hkept.2 hkept.1.outbox⟩
    | suppressed =>
      refine .inr (.inr ⟨?_, hnotWaiting hkept.1, hfiled hkept.2⟩)
      rintro ⟨key, -, hkey⟩
      simp [Attempt.acceptedAs, hstatus] at hkey
    | failed =>
      refine .inr (.inr ⟨?_, hnotWaiting hkept.1, hfiled (hkept.2 (hprobe hstatus))⟩)
      rintro ⟨key, -, hkey⟩
      simp [Attempt.acceptedAs, hstatus] at hkey
    | batched =>
      obtain ⟨hheld, hnot⟩ := hkept
      by_cases hsent : id ∈ w.digest.sent
      · refine .inl ⟨hmem a.key ?_, ?_, hnotRecorded hnot ?_⟩
        · simp [Attempt.acceptedAs, hstatus, hid, hsent]
        · rintro ⟨r, -, hsame, -, hunsent, -⟩
          exact hunsent (Option.some.inj (hid.symm.trans hsame) ▸ hsent)
        · intro entry hentry hname
          exact h.digest.apart entry hentry (hname ▸ hsent)
      have hnotDelivered : ¬ Delivered fallback w a := by
        rintro ⟨key, -, hkey⟩
        simp [Attempt.acceptedAs, hstatus, hid, hsent] at hkey
      by_cases hrecorded : ∃ entry ∈ w.digest.outbox, entry.1 = id
      · obtain ⟨entry, hentry, hname⟩ := hrecorded
        have hnotQueued : ¬ Waiting w a := by
          rintro ⟨r, -, hsame, -, -, hnone⟩
          refine hnone entry (mem_append_right _ hentry) ?_
          exact hname.trans (Option.some.inj (hid.symm.trans hsame))
        refine .inr (.inr ⟨hnotDelivered, hnotQueued, ?_⟩)
        rcases hheld with hmem | ⟨entry', hentry', hname', hbody⟩ | ⟨r, hr, rfl, hbody⟩
        · exact absurd hmem hsent
        · exact ⟨entry', mem_append_right _ hentry', by rw [hid, hname'], hbody⟩
        · -- its flush has recorded it and is about to delete it
          obtain ⟨t, ht, hstage, hrow⟩ := h.digest.recorded r hr entry hentry hname
          have htick := h.digest.tick t ht
          have hsame := queue_eq (htick.queued _ mem_cons_self) hr hrow
          have hfailed := htick.stage
          rw [hstage, hsame] at hfailed
          obtain ⟨-, body, hbody', hletter⟩ := hfailed
          rw [hbody] at hbody'
          exact ⟨_, mem_append_right _ hletter, hid, (Option.some.inj hbody').symm⟩
      · have hnone : ∀ entry ∈ w.digest.outbox, entry.1 ≠ id := fun entry hentry hname =>
          hrecorded ⟨entry, hentry, hname⟩
        refine .inr (.inl ⟨hnotDelivered, ?_, hnotRecorded hnot hnone⟩)
        rcases hheld with hmem | ⟨entry, hentry, hname, -⟩ | ⟨r, hr, rfl, hbody⟩
        · exact absurd hmem hsent
        · exact absurd hname (hnone entry hentry)
        · refine ⟨r, hr, hid, hbody, hsent, fun entry hentry => ?_⟩
          exact (mem_append.mp hentry).elim (hnot entry) (hnone entry)

/-! ## What a step leaves as it was -/

/-- The digest goes on, and the step concerns another notification. -/
structure Spares (d d' : DigestWorld) (id : String) : Prop where
  held : ∀ body, Held d id body → Held d' id body
  absent : Absent d id → Absent d' id
  ids : id ∉ d.ids → id ∉ d'.ids

theorem Spares.refl (d : DigestWorld) (id : String) : Spares d d id :=
  ⟨fun _ h => h, fun h => h, fun h => h⟩

theorem Spares.step {d : DigestWorld} (h : FlushInv d) {op : DigestOp} {id : String}
    (hnew : op.newId ≠ some id) : Spares d (digestStep true d op) id :=
  ⟨fun _ hheld => h.held op hheld, fun habsent => h.absent habsent hnew,
    fun hid => ids_digestStep hid hnew⟩

variable {w' : ProactiveWorld}

theorem AttemptHolds.mono (h : AttemptHolds w a)
    (hledger : w'.ledger a.key = w.ledger a.key ∨ a.claimed = none)
    (houtbox : ∀ id ∈ a.notificationId, ∀ entry : String × OutboxRow, entry.1 = id →
      (entry ∈ w'.outbox ↔ entry ∈ w.outbox))
    (hdigest : ∀ id ∈ a.notificationId, Spares w.digest w'.digest id) : AttemptHolds w' a where
  dispatched hopen := by
    rcases hledger with hsame | hnone
    · rw [hsame]
      exact h.dispatched hopen
    · exact absurd (claimed_eq_none hnone).1 hopen
  locked hdelivered := by
    rcases hledger with hsame | hnone
    · rw [hsame]
      exact h.locked hdelivered
    · rcases (claimed_eq_none hnone).2 with hstatus | hstatus <;>
        rw [hdelivered] at hstatus <;> cases hstatus
  shape := h.shape
  rerouted := h.rerouted
  kept id hid := by
    have hkept := h.kept id hid
    have hspares := hdigest id hid
    have hnotFiled : NotFiled w id → NotFiled w' id := fun hnot entry hentry hname =>
      hnot entry ((houtbox id hid entry hname).mp hentry) hname
    have hfiled : ∀ body, Filed w id body → Filed w' id body := by
      rintro body ⟨entry, hentry, hname, hbody⟩
      exact ⟨entry, (houtbox id hid entry hname).mpr hentry, hname, hbody⟩
    unfold Kept at hkept ⊢
    cases hstatus : a.returned with
    | none =>
      rw [hstatus] at hkept
      refine ⟨hspares.absent hkept.1, ?_⟩
      have hstage := hkept.2
      cases hs : a.stage <;> rw [hs] at hstage
      case filing => exact ⟨hspares.ids hstage.1, hfiled _ hstage.2⟩
      case sending | rerouting | recording => exact hnotFiled hstage
      all_goals trivial
    | some status =>
      rw [hstatus] at hkept
      cases status with
      | delivered => exact ⟨hspares.absent hkept.1, hnotFiled hkept.2⟩
      | batched => exact ⟨hspares.held _ hkept.1, hnotFiled hkept.2⟩
      | suppressed => exact ⟨hspares.absent hkept.1, hfiled _ hkept.2⟩
      | failed => exact ⟨hspares.absent hkept.1, fun hprobe => hfiled _ (hkept.2 hprobe)⟩

variable {i : Nat}

theorem mem_set_of_ne {α : Type} {l : List α} {b x : α} (h : x ∈ l.set i b) :
    x = b ∨ ∃ j, i ≠ j ∧ l[j]? = some x := by
  obtain ⟨j, hj⟩ := mem_iff_getElem?.mp h
  by_cases hij : i = j
  · subst hij
    rw [getElem?_set] at hj
    simp only [if_true] at hj
    split at hj
    · exact .inl (Option.some.inj hj).symm
    · cases hj
  · rw [getElem?_set_ne hij] at hj
    exact .inr ⟨j, hij, hj⟩

/-- An attempt goes on: what the step may touch is its key, its id and its message, and it is
accepted with what the channels are. -/
theorem ProactiveInv.onward (h : ProactiveInv fallback w) (hi : w.attempts[i]? = some a)
    (hopen : a.stage ≠ .over) (hattempts : w'.attempts = w.attempts.set i b)
    (hkey : b.occurrence = a.occurrence ∧ b.channel = a.channel)
    (hledger : ∀ key, key ≠ a.key → w'.ledger key = w.ledger key)
    (hid : b.notificationId = a.notificationId ∨ a.notificationId = none ∧ ∀ id ∈ b.notificationId,
      ∀ a' ∈ w.attempts, a'.notificationId ≠ some id)
    (houtbox : ∃ added, w'.outbox = w.outbox ++ added ∧ ∀ entry ∈ added,
      b.notificationId = some entry.1)
    (hdigest : w'.digest = w.digest ∨ ∃ op, w'.digest = digestStep true w.digest op ∧
      FlushIntact w.digest op ∧ ∀ id ∈ op.newId, b.notificationId = some id)
    (hsent : w'.digest.sent = w.digest.sent)
    (hrerouted : b.rerouted = a.rerouted ∨ ∀ a' ∈ w.attempts, a'.occurrence = a.occurrence →
      a'.channel ≠ fallback ∧ a'.rerouted = false)
    (haccepted : b.acceptedAs fallback w.digest.sent = a.acceptedAs fallback w.digest.sent ∧
      w'.accepted = w.accepted ∨ a.acceptedAs fallback w.digest.sent = none ∧ ∃ key,
      b.acceptedAs fallback w.digest.sent = some key ∧ w'.accepted = w.accepted ++ [key])
    (hholds : AttemptHolds w' b) : ProactiveInv fallback w' := by
  have ha := List.mem_of_getElem? hi
  have hsame : b.key = a.key := by
    have hocc := hkey.1
    simp only [Attempt.occurrence, Prod.mk.injEq] at hocc
    rw [Attempt.key, Attempt.key, hocc.1, hocc.2, hkey.2]
  have hclaimed := claimed_of_open hopen
  obtain ⟨added, hadded, hnamed⟩ := houtbox
  -- the others keep their ids to themselves
  have hothers : ∀ j a' id, i ≠ j → w.attempts[j]? = some a' → a'.notificationId = some id →
      b.notificationId ≠ some id := by
    intro j a' id hij hj hname hb
    rcases hid with hsameId | ⟨-, hfresh⟩
    · exact h.named.apart hij hi hj (hsameId.symm.trans hb) hname
    · exact hfresh id hb a' (List.mem_of_getElem? hj) hname
  -- whoever is there was there with the same occurrence and channel
  have hbefore : ∀ x ∈ w'.attempts, ∃ x₀ ∈ w.attempts,
      x.occurrence = x₀.occurrence ∧ x.channel = x₀.channel := by
    intro x hx
    rw [hattempts] at hx
    rcases List.mem_or_eq_of_mem_set hx with hold | rfl
    · exact ⟨x, hold, rfl, rfl⟩
    · exact ⟨a, ha, hkey⟩
  refine ⟨?_, ?_, ?_, ?_, ?_, ?_, ?_, ?_⟩
  · rcases hdigest with hd | ⟨op, hd, hok, -⟩
    · rw [hd]
      exact h.digest
    · rw [hd]
      exact h.digest.step hok
  · intro a' ha'
    rw [hattempts] at ha'
    rcases mem_set_of_ne ha' with rfl | ⟨j, hij, hj⟩
    · exact hholds
    refine (h.attempts a' (List.mem_of_getElem? hj)).mono ?_ ?_ ?_
    · by_cases hk : a'.key = a.key
      · right
        have hfree := h.claimed.apart hij hi hj hclaimed
        by_contra hsome
        refine hfree ?_
        unfold Attempt.claimed at hsome ⊢
        split at hsome
        · exact absurd rfl hsome
        · rw [if_neg ‹_›, hk]
      · exact .inl (hledger _ hk)
    · intro id hname entry hentry
      rw [hadded, List.mem_append, or_iff_left]
      intro hnow
      exact hothers j a' id hij hj hname (hentry ▸ hnamed entry hnow)
    · intro id hname
      rcases hdigest with hd | ⟨op, hd, -, hnew⟩
      · rw [hd]
        exact .refl _ _
      · rw [hd]
        exact .step h.digest fun hid' => hothers j a' id hij hj hname (hnew id hid')
  · rw [hattempts]
    by_cases hnone : b.claimed = none
    · exact h.claimed.idle hi hnone
    · refine h.claimed.keep hi ?_
      unfold Attempt.claimed at hnone hclaimed ⊢
      split at hnone
      · exact absurd rfl hnone
      · rw [if_neg ‹_›, hclaimed, hsame]
  · rw [hattempts]
    rcases hid with hsameId | ⟨hnone, hfresh⟩
    · exact h.named.keep hi hsameId
    · cases hb : b.notificationId with
      | none => exact h.named.keep hi (hb.trans hnone.symm)
      | some id =>
        refine h.named.enter hi hnone hb ?_
        rw [List.nil_append, List.mem_filterMap]
        rintro ⟨a', ha', hname⟩
        exact hfresh id hb a' ha' hname
  · rw [hattempts]
    rcases hrerouted with hsameR | hcond
    · refine h.reroutedOnce.keep hi ?_
      rw [Attempt.reroutedFor, Attempt.reroutedFor, hsameR, hkey.1]
    · have hfresh : a.occurrence ∉ [] ++ w.attempts.filterMap Attempt.reroutedFor := by
        rw [List.nil_append, List.mem_filterMap]
        rintro ⟨a', ha', hfor⟩
        unfold Attempt.reroutedFor at hfor
        split at hfor
        · rename_i hto
          rw [(hcond a' ha' (Option.some.inj hfor)).2] at hto
          cases hto
        · cases hfor
      have hanone : a.reroutedFor = none := by
        rw [Attempt.reroutedFor, (hcond a ha rfl).2]
        rfl
      by_cases hb : b.rerouted = true
      · refine h.reroutedOnce.enter hi hanone (x := a.occurrence) ?_ hfresh
        rw [Attempt.reroutedFor, if_pos hb, hkey.1]
      · exact h.reroutedOnce.idle hi (if_neg hb)
  · intro x hx hto y hy hocc
    obtain ⟨y₀, hy₀, hyocc, hychannel⟩ := hbefore y hy
    rw [hychannel]
    rw [hyocc] at hocc
    rw [hattempts] at hx
    rcases List.mem_or_eq_of_mem_set hx with hold | rfl
    · exact h.apart x hold hto y₀ hy₀ hocc
    · rw [hkey.1] at hocc
      rcases hrerouted with hsameR | hcond
      · exact h.apart a ha (hsameR ▸ hto) y₀ hy₀ hocc
      · exact (hcond y₀ hy₀ hocc).1
  · intro entry hentry
    obtain ⟨hlt, -⟩ := List.getElem?_eq_some_iff.mp hi
    have hb : b ∈ w'.attempts := by
      rw [hattempts]
      exact List.mem_of_getElem? (List.getElem?_set_self hlt)
    rw [hadded] at hentry
    rcases List.mem_append.mp hentry with hold | hnow
    · obtain ⟨a', ha', hname⟩ := h.outbox entry hold
      obtain ⟨j, hj⟩ := List.mem_iff_getElem?.mp ha'
      by_cases hij : i = j
      · subst hij
        cases hi.symm.trans hj
        rcases hid with hsameId | ⟨hnone, -⟩
        · exact ⟨b, hb, hsameId.trans hname⟩
        · rw [hnone] at hname
          cases hname
      · refine ⟨a', ?_, hname⟩
        rw [hattempts]
        exact List.mem_of_getElem? ((List.getElem?_set_ne hij).trans hj)
    · exact ⟨b, hb, hnamed entry hnow⟩
  · obtain ⟨others, hold, hnew⟩ := filterMap_set (Attempt.acceptedAs fallback w.digest.sent) hi
    rw [hsent, hattempts]
    rcases haccepted with ⟨hsameAs, hacc⟩ | ⟨hnone, key, hb, hacc⟩
    · rw [hacc]
      refine (h.accepted.trans hold).trans ?_
      rw [← hsameAs]
      exact (hnew b).symm
    · rw [hacc]
      refine List.perm_append_comm.trans (((h.accepted.trans hold).append_left [key]).trans ?_)
      rw [hnone, toList_none, List.nil_append]
      refine List.Perm.trans ?_ (hnew b).symm
      rw [hb, toList_some]

/-! ## Steps -/

/-- Who has claimed a key that may be claimed again was given back what it claimed. -/
theorem ProactiveInv.claimed_eq_none (h : ProactiveInv fallback w) {key : Key}
    (hledger : w.ledger key ≠ some .dispatched ∧ w.ledger key ≠ some .delivered)
    (hbatched : ∀ a ∈ w.attempts, a.key = key → a.returned ≠ some .batched) :
    ∀ a ∈ w.attempts, a.key = key → a.claimed = none := by
  intro a ha hkey
  have hholds := h.attempts a ha
  have hover : a.stage = .over := by
    by_contra hopen
    exact hledger.1 (hkey ▸ hholds.dispatched hopen)
  unfold Attempt.claimed
  rw [if_pos]
  refine ⟨hover, ?_⟩
  have hshape := hholds.shape
  unfold StageShape at hshape
  rw [hover] at hshape
  obtain ⟨status, hstatus⟩ := isSome_iff_exists.mp hshape.2
  cases status with
  | suppressed => exact .inl hstatus
  | failed => exact .inr hstatus
  | batched => exact absurd hstatus (hbatched a ha hkey)
  | delivered =>
    rcases hholds.locked hstatus with hledger' | hledger'
    · exact absurd (hkey ▸ hledger') hledger.1
    · exact absurd (hkey ▸ hledger') hledger.2

theorem ProactiveInv.claim (h : ProactiveInv fallback w) (a : Attempt) (ok : Bool)
    (hok : Regular fallback w (.claim a ok)) : ProactiveInv fallback (w.claim a ok) := by
  unfold ProactiveWorld.claim
  simp only
  split
  · split
    · exact h
    · exact h
    · rename_i hdispatched hdelivered
      have hnone := h.claimed_eq_none ⟨fun heq => hdispatched heq, fun heq => hdelivered heq⟩
        fun a' ha' => (hok a' ha').1
      refine ⟨h.digest, ?_, ?_, h.named.join rfl, h.reroutedOnce.join rfl, ?_, ?_, ?_⟩
      · intro a' ha'
        rcases mem_snoc.mp ha' with hold | rfl
        · refine (h.attempts a' hold).mono ?_ (fun _ _ _ _ => Iff.rfl) fun _ _ => .refl _ _
          by_cases hkey : a'.key = a.key
          · exact .inr (hnone a' hold hkey)
          · exact .inl (update_of_ne hkey _ _)
        · exact ⟨fun _ => update_self _ _ _, fun hfalse => (by cases hfalse), ⟨rfl, rfl⟩,
            fun hfalse => (by cases hfalse), fun _ hid => (by cases hid)⟩
      · refine h.claimed.joinWith (x := a.key) rfl ?_
        rw [nil_append, mem_filterMap]
        rintro ⟨a', ha', hclaimed⟩
        have hkey : a'.key = a.key := by
          unfold Attempt.claimed at hclaimed
          split at hclaimed
          · cases hclaimed
          · exact Option.some.inj hclaimed
        rw [hnone a' ha' hkey] at hclaimed
        cases hclaimed
      · intro x hx hto y hy hocc
        rcases mem_snoc.mp hx with hxold | hxnew
        · rcases mem_append.mp hy with hyold | hynew
          · exact h.apart x hxold hto y hyold hocc
          · rw [mem_singleton.mp hynew] at hocc ⊢
            intro hchannel
            rw [(hok x hxold).2 hchannel hocc.symm] at hto
            cases hto
        · rw [hxnew] at hto
          cases hto
      · intro entry hentry
        obtain ⟨a', ha', hname⟩ := h.outbox entry hentry
        exact ⟨a', mem_append_left _ ha', hname⟩
      · rw [filterMap_append, filterMap_cons_none (acceptedAs_of_none rfl _),
          filterMap_nil, append_nil]
        exact h.accepted
  · exact h

variable {ok : Bool}

theorem undelivered_of_recordable (hok : Recordable a ok) (reason : String) :
    ∃ row, a.undelivered reason ok = some row ∧ row.body = a.message := by
  obtain ⟨htarget, hmessage, rfl⟩ := hok
  exact ⟨_, if_neg (by simp [htarget, hmessage]), rfl⟩

theorem ProactiveInv.notFiled (h : ProactiveInv fallback w) {id : String}
    (hfresh : ∀ a ∈ w.attempts, a.notificationId ≠ some id) : NotFiled w id := by
  intro entry hentry hname
  obtain ⟨a, ha, hid⟩ := h.outbox entry hentry
  exact hfresh a ha (hname ▸ hid)

variable {hash : String → String} {notificationId : String}

theorem ProactiveInv.route (h : ProactiveInv fallback w) (hi : w.attempts[i]? = some a)
    (hs : a.stage = .routing) {styled : String} {inputs : RouterInputs} {now scheduledFor : Int}
    (hok : Regular fallback w (.route i notificationId styled inputs now scheduledFor ok)) :
    ProactiveInv fallback (w.route hash i a notificationId styled inputs now scheduledFor ok) := by
  obtain ⟨hids, hfresh, hrecords⟩ := hok
  have hrecord := hrecords a hi
  have hholds := h.attempts a (mem_of_getElem? hi)
  have hopen : a.stage ≠ .over := by rw [hs]; decide
  have hledger := hholds.dispatched hopen
  obtain ⟨hnoId, hnone⟩ : a.notificationId = none ∧ a.returned = none := by
    have hshape := hholds.shape
    unfold StageShape at hshape
    rw [hs] at hshape
    exact hshape
  have hrerouted : a.rerouted = false := by
    by_contra hto
    have hreturned := hholds.rerouted (by simpa using hto)
    rw [hnone] at hreturned
    cases hreturned
  have habsent := h.digest.absent_of_fresh hids
  have hnotFiled := h.notFiled hfresh
  unfold ProactiveWorld.route
  simp only
  split
  · refine h.onward hi hopen rfl ⟨rfl, rfl⟩ (fun _ _ => rfl)
      (.inr ⟨hnoId, fun id hid => Option.some.inj hid ▸ hfresh⟩)
      ⟨[], (append_nil _).symm, fun _ hentry => (by cases hentry)⟩
      (.inr ⟨.file (a.logRow notificationId .delivered now hash) ok, rfl, hids,
        fun _ hid => hid⟩) rfl (.inl rfl) ?_ ?_
    · refine .inl ⟨acceptedAs_of_unaccepted hnone ?_ _, rfl⟩
      exact .inl hnone
    · refine ⟨fun _ => hledger, fun hdel => ?_, ⟨rfl, hnone⟩, fun hto => ?_, ?_⟩
      · cases hnone.symm.trans hdel
      · cases hrerouted.symm.trans hto
      · rintro id hid
        cases hid
        unfold Kept
        simp only [hnone]
        exact ⟨⟨habsent.sent, habsent.outbox, habsent.queue⟩, hnotFiled⟩
  · rename_i hdecision
    rw [hdecision] at hrecord
    have hqueued : ok = true := hrecord
    obtain ⟨queue, hinsert⟩ : ∃ queue,
        w.digest.queue.insert (a.queueRow notificationId scheduledFor hash) = some queue := by
      refine Table.insert_isSome fun key hkey r hr id hid => ?_
      obtain rfl := mem_singleton.mp hkey
      intro hsame
      exact habsent.queue r hr (Option.some.inj (hsame.trans hid.symm))
    have henqueue : digestStep true w.digest
        (.enqueue (a.queueRow notificationId scheduledFor hash) a.message now true) =
          { w.digest with
            queue
            unfiled := w.digest.unfiled ++
              [(a.queueRow notificationId scheduledFor hash).logRow .batched now none]
            ids := w.digest.ids ++ [notificationId] } := by
      simp only [digestStep]
      have hrow : ({ a.queueRow notificationId scheduledFor hash with
          message := some a.message, attempts := 0 } : QueueRow) =
            a.queueRow notificationId scheduledFor hash := rfl
      rw [hrow, hinsert]
      rfl
    rw [hqueued, hinsert]
    dsimp only
    refine h.onward hi hopen rfl ⟨rfl, rfl⟩ (fun _ _ => rfl)
      (.inr ⟨hnoId, fun id hid => Option.some.inj hid ▸ hfresh⟩)
      ⟨[], (append_nil _).symm, fun _ hentry => (by cases hentry)⟩
      (.inr ⟨.enqueue (a.queueRow notificationId scheduledFor hash) a.message now true, rfl,
        hids, fun _ hid => hid⟩) ?_ (.inl rfl) ?_ ?_
    · dsimp only
      rw [henqueue]
    · refine .inl ⟨?_, rfl⟩
      rw [acceptedAs_of_none hnone]
      simp [Attempt.acceptedAs, habsent.sent]
    · refine ⟨fun _ => hledger, fun hdel => (by cases hdel), ⟨rfl, rfl⟩, fun hto => ?_, ?_⟩
      · cases hrerouted.symm.trans hto
      · intro id hid
        cases hid
        refine ⟨.inr (.inr ⟨a.queueRow notificationId scheduledFor hash, ?_, rfl, rfl⟩), hnotFiled⟩
        dsimp only
        rw [henqueue]
        dsimp only
        rw [Table.rows_insert hinsert]
        exact mem_append_right _ mem_cons_self
  · rename_i hdelivered hbatched
    have hrecordable : Recordable a ok := by
      unfold RouteRecords at hrecord
      split at hrecord
      · exact absurd ‹_› hdelivered
      · exact absurd ‹_› hbatched
      · exact hrecord
    obtain ⟨row, hrow, hbody⟩ := undelivered_of_recordable hrecordable "suppressed"
    rw [hrow]
    refine h.onward hi hopen rfl ⟨rfl, rfl⟩ (fun _ _ => rfl)
      (.inr ⟨hnoId, fun id hid => Option.some.inj hid ▸ hfresh⟩) ⟨_, rfl, ?_⟩ (.inl rfl) rfl
      (.inl rfl) (.inl ⟨acceptedAs_of_unaccepted hnone ?_ _, rfl⟩) ?_
    · intro entry hentry
      rw [mem_singleton.mp hentry]
    · exact .inl hnone
    · refine ⟨fun _ => hledger, fun hdel => ?_, ⟨rfl, hnone⟩, fun hto => ?_, ?_⟩
      · cases hnone.symm.trans hdel
      · cases hrerouted.symm.trans hto
      · intro id hid
        cases hid
        unfold Kept
        simp only [hnone]
        exact ⟨habsent, hids, _, mem_append_right _ mem_cons_self, rfl, hbody⟩

/-- An attempt whose message is with the deliverer, and nowhere else. -/
structure InHand (w : ProactiveWorld) (a : Attempt) (id : String) : Prop where
  named : a.notificationId = some id
  returned : a.returned = none
  rerouted : a.rerouted = false
  dispatched : w.ledger a.key = some .dispatched
  absent : Absent w.digest id
  notFiled : NotFiled w id

def AttemptStage.inHand : AttemptStage → Bool
  | .sending _ => true
  | .rerouting _ => true
  | .recording => true
  | _ => false

theorem AttemptHolds.inHand (h : AttemptHolds w a) (hs : a.stage.inHand = true) :
    ∃ id, InHand w a id := by
  have hopen : a.stage ≠ .over := fun hover => by rw [hover] at hs; cases hs
  obtain ⟨hid, hnone⟩ : a.notificationId.isSome ∧ a.returned = none := by
    have hshape := h.shape
    unfold StageShape at hshape
    cases hstage : a.stage <;> rw [hstage] at hs hshape
    case sending | rerouting | recording => exact hshape
    all_goals cases hs
  obtain ⟨id, hid⟩ := isSome_iff_exists.mp hid
  have hkept := h.kept id hid
  unfold Kept at hkept
  rw [hnone] at hkept
  have hnotFiled : NotFiled w id := by
    have hstage := hkept.2
    cases hat : a.stage <;> rw [hat] at hs hstage
    case sending | rerouting | recording => exact hstage
    all_goals cases hs
  refine ⟨id, hid, hnone, ?_, h.dispatched hopen, hkept.1, hnotFiled⟩
  by_contra hto
  have hreturned := h.rerouted (by simpa using hto)
  rw [hnone] at hreturned
  cases hreturned

section

variable {a : Attempt} (h : ProactiveInv fallback w) (hi : w.attempts[i]? = some a)

include h hi

theorem ProactiveInv.moves (hs : a.stage.inHand = true) {stage : AttemptStage}
    (hstage : stage.inHand = true) :
    ProactiveInv fallback (w.setAttempt i { a with stage }) := by
  have hholds := h.attempts a (mem_of_getElem? hi)
  have hopen : a.stage ≠ .over := fun hover => by rw [hover] at hs; cases hs
  obtain ⟨id, hhand⟩ := hholds.inHand hs
  refine h.onward hi hopen rfl ⟨rfl, rfl⟩ (fun _ _ => rfl) (.inl rfl)
    ⟨[], (append_nil _).symm, fun _ hentry => (by cases hentry)⟩ (.inl rfl) rfl
    (.inl rfl) (.inl ⟨acceptedAs_of_unaccepted hhand.returned ?_ _, rfl⟩) ?_
  · exact .inl hhand.returned
  · refine ⟨fun _ => hhand.dispatched, hholds.locked, ?_, hholds.rerouted, ?_⟩
    · have hshape : a.notificationId.isSome ∧ a.returned = none :=
        ⟨by rw [hhand.named]; rfl, hhand.returned⟩
      unfold StageShape
      cases stage
      case sending | rerouting | recording => exact hshape
      all_goals cases hstage
    · intro id' hid'
      cases hhand.named.symm.trans hid'
      unfold Kept
      simp only [hhand.returned]
      refine ⟨hhand.absent, ?_⟩
      cases stage
      case sending | rerouting | recording => exact hhand.notFiled
      all_goals cases hstage

/-- The deliverer returns 'failed', having recorded the message, unless it is a probe's. -/
theorem ProactiveInv.fails (hs : a.stage.inHand = true) {added : List (String × OutboxRow)}
    (hnamed : ∀ entry ∈ added, a.notificationId = some entry.1)
    (hrecorded : a.surfaceUndelivered = true → ∃ entry ∈ added, entry.2.body = a.message) :
    ProactiveInv fallback
      { w.setAttempt i { a with stage := .marking, returned := some .failed } with
        outbox := w.outbox ++ added } := by
  have hopen : a.stage ≠ .over := fun hover => by rw [hover] at hs; cases hs
  obtain ⟨id, hhand⟩ := (h.attempts a (mem_of_getElem? hi)).inHand hs
  refine h.onward hi hopen rfl ⟨rfl, rfl⟩ (fun _ _ => rfl) (.inl rfl) ⟨added, rfl, hnamed⟩
    (.inl rfl) rfl (.inl rfl) (.inl ⟨acceptedAs_of_unaccepted hhand.returned ?_ _, rfl⟩) ?_
  · exact .inr (.inr rfl)
  · refine ⟨fun _ => hhand.dispatched, fun hdel => (by cases hdel), ⟨?_, rfl⟩, fun hto => ?_, ?_⟩
    · dsimp only
      rw [hhand.named]
      rfl
    · cases hhand.rerouted.symm.trans hto
    · intro id' hid'
      cases hhand.named.symm.trans hid'
      refine ⟨hhand.absent, fun hsurface => ?_⟩
      obtain ⟨entry, hentry, hbody⟩ := hrecorded hsurface
      refine ⟨entry, mem_append_right _ hentry, ?_, hbody⟩
      exact Option.some.inj ((hnamed entry hentry).symm.trans hhand.named)

theorem ProactiveInv.giveUp (hs : a.stage.inHand = true) :
    ProactiveInv fallback (w.setAttempt i a.giveUp) := by
  unfold Attempt.giveUp
  split
  · exact h.moves hi hs rfl
  · rename_i hprobe
    have hnone : ∀ entry ∈ ([] : List (String × OutboxRow)), a.notificationId = some entry.1 :=
      fun _ hentry => by cases hentry
    have hfails := h.fails hi hs hnone fun hsurface => absurd hsurface hprobe
    rw [append_nil] at hfails
    exact hfails

theorem ProactiveInv.sendFails (hs : a.stage.inHand = true) :
    ProactiveInv fallback (w.setAttempt i (a.sendFails fallback)) := by
  unfold Attempt.sendFails
  split
  · exact h.giveUp hi hs
  · exact h.moves hi hs rfl

theorem ProactiveInv.accept (hs : a.stage.inHand = true) {rerouted : Bool}
    (hfree : rerouted = true → ∀ a' ∈ w.attempts, a'.occurrence = a.occurrence →
      a'.channel ≠ fallback ∧ a'.rerouted = false) :
    ProactiveInv fallback (w.accept fallback i a rerouted) := by
  have hopen : a.stage ≠ .over := fun hover => by rw [hover] at hs; cases hs
  obtain ⟨id, hhand⟩ := (h.attempts a (mem_of_getElem? hi)).inHand hs
  refine h.onward hi hopen rfl ⟨rfl, rfl⟩ (fun _ _ => rfl) (.inl rfl)
    ⟨[], (append_nil _).symm, fun _ hentry => (by cases hentry)⟩ (.inl rfl) rfl ?_
    (.inr ⟨acceptedAs_of_none hhand.returned _, _, rfl, rfl⟩) ?_
  · cases rerouted with
    | false => exact .inl hhand.rerouted.symm
    | true => exact .inr (hfree rfl)
  · refine ⟨fun _ => hhand.dispatched, fun _ => .inl hhand.dispatched, ⟨?_, rfl⟩,
      fun _ => rfl, ?_⟩
    · dsimp only
      rw [hhand.named]
      rfl
    · intro id' hid'
      cases hhand.named.symm.trans hid'
      exact ⟨hhand.absent, hhand.notFiled⟩

theorem ProactiveInv.send {accepted : Bool} (hok : Regular fallback w (.send i accepted)) :
    ProactiveInv fallback (w.send fallback i a accepted) := by
  have hfree := hok a hi
  unfold ProactiveWorld.send
  split
  · rename_i hs
    exact h.accept hi (by rw [hs]; rfl) fun hfalse => (by cases hfalse)
  · rename_i hs
    exact h.moves hi (by rw [hs]; rfl) rfl
  · rename_i hs
    exact h.sendFails hi (by rw [hs]; rfl)
  · rename_i retried hs
    refine h.accept hi (by rw [hs]; rfl) fun _ => hfree rfl ?_
    cases retried with
    | false => exact .inl hs
    | true => exact .inr hs
  · rename_i hs
    exact h.moves hi (by rw [hs]; rfl) rfl
  · rename_i hs
    exact h.giveUp hi (by rw [hs]; rfl)
  · exact h

theorem ProactiveInv.fileSuppressed (hs : a.stage = .filing)
    (hid : a.notificationId = some notificationId) (now : Int) (ok : Bool) :
    ProactiveInv fallback
      { w.setAttempt i { a with stage := .marking, returned := some .suppressed } with
        digest := digestStep true w.digest
          (.file (a.logRow notificationId .suppressed now hash) ok) } := by
  have hholds := h.attempts a (mem_of_getElem? hi)
  have hopen : a.stage ≠ .over := by rw [hs]; decide
  have hshape := hholds.shape
  have hkept := hholds.kept notificationId hid
  unfold StageShape at hshape
  unfold Kept at hkept
  rw [hs] at hshape hkept
  rw [hshape.2] at hkept
  obtain ⟨habsent, hids, hfiled⟩ := hkept
  refine h.onward hi hopen rfl ⟨rfl, rfl⟩ (fun _ _ => rfl) (.inl rfl)
    ⟨[], (append_nil _).symm, fun _ hentry => (by cases hentry)⟩
    (.inr ⟨.file (a.logRow notificationId .suppressed now hash) ok, rfl, hids,
      fun id hid' => hid.trans hid'⟩) rfl
    (.inl rfl) (.inl ⟨acceptedAs_of_unaccepted hshape.2 ?_ _, rfl⟩) ?_
  · exact .inr (.inl rfl)
  · refine ⟨fun _ => hholds.dispatched hopen, fun hdel => (by cases hdel), ⟨hshape.1, rfl⟩,
      fun hto => ?_, ?_⟩
    · cases hshape.2.symm.trans (hholds.rerouted hto)
    · intro id' hid'
      cases hid.symm.trans hid'
      exact ⟨⟨habsent.sent, habsent.outbox, habsent.queue⟩, hfiled⟩

theorem ProactiveInv.record (hs : a.stage = .recording)
    (hid : a.notificationId = some notificationId) (hok : Recordable a ok) :
    ProactiveInv fallback
      { w.setAttempt i { a with stage := .marking, returned := some .failed } with
        outbox := w.outbox ++
          (a.undelivered "transport_failed" ok).toList.map fun row => (notificationId, row) } := by
  obtain ⟨row, hrow, hbody⟩ := undelivered_of_recordable hok "transport_failed"
  rw [hrow]
  refine h.fails hi (by rw [hs]; rfl) ?_ fun _ => ⟨_, mem_cons_self, hbody⟩
  intro entry hentry
  rw [mem_singleton.mp hentry, hid]

theorem ProactiveInv.mark (hs : a.stage = .marking) {status : DeliveryStatus}
    (hstatus : a.returned = some status) (ok : Bool) :
    ProactiveInv fallback
      { w.setAttempt i { a with stage := .over } with
        ledger :=
          if ok then
            update w.ledger a.key
              (some (if status = .delivered then .delivered else .failed))
          else w.ledger } := by
  have hholds := h.attempts a (mem_of_getElem? hi)
  have hopen : a.stage ≠ .over := by rw [hs]; decide
  have hshape := hholds.shape
  unfold StageShape at hshape
  rw [hs] at hshape
  refine h.onward hi hopen rfl ⟨rfl, rfl⟩ ?_ (.inl rfl)
    ⟨[], (append_nil _).symm, fun _ hentry => (by cases hentry)⟩ (.inl rfl) rfl
    (.inl rfl) (.inl ⟨rfl, rfl⟩) ?_
  · intro key hkey
    dsimp only
    split
    · exact update_of_ne hkey _ _
    · rfl
  · refine ⟨fun hover => absurd rfl hover, fun hdel => ?_, hshape, hholds.rerouted, ?_⟩
    · have hdelivered : status = .delivered :=
        Option.some.inj (hstatus.symm.trans hdel)
      dsimp only
      split
      · subst hdelivered
        exact .inr (update_self _ _ _)
      · exact .inl (hholds.dispatched hopen)
    · intro id hid
      have hkept := hholds.kept id hid
      unfold Kept at hkept ⊢
      rw [hstatus] at hkept
      simp only [hstatus]
      cases status <;> exact hkept

end

variable {attempts : List Attempt}

theorem filterMap_acceptedAs_append {sent : List String} {id : String} (hid : id ∉ sent)
    (hnamed : (attempts.filterMap Attempt.notificationId).Nodup)
    (hbatched : ∀ a ∈ attempts, a.notificationId = some id → a.returned = some .batched) :
    (attempts.filterMap (Attempt.acceptedAs fallback (sent ++ [id]))).Perm
      (attempts.filterMap (Attempt.acceptedAs fallback sent) ++
        (attempts.find? fun a => a.notificationId == some id).toList.map Attempt.key) := by
  -- the other attempts are accepted as they were
  have hother : ∀ a : Attempt, a.notificationId ≠ some id →
      a.acceptedAs fallback (sent ++ [id]) = a.acceptedAs fallback sent := by
    intro a hne
    unfold Attempt.acceptedAs
    split
    · rfl
    · rename_i id' _ hname
      have hne' : id' ≠ id := fun heq => hne (heq ▸ hname)
      simp [hne']
    · rfl
  induction attempts with
  | nil => exact List.Perm.refl _
  | cons a attempts ih =>
    have hrest : (attempts.filterMap Attempt.notificationId).Nodup :=
      hnamed.sublist ((sublist_cons_self a attempts).filterMap _)
    have hih := ih hrest fun a' ha' => hbatched a' (mem_cons_of_mem _ ha')
    by_cases hname : a.notificationId = some id
    · have hstatus := hbatched a mem_cons_self hname
      have hold : a.acceptedAs fallback sent = none := by
        simp [Attempt.acceptedAs, hstatus, hname, hid]
      have hnew : a.acceptedAs fallback (sent ++ [id]) = some a.key := by
        simp [Attempt.acceptedAs, hstatus, hname]
      have hnone : ∀ a' ∈ attempts, a'.notificationId ≠ some id := by
        intro a' ha' hname'
        rw [filterMap_cons_some hname, nodup_cons] at hnamed
        exact hnamed.1 (mem_filterMap.mpr ⟨a', ha', hname'⟩)
      have hsame : attempts.filterMap (Attempt.acceptedAs fallback (sent ++ [id])) =
          attempts.filterMap (Attempt.acceptedAs fallback sent) :=
        filterMap_congr fun a' ha' => hother a' (hnone a' ha')
      rw [filterMap_cons_some hnew, filterMap_cons_none hold, hsame,
        find?_cons_of_pos (by simp [hname])]
      exact (perm_append_singleton _ _).symm
    · rw [find?_cons_of_neg (by simp [hname])]
      have hsame := hother a hname
      cases hacc : a.acceptedAs fallback sent with
      | none =>
        rw [filterMap_cons_none hacc, filterMap_cons_none (hsame.trans hacc)]
        exact hih
      | some key =>
        rw [filterMap_cons_some hacc, filterMap_cons_some (hsame.trans hacc)]
        exact hih.cons key

theorem flushed_eq (w : ProactiveWorld) (op : DigestOp) :
    w.flushed op = (transported w.digest op).flatMap fun id =>
      (w.attempts.find? fun a => a.notificationId == some id).toList.map Attempt.key := by
  unfold ProactiveWorld.flushed transported
  cases op with
  | proceed ok transport =>
    cases w.digest.tick with
    | none => cases transport <;> rfl
    | some t =>
      cases transport with
      | delivered =>
        dsimp only
        split <;> simp
      | pendingApproval | failed | raised => rfl
  | enqueue | fileBatched | file | tick | stop => rfl

theorem ProactiveInv.flush (h : ProactiveInv fallback w) (op : DigestOp) :
    (w.accepted ++ w.flushed op).Perm
      (w.attempts.filterMap
        (Attempt.acceptedAs fallback (w.digest.sent ++ transported w.digest op))) := by
  rw [flushed_eq]
  cases hnow : transported w.digest op with
  | nil =>
    rw [flatMap_nil, append_nil, append_nil]
    exact h.accepted
  | cons id rest =>
    obtain ⟨t, ht, hs, rfl⟩ := mem_transported (hnow ▸ mem_cons_self)
    obtain rfl : rest = [] := by
      unfold transported at hnow
      split at hnow
      · split at hnow
        · exact (List.cons.inj hnow).2.symm
        · cases hnow
      · cases hnow
    have htick := h.digest.tick t ht
    have hqueued := htick.queued t.row mem_cons_self
    have hunsent : t.row.notificationId ∉ w.digest.sent := by
      have hstage := htick.stage
      rw [hs] at hstage
      exact hstage
    have hpresent : ¬ Absent w.digest t.row.notificationId := fun habsent =>
      habsent.queue t.row hqueued rfl
    have hbatched : ∀ a ∈ w.attempts, a.notificationId = some t.row.notificationId →
        a.returned = some .batched := by
      intro a ha hid
      have hkept := (h.attempts a ha).kept _ hid
      unfold Kept at hkept
      cases hstatus : a.returned with
      | none =>
        rw [hstatus] at hkept
        exact absurd hkept.1 hpresent
      | some status =>
        rw [hstatus] at hkept
        cases status with
        | batched => rfl
        | delivered | suppressed | failed => exact absurd hkept.1 hpresent
    rw [flatMap_cons, flatMap_nil, append_nil]
    exact (h.accepted.append_right _).trans
      (filterMap_acceptedAs_append hunsent h.named hbatched).symm

theorem ProactiveInv.digestOp (h : ProactiveInv fallback w) {op : DigestOp}
    (hok : Regular fallback w (.digest op)) :
    ProactiveInv fallback
      { w with digest := digestStep true w.digest op, accepted := w.accepted ++ w.flushed op } where
  digest := h.digest.step hok.1
  attempts a ha :=
    (h.attempts a ha).mono (.inl rfl) (fun _ _ _ _ => Iff.rfl) fun id hid =>
      .step h.digest fun hnew => hok.2 id hnew a ha hid
  claimed := h.claimed
  named := h.named
  reroutedOnce := h.reroutedOnce
  apart := h.apart
  outbox := h.outbox
  accepted := by
    dsimp only
    rw [sent_digestStep]
    exact h.flush op

theorem cutOff_eq (a : Attempt) :
    a.cutOff = a ∨ a.stage ≠ .over ∧ a.cutOff = { a with stage := .cut } := by
  unfold Attempt.cutOff
  split
  · exact .inl rfl
  · exact .inl rfl
  · rename_i hover _
    exact .inr ⟨hover, rfl⟩

theorem filterMap_cutOff {β : Type} {f : Attempt → Option β}
    (hf : ∀ a : Attempt, a.stage ≠ .over → f { a with stage := .cut } = f a) :
    (attempts.map Attempt.cutOff).filterMap f = attempts.filterMap f := by
  rw [filterMap_map]
  refine filterMap_congr fun a _ => ?_
  rcases cutOff_eq a with hsame | ⟨hopen, hcut⟩
  · exact congrArg f hsame
  · exact (congrArg f hcut).trans (hf a hopen)

theorem AttemptHolds.cutOff (h : AttemptHolds w a) : AttemptHolds w a.cutOff := by
  rcases cutOff_eq a with hsame | ⟨hopen, hcut⟩
  · rw [hsame]
    exact h
  · rw [hcut]
    refine ⟨fun _ => h.dispatched hopen, h.locked, ?_, h.rerouted, fun id hid => ?_⟩
    · exact fun hreturned => isSome_iff_exists.mpr
        (h.named (isSome_iff_ne_none.mp hreturned))
    · have hkept := h.kept id hid
      unfold Kept at hkept ⊢
      cases hstatus : a.returned with
      | none =>
        rw [hstatus] at hkept
        exact ⟨hkept.1, trivial⟩
      | some status =>
        rw [hstatus] at hkept
        cases status <;> exact hkept

theorem ProactiveInv.stop (h : ProactiveInv fallback w)
    (hok : FlushIntact w.digest .stop) :
    ProactiveInv fallback
      { w with
        attempts := w.attempts.map Attempt.cutOff
        digest := digestStep true w.digest .stop } := by
  have hback : ∀ x ∈ w.attempts.map Attempt.cutOff, ∃ x₀ ∈ w.attempts,
      x.occurrence = x₀.occurrence ∧ x.channel = x₀.channel ∧ x.rerouted = x₀.rerouted := by
    intro x hx
    obtain ⟨x₀, hx₀, rfl⟩ := mem_map.mp hx
    refine ⟨x₀, hx₀, ?_⟩
    rcases cutOff_eq x₀ with hsame | ⟨-, hcut⟩
    · rw [hsame]
      exact ⟨rfl, rfl, rfl⟩
    · rw [hcut]
      exact ⟨rfl, rfl, rfl⟩
  have hclaimed : (w.attempts.map Attempt.cutOff).filterMap Attempt.claimed =
      w.attempts.filterMap Attempt.claimed := by
    refine filterMap_cutOff fun a hopen => ?_
    rw [claimed_of_open hopen]
    exact claimed_of_open fun hcut => by cases hcut
  refine ⟨h.digest.step hok, ?_, ?_, ?_, ?_, ?_, ?_, ?_⟩
  · intro a ha
    obtain ⟨a₀, ha₀, rfl⟩ := mem_map.mp ha
    have hspares : ∀ id, Spares w.digest (digestStep true w.digest .stop) id := fun id =>
      .step h.digest (by simp [DigestOp.newId])
    exact ((h.attempts a₀ ha₀).cutOff).mono (.inl rfl) (fun _ _ _ _ => Iff.rfl)
      fun id _ => hspares id
  · unfold Once
    rw [hclaimed]
    exact h.claimed
  · unfold Once
    rw [filterMap_cutOff fun _ _ => rfl]
    exact h.named
  · unfold Once
    rw [filterMap_cutOff fun _ _ => rfl]
    exact h.reroutedOnce
  · intro x hx hto y hy hocc
    obtain ⟨x₀, hx₀, hxocc, -, hxto⟩ := hback x hx
    obtain ⟨y₀, hy₀, hyocc, hychannel, -⟩ := hback y hy
    rw [hychannel]
    exact h.apart x₀ hx₀ (hxto ▸ hto) y₀ hy₀ (hyocc.symm.trans (hocc.trans hxocc))
  · intro entry hentry
    obtain ⟨a, ha, hname⟩ := h.outbox entry hentry
    refine ⟨a.cutOff, mem_map_of_mem ha, ?_⟩
    rcases cutOff_eq a with hsame | ⟨-, hcut⟩
    · rw [hsame, hname]
    · rw [hcut, hname]
  · dsimp only
    rw [sent_digestStep, filterMap_cutOff fun _ _ => rfl]
    simpa [transported] using h.accepted

/-- **One regular step keeps the invariant.** -/
theorem ProactiveInv.step (h : ProactiveInv fallback w) {op : ProactiveOp}
    (hok : Regular fallback w op) : ProactiveInv fallback (proactiveStep hash fallback w op) := by
  cases op <;> simp only [proactiveStep]
  case claim a ok => exact h.claim a ok hok
  case routerRaises i => exact hok.elim
  case digest op => exact h.digestOp hok
  case stop => exact h.stop hok
  case route i notificationId styled inputs now scheduledFor ok =>
    split
    · rename_i a hi
      split
      · rename_i hs
        exact h.route hi hs hok
      · exact h
    · exact h
  case fileSuppressed i now ok =>
    split
    · rename_i a hi
      split
      · rename_i notificationId hs hid
        exact h.fileSuppressed hi hs hid now ok
      · exact h
    · exact h
  case send i accepted =>
    split
    · rename_i a hi
      exact h.send hi hok
    · exact h
  case unavailable i =>
    split
    · rename_i a hi
      split
      · rename_i hs
        exact h.sendFails hi (by rw [hs]; rfl)
      · rename_i hs
        exact h.giveUp hi (by rw [hs]; rfl)
      · exact h
    · exact h
  case record i ok =>
    split
    · rename_i a hi
      split
      · rename_i notificationId hs hid
        exact h.record hi hs hid (hok a hi)
      · exact h
    · exact h
  case mark i ok =>
    split
    · rename_i a hi
      split
      · rename_i status hs hstatus
        exact h.mark hi hs hstatus ok
      · exact h
    · exact h

/-! ## Once and never lost -/

end

end StackOwl.Notifications
