import StackOwl.Sessions.Store

/-!
# One announcement for each end

A conversation ends where it is replaced, for any reason but that the process is another, or where
the sweep finalises it; and it is announced after the save that ends it.  The row says by
`expiry_finalized` that the conversation it holds was announced.  That is so as long as what is
saved is of the conversation that the row holds, and the flag is looked at by whoever ends it.

## Main results

* `announced_once` — a conversation is announced exactly once if it ended, and else never.
* `announced_twice` — a conversation that the sweep finalised is announced again by `/new`; one
  that a restart put in the place of such a one is never announced; and a stale save has one
  announced twice.
-/

namespace StackOwl.Sessions

open Lib List

/-! ## What is claimed -/

/-- The conversations that ended so far, each once. -/
def noteEnded (w : Lane) (ended : List Nat) (op : Op) : List Nat :=
  match w.saving? op with
  | none => ended
  | some saving =>
    match saving.write.event with
    | .finalises _ => ended.insert saving.write.entry.conversationId
    | event =>
      match w.row with
      | some row => if event.ends then ended.insert row.conversationId else ended
      | none => ended

/-- The lane, and the conversations that ended. -/
abbrev Watched := Lane × List Nat

def watchedStep : Watched → Op → Watched := watch Lane.step noteEnded

/-- A conversation that ended was announced once, or is about to be; one that did not, was not. -/
def Announced (s : Watched) : Prop := ∀ id,
  s.1.published.count id + (Lane.announcing s.1.tasks).count id = if id ∈ s.2 then 1 else 0

/-! ## Conditions -/

/-- The conversation of an entry, and whether it was finalised. -/
def SessionEntry.stage (e : SessionEntry) : Nat × Bool := (e.conversationId, e.expiryFinalized)

/-- A save finds the conversation in the row that was read, finalised or not as it was; and where
it was, neither a request nor a restart replaces it. -/
def SavesInTurn (w : Lane) (saving : Saving) : Prop :=
  w.row.map SessionEntry.stage = saving.existing.map SessionEntry.stage ∧
    ((saving.existing.any SessionEntry.expiryFinalized) = true →
      saving.write.event ≠ .rolls (some .explicit) ∧ saving.write.event ≠ .rolls (some .restart))

/-- Saves come in turn, and no process ends between a save and its announcement. -/
def AnnouncesInTurn (s : Watched) : Op → Prop
  | .reboot _ _ => Lane.announcing s.1.tasks = []
  | op => ∀ saving ∈ s.1.saving? op, SavesInTurn s.1 saving

instance (w : Lane) (saving : Saving) : Decidable (SavesInTurn w saving) :=
  inferInstanceAs (Decidable (_ ∧ _))

instance (s : Watched) (op : Op) : Decidable (AnnouncesInTurn s op) :=
  match op with
  | .reboot _ _ => inferInstanceAs (Decidable (_ = _))
  | .begin call => inferInstanceAs (Decidable (∀ saving ∈ s.1.saving? (.begin call), _))
  | .request key => inferInstanceAs (Decidable (∀ saving ∈ s.1.saving? (.request key), _))
  | .elsewhere key => inferInstanceAs (Decidable (∀ saving ∈ s.1.saving? (.elsewhere key), _))
  | .proceed i => inferInstanceAs (Decidable (∀ saving ∈ s.1.saving? (.proceed i), _))

/-! ## Invariant -/

/-- The conversation in the row ended exactly where it is finalised; and every conversation was
minted. -/
structure InTurn (s : Watched) : Prop where
  announced : Announced s
  row : ∀ row ∈ s.1.row, row.conversationId < s.1.minted ∧
    (row.conversationId ∈ s.2 ↔ row.expiryFinalized = true)
  minted : ∀ id ∈ s.2, id < s.1.minted

variable {saving : Saving} {s : Watched} {op : Op}

theorem announcesInTurn_saving (h : AnnouncesInTurn s op) (hsaving : s.1.saving? op = some saving) :
    SavesInTurn s.1 saving := by
  cases op with
  | reboot policy startedAt => cases hsaving
  | begin | request | elsewhere | proceed => exact h saving hsaving

variable {w : Lane}

theorem SavesInTurn.row (h : SavesInTurn w saving) {e : SessionEntry}
    (he : saving.existing = some e) : ∃ row, w.row = some row ∧
      row.conversationId = e.conversationId ∧ row.expiryFinalized = e.expiryFinalized := by
  have hsame := h.1
  rw [he] at hsame
  obtain ⟨row, hrow, hstage⟩ := Option.map_eq_some_iff.mp hsame
  exact ⟨row, hrow, congrArg Prod.fst hstage, congrArg Prod.snd hstage⟩

theorem noteEnded_of_not_ends (ended : List Nat) (hsaving : w.saving? op = some saving)
    (hends : saving.write.event.ends = false)
    (hfinalises : ∀ reason, saving.write.event ≠ .finalises reason) :
    noteEnded w ended op = ended := by
  unfold noteEnded
  rw [hsaving]
  dsimp only
  split
  · exact absurd ‹_› (hfinalises _)
  · rw [hends]
    split <;> simp

theorem noteEnded_of_ends (ended : List Nat) (hsaving : w.saving? op = some saving)
    (hends : saving.write.event.ends = true) {row : SessionEntry} (hrow : w.row = some row) :
    noteEnded w ended op = ended.insert row.conversationId := by
  unfold noteEnded
  rw [hsaving, hrow]
  dsimp only
  split
  · rename_i hevent
    rw [hevent] at hends
    cases hends
  · rw [if_pos hends]

theorem Announced.saved (h : Announced s) {w' : Lane} {ended' : List Nat} {announces : Option Nat}
    (hpublished : w'.published = s.1.published)
    (hannouncing : (Lane.announcing w'.tasks).Perm (announces.toList ++ Lane.announcing s.1.tasks))
    (hended : announces = none ∧ ended' = s.2 ∨
      ∃ old, announces = some old ∧ old ∉ s.2 ∧ ended' = s.2.insert old) :
    Announced (w', ended') := by
  intro id
  have hbefore := h id
  have hcount := hannouncing.count_eq id
  rw [count_append] at hcount
  dsimp only
  rw [hpublished]
  rcases hended with ⟨rfl, rfl⟩ | ⟨old, rfl, hnew, rfl⟩
  · rw [Option.toList_none, count_nil] at hcount
    omega
  · rw [Option.toList_some, count_singleton] at hcount
    by_cases hid : id = old
    · subst hid
      rw [if_neg hnew] at hbefore
      rw [if_pos mem_insert_self]
      rw [beq_self_eq_true, if_pos rfl] at hcount
      omega
    · have hother : (old == id) = false := beq_eq_false_iff_ne.mpr (Ne.symm hid)
      have hsame : id ∈ s.2.insert old ↔ id ∈ s.2 := by
        rw [mem_insert_iff]
        exact or_iff_right hid
      rw [hother] at hcount
      rw [if_congr hsame rfl rfl]
      simp only [Bool.false_eq_true, if_false] at hcount
      omega

/-- **What a save does to the announcements and the row.** -/
theorem InTurn.saved (h : InTurn s) (hsaving : s.1.saving? op = some saving)
    (hturn : SavesInTurn s.1 saving) :
    (saving.write.announces = none ∧ noteEnded s.1 s.2 op = s.2 ∨
        ∃ old, saving.write.announces = some old ∧ old ∉ s.2 ∧
          noteEnded s.1 s.2 op = s.2.insert old ∧ old < s.1.minted) ∧
      (saving.write.entry.conversationId < s.1.minted + if saving.write.event.mints then 1 else 0) ∧
      (saving.write.entry.conversationId ∈ noteEnded s.1 s.2 op ↔
        saving.write.entry.expiryFinalized = true) := by
  have hminted : s.1.minted ∉ s.2 := fun hmem => Nat.lt_irrefl _ (h.minted _ hmem)
  have hwrites := Lane.writes_of_saving? hsaving
  cases hexisting : saving.existing with
  | none =>
    rw [hexisting] at hwrites
    cases hwrites with
    | opens event conversation finalized messages turns announces message plain =>
      have hended := noteEnded_of_not_ends s.2 hsaving (by rw [event]; rfl)
        (fun reason hne => by rw [event] at hne; cases hne)
      rw [hended, event, conversation, finalized]
      refine ⟨.inl ⟨announces, rfl⟩, Nat.lt_succ_self _, ?_⟩
      simpa using hminted
  | some e =>
    rw [hexisting] at hwrites
    obtain ⟨row, hrow, hid, hfinalized⟩ := hturn.row hexisting
    obtain ⟨hlt, hiff⟩ := h.row row hrow
    rw [hid, hfinalized] at hiff
    rw [hid] at hlt
    have hguard := hturn.2
    rw [hexisting] at hguard
    have hnext : s.1.minted ∉ s.2.insert e.conversationId := by
      rw [mem_insert_iff, not_or]
      exact ⟨fun heq => Nat.lt_irrefl _ (heq ▸ hlt), hminted⟩
    cases hwrites with
    | restarts event conversation finalized messages turns announces =>
      have hcurrent : e.expiryFinalized = false :=
        Bool.eq_false_iff.mpr fun hfin => (hguard hfin).2 event
      have hended := noteEnded_of_not_ends s.2 hsaving (by rw [event]; rfl)
        (fun reason hne => by rw [event] at hne; cases hne)
      rw [hended, event, conversation, finalized, hcurrent]
      refine ⟨.inl ⟨announces, rfl⟩, Nat.lt_succ_self _, ?_⟩
      simpa using hminted
    | rolls event ends conversation finalized messages turns announces message plain =>
      have hended := noteEnded_of_ends s.2 hsaving ends hrow
      rw [hid] at hended
      rw [hended, event, conversation, finalized]
      refine ⟨?_, Nat.lt_succ_self _, by simpa using hnext⟩
      rw [announces]
      by_cases hfin : e.expiryFinalized = true
      · rw [if_pos hfin]
        exact .inl ⟨rfl, insert_of_mem (hiff.mpr hfin)⟩
      · rw [if_neg hfin]
        exact .inr ⟨_, rfl, fun hmem => hfin (hiff.mp hmem), rfl, hlt⟩
    | starts event conversation finalized messages turns announces asked =>
      have hcurrent : ¬e.expiryFinalized = true := fun hfin => (hguard hfin).1 event
      have hended := noteEnded_of_ends s.2 hsaving (by rw [event]; rfl) hrow
      rw [hid] at hended
      rw [hended, event, conversation, finalized]
      refine ⟨.inr ⟨_, announces, fun hmem => hcurrent (hiff.mp hmem), rfl, hlt⟩,
        Nat.lt_succ_self _, by simpa using hnext⟩
    | finalises event conversation current finalized messages turns announces =>
      have hended : noteEnded s.1 s.2 op = s.2.insert e.conversationId := by
        unfold noteEnded
        rw [hsaving]
        dsimp only
        rw [event, conversation]
      have hnot : e.conversationId ∉ s.2 := fun hmem => by
        rw [hiff.mp hmem] at current
        cases current
      rw [hended, event, conversation, finalized]
      exact ⟨.inr ⟨_, announces, hnot, rfl, hlt⟩, hlt, by simp⟩
    | keeps event conversation finalized messages turns announces =>
      have hended := noteEnded_of_not_ends s.2 hsaving
        (by rcases event with event | event | event <;> rw [event] <;> rfl)
        (fun reason hne => by
          rcases event with event | event | event <;> rw [event] at hne <;> cases hne)
      rw [hended, conversation, finalized]
      exact ⟨.inl ⟨announces, rfl⟩, Nat.lt_of_lt_of_le hlt (Nat.le_add_right _ _), hiff⟩

/-- **A step in turn.** -/
theorem InTurn.step (h : InTurn s) (hturn : AnnouncesInTurn s op) :
    InTurn (watchedStep s op) := by
  have hdoes := s.1.step_does op
  show InTurn (s.1.step op, noteEnded s.1 s.2 op)
  generalize s.1.step op = w' at hdoes ⊢
  cases hdoes with
  | idles saves boots announces reads =>
    have hended : noteEnded s.1 s.2 op = s.2 := by rw [noteEnded, saves]
    rw [hended]
    refine ⟨fun id => ?_, h.row, h.minted⟩
    show s.1.published.count id + (Lane.announcing _).count id = _
    rw [announces]
    exact h.announced id
  | publishes saves announces reads =>
    have hended : ∀ i, s.1.saving? (.proceed i) = none → noteEnded s.1 s.2 (.proceed i) = s.2 :=
      fun i hnone => by rw [noteEnded, hnone]
    rw [hended _ saves]
    refine ⟨fun id => ?_, h.row, h.minted⟩
    have hbefore := h.announced id
    have hcount := announces.count_eq id
    rw [count_cons] at hcount
    dsimp only
    rw [count_cons]
    omega
  | saves hsaving announces reads =>
    obtain ⟨hended, hlt, hiff⟩ := h.saved hsaving (announcesInTurn_saving hturn hsaving)
    refine ⟨h.announced.saved rfl announces ?_, ?_, fun id hid => ?_⟩
    · rcases hended with hnone | ⟨old, hold, hnew, hinsert, -⟩
      · exact .inl hnone
      · exact .inr ⟨old, hold, hnew, hinsert⟩
    · rintro row ⟨⟩
      exact ⟨hlt, hiff⟩
    · dsimp only at hid ⊢
      refine Nat.lt_of_lt_of_le ?_ (Nat.le_add_right _ _)
      rcases hended with ⟨-, hsame⟩ | ⟨old, -, -, hinsert, hold⟩
      · exact h.minted id (hsame ▸ hid)
      · rw [hinsert, mem_insert_iff] at hid
        rcases hid with rfl | hid
        · exact hold
        · exact h.minted id hid
  | reboots =>
    refine ⟨fun id => ?_, h.row, h.minted⟩
    have hbefore := h.announced id
    rw [show Lane.announcing s.1.tasks = [] from hturn] at hbefore
    exact hbefore

/-! ## Runs -/

def unwatched (row : Option SessionEntry) (policy : ResetPolicy) (startedAt : Stamp) : Watched :=
  (Lane.found row policy startedAt, Lane.finalised row)

theorem inTurn_unwatched (row : Option SessionEntry) (policy : ResetPolicy) (startedAt : Stamp) :
    InTurn (unwatched row policy startedAt) := by
  cases row with
  | none => exact ⟨fun _ => rfl, fun _ h => (by cases h), fun _ h => (by cases h)⟩
  | some e =>
    have hfinalised : Lane.finalised (some e) =
        if e.expiryFinalized = true then [e.conversationId] else [] := by
      unfold Lane.finalised
      by_cases hfin : e.expiryFinalized = true <;> simp [Option.filter, hfin]
    refine ⟨fun id => ?_, ?_, fun id hid => ?_⟩
    · show (Lane.finalised (some e)).count id + 0 = if id ∈ Lane.finalised (some e) then 1 else 0
      rw [hfinalised]
      split
      · simp only [count_singleton, mem_singleton, beq_iff_eq, Nat.add_zero]
        exact if_congr eq_comm rfl rfl
      · simp
    · rintro row ⟨⟩
      refine ⟨Nat.lt_succ_self _, ?_⟩
      show e.conversationId ∈ Lane.finalised (some e) ↔ _
      rw [hfinalised]
      split <;> simp [*]
    · have hmem : id ∈ Lane.finalised (some e) := hid
      rw [hfinalised] at hmem
      split at hmem
      · rw [mem_singleton.mp hmem]
        exact Nat.lt_succ_self _
      · cases hmem

/-- **One announcement for each end**: in every state of a run whose saves come in turn, a
conversation was announced exactly once, or is about to be, if it ended, and else never. -/
theorem announced_once (row : Option SessionEntry) (policy : ResetPolicy) (startedAt : Stamp)
    (ops : List Op)
    (hturn : Meets watchedStep AnnouncesInTurn (unwatched row policy startedAt) ops) :
    Along watchedStep Announced (unwatched row policy startedAt) ops :=
  (along_of_meets (fun _ _ h => h.step) (inTurn_unwatched row policy startedAt) hturn).mono
    fun _ h => h.announced

/-! ### Runs in turn and out of turn -/

/-- The first message of a lane, and the sweep that finalises its conversation. -/
def sweptAfterTwoDays : List Op :=
  uninterrupted (.resolveFor CHAT_MESSAGE { instant := 0 } false) ++
    uninterrupted (.sweep { instant := 2 * DAY } false) ++ [.proceed 0]

/-- The message after the sweep rolls the conversation, and a request ends the next one. -/
theorem announced_once_everyday :
    Along watchedStep Announced (unwatched none {} { instant := 0 })
      (sweptAfterTwoDays ++ uninterrupted (.resolveFor CHAT_MESSAGE { instant := 3 * DAY } false) ++
        .request "7" ::
          (uninterrupted (.resolveFor CHAT_MESSAGE { instant := 3 * DAY + HOUR } false) ++
            [.proceed 0])) :=
  announced_once none {} { instant := 0 } _ (by decide)

theorem not_along_announced {ops : List Op} (id : Nat)
    (h : (run watchedStep s ops).1.published.count id +
        (Lane.announcing (run watchedStep s ops).1.tasks).count id ≠
      if id ∈ (run watchedStep s ops).2 then 1 else 0) :
    ¬Along watchedStep Announced s ops :=
  fun halong => h (halong.last id)

/-- **Announced twice, or never**: by `/new` after the sweep; after a restart that took the flag of
the conversation before; and by a turn that was counted across a roll. -/
theorem announced_twice :
    ¬Along watchedStep Announced (unwatched none {} { instant := 0 })
        (sweptAfterTwoDays ++
          (.request "7" :: uninterrupted (.resolveFor CHAT_MESSAGE { instant := 3 * DAY } false) ++
            [.proceed 0])) ∧
      ¬Along watchedStep Announced (unwatched none {} { instant := 0 })
        (sweptAfterTwoDays ++
          uninterrupted (.resolveFor CHAT_MESSAGE { instant := 3 * DAY } true) ++
          (.reboot {} { instant := 3 * DAY + HOUR } ::
            uninterrupted (.resolveFor CHAT_MESSAGE { instant := 3 * DAY + 2 * HOUR } false)) ++
          uninterrupted (.resolveFor CHAT_MESSAGE { instant := 6 * DAY } false)) ∧
      ¬Along watchedStep Announced (unwatched none {} { instant := 0 })
        (uninterrupted (.resolveFor CHAT_MESSAGE { instant := 0 } false) ++
          [.begin .recordCompletedTurn, .proceed 0,
            .begin (.resolveFor CHAT_MESSAGE { instant := 2 * DAY } false), .proceed 1, .proceed 1,
            .proceed 0, .proceed 0] ++
          uninterrupted (.resolveFor CHAT_MESSAGE { instant := 4 * DAY } false) ++ [.proceed 0]) :=
  ⟨not_along_announced 0 (by decide), not_along_announced 1 (by decide),
    not_along_announced 0 (by decide)⟩

end StackOwl.Sessions
