import StackOwl.Sessions.Store

/-!
# Incarnations that move forward

What a lane's row says of its history: which conversation it holds, none that was replaced before;
how often a restart rolled it in this process; and how many messages and completed turns the
conversation has had.  Each writer saves a whole row, so it says all that again as it was when the
writer read it; and the roll of a restart leaves `created_at`, by which the next message is told
that the conversation is older than the process.

## Main results

* `forward_iff` — the row tells the history in exactly the runs whose saves come in turn, where no
  second message in a process finds the conversation older than it.
* `incarnations_return` — a restart that rolls twice; a conversation that comes back; a turn that is
  lost; and a message that is not counted.
-/

namespace StackOwl.Sessions

open Lib Option

/-! ## The history of a lane -/

structure History where
  /-- The conversations that were replaced. -/
  replaced : List Nat := []
  /-- How often a restart rolled the lane in this process. -/
  restarts : Nat := 0
  /-- The messages of the conversation. -/
  messages : Nat := 0
  /-- Its completed turns. -/
  turns : Nat := 0

/-- A conversation begins, and is not one that a restart goes on with. -/
def Event.begins (event : Event) : Bool := event = .opens ∨ event.ends

def Event.carriesOn (event : Event) : Bool :=
  event = .continues ∨ event = .rolls (some .restart)

/-- The messages of a conversation that a task makes.  `honoured` is what a message counts for that
honours a request for a new one. -/
def Task.opening (honoured : Nat) (task : Task) : Nat :=
  if task.call.isMessage then if task.explicit then honoured else 1 else 0

/-- The conversation of the row is replaced, if the save is of another. -/
def replacing (replaced : List Nat) (row : Option SessionEntry) (id : Nat) : List Nat :=
  match row with
  | some row => if row.conversationId = id then replaced else row.conversationId :: replaced
  | none => replaced

def History.saved (honoured : Nat) (h : History) (row : Option SessionEntry) (saving : Saving) :
    History :=
  { replaced := replacing h.replaced row saving.write.entry.conversationId
    restarts := h.restarts + if saving.write.event = .rolls (some .restart) then 1 else 0
    messages :=
      if saving.write.event.begins then saving.task.opening honoured
      else h.messages + if saving.write.event.carriesOn then 1 else 0
    turns :=
      if saving.write.event.begins then 0
      else h.turns + if saving.write.event = .counts then 1 else 0 }

def noteHistory (honoured : Nat) (w : Lane) (h : History) : Op → History
  | .reboot _ _ => { h with restarts := 0 }
  | op =>
    match w.saving? op with
    | some saving => h.saved honoured w.row saving
    | none => h

abbrev Told := Lane × History

def toldStep (honoured : Nat) : Told → Op → Told := watch Lane.step (noteHistory honoured)

/-- The row tells its history. -/
def Forward (s : Told) : Prop :=
  s.2.restarts ≤ 1 ∧ ∀ row ∈ s.1.row, row.conversationId ∉ s.2.replaced ∧
    row.messageCount = s.2.messages ∧ row.completedTurns = s.2.turns

/-! ## Conditions -/

def SessionEntry.counters (e : SessionEntry) : Nat × Nat := (e.messageCount, e.completedTurns)

/-- A message that goes on with a conversation finds it older than the process: nothing is to be
resumed, nothing expired, and no work is under way. -/
def Saving.Outlived (w : Lane) (saving : Saving) : Prop :=
  match saving.task.call, saving.existing with
  | .resolveFor _ now hasActiveWork, some e =>
    saving.task.explicit = false ∧ e.suspended = false ∧ e.resumePending = false ∧
      expiredReason e now w.policy = none ∧
      e.createdAt.instant < w.processStartedAt.instant ∧ hasActiveWork = false
  | _, _ => False

/-- A save that makes no conversation finds the one that was read; one that goes on with it finds
its counters; a message that finds it older than the process is the first that does; and no message
honours a request, if such a one counts. -/
def SavesForward (honoured : Nat) (s : Told) (saving : Saving) : Prop :=
  (saving.write.event.mints = false →
      s.1.row.map SessionEntry.conversationId =
        saving.existing.map SessionEntry.conversationId) ∧
    (saving.write.event.begins = false →
      s.1.row.map SessionEntry.counters = saving.existing.map SessionEntry.counters) ∧
    (saving.Outlived s.1 → s.2.restarts = 0) ∧
    (saving.task.call.isMessage = true → saving.task.explicit = true → honoured = 0)

def MovesForward (honoured : Nat) (s : Told) (op : Op) : Prop :=
  ∀ saving ∈ s.1.saving? op, SavesForward honoured s saving

/-! ## Saves -/

/-- A save is a restart's where the message found the conversation older than the process. -/
theorem Lane.event_restart_iff {w : Lane} {op : Op} {saving : Saving}
    (h : w.saving? op = some saving) :
    saving.write.event = .rolls (some .restart) ↔ saving.Outlived w := by
  obtain ⟨-, -, hwrite⟩ := of_saving? h
  obtain ⟨⟨call, explicit, phase⟩, existing, write⟩ := saving
  unfold Saving.Outlived
  dsimp only at hwrite ⊢
  cases call with
  | resolveFor m now work =>
    cases explicit with
    | true =>
      obtain ⟨e, rfl, rfl⟩ := map_eq_some_iff.mp hwrite
      simp [startWrite]
    | false =>
      obtain rfl := some.inj hwrite
      cases existing with
      | none => simp [resolveWrite]
      | some e =>
        dsimp only
        rw [← @resolve_restart_iff e now w.processStartedAt w.policy work]
        unfold resolveWrite
        generalize resolve (some e) now w.policy work (some w.processStartedAt) = decision
        dsimp only
        split
        · simp [*]
        · split <;> simp [*]
  | startNewIncarnation now =>
    obtain ⟨e, rfl, rfl⟩ := map_eq_some_iff.mp hwrite
    simp [startWrite]
  | sweep now isBusy =>
    obtain ⟨e, rfl, hsweep⟩ := bind_eq_some_iff.mp hwrite
    unfold sweepWrite at hsweep
    split_ifs at hsweep
    obtain rfl := some.inj hsweep
    simp
  | recordCompletedTurn =>
    obtain ⟨e, rfl, rfl⟩ := map_eq_some_iff.mp hwrite
    simp
  | clearResumePending | consumeResetNotice k =>
    obtain ⟨e, rfl, hkeeps⟩ := bind_eq_some_iff.mp hwrite
    split_ifs at hkeeps
    obtain rfl := some.inj hkeeps
    simp

theorem Lane.begins_of_honours {w : Lane} {op : Op} {saving : Saving}
    (h : w.saving? op = some saving) (hmessage : saving.task.call.isMessage = true)
    (hexplicit : saving.task.explicit = true) : saving.write.event.begins = true := by
  obtain ⟨-, -, hwrite⟩ := of_saving? h
  obtain ⟨⟨call, explicit, phase⟩, existing, write⟩ := saving
  dsimp only at hmessage hexplicit hwrite
  subst hexplicit
  cases call with
  | resolveFor m now work =>
    obtain ⟨e, rfl, rfl⟩ := map_eq_some_iff.mp hwrite
    rfl
  | startNewIncarnation | sweep | recordCompletedTurn | clearResumePending
  | consumeResetNotice => cases hmessage

namespace Lane.Writes
variable {w : Lane} {task : Task} {existing : Option SessionEntry} {write : Write}

section

variable (h : Writes w task existing write)

include h

theorem conversation_of_mints (hmints : write.event.mints = true) :
    write.entry.conversationId = w.minted := by
  cases h with
  | opens event conversation => exact conversation
  | restarts event conversation => exact conversation
  | rolls event ends conversation => exact conversation
  | starts event conversation => exact conversation
  | finalises event =>
    rw [event] at hmints
    cases hmints
  | keeps event =>
    rcases event with event | event | event <;> rw [event] at hmints <;> cases hmints

theorem conversation_of_not_mints (hmints : write.event.mints = false) :
    ∃ e, existing = some e ∧ write.entry.conversationId = e.conversationId := by
  cases h with
  | opens event | restarts event | rolls event | starts event =>
    rw [event] at hmints
    cases hmints
  | finalises event conversation => exact ⟨_, rfl, conversation⟩
  | keeps event conversation => exact ⟨_, rfl, conversation⟩

theorem counters_of_begins (hbegins : write.event.begins = true) :
    write.entry.messageCount = task.opening 0 ∧ write.entry.completedTurns = 0 := by
  cases h with
  | opens event conversation finalized messages turns announces message plain =>
    exact ⟨by rw [messages, Task.opening, message, plain]; rfl, turns⟩
  | rolls event ends conversation finalized messages turns announces message plain =>
    exact ⟨by rw [messages, Task.opening, message, plain]; rfl, turns⟩
  | starts event conversation finalized messages turns announces asked =>
    refine ⟨?_, turns⟩
    rw [messages, Task.opening]
    split
    · rw [if_pos (asked ‹_›)]
    · rfl
  | restarts event =>
    rw [event] at hbegins
    cases hbegins
  | finalises event =>
    rw [event] at hbegins
    cases hbegins
  | keeps event =>
    rcases event with event | event | event <;> rw [event] at hbegins <;> cases hbegins

theorem counters_of_not_begins (hbegins : write.event.begins = false) : ∃ e, existing = some e ∧
      write.entry.messageCount = e.messageCount + (if write.event.carriesOn then 1 else 0) ∧
      write.entry.completedTurns =
        e.completedTurns + if write.event = .counts then 1 else 0 := by
  cases h with
  | opens event =>
    rw [event] at hbegins
    cases hbegins
  | rolls event ends =>
    rw [Event.begins, ends, decide_eq_true (.inr rfl)] at hbegins
    cases hbegins
  | starts event =>
    rw [event] at hbegins
    cases hbegins
  | restarts event conversation finalized messages turns =>
    exact ⟨_, rfl, by rw [messages, event]; rfl, by rw [turns, event]; rfl⟩
  | finalises event conversation current finalized messages turns =>
    exact ⟨_, rfl, by rw [messages, event]; rfl, by rw [turns, event]; rfl⟩
  | keeps event conversation finalized messages turns =>
    refine ⟨_, rfl, ?_, turns⟩
    rw [messages]
    rcases event with event | event | event <;> rw [event] <;> rfl

end

end Lane.Writes

/-! ## Invariant -/

/-- What is at hand is of the conversation in the row, or of one that was replaced. -/
structure Known (s : Told) : Prop where
  row : ∀ row ∈ s.1.row, row.conversationId < s.1.minted
  replaced : ∀ id ∈ s.2.replaced, id < s.1.minted
  entries : ∀ e, e ∈ Lane.snapshots s.1.tasks ∨ e ∈ s.1.returned → ∃ row, s.1.row = some row ∧
    (e.conversationId = row.conversationId ∨ e.conversationId ∈ s.2.replaced)

theorem mem_replacing_iff {replaced : List Nat} {row : Option SessionEntry} {id other : Nat} :
    other ∈ replacing replaced row id ↔
      other ∈ replaced ∨ ∃ r, row = some r ∧ r.conversationId ≠ id ∧ other = r.conversationId := by
  cases row with
  | none => simp [replacing]
  | some r =>
    unfold replacing
    by_cases h : r.conversationId = id
    · simp [h]
    · simp [h, or_comm]

theorem Known.existing {s : Told} (h : Known s) {op : Op} {saving : Saving}
    (hsaving : s.1.saving? op = some saving) {e : SessionEntry} (he : saving.existing = some e) :
    ∃ row, s.1.row = some row ∧
      (e.conversationId = row.conversationId ∨ e.conversationId ∈ s.2.replaced) := by
  obtain ⟨htask, hphase, -⟩ := Lane.of_saving? hsaving
  refine h.entries e (.inl ?_)
  rw [Lane.snapshots, List.mem_filterMap]
  exact ⟨saving.task, htask, by rw [Task.snapshot, hphase, he]⟩

theorem Known.saved_lt {s : Told} (h : Known s) {op : Op} {saving : Saving}
    (hsaving : s.1.saving? op = some saving) : saving.write.entry.conversationId <
      s.1.minted + if saving.write.event.mints then 1 else 0 := by
  have hwrites := Lane.writes_of_saving? hsaving
  cases hmints : saving.write.event.mints with
  | true =>
    rw [hwrites.conversation_of_mints hmints]
    exact Nat.lt_succ_self _
  | false =>
    obtain ⟨e, he, hid⟩ := hwrites.conversation_of_not_mints hmints
    obtain ⟨row, hrow, hknown⟩ := h.existing hsaving he
    rw [hid]
    rcases hknown with hsame | hreplaced
    · rw [hsame]
      exact h.row row hrow
    · exact h.replaced _ hreplaced

theorem noteHistory_of_saving? {honoured : Nat} {w : Lane} {h : History} {op : Op}
    {saving : Saving} (hsaving : w.saving? op = some saving) :
    noteHistory honoured w h op = h.saved honoured w.row saving := by
  cases op with
  | reboot => cases hsaving
  | begin | request | elsewhere | proceed =>
    unfold noteHistory
    dsimp only
    rw [hsaving]

theorem noteHistory_of_idle {honoured : Nat} {w : Lane} {h : History} {op : Op}
    (hsaving : w.saving? op = none) (hboots : ∀ policy startedAt, op ≠ .reboot policy startedAt) :
    noteHistory honoured w h op = h := by
  cases op with
  | reboot policy startedAt => exact absurd rfl (hboots policy startedAt)
  | begin | request | elsewhere | proceed =>
    unfold noteHistory
    dsimp only
    rw [hsaving]

/-- **What is at hand stays known.** -/
theorem Known.step {honoured : Nat} {s : Told} (h : Known s) (op : Op) :
    Known (toldStep honoured s op) := by
  have hdoes := s.1.step_does op
  show Known (s.1.step op, noteHistory honoured s.1 s.2 op)
  generalize s.1.step op = w' at hdoes ⊢
  cases hdoes with
  | idles saves boots announces reads =>
    rw [noteHistory_of_idle saves boots]
    refine ⟨h.row, h.replaced, fun e he => ?_⟩
    rcases he with hread | hreturned
    · rcases reads e hread with hold | hrow | hreturned
      · exact h.entries e (.inl hold)
      · exact ⟨e, hrow, .inl rfl⟩
      · exact h.entries e (.inr hreturned)
    · exact h.entries e (.inr hreturned)
  | publishes saves announces reads =>
    rw [noteHistory_of_idle saves nofun]
    refine ⟨h.row, h.replaced, fun e he => h.entries e (he.imp_left fun hread => ?_)⟩
    exact reads ▸ hread
  | @saves i saving tasks hsaving announces reads =>
    rw [noteHistory_of_saving? hsaving]
    have hlt := h.saved_lt hsaving
    -- what was of the conversation in the row is of it, or of one that was replaced just now
    have hkeeps : ∀ e : SessionEntry, (∃ row, s.1.row = some row ∧
          (e.conversationId = row.conversationId ∨ e.conversationId ∈ s.2.replaced)) →
        e.conversationId = saving.write.entry.conversationId ∨ e.conversationId ∈
          replacing s.2.replaced s.1.row saving.write.entry.conversationId := by
      rintro e ⟨row, hrow, hknown⟩
      rw [mem_replacing_iff]
      by_cases hsame : e.conversationId = saving.write.entry.conversationId
      · exact .inl hsame
      · refine .inr ?_
        rcases hknown with hid | hreplaced
        · exact .inr ⟨row, hrow, fun h => hsame (hid.trans h), hid⟩
        · exact .inl hreplaced
    refine ⟨?_, fun id hid => ?_, fun e he => ⟨_, rfl, ?_⟩⟩
    · rintro row ⟨⟩
      exact hlt
    · refine Nat.lt_of_lt_of_le ?_ (Nat.le_add_right _ _)
      rcases mem_replacing_iff.mp hid with hold | ⟨row, hrow, -, rfl⟩
      · exact h.replaced id hold
      · exact h.row row hrow
    · rcases he with hread | hreturned
      · exact hkeeps e (h.entries e (.inl (reads e hread)))
      · dsimp only at hreturned
        split at hreturned
        · rcases List.mem_append.mp hreturned with hold | hnew
          · exact hkeeps e (h.entries e (.inr hold))
          · rw [List.mem_singleton.mp hnew]
            exact .inl rfl
        · exact hkeeps e (h.entries e (.inr hreturned))
  | reboots =>
    exact ⟨h.row, h.replaced, fun e he => he.elim (nofun) nofun⟩

/-! ## What a save tells -/

section
variable {honoured : Nat} {s : Told} {op : Op} {saving : Saving}

/-- No conversation returns where a save that makes none finds the one that was read. -/
theorem Known.not_replaced_iff (h : Known s) (hforward : Forward s)
    (hsaving : s.1.saving? op = some saving) :
    saving.write.entry.conversationId ∉
        replacing s.2.replaced s.1.row saving.write.entry.conversationId ↔
      (saving.write.event.mints = false →
        s.1.row.map SessionEntry.conversationId =
          saving.existing.map SessionEntry.conversationId) := by
  have hwrites := Lane.writes_of_saving? hsaving
  have hsame : saving.write.entry.conversationId ∈
        replacing s.2.replaced s.1.row saving.write.entry.conversationId ↔
      saving.write.entry.conversationId ∈ s.2.replaced := by
    rw [mem_replacing_iff]
    exact or_iff_left fun ⟨row, _, hne, heq⟩ => hne heq.symm
  rw [hsame]
  cases hmints : saving.write.event.mints with
  | true =>
    rw [hwrites.conversation_of_mints hmints]
    refine iff_of_true (fun hmem => ?_) nofun
    exact Nat.lt_irrefl _ (h.replaced _ hmem)
  | false =>
    obtain ⟨e, he, hid⟩ := hwrites.conversation_of_not_mints hmints
    obtain ⟨row, hrow, hknown⟩ := h.existing hsaving he
    obtain ⟨hcurrent, -⟩ := hforward.2 row hrow
    rw [hid, he, hrow]
    simp only [map_some, some.injEq, forall_const]
    constructor
    · intro hnew
      exact (hknown.resolve_right hnew).symm
    · intro heq
      exact heq ▸ hcurrent

/-- The counters tell the history where a save finds those that were read, or begins a
conversation with what counts. -/
theorem Known.counters_iff (honoured : Nat) (h : Known s) (hforward : Forward s)
    (hsaving : s.1.saving? op = some saving) :
    (saving.write.entry.messageCount = (s.2.saved honoured s.1.row saving).messages ∧
        saving.write.entry.completedTurns = (s.2.saved honoured s.1.row saving).turns) ↔
      (saving.write.event.begins = false →
          s.1.row.map SessionEntry.counters = saving.existing.map SessionEntry.counters) ∧
        (saving.task.call.isMessage = true → saving.task.explicit = true → honoured = 0) := by
  have hwrites := Lane.writes_of_saving? hsaving
  unfold History.saved
  dsimp only
  cases hbegins : saving.write.event.begins with
  | true =>
    obtain ⟨hmessages, hturns⟩ := hwrites.counters_of_begins hbegins
    rw [hmessages, hturns]
    simp only [if_true, and_true, Bool.true_eq_false, false_implies, true_and, Task.opening]
    cases saving.task.call.isMessage <;> cases saving.task.explicit <;> simp [eq_comm]
  | false =>
    obtain ⟨e, he, hmessages, hturns⟩ := hwrites.counters_of_not_begins hbegins
    obtain ⟨row, hrow, -⟩ := h.existing hsaving he
    obtain ⟨-, hrowMessages, hrowTurns⟩ := hforward.2 row hrow
    have hhonours : saving.task.call.isMessage = true → saving.task.explicit = true →
        honoured = 0 := fun hmessage hexplicit => by
      rw [Lane.begins_of_honours hsaving hmessage hexplicit] at hbegins
      cases hbegins
    rw [hmessages, hturns, he, hrow, ← hrowMessages, ← hrowTurns]
    simp only [Bool.false_eq_true, if_false, Nat.add_right_cancel_iff, map_some,
      some.injEq, SessionEntry.counters, Prod.mk.injEq, forall_const]
    exact ⟨fun h => ⟨⟨h.1.symm, h.2.symm⟩, hhonours⟩, fun h => ⟨h.1.1.symm, h.1.2.symm⟩⟩

/-- **A save tells the history exactly if it comes forward.** -/
theorem Known.forward_saved_iff (h : Known s) (hforward : Forward s)
    (hsaving : s.1.saving? op = some saving) {w' : Lane}
    (hrow : w'.row = some (Lane.upsert s.1.row saving.write.entry)) :
    Forward (w', s.2.saved honoured s.1.row saving) ↔ SavesForward honoured s saving := by
  have hrestarts : (s.2.saved honoured s.1.row saving).restarts ≤ 1 ↔
      (saving.Outlived s.1 → s.2.restarts = 0) := by
    rw [← Lane.event_restart_iff hsaving]
    have hbefore := hforward.1
    unfold History.saved
    dsimp only
    split <;> simp [*]
  have hids := h.not_replaced_iff hforward hsaving
  have hcounters := h.counters_iff honoured hforward hsaving
  unfold Forward SavesForward
  simp only [hrow, mem_def, some.injEq, forall_eq']
  rw [hrestarts]
  show _ ∧ saving.write.entry.conversationId ∉ _ ∧
    saving.write.entry.messageCount = _ ∧ saving.write.entry.completedTurns = _ ↔ _
  rw [hcounters]
  constructor
  · rintro ⟨hfirst, hid, hgoes, hhonours⟩
    exact ⟨hids.mp hid, hgoes, hfirst, hhonours⟩
  · rintro ⟨hid, hgoes, hfirst, hhonours⟩
    exact ⟨hfirst, hids.mpr hid, hgoes, hhonours⟩

end

/-- **A step tells the history exactly if it moves forward.** -/
theorem Known.forward_step_iff {honoured : Nat} {s : Told} (h : Known s) (hforward : Forward s)
    (op : Op) : Forward (toldStep honoured s op) ↔ MovesForward honoured s op := by
  have hidle : ∀ {op : Op}, s.1.saving? op = none → MovesForward honoured s op :=
    fun hnone saving hsaving => by
      rw [hnone] at hsaving
      cases hsaving
  have hdoes := s.1.step_does op
  show Forward (s.1.step op, noteHistory honoured s.1 s.2 op) ↔ _
  generalize s.1.step op = w' at hdoes ⊢
  cases hdoes with
  | idles saves boots announces reads =>
    rw [noteHistory_of_idle saves boots]
    exact iff_of_true hforward (hidle saves)
  | publishes saves announces reads =>
    rw [noteHistory_of_idle saves nofun]
    exact iff_of_true hforward (hidle saves)
  | @saves i saving tasks hsaving announces reads =>
    rw [noteHistory_of_saving? hsaving, h.forward_saved_iff hforward hsaving rfl]
    constructor
    · intro hsaves saving' hsaving'
      obtain rfl := some.inj (hsaving.symm.trans hsaving')
      exact hsaves
    · exact fun hmoves => hmoves saving hsaving
  | reboots => exact iff_of_true ⟨Nat.zero_le _, hforward.2⟩ (hidle rfl)

/-! ## Runs -/

/-- The lane as a process finds it, with the history that its row tells. -/
def told (row : Option SessionEntry) (policy : ResetPolicy) (startedAt : Stamp) : Told :=
  (Lane.found row policy startedAt,
    { messages := row.elim 0 SessionEntry.messageCount
      turns := row.elim 0 SessionEntry.completedTurns })

/-- **Forward, exactly**: along a run the lane holds no conversation that was replaced, is rolled by
a restart once in a process, and counts the messages and turns of the conversation, if and only if
every save finds what its task had read, no second message in a process finds the conversation older
than it, and no message honours a request, if such a one counts. -/
theorem forward_iff (honoured : Nat) (row : Option SessionEntry) (policy : ResetPolicy)
    (startedAt : Stamp) (ops : List Op) :
    Along (toldStep honoured) Forward (told row policy startedAt) ops ↔
      Meets (toldStep honoured) (MovesForward honoured) (told row policy startedAt) ops := by
  have hknown : Known (told row policy startedAt) := by
    refine ⟨?_, fun _ h => (by cases h), fun e he => he.elim (fun h => (by cases h))
      fun h => (by cases h)⟩
    rintro row ⟨⟩
    exact Nat.lt_succ_self _
  have hforward : Forward (told row policy startedAt) := by
    refine ⟨Nat.zero_le _, ?_⟩
    rintro row ⟨⟩
    exact ⟨List.not_mem_nil, rfl, rfl⟩
  have hstep : ∀ s op, Known s → Forward s →
      (Forward (toldStep honoured s op) ↔ MovesForward honoured s op) :=
    fun _ op h hforward => h.forward_step_iff hforward op
  have hinv : ∀ s op, Known s → Known (toldStep honoured s op) := fun _ op h => h.step op
  exact along_iff_meets_of_inv hinv hstep hknown hforward ops

/-! ### Runs that go back -/

instance (s : Told) : Decidable (Forward s) := inferInstanceAs (Decidable (_ ∧ _))

theorem not_along_forward {honoured : Nat} {s : Told} {ops : List Op}
    (h : ¬Forward (run (toldStep honoured) s ops)) :
    ¬Along (toldStep honoured) Forward s ops :=
  fun halong => h halong.last

/-- A message that nothing comes between. -/
def arrives (now : Stamp) : List Op := uninterrupted (.resolveFor CHAT_MESSAGE now false)

/-- **Incarnations go back**: two messages after a restart both roll the lane; a turn that is
counted across a roll brings the conversation back; one of two turns that are counted at once is
lost; and a message that honours a request is not counted. -/
theorem incarnations_return :
    ¬Along (toldStep 1) Forward (told none {} { instant := 0 })
        (arrives { instant := 0 } ++ .reboot {} { instant := HOUR } ::
          (arrives { instant := 2 * HOUR } ++ arrives { instant := 3 * HOUR })) ∧
      ¬Along (toldStep 1) Forward (told none {} { instant := 0 })
        (arrives { instant := 0 } ++
          [.begin .recordCompletedTurn, .proceed 0,
            .begin (.resolveFor CHAT_MESSAGE { instant := 2 * DAY } false), .proceed 1, .proceed 1,
            .proceed 0]) ∧
      ¬Along (toldStep 1) Forward (told none {} { instant := 0 })
        (arrives { instant := 0 } ++
          [.begin .recordCompletedTurn, .begin .recordCompletedTurn, .proceed 0, .proceed 1,
            .proceed 0, .proceed 0]) ∧
      ¬Along (toldStep 1) Forward (told none {} { instant := 0 })
        (arrives { instant := 0 } ++ .request "7" :: arrives { instant := HOUR }) :=
  ⟨not_along_forward (by decide), not_along_forward (by decide),
    not_along_forward (by decide), not_along_forward (by decide)⟩

end StackOwl.Sessions
