import StackOwl.Lib.Run
import StackOwl.Sessions.Policy

/-!
# A lane and those who write it

`SessionStore` (`sessions/store.py`) as one lane sees it.  Each of its functions reads the row,
decides, saves a whole row and, where a conversation ended, announces it; between any two of
these another may run, and what is saved was decided on what was read.  `consume_reset_notice`
reads nothing: it is given an entry that was returned before.

A process that ends takes with it what was under way, and what was requested.  The chats that
asked for a new conversation are shared with the other lanes, which may take a request first.

## Main results

* `Lane.step` — a step of one of those who write the lane.
-/

namespace StackOwl.Sessions

open Lib List Option

/-! ## Calls -/

/-- What `resolve_for` takes from its source, and the identity that the parent lane has, if the
message is a runner's and has none. -/
structure Message where
  owlName : String
  channel : String
  chatId : Option String := none
  chatTarget : Option String := none
  identityKey : Option String := none
  runner : Option String := none
  parentSessionKey : Option String := none
  parentIdentity : Option String := none

inductive Call where
  | resolveFor (message : Message) (now : Stamp) (hasActiveWork : Bool)
  | startNewIncarnation (now : Stamp)
  | sweep (now : Stamp) (isBusy : Bool)
  | recordCompletedTurn
  | clearResumePending
  /-- Of the entry that was returned so many calls ago from the first. -/
  | consumeResetNotice (returned : Nat)

def Call.returns : Call → Bool
  | .resolveFor .. | .startNewIncarnation _ | .consumeResetNotice _ => true
  | .sweep .. | .recordCompletedTurn | .clearResumePending => false

def Call.isMessage : Call → Bool
  | .resolveFor .. => true
  | _ => false

inductive Phase where
  | reads
  | saves (existing : Option SessionEntry)
  /-- The conversation that ended is about to be published. -/
  | announces (old : Nat)

/-- A call under way; `explicit` says that it honours a request for a new conversation. -/
structure Task where
  call : Call
  explicit : Bool := false
  phase : Phase := .reads

/-- What a save is to the conversation of the lane. -/
inductive Event where
  | opens
  | continues
  | rolls (reason : Option ResetReason)
  | finalises (reason : Option ResetReason)
  | counts
  | keeps
  deriving DecidableEq

def Event.mints : Event → Bool
  | .opens | .rolls _ => true
  | .continues | .finalises _ | .counts | .keeps => false

/-- The save ends a conversation, not only the process it ran in. -/
def Event.ends : Event → Bool
  | .rolls reason => reason.all ResetReason.endsTheConversation
  | _ => false

/-- What a call saves, and which conversation it announces afterwards. -/
structure Write where
  entry : SessionEntry
  event : Event
  announces : Option Nat := none

/-! ## The lane -/

structure Lane where
  row : Option SessionEntry
  /-- `_pending_new`. -/
  pendingNew : List String
  tasks : List Task
  /-- What was returned. -/
  returned : List SessionEntry
  /-- How many conversations were minted. -/
  minted : Nat
  policy : ResetPolicy
  processStartedAt : Stamp
  /-- `old_conversation_id` of what was published, the last first. -/
  published : List Nat

/-- Python's `or`, of two texts. -/
def orElse (a b : Option String) : Option String :=
  match a.filter (· ≠ "") with
  | some text => some text
  | none => b

/-- The identity of a message; a runner's may be that of its parent. -/
def Message.identity (m : Message) (existing : Option SessionEntry) : Option String :=
  let identity := orElse m.identityKey (existing.bind SessionEntry.identityKey)
  let parent := orElse m.parentSessionKey (existing.bind SessionEntry.parentSessionKey)
  if identity = none ∧ parent.any (· ≠ "") ∧ m.runner.any (· ≠ "") then m.parentIdentity
  else identity

namespace Lane

variable (w : Lane)

def resolveWrite (m : Message) (now : Stamp) (hasActiveWork : Bool) (existing : Option SessionEntry)
    : Write :=
  let decision := resolve existing now w.policy hasActiveWork (some w.processStartedAt)
  let target := orElse m.chatTarget (existing.bind SessionEntry.chatId)
  let identity := m.identity existing
  let parent := orElse m.parentSessionKey (existing.bind SessionEntry.parentSessionKey)
  match existing with
  | none =>
    { entry :=
        { conversationId := w.minted, owlName := m.owlName, channel := m.channel,
          createdAt := now, updatedAt := now, chatId := target, identityKey := identity,
          messageCount := 1, parentSessionKey := parent }
      event := .opens }
  | some existing =>
    if decision.reason = some .restart then
      { entry :=
          { existing with
            conversationId := w.minted, updatedAt := now
            messageCount := existing.messageCount + 1, autoResetReason := some .restart
            wasAutoReset := false, isFreshReset := false }
        event := .rolls decision.reason }
    else if decision.mintsNewIncarnation then
      { entry :=
          { existing with
            conversationId := w.minted, createdAt := now, updatedAt := now
            messageCount := 1, completedTurns := 0
            suspended := false, resumePending := false, resumeReason := none
            wasAutoReset := decision.reason.any ResetReason.isAutomatic
            autoResetReason := decision.reason, isFreshReset := false
            expiryFinalized := false, restartFailures := 0, chatId := target
            identityKey := identity, parentSessionKey := parent }
        event := .rolls decision.reason
        announces :=
          if !existing.expiryFinalized ∧ decision.reason.all ResetReason.endsTheConversation then
            some existing.conversationId
          else none }
    else
      { entry :=
          { existing with
            updatedAt := now, chatId := target, identityKey := identity
            parentSessionKey := parent, messageCount := existing.messageCount + 1 }
        event := .continues }

/-- What `start_new_incarnation` saves, for the reason that is its default. -/
def startWrite (now : Stamp) (existing : SessionEntry) : Write :=
  { entry :=
      { existing with
        conversationId := w.minted, createdAt := now, updatedAt := now
        messageCount := 0, completedTurns := 0
        suspended := false, resumePending := false, resumeReason := none
        wasAutoReset := false, autoResetReason := some .explicit
        isFreshReset := true, expiryFinalized := false, restartFailures := 0 }
    event := .rolls (some .explicit)
    announces := some existing.conversationId }

def sweepWrite (now : Stamp) (isBusy : Bool) (existing : SessionEntry) :
    Option Write :=
  if existing.expiryFinalized ∨ existing.suspended ∨ existing.resumePending then none
  else if expiredReason existing now w.policy = none then none
  else if isBusy then none
  else
    some
      { entry :=
          { existing with
            expiryFinalized := true, wasAutoReset := true
            autoResetReason := expiredReason existing now w.policy }
        event := .finalises (expiredReason existing now w.policy)
        announces := some existing.conversationId }

/-- What a call saves that read `existing`. -/
def write (task : Task) (existing : Option SessionEntry) : Option Write :=
  match task.call with
  | .resolveFor m now hasActiveWork =>
    if task.explicit then existing.map (w.startWrite now)
    else some (w.resolveWrite m now hasActiveWork existing)
  | .startNewIncarnation now => existing.map (w.startWrite now)
  | .sweep now isBusy => existing.bind (w.sweepWrite now isBusy)
  | .recordCompletedTurn => existing.map fun entry =>
    { entry := { entry with completedTurns := entry.completedTurns + 1 }, event := .counts }
  | .clearResumePending => existing.bind fun entry =>
    if entry.resumePending then
      some
        { entry :=
            { entry with resumePending := false, resumeReason := none, restartFailures := 0 }
          event := .keeps }
    else none
  | .consumeResetNotice _ => existing.bind fun entry =>
    if entry.wasAutoReset then
      some { entry := { entry with wasAutoReset := false }, event := .keeps }
    else none

/-- The statement of `save`: what an entry cannot state is left as it was. -/
def upsert (row : Option SessionEntry) (entry : SessionEntry) : SessionEntry :=
  { entry with
    chatId := entry.chatId <|> row.bind SessionEntry.chatId
    identityKey := entry.identityKey <|> row.bind SessionEntry.identityKey
    parentSessionKey := entry.parentSessionKey <|> row.bind SessionEntry.parentSessionKey }

def start (task : Task) : Lane := { w with tasks := w.tasks ++ [task] }

/-- A call begins; `resolve_for` takes the request of its chat. -/
def begin (call : Call) : Lane :=
  match call with
  | .resolveFor m _ _ =>
    match m.chatId.filter fun chat => chat ≠ "" ∧ chat ∈ w.pendingNew with
    | some chat =>
      { w with pendingNew := w.pendingNew.filter (· ≠ chat) }.start { call, explicit := true }
    | none => w.start { call }
  | .consumeResetNotice k =>
    match w.returned[k]? with
    | some entry => w.start { call, phase := .saves (some entry) }
    | none => w
  | _ => w.start { call }

/-- The read of a call.  A request finds nothing to end where there is no lane, and the message
goes the ordinary way. -/
def read (i : Nat) (task : Task) : Lane :=
  if task.explicit ∧ w.row = none then
    { w with tasks := w.tasks.set i { task with explicit := false } }
  else { w with tasks := w.tasks.set i { task with phase := .saves w.row } }

/-- The save of a call; what it returns is there from then on, and what it announces comes next. -/
def save (i : Nat) (task : Task) (existing : Option SessionEntry) : Lane :=
  match w.write task existing with
  | none => { w with tasks := w.tasks.eraseIdx i }
  | some write =>
    { w with
      row := some (upsert w.row write.entry)
      minted := w.minted + if write.event.mints then 1 else 0
      returned := if task.call.returns then w.returned ++ [write.entry] else w.returned
      tasks :=
        match write.announces with
        | some old => w.tasks.set i { task with phase := .announces old }
        | none => w.tasks.eraseIdx i }

end Lane

inductive Op where
  | begin (call : Call)
  /-- `request_new_incarnation`. -/
  | request (chatKey : String)
  /-- Another lane of the chat takes its request. -/
  | elsewhere (chatKey : String)
  /-- A call under way gets what it waits for. -/
  | proceed (i : Nat)
  /-- The process ends, and another starts. -/
  | reboot (policy : ResetPolicy) (startedAt : Stamp)

namespace Lane

def proceed (w : Lane) (i : Nat) : Lane :=
  match w.tasks[i]? with
  | none => w
  | some task =>
    match task.phase with
    | .reads => w.read i task
    | .saves existing => w.save i task existing
    | .announces old => { w with published := old :: w.published, tasks := w.tasks.eraseIdx i }

def step (w : Lane) : Op → Lane
  | .begin call => w.begin call
  | .request chatKey =>
    if chatKey = "" then w else { w with pendingNew := w.pendingNew.insert chatKey }
  | .elsewhere chatKey => { w with pendingNew := w.pendingNew.filter (· ≠ chatKey) }
  | .proceed i => w.proceed i
  | .reboot policy startedAt =>
    { w with
      pendingNew := [], tasks := [], returned := [], policy, processStartedAt := startedAt }

def finalised (row : Option SessionEntry) : List Nat :=
  (row.filter SessionEntry.expiryFinalized).toList.map SessionEntry.conversationId

def found (row : Option SessionEntry) (policy : ResetPolicy) (startedAt : Stamp) : Lane :=
  { row, pendingNew := [], tasks := [], returned := []
    minted := row.elim 0 fun entry => entry.conversationId + 1
    policy, processStartedAt := startedAt, published := finalised row }

end Lane

/-- A call that nothing comes between: it begins, reads and saves. -/
def uninterrupted (call : Call) : List Op := [.begin call, .proceed 0, .proceed 0]

def CHAT_MESSAGE : Message := { owlName := "main", channel := "telegram", chatId := some "7" }

/-! ## Saves -/

structure Saving where
  task : Task
  existing : Option SessionEntry
  write : Write

def Lane.saving? (w : Lane) : Op → Option Saving
  | .proceed i => w.tasks[i]?.bind fun task =>
    match task.phase with
    | .saves existing => (w.write task existing).map fun write => { task, existing, write }
    | _ => none
  | _ => none

def Task.snapshot (task : Task) : Option SessionEntry :=
  match task.phase with
  | .saves existing => existing
  | _ => none

def Task.announcing (task : Task) : Option Nat :=
  match task.phase with
  | .announces old => some old
  | _ => none

namespace Lane

def announcing (tasks : List Task) : List Nat := tasks.filterMap Task.announcing

def snapshots (tasks : List Task) : List SessionEntry := tasks.filterMap Task.snapshot

inductive Does (w : Lane) : Op → Lane → Prop where
  /-- Something begins, is read or given up. -/
  | idles {op : Op} {pendingNew : List String} {tasks : List Task}
      (saves : w.saving? op = none) (boots : ∀ policy startedAt, op ≠ .reboot policy startedAt)
      (announces : announcing tasks = announcing w.tasks)
      (reads : ∀ e ∈ snapshots tasks, e ∈ snapshots w.tasks ∨ w.row = some e ∨ e ∈ w.returned) :
      Does w op { w with pendingNew, tasks }
  | publishes {i old : Nat} {tasks : List Task} (saves : w.saving? (.proceed i) = none)
      (announces : (announcing w.tasks).Perm (old :: announcing tasks))
      (reads : snapshots tasks = snapshots w.tasks) :
      Does w (.proceed i) { w with published := old :: w.published, tasks }
  | saves {i : Nat} {saving : Saving} {tasks : List Task}
      (saves : w.saving? (.proceed i) = some saving)
      (announces : (announcing tasks).Perm (saving.write.announces.toList ++ announcing w.tasks))
      (reads : ∀ e ∈ snapshots tasks, e ∈ snapshots w.tasks) :
      Does w (.proceed i)
        { w with
          row := some (upsert w.row saving.write.entry)
          minted := w.minted + if saving.write.event.mints then 1 else 0
          returned :=
            if saving.task.call.returns then w.returned ++ [saving.write.entry] else w.returned
          tasks }
  | reboots {policy : ResetPolicy} {startedAt : Stamp} :
      Does w (.reboot policy startedAt)
        { w with
          pendingNew := [], tasks := [], returned := [], policy, processStartedAt := startedAt }

variable {i : Nat}

theorem exists_split {α : Type*} {l : List α} {a : α} (h : l[i]? = some a) :
    ∃ front back, l = front ++ a :: back ∧ (∀ b, l.set i b = front ++ b :: back) ∧
      l.eraseIdx i = front ++ back := by
  induction l generalizing i with
  | nil => cases h
  | cons c l ih =>
    cases i with
    | zero =>
      obtain rfl := some.inj h
      exact ⟨[], l, rfl, fun _ => rfl, rfl⟩
    | succ i =>
      obtain ⟨front, back, hl, hset, herase⟩ := ih h
      exact ⟨c :: front, back, congrArg (c :: ·) hl, fun b => congrArg (c :: ·) (hset b),
        congrArg (c :: ·) herase⟩

section
variable {front back : List Task} {task : Task}

theorem announcing_append :
    announcing (front ++ task :: back) =
      announcing front ++ (task.announcing.toList ++ announcing back) := by
  simp only [announcing, filterMap_append, filterMap_cons]
  cases task.announcing <;> rfl

theorem snapshots_append :
    snapshots (front ++ task :: back) =
      snapshots front ++ (task.snapshot.toList ++ snapshots back) := by
  simp only [snapshots, filterMap_append, filterMap_cons]
  cases task.snapshot <;> rfl

end

variable {op : Op}

theorem start_does (w : Lane) (hsaves : w.saving? op = none)
    (hboots : ∀ policy startedAt, op ≠ .reboot policy startedAt) (pendingNew : List String)
    {task : Task} (hannounces : task.announcing = none)
    (hreads : ∀ e ∈ task.snapshot, w.row = some e ∨ e ∈ w.returned) :
    Does w op ({ w with pendingNew }.start task) := by
  refine .idles hsaves hboots ?_ ?_
  · rw [announcing_append, hannounces]
    simp [announcing]
  · intro e he
    rw [snapshots_append] at he
    rcases mem_append.mp he with hold | hnew
    · exact .inl hold
    · exact .inr (hreads e (by simpa [snapshots] using hnew))

theorem read_does (w : Lane) {task : Task} (htask : w.tasks[i]? = some task)
    (hphase : task.phase = .reads) : Does w (.proceed i) (w.read i task) := by
  obtain ⟨front, back, htasks, hset, -⟩ := exists_split htask
  have hsaves : w.saving? (.proceed i) = none := by
    rw [saving?, htask, bind_some, hphase]
  have hnone : task.announcing = none := by rw [Task.announcing, hphase]
  have hunread : task.snapshot = none := by rw [Task.snapshot, hphase]
  have hboots : ∀ policy startedAt, Op.proceed i ≠ .reboot policy startedAt :=
    nofun
  unfold read
  split
  · refine .idles hsaves hboots ?_ ?_
    · rw [hset, htasks, announcing_append, announcing_append, hnone]
      rw [show ({ task with explicit := false } : Task).announcing = none from hnone]
    · intro e he
      rw [hset, snapshots_append,
        show ({ task with explicit := false } : Task).snapshot = none from hunread] at he
      rw [htasks, snapshots_append, hunread]
      exact .inl he
  · refine .idles hsaves hboots ?_ ?_
    · rw [hset, htasks, announcing_append, announcing_append, hnone]
      rfl
    · intro e he
      rw [hset, snapshots_append] at he
      rw [htasks, snapshots_append, hunread]
      rcases mem_append.mp he with hfront | hrest
      · exact .inl (mem_append_left _ hfront)
      · rcases mem_append.mp hrest with hnow | hback
        · exact .inr (.inl (by simpa [Task.snapshot] using hnow))
        · exact .inl (mem_append_right _ hback)

variable {existing : Option SessionEntry}

theorem save_does (w : Lane) {task : Task} (htask : w.tasks[i]? = some task)
    (hphase : task.phase = .saves existing) :
    Does w (.proceed i) (w.save i task existing) := by
  obtain ⟨front, back, htasks, hset, herase⟩ := exists_split htask
  have hnone : task.announcing = none := by rw [Task.announcing, hphase]
  have hannouncing : announcing w.tasks = announcing (front ++ back) := by
    rw [htasks, announcing_append, hnone]
    simp [announcing]
  have hfewer : ∀ e ∈ snapshots (front ++ back), e ∈ snapshots w.tasks := by
    intro e he
    rw [htasks, snapshots_append]
    simp only [snapshots, filterMap_append, mem_append] at he ⊢
    exact he.imp_right .inr
  have hsaving : w.saving? (.proceed i) =
      (w.write task existing).map fun write => { task, existing, write } := by
    rw [saving?, htask, bind_some, hphase]
  unfold save
  cases hwrite : w.write task existing with
  | none =>
    rw [hwrite] at hsaving
    refine .idles hsaving (nofun) ?_ fun e he => .inl ?_
    · rw [herase, hannouncing]
    · rw [herase] at he
      exact hfewer e he
  | some write =>
    rw [hwrite] at hsaving
    refine .saves hsaving ?_ ?_
    · dsimp only
      cases write.announces with
      | none =>
        dsimp only
        rw [herase, hannouncing]
        exact List.Perm.refl _
      | some old =>
        dsimp only
        rw [hset, hannouncing, announcing_append]
        simp only [announcing, Task.announcing, toList_some, filterMap_append,
          singleton_append]
        exact perm_middle
    · cases write.announces with
      | none =>
        dsimp only
        rw [herase]
        exact hfewer
      | some old =>
        dsimp only
        intro e he
        refine hfewer e ?_
        rw [hset, snapshots_append] at he
        simpa [snapshots, Task.snapshot] using he

/-- **What a step does.** -/
theorem step_does (w : Lane) (op : Op) : Does w op (w.step op) := by
  have hidle : ∀ (op : Op) (pendingNew : List String), w.saving? op = none →
      (∀ policy startedAt, op ≠ .reboot policy startedAt) → Does w op { w with pendingNew } :=
    fun _ _ hsaves hboots => .idles hsaves hboots rfl fun _ he => .inl he
  cases op with
  | begin call =>
    have hboots : ∀ policy startedAt, Op.begin call ≠ .reboot policy startedAt :=
      nofun
    have hplain : Does w (.begin call) (w.start { call }) :=
      start_does w rfl hboots w.pendingNew rfl fun _ h => by cases h
    cases call with
    | resolveFor m now work =>
      show Does w _ (w.begin (.resolveFor m now work))
      unfold Lane.begin
      dsimp only
      split
      · exact start_does w rfl hboots _ rfl fun _ h => by cases h
      · exact hplain
    | consumeResetNotice k =>
      show Does w _ (w.begin (.consumeResetNotice k))
      unfold Lane.begin
      dsimp only
      split
      · rename_i entry hentry
        refine start_does w rfl hboots w.pendingNew rfl fun e he => .inr ?_
        obtain rfl := some.inj he
        exact mem_of_getElem? hentry
      · exact hidle _ w.pendingNew rfl hboots
    | startNewIncarnation | sweep | recordCompletedTurn | clearResumePending => exact hplain
  | request chatKey =>
    show Does w _ (if chatKey = "" then w else { w with pendingNew := w.pendingNew.insert chatKey })
    split
    · exact hidle _ w.pendingNew rfl nofun
    · exact hidle _ _ rfl nofun
  | elsewhere chatKey => exact hidle _ _ rfl nofun
  | proceed i =>
    show Does w _ (w.proceed i)
    unfold proceed
    split
    · rename_i hnone
      refine hidle _ w.pendingNew ?_ nofun
      rw [saving?, hnone]
      rfl
    · rename_i task htask
      split
      · exact read_does w htask ‹_›
      · exact save_does w htask ‹_›
      · rename_i old hphase
        obtain ⟨front, back, htasks, -, herase⟩ := exists_split htask
        refine .publishes ?_ ?_ ?_
        · rw [saving?, htask, bind_some, hphase]
        · rw [herase, htasks, announcing_append, Task.announcing, hphase]
          simp only [announcing, toList_some, filterMap_append,
            singleton_append]
          exact perm_middle
        · rw [herase, htasks, snapshots_append, Task.snapshot, hphase]
          simp [snapshots]
  | reboot policy startedAt => exact .reboots

/-- What a call saves that read `existing`. -/
inductive Writes (w : Lane) (task : Task) : Option SessionEntry → Write → Prop where
  | opens {write : Write} (event : write.event = .opens)
      (conversation : write.entry.conversationId = w.minted)
      (finalized : write.entry.expiryFinalized = false) (messages : write.entry.messageCount = 1)
      (turns : write.entry.completedTurns = 0) (announces : write.announces = none)
      (message : task.call.isMessage = true) (plain : task.explicit = false) :
      Writes w task none write
  | restarts {e : SessionEntry} {write : Write} (event : write.event = .rolls (some .restart))
      (conversation : write.entry.conversationId = w.minted)
      (finalized : write.entry.expiryFinalized = e.expiryFinalized)
      (messages : write.entry.messageCount = e.messageCount + 1)
      (turns : write.entry.completedTurns = e.completedTurns)
      (announces : write.announces = none) : Writes w task (some e) write
  | rolls {e : SessionEntry} {write : Write} {reason : Option ResetReason}
      (event : write.event = .rolls reason) (ends : write.event.ends = true)
      (conversation : write.entry.conversationId = w.minted)
      (finalized : write.entry.expiryFinalized = false) (messages : write.entry.messageCount = 1)
      (turns : write.entry.completedTurns = 0)
      (announces : write.announces =
        if e.expiryFinalized = true then none else some e.conversationId)
      (message : task.call.isMessage = true) (plain : task.explicit = false) :
      Writes w task (some e) write
  | starts {e : SessionEntry} {write : Write} (event : write.event = .rolls (some .explicit))
      (conversation : write.entry.conversationId = w.minted)
      (finalized : write.entry.expiryFinalized = false) (messages : write.entry.messageCount = 0)
      (turns : write.entry.completedTurns = 0)
      (announces : write.announces = some e.conversationId)
      (asked : task.call.isMessage = true → task.explicit = true) :
      Writes w task (some e) write
  | finalises {e : SessionEntry} {write : Write} {reason : Option ResetReason}
      (event : write.event = .finalises reason)
      (conversation : write.entry.conversationId = e.conversationId)
      (current : e.expiryFinalized = false) (finalized : write.entry.expiryFinalized = true)
      (messages : write.entry.messageCount = e.messageCount)
      (turns : write.entry.completedTurns = e.completedTurns)
      (announces : write.announces = some e.conversationId) : Writes w task (some e) write
  /-- A message that continues the conversation, a turn that is counted, or a flag. -/
  | keeps {e : SessionEntry} {write : Write}
      (event : write.event = .continues ∨ write.event = .counts ∨ write.event = .keeps)
      (conversation : write.entry.conversationId = e.conversationId)
      (finalized : write.entry.expiryFinalized = e.expiryFinalized)
      (messages : write.entry.messageCount =
        e.messageCount + if write.event = .continues then 1 else 0)
      (turns : write.entry.completedTurns =
        e.completedTurns + if write.event = .counts then 1 else 0)
      (announces : write.announces = none) : Writes w task (some e) write

theorem resolveWrite_writes (w : Lane) (task : Task) (hmessage : task.call.isMessage = true)
    (hplain : task.explicit = false) (m : Message) (now : Stamp) (hasActiveWork : Bool)
    (existing : Option SessionEntry) :
    Writes w task existing (w.resolveWrite m now hasActiveWork existing) := by
  cases existing with
  | none => exact .opens rfl rfl rfl rfl rfl rfl hmessage hplain
  | some e =>
    unfold resolveWrite
    generalize resolve (some e) now w.policy hasActiveWork (some w.processStartedAt) = decision
    dsimp only
    split
    · rename_i hrestart
      exact .restarts (congrArg Event.rolls hrestart) rfl rfl rfl rfl rfl
    · rename_i hrestart
      split
      · have hends : decision.reason.all ResetReason.endsTheConversation = true := by
          cases hreason : decision.reason with
          | none => rfl
          | some reason =>
            rw [hreason] at hrestart
            exact decide_eq_true fun h => hrestart (congrArg some h)
        refine .rolls rfl hends rfl rfl rfl rfl ?_ hmessage hplain
        dsimp only
        rw [hends]
        cases e.expiryFinalized <;> rfl
      · exact .keeps (.inl rfl) rfl rfl rfl rfl rfl

variable {w : Lane}

/-- **What a call saves.** -/
theorem write_writes {task : Task} {write : Write} (h : w.write task existing = some write)
    : Writes w task existing write := by
  have hstart : ∀ now, (task.call.isMessage = true → task.explicit = true) →
      existing.map (w.startWrite now) = some write → Writes w task existing write := by
    intro now hasked h
    obtain ⟨e, rfl, rfl⟩ := map_eq_some_iff.mp h
    exact .starts rfl rfl rfl rfl rfl rfl hasked
  unfold Lane.write at h
  split at h
  · rename_i hcall
    split at h
    · rename_i hexplicit
      exact hstart _ (fun _ => hexplicit) h
    · rename_i hplain
      obtain rfl := some.inj h
      exact resolveWrite_writes w task (by rw [hcall]; rfl) (Bool.eq_false_iff.mpr hplain) _ _ _
        existing
  · rename_i hcall
    exact hstart _ (fun hmessage => by rw [hcall] at hmessage; cases hmessage) h
  · obtain ⟨e, rfl, hsweep⟩ := bind_eq_some_iff.mp h
    unfold sweepWrite at hsweep
    split at hsweep
    · cases hsweep
    · rename_i hcurrent
      split at hsweep
      · cases hsweep
      · split at hsweep
        · cases hsweep
        · obtain rfl := some.inj hsweep
          have hfinalized : e.expiryFinalized = false :=
            Bool.eq_false_iff.mpr fun h => hcurrent (.inl h)
          exact .finalises rfl rfl hfinalized rfl rfl rfl rfl
  · obtain ⟨e, rfl, rfl⟩ := map_eq_some_iff.mp h
    exact .keeps (.inr (.inl rfl)) rfl rfl rfl rfl rfl
  · obtain ⟨e, rfl, hclear⟩ := bind_eq_some_iff.mp h
    split at hclear
    · obtain rfl := some.inj hclear
      exact .keeps (.inr (.inr rfl)) rfl rfl rfl rfl rfl
    · cases hclear
  · obtain ⟨e, rfl, hnotice⟩ := bind_eq_some_iff.mp h
    split at hnotice
    · obtain rfl := some.inj hnotice
      exact .keeps (.inr (.inr rfl)) rfl rfl rfl rfl rfl
    · cases hnotice

variable {saving : Saving}

theorem of_saving? (h : w.saving? op = some saving) :
    saving.task ∈ w.tasks ∧ saving.task.phase = .saves saving.existing ∧
      w.write saving.task saving.existing = some saving.write := by
  cases op with
  | proceed i =>
    obtain ⟨task, htask, h⟩ := bind_eq_some_iff.mp h
    split at h
    · rename_i existing hphase
      obtain ⟨write, hwrite, rfl⟩ := map_eq_some_iff.mp h
      exact ⟨mem_of_getElem? htask, hphase, hwrite⟩
    · cases h
  | begin | request | elsewhere | reboot => cases h

theorem writes_of_saving? (h : w.saving? op = some saving) :
    Writes w saving.task saving.existing saving.write :=
  write_writes (of_saving? h).2.2

end Lane

end StackOwl.Sessions
