import StackOwl.Durable.Dispatch

/-!
# What each store operation does

One lemma for each writing operation of `StackOwl.Durable.Store`: the `UPDATE` it
ran and the journal events it recorded, when it does not raise.  Later proofs use
these and never unfold an operation.
-/

namespace StackOwl.Durable

open Lib Option

theorem bind_eq_ok {α β : Type} {x : Result α} {f : α → Result β} {b : β}
    (h : (x >>= f) = .ok b) : ∃ a, x = .ok a ∧ f a = .ok b := by
  cases x with
  | error e => cases h
  | ok a => exact ⟨a, rfl, h⟩

/-- The database after one `UPDATE` and the journal events recorded with it. -/
structure Updates (u : Update) (events : List JournalEvent) (db db' : Db) :
    Prop where
  rows : db'.tasks.rows = db.tasks.rows.map u.on
  journal : db'.journal = db.journal ++ events

variable {db db' : Db} {events : List JournalEvent} {u : Update}

/-- The row of every key after an `UPDATE`. -/
theorem Updates.find (h : Updates u events db db') (o i : String) :
    db'.find o i = (db.find o i).map u.on :=
  Table.find?_of_map h.rows (u.isKey_on o i)

variable {r : Row} {o i : String}

theorem Updates.find_matched (h : Updates u events db db') (hr : db.find o i = some r)
    (hg : u.guard r = true) :
    db'.find o i = some (u.set r) := by
  rw [h.find, hr, map_some, Update.on_of_guard hg]

/-- A row the statement does not match is left alone. -/
theorem Updates.find_unmatched (h : Updates u events db db') (hr : db.find o i = some r)
    (hg : u.guard r = false) :
    db'.find o i = some r := by
  rw [h.find, hr, map_some, Update.on_of_not_guard hg]

/-- A statement addressed by primary key leaves the rows of other keys alone. -/
theorem Updates.find_other {owner taskId : String} (h : Updates u events db db')
    (hguard : ∀ r, u.guard r = true → isKey owner taskId r = true)
    (hne : ¬ (owner = o ∧ taskId = i)) : db'.find o i = db.find o i := by
  rw [h.find]
  cases hfound : db.find o i with
  | none => rfl
  | some r =>
    obtain ⟨rfl, rfl⟩ := key_of_find hfound
    have hg : u.guard r = false := by
      by_contra hg
      obtain ⟨ho, hi⟩ := isKey_iff.mp (hguard r (by simpa using hg))
      exact hne ⟨ho.symm, hi.symm⟩
    rw [map_some, Update.on_of_not_guard hg]

variable {n : Nat}

theorem updates_execute (h : db.execute u = .ok (db', n)) : Updates u [] db db' := by
  obtain ⟨hrows, hjournal, -⟩ := execute_ok h
  exact ⟨hrows, by rw [hjournal, List.append_nil]⟩

variable {event : JournalEvent}

theorem record_ok (h : db.record event = .ok db') :
    db' = { db with journal := db.journal ++ [event] } := by
  unfold Db.record at h
  split at h
  · cases h
    rfl
  · cases h

variable {db₁ : Db}

theorem Updates.record (h : Updates u events db db₁) (hrecord : db₁.record event = .ok db') :
    Updates u (events ++ [event]) db db' := by
  rw [record_ok hrecord]
  exact ⟨h.rows, by simp [h.journal]⟩

/-- The row count of an `UPDATE` addressed by primary key. -/
theorem rowcount_of_key (h : db.execute u = .ok (db', n))
    (hguard : ∀ r, u.guard r = true → isKey o i r = true) :
    n = if ((db.find o i).filter u.guard).isSome then 1 else 0 := by
  rw [(execute_ok h).2.2, countP_of_key db hguard]
  cases (db.find o i).filter u.guard <;> rfl

/-- The row count of an `UPDATE` whose whole guard is the primary key. -/
theorem rowcount_of_isKey (h : db.execute u = .ok (db', n)) (hguard : u.guard = isKey o i) :
    n = if (db.find o i).isSome then 1 else 0 := by
  rw [rowcount_of_key h (fun r hr => hguard ▸ hr)]
  cases hfound : db.find o i with
  | none => rfl
  | some r =>
    have hr : u.guard r = true := hguard ▸ Table.sat_of_find? hfound
    simp [Option.filter, hr]

variable {owner taskId : String} {task : DurableTask}

theorem get_ok (h : get owner taskId db = .ok task) :
    ∃ r, db.find owner taskId = some r ∧ task = rowToTask r := by
  unfold get at h
  split at h
  · cases h
  · rename_i r hr
    cases h
    exact ⟨r, hr, rfl⟩

/-! ## Guards that compare a status -/

variable {worker : String}

theorem claimSql_guard_iff {expires now : Stamp} :
    (claimSql owner taskId worker expires now).guard r = true ↔
      isKey owner taskId r = true ∧ r.status = .pending := by
  simp [claimSql]

variable {now : Stamp} {countAttempt : Bool}

theorem claimForRecoverySql_guard_iff :
    (claimForRecoverySql owner taskId countAttempt now).guard r = true ↔
      isKey owner taskId r = true ∧
        (r.status = .running ∨ r.status = .recovering) := by
  simp [claimForRecoverySql]

theorem reviveSql_guard_iff {cls : Option String} :
    (reviveSql owner taskId cls now).guard r = true ↔
      isKey owner taskId r = true ∧ r.status = .failed := by
  simp [reviveSql]

theorem reclaimExpiredSql_guard_iff :
    (reclaimExpiredSql owner now).guard r = true ↔
      (r.ownerId = owner ∧ r.status = .running) ∧
        ∃ expires, r.leaseExpiresAt = some expires ∧ expires ≤ now := by
  cases hlease : r.leaseExpiresAt <;>
    simp [reclaimExpiredSql, expiredLeaseWhere, hlease]

/-! ## Births -/

/-- The database after one `INSERT` and the journal events recorded with it. -/
structure Inserts (r : Row) (events : List JournalEvent) (db db' : Db) :
    Prop where
  free : db.find r.ownerId r.taskId = none
  find : ∀ o i, db'.find o i =
    (db.find o i).or (if isKey o i r then some r else none)
  journal : db'.journal = db.journal ++ events

theorem inserts_insertRow (h : db.insertRow r = .ok db') : Inserts r [] db db' := by
  refine ⟨find_none_of_insertRow h, find_insertRow h, ?_⟩
  unfold Db.insertRow at h
  split at h
  · cases h
  · cases h
    simp

theorem Inserts.record (h : Inserts r events db db₁) (hrecord : db₁.record event = .ok db') :
    Inserts r (events ++ [event]) db db' := by
  rw [record_ok hrecord]
  exact ⟨h.free, h.find, by simp [h.journal]⟩

/-- The journal events of `create`. -/
def createEvents (owner : String) (task : DurableTask) : List JournalEvent :=
  match task.kind with
  | .command =>
    [{ actorId := owner, targetId := task.taskId
       attrs := .commandEnqueued (clip 64 (task.commandType.getD ""))
         (clip 64 (task.context.requesterKind.getD "")) }]
  | .goal => []

theorem create_spec (h : create owner task db = .ok db') :
    Inserts (taskInsertColumns (task.filedUnder owner))
      (createEvents owner task) db db' := by
  unfold create at h
  unfold createEvents
  cases hkind : task.kind with
  | command =>
    simp only [hkind] at h ⊢
    obtain ⟨db₁, hinsert, hrecord⟩ := bind_eq_ok h
    exact (inserts_insertRow hinsert).record hrecord
  | goal =>
    simp only [hkind] at h ⊢
    split at h
    · rename_i howner
      have hsame : task.filedUnder owner = task := by
        rw [← howner, DurableTask.filedUnder]
      rw [hsame]
      exact inserts_insertRow h
    · cases h

/-- The journal event of `enqueue`. -/
def enqueueEvent (owner : String) (task : DurableTask) : JournalEvent :=
  { actorId := owner, targetId := task.taskId
    attrs := .taskEnqueued task.triggerKind task.dependsOn.length
      task.maxAttempts }

private theorem loopContractSql_on_insert (owner : String) (task : DurableTask) :
    (loopContractSql owner task).on
      (taskInsertColumns (task.filedUnder owner)) =
        taskInsertColumns (task.filedUnder owner) := by
  unfold Update.on patch
  split <;> rfl

/-- The loop-contract `UPDATE` of `enqueue` writes the columns the insert already
wrote. -/
theorem enqueue_spec (h : enqueue owner task db = .ok db') :
    Inserts (taskInsertColumns (task.filedUnder owner))
      [enqueueEvent owner task] db db' := by
  obtain ⟨db₁, hinsert, h⟩ := bind_eq_ok h
  obtain ⟨⟨db₂, n⟩, hexec, hrecord⟩ := bind_eq_ok h
  have hins := inserts_insertRow hinsert
  have hupd := updates_execute hexec
  rw [record_ok hrecord]
  refine ⟨hins.free, fun o i => ?_, ?_⟩
  · have hrow : db₂.find o i = (db₁.find o i).map
        (loopContractSql owner task).on := hupd.find o i
    show db₂.find o i = _
    rw [hrow, hins.find]
    cases hfound : db.find o i with
    | none =>
      by_cases hkey : isKey o i
          (taskInsertColumns (task.filedUnder owner)) = true
      · simp [hkey, loopContractSql_on_insert]
      · simp [hkey]
    | some r =>
      have hr : isKey owner task.taskId r = false := by
        by_contra hkey
        have hfree := hins.free
        obtain ⟨ho, hi⟩ := isKey_iff.mp (Bool.not_eq_false _ ▸ hkey)
        have := find_of_mem (mem_of_find hfound)
        rw [ho, hi] at this
        exact absurd (hfree.symm.trans this) (by simp)
      have hguard : (loopContractSql owner task).guard r = false := hr
      simp [Update.on_of_not_guard hguard]
  · simp [hupd.journal, hins.journal, enqueueEvent]

theorem createChildTask_spec {spec : ChildSpec} {record : DurableTask}
    (h : createChildTask owner spec now db = .ok (db', record)) :
    db' = db ∨ Inserts (childRow owner spec now) [] db db' := by
  unfold createChildTask at h
  cases hfound : db.find owner spec.childTaskId with
  | some r =>
    rw [hfound] at h
    obtain ⟨db₁, hsame, h⟩ := bind_eq_ok h
    obtain ⟨task, -, heq⟩ := bind_eq_ok h
    cases hsame
    cases heq
    exact Or.inl rfl
  | none =>
    rw [hfound] at h
    obtain ⟨db₁, hinsert, h⟩ := bind_eq_ok h
    obtain ⟨task, -, heq⟩ := bind_eq_ok h
    cases heq
    exact Or.inr (inserts_insertRow hinsert)

/-! ## Failures -/

/-- The one `UPDATE` of `fail_and_requeue`, either branch. -/
def failSql (owner taskId : String) (row : DurableTask) (call : FailCall) :
    Update :=
  if givesUp row call then deadLetterSql owner taskId row call
  else requeueSql owner taskId row call

/-- The journal events of the writing half of `fail_and_requeue`. -/
def failEvents (owner taskId : String) (row : DurableTask) (call : FailCall)
    (db : Db) : List JournalEvent :=
  if givesUp row call ∧ (db.find owner taskId).isSome then
    [{ actorId := owner, targetId := taskId
       attrs := .taskDeadLettered row.triggerKind (row.attemptCount + 1)
         row.maxAttempts row.leaseOwner (orNone call.failureClass)
         (call.failureClass ∈ call.permanentClasses) none }]
  else
    []

def failStatus (row : DurableTask) (call : FailCall) : TaskStatus :=
  if givesUp row call then .deadLetter else .pending

theorem failSql_guard (owner taskId : String) (row : DurableTask)
    (call : FailCall) :
    (failSql owner taskId row call).guard = isKey owner taskId := by
  unfold failSql
  split <;> rfl

theorem failSql_status (owner taskId : String) (row : DurableTask)
    (call : FailCall) (r : Row) :
    ((failSql owner taskId row call).set r).status = failStatus row call := by
  unfold failSql failStatus
  split <;> rfl

variable {status : TaskStatus} {call : FailCall}

theorem failAndRequeueWith_spec {row : DurableTask}
    (h : failAndRequeueWith owner taskId row call db = .ok (db', status)) :
    Updates (failSql owner taskId row call)
      (failEvents owner taskId row call db) db db' ∧
      status = failStatus row call := by
  unfold failAndRequeueWith at h
  unfold failSql failEvents failStatus
  by_cases hgives : givesUp row call = true
  · simp only [hgives, if_true, true_and] at h ⊢
    obtain ⟨⟨db₁, n⟩, hexec, h⟩ := bind_eq_ok h
    have hcount := rowcount_of_isKey hexec rfl
    have hupd := updates_execute hexec
    by_cases hfound : (db.find owner taskId).isSome = true
    · rw [if_pos hfound] at hcount ⊢
      subst hcount
      obtain ⟨db₂, hrecord, heq⟩ := bind_eq_ok h
      cases heq
      exact ⟨hupd.record hrecord, rfl⟩
    · rw [if_neg hfound] at hcount ⊢
      subst hcount
      cases h
      exact ⟨hupd, rfl⟩
  · simp only [hgives] at h ⊢
    obtain ⟨⟨db₁, n⟩, hexec, h⟩ := bind_eq_ok h
    cases h
    exact ⟨updates_execute hexec, rfl⟩

theorem failAndRequeue_spec (h : failAndRequeue owner taskId call db = .ok (db', status)) :
    ∃ r, db.find owner taskId = some r ∧
      Updates (failSql owner taskId (rowToTask r) call)
        (failEvents owner taskId (rowToTask r) call db) db db' ∧
      status = failStatus (rowToTask r) call := by
  obtain ⟨task, hget, h⟩ := bind_eq_ok h
  obtain ⟨r, hr, rfl⟩ := get_ok hget
  exact ⟨r, hr, failAndRequeueWith_spec h⟩

/-! ## Status writes -/

/-- `update_status` on the row it reads: held open, handed to
`fail_and_requeue`, or written as asked. -/
def statusSql (owner taskId : String) (status : TaskStatus)
    (fields : StatusFields) (r : Row) : Update :=
  let status := heldStatus status fields (r.owesDelivery fields.readFails)
  if status = .failed ∧ fields.terminal = false then
    failSql owner taskId (rowToTask r) fields.failCall
  else
    updateStatusSql owner taskId status fields

/-- `statusSql` as one `UPDATE`. -/
def statusUpdate (owner taskId : String) (status : TaskStatus)
    (fields : StatusFields) : Update where
  guard := isKey owner taskId
  set r := (statusSql owner taskId status fields r).set r
  keepsKey r := (statusSql owner taskId status fields r).keepsKey r

/-- The journal events of `update_status`: those of the failure it hands on. -/
def statusEvents (owner taskId : String) (status : TaskStatus)
    (fields : StatusFields) (db : Db) : List JournalEvent :=
  match db.find owner taskId with
  | none => []
  | some r =>
    if heldStatus status fields (r.owesDelivery fields.readFails) = .failed ∧
        fields.terminal = false then
      failEvents owner taskId (rowToTask r) fields.failCall db
    else
      []

/-- A guard that is the primary key makes a statement depend on its row alone:
statements that agree on that row have one effect. -/
theorem Updates.congr {v : Update} (h : Updates u events db db') (hu : u.guard = isKey o i)
    (hv : v.guard = isKey o i) (hset : ∀ r, db.find o i = some r → u.set r = v.set r) :
    Updates v events db db' := by
  refine ⟨?_, h.journal⟩
  rw [h.rows]
  apply List.map_congr_left
  intro r hr
  unfold Update.on patch
  rw [hu, hv]
  by_cases hkey : isKey o i r = true
  · obtain ⟨ho, hi⟩ := isKey_iff.mp hkey
    have hfound := find_of_mem hr
    rw [ho, hi] at hfound
    simp [hkey, hset r hfound]
  · simp [hkey]

theorem updateStatus_spec {fields : StatusFields} {written : TaskStatus}
    (h : updateStatus owner taskId status fields db = .ok (db', written)) :
    ∃ r, db.find owner taskId = some r ∧
      Updates (statusUpdate owner taskId status fields)
        (statusEvents owner taskId status fields db) db db' ∧
      written = ((statusUpdate owner taskId status fields).set r).status := by
  unfold updateStatus at h
  cases hfound : db.find owner taskId with
  | none =>
    simp only [requireOwned, hfound] at h
    split at h <;> cases h
  | some r =>
    have hrow : ∀ r', db.find owner taskId = some r' → r' = r := by
      intro r' hr'
      rw [hfound] at hr'
      exact (Option.some.inj hr').symm
    have howes : owesDelivery owner taskId fields.readFails db =
        r.owesDelivery fields.readFails := by
      simp [owesDelivery, hfound]
    simp only [requireOwned, hfound, howes] at h
    refine ⟨r, rfl, ?_⟩
    by_cases hfail : heldStatus status fields (r.owesDelivery fields.readFails) = .failed ∧
        fields.terminal = false
    · rw [if_pos hfail] at h
      obtain ⟨_, -, h⟩ := bind_eq_ok h
      obtain ⟨r', hr', hupd, hwritten⟩ := failAndRequeue_spec h
      obtain rfl := hrow r' hr'
      have hset : statusSql owner taskId status fields r' =
          failSql owner taskId (rowToTask r') fields.failCall := by
        simp [statusSql, hfail]
      refine ⟨?_, ?_⟩
      · have hevents : statusEvents owner taskId status fields db =
            failEvents owner taskId (rowToTask r') fields.failCall db := by
          simp [statusEvents, hfound, hfail]
        rw [hevents]
        apply hupd.congr (failSql_guard ..) rfl
        intro r'' hr''
        obtain rfl := hrow r'' hr''
        simp [statusUpdate, hset]
      · rw [hwritten]
        simp [statusUpdate, hset, failSql_status]
    · rw [if_neg hfail] at h
      obtain ⟨_, -, h⟩ := bind_eq_ok h
      obtain ⟨⟨db₁, n⟩, hexec, heq⟩ := bind_eq_ok h
      cases heq
      have hset : statusSql owner taskId status fields r =
          updateStatusSql owner taskId
            (heldStatus status fields (r.owesDelivery fields.readFails)) fields := by
        simp [statusSql, hfail]
      refine ⟨?_, ?_⟩
      · have hevents : statusEvents owner taskId status fields db = [] := by
          simp [statusEvents, hfound, hfail]
        rw [hevents]
        apply (updates_execute hexec).congr rfl rfl
        intro r'' hr''
        obtain rfl := hrow r'' hr''
        simp [statusUpdate, hset]
      · simp [statusUpdate, hset, updateStatusSql]

theorem setDependencies_spec {dependsOn : List String}
    (h : setDependencies owner taskId dependsOn now db = .ok db') :
    Updates (setDependenciesSql owner taskId dependsOn now) [] db db' := by
  obtain ⟨_, -, h⟩ := bind_eq_ok h
  obtain ⟨⟨db₁, n⟩, hexec, heq⟩ := bind_eq_ok h
  cases heq
  exact updates_execute hexec

theorem saveCheckpoint_spec {blob : String} (h : saveCheckpoint owner taskId blob db = .ok db') :
    Updates (saveCheckpointSql owner taskId blob) [] db db' := by
  obtain ⟨_, -, h⟩ := bind_eq_ok h
  obtain ⟨⟨db₁, n⟩, hexec, heq⟩ := bind_eq_ok h
  cases heq
  exact updates_execute hexec

def parkEvent (owner taskId commandType requesterKind outcome
    payloadSummary : String) : JournalEvent :=
  { actorId := owner, targetId := taskId
    attrs := .commandPendingApproval (clip 64 commandType)
      (clip 64 requesterKind) (clip 64 outcome) (clip 256 payloadSummary) }

theorem parkForDecision_spec {commandType requesterKind outcome payloadSummary : String}
    (h : parkForDecision owner taskId commandType requesterKind outcome payloadSummary now db =
      .ok db') :
    Updates (parkSql owner taskId outcome now)
      [parkEvent owner taskId commandType requesterKind outcome payloadSummary]
      db db' := by
  obtain ⟨⟨db₁, n⟩, hexec, hrecord⟩ := bind_eq_ok h
  exact (updates_execute hexec).record hrecord

/-! ## Leases and recovery -/

def claimWins (owner taskId : String) (db : Db) : Bool :=
  (db.find owner taskId).any (fun r => r.status == .pending)

/-- The journal events of `claim`. -/
def claimEvents (owner taskId worker : String) (leaseSeconds : Int) (db : Db) :
    List JournalEvent :=
  if claimWins owner taskId db then
    [{ actorId := worker, targetId := taskId
       attrs := .taskClaimed worker leaseSeconds }]
  else
    []

theorem claim_spec {leaseSeconds : Int} {won : Bool}
    (h : claim owner taskId worker leaseSeconds now db = .ok (db', won)) :
    Updates (claimSql owner taskId worker (now + seconds leaseSeconds) now)
      (claimEvents owner taskId worker leaseSeconds db) db db' ∧
      won = claimWins owner taskId db := by
  unfold claim at h
  unfold claimEvents
  obtain ⟨⟨db₁, n⟩, hexec, h⟩ := bind_eq_ok h
  have hupd := updates_execute hexec
  have hcount := rowcount_of_key hexec (o := owner) (i := taskId)
    (fun r hr => (Bool.and_eq_true _ _ ▸ hr).1)
  have hwins : ((db.find owner taskId).filter
      (claimSql owner taskId worker (now + seconds leaseSeconds) now).guard).isSome
        = claimWins owner taskId db := by
    unfold claimWins
    cases hfound : db.find owner taskId with
    | none => rfl
    | some r =>
      have hkey : isKey owner taskId r = true := Table.sat_of_find? hfound
      cases hstatus : r.status == .pending <;>
        simp [Option.filter, claimSql, hkey, hstatus]
  rw [hwins] at hcount
  by_cases hw : claimWins owner taskId db = true
  · rw [if_pos hw] at hcount ⊢
    subst hcount
    obtain ⟨db₂, hrecord, heq⟩ := bind_eq_ok h
    cases heq
    exact ⟨hupd.record hrecord, hw.symm⟩
  · rw [if_neg hw] at hcount ⊢
    subst hcount
    cases h
    exact ⟨hupd, by simpa using hw⟩

def recoverable (owner taskId : String) (db : Db) : Bool :=
  (db.find owner taskId).any
    (fun r => r.status == .running || r.status == .recovering)

theorem claimForRecovery_spec {claimed : Bool}
    (h : claimForRecovery owner taskId countAttempt now db = .ok (db', claimed)) :
    Updates (claimForRecoverySql owner taskId countAttempt now) [] db db' ∧
      claimed = recoverable owner taskId db := by
  unfold claimForRecovery at h
  obtain ⟨⟨db₁, n⟩, hexec, h⟩ := bind_eq_ok h
  have hcount := rowcount_of_key hexec (o := owner) (i := taskId)
    (fun r hr => (Bool.and_eq_true _ _ ▸ hr).1)
  cases h
  refine ⟨updates_execute hexec, ?_⟩
  rw [hcount]
  unfold recoverable
  cases hfound : db.find owner taskId with
  | none => rfl
  | some r =>
    have hkey : isKey owner taskId r = true := Table.sat_of_find? hfound
    cases hstatus : r.status == .running || r.status == .recovering <;>
      simp [Option.filter, claimForRecoverySql, hkey, hstatus]

/-! ## Completion -/

/-- The journal events of `mark_delivered` for the row it matched. -/
def deliveredEvents (owner taskId : String) (db : Db) : List JournalEvent :=
  match db.find owner taskId with
  | none => []
  | some r =>
    { actorId := owner, targetId := taskId
      attrs := .taskFinished "delivered" } ::
    if r.kind = .command ∧ truthy r.commandType then
      [{ actorId := owner, targetId := taskId
         attrs := .commandCompleted (clip 64 (r.commandType.getD "")) }]
    else
      []

variable {result : String}

theorem markDelivered_spec (h : markDelivered owner taskId result now db = .ok db') :
    Updates (markDeliveredSql owner taskId result now)
      (deliveredEvents owner taskId db) db db' := by
  obtain ⟨⟨db₁, n⟩, hexec, h⟩ := bind_eq_ok h
  have hupd := updates_execute hexec
  unfold deliveredEvents
  cases hfound : db.find owner taskId with
  | none =>
    have hrow := hupd.find owner taskId
    rw [hfound] at hrow
    simp only [hrow, map_none] at h ⊢
    cases h
    exact hupd
  | some r =>
    have hkey : isKey owner taskId r = true := Table.sat_of_find? hfound
    have hrow := hupd.find_matched hfound hkey
    simp only [hrow] at h ⊢
    obtain ⟨db₂, hrecord, h⟩ := bind_eq_ok h
    have hfinished := hupd.record hrecord
    by_cases hcommand : r.kind = .command ∧ truthy r.commandType = true
    · rw [if_pos hcommand]
      rw [if_pos (by exact hcommand)] at h
      exact hfinished.record h
    · rw [if_neg hcommand]
      rw [if_neg (by exact hcommand)] at h
      cases h
      exact hfinished

def unaddressedEvents (owner taskId : String) (db : Db) : List JournalEvent :=
  if (db.find owner taskId).isSome then
    [{ actorId := owner, targetId := taskId
       attrs := .taskFinished "unaddressed" }]
  else
    []

theorem markCompletedUnaddressed_spec
    (h : markCompletedUnaddressed owner taskId result now db = .ok db') :
    Updates (markCompletedUnaddressedSql owner taskId result now)
      (unaddressedEvents owner taskId db) db db' := by
  obtain ⟨⟨db₁, n⟩, hexec, h⟩ := bind_eq_ok h
  have hupd := updates_execute hexec
  have hcount := rowcount_of_isKey hexec rfl
  unfold unaddressedEvents
  by_cases hfound : (db.find owner taskId).isSome = true
  · rw [if_pos hfound] at hcount ⊢
    subst hcount
    exact hupd.record h
  · rw [if_neg hfound] at hcount ⊢
    subst hcount
    cases h
    exact hupd

/-! ## The cascade and the prune -/

def cascadeEvents (owner taskId : String) (cascading : DurableTask)
    (failed : List String) (db : Db) : List JournalEvent :=
  if (db.find owner taskId).isSome then
    [{ actorId := owner, targetId := taskId
       attrs := .taskDeadLettered cascading.triggerKind cascading.attemptCount
         cascading.maxAttempts cascading.leaseOwner (some "dependency_failed")
         true (some (",".intercalate failed)) }]
  else
    []

theorem cascadeWith_spec {cascading : DurableTask} {failed : List String}
    (h : cascadeWith owner taskId cascading failed now db = .ok db') :
    Updates (cascadeSql owner taskId failed now)
      (cascadeEvents owner taskId cascading failed db) db db' := by
  obtain ⟨⟨db₁, n⟩, hexec, h⟩ := bind_eq_ok h
  have hupd := updates_execute hexec
  have hcount := rowcount_of_isKey hexec rfl
  unfold cascadeEvents
  by_cases hfound : (db.find owner taskId).isSome = true
  · rw [if_pos hfound] at hcount ⊢
    subst hcount
    exact hupd.record h
  · rw [if_neg hfound] at hcount ⊢
    subst hcount
    cases h
    exact hupd

def pruned (owner : String) (olderThan commandOlderThan : Int) (now : Stamp)
    (r : Row) : Bool :=
  prunedGoal owner olderThan now r || prunedCommand owner commandOlderThan now r

theorem pruneCompleted_find (owner : String) (olderThan commandOlderThan : Int)
    (now : Stamp) (db : Db) (o i : String) :
    (pruneCompleted owner olderThan commandOlderThan now db).1.find o i =
      (db.find o i).filter
        (fun r => !pruned owner olderThan commandOlderThan now r) := by
  have hgoal := find_deleteWhere db (prunedGoal owner olderThan now) o i
  have hcommand := find_deleteWhere
    { db with tasks := db.tasks.deleteWhere (prunedGoal owner olderThan now) }
    (prunedCommand owner commandOlderThan now) o i
  rw [hgoal] at hcommand
  apply hcommand.trans
  cases db.find o i with
  | none => rfl
  | some r =>
    cases hg : prunedGoal owner olderThan now r <;>
      simp [Option.filter, pruned, hg]

end StackOwl.Durable
