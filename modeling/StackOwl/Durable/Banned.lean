import StackOwl.Durable.Runs
import StackOwl.Lib.Text

/-!
# Banned capabilities

`fail_and_requeue` adds the names a failed attempt reports to those of the row, and keeps
them as one comma-joined column.  An observer notes the names reported for a row by the
calls that commit, as long as the row lives.

## Main results

* `mem_split` — what is read from a column is never empty and has no comma.
* `banned_accumulate` — in a run that reports such names only, and whose failures write
  on top of what the row holds, the row holds the union of the reports.
-/

namespace StackOwl.Durable

open Lib

/-! ## Names in a column -/

def Listable (name : String) : Prop := name ≠ "" ∧ ',' ∉ name.toList

instance (name : String) : Decidable (Listable name) :=
  inferInstanceAs (Decidable (_ ∧ _))

variable {name : String}

/-- **What is read from a column** is never empty and has no comma. -/
theorem mem_split {column : Option String} (h : name ∈ split column) :
    Listable name := by
  cases column with
  | none => cases h
  | some text =>
    simp only [split, List.mem_filter, List.mem_map, decide_eq_true_eq] at h
    obtain ⟨⟨piece, hpiece, rfl⟩, hne⟩ := h
    refine ⟨hne, ?_⟩
    rw [String.toList_ofList]
    exact not_mem_of_mem_splitOn hpiece

/-- The banned capabilities `_row_to_task` reads. -/
def bannedOf (r : Row) : List String := (rowToTask r).bannedCapabilities

variable {row : DurableTask} {banned : List String}

theorem mem_mergeBanned :
    name ∈ mergeBanned row banned ↔ name ∈ row.bannedCapabilities ∨ name ∈ banned := by
  rw [mergeBanned, List.mem_insertionSort, List.mem_dedup, List.mem_append]

theorem nodup_mergeBanned (row : DurableTask) (banned : List String) :
    (mergeBanned row banned).Nodup :=
  (List.perm_insertionSort _ _).nodup_iff.mpr (List.nodup_dedup _)

variable (owner taskId : String)

theorem failSql_banned (row : DurableTask) (call : FailCall) (r : Row)
    : ((failSql owner taskId row call).set r).bannedCapabilities =
      join (mergeBanned row call.banned) := by
  unfold failSql
  split <;> rfl

variable {r : Row} {call : FailCall}

/-- What a failure leaves of a row, where it was told names a list can hold. -/
theorem bannedOf_failSql (hfresh : row.bannedCapabilities = bannedOf r)
    (hnames : ∀ name ∈ call.banned, Listable name) :
    bannedOf ((failSql owner taskId row call).set r) = mergeBanned row call.banned := by
  show split ((failSql owner taskId row call).set r).bannedCapabilities = _
  rw [failSql_banned]
  apply split_join
  intro name hname
  rcases mem_mergeBanned.mp hname with hold | hnew
  · rw [hfresh] at hold
    exact mem_split hold
  · exact hnames name hnew

/-! ## What is reported -/

/-- The names an operation reports for the row of the key: those of a
`fail_and_requeue` that commits. -/
def reportedBy (db : Db) : Op → List String
  | .failAndRequeue o i row call =>
    if o = owner ∧ i = taskId then
      match (Op.failAndRequeue o i row call).transaction db with
      | .error _ => []
      | .ok _ => call.banned
    else []
  | _ => []

/-- The observer of one key: the names reported for its row since it was inserted. -/
def noteReported (db : Db) (names : List String) (op : Op) :
    List String :=
  match (step db op).find owner taskId with
  | none => []
  | some _ => names ++ reportedBy owner taskId db op

/-- The column reads back as the names, each of them once. -/
def HoldsExactly (r : Row) (names : List String) : Prop :=
  (bannedOf r).Nodup ∧ ∀ name, name ∈ bannedOf r ↔ name ∈ names

/-- The row, while it is there, reads back as the reported names. -/
def Accumulated (s : Db × List String) : Prop :=
  ∀ r, s.1.find owner taskId = some r → HoldsExactly r s.2

/-- A failure of the row reports names a comma list can hold, and was computed from the
banned capabilities the row still has. -/
def ReportsListable (s : Db × List String) (op : Op) : Prop :=
  ∀ row call, op = .failAndRequeue owner taskId row call →
    (∀ name ∈ call.banned, Listable name) ∧
      ∀ r, s.1.find owner taskId = some r → row.bannedCapabilities = bannedOf r

/-- The observer's notes are those of the row that is there. -/
structure Noted (owner taskId : String) (s : Db × List String) : Prop where
  accumulated : Accumulated owner taskId s
  unborn : s.1.find owner taskId = none → s.2 = []

/-! ## What a step does to the column -/

variable {r' : Row}

theorem HoldsExactly.of_merge {names : List String} (h : HoldsExactly r names)
    (hfresh : row.bannedCapabilities = bannedOf r) (hr' : bannedOf r' = mergeBanned row banned) :
    HoldsExactly r' (names ++ banned) := by
  unfold HoldsExactly
  rw [hr']
  refine ⟨nodup_mergeBanned row banned, fun name => ?_⟩
  rw [mem_mergeBanned, hfresh, List.mem_append, h.2 name]

variable {names : List String}

theorem HoldsExactly.of_column (h : HoldsExactly r names)
    (hr' : r'.bannedCapabilities = r.bannedCapabilities) : HoldsExactly r' names := by
  have hsame : bannedOf r' = bannedOf r := congrArg split hr'
  unfold HoldsExactly
  rw [hsame]
  exact h

variable {op : Op}

/-- Only a failure writes the column; the one `update_status` hands on reports nothing. -/
theorem holdsExactly_update {u : Update} (h : HoldsExactly r names) (hop : op.effect = .update u)
    (hfail : ∀ o i row call, op ≠ .failAndRequeue o i row call) :
    HoldsExactly (u.set r) names := by
  cases op with
  | updateStatus o i status fields =>
    cases hop
    show HoldsExactly ((statusSql o i status fields r).set r) names
    unfold statusSql
    dsimp only
    split
    · have hmerged : bannedOf ((failSql o i (rowToTask r) fields.failCall).set r) =
          mergeBanned (rowToTask r) fields.failCall.banned :=
        bannedOf_failSql o i rfl (by simp [StatusFields.failCall])
      have hholds := h.of_merge rfl hmerged
      rwa [show fields.failCall.banned = [] from rfl, List.append_nil] at hholds
    · exact h.of_column rfl
  | failAndRequeue o i row call => exact absurd rfl (hfail o i row call)
  | claimForRecovery o i countAttempt now =>
    cases hop
    apply h.of_column
    unfold claimForRecoverySql
    cases countAttempt <;> rfl
  | _ =>
    first
    | cases hop
      exact h.of_column rfl
    | cases hop

variable {owner taskId} {db : Db}

/-- A `fail_and_requeue` of the row adds what it reports where it commits, and does
nothing where it does not. -/
theorem accumulated_fail (hr : db.find owner taskId = some r) (h : HoldsExactly r names)
    (hnames : ∀ name ∈ call.banned, Listable name) (hfresh : row.bannedCapabilities = bannedOf r) :
    ∃ r', (step db (.failAndRequeue owner taskId row call)).find owner taskId = some r' ∧
      HoldsExactly r'
        (names ++ reportedBy owner taskId db (.failAndRequeue owner taskId row call)) := by
  simp only [reportedBy, and_self, if_true, step]
  cases hrun : (Op.failAndRequeue owner taskId row call).transaction db with
  | error e =>
    refine ⟨r, hr, ?_⟩
    rwa [List.append_nil]
  | ok db' =>
    obtain ⟨⟨db₁, status⟩, hwith, heq⟩ := bind_eq_ok hrun
    cases heq
    have hguard : (failSql owner taskId row call).guard r = true := by
      rw [failSql_guard]
      exact isKey_iff.mpr (key_of_find hr)
    exact ⟨_, (failAndRequeueWith_spec hwith).1.find_matched hr hguard,
      h.of_merge hfresh (bannedOf_failSql owner taskId hfresh hnames)⟩

theorem reportedBy_eq_nil (h : ¬ ∃ row call, op = .failAndRequeue owner taskId row call) :
    reportedBy owner taskId db op = [] := by
  cases op with
  | failAndRequeue o i row call =>
    have hkey : ¬ (o = owner ∧ i = taskId) := by
      intro hkey
      obtain ⟨rfl, rfl⟩ := hkey
      exact h ⟨row, call, rfl⟩
    exact if_neg hkey
  | _ => rfl

theorem bannedOf_born (hop : op.effect = .insert r) :
    bannedOf r = [] := by
  cases op with
  | create => cases hop; rfl
  | enqueue => cases hop; rfl
  | createChildTask => cases hop; rfl
  | _ => cases hop

theorem accumulated_other (hr : db.find owner taskId = some r)
    (hr' : (step db op).find owner taskId = some r') (h : HoldsExactly r names)
    (hother : ¬ ∃ row call, op = .failAndRequeue owner taskId row call) :
    HoldsExactly r' names := by
  have hset : ∀ u, op.effect = .update u → u.guard r = true →
      HoldsExactly (u.set r) names := by
    intro u hop hguard
    apply holdsExactly_update h hop
    intro o i row call heq
    subst heq
    cases hop
    rw [failSql_guard, isKey_iff] at hguard
    obtain ⟨ho, hi⟩ := key_of_find hr
    apply hother
    rw [← hguard.1, ← hguard.2, ho, hi]
    exact ⟨row, call, rfl⟩
  rcases step_keeps (P := (HoldsExactly · names)) hr h hset with ⟨r₁, hr₁, hholds⟩ | hnone
  · rw [hr'] at hr₁
    cases hr₁
    exact hholds
  · rw [hr'] at hnone
    cases hnone

/-- **A step keeps the notes and the row together.** -/
theorem noted_step (s : Db × List String) (op : Op) (h : Noted owner taskId s)
    (hop : ReportsListable owner taskId s op) :
    Noted owner taskId (watch step (noteReported owner taskId) s op) := by
  obtain ⟨db, names⟩ := s
  simp only [watch, noteReported]
  cases hafter : (step db op).find owner taskId with
  | none =>
    refine ⟨fun r hr => ?_, fun _ => rfl⟩
    rw [hafter] at hr
    cases hr
  | some r' =>
    refine ⟨fun r hr => ?_, fun hnone => ?_⟩
    · rw [hafter] at hr
      cases hr
      cases hbefore : db.find owner taskId with
      | none =>
        have hborn := step_birth hbefore hafter
        have hreport : reportedBy owner taskId db op = [] := by
          apply reportedBy_eq_nil
          intro hfail
          obtain ⟨row, call, rfl⟩ := hfail
          cases hborn
        have hnames : names = [] := h.unborn hbefore
        show HoldsExactly r' (names ++ reportedBy owner taskId db op)
        rw [hnames, hreport, HoldsExactly, bannedOf_born hborn]
        simp
      | some r =>
        have hholds := h.accumulated r hbefore
        by_cases hfail : ∃ row call, op = .failAndRequeue owner taskId row call
        · obtain ⟨row, call, rfl⟩ := hfail
          obtain ⟨hnames, hfresh⟩ := hop row call rfl
          obtain ⟨r₁, hr₁, hadded⟩ :=
            accumulated_fail hbefore hholds hnames (hfresh r hbefore)
          rw [hafter] at hr₁
          cases hr₁
          exact hadded
        · show HoldsExactly r' (names ++ reportedBy owner taskId db op)
          rw [reportedBy_eq_nil hfail, List.append_nil]
          exact accumulated_other hbefore hafter hholds hfail
    · rw [hafter] at hnone
      cases hnone

/-- **Banned capabilities accumulate** in every run that reports names a comma list can
hold only, and whose failures of the row write on top of what it holds: in every state
reached, the row reads back as the names reported for it, each of them once. -/
theorem banned_accumulate (owner taskId : String) (ops : List Op)
    (h : Meets (watch step (noteReported owner taskId)) (ReportsListable owner taskId)
      (Db.fresh, []) ops) :
    Along (watch step (noteReported owner taskId)) (Accumulated owner taskId)
      (Db.fresh, []) ops := by
  have hstart : Noted owner taskId (Db.fresh, []) := by
    refine ⟨fun r hr => ?_, fun _ => rfl⟩
    cases hr
  have hstep : ∀ (s : Db × List String) (op : Op), Noted owner taskId s →
      ReportsListable owner taskId s op →
        Noted owner taskId (watch step (noteReported owner taskId) s op) := noted_step
  exact (along_of_meets hstep hstart h).mono fun _ hnoted => hnoted.accumulated

def failingTask : DurableTask where
  taskId := "report"
  goal := "write the report"
  status := .pending
  createdAt := 0
  updatedAt := 0

/-- One attempt fails and reports a name with a comma. -/
def commaRun : List Op :=
  [.enqueue DEFAULT_PRINCIPAL_ID failingTask,
   .failAndRequeue DEFAULT_PRINCIPAL_ID "report" failingTask
     { error := "no such tool", banned := ["mcp:read,write"], now := 1 }]

/-- The row reads back two names nobody reported. -/
theorem comma_name_split :
    ¬ Along (watch step (noteReported DEFAULT_PRINCIPAL_ID "report"))
      (Accumulated DEFAULT_PRINCIPAL_ID "report") (Db.fresh, []) commaRun := by
  intro h
  have hread := (h.last _ rfl).2 "mcp:read,write"
  exact absurd (hread.mpr (by decide)) (by decide)

/-- Two attempts fail, the second one after a claim, with one name in common. -/
theorem banned_accumulate_twice :
    Along (watch step (noteReported DEFAULT_PRINCIPAL_ID "report"))
      (Accumulated DEFAULT_PRINCIPAL_ID "report") (Db.fresh, [])
      [.enqueue DEFAULT_PRINCIPAL_ID failingTask,
       .failAndRequeue DEFAULT_PRINCIPAL_ID "report" failingTask
         { error := "refused", banned := ["shell"], now := 1 },
       .claim DEFAULT_PRINCIPAL_ID "report" "worker" 60 10000000,
       .failAndRequeue DEFAULT_PRINCIPAL_ID "report"
         { failingTask with bannedCapabilities := ["shell"] }
         { error := "refused", banned := ["browser", "shell"], now := 20000000 }] := by
  apply banned_accumulate
  refine ⟨?_, ?_, ?_, ?_, trivial⟩
  · intro row call heq
    cases heq
  · intro row call heq
    cases heq
    refine ⟨by decide, fun r hr => ?_⟩
    cases hr
    decide
  · intro row call heq
    cases heq
  · intro row call heq
    cases heq
    refine ⟨by decide, fun r hr => ?_⟩
    cases hr
    decide

end StackOwl.Durable
