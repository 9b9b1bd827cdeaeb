import StackOwl.Db.Migrations

/-!
# What the ledger says

The transaction of a file holds, at each of its statements, what the statements so far make of
the database; so that what is committed is what the file makes of it, row and version with it.
Whether the ledger goes on telling the truth is decided where a file is taken for one that was
applied, and at the `COMMIT` of a file.

## Main results

* `ledger_iff` — what `schema_migrations` and `schema_version` say is true in every state of
  exactly the runs in which no version is of two files, files come in the order of their
  versions, and no file writes to the ledger.
* `ledger_misled` — runs in which a file is taken for another, and in which `schema_version` goes
  back.
-/

namespace StackOwl.Db

open Durable Lib List Option

universe u v

/-! ## The two tables -/

namespace Database

variable {R : Type u} {db db' : Database R}

@[simp] theorem applied_create (db : Database R) : db.create.applied = db.applied := by
  unfold applied create
  cases db.schemaMigrations <;> rfl

theorem applied_ensureSqlChecksumColumn (h : db.ensureSqlChecksumColumn = some db') :
    db'.applied = db.applied ∧ db'.schemaVersion = db.schemaVersion := by
  obtain ⟨table, htable, rfl⟩ := map_eq_some_iff.mp h
  split
  · exact ⟨rfl, rfl⟩
  · refine ⟨?_, rfl⟩
    unfold applied
    rw [htable]
    simp

@[simp] theorem applied_baseline (db : Database R) (checksums : List (String × String)) :
    (db.baseline checksums).applied = db.applied := by
  unfold applied baseline
  cases db.schemaMigrations <;> simp

theorem applied_record {row : MigrationRow} (h : db.record row = some db') :
    db'.applied = db.applied ++ [(row.version, row.name)] := by
  obtain ⟨table, htable, hrecord⟩ := bind_eq_some_iff.mp h
  split at hrecord
  · cases hrecord
  · cases hrecord
    unfold applied
    rw [htable]
    simp

variable {version now : String}

theorem applied_setSchemaVersion (h : db.setSchemaVersion version now = some db')
    : db'.applied = db.applied := by
  obtain ⟨rows, -, rfl⟩ := map_eq_some_iff.mp h
  rfl

theorem schemaVersion_setSchemaVersion (h : db.setSchemaVersion version now = some db')
    : db'.schemaVersion = some version := by
  obtain ⟨rows, -, rfl⟩ := map_eq_some_iff.mp h
  unfold schemaVersion
  simp only [elim_some, id_eq]
  clear h
  induction rows with
  | nil => rfl
  | cons row rows ih =>
    by_cases hkey : row.key = "schema_version"
    · simp [hkey]
    · simp only [any_cons, hkey, beq_iff_eq, Bool.or_eq_true, false_or, map_cons,
        if_false, cons_append] at ih ⊢
      split at ih
      · rename_i hany
        rw [if_pos hany, findSome?_cons]
        simpa [hkey] using ih
      · rename_i hany
        rw [if_neg hany, findSome?_cons]
        simpa [hkey] using ih

end Database

/-! ## A file -/

section
variable {R : Type u} {Env : Type v} {isalpha : Char → Bool}
  {execute : String → Env → Database R → Option (Database R × Nat)}

theorem runStatements_append (xs ys : List (String × Env)) (db : Database R) :
    runStatements execute (xs ++ ys) db =
      (runStatements execute xs db).bind (runStatements execute ys) := by
  induction xs generalizing db with
  | nil => rfl
  | cons x xs ih =>
    simp only [cons_append, runStatements]
    cases execute x.1 x.2 db with
    | none => rfl
    | some result => exact ih result.1

variable {db db' : Database R} {c : Commit Env}

theorem replayed_concat {commits : List (Commit Env)} {db'' : Database R}
    (h : replayed isalpha execute commits db = some db')
    (hc : c.effect isalpha execute db' = some db'') :
    replayed isalpha execute (commits ++ [c]) db = some db'' := by
  unfold replayed at h ⊢
  rw [foldlM_append, h]
  simp [hc]

theorem appliedFiles_concat (commits : List (Commit Env)) (c : Commit Env) :
    appliedFiles (commits ++ [c]) = appliedFiles commits ++ appliedFiles [c] :=
  filterMap_append

/-- What the transaction of a boot has made of the database. -/
def PhaseHolds (isalpha : Char → Bool)
    (execute : String → Env → Database R → Option (Database R × Nat)) (disk : Database R) :
    Phase R Env → Prop
  | .statements tx todo => ∃ done, splitSql isalpha true tx.file.sql = some (done ++ todo) ∧
      done.length = tx.envs.length ∧
      runStatements execute (done.zip tx.envs) disk = some tx.working
  | .recording tx => fileEffect isalpha execute tx.file tx.envs disk = some tx.working
  | .pointing tx appliedAt => ∃ db, fileEffect isalpha execute tx.file tx.envs disk = some db ∧
      db.record (migrationRow tx.file appliedAt) = some tx.working
  | .committing tx appliedAt updatedAt =>
    (Commit.applied tx.file tx.envs appliedAt updatedAt).effect isalpha execute disk =
      some tx.working
  | _ => True

/-- The database is what was committed, and the transaction of a boot what its file makes of it
so far. -/
structure MigrationInv (isalpha : Char → Bool)
    (execute : String → Env → Database R → Option (Database R × Nat)) (rest₀ : R)
    (w : MigrationWorld R Env) : Prop where
  replayed : replayed isalpha execute w.commits { rest := rest₀ } = some w.disk
  whole : ∀ file ∈ appliedFiles w.commits, ∃ stmts, splitSql isalpha true file.sql = some stmts ∧
    solid (stmts.flatMap String.toList) = solid file.sql.toList
  phase : ∀ b ∈ w.boot, PhaseHolds isalpha execute w.disk b.phase

theorem MigrationInv.init (rest₀ : R) :
    MigrationInv isalpha execute rest₀ { disk := { rest := rest₀ } } where
  replayed := rfl
  whole := fun _ h => by cases h
  phase := fun _ h => by cases h

/-! ## What a step does -/

inductive Effect (isalpha : Char → Bool)
    (execute : String → Env → Database R → Option (Database R × Nat))
    (w : MigrationWorld R Env) (op : MigrationOp Env) (w' : MigrationWorld R Env) : Prop where
  /-- It writes nothing, and no file is counted. -/
  | quiet (hdisk : w'.disk = w.disk) (hcommits : w'.commits = w.commits)
      (hcounted : w'.counted = w.counted) (hsound : Sound isalpha execute w op)
  /-- A file is taken for one that was applied. -/
  | skips (file : MigrationFile)
      (hversion : file.version ∈ w.disk.applied.map Prod.fst)
      (hdisk : w'.disk = w.disk) (hcommits : w'.commits = w.commits)
      (hcounted : w'.counted = w.counted ++
        [{ version := file.version, name := file.name, action := .skipped }])
      (hsound : Sound isalpha execute w op ↔
        ∀ row ∈ w.disk.applied, row.1 = file.version → row.2 = file.name)
  /-- The runner writes to its own table. -/
  | keeps (c : Commit Env) (hc : c.effect isalpha execute w.disk = some w'.disk)
      (hfile : appliedFiles [c] = []) (hcommits : w'.commits = w.commits ++ [c])
      (hcounted : w'.counted = w.counted) (happlied : w'.disk.applied = w.disk.applied)
      (hpointer : w'.disk.schemaVersion = w.disk.schemaVersion)
      (hends : w'.boot = none → w'.returned ≠ w.returned)
      (hsound : Sound isalpha execute w op)
  /-- A file is committed. -/
  | applies (file : MigrationFile) (envs : List Env) (appliedAt updatedAt : String)
      (changed : List Nat)
      (hc : (Commit.applied file envs appliedAt updatedAt).effect isalpha execute w.disk =
        some w'.disk)
      (hcommits : w'.commits = w.commits ++ [.applied file envs appliedAt updatedAt])
      (hcounted : w'.counted = w.counted ++
        [{ version := file.version, name := file.name, action := .applied,
           rowsChanged := changed }])
      (hboot : w'.boot.isSome)
      (hsound : Sound isalpha execute w op ↔
        (∀ db ∈ fileEffect isalpha execute file envs w.disk, db.applied = w.disk.applied) ∧
          ∀ row ∈ w.disk.applied, row.1 < file.version)

variable {rest₀ : R} {w : MigrationWorld R Env}

theorem Effect.raises (op : MigrationOp Env) (hsound : Sound isalpha execute w op) :
    Effect isalpha execute w op w.raises :=
  .quiet rfl rfl rfl hsound

section

variable (h : MigrationInv isalpha execute rest₀ w)

include h

theorem MigrationInv.proceed_effect {b : Boot R Env} (hb : w.boot = some b) (env : Env)
    (now : String) :
    Effect isalpha execute w (.proceed env now) (w.proceed isalpha execute b env now) := by
  have hsound : ∀ {p : Prop}, (BootSound isalpha execute w b ↔ p) →
      (Sound isalpha execute w (.proceed env now) ↔ p) := by
    intro p hp
    refine Iff.trans ⟨fun hall => hall b hb, fun hone b' hb' => ?_⟩ hp
    cases hb.symm.trans hb'
    exact hone
  have hphase := h.phase b hb
  unfold MigrationWorld.proceed
  unfold BootSound at hsound
  cases hstage : b.phase with
  | creating =>
    rw [hstage] at hsound
    exact .keeps .created rfl rfl rfl rfl (Database.applied_create _) rfl
      (fun hnone => by cases hnone) ((hsound Iff.rfl).mpr trivial)
  | column =>
    rw [hstage] at hsound
    have htrivial := (hsound Iff.rfl).mpr trivial
    dsimp only
    cases hcolumn : w.disk.ensureSqlChecksumColumn with
    | none => exact .raises _ htrivial
    | some db =>
      obtain ⟨happlied, hpointer⟩ := Database.applied_ensureSqlChecksumColumn hcolumn
      exact .keeps .columnAdded hcolumn rfl rfl rfl happlied hpointer (fun hnone => by cases hnone)
        htrivial
  | backup =>
    rw [hstage] at hsound
    exact .quiet rfl rfl rfl ((hsound Iff.rfl).mpr trivial)
  | applying =>
    rw [hstage] at hsound
    have happlying := hsound Iff.rfl
    dsimp only
    cases htodo : b.todo with
    | nil =>
      refine .quiet rfl rfl rfl (happlying.mpr fun file hfile => ?_)
      rw [htodo] at hfile
      cases hfile
    | cons file todo =>
      rw [htodo] at happlying
      simp only [head?_cons, mem_def, some.injEq, forall_eq'] at happlying
      dsimp only
      split
      · rename_i htable
        refine .raises _ (happlying.mpr fun row hrow => ?_)
        unfold Database.applied at hrow
        rw [isNone_iff_eq_none.mp htable] at hrow
        cases hrow
      · split
        · rename_i hany
          obtain ⟨row, hrow, hversion⟩ := any_eq_true.mp hany
          refine .skips file ?_ rfl rfl rfl happlying
          rw [← beq_iff_eq.mp hversion]
          exact mem_map_of_mem hrow
        · rename_i hany
          have hnew : Sound isalpha execute w (.proceed env now) := by
            refine happlying.mpr fun row hrow hversion => absurd ?_ hany
            exact any_eq_true.mpr ⟨row, hrow, beq_iff_eq.mpr hversion⟩
          split
          · exact .raises _ hnew
          · exact .quiet rfl rfl rfl hnew
  | statements tx todo =>
    rw [hstage] at hsound
    have htrivial := (hsound Iff.rfl).mpr trivial
    cases todo with
    | nil => exact .quiet rfl rfl rfl htrivial
    | cons stmt todo =>
      dsimp only
      split
      · exact .quiet rfl rfl rfl htrivial
      · exact .raises _ htrivial
  | recording tx =>
    rw [hstage] at hsound
    have htrivial := (hsound Iff.rfl).mpr trivial
    dsimp only
    split
    · exact .raises _ htrivial
    · exact .quiet rfl rfl rfl htrivial
  | pointing tx appliedAt =>
    rw [hstage] at hsound
    have htrivial := (hsound Iff.rfl).mpr trivial
    dsimp only
    split
    · exact .raises _ htrivial
    · exact .quiet rfl rfl rfl htrivial
  | committing tx appliedAt updatedAt =>
    rw [hstage] at hsound hphase
    exact .applies tx.file tx.envs appliedAt updatedAt tx.changed hphase rfl rfl rfl
      (hsound Iff.rfl)
  | verifying =>
    rw [hstage] at hsound
    have htrivial := (hsound Iff.rfl).mpr trivial
    dsimp only
    split
    · split
      · exact .raises _ htrivial
      · rename_i checksums _
        exact .keeps (.baselined checksums) rfl rfl rfl rfl (Database.applied_baseline _ _) rfl
          (fun _ hsame => by simp [MigrationWorld.returns, MigrationWorld.commit] at hsame) htrivial
    · exact .quiet rfl rfl rfl htrivial

theorem MigrationInv.effect (op : MigrationOp Env) :
    Effect isalpha execute w op (migrationStep isalpha execute w op) := by
  cases op with
  | run dir =>
    simp only [migrationStep]
    split <;> exact .quiet rfl rfl rfl trivial
  | proceed env now =>
    simp only [migrationStep]
    cases hb : w.boot with
    | none =>
      refine .quiet rfl rfl rfl fun b hmem => ?_
      rw [hb] at hmem
      cases hmem
    | some b => exact h.proceed_effect hb env now
  | fails =>
    simp only [migrationStep]
    split
    · exact .quiet rfl rfl rfl trivial
    · split <;> exact .quiet rfl rfl rfl trivial
  | killed => exact .quiet rfl rfl rfl trivial

/-! ## The invariant -/

theorem MigrationInv.raises : MigrationInv isalpha execute rest₀ w.raises :=
  ⟨h.replayed, h.whole, fun _ hmem => by cases hmem⟩

theorem MigrationInv.goesOn (b : Boot R Env) {phase : Phase R Env}
    (hphase : PhaseHolds isalpha execute w.disk phase) :
    MigrationInv isalpha execute rest₀ (w.goesOn b phase) := by
  refine ⟨h.replayed, h.whole, fun b' hmem => ?_⟩
  cases hmem
  exact hphase

theorem MigrationInv.commit (hc : c.effect isalpha execute w.disk = some db)
    (hfile : appliedFiles [c] = []) {boot : Option (Boot R Env)}
    (hphase : ∀ b ∈ boot, PhaseHolds isalpha execute db b.phase)
    (returned : List (List MigrationResult)) :
    MigrationInv isalpha execute rest₀ { w.commit c db with boot, returned } := by
  refine ⟨replayed_concat h.replayed hc, fun file hmem => h.whole file ?_, hphase⟩
  dsimp only [MigrationWorld.commit] at hmem
  rwa [appliedFiles_concat, hfile, append_nil] at hmem

end

theorem exists_stmts_of_effect {file : MigrationFile} {envs : List Env}
    {appliedAt updatedAt : String}
    (h : (Commit.applied file envs appliedAt updatedAt).effect isalpha execute db = some db') :
    ∃ stmts, splitSql isalpha true file.sql = some stmts ∧
      solid (stmts.flatMap String.toList) = solid file.sql.toList := by
  obtain ⟨db₁, hfile, -⟩ := bind_eq_some_iff.mp h
  obtain ⟨stmts, hsplit, -⟩ := bind_eq_some_iff.mp hfile
  exact ⟨stmts, hsplit, splitSql_text hsplit⟩

theorem MigrationInv.proceed (h : MigrationInv isalpha execute rest₀ w) {b : Boot R Env}
    (hb : w.boot = some b) (env : Env) (now : String) :
    MigrationInv isalpha execute rest₀ (w.proceed isalpha execute b env now) := by
  have hphase := h.phase b hb
  unfold MigrationWorld.proceed
  cases hstage : b.phase <;> rw [hstage] at hphase
  case creating =>
    refine h.commit rfl rfl (fun b' hmem => ?_) w.returned
    cases hmem
    trivial
  case column =>
    dsimp only
    cases hcolumn : w.disk.ensureSqlChecksumColumn with
    | none => exact h.raises
    | some db =>
      have hc : (Commit.columnAdded : Commit Env).effect isalpha execute w.disk = some db := hcolumn
      refine h.commit hc rfl (fun b' hmem => ?_) w.returned
      cases hmem
      dsimp only
      split <;> trivial
  case backup => exact h.goesOn b trivial
  case applying =>
    dsimp only
    cases htodo : b.todo with
    | nil => exact h.goesOn b trivial
    | cons file todo =>
      dsimp only
      split
      · exact h.raises
      · split
        · refine ⟨h.replayed, h.whole, fun b' hmem => ?_⟩
          cases hmem
          trivial
        · cases hsplit : splitSql isalpha true file.sql with
          | none => exact h.raises
          | some stmts => exact h.goesOn b ⟨[], hsplit, rfl, rfl⟩
  case statements tx todo =>
    obtain ⟨done, hsplit, hlength, hrun⟩ := hphase
    cases todo with
    | nil =>
      refine h.goesOn b ?_
      rw [append_nil] at hsplit
      simp only [PhaseHolds, fileEffect, hsplit, bind_some, if_pos hlength]
      exact hrun
    | cons stmt todo =>
      dsimp only
      cases hexec : execute stmt env tx.working with
      | none => exact h.raises
      | some result =>
        cases isDataStatement isalpha stmt with
        | none => exact h.raises
        | some data =>
          -- one more of the statements has run
          refine h.goesOn b ⟨done ++ [stmt], ?_, ?_, ?_⟩
          · rw [append_assoc]
            exact hsplit
          · simp [hlength]
          · dsimp only
            rw [zip_append hlength, runStatements_append, hrun]
            simp [runStatements, hexec]
  case recording tx =>
    dsimp only
    cases hrecord : tx.working.record (migrationRow tx.file now) with
    | none => exact h.raises
    | some db => exact h.goesOn b ⟨tx.working, hphase, hrecord⟩
  case pointing tx appliedAt =>
    obtain ⟨db, hfile, hrecord⟩ := hphase
    dsimp only
    cases hpoint : tx.working.setSchemaVersion tx.file.version now with
    | none => exact h.raises
    | some db' =>
      refine h.goesOn b ?_
      simp only [PhaseHolds, Commit.effect, hfile, bind_some, hrecord]
      exact hpoint
  case committing tx appliedAt updatedAt =>
    refine ⟨replayed_concat h.replayed hphase, fun file hmem => ?_, fun b' hmem => ?_⟩
    · dsimp only [MigrationWorld.counts, MigrationWorld.commit] at hmem
      rw [appliedFiles_concat] at hmem
      rcases mem_snoc.mp hmem with hold | rfl
      · exact h.whole file hold
      · exact exists_stmts_of_effect hphase
    · cases hmem
      trivial
  case verifying =>
    have hidle : ∀ {db : Database R}, ∀ b' ∈ (none : Option (Boot R Env)),
        PhaseHolds isalpha execute db b'.phase := fun b' hmem => by cases hmem
    dsimp only
    split
    · split
      · exact h.raises
      · exact h.commit rfl rfl hidle (w.returned ++ [b.results])
    · exact ⟨h.replayed, h.whole, hidle⟩

/-- **One step keeps the invariant.** -/
theorem MigrationInv.step (h : MigrationInv isalpha execute rest₀ w) (op : MigrationOp Env) :
    MigrationInv isalpha execute rest₀ (migrationStep isalpha execute w op) := by
  cases op with
  | run dir =>
    simp only [migrationStep]
    split
    · refine ⟨h.replayed, h.whole, fun b' hmem => ?_⟩
      cases hmem
      trivial
    · exact h
  | proceed env now =>
    simp only [migrationStep]
    cases hb : w.boot with
    | none => exact h
    | some b => exact h.proceed hb env now
  | fails =>
    simp only [migrationStep]
    split
    · exact h
    · split
      · exact ⟨h.replayed, h.whole, fun _ hmem => by cases hmem⟩
      · exact h.raises
  | killed => exact h.raises

/-- A step that commits nothing writes nothing, and one in which a boot fails commits nothing. -/
theorem MigrationInv.noTrace (h : MigrationInv isalpha execute rest₀ w) (op : MigrationOp Env) :
    NoTrace isalpha execute w op := by
  have hgrows : ∀ {c : Commit Env} {commits : List (Commit Env)}, commits ≠ commits ++ [c] :=
    fun hsame => by simp at hsame
  cases h.effect op with
  | quiet hdisk hcommits => exact ⟨fun _ => hdisk, fun _ _ _ => hcommits⟩
  | skips _ _ hdisk hcommits => exact ⟨fun _ => hdisk, fun _ _ _ => hcommits⟩
  | keeps c hc hfile hcommits hcounted happlied hpointer hends =>
    exact ⟨fun hsame => absurd (hsame.symm.trans hcommits) hgrows,
      fun _ hnone hreturned => absurd hreturned (hends hnone)⟩
  | applies file envs appliedAt updatedAt changed hc hcommits hcounted hboot =>
    refine ⟨fun hsame => absurd (hsame.symm.trans hcommits) hgrows, fun _ hnone => ?_⟩
    rw [hnone] at hboot
    cases hboot

/-! ## The ledger -/

variable {rows : List (String × String)}

theorem ne_of_ordered (h : (rows.map Prod.fst).Pairwise (· < ·)) : (rows.map Prod.fst).Nodup :=
  h.imp fun hlt => hlt.ne

theorem distinct_of_counted (hrows : (rows.map Prod.fst).Nodup) {counted : List MigrationResult}
    (h : ∀ result ∈ counted, (result.version, result.name) ∈ rows) :
    ∀ result ∈ counted, ∀ result' ∈ counted, result.version = result'.version →
      result.name = result'.name := by
  intro result hresult result' hresult' hversion
  have hsame := inj_on_of_nodup_map hrows (h result hresult) (h result' hresult') hversion
  exact congrArg Prod.snd hsame

/-- The ledger tells the truth after a step in which nothing of it changes. -/
theorem LedgerHolds.same {w' : MigrationWorld R Env} (h : LedgerHolds isalpha execute rest₀ w)
    (hinv : MigrationInv isalpha execute rest₀ w')
    (hfiles : appliedFiles w'.commits = appliedFiles w.commits)
    (happlied : w'.disk.applied = w.disk.applied)
    (hpointer : w'.disk.schemaVersion = w.disk.schemaVersion)
    (hcounted : w'.counted = w.counted) : LedgerHolds isalpha execute rest₀ w' where
  replayed := hinv.replayed
  exactly := by rw [happlied, hfiles]; exact h.exactly
  ordered := by rw [happlied]; exact h.ordered
  whole := hinv.whole
  pointer := by rw [happlied, hpointer]; exact h.pointer
  counted := by rw [happlied, hcounted]; exact h.counted
  distinct := by rw [hcounted]; exact h.distinct

/-- **What decides whether the ledger goes on telling the truth.** -/
theorem LedgerHolds.step_iff (h : LedgerHolds isalpha execute rest₀ w)
    (hinv : MigrationInv isalpha execute rest₀ w) (op : MigrationOp Env) :
    LedgerHolds isalpha execute rest₀ (migrationStep isalpha execute w op) ↔
      Sound isalpha execute w op := by
  have hinv' := hinv.step op
  cases hinv.effect op with
  | quiet hdisk hcommits hcounted hsound =>
    exact iff_of_true (h.same hinv' (by rw [hcommits]) (by rw [hdisk]) (by rw [hdisk]) hcounted)
      hsound
  | keeps c hc hfile hcommits hcounted happlied hpointer hends hsound =>
    refine iff_of_true (h.same hinv' ?_ happlied hpointer hcounted) hsound
    rw [hcommits, appliedFiles_concat, hfile, append_nil]
  | skips file hversion hdisk hcommits hcounted hsound =>
    rw [hsound]
    obtain ⟨row, hrow, hrowVersion⟩ := mem_map.mp hversion
    have hnodup := ne_of_ordered h.ordered
    constructor
    · intro hafter row' hrow' hversion'
      have hmem := hafter.counted _ (hcounted ▸ mem_append_right _ mem_cons_self)
      rw [hdisk] at hmem
      exact congrArg Prod.snd (inj_on_of_nodup_map hnodup hrow' hmem hversion')
    · intro hname
      have hall : ∀ result ∈ (migrationStep isalpha execute w op).counted,
          (result.version, result.name) ∈ w.disk.applied := by
        intro result hresult
        rw [hcounted] at hresult
        rcases mem_snoc.mp hresult with hold | rfl
        · exact h.counted result hold
        · have hfile : row = (file.version, file.name) :=
            Prod.ext hrowVersion (hname row hrow hrowVersion)
          exact hfile ▸ hrow
      refine ⟨hinv'.replayed, ?_, ?_, hinv'.whole, ?_, ?_, distinct_of_counted hnodup hall⟩
      · rw [hdisk, hcommits]
        exact h.exactly
      · rw [hdisk]
        exact h.ordered
      · rw [hdisk]
        exact h.pointer
      · rw [hdisk]
        exact hall
  | applies file envs appliedAt updatedAt changed hc hcommits hcounted hboot hsound =>
    rw [hsound]
    obtain ⟨db, hfile, hrest⟩ := bind_eq_some_iff.mp hc
    obtain ⟨db₁, hrecord, hpoint⟩ := bind_eq_some_iff.mp hrest
    have happlied : (migrationStep isalpha execute w op).disk.applied =
        db.applied ++ [(file.version, file.name)] :=
      (Database.applied_setSchemaVersion hpoint).trans (Database.applied_record hrecord)
    have hpointer := Database.schemaVersion_setSchemaVersion hpoint
    have hfiles : (appliedFiles (migrationStep isalpha execute w op).commits).map
        (fun file => (file.version, file.name)) =
          w.disk.applied ++ [(file.version, file.name)] := by
      rw [hcommits, appliedFiles_concat, map_append, ← h.exactly]
      rfl
    constructor
    · intro hafter
      have hledger : db.applied = w.disk.applied := by
        have hsame := hafter.exactly
        rw [happlied, hfiles] at hsame
        exact append_cancel_right hsame
      refine ⟨fun db' hdb' => ?_, fun row hrow => ?_⟩
      · cases hfile.symm.trans hdb'
        exact hledger
      · have hordered := hafter.ordered
        rw [happlied, hledger, map_append, pairwise_append] at hordered
        exact hordered.2.2 row.1 (mem_map_of_mem hrow) file.version mem_cons_self
    · rintro ⟨hleaves, hlast⟩
      have hledger := hleaves db hfile
      rw [hledger] at happlied
      have hordered : ((migrationStep isalpha execute w op).disk.applied.map Prod.fst).Pairwise
          (· < ·) := by
        rw [happlied, map_append, pairwise_append]
        refine ⟨h.ordered, pairwise_singleton _ _, fun version hversion version' hversion' => ?_⟩
        obtain ⟨row, hrow, rfl⟩ := mem_map.mp hversion
        rw [mem_singleton.mp hversion']
        exact hlast row hrow
      have hall : ∀ result ∈ (migrationStep isalpha execute w op).counted,
          (result.version, result.name) ∈ (migrationStep isalpha execute w op).disk.applied := by
        intro result hresult
        rw [hcounted] at hresult
        rw [happlied]
        rcases mem_snoc.mp hresult with hold | rfl
        · exact mem_append_left _ (h.counted result hold)
        · exact mem_append_right _ mem_cons_self
      refine ⟨hinv'.replayed, happlied.trans hfiles.symm, hordered, hinv'.whole, fun _ => ?_, hall,
        distinct_of_counted (ne_of_ordered hordered) hall⟩
      refine ⟨file.version, hpointer, ?_, fun version hversion => ?_⟩
      · rw [happlied, map_append]
        exact mem_append_right _ mem_cons_self
      · rw [happlied, map_append] at hversion
        rcases mem_snoc.mp hversion with hold | hnew
        · obtain ⟨row, hrow, rfl⟩ := mem_map.mp hold
          exact (hlast row hrow).le
        · exact hnew.le

theorem ledgerHolds_init (rest₀ : R) :
    LedgerHolds isalpha execute rest₀ { disk := { rest := rest₀ } } where
  replayed := rfl
  exactly := rfl
  ordered := List.Pairwise.nil
  whole := fun _ h => by cases h
  pointer := fun h => absurd rfl h
  counted := fun _ h => by cases h
  distinct := fun _ h => by cases h

/-- The ledger tells the truth along exactly the runs that meet the condition. -/
theorem along_ledgerHolds_iff (rest₀ : R) (ops : List (MigrationOp Env)) :
    Along (migrationStep isalpha execute) (LedgerHolds isalpha execute rest₀)
        { disk := { rest := rest₀ } } ops ↔
      Meets (migrationStep isalpha execute) (Sound isalpha execute) { disk := { rest := rest₀ } }
        ops :=
  along_iff_meets_of_inv (fun _ op hinv => hinv.step op) (fun _ op hinv h => h.step_iff hinv op)
    (MigrationInv.init rest₀) (ledgerHolds_init rest₀) ops

end

/-- **The ledger tells the truth, exactly where it does**: in every state of a run, over any
number of boots that fail or are killed anywhere. -/
theorem ledger_iff {R : Type u} {Env : Type v} (isalpha : Char → Bool)
    (execute : String → Env → Database R → Option (Database R × Nat)) (rest₀ : R)
    (ops : List (MigrationOp Env)) :
    (Along (migrationStep isalpha execute) (LedgerHolds isalpha execute rest₀)
        { disk := { rest := rest₀ } } ops ∧
      Meets (migrationStep isalpha execute) (NoTrace isalpha execute)
        { disk := { rest := rest₀ } } ops) ↔
    Meets (migrationStep isalpha execute) (Sound isalpha execute) { disk := { rest := rest₀ } }
      ops := by
  have hclean : Meets (migrationStep isalpha execute) (NoTrace isalpha execute)
      { disk := { rest := rest₀ } } ops :=
    meets_of_inv (fun _ op hinv => hinv.step op) (fun _ op hinv => hinv.noTrace op)
      (MigrationInv.init rest₀) ops
  rw [along_ledgerHolds_iff]
  exact ⟨And.left, fun hsound => ⟨hsound, hclean⟩⟩

/-- `CREATE TABLE` statements, which fail for a table that exists; `rest` is the schema. -/
def executeCreates (stmt : String) (_ : Unit) (db : Database (List String)) :
    Option (Database (List String) × Nat) :=
  if stmt ∈ db.rest then none
  else
    let db := { db with rest := db.rest ++ [stmt] }
    if stmt = "CREATE TABLE stackowl_meta (key PRIMARY KEY, value, updated_at);" then
      some ({ db with stackowlMeta := some [] }, 0)
    else some (db, 0)

def bootFor (dir : List (String × String)) (turns : Nat) : List (MigrationOp Unit) :=
  .run dir :: replicate turns (.proceed () "2026-09-01T00:00:00+00:00")

def initialFile : String × String :=
  ("0001_initial.sql",
    "CREATE TABLE stackowl_meta (key PRIMARY KEY, value, updated_at);\nCREATE TABLE a (id);\n")

/-- Two files of one version; and a file that comes after one with a higher version. -/
def sharedRun : List (MigrationOp Unit) :=
  bootFor [initialFile, ("0002_b.sql", "CREATE TABLE b (id);"),
    ("0002_c.sql", "CREATE TABLE c (id);")] 20

def lateRun : List (MigrationOp Unit) :=
  bootFor [initialFile, ("0004_d.sql", "CREATE TABLE d (id);")] 20 ++
    bootFor [initialFile, ("0003_c.sql", "CREATE TABLE c (id);"),
      ("0004_d.sql", "CREATE TABLE d (id);")] 20

/-- A file is skipped for another, and `schema_version` goes back. -/
theorem ledger_misled :
    ¬ Along (migrationStep Char.isAlpha executeCreates)
      (LedgerHolds Char.isAlpha executeCreates []) { disk := { rest := [] } } sharedRun ∧
    ¬ Along (migrationStep Char.isAlpha executeCreates)
      (LedgerHolds Char.isAlpha executeCreates []) { disk := { rest := [] } } lateRun := by
  rw [along_ledgerHolds_iff, along_ledgerHolds_iff]
  decide +kernel

end StackOwl.Db
