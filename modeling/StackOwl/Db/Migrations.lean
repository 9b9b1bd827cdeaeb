import Mathlib.Data.List.Sort
import Mathlib.Data.String.Basic
import StackOwl.Db.SplitSql
import StackOwl.Lib.Run

/-!
# Migrations

`MigrationRunner` (`db/migrations/runner.py`).  A boot goes through the files of a directory in
the order of their names.  A file whose version is in `schema_migrations` is skipped; the
statements of another run in an exclusive transaction, with the row of the ledger and the
`schema_version` of `stackowl_meta`.  At the end the checksums of rows that have none are
written.

SQLite is `execute`: what one statement without transaction control makes of a database, and how
many rows it changes, or that it fails; the environment it runs in gives it the time and
randomness it asks for.  It may read and write every table, those of the runner with them.  What
is written between `BEGIN` and `COMMIT` is seen by the connection only, and all of it is there
after the `COMMIT`; outside a transaction each statement commits.

One operation takes a boot to its next statement; at any of them it may fail, or be killed.
`commits` is what was committed, in order, and `counted` what the boots have counted as applied.

`LedgerHolds` is what the ledger says of the database, and `Sound` the condition on a step under
which that stays true; `Db.MigrationRuns` has the proofs.
-/

namespace StackOwl.Db

open Durable Lib

/-! ## Files -/

structure MigrationFile where
  version : String
  name : String
  sql : String

/-- `Path.stem`, of a name that ends in `.sql`. -/
def stem (name : String) : List Char :=
  if name = ".sql" then name.toList else name.toList.take (name.length - 4)

def loadSqlFile (name sql : String) : Option MigrationFile :=
  if '_' ∈ stem name then
    some { version := String.ofList ((stem name).takeWhile (· ≠ '_')), name, sql }
  else none

/-- `_load_sql_files`, of the names and texts of a directory. -/
def loadSqlFiles (dir : List (String × String)) : List MigrationFile :=
  ((dir.filter fun entry => ".sql".toList.isSuffixOf entry.1.toList).insertionSort
    fun entry entry' => entry.1 ≤ entry'.1).filterMap fun entry => loadSqlFile entry.1 entry.2

/-! ## The database -/

structure MigrationRow where
  version : String
  name : String
  appliedAt : String
  checksum : String
  sqlChecksum : Option String := none

structure SchemaMigrations where
  rows : List MigrationRow := []
  sqlChecksumColumn : Bool := false

structure MetaRow where
  key : String
  value : String
  updatedAt : String

universe u v

/-- The runner's two tables, where they exist, and the rest. -/
structure Database (R : Type u) where
  schemaMigrations : Option SchemaMigrations := none
  stackowlMeta : Option (List MetaRow) := none
  rest : R

namespace Database

variable {R : Type u} (db : Database R)

/-- The versions and names of `schema_migrations`. -/
def applied : List (String × String) :=
  (db.schemaMigrations.elim [] SchemaMigrations.rows).map fun row => (row.version, row.name)

def schemaVersion : Option String :=
  (db.stackowlMeta.elim [] id).findSome? fun row =>
    if row.key = "schema_version" then some row.value else none

/-- `_CREATE_SCHEMA_MIGRATIONS`. -/
def create : Database R :=
  { db with schemaMigrations := some (db.schemaMigrations.getD {}) }

def ensureSqlChecksumColumn : Option (Database R) :=
  db.schemaMigrations.map fun table =>
    if table.sqlChecksumColumn then db
    else
      { db with
        schemaMigrations := some
          { rows := table.rows.map fun row => { row with sqlChecksum := none }
            sqlChecksumColumn := true } }

/-- The `INSERT` into `schema_migrations`, whose `version` is unique. -/
def record (row : MigrationRow) : Option (Database R) :=
  db.schemaMigrations.bind fun table =>
    if table.rows.any fun row' => row'.version == row.version then none
    else some { db with schemaMigrations := some { table with rows := table.rows ++ [row] } }

def setSchemaVersion (version now : String) : Option (Database R) :=
  db.stackowlMeta.map fun rows =>
    { db with
      stackowlMeta := some
        (if rows.any fun row => row.key == "schema_version" then
          rows.map fun row =>
            if row.key = "schema_version" then { row with value := version, updatedAt := now }
            else row
        else rows ++ [⟨"schema_version", version, now⟩]) }

/-- The `UPDATE`s of `_verify_applied`. -/
def baseline (checksums : List (String × String)) : Database R :=
  { db with
    schemaMigrations := db.schemaMigrations.map fun table =>
      { table with
        rows := table.rows.map fun row =>
          { row with sqlChecksum := (checksums.lookup row.version).or row.sqlChecksum } } }

end Database

/-! ## Boots -/

inductive MigrationAction where
  | applied
  | skipped

structure MigrationResult where
  version : String
  name : String
  action : MigrationAction
  rowsChanged : List Nat := []

/-- The transaction of a file: the database as its connection sees it, and the environments and
row counts of the statements that ran. -/
structure Transaction (R : Type u) (Env : Type v) where
  file : MigrationFile
  working : Database R
  envs : List Env := []
  changed : List Nat := []

inductive Phase (R : Type u) (Env : Type v) where
  | creating
  | column
  | backup
  /-- `_apply` of the next file, up to its `BEGIN`; or the loop is over. -/
  | applying
  | statements (tx : Transaction R Env) (todo : List String)
  | recording (tx : Transaction R Env)
  | pointing (tx : Transaction R Env) (appliedAt : String)
  | committing (tx : Transaction R Env) (appliedAt updatedAt : String)
  | verifying

structure Boot (R : Type u) (Env : Type v) where
  files : List MigrationFile
  todo : List MigrationFile
  results : List MigrationResult := []
  phase : Phase R Env := .creating

inductive Commit (Env : Type v) where
  | created
  | columnAdded
  | applied (file : MigrationFile) (envs : List Env) (appliedAt updatedAt : String)
  | baselined (checksums : List (String × String))

structure MigrationWorld (R : Type u) (Env : Type v) where
  disk : Database R
  boot : Option (Boot R Env) := none
  commits : List (Commit Env) := []
  counted : List MigrationResult := []
  returned : List (List MigrationResult) := []

/-- One thing that can happen next. -/
inductive MigrationOp (Env : Type v) where
  /-- `run` starts, on a directory. -/
  | run (dir : List (String × String))
  /-- The boot goes on, where it can. -/
  | proceed (env : Env) (now : String)
  /-- What the boot does next raises: a lock, a full disk, a file that cannot be read, a backup
  that is not there. -/
  | fails
  | killed

section
variable {R : Type u} {Env : Type v} (isalpha : Char → Bool)
  (execute : String → Env → Database R → Option (Database R × Nat))

def migrationRow (file : MigrationFile) (now : String) : MigrationRow where
  version := file.version
  name := file.name
  appliedAt := now
  checksum := sha256Hex file.sql

/-- The checksums `_verify_applied` writes; of files with one version it reads the last. -/
def missingChecksums (files : List MigrationFile) (rows : List MigrationRow) :
    Option (List (String × String)) :=
  (rows.mapM fun (row : MigrationRow) =>
    match files.reverse.find? (fun (file : MigrationFile) => file.version == row.version) with
    | none => some none
    | some file => (semanticChecksum isalpha file.sql).map fun current =>
      if row.sqlChecksum = none then some (row.version, current) else none).map
    List.reduceOption

namespace MigrationWorld

variable (w : MigrationWorld R Env)

/-- The exception leaves `run`; a transaction is rolled back. -/
def raises : MigrationWorld R Env := { w with boot := none }

variable (b : Boot R Env)

def goesOn (phase : Phase R Env) :
    MigrationWorld R Env :=
  { w with boot := some { b with phase } }

def counts (result : MigrationResult) :
    MigrationWorld R Env :=
  { w with
    counted := w.counted ++ [result]
    boot := some
      { b with todo := b.todo.tail, results := b.results ++ [result], phase := .applying } }

def returns : MigrationWorld R Env :=
  { w with boot := none, returned := w.returned ++ [b.results] }

def commit (c : Commit Env) (db : Database R) :
    MigrationWorld R Env :=
  { w with disk := db, commits := w.commits ++ [c] }

def proceed (env : Env) (now : String) :
    MigrationWorld R Env :=
  match b.phase with
  | .creating => (w.commit .created w.disk.create).goesOn b .column
  | .column =>
    match w.disk.ensureSqlChecksumColumn with
    | none => w.raises
    | some db =>
      (w.commit .columnAdded db).goesOn b
        (if b.files.all fun file => db.applied.any fun row => row.1 == file.version then .applying
        else .backup)
  | .backup => w.goesOn b .applying
  | .applying =>
    match b.todo with
    | [] => w.goesOn b .verifying
    | file :: _ =>
      if w.disk.schemaMigrations.isNone then w.raises
      else if w.disk.applied.any fun row => row.1 == file.version then
        w.counts b { version := file.version, name := file.name, action := .skipped }
      else
        match splitSql isalpha true file.sql with
        | none => w.raises
        | some stmts => w.goesOn b (.statements { file, working := w.disk } stmts)
  | .statements tx [] => w.goesOn b (.recording tx)
  | .statements tx (stmt :: todo) =>
    match execute stmt env tx.working, isDataStatement isalpha stmt with
    | some (db, count), some data =>
      w.goesOn b (.statements
        { tx with
          working := db
          envs := tx.envs ++ [env]
          changed := if data then tx.changed ++ [count] else tx.changed } todo)
    | _, _ => w.raises
  | .recording tx =>
    match tx.working.record (migrationRow tx.file now) with
    | none => w.raises
    | some db => w.goesOn b (.pointing { tx with working := db } now)
  | .pointing tx appliedAt =>
    match tx.working.setSchemaVersion tx.file.version now with
    | none => w.raises
    | some db => w.goesOn b (.committing { tx with working := db } appliedAt now)
  | .committing tx appliedAt updatedAt =>
    (w.commit (.applied tx.file tx.envs appliedAt updatedAt) tx.working).counts b
      { version := tx.file.version
        name := tx.file.name
        action := .applied
        rowsChanged := tx.changed }
  | .verifying =>
    match w.disk.schemaMigrations with
    | some ⟨rows, true⟩ =>
      match missingChecksums isalpha b.files rows with
      | none => w.raises
      | some checksums =>
        (w.commit (.baselined checksums) (w.disk.baseline checksums)).returns b
    | _ => w.returns b

end MigrationWorld

def migrationStep (w : MigrationWorld R Env) : MigrationOp Env → MigrationWorld R Env
  | .run dir =>
    match w.boot with
    | none => { w with boot := some { files := loadSqlFiles dir, todo := loadSqlFiles dir } }
    | some _ => w
  | .proceed env now =>
    match w.boot with
    | none => w
    | some b => w.proceed isalpha execute b env now
  | .fails =>
    match w.boot with
    | none => w
    | some b =>
      match b.phase with
      -- `_verify_applied` does not raise
      | .verifying => w.returns b
      | _ => w.raises
  | .killed => w.raises

/-! ## What is claimed of a run -/

def runStatements : List (String × Env) → Database R → Option (Database R)
  | [], db => some db
  | (stmt, env) :: rest, db => (execute stmt env db).bind fun (db', _) => runStatements rest db'

/-- What the statements of a file make of a database, one after the other. -/
def fileEffect (file : MigrationFile) (envs : List Env) (db : Database R) :
    Option (Database R) :=
  (splitSql isalpha true file.sql).bind fun stmts =>
    if stmts.length = envs.length then runStatements execute (stmts.zip envs) db else none

def Commit.effect : Commit Env → Database R → Option (Database R)
  | .created, db => some db.create
  | .columnAdded, db => db.ensureSqlChecksumColumn
  | .applied file envs appliedAt updatedAt, db =>
    (fileEffect isalpha execute file envs db).bind fun db =>
      (db.record (migrationRow file appliedAt)).bind fun db =>
        db.setSchemaVersion file.version updatedAt
  | .baselined checksums, db => some (db.baseline checksums)

def replayed (commits : List (Commit Env)) (db : Database R) : Option (Database R) :=
  commits.foldlM (fun db c => c.effect isalpha execute db) db

def appliedFiles (commits : List (Commit Env)) : List MigrationFile :=
  commits.filterMap fun
    | .applied file _ _ _ => some file
    | _ => none

/-- The database is what the commits make of an empty one; the files among them are those of
`schema_migrations`, in its order and that of their versions, none twice, each with all of its
text; `schema_version` is the highest of the versions; and what was counted as applied is the
file its row names, so that no row stands for two. -/
structure LedgerHolds (rest₀ : R) (w : MigrationWorld R Env) : Prop where
  replayed : replayed isalpha execute w.commits { rest := rest₀ } = some w.disk
  exactly : w.disk.applied =
    (appliedFiles w.commits).map fun file => (file.version, file.name)
  ordered : (w.disk.applied.map Prod.fst).Pairwise (· < ·)
  whole : ∀ file ∈ appliedFiles w.commits, ∃ stmts, splitSql isalpha true file.sql = some stmts ∧
    solid (stmts.flatMap String.toList) = solid file.sql.toList
  pointer : w.disk.applied ≠ [] → ∃ version, w.disk.schemaVersion = some version ∧
    version ∈ w.disk.applied.map Prod.fst ∧ ∀ v ∈ w.disk.applied.map Prod.fst, v ≤ version
  counted : ∀ result ∈ w.counted, (result.version, result.name) ∈ w.disk.applied
  distinct : ∀ result ∈ w.counted, ∀ result' ∈ w.counted, result.version = result'.version →
    result.name = result'.name

/-- The disk changes where something is committed, and nothing is where a boot fails. -/
def NoTrace (w : MigrationWorld R Env) (op : MigrationOp Env) : Prop :=
  ((migrationStep isalpha execute w op).commits = w.commits →
    (migrationStep isalpha execute w op).disk = w.disk) ∧
  (w.boot.isSome → (migrationStep isalpha execute w op).boot = none →
    (migrationStep isalpha execute w op).returned = w.returned →
      (migrationStep isalpha execute w op).commits = w.commits)

/-- The next file is not taken for another one; and a file that is committed has left the ledger
as it was, and comes after those that are there. -/
def BootSound (w : MigrationWorld R Env) (b : Boot R Env) : Prop :=
  match b.phase with
  | .applying => ∀ file ∈ b.todo.head?, ∀ row ∈ w.disk.applied, row.1 = file.version →
      row.2 = file.name
  | .committing tx _ _ =>
    (∀ db ∈ fileEffect isalpha execute tx.file tx.envs w.disk, db.applied = w.disk.applied) ∧
      ∀ row ∈ w.disk.applied, row.1 < tx.file.version
  | _ => True

instance (w : MigrationWorld R Env) : ∀ b, Decidable (BootSound isalpha execute w b)
  | ⟨_, todo, _, .applying⟩ => inferInstanceAs (Decidable (∀ file ∈ todo.head?, ∀ row ∈
      w.disk.applied, _ → _))
  | ⟨_, _, _, .committing tx _ _⟩ => inferInstanceAs (Decidable
      ((∀ db ∈ fileEffect isalpha execute tx.file tx.envs w.disk, _) ∧
        ∀ row ∈ w.disk.applied, _))
  | ⟨_, _, _, .creating⟩ | ⟨_, _, _, .column⟩ | ⟨_, _, _, .backup⟩ | ⟨_, _, _, .statements ..⟩
  | ⟨_, _, _, .recording _⟩ | ⟨_, _, _, .pointing ..⟩ | ⟨_, _, _, .verifying⟩ =>
    isTrue trivial

/-- No file is taken for another one, none comes after one with a higher version, and none
writes to the ledger. -/
def Sound (w : MigrationWorld R Env) : MigrationOp Env → Prop
  | .proceed _ _ => ∀ b ∈ w.boot, BootSound isalpha execute w b
  | _ => True

instance (w : MigrationWorld R Env) : ∀ op, Decidable (Sound isalpha execute w op)
  | .proceed _ _ => inferInstanceAs (Decidable (∀ b ∈ w.boot, _))
  | .run _ | .fails | .killed => isTrue trivial

end

end StackOwl.Db
