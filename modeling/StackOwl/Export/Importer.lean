import Mathlib.Algebra.Group.Int.Defs
import StackOwl.Durable.FailureClass
import StackOwl.Lib.PyJson
import StackOwl.Lib.Sha256
import StackOwl.Lib.Utf8

/-!
# Importing an archive

`Importer.run`: the archive is extracted, the manifest read, each file that it lists is
compared with its SHA-256, the version is checked, and then two files of fixed names are
applied, row by row.  Each row is one statement, committed on its own, whose failure is
logged.

## Main results

* `replaceOwlDna_refused` — the statement for `owl_dna` does not compile: the table has no
  column `dna_json`.
-/

namespace StackOwl.Export

open Lib

/-! ## The database -/

inductive SqlValue where
  | null
  | int (n : Int)
  | real (x : PyFloat)
  | text (s : String)
  | blob (bytes : List UInt8)
  deriving DecidableEq

/-- A row of `committed_facts`, in the columns that the importer sets. -/
structure FactRow where
  factId : SqlValue
  content : SqlValue
  embedding : SqlValue
  embeddingModel : SqlValue
  committedAt : SqlValue
  sourceType : SqlValue
  sourceRef : SqlValue
  tags : SqlValue

/-- Every column is `NOT NULL`. -/
def FactRow.complete (r : FactRow) : Bool :=
  [r.factId, r.content, r.embedding, r.embeddingModel, r.committedAt, r.sourceType,
    r.sourceRef, r.tags].all (· ≠ .null)

def OWL_DNA_COLUMNS : List String :=
  ["id", "owl_name", "challenge_level", "verbosity", "curiosity", "formality",
    "creativity", "precision", "updated_at", "owner_id", "completion_drive"]

/-- The two tables.  A row of `owl_dna` has the columns of the table. -/
structure ImportDb where
  facts : List FactRow
  owlDna : List (List (String × SqlValue))
  unique : (facts.map FactRow.factId).Nodup
  columns : ∀ row ∈ owlDna, row.map Prod.fst = OWL_DNA_COLUMNS

def hasFact (factId : SqlValue) (rows : List FactRow) : Bool :=
  rows.any (fun r => r.factId == factId)

theorem hasFact_iff {factId : SqlValue} {rows : List FactRow} :
    hasFact factId rows = true ↔ ∃ r ∈ rows, r.factId = factId := by
  simp [hasFact]

/-- `INSERT OR IGNORE INTO committed_facts`: a row without a value, or with a key that is
there, is skipped. -/
def insertOrIgnore (r : FactRow) (db : ImportDb) : ImportDb :=
  if h : r.complete = true ∧ hasFact r.factId db.facts = false then
    { db with
      facts := db.facts ++ [r]
      unique := by
        have hnew : r.factId ∉ db.facts.map FactRow.factId := by
          intro hmem
          obtain ⟨s, hs, heq⟩ := List.mem_map.mp hmem
          have hthere := hasFact_iff.mpr ⟨s, hs, heq⟩
          rw [h.2] at hthere
          cases hthere
        rw [List.map_append]
        exact List.nodup_append.mpr ⟨db.unique, List.nodup_singleton _, by
          rintro x hx y hy rfl
          exact hnew (List.mem_singleton.mp hy ▸ hx)⟩ }
  else db

/-- Why a statement is refused. -/
inductive SqlError where
  | noSuchColumn (name : String)
  | notNull (name : String)

/-- `INSERT OR REPLACE INTO owl_dna (owl_name, dna_json)`.  The statement would also leave
`updated_at` without a value. -/
def replaceOwlDna (_owlName _dnaJson : PyValue) (_db : ImportDb) : Except SqlError ImportDb :=
  match ["owl_name", "dna_json"].find? (fun name => !OWL_DNA_COLUMNS.contains name) with
  | some name => .error (.noSuchColumn name)
  | none => .error (.notNull "updated_at")

theorem replaceOwlDna_refused (owlName dnaJson : PyValue) (db : ImportDb) :
    replaceOwlDna owlName dnaJson db = .error (.noSuchColumn "dna_json") := by
  have hfirst : ["owl_name", "dna_json"].find? (fun name => !OWL_DNA_COLUMNS.contains name) =
      some "dna_json" := by decide
  rw [replaceOwlDna, hfirst]

/-! ## Rows -/

/-- What surrounds an import: the number a float literal is rounded to, the limits of the
JSON reader, `int` of a text, the text SQLite makes of a float, what is typed at the
prompt, and which statements fail. -/
structure ImportEnv where
  rounds : FloatLiteral → ℚ
  limits : Limits
  int : Text → Option Int
  realText : PyFloat → String
  /-- The answer at the prompt; none where reading it fails. -/
  answer : Option String
  countFails : Bool
  insertFails : Nat → Bool

/-- A Python value as it is bound; none is a value that cannot be. -/
def bindValue : PyValue → Option SqlValue
  | .none => some .null
  | .bool b => some (.int b.toNat)
  | .int n => if -2 ^ 63 ≤ n ∧ n < 2 ^ 63 then some (.int n) else none
  | .float (.nan _) => some .null
  | .float x => some (.real x)
  | .str s => s.string?.map .text
  | .list _ | .tuple _ | .dict _ => none

/-- A value in a column of type `TEXT`. -/
def textColumn (realText : PyFloat → String) : SqlValue → SqlValue
  | .int n => .text (toString n)
  | .real x => .text (realText x)
  | v => v

/-- `row.get(key, default)`. -/
def rowGet (items : List (PyKey × PyValue)) (key : String) (default : PyValue) : PyValue :=
  match items.find? (fun item => match item.1 with
    | .str s => s == Text.ofString key
    | _ => false) with
  | some item => item.2
  | none => default

def strValue (s : String) : PyValue := .str (Text.ofString s)

/-- `bool(value)`. -/
def truthy (rounds : FloatLiteral → ℚ) : PyValue → Bool
  | .none => false
  | .bool b => b
  | .int n => n ≠ 0
  | .float (.literal x) => rounds x ≠ 0
  | .float _ => true
  | .str s => s ≠ []
  | .list items => items.length ≠ 0
  | .tuple items => items.length ≠ 0
  | .dict items => items.length ≠ 0

section

variable (env : ImportEnv)

def factColumn (items : List (PyKey × PyValue)) (key default : String) : Option SqlValue :=
  (bindValue (rowGet items key (strValue default))).map (textColumn env.realText)

/-- The parameters of the statement for a fact, as they are stored. -/
def factRow (items : List (PyKey × PyValue)) : Option FactRow := do
  let factId ← factColumn env items "fact_id" ""
  let content ← factColumn env items "content" ""
  let embedding ← if truthy env.rounds (rowGet items "embedding" .none) then
      bindValue (rowGet items "embedding" .none)
    else some (.blob [])
  let embeddingModel ← factColumn env items "embedding_model" "none"
  let committedAt ← factColumn env items "committed_at" ""
  let sourceType ← factColumn env items "source_type" "user_explicit"
  let sourceRef ← factColumn env items "source_ref" ""
  let tags ← factColumn env items "tags" "[]"
  some ⟨factId, content, embedding, embeddingModel, committedAt, sourceType, sourceRef, tags⟩

def rowOf : PyValue → Option FactRow
  | .dict items => factRow env items
  | _ => none

/-- One row of `committed_facts.json`; whatever goes wrong is logged. -/
def importFact (fails : Bool) (row : PyValue) (db : ImportDb) : ImportDb :=
  match rowOf env row with
  | none => db
  | some r => if fails then db else insertOrIgnore r db

/-- The rows from the `i`-th on. -/
def insertFacts : Nat → List PyValue → ImportDb → ImportDb
  | _, [], db => db
  | i, row :: rows, db =>
    insertFacts (i + 1) rows (importFact env (env.insertFails i) row db)

/-- The rows of `owl_dna.json`, up to one that is no object; what the database refuses is
logged. -/
def importOwls : List PyValue → ImportDb → ImportDb × Bool
  | [], db => (db, true)
  | .dict items :: rows, db =>
    match replaceOwlDna (rowGet items "owl_name" (strValue ""))
      (rowGet items "dna_json" (strValue "\x7b\x7d")) db with
    | .ok db => importOwls rows db
    | .error _ => importOwls rows db
  | _ :: _, db => (db, false)

/-! ## Files -/

/-- What a path of the extracted archive leads to. -/
inductive Entry where
  | missing
  | file (bytes : List UInt8)
  | unreadable

/-- An archive: whether it can be extracted, where a name leads, and what is there. -/
structure Archive (ι : Type) where
  extracts : Bool
  place : Text → ι
  entry : ι → Entry

variable {ι : Type} (archive : Archive ι)

def Archive.member (name : Text) : Entry := archive.entry (archive.place name)

def COMMITTED_FACTS : Text := Text.ofString "committed_facts.json"

def OWL_DNA : Text := Text.ofString "owl_dna.json"

def MANIFEST : Text := Text.ofString "export-manifest.json"

/-- `json.loads(path.read_text(encoding="utf-8"))`. -/
def loadsFile (limits : Limits) (bytes : List UInt8) : Option PyValue :=
  match utf8Decode bytes with
  | none => none
  | some s => (loadsText limits (Text.ofString s)).toOption

def sha256Bytes (bytes : List UInt8) : Text :=
  scalars ((Sha256.digest (bytes.map UInt8.toNat)).flatMap (Sha256.toHex 8))

def hashMatches (name : PyKey) (expected : PyValue) : Bool :=
  match name, expected with
  | .str name, .str hash =>
    match archive.member name with
    | .file bytes => sha256Bytes bytes == hash
    | _ => false
  | _, _ => false

/-- The items that iterating a value gives; the keys of a JSON object are strings. -/
def iterate : PyValue → Option (List PyValue)
  | .list items => some items
  | .tuple items => some items
  | .dict items => some (items.map fun item => match item.1 with
      | .str s => .str s
      | _ => .none)
  | .str s => some (s.map fun c => .str [c])
  | _ => none

def major (version : Text) : Int :=
  (env.int (version.takeWhile (· ≠ .scalar '.'))).getD 0

def VERSION : Text := Text.ofString "2.0.0"

/-- What the checks in front of the import come to. -/
inductive Gate where
  | raises
  | aborts
  | proceeds

def versionGate (version : PyValue) : Gate :=
  match version with
  | .str version =>
    if major env version = major env VERSION then .proceeds
    else
      match env.answer with
      | none => .raises
      | some answer =>
        if Durable.strip answer.toList = "YES".toList then .proceeds else .aborts
  | _ => .raises

/-- `manifest.get("files", …)`: what is listed, where it can be listed. -/
def listed (manifest : List (PyKey × PyValue)) : Option (List (PyKey × PyValue)) :=
  match rowGet manifest "files" (.dict []) with
  | .dict files => some files
  | _ => none

def manifestOf : Option (List (PyKey × PyValue)) :=
  match archive.member MANIFEST with
  | .file bytes =>
    match loadsFile env.limits bytes with
    | some (.dict manifest) => some manifest
    | _ => none
  | _ => none

/-- The checks: extraction, manifest, hashes, version. -/
def gate : Gate :=
  if archive.extracts then
    match manifestOf env archive with
    | none => .raises
    | some manifest =>
      match listed manifest with
      | none => .raises
      | some files =>
        if files.all (fun file => hashMatches archive file.1 file.2) then
          versionGate env (rowGet manifest "stackowl_version" (strValue "0.0.0"))
        else .raises
  else .raises

/-- The rows of `committed_facts.json` that are applied; an error is what the import
raises in front of the first of them. -/
def factRows (merge : Bool) (db : ImportDb) : Except Unit (List PyValue) :=
  match archive.member COMMITTED_FACTS with
  | .missing => .ok []
  | .unreadable => .error ()
  | .file bytes =>
    match loadsFile env.limits bytes with
    | none => .error ()
    | some rows =>
      if !truthy env.rounds rows then .ok []
      else if !merge && env.countFails then .error ()
      else if !merge && db.facts.length ≠ 0 then .ok []
      else
        match iterate rows with
        | none => .error ()
        | some rows => .ok rows

/-- The rows of `owl_dna.json`. -/
def owlRows : Except Unit (List PyValue) :=
  match archive.member OWL_DNA with
  | .missing => .ok []
  | .unreadable => .error ()
  | .file bytes =>
    match (loadsFile env.limits bytes).bind iterate with
    | none => .error ()
    | some rows => .ok rows

/-- How an import ends. -/
inductive Outcome where
  | raised
  | aborted
  | returned
  deriving DecidableEq

def run (merge : Bool) (db : ImportDb) : ImportDb × Outcome :=
  match gate env archive with
  | .raises => (db, .raised)
  | .aborts => (db, .aborted)
  | .proceeds =>
    match factRows env archive merge db with
    | .error () => (db, .raised)
    | .ok facts =>
      let db := insertFacts env 0 facts db
      match owlRows env archive with
      | .error () => (db, .raised)
      | .ok owls =>
        match importOwls owls db with
        | (db, true) => (db, .returned)
        | (db, false) => (db, .raised)

end

end StackOwl.Export
