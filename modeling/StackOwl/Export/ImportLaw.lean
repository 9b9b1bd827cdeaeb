import StackOwl.Export.Importer

/-!
# What an import changes

An import is to change the database with rows of verified files only, to change nothing
when it raises, and to leave every row there when it returns.  The files it applies are
not those that the manifest lists, each row is committed on its own, and what goes wrong
with a row is logged.

## Main results

* `mem_insertFacts` — the rows that are in the table when a file has been applied.
* `import_holds_iff` — the imports that do what they are for.
-/

namespace StackOwl.Export

open Lib List

section

variable (env : ImportEnv) {ι : Type} (archive : Archive ι) (merge : Bool) (db : ImportDb)

/-- The manifest lists the file under some name, and it has the hash. -/
def Verified (name : Text) : Prop :=
  ∃ manifest files, manifestOf env archive = some manifest ∧ listed manifest = some files ∧
    ∃ other hash bytes, (PyKey.str other, PyValue.str hash) ∈ files ∧
      archive.place other = archive.place name ∧ archive.member name = .file bytes ∧
      sha256Bytes bytes = hash

def FromVerified (r : FactRow) : Prop :=
  Verified env archive COMMITTED_FACTS ∧ ∃ bytes rows items row,
    archive.member COMMITTED_FACTS = .file bytes ∧
      loadsFile env.limits bytes = some rows ∧ iterate rows = some items ∧ row ∈ items ∧
      rowOf env row = some r

/-- Rows are only added, and only of verified files. -/
def OnlyVerified (db' : ImportDb) : Prop :=
  (∀ r ∈ db.facts, r ∈ db'.facts) ∧
    (∀ r ∈ db'.facts, r ∈ db.facts ∨ FromVerified env archive r) ∧
    (db'.owlDna = db.owlDna ∨ Verified env archive OWL_DNA)

/-- The row of a fact is there; under `merge` its key is enough. -/
def FactPresent (row : PyValue) (db' : ImportDb) : Prop :=
  ∃ r, rowOf env row = some r ∧
    (r ∈ db'.facts ∨ merge = true ∧ hasFact r.factId db'.facts = true)

def OwlPresent (row : PyValue) (db' : ImportDb) : Prop :=
  ∃ items owlName dnaJson, row = .dict items ∧
    bindValue (rowGet items "owl_name" (strValue "")) = some owlName ∧
    bindValue (rowGet items "dna_json" (strValue "\x7b\x7d")) = some dnaJson ∧
    ∃ stored ∈ db'.owlDna, ("owl_name", textColumn env.realText owlName) ∈ stored ∧
      ("dna_json", textColumn env.realText dnaJson) ∈ stored

def ImportHolds : Prop :=
  let out := run env archive merge db
  OnlyVerified env archive db out.1 ∧ (out.2 = .raised → out.1 = db) ∧
    (out.2 = .returned → ∀ facts owls, factRows env archive merge db = .ok facts →
      owlRows env archive = .ok owls →
      (∀ row ∈ facts, FactPresent env merge row out.1) ∧
        ∀ row ∈ owls, OwlPresent env row out.1)

/-! ## The condition -/

/-- The rows, from the `i`-th on, that the database takes where it has not their keys:
they can be bound, have no column without a value, and the statement does not fail. -/
def landing : Nat → List PyValue → List FactRow
  | _, [] => []
  | i, row :: rows =>
    match rowOf env row with
    | none => landing (i + 1) rows
    | some r =>
      if !env.insertFails i && r.complete then r :: landing (i + 1) rows
      else landing (i + 1) rows

def AddsFacts (facts : List PyValue) : Prop :=
  ∃ r ∈ landing env 0 facts, hasFact r.factId db.facts = false

/-- The row is there already, or is the first new one with its key; under `merge` it is
enough that its key is there already or that of a row that is taken. -/
def Lands (facts : List PyValue) (row : PyValue) : Prop :=
  ∃ r, rowOf env row = some r ∧
    ((r ∈ db.facts ∨ hasFact r.factId db.facts = false ∧
        (landing env 0 facts).find? (fun s => s.factId == r.factId) = some r) ∨
      merge = true ∧ hasFact r.factId (db.facts ++ landing env 0 facts) = true)

def isObject : PyValue → Bool
  | .dict _ => true
  | _ => false

/-- An import that gets past its checks, with rows of facts: they are new only where their
file is verified; with owls that cannot be read none is new; and otherwise there are no
owls and every row lands. -/
def Importable : Prop :=
  gate env archive = .proceeds → ∀ facts, factRows env archive merge db = .ok facts →
    (AddsFacts env db facts → Verified env archive COMMITTED_FACTS) ∧
      ((∃ owls, owlRows env archive = .ok owls ∧ owls.all isObject = true) ∨
        ¬ AddsFacts env db facts) ∧
      ∀ owls, owlRows env archive = .ok owls → owls.all isObject = true →
        owls = [] ∧ ∀ row ∈ facts, Lands env merge db facts row

end

/-! ## The rows of the facts -/

section

variable {env : ImportEnv} {db : ImportDb}

theorem facts_insertOrIgnore (r : FactRow) (db : ImportDb) :
    (insertOrIgnore r db).facts =
      if r.complete = true ∧ hasFact r.factId db.facts = false then db.facts ++ [r]
      else db.facts := by
  unfold insertOrIgnore
  split <;> rfl

theorem owlDna_insertOrIgnore (r : FactRow) (db : ImportDb) :
    (insertOrIgnore r db).owlDna = db.owlDna := by
  unfold insertOrIgnore
  split <;> rfl

theorem owlDna_insertFacts (i : Nat) (rows : List PyValue) (db : ImportDb) :
    (insertFacts env i rows db).owlDna = db.owlDna := by
  induction rows generalizing i db with
  | nil => rfl
  | cons row rows ih =>
    rw [insertFacts, ih, importFact]
    split
    · rfl
    · split
      · rfl
      · exact owlDna_insertOrIgnore _ db

theorem hasFact_append (factId : SqlValue) (rows more : List FactRow) :
    hasFact factId (rows ++ more) = (hasFact factId rows || hasFact factId more) :=
  any_append

theorem facts_insertFacts_cons (i : Nat) (row : PyValue) (rows : List PyValue)
    (db : ImportDb) :
    (landing env i (row :: rows) = landing env (i + 1) rows ∧
      insertFacts env i (row :: rows) db = insertFacts env (i + 1) rows db) ∨
    ∃ r, landing env i (row :: rows) = r :: landing env (i + 1) rows ∧
      r.complete = true ∧
      insertFacts env i (row :: rows) db =
        insertFacts env (i + 1) rows (insertOrIgnore r db) := by
  rw [landing, insertFacts, importFact]
  cases hrow : rowOf env row with
  | none => exact .inl ⟨rfl, rfl⟩
  | some r =>
    by_cases hfails : env.insertFails i = true
    · left
      simp [hfails]
    · by_cases hcomplete : r.complete = true
      · right
        exact ⟨r, by simp [hfails, hcomplete], hcomplete, by simp [hfails]⟩
      · left
        have hsame : insertOrIgnore r db = db := by
          rw [insertOrIgnore, dif_neg (fun h => hcomplete h.1)]
        simp [hfails, hcomplete, hsame]

/-- **The facts after a file.**  A row is there that was there before, or whose key was
not and which is the first with that key that lands. -/
theorem mem_insertFacts (i : Nat) (rows : List PyValue) (db : ImportDb) (r : FactRow) :
    r ∈ (insertFacts env i rows db).facts ↔ r ∈ db.facts ∨
      hasFact r.factId db.facts = false ∧
        (landing env i rows).find? (fun s => s.factId == r.factId) = some r := by
  induction rows generalizing i db with
  | nil => simp [insertFacts, landing]
  | cons row rows ih =>
    rcases facts_insertFacts_cons i row rows db with ⟨hland, hrows⟩ |
      ⟨first, hland, hcomplete, hrows⟩
    · rw [hland, hrows, ih]
    · rw [hland, hrows, ih, facts_insertOrIgnore, find?_cons]
      cases hthere : hasFact first.factId db.facts with
      | true =>
        rw [if_neg (by simp)]
        cases hsame : first.factId == r.factId with
        | true =>
          rw [← beq_iff_eq.mp hsame, hthere]
          simp
        | false => rfl
      | false =>
        rw [if_pos ⟨hcomplete, rfl⟩, mem_append, mem_singleton,
          hasFact_append]
        have hfirst : hasFact r.factId [first] = (first.factId == r.factId) :=
          Bool.or_false _
        rw [hfirst]
        cases hsame : first.factId == r.factId with
        | true =>
          rw [← beq_iff_eq.mp hsame, hthere]
          simp [eq_comm]
        | false =>
          have hne : r ≠ first := by
            rintro rfl
            rw [beq_self_eq_true] at hsame
            cases hsame
          simp [hne]

theorem hasFact_insertFacts (rows : List PyValue) (db : ImportDb) (factId : SqlValue) :
    hasFact factId (insertFacts env 0 rows db).facts =
      hasFact factId (db.facts ++ landing env 0 rows) := by
  rw [Bool.eq_iff_iff, hasFact_append, Bool.or_eq_true, hasFact_iff]
  constructor
  · rintro ⟨r, hr, rfl⟩
    rcases (mem_insertFacts 0 rows db r).mp hr with hold | ⟨-, hfind⟩
    · exact .inl (hasFact_iff.mpr ⟨r, hold, rfl⟩)
    · exact .inr (hasFact_iff.mpr ⟨r, mem_of_find?_eq_some hfind, rfl⟩)
  · intro h
    cases hold : hasFact factId db.facts with
    | true =>
      obtain ⟨r, hr, rfl⟩ := hasFact_iff.mp hold
      exact ⟨r, (mem_insertFacts 0 rows db r).mpr (.inl hr), rfl⟩
    | false =>
      rw [hold] at h
      obtain ⟨s, hs, hkey⟩ := hasFact_iff.mp (h.resolve_left Bool.false_ne_true)
      cases hfind : (landing env 0 rows).find? (fun t => t.factId == factId) with
      | none =>
        have hmiss := find?_eq_none.mp hfind s hs
        exact absurd (beq_iff_eq.mpr hkey) hmiss
      | some r =>
        have hr : r.factId = factId := by simpa using find?_some hfind
        refine ⟨r, (mem_insertFacts 0 rows db r).mpr (.inr ?_), hr⟩
        rw [hr]
        exact ⟨hold, hfind⟩

/-- Nothing changes exactly where no row is new. -/
theorem insertFacts_eq_iff (rows : List PyValue) (db : ImportDb) :
    insertFacts env 0 rows db = db ↔ ¬ AddsFacts env db rows := by
  constructor
  · rintro hsame ⟨r, hr, hnew⟩
    have hthere : hasFact r.factId (insertFacts env 0 rows db).facts =
        hasFact r.factId (db.facts ++ landing env 0 rows) := hasFact_insertFacts rows db r.factId
    rw [hsame, hnew, hasFact_append, hnew, Bool.false_or] at hthere
    exact absurd (hasFact_iff.mpr ⟨r, hr, rfl⟩) (by rw [← hthere]; exact Bool.false_ne_true)
  · intro hnone
    have hstep : ∀ i rows, (∀ r ∈ landing env i rows, hasFact r.factId db.facts = true) →
        insertFacts env i rows db = db := by
      intro i rows
      induction rows generalizing i with
      | nil => exact fun _ => rfl
      | cons row rows ih =>
        intro hold
        rcases facts_insertFacts_cons i row rows db with ⟨hland, hrows⟩ |
          ⟨first, hland, hcomplete, hrows⟩
        · rw [hrows]
          exact ih (i + 1) (hland ▸ hold)
        · rw [hland, forall_mem_cons] at hold
          have hsame : insertOrIgnore first db = db := by
            rw [insertOrIgnore, dif_neg]
            rintro ⟨-, hnew⟩
            rw [hold.1] at hnew
            cases hnew
          rw [hrows, hsame]
          exact ih (i + 1) hold.2
    refine hstep 0 rows fun r hr => ?_
    by_contra hnew
    exact hnone ⟨r, hr, by simpa using hnew⟩

theorem importOwls_eq (owls : List PyValue) (db : ImportDb) :
    importOwls owls db = (db, owls.all isObject) := by
  induction owls with
  | nil => rfl
  | cons owl owls ih =>
    cases owl with
    | dict items =>
      rw [importOwls, replaceOwlDna_refused]
      exact ih
    | none | bool _ | int _ | float _ | str _ | list _ | tuple _ => rfl

theorem not_owlPresent (row : PyValue) (db' : ImportDb) : ¬ OwlPresent env row db' := by
  rintro ⟨items, owlName, dnaJson, -, -, -, stored, hstored, -, hdna⟩
  have hcolumn : "dna_json" ∈ OWL_DNA_COLUMNS := by
    rw [← db'.columns stored hstored]
    exact mem_map_of_mem hdna
  revert hcolumn
  decide

theorem mem_landing {i : Nat} {rows : List PyValue} {r : FactRow}
    (h : r ∈ landing env i rows) : ∃ row ∈ rows, rowOf env row = some r := by
  induction rows generalizing i with
  | nil => cases h
  | cons row rows ih =>
    rw [landing] at h
    cases hrow : rowOf env row with
    | none =>
      rw [hrow] at h
      obtain ⟨row', hmem, hrow'⟩ := ih h
      exact ⟨row', mem_cons_of_mem _ hmem, hrow'⟩
    | some s =>
      rw [hrow] at h
      dsimp only at h
      split at h
      · rcases mem_cons.mp h with rfl | hrest
        · exact ⟨row, mem_cons_self, hrow⟩
        · obtain ⟨row', hmem, hrow'⟩ := ih hrest
          exact ⟨row', mem_cons_of_mem _ hmem, hrow'⟩
      · obtain ⟨row', hmem, hrow'⟩ := ih h
        exact ⟨row', mem_cons_of_mem _ hmem, hrow'⟩

end

/-! ## Imports -/

section

variable {env : ImportEnv} {ι : Type} {archive : Archive ι} {merge : Bool} {db : ImportDb}

variable {facts : List PyValue}

theorem rows_of_factRows (h : factRows env archive merge db = .ok facts) :
    facts = [] ∨ ∃ bytes rows, archive.member COMMITTED_FACTS = .file bytes ∧
      loadsFile env.limits bytes = some rows ∧ iterate rows = some facts := by
  unfold factRows at h
  split at h
  · cases h
    exact .inl rfl
  · cases h
  · rename_i bytes hbytes
    split at h
    · cases h
    · rename_i rows hrows
      split at h
      · cases h
        exact .inl rfl
      split at h
      · cases h
      split at h
      · cases h
        exact .inl rfl
      split at h
      · cases h
      · rename_i items hitems
        cases h
        exact .inr ⟨bytes, rows, hbytes, hrows, hitems⟩

/-- Past the checks, the rows of facts are inserted, and owls decide how it ends. -/
theorem run_proceeds (hgate : gate env archive = .proceeds)
    (hfacts : factRows env archive merge db = .ok facts) :
    run env archive merge db =
      (insertFacts env 0 facts db,
        match owlRows env archive with
        | .error () => .raised
        | .ok owls => if owls.all isObject then .returned else .raised) := by
  unfold run
  rw [hgate, hfacts]
  dsimp only
  cases owlRows env archive with
  | error e => rfl
  | ok owls =>
    dsimp only
    rw [importOwls_eq]
    cases owls.all isObject <;> rfl

/-- Only rows of a verified file are added exactly where the file of facts is verified, or
adds nothing. -/
theorem onlyVerified_iff (hfacts : factRows env archive merge db = .ok facts) :
    OnlyVerified env archive db (insertFacts env 0 facts db) ↔
      (AddsFacts env db facts → Verified env archive COMMITTED_FACTS) := by
  constructor
  · rintro ⟨-, hnew, -⟩ ⟨r, hr, hfresh⟩
    have hthere : hasFact r.factId (insertFacts env 0 facts db).facts = true := by
      rw [hasFact_insertFacts, hasFact_append, hasFact_iff.mpr ⟨r, hr, rfl⟩, Bool.or_true]
    obtain ⟨s, hs, hkey⟩ := hasFact_iff.mp hthere
    rcases hnew s hs with hold | ⟨hverified, -⟩
    · rw [hasFact_iff.mpr ⟨s, hold, hkey⟩] at hfresh
      cases hfresh
    · exact hverified
  · intro hverified
    refine ⟨fun r hr => (mem_insertFacts 0 facts db r).mpr (.inl hr), fun r hr => ?_,
      .inl (owlDna_insertFacts 0 facts db)⟩
    rcases (mem_insertFacts 0 facts db r).mp hr with hold | ⟨hfresh, hfind⟩
    · exact .inl hold
    · have hland := mem_of_find?_eq_some hfind
      obtain ⟨row, hrow, hbound⟩ := mem_landing hland
      rcases rows_of_factRows hfacts with rfl | ⟨bytes, rows, hbytes, hrows, hitems⟩
      · cases hrow
      · exact .inr ⟨hverified ⟨r, hland, hfresh⟩, bytes, rows, facts, row, hbytes, hrows,
          hitems, hrow, hbound⟩

theorem factPresent_iff (facts : List PyValue) (row : PyValue) :
    FactPresent env merge row (insertFacts env 0 facts db) ↔
      Lands env merge db facts row := by
  simp only [FactPresent, Lands, mem_insertFacts, hasFact_insertFacts]

/-- **All or nothing.**  An import does what it is for exactly where its checks stop it,
or the rows it adds are those of a verified file, no owl that cannot be read follows rows
that were added, and an import that ends well has no owls and rows that all land. -/
theorem import_holds_iff (env : ImportEnv) {ι : Type} (archive : Archive ι) (merge : Bool)
    (db : ImportDb) :
    ImportHolds env archive merge db ↔ Importable env archive merge db := by
  have hstopped : ∀ outcome, outcome ≠ .returned →
      run env archive merge db = (db, outcome) → ImportHolds env archive merge db := by
    intro outcome hne hrun
    rw [ImportHolds, hrun]
    exact ⟨⟨fun r hr => hr, fun r hr => .inl hr, .inl rfl⟩, fun _ => rfl,
      fun hreturned => absurd hreturned hne⟩
  cases hgate : gate env archive with
  | raises =>
    have hrun : run env archive merge db = (db, .raised) := by
      unfold run
      rw [hgate]
    refine iff_of_true (hstopped _ (by decide) hrun) fun hproceeds => ?_
    rw [hgate] at hproceeds
    cases hproceeds
  | aborts =>
    have hrun : run env archive merge db = (db, .aborted) := by
      unfold run
      rw [hgate]
    refine iff_of_true (hstopped _ (by decide) hrun) fun hproceeds => ?_
    rw [hgate] at hproceeds
    cases hproceeds
  | proceeds =>
    cases hfacts : factRows env archive merge db with
    | error e =>
      have hrun : run env archive merge db = (db, .raised) := by
        unfold run
        rw [hgate, hfacts]
      refine iff_of_true (hstopped _ (by decide) hrun) fun _ facts h => ?_
      rw [hfacts] at h
      cases h
    | ok facts =>
      simp only [Importable, hgate, hfacts, true_implies, Except.ok.injEq, forall_eq']
      rw [ImportHolds, run_proceeds hgate hfacts, hfacts]
      simp only [onlyVerified_iff hfacts, Except.ok.injEq, factPresent_iff]
      refine and_congr_right fun _ => ?_
      cases howls : owlRows env archive with
      | error e => simp [insertFacts_eq_iff]
      | ok owls =>
        have hwhole : (∃ owls', Except.ok owls = (Except.ok owls' : Except Unit _) ∧
            owls'.all isObject = true) ↔ owls.all isObject = true := by
          simp only [Except.ok.injEq, exists_eq_left']
        rw [hwhole]
        simp only [Except.ok.injEq, forall_eq']
        cases hall : owls.all isObject with
        | false => simp only [Bool.false_eq_true, if_false, insertFacts_eq_iff,
            true_implies, reduceCtorEq, false_implies, and_true, false_or]
        | true =>
          simp only [if_true, reduceCtorEq, false_implies, true_implies, true_and,
            true_or]
          cases owls with
          | nil => simp
          | cons owl owls =>
            refine iff_of_false ?_ (fun h => cons_ne_nil owl owls h.1)
            exact fun h => not_owlPresent owl _
              ((h facts _ rfl rfl).2 owl mem_cons_self)

end

def emptyDb : ImportDb := ⟨[], [], nodup_nil, by rintro row ⟨⟩⟩

/-- A manifest that lists nothing, and a file of facts beside it. -/
def unlistedArchive : Archive Text where
  extracts := true
  place name := name
  entry name :=
    if name = MANIFEST then .file (utf8 "\x7b\"stackowl_version\": \"2.0.0\"\x7d")
    else if name = COMMITTED_FACTS then .file (utf8 "[\x7b\"fact_id\": \"a\"\x7d]")
    else .missing

def plainEnv : ImportEnv where
  rounds _ := 0
  limits := ⟨990, 4300⟩
  int version := if version = Text.ofString "2" then some 2 else none
  realText _ := "0.0"
  answer := none
  countFails := false
  insertFails _ := false

theorem loadsFile_print {limits : Limits} {s : String} {t : JsonTree}
    (htext : Text.ofString s = t.print) (hfits : t.fits limits.digits = true)
    (hwithin : t.within limits.depth = true) :
    loadsFile limits (utf8 s) = some (ofJson t) := by
  rw [loadsFile, utf8Decode_utf8]
  dsimp only
  rw [htext, loadsText, loads_print hfits, hwithin]
  rfl

/-- **Unlisted.**  The facts of a file that the manifest does not list are imported. -/
theorem unlisted_imported : ¬ ImportHolds plainEnv unlistedArchive true emptyDb := by
  have hmanifest : manifestOf plainEnv unlistedArchive =
      some [(.str (Text.ofString "stackowl_version"), strValue "2.0.0")] := by
    have hload : loadsFile plainEnv.limits (utf8 "\x7b\"stackowl_version\": \"2.0.0\"\x7d") =
        some (ofJson (.obj [(Text.ofString "stackowl_version",
          .str (Text.ofString "2.0.0"))])) := loadsFile_print (by decide) rfl rfl
    have hmember : unlistedArchive.member MANIFEST =
        .file (utf8 "\x7b\"stackowl_version\": \"2.0.0\"\x7d") := rfl
    rw [manifestOf, hmember]
    simp only [hload]
    rfl
  have hgate : gate plainEnv unlistedArchive = .proceeds := by
    have hextracts : unlistedArchive.extracts = true := rfl
    rw [gate, if_pos hextracts, hmanifest]
    rfl
  have hfacts : factRows plainEnv unlistedArchive true emptyDb =
      .ok [.dict [(.str (Text.ofString "fact_id"), strValue "a")]] := by
    have hload : loadsFile plainEnv.limits (utf8 "[\x7b\"fact_id\": \"a\"\x7d]") =
        some (ofJson (.arr [.obj [(Text.ofString "fact_id", .str (Text.ofString "a"))]])) :=
      loadsFile_print (by decide) rfl rfl
    have hmember : unlistedArchive.member COMMITTED_FACTS =
        .file (utf8 "[\x7b\"fact_id\": \"a\"\x7d]") := rfl
    rw [factRows, hmember]
    simp only [hload]
    rfl
  have hadds : AddsFacts plainEnv emptyDb
      [.dict [(.str (Text.ofString "fact_id"), strValue "a")]] := by
    refine ⟨⟨.text "a", .text "", .blob [], .text "none", .text "", .text "user_explicit",
      .text "", .text "[]"⟩, ?_, rfl⟩
    exact mem_singleton.mpr rfl
  intro hholds
  rw [ImportHolds, run_proceeds hgate hfacts] at hholds
  obtain ⟨manifest, files, hm, hlisted, other, hash, bytes, hfile, -⟩ :=
    (onlyVerified_iff hfacts).mp hholds.1 hadds
  rw [hmanifest] at hm
  cases hm
  cases hlisted
  cases hfile

end StackOwl.Export
