import StackOwl.Durable.Delivery

/-!
# Leases

A worker wins a row with `claim`, which leases it, and ends its drive with one of
`mark_delivered`, `mark_completed_unaddressed` and `fail_and_requeue`;
`reclaim_expired` takes back a row whose lease ran out.  The claim compares the
status and the sweep compares the expiry, but the finalizers name the row only,
so exclusion rests on who issues them and when.

The system here is one row, the drives that won a claim on it, and a clock.

## Main results

* `leaseInv_step` — an unexpired claim is the lease on the row, and there is at
  most one.
* `lease_exclusion` — exclusion, in every run whose finalizers come from the
  current holder or find the row unheld.
-/

namespace StackOwl.Durable

open Lib

/-- A drive that won a claim: its worker, the expiry of the lease it was given,
and whether it has finalized the row. -/
structure Drive where
  worker : String
  expires : Stamp
  settled : Bool := false

/-- The database, the clock and the drives, in the order of their claims. -/
structure LeaseSys where
  db : Db
  clock : Stamp
  drives : List Drive := []

/-- How a drive ends.  `fail_and_requeue` carries the row its `get` answered. -/
inductive Finalizer where
  | delivered (result : String)
  | unaddressed (result : String)
  | failed (row : DurableTask) (call : FailCall)

def Finalizer.op (owner taskId : String) (now : Stamp) : Finalizer → Op
  | .delivered result => .markDelivered owner taskId result now
  | .unaddressed result => .markCompletedUnaddressed owner taskId result now
  | .failed row call => .failAndRequeue owner taskId row { call with now }

/-- One step: some time passes, then one statement runs. -/
inductive LeaseOp where
  | claim (elapsed : Nat) (worker : String) (leaseSeconds : Int)
  | finalize (elapsed : Nat) (drive : Nat) (how : Finalizer)
  | reclaimExpired (elapsed : Nat)

def LeaseOp.elapsed : LeaseOp → Nat
  | .claim elapsed _ _ => elapsed
  | .finalize elapsed _ _ => elapsed
  | .reclaimExpired elapsed => elapsed

def LeaseSys.instant (sys : LeaseSys) (op : LeaseOp) : Stamp :=
  sys.clock + op.elapsed

/-- One step of the system.  Only a drive that won a claim finalizes; a
transaction that raises leaves the drive unsettled. -/
def leaseStep (owner taskId : String) (sys : LeaseSys) (op : LeaseOp) :
    LeaseSys :=
  let now := sys.instant op
  match op with
  | .claim _ worker leaseSeconds =>
    match claim owner taskId worker leaseSeconds now sys.db with
    | .error _ => { sys with clock := now }
    | .ok (db, false) => { sys with db, clock := now }
    | .ok (db, true) =>
      { db, clock := now
        drives := sys.drives ++
          [{ worker, expires := now + seconds leaseSeconds }] }
  | .finalize _ j how =>
    match sys.drives[j]? with
    | none => { sys with clock := now }
    | some drive =>
      match (how.op owner taskId now).transaction sys.db with
      | .error _ => { sys with clock := now }
      | .ok db =>
        { db, clock := now
          drives := sys.drives.set j { drive with settled := true } }
  | .reclaimExpired _ =>
    { sys with db := step sys.db (.reclaimExpired owner now), clock := now }

/-! ## Exclusion -/

/-- The `j`-th claim is unexpired: its drive has not finalized and its lease has
not run out. -/
def Unexpired (drives : List Drive) (now : Stamp) (j : Nat) : Prop :=
  ∃ drive, drives[j]? = some drive ∧ drive.settled = false ∧ now < drive.expires

def leaseColumns (db : Db) (owner taskId : String) :
    Option (TaskStatus × Option String × Option Stamp × Option Int) :=
  (db.find owner taskId).map
    (fun r => (r.status, r.leaseOwner, r.leaseExpiresAt, r.attemptCount))

/-- At no time do two unexpired claims exist. -/
def OneClaim (sys : LeaseSys) : Prop :=
  ∀ j k, Unexpired sys.drives sys.clock j → Unexpired sys.drives sys.clock k →
    j = k

/-- A claim wins only when no other is unexpired; a finalizer leaves the columns
of another drive's unexpired lease alone, and so does the sweep. -/
def RespectsLease (owner taskId : String) (sys : LeaseSys) (op : LeaseOp) :
    Prop :=
  match op with
  | .claim _ worker leaseSeconds =>
    (∃ db, claim owner taskId worker leaseSeconds (sys.instant op) sys.db = .ok (db, true)) →
        ∀ j, ¬ Unexpired sys.drives (sys.instant op) j
  | .finalize _ j _ =>
    (∃ k, k ≠ j ∧ Unexpired sys.drives (sys.instant op) k) →
      leaseColumns (leaseStep owner taskId sys op).db owner taskId =
        leaseColumns sys.db owner taskId
  | .reclaimExpired _ =>
    (∃ k, Unexpired sys.drives (sys.instant op) k) →
      leaseColumns (leaseStep owner taskId sys op).db owner taskId =
        leaseColumns sys.db owner taskId

/-- The row is leased, and the lease has not run out. -/
def RowHeld (owner taskId : String) (now : Stamp) (db : Db) : Prop :=
  ∃ r expires, db.find owner taskId = some r ∧ r.status = .running ∧
    r.leaseExpiresAt = some expires ∧ now < expires

/-- A finalizer is issued by the drive whose claim is unexpired, or on a row that
nobody holds. -/
def CurrentFinalizer (owner taskId : String) (sys : LeaseSys) (op : LeaseOp) :
    Prop :=
  match op with
  | .finalize _ j _ => Unexpired sys.drives (sys.instant op) j ∨
      ¬ RowHeld owner taskId (sys.instant op) sys.db
  | _ => True

/-! ## The invariant -/

/-- At `now`, every unexpired claim is the lease on the row, and there is at most
one. -/
structure LeaseInv (owner taskId : String) (db : Db) (drives : List Drive)
    (now : Stamp) : Prop where
  leased : ∀ (j : Nat) (drive : Drive), drives[j]? = some drive →
    drive.settled = false → now < drive.expires → ∃ r, db.find owner taskId = some r ∧
      r.status = .running ∧ r.leaseOwner = some drive.worker ∧
      r.leaseExpiresAt = some drive.expires
  one : ∀ j k, Unexpired drives now j → Unexpired drives now k → j = k

variable {drives : List Drive} {j : Nat}

theorem Unexpired.earlier {now later : Stamp} (hle : now ≤ later) (h : Unexpired drives later j)
    : Unexpired drives now j := by
  obtain ⟨drive, hdrive, hopen, hlt⟩ := h
  exact ⟨drive, hdrive, hopen, Int.lt_of_le_of_lt hle hlt⟩

theorem LeaseInv.later {owner taskId : String} {db : Db} {now later : Stamp} (hle : now ≤ later)
    (h : LeaseInv owner taskId db drives now) :
    LeaseInv owner taskId db drives later where
  leased j drive hdrive hopen hlt :=
    h.leased j drive hdrive hopen (Int.lt_of_le_of_lt hle hlt)
  one j k hj hk := h.one j k (hj.earlier hle) (hk.earlier hle)

variable {owner taskId : String} {now : Stamp}

theorem leaseInv_of_none {db : Db} (h : ∀ j, ¬ Unexpired drives now j) :
    LeaseInv owner taskId db drives now where
  leased j drive hdrive hopen hlt := absurd ⟨drive, hdrive, hopen, hlt⟩ (h j)
  one j _ hj _ := absurd hj (h j)

theorem LeaseInv.held {db : Db} (h : LeaseInv owner taskId db drives now)
    (hj : Unexpired drives now j) : RowHeld owner taskId now db := by
  obtain ⟨drive, hdrive, hopen, hlt⟩ := hj
  obtain ⟨r, hr, hrunning, -, hexpires⟩ := h.leased j drive hdrive hopen hlt
  exact ⟨r, drive.expires, hr, hrunning, hexpires, hlt⟩

variable {db db' : Db}

theorem LeaseInv.of_columns (h : LeaseInv owner taskId db drives now)
    (hsame : leaseColumns db' owner taskId = leaseColumns db owner taskId) :
    LeaseInv owner taskId db' drives now where
  leased j drive hdrive hopen hlt := by
    obtain ⟨r, hr, hstatus, howner, hexpires⟩ := h.leased j drive hdrive hopen hlt
    unfold leaseColumns at hsame
    rw [hr, Option.map_some, Option.map_eq_some_iff] at hsame
    obtain ⟨r', hr', hcolumns⟩ := hsame
    simp only [Prod.mk.injEq] at hcolumns
    exact ⟨r', hr', hcolumns.1.trans hstatus, hcolumns.2.1.trans howner,
      hcolumns.2.2.1.trans hexpires⟩
  one := h.one

/-! ## One step -/

theorem unexpired_set {k : Nat} {drive : Drive}
    (h : Unexpired (drives.set j { drive with settled := true }) now k)
    : k ≠ j ∧ Unexpired drives now k := by
  obtain ⟨d, hd, hopen, hlt⟩ := h
  rw [List.getElem?_set] at hd
  by_cases hkey : j = k
  · rw [if_pos hkey] at hd
    split at hd
    · cases hd
      cases hopen
    · cases hd
  · rw [if_neg hkey] at hd
    exact ⟨fun heq => hkey heq.symm, d, hd, hopen, hlt⟩

variable {leaseSeconds : Int}

/-- A claim that wins found the row pending, and leaves it leased to the
worker. -/
theorem claim_won {worker : String}
    (h : claim owner taskId worker leaseSeconds now db = .ok (db', true)) :
    ∃ r, db.find owner taskId = some r ∧ r.status = .pending ∧
      db'.find owner taskId =
        some ((claimSql owner taskId worker (now + seconds leaseSeconds) now).set r) := by
  obtain ⟨hupd, hwins⟩ := claim_spec h
  unfold claimWins at hwins
  cases hr : db.find owner taskId with
  | none =>
    rw [hr] at hwins
    cases hwins
  | some r =>
    have hpending : r.status = .pending := by
      rw [hr] at hwins
      simpa using hwins.symm
    have hguard : (claimSql owner taskId worker (now + seconds leaseSeconds) now).guard r = true :=
      claimSql_guard_iff.mpr ⟨Table.sat_of_find? hr, hpending⟩
    exact ⟨r, rfl, hpending, hupd.find_matched hr hguard⟩

theorem claim_lost {worker : String}
    (h : claim owner taskId worker leaseSeconds now db = .ok (db', false)) :
    db'.find owner taskId = db.find owner taskId := by
  obtain ⟨hupd, hwins⟩ := claim_spec h
  rw [hupd.find]
  cases hr : db.find owner taskId with
  | none => rfl
  | some r =>
    have hguard : (claimSql owner taskId worker (now + seconds leaseSeconds)
        now).guard r = false := by
      by_contra hg
      have hpending := (claimSql_guard_iff.mp (Bool.not_eq_false _ ▸ hg)).2
      simp [claimWins, hr, hpending] at hwins
    rw [Option.map_some, Update.on_of_not_guard hguard]

section

variable {owner taskId worker : String} (hinv : LeaseInv owner taskId db drives now)
  (h : claim owner taskId worker leaseSeconds now db = .ok (db', true))

include hinv h

theorem not_unexpired_of_won (j : Nat) : ¬ Unexpired drives now j := by
  intro hj
  obtain ⟨r, hr, hpending, -⟩ := claim_won h
  obtain ⟨s, -, hs, hrunning, -⟩ := hinv.held hj
  rw [hr] at hs
  cases hs
  rw [hpending] at hrunning
  cases hrunning

theorem leaseInv_claim :
    LeaseInv owner taskId db'
      (drives ++ [{ worker, expires := now + seconds leaseSeconds }]) now := by
  have hnone := not_unexpired_of_won hinv h
  obtain ⟨r, hr, -, hrow⟩ := claim_won h
  have hnew : ∀ j, Unexpired
      (drives ++ [{ worker, expires := now + seconds leaseSeconds }]) now j →
        j = drives.length := by
    rintro j ⟨drive, hdrive, hopen, hlt⟩
    by_contra hne
    rw [List.getElem?_append] at hdrive
    split at hdrive
    · exact hnone j ⟨drive, hdrive, hopen, hlt⟩
    · have hpos : j - drives.length ≠ 0 := by omega
      obtain ⟨n, hn⟩ := Nat.exists_eq_succ_of_ne_zero hpos
      rw [hn] at hdrive
      cases hdrive
  refine ⟨fun j drive hdrive hopen hlt => ?_, fun j k hj hk => ?_⟩
  · have hj := hnew j ⟨drive, hdrive, hopen, hlt⟩
    rw [hj, List.getElem?_concat_length] at hdrive
    cases hdrive
    exact ⟨_, hrow, rfl, rfl, rfl⟩
  · rw [hnew j hj, hnew k hk]

end

/-- The lease sweep leaves an unexpired lease alone. -/
theorem reclaimExpired_keeps (h : RowHeld owner taskId now db) :
    (step db (.reclaimExpired owner now)).find owner taskId =
      db.find owner taskId := by
  obtain ⟨r, expires, hr, -, hexpires, hlt⟩ := h
  have hguard : (reclaimExpiredSql owner now).guard r = false := by
    by_contra hg
    obtain ⟨-, e, he, hle⟩ :=
      reclaimExpiredSql_guard_iff.mp (Bool.not_eq_false _ ▸ hg)
    rw [hexpires] at he
    cases he
    exact absurd hle (Int.not_le.mpr hlt)
  rcases step_find db (.reclaimExpired owner now) owner taskId with hsame | heffect
  · exact hsame
  · rw [heffect, hr]
    show some ((reclaimExpiredSql owner now).on r) = some r
    rw [Update.on_of_not_guard hguard]

def LeaseSys.Inv (owner taskId : String) (sys : LeaseSys) : Prop :=
  LeaseInv owner taskId sys.db sys.drives sys.clock

variable {sys : LeaseSys}

theorem LeaseSys.Inv.instant (h : sys.Inv owner taskId) (op : LeaseOp) :
    LeaseInv owner taskId sys.db sys.drives (sys.instant op) :=
  LeaseInv.later (Int.le_add_of_nonneg_right (Int.natCast_nonneg _)) h

theorem leaseInv_step {op : LeaseOp} (h : sys.Inv owner taskId)
    (hop : CurrentFinalizer owner taskId sys op) :
    (leaseStep owner taskId sys op).Inv owner taskId := by
  have hnow := h.instant op
  cases op with
  | claim elapsed worker leaseSeconds =>
    unfold leaseStep
    dsimp only
    split
    · exact hnow
    · rename_i db hlost
      apply hnow.of_columns
      rw [leaseColumns, leaseColumns, claim_lost hlost]
    · rename_i db hwon
      exact leaseInv_claim hnow hwon
  | finalize elapsed j how =>
    unfold leaseStep
    dsimp only
    split
    · exact hnow
    · rename_i drive hdrive
      split
      · exact hnow
      · rename_i db hok
        apply leaseInv_of_none
        intro k hk
        obtain ⟨hne, hk⟩ := unexpired_set hk
        rcases hop with hcurrent | hfree
        · exact hne (hnow.one k j hk hcurrent)
        · exact hfree (hnow.held hk)
  | reclaimExpired elapsed =>
    by_cases hheld : RowHeld owner taskId
        (sys.instant (.reclaimExpired elapsed)) sys.db
    · apply hnow.of_columns
      rw [leaseColumns, leaseColumns]
      exact congrArg _ (reclaimExpired_keeps hheld)
    · exact leaseInv_of_none (fun j hj => hheld (hnow.held hj))

theorem respectsLease_step {op : LeaseOp} (h : sys.Inv owner taskId)
    (hop : CurrentFinalizer owner taskId sys op) :
    RespectsLease owner taskId sys op := by
  have hnow := h.instant op
  cases op with
  | claim elapsed worker leaseSeconds =>
    rintro ⟨db, hwon⟩ j
    exact not_unexpired_of_won hnow hwon j
  | finalize elapsed j how =>
    rintro ⟨k, hne, hk⟩
    rcases hop with hcurrent | hfree
    · exact absurd (hnow.one k j hk hcurrent) hne
    · exact absurd (hnow.held hk) hfree
  | reclaimExpired elapsed =>
    rintro ⟨k, hk⟩
    rw [leaseColumns, leaseColumns]
    exact congrArg _ (reclaimExpired_keeps (hnow.held hk))

/-- **Lease exclusion**, from a system without drives, in every run whose
finalizers are issued by the current holder or find the row unheld. -/
theorem lease_exclusion (owner taskId : String) (db : Db) (clock : Stamp)
    (ops : List LeaseOp)
    (h : Meets (leaseStep owner taskId) (CurrentFinalizer owner taskId) { db, clock } ops) :
    Meets (leaseStep owner taskId) (RespectsLease owner taskId) { db, clock } ops ∧
      Along (leaseStep owner taskId) OneClaim { db, clock } ops := by
  have hstart : LeaseSys.Inv owner taskId { db, clock } :=
    leaseInv_of_none (fun j ⟨_, hdrive, _⟩ => by cases hdrive)
  have hinv := along_of_meets (fun sys op => leaseInv_step) hstart h
  refine ⟨meets_of_meets (fun sys op => leaseInv_step)
    (fun sys op => respectsLease_step) hstart h, ?_⟩
  exact hinv.mono (fun sys hsys => hsys.one)

/-- The lease of the first worker runs out; the second worker claims the row and
the first reports its failure. -/
def staleFailureRun : List LeaseOp :=
  [.claim 0 "worker-a" DEFAULT_LEASE_SECONDS,
   .reclaimExpired 901000000,
   .claim 0 "worker-b" DEFAULT_LEASE_SECONDS,
   .finalize 1000000 0 (.failed chatTask { error := "boom", now := 0 })]

def chatDb : Db := run step Db.fresh [.enqueue DEFAULT_PRINCIPAL_ID chatTask]

/-- The stale failure hands the row the second worker holds back to the loop, and
a third worker wins it while the second lease still runs. -/
theorem lease_not_exclusive :
    ¬ Meets (leaseStep DEFAULT_PRINCIPAL_ID "task-1")
        (RespectsLease DEFAULT_PRINCIPAL_ID "task-1") { db := chatDb, clock := 0 }
        staleFailureRun ∧
      ¬ Along (leaseStep DEFAULT_PRINCIPAL_ID "task-1") OneClaim
        { db := chatDb, clock := 0 }
        (staleFailureRun ++ [.claim 6000000 "worker-c" DEFAULT_LEASE_SECONDS]) := by
  constructor
  · rintro ⟨-, -, -, hstale, -⟩
    have hsame := hstale ⟨1, by decide, _, rfl, rfl, by decide⟩
    exact absurd hsame (by decide)
  · intro hone
    have htwo := hone.last 1 2 ⟨_, rfl, rfl, by decide⟩ ⟨_, rfl, rfl, by decide⟩
    cases htwo

/-- The second worker claims behind the lease of the first and finalizes while its own runs. -/
theorem lease_exclusion_here :
    Meets (leaseStep DEFAULT_PRINCIPAL_ID "task-1")
        (RespectsLease DEFAULT_PRINCIPAL_ID "task-1") { db := chatDb, clock := 0 }
        (staleFailureRun.take 3 ++ [.finalize 1000000 1 (.delivered "the summary")]) ∧
      Along (leaseStep DEFAULT_PRINCIPAL_ID "task-1") OneClaim
        { db := chatDb, clock := 0 }
        (staleFailureRun.take 3 ++ [.finalize 1000000 1 (.delivered "the summary")]) := by
  refine lease_exclusion _ _ _ _ _ ⟨trivial, trivial, trivial, ?_, trivial⟩
  exact Or.inl ⟨_, rfl, rfl, by decide⟩

end StackOwl.Durable
