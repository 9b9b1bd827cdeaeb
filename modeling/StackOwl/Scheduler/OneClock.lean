import StackOwl.Scheduler.DailySlots
import StackOwl.Scheduler.Grammar
import StackOwl.Scheduler.Routines

/-!
# The clock of a slot

Whoever computes the slot of a `daily@HH:MM` job asks `compute_next_run` with the timezone
of its `JobScheduler`.  The running one has the configured timezone; each handler in
`scheduler/commands.py` makes one of its own, and gives it none.

## Main results

* `written_eq` — a statement that computes a slot writes the next run of the schedule in the
  timezone of its scheduler.
* `one_clock_iff` — the slot is the one of the running scheduler exactly on that scheduler, or
  where the configured timezone shows the time of UTC; and both are the next `HH:MM` in that
  timezone exactly if the call goes well besides.
* `resumed_in_utc` — a job that is resumed by a command, in New York.
-/

namespace StackOwl.Scheduler

open Lib
open Commands (CreateJobPayload Surroundings newJob)

/-! ## Schedules -/

def slotOf (hour minute : Int) : Option HourMinute :=
  if h : (0 ≤ hour ∧ hour ≤ 23) ∧ 0 ≤ minute ∧ minute ≤ 59 then
    some ⟨hour.toNat, minute.toNat, by omega, by omega⟩
  else none

/-- The slot of a schedule that `compute_next_run` takes for a daily one. -/
def dailySlot (chars : Characters) (schedule : String) : Option HourMinute :=
  if ['d', 'a', 'i', 'l', 'y', '@'] <+: schedule.toList then do
    let (hour, minute) ← chars.parseDailyHhmm schedule.toList
    slotOf hour minute
  else none

def EPOCH : Int := 719162 * DAY

def MAX_MICROS : Nat := MAX_DAYS * SECONDS_PER_DAY * MICROS_PER_SECOND

def unix (t : Instant) : Int := t.val - EPOCH

/-- It stays at the ends of the calendar where Python raises. -/
def ofUnix (micros : Int) : Instant :=
  ⟨min (micros + EPOCH).toNat (MAX_MICROS - 1),
    Nat.lt_of_le_of_lt (Nat.min_le_right _ _) (by decide)⟩

/-- The digits of the language, the time zone database, and what `compute_next_run` makes of
the other schedules. -/
structure Clocks where
  chars : Characters
  zoneInfo : String → Option Zone
  others : (schedule tz : String) → Instant → Instant

def computeNextRun (clocks : Clocks) (schedule tz : String) (now : Instant) : Instant :=
  match dailySlot clocks.chars schedule with
  | some slot => ofUnix (nextLocalHhmm clocks.zoneInfo slot tz (unix now))
  | none => clocks.others schedule tz now

/-! ## Schedulers -/

/-- `JobScheduler`, as far as it computes slots. -/
structure JobScheduler where
  tz : String := "UTC"

/-- `tz=settings.system.timezone or "UTC"`. -/
def configuredTz (timezone : String) : String := if timezone = "" then "UTC" else timezone

inductive Route where
  /-- The scheduler that runs. -/
  | running
  /-- `JobScheduler(db=db)`, of a handler in `scheduler/commands.py`. -/
  | handler

def Route.scheduler (timezone : String) : Route → JobScheduler
  | .running => { tz := configuredTz timezone }
  | .handler => {}

def JobScheduler.world (base : World) (clocks : Clocks) (scheduler : JobScheduler) : World :=
  { base with
    computeNextRun := fun schedule now => computeNextRun clocks schedule scheduler.tz now }

/-! ## Statements that write a slot -/

/-- A statement that may write `next_run_at`: a stretch of a routine, on the row of its job,
or the insertion of `create_job`. -/
inductive Writer where
  | stretch (k : Routine) (db : Tables) (x : Answer) (row : Row)
  | create (p : CreateJobPayload) (x : Surroundings)

/-- The schedule a stretch computes a slot of: a one-shot has its own, an edit of the goal
keeps the one there is, and a failed run is retried at its own slot first. -/
def Routine.armed (base : World) (now : Instant) (k : Routine) : Option String :=
  match k.phase with
  | .skipping =>
    if k.job.runOnce = false ∧ base.stuck k.job.nextRunAt now = true then
      some k.job.schedule
    else none
  | .releasing =>
    if k.read.isRunNow = true ∧ k.job.runOnce = false then some k.job.schedule else none
  | .settling result =>
    if k.job.runOnce = false ∧ (result.trustworthy = true ∨ willRetry base k.job = false) then
      some k.job.schedule
    else none
  | .restoring _ | .resuming | .reapingStale =>
    if k.job.runOnce = false then some k.job.schedule else none
  | .editing e => e.schedule
  | .dropping => some k.job.schedule
  | _ => none

def Writer.armed (base : World) (now : Instant) : Writer → Option String
  | .stretch k _ _ _ => k.armed base now
  | .create p _ => some p.schedule

def Writer.written (w : World) (now : Instant) : Writer → Option String
  | .stretch k db x row =>
    ((k.stretch w now x db).write.apply (some row)).map fun row => row.nextRunAt
  | .create p x => some (newJob p { x with nextRun := w.nextRun now }).nextRunAt

section

variable {base : World} {clocks : Clocks} {now : Instant} {schedule : String}

theorem stretch_armed {w : World} {k : Routine} {db : Tables} {x : Answer} {row : Row}
    (harmed : k.armed w now = some schedule) :
    ((k.stretch w now x db).write.apply (some row)).map (fun row => row.nextRunAt) =
      some (w.nextRun now schedule) := by
  unfold Routine.armed at harmed
  unfold Routine.stretch
  cases hphase : k.phase <;>
    simp only [hphase, Option.ite_none_right_eq_some, Option.some.injEq, reduceCtorEq] at harmed
  case skipping =>
    obtain ⟨⟨honce, hstands⟩, rfl⟩ := harmed
    simp only [advancePastServicedOccurrence, honce, hstands, Bool.false_eq_true, if_false,
      if_true]
    rfl
  case releasing =>
    obtain ⟨⟨hpoll, honce⟩, rfl⟩ := harmed
    simp only [release, restoreAfterRun, hpoll, honce, Bool.false_eq_true, if_false, if_true]
    rfl
  case settling result =>
    obtain ⟨⟨honce, hresult⟩, rfl⟩ := harmed
    show Option.map _ ((settle w now x k.job result).write.apply (some row)) = _
    unfold settle markCompleted markFailed
    rw [if_neg (Bool.eq_false_iff.mp honce), if_neg (Bool.eq_false_iff.mp honce)]
    split
    · rfl
    · rename_i htrusted
      rw [if_neg (Bool.eq_false_iff.mp (hresult.resolve_left htrusted))]
      rfl
  case restoring result =>
    obtain ⟨honce, rfl⟩ := harmed
    simp only [restoreAfterRun, honce, Bool.false_eq_true, if_false]
    rfl
  case resuming =>
    obtain ⟨honce, rfl⟩ := harmed
    simp only [resumeUpdate, resumedSlot, honce, Bool.false_eq_true, if_false]
    rfl
  case reapingStale =>
    obtain ⟨honce, rfl⟩ := harmed
    simp only [reapStale, honce, Bool.false_eq_true, if_false]
    rfl
  case editing e =>
    simp only [editUpdate, Edit.slot, harmed]
    rfl
  case dropping =>
    subst harmed
    rfl

/-- **What is written.** -/
theorem written_eq {writer : Writer} (scheduler : JobScheduler)
    (harmed : writer.armed base now = some schedule) :
    writer.written (scheduler.world base clocks) now =
      some (isoformat (computeNextRun clocks schedule scheduler.tz now)) := by
  cases writer with
  | create p x =>
    cases harmed
    rfl
  | stretch k db x row => exact stretch_armed (w := scheduler.world base clocks) harmed

end

/-! ## Two clocks -/

/-- The clock of a zone shows the date of UTC, as far as the slot goes, and its time when the
slot comes. -/
def SameClock (zone : Zone) (slot : HourMinute) (now : Int) : Prop :=
  upcoming zone slot now = upcoming Zone.utc slot now ∧
    zone.read (zone.fold now && decide (zone.wall now < slot.on (dateOf (zone.wall now))))
      (upcoming zone slot now) = 0

/-- The calendar does not end in these days. -/
def Inside (now : Instant) : Prop :=
  2 * SECONDS_PER_DAY * MICROS_PER_SECOND ≤ now.val ∧
    now.val + 4 * SECONDS_PER_DAY * MICROS_PER_SECOND < MAX_MICROS

section

variable {zone : Zone} {slot : HourMinute}

theorem nextIn_utc (slot : HourMinute) (now : Int) :
    nextIn Zone.utc slot now = upcoming Zone.utc slot now := by
  rw [nextIn_eq]
  exact Int.sub_zero _

theorem nextIn_eq_utc_iff {now : Int} (hoffsets : zone.WithinDay) :
    nextIn zone slot now = nextIn Zone.utc slot now ↔ SameClock zone slot now := by
  have hon := upcoming_on zone slot now
  have honUtc := upcoming_on Zone.utc slot now
  rw [nextIn_utc, nextIn_eq, Zone.toUtc, SameClock]
  generalize (zone.fold now && decide (zone.wall now < slot.on (dateOf (zone.wall now)))) = pass
  obtain ⟨hlow, hhigh⟩ := hoffsets _
    (readFrom_mem pass zone.initial zone.transitions (upcoming zone slot now))
  have hread : zone.read pass (upcoming zone slot now) =
    readFrom pass zone.initial zone.transitions (upcoming zone slot now) := rfl
  rw [← hread] at hlow hhigh
  generalize zone.read pass (upcoming zone slot now) = offset at *
  generalize dateOf (upcoming zone slot now) = date at *
  generalize dateOf (upcoming Zone.utc slot now) = dateUtc at *
  unfold HourMinute.on DAY HOUR at *
  omega

theorem nextIn_bounds {now : Int} (hoffsets : zone.WithinDay) :
    now - 2 * DAY ≤ nextIn zone slot now ∧ nextIn zone slot now ≤ now + 4 * DAY := by
  obtain ⟨hlow, hhigh⟩ := upcoming_bounds zone slot now
  have hoffset := hoffsets _ (offsetFrom_mem zone.initial zone.transitions now)
  have hread := fun pass => hoffsets _
    (readFrom_mem pass zone.initial zone.transitions (upcoming zone slot now))
  have hwall : zone.wall now = now + offsetFrom zone.initial zone.transitions now := rfl
  rw [nextIn_eq]
  unfold Zone.toUtc Zone.read
  have hhere := hread
    (zone.fold now && decide (zone.wall now < slot.on (dateOf (zone.wall now))))
  omega

theorem ofUnix_inj {a b : Int} (ha : -EPOCH ≤ a) (hb : -EPOCH ≤ b)
    (haEnd : a + EPOCH < MAX_MICROS) (hbEnd : b + EPOCH < MAX_MICROS)
    (h : ofUnix a = ofUnix b) : a = b := by
  have hval : min (a + EPOCH).toNat (MAX_MICROS - 1) = min (b + EPOCH).toNat (MAX_MICROS - 1) :=
    congrArg Subtype.val h
  omega

/-- Near an instant inside the calendar, texts tell slots apart. -/
theorem isoformat_ofUnix_iff {now : Instant} {a b : Int} (hinside : Inside now)
    (ha : unix now - 2 * DAY ≤ a ∧ a ≤ unix now + 4 * DAY)
    (hb : unix now - 2 * DAY ≤ b ∧ b ≤ unix now + 4 * DAY) :
    isoformat (ofUnix a) = isoformat (ofUnix b) ↔ a = b := by
  constructor
  · intro h
    have hsame := isoformat_strictMono.injective h
    obtain ⟨hbegin, hend⟩ := hinside
    unfold unix at ha hb
    refine ofUnix_inj ?_ ?_ ?_ ?_ hsame
    all_goals
      unfold EPOCH DAY HOUR SECONDS_PER_DAY MICROS_PER_SECOND at *
      omega
  · rintro rfl
    rfl

theorem computeNextRun_utc_iff {clocks : Clocks} {schedule tz : String} {now : Instant}
    (hutc : zoneOf clocks.zoneInfo "UTC" = Zone.utc)
    (hoffsets : (zoneOf clocks.zoneInfo tz).WithinDay) (hinside : Inside now)
    (hdaily : dailySlot clocks.chars schedule = some slot) :
    isoformat (computeNextRun clocks schedule "UTC" now) =
        isoformat (computeNextRun clocks schedule tz now) ↔
      SameClock (zoneOf clocks.zoneInfo tz) slot (unix now) := by
  have hutcOffsets : Zone.utc.WithinDay := by
    intro offset hoffset
    obtain rfl := List.mem_singleton.mp hoffset
    decide
  rw [computeNextRun, computeNextRun, hdaily, ← nextIn_eq_utc_iff hoffsets, eq_comm]
  simp only
  unfold nextLocalHhmm
  rw [hutc]
  exact isoformat_ofUnix_iff hinside (nextIn_bounds hoffsets) (nextIn_bounds hutcOffsets)

theorem NextSlot.bounds {now next : Int} (hoffsets : zone.WithinDay)
    (h : NextSlot zone slot now next) : now - 2 * DAY ≤ next ∧ next ≤ now + 4 * DAY := by
  have hnear := h.near
  have hahead := h.ahead
  have hhere := hoffsets _ (offsetFrom_mem zone.initial zone.transitions now)
  have hthere := hoffsets _ (offsetFrom_mem zone.initial zone.transitions next)
  unfold Zone.offset at hnear
  unfold DAY HOUR at *
  omega

end

section

variable (base : World) (clocks : Clocks) (timezone : String)

def Clocks.zone : Zone := zoneOf clocks.zoneInfo (configuredTz timezone)

def Writer.writtenBy (writer : Writer) (now : Instant) (route : Route) : Option String :=
  writer.written ((route.scheduler timezone).world base clocks) now

variable {base clocks timezone} {route : Route} {writer : Writer} {now : Instant}
  {schedule : String} {slot : HourMinute}

theorem writtenBy_eq_iff (hutc : zoneOf clocks.zoneInfo "UTC" = Zone.utc)
    (hoffsets : (clocks.zone timezone).WithinDay) (hinside : Inside now)
    (harmed : writer.armed base now = some schedule)
    (hdaily : dailySlot clocks.chars schedule = some slot) :
    writer.writtenBy base clocks timezone now route =
        writer.writtenBy base clocks timezone now .running ↔
      route = .running ∨ SameClock (clocks.zone timezone) slot (unix now) := by
  unfold Writer.writtenBy
  rw [written_eq _ harmed, written_eq _ harmed, Option.some_inj]
  cases route with
  | running => exact iff_of_true rfl (.inl rfl)
  | handler =>
    rw [or_iff_right Route.noConfusion]
    exact computeNextRun_utc_iff hutc hoffsets hinside hdaily

theorem writtenBy_running_iff (hoffsets : (clocks.zone timezone).WithinDay)
    (hinside : Inside now) (harmed : writer.armed base now = some schedule)
    (hdaily : dailySlot clocks.chars schedule = some slot) {next : Int}
    (hnext : NextSlot (clocks.zone timezone) slot (unix now) next) :
    writer.writtenBy base clocks timezone now .running = some (isoformat (ofUnix next)) ↔
      next = nextIn (clocks.zone timezone) slot (unix now) := by
  unfold Writer.writtenBy
  rw [written_eq _ harmed, Option.some_inj, computeNextRun, hdaily, eq_comm]
  exact isoformat_ofUnix_iff hinside (hnext.bounds hoffsets) (nextIn_bounds hoffsets)

end

/-- **One clock.**  A statement that computes the slot of a daily job writes what it would on
the running scheduler exactly on that scheduler, or where the configured timezone shows what
UTC shows.  The two write the next `HH:MM` of that timezone exactly if, besides, a call at
this instant goes well. -/
theorem one_clock_iff (base : World) (clocks : Clocks) (timezone : String) (route : Route)
    (writer : Writer) {now : Instant} {schedule : String} {slot : HourMinute}
    (hutc : zoneOf clocks.zoneInfo "UTC" = Zone.utc)
    (hoffsets : (clocks.zone timezone).WithinDay) (hinside : Inside now)
    (harmed : writer.armed base now = some schedule)
    (hdaily : dailySlot clocks.chars schedule = some slot) :
    (writer.writtenBy base clocks timezone now route =
        writer.writtenBy base clocks timezone now .running ↔
      route = .running ∨ SameClock (clocks.zone timezone) slot (unix now)) ∧
    ((clocks.zone timezone).Spaced →
      ((∃ next, NextSlot (clocks.zone timezone) slot (unix now) next ∧
        ∀ scheduler ∈ [route, .running],
          writer.writtenBy base clocks timezone now scheduler =
            some (isoformat (ofUnix next))) ↔
        (route = .running ∨ SameClock (clocks.zone timezone) slot (unix now)) ∧
          FirstRegular (clocks.zone timezone) slot (unix now))) := by
  refine ⟨writtenBy_eq_iff hutc hoffsets hinside harmed hdaily, fun hspaced => ?_⟩
  rw [← writtenBy_eq_iff hutc hoffsets hinside harmed hdaily, ← nextSlot_iff hspaced]
  constructor
  · rintro ⟨next, hnext, hwritten⟩
    have hrunning := hwritten .running (by simp)
    obtain rfl := (writtenBy_running_iff hoffsets hinside harmed hdaily hnext).mp hrunning
    exact ⟨(hwritten route List.mem_cons_self).trans hrunning.symm, hnext⟩
  · rintro ⟨hroute, hnext⟩
    have hrunning := (writtenBy_running_iff hoffsets hinside harmed hdaily hnext).mpr rfl
    refine ⟨_, hnext, fun scheduler hscheduler => ?_⟩
    rcases List.mem_pair.mp hscheduler with rfl | rfl
    · exact hroute.trans hrunning
    · exact hrunning

def paused : Row where
  jobId := "brief-1"
  handlerName := "morning_brief"
  schedule := "daily@08:00"
  idempotencyKey := "morning_brief:brief-1"
  nextRunAt := "2026-11-01T13:00:00+00:00"
  status := .failed
  enabled := false

/-- A `resume` behind its read of the row. -/
def resumes : Writer :=
  .stretch
    { id := 1, jobId := "brief-1", job := paused, read := .resume, phase := .resuming
      claimedAt := noon }
    { jobs := fun _ => some paused, jobRuns := [], audited := [] } {} paused

def someClocks : Clocks where
  chars := ascii
  zoneInfo := zones
  others _ _ now := now

/-- 2026-11-02 12:00, in New York seven o'clock. -/
def seven : Instant := ⟨63929217600000000, by decide⟩

theorem paused_daily : dailySlot ascii paused.schedule = some eight := by decide

theorem newYork_within : newYork.WithinDay := by
  unfold Zone.WithinDay
  decide

/-- A job that is resumed on the running scheduler. -/
theorem resumed_in_time :
    ∃ next, NextSlot newYork eight (unix seven) next ∧
      ∀ scheduler ∈ [Route.running, .running],
        resumes.writtenBy dailyWorld someClocks "America/New_York" seven scheduler =
          some (isoformat (ofUnix next)) :=
  ((one_clock_iff dailyWorld someClocks "America/New_York" .running resumes rfl
    newYork_within ⟨by decide, by decide⟩ rfl paused_daily).2
      ⟨by decide, by decide, trivial⟩).mpr ⟨.inl rfl, by decide, by decide⟩

/-- A job that is resumed by a command: its slot is three in the morning of the next day. -/
theorem resumed_in_utc :
    ¬∃ next, NextSlot newYork eight (unix seven) next ∧
      resumes.writtenBy dailyWorld someClocks "America/New_York" seven .handler =
        some (isoformat (ofUnix next)) := by
  rintro ⟨next, hnext, hwritten⟩
  have hcomputed : resumes.writtenBy dailyWorld someClocks "America/New_York" seven .handler =
      some (isoformat (ofUnix (nextIn Zone.utc eight (unix seven)))) :=
    (written_eq _ rfl).trans (by rw [computeNextRun]; rfl)
  rw [hcomputed, Option.some_inj] at hwritten
  have hslot := (isoformat_ofUnix_iff ⟨by decide, by decide⟩ ⟨by decide, by decide⟩
    (hnext.bounds newYork_within)).mp hwritten
  have hreached := hnext.reached
  rw [← hslot] at hreached
  revert hreached
  decide

end StackOwl.Scheduler
