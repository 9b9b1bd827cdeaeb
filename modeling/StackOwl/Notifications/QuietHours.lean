import StackOwl.Lib.Sha256
import StackOwl.Notifications.Proactive
import StackOwl.Scheduler.DailySlots

/-!
# Quiet hours

`in_quiet_hours`, `next_scheduled_for` (`notifications/router_helpers.py`) and
`NotificationRouter.deliver` (`notifications/router.py`).  A notification that is not critical
and comes in the quiet window is queued for the end of the window; one that is batched for
another reason is queued for the next full hour.

The next full hour can lie in the window.  The end of the window is read off the clock: where
the clocks are set in between it can have passed, be far away, or be skipped.

Instants and local times are numbers of microseconds, as in `Lib/Zone`.

## Main results

* `quiet_hours_iff` — when a notification is not delivered, and not queued for a time, in the
  window.
* `endReached_of_around` — a change of the clocks by an hour at most does no harm to a window
  that leaves more than an hour of the day, unless the window ends in an hour that is repeated.
* `full_hour_in_window` — half an hour before the window opens.
-/

namespace StackOwl.Notifications

open Lib Scheduler Bool

/-! ## The window -/

structure QuietHoursSettings where
  enabled : Bool := false
  startAt : String := "22:00"
  endAt : String := "08:00"
  timezone : String := "UTC"

def digitOf (c : Char) : Nat := c.toNat - '0'.toNat

/-- `time.fromisoformat` of `HH:MM`; the other forms it reads are no `HH:MM`. -/
def timeFromIsoformat (text : String) : Option HourMinute :=
  match text.toList with
  | [h, h', ':', m, m'] =>
    let hour := digitOf h * 10 + digitOf h'
    let minute := digitOf m * 10 + digitOf m'
    if [h, h', m, m'].all Char.isDigit then
      if hvalid : hour < 24 ∧ minute < 60 then some ⟨hour, minute, hvalid.1, hvalid.2⟩
      else none
    else none
  | _ => none

/-- The comparisons at the end of `in_quiet_hours`, on a time of the day. -/
def inWindow (start stop : HourMinute) (time : Int) : Bool :=
  if start.micros ≤ stop.micros then start.micros ≤ time && time < stop.micros
  else start.micros ≤ time || time < stop.micros

def timeOf (wall : Int) : Int := wall % DAY

section
variable (zoneInfo : String → Option Zone) (settings : QuietHoursSettings)

def inQuietHours (now : Int) : Bool :=
  if settings.enabled then
    match timeFromIsoformat settings.startAt, timeFromIsoformat settings.endAt with
    | some start, some stop =>
      inWindow start stop (timeOf ((zoneOf zoneInfo settings.timezone).wall now))
    | _, _ => false
  else false

def nextHourBoundaryUtc (now : Int) : Int := now / HOUR * HOUR + HOUR

/-- `next_scheduled_for`.  The end of the window is computed as the slots of a daily job
are. -/
def nextScheduledFor (now : Int) : Int :=
  if inQuietHours zoneInfo settings now then
    match timeFromIsoformat settings.endAt with
    | some stop => nextIn (zoneOf zoneInfo settings.timezone) stop now
    | none => nextHourBoundaryUtc now
  else nextHourBoundaryUtc now

end

/-! ## The router -/

/-- `NotificationSettings`, as the router reads it. -/
structure NotificationSettings where
  defaultChannel : String := "cli"
  quietHours : QuietHoursSettings := {}
  subscriptions : List (String × Bool) := []
  maxNotificationsPerHour : Nat := 10

/-- `Notification`, as the router reads it. -/
structure Notification where
  message : String
  urgency : Urgency
  category : String
  channelName : Option String := none
  jobId : Option String := none
  notificationId : Option String := none

/-- `NotificationRouter`, with the timezone database. -/
structure NotificationRouter where
  zoneInfo : String → Option Zone
  settings : NotificationSettings
  focusMode : FocusMode

def computeMessageHash (message : String) : String :=
  String.ofList ((sha256Hex message).toList.take 16)

namespace NotificationRouter

variable (router : NotificationRouter)

/-- What the router finds for a notification, with `sent` recent deliveries of its job.  The
frequency cap is for notifications of a job. -/
def inputs (n : Notification) (sent : Nat) (now : Int) : RouterInputs where
  subscribed := (router.settings.subscriptions.lookup n.category).getD true
  quiet := inQuietHours router.zoneInfo router.settings.quietHours now
  focusMode := router.focusMode
  cap := if n.jobId.isSome then router.settings.maxNotificationsPerHour else 0
  sent := sent

/-- `deliver`: the decision, and the row that is queued for a notification that is batched.
`newId` is what `uuid4` returns. -/
def deliver (n : Notification) (newId : String) (sent : Nat) (now : Int) :
    DeliveryStatus × Option QueueRow :=
  match (router.inputs n sent now).decision n.urgency with
  | .batched =>
    (.batched, some {
      notificationId := (n.notificationId.filter (· ≠ "")).getD newId
      messageHash := computeMessageHash n.message
      urgency := n.urgency
      category := n.category
      channel := (n.channelName.filter (· ≠ "")).getD router.settings.defaultChannel
      jobId := n.jobId
      scheduledFor := nextScheduledFor router.zoneInfo router.settings.quietHours now
      message := some n.message })
  | decision => (decision, none)

end NotificationRouter

/-! ## The end of the window -/

section
variable (zone : Zone) (stop : HourMinute) (now : Int)

/-- What the clocks have to go through until the window ends. -/
def timeLeft : Int := upcoming zone stop now - zone.wall now

/-- The pass in which the end of the window is looked for: that of `now` where the end is still
to come on its date, and the first one otherwise. -/
def endPass : Bool := zone.fold now && decide (zone.wall now < stop.on (dateOf (zone.wall now)))

def endOffset : Int := zone.read (endPass zone stop now) (upcoming zone stop now)

/-- What the clocks are set back by until then. -/
def setBack : Int := zone.offset now - endOffset zone stop now

/-- What the clocks skip at the end of the window. -/
def jump : Int :=
  zone.offset (upcoming zone stop now - endOffset zone stop now) - endOffset zone stop now

end

/-- The end of the window is ahead, not far, and not skipped together with all the time up to
the next window.  So it is where the clocks are set by an hour at most, the window leaves more
than an hour of the day, and the end is not read in a repeated hour of which `now` is in the
second pass (`endReached_of_around`); `endReached_iff` says it of the time that is queued. -/
structure EndReached (zone : Zone) (start stop : HourMinute) (now : Int) : Prop where
  ahead : 0 < timeLeft zone stop now + setBack zone stop now
  near : timeLeft zone stop now + setBack zone stop now ≤ DAY + HOUR
  outside : jump zone stop now % DAY < (start.micros - stop.micros) % DAY

section
variable {zone : Zone} {start stop : HourMinute} {now : Int}

theorem nextIn_eq_endOffset (zone : Zone) (stop : HourMinute) (now : Int) :
    nextIn zone stop now = upcoming zone stop now - endOffset zone stop now :=
  nextIn_eq zone stop now

/-- So far behind the end of a window, a time lies outside it while the next one has not
begun. -/
theorem inWindow_behind (hne : start.micros ≠ stop.micros) (days behind : Int) :
    inWindow start stop (timeOf (days * DAY + stop.micros + behind)) = false ↔
      behind % DAY < (start.micros - stop.micros) % DAY := by
  have hstart := micros_bounds start
  have hstop := micros_bounds stop
  unfold inWindow timeOf
  unfold DAY HOUR at *
  split
  · rw [and_eq_false_iff, decide_eq_false_iff_not, decide_eq_false_iff_not]
    omega
  · rw [or_eq_false_iff, decide_eq_false_iff_not, decide_eq_false_iff_not]
    omega

theorem micros_ne_of_inWindow {time : Int} (h : inWindow start stop time = true) :
    start.micros ≠ stop.micros := by
  intro heq
  unfold inWindow at h
  rw [if_pos (Int.le_of_eq heq), and_eq_true, decide_eq_true_iff, decide_eq_true_iff] at h
  omega

/-- In the window, the queued time is ahead, near and outside the window just where the end of
the window is reached. -/
theorem endReached_iff (hne : start.micros ≠ stop.micros) :
    EndReached zone start stop now ↔
      now < nextIn zone stop now ∧ nextIn zone stop now ≤ now + DAY + HOUR ∧
        inWindow start stop (timeOf (zone.wall (nextIn zone stop now))) = false := by
  have hnext := nextIn_eq_endOffset zone stop now
  have hwall : zone.wall now = now + zone.offset now := rfl
  have hshown : zone.wall (nextIn zone stop now) =
      dateOf (upcoming zone stop now) * DAY + stop.micros + jump zone stop now := by
    have hon : upcoming zone stop now = dateOf (upcoming zone stop now) * DAY + stop.micros :=
      upcoming_on zone stop now
    rw [← hon]
    show nextIn zone stop now + zone.offset (nextIn zone stop now) = _
    rw [hnext]
    unfold jump
    omega
  rw [hshown, inWindow_behind hne, hnext]
  constructor
  · rintro ⟨hahead, hnear, houtside⟩
    unfold timeLeft setBack at hahead hnear
    exact ⟨by omega, by omega, houtside⟩
  · rintro ⟨hahead, hnear, houtside⟩
    refine ⟨?_, ?_, houtside⟩
    · unfold timeLeft setBack
      omega
    · unfold timeLeft setBack
      omega

/-- **Clocks that are set by an hour at most.**  A window that leaves more than an hour of the
day ends well, unless `now` is in a repeated hour and the end of the next day's window in the
same one. -/
theorem endReached_of_around {change : Transition} {before : Int}
    (h : zone.Around now change before)
    (hhour : change.offset ≤ before + HOUR ∧ before ≤ change.offset + HOUR)
    (hpause : HOUR < (start.micros - stop.micros) % DAY)
    (honce : zone.fold now = true → stop.on (dateOf (zone.wall now)) ≤ zone.wall now →
      zone.read false (upcoming zone stop now) = zone.read true (upcoming zone stop now)) :
    EndReached zone start stop now := by
  obtain ⟨hlow, hhigh⟩ := upcoming_bounds zone stop now
  have hread := fun fold => h.read fold (upcoming zone stop now)
    (by unfold DAY HOUR at *; omega) (by unfold DAY HOUR at *; omega)
  have hwall : zone.wall now = now + zone.offset now := rfl
  have hoffset := h.offset_self
  have hfold := h.fold now (by omega) (by unfold HOUR; omega)
  -- the reading is that of the second pass only where `now` is in it
  obtain ⟨pass, hpass, hend⟩ : ∃ pass, (pass = true ↔ zone.fold now = true) ∧
      endOffset zone stop now = if upcoming zone stop now < readsFrom pass before change
        then before else change.offset := by
    refine ⟨zone.fold now, Iff.rfl, ?_⟩
    unfold endOffset endPass
    cases hnow : zone.fold now with
    | false => rw [Bool.false_and, hread]
    | true =>
      by_cases hlater : zone.wall now < stop.on (dateOf (zone.wall now))
      · rw [decide_eq_true hlater, Bool.and_self, hread]
      · rw [decide_eq_false hlater, Bool.and_false, honce hnow (Int.not_lt.mp hlater), hread]
  have hpass := hpass.trans hfold
  have hlater := h.offset (upcoming zone stop now - endOffset zone stop now)
    (by rw [hend]; unfold DAY HOUR at *; omega) (by rw [hend]; unfold DAY HOUR at *; omega)
  have hcases : now < upcoming zone stop now - endOffset zone stop now ∧
      0 ≤ jump zone stop now ∧ jump zone stop now ≤ HOUR := by
    unfold jump
    rw [hlater, hend]
    cases pass with
    | false =>
      have hfirst : ¬(change.instant ≤ now ∧ now - change.instant < before - change.offset) :=
        fun hsecond => false_ne_true (hpass.mpr hsecond)
      simp only [readsFrom, false_eq_true, if_false]
      omega
    | true =>
      have hsecond := hpass.mp rfl
      simp only [readsFrom, if_true]
      omega
  refine ⟨?_, ?_, ?_⟩
  · unfold timeLeft setBack
    omega
  · unfold timeLeft setBack
    rw [hend]
    omega
  · have hsmall : jump zone stop now % DAY = jump zone stop now := by
      unfold DAY HOUR at *
      omega
    rw [hsmall]
    omega

/-- The night in which the clocks of New York are set back, before they are. -/
theorem endReached_of_around_autumn :
    EndReached newYork ⟨22, 0, by decide, by decide⟩ ⟨8, 0, by decide, by decide⟩
      1793503800000000 :=
  endReached_of_around (around_first ⟨by decide, by decide, trivial⟩ (by decide)) (by decide)
    (by decide) (by decide)

end

/-! ## The law -/

/-- A notification is suppressed, or delivered outside the window, or queued for a time that is
ahead, at most a day and an hour away, and outside the window. -/
def QuietKept (router : NotificationRouter) (n : Notification) (newId : String) (sent : Nat)
    (now : Int) : Prop :=
  let quiet := inQuietHours router.zoneInfo router.settings.quietHours
  match router.deliver n newId sent now with
  | (.suppressed, none) => True
  | (.delivered, none) => quiet now = false
  | (.batched, some row) =>
    now < row.scheduledFor ∧ row.scheduledFor ≤ now + DAY + HOUR ∧
      quiet row.scheduledFor = false
  | _ => False

/-- Why the router batches a notification outside the window: the focus mode, or the cap on the
deliveries of a job. -/
def Batches (router : NotificationRouter) (n : Notification) (sent : Nat) : Prop :=
  match router.focusMode with
  | .soft => True
  | .hard => n.urgency ≠ .low
  | .off => n.jobId.isSome = true ∧ 0 < router.settings.maxNotificationsPerHour ∧
      router.settings.maxNotificationsPerHour ≤ sent

theorem decision_in_window {inputs : RouterInputs} {urgency : Urgency}
    (hcritical : urgency ≠ .critical) (hsubscribed : inputs.subscribed = true)
    (hquiet : inputs.quiet = true) : inputs.decision urgency = .batched := by
  unfold RouterInputs.decision decideRoute
  rw [if_pos hsubscribed, if_neg hcritical, if_pos hquiet]

theorem decision_outside {router : NotificationRouter} {n : Notification} {sent : Nat}
    {now : Int} (hcritical : n.urgency ≠ .critical)
    (hsubscribed : (router.inputs n sent now).subscribed = true)
    (hquiet : (router.inputs n sent now).quiet = false) :
    (Batches router n sent ∧ (router.inputs n sent now).decision n.urgency = .batched) ∨
      (¬Batches router n sent ∧ ((router.inputs n sent now).decision n.urgency = .delivered ∨
        (router.inputs n sent now).decision n.urgency = .suppressed)) := by
  have hfocus : (router.inputs n sent now).focusMode = router.focusMode := rfl
  have hcap : (router.inputs n sent now).cap =
      if n.jobId.isSome then (router.settings.maxNotificationsPerHour : Int) else 0 := rfl
  have hsent : (router.inputs n sent now).sent = sent := rfl
  unfold RouterInputs.decision decideRoute Batches
  rw [if_pos hsubscribed, if_neg hcritical, if_neg (ne_true_of_eq_false hquiet), hfocus, hcap,
    hsent]
  cases router.focusMode with
  | soft => exact .inl ⟨trivial, rfl⟩
  | hard =>
    by_cases hlow : n.urgency = .low
    · refine .inr ⟨not_not_intro hlow, .inr ?_⟩
      simp only [if_pos hlow]
    · refine .inl ⟨hlow, ?_⟩
      simp only [if_neg hlow]
  | off =>
    show _ ∧ (if _ ∧ _ then DeliveryStatus.batched else .delivered) = _ ∨
      _ ∧ ((if _ ∧ _ then DeliveryStatus.batched else .delivered) = _ ∨ _)
    cases hjob : n.jobId.isSome with
    | false =>
      refine .inr ⟨fun h => false_ne_true h.1, .inl (if_neg ?_)⟩
      rw [if_neg Bool.false_ne_true]
      omega
    | true =>
      rw [if_pos rfl]
      by_cases hfull : 0 < router.settings.maxNotificationsPerHour ∧
          router.settings.maxNotificationsPerHour ≤ sent
      · exact .inl ⟨⟨rfl, hfull⟩, if_pos (by omega)⟩
      · exact .inr ⟨fun h => hfull h.2, .inl (if_neg (by omega))⟩

section
variable {router : NotificationRouter} {n : Notification} {newId : String} {sent : Nat}
  {now : Int}

theorem quietKept_of_suppressed
    (h : (router.inputs n sent now).decision n.urgency = .suppressed) :
    QuietKept router n newId sent now := by
  unfold QuietKept NotificationRouter.deliver
  rw [h]
  trivial

theorem quietKept_of_delivered
    (h : (router.inputs n sent now).decision n.urgency = .delivered) :
    QuietKept router n newId sent now ↔
      inQuietHours router.zoneInfo router.settings.quietHours now = false := by
  unfold QuietKept NotificationRouter.deliver
  rw [h]

theorem quietKept_of_batched
    (h : (router.inputs n sent now).decision n.urgency = .batched) :
    QuietKept router n newId sent now ↔
      now < nextScheduledFor router.zoneInfo router.settings.quietHours now ∧
        nextScheduledFor router.zoneInfo router.settings.quietHours now ≤ now + DAY + HOUR ∧
          inQuietHours router.zoneInfo router.settings.quietHours
            (nextScheduledFor router.zoneInfo router.settings.quietHours now) = false := by
  unfold QuietKept NotificationRouter.deliver
  rw [h]

end

/-- The first full hour of UTC behind an instant. -/
def nextFullHour (now : Int) : Int := (now / HOUR + 1) * HOUR

theorem nextHourBoundaryUtc_eq (now : Int) : nextHourBoundaryUtc now = nextFullHour now := by
  unfold nextHourBoundaryUtc nextFullHour HOUR
  omega

theorem nextFullHour_bounds (now : Int) :
    now < nextFullHour now ∧ nextFullHour now ≤ now + HOUR := by
  unfold nextFullHour HOUR
  omega

/-- **When quiet hours are kept.**  In the window, exactly where the window's end is reached,
which it is but for rare changes of the clocks (`endReached_of_around`); outside it, exactly
where the router does not batch or the next full hour lies outside too. -/
theorem quiet_hours_iff {router : NotificationRouter} {n : Notification} {start stop : HourMinute}
    (newId : String) (sent : Nat) (now : Int) (hcritical : n.urgency ≠ .critical)
    (hstart : timeFromIsoformat router.settings.quietHours.startAt = some start)
    (hstop : timeFromIsoformat router.settings.quietHours.endAt = some stop) :
    QuietKept router n newId sent now ↔
      ((router.settings.subscriptions.lookup n.category).getD true = true →
        if inQuietHours router.zoneInfo router.settings.quietHours now then
          EndReached (zoneOf router.zoneInfo router.settings.quietHours.timezone) start stop now
        else Batches router n sent →
          inQuietHours router.zoneInfo router.settings.quietHours (nextFullHour now) = false) := by
  by_cases hsubscribed : (router.inputs n sent now).subscribed = true
  · have hmuted : (router.settings.subscriptions.lookup n.category).getD true = true :=
      hsubscribed
    rw [forall_prop_of_true hmuted]
    cases hquiet : inQuietHours router.zoneInfo router.settings.quietHours now with
    | true =>
      have hwindow (u : Int) : inQuietHours router.zoneInfo router.settings.quietHours u =
          inWindow start stop (timeOf
            ((zoneOf router.zoneInfo router.settings.quietHours.timezone).wall u)) := by
        unfold inQuietHours at hquiet ⊢
        split at hquiet
        · rename_i henabled
          rw [if_pos henabled, hstart, hstop]
        · cases hquiet
      have hne : start.micros ≠ stop.micros :=
        micros_ne_of_inWindow ((hwindow now).symm.trans hquiet)
      have hscheduled : nextScheduledFor router.zoneInfo router.settings.quietHours now =
          nextIn (zoneOf router.zoneInfo router.settings.quietHours.timezone) stop now := by
        unfold nextScheduledFor
        rw [if_pos hquiet, hstop]
      rw [quietKept_of_batched (decision_in_window hcritical hsubscribed hquiet), hscheduled,
        if_pos rfl, endReached_iff hne, hwindow]
    | false =>
      have hscheduled : nextScheduledFor router.zoneInfo router.settings.quietHours now =
          nextFullHour now := by
        unfold nextScheduledFor
        rw [hquiet, if_neg Bool.false_ne_true, nextHourBoundaryUtc_eq]
      have hbounds := nextFullHour_bounds now
      rw [if_neg Bool.false_ne_true]
      rcases decision_outside hcritical hsubscribed hquiet with
        ⟨hbatches, hdecision⟩ | ⟨hnot, hdecision | hdecision⟩
      · rw [quietKept_of_batched hdecision, hscheduled, forall_prop_of_true hbatches]
        constructor
        · exact fun h => h.2.2
        · intro h
          refine ⟨hbounds.1, ?_, h⟩
          unfold DAY HOUR at *
          omega
      · rw [quietKept_of_delivered hdecision]
        exact ⟨fun _ hbatches => absurd hbatches hnot, fun _ => hquiet⟩
      · exact ⟨fun _ hbatches => absurd hbatches hnot,
          fun _ => quietKept_of_suppressed hdecision⟩
  · have hmuted : ¬(router.settings.subscriptions.lookup n.category).getD true = true :=
      hsubscribed
    have hdecision : (router.inputs n sent now).decision n.urgency = .suppressed := by
      unfold RouterInputs.decision
      exact if_neg hsubscribed
    exact ⟨fun _ h => absurd h hmuted, fun _ => quietKept_of_suppressed hdecision⟩

/-- A router in soft focus mode, with quiet hours from ten to eight. -/
def softRouter : NotificationRouter where
  zoneInfo := zones
  settings := { quietHours := { enabled := true } }
  focusMode := .soft

def update : Notification where
  message := "done"
  urgency := .normal
  category := "jobs"

/-- Half past eleven in the evening. -/
theorem quiet_hours_overnight :
    QuietKept softRouter update "n1" 0 (23 * HOUR + HOUR / 2) :=
  (@quiet_hours_iff softRouter update ⟨22, 0, by decide, by decide⟩ ⟨8, 0, by decide, by decide⟩
    "n1" 0 (23 * HOUR + HOUR / 2) (by decide) (by decide +kernel) (by decide +kernel)).mpr
    fun _ => by
      have hquiet : inQuietHours softRouter.zoneInfo softRouter.settings.quietHours
          (23 * HOUR + HOUR / 2) = true := by decide +kernel
      rw [if_pos hquiet]
      exact ⟨by decide +kernel, by decide +kernel, by decide +kernel⟩

/-- At half past nine in the evening, in soft focus mode, a notification is queued for ten, when
the window opens. -/
theorem full_hour_in_window :
    nextScheduledFor softRouter.zoneInfo softRouter.settings.quietHours
        (21 * HOUR + HOUR / 2) = 22 * HOUR ∧
      inQuietHours softRouter.zoneInfo softRouter.settings.quietHours (22 * HOUR) = true ∧
      ¬QuietKept softRouter update "n1" 0 (21 * HOUR + HOUR / 2) := by
  refine ⟨by decide +kernel, by decide +kernel, ?_⟩
  rw [quietKept_of_batched (by decide +kernel)]
  decide +kernel

/-- In St. John's the window that ends at midnight is queued for an instant that has passed. -/
example : nextScheduledFor zones
    { enabled := true, startAt := "22:00", endAt := "00:00", timezone := "America/St_Johns" }
    1289097660000000 = 1289097000000000 := by
  decide +kernel

end StackOwl.Notifications
