import StackOwl.Lib.Zone

/-!
# Daily slots

`_next_local_hhmm` (`scheduler/scheduler_helpers.py`), behind `daily@HH:MM` and `at HH:MM`:
the next instant at which the clocks of a timezone show a time of the day.  It is called
again and again, each time between the slot it returned and the slot that follows that one.

The clocks are set back and forth, and the code compares and adds what they show.  What it
returns can then be the slot of a date that has had one, the slot of the date behind a slot
that is still ahead, or a slot that has passed.

## Main results

* `nextIn_good` — a slot is strictly ahead, at most 25 hours and a change of the clocks away,
  and at its time of the day, if the call goes well.
* `upcoming_between` — a call between a slot and the following one is for the next date.
* `daily_slots` — calls that go well return one slot a date and leave no date out.
* `nextSlot_iff` — what is returned is the next slot of the timezone exactly if the call goes
  well.
* `repeated_hour_twice` — two slots on one date, and a slot that has passed.
-/

namespace StackOwl.Scheduler

open Lib Bool

/-! ## The next slot -/

/-- `HH:MM`, as `parse_daily_hhmm` and `parse_at` let it through. -/
structure HourMinute where
  hour : Nat
  minute : Nat
  hour_lt : hour < 24
  minute_lt : minute < 60
  deriving DecidableEq

def HourMinute.micros (slot : HourMinute) : Int := (slot.hour * 60 + slot.minute) * 60000000

def dateOf (wall : Int) : Int := wall / DAY

def HourMinute.on (slot : HourMinute) (date : Int) : Int := date * DAY + slot.micros

/-- `_next_local_hhmm` in a zone.  `replace` keeps the pass of `local_now`, a sum with a
`timedelta` is in the first one, and two times of one zone are compared as they are
written. -/
def nextIn (zone : Zone) (slot : HourMinute) (now : Int) : Int :=
  let localNow := zone.wall now
  let candidate := slot.on (dateOf localNow)
  if candidate ≤ localNow then zone.toUtc false (candidate + DAY)
  else zone.toUtc (zone.fold now) candidate

/-- The zone of a name; an unknown one is UTC. -/
def zoneOf (zoneInfo : String → Option Zone) (tz : String) : Zone :=
  (zoneInfo tz).getD Zone.utc

def nextLocalHhmm (zoneInfo : String → Option Zone) (slot : HourMinute) (tz : String)
    (now : Int) : Int :=
  nextIn (zoneOf zoneInfo tz) slot now

def upcoming (zone : Zone) (slot : HourMinute) (now : Int) : Int :=
  let localNow := zone.wall now
  let candidate := slot.on (dateOf localNow)
  if candidate ≤ localNow then candidate + DAY else candidate

/-- A call between the slot another one has returned and the slot that follows that one. -/
def Between (zone : Zone) (slot : HourMinute) (before now : Int) : Prop :=
  nextIn zone slot before ≤ now ∧ now < nextIn zone slot (nextIn zone slot before)

/-- So many dates, one after the other. -/
def datesFrom (date : Int) : Nat → List Int
  | 0 => []
  | n + 1 => date :: datesFrom (date + 1) n

/-! ## Calls that go well -/

/-- A call that no other one came before: where it is made in the second pass of a repeated
time and is for the next day, that day's slot is not in the pass; and the slot is not set
forward into another day. -/
structure FirstRegular (zone : Zone) (slot : HourMinute) (now : Int) : Prop where
  ahead : zone.fold now = true → slot.on (dateOf (zone.wall now)) ≤ zone.wall now →
    zone.read false (upcoming zone slot now) = zone.read true (upcoming zone slot now)
  sameDay : dateOf (zone.wall (zone.toUtc false (upcoming zone slot now))) =
    dateOf (upcoming zone slot now)

/-- A call behind another one: where it is made in the second pass of a repeated time, its
slot is not in the pass; the last slot of the clock has passed; and the slot is not set
forward into another day. -/
structure Regular (zone : Zone) (slot : HourMinute) (now : Int) : Prop where
  once : zone.fold now = true →
    zone.read false (upcoming zone slot now) = zone.read true (upcoming zone slot now)
  passed : zone.toUtc false (upcoming zone slot now - DAY) ≤ now
  sameDay : dateOf (zone.wall (zone.toUtc false (upcoming zone slot now))) =
    dateOf (upcoming zone slot now)

section

variable {zone : Zone} {slot : HourMinute} {now : Int}

theorem micros_bounds (slot : HourMinute) : 0 ≤ slot.micros ∧ slot.micros < DAY := by
  have hhour := slot.hour_lt
  have hminute := slot.minute_lt
  unfold HourMinute.micros DAY HOUR
  omega

theorem upcoming_bounds (zone : Zone) (slot : HourMinute) (now : Int) :
    zone.wall now < upcoming zone slot now ∧ upcoming zone slot now ≤ zone.wall now + DAY := by
  have hmicros := micros_bounds slot
  unfold upcoming HourMinute.on dateOf
  unfold DAY HOUR at *
  dsimp only
  split
  · omega
  · omega

/-- The instant that is returned is read off the local time it is to have. -/
theorem nextIn_eq (zone : Zone) (slot : HourMinute) (now : Int) :
    nextIn zone slot now = zone.toUtc
      (zone.fold now && decide (zone.wall now < slot.on (dateOf (zone.wall now))))
      (upcoming zone slot now) := by
  unfold nextIn upcoming
  dsimp only
  split
  · rename_i hpast
    rw [decide_eq_false (Int.not_lt.mpr hpast), Bool.and_false]
  · rename_i hahead
    rw [decide_eq_true (Int.not_le.mp hahead), Bool.and_true]

variable {change : Transition} {before : Int}

theorem next_read (h : zone.Around now change before)
    (hsame : zone.fold now = true → slot.on (dateOf (zone.wall now)) ≤ zone.wall now →
      zone.read false (upcoming zone slot now) = zone.read true (upcoming zone slot now)) :
    ∃ fold, (fold = true → change.offset < before ∧ change.instant ≤ now) ∧
      nextIn zone slot now = upcoming zone slot now -
        (if upcoming zone slot now < readsFrom fold before change then before
        else change.offset) ∧
      now < nextIn zone slot now := by
  obtain ⟨hlow, hhigh⟩ := upcoming_bounds zone slot now
  have hread := fun fold => h.read fold (upcoming zone slot now)
    (by unfold DAY HOUR at *; omega) (by unfold DAY HOUR at *; omega)
  have hwall : zone.wall now = now + zone.offset now := rfl
  have hoffset := h.offset_self
  have hfold := h.fold now (by omega) (by unfold HOUR; omega)
  rw [hread, hread] at hsame
  have hnext := nextIn_eq zone slot now
  rw [Zone.toUtc, hread] at hnext
  refine ⟨_, fun hpass => ?_, hnext, ?_⟩
  · have hsecond := hfold.mp (and_eq_true_iff.mp hpass).1
    omega
  rw [hnext]
  cases hpass : zone.fold now with
  | false =>
    have hfirst : ¬ (change.instant ≤ now ∧ now - change.instant < before - change.offset) :=
      fun h => false_ne_true (hpass.symm.trans (hfold.mpr h))
    rw [Bool.false_and]
    simp only [readsFrom, false_eq_true, if_false]
    omega
  | true =>
    have hsecond := hfold.mp hpass
    by_cases hlater : zone.wall now < slot.on (dateOf (zone.wall now))
    · rw [decide_eq_true hlater, Bool.and_self]
      simp only [readsFrom, if_true]
      omega
    · rw [decide_eq_false hlater, Bool.and_false]
      have hreads := hsame hpass (Int.not_lt.mp hlater)
      simp only [readsFrom, false_eq_true, if_true, if_false] at *
      omega

theorem upcoming_on (zone : Zone) (slot : HourMinute) (now : Int) :
    upcoming zone slot now = slot.on (dateOf (upcoming zone slot now)) := by
  have hmicros := micros_bounds slot
  unfold upcoming HourMinute.on dateOf
  unfold DAY HOUR at *
  dsimp only
  split
  · omega
  · omega

/-- What the next slot is to be: strictly ahead, not far ahead, and at its time of the day
unless that day does not have it. -/
structure GoodSlot (zone : Zone) (slot : HourMinute) (now next : Int) : Prop where
  ahead : now < next
  near : next ≤ now + 25 * HOUR + (zone.offset next - zone.offset now).natAbs
  wall : zone.wall next = slot.on (dateOf (zone.wall next)) ∨
    ∀ u, zone.wall u ≠ slot.on (dateOf (zone.wall next))

/-- The next slot shows the time it is to have, or that time is skipped and what it shows is
behind the skip. -/
theorem next_wall (h : zone.Around now change before)
    (hsame : zone.fold now = true → slot.on (dateOf (zone.wall now)) ≤ zone.wall now →
      zone.read false (upcoming zone slot now) = zone.read true (upcoming zone slot now)) :
    zone.wall (nextIn zone slot now) = upcoming zone slot now ∨
      (change.instant + before ≤ upcoming zone slot now ∧
        upcoming zone slot now < change.instant + change.offset ∧
        nextIn zone slot now = upcoming zone slot now - before ∧
        zone.offset (nextIn zone slot now) = change.offset ∧
        nextIn zone slot now = zone.toUtc false (upcoming zone slot now)) := by
  obtain ⟨fold, hfold, hnext, hahead⟩ := next_read h hsame
  obtain ⟨hlow, hhigh⟩ := upcoming_bounds zone slot now
  have hforward := h.forward
  have hback := h.back
  have hwall : zone.wall now = now + zone.offset now := rfl
  have hoffset := h.offset_self
  have hbound : nextIn zone slot now ≤ now + 30 * HOUR := by
    unfold DAY HOUR at *
    omega
  have hthere := h.offset (nextIn zone slot now) (by unfold HOUR; omega)
    (by unfold HOUR at *; omega)
  have hread := h.read false (upcoming zone slot now)
    (by unfold DAY HOUR at *; omega) (by unfold DAY HOUR at *; omega)
  rw [Zone.wall, hthere, Zone.toUtc, hread]
  cases fold with
  | false =>
    simp only [readsFrom, false_eq_true, if_false] at *
    omega
  | true =>
    have hrepeated := (hfold rfl).1
    simp only [readsFrom, false_eq_true, if_false, if_true] at *
    omega

theorem skipped {wall : Int} (hspaced : zone.Spaced) (h : zone.Around now change before)
    (hlow : change.instant + before ≤ wall) (hhigh : wall < change.instant + change.offset)
    (hbehind : zone.wall now < wall) (hahead : wall ≤ zone.wall now + DAY) (u : Int) :
    zone.wall u ≠ wall := by
  by_cases hpast : u + 18 * HOUR < now
  · have hlt := Zone.wall_lt hspaced (u := u) (v := now) (by unfold HOUR at *; omega)
    omega
  by_cases hfuture : now + 54 * HOUR < u
  · have hthere := h.offset (now + 47 * HOUR) (by unfold HOUR; omega) (by unfold HOUR; omega)
    have hlt := Zone.wall_lt hspaced (u := now + 47 * HOUR) (v := u)
      (by unfold HOUR at *; omega)
    have hoffset := h.offset_self
    have hforward := h.forward
    have hback := h.back
    unfold Zone.wall DAY HOUR at *
    omega
  · have hhere := h.offset u (by omega) (by omega)
    rw [Zone.wall, hhere]
    omega

theorem nextIn_good (hspaced : zone.Spaced) (hregular : FirstRegular zone slot now) :
    GoodSlot zone slot now (nextIn zone slot now) ∧
      dateOf (zone.wall (nextIn zone slot now)) = dateOf (upcoming zone slot now) ∧
      upcoming zone slot now ≤ zone.wall (nextIn zone slot now) := by
  obtain ⟨change, before, haround⟩ := Zone.around hspaced now
  obtain ⟨fold, -, hnext, hahead⟩ := next_read haround hregular.ahead
  obtain ⟨hlow, hhigh⟩ := upcoming_bounds zone slot now
  have hwall : zone.wall now = now + zone.offset now := rfl
  have hthere : zone.wall (nextIn zone slot now) =
    nextIn zone slot now + zone.offset (nextIn zone slot now) := rfl
  have hon := upcoming_on zone slot now
  rcases next_wall haround hregular.ahead with hshown | ⟨hfrom, htill, hback, hoffset, hfirst⟩
  · refine ⟨⟨hahead, ?_, Or.inl ?_⟩, ?_, ?_⟩
    · unfold DAY HOUR at *
      omega
    · rw [hshown]
      exact hon
    · rw [hshown]
    · exact Int.le_of_eq hshown.symm
  · have hdate : dateOf (zone.wall (nextIn zone slot now)) = dateOf (upcoming zone slot now) := by
      rw [hfirst]
      exact hregular.sameDay
    have hnow := haround.offset_self
    refine ⟨⟨hahead, ?_, Or.inr ?_⟩, hdate, by omega⟩
    · unfold DAY HOUR at *
      omega
    · rw [hdate, ← hon]
      exact skipped hspaced haround hfrom htill hlow hhigh

theorem Regular.first (h : Regular zone slot now) : FirstRegular zone slot now :=
  ⟨fun hpass _ => h.once hpass, h.sameDay⟩

variable {r : Int}

theorem nextIn_behind (hr : slot.on (dateOf (zone.wall r)) ≤ zone.wall r) :
    nextIn zone slot r = zone.toUtc false (slot.on (dateOf (zone.wall r) + 1)) := by
  have hnext : slot.on (dateOf (zone.wall r) + 1) = slot.on (dateOf (zone.wall r)) + DAY := by
    unfold HourMinute.on DAY HOUR
    omega
  rw [nextIn, if_pos hr, hnext]

section

variable (hspaced : zone.Spaced) (hr : slot.on (dateOf (zone.wall r)) ≤ zone.wall r)
  (hrnow : r ≤ now) (hnow : now < nextIn zone slot r) (hregular : Regular zone slot now)

include hspaced hr hrnow hnow hregular

/-- Between a slot and the following one, the local time that is next is that of the next
date. -/
theorem upcoming_between : dateOf (upcoming zone slot now) = dateOf (zone.wall r) + 1 := by
  obtain ⟨change, before, haround⟩ := Zone.around hspaced r
  obtain ⟨hlow, hhigh⟩ := upcoming_bounds zone slot now
  have hmicros := micros_bounds slot
  have hon := upcoming_on zone slot now
  have hforward := haround.forward
  have hback := haround.back
  rw [nextIn_behind hr] at hnow
  generalize hdate : dateOf (zone.wall r) = date at *
  generalize hnext : dateOf (upcoming zone slot now) = next at *
  have hdate : date * DAY ≤ zone.wall r ∧ zone.wall r < (date + 1) * DAY := by
    unfold dateOf DAY HOUR at *
    omega
  have hwall : zone.wall r = r + zone.offset r := rfl
  have hwallNow : zone.wall now = now + zone.offset now := rfl
  have hoffset := haround.offset_self
  have hfollowing := haround.read false (slot.on (date + 1))
    (by unfold HourMinute.on DAY HOUR at *; omega)
    (by unfold HourMinute.on DAY HOUR at *; omega)
  rw [Zone.toUtc, hfollowing] at hnow
  have hbound : now ≤ r + 30 * HOUR := by
    unfold HourMinute.on DAY HOUR at *
    omega
  have hoffsetNow := haround.offset now (by unfold HOUR; omega) (by unfold HOUR at *; omega)
  have hfold := haround.fold now hrnow (by unfold HOUR at *; omega)
  rcases Int.lt_trichotomy next (date + 1) with hearlier | hsame | hlater
  · -- local time has gone back, and the call is made in the second pass
    have hread := fun fold => haround.read fold (upcoming zone slot now)
      (by unfold DAY HOUR at *; omega)
      (by unfold HourMinute.on DAY HOUR at *; omega)
    have honce := hregular.once
    rw [hread, hread] at honce
    simp only [readsFrom, false_eq_true, if_false, if_true] at honce
    unfold HourMinute.on DAY HOUR at *
    have hpass : zone.fold now = true := hfold.mpr (by omega)
    have hsame := honce hpass
    omega
  · exact hsame
  · -- the slot of the next date would have passed
    have hread := haround.read false (upcoming zone slot now - DAY)
      (by unfold HourMinute.on DAY HOUR at *; omega)
      (by unfold DAY HOUR at *; omega)
    have hpassed := hregular.passed
    rw [Zone.toUtc, hread] at hpassed
    simp only [readsFrom, false_eq_true, if_false] at hpassed hnow
    unfold HourMinute.on DAY HOUR at *
    omega

theorem nextIn_next :
    GoodSlot zone slot now (nextIn zone slot now) ∧
      dateOf (zone.wall (nextIn zone slot now)) = dateOf (zone.wall r) + 1 ∧
      slot.on (dateOf (zone.wall (nextIn zone slot now))) ≤
        zone.wall (nextIn zone slot now) := by
  obtain ⟨hgood, hdate, hlater⟩ := nextIn_good hspaced hregular.first
  have hupcoming := upcoming_between hspaced hr hrnow hnow hregular
  refine ⟨hgood, hdate.trans hupcoming, ?_⟩
  rw [hdate, ← upcoming_on]
  exact hlater

end

theorem run_behind {first : Int} {rest : List Int} (hspaced : zone.Spaced)
    (hfirst : slot.on (dateOf (zone.wall (nextIn zone slot first))) ≤
      zone.wall (nextIn zone slot first))
    (hchain : (first :: rest).IsChain (Between zone slot))
    (hrest : ∀ now ∈ rest, Regular zone slot now) :
    (∀ now ∈ rest, GoodSlot zone slot now (nextIn zone slot now)) ∧
      rest.map (fun now => dateOf (zone.wall (nextIn zone slot now))) =
        datesFrom (dateOf (zone.wall (nextIn zone slot first)) + 1) rest.length := by
  induction rest generalizing first with
  | nil => exact ⟨by simp, rfl⟩
  | cons now rest ih =>
    obtain ⟨⟨hfrom, htill⟩, hchain⟩ := List.isChain_cons_cons.mp hchain
    obtain ⟨hgood, hdate, hlater⟩ := nextIn_next hspaced hfirst hfrom htill
      (hrest now List.mem_cons_self)
    obtain ⟨hgoods, hdates⟩ := ih hlater hchain fun later hlater =>
      hrest later (List.mem_cons_of_mem now hlater)
    constructor
    · intro call hcall
      rcases List.mem_cons.mp hcall with rfl | hcall
      · exact hgood
      · exact hgoods call hcall
    · rw [List.map_cons, hdates, List.length_cons, datesFrom, hdate]

/-- **Daily slots.**  Calls, each between the slot the one before it returned and the slot
that follows that one, return slots that are strictly ahead, not far ahead and at their time
of the day, one on each date, with no date left out. -/
theorem daily_slots (zoneInfo : String → Option Zone) (tz : String) (slot : HourMinute)
    {first : Int} {rest : List Int} (hspaced : (zoneOf zoneInfo tz).Spaced)
    (hchain : (first :: rest).IsChain (Between (zoneOf zoneInfo tz) slot))
    (hfirst : FirstRegular (zoneOf zoneInfo tz) slot first)
    (hrest : ∀ now ∈ rest, Regular (zoneOf zoneInfo tz) slot now) :
    (∀ now ∈ first :: rest,
      GoodSlot (zoneOf zoneInfo tz) slot now (nextLocalHhmm zoneInfo slot tz now)) ∧
      ∃ date, (first :: rest).map (fun now =>
          dateOf ((zoneOf zoneInfo tz).wall (nextLocalHhmm zoneInfo slot tz now))) =
        datesFrom date (first :: rest).length := by
  obtain ⟨hgood, hdate, hlater⟩ := nextIn_good hspaced hfirst
  have hbehind := hlater
  rw [upcoming_on, ← hdate] at hbehind
  obtain ⟨hgoods, hdates⟩ := run_behind hspaced hbehind hchain hrest
  constructor
  · intro now hnow
    rcases List.mem_cons.mp hnow with rfl | hnow
    · exact hgood
    · exact hgoods now hnow
  · refine ⟨dateOf ((zoneOf zoneInfo tz).wall (nextIn (zoneOf zoneInfo tz) slot first)), ?_⟩
    exact congrArg (List.cons _) hdates

end

/-! ## The next one -/

/-- The next `HH:MM` behind an instant: nothing that the clocks show in between, and have not
shown before, is that time of a day; a day that skips the time has its slot behind the
skip. -/
structure NextSlot (zone : Zone) (slot : HourMinute) (now next : Int) : Prop extends
    GoodSlot zone slot now next where
  first : ∀ u, now < u → u < next → zone.wall now < zone.wall u →
    zone.wall u ≠ slot.on (dateOf (zone.wall u))
  reached : slot.on (dateOf (zone.wall next)) ≤ zone.wall next

section

variable {zone : Zone} {slot : HourMinute} {now : Int}

/-- A slot that local time comes to behind an instant is not before the upcoming one, and the
next one is a day behind that. -/
theorem upcoming_le {w : Int} (hlater : zone.wall now < w) (hslot : w = slot.on (dateOf w)) :
    upcoming zone slot now ≤ w ∧
      (upcoming zone slot now < w → upcoming zone slot now + DAY ≤ w) := by
  have hon := upcoming_on zone slot now
  obtain ⟨hlow, hhigh⟩ := upcoming_bounds zone slot now
  have hmicros := micros_bounds slot
  generalize dateOf (upcoming zone slot now) = date at *
  generalize dateOf w = other at *
  unfold HourMinute.on DAY HOUR at *
  omega

/-- What is returned is ahead only if the slot is not in the second pass that the call is made
in. -/
theorem ahead_of_lt (hspaced : zone.Spaced) (hahead : now < nextIn zone slot now)
    (hpass : zone.fold now = true) (hpast : slot.on (dateOf (zone.wall now)) ≤ zone.wall now) :
    zone.read false (upcoming zone slot now) = zone.read true (upcoming zone slot now) := by
  obtain ⟨change, before, haround⟩ := Zone.around hspaced now
  obtain ⟨hlow, hhigh⟩ := upcoming_bounds zone slot now
  have hread := fun fold => haround.read fold (upcoming zone slot now)
    (by unfold DAY HOUR at *; omega) (by unfold DAY HOUR at *; omega)
  have hsecond := (haround.fold now (by omega) (by unfold HOUR; omega)).mp hpass
  rw [nextIn_eq, decide_eq_false (Int.not_lt.mpr hpast), Bool.and_false, Zone.toUtc,
    hread] at hahead
  rw [hread, hread]
  simp only [readsFrom, Bool.false_eq_true, if_false, if_true] at hahead ⊢
  omega

theorem sameDay_of_reached (hspaced : zone.Spaced)
    (hsame : zone.fold now = true → slot.on (dateOf (zone.wall now)) ≤ zone.wall now →
      zone.read false (upcoming zone slot now) = zone.read true (upcoming zone slot now))
    (hreached : slot.on (dateOf (zone.wall (nextIn zone slot now))) ≤
      zone.wall (nextIn zone slot now)) :
    dateOf (zone.wall (zone.toUtc false (upcoming zone slot now))) =
      dateOf (upcoming zone slot now) := by
  obtain ⟨change, before, haround⟩ := Zone.around hspaced now
  obtain ⟨fold, hfold, hnext, hahead⟩ := next_read haround hsame
  obtain ⟨hlow, hhigh⟩ := upcoming_bounds zone slot now
  have hforward := haround.forward
  have hback := haround.back
  rcases next_wall haround hsame with hshown | ⟨hfrom, htill, hreturn, hthere, hfirst⟩
  · -- the time is not skipped, and the first pass shows it
    have hoffset := haround.offset_self
    have hwall : zone.wall now = now + zone.offset now := rfl
    have hread := haround.read false (upcoming zone slot now)
      (by unfold DAY HOUR at *; omega) (by unfold DAY HOUR at *; omega)
    simp only [readsFrom, Bool.false_eq_true, if_false] at hread
    have hclock := haround.offset (zone.toUtc false (upcoming zone slot now))
      (by rw [Zone.toUtc, hread]; unfold DAY HOUR at *; omega)
      (by rw [Zone.toUtc, hread]; unfold DAY HOUR at *; omega)
    have hnextClock := haround.offset (nextIn zone slot now)
      (by unfold DAY HOUR at *; omega) (by unfold DAY HOUR at *; omega)
    have hnextWall : zone.wall (nextIn zone slot now) =
      nextIn zone slot now + zone.offset (nextIn zone slot now) := rfl
    rw [Zone.wall, hclock, Zone.toUtc, hread]
    congr 1
    cases fold with
    | false =>
      simp only [readsFrom, Bool.false_eq_true, if_false] at hnext
      omega
    | true =>
      obtain ⟨hrepeated, -⟩ := hfold rfl
      omega
  · have hmicros := micros_bounds slot
    have hon := upcoming_on zone slot now
    have hlate : zone.wall (nextIn zone slot now) = upcoming zone slot now - before +
        change.offset := by
      rw [Zone.wall, hthere, hreturn]
    rw [← hfirst]
    clear hnext hahead hreturn hthere hfirst hlow hhigh
    generalize zone.wall (nextIn zone slot now) = shown at *
    generalize upcoming zone slot now = wall at *
    unfold HourMinute.on dateOf DAY HOUR at *
    omega

theorem none_before (hspaced : zone.Spaced) (hregular : FirstRegular zone slot now) (u : Int)
    (hu : now < u) (hnext : u < nextIn zone slot now) (hlater : zone.wall now < zone.wall u) :
    zone.wall u ≠ slot.on (dateOf (zone.wall u)) := by
  intro hslot
  obtain ⟨hlow, hhigh⟩ := upcoming_bounds zone slot now
  obtain ⟨hupcoming, hday⟩ := upcoming_le hlater hslot
  obtain ⟨change, before, haround⟩ := Zone.around hspaced now
  obtain ⟨fold, hfold, hread, -⟩ := next_read haround hregular.ahead
  have hforward := haround.forward
  have hback := haround.back
  have hoffset := haround.offset_self
  have hwall : zone.wall now = now + zone.offset now := rfl
  have hthere := haround.offset u (by unfold HOUR; omega) (by unfold DAY HOUR at *; omega)
  have hshows : zone.wall u = u + zone.offset u := rfl
  cases fold with
  | false =>
    simp only [readsFrom, Bool.false_eq_true, if_false] at hread
    unfold DAY HOUR at *
    omega
  | true =>
    obtain ⟨hrepeated, hpast⟩ := hfold rfl
    simp only [readsFrom, if_true] at hread
    omega

theorem nextSlot_iff (hspaced : zone.Spaced) :
    NextSlot zone slot now (nextIn zone slot now) ↔ FirstRegular zone slot now := by
  constructor
  · intro h
    have hsame := ahead_of_lt hspaced h.ahead
    exact ⟨hsame, sameDay_of_reached hspaced hsame h.reached⟩
  · intro hregular
    obtain ⟨hgood, hdate, hlater⟩ := nextIn_good hspaced hregular
    refine ⟨hgood, none_before hspaced hregular, ?_⟩
    rw [hdate, ← upcoming_on]
    exact hlater

end

def newYork : Zone where
  initial := -4 * HOUR
  transitions := [⟨1793512800000000, -5 * HOUR⟩]

/-- St. John's, in the autumn of 2010: at a minute past midnight it is a minute past eleven
again. -/
def stJohns : Zone where
  initial := -9000000000
  transitions := [⟨1289097060000000, -12600000000⟩]

def zones (tz : String) : Option Zone :=
  if tz = "America/New_York" then some newYork
  else if tz = "America/St_Johns" then some stJohns
  else none

def halfPastOne : HourMinute := ⟨1, 30, by decide, by decide⟩

def eight : HourMinute := ⟨8, 0, by decide, by decide⟩

/-- Eight o'clock, through the night in which an hour is repeated. -/
theorem eight_once_a_day :
    ∃ date, [1793448000000000, 1793541600000000].map (fun now =>
        dateOf (newYork.wall (nextLocalHhmm zones eight "America/New_York" now))) =
      datesFrom date 2 :=
  (daily_slots zones "America/New_York" eight ⟨by decide, by decide, trivial⟩
    (.cons_cons ⟨by decide, by decide⟩ (.singleton _)) ⟨by decide, by decide⟩ (by
      intro now hnow
      obtain rfl := List.mem_singleton.mp hnow
      exact ⟨by decide, by decide, by decide⟩)).2

/-- A call in the second pass of the repeated hour returns the date's slot again, and one
across midnight a slot that has passed. -/
theorem repeated_hour_twice :
    [1793448000000000, 1793513400000000].IsChain (Between newYork halfPastOne) ∧
      dateOf (newYork.wall (nextLocalHhmm zones halfPastOne "America/New_York" 1793513400000000)) =
        dateOf (newYork.wall (nextLocalHhmm zones halfPastOne "America/New_York"
          1793448000000000)) ∧
      nextLocalHhmm zones ⟨0, 0, by decide, by decide⟩ "America/St_Johns" 1289097660000000 <
        1289097660000000 :=
  ⟨.cons_cons ⟨by decide, by decide⟩ (.singleton _), by decide, by decide⟩

end StackOwl.Scheduler
