import Mathlib.Data.List.Basic

/-!
# Local time

A time zone is an offset from UTC that changes at finitely many instants, and the three
functions a date library has for it: the offset of an instant, the pass an instant belongs
to where a stretch of local time is gone through twice, and the offset a local time is read
with.  A local time that is gone through twice is read by the pass it is asked for, and one
that is skipped by the offset before the change (the first pass) or behind it.

Instants and local times are numbers of microseconds.  Around an instant, a zone whose
changes are spaced is a zone of one change.

## Main results

* `Zone.around` — the one change that is near an instant.
* `Zone.wall_lt` — local time gets ahead of any change in seven hours.
-/

namespace StackOwl.Lib

def HOUR : Int := 3600000000

def DAY : Int := 24 * HOUR

structure Transition where
  instant : Int
  offset : Int

structure Zone where
  initial : Int
  transitions : List Transition

/-! ## Look-ups -/

def offsetFrom (before : Int) : List Transition → Int → Int
  | [], _ => before
  | change :: rest, instant =>
    if instant < change.instant then before
    else offsetFrom change.offset rest instant

/-- The instant lies so close behind the last change that its local time has been gone
through before. -/
def foldFrom (before : Int) : List Transition → Int → Bool
  | [], _ => false
  | change :: rest, instant =>
    if instant < change.instant then false
    else if rest.head?.any fun next => next.instant ≤ instant then
      foldFrom change.offset rest instant
    else decide (instant - change.instant < before - change.offset)

def readsFrom (fold : Bool) (before : Int) (change : Transition) : Int :=
  change.instant +
    if fold then min before change.offset else max before change.offset

def readFrom (fold : Bool) (before : Int) : List Transition → Int → Int
  | [], _ => before
  | change :: rest, wall =>
    if wall < readsFrom fold before change then before
    else readFrom fold change.offset rest wall

namespace Zone

def utc : Zone := ⟨0, []⟩

variable (zone : Zone)

def offset (instant : Int) : Int := offsetFrom zone.initial zone.transitions instant

def fold (instant : Int) : Bool := foldFrom zone.initial zone.transitions instant

def read (fold : Bool) (wall : Int) : Int := readFrom fold zone.initial zone.transitions wall

def wall (instant : Int) : Int := instant + zone.offset instant

def toUtc (fold : Bool) (wall : Int) : Int := wall - zone.read fold wall

end Zone

/-! ## The offsets there are -/

/-- A date library has offsets of less than a day alone. -/
def Zone.WithinDay (zone : Zone) : Prop :=
  ∀ offset ∈ zone.initial :: zone.transitions.map Transition.offset,
    -DAY < offset ∧ offset < DAY

theorem offsetFrom_mem (before : Int) (changes : List Transition) (u : Int) :
    offsetFrom before changes u ∈ before :: changes.map Transition.offset := by
  induction changes generalizing before with
  | nil => exact List.mem_cons_self
  | cons change rest ih =>
    rw [offsetFrom]
    split
    · exact List.mem_cons_self
    · exact List.mem_cons_of_mem before (ih change.offset)

theorem readFrom_mem (fold : Bool) (before : Int) (changes : List Transition) (w : Int) :
    readFrom fold before changes w ∈ before :: changes.map Transition.offset := by
  induction changes generalizing before with
  | nil => exact List.mem_cons_self
  | cons change rest ih =>
    rw [readFrom]
    split
    · exact List.mem_cons_self
    · exact List.mem_cons_of_mem before (ih change.offset)

/-! ## Changes that are spaced -/

/-- Each change is one of at most six hours, and three days before the next one. -/
def SpacedFrom (before : Int) : List Transition → Prop
  | [] => True
  | change :: rest =>
    (change.offset ≤ before + 6 * HOUR ∧ before ≤ change.offset + 6 * HOUR) ∧
      (∀ next ∈ rest.head?, change.instant + 3 * DAY ≤ next.instant) ∧
      SpacedFrom change.offset rest

def Zone.Spaced (zone : Zone) : Prop := SpacedFrom zone.initial zone.transitions

variable {before u : Int} {changes : List Transition}

theorem drift_of_spaced {start : Int} (hspaced : SpacedFrom before changes)
    (hstart : ∀ first ∈ changes.head?, start + 3 * DAY ≤ first.instant) (hu : start ≤ u) :
    12 * (offsetFrom before changes u - before) ≤ u - start ∧
      12 * (before - offsetFrom before changes u) ≤ u - start := by
  induction changes generalizing before start with
  | nil =>
    rw [offsetFrom]
    omega
  | cons change rest ih =>
    obtain ⟨⟨hforward, hback⟩, hnext, hrest⟩ := hspaced
    have hfirst := hstart change rfl
    rw [offsetFrom]
    split
    · omega
    · have hdrift : 12 * (offsetFrom change.offset rest u - change.offset) ≤
            u - change.instant ∧
          12 * (change.offset - offsetFrom change.offset rest u) ≤ u - change.instant :=
        ih hrest hnext (by omega)
      unfold DAY HOUR at *
      omega

variable {v : Int}

/-- Between two instants the offset drifts by a twelfth of the time and one change. -/
theorem drift (hspaced : SpacedFrom before changes) (huv : u ≤ v) :
    12 * (offsetFrom before changes u - offsetFrom before changes v) ≤ v - u + 3 * DAY ∧
      12 * (offsetFrom before changes v - offsetFrom before changes u) ≤ v - u + 3 * DAY := by
  induction changes generalizing before with
  | nil =>
    simp only [offsetFrom, DAY, HOUR]
    omega
  | cons change rest ih =>
    obtain ⟨⟨hforward, hback⟩, hnext, hrest⟩ := hspaced
    rw [offsetFrom, offsetFrom]
    by_cases hu : u < change.instant
    · rw [if_pos hu]
      split
      · unfold DAY HOUR
        omega
      · have hbehind := drift_of_spaced hrest hnext (u := v) (by omega)
        unfold DAY HOUR at *
        omega
    · rw [if_neg hu, if_neg (by omega)]
      exact ih hrest

/-- **Local time goes on.**  It gets ahead of any change in seven hours. -/
theorem Zone.wall_lt {zone : Zone} (hspaced : zone.Spaced) (huv : u + 7 * HOUR ≤ v)
    : zone.wall u < zone.wall v := by
  have hdrift := (drift hspaced (u := u) (v := v) (by unfold HOUR at huv; omega)).1
  unfold Zone.wall Zone.offset
  unfold DAY HOUR at *
  omega

/-! ## The change near an instant -/

structure Zone.Around (zone : Zone) (now : Int) (change : Transition) (before : Int) :
    Prop where
  forward : change.offset ≤ before + 6 * HOUR
  back : before ≤ change.offset + 6 * HOUR
  offset : ∀ u, now - 18 * HOUR ≤ u → u ≤ now + 54 * HOUR →
    zone.offset u = if u < change.instant then before else change.offset
  fold : ∀ u, now ≤ u → u ≤ now + 54 * HOUR →
    (zone.fold u = true ↔ change.instant ≤ u ∧ u - change.instant < before - change.offset)
  read : ∀ fold w, zone.wall now - 10 * HOUR ≤ w → w ≤ zone.wall now + 42 * HOUR →
    zone.read fold w = if w < readsFrom fold before change then before else change.offset

variable {now : Int} {change : Transition}

theorem Zone.Around.offset_self {zone : Zone} (h : zone.Around now change before) :
    zone.offset now = if now < change.instant then before else change.offset := by
  apply h.offset
  · unfold HOUR
    omega
  · unfold HOUR
    omega

theorem around_nil (before now : Int) :
    Zone.Around ⟨before, []⟩ now ⟨0, before⟩ before where
  forward := by
    show before ≤ before + 6 * 3600000000
    omega
  back := by
    show before ≤ before + 6 * 3600000000
    omega
  offset u _ _ := (ite_self before).symm
  fold u _ _ := by
    show false = true ↔ 0 ≤ u ∧ u - 0 < before - before
    simp only [Bool.false_eq_true, false_iff]
    omega
  read fold w _ _ := (ite_self before).symm

variable {rest : List Transition}

theorem around_first (hspaced : SpacedFrom before (change :: rest))
    (hlast : ∀ next ∈ rest.head?, now + 54 * HOUR < next.instant) :
    Zone.Around ⟨before, change :: rest⟩ now change before := by
  obtain ⟨⟨hforward, hback⟩, hnext, hrest⟩ := hspaced
  have hoffset : ∀ u, u ≤ now + 54 * HOUR → offsetFrom change.offset rest u = change.offset := by
    intro u hu
    cases rest with
    | nil => rfl
    | cons next rest =>
      have hnear := hlast next rfl
      rw [offsetFrom, if_pos (by omega)]
  refine ⟨hforward, hback, fun u _ hu => ?_, fun u _ hu => ?_, fun fold w _ hw => ?_⟩
  · show offsetFrom before (change :: rest) u = _
    rw [offsetFrom, hoffset u hu]
  · show foldFrom before (change :: rest) u = true ↔ _
    have hnone : (rest.head?.any fun next => decide (next.instant ≤ u)) = false := by
      cases rest with
      | nil => rfl
      | cons next rest =>
        have hnear := hlast next rfl
        exact decide_eq_false (by omega)
    rw [foldFrom, hnone]
    split
    · simp only [Bool.false_eq_true, false_iff]
      omega
    · simp only [Bool.false_eq_true, if_false, decide_eq_true_eq]
      omega
  · have hwall : (Zone.mk before (change :: rest)).wall now ≤ now + change.offset + 6 * HOUR := by
      show now + offsetFrom before (change :: rest) now ≤ _
      rw [offsetFrom, hoffset now (by unfold HOUR; omega)]
      split
      · omega
      · unfold HOUR
        omega
    show readFrom fold before (change :: rest) w = _
    rw [readFrom]
    split
    · rfl
    · cases rest with
      | nil => rfl
      | cons next rest =>
        have hnear := hlast next rfl
        obtain ⟨⟨hnextForward, hnextBack⟩, -⟩ := hrest
        rw [readFrom, if_pos]
        unfold readsFrom HOUR at *
        split
        · omega
        · omega

theorem around_cons {near : Transition} {last : Int} (hspaced : SpacedFrom before (change :: rest))
    (hpast : change.instant + 18 * HOUR ≤ now)
    (hrest : Zone.Around ⟨change.offset, rest⟩ now near last) :
    Zone.Around ⟨before, change :: rest⟩ now near last := by
  obtain ⟨⟨hforward, hback⟩, hnext, hspacedRest⟩ := hspaced
  have hoffset : ∀ u, now - 18 * HOUR ≤ u →
      offsetFrom before (change :: rest) u = offsetFrom change.offset rest u := by
    intro u hu
    rw [offsetFrom, if_neg (by omega)]
  have hwall : (Zone.mk before (change :: rest)).wall now =
      (Zone.mk change.offset rest).wall now := by
    show now + offsetFrom before (change :: rest) now = now + offsetFrom change.offset rest now
    rw [hoffset now (by unfold HOUR; omega)]
  refine ⟨hrest.forward, hrest.back, fun u hlow hhigh => ?_, fun u hlow hhigh => ?_,
    fun fold w hlow hhigh => ?_⟩
  · exact (hoffset u hlow).trans (hrest.offset u hlow hhigh)
  · rw [← hrest.fold u hlow hhigh]
    show foldFrom before (change :: rest) u = true ↔ foldFrom change.offset rest u = true
    rw [foldFrom, if_neg (by unfold HOUR at *; omega)]
    split
    · rfl
    · rename_i hbefore
      have hnone : foldFrom change.offset rest u = false := by
        cases rest with
        | nil => rfl
        | cons next rest =>
          have hlater : ¬ next.instant ≤ u := fun h => hbefore (decide_eq_true h)
          rw [foldFrom, if_pos (by omega)]
      rw [hnone]
      simp only [decide_eq_true_eq, Bool.false_eq_true, iff_false]
      unfold HOUR at *
      omega
  · rw [hwall] at hlow hhigh
    rw [← hrest.read fold w hlow hhigh]
    show readFrom fold before (change :: rest) w = readFrom fold change.offset rest w
    have hdrift := (drift_of_spaced hspacedRest hnext (u := now) (by unfold HOUR at *; omega)).2
    have hlow : now + offsetFrom change.offset rest now - 10 * HOUR ≤ w := hlow
    rw [readFrom, if_neg]
    unfold readsFrom HOUR at *
    split
    · omega
    · omega

/-- **The one change that is near an instant.** -/
theorem Zone.around {zone : Zone} (hspaced : zone.Spaced) (now : Int) :
    ∃ change before, zone.Around now change before := by
  obtain ⟨before, changes⟩ := zone
  have hspaced : SpacedFrom before changes := hspaced
  induction changes generalizing before with
  | nil => exact ⟨_, _, around_nil before now⟩
  | cons change rest ih =>
    by_cases hlast : ∀ next ∈ rest.head?, now + 54 * HOUR < next.instant
    · exact ⟨_, _, around_first hspaced hlast⟩
    · push Not at hlast
      obtain ⟨next, hnext, hnear⟩ := hlast
      have hgap := hspaced.2.1 next hnext
      obtain ⟨near, last, haround⟩ := ih change.offset hspaced.2.2 hspaced.2.2
      exact ⟨near, last, around_cons hspaced (by unfold DAY HOUR at *; omega) haround⟩

end StackOwl.Lib
