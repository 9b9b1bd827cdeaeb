import Mathlib.Data.String.Basic
import Mathlib.Order.Monotone.Basic
import Mathlib.Order.Fin.Basic

/-!
# Instants and their ISO-8601 texts

An instant is a number of microseconds since the first of January of the year 1, in UTC,
up to the end of the year 9999.  `isoformat` is its text as `datetime.isoformat` writes it:
all fields have a fixed width, and the fraction is left out when it is zero.

Such texts are compared as strings wherever they are stored.  The order of the texts is the
order of the instants.

## Main results

* `isoformat_strictMono` — an earlier instant has a smaller text.
* `isoformat_lt_iff`, `isoformat_le_iff` — comparing texts is comparing instants.
-/

namespace StackOwl.Lib

open List

/-! ## The calendar -/

def MICROS_PER_SECOND : Nat := 1000000

def SECONDS_PER_DAY : Nat := 86400

/-- The days from the first of January of the year 1 to the end of the year 9999. -/
def MAX_DAYS : Nat := 3652059

abbrev Instant :=
  { micros : Nat // micros < MAX_DAYS * SECONDS_PER_DAY * MICROS_PER_SECOND }

namespace Instant

/-- `t + timedelta(seconds=…)`; it stays at the last instant where Python raises. -/
def plus (t : Instant) (seconds : Nat) : Instant :=
  ⟨min (t.val + seconds * MICROS_PER_SECOND)
      (MAX_DAYS * SECONDS_PER_DAY * MICROS_PER_SECOND - 1),
    Nat.lt_of_le_of_lt (Nat.min_le_right _ _) (by decide)⟩

/-- `t - timedelta(seconds=…)`; it stays at the first instant where Python raises. -/
def minus (t : Instant) (seconds : Nat) : Instant :=
  ⟨t.val - seconds * MICROS_PER_SECOND, Nat.lt_of_le_of_lt (Nat.sub_le _ _) t.property⟩

theorem minus_le (t : Instant) (seconds : Nat) : t.minus seconds ≤ t :=
  Nat.sub_le _ _

/-- What lies at most so far ahead is not further ahead. -/
theorem minus_le_of_le_plus {t u : Instant} {seconds : Nat} (h : u ≤ t.plus seconds) :
    u.minus seconds ≤ t := by
  have hle : u.val ≤ min _ _ := h
  show u.val - seconds * MICROS_PER_SECOND ≤ t.val
  omega

end Instant

/-- The date of a day: its year, and the day in that year, in the proleptic Gregorian
calendar. -/
structure YearDay where
  year : Nat
  day : Nat

/-- The days of the last years of a cycle of 400, 100 and 4 years are one more or less than
those of the others. -/
def yearDay (days : Nat) : YearDay :=
  let n400 := days / 146097
  let r400 := days % 146097
  let n100 := min 3 (r400 / 36524)
  let r100 := r400 - n100 * 36524
  let n4 := r100 / 1461
  let r4 := r100 % 1461
  let n1 := min 3 (r4 / 365)
  { year := n400 * 400 + n100 * 100 + n4 * 4 + n1 + 1, day := r4 - n1 * 365 }

def isLeap (year : Nat) : Bool := year % 4 = 0 && (year % 100 ≠ 0 || year % 400 = 0)

def monthLengths (leap : Bool) : List Nat :=
  [31, if leap then 29 else 28, 31, 30, 31, 30, 31, 31, 30, 31, 30, 31]

def monthDay (month : Nat) : List Nat → Nat → Nat × Nat
  | [], day => (month, day + 1)
  | length :: rest, day =>
    if day < length then (month, day + 1) else monthDay (month + 1) rest (day - length)

/-! ## Texts -/

def digit (n : Nat) : Char := Char.ofNat (48 + n % 10)

/-- `f"{n:0{width}d}"`, for a number of at most so many digits. -/
def padded : Nat → Nat → List Char
  | 0, _ => []
  | width + 1, n => padded width (n / 10) ++ [digit n]

/-- `YYYY-MM-DD`. -/
def dateText (days : Nat) : List Char :=
  let year := yearDay days
  let date := monthDay 1 (monthLengths (isLeap year.year)) year.day
  padded 4 year.year ++ '-' :: (padded 2 date.1 ++ '-' :: padded 2 date.2)

/-- `HH:MM:SS`. -/
def clockText (seconds : Nat) : List Char :=
  padded 2 (seconds / 3600) ++ ':' :: (padded 2 (seconds / 60 % 60) ++
    ':' :: padded 2 (seconds % 60))

def fractionText (micros : Nat) : List Char :=
  (if micros = 0 then [] else '.' :: padded 6 micros) ++ "+00:00".toList

def isoformat (t : Instant) : String :=
  String.ofList (dateText (t.val / (SECONDS_PER_DAY * MICROS_PER_SECOND)) ++
    'T' :: (clockText (t.val / MICROS_PER_SECOND % SECONDS_PER_DAY) ++
      fractionText (t.val % MICROS_PER_SECOND)))

/-! ## The order of texts -/

/-- Texts of one length are compared before what follows them. -/
theorem append_lt_append {a b : List Char} (hlength : a.length = b.length) (h : a < b)
    (c d : List Char) : a ++ c < b ++ d := by
  induction a generalizing b with
  | nil =>
    have hb : b = [] := length_eq_zero_iff.mp hlength.symm
    exact absurd (hb ▸ h) (lt_irrefl _)
  | cons x a ih =>
    cases b with
    | nil => exact absurd h (not_lt_nil _)
    | cons y b =>
      simp only [cons_append, cons_lt_cons_iff] at h ⊢
      refine h.imp id ?_
      rintro ⟨hhead, htail⟩
      exact ⟨hhead, ih (Nat.succ.inj hlength) htail⟩

theorem cons_lt_cons (x : Char) {a b : List Char} (h : a < b) : x :: a < x :: b :=
  cons_lt_cons_iff.mpr (.inr ⟨rfl, h⟩)

@[simp] theorem length_padded (width n : Nat) : (padded width n).length = width := by
  induction width generalizing n with
  | zero => rfl
  | succ width ih => simp [padded, ih]

theorem digit_lt {n m : Nat} (h : n % 10 < m % 10) : digit n < digit m := by
  have hall : ∀ a b : Fin 10, a < b → Char.ofNat (48 + a) < Char.ofNat (48 + b) := by decide
  exact hall ⟨n % 10, Nat.mod_lt _ (by decide)⟩ ⟨m % 10, Nat.mod_lt _ (by decide)⟩ h

theorem padded_lt {width n m : Nat} (h : n < m) (hm : m < 10 ^ width) :
    padded width n < padded width m := by
  induction width generalizing n m with
  | zero => omega
  | succ width ih =>
    rw [Nat.pow_succ] at hm
    simp only [padded]
    by_cases hhead : n / 10 < m / 10
    · exact append_lt_append (by simp) (ih hhead (by omega)) _ _
    · rw [show n / 10 = m / 10 by omega]
      refine append_left_lt ?_
      exact cons_lt_cons_iff.mpr (.inl (digit_lt (by omega)))

theorem field_lt {width n m : Nat} (sep : Char) {a b : List Char} (hm : m < 10 ^ width)
    (h : n < m ∨ n = m ∧ a < b) :
    padded width n ++ sep :: a < padded width m ++ sep :: b := by
  rcases h with hlt | ⟨rfl, hlt⟩
  · exact append_lt_append (by simp) (padded_lt hlt hm) _ _
  · exact append_left_lt (cons_lt_cons sep hlt)

/-! ## The order of dates -/

variable {a b : Nat}

/-- A number and its rest modulo another are compared from the front. -/
theorem div_lt_or (n : Nat) (h : a < b) :
    a / n < b / n ∨ a / n = b / n ∧ a % n < b % n := by
  rcases Nat.lt_or_ge (a / n) (b / n) with hlt | hge
  · exact .inl hlt
  · have heq := Nat.le_antisymm (Nat.div_le_div_right h.le) hge
    have ha := Nat.div_add_mod a n
    have hb := Nat.div_add_mod b n
    rw [heq] at ha
    exact .inr ⟨heq, by omega⟩

theorem min_div_lt_or (k n : Nat) (h : a < b) :
    min k (a / n) < min k (b / n) ∨
      min k (a / n) = min k (b / n) ∧
        a - min k (a / n) * n < b - min k (b / n) * n := by
  have hle : min k (a / n) ≤ min k (b / n) :=
    min_le_min_left k (Nat.div_le_div_right h.le)
  rcases Nat.lt_or_ge (min k (a / n)) (min k (b / n)) with hlt | hge
  · exact .inl hlt
  · have heq := Nat.le_antisymm hle hge
    have hdiv : min k (b / n) * n ≤ a := by
      rw [← heq]
      exact (Nat.mul_le_mul_right n (Nat.min_le_right _ _)).trans (Nat.div_mul_le_self a n)
    rw [heq]
    exact .inr ⟨rfl, by omega⟩

theorem yearDay_lt (h : a < b) :
    (yearDay a).year < (yearDay b).year ∨
      (yearDay a).year = (yearDay b).year ∧ (yearDay a).day < (yearDay b).day := by
  have hbound : ∀ r : Nat, r < 146097 →
      min 3 (r / 36524) ≤ 3 ∧ (r - min 3 (r / 36524) * 36524) / 1461 ≤ 24 := by
    intro r hr
    omega
  have ha := hbound (a % 146097) (Nat.mod_lt _ (by decide))
  have hb := hbound (b % 146097) (Nat.mod_lt _ (by decide))
  simp only [yearDay]
  rcases div_lt_or 146097 h with h400 | ⟨h400, hrest⟩
  · omega
  rw [h400]
  rcases min_div_lt_or 3 36524 hrest with h100 | ⟨h100, hrest⟩
  · omega
  rw [h100] at ha ⊢
  rw [h100] at hrest
  rcases div_lt_or 1461 hrest with h4 | ⟨h4, hrest⟩
  · omega
  rw [h4]
  rcases min_div_lt_or 3 365 hrest with h1 | ⟨h1, hrest⟩
  · omega
  · rw [h1] at hrest ⊢
    exact .inr ⟨rfl, hrest⟩

theorem yearDay_bounds {days : Nat} (h : days < MAX_DAYS) :
    (yearDay days).year < 10 ^ 4 ∧ (yearDay days).day < 366 := by
  simp only [yearDay, MAX_DAYS] at h ⊢
  omega

/-- A later day of a year is in a later month, or later in its month. -/
theorem monthDay_lt {lengths : List Nat} {month a b : Nat} (h : a < b) :
    (monthDay month lengths a).1 < (monthDay month lengths b).1 ∨
      (monthDay month lengths a).1 = (monthDay month lengths b).1 ∧
        (monthDay month lengths a).2 < (monthDay month lengths b).2 := by
  induction lengths generalizing month a b with
  | nil => exact .inr ⟨rfl, Nat.succ_lt_succ h⟩
  | cons length rest ih =>
    have hfrom : ∀ (rest : List Nat) (month day : Nat), month ≤ (monthDay month rest day).1 := by
      intro rest
      induction rest with
      | nil => exact fun _ _ => Nat.le_refl _
      | cons length rest ih =>
        intro month day
        simp only [monthDay]
        split
        · exact Nat.le_refl _
        · exact Nat.le_of_succ_le (ih (month + 1) _)
    simp only [monthDay]
    by_cases ha : a < length
    · by_cases hb : b < length
      · rw [if_pos ha, if_pos hb]
        exact .inr ⟨rfl, Nat.succ_lt_succ h⟩
      · rw [if_pos ha, if_neg hb]
        exact .inl (hfrom rest (month + 1) _)
    · rw [if_neg ha, if_neg (by omega)]
      exact ih (by omega)

theorem monthDay_bounds (leap : Bool) {day : Nat} (h : day < 366) :
    (monthDay 1 (monthLengths leap) day).1 < 10 ^ 2 ∧
      (monthDay 1 (monthLengths leap) day).2 < 10 ^ 2 := by
  have hall : ∀ leap : Bool, ∀ day : Fin 366,
      (monthDay 1 (monthLengths leap) day).1 < 10 ^ 2 ∧
        (monthDay 1 (monthLengths leap) day).2 < 10 ^ 2 := by decide +kernel
  exact hall leap ⟨day, h⟩

theorem dateText_lt (h : a < b) (hb : b < MAX_DAYS) : dateText a < dateText b := by
  have hbounds := yearDay_bounds hb
  refine field_lt '-' hbounds.1 ((yearDay_lt h).imp id ?_)
  rintro ⟨hyear, hday⟩
  rw [hyear]
  refine ⟨rfl, field_lt '-' (monthDay_bounds _ hbounds.2).1 ?_⟩
  refine (monthDay_lt hday).imp id ?_
  rintro ⟨hmonth, hlt⟩
  exact ⟨hmonth, padded_lt hlt (monthDay_bounds _ hbounds.2).2⟩

theorem clockText_lt (h : a < b) (hb : b < SECONDS_PER_DAY) :
    clockText a < clockText b := by
  rw [SECONDS_PER_DAY] at hb
  refine field_lt ':' (by omega) ?_
  rcases div_lt_or 3600 h with hhour | ⟨hhour, -⟩
  · exact .inl hhour
  · refine .inr ⟨hhour, field_lt ':' (by omega) ?_⟩
    by_cases hminute : a / 60 % 60 = b / 60 % 60
    · exact .inr ⟨hminute, padded_lt (by omega) (by omega)⟩
    · exact .inl (by omega)

/-- A text without a fraction is smaller: the sign of the offset is smaller than the dot. -/
theorem fractionText_lt (h : a < b) (hb : b < MICROS_PER_SECOND) :
    fractionText a < fractionText b := by
  have hne : b ≠ 0 := by omega
  by_cases ha : a = 0
  · rw [fractionText, fractionText, if_pos ha, if_neg hne]
    exact cons_lt_cons_iff.mpr (.inl (by decide))
  · rw [fractionText, fractionText, if_neg ha, if_neg hne]
    exact append_lt_append (by simp) (cons_lt_cons '.' (padded_lt h hb)) _ _

@[simp] theorem length_dateText (days : Nat) : (dateText days).length = 10 := by
  simp [dateText]

@[simp] theorem length_clockText (seconds : Nat) : (clockText seconds).length = 8 := by
  simp [clockText]

/-! ## The order of instants -/

/-- **An earlier instant has a smaller text.** -/
theorem isoformat_strictMono : StrictMono isoformat := by
  intro t u h
  have hlt : t.val < u.val := h
  have hu := u.property
  rw [String.lt_iff_toList_lt, isoformat, isoformat, String.toList_ofList, String.toList_ofList]
  rcases div_lt_or (SECONDS_PER_DAY * MICROS_PER_SECOND) hlt with hday | ⟨hday, hrest⟩
  · refine append_lt_append (by simp) (dateText_lt hday ?_) _ _
    exact (Nat.div_lt_iff_lt_mul (by decide)).mpr (by rwa [← Nat.mul_assoc])
  · rw [hday]
    refine append_left_lt (cons_lt_cons 'T' ?_)
    simp only [SECONDS_PER_DAY, MICROS_PER_SECOND] at hday hrest hu ⊢
    by_cases hclock : t.val / 1000000 % 86400 = u.val / 1000000 % 86400
    · rw [hclock]
      refine append_left_lt (fractionText_lt (by omega) ?_)
      exact Nat.mod_lt _ (by decide)
    · refine append_lt_append (by simp) (clockText_lt (by omega) ?_) _ _
      exact Nat.mod_lt _ (by decide)

theorem isoformat_lt_iff {t u : Instant} : isoformat t < isoformat u ↔ t < u :=
  isoformat_strictMono.lt_iff_lt

theorem isoformat_le_iff {t u : Instant} : isoformat t ≤ isoformat u ↔ t ≤ u :=
  isoformat_strictMono.le_iff_le

end StackOwl.Lib
