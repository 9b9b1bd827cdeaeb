import StackOwl.Durable.FailureClass

/-!
# The schedule grammar

`is_valid_schedule` (`tools/scheduling/cron_helpers.py`) says whether a schedule is accepted,
and `compute_next_run` (`scheduler/scheduler_helpers.py`) when it runs next.  Each tries the
forms on its own: the first by the keyword of the stripped text in lower case, the second one
after the other, `daily@` by the text as it stands.

## Main results

* `oneGrammar_iff` — the two read a schedule as the same form exactly under a condition on what
  the parsers and croniter make of it.
* `shouted_daily` — a schedule that is accepted and armed a day ahead.
-/

namespace StackOwl.Scheduler

open Option

open Durable (strip strip_strip isSpace)

/-! ## The parsers -/

/-- What `re` and `int` know of characters: the value of a decimal digit, and `\w`. -/
structure Characters where
  digit : Char → Option Nat
  isWord : Char → Bool

/-- A character as `re.IGNORECASE` compares it with a letter of a keyword or a unit. -/
def fold (c : Char) : Char :=
  if c = 'ı' ∨ c = 'İ' then 'i' else if c = 'ſ' then 's' else c.toLower

/-- `text.lower().startswith(word)`, for a word in ASCII without `k`. -/
def Begins (word text : List Char) : Prop := (text.take word.length).map Char.toLower = word

instance (word text : List Char) : Decidable (Begins word text) :=
  inferInstanceAs (Decidable (_ = _))

/-- `^word\s+`, and what follows. -/
def token (word text : List Char) : Option (List Char) :=
  if (text.take word.length).map fold = word then
    match text.drop word.length with
    | c :: rest => if isSpace c then some (rest.dropWhile isSpace) else none
    | [] => none
  else none

/-- `sys.int_info.default_max_str_digits`. -/
def MAX_STR_DIGITS : Nat := 4300

/-- The days of `timedelta.max`. -/
def MAX_TIMEDELTA_DAYS : Nat := 999999999

/-- `_EVERY_UNIT_SECONDS`. -/
def unitSeconds : Char → Option Nat
  | 's' => some 1
  | 'm' => some 60
  | 'h' => some 3600
  | 'd' => some 86400
  | _ => none

/-- The units of `_IN_RE`. -/
def IN_UNITS : List String :=
  ["s", "sec", "secs", "second", "seconds", "m", "min", "mins", "minute", "minutes",
    "h", "hr", "hrs", "hour", "hours", "d", "day", "days"]

namespace Characters

section
variable (chars : Characters)

def decimal (digits : List Char) : Option Nat :=
  if digits = [] ∨ MAX_STR_DIGITS < digits.length then none
  else (digits.mapM chars.digit).map fun values => values.foldl (10 * · + ·) 0

/-- `int(text)`; `none` is `ValueError`. -/
def int (text : List Char) : Option Int :=
  let grouped := fun digits : List Char =>
    if [] ∈ digits.splitOn '_' then none else chars.decimal (digits.filter (· ≠ '_'))
  match strip text with
  | '-' :: digits => (grouped digits).map fun n => -n
  | '+' :: digits => (grouped digits).map fun n => n
  | digits => (grouped digits).map fun n => n

variable (schedule : List Char)

/-- `parse_daily_hhmm`, for digits of every script. -/
def parseDailyHhmm : Option (Int × Int) :=
  let text := strip schedule
  if Begins ['d', 'a', 'i', 'l', 'y', '@'] text then
    let parts := (text.drop 6).splitOn ':'
    if parts.length > 2 then none
    else do
      let hour ← chars.int (parts.getD 0 [])
      let minute ← if parts.length > 1 then chars.int (parts.getD 1 []) else some 0
      if (0 ≤ hour ∧ hour ≤ 23) ∧ 0 ≤ minute ∧ minute ≤ 59 then some (hour, minute) else none
  else none

def parseAt : Option (Int × Int) := do
  let clock ← token ['a', 't'] (strip schedule)
  let parts := clock.splitOn ':'
  if parts.length = 2 ∧ (parts.getD 0 []).length ≤ 2 ∧ (parts.getD 1 []).length = 2 then
    let hour ← chars.decimal (parts.getD 0 [])
    let minute ← chars.decimal (parts.getD 1 [])
    if hour ≤ 23 ∧ minute ≤ 59 then some (hour, minute) else none
  else none

/-- The seconds of a count and a unit; it raises for a count that `int` does not take, a unit
that is not in the table, and a product that is no `timedelta`. -/
def seconds (digits : List Char) (unit : Char) : Except Unit (Option Nat) :=
  match chars.decimal digits with
  | none => .error ()
  | some 0 => .ok none
  | some count =>
    match unitSeconds unit.toLower with
    | none => .error ()
    | some each =>
      if count * each / 86400 ≤ MAX_TIMEDELTA_DAYS then .ok (some (count * each)) else .error ()

/-- `^word\s+(\d+)\s*`, with what follows and the digits. -/
def counted (word schedule : List Char) : Option (List Char × List Char) := do
  let rest ← token word (strip schedule)
  let digits := rest.takeWhile fun c => (chars.digit c).isSome
  if digits = [] then none
  else some (digits, (rest.drop digits.length).dropWhile isSpace)

def parseEvery : Except Unit (Option Nat) :=
  match chars.counted ['e', 'v', 'e', 'r', 'y'] schedule with
  | some (digits, [unit]) =>
    if fold unit ∈ ['s', 'm', 'h', 'd'] then chars.seconds digits unit else .ok none
  | _ => .ok none

def parseIn : Except Unit (Option Nat) :=
  match chars.counted ['i', 'n'] schedule with
  | some (digits, unit :: rest) =>
    if ((unit :: rest).takeWhile chars.isWord).map fold ∈ IN_UNITS.map String.toList then
      chars.seconds digits unit
    else .ok none
  | _ => .ok none

end

end Characters

/-! ## The two readings -/

/-- `croniter`: the texts that it accepts, and the firings after an instant, which it may not
find. -/
structure Croniter where
  isValid : List Char → Bool
  firing : List Char → (now count : Nat) → Option Nat

/-- `croniter(text, now)`, and so many times `get_next`. -/
def Croniter.getNext (croniter : Croniter) (text : List Char) (now count : Nat) : Option Nat :=
  if croniter.isValid text then croniter.firing text now count else none

inductive Form where
  | daily (slot : Int × Int)
  | oneShot (slot : Int × Int)
  | interval (seconds : Nat)
  | delay (seconds : Nat)
  | cron
  deriving DecidableEq

def Form.recurring : Form → Bool
  | .oneShot _ | .delay _ => false
  | _ => true

/-- The seconds from year 1 to the end of the calendar. -/
def MAX_SECONDS : Nat := 3652059 * 86400

section
variable (chars : Characters) (croniter : Croniter)

/-- The form as which `is_valid_schedule` accepts a schedule. -/
def validForm (schedule : List Char) : Option Form :=
  let text := strip schedule
  let read := fun parsed : Except Unit (Option Nat) => parsed.toOption.join
  if text = [] then none
  else if Begins ['i', 'n', ' '] text then (read (chars.parseIn text)).map .delay
  else if Begins ['a', 't', ' '] text then (chars.parseAt text).map .oneShot
  else if Begins ['d', 'a', 'i', 'l', 'y', '@'] text then (chars.parseDailyHhmm text).map .daily
  else if Begins ['e', 'v', 'e', 'r', 'y', ' '] text then
    (read (chars.parseEvery text)).map .interval
  else if croniter.isValid text then some .cron
  else none

def isValidSchedule (schedule : List Char) : Bool := (validForm chars croniter schedule).isSome

/-- `now` and a `timedelta`, or what follows where there is none; an error ends it. -/
def after (parsed : Except Unit (Option Nat)) (now : Nat) (form : Nat → Form)
    (rest : Option Form) : Option Form :=
  match parsed with
  | .ok (some seconds) => if now + seconds < MAX_SECONDS then some (form seconds) else none
  | .ok none => rest
  | .error _ => none

/-- The form from which `compute_next_run` computes its result: `none` is the day ahead, or an
error. -/
def computedForm (schedule : List Char) (now : Nat) : Option Form :=
  match
    if ['d', 'a', 'i', 'l', 'y', '@'] <+: schedule then chars.parseDailyHhmm schedule else none
  with
  | some slot => some (.daily slot)
  | none =>
    match chars.parseAt schedule with
    | some slot => some (.oneShot slot)
    | none =>
      after (chars.parseEvery schedule) now .interval
        (after (chars.parseIn schedule) now .delay
          ((croniter.getNext schedule now 0).map fun _ => .cron))

/-- `schedule_interval_seconds`. -/
def scheduleIntervalSeconds (schedule : List Char) (base : Nat) : Option Int :=
  let text := strip schedule
  if Begins ['d', 'a', 'i', 'l', 'y', '@'] text then (chars.parseDailyHhmm text).map fun _ => 86400
  else
    match chars.parseEvery text with
    | .ok (some seconds) => some seconds
    | .error _ => none
    | .ok none => do
      let first ← croniter.getNext text base 0
      let second ← croniter.getNext text base 1
      some (second - first)

/-- The two read a schedule as the same form, or not at all, and a recurring one that is
accepted has an interval. -/
def OneGrammar (schedule : List Char) (now base : Nat) : Prop :=
  validForm chars croniter schedule = computedForm chars croniter schedule now ∧
    ∀ form ∈ validForm chars croniter schedule, form.recurring = true →
      (scheduleIntervalSeconds chars croniter schedule base).isSome

/-! ## When they agree -/

def Fits (parsed : Except Unit (Option Nat)) (now : Nat) (runs : Prop) : Prop :=
  match parsed with
  | .ok (some seconds) => now + seconds < MAX_SECONDS
  | .ok none => ¬runs
  | .error _ => True

def Spent (parsed : Except Unit (Option Nat)) (now : Nat) (rest : Prop) : Prop :=
  match parsed with
  | .ok (some seconds) => MAX_SECONDS ≤ now + seconds
  | .ok none => rest
  | .error _ => True

/-- What decides whether they agree, by the keyword of the schedule. -/
def Aligned (schedule : List Char) (now base : Nat) : Prop :=
  let text := strip schedule
  let runs : Prop := (croniter.getNext schedule now 0).isSome
  if text = [] then ¬runs
  else if Begins ['i', 'n', ' '] text then Fits (chars.parseIn text) now runs
  else if Begins ['a', 't', ' '] text then chars.parseAt text = none → ¬runs
  else if Begins ['d', 'a', 'i', 'l', 'y', '@'] text then
    if chars.parseDailyHhmm text = none then ¬runs else ['d', 'a', 'i', 'l', 'y', '@'] <+: schedule
  else if Begins ['e', 'v', 'e', 'r', 'y', ' '] text then Fits (chars.parseEvery text) now runs
  else if croniter.isValid text then
    (chars.parseAt text = none ∧ chars.parseEvery text = .ok none ∧
      chars.parseIn text = .ok none) ∧ runs ∧
      (croniter.getNext text base 0).isSome ∧ (croniter.getNext text base 1).isSome
  else
    chars.parseAt text = none ∧
      Spent (chars.parseEvery text) now (Spent (chars.parseIn text) now ¬runs)

end

section
variable {word text schedule : List Char}

theorem fold_of_toLower {c k : Char} (h : c.toLower = k) (hk : k ∉ ['ı', 'İ', 'ſ']) :
    fold c = k := by
  have hne : ∀ other ∈ ['ı', 'İ', 'ſ'], c ≠ other := by
    rintro other hother rfl
    rcases (by simpa using hother : c = 'ı' ∨ c = 'İ' ∨ c = 'ſ') with rfl | rfl | rfl <;>
      exact absurd h (by rintro rfl; revert hk; decide)
  unfold fold
  rw [if_neg (by simp [hne]), if_neg (hne _ (by simp)), h]

theorem token_eq_none {k k' : Char} {rest rest' : List Char} (h : Begins (k :: rest) text)
    (hk : k ∉ ['ı', 'İ', 'ſ']) (hne : k ≠ k') : token (k' :: rest') text = none := by
  cases text with
  | nil => rfl
  | cons c text =>
    have hfold : fold c = k := fold_of_toLower (List.cons.inj h).1 hk
    rw [token, if_neg]
    intro hsame
    exact hne (hfold.symm.trans (List.cons.inj hsame).1)

variable {chars : Characters} {croniter : Croniter} {now base : Nat}

theorem parse_strip (schedule : List Char) :
    chars.parseAt schedule = chars.parseAt (strip schedule) ∧
      chars.parseEvery schedule = chars.parseEvery (strip schedule) ∧
      chars.parseIn schedule = chars.parseIn (strip schedule) ∧
      chars.parseDailyHhmm schedule = chars.parseDailyHhmm (strip schedule) := by
  simp only [Characters.parseAt, Characters.parseEvery, Characters.parseIn,
    Characters.parseDailyHhmm, Characters.counted, strip_strip, and_self]

variable {parsed : Except Unit (Option Nat)} {form : Nat → Form} {rest : Option Form}

theorem read_eq_after_iff :
    parsed.toOption.join.map form = after parsed now form rest ↔
      Fits parsed now (rest.isSome = true) := by
  cases parsed with
  | error => exact iff_of_true rfl trivial
  | ok seconds =>
    cases seconds with
    | none => cases rest <;> simp [Except.toOption, after, Fits]
    | some seconds =>
      show some (form seconds) = after (.ok (some seconds)) now form rest ↔ now + seconds < _
      unfold after
      dsimp only
      split <;> simp [*]

theorem none_eq_after_iff :
    none = after parsed now form rest ↔ Spent parsed now (none = rest) := by
  cases parsed with
  | error => exact iff_of_true rfl trivial
  | ok seconds =>
    cases seconds with
    | none => exact Iff.rfl
    | some seconds =>
      simp only [after, Spent]
      split <;> simp <;> omega

theorem cron_eq_after_iff (hform : ∀ seconds, form seconds ≠ .cron) :
    some .cron = after parsed now form rest ↔ parsed = .ok none ∧ some .cron = rest := by
  cases parsed with
  | error => exact iff_of_false (by simp [after]) (by simp)
  | ok seconds =>
    cases seconds with
    | none => simp [after]
    | some seconds =>
      refine iff_of_false (fun h => ?_) (by simp)
      simp only [after] at h
      split at h
      · exact hform _ (some.inj h).symm
      · cases h

theorem isSome_interval_iff {first second : Option Nat} :
    (do let f ← first; let s ← second; some ((s : Int) - f) : Option Int).isSome = true ↔
      first.isSome = true ∧ second.isSome = true := by
  cases first <;> cases second <;> simp

theorem begins_unique {k k' : Char} {rest rest' : List Char} (h : Begins (k :: rest) text)
    (hne : k ≠ k') : ¬Begins (k' :: rest') text := by
  intro h'
  cases text with
  | nil => cases h
  | cons c text => exact hne ((List.cons.inj h).1.symm.trans (List.cons.inj h').1)

theorem parseDailyHhmm_eq_none (h : ¬Begins ['d', 'a', 'i', 'l', 'y', '@'] (strip schedule)) :
    chars.parseDailyHhmm schedule = none := if_neg h

theorem parseAt_eq_none (h : token ['a', 't'] (strip schedule) = none) :
    chars.parseAt schedule = none := by
  rw [Characters.parseAt, h]
  rfl

theorem parseEvery_eq_none (h : token ['e', 'v', 'e', 'r', 'y'] (strip schedule) = none) :
    chars.parseEvery schedule = .ok none := by
  rw [Characters.parseEvery, Characters.counted, h]
  rfl

theorem parseIn_eq_none (h : token ['i', 'n'] (strip schedule) = none) :
    chars.parseIn schedule = .ok none := by
  rw [Characters.parseIn, Characters.counted, h]
  rfl

/-- **The grammar is one, exactly where it is.** -/
theorem oneGrammar_iff (chars : Characters) (croniter : Croniter) (schedule : List Char)
    (now base : Nat) :
    OneGrammar chars croniter schedule now base ↔
      Aligned chars croniter schedule now base := by
  obtain ⟨hat, hevery, hin, hdaily⟩ := @parse_strip chars schedule
  unfold OneGrammar Aligned validForm computedForm scheduleIntervalSeconds
  rw [hat, hevery, hin, hdaily]
  have hstrip := strip_strip schedule
  generalize strip schedule = text at hstrip ⊢
  dsimp only
  have hruns : ((croniter.getNext schedule now 0).map fun _ => Form.cron).isSome =
      (croniter.getNext schedule now 0).isSome := isSome_map
  -- the parsers of the other keywords find nothing
  have hnoAt : ∀ k rest, Begins (k :: rest) text → k ∉ ['ı', 'İ', 'ſ'] → k ≠ 'a' →
      chars.parseAt text = none := fun k rest h hk hne =>
    parseAt_eq_none (by rw [hstrip]; exact token_eq_none h hk hne)
  have hnoEvery : ∀ k rest, Begins (k :: rest) text → k ∉ ['ı', 'İ', 'ſ'] → k ≠ 'e' →
      chars.parseEvery text = .ok none := fun k rest h hk hne =>
    parseEvery_eq_none (by rw [hstrip]; exact token_eq_none h hk hne)
  have hnoIn : ∀ k rest, Begins (k :: rest) text → k ∉ ['ı', 'İ', 'ſ'] → k ≠ 'i' →
      chars.parseIn text = .ok none := fun k rest h hk hne =>
    parseIn_eq_none (by rw [hstrip]; exact token_eq_none h hk hne)
  have hnoDaily : ¬Begins ['d', 'a', 'i', 'l', 'y', '@'] text →
      (if ['d', 'a', 'i', 'l', 'y', '@'] <+: schedule then chars.parseDailyHhmm text else none) =
        none := fun h => by
    rw [parseDailyHhmm_eq_none (by rwa [hstrip]), ite_self]
  by_cases hempty : text = []
  · subst hempty
    rw [if_pos rfl, if_pos rfl, hnoDaily (by decide), parseAt_eq_none (by rw [hstrip]; rfl),
      parseEvery_eq_none (by rw [hstrip]; rfl), parseIn_eq_none (by rw [hstrip]; rfl)]
    cases croniter.getNext schedule now 0 <;> simp [after]
  rw [if_neg hempty, if_neg hempty]
  by_cases hkin : Begins ['i', 'n', ' '] text
  · rw [if_pos hkin, if_pos hkin, hnoDaily (begins_unique hkin (by decide)),
      hnoAt _ _ hkin (by decide) (by decide), hnoEvery _ _ hkin (by decide) (by decide)]
    show (_ = after _ now .delay _) ∧ _ ↔ _
    rw [read_eq_after_iff, hruns]
    refine and_iff_left fun form hform hrecurring => ?_
    obtain ⟨seconds, -, rfl⟩ := map_eq_some_iff.mp hform
    cases hrecurring
  rw [if_neg hkin, if_neg hkin]
  by_cases hkat : Begins ['a', 't', ' '] text
  · rw [if_pos hkat, if_pos hkat, hnoDaily (begins_unique hkat (by decide)),
      hnoEvery _ _ hkat (by decide) (by decide), hnoIn _ _ hkat (by decide) (by decide)]
    cases chars.parseAt text with
    | none => cases croniter.getNext schedule now 0 <;> simp [after]
    | some slot => simp [Form.recurring]
  rw [if_neg hkat, if_neg hkat]
  by_cases hkdaily : Begins ['d', 'a', 'i', 'l', 'y', '@'] text
  · rw [if_pos hkdaily, if_pos hkdaily, if_pos hkdaily,
      hnoAt _ _ hkdaily (by decide) (by decide), hnoEvery _ _ hkdaily (by decide) (by decide),
      hnoIn _ _ hkdaily (by decide) (by decide)]
    cases chars.parseDailyHhmm text with
    | none => cases croniter.getNext schedule now 0 <;> simp [after]
    | some slot =>
      by_cases hraw : ['d', 'a', 'i', 'l', 'y', '@'] <+: schedule
      · simp [hraw]
      · cases croniter.getNext schedule now 0 <;> simp [hraw, after]
  rw [if_neg hkdaily, if_neg hkdaily, if_neg hkdaily, hnoDaily hkdaily]
  by_cases hkevery : Begins ['e', 'v', 'e', 'r', 'y', ' '] text
  · rw [if_pos hkevery, if_pos hkevery, hnoAt _ _ hkevery (by decide) (by decide),
      hnoIn _ _ hkevery (by decide) (by decide)]
    show (_ = after _ now .interval _) ∧ _ ↔ _
    rw [read_eq_after_iff]
    refine (and_iff_left fun form hform _ => ?_).trans (by rw [← hruns]; rfl)
    obtain ⟨seconds, hseconds, -⟩ := map_eq_some_iff.mp hform
    cases hparse : chars.parseEvery text with
    | error => simp [hparse, Except.toOption] at hseconds
    | ok parsed =>
      obtain rfl : parsed = some seconds := by simpa [hparse, Except.toOption] using hseconds
      rfl
  rw [if_neg hkevery, if_neg hkevery]
  by_cases hvalid : croniter.isValid text = true
  · rw [if_pos hvalid, if_pos hvalid]
    cases hparse : chars.parseAt text with
    | some slot => simp
    | none =>
      show (_ = after _ now .interval _) ∧ _ ↔ _
      rw [cron_eq_after_iff (by simp), cron_eq_after_iff (by simp)]
      constructor
      · rintro ⟨⟨hevery, hin, hcron⟩, hinterval⟩
        have hboth := hinterval _ rfl rfl
        rw [hevery] at hboth
        refine ⟨⟨rfl, hevery, hin⟩, ?_, isSome_interval_iff.mp hboth⟩
        rw [← hruns, ← hcron]
        rfl
      · rintro ⟨⟨-, hevery, hin⟩, hcron, hfirings⟩
        obtain ⟨next, hnext⟩ := isSome_iff_exists.mp hcron
        refine ⟨⟨hevery, hin, by rw [hnext]; rfl⟩, fun form _ _ => ?_⟩
        rw [hevery]
        exact isSome_interval_iff.mpr hfirings
  · rw [if_neg hvalid, if_neg hvalid]
    cases hparse : chars.parseAt text with
    | some slot => simp
    | none =>
      show (_ = after _ now .interval _) ∧ _ ↔ _
      rw [none_eq_after_iff, none_eq_after_iff]
      cases croniter.getNext schedule now 0 <;> simp

end

def ascii : Characters where
  digit c := if c.isDigit then some (c.toNat - 48) else none
  isWord c := c.isAlphanum || c = '_'

/-- Accepted as a daily schedule, which croniter does not take. -/
theorem shouted_daily :
    ¬∀ chars croniter schedule now base, OneGrammar chars croniter schedule now base := by
  intro h
  have hsame := (h ascii ⟨fun text => text = "0 9 * * *".toList, fun _ now _ => some now⟩
    "Daily@09:30".toList 0 0).1
  revert hsame
  decide

end StackOwl.Scheduler
