import Mathlib.Data.List.TakeDrop
import Mathlib.Data.List.TakeWhile
import StackOwl.Lib.Json

/-!
# JSON without blanks

The other standard way to print a JSON value: no blank between its parts, and the
fields of an object in the order they were set.  Read back, the text is the value
again, where the floats are printed as number literals.

## Main results

* `plain_compact` — no printed value holds a control character.
* `loads_compact` — a printed value is read back.
-/

namespace StackOwl.Lib

open List Option

/-! ## Printing -/

def writeString (s : String) : List Char :=
  '"' :: (s.toList.flatMap escapeChar ++ ['"'])

/-! ## Plain texts -/

theorem plain_cons {c : Char} {cs : List Char} (hc : 32 ≤ c.toNat)
    (hcs : ∀ d ∈ cs, 32 ≤ d.toNat) : ∀ d ∈ c :: cs, 32 ≤ d.toNat :=
  forall_mem_cons.mpr ⟨hc, hcs⟩

theorem plain_chars_append {cs ds : List Char} (hcs : ∀ d ∈ cs, 32 ≤ d.toNat)
    (hds : ∀ d ∈ ds, 32 ≤ d.toNat) : ∀ d ∈ cs ++ ds, 32 ≤ d.toNat :=
  forall_mem_append.mpr ⟨hcs, hds⟩

theorem plain_of_writeString (s : String) : ∀ c ∈ writeString s, 32 ≤ c.toNat := by
  intro c hc
  refine plain_quote s c ?_
  simpa [quote, writeString] using hc

/-! ## Reading strings -/

theorem hexDigit_digitChar : ∀ n < 16, hexDigit (Nat.digitChar n) = some n := by decide

theorem readString_unescape {escaped c : Char} (hu : escaped ≠ 'u')
    (h : unescape escaped = some c) (rest : List Char) :
    readString none ('\\' :: escaped :: rest) =
      (readString none rest).map fun p => (c :: p.1, p.2) := by
  rw [readString.eq_def]
  simp only [hu, h, if_false, if_true, bind_eq_bind, bind_some]
  cases readString none rest <;> rfl

variable {c : Char}

theorem readString_plain (hquote : c ≠ '"') (hslash : c ≠ '\\') (h : 32 ≤ c.toNat)
    (rest : List Char) :
    readString none (c :: rest) =
      (readString none rest).map fun p => (c :: p.1, p.2) := by
  rw [readString.eq_def]
  split
  · contradiction
  · rename_i heq
    exact absurd (List.cons.inj heq).1 hquote
  · rename_i heq
    exact absurd (List.cons.inj heq).1 hslash
  · rename_i heq
    cases heq
    simp only [h, and_self, if_true, bind_eq_bind]
    cases readString none rest <;> rfl

theorem readString_control (h : c.toNat < 32) (rest : List Char) :
    readString none ('\\' :: 'u' :: '0' :: '0' :: Nat.digitChar (c.toNat / 16) ::
        Nat.digitChar (c.toNat % 16) :: rest) =
      (readString none rest).map fun p => (c :: p.1, p.2) := by
  have hunit : codeUnit '0' '0' (Nat.digitChar (c.toNat / 16))
      (Nat.digitChar (c.toNat % 16)) = some c.toNat := by
    have hzero : hexDigit '0' = some 0 := by decide
    have hhigh := hexDigit_digitChar (c.toNat / 16) (by omega)
    have hlow := hexDigit_digitChar (c.toNat % 16) (by omega)
    simp only [codeUnit, hzero, hhigh, hlow, bind_eq_bind, bind_some,
      Option.some.injEq]
    omega
  have hhigh : isHigh c.toNat = false := by simp [isHigh]; omega
  have hlow : isLow c.toNat = false := by simp [isLow]; omega
  rw [readString.eq_3]
  simp only [hunit, hhigh, hlow, if_true, bind_eq_bind, bind_some,
    Bool.false_eq_true, if_false, Char.ofNat_toNat]
  cases readString none rest <;> rfl

/-- How a character stands in a string: behind a backslash, by its number, or as it is. -/
inductive Escaped (c : Char) : List Char → Prop where
  | letter {escaped : Char} (hu : escaped ≠ 'u') (h : unescape escaped = some c) :
    Escaped c ['\\', escaped]
  | control (h : c.toNat < 32) :
    Escaped c ['\\', 'u', '0', '0', Nat.digitChar (c.toNat / 16), Nat.digitChar (c.toNat % 16)]
  | plain (hquote : c ≠ '"') (hslash : c ≠ '\\') (h : 32 ≤ c.toNat) : Escaped c [c]

theorem escaped_escapeChar (c : Char) : Escaped c (escapeChar c) := by
  have hchar : ∀ n, c.toNat = n → Char.ofNat n = c := by
    rintro _ rfl
    exact Char.ofNat_toNat c
  unfold escapeChar
  split_ifs with hquote hslash hn hr ht hf hb hcontrol
  · exact .letter (by decide) (by rw [hquote]; rfl)
  · exact .letter (by decide) (by rw [hslash]; rfl)
  · exact .letter (by decide) (hchar _ hn ▸ rfl)
  · exact .letter (by decide) (hchar _ hr ▸ rfl)
  · exact .letter (by decide) (hchar _ ht ▸ rfl)
  · exact .letter (by decide) (hchar _ hf ▸ rfl)
  · exact .letter (by decide) (hchar _ hb ▸ rfl)
  · exact .control hcontrol
  · exact .plain hquote hslash (by omega)

theorem readString_escapeChar (c : Char) (rest : List Char) :
    readString none (escapeChar c ++ rest) =
      (readString none rest).map fun p => (c :: p.1, p.2) := by
  generalize escapeChar c = cs, escaped_escapeChar c = h
  cases h with
  | letter hu h => exact readString_unescape hu h rest
  | control h => exact readString_control h rest
  | plain hquote hslash h => exact readString_plain hquote hslash h rest

theorem readString_write (cs rest : List Char) :
    readString none (cs.flatMap escapeChar ++ '"' :: rest) = some (cs, rest) := by
  induction cs with
  | nil => rfl
  | cons c cs ih =>
    rw [flatMap_cons, append_assoc, readString_escapeChar, ih]
    rfl

/-! ## Layouts

What holds of a printer whatever it does with the strings, and whichever blanks it puts behind
its separators. -/

/-- How strings are printed, and what stands behind a separator. -/
structure Layout where
  string : String → List Char
  gap : List Char
  plainString : ∀ s, ∀ c ∈ string s, 32 ≤ c.toNat
  plainGap : ∀ c ∈ gap, 32 ≤ c.toNat
  /-- A printed string is read back up to its closing quotation mark. -/
  readBack : ∀ s, ∃ body, string s = '"' :: body ∧
    ∀ rest, readString none (body ++ rest) = some (s.toList, rest)
  blank : ∀ cs, skipBlanks (gap ++ cs) = skipBlanks cs

namespace Layout

variable (l : Layout)

mutual

def text : Json → List Char
  | .null => ['n', 'u', 'l', 'l']
  | .bool true => ['t', 'r', 'u', 'e']
  | .bool false => ['f', 'a', 'l', 's', 'e']
  | .int n => (toString n).toList
  | .float x => x.text.toList
  | .str s | .other s => l.string s
  | .arr [] => ['[', ']']
  | .arr (item :: rest) => '[' :: (text item ++ items rest)
  | .obj [] => ['\x7b', '\x7d']
  | .obj ((key, value) :: rest) =>
    '\x7b' :: (l.string key ++ ':' :: (l.gap ++ (text value ++ fields rest)))

/-- The further items of an array and its closing bracket. -/
def items : List Json → List Char
  | [] => [']']
  | item :: rest => ',' :: (l.gap ++ (text item ++ items rest))

/-- The further fields of an object and its closing brace. -/
def fields : List (String × Json) → List Char
  | [] => ['\x7d']
  | (key, value) :: rest =>
    ',' :: (l.gap ++ (l.string key ++ ':' :: (l.gap ++ (text value ++ fields rest))))

end

mutual

theorem text_plain : ∀ value : Json, ∀ c ∈ l.text value, 32 ≤ c.toNat
  | .null | .bool true | .bool false | .arr [] | .obj [] => of_all rfl
  | .int n => plain_toString_int n
  | .float x => x.plain
  | .str s | .other s => l.plainString s
  | .arr (item :: rest) =>
    plain_cons (by decide) (plain_chars_append (text_plain item) (items_plain rest))
  | .obj ((key, value) :: rest) =>
    plain_cons (by decide) (plain_chars_append (l.plainString key) (plain_cons (by decide)
      (plain_chars_append l.plainGap (plain_chars_append (text_plain value) (fields_plain rest)))))

theorem items_plain : ∀ rest : List Json, ∀ c ∈ l.items rest, 32 ≤ c.toNat
  | [] => of_all rfl
  | item :: rest =>
    plain_cons (by decide) (plain_chars_append l.plainGap
      (plain_chars_append (text_plain item) (items_plain rest)))

theorem fields_plain : ∀ rest : List (String × Json), ∀ c ∈ l.fields rest, 32 ≤ c.toNat
  | [] => of_all rfl
  | (key, value) :: rest =>
    plain_cons (by decide) (plain_chars_append l.plainGap (plain_chars_append (l.plainString key)
      (plain_cons (by decide) (plain_chars_append l.plainGap
        (plain_chars_append (text_plain value) (fields_plain rest))))))

end

theorem fields_close (rest : List (String × Json)) : ∃ cs, l.fields rest = cs ++ ['\x7d'] := by
  induction rest with
  | nil => exact ⟨[], rfl⟩
  | cons field rest ih =>
    obtain ⟨cs, hcs⟩ := ih
    rw [fields, hcs]
    exact ⟨',' :: (l.gap ++ (l.string field.1 ++ ':' :: (l.gap ++ (l.text field.2 ++ cs)))),
      by simp⟩

end Layout

def unspaced : Layout where
  string := writeString
  gap := []
  plainString := plain_of_writeString
  plainGap := of_all rfl
  readBack s := ⟨_, rfl, fun rest => by
    rw [append_assoc, singleton_append, readString_write]⟩
  blank _ := rfl

def compact (value : Json) : String := String.ofList (unspaced.text value)

theorem plain_compact (value : Json) : Plain (compact value) := by
  intro c hc
  rw [compact, String.toList_ofList] at hc
  exact unspaced.text_plain value c hc

/-! ## Reading numbers -/

/-- What follows a value in a printed text. -/
def Stops (rest : List Char) : Prop :=
  ∀ c ∈ rest.head?, c = ',' ∨ c = ']' ∨ c = '\x7d'

variable {rest : List Char}

theorem Stops.head (h : Stops (c :: rest)) :
    c.isDigit = false ∧ c ≠ '.' ∧ c ≠ 'e' ∧ c ≠ 'E' ∧ c ≠ '+' ∧ c ≠ '-' := by
  rcases h c rfl with rfl | rfl | rfl <;> decide

theorem readDigits_eq (cs : List Char) :
    readDigits cs = (cs.takeWhile Char.isDigit, cs.dropWhile Char.isDigit) :=
  span_eq_takeWhile_dropWhile _ cs

theorem readDigits_append (h : Stops rest) (cs : List Char) :
    readDigits (cs ++ rest) = ((readDigits cs).1, (readDigits cs).2 ++ rest) := by
  simp only [readDigits_eq]
  induction cs with
  | nil =>
    cases rest with
    | nil => rfl
    | cons c rest => simp [h.head.1]
  | cons c cs ih =>
    cases hc : c.isDigit with
    | true =>
      simp only [Prod.mk.injEq] at ih
      simp [hc, ih]
    | false => simp [hc]

theorem readFraction_of_ne (hc : c ≠ '.') (cs : List Char) :
    readFraction (c :: cs) = ([], c :: cs) := by
  rw [readFraction.eq_def]
  split
  · rename_i heq
    exact absurd (cons.inj heq).1 hc
  · rfl

theorem readFraction_append (h : Stops rest) (cs : List Char) :
    readFraction (cs ++ rest) = ((readFraction cs).1, (readFraction cs).2 ++ rest) := by
  cases cs with
  | nil =>
    cases rest with
    | nil => rfl
    | cons c rest => exact readFraction_of_ne h.head.2.1 rest
  | cons c cs =>
    by_cases hc : c = '.'
    · subst hc
      simp only [cons_append, readFraction, readDigits_append h]
      split <;> rfl
    · rw [cons_append, readFraction_of_ne hc, readFraction_of_ne hc]
      rfl

private def exponentSign : List Char → List Char × List Char
  | '+' :: digits => (['+'], digits)
  | '-' :: digits => (['-'], digits)
  | digits => ([], digits)

private theorem exponentSign_of_ne (hplus : c ≠ '+') (hminus : c ≠ '-') (cs : List Char) :
    exponentSign (c :: cs) = ([], c :: cs) := by
  rw [exponentSign.eq_def]
  split
  · rename_i heq
    exact absurd (cons.inj heq).1 hplus
  · rename_i heq
    exact absurd (cons.inj heq).1 hminus
  · rfl

private theorem exponentSign_append (h : Stops rest) (cs : List Char) :
    exponentSign (cs ++ rest) =
      ((exponentSign cs).1, (exponentSign cs).2 ++ rest) := by
  cases cs with
  | nil =>
    cases rest with
    | nil => rfl
    | cons c rest =>
      obtain ⟨-, -, -, -, hplus, hminus⟩ := h.head
      exact exponentSign_of_ne hplus hminus rest
  | cons c cs =>
    by_cases hplus : c = '+'
    · subst hplus
      rfl
    · by_cases hminus : c = '-'
      · subst hminus
        rfl
      · rw [cons_append, exponentSign_of_ne hplus hminus, exponentSign_of_ne hplus hminus]
        rfl

private theorem readExponent_cons (c : Char) (cs : List Char) :
    readExponent (c :: cs) =
      if (c = 'e' ∨ c = 'E') ∧ (readDigits (exponentSign cs).2).1 ≠ [] then
        (c :: (exponentSign cs).1 ++ (readDigits (exponentSign cs).2).1,
          (readDigits (exponentSign cs).2).2)
      else ([], c :: cs) := rfl

theorem readExponent_append (h : Stops rest) (cs : List Char) :
    readExponent (cs ++ rest) = ((readExponent cs).1, (readExponent cs).2 ++ rest) := by
  cases cs with
  | nil =>
    cases rest with
    | nil => rfl
    | cons c rest =>
      obtain ⟨-, -, he, hE, -, -⟩ := h.head
      rw [nil_append, readExponent_cons, if_neg (by simp [he, hE])]
      rfl
  | cons c cs =>
    rw [cons_append, readExponent_cons, readExponent_cons,
      exponentSign_append h, readDigits_append h]
    split <;> rfl

theorem readNumber_minus (cs : List Char) :
    readNumber ('-' :: cs) = unsigned ['-'] cs := rfl

theorem readNumber_unsigned (hc : c ≠ '-') (cs : List Char) :
    readNumber (c :: cs) = unsigned [] (c :: cs) := by
  rw [readNumber.eq_def]
  split
  · rename_i heq
    exact absurd (cons.inj heq).1 hc
  · rfl

variable {r : List Char} {v : Json}

private theorem unsigned_append (h : Stops rest) {sign cs : List Char}
    (hv : unsigned sign cs = some (v, r)) :
    unsigned sign (cs ++ rest) = some (v, r ++ rest) := by
  unfold unsigned at hv ⊢
  simp only [readDigits_append h, readFraction_append h, readExponent_append h] at hv ⊢
  split at hv
  · cases hv
  · rename_i hwhole
    rw [if_neg hwhole]
    split at hv
    · rename_i hint
      rw [if_pos hint]
      cases hv
      rfl
    · rename_i hfloat
      rw [if_neg hfloat]
      split at hv
      · rename_i hplain
        rw [dif_pos hplain]
        cases hv
        rfl
      · cases hv

variable {cs : List Char}

theorem readNumber_append (h : Stops rest) (hv : readNumber cs = some (v, r)) :
    readNumber (cs ++ rest) = some (v, r ++ rest) := by
  cases cs with
  | nil => cases hv
  | cons c cs =>
    by_cases hc : c = '-'
    · subst hc
      exact unsigned_append h hv
    · rw [readNumber_unsigned hc] at hv
      rw [cons_append, readNumber_unsigned hc]
      exact unsigned_append h hv

theorem ofDigits_toDigits (m : Nat) : ofDigits (Nat.toDigits 10 m) = m := by
  have hfold : ∀ ds, ofDigits ds = Nat.ofDigitChars 10 ds 0 := by
    intro ds
    simp only [ofDigits, Nat.ofDigitChars, Nat.mul_comm]
  rw [hfold, Nat.ofDigitChars_ten_toDigits]

theorem head?_toDigits_ne {m : Nat} (hm : 0 < m) :
    (Nat.toDigits 10 m).head? ≠ some '0' := by
  induction m using Nat.strongRecOn with
  | ind m ih =>
    by_cases hlt : m < 10
    · rw [Nat.toDigits_of_lt_base hlt]
      intro h
      have hzero : ∀ d < 10, 0 < d → Nat.digitChar d ≠ '0' := by decide
      exact hzero m hlt hm (some.inj h)
    · rw [Nat.toDigits_of_base_le (by decide) (by omega),
        head?_append_of_ne_nil _ Nat.toDigits_ne_nil]
      exact ih (m / 10) (by omega) (by omega)

private theorem unsigned_toDigits (sign : List Char) (m : Nat) :
    unsigned sign (Nat.toDigits 10 m) =
      some (.int (if sign = [] then m else -m), []) := by
  have hdigits : ∀ c ∈ Nat.toDigits 10 m, c.isDigit = true := fun c hc =>
    Nat.isDigit_of_mem_toDigits (by decide) (by decide) hc
  have hread : readDigits (Nat.toDigits 10 m) = (Nat.toDigits 10 m, []) := by
    rw [readDigits_eq, takeWhile_eq_self_iff.mpr hdigits,
      dropWhile_eq_nil_iff.mpr hdigits]
  have hwhole : ¬ (Nat.toDigits 10 m = [] ∨
      (Nat.toDigits 10 m).length ≠ 1 ∧ (Nat.toDigits 10 m).head? = some '0') := by
    rintro (hnil | ⟨hlength, hhead⟩)
    · exact Nat.toDigits_ne_nil hnil
    · by_cases hm : 0 < m
      · exact head?_toDigits_ne hm hhead
      · obtain rfl : m = 0 := by omega
        exact hlength rfl
  unfold unsigned
  simp only [hread, if_neg hwhole, readFraction, readExponent, ofDigits_toDigits,
    and_self, if_true]

theorem readNumber_int (n : Int) :
    readNumber (toString n).toList = some (.int n, []) := by
  cases n with
  | ofNat m =>
    have htext : (toString (Int.ofNat m)).toList = Nat.toDigits 10 m := Nat.toList_repr
    rw [htext]
    obtain ⟨c, cs, hcs⟩ := exists_cons_of_ne_nil
      (Nat.toDigits_ne_nil (n := m) (b := 10))
    have hdigit : c.isDigit = true :=
      Nat.isDigit_of_mem_toDigits (by decide) (by decide)
        (hcs ▸ mem_cons_self : c ∈ Nat.toDigits 10 m)
    have hminus : c ≠ '-' := by
      rintro rfl
      cases hdigit
    have hnumber := unsigned_toDigits [] m
    rw [hcs] at hnumber ⊢
    rw [readNumber_unsigned hminus, hnumber]
    rfl
  | negSucc m =>
    have htext : (toString (Int.negSucc m)).toList = '-' :: Nat.toDigits 10 (m + 1) := by
      show ("-" ++ (m + 1).repr).toList = _
      rw [String.toList_append, Nat.toList_repr]
      rfl
    rw [htext, readNumber_minus, unsigned_toDigits]
    rfl

theorem head_of_readNumber (h : readNumber cs = some (v, r)) :
    ∃ c rest, cs = c :: rest ∧ (c = '-' ∨ c.isDigit = true) := by
  cases cs with
  | nil => cases h
  | cons c rest =>
    refine ⟨c, rest, rfl, ?_⟩
    by_cases hc : c = '-'
    · exact Or.inl hc
    · right
      rw [readNumber_unsigned hc] at h
      cases hdigit : c.isDigit with
      | true => rfl
      | false =>
        have hread : readDigits (c :: rest) = ([], c :: rest) := by
          simp [readDigits_eq, hdigit]
        simp [unsigned, hread] at h

/-! ## Reading values -/

mutual

/-- Every float is printed as a number literal, and every other part is one that a text
can hold. -/
def Json.Readable : Json → Prop
  | .float x => readNumber x.text.toList = some (.float x, [])
  | .arr items => ReadableItems items
  | .obj fields => ReadableFields fields
  | .other _ => False
  | .null | .bool _ | .int _ | .str _ => True

def ReadableItems : List Json → Prop
  | [] => True
  | item :: items => item.Readable ∧ ReadableItems items

def ReadableFields : List (String × Json) → Prop
  | [] => True
  | (_, value) :: fields => value.Readable ∧ ReadableFields fields

end

mutual

/-- The calls that reading a printed value nests. -/
def nesting : Json → Nat
  | .arr items => 1 + nestingItems items
  | .obj fields => 1 + nestingFields fields
  | .null | .bool _ | .int _ | .float _ | .str _ | .other _ => 1

def nestingItems : List Json → Nat
  | [] => 1
  | item :: items => 1 + nesting item + nestingItems items

def nestingFields : List (String × Json) → Nat
  | [] => 1
  | (_, value) :: fields => 1 + nesting value + nestingFields fields

end

theorem ne_of_numeral (hc : c = '-' ∨ c.isDigit = true) {d : Char} (hd : d.isDigit = false)
    (hminus : d ≠ '-') : c ≠ d := by
  rintro rfl
  rcases hc with rfl | hdigit
  · exact hminus rfl
  · rw [hd] at hdigit
    cases hdigit

theorem isBlank_of_numeral (hc : c = '-' ∨ c.isDigit = true) : isBlank c = false := by
  have hne {d : Char} := @ne_of_numeral c hc d
  simp [isBlank, @hne ' ' rfl (by decide), @hne '\t' rfl (by decide),
    @hne '\n' rfl (by decide), @hne '\r' rfl (by decide)]

theorem readValue_number (n : Nat) (h : readNumber cs = some (v, r)) :
    readValue (n + 1) cs = some (v, r) := by
  obtain ⟨c, rest, rfl, hc⟩ := head_of_readNumber h
  have hne {d : Char} := @ne_of_numeral c hc d
  have hskip : skipBlanks (c :: rest) = c :: rest := by
    simp [skipBlanks, isBlank_of_numeral hc]
  have hliteral : readLiteral (c :: rest) = readNumber (c :: rest) := by
    simp [readLiteral, (@hne 'n' rfl (by decide)).symm, (@hne 't' rfl (by decide)).symm,
      (@hne 'f' rfl (by decide)).symm]
  rw [readValue, hskip]
  split
  · rename_i heq
    exact absurd (cons.inj heq).1 (hne rfl (by decide))
  · rename_i heq
    exact absurd (cons.inj heq).1 (hne rfl (by decide))
  · rename_i heq
    exact absurd (cons.inj heq).1 (hne rfl (by decide))
  · rw [hliteral, h]

theorem head_number (h : readNumber cs = some (v, r)) :
    ∃ c rest, cs = c :: rest ∧ isBlank c = false ∧ c ≠ ']' ∧ c ≠ '\x7d' := by
  obtain ⟨c, rest, rfl, hc⟩ := head_of_readNumber h
  exact ⟨c, rest, rfl, isBlank_of_numeral hc, ne_of_numeral hc rfl (by decide),
    ne_of_numeral hc rfl (by decide)⟩

theorem stops_of_head (h : c = ',' ∨ c = ']' ∨ c = '\x7d') : Stops (c :: rest) := by
  rintro d ⟨⟩
  exact h

theorem readValue_bracket (hblank : isBlank c = false) (hc : c ≠ ']') (n : Nat) (rest : List Char) :
    readValue (n + 1) ('[' :: c :: rest) =
      (readItems n (c :: rest)).map fun p => (.arr p.1, p.2) := by
  have hskip : skipBlanks (c :: rest) = c :: rest := by simp [skipBlanks, hblank]
  have hopen : skipBlanks ('[' :: c :: rest) = '[' :: c :: rest := rfl
  rw [readValue, hopen]
  simp only [hskip]
  split
  · rename_i heq
    exact absurd (cons.inj heq).1 hc
  · cases readItems n (c :: rest) <;> rfl

theorem readValue_brace (hblank : isBlank c = false) (hc : c ≠ '\x7d') (n : Nat)
    (rest : List Char) :
    readValue (n + 1) ('\x7b' :: c :: rest) =
      (readFields n (c :: rest)).map fun p => (.obj p.1, p.2) := by
  have hskip : skipBlanks (c :: rest) = c :: rest := by simp [skipBlanks, hblank]
  have hopen : skipBlanks ('\x7b' :: c :: rest) = '\x7b' :: c :: rest := rfl
  rw [readValue, hopen]
  simp only [hskip]
  split
  · rename_i heq
    exact absurd (cons.inj heq).1 hc
  · cases readFields n (c :: rest) <;> rfl

namespace Layout

variable (l : Layout)

theorem stops_items (items : List Json) (rest : List Char) :
    Stops (l.items items ++ rest) := by
  cases items with
  | nil => exact stops_of_head (.inr (.inl rfl))
  | cons item items => exact stops_of_head (.inl rfl)

theorem stops_fields (fields : List (String × Json)) (rest : List Char) :
    Stops (l.fields fields ++ rest) := by
  cases fields with
  | nil => exact stops_of_head (.inr (.inr rfl))
  | cons field fields => exact stops_of_head (.inl rfl)

/-- A printed value begins with no blank and no closing bracket. -/
theorem head_text : ∀ {v : Json}, v.Readable →
    ∃ c rest, l.text v = c :: rest ∧ isBlank c = false ∧ c ≠ ']' ∧ c ≠ '\x7d'
  | .null, _ | .bool true, _ | .bool false, _ | .arr [], _ | .arr (_ :: _), _
  | .obj [], _ | .obj (_ :: _), _ => ⟨_, _, rfl, rfl, by decide, by decide⟩
  | .int n, _ => head_number (readNumber_int n)
  | .float x, h => head_number h
  | .str s, _ => by
    obtain ⟨body, hs, -⟩ := l.readBack s
    exact ⟨_, body, hs, rfl, by decide, by decide⟩
  | .other _, h => h.elim

theorem readValue_gap (n : Nat) (cs : List Char) :
    readValue n (l.gap ++ cs) = readValue n cs := by
  cases n with
  | zero => rfl
  | succ n => rw [readValue, readValue, l.blank]

theorem readItems_gap (n : Nat) (cs : List Char) :
    readItems n (l.gap ++ cs) = readItems n cs := by
  cases n with
  | zero => rfl
  | succ n => rw [readItems, readItems, l.readValue_gap]

theorem readFields_gap (n : Nat) (cs : List Char) :
    readFields n (l.gap ++ cs) = readFields n cs := by
  cases n with
  | zero => rfl
  | succ n => rw [readFields, readFields, l.blank]

mutual

theorem readValue_text : ∀ (v : Json) (n : Nat) (rest : List Char), v.Readable →
    Stops rest → nesting v ≤ n → readValue n (l.text v ++ rest) = some (v, rest)
  | v, 0, rest, _, _, hn => by cases v <;> simp [nesting] at hn
  | .null, n + 1, rest, _, _, _ => rfl
  | .bool true, n + 1, rest, _, _, _ => rfl
  | .bool false, n + 1, rest, _, _, _ => rfl
  | .int m, n + 1, rest, _, hrest, _ =>
    readValue_number n (readNumber_append hrest (readNumber_int m))
  | .float x, n + 1, rest, hv, hrest, _ =>
    readValue_number n (readNumber_append hrest hv)
  | .str s, n + 1, rest, _, _, _ => by
    obtain ⟨body, hs, hbody⟩ := l.readBack s
    rw [text, hs]
    refine (congrArg (bind · _) (hbody rest)).trans ?_
    simp
  | .other text, n + 1, rest, hv, _, _ => hv.elim
  | .arr [], n + 1, rest, _, _, _ => rfl
  | .arr (item :: items), n + 1, rest, hv, _, hn => by
    have hitems := readItems_text item items n rest hv
      (by simp only [nesting] at hn; omega)
    obtain ⟨c, cs, hcs, hblank, hc, -⟩ := l.head_text hv.1
    rw [hcs, cons_append] at hitems
    rw [text, hcs, cons_append, append_assoc, cons_append,
      readValue_bracket hblank hc, hitems]
    rfl
  | .obj [], n + 1, rest, _, _, _ => rfl
  | .obj ((key, value) :: fields), n + 1, rest, hv, _, hn => by
    have hfields := readFields_text key value fields n rest hv
      (by simp only [nesting] at hn; omega)
    obtain ⟨body, hkey, -⟩ := l.readBack key
    rw [hkey] at hfields
    rw [text, hkey]
    simp only [cons_append, append_assoc] at hfields ⊢
    rw [readValue_brace rfl (by decide), hfields]
    rfl

theorem readItems_text : ∀ (item : Json) (items : List Json) (n : Nat)
    (rest : List Char), ReadableItems (item :: items) →
    nestingItems (item :: items) ≤ n →
    readItems n (l.text item ++ (l.items items ++ rest)) =
      some (item :: items, rest)
  | _, _, 0, _, _, hn => by simp [nestingItems] at hn
  | item, [], n + 1, rest, hv, hn => by
    simp only [nestingItems] at hn
    have hitem := readValue_text item n (']' :: rest) hv.1
      (stops_of_head (.inr (.inl rfl))) (by omega)
    rw [items, singleton_append, readItems, hitem]
    rfl
  | item, next :: items, n + 1, rest, hv, hn => by
    rw [nestingItems] at hn
    have hitem := readValue_text item n (l.items (next :: items) ++ rest) hv.1
      (l.stops_items _ rest) (by omega)
    have hitems := readItems_text next items n rest hv.2 (by omega)
    rw [readItems, hitem, Layout.items]
    simp [skipBlanks, isBlank, l.readItems_gap, hitems]

theorem readFields_text : ∀ (key : String) (value : Json)
    (fields : List (String × Json)) (n : Nat) (rest : List Char),
    ReadableFields ((key, value) :: fields) →
    nestingFields ((key, value) :: fields) ≤ n →
    readFields n (l.string key ++ ':' :: (l.gap ++ (l.text value ++
        (l.fields fields ++ rest)))) = some ((key, value) :: fields, rest)
  | _, _, _, 0, _, _, hn => by simp [nestingFields] at hn
  | key, value, [], n + 1, rest, hv, hn => by
    simp only [nestingFields] at hn
    have hvalue := readValue_text value n ('\x7d' :: rest) hv.1
      (stops_of_head (.inr (.inr rfl))) (by omega)
    obtain ⟨body, hkey, hbody⟩ := l.readBack key
    rw [hkey]
    refine (congrArg (bind · _) (hbody _)).trans ?_
    simp [Layout.fields, skipBlanks, isBlank, l.readValue_gap, hvalue]
  | key, value, (key', value') :: fields, n + 1, rest, hv, hn => by
    rw [nestingFields] at hn
    have hvalue := readValue_text value n (l.fields ((key', value') :: fields) ++ rest)
      hv.1 (l.stops_fields _ rest) (by omega)
    have hfields := readFields_text key' value' fields n rest hv.2 (by omega)
    obtain ⟨body, hkey, hbody⟩ := l.readBack key
    rw [hkey]
    refine (congrArg (bind · _) (hbody _)).trans ?_
    rw [Layout.fields] at hvalue ⊢
    simp only [cons_append, append_assoc] at hvalue ⊢
    simp [skipBlanks, isBlank, l.readValue_gap, hvalue, l.readFields_gap, hfields]

end

/-! ## Reading texts -/

mutual

/-- Reading nests at most two calls for each character. -/
theorem nesting_le_text : ∀ v : Json, v.Readable →
    nesting v ≤ 2 * (l.text v).length
  | .null, h | .bool _, h | .int _, h | .float _, h | .str _, h => by
    obtain ⟨c, cs, hcs, -⟩ := l.head_text h
    rw [hcs, length_cons, nesting]
    omega
  | .other _, h => h.elim
  | .arr [], _ | .obj [], _ => by simp [nesting, nestingItems, nestingFields, text]
  | .arr (item :: items), h => by
    have hitem := nesting_le_text item h.1
    have hitems := nestingItems_le items h.2
    simp only [nesting, nestingItems, text, length_cons, length_append]
    omega
  | .obj ((key, value) :: fields), h => by
    have hvalue := nesting_le_text value h.1
    have hfields := nestingFields_le fields h.2
    simp only [nesting, nestingFields, text, length_cons, length_append]
    omega

theorem nestingItems_le : ∀ items : List Json, ReadableItems items →
    nestingItems items ≤ 2 * (l.items items).length
  | [], _ => by simp [nestingItems, Layout.items]
  | item :: items, h => by
    have hitem := nesting_le_text item h.1
    have hitems := nestingItems_le items h.2
    simp only [nestingItems, Layout.items, length_cons, length_append]
    omega

theorem nestingFields_le : ∀ fields : List (String × Json), ReadableFields fields →
    nestingFields fields ≤ 2 * (l.fields fields).length
  | [], _ => by simp [nestingFields, Layout.fields]
  | (key, value) :: fields, h => by
    have hvalue := nesting_le_text value h.1
    have hfields := nestingFields_le fields h.2
    simp only [nestingFields, Layout.fields, length_cons, length_append]
    omega

end

/-- A value laid out in any way is read back. -/
theorem loads_text {value : Json} (h : value.Readable) :
    loads (String.ofList (l.text value)) = some value := by
  have hnesting := l.nesting_le_text value h
  have hread := l.readValue_text value (2 * (l.text value).length + 2) [] h
    (by rintro c ⟨⟩) (by omega)
  rw [append_nil] at hread
  rw [loads, String.toList_ofList, hread]
  rfl

end Layout

/-- **Read back.**  A printed value is read back. -/
theorem loads_compact {value : Json} (h : value.Readable) :
    loads (compact value) = some value :=
  unspaced.loads_text h

example : loads (compact (.obj [("b", .arr [.int 1, .null]), ("a", .str "x\n")])) =
    some (.obj [("b", .arr [.int 1, .null]), ("a", .str "x\n")]) :=
  loads_compact ⟨⟨trivial, trivial, trivial⟩, trivial, trivial⟩

end StackOwl.Lib
