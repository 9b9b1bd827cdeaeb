import StackOwl.Lib.JsonCompact

/-!
# JSON in ASCII

The way a standard encoder prints a JSON value where it is asked for nothing else:
`", "` and `": "` as separators, the fields of an object in the order they were set,
and every character outside the printable ASCII ones escaped, one beyond the basic
plane as a pair of surrogates.

## Main results

* `ascii_plain` — no printed value holds a control character.
* `loads_ascii` — a printed value is read back.
-/

namespace StackOwl.Lib

open List Option

/-! ## Printing -/

/-- A code unit by its number, in four digits. -/
def unitText (unit : Nat) : List Char :=
  ['\\', 'u', Nat.digitChar (unit / 4096 % 16), Nat.digitChar (unit / 256 % 16),
    Nat.digitChar (unit / 16 % 16), Nat.digitChar (unit % 16)]

def asciiChar (c : Char) : List Char :=
  if c.toNat < 127 then escapeChar c
  else if c.toNat < 0x10000 then unitText c.toNat
  else
    unitText (0xD800 + (c.toNat - 0x10000) / 0x400) ++
      unitText (0xDC00 + (c.toNat - 0x10000) % 0x400)

def asciiString (s : String) : List Char :=
  '"' :: (s.toList.flatMap asciiChar ++ ['"'])

/-! ## Plain texts -/

variable {unit : Nat}

theorem plain_unitText : ∀ c ∈ unitText unit, 32 ≤ c.toNat := by
  have hdigit : ∀ n < 16, 32 ≤ (Nat.digitChar n).toNat := by decide
  have hslash : 32 ≤ ('\\' : Char).toNat := by decide
  have hu : 32 ≤ ('u' : Char).toNat := by decide
  intro c hc
  simp only [unitText, mem_cons, not_mem_nil, or_false] at hc
  obtain rfl | rfl | rfl | rfl | rfl | rfl := hc
  · exact hslash
  · exact hu
  · exact hdigit _ (Nat.mod_lt _ (by decide))
  · exact hdigit _ (Nat.mod_lt _ (by decide))
  · exact hdigit _ (Nat.mod_lt _ (by decide))
  · exact hdigit _ (Nat.mod_lt _ (by decide))

theorem plain_asciiString (s : String) : ∀ c ∈ asciiString s, 32 ≤ c.toNat := by
  have hquote : 32 ≤ ('"' : Char).toNat := by decide
  have hchar : ∀ d : Char, ∀ c ∈ asciiChar d, 32 ≤ c.toNat := by
    intro d c hc
    unfold asciiChar at hc
    split at hc
    · exact plain_escapeChar d c hc
    · split at hc
      · exact plain_unitText c hc
      · exact (mem_append.mp hc).elim (plain_unitText c) (plain_unitText c)
  intro c hc
  simp only [asciiString, mem_cons, mem_append, not_mem_nil, or_false,
    mem_flatMap] at hc
  obtain rfl | ⟨d, -, hd⟩ | rfl := hc
  · exact hquote
  · exact hchar d c hd
  · exact hquote

/-! ## Reading strings -/

theorem codeUnit_digits (h : unit < 65536) :
    codeUnit (Nat.digitChar (unit / 4096 % 16)) (Nat.digitChar (unit / 256 % 16))
      (Nat.digitChar (unit / 16 % 16)) (Nat.digitChar (unit % 16)) = some unit := by
  have hdigit : ∀ n, hexDigit (Nat.digitChar (n % 16)) = some (n % 16) :=
    fun n => hexDigit_digitChar (n % 16) (Nat.mod_lt _ (by decide))
  simp only [codeUnit, hdigit, bind_eq_bind, bind_some, Option.some.injEq]
  omega

theorem readString_unit (h : unit < 65536) (hhigh : isHigh unit = false)
    (hlow : isLow unit = false) (rest : List Char) :
    readString none (unitText unit ++ rest) =
      (readString none rest).map fun p => (Char.ofNat unit :: p.1, p.2) := by
  rw [unitText, cons_append, cons_append, cons_append, cons_append,
    cons_append, cons_append, nil_append, readString.eq_3]
  simp only [codeUnit_digits h, hhigh, hlow, if_true, bind_eq_bind,
    bind_some, Bool.false_eq_true, if_false]
  cases readString none rest <;> rfl

theorem readString_pair {high low : Nat} (hhigh : isHigh high = true)
    (hlow : isLow low = true) (rest : List Char) :
    readString none (unitText high ++ (unitText low ++ rest)) =
      (readString none rest).map fun p => (ofPair high low :: p.1, p.2) := by
  have hhigh' : high < 65536 := by simp [isHigh] at hhigh; omega
  have hlow' : low < 65536 := by simp [isLow] at hlow; omega
  simp only [unitText, cons_append, nil_append]
  rw [readString.eq_3]
  simp only [codeUnit_digits hhigh', hhigh, if_true, bind_eq_bind, bind_some]
  rw [readString.eq_3]
  simp only [codeUnit_digits hlow', hlow, if_true, bind_eq_bind, bind_some]
  cases readString none rest <;> rfl

theorem readString_asciiChar (c : Char) (rest : List Char) :
    readString none (asciiChar c ++ rest) =
      (readString none rest).map fun p => (c :: p.1, p.2) := by
  have hscalar : c.toNat < 0xD800 ∨ 0xDFFF < c.toNat ∧ c.toNat < 0x110000 := c.valid
  unfold asciiChar
  split
  · exact readString_escapeChar c rest
  split
  · rename_i hplane
    rw [readString_unit hplane (by simp [isHigh]; omega) (by simp [isLow]; omega),
      Char.ofNat_toNat]
  · rename_i hplane
    have hpair : ofPair (0xD800 + (c.toNat - 0x10000) / 0x400)
        (0xDC00 + (c.toNat - 0x10000) % 0x400) = c := by
      have hsum : 0x10000 + (0xD800 + (c.toNat - 0x10000) / 0x400 - 0xD800) * 0x400 +
          (0xDC00 + (c.toNat - 0x10000) % 0x400 - 0xDC00) = c.toNat := by omega
      rw [ofPair, hsum, Char.ofNat_toNat]
    rw [append_assoc,
      readString_pair (by simp [isHigh]; omega) (by simp [isLow]; omega), hpair]

theorem readString_ascii (cs rest : List Char) :
    readString none (cs.flatMap asciiChar ++ '"' :: rest) = some (cs, rest) := by
  induction cs with
  | nil => rfl
  | cons c cs ih =>
    rw [flatMap_cons, append_assoc, readString_asciiChar, ih]
    rfl

/-! ## The layout -/

/-- ASCII strings, and a blank behind every separator. -/
def spaced : Layout where
  string := asciiString
  gap := [' ']
  plainString := plain_asciiString
  plainGap := of_all rfl
  readBack s := ⟨_, rfl, fun rest => by
    rw [append_assoc, singleton_append, readString_ascii]⟩
  blank _ := rfl

def ascii (value : Json) : String := String.ofList (spaced.text value)

theorem ascii_plain (value : Json) : Plain (ascii value) := by
  rw [Plain, ascii, String.toList_ofList]
  exact spaced.text_plain value

/-- **Read back.**  A printed value is read back. -/
theorem loads_ascii {value : Json} (h : value.Readable) :
    loads (ascii value) = some value :=
  spaced.loads_text h

example : ascii (.obj [("a", .arr [.str "é😀\n", .null])]) =
    "\x7b\"a\": [\"\\u00e9\\ud83d\\ude00\\n\", null]\x7d" := by decide

end StackOwl.Lib
