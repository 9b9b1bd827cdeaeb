import StackOwl.Lib.Json

/-!
# Texts as bytes

The UTF-8 bytes of a text and the text some bytes are, and the lines of a stream of
bytes, each with the newline that ends it.

## Main results

* `utf8Decode_utf8` — a text is read back from its bytes.
* `newline_not_mem` — a text without control characters has no newline byte.
* `splitLines_append` — a line that ends in its only newline is split off.
-/

namespace StackOwl.Lib

/-! ## Texts -/

def utf8 (s : String) : List UInt8 := s.toByteArray.data.toList

/-- The text some bytes are, where they are well-formed. -/
def utf8Decode (bytes : List UInt8) : Option String :=
  String.fromUTF8? ⟨bytes.toArray⟩

theorem utf8Decode_utf8 (s : String) : utf8Decode (utf8 s) = some s := by
  have harray : (⟨(utf8 s).toArray⟩ : ByteArray) = s.toByteArray := by simp [utf8]
  rw [utf8Decode, harray, String.fromUTF8?, dif_pos s.isValidUTF8]
  rfl

/-- The well-formed bytes are those of texts. -/
theorem utf8Decode_isSome_iff (bytes : List UInt8) :
    (utf8Decode bytes).isSome ↔ ∃ s, bytes = utf8 s := by
  constructor
  · intro h
    obtain ⟨s, hs⟩ := Option.isSome_iff_exists.mp h
    rw [utf8Decode, String.fromUTF8?] at hs
    split at hs
    · rename_i hvalid
      exact ⟨String.fromUTF8 ⟨bytes.toArray⟩ hvalid, rfl⟩
    · cases hs
  · rintro ⟨s, rfl⟩
    rw [utf8Decode_utf8, Option.isSome_some]

theorem utf8_append (s t : String) : utf8 (s ++ t) = utf8 s ++ utf8 t := by
  simp [utf8]

theorem utf8_ofList (cs : List Char) :
    utf8 (String.ofList cs) = cs.flatMap String.utf8EncodeChar := by
  rw [utf8, String.toByteArray_ofList]
  induction cs with
  | nil => rfl
  | cons c cs ih =>
    rw [List.utf8Encode_cons, List.utf8Encode_singleton]
    simp [ih]

/-- Only a control character has a byte below the blank's: the bytes of a character
outside ASCII all have their highest bit set. -/
theorem byte_utf8EncodeChar {c : Char} (h : 32 ≤ c.toNat) :
    ∀ byte ∈ String.utf8EncodeChar c, 32 ≤ byte.toNat := by
  intro byte hbyte
  have hval : c.val.toNat = c.toNat := rfl
  have hlt : c.val.toNat < 1114112 := by
    have hvalid := c.valid
    omega
  unfold String.utf8EncodeChar at hbyte
  simp only at hbyte
  split_ifs at hbyte <;>
    simp only [List.mem_cons, List.not_mem_nil, or_false] at hbyte
  · subst hbyte
    simp
    omega
  · rcases hbyte with rfl | rfl <;> simp <;> omega
  · rcases hbyte with rfl | rfl | rfl <;> simp <;> omega
  · rcases hbyte with rfl | rfl | rfl | rfl <;> simp <;> omega

theorem newline_not_mem {s : String} (h : Plain s) : (10 : UInt8) ∉ utf8 s := by
  intro hmem
  rw [← String.ofList_toList (s := s), utf8_ofList, List.mem_flatMap] at hmem
  obtain ⟨c, hc, hbyte⟩ := hmem
  exact absurd (byte_utf8EncodeChar (h c hc) 10 hbyte) (by decide)

/-! ## Lines -/

/-- The lines of a stream; the last one may lack its newline. -/
def splitLines : List UInt8 → List (List UInt8)
  | [] => []
  | byte :: rest =>
    if byte = 10 then [byte] :: splitLines rest
    else match splitLines rest with
      | [] => [[byte]]
      | line :: lines => (byte :: line) :: lines

def lineBody (line : List UInt8) : List UInt8 := line.takeWhile (· ≠ 10)

theorem splitLines_append {body : List UInt8} (h : (10 : UInt8) ∉ body)
    (rest : List UInt8) :
    splitLines (body ++ 10 :: rest) = (body ++ [10]) :: splitLines rest := by
  induction body with
  | nil => rw [List.nil_append, splitLines, if_pos rfl, List.nil_append]
  | cons byte body ih =>
    rw [List.mem_cons, not_or] at h
    rw [List.cons_append, splitLines, if_neg (Ne.symm h.1), ih h.2]
    rfl

theorem lineBody_append {body : List UInt8} (h : (10 : UInt8) ∉ body) :
    lineBody (body ++ [10]) = body := by
  have hbody : ∀ byte ∈ body, decide (byte ≠ 10) = true := by
    intro byte hbyte
    exact decide_eq_true (fun heq => h (heq ▸ hbyte))
  rw [lineBody, List.takeWhile_append_of_pos hbody]
  simp

end StackOwl.Lib
