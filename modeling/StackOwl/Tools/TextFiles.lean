import Mathlib.Logic.Function.Basic
import StackOwl.Lib.Utf8

/-!
# Text files

The calls of `pathlib` the file tools make, on a map from resolved paths to bytes.  A
text is read strictly as UTF-8, with its line endings as they are (`newline=""`) or
translated; it is written as it is.  Each call may be refused by the system, and a
write that is refused after the file was opened leaves the front of what was written.

Directories are not files: making the parent of a target changes no path here.

## Main results

* `encode_of_decode` — what was read, written back, is what was there.
* `normalizeNewlines_eq_self_iff` — the texts that survive a translation.
-/

namespace StackOwl.Tools

open Lib Function

/-- What each resolved path holds. -/
abbrev Files := String → Option (List UInt8)

/-! ## Encoding -/

/-- `str.encode("utf-8")`. -/
def encode (text : List Char) : List UInt8 := utf8 (String.ofList text)

/-- `bytes.decode("utf-8")`, where it does not raise `UnicodeDecodeError`. -/
def decode (bytes : List UInt8) : Option (List Char) := (utf8Decode bytes).map String.toList

@[simp] theorem decode_encode (text : List Char) : decode (encode text) = some text := by
  rw [decode, encode, utf8Decode_utf8, Option.map_some, String.toList_ofList]

variable {text : List Char}

theorem encode_of_decode {bytes : List UInt8} (h : decode bytes = some text) :
    encode text = bytes := by
  obtain ⟨s, hs, rfl⟩ := Option.map_eq_some_iff.mp h
  obtain ⟨t, rfl⟩ := (utf8Decode_isSome_iff bytes).mp (Option.isSome_of_eq_some hs)
  rw [utf8Decode_utf8] at hs
  cases hs
  rw [encode, String.ofList_toList]

theorem encode_inj {s t : List Char} : encode s = encode t ↔ s = t := by
  refine ⟨fun h => ?_, congrArg encode⟩
  have hread := congrArg decode h
  rw [decode_encode, decode_encode] at hread
  exact Option.some.inj hread

/-! ## Line endings -/

/-- `text.replace("\r\n", "\n")`. -/
def replaceCrLf : List Char → List Char
  | '\r' :: '\n' :: rest => '\n' :: replaceCrLf rest
  | c :: rest => c :: replaceCrLf rest
  | [] => []

/-- `text.replace("\r\n", "\n").replace("\r", "\n")`, which is also what reading a text
without `newline=""` makes of it. -/
def normalizeNewlines (text : List Char) : List Char :=
  (replaceCrLf text).map fun c => if c = '\r' then '\n' else c

/-- `text.replace("\n", newline)`. -/
def withNewline (newline : List Char) (text : List Char) : List Char :=
  text.flatMap fun c => if c = '\n' then newline else [c]

def hasCrLf : List Char → Bool
  | '\r' :: '\n' :: _ => true
  | _ :: rest => hasCrLf rest
  | [] => false

def detectNewline (raw : List Char) : List Char :=
  if hasCrLf raw then ['\r', '\n']
  else if '\r' ∈ raw ∧ '\n' ∉ raw then ['\r']
  else ['\n']

theorem replaceCrLf_eq_self (h : '\r' ∉ text) : replaceCrLf text = text := by
  induction text using replaceCrLf.induct with
  | case1 rest ih => exact absurd List.mem_cons_self h
  | case2 c rest hne ih =>
    rw [replaceCrLf, ih (fun hmem => h (List.mem_cons_of_mem _ hmem))]
    exact hne
  | case3 => rfl

theorem cr_not_mem_normalizeNewlines (text : List Char) : '\r' ∉ normalizeNewlines text := by
  intro h
  obtain ⟨c, -, hc⟩ := List.mem_map.mp h
  split at hc
  · exact absurd hc (by decide)
  · contradiction

/-- Only a text without carriage returns survives a translation. -/
theorem normalizeNewlines_eq_self_iff (text : List Char) :
    normalizeNewlines text = text ↔ '\r' ∉ text := by
  constructor
  · intro h
    rw [← h]
    exact cr_not_mem_normalizeNewlines text
  · intro h
    have hkept : ∀ c ∈ text, (if c = '\r' then '\n' else c) = c := by
      intro c hc
      rw [if_neg]
      rintro rfl
      exact h hc
    rw [normalizeNewlines, replaceCrLf_eq_self h, List.map_congr_left hkept, List.map_id']

/-! ## Calls -/

/-- An `OSError` of a write: before the file was opened, or with `kept` bytes of what was
to be written in it. -/
inductive WriteFault where
  | refused (error : String)
  | torn (kept : Nat) (error : String)

inductive ReadError where
  | missing
  | os (error : String)
  | undecodable

/-- `path.read_text(encoding="utf-8", newline="")`. -/
def readText (files : Files) (path : String) (fault : Option String) :
    Except ReadError (List Char) :=
  match fault, files path with
  | some error, _ => .error (.os error)
  | none, none => .error .missing
  | none, some bytes =>
    match decode bytes with
    | some text => .ok text
    | none => .error .undecodable

/-- `path.write_text(text, encoding="utf-8", newline="")`, and the `OSError` it raises.  A
line feed is the line ending of the system, so the call without `newline=""` is the same. -/
def writeText (files : Files) (path : String) (text : List Char) :
    Option WriteFault → Files × Option String
  | none => (update files path (some (encode text)), none)
  | some (.refused error) => (files, some error)
  | some (.torn kept error) =>
    (update files path (some ((encode text).take kept)), some error)

/-- `path.unlink()`, and the `OSError` it raises. -/
def unlink (files : Files) (path : String) : Option String → Files × Option String
  | none =>
    if (files path).isSome then (update files path none, none)
    else (files, some ("No such file or directory: " ++ path))
  | some error => (files, some error)

theorem encode_of_readText {files : Files} {path : String} {fault : Option String}
    (h : readText files path fault = .ok text) :
    files path = some (encode text) := by
  unfold readText at h
  split at h
  · cases h
  · cases h
  · rename_i bytes hbytes
    split at h
    · rename_i t ht
      cases h
      rw [hbytes, encode_of_decode ht]
    · cases h

end StackOwl.Tools
