import Mathlib.Algebra.Group.Nat.Defs
import Mathlib.Data.List.Basic

/-!
# SHA-256

The hash function itself, on texts: a text is encoded in UTF-8, padded, and folded
block by block into eight 32-bit words.  Words are natural numbers below `2 ^ 32`, so
that the kernel evaluates a digest with its own arithmetic.  `sha256Hex` writes the
digest in lower-case hexadecimal.

Nothing is assumed of the function: a result that rests on its collision resistance
names the texts among which it has none.

## Main results

* `length_sha256Hex` — a digest has 64 characters.
* `isHex_of_mem_sha256Hex` — each is a hexadecimal digit.
-/

namespace StackOwl.Lib

namespace Sha256

/-! ## Words -/

variable (x : Nat)

def add (y : Nat) : Nat := (x + y) % 2 ^ 32

def rotr (n : Nat) : Nat := (x >>> n ||| x <<< (32 - n)) % 2 ^ 32

def not : Nat := 2 ^ 32 - 1 - x

def choose (y z : Nat) : Nat := (x &&& y) ^^^ (not x &&& z)

def majority (y z : Nat) : Nat := (x &&& y) ^^^ (x &&& z) ^^^ (y &&& z)

def bigSigma0 : Nat := rotr x 2 ^^^ rotr x 13 ^^^ rotr x 22

def bigSigma1 : Nat := rotr x 6 ^^^ rotr x 11 ^^^ rotr x 25

def smallSigma0 : Nat := rotr x 7 ^^^ rotr x 18 ^^^ x >>> 3

def smallSigma1 : Nat := rotr x 17 ^^^ rotr x 19 ^^^ x >>> 10

/-! ## Constants -/

/-- The first 32 bits of the fractional parts of the square roots of the first eight
primes. -/
def initial : List Nat :=
  [0x6a09e667, 0xbb67ae85, 0x3c6ef372, 0xa54ff53a, 0x510e527f, 0x9b05688c, 0x1f83d9ab, 0x5be0cd19]

/-- The same of the cube roots of the first sixty-four. -/
def roundConstants : List Nat :=
  [0x428a2f98, 0x71374491, 0xb5c0fbcf, 0xe9b5dba5,
   0x3956c25b, 0x59f111f1, 0x923f82a4, 0xab1c5ed5,
   0xd807aa98, 0x12835b01, 0x243185be, 0x550c7dc3,
   0x72be5d74, 0x80deb1fe, 0x9bdc06a7, 0xc19bf174,
   0xe49b69c1, 0xefbe4786, 0x0fc19dc6, 0x240ca1cc,
   0x2de92c6f, 0x4a7484aa, 0x5cb0a9dc, 0x76f988da,
   0x983e5152, 0xa831c66d, 0xb00327c8, 0xbf597fc7,
   0xc6e00bf3, 0xd5a79147, 0x06ca6351, 0x14292967,
   0x27b70a85, 0x2e1b2138, 0x4d2c6dfc, 0x53380d13,
   0x650a7354, 0x766a0abb, 0x81c2c92e, 0x92722c85,
   0xa2bfe8a1, 0xa81a664b, 0xc24b8b70, 0xc76c51a3,
   0xd192e819, 0xd6990624, 0xf40e3585, 0x106aa070,
   0x19a4c116, 0x1e376c08, 0x2748774c, 0x34b0bcb5,
   0x391c0cb3, 0x4ed8aa4a, 0x5b9cca4f, 0x682e6ff3,
   0x748f82ee, 0x78a5636f, 0x84c87814, 0x8cc70208,
   0x90befffa, 0xa4506ceb, 0xbef9a3f7, 0xc67178f2]

/-! ## Blocks -/

/-- A big-endian number in `count` bytes. -/
def toBytes : Nat → Nat → List Nat
  | 0, _ => []
  | count + 1, n => toBytes count (n / 256) ++ [n % 256]

/-- The padding behind a message of `length` bytes: a one bit, zeros, and the length
in bits. -/
def padding (length : Nat) : List Nat :=
  0x80 :: List.replicate ((119 - length % 64) % 64) 0 ++ toBytes 8 (8 * length)

/-- Bytes taken four at a time as big-endian words. -/
def toWords : List Nat → List Nat
  | a :: b :: c :: d :: rest =>
    (((a * 256 + b) * 256 + c) * 256 + d) :: toWords rest
  | _ => []

/-- The message schedule, from the last sixteen words in reverse: `count` more. -/
def schedule : Nat → List Nat → List Nat
  | 0, _ => []
  | count + 1, words =>
    let word := add (add (smallSigma1 (words.getD 1 0)) (words.getD 6 0))
      (add (smallSigma0 (words.getD 14 0)) (words.getD 15 0))
    word :: schedule count (word :: words.take 15)

variable (state : List Nat)

def round (constant word : Nat) : List Nat :=
  match state with
  | [a, b, c, d, e, f, g, h] =>
    let t1 := add (add h (bigSigma1 e)) (add (choose e f g) (add constant word))
    let t2 := add (bigSigma0 a) (majority a b c)
    [add t1 t2, a, b, c, add d t1, e, f, g]
  | _ => state

def rounds : List Nat → List (Nat × Nat) → List Nat
  | state, [] => state
  | state, (constant, word) :: rest => rounds (round state constant word) rest

def compress (block : List Nat) : List Nat :=
  List.zipWith add state
    (rounds state (roundConstants.zip (block ++ schedule 48 block.reverse)))

/-- `count` blocks. -/
def compressAll : Nat → List Nat → List Nat → List Nat
  | 0, state, _ => state
  | count + 1, state, words =>
    compressAll count (compress state (words.take 16)) (words.drop 16)

/-- The digest of a message in bytes, as eight words. -/
def digest (message : List Nat) : List Nat :=
  let padded := message ++ padding message.length
  compressAll (padded.length / 64) initial (toWords padded)

/-! ## Texts -/

def utf8 (text : String) : List Nat := text.toByteArray.data.toList.map UInt8.toNat

def hexDigits : List Char :=
  ['0', '1', '2', '3', '4', '5', '6', '7', '8', '9', 'a', 'b', 'c', 'd', 'e', 'f']

def hexDigit (n : Nat) : Char := hexDigits.getD n '0'

def toHex : Nat → Nat → List Char
  | 0, _ => []
  | count + 1, n => toHex count (n / 16) ++ [hexDigit (n % 16)]

/-! ## Lengths -/

theorem length_round (constant word : Nat) :
    (round state constant word).length = state.length := by
  unfold round
  split <;> rfl

theorem length_rounds (steps : List (Nat × Nat)) :
    (rounds state steps).length = state.length := by
  induction steps generalizing state with
  | nil => rfl
  | cons step rest ih =>
    rw [rounds, ih]
    exact length_round state step.1 step.2

theorem length_compress (block : List Nat) :
    (compress state block).length = state.length := by
  simp [compress, length_rounds]

theorem length_compressAll (count : Nat) (state words : List Nat) :
    (compressAll count state words).length = state.length := by
  induction count generalizing state words with
  | zero => rfl
  | succ count ih => rw [compressAll, ih, length_compress]

theorem length_digest (message : List Nat) : (digest message).length = 8 :=
  length_compressAll _ initial _

theorem length_toHex (count n : Nat) : (toHex count n).length = count := by
  induction count generalizing n with
  | zero => rfl
  | succ count ih => simp [toHex, ih]

theorem hexDigit_mem (n : Nat) : hexDigit n ∈ hexDigits := by
  rw [hexDigit, List.getD_eq_getElem?_getD]
  cases hget : hexDigits[n]? with
  | none => exact List.mem_cons_self
  | some c => exact List.mem_of_getElem? hget

theorem mem_hexDigits_of_mem_toHex {count n : Nat} {c : Char}
    (h : c ∈ toHex count n) : c ∈ hexDigits := by
  induction count generalizing n with
  | zero => cases h
  | succ count ih =>
    rcases List.mem_append.mp h with hrest | hlast
    · exact ih hrest
    · exact List.mem_singleton.mp hlast ▸ hexDigit_mem _

end Sha256

open Sha256

/-- The hexadecimal SHA-256 digest of a text's UTF-8 encoding. -/
def sha256Hex (text : String) : String :=
  String.ofList ((digest (utf8 text)).flatMap (toHex 8))

theorem length_sha256Hex (text : String) : (sha256Hex text).toList.length = 64 := by
  have hdigits : ∀ words : List Nat,
      (words.flatMap (toHex 8)).length = 8 * words.length := by
    intro words
    induction words with
    | nil => rfl
    | cons word words ih =>
      simp only [List.flatMap_cons, List.length_append, List.length_cons, ih,
        length_toHex]
      omega
  rw [sha256Hex, String.toList_ofList, hdigits, length_digest]

theorem isHex_of_mem_sha256Hex {text : String} {c : Char}
    (h : c ∈ (sha256Hex text).toList) : c ∈ hexDigits := by
  rw [sha256Hex, String.toList_ofList] at h
  obtain ⟨word, -, hc⟩ := List.mem_flatMap.mp h
  exact mem_hexDigits_of_mem_toHex hc

example : sha256Hex "abc" =
    "ba7816bf8f01cfea414140de5dae2223b00361a396177a9cb410ff61f20015ad" := by
  decide

end StackOwl.Lib
