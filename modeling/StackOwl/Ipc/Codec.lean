import StackOwl.Durable.FailureClass
import StackOwl.Ipc.Frames
import StackOwl.Lib.Utf8
import Mathlib.Algebra.Group.Nat.Defs

/-!
# The frame codec

One frame is one line of JSON (`ipc/codec.py`); a connection (`ipc/connection.py`) reads
the lines of its stream and skips those that are no frame.

Two things end the reading of a stream before its end: a line that is not UTF-8, whose
error is not the one that is skipped, and a line longer than the limit of the stream's
reader, for which `readline` raises.

## Main results

* `decodeFrame_encodeFrame` — what becomes of an encoded frame.
* `frames_concat` — the frames of a concatenation of encodings.
* `frame_codec` — what is read back, and which lines raise.
-/

namespace StackOwl.Ipc

open Lib Option
open Durable (isSpace strip)

variable {F O : Type} (P : Pydantic F O)

/-! ## One frame -/

/-- `encode_frame`; `none` where the serialiser raises. -/
def encodeFrame (frame : Frame F O) : Option (List UInt8) := do
  let v ← frame.dump P
  if P.printLimits.Admit v then some (utf8 (compact v) ++ [10]) else none

/-- What `decode_frame` returns or raises. -/
inductive Decoded (F O : Type) where
  | frame (f : Frame F O)
  | frameDecodeError
  | unicodeDecodeError

def validateJson (raw : String) : Option (Frame F O) := (P.loads raw).bind (Frame.load P)

def decodeText (raw : String) : Decoded F O :=
  let raw := strip raw.toList
  if raw = [] then .frameDecodeError
  else match validateJson P (String.ofList raw) with
    | some f => .frame f
    | none => .frameDecodeError

def decodeFrame (line : List UInt8) : Decoded F O :=
  match utf8Decode line with
  | some raw => decodeText P raw
  | none => .unicodeDecodeError

/-! ## A connection -/

/-- The limit of a stream's reader where none is given. -/
def DEFAULT_LIMIT : Nat := 2 ^ 16

/-- How the iteration over a connection ends. -/
inductive Ending where
  | eof
  | unicodeDecodeError
  /-- `readline` raises a `ValueError`. -/
  | lineTooLong

/-- `FrameConnection._iter` over the lines that are still to be read. -/
def iter : List (List UInt8) → List (Frame F O) × Ending
  | [] => ([], .eof)
  | line :: lines =>
    if DEFAULT_LIMIT < (lineBody line).length then ([], .lineTooLong)
    else match decodeFrame P line with
      | .frame f => (f :: (iter lines).1, (iter lines).2)
      | .frameDecodeError => iter lines
      | .unicodeDecodeError => ([], .unicodeDecodeError)

def frames (stream : List UInt8) : List (Frame F O) × Ending :=
  iter P (splitLines stream)

/-! ## Encodings -/

variable {f : Frame F O} {v : Json}

/-- What a frame is serialised as begins with a brace and ends with one. -/
theorem compact_dump (h : f.dump P = some v) :
    ∃ cs, (compact v).toList = '\x7b' :: (cs ++ ['\x7d']) := by
  have hobj : ∃ fields, v = .obj fields := by
    cases f <;> exact Record.obj_of_tagged h
  obtain ⟨fields, rfl⟩ := hobj
  cases fields with
  | nil => exact ⟨[], rfl⟩
  | cons field fields =>
    obtain ⟨cs, hcs⟩ := unspaced.fields_close fields
    refine ⟨writeString field.1 ++ ':' :: (unspaced.text field.2 ++ cs), ?_⟩
    rw [compact, String.toList_ofList, Layout.text, hcs]
    simp [unspaced]

theorem strip_newline (cs : List Char) :
    strip (('\x7b' :: (cs ++ ['\x7d'])) ++ ['\n']) = '\x7b' :: (cs ++ ['\x7d']) := by
  have hopen : isSpace '\x7b' = false := by decide
  have hclose : isSpace '\x7d' = false := by decide
  have hnewline : isSpace '\n' = true := by decide
  simp [strip, hopen, hclose, hnewline]

theorem encodeFrame_line {bytes : List UInt8} (h : encodeFrame P f = some bytes) :
    ∃ body, bytes = body ++ [10] ∧ 10 ∉ body := by
  obtain ⟨v, -, h⟩ := bind_eq_some_iff.mp h
  split at h
  · cases h
    exact ⟨_, rfl, newline_not_mem (plain_compact v)⟩
  · cases h

/-- The frame is read back from its encoding. -/
def RoundTrips (f : Frame F O) : Prop :=
  ∃ bytes, encodeFrame P f = some bytes ∧ decodeFrame P bytes = .frame f

/-- Every field of the frame comes back, within the limits of both sides. -/
def Frame.Carried (f : Frame F O) : Prop :=
  f.Carries P P.printLimits.digits P.printLimits.depth ∧
    f.Carries P P.readLimits.digits P.readLimits.depth

theorem decodeFrame_encodeFrame (hv : f.dump P = some v) :
    decodeFrame P (utf8 (compact v) ++ [10]) =
      match (if P.readLimits.Admit v then Frame.load P v else none) with
      | some g => .frame g
      | none => .frameDecodeError := by
  obtain ⟨cs, hcs⟩ := compact_dump P hv
  have hbytes : utf8 (compact v) ++ [10] = utf8 (compact v ++ "\n") := by
    rw [utf8_append]
    rfl
  have hstrip : strip (compact v ++ "\n").toList = (compact v).toList := by
    rw [String.toList_append, hcs]
    exact strip_newline cs
  have hne : (compact v).toList ≠ [] := by
    rw [hcs]
    exact List.cons_ne_nil _ _
  have hloads := P.lawful.loads _ _ (loads_compact (Frame.readable P hv))
  rw [decodeFrame, hbytes, utf8Decode_utf8]
  simp only [decodeText, hstrip, if_neg hne, String.ofList_toList, validateJson, hloads]
  by_cases h : P.readLimits.Admit v
  · rw [if_pos h, if_pos h, bind_some]
  · rw [if_neg h, if_neg h, bind_none]

theorem roundTrips_iff (f : Frame F O) : RoundTrips P f ↔ f.Carried P := by
  rw [Frame.Carried, Frame.exact, Frame.exact]
  constructor
  · rintro ⟨bytes, hbytes, hdecode⟩
    obtain ⟨v, hv, hbytes⟩ := bind_eq_some_iff.mp hbytes
    split at hbytes
    · rename_i hprint
      cases hbytes
      rw [decodeFrame_encodeFrame P hv] at hdecode
      by_cases hread : P.readLimits.Admit v
      · rw [if_pos hread] at hdecode
        cases hload : Frame.load P v with
        | none =>
          rw [hload] at hdecode
          cases hdecode
        | some g =>
          rw [hload] at hdecode
          cases hdecode
          exact ⟨⟨v, hv, hprint, hload⟩, v, hv, hread, hload⟩
      · rw [if_neg hread] at hdecode
        cases hdecode
    · cases hbytes
  · rintro ⟨⟨v, hv, hprint, hload⟩, w, hw, hread, -⟩
    cases hv.symm.trans hw
    have hadmit : P.readLimits.Admit v := hread
    refine ⟨utf8 (compact v) ++ [10], ?_, ?_⟩
    · rw [encodeFrame, hv]
      exact if_pos hprint
    · rw [decodeFrame_encodeFrame P hv, if_pos hadmit, hload]

/-! ## Lines -/

theorem decodeFrame_raises_iff (line : List UInt8) :
    decodeFrame P line = .unicodeDecodeError ↔ ¬ ∃ s, line = utf8 s := by
  rw [decodeFrame, ← utf8Decode_isSome_iff]
  cases utf8Decode line with
  | none => simp
  | some raw =>
    simp only [isSome_some, not_true, iff_false]
    rw [decodeText]
    split
    · simp
    · split <;> simp

/-- A line the iteration gets over. -/
def Passable (line : List UInt8) : Prop :=
  (∃ s, line = utf8 s) ∧ (lineBody line).length ≤ DEFAULT_LIMIT

theorem iter_eof_iff (lines : List (List UInt8)) :
    (iter P lines).2 = .eof ↔ ∀ line ∈ lines, Passable line := by
  induction lines with
  | nil => simp [iter]
  | cons line lines ih =>
    rw [List.forall_mem_cons, ← ih, Passable, iter]
    split
    · rename_i hlong
      simp [Nat.not_le.mpr hlong]
    · rename_i hshort
      have hraises := decodeFrame_raises_iff P line
      cases hdecode : decodeFrame P line with
      | unicodeDecodeError =>
        have hbytes := hraises.mp hdecode
        simp [hbytes]
      | frameDecodeError | frame f =>
        have hbytes : ∃ s, line = utf8 s := by
          by_contra hnot
          rw [hraises.mpr hnot] at hdecode
          cases hdecode
        simp [hbytes, Nat.not_lt.mp hshort]

theorem length_iter_le (lines : List (List UInt8)) :
    (iter P lines).1.length ≤ lines.length := by
  induction lines with
  | nil => exact Nat.le_refl 0
  | cons line lines ih =>
    rw [iter]
    split
    · exact Nat.zero_le _
    · cases decodeFrame P line with
      | frame f => exact Nat.succ_le_succ ih
      | frameDecodeError => exact Nat.le_succ_of_le ih
      | unicodeDecodeError => exact Nat.zero_le _

/-! ## A stream of encodings -/

variable {fs : List (Frame F O)} {lines : List (List UInt8)}

theorem splitLines_encodings (h : fs.mapM (encodeFrame P) = some lines)
    : splitLines lines.flatten = lines := by
  induction fs generalizing lines with
  | nil =>
    cases h
    rfl
  | cons f fs ih =>
    obtain ⟨line, rest, hline, hrest, rfl⟩ := mapM_cons_eq_some.mp h
    obtain ⟨body, rfl, hbody⟩ := encodeFrame_line P hline
    have happend : ((body ++ [10]) :: rest).flatten = body ++ 10 :: rest.flatten := by
      simp
    rw [happend, splitLines_append hbody, ih hrest]

theorem length_lineBody {line : List UInt8} (h : encodeFrame P f = some line) :
    (lineBody line).length + 1 = line.length := by
  obtain ⟨body, rfl, hbody⟩ := encodeFrame_line P h
  rw [lineBody_append hbody, List.length_append, List.length_singleton]

/-- A stream of encodings yields exactly the frames that were encoded, where each of them
is read back and no line is too long. -/
theorem frames_concat (h : fs.mapM (encodeFrame P) = some lines) :
    frames P lines.flatten = (fs, .eof) ↔
      (∀ f ∈ fs, f.Carried P) ∧ ∀ line ∈ lines, line.length ≤ DEFAULT_LIMIT + 1 := by
  rw [frames, splitLines_encodings P h]
  induction fs generalizing lines with
  | nil =>
    cases h
    simp [iter]
  | cons f fs ih =>
    obtain ⟨line, rest, hline, hrest, rfl⟩ := mapM_cons_eq_some.mp h
    have hlength := length_lineBody P hline
    have hcount : (iter P rest).1.length ≤ fs.length := by
      have hmapM := length_of_mapM hrest
      have hle := length_iter_le P rest
      omega
    rw [List.forall_mem_cons, List.forall_mem_cons, ← roundTrips_iff]
    rw [iter]
    split
    · rename_i hlong
      constructor
      · intro heq
        cases heq
      · rintro ⟨-, hshort, -⟩
        omega
    · rename_i hshort
      have hfits : line.length ≤ DEFAULT_LIMIT + 1 := by omega
      have htrip : ∀ g, decodeFrame P line = .frame g → (RoundTrips P f ↔ g = f) := by
        intro g hg
        constructor
        · rintro ⟨bytes, hbytes, hdecode⟩
          cases hline.symm.trans hbytes
          cases hg.symm.trans hdecode
          rfl
        · rintro rfl
          exact ⟨line, hline, hg⟩
      have hnot : (∀ g, decodeFrame P line ≠ .frame g) → ¬ RoundTrips P f := by
        rintro hnone ⟨bytes, hbytes, hdecode⟩
        cases hline.symm.trans hbytes
        exact hnone f hdecode
      cases hdecode : decodeFrame P line with
      | frame g =>
        have hrestiff := ih hrest
        rw [Prod.ext_iff] at hrestiff ⊢
        simp only [List.cons.injEq, htrip g hdecode, hfits, true_and]
        rw [and_assoc, hrestiff, and_assoc]
      | frameDecodeError =>
        have hback := hnot (fun g hg => by rw [hdecode] at hg; cases hg)
        simp only [hback, false_and, iff_false]
        intro heq
        rw [heq, List.length_cons] at hcount
        omega
      | unicodeDecodeError =>
        have hback := hnot (fun g hg => by rw [hdecode] at hg; cases hg)
        simp only [hback, false_and, iff_false]
        intro heq
        cases heq

/-! ## A concrete layer -/

inductive ExampleFloat where
  | zero
  | inf
  deriving DecidableEq

/-- A strict layer: it coerces nothing, and serialises no object of another kind. -/
def exampleLayer : JsonLayer ExampleFloat Unit where
  finite x := x = .zero
  printFloat _ := zero
  readFloat _ := .zero
  dumpOther _ := none
  coerceBool _ := none
  coerceInt _ := none
  coerceFloat _ := none
  coerceTarget _ := none
  printLimits := ⟨255, 4300⟩
  readLimits := ⟨200, 4300⟩
  loads text := (loads text).filter fun v => decide (Limits.Admit ⟨200, 4300⟩ v)

def examplePydantic : Pydantic ExampleFloat Unit where
  toJsonLayer := exampleLayer
  lawful := {
    readFloat_printFloat := by
      intro x hx
      exact (of_decide_eq_true hx).symm
    literal := by
      intro x _
      show readNumber zero.text.toList = some (.float zero, [])
      rfl
    readable_dumpOther := nofun
    loads := by
      intro text v h
      simp only [exampleLayer, h, filter_some, decide_eq_true_eq]
      rfl }

/-! ## What the codec keeps -/

/-- The encoding of every frame is one line.  Read back are exactly the frames whose texts
have no surrogates, whose floats are finite and whose payloads are JSON's own, within the
limits of both sides.  A line raises another error than `FrameDecodeError` exactly where
it is not UTF-8; a stream is read to its end exactly where every line is UTF-8 and
within the reader's limit. -/
theorem frame_codec :
    (∀ (f : Frame F O) bytes, encodeFrame P f = some bytes →
      ∃ body, bytes = body ++ [10] ∧ 10 ∉ body) ∧
    (∀ f : Frame F O, RoundTrips P f ↔ f.Carried P) ∧
    (∀ (fs : List (Frame F O)) lines, fs.mapM (encodeFrame P) = some lines →
      (frames P lines.flatten = (fs, .eof) ↔
        (∀ f ∈ fs, f.Carried P) ∧ ∀ line ∈ lines, line.length ≤ DEFAULT_LIMIT + 1)) ∧
    (∀ line, decodeFrame P line ≠ .unicodeDecodeError ↔ ∃ s, line = utf8 s) ∧
    (∀ stream, (frames P stream).2 = .eof ↔ ∀ line ∈ splitLines stream, Passable line) := by
  refine ⟨fun f bytes => encodeFrame_line P, roundTrips_iff P, fun fs lines =>
    frames_concat P, ?_, fun stream => iter_eof_iff P (splitLines stream)⟩
  intro line
  rw [ne_eq, decodeFrame_raises_iff, not_not]

/-- An acknowledgement is read back. -/
theorem ack_read_back : RoundTrips examplePydantic (.ack {}) := by
  have hempty : Text.Scalar [] := by
    intro c hc
    cases hc
  have hok := Text.scalar_ofString "ok"
  exact ((frame_codec examplePydantic).2.1 _).mpr
    ⟨⟨by decide, hempty, hok, hempty, trivial⟩, by decide, hempty, hok, hempty, trivial⟩

/-- An infinite grace period is lost, and a line that is not UTF-8 ends the reading of a
stream before the frame behind it. -/
theorem undecodable_line_raises :
    ¬ RoundTrips examplePydantic (.restartNotice ⟨[], .inf⟩) ∧
    decodeFrame examplePydantic [255, 10] = .unicodeDecodeError ∧
    ∀ line ∈ encodeFrame examplePydantic (.ack {}),
      frames examplePydantic ([255, 10] ++ line) = ([], .unicodeDecodeError) := by
  have hraises : decodeFrame examplePydantic [255, 10] = .unicodeDecodeError := by
    have hbytes : utf8Decode [255, 10] = none := by decide
    rw [decodeFrame, hbytes]
  refine ⟨?_, hraises, ?_⟩
  · rw [roundTrips_iff]
    intro h
    have hfinite : exampleLayer.finite .inf = true := h.1.2.2.1
    cases hfinite
  · intro line _
    have hlines : splitLines ([255, 10] ++ line) = [255, 10] :: splitLines line := rfl
    rw [frames, hlines, iter, if_neg (by decide), hraises]

end StackOwl.Ipc
