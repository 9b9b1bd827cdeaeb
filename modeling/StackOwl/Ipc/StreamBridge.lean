import Mathlib.Logic.Function.Basic
import StackOwl.Ipc.Frames
import StackOwl.Lib.Run

/-!
# Streaming over the socket

In one process every turn has a queue of its own: a `StreamWriter` puts chunks into it
and a `StreamReader` yields them up to the final one (`pipeline/streaming.py`).  Between
two processes (`ipc/stream_bridge.py`) the writers of all turns share one connection, and
the gateway's `StreamDemux` routes each frame by the `trace_id` it carries to the queue
registered for it.

The demultiplexer drops a frame for an id nothing is registered for, with a warning: a
reader has to be open before the first chunk arrives.  The final chunk ends a reader and
is not yielded.  A queue is unbounded, so that putting a chunk never waits and routing a
frame is one step.

The model starts from frames; that a frame survives its encoding is `Ipc.Codec`.

## Main results

* `Demux.received` — what a reader's queue receives, whatever else happens.
* `wire_fifo` — frames arrive in the order they were sent.
* `stream_refines` — what a reader yields of its turn's chunks, and when it ends.
-/

namespace StackOwl.Ipc

open Lib List Option Function

variable {F O : Type}

/-! ## Chunks -/

structure ResponseChunk (F O : Type) where
  content : Text
  isFinal : Bool
  chunkIndex : Int
  traceId : Text
  owlName : Text
  durationMs : Option F := none
  kind : ChunkKind := .answer
  target : Option Target := none
  isFloor : Bool := false
  actions : List Action := []
  rawKeyboard : Option (List (Text × PyObj F O)) := none
  displaySuffix : Option Text := none

def chunkToFrame (chunk : ResponseChunk F O) : ChunkFrame F O where
  content := chunk.content
  isFinal := chunk.isFinal
  chunkIndex := chunk.chunkIndex
  traceId := chunk.traceId
  owlName := chunk.owlName
  durationMs := chunk.durationMs
  kind := chunk.kind
  target := chunk.target
  isFloor := chunk.isFloor
  actions := chunk.actions
  rawKeyboard := chunk.rawKeyboard
  displaySuffix := chunk.displaySuffix

variable (frame : ChunkFrame F O)

def frameToChunk : ResponseChunk F O where
  content := frame.content
  isFinal := frame.isFinal
  chunkIndex := frame.chunkIndex
  traceId := frame.traceId
  owlName := frame.owlName
  durationMs := frame.durationMs
  kind := frame.kind
  target := frame.target
  isFloor := frame.isFloor
  actions := frame.actions
  rawKeyboard := frame.rawKeyboard
  displaySuffix := frame.displaySuffix

@[simp] theorem frameToChunk_chunkToFrame (chunk : ResponseChunk F O) :
    frameToChunk (chunkToFrame chunk) = chunk := rfl

@[simp] theorem traceId_frameToChunk :
    (frameToChunk frame).traceId = frame.traceId := rfl

@[simp] theorem isFinal_frameToChunk :
    (frameToChunk frame).isFinal = frame.isFinal := rfl

def sentinel (traceId : Text) : ResponseChunk F O where
  content := []
  isFinal := true
  chunkIndex := -1
  traceId := traceId
  owlName := []

@[simp] theorem isFinal_sentinel (traceId : Text) :
    (sentinel traceId : ResponseChunk F O).isFinal = true := rfl

/-! ## A reader -/

/-- A `StreamReader`: what is in its queue, what it has yielded, and whether it has
ended. -/
structure Reader (F O : Type) where
  requestId : Text
  queue : List (ResponseChunk F O) := []
  yielded : List (ResponseChunk F O) := []
  done : Bool := false

def Reader.put (chunk : ResponseChunk F O) (reader : Reader F O) : Reader F O :=
  { reader with queue := reader.queue ++ [chunk] }

/-- One turn of `StreamReader._iter`; it waits where the queue is empty. -/
def Reader.get (reader : Reader F O) : Reader F O :=
  if reader.done then reader
  else match reader.queue with
    | [] => reader
    | chunk :: rest =>
      if chunk.isFinal then { reader with queue := rest, done := true }
      else { reader with queue := rest, yielded := reader.yielded ++ [chunk] }

def Reader.drain (reader : Reader F O) : Reader F O :=
  Nat.iterate Reader.get reader.queue.length reader

def upToFinal (chunks : List (ResponseChunk F O)) : List (ResponseChunk F O) :=
  chunks.takeWhile fun chunk => !chunk.isFinal

/-- What the reader of a turn's own queue yields of what is written to it. -/
def inProcess (chunks : List (ResponseChunk F O)) : List (ResponseChunk F O) :=
  Reader.yielded (Reader.drain { requestId := [], queue := chunks })

/-- The reader has received these chunks, in this order, and has yielded those in front
of the first final one or is on its way to it. -/
structure Reader.Holds (reader : Reader F O) (received : List (ResponseChunk F O)) :
    Prop where
  running : reader.done = false →
    received = reader.yielded ++ reader.queue ∧
      ∀ chunk ∈ reader.yielded, chunk.isFinal = false
  ended : reader.done = true → upToFinal received = reader.yielded ∧
    ∃ chunk ∈ received, chunk.isFinal = true

theorem upToFinal_append {front back : List (ResponseChunk F O)}
    (h : ∀ chunk ∈ front, chunk.isFinal = false) :
    upToFinal (front ++ back) = front ++ upToFinal back := by
  apply takeWhile_append_of_pos
  intro chunk hchunk
  rw [h chunk hchunk, Bool.not_false]

theorem upToFinal_append_of_final {front : List (ResponseChunk F O)}
    (h : ∃ chunk ∈ front, chunk.isFinal = true) (back : List (ResponseChunk F O)) :
    upToFinal (front ++ back) = upToFinal front := by
  induction front with
  | nil =>
    obtain ⟨chunk, hchunk, -⟩ := h
    cases hchunk
  | cons first front ih =>
    rw [upToFinal, upToFinal, cons_append, takeWhile_cons, takeWhile_cons]
    by_cases hfirst : first.isFinal = true
    · simp [hfirst]
    · have hrest : ∃ chunk ∈ front, chunk.isFinal = true := by
        obtain ⟨chunk, hchunk, hfinal⟩ := h
        rcases mem_cons.mp hchunk with rfl | hmem
        · exact absurd hfinal hfirst
        · exact ⟨chunk, hmem, hfinal⟩
      have hstep := ih hrest
      rw [upToFinal, upToFinal] at hstep
      simp [hfirst, hstep]

variable {reader : Reader F O}

section

variable {received : List (ResponseChunk F O)} (h : reader.Holds received)

include h

theorem Reader.Holds.put (chunk : ResponseChunk F O) :
    (reader.put chunk).Holds (received ++ [chunk]) where
  running hdone := by
    have hrunning := h.running hdone
    refine ⟨?_, hrunning.2⟩
    show received ++ [chunk] = reader.yielded ++ (reader.queue ++ [chunk])
    rw [hrunning.1, append_assoc]
  ended hdone := by
    obtain ⟨hyielded, hfinal⟩ := h.ended hdone
    refine ⟨(upToFinal_append_of_final hfinal [chunk]).trans hyielded, ?_⟩
    obtain ⟨last, hlast, hlastFinal⟩ := hfinal
    exact ⟨last, mem_append_left _ hlast, hlastFinal⟩

theorem Reader.Holds.get : reader.get.Holds received := by
  rw [Reader.get]
  split
  · exact h
  · rename_i hdone
    have hrunning := h.running (by simpa using hdone)
    split
    · exact h
    · rename_i chunk rest hqueue
      rw [hqueue] at hrunning
      split
      · rename_i hfinal
        refine ⟨fun hnot => (by cases hnot), fun _ => ⟨?_, chunk, ?_, hfinal⟩⟩
        · show upToFinal received = reader.yielded
          rw [hrunning.1, upToFinal_append hrunning.2]
          simp [upToFinal, hfinal]
        · rw [hrunning.1]
          simp
      · rename_i hfinal
        refine ⟨fun _ => ⟨?_, ?_⟩, fun hend => absurd hend hdone⟩
        · show received = reader.yielded ++ [chunk] ++ rest
          rw [hrunning.1, append_assoc, singleton_append]
        · intro other hother
          rcases mem_snoc.mp hother with hmem | rfl
          · exact hrunning.2 other hmem
          · simpa using hfinal

theorem Reader.Holds.begins : reader.yielded <+: upToFinal received := by
  cases hdone : reader.done with
  | true => exact (h.ended hdone).1 ▸ prefix_refl _
  | false =>
    obtain ⟨hreceived, hyielded⟩ := h.running hdone
    rw [hreceived, upToFinal_append hyielded]
    exact prefix_append _ _

/-- A reader that takes all there is ends, if a final chunk has come. -/
theorem Reader.Holds.drain (hfinal : ∃ chunk ∈ received, chunk.isFinal = true) :
    reader.drain.done = true ∧ reader.drain.yielded = upToFinal received := by
  have hiterate : ∀ (n : Nat) (reader : Reader F O), reader.Holds received →
      reader.queue.length = n → (Nat.iterate Reader.get n reader).done = true := by
    intro n
    induction n with
    | zero =>
      intro reader h hlength
      cases hdone : reader.done with
      | true => exact hdone
      | false =>
        obtain ⟨hreceived, hyielded⟩ := h.running hdone
        obtain ⟨chunk, hchunk, hchunkFinal⟩ := hfinal
        rw [hreceived, length_eq_zero_iff.mp hlength, append_nil] at hchunk
        rw [hyielded chunk hchunk] at hchunkFinal
        cases hchunkFinal
    | succ n ih =>
      intro reader h hlength
      rw [Function.iterate_succ_apply]
      by_cases hdone : reader.done = true
      · have hstays : ∀ m, (Nat.iterate Reader.get m reader) = reader := by
          intro m
          induction m with
          | zero => rfl
          | succ m ihm => rw [Function.iterate_succ_apply, Reader.get, if_pos hdone, ihm]
        rw [Reader.get, if_pos hdone, hstays, hdone]
      · refine ih reader.get h.get ?_
        rw [Reader.get, if_neg hdone]
        obtain ⟨chunk, rest, hqueue⟩ := exists_cons_of_length_eq_add_one hlength
        rw [hqueue, length_cons] at hlength
        simp only [hqueue]
        split <;> exact Nat.succ.inj hlength
  have hholds : ∀ n, (Nat.iterate Reader.get n reader).Holds received := by
    intro n
    induction n with
    | zero => exact h
    | succ n ih =>
      rw [Function.iterate_succ_apply']
      exact ih.get
  have hdone := hiterate reader.queue.length reader h rfl
  exact ⟨hdone, ((hholds _).ended hdone).1.symm⟩

end

variable {chunks : List (ResponseChunk F O)}

/-- The reader of a turn's own queue yields what was written up to the final chunk. -/
theorem inProcess_eq (h : ∃ chunk ∈ chunks, chunk.isFinal = true) :
    inProcess chunks = upToFinal chunks := by
  have hholds : Reader.Holds { requestId := [], queue := chunks } chunks :=
    ⟨fun _ => ⟨rfl, fun _ hmem => (by cases hmem)⟩, fun hdone => (by cases hdone)⟩
  exact (hholds.drain h).2

/-! ## The demultiplexer -/

/-- `StreamDemux`: every reader it has handed out, and the writers of its registry by
request id, each as the number of the reader behind it. -/
structure Demux (F O : Type) where
  readers : List (Reader F O) := []
  writers : Text → Option Nat := fun _ => none

def Demux.put (reader : Nat) (chunk : ResponseChunk F O) (demux : Demux F O) :
    Demux F O :=
  { demux with readers := demux.readers.modify reader (Reader.put chunk) }

variable (demux : Demux F O)

/-- `StreamDemux.register`; the writer of an id that is registered is replaced. -/
def Demux.register (requestId : Text) (demux : Demux F O) : Demux F O where
  readers := demux.readers ++ [{ requestId := requestId }]
  writers := update demux.writers requestId (some demux.readers.length)

/-- `StreamDemux.feed`; a frame for an id nothing is registered for is dropped. -/
def Demux.feed : Demux F O :=
  match demux.writers frame.traceId with
  | none => demux
  | some reader =>
    let demux := demux.put reader (frameToChunk frame)
    if frame.isFinal then
      { demux with writers := update demux.writers frame.traceId none }
    else demux

/-- `StreamDemux.finalize_all`: every registered writer writes the final chunk and is
removed.  A writer is registered under the id of its reader. -/
def Demux.finalizeAll : Demux F O where
  readers := demux.readers.mapIdx fun n reader =>
    if demux.writers reader.requestId = some n then reader.put (sentinel reader.requestId)
    else reader
  writers _ := none

/-- A frame changes the registry only where it is a registered id's last. -/
theorem Demux.writers_feed (frame : ChunkFrame F O) (key : Text) :
    (demux.feed frame).writers key =
      if key = frame.traceId ∧ frame.isFinal = true then none else demux.writers key := by
  rw [Demux.feed]
  by_cases hkey : key = frame.traceId
  · subst hkey
    cases hwriter : demux.writers frame.traceId with
    | none => simp [hwriter]
    | some n => cases hfinal : frame.isFinal <;> simp [Demux.put, hwriter]
  · cases hwriter : demux.writers frame.traceId with
    | none => simp [hkey]
    | some n => cases hfinal : frame.isFinal <;> simp [Demux.put, hkey]

inductive GateStep (F O : Type) where
  | feed (frame : ChunkFrame F O)
  | register (requestId : Text)
  | finalizeAll
  /-- A consumer takes its reader's next turn. -/
  | read (reader : Nat)

def Demux.step : GateStep F O → Demux F O
  | .feed frame => demux.feed frame
  | .register requestId => demux.register requestId
  | .finalizeAll => demux.finalizeAll
  | .read reader => { demux with readers := demux.readers.modify reader Reader.get }

def fed (steps : List (GateStep F O)) : List (ChunkFrame F O) :=
  steps.filterMap fun
    | .feed frame => some frame
    | _ => none

def chunksFor (requestId : Text) (frames : List (ChunkFrame F O)) :
    List (ResponseChunk F O) :=
  (frames.filter fun frame => frame.traceId = requestId).map frameToChunk

theorem chunksFor_cons (requestId : Text) (frame : ChunkFrame F O)
    (frames : List (ChunkFrame F O)) :
    chunksFor requestId (frame :: frames) =
      if frame.traceId = requestId then frameToChunk frame :: chunksFor requestId frames
      else chunksFor requestId frames := by
  by_cases hid : frame.traceId = requestId <;> simp [chunksFor, hid]

def untilCut (steps : List (GateStep F O)) : List (GateStep F O) :=
  steps.takeWhile fun
    | .finalizeAll => false
    | _ => true

/-- The chunks a queue registered for an id in front of these steps receives. -/
def received (requestId : Text) : List (GateStep F O) → List (ResponseChunk F O)
  | [] => []
  | .feed frame :: steps =>
    if frame.traceId = requestId then
      if frame.isFinal then [frameToChunk frame]
      else frameToChunk frame :: received requestId steps
    else received requestId steps
  | .finalizeAll :: _ => [sentinel requestId]
  | .register _ :: steps | .read _ :: steps => received requestId steps

/-- The id is not registered again before its stream has ended. -/
def Undisturbed (requestId : Text) : List (GateStep F O) → Prop
  | [] => True
  | .feed frame :: steps =>
    frame.traceId = requestId ∧ frame.isFinal = true ∨ Undisturbed requestId steps
  | .finalizeAll :: _ => True
  | .register other :: steps => other ≠ requestId ∧ Undisturbed requestId steps
  | .read _ :: steps => Undisturbed requestId steps

/-- A reader has received some chunks; it is registered under its id, if at all. -/
structure Tracks (demux : Demux F O) (n : Nat) (requestId : Text)
    (received : List (ResponseChunk F O)) : Prop where
  held : ∃ reader, demux.readers[n]? = some reader ∧ reader.requestId = requestId ∧
    reader.Holds received
  own : ∀ key, demux.writers key = some n → key = requestId

variable {requestId : Text} {demux} {n : Nat}

theorem Tracks.lt (h : Tracks demux n requestId chunks) :
    n < demux.readers.length := by
  obtain ⟨reader, hreader, -⟩ := h.held
  exact (List.getElem?_eq_some_iff.mp hreader).1

/-- Nothing is put into a queue that is not meant. -/
theorem Tracks.modify_ne {n m : Nat} (h : Tracks demux n requestId chunks) (hne : m ≠ n)
    (f : Reader F O → Reader F O) :
    Tracks { demux with readers := demux.readers.modify m f } n requestId chunks where
  held := by
    obtain ⟨reader, hreader, hid, hholds⟩ := h.held
    refine ⟨reader, ?_, hid, hholds⟩
    show (demux.readers.modify m f)[n]? = some reader
    rw [getElem?_modify_ne _ _ hne, hreader]
  own := h.own

theorem Tracks.modify_self {chunks chunks' : List (ResponseChunk F O)}
    (h : Tracks demux n requestId chunks) {f : Reader F O → Reader F O}
    (hid : ∀ reader, (f reader).requestId = reader.requestId)
    (hf : ∀ reader, Reader.Holds reader chunks → Reader.Holds (f reader) chunks') :
    Tracks { demux with readers := demux.readers.modify n f } n requestId chunks' where
  held := by
    obtain ⟨reader, hreader, hreaderId, hholds⟩ := h.held
    refine ⟨f reader, ?_, (hid reader).trans hreaderId, hf reader hholds⟩
    show (demux.readers.modify n f)[n]? = some (f reader)
    rw [getElem?_modify_eq, hreader]
    rfl
  own := h.own

/-- A writer that is removed or replaced no longer reaches the reader. -/
theorem Tracks.update (h : Tracks demux n requestId chunks) (key : Text) {value : Option Nat}
    (hvalue : value ≠ some n) :
    Tracks { demux with writers := update demux.writers key value } n requestId
      chunks where
  held := h.held
  own other hother := by
    by_cases hkey : other = key
    · subst hkey
      exact absurd (by simpa using hother) hvalue
    · exact h.own other (by simpa [update_of_ne hkey] using hother)

theorem Reader.requestId_get (reader : Reader F O) :
    reader.get.requestId = reader.requestId := by
  rw [Reader.get]
  split
  · rfl
  · split
    · rfl
    · split <;> rfl

section

variable (h : Tracks demux n requestId chunks)

include h

theorem Tracks.read (m : Nat) : Tracks (demux.step (.read m)) n requestId chunks := by
  by_cases hm : m = n
  · subst hm
    exact h.modify_self Reader.requestId_get (fun _ hholds => hholds.get)
  · exact h.modify_ne hm Reader.get

theorem Tracks.register (other : Text) : Tracks (demux.register other) n requestId chunks := by
  have hlt := h.lt
  have hfresh : some demux.readers.length ≠ some n := by
    intro heq
    cases heq
    omega
  refine ⟨?_, (h.update other hfresh).own⟩
  obtain ⟨reader, hreader, hid, hholds⟩ := h.held
  refine ⟨reader, ?_, hid, hholds⟩
  show (demux.readers ++ [_])[n]? = some reader
  rw [getElem?_append_left hlt, hreader]

theorem Tracks.feed (frame : ChunkFrame F O) :
    (demux.writers frame.traceId = some n →
      Tracks (demux.feed frame) n requestId (chunks ++ [frameToChunk frame])) ∧
    (demux.writers frame.traceId ≠ some n → Tracks (demux.feed frame) n requestId chunks) := by
  rw [Demux.feed]
  cases hwriter : demux.writers frame.traceId with
  | none => exact ⟨fun heq => (by cases heq), fun _ => h⟩
  | some m =>
    have hnone : (none : Option Nat) ≠ some n := some_ne_none n |>.symm
    constructor
    · intro heq
      cases heq
      have hput := h.modify_self (f := Reader.put (frameToChunk frame))
        (fun _ => rfl) (fun _ hholds => hholds.put (frameToChunk frame))
      dsimp only
      split
      · exact hput.update _ hnone
      · exact hput
    · intro hne
      have hother : m ≠ n := fun heq => hne (congrArg some heq)
      have hput := h.modify_ne hother (Reader.put (frameToChunk frame))
      dsimp only
      split
      · exact hput.update _ hnone
      · exact hput

theorem Tracks.finalizeAll :
    (demux.writers requestId = some n →
      Tracks demux.finalizeAll n requestId (chunks ++ [sentinel requestId])) ∧
    (demux.writers requestId ≠ some n → Tracks demux.finalizeAll n requestId chunks) := by
  obtain ⟨reader, hreader, rfl, hholds⟩ := h.held
  have hmap : demux.finalizeAll.readers[n]? =
      some (if demux.writers reader.requestId = some n then
        reader.put (sentinel reader.requestId) else reader) := by
    show (demux.readers.mapIdx _)[n]? = _
    rw [getElem?_mapIdx, hreader]
    rfl
  have hown : ∀ key, demux.finalizeAll.writers key = some n → key = reader.requestId :=
    nofun
  constructor
  · intro heq
    rw [if_pos heq] at hmap
    exact ⟨⟨_, hmap, rfl, hholds.put _⟩, hown⟩
  · intro hne
    rw [if_neg hne] at hmap
    exact ⟨⟨_, hmap, rfl, hholds⟩, hown⟩

end

/-- A reader that is not registered receives nothing more. -/
theorem Tracks.closed (steps : List (GateStep F O)) (h : Tracks demux n requestId chunks)
    (hclosed : demux.writers requestId ≠ some n) :
    Tracks (run Demux.step demux steps) n requestId chunks := by
  induction steps generalizing demux with
  | nil => exact h
  | cons step steps ih =>
    cases step with
    | feed frame =>
      have hne : demux.writers frame.traceId ≠ some n := by
        intro heq
        exact hclosed (h.own _ heq ▸ heq)
      apply ih ((h.feed frame).2 hne)
      show (demux.feed frame).writers requestId ≠ some n
      rw [Demux.writers_feed]
      split
      · exact (some_ne_none n).symm
      · exact hclosed
    | register other =>
      apply ih (h.register other)
      show Function.update demux.writers other (some demux.readers.length) requestId ≠
        some n
      by_cases hkey : requestId = other
      · subst hkey
        rw [update_self]
        intro heq
        cases heq
        exact absurd h.lt (Nat.lt_irrefl _)
      · rw [update_of_ne hkey]
        exact hclosed
    | finalizeAll =>
      exact ih (h.finalizeAll.2 hclosed) (some_ne_none n).symm
    | read m => exact ih (h.read m) hclosed

/-- What a reader's queue receives while its id is its own: whatever else the gateway
does, the chunks with its id, in the order they are fed, up to the first final one. -/
theorem Tracks.received (steps : List (GateStep F O)) (h : Tracks demux n requestId chunks)
    (hopen : demux.writers requestId = some n) (hund : Undisturbed requestId steps) :
    Tracks (run Demux.step demux steps) n requestId
      (chunks ++ Ipc.received requestId steps) := by
  induction steps generalizing demux chunks with
  | nil =>
    rw [Ipc.received, append_nil]
    exact h
  | cons step steps ih =>
    cases step with
    | feed frame =>
      rw [Ipc.received]
      by_cases hid : frame.traceId = requestId
      · have hfed := (h.feed frame).1 (hid ▸ hopen)
        rw [if_pos hid]
        by_cases hfinal : frame.isFinal = true
        · rw [if_pos hfinal]
          refine hfed.closed steps ?_
          rw [Demux.writers_feed, if_pos ⟨hid.symm, hfinal⟩]
          exact (some_ne_none n).symm
        · rw [if_neg hfinal, append_cons]
          refine ih hfed ?_ (hund.resolve_left (fun hlast => hfinal hlast.2))
          show (demux.feed frame).writers requestId = some n
          rw [Demux.writers_feed, if_neg (fun hlast => hfinal hlast.2), hopen]
      · rw [if_neg hid]
        have hother : demux.writers frame.traceId ≠ some n :=
          fun heq => hid (h.own _ heq)
        refine ih ((h.feed frame).2 hother) ?_
          (hund.resolve_left (fun hlast => hid hlast.1))
        show (demux.feed frame).writers requestId = some n
        rw [Demux.writers_feed, if_neg (fun hlast => hid hlast.1.symm), hopen]
    | register other =>
      refine ih (h.register other) ?_ hund.2
      show Function.update demux.writers other _ requestId = some n
      rw [update_of_ne (Ne.symm hund.1), hopen]
    | finalizeAll =>
      exact (h.finalizeAll.1 hopen).closed steps (some_ne_none n).symm
    | read m => exact ih (h.read m) hopen hund

theorem upToFinal_received (requestId : Text) (steps : List (GateStep F O)) :
    upToFinal (received requestId steps) =
      upToFinal (chunksFor requestId (fed (untilCut steps))) := by
  induction steps with
  | nil => rfl
  | cons step steps ih =>
    cases step with
    | feed frame =>
      have hcut := chunksFor_cons requestId frame (fed (untilCut steps))
      rw [show fed (untilCut (.feed frame :: steps)) = frame :: fed (untilCut steps)
        from rfl, hcut, received]
      split
      · split
        · rename_i hfinal
          simp [upToFinal, hfinal]
        · rename_i hfinal
          rw [upToFinal, upToFinal] at ih
          simp [upToFinal, hfinal, ih]
      · exact ih
    | finalizeAll => rfl
    | register other => exact ih
    | read m => exact ih

theorem final_received {steps : List (GateStep F O)}
    (h : .finalizeAll ∈ steps ∨ ∃ chunk ∈ chunksFor requestId (fed steps), chunk.isFinal = true) :
    ∃ chunk ∈ received requestId steps, chunk.isFinal = true := by
  induction steps with
  | nil => simp [fed, chunksFor] at h
  | cons step steps ih =>
    cases step with
    | feed frame =>
      rw [received]
      by_cases hid : frame.traceId = requestId
      · rw [if_pos hid]
        by_cases hfinal : frame.isFinal = true
        · rw [if_pos hfinal]
          exact ⟨_, mem_singleton_self _, hfinal⟩
        · rw [if_neg hfinal]
          have hrest : ∃ chunk ∈ received requestId steps, chunk.isFinal = true := by
            apply ih
            simpa [fed, chunksFor, hid, hfinal] using h
          obtain ⟨chunk, hchunk, hlast⟩ := hrest
          exact ⟨chunk, mem_cons_of_mem _ hchunk, hlast⟩
      · rw [if_neg hid]
        apply ih
        simpa [fed, chunksFor, hid] using h
    | finalizeAll => exact ⟨_, mem_singleton_self _, rfl⟩
    | register other => exact ih (by simpa [fed] using h)
    | read m => exact ih (by simpa [fed] using h)

/-! ## The connection -/

/-- Both ends of a connection: the frames on their way, the queue of each turn's reader
at the core, and the demultiplexer at the gateway. -/
structure Link (F O : Type) where
  wire : List (ChunkFrame F O) := []
  localQueues : Text → List (ResponseChunk F O) := fun _ => []
  demux : Demux F O := {}

/-- The frame that closes a turn's stream. -/
def closingFrame (requestId : Text) : ChunkFrame F O := chunkToFrame (sentinel requestId)

/-- What happens at either end. -/
inductive LinkStep (F O : Type) where
  /-- `SocketStreamWriter.write`, by the writer of a turn. -/
  | write (requestId : Text) (chunk : ResponseChunk F O)
  /-- `SocketStreamWriter.close`. -/
  | close (requestId : Text)
  /-- The gateway reads the next frame. -/
  | deliver
  | register (requestId : Text)
  | finalizeAll
  | read (reader : Nat)

def Link.step (link : Link F O) : LinkStep F O → Link F O
  | .write _ chunk => { link with wire := link.wire ++ [chunkToFrame chunk] }
  | .close requestId =>
    { link with
      wire := link.wire ++ [closingFrame requestId]
      localQueues := update link.localQueues requestId
        (link.localQueues requestId ++ [sentinel []]) }
  | .deliver =>
    match link.wire with
    | [] => link
    | frame :: wire => { link with wire := wire, demux := link.demux.step (.feed frame) }
  | .register requestId => { link with demux := link.demux.step (.register requestId) }
  | .finalizeAll => { link with demux := link.demux.step .finalizeAll }
  | .read reader => { link with demux := link.demux.step (.read reader) }

variable (steps : List (LinkStep F O))

def sent : List (ChunkFrame F O) :=
  steps.filterMap fun
    | .write _ chunk => some (chunkToFrame chunk)
    | .close requestId => some (closingFrame requestId)
    | _ => none

/-- What a turn's own writer writes. -/
def written (requestId : Text) (steps : List (LinkStep F O)) : List (ResponseChunk F O) :=
  steps.filterMap fun
    | .write turn chunk => if turn = requestId then some chunk else none
    | .close turn => if turn = requestId then some (sentinel turn) else none
    | _ => none

variable (link : Link F O)

def gateStep : LinkStep F O → Option (GateStep F O)
  | .write _ _ | .close _ => none
  | .deliver => link.wire.head?.map .feed
  | .register requestId => some (.register requestId)
  | .finalizeAll => some .finalizeAll
  | .read reader => some (.read reader)

def gateSteps : Link F O → List (LinkStep F O) → List (GateStep F O)
  | _, [] => []
  | link, step :: steps => (gateStep link step).toList ++ gateSteps (link.step step) steps

theorem gateSteps_append (steps more : List (LinkStep F O)) :
    gateSteps link (steps ++ more) =
      gateSteps link steps ++ gateSteps (run Link.step link steps) more := by
  induction steps generalizing link with
  | nil => rfl
  | cons step steps ih =>
    rw [cons_append, gateSteps, gateSteps, ih, append_assoc]
    rfl

theorem demux_run (steps : List (LinkStep F O)) :
    (run Link.step link steps).demux = run Demux.step link.demux (gateSteps link steps) := by
  induction steps generalizing link with
  | nil => rfl
  | cons step steps ih =>
    rw [gateSteps, run_append, run, ih]
    congr 1
    cases step with
    | deliver =>
      rw [Link.step, gateStep]
      cases link.wire <;> rfl
    | _ => rfl

theorem wire_fifo (steps : List (LinkStep F O)) :
    fed (gateSteps link steps) ++ (run Link.step link steps).wire =
      link.wire ++ sent steps := by
  induction steps generalizing link with
  | nil => simp [gateSteps, fed, sent, run]
  | cons step steps ih =>
    have hstep := ih (link.step step)
    have happend : fed (gateSteps link (step :: steps)) =
        fed (gateStep link step).toList ++ fed (gateSteps (link.step step) steps) := by
      rw [gateSteps, fed, filterMap_append]
      rfl
    rw [happend, run, append_assoc, hstep]
    cases step with
    | deliver =>
      cases hwire : link.wire <;> simp [Link.step, gateStep, fed, sent, hwire]
    | _ => simp [Link.step, gateStep, fed, sent, closingFrame]

theorem chunksFor_sent {steps : List (LinkStep F O)}
    (h : ∀ turn chunk, .write turn chunk ∈ steps → chunk.traceId = turn)
    (requestId : Text) : chunksFor requestId (sent steps) = written requestId steps := by
  induction steps with
  | nil => rfl
  | cons step steps ih =>
    have hrest := ih (fun turn chunk hmem => h turn chunk (mem_cons_of_mem _ hmem))
    cases step with
    | write turn chunk =>
      have hid : (chunkToFrame chunk).traceId = turn := h turn chunk mem_cons_self
      show chunksFor requestId (chunkToFrame chunk :: sent steps) = _
      rw [chunksFor_cons, hid, hrest, written, written, filterMap_cons]
      by_cases hturn : turn = requestId
      · rw [if_pos hturn]
        simp only [if_pos hturn]
        rfl
      · rw [if_neg hturn]
        simp only [if_neg hturn]
    | close turn =>
      have hid : (closingFrame turn : ChunkFrame F O).traceId = turn := rfl
      show chunksFor requestId (closingFrame turn :: sent steps) = _
      rw [chunksFor_cons, hid, hrest, written, written, filterMap_cons]
      by_cases hturn : turn = requestId
      · rw [if_pos hturn]
        simp only [if_pos hturn]
        rfl
      · rw [if_neg hturn]
        simp only [if_neg hturn]
    | _ => exact hrest

/-! ## What a reader yields -/

/-- A reader that is registered receives nothing but what comes behind. -/
theorem tracks_register (demux : Demux F O) (requestId : Text)
    (hfresh : ∀ key, demux.writers key ≠ some demux.readers.length) :
    Tracks (demux.register requestId) demux.readers.length requestId [] where
  held := by
    refine ⟨{ requestId := requestId }, ?_, rfl, fun _ => ⟨rfl, ?_⟩, nofun⟩
    · show (demux.readers ++ [_])[demux.readers.length]? = some _
      rw [getElem?_append_right (Nat.le_refl _), Nat.sub_self]
      rfl
    · intro chunk hchunk
      cases hchunk
  own key hkey := by
    by_cases hsame : key = requestId
    · exact hsame
    · have hother : demux.writers key = some demux.readers.length := by
        simpa [Demux.register, update_of_ne hsame] using hkey
      exact absurd hother (hfresh key)

/-- Only readers that have been handed out are registered. -/
theorem writers_lt (steps : List (GateStep F O)) (demux : Demux F O)
    (h : ∀ key n, demux.writers key = some n → n < demux.readers.length) :
    ∀ key n, (run Demux.step demux steps).writers key = some n →
      n < (run Demux.step demux steps).readers.length := by
  induction steps generalizing demux with
  | nil => exact h
  | cons step steps ih =>
    apply ih
    intro key n hkey
    cases step with
    | feed frame =>
      have hreaders : (demux.feed frame).readers.length = demux.readers.length := by
        rw [Demux.feed]
        split
        · rfl
        · dsimp only
          split <;> simp [Demux.put]
      show n < (demux.feed frame).readers.length
      rw [hreaders]
      rw [Demux.step, Demux.writers_feed] at hkey
      split at hkey
      · cases hkey
      · exact h key n hkey
    | register requestId =>
      show n < (demux.readers ++ [_]).length
      rw [length_append, length_singleton]
      by_cases hsame : key = requestId
      · subst hsame
        simp only [Demux.step, Demux.register, update_self,
          Option.some.injEq] at hkey
        omega
      · simp only [Demux.step, Demux.register, update_of_ne hsame] at hkey
        have hlt := h key n hkey
        omega
    | finalizeAll => cases hkey
    | read m =>
      show n < (demux.readers.modify m Reader.get).length
      rw [length_modify]
      exact h key n hkey

theorem finalizeAll_mem_gateSteps (h : .finalizeAll ∈ steps)
    : .finalizeAll ∈ gateSteps link steps := by
  induction steps generalizing link with
  | nil => cases h
  | cons step steps ih =>
    rw [gateSteps, mem_append]
    rcases mem_cons.mp h with heq | hrest
    · subst heq
      exact Or.inl (mem_singleton_self _)
    · exact Or.inr (ih _ hrest)

/-- Whatever happens at either end, a reader whose id is its own yields, in the order they
were sent, the chunks with its id that arrive while it is open, up to the first final one
and without it; of its turn's chunks nothing comes in between.  It ends with the stream:
when the final chunk arrives or all streams are finalised.  A reader opened in front of
the turn's first chunk that the final chunk ends yields what a reader in the turn's own
process would. -/
theorem stream_refines (before after : List (LinkStep F O)) (requestId : Text)
    (hund : Undisturbed requestId
      (gateSteps (run Link.step {} (before ++ [.register requestId])) after)) :
    let steps := before ++ .register requestId :: after
    let behind := gateSteps (run Link.step {} (before ++ [.register requestId])) after
    let early := chunksFor requestId (fed (gateSteps {} before))
    let arrived := chunksFor requestId (fed (untilCut behind))
    early ++ arrived <+: chunksFor requestId (sent steps) ∧
    ((∀ turn chunk, .write turn chunk ∈ steps → chunk.traceId = turn) →
      chunksFor requestId (sent steps) = written requestId steps) ∧
    ∃ reader, (run Link.step {} steps).demux.readers[
        (run Link.step {} before).demux.readers.length]? = some reader ∧
      reader.yielded <+: upToFinal arrived ∧
      (reader.done = true → reader.yielded = upToFinal arrived) ∧
      ((.finalizeAll ∈ after ∨ ∃ chunk ∈ arrived, chunk.isFinal = true) →
        reader.drain.done = true ∧ reader.drain.yielded = upToFinal arrived) ∧
      (early = [] → (∃ chunk ∈ arrived, chunk.isFinal = true) →
        upToFinal arrived = inProcess (chunksFor requestId (sent steps))) := by
  intro steps behind early arrived
  have hsplit : gateSteps {} steps =
      gateSteps {} before ++ .register requestId :: behind := by
    have happend : steps = (before ++ [.register requestId]) ++ after := by
      simp [steps]
    rw [happend, gateSteps_append, gateSteps_append]
    simp [gateSteps, gateStep, behind]
  have hfed : fed (gateSteps {} steps) = fed (gateSteps {} before) ++ fed behind := by
    rw [hsplit, fed, filterMap_append]
    rfl
  have hsent : fed (gateSteps {} steps) <+: sent steps :=
    ⟨_, wire_fifo {} steps⟩
  have hcut : fed (untilCut behind) <+: fed behind :=
    (List.takeWhile_prefix _).filterMap _
  have hbegins : early ++ arrived <+: chunksFor requestId (sent steps) := by
    have hboth : fed (gateSteps {} before) ++ fed (untilCut behind) <+: sent steps := by
      rw [hfed] at hsent
      exact ((prefix_append_right_inj _).mpr hcut).trans hsent
    have hchunks := (hboth.filter fun frame => frame.traceId = requestId).map frameToChunk
    rwa [filter_append, map_append] at hchunks
  refine ⟨hbegins, fun hown => chunksFor_sent hown requestId, ?_⟩
  -- the reader is the one the demultiplexer hands out behind the steps in front
  have hdemux : (run Link.step {} steps).demux =
      run Demux.step ((run Link.step {} before).demux.register requestId) behind := by
    rw [demux_run, demux_run {} before, hsplit, run_append]
    rfl
  have hlt := writers_lt (gateSteps {} before) ({} : Link F O).demux
    (nofun)
  rw [← demux_run] at hlt
  have htracks := Tracks.received behind
    (tracks_register (run Link.step {} before).demux requestId
      (fun key hkey => Nat.lt_irrefl _ (hlt key _ hkey)))
    (update_self _ _ _) hund
  rw [nil_append, ← hdemux] at htracks
  obtain ⟨reader, hreader, -, hholds⟩ := htracks.held
  have hsame : upToFinal (received requestId behind) = upToFinal arrived :=
    upToFinal_received requestId behind
  refine ⟨reader, hreader, hsame ▸ hholds.begins, ?_, ?_, ?_⟩
  · intro hdone
    rw [← hsame]
    exact (hholds.ended hdone).1.symm
  · intro hend
    rw [← hsame]
    apply hholds.drain
    apply final_received
    rcases hend with hcutoff | ⟨chunk, hchunk, hfinal⟩
    · exact Or.inl (finalizeAll_mem_gateSteps after _ hcutoff)
    · have hchunks := (hcut.filter fun frame => frame.traceId = requestId).map frameToChunk
      exact Or.inr ⟨chunk, hchunks.subset hchunk, hfinal⟩
  · intro hearly hfinal
    rw [hearly, nil_append] at hbegins
    obtain ⟨rest, hrest⟩ := hbegins
    have hall : ∃ chunk ∈ chunksFor requestId (sent steps), chunk.isFinal = true := by
      obtain ⟨chunk, hchunk, hlast⟩ := hfinal
      exact ⟨chunk, hrest ▸ mem_append_left rest hchunk, hlast⟩
    rw [inProcess_eq hall, ← hrest, upToFinal_append_of_final hfinal]

/-- A chunk of an answer, for the runs below. -/
def exampleChunk (index : Int) : ResponseChunk Unit Unit where
  content := Text.ofString "hi"
  isFinal := false
  chunkIndex := index
  traceId := Text.ofString "t"
  owlName := []

/-- A turn of one chunk. -/
theorem stream_refines_answer :
    ∃ reader, (run Link.step {} [.register (Text.ofString "t"),
        .write (Text.ofString "t") (exampleChunk 0), .close (Text.ofString "t"),
        .deliver, .deliver]).demux.readers[0]? = some reader ∧
      reader.drain.done = true ∧ reader.drain.yielded = [exampleChunk 0] := by
  obtain ⟨-, -, reader, hreader, -, -, hdrain, -⟩ := stream_refines []
    [.write (Text.ofString "t") (exampleChunk 0), .close (Text.ofString "t"),
      .deliver, .deliver] (Text.ofString "t") (Or.inr (Or.inl ⟨rfl, rfl⟩))
  refine ⟨reader, hreader, hdrain (Or.inr ⟨sentinel (Text.ofString "t"), ?_, rfl⟩)⟩
  exact mem_cons_of_mem _ (mem_singleton_self _)

/-- A chunk that arrives before its reader is opened is dropped, and the final chunk ends
the reader without being yielded. -/
theorem early_and_final_not_yielded :
    let steps : List (LinkStep Unit Unit) :=
      [.write (Text.ofString "t") (exampleChunk 0), .deliver,
        .register (Text.ofString "t"), .write (Text.ofString "t") (exampleChunk 1),
        .close (Text.ofString "t"), .deliver, .deliver, .read 0, .read 0]
    written (Text.ofString "t") steps =
        [exampleChunk 0, exampleChunk 1, sentinel (Text.ofString "t")] ∧
      ∃ reader, (run Link.step {} steps).demux.readers[0]? = some reader ∧
        reader.done = true ∧ reader.yielded = [exampleChunk 1] := by
  refine ⟨?_, _, rfl, ?_, ?_⟩ <;> rfl

end StackOwl.Ipc
