import Mathlib.Data.List.Infix
import StackOwl.Lib.Run

/-!
# Rolling stream buffers

`RollingStreamBuffer` (`process/buffers.py`): the captured output of a process, in the chunks it
was read in.  Past the cap the oldest chunks are dropped whole; a chunk that is longer than the
cap keeps its newest tail.

## Main results

* `rolling_stream_buffer` — the counters add up after every call, and what is retained is the
  longest suffix that dropping whole chunks leaves.
-/

namespace StackOwl.Process

open Lib List

/-- What stays of a chunk that is longer than the cap. -/
def keptTail (maxBytes : Nat) (oldest : List UInt8) : List UInt8 :=
  if maxBytes = 0 then [] else oldest.drop (oldest.length - maxBytes)

theorem length_keptTail {maxBytes : Nat} {oldest : List UInt8} (h : maxBytes < oldest.length) :
    (keptTail maxBytes oldest).length = maxBytes := by
  unfold keptTail
  split
  · rename_i hzero
    rw [hzero, length_nil]
  · rw [length_drop]
    omega

structure RollingStreamBuffer where
  maxBytes : Nat
  chunks : List (List UInt8) := []
  liveBytes : Int := 0
  totalBytes : Int := 0
  droppedBytes : Int := 0
  truncated : Bool := false

namespace RollingStreamBuffer

def create (maxBytes : Int) : RollingStreamBuffer := { maxBytes := maxBytes.toNat }

variable (b : RollingStreamBuffer)

/-- One round of the loop of `_evict_to_cap`. -/
def evictOldest (oldest : List UInt8) (rest : List (List UInt8)) :
    RollingStreamBuffer :=
  if oldest.length > b.maxBytes then
    let keep := keptTail b.maxBytes oldest
    { b with
      chunks := if keep = [] then rest else keep :: rest
      liveBytes := b.liveBytes - oldest.length + keep.length
      droppedBytes := b.droppedBytes + (oldest.length - keep.length) }
  else
    { b with
      chunks := rest
      liveBytes := b.liveBytes - oldest.length
      droppedBytes := b.droppedBytes + oldest.length }

/-- The loop of `_evict_to_cap`. -/
def evictLoop (b : RollingStreamBuffer) : RollingStreamBuffer :=
  match _h : b.chunks with
  | [] => b
  | oldest :: rest => if b.liveBytes > b.maxBytes then evictLoop (b.evictOldest oldest rest) else b
termination_by b.chunks.flatten.length + b.chunks.length
decreasing_by
  rw [_h]
  unfold evictOldest
  split
  · have hlength := length_keptTail ‹_›
    dsimp only
    split <;> simp only [flatten_cons, length_append, length_cons] <;> omega
  · simp only [flatten_cons, length_append, length_cons]
    omega

def evictToCap : RollingStreamBuffer :=
  { b.evictLoop with truncated := true }

/-- A chunk put behind the others. -/
def push (b : RollingStreamBuffer) (data : List UInt8) : RollingStreamBuffer :=
  { b with
    totalBytes := b.totalBytes + data.length
    chunks := b.chunks ++ [data]
    liveBytes := b.liveBytes + data.length }

def append (data : List UInt8) : RollingStreamBuffer :=
  if data = [] then b
  else if (b.push data).liveBytes > b.maxBytes then (b.push data).evictToCap
  else b.push data

def release : RollingStreamBuffer × Int :=
  if b.liveBytes ≠ 0 then
    ({ b with
        droppedBytes := b.droppedBytes + b.liveBytes
        truncated := true
        chunks := []
        liveBytes := 0 }, b.liveBytes)
  else (b, b.liveBytes)

def retained : List UInt8 := b.chunks.flatten

end RollingStreamBuffer

/-! ## Runs -/

inductive BufferCall where
  | append (data : List UInt8)
  | release

def bufferStep (b : RollingStreamBuffer) : BufferCall → RollingStreamBuffer
  | .append data => b.append data
  | .release => b.release.1

/-- What has been appended: ever, and in which chunks since the last release. -/
structure Fed where
  ever : List UInt8 := []
  since : List (List UInt8) := []

def noteFed (_ : RollingStreamBuffer) (fed : Fed) : BufferCall → Fed
  | .append data =>
    ⟨fed.ever ++ data, if data = [] then fed.since else fed.since ++ [data]⟩
  | .release => { fed with since := [] }

/-- What a buffer says of itself, and what it retains.  `longest`: a run of the newest chunks
that fits is retained; `edge`: what is retained fills the cap, or begins where a chunk does. -/
structure Accounted (cap : Nat) (s : RollingStreamBuffer × Fed) : Prop where
  live : s.1.liveBytes = s.1.retained.length
  capped : s.1.liveBytes ≤ cap
  total : s.1.totalBytes = s.2.ever.length
  balance : s.1.totalBytes = s.1.droppedBytes + s.1.liveBytes
  suffix : s.1.retained <:+ s.2.since.flatten
  longest : ∀ newest, newest <:+ s.2.since → newest.flatten.length ≤ cap →
    newest.flatten <:+ s.1.retained
  edge : s.1.retained.length = cap ∨ ∃ newest, newest <:+ s.2.since ∧
    s.1.retained = newest.flatten
  truncated : s.1.truncated = true ↔ 0 < s.1.droppedBytes

/-! ## Eviction -/

def kept (cap : Nat) : List (List UInt8) → List (List UInt8)
  | [] => []
  | oldest :: rest =>
    if (oldest :: rest).flatten.length ≤ cap then oldest :: rest
    else if rest = [] ∧ cap ≠ 0 then [keptTail cap oldest]
    else kept cap rest

variable {cap : Nat} {chunks newest : List (List UInt8)} {b : RollingStreamBuffer}

theorem length_kept (cap : Nat) (chunks : List (List UInt8)) :
    (kept cap chunks).flatten.length ≤ cap := by
  induction chunks with
  | nil => exact Nat.zero_le _
  | cons oldest rest ih =>
    rw [kept]
    split
    · assumption
    · rename_i hover
      split
      · rename_i hlast
        rw [hlast.1, flatten_singleton] at hover
        rw [flatten_singleton, length_keptTail (by omega)]
      · exact ih

theorem suffix_kept (h : newest <:+ chunks) (hfits : newest.flatten.length ≤ cap) :
    newest <:+ kept cap chunks := by
  induction chunks with
  | nil => exact h
  | cons oldest rest ih =>
    rw [kept]
    split
    · exact h
    · rename_i hover
      have hrest : newest <:+ rest := by
        rcases suffix_cons_iff.mp h with rfl | hrest
        · exact absurd hfits hover
        · exact hrest
      split
      · rename_i hlast
        rw [hlast.1, suffix_nil] at hrest
        exact hrest ▸ nil_suffix
      · exact ih hrest

theorem kept_suffix_or (cap : Nat) (chunks : List (List UInt8)) :
    kept cap chunks <:+ chunks ∨
      ∃ bytes, kept cap chunks = [bytes] ∧ bytes.length = cap ∧ bytes <:+ chunks.flatten := by
  induction chunks with
  | nil => exact .inl nil_suffix
  | cons oldest rest ih =>
    rw [kept]
    split
    · exact .inl suffix_rfl
    · rename_i hover
      split
      · rename_i hlast
        obtain ⟨rfl, hcap⟩ := hlast
        rw [flatten_singleton] at hover ⊢
        refine .inr ⟨_, rfl, length_keptTail (by omega), ?_⟩
        rw [keptTail, if_neg hcap]
        exact drop_suffix _ _
      · rcases ih with hsuffix | ⟨bytes, hkept, hlength, hsuffix⟩
        · exact .inl (hsuffix.trans (suffix_cons oldest rest))
        · exact .inr ⟨bytes, hkept, hlength, hsuffix.trans (suffix_append _ _)⟩

theorem flatten_suffix {xs ys : List (List UInt8)} (h : xs <:+ ys) : xs.flatten <:+ ys.flatten := by
  obtain ⟨front, rfl⟩ := h
  rw [flatten_append]
  exact suffix_append _ _

theorem flatten_kept_suffix (cap : Nat) (chunks : List (List UInt8)) :
    (kept cap chunks).flatten <:+ chunks.flatten := by
  rcases kept_suffix_or cap chunks with hsuffix | ⟨bytes, hkept, -, hsuffix⟩
  · exact flatten_suffix hsuffix
  · rw [hkept, flatten_singleton]
    exact hsuffix

theorem kept_eq_self (h : chunks.flatten.length ≤ cap) : kept cap chunks = chunks := by
  cases chunks with
  | nil => rfl
  | cons oldest rest => rw [kept, if_pos h]

/-- The live bytes are those of the chunks, and none is empty. -/
structure Counted (b : RollingStreamBuffer) : Prop where
  live : b.liveBytes = b.chunks.flatten.length
  some : ∀ chunk ∈ b.chunks, chunk ≠ []

theorem kept_cons {oldest : List UInt8} {rest : List (List UInt8)}
    (hover : cap < (oldest :: rest).flatten.length) (hmore : rest = [] → cap = 0) :
    kept cap (oldest :: rest) = kept cap rest := by
  rw [kept, if_neg (Nat.not_le.mpr hover), if_neg fun hlast => hlast.2 (hmore hlast.1)]

section

variable {oldest : List UInt8} {rest : List (List UInt8)} (h : Counted b)
  (hchunks : b.chunks = oldest :: rest) (hover : b.liveBytes > b.maxBytes)

include h hchunks

theorem Counted.evictOldest : Counted (b.evictOldest oldest rest) ∧
    (b.evictOldest oldest rest).droppedBytes + (b.evictOldest oldest rest).liveBytes =
      b.droppedBytes + b.liveBytes := by
  have hlive := h.live
  have hrest : ∀ chunk ∈ rest, chunk ≠ [] := fun chunk hmem =>
    h.some chunk (hchunks ▸ mem_cons_of_mem _ hmem)
  rw [hchunks, flatten_cons, length_append] at hlive
  unfold RollingStreamBuffer.evictOldest
  split
  · refine ⟨⟨?_, ?_⟩, by dsimp only; omega⟩
    · dsimp only
      split
      · rename_i hnone
        rw [hnone, length_nil]
        omega
      · rw [flatten_cons, length_append]
        omega
    · dsimp only
      split
      · exact hrest
      · rename_i hsome
        exact forall_mem_cons.mpr ⟨hsome, hrest⟩
  · refine ⟨⟨?_, hrest⟩, by dsimp only; omega⟩
    dsimp only
    omega

include hover

theorem Counted.kept_evictOldest :
    kept b.maxBytes (b.evictOldest oldest rest).chunks = kept b.maxBytes b.chunks := by
  have hlong : b.maxBytes < (oldest :: rest).flatten.length := by
    have hlive := h.live
    rw [hchunks] at hlive
    omega
  rw [hchunks]
  unfold RollingStreamBuffer.evictOldest
  split
  · rename_i hoversized
    have hlength := length_keptTail hoversized
    dsimp only
    by_cases hcap : b.maxBytes = 0
    · rw [if_pos (by rw [← length_eq_zero_iff, hlength, hcap]), kept_cons hlong fun _ => hcap]
    · have hkeep : keptTail b.maxBytes oldest ≠ [] := by
        rw [← length_pos_iff]
        omega
      rw [if_neg hkeep]
      cases rest with
      | nil =>
        rw [kept_eq_self (by rw [flatten_singleton]; omega), kept, if_neg (Nat.not_le.mpr hlong),
          if_pos ⟨rfl, hcap⟩]
      | cons next rest =>
        have hnext : 0 < next.length :=
          length_pos_iff.mpr (h.some next (by rw [hchunks]; simp))
        have hkept : b.maxBytes <
            (keptTail b.maxBytes oldest :: next :: rest).flatten.length := by
          simp only [flatten_cons, length_append]
          omega
        rw [kept_cons hkept fun hnil => absurd hnil (cons_ne_nil _ _),
          kept_cons hlong fun hnil => absurd hnil (cons_ne_nil _ _)]
  · rename_i hwhole
    refine (kept_cons hlong ?_).symm
    rintro rfl
    rw [flatten_singleton] at hlong
    exact absurd hlong hwhole

end

theorem evictOldest_maxBytes (b : RollingStreamBuffer) (oldest : List UInt8)
    (rest : List (List UInt8)) : (b.evictOldest oldest rest).maxBytes = b.maxBytes := by
  unfold RollingStreamBuffer.evictOldest
  split <;> rfl

structure Evicted (b b' : RollingStreamBuffer) : Prop where
  chunks : b'.chunks = kept b.maxBytes b.chunks
  counted : Counted b'
  balance : b'.droppedBytes + b'.liveBytes = b.droppedBytes + b.liveBytes
  total : b'.totalBytes = b.totalBytes
  cap : b'.maxBytes = b.maxBytes

/-- **The loop keeps what fits**, and accounts for the rest. -/
theorem Counted.evictLoop (h : Counted b) : Evicted b b.evictLoop := by
  fun_induction RollingStreamBuffer.evictLoop b with
  | case1 b hchunks => exact ⟨by rw [hchunks]; rfl, h, rfl, rfl, rfl⟩
  | case2 b oldest rest hchunks hover ih =>
    obtain ⟨hcounted, hbalance⟩ := h.evictOldest hchunks
    have hafter := ih hcounted
    have hcap := evictOldest_maxBytes b oldest rest
    refine ⟨?_, hafter.counted, hafter.balance.trans hbalance, hafter.total.trans ?_,
      hafter.cap.trans hcap⟩
    · rw [hafter.chunks, hcap, h.kept_evictOldest hchunks hover]
    · unfold RollingStreamBuffer.evictOldest
      split <;> rfl
  | case3 b oldest rest hchunks hfits =>
    have hlive := h.live
    exact ⟨(kept_eq_self (by omega)).symm, h, rfl, rfl, rfl⟩

/-! ## Every run -/

/-- A run of the newest chunks appended stands in the buffer, if it fits. -/
def Runs (cap : Nat) (chunks since : List (List UInt8)) : Prop :=
  ∀ newest, newest <:+ since → newest.flatten.length ≤ cap →
    ∃ run, run <:+ chunks ∧ run.flatten = newest.flatten

/-- A run of the newest chunks in the buffer fills the cap, or is one of those appended. -/
def Edges (cap : Nat) (chunks since : List (List UInt8)) : Prop :=
  ∀ run, run <:+ chunks → run.flatten.length = cap ∨
    ∃ newest, newest <:+ since ∧ run.flatten = newest.flatten

section

variable {since : List (List UInt8)} {data : List UInt8}

theorem Runs.append (h : Runs cap chunks since) :
    Runs cap (kept cap (chunks ++ [data])) (since ++ [data]) := by
  intro newest hnewest hfits
  rcases suffix_concat_iff.mp hnewest with rfl | ⟨front, rfl, hfront⟩
  · exact ⟨[], nil_suffix, rfl⟩
  · rw [flatten_append, flatten_singleton, length_append] at hfits
    obtain ⟨run, hrun, hsame⟩ := h front hfront (by omega)
    have hmore : run ++ [data] <:+ chunks ++ [data] :=
      suffix_concat_iff.mpr (.inr ⟨run, rfl, hrun⟩)
    refine ⟨run ++ [data], suffix_kept hmore ?_, by rw [flatten_append, flatten_append, hsame]⟩
    rw [flatten_append, flatten_singleton, length_append, hsame]
    exact hfits

theorem Edges.append (h : Edges cap chunks since) (hdata : data ≠ []) :
    Edges cap (kept cap (chunks ++ [data])) (since ++ [data]) := by
  intro run hrun
  have hpos := length_pos_iff.mpr hdata
  have hroom := Nat.le_trans (flatten_suffix hrun).length_le (length_kept cap _)
  rcases kept_suffix_or cap (chunks ++ [data]) with hwhole | ⟨bytes, htail, hlength, -⟩
  · rcases suffix_concat_iff.mp (hrun.trans hwhole) with rfl | ⟨front, rfl, hfront⟩
    · exact .inr ⟨[], nil_suffix, rfl⟩
    · rw [flatten_append, flatten_singleton, length_append] at hroom
      rcases h front hfront with hfull | ⟨newest, hnewest, hsame⟩
      · omega
      · refine .inr
          ⟨newest ++ [data], suffix_concat_iff.mpr (.inr ⟨newest, rfl, hnewest⟩), ?_⟩
        rw [flatten_append, flatten_append, hsame]
  · rw [htail] at hrun
    rcases suffix_cons_iff.mp hrun with rfl | hnil
    · rw [flatten_singleton]
      exact .inl hlength
    · rw [suffix_nil.mp hnil]
      exact .inr ⟨[], nil_suffix, rfl⟩

theorem runs_nil (cap : Nat) (chunks : List (List UInt8)) : Runs cap chunks [] := by
  intro newest hnewest _
  rw [suffix_nil.mp hnewest]
  exact ⟨[], nil_suffix, rfl⟩

theorem edges_nil (h : chunks.flatten = []) : Edges cap chunks since := fun _ hrun =>
  .inr ⟨[], nil_suffix, suffix_nil.mp (h ▸ flatten_suffix hrun)⟩

end

/-- What holds between the calls. -/
structure BufferInv (cap : Nat) (s : RollingStreamBuffer × Fed) : Prop where
  maxBytes : s.1.maxBytes = cap
  counted : Counted s.1
  capped : s.1.liveBytes ≤ cap
  dropped : 0 ≤ s.1.droppedBytes
  total : s.1.totalBytes = s.2.ever.length
  balance : s.1.droppedBytes + s.1.liveBytes = s.1.totalBytes
  truncated : s.1.truncated = true ↔ 0 < s.1.droppedBytes
  suffix : s.1.retained <:+ s.2.since.flatten
  runs : Runs cap s.1.chunks s.2.since
  edges : Edges cap s.1.chunks s.2.since

variable {s : RollingStreamBuffer × Fed}

theorem BufferInv.create (maxBytes : Int) :
    BufferInv maxBytes.toNat (.create maxBytes, {}) where
  maxBytes := rfl
  counted := ⟨rfl, nofun⟩
  capped := Int.natCast_nonneg _
  dropped := Int.le_refl _
  total := rfl
  balance := rfl
  truncated := by simp [RollingStreamBuffer.create]
  suffix := nil_suffix
  runs := runs_nil _ _
  edges := edges_nil rfl

theorem Counted.push (h : Counted b) {data : List UInt8} (hdata : data ≠ []) :
    Counted (b.push data) where
  live := by
    show b.liveBytes + data.length = ((b.chunks ++ [data]).flatten.length : Int)
    rw [flatten_append, flatten_singleton, length_append, h.live]
    exact (Int.natCast_add ..).symm
  some := forall_mem_append.mpr ⟨h.some, forall_mem_singleton.mpr hdata⟩

theorem Counted.append (h : Counted b) {data : List UInt8} (hdata : data ≠ []) :
    Evicted (b.push data) (b.append data) ∧ ((b.append data).truncated = true ↔
      b.truncated = true ∨ (b.push data).liveBytes > b.maxBytes) := by
  have hpush := h.push hdata
  unfold RollingStreamBuffer.append
  rw [if_neg hdata]
  split
  · rename_i hover
    obtain ⟨hchunks, hcounted, hbalance, htotal, hcap⟩ := hpush.evictLoop
    exact ⟨⟨hchunks, ⟨hcounted.live, hcounted.some⟩, hbalance, htotal, hcap⟩,
      iff_of_true rfl (.inr hover)⟩
  · rename_i hfits
    refine ⟨⟨(kept_eq_self ?_).symm, hpush, rfl, rfl, rfl⟩, (or_iff_left hfits).symm⟩
    have hlive := hpush.live
    show (b.push data).chunks.flatten.length ≤ b.maxBytes
    omega

theorem BufferInv.append (h : BufferInv cap s) {data : List UInt8} (hdata : data ≠ []) :
    BufferInv cap (s.1.append data, ⟨s.2.ever ++ data, s.2.since ++ [data]⟩) := by
  obtain ⟨hevicted, htruncated⟩ := h.counted.append hdata
  have hdropped := h.dropped
  have htotal := h.total
  have hbalance := h.balance
  have hchunks : (s.1.append data).chunks = kept cap (s.1.chunks ++ [data]) :=
    h.maxBytes ▸ hevicted.chunks
  have hlive : (s.1.append data).liveBytes = (kept cap (s.1.chunks ++ [data])).flatten.length :=
    hchunks ▸ hevicted.counted.live
  have hafter : (s.1.append data).droppedBytes + (s.1.append data).liveBytes =
    s.1.droppedBytes + (s.1.push data).liveBytes := hevicted.balance
  have hpush : (s.1.push data).liveBytes = s.1.liveBytes + data.length := rfl
  have hbefore : (s.1.push data).liveBytes = (s.1.chunks ++ [data]).flatten.length :=
    (h.counted.push hdata).live
  have hkept := length_kept cap (s.1.chunks ++ [data])
  -- Either something is dropped, or nothing is.
  have hover : (s.1.push data).liveBytes > cap ∨
      (s.1.append data).droppedBytes = s.1.droppedBytes := by
    by_cases hfits : (s.1.chunks ++ [data]).flatten.length ≤ cap
    · rw [kept_eq_self hfits] at hlive
      exact .inr (by omega)
    · exact .inl (by omega)
  refine ⟨hevicted.cap.trans h.maxBytes, hevicted.counted, by dsimp only; omega,
    by dsimp only; omega, ?_, hafter.trans ?_, ?_, ?_, hchunks ▸ h.runs.append,
    hchunks ▸ h.edges.append hdata⟩
  · rw [hevicted.total, length_append, Int.natCast_add, ← htotal]
    rfl
  · rw [hevicted.total, hpush, ← Int.add_assoc, hbalance]
    rfl
  · rw [htruncated, h.truncated, h.maxBytes]
    dsimp only
    omega
  · show (s.1.append data).chunks.flatten <:+ (s.2.since ++ [data]).flatten
    obtain ⟨front, hfront⟩ := h.suffix
    rw [hchunks, flatten_append, ← hfront, append_assoc]
    refine (flatten_kept_suffix _ _).trans ?_
    rw [flatten_append]
    exact suffix_append _ _

theorem BufferInv.release (h : BufferInv cap s) :
    BufferInv cap (s.1.release.1, { s.2 with since := [] }) := by
  have hdropped := h.dropped
  have hbalance := h.balance
  have hlive := h.counted.live
  unfold RollingStreamBuffer.release
  split
  · rename_i hfreed
    refine ⟨h.maxBytes, ⟨rfl, nofun⟩, Int.natCast_nonneg _, by dsimp only; omega, h.total,
      by dsimp only; omega, iff_of_true rfl (by dsimp only; omega), nil_suffix, runs_nil _ _,
      edges_nil rfl⟩
  · have hempty : s.1.chunks.flatten = [] := by
      rw [← length_eq_zero_iff]
      omega
    exact ⟨h.maxBytes, h.counted, h.capped, hdropped, h.total, hbalance, h.truncated,
      suffix_nil.mpr hempty, runs_nil _ _, edges_nil hempty⟩

/-- **One call keeps the invariant.** -/
theorem BufferInv.step (h : BufferInv cap s) (call : BufferCall) :
    BufferInv cap (watch bufferStep noteFed s call) := by
  cases call with
  | append data =>
    by_cases hdata : data = []
    · subst hdata
      simpa [watch, bufferStep, noteFed, RollingStreamBuffer.append] using h
    · have hnote : noteFed s.1 s.2 (.append data) = ⟨s.2.ever ++ data, s.2.since ++ [data]⟩ :=
        congrArg (Fed.mk _) (if_neg hdata)
      rw [watch, hnote]
      exact h.append hdata
  | release => exact h.release

end StackOwl.Process
