import StackOwl.Channels.SplitterBlocks

/-!
# What the splitter keeps of a message

`split` (`channels/splitter.py`) ends, its chunks are not empty and within the limit, and what is
left out of the text are blanks on both sides of a cut.  A code block is in one chunk if no pass
up to its end cuts inside a code block, and so is a link.  Telegram counts a character outside
the basic plane as two, which the limit does not.

## Main results

* `split_keeps` — what holds of the chunks, and when blocks are whole and chunks short enough.
* `fence_divided` — a cut at the limit inside the fence a code block begins with.
-/

namespace StackOwl.Channels

open Lib Durable List

variable {limit : Nat}

/-! ## Chunks and where they begin -/

/-- A text cut into chunks, with where each begins: blanks on both sides of a cut are left out,
and where nothing else is in front of it, there is no chunk. -/
inductive CutInto : Nat → List Char → List (Nat × List Char) → Prop where
  | nil (start : Nat) : CutInto start [] []
  | last {start : Nat} {text : List Char} (ne : text ≠ []) : CutInto start text [(start, text)]
  | head {start : Nat} {head before after rest : List Char} {chunks : List (Nat × List Char)}
      (ne : head ≠ []) (blanks : ∀ c ∈ before ++ after, isSpace c = true)
      (rest_ : CutInto (start + (head ++ before ++ after).length) rest chunks) :
      CutInto start (head ++ before ++ after ++ rest) ((start, head) :: chunks)
  | skip {start : Nat} {before after rest : List Char} {chunks : List (Nat × List Char)}
      (blanks : ∀ c ∈ before ++ after, isSpace c = true)
      (rest_ : CutInto (start + (before ++ after).length) rest chunks) :
      CutInto start (before ++ after ++ rest) chunks

def Whole (chunks : List (Nat × List Char)) (block : Nat × Nat) : Prop :=
  ∃ chunk ∈ chunks, chunk.1 ≤ block.1 ∧ block.2 ≤ chunk.1 + chunk.2.length

instance (chunks : List (Nat × List Char)) (block : Nat × Nat) : Decidable (Whole chunks block) :=
  inferInstanceAs (Decidable (∃ chunk ∈ chunks, _ ∧ _))

/-- How many UTF-16 code units a text has. -/
def utf16Units (text : List Char) : Nat :=
  (text.map fun c => if 0xFFFF < c.toNat then 2 else 1).sum

/-- Every pass that begins in front of a place keeps something. -/
def KeepsUntil (keeps : Nat → List Char → Prop) (limit : Nat) (text : List Char) (stop : Nat) :
    Prop :=
  ∀ state ∈ states limit (text.length + 1) 0 text,
    limit < state.2.length → state.1 < stop → keeps limit state.2

instance (keeps : Nat → List Char → Prop) [∀ limit text, Decidable (keeps limit text)]
    (limit : Nat) (text : List Char) (stop : Nat) :
    Decidable (KeepsUntil keeps limit text stop) :=
  inferInstanceAs (Decidable (∀ state ∈ states limit (text.length + 1) 0 text, _ → _ → _))

def chunkOf (limit : Nat) (state : Nat × List Char) : Option (Nat × List Char) :=
  let chunk := if limit < state.2.length then headOf limit state.2 else state.2
  if chunk ≠ [] then some (state.1, chunk) else none

def chunksFrom (limit fuel start : Nat) (remaining : List Char) : List (Nat × List Char) :=
  (states limit fuel start remaining).filterMap (chunkOf limit)

variable {fuel start : Nat} {remaining : List Char} {chunk : Nat × List Char}

theorem chunkOf_eq_some {state : Nat × List Char} (h : chunkOf limit state = some chunk) :
    chunk.1 = state.1 ∧ chunk.2 ≠ [] ∧
      chunk.2 = if limit < state.2.length then headOf limit state.2 else state.2 := by
  unfold chunkOf at h
  generalize (if limit < state.2.length then headOf limit state.2 else state.2) = text at h ⊢
  by_cases hne : text = []
  · rw [if_neg (not_not_intro hne)] at h
    cases h
  · rw [if_pos hne] at h
    cases h
    exact ⟨rfl, hne, rfl⟩

theorem chunkOf_long (hlong : limit < remaining.length) (hhead : headOf limit remaining ≠ []) :
    chunkOf limit (start, remaining) = some (start, headOf limit remaining) := by
  unfold chunkOf
  rw [if_pos hlong, if_pos hhead]

theorem chunkOf_blank (hlong : limit < remaining.length) (hhead : headOf limit remaining = []) :
    chunkOf limit (start, remaining) = none := by
  unfold chunkOf
  rw [if_pos hlong, hhead]
  rfl

theorem chunkOf_short (hshort : ¬limit < remaining.length) (hne : remaining ≠ []) :
    chunkOf limit (start, remaining) = some (start, remaining) := by
  unfold chunkOf
  rw [if_neg hshort, if_pos hne]

theorem states_long (hlong : limit < remaining.length) :
    states limit (fuel + 1) start remaining = (start, remaining) ::
      states limit fuel (start + (remaining.length - (restOf limit remaining).length))
        (restOf limit remaining) := by
  rw [states, if_pos hlong]

theorem states_short (hshort : ¬limit < remaining.length) :
    states limit (fuel + 1) start remaining = [(start, remaining)] := by
  rw [states, if_neg hshort]

/-- **More passes than characters are not needed.** -/
theorem states_fuel (hlimit : 1 ≤ limit) {more : Nat} (hfuel : remaining.length < fuel)
    (hmore : remaining.length < more) :
    states limit fuel start remaining = states limit more start remaining := by
  induction fuel generalizing more start remaining with
  | zero => exact absurd hfuel (Nat.not_lt_zero _)
  | succ fuel ih =>
    cases more with
    | zero => exact absurd hmore (Nat.not_lt_zero _)
    | succ more =>
      by_cases hlong : limit < remaining.length
      · have hless := length_restOf_lt hlimit hlong
        rw [states_long hlong, states_long hlong, @ih _ _ more (by omega) (by omega)]
      · rw [states_short hlong, states_short hlong]

/-- **The loop ends** with the chunks of its states. -/
theorem splitLoop_eq (hlimit : 1 ≤ limit) (hfuel : remaining.length < fuel) (start : Nat)
    (chunks : List (List Char)) : splitLoop limit fuel chunks remaining =
      some (chunks ++ (chunksFrom limit fuel start remaining).map Prod.snd) := by
  induction fuel generalizing start remaining chunks with
  | zero => exact absurd hfuel (Nat.not_lt_zero _)
  | succ fuel ih =>
    rw [splitLoop_succ]
    unfold chunksFrom
    by_cases hlong : limit < remaining.length
    · have hless := length_restOf_lt hlimit hlong
      have hrest := fun start chunks => @ih (restOf limit remaining) (by omega) start chunks
      rw [if_pos hlong, states_long hlong, hrest]
      by_cases hhead : headOf limit remaining = []
      · rw [if_neg (not_not_intro hhead), filterMap_cons_none (chunkOf_blank hlong hhead)]
        rfl
      · rw [if_pos hhead, filterMap_cons_some (chunkOf_long hlong hhead), append_assoc]
        rfl
    · rw [if_neg hlong, states_short hlong]
      by_cases hne : remaining = []
      · subst hne
        show some chunks = some (chunks ++ [])
        rw [append_nil]
      · rw [if_pos hne, filterMap_cons_some (chunkOf_short hlong hne)]
        rfl

/-- **What is left out** are blanks around a cut. -/
theorem cutInto_chunksFrom (hlimit : 1 ≤ limit) (hfuel : remaining.length < fuel) :
    CutInto start remaining (chunksFrom limit fuel start remaining) := by
  induction fuel generalizing start remaining with
  | zero => exact absurd hfuel (Nat.not_lt_zero _)
  | succ fuel ih =>
    unfold chunksFrom
    by_cases hlong : limit < remaining.length
    · have hless := length_restOf_lt hlimit hlong
      obtain ⟨before, after, hblanks, hfront, hback⟩ := pass_eq limit remaining
      have hwhole : headOf limit remaining ++ before ++ after ++ restOf limit remaining =
          remaining := by
        rw [hfront, append_assoc, hback, take_append_drop]
      have hpassed : remaining.length - (restOf limit remaining).length =
          (headOf limit remaining ++ before ++ after).length := by
        have hlength := congrArg List.length hwhole
        rw [length_append] at hlength
        omega
      have hrest := @ih (start + (headOf limit remaining ++ before ++ after).length)
        (restOf limit remaining) (by omega)
      rw [states_long hlong, hpassed]
      by_cases hhead : headOf limit remaining = []
      · rw [filterMap_cons_none (chunkOf_blank hlong hhead)]
        rw [hhead, nil_append] at hwhole hrest
        rw [hhead, nil_append]
        nth_rewrite 1 [← hwhole]
        exact .skip hblanks hrest
      · rw [filterMap_cons_some (chunkOf_long hlong hhead)]
        nth_rewrite 1 [← hwhole]
        exact .head hhead hblanks hrest
    · rw [states_short hlong]
      by_cases hne : remaining = []
      · subst hne
        exact .nil start
      · rw [filterMap_cons_some (chunkOf_short hlong hne)]
        exact .last hne

theorem le_length_headOf {stop k : Nat} {c : Char} (hstop : stop = k + 1)
    (hc : remaining[k]? = some c) (hblank : isSpace c = false)
    (hcut : stop ≤ chooseCut limit remaining) : stop ≤ (headOf limit remaining).length := by
  obtain ⟨before, after, hblanks, hfront, _⟩ := pass_eq limit remaining
  by_contra hshort
  have htake : (remaining.take (chooseCut limit remaining))[k]? = some c := by
    rw [getElem?_take, if_pos (by omega), hc]
  rw [← hfront, getElem?_append_right (by omega)] at htake
  have hspace := hblanks c (mem_append_left after (mem_of_getElem? htake))
  rw [hblank] at hspace
  cases hspace

/-- **A block is in one chunk** if no pass up to its end divides a block. -/
theorem whole_chunksFrom (kind : Blocks) (hlimit : 1 ≤ limit) (hfuel : remaining.length < fuel)
    {block : Nat × Nat} (hblock : block ∈ kind.blocks remaining)
    (hclean : ∀ state ∈ states limit fuel start remaining, limit < state.2.length →
      state.1 < start + block.2 → kind.Clean state.2 (chooseCut limit state.2)) :
    Whole (chunksFrom limit fuel start remaining) (shift start block) := by
  induction fuel generalizing start remaining block with
  | zero => exact absurd hfuel (Nat.not_lt_zero _)
  | succ fuel ih =>
    obtain ⟨k, c, hstop, hc, hblank⟩ := kind.ends block hblock
    unfold chunksFrom
    by_cases hlong : limit < remaining.length
    · have hless := length_restOf_lt hlimit hlong
      have hcut := (chooseCut_bounds hlimit remaining).2
      rw [states_long hlong] at hclean ⊢
      have hhere : kind.Clean remaining (chooseCut limit remaining) :=
        hclean (start, remaining) (List.mem_cons_self ..) hlong
          (by show start < start + block.2; omega)
      obtain ⟨⟨front, hblocks, hfront⟩, _⟩ := kind.behind (by omega) hhere
      rw [hblocks] at hblock
      rcases List.mem_append.mp hblock with hfirst | hlater
      · have hle := le_length_headOf hstop hc hblank (hfront block hfirst)
        have hhead : headOf limit remaining ≠ [] := List.ne_nil_of_length_pos (by omega)
        rw [List.filterMap_cons_some (chunkOf_long hlong hhead)]
        refine ⟨_, List.mem_cons_self .., ?_, ?_⟩
        · show start ≤ start + block.1
          omega
        · show start + block.2 ≤ start + (headOf limit remaining).length
          omega
      · obtain ⟨inner, (hinner : inner ∈ kind.blocks (restOf limit remaining)), rfl⟩ :=
          List.mem_map.mp hlater
        have hplace : shift start (shift (skipped remaining (chooseCut limit remaining)) inner) =
            shift (start + (remaining.length - (restOf limit remaining).length)) inner := by
          show (_ + (_ + _), _ + (_ + _)) = (_ + _, _ + _)
          rw [← Nat.add_assoc, ← Nat.add_assoc]
          rfl
        rw [hplace]
        obtain ⟨chunk, hchunk, hwhole⟩ := ih (by omega) hinner fun state hstate hstateLong hlt =>
          hclean state (List.mem_cons_of_mem _ hstate) hstateLong (by
            show state.1 < start + (skipped _ _ + inner.2)
            rw [← Nat.add_assoc]
            exact hlt)
        refine ⟨chunk, ?_, hwhole⟩
        rw [List.filterMap_cons]
        split
        · exact hchunk
        · exact List.mem_cons_of_mem _ hchunk
    · have hk : k < remaining.length := (List.getElem?_eq_some_iff.mp hc).1
      have hne : remaining ≠ [] := List.ne_nil_of_length_pos (by omega)
      rw [states_short hlong, List.filterMap_cons_some (chunkOf_short hlong hne)]
      refine ⟨_, List.mem_cons_self .., ?_, ?_⟩
      · show start ≤ start + block.1
        omega
      · show start + block.2 ≤ start + remaining.length
        omega

theorem le_of_mem_chunksFrom (h : chunk ∈ chunksFrom limit fuel start remaining)
    : start ≤ chunk.1 := by
  have hstates : ∀ state ∈ states limit fuel start remaining, start ≤ state.1 := by
    clear h
    induction fuel generalizing start remaining with
    | zero => exact fun state hstate => absurd hstate not_mem_nil
    | succ fuel ih =>
      intro state hstate
      rcases mem_cons.mp hstate with rfl | hlater
      · exact Nat.le_refl start
      · split at hlater
        · exact (Nat.le_add_right _ _).trans (ih state hlater)
        · exact absurd hlater not_mem_nil
  obtain ⟨state, hstate, hchunk⟩ := mem_filterMap.mp h
  rw [(chunkOf_eq_some hchunk).1]
  exact hstates state hstate

/-- **Where every block is in one chunk, no pass divides one.** -/
theorem clean_of_whole (kind : Blocks) (hlimit : 1 ≤ limit) (hfuel : remaining.length < fuel)
    (hclosed : kind.Closed remaining)
    (hwhole : ∀ block ∈ kind.blocks remaining,
      Whole (chunksFrom limit fuel start remaining) (shift start block)) :
    ∀ state ∈ states limit fuel start remaining, limit < state.2.length →
      kind.Clean state.2 (chooseCut limit state.2) := by
  induction fuel generalizing start remaining with
  | zero => exact absurd hfuel (Nat.not_lt_zero _)
  | succ fuel ih =>
    intro state hstate hstateLong
    by_cases hlong : limit < remaining.length
    · have hless := length_restOf_lt hlimit hlong
      have hcut := (chooseCut_bounds hlimit remaining).2
      have hpassed := @length_restOf_le limit remaining
      have hheadLe : (headOf limit remaining).length ≤ chooseCut limit remaining :=
        (List.rdropWhile_prefix isSpace _).length_le.trans (length_take_le _ _)
      -- A chunk is the one of this pass, or a later one, which begins behind the cut.
      have hmem : ∀ chunk ∈ chunksFrom limit (fuel + 1) start remaining,
          chunk = (start, headOf limit remaining) ∨ chunk ∈ chunksFrom limit fuel
            (start + (remaining.length - (restOf limit remaining).length))
            (restOf limit remaining) := by
        intro chunk hchunk
        unfold chunksFrom at hchunk
        rw [states_long hlong] at hchunk
        by_cases hhead : headOf limit remaining = []
        · rw [filterMap_cons_none (chunkOf_blank hlong hhead)] at hchunk
          exact .inr hchunk
        · rw [filterMap_cons_some (chunkOf_long hlong hhead)] at hchunk
          exact mem_cons.mp hchunk
      have hhere : kind.Clean remaining (chooseCut limit remaining) := by
        by_contra hdivides
        obtain ⟨block, hblock, hlow, hhigh⟩ := kind.divided (by omega) hclosed hdivides
        obtain ⟨chunk, hchunk, hbegin, hend⟩ := hwhole block hblock
        have hbegin : chunk.1 ≤ start + block.1 := hbegin
        rcases hmem chunk hchunk with rfl | hlater
        · have hend : start + block.2 ≤ start + (headOf limit remaining).length := hend
          omega
        · have hbehind := le_of_mem_chunksFrom hlater
          omega
      rw [states_long hlong] at hstate
      rcases mem_cons.mp hstate with rfl | hstate
      · exact hhere
      · obtain ⟨⟨front, hblocks, _⟩, hrestClosed⟩ := kind.behind (by omega) hhere
        refine @ih _ (restOf limit remaining) (by omega) (hrestClosed hclosed)
          (fun inner hinner => ?_) state hstate hstateLong
        have hblock : shift (skipped remaining (chooseCut limit remaining)) inner ∈
            kind.blocks remaining :=
          hblocks ▸ mem_append_right _ (mem_map_of_mem hinner)
        obtain ⟨chunk, hchunk, hbegin, hend⟩ := hwhole _ hblock
        have hbegin : chunk.1 ≤ start +
            (remaining.length - (restOf limit remaining).length + inner.1) := hbegin
        have hend : start + (remaining.length - (restOf limit remaining).length + inner.2) ≤
            chunk.1 + chunk.2.length := hend
        rcases hmem chunk hchunk with rfl | hlater
        · obtain ⟨k, _, hstop, _⟩ := kind.ends inner hinner
          have hend : start + (remaining.length - (restOf limit remaining).length + inner.2) ≤
              start + (headOf limit remaining).length := hend
          omega
        · refine ⟨chunk, hlater, ?_, ?_⟩
          · show chunk.1 ≤ start + (remaining.length - (restOf limit remaining).length) + inner.1
            omega
          · show start + (remaining.length - (restOf limit remaining).length) + inner.2 ≤ _
            omega
    · rw [states_short hlong] at hstate
      obtain rfl := mem_singleton.mp hstate
      exact absurd hstateLong hlong

/-! ## The whole -/

theorem utf16Units_le_of_append {front text : List Char} (h : front <+: text) :
    utf16Units front ≤ utf16Units text := by
  obtain ⟨back, rfl⟩ := h
  unfold utf16Units
  rw [map_append, sum_append]
  exact Nat.le_add_right _ _

theorem prefix_of_mem_chunksFrom (hlimit : 1 ≤ limit)
    (h : chunk ∈ chunksFrom limit fuel start remaining) :
    chunk.2 ≠ [] ∧ ∃ state ∈ states limit fuel start remaining,
      chunk.2 <+: state.2.take limit := by
  obtain ⟨state, hstate, hchunk⟩ := mem_filterMap.mp h
  obtain ⟨_, hne, htext⟩ := chunkOf_eq_some hchunk
  refine ⟨hne, state, hstate, ?_⟩
  rw [htext]
  split
  · have hcut := (chooseCut_bounds hlimit state.2).2
    exact (List.rdropWhile_prefix isSpace _).trans (take_prefix_take_left hcut)
  · rw [take_of_length_le (by omega)]

theorem split_eq (hlimit : 1 ≤ limit) {text : List Char} (hfuel : text.length < fuel) :
    split limit fuel text =
      some ((chunksFrom limit (text.length + 1) 0 text).map Prod.snd) := by
  have hchunks : chunksFrom limit (text.length + 1) 0 text = chunksFrom limit fuel 0 text :=
    congrArg (List.filterMap _) (states_fuel hlimit (Nat.lt_succ_self _) hfuel)
  unfold split
  split
  · rename_i hnil
    subst hnil
    rfl
  split
  · rename_i hne hshort
    unfold chunksFrom
    rw [states_short (by omega), filterMap_cons_some (chunkOf_short (by omega) hne)]
    rfl
  · rw [splitLoop_eq hlimit hfuel 0 [], hchunks, nil_append]

/-- **What the splitter keeps of a message.**  It ends; what is left out are blanks around a cut;
chunks are not empty, and within the limit.  A code block is in one chunk if the passes that begin
in front of its end keep code blocks, a link if they keep links; and where all of them fit the
limit, and no fence is left open, they all are in one chunk in no other case.  A chunk for
Telegram is short enough if every window is. -/
theorem split_keeps (hlimit : 1 ≤ limit) (text : List Char) :
    ∃ chunks : List (Nat × List Char),
      (∀ fuel, text.length < fuel → split limit fuel text = some (chunks.map Prod.snd)) ∧
      CutInto 0 text chunks ∧
      (∀ chunk ∈ chunks, chunk.2 ≠ [] ∧ chunk.2.length ≤ limit) ∧
      (∀ block ∈ codeBlocks text, KeepsUntil KeepsFences limit text block.2 → Whole chunks block) ∧
      (∀ link ∈ linkSpans text, KeepsUntil KeepsLinks limit text link.2 → Whole chunks link) ∧
      (FencesClosed text → (∀ block ∈ codeBlocks text, block.2 - block.1 ≤ limit) →
        ((∀ block ∈ codeBlocks text, block.2 - block.1 ≤ limit → Whole chunks block) ↔
          ∀ block ∈ codeBlocks text, KeepsUntil KeepsFences limit text block.2)) ∧
      ((∀ link ∈ linkSpans text, link.2 - link.1 ≤ limit) →
        ((∀ link ∈ linkSpans text, link.2 - link.1 ≤ limit → Whole chunks link) ↔
          ∀ link ∈ linkSpans text, KeepsUntil KeepsLinks limit text link.2)) ∧
      (limit = telegramLimit →
        (∀ state ∈ states limit (text.length + 1) 0 text, utf16Units (state.2.take limit) ≤ 4096) →
        ∀ chunk ∈ chunks, utf16Units chunk.2 ≤ 4096) := by
  have hshift (block : Nat × Nat) : shift 0 block = block := by
    show (0 + block.1, 0 + block.2) = block
    rw [Nat.zero_add, Nat.zero_add]
  have hlong {state : Nat × List Char} (hstate : limit < state.2.length) :
      limit ≤ state.2.length := Nat.le_of_lt hstate
  have hcode (block : Nat × Nat) (hblock : block ∈ codeBlocks text)
      (hkeeps : KeepsUntil KeepsFences limit text block.2) :
      Whole (chunksFrom limit (text.length + 1) 0 text) block := by
    have hwhole := @whole_chunksFrom limit _ 0 text fences hlimit
      (Nat.lt_succ_self _) block hblock
      fun state hstate hstateLong hlt => (keepsFences_iff (hlong hstateLong)).mp
        (hkeeps state hstate hstateLong (Nat.zero_add block.2 ▸ hlt))
    rwa [hshift] at hwhole
  have hlink (link : Nat × Nat) (hblock : link ∈ linkSpans text)
      (hkeeps : KeepsUntil KeepsLinks limit text link.2) :
      Whole (chunksFrom limit (text.length + 1) 0 text) link := by
    have hwhole := @whole_chunksFrom limit _ 0 text links hlimit
      (Nat.lt_succ_self _) link hblock
      fun state hstate hstateLong hlt => keepsLinks_iff.mp
        (hkeeps state hstate hstateLong (Nat.zero_add link.2 ▸ hlt))
    rwa [hshift] at hwhole
  refine ⟨chunksFrom limit (text.length + 1) 0 text, fun fuel hfuel => split_eq hlimit hfuel,
    cutInto_chunksFrom hlimit (Nat.lt_succ_self _), fun chunk hchunk => ?_, hcode, hlink,
    fun hclosed hfit => ⟨fun hwhole block _ state hstate hstateLong _ => ?_,
      fun hkeeps block hblock _ => hcode block hblock (hkeeps block hblock)⟩,
    fun hfit => ⟨fun hwhole link _ state hstate hstateLong _ => ?_,
      fun hkeeps link hblock _ => hlink link hblock (hkeeps link hblock)⟩,
    fun _ hunits chunk hchunk => ?_⟩
  · obtain ⟨hne, state, _, hprefix⟩ := prefix_of_mem_chunksFrom hlimit hchunk
    exact ⟨hne, hprefix.length_le.trans (length_take_le _ _)⟩
  · refine (keepsFences_iff (hlong hstateLong)).mpr ?_
    refine clean_of_whole fences hlimit (Nat.lt_succ_self _) hclosed (fun inner hinner => ?_)
      state hstate hstateLong
    rw [hshift]
    exact hwhole inner hinner (hfit inner hinner)
  · refine keepsLinks_iff.mpr ?_
    refine clean_of_whole links hlimit (Nat.lt_succ_self _) trivial (fun inner hinner => ?_)
      state hstate hstateLong
    rw [hshift]
    exact hwhole inner hinner (hfit inner hinner)
  · obtain ⟨_, state, hstate, hprefix⟩ := prefix_of_mem_chunksFrom hlimit hchunk
    exact (utf16Units_le_of_append hprefix).trans (hunits state hstate)

/-- Two passes, and a code block behind the first cut. -/
theorem split_keeps_code_block :
    ∃ chunks : List (Nat × List Char),
      split 10 20 "a. b ```x``` <c|d>".toList = some (chunks.map Prod.snd) ∧
      Whole chunks (5, 12) ∧ Whole chunks (13, 18) := by
  obtain ⟨chunks, hsplit, _, _, hcode, hlinks, _⟩ :=
    @split_keeps 10 (by decide) "a. b ```x``` <c|d>".toList
  exact ⟨chunks, hsplit 20 (by decide), hcode (5, 12) (by decide) (by decide),
    hlinks (13, 18) (by decide) (by decide)⟩

/-- **A cut at the limit inside the fence a code block begins with**, and a message of characters
outside the basic plane. -/
theorem fence_divided :
    (∃ chunks, split 8 16 "abcdefg```x```z".toList = some chunks ∧
      (7, 14) ∈ codeBlocks "abcdefg```x```z".toList ∧ 14 - 7 ≤ 8 ∧
      ∀ chunk ∈ chunks, ¬"```x```".toList <:+: chunk) ∧
    ∃ message : List Char, split telegramLimit 2050 message = some [message] ∧
      utf16Units message = 4098 := by
  constructor
  · exact ⟨["abcdefg`".toList, "``x```z".toList], by decide, by decide, by decide, by decide⟩
  · refine ⟨List.replicate 2049 (Char.ofNat 0x1F600), ?_, ?_⟩
    · unfold split
      rw [if_neg (by simp), if_pos (by rw [length_replicate]; decide)]
    · unfold utf16Units
      rw [map_replicate, sum_replicate_nat]
      rfl

end StackOwl.Channels
