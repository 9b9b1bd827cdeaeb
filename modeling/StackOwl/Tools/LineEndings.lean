import StackOwl.Tools.TextFiles

/-!
# Line endings

A text is read with its line endings as they are, worked on with line feeds alone, and
written with the line ending that `_detect_newline` found in it.  What survives this are the
texts that use that ending and no other.

## Main results

* `exists_split` — a part of the translated text is the translation of a part.
* `restored_iff` — which texts come back.
* `length_le_length_restored` — no text comes back shorter.
-/

namespace StackOwl.Tools

open List

def lineEndings : List Char → List (List Char)
  | '\r' :: '\n' :: rest => ['\r', '\n'] :: lineEndings rest
  | c :: rest => if c = '\r' ∨ c = '\n' then [c] :: lineEndings rest else lineEndings rest
  | [] => []

variable (newline : List Char)

/-- Every line ending of a text is the given one. -/
def UsesOnly (text : List Char) : Prop := ∀ ending ∈ lineEndings text, ending = newline

/-- What `_detect_newline` can find. -/
def IsNewline : Prop :=
  newline = ['\r', '\n'] ∨ newline = ['\r'] ∨ newline = ['\n']

theorem isNewline_detectNewline (raw : List Char) : IsNewline (detectNewline raw) := by
  unfold detectNewline
  split
  · exact .inl rfl
  · split
    · exact .inr (.inl rfl)
    · exact .inr (.inr rfl)

/-! ## Translating -/

/-- A character does not begin a carriage return and line feed. -/
def Alone (c : Char) (rest : List Char) : Prop := ∀ after, c = '\r' → rest ≠ '\n' :: after

theorem normalizeNewlines_crlf (rest : List Char) :
    normalizeNewlines ('\r' :: '\n' :: rest) = '\n' :: normalizeNewlines rest := rfl

variable {c : Char} {rest : List Char}

theorem normalizeNewlines_cons (h : Alone c rest) :
    normalizeNewlines (c :: rest) =
      (if c = '\r' then '\n' else c) :: normalizeNewlines rest := by
  rw [normalizeNewlines, replaceCrLf, map_cons, normalizeNewlines]
  exact h

theorem lineEndings_cons (h : Alone c rest) :
    lineEndings (c :: rest) =
      if c = '\r' ∨ c = '\n' then [c] :: lineEndings rest else lineEndings rest := by
  rw [lineEndings]
  exact h

variable {front back : List Char}

theorem Alone.of_append (h : Alone c (front ++ back)) :
    Alone c front := by
  intro after hc hfront
  exact h (after ++ back) hc (by rw [hfront]; rfl)

variable {raw : List Char}

/-- A part of the translated text is the translation of a part. -/
theorem exists_split (h : normalizeNewlines raw = front ++ back) :
    ∃ before after, raw = before ++ after ∧ normalizeNewlines before = front ∧
      normalizeNewlines after = back := by
  induction raw using replaceCrLf.induct generalizing front with
  | case1 rest ih =>
    cases front with
    | nil => exact ⟨[], _, rfl, rfl, h⟩
    | cons d front =>
      rw [normalizeNewlines_crlf] at h
      obtain ⟨rfl, hrest⟩ := cons.inj h
      obtain ⟨before, after, rfl, rfl, rfl⟩ := ih hrest
      exact ⟨'\r' :: '\n' :: before, after, rfl, normalizeNewlines_crlf before, rfl⟩
  | case2 c rest halone ih =>
    cases front with
    | nil => exact ⟨[], _, rfl, rfl, h⟩
    | cons d front =>
      rw [normalizeNewlines_cons halone] at h
      obtain ⟨rfl, hrest⟩ := cons.inj h
      obtain ⟨before, after, rfl, rfl, rfl⟩ := ih hrest
      exact ⟨c :: before, after, rfl, normalizeNewlines_cons (Alone.of_append halone), rfl⟩
  | case3 =>
    obtain ⟨rfl, rfl⟩ := append_eq_nil_iff.mp h.symm
    exact ⟨[], [], rfl, rfl, rfl⟩

/-! ## Writing -/

@[simp] theorem withNewline_nil : withNewline newline [] = [] := rfl

theorem withNewline_cons (c : Char) (rest : List Char) :
    withNewline newline (c :: rest) =
      (if c = '\n' then newline else [c]) ++ withNewline newline rest :=
  flatMap_cons

theorem withNewline_append (front back : List Char) :
    withNewline newline (front ++ back) =
      withNewline newline front ++ withNewline newline back :=
  flatMap_append

/-- With carriage returns for its line endings a text has no line feed. -/
theorem newline_not_mem_withNewline (text : List Char) : '\n' ∉ withNewline ['\r'] text := by
  intro h
  obtain ⟨c, -, hc⟩ := mem_flatMap.mp h
  split at hc
  · exact absurd hc (by decide)
  · rename_i hne
    exact hne (mem_singleton.mp hc).symm

theorem usesOnly_crlf (rest : List Char) :
    UsesOnly newline ('\r' :: '\n' :: rest) ↔ ['\r', '\n'] = newline ∧ UsesOnly newline rest := by
  simp [UsesOnly, lineEndings]

theorem usesOnly_cons (h : Alone c rest) (newline : List Char) :
    UsesOnly newline (c :: rest) ↔
      (c = '\r' ∨ c = '\n' → [c] = newline) ∧ UsesOnly newline rest := by
  rw [UsesOnly, lineEndings_cons h]
  by_cases hending : c = '\r' ∨ c = '\n' <;> simp [UsesOnly, hending]

variable {newline}

/-- The texts that come back are those that use the line ending and no other. -/
theorem restored_iff (hnewline : IsNewline newline) (text : List Char) :
    withNewline newline (normalizeNewlines text) = text ↔ UsesOnly newline text := by
  induction text using replaceCrLf.induct with
  | case1 rest ih =>
    rw [normalizeNewlines_crlf, withNewline_cons, if_pos rfl, usesOnly_crlf, ← ih]
    rcases hnewline with rfl | rfl | rfl
    · simp
    · -- a line feed is left over
      refine iff_of_false ?_ (by simp)
      intro h
      have hrest := (cons.inj h).2
      exact newline_not_mem_withNewline _ (hrest ▸ mem_cons_self)
    · simp
  | case2 c rest halone ih =>
    rw [normalizeNewlines_cons halone, withNewline_cons, usesOnly_cons halone, ← ih]
    by_cases hcr : c = '\r'
    · subst hcr
      rw [if_pos rfl, if_pos rfl]
      rcases hnewline with rfl | rfl | rfl
      · refine iff_of_false ?_ (by simp)
        intro h
        exact halone _ rfl (cons.inj h).2.symm
      · simp
      · simp
    · rw [if_neg hcr]
      by_cases hlf : c = '\n'
      · subst hlf
        rcases hnewline with rfl | rfl | rfl <;> simp
      · simp [hcr, hlf]
  | case3 => simp [normalizeNewlines, replaceCrLf, UsesOnly, lineEndings]

variable {text : List Char}

/-- No text comes back shorter whose line endings are no longer than the one written. -/
theorem length_le_length_restored
    (h : ∀ ending ∈ lineEndings text, ending.length ≤ newline.length) :
    text.length ≤ (withNewline newline (normalizeNewlines text)).length := by
  induction text using replaceCrLf.induct with
  | case1 rest ih =>
    have htwo : 2 ≤ newline.length := h _ mem_cons_self
    have hrest := ih fun ending hmem => h ending (mem_cons_of_mem _ hmem)
    rw [normalizeNewlines_crlf, withNewline_cons, if_pos rfl, length_append,
      length_cons, length_cons]
    omega
  | case2 c rest halone ih =>
    rw [lineEndings_cons halone] at h
    rw [normalizeNewlines_cons halone, withNewline_cons, length_append, length_cons]
    by_cases hending : c = '\r' ∨ c = '\n'
    · rw [if_pos hending] at h
      have hone : 1 ≤ newline.length := h _ mem_cons_self
      have hrest := ih fun ending hmem => h ending (mem_cons_of_mem _ hmem)
      have hwritten : (if c = '\r' then '\n' else c) = '\n' := by
        rcases hending with rfl | rfl <;> rfl
      rw [hwritten, if_pos rfl]
      omega
    · rw [if_neg hending] at h
      have hrest := ih h
      obtain ⟨hcr, hlf⟩ := not_or.mp hending
      rw [if_neg hcr, if_neg hlf, length_singleton]
      omega
  | case3 => exact Nat.zero_le _

/-- Without carriage returns, what is written is translated back. -/
theorem normalizeNewlines_withNewline (hnewline : IsNewline newline) (h : '\r' ∉ text) :
    normalizeNewlines (withNewline newline text) = text := by
  induction text with
  | nil => rfl
  | cons c rest ih =>
    have hrest := ih fun hmem => h (mem_cons_of_mem _ hmem)
    have hcr : c ≠ '\r' := fun hc => h (hc ▸ mem_cons_self)
    have halone : Alone c (withNewline newline rest) := fun _ hc => absurd hc hcr
    rw [withNewline_cons]
    split
    · rename_i hlf
      subst hlf
      rcases hnewline with rfl | rfl | rfl
      · exact congrArg ('\n' :: ·) hrest
      · have hbare : Alone '\r' (withNewline ['\r'] rest) := by
          intro after _ hafter
          exact newline_not_mem_withNewline rest (hafter ▸ mem_cons_self)
        rw [singleton_append, normalizeNewlines_cons hbare, if_pos rfl, hrest]
      · rw [singleton_append, normalizeNewlines_cons halone, if_neg hcr, hrest]
    · rw [singleton_append, normalizeNewlines_cons halone, if_neg hcr, hrest]

theorem normalizeNewlines_ne_nil (h : text ≠ []) :
    normalizeNewlines text ≠ [] := by
  induction text using replaceCrLf.induct with
  | case1 rest ih => exact cons_ne_nil _ _
  | case2 c rest halone ih =>
    rw [normalizeNewlines_cons halone]
    exact cons_ne_nil _ _
  | case3 => exact absurd rfl h

/-! ## What was detected -/

theorem hasCrLf_iff (text : List Char) : hasCrLf text = true ↔ ['\r', '\n'] <:+: text := by
  induction text using hasCrLf.induct with
  | case1 rest => simp [hasCrLf, infix_cons_iff]
  | case2 c rest halone ih =>
    rw [hasCrLf, ih, infix_cons_iff]
    · refine (or_iff_right ?_).symm
      rintro ⟨after, hafter⟩
      obtain ⟨rfl, hrest⟩ := cons.inj hafter
      exact halone after rfl hrest.symm
    · exact halone
  | case3 => simp [hasCrLf]

variable {ending : List Char}

theorem length_of_mem_lineEndings (h : ending ∈ lineEndings text) :
    ending.length = 1 ∨ ending.length = 2 ∧ hasCrLf text = true := by
  induction text using replaceCrLf.induct with
  | case1 rest ih =>
    rcases mem_cons.mp h with rfl | hrest
    · exact .inr ⟨rfl, rfl⟩
    · rcases ih hrest with hone | ⟨htwo, -⟩
      · exact .inl hone
      · exact .inr ⟨htwo, rfl⟩
  | case2 c rest halone ih =>
    rw [lineEndings_cons halone] at h
    have hrest : ending ∈ lineEndings rest → ending.length = 1 ∨
        ending.length = 2 ∧ hasCrLf (c :: rest) = true := by
      intro hmem
      rw [hasCrLf]
      · exact ih hmem
      · exact halone
    split at h
    · rcases mem_cons.mp h with rfl | hmem
      · exact .inl rfl
      · exact hrest hmem
    · exact hrest h
  | case3 => cases h

theorem length_le_detectNewline (hpart : text <:+: raw) (h : ending ∈ lineEndings text)
    : ending.length ≤ (detectNewline raw).length := by
  have hpositive : 1 ≤ (detectNewline raw).length := by
    rcases isNewline_detectNewline raw with hnl | hnl | hnl <;> simp [hnl]
  rcases length_of_mem_lineEndings h with hone | ⟨htwo, hcrlf⟩
  · rw [hone]
    exact hpositive
  · have hraw : hasCrLf raw = true :=
      (hasCrLf_iff raw).mpr (((hasCrLf_iff text).mp hcrlf).trans hpart)
    rw [htwo, detectNewline, if_pos hraw]
    rfl

/-- The parts around a replaced text come back together exactly where each does. -/
theorem restored_around_iff {middle written : List Char} (hraw : raw = front ++ middle ++ back) :
    withNewline (detectNewline raw) (normalizeNewlines front) ++ written ++
        withNewline (detectNewline raw) (normalizeNewlines back) = front ++ written ++ back ↔
      UsesOnly (detectNewline raw) front ∧ UsesOnly (detectNewline raw) back := by
  have hnewline := isNewline_detectNewline raw
  rw [← restored_iff hnewline, ← restored_iff hnewline]
  constructor
  · intro h
    have hleft : front <:+: raw := hraw ▸ ⟨[], middle ++ back, by simp⟩
    have hright : back <:+: raw := hraw ▸ ⟨front ++ middle, [], by simp⟩
    have hfront : front.length ≤
        (withNewline (detectNewline raw) (normalizeNewlines front)).length :=
      length_le_length_restored fun ending hmem => length_le_detectNewline hleft hmem
    have hback : back.length ≤
        (withNewline (detectNewline raw) (normalizeNewlines back)).length :=
      length_le_length_restored fun ending hmem => length_le_detectNewline hright hmem
    have hlength := congrArg length h
    simp only [length_append] at hlength
    rw [append_assoc, append_assoc] at h
    obtain ⟨hsame, hrest⟩ := append_inj h (by omega)
    exact ⟨hsame, append_cancel_left hrest⟩
  · rintro ⟨hfront, hback⟩
    rw [hfront, hback]

end StackOwl.Tools
