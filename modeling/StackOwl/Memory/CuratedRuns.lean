import Mathlib.Data.List.Dedup
import Mathlib.Data.List.DropRight
import StackOwl.Lib.Dict
import StackOwl.Memory.Curated

/-!
# What a file gives back

Entries are joined by the delimiter after the text of each has lost its own delimiters, once, from
left to right.  What is left of it may still have one, or end in what makes one with the line feed
that follows; and a carriage return is read as a line feed.  Nothing else is lost.

## Main results

* `read_write_iff` — a file gives its entries back exactly where the text of each is clean.
* `curated_iff` — in every state of a run each target has the entries of a plain list, exactly
  where every text that the run stores is clean.
* `curated_forged` — runs in which a text makes a second entry, takes its neighbour's durability,
  and loses its end.
-/

namespace StackOwl.Memory

open Durable Lib Tools List

/-! ## Blanks -/

section
variable {text raw : List Char} {c : Char}

theorem strip_cons_space (hc : isSpace c = true) (text : List Char) :
    strip (c :: text) = strip text := by
  rw [strip_eq, dropWhile_cons_of_pos hc, ← strip_eq]

theorem strip_append_space (hc : isSpace c = true) (text : List Char) :
    strip (text ++ [c]) = strip text := by
  rw [strip_eq, dropWhile_append]
  split
  · rename_i hempty
    rw [strip_eq, isEmpty_iff.mp hempty, dropWhile_cons_of_pos hc]
    rfl
  · rw [rdropWhile_concat_pos _ _ _ hc, ← strip_eq]

theorem strip_rdropWhile (text : List Char) : strip (text.rdropWhile isSpace) = strip text := by
  induction text using reverseRecOn with
  | nil => rfl
  | append_singleton text c ih =>
    by_cases hc : isSpace c = true
    · rw [rdropWhile_concat_pos _ _ _ hc, ih, strip_append_space hc]
    · rw [rdropWhile_concat_neg _ _ _ hc]

theorem rdropWhile_append {front : List Char} (h : front.rdropWhile isSpace = front)
    (text : List Char) :
    (front ++ text).rdropWhile isSpace = front ++ text.rdropWhile isSpace := by
  induction text using reverseRecOn with
  | nil => rw [append_nil, h, rdropWhile_nil, append_nil]
  | append_singleton text c ih =>
    rw [← append_assoc]
    by_cases hc : isSpace c = true
    · rw [rdropWhile_concat_pos _ _ _ hc, rdropWhile_concat_pos _ _ _ hc, ih]
    · rw [rdropWhile_concat_neg _ _ _ hc, rdropWhile_concat_neg _ _ _ hc,
        append_assoc]

end

/-! ## One entry -/

def Contained (text : List Char) : Prop := text ≠ [] ∧ strip text = text

variable (d : Durability)

theorem strip_marker (text : List Char) :
    strip (marker d ++ text) = marker d ++ text.rdropWhile isSpace := by
  have hfront : (marker d).rdropWhile isSpace = marker d := by cases d <;> decide
  have hhead : (marker d ++ text).dropWhile isSpace = marker d ++ text :=
    dropWhile_cons_of_neg (by decide)
  rw [strip_eq, hhead, rdropWhile_append hfront]

theorem find?_marker (text : List Char) :
    ([Durability.permanent, .untilChanged].find? fun d' => marker d' <+: marker d ++ text) =
      some d := by
  cases d with
  | permanent => exact find?_cons_of_pos (decide_eq_true (prefix_append _ _))
  | untilChanged =>
    have hpermanent : marker .permanent = '[' :: 'p' :: "ermanent]".toList := by decide
    have huntil : marker .untilChanged = '[' :: 'u' :: "ntil_changed]".toList := by
      decide
    have hother : ¬marker .permanent <+: marker .untilChanged ++ text := by
      rw [hpermanent, huntil]
      simp
    rw [find?_cons_of_neg (by simpa using hother)]
    exact find?_cons_of_pos (decide_eq_true (prefix_append _ _))

theorem parse_marker (text : List Char) :
    Entry.parse (marker d ++ ' ' :: text) = { text := strip text, durability := d } := by
  have hblank : isSpace ' ' = true := by decide
  rw [Entry.parse, strip_marker, find?_marker]
  dsimp only
  rw [drop_left, strip_rdropWhile, strip_cons_space hblank]

theorem parse_congr {raw raw' : List Char} (h : strip raw = strip raw') :
    Entry.parse raw = Entry.parse raw' := by
  rw [Entry.parse, Entry.parse, h]

variable {e : Entry}

/-- **An entry comes back**, with the line feed that ends the file or without. -/
theorem parse_rendered (h : Contained e.text) : Entry.parse e.rendered = e := by
  rw [Entry.rendered, parse_marker, h.2]

theorem parse_rendered_newline (h : Contained e.text) :
    Entry.parse (e.rendered ++ ['\n']) = e := by
  have hnewline : isSpace '\n' = true := by decide
  rw [parse_congr (strip_append_space hnewline _), parse_rendered h]

theorem strip_marker_ne_nil (text : List Char) :
    strip (marker d ++ text) ≠ [] := by
  rw [strip_marker]
  exact cons_ne_nil _ _

theorem mem_text_parse {raw : List Char} {c : Char} (h : c ∈ (Entry.parse raw).text) :
    c ∈ raw := by
  rw [Entry.parse] at h
  split at h
  · exact (strip_sublist raw).subset (mem_of_mem_drop ((strip_sublist _).subset h))
  · exact (strip_sublist raw).subset h

/-! ## The delimiter -/

theorem delimiter_ne_nil : ENTRY_DELIMITER ≠ [] := cons_ne_nil _ _

theorem infix_append_iff {front text : List Char} (h : '\n' ∉ front) :
    ENTRY_DELIMITER <:+: front ++ text ↔ ENTRY_DELIMITER <:+: text := by
  induction front with
  | nil => rfl
  | cons c front ih =>
    rw [mem_cons, not_or] at h
    rw [cons_append, infix_cons_iff, ih h.2]
    refine or_iff_right fun hprefix => h.1 ?_
    exact (cons_prefix_cons.mp hprefix).1

theorem newline_not_mem_marker : '\n' ∉ marker d ++ [' '] := by
  cases d <;> decide

/-- What is free in front of a line feed is free in front of a delimiter. -/
theorem free_iff (text : List Char) :
    Free ENTRY_DELIMITER text ↔ ¬ENTRY_DELIMITER <:+: text ++ ['\n'] := by
  have hlast : ENTRY_DELIMITER.dropLast = ['\n'] ++ ['§'] := rfl
  rw [Free, hlast, ← append_assoc, infix_concat_iff, not_or]
  refine and_iff_right fun hsuffix => ?_
  have hchar := hsuffix.getLast (cons_ne_nil _ _)
  rw [getLast_append_singleton] at hchar
  exact absurd hchar (by decide)

theorem free_marker_iff (text : List Char) :
    Free ENTRY_DELIMITER (marker d ++ ' ' :: text) ↔ Free ENTRY_DELIMITER text := by
  have hsplit : marker d ++ ' ' :: text = (marker d ++ [' ']) ++ text := by simp
  rw [Free, Free, hsplit, append_assoc, infix_append_iff (newline_not_mem_marker d)]

/-! ## A file -/

def parseAll (raw : List Char) : List Entry :=
  ((splitOn ENTRY_DELIMITER raw).filter fun chunk => strip chunk ≠ []).map Entry.parse

theorem parseAll_append {chunk : List Char} (hfree : Free ENTRY_DELIMITER chunk)
    (hchunk : strip chunk ≠ []) (rest : List Char) :
    parseAll (chunk ++ (ENTRY_DELIMITER ++ rest)) = Entry.parse chunk :: parseAll rest := by
  rw [parseAll, splitOn_append delimiter_ne_nil hfree, filter_cons_of_pos (by simpa), map_cons]
  rfl

theorem write_nil : textFormat.write [] = ['\n'] := rfl

theorem write_singleton (e : Entry) : textFormat.write [e] = e.rendered ++ ['\n'] := by
  simp [textFormat, render]

theorem write_cons_cons (e e' : Entry) (entries : List Entry) :
    textFormat.write (e :: e' :: entries) =
      e.rendered ++ (ENTRY_DELIMITER ++ textFormat.write (e' :: entries)) := by
  simp [textFormat, render, intercalate]

/-- Whatever follows an entry starts with a line feed. -/
theorem exists_write_cons (e : Entry) (entries : List Entry) :
    ∃ rest, textFormat.write (e :: entries) = e.rendered ++ ['\n'] ++ rest := by
  cases entries with
  | nil => exact ⟨[], by rw [write_singleton, append_nil]⟩
  | cons e' entries =>
    refine ⟨['§', '\n'] ++ textFormat.write (e' :: entries), ?_⟩
    rw [write_cons_cons, ENTRY_DELIMITER]
    simp

/-- **An entry that is free** is the first one that is read. -/
theorem parseAll_write_cons (h : Contained e.text) (hfree : Free ENTRY_DELIMITER e.text)
    (entries : List Entry) :
    parseAll (textFormat.write (e :: entries)) = e :: parseAll (textFormat.write entries) := by
  have hchunk : strip e.rendered ≠ [] := strip_marker_ne_nil e.durability _
  have hrendered : Free ENTRY_DELIMITER e.rendered := (free_marker_iff _ _).mpr hfree
  cases entries with
  | nil =>
    have hone : splitOn ENTRY_DELIMITER (e.rendered ++ ['\n']) = [e.rendered ++ ['\n']] :=
      splitOn_eq_singleton ((free_iff _).mp hrendered)
    have hlast : strip (e.rendered ++ ['\n']) ≠ [] := by
      have hnewline : isSpace '\n' = true := by decide
      rwa [strip_append_space hnewline]
    have hempty : parseAll ['\n'] = [] := by decide
    rw [write_singleton, write_nil, hempty, parseAll, hone, filter_cons_of_pos (by simpa),
      map_cons, parse_rendered_newline h]
    rfl
  | cons e' entries => rw [write_cons_cons, parseAll_append hrendered hchunk, parse_rendered h]

/-- **One that is not** loses what follows its first delimiter. -/
theorem parseAll_write_ne (hfree : ¬Free ENTRY_DELIMITER e.text) (entries : List Entry) :
    (parseAll (textFormat.write (e :: entries))).head? ≠ some e := by
  rw [free_iff, not_not] at hfree
  obtain ⟨front, after, htext, hfront⟩ := exists_free delimiter_ne_nil hfree
  obtain ⟨rest, hrest⟩ := exists_write_cons e entries
  have hwrite : textFormat.write (e :: entries) =
      (marker e.durability ++ ' ' :: front) ++ (ENTRY_DELIMITER ++ (after ++ rest)) := by
    have hrendered : e.rendered ++ ['\n'] =
        (marker e.durability ++ ' ' :: front) ++ (ENTRY_DELIMITER ++ after) := by
      rw [Entry.rendered, append_assoc, cons_append, htext]
      simp
    rw [hrest, hrendered]
    simp
  rw [hwrite, parseAll_append ((free_marker_iff _ _).mpr hfront) (strip_marker_ne_nil _ _),
    parse_marker, head?_cons]
  intro hsame
  have hlength := congrArg (fun e : Entry => e.text.length) (Option.some.inj hsame)
  have hshort := (strip_sublist front).length_le
  have htotal := congrArg length htext
  have hdelimiter : ENTRY_DELIMITER.length = 3 := rfl
  simp only [length_append, length_singleton, hdelimiter] at htotal
  dsimp only at hlength
  omega

theorem parseAll_write_iff {entries : List Entry} (h : ∀ e ∈ entries, Contained e.text) :
    parseAll (textFormat.write entries) = entries ↔
      ∀ e ∈ entries, Free ENTRY_DELIMITER e.text := by
  induction entries with
  | nil => exact iff_of_true (by decide) (by simp)
  | cons e entries ih =>
    obtain ⟨hcontained, hrest⟩ := forall_mem_cons.mp h
    rw [forall_mem_cons]
    by_cases hfree : Free ENTRY_DELIMITER e.text
    · rw [parseAll_write_cons hcontained hfree, cons_inj_right, ih hrest]
      exact (and_iff_right hfree).symm
    · refine iff_of_false (fun hsame => ?_) fun hall => hfree hall.1
      exact parseAll_write_ne hfree entries (by rw [hsame, head?_cons])

theorem read_eq_parseAll (raw : List Char) :
    textFormat.read raw = parseAll (normalizeNewlines raw) := rfl

theorem cr_not_mem_read {raw : List Char} (h : e ∈ textFormat.read raw) :
    '\r' ∉ e.text := by
  intro hcr
  obtain ⟨chunk, hchunk, rfl⟩ := mem_map.mp h
  have hpiece := (mem_filter.mp hchunk).1
  exact cr_not_mem_normalizeNewlines raw (mem_of_mem_splitFrom hpiece (mem_text_parse hcr))

theorem cr_not_mem_write {entries : List Entry} (h : ∀ e ∈ entries, '\r' ∉ e.text) :
    '\r' ∉ textFormat.write entries := by
  have hrendered : ∀ e ∈ entries, '\r' ∉ e.rendered := by
    intro e he hcr
    rw [Entry.rendered, mem_append, mem_cons] at hcr
    rcases hcr with hmarker | hblank | htext
    · revert hmarker
      cases e.durability <;> decide
    · exact absurd hblank (by decide)
    · exact h e he htext
  induction entries with
  | nil => decide
  | cons e entries ih =>
    rw [forall_mem_cons] at h hrendered
    cases entries with
    | nil =>
      rw [write_singleton, mem_append, not_or]
      exact ⟨hrendered.1, by decide⟩
    | cons e' entries =>
      rw [write_cons_cons, mem_append, mem_append, not_or, not_or]
      exact ⟨hrendered.1, by decide, ih h.2 hrendered.2⟩

theorem clean_iff (text : List Char) :
    Clean text ↔ '\r' ∉ text ∧ Free ENTRY_DELIMITER text := by
  rw [Clean, free_iff]

/-- **What a file gives back.** -/
theorem read_write_iff {entries : List Entry} (h : ∀ e ∈ entries, Contained e.text) :
    textFormat.read (textFormat.write entries) = entries ↔ ∀ e ∈ entries, Clean e.text := by
  have hplain : (∀ e ∈ entries, '\r' ∉ e.text) →
      (textFormat.read (textFormat.write entries) = entries ↔
        ∀ e ∈ entries, Free ENTRY_DELIMITER e.text) := by
    intro hcr
    rw [read_eq_parseAll, (normalizeNewlines_eq_self_iff _).mpr (cr_not_mem_write hcr),
      parseAll_write_iff h]
  constructor
  · intro hsame e he
    have hcr : ∀ e ∈ entries, '\r' ∉ e.text := by
      rw [← hsame]
      exact fun e he => cr_not_mem_read he
    exact (clean_iff _).mpr ⟨hcr e he, (hplain hcr).mp hsame e he⟩
  · intro hclean
    refine (hplain fun e he => (hclean e he).1).mpr fun e he => ?_
    exact ((clean_iff _).mp (hclean e he)).2

/-! ## Calls -/

theorem contained_contain {text : List Char} (h : contain text ≠ []) : Contained (contain text) :=
  ⟨h, strip_strip _⟩

theorem evictFrom_last (budget turns : Nat) (entries : List Entry) (e : Entry) :
    ∃ kept, (evictFrom budget turns (entries ++ [e])).1 = kept ++ [e] ∧
      kept.Sublist entries := by
  induction turns generalizing entries with
  | zero => exact ⟨entries, rfl, List.Sublist.refl _⟩
  | succ turns ih =>
    rw [evictFrom]
    split
    · exact ⟨entries, rfl, List.Sublist.refl _⟩
    · rw [dropLast_concat]
      split
      · exact ⟨entries, rfl, List.Sublist.refl _⟩
      · rename_i oldest holdest
        have hlt : oldest < entries.length := (findIdx?_eq_some_iff_getElem.mp holdest).1
        obtain ⟨kept, hkept, hsub⟩ := ih (entries.eraseIdx oldest)
        dsimp only
        rw [eraseIdx_append_of_lt_length hlt]
        exact ⟨kept, hkept, hsub.trans (eraseIdx_sublist _ _)⟩

variable {durability : String} {d} {target : String}

theorem ne_nil_of_admitted {text : List Char} (h : admitted target text durability = some d)
    : text ≠ [] := by
  rintro rfl
  cases h

structure Stores (path : String → Option String) (existing : String → List Entry)
    (call : MemoryCall) (stem : String) (entries : List Entry) : Prop where
  target : ∃ target, path target = some stem
  mem : ∀ e ∈ entries, e ∈ existing stem ∨ call.contained? = some e.text ∧ Contained e.text
  stored : ∀ text ∈ call.contained?, ∃ e ∈ entries, e.text = text

section
variable {path : String → Option String} {existing : String → List Entry} {stem : String}
  {entries : List Entry}

variable {stem' : String} {text : String}

theorem stores_of_planAdd (hpath : path target = some stem) (htext : contain text.toList ≠ [])
    (h : planAdd target (contain text.toList) d stem (existing stem) = .stores stem' entries) :
    Stores path existing (.add target text durability) stem' entries := by
  rw [planAdd] at h
  split at h
  · cases h
  · -- the entry stays, with some of those in front of it
    have hcandidate : ∀ budget : Nat, ∃ kept, (if budget < (render (existing stem ++
          [⟨contain text.toList, d⟩])).length then
          (evictToFit (existing stem ++ [⟨contain text.toList, d⟩]) budget).1
        else existing stem ++ [⟨contain text.toList, d⟩]) =
          kept ++ [⟨contain text.toList, d⟩] ∧ kept.Sublist (existing stem) := by
      intro budget
      split
      · exact evictFrom_last _ _ _ _
      · exact ⟨_, rfl, List.Sublist.refl _⟩
    obtain ⟨kept, hkept, hsub⟩ := hcandidate (effectiveBudget target d)
    dsimp only at h
    rw [hkept] at h
    split at h
    · cases h
    · cases h
      refine ⟨⟨target, hpath⟩, fun e he => ?_, ?_⟩
      · rcases mem_snoc.mp he with hold | rfl
        · exact .inl (hsub.subset hold)
        · exact .inr ⟨rfl, contained_contain htext⟩
      · rintro _ ⟨⟩
        exact ⟨_, mem_append_right _ (mem_singleton_self _), rfl⟩

theorem stores_of_planReplace {oldText newText : String} (hpath : path target = some stem)
    (htext : contain newText.toList ≠ [])
    (h : planReplace target oldText.toList (contain newText.toList) d stem (existing stem) =
      .stores stem' entries) :
    Stores path existing (.replace target oldText newText durability) stem' entries := by
  rw [planReplace] at h
  split at h
  · cases h
  · rename_i i hi
    have hlt := (findIdx?_eq_some_iff_getElem.mp hi).1
    dsimp only at h
    split at h
    · cases h
    · cases h
      refine ⟨⟨target, hpath⟩, fun e he => ?_, ?_⟩
      · rcases mem_or_eq_of_mem_set he with hold | rfl
        · exact .inl hold
        · exact .inr ⟨rfl, contained_contain htext⟩
      · rintro _ ⟨⟩
        exact ⟨_, mem_set hlt _, rfl⟩

theorem stores_of_planRemove (hpath : path target = some stem)
    (h : planRemove text.toList stem (existing stem) = .stores stem' entries) :
    Stores path existing (.remove target text) stem' entries := by
  rw [planRemove] at h
  split at h
  · cases h
  · cases h
    exact ⟨⟨target, hpath⟩, fun e he => .inl (mem_of_mem_filter he), fun _ hnone => by
      cases hnone⟩

/-- **What a call stores.** -/
theorem stores_of_plan {call : MemoryCall} (h : plan path existing call = .stores stem entries) :
    Stores path existing call stem entries := by
  cases call with
  | add target text durability =>
    rw [plan] at h
    split at h
    · rename_i hadmitted hpath
      exact stores_of_planAdd hpath (ne_nil_of_admitted hadmitted) h
    · cases h
  | replace target oldText newText durability =>
    rw [plan] at h
    split at h
    · rename_i hadmitted hpath
      exact stores_of_planReplace hpath (ne_nil_of_admitted hadmitted) h
    · cases h
  | remove target text =>
    rw [plan] at h
    split at h
    · rename_i hpath
      exact stores_of_planRemove hpath h
    · cases h
  | useAliases aliases => cases h

end

/-! ## Files by their stems -/

section
variable {β γ : Type*} (casefold : String → String)

theorem lookup_map_write (write : γ → β) (files : List (String × γ)) (stem : String) :
    (files.map fun file => (file.1, write file.2)).lookup stem =
      (files.lookup stem).map write := by
  induction files with
  | nil => rfl
  | cons file files ih =>
    rw [map_cons, lookup_cons, lookup_cons, ih]
    cases stem == file.1 <;> rfl

theorem stems_put (m : CuratedMemory β) (stem : String) (content : β) :
    (m.put stem content).files.map Prod.fst =
      if stem ∈ m.files.map Prod.fst then m.files.map Prod.fst
      else m.files.map Prod.fst ++ [stem] := by
  unfold CuratedMemory.put
  split
  · rw [map_map]
    refine map_congr_left fun file _ => ?_
    rw [Function.comp_apply]
    split
    · exact Eq.symm ‹_›
    · rfl
  · rw [map_append]
    rfl

theorem lookup_put (m : CuratedMemory β) (stem : String) (content : β) :
    (m.put stem content).files.lookup stem = some content := by
  unfold CuratedMemory.put
  generalize m.files = files
  split
  · rename_i hstem
    dsimp only
    induction files with
    | nil => cases hstem
    | cons file files ih =>
      rw [map_cons, lookup_cons]
      by_cases hfile : file.1 = stem
      · rw [if_pos hfile, beq_self_eq_true]
      · have hne : (stem == file.1) = false := beq_eq_false_iff_ne.mpr (Ne.symm hfile)
        rw [if_neg hfile, hne]
        exact ih ((mem_cons.mp hstem).resolve_left (Ne.symm hfile))
  · rename_i hstem
    have hnone : files.lookup stem = none := by
      rw [lookup_eq_none_iff]
      intro file hfile
      rw [bne_iff_ne]
      exact fun heq => hstem (heq ▸ mem_map_of_mem hfile)
    rw [lookup_append, hnone]
    simp

theorem stemFor_put {aliases : List (String × String)} {stems : List String} {stem : String}
    (h : stemFor casefold aliases stems target = some stem) :
    stemFor casefold aliases (if stem ∈ stems then stems else stems ++ [stem]) target =
      some stem := by
  split
  · exact h
  · rename_i hnew
    unfold stemFor at h ⊢
    split at h
    · rename_i huser
      rw [if_pos huser]
      exact h
    · rename_i huser
      split at h
      · rename_i hsafe
        have hstem := Option.some.inj h
        have hsame : resolveTarget casefold aliases (stems ++ [stem]) target = stem := by
          unfold resolveTarget at hstem ⊢
          rw [if_neg huser] at hstem ⊢
          split
          · rename_i canonical halias
            rw [halias] at hstem
            exact hstem
          · rename_i halias
            rw [halias] at hstem
            dsimp only at hstem
            split at hstem
            · rename_i hold
              exact absurd (hstem ▸ hold) hnew
            · split at hstem
              · rename_i only honly
                have hmem : only ∈ stems.filter fun stem => casefold stem = casefold target := by
                  rw [← mem_dedup, honly]
                  exact mem_singleton_self _
                exact absurd (hstem ▸ mem_of_mem_filter hmem) hnew
              · rw [if_pos]
                · exact hstem
                · rw [hstem]
                  exact mem_append_right _ (mem_singleton_self _)
        rw [if_neg huser, hsame, if_pos]
        rw [← hstem]
        exact hsafe
      · cases h

end

/-! ## Runs -/

section
variable {casefold : String → String} {w : Twin}

/-- A step of the two: the aliases become others, or a file and its list are written, or nothing
happens. -/
theorem twinStep_cases (hverdict : ∀ call, w.1.verdict casefold textFormat call =
      w.2.verdict casefold listFormat call) (call : MemoryCall) :
    (∃ aliases, twinStep casefold w call = ({ w.1 with aliases }, { w.2 with aliases }) ∧
        w.1.verdict casefold textFormat call = .refused) ∨
      (∃ stem entries, w.1.verdict casefold textFormat call = .stores stem entries ∧
        twinStep casefold w call =
          (w.1.put stem (textFormat.write entries), w.2.put stem entries)) ∨
      twinStep casefold w call = w ∧
        ∀ stem entries, w.1.verdict casefold textFormat call ≠ .stores stem entries := by
  have hplain := (hverdict call).symm
  cases call with
  | useAliases aliases => exact .inl ⟨aliases, rfl, rfl⟩
  | add | replace | remove =>
    simp only [twinStep, CuratedMemory.step, hplain]
    cases hcomes : w.1.verdict casefold textFormat _ with
    | stores stem entries => exact .inr (.inl ⟨stem, entries, rfl, rfl⟩)
    | present | refused => exact .inr (.inr ⟨rfl, nofun⟩)

/-- The files are those of the lists, whose texts are clean. -/
structure Kept (w : Twin) : Prop where
  aliases : w.1.aliases = w.2.aliases
  files : w.1.files = w.2.files.map fun file => (file.1, textFormat.write file.2)
  contained : ∀ file ∈ w.2.files, ∀ e ∈ file.2, Contained e.text
  clean : ∀ file ∈ w.2.files, ∀ e ∈ file.2, Clean e.text

theorem Kept.stems (h : Kept w) : w.1.files.map Prod.fst = w.2.files.map Prod.fst := by
  rw [h.files, map_map]
  rfl

theorem Kept.pathFor (h : Kept w) : w.1.pathFor casefold = w.2.pathFor casefold := by
  funext target
  rw [CuratedMemory.pathFor, CuratedMemory.pathFor, h.stems, h.aliases]

theorem Kept.entriesAt (h : Kept w) :
    w.1.entriesAt textFormat = w.2.entriesAt listFormat := by
  funext stem
  rw [CuratedMemory.entriesAt, CuratedMemory.entriesAt, h.files, lookup_map_write]
  cases hlookup : w.2.files.lookup stem with
  | none => rfl
  | some entries =>
    have hmem := mem_of_lookup hlookup
    exact (read_write_iff (h.contained _ hmem)).mpr (h.clean _ hmem)

theorem Kept.verdict (h : Kept w) (call : MemoryCall) :
    w.1.verdict casefold textFormat call = w.2.verdict casefold listFormat call := by
  rw [CuratedMemory.verdict, CuratedMemory.verdict, h.pathFor, h.entriesAt]

variable {stem : String}

theorem Kept.mem_entriesAt (h : Kept w) (he : e ∈ w.2.entriesAt listFormat stem)
    : Contained e.text ∧ Clean e.text := by
  unfold CuratedMemory.entriesAt at he
  split at he
  · rename_i entries hlookup
    have hmem := mem_of_lookup hlookup
    exact ⟨h.contained _ hmem e he, h.clean _ hmem e he⟩
  · cases he

theorem Kept.faithful (h : Kept w) : Faithful casefold w := by
  intro target
  rw [CuratedMemory.entries, CuratedMemory.entries, h.pathFor, h.entriesAt]
  refine ⟨rfl, fun entries hentries => ?_⟩
  obtain ⟨stem, -, rfl⟩ := Option.map_eq_some_iff.mp hentries
  exact (read_write_iff fun e he => (h.mem_entriesAt he).1).mpr fun e he => (h.mem_entriesAt he).2

variable {call : MemoryCall}

theorem Kept.stores (h : Kept w) {entries : List Entry}
    (hcomes : w.1.verdict casefold textFormat call = .stores stem entries) :
    Stores (w.2.pathFor casefold) (w.2.entriesAt listFormat) call stem entries := by
  rw [h.verdict] at hcomes
  exact stores_of_plan hcomes

theorem Kept.contained_of_stores (h : Kept w) {entries : List Entry}
    (hstores : Stores (w.2.pathFor casefold) (w.2.entriesAt listFormat) call stem entries) :
    ∀ e ∈ entries, Contained e.text := by
  intro e he
  rcases hstores.mem e he with hold | ⟨-, hnew⟩
  · exact (h.mem_entriesAt hold).1
  · exact hnew

theorem mem_put {β : Type*} {m : CuratedMemory β} {content : β} {file : String × β}
    (h : file ∈ (m.put stem content).files) :
    file ∈ m.files ∨ file = (stem, content) := by
  unfold CuratedMemory.put at h
  split at h
  · obtain ⟨old, hold, rfl⟩ := mem_map.mp h
    split
    · exact .inr rfl
    · exact .inl hold
  · exact (mem_append.mp h).imp_right mem_singleton.mp

/-- **A step that stores a clean text** keeps the files those of the lists. -/
theorem Kept.step (h : Kept w) (hclean : StoresClean casefold w call) :
    Kept (twinStep casefold w call) := by
  rcases twinStep_cases h.verdict call with ⟨aliases, hstep, -⟩ | ⟨stem, entries, hcomes, hstep⟩ |
    ⟨hstep, -⟩
  · rw [hstep]
    exact ⟨rfl, h.files, h.contained, h.clean⟩
  · have hstores := h.stores hcomes
    have hcontained := h.contained_of_stores hstores
    have hall : ∀ e ∈ entries, Clean e.text := by
      intro e he
      rcases hstores.mem e he with hold | ⟨hnew, -⟩
      · exact (h.mem_entriesAt hold).2
      · exact hclean stem entries hcomes e.text hnew
    rw [hstep]
    refine ⟨h.aliases, ?_, fun file hfile => ?_, fun file hfile => ?_⟩
    · unfold CuratedMemory.put
      dsimp only
      rw [h.stems]
      split
      · rw [h.files, map_map, map_map]
        refine map_congr_left fun file _ => ?_
        rw [Function.comp_apply, Function.comp_apply]
        split <;> rfl
      · rw [h.files, map_append]
        rfl
    · rcases mem_put hfile with hold | rfl
      · exact h.contained file hold
      · exact hcontained
    · rcases mem_put hfile with hold | rfl
      · exact h.clean file hold
      · exact hall
  · rwa [hstep]

/-- **A step after which a target has the entries of the list** stores a clean text. -/
theorem Kept.storesClean (h : Kept w) (hfaithful : Faithful casefold (twinStep casefold w call)) :
    StoresClean casefold w call := by
  intro stem entries hcomes text htext
  rcases twinStep_cases h.verdict call with ⟨-, -, hrefused⟩ | ⟨stem', entries', hcomes', hstep⟩ |
    ⟨-, hnone⟩
  · rw [hrefused] at hcomes
    cases hcomes
  · cases hcomes.symm.trans hcomes'
    have hstores := h.stores hcomes
    obtain ⟨target, htarget⟩ := hstores.target
    obtain ⟨hsame, -⟩ := hfaithful target
    rw [hstep] at hsame
    have hpath : (w.1.put stem (textFormat.write entries)).pathFor casefold target = some stem := by
      rw [← h.pathFor] at htarget
      rw [CuratedMemory.pathFor, stems_put]
      exact stemFor_put casefold htarget
    have hpath' : (w.2.put stem entries).pathFor casefold target = some stem := by
      rw [CuratedMemory.pathFor, stems_put]
      exact stemFor_put casefold htarget
    rw [CuratedMemory.entries, CuratedMemory.entries, hpath, hpath', Option.map_some,
      Option.map_some, CuratedMemory.entriesAt, CuratedMemory.entriesAt, lookup_put,
      lookup_put] at hsame
    have hread : textFormat.read (textFormat.write entries) = entries := Option.some.inj hsame
    obtain ⟨e, he, rfl⟩ := hstores.stored text htext
    exact (read_write_iff (h.contained_of_stores hstores)).mp hread e he
  · exact absurd hcomes (hnone stem entries)

end

def noFiles (aliases : List (String × String)) : Twin := (⟨aliases, []⟩, ⟨aliases, []⟩)

theorem kept_noFiles (aliases : List (String × String)) : Kept (noFiles aliases) :=
  ⟨rfl, rfl, fun _ h => (by cases h), fun _ h => (by cases h)⟩

/-- **What curated memory stores**: in every state of a run every target has exactly the entries
that the same calls make of a plain list, and writing them again leaves them as they are; in
exactly the runs in which every text that is stored is clean. -/
theorem curated_iff (casefold : String → String) (aliases : List (String × String))
    (calls : List MemoryCall) :
    Along (twinStep casefold) (Faithful casefold) (noFiles aliases) calls ↔
      Meets (twinStep casefold) (StoresClean casefold) (noFiles aliases) calls := by
  have hkept : ∀ w call, Kept w → StoresClean casefold w call →
      Kept (twinStep casefold w call) := fun _ _ h hclean => h.step hclean
  have hneeded : ∀ w call, Kept w → Faithful casefold (twinStep casefold w call) →
      StoresClean casefold w call := fun _ _ h hfaithful => h.storesClean hfaithful
  exact along_iff_meets_of_kept (fun _ h => h.faithful) hkept hneeded (kept_noFiles aliases) calls

theorem not_along_of_entries_ne {casefold : String → String} {aliases : List (String × String)}
    {calls : List MemoryCall} {target : String}
    (h : (run (twinStep casefold) (noFiles aliases) calls).1.entries casefold textFormat target ≠
      (run (twinStep casefold) (noFiles aliases) calls).2.entries casefold listFormat target) :
    ¬Along (twinStep casefold) (Faithful casefold) (noFiles aliases) calls :=
  fun halong => h (halong.last target).1

/-- Two delimiters that share a line feed make an entry of their own, which is permanent; the
delimiter that an entry ends in takes the marker of the next; and a carriage return does as a line
feed. -/
theorem curated_forged :
    ¬Along (twinStep id) (Faithful id) (noFiles [])
        [.add "user" "a\n§\n§\nb" "until_changed"] ∧
      ¬Along (twinStep id) (Faithful id) (noFiles [])
        [.add "user" "a\n§" "permanent", .add "user" "b" "until_changed"] ∧
      ¬Along (twinStep id) (Faithful id) (noFiles [])
        [.add "user" "a\r§\rb" "until_changed"] := by
  refine ⟨@not_along_of_entries_ne _ _ _ "user" ?_, @not_along_of_entries_ne _ _ _ "user" ?_,
    @not_along_of_entries_ne _ _ _ "user" ?_⟩
  · decide
  · decide
  · decide

end StackOwl.Memory
