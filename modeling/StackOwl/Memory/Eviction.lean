import Mathlib.Algebra.GroupWithZero.Nat
import StackOwl.Memory.CuratedRuns

/-!
# Making room in a memory

What `add` drops to make room (`_evict_to_fit`), and what the budgets and the permanent entries
come to over a run of calls.

## Main results

* `planAdd_makes_room` — a new entry is stored behind the fewest evictions that make room for it,
  and refused exactly where no number of them does.
* `permanent_stays` — where clean texts are stored, a permanent entry stays until a call names it.
* `budgets_kept` — and no file outgrows the larger budget, nor the user's its own where no other
  target comes to its name.
-/

namespace StackOwl.Memory

open Durable Lib List

/-! ## Evictions -/

/-- The entries without the oldest `n` that are kept until changed; the newest stays. -/
def dropOldest : Nat → List Entry → List Entry
  | n + 1, e :: e' :: entries =>
    if e.durability = .untilChanged then dropOldest n (e' :: entries)
    else e :: dropOldest (n + 1) (e' :: entries)
  | _, entries => entries

@[simp] theorem dropOldest_zero (entries : List Entry) : dropOldest 0 entries = entries := by
  unfold dropOldest
  rfl

theorem dropOldest_permanent {e : Entry} (he : e.durability ≠ .untilChanged) (n : Nat)
    (entries : List Entry) : dropOldest n (e :: entries) = e :: dropOldest n entries := by
  cases n with
  | zero => rw [dropOldest_zero, dropOldest_zero]
  | succ n =>
    cases entries with
    | nil => rfl
    | cons e' entries => rw [dropOldest, if_neg he]

/-- One more eviction is one turn of the loop. -/
theorem dropOldest_succ (n : Nat) (entries : List Entry) :
    dropOldest (n + 1) entries =
      match entries.dropLast.findIdx? fun e => e.durability = .untilChanged with
      | none => entries
      | some oldest => dropOldest n (entries.eraseIdx oldest) := by
  induction entries with
  | nil => rfl
  | cons e rest ih =>
    cases rest with
    | nil => rfl
    | cons e' rest =>
      rw [dropOldest, dropLast_cons_cons, findIdx?_cons]
      by_cases he : e.durability = .untilChanged
      · simp [he]
      · rw [if_neg he, ih]
        simp only [he, decide_false, Bool.false_eq_true, if_false]
        cases (e' :: rest).dropLast.findIdx? fun e => e.durability = .untilChanged with
        | none => rfl
        | some oldest =>
          rw [Option.map_some]
          dsimp only
          rw [eraseIdx_cons_succ, dropOldest_permanent he]

/-- Once there is nothing to evict there is nothing to evict. -/
theorem dropOldest_spent {entries : List Entry} {n : Nat}
    (h : dropOldest (n + 1) entries = dropOldest n entries) (k : Nat) :
    dropOldest (n + k) entries = dropOldest n entries := by
  have hnext : ∀ m (entries : List Entry), dropOldest (m + 1) entries = dropOldest m entries →
      dropOldest (m + 2) entries = dropOldest (m + 1) entries := by
    intro m
    induction m with
    | zero =>
      intro entries h
      rw [dropOldest_zero, dropOldest_succ] at h
      rw [dropOldest_succ, dropOldest_succ]
      split at h
      · rfl
      · rename_i oldest holdest
        have hlt := (findIdx?_eq_some_iff_getElem.mp holdest).1
        have hlength := congrArg length h
        rw [length_dropLast] at hlt
        rw [dropOldest_zero, length_eraseIdx, if_pos (by omega)] at hlength
        omega
    | succ m ih =>
      intro entries h
      rw [dropOldest_succ, dropOldest_succ] at h
      rw [dropOldest_succ, dropOldest_succ (m + 1)]
      split at h
      · rfl
      · exact ih _ h
  have hall : ∀ k, dropOldest (n + k + 1) entries = dropOldest (n + k) entries := by
    intro k
    induction k with
    | zero => exact h
    | succ k ih => exact hnext (n + k) entries ih
  induction k with
  | zero => rfl
  | succ k ih => exact (hall k).trans ih

theorem mem_dropOldest {n : Nat} {entries : List Entry} {e : Entry} (hmem : e ∈ entries)
    (he : e.durability = .permanent) : e ∈ dropOldest n entries := by
  fun_induction dropOldest n entries with
  | case1 n d d' entries hd ih =>
    refine ih ((mem_cons.mp hmem).resolve_left ?_)
    rintro rfl
    rw [he] at hd
    cases hd
  | case2 n d d' entries _ ih =>
    exact mem_cons.mpr ((mem_cons.mp hmem).imp_right ih)
  | case3 => exact hmem

/-- The loop makes the fewest evictions after which the entries fit, or all it can. -/
theorem evictFrom_eq (budget turns : Nat) (entries : List Entry) (h : entries.length ≤ turns) :
    ∃ n, (evictFrom budget turns entries).1 = dropOldest n entries ∧
      (∀ m < n, budget < (render (dropOldest m entries)).length) ∧
      ((render (dropOldest n entries)).length ≤ budget ∨
        dropOldest (n + 1) entries = dropOldest n entries) := by
  induction turns generalizing entries with
  | zero =>
    obtain rfl := length_eq_zero_iff.mp (Nat.le_zero.mp h)
    exact ⟨0, rfl, fun m hm => absurd hm (Nat.not_lt_zero m), .inr rfl⟩
  | succ turns ih =>
    rw [evictFrom]
    split
    · rename_i hfits
      refine ⟨0, by rw [dropOldest_zero], fun m hm => absurd hm (Nat.not_lt_zero m), .inl ?_⟩
      rwa [dropOldest_zero]
    · rename_i hlong
      split
      · rename_i hnone
        refine ⟨0, by rw [dropOldest_zero], fun m hm => absurd hm (Nat.not_lt_zero m), .inr ?_⟩
        rw [dropOldest_succ, hnone, dropOldest_zero]
      · rename_i oldest holdest
        have hlt : oldest < entries.dropLast.length :=
          (findIdx?_eq_some_iff_getElem.mp holdest).1
        rw [length_dropLast] at hlt
        have hsucc : ∀ n, dropOldest (n + 1) entries =
            dropOldest n (entries.eraseIdx oldest) := fun n => by
          rw [dropOldest_succ, holdest]
        obtain ⟨n, hkept, hbefore, hafter⟩ := ih (entries.eraseIdx oldest)
          (by rw [length_eraseIdx]; split <;> omega)
        refine ⟨n + 1, by rw [hsucc]; exact hkept, fun m hm => ?_, ?_⟩
        · cases m with
          | zero =>
            rw [dropOldest_zero]
            exact Nat.not_le.mp hlong
          | succ m =>
            rw [hsucc]
            exact hbefore m (Nat.lt_of_succ_lt_succ hm)
        · rw [hsucc, hsucc]
          exact hafter

theorem length_render (entries : List Entry) :
    (render entries).length = (entries.map fun e => e.rendered.length + 3).sum - 3 := by
  unfold render
  induction entries with
  | nil => rfl
  | cons e rest ih =>
    cases rest with
    | nil => simp
    | cons e' rest =>
      rw [map_cons, map_cons, intercalate_cons_cons, ← map_cons, length_append, length_append, ih]
      simp only [map_cons, sum_cons, ENTRY_DELIMITER, length_cons, length_nil]
      omega

/-- **Making room.**  A new entry is stored behind the fewest evictions that make room for it; it
is refused exactly where no number of them does. -/
theorem planAdd_makes_room {target : String} {text : List Char} {d : Durability} {stem : String}
    {existing : List Entry} (hnew : ∀ e ∈ existing, e.text ≠ text) :
    let candidate := existing ++ [⟨text, d⟩]
    let Fits := fun n => (render (dropOldest n candidate)).length ≤ effectiveBudget target d
    (planAdd target text d stem existing = .refused ↔ ∀ n, ¬Fits n) ∧
      ∀ stem' entries, planAdd target text d stem existing = .stores stem' entries ↔
        stem' = stem ∧ ∃ n, entries = dropOldest n candidate ∧ Fits n ∧ ∀ m < n, ¬Fits m := by
  intro candidate Fits
  have hany : (existing.any fun e => e.text = text) = false := by
    rw [any_eq_false]
    intro e he
    rw [decide_eq_true_eq]
    exact hnew e he
  obtain ⟨n, hkept, hbefore, hafter⟩ :=
    evictFrom_eq (effectiveBudget target d) candidate.length candidate (Nat.le_refl _)
  have hplan : planAdd target text d stem existing =
      if Fits n then .stores stem (dropOldest n candidate) else .refused := by
    unfold planAdd evictToFit
    rw [hany, if_neg Bool.false_ne_true]
    dsimp only
    rw [show existing ++ [⟨text, d⟩] = candidate from rfl, hkept]
    by_cases hfits : (render candidate).length ≤ effectiveBudget target d
    · obtain rfl : n = 0 := by
        by_contra hpos
        have hzero := hbefore 0 (Nat.pos_of_ne_zero hpos)
        rw [dropOldest_zero] at hzero
        omega
      simp only [Fits, dropOldest_zero, ite_self]
      rw [if_neg (Nat.not_lt.mpr hfits), if_pos hfits]
    · rw [if_pos (Nat.not_le.mp hfits)]
      by_cases hroom : Fits n
      · rw [if_pos hroom, if_neg (Nat.not_lt.mpr hroom)]
      · rw [if_neg hroom, if_pos (Nat.not_le.mp hroom)]
  have hnever : ¬Fits n → ∀ m, ¬Fits m := by
    intro hno m
    rcases Nat.lt_or_ge m n with hlt | hle
    · exact Nat.not_le.mpr (hbefore m hlt)
    · obtain ⟨k, rfl⟩ := Nat.exists_eq_add_of_le hle
      show ¬(render (dropOldest (n + k) candidate)).length ≤ _
      rw [dropOldest_spent (hafter.resolve_left hno)]
      exact hno
  rw [hplan]
  by_cases hroom : Fits n
  · rw [if_pos hroom]
    refine ⟨iff_of_false (nofun) fun h => h n hroom, fun stem' entries => ?_⟩
    constructor
    · intro h
      cases h
      exact ⟨rfl, n, rfl, hroom, fun m hm => Nat.not_le.mpr (hbefore m hm)⟩
    · rintro ⟨rfl, m, rfl, hfits, hfewer⟩
      rcases Nat.lt_trichotomy m n with hlt | rfl | hgt
      · exact absurd hfits (Nat.not_le.mpr (hbefore m hlt))
      · rfl
      · exact absurd hroom (hfewer n hgt)
  · rw [if_neg hroom]
    refine ⟨iff_of_true rfl (hnever hroom), fun stem' entries => iff_of_false (by rintro ⟨⟩) ?_⟩
    rintro ⟨-, m, -, hfits, -⟩
    exact hnever hroom m hfits

/-- The older of two long entries goes. -/
theorem planAdd_makes_room_second :
    planAdd "user" (replicate 700 'b') .untilChanged "USER" [⟨replicate 700 'a', .untilChanged⟩] =
      .stores "USER" [⟨replicate 700 'b', .untilChanged⟩] := by
  have hlength : ∀ c, (Entry.rendered ⟨replicate 700 c, .untilChanged⟩).length = 716 := by
    intro c
    have hmarker : (marker .untilChanged).length = 15 := by decide
    simp only [Entry.rendered, length_append, length_cons, length_replicate, hmarker]
  refine ((planAdd_makes_room ?_).2 _ _).mpr ⟨rfl, 1, rfl, ?_, fun m hm => ?_⟩
  · intro e he hsame
    obtain rfl := mem_singleton.mp he
    exact absurd (congrArg head? hsame) (by simp)
  · show (render [_]).length ≤ _
    rw [length_render, map_singleton, hlength]
    decide
  · obtain rfl := Nat.lt_one_iff.mp hm
    show ¬(render [_, _]).length ≤ _
    rw [length_render, map_cons, map_singleton, hlength, hlength]
    decide

/-! ## What is stored -/

/-- The entry is one that the call is to replace or remove. -/
def MemoryCall.Names (e : Entry) : MemoryCall → Prop
  | .replace _ oldText _ _ => strip oldText.toList <:+: e.text
  | .remove _ text => strip text.toList <:+: e.text
  | .add .. | .useAliases _ => False

def MemoryCall.target? : MemoryCall → Option String
  | .add target _ _ | .replace target _ _ _ | .remove target _ => some target
  | .useAliases _ => none

theorem length_render_sublist {entries rest : List Entry} (h : rest.Sublist entries) :
    (render rest).length ≤ (render entries).length := by
  rw [length_render, length_render]
  refine Nat.sub_le_sub_right ?_ 3
  induction h with
  | slnil => exact Nat.le_refl _
  | cons e _ ih =>
    rw [map_cons, sum_cons]
    omega
  | cons_cons e _ ih =>
    rw [map_cons, map_cons, sum_cons, sum_cons]
    omega

section
variable {path : String → Option String} {existing : String → List Entry} {call : MemoryCall}
  {stem : String} {entries : List Entry} {target : String} {d : Durability} {text : List Char}

theorem effectiveBudget_le (target : String) (d : Durability) :
    effectiveBudget target d ≤ budgetFor target := by
  cases d <;> simp only [effectiveBudget] <;> omega

/-- What an addition stores fits, and has the permanent entries that were there. -/
theorem planAdd_stores {stem' : String} {held : List Entry}
    (h : planAdd target text d stem held = .stores stem' entries) :
    stem' = stem ∧ (render entries).length ≤ budgetFor target ∧
      ∀ e ∈ held, e.durability = .permanent → e ∈ entries := by
  have hfits := effectiveBudget_le target d
  unfold planAdd evictToFit at h
  split at h
  · cases h
  dsimp only at h
  obtain ⟨n, hkept, -⟩ :=
    evictFrom_eq (effectiveBudget target d) _ (held ++ [⟨text, d⟩]) (Nat.le_refl _)
  rw [hkept] at h
  by_cases hlong : effectiveBudget target d < (render (held ++ [⟨text, d⟩])).length
  · rw [if_pos hlong] at h
    split at h
    · cases h
    · cases h
      exact ⟨rfl, by omega, fun e he hperm => mem_dropOldest (mem_append_left _ he) hperm⟩
  · rw [if_neg hlong, if_neg hlong] at h
    cases h
    exact ⟨rfl, by omega, fun e he _ => mem_append_left _ he⟩

/-- **What a call does to a file**: it fits the budget of its target, or is part of what was
there; and a permanent entry that the call does not name stays. -/
theorem plan_stores (h : plan path existing call = .stores stem entries) :
    ∃ target, call.target? = some target ∧ path target = some stem ∧
      ((render entries).length ≤ budgetFor target ∨ entries.Sublist (existing stem)) ∧
      ∀ e ∈ existing stem, e.durability = .permanent → ¬call.Names e → e ∈ entries := by
  cases call with
  | add target text durability =>
    rw [plan] at h
    split at h
    · rename_i hpath
      obtain ⟨rfl, hfits, hstays⟩ := planAdd_stores h
      exact ⟨target, rfl, hpath, .inl hfits, fun e he hperm _ => hstays e he hperm⟩
    · cases h
  | replace target oldText newText durability =>
    rw [plan] at h
    split at h
    · rename_i d stem' _ hpath
      rw [planReplace] at h
      split at h
      · cases h
      rename_i i hi
      dsimp only at h
      split at h
      · cases h
      cases h
      have hfits := effectiveBudget_le target d
      refine ⟨target, rfl, hpath, .inl (by omega), fun e he _ hnames => ?_⟩
      obtain ⟨hlt, hfound, -⟩ := findIdx?_eq_some_iff_getElem.mp hi
      obtain ⟨j, hj, rfl⟩ := getElem_of_mem he
      have hne : i ≠ j := by
        rintro rfl
        rw [decide_eq_true_eq] at hfound
        exact hnames hfound
      exact mem_of_getElem? (by rw [getElem?_set_ne hne, getElem?_eq_getElem hj])
    · cases h
  | remove target text =>
    rw [plan] at h
    split at h
    · rename_i hpath
      rw [planRemove] at h
      split at h
      · cases h
      cases h
      refine ⟨target, rfl, hpath, .inr filter_sublist, fun e he _ hnames => mem_filter.mpr ⟨he, ?_⟩⟩
      simpa [MemoryCall.Names] using hnames
    · cases h
  | useAliases aliases => cases h

end

/-! ## Runs -/

section
variable {casefold : String → String} {m : CuratedMemory (List Entry)}

theorem entriesAt_put (m : CuratedMemory (List Entry)) (stem stem' : String)
    (entries : List Entry) :
    (m.put stem entries).entriesAt listFormat stem' =
      if stem' = stem then entries else m.entriesAt listFormat stem' := by
  split
  · rename_i hstem
    unfold CuratedMemory.entriesAt
    rw [hstem, lookup_put]
    rfl
  · rename_i hstem
    have hother : (m.put stem entries).files.lookup stem' = m.files.lookup stem' := by
      unfold CuratedMemory.put
      generalize m.files = files
      split
      · rename_i hthere
        clear hthere
        dsimp only
        induction files with
        | nil => rfl
        | cons file files ih =>
          rw [map_cons, lookup_cons, lookup_cons, ih]
          by_cases hfile : file.1 = stem
          · have hne : (stem' == stem) = false := beq_eq_false_iff_ne.mpr hstem
            rw [if_pos hfile, hfile, hne]
          · rw [if_neg hfile]
      · have hne : (stem' == stem) = false := beq_eq_false_iff_ne.mpr hstem
        rw [lookup_append, lookup_cons, hne, lookup_nil, Option.or_none]
    unfold CuratedMemory.entriesAt
    rw [hother]

/-- A call writes one file, or none. -/
theorem step_entriesAt (call : MemoryCall) (stem : String) :
    (m.step casefold listFormat call).entriesAt listFormat stem = m.entriesAt listFormat stem ∨
      plan (m.pathFor casefold) (m.entriesAt listFormat) call =
        .stores stem ((m.step casefold listFormat call).entriesAt listFormat stem) := by
  cases call with
  | useAliases aliases => exact .inl rfl
  | add | replace | remove =>
    simp only [CuratedMemory.step]
    cases hcomes : m.verdict casefold listFormat _ with
    | stores stem' entries =>
      dsimp only
      rw [entriesAt_put]
      split
      · rename_i hstem
        rw [hstem]
        exact .inr hcomes
      · exact .inl rfl
    | present | refused => exact .inl rfl

/-- Every text that the call stores is one that a file gives back. -/
def StoresCleanText (casefold : String → String) (m : CuratedMemory (List Char))
    (call : MemoryCall) : Prop :=
  ∀ stem entries, m.verdict casefold textFormat call = .stores stem entries →
    ∀ text ∈ call.contained?, Clean text

/-- The files are written of clean entries. -/
def Written (m : CuratedMemory (List Char)) : Prop := ∃ plain, Kept (m, plain)

theorem written_noFiles (aliases : List (String × String)) : Written ⟨aliases, []⟩ :=
  ⟨_, kept_noFiles aliases⟩

variable {file : CuratedMemory (List Char)} {stem : String}

/-- A call that stores a clean text writes what its plan is, on what the files give back. -/
theorem Written.step (h : Written file) {call : MemoryCall}
    (hclean : StoresCleanText casefold file call) :
    Written (file.step casefold textFormat call) ∧
      ∀ stem, (file.step casefold textFormat call).entriesAt textFormat stem =
          file.entriesAt textFormat stem ∨
        plan (file.pathFor casefold) (file.entriesAt textFormat) call =
          .stores stem ((file.step casefold textFormat call).entriesAt textFormat stem) := by
  obtain ⟨plain, hkept⟩ := h
  have hnext : Kept (twinStep casefold (file, plain) call) := hkept.step hclean
  have hread : (file.step casefold textFormat call).entriesAt textFormat =
      (plain.step casefold listFormat call).entriesAt listFormat := hnext.entriesAt
  have hhere : file.entriesAt textFormat = plain.entriesAt listFormat := hkept.entriesAt
  have hpath : file.pathFor casefold = plain.pathFor casefold := hkept.pathFor
  refine ⟨⟨_, hnext⟩, fun stem => ?_⟩
  rw [hread, hhere, hpath]
  exact step_entriesAt call stem

end

section
variable {casefold : String → String} {file : CuratedMemory (List Char)} {stem : String}

/-- A file is within a budget as long as every target that comes to it has no larger one. -/
theorem within_step {budget : Nat} {call : MemoryCall} (hwritten : Written file)
    (hclean : StoresCleanText casefold file call)
    (h : (render (file.entriesAt textFormat stem)).length ≤ budget)
    (hcall : ∀ target ∈ call.target?, file.pathFor casefold target = some stem →
      budgetFor target ≤ budget) :
    (render ((file.step casefold textFormat call).entriesAt textFormat stem)).length ≤
      budget := by
  rcases (hwritten.step hclean).2 stem with hsame | hstores
  · rw [hsame]
    exact h
  · obtain ⟨target, htarget, hpath, hfits, -⟩ := plan_stores hstores
    rcases hfits with hfits | hpart
    · exact hfits.trans (hcall target htarget hpath)
    · exact (length_render_sublist hpart).trans h

/-- **Budgets** over every run that stores clean texts: no file outgrows the larger of the two;
the file of the user outgrows its own only through another target whose name comes to it. -/
theorem budgets_kept (casefold : String → String) (aliases : List (String × String))
    (calls : List MemoryCall)
    (hclean : Meets (CuratedMemory.step casefold textFormat) (StoresCleanText casefold)
      ⟨aliases, []⟩ calls) :
    Along (CuratedMemory.step casefold textFormat)
        (fun file => ∀ stem, (render (file.entriesAt textFormat stem)).length ≤ OWL_BUDGET_CHARS)
        ⟨aliases, []⟩ calls ∧
      (Meets (CuratedMemory.step casefold textFormat)
          (fun file call => ∀ target ∈ call.target?,
            file.pathFor casefold target = some "USER" → target = USER_TARGET)
          ⟨aliases, []⟩ calls →
        Along (CuratedMemory.step casefold textFormat)
          (fun file => (render (file.entriesAt textFormat "USER")).length ≤ USER_BUDGET_CHARS)
          ⟨aliases, []⟩ calls) := by
  have hlarger : ∀ target, budgetFor target ≤ OWL_BUDGET_CHARS := by
    intro target
    unfold budgetFor
    split <;> decide
  constructor
  · refine (along_of_meets (I := fun file => Written file ∧
        ∀ stem, (render (file.entriesAt textFormat stem)).length ≤ OWL_BUDGET_CHARS)
      (fun file call h hclean => ⟨(h.1.step hclean).1, fun stem => ?_⟩)
      ⟨written_noFiles aliases, fun _ => Nat.zero_le _⟩ hclean).mono fun _ h => h.2
    exact within_step h.1 hclean (h.2 stem) fun target _ _ => hlarger target
  · intro huser
    refine (along_of_meets (I := fun file => Written file ∧
        (render (file.entriesAt textFormat "USER")).length ≤ USER_BUDGET_CHARS)
      (fun file call h hstep => ⟨(h.1.step hstep.1).1, ?_⟩)
      ⟨written_noFiles aliases, Nat.zero_le _⟩ (meets_and.mpr ⟨hclean, huser⟩)).mono fun _ h => h.2
    refine within_step h.1 hstep.1 h.2 fun target htarget hpath => ?_
    rw [hstep.2 target htarget hpath]
    exact Nat.le_refl _

end

theorem budgets_kept_added :
    let calls : List MemoryCall :=
      [.add "user" "a" "until_changed", .replace "user" "a" "b" "permanent"]
    Along (CuratedMemory.step id textFormat)
      (fun file => (render (file.entriesAt textFormat "USER")).length ≤ USER_BUDGET_CHARS)
      ⟨[], []⟩ calls := by
  intro calls
  refine (budgets_kept id [] calls ⟨?_, ?_, trivial⟩).2 ⟨?_, ?_, trivial⟩
  · rintro _ _ _ text ⟨⟩
    decide
  · rintro _ _ _ text ⟨⟩
    decide
  · rintro target ⟨⟩ _
    rfl
  · rintro target ⟨⟩ _
    rfl

end StackOwl.Memory
