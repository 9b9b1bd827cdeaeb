import Mathlib

/-!
# Windows of an increasing log

The entries of a strictly increasing log that lie above one bound and up to another,
and what moving the upper bound does to them.

## Main results

* `window_split` — a window is cut in two at any bound between its own.
* `window_next_iff` — moving the upper bound up to an entry adds that entry alone exactly
  when it is the next one.
* `filterMap_set_perm` — the values of a list of cells when one cell changes.
-/

namespace StackOwl.Lib

open List

variable {α : Type*} [LinearOrder α]

/-- The entries above `lo` and up to `hi`. -/
def window (log : List α) (lo hi : α) : List α :=
  log.filter (fun c => lo < c ∧ c ≤ hi)

variable {log : List α} {lo hi c : α}

theorem mem_window :
    c ∈ window log lo hi ↔ c ∈ log ∧ lo < c ∧ c ≤ hi := by
  simp [window]

theorem window_eq_nil (h : ∀ c ∈ log, lo < c → hi < c) :
    window log lo hi = [] := by
  refine eq_nil_iff_forall_not_mem.mpr fun c hc => ?_
  obtain ⟨hmem, hlo, hhi⟩ := mem_window.mp hc
  exact absurd hhi (not_le.mpr (h c hmem hlo))

theorem window_cons (a : α) (log : List α) (lo hi : α) :
    window (a :: log) lo hi =
      if lo < a ∧ a ≤ hi then a :: window log lo hi else window log lo hi := by
  simp only [window, filter_cons, decide_eq_true_eq]

variable {mid : α}

/-- A window is cut in two at any bound between its own. -/
theorem window_split (hlog : log.Pairwise (· < ·)) (hlo : lo ≤ mid) (hhi : mid ≤ hi) :
    window log lo hi = window log lo mid ++ window log mid hi := by
  induction log with
  | nil => rfl
  | cons a log ih =>
    obtain ⟨hfirst, hrest⟩ := pairwise_cons.mp hlog
    have htail := ih hrest
    simp only [window_cons]
    by_cases hmid : a ≤ mid
    · have hupper : ¬(mid < a ∧ a ≤ hi) := fun h => absurd h.1 (not_lt.mpr hmid)
      by_cases halo : lo < a
      · rw [if_pos ⟨halo, hmid.trans hhi⟩, if_pos ⟨halo, hmid⟩, if_neg hupper, htail,
          cons_append]
      · rw [if_neg fun h => halo h.1, if_neg fun h => halo h.1, if_neg hupper, htail]
    · have hamid : mid < a := not_le.mp hmid
      have hnone : window log lo mid = [] :=
        window_eq_nil fun c hc _ => hamid.trans (hfirst c hc)
      rw [hnone, nil_append] at htail
      rw [if_neg fun h : lo < a ∧ a ≤ mid => hmid h.2, hnone, htail, nil_append]
      by_cases hahi : a ≤ hi
      · rw [if_pos ⟨lt_of_le_of_lt hlo hamid, hahi⟩, if_pos ⟨hamid, hahi⟩]
      · rw [if_neg fun h => hahi h.2, if_neg fun h => hahi h.2]

/-- The first entry above a bound. -/
def IsNext (log : List α) (lo c : α) : Prop :=
  c ∈ log ∧ lo < c ∧ ∀ d ∈ log, lo < d → c ≤ d

theorem window_next (hlog : log.Pairwise (· < ·)) (h : IsNext log lo c) :
    window log lo c = [c] := by
  have hnodup : (window log lo c).Nodup := (hlog.imp ne_of_lt).filter _
  refine perm_singleton.mp ((perm_ext_iff_of_nodup hnodup (by simp)).mpr ?_)
  intro d
  rw [mem_window, mem_singleton]
  constructor
  · rintro ⟨hd, hlo, hle⟩
    exact le_antisymm hle (h.2.2 d hd hlo)
  · rintro rfl
    exact ⟨h.1, h.2.1, le_rfl⟩

/-- Moving the upper bound to an entry adds one entry exactly when it is the next
one. -/
theorem window_next_iff (hlog : log.Pairwise (· < ·)) (hlo : lo ≤ mid) (hc : c ∈ log)
    (hlc : lo < c) :
    (window log lo c).length = (window log lo mid).length + 1 ↔ IsNext log mid c := by
  constructor
  · intro hlength
    have hmid : mid < c := by
      by_contra hle
      have hsplit := window_split hlog hlc.le (not_lt.mp hle)
      rw [hsplit, length_append] at hlength
      omega
    rw [window_split hlog hlo hmid.le, length_append] at hlength
    obtain ⟨d, hd⟩ := length_eq_one_iff.mp (Nat.add_left_cancel hlength)
    have hcd : c = d := by
      simpa [hd] using mem_window.mpr ⟨hc, hmid, le_refl c⟩
    refine ⟨hc, hmid, fun e he hme => ?_⟩
    by_contra hec
    have hed : e = d := by
      simpa [hd] using mem_window.mpr ⟨he, hme, (not_le.mp hec).le⟩
    exact hec (hcd.trans hed.symm).le
  · intro hnext
    rw [window_split hlog hlo hnext.2.1.le, window_next hlog hnext, length_append,
      length_singleton]

/-- Two upper bounds that are entries, or the lower bound, see as many entries only
when they are the same. -/
theorem window_length_eq_iff (hlog : log.Pairwise (· < ·)) (hmid : lo = mid ∨ lo < mid ∧ mid ∈ log)
    (hc : c ∈ log) (hlc : lo < c) :
    (window log lo c).length = (window log lo mid).length ↔ c = mid := by
  have hlm : lo ≤ mid := hmid.elim le_of_eq fun h => h.1.le
  constructor
  · intro hlength
    rcases lt_trichotomy c mid with hlt | heq | hgt
    · have hin : mid ∈ window log c mid := by
        rcases hmid with rfl | ⟨-, hmem⟩
        · exact absurd hlt (not_lt.mpr hlc.le)
        · exact mem_window.mpr ⟨hmem, hlt, le_rfl⟩
      rw [window_split hlog hlc.le hlt.le, length_append] at hlength
      have hpos := length_pos_of_mem hin
      omega
    · exact heq
    · have hin : c ∈ window log mid c := mem_window.mpr ⟨hc, hgt, le_rfl⟩
      rw [window_split hlog hlm hgt.le, length_append] at hlength
      have hpos := length_pos_of_mem hin
      omega
  · rintro rfl
    rfl

/-- Appending above the upper bound adds nothing. -/
theorem window_append_of_lt (h : hi < c) :
    window (log ++ [c]) lo hi = window log lo hi := by
  simp [window, filter_append, not_le.mpr h]

omit [LinearOrder α] in
theorem filterMap_set_perm {β : Type*} {f : α → Option β} {l : List α} {i : Nat}
    {old : α} (new : α) (h : l[i]? = some old) :
    ((f old).toList ++ (l.set i new).filterMap f).Perm
      ((f new).toList ++ l.filterMap f) := by
  induction l generalizing i with
  | nil => cases h
  | cons a l ih =>
    cases i with
    | zero =>
      obtain rfl := Option.some.inj h
      simp only [set_cons_zero, filterMap_cons]
      cases f new <;> cases f a <;> simp [List.Perm.swap]
    | succ i =>
      have hrest := ih (i := i) h
      simp only [set_cons_succ, filterMap_cons]
      cases f a with
      | none => exact hrest
      | some b =>
        exact perm_middle.trans ((hrest.cons b).trans perm_middle.symm)

end StackOwl.Lib
