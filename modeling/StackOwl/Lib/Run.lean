import Mathlib.Data.List.Basic

/-!
# Runs of a deterministic step function

A system is a state type `σ`, an operation type `α` and a total step function
`σ → α → σ`.  A run is a list of operations.  This module has the ways
the rest of the development talks about runs:

* `Meets step G s as` — every operation of the run meets `G` in the state it
  is issued in (a condition on inputs and on the state *before* a step);
* `Sometime step G s as` — some operation of the run does;
* `Along step P s as` — `P` holds in every state the run reaches, the first and
  the last included;
* `Until step P Q s as` — `P` holds from the first state on, until a state with
  `Q` is reached, if one is (weak until);
* `tally step w s as` — the sum of a per-step weight, for counting events and
  transitions over a run;
* `Via step P s s'` — a run of operations with `P` leads from `s` to `s'`: what a
  composite operation does, without naming its operations;
* `watch step note` — the system beside an observer, who keeps notes of what has
  happened and changes nothing.

## Main results

* `along_of_meets` — an invariant kept by every step that meets `G` holds
  along every run that meets `G`.
* `meets_of_inv` — what an invariant gives about one step holds of every step.
* `along_iff_meets`, `along_iff_meets_of_meets` — where a condition on steps decides
  whether a fact is kept, it holds along exactly the runs that meet it.
* `Via.inv` — an invariant kept by every operation with `P` is kept by every
  composite of them.
* `add_tally_of_step` — a measure that moves by exactly the weight of each step
  moves by the tally over a run.
* `tally_add_le_of_step` — a measure that pays for the weight of each step
  bounds the tally.
-/

namespace StackOwl.Lib

variable {σ α : Type*} {step : σ → α → σ}

def run (step : σ → α → σ) : σ → List α → σ
  | s, [] => s
  | s, a :: as => run step (step s a) as

/-- Every operation of the run meets `G` in the state it is issued in. -/
def Meets (step : σ → α → σ) (G : σ → α → Prop) : σ → List α → Prop
  | _, [] => True
  | s, a :: as => G s a ∧ Meets step G (step s a) as

/-- Whether a run meets `G` is found by going through it. -/
instance Meets.decidable {G : σ → α → Prop} [∀ s a, Decidable (G s a)] :
    ∀ s as, Decidable (Meets step G s as)
  | _, [] => isTrue trivial
  | s, a :: as =>
    have : Decidable (Meets step G (step s a) as) := Meets.decidable (step s a) as
    inferInstanceAs (Decidable (G s a ∧ Meets step G (step s a) as))

/-- Some operation of the run meets `G` in the state it is issued in. -/
def Sometime (step : σ → α → σ) (G : σ → α → Prop) : σ → List α → Prop
  | _, [] => False
  | s, a :: as => G s a ∨ Sometime step G (step s a) as

/-- `P` holds in every state the run reaches, the first one included. -/
def Along (step : σ → α → σ) (P : σ → Prop) : σ → List α → Prop
  | s, [] => P s
  | s, a :: as => P s ∧ Along step P (step s a) as

/-- `P` holds in every state the run reaches before the first one with `Q`. -/
def Until (step : σ → α → σ) (P Q : σ → Prop) : σ → List α → Prop
  | s, [] => Q s ∨ P s
  | s, a :: as => Q s ∨ P s ∧ Until step P Q (step s a) as

/-- The sum over the run of the weight `w` of each step. -/
def tally (step : σ → α → σ) (w : σ → α → Nat) : σ → List α → Nat
  | _, [] => 0
  | s, a :: as => w s a + tally step w (step s a) as

/-- A run of operations that satisfy `P` leads from `s` to `s'`. -/
def Via (step : σ → α → σ) (P : α → Prop) (s s' : σ) : Prop :=
  ∃ as, (∀ a ∈ as, P a) ∧ run step s as = s'

/-- The system and its observer, who notes what each operation does where it is
issued. -/
def watch {γ : Type*} (step : σ → α → σ) (note : σ → γ → α → γ) (s : σ × γ) (a : α) :
    σ × γ :=
  (step s.1 a, note s.1 s.2 a)

variable {a : α}

theorem mem_snoc {b : α} {as : List α} : b ∈ as ++ [a] ↔ b ∈ as ∨ b = a := by
  rw [List.mem_append, List.mem_singleton]

/-! ## Splitting a run -/

theorem run_append (s : σ) (as bs : List α) :
    run step s (as ++ bs) = run step (run step s as) bs := by
  induction as generalizing s with
  | nil => rfl
  | cons a as ih => exact ih (step s a)

variable {G : σ → α → Prop}

theorem meets_append (s : σ) (as bs : List α) :
    Meets step G s (as ++ bs) ↔
      Meets step G s as ∧ Meets step G (run step s as) bs := by
  induction as generalizing s with
  | nil => simp [Meets, run]
  | cons a as ih => simp only [List.cons_append, Meets, run, ih, and_assoc]

theorem not_sometime_iff (s : σ) (as : List α) :
    ¬ Sometime step G s as ↔ Meets step (fun s a => ¬ G s a) s as := by
  induction as generalizing s with
  | nil => simp [Sometime, Meets]
  | cons a as ih => simp only [Sometime, Meets, not_or, ih]

variable {as : List α} {s : σ}

theorem Along.last {P : σ → Prop} (h : Along step P s as) : P (run step s as) := by
  induction as generalizing s with
  | nil => exact h
  | cons a as ih => exact ih h.2

theorem Along.first {P : σ → Prop} (h : Along step P s as) : P s := by
  cases as with
  | nil => exact h
  | cons a as => exact h.1

theorem Along.reached {P : σ → Prop} {bs : List α} (h : Along step P s (as ++ bs)) :
    P (run step s as) := by
  induction as generalizing s with
  | nil => exact h.first
  | cons a as ih => exact ih h.2

theorem Along.mono {P Q : σ → Prop} (hPQ : ∀ s, P s → Q s) (h : Along step P s as) :
    Along step Q s as := by
  induction as generalizing s with
  | nil => exact hPQ s h
  | cons a as ih => exact ⟨hPQ s h.1, ih h.2⟩

/-! ## Invariants -/

variable {I : σ → Prop}

/-- **The invariant rule.**  An invariant kept by every step that meets `G`
holds in every state reached by a run that meets `G`. -/
theorem along_of_meets (hstep : ∀ s a, I s → G s a → I (step s a)) (hs : I s)
    (h : Meets step G s as) : Along step I s as := by
  induction as generalizing s with
  | nil => exact hs
  | cons a as ih => exact ⟨hs, ih (hstep s a hs h.1) h.2⟩

theorem along_of_inv (hstep : ∀ s a, I s → I (step s a)) (hs : I s) (as : List α) :
    Along step I s as := by
  induction as generalizing s with
  | nil => exact hs
  | cons a as ih => exact ⟨hs, ih (hstep s a hs)⟩

/-- What an invariant gives about one step holds of every step of a run. -/
theorem meets_of_inv {I : σ → Prop} {H : σ → α → Prop}
    (hstep : ∀ s a, I s → I (step s a)) (hH : ∀ s a, I s → H s a) {s : σ}
    (hs : I s) (as : List α) : Meets step H s as := by
  induction as generalizing s with
  | nil => trivial
  | cons a as ih => exact ⟨hH s a hs, ih (hstep s a hs)⟩

/-- Over a run that meets `D`, a condition on steps that decides whether `P` is kept,
wherever an invariant holds, is met exactly where `P` holds along the run. -/
theorem along_iff_meets_of_meets {I P : σ → Prop} {D G : σ → α → Prop}
    (hinv : ∀ s a, I s → D s a → I (step s a))
    (hstep : ∀ s a, I s → D s a → P s → (P (step s a) ↔ G s a)) (hI : I s) (hP : P s)
    (hD : Meets step D s as) :
    Along step P s as ↔ Meets step G s as := by
  induction as generalizing s with
  | nil => exact iff_of_true hP trivial
  | cons a as ih =>
    simp only [Along, Meets]
    have hnext := hstep s a hI hD.1 hP
    constructor
    · rintro ⟨-, hrest⟩
      have hkept : P (step s a) := hrest.first
      exact ⟨hnext.mp hkept, (ih (hinv s a hI hD.1) hkept hD.2).mp hrest⟩
    · rintro ⟨hG, hrest⟩
      have hkept := hnext.mpr hG
      exact ⟨hP, (ih (hinv s a hI hD.1) hkept hD.2).mpr hrest⟩

theorem along_iff_meets_of_inv {I P : σ → Prop} (hinv : ∀ s a, I s → I (step s a))
    (hstep : ∀ s a, I s → P s → (P (step s a) ↔ G s a)) (hI : I s) (hP : P s) (as : List α) :
    Along step P s as ↔ Meets step G s as :=
  along_iff_meets_of_meets (D := fun _ _ => True) (fun s a h _ => hinv s a h)
    (fun s a h _ => hstep s a h) hI hP (meets_of_inv hinv (fun _ _ _ => trivial) hI as)

/-- A condition on steps that keeps an invariant, which gives `P`, and without which a step ends
outside `P`, is met exactly where `P` holds along the run. -/
theorem along_iff_meets_of_kept {I P : σ → Prop} (hI : ∀ s, I s → P s)
    (hkept : ∀ s a, I s → G s a → I (step s a)) (hneeded : ∀ s a, I s → P (step s a) → G s a)
    (hs : I s) (as : List α) :
    Along step P s as ↔ Meets step G s as := by
  constructor
  · intro h
    induction as generalizing s with
    | nil => trivial
    | cons a as ih =>
      have hG := hneeded s a hs h.2.first
      exact ⟨hG, ih (hkept s a hs hG) h.2⟩
  · exact fun h => (along_of_meets hkept hs h).mono hI

variable {P : α → Prop}

/-- A condition on operations alone that all of them meet is met by the run. -/
theorem meets_of_forall (h : ∀ a ∈ as, P a) :
    Meets step (fun _ a => P a) s as := by
  induction as generalizing s with
  | nil => trivial
  | cons a as ih =>
    exact ⟨h a List.mem_cons_self, ih fun b hb => h b (List.mem_cons_of_mem a hb)⟩

/-- Two conditions on a step that agree wherever the invariant holds are met by
the same runs. -/
theorem meets_congr_of_inv {G H : σ → α → Prop} (hstep : ∀ s a, I s → I (step s a))
    (hGH : ∀ s a, I s → (G s a ↔ H s a)) (hs : I s) (as : List α) :
    Meets step G s as ↔ Meets step H s as := by
  induction as generalizing s with
  | nil => exact Iff.rfl
  | cons a as ih => exact and_congr (hGH s a hs) (ih (hstep s a hs))

/-- The same for an invariant that steps with `D` keep, in a run of such steps. -/
theorem meets_congr_of_meets {D G H : σ → α → Prop} (hstep : ∀ s a, I s → D s a → I (step s a))
    (hGH : ∀ s a, I s → D s a → (G s a ↔ H s a)) (hs : I s) (hD : Meets step D s as) :
    Meets step G s as ↔ Meets step H s as := by
  induction as generalizing s with
  | nil => exact Iff.rfl
  | cons a as ih => exact and_congr (hGH s a hs hD.1) (ih (hstep s a hs hD.1) hD.2)

/-- Two conditions are met by a run where both are met by each of its steps. -/
theorem meets_and {G H : σ → α → Prop} :
    Meets step (fun s a => G s a ∧ H s a) s as ↔ Meets step G s as ∧ Meets step H s as := by
  induction as generalizing s with
  | nil => simp [Meets]
  | cons a as ih => simp only [Meets, ih, and_and_and_comm]

/-- What the invariant and `G` give about one step holds of every step of a run
that meets `G`. -/
theorem meets_of_meets {G H : σ → α → Prop} (hstep : ∀ s a, I s → G s a → I (step s a))
    (hH : ∀ s a, I s → G s a → H s a) (hs : I s) (h : Meets step G s as) : Meets step H s as := by
  induction as generalizing s with
  | nil => trivial
  | cons a as ih => exact ⟨hH s a hs h.1, ih (hstep s a hs h.1) h.2⟩

/-- Every operation of a run that meets `G` was issued in some state with the
invariant, and met `G` there. -/
theorem exists_of_mem_meets (hstep : ∀ s a, I s → G s a → I (step s a)) (hs : I s)
    (h : Meets step G s as) (ha : a ∈ as) :
    ∃ s', I s' ∧ G s' a := by
  induction as generalizing s with
  | nil => cases ha
  | cons b as ih =>
    rcases List.mem_cons.mp ha with rfl | hrest
    · exact ⟨s, hs, h.1⟩
    · exact ih (hstep s b hs h.1) h.2 hrest

/-- A fact that every step meeting `G` keeps, or gives up for `Q`, holds until
`Q` does. -/
theorem until_of_meets {P Q : σ → Prop} (hstep : ∀ s a, P s → G s a → P (step s a) ∨ Q (step s a))
    (hs : P s ∨ Q s) (h : Meets step G s as) :
    Until step P Q s as := by
  induction as generalizing s with
  | nil => exact hs.symm
  | cons a as ih =>
    rcases hs with hP | hQ
    · exact Or.inr ⟨hP, ih (hstep s a hP h.1) h.2⟩
    · exact Or.inl hQ

theorem Until.mono {P P' Q : σ → Prop} (hP : ∀ s, P s → P' s) (h : Until step P Q s as) :
    Until step P' Q s as := by
  induction as generalizing s with
  | nil => exact h.imp id (hP s)
  | cons a as ih => exact h.imp id (And.imp (hP s) ih)

/-! ## Composite operations -/

theorem Via.refl (P : α → Prop) (s : σ) : Via step P s s :=
  ⟨[], fun _ ha => absurd ha List.not_mem_nil, rfl⟩

variable {s' : σ}

theorem Via.single (h : step s a = s') (ha : P a) : Via step P s s' :=
  ⟨[a], fun _ hb => List.mem_singleton.mp hb ▸ ha, h⟩

theorem Via.trans {s'' : σ} (h : Via step P s s') (h' : Via step P s' s'') :
    Via step P s s'' := by
  obtain ⟨as, has, rfl⟩ := h
  obtain ⟨bs, hbs, rfl⟩ := h'
  refine ⟨as ++ bs, fun a ha => ?_, run_append s as bs⟩
  exact (List.mem_append.mp ha).elim (has a) (hbs a)

theorem Via.mono {P Q : α → Prop} (hPQ : ∀ a, P a → Q a) (h : Via step P s s')
    : Via step Q s s' := by
  obtain ⟨as, has, hrun⟩ := h
  exact ⟨as, fun a ha => hPQ a (has a ha), hrun⟩

theorem Via.inv (h : Via step P s s') (hstep : ∀ s a, I s → P a → I (step s a)) (hs : I s)
    : I s' := by
  obtain ⟨as, has, rfl⟩ := h
  induction as generalizing s with
  | nil => exact hs
  | cons a as ih =>
    have hhead := hstep s a hs (has a List.mem_cons_self)
    exact ih hhead (fun b hb => has b (List.mem_cons_of_mem _ hb))

/-! ## Counting -/

variable {m : σ → Nat} {w : σ → α → Nat}

/-- A measure that moves by exactly the weight of each step moves by the tally
over the run. -/
theorem add_tally_of_step (hstep : ∀ s a, G s a → m (step s a) = m s + w s a)
    (h : Meets step G s as) :
    m (run step s as) = m s + tally step w s as := by
  induction as generalizing s with
  | nil => rfl
  | cons a as ih =>
    simp only [run, tally, ih h.2, hstep s a h.1, Nat.add_assoc]

/-- A measure that pays for the weight of each step bounds the tally. -/
theorem tally_add_le_of_step (hinv : ∀ s a, I s → I (step s a))
    (hstep : ∀ s a, I s → w s a + m (step s a) ≤ m s) (hs : I s) (as : List α) :
    tally step w s as + m (run step s as) ≤ m s := by
  induction as generalizing s with
  | nil => simp [tally, run]
  | cons a as ih =>
    have hhead := hstep s a hs
    have htail := ih (hinv s a hs)
    simp only [tally, run]
    omega

end StackOwl.Lib
