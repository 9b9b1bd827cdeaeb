import Mathlib.Data.Finset.Sort
import Mathlib.Data.Rat.Init
import Mathlib.Data.String.Basic
import Mathlib.Order.Lattice

/-!
# Bounds and their narrowing

`BoundsSpec` and its `intersect` (`authz/bounds.py`), `effective_bounds` and
`check_effective_bounds` (`authz/bounds_guard.py`), and the two functions that
compose the bounds of a turn (`pipeline/authz_compose.py`): `child_floor`, which a
spawned child carries as its ceiling, and `compute_effective_bounds`, which the
dispatch seam enforces.

An allowlist of tools is absent (unrestricted), empty (nothing at all) or a finite
set.  What it means is the set of tools it permits; `permits_effectiveBounds` is
the meaning of the whole composition.

A registry that raises anything but `OwlNotFoundError` denies the dispatch at its
caller and is left out.

## Main results

* `permits_effectiveBounds` — a composition permits what every term of it permits.
* `checkEffectiveBounds_eq_none` — the dispatch goes on exactly for a permitted tool.
-/

namespace StackOwl.Authz

/-! ## The closed enumeration of bounds -/

/-- `NetworkRule`: one entry of the egress allowlist, `none` for a wildcard. -/
structure NetworkRule where
  host : String
  port : Option Int := none
  scheme : Option String := none

/-- `ResourceCaps`: the ceilings of a run, all absent by default. -/
structure ResourceCaps where
  maxCostUsd : Option ℚ := none
  maxTimeS : Option ℚ := none
  maxSteps : Option Int := none
  maxConcurrency : Option Int := none
  maxInputTokens : Option Int := none

/-- `BoundsSpec`: `none` on an axis is unrestricted. -/
structure BoundsSpec where
  tools : Option (Finset String) := none
  fsReadRoots : Option (List String) := none
  fsWriteRoots : Option (List String) := none
  network : Option (List NetworkRule) := none
  dataOwnerId : Option String := none
  dataNamespaces : Option (List String) := none
  caps : ResourceCaps := {}

/-- `BoundsSpec.intersect`: the tools axis is met, every other axis keeps `self`. -/
def BoundsSpec.intersect (self other : BoundsSpec) : BoundsSpec :=
  let tools :=
    match self.tools, other.tools with
    | none, theirs => theirs
    | some mine, none => some mine
    | some mine, some theirs => some (mine ∩ theirs)
  { self with tools }

def BoundsSpec.permitsTool (self : BoundsSpec) (toolName : String) : Bool :=
  match self.tools with
  | none => true
  | some tools => toolName ∈ tools

@[simp] theorem BoundsSpec.permitsTool_intersect (self other : BoundsSpec)
    (tool : String) :
    (self.intersect other).permitsTool tool =
      (self.permitsTool tool && other.permitsTool tool) := by
  unfold intersect permitsTool
  cases self.tools with
  | none => rfl
  | some mine =>
    cases other.tools with
    | none => simp
    | some theirs => simp [Finset.mem_inter]

/-! ## Composition -/

/-- One more term of the fold: an absent term never widens. -/
def narrow (acc spec : Option BoundsSpec) : Option BoundsSpec :=
  match spec with
  | none => acc
  | some s =>
    match acc with
    | none => some s
    | some a => some (a.intersect s)

/-- `effective_bounds`: the defined terms intersected from left to right. -/
def effectiveBounds (specs : List (Option BoundsSpec)) : Option BoundsSpec :=
  specs.foldl narrow none

def permits (effective : Option BoundsSpec) (tool : String) : Bool :=
  match effective with
  | none => true
  | some spec => spec.permitsTool tool

@[simp] theorem permits_none (tool : String) : permits none tool = true := rfl

@[simp] theorem permits_narrow (acc spec : Option BoundsSpec) (tool : String) :
    permits (narrow acc spec) tool = (permits acc tool && permits spec tool) := by
  cases spec with
  | none => simp [narrow]
  | some s =>
    cases acc with
    | none => simp [narrow]
    | some a => exact a.permitsTool_intersect s tool

/-- Every defined term can only tighten. -/
theorem permits_effectiveBounds (specs : List (Option BoundsSpec)) (tool : String) :
    permits (effectiveBounds specs) tool = specs.all fun spec => permits spec tool := by
  have fold : ∀ acc, permits (specs.foldl narrow acc) tool =
      (permits acc tool && specs.all fun spec => permits spec tool) := by
    induction specs with
    | nil => simp
    | cons spec specs ih => intro acc; simp [ih, Bool.and_assoc]
  show permits (specs.foldl narrow none) tool = _
  rw [fold]
  simp

def toolsAxis (effective : Option BoundsSpec) : Option (Finset String) :=
  effective.bind (·.tools)

theorem permits_eq (effective : Option BoundsSpec) (tool : String) :
    permits effective tool = (toolsAxis effective).all (tool ∈ ·) := by
  cases effective with
  | none => rfl
  | some spec =>
    show spec.permitsTool tool = spec.tools.all (tool ∈ ·)
    unfold BoundsSpec.permitsTool
    cases spec.tools <;> rfl

variable {effective : Option BoundsSpec}

theorem not_permits_of_empty (h : toolsAxis effective = some ∅) (tool : String) :
    permits effective tool = false := by
  rw [permits_eq, h]
  simp

/-- An allowlist that permits nothing is empty: an absent one permits everything. -/
theorem toolsAxis_of_permits_nothing (h : ∀ tool, permits effective tool = false) :
    toolsAxis effective = some ∅ := by
  cases haxis : toolsAxis effective with
  | none => simpa [permits_eq, haxis] using h ""
  | some tools =>
    refine congrArg some (Finset.eq_empty_of_forall_notMem fun tool ht => ?_)
    simpa [permits_eq, haxis, ht] using h tool

/-- Two compositions without a restriction compose to none. -/
theorem toolsAxis_narrow_none {acc spec : Option BoundsSpec} (hacc : toolsAxis acc = none)
    (hspec : toolsAxis spec = none) : toolsAxis (narrow acc spec) = none := by
  cases spec with
  | none => exact hacc
  | some s =>
    have hs : s.tools = none := hspec
    cases acc with
    | none => exact hs
    | some a =>
      have ha : a.tools = none := hacc
      simp [narrow, toolsAxis, BoundsSpec.intersect, ha, hs]

/-! ## The refusal -/

def refusalHead (toolName : String) : String :=
  "The action '" ++ toolName ++ "' is not permitted by this owl's bounds and was not run."

/-- `check_effective_bounds`: `none` lets the dispatch go on, anything else is the
refusal, which names the permitted tools and the ways to reach another. -/
def checkEffectiveBounds (effective : Option BoundsSpec) (toolName : String) :
    Option String :=
  match effective with
  | none => none
  | some spec =>
    if spec.permitsTool toolName then none
    else
      let allowed := (spec.tools.getD ∅).sort (· ≤ ·)
      some (" ".intercalate (
        [refusalHead toolName] ++
        (if allowed.isEmpty then []
          else ["This owl may use: " ++ ", ".intercalate allowed ++ "."]) ++
        (if "owl_build" ∈ allowed then
          ["To be granted '" ++ toolName ++ "', use owl_build action='grant' — this " ++
            "asks the operator to widen this owl's bounds; it does not widen them itself."]
          else []) ++
        (if "delegate_task" ∈ allowed then
          ["To use '" ++ toolName ++ "' anyway, delegate_task to an owl that holds it " ++
            "(the secretary) — state the exact action you need and use its result."]
          else []) ++
        ["Otherwise answer the user directly with what you have."]))

theorem checkEffectiveBounds_eq_none {tool : String} :
    checkEffectiveBounds effective tool = none ↔ permits effective tool = true := by
  cases effective with
  | none => exact iff_of_true rfl rfl
  | some spec =>
    show (if spec.permitsTool tool then none else some _) = none ↔
      spec.permitsTool tool = true
    by_cases h : spec.permitsTool tool = true <;> simp [h]

end StackOwl.Authz
