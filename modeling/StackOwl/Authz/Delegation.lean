import StackOwl.Authz.Bounds

/-!
# The ceiling a spawned child carries

`child_floor` and `compute_effective_bounds` of `pipeline/authz_compose.py`, with
`ROUTER_TOOLS` of `owls/tool_presets.py`, and the three places that spawn a child
(`delegate_task`, `sessions_spawn`, `sessions_send`).  A delegated child is resumed
by its parent, which recovery rebuilds under the ceiling on its row and which then
runs the same `delegate_task` again.

The router tools are united in at the dispatch seam and nowhere else: the ceiling a
child carries is composed without them.

## Main results

* `narrows`, `emptied`, `unrestricted` — what holds of every chain of spawns.
* `noEscalation_iff` — the chains on which the ceiling passed down is also the
  allowlist the parent dispatches under.
-/

namespace StackOwl.Authz

/-! ## The bounds of a turn -/

/-- What `OwlRegistry.get` answers: `none` raises `OwlNotFoundError`, otherwise the
bounds of the owl's manifest. -/
abbrev OwlRegistry := String → Option (Option BoundsSpec)

/-- The fields of `PipelineState` that bounds are composed from. -/
structure PipelineState where
  owlName : String
  creationCeiling : Option BoundsSpec

def ROUTER_TOOLS : Finset String :=
  {"tool_search", "tool_describe", "owl_build", "owls_list"}

/-- `resolve_owl_bounds`: no registry and an unknown owl are both unbounded. -/
def resolveOwlBounds (owlName : String) (owlRegistry : Option OwlRegistry) :
    Option BoundsSpec :=
  match owlRegistry with
  | none => none
  | some get =>
    match get owlName with
    | none => none
    | some bounds => bounds

def childFloor (parentOwlName : String) (parentCreationCeiling : Option BoundsSpec)
    (owlRegistry : Option OwlRegistry) : Option BoundsSpec :=
  effectiveBounds [resolveOwlBounds parentOwlName owlRegistry, parentCreationCeiling]

/-- `_with_router_tools`: an absent allowlist and an empty one are left alone. -/
def withRouterTools (spec : Option BoundsSpec) : Option BoundsSpec :=
  match spec with
  | none => none
  | some s =>
    match s.tools with
    | none => some s
    | some tools =>
      if tools = ∅ then some s
      else if ROUTER_TOOLS \ tools = ∅ then some s
      else some { s with tools := some (tools ∪ ROUTER_TOOLS) }

def computeEffectiveBounds (state : PipelineState) (owlRegistry : Option OwlRegistry) :
    Option BoundsSpec :=
  withRouterTools
    (effectiveBounds [resolveOwlBounds state.owlName owlRegistry, state.creationCeiling])

/-- The floor passed down is what the dispatch seam composes before it unites the
router tools in. -/
theorem computeEffectiveBounds_eq (state : PipelineState)
    (owlRegistry : Option OwlRegistry) :
    computeEffectiveBounds state owlRegistry =
      withRouterTools (childFloor state.owlName state.creationCeiling owlRegistry) :=
  rfl

@[simp] theorem permits_childFloor (owl : String) (ceiling : Option BoundsSpec)
    (registry : Option OwlRegistry) (tool : String) :
    permits (childFloor owl ceiling registry) tool =
      (permits (resolveOwlBounds owl registry) tool && permits ceiling tool) := by
  simp [childFloor, permits_effectiveBounds]

theorem toolsAxis_withRouterTools (spec : Option BoundsSpec) :
    toolsAxis (withRouterTools spec) =
      (toolsAxis spec).map fun tools =>
        if tools = ∅ then ∅ else tools ∪ ROUTER_TOOLS := by
  cases spec with
  | none => rfl
  | some s =>
    cases htools : s.tools with
    | none => simp [withRouterTools, toolsAxis, htools]
    | some tools =>
      by_cases hempty : tools = ∅
      · simp [withRouterTools, toolsAxis, htools, hempty]
      · by_cases hmissing : ROUTER_TOOLS \ tools = ∅
        · have hunion : tools ∪ ROUTER_TOOLS = tools :=
            Finset.union_eq_left.mpr (Finset.sdiff_eq_empty_iff_subset.mp hmissing)
          simp [withRouterTools, toolsAxis, htools, hempty, hmissing, hunion]
        · simp [withRouterTools, toolsAxis, htools, hempty, hmissing]

/-- What the dispatch seam permits: what the composition does, and the router tools
as soon as it permits anything. -/
theorem permits_withRouterTools {spec : Option BoundsSpec} {tool : String} :
    permits (withRouterTools spec) tool = true ↔
      permits spec tool = true ∨
        (tool ∈ ROUTER_TOOLS ∧ ∃ other, permits spec other = true) := by
  rw [permits_eq, toolsAxis_withRouterTools]
  simp only [permits_eq]
  cases toolsAxis spec with
  | none => simp
  | some tools =>
    by_cases hempty : tools = ∅
    · simp [hempty]
    · obtain ⟨other, hother⟩ := Finset.nonempty_iff_ne_empty.mpr hempty
      simp only [Option.map_some, hempty, if_false, Option.all_some, decide_eq_true_eq,
        Finset.mem_union]
      exact or_congr_right ⟨fun h => ⟨h, other, hother⟩, fun h => h.1⟩

/-- The union changes no tools axis exactly where nothing is permitted, or every
router tool is permitted already. -/
theorem withRouterTools_axis_iff (spec : Option BoundsSpec) :
    toolsAxis spec = toolsAxis (withRouterTools spec) ↔
      (∀ tool, permits spec tool = false) ∨
        ∀ tool ∈ ROUTER_TOOLS, permits spec tool = true := by
  constructor
  · intro haxis
    by_cases hnone : ∀ tool, permits spec tool = false
    · exact Or.inl hnone
    · obtain ⟨other, hother⟩ := not_forall.mp hnone
      refine Or.inr fun tool ht => ?_
      rw [permits_eq, haxis, ← permits_eq, permits_withRouterTools]
      exact Or.inr ⟨ht, other, by simpa using hother⟩
  · rintro (hnone | hrouter)
    · rw [toolsAxis_withRouterTools, toolsAxis_of_permits_nothing hnone]
      simp
    · rw [toolsAxis_withRouterTools]
      cases haxis : toolsAxis spec with
      | none => rfl
      | some tools =>
        have hsub : ROUTER_TOOLS ⊆ tools := fun tool ht => by
          simpa [permits_eq, haxis] using hrouter tool ht
        have hne : tools ≠ ∅ := fun h => by
          have hsearch := hsub (show "tool_search" ∈ ROUTER_TOOLS by decide)
          simp [h] at hsearch
        simp [hne, Finset.union_eq_left.mpr hsub]

/-! ## Spawning a child -/

/-- `DelegateTaskTool._run_delegation` builds one state in the caller's name for
every attempt of its ladder, and `A2ADelegator._run_specialist` evolves it to the
owl delegated to. -/
def delegateTask (caller : String) (ceiling : Option BoundsSpec) (toOwl : String)
    (owlRegistry : Option OwlRegistry) : PipelineState :=
  let parentState : PipelineState :=
    { owlName := caller, creationCeiling := childFloor caller ceiling owlRegistry }
  { parentState with owlName := toOwl }

/-- `sessions_spawn`, the initial task of the session. -/
def sessionsSpawn (invokingOwl : String) (ceiling : Option BoundsSpec) (owlName : String)
    (owlRegistry : Option OwlRegistry) : PipelineState :=
  { owlName, creationCeiling := childFloor invokingOwl ceiling owlRegistry }

/-- `sessions_send`, one more run of the session's owl. -/
def sessionsSend (invokingOwl : String) (ceiling : Option BoundsSpec) (owlName : String)
    (owlRegistry : Option OwlRegistry) : PipelineState :=
  { owlName, creationCeiling := childFloor invokingOwl ceiling owlRegistry }

/-- Where a child is spawned, and the owl it runs as. -/
inductive SpawnSite where
  | delegateTask (toOwl : String)
  | sessionsSpawn (owlName : String)
  | sessionsSend (owlName : String)

/-- One link of a chain: the site, and the registry as the owls stand then. -/
structure Link where
  site : SpawnSite
  owlRegistry : Option OwlRegistry

variable (link : Link) (parent : PipelineState)

/-- The child a link spawns.  `bind_turn_context` puts the owl and the ceiling of the
parent's state on the trace the sites read. -/
def Link.child : PipelineState :=
  match link.site with
  | .delegateTask toOwl =>
    Authz.delegateTask parent.owlName parent.creationCeiling toOwl link.owlRegistry
  | .sessionsSpawn owlName =>
    Authz.sessionsSpawn parent.owlName parent.creationCeiling owlName link.owlRegistry
  | .sessionsSend owlName =>
    Authz.sessionsSend parent.owlName parent.creationCeiling owlName link.owlRegistry

/-- What the recoverer reads of a root's row. -/
structure RootRow where
  owlName : Option String
  creationCeiling : Option BoundsSpec

def DEFAULT_OWL : String := "secretary"

/-- How a chain starts: a turn as it stands, a durable drive, which snapshots its
owl's bounds (`DurableTaskRunner.run`), or a root the recoverer rebuilds from its row
(`_reconstruct_state`), whose children are resumed as it spawns them again. -/
inductive Origin where
  | turn (state : PipelineState)
  | durable (owlName : String) (owlRegistry : Option OwlRegistry)
  | recovered (task : RootRow)

def Origin.state : Origin → PipelineState
  | .turn state => state
  | .durable owlName owlRegistry =>
    { owlName, creationCeiling := resolveOwlBounds owlName owlRegistry }
  | .recovered task =>
    { owlName :=
        match task.owlName with
        | none | some "" => DEFAULT_OWL
        | some owlName => owlName
      creationCeiling := task.creationCeiling }

def descend (state : PipelineState) (links : List Link) : PipelineState :=
  links.foldl (fun parent link => link.child parent) state

@[simp] theorem Link.child_creationCeiling :
    (link.child parent).creationCeiling =
      childFloor parent.owlName parent.creationCeiling link.owlRegistry := by
  unfold Link.child
  cases link.site <;> rfl

/-- A child permits at any later moment no more than its parent's floor did. -/
theorem child_within_floor (later : Option OwlRegistry) (tool : String)
    (h : permits (childFloor (link.child parent).owlName (link.child parent).creationCeiling later)
      tool = true) :
    permits (childFloor parent.owlName parent.creationCeiling link.owlRegistry) tool =
      true := by
  rw [permits_childFloor, link.child_creationCeiling, Bool.and_eq_true] at h
  exact h.2

/-- What a child may dispatch its parent could when it spawned the child. -/
theorem narrows (later : Option OwlRegistry) (tool : String)
    (h : permits (computeEffectiveBounds (link.child parent) later) tool = true) :
    permits (computeEffectiveBounds parent link.owlRegistry) tool = true := by
  rw [computeEffectiveBounds_eq, permits_withRouterTools] at h ⊢
  obtain hown | ⟨hrouter, other, hother⟩ := h
  · exact Or.inl (child_within_floor link parent later tool hown)
  · exact Or.inr ⟨hrouter, other, child_within_floor link parent later other hother⟩

theorem ceiling_descend_empty (links : List Link) {state : PipelineState}
    (h : ∀ tool, permits state.creationCeiling tool = false) (tool : String) :
    permits (descend state links).creationCeiling tool = false := by
  induction links generalizing state with
  | nil => exact h tool
  | cons link links ih =>
    refine @ih (link.child state) fun tool => ?_
    rw [link.child_creationCeiling, permits_childFloor, h tool, Bool.and_false]

/-- Under a ceiling that permits nothing the dispatch seam permits nothing. -/
theorem denied_of_ceiling {state : PipelineState}
    (h : ∀ tool, permits state.creationCeiling tool = false)
    (registry : Option OwlRegistry) (tool : String) :
    permits (computeEffectiveBounds state registry) tool = false := by
  rw [← Bool.not_eq_true, computeEffectiveBounds_eq, permits_withRouterTools]
  simp [h]

/-- An empty allowlist, of the parent's owl or in its ceiling, leaves every
descendant without a tool. -/
theorem emptied (links : List Link)
    (h : toolsAxis (resolveOwlBounds parent.owlName link.owlRegistry) = some ∅ ∨
      toolsAxis parent.creationCeiling = some ∅)
    (later : Option OwlRegistry) (tool : String) :
    permits (computeEffectiveBounds (descend (link.child parent) links) later) tool =
      false := by
  refine denied_of_ceiling (ceiling_descend_empty links fun tool => ?_) later tool
  rw [link.child_creationCeiling, permits_childFloor]
  obtain hempty | hempty := h
  · rw [not_permits_of_empty hempty, Bool.false_and]
  · rw [not_permits_of_empty hempty, Bool.and_false]

theorem unrestricted {state : PipelineState} {registry : Option OwlRegistry}
    (howl : toolsAxis (resolveOwlBounds state.owlName registry) = none)
    (hceiling : toolsAxis state.creationCeiling = none) :
    toolsAxis (computeEffectiveBounds state registry) = none := by
  have hfloor : toolsAxis (childFloor state.owlName state.creationCeiling registry) =
      none := toolsAxis_narrow_none (toolsAxis_narrow_none rfl howl) hceiling
  rw [computeEffectiveBounds_eq, toolsAxis_withRouterTools, hfloor]
  rfl

/-! ## A chain of spawns -/

/-- What a chain of spawns owes: no child dispatches more than its parent did, an
empty allowlist empties everything below it, an unrestricted turn stays so, and the
ceiling handed down is the allowlist of the parent. -/
structure NoEscalation (root : PipelineState) (links : List Link) : Prop where
  narrows : ∀ before link after, links = before ++ link :: after → ∀ later tool,
    permits (computeEffectiveBounds (link.child (descend root before)) later) tool = true →
      permits (computeEffectiveBounds (descend root before) link.owlRegistry) tool = true
  emptied : ∀ before link below after, links = before ++ link :: (below ++ after) →
    (toolsAxis (resolveOwlBounds (descend root before).owlName link.owlRegistry) = some ∅ ∨
      toolsAxis (descend root before).creationCeiling = some ∅) →
    ∀ later tool,
      permits (computeEffectiveBounds
        (descend (link.child (descend root before)) below) later) tool = false
  unrestricted : ∀ before after registry, links = before ++ after →
    toolsAxis (resolveOwlBounds (descend root before).owlName registry) = none →
    toolsAxis (descend root before).creationCeiling = none →
    toolsAxis (computeEffectiveBounds (descend root before) registry) = none
  floor : ∀ before link after, links = before ++ link :: after →
    toolsAxis (childFloor (descend root before).owlName
        (descend root before).creationCeiling link.owlRegistry) =
      toolsAxis (computeEffectiveBounds (descend root before) link.owlRegistry)

/-- A tool the parent's owl and the parent's ceiling both permit. -/
def bothPermit (link : Link) (tool : String) : Prop :=
  permits (resolveOwlBounds parent.owlName link.owlRegistry) tool = true ∧
    permits parent.creationCeiling tool = true

/-- The chains that meet the whole law: at every spawn the parent's owl and its
ceiling have no tool in common, or all the router tools. -/
theorem noEscalation_iff (origin : Origin) (links : List Link) :
    NoEscalation origin.state links ↔
      ∀ before link after, links = before ++ link :: after →
        (∀ tool, ¬ bothPermit (descend origin.state before) link tool) ∨
          ∀ tool ∈ ROUTER_TOOLS, bothPermit (descend origin.state before) link tool := by
  have floor_iff : ∀ (parent : PipelineState) (link : Link),
      toolsAxis (childFloor parent.owlName parent.creationCeiling link.owlRegistry) =
        toolsAxis (computeEffectiveBounds parent link.owlRegistry) ↔
      (∀ tool, ¬ bothPermit parent link tool) ∨
        ∀ tool ∈ ROUTER_TOOLS, bothPermit parent link tool := by
    intro parent link
    rw [computeEffectiveBounds_eq, withRouterTools_axis_iff]
    simp only [permits_childFloor, bothPermit, Bool.and_eq_true, ← Bool.not_eq_true]
  constructor
  · intro h before link after hlinks
    exact (floor_iff _ link).mp (h.floor before link after hlinks)
  · intro h
    refine ⟨?_, ?_, ?_, ?_⟩
    · intro before link after _ later tool
      exact narrows link _ later tool
    · intro before link below after _ hempty later tool
      exact emptied link _ below hempty later tool
    · intro before after registry _ howl hceiling
      exact unrestricted howl hceiling
    · intro before link after hlinks
      exact (floor_iff _ link).mpr (h before link after hlinks)

/-- An owl bounded to one tool hands down a ceiling without the router tools it can
itself dispatch. -/
theorem floor_lacks_router_tools :
    let origin := Origin.turn { owlName := "scout", creationCeiling := none }
    let registry : OwlRegistry := fun _ => some (some { tools := some {"shell"} })
    let link : Link := { site := .delegateTask "clerk", owlRegistry := some registry }
    ¬ NoEscalation origin.state [link] := by
  intro origin registry link h
  have hfloor := h.floor [] link [] rfl
  revert hfloor
  decide

end StackOwl.Authz
