import Mathlib.Data.List.Basic

/-!
# The dependency graph of a decomposition

`validate_graph` (`objectives/graph.py`) over the specs of one decomposition batch
(`objectives/model.py`): every `depends_on` index lies in the batch, and a depth-first
search in three colours meets no node that is still on its own path.
-/

namespace StackOwl.Objectives

/-- `SubgoalSpec`, by what the task graph reads of it.  `criteria` is the description
of its acceptance criteria. -/
structure SubgoalSpec where
  description : String
  criteria : Option String := none
  dependsOn : List Int := []

/-- `GraphError.kind`. -/
inductive GraphErrorKind where
  | cycle
  | outOfRange
  deriving DecidableEq

structure GraphError where
  kind : GraphErrorKind
  detail : String
  deriving DecidableEq

/-- `WHITE`, `GRAY`, `BLACK`. -/
inductive Color where
  | white
  | gray
  | black
  deriving DecidableEq

def outOfRange (specs : List SubgoalSpec) : Option GraphError :=
  let n := specs.length
  specs.zipIdx.findSome? fun (spec, i) =>
    spec.dependsOn.findSome? fun dep =>
      if dep < 0 ∨ (n : Int) ≤ dep then
        some ⟨.outOfRange,
          "story " ++ i.repr ++ " depends on index " ++ toString dep ++
            ", but the batch has " ++ n.repr ++ " stories"⟩
      else none

/-- `dependency cycle: …`, over the path that came back to `dep`. -/
def cycleError (path : List Nat) (dep : Nat) : GraphError :=
  ⟨.cycle, "dependency cycle: " ++ " -> ".intercalate ((path ++ [dep]).map Nat.repr)⟩

/-- The loop of `visit` over the dependencies of a node. -/
def visitDeps
    (visit : Nat → List Nat → List Color → Except GraphError (List Color))
    (path : List Nat) : List Nat → List Color → Except GraphError (List Color)
  | [], color => .ok color
  | dep :: deps, color =>
    match color.getD dep .black with
    | .gray => .error (cycleError path dep)
    | .white =>
      match visit dep (path ++ [dep]) color with
      | .error e => .error e
      | .ok color => visitDeps visit path deps color
    | .black => visitDeps visit path deps color

/-- `visit`.  Every level has turned one more white node gray, so the nodes of the
batch bound the depth. -/
def visit (specs : List SubgoalSpec) :
    Nat → Nat → List Nat → List Color → Except GraphError (List Color)
  | 0, _, _, color => .ok color
  | depth + 1, i, path, color =>
    let deps := ((specs[i]?).map SubgoalSpec.dependsOn).getD []
    match visitDeps (visit specs depth) path (deps.map Int.toNat)
        (color.set i .gray) with
    | .error e => .error e
    | .ok color => .ok (color.set i .black)

/-- The loop of `validate_graph` over the nodes. -/
def visitAll (specs : List SubgoalSpec) : List Nat → List Color → Option GraphError
  | [], _ => none
  | i :: rest, color =>
    match color.getD i .black with
    | .white =>
      match visit specs specs.length i [i] color with
      | .error e => some e
      | .ok color => visitAll specs rest color
    | .gray | .black => visitAll specs rest color

def validateGraph (specs : List SubgoalSpec) : Option GraphError :=
  match outOfRange specs with
  | some e => some e
  | none =>
    visitAll specs (List.range specs.length) (List.replicate specs.length .white)

example : validateGraph [⟨"a", none, [1]⟩, ⟨"b", none, [0]⟩] =
    some ⟨.cycle, "dependency cycle: 0 -> 1 -> 0"⟩ := by decide

example : validateGraph
    [⟨"a", none, []⟩, ⟨"b", none, [0]⟩, ⟨"c", none, [0]⟩, ⟨"d", none, [1, 2]⟩] = none := by
  decide

end StackOwl.Objectives
