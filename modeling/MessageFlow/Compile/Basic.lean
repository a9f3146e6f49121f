import MessageFlow.Canvas.Distinct
import MessageFlow.Canvas.Transient
import MessageFlow.Compile.Message
import MessageFlow.Flow
import Std.Data.HashMap
import Std.Data.HashSet

/-! Compiling a canvas. Nodes that sit in no group become steps in their order, groups after all others;
    nodes that sit in a group become steps inside the group's step, whatever the depth. Nodes of unknown
    type are passed over. The canvas itself is kept, but for the transient parts of templates. -/

namespace MessageFlow
namespace Compile

/-- How the types of nodes are understood, and whether templates are stripped. -/
structure Settings where
  types : Std.HashMap String MessageKind := ∅
  sanitize : Bool := true

namespace Settings

/-- Treats nodes of one type as nodes of a known type. A type that is not known changes nothing. -/
def withType (s : Settings) (type known : String) : Settings :=
  match MessageKind.ofName? known with
  | some kind => { s with types := s.types.insert type kind }
  | none => s

/-- Several such rules in turn. -/
def withTypes (s : Settings) (rules : List (String × String)) : Settings :=
  rules.foldl (fun s r => s.withType r.1 r.2) s

/-- The kind of nodes of a type. -/
def kindOf (s : Settings) (type : String) : Option MessageKind :=
  s.types[type]?.or (MessageKind.ofName? type)

end Settings

/-- A node and what it is understood to be. -/
structure Sorted where
  node : Node
  kind : Option MessageKind

/-- The node with its kind, stripped if it is a template and the settings say so. -/
def sort (s : Settings) (n : Node) : Sorted :=
  let kind := s.kindOf n.type
  ⟨if s.sanitize ∧ kind = some .template then n.strip else n, kind⟩

/-- All that the steps of a canvas are made from. -/
structure Plan where
  nodes : List Sorted
  /-- The ids of the nodes that sit in a group. -/
  grouped : Std.HashSet String
  index : Index

namespace Plan

/-- The ids of the groups. -/
def groupIds (nodes : List Sorted) : Std.HashSet String :=
  .ofList ((nodes.filter fun n => n.kind == some .group).map (·.node.id))

/-- The plan for nodes and edges. -/
def ofNodes (nodes : List Sorted) (edges : List Edge) : Plan where
  nodes := nodes
  grouped :=
    .ofList ((nodes.filter fun n => n.node.parent.any (groupIds nodes).contains).map (·.node.id))
  index := .ofLists (nodes.map (·.node)) edges

/-- The nodes that sit in a group, in their order. -/
def members (p : Plan) (group : String) : List Sorted :=
  p.nodes.filter fun n => n.node.parent == some group

/-- The nodes that sit in no group. -/
def ungrouped (p : Plan) : List Sorted := p.nodes.filter fun n => !p.grouped.contains n.node.id

mutual

/-- The step of a node; `none` if the groups inside it go on without end. -/
def stepOf (p : Plan) (n : Sorted) : Option (Except Refusal (Option Step)) :=
  match n.kind with
  | none => some (.ok none)
  | some .group => do
    match ← p |>.stepsOf (p.members n.node.id) with
    | .error e => return .error e
    | .ok members =>
      return .ok (some (.group n.node.id members (p.index.successors n.node.id none) n.node.delay))
  | some kind => some ((Message.ofNode kind n.node p.index).map (Option.map .message))
partial_fixpoint

/-- The steps of several nodes in turn; the first refusal decides. -/
def stepsOf (p : Plan) : List Sorted → Option (Except Refusal (List Step))
  | [] => some (.ok [])
  | n :: rest => do
    match ← p |>.stepOf n with
    | .error e => return .error e
    | .ok s => return (← p |>.stepsOf rest).map (s.toList ++ ·)
partial_fixpoint

end

/-- All steps: those of groups behind the others. -/
def steps (p : Plan) : Option (Except Refusal (List Step)) := do
  let (groups, others) := p.ungrouped.partition fun n => n.kind == some .group
  match ← p.stepsOf others with
  | .error e => return .error e
  | .ok first => return (← p.stepsOf groups).map (first ++ ·)

end Plan

/-- What a run comes to, whether it ends or not. -/
def outcome {α : Type} : Option (Except Refusal α) → Except CompileError α
  | none => .error .endlessGroup
  | some result => result.mapError .refused

end Compile

/-- Compiles a canvas. -/
def Canvas.compile (c : Canvas) (s : Compile.Settings) : Except CompileError Flow :=
  let nodes := c.nodes.map (Compile.sort s)
  match Compile.outcome (Compile.Plan.ofNodes nodes c.edges).steps with
  | .error e => .error e
  | .ok steps =>
    .ok { stepEdges := Edge.distinct c.edges, steps := steps, nodes := nodes.map (·.node), edges := c.edges }

end MessageFlow
