import MessageFlow.Canvas.Node
import MessageFlow.Double.Literal
import MessageFlow.Scaffold.Kind

/-! Where the nodes of a scaffold stand. -/

namespace MessageFlow
namespace Scaffold

/-- The place and size of a new node, and whether it is selected. -/
structure Placement where
  position : Position
  size : Size
  selected : Bool := false
deriving DecidableEq

namespace Placement

/-- The part of a scaffolded node by which it can be dragged. -/
def dragHandle : String := ".drag-handle__custom"

/-- A placement from its four numbers. -/
def fixed (x y width height : Double) : Placement := ⟨⟨some x, some y⟩, ⟨some width, some height⟩, false⟩

/-- Puts a node in its place. -/
def place (p : Placement) (n : Node) : Node :=
  { n with position := p.position, measured := some p.size, selected := p.selected, dragging := false,
           dragHandle := some dragHandle }

/-- Of a trigger. -/
def trigger : Placement := .fixed (-206.68458729880103) 186.04391192742173 112.0 36.0

/-- Of a text node. -/
def text : Placement := .fixed 317.0 225.0 236.0 174.0

/-- Of an image, a video or a document node. -/
def media : Placement := .fixed 186.50900417796106 175.30974499946797 302.0 386.0

/-- Of a node with options. -/
def options : Placement := .fixed 72.78362033719246 289.0572359834628 234.0 181.0

/-- Of a flow node. -/
def flow : Placement := .fixed 72.78362033719246 289.0572359834628 234.0 136.0

/-- Of a catalog node. -/
def catalog : Placement := .fixed 141.48675632883806 158.93943978158975 261.0 353.0

/-- Of a template node, which is selected. -/
def template : Placement :=
  { Placement.fixed 141.9283845391425 (-28.515084634337043) 261.0 526.0 with selected := true }

end Placement

/-- The placement of a message's node. -/
def SingleKind.placement : SingleKind → Placement
  | .text => .text
  | .image | .video | .document => .media
  | .list | .button => .options
  | .flow => .flow
  | .catalogMessage | .product | .productList => .catalog
  | .template => .template

/-- The placement for a kind. -/
def Kind.placement : Kind → Placement
  | .single k => k.placement
  | .group => .text

end Scaffold
end MessageFlow
