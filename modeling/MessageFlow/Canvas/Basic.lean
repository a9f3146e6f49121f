import MessageFlow.Canvas.Edge
import MessageFlow.Canvas.Node

/-! A canvas: the nodes and edges that an editor hands over together. -/

namespace MessageFlow

/-- The nodes and edges of one flow, in the editor's order. -/
structure Canvas where
  nodes : List Node
  edges : List Edge

namespace Canvas

/-- A canvas without nodes. -/
def empty : Canvas := ⟨[], []⟩

/-- The fields of a canvas. Each has a second name, which only reading knows. -/
def record : Record Canvas where
  name := "VisualGraph"
  schema :=
    (Schema.build mk)
      |>.field (Field.required "frontEndNodes" (.list Node.codec) |>.orNamed "visualNodes") nodes
      |>.field (Field.withDefault "frontEndEdges" (.list Edge.codec) [] |>.orNamed "visualEdges") edges

abbrev codec : Codec Canvas := record.codec

end Canvas
end MessageFlow
