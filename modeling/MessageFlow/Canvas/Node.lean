import MessageFlow.Canvas.Geometry

/-! Nodes of a canvas, as the editor keeps them: what they say (`data`) and how they are drawn. The type
    is kept as the editor's own string, so that nodes of a type unknown here can be read and written;
    fields unknown here stay in `extra`. -/

namespace MessageFlow

/-- A node of a canvas. -/
structure Node where
  id : String
  type : String
  position : Position := .origin
  dragHandle : Option String := none
  data : Json
  measured : Option Size := none
  selected : Bool := false
  dragging : Bool := false
  /-- The group that the node sits in. -/
  parent : Option String := none
  extra : Json.Object := []

namespace Node

def record : OpenRecord Node where
  name := "VisualNode"
  schema :=
    (Schema.build mk)
      |>.field (.required "id" .text) id
      |>.field (.required "type" .text) type
      |>.field (.withDefault "position" Position.record.codec .origin) position
      |>.field (.omitted "dragHandle" .text) dragHandle
      |>.field (.withDefault "data" .json .null) data
      |>.field (.omitted "measured" Size.record.codec) measured
      |>.field (.withDefault "selected" .flag false) selected
      |>.field (.withDefault "dragging" .flag false) dragging
      |>.field (.omitted "parentId" .text) parent
  extra := extra

abbrev codec : Codec Node := record.codec

/-- How long to wait before the node's message is sent, if that is set to anything. -/
def delay (n : Node) : Option Json := (n.data.get? "delay").filter Json.isTruthy

end Node
end MessageFlow
