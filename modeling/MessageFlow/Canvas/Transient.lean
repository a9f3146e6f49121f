import MessageFlow.Canvas.Node
import MessageFlow.Kind

/-! Parts of a template node that exist only while it is drawn: the template's components, and the raw
    answer of its provider. They are dropped before a canvas is compiled. -/

namespace MessageFlow

/-- The fields of a template that are dropped. -/
def transientFields : List String := ["components", "raw_data"]

/-- An object without its transient fields; other values as they are. -/
def Json.dropTransient : Json → Json
  | .obj fields => .obj (Object.without fields transientFields)
  | v => v

/-- The value with the template under its `template` field stripped. -/
def Json.stripTemplate : Json → Json
  | .obj fields =>
    .obj (fields.map fun f => (f.1, if f.1 = "template" then f.2.dropTransient else f.2))
  | v => v

namespace Node

/-- The node without the transient fields of its template. -/
def strip (n : Node) : Node := { n with data := n.data.stripTemplate }

/-- The node, stripped if its type is that of templates. -/
def sanitize (n : Node) : Node :=
  if MessageKind.ofName? n.type = some .template then n.strip else n

end Node
end MessageFlow
