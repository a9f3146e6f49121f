import MessageFlow.Campaign.Descriptor
import MessageFlow.Canvas.Node
import MessageFlow.Double.Literal
import MessageFlow.Kind
import MessageFlow.Text.Digits

/-! The canvas of a campaign: one column of nodes at even distances, closed by an anchor at which the next
    step can be added. -/

namespace MessageFlow
namespace Campaign

/-- The measures of the column. -/
structure Layout where
  x : Double := -366.0
  baseY : Double := 6.0
  distance : Double := 800.0
  nodeSize : Size := ⟨some 320.0, some 437.0⟩
  anchorSize : Size := ⟨some 60.0, some 60.0⟩
deriving DecidableEq

/-- The place at an index of the column. -/
def Layout.position (l : Layout) (index : Nat) : Position :=
  ⟨some l.x, Double.advance? l.baseY l.distance index⟩

/-- The reference that a node shows: its image or else its video, if set, or else the media as they are. -/
def shownMedia (media : Json) : Json :=
  ((["image", "video"].filterMap fun type => media.get? type).find? Json.isTruthy).getD media

/-- The reference of an entry of a carousel. Only images and videos have one. -/
def carouselReference (entry : Json) : Option Json :=
  match (entry.get? "type").bind Json.str? with
  | none => none
  | some type =>
    if type = "image" ∨ type = "video" then (entry.get? type).filter Json.isTruthy else none

/-- The references of a carousel by position. -/
def carouselReferences (entries : List Json) : Json.Object :=
  entries.zipIdx.filterMap fun (entry, i) => (carouselReference entry).map (Text.decimal i, ·)

/-- The data of a step's node. -/
def Descriptor.data (d : Descriptor) : Json :=
  let t := d.template
  let field (key : String) (value : Option Json) : Json.Object := (value.map (key, ·)).toList
  Json.canonical <| .obj <|
    field "label" (d.name.map .str) ++
    field "messageName" (d.name.map .str) ++
    [("type", .str "message")] ++
    field "template" t.id ++
    field "media" (t.media.map shownMedia) ++
    field "dynamic_mapping" t.mapping ++
    field "product_sets" t.productSets ++
    [("carouselMedia", .obj (carouselReferences ((t.carousel.bind Json.items?).getD [])))] ++
    field "delay" d.delay

/-- The node of a step. -/
def Descriptor.node (d : Descriptor) (l : Layout) (index : Nat) (id : String) : Node where
  id := id
  type := MessageKind.template.name
  position := l.position index
  data := d.data
  measured := some l.nodeSize

/-- The node type of the anchor. -/
def anchorType : String := "plusIcon"

/-- The id of an anchor, from a fresh one. -/
def anchorId (id : String) : String := "plus-" ++ id

/-- The anchor below the last step. -/
def anchorNode (l : Layout) (steps : Nat) (id last : String) : Node where
  id := id
  type := anchorType
  position := l.position steps
  data := .obj [("source", .str last)]
  measured := some l.anchorSize

end Campaign
end MessageFlow
