import MessageFlow.Schema.Record

/-! Places and sizes on a canvas. A coordinate is a double; one that a layout moves beyond the finite
    doubles has no value and is written as null. -/

namespace MessageFlow

/-- A coordinate or an extent; `none` lies beyond the finite doubles. -/
abbrev Coordinate := Option Double

/-- A place on the canvas. -/
structure Position where
  x : Coordinate
  y : Coordinate
deriving DecidableEq

/-- The extent of a node as it is drawn. -/
structure Size where
  width : Coordinate
  height : Coordinate
deriving DecidableEq

namespace Position

def origin : Position := ⟨some .zero, some .zero⟩

def record : Record Position where
  name := "Position"
  schema := ((Schema.build mk).field (.required "x" .double) x).field (.required "y" .double) y

end Position

def Size.record : Record Size where
  name := "Dimensions"
  schema :=
    ((Schema.build mk).field (.required "width" .double) width).field (.required "height" .double) height

end MessageFlow
