/-! The kinds of node that take part in a flow, and the names under which a canvas knows them. Each
    table of names serves both directions. -/

namespace MessageFlow

/-- The kinds of node that become steps. -/
inductive MessageKind where
  | trigger
  | text
  | image
  | video
  | audio
  | document
  | list
  | button
  | flow
  | catalog
  | template
  | group
deriving DecidableEq, Repr

namespace MessageKind

def all : List MessageKind :=
  [.trigger, .text, .image, .video, .audio, .document, .list, .button, .flow, .catalog, .template, .group]

/-- The node type of a kind. -/
def name : MessageKind → String
  | .trigger => "startNode"
  | .text => "text"
  | .image => "image"
  | .video => "video"
  | .audio => "audio"
  | .document => "document"
  | .list => "list"
  | .button => "button"
  | .flow => "flow"
  | .catalog => "catalog"
  | .template => "template"
  | .group => "group"

/-- The kind with a node type. -/
def ofName? (s : String) : Option MessageKind := all.find? fun k => k.name == s

theorem ofName?_name (k : MessageKind) : ofName? k.name = some k := by cases k <;> decide

end MessageKind

/-- The kinds of catalog message. -/
inductive CatalogKind where
  | catalogMessage
  | product
  | productList
deriving DecidableEq, Repr

namespace CatalogKind

def all : List CatalogKind := [.catalogMessage, .product, .productList]

/-- The catalogue type of a kind. -/
def name : CatalogKind → String
  | .catalogMessage => "catalog_message"
  | .product => "product"
  | .productList => "product_list"

/-- The kind with a catalogue type. -/
def ofName? (s : String) : Option CatalogKind := all.find? fun k => k.name == s

theorem ofName?_name (k : CatalogKind) : ofName? k.name = some k := by cases k <;> decide

end CatalogKind
end MessageFlow
