import MessageFlow.Schema.Record

/-! What the editor's forms hold, one type for each kind of message. A form that is new carries nulls in
    the fields that nobody has filled in; most read the same as if they were missing. -/

namespace MessageFlow
namespace Form

/-- The form of a text message. -/
structure Text where
  previewUrl : Bool
  body : String

def Text.record : Record Text where
  name := "TextNodeData"
  schema :=
    (Schema.build mk)
      |>.field (.nullable "preview_url" .flag true) previewUrl
      |>.field (.nullable "body" .text "") body

/-- The form of an image, a video, an audio file or a document. -/
structure Media where
  media : Json
  caption : Option String

def Media.record : Record Media where
  name := "MediaNodeData"
  schema :=
    (Schema.build mk)
      |>.field (.withDefault "media" .json .null) media
      |>.field (.omitted "caption" .text) caption

/-- One option to choose from. -/
structure Choice where
  id : String
  title : Option String

def Choice.record : Record Choice where
  name := "NodeOption"
  schema :=
    (Schema.build mk)
      |>.field (.nullable "id" .text "") id
      |>.field (.optional "title" .text) title

/-- The form of a list to choose from. -/
structure Menu where
  choices : List Choice
  header : Option String
  body : String
  button : String

def Menu.record : Record Menu where
  name := "ListNodeData"
  schema :=
    (Schema.build mk)
      |>.field (.nullable "listOptions" (.list Choice.record.codec) []) choices
      |>.field (.optional "header" .text) header
      |>.field (.nullable "body" .text "") body
      |>.field (.nullable "btnText" .text "") button

/-- The form of a message with reply buttons. -/
structure Buttons where
  headerType : Option String
  choices : List Choice
  header : Option String
  media : Option Json
  body : String

def Buttons.record : Record Buttons where
  name := "ButtonNodeData"
  schema :=
    (Schema.build mk)
      |>.field (.optional "headerType" .text) headerType
      |>.field (.nullable "btnOptions" (.list Choice.record.codec) []) choices
      |>.field (.omitted "header" .text) header
      |>.field (.omitted "media" .json) media
      |>.field (.nullable "body" .text "") body

/-- The form of a message that opens another flow. -/
structure Launch where
  headerType : Option String
  header : Option String
  media : Option Json
  body : String
  button : Option String
  flow : Option Json

def Launch.record : Record Launch where
  name := "FlowNodeData"
  schema :=
    (Schema.build mk)
      |>.field (.optional "headerType" .text) headerType
      |>.field (.omitted "header" .text) header
      |>.field (.omitted "media" .json) media
      |>.field (.nullable "body" .text "") body
      |>.field (.optional "btnText" .text) button
      |>.field (.optional "flowId" .json) flow

/-- The form of a catalog message. -/
structure Catalog where
  type : String
  body : Option String
  header : Option String := none
  button : Option String := none
  catalog : Option Json := none
  product : Option Json := none
  productSets : Option Json := none

def Catalog.record : Record Catalog where
  name := "CatalogNodeData"
  schema :=
    (Schema.build mk)
      |>.field (.nullable "catalogue_type" .text "") type
      |>.field (.optional "catalog_body" .text) body
      |>.field (.omitted "catalog_header" .text) header
      |>.field (.omitted "catalog_btn_text" .text) button
      |>.field (.omitted "catalog_id" .json) catalog
      |>.field (.omitted "product_id" .json) product
      |>.field (.omitted "product_set_ids" .json) productSets

end Form
end MessageFlow
