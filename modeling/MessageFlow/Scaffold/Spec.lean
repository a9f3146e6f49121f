import MessageFlow.Schema.Record

/-! Message specifications: the flat form in which a message is described apart from any canvas. They
    have the shape of the steps' contents, without targets. -/

namespace MessageFlow
namespace Spec

/-- A body. -/
structure Body where
  text : String

def Body.record : Record Body where
  name := "BodySpec"
  schema := (Schema.build mk).field (.withDefault "text" .text "") text

/-- A text head. -/
structure TextHead where
  text : Option String

def TextHead.record : Record TextHead where
  name := "OptionalTextSpec"
  schema := (Schema.build mk).field (.optional "text" .text) text

/-- A head of a declared type, with its media under that type. -/
structure Head where
  type : String
  text : Option String
  rest : Json.Object

namespace Head

def record : OpenRecord Head where
  name := "HeaderSpec"
  schema := (Schema.build mk).field (.required "type" .text) type |>.field (.optional "text" .text) text
  extra := rest

/-- The media types that a head can declare. -/
def mediaTypes : List String := ["image", "video", "document"]

/-- The text of a text head. -/
def words (h : Head) : Option String := if h.type = "text" then h.text else none

/-- The media of a media head. -/
def media (h : Head) : Option Json :=
  if mediaTypes.contains h.type then h.rest.get? h.type else none

end Head

/-- A text message. -/
structure Text where
  body : Body

def Text.record : Record Text where
  name := "TextSpec"
  schema := (Schema.build mk).field (.required "body" Body.record.codec) body

/-- An image, a video or a document. -/
structure Media where
  media : Json
  caption : Option String

def Media.record : Record Media where
  name := "MediaSpec"
  schema :=
    (Schema.build mk).field (.withDefault "media" .json .null) media |>.field (.optional "caption" .text) caption

/-- A row of a list. -/
structure Row where
  title : Option String

def Row.record : Record Row where
  name := "RowSpec"
  schema := (Schema.build mk).field (.optional "title" .text) title

/-- A section of a list. -/
structure Section where
  rows : List Row

def Section.record : Record Section where
  name := "SectionSpec"
  schema := (Schema.build mk).field (.withDefault "rows" (.list Row.record.codec) []) rows

/-- What a list offers. -/
structure MenuAction where
  button : String
  sections : List Section

def MenuAction.record : Record MenuAction where
  name := "ListActionSpec"
  schema :=
    (Schema.build mk)
      |>.field (.withDefault "button" .text "") button
      |>.field (.required "sections" (.list Section.record.codec)) sections

/-- A list to choose from. -/
structure Menu where
  header : TextHead
  body : Body
  action : MenuAction

def Menu.record : Record Menu where
  name := "ListSpec"
  schema :=
    (Schema.build mk)
      |>.field (.required "header" TextHead.record.codec) header
      |>.field (.required "body" Body.record.codec) body
      |>.field (.required "action" MenuAction.record.codec) action

/-- A reply. -/
structure Reply where
  title : Option String

def Reply.record : Record Reply where
  name := "ReplySpec"
  schema := (Schema.build mk).field (.optional "title" .text) title

/-- A reply button. -/
structure ReplyButton where
  reply : Reply

def ReplyButton.record : Record ReplyButton where
  name := "ReplyButtonSpec"
  schema := (Schema.build mk).field (.required "reply" Reply.record.codec) reply

/-- The buttons of a message. -/
structure ButtonsAction where
  buttons : List ReplyButton

def ButtonsAction.record : Record ButtonsAction where
  name := "ButtonActionSpec"
  schema := (Schema.build mk).field (.required "buttons" (.list ReplyButton.record.codec)) buttons

/-- A message with reply buttons. -/
structure Buttons where
  header : Head
  body : Body
  action : ButtonsAction

def Buttons.record : Record Buttons where
  name := "ButtonSpec"
  schema :=
    (Schema.build mk)
      |>.field (.required "header" Head.record.codec) header
      |>.field (.required "body" Body.record.codec) body
      |>.field (.required "action" ButtonsAction.record.codec) action

/-- The flow that a message opens. -/
structure LaunchAction where
  flow : Option Json

def LaunchAction.record : Record LaunchAction where
  name := "FlowActionSpec"
  schema := (Schema.build mk).field (.optional "flow" .json) flow

/-- A message that opens a flow. -/
structure Launch where
  header : Head
  body : Body
  button : Option String
  action : LaunchAction

def Launch.record : Record Launch where
  name := "FlowSpec"
  schema :=
    (Schema.build mk)
      |>.field (.required "header" Head.record.codec) header
      |>.field (.required "body" Body.record.codec) body
      |>.field (.optional "btnText" .text) button
      |>.field (.required "action" LaunchAction.record.codec) action

/-- A message that shows a catalog. -/
structure CatalogMessage where
  body : Body

def CatalogMessage.record : Record CatalogMessage where
  name := "CatalogMessageSpec"
  schema := (Schema.build mk).field (.required "body" Body.record.codec) body

/-- The product that a message shows. -/
structure ProductAction where
  catalog : Option Json
  product : Option Json

def ProductAction.record : Record ProductAction where
  name := "ProductActionSpec"
  schema :=
    (Schema.build mk)
      |>.field (.optional "catalog_id" .json) catalog
      |>.field (.optional "product_retailer_id" .json) product

/-- A message that shows a product. -/
structure Product where
  body : Body
  action : ProductAction

def Product.record : Record Product where
  name := "ProductSpec"
  schema :=
    (Schema.build mk)
      |>.field (.required "body" Body.record.codec) body
      |>.field (.required "action" ProductAction.record.codec) action

/-- The products that a message lists. -/
structure ProductListAction where
  button : Option String
  catalog : Option Json
  productSets : Option Json

def ProductListAction.record : Record ProductListAction where
  name := "ProductListActionSpec"
  schema :=
    (Schema.build mk)
      |>.field (.optional "btn_text" .text) button
      |>.field (.optional "catalog_id" .json) catalog
      |>.field (.optional "product_set_ids" .json) productSets

/-- A message that lists products. -/
structure ProductList where
  header : Option TextHead
  body : Body
  action : ProductListAction

def ProductList.record : Record ProductList where
  name := "ProductListSpec"
  schema :=
    (Schema.build mk)
      |>.field (.optional "header" TextHead.record.codec) header
      |>.field (.required "body" Body.record.codec) body
      |>.field (.required "action" ProductListAction.record.codec) action

/-- A message from a template. -/
structure Template where
  id : Option Json
  media : Option Json

namespace Template

def record : Record Template where
  name := "TemplateSpec"
  schema :=
    (Schema.build mk)
      |>.field (.optional "templateId" .json) id
      |>.field (.optional "media" .json) media

/-- The first media reference that is set, of image, video and document. -/
def reference (t : Template) : Option Json :=
  t.media.bind fun media => (Head.mediaTypes.filterMap fun type => media.get? type).find? Json.isTruthy

end Template

end Spec
end MessageFlow
