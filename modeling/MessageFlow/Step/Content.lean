import MessageFlow.Json.Basic
import MessageFlow.Text.Digits

/-! What a step tells the delivery engine to send, and how it is written. Fields stand in the order in
    which the engine's records list them. -/

namespace MessageFlow

/-- A media reference under the name of its own type. -/
structure MediaObject where
  type : String
  media : Option Json

/-- The written form: the type, and the reference under it. -/
def MediaObject.write (m : MediaObject) : Json :=
  .obj [("type", .str m.type), (m.type, .ofOption m.media)]

/-- The head of an interactive message. -/
inductive Header where
  | text (text : Option String)
  | media (media : MediaObject)

namespace Header

/-- The head of a declared type; without one it is text. -/
def ofParts (type : Option String) (text : Option String) (media : Option Json) : Header :=
  match type with
  | none => .text text
  | some t => if t = "text" then .text text else .media ⟨t, media⟩

def write : Header → Json
  | .text words => .obj [("type", .str "text"), ("text", .ofText words)]
  | .media m => m.write

end Header

/-- An option to choose from, and the steps that follow if it is chosen. -/
structure OptionRow where
  id : Option String
  title : Option String
  target : List String

def OptionRow.write (r : OptionRow) : Json :=
  .obj [("id", .ofText r.id), ("title", .ofText r.title), ("target", .strings r.target)]

/-- An option of a template. Only buttons carry a title. -/
structure TemplateOption where
  type : String
  id : Json
  title : Option Json
  target : List String

/-- The written form: the type, and the option under it. -/
def TemplateOption.write (o : TemplateOption) : Json :=
  .obj [("type", .str o.type),
    (o.type, .obj ([("id", o.id)] ++ (o.title.map ("title", ·)).toList ++ [("target", .strings o.target)]))]

/-- What a step sends. -/
inductive Content where
  | trigger (target : List String)
  | text (body : String)
  | attachment (media : Json) (caption : Option String)
  | list (header : Option String) (body button : String) (rows : List OptionRow)
  | buttons (header : Header) (body : String) (rows : List OptionRow)
  | launch (header : Header) (body : String) (flow : Option Json) (button : Option String)
      (target : List String)
  | catalogMessage (body : String)
  | product (body : String) (catalog item : Option Json)
  | productList (body : String) (header button : Option String) (catalog productSets : Option Json)
  | template (id : Option Json) (media : Option MediaObject) (options : List TemplateOption)
  /-- A message specification, as it was given. -/
  | spec (value : Json)
  /-- Message specifications by position. -/
  | specs (values : List Json)

namespace Content

def writeBody (text : String) : String × Json := ("body", .obj [("text", .str text)])

def writeReply (r : OptionRow) : Json := .obj [("type", .str "reply"), ("reply", r.write)]

/-- The written form. The rows of a list stand in one section, which has the title of the button. -/
def write : Content → Json
  | .trigger target => .obj [("target", .strings target)]
  | .text body => .obj [writeBody body, ("preview_url", .bool true)]
  | .attachment media caption => .obj ([("media", media)] ++ (caption.map fun s => ("caption", .str s)).toList)
  | .list header body button rows =>
    .obj [("header", (Header.text header).write), writeBody body,
      ("action", .obj [("button", .str button),
        ("sections", .arr [.obj [("title", .str button), ("rows", .arr (rows.map OptionRow.write))]])])]
  | .buttons header body rows =>
    .obj [("header", header.write), writeBody body,
      ("action", .obj [("buttons", .arr (rows.map writeReply))])]
  | .launch header body flow button target =>
    .obj [("header", header.write), writeBody body, ("action", .obj [("flow", .ofOption flow)]),
      ("btnText", .ofText button), ("target", .strings target)]
  | .catalogMessage body => .obj [writeBody body]
  | .product body catalog item =>
    .obj [writeBody body,
      ("action", .obj [("catalog_id", .ofOption catalog), ("product_retailer_id", .ofOption item)])]
  | .productList body header button catalog productSets =>
    .obj [writeBody body, ("header", (Header.text header).write),
      ("action", .obj [("btn_text", .ofText button), ("catalog_id", .ofOption catalog),
        ("product_set_ids", .ofOption productSets)])]
  | .template id media options =>
    .obj ([("templateId", .ofOption id)] ++ (media.map fun m => ("media", m.write)).toList ++
      if options.isEmpty then [] else [("template_options", .arr (options.map TemplateOption.write))])
  | .spec value => value
  | .specs values => .obj (values.zipIdx.map fun (v, i) => (Text.decimal i, v))

end Content
end MessageFlow
