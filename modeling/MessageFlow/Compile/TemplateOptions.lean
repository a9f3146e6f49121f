import MessageFlow.Compile.Error
import MessageFlow.Form.Template
import MessageFlow.Json.Parser
import MessageFlow.Step.Content

/-! The options of a template. They come as the text of a JSON list; each element names a type and holds
    the option under it. One element that does not fit makes the whole list unusable. -/

namespace MessageFlow

/-- An option of a template, before it is known where it leads. -/
structure OptionEntry where
  type : String
  id : Json
  title : Option Json

namespace OptionEntry

/-- The option at a position of the list. Only a button has a title. -/
def ofJson (index : Nat) (v : Json) : Except OptionsFault OptionEntry :=
  match (v.get? "type").bind Json.str? with
  | none => .error (.untyped index)
  | some type =>
    match (v.get? type).filter Json.isObject with
    | none => .error (.vacant index type)
    | some inner =>
      .ok ⟨type, .ofOption (inner.get? "id"),
        if type = "button" then some (.ofOption (inner.get? "title")) else none⟩

/-- The options of a list from a position on; the first that does not fit decides. -/
def ofItems (index : Nat) : List Json → Except OptionsFault (List OptionEntry)
  | [] => .ok []
  | v :: rest =>
    match ofJson index v with
    | .error e => .error e
    | .ok o => (ofItems (index + 1) rest).map (o :: ·)

/-- The options that a text holds; an empty text holds none. -/
def ofText (text : String) : Except OptionsFault (List OptionEntry) :=
  if text = "" then .ok []
  else
    match Json.parseList text with
    | .error e => .error (.unreadable e)
    | .ok items => ofItems 0 items

/-- The option, leading where its handle leads. -/
def resolve (o : OptionEntry) (target : List String) : TemplateOption := ⟨o.type, o.id, o.title, target⟩

end OptionEntry

/-- The options of a template form; without a description there are none. -/
def Form.Template.options (t : Form.Template) : Except OptionsFault (List OptionEntry) :=
  match t.details?.bind (·.options) with
  | some text => OptionEntry.ofText text
  | none => .ok []

/-- The media types that a template can announce, and the names under which media are sent. -/
def templateMediaTypes : List (String × String) :=
  [("IMAGE", "image"), ("VIDEO", "video"), ("DOCUMENT", "document")]

/-- The media of a template form whose template announces media. -/
def Form.Template.mediaObject (t : Form.Template) : Option MediaObject :=
  ((t.details?.bind (·.type)).bind fun type => templateMediaTypes.lookup type).map (⟨·, t.media⟩)

end MessageFlow
