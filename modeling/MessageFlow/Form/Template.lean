import MessageFlow.Form.Message

/-! The form of a template message. It names its template by an id alone, or holds the whole template as
    the provider described it. -/

namespace MessageFlow
namespace Form

/-- A template as its provider describes it. -/
structure TemplateDetails where
  id : Option Json
  type : Option String
  /-- The list of options, as JSON text. -/
  options : Option String
  rest : Json.Object

def TemplateDetails.record : OpenRecord TemplateDetails where
  name := "TemplateDetails"
  schema :=
    (Schema.build mk)
      |>.field (.optional "templateId" .json) id
      |>.field (.optional "templateType" .text) type
      |>.field (.optional "options" .text) options
  extra := rest

/-- Which template a message uses. -/
inductive TemplateChoice where
  | named (id : String)
  | detailed (details : TemplateDetails)

namespace TemplateChoice

/-- A string names a template; an object describes it. -/
def read : Json → Except ReadError TemplateChoice
  | .str id => .ok (.named id)
  | v =>
    match TemplateDetails.record.read v with
    | .ok details => .ok (.detailed details)
    | .error _ => .error (.noAlternative "TemplateRef")

def codec : Codec TemplateChoice where
  read := read
  write
    | .named id => .str id
    | .detailed details => TemplateDetails.record.codec.write details

end TemplateChoice

/-- The form of a template message. -/
structure Template where
  template : Option TemplateChoice
  media : Option Json

namespace Template

def record : Record Template where
  name := "TemplateNodeData"
  schema :=
    (Schema.build mk)
      |>.field (.optional "template" TemplateChoice.codec) template
      |>.field (.omitted "media" .json) media

/-- The id of the template. -/
def templateId (t : Template) : Option Json :=
  match t.template with
  | some (.named id) => some (.str id)
  | some (.detailed details) => details.id
  | none => none

/-- The description of the template, where the form holds one. -/
def details? (t : Template) : Option TemplateDetails :=
  match t.template with
  | some (.detailed details) => some details
  | _ => none

end Template

/-- Reads a form from the data of a node; missing data reads as an object without fields. -/
def ofData {α : Type} (r : Record α) (data : Json) : Except ReadError α :=
  match data with
  | .null => r.read (.obj [])
  | v => r.read v

end Form
end MessageFlow
