import MessageFlow.Form.Template
import MessageFlow.Handle
import MessageFlow.Json.Printer
import MessageFlow.Scaffold.Kind
import MessageFlow.Scaffold.Spec

/-! Filling in a form from a message specification. Options are numbered in their order, for a canvas
    addresses them by id; of the sections of a list only the first has a place in its form. -/

namespace MessageFlow

/-- Why a specification gives no message. -/
inductive SpecFault where
  | unreadable (error : ReadError)
  /-- A list without sections. -/
  | noSection
  /-- A group whose data is no list. -/
  | notAList
deriving DecidableEq

def SpecFault.message : SpecFault → String
  | .unreadable e => e.message
  | .noSection => "action.sections must contain at least one section"
  | .notAList => "group data must be an array of message specifications"

/-- Reads a specification. -/
def Record.readSpec {α : Type} (r : Record α) (spec : Json) : Except SpecFault α :=
  match r.read spec with
  | .ok a => .ok a
  | .error e => .error (.unreadable e)

/-- The options of a form, from their titles. -/
def Form.choices (titles : List (Option String)) : List Form.Choice :=
  titles.zipIdx.map fun (title, i) => ⟨Handle.choiceId i, title⟩

namespace Spec

def Text.form (s : Spec.Text) : Form.Text := ⟨true, s.body.text⟩

def Menu.form (s : Menu) : Except SpecFault Form.Menu :=
  match s.action.sections with
  | [] => .error .noSection
  | first :: _ => .ok ⟨Form.choices (first.rows.map (·.title)), s.header.text, s.body.text, s.action.button⟩

def Buttons.form (s : Buttons) : Form.Buttons :=
  ⟨some s.header.type, Form.choices (s.action.buttons.map (·.reply.title)), s.header.words, s.header.media,
    s.body.text⟩

def Launch.form (s : Launch) : Form.Launch :=
  ⟨some s.header.type, s.header.words, s.header.media, s.body.text, s.button, s.action.flow⟩

def CatalogMessage.form (s : CatalogMessage) : Form.Catalog :=
  { type := CatalogKind.catalogMessage.name, body := some s.body.text }

def Product.form (s : Product) : Form.Catalog :=
  { type := CatalogKind.product.name, body := some s.body.text, catalog := s.action.catalog,
    product := s.action.product }

/-- The form of a message that lists products. An empty head is none. -/
def ProductList.form (s : ProductList) : Form.Catalog :=
  { type := CatalogKind.productList.name, body := some s.body.text,
    header := (s.header.bind (·.text)).filter (· != ""), button := s.action.button,
    catalog := s.action.catalog, productSets := s.action.productSets }

/-- The template that an id names: a string itself, any other value by its JSON text. -/
def Template.choice : Json → Form.TemplateChoice
  | .str id => .named id
  | v => .named v.compact

def Template.form (s : Template) : Form.Template := ⟨s.id.map choice, s.reference⟩

end Spec

/-- The data of the node for a specification. A media specification is itself such data. -/
def Scaffold.SingleKind.data (k : SingleKind) (spec : Json) : Except SpecFault Json :=
  match k with
  | .text => do return Form.Text.record.codec.encode (← Spec.Text.record.readSpec spec).form
  | .image | .video | .document => do
    let _ ← Spec.Media.record.readSpec spec
    return spec
  | .list => do return Form.Menu.record.codec.encode (← (← Spec.Menu.record.readSpec spec).form)
  | .button => do return Form.Buttons.record.codec.encode (← Spec.Buttons.record.readSpec spec).form
  | .flow => do return Form.Launch.record.codec.encode (← Spec.Launch.record.readSpec spec).form
  | .catalogMessage => do
    return Form.Catalog.record.codec.encode (← Spec.CatalogMessage.record.readSpec spec).form
  | .product => do return Form.Catalog.record.codec.encode (← Spec.Product.record.readSpec spec).form
  | .productList => do
    return Form.Catalog.record.codec.encode (← Spec.ProductList.record.readSpec spec).form
  | .template => do return Form.Template.record.codec.encode (← Spec.Template.record.readSpec spec).form

end MessageFlow
