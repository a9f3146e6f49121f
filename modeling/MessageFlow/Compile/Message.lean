import MessageFlow.Canvas.Index
import MessageFlow.Compile.TemplateOptions
import MessageFlow.Kind
import MessageFlow.OptionId
import MessageFlow.Step.Basic

/-! The message that a node becomes. Each kind reads the node's data as its form; options lead where the
    edges at their handles lead. A form with gaps makes a message with gaps: only data of the wrong shape,
    or template options that do not read, are refused. -/

namespace MessageFlow

/-- Reads the form that the data of a node holds. -/
def Node.form {α : Type} (n : Node) (r : Record α) : Except Refusal α :=
  match Form.ofData r n.data with
  | .ok a => .ok a
  | .error e => .error (.invalidData n.id n.type e)

namespace Form

/-- The row for an option of a node. -/
def Choice.row (c : Choice) (node : String) (ix : Index) : OptionRow :=
  ⟨c.title.map OptionId.ofTitle, c.title, ix.successors node (some (.choice node c.id))⟩

def Text.content (f : Form.Text) : Content := .text f.body

def Media.content (f : Media) : Content := .attachment f.media f.caption

def Menu.content (f : Menu) (node : String) (ix : Index) : Content :=
  .list f.header f.body f.button (f.choices.map (·.row node ix))

def Buttons.content (f : Buttons) (node : String) (ix : Index) : Content :=
  .buttons (.ofParts f.headerType f.header f.media) f.body (f.choices.map (·.row node ix))

def Launch.content (f : Launch) (node : String) (ix : Index) : Content :=
  .launch (.ofParts f.headerType f.header f.media) f.body f.flow f.button (ix.successors node none)

/-- What a catalog form of a kind sends. -/
def Catalog.content (f : Catalog) : CatalogKind → Content
  | .catalogMessage => .catalogMessage (f.body.getD "")
  | .product => .product (f.body.getD "") f.catalog f.product
  | .productList => .productList (f.body.getD "") f.header f.button f.catalog f.productSets

/-- What a template form with the given options sends. -/
def Template.content (f : Template) (options : List OptionEntry) (node : String) (ix : Index) : Content :=
  .template f.templateId f.mediaObject
    (options.zipIdx.map fun (o, i) => o.resolve (ix.successors node (some (.choiceAt node i))))

end Form

namespace Message

/-- The message of a trigger. A trigger does not wait. -/
def ofTrigger (n : Node) (ix : Index) : Message where
  id := n.id
  kind := .triggers
  content := .trigger (ix.successors n.id (some .trigger))

def ofText (n : Node) : Except Refusal Message := do
  let f ← n.form Form.Text.record
  return { id := n.id, kind := .text, content := f.content, delay := n.delay }

/-- The message of an image, a video, an audio or a document node. -/
def ofMedia (kind : MessageKind) (n : Node) : Except Refusal Message := do
  let f ← n.form Form.Media.record
  return { id := n.id, kind := .attachment, subKind := some kind.name, content := f.content,
           delay := n.delay }

def ofList (n : Node) (ix : Index) : Except Refusal Message := do
  let f ← n.form Form.Menu.record
  return { id := n.id, kind := .interactive, subKind := some MessageKind.list.name,
           content := f.content n.id ix, delay := n.delay }

def ofButtons (n : Node) (ix : Index) : Except Refusal Message := do
  let f ← n.form Form.Buttons.record
  return { id := n.id, kind := .interactive, subKind := some MessageKind.button.name,
           content := f.content n.id ix, delay := n.delay }

def ofLaunch (n : Node) (ix : Index) : Except Refusal Message := do
  let f ← n.form Form.Launch.record
  return { id := n.id, kind := .interactive, subKind := some MessageKind.flow.name,
           content := f.content n.id ix, delay := n.delay }

/-- The message of a catalog node; one of an unknown catalogue type has none. -/
def ofCatalog (n : Node) : Except Refusal (Option Message) := do
  let f ← n.form Form.Catalog.record
  return (CatalogKind.ofName? f.type).map fun kind =>
    { id := n.id, kind := .catalog, subKind := some kind.name, content := f.content kind,
      delay := n.delay }

def ofTemplate (n : Node) (ix : Index) : Except Refusal Message := do
  let f ← n.form Form.Template.record
  match f.options with
  | .error fault => .error (.malformedOptions n.id fault)
  | .ok options =>
    return { id := n.id, kind := .template, content := f.content options n.id ix, delay := n.delay }

/-- The message of a node of a kind. Groups send none of their own. -/
def ofNode (kind : MessageKind) (n : Node) (ix : Index) : Except Refusal (Option Message) :=
  match kind with
  | .trigger => .ok (some (ofTrigger n ix))
  | .text => (ofText n).map some
  | .image | .video | .audio | .document => (ofMedia kind n).map some
  | .list => (ofList n ix).map some
  | .button => (ofButtons n ix).map some
  | .flow => (ofLaunch n ix).map some
  | .catalog => ofCatalog n
  | .template => (ofTemplate n ix).map some
  | .group => .ok none

end Message
end MessageFlow
