import MessageFlow.Flow
import MessageFlow.Handle
import MessageFlow.IdSource
import MessageFlow.Scaffold.Form
import MessageFlow.Scaffold.Placement
import MessageFlow.Text.Quoted

/-! Scaffolding: from a message specification to a first canvas, a trigger with the message behind it.
    A group hangs several messages off one trigger; items that give no message are left out of the
    canvas, while the one step keeps all specifications as they were given. Ids are drawn in the order in
    which the nodes stand, and none where nothing comes of a specification; drawn item by item, with some
    of them lost, they make the same (`itemwise_eq_group`). -/

namespace MessageFlow

/-- Why nothing can be scaffolded. -/
inductive ScaffoldError where
  /-- No kind has the type and sub type. -/
  | unsupported (type : String) (subType : Option String)
  /-- The specification is not one of its kind. -/
  | malformed (kind : Scaffold.Kind) (fault : SpecFault)
deriving DecidableEq

/-- A text that may be missing, as messages show it. -/
def ScaffoldError.shown : Option String → String
  | none => "None"
  | some s => "Some(" ++ Text.quoted s ++ ")"

def ScaffoldError.message : ScaffoldError → String
  | .unsupported type subType =>
    "No scaffold exists for message type '" ++ type ++ "' (sub type: " ++ shown subType ++ ")"
  | .malformed kind fault =>
    "Malformed '" ++ kind.name ++ "' message specification: " ++ fault.message

namespace Scaffold

/-- A trigger in its place. -/
def triggerNode (id : String) : Node :=
  Placement.trigger.place { id := id, type := MessageKind.trigger.name, data := .obj [] }

/-- The edge from a trigger to a node. -/
def triggerEdge (trigger target : String) : Edge where
  id := "xy-edge__" ++ trigger ++ Handle.triggerOutput ++ "-" ++ target
  source := trigger
  target := target
  sourceHandle := some Handle.triggerOutput
  animated := some true

/-- The node of a message in its place. -/
def SingleKind.node (k : SingleKind) (data : Json) (id : String) : Node :=
  k.placement.place { id := id, type := k.messageKind.name, data := data }

/-- The step that carries a specification. -/
def SingleKind.step (k : SingleKind) (spec : Json) (id : String) : Step :=
  .message { id := id, kind := k.stepKind, subKind := k.subKind, content := .spec spec }

/-- A trigger and a message behind it. -/
def single (k : SingleKind) (spec : Json) (ids : IdSource) : Except SpecFault (Flow × IdSource) :=
  match k.data spec with
  | .error e => .error e
  | .ok data =>
    let trigger := ids.head
    let message := (ids.skip 1).head
    .ok ({ stepEdges := [], steps := [k.step spec message],
           nodes := [triggerNode trigger, k.node data message],
           edges := [triggerEdge trigger message] }, ids.skip 2)

/-- A request for a scaffold: the type and sub type that name the kind, and the specification. -/
structure Request where
  type : String
  subType : Option String
  data : Json

def Request.record : Record Request where
  name := "ScaffoldRequest"
  schema :=
    (Schema.build mk)
      |>.field (.required "type" .text) type
      |>.field (.optional "sub_type" .text) subType
      |>.field (.withDefault "data" .json .null) data

/-- The message of an item of a group: its kind and the data of its node. -/
def item? (item : Json) : Option (SingleKind × Json) :=
  match Request.record.read item with
  | .error _ => none
  | .ok r =>
    match SingleKind.ofItem? r.type r.subType with
    | none => none
    | some k =>
      match k.data r.data with
      | .error _ => none
      | .ok data => some (k, data)

/-- The messages of a group behind one trigger. -/
def group (items : List Json) (ids : IdSource) : Flow × IdSource :=
  let messages := items.filterMap item?
  let trigger := ids.head
  let drawn := (ids.skip 1).peek messages.length
  let rest := ids.skip (1 + messages.length)
  ({ stepEdges := [],
     steps := [.message { id := rest.head, kind := .group, content := .specs items }],
     nodes := triggerNode trigger :: List.zipWith (fun m id => m.1.node m.2 id) messages drawn,
     edges := drawn.map (triggerEdge trigger) }, rest.skip 1)

/-- The scaffold of a specification of a kind. -/
def ofSpec (k : Kind) (spec : Json) (ids : IdSource) : Except ScaffoldError (Flow × IdSource) :=
  match k, spec with
  | .group, .arr items => .ok (group items ids)
  | .group, _ => .error (.malformed .group .notAList)
  | .single s, _ =>
    match single s spec ids with
    | .ok r => .ok r
    | .error e => .error (.malformed k e)

/-- The scaffold that a request asks for. -/
def ofRequest (r : Request) (ids : IdSource) : Except ScaffoldError (Flow × IdSource) :=
  match Kind.ofRequest? r.type r.subType with
  | none => .error (.unsupported r.type r.subType)
  | some k => ofSpec k r.data ids

end Scaffold
end MessageFlow
