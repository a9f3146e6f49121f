import MessageFlow.Kind
import MessageFlow.Step.Basic

/-! What a message specification can be of. A kind with one message becomes a node of its own; a group
    holds specifications of such kinds. Requests and the items of a group name their kind by a type and a
    sub type, by rules that differ: in a request a known sub type outranks the type `template`. -/

namespace MessageFlow
namespace Scaffold

/-- The kinds of specification with one message. -/
inductive SingleKind where
  | text
  | image
  | video
  | document
  | list
  | button
  | flow
  | catalogMessage
  | product
  | productList
  | template
deriving DecidableEq, Repr

/-- The kinds of specification. -/
inductive Kind where
  | single (kind : SingleKind)
  | group
deriving DecidableEq, Repr

namespace SingleKind

def all : List SingleKind :=
  [.text, .image, .video, .document, .list, .button, .flow, .catalogMessage, .product, .productList,
    .template]

def name : SingleKind → String
  | .text => "text"
  | .image => "image"
  | .video => "video"
  | .document => "document"
  | .list => "list"
  | .button => "button"
  | .flow => "flow"
  | .catalogMessage => "catalog_message"
  | .product => "product"
  | .productList => "product_list"
  | .template => "template"

/-- The kinds that a sub type can name. -/
def ofSubType? (s : String) : Option SingleKind :=
  all.find? fun k => k != .text && k != .template && k.name == s

/-- The kind of an item of a group. -/
def ofItem? (type : String) (subType : Option String) : Option SingleKind :=
  if type = "text" then some .text
  else if type = "template" then some .template
  else subType.bind ofSubType?

/-- The kind of node that the message becomes. -/
def messageKind : SingleKind → MessageKind
  | .text => .text
  | .image => .image
  | .video => .video
  | .document => .document
  | .list => .list
  | .button => .button
  | .flow => .flow
  | .catalogMessage | .product | .productList => .catalog
  | .template => .template

/-- The kind of step that carries the specification. -/
def stepKind : SingleKind → StepKind
  | .text => .text
  | .image | .video | .document => .attachment
  | .list | .button | .flow => .interactive
  | .catalogMessage | .product | .productList => .catalog
  | .template => .template

/-- The sub type of that step. -/
def subKind : SingleKind → Option String
  | .text | .template => none
  | k => some k.name

end SingleKind

namespace Kind

def all : List Kind := SingleKind.all.map .single ++ [.group]

def name : Kind → String
  | .single k => k.name
  | .group => "group"

/-- The kind with a name. -/
def ofName? (s : String) : Option Kind := all.find? fun k => k.name == s

/-- The kind of a request: the type `text` outranks all, then a known sub type decides, then the types
    `template` and `group`. -/
def ofRequest? (type : String) (subType : Option String) : Option Kind :=
  if type = "text" then some (.single .text)
  else
    match subType.bind SingleKind.ofSubType? with
    | some k => some (.single k)
    | none =>
      if type = "template" then some (.single .template)
      else if type = "group" then some .group
      else none

def messageKind : Kind → MessageKind
  | .single k => k.messageKind
  | .group => .group

def stepKind : Kind → StepKind
  | .single k => k.stepKind
  | .group => .group

def subKind : Kind → Option String
  | .single k => k.subKind
  | .group => none

end Kind

end Scaffold
end MessageFlow
