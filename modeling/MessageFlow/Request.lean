import MessageFlow.Campaign.Basic
import MessageFlow.Compile.Basic
import MessageFlow.Scaffold.Basic

/-! Requests: a JSON body in, a response with one flow out. A failure says whether the request itself is
    at fault (status 400) or what it asks to be compiled (status 422). -/

namespace MessageFlow

/-- What is wrong with the body of a request. -/
inductive BodyFault where
  | notAnObject
  | notAList
  /-- The flow in it is no canvas. -/
  | unreadableFlow (error : ReadError)
  /-- It is no request of its kind. -/
  | unreadable (error : ReadError)
deriving DecidableEq

def BodyFault.describe : BodyFault → String
  | .notAnObject => "request body must be an object"
  | .notAList => "Input must be a non-empty array"
  | .unreadableFlow e => "invalid flowConfig: " ++ e.message
  | .unreadable e => e.message

/-- Why a request fails. -/
inductive RequestError where
  | invalidBody (fault : BodyFault)
  /-- The body has no flow. -/
  | missingFlow
  | compile (error : CompileError)
  | scaffold (error : ScaffoldError)
  | campaign (error : CampaignError)
deriving DecidableEq

namespace RequestError

def message : RequestError → String
  | .invalidBody fault => "Invalid input: " ++ fault.describe
  | .missingFlow => "Flow Config is required"
  | .compile e => e.message
  | .scaffold e => e.message
  | .campaign e => e.message

/-- The status of the answer. -/
def status : RequestError → Nat
  | .invalidBody _ | .missingFlow | .campaign _ | .scaffold (.unsupported _ _) => 400
  | .compile _ | .scaffold (.malformed _ _) => 422

end RequestError

/-- The answer to a request: a flow, or none where a specification does not fit its kind. -/
structure Response where
  flow : Option Flow

def Response.write (r : Response) : Json := .obj [("flowConfig", .ofOption (r.flow.map Flow.write))]

namespace Request

/-- The canvas in the body of a request to compile. -/
def canvas (body : Json) : Except RequestError Canvas :=
  match body with
  | .obj fields =>
    match Json.Object.get? fields "flowConfig" with
    | none | some .null => .error .missingFlow
    | some flow =>
      match Canvas.codec.read flow with
      | .ok c => .ok c
      | .error e => .error (.invalidBody (.unreadableFlow e))
  | _ => .error (.invalidBody .notAnObject)

/-- Compiles a canvas with the usual settings. -/
def compileCanvas (c : Canvas) : Except RequestError Response :=
  match c.compile {} with
  | .ok flow => .ok ⟨some flow⟩
  | .error e => .error (.compile e)

/-- Compiles the canvas in a body. -/
def compile (body : Json) : Except RequestError Response :=
  match canvas body with
  | .error e => .error e
  | .ok c => compileCanvas c

/-- Scaffolds the specification in a body. One that does not fit its kind gives no flow. -/
def scaffold (body : Json) (ids : IdSource) : Except RequestError (Response × IdSource) :=
  if body.isObject then
    match Scaffold.Request.record.read body with
    | .error e => .error (.invalidBody (.unreadable e))
    | .ok r =>
      match Scaffold.ofRequest r ids with
      | .ok (flow, rest) => .ok (⟨some flow⟩, rest)
      | .error (.malformed _ _) => .ok (⟨none⟩, ids)
      | .error e => .error (.scaffold e)
  else .error (.invalidBody .notAnObject)

/-- Sequences the descriptors in a body. -/
def campaign (body : Json) (ids : IdSource) : Except RequestError (Response × IdSource) :=
  match body with
  | .arr items =>
    match (Campaign.ofItems items {}).sequence ids with
    | .ok (flow, rest) => .ok (⟨some flow⟩, rest)
    | .error e => .error (.campaign e)
  | _ => .error (.invalidBody .notAList)

/-- The three kinds of request. -/
inductive Command where
  | compile
  | scaffold
  | campaign
deriving DecidableEq, Repr

/-- Answers a request. -/
def answer (command : Command) (body : Json) (ids : IdSource) : Except RequestError (Response × IdSource) :=
  match command with
  | .compile => (compile body).map (·, ids)
  | .scaffold => scaffold body ids
  | .campaign => campaign body ids

end Request
end MessageFlow
