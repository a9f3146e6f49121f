import MessageFlow.Request

/-! Sessions: a canvas that is edited step by step, with the flow it was last compiled to. A step that
    fails leaves everything as it was. -/

namespace MessageFlow

/-- What a session holds between its steps. -/
structure Session where
  canvas : Canvas
  last : Option Flow
  ids : IdSource

namespace Session

/-- A session without nodes. -/
def start (ids : IdSource) : Session := ⟨.empty, none, ids⟩

/-- What can be done in a session. -/
inductive Action where
  | load (canvas : Canvas)
  | add (canvas : Canvas)
  | remove (id : String)
  | scaffold (body : Json)
  | campaign (campaign : Campaign)
  | sanitize
  | dropRepeats
  | compile (settings : Compile.Settings)
  /-- Compiles the canvas and keeps nothing of it. -/
  | preview
  | find (id : String)

/-- What a step answers. -/
inductive Answer where
  | counts (nodes edges : Nat)
  | response (response : Response)
  | sequenced (campaign : Campaign) (flow : Flow)
  | nodes (nodes : List Node)
  | edges (edges : List Edge)
  | flow (flow : Flow)
  | found (step : Option Step) (node : Option Node)

/-- Why a step fails. -/
inductive Failure where
  | request (error : RequestError)
  | campaign (campaign : Campaign) (error : CampaignError)
  | compile (error : CompileError)

/-- The canvas is replaced and compiled nowhere yet. -/
def replace (s : Session) (c : Canvas) : Session := { s with canvas := c, last := none }

/-- The size of the canvas. -/
def counts (s : Session) : Answer := .counts s.canvas.nodes.length s.canvas.edges.length

/-- The session that goes on with the canvas of a flow made with new ids. -/
def adopt (f : Flow) (ids : IdSource) : Session := ⟨f.canvas, none, ids⟩

/-- Does one thing. -/
def step (s : Session) : Action → Except Failure (Answer × Session)
  | .load c => let s := s.replace c; .ok (s.counts, s)
  | .add c =>
    let s := { s with canvas := ⟨s.canvas.nodes ++ c.nodes, s.canvas.edges ++ c.edges⟩ }
    .ok (s.counts, s)
  | .remove id =>
    let s := { s with canvas := ⟨s.canvas.nodes.filter (·.id != id), s.canvas.edges⟩ }
    .ok (s.counts, s)
  | .scaffold body =>
    match Request.scaffold body s.ids with
    | .error e => .error (.request e)
    | .ok (⟨some f⟩, ids) => .ok (.response ⟨some f⟩, adopt f ids)
    | .ok (⟨none⟩, ids) => .ok (.response ⟨none⟩, { s with ids := ids })
  | .campaign c =>
    match c.sequence s.ids with
    | .error e => .error (.campaign c e)
    | .ok (f, ids) => .ok (.sequenced c f, adopt f ids)
  | .sanitize =>
    let nodes := s.canvas.nodes.map Node.sanitize
    .ok (.nodes nodes, { s with canvas := ⟨nodes, s.canvas.edges⟩ })
  | .dropRepeats =>
    let edges := Edge.distinct s.canvas.edges
    .ok (.edges edges, { s with canvas := ⟨s.canvas.nodes, edges⟩ })
  | .compile settings =>
    match s.canvas.compile settings with
    | .error e => .error (.compile e)
    | .ok f => .ok (.flow f, { s with canvas := f.canvas, last := some f })
  | .preview =>
    match Request.compileCanvas s.canvas with
    | .error e => .error (.request e)
    | .ok r => .ok (.response r, s)
  | .find id => .ok (.found (s.last.bind (·.step? id)) (s.last.bind (·.node? id)), s)

end Session
end MessageFlow
