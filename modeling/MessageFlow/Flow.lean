import MessageFlow.Canvas.Basic
import MessageFlow.Step.Basic

/-! A flow: both views of one automation, the steps that the delivery engine runs and the canvas on
    which they are drawn. -/

namespace MessageFlow

/-- The steps of a flow and the canvas that they belong to. -/
structure Flow where
  stepEdges : List Edge
  steps : List Step
  nodes : List Node
  edges : List Edge

namespace Flow

def step? (f : Flow) (id : String) : Option Step := f.steps.find? fun s => s.id == id

def node? (f : Flow) (id : String) : Option Node := f.nodes.find? fun n => n.id == id

/-- The canvas alone, from which the steps can be made again. -/
def canvas (f : Flow) : Canvas := ⟨f.nodes, f.edges⟩

def write (f : Flow) : Json :=
  .obj [("edges", .arr (f.stepEdges.map Edge.codec.write)), ("nodes", .arr (Step.writeAll f.steps)),
    ("frontEndNodes", .arr (f.nodes.map Node.codec.write)),
    ("frontEndEdges", .arr (f.edges.map Edge.codec.write))]

end Flow
end MessageFlow
