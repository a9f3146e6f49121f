import MessageFlow.Proofs.Compile.Rerouting
import MessageFlow.Proofs.Compile.Stripping

/-! # Edges drawn twice

The steps of a canvas name a target once for every edge that leads to it, while the flow lists of several edges that
are the same only the first. Compiled along the edges that the flow lists, the canvas has the same steps but for these
repeats. -/

namespace MessageFlow

/-- The edges that leave a node, or one handle of it, in their order. -/
def Canvas.exits (c : Canvas) (source : String) : Option String → List Edge
  | none => c.edges.filter fun e => e.source == source
  | some handle => c.edges.filter fun e => e.source == source && e.sourceHandle == some handle

namespace Compile

/-- The first list names a target for each of the edges that leave the node, or the given handle of it; the second
    leaves out those of edges that repeat an earlier one. -/
structure Thinned (c : Canvas) (id : String) (handle : Option String) (target target' : List String) : Prop where
  all : target = (c.exits id handle).map (·.target)
  distinct : target' = (Edge.distinct (c.exits id handle)).map (·.target)

section Thinning
variable {c : Canvas} {s : Settings} {f : Flow}

/-- Without repeats, what leaves a node is what leaves it, without repeats. -/
theorem exits_distinct (c : Canvas) (source : String) (handle : Option String) :
    Canvas.exits ⟨c.nodes, Edge.distinct c.edges⟩ source handle = Edge.distinct (c.exits source handle) := by
  cases handle with
  | none =>
    refine (Edge.distinct_filter (fun a b h => ?_) c.edges).symm
    obtain ⟨-, hsource, -⟩ := Edge.beq_iff.1 h
    rw [hsource]
  | some handle =>
    refine (Edge.distinct_filter (fun a b h => ?_) c.edges).symm
    obtain ⟨-, hsource, -, hhandle, -⟩ := Edge.beq_iff.1 h
    rw [hsource, hhandle]

theorem thinned_targetsFrom (c : Canvas) (id : String) :
    Thinned c id none (c.targetsFrom id) (Canvas.targetsFrom ⟨c.nodes, Edge.distinct c.edges⟩ id) :=
  ⟨rfl, congrArg (List.map fun e : Edge => e.target) (exits_distinct c id none)⟩

theorem thinned_targetsAt (c : Canvas) (id handle : String) :
    Thinned c id (some handle) (c.targetsAt id handle)
      (Canvas.targetsAt ⟨c.nodes, Edge.distinct c.edges⟩ id handle) :=
  ⟨rfl, congrArg (List.map fun e : Edge => e.target) (exits_distinct c id (some handle))⟩

/-- Along the edges that a flow lists, its canvas compiles again: to the same steps, each without the targets of edges
    that repeat an earlier one, and with the same edges. -/
theorem exists_compile_stepEdges (h : c.compile s = .ok f) : ∃ g, Canvas.compile ⟨c.nodes, f.stepEdges⟩ s = .ok g ∧
    g.stepEdges = f.stepEdges ∧ List.Forall₂ (Step.Retargeted (Thinned c) c s) f.steps g.steps := by
  have hedges : f.stepEdges = Edge.distinct c.edges := by rw [flow_of_compile h]
  have hnodes : Canvas.nodes ⟨c.nodes, Edge.distinct c.edges⟩ = c.nodes := rfl
  rw [hedges]
  obtain ⟨g, hg, hsteps⟩ := exists_compile_of_edges hnodes (thinned_targetsFrom c) (thinned_targetsAt c) h
  refine ⟨g, hg, ?_, hsteps⟩
  rw [flow_of_compile hg]
  exact Edge.distinct_eq_self (Edge.pairwise_distinctFrom c.edges ∅)

end Thinning

/-! ### A trigger with an edge drawn twice -/

def doubled : Canvas where
  nodes := [{ id := "start", type := "startNode", data := .null },
    { id := "hello", type := "text", data := .obj [("body", .str "Hi")] }]
  edges := [{ id := "e", source := "start", target := "hello", sourceHandle := some "startNodeOut" },
    { id := "e", source := "start", target := "hello", sourceHandle := some "startNodeOut" }]

theorem compile_doubled (edges : List Edge) : ∃ f, Canvas.compile ⟨doubled.nodes, edges⟩ {} = .ok f ∧
    f.steps = List.map .message
      [{ id := "start", kind := .triggers,
         content := .trigger (Canvas.targetsAt ⟨doubled.nodes, edges⟩ "start" "startNodeOut") },
       { id := "hello", kind := .text, content := .text "Hi" }] := by
  refine exists_compile_of_messages rfl ?_
  refine .cons ⟨.trigger, ?_, ?_⟩ (.cons ⟨.text, ?_, ?_⟩ .nil)
  · rw [kindOf_default]
    rfl
  · have hsent : Message.Sent { id := "start", type := "startNode", data := .null }
        (plan ⟨doubled.nodes, edges⟩ {}).index .trigger _ := .trigger
    rw [Message.ofTrigger, plan, Plan.ofNodes, Index.successors_trigger] at hsent
    rw [sort_node_of_ne (by simp [kindOf_default]; decide)]
    exact hsent
  · rw [kindOf_default]
    rfl
  · rw [sort_node_of_ne (by simp [kindOf_default]; decide)]
    exact .text (f := ⟨true, "Hi"⟩) rfl

theorem exists_compile_stepEdges_doubled : ∃ f, doubled.compile {} = .ok f ∧
    ∃ g, Canvas.compile ⟨doubled.nodes, f.stepEdges⟩ {} = .ok g ∧ g.stepEdges = f.stepEdges ∧
      List.Forall₂ (Step.Retargeted (Thinned doubled) doubled {}) f.steps g.steps := by
  obtain ⟨f, hf, -⟩ := compile_doubled doubled.edges
  exact ⟨f, hf, exists_compile_stepEdges hf⟩

/-- The trigger names its one successor twice, and once along the edges of its flow. -/
theorem steps_ne_doubled : ∃ f g, doubled.compile {} = .ok f ∧
    Canvas.compile ⟨doubled.nodes, f.stepEdges⟩ {} = .ok g ∧ g.steps ≠ f.steps := by
  obtain ⟨f, hf, hfsteps⟩ := compile_doubled doubled.edges
  obtain ⟨g, hg, hgsteps⟩ := compile_doubled f.stepEdges
  refine ⟨f, g, hf, hg, fun h => ?_⟩
  have honce : f.stepEdges = doubled.edges.take 1 := by
    rw [flow_of_compile hf]
    simp [Edge.distinct, Edge.distinctFrom, doubled]
  rw [hfsteps, hgsteps, honce] at h
  simp only [List.map_cons, List.cons.injEq, Step.message.injEq, Message.mk.injEq, Content.trigger.injEq, and_true,
    true_and] at h
  revert h
  decide

end Compile
end MessageFlow
