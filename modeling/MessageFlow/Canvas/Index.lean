import MessageFlow.Canvas.Basic
import MessageFlow.Handle
import Std.Data.HashMap

/-! Looking up the nodes of a canvas by id and its edges by the node, or the node and handle, that they
    leave. An index is built in one pass over the nodes and one over the edges; the edges under a key
    keep their order. -/

namespace MessageFlow

/-- Nodes by id, edges by source, and edges by source and handle. -/
structure Index where
  nodes : Std.HashMap String Node
  bySource : Std.HashMap String (Array Edge)
  byHandle : Std.HashMap (String × Handle) (Array Edge)

namespace Index

/-- Puts an edge behind those that a key already has. -/
def append {κ : Type} [BEq κ] [Hashable κ] (m : Std.HashMap κ (Array Edge)) (key : κ) (e : Edge) :
    Std.HashMap κ (Array Edge) :=
  m.alter key fun found => some ((found.getD #[]).push e)

/-- The edges under each key that `key?` gives them. -/
def collect {κ : Type} [BEq κ] [Hashable κ] (key? : Edge → Option κ) (edges : List Edge) :
    Std.HashMap κ (Array Edge) :=
  edges.foldl (fun m e => match key? e with | some k => append m k e | none => m) ∅

/-- The handle that an edge leaves, with the node that it belongs to. -/
def handleKey? (e : Edge) : Option (String × Handle) :=
  e.sourceHandle.map fun raw => (e.source, Handle.parse e.source raw)

/-- The index of nodes and edges. Of several nodes with one id the last is found. -/
def ofLists (nodes : List Node) (edges : List Edge) : Index where
  nodes := nodes.foldl (fun m n => m.insert n.id n) ∅
  bySource := collect (fun e => some e.source) edges
  byHandle := collect handleKey? edges

/-- The node with an id. -/
def node? (ix : Index) (id : String) : Option Node := ix.nodes[id]?

/-- The edges that leave a node, or one handle of it, in their order. -/
def edgesFrom (ix : Index) (id : String) (handle : Option Handle) : List Edge :=
  match handle with
  | some h => (ix.byHandle.getD (id, h) #[]).toList
  | none => (ix.bySource.getD id #[]).toList

theorem toList_collect {κ : Type} [BEq κ] [LawfulBEq κ] [Hashable κ] (key? : Edge → Option κ)
    (edges : List Edge) (k : κ) :
    ((collect key? edges).getD k #[]).toList = edges.filter fun e => key? e == some k := by
  have step : ∀ (edges : List Edge) (m : Std.HashMap κ (Array Edge)),
      ((edges.foldl (fun m e => match key? e with | some k => append m k e | none => m) m).getD k
        #[]).toList = (m.getD k #[]).toList ++ edges.filter fun e => key? e == some k := by
    intro edges
    induction edges with
    | nil => simp
    | cons e rest ih =>
      intro m
      rw [List.foldl_cons, ih]
      cases he : key? e with
      | none => simp [he]
      | some j =>
        by_cases hj : j = k
        · subst hj
          simp [he, append, Std.HashMap.getD_eq_getD_getElem?]
        · simp [he, append, Std.HashMap.getD_alter, hj]
  rw [collect, step]
  simp

/-- The index finds the edges of a source that a scan of all edges finds, in the same order. -/
theorem edgesFrom_none (nodes : List Node) (edges : List Edge) (id : String) :
    (ofLists nodes edges).edgesFrom id none = edges.filter fun e => e.source == id := by
  simp only [edgesFrom, ofLists, toList_collect]
  exact List.filter_congr fun e _ => by simp

/-- The nodes that these edges lead to. -/
def successors (ix : Index) (id : String) (handle : Option Handle) : List String :=
  (ix.edgesFrom id handle).map (·.target)

end Index
end MessageFlow
