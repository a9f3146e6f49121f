import MessageFlow.Proofs.Canvas.Sameness
import MessageFlow.Proofs.Compile.Stripping

/-! # What a flow shows of its canvas

A flow shows the canvas that it was compiled from. Its edges are those of the canvas, and the steps are joined by the
same edges without repeats. Its nodes are those of the canvas, one by one; a node that counts as a template may have
lost fields of the template that its data describes, the transient ones and no others, and all other nodes are as they
were. The data of nodes is in canonical form, as `Json.isCanonical_of_parse` has it of what is read from text. -/

namespace MessageFlow

/-! ### Data without what is transient -/

namespace Json

/-- Of data that describes a template, what is left without the transient fields of the template; other data as it
    is. -/
inductive Pruned : Json → Json → Prop
  | template {before details after : Object} (hbefore : "template" ∉ before.map (·.1))
      (hafter : "template" ∉ after.map (·.1)) :
    Pruned (.obj (before ++ ("template", .obj details) :: after))
      (.obj (before ++
        ("template", .obj (details.filter fun f => f.1 ≠ "components" ∧ f.1 ≠ "raw_data")) :: after))
  | other {v : Json} (h : ∀ details, v.get? "template" ≠ some (.obj details)) : Pruned v v

theorem without_transientFields (details : Object) : Object.without details transientFields =
    details.filter fun f => f.1 ≠ "components" ∧ f.1 ≠ "raw_data" :=
  List.filter_congr fun f _ => by simp [transientFields]

/-- Fields under other keys are not looked into. -/
theorem map_stripped_of_notMem {fields : Object} (h : "template" ∉ fields.map (·.1)) :
    (fields.map fun f => (f.1, if f.1 = "template" then f.2.dropTransient else f.2)) = fields := by
  refine (List.map_congr_left fun f hf => ?_).trans (List.map_id fields)
  have hkey : f.1 ≠ "template" := fun heq => h (heq ▸ List.mem_map.2 ⟨f, hf, rfl⟩)
  rw [if_neg hkey, id_eq]

theorem stripTemplate_eq_self {v : Json} (hv : v.IsCanonical)
    (h : ∀ details, v.get? "template" ≠ some (.obj details)) : v.stripTemplate = v := by
  cases v with
  | obj fields =>
    have hfields : ∀ f ∈ fields, (if f.1 = "template" then f.2.dropTransient else f.2) = f.2 := by
      intro f hf
      split
      · next hkey =>
        have hget : Json.get? "template" (.obj fields) = some f.2 :=
          hkey ▸ (isCanonical_obj_iff.1 hv).1.get?_of_mem hf
        cases hvalue : f.2 with
        | obj details => exact absurd (hvalue ▸ hget) (h details)
        | _ => rfl
      · rfl
    refine congrArg Json.obj ((List.map_congr_left fun f hf => ?_).trans (List.map_id fields))
    rw [hfields f hf, id_eq]
  | _ => rfl

theorem pruned_stripTemplate {v : Json} (hv : v.IsCanonical) : Pruned v v.stripTemplate := by
  by_cases h : ∃ details, v.get? "template" = some (.obj details)
  · obtain ⟨details, hget⟩ := h
    cases v with
    | obj fields =>
      obtain ⟨before, after, rfl, -⟩ := List.lookup_eq_some_iff.1 hget
      have hnodup := (isCanonical_obj_iff.1 hv).1.nodup
      rw [List.map_append, List.map_cons, List.nodup_append', List.nodup_cons] at hnodup
      obtain ⟨-, ⟨hafter, -⟩, hdisjoint⟩ := hnodup
      have hbefore : "template" ∉ before.map (·.1) := fun hm => hdisjoint hm List.mem_cons_self
      rw [stripTemplate, List.map_append, List.map_cons, map_stripped_of_notMem hbefore, map_stripped_of_notMem hafter,
        if_pos rfl, dropTransient, without_transientFields]
      exact .template hbefore hafter
    | _ => cases hget
  · have hother : ∀ details, v.get? "template" ≠ some (.obj details) := fun details hget => h ⟨details, hget⟩
    rw [stripTemplate_eq_self hv hother]
    exact .other hother

end Json

/-! ### Nodes -/

namespace Compile

/-- What is shown for a node: the node itself, but if templates are stripped and it counts as one, its data is without
    what is transient. -/
structure Shows (s : Settings) (given shown : Node) : Prop where
  node : shown = { given with data := shown.data }
  template : s.sanitize = true → s.kindOf given.type = some .template → Json.Pruned given.data shown.data
  other : ¬(s.sanitize = true ∧ s.kindOf given.type = some .template) → shown = given

theorem shows_sort (s : Settings) {n : Node} (hn : n.data.IsCanonical) : Shows s n (sort s n).node := by
  by_cases h : s.sanitize = true ∧ s.kindOf n.type = some .template
  · have hstrip : (sort s n).node = n.strip := if_pos h
    rw [hstrip]
    exact ⟨rfl, fun _ _ => Json.pruned_stripTemplate hn, fun hne => absurd h hne⟩
  · have hsame : (sort s n).node = n := if_neg h
    rw [hsame]
    exact ⟨rfl, fun hs hk => absurd ⟨hs, hk⟩ h, fun _ => rfl⟩

theorem sanitize_sanitize (n : Node) : n.sanitize.sanitize = n.sanitize := by
  unfold Node.sanitize
  by_cases h : MessageKind.ofName? n.type = some .template
  · have htype : n.strip.type = n.type := rfl
    rw [if_pos h, htype, if_pos h, strip_strip]
  · rw [if_neg h, if_neg h]

/-- Without rules for types, the settings and the single node's own type tell the same kind. -/
theorem sort_unmapped {s : Settings} (hs : s.types = ∅) (n : Node) :
    (sort s n).node = if s.sanitize = true then n.sanitize else n := by
  have hkind : s.kindOf n.type = MessageKind.ofName? n.type := by simp [Settings.kindOf, hs]
  simp only [sort, hkind, Node.sanitize]
  by_cases hsanitize : s.sanitize = true <;> simp [hsanitize]

/-! ### Canvases -/

/-- The flow shows the canvas: its edges and nodes in their order, the nodes without what is transient. -/
structure ShowsCanvas (c : Canvas) (s : Settings) (f : Flow) : Prop where
  edges : f.edges = c.edges
  stepEdges : f.stepEdges = Edge.firsts f.edges
  unrepeated : (f.edges.Pairwise fun a b => (a == b) = false) → f.stepEdges = f.edges
  nodes : List.Forall₂ (Shows s) c.nodes f.nodes
  unmapped : s.types = ∅ → f.nodes = if s.sanitize = true then c.nodes.map Node.sanitize else c.nodes
  sanitized : ∀ n : Node, n.sanitize.sanitize = n.sanitize

theorem showsCanvas_of_compile {c : Canvas} {s : Settings} {f : Flow} (hc : ∀ n ∈ c.nodes, n.data.IsCanonical)
    (h : c.compile s = .ok f) : ShowsCanvas c s f := by
  have hflow := flow_of_compile h
  have hedges : f.edges = c.edges := congrArg Flow.edges hflow
  have hnodes : f.nodes = c.nodes.map fun n => (sort s n).node := congrArg Flow.nodes hflow
  have hstepEdges : f.stepEdges = Edge.distinct f.edges := by rw [hedges, hflow]
  refine ⟨hedges, hstepEdges.trans (Edge.distinct_eq_firsts f.edges), fun hapart => ?_, ?_, fun hs => ?_,
    sanitize_sanitize⟩
  · rw [hstepEdges, Edge.distinct_eq_self hapart]
  · rw [hnodes, List.forall₂_map_right_iff]
    exact List.forall₂_same.2 fun n hn => shows_sort s (hc n hn)
  · rw [hnodes]
    simp only [sort_unmapped hs]
    split
    · rfl
    · exact List.map_id c.nodes

/-- Two templates, one of a type that only a rule knows, behind a trigger with an edge drawn twice. -/
def leaflets : Canvas where
  nodes :=
    [{ id := "start", type := "startNode", data := .obj [("template", .obj [("components", .null)])] },
     { id := "spring", type := "template", data := .obj [("media", .null),
        ("template", .obj [("components", .arr []), ("raw_data", .null), ("templateId", .str "spring")])] },
     { id := "summer", type := "leaflet",
       data := .obj [("template", .obj [("raw_data", .obj []), ("theme", .nat 3)])] }]
  edges :=
    [{ id := "e", source := "start", target := "spring", sourceHandle := some "startNodeOut" },
     { id := "e", source := "start", target := "spring", sourceHandle := some "startNodeOut" }]

/-- Leaflets are templates. -/
def leafletRule : Settings := ({} : Settings).withType "leaflet" "template"

theorem kindOf_leafletRule (type : String) : leafletRule.kindOf type =
    if "leaflet" = type then some .template else MessageKind.ofName? type := by
  rw [leafletRule, kindOf_withType, kindOf_default]
  rfl

theorem isCanonical_leaflets : ∀ n ∈ leaflets.nodes, n.data.IsCanonical := by
  simp only [leaflets, List.forall_mem_cons, List.not_mem_nil, false_implies, implies_true, Json.nat,
    Json.IsCanonical, Json.IsCanonicalItems, Json.IsCanonicalFields, Json.Object.Ascending]
  decide

theorem compile_leaflets : ∃ f, leaflets.compile leafletRule = .ok f := by
  have hids : leaflets.DistinctIds := by
    unfold Canvas.DistinctIds
    decide
  refine exists_compile_eq_ok hids ?_
  simp only [leaflets, List.forall_mem_cons, refusal, sort, kindOf_leafletRule]
  decide

theorem showsCanvas_leaflets : (∀ n ∈ leaflets.nodes, n.data.IsCanonical) ∧
    ∃ f, leaflets.compile leafletRule = .ok f ∧ ShowsCanvas leaflets leafletRule f := by
  obtain ⟨f, hf⟩ := compile_leaflets
  exact ⟨isCanonical_leaflets, f, hf, showsCanvas_of_compile isCanonical_leaflets hf⟩

end Compile
end MessageFlow
