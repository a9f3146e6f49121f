import MessageFlow.Proofs.Scaffold.Group

/-! # Alone and in a group

A request is routed to its kind by other rules than an item of a group. The two come to the same kind but for a template
with a sub type that names a kind, and for a group without one. Where they do, a request gives a scaffold if and only if
the group of this one item keeps a message, and the nodes are the same but for their ids. -/

namespace MessageFlow

/-- The nodes of a flow that are no triggers. -/
def Flow.messageNodes (f : Flow) : List Node := f.nodes.filter fun n => n.type != MessageKind.trigger.name

/-- The node but for its id. -/
def Node.anonymous (n : Node) : Node := { n with id := "" }

namespace Scaffold

/-! ### Routes -/

/-- The sub types that name a kind. -/
def subTypes : List String :=
  ["image", "video", "document", "list", "button", "flow", "catalog_message", "product", "product_list"]

namespace Request

def Recognised (r : Request) : Prop := ∃ s ∈ subTypes, r.subType = some s

/-- The request is of another kind than it would be as an item of a group. -/
def Diverges (r : Request) : Prop := (r.type = "template" ∧ r.Recognised) ∨ (r.type = "group" ∧ ¬r.Recognised)

end Request

section Routes
variable {r : Request} {s : String} {k : SingleKind}

theorem isSome_ofSubType?_iff : (SingleKind.ofSubType? s).isSome = true ↔ s ∈ subTypes := by
  rw [SingleKind.ofSubType?, List.find?_isSome, subTypes, SingleKind.all]
  simp [SingleKind.name, eq_comm (a := s)]

theorem ne_template_of_ofSubType? (h : SingleKind.ofSubType? s = some k) : k ≠ .template := by
  have hnamed := List.find?_some h
  rintro rfl
  simp at hnamed

theorem Request.recognised_iff : r.Recognised ↔ ∃ k, r.subType.bind SingleKind.ofSubType? = some k := by
  constructor
  · rintro ⟨s, hs, hsub⟩
    rw [hsub, Option.bind_some]
    exact Option.isSome_iff_exists.1 (isSome_ofSubType?_iff.2 hs)
  · rintro ⟨k, hk⟩
    obtain ⟨s, hsub, hs⟩ := Option.bind_eq_some_iff.1 hk
    exact ⟨s, isSome_ofSubType?_iff.1 (Option.isSome_iff_exists.2 ⟨k, hs⟩), hsub⟩

theorem ofRequest?_eq_iff (r : Request) : Kind.ofRequest? r.type r.subType =
    (SingleKind.ofItem? r.type r.subType).map .single ↔ ¬r.Diverges := by
  rw [Request.Diverges, Request.recognised_iff, Kind.ofRequest?, SingleKind.ofItem?]
  by_cases htext : r.type = "text"
  · simp [htext]
  · -- Behind `text` the rules part: for an item the type `template` comes next, for a request the sub type.
    rw [if_neg htext, if_neg htext]
    by_cases htemplate : r.type = "template"
    · cases hsub : r.subType.bind SingleKind.ofSubType? with
      | none => simp [htemplate]
      | some k =>
        obtain ⟨s, -, hs⟩ := Option.bind_eq_some_iff.1 hsub
        simp [htemplate, ne_template_of_ofSubType? hs]
    · cases hsub : r.subType.bind SingleKind.ofSubType? with
      | none => by_cases hgroup : r.type = "group" <;> simp [htemplate, hgroup]
      | some k => simp [htemplate]

example : Kind.ofRequest? "template" (some "image") = some (.single .image) ∧
    SingleKind.ofItem? "template" (some "image") = some .template := by decide

theorem ofRequest_of_asked (hr : ¬r.Diverges) (hk : SingleKind.ofItem? r.type r.subType = some k) :
    ofRequest r = ofSpec (.single k) r.data := by
  have hroute := (ofRequest?_eq_iff r).2 hr
  rw [hk] at hroute
  funext ids
  simp only [ofRequest, hroute, Option.map_some]

theorem ofRequest_of_unasked (hr : ¬r.Diverges) (hk : SingleKind.ofItem? r.type r.subType = none) :
    ofRequest r = fun _ => .error (.unsupported r.type r.subType) := by
  have hroute := (ofRequest?_eq_iff r).2 hr
  rw [hk] at hroute
  funext ids
  simp only [ofRequest, hroute, Option.map_none]

end Routes

/-! ### Nodes of groups -/

section Nodes
variable {items : List Json} {messages : List (SingleKind × Json)} {drawn : List String} {n : Node}

theorem exists_kind_of_mem_nodesOf (h : n ∈ nodesOf messages drawn) :
    ∃ m ∈ messages, n.type = m.1.messageKind.name := by
  induction messages generalizing drawn with
  | nil => cases h
  | cons m messages ih =>
    cases drawn with
    | nil => cases h
    | cons id drawn =>
      rw [nodesOf, List.zipWith_cons_cons, List.mem_cons] at h
      rcases h with rfl | h
      · exact ⟨m, List.mem_cons_self, rfl⟩
      · obtain ⟨m', hm', htype⟩ := ih h
        exact ⟨m', List.mem_cons_of_mem m hm', htype⟩

theorem name_messageKind_ne (k : SingleKind) :
    k.messageKind.name ≠ MessageKind.trigger.name ∧ k.messageKind.name ≠ MessageKind.group.name := by
  cases k <;> decide

theorem filter_nodesOf (messages : List (SingleKind × Json)) (drawn : List String) :
    (nodesOf messages drawn).filter (fun n => n.type != MessageKind.trigger.name) = nodesOf messages drawn := by
  refine List.filter_eq_self.2 fun n hn => ?_
  obtain ⟨m, -, htype⟩ := exists_kind_of_mem_nodesOf hn
  rw [htype]
  exact bne_iff_ne.2 (name_messageKind_ne m.1).1

theorem messageNodes_group (items : List Json) (ids : IdSource) : (group items ids).1.messageNodes =
    nodesOf (items.filterMap item?) ((ids.skip 1).peek (items.filterMap item?).length) := by
  obtain ⟨_, hflow⟩ := group_eq items ids rfl rfl
  rw [hflow, Flow.messageNodes, List.filter_cons_of_neg, filter_nodesOf]
  exact Bool.not_eq_true _ ▸ rfl

theorem anonymous_nodesOf (h : messages.length = drawn.length) :
    (nodesOf messages drawn).map Node.anonymous = messages.map fun m => m.1.node m.2 "" := by
  induction messages generalizing drawn with
  | nil => rfl
  | cons m messages ih =>
    cases drawn with
    | nil => cases h
    | cons id drawn =>
      rw [nodesOf, List.zipWith_cons_cons, List.map_cons, List.map_cons]
      exact congrArg _ (ih (Nat.succ.inj h))

theorem anonymous_messageNodes (items : List Json) (ids : IdSource) :
    (group items ids).1.messageNodes.map Node.anonymous =
      (items.filterMap item?).map fun m => m.1.node m.2 "" := by
  rw [messageNodes_group, anonymous_nodesOf]
  rw [IdSource.length_peek]

theorem type_ne_group_of_mem {ids : IdSource} (h : n ∈ (group items ids).1.nodes) :
    n.type ≠ MessageKind.group.name := by
  obtain ⟨_, hflow⟩ := group_eq items ids rfl rfl
  rw [hflow, List.mem_cons] at h
  rcases h with rfl | h
  · have htype : MessageKind.trigger.name ≠ MessageKind.group.name := by decide
    exact htype
  · obtain ⟨m, -, htype⟩ := exists_kind_of_mem_nodesOf h
    rw [htype]
    exact (name_messageKind_ne m.1).2

end Nodes

/-! ### One item -/

/-- The node is the only one behind the trigger of the flow, and one edge leads there. -/
structure Hangs (f : Flow) (n : Node) : Prop where
  shown : f.messageNodes = [n]
  edge : ∃ trigger, f.nodes = [trigger, n] ∧ trigger.type = MessageKind.trigger.name ∧
    (f.edges.filter fun e =>
      e.source == trigger.id && e.sourceHandle == some "startNodeOut" && e.target == n.id).length = 1

/-- What is scaffolded alone is what a group shows of the item. -/
structure Alike (alone : IdSource → Except ScaffoldError (Flow × IdSource)) (item : Json) : Prop where
  succeeds : ∀ ids ids', (∃ f rest, alone ids = .ok (f, rest)) ↔ (group [item] ids').1.messageNodes ≠ []
  node : ∀ ids ids' f rest, alone ids = .ok (f, rest) → ∃ own m n, f.steps = [own] ∧ Hangs f m ∧
    Hangs (group [item] ids').1 n ∧ n = { m with id := n.id } ∧
    (ids.head ≠ (ids.skip 1).head → f.node? own.id = some m)

section Items
variable {item spec data : Json} {k : SingleKind} {r : Request}

theorem hangs_node (k : SingleKind) (data : Json) (trigger id : String) {f : Flow}
    (hnodes : f.nodes = [triggerNode trigger, k.node data id]) (hedges : f.edges = [triggerEdge trigger id]) :
    Hangs f (k.node data id) := by
  constructor
  · have hshown := filter_nodesOf [(k, data)] [id]
    rw [Flow.messageNodes, hnodes, List.filter_cons_of_neg]
    · exact hshown
    · exact Bool.not_eq_true _ ▸ rfl
  · refine ⟨triggerNode trigger, hnodes, rfl, ?_⟩
    have hsource : (triggerEdge trigger id).source = (triggerNode trigger).id := rfl
    have htarget : (triggerEdge trigger id).target = (k.node data id).id := rfl
    have hhandle : (triggerEdge trigger id).sourceHandle = some "startNodeOut" := rfl
    rw [hedges, List.filter_cons_of_pos]
    · rfl
    · simp [hsource, htarget, hhandle]

theorem group_of_item?_eq_none (h : item? item = none) (ids : IdSource) : (group [item] ids).1.messageNodes = [] := by
  rw [messageNodes_group, List.filterMap_cons_none h]
  rfl

theorem hangs_group (h : item? item = some (k, data)) (ids : IdSource) :
    Hangs (group [item] ids).1 (k.node data (ids.skip 1).head) := by
  have hmessages : [item].filterMap item? = [(k, data)] := by
    rw [List.filterMap_cons_some h]
    rfl
  obtain ⟨_, hflow⟩ := group_eq [item] ids hmessages rfl
  rw [hflow]
  exact hangs_node k data ids.head (ids.skip 1).head rfl rfl

theorem alike_of_asks (h : Asks item k spec) : Alike (ofSpec (.single k) spec) item := by
  cases hdata : k.data spec with
  | error e =>
    have hitem : item? item = none := by
      obtain ⟨r, hr, hk, rfl⟩ := h
      simp only [item?, hr, hk, hdata]
    have hfails : ∀ ids f rest, ofSpec (.single k) spec ids ≠ .ok (f, rest) := by
      intro ids f rest hok
      obtain ⟨data, hok⟩ := scaffolds_iff.1 ⟨ids, f, rest, hok⟩
      rw [hdata] at hok
      cases hok
    constructor
    · intro ids ids'
      rw [group_of_item?_eq_none hitem]
      constructor
      · rintro ⟨f, rest, hok⟩
        exact absurd hok (hfails ids f rest)
      · intro hne
        exact absurd rfl hne
    · intro ids ids' f rest hok
      exact absurd hok (hfails ids f rest)
  | ok data =>
    have hitem : item? item = some (k, data) := item?_eq_some_iff.2 ⟨spec, h, hdata⟩
    constructor
    · intro ids ids'
      rw [(hangs_group hitem ids').shown]
      exact ⟨fun _ => List.cons_ne_nil _ _, fun _ => ⟨_, _, ofSpec_of_data hdata ids⟩⟩
    · intro ids ids' f rest hok
      rw [ofSpec_of_data hdata ids] at hok
      cases hok
      refine ⟨_, _, _, rfl, hangs_node k data ids.head (ids.skip 1).head rfl rfl, hangs_group hitem ids', rfl, ?_⟩
      -- The trigger stands before the message, so the step's id must not be the trigger's.
      intro hne
      rw [Flow.node?, List.find?_cons_of_neg, List.find?_cons_of_pos]
      · exact beq_iff_eq.2 rfl
      · exact fun heq => hne (beq_iff_eq.1 heq)

/-- What gives no message in a group and no scaffold alone. -/
theorem alike_of_item?_eq_none (h : item? item = none) (e : ScaffoldError) : Alike (fun _ => .error e) item := by
  constructor
  · intro ids ids'
    rw [group_of_item?_eq_none h]
    exact ⟨nofun, fun hne => absurd rfl hne⟩
  · nofun

theorem item?_of_read (hr : Request.record.read item = .ok r) (hk : SingleKind.ofItem? r.type r.subType = none) :
    item? item = none := by
  simp only [item?, hr, hk]

end Items

/-! ### Requests -/

/-- The item, which reads as the request, in a group and alone. -/
structure Agrees (item : Json) (r : Request) : Prop where
  kinds : Kind.ofRequest? r.type r.subType = (SingleKind.ofItem? r.type r.subType).map .single ↔ ¬r.Diverges
  alike : ¬r.Diverges → Alike (ofRequest r) item
  template : r.type = "template" → Alike (ofSpec (.single .template) r.data) item ∧
    ∀ ids, ∀ n ∈ (group [item] ids).1.messageNodes, n.type = MessageKind.template.name
  /-- Among other items it has the nodes that it has in a group of its own. -/
  apart : ∀ before after ids idsBefore idsItem idsAfter,
    (group (before ++ item :: after) ids).1.messageNodes.map Node.anonymous =
      (group before idsBefore).1.messageNodes.map Node.anonymous ++
        (group [item] idsItem).1.messageNodes.map Node.anonymous ++
        (group after idsAfter).1.messageNodes.map Node.anonymous
  ungrouped : ∀ items ids, ∀ n ∈ (group items ids).1.nodes, n.type ≠ MessageKind.group.name

theorem agrees_of_read {item : Json} {r : Request} (h : Request.record.read item = .ok r) : Agrees item r where
  kinds := ofRequest?_eq_iff r
  alike hr := by
    cases hk : SingleKind.ofItem? r.type r.subType with
    | none =>
      rw [ofRequest_of_unasked hr hk]
      exact alike_of_item?_eq_none (item?_of_read h hk) _
    | some k =>
      rw [ofRequest_of_asked hr hk]
      exact alike_of_asks ⟨r, h, hk, rfl⟩
  template htype := by
    have hk : SingleKind.ofItem? r.type r.subType = some .template := by
      rw [htype]
      rfl
    have hasks : Asks item .template r.data := ⟨r, h, hk, rfl⟩
    refine ⟨alike_of_asks hasks, fun ids n hn => ?_⟩
    rw [messageNodes_group] at hn
    obtain ⟨⟨k, data⟩, hm, htype⟩ := exists_kind_of_mem_nodesOf hn
    obtain ⟨i, hi, hitem⟩ := List.mem_filterMap.1 hm
    rw [List.mem_singleton.1 hi] at hitem
    obtain ⟨spec, hasks', -⟩ := item?_eq_some_iff.1 hitem
    rw [htype, (Prod.mk.inj (hasks'.unique hasks)).1]
    rfl
  apart before after ids idsBefore idsItem idsAfter := by
    simp only [anonymous_messageNodes, ← List.map_append, ← List.filterMap_append, List.append_assoc,
      List.singleton_append]
  ungrouped _ _ _ hn := type_ne_group_of_mem hn

/-- Buttons under the type of groups, with the sub type of buttons. -/
def grouplike : Json := .obj [("data", replies), ("sub_type", .str "button"), ("type", .str "group")]

theorem agrees_grouplike : ∃ r f rest, Request.record.read grouplike = .ok r ∧ ¬r.Diverges ∧
    ofRequest r numbers = .ok (f, rest) ∧ Agrees grouplike r := by
  have hread : Request.record.read grouplike = .ok _ := rfl
  have hflow : ofRequest ⟨"group", some "button", replies⟩ numbers = .ok (_, _) := rfl
  refine ⟨_, _, _, hread, ?_, hflow, agrees_of_read hread⟩
  exact (ofRequest?_eq_iff _).1 rfl

end Scaffold
end MessageFlow
