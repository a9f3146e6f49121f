import MessageFlow.Proofs.Campaign.Chain
import MessageFlow.Proofs.Compile.Stripping

/-! # Compiling the canvas of a campaign

The nodes of a campaign hold whatever the descriptors name as their templates, but a node of a canvas reads as a
template only if that is a text, or nothing at all; a description of the template, which is an object, is not looked
into here. So the canvas of a campaign compiles exactly if every step names its template by a text or not at all, and
is refused at the first step that does not. Compiled, it gives the steps of the campaign again, each with its id and
its template, and nothing for the anchor. -/

namespace MessageFlow

theorem Json.Object.lookup_toList (name key : String) (v : Option Json) :
    ((v.map (name, ·)).toList).lookup key = if key = name then v else none := by
  cases v with
  | none => simp
  | some v =>
    rw [Option.map_some, Option.toList_some]
    exact get?_cons name v [] key

theorem Json.Object.keys_toList_sublist (name : String) (v : Option Json) :
    (((v.map (name, ·)).toList).map (·.1)).Sublist [name] := by
  cases v with
  | none => exact List.nil_sublist _
  | some v => exact List.Sublist.refl _

/-- Any value, or none, reads as an optional value without a type of its own. -/
theorem Field.exists_reads_omitted_json (key : String) (held : Option Json) :
    ∃ o, (Field.omitted key .json).Reads held o := by
  cases held with
  | none => exact ⟨none, rfl⟩
  | some v => cases v <;> exact ⟨_, rfl⟩

namespace Campaign
open Compile

/-! ### What a node shows -/

/-- What the node of a step shows under a key. -/
def Descriptor.shown (d : Descriptor) (key : String) : Option Json :=
  if key = "label" ∨ key = "messageName" then d.name.map .str
  else if key = "type" then some (.str "message")
  else if key = "template" then d.template.id
  else if key = "media" then d.template.media.map shownMedia
  else if key = "dynamic_mapping" then d.template.mapping
  else if key = "product_sets" then d.template.productSets
  else if key = "carouselMedia" then some (.obj (carouselReferences ((d.template.carousel.bind Json.items?).getD [])))
  else if key = "delay" then d.delay
  else none

theorem Descriptor.get?_data (d : Descriptor) (key : String) : d.data.get? key = (d.shown key).map Json.canonical := by
  simp only [Descriptor.data, Json.canonical, Json.get?]
  rw [Json.Object.get?_canonical]
  · simp only [List.lookup_append, Json.Object.lookup_toList, shown]
    congr 1
    by_cases hkey : key ∈ ["label", "messageName", "type", "template", "media", "dynamic_mapping", "product_sets",
        "carouselMedia", "delay"]
    · simp only [List.mem_cons, List.not_mem_nil, or_false] at hkey
      rcases hkey with rfl | rfl | rfl | rfl | rfl | rfl | rfl | rfl | rfl <;> simp [List.lookup_cons]
    · simp only [List.mem_cons, List.not_mem_nil, or_false, not_or] at hkey
      simp [hkey, List.lookup_cons, beq_eq_false_iff_ne.2]
  -- Every field is written at most once, under a name of its own.
  · have hkeys : (["label"] ++ ["messageName"] ++ ["type"] ++ ["template"] ++ ["media"] ++ ["dynamic_mapping"] ++
        ["product_sets"] ++ ["carouselMedia"] ++ ["delay"]).Nodup := by decide
    refine hkeys.sublist ?_
    simp only [List.map_append]
    have hfield := Json.Object.keys_toList_sublist
    exact (((((((((hfield _ _).append (hfield _ _)).append (List.Sublist.refl _)).append (hfield _ _)).append
      (hfield _ _)).append (hfield _ _)).append (hfield _ _)).append (List.Sublist.refl _)).append (hfield _ _))

/-! ### What a node sends -/

/-- The step names its template by a text, or not at all. -/
def Descriptor.NamesTemplate (d : Descriptor) : Prop :=
  ∀ v, d.template.id = some v → v = .null ∨ ∃ name, v = .str name

/-- The step gives its template by a number, a truth value or a list. -/
def Descriptor.MisnamesTemplate (d : Descriptor) : Prop :=
  ∃ v, d.template.id = some v ∧ ((∃ n, v = .num n) ∨ (∃ b, v = .bool b) ∨ ∃ items, v = .arr items)

/-- Why a node with an id is refused for the template of its step. -/
def Descriptor.refusal (d : Descriptor) (id : String) : Option Refusal :=
  match d.template.id with
  | none | some .null | some (.str _) => none
  | some _ => some (.invalidData id MessageKind.template.name (.noAlternative "TemplateRef"))

/-- What the node with an id sends for a step that names its template. -/
def Descriptor.message (d : Descriptor) (id : String) : Message where
  id := id
  kind := .template
  content := .template ((d.template.id.bind Json.str?).map .str) none []
  delay := d.delay.filter Json.isTruthy

section Nodes
variable {d : Descriptor} {id : String} {l : Layout} {i : Nat}

theorem Descriptor.refusal_eq_none_iff : d.refusal id = none ↔ d.NamesTemplate := by
  unfold Descriptor.refusal Descriptor.NamesTemplate
  cases d.template.id with
  | none => simp
  | some v => cases v <;> simp

theorem Descriptor.misnames_of_not_named (h : ¬d.NamesTemplate)
    (hobject : ∀ v, d.template.id = some v → v.isObject = false) : d.MisnamesTemplate := by
  obtain ⟨v, hid, hnull, hname⟩ : ∃ v, d.template.id = some v ∧ v ≠ .null ∧ ∀ name, v ≠ .str name := by
    simpa [Descriptor.NamesTemplate] using h
  refine ⟨v, hid, ?_⟩
  have hshape := hobject v hid
  cases v with
  | null => exact absurd rfl hnull
  | bool b => exact Or.inr (Or.inl ⟨b, rfl⟩)
  | num n => exact Or.inl ⟨n, rfl⟩
  | str name => exact absurd rfl (hname name)
  | arr items => exact Or.inr (Or.inr ⟨items, rfl⟩)
  | obj fields => cases hshape

theorem Descriptor.refusal_of_misnames (h : d.MisnamesTemplate) :
    d.refusal id = some (.invalidData id MessageKind.template.name (.noAlternative "TemplateRef")) := by
  unfold Descriptor.refusal
  obtain ⟨v, hid, ⟨n, rfl⟩ | ⟨b, rfl⟩ | ⟨items, rfl⟩⟩ := h <;> rw [hid]

theorem exists_fields_data (d : Descriptor) : ∃ fields, d.data = .obj fields ∧
    Json.Object.get? fields "template" = d.template.id.map Json.canonical ∧
    ∃ media, (Field.omitted "media" .json).Reads (Json.Object.get? fields "media") media := by
  obtain ⟨fields, hfields⟩ : ∃ fields, d.data = .obj fields := ⟨_, by rw [Descriptor.data, Json.canonical]⟩
  have htemplate := d.get?_data "template"
  rw [hfields] at htemplate
  exact ⟨fields, hfields, htemplate, Field.exists_reads_omitted_json "media" _⟩

theorem ofData_data (h : d.NamesTemplate) : ∃ media, Form.ofData Form.Template.record d.data =
    .ok ⟨(d.template.id.bind Json.str?).map .named, media⟩ := by
  obtain ⟨fields, hfields, htemplate, media, hmedia⟩ := exists_fields_data d
  have hchoice : (Field.optional "template" Form.TemplateChoice.codec).Reads (Json.Object.get? fields "template")
      ((d.template.id.bind Json.str?).map .named) := by
    rw [htemplate]
    cases hid : d.template.id with
    | none => rfl
    | some v => rcases h v hid with rfl | ⟨name, rfl⟩ <;> rfl
  rw [hfields]
  exact ⟨media, (Record.read_obj_eq_ok_iff rfl).2 ⟨_, media, ⟨_, _, rfl, hchoice, rfl⟩, hmedia, rfl⟩⟩

/-- A template that is given, but is neither a text nor an object, does not read. -/
theorem ofData_data_eq_error (h : d.MisnamesTemplate) :
    Form.ofData Form.Template.record d.data = .error (.noAlternative "TemplateRef") := by
  obtain ⟨fields, hfields, htemplate, media, hmedia⟩ := exists_fields_data d
  have hfailed : (Field.optional "template" Form.TemplateChoice.codec).readIn fields =
      .failed "template" (.noAlternative "TemplateRef") := by
    obtain ⟨v, hid, hshape⟩ := h
    rw [hid, Option.map_some] at htemplate
    simp only [Field.readIn, Field.optional, htemplate, Option.bind_none]
    obtain ⟨n, rfl⟩ | ⟨b, rfl⟩ | ⟨items, rfl⟩ := hshape <;> simp only [Json.canonical] <;> rfl
  have hread : (Field.omitted "media" .json).readIn fields = .read media := (Field.readIn_eq_read_iff rfl).2 hmedia
  have houtcome : Form.Template.record.schema.readFields fields =
      ((Outcome.read Form.Template.mk).join ((Field.optional "template" Form.TemplateChoice.codec).readIn fields)).join
        ((Field.omitted "media" .json).readIn fields) := rfl
  rw [hfailed, hread] at houtcome
  rw [hfields]
  exact congrArg Outcome.toExcept houtcome

theorem delay_node (h : ∀ v, d.delay = some v → v.IsCanonical) :
    (d.node l i id).delay = d.delay.filter Json.isTruthy := by
  have hdelay : d.data.get? "delay" = d.delay := by
    refine (d.get?_data "delay").trans ?_
    cases hd : d.delay with
    | none => simp [Descriptor.shown, hd]
    | some v => simp [Descriptor.shown, hd, Json.canonical_eq_self (h v hd)]
  rw [Node.delay, Descriptor.node, hdelay]

theorem kindOf_node : Settings.kindOf {} (d.node l i id).type = some .template :=
  (kindOf_default _ true).trans (MessageKind.ofName?_name .template)

theorem kindOf_anchorNode {last : String} : Settings.kindOf {} (anchorNode l i id last).type = none := by
  have hname : MessageKind.ofName? anchorType = none := by decide
  exact (kindOf_default _ true).trans hname

/-- A form that names its template, or none, has no options and announces no media. -/
theorem form_named (name : Option String) (media : Option Json) :
    Form.Template.options ⟨name.map .named, media⟩ = .ok [] ∧
    Form.Template.mediaObject ⟨name.map .named, media⟩ = none ∧
    Form.Template.templateId ⟨name.map .named, media⟩ = name.map .str := by
  cases name <;> exact ⟨rfl, rfl, rfl⟩

theorem refusal_node (hobject : ∀ v, d.template.id = some v → v.isObject = false) :
    Compile.refusal {} (d.node l i id) = d.refusal id := by
  have hdata : (d.node l i id).data = d.data := rfl
  rw [Compile.refusal, kindOf_node, Option.bind_some, refusal_sort kindOf_node, Message.refusal, Node.form, hdata]
  by_cases h : d.NamesTemplate
  · obtain ⟨media, hform⟩ := ofData_data h
    obtain ⟨hoptions, -⟩ := form_named (d.template.id.bind Json.str?) media
    rw [Descriptor.refusal_eq_none_iff.2 h, hform]
    simp only [hoptions]
  · have hmis := Descriptor.misnames_of_not_named h hobject
    rw [Descriptor.refusal_of_misnames hmis, ofData_data_eq_error hmis]
    rfl

/-- The node of a step that names its template sends the message of the step, wherever its edges lead. -/
theorem stepWithin_node (h : d.NamesTemplate) (hdelay : ∀ v, d.delay = some v → v.IsCanonical) (p : Plan)
    (depth : Nat) :
    stepWithin p depth (sort {} (d.node l i id)) = .ok (some (.message (d.message id))) := by
  obtain ⟨media, hform⟩ := ofData_data h
  obtain ⟨hoptions, hmedia, hid⟩ := form_named (d.template.id.bind Json.str?) media
  have hsent : Message.Sent (d.node l i id) p.index .template _ := .template (Message.form_eq_ok_iff.2 hform) hoptions
  rw [Form.Template.content, hmedia, hid, delay_node hdelay] at hsent
  rw [stepWithin_of_kind kindOf_node (by decide), ofNode_sort kindOf_node, Message.ofNode_eq_ok_some_iff.2 hsent]
  rfl

end Nodes

section Columns
variable {ds : List Descriptor} {ids : List String}

/-- The first step that does not name its template decides why the nodes of a campaign are refused. -/
theorem findSome?_nodes (l : Layout) (i : Nat)
    (hobject : ∀ d ∈ ds, ∀ v, d.template.id = some v → v.isObject = false) :
    (nodes l i ds ids).findSome? (Compile.refusal {}) = (ds.zip ids).findSome? fun p => p.1.refusal p.2 := by
  induction ids generalizing i ds with
  | nil => cases ds <;> rfl
  | cons id ids ih =>
    cases ds with
    | nil => rfl
    | cons d ds =>
      obtain ⟨hd, hds⟩ := List.forall_mem_cons.1 hobject
      rw [nodes, List.findSome?_cons, refusal_node hd, ih (i + 1) hds, List.zip_cons_cons, List.findSome?_cons]

theorem inTurn_nodes (l : Layout) (i : Nat) (hnames : ∀ d ∈ ds, d.NamesTemplate)
    (hdelay : ∀ d ∈ ds, ∀ v, d.delay = some v → v.IsCanonical) (p : Plan) (depth : Nat) :
    inTurn (stepWithin p depth) ((nodes l i ds ids).map (sort {})) =
      .ok ((ds.zip ids).map fun q => .message (q.1.message q.2)) := by
  induction ids generalizing i ds with
  | nil => cases ds <;> rfl
  | cons id ids ih =>
    cases ds with
    | nil => rfl
    | cons d ds =>
      obtain ⟨hd, hds⟩ := List.forall_mem_cons.1 hnames
      obtain ⟨hw, hws⟩ := List.forall_mem_cons.1 hdelay
      exact inTurn_cons_eq_ok_iff.2 ⟨_, _, stepWithin_node hd hw p depth, ih (i + 1) hds hws, rfl⟩

end Columns

/-! ### Edges -/

theorem sources_chain (ids : List String) : (chain ids).map (·.source) = ids.dropLast := by
  induction ids with
  | nil => rfl
  | cons a rest ih =>
    cases rest with
    | nil => rfl
    | cons b rest =>
      rw [chain, List.map_cons, ih]
      rfl

/-- One edge of a campaign leaves each step. -/
theorem sources_edges {ids : List String} {last : String} (hlast : ids.getLast? = some last) (anchor : String) :
    (chain ids ++ [edge last anchor]).map (·.source) = ids := by
  rw [List.map_append, sources_chain]
  exact List.dropLast_append_getLast? last hlast

theorem distinct_edges {ids : List String} {last anchor : String} (hids : ids.Nodup)
    (hlast : ids.getLast? = some last) :
    Edge.distinct (chain ids ++ [edge last anchor]) = chain ids ++ [edge last anchor] := by
  rw [← sources_edges hlast anchor] at hids
  exact Edge.distinct_eq_self (Edge.pairwise_of_nodup_map (fun _ _ h => (Edge.beq_iff.1 h).2.1) hids)

/-! ### The canvas as a whole -/

/-- The second step is a template message with the id and the template of the first; a template that is not named is
    written as null. -/
def Remade (own made : Step) : Prop :=
  ∃ m n, own = .message m ∧ made = .message n ∧ n.id = m.id ∧ n.kind = .template ∧
    n.content.write.get? "templateId" = some (.ofOption (m.content.write.get? "templateId"))

/-- What comes of compiling the canvas of a campaign, by its descriptors. -/
structure Recompiled (ds : List Descriptor) (f : Flow) : Prop where
  compiles : (∃ g, f.canvas.compile {} = .ok g) ↔ ∀ d ∈ ds, d.NamesTemplate
  refused : ∀ e, f.canvas.compile {} = .error e → ∃ before d id after,
    ds.zip (f.steps.map Step.id) = before ++ (d, id) :: after ∧ (∀ p ∈ before, p.1.NamesTemplate) ∧
      d.MisnamesTemplate ∧ e = .invalidData id "template" (.noAlternative "TemplateRef")
  steps : ∀ g, f.canvas.compile {} = .ok g → List.Forall₂ Remade f.steps g.steps
  delays : ∀ g, f.canvas.compile {} = .ok g →
    g.steps.map Step.delay = ds.map fun d => d.delay.filter Json.isTruthy
  stepEdges : ∀ g, f.canvas.compile {} = .ok g → g.stepEdges = f.edges

/-- The nodes of descriptors with the given ids and an anchor, and the edges between them. -/
def column (l : Layout) (ds : List Descriptor) (ids : List String) (last anchor : String) : Canvas :=
  ⟨nodes l 0 ds ids ++ [anchorNode l ds.length anchor last], chain ids ++ [edge last anchor]⟩

section Canvases
variable {d : Descriptor} {ds : List Descriptor} {ids : List String} {l : Layout} {id last anchor : String}

theorem groupless_column : ∀ n ∈ (column l ds ids last anchor).nodes, Settings.kindOf {} n.type ≠ some .group := by
  intro n hn
  rcases List.mem_append.1 hn with hn | hn
  · have hkind : Settings.kindOf {} n.type = some .template := by
      rw [type_of_mem_nodes l 0 hn, kindOf_default]
      exact MessageKind.ofName?_name .template
    rw [hkind]
    decide
  · rw [List.mem_singleton.1 hn, kindOf_anchorNode]
    nofun

theorem fault_column (l : Layout) (ids : List String) (last anchor : String)
    (hobject : ∀ d ∈ ds, ∀ v, d.template.id = some v → v.isObject = false) :
    fault ((column l ds ids last anchor).compile {}) =
      ((ds.zip ids).findSome? fun p => p.1.refusal p.2).map .refused := by
  have hanchor : Compile.refusal {} (anchorNode l ds.length anchor last) = none := by
    rw [Compile.refusal, kindOf_anchorNode, Option.bind_none]
  rw [fault_compile, steps_of_groupless groupless_column, fault_inTurn_of_groupless groupless_column, column,
    List.findSome?_append, findSome?_nodes l 0 hobject, List.findSome?_cons, hanchor, List.findSome?_nil,
    Option.or_none]

theorem compile_column (l : Layout) (anchor : String) (hnames : ∀ d ∈ ds, d.NamesTemplate)
    (hdelay : ∀ d ∈ ds, ∀ v, d.delay = some v → v.IsCanonical)
    (hids : ids.Nodup) (hlast : ids.getLast? = some last) : ∃ g, (column l ds ids last anchor).compile {} = .ok g ∧
      g.steps = ((ds.zip ids).map fun p => .message (p.1.message p.2)) ∧
      g.stepEdges = (column l ds ids last anchor).edges := by
  obtain ⟨c, hc⟩ : ∃ c, c = column l ds ids last anchor := ⟨_, rfl⟩
  have hsteps : outcome (plan c {}).steps = .ok ((ds.zip ids).map fun p => .message (p.1.message p.2)) := by
    rw [steps_of_groupless (hc ▸ groupless_column)]
    have hnodes : c.nodes = nodes l 0 ds ids ++ [anchorNode l ds.length anchor last] := by rw [hc, column]
    rw [hnodes, List.map_append, inTurn_append, inTurn_nodes l 0 hnames hdelay]
    have hanchor : inTurn (stepWithin (plan c {}) c.nodes.length) ([anchorNode l ds.length anchor last].map (sort {})) =
        .ok [] := inTurn_cons_eq_ok_iff.2 ⟨none, [], stepWithin_of_unknown kindOf_anchorNode, rfl, rfl⟩
    rw [← hnodes, hanchor, Except.bind, Except.map, List.append_nil]
  have hedges : Edge.distinct c.edges = c.edges := by
    rw [hc]
    exact distinct_edges hids hlast
  rw [← hc, compile_eq, hsteps, hedges]
  exact ⟨_, rfl, rfl, rfl⟩

theorem Template.Settled.get?_id {t : Template} (h : t.Settled) :
    (Template.record.codec.encode t).get? "templateId" = t.id.map Json.canonical := by
  -- The id is the first field, so every later one is passed over.
  have hlater : ∀ {α β : Type} (before : Schema Template (β → α)) (f : Field β) (get : Template → β),
      "templateId" ≠ f.key → (Schema.writeFields (before.field f get) t).lookup "templateId" =
        (before.writeFields t).lookup "templateId" := by
    intro α β before f get hkey
    rw [Schema.lookup_writeFields_field, if_neg hkey, Option.or_none]
  have hlookup : (Template.record.schema.writeFields t).lookup "templateId" = t.id := by
    iterate 5 refine (hlater _ _ _ (by decide)).trans ?_
    cases hid : t.id with
    | none => simp [Schema.writeFields, Field.omitted, hid]
    | some v => simp [Schema.writeFields, Field.omitted, hid, Codec.optional, Codec.json]
  rw [OpenRecord.get?_encode (r := Template.record) (by decide) h.rest, if_pos (by decide), hlookup]

theorem remade_step (h : d.NamesTemplate) (hd : d.template.Settled) (id : String) (target : List String) :
    Remade (d.step id target) (.message (d.message id)) := by
  have hown : (Template.record.codec.encode (d.template.link target)).get? "templateId" =
      d.template.id.map Json.canonical := (hd.link target).get?_id
  have hmade : (d.message id).content.write.get? "templateId" =
      some (.ofOption ((d.template.id.bind Json.str?).map .str)) := rfl
  refine ⟨_, _, rfl, rfl, rfl, rfl, ?_⟩
  rw [Content.write, hown, hmade]
  cases hid : d.template.id with
  | none => rfl
  | some v => rcases h v hid with rfl | ⟨name, rfl⟩ <;> rfl

theorem compiles_column_iff (hlen : ds.length = ids.length)
    (hobject : ∀ d ∈ ds, ∀ v, d.template.id = some v → v.isObject = false) :
    (∃ g, (column l ds ids last anchor).compile {} = .ok g) ↔ ∀ d ∈ ds, d.NamesTemplate := by
  rw [← fault_eq_none_iff, fault_column l ids last anchor hobject, Option.map_eq_none_iff, List.findSome?_eq_none_iff]
  simp only [Descriptor.refusal_eq_none_iff]
  constructor
  · intro h d hd
    rw [← List.map_fst_zip (Nat.le_of_eq hlen)] at hd
    obtain ⟨p, hp, rfl⟩ := List.mem_map.1 hd
    exact h p hp
  · exact fun h p hp => h p.1 (List.of_mem_zip hp).1

/-- The first step that does not name its template is at fault. -/
theorem refused_column (hobject : ∀ d ∈ ds, ∀ v, d.template.id = some v → v.isObject = false) {e : CompileError}
    (h : (column l ds ids last anchor).compile {} = .error e) : ∃ before d id after,
      ds.zip ids = before ++ (d, id) :: after ∧ (∀ p ∈ before, p.1.NamesTemplate) ∧
      d.MisnamesTemplate ∧ e = .invalidData id "template" (.noAlternative "TemplateRef") := by
  rw [← fault_eq_some_iff, fault_column l ids last anchor hobject, Option.map_eq_some_iff] at h
  obtain ⟨r, hr, rfl⟩ := h
  obtain ⟨before, ⟨d, id⟩, after, hzip, hd, hbefore⟩ := List.findSome?_eq_some_iff.1 hr
  have hmem : d ∈ ds := (List.of_mem_zip (hzip ▸ List.mem_append_right _ List.mem_cons_self)).1
  have hnot : ¬d.NamesTemplate := by
    intro h
    rw [Descriptor.refusal_eq_none_iff.2 h] at hd
    cases hd
  have hmis := Descriptor.misnames_of_not_named hnot (hobject d hmem)
  rw [Descriptor.refusal_of_misnames hmis] at hd
  exact ⟨before, d, id, after, hzip, fun p hp => Descriptor.refusal_eq_none_iff.1 (hbefore p hp), hmis,
    congrArg _ (Option.some.inj hd).symm⟩

theorem recompiled_column {f : Flow} (hcanvas : f.canvas = column l ds ids last anchor) (hsteps : f.steps = steps ds ids)
    (hlen : ds.length = ids.length) (hids : ids.Nodup) (hlast : ids.getLast? = some last)
    (hsettled : ∀ d ∈ ds, d.template.Settled) (hdelay : ∀ d ∈ ds, ∀ v, d.delay = some v → v.IsCanonical)
    (hobject : ∀ d ∈ ds, ∀ v, d.template.id = some v → v.isObject = false) : Recompiled ds f := by
  have hcompiles : (∃ g, f.canvas.compile {} = .ok g) ↔ ∀ d ∈ ds, d.NamesTemplate := by
    rw [hcanvas]
    exact compiles_column_iff hlen hobject
  -- Whatever it compiles to, the steps name their templates, so it is what the column compiles to.
  have hcompiled : ∀ g, f.canvas.compile {} = .ok g →
      g.steps = ((ds.zip ids).map fun p => .message (p.1.message p.2)) ∧ g.stepEdges = f.edges := by
    intro g hg
    obtain ⟨g', hg', hmade, hedges⟩ := compile_column l anchor (hcompiles.1 ⟨g, hg⟩) hdelay hids hlast
    rw [← hcanvas, hg] at hg'
    cases hg'
    rw [← hcanvas] at hedges
    exact ⟨hmade, hedges⟩
  refine ⟨hcompiles, fun e he => ?_, fun g hg => ?_, fun g hg => ?_, fun g hg => (hcompiled g hg).2⟩
  · rw [hsteps, ids_steps hids hlen]
    exact refused_column hobject (hcanvas ▸ he)
  · rw [hsteps, steps_eq ds hids, (hcompiled g hg).1, List.forall₂_map_left_iff, List.forall₂_map_right_iff]
    refine List.forall₂_same.2 fun p hp => ?_
    have hd := (List.of_mem_zip hp).1
    exact remade_step (hcompiles.1 ⟨g, hg⟩ p.1 hd) (hsettled p.1 hd) p.2 _
  · have hdelays : ∀ p : Descriptor × String, (Step.message (p.1.message p.2)).delay = p.1.delay.filter Json.isTruthy :=
      fun _ => rfl
    rw [(hcompiled g hg).1, List.map_map]
    conv_rhs => rw [← List.map_fst_zip (Nat.le_of_eq hlen), List.map_map]
    exact List.map_congr_left fun p _ => hdelays p

end Canvases

/-! ### Campaigns -/

theorem Descriptor.isCanonical_delay_of_read {v : Json} {d : Descriptor} (hv : v.IsCanonical)
    (h : Descriptor.record.read v = .ok d) : ∀ w, d.delay = some w → w.IsCanonical := by
  obtain ⟨_, _, ⟨_, delay, ⟨_, _, ⟨_, _, rfl, -, rfl⟩, -, rfl⟩, hdelay, rfl⟩, -, rfl⟩ :=
    Record.arises_of_read (r := Descriptor.record) hv h
  rintro w rfl
  obtain ⟨⟨⟩⟩ | ⟨u, hu, hread⟩ := hdelay
  rcases Codec.read_optional_eq_ok_iff.1 hread with ⟨-, hnone⟩ | ⟨-, a, ha, hsome⟩
  · cases hnone
  · cases ha
    exact Option.some.inj hsome ▸ hu

/-- The canvas of a campaign compiles exactly if its steps name their templates by texts or not at all, and then to
    the steps of the campaign; else the first step that does not is at fault. -/
theorem recompiled_of_sequence {items : List Json} {l : Layout} {ids rest : IdSource} {f : Flow}
    (hitems : ∀ v ∈ items, v.IsCanonical) (hids : (ids.peek (described items).length).Nodup)
    (hobject : ∀ d ∈ described items, ∀ v, d.template.id = some v → v.isObject = false)
    (h : (ofItems items l).sequence ids = .ok (f, rest)) : Recompiled (described items) f := by
  have hsettled : ∀ d ∈ described items, d.template.Settled := fun d hd => by
    obtain ⟨v, hv, hread⟩ := mem_described hd
    exact Descriptor.settled_of_read (hitems v hv) hread
  have hdelay : ∀ d ∈ described items, ∀ w, d.delay = some w → w.IsCanonical := fun d hd => by
    obtain ⟨v, hv, hread⟩ := mem_described hd
    exact Descriptor.isCanonical_delay_of_read (hitems v hv) hread
  have hlen : (described items).length = (ids.peek (described items).length).length := (IdSource.length_peek _ _).symm
  cases hlast : (ids.peek (ofItems items l).size).getLast? with
  | none =>
    simp only [sequence, hlast] at h
    cases h
  | some last =>
    obtain ⟨anchor, left, hflow⟩ := sequence_eq_ok rfl hlast
    rw [hflow] at h
    cases h
    exact recompiled_column rfl rfl hlen hids hlast hsettled hdelay hobject

/-- Three steps: the first names its template and does not wait, the second names none, the third gives a number. -/
def reminders : List Json :=
  [.obj [("data", .obj [("templateId", .str "first")]), ("delay", .nat 0)],
   .obj [("data", .obj []), ("delay", .str "2 days")],
   .obj [("data", .obj [("templateId", .nat 3)])]]

theorem recompiled_reminders : (∀ v ∈ reminders, v.IsCanonical) ∧ (IdSource.peek ⟨Text.decimal, 0⟩ 3).Nodup ∧
    (∀ d ∈ described reminders, ∀ v, d.template.id = some v → v.isObject = false) ∧
    ∃ f rest, (ofItems reminders {}).sequence ⟨Text.decimal, 0⟩ = .ok (f, rest) ∧
      Recompiled (described reminders) f := by
  have hitems : ∀ v ∈ reminders, v.IsCanonical := by
    simp only [reminders, List.forall_mem_cons, List.not_mem_nil, false_implies, implies_true, Json.nat,
      Json.IsCanonical, Json.IsCanonicalFields, Json.Object.Ascending]
    decide
  have hids : (IdSource.peek ⟨Text.decimal, 0⟩ 3).Nodup := by decide
  have hobject : ∀ d ∈ described reminders, ∀ v, d.template.id = some v → v.isObject = false := by
    intro d hd v hv
    have htemplates : (described reminders).map (·.template.id) = [some (.str "first"), none, some (.nat 3)] := rfl
    have hmem : some v ∈ (described reminders).map (·.template.id) := List.mem_map.2 ⟨d, hd, hv⟩
    rw [htemplates] at hmem
    simp only [List.mem_cons, Option.some.injEq, reduceCtorEq, List.not_mem_nil, or_false, false_or] at hmem
    rcases hmem with rfl | rfl <;> rfl
  have hflow : (ofItems reminders {}).sequence ⟨Text.decimal, 0⟩ = .ok (_, _) := rfl
  exact ⟨hitems, hids, hobject, _, _, hflow, recompiled_of_sequence hitems hids hobject hflow⟩

end Campaign
end MessageFlow
