import MessageFlow.Proofs.Campaign.Recompile
import MessageFlow.Proofs.Campaign.Renaming

/-! # Sequencing a campaign again

A step of a campaign is written with the fields of its descriptor, so the steps of a flow can be taken for the items of
a campaign. All of them read, each as its descriptor with the options linked, and linking options again leaves nothing
of where they led before. So the second flow is the one that the first items give under the new ids: what the first run
left of its own ids is gone, and all else is as it was. -/

namespace MessageFlow
namespace Campaign

/-! ### Linking twice -/

theorem isConditional_insert_target (state : Json.Object) (v : Json) :
    isConditional (state.insert "target" v) = isConditional state := by
  rw [isConditional, Json.Object.get?_insert, if_neg (by decide), ← isConditional]

/-- Linking an option again leaves nothing of where it was linked to before. -/
theorem link_link (a b : List String) (option : Json) : link b (link a option) = link b option := by
  cases option with
  | obj fields =>
    have hstate : ∀ linked : Json.Object, stateOf (Json.Object.insert fields "state" (.obj linked)) = linked := by
      intro linked
      simp only [stateOf, Json.Object.get?_insert, if_true]
    rw [link_obj a, link_obj b, link_obj b, hstate, Json.Object.insert_insert]
    by_cases h : isConditional (stateOf fields)
    · simp only [h, if_true]
    · simp only [h, if_false, isConditional_insert_target, Json.Object.insert_insert, Bool.false_eq_true]
  | _ => rfl

/-- The descriptor with its options linked. -/
def Descriptor.linked (d : Descriptor) (target : List String) : Descriptor :=
  { d with template := d.template.link target }

theorem Template.link_link (t : Template) (a b : List String) : (t.link a).link b = t.link b := by
  have hoptions : (t.options.map (Campaign.link a)).map (Campaign.link b) = t.options.map (Campaign.link b) := by
    rw [List.map_map]
    exact List.map_congr_left fun o _ => Campaign.link_link a b o
  exact congrArg (fun options => { t with options := options }) hoptions

/-! ### Descriptors that are kept -/

/-- A template as a reader leaves it. -/
structure Template.Kept (t : Template) : Prop extends t.Settled where
  id : Json.Kept t.id
  media : Json.Kept t.media
  mapping : Json.Kept t.mapping
  productSets : Json.Kept t.productSets
  carousel : Json.Kept t.carousel

/-- A descriptor as a reader leaves it. -/
structure Descriptor.Kept (d : Descriptor) : Prop where
  broadcast : Json.Kept d.broadcast
  delay : Json.Kept d.delay
  template : d.template.Kept

section Keeping
variable {v : Json} {t : Template} {d : Descriptor} {target : List String}

theorem Template.kept_of_read (hv : v.IsCanonical) (h : Template.record.codec.read v = .ok t) : t.Kept := by
  have hsettled := settled_of_read hv h
  obtain ⟨_, rest, ⟨_, options, ⟨_, carousel, ⟨_, productSets, ⟨_, mapping, ⟨_, media, ⟨_, id, rfl, hid, rfl⟩, hmedia,
    rfl⟩, hmapping, rfl⟩, hproductSets, rfl⟩, hcarousel, rfl⟩, -, rfl⟩, -, rfl⟩ :=
    OpenRecord.arises_of_read (r := Template.record) hv h
  exact ⟨hsettled, Field.kept_of_omitted hid, Field.kept_of_omitted hmedia, Field.kept_of_omitted hmapping,
    Field.kept_of_omitted hproductSets, Field.kept_of_omitted hcarousel⟩

theorem Descriptor.kept_of_read (hv : v.IsCanonical) (h : Descriptor.record.read v = .ok d) : d.Kept := by
  obtain ⟨_, t, ⟨_, delay, ⟨_, broadcast, ⟨_, _, rfl, -, rfl⟩, hbroadcast, rfl⟩, hdelay, rfl⟩, ht, rfl⟩ :=
    Record.arises_of_read (r := Descriptor.record) hv h
  obtain ⟨⟨⟩⟩ | ⟨w, hw, hread⟩ := ht
  exact ⟨Field.kept_of_optional hbroadcast, Field.kept_of_optional hdelay, Template.kept_of_read hw hread⟩

theorem Template.Kept.link (h : t.Kept) (target : List String) : (t.link target).Kept :=
  ⟨h.toSettled.link target, h.id, h.media, h.mapping, h.productSets, h.carousel⟩

theorem Template.Kept.keeps (h : t.Kept) : Template.record.codec.Keeps t :=
  OpenRecord.keeps (r := Template.record) (by decide) h.rest
    ⟨_, _, ⟨_, _, ⟨_, _, ⟨_, _, ⟨_, _, ⟨_, _, rfl, Field.reads_omitted h.id, rfl⟩, Field.reads_omitted h.media, rfl⟩,
      Field.reads_omitted h.mapping, rfl⟩, Field.reads_omitted h.productSets, rfl⟩, Field.reads_omitted h.carousel, rfl⟩,
      Field.reads_withDefault (Codec.keeps_list_json h.options), rfl⟩ rfl

/-- What the step of a descriptor holds under a key. -/
def Descriptor.sent (d : Descriptor) (id : String) (target : List String) (key : String) : Option Json :=
  if key = "id" then some (.str id)
  else if key = "type" then some (.str "template")
  else if key = "messageName" then d.name.map .str
  else if key = "broadcastId" then d.broadcast
  else if key = "data" then some (Template.record.codec.encode (d.template.link target))
  else if key = "delay" then d.delay
  else none

theorem Descriptor.get?_write_step (d : Descriptor) (id : String) (target : List String) (key : String) :
    (d.step id target).write.canonical.get? key = (d.sent id target key).map Json.canonical := by
  have hwritten : (d.step id target).write = .obj ([("id", .str id), ("type", .str "template")] ++
      ((d.name.map .str).map ("messageName", ·)).toList ++ (d.broadcast.map ("broadcastId", ·)).toList ++
      [("data", Template.record.codec.encode (d.template.link target))] ++ (d.delay.map ("delay", ·)).toList) := by
    rw [Descriptor.step, Step.write, Message.write, Option.map_map]
    rfl
  rw [hwritten, Json.canonical, Json.get?, Json.Object.get?_canonical]
  · simp only [List.lookup_append, Json.Object.lookup_toList, sent]
    congr 1
    by_cases hkey : key ∈ ["id", "type", "messageName", "broadcastId", "data", "delay"]
    · simp only [List.mem_cons, List.not_mem_nil, or_false] at hkey
      rcases hkey with rfl | rfl | rfl | rfl | rfl | rfl <;> simp [List.lookup_cons]
    · simp only [List.mem_cons, List.not_mem_nil, or_false, not_or] at hkey
      simp [hkey, List.lookup_cons, beq_eq_false_iff_ne.2]
  -- Every field is written at most once, under a name of its own.
  · have hkeys : (["id", "type"] ++ ["messageName"] ++ ["broadcastId"] ++ ["data"] ++ ["delay"]).Nodup := by decide
    have hfield := Json.Object.keys_toList_sublist
    refine hkeys.sublist ?_
    simp only [List.map_append]
    exact ((((List.Sublist.refl _).append (hfield _ _)).append (hfield _ _)).append (List.Sublist.refl _)).append
      (hfield _ _)

/-- A value that is kept reads again from where it is written. -/
theorem Field.reads_of_kept {key : String} {o : Option Json} (h : Json.Kept o) :
    (Field.optional key .json).Reads (o.map Json.canonical) o := by
  cases o with
  | none => rfl
  | some v => exact Codec.read_optional_eq_ok_iff.2 (.inr ⟨(h v rfl).1, v, (h v rfl).2, rfl⟩)

/-- The step of a descriptor reads as the descriptor with its options linked. -/
theorem Descriptor.read_step (h : d.Kept) (id : String) (target : List String) :
    Descriptor.record.read (d.step id target).write.canonical = .ok (d.linked target) := by
  obtain ⟨fields, hfields⟩ : ∃ fields, (d.step id target).write.canonical = .obj fields :=
    ⟨_, by rw [Descriptor.step, Step.write, Message.write, Json.canonical]⟩
  have hget := d.get?_write_step id target
  rw [hfields] at hget ⊢
  simp only [Json.get?] at hget
  have hname : (Field.optional "messageName" .text).Reads ((Json.obj fields).at? "messageName" 0) d.name := by
    rw [Json.at?, hget]
    cases hd : d.name <;> simp [Descriptor.sent, hd] <;> rfl
  have hbroadcast : (Field.optional "broadcastId" .json).Reads ((Json.obj fields).at? "broadcastId" 1) d.broadcast := by
    rw [Json.at?, hget]
    exact Field.reads_of_kept h.broadcast
  have hdelay : (Field.optional "delay" .json).Reads ((Json.obj fields).at? "delay" 2) d.delay := by
    rw [Json.at?, hget]
    exact Field.reads_of_kept h.delay
  have htemplate : (Field.required "data" Template.record.codec).Reads ((Json.obj fields).at? "data" 3)
      (d.template.link target) := by
    rw [Json.at?, hget]
    have hcanonical : (Template.record.codec.encode (d.template.link target)).canonical =
        Template.record.codec.encode (d.template.link target) := Json.canonical_canonical _
    change Template.record.codec.read (Template.record.codec.encode (d.template.link target)).canonical = _
    rw [hcanonical]
    exact (h.template.link target).keeps.2
  exact (Record.read_obj_eq_ok_iff rfl).2 ⟨_, _, ⟨_, _, ⟨_, _, ⟨_, _, rfl, hname, rfl⟩, hbroadcast, rfl⟩, hdelay, rfl⟩,
    htemplate, rfl⟩

end Keeping

/-! ### Campaigns of steps -/

/-- The descriptors are the same but for where their options lead. -/
def Relinked : List Descriptor → List Descriptor → Prop :=
  List.Forall₂ fun d d' => ∃ target, d' = d.linked target

/-- The steps of a flow as the items of a campaign. -/
def itemsOf (f : Flow) : List Json := f.steps.map fun t => t.write.canonical

/-- What comes of sequencing the steps of a flow, where the flow came of sequencing items. -/
structure Resequenced (items : List Json) (l : Layout) (f : Flow) : Prop where
  described : ∀ v ∈ itemsOf f, describes v
  /-- The ids of the edges are those of their ends, so that they follow a renaming of these. -/
  edgeIds : ∀ e ∈ f.stepEdges ++ f.edges, e.id = e.source ++ "-" ++ e.target
  flow : ∀ ids, ∃ g rest, (ofItems (itemsOf f) l).sequence ids = .ok (g, rest) ∧
    -- It is the flow that the first items give under the new ids,
    (ofItems items l).sequence ids = .ok (g, rest) ∧
    -- and the first flow under another name for each of its ids.
    (∀ ρ : String → String, (f.nodes.map fun n => ρ n.id) = g.nodes.map (·.id) → g = renameFlow ρ f) ∧
    ((f.nodes.map (·.id)).Nodup → ∃ ρ : String → String, (f.nodes.map fun n => ρ n.id) = g.nodes.map (·.id))

section Campaigns
variable {ds ds' : List Descriptor} {ids : List String} {items : List Json} {l : Layout}

theorem steps_relinked (h : Relinked ds ds') (ids : List String) : steps ds' ids = steps ds ids := by
  induction h generalizing ids with
  | nil => rfl
  | @cons d d' ds ds' hd _ ih =>
    obtain ⟨target, rfl⟩ := hd
    cases ids with
    | nil => rfl
    | cons id ids =>
      rw [steps, steps, ih]
      simp only [Descriptor.step, Descriptor.linked, Template.link_link]

theorem nodes_relinked (h : Relinked ds ds') (l : Layout) (i : Nat) (ids : List String) :
    nodes l i ds' ids = nodes l i ds ids := by
  induction h generalizing i ids with
  | nil => rfl
  | @cons d d' ds ds' hd _ ih =>
    obtain ⟨target, rfl⟩ := hd
    cases ids with
    | nil => rfl
    | cons id ids =>
      rw [nodes, nodes, ih]
      rfl

theorem sequence_relinked (h : Relinked ds ds') (l : Layout) (source : IdSource) :
    sequence ⟨ds', l⟩ source = sequence ⟨ds, l⟩ source := by
  have hsize : size ⟨ds', l⟩ = size ⟨ds, l⟩ := h.length_eq.symm
  simp only [sequence, hsize, steps_relinked h, nodes_relinked h]

/-- The steps of descriptors describe the descriptors again, with their options linked. -/
theorem relinked_steps (hds : ∀ d ∈ ds, d.Kept) (hlen : ds.length = ids.length) :
    (∀ t ∈ steps ds ids, describes t.write.canonical) ∧
      Relinked ds (Campaign.described ((steps ds ids).map fun t => t.write.canonical)) := by
  induction ids generalizing ds with
  | nil =>
    cases List.eq_nil_of_length_eq_zero hlen
    exact ⟨nofun, .nil⟩
  | cons id ids ih =>
    cases ds with
    | nil => cases hlen
    | cons d ds =>
      obtain ⟨hd, hrest⟩ := List.forall_mem_cons.1 hds
      obtain ⟨hdescribes, hrelinked⟩ := ih hrest (Nat.succ.inj hlen)
      have hread := Descriptor.read_step hd id ids.head?.toList
      rw [steps]
      refine ⟨List.forall_mem_cons.2 ⟨?_, hdescribes⟩, ?_⟩
      · rw [describes, hread]
        rfl
      · rw [List.map_cons, Campaign.described, List.filterMap_cons, hread]
        exact .cons ⟨_, rfl⟩ hrelinked

theorem id_of_mem_chain {e : Edge} (he : e ∈ chain ids) : e.id = e.source ++ "-" ++ e.target := by
  induction ids with
  | nil => cases he
  | cons a rest ih =>
    cases rest with
    | nil => cases he
    | cons b rest =>
      rw [chain, List.mem_cons] at he
      rcases he with rfl | he
      · rfl
      · exact ih he

theorem exists_sequence (hne : Campaign.described items ≠ []) (l : Layout) (source : IdSource) :
    ∃ f rest, (ofItems items l).sequence source = .ok (f, rest) := by
  have hdrawn : source.peek (ofItems items l).size ≠ [] := by
    intro hnil
    have hlen := congrArg List.length hnil
    rw [IdSource.length_peek] at hlen
    exact hne (List.eq_nil_of_length_eq_zero hlen)
  obtain ⟨anchor, rest, h⟩ := sequence_eq_ok rfl (List.getLast?_eq_some_getLast hdrawn)
  exact ⟨_, rest, h⟩

/-- The steps of a campaign make the campaign again, under other ids. -/
theorem resequenced_of_isCanonical (hitems : ∀ v ∈ items, v.IsCanonical) (hne : Campaign.described items ≠ [])
    (l : Layout) (source : IdSource) :
    ∃ f rest, (ofItems items l).sequence source = .ok (f, rest) ∧ Resequenced items l f := by
  have hkept : ∀ d ∈ Campaign.described items, d.Kept := fun d hd => by
    obtain ⟨v, hv, hread⟩ := mem_described hd
    exact Descriptor.kept_of_read (hitems v hv) hread
  obtain ⟨f, rest, hf⟩ := exists_sequence hne l source
  refine ⟨f, rest, hf, ?_⟩
  obtain ⟨ids, last, anchor, hlen, -, hflow⟩ := eq_flowOf_of_sequence hf
  obtain ⟨hdescribes, hrelinked⟩ := relinked_steps hkept hlen
  have hsteps : f.steps = steps (Campaign.described items) ids := congrArg Flow.steps hflow
  rw [← hsteps] at hdescribes hrelinked
  refine ⟨fun v hv => ?_, fun e he => ?_, fun source' => ?_⟩
  · obtain ⟨t, ht, rfl⟩ := List.mem_map.1 hv
    exact hdescribes t ht
  · rw [hflow, flowOf] at he
    simp only [List.mem_append, List.mem_singleton] at he
    rcases he with he | he | rfl
    · exact id_of_mem_chain he
    · exact id_of_mem_chain he
    · rfl
  · obtain ⟨g, rest', hg⟩ := exists_sequence hne l source'
    have hsame : (ofItems (itemsOf f) l).sequence source' = (ofItems items l).sequence source' :=
      sequence_relinked hrelinked l source'
    refine ⟨g, rest', hsame.trans hg, hg, fun ρ hρ => ?_, fun hnd => ?_⟩
    · exact eq_renameFlow_of_sequence (fun d hd => (hkept d hd).template.toSettled) hf hg hρ
    · obtain ⟨ids', last', anchor', hlen', -, hflow'⟩ := eq_flowOf_of_sequence hg
      have hlength : (f.nodes.map (·.id)).length = (g.nodes.map (·.id)).length := by
        rw [hflow, hflow', ids_flowOf hlen, ids_flowOf hlen', List.length_append, List.length_append, ← hlen, ← hlen']
        rfl
      obtain ⟨ρ, hρ⟩ := exists_map_eq hnd hlength
      exact ⟨ρ, by rw [← hρ, List.map_map]; rfl⟩

end Campaigns

/-- Two steps that led elsewhere before: the first has an option that is followed on a condition and one that is not,
    the second has none. -/
def renewals : List Json :=
  [.obj [("data", .obj [("templateId", .str "spring"), ("template_options", .arr
      [.obj [("state", .obj [("isConditional", .bool true), ("target", .strings ["old"])])],
       .obj [("state", .obj [("target", .strings ["old"])])]])]), ("delay", .nat 2)],
   .obj [("broadcastId", .nat 7), ("data", .obj [("media", .obj [("image", .str "leaf.png")])])]]

theorem resequenced_renewals : (∀ v ∈ renewals, v.IsCanonical) ∧ Campaign.described renewals ≠ [] ∧
    ∃ f rest, (ofItems renewals {}).sequence ⟨Text.decimal, 0⟩ = .ok (f, rest) ∧ Resequenced renewals {} f := by
  have hitems : ∀ v ∈ renewals, v.IsCanonical := by
    simp only [renewals, List.forall_mem_cons, List.not_mem_nil, false_implies, implies_true, Json.nat, Json.strings,
      List.map_cons, List.map_nil, Json.IsCanonical, Json.IsCanonicalItems, Json.IsCanonicalFields,
      Json.Object.Ascending]
    decide
  have hlength : (Campaign.described renewals).length = 2 := rfl
  have hne : Campaign.described renewals ≠ [] := List.ne_nil_of_length_pos (by rw [hlength]; decide)
  exact ⟨hitems, hne, resequenced_of_isCanonical hitems hne {} ⟨Text.decimal, 0⟩⟩

end Campaign
end MessageFlow
