import MessageFlow.Proofs.Campaign.Chain

/-! # Other ids for a campaign

The ids of a campaign's flow are drawn from a source and mean nothing: with ids from another source the same campaign
gives the same flow under other names. The ids stand in the steps, in the nodes, at the ends of the edges and in their
own ids, in the data of the anchor, and in the targets of those options that are not followed on a condition. Nothing
else of the flow is touched, even where a descriptor happens to say the same text. -/

namespace MessageFlow

/-! ### Values under a key -/

namespace Json

/-- The value with what it holds under a key changed; a value that holds nothing there stays as it is. -/
def mapAt (key : String) (f : Json → Json) : Json → Json
  | .obj fields =>
    match Object.get? fields key with
    | some v => .obj (Object.insert fields key (f v))
    | none => .obj fields
  | v => v

/-- The list with each element changed; other values as they are. -/
def mapItems (f : Json → Json) : Json → Json
  | .arr items => .arr (items.map f)
  | v => v

/-- The text changed; other values as they are. -/
def mapText (ρ : String → String) : Json → Json
  | .str s => .str (ρ s)
  | v => v

section Changing
variable {o : Object} {key : String} {v w : Json}

/-- Of two values that are set under a key the second stays. -/
theorem Object.insert_insert (o : Object) (key : String) (v w : Json) :
    (o.insert key v).insert key w = o.insert key w := by
  induction o with
  | nil => simp [Object.insert]
  | cons f rest ih =>
    obtain ⟨k, u⟩ := f
    by_cases hlt : key < k
    · simp [Object.insert, hlt]
    · by_cases heq : key = k
      · simp [Object.insert, heq]
      · simp [Object.insert, hlt, heq, ih]

theorem mapAt_insert (o : Object) (key : String) (v : Json) (f : Json → Json) :
    (Json.obj (o.insert key v)).mapAt key f = .obj (o.insert key (f v)) := by
  simp only [mapAt, Object.get?_insert, if_pos, Object.insert_insert]

theorem mapItems_strings (ρ : String → String) (items : List String) :
    (strings items).mapItems (mapText ρ) = strings (items.map ρ) := by
  simp [strings, mapItems, mapText]

end Changing

end Json

/-! ### Ids of flows -/

/-- The edge between nodes of other ids, and with an id made from these. -/
def Edge.rename (ρ : String → String) (e : Edge) : Edge :=
  { e with id := ρ e.source ++ "-" ++ ρ e.target, source := ρ e.source, target := ρ e.target }

namespace Campaign

/-- The option with other ids in its targets, unless it is followed on a condition. -/
def renameOption (ρ : String → String) (option : Json) : Json :=
  match stateAt option "isConditional" with
  | some (.bool true) => option
  | _ => option.mapAt "state" (Json.mapAt "target" (Json.mapItems (Json.mapText ρ)))

/-- The message with another id, and other ids in the targets of its options. -/
def renameMessage (ρ : String → String) (m : Message) : Message :=
  { m with
    id := ρ m.id
    content :=
      match m.content with
      | .spec data => .spec (data.mapAt "template_options" (Json.mapItems (renameOption ρ)))
      | content => content }

/-- The step with another id. The steps of campaigns are messages. -/
def renameStep (ρ : String → String) : Step → Step
  | .message m => .message (renameMessage ρ m)
  | t => t

/-- The node with another id. An anchor also names the node that it stands behind. -/
def renameNode (ρ : String → String) (n : Node) : Node :=
  { n with
    id := ρ n.id
    data := if n.type = anchorType then n.data.mapAt "source" (Json.mapText ρ) else n.data }

/-- The flow with other ids. -/
def renameFlow (ρ : String → String) (f : Flow) : Flow where
  stepEdges := f.stepEdges.map (·.rename ρ)
  steps := f.steps.map (renameStep ρ)
  nodes := f.nodes.map (renameNode ρ)
  edges := f.edges.map (·.rename ρ)

section Options
variable {ρ : String → String} {option : Json}

theorem renameOption_of_conditional (h : stateAt option "isConditional" = some (.bool true)) :
    renameOption ρ option = option := by
  rw [renameOption, h]

theorem renameOption_of_not_conditional (h : stateAt option "isConditional" ≠ some (.bool true)) :
    renameOption ρ option = option.mapAt "state" (Json.mapAt "target" (Json.mapItems (Json.mapText ρ))) := by
  unfold renameOption
  split
  · next hconditional => exact absurd hconditional h
  · rfl

/-- An option that is linked to ids and then renamed is linked to the other ids. -/
theorem renameOption_link (ρ : String → String) (target : List String) (option : Json) :
    renameOption ρ (link target option) = link (target.map ρ) option := by
  have hconditional := (linked_link target option).conditional
  by_cases h : stateAt option "isConditional" = some (.bool true)
  · rw [renameOption_of_conditional (hconditional.trans h)]
    cases option with
    | obj fields =>
      rw [stateAt_obj, ← isConditional_eq_true_iff] at h
      simp only [link, h, if_true]
    | _ => rfl
  · rw [renameOption_of_not_conditional (hconditional ▸ h)]
    cases option with
    | obj fields =>
      rw [stateAt_obj, ← isConditional_eq_true_iff] at h
      simp only [link, h, if_false, Json.mapAt_insert, Json.mapItems_strings, Bool.false_eq_true]
    | _ => rfl

end Options

section Templates
variable {t : Template} {target : List String}

theorem Template.lookup_link (t : Template) (target : List String) {key : String} (hkey : key ≠ "template_options") :
    (Template.record.schema.writeFields (t.link target)).lookup key =
      (Template.record.schema.writeFields t).lookup key := by
  -- The options are the last field, and those before it are written alike.
  have hbefore : ∀ u : Template, (Template.record.schema.writeFields u).lookup key = _ := fun u =>
    (Schema.lookup_writeFields_field _ _ _ u key).trans (congrArg _ (if_neg hkey))
  rw [hbefore, hbefore]
  rfl

/-- Of what is written of a template the options alone are linked. -/
theorem Template.Settled.get?_link (h : t.Settled) (target : List String) (key : String) :
    (Template.record.codec.encode (t.link target)).get? key =
      if key = "template_options" then some (.arr (t.options.map (Campaign.link target)))
      else (Template.record.codec.encode t).get? key := by
  split
  · next hkey =>
    rw [hkey]
    exact (h.link target).get?_options
  · next hkey =>
    rw [OpenRecord.get?_encode (r := Template.record) (x := t.link target) (by decide) h.rest,
      OpenRecord.get?_encode (r := Template.record) (x := t) (by decide) h.rest, t.lookup_link target hkey]
    rfl

/-- A template is written with its options linked to other ids as it is with them linked and then renamed. -/
theorem Template.Settled.encode_link_map (h : t.Settled) (ρ : String → String) (target : List String) :
    Template.record.codec.encode (t.link (target.map ρ)) =
      (Template.record.codec.encode (t.link target)).mapAt "template_options" (Json.mapItems (renameOption ρ)) := by
  have hget := h.get?_link target
  have hget' := h.get?_link (target.map ρ)
  have hcanonical : ∀ u : Template, (Template.record.codec.encode u).IsCanonical := fun u =>
    Json.isCanonical_canonical _
  obtain ⟨fields, hfields⟩ : ∃ fields, Template.record.codec.encode (t.link target) = .obj fields :=
    ⟨_, OpenRecord.encode_eq Template.record _⟩
  obtain ⟨fields', hfields'⟩ : ∃ fields, Template.record.codec.encode (t.link (target.map ρ)) = .obj fields :=
    ⟨_, OpenRecord.encode_eq Template.record _⟩
  have hascending := (Json.isCanonical_obj_iff.1 (hfields ▸ hcanonical (t.link target))).1
  have hascending' := (Json.isCanonical_obj_iff.1 (hfields' ▸ hcanonical (t.link (target.map ρ)))).1
  rw [hfields] at hget ⊢
  rw [hfields'] at hget' ⊢
  simp only [Json.get?] at hget hget'
  have hrenamed : (t.options.map (Campaign.link target)).map (renameOption ρ) =
      t.options.map (Campaign.link (target.map ρ)) := by
    rw [List.map_map]
    exact List.map_congr_left fun o _ => renameOption_link ρ target o
  simp only [Json.mapAt, hget, if_true, Json.mapItems, hrenamed, Json.obj.injEq]
  refine hascending'.ext (hascending.insert _ _) fun key => ?_
  rw [hget', Json.Object.get?_insert, hget]
  split <;> rfl

end Templates

section Flows
variable {ρ : String → String} {d : Descriptor} {ds : List Descriptor} {ids : List String} {l : Layout}

theorem step_map (h : d.template.Settled) (ρ : String → String) (id : String) (target : List String) :
    d.step (ρ id) (target.map ρ) = renameStep ρ (d.step id target) := by
  rw [Descriptor.step, h.encode_link_map ρ target]
  rfl

theorem steps_map (hds : ∀ d ∈ ds, d.template.Settled) (ρ : String → String) (ids : List String) :
    steps ds (ids.map ρ) = (steps ds ids).map (renameStep ρ) := by
  induction ids generalizing ds with
  | nil => cases ds <;> rfl
  | cons id rest ih =>
    cases ds with
    | nil => rfl
    | cons d ds =>
      obtain ⟨hd, hrest⟩ := List.forall_mem_cons.1 hds
      have hnext : (rest.map ρ).head?.toList = rest.head?.toList.map ρ := by cases rest <;> rfl
      rw [List.map_cons, steps, steps, List.map_cons, ih hrest, hnext, step_map hd]

theorem chain_map (ρ : String → String) (ids : List String) : chain (ids.map ρ) = (chain ids).map (·.rename ρ) := by
  induction ids with
  | nil => rfl
  | cons a rest ih =>
    cases rest with
    | nil => rfl
    | cons b rest =>
      rw [List.map_cons] at ih
      rw [List.map_cons, List.map_cons, chain, chain, List.map_cons, ih]
      rfl

theorem node_map (d : Descriptor) (l : Layout) (i : Nat) (ρ : String → String) (id : String) :
    d.node l i (ρ id) = renameNode ρ (d.node l i id) := by
  have hname : MessageKind.template.name ≠ anchorType := by decide
  have htype : (d.node l i id).type ≠ anchorType := hname
  rw [renameNode, if_neg htype]
  rfl

theorem nodes_map (l : Layout) (i : Nat) (ds : List Descriptor) (ρ : String → String) (ids : List String) :
    nodes l i ds (ids.map ρ) = (nodes l i ds ids).map (renameNode ρ) := by
  induction ids generalizing i ds with
  | nil => cases ds <;> rfl
  | cons id rest ih =>
    cases ds with
    | nil => rfl
    | cons d ds =>
      rw [List.map_cons, nodes, nodes, List.map_cons, ih, node_map]

theorem anchorNode_map (l : Layout) (i : Nat) (ρ : String → String) (anchor last : String) :
    anchorNode l i (ρ anchor) (ρ last) = renameNode ρ (anchorNode l i anchor last) := rfl

/-- The flow of descriptors with the given ids, the last of which is `last`, and with an anchor. -/
def flowOf (l : Layout) (ds : List Descriptor) (ids : List String) (last anchor : String) : Flow where
  stepEdges := chain ids
  steps := steps ds ids
  nodes := nodes l 0 ds ids ++ [anchorNode l ds.length anchor last]
  edges := chain ids ++ [edge last anchor]

theorem flowOf_map (hds : ∀ d ∈ ds, d.template.Settled) (ρ : String → String) (last anchor : String) :
    flowOf l ds (ids.map ρ) (ρ last) (ρ anchor) = renameFlow ρ (flowOf l ds ids last anchor) := by
  simp only [flowOf, renameFlow, chain_map, steps_map hds, nodes_map, List.map_append, List.map_cons, List.map_nil,
    anchorNode_map]
  rfl

theorem ids_flowOf (h : ds.length = ids.length) (last anchor : String) :
    (flowOf l ds ids last anchor).nodes.map (·.id) = ids ++ [anchor] := by
  rw [flowOf, List.map_append, ids_nodes l 0 h]
  rfl

theorem eq_flowOf_of_sequence {c : Campaign} {source rest : IdSource} {f : Flow}
    (h : c.sequence source = .ok (f, rest)) : ∃ ids last anchor, c.size = ids.length ∧ ids.getLast? = some last ∧
      f = flowOf c.layout c.descriptors ids last anchor := by
  rw [sequence] at h
  cases hlast : (source.peek c.size).getLast? with
  | none => simp [hlast] at h
  | some last =>
    simp only [hlast, Except.ok.injEq, Prod.mk.injEq] at h
    exact ⟨_, last, _, (IdSource.length_peek _ _).symm, hlast, h.1.symm⟩

/-- Two flows of one campaign are the same but for their ids. -/
theorem eq_renameFlow_of_sequence {c : Campaign} {source source' rest rest' : IdSource} {f g : Flow}
    (hds : ∀ d ∈ c.descriptors, d.template.Settled) (hf : c.sequence source = .ok (f, rest))
    (hg : c.sequence source' = .ok (g, rest')) {ρ : String → String}
    (hρ : (f.nodes.map fun n => ρ n.id) = g.nodes.map (·.id)) : g = renameFlow ρ f := by
  obtain ⟨ids, last, anchor, hlen, hlast, rfl⟩ := eq_flowOf_of_sequence hf
  obtain ⟨ids', last', anchor', hlen', hlast', rfl⟩ := eq_flowOf_of_sequence hg
  have hids : (ids ++ [anchor]).map ρ = ids' ++ [anchor'] := by
    rw [← ids_flowOf hlen last anchor, ← ids_flowOf hlen' last' anchor', List.map_map]
    exact hρ
  rw [List.map_append, List.map_cons, List.map_nil] at hids
  obtain ⟨rfl, hanchor⟩ := List.append_inj' hids rfl
  obtain rfl : ρ anchor = anchor' := List.singleton_inj.1 hanchor
  obtain rfl : ρ last = last' := by
    rw [List.getLast?_map, hlast] at hlast'
    exact Option.some.inj hlast'
  exact flowOf_map hds ρ last anchor

/-- Names that do not repeat can be given any others. -/
theorem exists_map_eq {names others : List String} (h : names.Nodup) (hlen : names.length = others.length) :
    ∃ ρ : String → String, names.map ρ = others := by
  induction names generalizing others with
  | nil => exact ⟨id, (List.eq_nil_of_length_eq_zero hlen.symm).symm⟩
  | cons a names ih =>
    cases others with
    | nil => cases hlen
    | cons b others =>
      obtain ⟨ha, hnames⟩ := List.nodup_cons.1 h
      obtain ⟨ρ, hρ⟩ := ih hnames (Nat.succ.inj hlen)
      refine ⟨Function.update ρ a b, ?_⟩
      rw [List.map_cons, Function.update_self, ← hρ]
      refine congrArg (b :: ·) (List.map_congr_left fun c hc => Function.update_of_ne ?_ _ _)
      rintro rfl
      exact ha hc

end Flows
end Campaign
end MessageFlow
