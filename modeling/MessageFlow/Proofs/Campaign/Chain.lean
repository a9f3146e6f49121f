import MessageFlow.Campaign.Basic
import MessageFlow.Proofs.Schema.Stability

/-! # Steps one after the other

The items that read as descriptors become steps in their order, and each step leads to the next: by the edges
between the steps, by the edges between the nodes, and by every option of a step that is not followed on a
condition. The three are built apart from each other; here they are told by the edges between the steps. Items
that do not read have no part in a campaign. Items are in canonical form, as `Json.isCanonical_of_parseList` has
it of those that are read from text. -/

namespace MessageFlow

/-! ### Fields that are set -/

namespace Json

theorem IsCanonical.insert {o : Object} {v : Json} (h : IsCanonical (.obj o)) (hv : v.IsCanonical) (key : String) :
    IsCanonical (.obj (o.insert key v)) := by
  obtain ⟨hascending, hfields⟩ := isCanonical_obj_iff.1 h
  refine isCanonical_obj_iff.2 ⟨hascending.insert key v, fun f hf => ?_⟩
  rcases Object.mem_of_mem_insert hf with rfl | hf
  · exact hv
  · exact hfields f hf

theorem isCanonical_strings (items : List String) : (strings items).IsCanonical := by
  refine isCanonical_arr_iff.2 fun v hv => ?_
  obtain ⟨s, -, rfl⟩ := List.mem_map.1 hv
  trivial

end Json

namespace Campaign

/-! ### Options -/

/-- What an option says under a key of its state. -/
def stateAt (option : Json) (key : String) : Option Json := (option.get? "state").bind (Json.get? key)

/-- The option that is sent for an option of a descriptor: it is the same but for its state, and leads to the
    given steps if it is an object and not followed on a condition. -/
structure Linked (target : List String) (given sent : Json) : Prop where
  isObject : sent.isObject = given.isObject
  other : ∀ key, key ≠ "state" → sent.get? key = given.get? key
  conditional : stateAt sent "isConditional" = stateAt given "isConditional"
  leads : sent.isObject → stateAt sent "isConditional" ≠ some (.bool true) →
    stateAt sent "target" = some (.strings target)

section Options
variable {target : List String} {option : Json}

theorem stateAt_obj (option : Json.Object) (key : String) :
    stateAt (.obj option) key = (stateOf option).get? key := by
  unfold stateAt stateOf
  rw [Json.get?]
  cases option.get? "state" with
  | none => rfl
  | some state => cases state <;> rfl

theorem isConditional_eq_true_iff {state : Json.Object} :
    isConditional state = true ↔ state.get? "isConditional" = some (.bool true) := by
  unfold isConditional
  cases state.get? "isConditional" with
  | none => simp
  | some v => cases v <;> simp

theorem link_obj (target : List String) (option : Json.Object) : link target (.obj option) =
    .obj (option.insert "state" (.obj (if isConditional (stateOf option) then stateOf option
      else (stateOf option).insert "target" (.strings target)))) := rfl

theorem linked_link (target : List String) (option : Json) : Linked target option (link target option) := by
  cases option with
  | obj fields =>
    obtain ⟨linked, hlinked⟩ : ∃ linked, linked = if isConditional (stateOf fields) then stateOf fields
      else (stateOf fields).insert "target" (.strings target) := ⟨_, rfl⟩
    have hlink : link target (.obj fields) = .obj (Json.Object.insert fields "state" (.obj linked)) := by
      rw [hlinked, link_obj]
    have hstate : ∀ key, stateAt (link target (.obj fields)) key = linked.get? key := by
      intro key
      rw [hlink, stateAt, Json.get?, Json.Object.get?_insert, if_pos rfl]
      rfl
    have hconditional : linked.get? "isConditional" = (stateOf fields).get? "isConditional" := by
      rw [hlinked]
      split
      · rfl
      · rw [Json.Object.get?_insert, if_neg (by decide)]
    refine ⟨by rw [hlink]; rfl, fun key hkey => ?_, ?_, fun _ hne => ?_⟩
    · rw [hlink, Json.get?, Json.get?, Json.Object.get?_insert, if_neg hkey]
    · rw [hstate, stateAt_obj, hconditional]
    · rw [hstate, hconditional] at hne
      rw [hstate, hlinked, if_neg fun h => hne (isConditional_eq_true_iff.1 h), Json.Object.get?_insert, if_pos rfl]
  | _ => exact ⟨rfl, fun _ _ => rfl, rfl, fun hobject => absurd hobject Bool.false_ne_true⟩

theorem isCanonical_link (h : option.IsCanonical) (target : List String) : (link target option).IsCanonical := by
  cases option with
  | obj fields =>
    have hstate : Json.IsCanonical (.obj (stateOf fields)) := by
      unfold stateOf
      split
      · next state hs => exact h.of_get? (u := .obj fields) hs
      · exact ⟨List.Pairwise.nil, trivial⟩
    have hlinked : Json.IsCanonical (.obj (if isConditional (stateOf fields) then stateOf fields
        else (stateOf fields).insert "target" (.strings target))) := by
      split
      · exact hstate
      · exact hstate.insert (Json.isCanonical_strings target) "target"
    exact h.insert hlinked "state"
  | _ => exact h

end Options

/-! ### Descriptors -/

/-- A template whose options and further fields are as a reader leaves them. -/
structure Template.Settled (t : Template) : Prop where
  options : ∀ o ∈ t.options, o.IsCanonical
  rest : Json.Object.Unnamed Template.record.schema.names t.rest

/-- The message that is sent for a descriptor, with an id and to lead to the given steps. -/
structure Descriptor.Sends (d : Descriptor) (id : String) (target : List String) (m : Message) : Prop where
  id : m.id = id
  kind : m.kind = .template
  name : m.name = d.name
  broadcast : m.broadcast = d.broadcast
  delay : m.delay = d.delay
  options : ∃ sent, m.content.write.get? "template_options" = some (.arr sent) ∧
    List.Forall₂ (Linked target) d.template.options sent

section Descriptors
variable {v : Json} {t : Template} {d : Descriptor} {target : List String}

theorem Template.settled_of_read (hv : v.IsCanonical) (h : Template.record.codec.read v = .ok t) : t.Settled := by
  obtain ⟨_, rest, ⟨_, options, ⟨_, _, ⟨_, _, ⟨_, _, ⟨_, _, ⟨_, _, rfl, -, rfl⟩, -, rfl⟩, -, rfl⟩, -, rfl⟩, -, rfl⟩,
    hoptions, rfl⟩, hrest, rfl⟩ := OpenRecord.arises_of_read (r := Template.record) hv h
  refine ⟨fun o ho => ?_, hrest⟩
  obtain ⟨⟨⟩⟩ | ⟨w, hw, hread⟩ := hoptions
  · cases ho
  · obtain ⟨u, hu, ⟨⟩⟩ := Codec.exists_read_of_mem_list hw hread ho
    exact hu

theorem Descriptor.settled_of_read (hv : v.IsCanonical) (h : Descriptor.record.read v = .ok d) :
    d.template.Settled := by
  obtain ⟨_, t, ⟨_, _, ⟨_, _, ⟨_, _, rfl, -, rfl⟩, -, rfl⟩, -, rfl⟩, ht, rfl⟩ :=
    Record.arises_of_read (r := Descriptor.record) hv h
  obtain ⟨⟨⟩⟩ | ⟨w, hw, hread⟩ := ht
  exact Template.settled_of_read hw hread

theorem Template.Settled.link (h : t.Settled) (target : List String) : (t.link target).Settled where
  options o ho := by
    obtain ⟨given, hgiven, rfl⟩ := List.mem_map.1 ho
    exact isCanonical_link (h.options given hgiven) target
  rest := h.rest

theorem Template.Settled.get?_options (h : t.Settled) :
    (Template.record.codec.encode t).get? "template_options" = some (.arr t.options) := by
  have hcanonical : Json.IsCanonical (.arr t.options) := Json.isCanonical_arr_iff.2 h.options
  have hlookup : (Template.record.schema.writeFields t).lookup "template_options" = some (.arr t.options) := by
    refine (Schema.lookup_writeFields_field _ _ _ t _).trans ?_
    rw [Schema.lookup_writeFields_eq_none (by decide), Option.none_or]
    exact congrArg (fun options => some (Json.arr options)) (List.map_id t.options)
  rw [OpenRecord.get?_encode (r := Template.record) (by decide) h.rest, if_pos (by decide), hlookup, Option.map_some,
    Json.canonical_eq_self hcanonical]

theorem Descriptor.sends_step (h : d.template.Settled) (id : String) (target : List String) :
    ∃ m, d.step id target = .message m ∧ d.Sends id target m := by
  refine ⟨_, rfl, rfl, rfl, rfl, rfl, rfl, _, (h.link target).get?_options, ?_⟩
  rw [Template.link, List.forall₂_map_right_iff]
  exact List.forall₂_same.2 fun o _ => linked_link target o

end Descriptors

/-! ### Chains -/

/-- Where the edges that leave a step lead, in their order. -/
def targets (edges : List Edge) (id : String) : List String := (edges.filter fun e => e.source == id).map (·.target)

section Chains
variable {ids : List String} {ds : List Descriptor}

theorem ends_chain (ids : List String) : (chain ids).map (fun e => (e.source, e.target)) = ids.zip ids.tail := by
  induction ids with
  | nil => rfl
  | cons a rest ih =>
    cases rest with
    | nil => rfl
    | cons b rest =>
      rw [chain, List.map_cons, ih]
      rfl

/-- The edges of a chain join its ids. -/
theorem ends_mem_of_mem_chain {e : Edge} (he : e ∈ chain ids) : e.source ∈ ids ∧ e.target ∈ ids := by
  have hends : (e.source, e.target) ∈ ids.zip ids.tail := by
    rw [← ends_chain]
    exact List.mem_map.2 ⟨e, he, rfl⟩
  obtain ⟨hsource, htarget⟩ := List.of_mem_zip hends
  exact ⟨hsource, List.mem_of_mem_tail htarget⟩

theorem targets_chain_cons_of_ne {a id : String} (h : id ≠ a) :
    targets (chain (a :: ids)) id = targets (chain ids) id := by
  cases ids with
  | nil => rfl
  | cons b rest =>
    rw [chain, targets, List.filter_cons_of_neg]
    · rfl
    · rw [beq_iff_eq]
      exact fun hedge => h hedge.symm

theorem targets_chain_cons_self {a : String} (h : a ∉ ids) : targets (chain (a :: ids)) a = ids.head?.toList := by
  have hrest : targets (chain ids) a = [] := by
    rw [targets, List.map_eq_nil_iff, List.filter_eq_nil_iff]
    intro e he hsource
    exact h (beq_iff_eq.1 hsource ▸ (ends_mem_of_mem_chain he).1)
  cases ids with
  | nil => rfl
  | cons b rest =>
    rw [chain, targets, List.filter_cons_of_pos (by simp [edge]), List.map_cons]
    exact congrArg (b :: ·) hrest

/-- In a chain without repeats each id leads to the next, and the last nowhere. -/
theorem targets_chain (h : ids.Nodup) {i : Nat} {id : String} (hi : ids[i]? = some id) :
    targets (chain ids) id = ids[i + 1]?.toList := by
  induction ids generalizing i with
  | nil => cases hi
  | cons a rest ih =>
    obtain ⟨ha, hrest⟩ := List.nodup_cons.1 h
    cases i with
    | zero =>
      cases hi
      rw [targets_chain_cons_self ha, List.getElem?_cons_succ, List.head?_eq_getElem?]
    | succ i =>
      rw [List.getElem?_cons_succ] at hi ⊢
      have hne : id ≠ a := fun heq => ha (heq ▸ List.mem_of_getElem? hi)
      rw [targets_chain_cons_of_ne hne, ih hrest hi]

/-- Each step is made to lead where the edges of the chain lead. -/
theorem steps_eq (ds : List Descriptor) (h : ids.Nodup) : steps ds ids =
    (ds.zip ids).map fun p => p.1.step p.2 (targets (chain ids) p.2) := by
  induction ids generalizing ds with
  | nil => cases ds <;> rfl
  | cons a rest ih =>
    obtain ⟨ha, hrest⟩ := List.nodup_cons.1 h
    cases ds with
    | nil => rfl
    | cons d ds =>
      rw [steps, List.zip_cons_cons, List.map_cons, targets_chain_cons_self ha, ih ds hrest]
      refine congrArg _ (List.map_congr_left fun p hp => ?_)
      have hne : p.2 ≠ a := fun heq => ha (heq ▸ (List.of_mem_zip hp).2)
      rw [targets_chain_cons_of_ne hne]

theorem ids_steps (hids : ids.Nodup) (hlen : ds.length = ids.length) : (steps ds ids).map Step.id = ids := by
  have hid : ∀ p : Descriptor × String, (p.1.step p.2 (targets (chain ids) p.2)).id = p.2 := fun _ => rfl
  rw [steps_eq ds hids, List.map_map, Function.comp_def]
  simp only [hid]
  exact List.map_snd_zip (Nat.le_of_eq hlen.symm)

theorem ids_nodes (l : Layout) (i : Nat) (h : ds.length = ids.length) : (nodes l i ds ids).map (·.id) = ids := by
  induction ids generalizing i ds with
  | nil => cases ds <;> rfl
  | cons id ids ih =>
    cases ds with
    | nil => cases h
    | cons d ds => rw [nodes, List.map_cons, ih (i + 1) (Nat.succ.inj h), Descriptor.node]

theorem type_of_mem_nodes (l : Layout) (i : Nat) {n : Node} (h : n ∈ nodes l i ds ids) :
    n.type = MessageKind.template.name := by
  induction ids generalizing i ds with
  | nil => cases ds <;> cases h
  | cons id ids ih =>
    cases ds with
    | nil => cases h
    | cons d ds =>
      rw [nodes, List.mem_cons] at h
      rcases h with rfl | h
      · rfl
      · exact ih (i + 1) h

end Chains

/-! ### Campaigns -/

/-- The steps of a flow are those of descriptors, with the given ids, and each leads to the next. -/
structure Chained (ds : List Descriptor) (ids : List String) (f : Flow) : Prop where
  stepIds : f.steps.map Step.id = ids
  stepEdges : f.stepEdges.map (fun e => (e.source, e.target)) = ids.zip ids.tail
  targets : ∀ i id, ids[i]? = some id → Campaign.targets f.stepEdges id = ids[i + 1]?.toList
  steps : List.Forall₂ (fun p t => ∃ m, t = .message m ∧ p.1.Sends p.2 (Campaign.targets f.stepEdges p.2) m)
    (ds.zip ids) f.steps

/-- The canvas of a flow shows nodes with the given ids in a chain, with an anchor behind the last. -/
structure Anchored (ids : List String) (f : Flow) (anchor : Node) (link : Edge) : Prop where
  nodes : ∃ shown, f.nodes = shown ++ [anchor] ∧ shown.map (·.id) = ids ∧
    ∀ n ∈ shown, n.type = MessageKind.template.name
  edges : f.edges = f.stepEdges ++ [link]
  type : anchor.type = "plusIcon"
  id : ∃ rest, anchor.id = "plus-" ++ rest
  source : anchor.data.get? "source" = ids.getLast?.map .str
  link : some link.source = ids.getLast? ∧ link.target = anchor.id

def describes (item : Json) : Bool := (Descriptor.record.read item).isOk

def described (items : List Json) : List Descriptor := items.filterMap fun v => (Descriptor.record.read v).toOption

/-- What comes of items. -/
structure Sequenced (items : List Json) (l : Layout) (ids : IdSource) : Prop where
  empty : described items = [] → (ofItems items l).sequence ids = .error .empty
  flow : described items ≠ [] → (ids.peek (described items).length).Nodup →
    ∃ f rest anchor link, (ofItems items l).sequence ids = .ok (f, rest) ∧
      Chained (described items) (ids.peek (described items).length) f ∧
      Anchored (ids.peek (described items).length) f anchor link
  /-- Items that do not read as descriptors do not count. -/
  undescribed : ∀ others : List Json, others.filter describes = items.filter describes →
    (ofItems others l).sequence ids = (ofItems items l).sequence ids

section Sequences
variable {items : List Json} {l : Layout} {ids : IdSource} {c : Campaign} {drawn : List String} {last : String}

theorem sequence_eq_ok (hdrawn : ids.peek c.size = drawn) (hlast : drawn.getLast? = some last) :
    ∃ anchor rest, c.sequence ids = .ok (
      { stepEdges := chain drawn, steps := steps c.descriptors drawn,
        nodes := nodes c.layout 0 c.descriptors drawn ++ [anchorNode c.layout c.size (anchorId anchor) last],
        edges := chain drawn ++ [edge last (anchorId anchor)] }, rest) := by
  subst hdrawn
  refine ⟨(ids.skip c.size).head, (ids.skip c.size).skip 1, ?_⟩
  rw [sequence, hlast]

theorem chained_chain {ds : List Descriptor} {f : Flow} (hd : ∀ d ∈ ds, d.template.Settled) (hnd : drawn.Nodup)
    (hlen : ds.length = drawn.length) (hedges : f.stepEdges = chain drawn) (hsteps : f.steps = steps ds drawn) :
    Chained ds drawn f := by
  refine ⟨by rw [hsteps, ids_steps hnd hlen], hedges ▸ ends_chain drawn, hedges ▸ fun i id => targets_chain hnd, ?_⟩
  rw [hsteps, steps_eq ds hnd, hedges, List.forall₂_map_right_iff]
  exact List.forall₂_same.2 fun p hp =>
    Descriptor.sends_step (hd p.1 (List.of_mem_zip hp).1) p.2 (targets (chain drawn) p.2)

theorem mem_described {d : Descriptor} (h : d ∈ described items) : ∃ v ∈ items, Descriptor.record.read v = .ok d := by
  obtain ⟨v, hv, hd⟩ := List.mem_filterMap.1 h
  refine ⟨v, hv, ?_⟩
  cases hr : Descriptor.record.read v with
  | error e => simp [hr, Except.toOption] at hd
  | ok d' =>
    rw [hr] at hd
    exact congrArg Except.ok (Option.some.inj hd)

theorem described_filter (items : List Json) : described (items.filter describes) = described items := by
  rw [described, described, List.filterMap_filter]
  refine List.filterMap_congr fun v _ => ?_
  unfold describes
  cases Descriptor.record.read v <;> rfl

/-- A campaign of items whose descriptors are chained, or that is empty if there are none. -/
theorem sequenced_of_isCanonical (l : Layout) (ids : IdSource) (hitems : ∀ v ∈ items, v.IsCanonical) :
    Sequenced items l ids where
  empty h := by
    have hsize : (ofItems items l).size = 0 := congrArg List.length h
    rw [sequence, hsize]
    rfl
  flow hne hnd := by
    have hdrawn : ids.peek (ofItems items l).size = ids.peek (described items).length := rfl
    generalize ids.peek (described items).length = drawn at hdrawn hnd
    have hlen : (described items).length = drawn.length := by
      rw [← hdrawn, IdSource.length_peek]
      rfl
    obtain ⟨last, hlast⟩ : ∃ last, drawn.getLast? = some last := by
      refine Option.isSome_iff_exists.1 (List.getLast?_isSome.2 fun hnil => hne ?_)
      exact List.eq_nil_of_length_eq_zero (by rw [hlen, hnil, List.length_nil])
    obtain ⟨anchor, rest, hflow⟩ := sequence_eq_ok hdrawn hlast
    have hd : ∀ d ∈ described items, d.template.Settled := fun d hd => by
      obtain ⟨v, hv, hread⟩ := mem_described hd
      exact Descriptor.settled_of_read (hitems v hv) hread
    refine ⟨_, rest, anchorNode l (ofItems items l).size (anchorId anchor) last, edge last (anchorId anchor), hflow,
      chained_chain hd hnd hlen rfl rfl, ?_⟩
    exact ⟨⟨_, rfl, ids_nodes l 0 hlen, fun n hn => type_of_mem_nodes l 0 hn⟩, rfl, rfl, ⟨anchor, rfl⟩,
      by rw [hlast]; rfl, hlast.symm, rfl⟩
  undescribed others h := by
    have hdescribed : (ofItems others l).descriptors = (ofItems items l).descriptors := by
      have := described_filter others
      rw [h, described_filter] at this
      exact this.symm
    have hcampaign : ofItems others l = ofItems items l := congrArg (Campaign.mk · l) hdescribed
    rw [hcampaign]

end Sequences

/-- Two descriptors between items that do not read. The first has an option that is followed on a condition, one
    whose state is no object and one that is no object itself. -/
def promotions : List Json :=
  [.null,
   .obj [("data", .obj [("templateId", .str "spring"), ("template_options", .arr
      [.obj [("state", .obj [("isConditional", .bool true)])], .obj [("state", .str "idle"), ("type", .str "button")],
       .str "plain"]), ("theme", .nat 3)]), ("messageName", .str "Spring")],
   .obj [("messageName", .str "Summer")],
   .obj [("broadcastId", .nat 7), ("data", .obj [])]]

theorem sequenced_promotions : (∀ v ∈ promotions, v.IsCanonical) ∧ (described promotions).length = 2 ∧
    (IdSource.peek ⟨Text.decimal, 0⟩ 2).Nodup ∧ Sequenced promotions {} ⟨Text.decimal, 0⟩ := by
  have hitems : ∀ v ∈ promotions, v.IsCanonical := by
    simp only [promotions, List.forall_mem_cons, List.not_mem_nil, false_implies, implies_true, Json.nat,
      Json.IsCanonical, Json.IsCanonicalItems, Json.IsCanonicalFields, Json.Object.Ascending]
    decide
  exact ⟨hitems, rfl, by decide, sequenced_of_isCanonical {} ⟨Text.decimal, 0⟩ hitems⟩

end Campaign
end MessageFlow
