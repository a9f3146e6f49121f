import MessageFlow.Proofs.Scaffold.Recompile

/-! # Several messages behind one trigger

Of the items of a group, those that ask for a message and whose specification scaffolds are kept, in their order;
each has the node that its specification has when it is scaffolded alone, and compiled behind the trigger of the
group it sends the message that it sends compiled alone. Items that are not kept have no part in the canvas, but
the step of the group holds all items as they were given. -/

namespace MessageFlow
namespace Scaffold
open Compile

/-! ### Items -/

/-- The item asks for a message of a kind, by the rules for items, and holds the specification. -/
def Asks (item : Json) (k : SingleKind) (spec : Json) : Prop :=
  ∃ r, Request.record.read item = .ok r ∧ SingleKind.ofItem? r.type r.subType = some k ∧ r.data = spec

/-- The specification scaffolds as one of its kind. -/
def Scaffolds (k : SingleKind) (spec : Json) : Prop := ∃ ids f rest, ofSpec (.single k) spec ids = .ok (f, rest)

/-- What the items that are kept ask for, in their order. -/
inductive Kept : List Json → List (SingleKind × Json) → Prop
  | nil : Kept [] []
  | keep {item spec : Json} {k : SingleKind} {items : List Json} {kept : List (SingleKind × Json)}
      (ha : Asks item k spec) (hs : Scaffolds k spec) (hr : Kept items kept) : Kept (item :: items) ((k, spec) :: kept)
  | drop {item : Json} {items : List Json} {kept : List (SingleKind × Json)}
      (hd : ∀ k spec, Asks item k spec → ¬Scaffolds k spec) (hr : Kept items kept) : Kept (item :: items) kept

section Items
variable {item spec data : Json} {k : SingleKind} {ids : IdSource}

theorem ofSpec_of_data (h : k.data spec = .ok data) (ids : IdSource) : ofSpec (.single k) spec ids =
    .ok ({ stepEdges := [], steps := [k.step spec (ids.skip 1).head],
           nodes := [triggerNode ids.head, k.node data (ids.skip 1).head],
           edges := [triggerEdge ids.head (ids.skip 1).head] }, ids.skip 2) := by
  simp only [ofSpec, single, h]

theorem scaffolds_iff : Scaffolds k spec ↔ ∃ data, k.data spec = .ok data := by
  constructor
  · rintro ⟨ids, f, rest, h⟩
    cases hd : k.data spec with
    | error e => simp [ofSpec, single, hd] at h
    | ok data => exact ⟨data, rfl⟩
  · rintro ⟨data, h⟩
    exact ⟨⟨Text.decimal, 0⟩, _, _, ofSpec_of_data h _⟩

theorem item?_eq_some_iff : item? item = some (k, data) ↔ ∃ spec, Asks item k spec ∧ k.data spec = .ok data := by
  constructor
  · intro h
    unfold item? at h
    split at h
    · cases h
    · next r hr =>
      split at h
      · cases h
      · next j hj =>
        split at h
        · cases h
        · next hdata =>
          cases h
          exact ⟨r.data, ⟨r, hr, hj, rfl⟩, hdata⟩
  · rintro ⟨_, ⟨r, hr, hk, rfl⟩, hdata⟩
    simp only [item?, hr, hk, hdata]

theorem Asks.unique {spec' : Json} {k' : SingleKind} (h : Asks item k spec) (h' : Asks item k' spec') :
    (k, spec) = (k', spec') := by
  obtain ⟨r, hr, hk, rfl⟩ := h
  obtain ⟨r', hr', hk', rfl⟩ := h'
  obtain rfl : r = r' := Except.ok.inj (hr.symm.trans hr')
  rw [Option.some.inj (hk.symm.trans hk')]

theorem Kept.unique {items : List Json} {kept kept' : List (SingleKind × Json)} (h : Kept items kept)
    (h' : Kept items kept') : kept = kept' := by
  induction h generalizing kept' with
  | nil =>
    cases h'
    rfl
  | keep ha hs _ ih =>
    cases h' with
    | keep ha' _ hr' => rw [ha.unique ha', ih hr']
    | drop hd' _ => exact absurd hs (hd' _ _ ha)
  | drop hd _ ih =>
    cases h' with
    | keep ha' hs' _ => exact absurd hs' (hd _ _ ha')
    | drop _ hr' => exact ih hr'

/-- Of several items those are kept from which a message is made. -/
theorem exists_kept (items : List Json) : ∃ kept, Kept items kept ∧
    List.Forall₂ (fun p m => m.1 = p.1 ∧ p.1.data p.2 = .ok m.2) kept (items.filterMap item?) := by
  induction items with
  | nil => exact ⟨[], .nil, .nil⟩
  | cons item items ih =>
    obtain ⟨kept, hkept, hmade⟩ := ih
    rw [List.filterMap_cons]
    cases hitem : item? item with
    | none =>
      refine ⟨kept, .drop (fun k spec ha hs => ?_) hkept, hmade⟩
      obtain ⟨data, hdata⟩ := scaffolds_iff.1 hs
      rw [item?_eq_some_iff.2 ⟨spec, ha, hdata⟩] at hitem
      cases hitem
    | some m =>
      obtain ⟨k, data⟩ := m
      obtain ⟨spec, ha, hdata⟩ := item?_eq_some_iff.1 hitem
      exact ⟨(k, spec) :: kept, .keep ha (scaffolds_iff.2 ⟨data, hdata⟩) hkept, .cons ⟨rfl, hdata⟩ hmade⟩

end Items

/-! ### Nodes and messages of specifications alone -/

/-- The node is that of the scaffold of the specification alone, but for its id. -/
def IsNode (k : SingleKind) (spec : Json) (n : Node) : Prop :=
  ∀ ids, ∃ f rest own trigger m, ofSpec (.single k) spec ids = .ok (f, rest) ∧ f.steps = [own] ∧
    f.nodes = [trigger, m] ∧ m.id = own.id ∧ n = { m with id := n.id }

/-- The message is that of the scaffold of the specification alone, compiled, but for its id. -/
def IsMessage (k : SingleKind) (spec : Json) (m : Message) : Prop :=
  ∀ ids, ids.head ≠ (ids.skip 1).head → ∃ f rest compiled trigger own, ofSpec (.single k) spec ids = .ok (f, rest) ∧
    f.canvas.compile {} = .ok compiled ∧ compiled.steps = [trigger, .message own] ∧ m = { own with id := m.id }

section Alone
variable {k : SingleKind} {spec data : Json} {n n' : Node} {m : Message}

theorem isNode_node (h : k.data spec = .ok data) (id : String) : IsNode k spec (k.node data id) :=
  fun ids => ⟨_, _, _, _, _, ofSpec_of_data h ids, rfl, rfl, rfl, rfl⟩

theorem SentAlone.id_eq (h : SentAlone n m) : m.id = n.id := by
  obtain ⟨k, -, hm⟩ := h
  exact hm.id_eq.trans sort_node_id

theorem SentAlone.transfer (h : SentAlone n m) (htype : n'.type = n.type) (hdata : n'.data = n.data) :
    SentAlone n' { m with id := n'.id } := by
  obtain ⟨k, hk, hm⟩ := h
  have hsorted : (sort {} n').node.data = (sort {} n).node.data := by
    simp only [sort, htype]
    split
    · rw [Node.strip, Node.strip, hdata]
    · exact hdata
  have hx : SameExits .nowhere (sort {} n).node.id .nowhere (sort {} n').node.id :=
    .of_nil (Index.successors_nowhere _) (Index.successors_nowhere _)
  have hsame := hm.transfer hsorted hx
  rw [sort_node_id] at hsame
  exact ⟨k, htype ▸ hk, hsame⟩

theorem isMessage_of_sentAlone {id : String} (h : k.data spec = .ok data) (hm : SentAlone (k.node data id) m) :
    IsMessage k spec m := by
  intro ids hids
  obtain ⟨own, hown⟩ : ∃ own, own = { m with id := (ids.skip 1).head } := ⟨_, rfl⟩
  have hsent : SentAlone (k.node data (ids.skip 1).head) own := hown ▸ hm.transfer rfl rfl
  have hid : ∀ n ∈ [k.node data (ids.skip 1).head], n.id ≠ ids.head := fun n hn => by
    rw [List.mem_singleton.1 hn]
    exact hids.symm
  obtain ⟨compiled, hcompiled, hsteps⟩ := compile_behind hid (.cons hsent .nil)
  exact ⟨_, _, compiled, _, own, ofSpec_of_data h ids, hcompiled, hsteps, by rw [hown]⟩

end Alone

/-! ### Groups -/

/-- The flow of a group holds the nodes of the specifications that are kept, with the given ids, behind one
    trigger, and all its items in one step. -/
structure Shared (items : List Json) (trigger : String) (ids : List String) (kept : List (SingleKind × Json))
    (f : Flow) : Prop where
  nodes : ∃ shown, f.nodes = triggerNode trigger :: shown ∧ shown.map (·.id) = ids ∧
    List.Forall₂ (fun p n => IsNode p.1 p.2 n) kept shown
  edges : List.Forall₂ (fun id e => e.source = trigger ∧ e.sourceHandle = some "startNodeOut" ∧ e.target = id) ids
    f.edges
  step : ∃ m fields, f.steps = [.message m] ∧ m.kind = .group ∧ m.content.write = .obj fields ∧
    fields.map (·.1) = (List.range items.length).map Text.decimal ∧
    ∀ i, Json.Object.get? fields (Text.decimal i) = items[i]?
  /-- The canvas compiles to the trigger, which leads to all messages, and the messages. -/
  compiles : ∃ compiled messages, f.canvas.compile {} = .ok compiled ∧
    compiled.steps = .message { id := trigger, kind := .triggers, content := .trigger ids } :: messages.map .message ∧
    messages.map (·.id) = ids ∧ List.Forall₂ (fun p m => IsMessage p.1 p.2 m) kept messages

section Groups
variable {kept messages : List (SingleKind × Json)} {drawn : List String} {shown : List Node} {sent : List Message}

def nodesOf (messages : List (SingleKind × Json)) (drawn : List String) : List Node :=
  List.zipWith (fun m id => m.1.node m.2 id) messages drawn

theorem ids_nodesOf (h : messages.length = drawn.length) : (nodesOf messages drawn).map (·.id) = drawn := by
  induction messages generalizing drawn with
  | nil => exact (List.eq_nil_of_length_eq_zero h.symm).symm
  | cons m messages ih =>
    cases drawn with
    | nil => cases h
    | cons id drawn =>
      rw [nodesOf, List.zipWith_cons_cons, List.map_cons]
      exact congrArg (id :: ·) (ih (Nat.succ.inj h))

theorem edges_nodesOf (h : messages.length = drawn.length) (trigger : String) :
    (nodesOf messages drawn).map (fun n => triggerEdge trigger n.id) = drawn.map (triggerEdge trigger) := by
  have hmap : (nodesOf messages drawn).map (fun n => triggerEdge trigger n.id) =
      ((nodesOf messages drawn).map (·.id)).map (triggerEdge trigger) := by
    rw [List.map_map]
    rfl
  rw [hmap, ids_nodesOf h]

/-- The node is made for what an item asks for. -/
def NodeFor (p : SingleKind × Json) (n : Node) : Prop := ∃ data id, p.1.data p.2 = .ok data ∧ n = p.1.node data id

theorem nodesFor_nodesOf (hmade : List.Forall₂ (fun p m => m.1 = p.1 ∧ p.1.data p.2 = .ok m.2) kept messages)
    (h : messages.length = drawn.length) : List.Forall₂ NodeFor kept (nodesOf messages drawn) := by
  induction hmade generalizing drawn with
  | nil => exact .nil
  | @cons p m _ _ hm _ ih =>
    cases drawn with
    | nil => cases h
    | cons id drawn =>
      obtain ⟨hk, hdata⟩ := hm
      exact .cons ⟨m.2, id, hdata, congrArg (·.node m.2 id) hk⟩ (ih (Nat.succ.inj h))

theorem exists_sent (h : List.Forall₂ NodeFor kept shown) : ∃ sent, List.Forall₂ SentAlone shown sent ∧
    List.Forall₂ (fun p m => IsMessage p.1 p.2 m) kept sent := by
  induction h with
  | nil => exact ⟨[], .nil, .nil⟩
  | cons hn _ ih =>
    obtain ⟨data, id, hdata, rfl⟩ := hn
    obtain ⟨sent, hsent, hmessages⟩ := ih
    obtain ⟨_, hm, -⟩ := sentAlone_node (filled_of_data hdata) id
    exact ⟨_, .cons hm hsent, .cons (isMessage_of_sentAlone hdata hm) hmessages⟩

theorem ids_of_sentAlone (h : List.Forall₂ SentAlone shown sent) : sent.map (·.id) = shown.map (·.id) := by
  induction h with
  | nil => rfl
  | cons hm _ ih => rw [List.map_cons, List.map_cons, hm.id_eq, ih]

/-- Behind a trigger, the nodes made for specifications send what these send alone. -/
theorem compile_nodesFor {trigger : String} (hne : ∀ n ∈ shown, n.id ≠ trigger) (h : List.Forall₂ NodeFor kept shown) :
    ∃ compiled messages, (behind trigger shown).compile {} = .ok compiled ∧
      compiled.steps = .message { id := trigger, kind := .triggers, content := .trigger (shown.map (·.id)) } ::
        messages.map .message ∧
      messages.map (·.id) = shown.map (·.id) ∧ List.Forall₂ (fun p m => IsMessage p.1 p.2 m) kept messages := by
  obtain ⟨sent, hsent, hmessages⟩ := exists_sent h
  obtain ⟨compiled, hcompiled, hsteps⟩ := compile_behind hne hsent
  exact ⟨compiled, sent, hcompiled, hsteps, ids_of_sentAlone hsent, hmessages⟩

/-- Under its position stands each value, as it was given. -/
theorem get?_positions (values : List Json) (start i : Nat) :
    Json.Object.get? ((values.zipIdx start).map fun (v, i) => (Text.decimal i, v)) (Text.decimal (start + i)) =
      values[i]? := by
  induction values generalizing start i with
  | nil => rfl
  | cons v values ih =>
    rw [List.zipIdx_cons, List.map_cons, Json.Object.get?_cons]
    cases i with
    | zero => rw [if_pos (by rw [Nat.add_zero]), List.getElem?_cons_zero]
    | succ i =>
      have hne : Text.decimal (start + (i + 1)) ≠ Text.decimal start := fun h => by
        have := Text.decimal_inj.1 h
        omega
      have hstart : start + (i + 1) = start + 1 + i := by omega
      rw [if_neg hne, List.getElem?_cons_succ, hstart, ih]

theorem keys_positions (values : List Json) :
    (values.zipIdx.map fun (v, i) => (Text.decimal i, v)).map (·.1) = (List.range values.length).map Text.decimal := by
  rw [List.map_map, List.range_eq_range', ← List.zipIdx_map_snd 0 values, List.map_map]
  rfl

theorem group_eq (items : List Json) (ids : IdSource) {messages : List (SingleKind × Json)} {drawn : List String}
    (hmessages : items.filterMap item? = messages) (hdrawn : (ids.skip 1).peek messages.length = drawn) :
    ∃ id, (group items ids).1 =
      { stepEdges := [], steps := [.message { id := id, kind := .group, content := .specs items }],
        nodes := triggerNode ids.head :: nodesOf messages drawn, edges := drawn.map (triggerEdge ids.head) } := by
  subst hmessages hdrawn
  exact ⟨_, rfl⟩

/-- The items of a group share a trigger, and each that is kept has the node and the message that it has alone. -/
theorem shared_of_group (items : List Json) (ids : IdSource) : ∃ kept, (∀ others, Kept items others ↔ others = kept) ∧
    ((ids.peek (kept.length + 1)).Nodup →
      Shared items ids.head ((ids.skip 1).peek kept.length) kept (group items ids).1) := by
  obtain ⟨kept, hkept, hmade⟩ := exists_kept items
  refine ⟨kept, fun others => ⟨fun hothers => hothers.unique hkept, fun heq => heq ▸ hkept⟩, fun hids => ?_⟩
  rw [IdSource.peek_succ] at hids
  obtain ⟨drawn, hdrawn⟩ : ∃ drawn, (ids.skip 1).peek kept.length = drawn := ⟨_, rfl⟩
  obtain ⟨messages, hmessages⟩ : ∃ messages, items.filterMap item? = messages := ⟨_, rfl⟩
  rw [hmessages] at hmade
  have hlen : messages.length = drawn.length := by rw [← hdrawn, IdSource.length_peek, hmade.length_eq]
  obtain ⟨id, hflow⟩ := group_eq items ids hmessages (hmade.length_eq ▸ hdrawn)
  obtain ⟨shown, hshown⟩ : ∃ shown, nodesOf messages drawn = shown := ⟨_, rfl⟩
  have hshownIds : shown.map (·.id) = drawn := hshown ▸ ids_nodesOf hlen
  have hnodes : List.Forall₂ NodeFor kept shown := hshown ▸ nodesFor_nodesOf hmade hlen
  have hcanvas : (group items ids).1.canvas = behind ids.head shown := by
    rw [hflow, Flow.canvas, behind, ← hshown, edges_nodesOf hlen]
  have hne : ∀ n ∈ shown, n.id ≠ ids.head := by
    intro n hn heq
    refine (List.nodup_cons.1 hids).1 ?_
    rw [hdrawn, ← heq, ← hshownIds]
    exact List.mem_map.2 ⟨n, hn, rfl⟩
  have hcompiles := compile_nodesFor hne hnodes
  rw [hshownIds, ← hcanvas] at hcompiles
  rw [hdrawn]
  refine ⟨⟨shown, ?_, hshownIds, hnodes.imp ?_⟩, ?_,
    ⟨{ id := id, kind := .group, content := .specs items }, _, ?_, rfl, rfl, keys_positions items, ?_⟩, hcompiles⟩
  · rw [hflow, hshown]
  · rintro p _ ⟨data, id, hdata, rfl⟩
    exact isNode_node hdata id
  · rw [hflow, List.forall₂_map_right_iff]
    exact List.forall₂_same.2 fun _ _ => ⟨rfl, rfl, rfl⟩
  · rw [hflow]
  · intro i
    have hget := get?_positions items 0 i
    rwa [Nat.zero_add] at hget

end Groups

/-- A text and buttons between an item that is no request, one of no known kind and a list without sections. -/
def mixed : List Json :=
  [.obj [("data", .obj [("body", .obj [("text", .str "Hi")])]), ("type", .str "text")],
   .null,
   .obj [("sub_type", .str "voice"), ("type", .str "audio")],
   .obj [("data", replies), ("sub_type", .str "button"), ("type", .str "interactive")],
   .obj [("data", .obj [("action", .obj [])]), ("sub_type", .str "list"), ("type", .str "interactive")]]

theorem kept_mixed : Kept mixed [(.text, .obj [("body", .obj [("text", .str "Hi")])]), (.button, replies)] := by
  refine .keep ⟨_, rfl, rfl, rfl⟩ (scaffolds_iff.2 ⟨_, rfl⟩) (.drop ?_ (.drop ?_ (.keep ⟨_, rfl, rfl, rfl⟩
    (scaffolds_iff.2 ⟨_, rfl⟩) (.drop ?_ .nil))))
  · rintro k spec ⟨r, hr, -⟩
    cases hr
  · rintro k spec ⟨r, ⟨⟩, hk, -⟩
    cases hk
  · rintro k spec ⟨r, ⟨⟩, ⟨⟩, rfl⟩ hs
    obtain ⟨data, hdata⟩ := scaffolds_iff.1 hs
    cases hdata

theorem shared_mixed : (numbers.peek 3).Nodup ∧ Shared mixed "0" ["1", "2"]
    [(.text, .obj [("body", .obj [("text", .str "Hi")])]), (.button, replies)] (group mixed numbers).1 := by
  have hids : (numbers.peek 3).Nodup := by decide
  obtain ⟨kept, hkept, hshared⟩ := shared_of_group mixed numbers
  obtain rfl := (hkept _).1 kept_mixed
  exact ⟨hids, hshared hids⟩

end Scaffold
end MessageFlow
