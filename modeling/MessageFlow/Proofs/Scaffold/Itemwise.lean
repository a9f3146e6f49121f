import MessageFlow.Proofs.Scaffold.Group

/-! # Groups made item by item

A group may be made from its items one at a time. Each is scaffolded alone, with a trigger of its own, and of the flow
that comes of it only the node of the message is kept, the one that is found under the id of the step. The ids of the
message and of its trigger are drawn in this order and before the specification is read, so an item that fails has
drawn them too, and since no item waits for another they may draw in any order. None of this shows in the group: it is
the one that is made at once from the ids that are kept. -/

namespace MessageFlow

/-! ### Ids in a list -/

namespace IdSource

/-- The source that gives the ids of a list in turn. -/
def ofList (ids : List String) : IdSource := ⟨fun i => ids.getD i "", 0⟩

theorem peek_skip_ofList {ids : List String} {start count : Nat} (h : start + count ≤ ids.length) :
    ((ofList ids).skip start).peek count = (ids.drop start).take count := by
  refine List.ext_getElem ?_ fun i hi _ => ?_
  · rw [length_peek, List.length_take, List.length_drop]
    omega
  · rw [length_peek] at hi
    simp only [peek, ofList, skip, List.getElem_map, List.getElem_range, List.getElem_take, List.getElem_drop,
      Nat.zero_add]
    exact (List.getElem_eq_getD "").symm

end IdSource

namespace Scaffold

/-! ### One item -/

/-- The ids drawn for a message that is scaffolded alone, in their order. -/
structure Draw where
  message : String
  trigger : String

/-- A message behind a trigger of its own. -/
def alone (k : SingleKind) (spec : Json) (d : Draw) : Except SpecFault Flow :=
  match k.data spec with
  | .error e => .error e
  | .ok data =>
    .ok { stepEdges := [], steps := [k.step spec d.message],
          nodes := [triggerNode d.trigger, k.node data d.message], edges := [triggerEdge d.trigger d.message] }

/-- The node that is found under the id of the first step. -/
def firstNode? (f : Flow) : Option Node := f.steps.head?.bind fun s => f.node? s.id

/-- The node of an item that is scaffolded alone. -/
def itemNode? (item : Json) (d : Draw) : Option Node :=
  match Request.record.read item with
  | .error _ => none
  | .ok r =>
    match SingleKind.ofItem? r.type r.subType with
    | none => none
    | some k =>
      match alone k r.data d with
      | .error _ => none
      | .ok f => firstNode? f

section Items
variable {k : SingleKind} {spec data : Json} {d : Draw} {f : Flow}

/-- In which order the two ids are drawn makes no difference. -/
theorem single_ofList (k : SingleKind) (spec : Json) (d : Draw) :
    single k spec (.ofList [d.trigger, d.message]) =
      (alone k spec d).map fun f => (f, (IdSource.ofList [d.trigger, d.message]).skip 2) := by
  unfold single alone
  cases k.data spec <;> rfl

theorem firstNode?_of_alone (hd : d.message ≠ d.trigger) (hdata : k.data spec = .ok data)
    (h : alone k spec d = .ok f) : firstNode? f = some (k.node data d.message) := by
  simp only [alone, hdata, Except.ok.injEq] at h
  subst h
  rw [firstNode?, List.head?_cons, Option.bind_some, Flow.node?, List.find?_cons_of_neg, List.find?_cons_of_pos]
  · exact beq_iff_eq.2 rfl
  -- The trigger stands first, and is passed over for its id.
  · exact fun heq => hd (beq_iff_eq.1 heq).symm

theorem itemNode?_eq (item : Json) (hd : d.message ≠ d.trigger) :
    itemNode? item d = (item? item).map fun m => m.1.node m.2 d.message := by
  unfold itemNode? item?
  cases Request.record.read item with
  | error e => rfl
  | ok r =>
    dsimp only
    cases SingleKind.ofItem? r.type r.subType with
    | none => rfl
    | some k =>
      dsimp only
      cases hdata : k.data r.data with
      | error e => simp only [alone, hdata, Option.map_none]
      | ok data =>
        obtain ⟨f, hf⟩ : ∃ f, alone k r.data d = .ok f := by
          simp only [alone, hdata, Except.ok.injEq, exists_eq']
        simp only [hf, firstNode?_of_alone hd hdata hf, Option.map_some]

end Items

/-! ### The group -/

/-- The nodes of items, each from the ids that it draws. -/
def itemNodes (items : List (Json × Draw)) : List Node := items.filterMap fun p => itemNode? p.1 p.2

/-- The ids of the messages of the items that are kept. -/
def keptIds (items : List (Json × Draw)) : List String :=
  items.filterMap fun p => (item? p.1).map fun _ => p.2.message

/-- The messages of a group behind one trigger, made item by item. -/
def itemwise (items : List (Json × Draw)) (trigger last : String) : Flow where
  stepEdges := []
  steps := [.message { id := last, kind := .group, content := .specs (items.map (·.1)) }]
  nodes := triggerNode trigger :: itemNodes items
  edges := (itemNodes items).map fun n => triggerEdge trigger n.id

section Groups
variable {items : List (Json × Draw)}

theorem length_keptIds (items : List (Json × Draw)) :
    (keptIds items).length = ((items.map (·.1)).filterMap item?).length := by
  induction items with
  | nil => rfl
  | cons p items ih =>
    unfold keptIds at ih ⊢
    rw [List.map_cons, List.filterMap_cons, List.filterMap_cons]
    cases item? p.1 with
    | none => exact ih
    | some m => exact congrArg Nat.succ ih

theorem itemNodes_eq (h : ∀ p ∈ items, p.2.message ≠ p.2.trigger) :
    itemNodes items = nodesOf ((items.map (·.1)).filterMap item?) (keptIds items) := by
  induction items with
  | nil => rfl
  | cons p items ih =>
    obtain ⟨hp, hrest⟩ := List.forall_mem_cons.1 h
    have hitems := ih hrest
    unfold itemNodes keptIds at hitems ⊢
    rw [List.map_cons, List.filterMap_cons, List.filterMap_cons, List.filterMap_cons, itemNode?_eq p.1 hp, hitems]
    cases item? p.1 <;> rfl

/-- A group made item by item is the group made at once from the ids that are kept: those of its trigger, of the
    messages and of its step. -/
theorem itemwise_eq_group (h : ∀ p ∈ items, p.2.message ≠ p.2.trigger) (trigger last : String) :
    itemwise items trigger last =
      (group (items.map (·.1)) (.ofList (trigger :: (keptIds items ++ [last])))).1 := by
  obtain ⟨drawn, hdrawn⟩ : ∃ drawn, keptIds items = drawn := ⟨_, rfl⟩
  obtain ⟨messages, hmessages⟩ : ∃ messages, (items.map (·.1)).filterMap item? = messages := ⟨_, rfl⟩
  have hlength : messages.length = drawn.length := hmessages ▸ hdrawn ▸ (length_keptIds items).symm
  have hnodes : itemNodes items = nodesOf messages drawn := hmessages ▸ hdrawn ▸ itemNodes_eq h
  have hpeek : ((IdSource.ofList (trigger :: (drawn ++ [last]))).skip 1).peek messages.length = drawn := by
    rw [IdSource.peek_skip_ofList (by simp [hlength, Nat.add_comm]), hlength, List.drop_succ_cons, List.drop_zero,
      List.take_left]
  have hlast : ((IdSource.ofList (trigger :: (drawn ++ [last]))).skip (1 + messages.length)).head = last := by
    simp [IdSource.ofList, IdSource.skip, IdSource.head, hlength, Nat.add_comm]
  rw [itemwise, hnodes, edges_nodesOf hlength]
  simp only [group, hmessages, hdrawn, hpeek, hlast]
  rfl

end Groups

end Scaffold
end MessageFlow
