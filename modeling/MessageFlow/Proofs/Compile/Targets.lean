import MessageFlow.Proofs.Canvas.Routing
import MessageFlow.Proofs.Compile.Run
import MessageFlow.Proofs.Schema.Reading

/-! Where the steps of a compiled canvas lead, read off the canvas alone: its edges by their strings, the
    ids of options by what the data of the nodes holds for them. -/

namespace MessageFlow

/-! ### Options as they stand in the data -/

namespace Json

/-- The elements of the list that a value holds for a field; none if it holds no list. -/
def listAt (v : Json) (key : String) (place : Nat) : List Json := ((v.at? key place).bind items?).getD []

/-- The id that an option holds; the empty string if it holds none. -/
def optionId (v : Json) : String := ((v.at? "id" 0).bind str?).getD ""

end Json

namespace Form

theorem Choice.id_of_read {v : Json} {o : Choice} (h : Choice.record.codec.read v = .ok o) :
    o.id = v.optionId := by
  obtain ⟨_, title, ⟨_, id, rfl, hid, rfl⟩, -, rfl⟩ :=
    Record.reads_of_read (r := record) rfl h
  change Field.Reads _ (v.at? "id" 0) _ at hid
  unfold Json.optionId
  cases hv : v.at? "id" 0 with
  | none =>
    rw [hv] at hid
    exact (Option.some.inj hid).symm
  | some w =>
    rw [hv] at hid
    obtain ⟨rfl, rfl⟩ | ⟨-, hw⟩ := Codec.read_nullAs_eq_ok_iff.1 hid
    · rfl
    · rw [Codec.read_text_eq_ok_iff.1 hw]
      rfl

/-- Options have the ids that they hold, in their order. -/
theorem ids_of_reads {v : Json} {key : String} {place : Nat} {choices : List Choice}
    (h : (Field.nullable key (.list Choice.record.codec) []).Reads (v.at? key place) choices) :
    choices.map (·.id) = (v.listAt key place).map Json.optionId := by
  unfold Json.listAt
  cases hv : v.at? key place with
  | none =>
    rw [hv] at h
    rw [← Option.some.inj h]
    rfl
  | some w =>
    rw [hv] at h
    obtain ⟨rfl, rfl⟩ | ⟨-, hw⟩ := Codec.read_nullAs_eq_ok_iff.1 h
    · rfl
    · obtain ⟨items, rfl, hitems⟩ := Codec.read_list_eq_ok_iff.1 hw
      simp only [Option.bind_some, Json.items?, Option.getD_some]
      clear h hv hw
      induction hitems with
      | nil => rfl
      | cons ho _ ih => rw [List.map_cons, List.map_cons, Choice.id_of_read ho, ih]

theorem Menu.ids_eq {data : Json} {f : Menu} (h : ofData Menu.record data = .ok f) :
    f.choices.map (·.id) = (data.listAt "listOptions" 0).map Json.optionId := by
  obtain ⟨_, _, ⟨_, _, ⟨_, _, ⟨_, choices, rfl, hchoices, rfl⟩, -, rfl⟩, -, rfl⟩, -, rfl⟩ :=
    reads_of_ofData (r := record) rfl h
  exact ids_of_reads hchoices

theorem Buttons.ids_eq {data : Json} {f : Buttons} (h : ofData Buttons.record data = .ok f) :
    f.choices.map (·.id) = (data.listAt "btnOptions" 1).map Json.optionId := by
  obtain ⟨_, _, ⟨_, _, ⟨_, _, ⟨_, choices, ⟨_, _, rfl, -, rfl⟩, hchoices, rfl⟩, -, rfl⟩, -, rfl⟩,
      -, rfl⟩ := reads_of_ofData (r := record) rfl h
  exact ids_of_reads hchoices

end Form

namespace Compile

/-! ### Where a node leads -/

/-- What the content that a node of a kind sends names as targets. -/
inductive Leads (c : Canvas) (n : Node) : MessageKind → Content → Prop
  | trigger : Leads c n .trigger (.trigger (c.targetsAt n.id "startNodeOut"))
  | text {body : String} : Leads c n .text (.text body)
  | attachment {k : MessageKind} {media : Json} {caption : Option String}
      (hk : k = .image ∨ k = .video ∨ k = .audio ∨ k = .document) : Leads c n k (.attachment media caption)
  | list {header : Option String} {body button : String} {rows : List OptionRow}
      (h : rows.map (·.target) = (n.data.listAt "listOptions" 0).map fun o =>
        c.targetsAt n.id (n.id ++ "@@" ++ o.optionId)) :
    Leads c n .list (.list header body button rows)
  | buttons {header : Header} {body : String} {rows : List OptionRow}
      (h : rows.map (·.target) = (n.data.listAt "btnOptions" 1).map fun o =>
        c.targetsAt n.id (n.id ++ "@@" ++ o.optionId)) :
    Leads c n .button (.buttons header body rows)
  | launch {header : Header} {body : String} {flow : Option Json} {button : Option String} :
    Leads c n .flow (.launch header body flow button (c.targetsFrom n.id))
  | catalogMessage {body : String} : Leads c n .catalog (.catalogMessage body)
  | product {body : String} {catalog item : Option Json} : Leads c n .catalog (.product body catalog item)
  | productList {body : String} {header button : Option String} {catalog productSets : Option Json} :
    Leads c n .catalog (.productList body header button catalog productSets)
  | template {id : Option Json} {media : Option MediaObject} {options : List TemplateOption}
      (h : ∀ (i : Nat) (o : TemplateOption), options[i]? = some o →
        o.target = c.targetsAt n.id (n.id ++ "@@text" ++ Text.decimal i)) :
    Leads c n .template (.template id media options)

/-- The targets of a step are those of a node with its id. -/
inductive Routed (c : Canvas) (s : Settings) : Step → Prop
  | message {n : Node} {k : MessageKind} {m : Message} (hn : n ∈ c.nodes) (hk : s.kindOf n.type = some k)
      (hid : m.id = n.id) (h : Leads c n k m.content) : Routed c s (.message m)
  | group {id : String} {members : List Step} {target : List String} {delay : Option Json}
      (h : target = c.targetsFrom id) : Routed c s (.group id members target delay)

section Leading
variable {c : Canvas} {s : Settings} {n : Node} {k : MessageKind} {m : Message}

theorem targets_rows (nodes : List Node) (c : Canvas) (id : String) (choices : List Form.Choice) :
    (choices.map (·.row id (.ofLists nodes c.edges))).map (·.target) =
      (choices.map (·.id)).map fun option => c.targetsAt id (id ++ "@@" ++ option) := by
  rw [List.map_map, List.map_map]
  exact List.map_congr_left fun o _ => Index.successors_choice nodes c id o.id

theorem handle_choiceId (id : String) (i : Nat) :
    id ++ Handle.separator ++ Handle.choiceId i = id ++ "@@text" ++ Text.decimal i := by
  have h : "@@text" = Handle.separator ++ "text" := rfl
  rw [h, Handle.choiceId, String.append_assoc, String.append_assoc, String.append_assoc]

theorem target_template (nodes : List Node) (c : Canvas) (id : String) (entries : List OptionEntry) {i : Nat}
    {o : TemplateOption}
    (h : (entries.zipIdx.map fun (o, i) =>
      o.resolve (Index.successors (.ofLists nodes c.edges) id (some (.choiceAt id i))))[i]? = some o) :
    o.target = c.targetsAt id (id ++ "@@text" ++ Text.decimal i) := by
  rw [List.getElem?_map, List.getElem?_zipIdx, Option.map_map, Option.map_eq_some_iff] at h
  obtain ⟨entry, -, rfl⟩ := h
  simp only [Function.comp, OptionEntry.resolve, Handle.choiceAt, Nat.zero_add, Index.successors_choice,
    handle_choiceId]

/-- A node's message leads where the edges of the node lead. -/
theorem leads_of_sent (hk : s.kindOf n.type = some k)
    (h : Message.Sent (sort s n).node (plan c s).index k m) : Leads c n k m.content := by
  have hnode : k ≠ .template → (sort s n).node = n := fun hne => sort_node_of_ne (by rw [hk]; simpa using hne)
  cases h with
  | trigger =>
    rw [hnode (by decide), Message.ofTrigger, plan, Plan.ofNodes, Index.successors_trigger]
    exact .trigger
  | text => exact .text
  | media hm => exact .attachment hm
  | @list f hf =>
    rw [hnode (by decide)] at hf ⊢
    refine .list ?_
    rw [plan, Plan.ofNodes, targets_rows, Form.Menu.ids_eq (Message.form_eq_ok_iff.1 hf), List.map_map]
    rfl
  | @button f hf =>
    rw [hnode (by decide)] at hf ⊢
    refine .buttons ?_
    rw [plan, Plan.ofNodes, targets_rows, Form.Buttons.ids_eq (Message.form_eq_ok_iff.1 hf), List.map_map]
    rfl
  | flow =>
    rw [hnode (by decide), Form.Launch.content, plan, Plan.ofNodes, Index.successors_none]
    exact .launch
  | @catalog f kind =>
    cases kind with
    | catalogMessage => exact .catalogMessage
    | product => exact .product
    | productList => exact .productList
  | template =>
    rw [sort_node_id]
    exact .template fun i o h => target_template _ c n.id _ h

end Leading

/-- Every step at any depth leads where the strings of the edges say. -/
theorem routed_of_compile {c : Canvas} {s : Settings} {f : Flow} (h : c.compile s = .ok f) :
    ∀ t ∈ Step.allOf f.steps, Routed c s t := by
  intro t ht
  cases made_of_compile h ht with
  | message hn hk hm => exact .message hn hk (hm.id_eq.trans sort_node_id) (leads_of_sent hk hm)
  | group => exact .group rfl

theorem routed_nested : ∃ f, nested.compile folders = .ok f ∧
    ∀ t ∈ Step.allOf f.steps, Routed nested folders t := by
  obtain ⟨f, h⟩ := compile_nested
  exact ⟨f, h, routed_of_compile h⟩

end Compile
end MessageFlow
