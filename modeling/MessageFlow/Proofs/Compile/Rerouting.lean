import MessageFlow.Proofs.Compile.Targets

/-! # Nodes that lead elsewhere

What the edges of a canvas decide about its steps are their targets and nothing else. Between two compilations of the
same nodes along different edges every step keeps its id, its kind, its delay and what it says, and each of its lists
of targets stands where the other compilation has one: that of all edges of the node, or that of one of its handles.
What is true of the lists at each handle of a node is then true of all lists in the steps, at any depth. -/

namespace MessageFlow

/-! ### The same but for targets -/

/-- Lists of one length whose elements are related at each position. -/
structure OneByOne {α : Type} (P : Nat → α → α → Prop) (l l' : List α) : Prop where
  length : l'.length = l.length
  each : ∀ (i : Nat) (a a' : α), l[i]? = some a → l'[i]? = some a' → P i a a'

theorem oneByOne_map {α β : Type} {P : Nat → β → β → Prop} {l : List α} {f g : α → β}
    (h : ∀ (i : Nat) (a : α), l[i]? = some a → P i (f a) (g a)) : OneByOne P (l.map f) (l.map g) := by
  refine ⟨by rw [List.length_map, List.length_map], fun i b b' hb hb' => ?_⟩
  rw [List.getElem?_map, Option.map_eq_some_iff] at hb hb'
  obtain ⟨a, ha, rfl⟩ := hb
  obtain ⟨a', ha', rfl⟩ := hb'
  cases ha.symm.trans ha'
  exact h i a ha

section Contents
variable (R : Option String → List String → List String → Prop)

structure OptionRow.Retargeted (handle : String) (r r' : OptionRow) : Prop where
  id : r'.id = r.id
  title : r'.title = r.title
  target : R (some handle) r.target r'.target

structure TemplateOption.Retargeted (handle : String) (o o' : TemplateOption) : Prop where
  type : o'.type = o.type
  id : o'.id = o.id
  title : o'.title = o.title
  target : R (some handle) o.target o'.target

/-- The rows say the same, and each leads from the handle of the option at its place. -/
def Node.RowsRetargeted (n : Node) (options : List Json) : List OptionRow → List OptionRow → Prop :=
  OneByOne fun i r r' => ∃ o, options[i]? = some o ∧ r.Retargeted R (n.id ++ "@@" ++ o.optionId) r'

/-- The contents say the same, and `R` relates their lists of targets one by one, each with the handle of the node
    that it is for, or none where it is for all edges. -/
inductive Content.Retargeted (n : Node) : MessageKind → Content → Content → Prop
  | trigger {target target' : List String} (h : R (some "startNodeOut") target target') :
    Retargeted n .trigger (.trigger target) (.trigger target')
  | text {body : String} : Retargeted n .text (.text body) (.text body)
  | attachment {k : MessageKind} {media : Json} {caption : Option String}
      (hk : k = .image ∨ k = .video ∨ k = .audio ∨ k = .document) :
    Retargeted n k (.attachment media caption) (.attachment media caption)
  | list {header : Option String} {body button : String} {rows rows' : List OptionRow}
      (h : n.RowsRetargeted R (n.data.listAt "listOptions" 0) rows rows') :
    Retargeted n .list (.list header body button rows) (.list header body button rows')
  | buttons {header : Header} {body : String} {rows rows' : List OptionRow}
      (h : n.RowsRetargeted R (n.data.listAt "btnOptions" 1) rows rows') :
    Retargeted n .button (.buttons header body rows) (.buttons header body rows')
  | launch {header : Header} {body : String} {flow : Option Json} {button : Option String}
      {target target' : List String} (h : R none target target') :
    Retargeted n .flow (.launch header body flow button target) (.launch header body flow button target')
  | catalogMessage {body : String} : Retargeted n .catalog (.catalogMessage body) (.catalogMessage body)
  | product {body : String} {catalog item : Option Json} :
    Retargeted n .catalog (.product body catalog item) (.product body catalog item)
  | productList {body : String} {header button : Option String} {catalog productSets : Option Json} :
    Retargeted n .catalog (.productList body header button catalog productSets)
      (.productList body header button catalog productSets)
  | template {id : Option Json} {media : Option MediaObject} {options options' : List TemplateOption}
      (h : OneByOne (fun i o o' => o.Retargeted R (n.id ++ "@@text" ++ Text.decimal i) o') options options') :
    Retargeted n .template (.template id media options) (.template id media options')

end Contents

open Compile

/-- The steps are those of one node, the same but for targets, and `R` relates these, together with the id of the node
    and the handle that they are for. -/
inductive Step.Retargeted (R : String → Option String → List String → List String → Prop) (c : Canvas) (s : Settings) :
    Step → Step → Prop
  | message {n : Node} {k : MessageKind} {m : Message} {x : Content} (hn : n ∈ c.nodes) (hk : s.kindOf n.type = some k)
      (hid : m.id = n.id) (h : m.content.Retargeted (R n.id) n k x) :
    Retargeted R c s (.message m) (.message { m with content := x })
  | group {id : String} {members members' : List Step} {target target' : List String} {delay : Option Json}
      (hmembers : List.Forall₂ (Retargeted R c s) members members') (htarget : R id none target target') :
    Retargeted R c s (.group id members target delay) (.group id members' target' delay)

/-! ### Messages -/

namespace Message

section Sending
variable {c c' : Canvas} {nodes nodes' : List Node} {n : Node} {k : MessageKind} {m : Message}
  {R : Option String → List String → List String → Prop}
  (hat : ∀ handle, R (some handle) (c.targetsAt n.id handle) (c'.targetsAt n.id handle))
include hat

theorem rows_retargeted (nodes nodes' : List Node) {choices : List Form.Choice} {options : List Json}
    (h : choices.map (·.id) = options.map Json.optionId) : n.RowsRetargeted R options
      (choices.map (·.row n.id (.ofLists nodes c.edges))) (choices.map (·.row n.id (.ofLists nodes' c'.edges))) := by
  refine oneByOne_map fun i choice hchoice => ?_
  obtain ⟨o, ho, hid⟩ : ∃ o, options[i]? = some o ∧ o.optionId = choice.id := by
    have hi : (choices.map (·.id))[i]? = some choice.id := by rw [List.getElem?_map, hchoice, Option.map_some]
    rwa [h, List.getElem?_map, Option.map_eq_some_iff] at hi
  refine ⟨o, ho, rfl, rfl, ?_⟩
  rw [Form.Choice.row, Form.Choice.row, Index.successors_choice, Index.successors_choice, hid]
  exact hat _

theorem options_retargeted (nodes nodes' : List Node) (entries : List OptionEntry) :
    OneByOne (fun i o o' => o.Retargeted R (n.id ++ "@@text" ++ Text.decimal i) o')
      (entries.zipIdx.map fun (o, i) =>
        o.resolve (Index.successors (.ofLists nodes c.edges) n.id (some (.choiceAt n.id i))))
      (entries.zipIdx.map fun (o, i) =>
        o.resolve (Index.successors (.ofLists nodes' c'.edges) n.id (some (.choiceAt n.id i)))) := by
  refine oneByOne_map fun i p hp => ?_
  rw [List.getElem?_zipIdx, Option.map_eq_some_iff] at hp
  obtain ⟨entry, -, rfl⟩ := hp
  refine ⟨rfl, rfl, rfl, ?_⟩
  simp only [OptionEntry.resolve, Handle.choiceAt, Index.successors_choice, Nat.zero_add, handle_choiceId]
  exact hat _

/-- Along other edges a node sends the same but for targets. -/
theorem Sent.retarget {s : Settings} (hk : s.kindOf n.type = some k)
    (hfrom : R none (c.targetsFrom n.id) (c'.targetsFrom n.id))
    (h : Sent (sort s n).node (.ofLists nodes c.edges) k m) :
    ∃ x, Sent (sort s n).node (.ofLists nodes' c'.edges) k { m with content := x } ∧ m.content.Retargeted R n k x := by
  have hnode : k ≠ .template → (sort s n).node = n := fun hne => sort_node_of_ne (by rw [hk]; simpa using hne)
  cases h with
  | trigger =>
    rw [hnode (by decide)]
    refine ⟨_, .trigger, .trigger ?_⟩
    rw [Index.successors_trigger, Index.successors_trigger]
    exact hat _
  | text hf => exact ⟨_, .text hf, .text⟩
  | media hm hf => exact ⟨_, .media hm hf, .attachment hm⟩
  | @list f hf =>
    rw [hnode (by decide)] at hf ⊢
    exact ⟨_, .list hf, .list (rows_retargeted hat _ _ (Form.Menu.ids_eq (form_eq_ok_iff.1 hf)))⟩
  | @button f hf =>
    rw [hnode (by decide)] at hf ⊢
    exact ⟨_, .button hf, .buttons (rows_retargeted hat _ _ (Form.Buttons.ids_eq (form_eq_ok_iff.1 hf)))⟩
  | flow hf =>
    rw [hnode (by decide)] at hf ⊢
    refine ⟨_, .flow hf, .launch ?_⟩
    rw [Index.successors_none, Index.successors_none]
    exact hfrom
  | @catalog f kind hf hkind =>
    refine ⟨_, .catalog hf hkind, ?_⟩
    cases kind with
    | catalogMessage => exact .catalogMessage
    | product => exact .product
    | productList => exact .productList
  | @template f options hf ho =>
    refine ⟨_, .template hf ho, .template ?_⟩
    rw [sort_node_id]
    exact options_retargeted hat _ _ options

end Sending

end Message

/-! ### Runs -/

namespace Compile

/-- If nodes that have steps on one canvas have related ones on the other, so have several in turn. -/
theorem exists_inTurn_of_forall {c c' : Canvas} {s : Settings} {d : Nat} {P : Step → Step → Prop} {work : List Node}
    {out : List Step} (hstep : ∀ n ∈ work, ∀ o, stepWithin (plan c s) d (sort s n) = .ok o →
      ∃ o', stepWithin (plan c' s) d (sort s n) = .ok o' ∧ List.Forall₂ P o.toList o'.toList)
    (h : inTurn (stepWithin (plan c s) d) (work.map (sort s)) = .ok out) :
    ∃ out', inTurn (stepWithin (plan c' s) d) (work.map (sort s)) = .ok out' ∧ List.Forall₂ P out out' := by
  induction work generalizing out with
  | nil =>
    cases h
    exact ⟨[], rfl, .nil⟩
  | cons n rest ih =>
    obtain ⟨o, tail, ho, htail, rfl⟩ := inTurn_cons_eq_ok_iff.1 h
    obtain ⟨hn, hrest⟩ := List.forall_mem_cons.1 hstep
    obtain ⟨o', ho', hoo'⟩ := hn o ho
    obtain ⟨tail', htail', htt'⟩ := ih hrest htail
    exact ⟨_, inTurn_cons_eq_ok_iff.2 ⟨o', tail', ho', htail', rfl⟩, List.rel_append hoo' htt'⟩

section Runs
variable {c c' : Canvas} {s : Settings} {R : String → Option String → List String → List String → Prop}
  (hnodes : c'.nodes = c.nodes) (hfrom : ∀ id, R id none (c.targetsFrom id) (c'.targetsFrom id))
  (hat : ∀ id handle, R id (some handle) (c.targetsAt id handle) (c'.targetsAt id handle))
include hnodes hfrom hat

/-- A node that has a step has the same step along other edges, but for targets. -/
theorem exists_stepWithin_of_edges (d : Nat) {n : Node} {o : Option Step} (hn : n ∈ c.nodes)
    (h : stepWithin (plan c s) d (sort s n) = .ok o) : ∃ o', stepWithin (plan c' s) d (sort s n) = .ok o' ∧
      List.Forall₂ (Step.Retargeted R c s) o.toList o'.toList := by
  induction d using Nat.strongRecOn generalizing n o with
  | ind d ih =>
    rcases stepWithin_eq_ok h with ⟨hk, rfl⟩ | ⟨k, om, hk, hg, hom, rfl⟩ | ⟨e, members, rfl, hk, hmembers, rfl⟩
    · exact ⟨none, stepWithin_of_unknown hk, .nil⟩
    · rw [stepWithin_of_kind hk hg]
      cases om with
      | none =>
        rw [Message.ofNode_eq_ok_none_iff.2 (Message.ofNode_eq_ok_none_iff.1 hom)]
        exact ⟨none, rfl, .nil⟩
      | some m =>
        have hm := Message.ofNode_eq_ok_some_iff.1 hom
        obtain ⟨x, hx, hmx⟩ : ∃ x, Message.Sent (sort s n).node (plan c' s).index k { m with content := x } ∧
            m.content.Retargeted (R n.id) n k x := hm.retarget (hat n.id) hk (hfrom n.id)
        rw [Message.ofNode_eq_ok_some_iff.2 hx]
        exact ⟨_, rfl, .cons (.message hn hk (hm.id_eq.trans sort_node_id) hmx) .nil⟩
    -- The members of a group are the same nodes, and each has its step one level below.
    · have hsame : c'.members n.id = c.members n.id := by rw [Canvas.members, hnodes, Canvas.members]
      obtain ⟨members', hmembers', hmm'⟩ :=
        exists_inTurn_of_forall (fun _ hm _ ho => ih e (Nat.lt_succ_self e) (Canvas.mem_members.1 hm).1 ho) hmembers
      rw [stepWithin_of_group hk, members_plan, hsame, hmembers', successors_plan]
      exact ⟨_, rfl, .cons (.group hmm' (hfrom n.id)) .nil⟩

/-- Nodes that compile do so along other edges, to the same steps but for targets. -/
theorem exists_compile_of_edges {f : Flow} (h : c.compile s = .ok f) :
    ∃ g, c'.compile s = .ok g ∧ List.Forall₂ (Step.Retargeted R c s) f.steps g.steps := by
  have hstarts : starts c' s = starts c s := by
    unfold starts plan Plan.ofNodes
    rw [hnodes]
  have hsteps := steps_of_compile h
  rw [steps_plan] at hsteps
  obtain ⟨out', hout', hff'⟩ :=
    exists_inTurn_of_forall (fun _ hn _ ho =>
      exists_stepWithin_of_edges hnodes hfrom hat _ (mem_nodes_of_mem_starts hn) ho) hsteps
  have hsteps' : outcome (plan c' s).steps = .ok out' := by rw [steps_plan, hstarts, hnodes, hout']
  rw [compile_eq, hsteps']
  exact ⟨_, rfl, hff'⟩

end Runs

end Compile
end MessageFlow
