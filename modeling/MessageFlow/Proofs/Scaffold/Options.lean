import MessageFlow.Proofs.Compile.Targets
import MessageFlow.Proofs.Scaffold.Recompile

/-! # Options of a scaffold and the edges drawn at them

A scaffold numbers the options of its message, and an editor draws edges at the handles with these numbers. The
compiler finds the edges of an option again by the id that the option was given: whatever edges are drawn on a
scaffold, each option leads where those at its own handle lead, in their order. Numbers are written in decimal, so
no two options share a handle, however many there are. -/

namespace MessageFlow

/-- The rows that a content lets one choose from. -/
def Content.rows? : Content → Option (List OptionRow)
  | .list _ _ _ rows | .buttons _ _ rows => some rows
  | _ => none

/-- The edge leaves a node at the handle of its option with a number. -/
def Edge.leavesAt (e : Edge) (node : String) (i : Nat) : Bool :=
  e.source == node && e.sourceHandle == some (node ++ "@@text" ++ Text.decimal i)

namespace Scaffold
open Compile

/-- The titles of the options that a specification names: of a list those in its first section. -/
inductive Offers (spec : Json) : SingleKind → List (Option String) → Prop
  | list {s : Spec.Menu} {first : Spec.Section} {rest : List Spec.Section}
      (h : Spec.Menu.record.read spec = .ok s) (hs : s.action.sections = first :: rest) :
    Offers spec .list (first.rows.map (·.title))
  | button {s : Spec.Buttons} (h : Spec.Buttons.record.read spec = .ok s) :
    Offers spec .button (s.action.buttons.map (·.reply.title))

/-- The options that the data of a node holds. -/
def optionsOf : SingleKind → Json → List Json
  | .list, data => data.listAt "listOptions" 0
  | .button, data => data.listAt "btnOptions" 1
  | _, _ => []

/-- The message lets one choose from the options of the node, which are those of the specification; each leads where
    the edges lead that leave the node at its handle. -/
structure Wired (k : SingleKind) (spec : Json) (edges : List Edge) (n : Node) (m : Message) : Prop where
  id : m.id = n.id
  kind : m.kind = .interactive ∧ m.subKind = some k.name
  rows : ∃ titles, Offers spec k titles ∧
    (optionsOf k n.data).map Json.optionId = (List.range titles.length).map Handle.choiceId ∧
    m.content.rows? = some (titles.zipIdx.map fun p =>
      ⟨p.1.map OptionId.ofTitle, p.1, (edges.filter (·.leavesAt n.id p.2)).map (·.target)⟩)
  /-- No edge counts for two options. -/
  once : ∀ e ∈ edges, ∀ i j, e.leavesAt n.id i → e.leavesAt n.id j → i = j

theorem eq_of_leavesAt {e : Edge} {node : String} {i j : Nat} (hi : e.leavesAt node i) (hj : e.leavesAt node j) :
    i = j := by
  simp only [Edge.leavesAt, Bool.and_eq_true, beq_iff_eq] at hi hj
  have hhandle : node ++ "@@text" ++ Text.decimal i = node ++ "@@text" ++ Text.decimal j :=
    Option.some.inj (hi.2.symm.trans hj.2)
  exact Text.decimal_inj.1 (String.append_right_inj _ |>.1 hhandle)

theorem ids_choices (titles : List (Option String)) :
    (Form.choices titles).map (·.id) = (List.range titles.length).map Handle.choiceId := by
  rw [Form.choices, List.map_map, List.range_eq_range', ← List.zipIdx_map_snd 0 titles, List.map_map]
  rfl

section Drawn
variable {k : SingleKind} {spec data : Json} {own : List Edge} {n : Node}

/-- Numbered options lead where the edges at their handles lead. -/
theorem rows_drawn (hown : ∀ e ∈ own, e.source ≠ n.id) (edges : List Edge) (nodes : List Node)
    (titles : List (Option String)) :
    (Form.choices titles).map (·.row n.id (.ofLists nodes (own ++ edges))) =
      titles.zipIdx.map fun p =>
        ⟨p.1.map OptionId.ofTitle, p.1, (edges.filter (·.leavesAt n.id p.2)).map (·.target)⟩ := by
  have htargets : ∀ i, Index.successors (.ofLists nodes (own ++ edges)) n.id (some (.choiceAt n.id i)) =
      (edges.filter (·.leavesAt n.id i)).map (·.target) := by
    intro i
    have hnone : (own.filter (·.leavesAt n.id i)) = [] := by
      refine List.filter_eq_nil_iff.2 fun e he hleaves => ?_
      simp only [Edge.leavesAt, Bool.and_eq_true, beq_iff_eq] at hleaves
      exact hown e he hleaves.1
    rw [Handle.choiceAt, Index.successors_choice nodes ⟨nodes, own ++ edges⟩, handle_choiceId, Canvas.targetsAt]
    change ((own ++ edges).filter (·.leavesAt n.id i)).map (·.target) = _
    rw [List.filter_append, hnone, List.nil_append]
  rw [Form.choices, List.map_map]
  exact List.map_congr_left fun p _ => congrArg (OptionRow.mk (p.1.map OptionId.ofTitle) p.1) (htargets p.2)

/-- The node for a specification sends a message that is wired as edges are drawn. -/
theorem exists_wired (hk : k = .list ∨ k = .button) (h : Filled spec k n.data) (hown : ∀ e ∈ own, e.source ≠ n.id)
    (edges : List Edge) (nodes : List Node) :
    ∃ m, Message.Sent n (.ofLists nodes (own ++ edges)) k.messageKind m ∧ Wired k spec edges n m := by
  generalize hdata : n.data = data at h
  cases h with
  | @list s f h hf =>
    obtain ⟨hform, -⟩ := Form.Menu.named.form_of_encode hdata (Form.Menu.ofData_encode f)
    have hids := Form.Menu.ids_eq (Message.form_eq_ok_iff.1 hform)
    refine ⟨_, .list hform, rfl, ⟨rfl, rfl⟩, ?_, fun e _ i j => eq_of_leavesAt⟩
    unfold Spec.Menu.form at hf
    split at hf
    · cases hf
    · next first rest hs =>
      cases hf
      exact ⟨_, .list h hs, hids.symm.trans (ids_choices _), congrArg some (rows_drawn hown edges nodes _)⟩
  | @button s h =>
    obtain ⟨hform, -⟩ := Form.Buttons.named.form_of_encode hdata (Form.Buttons.ofData_encode s.form)
    have hids := Form.Buttons.ids_eq (Message.form_eq_ok_iff.1 hform)
    exact ⟨_, .button hform, rfl, ⟨rfl, rfl⟩, ⟨_, .button h, hids.symm.trans (ids_choices _),
      congrArg some (rows_drawn hown edges nodes _)⟩, fun e _ i j => eq_of_leavesAt⟩
  | media hm _ => rcases hk with rfl | rfl <;> simp at hm
  | _ => simp at hk

end Drawn

/-- Whatever edges are drawn on the scaffold of a list or of buttons, it compiles, and each option of its message leads
    where the edges at the option's handle lead. -/
theorem wired_of_ofSpec {k : SingleKind} {spec : Json} {ids rest : IdSource} {f : Flow}
    (hk : k = .list ∨ k = .button) (hids : ids.head ≠ (ids.skip 1).head)
    (h : ofSpec (.single k) spec ids = .ok (f, rest)) (edges : List Edge) :
    ∃ trigger n compiled first m, f.nodes = [trigger, n] ∧ n.id = (ids.skip 1).head ∧
      Canvas.compile ⟨f.nodes, f.edges ++ edges⟩ {} = .ok compiled ∧
      compiled.steps = [.message first, .message m] ∧ Wired k spec edges n m := by
  simp only [ofSpec, single] at h
  cases hd : k.data spec with
  | error e => simp [hd] at h
  | ok data =>
    simp only [hd, Except.ok.injEq, Prod.mk.injEq] at h
    obtain ⟨rfl, -⟩ := h
    generalize ids.head = trigger at hids ⊢
    generalize (ids.skip 1).head = id at hids ⊢
    have hfilled : Filled spec k (k.node data id).data := filled_of_data hd
    have hown : ∀ e ∈ [triggerEdge trigger id], e.source ≠ (k.node data id).id := fun e he => by
      rw [List.mem_singleton.1 he]
      exact hids
    obtain ⟨m, hsent, hwired⟩ := exists_wired hk hfilled hown edges _
    rw [← sort_node_of_filled hfilled (kindOf_name k.messageKind)] at hsent
    obtain ⟨compiled, hcompiled, hsteps⟩ := exists_compile_of_messages
      (c := ⟨[triggerNode trigger, k.node data id], [triggerEdge trigger id] ++ edges⟩) rfl
      (.cons ⟨_, kindOf_name .trigger, sent_triggerNode rfl⟩
        (.cons ⟨_, kindOf_name k.messageKind, hsent⟩ .nil))
    exact ⟨_, _, compiled, _, m, rfl, rfl, hcompiled, hsteps, hwired⟩

/-- A list of eleven rows, so that the number of the last begins as that of the second. -/
def soups : Json :=
  .obj [("action", .obj [("sections", .arr [.obj [("rows", .arr (.replicate 11 (.obj [("title", .str "Soup")])))]])]),
    ("body", .obj []), ("header", .obj [])]

/-- An edge at the last of these rows, before one at the second. -/
def drawn : List Edge :=
  [{ id := "", source := "1", target := "1", sourceHandle := some "1@@text10" },
   { id := "", source := "1", target := "0", sourceHandle := some "1@@text1" }]

theorem wired_soups : ∃ f rest, ofSpec (.single .list) soups numbers = .ok (f, rest) ∧
    ∃ trigger n compiled first m, f.nodes = [trigger, n] ∧ n.id = "1" ∧
      Canvas.compile ⟨f.nodes, f.edges ++ drawn⟩ {} = .ok compiled ∧
      compiled.steps = [.message first, .message m] ∧ Wired .list soups drawn n m := by
  have h : ofSpec (.single .list) soups numbers = .ok (_, _) := rfl
  exact ⟨_, _, h, wired_of_ofSpec (.inl rfl) (by decide) h drawn⟩

end Scaffold
end MessageFlow
