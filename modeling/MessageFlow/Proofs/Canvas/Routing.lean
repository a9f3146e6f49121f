import MessageFlow.Canvas.Index

/-! Edges found by the strings of their handles. An index reads each handle relative to the node that its
    edge leaves and looks it up as a structured key; a scan compares strings and knows nothing of owners
    and separators. Both find the same edges: under its owner a choice is named by one string only, and
    no string that reads as a choice names the output of a trigger. -/

namespace MessageFlow

/-! ### Handles and their strings -/

namespace Handle

theorem parse_eq_choice_iff {owner raw option : String} :
    parse owner raw = .choice owner option ↔ raw = owner ++ separator ++ option := by
  constructor
  · intro h
    rw [← text_parse owner raw, h, text]
  · rintro rfl
    exact parse_text_choice owner option

/-- A string is a fixed output unless it begins with the owner and the separator. -/
theorem parse_eq_output_iff {owner raw name : String} :
    parse owner raw = .output name ↔ raw = name ∧ ¬ (owner ++ separator).toList <+: raw.toList := by
  cases h : (owner ++ separator).toList.isPrefixOf? raw.toList with
  | none =>
    have hp : ¬ (owner ++ separator).toList <+: raw.toList := by
      rintro ⟨rest, hrest⟩
      rw [isPrefixOf?_eq_some_iff.2 hrest.symm] at h
      cases h
    simp only [parse, h, Handle.output.injEq, hp, not_false_eq_true, and_true]
  | some rest =>
    have hp : (owner ++ separator).toList <+: raw.toList := ⟨rest, (isPrefixOf?_eq_some_iff.1 h).symm⟩
    simp only [parse, h, reduceCtorEq, hp, not_true_eq_false, and_false]

/-- The output of a trigger has no `@`, so no owner makes a choice of it. -/
theorem parse_eq_trigger_iff {owner raw : String} : parse owner raw = .trigger ↔ raw = triggerOutput := by
  rw [trigger, parse_eq_output_iff]
  refine ⟨And.left, fun h => ⟨h, ?_⟩⟩
  rintro ⟨rest, hrest⟩
  have hmem : '@' ∈ raw.toList := by
    rw [← hrest, String.toList_append]
    simp [separator]
  rw [h] at hmem
  revert hmem
  decide

end Handle

/-! ### The edges of a canvas by source and string -/

namespace Canvas

/-- Where the edges that leave a node lead, in their order. -/
def targetsFrom (c : Canvas) (source : String) : List String :=
  (c.edges.filter fun e => e.source == source).map (·.target)

/-- Where those of them lead whose handle is the given string. -/
def targetsAt (c : Canvas) (source handle : String) : List String :=
  (c.edges.filter fun e => e.source == source && e.sourceHandle == some handle).map (·.target)

end Canvas

namespace Index

theorem handleKey?_eq_some_iff {e : Edge} {id : String} {h : Handle} :
    handleKey? e = some (id, h) ↔ e.source = id ∧ ∃ raw, e.sourceHandle = some raw ∧ Handle.parse id raw = h := by
  rw [handleKey?, Option.map_eq_some_iff]
  constructor
  · rintro ⟨raw, hraw, hkey⟩
    obtain ⟨rfl, rfl⟩ := Prod.mk.inj hkey
    exact ⟨rfl, raw, hraw, rfl⟩
  · rintro ⟨rfl, raw, hraw, rfl⟩
    exact ⟨raw, hraw, rfl⟩

/-- If one string alone reads as a handle of a node, the index finds there what a scan for the string finds. -/
theorem successors_eq_targetsAt (nodes : List Node) (c : Canvas) {id handle : String} {h : Handle}
    (hh : ∀ raw, Handle.parse id raw = h ↔ raw = handle) :
    (ofLists nodes c.edges).successors id (some h) = c.targetsAt id handle := by
  have hfilter : ∀ e : Edge, (handleKey? e == some (id, h)) =
      (e.source == id && e.sourceHandle == some handle) := by
    intro e
    rw [Bool.eq_iff_iff, beq_iff_eq, Bool.and_eq_true, beq_iff_eq, beq_iff_eq, handleKey?_eq_some_iff]
    simp only [hh, exists_eq_right]
  rw [successors, edgesFrom, Canvas.targetsAt]
  simp only [ofLists, toList_collect, hfilter]

theorem successors_choice (nodes : List Node) (c : Canvas) (id option : String) :
    (ofLists nodes c.edges).successors id (some (.choice id option)) =
      c.targetsAt id (id ++ Handle.separator ++ option) :=
  successors_eq_targetsAt nodes c fun _ => Handle.parse_eq_choice_iff

theorem successors_trigger (nodes : List Node) (c : Canvas) (id : String) :
    (ofLists nodes c.edges).successors id (some .trigger) = c.targetsAt id Handle.triggerOutput :=
  successors_eq_targetsAt nodes c fun _ => Handle.parse_eq_trigger_iff

theorem successors_none (nodes : List Node) (c : Canvas) (id : String) :
    (ofLists nodes c.edges).successors id none = c.targetsFrom id := by
  rw [successors, edgesFrom_none, Canvas.targetsFrom]

theorem edgesFrom_some (nodes : List Node) (edges : List Edge) (id : String) (h : Handle) :
    (ofLists nodes edges).edgesFrom id (some h) =
      (edges.filter fun e => e.source == id).filter fun e => handleKey? e == some (id, h) := by
  simp only [edgesFrom, ofLists, toList_collect, List.filter_filter]
  refine List.filter_congr fun e _ => ?_
  rw [Bool.eq_iff_iff, Bool.and_eq_true, beq_iff_eq, beq_iff_eq, iff_self_and]
  exact fun he => (handleKey?_eq_some_iff.1 he).1

/-- Where a node leads is told by the edges that leave it. -/
theorem successors_congr {nodes nodes' : List Node} {edges edges' : List Edge} {id : String}
    (h : (edges.filter fun e => e.source == id) = edges'.filter fun e => e.source == id) (handle : Option Handle) :
    (ofLists nodes edges).successors id handle = (ofLists nodes' edges').successors id handle := by
  rw [successors, successors]
  cases handle with
  | none => rw [edgesFrom_none, edgesFrom_none, h]
  | some handle => rw [edgesFrom_some, edgesFrom_some, h]

theorem successors_eq_nil (nodes : List Node) {edges : List Edge} {id : String} (h : ∀ e ∈ edges, e.source ≠ id)
    (handle : Option Handle) : (ofLists nodes edges).successors id handle = [] := by
  have hnone : (edges.filter fun e => e.source == id) = [] := by
    rw [List.filter_eq_nil_iff]
    exact fun e he hs => h e he (beq_iff_eq.1 hs)
  rw [successors, List.map_eq_nil_iff]
  cases handle with
  | none => rw [edgesFrom_none, hnone]
  | some handle => rw [edgesFrom_some, hnone, List.filter_nil]

end Index
end MessageFlow
