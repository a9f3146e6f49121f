import MessageFlow.Proofs.Canvas.Routing

/-! An index answers as a scan of the lists that it is built from. A scan compares the handle of an edge with
    the string of the handle that is asked for; the index reads it relative to the node that the edge leaves.
    The two agree on the handles that some string names on that node. No edge leaves by any other handle,
    whatever its string: a choice of another node, or an output with the name of a choice. -/

namespace MessageFlow

namespace Handle

/-- A string names the handle on edges that leave `owner`: it is a choice of this node, or an output whose
    name is not that of one. -/
def NamedOn (owner : String) : Handle → Prop
  | .output name => ¬(owner ++ separator).toList <+: name.toList
  | .choice other _ => other = owner

instance (owner : String) : ∀ h : Handle, Decidable (h.NamedOn owner)
  | .output name => inferInstanceAs (Decidable ¬(owner ++ separator).toList <+: name.toList)
  | .choice other _ => inferInstanceAs (Decidable (other = owner))

/-- A string reads as the handle that it is the string of, if strings name that handle at all. -/
theorem parse_eq_iff {owner raw : String} {h : Handle} : parse owner raw = h ↔ h.NamedOn owner ∧ raw = h.text := by
  cases h with
  | output name =>
    rw [parse_eq_output_iff, NamedOn, text]
    constructor
    · rintro ⟨rfl, hp⟩
      exact ⟨hp, rfl⟩
    · rintro ⟨hp, rfl⟩
      exact ⟨rfl, hp⟩
  | choice other option =>
    constructor
    · intro h
      have hother : other = owner := by
        unfold parse at h
        split at h <;> cases h
        rfl
      exact ⟨hother, by rw [← text_parse owner raw, h]⟩
    · rintro ⟨rfl, rfl⟩
      exact parse_text_choice other option

-- One string, and of the three handles that it is the string of only the first is named by it.
example : ([.choice "a" "b@@c", .choice "a@@b" "c", .output "a@@b@@c"].map fun h : Handle =>
    (h.text, decide (h.NamedOn "a"))) = [("a@@b@@c", true), ("a@@b@@c", false), ("a@@b@@c", false)] := by decide

end Handle

namespace Index

/-- The index answers every question as the lists of nodes and edges do. -/
structure Agrees (ix : Index) (nodes : List Node) (edges : List Edge) : Prop where
  /-- All edges that leave a node. -/
  leaving : ∀ id, ix.edgesFrom id none = edges.filter fun e => e.source == id
  /-- Those of them whose handle is the string of the one that is asked for. -/
  named : ∀ id h, h.NamedOn id →
    ix.edgesFrom id (some h) = edges.filter fun e => e.source == id && e.sourceHandle == some h.text
  /-- None by a handle that no string names on the node, even if there are edges with its string. -/
  unnamed : ∀ id h, ¬h.NamedOn id → ix.edgesFrom id (some h) = []
  successors : ∀ id handle, ix.successors id handle = (ix.edgesFrom id handle).map (·.target)
  /-- Of several nodes with an id the last. -/
  node : ∀ id, ix.node? id = (nodes.filter fun n => n.id == id).getLast?

section Scans
variable (nodes : List Node) (edges : List Edge) (id : String) {h : Handle}

theorem edgesFrom_of_namedOn (hh : h.NamedOn id) : (ofLists nodes edges).edgesFrom id (some h) =
    edges.filter fun e => e.source == id && e.sourceHandle == some h.text := by
  rw [edgesFrom_some, List.filter_filter]
  refine List.filter_congr fun e _ => ?_
  rw [Bool.eq_iff_iff, Bool.and_eq_true, Bool.and_eq_true, beq_iff_eq, beq_iff_eq, beq_iff_eq,
    handleKey?_eq_some_iff]
  simp only [Handle.parse_eq_iff, hh, true_and, exists_eq_right]
  exact ⟨fun hs => ⟨hs.2, hs.1.2⟩, fun hs => ⟨⟨hs.1, hs.2⟩, hs.1⟩⟩

theorem edgesFrom_of_not_namedOn (hh : ¬h.NamedOn id) : (ofLists nodes edges).edgesFrom id (some h) = [] := by
  rw [edgesFrom_some, List.filter_eq_nil_iff]
  intro e _ hkey
  obtain ⟨-, raw, -, hraw⟩ := handleKey?_eq_some_iff.1 (beq_iff_eq.1 hkey)
  exact hh (Handle.parse_eq_iff.1 hraw).1

/-- Putting nodes into a map by their ids leaves under each id the last one, or what was there before. -/
theorem getElem?_foldl_insert (m : Std.HashMap String Node) :
    (nodes.foldl (fun m n => m.insert n.id n) m)[id]? = (nodes.filter fun n => n.id == id).getLast?.or m[id]? := by
  induction nodes generalizing m with
  | nil => rfl
  | cons n rest ih =>
    rw [List.foldl_cons, ih, Std.HashMap.getElem?_insert]
    by_cases hn : n.id == id
    · rw [List.filter_cons, if_pos hn, if_pos hn, List.getLast?_cons]
      cases (rest.filter fun n => n.id == id).getLast? <;> rfl
    · rw [List.filter_cons, if_neg hn, if_neg hn]

/-- The index of two lists agrees with them. -/
theorem agrees_ofLists : (ofLists nodes edges).Agrees nodes edges where
  leaving := edgesFrom_none nodes edges
  named id _ hh := edgesFrom_of_namedOn nodes edges id hh
  unnamed id _ hh := edgesFrom_of_not_namedOn nodes edges id hh
  successors _ _ := rfl
  node id := by
    rw [node?, ofLists, getElem?_foldl_insert, Std.HashMap.getElem?_empty, Option.or_none]

end Scans

end Index
end MessageFlow
