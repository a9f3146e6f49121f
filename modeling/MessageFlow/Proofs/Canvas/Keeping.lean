import MessageFlow.Proofs.Compile.Stripping
import MessageFlow.Proofs.Schema.Stability

/-! Nodes and edges that were read are written so that they read again. Nothing that a node or an edge can
    be read from makes one that is not kept: coordinates are finite, data and further fields are canonical. -/

namespace MessageFlow
open MessageFlow.Codec MessageFlow.Field

/-! ### Places and sizes -/

theorem Position.stable : record.codec.Stable := by
  intro v p hv h
  obtain ⟨_, y, ⟨_, x, rfl, hx, rfl⟩, hy, rfl⟩ := Record.arises_of_read (r := record) hv h
  exact Record.keeps (by decide) ⟨_, _, ⟨_, _, rfl, reads_required (keeps_of_required stable_double hx), rfl⟩,
    reads_required (keeps_of_required stable_double hy), rfl⟩

theorem Position.keeps_origin : record.codec.Keeps origin :=
  Record.keeps (by decide) ⟨_, _, ⟨_, _, rfl, rfl, rfl⟩, rfl, rfl⟩

theorem Size.stable : record.codec.Stable := by
  intro v s hv h
  obtain ⟨_, height, ⟨_, width, rfl, hwidth, rfl⟩, hheight, rfl⟩ := Record.arises_of_read (r := record) hv h
  exact Record.keeps (by decide) ⟨_, _, ⟨_, _, rfl, reads_required (keeps_of_required stable_double hwidth), rfl⟩,
    reads_required (keeps_of_required stable_double hheight), rfl⟩

/-! ### Nodes -/

namespace Node

/-- The parts of a node that not every value of their type is kept in are of those that are. -/
structure Settled (n : Node) : Prop where
  position : Position.record.codec.Keeps n.position
  data : n.data.IsCanonical
  measured : ∀ size, n.measured = some size → Size.record.codec.Keeps size
  extra : Json.Object.Unnamed record.schema.names n.extra

theorem settled_of_read {v : Json} {n : Node} (hv : v.IsCanonical) (h : codec.read v = .ok n) : n.Settled := by
  obtain ⟨_, extra, ⟨_, parent, ⟨_, dragging, ⟨_, selected, ⟨_, measured, ⟨_, data, ⟨_, dragHandle,
    ⟨_, position, ⟨_, type, ⟨_, id, rfl, -, rfl⟩, -, rfl⟩, hposition, rfl⟩, -, rfl⟩, hdata, rfl⟩, hmeasured, rfl⟩,
    -, rfl⟩, -, rfl⟩, -, rfl⟩, hextra, rfl⟩ := OpenRecord.arises_of_read (r := record) hv h
  refine ⟨keeps_of_withDefault Position.stable Position.keeps_origin hposition, ?_,
    keeps_of_omitted Size.stable hmeasured, hextra⟩
  obtain ⟨⟨⟩⟩ | ⟨w, hw, ⟨⟩⟩ := hdata
  · trivial
  · exact hw

theorem Settled.keeps {n : Node} (h : n.Settled) : codec.Keeps n := by
  have hdata : Codec.json.encode n.data = n.data := Json.canonical_eq_self h.data
  exact OpenRecord.keeps (r := record) (by decide) h.extra
    ⟨_, _, ⟨_, _, ⟨_, _, ⟨_, _, ⟨_, _, ⟨_, _, ⟨_, _, ⟨_, _, ⟨_, _, rfl,
      reads_required (keeps_text _), rfl⟩, reads_required (keeps_text _), rfl⟩,
      reads_withDefault h.position, rfl⟩, reads_omitted fun _ _ => keeps_text _, rfl⟩,
      congrArg Codec.json.read hdata, rfl⟩, reads_omitted h.measured, rfl⟩,
      reads_withDefault (keeps_flag _), rfl⟩, reads_withDefault (keeps_flag _), rfl⟩,
      reads_omitted fun _ _ => keeps_text _, rfl⟩ rfl

theorem Settled.sort {n : Node} (h : n.Settled) (s : Compile.Settings) : (Compile.sort s n).node.Settled := by
  simp only [Compile.sort]
  split
  · exact ⟨h.position, h.data.stripTemplate, h.measured, h.extra⟩
  · exact h

end Node

/-! ### Edges -/

theorem EdgeSettings.stable : record.codec.Stable := by
  intro v s hv h
  obtain ⟨_, extra, ⟨_, conditional, rfl, -, rfl⟩, hextra, rfl⟩ := OpenRecord.arises_of_read (r := record) hv h
  exact OpenRecord.keeps (r := record) (by decide) hextra ⟨_, _, rfl, reads_withDefault (keeps_flag _), rfl⟩ rfl

theorem Edge.stable : codec.Stable := by
  intro v e hv h
  obtain ⟨_, extra, ⟨_, settings, ⟨_, animated, ⟨_, type, ⟨_, targetHandle, ⟨_, sourceHandle, ⟨_, target,
    ⟨_, source, ⟨_, id, rfl, -, rfl⟩, -, rfl⟩, -, rfl⟩, -, rfl⟩, -, rfl⟩, -, rfl⟩, -, rfl⟩, hsettings, rfl⟩,
    hextra, rfl⟩ := OpenRecord.arises_of_read (r := record) hv h
  exact OpenRecord.keeps (r := record) (by decide) hextra
    ⟨_, _, ⟨_, _, ⟨_, _, ⟨_, _, ⟨_, _, ⟨_, _, ⟨_, _, ⟨_, _, rfl,
      reads_withDefault (keeps_text _), rfl⟩, reads_required (keeps_text _), rfl⟩,
      reads_required (keeps_text _), rfl⟩, reads_omitted fun _ _ => keeps_text _, rfl⟩,
      reads_omitted fun _ _ => keeps_text _, rfl⟩, reads_omitted fun _ _ => keeps_text _, rfl⟩,
      reads_omitted fun _ _ => keeps_flag _, rfl⟩,
      reads_omitted (keeps_of_omitted EdgeSettings.stable hsettings), rfl⟩ rfl

/-! ### Canvases -/

theorem Canvas.settled_of_read {v : Json} {c : Canvas} (hv : v.IsCanonical) (h : codec.read v = .ok c) :
    (∀ n ∈ c.nodes, n.Settled) ∧ ∀ e ∈ c.edges, Edge.codec.Keeps e := by
  obtain ⟨_, edges, ⟨_, nodes, rfl, hnodes, rfl⟩, hedges, rfl⟩ := Record.arises_of_read (r := record) hv h
  refine ⟨fun n hn => ?_, fun e he => ?_⟩
  · obtain ⟨⟨⟩⟩ | ⟨w, hw, hread⟩ := hnodes
    obtain ⟨u, hu, hnode⟩ := exists_read_of_mem_list hw hread hn
    exact Node.settled_of_read hu hnode
  · obtain ⟨⟨⟩⟩ | ⟨w, hw, hread⟩ := hedges
    · cases he
    · obtain ⟨u, hu, hedge⟩ := exists_read_of_mem_list hw hread he
      exact Edge.stable u e hu hedge

end MessageFlow
