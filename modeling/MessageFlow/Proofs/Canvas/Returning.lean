import MessageFlow.Proofs.Canvas.Keeping
import MessageFlow.Proofs.Schema.Returning

/-! Nodes and edges that were read are written as they were given, but for some of the fields that are known
    here: a missing one is written with its default, a null one is left out where it may be missing, and
    places and sizes are written as objects of two doubles. The edits are told by a table for each record;
    whatever an editor keeps under other names, at any depth, is not touched. -/

namespace MessageFlow
open MessageFlow.Field MessageFlow.Codec
open MessageFlow.Json (Edit)
open MessageFlow.Json.Edit (asHeld orElse unlessNull)

/-! ### Places and sizes -/

namespace Json

/-- A number as a double; other values as they are. -/
def asDouble : Json → Json
  | .num n => .num (.double n.toDouble)
  | v => v

/-- The double at a place of a value, which is an object or a list. -/
def doubleAt (v : Json) (key : String) (place : Nat) : Json := (ofOption (v.at? key place)).asDouble

/-- A place as an object. -/
def asPosition (v : Json) : Json := .obj [("x", v.doubleAt "x" 0), ("y", v.doubleAt "y" 1)]

/-- A size as an object. -/
def asSize (v : Json) : Json := .obj [("height", v.doubleAt "height" 1), ("width", v.doubleAt "width" 0)]

end Json

/-- A coordinate that was read is written as the double that was held. -/
theorem Codec.write_of_reads {v : Json} {key : String} {place : Nat} {a : Coordinate}
    (h : (required key double).Reads (v.at? key place) a) : double.write a = v.doubleAt key place := by
  rw [Json.doubleAt]
  cases hw : v.at? key place with
  | none =>
    rw [hw] at h
    cases h
  | some w =>
    rw [hw] at h
    cases w <;> cases h
    rfl

theorem Codec.canonical_write_double (x : Coordinate) : (double.write x).canonical = double.write x := by
  cases x <;> simp [double, Json.canonical]

theorem Position.encode_eq (p : Position) :
    record.codec.encode p = .obj [("x", double.write p.x), ("y", double.write p.y)] := by
  have horder : ¬"y" < "x" ∧ "y" ≠ "x" := by decide
  simp only [Codec.encode, Record.codec, record, required, Schema.writeFields, Bool.false_eq_true, if_false,
    List.nil_append, List.cons_append, Json.canonical, Json.canonicalFields, canonical_write_double,
    Json.Object.ofList, List.foldl_cons, List.foldl_nil, Json.Object.insert, if_neg horder.1, if_neg horder.2]

theorem Size.encode_eq (s : Size) :
    record.codec.encode s = .obj [("height", double.write s.height), ("width", double.write s.width)] := by
  have horder : "height" < "width" := by decide
  simp only [Codec.encode, Record.codec, record, required, Schema.writeFields, Bool.false_eq_true, if_false,
    List.nil_append, List.cons_append, Json.canonical, Json.canonicalFields, canonical_write_double,
    Json.Object.ofList, List.foldl_cons, List.foldl_nil, Json.Object.insert, if_pos horder]

theorem Position.returns : record.codec.Returns Json.asPosition := by
  intro v p _ h
  obtain ⟨_, y, ⟨_, x, rfl, hx, rfl⟩, hy, rfl⟩ := Record.reads_of_read (r := record) (by decide) h
  have hx : double.write x = v.doubleAt "x" 0 := write_of_reads hx
  have hy : double.write y = v.doubleAt "y" 1 := write_of_reads hy
  rw [encode_eq, Json.asPosition, ← hx, ← hy]

theorem Size.returns : record.codec.Returns Json.asSize := by
  intro v s _ h
  obtain ⟨_, height, ⟨_, width, rfl, hwidth, rfl⟩, hheight, rfl⟩ :=
    Record.reads_of_read (r := record) (by decide) h
  have hwidth : double.write width = v.doubleAt "width" 0 := write_of_reads hwidth
  have hheight : double.write height = v.doubleAt "height" 1 := write_of_reads hheight
  rw [encode_eq, Json.asSize, ← hwidth, ← hheight]

/-! ### Edges -/

namespace EdgeSettings

def edits : List (String × Edit) := [("isConditional", orElse (.bool false) asHeld)]

theorem returns : record.codec.Returns (Json.edited edits) := by
  intro v s hv h
  cases v with
  | obj fields =>
    obtain ⟨_, ⟨_, conditional, rfl, hconditional, rfl⟩, rfl⟩ :=
      (OpenRecord.read_obj_eq_ok_iff (r := record) (by decide)).1 h
    exact OpenRecord.encode_eq_edit (r := record) hv (by decide) (by decide) (by decide) rfl
      ⟨trivial, written_withDefault returns_flag (fun _ => hv.of_get?) hconditional⟩
  | _ => cases h

end EdgeSettings

namespace Edge

/-- What an edge that was read is written with. -/
def edits : List (String × Edit) :=
  [("id", orElse (.str "") asHeld), ("sourceHandle", unlessNull asHeld), ("targetHandle", unlessNull asHeld),
    ("type", unlessNull asHeld), ("animated", unlessNull asHeld), ("data", unlessNull (Json.edited EdgeSettings.edits))]

theorem returns : codec.Returns (Json.edited edits) := by
  intro v e hv h
  cases v with
  | obj fields =>
    obtain ⟨_, ⟨_, settings, ⟨_, animated, ⟨_, type, ⟨_, targetHandle, ⟨_, sourceHandle, ⟨_, target,
      ⟨_, source, ⟨_, id, rfl, hid, rfl⟩, hsource, rfl⟩, htarget, rfl⟩, hsourceHandle, rfl⟩, htargetHandle, rfl⟩,
      htype, rfl⟩, hanimated, rfl⟩, hsettings, rfl⟩, rfl⟩ :=
      (OpenRecord.read_obj_eq_ok_iff (r := record) (by decide)).1 h
    have hheld : ∀ {key : String} (v : Json), Json.Object.get? fields key = some v → v.IsCanonical :=
      fun _ hv' => hv.of_get? hv'
    exact OpenRecord.encode_eq_edit (r := record) hv (by decide) (by decide) (by decide) rfl
      ⟨⟨⟨⟨⟨⟨⟨⟨trivial, written_withDefault returns_text hheld hid⟩, written_required returns_text hheld hsource⟩,
        written_required returns_text hheld htarget⟩, written_omitted returns_text hheld hsourceHandle⟩,
        written_omitted returns_text hheld htargetHandle⟩, written_omitted returns_text hheld htype⟩,
        written_omitted returns_flag hheld hanimated⟩, written_omitted EdgeSettings.returns hheld hsettings⟩
  | _ => cases h

end Edge

/-! ### Nodes -/

namespace Node

/-- What a node that was read is written with. -/
def edits : List (String × Edit) :=
  [("position", orElse (.obj [("x", .num (.double .zero)), ("y", .num (.double .zero))]) Json.asPosition),
    ("dragHandle", unlessNull asHeld), ("data", orElse .null asHeld), ("measured", unlessNull Json.asSize),
    ("selected", orElse (.bool false) asHeld), ("dragging", orElse (.bool false) asHeld),
    ("parentId", unlessNull asHeld)]

theorem returns : codec.Returns (Json.edited edits) := by
  intro v n hv h
  cases v with
  | obj fields =>
    obtain ⟨_, ⟨_, parent, ⟨_, dragging, ⟨_, selected, ⟨_, measured, ⟨_, data, ⟨_, dragHandle,
      ⟨_, position, ⟨_, type, ⟨_, id, rfl, hid, rfl⟩, htype, rfl⟩, hposition, rfl⟩, hdragHandle, rfl⟩, hdata, rfl⟩,
      hmeasured, rfl⟩, hselected, rfl⟩, hdragging, rfl⟩, hparent, rfl⟩, rfl⟩ :=
      (OpenRecord.read_obj_eq_ok_iff (r := record) (by decide)).1 h
    have hheld : ∀ {key : String} (v : Json), Json.Object.get? fields key = some v → v.IsCanonical :=
      fun _ hv' => hv.of_get? hv'
    exact OpenRecord.encode_eq_edit (r := record) hv (by decide) (by decide) (by decide) rfl
      ⟨⟨⟨⟨⟨⟨⟨⟨⟨trivial, written_required returns_text hheld hid⟩, written_required returns_text hheld htype⟩,
        written_withDefault Position.returns hheld hposition⟩, written_omitted returns_text hheld hdragHandle⟩,
        written_withDefault returns_json hheld hdata⟩, written_omitted Size.returns hheld hmeasured⟩,
        written_withDefault returns_flag hheld hselected⟩, written_withDefault returns_flag hheld hdragging⟩,
        written_omitted returns_text hheld hparent⟩
  | _ => cases h

end Node

/-! ### Both -/

/-- Both an edge and a node: without an id of the edge's own, with null fields, a place that is a list of
    integers, and fields that only the editor knows. -/
def hybrid : Json :=
  .obj [("data", .obj [("label", .nat 7)]), ("id", .str "n"), ("measured", .null), ("position", .arr [.nat 1, .nat 2]),
    ("source", .str "a"), ("sourceHandle", .null), ("style", .obj [("width", .nat 3)]), ("target", .str "b"),
    ("type", .str "text")]

theorem isCanonical_hybrid : hybrid.IsCanonical := by
  simp only [hybrid, Json.nat, Json.IsCanonical, Json.IsCanonicalItems, Json.IsCanonicalFields, Json.Object.Ascending]
  decide

/-- What reads as an edge or as a node is written as it was but for the edits, and reads again as the same. -/
theorem returned_of_read {v : Json} (hv : v.IsCanonical) :
    (∀ e, Edge.codec.read v = .ok e →
      Edge.codec.encode e = v.edited Edge.edits ∧ Edge.codec.read (Edge.codec.encode e) = .ok e) ∧
    ∀ n, Node.codec.read v = .ok n →
      Node.codec.encode n = v.edited Node.edits ∧ Node.codec.read (Node.codec.encode n) = .ok n :=
  ⟨fun e h => ⟨Edge.returns v e hv h, (Edge.stable v e hv h).2⟩,
    fun n h => ⟨Node.returns v n hv h, (Node.settled_of_read hv h).keeps.2⟩⟩

theorem returned_of_read_hybrid : hybrid.IsCanonical ∧
    (∃ e, Edge.codec.read hybrid = .ok e ∧ Edge.codec.encode e = hybrid.edited Edge.edits ∧
      Edge.codec.read (Edge.codec.encode e) = .ok e) ∧
    ∃ n, Node.codec.read hybrid = .ok n ∧ Node.codec.encode n = hybrid.edited Node.edits ∧
      Node.codec.read (Node.codec.encode n) = .ok n :=
  have both := returned_of_read isCanonical_hybrid
  ⟨isCanonical_hybrid, ⟨_, rfl, both.1 _ rfl⟩, ⟨_, rfl, both.2 _ rfl⟩⟩

example : hybrid.edited Edge.edits = .obj
    [("data", .obj [("isConditional", .bool false), ("label", .nat 7)]), ("id", .str "n"), ("measured", .null),
     ("position", .arr [.nat 1, .nat 2]), ("source", .str "a"), ("style", .obj [("width", .nat 3)]),
     ("target", .str "b"), ("type", .str "text")] := by rfl

example : hybrid.edited Node.edits = .obj
    [("data", .obj [("label", .nat 7)]), ("dragging", .bool false), ("id", .str "n"),
     ("position", .obj [("x", .num (.double (.ofInt 1))), ("y", .num (.double (.ofInt 2)))]), ("selected", .bool false),
     ("source", .str "a"), ("sourceHandle", .null), ("style", .obj [("width", .nat 3)]), ("target", .str "b"),
     ("type", .str "text")] := by rfl

end MessageFlow
