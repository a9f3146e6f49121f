import MessageFlow.Proofs.Compile.Stripping
import MessageFlow.Proofs.Form.Keeping
import MessageFlow.Proofs.Schema.Stability

/-! # Forms written back

The data of a node can be put in order: read as the form of the node's kind and written back. It reads as the same form
again, so putting it in order a second time changes nothing. Nor does it change the message of the node, provided that
the delay, which no form holds, is kept beside the form. Data is in canonical form, as `Json.isCanonical_of_parse` has
it of what is read from text. -/

namespace MessageFlow

/-- The data with a value under a key, if one is given and the data is an object. -/
def Json.holding (key : String) : Json → Option Json → Json
  | .obj fields, some v => .obj (Object.insert fields key v)
  | data, _ => data

theorem Json.holding_none (key : String) (data : Json) : data.holding key none = data := by
  cases data <;> rfl

/-- The node with other data, in which the delay of its own is kept if it is set. -/
def Node.holding (n : Node) (data : Json) : Node :=
  { n with data := data.holding "delay" ((n.data.get? "delay").filter Json.isTruthy) }

theorem Node.data_holding (n : Node) (data : Json) : (n.holding data).data = data.holding "delay" n.delay := rfl

namespace Form

/-- Data as the form that it holds is written back. -/
def inOrder {α : Type} (r : Record α) (data : Json) : Except ReadError Json := (ofData r data).map r.codec.encode

theorem HeldBy.named {α : Type} {r : Record α} {k : MessageKind} (h : HeldBy r k) : Named r := by
  cases h with
  | text => exact Text.named
  | image | video | audio | document => exact Media.named
  | list => exact Menu.named
  | button => exact Buttons.named
  | flow => exact Launch.named
  | catalog => exact Catalog.named
  | template => exact Template.named

/-! ### Values that were read -/

theorem kept_eq_self {o : Option Json} (h : Json.Kept o) : kept o = o := by
  cases o with
  | none => rfl
  | some v =>
    obtain ⟨hne, hread⟩ := h v rfl
    have hcanonical : v.canonical = v := Except.ok.inj hread
    have hv : v ≠ .null := hcanonical ▸ hne
    rw [kept, Json.ofOption, hcanonical]
    cases v with
    | null => exact absurd rfl hv
    | _ => rfl

theorem arises_of_ofData {α : Type} {r : Record α} {d : Json} {x : α} (hd : d.IsCanonical) (h : ofData r d = .ok x) :
    r.schema.Arises x := by
  cases d with
  | null => exact Record.arises_of_read (v := .obj []) (Json.isCanonical_obj_iff.2 ⟨.nil, nofun⟩) h
  | _ => exact Record.arises_of_read hd h

theorem isCanonical_of_arises {key : String} {v : Json} (h : (Field.withDefault key .json .null).Arises v) :
    v.IsCanonical := by
  obtain ⟨⟨⟩⟩ | ⟨w, hw, hread⟩ := h
  · trivial
  · cases hread
    exact hw

theorem TemplateDetails.stable : record.codec.Stable := by
  intro v details hv h
  obtain ⟨_, rest, ⟨_, options, ⟨_, type, ⟨_, id, rfl, hid, rfl⟩, -, rfl⟩, -, rfl⟩, hrest, rfl⟩ :=
    OpenRecord.arises_of_read (r := record) hv h
  exact OpenRecord.keeps (r := record) (by decide) hrest
    ⟨_, _, ⟨_, _, ⟨_, _, rfl, Field.reads_optional (Field.kept_of_optional hid), rfl⟩,
      Field.reads_optional fun _ _ => Codec.keeps_text _, rfl⟩,
      Field.reads_optional fun _ _ => Codec.keeps_text _, rfl⟩ rfl

theorem TemplateChoice.stable : codec.Stable := by
  intro v choice hv h
  cases v with
  | str id =>
    cases h
    exact keeps_named id
  | obj fields =>
    simp only [codec, read] at h
    cases hread : TemplateDetails.record.read (.obj fields) with
    | error e => simp [hread] at h
    | ok details =>
      rw [hread] at h
      cases h
      obtain ⟨hne, hkeeps⟩ := TemplateDetails.stable (.obj fields) details hv hread
      obtain ⟨written, hwritten⟩ : ∃ written, TemplateDetails.record.codec.encode details = .obj written :=
        ⟨_, OpenRecord.encode_eq _ _⟩
      have hencode : codec.encode (.detailed details) = .obj written := hwritten
      rw [hwritten] at hkeeps
      have hagain : TemplateDetails.record.read (.obj written) = .ok details := hkeeps
      rw [Codec.Keeps, hencode]
      exact ⟨by simp, by simp only [codec, read, hagain]⟩
  | _ => cases h

section Again
variable {d : Json}

theorem Media.again {f : Media} (hd : d.IsCanonical) (h : ofData record d = .ok f) :
    ofData record (record.codec.encode f) = .ok f := by
  obtain ⟨_, caption, ⟨_, media, rfl, hmedia, rfl⟩, -, rfl⟩ := arises_of_ofData hd h
  rw [ofData_encode, Json.canonical_eq_self (isCanonical_of_arises hmedia)]

theorem Buttons.again {f : Buttons} (hd : d.IsCanonical) (h : ofData record d = .ok f) :
    ofData record (record.codec.encode f) = .ok f := by
  obtain ⟨_, _, ⟨_, media, ⟨_, _, ⟨_, _, ⟨_, _, rfl, -, rfl⟩, -, rfl⟩, -, rfl⟩, hmedia, rfl⟩, -, rfl⟩ :=
    arises_of_ofData hd h
  rw [ofData_encode, kept_eq_self (Field.kept_of_omitted hmedia)]

theorem Launch.again {f : Launch} (hd : d.IsCanonical) (h : ofData record d = .ok f) :
    ofData record (record.codec.encode f) = .ok f := by
  obtain ⟨_, flow, ⟨_, _, ⟨_, _, ⟨_, media, ⟨_, _, ⟨_, _, rfl, -, rfl⟩, -, rfl⟩, hmedia, rfl⟩, -, rfl⟩, -, rfl⟩, hflow,
    rfl⟩ := arises_of_ofData hd h
  rw [ofData_encode, kept_eq_self (Field.kept_of_omitted hmedia), kept_eq_self (Field.kept_of_optional hflow)]

theorem Catalog.again {f : Catalog} (hd : d.IsCanonical) (h : ofData record d = .ok f) :
    ofData record (record.codec.encode f) = .ok f := by
  obtain ⟨_, productSets, ⟨_, product, ⟨_, catalog, ⟨_, _, ⟨_, _, ⟨_, _, ⟨_, _, rfl, -, rfl⟩, -, rfl⟩, -, rfl⟩, -, rfl⟩,
    hcatalog, rfl⟩, hproduct, rfl⟩, hproductSets, rfl⟩ := arises_of_ofData hd h
  rw [ofData_encode, kept_eq_self (Field.kept_of_omitted hcatalog), kept_eq_self (Field.kept_of_omitted hproduct),
    kept_eq_self (Field.kept_of_omitted hproductSets)]

theorem Template.again {f : Template} (hd : d.IsCanonical) (h : ofData record d = .ok f) :
    ofData record (record.codec.encode f) = .ok f := by
  obtain ⟨_, media, ⟨_, template, rfl, htemplate, rfl⟩, hmedia, rfl⟩ := arises_of_ofData hd h
  rw [ofData_encode _ (Field.keeps_of_optional (fun v a hv _ => TemplateChoice.stable v a hv) htemplate),
    kept_eq_self (Field.kept_of_omitted hmedia)]

/-- What was read is read again from where it is written. -/
theorem HeldBy.again {α : Type} {r : Record α} {k : MessageKind} {x : α} (hr : HeldBy r k) (hd : d.IsCanonical)
    (h : ofData r d = .ok x) : ofData r (r.codec.encode x) = .ok x := by
  cases hr with
  | text => exact Text.ofData_encode x
  | image | video | audio | document => exact Media.again hd h
  | list => exact Menu.ofData_encode x
  | button => exact Buttons.again hd h
  | flow => exact Launch.again hd h
  | catalog => exact Catalog.again hd h
  | template => exact Template.again hd h

end Again

/-! ### Nodes whose form was written back -/

section Nodes
variable {α : Type} {r : Record α} {k : MessageKind} {x : α} {n : Node}

theorem exists_encode_eq (r : Record α) (x : α) : ∃ fields, r.codec.encode x = .obj fields := by
  simp only [Codec.encode, Record.codec, Json.canonical]
  exact ⟨_, rfl⟩

theorem delay_holding (hr : Named r) (n : Node) : (n.holding (r.codec.encode x)).delay = n.delay := by
  cases hdelay : n.delay with
  | none =>
    rw [Node.delay, Node.data_holding, hdelay, Json.holding_none, Record.get?_encode_eq_none hr.nodup hr.delay,
      Option.filter_none]
  | some delay =>
    obtain ⟨fields, hfields⟩ := exists_encode_eq r x
    have htruthy : delay.isTruthy := (Option.filter_eq_some_iff.1 hdelay).2
    rw [Node.delay, Node.data_holding, hfields, hdelay, Json.holding, Json.get?, Json.Object.get?_insert, if_pos rfl,
      Option.filter_some_pos htruthy]

/-- No form reads the delay that stands beside it. -/
theorem ofData_holding (hr : Named r) (delay : Option Json) :
    ofData r ((r.codec.encode x).holding "delay" delay) = ofData r (r.codec.encode x) := by
  cases delay with
  | none => rw [Json.holding_none]
  | some delay =>
    obtain ⟨fields, hfields⟩ := exists_encode_eq r x
    have hread : r.schema.readFields (Json.Object.insert fields "delay" delay) = r.schema.readFields fields := by
      refine Schema.readFields_congr fun name hname => ?_
      rw [Json.Object.get?_insert, if_neg]
      rintro rfl
      exact hr.delay hname
    rw [hfields, Json.holding]
    exact congrArg Outcome.toExcept hread

theorem HeldBy.ofNode_holding (hr : HeldBy r k) (hn : n.data.IsCanonical) (h : ofData r n.data = .ok x) (ix : Index) :
    Message.ofNode k (n.holding (r.codec.encode x)) ix = Message.ofNode k n ix := by
  have hform : (n.holding (r.codec.encode x)).form r = .ok x := by
    rw [Message.form_eq_ok_iff, Node.data_holding, ofData_holding hr.named]
    exact hr.again hn h
  have hid : (n.holding (r.codec.encode x)).id = n.id := rfl
  exact hr.ofNode_congr hid (hform.trans (Message.form_eq_ok_iff.2 h).symm) (delay_holding hr.named n) ix

end Nodes

/-- What nodes of a kind hold, read as their form and written back. -/
structure Stays {α : Type} (r : Record α) (k : MessageKind) : Prop where
  again : ∀ d x, d.IsCanonical → ofData r d = .ok x → ofData r (r.codec.encode x) = .ok x
  settles : ∀ d, d.IsCanonical → (inOrder r d).bind (inOrder r) = inOrder r d
  /-- The message stays as well, or stays missing. -/
  sends : ∀ n x ix, n.data.IsCanonical → ofData r n.data = .ok x →
    Message.ofNode k (n.holding (r.codec.encode x)) ix = Message.ofNode k n ix

theorem stays_of_heldBy {α : Type} {r : Record α} {k : MessageKind} (hr : HeldBy r k) : Stays r k where
  again d x hd h := hr.again hd h
  settles d hd := by
    unfold inOrder
    cases h : ofData r d with
    | error e => rfl
    | ok x =>
      have hagain := hr.again hd h
      simp only [Except.map, Except.bind, hagain]
  sends n x ix hn h := hr.ofNode_holding hn h ix

/-- A brochure that waits, with a field that no form knows and more of its template than the compiler reads. -/
def brochure : Node where
  id := "brochure"
  type := "template"
  data := .obj [("delay", .nat 5), ("media", .null), ("template", .obj [("body", .str "Hi"), ("options", .null)]),
    ("theme", .nat 3)]

theorem stays_brochure : HeldBy Template.record .template ∧ brochure.data.IsCanonical ∧
    ∃ x, ofData Template.record brochure.data = .ok x ∧ ∀ ix,
      Message.ofNode .template (brochure.holding (Template.record.codec.encode x)) ix =
        Message.ofNode .template brochure ix := by
  have hdata : brochure.data.IsCanonical := by
    simp only [brochure, Json.nat, Json.IsCanonical, Json.IsCanonicalFields, Json.Object.Ascending]
    decide
  have hread : ofData Template.record brochure.data = .ok _ := rfl
  exact ⟨.template, hdata, _, hread, fun ix => (stays_of_heldBy .template).sends brochure _ ix hdata hread⟩

end Form
end MessageFlow
