import MessageFlow.Proofs.Compile.Run
import MessageFlow.Proofs.Json.Objects
import MessageFlow.Proofs.Schema.Reading

/-! The transient parts of templates. Dropping them twice drops no more than dropping them once, so a
    compiled canvas compiles to the same flow again; and since no form reads them, a node sends the same
    message with them and without. -/

namespace MessageFlow

/-! ### Stripped values -/

namespace Json

theorem Object.without_without (o : Object) (names : List String) :
    Object.without (Object.without o names) names = Object.without o names :=
  List.filter_filter.trans (List.filter_congr fun _ _ => Bool.and_self _)

theorem dropTransient_dropTransient (v : Json) : v.dropTransient.dropTransient = v.dropTransient := by
  cases v with
  | obj fields => exact congrArg Json.obj (Object.without_without fields transientFields)
  | _ => rfl

theorem stripTemplate_stripTemplate (v : Json) : v.stripTemplate.stripTemplate = v.stripTemplate := by
  cases v with
  | obj fields =>
    simp only [stripTemplate, List.map_map, Json.obj.injEq]
    refine List.map_congr_left fun f _ => ?_
    simp only [Function.comp]
    split
    · rw [dropTransient_dropTransient]
    · rfl
  | _ => rfl

theorem IsCanonical.dropTransient {v : Json} (h : v.IsCanonical) : v.dropTransient.IsCanonical := by
  cases v with
  | obj fields => exact (Object.unnamed_without h transientFields).canonical
  | _ => exact h

theorem IsCanonical.stripTemplate {v : Json} (h : v.IsCanonical) : v.stripTemplate.IsCanonical := by
  cases v with
  | obj fields =>
    simp only [Json.stripTemplate, isCanonical_obj_iff, Object.Ascending, List.map_map, List.forall_mem_map] at h ⊢
    refine ⟨h.1, fun f hf => ?_⟩
    split
    · exact (h.2 f hf).dropTransient
    · exact h.2 f hf
  | _ => exact h

/-- Stripping changes what stands under `template` alone. -/
theorem get?_stripTemplate (v : Json) (key : String) : v.stripTemplate.get? key =
    if key = "template" then (v.get? key).map dropTransient else v.get? key := by
  cases v with
  | obj fields =>
    simp only [Json.stripTemplate, Json.get?]
    induction fields with
    | nil => simp [Object.get?]
    | cons f rest ih =>
      obtain ⟨k, v⟩ := f
      rw [List.map_cons, Object.get?_cons, Object.get?_cons, ih]
      by_cases hkey : key = k
      · subst hkey
        simp only [if_true, Option.map_some]
        split <;> rfl
      · simp only [if_neg hkey]
  | _ => simp [Json.stripTemplate, Json.get?]

end Json

/-! ### Compiling again -/

namespace Compile
variable {s : Settings} {c : Canvas} {f : Flow}

theorem strip_strip (n : Node) : n.strip.strip = n.strip := by
  simp only [Node.strip, Json.stripTemplate_stripTemplate]

theorem sort_sort (s : Settings) (n : Node) : sort s (sort s n).node = sort s n := by
  by_cases h : s.sanitize ∧ s.kindOf n.type = some .template
  · have hstrip : sort s n = ⟨n.strip, s.kindOf n.type⟩ := by rw [sort, if_pos h]
    have htype : n.strip.type = n.type := rfl
    rw [hstrip, sort, htype, if_pos h, strip_strip]
  · have hsame : (sort s n).node = n := by rw [sort, if_neg h]
    rw [hsame]

theorem flow_of_compile (h : c.compile s = .ok f) : f =
    { stepEdges := Edge.distinct c.edges, steps := f.steps, nodes := c.nodes.map fun n => (sort s n).node,
      edges := c.edges } := by
  have hsteps := steps_of_compile h
  rw [compile_eq, hsteps] at h
  exact (Except.ok.inj h).symm

/-- The canvas of a flow, which has its templates stripped, compiles to the flow again. -/
theorem compile_canvas_of_compile (h : c.compile s = .ok f) : f.canvas.compile s = .ok f := by
  have hflow := flow_of_compile h
  have hcanvas : f.canvas = ⟨c.nodes.map fun n => (sort s n).node, c.edges⟩ := by rw [hflow, Flow.canvas]
  have hplan : plan f.canvas s = plan c s := by
    simp only [hcanvas, plan, List.map_map, Function.comp_def, sort_sort]
  rw [compile_eq, hplan, steps_of_compile h, hcanvas]
  simp only [List.map_map, Function.comp_def, sort_sort]
  rw [← hflow]

end Compile

/-! ### Stripped forms -/

theorem Field.readIn_congr {α : Type} {f : Field α} {a b : Json.Object}
    (h : ∀ name ∈ f.names, a.get? name = b.get? name) : f.readIn a = f.readIn b := by
  have hother : (f.alternative.bind fun name => (a.get? name).map (name, ·)) =
      f.alternative.bind fun name => (b.get? name).map (name, ·) := by
    refine Option.bind_congr fun name hname => ?_
    rw [h name (List.mem_cons_of_mem _ (by simp [hname]))]
  rw [readIn, readIn, h f.key List.mem_cons_self, hother]

theorem Schema.readFields_congr {σ α : Type} {schema : Schema σ α} {a b : Json.Object}
    (h : ∀ name ∈ schema.names, a.get? name = b.get? name) : schema.readFields a = schema.readFields b := by
  induction schema with
  | build a => rfl
  | field before f get ih =>
    rw [readFields, readFields, ih fun name hname => h name (List.mem_append_left _ hname),
      Field.readIn_congr fun name hname => h name (List.mem_append_right _ hname)]

/-- An optional field is read from the value that is given for it, if one is. -/
theorem Field.readIn_optional {α : Type} (key : String) (c : Codec α) (o : Json.Object) :
    (Field.optional key c).readIn o = ((o.get? key).bind Json.given).elim (.read none) fun v =>
      match c.read v with
      | .ok a => .read (some a)
      | .error e => .failed key e := by
  simp only [Field.readIn, Field.optional, Option.bind_none]
  cases o.get? key with
  | none => rfl
  | some v =>
    cases v with
    | null => rfl
    | _ =>
      simp only [Field.readAt, Codec.optional, Option.bind_some, Json.given, Option.elim_some]
      cases c.read _ <;> rfl

/-- Where a reader does not tell values from what `φ` makes of them, but for what a view leaves out, an optional
    field is read from both, up to the view, or refused for one reason. -/
theorem Field.readIn_optional_congr {α β : Type} {key : String} {c : Codec α} {view : α → β} {φ : Json → Json}
    {a b : Json.Object} (h : (a.get? key).bind Json.given = ((b.get? key).bind Json.given).map φ)
    (hread : ∀ v, (c.read (φ v)).map view = (c.read v).map view) :
    (∃ x y, (Field.optional key c).readIn a = .read x ∧ (Field.optional key c).readIn b = .read y ∧
      x.map view = y.map view) ∨
    ∃ e, (Field.optional key c).readIn a = .failed key e ∧ (Field.optional key c).readIn b = .failed key e := by
  rw [readIn_optional, readIn_optional, h]
  cases (b.get? key).bind Json.given with
  | none => exact .inl ⟨none, none, rfl, rfl, rfl⟩
  | some v =>
    have hv := hread v
    simp only [Option.map_some, Option.elim_some]
    cases hx : c.read (φ v) <;> cases hy : c.read v <;> rw [hx, hy] at hv
    · cases hv
      exact .inr ⟨_, rfl, rfl⟩
    · cases hv
    · cases hv
    · exact .inl ⟨_, _, rfl, rfl, congrArg some (Except.ok.inj hv)⟩

namespace Form
open Compile

/-- The choice of a template without the transient fields of a description. -/
def TemplateChoice.stripped : TemplateChoice → TemplateChoice
  | .named id => .named id
  | .detailed d => .detailed { d with rest := Json.Object.without d.rest transientFields }

def Template.stripped (t : Template) : Template := { t with template := t.template.map TemplateChoice.stripped }

theorem without_comm (o : Json.Object) (a b : List String) :
    Json.Object.without (Json.Object.without o a) b = Json.Object.without (Json.Object.without o b) a :=
  List.filter_comm ..

theorem TemplateChoice.read_dropTransient (v : Json) :
    (codec.read v.dropTransient).map stripped = (codec.read v).map stripped := by
  cases v with
  | obj fields =>
    have hread : TemplateDetails.record.schema.readFields (Json.Object.without fields transientFields) =
        TemplateDetails.record.schema.readFields fields := by
      refine Schema.readFields_congr fun name hname => ?_
      rw [Json.Object.get?_without, if_neg]
      revert name
      decide
    have hdropped : (Json.obj fields).dropTransient = .obj (Json.Object.without fields transientFields) := rfl
    simp only [hdropped, codec, read, OpenRecord.read, hread]
    cases hx : TemplateDetails.record.schema.readFields fields with
    | read x =>
      obtain ⟨_, _, ⟨_, _, ⟨_, _, rfl, -, rfl⟩, -, rfl⟩, -, rfl⟩ := (Schema.readFields_eq_read_iff rfl).1 hx
      have hrest : ∀ names, Json.Object.without (Json.Object.without (Json.Object.without fields transientFields) names)
          transientFields = Json.Object.without (Json.Object.without fields names) transientFields := by
        intro names
        rw [without_comm fields, Json.Object.without_without]
      simp only [Outcome.toExcept, Except.map, stripped, hrest]
    | _ => rfl
  | _ => rfl

/-- A choice is read with the transient fields and without, up to these fields, or refused for one reason. -/
theorem TemplateChoice.readIn_dropTransient {key : String} {a b : Json.Object}
    (h : a.get? key = (b.get? key).map Json.dropTransient) :
    (∃ x y, (Field.optional key codec).readIn a = .read x ∧ (Field.optional key codec).readIn b = .read y ∧
      x.map stripped = y.map stripped) ∨
    ∃ e, (Field.optional key codec).readIn a = .failed key e ∧ (Field.optional key codec).readIn b = .failed key e := by
  refine Field.readIn_optional_congr ?_ read_dropTransient
  rw [h]
  cases b.get? key with
  | none => rfl
  | some v => cases v <;> rfl

theorem Template.read_stripTemplate (v : Json) :
    (ofData record v.stripTemplate).map stripped = (ofData record v).map stripped := by
  cases v with
  | obj fields =>
    have hget := Json.get?_stripTemplate (.obj fields)
    obtain ⟨rest, hrest⟩ : ∃ rest, (Json.obj fields).stripTemplate = .obj rest := ⟨_, rfl⟩
    simp only [hrest, Json.get?] at hget ⊢
    have hmedia : (Field.omitted "media" .json).readIn rest = (Field.omitted "media" .json).readIn fields := by
      refine Field.readIn_congr fun name hname => ?_
      cases List.mem_singleton.1 hname
      exact hget "media"
    change (((Outcome.read mk).join ((Field.optional "template" TemplateChoice.codec).readIn rest)).join
      ((Field.omitted "media" .json).readIn rest)).toExcept.map stripped =
      (((Outcome.read mk).join ((Field.optional "template" TemplateChoice.codec).readIn fields)).join
      ((Field.omitted "media" .json).readIn fields)).toExcept.map stripped
    rw [hmedia]
    obtain ⟨x, y, hx, hy, hxy⟩ | ⟨e, ha, hb⟩ := TemplateChoice.readIn_dropTransient (hget "template")
    · rw [hx, hy]
      cases (Field.omitted "media" .json).readIn fields with
      | read media => simp only [Outcome.join, Outcome.toExcept, Except.map, stripped, hxy]
      | _ => rfl
    · rw [ha, hb]
  | _ => rfl

theorem Template.options_stripped (t : Template) : t.stripped.options = t.options := by
  obtain ⟨_ | ⟨_ | _⟩, _⟩ := t <;> rfl

theorem Template.content_stripped (t : Template) (options : List OptionEntry) (node : String) (ix : Index) :
    t.stripped.content options node ix = t.content options node ix := by
  obtain ⟨_ | ⟨_ | _⟩, _⟩ := t <;> rfl

end Form

/-! ### Stripped nodes -/

namespace Compile
variable {s : Settings} {n : Node} {k : MessageKind} {ix : Index}

theorem delay_strip (n : Node) : n.strip.delay = n.delay := by
  rw [Node.delay, Node.delay, Node.strip, Json.get?_stripTemplate, if_neg (by decide)]

/-- Nodes whose templates read alike, but for what a view leaves out that no message shows, send the same. -/
theorem ofTemplate_congr {m : Node} {view : Form.Template → Form.Template} (hid : m.id = n.id) (htype : m.type = n.type)
    (hdelay : m.delay = n.delay) (hoptions : ∀ t, (view t).options = t.options)
    (hcontent : ∀ t options id ix, (view t).content options id ix = t.content options id ix)
    (hread : (Form.ofData Form.Template.record m.data).map view = (Form.ofData Form.Template.record n.data).map view) :
    Message.ofTemplate m ix = Message.ofTemplate n ix := by
  simp only [Message.ofTemplate, hdelay, hid]
  simp only [Node.form, hid, htype]
  cases hx : Form.ofData Form.Template.record m.data <;>
    cases hy : Form.ofData Form.Template.record n.data <;> rw [hx, hy] at hread
  · cases hread
    rfl
  · cases hread
  · cases hread
  · next x y =>
    have hxy : view x = view y := Except.ok.inj hread
    have hsame : x.options = y.options := by rw [← hoptions x, hxy, hoptions]
    have hsent : x.content = y.content := by
      funext options id ix
      rw [← hcontent x, hxy, hcontent]
    simp only [bind, Except.bind, hsame, hsent]

theorem ofTemplate_strip (n : Node) (ix : Index) : Message.ofTemplate n.strip ix = Message.ofTemplate n ix :=
  ofTemplate_congr rfl rfl (delay_strip n) Form.Template.options_stripped Form.Template.content_stripped
    (Form.Template.read_stripTemplate n.data)

theorem ofNode_sort (hk : s.kindOf n.type = some k) : Message.ofNode k (sort s n).node ix = Message.ofNode k n ix := by
  by_cases htemplate : k = .template
  · subst htemplate
    simp only [sort]
    split
    · simp only [Message.ofNode, ofTemplate_strip]
    · rfl
  · rw [sort_node_of_ne (by rw [hk]; simpa using htemplate)]

theorem refusal_sort (hk : s.kindOf n.type = some k) : Message.refusal (sort s n).node k = Message.refusal n k := by
  have hnode : Message.ofNode k (sort s n).node (.ofLists [] []) = Message.ofNode k n (.ofLists [] []) := ofNode_sort hk
  have hfault := congrArg fault hnode
  rwa [Message.fault_ofNode, Message.fault_ofNode] at hfault

end Compile
end MessageFlow
