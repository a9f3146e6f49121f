import MessageFlow.Proofs.Compile.Stripping

/-! Fields that nobody has filled in. An editor keeps such a field as null, and every form reads null as it reads a
    field that is missing: the readers of a form, of its options and of its template find the same in the data of a
    node as in what of it is filled in, and refuse both for the same reason. -/

namespace MessageFlow

/-! ### What is filled in -/

namespace Json

namespace Object

/-- The fields without those whose key holds null. -/
def dropNulls (fields : Object) : Object :=
  fields.filter fun f => ((fields.get? f.1).bind given).isSome

theorem get?_dropNulls (fields : Object) (key : String) : fields.dropNulls.get? key = (fields.get? key).bind given := by
  rw [dropNulls, get?_filter_keys fun k => ((fields.get? k).bind given).isSome]
  cases hv : (fields.get? key).bind given with
  | none => rfl
  | some v =>
    obtain ⟨w, hw, hgiven⟩ := Option.bind_eq_some_iff.1 hv
    cases w <;> cases hgiven <;> exact hw

end Object

/-- An object without the fields that hold null; other values as they are. -/
def dropNulls : Json → Json
  | .obj fields => .obj (Object.dropNulls fields)
  | v => v

/-- A list with each of its elements so. -/
def dropNullsWithin : Json → Json
  | .arr items => .arr (items.map dropNulls)
  | v => v

/-- What is filled in of the value that a node's data holds under a key: options and templates have fields of their
    own. -/
def filledAt (key : String) (v : Json) : Json :=
  if key = "listOptions" ∨ key = "btnOptions" then v.dropNullsWithin
  else if key = "template" then v.dropNulls
  else v

/-- What is filled in of the data of a node. -/
def filled : Json → Json
  | .obj fields => .obj ((Object.dropNulls fields).map fun f => (f.1, filledAt f.1 f.2))
  | v => v

theorem get?_filled (fields : Object) (key : String) : Json.get? key (filled (.obj fields)) =
    ((fields.get? key).bind given).map (filledAt key) := by
  rw [← Object.get?_dropNulls]
  simp only [filled, Json.get?]
  induction fields.dropNulls with
  | nil => rfl
  | cons f rest ih =>
    rw [List.map_cons, Object.get?_cons, Object.get?_cons, ih]
    split
    · next hkey => rw [hkey, Option.map_some]
    · rfl

end Json

/-! ### Fields that do without a value -/

/-- Null says to the field what a missing value says, and the field does not tell a value from what `φ` makes of it. -/
structure Field.Tolerates {α : Type} (φ : String → Json → Json) (f : Field α) : Prop where
  plain : f.alternative = none
  null : ∃ d, f.absent = some d ∧ f.codec.read .null = .ok d
  alike : ∀ v, f.codec.read (φ f.key v) = f.codec.read v

/-- Every field of the schema does so. -/
def Schema.Tolerates {σ α : Type} (φ : String → Json → Json) : Schema σ α → Prop
  | .build _ => True
  | .field before f _ => before.Tolerates φ ∧ f.Tolerates φ

section Tolerating
variable {σ α : Type} {φ : String → Json → Json} {key : String} {c : Codec α}

theorem Field.tolerates_nullable {d : α} (h : ∀ v, (Codec.nullAs d c).read (φ key v) = (Codec.nullAs d c).read v) :
    (Field.nullable key c d).Tolerates φ :=
  ⟨rfl, ⟨d, rfl, rfl⟩, h⟩

theorem Field.tolerates_optional (h : ∀ v, (Codec.optional c).read (φ key v) = (Codec.optional c).read v) :
    (Field.optional key c).Tolerates φ :=
  ⟨rfl, ⟨none, rfl, rfl⟩, h⟩

theorem Field.tolerates_omitted (h : ∀ v, (Codec.optional c).read (φ key v) = (Codec.optional c).read v) :
    (Field.omitted key c).Tolerates φ :=
  ⟨rfl, ⟨none, rfl, rfl⟩, h⟩

theorem Field.Tolerates.readIn_eq {f : Field α} (hf : f.Tolerates φ) {a b : Json.Object}
    (h : b.get? f.key = ((a.get? f.key).bind Json.given).map (φ f.key)) : f.readIn b = f.readIn a := by
  obtain ⟨d, habsent, hnull⟩ := hf.null
  rw [readIn, readIn, hf.plain, h, Option.bind_none, Option.bind_none]
  cases a.get? f.key with
  | none => rfl
  | some v =>
    cases v with
    | null => simp only [Option.bind_some, Json.given, Option.map_none, habsent, readAt, hnull]
    | _ => simp only [Option.bind_some, Json.given, Option.map_some, readAt, hf.alike]

theorem Schema.Tolerates.readFields_eq {schema : Schema σ α} (hs : schema.Tolerates φ) {a b : Json.Object}
    (h : ∀ key, b.get? key = ((a.get? key).bind Json.given).map (φ key)) :
    schema.readFields b = schema.readFields a := by
  induction schema with
  | build a => rfl
  | field before f get ih => rw [readFields, readFields, ih hs.1, hs.2.readIn_eq (h f.key)]

/-- A record whose fields do without a value reads an object and the object without nulls alike. -/
theorem Schema.Tolerates.readFields_dropNulls {schema : Schema σ α} (hs : schema.Tolerates fun _ v => v)
    (fields : Json.Object) : schema.readFields fields.dropNulls = schema.readFields fields :=
  hs.readFields_eq fun key => by rw [Json.Object.get?_dropNulls, Option.map_id']

end Tolerating

/-! ### Forms -/

namespace Form

/-- The form is read from what is filled in as from all data. -/
theorem ofData_filled {α : Type} {r : Record α} (h : r.schema.Tolerates Json.filledAt) (data : Json) :
    ofData r data.filled = ofData r data := by
  cases data with
  | obj fields => exact congrArg Outcome.toExcept (h.readFields_eq (Json.get?_filled fields))
  | _ => rfl

theorem Choice.read_dropNulls (v : Json) : record.codec.read v.dropNulls = record.codec.read v := by
  cases v with
  | obj fields =>
    have hrecord : record.schema.Tolerates fun _ v => v :=
      ⟨⟨trivial, Field.tolerates_nullable fun _ => rfl⟩, Field.tolerates_optional fun _ => rfl⟩
    exact congrArg Outcome.toExcept (hrecord.readFields_dropNulls fields)
  | _ => rfl

/-- Options are read without their nulls as with them. -/
theorem readItems_dropNulls (items : List Json) :
    Codec.readItems Choice.record.codec.read (items.map Json.dropNulls) =
      Codec.readItems Choice.record.codec.read items := by
  induction items with
  | nil => rfl
  | cons v rest ih => rw [List.map_cons, Codec.readItems, Codec.readItems, Choice.read_dropNulls, ih]

theorem tolerates_choices {key : String} (hkey : key = "listOptions" ∨ key = "btnOptions") :
    (Field.nullable key (.list Choice.record.codec) []).Tolerates Json.filledAt := by
  refine Field.tolerates_nullable fun v => ?_
  rw [Json.filledAt, if_pos hkey]
  cases v with
  | arr items => exact readItems_dropNulls items
  | _ => rfl

theorem Text.tolerates : record.schema.Tolerates Json.filledAt :=
  ⟨⟨trivial, Field.tolerates_nullable fun _ => rfl⟩, Field.tolerates_nullable fun _ => rfl⟩

theorem Media.tolerates : record.schema.Tolerates Json.filledAt :=
  ⟨⟨trivial, rfl, ⟨.null, rfl, rfl⟩, fun _ => rfl⟩, Field.tolerates_omitted fun _ => rfl⟩

theorem Menu.tolerates : record.schema.Tolerates Json.filledAt :=
  ⟨⟨⟨⟨trivial, tolerates_choices (.inl rfl)⟩, Field.tolerates_optional fun _ => rfl⟩,
    Field.tolerates_nullable fun _ => rfl⟩, Field.tolerates_nullable fun _ => rfl⟩

theorem Buttons.tolerates : record.schema.Tolerates Json.filledAt :=
  ⟨⟨⟨⟨⟨trivial, Field.tolerates_optional fun _ => rfl⟩, tolerates_choices (.inr rfl)⟩,
    Field.tolerates_omitted fun _ => rfl⟩, Field.tolerates_omitted fun _ => rfl⟩, Field.tolerates_nullable fun _ => rfl⟩

theorem Launch.tolerates : record.schema.Tolerates Json.filledAt :=
  ⟨⟨⟨⟨⟨⟨trivial, Field.tolerates_optional fun _ => rfl⟩, Field.tolerates_omitted fun _ => rfl⟩,
    Field.tolerates_omitted fun _ => rfl⟩, Field.tolerates_nullable fun _ => rfl⟩,
    Field.tolerates_optional fun _ => rfl⟩, Field.tolerates_optional fun _ => rfl⟩

theorem Catalog.tolerates : record.schema.Tolerates Json.filledAt :=
  ⟨⟨⟨⟨⟨⟨⟨trivial, Field.tolerates_nullable fun _ => rfl⟩, Field.tolerates_optional fun _ => rfl⟩,
    Field.tolerates_omitted fun _ => rfl⟩, Field.tolerates_omitted fun _ => rfl⟩,
    Field.tolerates_omitted fun _ => rfl⟩, Field.tolerates_omitted fun _ => rfl⟩,
    Field.tolerates_omitted fun _ => rfl⟩

/-! ### Templates -/

/-- The choice of a template without the fields of a description that no form reads. -/
def TemplateChoice.bare : TemplateChoice → TemplateChoice
  | .named id => .named id
  | .detailed d => .detailed { d with rest := [] }

def Template.bare (t : Template) : Template := { t with template := t.template.map TemplateChoice.bare }

theorem TemplateChoice.read_dropNulls (v : Json) : (codec.read v.dropNulls).map bare = (codec.read v).map bare := by
  cases v with
  | obj fields =>
    have hrecord : TemplateDetails.record.schema.Tolerates fun _ v => v :=
      ⟨⟨⟨trivial, Field.tolerates_optional fun _ => rfl⟩, Field.tolerates_optional fun _ => rfl⟩,
        Field.tolerates_optional fun _ => rfl⟩
    simp only [Json.dropNulls, codec, read, OpenRecord.read, hrecord.readFields_dropNulls]
    cases hx : TemplateDetails.record.schema.readFields fields with
    | read x =>
      obtain ⟨_, _, ⟨_, _, ⟨_, _, rfl, -, rfl⟩, -, rfl⟩, -, rfl⟩ := (Schema.readFields_eq_read_iff rfl).1 hx
      rfl
    | _ => rfl
  | _ => rfl

/-- The form of a template is read from what is filled in as from all data, but for what it does not know of a
    description. -/
theorem Template.ofData_filled (data : Json) :
    (ofData record data.filled).map bare = (ofData record data).map bare := by
  cases data with
  | obj fields =>
    obtain ⟨rest, hrest⟩ : ∃ rest, (Json.obj fields).filled = .obj rest := ⟨_, rfl⟩
    have hget := Json.get?_filled fields
    simp only [hrest, Json.get?] at hget ⊢
    have hmedia : (Field.omitted "media" .json).readIn rest = (Field.omitted "media" .json).readIn fields :=
      (Field.tolerates_omitted (φ := Json.filledAt) fun _ => rfl).readIn_eq (hget "media")
    have htemplate : (Json.Object.get? rest "template").bind Json.given =
        ((Json.Object.get? fields "template").bind Json.given).map Json.dropNulls := by
      rw [hget]
      cases Json.Object.get? fields "template" with
      | none => rfl
      | some v => cases v <;> rfl
    change (((Outcome.read mk).join ((Field.optional "template" TemplateChoice.codec).readIn rest)).join
      ((Field.omitted "media" .json).readIn rest)).toExcept.map bare =
      (((Outcome.read mk).join ((Field.optional "template" TemplateChoice.codec).readIn fields)).join
      ((Field.omitted "media" .json).readIn fields)).toExcept.map bare
    rw [hmedia]
    obtain ⟨x, y, hx, hy, hxy⟩ | ⟨e, ha, hb⟩ := Field.readIn_optional_congr htemplate TemplateChoice.read_dropNulls
    · rw [hx, hy]
      cases (Field.omitted "media" .json).readIn fields with
      | read media => simp only [Outcome.join, Outcome.toExcept, Except.map, bare, hxy]
      | _ => rfl
    · rw [ha, hb]
  | _ => rfl

theorem Template.options_bare (t : Template) : t.bare.options = t.options := by
  obtain ⟨_ | ⟨_ | _⟩, _⟩ := t <;> rfl

theorem Template.content_bare (t : Template) (options : List OptionEntry) (node : String) (ix : Index) :
    t.bare.content options node ix = t.content options node ix := by
  obtain ⟨_ | ⟨_ | _⟩, _⟩ := t <;> rfl

end Form
end MessageFlow
