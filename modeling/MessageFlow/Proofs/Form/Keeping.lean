import MessageFlow.Proofs.Compile.Message
import MessageFlow.Proofs.Schema.RoundTrip

/-! What a form reads as once it is kept as the data of a node. Texts, options and flags are kept as they
    are; a value without a type of its own comes back in canonical form, or is gone if it was null. -/

namespace MessageFlow
namespace Form
open MessageFlow.Codec MessageFlow.Field

/-- An optional value once it has been written and read. -/
def kept (v : Option Json) : Option Json := (Json.ofOption v).canonical.given

theorem ofOption_kept (v : Option Json) : Json.ofOption (kept v) = (Json.ofOption v).canonical :=
  Json.ofOption_given _

/-- No two fields of a form share a name, and none has that of a node's delay. -/
structure Named {α : Type} (r : Record α) : Prop where
  nodup : r.schema.names.Nodup
  delay : "delay" ∉ r.schema.names

theorem Text.named : Named record := ⟨by decide, by decide⟩

theorem Media.named : Named record := ⟨by decide, by decide⟩

theorem Menu.named : Named record := ⟨by decide, by decide⟩

theorem Buttons.named : Named record := ⟨by decide, by decide⟩

theorem Launch.named : Named record := ⟨by decide, by decide⟩

theorem Catalog.named : Named record := ⟨by decide, by decide⟩

theorem Template.named : Named record := ⟨by decide, by decide⟩

section Named
variable {α : Type} {r : Record α} {x y : α} (hr : Named r)
include hr

theorem ofData_encode (h : r.schema.Restores x y) : ofData r (r.codec.encode x) = .ok y := by
  have hread := Record.read_encode hr.nodup h
  simp only [Codec.encode, Record.codec, Json.canonical] at hread ⊢
  exact hread

/-- A node that holds a form reads as what the form is kept as, and does not wait. -/
theorem Named.form_of_encode {n : Node} (hdata : n.data = r.codec.encode x)
    (hy : ofData r (r.codec.encode x) = .ok y) : n.form r = .ok y ∧ n.delay = none := by
  refine ⟨Message.form_eq_ok_iff.2 (hdata ▸ hy), ?_⟩
  rw [Node.delay, hdata, Record.get?_encode_eq_none hr.nodup hr.delay, Option.filter_none]

end Named

theorem Text.ofData_encode (f : Text) : ofData record (record.codec.encode f) = .ok f :=
  Form.ofData_encode named
    ⟨_, _, ⟨_, _, rfl, reads_nullable (keeps_flag _), rfl⟩, reads_nullable (keeps_text _), rfl⟩

theorem Media.ofData_encode (f : Media) :
    ofData record (record.codec.encode f) = .ok { f with media := f.media.canonical } :=
  Form.ofData_encode named
    ⟨_, _, ⟨_, _, rfl, rfl, rfl⟩, reads_omitted fun _ _ => keeps_text _, rfl⟩

theorem Choice.keeps (o : Choice) : record.codec.Keeps o :=
  Record.keeps (by decide)
    ⟨_, _, ⟨_, _, rfl, reads_nullable (keeps_text _), rfl⟩, reads_optional fun _ _ => keeps_text _, rfl⟩

theorem Menu.ofData_encode (f : Menu) : ofData record (record.codec.encode f) = .ok f :=
  Form.ofData_encode named
    ⟨_, _, ⟨_, _, ⟨_, _, ⟨_, _, rfl, reads_nullable (keeps_list fun o _ => o.keeps), rfl⟩,
      reads_optional fun _ _ => keeps_text _, rfl⟩, reads_nullable (keeps_text _), rfl⟩,
      reads_nullable (keeps_text _), rfl⟩

theorem Buttons.ofData_encode (f : Buttons) :
    ofData record (record.codec.encode f) = .ok { f with media := kept f.media } :=
  Form.ofData_encode named
    ⟨_, _, ⟨_, _, ⟨_, _, ⟨_, _, ⟨_, _, rfl, reads_optional fun _ _ => keeps_text _, rfl⟩,
      reads_nullable (keeps_list fun o _ => o.keeps), rfl⟩, reads_omitted fun _ _ => keeps_text _, rfl⟩,
      reads_omitted_json _, rfl⟩, reads_nullable (keeps_text _), rfl⟩

theorem Launch.ofData_encode (f : Launch) : ofData record (record.codec.encode f) =
    .ok { f with media := kept f.media, flow := kept f.flow } :=
  Form.ofData_encode named
    ⟨_, _, ⟨_, _, ⟨_, _, ⟨_, _, ⟨_, _, ⟨_, _, rfl, reads_optional fun _ _ => keeps_text _, rfl⟩,
      reads_omitted fun _ _ => keeps_text _, rfl⟩, reads_omitted_json _, rfl⟩,
      reads_nullable (keeps_text _), rfl⟩, reads_optional fun _ _ => keeps_text _, rfl⟩,
      reads_optional_json _, rfl⟩

theorem Catalog.ofData_encode (f : Catalog) : ofData record (record.codec.encode f) =
    .ok { f with catalog := kept f.catalog, product := kept f.product, productSets := kept f.productSets } :=
  Form.ofData_encode named
    ⟨_, _, ⟨_, _, ⟨_, _, ⟨_, _, ⟨_, _, ⟨_, _, ⟨_, _, rfl, reads_nullable (keeps_text _), rfl⟩,
      reads_optional fun _ _ => keeps_text _, rfl⟩, reads_omitted fun _ _ => keeps_text _, rfl⟩,
      reads_omitted fun _ _ => keeps_text _, rfl⟩, reads_omitted_json _, rfl⟩, reads_omitted_json _, rfl⟩,
      reads_omitted_json _, rfl⟩

theorem TemplateChoice.keeps_named (id : String) : TemplateChoice.codec.Keeps (.named id) := ⟨nofun, rfl⟩

theorem Template.ofData_encode (f : Template) (h : ∀ t, f.template = some t → TemplateChoice.codec.Keeps t) :
    ofData record (record.codec.encode f) = .ok { f with media := kept f.media } :=
  Form.ofData_encode named
    ⟨_, _, ⟨_, _, rfl, reads_optional h, rfl⟩, reads_omitted_json _, rfl⟩

end Form
end MessageFlow
