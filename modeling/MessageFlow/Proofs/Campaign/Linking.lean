import MessageFlow.Proofs.Campaign.Resequence
import MessageFlow.Proofs.Schema.Returning

/-! # What linking changes

A step of a campaign is written with the data of its item. Of the fields that a descriptor names those that hold null
are left out, options that are missing are written as a list without elements, and each option that is not followed on
a condition is made to lead to the next step, by the target in its state. Nothing else differs, and what was linked
before has no part in it. -/

namespace MessageFlow

/-! ### Values and fields -/

/-- Setting a field to what it holds changes nothing. -/
theorem Json.Object.insert_eq_self {o : Object} {key : String} {v : Json} (h : o.Ascending) (hv : o.get? key = some v) :
    o.insert key v = o := by
  refine Ascending.ext (h.insert key v) h fun k => ?_
  rw [get?_insert]
  split
  · next hk => rw [hk, hv]
  · rfl

theorem Json.IsCanonical.of_at? {v w : Json} {key : String} {place : Nat} (hv : v.IsCanonical)
    (h : v.at? key place = some w) : w.IsCanonical := by
  cases v with
  | obj fields => exact hv.of_get? (u := .obj fields) h
  | arr items => exact isCanonical_arr_iff.1 hv w (List.mem_of_getElem? h)
  | _ => cases h

/-- What is required is held. -/
theorem Field.exists_of_reads_required {α : Type} {key : String} {c : Codec α} {held : Option Json} {a : α}
    (h : (required key c).Reads held a) : ∃ v, held = some v ∧ c.read v = .ok a := by
  cases held with
  | none => cases h
  | some v => exact ⟨v, rfl, h⟩

namespace Campaign
open MessageFlow.Codec MessageFlow.Field MessageFlow.Json.Edit

/-! ### Options -/

/-- What is sent for an option of an item. One whose state is no object is given a state that says no more than where
    it leads. -/
inductive Led (target : List String) : Json → Json → Prop
  | other {v : Json} (h : ∀ option, v ≠ .obj option) : Led target v v
  | conditional {option state : Json.Object} (hstate : option.get? "state" = some (.obj state))
    (h : state.get? "isConditional" = some (.bool true)) : Led target (.obj option) (.obj option)
  | leads {option state : Json.Object} (hstate : option.get? "state" = some (.obj state))
    (h : state.get? "isConditional" ≠ some (.bool true)) :
    Led target (.obj option) (.obj (option.insert "state" (.obj (state.insert "target" (.strings target)))))
  | stateless {option : Json.Object} (h : ∀ state, option.get? "state" ≠ some (.obj state)) :
    Led target (.obj option) (.obj (option.insert "state" (.obj [("target", .strings target)])))

section Options
variable {target : List String} {option : Json.Object} {v : Json}

theorem stateOf_of_get? {state : Json.Object} (h : option.get? "state" = some (.obj state)) :
    stateOf option = state := by
  rw [stateOf, h]

theorem stateOf_of_get?_ne (h : ∀ state, option.get? "state" ≠ some (.obj state)) : stateOf option = [] := by
  unfold stateOf
  split
  · next state hstate => exact absurd hstate (h state)
  · rfl

theorem led_link (hv : v.IsCanonical) (target : List String) : Led target v (link target v) := by
  cases v with
  | obj option =>
    rw [link_obj]
    by_cases hstate : ∃ state : Json.Object, Json.Object.get? option "state" = some (.obj state)
    · obtain ⟨state, hstate⟩ := hstate
      rw [stateOf_of_get? hstate]
      by_cases h : state.get? "isConditional" = some (.bool true)
      · rw [if_pos (isConditional_eq_true_iff.2 h), Json.Object.insert_eq_self (Json.isCanonical_obj_iff.1 hv).1 hstate]
        exact .conditional hstate h
      · rw [if_neg (mt isConditional_eq_true_iff.1 h)]
        exact .leads hstate h
    · have hnone : ∀ state, Json.Object.get? option "state" ≠ some (.obj state) := not_exists.1 hstate
      rw [stateOf_of_get?_ne hnone]
      exact .stateless hnone
  | _ => exact .other (by simp)

end Options

/-! ### Data -/

/-- The options that the data of an item holds. -/
def optionsOf (fields : Json.Object) : List Json :=
  match fields.get? "template_options" with
  | some (.arr options) => options
  | _ => []

/-- What becomes of the fields of an item's data, for the options that are sent. -/
def Template.edits (sent : List Json) : List (String × Json.Edit) :=
  [("templateId", unlessNull asHeld), ("media", unlessNull asHeld), ("dynamic_mapping", unlessNull asHeld),
    ("product_sets", unlessNull asHeld), ("carouselMedia", unlessNull asHeld),
    ("template_options", fun _ => some (.arr sent))]

theorem Template.keys_edits (sent : List Json) : (edits sent).map (·.1) = Template.record.schema.names := rfl

section Data
variable {fields : Json.Object} {t : Template}

theorem optionsOf_of_reads {options : List Json}
    (h : (withDefault "template_options" (list json) []).Reads (fields.get? "template_options") options) :
    options = optionsOf fields := by
  unfold optionsOf
  cases hheld : fields.get? "template_options" with
  | none =>
    rw [hheld] at h
    exact (Option.some.inj h).symm
  | some v =>
    rw [hheld] at h
    obtain ⟨items, rfl, hitems⟩ := read_list_eq_ok_iff.1 h
    have hsame : items = options := by
      rw [← List.forall₂_eq_eq_eq]
      exact hitems.imp fun a b hab => Except.ok.inj hab
    exact hsame.symm

theorem Template.encode_link (hv : Json.IsCanonical (.obj fields)) (h : Template.record.read (.obj fields) = .ok t)
    (target : List String) : Template.record.codec.encode (t.link target) =
      .obj (fields.edit (edits ((optionsOf fields).map (Campaign.link target)))) := by
  have hsettled := settled_of_read hv h
  obtain ⟨_, ⟨_, options, ⟨_, carousel, ⟨_, productSets, ⟨_, mapping, ⟨_, media, ⟨_, id, rfl, hid, rfl⟩, hmedia, rfl⟩,
    hmapping, rfl⟩, hproductSets, rfl⟩, hcarousel, rfl⟩, hoptions, rfl⟩, rfl⟩ :=
    (OpenRecord.read_obj_eq_ok_iff (r := Template.record) (by decide)).1 h
  have hheld : ∀ {key : String} (v : Json), Json.Object.get? fields key = some v → v.IsCanonical :=
    fun _ hv' => hv.of_get? hv'
  have hgiven : options = optionsOf fields := optionsOf_of_reads hoptions
  subst hgiven
  have hsent : (list json).encode ((optionsOf fields).map (Campaign.link target)) =
      .arr ((optionsOf fields).map (Campaign.link target)) := encode_list_json (hsettled.link target).options
  have hkeys : ((edits ((optionsOf fields).map (Campaign.link target))).map (·.1)).Nodup ∧
      (edits ((optionsOf fields).map (Campaign.link target))).map (·.1) ⊆ Template.record.schema.names := by
    rw [keys_edits]
    exact ⟨by decide, List.Subset.refl _⟩
  exact OpenRecord.encode_eq_edit (r := Template.record) hv (by decide) (by decide) hkeys rfl
    ⟨⟨⟨⟨⟨⟨trivial, written_omitted returns_json hheld hid⟩, written_omitted returns_json hheld hmedia⟩,
      written_omitted returns_json hheld hmapping⟩, written_omitted returns_json hheld hproductSets⟩,
      written_omitted returns_json hheld hcarousel⟩, congrArg some hsent⟩

theorem isCanonical_optionsOf (hv : Json.IsCanonical (.obj fields)) : ∀ o ∈ optionsOf fields, o.IsCanonical := by
  unfold optionsOf
  split
  · next options hoptions => exact Json.isCanonical_arr_iff.1 (hv.of_get? (u := .obj fields) hoptions)
  · exact nofun

theorem Descriptor.get?_data_step (d : Descriptor) (id : String) (target : List String) :
    (d.step id target).write.canonical.get? "data" =
      some (Template.record.codec.encode (d.template.link target)) := by
  have hsent : d.sent id target "data" = some (Template.record.codec.encode (d.template.link target)) := rfl
  rw [get?_write_step, hsent, Option.map_some, Codec.encode, Json.canonical_canonical]

end Data

/-- What the steps of a descriptor hold, by the data of the item that describes it. -/
structure Relays (fields : Json.Object) (d : Descriptor) : Prop where
  data : ∀ id target, ∃ sent, List.Forall₂ (Led target) (optionsOf fields) sent ∧
    (d.step id target).write.canonical.get? "data" = some (.obj (fields.edit (Template.edits sent)))
  /-- The data that was linked is linked to other steps as if it never had been. -/
  again : ∀ id target, ∃ sent t, (d.step id target).write.canonical.get? "data" = some sent ∧
    Template.record.codec.read sent = .ok t ∧
    ∀ id' target', Descriptor.step { d with template := t } id' target' = d.step id' target'

theorem relays_of_data {fields : Json.Object} {d : Descriptor} (hv : Json.IsCanonical (.obj fields))
    (h : Template.record.read (.obj fields) = .ok d.template) : Relays fields d where
  data id target := by
    refine ⟨(optionsOf fields).map (link target), ?_, ?_⟩
    · rw [List.forall₂_map_right_iff]
      exact List.forall₂_same.2 fun o ho => led_link (isCanonical_optionsOf hv o ho) target
    · rw [Descriptor.get?_data_step, Template.encode_link hv h target]
  again id target := by
    obtain ⟨-, hread⟩ := ((Template.kept_of_read hv h).link target).keeps
    refine ⟨_, _, d.get?_data_step id target, hread, fun id' target' => ?_⟩
    simp only [Descriptor.step, Template.link_link]

/-- The data of an item that is read are an object, which reads as the template. -/
theorem exists_fields_of_read {v : Json} {d : Descriptor} (h : Descriptor.record.read v = .ok d) :
    ∃ fields : Json.Object, v.at? "data" 3 = some (.obj fields) ∧ Template.record.read (.obj fields) = .ok d.template := by
  obtain ⟨_, t, ⟨_, _, ⟨_, _, ⟨_, _, rfl, -, rfl⟩, -, rfl⟩, -, rfl⟩, ht, rfl⟩ :=
    Record.reads_of_read (r := Descriptor.record) rfl h
  obtain ⟨w, hdata, hread⟩ : ∃ w, v.at? "data" 3 = some w ∧ Template.record.read w = .ok t :=
    exists_of_reads_required ht
  cases w with
  | obj fields => exact ⟨fields, hdata, hread⟩
  | _ => cases hread

theorem relays_of_read {v : Json} {d : Descriptor} (hv : v.IsCanonical) (h : Descriptor.record.read v = .ok d) :
    ∃ fields, v.at? "data" 3 = some (.obj fields) ∧ Relays fields d := by
  obtain ⟨fields, hdata, hread⟩ := exists_fields_of_read h
  exact ⟨fields, hdata, relays_of_data (hv.of_at? hdata) hread⟩

/-- An item with media that are null, a field that no descriptor names, and options of every sort: none at all, one that
    is followed on a condition, one without a proper state and one that is not followed on a condition. -/
def invitation : Json := .obj
  [("data", .obj
    [("media", .null), ("template_options", .arr
      [.str "note", .obj [("state", .obj [("isConditional", .bool true), ("target", .strings ["old"])])],
       .obj [("button", .str "go"), ("state", .nat 1)],
       .obj [("state", .obj [("isConditional", .str "true"), ("theme", .nat 3)])]]),
     ("theme", .nat 3)])]

theorem relays_invitation : invitation.IsCanonical ∧ ∃ d fields, Descriptor.record.read invitation = .ok d ∧
    invitation.at? "data" 3 = some (.obj fields) ∧ Relays fields d := by
  have hcanonical : invitation.IsCanonical := by
    simp only [invitation, Json.nat, Json.strings, List.map_cons, List.map_nil, Json.IsCanonical, Json.IsCanonicalItems,
      Json.IsCanonicalFields, Json.Object.Ascending]
    decide
  have hread : Descriptor.record.read invitation = .ok _ := rfl
  obtain ⟨fields, hfields, hrelays⟩ := relays_of_read hcanonical hread
  exact ⟨hcanonical, _, fields, hread, hfields, hrelays⟩

end Campaign
end MessageFlow
