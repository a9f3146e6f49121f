import MessageFlow.Proofs.Campaign.Linking

/-! # Steps and the nodes that depict them

A descriptor is told twice, by a step and by the node that depicts it. Each has its own names for what both hold, and
the node shows the media of the step in its own way: of the media the image, or else the video, and of a carousel the
references of its images and videos, each under its position. Null is held for nothing by either. -/

namespace MessageFlow

/-! ### What is held -/

namespace Campaign

/-- What the data of an item hold under a key. -/
def itemAt (item : Json) (key : String) : Option Json := (item.at? "data" 3).bind (Json.get? key)

/-- What a step that is written holds under a key of its data. -/
def dataAt (t : Step) (key : String) : Option Json := (t.write.canonical.get? "data").bind (Json.get? key)

end Campaign

namespace Json

theorem bind_given_eq_none_iff {held : Option Json} : held.bind given = none ↔ held = none ∨ held = some .null := by
  cases held with
  | none => simp
  | some v =>
    by_cases hv : v = .null
    · simp [hv, given]
    · simp [hv, given_of_ne_null hv]

theorem bind_given_eq_some_iff {held : Option Json} {v : Json} :
    held.bind given = some v ↔ held = some v ∧ v ≠ .null := by
  cases held with
  | none => simp
  | some w =>
    by_cases hw : w = .null
    · subst hw
      simp [given, eq_comm]
    · rw [Option.bind_some, given_of_ne_null hw, Option.some.injEq]
      exact ⟨fun h => ⟨h, h ▸ hw⟩, And.left⟩

/-- What is held in canonical form is held so where null counts for nothing. -/
theorem map_canonical_given {held : Option Json} (h : ∀ v, held = some v → v.IsCanonical) :
    (held.bind given).map canonical = held.bind given := by
  cases hheld : held.bind given with
  | none => rfl
  | some v => exact congrArg some (canonical_eq_self (h v (bind_given_eq_some_iff.1 hheld).1))

end Json

namespace Field
variable {α : Type} {c : Codec α} {held : Option Json}

/-- An optional value that was read is written as it is held, unless it is null. -/
theorem map_write_of_reads {f : Field (Option α)} {o : Option α} (hf : f.codec = .optional c)
    (habsent : f.absent = some none) (hc : ∀ v a, c.read v = .ok a → c.write a = v) (h : f.Reads held o) :
    o.map c.write = held.bind Json.given := by
  cases held with
  | none =>
    obtain rfl : none = o := Option.some.inj (habsent.symm.trans h)
    rfl
  | some v =>
    have hread : (Codec.optional c).read v = .ok o := hf ▸ h
    obtain ⟨rfl, rfl⟩ | ⟨hne, a, ha, rfl⟩ := Codec.read_optional_eq_ok_iff.1 hread
    · rfl
    · rw [Option.map_some, hc v a ha, Option.bind_some, Json.given_of_ne_null hne]

theorem eq_given_of_reads {f : Field (Option Json)} {o : Option Json} (hf : f.codec = .optional .json)
    (habsent : f.absent = some none) (h : f.Reads held o) : o = held.bind Json.given := by
  rw [← map_write_of_reads hf habsent (fun v w hread => (Except.ok.inj hread).symm) h]
  exact Option.map_id'.symm

end Field

namespace Campaign

/-- The image is shown if it is set, else the video if that is set, else the media as they are. -/
inductive Shows (media : Json) : Json → Prop
  | image {v : Json} (hv : media.get? "image" = some v) (h : v.isTruthy = true) : Shows media v
  | video {v : Json} (himage : ∀ w, media.get? "image" = some w → w.isTruthy = false)
    (hv : media.get? "video" = some v) (h : v.isTruthy = true) : Shows media v
  | whole (himage : ∀ w, media.get? "image" = some w → w.isTruthy = false)
    (hvideo : ∀ w, media.get? "video" = some w → w.isTruthy = false) : Shows media media

/-- The entry of a carousel is an image or a video, and refers to a value that is set. -/
def RefersTo (entry v : Json) : Prop := ∃ type, (type = "image" ∨ type = "video") ∧
  entry.get? "type" = some (.str type) ∧ entry.get? type = some v ∧ v.isTruthy = true

def HasEntry (item : Json) (i : Nat) (entry : Json) : Prop := ∃ entries : List Json,
  itemAt item "carouselMedia" = some (.arr entries) ∧ entries[i]? = some entry

/-- The node and the step tell of one item. -/
structure Depicts (item : Json) (n : Node) (t : Step) : Prop where
  id : n.id = t.id
  name : ∀ key ∈ ["label", "messageName"], n.data.get? key = t.write.canonical.get? "messageName" ∧
    n.data.get? key = (item.at? "messageName" 0).bind Json.given
  delay : n.data.get? "delay" = t.write.canonical.get? "delay" ∧
    n.data.get? "delay" = (item.at? "delay" 2).bind Json.given
  template : ∀ p ∈ [("template", "templateId"), ("dynamic_mapping", "dynamic_mapping"),
      ("product_sets", "product_sets")],
    n.data.get? p.1 = dataAt t p.2 ∧ n.data.get? p.1 = (itemAt item p.2).bind Json.given
  noMedia : n.data.get? "media" = none ↔ itemAt item "media" = none ∨ itemAt item "media" = some .null
  media : ∀ media, itemAt item "media" = some media → media ≠ .null →
    ∃ shown, n.data.get? "media" = some shown ∧ Shows media shown
  carousel : ∃ shown : Json.Object, n.data.get? "carouselMedia" = some (.obj shown) ∧
    ∀ key v, shown.get? key = some v ↔
      ∃ i entry, HasEntry item i entry ∧ key = Text.decimal i ∧ RefersTo entry v

/-! ### Media -/

section Media
variable {media entry v : Json} {entries : List Json} {key : String}

theorem shownMedia_eq (media : Json) : shownMedia media =
    (((media.get? "image").filter Json.isTruthy).or ((media.get? "video").filter Json.isTruthy)).getD media := by
  rw [shownMedia, List.filterMap_cons, List.filterMap_cons, List.filterMap_nil]
  -- A reference that is held but not set is passed over like one that is not held.
  cases media.get? "image" with
  | none =>
    cases media.get? "video" with
    | none => rfl
    | some video => cases hset : video.isTruthy <;> simp [hset, Option.filter]
  | some image =>
    cases media.get? "video" with
    | none => cases hset : image.isTruthy <;> simp [hset, Option.filter]
    | some video => cases hset : image.isTruthy <;> cases hset' : video.isTruthy <;> simp [hset, hset', Option.filter]

theorem shows_shownMedia (media : Json) : Shows media (shownMedia media) := by
  rw [shownMedia_eq]
  cases himage : (media.get? "image").filter Json.isTruthy with
  | some image =>
    obtain ⟨hget, hset⟩ := Option.filter_eq_some_iff.1 himage
    exact .image hget hset
  | none =>
    have himage := Option.filter_eq_none_iff.1 himage
    cases hvideo : (media.get? "video").filter Json.isTruthy with
    | some video =>
      obtain ⟨hget, hset⟩ := Option.filter_eq_some_iff.1 hvideo
      exact .video (by simpa using himage) hget hset
    | none =>
      have hvideo := Option.filter_eq_none_iff.1 hvideo
      exact .whole (by simpa using himage) (by simpa using hvideo)

theorem isCanonical_shownMedia (h : media.IsCanonical) : (shownMedia media).IsCanonical := by
  have hshows := shows_shownMedia media
  generalize shownMedia media = shown at hshows
  cases hshows with
  | image hv _ => exact h.of_get? hv
  | video _ hv _ => exact h.of_get? hv
  | whole _ _ => exact h

theorem carouselReference_eq_some_iff : carouselReference entry = some v ↔ RefersTo entry v := by
  unfold carouselReference
  constructor
  · intro h
    split at h
    · cases h
    · next type htype =>
      split at h
      · next hkind =>
        obtain ⟨w, hw, hstr⟩ := Option.bind_eq_some_iff.1 htype
        obtain ⟨hget, hset⟩ := Option.filter_eq_some_iff.1 h
        refine ⟨type, hkind, ?_, hget, hset⟩
        cases w <;> cases hstr
        exact hw
      · cases h
  · rintro ⟨type, hkind, htype, hget, hset⟩
    rw [htype, Option.bind_some, Json.str?]
    exact (if_pos hkind).trans (Option.filter_eq_some_iff.2 ⟨hget, hset⟩)

theorem mem_carouselReferences_iff : (key, v) ∈ carouselReferences entries ↔
    ∃ i entry, entries[i]? = some entry ∧ key = Text.decimal i ∧ RefersTo entry v := by
  simp only [carouselReferences, List.mem_filterMap, Prod.exists, List.mem_zipIdx_iff_getElem?, Option.map_eq_some_iff,
    Prod.mk.injEq, carouselReference_eq_some_iff]
  constructor
  · rintro ⟨entry, i, hentry, _, hrefers, rfl, rfl⟩
    exact ⟨i, entry, hentry, rfl, hrefers⟩
  · rintro ⟨i, entry, hentry, rfl, hrefers⟩
    exact ⟨entry, i, hentry, v, hrefers, rfl, rfl⟩

theorem nodup_keys_carouselReferences (entries : List Json) : ((carouselReferences entries).map (·.1)).Nodup := by
  have hpositions : entries.zipIdx.Pairwise fun p q => p.2 ≠ q.2 := by
    rw [← List.pairwise_map, List.zipIdx_map_snd]
    exact List.nodup_range'
  rw [List.Nodup, List.pairwise_map, carouselReferences, List.pairwise_filterMap]
  refine hpositions.imp fun hne a ha b hb heq => hne ?_
  obtain ⟨_, -, rfl⟩ := Option.map_eq_some_iff.1 ha
  obtain ⟨_, -, rfl⟩ := Option.map_eq_some_iff.1 hb
  exact Text.decimal_inj.1 heq

/-- Under a position stands what the entry there refers to. Positions do not repeat, so no entry hides another. -/
theorem get?_carouselReferences (h : ∀ entry ∈ entries, entry.IsCanonical) :
    Json.Object.get? (Json.Object.ofList (Json.canonicalFields (carouselReferences entries))) key = some v ↔
      ∃ i entry, entries[i]? = some entry ∧ key = Text.decimal i ∧ RefersTo entry v := by
  rw [Json.Object.get?_canonical (nodup_keys_carouselReferences entries), ← mem_carouselReferences_iff,
    Option.map_eq_some_iff]
  have hcanonical : ∀ w, (key, w) ∈ carouselReferences entries → w.canonical = w := by
    intro w hw
    obtain ⟨i, entry, hentry, -, _, -, -, hget, -⟩ := mem_carouselReferences_iff.1 hw
    exact Json.canonical_eq_self ((h entry (List.mem_of_getElem? hentry)).of_get? hget)
  constructor
  · rintro ⟨w, hw, rfl⟩
    have hmem := Json.Object.mem_of_get? hw
    rwa [hcanonical w hmem]
  · intro hmem
    exact ⟨v, Json.Object.get?_of_mem (nodup_keys_carouselReferences entries) hmem, hcanonical v hmem⟩

end Media

/-! ### Descriptors and items -/

/-- What a template holds for its fields, of what is held under their keys. -/
structure Template.Holds (t : Template) (held : String → Option Json) : Prop where
  id : t.id = (held "templateId").bind Json.given
  media : t.media = (held "media").bind Json.given
  mapping : t.mapping = (held "dynamic_mapping").bind Json.given
  productSets : t.productSets = (held "product_sets").bind Json.given
  carousel : t.carousel = (held "carouselMedia").bind Json.given

section Items
variable {item : Json} {fields : Json.Object} {t : Template} {d : Descriptor}

theorem itemAt_of_data (h : item.at? "data" 3 = some (.obj fields)) : itemAt item = fields.get? := by
  funext key
  rw [itemAt, h, Option.bind_some, Json.get?]

theorem isCanonical_itemAt (hv : item.IsCanonical) {key : String} {v : Json} (h : itemAt item key = some v) :
    v.IsCanonical := by
  obtain ⟨data, hdata, hget⟩ := Option.bind_eq_some_iff.1 h
  exact (hv.of_at? hdata).of_get? hget

theorem holds_of_read (h : Descriptor.record.read item = .ok d) : d.template.Holds (itemAt item) := by
  obtain ⟨fields, hdata, hread⟩ := exists_fields_of_read h
  generalize d.template = t at hread
  obtain ⟨_, ⟨_, _, ⟨_, _, ⟨_, _, ⟨_, _, ⟨_, _, ⟨_, _, rfl, hid, rfl⟩, hmedia, rfl⟩, hmapping, rfl⟩, hproductSets,
    rfl⟩, hcarousel, rfl⟩, -, rfl⟩, rfl⟩ := (OpenRecord.read_obj_eq_ok_iff (r := Template.record) (by decide)).1 hread
  rw [itemAt_of_data hdata]
  exact ⟨Field.eq_given_of_reads rfl rfl hid, Field.eq_given_of_reads rfl rfl hmedia,
    Field.eq_given_of_reads rfl rfl hmapping, Field.eq_given_of_reads rfl rfl hproductSets,
    Field.eq_given_of_reads rfl rfl hcarousel⟩

theorem name_of_read (h : Descriptor.record.read item = .ok d) :
    d.name.map .str = (item.at? "messageName" 0).bind Json.given := by
  obtain ⟨_, _, ⟨_, _, ⟨_, _, ⟨_, _, rfl, hname, rfl⟩, -, rfl⟩, -, rfl⟩, -, rfl⟩ :=
    Record.reads_of_read (r := Descriptor.record) rfl h
  exact Field.map_write_of_reads rfl rfl (fun v s hread => (Codec.read_text_eq_ok_iff.1 hread).symm) hname

theorem delay_of_read (h : Descriptor.record.read item = .ok d) :
    d.delay = (item.at? "delay" 2).bind Json.given := by
  obtain ⟨_, _, ⟨_, _, ⟨_, _, ⟨_, _, rfl, -, rfl⟩, -, rfl⟩, hdelay, rfl⟩, -, rfl⟩ :=
    Record.reads_of_read (r := Descriptor.record) rfl h
  exact Field.eq_given_of_reads rfl rfl hdelay

/-- Linking touches the options alone. -/
theorem dataAt_step (hv : item.IsCanonical) (h : Descriptor.record.read item = .ok d) (id : String)
    (target : List String) {key : String}
    (hkey : key ∈ ["templateId", "media", "dynamic_mapping", "product_sets", "carouselMedia"]) :
    dataAt (d.step id target) key = (itemAt item key).bind Json.given := by
  obtain ⟨fields, hdata, hread⟩ := exists_fields_of_read h
  rw [dataAt, d.get?_data_step, Option.bind_some, Template.encode_link (hv.of_at? hdata) hread target, Json.get?,
    Json.Object.get?_edit, itemAt_of_data hdata]
  · simp only [List.mem_cons, List.not_mem_nil, or_false] at hkey
    rcases hkey with rfl | rfl | rfl | rfl | rfl <;> exact Option.map_id'
  · rw [Template.keys_edits]
    decide

theorem hasEntry_iff_of_carousel (h : t.carousel = (itemAt item "carouselMedia").bind Json.given) (i : Nat)
    (entry : Json) : ((t.carousel.bind Json.items?).getD [])[i]? = some entry ↔ HasEntry item i entry := by
  rw [h, HasEntry]
  cases itemAt item "carouselMedia" with
  | none => simp
  | some held => cases held <;> simp [Json.given, Json.items?]

theorem get?_data_node (d : Descriptor) (l : Layout) (i : Nat) (id key : String) :
    (d.node l i id).data.get? key = (d.shown key).map Json.canonical := d.get?_data key

theorem exists_shown_carousel (hv : item.IsCanonical) (h : Descriptor.record.read item = .ok d) (l : Layout) (i : Nat)
    (id : String) : ∃ shown : Json.Object, (d.node l i id).data.get? "carouselMedia" = some (.obj shown) ∧
      ∀ key v, shown.get? key = some v ↔
        ∃ i entry, HasEntry item i entry ∧ key = Text.decimal i ∧ RefersTo entry v := by
  have hentries := hasEntry_iff_of_carousel (holds_of_read h).carousel
  generalize hcarousel : (d.template.carousel.bind Json.items?).getD [] = entries at hentries
  have hshown : d.shown "carouselMedia" = some (.obj (carouselReferences entries)) := by
    simp [Descriptor.shown, hcarousel]
  have hcanonical : ∀ entry ∈ entries, entry.IsCanonical := by
    intro entry hentry
    obtain ⟨i, hi⟩ := List.mem_iff_getElem?.1 hentry
    obtain ⟨held, hcarousel, hi⟩ := (hentries i entry).1 hi
    exact Json.isCanonical_arr_iff.1 (isCanonical_itemAt hv hcarousel) entry (List.mem_of_getElem? hi)
  refine ⟨Json.Object.ofList (Json.canonicalFields (carouselReferences entries)), ?_, fun key v => ?_⟩
  · rw [get?_data_node, hshown, Option.map_some, Json.canonical]
  · simp only [get?_carouselReferences hcanonical, hentries]

theorem depicts_of_read (hv : item.IsCanonical) (h : Descriptor.record.read item = .ok d) (l : Layout) (i : Nat)
    (id : String) (target : List String) : Depicts item (d.node l i id) (d.step id target) where
  id := rfl
  name key hkey := by
    have hshown : (d.shown key).map Json.canonical = d.name.map .str := by
      simp only [List.mem_cons, List.not_mem_nil, or_false] at hkey
      rcases hkey with rfl | rfl <;> exact Option.map_map ..
    have hsent : (d.sent id target "messageName").map Json.canonical = d.name.map .str := Option.map_map ..
    rw [get?_data_node, d.get?_write_step, hshown, hsent]
    exact ⟨rfl, name_of_read h⟩
  delay := by
    have hshown : d.shown "delay" = d.delay := rfl
    have hsent : d.sent id target "delay" = d.delay := rfl
    rw [get?_data_node, d.get?_write_step, hshown, hsent, delay_of_read h]
    exact ⟨rfl, Json.map_canonical_given fun v hget => hv.of_at? hget⟩
  template p hp := by
    have hholds := holds_of_read h
    have hshown : d.shown p.1 = (itemAt item p.2).bind Json.given ∧
        p.2 ∈ ["templateId", "media", "dynamic_mapping", "product_sets", "carouselMedia"] := by
      simp only [List.mem_cons, List.not_mem_nil, or_false] at hp
      rcases hp with rfl | rfl | rfl
      · exact ⟨hholds.id, by simp⟩
      · exact ⟨hholds.mapping, by simp⟩
      · exact ⟨hholds.productSets, by simp⟩
    rw [get?_data_node, hshown.1, dataAt_step hv h id target hshown.2,
      Json.map_canonical_given fun v hget => isCanonical_itemAt hv hget]
    exact ⟨rfl, rfl⟩
  noMedia := by
    have hshown : (d.shown "media").map Json.canonical = none ↔ d.template.media = none := by
      simp [Descriptor.shown]
    rw [get?_data_node, hshown, (holds_of_read h).media, Json.bind_given_eq_none_iff]
  media media hmedia hne := by
    have hget : d.template.media = some media :=
      (holds_of_read h).media.trans (Json.bind_given_eq_some_iff.2 ⟨hmedia, hne⟩)
    have hshown : d.shown "media" = some (shownMedia media) := by
      simp [Descriptor.shown, hget]
    refine ⟨shownMedia media, ?_, shows_shownMedia media⟩
    rw [get?_data_node, hshown, Option.map_some,
      Json.canonical_eq_self (isCanonical_shownMedia (isCanonical_itemAt hv hmedia))]
  carousel := exists_shown_carousel hv h l i id

end Items

/-! ### Campaigns -/

/-- The nodes of a flow, up to its anchor, and its steps tell of the items that describe a step, pair by pair. -/
structure Depicted (items : List Json) (f : Flow) : Prop where
  anchor : f.nodes.length = f.steps.length + 1
  pairs : List.Forall₂ (fun item p => Depicts item p.1 p.2) (items.filter describes) (f.nodes.zip f.steps)

section Campaigns
variable {items : List Json} {ds : List Descriptor} {drawn : List String} {l : Layout}

theorem forall₂_described (items : List Json) :
    List.Forall₂ (fun item d => Descriptor.record.read item = .ok d) (items.filter describes) (described items) := by
  induction items with
  | nil => exact .nil
  | cons item items ih =>
    rw [List.filter_cons, described, List.filterMap_cons, ← described, describes]
    cases hread : Descriptor.record.read item with
    | error e => exact ih
    | ok d => exact .cons hread ih

/-- The nodes and the steps are made in one pass each, and go with the descriptors; a node behind has no step. -/
theorem forall₂_depicts (h : List.Forall₂ (fun item d => Descriptor.record.read item = .ok d) items ds)
    (hitems : ∀ v ∈ items, v.IsCanonical) (hlen : ds.length = drawn.length) (i : Nat) (behind : List Node) :
    List.Forall₂ (fun item p => Depicts item p.1 p.2) items
      ((nodes l i ds drawn ++ behind).zip (steps ds drawn)) := by
  -- Both passes go on by one descriptor and one id; the anchor is met only when the steps are used up.
  induction h generalizing i drawn with
  | nil =>
    have hsteps : steps [] drawn = [] := by cases drawn <;> rfl
    rw [hsteps, List.zip_nil_right]
    exact .nil
  | cons hread _ ih =>
    obtain ⟨hitem, hrest⟩ := List.forall_mem_cons.1 hitems
    cases drawn with
    | nil => cases hlen
    | cons id drawn =>
      rw [nodes, steps, List.cons_append, List.zip_cons_cons]
      exact .cons (depicts_of_read hitem hread l i id _) (ih hrest (Nat.succ.inj hlen) (i + 1))

theorem length_nodes (l : Layout) (i : Nat) (h : ds.length = drawn.length) :
    (nodes l i ds drawn).length = drawn.length := by
  rw [← congrArg List.length (ids_nodes l i h), List.length_map]

theorem length_steps (h : ds.length = drawn.length) : (steps ds drawn).length = drawn.length := by
  induction drawn generalizing ds with
  | nil => cases ds <;> rfl
  | cons id drawn ih =>
    cases ds with
    | nil => cases h
    | cons d ds => rw [steps, List.length_cons, List.length_cons, ih (Nat.succ.inj h)]

theorem depicted_of_sequence {source rest : IdSource} {f : Flow} (hitems : ∀ v ∈ items, v.IsCanonical)
    (h : (ofItems items l).sequence source = .ok (f, rest)) : Depicted items f := by
  obtain ⟨drawn, last, anchor, hlen, -, rfl⟩ := eq_flowOf_of_sequence h
  have hnodes := length_nodes l 0 hlen
  have hsteps := length_steps hlen
  constructor
  · rw [flowOf, List.length_append, List.length_singleton]
    exact congrArg (· + 1) (hnodes.trans hsteps.symm)
  · exact forall₂_depicts (forall₂_described items) (fun v hv => hitems v (List.mem_filter.1 hv).1) hlen 0 _

end Campaigns

/-- A descriptor behind an item that does not read. Its media have no image that is set, and of the entries of its
    carousel the second is no image and no video. -/
def showcase : List Json :=
  [.str "draft",
   .obj
    [("data", .obj
      [("carouselMedia", .arr
        [.obj [("image", .str "front"), ("type", .str "image")], .obj [("text", .str "back"), ("type", .str "text")],
         .obj [("type", .str "video"), ("video", .str "side")]]),
       ("media", .obj [("image", .str ""), ("video", .str "tour")]), ("product_sets", .null),
       ("templateId", .str "spring")]),
     ("delay", .null), ("messageName", .str "Spring")]]

theorem depicted_showcase : (∀ v ∈ showcase, v.IsCanonical) ∧ ∃ f rest,
    (ofItems showcase {}).sequence ⟨Text.decimal, 0⟩ = .ok (f, rest) ∧ Depicted showcase f := by
  have hitems : ∀ v ∈ showcase, v.IsCanonical := by
    simp only [showcase, List.forall_mem_cons, List.not_mem_nil, false_implies, implies_true, Json.IsCanonical,
      Json.IsCanonicalItems, Json.IsCanonicalFields, Json.Object.Ascending]
    decide
  have hflow : (ofItems showcase {}).sequence ⟨Text.decimal, 0⟩ = .ok (_, _) := rfl
  exact ⟨hitems, _, _, hflow, depicted_of_sequence hitems hflow⟩

example : carouselReferences [.obj [("image", .str "front"), ("type", .str "image")], .null,
    .obj [("type", .str "video"), ("video", .str "side")]] = [("0", .str "front"), ("2", .str "side")] := rfl
end Campaign
end MessageFlow
