import MessageFlow.Proofs.Compile.Stripping
import MessageFlow.Proofs.Scaffold.Recompile
import MessageFlow.Proofs.Schema.Stability

/-! # Scaffolding what was compiled

What a step sends has the shape of a message specification. Scaffolded again by its own type and sub type, and
compiled, it is sent once more, except that it leads nowhere. This holds of every step whose content a specification
can say: a head of media is that of an image, a video or a document, the head of a list of products is not empty, and
a template is given by its name alone. -/

namespace MessageFlow

/-! ### Reading what is written -/

namespace Json

theorem canonical_obj_congr {a b : List (String × Json)}
    (h : List.Forall₂ (fun f g => f.1 = g.1 ∧ f.2.canonical = g.2.canonical) a b) :
    (obj a).canonical = (obj b).canonical := by
  have hfields : canonicalFields a = canonicalFields b := by
    rw [canonicalFields_eq_map, canonicalFields_eq_map]
    induction h with
    | nil => rfl
    | cons hf _ ih => rw [List.map_cons, List.map_cons, ih, hf.1, hf.2]
  rw [canonical, canonical, hfields]

end Json

/-- Fields that are written under distinct names are read one by one. -/
theorem Record.read_canonical {σ : Type} {r : Record σ} (hr : r.schema.isPlain) {l : List (String × Json)}
    (hkeys : (l.map (·.1)).Nodup) {x : σ}
    (h : r.schema.Reads (fun key _ => (l.lookup key).map Json.canonical) x) :
    r.read (Json.obj l).canonical = .ok x := by
  have hheld : (Json.obj (Json.Object.ofList (Json.canonicalFields l))).at? =
      fun key _ => (l.lookup key).map Json.canonical := by
    funext key place
    exact Json.Object.get?_canonical hkeys key
  rw [Json.canonical]
  refine (read_obj_eq_ok_iff hr).2 ?_
  rw [hheld]
  exact h

theorem OpenRecord.read_canonical {σ : Type} {r : OpenRecord σ} (hr : r.schema.isPlain) {l : List (String × Json)}
    (hkeys : (l.map (·.1)).Nodup) {y : Json.Object → σ}
    (h : r.schema.Reads (fun key _ => (l.lookup key).map Json.canonical) y) :
    ∃ rest, r.read (Json.obj l).canonical = .ok (y rest) ∧ ∀ key, Json.Object.get? rest key =
      if key ∈ r.schema.names then none else (l.lookup key).map Json.canonical := by
  have hheld : (Json.obj (Json.Object.ofList (Json.canonicalFields l))).at? =
      fun key _ => (l.lookup key).map Json.canonical := by
    funext key place
    exact Json.Object.get?_canonical hkeys key
  rw [← hheld] at h
  rw [Json.canonical]
  refine ⟨_, read_obj_of_readFields ((Schema.readFields_eq_read_iff hr).2 h), fun key => ?_⟩
  rw [Json.Object.get?_without, Json.Object.get?_canonical hkeys]

theorem Codec.read_list_canonical {α β : Type} {c : Codec α} {write : β → Json} {f : β → α}
    (h : ∀ b, c.read (write b).canonical = .ok (f b)) (xs : List β) :
    (Codec.list c).read (Json.arr (xs.map write)).canonical = .ok (xs.map f) := by
  refine read_list_eq_ok_iff.2 ⟨_, Json.canonical_arr _, ?_⟩
  rw [List.map_map, List.forall₂_map_left_iff, List.forall₂_map_right_iff]
  exact List.forall₂_same.2 fun b _ => h b

/-- An optional text reads from what is written for it. -/
theorem Field.reads_optional_ofText (key : String) (o : Option String) :
    (Field.optional key .text).Reads (some (Json.ofText o).canonical) o := by
  cases o <;> rfl

/-- An optional value of no type of its own reads from what is written for it, unless it is null. -/
theorem Field.reads_optional_ofOption (key : String) (o : Option Json) :
    (Field.optional key .json).Reads (some (Json.ofOption o).canonical) (Json.ofOption o).canonical.given := by
  show (Codec.optional .json).read _ = .ok _
  cases (Json.ofOption o).canonical <;> rfl

namespace Spec

theorem Body.read_canonical (body : String) :
    Body.record.read (Json.obj [("text", .str body)]).canonical = .ok ⟨body⟩ :=
  Record.read_canonical rfl (by simp) ⟨_, body, rfl, rfl, rfl⟩

theorem TextHead.read_canonical (text : Option String) :
    TextHead.record.read (Header.text text).write.canonical = .ok ⟨text⟩ :=
  Record.read_canonical rfl (by simp) ⟨_, text, rfl, Field.reads_optional_ofText "text" text, rfl⟩

/-- A head that is text, or media of a type that a specification can declare. -/
def Declares : Header → Prop
  | .text _ => True
  | .media m => m.type = "image" ∨ m.type = "video" ∨ m.type = "document"

theorem Head.read_canonical {header : Header} (h : Declares header) :
    ∃ s, Head.record.read header.write.canonical = .ok s ∧ (Scaffold.headData s).canonical = header.write.canonical := by
  cases header with
  | text words =>
    obtain ⟨rest, hread, -⟩ := OpenRecord.read_canonical (r := Head.record) rfl
      (l := [("type", .str "text"), ("text", .ofText words)]) (by simp)
      ⟨_, words, ⟨_, "text", rfl, rfl, rfl⟩, Field.reads_optional_ofText "text" words, rfl⟩
    exact ⟨_, hread, rfl⟩
  | media m =>
    obtain ⟨type, media⟩ := m
    have hmedia : type ∈ ["image", "video", "document"] := by simpa [Declares] using h
    have hname : type ∉ Head.record.schema.names := by
      rcases h with rfl | rfl | rfl <;> decide
    have htext : type ≠ "text" := fun heq => hname (heq ▸ by decide)
    have htype : type ≠ "type" := fun heq => hname (heq ▸ by decide)
    have hwords : (Field.optional "text" .text).Reads
        (([("type", Json.str type), (type, Json.ofOption media)].lookup "text").map Json.canonical) none := by
      have hnone : [("type", Json.str type), (type, Json.ofOption media)].lookup "text" = none := by
        simp [List.lookup_cons, beq_eq_false_iff_ne.2 htext.symm]
      rw [hnone]
      rfl
    have hself : [("type", Json.str type), (type, Json.ofOption media)].lookup type = some (.ofOption media) := by
      simp [List.lookup_cons, beq_eq_false_iff_ne.2 htype]
    obtain ⟨rest, hread, hrest⟩ := OpenRecord.read_canonical (r := Head.record) rfl
      (l := [("type", .str type), (type, .ofOption media)]) (by simp [htype.symm])
      ⟨_, none, ⟨_, type, rfl, rfl, rfl⟩, hwords, rfl⟩
    refine ⟨_, hread, ?_⟩
    have hheld := hrest type
    rw [if_neg hname, hself, Option.map_some] at hheld
    rw [Scaffold.headData, if_neg htext, if_pos hmedia, hheld]
    exact Json.canonical_obj_congr (.cons ⟨rfl, rfl⟩
      (.cons ⟨rfl, (Json.canonical_canonical _).trans (Json.canonical_canonical _)⟩ .nil))

theorem Row.read_canonical (row : OptionRow) : Row.record.read row.write.canonical = .ok ⟨row.title⟩ :=
  Record.read_canonical rfl (by simp) ⟨_, row.title, rfl, Field.reads_optional_ofText "title" row.title, rfl⟩

theorem ReplyButton.read_canonical (row : OptionRow) :
    ReplyButton.record.read (Content.writeReply row).canonical = .ok ⟨⟨row.title⟩⟩ := by
  have hreply : Reply.record.read row.write.canonical = .ok ⟨row.title⟩ :=
    Record.read_canonical rfl (by simp) ⟨_, row.title, rfl, Field.reads_optional_ofText "title" row.title, rfl⟩
  exact Record.read_canonical rfl (by simp) ⟨_, ⟨row.title⟩, rfl, hreply, rfl⟩

theorem Text.read_canonical (body : String) :
    Text.record.read (Content.text body).write.canonical = .ok ⟨⟨body⟩⟩ :=
  Record.read_canonical rfl (by simp [Content.writeBody]) ⟨_, ⟨body⟩, rfl, Body.read_canonical body, rfl⟩

theorem Media.read_canonical (media : Json) (caption : Option String) :
    Media.record.read (Content.attachment media caption).write.canonical = .ok ⟨media.canonical, caption⟩ := by
  cases caption with
  | none => exact Record.read_canonical rfl (by simp) ⟨_, none, ⟨_, media.canonical, rfl, rfl, rfl⟩, rfl, rfl⟩
  | some words => exact Record.read_canonical rfl (by simp) ⟨_, some words, ⟨_, media.canonical, rfl, rfl, rfl⟩, rfl, rfl⟩

theorem Menu.read_canonical (header : Option String) (body button : String) (rows : List OptionRow) :
    Menu.record.read (Content.list header body button rows).write.canonical =
      .ok ⟨⟨header⟩, ⟨body⟩, ⟨button, [⟨rows.map fun r => ⟨r.title⟩⟩]⟩⟩ := by
  have hrows : (Codec.list Row.record.codec).read (Json.arr (rows.map OptionRow.write)).canonical =
      .ok (rows.map fun r => ⟨r.title⟩) := Codec.read_list_canonical Row.read_canonical rows
  have hsection : Section.record.read (Json.obj [("title", .str button), ("rows", .arr (rows.map OptionRow.write))]).canonical =
      .ok ⟨rows.map fun r => ⟨r.title⟩⟩ := Record.read_canonical rfl (by simp) ⟨_, _, rfl, hrows, rfl⟩
  have hsections : (Codec.list Section.record.codec).read (Json.arr [Json.obj [("title", .str button),
      ("rows", .arr (rows.map OptionRow.write))]]).canonical = .ok [⟨rows.map fun r => ⟨r.title⟩⟩] := by
    refine Codec.read_list_eq_ok_iff.2 ⟨_, Json.canonical_arr _, .cons hsection .nil⟩
  have haction : MenuAction.record.read (Json.obj [("button", .str button), ("sections", .arr [Json.obj
      [("title", .str button), ("rows", .arr (rows.map OptionRow.write))]])]).canonical =
      .ok ⟨button, [⟨rows.map fun r => ⟨r.title⟩⟩]⟩ :=
    Record.read_canonical rfl (by simp) ⟨_, _, ⟨_, button, rfl, rfl, rfl⟩, hsections, rfl⟩
  exact Record.read_canonical rfl (by simp [Content.writeBody])
    ⟨_, _, ⟨_, _, ⟨_, _, rfl, TextHead.read_canonical header, rfl⟩, Body.read_canonical body, rfl⟩, haction, rfl⟩

theorem Buttons.read_canonical {header : Header} (h : Declares header) (body : String) (rows : List OptionRow) :
    ∃ s, Buttons.record.read (Content.buttons header body rows).write.canonical =
        .ok ⟨s, ⟨body⟩, ⟨rows.map fun r => ⟨⟨r.title⟩⟩⟩⟩ ∧
      (Scaffold.headData s).canonical = header.write.canonical := by
  obtain ⟨s, hs, hdata⟩ := Head.read_canonical h
  refine ⟨s, ?_, hdata⟩
  have hrows : (Codec.list ReplyButton.record.codec).read (Json.arr (rows.map Content.writeReply)).canonical =
      .ok (rows.map fun r => ⟨⟨r.title⟩⟩) := Codec.read_list_canonical ReplyButton.read_canonical rows
  have haction : ButtonsAction.record.read (Json.obj [("buttons", .arr (rows.map Content.writeReply))]).canonical =
      .ok ⟨rows.map fun r => ⟨⟨r.title⟩⟩⟩ := Record.read_canonical rfl (by simp) ⟨_, _, rfl, hrows, rfl⟩
  exact Record.read_canonical rfl (by simp [Content.writeBody])
    ⟨_, _, ⟨_, _, ⟨_, s, rfl, hs, rfl⟩, Body.read_canonical body, rfl⟩, haction, rfl⟩

theorem Launch.read_canonical {header : Header} (h : Declares header) (body : String) (flow : Option Json)
    (button : Option String) (target : List String) :
    ∃ s, Launch.record.read (Content.launch header body flow button target).write.canonical =
        .ok ⟨s, ⟨body⟩, button, ⟨(Json.ofOption flow).canonical.given⟩⟩ ∧
      (Scaffold.headData s).canonical = header.write.canonical := by
  obtain ⟨s, hs, hdata⟩ := Head.read_canonical h
  refine ⟨s, ?_, hdata⟩
  have haction : LaunchAction.record.read (Json.obj [("flow", .ofOption flow)]).canonical =
      .ok ⟨(Json.ofOption flow).canonical.given⟩ :=
    Record.read_canonical rfl (by simp) ⟨_, _, rfl, Field.reads_optional_ofOption "flow" flow, rfl⟩
  exact Record.read_canonical rfl (by simp [Content.writeBody])
    ⟨_, _, ⟨_, _, ⟨_, _, ⟨_, s, rfl, hs, rfl⟩, Body.read_canonical body, rfl⟩,
      Field.reads_optional_ofText "btnText" button, rfl⟩, haction, rfl⟩

theorem CatalogMessage.read_canonical (body : String) :
    CatalogMessage.record.read (Content.catalogMessage body).write.canonical = .ok ⟨⟨body⟩⟩ :=
  Record.read_canonical rfl (by simp [Content.writeBody]) ⟨_, ⟨body⟩, rfl, Body.read_canonical body, rfl⟩

theorem Product.read_canonical (body : String) (catalog item : Option Json) :
    Product.record.read (Content.product body catalog item).write.canonical =
      .ok ⟨⟨body⟩, ⟨(Json.ofOption catalog).canonical.given, (Json.ofOption item).canonical.given⟩⟩ := by
  have haction : ProductAction.record.read (Json.obj [("catalog_id", .ofOption catalog),
      ("product_retailer_id", .ofOption item)]).canonical =
      .ok ⟨(Json.ofOption catalog).canonical.given, (Json.ofOption item).canonical.given⟩ :=
    Record.read_canonical rfl (by simp) ⟨_, _, ⟨_, _, rfl, Field.reads_optional_ofOption "catalog_id" catalog, rfl⟩,
      Field.reads_optional_ofOption "product_retailer_id" item, rfl⟩
  exact Record.read_canonical rfl (by simp [Content.writeBody])
    ⟨_, _, ⟨_, _, rfl, Body.read_canonical body, rfl⟩, haction, rfl⟩

theorem ProductList.read_canonical (body : String) (header button : Option String) (catalog productSets : Option Json) :
    ProductList.record.read (Content.productList body header button catalog productSets).write.canonical =
      .ok ⟨some ⟨header⟩, ⟨body⟩, ⟨button, (Json.ofOption catalog).canonical.given,
        (Json.ofOption productSets).canonical.given⟩⟩ := by
  have haction : ProductListAction.record.read (Json.obj [("btn_text", .ofText button), ("catalog_id", .ofOption catalog),
      ("product_set_ids", .ofOption productSets)]).canonical =
      .ok ⟨button, (Json.ofOption catalog).canonical.given, (Json.ofOption productSets).canonical.given⟩ :=
    Record.read_canonical rfl (by simp) ⟨_, _, ⟨_, _, ⟨_, _, rfl, Field.reads_optional_ofText "btn_text" button, rfl⟩,
      Field.reads_optional_ofOption "catalog_id" catalog, rfl⟩,
      Field.reads_optional_ofOption "product_set_ids" productSets, rfl⟩
  have hheader : (Field.optional "header" TextHead.record.codec).Reads (some (Header.text header).write.canonical)
      (some ⟨header⟩) := by
    refine Codec.read_optional_eq_ok_iff.2 (Or.inr ⟨?_, _, TextHead.read_canonical header, rfl⟩)
    simp [Header.write, Json.canonical]
  exact Record.read_canonical rfl (by simp [Content.writeBody])
    ⟨_, _, ⟨_, _, ⟨_, _, rfl, hheader, rfl⟩, Body.read_canonical body, rfl⟩, haction, rfl⟩

theorem Template.read_canonical (id : Option Json) :
    Template.record.read (Content.template id none []).write.canonical =
      .ok ⟨(Json.ofOption id).canonical.given, none⟩ :=
  Record.read_canonical rfl (by simp) ⟨_, _, ⟨_, _, rfl, Field.reads_optional_ofOption "templateId" id, rfl⟩, rfl, rfl⟩

end Spec

/-! ### What a specification can say -/

def OptionRow.detach (r : OptionRow) : OptionRow := { r with target := [] }

/-- The content with every list of targets emptied. -/
def Content.detach : Content → Content
  | .trigger _ => .trigger []
  | .list header body button rows => .list header body button (rows.map OptionRow.detach)
  | .buttons header body rows => .buttons header body (rows.map OptionRow.detach)
  | .launch header body flow button _ => .launch header body flow button []
  | .template id media options => .template id media (options.map fun o => { o with target := [] })
  | content => content

namespace Scaffold
open Compile

/-- The id of the row is told by its title. -/
def Titled (r : OptionRow) : Prop := r.id = r.title.map OptionId.ofTitle

/-- The contents that specifications of each kind say in full, but for targets. -/
inductive Said : SingleKind → Content → Prop
  | text {body : String} : Said .text (.text body)
  | media {k : SingleKind} {media : Json} {caption : Option String} (hk : k = .image ∨ k = .video ∨ k = .document) :
    Said k (.attachment media caption)
  | list {header : Option String} {body button : String} {rows : List OptionRow} (hrows : ∀ r ∈ rows, Titled r) :
    Said .list (.list header body button rows)
  | button {header : Header} {body : String} {rows : List OptionRow} (hheader : Spec.Declares header)
      (hrows : ∀ r ∈ rows, Titled r) : Said .button (.buttons header body rows)
  | flow {header : Header} {body : String} {flow : Option Json} {button : Option String} {target : List String}
      (hheader : Spec.Declares header) : Said .flow (.launch header body flow button target)
  | catalogMessage {body : String} : Said .catalogMessage (.catalogMessage body)
  | product {body : String} {catalog item : Option Json} : Said .product (.product body catalog item)
  | productList {body : String} {header button : Option String} {catalog productSets : Option Json}
      (hheader : header ≠ some "") : Said .productList (.productList body header button catalog productSets)
  | template {id : Option Json} (hid : ∀ v, id = some v → v = .null ∨ ∃ name, v = .str name) :
    Said .template (.template id none [])

section Contents
variable {k : SingleKind} {x : Content} {spec : Json}

theorem map_optionData {rows : List OptionRow} (h : ∀ r ∈ rows, Titled r) (wrap : Json → Json) :
    (rows.map fun r => wrap (optionData r.title)) = rows.map fun r => wrap r.detach.write := by
  refine List.map_congr_left fun r hr => ?_
  rw [OptionRow.write, OptionRow.detach, h r hr]
  rfl

theorem canonical_given (v : Option Json) :
    (Json.ofOption (Json.ofOption v).canonical.given).canonical.canonical = (Json.ofOption v).canonical := by
  rw [Json.ofOption_given, Json.canonical_canonical, Json.canonical_canonical]

theorem exists_data_of_said (h : Said k x) : ∃ data, k.data x.write.canonical = .ok data := by
  cases h with
  | text => exact ⟨_, bind_eq_ok_iff.2 ⟨_, readSpec_eq_ok_iff.2 (Spec.Text.read_canonical _), rfl⟩⟩
  | @media k media caption hk =>
    have hread := readSpec_eq_ok_iff.2 (Spec.Media.read_canonical media caption)
    rcases hk with rfl | rfl | rfl <;> exact ⟨_, bind_eq_ok_iff.2 ⟨_, hread, rfl⟩⟩
  | list _ =>
    exact ⟨_, bind_eq_ok_iff.2 ⟨_, readSpec_eq_ok_iff.2 (Spec.Menu.read_canonical _ _ _ _),
      bind_eq_ok_iff.2 ⟨_, rfl, rfl⟩⟩⟩
  | button hheader _ =>
    obtain ⟨_, hread, -⟩ := Spec.Buttons.read_canonical hheader _ _
    exact ⟨_, bind_eq_ok_iff.2 ⟨_, readSpec_eq_ok_iff.2 hread, rfl⟩⟩
  | flow hheader =>
    obtain ⟨_, hread, -⟩ := Spec.Launch.read_canonical hheader _ _ _ _
    exact ⟨_, bind_eq_ok_iff.2 ⟨_, readSpec_eq_ok_iff.2 hread, rfl⟩⟩
  | catalogMessage => exact ⟨_, bind_eq_ok_iff.2 ⟨_, readSpec_eq_ok_iff.2 (Spec.CatalogMessage.read_canonical _), rfl⟩⟩
  | product => exact ⟨_, bind_eq_ok_iff.2 ⟨_, readSpec_eq_ok_iff.2 (Spec.Product.read_canonical _ _ _), rfl⟩⟩
  | productList _ =>
    exact ⟨_, bind_eq_ok_iff.2 ⟨_, readSpec_eq_ok_iff.2 (Spec.ProductList.read_canonical _ _ _ _ _), rfl⟩⟩
  | template _ => exact ⟨_, bind_eq_ok_iff.2 ⟨_, readSpec_eq_ok_iff.2 (Spec.Template.read_canonical _), rfl⟩⟩

/-- What is sent for a content given as a specification is the content again, and leads nowhere. -/
theorem canonical_eq_of_said (h : Said k x) {sent : Json} (hsent : Describes x.write.canonical k sent) :
    sent.canonical = x.detach.write.canonical := by
  cases h with
  | text =>
    cases hsent with
    | text hread =>
      cases (Spec.Text.read_canonical _).symm.trans hread
      rfl
    | media hk _ => simp at hk
  | @media _ media caption hk =>
    cases hsent with
    | media _ hread =>
      cases (Spec.Media.read_canonical _ _).symm.trans hread
      refine Json.canonical_obj_congr (.cons ⟨rfl, Json.canonical_canonical media⟩ ?_)
      exact List.forall₂_same.2 fun _ _ => ⟨rfl, rfl⟩
    | _ => simp at hk
  | list hrows =>
    cases hsent with
    | list hread hsections =>
      cases (Spec.Menu.read_canonical _ _ _ _).symm.trans hread
      cases hsections
      have hlines := map_optionData hrows id
      simp only [id] at hlines
      simp only [List.map_map, Function.comp_def, hlines, Content.detach, Content.write]
      rfl
    | media hk _ => simp at hk
  | button hheader hrows =>
    obtain ⟨s, hs, hdata⟩ := Spec.Buttons.read_canonical hheader _ _
    cases hsent with
    | button hread =>
      cases hs.symm.trans hread
      have hlines := map_optionData hrows fun v => .obj [("type", .str "reply"), ("reply", v)]
      simp only [List.map_map, Function.comp_def, hlines, Content.detach, Content.write]
      exact Json.canonical_obj_congr (.cons ⟨rfl, hdata⟩ (.cons ⟨rfl, rfl⟩ (.cons ⟨rfl, rfl⟩ .nil)))
    | media hk _ => simp at hk
  | @flow _ _ flow _ _ hheader =>
    obtain ⟨s, hs, hdata⟩ := Spec.Launch.read_canonical hheader _ _ _ _
    cases hsent with
    | flow hread =>
      cases hs.symm.trans hread
      refine Json.canonical_obj_congr (.cons ⟨rfl, hdata⟩ (.cons ⟨rfl, rfl⟩ (.cons ⟨rfl, ?_⟩
        (.cons ⟨rfl, rfl⟩ (.cons ⟨rfl, rfl⟩ .nil)))))
      exact Json.canonical_obj_congr (.cons ⟨rfl, canonical_given flow⟩ .nil)
    | media hk _ => simp at hk
  | catalogMessage =>
    cases hsent with
    | catalogMessage hread =>
      cases (Spec.CatalogMessage.read_canonical _).symm.trans hread
      rfl
    | media hk _ => simp at hk
  | @product _ catalog item =>
    cases hsent with
    | product hread =>
      cases (Spec.Product.read_canonical _ _ _).symm.trans hread
      refine Json.canonical_obj_congr (.cons ⟨rfl, rfl⟩ (.cons ⟨rfl, ?_⟩ .nil))
      exact Json.canonical_obj_congr (.cons ⟨rfl, canonical_given catalog⟩ (.cons ⟨rfl, canonical_given item⟩ .nil))
    | media hk _ => simp at hk
  | @productList _ header button catalog productSets hheader =>
    cases hsent with
    | productList hread =>
      cases (Spec.ProductList.read_canonical _ _ _ _ _).symm.trans hread
      -- An empty head would be read as none.
      have hwords : ((some (Spec.TextHead.mk header)).bind (·.text)).filter (· != "") = header := by
        cases header with
        | none => rfl
        | some words => simpa [Option.filter] using hheader
      simp only [hwords]
      refine Json.canonical_obj_congr (.cons ⟨rfl, rfl⟩ (.cons ⟨rfl, rfl⟩ (.cons ⟨rfl, ?_⟩ .nil)))
      exact Json.canonical_obj_congr (.cons ⟨rfl, rfl⟩ (.cons ⟨rfl, canonical_given catalog⟩
        (.cons ⟨rfl, canonical_given productSets⟩ .nil)))
    | media hk _ => simp at hk
  | @template id hid =>
    cases hsent with
    | template hread =>
      cases (Spec.Template.read_canonical _).symm.trans hread
      cases id with
      | none => rfl
      | some v => rcases hid v rfl with rfl | ⟨name, rfl⟩ <;> rfl
    | media hk _ => simp at hk

end Contents

/-! ### What nodes send -/

/-- The message is that of a node of the canvas. -/
def SentBy (c : Canvas) (s : Settings) (n : Node) (m : Message) : Prop :=
  n ∈ c.nodes ∧ ∃ k, s.kindOf n.type = some k ∧ Message.Sent (sort s n).node (plan c s).index k m

/-- The message of the node can be specified: it is of a kind that a specification can be of, and the node holds
    nothing that no specification can say. -/
structure Specifiable (n : Node) (m : Message) : Prop where
  kind : m.kind = .text ∨
    m.kind = .attachment ∧ (m.subKind = some "image" ∨ m.subKind = some "video" ∨ m.subKind = some "document") ∨
    m.kind = .interactive ∨ m.kind = .catalog ∨ m.kind = .template
  headType : m.subKind = some "button" ∨ m.subKind = some "flow" → ∀ v, n.data.at? "headerType" 0 = some v →
    v = .null ∨ ∃ type ∈ ["text", "image", "video", "document"], v = .str type
  title : m.subKind = some "product_list" → n.data.at? "catalog_header" 2 ≠ some (.str "")
  template : m.kind = .template → ∃ id, m.content = .template id none [] ∧
    ∀ v, id = some v → v = .null ∨ ∃ name, v = .str name

/-- The content of the message is a specification by which the message is sent again, and leads nowhere. -/
def Inverted (m : Message) (ids : IdSource) : Prop :=
  ∃ k flow rest compiled trigger own, Kind.ofRequest? m.kind.name m.subKind = some k ∧
    ofSpec k m.content.write.canonical ids = .ok (flow, rest) ∧ flow.canvas.compile {} = .ok compiled ∧
    compiled.steps = [.message trigger, .message own] ∧ trigger.kind = .triggers ∧
    own.kind = m.kind ∧ own.subKind = m.subKind ∧ own.content.write.canonical = m.content.detach.write.canonical

section Messages
variable {c : Canvas} {s : Settings} {f : Flow} {n : Node} {m : Message} {kind : MessageKind} {k : SingleKind}
  {ix : Index} {ids : IdSource}

theorem titled_rows {choices : List Form.Choice} {r : OptionRow} (h : r ∈ choices.map (·.row n.id ix)) : Titled r := by
  obtain ⟨choice, -, rfl⟩ := List.mem_map.1 h
  rfl

/-- A head of a type that is missing, or one of those that can be declared, can be declared. -/
theorem declares_ofParts {held : Option Json} {type words : Option String} {media : Option Json}
    (h : (Field.optional "headerType" .text).Reads held type)
    (hheld : ∀ v, held = some v → v = .null ∨ ∃ type ∈ ["text", "image", "video", "document"], v = .str type) :
    Spec.Declares (.ofParts type words media) := by
  cases held with
  | none =>
    cases h
    trivial
  | some v =>
    rcases hheld v rfl with rfl | ⟨name, hname, rfl⟩
    · cases h
      trivial
    · cases h
      simp only [List.mem_cons, List.not_mem_nil, or_false] at hname
      rcases hname with rfl | rfl | rfl | rfl
      · trivial
      · exact Or.inl rfl
      · exact Or.inr (Or.inl rfl)
      · exact Or.inr (Or.inr rfl)

theorem ne_some_empty {held : Option Json} {words : Option String} {key : String}
    (h : (Field.omitted key .text).Reads held words) (hheld : held ≠ some (.str "")) : words ≠ some "" := by
  rintro rfl
  cases held with
  | none => cases h
  | some v =>
    rcases Codec.read_optional_eq_ok_iff.1 h with ⟨-, hnone⟩ | ⟨-, text, htext, hsome⟩
    · cases hnone
    · cases hsome
      exact hheld (congrArg some (Codec.read_text_eq_ok_iff.1 htext))

/-- The data of the message of a node that can be specified is a specification, of the kind that the message names. -/
theorem said_of_sent (h : Message.Sent n ix kind m) (hs : Specifiable n m) :
    ∃ k, Kind.ofRequest? m.kind.name m.subKind = some (.single k) ∧ k.stepKind = m.kind ∧ k.subKind = m.subKind ∧
      Said k m.content := by
  cases h with
  | trigger => rcases hs.kind with h | ⟨h, -⟩ | h | h | h <;> cases h
  | text h => exact ⟨.text, rfl, rfl, rfl, .text⟩
  | media hk h =>
    rcases hk with rfl | rfl | rfl | rfl
    · exact ⟨.image, rfl, rfl, rfl, .media (Or.inl rfl)⟩
    · exact ⟨.video, rfl, rfl, rfl, .media (Or.inr (Or.inl rfl))⟩
    -- Audio is sent as an attachment too, but no specification is of it.
    · have haudio : ∀ name ∈ ["image", "video", "document"], some MessageKind.audio.name ≠ some name := by decide
      rcases hs.kind with h | ⟨-, h | h | h⟩ | h | h | h
      · cases h
      · exact absurd h (haudio "image" (by decide))
      · exact absurd h (haudio "video" (by decide))
      · exact absurd h (haudio "document" (by decide))
      all_goals cases h
    · exact ⟨.document, rfl, rfl, rfl, .media (Or.inr (Or.inr rfl))⟩
  | list h => exact ⟨.list, rfl, rfl, rfl, .list fun r hr => titled_rows hr⟩
  | button h =>
    have hreads := Form.reads_of_ofData (r := Form.Buttons.record) rfl (Message.form_eq_ok_iff.1 h)
    obtain ⟨_, _, ⟨_, _, ⟨_, _, ⟨_, _, ⟨_, type, rfl, htype, rfl⟩, -, rfl⟩, -, rfl⟩, -, rfl⟩, -, rfl⟩ := hreads
    exact ⟨.button, rfl, rfl, rfl,
      .button (declares_ofParts htype (hs.headType (Or.inl rfl))) fun r hr => titled_rows hr⟩
  | flow h =>
    have hreads := Form.reads_of_ofData (r := Form.Launch.record) rfl (Message.form_eq_ok_iff.1 h)
    obtain ⟨_, _, ⟨_, _, ⟨_, _, ⟨_, _, ⟨_, _, ⟨_, type, rfl, htype, rfl⟩, -, rfl⟩, -, rfl⟩, -, rfl⟩, -, rfl⟩, -, rfl⟩ :=
      hreads
    exact ⟨.flow, rfl, rfl, rfl, .flow (declares_ofParts htype (hs.headType (Or.inr rfl)))⟩
  | @catalog f kind h hk =>
    cases kind with
    | catalogMessage => exact ⟨.catalogMessage, rfl, rfl, rfl, .catalogMessage⟩
    | product => exact ⟨.product, rfl, rfl, rfl, .product⟩
    | productList =>
      have hreads := Form.reads_of_ofData (r := Form.Catalog.record) rfl (Message.form_eq_ok_iff.1 h)
      obtain ⟨_, _, ⟨_, _, ⟨_, _, ⟨_, _, ⟨_, header, hbefore, hheader, rfl⟩, -, rfl⟩, -, rfl⟩, -, rfl⟩, -, rfl⟩ := hreads
      obtain ⟨_, _, ⟨_, _, rfl, -, rfl⟩, -, rfl⟩ := hbefore
      exact ⟨.productList, rfl, rfl, rfl, .productList (ne_some_empty hheader (hs.title rfl))⟩
  | template h ho =>
    obtain ⟨id, hcontent, hid⟩ := hs.template rfl
    refine ⟨.template, rfl, rfl, rfl, ?_⟩
    rw [hcontent]
    exact .template hid

theorem inverted_of_said (hkind : Kind.ofRequest? m.kind.name m.subKind = some (.single k)) (hstep : k.stepKind = m.kind)
    (hsub : k.subKind = m.subKind) (h : Said k m.content) (hids : ids.head ≠ (ids.skip 1).head) : Inverted m ids := by
  obtain ⟨data, hdata⟩ := exists_data_of_said h
  cases hflow : ofSpec (.single k) m.content.write.canonical ids with
  | error e => simp [ofSpec, single, hdata] at hflow
  | ok r =>
    obtain ⟨flow, rest⟩ := r
    obtain ⟨own, compiled, content, hown, hcompiled, hsteps, hdescribes⟩ := recompiles_of_ofSpec hids hflow
    cases (steps_of_ofSpec hflow).symm.trans hown
    exact ⟨_, flow, rest, compiled, _, _, hkind, hflow, hcompiled, hsteps, rfl, hstep, hsub,
      canonical_eq_of_said h hdescribes⟩

/-- Every message of a compiled canvas, at any depth, is that of a node; if the message of the node can be specified,
    scaffolding inverts its compilation. -/
theorem inverted_of_compile (h : c.compile s = .ok f) (hm : .message m ∈ Step.allOf f.steps)
    (hids : ids.head ≠ (ids.skip 1).head) :
    (∃ n, SentBy c s n m) ∧ ∀ n, SentBy c s n m → Specifiable n m → Inverted m ids := by
  constructor
  · cases made_of_compile h hm with
    | message hn hk hsent => exact ⟨_, hn, _, hk, hsent⟩
  · rintro n ⟨hn, kind, hk, hsent⟩ hs
    have hnode := (ofNode_sort hk).symm.trans (Message.ofNode_eq_ok_some_iff.2 hsent)
    obtain ⟨k, hkind, hstep, hsub, hsaid⟩ := said_of_sent (Message.ofNode_eq_ok_some_iff.1 hnode) hs
    exact inverted_of_said hkind hstep hsub hsaid hids

end Messages

/-- A video with two buttons, one of which leads on, under a type that is a rule's. -/
def trailer : Canvas where
  nodes :=
    [{ id := "trailer", type := "promo", data := .obj [("btnOptions", .arr [.obj [("id", .str "a"), ("title", .str "Buy  now")],
        .obj []]), ("headerType", .str "video"), ("media", .str "trailer.mp4")] }]
  edges := [{ id := "", source := "trailer", target := "order", sourceHandle := some "trailer@@a" }]

def promos : Settings := ({} : Settings).withType "promo" "button"

theorem inverted_trailer : ∃ f n m, trailer.compile promos = .ok f ∧ .message m ∈ Step.allOf f.steps ∧
    numbers.head ≠ (numbers.skip 1).head ∧ SentBy trailer promos n m ∧ Specifiable n m ∧ Inverted m numbers := by
  obtain ⟨n, hnodes⟩ : ∃ n, trailer.nodes = [n] := ⟨_, rfl⟩
  have hkind : promos.kindOf n.type = some .button := by
    cases hnodes
    rw [promos, kindOf_withType]
    rfl
  obtain ⟨form, hform⟩ : ∃ form, n.form Form.Buttons.record = .ok form := by
    cases hnodes
    exact ⟨_, rfl⟩
  have hsorted : (sort promos n).node = n := sort_node_of_ne (by rw [hkind]; decide)
  obtain ⟨m, hinteractive, hbutton, hsent⟩ : ∃ m : Message, m.kind = .interactive ∧ m.subKind = some "button" ∧
      Message.Sent (sort promos n).node (plan trailer promos).index .button m := by
    rw [hsorted]
    exact ⟨_, rfl, rfl, .button hform⟩
  obtain ⟨f, hcompiled, hsteps⟩ := exists_compile_of_messages hnodes (.cons ⟨_, hkind, hsent⟩ .nil)
  have hm : .message m ∈ Step.allOf f.steps := by
    rw [hsteps]
    exact List.mem_singleton.2 rfl
  have hids : numbers.head ≠ (numbers.skip 1).head := by decide
  have hby : SentBy trailer promos n m := ⟨hnodes ▸ List.mem_singleton_self n, _, hkind, hsent⟩
  have hs : Specifiable n m := by
    refine ⟨Or.inr (Or.inr (Or.inl hinteractive)), fun _ v hv => ?_, fun h => ?_, fun h => ?_⟩
    · cases hnodes
      have hvideo : v = .str "video" := (Option.some.inj hv).symm
      exact Or.inr ⟨"video", by decide, hvideo⟩
    · rw [hbutton] at h
      exact absurd h (by decide)
    · rw [hinteractive] at h
      cases h
  exact ⟨f, n, m, hcompiled, hm, hids, hby, hs, (inverted_of_compile hcompiled hm hids).2 n hby hs⟩

end Scaffold
end MessageFlow
