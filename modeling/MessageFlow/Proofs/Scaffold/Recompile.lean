import MessageFlow.Proofs.Compile.Exits
import MessageFlow.Proofs.Compile.Run
import MessageFlow.Proofs.Form.Keeping
import MessageFlow.Scaffold.Basic

/-! Compiling a scaffold. The specification of a message is read, written into the form of a node, kept as
    the node's data, read again and sent; what is sent in the end is told here by the specification alone.
    Values without a type of their own go through the form in canonical form. -/

namespace MessageFlow

/-! ### What a specification says -/

/-- The text by which a value names a template: a string itself, any other value by its JSON text. -/
def Spec.Template.name : Json → String
  | .str id => id
  | v => v.compact

theorem Spec.Template.choice_eq (v : Json) : choice v = .named (name v) := by
  cases v <;> rfl

namespace Scaffold
open Compile

def bodyData (b : Spec.Body) : Json := .obj [("text", .str b.text)]

/-- A text head, as it is sent. -/
def wordsData (text : Option String) : Json := .obj [("type", .str "text"), ("text", .ofText text)]

/-- A head, as it is sent: a text head with its text, any other with the media under its type, which is null
    unless the type is one of media. -/
def headData (h : Spec.Head) : Json :=
  if h.type = "text" then wordsData h.text
  else .obj [("type", .str h.type),
    (h.type, if h.type ∈ ["image", "video", "document"] then (Json.ofOption (h.rest.get? h.type)).canonical
      else .null)]

/-- An option with a title, as it is sent. It leads nowhere. -/
def optionData (title : Option String) : Json :=
  .obj [("id", .ofText (title.map OptionId.ofTitle)), ("title", .ofText title), ("target", .arr [])]

/-- What is sent for a specification of a kind. -/
inductive Describes (spec : Json) : SingleKind → Json → Prop
  | text {s : Spec.Text} (h : Spec.Text.record.read spec = .ok s) :
    Describes spec .text (.obj [("body", bodyData s.body), ("preview_url", .bool true)])
  | media {k : SingleKind} {s : Spec.Media} (hk : k = .image ∨ k = .video ∨ k = .document)
      (h : Spec.Media.record.read spec = .ok s) :
    Describes spec k (.obj ([("media", s.media)] ++ (s.caption.map fun c => ("caption", .str c)).toList))
  | list {s : Spec.Menu} {first : Spec.Section} {rest : List Spec.Section}
      (h : Spec.Menu.record.read spec = .ok s) (hs : s.action.sections = first :: rest) :
    Describes spec .list (.obj [("header", wordsData s.header.text), ("body", bodyData s.body),
      ("action", .obj [("button", .str s.action.button), ("sections", .arr [.obj
        [("title", .str s.action.button), ("rows", .arr (first.rows.map fun r => optionData r.title))]])])])
  | button {s : Spec.Buttons} (h : Spec.Buttons.record.read spec = .ok s) :
    Describes spec .button (.obj [("header", headData s.header), ("body", bodyData s.body),
      ("action", .obj [("buttons", .arr (s.action.buttons.map fun b =>
        .obj [("type", .str "reply"), ("reply", optionData b.reply.title)]))])])
  | flow {s : Spec.Launch} (h : Spec.Launch.record.read spec = .ok s) :
    Describes spec .flow (.obj [("header", headData s.header), ("body", bodyData s.body),
      ("action", .obj [("flow", (Json.ofOption s.action.flow).canonical)]), ("btnText", .ofText s.button),
      ("target", .arr [])])
  | catalogMessage {s : Spec.CatalogMessage} (h : Spec.CatalogMessage.record.read spec = .ok s) :
    Describes spec .catalogMessage (.obj [("body", bodyData s.body)])
  | product {s : Spec.Product} (h : Spec.Product.record.read spec = .ok s) :
    Describes spec .product (.obj [("body", bodyData s.body),
      ("action", .obj [("catalog_id", (Json.ofOption s.action.catalog).canonical),
        ("product_retailer_id", (Json.ofOption s.action.product).canonical)])])
  | productList {s : Spec.ProductList} (h : Spec.ProductList.record.read spec = .ok s) :
    Describes spec .productList (.obj [("body", bodyData s.body),
      ("header", wordsData ((s.header.bind (·.text)).filter (· != ""))),
      ("action", .obj [("btn_text", .ofText s.action.button),
        ("catalog_id", (Json.ofOption s.action.catalog).canonical),
        ("product_set_ids", (Json.ofOption s.action.productSets).canonical)])])
  | template {s : Spec.Template} (h : Spec.Template.record.read spec = .ok s) :
    Describes spec .template (.obj [("templateId", .ofText (s.id.map Spec.Template.name))])

/-- How long the message for a specification waits. Only media specifications can say so. -/
def SingleKind.delay (k : SingleKind) (spec : Json) : Option Json :=
  match k with
  | .image | .video | .document => (spec.get? "delay").filter Json.isTruthy
  | _ => none

/-- Compiling the canvas of a flow gives a trigger that leads to the flow's own step, and this step again, with
    what its specification says to send. -/
def Recompiles (k : SingleKind) (spec : Json) (trigger : String) (f : Flow) : Prop :=
  ∃ own compiled content, f.steps = [.message own] ∧ f.canvas.compile {} = .ok compiled ∧
    compiled.steps = [.message { id := trigger, kind := .triggers, content := .trigger [own.id] },
      .message { own with content := content, delay := k.delay spec }] ∧
    Describes spec k content.write

/-! ### The data of the node -/

/-- What the node of a specification holds. -/
inductive Filled (spec : Json) : SingleKind → Json → Prop
  | text {s : Spec.Text} (h : Spec.Text.record.read spec = .ok s) :
    Filled spec .text (Form.Text.record.codec.encode s.form)
  | media {k : SingleKind} {s : Spec.Media} (hk : k = .image ∨ k = .video ∨ k = .document)
      (h : Spec.Media.record.read spec = .ok s) : Filled spec k spec
  | list {s : Spec.Menu} {f : Form.Menu} (h : Spec.Menu.record.read spec = .ok s) (hf : s.form = .ok f) :
    Filled spec .list (Form.Menu.record.codec.encode f)
  | button {s : Spec.Buttons} (h : Spec.Buttons.record.read spec = .ok s) :
    Filled spec .button (Form.Buttons.record.codec.encode s.form)
  | flow {s : Spec.Launch} (h : Spec.Launch.record.read spec = .ok s) :
    Filled spec .flow (Form.Launch.record.codec.encode s.form)
  | catalogMessage {s : Spec.CatalogMessage} (h : Spec.CatalogMessage.record.read spec = .ok s) :
    Filled spec .catalogMessage (Form.Catalog.record.codec.encode s.form)
  | product {s : Spec.Product} (h : Spec.Product.record.read spec = .ok s) :
    Filled spec .product (Form.Catalog.record.codec.encode s.form)
  | productList {s : Spec.ProductList} (h : Spec.ProductList.record.read spec = .ok s) :
    Filled spec .productList (Form.Catalog.record.codec.encode s.form)
  | template {s : Spec.Template} (h : Spec.Template.record.read spec = .ok s) :
    Filled spec .template (Form.Template.record.codec.encode s.form)

section Filling
variable {k : SingleKind} {spec data : Json}

theorem readSpec_eq_ok_iff {α : Type} {r : Record α} {s : α} : r.readSpec spec = .ok s ↔ r.read spec = .ok s := by
  unfold Record.readSpec
  cases r.read spec <;> simp

theorem filled_of_data (h : k.data spec = .ok data) : Filled spec k data := by
  cases k with
  | text =>
    obtain ⟨s, hs, ⟨⟩⟩ := bind_eq_ok_iff.1 h
    exact .text (readSpec_eq_ok_iff.1 hs)
  | image | video | document =>
    obtain ⟨s, hs, ⟨⟩⟩ := bind_eq_ok_iff.1 h
    exact .media (by decide) (readSpec_eq_ok_iff.1 hs)
  | list =>
    obtain ⟨s, hs, h⟩ := bind_eq_ok_iff.1 h
    obtain ⟨f, hf, ⟨⟩⟩ := bind_eq_ok_iff.1 h
    exact .list (readSpec_eq_ok_iff.1 hs) hf
  | button =>
    obtain ⟨s, hs, ⟨⟩⟩ := bind_eq_ok_iff.1 h
    exact .button (readSpec_eq_ok_iff.1 hs)
  | flow =>
    obtain ⟨s, hs, ⟨⟩⟩ := bind_eq_ok_iff.1 h
    exact .flow (readSpec_eq_ok_iff.1 hs)
  | catalogMessage =>
    obtain ⟨s, hs, ⟨⟩⟩ := bind_eq_ok_iff.1 h
    exact .catalogMessage (readSpec_eq_ok_iff.1 hs)
  | product =>
    obtain ⟨s, hs, ⟨⟩⟩ := bind_eq_ok_iff.1 h
    exact .product (readSpec_eq_ok_iff.1 hs)
  | productList =>
    obtain ⟨s, hs, ⟨⟩⟩ := bind_eq_ok_iff.1 h
    exact .productList (readSpec_eq_ok_iff.1 hs)
  | template =>
    obtain ⟨s, hs, ⟨⟩⟩ := bind_eq_ok_iff.1 h
    exact .template (readSpec_eq_ok_iff.1 hs)

theorem data_of_filled (h : Filled spec k data) : k.data spec = .ok data := by
  cases h with
  | media hk h => rcases hk with rfl | rfl | rfl <;> exact bind_eq_ok_iff.2 ⟨_, readSpec_eq_ok_iff.2 h, rfl⟩
  | list h hf => exact bind_eq_ok_iff.2 ⟨_, readSpec_eq_ok_iff.2 h, bind_eq_ok_iff.2 ⟨_, hf, rfl⟩⟩
  | _ h => exact bind_eq_ok_iff.2 ⟨_, readSpec_eq_ok_iff.2 h, rfl⟩

end Filling

/-! ### The message of the node -/

section Sending
variable {k : SingleKind} {spec data : Json} {n : Node} {ix : Index}

/-- Options are told apart by their places alone, and what is sent for them by their titles alone. -/
theorem rows_choices (hix : ∀ handle, ix.successors n.id handle = []) (titles : List (Option String)) :
    (Form.choices titles).map (·.row n.id ix) = titles.map fun t => ⟨t.map OptionId.ofTitle, t, []⟩ := by
  have hrow : ∀ p ∈ titles.zipIdx, Form.Choice.row ⟨Handle.choiceId p.2, p.1⟩ n.id ix =
      ⟨p.1.map OptionId.ofTitle, p.1, []⟩ := fun p _ => by rw [Form.Choice.row, hix]
  rw [Form.choices, List.map_map]
  conv_rhs => rw [← List.zipIdx_map_fst 0 titles, List.map_map]
  exact List.map_congr_left hrow

theorem write_ofParts (h : Spec.Head) :
    (Header.ofParts (some h.type) h.words (Form.kept h.media)).write = headData h := by
  unfold Header.ofParts headData
  by_cases htext : h.type = "text"
  · simp only [htext, if_true, Spec.Head.words, Header.write, wordsData]
  · simp only [htext, if_false, Header.write, MediaObject.write, Form.ofOption_kept, Spec.Head.media,
      Spec.Head.mediaTypes, List.contains_iff_mem]
    split <;> rfl

theorem ofData_media {s : Spec.Media} (h : Spec.Media.record.read spec = .ok s) :
    Form.ofData Form.Media.record spec = .ok ⟨s.media, s.caption⟩ := by
  obtain ⟨_, caption, ⟨_, media, rfl, hmedia, rfl⟩, hcaption, rfl⟩ :=
    Record.reads_of_read (r := Spec.Media.record) rfl h
  have hreads : Form.Media.record.schema.Reads spec.at? ⟨media, caption⟩ :=
    ⟨_, caption, ⟨_, media, rfl, hmedia, rfl⟩, hcaption, rfl⟩
  cases spec with
  | obj fields => exact (Record.read_obj_eq_ok_iff rfl).2 hreads
  | arr items => exact Record.read_arr_eq_ok_iff.2 ⟨hreads, (Record.read_arr_eq_ok_iff.1 h).2⟩
  | _ => cases h

/-- The template of a scaffold is named, so there is nothing to strip from it. -/
theorem stripTemplate_encode (s : Spec.Template) :
    (Form.Template.record.codec.encode s.form).stripTemplate = Form.Template.record.codec.encode s.form := by
  simp only [Codec.encode, Record.codec, Json.canonical, Json.stripTemplate, Json.obj.injEq]
  -- Of the two fields only `template` could change, and it holds a text or null.
  refine (List.map_congr_left fun p hp => ?_).trans (List.map_id _)
  have hmem := Json.Object.mem_of_mem_ofList hp
  rw [Json.canonicalFields_eq_map] at hmem
  obtain ⟨q, hq, rfl⟩ := List.mem_map.1 hmem
  rcases List.mem_append.1 hq with hq | hq
  · cases List.mem_singleton.1 hq
    have hwrite : (Codec.optional Form.TemplateChoice.codec).write s.form.template =
        .ofText (s.id.map Spec.Template.name) := by
      unfold Spec.Template.form
      cases s.id with
      | none => rfl
      | some v =>
        rw [Option.map_some, Spec.Template.choice_eq]
        rfl
    change ("template", ((Codec.optional Form.TemplateChoice.codec).write _).canonical.dropTransient) =
      ("template", ((Codec.optional Form.TemplateChoice.codec).write _).canonical)
    rw [hwrite]
    cases s.id <;> rfl
  · split at hq
    · cases hq
    · cases List.mem_singleton.1 hq
      rfl

/-- The form of a scaffolded template names its template, so there is nothing about media or options in it. -/
theorem template_named (s : Spec.Template) (media : Option Json) :
    (∀ t, s.form.template = some t → Form.TemplateChoice.codec.Keeps t) ∧
    Form.Template.options { s.form with media := media } = .ok [] ∧
    Form.Template.mediaObject { s.form with media := media } = none ∧
    Form.Template.templateId { s.form with media := media } = s.id.map fun v => .str (Spec.Template.name v) := by
  rw [Spec.Template.form]
  cases s.id with
  | none => exact ⟨nofun, rfl, rfl, rfl⟩
  | some v =>
    simp only [Option.map_some, Spec.Template.choice_eq]
    refine ⟨?_, rfl, rfl, rfl⟩
    rintro t ⟨⟩
    exact Form.TemplateChoice.keeps_named _

/-- A node that holds what a specification is turned into has a message for the specification. -/
theorem sent_of_filled (h : Filled spec k n.data) (hix : ∀ handle, ix.successors n.id handle = []) :
    ∃ content, Message.Sent n ix k.messageKind
        { id := n.id, kind := k.stepKind, subKind := k.subKind, content := content, delay := k.delay spec } ∧
      Describes spec k content.write := by
  generalize hdata : n.data = data at h
  cases h with
  | @text s h =>
    obtain ⟨hform, hdelay⟩ := Form.Text.named.form_of_encode hdata (Form.Text.ofData_encode s.form)
    have hsent : Message.Sent n ix .text _ := .text hform
    rw [hdelay] at hsent
    exact ⟨_, hsent, .text h⟩
  | @media _ s hk h =>
    have hform := Message.form_eq_ok_iff.2 (hdata ▸ ofData_media h)
    have hsent := fun kind hkind => @Message.Sent.media n ix kind _ hkind hform
    simp only [Node.delay, hdata] at hsent
    rcases hk with rfl | rfl | rfl
    · exact ⟨_, hsent .image (by decide), .media (by decide) h⟩
    · exact ⟨_, hsent .video (by decide), .media (by decide) h⟩
    · exact ⟨_, hsent .document (by decide), .media (by decide) h⟩
  | @list s f h hf =>
    obtain ⟨hform, hdelay⟩ := Form.Menu.named.form_of_encode hdata (Form.Menu.ofData_encode f)
    have hsent : Message.Sent n ix .list _ := .list hform
    rw [hdelay] at hsent
    refine ⟨_, hsent, ?_⟩
    unfold Spec.Menu.form at hf
    split at hf
    · cases hf
    · next first rest hs =>
      cases hf
      rw [Form.Menu.content, rows_choices hix, Content.write, List.map_map, List.map_map]
      exact .list h hs
  | @button s h =>
    obtain ⟨hform, hdelay⟩ := Form.Buttons.named.form_of_encode hdata (Form.Buttons.ofData_encode s.form)
    have hsent : Message.Sent n ix .button _ := .button hform
    rw [hdelay] at hsent
    refine ⟨_, hsent, ?_⟩
    simp only [Form.Buttons.content, Spec.Buttons.form, rows_choices hix, Content.write, write_ofParts,
      List.map_map]
    exact .button h
  | @flow s h =>
    obtain ⟨hform, hdelay⟩ := Form.Launch.named.form_of_encode hdata (Form.Launch.ofData_encode s.form)
    have hsent : Message.Sent n ix .flow _ := .flow hform
    rw [hdelay] at hsent
    refine ⟨_, hsent, ?_⟩
    simp only [Form.Launch.content, Spec.Launch.form, hix, Content.write, write_ofParts, Form.ofOption_kept]
    exact .flow h
  | @catalogMessage s h =>
    obtain ⟨hform, hdelay⟩ := Form.Catalog.named.form_of_encode hdata (Form.Catalog.ofData_encode s.form)
    have hsent : Message.Sent n ix .catalog _ := .catalog hform (CatalogKind.ofName?_name .catalogMessage)
    rw [hdelay] at hsent
    exact ⟨_, hsent, .catalogMessage h⟩
  | @product s h =>
    obtain ⟨hform, hdelay⟩ := Form.Catalog.named.form_of_encode hdata (Form.Catalog.ofData_encode s.form)
    have hsent : Message.Sent n ix .catalog _ := .catalog hform (CatalogKind.ofName?_name .product)
    rw [hdelay] at hsent
    refine ⟨_, hsent, ?_⟩
    simp only [Form.Catalog.content, Content.write, Form.ofOption_kept]
    exact .product h
  | @productList s h =>
    obtain ⟨hform, hdelay⟩ := Form.Catalog.named.form_of_encode hdata (Form.Catalog.ofData_encode s.form)
    have hsent : Message.Sent n ix .catalog _ := .catalog hform (CatalogKind.ofName?_name .productList)
    rw [hdelay] at hsent
    refine ⟨_, hsent, ?_⟩
    simp only [Form.Catalog.content, Content.write, Form.ofOption_kept]
    exact .productList h
  | @template s h =>
    obtain ⟨hkeeps, hoptions, hmedia, hid⟩ := template_named s (Form.kept s.form.media)
    obtain ⟨hform, hdelay⟩ := Form.Template.named.form_of_encode hdata
      (Form.Template.ofData_encode s.form hkeeps)
    have hsent : Message.Sent n ix .template _ := .template hform hoptions
    rw [hdelay] at hsent
    refine ⟨_, hsent, ?_⟩
    have hdescribes := Describes.template h
    rw [Form.Template.content, hmedia, hid, Content.write]
    cases hs : s.id <;> rw [hs] at hdescribes <;> exact hdescribes

theorem sort_node_of_filled {s : Settings} (h : Filled spec k n.data) (hk : s.kindOf n.type = some k.messageKind) :
    (sort s n).node = n := by
  by_cases htemplate : k = .template
  · subst htemplate
    have hstrip : n.strip = n := by
      generalize hdata : n.data = data at h
      cases h with
      | media hm _ => simp at hm
      | template _ => rw [Node.strip, hdata, stripTemplate_encode, ← hdata]
    simp only [sort]
    split
    · exact hstrip
    · rfl
  · refine sort_node_of_ne ?_
    rw [hk]
    revert htemplate
    cases k <;> decide

end Sending

/-! ### Scaffolds -/

section Scaffolds
variable {k : SingleKind} {spec data : Json} {ids rest : IdSource} {f : Flow} {trigger id : String}

theorem kindOf_name (kind : MessageKind) : Settings.kindOf {} kind.name = some kind :=
  (kindOf_default _ true).trans (MessageKind.ofName?_name kind)

theorem sent_triggerNode {ix : Index} {target : List String} (h : ix.successors trigger (some .trigger) = target) :
    Message.Sent (sort {} (triggerNode trigger)).node ix .trigger
      { id := trigger, kind := .triggers, content := .trigger target } := by
  have hsort : (sort {} (triggerNode trigger)).node = triggerNode trigger := by
    refine sort_node_of_ne fun hk => ?_
    cases (kindOf_name .trigger).symm.trans hk
  rw [hsort, ← h]
  exact .trigger

/-- A canvas of a trigger and nodes behind it. -/
def behind (trigger : String) (nodes : List Node) : Canvas :=
  ⟨triggerNode trigger :: nodes, nodes.map fun n => triggerEdge trigger n.id⟩

/-- The message that a node sends where it leads nowhere. -/
def SentAlone (n : Node) (m : Message) : Prop :=
  ∃ k, Settings.kindOf {} n.type = some k ∧ Message.Sent (sort {} n).node .nowhere k m

theorem compile_behind {nodes : List Node} {messages : List Message} (hids : ∀ n ∈ nodes, n.id ≠ trigger)
    (h : List.Forall₂ SentAlone nodes messages) : ∃ compiled, (behind trigger nodes).compile {} = .ok compiled ∧
      compiled.steps = .message { id := trigger, kind := .triggers, content := .trigger (nodes.map (·.id)) } ::
        messages.map .message := by
  -- The canvas is named, so that its index is not unfolded where it only stands for itself.
  obtain ⟨c, hc⟩ : ∃ c, c = behind trigger nodes := ⟨_, rfl⟩
  have htrigger : (plan c {}).index.successors trigger (some .trigger) = nodes.map (·.id) := by
    rw [plan, Plan.ofNodes, Index.successors_trigger, Canvas.targetsAt, hc, behind, List.filter_eq_self.2, List.map_map]
    · rfl
    · simp [triggerEdge]
  have hmessage : ∀ n ∈ nodes, ∀ handle, (plan c {}).index.successors n.id handle = [] := by
    refine fun n hn => Index.successors_eq_nil _ ?_
    rw [hc]
    simpa [behind, triggerEdge] using fun _ _ heq => hids n hn heq.symm
  have hsent : List.Forall₂ (fun n m => ∃ k, Settings.kindOf {} n.type = some k ∧
      Message.Sent (sort {} n).node (plan c {}).index k m) nodes messages := by
    refine ((List.forall₂_and_left _ _).2 ⟨hmessage, h⟩).imp ?_
    rintro n m ⟨hix, k, hk, hm⟩
    have hx : SameExits .nowhere (sort {} n).node.id (plan c {}).index (sort {} n).node.id := by
      rw [sort_node_id]
      exact .of_nil (Index.successors_nowhere n.id) hix
    have hsame := hm.transfer rfl hx
    rw [← hm.id_eq] at hsame
    exact ⟨k, hk, hsame⟩
  have hnodes : c.nodes = triggerNode trigger :: nodes := by rw [hc, behind]
  obtain ⟨compiled, hcompiled, hsteps⟩ := exists_compile_of_messages hnodes
    (.cons ⟨_, kindOf_name .trigger, sent_triggerNode htrigger⟩ hsent)
  exact ⟨compiled, hc ▸ hcompiled, hsteps⟩

/-- The node for a specification sends what the specification tells. -/
theorem sentAlone_node (h : Filled spec k data) (id : String) : ∃ content, SentAlone (k.node data id)
    { id := id, kind := k.stepKind, subKind := k.subKind, content := content, delay := k.delay spec } ∧
      Describes spec k content.write := by
  obtain ⟨content, hsent, hdescribes⟩ := sent_of_filled (n := k.node data id) h (Index.successors_nowhere id)
  refine ⟨content, ⟨k.messageKind, kindOf_name k.messageKind, ?_⟩, hdescribes⟩
  rw [sort_node_of_filled h (kindOf_name k.messageKind)]
  exact hsent

/-- A trigger and a node for a specification behind it, as a canvas, send the message for the specification. -/
theorem compile_pair (hid : trigger ≠ id) (h : Filled spec k data) : ∃ compiled content,
    Canvas.compile ⟨[triggerNode trigger, k.node data id], [triggerEdge trigger id]⟩ {} = .ok compiled ∧
      compiled.steps = [.message { id := trigger, kind := .triggers, content := .trigger [id] },
        .message { id := id, kind := k.stepKind, subKind := k.subKind, content := content,
                   delay := k.delay spec }] ∧
      Describes spec k content.write := by
  obtain ⟨content, hsent, hdescribes⟩ := sentAlone_node h id
  have hids : ∀ n ∈ [k.node data id], n.id ≠ trigger := fun n hn => by
    rw [List.mem_singleton.1 hn]
    exact hid.symm
  obtain ⟨compiled, hcompiled, hsteps⟩ := compile_behind hids (.cons hsent .nil)
  exact ⟨compiled, content, hcompiled, hsteps, hdescribes⟩

theorem steps_of_ofSpec (h : ofSpec (.single k) spec ids = .ok (f, rest)) :
    f.steps = [k.step spec (ids.skip 1).head] := by
  simp only [ofSpec, single] at h
  cases hd : k.data spec with
  | error e => simp [hd] at h
  | ok data =>
    simp only [hd] at h
    cases h
    rfl

/-- The canvas of every scaffold with one message compiles to the message that its specification tells. -/
theorem recompiles_of_ofSpec (hids : ids.head ≠ (ids.skip 1).head)
    (h : ofSpec (.single k) spec ids = .ok (f, rest)) : Recompiles k spec ids.head f := by
  simp only [ofSpec, single] at h
  cases hd : k.data spec with
  | error e => simp [hd] at h
  | ok data =>
    obtain ⟨compiled, content, hcompiled, hsteps, hdescribes⟩ := compile_pair hids (filled_of_data hd)
    simp only [hd, Except.ok.injEq, Prod.mk.injEq] at h
    obtain ⟨rfl, -⟩ := h
    exact ⟨_, compiled, content, rfl, hcompiled, hsteps, hdescribes⟩

end Scaffolds

/-- Two buttons under a head that is neither text nor media; one has no title, the other stands in lists. -/
def replies : Json :=
  .obj [("action", .obj [("buttons", .arr [.arr [.arr [.str "Yes  please"]], .obj [("reply", .obj [])]])]),
    ("body", .obj []), ("header", .obj [("audio", .str "song.mp3"), ("type", .str "audio")])]

def numbers : IdSource := ⟨Text.decimal, 0⟩

theorem recompiles_replies : ∃ f rest, ofSpec (.single .button) replies numbers = .ok (f, rest) ∧
    Recompiles .button replies numbers.head f := by
  have h : ofSpec (.single .button) replies numbers = .ok (_, _) := rfl
  exact ⟨_, _, h, recompiles_of_ofSpec (by decide) h⟩

end Scaffold
end MessageFlow
