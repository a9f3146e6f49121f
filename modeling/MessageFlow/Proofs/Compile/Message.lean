import MessageFlow.Compile.Basic

/-! What the nodes of a canvas send, one case for each kind, and why a node is refused. A refusal is found
    in the node alone: where its edges lead has no part in it. -/

namespace MessageFlow

/-- The node that a refusal is about. -/
def Refusal.node : Refusal → String
  | .malformedOptions node _ | .invalidData node _ _ => node

namespace Compile

/-! ### Faults -/

/-- Why there is no result; none if there is one. -/
def fault {ε α : Type} : Except ε α → Option ε
  | .ok _ => none
  | .error e => some e

section Faults
variable {ε α β : Type} {r : Except ε α} {e : ε}

theorem fault_eq_some_iff : fault r = some e ↔ r = .error e := by
  cases r <;> simp [fault]

theorem fault_eq_none_iff : fault r = none ↔ ∃ a, r = .ok a := by
  cases r <;> simp [fault]

@[simp] theorem fault_map (f : α → β) : fault (r.map f) = fault r := by
  cases r <;> rfl

theorem fault_mapError {δ : Type} (f : ε → δ) : fault (r.mapError f) = (fault r).map f := by
  cases r <;> rfl

theorem fault_bind {f : α → Except ε β} (hf : ∀ a, fault (f a) = none) :
    fault (r >>= f) = fault r := by
  cases r with
  | ok a => exact hf a
  | error e => rfl

theorem mapError_eq_ok_iff {δ : Type} {f : ε → δ} {a : α} : r.mapError f = .ok a ↔ r = .ok a := by
  constructor
  · intro h
    cases r <;> cases h
    rfl
  · rintro rfl
    rfl

theorem map_eq_ok_iff {f : α → β} {b : β} : r.map f = .ok b ↔ ∃ a, r = .ok a ∧ f a = b := by
  cases r <;> simp [Except.map]

theorem bind_eq_ok_iff {f : α → Except ε β} {b : β} :
    (r >>= f) = .ok b ↔ ∃ a, r = .ok a ∧ f a = .ok b := by
  cases r <;> simp [bind, Except.bind]

end Faults

/-! ### Nodes and their kinds -/

theorem kindOf_default (type : String) (sanitize : Bool) :
    Settings.kindOf { sanitize := sanitize } type = MessageKind.ofName? type := by
  simp [Settings.kindOf]

/-- A rule decides for its own type, if it names a known one. -/
theorem kindOf_withType (s : Settings) (type known t : String) : (s.withType type known).kindOf t =
    if type = t then (MessageKind.ofName? known).or (s.kindOf t) else s.kindOf t := by
  unfold Settings.withType
  cases MessageKind.ofName? known with
  | none => simp
  | some k =>
    simp only [Settings.kindOf, Std.HashMap.getElem?_insert, beq_iff_eq, Option.some_or]
    split <;> simp

section Sorting
variable {s : Settings} {n : Node}

@[simp] theorem sort_kind : (sort s n).kind = s.kindOf n.type := rfl

@[simp] theorem sort_node_id : (sort s n).node.id = n.id := by
  simp only [sort]
  split <;> rfl

@[simp] theorem sort_node_parent : (sort s n).node.parent = n.parent := by
  simp only [sort]
  split <;> rfl

theorem sort_node_of_ne (h : s.kindOf n.type ≠ some .template) : (sort s n).node = n := by
  simp [sort, h]

theorem sort_of_group (h : s.kindOf n.type = some .group) : sort s n = ⟨n, some .group⟩ := by
  simp [sort, h]

end Sorting

end Compile

/-! ### Messages -/

namespace Message
open Compile

/-- The messages of the nodes of each kind, made from the form that the node's data holds. -/
inductive Sent (n : Node) (ix : Index) : MessageKind → Message → Prop
  | trigger : Sent n ix .trigger (ofTrigger n ix)
  | text {f : Form.Text} (h : n.form Form.Text.record = .ok f) :
    Sent n ix .text { id := n.id, kind := .text, content := f.content, delay := n.delay }
  | media {k : MessageKind} {f : Form.Media} (hk : k = .image ∨ k = .video ∨ k = .audio ∨ k = .document)
      (h : n.form Form.Media.record = .ok f) :
    Sent n ix k { id := n.id, kind := .attachment, subKind := some k.name, content := f.content,
                  delay := n.delay }
  | list {f : Form.Menu} (h : n.form Form.Menu.record = .ok f) :
    Sent n ix .list { id := n.id, kind := .interactive, subKind := some MessageKind.list.name,
                      content := f.content n.id ix, delay := n.delay }
  | button {f : Form.Buttons} (h : n.form Form.Buttons.record = .ok f) :
    Sent n ix .button { id := n.id, kind := .interactive, subKind := some MessageKind.button.name,
                        content := f.content n.id ix, delay := n.delay }
  | flow {f : Form.Launch} (h : n.form Form.Launch.record = .ok f) :
    Sent n ix .flow { id := n.id, kind := .interactive, subKind := some MessageKind.flow.name,
                      content := f.content n.id ix, delay := n.delay }
  | catalog {f : Form.Catalog} {kind : CatalogKind} (h : n.form Form.Catalog.record = .ok f)
      (hk : CatalogKind.ofName? f.type = some kind) :
    Sent n ix .catalog { id := n.id, kind := .catalog, subKind := some kind.name,
                         content := f.content kind, delay := n.delay }
  | template {f : Form.Template} {options : List OptionEntry} (h : n.form Form.Template.record = .ok f)
      (ho : f.options = .ok options) :
    Sent n ix .template { id := n.id, kind := .template, content := f.content options n.id ix,
                          delay := n.delay }

/-- Why a node of a kind has no message: its data is no form of its kind, or the options of its template
    do not read. -/
def refusal (n : Node) : MessageKind → Option Refusal
  | .trigger | .group => none
  | .text => fault (n.form Form.Text.record)
  | .image | .video | .audio | .document => fault (n.form Form.Media.record)
  | .list => fault (n.form Form.Menu.record)
  | .button => fault (n.form Form.Buttons.record)
  | .flow => fault (n.form Form.Launch.record)
  | .catalog => fault (n.form Form.Catalog.record)
  | .template =>
    match n.form Form.Template.record with
    | .error e => some e
    | .ok f =>
      match f.options with
      | .error e => some (.malformedOptions n.id e)
      | .ok _ => none

section OfNode
variable {k : MessageKind} {n : Node} {ix : Index} {m : Message}

theorem Sent.id_eq (h : Sent n ix k m) : m.id = n.id := by
  cases h <;> rfl

theorem Sent.ne_group (h : Sent n ix k m) : k ≠ .group := by
  rintro rfl
  cases h with
  | media hk _ => simp at hk

theorem Sent.delay_eq (h : Sent n ix k m) (hk : k ≠ .trigger) : m.delay = n.delay := by
  cases h
  case trigger => exact absurd rfl hk
  all_goals rfl

theorem ofTemplate_eq_ok_iff : ofTemplate n ix = .ok m ↔ ∃ f options,
    n.form Form.Template.record = .ok f ∧ f.options = .ok options ∧
      m = { id := n.id, kind := .template, content := f.content options n.id ix, delay := n.delay } := by
  unfold ofTemplate
  simp only [bind_eq_ok_iff]
  constructor
  · rintro ⟨f, hf, h⟩
    cases ho : f.options with
    | error e => simp [ho] at h
    | ok options =>
      simp only [ho, pure, Except.pure, Except.ok.injEq] at h
      exact ⟨f, options, hf, ho, h.symm⟩
  · rintro ⟨f, options, hf, ho, rfl⟩
    exact ⟨f, hf, by simp only [ho]; rfl⟩

/-- A node of a kind has the message that is sent for the kind, and no other. -/
theorem ofNode_eq_ok_some_iff : ofNode k n ix = .ok (some m) ↔ Sent n ix k m := by
  constructor
  · intro h
    cases k with
    | trigger =>
      cases h
      exact .trigger
    | text =>
      simp only [ofNode, ofText, map_eq_ok_iff, bind_eq_ok_iff, pure, Except.pure] at h
      obtain ⟨_, ⟨f, hf, ⟨⟩⟩, ⟨⟩⟩ := h
      exact .text hf
    | image | video | audio | document =>
      simp only [ofNode, ofMedia, map_eq_ok_iff, bind_eq_ok_iff, pure, Except.pure] at h
      obtain ⟨_, ⟨f, hf, ⟨⟩⟩, ⟨⟩⟩ := h
      exact .media (by decide) hf
    | list =>
      simp only [ofNode, ofList, map_eq_ok_iff, bind_eq_ok_iff, pure, Except.pure] at h
      obtain ⟨_, ⟨f, hf, ⟨⟩⟩, ⟨⟩⟩ := h
      exact .list hf
    | button =>
      simp only [ofNode, ofButtons, map_eq_ok_iff, bind_eq_ok_iff, pure, Except.pure] at h
      obtain ⟨_, ⟨f, hf, ⟨⟩⟩, ⟨⟩⟩ := h
      exact .button hf
    | flow =>
      simp only [ofNode, ofLaunch, map_eq_ok_iff, bind_eq_ok_iff, pure, Except.pure] at h
      obtain ⟨_, ⟨f, hf, ⟨⟩⟩, ⟨⟩⟩ := h
      exact .flow hf
    | catalog =>
      simp only [ofNode, ofCatalog, bind_eq_ok_iff, pure, Except.pure, Except.ok.injEq,
        Option.map_eq_some_iff] at h
      obtain ⟨f, hf, kind, hk, rfl⟩ := h
      exact .catalog hf hk
    | template =>
      simp only [ofNode, map_eq_ok_iff, ofTemplate_eq_ok_iff] at h
      obtain ⟨_, ⟨f, options, hf, ho, rfl⟩, ⟨⟩⟩ := h
      exact .template hf ho
    | group => cases h
  · intro h
    cases h with
    | trigger => rfl
    | text h =>
      simp only [ofNode, ofText, h]
      rfl
    | media hk h =>
      rcases hk with rfl | rfl | rfl | rfl <;> simp only [ofNode, ofMedia, h] <;> rfl
    | list h =>
      simp only [ofNode, ofList, h]
      rfl
    | button h =>
      simp only [ofNode, ofButtons, h]
      rfl
    | flow h =>
      simp only [ofNode, ofLaunch, h]
      rfl
    | catalog h hk => simp [ofNode, ofCatalog, h, hk, bind, Except.bind, pure, Except.pure]
    | template h ho => simp only [ofNode, ofTemplate_eq_ok_iff.2 ⟨_, _, h, ho, rfl⟩, Except.map]

/-- Only groups, and catalog nodes of an unknown catalogue type, send nothing. -/
theorem ofNode_eq_ok_none_iff : ofNode k n ix = .ok none ↔
    k = .group ∨ k = .catalog ∧
      ∃ f, n.form Form.Catalog.record = .ok f ∧ CatalogKind.ofName? f.type = none := by
  cases k with
  | group => simp [ofNode]
  | catalog => simp [ofNode, ofCatalog, bind_eq_ok_iff, pure, Except.pure]
  | trigger => simp [ofNode]
  | _ => simp [ofNode, map_eq_ok_iff]

theorem fault_ofTemplate : fault (ofTemplate n ix) = refusal n .template := by
  unfold ofTemplate refusal
  cases hf : n.form Form.Template.record with
  | error e => rfl
  | ok f => cases ho : f.options <;> simp [ho, fault, bind, Except.bind, pure, Except.pure]

/-- A node is refused for what it holds, wherever its edges lead. -/
theorem fault_ofNode (k : MessageKind) (n : Node) (ix : Index) : fault (ofNode k n ix) = refusal n k := by
  cases k
  case trigger | group => rfl
  case template => simp only [ofNode, fault_map, fault_ofTemplate]
  all_goals
    simp only [ofNode, fault_map]
    exact fault_bind fun _ => rfl

theorem form_eq_ok_iff {α : Type} {r : Record α} {f : α} :
    n.form r = .ok f ↔ Form.ofData r n.data = .ok f := by
  unfold Node.form
  cases Form.ofData r n.data <;> simp

theorem node_of_form_eq_error {α : Type} {r : Record α} {e : Refusal} (h : n.form r = .error e) :
    e.node = n.id := by
  unfold Node.form at h
  split at h
  · cases h
  · cases h
    rfl

theorem node_of_refusal_eq_some {e : Refusal} (h : refusal n k = some e) : e.node = n.id := by
  cases k
  case trigger | group => cases h
  case template =>
    unfold refusal at h
    cases hf : n.form Form.Template.record with
    | error e =>
      simp only [hf, Option.some.injEq] at h
      exact h ▸ node_of_form_eq_error hf
    | ok f =>
      cases ho : f.options <;> simp only [hf, ho, reduceCtorEq, Option.some.injEq] at h
      exact h ▸ rfl
  all_goals exact node_of_form_eq_error (fault_eq_some_iff.1 h)

end OfNode

end Message

/-! ### Forms -/

namespace Form

/-- A record of the form that nodes of a kind hold. Triggers and groups hold none. -/
inductive HeldBy : {α : Type} → Record α → MessageKind → Prop
  | text : HeldBy Text.record .text
  | image : HeldBy Media.record .image
  | video : HeldBy Media.record .video
  | audio : HeldBy Media.record .audio
  | document : HeldBy Media.record .document
  | list : HeldBy Menu.record .list
  | button : HeldBy Buttons.record .button
  | flow : HeldBy Launch.record .flow
  | catalog : HeldBy Catalog.record .catalog
  | template : HeldBy Template.record .template

/-- Of a node that holds a form the message tells the form, the id and the delay, and where edges lead. -/
theorem HeldBy.ofNode_congr {α : Type} {r : Record α} {k : MessageKind} {m n : Node} (hr : HeldBy r k)
    (hid : m.id = n.id) (hform : m.form r = n.form r) (hdelay : m.delay = n.delay) (ix : Index) :
    Message.ofNode k m ix = Message.ofNode k n ix := by
  cases hr with
  | text => simp only [Message.ofNode, Message.ofText, hid, hform, hdelay]
  | image | video | audio | document => simp only [Message.ofNode, Message.ofMedia, hid, hform, hdelay]
  | list => simp only [Message.ofNode, Message.ofList, hid, hform, hdelay]
  | button => simp only [Message.ofNode, Message.ofButtons, hid, hform, hdelay]
  | flow => simp only [Message.ofNode, Message.ofLaunch, hid, hform, hdelay]
  | catalog => simp only [Message.ofNode, Message.ofCatalog, hid, hform, hdelay]
  | template => simp only [Message.ofNode, Message.ofTemplate, hid, hform, hdelay]

end Form
end MessageFlow
