import MessageFlow.Proofs.Compile.Exits
import MessageFlow.Proofs.Compile.Message
import MessageFlow.Proofs.Json.Reading
import MessageFlow.Proofs.Json.Objects
import Mathlib.Algebra.Module.Submodule.Lattice
import Mathlib.Data.List.Forall2
import Mathlib.Data.List.Permutation

/-! # Options of a template

The options of a template come as a text, and all of them are sent or none: one element of the list that is no option
makes the node be refused, and the first such element is the one that is named. An option is sent under the type that
its element names, with the id and, if it is a button, the title that the element holds under this type. What is
written of options that are sent reads as the same options. -/

namespace MessageFlow

/-! ### What an element says -/

namespace Json

/-- The element names a type and holds an object under it. -/
structure Offers (v : Json) (type : String) (inner : Object) : Prop where
  names : v.get? "type" = some (.str type)
  holds : v.get? type = some (.obj inner)

def IsOption (v : Json) : Prop := ∃ type inner, v.Offers type inner

/-- The element gives an option of the type, with the id and the title that stand under it; what does not stand there
    is null, and only a button has a title. -/
def Gives (v : Json) (type : String) (id : Json) (title : Option Json) : Prop :=
  ∃ inner, v.Offers type inner ∧ id = (inner.get? "id").getD .null ∧
    title = if type = "button" then some ((inner.get? "title").getD .null) else none

theorem Gives.type_ne {v id : Json} {type : String} {title : Option Json} (h : v.Gives type id title) :
    type ≠ "type" := by
  obtain ⟨inner, ⟨hnames, hholds⟩, -⟩ := h
  rintro rfl
  rw [hnames] at hholds
  cases hholds

theorem ofOption_eq_getD (o : Option Json) : ofOption o = o.getD .null := by
  cases o <;> rfl

end Json

/-- Why the element at a position is no option: it names no type, or holds no object under the one it names. -/
inductive OptionsFault.Of (index : Nat) (v : Json) : OptionsFault → Prop
  | untyped (h : ∀ type, v.get? "type" ≠ some (.str type)) : Of index v (.untyped index)
  | vacant {type : String} (htype : v.get? "type" = some (.str type)) (h : ∀ inner, v.get? type ≠ some (.obj inner)) :
    Of index v (.vacant index type)

/-! ### Elements in turn -/

namespace OptionEntry

section Elements
variable {index : Nat} {v : Json} {o : OptionEntry} {items : List Json} {os : List OptionEntry} {fault : OptionsFault}

theorem type_eq_some_iff {type : String} :
    (v.get? "type").bind Json.str? = some type ↔ v.get? "type" = some (.str type) := by
  cases v.get? "type" with
  | none => simp
  | some w => cases w <;> simp [Json.str?]

theorem inner_eq_some_iff {key : String} {w : Json} :
    (v.get? key).filter Json.isObject = some w ↔ ∃ inner, w = .obj inner ∧ v.get? key = some (.obj inner) := by
  rw [Option.filter_eq_some_iff]
  constructor
  · rintro ⟨hget, hobject⟩
    cases w with
    | obj inner => exact ⟨inner, rfl, hget⟩
    | _ => cases hobject
  · rintro ⟨inner, rfl, hget⟩
    exact ⟨hget, rfl⟩

theorem get?_ne_of_filter_eq_none {key : String} (h : (v.get? key).filter Json.isObject = none) (inner : Json.Object) :
    v.get? key ≠ some (.obj inner) := by
  intro hget
  rw [hget] at h
  cases h

/-- An element is read as the option that it gives, or is refused for what it lacks. -/
theorem ofJson_cases (index : Nat) (v : Json) :
    (∃ o, ofJson index v = .ok o ∧ v.Gives o.type o.id o.title) ∨
      ∃ fault, ofJson index v = .error fault ∧ fault.Of index v := by
  unfold ofJson
  cases htype : (v.get? "type").bind Json.str? with
  | none =>
    refine .inr ⟨_, rfl, .untyped fun type hget => ?_⟩
    rw [type_eq_some_iff.2 hget] at htype
    cases htype
  | some type =>
    have hnamed := type_eq_some_iff.1 htype
    cases hinner : (v.get? type).filter Json.isObject with
    | none => exact .inr ⟨_, by simp only [hinner], .vacant hnamed (get?_ne_of_filter_eq_none hinner)⟩
    | some w =>
      obtain ⟨inner, rfl, hget⟩ := inner_eq_some_iff.1 hinner
      simp only [hinner, Json.ofOption_eq_getD]
      exact .inl ⟨_, rfl, inner, ⟨hnamed, hget⟩, rfl, rfl⟩

theorem not_isOption_of_fault (h : fault.Of index v) : ¬v.IsOption := by
  rintro ⟨type, inner, htype, hinner⟩
  cases h with
  | untyped hnone => exact hnone type htype
  | vacant hnamed hnone =>
    cases htype.symm.trans hnamed
    exact hnone inner hinner

theorem gives_unique {type type' : String} {id id' : Json} {title title' : Option Json} (h : v.Gives type id title)
    (h' : v.Gives type' id' title') : type = type' ∧ id = id' ∧ title = title' := by
  obtain ⟨inner, ⟨htype, hinner⟩, rfl, rfl⟩ := h
  obtain ⟨inner', ⟨htype', hinner'⟩, rfl, rfl⟩ := h'
  cases htype.symm.trans htype'
  cases hinner.symm.trans hinner'
  exact ⟨rfl, rfl, rfl⟩

theorem ofJson_eq_ok_iff : ofJson index v = .ok o ↔ v.Gives o.type o.id o.title := by
  obtain ⟨p, hp, hgives⟩ | ⟨fault, hfault, hof⟩ := ofJson_cases index v
  · rw [hp, Except.ok.injEq]
    constructor
    · rintro rfl
      exact hgives
    · intro h
      obtain ⟨htype, hid, htitle⟩ := gives_unique hgives h
      cases p
      cases o
      cases htype
      cases hid
      cases htitle
      rfl
  · rw [hfault]
    refine ⟨nofun, fun h => absurd ?_ (not_isOption_of_fault hof)⟩
    obtain ⟨inner, hoffers, -⟩ := h
    exact ⟨_, inner, hoffers⟩

theorem isOption_iff : v.IsOption ↔ ∃ o : OptionEntry, v.Gives o.type o.id o.title := by
  constructor
  · rintro ⟨type, inner, hoffers⟩
    have hgives : v.Gives type _ _ := ⟨inner, hoffers, rfl, rfl⟩
    exact ⟨⟨type, _, _⟩, hgives⟩
  · rintro ⟨o, inner, hoffers, -⟩
    exact ⟨o.type, inner, hoffers⟩

theorem ofJson_eq_error (h : ¬v.IsOption) (index : Nat) :
    ∃ fault, ofJson index v = .error fault ∧ fault.Of index v := by
  obtain ⟨o, -, hgives⟩ | hfault := ofJson_cases index v
  · exact absurd (isOption_iff.2 ⟨o, hgives⟩) h
  · exact hfault

/-- The elements are read as the options that they give, one for each. -/
theorem ofItems_eq_ok_iff : ofItems index items = .ok os ↔
    List.Forall₂ (fun v (o : OptionEntry) => v.Gives o.type o.id o.title) items os := by
  induction items generalizing index os with
  | nil => simp [ofItems, eq_comm]
  | cons v rest ih =>
    rw [ofItems, List.forall₂_cons_left_iff]
    cases hv : ofJson index v with
    | error e =>
      simp only [reduceCtorEq, false_iff]
      rintro ⟨o, tail, hgives, -⟩
      rw [ofJson_eq_ok_iff.2 hgives] at hv
      cases hv
    | ok o =>
      have hunique : ∀ p : OptionEntry, v.Gives p.type p.id p.title ↔ p = o := by
        intro p
        have hiff : ofJson index v = .ok p ↔ _ := ofJson_eq_ok_iff
        rw [← hiff, hv, Except.ok.injEq]
        exact eq_comm
      have hrest : ∀ tail, ofItems (index + 1) rest = .ok tail ↔ _ := fun tail => ih
      simp only [hunique, ← hrest, exists_and_left, exists_eq_left]
      cases ofItems (index + 1) rest <;> simp [Except.map, eq_comm]

theorem exists_ofItems_eq_ok_iff : (∃ os, ofItems index items = .ok os) ↔ ∀ v ∈ items, v.IsOption := by
  simp only [ofItems_eq_ok_iff]
  induction items with
  | nil => simp
  | cons v rest ih =>
    rw [List.forall_mem_cons, ← ih, isOption_iff]
    constructor
    · rintro ⟨_, h⟩
      cases h with
      | cons hv hrest => exact ⟨⟨_, hv⟩, _, hrest⟩
    · rintro ⟨⟨o, hv⟩, os, hrest⟩
      exact ⟨o :: os, .cons hv hrest⟩

/-- The first element that is no option decides why the list is refused. -/
theorem ofItems_eq_error {before : List Json} (hbefore : ∀ w ∈ before, w.IsOption) (hv : ¬v.IsOption)
    (after : List Json) (index : Nat) : ∃ fault, ofItems index (before ++ v :: after) = .error fault ∧
      fault.Of (index + before.length) v := by
  induction before generalizing index with
  | nil =>
    obtain ⟨fault, hfault, hof⟩ := ofJson_eq_error hv index
    exact ⟨fault, by rw [List.nil_append, ofItems, hfault], hof⟩
  | cons w before ih =>
    obtain ⟨hw, hrest⟩ := List.forall_mem_cons.1 hbefore
    obtain ⟨o, hgives⟩ := isOption_iff.1 hw
    obtain ⟨fault, hfault, hof⟩ := ih hrest (index + 1)
    have hlength : index + 1 + before.length = index + (w :: before).length := by
      rw [List.length_cons]
      omega
    refine ⟨fault, ?_, hlength ▸ hof⟩
    rw [List.cons_append, ofItems, ofJson_eq_ok_iff.2 hgives, hfault]
    rfl

end Elements

end OptionEntry

/-! ### What is written of an option -/

namespace TemplateOption

/-- What is written of an option gives the option again. -/
theorem gives_write {v : Json} {o : TemplateOption} (hv : v.IsCanonical) (h : v.Gives o.type o.id o.title) :
    o.write.canonical.Gives o.type o.id o.title := by
  have hne := h.type_ne
  obtain ⟨given, hoffers, hid, htitle⟩ := h
  have hgiven : Json.IsCanonical (.obj given) := hv.of_get? hoffers.holds
  have hheld : ∀ key, ((given.get? key).getD .null).IsCanonical := by
    intro key
    cases hkey : given.get? key with
    | none => trivial
    | some w => exact hgiven.of_get? (u := .obj given) hkey
  -- No key stands twice, since the type is not the key under which it stands.
  have hkeys : (([("type", .str o.type), (o.type, .obj ([("id", o.id)] ++ (o.title.map ("title", ·)).toList ++
      [("target", .strings o.target)]))] : Json.Object).map (·.1)).Nodup := by
    simpa using Ne.symm hne
  have hinner : (([("id", o.id)] ++ (o.title.map ("title", ·)).toList ++
      [("target", .strings o.target)] : Json.Object).map (·.1)).Nodup := by
    cases o.title <;> simp
  refine ⟨Json.Object.ofList (Json.canonicalFields ([("id", o.id)] ++ (o.title.map ("title", ·)).toList ++
      [("target", .strings o.target)])), ⟨?_, ?_⟩, ?_, ?_⟩
  · rw [write, Json.canonical, Json.get?, Json.Object.get?_canonical hkeys]
    simp [Json.canonical]
  · rw [write, Json.canonical, Json.get?, Json.Object.get?_canonical hkeys, List.lookup_cons, beq_eq_false_iff_ne.2 hne,
      List.lookup_cons_self, Option.map_some, Json.canonical]
  · rw [Json.Object.get?_canonical hinner]
    simp [hid, Json.canonical_eq_self (hheld "id")]
  · rw [Json.Object.get?_canonical hinner, htitle]
    split
    · simp [List.lookup_cons, Json.canonical_eq_self (hheld "title")]
    · rfl

end TemplateOption

/-! ### What a template sends -/

/-- The options that a message sends, if it is that of a template. -/
def Message.options? (m : Message) : Option (List TemplateOption) :=
  match m.content with
  | .template _ _ options => some options
  | _ => none

/-- The form describes its template, with a text of options that is not empty. -/
def Form.Template.HoldsOptions (f : Form.Template) (text : String) : Prop :=
  ∃ details, f.template = some (.detailed details) ∧ details.options = some text ∧ text ≠ ""

namespace Compile

section Templates
variable {n : Node} {ix : Index} {f : Form.Template} {text : String} {entries : List OptionEntry} {m : Message}

theorem ofNode_of_form (h : n.form Form.Template.record = .ok f) : Message.ofNode .template n ix =
    match f.options with
    | .error fault => .error (.malformedOptions n.id fault)
    | .ok entries => .ok (some { id := n.id, kind := .template, content := f.content entries n.id ix,
                                 delay := n.delay }) := by
  simp only [Message.ofNode, Message.ofTemplate, h, bind, Except.bind]
  cases f.options <;> rfl

theorem options_of_holdsOptions (h : f.HoldsOptions text) : f.options =
    match Json.parseList text with
    | .error e => .error (.unreadable e)
    | .ok items => OptionEntry.ofItems 0 items := by
  obtain ⟨details, hdetails, htext, hne⟩ := h
  have hoptions : f.options = OptionEntry.ofText text := by
    simp only [Form.Template.options, Form.Template.details?, hdetails, Option.bind_some, htext]
  cases hitems : Json.parseList text <;> simp only [hoptions, OptionEntry.ofText, hne, if_false, hitems]

theorem options_of_not_holdsOptions (h : ∀ text, ¬f.HoldsOptions text) : f.options = .ok [] := by
  unfold Form.Template.options Form.Template.details?
  obtain ⟨_ | ⟨_ | details⟩, _⟩ := f
  · rfl
  · rfl
  · cases htext : details.options with
    | none => simp [htext]
    | some text =>
      have hempty : text = "" := Classical.byContradiction fun hne => h text ⟨details, rfl, htext, hne⟩
      simp [htext, hempty, OptionEntry.ofText]

/-- The options that a form holds are given by the elements of a list that was read. -/
theorem exists_items_of_options (h : f.options = .ok entries) : ∃ items : List Json, (∀ v ∈ items, v.IsCanonical) ∧
    List.Forall₂ (fun v (o : OptionEntry) => v.Gives o.type o.id o.title) items entries := by
  by_cases hbare : ∀ text, ¬f.HoldsOptions text
  · rw [options_of_not_holdsOptions hbare, Except.ok.injEq] at h
    exact ⟨[], nofun, h ▸ .nil⟩
  · obtain ⟨text, htext⟩ := not_forall_not.1 hbare
    rw [options_of_holdsOptions htext] at h
    cases hitems : Json.parseList text with
    | error e => simp [hitems] at h
    | ok items =>
      simp only [hitems] at h
      exact ⟨items, Json.isCanonical_of_parseList hitems, OptionEntry.ofItems_eq_ok_iff.1 h⟩

/-- The options that are sent for the ones that were read. -/
theorem options?_eq_of_ofNode (h : n.form Form.Template.record = .ok f)
    (hm : Message.ofNode .template n ix = .ok (some m)) : ∃ entries, f.options = .ok entries ∧
      m.options? = some (entries.zipIdx.map fun p =>
        p.1.resolve (ix.successors n.id (some (.choiceAt n.id p.2)))) := by
  rw [ofNode_of_form h] at hm
  cases hoptions : f.options with
  | error fault => simp [hoptions] at hm
  | ok entries =>
    simp only [hoptions, Except.ok.injEq, Option.some.injEq] at hm
    subst hm
    exact ⟨entries, rfl, rfl⟩

theorem exists_ofNode_iff (h : n.form Form.Template.record = .ok f) :
    (∃ m, Message.ofNode .template n ix = .ok (some m)) ↔ ∃ entries, f.options = .ok entries := by
  rw [ofNode_of_form h]
  cases f.options <;> simp

/-- Elements and the options that are sent for them stand at the same positions. -/
theorem forall₂_resolve {items : List Json} (h : List.Forall₂ (fun v (o : OptionEntry) => v.Gives o.type o.id o.title)
    items entries) (target : Nat → List String) (index : Nat) :
    List.Forall₂ (fun p (o : TemplateOption) => p.1.Gives o.type o.id o.title ∧ o.target = target p.2)
      (items.zipIdx index) ((entries.zipIdx index).map fun p => p.1.resolve (target p.2)) := by
  induction h generalizing index with
  | nil => exact .nil
  | cons hgives _ ih => exact .cons ⟨hgives, rfl⟩ (ih (index + 1))

theorem forall_type_ne {items : List (Json × Nat)} {options : List TemplateOption} (target : Nat → List String)
    (h : List.Forall₂ (fun p o => p.1.Gives o.type o.id o.title ∧ o.target = target p.2) items options) :
    ∀ o ∈ options, o.type ≠ "type" := by
  induction h with
  | nil => exact nofun
  | cons hgives _ ih => exact List.forall_mem_cons.2 ⟨hgives.1.type_ne, ih⟩

/-- What is written of the options that are sent reads as the options that were read. -/
theorem forall₂_write {items : List Json} (hitems : ∀ v ∈ items, v.IsCanonical)
    (h : List.Forall₂ (fun v (o : OptionEntry) => v.Gives o.type o.id o.title) items entries)
    (target : Nat → List String) (index : Nat) :
    List.Forall₂ (fun v (o : OptionEntry) => v.Gives o.type o.id o.title)
      (((entries.zipIdx index).map fun p => p.1.resolve (target p.2)).map fun o => o.write.canonical) entries := by
  induction h generalizing index with
  | nil => exact .nil
  | @cons v o items entries hgives _ ih =>
    obtain ⟨hv, hrest⟩ := List.forall_mem_cons.1 hitems
    exact .cons (TemplateOption.gives_write (o := o.resolve (target index)) hv hgives) (ih hrest (index + 1))

end Templates

/-- What comes of a template node by the options that its form holds. -/
structure Optioned (n : Node) (ix : Index) (f : Form.Template) : Prop where
  bare : (∀ text, ¬f.HoldsOptions text) →
    ∃ m, Message.ofNode .template n ix = .ok (some m) ∧ m.options? = some []
  compiles : ∀ text, f.HoldsOptions text → ((∃ m, Message.ofNode .template n ix = .ok (some m)) ↔
    ∃ items, Json.parseList text = .ok items ∧ ∀ v ∈ items, v.IsOption)
  sent : ∀ text items m, f.HoldsOptions text → Json.parseList text = .ok items →
    Message.ofNode .template n ix = .ok (some m) → ∃ options, m.options? = some options ∧
      List.Forall₂ (fun p o => p.1.Gives o.type o.id o.title ∧
        o.target = ix.successors n.id (some (.choiceAt n.id p.2))) items.zipIdx options ∧
      ∀ o ∈ options, o.type ≠ "type"
  /-- The first element that is no option is named. -/
  refused : ∀ text before v after, f.HoldsOptions text → Json.parseList text = .ok (before ++ v :: after) →
    (∀ w ∈ before, w.IsOption) → ¬v.IsOption → ∃ fault, fault.Of before.length v ∧
      Message.ofNode .template n ix = .error (.malformedOptions n.id fault)
  /-- Given for options what was written of those that were sent, a node of the same id sends the same again. -/
  again : ∀ m options, Message.ofNode .template n ix = .ok (some m) → m.options? = some options →
    ∀ n' f' text, n'.id = n.id → n'.form Form.Template.record = .ok f' → f'.HoldsOptions text →
      Json.parseList text = .ok (options.map fun o => o.write.canonical) →
      ∃ m', Message.ofNode .template n' ix = .ok (some m') ∧ m'.options? = some options

theorem optioned_of_form {n : Node} {ix : Index} {f : Form.Template} (h : n.form Form.Template.record = .ok f) :
    Optioned n ix f where
  bare hbare := by
    rw [ofNode_of_form h, options_of_not_holdsOptions hbare]
    exact ⟨_, rfl, rfl⟩
  compiles text htext := by
    rw [exists_ofNode_iff h, options_of_holdsOptions htext]
    cases Json.parseList text with
    | error e => simp
    | ok items => simp only [OptionEntry.exists_ofItems_eq_ok_iff, Except.ok.injEq, exists_eq_left']
  sent text items m htext hitems hm := by
    obtain ⟨entries, hentries, hm⟩ := options?_eq_of_ofNode h hm
    simp only [options_of_holdsOptions htext, hitems, OptionEntry.ofItems_eq_ok_iff] at hentries
    have hsent := forall₂_resolve hentries (fun i => ix.successors n.id (some (.choiceAt n.id i))) 0
    exact ⟨_, hm, hsent, forall_type_ne (fun i => ix.successors n.id (some (.choiceAt n.id i))) hsent⟩
  refused text before v after htext hitems hbefore hv := by
    obtain ⟨fault, hfault, hof⟩ := OptionEntry.ofItems_eq_error hbefore hv after 0
    rw [Nat.zero_add] at hof
    refine ⟨fault, hof, ?_⟩
    rw [ofNode_of_form h, options_of_holdsOptions htext]
    simp only [hitems, hfault]
  again m options hm hoptions n' f' text hid hf' htext hitems := by
    obtain ⟨entries, hentries, hsent⟩ := options?_eq_of_ofNode h hm
    cases hoptions.symm.trans hsent
    obtain ⟨given, hgiven, hgives⟩ := exists_items_of_options hentries
    have hagain : f'.options = .ok entries := by
      simp only [options_of_holdsOptions htext, hitems, OptionEntry.ofItems_eq_ok_iff]
      exact forall₂_write hgiven hgives (fun i => ix.successors n.id (some (.choiceAt n.id i))) 0
    refine ⟨_, by rw [ofNode_of_form hf', hagain], ?_⟩
    rw [← hid]
    rfl

/-- A button and a link. -/
def brochureOptions : String :=
  "[\x7b\"type\":\"button\",\"button\":\x7b\"id\":7,\"title\":\"Go\"\x7d\x7d,\x7b\"type\":\"url\",\"url\":\x7b\x7d\x7d]"

def brochureForm : Form.Template where
  template := some (.detailed { id := some (.str "spring"), type := none, options := some brochureOptions, rest := [] })
  media := none

def brochure : Node where
  id := "brochure"
  type := "template"
  data := .obj [("template", .obj [("options", .str brochureOptions), ("templateId", .str "spring")])]

theorem holdsOptions_brochure : brochureForm.HoldsOptions brochureOptions :=
  ⟨_, rfl, rfl, by decide⟩

theorem parseList_brochureOptions : Json.parseList brochureOptions = .ok
    [.obj [("button", .obj [("id", .nat 7), ("title", .str "Go")]), ("type", .str "button")],
     .obj [("type", .str "url"), ("url", .obj [])]] := by
  -- The evaluation takes equations of the order and of pairs that only the imports beyond `Forall2` have.
  cbv

theorem optioned_brochure : brochure.form Form.Template.record = .ok brochureForm ∧
    Optioned brochure .nowhere brochureForm ∧
    ∃ m, Message.ofNode .template brochure .nowhere = .ok (some m) := by
  have hform : brochure.form Form.Template.record = .ok brochureForm := rfl
  have hoptioned : Optioned brochure .nowhere brochureForm := optioned_of_form hform
  refine ⟨hform, hoptioned, (hoptioned.compiles _ holdsOptions_brochure).2 ⟨_, parseList_brochureOptions, ?_⟩⟩
  rintro v (_ | ⟨_, _ | ⟨_, ⟨⟩⟩⟩)
  · exact ⟨"button", _, rfl, rfl⟩
  · exact ⟨"url", _, rfl, rfl⟩

end Compile

end MessageFlow
