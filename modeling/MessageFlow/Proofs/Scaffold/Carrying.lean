import MessageFlow.Proofs.Json.Objects
import MessageFlow.Proofs.Scaffold.Recompile

/-! # What a scaffold carries

The content that a specification names is told here by the specification as it is given: the words of its body, the
titles of rows and buttons, the media of an attachment, of a head and of a template. A scaffold, once it is compiled,
sends all of it that its form has a place for: of the sections of a list the form holds the first, of the heads it
knows those of images, videos and documents, and a template that is given by its name announces no media. What lies
outside is not sent. -/

namespace MessageFlow

namespace Json

/-- The value stands in the other, at any depth. -/
inductive Occurs (v : Json) : Json → Prop
  | self : Occurs v v
  | item {items : List Json} {u : Json} (hu : u ∈ items) (h : Occurs v u) : Occurs v (.arr items)
  | field {fields : List (String × Json)} {key : String} {u : Json} (hu : (key, u) ∈ fields) (h : Occurs v u) :
    Occurs v (.obj fields)

section Occurrences
variable {u v : Json} {items : List Json} {fields : List (String × Json)}

theorem occurs_arr_iff : Occurs v (.arr items) ↔ v = .arr items ∨ ∃ u ∈ items, Occurs v u := by
  constructor
  · intro h
    cases h with
    | self => exact Or.inl rfl
    | item hu h => exact Or.inr ⟨_, hu, h⟩
  · rintro (rfl | ⟨u, hu, h⟩)
    · exact .self
    · exact .item hu h

theorem occurs_obj_iff : Occurs v (.obj fields) ↔ v = .obj fields ∨ ∃ f ∈ fields, Occurs v f.2 := by
  constructor
  · intro h
    cases h with
    | self => exact Or.inl rfl
    | field hu h => exact Or.inr ⟨_, hu, h⟩
  · rintro (rfl | ⟨f, hf, h⟩)
    · exact .self
    · exact .field hf h

theorem occurs_str_iff {s : String} : Occurs v (.str s) ↔ v = .str s := by
  constructor
  · rintro ⟨⟩
    rfl
  · rintro rfl
    exact .self

theorem occurs_null_iff : Occurs v .null ↔ v = .null := by
  constructor
  · rintro ⟨⟩
    rfl
  · rintro rfl
    exact .self

theorem Occurs.of_mem (hu : u ∈ items) (h : Occurs v u.canonical) : Occurs v (Json.arr items).canonical := by
  rw [canonical_arr]
  exact .item (List.mem_map_of_mem hu) h

theorem Occurs.of_lookup {l : List (String × Json)} (key : String) (hkeys : (l.map (·.1)).Nodup)
    (hu : l.lookup key = some u) (h : Occurs v u.canonical) : Occurs v (Json.obj l).canonical := by
  have hget := Object.get?_canonical hkeys key
  rw [hu, Option.map_some] at hget
  rw [canonical]
  exact .field (Object.mem_of_get? hget) h

end Occurrences

end Json

/-- Where a value is held for a field, the field reads from it. -/
theorem Field.read_of_reads {α : Type} {f : Field α} {held : Option Json} {a : α} {v : Json}
    (h : f.Reads held a) (hheld : held = some v) : f.codec.read v = .ok a := by
  subst hheld
  exact h

namespace Scaffold
open Compile

/-! ### What a specification names -/

/-- The parts of specifications that hold content. -/
inductive Part where
  | body
  | row (sectionIndex : Nat)
  | button
  | attachment
  | head (type : String)
  | reference

/-- The place of the body among the fields of a specification. -/
def bodyPlace? : SingleKind → Option Nat
  | .text | .catalogMessage | .product => some 0
  | .list | .button | .flow | .productList => some 1
  | .image | .video | .document | .template => none

/-- The content that a specification of a kind names. -/
inductive Names (spec : Json) : SingleKind → Part → Json → Prop
  | body {k : SingleKind} {place : Nat} {body : Json} {words : String} (hk : bodyPlace? k = some place)
      (hbody : spec.at? "body" place = some body) (hwords : body.at? "text" 0 = some (.str words)) :
    Names spec k .body (.str words)
  | row {action part row : Json} {sections rows : List Json} {i : Nat} {title : String}
      (haction : spec.at? "action" 2 = some action) (hsections : action.at? "sections" 1 = some (.arr sections))
      (hpart : sections[i]? = some part) (hrows : part.at? "rows" 0 = some (.arr rows)) (hrow : row ∈ rows)
      (htitle : row.at? "title" 0 = some (.str title)) : Names spec .list (.row i) (.str title)
  | button {action button reply : Json} {buttons : List Json} {title : String}
      (haction : spec.at? "action" 2 = some action) (hbuttons : action.at? "buttons" 0 = some (.arr buttons))
      (hbutton : button ∈ buttons) (hreply : button.at? "reply" 0 = some reply)
      (htitle : reply.at? "title" 0 = some (.str title)) : Names spec .button .button (.str title)
  | attachment {k : SingleKind} {media : Json} (hk : k = .image ∨ k = .video ∨ k = .document)
      (hmedia : spec.at? "media" 0 = some media) (hset : media ≠ .null) : Names spec k .attachment media
  | head {k : SingleKind} {head media : Json} {type : String} (hk : k = .button ∨ k = .flow)
      (hhead : spec.at? "header" 0 = some head) (htype : head.get? "type" = some (.str type)) (htext : type ≠ "text")
      (hmedia : head.get? type = some media) (hset : media ≠ .null) : Names spec k (.head type) media
  | reference {media reference : Json} (hmedia : spec.at? "media" 1 = some media)
      (hreference : (["image", "video", "document"].filterMap fun type => media.get? type).find? Json.isTruthy =
        some reference) : Names spec .template .reference reference

/-- The parts for which forms have a place: of the rows those of the first section, of the heads those of images,
    videos and documents, and no media of templates. -/
def Part.Placed : Part → Prop
  | .body | .button | .attachment => True
  | .row i => i = 0
  | .head type => type = "image" ∨ type = "video" ∨ type = "document"
  | .reference => False

/-- The canvas of a flow compiles to a trigger and a message, and the data of the message holds all that the
    specification names in the given parts. -/
def Carries (k : SingleKind) (spec : Json) (parts : Part → Prop) (f : Flow) : Prop :=
  ∃ compiled trigger own, f.canvas.compile {} = .ok compiled ∧ compiled.steps = [.message trigger, .message own] ∧
    trigger.kind = .triggers ∧ own.kind = k.stepKind ∧ own.subKind = k.subKind ∧
    ∀ part v, Names spec k part v → parts part → v.canonical.Occurs own.content.write.canonical

section Naming
variable {k : SingleKind} {spec sent v : Json} {part : Part}

/-- Every element of a list that reads gives an element of what is read. -/
theorem exists_read_of_mem {α : Type} {read : Json → Except ReadError α} {items : List Json} {xs : List α}
    (h : List.Forall₂ (fun v a => read v = .ok a) items xs) (hv : v ∈ items) : ∃ a ∈ xs, read v = .ok a := by
  induction h with
  | nil => cases hv
  | cons ha _ ih =>
    rcases List.mem_cons.1 hv with rfl | hv
    · exact ⟨_, List.mem_cons_self, ha⟩
    · obtain ⟨a, hmem, hread⟩ := ih hv
      exact ⟨a, List.mem_cons_of_mem _ hmem, hread⟩

/-- What is sent for a specification with a body holds the words of its body. -/
theorem exists_body (h : Describes spec k sent) {place : Nat} (hk : bodyPlace? k = some place) :
    ∃ b l, (Field.required "body" Spec.Body.record.codec).Reads (spec.at? "body" place) b ∧ sent = .obj l ∧
      (l.map (·.1)).Nodup ∧ l.lookup "body" = some (bodyData b) := by
  cases h with
  | text h =>
    cases hk
    obtain ⟨_, b, rfl, hb, rfl⟩ := Record.reads_of_read rfl h
    exact ⟨b, _, hb, rfl, by simp, rfl⟩
  | media hm _ => rcases hm with rfl | rfl | rfl <;> cases hk
  | list h _ =>
    cases hk
    obtain ⟨_, _, ⟨_, b, ⟨_, _, rfl, -, rfl⟩, hb, rfl⟩, -, rfl⟩ := Record.reads_of_read rfl h
    exact ⟨b, _, hb, rfl, by simp, rfl⟩
  | button h =>
    cases hk
    obtain ⟨_, _, ⟨_, b, ⟨_, _, rfl, -, rfl⟩, hb, rfl⟩, -, rfl⟩ := Record.reads_of_read rfl h
    exact ⟨b, _, hb, rfl, by simp, rfl⟩
  | flow h =>
    cases hk
    obtain ⟨_, _, ⟨_, _, ⟨_, b, ⟨_, _, rfl, -, rfl⟩, hb, rfl⟩, -, rfl⟩, -, rfl⟩ := Record.reads_of_read rfl h
    exact ⟨b, _, hb, rfl, by simp, rfl⟩
  | catalogMessage h =>
    cases hk
    obtain ⟨_, b, rfl, hb, rfl⟩ := Record.reads_of_read rfl h
    exact ⟨b, _, hb, rfl, by simp, rfl⟩
  | product h =>
    cases hk
    obtain ⟨_, _, ⟨_, b, rfl, hb, rfl⟩, -, rfl⟩ := Record.reads_of_read rfl h
    exact ⟨b, _, hb, rfl, by simp, rfl⟩
  | productList h =>
    cases hk
    obtain ⟨_, _, ⟨_, b, ⟨_, _, rfl, -, rfl⟩, hb, rfl⟩, -, rfl⟩ := Record.reads_of_read rfl h
    exact ⟨b, _, hb, rfl, by simp, rfl⟩
  | template h => cases hk

/-- What is sent for a specification with a declared head holds the head. -/
theorem exists_head (h : Describes spec k sent) (hk : k = .button ∨ k = .flow) :
    ∃ head l, (Field.required "header" Spec.Head.record.codec).Reads (spec.at? "header" 0) head ∧ sent = .obj l ∧
      (l.map (·.1)).Nodup ∧ l.lookup "header" = some (headData head) := by
  cases h with
  | button h =>
    obtain ⟨_, _, ⟨_, _, ⟨_, head, rfl, hhead, rfl⟩, -, rfl⟩, -, rfl⟩ := Record.reads_of_read rfl h
    exact ⟨head, _, hhead, rfl, by simp, rfl⟩
  | flow h =>
    obtain ⟨_, _, ⟨_, _, ⟨_, _, ⟨_, head, rfl, hhead, rfl⟩, -, rfl⟩, -, rfl⟩, -, rfl⟩ := Record.reads_of_read rfl h
    exact ⟨head, _, hhead, rfl, by simp, rfl⟩
  | media hm _ => rcases hm with rfl | rfl | rfl <;> simp at hk
  | _ => simp at hk

/-- A head has the type that it holds, and keeps what it holds under any other key. -/
theorem held_of_read_head {head : Spec.Head} (h : Spec.Head.record.read v = .ok head) :
    v.get? "type" = some (.str head.type) ∧ ∀ key ∉ ["type", "text"], head.rest.get? key = v.get? key := by
  cases v with
  | obj fields =>
    rw [OpenRecord.read] at h
    split at h
    · cases h
    · next y hy =>
      cases h
      have hreads := (Schema.readFields_eq_read_iff rfl).1 (Outcome.toExcept_eq_ok_iff.1 hy)
      obtain ⟨_, words, ⟨_, type, rfl, htype, rfl⟩, -, rfl⟩ := hreads
      refine ⟨?_, fun key hkey => ?_⟩
      · change Field.Reads _ (Json.Object.get? fields "type") _ at htype
        show Json.Object.get? fields "type" = some (.str type)
        cases hheld : Json.Object.get? fields "type" with
        | none =>
          rw [hheld] at htype
          cases htype
        | some u =>
          rw [hheld] at htype
          exact congrArg some (Codec.read_text_eq_ok_iff.1 htype)
      · exact (Json.Object.get?_without fields _ key).trans (if_neg hkey)
  | _ => cases h

theorem headData_media {head : Spec.Head} (h : head.type = "image" ∨ head.type = "video" ∨ head.type = "document") :
    headData head = .obj [("type", .str head.type), (head.type, (Json.ofOption (head.rest.get? head.type)).canonical)] := by
  have htext : head.type ≠ "text" := by
    rcases h with h | h | h <;> rw [h] <;> decide
  have hmedia : head.type ∈ ["image", "video", "document"] := by simpa using h
  rw [headData, if_neg htext, if_pos hmedia]

theorem exists_row {part row : Json} {rows : List Json} {read : Spec.Section} {title : String}
    (h : Spec.Section.record.read part = .ok read) (hrows : part.at? "rows" 0 = some (.arr rows)) (hrow : row ∈ rows)
    (htitle : row.at? "title" 0 = some (.str title)) : ∃ r ∈ read.rows, r.title = some title := by
  obtain ⟨_, _, rfl, hread, rfl⟩ := Record.reads_of_read (r := Spec.Section.record) rfl h
  obtain ⟨items, hitems, hreads⟩ := Codec.read_list_eq_ok_iff.1 (Field.read_of_reads hread hrows)
  cases hitems
  obtain ⟨r, hmem, hr⟩ := exists_read_of_mem hreads hrow
  obtain ⟨_, _, rfl, hwords, rfl⟩ := Record.reads_of_read (r := Spec.Row.record) rfl hr
  exact ⟨_, hmem, (Except.ok.inj (Field.read_of_reads hwords htitle)).symm⟩

theorem exists_button {button reply : Json} {read : Spec.ReplyButton} {title : String}
    (h : Spec.ReplyButton.record.read button = .ok read) (hreply : button.at? "reply" 0 = some reply)
    (htitle : reply.at? "title" 0 = some (.str title)) : read.reply.title = some title := by
  obtain ⟨_, _, rfl, hread, rfl⟩ := Record.reads_of_read (r := Spec.ReplyButton.record) rfl h
  obtain ⟨_, _, rfl, hwords, rfl⟩ := Record.reads_of_read (r := Spec.Reply.record) rfl (Field.read_of_reads hread hreply)
  exact (Except.ok.inj (Field.read_of_reads hwords htitle)).symm

theorem occurs_optionData (title : String) : Json.Occurs (.str title) (optionData (some title)).canonical :=
  .of_lookup "title" (by simp) rfl .self

/-- The content that a specification names in the parts that its form has a place for is sent. -/
theorem occurs_of_names (h : Describes spec k sent) (hv : Names spec k part v) (hpart : part.Placed) :
    v.canonical.Occurs sent.canonical := by
  cases hv with
  | body hk hbody hwords =>
    obtain ⟨b, l, hb, rfl, hkeys, hlookup⟩ := exists_body h hk
    obtain ⟨_, _, rfl, htext, rfl⟩ := Record.reads_of_read (r := Spec.Body.record) rfl (Field.read_of_reads hb hbody)
    cases Field.read_of_reads htext hwords
    exact .of_lookup "body" hkeys hlookup (.of_lookup "text" (by simp) rfl .self)
  | @row action part row sections rows i title haction hsections hsection hrows hrow htitle =>
    cases h with
    | media hm _ => simp at hm
    | @list s first rest h hs =>
      obtain ⟨_, _, ⟨_, _, ⟨_, _, rfl, -, rfl⟩, -, rfl⟩, hread, rfl⟩ := Record.reads_of_read rfl h
      obtain ⟨_, _, ⟨_, _, rfl, -, rfl⟩, hparts, rfl⟩ :=
        Record.reads_of_read (r := Spec.MenuAction.record) rfl (Field.read_of_reads hread haction)
      obtain ⟨items, hitems, hreads⟩ := Codec.read_list_eq_ok_iff.1 (Field.read_of_reads hparts hsections)
      cases hitems
      cases hs
      -- The form holds the first section, and the row is of that one.
      cases (show i = 0 from hpart)
      cases hreads with
      | cons hfirst _ =>
        cases hsection
        obtain ⟨r, hr, hrtitle⟩ := exists_row hfirst hrows hrow htitle
        have hmem := List.mem_map_of_mem (f := fun r : Spec.Row => optionData r.title) hr
        rw [hrtitle] at hmem
        refine .of_lookup "action" (by simp) rfl (.of_lookup "sections" (by simp) rfl (.of_mem List.mem_cons_self ?_))
        exact .of_lookup "rows" (by simp) rfl (.of_mem hmem (occurs_optionData title))
  | @button action button reply buttons title haction hbuttons hbutton hreply htitle =>
    cases h with
    | media hm _ => simp at hm
    | button h =>
      obtain ⟨_, _, ⟨_, _, ⟨_, _, rfl, -, rfl⟩, -, rfl⟩, hread, rfl⟩ := Record.reads_of_read rfl h
      obtain ⟨_, _, rfl, hparts, rfl⟩ :=
        Record.reads_of_read (r := Spec.ButtonsAction.record) rfl (Field.read_of_reads hread haction)
      obtain ⟨items, hitems, hreads⟩ := Codec.read_list_eq_ok_iff.1 (Field.read_of_reads hparts hbuttons)
      cases hitems
      obtain ⟨b, hb, hbread⟩ := exists_read_of_mem hreads hbutton
      have hmem := List.mem_map_of_mem
        (f := fun b : Spec.ReplyButton => Json.obj [("type", .str "reply"), ("reply", optionData b.reply.title)]) hb
      rw [exists_button hbread hreply htitle] at hmem
      refine .of_lookup "action" (by simp) rfl (.of_lookup "buttons" (by simp) rfl (.of_mem hmem ?_))
      exact .of_lookup "reply" (by simp) rfl (occurs_optionData title)
  | attachment hk hmedia _ =>
    cases h with
    | media _ h =>
      obtain ⟨_, caption, ⟨_, _, rfl, hread, rfl⟩, -, rfl⟩ := Record.reads_of_read (r := Spec.Media.record) rfl h
      cases Field.read_of_reads hread hmedia
      refine .of_lookup "media" ?_ rfl .self
      cases caption <;> simp
    | _ => simp at hk
  | head hk hhead htype _ hmedia _ =>
    obtain ⟨head, l, hread, rfl, hkeys, hlookup⟩ := exists_head h hk
    obtain ⟨hheld, hrest⟩ := held_of_read_head (Field.read_of_reads hread hhead)
    cases htype.symm.trans hheld
    -- No declared type is a name that the head reads by itself, so its media is in the rest.
    have hname : head.type ∉ ["type", "text"] := by
      rcases hpart with h | h | h <;> rw [h] <;> decide
    have hne : head.type ≠ "type" := fun heq => hname (List.mem_cons.2 (Or.inl heq))
    have hdata := headData_media hpart
    rw [hrest _ hname, hmedia] at hdata
    have hself : [("type", Json.str head.type), (head.type, (Json.ofOption (some v)).canonical)].lookup head.type =
        some v.canonical := by
      simp [List.lookup_cons, beq_eq_false_iff_ne.2 hne, Json.ofOption]
    refine .of_lookup "header" hkeys (hlookup.trans (congrArg some hdata)) (.of_lookup head.type ?_ hself ?_)
    · simp [hne.symm]
    · rw [Json.canonical_canonical]
      exact .self
  | reference _ _ => exact hpart.elim

end Naming

/-! ### What is carried, and what is not -/

section Carried
variable {k : SingleKind} {spec : Json} {ids rest : IdSource} {f : Flow} {parts : Part → Prop}

/-- A compiled scaffold carries what its specification names in the parts that its form has a place for. -/
theorem carries_of_ofSpec (hids : ids.head ≠ (ids.skip 1).head) (h : ofSpec (.single k) spec ids = .ok (f, rest)) :
    Carries k spec Part.Placed f := by
  obtain ⟨own, compiled, content, hown, hcompiled, hsteps, hdescribes⟩ := recompiles_of_ofSpec hids h
  cases (steps_of_ofSpec h).symm.trans hown
  exact ⟨compiled, _, _, hcompiled, hsteps, rfl, rfl, rfl, fun part v hv hpart => occurs_of_names hdescribes hv hpart⟩

/-- What is named in one of the parts, but stands nowhere in what is sent for the specification, is not carried. -/
theorem not_carries_of_names (hids : ids.head ≠ (ids.skip 1).head) (h : ofSpec (.single k) spec ids = .ok (f, rest))
    {part : Part} {v : Json} (hv : Names spec k part v) (hpart : parts part)
    (hout : ∀ sent, Describes spec k sent → ¬v.canonical.Occurs sent.canonical) : ¬Carries k spec parts f := by
  rintro ⟨compiled, trigger, own, hcompiled, hsteps, -, -, -, hall⟩
  obtain ⟨step, again, content, -, hagain, hsame, hdescribes⟩ := recompiles_of_ofSpec hids h
  cases hcompiled.symm.trans hagain
  cases hsteps.symm.trans hsame
  exact hout _ hdescribes (hall part v hv hpart)

end Carried

/-- A list with a row in each of two sections. -/
def courses : Json :=
  .obj [("action", .obj [("sections", .arr [.obj [("rows", .arr [.obj [("title", .str "Soup")]])],
      .obj [("rows", .arr [.obj [("title", .str "Cake")]])]])]),
    ("body", .obj [("text", .str "Tonight")]), ("header", .obj [])]

/-- A button under a head of audio. -/
def song : Json :=
  .obj [("action", .obj [("buttons", .arr [])]), ("body", .obj []),
    ("header", .obj [("audio", .str "song.mp3"), ("type", .str "audio")])]

/-- A template with an image. -/
def poster : Json := .obj [("media", .obj [("image", .str "poster.png")]), ("templateId", .str "spring")]

theorem carries_courses : ∃ f rest, ofSpec (.single .list) courses numbers = .ok (f, rest) ∧
    Carries .list courses Part.Placed f := by
  have h : ofSpec (.single .list) courses numbers = .ok (_, _) := rfl
  exact ⟨_, _, h, carries_of_ofSpec (by decide) h⟩

/-- Rows of later sections, media of other types and the media of templates are named, but not sent. -/
theorem not_carries :
    (∃ f rest, ofSpec (.single .list) courses numbers = .ok (f, rest) ∧ ¬Carries .list courses (fun _ => True) f) ∧
    (∃ f rest, ofSpec (.single .button) song numbers = .ok (f, rest) ∧ ¬Carries .button song (fun _ => True) f) ∧
    (∃ f rest, ofSpec (.single .template) poster numbers = .ok (f, rest) ∧
      ¬Carries .template poster (fun _ => True) f) := by
  have hids : numbers.head ≠ (numbers.skip 1).head := by decide
  refine ⟨?_, ?_, ?_⟩
  · have h : ofSpec (.single .list) courses numbers = .ok (_, _) := rfl
    have hcake : Names courses .list (.row 1) (.str "Cake") := .row rfl rfl rfl rfl List.mem_cons_self rfl
    refine ⟨_, _, h, not_carries_of_names hids h hcake trivial fun sent hsent hoccurs => ?_⟩
    cases hsent with
    | media hm _ => simp at hm
    | list hread hsections =>
      cases hread
      cases hsections
      change Json.Occurs (.str "Cake") (.obj
        [("action", .obj [("button", .str ""), ("sections", .arr [.obj [("rows", .arr [.obj
          [("id", .str "Soup"), ("target", .arr []), ("title", .str "Soup")]]), ("title", .str "")]])]),
         ("body", .obj [("text", .str "Tonight")]), ("header", .obj [("text", .null), ("type", .str "text")])]) at hoccurs
      simp [Json.occurs_obj_iff, Json.occurs_arr_iff, Json.occurs_str_iff, Json.occurs_null_iff] at hoccurs
  · have h : ofSpec (.single .button) song numbers = .ok (_, _) := rfl
    have hmedia : Names song .button (.head "audio") (.str "song.mp3") :=
      .head (Or.inl rfl) rfl rfl (by decide) rfl nofun
    refine ⟨_, _, h, not_carries_of_names hids h hmedia trivial fun sent hsent hoccurs => ?_⟩
    cases hsent with
    | media hm _ => simp at hm
    | button hread =>
      cases hread
      change Json.Occurs (.str "song.mp3") (.obj
        [("action", .obj [("buttons", .arr [])]), ("body", .obj [("text", .str "")]),
         ("header", .obj [("audio", .null), ("type", .str "audio")])]) at hoccurs
      simp [Json.occurs_obj_iff, Json.occurs_arr_iff, Json.occurs_str_iff, Json.occurs_null_iff] at hoccurs
  · have h : ofSpec (.single .template) poster numbers = .ok (_, _) := rfl
    have hreference : Names poster .template .reference (.str "poster.png") := .reference rfl rfl
    refine ⟨_, _, h, not_carries_of_names hids h hreference trivial fun sent hsent hoccurs => ?_⟩
    cases hsent with
    | media hm _ => simp at hm
    | template hread =>
      cases hread
      change Json.Occurs (.str "poster.png") (.obj [("templateId", .str "spring")]) at hoccurs
      simp [Json.occurs_obj_iff, Json.occurs_str_iff] at hoccurs

end Scaffold
end MessageFlow
