import MessageFlow.Proofs.Compile.Arrangement
import MessageFlow.Proofs.Compile.Exits
import MessageFlow.Proofs.Compile.Stripping

/-! # What a step depends on

The step of a node depends on what the node holds and where it leads, and that of a group besides on the nodes
below the group, at any depth, and on where these lead. Nothing else on a canvas has a part in it: what else
stands there, in which order and of what kind, and where that leads, may differ between two canvases that give
a node the same step. -/

namespace MessageFlow

/-! ### Nodes below a node -/

namespace Compile

/-- What of a node goes into steps. -/
structure Outline where
  id : String
  parent : Option String
  data : Json
  kind : Option MessageKind

def outline (s : Settings) (n : Node) : Outline := ⟨n.id, n.parent, n.data, s.kindOf n.type⟩

def known (s : Settings) (nodes : List Node) : List Node := nodes.filter fun n => (s.kindOf n.type).isSome

open Classical in
/-- The nodes of known kind that sit below a node, at any depth, in their order on the canvas. -/
noncomputable def below (c : Canvas) (s : Settings) (n : Node) : List Node :=
  (known s c.nodes).filter fun m => Relation.TransGen (SitsIn c s) m n

/-- A node of one canvas and one of another are alike, and so is what sits below them; the same edges leave
    them, and the nodes below. -/
structure Alike (c : Canvas) (s : Settings) (n : Node) (c' : Canvas) (s' : Settings) (n' : Node) : Prop where
  id : n'.id = n.id
  data : n'.data = n.data
  kind : s'.kindOf n'.type = s.kindOf n.type
  below : (below c' s' n').map (outline s') = (below c s n).map (outline s)
  edges : ∀ m, m = n ∨ m ∈ Compile.below c s n →
    (c'.edges.filter fun e => e.source == m.id) = c.edges.filter fun e => e.source == m.id

section Below
variable {c : Canvas} {s : Settings} {m n g : Node}

theorem mem_nodes_of_within (hn : n ∈ c.nodes) (hm : Relation.ReflTransGen (SitsIn c s) m n) : m ∈ c.nodes := by
  rcases Relation.ReflTransGen.cases_head hm with rfl | ⟨g, hs, -⟩
  · exact hn
  · exact hs.node

theorem mem_known {nodes : List Node} : m ∈ known s nodes ↔ m ∈ nodes ∧ (s.kindOf m.type).isSome := by
  rw [known, List.mem_filter]

theorem mem_below : m ∈ below c s n ↔ m ∈ known s c.nodes ∧ Relation.TransGen (SitsIn c s) m n := by
  simp only [below, List.mem_filter, decide_eq_true_eq]

/-- Of the nodes that sit in a group, those of known kind are told by what sits below a node around it. -/
theorem outline_members (hg : g ∈ c.nodes) (hk : s.kindOf g.type = some .group)
    (hw : Relation.ReflTransGen (SitsIn c s) g n) :
    (known s (c.members g.id)).map (outline s) =
      ((below c s n).map (outline s)).filter fun m => m.parent == some g.id := by
  have hmembers : known s (c.members g.id) = (known s c.nodes).filter fun m => m.parent == some g.id := by
    rw [known, known, Canvas.members, List.filter_comm]
  rw [hmembers, List.filter_map, below, List.filter_filter]
  refine congrArg _ (List.filter_congr fun m hm => ?_)
  rw [Bool.eq_iff_iff]
  simp only [Bool.and_eq_true, decide_eq_true_eq, beq_iff_eq, Function.comp_apply]
  exact ⟨fun hp => ⟨hp, .head' ⟨(mem_known.1 hm).1, hg, hk, hp⟩ hw⟩, And.left⟩

/-- The nodes below a node have their ids among ids that are closed under sitting in one another. -/
theorem id_mem_of_below {ids : List String}
    (hids : ∀ m ∈ c.nodes, ∀ g ∈ c.nodes, s.kindOf g.type = some .group → m.parent = some g.id →
      g.id = n.id ∨ g.id ∈ ids → m.id ∈ ids)
    (h : Relation.TransGen (SitsIn c s) m n) : m.id ∈ ids := by
  induction h using Relation.TransGen.head_induction_on with
  | single hs => exact hids _ hs.node _ hs.group hs.kind hs.parent (.inl rfl)
  | head hs _ ih => exact hids _ hs.node _ hs.group hs.kind hs.parent (.inr ih)

/-- If they all sit below the node, they are the nodes below it. -/
theorem below_eq_of_ids (ids : List String) {nodes : List Node}
    (hids : ∀ m ∈ c.nodes, ∀ g ∈ c.nodes, s.kindOf g.type = some .group → m.parent = some g.id →
      g.id = n.id ∨ g.id ∈ ids → m.id ∈ ids)
    (hnodes : ((known s c.nodes).filter fun m => m.id ∈ ids) = nodes)
    (hin : ∀ m ∈ nodes, Relation.TransGen (SitsIn c s) m n) : below c s n = nodes := by
  rw [below, ← hnodes]
  refine List.filter_congr fun m hm => decide_eq_decide.2 ⟨id_mem_of_below hids, fun hid => hin m ?_⟩
  exact hnodes ▸ List.mem_filter.2 ⟨hm, decide_eq_true hid⟩

end Below

/-! ### Steps -/

section Steps
variable {c c' : Canvas} {s s' : Settings} {n n' : Node} {d d' : Nat}

/-- Nodes of unknown kind have no part in a run. -/
theorem inTurn_known (p : Plan) (work : List Node) :
    inTurn (stepWithin p d) ((known s work).map (sort s)) = inTurn (stepWithin p d) (work.map (sort s)) := by
  unfold known
  induction work with
  | nil => rfl
  | cons n rest ih =>
    rw [List.filter_cons]
    cases hk : s.kindOf n.type with
    | none =>
      rw [if_neg (by simp), List.map_cons, inTurn, stepWithin_of_unknown hk, ih]
      cases inTurn (stepWithin p d) (rest.map (sort s)) <;> rfl
    | some k => rw [if_pos (by simp), List.map_cons, List.map_cons, inTurn, inTurn, ih]

/-- Nodes that correspond and have the same steps each have the same steps in turn. -/
theorem inTurn_eq_of_outlines {p p' : Plan} {work work' : List Node} {out out' : List Step}
    (hwork : work'.map (outline s') = work.map (outline s))
    (hstep : ∀ m ∈ work, ∀ m' ∈ work', outline s' m' = outline s m → ∀ o o',
      stepWithin p d (sort s m) = .ok o → stepWithin p' d' (sort s' m') = .ok o' → o' = o)
    (h : inTurn (stepWithin p d) (work.map (sort s)) = .ok out)
    (h' : inTurn (stepWithin p' d') (work'.map (sort s')) = .ok out') : out' = out := by
  induction work generalizing work' out out' with
  | nil =>
    cases List.map_eq_nil_iff.1 hwork
    cases h
    cases h'
    rfl
  | cons m rest ih =>
    cases work' with
    | nil => cases hwork
    | cons m' rest' =>
      obtain ⟨hm, hrest⟩ := List.cons.inj hwork
      obtain ⟨o, tail, ho, htail, rfl⟩ := inTurn_cons_eq_ok_iff.1 h
      obtain ⟨o', tail', ho', htail', rfl⟩ := inTurn_cons_eq_ok_iff.1 h'
      have heq : o' = o := hstep m List.mem_cons_self m' List.mem_cons_self hm o o' ho ho'
      have htails : tail' = tail := ih hrest (fun x hx x' hx' => hstep x (List.mem_cons_of_mem _ hx) x'
        (List.mem_cons_of_mem _ hx')) htail htail'
      rw [heq, htails]

theorem members_of_stepWithin_group (hk : s.kindOf n.type = some .group) {o : Option Step}
    (h : stepWithin (plan c s) d (sort s n) = .ok o) : ∃ e members, d = e + 1 ∧
      inTurn (stepWithin (plan c s) e) ((known s (c.members n.id)).map (sort s)) = .ok members ∧
      o = some (.group n.id members (c.targetsFrom n.id) n.delay) := by
  rcases stepWithin_eq_ok h with ⟨hnone, -⟩ | ⟨k, _, hk', hg, -⟩ | ⟨e, members, hd, -, hm, ho⟩
  · rw [hk] at hnone
    cases hnone
  · rw [hk] at hk'
    exact absurd (Option.some.inj hk').symm hg
  · exact ⟨e, members, hd, (inTurn_known _ _).trans hm, ho⟩

theorem Alike.edges_of_within (h : Alike c s n c' s' n') {m : Node} {k : MessageKind}
    (hm : Relation.ReflTransGen (SitsIn c s) m n) (hk : s.kindOf m.type = some k) :
    (c'.edges.filter fun e => e.source == m.id) = c.edges.filter fun e => e.source == m.id := by
  refine h.edges m ?_
  rcases Relation.reflTransGen_iff_eq_or_transGen.1 hm with heq | hm
  · exact .inl heq.symm
  · obtain ⟨g, hs, -⟩ := Relation.TransGen.head'_iff.1 hm
    exact .inr (mem_below.2 ⟨mem_known.2 ⟨hs.node, by rw [hk]; rfl⟩, hm⟩)

/-- A node and one that corresponds to it have the same step, where both have a step at all. -/
theorem stepWithin_eq_of_alike (h : Alike c s n c' s' n') (hn : n ∈ c.nodes) (hn' : n' ∈ c'.nodes) {m m' : Node}
    (hm : Relation.ReflTransGen (SitsIn c s) m n) (hm' : Relation.ReflTransGen (SitsIn c' s') m' n')
    (hid : m'.id = m.id) (hdata : m'.data = m.data) (hkind : s'.kindOf m'.type = s.kindOf m.type)
    {o o' : Option Step} (ho : stepWithin (plan c s) d (sort s m) = .ok o)
    (ho' : stepWithin (plan c' s') d' (sort s' m') = .ok o') : o' = o := by
  -- The two depths need not be the same: each run is allowed as many as its canvas has nodes.
  induction d using Nat.strongRecOn generalizing d' m m' o o' with
  | ind d ih =>
    cases hk : s.kindOf m.type with
    | none =>
      rw [stepWithin_of_unknown hk] at ho
      rw [stepWithin_of_unknown (hkind.trans hk)] at ho'
      exact (Except.ok.inj ho').symm.trans (Except.ok.inj ho)
    | some k =>
      have hedges := h.edges_of_within hm hk
      by_cases hg : k = .group
      · subst hg
        obtain ⟨e, members, rfl, hms, rfl⟩ := members_of_stepWithin_group hk ho
        obtain ⟨e', members', rfl, hms', rfl⟩ := members_of_stepWithin_group (hkind.trans hk) ho'
        -- The members stand in the same order on both canvases, once those of unknown kind are left out.
        have houtlines := outline_members (mem_nodes_of_within hn' hm') (hkind.trans hk) hm'
        rw [hid, h.below, ← outline_members (mem_nodes_of_within hn hm) hk hm] at houtlines
        rw [hid] at hms'
        have hmembers : members' = members := by
          refine inTurn_eq_of_outlines houtlines (fun x hx x' hx' hxx _ _ hox hox' => ?_) hms hms'
          obtain ⟨hxid, -, hxdata, hxkind⟩ := Outline.mk.inj hxx
          have hs : SitsIn c s x m :=
            (sitsIn_iff_mem_members (mem_nodes_of_within hn hm) hk).2 (mem_known.1 hx).1
          have hs' : SitsIn c' s' x' m' :=
            (sitsIn_iff_mem_members (mem_nodes_of_within hn' hm') (hkind.trans hk)).2 (hid ▸ (mem_known.1 hx').1)
          exact ih e (Nat.lt_succ_self e) (.head hs hm) (.head hs' hm') hxid hxdata hxkind hox hox'
        have htargets : c'.targetsFrom m.id = c.targetsFrom m.id := by
          rw [Canvas.targetsFrom, Canvas.targetsFrom, hedges]
        have hdelay : m'.delay = m.delay := by rw [Node.delay, Node.delay, hdata]
        rw [hid, hmembers, htargets, hdelay]
      · rw [stepWithin_of_kind hk hg, ofNode_sort hk, mapError_eq_ok_iff, map_eq_ok_iff] at ho
        rw [stepWithin_of_kind (hkind.trans hk) hg, ofNode_sort (hkind.trans hk), mapError_eq_ok_iff,
          map_eq_ok_iff] at ho'
        obtain ⟨om, hom, rfl⟩ := ho
        obtain ⟨om', hom', rfl⟩ := ho'
        have hx : SameExits (plan c s).index m.id (plan c' s').index m'.id := by
          rw [hid]
          exact .of_edges hedges
        rw [Message.ofNode_eq_of_id_eq hdata hx hid hom] at hom'
        rw [Except.ok.inj hom']

theorem exists_stepWithin_of_id_eq {f : Flow} (hc : c.DistinctIds) (hf : c.compile s = .ok f) (hn : n ∈ c.nodes)
    {t : Step} (ht : t ∈ Step.allOf f.steps) (hid : t.id = n.id) :
    ∃ d, stepWithin (plan c s) d (sort s n) = .ok (some t) := by
  obtain ⟨d, m, hm, hmt⟩ := exists_stepWithin_of_compile hf ht
  have hmid : some t.id = if becomesStep s m then some m.id else none := id_of_stepWithin hmt
  split at hmid
  · have hmn : m = n := hc.eq_of_id_eq hm hn ((Option.some.inj hmid).symm.trans hid)
    exact ⟨d, hmn ▸ hmt⟩
  · cases hmid

/-- Nodes of two canvases that are alike, as is what sits below them, and that the same edges leave have the same
    step, whatever else stands on the two canvases. -/
theorem step_eq_of_alike {f f' : Flow} (hc : c.DistinctIds) (hc' : c'.DistinctIds) (hf : c.compile s = .ok f)
    (hf' : c'.compile s' = .ok f') (hn : n ∈ c.nodes) (hn' : n' ∈ c'.nodes) (h : Alike c s n c' s' n') {t t' : Step}
    (ht : t ∈ Step.allOf f.steps) (hid : t.id = n.id) (ht' : t' ∈ Step.allOf f'.steps) (hid' : t'.id = n'.id) :
    t' = t := by
  obtain ⟨d, hd⟩ := exists_stepWithin_of_id_eq hc hf hn ht hid
  obtain ⟨d', hd'⟩ := exists_stepWithin_of_id_eq hc' hf' hn' ht' hid'
  exact Option.some.inj (stepWithin_eq_of_alike h hn hn' .refl .refl h.id h.data h.kind hd hd')

end Steps

/-! ### A folder on another canvas -/

/-- The folder of `nested` in a frame, as a group by name and with another remark inside, beside other nodes. -/
def framed : Canvas where
  nodes :=
    [{ id := "hello", type := "text", data := .obj [("body", .str "Hi")], parent := some "inner" },
     { id := "frame", type := "group", data := .null },
     { id := "inner", type := "group", data := .null, parent := some "outer", selected := true },
     { id := "remark", type := "comment", data := .null, parent := some "inner" },
     { id := "outer", type := "group", data := .null, parent := some "frame" },
     { id := "menu", type := "list", parent := some "inner",
       data := .obj [("listOptions", .arr [.obj [("id", .str "@@a")], .obj []])] },
     { id := "start", type := "text", data := .null, parent := some "frame" }]
  edges :=
    [{ id := "", source := "menu", target := "hello", sourceHandle := some "menu@@@@a" },
     { id := "", source := "start", target := "frame" },
     { id := "", source := "menu", target := "outer", sourceHandle := some "menu@@" }]

def folder : Node := { id := "outer", type := "folder", data := .null }

def framedFolder : Node := { id := "outer", type := "group", data := .null, parent := some "frame" }

/-- The nodes below the folder; on one canvas the group among them is selected. -/
def folded (selected : Bool) : List Node :=
  [{ id := "hello", type := "text", data := .obj [("body", .str "Hi")], parent := some "inner" },
   { id := "inner", type := "group", data := .null, parent := some "outer", selected := selected },
   { id := "menu", type := "list", parent := some "inner",
     data := .obj [("listOptions", .arr [.obj [("id", .str "@@a")], .obj []])] }]

theorem within_of_mem_folded {c : Canvas} {s : Settings} {n m : Node} {selected : Bool}
    (hn : n ∈ c.nodes) (hid : n.id = "outer") (hk : s.kindOf n.type = some .group)
    (hgroup : s.kindOf "group" = some .group) (hnodes : ∀ m ∈ folded selected, m ∈ c.nodes)
    (hm : m ∈ folded selected) : Relation.TransGen (SitsIn c s) m n := by
  simp only [folded, List.forall_mem_cons] at hnodes
  obtain ⟨hhello, hinner, hmenu, -⟩ := hnodes
  have hsits : SitsIn c s _ n := ⟨hinner, hn, hk, by rw [hid]⟩
  simp only [folded, List.mem_cons, List.not_mem_nil, or_false] at hm
  rcases hm with rfl | rfl | rfl
  · exact .head ⟨hhello, hinner, hgroup, rfl⟩ (.single hsits)
  · exact .single hsits
  · exact .head ⟨hmenu, hinner, hgroup, rfl⟩ (.single hsits)

theorem below_nested : below nested folders folder = folded false := by
  refine below_eq_of_ids ["hello", "inner", "menu", "note"] ?_ ?_ fun m hm => ?_
  · simp only [kindOf_folders]
    decide
  · simp only [known, kindOf_folders]
    rfl
  · refine within_of_mem_folded ?_ rfl ?_ ?_ ?_ hm
    · simp [nested, folder]
    · rw [kindOf_folders]
      rfl
    · rw [kindOf_folders]
      rfl
    · simp [folded, nested]

theorem below_framed : below framed {} framedFolder = folded true := by
  refine below_eq_of_ids ["hello", "inner", "menu", "remark"] ?_ ?_ fun m hm => ?_
  · simp only [kindOf_default]
    decide
  · simp only [known, kindOf_default]
    rfl
  · refine within_of_mem_folded ?_ rfl ?_ ?_ ?_ hm
    · simp [framed, framedFolder]
    · rw [kindOf_default]
      rfl
    · rw [kindOf_default]
      rfl
    · simp [folded, framed]

theorem alike_framed : Alike nested folders folder framed {} framedFolder where
  id := rfl
  data := rfl
  kind := by
    rw [kindOf_folders, kindOf_default]
    rfl
  below := by
    rw [below_nested, below_framed]
    simp only [folded, List.map_cons, List.map_nil, outline, kindOf_folders, kindOf_default]
    rfl
  edges := by
    rw [below_nested]
    simp only [folded, List.mem_cons, List.not_mem_nil, or_false]
    rintro m (rfl | rfl | rfl | rfl) <;> rfl

theorem distinctIds_framed : framed.DistinctIds := by
  unfold Canvas.DistinctIds
  decide

theorem compile_framed : ∃ f, framed.compile {} = .ok f := by
  refine exists_compile_eq_ok distinctIds_framed ?_
  simp only [framed, List.forall_mem_cons, refusal, sort, kindOf_default]
  decide

theorem step_eq_framed : nested.DistinctIds ∧ framed.DistinctIds ∧ Alike nested folders folder framed {} framedFolder ∧
    ∃ f f' t t', nested.compile folders = .ok f ∧ framed.compile {} = .ok f' ∧
      t ∈ Step.allOf f.steps ∧ t.id = folder.id ∧ t' ∈ Step.allOf f'.steps ∧ t'.id = framedFolder.id ∧ t' = t := by
  obtain ⟨f, hf⟩ := compile_nested
  obtain ⟨f', hf'⟩ := compile_framed
  have hn : folder ∈ nested.nodes := by simp [nested, folder]
  have hn' : framedFolder ∈ framed.nodes := by simp [framed, framedFolder]
  have hr : Rooted nested folders folder := by
    refine ⟨0, .top hn ?_⟩
    simp only [Grouped, kindOf_folders]
    decide
  have hr' : Rooted framed {} framedFolder := by
    refine ⟨1, .inside (g := { id := "frame", type := "group", data := .null })
      ⟨hn', by simp [framed], by rw [kindOf_default]; rfl, rfl⟩ (.top (by simp [framed]) ?_)⟩
    simp only [Grouped, kindOf_default]
    decide
  obtain ⟨_, ht, -⟩ := exists_group_of_rooted distinctIds_nested hf hn (by rw [kindOf_folders]; rfl) hr
  obtain ⟨_, ht', -⟩ := exists_group_of_rooted distinctIds_framed hf' hn' (by rw [kindOf_default]; rfl) hr'
  exact ⟨distinctIds_nested, distinctIds_framed, alike_framed, f, f', _, _, hf, hf', ht, rfl, ht', rfl,
    step_eq_of_alike distinctIds_nested distinctIds_framed hf hf' hn hn' alike_framed ht rfl ht' rfl⟩

end Compile
end MessageFlow
