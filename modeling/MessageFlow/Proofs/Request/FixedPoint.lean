import MessageFlow.Proofs.Canvas.Keeping
import MessageFlow.Proofs.Compile.Stripping
import MessageFlow.Request

/-! The answer to a request to compile, given back as a request, is answered by itself. The canvas in the
    answer has its templates stripped and reads again as it was written; the steps beside it are passed
    over. A body is in canonical form, as every body read from text is (`Json.isCanonical_of_parse`). -/

namespace MessageFlow

/-! ### Answers as requests -/

/-- The canvas of a flow is read back from the written form of the flow. -/
theorem Flow.read_write {f : Flow} (hn : ∀ n ∈ f.nodes, Node.codec.Keeps n) (he : ∀ e ∈ f.edges, Edge.codec.Keeps e) :
    Canvas.codec.read f.write.canonical = .ok f.canvas := by
  have hrestores : Canvas.record.schema.Restores f.canvas f.canvas :=
    ⟨_, _, ⟨_, _, rfl, (Codec.keeps_list hn).2, rfl⟩, (Codec.keeps_list he).2, rfl⟩
  obtain ⟨fields, hfields⟩ : ∃ fields, f.write = .obj fields := ⟨_, rfl⟩
  have hkeys : fields.map (·.1) = ["edges", "nodes", "frontEndNodes", "frontEndEdges"] := by
    cases hfields
    rfl
  have hread : Canvas.record.schema.readFields (Json.Object.ofList (Json.canonicalFields fields)) = .read f.canvas := by
    refine Schema.readFields_of_restores (by decide) (fun name hname => ?_) hrestores
    rw [Json.Object.get?_canonical (by rw [hkeys]; decide)]
    cases hfields
    simp only [Canvas.record, Schema.names, Field.names, Field.required, Field.withDefault, Field.orNamed,
      Option.toList_some, List.nil_append, List.cons_append, List.mem_cons, List.not_mem_nil, or_false] at hname
    rcases hname with rfl | rfl | rfl | rfl <;> rfl
  rw [hfields, Json.canonical]
  exact congrArg Outcome.toExcept hread

namespace Request

/-- A body holds a canvas under one key, unless that is null. -/
theorem canvas_eq_ok_iff {body : Json} {c : Canvas} : canvas body = .ok c ↔
    ∃ flow, body.get? "flowConfig" = some flow ∧ flow ≠ .null ∧ Canvas.codec.read flow = .ok c := by
  cases body with
  | obj fields =>
    rw [canvas, Json.get?]
    cases hflow : Json.Object.get? fields "flowConfig" with
    | none => simp
    | some flow =>
      by_cases hnull : flow = .null
      · subst hnull
        simp
      · simp only [Option.some.injEq, exists_eq_left', ne_eq, hnull, not_false_eq_true, true_and]
        cases Canvas.codec.read flow <;> simp
  | _ => simp [canvas, Json.get?]

theorem canvas_write {f : Flow} (hn : ∀ n ∈ f.nodes, Node.codec.Keeps n) (he : ∀ e ∈ f.edges, Edge.codec.Keeps e) :
    canvas (Response.write ⟨some f⟩).canonical = .ok f.canvas := by
  refine canvas_eq_ok_iff.2 ⟨f.write.canonical, ?_, ?_, Flow.read_write hn he⟩
  · simp only [Response.write, Json.canonical, Json.get?]
    exact Json.Object.get?_canonical (by simp) _
  · simp [Flow.write, Json.canonical]

theorem exists_canvas_of_compile {body : Json} {r : Response} (h : compile body = .ok r) :
    ∃ c f, canvas body = .ok c ∧ c.compile {} = .ok f ∧ r = ⟨some f⟩ := by
  rw [compile] at h
  cases hc : canvas body with
  | error e => simp [hc] at h
  | ok c =>
    rw [hc] at h
    cases hf : c.compile {} with
    | error e => simp [compileCanvas, hf] at h
    | ok f =>
      simp only [compileCanvas, hf, Except.ok.injEq] at h
      exact ⟨c, f, rfl, hf, h.symm⟩

/-- A request that compiles is answered with a request that is answered with itself. -/
theorem compile_write_of_compile {body : Json} {r : Response} (hb : body.IsCanonical) (h : compile body = .ok r) :
    compile r.write.canonical = .ok r := by
  obtain ⟨c, f, hc, hf, rfl⟩ := exists_canvas_of_compile h
  obtain ⟨flow, hflow, -, hread⟩ := canvas_eq_ok_iff.1 hc
  obtain ⟨hnodes, hedges⟩ := Canvas.settled_of_read (hb.of_get? hflow) hread
  have hkept : (∀ n ∈ f.nodes, Node.codec.Keeps n) ∧ ∀ e ∈ f.edges, Edge.codec.Keeps e := by
    rw [Compile.flow_of_compile hf]
    refine ⟨fun n hn => ?_, hedges⟩
    obtain ⟨m, hm, rfl⟩ := List.mem_map.1 hn
    exact ((hnodes m hm).sort {}).keeps
  rw [compile, canvas_write hkept.1 hkept.2]
  simp only [compileCanvas, Compile.compile_canvas_of_compile hf]

/-- A template with parts to strip sits in a group; its place has no fractions. The edge to it has a null and
    further fields. -/
def offer : Json :=
  .obj [("flowConfig", .obj
    [("visualEdges", .arr [.obj [("animated", .null), ("data", .obj [("label", .str "next")]),
        ("source", .str "start"), ("sourceHandle", .str "startNodeOut"), ("target", .str "offer")]]),
     ("visualNodes", .arr
       [.obj [("id", .str "start"), ("type", .str "startNode")],
        .obj [("data", .obj [("template", .obj [("components", .arr []), ("templateId", .str "spring")])]),
          ("id", .str "offer"), ("parentId", .str "box"), ("position", .obj [("x", .nat 1), ("y", .nat 2)]),
          ("type", .str "template"), ("zIndex", .nat 7)],
        .obj [("dragHandle", .null), ("id", .str "box"), ("type", .str "group")]])])]

theorem isCanonical_offer : offer.IsCanonical := by
  simp only [offer, Json.nat, Json.IsCanonical, Json.IsCanonicalItems, Json.IsCanonicalFields, Json.Object.Ascending]
  decide

theorem compile_write_offer : offer.IsCanonical ∧
    ∃ r, compile offer = .ok r ∧ compile r.write.canonical = .ok r := by
  obtain ⟨c, hc, hoffer⟩ : ∃ c, c = (⟨_, _⟩ : Canvas) ∧ canvas offer = .ok c := ⟨_, rfl, rfl⟩
  obtain ⟨f, hf⟩ : ∃ f, c.compile {} = .ok f := by
    refine Compile.exists_compile_eq_ok ?_ ?_
    · unfold Canvas.DistinctIds
      rw [hc]
      decide
    · simp only [Compile.refusal, Compile.sort, Compile.kindOf_default]
      rw [hc]
      decide
  have hcompile : compile offer = .ok ⟨some f⟩ := by
    rw [compile, hoffer]
    simp only [compileCanvas, hf]
  exact ⟨isCanonical_offer, _, hcompile, compile_write_of_compile isCanonical_offer hcompile⟩

end Request
end MessageFlow
