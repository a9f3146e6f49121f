import MessageFlow.Proofs.Compile.Agreement
import MessageFlow.Proofs.Compile.Endless

/-! # Compiling with and without stripping

Templates are stripped before their nodes are read, so two runs of the compiler, one that strips and one that does
not, see different nodes. They end alike all the same, or neither of them ends: at every depth a node has the same step
in both, or is refused in both for the same reason, because what a node sends does not depend on what is stripped, and
which nodes sit in which groups is told by their kinds alone. -/

namespace MessageFlow

/-! ### Values that differ in transient fields -/

namespace Json

/-- The values are equal, or they are objects that differ in fields under the given keys alone. -/
def EqualBut (keys : List String) (a b : Json) : Prop :=
  a = b ∨ ∃ f g : Object, a = .obj f ∧ b = .obj g ∧ Object.without f keys = Object.without g keys

/-- The values are equal, or they are objects with the same fields but for `template`, which holds in both values
    that differ in their transient fields alone. -/
def EqualButTransient (a b : Json) : Prop :=
  a = b ∨ ∃ f g : Object, a = .obj f ∧ b = .obj g ∧
    List.Forall₂ (fun p q => p.1 = q.1 ∧
      (p.2 = q.2 ∨ p.1 = "template" ∧ EqualBut ["components", "raw_data"] p.2 q.2)) f g

theorem equalBut_dropTransient (v : Json) : EqualBut ["components", "raw_data"] v.dropTransient v := by
  cases v with
  | obj fields => exact Or.inr ⟨_, fields, rfl, rfl, Object.without_without fields transientFields⟩
  | _ => exact Or.inl rfl

theorem equalButTransient_stripTemplate (v : Json) : EqualButTransient v.stripTemplate v := by
  cases v with
  | obj fields =>
    refine Or.inr ⟨_, fields, rfl, rfl, ?_⟩
    rw [List.forall₂_map_left_iff]
    refine List.forall₂_same.2 fun f _ => ⟨rfl, ?_⟩
    by_cases hkey : f.1 = "template"
    · rw [if_pos hkey]
      exact Or.inr ⟨hkey, equalBut_dropTransient f.2⟩
    · rw [if_neg hkey]
      exact Or.inl rfl
  | _ => exact Or.inl rfl

end Json

namespace Compile

/-- The two nodes are equal, but if they are of kind template their data may differ in transient fields. -/
structure SameButTransient (s : Settings) (stripped given : Node) : Prop where
  node : stripped = { given with data := stripped.data }
  data : stripped.data = given.data ∨
    s.kindOf given.type = some .template ∧ Json.EqualButTransient stripped.data given.data

/-- Settings that understand types alike make the same steps of a canvas. -/
theorem steps_eq_of_kindOf_eq {c : Canvas} {s t : Settings} (h : s.kindOf = t.kindOf) :
    outcome (plan c s).steps = outcome (plan c t).steps := by
  refine steps_congr ?_ rfl
  exact List.forall₂_same.2 fun n _ => ⟨rfl, congrFun h n.type, rfl, rfl, fun _ _ => (mapError_id _).symm⟩

/-! ### Stripping or not -/

theorem sameButTransient_sort (s : Settings) (n : Node) :
    SameButTransient s (sort { s with sanitize := true } n).node (sort { s with sanitize := false } n).node := by
  have hgiven : (sort { s with sanitize := false } n).node = n := by
    simp only [sort, Bool.false_eq_true, false_and, if_false]
  rw [hgiven]
  by_cases hk : s.kindOf n.type = some .template
  · have hstripped : (sort { s with sanitize := true } n).node = n.strip := if_pos ⟨rfl, hk⟩
    rw [hstripped]
    exact ⟨rfl, Or.inr ⟨hk, Json.equalButTransient_stripTemplate n.data⟩⟩
  · have hsame : (sort { s with sanitize := true } n).node = n := if_neg fun h => hk h.2
    rw [hsame]
    exact ⟨rfl, Or.inl rfl⟩

/-- With and without stripping, the canvas is refused for the same reason, or compiles to the same steps and edges
    and to nodes that differ in the transient fields of templates alone. -/
def SameUnstripped (c : Canvas) (s : Settings) : Prop :=
  (∃ e : Refusal, c.compile { s with sanitize := true } = .error (.refused e) ∧
    c.compile { s with sanitize := false } = .error (.refused e)) ∨
  ∃ f g, c.compile { s with sanitize := true } = .ok f ∧ c.compile { s with sanitize := false } = .ok g ∧
    f.steps = g.steps ∧ f.stepEdges = g.stepEdges ∧ f.edges = g.edges ∧
    List.Forall₂ (SameButTransient s) f.nodes g.nodes

/-- Whether templates are stripped has no part in the steps and their edges, nor in why there are none, nor in whether
    the compilation ends; it is seen in the nodes of kind template, and there in the transient fields of their templates
    alone. -/
theorem compile_sanitize (c : Canvas) (s : Settings) : SameUnstripped c s ∨
    NeverEnds c { s with sanitize := true } ∧ NeverEnds c { s with sanitize := false } := by
  have hsteps : outcome (plan c { s with sanitize := true }).steps =
      outcome (plan c { s with sanitize := false }).steps := steps_eq_of_kindOf_eq rfl
  have hstripped := compile_eq c { s with sanitize := true }
  have hgiven := compile_eq c { s with sanitize := false }
  rw [hsteps] at hstripped
  cases houtcome : outcome (plan c { s with sanitize := false }).steps with
  | error e =>
    rw [houtcome] at hstripped hgiven
    cases e with
    | refused e => exact .inl (.inl ⟨e, hstripped, hgiven⟩)
    | endlessGroup => exact .inr ⟨neverEnds_of_compile hstripped, neverEnds_of_compile hgiven⟩
  | ok made =>
    rw [houtcome] at hstripped hgiven
    refine .inl (.inr ⟨_, _, hstripped, hgiven, rfl, rfl, rfl, ?_⟩)
    rw [List.forall₂_map_left_iff, List.forall₂_map_right_iff]
    exact List.forall₂_same.2 fun n _ => sameButTransient_sort s n

theorem not_sameUnstripped_ringed : ¬SameUnstripped ringed {} := by
  rintro (⟨e, he, -⟩ | ⟨f, -, hf, -⟩)
  · exact (neverEnds_ringed true).ne_refused e he
  · exact (neverEnds_ringed true).ne_ok f hf

end Compile
end MessageFlow
