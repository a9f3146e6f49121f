import MessageFlow.Json.Equality
import MessageFlow.Schema.Record

/-! Edges of a canvas: from a handle of one node to another node. Fields unknown here stay in `extra`.
    Two edges are the same if all their fields are, at any depth. -/

namespace MessageFlow

/-- What an edge carries for the editor. -/
structure EdgeSettings where
  conditional : Bool := false
  extra : Json.Object := []

def EdgeSettings.record : OpenRecord EdgeSettings where
  name := "EdgeData"
  schema := (Schema.build mk).field (.withDefault "isConditional" .flag false) conditional
  extra := extra

/-- A connection from a node to another. -/
structure Edge where
  id : String
  source : String
  target : String
  sourceHandle : Option String := none
  targetHandle : Option String := none
  type : Option String := none
  animated : Option Bool := none
  settings : Option EdgeSettings := none
  extra : Json.Object := []

namespace Edge

def record : OpenRecord Edge where
  name := "Edge"
  schema :=
    (Schema.build mk)
      |>.field (.withDefault "id" .text "") id
      |>.field (.required "source" .text) source
      |>.field (.required "target" .text) target
      |>.field (.omitted "sourceHandle" .text) sourceHandle
      |>.field (.omitted "targetHandle" .text) targetHandle
      |>.field (.omitted "type" .text) type
      |>.field (.omitted "animated" .flag) animated
      |>.field (.omitted "data" EdgeSettings.record.codec) settings
  extra := extra

abbrev codec : Codec Edge := record.codec

/-- The edge is followed only on a condition. -/
def isConditional (e : Edge) : Bool := e.settings.any (·.conditional)

end Edge

/-! ### Sameness -/

/-- The settings are the same. -/
def EdgeSettings.same (a b : EdgeSettings) : Bool :=
  a.conditional == b.conditional && Json.sameFields a.extra b.extra

instance : BEq EdgeSettings := ⟨EdgeSettings.same⟩

theorem EdgeSettings.beq_iff {a b : EdgeSettings} :
    (a == b) = true ↔ a.conditional = b.conditional ∧ Json.sameFields a.extra b.extra = true := by
  show EdgeSettings.same a b = true ↔ _
  simp [EdgeSettings.same]

theorem EdgeSettings.option_beq_iff {a b : Option EdgeSettings} :
    (a == b) = true ↔ a.map (·.conditional) = b.map (·.conditional) ∧
      Json.sameFields (a.elim [] (·.extra)) (b.elim [] (·.extra)) = true := by
  cases a <;> cases b <;> simp [EdgeSettings.beq_iff, Json.sameFields_refl]

/-- The edges are the same in every field. -/
def Edge.same (a b : Edge) : Bool :=
  a.id == b.id && a.source == b.source && a.target == b.target && a.sourceHandle == b.sourceHandle &&
    a.targetHandle == b.targetHandle && a.type == b.type && a.animated == b.animated &&
    a.settings == b.settings && Json.sameFields a.extra b.extra

instance : BEq Edge := ⟨Edge.same⟩

theorem Edge.beq_iff {a b : Edge} :
    (a == b) = true ↔ a.id = b.id ∧ a.source = b.source ∧ a.target = b.target ∧
      a.sourceHandle = b.sourceHandle ∧ a.targetHandle = b.targetHandle ∧ a.type = b.type ∧
      a.animated = b.animated ∧ a.settings.map (·.conditional) = b.settings.map (·.conditional) ∧
      Json.sameFields (a.settings.elim [] (·.extra)) (b.settings.elim [] (·.extra)) = true ∧
      Json.sameFields a.extra b.extra = true := by
  show Edge.same a b = true ↔ _
  simp [Edge.same, EdgeSettings.option_beq_iff, and_assoc]

instance : EquivBEq Edge where
  rfl := Edge.beq_iff.2
    ⟨rfl, rfl, rfl, rfl, rfl, rfl, rfl, rfl, Json.sameFields_refl _, Json.sameFields_refl _⟩
  symm h := by
    obtain ⟨h1, h2, h3, h4, h5, h6, h7, h8, hs, hx⟩ := Edge.beq_iff.1 h
    exact Edge.beq_iff.2 ⟨h1.symm, h2.symm, h3.symm, h4.symm, h5.symm, h6.symm, h7.symm, h8.symm,
      (Json.sameFields_comm _ _).symm.trans hs, (Json.sameFields_comm _ _).symm.trans hx⟩
  trans h k := by
    obtain ⟨h1, h2, h3, h4, h5, h6, h7, h8, hs, hx⟩ := Edge.beq_iff.1 h
    obtain ⟨k1, k2, k3, k4, k5, k6, k7, k8, ks, kx⟩ := Edge.beq_iff.1 k
    exact Edge.beq_iff.2 ⟨h1.trans k1, h2.trans k2, h3.trans k3, h4.trans k4, h5.trans k5, h6.trans k6,
      h7.trans k7, h8.trans k8, Json.sameFields_trans hs ks, Json.sameFields_trans hx kx⟩

/-- What of an edge goes into its hash: the fields known here. -/
def Edge.hashInput (e : Edge) :
    String × String × String × Option String × Option String × Option String × Option Bool × Option Bool :=
  (e.id, e.source, e.target, e.sourceHandle, e.targetHandle, e.type, e.animated,
    e.settings.map (·.conditional))

instance : Hashable Edge := ⟨fun e => hash e.hashInput⟩

/-- Edges that are the same have the same hash input. -/
theorem Edge.hashInput_eq_of_beq {a b : Edge} (h : (a == b) = true) : a.hashInput = b.hashInput := by
  obtain ⟨h1, h2, h3, h4, h5, h6, h7, h8, -, -⟩ := Edge.beq_iff.1 h
  rw [Edge.hashInput, Edge.hashInput, h1, h2, h3, h4, h5, h6, h7, h8]

instance : LawfulHashable Edge where
  hash_eq a b h := by
    show hash a.hashInput = hash b.hashInput
    rw [Edge.hashInput_eq_of_beq h]

end MessageFlow
