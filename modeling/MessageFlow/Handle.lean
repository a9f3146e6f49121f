import MessageFlow.Text.Digits

/-! Handles: the points of a node at which edges leave it. An edge names its handle by one string. For
    the output that belongs to one choice of a node, that string is the node's id, a separator and the
    choice's id; read relative to the node that the edge leaves, it cannot be mistaken for anything else,
    whatever the ids contain. -/

namespace MessageFlow

/-- A point at which edges leave a node. -/
inductive Handle where
  /-- A fixed output of its own name. -/
  | output (name : String)
  /-- The output that belongs to one choice of a node. -/
  | choice (owner option : String)
deriving DecidableEq, Hashable, Repr

namespace Handle

/-- Stands between the owner and the choice. -/
def separator : String := "@@"

/-- The name of the one output of a trigger. -/
def triggerOutput : String := "startNodeOut"

/-- The one output of a trigger. -/
def trigger : Handle := .output triggerOutput

/-- The id given to the choice at a position. -/
def choiceId (index : Nat) : String := "text" ++ Text.decimal index

/-- The output of the choice at a position. -/
def choiceAt (owner : String) (index : Nat) : Handle := .choice owner (choiceId index)

/-- The handle that a string names on an edge that leaves `owner`. -/
def parse (owner raw : String) : Handle :=
  match (owner ++ separator).toList.isPrefixOf? raw.toList with
  | some option => .choice owner (String.ofList option)
  | none => .output raw

/-- The string that names a handle. -/
def text : Handle → String
  | .output name => name
  | .choice owner option => owner ++ separator ++ option

theorem isPrefixOf?_eq_some_iff {α : Type} [BEq α] [LawfulBEq α] {p l r : List α} :
    p.isPrefixOf? l = some r ↔ l = p ++ r := by
  induction p generalizing l with
  | nil =>
    change some l = some r ↔ l = r
    exact Option.some_inj
  | cons a p ih =>
    cases l with
    | nil =>
      change none = some r ↔ [] = a :: (p ++ r)
      simp
    | cons b l =>
      change (if a == b then p.isPrefixOf? l else none) = some r ↔ b :: l = a :: (p ++ r)
      by_cases h : a = b
      · simp [h, ih]
      · simp [h, Ne.symm h]

/-- Reading loses nothing of the string. -/
theorem text_parse (owner raw : String) : (parse owner raw).text = raw := by
  rw [parse]
  split
  · next option h =>
    rw [text, ← String.toList_inj, String.toList_append, String.toList_ofList,
      ← isPrefixOf?_eq_some_iff.1 h]
  · rfl

/-- The string of a choice reads as that choice under its owner. -/
theorem parse_text_choice (owner option : String) :
    parse owner (text (.choice owner option)) = .choice owner option := by
  have h : (owner ++ separator).toList.isPrefixOf? (owner ++ separator ++ option).toList =
      some option.toList :=
    isPrefixOf?_eq_some_iff.2 (by rw [String.toList_append])
  simp only [text, parse, h, String.ofList_toList]

end Handle
end MessageFlow
