import MessageFlow.Json.Basic

/-! Structural equality of values: numbers are compared as numbers of their kind, so that the two zeros
    of the doubles are one value while `1` and `1.0` are two; all else is compared part by part. -/

namespace MessageFlow
namespace Json

mutual

/-- Structural equality. -/
def same : Json → Json → Bool
  | .null, .null => true
  | .bool a, .bool b => a == b
  | .num a, .num b => a.numEq b
  | .str a, .str b => a == b
  | .arr a, .arr b => sameItems a b
  | .obj a, .obj b => sameFields a b
  | _, _ => false

def sameItems : List Json → List Json → Bool
  | [], [] => true
  | a :: as, b :: bs => same a b && sameItems as bs
  | _, _ => false

def sameFields : List (String × Json) → List (String × Json) → Bool
  | [], [] => true
  | (j, a) :: as, (k, b) :: bs => j == k && same a b && sameFields as bs
  | _, _ => false

end

instance : BEq Json := ⟨same⟩

/-! ### An equivalence -/

mutual

theorem same_refl : ∀ a : Json, same a a = true
  | .null => rfl
  | .bool _ => by simp [same]
  | .num n => n.numEq_refl
  | .str _ => by simp [same]
  | .arr items => sameItems_refl items
  | .obj fields => sameFields_refl fields

theorem sameItems_refl : ∀ as : List Json, sameItems as as = true
  | [] => rfl
  | a :: as => by rw [sameItems, same_refl a, sameItems_refl as, Bool.and_self]

theorem sameFields_refl : ∀ as : List (String × Json), sameFields as as = true
  | [] => rfl
  | (k, a) :: as => by
    rw [sameFields, same_refl a, sameFields_refl as, beq_self_eq_true, Bool.and_self, Bool.and_self]

end

mutual

theorem same_comm : ∀ a b : Json, same a b = same b a
  | .null, b => by cases b <;> rfl
  | .bool x, b => by cases b <;> simp [same, Bool.beq_comm]
  | .num m, b => by
    cases b with
    | num n => exact Bool.eq_iff_iff.2 ⟨Number.numEq_symm, Number.numEq_symm⟩
    | _ => rfl
  | .str s, b => by
    cases b with
    | str t => simp only [same]; exact Bool.beq_comm
    | _ => rfl
  | .arr as, b => by
    cases b with
    | arr bs => exact sameItems_comm as bs
    | _ => rfl
  | .obj as, b => by
    cases b with
    | obj bs => exact sameFields_comm as bs
    | _ => rfl

theorem sameItems_comm : ∀ as bs : List Json, sameItems as bs = sameItems bs as
  | [], [] => rfl
  | [], _ :: _ => rfl
  | _ :: _, [] => rfl
  | a :: as, b :: bs => by rw [sameItems, sameItems, same_comm a b, sameItems_comm as bs]

theorem sameFields_comm : ∀ as bs : List (String × Json), sameFields as bs = sameFields bs as
  | [], [] => rfl
  | [], _ :: _ => rfl
  | _ :: _, [] => rfl
  | (j, a) :: as, (k, b) :: bs => by
    rw [sameFields, sameFields, same_comm a b, sameFields_comm as bs, Bool.beq_comm (a := j)]

end

mutual

theorem same_trans : ∀ {a b c : Json}, same a b = true → same b c = true → same a c = true
  | .null, b, c, h, k => by
    cases b <;> simp only [same, Bool.false_eq_true] at h
    cases c <;> simp only [same, Bool.false_eq_true] at k
    rfl
  | .bool x, b, c, h, k => by
    cases b <;> simp only [same, Bool.false_eq_true, beq_iff_eq] at h
    cases c <;> simp only [same, Bool.false_eq_true, beq_iff_eq] at k
    simp only [same, beq_iff_eq]
    exact h.trans k
  | .num m, b, c, h, k => by
    cases b <;> simp only [same, Bool.false_eq_true] at h
    cases c <;> simp only [same, Bool.false_eq_true] at k
    exact Number.numEq_trans h k
  | .str s, b, c, h, k => by
    cases b <;> simp only [same, Bool.false_eq_true, beq_iff_eq] at h
    cases c <;> simp only [same, Bool.false_eq_true, beq_iff_eq] at k
    simp only [same, beq_iff_eq]
    exact h.trans k
  | .arr as, b, c, h, k => by
    cases b <;> simp only [same, Bool.false_eq_true] at h
    cases c <;> simp only [same, Bool.false_eq_true] at k
    exact sameItems_trans h k
  | .obj as, b, c, h, k => by
    cases b <;> simp only [same, Bool.false_eq_true] at h
    cases c <;> simp only [same, Bool.false_eq_true] at k
    exact sameFields_trans h k

theorem sameItems_trans : ∀ {as bs cs : List Json},
    sameItems as bs = true → sameItems bs cs = true → sameItems as cs = true
  | [], [], _, _, k => k
  | [], _ :: _, _, h, _ => by simp [sameItems] at h
  | _ :: _, [], _, h, _ => by simp [sameItems] at h
  | _ :: _, _ :: _, [], _, k => by simp [sameItems] at k
  | a :: as, b :: bs, c :: cs, h, k => by
    simp only [sameItems, Bool.and_eq_true] at h k ⊢
    exact ⟨same_trans h.1 k.1, sameItems_trans h.2 k.2⟩

theorem sameFields_trans : ∀ {as bs cs : List (String × Json)},
    sameFields as bs = true → sameFields bs cs = true → sameFields as cs = true
  | [], [], _, _, k => k
  | [], _ :: _, _, h, _ => by simp [sameFields] at h
  | _ :: _, [], _, h, _ => by simp [sameFields] at h
  | _ :: _, _ :: _, [], _, k => by simp [sameFields] at k
  | (i, a) :: as, (j, b) :: bs, (l, c) :: cs, h, k => by
    simp only [sameFields, Bool.and_eq_true, beq_iff_eq] at h k ⊢
    exact ⟨⟨h.1.1.trans k.1.1, same_trans h.1.2 k.1.2⟩, sameFields_trans h.2 k.2⟩

end

instance : EquivBEq Json where
  rfl := same_refl _
  symm h := (same_comm _ _).symm.trans h
  trans := same_trans

end Json
end MessageFlow
