import MessageFlow.Canvas.Distinct
import MessageFlow.Proofs.Canvas.Keeping

/-! Which edges are the same, and what becomes of repeats. Edges that were read are the same if they agree in
    every field and hold the same under every further key, at any depth; numbers are the same as values of
    their kind, so that only the sign of a zero is passed over. Dropping repeats by way of a hash set leaves
    what a comparison of each edge with all before it leaves. -/

namespace MessageFlow

/-! ### Values but for the signs of zeros -/

def Double.unsignZero (x : Double) : Double := if x.isZero then .zero else x

theorem Double.numEq_iff_unsignZero {x y : Double} : x.numEq y = true ↔ x.unsignZero = y.unsignZero := by
  rw [numEq_iff, unsignZero, unsignZero]
  by_cases hx : x.isZero = true
  · by_cases hy : y.isZero = true
    · simp [hx, hy]
    · have hne : x ≠ y ∧ zero ≠ y := ⟨fun h => hy (h ▸ hx), fun h => hy (h ▸ rfl)⟩
      simp [hx, hy, hne]
  · by_cases hy : y.isZero = true
    · have hne : x ≠ y ∧ x ≠ zero := ⟨fun h => hx (h ▸ hy), fun h => hx (h ▸ rfl)⟩
      simp [hx, hy, hne]
    · simp [hx, hy]

namespace Json

def Number.unsignZero : Number → Number
  | .int n h => .int n h
  | .double x => .double x.unsignZero

theorem Number.numEq_iff_unsignZero : ∀ {m n : Number}, m.numEq n = true ↔ m.unsignZero = n.unsignZero
  | .int _ _, .int _ _ | .int _ _, .double _ | .double _, .int _ _ => by simp [numEq, unsignZero]
  | .double _, .double _ => by simp [numEq, unsignZero, Double.numEq_iff_unsignZero]

mutual

def unsignZeros : Json → Json
  | .num n => .num n.unsignZero
  | .arr items => .arr (unsignItems items)
  | .obj fields => .obj (unsignFields fields)
  | v => v

def unsignItems : List Json → List Json
  | [] => []
  | v :: rest => unsignZeros v :: unsignItems rest

def unsignFields : List (String × Json) → List (String × Json)
  | [] => []
  | (k, v) :: rest => (k, unsignZeros v) :: unsignFields rest

end

mutual

/-- Values are the same if nothing but the signs of zeros tells them apart. -/
theorem same_iff_unsignZeros : ∀ {a b : Json}, same a b = true ↔ a.unsignZeros = b.unsignZeros
  | .null, b | .bool _, b | .str _, b => by cases b <;> simp [same, unsignZeros]
  | .num _, b => by cases b <;> simp [same, unsignZeros, Number.numEq_iff_unsignZero]
  | .arr as, b => by
    cases b with
    | arr bs => simp [same, unsignZeros, @sameItems_iff_unsignItems as bs]
    | _ => simp [same, unsignZeros]
  | .obj as, b => by
    cases b with
    | obj bs => simp [same, unsignZeros, @sameFields_iff_unsignFields as bs]
    | _ => simp [same, unsignZeros]

theorem sameItems_iff_unsignItems : ∀ {as bs : List Json},
    sameItems as bs = true ↔ unsignItems as = unsignItems bs
  | [], [] => by simp [sameItems]
  | [], _ :: _ => by simp [sameItems, unsignItems]
  | _ :: _, [] => by simp [sameItems, unsignItems]
  | a :: as, b :: bs => by
    simp [sameItems, unsignItems, same_iff_unsignZeros, sameItems_iff_unsignItems]

theorem sameFields_iff_unsignFields : ∀ {as bs : List (String × Json)},
    sameFields as bs = true ↔ unsignFields as = unsignFields bs
  | [], [] => by simp [sameFields]
  | [], _ :: _ => by simp [sameFields, unsignFields]
  | _ :: _, [] => by simp [sameFields, unsignFields]
  | (j, a) :: as, (k, b) :: bs => by
    simp [sameFields, unsignFields, same_iff_unsignZeros, sameFields_iff_unsignFields]

end

-- The two zeros of the doubles are the same; the integer is not the same as they are.
example : (same (.num (.double .zero)) (.num (.double { Double.zero with negative := true })),
    same (.nat 0) (.num (.double .zero))) = (true, false) := by rfl

namespace Object
variable {a b : Object}

theorem get?_unsignFields (o : Object) (key : String) :
    get? (unsignFields o) key = (o.get? key).map unsignZeros := by
  induction o with
  | nil => rfl
  | cons f o ih =>
    obtain ⟨k, v⟩ := f
    rw [unsignFields, get?_cons, get?_cons, ih]
    split <;> rfl

theorem keys_unsignFields (o : Object) : (unsignFields o).map (·.1) = o.map (·.1) := by
  induction o with
  | nil => rfl
  | cons f o ih => rw [unsignFields, List.map_cons, List.map_cons, ih]

theorem Ascending.unsignFields (h : a.Ascending) : Ascending (Json.unsignFields a) := by
  rw [Ascending, keys_unsignFields]
  exact h

/-- Every key holds the same in both objects, but for the signs of zeros. -/
def HoldsAs (a b : Object) : Prop := ∀ key, (a.get? key).map unsignZeros = (b.get? key).map unsignZeros

/-- Objects in order are the same if their keys hold the same. -/
theorem sameFields_iff_holdsAs (ha : a.Ascending) (hb : b.Ascending) : sameFields a b = true ↔ a.HoldsAs b := by
  rw [sameFields_iff_unsignFields]
  constructor
  · intro h key
    rw [← get?_unsignFields, h, get?_unsignFields]
  · intro h
    refine ha.unsignFields.ext hb.unsignFields fun key => ?_
    rw [get?_unsignFields, get?_unsignFields, h key]

end Object
end Json

/-! ### Edges that are the same -/

namespace Edge

/-- The edge reads from a value in canonical form. -/
def Readable (e : Edge) : Prop := ∃ v : Json, v.IsCanonical ∧ codec.read v = .ok e

/-- What the settings of an edge hold beside the condition. -/
def settingsExtra (e : Edge) : Json.Object := e.settings.elim [] (·.extra)

/-- The edges agree in every field, and hold the same under every further key. -/
structure Agrees (a b : Edge) : Prop where
  id : a.id = b.id
  source : a.source = b.source
  target : a.target = b.target
  sourceHandle : a.sourceHandle = b.sourceHandle
  targetHandle : a.targetHandle = b.targetHandle
  type : a.type = b.type
  animated : a.animated = b.animated
  conditional : a.settings.map (·.conditional) = b.settings.map (·.conditional)
  settings : a.settingsExtra.HoldsAs b.settingsExtra
  extra : a.extra.HoldsAs b.extra

section Same
variable {a b e : Edge}

theorem Readable.ascending (h : e.Readable) : e.extra.Ascending ∧ e.settingsExtra.Ascending := by
  obtain ⟨v, hv, h⟩ := h
  obtain ⟨_, extra, ⟨_, settings, ⟨_, animated, ⟨_, type, ⟨_, targetHandle, ⟨_, sourceHandle, ⟨_, target,
    ⟨_, source, ⟨_, id, rfl, -, rfl⟩, -, rfl⟩, -, rfl⟩, -, rfl⟩, -, rfl⟩, -, rfl⟩, -, rfl⟩, hsettings, rfl⟩,
    hextra, rfl⟩ := OpenRecord.arises_of_read (r := record) hv h
  refine ⟨hextra.ascending, ?_⟩
  cases settings with
  | none => exact List.Pairwise.nil
  | some s =>
    obtain ⟨⟨⟩⟩ | ⟨w, hw, hread⟩ := hsettings
    obtain ⟨-, ⟨⟩⟩ | ⟨-, _, hs, ⟨⟩⟩ := Codec.read_optional_eq_ok_iff.1 hread
    obtain ⟨_, _, ⟨_, conditional, rfl, -, rfl⟩, hrest, rfl⟩ :=
      OpenRecord.arises_of_read (r := EdgeSettings.record) hw hs
    exact hrest.ascending

theorem beq_iff_agrees (ha : a.Readable) (hb : b.Readable) : (a == b) = true ↔ a.Agrees b := by
  have hsettings := Json.Object.sameFields_iff_holdsAs ha.ascending.2 hb.ascending.2
  have hextra := Json.Object.sameFields_iff_holdsAs ha.ascending.1 hb.ascending.1
  rw [beq_iff]
  constructor
  · rintro ⟨h1, h2, h3, h4, h5, h6, h7, h8, hs, hx⟩
    exact ⟨h1, h2, h3, h4, h5, h6, h7, h8, hsettings.1 hs, hextra.1 hx⟩
  · rintro ⟨h1, h2, h3, h4, h5, h6, h7, h8, hs, hx⟩
    exact ⟨h1, h2, h3, h4, h5, h6, h7, h8, hsettings.2 hs, hextra.2 hx⟩

theorem equivalence_beq : Equivalence fun a b : Edge => (a == b) = true where
  refl _ := BEq.rfl
  symm := BEq.symm
  trans := BEq.trans

end Same

/-! ### Repeats -/

/-- The edges that are the same as none of all the edges before them. -/
def firsts (edges : List Edge) : List Edge :=
  (edges.zipIdx.filter fun (e, i) => !(edges.take i).any (· == e)).map (·.1)

section Repeats
variable {seen : Std.HashSet Edge}

/-- What was seen of the edges before, and of those that are given, is all that has to be known of the former. -/
theorem distinctFrom_eq {before : List Edge} (rest : List Edge) (hseen : ∀ e, seen.contains e = before.any (· == e)) :
    distinctFrom seen rest = ((rest.zipIdx before.length).filter fun (e, i) =>
      !((before ++ rest).take i).any (· == e)).map (·.1) := by
  induction rest generalizing before seen with
  | nil => rfl
  | cons e rest ih =>
    -- the edges before the next one are those before this one, and this one
    have hnext : before ++ e :: rest = (before ++ [e]) ++ rest := by rw [List.append_assoc, List.singleton_append]
    have hlength : before.length + 1 = (before ++ [e]).length := by rw [List.length_append, List.length_singleton]
    have hany : ∀ d, (before ++ [e]).any (· == d) = (seen.contains d || e == d) := fun d => by
      rw [List.any_append, ← hseen d, List.any_cons, List.any_nil, Bool.or_false]
    rw [distinctFrom, List.zipIdx_cons, List.filter_cons]
    simp only [List.take_left, ← hseen e]
    by_cases he : seen.contains e = true
    · simp only [he, if_true, Bool.not_true, Bool.false_eq_true, if_false]
      rw [hlength, hnext]
      refine ih fun d => ?_
      rw [hany]
      cases hed : e == d with
      | false => rw [Bool.or_false]
      | true => rw [← Std.HashSet.contains_congr hed, he, Bool.true_or]
    · simp only [he, Bool.false_eq_true, if_false, Bool.not_false, if_true, List.map_cons]
      rw [hlength, hnext]
      congr 1
      refine ih fun d => ?_
      rw [hany, Std.HashSet.contains_insert, Bool.or_comm]

/-- One pass with a hash set keeps what a comparison of each edge with all before it keeps. -/
theorem distinct_eq_firsts (edges : List Edge) : distinct edges = firsts edges :=
  @distinctFrom_eq ∅ [] edges fun _ => Std.HashSet.contains_empty

/-- Each edge was seen, or is the same as one that stays. -/
theorem exists_beq_of_mem {edges : List Edge} {e : Edge} (h : e ∈ edges) :
    seen.contains e = true ∨ ∃ d ∈ distinctFrom seen edges, (d == e) = true := by
  induction edges generalizing seen with
  | nil => cases h
  | cons c rest ih =>
    rw [distinctFrom]
    by_cases hc : seen.contains c = true
    · rw [if_pos hc]
      rcases List.mem_cons.1 h with rfl | h
      · exact .inl hc
      · exact ih h
    · rw [if_neg hc]
      rcases List.mem_cons.1 h with rfl | h
      · exact .inr ⟨e, List.mem_cons_self, BEq.rfl⟩
      · rcases @ih (seen.insert c) h with hseen | ⟨d, hd, hde⟩
        · rw [Std.HashSet.contains_insert, Bool.or_eq_true] at hseen
          exact hseen.symm.imp_right fun hce => ⟨c, List.mem_cons_self, hce⟩
        · exact .inr ⟨d, List.mem_cons_of_mem _ hd, hde⟩

/-- Repeats among the first edges may be dropped before the others are put behind them. -/
theorem distinctFrom_append (edges more : List Edge) :
    distinctFrom seen (edges ++ more) = distinctFrom seen (distinctFrom seen edges ++ more) := by
  induction edges generalizing seen with
  | nil => rfl
  | cons e rest ih =>
    rw [List.cons_append, distinctFrom, distinctFrom]
    by_cases he : seen.contains e = true
    · rw [if_pos he, if_pos he, ih]
    · rw [if_neg he, if_neg he, List.cons_append, distinctFrom, if_neg he, ih]

end Repeats

/-- Sameness of edges is an equivalence that compares all that edges were read from, and what goes into the
    hash of an edge does not tell edges apart that are the same. -/
structure Sameness : Prop where
  equivalence : Equivalence fun a b : Edge => (a == b) = true
  agrees : ∀ a b : Edge, a.Readable → b.Readable → ((a == b) = true ↔ a.Agrees b)
  hashInput : ∀ a b : Edge, (a == b) = true → a.hashInput = b.hashInput

/-- The edges `out` are what is left of others without repeats. -/
structure Thins (edges out : List Edge) : Prop where
  /-- Those stay, as they are, that are the same as none before them. -/
  firsts : out = firsts edges
  covers : ∀ e ∈ edges, ∃ d ∈ out, (d == e) = true
  apart : out.Pairwise fun a b => (a == b) = false
  again : distinct out = out
  append : ∀ more, distinct (edges ++ more) = distinct (out ++ more)

theorem thins_distinct : Sameness ∧ ∀ edges, Thins edges (distinct edges) := by
  refine ⟨⟨equivalence_beq, fun _ _ => beq_iff_agrees, fun _ _ => hashInput_eq_of_beq⟩, fun edges => ?_⟩
  have hapart : (distinct edges).Pairwise fun a b => (a == b) = false := pairwise_distinctFrom edges ∅
  refine ⟨distinct_eq_firsts edges, fun e he => ?_, hapart, distinct_eq_self hapart, distinctFrom_append edges⟩
  rcases exists_beq_of_mem he with hseen | hd
  · cases Std.HashSet.contains_empty.symm.trans hseen
  · exact hd

end Edge
end MessageFlow
