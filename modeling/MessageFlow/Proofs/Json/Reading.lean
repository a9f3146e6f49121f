import MessageFlow.Json.Canonical
import MessageFlow.Json.Parser

/-! JSON that is read from text is canonical: the fields of an object are put in order when it is closed. Every
    step of the reader consumes text, so what its steps go on to is covered by a bound on the text's length. -/

namespace MessageFlow
namespace Json

/-- What was read of an open container is canonical. -/
def Frame.IsCanonical : Frame → Prop
  | .list done => ∀ v ∈ done, v.IsCanonical
  | .object done _ => ∀ f ∈ done, f.2.IsCanonical

/-- A reading that succeeds yields a canonical value. -/
def YieldsCanonical (x : Except SyntaxError Reading) : Prop := ∀ r, x = .ok r → r.value.IsCanonical

theorem yieldsCanonical_error (e : SyntaxError) : YieldsCanonical (.error e) := nofun

theorem yieldsCanonical_ite {p : Prop} [Decidable p] {x y : Except SyntaxError Reading} (hx : p → YieldsCanonical x)
    (hy : ¬p → YieldsCanonical y) : YieldsCanonical (if p then x else y) := by
  split
  · exact hx ‹_›
  · exact hy ‹_›

theorem isCanonical_obj_ofList {fields : List (String × Json)} (h : ∀ f ∈ fields, f.2.IsCanonical) :
    IsCanonical (.obj (Object.ofList fields)) :=
  isCanonical_obj_iff.2 ⟨Object.ascending_ofList fields, fun f hf => h f (Object.mem_of_mem_ofList hf)⟩

theorem value_of_scanLetters {α : Type} {bound : Nat} {value : α} {p : Position} {letters cs : List Char}
    {hcs : cs.length ≤ bound} {s : Scan α bound} (h : scanLetters bound value p letters cs hcs = .ok s) :
    s.value = value := by
  induction letters generalizing p cs with
  | nil =>
    cases h
    rfl
  | cons l letters ih =>
    cases cs with
    | nil => cases h
    | cons c cs =>
      rw [scanLetters] at h
      split at h
      · exact ih h
      · cases h

/-- With canonical values on the stack, canonical values are read from every text shorter than the bound. -/
structure ReadsCanonical (limit bound : Nat) : Prop where
  value : ∀ stack p cs, cs.length < bound → (∀ f ∈ stack, f.IsCanonical) → YieldsCanonical (readValue limit stack p cs)
  field : ∀ stack done p cs, cs.length < bound → (∀ f ∈ stack, f.IsCanonical) → (∀ f ∈ done, f.2.IsCanonical) →
    YieldsCanonical (readField limit stack done p cs)
  close : ∀ stack v p cs, cs.length < bound → (∀ f ∈ stack, f.IsCanonical) → v.IsCanonical →
    YieldsCanonical (closeValue limit stack v p cs)

section Step
variable {limit bound : Nat} (ih : ReadsCanonical limit bound) {stack : List Frame}
  (hstack : ∀ f ∈ stack, f.IsCanonical) {p : Position} {cs : List Char}
include ih hstack

theorem yieldsCanonical_letters {v : Json} {letters rest : List Char} (hv : v.IsCanonical)
    (hrest : rest.length < bound) :
    YieldsCanonical (match scanLetters rest.length v p letters rest (Nat.le_refl _) with
      | .error e => .error e
      | .ok ⟨v, q, tail, _⟩ => closeValue limit stack v q tail) := by
  split
  · exact yieldsCanonical_error _
  · next v q tail htail hscan =>
    rw [← value_of_scanLetters hscan] at hv
    exact ih.close _ _ _ _ (Nat.lt_of_le_of_lt htail hrest) hstack hv

theorem yieldsCanonical_readValue (hlen : cs.length < bound + 1) : YieldsCanonical (readValue limit stack p cs) := by
  rw [readValue]
  split
  · exact yieldsCanonical_error _
  · next q c rest hs =>
    have hrest : rest.length < bound := Nat.lt_of_lt_of_le (lt_of_skipGaps hs) (Nat.le_of_lt_succ hlen)
    have hclose : ∀ v q tail, tail.length ≤ rest.length → v.IsCanonical →
        YieldsCanonical (closeValue limit stack v q tail) := fun v q tail htail hv =>
      ih.close stack v q tail (Nat.lt_of_le_of_lt htail hrest) hstack hv
    -- the literals
    refine yieldsCanonical_ite (fun _ => yieldsCanonical_letters ih hstack trivial hrest) fun _ => ?_
    refine yieldsCanonical_ite (fun _ => yieldsCanonical_letters ih hstack trivial hrest) fun _ => ?_
    refine yieldsCanonical_ite (fun _ => yieldsCanonical_letters ih hstack trivial hrest) fun _ => ?_
    -- strings and numbers
    refine yieldsCanonical_ite (fun _ => ?_) fun _ => ?_
    · split
      · exact yieldsCanonical_error _
      · next htail _ => exact hclose _ _ _ htail trivial
    refine yieldsCanonical_ite (fun _ => ?_) fun _ => ?_
    · split
      · exact yieldsCanonical_error _
      · next htail _ => exact hclose _ _ _ htail trivial
    refine yieldsCanonical_ite (fun _ => ?_) fun _ => ?_
    · split
      · exact yieldsCanonical_error _
      · next htail _ => exact hclose _ _ _ htail trivial
    -- the containers
    refine yieldsCanonical_ite (fun _ => ?_) fun _ => ?_
    · refine yieldsCanonical_ite (fun _ => ?_) fun _ => yieldsCanonical_error _
      split
      · exact yieldsCanonical_error _
      · next q d tail hi =>
        have htail : (d :: tail).length ≤ rest.length := lt_of_skipGaps hi
        refine yieldsCanonical_ite (fun _ => ?_) fun _ => ?_
        · exact hclose _ _ _ (Nat.le_of_succ_le htail) (isCanonical_arr_iff.2 (List.forall_mem_nil _))
        · exact ih.value _ _ _ (Nat.lt_of_le_of_lt htail hrest)
            (List.forall_mem_cons.2 ⟨List.forall_mem_nil _, hstack⟩)
    refine yieldsCanonical_ite (fun _ => ?_) fun _ => yieldsCanonical_error _
    refine yieldsCanonical_ite (fun _ => ?_) fun _ => yieldsCanonical_error _
    split
    · exact yieldsCanonical_error _
    · next q d tail hi =>
      have htail : tail.length < rest.length := lt_of_skipGaps hi
      refine yieldsCanonical_ite (fun _ => ?_) fun _ => ?_
      · exact hclose _ _ _ (Nat.le_of_lt htail) ⟨List.Pairwise.nil, trivial⟩
      · refine yieldsCanonical_ite (fun _ => ?_) fun _ => yieldsCanonical_error _
        exact ih.field _ _ _ _ (Nat.lt_trans htail hrest) hstack (List.forall_mem_nil _)

theorem yieldsCanonical_readField {done : List (String × Json)} (hdone : ∀ f ∈ done, f.2.IsCanonical)
    (hlen : cs.length < bound + 1) : YieldsCanonical (readField limit stack done p cs) := by
  rw [readField]
  split
  · exact yieldsCanonical_error _
  · next key q rest hrest _ =>
    split
    · exact yieldsCanonical_error _
    · next q c tail hs =>
      have htail : tail.length < bound :=
        Nat.lt_of_lt_of_le (lt_of_skipGaps hs) (Nat.le_trans hrest (Nat.le_of_lt_succ hlen))
      refine yieldsCanonical_ite (fun _ => ?_) fun _ => yieldsCanonical_error _
      exact ih.value _ _ _ htail (List.forall_mem_cons.2 ⟨hdone, hstack⟩)

theorem yieldsCanonical_closeValue {v : Json} (hv : v.IsCanonical) (hlen : cs.length < bound + 1) :
    YieldsCanonical (closeValue limit stack v p cs) := by
  cases stack with
  | nil =>
    rw [closeValue]
    rintro r ⟨⟩
    exact hv
  | cons f stack =>
    obtain ⟨hf, hbelow⟩ := List.forall_mem_cons.1 hstack
    cases f with
    | list done =>
      have hdone : ∀ w ∈ v :: done, w.IsCanonical := List.forall_mem_cons.2 ⟨hv, hf⟩
      rw [closeValue]
      split
      · exact yieldsCanonical_error _
      · next q c rest hs =>
        have hrest : rest.length < bound := Nat.lt_of_lt_of_le (lt_of_skipGaps hs) (Nat.le_of_lt_succ hlen)
        refine yieldsCanonical_ite (fun _ => ?_) fun _ => ?_
        · split
          · exact yieldsCanonical_error _
          · next q d tail hi =>
            have htail : (d :: tail).length ≤ rest.length := lt_of_skipGaps hi
            refine yieldsCanonical_ite (fun _ => yieldsCanonical_error _) fun _ => ?_
            exact ih.value _ _ _ (Nat.lt_of_le_of_lt htail hrest) (List.forall_mem_cons.2 ⟨hdone, hbelow⟩)
        · refine yieldsCanonical_ite (fun _ => ?_) fun _ => yieldsCanonical_error _
          exact ih.close _ _ _ _ hrest hbelow (isCanonical_arr_iff.2 fun w hw => hdone w (List.mem_reverse.1 hw))
    | object done key =>
      have hdone : ∀ f ∈ (key, v) :: done, f.2.IsCanonical := List.forall_mem_cons.2 ⟨hv, hf⟩
      rw [closeValue]
      split
      · exact yieldsCanonical_error _
      · next q c rest hs =>
        have hrest : rest.length < bound := Nat.lt_of_lt_of_le (lt_of_skipGaps hs) (Nat.le_of_lt_succ hlen)
        refine yieldsCanonical_ite (fun _ => ?_) fun _ => ?_
        · split
          · exact yieldsCanonical_error _
          · next q d tail hi =>
            have htail : tail.length < rest.length := lt_of_skipGaps hi
            refine yieldsCanonical_ite (fun _ => ?_) fun _ => ?_
            · exact ih.field _ _ _ _ (Nat.lt_trans htail hrest) hbelow hdone
            · exact yieldsCanonical_ite (fun _ => yieldsCanonical_error _) fun _ => yieldsCanonical_error _
        · refine yieldsCanonical_ite (fun _ => ?_) fun _ => yieldsCanonical_error _
          exact ih.close _ _ _ _ hrest hbelow (isCanonical_obj_ofList fun f hf => hdone f (List.mem_reverse.1 hf))

end Step

theorem readsCanonical (limit bound : Nat) : ReadsCanonical limit bound := by
  induction bound with
  | zero => exact ⟨nofun, nofun, nofun⟩
  | succ bound ih =>
    exact
      { value := fun _ _ _ hlen hstack => yieldsCanonical_readValue ih hstack hlen
        field := fun _ _ _ _ hlen hstack hdone => yieldsCanonical_readField ih hstack hdone hlen
        close := fun _ _ _ _ hlen hstack hv => yieldsCanonical_closeValue ih hstack hv hlen }

theorem isCanonical_of_readValue {limit : Nat} {p : Position} {cs : List Char} {r : Reading}
    (h : readValue limit [] p cs = .ok r) : r.value.IsCanonical :=
  (readsCanonical limit _).value [] p cs (Nat.lt_succ_self _) nofun r h

/-- What is read from a text is canonical. -/
theorem isCanonical_of_parse {text : String} {limit : Nat} {v : Json} (h : parse text limit = .ok v) :
    v.IsCanonical := by
  rw [parse] at h
  split at h
  · cases h
  · next r hr =>
    rw [Reading.finish] at h
    split at h
    · cases h
      exact isCanonical_of_readValue hr
    · cases h

theorem isCanonical_of_parseList {text : String} {items : List Json} (h : parseList text = .ok items) :
    ∀ v ∈ items, v.IsCanonical := by
  rw [parseList] at h
  split at h
  · cases h
  · split at h
    · cases h
    · next hr =>
      split at h
      · cases h
      · cases h
        exact isCanonical_arr_iff.1 (isCanonical_of_readValue hr)
    · cases h

end Json
end MessageFlow
