import MessageFlow.Proofs.Canvas.Routing

/-! # Handles of one owner and their strings

Under an owner every string names a handle, and the string of that handle is the string again. The handles that are
named in this way are the choices of the owner, whatever they are called, and the outputs whose names do not begin as
the strings of these choices do. On them reading and writing are inverse to each other; a choice of another owner, or
an output that is named like a choice, is what no string names. -/

namespace MessageFlow
namespace Handle

/-- The string begins as those of the choices of an owner do. -/
def LikeChoice (owner raw : String) : Prop := ∃ option, raw = owner ++ "@@" ++ option

/-- The handles that strings name under an owner. -/
inductive Under (owner : String) : Handle → Prop
  | choice (option : String) : Under owner (.choice owner option)
  | output {name : String} (h : ¬LikeChoice owner name) : Under owner (.output name)

/-- How strings and the handles under an owner stand to each other. -/
structure Inverse (owner : String) : Prop where
  text : ∀ raw, (parse owner raw).text = raw
  injective : Function.Injective (parse owner)
  option : ∀ option, parse owner (Handle.choice owner option).text = .choice owner option
  output : ∀ name, parse owner name = .output name ↔ ¬LikeChoice owner name
  own : ∀ raw other option, parse owner raw = .choice other option → other = owner
  named : ∀ h : Handle, parse owner h.text = h ↔ Under owner h
  numbered : ∀ i j, i ≠ j → (choiceAt owner i).text ≠ (choiceAt owner j).text

section Naming
variable {owner other raw name option : String} {h : Handle} {i j : Nat}

/-- Whatever is read as a choice is one of the owner. -/
theorem owner_of_parse (h : parse owner raw = .choice other option) : other = owner := by
  rw [parse] at h
  split at h
  · cases h
    rfl
  · cases h

theorem parse_eq_output_self_iff : parse owner name = .output name ↔ ¬LikeChoice owner name := by
  constructor
  · rintro h ⟨option, rfl⟩
    have hchoice : parse owner (owner ++ "@@" ++ option) = .choice owner option := parse_text_choice owner option
    rw [hchoice] at h
    cases h
  · intro hlike
    cases h : parse owner name with
    | choice other option =>
      obtain rfl := owner_of_parse h
      exact absurd ⟨option, parse_eq_choice_iff.1 h⟩ hlike
    | output read => rw [← (parse_eq_output_iff.1 h).1]

theorem under_parse (owner raw : String) : Under owner (parse owner raw) := by
  cases h : parse owner raw with
  | choice other option =>
    obtain rfl := owner_of_parse h
    exact .choice option
  | output name =>
    obtain ⟨rfl, -⟩ := parse_eq_output_iff.1 h
    exact .output (parse_eq_output_self_iff.1 h)

theorem parse_text_iff : parse owner h.text = h ↔ Under owner h := by
  constructor
  · intro heq
    rw [← heq]
    exact under_parse owner h.text
  · rintro (option | hlike)
    · exact parse_text_choice owner option
    · exact parse_eq_output_self_iff.2 hlike

/-- The strings of numbered choices end in their numbers, so they differ as these do. -/
theorem text_choiceAt_inj (h : (choiceAt owner i).text = (choiceAt owner j).text) : i = j := by
  have hid : choiceId i = choiceId j := (String.append_right_inj _).1 h
  exact Text.decimal_inj.1 ((String.append_right_inj _).1 hid)

theorem inverse_text_parse (owner : String) : Inverse owner where
  text := text_parse owner
  injective := Function.LeftInverse.injective (text_parse owner)
  option := parse_text_choice owner
  output _ := parse_eq_output_self_iff
  own _ _ _ := owner_of_parse
  named _ := parse_text_iff
  numbered _ _ hne h := hne (text_choiceAt_inj h)

end Naming

/-- The separator is sought behind the owner, not where it stands first. -/
example : parse "a@@b" "a@@b@@@@c" = .choice "a@@b" "@@c" ∧ parse "a@@b" "a@@c" = .output "a@@c" ∧
    parse "" "@@a" = .choice "" "a" := by decide

end Handle
end MessageFlow
