import MessageFlow.Text.Blank

/-! Ids of options, derived from their titles: each run of white space becomes one underscore. Titles
    that differ only in their white space share an id; nothing tells them apart. -/

namespace MessageFlow
namespace OptionId

/-- Writes an underscore where a run of white space begins; `inRun` says that one is under way. -/
def collapse (inRun : Bool) : List Char → List Char
  | [] => []
  | c :: rest =>
    if Text.isBlank c then
      if inRun then collapse true rest else '_' :: collapse true rest
    else c :: collapse false rest

/-- The second part starts inside a run if the first part ends in one. -/
theorem collapse_append (inRun : Bool) (l m : List Char) :
    collapse inRun (l ++ m) =
      collapse inRun l ++ collapse (l.foldl (fun _ c => Text.isBlank c) inRun) m := by
  induction l generalizing inRun with
  | nil => rfl
  | cons c l ih => by_cases hc : Text.isBlank c <;> cases inRun <;> simp [collapse, hc, ih]

/-- The id of an option with a title. -/
def ofTitle (title : String) : String := String.ofList (collapse false title.toList)

end OptionId
end MessageFlow
