import MessageFlow.OptionId
import Mathlib.Data.List.SplitBy

/-! # Runs of white space

A title falls into gaps and words by turns: the longest runs of white space and of other characters. The id of an
option has one underscore for each gap, and the words as they stand. So the runs decide how long an id is, what
becomes of two titles that are put together, and which titles share an id. An underscore in a title is a character
like any other. -/

namespace MessageFlow
namespace OptionId
open Text

/-! ### Runs -/

/-- The characters are all white space, or all are not, and there is one at least. -/
def IsRun (blank : Bool) (run : List Char) : Prop := run ≠ [] ∧ ∀ c ∈ run, isBlank c = blank

/-- The text falls into the given runs, none of which could be longer. -/
structure FallsInto (text : List Char) (runs : List (List Char)) : Prop where
  whole : runs.flatten = text
  pure : ∀ run ∈ runs, ∃ blank, IsRun blank run
  turns : runs.IsChain fun run next => ∀ blank, IsRun blank run → ¬IsRun blank next

def runsOf (text : List Char) : List (List Char) := text.splitBy fun a b => isBlank a == isBlank b

section Runs
variable {run next text : List Char} {runs : List (List Char)} {blank : Bool} {c : Char}

/-- Any one character tells what a run consists of. -/
theorem isRun_iff_of_mem (h : ∃ blank, IsRun blank run) (hc : c ∈ run) : IsRun blank run ↔ isBlank c = blank := by
  refine ⟨fun hrun => hrun.2 c hc, ?_⟩
  obtain ⟨own, hrun⟩ := h
  rintro rfl
  rw [hrun.2 c hc]
  exact hrun

theorem exists_isRun_iff : (∃ blank, IsRun blank run) ↔
    run ≠ [] ∧ run.IsChain fun a b => (isBlank a == isBlank b) = true := by
  constructor
  · rintro ⟨blank, hne, hrun⟩
    refine ⟨hne, (List.pairwise_of_forall_mem_list fun a ha b hb => ?_).isChain⟩
    rw [hrun a ha, hrun b hb, beq_self_eq_true]
  · rintro ⟨hne, hchain⟩
    induction run with
    | nil => exact absurd rfl hne
    | cons a rest ih =>
      cases rest with
      | nil => exact ⟨isBlank a, hne, fun c hc => by rw [List.mem_singleton.1 hc]⟩
      | cons b rest =>
        obtain ⟨hab, hrest⟩ := List.isChain_cons_cons.1 hchain
        obtain ⟨blank, hrun⟩ := ih (List.cons_ne_nil b rest) hrest
        exact ⟨blank, hne, List.forall_mem_cons.2 ⟨(beq_iff_eq.1 hab).trans (hrun.2 b List.mem_cons_self), hrun.2⟩⟩

/-- Two runs take turns if the last character of the one is told apart from the first of the other. -/
theorem turns_iff (hr : ∃ blank, IsRun blank run) (hn : ∃ blank, IsRun blank next) :
    (∀ blank, IsRun blank run → ¬IsRun blank next) ↔
      ∃ ha hb, (isBlank (run.getLast ha) == isBlank (next.head hb)) = false := by
  have hrun : run ≠ [] := (exists_isRun_iff.1 hr).1
  have hnext : next ≠ [] := (exists_isRun_iff.1 hn).1
  simp only [isRun_iff_of_mem hr (List.getLast_mem hrun), isRun_iff_of_mem hn (List.head_mem hnext), forall_eq',
    beq_eq_false_iff_ne, hrun, hnext, ne_eq, not_false_eq_true, exists_true_left]
  exact not_congr eq_comm

/-- A text falls into its runs, and into no others. -/
theorem fallsInto_iff : FallsInto text runs ↔ runs = runsOf text := by
  rw [eq_comm, runsOf, List.splitBy_eq_iff]
  constructor
  · intro h
    have hpure := fun run hrun => exists_isRun_iff.1 (h.pure run hrun)
    refine ⟨h.whole.symm, fun hnil => (hpure [] hnil).1 rfl, fun run hrun => (hpure run hrun).2, ?_⟩
    exact h.turns.imp_of_mem_imp fun r s hr hs => (turns_iff (h.pure r hr) (h.pure s hs)).1
  · rintro ⟨hwhole, hnil, hchains, hturns⟩
    have hpure : ∀ run ∈ runs, ∃ blank, IsRun blank run := fun run hrun =>
      exists_isRun_iff.2 ⟨fun h => hnil (h ▸ hrun), hchains run hrun⟩
    refine ⟨hwhole.symm, hpure, ?_⟩
    exact hturns.imp_of_mem_imp fun r s hr hs => (turns_iff (hpure r hr) (hpure s hs)).2

end Runs

/-! ### What is written -/

/-- What an id has for a run of a title. -/
def written (run : List Char) : List Char := if run.all isBlank then ['_'] else run

section Written
variable {run l m : List Char} {runs : List (List Char)} {blank inRun : Bool}

theorem IsRun.all (h : IsRun blank run) : run.all isBlank = blank := by
  obtain ⟨c, hc⟩ := List.exists_mem_of_ne_nil run h.1
  cases blank with
  | true => exact List.all_eq_true.2 h.2
  | false => exact List.all_eq_false.2 ⟨c, hc, by rw [h.2 c hc]; decide⟩

theorem IsRun.written_eq (h : IsRun blank run) : written run = if blank then ['_'] else run := by
  rw [written, h.all]

/-- Text without white space is left as it is. -/
theorem collapse_eq_self (h : ∀ c ∈ l, isBlank c = false) (inRun : Bool) : collapse inRun l = l := by
  induction l generalizing inRun with
  | nil => rfl
  | cons c l ih =>
    obtain ⟨hc, hl⟩ := List.forall_mem_cons.1 h
    rw [collapse, if_neg (by rw [hc]; decide), ih hl]

theorem collapse_true_of_blank (h : ∀ c ∈ l, isBlank c = true) : collapse true l = [] := by
  induction l with
  | nil => rfl
  | cons c l ih =>
    obtain ⟨hc, hl⟩ := List.forall_mem_cons.1 h
    rw [collapse, if_pos hc, if_pos rfl, ih hl]

theorem collapse_run (h : IsRun blank run) : collapse false run = written run := by
  rw [h.written_eq]
  cases blank with
  | false => exact collapse_eq_self h.2 false
  | true =>
    cases run with
    | nil => exact absurd rfl h.1
    | cons c rest =>
      obtain ⟨hc, hrest⟩ := List.forall_mem_cons.1 h.2
      rw [collapse, if_pos hc, if_neg Bool.false_ne_true, collapse_true_of_blank hrest, if_pos rfl]

/-- Whether a run is under way at the end is told by the last character. -/
theorem foldl_isBlank (l : List Char) : l.foldl (fun _ c => isBlank c) false = l.getLast?.any isBlank := by
  cases l using List.reverseRecOn with
  | nil => rfl
  | append_singleton l c => rw [List.foldl_append, List.getLast?_concat]; rfl

/-- It makes no difference whether a run is under way before a character that is not white space. -/
theorem collapse_of_head (h : l.head?.any isBlank = false) (inRun : Bool) : collapse inRun l = collapse false l := by
  cases l with
  | nil => rfl
  | cons c l =>
    have hc : ¬isBlank c = true := Bool.eq_false_iff.1 h
    rw [collapse, collapse, if_neg hc, if_neg hc]

theorem collapse_of_blank_head (h : l.head?.any isBlank = true) : collapse false l = '_' :: collapse true l := by
  cases l with
  | nil => cases h
  | cons c l =>
    have hc : isBlank c = true := h
    rw [collapse, collapse, if_pos hc, if_pos hc, if_neg Bool.false_ne_true, if_pos rfl]

/-- What ends in white space has an id that ends in an underscore. -/
theorem exists_collapse_eq_append (h : l.getLast?.any isBlank = true) : ∃ x, collapse false l = x ++ ['_'] := by
  induction l using List.reverseRecOn with
  | nil => cases h
  | append_singleton l c ih =>
    have hc : isBlank c = true := by rwa [List.getLast?_concat] at h
    rw [collapse_append, foldl_isBlank]
    cases hlast : l.getLast?.any isBlank with
    | false => exact ⟨collapse false l, by rw [collapse, if_pos hc, if_neg Bool.false_ne_true, collapse]⟩
    | true =>
      obtain ⟨x, hx⟩ := ih hlast
      exact ⟨x, by rw [collapse, if_pos hc, if_pos rfl, collapse, List.append_nil, hx]⟩

theorem collapse_flatten (hpure : ∀ run ∈ runs, ∃ blank, IsRun blank run)
    (hturns : runs.IsChain fun run next => ∀ blank, IsRun blank run → ¬IsRun blank next) :
    collapse false runs.flatten = runs.flatMap written := by
  induction runs with
  | nil => rfl
  | cons run runs ih =>
    obtain ⟨⟨blank, hrun⟩, hpure⟩ := List.forall_mem_cons.1 hpure
    obtain ⟨hnext, hturns⟩ := List.isChain_cons.1 hturns
    have hlast : run.getLast?.any isBlank = blank := by
      rw [List.getLast?_eq_some_getLast hrun.1]
      exact hrun.2 _ (List.getLast_mem hrun.1)
    rw [List.flatten_cons, collapse_append, foldl_isBlank, hlast, collapse_run hrun, List.flatMap_cons,
      ← ih hpure hturns]
    congr 1
    -- After a gap the next run is a word, so the gap is over where it begins.
    cases blank with
    | false => rfl
    | true =>
      refine collapse_of_head ?_ true
      cases runs with
      | nil => rfl
      | cons next runs =>
        obtain ⟨blank, hrest⟩ := hpure next List.mem_cons_self
        cases blank with
        | true => exact absurd hrest (hnext next rfl true hrun)
        | false =>
          obtain ⟨d, rest, rfl⟩ := List.exists_cons_of_ne_nil hrest.1
          exact hrest.2 d List.mem_cons_self

theorem length_written (hpure : ∀ run ∈ runs, ∃ blank, IsRun blank run) : (runs.flatMap written).length =
    runs.flatten.countP (fun c => !isBlank c) + runs.countP (·.all isBlank) := by
  induction runs with
  | nil => rfl
  | cons run runs ih =>
    obtain ⟨⟨blank, hrun⟩, hpure⟩ := List.forall_mem_cons.1 hpure
    have hcount : run.countP (fun c => !isBlank c) = if blank then 0 else run.length := by
      cases blank with
      | true => exact List.countP_eq_zero.2 fun c hc => by rw [hrun.2 c hc]; decide
      | false => exact List.countP_eq_length.2 fun c hc => by rw [hrun.2 c hc]; rfl
    rw [List.flatMap_cons, List.length_append, ih hpure, List.flatten_cons, List.countP_append, List.countP_cons,
      hcount, hrun.written_eq, hrun.all]
    cases blank with
    | true =>
      simp only [if_true, List.length_singleton]
      omega
    | false =>
      simp only [Bool.false_eq_true, if_false]
      omega

theorem visible_of_mem_collapse {c : Char} (h : c ∈ collapse inRun l) : isBlank c = false := by
  induction l generalizing inRun with
  | nil => cases h
  | cons d l ih =>
    rw [collapse] at h
    split at h
    · split at h
      · exact ih h
      · rcases List.mem_cons.1 h with rfl | h
        · exact isBlank_underscore
        · exact ih h
    · next hd =>
      rcases List.mem_cons.1 h with rfl | h
      · exact Bool.eq_false_iff.2 hd
      · exact ih h

end Written

/-! ### Ids -/

def Begins (text : String) : Prop := text.toList.head?.any isBlank = true

def Ends (text : String) : Prop := text.toList.getLast?.any isBlank = true

/-- The runs are the same but for the white space that the gaps consist of. -/
def Respaced : List (List Char) → List (List Char) → Prop :=
  List.Forall₂ fun run other => run = other ∨ IsRun true run ∧ IsRun true other

/-- How the id of a title follows from the runs of the title. -/
structure Spelled (title : String) (runs : List (List Char)) : Prop where
  unique : ∀ others, FallsInto title.toList others ↔ others = runs
  replaced : (ofTitle title).toList = runs.flatMap written
  visible : ∀ c ∈ (ofTitle title).toList, isBlank c = false
  length : (ofTitle title).length = title.toList.countP (fun c => !isBlank c) + runs.countP (·.all isBlank)
  again : ofTitle (ofTitle title) = ofTitle title
  append : ∀ other, ¬(Ends title ∧ Begins other) → ofTitle (title ++ other) = ofTitle title ++ ofTitle other
  /-- Where two gaps meet they are one. -/
  seam : ∀ other, Ends title → Begins other → ∃ x y, ofTitle title = x ++ "_" ∧ ofTitle other = "_" ++ y ∧
    ofTitle (title ++ other) = x ++ "_" ++ y
  respaced : ∀ other others, FallsInto other.toList others → Respaced runs others → ofTitle other = ofTitle title

section Ids
variable {title other : String} {runs others : List (List Char)}

theorem toList_ofTitle (title : String) : (ofTitle title).toList = collapse false title.toList := String.toList_ofList

theorem toList_ofTitle_append (title other : String) : (ofTitle (title ++ other)).toList =
    (ofTitle title).toList ++ collapse (title.toList.getLast?.any isBlank) other.toList := by
  rw [toList_ofTitle, toList_ofTitle, String.toList_append, collapse_append, foldl_isBlank]

theorem FallsInto.toList_ofTitle (h : FallsInto title.toList runs) : (ofTitle title).toList = runs.flatMap written := by
  rw [OptionId.toList_ofTitle, ← h.whole, collapse_flatten h.pure h.turns]

theorem ofTitle_append (h : ¬(Ends title ∧ Begins other)) :
    ofTitle (title ++ other) = ofTitle title ++ ofTitle other := by
  rw [← String.toList_inj, toList_ofTitle_append, String.toList_append, toList_ofTitle other]
  congr 1
  cases hends : title.toList.getLast?.any isBlank with
  | false => rfl
  | true => exact collapse_of_head (Bool.eq_false_iff.2 fun hbegins => h ⟨hends, hbegins⟩) true

theorem ofTitle_seam (hends : Ends title) (hbegins : Begins other) : ∃ x y, ofTitle title = x ++ "_" ∧
    ofTitle other = "_" ++ y ∧ ofTitle (title ++ other) = x ++ "_" ++ y := by
  obtain ⟨x, hx⟩ := exists_collapse_eq_append hends
  have htitle : (ofTitle title).toList = x ++ "_".toList := (toList_ofTitle title).trans hx
  have hother : (ofTitle other).toList = "_".toList ++ collapse true other.toList :=
    (toList_ofTitle other).trans (collapse_of_blank_head hbegins)
  have hboth : (ofTitle (title ++ other)).toList = x ++ "_".toList ++ collapse true other.toList := by
    rw [toList_ofTitle_append, hends, htitle]
  refine ⟨String.ofList x, String.ofList (collapse true other.toList), ?_, ?_, ?_⟩ <;>
    simp only [← String.toList_inj, String.toList_append, String.toList_ofList, htitle, hother, hboth]

theorem flatMap_written_of_respaced (h : Respaced runs others) : others.flatMap written = runs.flatMap written := by
  induction h with
  | nil => rfl
  | cons hrun _ ih =>
    rw [List.flatMap_cons, List.flatMap_cons, ih]
    rcases hrun with rfl | ⟨hrun, hother⟩
    · rfl
    · rw [hrun.written_eq, hother.written_eq, if_pos rfl, if_pos rfl]

/-- The id of any title, by the runs that the title falls into. -/
theorem spelled_runsOf (title : String) : Spelled title (runsOf title.toList) := by
  have hruns : FallsInto title.toList (runsOf title.toList) := fallsInto_iff.2 rfl
  have hvisible : ∀ c ∈ (ofTitle title).toList, isBlank c = false := fun c hc => by
    rw [toList_ofTitle] at hc
    exact visible_of_mem_collapse hc
  refine ⟨fun others => fallsInto_iff, hruns.toList_ofTitle, hvisible, ?_, ?_, fun other => ofTitle_append,
    fun other => ofTitle_seam, fun other others hothers h => ?_⟩
  · rw [← String.length_toList, hruns.toList_ofTitle, length_written hruns.pure, hruns.whole]
  · rw [← String.toList_inj, toList_ofTitle, collapse_eq_self hvisible]
  · rw [← String.toList_inj, hothers.toList_ofTitle, hruns.toList_ofTitle, flatMap_written_of_respaced h]

end Ids

/-- An underscore of the title stays beside those that stand for the gaps. -/
example : ofTitle " to_day\u2003\t7 pm\n" = "_to_day_7_pm_" := by decide

end OptionId
end MessageFlow
