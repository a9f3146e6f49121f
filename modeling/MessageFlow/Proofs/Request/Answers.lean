import MessageFlow.Proofs.Campaign.Resequence
import MessageFlow.Proofs.Compile.Endless
import MessageFlow.Proofs.Request.FixedPoint
import MessageFlow.Proofs.Scaffold.Group

/-! # Which answer a body gets

The three requests answer with a flow, with none, or with an error whose status says who is at fault. What the
answer is follows from the body alone: whether it has the right shape, whether what stands in it reads, and
whether that can be compiled, scaffolded or sequenced. A compilation without end has no answer. -/

namespace MessageFlow
namespace Request
open Compile

/-! ### Compiling -/

def Holds (body : Json) (c : Canvas) : Prop :=
  ∃ flow, body.get? "flowConfig" = some flow ∧ flow ≠ .null ∧ Canvas.codec.read flow = .ok c

/-- The body is an object with nothing in it for a flow, or with null. -/
def Lacks (body : Json) : Prop := body.isObject ∧ ∀ flow, body.get? "flowConfig" = some flow → flow = .null

/-- The body is no object, or what stands in it for a flow is no canvas. -/
def Misstates (body : Json) : Prop :=
  ¬body.isObject ∨ ∃ flow, body.get? "flowConfig" = some flow ∧ flow ≠ .null ∧ ∀ c, Canvas.codec.read flow ≠ .ok c

/-- The error is an answer: it does not stand for a compilation without end. -/
def IsAnswer (e : RequestError) : Prop := e ≠ .compile .endlessGroup

structure CompileAnswers (body : Json) : Prop where
  missing : compile body = .error .missingFlow ↔ Lacks body
  invalid : (∃ fault, compile body = .error (.invalidBody fault)) ↔ Misstates body
  otherwise : (∃ c, Holds body c) ↔ ¬Lacks body ∧ ¬Misstates body
  /-- Of a canvas the result is exactly that of compiling it. -/
  flow : ∀ c, Holds body c → ∀ r, compile body = .ok r ↔ ∃ f, c.compile {} = .ok f ∧ r = ⟨some f⟩
  failure : ∀ c, Holds body c → ∀ e, compile body = .error e ↔ ∃ d, c.compile {} = .error d ∧ e = .compile d
  /-- The request is at fault exactly if no canvas can be read from it. -/
  unreadable : (∃ e, compile body = .error e ∧ e.status = 400) ↔ ¬∃ c, Holds body c
  /-- Else the data of a node is, to which the compilation comes. -/
  unprocessable : ∀ e, compile body = .error e → IsAnswer e → (e.status = 422 ↔
    ∃ c n d, Holds body c ∧ n ∈ c.nodes ∧ Below c {} n ∧ Refused c {} n d ∧ e = .compile (.refused d))
  /-- There is no answer only where groups of one id close a circle. -/
  unanswered : ∀ e, compile body = .error e → ¬IsAnswer e → ∃ c, Holds body c ∧ Endless c {} ∧ ¬c.DistinctIds

section Compiling
variable {body : Json} {c : Canvas} {e : RequestError}

theorem canvas_eq_missing_iff : canvas body = .error .missingFlow ↔ Lacks body := by
  cases body with
  | obj fields =>
    simp only [canvas, Lacks, Json.isObject, Json.get?, true_and]
    cases Json.Object.get? fields "flowConfig" with
    | none => simp
    | some flow =>
      by_cases hnull : flow = .null
      · simp [hnull]
      · cases hread : Canvas.codec.read flow <;> simp [hread, hnull]
  | _ => simp [canvas, Lacks, Json.isObject]

theorem canvas_eq_invalid_iff : (∃ fault, canvas body = .error (.invalidBody fault)) ↔ Misstates body := by
  cases body with
  | obj fields =>
    simp only [canvas, Misstates, Json.isObject, Json.get?, not_true_eq_false, false_or]
    cases Json.Object.get? fields "flowConfig" with
    | none => simp
    | some flow =>
      by_cases hnull : flow = .null
      · simp [hnull]
      · cases hread : Canvas.codec.read flow <;> simp [hread, hnull]
  | _ => simp [canvas, Misstates, Json.isObject]

theorem canvas_cases (body : Json) : canvas body = .error .missingFlow ∨
    (∃ fault, canvas body = .error (.invalidBody fault)) ∨ ∃ c, canvas body = .ok c := by
  unfold canvas
  split
  · split
    · exact .inl rfl
    · exact .inl rfl
    · split
      · exact .inr (.inr ⟨_, rfl⟩)
      · exact .inr (.inl ⟨_, rfl⟩)
  · exact .inr (.inl ⟨_, rfl⟩)

theorem exists_holds_iff : (∃ c, Holds body c) ↔ ¬Lacks body ∧ ¬Misstates body := by
  have hholds : (∃ c, Holds body c) ↔ ∃ c, canvas body = .ok c := exists_congr fun _ => canvas_eq_ok_iff.symm
  rw [hholds, ← canvas_eq_missing_iff, ← canvas_eq_invalid_iff]
  obtain h | ⟨fault, h⟩ | ⟨c, h⟩ := canvas_cases body <;> simp [h]

theorem compile_of_holds (h : Holds body c) : compile body = compileCanvas c := by
  rw [compile, canvas_eq_ok_iff.2 h]

theorem compileCanvas_eq_ok_iff {r : Response} :
    compileCanvas c = .ok r ↔ ∃ f, c.compile {} = .ok f ∧ r = ⟨some f⟩ := by
  unfold compileCanvas
  cases c.compile {} <;> simp [eq_comm]

theorem compileCanvas_eq_error_iff : compileCanvas c = .error e ↔ ∃ d, c.compile {} = .error d ∧ e = .compile d := by
  unfold compileCanvas
  cases c.compile {} <;> simp [eq_comm]

theorem compile_eq_missing_iff : compile body = .error .missingFlow ↔ Lacks body := by
  rw [← canvas_eq_missing_iff, compile]
  cases canvas body <;> simp [compileCanvas_eq_error_iff]

theorem compile_eq_invalid_iff : (∃ fault, compile body = .error (.invalidBody fault)) ↔ Misstates body := by
  rw [← canvas_eq_invalid_iff, compile]
  cases canvas body <;> simp [compileCanvas_eq_error_iff]

/-- Either the body is at fault or the canvas that it holds. -/
theorem at_fault_of_compile_eq_error (h : compile body = .error e) : (e.status = 400 ∧ ¬∃ c, Holds body c) ∨
    ∃ c d, Holds body c ∧ c.compile {} = .error d ∧ e = .compile d := by
  obtain hc | ⟨fault, hc⟩ | ⟨c, hc⟩ := canvas_cases body
  · have hlacks := canvas_eq_missing_iff.1 hc
    rw [compile_eq_missing_iff.2 hlacks] at h
    cases h
    exact .inl ⟨rfl, fun hholds => (exists_holds_iff.1 hholds).1 hlacks⟩
  · have hmisstates := canvas_eq_invalid_iff.1 ⟨fault, hc⟩
    rw [compile, hc] at h
    cases h
    exact .inl ⟨rfl, fun hholds => (exists_holds_iff.1 hholds).2 hmisstates⟩
  · have hholds : Holds body c := canvas_eq_ok_iff.1 hc
    rw [compile_of_holds hholds, compileCanvas_eq_error_iff] at h
    obtain ⟨d, hd, rfl⟩ := h
    exact .inr ⟨c, d, hholds, hd, rfl⟩

theorem compileAnswers (body : Json) : CompileAnswers body where
  missing := compile_eq_missing_iff
  invalid := compile_eq_invalid_iff
  otherwise := exists_holds_iff
  flow c hc r := by rw [compile_of_holds hc, compileCanvas_eq_ok_iff]
  failure c hc e := by rw [compile_of_holds hc, compileCanvas_eq_error_iff]
  unreadable := by
    constructor
    · rintro ⟨e, he, hstatus⟩
      obtain ⟨-, hnone⟩ | ⟨c, d, -, -, rfl⟩ := at_fault_of_compile_eq_error he
      · exact hnone
      · cases hstatus
    · intro hnone
      obtain hlacks | hmisstates := or_iff_not_and_not.2 (mt exists_holds_iff.2 hnone)
      · exact ⟨_, compile_eq_missing_iff.2 hlacks, rfl⟩
      · obtain ⟨fault, hfault⟩ := compile_eq_invalid_iff.2 hmisstates
        exact ⟨_, hfault, rfl⟩
  unprocessable e he hanswer := by
    constructor
    · intro hstatus
      obtain ⟨hstatus', -⟩ | ⟨c, d, hc, hd, rfl⟩ := at_fault_of_compile_eq_error he
      · rw [hstatus] at hstatus'
        cases hstatus'
      · obtain ⟨d, rfl, n, hn, hbelow, hrefused⟩ | ⟨rfl, -⟩ := refused_or_endless_of_compile hd
        · exact ⟨c, n, d, hc, hn, hbelow, hrefused, rfl⟩
        · exact absurd rfl hanswer
    · rintro ⟨c, n, d, -, -, -, -, rfl⟩
      rfl
  unanswered e he hanswer := by
    obtain rfl := not_not.1 hanswer
    obtain ⟨hstatus, -⟩ | ⟨c, d, hc, hd, heq⟩ := at_fault_of_compile_eq_error he
    · cases hstatus
    · cases heq
      obtain ⟨_, hrefused, -⟩ | ⟨-, hendless⟩ := refused_or_endless_of_compile hd
      · cases hrefused
      · exact ⟨c, hc, hendless, fun hids => not_endless_of_distinctIds hids {} hendless⟩

end Compiling

/-! ### Scaffolding -/

/-- The body is an object that reads as a request for a scaffold. -/
def Asks (body : Json) (r : Scaffold.Request) : Prop := body.isObject ∧ Scaffold.Request.record.read body = .ok r

/-- The data is of the form that the kind prescribes: a list for a group, a specification that the node can be
    filled in from for any other kind. -/
def Fits : Scaffold.Kind → Json → Prop
  | .group, data => ∃ items, data = .arr items
  | .single k, data => ∃ form, Scaffold.Filled data k form

structure ScaffoldAnswers (body : Json) (ids : IdSource) : Prop where
  invalid : (∃ fault, scaffold body ids = .error (.invalidBody fault)) ↔ ¬∃ r, Asks body r
  unsupported : ∀ type subType, scaffold body ids = .error (.scaffold (.unsupported type subType)) ↔
    ∃ data, Asks body ⟨type, subType, data⟩ ∧ Scaffold.Kind.ofRequest? type subType = none
  null : (∃ rest, scaffold body ids = .ok (⟨none⟩, rest)) ↔
    ∃ r k, Asks body r ∧ Scaffold.Kind.ofRequest? r.type r.subType = some k ∧ ¬Fits k r.data
  flow : (∃ f rest, scaffold body ids = .ok (⟨some f⟩, rest)) ↔
    ∃ r k, Asks body r ∧ Scaffold.Kind.ofRequest? r.type r.subType = some k ∧ Fits k r.data
  /-- Whatever is wrong, the request is at fault. -/
  unreadable : ∀ e, scaffold body ids = .error e → e.status = 400
  group : ∀ r items, Asks body r → Scaffold.Kind.ofRequest? r.type r.subType = some .group → r.data = .arr items →
    ∃ f rest, scaffold body ids = .ok (⟨some f⟩, rest)

section Scaffolding
variable {body : Json} {ids : IdSource} {r : Scaffold.Request} {k : Scaffold.Kind} {data : Json}

theorem exists_ofSpec_of_fits (h : Fits k data) (ids : IdSource) :
    ∃ f rest, Scaffold.ofSpec k data ids = .ok (f, rest) := by
  cases k with
  | group =>
    obtain ⟨items, rfl⟩ := h
    exact ⟨_, _, rfl⟩
  | single k =>
    obtain ⟨form, hform⟩ := h
    exact ⟨_, _, Scaffold.ofSpec_of_data (Scaffold.data_of_filled hform) ids⟩

theorem exists_ofSpec_of_not_fits (h : ¬Fits k data) (ids : IdSource) :
    ∃ fault, Scaffold.ofSpec k data ids = .error (.malformed k fault) := by
  cases k with
  | group =>
    cases data with
    | arr items => exact absurd ⟨items, rfl⟩ h
    | _ => exact ⟨_, rfl⟩
  | single k =>
    cases hdata : k.data data with
    | error fault => exact ⟨fault, by simp only [Scaffold.ofSpec, Scaffold.single, hdata]⟩
    | ok form => exact absurd ⟨form, Scaffold.filled_of_data hdata⟩ h

theorem Asks.unique {r' : Scaffold.Request} (h : Asks body r) (h' : Asks body r') : r' = r :=
  Except.ok.inj (h'.2.symm.trans h.2)

theorem scaffold_of_not_asks (h : ¬∃ r, Asks body r) : ∃ fault, scaffold body ids = .error (.invalidBody fault) := by
  unfold scaffold
  split
  · next hobject =>
    cases hread : Scaffold.Request.record.read body with
    | error e => exact ⟨_, rfl⟩
    | ok r => exact absurd ⟨r, hobject, hread⟩ h
  · exact ⟨_, rfl⟩

theorem scaffold_of_unrouted (h : Asks body r) (hk : Scaffold.Kind.ofRequest? r.type r.subType = none) :
    scaffold body ids = .error (.scaffold (.unsupported r.type r.subType)) := by
  simp only [scaffold, if_pos h.1, h.2, Scaffold.ofRequest, hk]

theorem scaffold_of_fits (h : Asks body r) (hk : Scaffold.Kind.ofRequest? r.type r.subType = some k)
    (hfits : Fits k r.data) : ∃ f rest, scaffold body ids = .ok (⟨some f⟩, rest) := by
  obtain ⟨f, rest, hf⟩ := exists_ofSpec_of_fits hfits ids
  refine ⟨f, rest, ?_⟩
  simp only [scaffold, if_pos h.1, h.2, Scaffold.ofRequest, hk, hf]

theorem scaffold_of_not_fits (h : Asks body r) (hk : Scaffold.Kind.ofRequest? r.type r.subType = some k)
    (hfits : ¬Fits k r.data) : scaffold body ids = .ok (⟨none⟩, ids) := by
  obtain ⟨fault, hfault⟩ := exists_ofSpec_of_not_fits hfits ids
  simp only [scaffold, if_pos h.1, h.2, Scaffold.ofRequest, hk, hfault]

/-- The four ways in which a request for a scaffold is answered, each with what leads to it. -/
theorem scaffold_cases (body : Json) (ids : IdSource) :
    ((¬∃ r, Asks body r) ∧ ∃ fault, scaffold body ids = .error (.invalidBody fault)) ∨
    ∃ r, (∀ r', Asks body r' ↔ r' = r) ∧
      ((Scaffold.Kind.ofRequest? r.type r.subType = none ∧
          scaffold body ids = .error (.scaffold (.unsupported r.type r.subType))) ∨
        ∃ k, Scaffold.Kind.ofRequest? r.type r.subType = some k ∧
          ((Fits k r.data ∧ ∃ f rest, scaffold body ids = .ok (⟨some f⟩, rest)) ∨
            (¬Fits k r.data ∧ scaffold body ids = .ok (⟨none⟩, ids)))) := by
  by_cases hasks : ∃ r, Asks body r
  · obtain ⟨r, hr⟩ := hasks
    refine .inr ⟨r, fun r' => ⟨hr.unique, fun heq => heq ▸ hr⟩, ?_⟩
    cases hk : Scaffold.Kind.ofRequest? r.type r.subType with
    | none => exact .inl ⟨rfl, scaffold_of_unrouted hr hk⟩
    | some k =>
      by_cases hfits : Fits k r.data
      · exact .inr ⟨k, rfl, .inl ⟨hfits, scaffold_of_fits hr hk hfits⟩⟩
      · exact .inr ⟨k, rfl, .inr ⟨hfits, scaffold_of_not_fits hr hk hfits⟩⟩
  · exact .inl ⟨hasks, scaffold_of_not_asks hasks⟩

theorem scaffold_eq_unsupported_iff {type : String} {subType : Option String} :
    scaffold body ids = .error (.scaffold (.unsupported type subType)) ↔
      ∃ data, Asks body ⟨type, subType, data⟩ ∧ Scaffold.Kind.ofRequest? type subType = none := by
  constructor
  · intro h
    obtain ⟨-, _, h'⟩ | ⟨r, hr, ⟨hk, h'⟩ | ⟨_, -, ⟨-, _, _, h'⟩ | ⟨-, h'⟩⟩⟩ := scaffold_cases body ids <;>
      cases h.symm.trans h'
    exact ⟨r.data, (hr r).2 rfl, hk⟩
  · rintro ⟨data, hr, hk⟩
    exact scaffold_of_unrouted hr hk

theorem scaffoldAnswers (body : Json) (ids : IdSource) : ScaffoldAnswers body ids := by
  have hunsupported := fun type subType => @scaffold_eq_unsupported_iff body ids type subType
  have hgroup := fun r items (hr : Asks body r) hk hdata => @scaffold_of_fits body ids r .group hr hk ⟨items, hdata⟩
  obtain ⟨hnone, fault, h⟩ | ⟨r, hr, ⟨hk, h⟩ | ⟨k, hk, ⟨hfits, f, rest, h⟩ | ⟨hfits, h⟩⟩⟩ := scaffold_cases body ids
  · refine ⟨?_, hunsupported, ?_, ?_, ?_, hgroup⟩ <;> simp [h, not_exists.1 hnone, RequestError.status]
  · refine ⟨?_, hunsupported, ?_, ?_, ?_, hgroup⟩ <;> simp [h, hr, hk, RequestError.status]
  · refine ⟨?_, hunsupported, ?_, ?_, ?_, hgroup⟩ <;> simp [h, hr, hk, hfits]
  · refine ⟨?_, hunsupported, ?_, ?_, ?_, hgroup⟩ <;> simp [h, hr, hk, hfits]

end Scaffolding

/-! ### Sequencing -/

structure CampaignAnswers (body : Json) (ids : IdSource) : Prop where
  invalid : (∃ fault, campaign body ids = .error (.invalidBody fault)) ↔ ¬∃ items, body = .arr items
  empty : campaign body ids = .error (.campaign .empty) ↔
    ∃ items, body = .arr items ∧ ¬∃ v ∈ items, ∃ d, Campaign.Descriptor.record.read v = .ok d
  flow : (∃ f rest, campaign body ids = .ok (⟨some f⟩, rest)) ↔
    ∃ items, body = .arr items ∧ ∃ v ∈ items, ∃ d, Campaign.Descriptor.record.read v = .ok d
  null : ¬∃ rest, campaign body ids = .ok (⟨none⟩, rest)
  unreadable : ∀ e, campaign body ids = .error e → e.status = 400

section Sequencing
variable {items : List Json}

theorem described_ne_nil_iff :
    Campaign.described items ≠ [] ↔ ∃ v ∈ items, ∃ d, Campaign.Descriptor.record.read v = .ok d := by
  constructor
  · intro hne
    obtain ⟨d, hd⟩ := List.exists_mem_of_ne_nil _ hne
    obtain ⟨v, hv, hread⟩ := Campaign.mem_described hd
    exact ⟨v, hv, d, hread⟩
  · rintro ⟨v, hv, d, hread⟩
    exact List.ne_nil_of_mem (List.mem_filterMap.2 ⟨v, hv, by rw [hread]; rfl⟩)

theorem campaignAnswers (body : Json) (ids : IdSource) : CampaignAnswers body ids := by
  by_cases hlist : ∃ items, body = .arr items
  · obtain ⟨items, rfl⟩ := hlist
    by_cases hread : ∃ v ∈ items, ∃ d, Campaign.Descriptor.record.read v = .ok d
    · obtain ⟨f, rest, hf⟩ := Campaign.exists_sequence (described_ne_nil_iff.2 hread) {} ids
      have h : campaign (.arr items) ids = .ok (⟨some f⟩, rest) := by simp only [campaign, hf]
      constructor <;> simp [h, hread]
    · have hsize : (Campaign.ofItems items {}).size = 0 :=
        congrArg List.length (not_not.1 (mt described_ne_nil_iff.1 hread))
      have h : campaign (.arr items) ids = .error (.campaign .empty) := by
        rw [campaign, Campaign.sequence, hsize]
        rfl
      exact ⟨by simp [h], by simpa [h] using hread, by simpa [h] using hread, by simp [h],
        by simp [h, RequestError.status]⟩
  · have hinvalid : ∃ fault, campaign body ids = .error (.invalidBody fault) := by
      cases body with
      | arr items => exact absurd ⟨items, rfl⟩ hlist
      | _ => exact ⟨_, rfl⟩
    obtain ⟨fault, h⟩ := hinvalid
    constructor <;> simp [h, not_exists.1 hlist, RequestError.status]

end Sequencing

theorem answers_of_body (body : Json) (ids : IdSource) :
    CompileAnswers body ∧ ScaffoldAnswers body ids ∧ CampaignAnswers body ids :=
  ⟨compileAnswers body, scaffoldAnswers body ids, campaignAnswers body ids⟩

end Request
end MessageFlow
