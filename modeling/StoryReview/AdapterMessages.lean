import StoryReview.FacilitatorAdapter
import StoryReview.Scenarios

/-!
# The messages of the local adapters

`agent_kit` parses an invocation into a request model of its own and renders it with a
renderer of its own. Both sides take the JSON text of an embedded model from the shared
schema library, which is the one parameter `wire`: equal values have equal JSON.
-/
namespace StoryReview

/-! ## The request models -/

namespace AgentKit

/-- The typed input of a reviewer. -/
structure ReviewerRequest where
  story : StoryDetail
  previousReview : Option ReviewReport := none
  extraContext : Option Text := none
deriving DecidableEq, Repr

/-- One perspective's input to the synthesis. -/
structure PerspectivePair where
  report : ReviewReport
  reference : ArtifactReference
  perspective_matches : reference.perspective = some report.perspective
  type_matches : reference.type = .review report.perspective
deriving DecidableEq, Repr

/-- The typed input of the synthesis. -/
structure SynthesisRequest where
  business : PerspectivePair
  engineering : PerspectivePair
  one_story : business.report.storyId = engineering.report.storyId
  one_run : business.reference.storyRunId = engineering.reference.storyRunId
deriving DecidableEq, Repr

/-- `ReviewerRequest` has no rules beyond its fields. -/
def ReviewerRequest.validate (body : ReviewerInvocation) : Except Text ReviewerRequest :=
  .ok ⟨body.story, body.previousReview, body.extraContext⟩

/-- `reference_matches_report`. -/
def PerspectivePair.validate (body : StoryReview.PerspectivePair) :
    Except Text PerspectivePair :=
  if hperspective : body.reference.perspective ≠ some body.report.perspective then
    .error "reference perspective does not match report perspective"
  else if htype : body.reference.type ≠ .review body.report.perspective then
    .error "reference type does not match report perspective"
  else .ok ⟨body.report, body.reference, not_not.mp hperspective, not_not.mp htype⟩

/-- `pairs_belong_together`. -/
def SynthesisRequest.validate (body : SynthesisInvocation) : Except Text SynthesisRequest := do
  let business ← PerspectivePair.validate (body.pairs .business)
  let engineering ← PerspectivePair.validate (body.pairs .engineering)
  if hstory : business.report.storyId ≠ engineering.report.storyId then
    .error "both reports must be of one story"
  else if hrun : business.reference.storyRunId ≠ engineering.reference.storyRunId then
    .error "both references must belong to one story run"
  else .ok ⟨business, engineering, not_not.mp hstory, not_not.mp hrun⟩

end AgentKit

namespace FacilitatorRequest

/-- `turn_and_message_agree`, after the bounds of `turn_number`. -/
def validate (body : FacilitatorInvocation) : Except Text FacilitatorRequest :=
  if hlow : ¬ 1 ≤ body.turnNumber then
    .error "Input should be greater than or equal to 1"
  else if hhigh : ¬ body.turnNumber ≤ 10 then
    .error "Input should be less than or equal to 10"
  else if hopening : body.turnNumber = 1 ∧ body.poMessage ≠ none then
    .error "the opening turn carries no po_message"
  else if hlater : 1 < body.turnNumber ∧ body.poMessage = none then
    .error "po_message is required from turn 2 onward"
  else if hsynthesis : body.synthesisReference.type ≠ .synthesis then
    .error "synthesis_reference must reference a synthesis artifact"
  else if hlineage : ¬ ∀ reference ∈ body.evidenceReferences,
      reference.storyRunId = body.synthesisReference.storyRunId then
    .error "evidence references must belong to the synthesis run"
  else .ok
    { toFacilitatorInvocation := body
      turnNumber_bounds := ⟨not_not.mp hlow, not_not.mp hhigh⟩
      opening_without_message := fun hone => not_not.mp fun hsome => hopening ⟨hone, hsome⟩
      later_with_message := fun hone =>
        Option.isSome_iff_ne_none.mpr fun hnone => hlater ⟨hone, hnone⟩
      reference_is_synthesis := not_not.mp hsynthesis
      one_lineage := not_not.mp hlineage }

theorem validate_eq_ok {body : FacilitatorInvocation} {request : FacilitatorRequest} :
    validate body = .ok request ↔ request.toFacilitatorInvocation = body := by
  constructor
  · intro h
    unfold validate at h
    split_ifs at h
    cases h
    rfl
  · intro h
    subst h
    unfold validate
    have hopening := request.opening_without_message
    have hlater := request.later_with_message
    rw [dif_neg (not_not.mpr request.turnNumber_bounds.1),
      dif_neg (not_not.mpr request.turnNumber_bounds.2),
      dif_neg fun h => h.2 (hopening h.1),
      dif_neg fun h => Option.isSome_iff_ne_none.mp (hlater h.1) h.2,
      dif_neg (not_not.mpr request.reference_is_synthesis),
      dif_neg (not_not.mpr request.one_lineage)]

/-- The story under review, from the synthesis report. -/
def storyId (request : FacilitatorRequest) : StoryId := request.synthesisReport.storyId

/-- The lineage every artifact read is scoped to. -/
def storyRunId (request : FacilitatorRequest) : RunId := request.synthesisReference.storyRunId

end FacilitatorRequest

namespace AgentKit

/-! ## The renderers -/

section Renderers
variable (wire : Wire)

def renderReviewerMessage (request : ReviewerRequest) : Text :=
  let sections := [
    "## Story under review",
    "```json\n" ++ wire.story request.story ++ "\n```"]
  let sections := match request.previousReview with
    | some previousReview => sections ++ [
        "## Previous review of this story (re-review baseline)",
        "```json\n" ++ wire.review previousReview ++ "\n```"]
    | none => sections
  let sections := match request.extraContext with
    | some extraContext => sections ++ [
        "## Extra context from the Product Owner",
        extraContext]
    | none => sections
  let sections := sections ++ [
    "## Your task",
    "Produce the structured review of the story above, following your " ++
    "instructions."]
  "\n\n".intercalate sections

def renderSynthesisMessage (request : SynthesisRequest) : Text :=
  let pairs := [
    ("Business review", request.business),
    ("Engineering review", request.engineering)]
  let sections := pairs.foldl (fun sections (label, pair) => sections ++ [
    s!"## {label}",
    "```json\n" ++ wire.review pair.report ++ "\n```",
    s!"### Artifact reference for the {label.toLower} (echo unchanged in `inputs`)",
    "```json\n" ++ wire.reference pair.reference ++ "\n```"]) []
  let sections := sections ++ [
    "## Your task",
    "Merge the two reviews above into one synthesis report, following " ++
    "your instructions. Echo the two supplied artifact references " ++
    "unchanged as your `inputs`."]
  "\n\n".intercalate sections

def renderFacilitatorMessage (request : FacilitatorRequest) : Text :=
  let sections := [
    "## Turn context",
    s!"Story under review: {request.storyId}. " ++
    s!"Story run: {wire.runId request.storyRunId}. " ++
    s!"This is turn {request.turnNumber}" ++
      (if request.turnNumber = 1 then " — the opening turn (no PO message yet)." else ".")]
  let sections := match request.poMessage with
    | some poMessage => sections ++ ["## PO message", poMessage]
    | none => sections
  let sections := match request.decisionState with
    | some state =>
      if state.resolutions ≠ [] ∨ state.openIssues ≠ [] then
        let listed := "\n".intercalate (state.resolutions.map fun item =>
          s!"- {item.issue}: {item.disposition.wire} (turn {item.turnNumber}) — " ++
            item.explanation)
        let openListed :=
          if state.openIssues ≠ [] then ", ".intercalate state.openIssues else "none"
        sections ++ [
          "## Current decision state",
          "Latest recorded disposition per issue (authoritative — reconcile " ++
          "against this, not the conversation):\n" ++
          (if listed ≠ "" then listed else "- none"),
          s!"Currently open issues: {openListed}"]
      else sections
    | none => sections
  let sections := sections ++ [
    "## Latest synthesis report",
    "```json\n" ++ wire.synthesis request.synthesisReport ++ "\n```",
    "### Synthesis artifact reference",
    "```json\n" ++ wire.reference request.synthesisReference ++ "\n```"]
  let sections :=
    if request.evidenceReferences ≠ [] then
      let listed := "\n".intercalate (request.evidenceReferences.map fun ref =>
        s!"- `{wire.artifactId ref.artifactId}` ({ref.type.wire}" ++
          (match ref.perspective with
            | some perspective => s!", {perspective.wire}"
            | none => "") ++
          s!", v{ref.version})")
      sections ++ [
        "## Artifact references available as evidence (this story run only)",
        listed]
    else
      sections ++ [
        "## Artifact references available as evidence",
        "None — no artifacts are readable this turn."]
  let sections := sections ++ [
    "## Your task",
    "Produce this turn's `FacilitatorTurnOutput` following your " ++
    "instructions. Artifact reads are limited to the references listed " ++
    "above."]
  "\n\n".intercalate sections

end Renderers

/-! ## What a request model accepts -/

/-- The pair as orchestration holds it. -/
def PerspectivePair.plain (pair : PerspectivePair) : StoryReview.PerspectivePair :=
  ⟨pair.report, pair.reference⟩

def ReviewerRequest.invocation (request : ReviewerRequest) : ReviewerInvocation :=
  ⟨request.story, request.previousReview, request.extraContext⟩

def SynthesisRequest.pair (request : SynthesisRequest) : Perspective → PerspectivePair
  | .business => request.business
  | .engineering => request.engineering

def SynthesisRequest.invocation (request : SynthesisRequest) : SynthesisInvocation :=
  ⟨fun p => (request.pair p).plain⟩

theorem ReviewerRequest.validate_eq_ok {body : ReviewerInvocation} {request : ReviewerRequest} :
    ReviewerRequest.validate body = .ok request ↔ request.invocation = body := by
  cases body
  cases request
  simp [validate, invocation, eq_comm]

theorem PerspectivePair.validate_eq_ok {body : StoryReview.PerspectivePair}
    {pair : PerspectivePair} : PerspectivePair.validate body = .ok pair ↔ pair.plain = body := by
  constructor
  · intro h
    unfold validate at h
    split_ifs at h
    cases h
    rfl
  · intro h
    subst h
    unfold validate PerspectivePair.plain
    rw [dif_neg (not_not.mpr pair.perspective_matches),
      dif_neg (not_not.mpr pair.type_matches)]

theorem SynthesisRequest.validate_eq_ok {body : SynthesisInvocation}
    {request : SynthesisRequest} :
    SynthesisRequest.validate body = .ok request ↔ request.invocation = body := by
  constructor
  · intro h
    unfold validate at h
    cases hbusiness : PerspectivePair.validate (body.pairs .business) with
    | error e => rw [hbusiness] at h; cases h
    | ok business =>
      cases hengineering : PerspectivePair.validate (body.pairs .engineering) with
      | error e => rw [hbusiness, hengineering] at h; cases h
      | ok engineering =>
        rw [hbusiness, hengineering] at h
        simp only [bind, Except.bind] at h
        split_ifs at h
        cases h
        apply congrArg SynthesisInvocation.mk
        funext p
        cases p with
        | business => exact PerspectivePair.validate_eq_ok.mp hbusiness
        | engineering => exact PerspectivePair.validate_eq_ok.mp hengineering
  · intro h
    subst h
    have hbusiness : PerspectivePair.validate (request.invocation.pairs .business) =
        .ok request.business := PerspectivePair.validate_eq_ok.mpr rfl
    have hengineering : PerspectivePair.validate (request.invocation.pairs .engineering) =
        .ok request.engineering := PerspectivePair.validate_eq_ok.mpr rfl
    unfold validate
    rw [hbusiness, hengineering]
    simp only [bind, Except.bind]
    rw [dif_neg (not_not.mpr request.one_story), dif_neg (not_not.mpr request.one_run)]

/-! ## Joined texts -/

theorem append_ne_empty {s : Text} (h : s ≠ "") (t : Text) : s ++ t ≠ "" := by
  intro happend
  exact h (String.append_eq_empty_iff.mp happend).1

theorem intercalate_ne_empty {s : Text} (h : s ≠ "") (separator : Text) (rest : List Text) :
    separator.intercalate (s :: rest) ≠ "" := by
  cases rest with
  | nil => rwa [String.intercalate_singleton]
  | cons t rest =>
      rw [String.intercalate_cons_cons, String.append_assoc]
      exact append_ne_empty h _

theorem resolutionLine_ne_empty (item : ResolutionItem) :
    AgentEngine.resolutionLine item ≠ "" := by
  unfold AgentEngine.resolutionLine
  repeat apply append_ne_empty
  decide

/-- The fallback of an empty text is the fallback of an empty list. -/
theorem listed_eq (items : List ResolutionItem) :
    (if "\n".intercalate (items.map AgentEngine.resolutionLine) ≠ "" then
        "\n".intercalate (items.map AgentEngine.resolutionLine) else "- none") =
      if items = [] then "- none" else "\n".intercalate (items.map AgentEngine.resolutionLine) := by
  cases items with
  | nil => simp
  | cons item items =>
      rw [List.map_cons, if_pos (intercalate_ne_empty (resolutionLine_ne_empty item) _ _),
        if_neg (List.cons_ne_nil _ _)]

/-! ## The renderers agree -/

section Agreement
variable (wire : Wire)

theorem renderReviewerMessage_agrees (request : ReviewerRequest) :
    renderReviewerMessage wire request =
      AgentEngine.renderReviewerMessage wire request.invocation := by
  unfold renderReviewerMessage AgentEngine.renderReviewerMessage ReviewerRequest.invocation
  cases request.previousReview with
  | none =>
    cases request.extraContext with
    | none => rfl
    | some context => rfl
  | some review =>
    cases request.extraContext with
    | none => rfl
    | some context => rfl

theorem lower_business : "Business review".toLower = "business review" := by decide +kernel

theorem lower_engineering : "Engineering review".toLower = "engineering review" := by
  decide +kernel

theorem renderSynthesisMessage_agrees (request : SynthesisRequest) :
    renderSynthesisMessage wire request =
      AgentEngine.renderSynthesisMessage wire request.invocation := by
  unfold renderSynthesisMessage AgentEngine.renderSynthesisMessage
  rw [← lower_business, ← lower_engineering]
  rfl

theorem turnContext_eq (request : FacilitatorRequest) :
    s!"Story under review: {request.storyId}. " ++
        s!"Story run: {wire.runId request.storyRunId}. " ++
        s!"This is turn {request.turnNumber}" ++
          (if request.turnNumber = 1 then " — the opening turn (no PO message yet)." else ".") =
      AgentEngine.turnContext wire request.toFacilitatorInvocation :=
  String.append_assoc

theorem decisionSections_eq (state : DecisionState) (sections : List Text) :
    (if state.resolutions ≠ [] ∨ state.openIssues ≠ [] then
      sections ++ ["## Current decision state",
        "Latest recorded disposition per issue (authoritative — reconcile " ++
        "against this, not the conversation):\n" ++
        (if "\n".intercalate (state.resolutions.map AgentEngine.resolutionLine) ≠ "" then
          "\n".intercalate (state.resolutions.map AgentEngine.resolutionLine) else "- none"),
        s!"Currently open issues: " ++ toString
          (if state.openIssues ≠ [] then ", ".intercalate state.openIssues else "none")]
      else sections) = sections ++ AgentEngine.decisionSections state := by
  rw [listed_eq, ite_not]
  unfold AgentEngine.decisionSections
  by_cases h : state.resolutions = [] ∧ state.openIssues = []
  · simp [h]
  · rw [if_pos (not_and_or.mp h), if_neg h]
    rfl

theorem evidenceLine_eq (ref : ArtifactReference) :
    s!"- `{wire.artifactId ref.artifactId}` ({ref.type.wire}" ++
        (match ref.perspective with
          | some perspective => s!", {perspective.wire}"
          | none => "") ++
        s!", v{ref.version})" = AgentEngine.evidenceLine wire ref := by
  unfold AgentEngine.evidenceLine
  cases ref.perspective with
  | none => rfl
  | some perspective => rfl

theorem evidenceSections_eq (refs : List ArtifactReference) (sections listed none : List Text) :
    (if refs ≠ [] then sections ++ listed else sections ++ none) =
      sections ++ if refs = [] then none else listed := by
  cases refs with
  | nil => rfl
  | cons ref refs => rfl

theorem renderFacilitatorMessage_agrees (request : FacilitatorRequest) :
    renderFacilitatorMessage wire request =
      AgentEngine.renderFacilitatorMessage wire request.toFacilitatorInvocation := by
  have hline : ∀ item : ResolutionItem,
      s!"- {item.issue}: {item.disposition.wire} (turn {item.turnNumber}) — " ++
        item.explanation = AgentEngine.resolutionLine item := fun _ => rfl
  unfold renderFacilitatorMessage AgentEngine.renderFacilitatorMessage AgentEngine.turnSections
  simp only [turnContext_eq, evidenceLine_eq, hline, decisionSections_eq, evidenceSections_eq]
  cases request.poMessage with
  | none =>
    cases request.decisionState with
    | none => rfl
    | some state => rfl
  | some message =>
    cases request.decisionState with
    | none => rfl
    | some state => rfl

/-- For every invocation that a request model accepts, the Agent Engine client of that
agent sends the message that the adapter renders. -/
theorem renderers_agree :
    (∀ (body : ReviewerInvocation) (request : ReviewerRequest),
      ReviewerRequest.validate body = .ok request →
        AgentEngine.renderReviewerMessage wire body = renderReviewerMessage wire request) ∧
    (∀ (body : SynthesisInvocation) (request : SynthesisRequest),
      SynthesisRequest.validate body = .ok request →
        AgentEngine.renderSynthesisMessage wire body = renderSynthesisMessage wire request) ∧
    ∀ (body : FacilitatorInvocation) (request : FacilitatorRequest),
      FacilitatorRequest.validate body = .ok request →
        AgentEngine.renderFacilitatorMessage wire body =
          renderFacilitatorMessage wire request := by
  constructor
  · intro body request h
    rw [← ReviewerRequest.validate_eq_ok.mp h]
    exact (renderReviewerMessage_agrees wire request).symm
  constructor
  · intro body request h
    rw [← SynthesisRequest.validate_eq_ok.mp h]
    exact (renderSynthesisMessage_agrees wire request).symm
  · intro body request h
    rw [← FacilitatorRequest.validate_eq_ok.mp h]
    exact (renderFacilitatorMessage_agrees wire request).symm

/-- The conversation of a turn opens with the message of the adapter's own renderer. -/
theorem turnWithCorrections_eq (parser : ReplyParser FacilitatorTurnOutput)
    (request : FacilitatorRequest) :
    turnWithCorrections parser request.toFacilitatorInvocation wire =
      correctionsFrom parser request.toFacilitatorInvocation correctiveMax
        (renderFacilitatorMessage wire request) := by
  rw [renderFacilitatorMessage_agrees]
  rfl

end Agreement
end AgentKit

namespace Scenario
open AgentKit

/-- A later turn, with a decision on record and one review as evidence. -/
def parsedTurn : FacilitatorRequest where
  sessionId := ⟨1⟩
  turnNumber := 2
  invocationId := .facilitatorTurn 1 ⟨1⟩ 2
  poMessage := some "Keep it open."
  synthesisReport := noGaps
  synthesisReference :=
    { reviewReference .business with type := .synthesis, perspective := none }
  evidenceReferences := [reviewReference .business]
  decisionState := some undecided
  turnNumber_bounds := by decide
  opening_without_message := by decide
  later_with_message := fun _ => rfl
  reference_is_synthesis := rfl
  one_lineage := by decide

def parsedPair (p : Perspective) : AgentKit.PerspectivePair :=
  ⟨review p, reviewReference p, rfl, rfl⟩

def parsedSynthesis : SynthesisRequest :=
  ⟨parsedPair .business, parsedPair .engineering, rfl, rfl⟩

def parsedReview : ReviewerRequest := ⟨story "story-01", some (review .business), some "Retries."⟩

/-- A wire on which each model has a text of its own. -/
def plainWire : Wire where
  story := StoryDetail.title
  review := ReviewReport.summary
  synthesis := SynthesisReport.summary
  reference := fun ref => ref.type.wire
  runId := fun _ => "run-0b7c1f4e-5a3d-4c1e-9f0a-2d6b8e4c7a11"
  artifactId := fun _ => "art-6f1d2c3b-4a59-4e68-8d77-9c0b1a2f3e4d"

theorem renderers_agree_parsed :
    AgentEngine.renderReviewerMessage plainWire parsedReview.invocation =
        renderReviewerMessage plainWire parsedReview ∧
      AgentEngine.renderSynthesisMessage plainWire parsedSynthesis.invocation =
        renderSynthesisMessage plainWire parsedSynthesis ∧
      AgentEngine.renderFacilitatorMessage plainWire parsedTurn.toFacilitatorInvocation =
        renderFacilitatorMessage plainWire parsedTurn := by
  obtain ⟨hreview, hsynthesis, hturn⟩ := renderers_agree plainWire
  constructor
  · exact hreview _ _ (ReviewerRequest.validate_eq_ok.mpr rfl)
  constructor
  · exact hsynthesis _ _ (SynthesisRequest.validate_eq_ok.mpr rfl)
  · exact hturn _ _ (FacilitatorRequest.validate_eq_ok.mpr rfl)

end Scenario
end StoryReview
