import Mathlib.Data.Nat.Notation

/-!
# Shared schema models

The validated models of `review_schemas`: stories and reviews, the synthesis,
the facilitator's turn output, the finalized review and the durable records.
Models that only an agent or a client produces carry their validators as
fields; models that the services assemble themselves are plain structures with
a check that the assembling code runs.

Identifiers derived from a request key are structures over that key. Text
patterns and text lengths are not represented.
-/
namespace StoryReview

abbrev Uuid := ℕ
abbrev UserId := Uuid
abbrev IdempotencyKey := Uuid
abbrev StoryId := String
abbrev IssueId := String
abbrev Text := String

/-- Microseconds of the clock that records are stamped with. -/
abbrev Time := ℕ

/-- `run-<uuid5(key, "run")>`. -/
structure RunId where
  key : IdempotencyKey
deriving DecidableEq, Repr

/-- `sess-<uuid5(key, "session")>`. -/
structure SessionId where
  key : IdempotencyKey
deriving DecidableEq, Repr

/-- `art-<uuid4>`. -/
structure ArtifactId where
  uuid : Uuid
deriving DecidableEq, Repr

inductive Format where
  | md | pdf
deriving DecidableEq, Repr

inductive Perspective where
  | business | engineering
deriving DecidableEq, Repr

inductive ArtifactType where
  | story | reviewBusiness | reviewEngineering | synthesis | finalizedReview
  | reportMd | reportPdf
deriving DecidableEq, Repr

inductive ContentType where
  | json | markdown | pdf
deriving DecidableEq, Repr

inductive SessionState where
  | active | parked | finalizing | completed
deriving DecidableEq, Repr

inductive TurnOutcome where
  | cont | park | finalize
deriving DecidableEq, Repr

inductive Severity where
  | info | minor | major | blocker
deriving DecidableEq, Repr

inductive Disposition where
  | resolved | accepted | unresolved | reopened
deriving DecidableEq, Repr

inductive ProcessingStage where
  | reviewing | synthesizing | facilitator | delegating | finalizing
deriving DecidableEq, Repr

instance {P : Format → Prop} [DecidablePred P] : Decidable (∀ f, P f) :=
  decidable_of_iff (P .md ∧ P .pdf)
    ⟨fun h f => match f with | .md => h.1 | .pdf => h.2, fun h => ⟨h _, h _⟩⟩

instance {P : Perspective → Prop} [DecidablePred P] : Decidable (∀ p, P p) :=
  decidable_of_iff (P .business ∧ P .engineering)
    ⟨fun h p => match p with | .business => h.1 | .engineering => h.2,
      fun h => ⟨h _, h _⟩⟩

namespace ArtifactType

/-- `review-<perspective>`. -/
def review : Perspective → ArtifactType
  | .business => .reviewBusiness
  | .engineering => .reviewEngineering

/-- `report-<format>`. -/
def report : Format → ArtifactType
  | .md => .reportMd
  | .pdf => .reportPdf

/-- The only perspective an artifact type allows. -/
def expectedPerspective : ArtifactType → Option Perspective
  | .reviewBusiness => some .business
  | .reviewEngineering => some .engineering
  | _ => none

def contentType : ArtifactType → ContentType
  | .reportMd => .markdown
  | .reportPdf => .pdf
  | _ => .json

@[simp] theorem review_ne_finalizedReview (p : Perspective) :
    review p ≠ .finalizedReview := by
  cases p <;> decide

@[simp] theorem report_ne_finalizedReview (f : Format) :
    report f ≠ .finalizedReview := by
  cases f <;> decide

@[simp] theorem review_ne_synthesis (p : Perspective) : review p ≠ .synthesis := by
  cases p <;> decide

theorem report_injective {f g : Format} (h : report f = report g) : f = g := by
  cases f <;> cases g <;> first | rfl | cases h

@[simp] theorem expectedPerspective_review (p : Perspective) :
    expectedPerspective (review p) = some p := by
  cases p <;> rfl

end ArtifactType

/-! ## Canonical forms

The stores compare contents through a SHA-256 over the canonical JSON form. The
digest is represented by that form itself, which is what a collision-free
digest identifies. -/

inductive Canonical where
  | null
  | text (s : String)
  | number (n : ℕ)
  | pair (a b : Canonical)
deriving DecidableEq, Repr

abbrev Checksum := Canonical

/-- `model.model_dump(mode="json")`, fields in order. -/
class ModelDump (α : Type) where
  modelDump : α → Canonical

export ModelDump (modelDump)

instance : ModelDump String := ⟨.text⟩
instance : ModelDump ℕ := ⟨.number⟩
instance : ModelDump Bool := ⟨fun b => .number b.toNat⟩
instance : ModelDump Canonical := ⟨id⟩

instance {α : Type} [ModelDump α] : ModelDump (Option α) where
  modelDump
    | none => .null
    | some a => .pair (modelDump a) .null

instance {α : Type} [ModelDump α] : ModelDump (List α) where
  modelDump xs := xs.foldr (fun x c => .pair (modelDump x) c) .null

/-- An object whose field values are `cs`. -/
def Canonical.object (cs : List Canonical) : Canonical := cs.foldr .pair .null

/-! ## Stories and reviews -/

structure StoryComment where
  author : Text
  text : Text
  createdAt : Time
deriving DecidableEq, Repr

inductive StoryRelation where
  | related | depends
deriving DecidableEq, Repr

structure ContextStory where
  storyId : StoryId
  title : Text
  relation : StoryRelation
  description : Text
  acceptanceCriteria : List Text := []
  comments : List StoryComment := []
deriving DecidableEq, Repr

structure StoryDetail where
  storyId : StoryId
  title : Text
  status : Text
  description : Text
  acceptanceCriteria : List Text := []
  epicContext : Text
  roadmapContext : Text
  comments : List StoryComment := []
  contextStories : List ContextStory := []
deriving DecidableEq, Repr

structure Finding where
  id : IssueId
  title : Text
  description : Text
  severity : Severity
  category : Text
  suggestion : Option Text := none
  referencesPoQuestion : Bool := false
deriving DecidableEq, Repr

structure ReviewReport where
  perspective : Perspective
  storyId : StoryId
  summary : Text
  findings : List Finding := []
  risks : List Text := []
  questionsForPo : List Text := []
  basedOnExtraContext : Option Text := none
  previousReviewVersion : Option ℕ := none
deriving DecidableEq, Repr

/-! ## Artifact references and the synthesis -/

structure ArtifactReference where
  artifactId : ArtifactId
  storyRunId : RunId
  type : ArtifactType
  perspective : Option Perspective
  version : ℕ
  createdAt : Time
  contentType : ContentType
  checksumSha256 : Checksum
  isLatest : Bool := false
deriving DecidableEq, Repr

structure ConflictItem where
  id : IssueId
  description : Text
  businessRefs : List Text
  engineeringRefs : List Text
  needsPoClarification : Bool
deriving DecidableEq, Repr

structure SynthesisReport where
  storyId : StoryId
  summary : Text
  mergedFindings : List Finding := []
  conflicts : List ConflictItem := []
  questionsForPo : List Text := []
  resolvedFromPrevious : List Text := []
  inputs : Perspective → ArtifactReference
  mergedFindings_le : mergedFindings.length ≤ 400 := by decide
  conflicts_le : conflicts.length ≤ 200 := by decide
  /-- Both inputs are reviews of their own perspective within one story run. -/
  validate_paired_inputs :
    (∀ p, (inputs p).type = .review p ∧ (inputs p).perspective = some p) ∧
      (inputs .business).storyRunId = (inputs .engineering).storyRunId

namespace SynthesisReport

def findingIds (s : SynthesisReport) : List IssueId := s.mergedFindings.map Finding.id

def conflictIds (s : SynthesisReport) : List IssueId := s.conflicts.map ConflictItem.id

/-- The identifiers born in this synthesis. -/
def issueIds (s : SynthesisReport) : List IssueId := s.findingIds ++ s.conflictIds

end SynthesisReport

/-! ## Facilitator models -/

inductive Invoke where
  | none | business | engineering | both
deriving DecidableEq, Repr

inductive Readiness where
  | needsWork | reviewRequested | ready
deriving DecidableEq, Repr

structure DelegationDecision where
  invoke : Invoke := .none
  extraContext : Option Text := none
  reusePrevious : Bool := false
  openIssues : List IssueId := []
  readiness : Readiness := .needsWork
  openIssues_le : openIssues.length ≤ 100 := by decide
  reuse_requires_none : reusePrevious = true → invoke = .none := by decide
  context_requires_invoke : invoke = .none → extraContext = none := by decide
deriving DecidableEq, Repr

structure IssueDraft where
  issue : IssueId
  title : Text
  description : Text
deriving DecidableEq, Repr

structure ResolutionDraft where
  issue : IssueId
  disposition : Disposition
  explanation : Text
deriving DecidableEq, Repr

structure ResolutionItem where
  issue : IssueId
  disposition : Disposition
  explanation : Text
  turnNumber : ℕ
deriving DecidableEq, Repr

/-- A disposition that takes its issue off the table. -/
def Disposition.Settled : Disposition → Prop
  | .resolved | .accepted => True
  | .unresolved | .reopened => False

instance : DecidablePred Disposition.Settled
  | .resolved => isTrue trivial
  | .accepted => isTrue trivial
  | .unresolved => isFalse id
  | .reopened => isFalse id

structure FacilitatorTurnOutput where
  reply : Text
  delegation : DelegationDecision
  resolutions : List ResolutionDraft := []
  newIssues : List IssueDraft := []
  resolutions_le : resolutions.length ≤ 100 := by decide
  newIssues_le : newIssues.length ≤ 100 := by decide
  /-- Re-synthesis-only turns carry no resolution updates and no new issues. -/
  resynthesis_is_bare :
    delegation.invoke = .none → delegation.reusePrevious = true →
      resolutions = [] ∧ newIssues = [] := by decide
  newIssues_unique : (newIssues.map IssueDraft.issue).Nodup := by decide
  newIssues_are_open :
    ∀ d ∈ newIssues, d.issue ∈ delegation.openIssues := by decide
deriving DecidableEq, Repr

structure DecisionState where
  resolutions : List ResolutionItem := []
  openIssues : List IssueId := []
  resolutions_le : resolutions.length ≤ 200 := by decide
  openIssues_le : openIssues.length ≤ 100 := by decide
deriving DecidableEq, Repr

inductive IssueSource where
  | synthesis | facilitator
deriving DecidableEq, Repr

structure IssueEntry where
  issue : IssueId
  title : Text
  description : Text
  severity : Option Severity := none
  source : IssueSource
deriving DecidableEq, Repr

structure FinalizedReview where
  storyId : StoryId
  storyRunId : RunId
  synthesisReference : ArtifactReference
  issues : List IssueEntry
  resolutions : List ResolutionItem
  remainingOpenIssues : List IssueId
  poAccepted : Bool
  finalTurnNumber : ℕ
  finalizedAt : Time
deriving DecidableEq, Repr

/-! ## Artifact contents -/

inductive Content where
  | story (s : StoryDetail)
  | review (r : ReviewReport)
  | synthesis (s : SynthesisReport)
  | finalizedReview (f : FinalizedReview)

namespace Content

/-- The exact content model an artifact type requires. -/
def HasType : Content → ArtifactType → Prop
  | .story _, t => t = .story
  | .review _, t => t = .reviewBusiness ∨ t = .reviewEngineering
  | .synthesis _, t => t = .synthesis
  | .finalizedReview _, t => t = .finalizedReview

instance : ∀ (c : Content) (t : ArtifactType), Decidable (c.HasType t)
  | .story _, t => inferInstanceAs (Decidable (t = _))
  | .review _, t => inferInstanceAs (Decidable (t = _ ∨ t = _))
  | .synthesis _, t => inferInstanceAs (Decidable (t = _))
  | .finalizedReview _, t => inferInstanceAs (Decidable (t = _))

/-- A review is of the perspective its artifact type requires. -/
def HasPerspective : Content → Option Perspective → Prop
  | .review r, p => some r.perspective = p
  | _, _ => True

instance : ∀ (c : Content) (p : Option Perspective), Decidable (c.HasPerspective p)
  | .review r, p => inferInstanceAs (Decidable (some r.perspective = p))
  | .story _, _ => isTrue trivial
  | .synthesis _, _ => isTrue trivial
  | .finalizedReview _, _ => isTrue trivial

/-- A final review belongs to the run it is stored in. -/
def BelongsTo : Content → RunId → Prop
  | .finalizedReview f, run => f.storyRunId = run
  | _, _ => True

instance : ∀ (c : Content) (run : RunId), Decidable (c.BelongsTo run)
  | .finalizedReview f, run => inferInstanceAs (Decidable (f.storyRunId = run))
  | .story _, _ => isTrue trivial
  | .synthesis _, _ => isTrue trivial
  | .review _, _ => isTrue trivial

theorem hasType_synthesis {c : Content} (h : c.HasType .synthesis) :
    ∃ s, c = .synthesis s := by
  cases c with
  | synthesis s => exact ⟨s, rfl⟩
  | story s => cases h
  | review r => rcases h with h | h <;> cases h
  | finalizedReview f => cases h

theorem hasType_finalizedReview {c : Content} (h : c.HasType .finalizedReview) :
    ∃ f, c = .finalizedReview f := by
  cases c with
  | finalizedReview f => exact ⟨f, rfl⟩
  | story s => cases h
  | review r => rcases h with h | h <;> cases h
  | synthesis s => cases h

end Content

instance : ModelDump Perspective := ⟨fun x => .number x.ctorIdx⟩
instance : ModelDump ArtifactType := ⟨fun x => .number x.ctorIdx⟩
instance : ModelDump ContentType := ⟨fun x => .number x.ctorIdx⟩
instance : ModelDump Severity := ⟨fun x => .number x.ctorIdx⟩
instance : ModelDump Disposition := ⟨fun x => .number x.ctorIdx⟩
instance : ModelDump IssueSource := ⟨fun x => .number x.ctorIdx⟩
instance : ModelDump StoryRelation := ⟨fun x => .number x.ctorIdx⟩
instance : ModelDump RunId := ⟨fun x => .number x.key⟩
instance : ModelDump ArtifactId := ⟨fun x => .number x.uuid⟩

instance : ModelDump ArtifactReference where
  modelDump r := .object [modelDump r.artifactId, modelDump r.storyRunId,
    modelDump r.type, modelDump r.perspective, modelDump r.version,
    modelDump r.createdAt, modelDump r.contentType, modelDump r.checksumSha256,
    modelDump r.isLatest]

instance : ModelDump StoryComment where
  modelDump c := .object [modelDump c.author, modelDump c.text, modelDump c.createdAt]

instance : ModelDump ContextStory where
  modelDump s := .object [modelDump s.storyId, modelDump s.title,
    modelDump s.relation, modelDump s.description, modelDump s.acceptanceCriteria,
    modelDump s.comments]

instance : ModelDump StoryDetail where
  modelDump s := .object [modelDump s.storyId, modelDump s.title, modelDump s.status,
    modelDump s.description, modelDump s.acceptanceCriteria, modelDump s.epicContext,
    modelDump s.roadmapContext, modelDump s.comments, modelDump s.contextStories]

instance : ModelDump Finding where
  modelDump f := .object [modelDump f.id, modelDump f.title, modelDump f.description,
    modelDump f.severity, modelDump f.category, modelDump f.suggestion,
    modelDump f.referencesPoQuestion]

instance : ModelDump ReviewReport where
  modelDump r := .object [modelDump r.perspective, modelDump r.storyId,
    modelDump r.summary, modelDump r.findings, modelDump r.risks,
    modelDump r.questionsForPo, modelDump r.basedOnExtraContext,
    modelDump r.previousReviewVersion]

instance : ModelDump ConflictItem where
  modelDump c := .object [modelDump c.id, modelDump c.description,
    modelDump c.businessRefs, modelDump c.engineeringRefs,
    modelDump c.needsPoClarification]

instance : ModelDump SynthesisReport where
  modelDump s := .object [modelDump s.storyId, modelDump s.summary,
    modelDump s.mergedFindings, modelDump s.conflicts, modelDump s.questionsForPo,
    modelDump s.resolvedFromPrevious, modelDump (s.inputs .business),
    modelDump (s.inputs .engineering)]

instance : ModelDump IssueEntry where
  modelDump e := .object [modelDump e.issue, modelDump e.title,
    modelDump e.description, modelDump e.severity, modelDump e.source]

instance : ModelDump ResolutionItem where
  modelDump r := .object [modelDump r.issue, modelDump r.disposition,
    modelDump r.explanation, modelDump r.turnNumber]

instance : ModelDump FinalizedReview where
  modelDump f := .object [modelDump f.finalizedAt, modelDump f.storyId,
    modelDump f.storyRunId, modelDump f.synthesisReference, modelDump f.issues,
    modelDump f.resolutions, modelDump f.remainingOpenIssues,
    modelDump f.poAccepted, modelDump f.finalTurnNumber]

/-- `sha256` over the content's canonical JSON form. -/
def canonicalChecksum : Content → Checksum
  | .story s => modelDump s
  | .review r => modelDump r
  | .synthesis s => modelDump s
  | .finalizedReview f => modelDump f

/-- Two finalized reviews stamped at different times have different digests. -/
theorem finalizedAt_of_checksum_eq {f g : FinalizedReview}
    (h : canonicalChecksum (.finalizedReview f) = canonicalChecksum (.finalizedReview g)) :
    f.finalizedAt = g.finalizedAt := by
  simp only [canonicalChecksum, modelDump, Canonical.object, List.foldr_cons,
    Canonical.pair.injEq, Canonical.number.injEq] at h
  exact h.1

/-! ## Durable records -/

structure StoryRunRecord where
  storyRunId : RunId
  storyId : StoryId
  userId : UserId
  state : SessionState
  createdAt : Time
  updatedAt : Time
deriving DecidableEq, Repr

structure SessionRecord where
  sessionId : SessionId
  storyRunId : RunId
  storyId : StoryId
  userId : UserId
  state : SessionState
  requestedFormats : List Format
  facilitatorTurnCount : ℕ
  finalReviewReference : Option ArtifactReference := none
  reportReferences : List ArtifactReference := []
  createdAt : Time
  updatedAt : Time
deriving DecidableEq, Repr

/-- The completion contract of a session record. -/
def SessionRecord.Valid (s : SessionRecord) : Prop :=
  s.requestedFormats ≠ [] ∧ s.requestedFormats.Nodup ∧ s.facilitatorTurnCount ≤ 10 ∧
    (∀ r ∈ s.finalReviewReference,
      r.type = .finalizedReview ∧ r.storyRunId = s.storyRunId) ∧
    s.reportReferences.length ≤ 2 ∧
    (∀ r ∈ s.reportReferences, r.type = .reportMd ∨ r.type = .reportPdf) ∧
    (s.reportReferences.map ArtifactReference.type).Nodup ∧
    (s.state = .completed → s.finalReviewReference.isSome ∧
      ∀ f : Format, f ∈ s.requestedFormats ↔
        .report f ∈ s.reportReferences.map ArtifactReference.type)

instance : DecidablePred SessionRecord.Valid := fun _ => inferInstanceAs (Decidable (_ ∧ _))

structure TurnRecord where
  sessionId : SessionId
  turnNumber : ℕ
  correlationId : Uuid
  poMessage : Option Text := none
  poAccepted : Bool := false
  facilitatorReply : Option Text := none
  delegationRationaleReply : Option Text := none
  delegation : Option DelegationDecision := none
  resolutions : List ResolutionItem := []
  newIssues : List IssueDraft := []
  outcome : TurnOutcome
  producedArtifacts : List ArtifactReference := []
  createdAt : Time
  completedAt : Time
deriving DecidableEq, Repr

/-- The record's own validators: exactly one PO action after the opening turn,
and the list caps. -/
def TurnRecord.Valid (t : TurnRecord) : Prop :=
  (1 < t.turnNumber → t.poAccepted = t.poMessage.isNone) ∧
    t.resolutions.length ≤ 100 ∧ t.newIssues.length ≤ 100 ∧
    t.producedArtifacts.length ≤ 20 ∧ 1 ≤ t.turnNumber

instance : DecidablePred TurnRecord.Valid := fun _ => inferInstanceAs (Decidable (_ ∧ _))

end StoryReview
