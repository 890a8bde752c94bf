import StoryReview.Frames

/-!
# The durable steps of a request

Every atomic step of a request either is quiet or makes one of a few durable
changes. `Commit a w₀` lists them for the attempt `a` that started in `w₀`,
each with what the code has established when it makes the change. A run of the
attempt, cut anywhere, is a sequence of such steps.
-/
namespace StoryReview
open Flows

namespace Attempt
variable (a : Attempt)

/-- The session the attempt acts on. -/
def sessionId : SessionId :=
  match a.request with
  | .createSession _ => ⟨a.key⟩
  | .turn sessionId _ | .finalize sessionId | .abandon sessionId => sessionId

/-- The claim the attempt holds. -/
def slot : ClaimSlot :=
  match a.request with
  | .createSession _ => createSlot a.key
  | .turn sessionId _ => TurnsFlow.slot sessionId a.key
  | .finalize sessionId => Finalize.slot sessionId a.key
  | .abandon sessionId => Abandon.slot sessionId a.key

def fingerprint : Fingerprint :=
  match a.request with
  | .createSession payload => .createSession payload a.userId
  | .turn _ payload => .turn payload
  | .finalize _ | .abandon _ => .empty

/-- The environment answers as the attempt's choices say. -/
def Admits (c : Choice) : Prop := ∃ n, a.choices n = c

/-- The attempt's claim is open. -/
def HoldsClaim (w : World) : Prop :=
  ∃ claim, w.claims a.slot = some claim ∧ claim.state = .inProgress ∧
    claim.requestFingerprint = a.fingerprint

/-- A facilitator answer the client handed out. -/
def Answers (request : FacilitatorInvocation) (output : FacilitatorTurnOutput) : Prop :=
  (∃ n, (a.choices n).facilitator request = output) ∧
    validateFacilitatorTurn output request = .ok ()

end Attempt

namespace World
variable (w : World)

/-- The records of a session's turns, as `list_turns` reads them. -/
def history (sessionId : SessionId) : List TurnRecord :=
  (w.turns sessionId).map TurnRow.record

/-- A synthesis stored under an artifact id, up to canonical form. -/
def StoresSynthesis (run : RunId) (id : ArtifactId) (report : SynthesisReport) : Prop :=
  ∃ r stored, (w.objects run).record id = some r ∧ r.reference.type = .synthesis ∧
    r.content = .synthesis stored ∧
    canonicalChecksum (.synthesis stored) = canonicalChecksum (.synthesis report)

/-- The synthesis that a message turn starts from. -/
def latestSynthesis (run : RunId) : Option ArtifactReference :=
  Lineage.maxVersion (((w.objects run).listing 500 0).filter fun r =>
    decide (r.type = .synthesis ∧ r.perspective = none))

end World

/-- One served save of a draft artifact: any type but the finalized review. -/
def SavesDraft (key : IdempotencyKey) (run : RunId) (w w' : World) : Prop :=
  ∃ request o', request.type ≠ .finalizedReview ∧ request.idempotencyKey = key ∧
    request.storyRunId = run ∧ Saves request ⟨w.fresh⟩ w.clock (w.objects run) o' ∧
    w' = w.served run o'

/-! ## New turns -/

/-- The first facilitator call of a message turn, and the answer that was handed out. -/
structure FirstAnswer (a : Attempt) (w₀ : World) (s : SessionRecord)
    (request : FacilitatorInvocation) (output : FacilitatorTurnOutput) : Prop where
  answers : a.Answers request output
  sessionId : request.sessionId = s.sessionId
  turnNumber : request.turnNumber = s.facilitatorTurnCount + 1
  invocationId : request.invocationId =
    .facilitatorTurn a.key s.sessionId (s.facilitatorTurnCount + 1)
  decisionState : TurnsFlow.decisionState (w₀.history s.sessionId) = .ok request.decisionState

/-- The summary call after a delegation, and the answer that was handed out: it is
validated against the stored state merged with the first answer. -/
structure SummaryAnswer (a : Attempt) (w₀ : World) (s : SessionRecord)
    (request : FacilitatorInvocation) (output : FacilitatorTurnOutput) : Prop where
  answers : a.Answers request output
  sessionId : request.sessionId = s.sessionId
  turnNumber : request.turnNumber = s.facilitatorTurnCount + 1
  invocationId : request.invocationId =
    .facilitatorSummary a.key s.sessionId (s.facilitatorTurnCount + 1)
  merged : ∃ request₁ first state, FirstAnswer a w₀ s request₁ first ∧
    TurnsFlow.mergedDecisionState request₁.decisionState first
      ((w₀.history s.sessionId).length + 1) = .ok state ∧
    request.decisionState = some state

/-- The answer that a message turn is stored from: the first when that neither
delegates nor re-synthesizes, the summary otherwise. -/
def StoredAnswer (a : Attempt) (w₀ : World) (s : SessionRecord)
    (request : FacilitatorInvocation) (output : FacilitatorTurnOutput) : Prop :=
  (FirstAnswer a w₀ s request output ∧ output.delegation.invoke = .none ∧
      output.delegation.reusePrevious = false) ∨
    SummaryAnswer a w₀ s request output

/-- The final output of a message turn with the artifacts the turn produced. -/
inductive FinalOutput (a : Attempt) (w₀ w : World) (s : SessionRecord) :
    FacilitatorTurnOutput → List ArtifactReference → Prop
  | plain {request : FacilitatorInvocation} {output : FacilitatorTurnOutput}
      {reference : ArtifactReference} (hanswer : FirstAnswer a w₀ s request output)
      (hlatest : w₀.latestSynthesis s.storyRunId = some reference)
      (hstored : w.StoresSynthesis s.storyRunId reference.artifactId
        request.synthesisReport)
      (hinvoke : output.delegation.invoke = .none)
      (hreuse : output.delegation.reusePrevious = false) :
      FinalOutput a w₀ w s output []
  | summary {request : FacilitatorInvocation} {output : FacilitatorTurnOutput}
      {reviews : List ArtifactReference} {reference : ArtifactReference}
      (hanswer : SummaryAnswer a w₀ s request output)
      (hstored : w.StoresSynthesis s.storyRunId reference.artifactId
        request.synthesisReport)
      (hreference : reference.type = .synthesis ∧ reference.storyRunId = s.storyRunId)
      (hreviews : ∀ r ∈ reviews, ∃ p, r.type = .review p) (hlength : reviews.length ≤ 2) :
      FinalOutput a w₀ w s output (reviews ++ [reference])

/-- A turn about to be inserted into the session `s`. -/
inductive NewTurn (a : Attempt) (w₀ w : World) (s : SessionRecord) : TurnRow → Prop
  | opening {request : FacilitatorInvocation} {output : FacilitatorTurnOutput}
      {artifacts : OpeningArtifacts} {createdAt completedAt : Time}
      {payload : CreateSessionRequest}
      (hrequest : a.request = .createSession payload)
      (hanswer : a.Answers request output) (hturn : request.turnNumber = 1)
      (hid : request.invocationId = .facilitatorTurn a.key s.sessionId 1)
      (hreport : request.synthesisReport = artifacts.report)
      (hnostate : request.decisionState = none)
      (hstored : w.StoresSynthesis s.storyRunId artifacts.synthesis.artifactId
        artifacts.report)
      (hsynthesis : artifacts.synthesis.type = .synthesis ∧
        artifacts.synthesis.storyRunId = s.storyRunId)
      (hreviews : artifacts.business.type = .reviewBusiness ∧
        artifacts.engineering.type = .reviewEngineering)
      (hempty : w.turns s.sessionId = []) :
      NewTurn a w₀ w s ⟨openingRecord s.sessionId a.correlationId output artifacts createdAt
        completedAt, .createSession a.key⟩
  | accepted {payload : TurnRequest} {createdAt completedAt : Time}
      (hrequest : a.request = .turn s.sessionId payload)
      (haccepted : payload.poAccepted = true)
      (hsame : w.turns s.sessionId = w₀.turns s.sessionId)
      (hbefore : ∃ s₀, w₀.core s.sessionId = some s₀ ∧ s₀.state = .active) :
      NewTurn a w₀ w s ⟨TurnsFlow.acceptedRecord s.sessionId
        ((w.turns s.sessionId).length + 1) a.correlationId createdAt completedAt,
        .turn a.key⟩
  | message {payload : TurnRequest} {draft : TurnsFlow.TurnDraft}
      {createdAt completedAt : Time}
      (hrequest : a.request = .turn s.sessionId payload)
      (haccepted : payload.poAccepted = false)
      (hsame : w.turns s.sessionId = w₀.turns s.sessionId)
      (hbefore : w₀.core s.sessionId = some s ∧ s.state = .active)
      (hfinal : FinalOutput a w₀ w s draft.output
        (draft.newReferences ++ if draft.produced then [draft.synthesisReference] else [])) :
      NewTurn a w₀ w s ⟨TurnsFlow.messageRecord s.sessionId
        ((w.turns s.sessionId).length + 1) a.correlationId payload.message draft
        (evaluateGate (s.facilitatorTurnCount + 1) draft.output.delegation) createdAt
        completedAt, .turn a.key⟩

/-! ## Finalization -/

/-- How an attempt gets into flow 3, seen from the world it starts in. -/
inductive Finalizes (a : Attempt) (w₀ : World) : Prop
  | accept {payload : TurnRequest} (hrequest : a.request = .turn a.sessionId payload)
      (haccepted : payload.poAccepted = true)
      (hbefore : ∃ s, w₀.core a.sessionId = some s ∧ s.state = .active)
  | gate {payload : TurnRequest} {s : SessionRecord} {request : FacilitatorInvocation}
      {output : FacilitatorTurnOutput} (hrequest : a.request = .turn a.sessionId payload)
      (haccepted : payload.poAccepted = false)
      (hbefore : w₀.core a.sessionId = some s ∧ s.state = .active)
      (hanswer : a.Answers request output)
      (hcall : request.invocationId =
          .facilitatorTurn a.key a.sessionId (s.facilitatorTurnCount + 1) ∨
        request.invocationId =
          .facilitatorSummary a.key a.sessionId (s.facilitatorTurnCount + 1))
      (hgate : evaluateGate (s.facilitatorTurnCount + 1) output.delegation = .finalize)
  | resume {payload : TurnRequest} (hrequest : a.request = .turn a.sessionId payload)
      (hbefore : ∃ s, w₀.core a.sessionId = some s ∧ s.state = .finalizing)
      (hclaim : ∃ row, w₀.claims a.slot = some row ∧ row.state = .inProgress ∧
        row.requestFingerprint = a.fingerprint)
  | finalize (hrequest : a.request = .finalize a.sessionId)
      (hbefore : ∃ s, w₀.core a.sessionId = some s ∧ s.state = .finalizing)

/-- The turn a request answers with: one it inserted itself, or on a resume the
last turn of the session. -/
def Owns (a : Attempt) (w₀ : World) (row : TurnRow) : Prop :=
  row.producer = .turn a.key ∨
    ((∃ s, w₀.core a.sessionId = some s ∧ s.state = .finalizing) ∧
      (∃ claim, w₀.claims a.slot = some claim ∧ claim.state = .inProgress) ∧
      ∃ row₀, (w₀.turns a.sessionId).getLast? = some row₀ ∧ row₀.producer = row.producer)

/-- The report of a format that is rendered from a review. -/
def ReportOf (reviewId : ArtifactId) (o : RunObjects) (format : Format)
    (reference : ArtifactReference) : Prop :=
  reference.type = .report format ∧ ∃ c, o.reportIdem format = some c ∧
    c.finalReviewArtifactId = reviewId ∧ o.reportMeta c.artifactId = some reference

theorem ReportOf.mono {reviewId : ArtifactId} {o o' : RunObjects} {format : Format}
    {reference : ArtifactReference} (h : ReportOf reviewId o format reference)
    (hgrow : o.Grows o') : ReportOf reviewId o' format reference := by
  obtain ⟨htype, c, hc, hpin, hmeta⟩ := h
  exact ⟨htype, c, hgrow.reportIdem _ _ hc, hpin, hgrow.reportMeta _ _ hmeta⟩

/-- The references a finalization produced are the ones the stores hold. -/
structure Produced (w : World) (key : IdempotencyKey) (s : SessionRecord)
    (result : Finalization.FinalizationResult) : Prop where
  finalReview : ∃ r, (w.objects s.storyRunId).recordUnder .finalizedReview key = some r ∧
    r.reference = result.finalReviewReference
  reports : List.Forall₂
    (ReportOf result.finalReviewReference.artifactId (w.objects s.storyRunId))
    s.requestedFormats result.reportReferences

/-- A canonical turn result tells what the record tells. -/
def Describes (canonical : CanonicalTurnResult) (record : TurnRecord) : Prop :=
  ∃ state synthesis reports, canonical = TurnsFlow.turnResult record.sessionId record
    record.outcome state synthesis reports

/-- A turn response tells what the record tells. -/
structure Tells (response : TurnResponse) (record : TurnRecord) : Prop where
  sessionId : response.sessionId = record.sessionId
  turnNumber : response.turnNumber = record.turnNumber
  outcome : response.outcome = record.outcome
  facilitatorReply : response.facilitatorReply = record.facilitatorReply
  delegationRationaleReply :
    response.delegationRationaleReply = record.delegationRationaleReply
  delegation : response.delegation = record.delegation
  resolutions : response.resolutions = record.resolutions

/-! ## Session updates -/

/-- The attempt has stored its message turn and counts it. -/
structure CountsTurn (a : Attempt) (w₀ w : World) (s : SessionRecord) (count : ℕ) : Prop where
  message : ∃ payload, a.request = .turn s.sessionId payload ∧ payload.poAccepted = false
  before : ∃ s₀, w₀.core s.sessionId = some s₀ ∧ s₀.state = .active ∧
    count = s₀.facilitatorTurnCount + 1
  stored : ∃ row, w.turns s.sessionId = w₀.turns s.sessionId ++ [row] ∧
    row.record.delegation.isSome
  le : count ≤ 10

/-- The last finalize turn of the session carries the given artifacts. -/
def World.FinalizedWith (w : World) (sessionId : SessionId)
    (references : List ArtifactReference) : Prop :=
  ∃ row, (w.turns sessionId).reverse.find? (fun row =>
      decide (row.record.outcome = .finalize)) = some row ∧
    row.record.producedArtifacts = references

/-- Flow 3 has left no trace on the session's turns. -/
def World.Unstamped (w : World) (sessionId : SessionId) : Prop :=
  ∀ t ∈ w.history sessionId, ∀ r ∈ t.producedArtifacts, r.type ≠ .finalizedReview

/-- A session update outside a transaction. -/
inductive Marks (a : Attempt) (w₀ w : World) (s : SessionRecord) :
    RecordsStore.SessionUpdate → Prop
  | count {n : ℕ} (hstate : s.state = .active) (hcount : CountsTurn a w₀ w s n)
      (hgate : n < parkTurn) :
      Marks a w₀ w s { facilitatorTurnCount := some n }
  | finalizing {row : TurnRow} (hstate : s.state = .active ∨ s.state = .finalizing)
      (hlast : (w.turns s.sessionId).getLast? = some row)
      (houtcome : row.record.outcome = .finalize) :
      Marks a w₀ w s { state := some .finalizing }
  | rollBack (hstate : s.state = .finalizing)
      (hunstamped : w₀.Unstamped s.sessionId → w.Unstamped s.sessionId)
      (hfinalizes : Finalizes a w₀) :
      Marks a w₀ w s { state := some .active }

/-- The transaction that ends a request: a session update with the canonical
response. -/
inductive Closes (a : Attempt) (w₀ w : World) (s : SessionRecord) :
    RecordsStore.SessionUpdate → CanonicalResponse → Prop
  | persist {payload : TurnRequest} {row : TurnRow} {canonical : CanonicalTurnResult}
      {count : ℕ} (hrequest : a.request = .turn s.sessionId payload)
      (hstate : s.state = .active) (hmem : row ∈ w.turns s.sessionId)
      (howns : row.producer = .turn a.key) (hdescribes : Describes canonical row.record)
      (hcount : CountsTurn a w₀ w s count) (houtcome : canonical.outcome ≠ .finalize) :
      Closes a w₀ w s { state := if parkTurn ≤ count then some .parked else none
                        facilitatorTurnCount := some count } (.turn canonical)
  | completeTurn {payload : TurnRequest} {row : TurnRow} {canonical : CanonicalTurnResult}
      {result : Finalization.FinalizationResult} (count : Option ℕ)
      (hrequest : a.request = .turn s.sessionId payload) (hstate : s.state = .finalizing)
      (hmem : row ∈ w.turns s.sessionId) (howns : Owns a w₀ row)
      (hdescribes : Describes canonical row.record)
      (hcount : ∀ n ∈ count, n = s.facilitatorTurnCount)
      (hproduced : Produced w a.key s result)
      (hstamped : w.FinalizedWith s.sessionId
        (result.finalReviewReference :: result.reportReferences))
      (hreports : canonical.reportReferences = result.reportReferences)
      (houtcome : canonical.outcome = .finalize) :
      Closes a w₀ w s { state := some .completed
                        facilitatorTurnCount := count
                        finalReviewReference := some result.finalReviewReference
                        reportReferences := some result.reportReferences } (.turn canonical)
  | completeFinalize {result : Finalization.FinalizationResult}
      (canonical : CanonicalReportResult) (hrequest : a.request = .finalize s.sessionId)
      (hstate : s.state = .finalizing) (hproduced : Produced w a.key s result)
      (hstamped : w.FinalizedWith s.sessionId
        (result.finalReviewReference :: result.reportReferences))
      (hreports : canonical.reportReferences = result.reportReferences) :
      Closes a w₀ w s { state := some .completed
                        facilitatorTurnCount := none
                        finalReviewReference := some result.finalReviewReference
                        reportReferences := some result.reportReferences }
        (.report canonical)
  | abandon (hrequest : a.request = .abandon s.sessionId)
      (hstate : s.state = .active ∨ s.state = .finalizing) :
      Closes a w₀ w s { state := some .parked } (.abandoned s.sessionId)

/-! ## Steps -/

inductive Commit (a : Attempt) (w₀ : World) : World → World → Prop
  | quiet {w w' : World} (h : Quiet w w') : Commit a w₀ w w'
  | draft {w w' : World} {s : SessionRecord} (hs : w.core a.sessionId = some s)
      (h : SavesDraft a.key s.storyRunId w w') : Commit a w₀ w w'
  | claim {w : World} (h : w.claims a.slot = none) :
      Commit a w₀ w (w.setClaim a.slot (some ⟨a.fingerprint, .inProgress, none⟩))
  | release {w : World} : Commit a w₀ w (Idempotency.released a.slot w)
  | storyRun {w : World} {payload : CreateSessionRequest} (record : StoryRunRecord)
      (hrequest : a.request = .createSession payload)
      (hrecord : record.storyRunId = ⟨a.key⟩ ∧ record.state = .active)
      (hnew : w.storyRun ⟨a.key⟩ = none) :
      Commit a w₀ w { w with storyRuns := w.storyRuns ++ [record] }
  | session {w : World} {payload : CreateSessionRequest} (storyId : StoryId) (at_ : Time)
      (hrequest : a.request = .createSession payload)
      (hnew : ∀ s ∈ w.cores, s.sessionId ≠ ⟨a.key⟩ ∧ s.storyRunId ≠ ⟨a.key⟩)
      (hrun : (w.storyRun ⟨a.key⟩).isSome) :
      Commit a w₀ w { w with sessions := w.sessions ++ [⟨{
        sessionId := ⟨a.key⟩, storyRunId := ⟨a.key⟩, storyId := storyId, userId := a.userId,
        state := .active, requestedFormats := payload.requestedFormats,
        facilitatorTurnCount := 1, createdAt := at_, updatedAt := at_ }, none⟩] }
  | turn {w : World} {s : SessionRecord} {row : TurnRow}
      (hs : w.core a.sessionId = some s) (hstate : s.state = .active)
      (hvalid : row.record.Valid) (h : NewTurn a w₀ w s row)
      (hclaim : a.HoldsClaim w) :
      Commit a w₀ w (w.setTurns s.sessionId (w.turns s.sessionId ++ [row]))
  | mark {w : World} {s : SessionRecord} {u : RecordsStore.SessionUpdate}
      (hs : w.core a.sessionId = some s) (h : Marks a w₀ w s u) :
      Commit a w₀ w (RecordsStore.sessionUpdated a.sessionId u w)
  | finalReview {w : World} {s : SessionRecord} {request : SaveArtifactInput}
      {review : FinalizedReview} {o' : RunObjects}
      (hs : w.core a.sessionId = some s) (hstate : s.state = .finalizing)
      (hfinalizes : Finalizes a w₀) (htype : request.type = .finalizedReview)
      (hcontent : request.content = .finalizedReview review)
      (hat : review.finalizedAt ≤ w.clock) (hkey : request.idempotencyKey = a.key)
      (hrun : request.storyRunId = s.storyRunId)
      (hsaves : Saves request ⟨w.fresh⟩ w.clock (w.objects s.storyRunId) o') :
      Commit a w₀ w (w.served s.storyRunId o')
  | report {w : World} {s : SessionRecord} {request : RenderReportInput} {o' : RunObjects}
      (hs : w.core a.sessionId = some s) (hstate : s.state = .finalizing)
      (hrun : request.storyRunId = s.storyRunId)
      (hrenders : Renders request ⟨w.fresh⟩ w.clock (w.objects s.storyRunId) o') :
      Commit a w₀ w (w.served s.storyRunId o')
  | stamp {w : World} {s : SessionRecord} {references : List ArtifactReference}
      (turnNumber : ℕ) (hs : w.core a.sessionId = some s) (hstate : s.state = .finalizing)
      (hreferences : references.length ≤ 3 ∧ (∀ r ∈ references, r.type ≠ .synthesis) ∧
        ∃ r ∈ references, r.type = .finalizedReview) :
      Commit a w₀ w (w.setTurns s.sessionId
        ((w.turns s.sessionId).map (RecordsStore.stampTurn turnNumber references)))
  | close {w : World} {s : SessionRecord} {u : RecordsStore.SessionUpdate}
      {response : CanonicalResponse}
      (hs : w.core a.sessionId = some s) (h : Closes a w₀ w s u response)
      (hclaim : a.HoldsClaim w) :
      Commit a w₀ w (Idempotency.completed a.slot response
        (RecordsStore.sessionUpdated a.sessionId u w))
  | created {w : World} {payload : CreateSessionRequest} {response : CreateSessionResponse}
      (hrequest : a.request = .createSession payload) :
      Commit a w₀ w (Idempotency.completed a.slot (.created response) w)
  | parkFailed {w : World} {s : SessionRecord} {payload : CreateSessionRequest}
      (hrequest : a.request = .createSession payload) (hs : w.core a.sessionId = some s)
      (hstate : s.state = .active) :
      Commit a w₀ w (Idempotency.released a.slot
        (RecordsStore.sessionUpdated a.sessionId { state := some .parked } w))

/-- What the attempt can have done to `w` by some moment. -/
abbrev Evolves (a : Attempt) (w₀ : World) : World → World → Prop :=
  Relation.ReflTransGen (Commit a w₀)

end StoryReview
