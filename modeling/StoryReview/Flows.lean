import StoryReview.Finalization

/-!
# Flows 1 and 2

Session creation with its initial pipeline, and one dialogue turn: delegation,
at-most-once synthesis, the post-delegation summary call, the gate, and
persistence. Both finalizing paths continue into flow 3 under the same lease.
-/
namespace StoryReview

namespace Flows

def readOnly (correlationId : Uuid) (state : SessionState) : PyException :=
  .apiError ⟨409, makeError .sessionReadOnly (s!"the session is {state.wire} and accepts " ++
    "no dialogue turns; " ++ (if state = .finalizing then "the finalize endpoint recovers it"
      else "start a new session on the same story instead")) correlationId false⟩

def notFound (correlationId : Uuid) : PyException :=
  .apiError ⟨404, makeError .sessionNotFound "no such session" correlationId false⟩

/-! ## Flow 1 -/

/-- The reviewers of the opening fan-out, each report fenced. -/
def fanOutReviewers (story : StoryDetail) (correlationId : Uuid) :
    Orchestration (ReviewReport × ReviewReport) :=
  Program.tryCatch (do
    let business ← Agents.invokeReviewer .business { story := story }
    let engineering ← Agents.invokeReviewer .engineering { story := story }
    pure (OutputFence.fenceResult business story none none,
      OutputFence.fenceResult engineering story none none))
    fun exc => .raise (agentFailure exc correlationId "reviewer")

def assertOpeningTurn (output : FacilitatorTurnOutput) (report : SynthesisReport)
    (correlationId : Uuid) : Except PyException Unit :=
  match validateOpeningTurn output report with
  | .ok _ => .ok ()
  | .error (.turnInvalid reason) => .error (.apiError ⟨422, makeError .delegationValidation
      s!"the opening facilitator turn is invalid: {reason}" correlationId false
      (some "facilitator")⟩)
  | .error exc => .error exc

/-- The facilitator's opening call. -/
def openingOutput (sessionId : SessionId) (key : IdempotencyKey) (report : SynthesisReport)
    (reference : ArtifactReference) (evidence : List ArtifactReference)
    (correlationId : Uuid) : Orchestration FacilitatorTurnOutput := do
  let output ← Program.tryCatch
    (Agents.invokeFacilitator {
      sessionId := sessionId
      turnNumber := 1
      invocationId := .facilitatorTurn key sessionId 1
      poMessage := none
      synthesisReport := report
      synthesisReference := reference
      evidenceReferences := evidence } correlationId) fun
    | .agentCallFailure error =>
        .raise (agentFailure (.agentCallFailure error) correlationId "facilitator")
    | .agentTransportError | .agentDeadlineExceeded =>
        .raise (upstream "facilitator invocation failed" correlationId (some "facilitator"))
    | exc => .raise exc
  Program.ofExcept (assertOpeningTurn output report correlationId)
  pure output

/-- What the pipeline has saved before the opening turn. -/
structure OpeningArtifacts where
  story : ArtifactReference
  business : ArtifactReference
  engineering : ArtifactReference
  synthesis : ArtifactReference
  report : SynthesisReport

/-- Story, fan-out and synthesis of the initial pipeline, each saved under the
request's key. -/
def openingArtifacts (story : StoryDetail) (runId : RunId) (sessionId : SessionId)
    (key : IdempotencyKey) (correlationId : Uuid) : Orchestration OpeningArtifacts := do
  RecordsStore.setProcessingStage sessionId (some .reviewing)
  let storyReference ← saveArtifact .story runId (.story story) key correlationId
  let reviews ← fanOutReviewers story correlationId
  let business ← saveArtifact .reviewBusiness runId (.review reviews.1) key correlationId
  let engineering ← saveArtifact .reviewEngineering runId (.review reviews.2) key
    correlationId
  RecordsStore.setProcessingStage sessionId (some .synthesizing)
  let report ← Program.tryCatch
    (Agents.invokeSynthesis ⟨fun
      | .business => ⟨reviews.1, business⟩
      | .engineering => ⟨reviews.2, engineering⟩⟩)
    fun exc => .raise (agentFailure exc correlationId "synthesis")
  let synthesis ← saveArtifact .synthesis runId (.synthesis report) key correlationId
  pure ⟨storyReference, business, engineering, synthesis, report⟩

/-- The opening turn's record: the output's resolutions and drafts are not part of
it. -/
def openingRecord (sessionId : SessionId) (correlationId : Uuid)
    (output : FacilitatorTurnOutput) (artifacts : OpeningArtifacts)
    (createdAt completedAt : Time) : TurnRecord where
  sessionId := sessionId
  turnNumber := 1
  correlationId := correlationId
  poMessage := none
  poAccepted := false
  facilitatorReply := some output.reply
  delegation := some output.delegation
  resolutions := []
  outcome := .cont
  producedArtifacts := [artifacts.business, artifacts.engineering, artifacts.synthesis]
  createdAt := createdAt
  completedAt := completedAt

def createSessionResponse (response : CreateSessionResponse) :
    Except PyException CreateSessionResponse :=
  if response.Valid then .ok response else .error .validationError

def createSlot (key : IdempotencyKey) : ClaimSlot := ⟨.createSession, none, key⟩

def initialPipeline (story : StoryDetail) (runId : RunId) (sessionId : SessionId)
    (key : IdempotencyKey) (correlationId : Uuid) : Orchestration CreateSessionResponse := do
  let artifacts ← openingArtifacts story runId sessionId key correlationId
  RecordsStore.setProcessingStage sessionId (some .facilitator)
  let output ← openingOutput sessionId key artifacts.report artifacts.synthesis
    [artifacts.story, artifacts.business, artifacts.engineering] correlationId
  let createdAt ← now
  let completedAt ← now
  let turn ← RecordsStore.createTurnOrGet
    (openingRecord sessionId correlationId output artifacts createdAt completedAt)
    (.createSession key)
  RecordsStore.touchSession sessionId
  let response ← Program.ofExcept (createSessionResponse {
    sessionId := sessionId
    storyRunId := runId
    openingTurnNumber := 1
    facilitatorReply := turn.facilitatorReply.getD ""
    issues := match turn.delegation with
      | some delegation => delegation.openIssues
      | none => []
    delegation := turn.delegation
    synthesis := artifacts.synthesis
    artifactReferences :=
      [artifacts.story, artifacts.business, artifacts.engineering, artifacts.synthesis] })
  Idempotency.complete (createSlot key) (.created response)
  RecordsStore.setProcessingStage sessionId none
  pure response

/-- Park the session and release the claim, both or neither. -/
def parkFailedSession (sessionId : SessionId) (key : IdempotencyKey) : Orchestration Unit :=
  execute fun w => Idempotency.released (createSlot key)
    (RecordsStore.sessionUpdated sessionId { state := some .parked } w)

/-- A terminal failure of the pipeline parks the session. -/
def pipelineFailed (sessionId : SessionId) (key : IdempotencyKey) (exc : PyException) :
    Orchestration CreateSessionResponse := do
  RecordsStore.setProcessingStage sessionId none
  match exc with
  | .apiError error =>
      if error.error.retryable then .raise exc
      else do
        parkFailedSession sessionId key
        .raise exc
  | _ => .raise exc

def runCreateSession (payload : CreateSessionRequest) (key : IdempotencyKey)
    (correlationId : Uuid) (userId : UserId) : Orchestration CreateSessionResponse := do
  let claim ← Idempotency.claim (createSlot key) (.createSession payload userId)
  match claim with
  | .replay (some (.created response)) => .ofExcept (createSessionResponse response)
  | .replay (some _) => .raise .validationError
  | .replay none => .raise (.assertionError "canonical_response is not None")
  | _ => do
      let story ← getStory payload.storyId correlationId
      let createdAt ← now
      let storyRun ← RecordsStore.createStoryRunOrGet {
        storyRunId := ⟨key⟩
        storyId := story.storyId
        userId := userId
        state := .active
        createdAt := createdAt
        updatedAt := createdAt }
      let createdAt ← now
      let session ← RecordsStore.createSessionOrGet {
        sessionId := ⟨key⟩
        storyRunId := ⟨key⟩
        storyId := story.storyId
        userId := userId
        state := .active
        requestedFormats := payload.requestedFormats
        facilitatorTurnCount := 1
        createdAt := createdAt
        updatedAt := createdAt }
      if session.state ≠ .active then do
        Idempotency.release (createSlot key)
        .raise (.apiError ⟨409, makeError .idempotencyKeyReused
          "this key's previous attempt failed terminally and its session was parked; retry with a new idempotency key" correlationId false⟩)
      else
        Program.tryCatch
          (initialPipeline story storyRun.storyRunId session.sessionId key correlationId)
          (pipelineFailed session.sessionId key)

end Flows

/-! ## Delegation -/

namespace TurnExecution
open Flows

/-- The perspectives an invocation names, in order. -/
def perspectives : Invoke → List Perspective
  | .none => []
  | .business => [.business]
  | .engineering => [.engineering]
  | .both => [.business, .engineering]

/-- The request for one re-review: previous review and extra context. -/
def reviewRequest (story : StoryDetail) (references : List ArtifactReference)
    (delegation : DelegationDecision) (correlationId : Uuid) (perspective : Perspective) :
    Orchestration ReviewerInvocation := do
  let previousReference ← Program.ofExcept
    (Lineage.latest references (.review perspective) (some perspective) correlationId)
  let previous ← Lineage.reviewReport previousReference correlationId
  pure ⟨story, some previous, delegation.extraContext⟩

/-- Run the invoked reviewers and save their fenced reports. -/
def executeDelegation (session : SessionRecord) (story : StoryDetail)
    (references : List ArtifactReference) (delegation : DelegationDecision)
    (key : IdempotencyKey) (correlationId : Uuid) : Orchestration (List ArtifactReference) := do
  let requests ← Program.traverse (fun p => do
    let request ← reviewRequest story references delegation correlationId p
    pure (p, request)) (perspectives delegation.invoke)
  let results ← Program.tryCatch
    (Program.traverse (fun (p, request) => do
      let report ← Agents.invokeReviewer p request
      pure (p, OutputFence.fenceResult report story request.previousReview
        request.extraContext)) requests)
    fun exc => .raise (agentFailure exc correlationId "reviewer")
  Program.traverse (fun (p, report) =>
    saveArtifact (.review p) session.storyRunId (.review report) key correlationId) results

structure SynthesisOutcome where
  reference : ArtifactReference
  /-- The fresh report, when the synthesis ran this turn. -/
  report : Option SynthesisReport

/-- One perspective's latest review and its reference. -/
def latestPair (references : List ArtifactReference) (correlationId : Uuid)
    (perspective : Perspective) : Orchestration PerspectivePair := do
  let reference ← Program.ofExcept
    (Lineage.latest references (.review perspective) (some perspective) correlationId)
  let report ← Lineage.reviewReport reference correlationId
  pure ⟨report, reference⟩

/-- At most one synthesis per turn: only when new artifacts exist or a re-synthesis
was asked for. -/
def maybeSynthesize (session : SessionRecord) (newReviewReferences : List ArtifactReference)
    (reusePrevious : Bool) (key : IdempotencyKey) (correlationId : Uuid)
    (fallbackSynthesis : ArtifactReference) : Orchestration SynthesisOutcome := do
  if newReviewReferences = [] ∧ reusePrevious = false then pure ⟨fallbackSynthesis, none⟩
  else do
    let references ← Lineage.listRunArtifacts session.storyRunId correlationId
    let business ← latestPair references correlationId .business
    let engineering ← latestPair references correlationId .engineering
    let report ← Program.tryCatch
      (Agents.invokeSynthesis ⟨fun | .business => business | .engineering => engineering⟩)
      fun exc => .raise (agentFailure exc correlationId "synthesis")
    let reference ← saveArtifact .synthesis session.storyRunId (.synthesis report) key
      correlationId
    pure ⟨reference, some report⟩

end TurnExecution

/-! ## Flow 2 -/

namespace TurnsFlow
open Flows

def slot (sessionId : SessionId) (key : IdempotencyKey) : ClaimSlot :=
  ⟨.turns, some sessionId, key⟩

/-- The decision state of the coming facilitator turn, from the durable turns. -/
def decisionState (turns : List TurnRecord) : Except PyException (Option DecisionState) :=
  if turns = [] then .ok none
  else (DecisionState.validate (latestResolutions (turns.flatMap TurnRecord.resolutions))
    (Finalization.lastOpenIssues turns)).map some

def stampedResolutions (drafts : List ResolutionDraft) (turnNumber : ℕ) :
    List ResolutionItem :=
  drafts.map fun draft => ⟨draft.issue, draft.disposition, draft.explanation, turnNumber⟩

/-- The prior state together with this turn's first output. -/
def mergedDecisionState (prior : Option DecisionState) (first : FacilitatorTurnOutput)
    (turnNumber : ℕ) : Except PyException DecisionState :=
  let base := (prior.map DecisionState.resolutions).getD []
  DecisionState.validate
    (latestResolutions (base ++ stampedResolutions first.resolutions turnNumber))
    first.delegation.openIssues

/-- The run's latest synthesis reference. -/
def latestSynthesis (session : SessionRecord) (correlationId : Uuid) :
    Orchestration ArtifactReference := do
  let references ← Lineage.listRunArtifacts session.storyRunId correlationId
  .ofExcept (Lineage.latest references .synthesis none correlationId)

/-! ### Responses -/

def canonicalTurnResult (result : CanonicalTurnResult) :
    Except PyException CanonicalTurnResult :=
  if result.Valid then .ok result else .error .validationError

/-- The canonical result of one turn. -/
def turnResult (sessionId : SessionId) (turn : TurnRecord) (outcome : TurnOutcome)
    (state : SessionState) (synthesisReference : ArtifactReference)
    (reportReferences : List ArtifactReference) : CanonicalTurnResult where
  sessionId := sessionId
  turnNumber := turn.turnNumber
  outcome := outcome
  state := state
  facilitatorReply := turn.facilitatorReply
  delegationRationaleReply := turn.delegationRationaleReply
  issues := match turn.delegation with
    | some delegation => delegation.openIssues
    | none => []
  delegation := turn.delegation
  synthesis := some synthesisReference
  reportReferences := reportReferences

/-- The single response for one canonical turn result. -/
def turnResponse (canonical : CanonicalTurnResult) (resolutions : List ResolutionItem) :
    Except PyException TurnResponse :=
  let response : TurnResponse := {
    sessionId := canonical.sessionId
    turnNumber := canonical.turnNumber
    outcome := canonical.outcome
    state := canonical.state
    facilitatorReply := canonical.facilitatorReply
    delegationRationaleReply := canonical.delegationRationaleReply
    issues := canonical.issues
    delegation := canonical.delegation
    resolutions := resolutions
    synthesis := canonical.synthesis
    report := canonical.reportReferences }
  if response.Valid then .ok response else .error .validationError

/-- Rebuild the response from the stored canonical result; resolutions come from
the authoritative turn. -/
def responseFromCanonical (response : Option CanonicalResponse) :
    Orchestration TurnResponse :=
  match response with
  | none => .raise (.assertionError "canonical_response is not None")
  | some (.turn result) => do
      let turn ← RecordsStore.getTurn result.sessionId result.turnNumber
      match turn with
      | none => .raise (.assertionError "completed claim without its turn record")
      | some turn => .ofExcept (turnResponse result turn.resolutions)
  | some _ => .raise .validationError

/-- Continue a finalizing turn into flow 3 and answer. -/
def finalizeAndRespond (session : SessionRecord) (turn : TurnRecord)
    (turns : List TurnRecord) (synthesisReference : ArtifactReference)
    (facilitatorTurnCount : Option ℕ) (key : IdempotencyKey) (correlationId : Uuid) :
    Orchestration TurnResponse := do
  let result ← Finalization.runFlow3 session turns key correlationId synthesisReference
  let canonical ← Program.ofExcept (canonicalTurnResult (turnResult session.sessionId turn
    .finalize .completed synthesisReference result.reportReferences))
  Finalization.completeTransaction (slot session.sessionId key) session.sessionId
    facilitatorTurnCount (.turn canonical) result
  .ofExcept (turnResponse canonical turn.resolutions)

/-- Apply the session transition and complete the claim in one transaction. -/
def persistAndRespond (sessionId : SessionId) (key : IdempotencyKey) (turn : TurnRecord)
    (outcome : TurnOutcome) (synthesisReference : ArtifactReference)
    (resolutions : List ResolutionItem) (facilitatorTurnCount : ℕ) :
    Orchestration TurnResponse := do
  let canonical ← Program.ofExcept (canonicalTurnResult (turnResult sessionId turn
    turn.outcome (if outcome = .park then .parked else .active) synthesisReference []))
  execute fun w => Idempotency.completed (slot sessionId key) (.turn canonical)
    (RecordsStore.sessionUpdated sessionId
      { state := if outcome = .park then some .parked else none
        facilitatorTurnCount := some facilitatorTurnCount } w)
  .ofExcept (turnResponse canonical resolutions)

/-! ### The turn body -/

/-- Same-key retry of a turn whose flow 3 did not finish. -/
def resumeFinalizing (session : SessionRecord) (key : IdempotencyKey)
    (correlationId : Uuid) : Orchestration TurnResponse := do
  let turns ← RecordsStore.listTurns session.sessionId
  match turns.getLast?.filter fun turn => decide (turn.outcome = .finalize) with
  | none => .raise (.assertionError "finalizing session without its finalize turn record")
  | some turn => do
      let synthesisReference ← latestSynthesis session correlationId
      RecordsStore.setProcessingStage session.sessionId (some .finalizing)
      finalizeAndRespond session turn turns synthesisReference none key correlationId

def acceptedRecord (sessionId : SessionId) (turnNumber : ℕ) (correlationId : Uuid)
    (createdAt completedAt : Time) : TurnRecord where
  sessionId := sessionId
  turnNumber := turnNumber
  correlationId := correlationId
  poMessage := none
  poAccepted := true
  facilitatorReply := none
  delegation := none
  resolutions := []
  outcome := .finalize
  producedArtifacts := []
  createdAt := createdAt
  completedAt := completedAt

/-- Explicit acceptance: no facilitator, the acceptance is persisted and flow 3
runs. -/
def acceptTurn (session : SessionRecord) (turnNumber : ℕ) (key : IdempotencyKey)
    (correlationId : Uuid) : Orchestration TurnResponse := do
  let createdAt ← now
  let completedAt ← now
  let turn ← RecordsStore.createTurnOrGet
    (acceptedRecord session.sessionId turnNumber correlationId createdAt completedAt)
    (.turn key)
  let turns ← RecordsStore.listTurns session.sessionId
  let synthesisReference ← latestSynthesis session correlationId
  RecordsStore.setProcessingStage session.sessionId (some .finalizing)
  finalizeAndRespond session turn turns synthesisReference none key correlationId

/-- What the agents' part of a message turn hands to persistence. -/
structure TurnDraft where
  output : FacilitatorTurnOutput
  delegationRationaleReply : Option Text
  newReferences : List ArtifactReference
  synthesisReference : ArtifactReference
  produced : Bool

/-- The second facilitator call of a delegated turn. -/
def invokeSummaryFacilitator (session : SessionRecord) (key : IdempotencyKey)
    (turnNumber facilitatorTurn : ℕ) (message : Option Text) (report : SynthesisReport)
    (reference : ArtifactReference) (prior : Option DecisionState)
    (first : FacilitatorTurnOutput) (correlationId : Uuid) :
    Orchestration FacilitatorTurnOutput := do
  let references ← Lineage.listRunArtifacts session.storyRunId correlationId
  let evidence ← Program.ofExcept (Lineage.evidence references correlationId)
  Program.tryCatch (do
    let state ← Program.ofExcept (mergedDecisionState prior first turnNumber)
    Agents.invokeFacilitator {
      sessionId := session.sessionId
      turnNumber := facilitatorTurn
      invocationId := .facilitatorSummary key session.sessionId facilitatorTurn
      poMessage := message
      synthesisReport := report
      synthesisReference := reference
      evidenceReferences := evidence
      decisionState := some state } correlationId)
    fun exc => .raise (agentFailure exc correlationId "facilitator")

/-- The first facilitator call of a message turn. -/
def invokeFirstFacilitator (session : SessionRecord) (key : IdempotencyKey)
    (facilitatorTurn : ℕ) (message : Option Text) (report : SynthesisReport)
    (reference : ArtifactReference) (evidence : List ArtifactReference)
    (turns : List TurnRecord) (correlationId : Uuid) :
    Orchestration FacilitatorTurnOutput :=
  Program.tryCatch (do
    let state ← Program.ofExcept (decisionState turns)
    Agents.invokeFacilitator {
      sessionId := session.sessionId
      turnNumber := facilitatorTurn
      invocationId := .facilitatorTurn key session.sessionId facilitatorTurn
      poMessage := message
      synthesisReport := report
      synthesisReference := reference
      evidenceReferences := evidence
      decisionState := state } correlationId)
    fun exc => .raise (agentFailure exc correlationId "facilitator")

/-- Facilitator, delegation, synthesis and summary of a message turn. -/
def draftTurn (session : SessionRecord) (message : Option Text) (turns : List TurnRecord)
    (turnNumber facilitatorTurn : ℕ) (key : IdempotencyKey) (correlationId : Uuid) :
    Orchestration TurnDraft := do
  RecordsStore.setProcessingStage session.sessionId (some .facilitator)
  let (story, references) ← Lineage.assembleInputs session correlationId
  let synthesisReference ← Program.ofExcept
    (Lineage.latest references .synthesis none correlationId)
  let report ← Lineage.synthesisReport synthesisReference correlationId
  let evidence ← Program.ofExcept (Lineage.evidence references correlationId)
  let first ← invokeFirstFacilitator session key facilitatorTurn message report
    synthesisReference evidence turns correlationId
  RecordsStore.setProcessingStage session.sessionId (some .delegating)
  let newReferences ← TurnExecution.executeDelegation session story references
    first.delegation key correlationId
  RecordsStore.setProcessingStage session.sessionId (some .synthesizing)
  let synthesis ← TurnExecution.maybeSynthesize session newReferences
    first.delegation.reusePrevious key correlationId synthesisReference
  match synthesis.report with
  | none => pure ⟨first, none, newReferences, synthesis.reference, false⟩
  | some report => do
      RecordsStore.setProcessingStage session.sessionId (some .facilitator)
      let prior ← Program.ofExcept (decisionState turns)
      let summary ← invokeSummaryFacilitator session key turnNumber facilitatorTurn message
        report synthesis.reference prior first correlationId
      pure ⟨summary, some first.reply, newReferences, synthesis.reference, true⟩

/-- The record of a message turn, built from its final output. -/
def messageRecord (sessionId : SessionId) (turnNumber : ℕ) (correlationId : Uuid)
    (message : Option Text) (draft : TurnDraft) (outcome : TurnOutcome)
    (createdAt completedAt : Time) : TurnRecord where
  sessionId := sessionId
  turnNumber := turnNumber
  correlationId := correlationId
  poMessage := message
  poAccepted := false
  facilitatorReply := some draft.output.reply
  delegationRationaleReply := draft.delegationRationaleReply
  delegation := some draft.output.delegation
  resolutions := stampedResolutions draft.output.resolutions turnNumber
  newIssues := draft.output.newIssues
  outcome := outcome
  producedArtifacts := draft.newReferences ++
    if draft.produced then [draft.synthesisReference] else []
  createdAt := createdAt
  completedAt := completedAt

/-- Gate and persistence of a message turn. -/
def commitTurn (session : SessionRecord) (message : Option Text)
    (turnNumber facilitatorTurn : ℕ) (draft : TurnDraft) (key : IdempotencyKey)
    (correlationId : Uuid) : Orchestration TurnResponse := do
  let outcome := evaluateGate facilitatorTurn draft.output.delegation
  let createdAt ← now
  let completedAt ← now
  let turn ← RecordsStore.createTurnOrGet (messageRecord session.sessionId turnNumber
    correlationId message draft outcome createdAt completedAt) (.turn key)
  if outcome = .finalize then do
    RecordsStore.updateSession session.sessionId
      { facilitatorTurnCount := some facilitatorTurn }
    let turns ← RecordsStore.listTurns session.sessionId
    RecordsStore.setProcessingStage session.sessionId (some .finalizing)
    finalizeAndRespond session turn turns draft.synthesisReference (some facilitatorTurn) key
      correlationId
  else
    persistAndRespond session.sessionId key turn outcome draft.synthesisReference
      (stampedResolutions draft.output.resolutions turnNumber) facilitatorTurn

def messageTurn (session : SessionRecord) (message : Option Text) (turns : List TurnRecord)
    (turnNumber : ℕ) (key : IdempotencyKey) (correlationId : Uuid) :
    Orchestration TurnResponse := do
  let facilitatorTurn := session.facilitatorTurnCount + 1
  if facilitatorTurn > parkTurn then
    .raise (.assertionError "active sessions cannot exceed turn 10")
  else do
    let draft ← draftTurn session message turns turnNumber facilitatorTurn key correlationId
    commitTurn session message turnNumber facilitatorTurn draft key correlationId

/-- The number the next turn takes. -/
def nextTurnNumber (turns : List TurnRecord) : ℕ :=
  (match turns.getLast? with
    | some turn => turn.turnNumber
    | none => 0) + 1

def activeTurn (session : SessionRecord) (payload : TurnRequest) (key : IdempotencyKey)
    (correlationId : Uuid) : Orchestration TurnResponse := do
  let turns ← RecordsStore.listTurns session.sessionId
  if payload.poAccepted then
    acceptTurn session (nextTurnNumber turns) key correlationId
  else
    messageTurn session payload.message turns (nextTurnNumber turns) key correlationId

/-- Turn body under the lease. -/
def executeTurn (sessionId : SessionId) (payload : TurnRequest) (key : IdempotencyKey)
    (correlationId : Uuid) (userId : UserId) : Orchestration TurnResponse := do
  let claim ← Idempotency.claim (slot sessionId key) (.turn payload)
  match claim with
  | .replay response => responseFromCanonical response
  | claim => do
      let session ← RecordsStore.getSession sessionId userId
      match session with
      | none => .raise (.assertionError "session is not None")
      | some session =>
          match session.state with
          | .finalizing =>
              if claim = .inProgress then resumeFinalizing session key correlationId
              else do
                Idempotency.release (slot sessionId key)
                .raise (readOnly correlationId session.state)
          | .active => activeTurn session payload key correlationId
          | state => do
              Idempotency.release (slot sessionId key)
              .raise (readOnly correlationId state)

/-- Clear the advisory stage marker and give the lease back. -/
def releaseLease (sessionId : SessionId) (token : Uuid) : Orchestration Unit := do
  RecordsStore.setProcessingStage sessionId none
  TurnLease.release sessionId token

def runTurn (sessionId : SessionId) (payload : TurnRequest) (key : IdempotencyKey)
    (correlationId : Uuid) (userId : UserId) : Orchestration TurnResponse := do
  let session ← RecordsStore.getSession sessionId userId
  match session with
  | none => .raise (notFound correlationId)
  | some _ => do
      let token ← TurnLease.acquire sessionId
      Program.ensure (executeTurn sessionId payload key correlationId userId)
        (releaseLease sessionId token)

end TurnsFlow
end StoryReview
