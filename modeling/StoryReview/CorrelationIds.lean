import Mathlib.Data.List.DropRight
import StoryReview.SessionPaging

/-!
# Correlation ids

The middleware takes the id of a request from its header, if that names a UUID of whatever
version, and mints a UUID v4 otherwise. The models that the id becomes a field of admit
version 4 only: with another one the error body, the turn record or the agent-run record fails
its validation, however far the request has got by then. The other modules take that
validation for granted; with a UUID v4 the service is theirs.
-/
namespace StoryReview
open Flows

/-! ## UUIDs -/

namespace Uuid

def hexDigit (c : Char) : Option ℕ :=
  if '0' ≤ c ∧ c ≤ '9' then some (c.toNat - '0'.toNat)
  else if 'a' ≤ c ∧ c ≤ 'f' then some (c.toNat - 'a'.toNat + 10)
  else if 'A' ≤ c ∧ c ≤ 'F' then some (c.toNat - 'A'.toNat + 10)
  else none

/-- The digits that follow `value`, each behind at most one underscore. -/
def hexDigits (value : ℕ) : List Char → Option ℕ
  | [] => some value
  | '_' :: c :: cs => (hexDigit c).bind fun d => hexDigits (16 * value + d) cs
  | c :: cs => (hexDigit c).bind fun d => hexDigits (16 * value + d) cs

/-- `int(text, 16)` of a text without a minus. -/
def int16 (text : List Char) : Option ℕ :=
  let stripped := (text.dropWhile OutputFence.isSpace).rdropWhile OutputFence.isSpace
  let unsigned := match stripped with
    | '+' :: cs => cs
    | cs => cs
  match unsigned with
  | [] | '_' :: _ => none
  | '0' :: 'x' :: c :: cs | '0' :: 'X' :: c :: cs => hexDigits 0 (c :: cs)
  | cs => hexDigits 0 cs

/-- `text.replace(word, "")`; the next `skip` characters still belong to an occurrence. -/
def without (word : List Char) : ℕ → List Char → List Char
  | _, [] => []
  | skip + 1, _ :: cs => without word skip cs
  | 0, c :: cs =>
      if word.isPrefixOf (c :: cs) then without word (word.length - 1) cs
      else c :: without word 0 cs

def isBrace (c : Char) : Bool := c = '{' || c = '}'

/-- `uuid.UUID(text)`, `none` for its `ValueError`. -/
def ofText (text : Text) : Option Uuid :=
  let hex := without "uuid:".toList 0 (without "urn:".toList 0 text.toList)
  let hex := ((hex.dropWhile isBrace).rdropWhile isBrace).filter (· ≠ '-')
  if hex.length = 32 then int16 hex else none

/-- `UUID.version`: only the variant of RFC 4122 has one. -/
def version (id : Uuid) : Option ℕ :=
  if id.testBit 63 ∧ ¬ id.testBit 62 then some (id / 2 ^ 76 % 16) else none

end Uuid

/-- What the type `CorrelationId`, a `UUID4`, admits. -/
def IsCorrelationId (id : Uuid) : Prop := Uuid.version id = some 4

instance : DecidablePred IsCorrelationId := fun _ => inferInstanceAs (Decidable (_ = _))

/-! ## Records and error bodies -/

namespace Correlated
variable {α : Type}

/-- The validation of a record's correlation id. -/
def validated (correlationId : Uuid) : Orchestration Unit :=
  if IsCorrelationId correlationId then pure () else .raise .validationError

/-- The audit records of agent invocations. -/
def recordAgentRuns (correlationId : Uuid) : Orchestration Unit := validated correlationId

/-- Where the error body of an API error is not valid, building it raises instead. -/
def builtError (correlationId : Uuid) : PyException → PyException
  | .apiError error =>
      if IsCorrelationId correlationId then .apiError error else .validationError
  | .finalizationFailed error retryable =>
      if IsCorrelationId correlationId then .finalizationFailed error retryable
      else .validationError
  | exc => exc

/-- Code that builds its API errors with the request's id, and whose handlers let a failed
validation end as one. -/
def raising (correlationId : Uuid) (p : Orchestration α) : Orchestration α :=
  p.tryCatch fun exc => .raise (builtError correlationId exc)

/-! ## Flow 3 -/

def runFlow3 (session : SessionRecord) (turns : List TurnRecord) (key : IdempotencyKey)
    (correlationId : Uuid) (synthesisReference : ArtifactReference) :
    Orchestration Finalization.FinalizationResult := do
  RecordsStore.updateSession session.sessionId { state := some .finalizing }
  let result ← Program.tryCatch (raising correlationId
    (Finalization.produceReports session turns key correlationId synthesisReference)) fun
    | .finalizationFailed error false => do
        RecordsStore.updateSession session.sessionId { state := some .active }
        .raise (.finalizationFailed error false)
    | exc => .raise exc
  RecordsStore.setFinalizingTurnArtifacts session.sessionId
    (result.finalReviewReference :: result.reportReferences)
  pure result

/-! ## Flow 1 -/

def openingArtifacts (story : StoryDetail) (runId : RunId) (sessionId : SessionId)
    (key : IdempotencyKey) (correlationId : Uuid) : Orchestration OpeningArtifacts := do
  RecordsStore.setProcessingStage sessionId (some .reviewing)
  let storyReference ← saveArtifact .story runId (.story story) key correlationId
  let reviews ← fanOutReviewers story correlationId
  let business ← saveArtifact .reviewBusiness runId (.review reviews.1) key correlationId
  let engineering ← saveArtifact .reviewEngineering runId (.review reviews.2) key
    correlationId
  recordAgentRuns correlationId
  RecordsStore.setProcessingStage sessionId (some .synthesizing)
  let report ← Program.tryCatch
    (Agents.invokeSynthesis ⟨fun
      | .business => ⟨reviews.1, business⟩
      | .engineering => ⟨reviews.2, engineering⟩⟩)
    fun exc => .raise (agentFailure exc correlationId "synthesis")
  let synthesis ← saveArtifact .synthesis runId (.synthesis report) key correlationId
  recordAgentRuns correlationId
  pure ⟨storyReference, business, engineering, synthesis, report⟩

def initialPipeline (story : StoryDetail) (runId : RunId) (sessionId : SessionId)
    (key : IdempotencyKey) (correlationId : Uuid) : Orchestration CreateSessionResponse := do
  let artifacts ← openingArtifacts story runId sessionId key correlationId
  RecordsStore.setProcessingStage sessionId (some .facilitator)
  let output ← openingOutput sessionId key artifacts.report artifacts.synthesis
    [artifacts.story, artifacts.business, artifacts.engineering] correlationId
  let createdAt ← now
  let completedAt ← now
  validated correlationId
  let turn ← RecordsStore.createTurnOrGet
    (openingRecord sessionId correlationId output artifacts createdAt completedAt)
    (.createSession key)
  recordAgentRuns correlationId
  RecordsStore.touchSession sessionId
  let response ← Program.ofExcept (createSessionResponse {
    sessionId := sessionId
    storyRunId := runId
    openingTurnNumber := 1
    facilitatorReply := turn.facilitatorReply.getD ""
    issues := match turn.delegation with
      | some delegation => delegation.openIssues
      | none => []
    delegation := turn.delegation
    synthesis := artifacts.synthesis
    artifactReferences :=
      [artifacts.story, artifacts.business, artifacts.engineering, artifacts.synthesis] })
  Idempotency.complete (createSlot key) (.created response)
  RecordsStore.setProcessingStage sessionId none
  pure response

def runCreateSession (payload : CreateSessionRequest) (key : IdempotencyKey)
    (correlationId : Uuid) (userId : UserId) : Orchestration CreateSessionResponse := do
  let claim ← Idempotency.claim (createSlot key) (.createSession payload userId)
  match claim with
  | .replay (some (.created response)) => .ofExcept (createSessionResponse response)
  | .replay (some _) => .raise .validationError
  | .replay none => .raise (.assertionError "canonical_response is not None")
  | _ => do
      let story ← getStory payload.storyId correlationId
      let createdAt ← now
      let storyRun ← RecordsStore.createStoryRunOrGet {
        storyRunId := ⟨key⟩
        storyId := story.storyId
        userId := userId
        state := .active
        createdAt := createdAt
        updatedAt := createdAt }
      let createdAt ← now
      let session ← RecordsStore.createSessionOrGet {
        sessionId := ⟨key⟩
        storyRunId := ⟨key⟩
        storyId := story.storyId
        userId := userId
        state := .active
        requestedFormats := payload.requestedFormats
        facilitatorTurnCount := 1
        createdAt := createdAt
        updatedAt := createdAt }
      if session.state ≠ .active then do
        Idempotency.release (createSlot key)
        .raise (.apiError ⟨409, makeError .idempotencyKeyReused
          "this key's previous attempt failed terminally and its session was parked; retry with a new idempotency key" correlationId false⟩)
      else
        -- the handler tells API errors from others, so they are built in here
        Program.tryCatch (raising correlationId
          (initialPipeline story storyRun.storyRunId session.sessionId key correlationId))
          (pipelineFailed session.sessionId key)

def postSession (payload : CreateSessionRequest) (key : IdempotencyKey)
    (correlationId : Uuid) (userId : UserId) : Orchestration CreateSessionResponse :=
  Program.tryCatch (runCreateSession payload key correlationId userId) fun
    | .idempotencyKeyReused message => .raise (mapIdempotencyReused message correlationId)
    | .constraintViolation c => .raise (mapConstraintViolation c correlationId)
    | exc => .raise exc

/-! ## Flow 2 -/

open TurnExecution TurnsFlow

def executeDelegation (session : SessionRecord) (story : StoryDetail)
    (references : List ArtifactReference) (delegation : DelegationDecision)
    (key : IdempotencyKey) (correlationId : Uuid) : Orchestration (List ArtifactReference) := do
  let requests ← Program.traverse (fun p => do
    let request ← reviewRequest story references delegation correlationId p
    pure (p, request)) (perspectives delegation.invoke)
  let results ← Program.tryCatch
    (Program.traverse (fun (p, request) => do
      let report ← Agents.invokeReviewer p request
      pure (p, OutputFence.fenceResult report story request.previousReview
        request.extraContext)) requests)
    fun exc => .raise (agentFailure exc correlationId "reviewer")
  Program.traverse (fun (p, report) => do
    let reference ← saveArtifact (.review p) session.storyRunId (.review report) key
      correlationId
    recordAgentRuns correlationId
    pure reference) results

def maybeSynthesize (session : SessionRecord) (newReviewReferences : List ArtifactReference)
    (reusePrevious : Bool) (key : IdempotencyKey) (correlationId : Uuid)
    (fallbackSynthesis : ArtifactReference) : Orchestration SynthesisOutcome := do
  if newReviewReferences = [] ∧ reusePrevious = false then pure ⟨fallbackSynthesis, none⟩
  else do
    let references ← Lineage.listRunArtifacts session.storyRunId correlationId
    let business ← latestPair references correlationId .business
    let engineering ← latestPair references correlationId .engineering
    let report ← Program.tryCatch
      (Agents.invokeSynthesis ⟨fun | .business => business | .engineering => engineering⟩)
      fun exc => .raise (agentFailure exc correlationId "synthesis")
    let reference ← saveArtifact .synthesis session.storyRunId (.synthesis report) key
      correlationId
    recordAgentRuns correlationId
    pure ⟨reference, some report⟩

def finalizeAndRespond (session : SessionRecord) (turn : TurnRecord)
    (turns : List TurnRecord) (synthesisReference : ArtifactReference)
    (facilitatorTurnCount : Option ℕ) (key : IdempotencyKey) (correlationId : Uuid) :
    Orchestration TurnResponse := do
  let result ← runFlow3 session turns key correlationId synthesisReference
  let canonical ← Program.ofExcept (canonicalTurnResult (turnResult session.sessionId turn
    .finalize .completed synthesisReference result.reportReferences))
  Finalization.completeTransaction (slot session.sessionId key) session.sessionId
    facilitatorTurnCount (.turn canonical) result
  .ofExcept (turnResponse canonical turn.resolutions)

def resumeFinalizing (session : SessionRecord) (key : IdempotencyKey)
    (correlationId : Uuid) : Orchestration TurnResponse := do
  let turns ← RecordsStore.listTurns session.sessionId
  match turns.getLast?.filter fun turn => decide (turn.outcome = .finalize) with
  | none => .raise (.assertionError "finalizing session without its finalize turn record")
  | some turn => do
      let synthesisReference ← latestSynthesis session correlationId
      RecordsStore.setProcessingStage session.sessionId (some .finalizing)
      finalizeAndRespond session turn turns synthesisReference none key correlationId

def acceptTurn (session : SessionRecord) (turnNumber : ℕ) (key : IdempotencyKey)
    (correlationId : Uuid) : Orchestration TurnResponse := do
  let createdAt ← now
  let completedAt ← now
  validated correlationId
  let turn ← RecordsStore.createTurnOrGet
    (acceptedRecord session.sessionId turnNumber correlationId createdAt completedAt)
    (.turn key)
  let turns ← RecordsStore.listTurns session.sessionId
  let synthesisReference ← latestSynthesis session correlationId
  RecordsStore.setProcessingStage session.sessionId (some .finalizing)
  finalizeAndRespond session turn turns synthesisReference none key correlationId

def invokeSummaryFacilitator (session : SessionRecord) (key : IdempotencyKey)
    (turnNumber facilitatorTurn : ℕ) (message : Option Text) (report : SynthesisReport)
    (reference : ArtifactReference) (prior : Option DecisionState)
    (first : FacilitatorTurnOutput) (correlationId : Uuid) :
    Orchestration FacilitatorTurnOutput := do
  let summary ← TurnsFlow.invokeSummaryFacilitator session key turnNumber facilitatorTurn
    message report reference prior first correlationId
  recordAgentRuns correlationId
  pure summary

def draftTurn (session : SessionRecord) (message : Option Text) (turns : List TurnRecord)
    (turnNumber facilitatorTurn : ℕ) (key : IdempotencyKey) (correlationId : Uuid) :
    Orchestration TurnDraft := do
  RecordsStore.setProcessingStage session.sessionId (some .facilitator)
  let (story, references) ← Lineage.assembleInputs session correlationId
  let synthesisReference ← Program.ofExcept
    (Lineage.latest references .synthesis none correlationId)
  let report ← Lineage.synthesisReport synthesisReference correlationId
  let evidence ← Program.ofExcept (Lineage.evidence references correlationId)
  let first ← invokeFirstFacilitator session key facilitatorTurn message report
    synthesisReference evidence turns correlationId
  recordAgentRuns correlationId
  RecordsStore.setProcessingStage session.sessionId (some .delegating)
  let newReferences ← executeDelegation session story references first.delegation key
    correlationId
  RecordsStore.setProcessingStage session.sessionId (some .synthesizing)
  let synthesis ← maybeSynthesize session newReferences first.delegation.reusePrevious key
    correlationId synthesisReference
  match synthesis.report with
  | none => pure ⟨first, none, newReferences, synthesis.reference, false⟩
  | some report => do
      RecordsStore.setProcessingStage session.sessionId (some .facilitator)
      let prior ← Program.ofExcept (decisionState turns)
      let summary ← invokeSummaryFacilitator session key turnNumber facilitatorTurn message
        report synthesis.reference prior first correlationId
      pure ⟨summary, some first.reply, newReferences, synthesis.reference, true⟩

def commitTurn (session : SessionRecord) (message : Option Text)
    (turnNumber facilitatorTurn : ℕ) (draft : TurnDraft) (key : IdempotencyKey)
    (correlationId : Uuid) : Orchestration TurnResponse := do
  let outcome := evaluateGate facilitatorTurn draft.output.delegation
  let createdAt ← now
  let completedAt ← now
  validated correlationId
  let turn ← RecordsStore.createTurnOrGet (messageRecord session.sessionId turnNumber
    correlationId message draft outcome createdAt completedAt) (.turn key)
  if outcome = .finalize then do
    RecordsStore.updateSession session.sessionId
      { facilitatorTurnCount := some facilitatorTurn }
    let turns ← RecordsStore.listTurns session.sessionId
    RecordsStore.setProcessingStage session.sessionId (some .finalizing)
    finalizeAndRespond session turn turns draft.synthesisReference (some facilitatorTurn) key
      correlationId
  else
    persistAndRespond session.sessionId key turn outcome draft.synthesisReference
      (stampedResolutions draft.output.resolutions turnNumber) facilitatorTurn

def messageTurn (session : SessionRecord) (message : Option Text) (turns : List TurnRecord)
    (turnNumber : ℕ) (key : IdempotencyKey) (correlationId : Uuid) :
    Orchestration TurnResponse := do
  let facilitatorTurn := session.facilitatorTurnCount + 1
  if facilitatorTurn > parkTurn then
    .raise (.assertionError "active sessions cannot exceed turn 10")
  else do
    let draft ← draftTurn session message turns turnNumber facilitatorTurn key correlationId
    commitTurn session message turnNumber facilitatorTurn draft key correlationId

def activeTurn (session : SessionRecord) (payload : TurnRequest) (key : IdempotencyKey)
    (correlationId : Uuid) : Orchestration TurnResponse := do
  let turns ← RecordsStore.listTurns session.sessionId
  if payload.poAccepted then
    acceptTurn session (nextTurnNumber turns) key correlationId
  else
    messageTurn session payload.message turns (nextTurnNumber turns) key correlationId

def executeTurn (sessionId : SessionId) (payload : TurnRequest) (key : IdempotencyKey)
    (correlationId : Uuid) (userId : UserId) : Orchestration TurnResponse := do
  let claim ← Idempotency.claim (slot sessionId key) (.turn payload)
  match claim with
  | .replay response => responseFromCanonical response
  | claim => do
      let session ← RecordsStore.getSession sessionId userId
      match session with
      | none => .raise (.assertionError "session is not None")
      | some session =>
          match session.state with
          | .finalizing =>
              if claim = .inProgress then resumeFinalizing session key correlationId
              else do
                Idempotency.release (slot sessionId key)
                .raise (Flows.readOnly correlationId session.state)
          | .active => activeTurn session payload key correlationId
          | state => do
              Idempotency.release (slot sessionId key)
              .raise (Flows.readOnly correlationId state)

def runTurn (sessionId : SessionId) (payload : TurnRequest) (key : IdempotencyKey)
    (correlationId : Uuid) (userId : UserId) : Orchestration TurnResponse := do
  let session ← RecordsStore.getSession sessionId userId
  match session with
  | none => .raise (notFound correlationId)
  | some _ => do
      let token ← TurnLease.acquire sessionId
      Program.ensure (executeTurn sessionId payload key correlationId userId)
        (releaseLease sessionId token)

def postTurn (sessionId : SessionId) (payload : TurnRequest) (key : IdempotencyKey)
    (correlationId : Uuid) (userId : UserId) : Orchestration TurnResponse :=
  Program.tryCatch (runTurn sessionId payload key correlationId userId) fun
    | .finalizationFailed error _ => .raise (.apiError error)
    | .sessionLocked hint => .raise (mapSessionLocked hint correlationId)
    | .idempotencyKeyReused message => .raise (mapIdempotencyReused message correlationId)
    | exc => .raise exc

/-! ## The finalize endpoint -/

open Finalize

def resumeFlow3 (session : SessionRecord) (key : IdempotencyKey) (correlationId : Uuid) :
    Orchestration ReportResponse := do
  let turns ← RecordsStore.listTurns session.sessionId
  if turns = [] then
    .raise (.assertionError "finalizing session without a durable turn record")
  else do
    let synthesisReference ← latestSynthesis session correlationId
    RecordsStore.setProcessingStage session.sessionId (some .finalizing)
    let result ← runFlow3 session turns key correlationId synthesisReference
    let canonical ← Program.ofExcept
      (canonicalReport session.sessionId result.reportReferences)
    Finalization.completeTransaction (Finalize.slot session.sessionId key) session.sessionId
      none (.report canonical) result
    .ofExcept (reportResponse session.sessionId result.reportReferences)

def resumeUnderLease (sessionId : SessionId) (key : IdempotencyKey) (correlationId : Uuid)
    (userId : UserId) : Orchestration ReportResponse := do
  let fresh ← RecordsStore.getSession sessionId userId
  match fresh with
  | none => .raise (.assertionError "fresh is not None")
  | some fresh =>
      match fresh.state with
      | .completed => .ofExcept (reportResponse fresh.sessionId fresh.reportReferences)
      | .active => .raise (notFinalizing correlationId)
      | .parked => .raise (Finalize.readOnly correlationId)
      | .finalizing => do
          let claim ← Idempotency.claim (Finalize.slot sessionId key) .empty
          match claim with
          | .replay response => .ofExcept (replayReportResponse response)
          | _ => resumeFlow3 fresh key correlationId

def finalize (sessionId : SessionId) (key : IdempotencyKey) (correlationId : Uuid)
    (userId : UserId) : Orchestration ReportResponse := do
  let session ← RecordsStore.getSession sessionId userId
  match session with
  | none => .raise (notFound correlationId)
  | some session =>
      match session.state with
      | .completed => .ofExcept (reportResponse session.sessionId session.reportReferences)
      | .active => .raise (notFinalizing correlationId)
      | .parked => .raise (Finalize.readOnly correlationId)
      | .finalizing => do
          let token ← TurnLease.acquire sessionId
          Program.ensure (resumeUnderLease sessionId key correlationId userId)
            (releaseLease sessionId token)

def postFinalize (sessionId : SessionId) (key : IdempotencyKey) (correlationId : Uuid)
    (userId : UserId) : Orchestration ReportResponse :=
  Program.tryCatch (finalize sessionId key correlationId userId) fun
    | .sessionLocked hint => .raise (mapSessionLocked hint correlationId)
    | .idempotencyKeyReused message => .raise (mapIdempotencyReused message correlationId)
    | exc => .raise exc

/-! ## With a UUID v4 -/

section Valid
variable {correlationId : Uuid}

end Valid

end Correlated
end StoryReview
