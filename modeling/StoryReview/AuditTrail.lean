import StoryReview.SessionPaging

/-!
# The audit trail

Flows 1 and 2 with the `agent_runs` table they write: one record for every agent that
answered, under an id derived from the request's key and a label. Everything else is the
service as it stands without that table; a flow's parts that record nothing are those
parts. Recording takes no time of its own.
-/
namespace StoryReview

inductive Agent where
  | facilitator | businessReviewer | engineeringReviewer | synthesis
deriving DecidableEq, Repr

def Agent.reviewer : Perspective → Agent
  | .business => .businessReviewer
  | .engineering => .engineeringReviewer

/-- What an agent-run id is derived from besides the key: the agent, the agent and the
turn, or the second facilitator call of the turn. -/
inductive RunLabel where
  | opening (agent : Agent)
  | turn (agent : Agent) (turnNumber : ℕ)
  | facilitatorSummary (turnNumber : ℕ)
deriving DecidableEq, Repr

/-- `arun-<uuid5 of the key and the label>`. -/
structure AgentRunId where
  key : IdempotencyKey
  label : RunLabel
deriving DecidableEq, Repr

/-- The audit fields of an agent's result. -/
structure Provenance where
  agentVersion : Text
  promptSha256 : Text
  transportAttempts : ℕ
  /-- Only a facilitator's result carries them. -/
  correctiveReprompts : ℕ := 0
deriving DecidableEq, Repr

/-- `^[0-9a-f]{64}$`. -/
def isSha256 (s : Text) : Prop :=
  s.toList.length = 64 ∧ ∀ c ∈ s.toList, c.isDigit = true ∨ ('a' ≤ c ∧ c ≤ 'f')

-- By the text's characters: over all characters the check would be decidable too.
instance : DecidablePred isSha256 := fun s =>
  have := List.decidableBAll (fun c : Char => c.isDigit = true ∨ ('a' ≤ c ∧ c ≤ 'f')) s.toList
  inferInstanceAs (Decidable (_ ∧ _))

/-- The bounds of `validate_attempt_limits` and of its fields. -/
def AttemptLimits (agent : Agent) (transportAttempts correctiveReprompts : ℕ) : Prop :=
  transportAttempts ≤ 3 ∧ correctiveReprompts ≤ 2 ∧
    (agent = .facilitator → transportAttempts ≤ 2) ∧
    (agent ≠ .facilitator → correctiveReprompts = 0)

instance (agent : Agent) (m n : ℕ) : Decidable (AttemptLimits agent m n) :=
  inferInstanceAs (Decidable (_ ∧ _))

/-- The flows record completed runs only: the state is `succeeded`. -/
structure AgentRunRecord where
  agentRunId : AgentRunId
  agent : Agent
  agentVersion : Text
  promptSha256 : Text
  storyRunId : RunId
  sessionId : SessionId
  correlationId : Uuid
  inputReferences : List ArtifactReference
  outputReferences : List ArtifactReference
  transportAttempts : ℕ
  correctiveReprompts : ℕ
  startedAt : Time
  finishedAt : Time
  promptSha256_is_sha256 : isSha256 promptSha256
  references_le : inputReferences.length ≤ 20 ∧ outputReferences.length ≤ 20
  validate_attempt_limits : AttemptLimits agent transportAttempts correctiveReprompts
deriving DecidableEq, Repr

/-! ## The audited service -/

structure AuditedWorld where
  world : World := {}
  agentRuns : List AgentRunRecord := []

/-- An answer of the environment, with what the agent that answers tells of its run. -/
structure AuditedChoice extends Choice where
  provenance : Agent → Provenance

abbrev Audited := Program AuditedWorld AuditedChoice PyException

namespace Audit
open Flows

/-- A part of a flow that records nothing. -/
def unaudited {α : Type} (p : Orchestration α) : Audited α :=
  p.zoom AuditedWorld.world (fun t w => { t with world := w }) AuditedChoice.toChoice

/-- One agent invocation with its wall-clock span. -/
structure Invoked where
  provenance : Provenance
  startedAt : Time
  finishedAt : Time

structure TimedResult (α : Type) extends Invoked where
  result : α

/-- `datetime.now(UTC)`. -/
def wallClock : Audited Time := .atomic fun _ t => (t.world.clock, t)

def timedInvoke {α : Type} (agent : Agent) (invoke : Orchestration α) :
    Audited (TimedResult α) := do
  let startedAt ← wallClock
  let result ← unaudited invoke
  let provenance ← Program.atomic fun c t => (c.provenance agent, t)
  let finishedAt ← wallClock
  pure ⟨⟨provenance, startedAt, finishedAt⟩, result⟩

/-- An entry of `runs`: a result, what it produced, what it consumed, and whose it is. -/
structure AgentRun where
  invoked : Invoked
  outputReferences : List ArtifactReference
  inputReferences : List ArtifactReference
  agent : Agent

/-- `getattr(result, "corrective_reprompts", 0)`. -/
def correctiveReprompts (agent : Agent) (provenance : Provenance) : ℕ :=
  if agent = .facilitator then provenance.correctiveReprompts else 0

/-- `AgentRunRecord(…)`. -/
def agentRunRecord (id : AgentRunId) (run : AgentRun) (storyRunId : RunId)
    (sessionId : SessionId) (correlationId : Uuid) : Except PyException AgentRunRecord :=
  let provenance := run.invoked.provenance
  match SessionsApi.shortText provenance.agentVersion with
  | none => .error .validationError
  | some version =>
      if h : isSha256 provenance.promptSha256 ∧
          (run.inputReferences.length ≤ 20 ∧ run.outputReferences.length ≤ 20) ∧
          AttemptLimits run.agent provenance.transportAttempts
            (correctiveReprompts run.agent provenance) then
        .ok {
          agentRunId := id
          agent := run.agent
          agentVersion := version
          promptSha256 := provenance.promptSha256
          storyRunId := storyRunId
          sessionId := sessionId
          correlationId := correlationId
          inputReferences := run.inputReferences
          outputReferences := run.outputReferences
          transportAttempts := provenance.transportAttempts
          correctiveReprompts := correctiveReprompts run.agent provenance
          startedAt := run.invoked.startedAt
          finishedAt := run.invoked.finishedAt
          promptSha256_is_sha256 := h.1
          references_le := h.2.1
          validate_attempt_limits := h.2.2 }
      else .error .validationError

/-- `get_agent_run`. -/
def agentRun (t : AuditedWorld) (id : AgentRunId) : Option AgentRunRecord :=
  t.agentRuns.find? fun r => decide (r.agentRunId = id)

/-- Insert-or-reuse by primary key. No statement deletes a run or changes one, so the
insert and the lookup of an existing row are one step. -/
def insertAgentRun (record : AgentRunRecord) (t : AuditedWorld) :
    AgentRunRecord × AuditedWorld :=
  match agentRun t record.agentRunId with
  | some existing => (existing, t)
  | none => (record, { t with agentRuns := t.agentRuns ++ [record] })

def createAgentRunOrGet (record : AgentRunRecord) : Audited AgentRunRecord :=
  .atomic fun _ => insertAgentRun record

def recordLabelled (key : IdempotencyKey) (correlationId : Uuid) (storyRunId : RunId)
    (sessionId : SessionId) (label : RunLabel) (run : AgentRun) : Audited Unit := do
  let record ← Program.ofExcept
    (agentRunRecord ⟨key, label⟩ run storyRunId sessionId correlationId)
  let _ ← createAgentRunOrGet record
  pure ()

/-- `_record_agent_runs` of flow 1. -/
def recordAgentRuns (key : IdempotencyKey) (correlationId : Uuid) (storyRunId : RunId)
    (sessionId : SessionId) (runs : List AgentRun) : Audited Unit := do
  let _ ← Program.traverse (fun run =>
    recordLabelled key correlationId storyRunId sessionId (.opening run.agent) run) runs
  pure ()

/-- `record_run` of one turn. -/
def recordRun (key : IdempotencyKey) (correlationId : Uuid) (session : SessionRecord)
    (turnNumber : ℕ) (run : AgentRun) (runLabel : Option RunLabel := none) : Audited Unit :=
  recordLabelled key correlationId session.storyRunId session.sessionId
    (runLabel.getD (.turn run.agent turnNumber)) run

/-! ## Flow 1 -/

def fanOutReviewers (story : StoryDetail) (correlationId : Uuid) :
    Audited (TimedResult ReviewReport × TimedResult ReviewReport) :=
  Program.tryCatch (do
    let business ← timedInvoke .businessReviewer
      (Agents.invokeReviewer .business { story := story })
    let engineering ← timedInvoke .engineeringReviewer
      (Agents.invokeReviewer .engineering { story := story })
    pure ({ business with result := OutputFence.fenceResult business.result story none none },
      { engineering with
        result := OutputFence.fenceResult engineering.result story none none }))
    fun exc => .raise (agentFailure exc correlationId "reviewer")

def openingArtifacts (story : StoryDetail) (runId : RunId) (sessionId : SessionId)
    (key : IdempotencyKey) (correlationId : Uuid) : Audited OpeningArtifacts := do
  unaudited (RecordsStore.setProcessingStage sessionId (some .reviewing))
  let storyReference ← unaudited (saveArtifact .story runId (.story story) key correlationId)
  let reviews ← fanOutReviewers story correlationId
  let business ← unaudited
    (saveArtifact .reviewBusiness runId (.review reviews.1.result) key correlationId)
  let engineering ← unaudited
    (saveArtifact .reviewEngineering runId (.review reviews.2.result) key correlationId)
  recordAgentRuns key correlationId runId sessionId [
    ⟨reviews.1.toInvoked, [business], [storyReference], .businessReviewer⟩,
    ⟨reviews.2.toInvoked, [engineering], [storyReference], .engineeringReviewer⟩]
  unaudited (RecordsStore.setProcessingStage sessionId (some .synthesizing))
  let report ← Program.tryCatch
    (timedInvoke .synthesis (Agents.invokeSynthesis ⟨fun
      | .business => ⟨reviews.1.result, business⟩
      | .engineering => ⟨reviews.2.result, engineering⟩⟩))
    fun exc => .raise (agentFailure exc correlationId "synthesis")
  let synthesis ← unaudited
    (saveArtifact .synthesis runId (.synthesis report.result) key correlationId)
  recordAgentRuns key correlationId runId sessionId [
    ⟨report.toInvoked, [synthesis], [business, engineering], .synthesis⟩]
  pure ⟨storyReference, business, engineering, synthesis, report.result⟩

/-- The facilitator's opening call. -/
def openingOutput (sessionId : SessionId) (key : IdempotencyKey) (report : SynthesisReport)
    (reference : ArtifactReference) (evidence : List ArtifactReference)
    (correlationId : Uuid) : Audited (TimedResult FacilitatorTurnOutput) := do
  let facilitator ← Program.tryCatch
    (timedInvoke .facilitator (Agents.invokeFacilitator {
      sessionId := sessionId
      turnNumber := 1
      invocationId := .facilitatorTurn key sessionId 1
      poMessage := none
      synthesisReport := report
      synthesisReference := reference
      evidenceReferences := evidence } correlationId)) fun
    | .agentCallFailure error =>
        .raise (agentFailure (.agentCallFailure error) correlationId "facilitator")
    | .agentTransportError | .agentDeadlineExceeded =>
        .raise (upstream "facilitator invocation failed" correlationId (some "facilitator"))
    | exc => .raise exc
  Program.ofExcept (assertOpeningTurn facilitator.result report correlationId)
  pure facilitator

def initialPipeline (story : StoryDetail) (runId : RunId) (sessionId : SessionId)
    (key : IdempotencyKey) (correlationId : Uuid) : Audited CreateSessionResponse := do
  let artifacts ← openingArtifacts story runId sessionId key correlationId
  let evidence := [artifacts.story, artifacts.business, artifacts.engineering]
  unaudited (RecordsStore.setProcessingStage sessionId (some .facilitator))
  let facilitator ← openingOutput sessionId key artifacts.report artifacts.synthesis evidence
    correlationId
  let createdAt ← unaudited now
  let completedAt ← unaudited now
  let turn ← unaudited (RecordsStore.createTurnOrGet (openingRecord sessionId correlationId
    facilitator.result artifacts createdAt completedAt) (.createSession key))
  recordAgentRuns key correlationId runId sessionId [
    ⟨facilitator.toInvoked, [artifacts.synthesis], artifacts.synthesis :: evidence,
      .facilitator⟩]
  unaudited (RecordsStore.touchSession sessionId)
  let response ← Program.ofExcept (createSessionResponse {
    sessionId := sessionId
    storyRunId := runId
    openingTurnNumber := 1
    facilitatorReply := turn.facilitatorReply.getD ""
    issues := match turn.delegation with
      | some delegation => delegation.openIssues
      | none => []
    delegation := turn.delegation
    synthesis := artifacts.synthesis
    artifactReferences :=
      [artifacts.story, artifacts.business, artifacts.engineering, artifacts.synthesis] })
  unaudited (Idempotency.complete (createSlot key) (.created response))
  unaudited (RecordsStore.setProcessingStage sessionId none)
  pure response

def runCreateSession (payload : CreateSessionRequest) (key : IdempotencyKey)
    (correlationId : Uuid) (userId : UserId) : Audited CreateSessionResponse := do
  let claim ← unaudited (Idempotency.claim (createSlot key) (.createSession payload userId))
  match claim with
  | .replay (some (.created response)) => .ofExcept (createSessionResponse response)
  | .replay (some _) => .raise .validationError
  | .replay none => .raise (.assertionError "canonical_response is not None")
  | _ => do
      let story ← unaudited (getStory payload.storyId correlationId)
      let createdAt ← unaudited now
      let storyRun ← unaudited (RecordsStore.createStoryRunOrGet {
        storyRunId := ⟨key⟩
        storyId := story.storyId
        userId := userId
        state := .active
        createdAt := createdAt
        updatedAt := createdAt })
      let createdAt ← unaudited now
      let session ← unaudited (RecordsStore.createSessionOrGet {
        sessionId := ⟨key⟩
        storyRunId := ⟨key⟩
        storyId := story.storyId
        userId := userId
        state := .active
        requestedFormats := payload.requestedFormats
        facilitatorTurnCount := 1
        createdAt := createdAt
        updatedAt := createdAt })
      if session.state ≠ .active then do
        unaudited (Idempotency.release (createSlot key))
        .raise (.apiError ⟨409, makeError .idempotencyKeyReused
          "this key's previous attempt failed terminally and its session was parked; retry with a new idempotency key" correlationId false⟩)
      else
        Program.tryCatch
          (initialPipeline story storyRun.storyRunId session.sessionId key correlationId)
          fun exc => unaudited (pipelineFailed session.sessionId key exc)

def postSession (payload : CreateSessionRequest) (key : IdempotencyKey)
    (correlationId : Uuid) (userId : UserId) : Audited CreateSessionResponse :=
  Program.tryCatch (runCreateSession payload key correlationId userId) fun
    | .idempotencyKeyReused message => .raise (mapIdempotencyReused message correlationId)
    | .constraintViolation c => .raise (mapConstraintViolation c correlationId)
    | exc => .raise exc

/-! ## Delegation -/

/-- Run the invoked reviewers, save their fenced reports and record the runs. The second
`lineage.latest` of a perspective looks the same references up again: it is the reference
carried along. -/
def executeDelegation (session : SessionRecord) (story : StoryDetail)
    (references : List ArtifactReference) (delegation : DelegationDecision)
    (key : IdempotencyKey) (turnNumber : ℕ) (correlationId : Uuid) :
    Audited (List ArtifactReference) := do
  let requests ← Program.traverse (fun p => do
    let previousReference ← Program.ofExcept
      (Lineage.latest references (.review p) (some p) correlationId)
    let previous ← unaudited (Lineage.reviewReport previousReference correlationId)
    pure (p, previousReference,
      (⟨story, some previous, delegation.extraContext⟩ : ReviewerInvocation)))
    (TurnExecution.perspectives delegation.invoke)
  let results ← Program.tryCatch
    (Program.traverse (fun (p, previousReference, request) => do
      let result ← timedInvoke (.reviewer p) (Agents.invokeReviewer p request)
      pure (p, previousReference, ({ result with
        result := OutputFence.fenceResult result.result story request.previousReview
          request.extraContext } : TimedResult ReviewReport))) requests)
    fun exc => .raise (agentFailure exc correlationId "reviewer")
  Program.traverse (fun (p, previousReference, result) => do
    let reference ← unaudited
      (saveArtifact (.review p) session.storyRunId (.review result.result) key correlationId)
    recordRun key correlationId session turnNumber
      ⟨result.toInvoked, [reference], [previousReference], .reviewer p⟩
    pure reference) results

def maybeSynthesize (session : SessionRecord) (newReviewReferences : List ArtifactReference)
    (reusePrevious : Bool) (key : IdempotencyKey) (turnNumber : ℕ) (correlationId : Uuid)
    (fallbackSynthesis : ArtifactReference) : Audited TurnExecution.SynthesisOutcome := do
  if newReviewReferences = [] ∧ reusePrevious = false then pure ⟨fallbackSynthesis, none⟩
  else do
    let references ← unaudited (Lineage.listRunArtifacts session.storyRunId correlationId)
    let business ← unaudited (TurnExecution.latestPair references correlationId .business)
    let engineering ← unaudited
      (TurnExecution.latestPair references correlationId .engineering)
    let report ← Program.tryCatch
      (timedInvoke .synthesis
        (Agents.invokeSynthesis ⟨fun | .business => business | .engineering => engineering⟩))
      fun exc => .raise (agentFailure exc correlationId "synthesis")
    let reference ← unaudited (saveArtifact .synthesis session.storyRunId
      (.synthesis report.result) key correlationId)
    recordRun key correlationId session turnNumber
      ⟨report.toInvoked, [reference], [business.reference, engineering.reference], .synthesis⟩
    pure ⟨reference, some report.result⟩

/-! ## Flow 2 -/

open TurnsFlow

/-- The second facilitator call of a delegated turn. -/
def invokeSummaryFacilitator (session : SessionRecord) (key : IdempotencyKey)
    (turnNumber facilitatorTurn : ℕ) (message : Option Text) (report : SynthesisReport)
    (reference : ArtifactReference) (prior : Option DecisionState)
    (first : FacilitatorTurnOutput) (correlationId : Uuid) :
    Audited FacilitatorTurnOutput := do
  let references ← unaudited (Lineage.listRunArtifacts session.storyRunId correlationId)
  let evidence ← Program.ofExcept (Lineage.evidence references correlationId)
  let summary ← Program.tryCatch (do
    let state ← Program.ofExcept (mergedDecisionState prior first turnNumber)
    timedInvoke .facilitator (Agents.invokeFacilitator {
      sessionId := session.sessionId
      turnNumber := facilitatorTurn
      invocationId := .facilitatorSummary key session.sessionId facilitatorTurn
      poMessage := message
      synthesisReport := report
      synthesisReference := reference
      evidenceReferences := evidence
      decisionState := some state } correlationId))
    fun exc => .raise (agentFailure exc correlationId "facilitator")
  recordRun key correlationId session turnNumber
    ⟨summary.toInvoked, [reference], reference :: evidence, .facilitator⟩
    (some (.facilitatorSummary turnNumber))
  pure summary.result

/-- The first facilitator call of a message turn. -/
def invokeFirstFacilitator (session : SessionRecord) (key : IdempotencyKey)
    (facilitatorTurn : ℕ) (message : Option Text) (report : SynthesisReport)
    (reference : ArtifactReference) (evidence : List ArtifactReference)
    (turns : List TurnRecord) (correlationId : Uuid) :
    Audited (TimedResult FacilitatorTurnOutput) :=
  Program.tryCatch (do
    let state ← Program.ofExcept (decisionState turns)
    timedInvoke .facilitator (Agents.invokeFacilitator {
      sessionId := session.sessionId
      turnNumber := facilitatorTurn
      invocationId := .facilitatorTurn key session.sessionId facilitatorTurn
      poMessage := message
      synthesisReport := report
      synthesisReference := reference
      evidenceReferences := evidence
      decisionState := state } correlationId))
    fun exc => .raise (agentFailure exc correlationId "facilitator")

def draftTurn (session : SessionRecord) (message : Option Text) (turns : List TurnRecord)
    (turnNumber facilitatorTurn : ℕ) (key : IdempotencyKey) (correlationId : Uuid) :
    Audited TurnDraft := do
  unaudited (RecordsStore.setProcessingStage session.sessionId (some .facilitator))
  let (story, references) ← unaudited (Lineage.assembleInputs session correlationId)
  let synthesisReference ← Program.ofExcept
    (Lineage.latest references .synthesis none correlationId)
  let report ← unaudited (Lineage.synthesisReport synthesisReference correlationId)
  let evidence ← Program.ofExcept (Lineage.evidence references correlationId)
  let first ← invokeFirstFacilitator session key facilitatorTurn message report
    synthesisReference evidence turns correlationId
  recordRun key correlationId session turnNumber
    ⟨first.toInvoked, [synthesisReference], synthesisReference :: evidence, .facilitator⟩
  unaudited (RecordsStore.setProcessingStage session.sessionId (some .delegating))
  let newReferences ← executeDelegation session story references first.result.delegation key
    turnNumber correlationId
  unaudited (RecordsStore.setProcessingStage session.sessionId (some .synthesizing))
  let synthesis ← maybeSynthesize session newReferences
    first.result.delegation.reusePrevious key turnNumber correlationId synthesisReference
  match synthesis.report with
  | none => pure ⟨first.result, none, newReferences, synthesis.reference, false⟩
  | some report => do
      unaudited (RecordsStore.setProcessingStage session.sessionId (some .facilitator))
      let prior ← Program.ofExcept (decisionState turns)
      let summary ← invokeSummaryFacilitator session key turnNumber facilitatorTurn message
        report synthesis.reference prior first.result correlationId
      pure ⟨summary, some first.result.reply, newReferences, synthesis.reference, true⟩

def messageTurn (session : SessionRecord) (message : Option Text) (turns : List TurnRecord)
    (turnNumber : ℕ) (key : IdempotencyKey) (correlationId : Uuid) :
    Audited TurnResponse := do
  let facilitatorTurn := session.facilitatorTurnCount + 1
  if facilitatorTurn > parkTurn then
    .raise (.assertionError "active sessions cannot exceed turn 10")
  else do
    let draft ← draftTurn session message turns turnNumber facilitatorTurn key correlationId
    unaudited (commitTurn session message turnNumber facilitatorTurn draft key correlationId)

def activeTurn (session : SessionRecord) (payload : TurnRequest) (key : IdempotencyKey)
    (correlationId : Uuid) : Audited TurnResponse := do
  let turns ← unaudited (RecordsStore.listTurns session.sessionId)
  if payload.poAccepted then
    unaudited (acceptTurn session (nextTurnNumber turns) key correlationId)
  else
    messageTurn session payload.message turns (nextTurnNumber turns) key correlationId

/-- Turn body under the lease. -/
def executeTurn (sessionId : SessionId) (payload : TurnRequest) (key : IdempotencyKey)
    (correlationId : Uuid) (userId : UserId) : Audited TurnResponse := do
  let claim ← unaudited (Idempotency.claim (slot sessionId key) (.turn payload))
  match claim with
  | .replay response => unaudited (responseFromCanonical response)
  | claim => do
      let session ← unaudited (RecordsStore.getSession sessionId userId)
      match session with
      | none => .raise (.assertionError "session is not None")
      | some session =>
          match session.state with
          | .finalizing =>
              if claim = .inProgress then unaudited (resumeFinalizing session key correlationId)
              else do
                unaudited (Idempotency.release (slot sessionId key))
                .raise (readOnly correlationId session.state)
          | .active => activeTurn session payload key correlationId
          | state => do
              unaudited (Idempotency.release (slot sessionId key))
              .raise (readOnly correlationId state)

def runTurn (sessionId : SessionId) (payload : TurnRequest) (key : IdempotencyKey)
    (correlationId : Uuid) (userId : UserId) : Audited TurnResponse := do
  let session ← unaudited (RecordsStore.getSession sessionId userId)
  match session with
  | none => .raise (notFound correlationId)
  | some _ => do
      let token ← unaudited (TurnLease.acquire sessionId)
      Program.ensure (executeTurn sessionId payload key correlationId userId)
        (unaudited (releaseLease sessionId token))

def postTurn (sessionId : SessionId) (payload : TurnRequest) (key : IdempotencyKey)
    (correlationId : Uuid) (userId : UserId) : Audited TurnResponse :=
  Program.tryCatch (runTurn sessionId payload key correlationId userId) fun
    | .finalizationFailed error _ => .raise (.apiError error)
    | .sessionLocked hint => .raise (mapSessionLocked hint correlationId)
    | .idempotencyKeyReused message => .raise (mapIdempotencyReused message correlationId)
    | exc => .raise exc

/-! ## Requests -/

/-- One HTTP request as one process handles it; finalize and abandon requests invoke no
agent. -/
structure Attempt where
  request : Request
  key : IdempotencyKey
  correlationId : Uuid
  userId : UserId
  choices : ℕ → AuditedChoice

/-- The request without what the agents tell of their runs. -/
def Attempt.erased (a : Attempt) : StoryReview.Attempt where
  request := a.request
  key := a.key
  correlationId := a.correlationId
  userId := a.userId
  choices := fun n => (a.choices n).toChoice
  crashAfter := none

def Attempt.program (a : Attempt) : Audited Response :=
  match a.request with
  | .createSession payload => do
      let r ← postSession payload a.key a.correlationId a.userId
      pure (.createSession r)
  | .turn sessionId payload => do
      let r ← postTurn sessionId payload a.key a.correlationId a.userId
      pure (.turn r)
  | .finalize _ | .abandon _ => unaudited a.erased.program

end Audit
end StoryReview
