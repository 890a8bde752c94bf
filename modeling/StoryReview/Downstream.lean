import StoryReview.OutputFence
import StoryReview.Records

/-!
# Downstream calls

The calls of the orchestration service to the story, artifact and report
services and to the agents, with the error mapping of each call site, and the
assembly of inputs from a run's artifact lineage.
-/
namespace StoryReview

namespace Flows

def upstream (message : Text) (correlationId : Uuid) (agent : Option Text := none) :
    PyException :=
  .apiError ⟨503, makeError .upstreamUnavailable message correlationId true agent⟩

def toolFailure (error : ErrorBody) (correlationId : Uuid) : PyException :=
  if error.code = .storyNotFound then
    .apiError ⟨404, makeError .storyNotFound error.message correlationId false⟩
  else
    .apiError ⟨503, makeError error.code error.message correlationId error.retryable⟩

/-- One failed agent invocation, as the API error it is mapped to. -/
def agentFailure (exc : PyException) (correlationId : Uuid) (agent : Text) : PyException :=
  match exc with
  | .agentCallFailure error =>
      .apiError ⟨if error.code = .validationError ∨ error.code = .delegationValidation
          then 422 else 503,
        makeError error.code error.message correlationId error.retryable (some agent)⟩
  | _ => upstream s!"{agent} invocation failed" correlationId (some agent)

/-- `SaveArtifactInput(…)`. -/
def saveArtifactInput (type : ArtifactType) (storyRunId : RunId) (content : Content)
    (key : IdempotencyKey) : Except PyException SaveArtifactInput :=
  if h : content.HasType type ∧ content.HasPerspective type.expectedPerspective ∧
      content.BelongsTo storyRunId then
    .ok ⟨type, storyRunId, type.expectedPerspective, content, key, h.1, rfl, h.2.1, h.2.2⟩
  else .error .validationError

/-- `artifact_client.call("save_artifact", …)`. -/
def callSave (request : SaveArtifactInput) (correlationId : Uuid) :
    Orchestration SaveArtifactOutput :=
  storeCall request.storyRunId (ArtifactService.save request)
    fun e => artifactErrorFor e correlationId

/-- One idempotent `save_artifact` call; the durable reference. -/
def saveArtifact (type : ArtifactType) (storyRunId : RunId) (content : Content)
    (key : IdempotencyKey) (correlationId : Uuid) : Orchestration ArtifactReference := do
  let request ← Program.ofExcept (saveArtifactInput type storyRunId content key)
  let output ← Program.tryCatch (callSave request correlationId) fun
    | .mcpCallFailure error => .raise (toolFailure error correlationId)
    | .mcpTransportError => .raise (upstream "artifact MCP unavailable" correlationId)
    | .deadlineExceededError => .raise (upstream "artifact MCP unavailable" correlationId)
    | exc => .raise exc
  pure output.reference

/-- The story with its epic and roadmap context. -/
def getStory (storyId : StoryId) (correlationId : Uuid) : Orchestration StoryDetail :=
  Program.tryCatch (pureCall (fun c => c.story storyId) CallFailure.mcpException) fun
    | .mcpCallFailure error => .raise (toolFailure error correlationId)
    | .mcpTransportError => .raise (upstream "story MCP unavailable" correlationId)
    | .deadlineExceededError => .raise (upstream "story MCP unavailable" correlationId)
    | exc => .raise exc

end Flows

/-! ## Agents -/

namespace Agents

def invokeReviewer (perspective : Perspective) (request : ReviewerInvocation) :
    Orchestration ReviewReport :=
  pureCall (fun c => c.reviewer perspective request) CallFailure.agentException

def invokeSynthesis (request : SynthesisInvocation) : Orchestration SynthesisReport :=
  pureCall (fun c => c.synthesis request) CallFailure.agentException

/-- The client hands out only outputs that satisfy the turn-context rules; when
the corrective re-prompts are spent it fails with `DELEGATION_VALIDATION`. -/
def invokeFacilitator (request : FacilitatorInvocation) (correlationId : Uuid) :
    Orchestration FacilitatorTurnOutput := do
  let output ← pureCall (fun c => c.facilitator request) CallFailure.agentException
  match validateFacilitatorTurn output request with
  | .ok _ => pure output
  | .error _ => .raise (.agentCallFailure (makeError .delegationValidation
      "the facilitator turn is invalid" correlationId false (some "facilitator")))

end Agents

/-! ## Lineage -/

namespace Lineage

/-- All artifact references of the run, one page of at most 500. -/
def listRunArtifacts (storyRunId : RunId) (correlationId : Uuid) :
    Orchestration (List ArtifactReference) :=
  Program.tryCatch
    (storeCall storyRunId (fun _ _ => ArtifactService.list 500 0)
      fun e => artifactErrorFor e correlationId)
    fun _ => .raise (Flows.upstream "artifact MCP unavailable" correlationId)

/-- `max(matches, key=version)`: the first reference of the highest version. -/
def maxVersion (references : List ArtifactReference) : Option ArtifactReference :=
  references.foldl (fun best r =>
    match best with
    | none => some r
    | some b => if b.version < r.version then some r else some b) none

/-- Latest artifact of one slot. -/
def latest (references : List ArtifactReference) (type : ArtifactType)
    (perspective : Option Perspective) (correlationId : Uuid) :
    Except PyException ArtifactReference :=
  match maxVersion (references.filter fun r =>
      decide (r.type = type ∧ r.perspective = perspective)) with
  | some reference => .ok reference
  | none => .error (Flows.upstream
      s!"missing {type.wire} artifact in the session lineage" correlationId)

/-- One artifact's content. -/
def artifactContent (reference : ArtifactReference) (correlationId : Uuid) :
    Orchestration Content := do
  let record ← Program.tryCatch
    (storeCall reference.storyRunId
      (fun _ _ => ArtifactService.get reference.storyRunId reference.artifactId)
      fun e => artifactErrorFor e correlationId)
    fun _ => .raise (Flows.upstream "artifact MCP unavailable" correlationId)
  pure record.content

/-- `parse_content(SynthesisReport, …)`. -/
def parseSynthesis : Content → Except PyException SynthesisReport
  | .synthesis report => .ok report
  | _ => .error .validationError

/-- `parse_content(ReviewReport, …)`. -/
def parseReview : Content → Except PyException ReviewReport
  | .review report => .ok report
  | _ => .error .validationError

def synthesisReport (reference : ArtifactReference) (correlationId : Uuid) :
    Orchestration SynthesisReport := do
  let content ← artifactContent reference correlationId
  .ofExcept (parseSynthesis content)

def reviewReport (reference : ArtifactReference) (correlationId : Uuid) :
    Orchestration ReviewReport := do
  let content ← artifactContent reference correlationId
  .ofExcept (parseReview content)

/-- Story, and the latest review of each perspective. -/
def evidence (references : List ArtifactReference) (correlationId : Uuid) :
    Except PyException (List ArtifactReference) := do
  let story ← latest references .story none correlationId
  let business ← latest references .reviewBusiness (some .business) correlationId
  let engineering ← latest references .reviewEngineering (some .engineering) correlationId
  pure [story, business, engineering]

/-- The story and the run's artifact lineage. -/
def assembleInputs (session : SessionRecord) (correlationId : Uuid) :
    Orchestration (StoryDetail × List ArtifactReference) := do
  let story ← Flows.getStory session.storyId correlationId
  let references ← listRunArtifacts session.storyRunId correlationId
  pure (story, references)

end Lineage
end StoryReview
