import StoryReview.ArtifactListing
import StoryReview.StoryServer

/-!
# Tool calls

What arrives at the three tool servers, and what they do with it. A call that gets past the
ingress runs its handler with one step for each access to the object store, so that calls
interleave with each other and with the requests of the orchestration service.
-/
namespace StoryReview
open Program Ingress

/-! ## Calls -/

inductive Tool where
  | listStories | getStory | saveArtifact | getArtifact | listArtifacts | renderReport
deriving DecidableEq, Repr

namespace Tool

def name : Tool → Text
  | .listStories => "list_stories"
  | .getStory => "get_story"
  | .saveArtifact => "save_artifact"
  | .getArtifact => "get_artifact"
  | .listArtifacts => "list_artifacts"
  | .renderReport => "render_report"

def fields : Tool → List Text
  | .listStories => ["filter", "source"]
  | .getStory => ["story_id", "source"]
  | .saveArtifact => ["type", "story_run_id", "perspective", "content", "idempotency_key"]
  | .getArtifact => ["artifact_id", "story_run_id"]
  | .listArtifacts => ["story_run_id", "type", "perspective", "limit", "offset"]
  | .renderReport => ["story_run_id", "final_review_reference", "format"]

/-- The tools that store something. -/
def writes : Tool → Bool
  | .saveArtifact | .renderReport => true
  | _ => false

end Tool

/-- The fields that some tool knows, and the names of the others that a call gives. -/
structure Arguments where
  filter : Argument Text := .absent
  source : Argument Text := .absent
  storyId : Argument Text := .absent
  storyRunId : Argument RunId := .absent
  artifactId : Argument ArtifactId := .absent
  type : Argument ArtifactType := .absent
  perspective : Argument Perspective := .absent
  content : Argument Content := .absent
  idempotencyKey : Argument IdempotencyKey := .absent
  limit : Argument ℤ := .absent
  offset : Argument ℤ := .absent
  finalReviewReference : Argument ArtifactReference := .absent
  format : Argument Format := .absent
  others : List Text := []

namespace Arguments

/-- The names in the raw arguments. -/
def given (a : Arguments) : List Text :=
  ([("filter", a.filter.isGiven), ("source", a.source.isGiven),
    ("story_id", a.storyId.isGiven), ("story_run_id", a.storyRunId.isGiven),
    ("artifact_id", a.artifactId.isGiven), ("type", a.type.isGiven),
    ("perspective", a.perspective.isGiven), ("content", a.content.isGiven),
    ("idempotency_key", a.idempotencyKey.isGiven), ("limit", a.limit.isGiven),
    ("offset", a.offset.isGiven),
    ("final_review_reference", a.finalReviewReference.isGiven),
    ("format", a.format.isGiven)].filter Prod.snd).map Prod.fst ++ a.others

/-! ## Input models -/

def saveArtifactInput (a : Arguments) : Option SaveArtifactInput := do
  let type ← a.type.required
  let storyRunId ← a.storyRunId.required
  let perspective ← a.perspective.optional
  let content ← a.content.required
  let idempotencyKey ← a.idempotencyKey.required
  if h : content.HasType type ∧ perspective = type.expectedPerspective ∧
      content.HasPerspective type.expectedPerspective ∧ content.BelongsTo storyRunId then
    some ⟨type, storyRunId, perspective, content, idempotencyKey, h.1, h.2.1, h.2.2.1, h.2.2.2⟩
  else none

/-- `GetArtifactInput`. -/
def getArtifactInput (a : Arguments) : Option (RunId × ArtifactId) := do
  let artifactId ← a.artifactId.required
  let storyRunId ← a.storyRunId.required
  some (storyRunId, artifactId)

def listArtifactsInput (a : Arguments) : Option ListArtifactsInput := do
  let storyRunId ← a.storyRunId.required
  let type ← a.type.optional
  let perspective ← a.perspective.optional
  let limit ← a.limit.getD 100
  let offset ← a.offset.getD 0
  if h : (∀ format, type ≠ some (.report format)) ∧
      (1 ≤ limit.toNat ∧ limit.toNat ≤ 500) ∧
      (∀ t ∈ type, perspective = none ∨ perspective = t.expectedPerspective) ∧
      0 ≤ offset then
    some ⟨storyRunId, type, perspective, limit.toNat, offset.toNat, h.1, h.2.1, h.2.2.1⟩
  else none

def renderReportInput (a : Arguments) : Option RenderReportInput := do
  let storyRunId ← a.storyRunId.required
  let reference ← a.finalReviewReference.required
  let format ← a.format.required
  if h : reference.storyRunId = storyRunId ∧ reference.type = .finalizedReview then
    some ⟨storyRunId, reference, format, h⟩
  else none

/-! What the input models of the reads keep of the arguments. -/

theorem storyRunId_listArtifactsInput {a : Arguments} {run : RunId} {input : ListArtifactsInput}
    (hrun : a.storyRunId = .value run) (h : a.listArtifactsInput = some input) :
    input.storyRunId = run := by
  simp only [listArtifactsInput, hrun, Option.bind_eq_bind, Option.bind_eq_some_iff,
    Argument.required] at h
  obtain ⟨_, hvalue, _, -, _, -, _, -, _, -, h⟩ := h
  cases hvalue
  split_ifs at h
  cases h
  rfl

theorem given_getArtifactInput {a : Arguments} {input : RunId × ArtifactId}
    (h : a.getArtifactInput = some input) :
    a.storyRunId = .value input.1 ∧ a.artifactId = .value input.2 := by
  simp only [getArtifactInput, Option.bind_eq_bind, Option.bind_eq_some_iff] at h
  obtain ⟨id, hid, run, hrun, h⟩ := h
  cases h
  exact ⟨Argument.required_eq_some.mp hrun, Argument.required_eq_some.mp hid⟩

end Arguments

structure ToolCall where
  scope : HttpScope
  tool : Tool
  arguments : Arguments
  correlationId : Uuid

inductive ToolOutput where
  | story (r : StorySource.StoryOutput)
  | saved (r : SaveArtifactOutput)
  | artifact (r : ArtifactRecord)
  | listing (r : ListArtifactsOutput)
  | rendered (r : RenderReportOutput)

/-- The middleware turns the call down, or the tool has a result. -/
inductive ToolAnswer where
  | respond (status : ℕ) (error : Text)
  | result (r : Except ErrorBody ToolOutput)

/-! ## Servers -/

structure CallerRoles where
  orchestration : List Text
  facilitator : List Text
deriving DecidableEq, Repr

def CallerRoles.readAllowed (roles : CallerRoles) (caller : Text) : Bool :=
  decide (caller ∈ roles.orchestration) || decide (caller ∈ roles.facilitator)

structure ArtifactServer where
  settings : AuthSettings
  roles : CallerRoles

/-- Writes are orchestration's, reads the facilitator's too. -/
def ArtifactServer.allowed (server : ArtifactServer) (write : Bool) : Option (Text → Bool) :=
  if server.settings.authDisabled then none
  else some fun caller => decide (caller ∈ server.roles.orchestration) ||
    (!write && server.roles.readAllowed caller)

structure ReportServer where
  settings : AuthSettings
  orchestrationCallers : List Text

def ReportServer.allowed (server : ReportServer) : Option (Text → Bool) :=
  if server.settings.authDisabled then none
  else some fun caller => decide (caller ∈ server.orchestrationCallers)

/-- `invalid` is what the schema library says of arguments that a model does not accept. -/
structure Servers where
  story : StorySource.StoryServer Choice
  artifact : ArtifactServer
  report : ReportServer
  repr : Text → Text
  invalid : Tool → Arguments → Text

namespace Servers
variable (servers : Servers)

def settings : Tool → AuthSettings
  | .listStories | .getStory => servers.story.settings
  | .renderReport => servers.report.settings
  | _ => servers.artifact.settings

def allowed : Tool → Option (Text → Bool)
  | .listStories | .getStory => servers.story.allowed
  | .renderReport => servers.report.allowed
  | tool => servers.artifact.allowed tool.writes

/-- `uuid4()` and `datetime.now(UTC)`. -/
def drawn : Orchestration (ArtifactId × Time) :=
  .atomic fun c w => ((⟨w.fresh⟩, w.clock), { w.tick c with fresh := w.fresh + 1 })

/-- A handler on the objects of one run, its exceptions mapped. -/
def onRun {α : Type} (run : RunId) (errorFor : StoreException → ErrorBody)
    (output : α → ToolOutput) (p : StoreProgram α) :
    Orchestration (Except ErrorBody ToolOutput) :=
  Program.tryCatch ((p.zoom (fun w : World => w.objects run) (fun w => w.setObjects run)
    fun _ : Choice => ()).bind fun a => .ret (.ok (output a))) fun e => .ret (.error (errorFor e))

/-- A tool of the story server, which asks its source and stores nothing. -/
def onSource (correlationId : Uuid)
    (answer : Choice → Except StorySource.StoryException StorySource.StoryOutput) :
    Orchestration (Except ErrorBody ToolOutput) :=
  .atomic fun c w => (((answer c).map ToolOutput.story).mapError
    fun e => servers.story.errorFor e correlationId, w)

/-- The call's handler, if it gets that far. -/
def dispatch {ρ : Type} (call : ToolCall) (principal : Option Text) (validated : Option ρ)
    (handler : ρ → Orchestration (Except ErrorBody ToolOutput)) :
    Orchestration (Except ErrorBody ToolOutput) :=
  match vet (authorize servers.repr (servers.allowed call.tool) principal call.correlationId)
      call.arguments.given call.tool.fields validated
      (servers.invalid call.tool call.arguments) call.correlationId with
  | .ok request => handler request
  | .error e => .ret (.error e)

def handle (call : ToolCall) (principal : Option Text) :
    Orchestration (Except ErrorBody ToolOutput) :=
  let args := call.arguments
  let artifactError := fun e => artifactErrorFor e call.correlationId
  match call.tool with
  | .listStories =>
      servers.dispatch call principal (StorySource.listStoriesInput args.filter args.source)
        fun request => servers.onSource call.correlationId fun c =>
          servers.story.listStories c request
  | .getStory =>
      servers.dispatch call principal (StorySource.getStoryInput args.storyId args.source)
        fun request => servers.onSource call.correlationId fun c =>
          servers.story.getStory c request
  | .saveArtifact =>
      servers.dispatch call principal args.saveArtifactInput fun request =>
        drawn.bind fun (id, now) =>
          onRun request.storyRunId artifactError .saved (ArtifactService.save request id now)
  | .getArtifact =>
      servers.dispatch call principal args.getArtifactInput fun (run, id) =>
        onRun run artifactError .artifact (ArtifactService.get run id)
  | .listArtifacts =>
      servers.dispatch call principal args.listArtifactsInput fun request =>
        onRun request.storyRunId artifactError .listing (ArtifactService.listArtifacts request)
  | .renderReport =>
      servers.dispatch call principal args.renderReportInput fun request =>
        drawn.bind fun (id, now) =>
          onRun request.storyRunId (fun e => reportErrorFor e call.correlationId) .rendered
            (ReportStore.renderReport request id now)

/-- One call from the ingress to its answer. -/
def serve (call : ToolCall) : Orchestration ToolAnswer :=
  match (servers.settings call.tool).enter call.scope with
  | .respond status error => .ret (.respond status error)
  | .app principal => (servers.handle call principal).bind fun r => .ret (.result r)

end Servers
end StoryReview
