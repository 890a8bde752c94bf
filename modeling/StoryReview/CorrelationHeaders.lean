import StoryReview.CorrelationIds
import StoryReview.ErasedRequests
import StoryReview.Scenarios

/-!
# The correlation header

One HTTP request from its header to its answer. The header is without effect on what is
answered and stored, the ids themselves apart, exactly if it names no UUID or one of
version 4.
-/
namespace StoryReview
open Program Flows

/-! ## The service -/

structure StorySummary where
  storyId : StoryId
  title : Text
  status : Text
deriving DecidableEq, Repr

/-- What the endpoints ask of the outside that no flow asks. -/
structure Gateway where
  keyset : Keyset
  /-- The answer of `list_stories`. -/
  backlog : Choice → List StorySummary
  /-- `str.lower`. -/
  lower : Text → Text
  /-- Whether a dependency answers the health check. -/
  probe : Choice → Text → Bool

structure HealthResponse where
  ok : Bool
  dependencies : List (Text × Bool)
deriving DecidableEq, Repr

/-- What is wrong with a request that reaches no endpoint. -/
inductive Defect where
  | malformed | userId | idempotencyKey
deriving DecidableEq, Repr

def Defect.message : Defect → Text
  | .malformed => "malformed request"
  | .userId => "X-User-Id must be a UUID v4"
  | .idempotencyKey => "Idempotency-Key must be a UUID v4"

inductive HttpRequest where
  | rejected (defect : Defect)
  | health
  | stories (filter : Option Text)
  | story (storyId : StoryId)
  | read (request : ReadRequest) (userId : UserId)
  | write (request : Request) (key : IdempotencyKey) (userId : UserId)
deriving DecidableEq, Repr

inductive Body where
  | health (r : HealthResponse)
  | stories (r : List StorySummary)
  | story (r : StoryDetail)
  | read (r : ReadResponse)
  | write (r : Response)
deriving DecidableEq, Repr

namespace Gateway
variable (gateway : Gateway)

def health (c : Choice) : HealthResponse :=
  let dependencies := ["story", "artifact", "report", "database"].map fun name =>
    (name, gateway.probe c name)
  ⟨dependencies.all Prod.snd, dependencies⟩

def titleFilter (stories : List StorySummary) (needle : Option Text) : List StorySummary :=
  match needle with
  | none => stories
  | some needle => stories.filter fun s =>
      decide ((gateway.lower needle).toList <:+: (gateway.lower s.title).toList)

/-- The error mapping of the story endpoints. -/
def storyFailure (invalid : Text) (correlationId : Uuid) : PyException → PyException
  | .mcpCallFailure error => toolFailure error correlationId
  | .validationError => upstream invalid correlationId
  | .mcpTransportError | .deadlineExceededError =>
      upstream "story MCP unavailable" correlationId
  | exc => exc

/-- `GET /api/v1/stories`. -/
def listStories (filter : Option Text) (correlationId : Uuid) :
    Orchestration (List StorySummary) := do
  let stories ← Program.tryCatch (pureCall gateway.backlog CallFailure.mcpException) fun exc =>
    .raise (storyFailure "story MCP returned an invalid list_stories payload" correlationId exc)
  pure (gateway.titleFilter stories filter)

/-- `GET /api/v1/stories/{id}`. -/
def getStory (storyId : StoryId) (correlationId : Uuid) : Orchestration StoryDetail :=
  Program.tryCatch (pureCall (fun c => c.story storyId) CallFailure.mcpException) fun exc =>
    .raise (storyFailure "story MCP returned an invalid get_story payload" correlationId exc)

def read (request : ReadRequest) (correlationId : Uuid) (userId : UserId) :
    Orchestration ReadResponse :=
  match request with
  | .list limit cursor => do
      let r ← SessionsApi.listSessionsQuery gateway.keyset limit cursor correlationId userId
      pure (.list r)
  | .session sessionId => do
      let r ← SessionsApi.getSession sessionId correlationId userId
      pure (.session r)
  | .report sessionId => do
      let r ← SessionsApi.getReport sessionId correlationId userId
      pure (.report r)

/-- The endpoint of a request, its writes by `write`. -/
def dispatch (write : Request → IdempotencyKey → Uuid → UserId → Orchestration Response)
    (request : HttpRequest) (correlationId : Uuid) : Orchestration Body :=
  match request with
  | .rejected defect =>
      .raise (.apiError ⟨422, makeError .validationError defect.message correlationId false⟩)
  | .health => do
      let r ← Program.atomic fun c w => (gateway.health c, w.tick c)
      pure (.health r)
  | .stories filter => do
      let r ← gateway.listStories filter correlationId
      pure (.stories r)
  | .story storyId => do
      let r ← getStory storyId correlationId
      pure (.story r)
  | .read request userId => do
      let r ← gateway.read request correlationId userId
      pure (.read r)
  | .write request key userId => do
      let r ← write request key correlationId userId
      pure (.write r)

end Gateway

/-- The mutating endpoints. -/
def Correlated.write (request : Request) (key : IdempotencyKey) (correlationId : Uuid)
    (userId : UserId) : Orchestration Response :=
  match request with
  | .createSession payload => do
      let r ← Correlated.postSession payload key correlationId userId
      pure (.createSession r)
  | .turn sessionId payload => do
      let r ← Correlated.postTurn sessionId payload key correlationId userId
      pure (.turn r)
  | .finalize sessionId => do
      let r ← Correlated.postFinalize sessionId key correlationId userId
      pure (.finalize r)
  | .abandon sessionId => do
      let r ← postAbandon sessionId key correlationId userId
      pure (.abandon r)

/-! ## The middleware -/

inductive HttpResponse where
  | success (body : Body) (correlationId : Uuid)
  | error (statusCode : ℕ) (body : ErrorBody) (correlationId : Uuid)
  | internalServerError
deriving DecidableEq, Repr

/-- `request.state.correlation_id`, of the header as far as it is there. -/
def requestCorrelationId (supplied : Option Text) (minted : Uuid) : Uuid :=
  (Uuid.ofText (supplied.getD "")).getD minted

/-- The exception handlers; the middleware echoes the id. -/
def respond (correlationId : Uuid) : Except PyException Body → HttpResponse
  | .ok body => .success body correlationId
  | .error (.apiError e) => .error e.statusCode e.error correlationId
  | .error _ => .internalServerError

/-- The request behind the middleware. -/
def handle (gateway : Gateway) (request : HttpRequest) (correlationId : Uuid) :
    Orchestration Body :=
  Correlated.raising correlationId
    (gateway.dispatch Correlated.write request correlationId)

def serve (gateway : Gateway) (supplied : Option Text) (minted : Uuid) (request : HttpRequest)
    (choices : ℕ → Choice) (w : World) : HttpResponse × World :=
  let correlationId := requestCorrelationId supplied minted
  let served := (handle gateway request correlationId).run choices w
  (respond correlationId served.1, served.2)

/-! ## The header -/

def HttpResponse.erase : HttpResponse → HttpResponse
  | .success body _ => .success body 0
  | .error statusCode body _ => .error statusCode body.erase 0
  | .internalServerError => .internalServerError

section Requests
variable (correlationId : Uuid)

variable (gateway : Gateway)

/-- The mutating endpoint, as an attempt. -/
def attempted (choices : ℕ → Choice) (request : Request) (key : IdempotencyKey)
    (correlationId : Uuid) (userId : UserId) : Orchestration Response :=
  Attempt.program ⟨request, key, correlationId, userId, choices, none⟩

variable {correlationId}

end Requests

/-! ## When the header changes nothing -/

/-- The header names a UUID v4, or no UUID. -/
def NamesNoOther (supplied : Option Text) : Prop :=
  ∀ id, Uuid.ofText (supplied.getD "") = some id → IsCorrelationId id

theorem NamesNoOther.absent : NamesNoOther none := by
  have hempty : Uuid.ofText "" = none := by decide
  intro id hid
  cases hempty.symm.trans hid

namespace Scenario

def gateway : Gateway where
  keyset := ⟨fun _ => "", fun _ _ => true, fun _ _ => "", fun _ => none⟩
  backlog _ := []
  lower := id
  probe _ _ := true

end Scenario

namespace Scenario

end Scenario
end StoryReview
