import StoryReview.ContextStories
import StoryReview.CorrelationHeaders
import StoryReview.Ingress

/-!
# The story server

Two sources stand behind one interface, with id spaces that never mix. The server picks
one by the deployment's default or the call's override, filters by status, and answers
every failure with a code of the taxonomy. `χ` is what a source learns of the outside when
it is asked.
-/
namespace StoryReview
open Ingress

namespace StorySource
open StoryReview.OutputFence

inductive StoryException where
  | storyNotFound (storyId : Text)
  | invalidSourceOverride (source : Text)
  | sourceNotConfigured (source : Text)
  | source (e : SourceError)
deriving DecidableEq, Repr

structure BacklogLike (χ : Type) where
  listStories : χ → Option Text → Except StoryException (List StorySummary)
  getStory : χ → Text → Except StoryException StoryDetail

/-! ## Id spaces and filters -/

/-- The digits after a prefix that the id starts with. -/
def number (head : Text) (id : Text) : Option (List Char) :=
  if head.toList.isPrefixOf id.toList then some (id.toList.drop head.toList.length) else none

/-- `^story-[0-9]{2}$`. -/
def mockIdPattern (id : Text) : Bool :=
  (number "story-" id).any fun ds => ds.length == 2 && ds.all Char.isDigit

/-- `^ado-[0-9]{1,8}$`. -/
def azureIdPattern (id : Text) : Bool :=
  (number "ado-" id).any fun ds => 1 ≤ ds.length && ds.length ≤ 8 && ds.all Char.isDigit

def checkIdSpace (source storyId : Text) : Except StoryException Unit :=
  let pattern := if source = "mock" then mockIdPattern else azureIdPattern
  if pattern storyId then .ok () else .error (.storyNotFound storyId)

/-- `lower` is `str.lower`. -/
def applyFilter (lower : Text → Text) (stories : List StorySummary)
    (statusFilter : Option Text) : List StorySummary :=
  match statusFilter with
  | none => stories
  | some needle => stories.filter fun s =>
      decide ((lower needle).toList <:+: (lower s.status).toList)

def validSources : List Text := ["azure", "mock"]

def resolveSource (override : Option Text) (deploymentDefault : Text) :
    Except StoryException Text :=
  let source := override.getD deploymentDefault
  if source ∈ validSources then .ok source else .error (.invalidSourceOverride source)

/-! ## The server -/

structure ListStoriesInput where
  filter : Option Text
  source : Option Text
deriving DecidableEq, Repr

structure GetStoryInput where
  storyId : Text
  source : Option Text
deriving DecidableEq, Repr

/-- A source that is given is one of the two. -/
def sourceArgument (source : Argument Text) : Option (Option Text) := do
  let source ← source.optional
  if ∀ s ∈ source, s ∈ validSources then some source else none

theorem sourceArgument_of_not_isSet {source : Argument Text} (h : source.isSet = false) :
    sourceArgument source = some none := by
  cases source with
  | absent | null => rfl
  | value _ | other => cases h

def listStoriesInput (filter source : Argument Text) : Option ListStoriesInput := do
  let filter ← filter.optional
  let filter ← (match filter with
    | none => some none
    | some f => (constrained 500 f).toOption.map some)
  let source ← sourceArgument source
  some ⟨filter, source⟩

def getStoryInput (storyId source : Argument Text) : Option GetStoryInput := do
  let storyId ← storyId.required
  let source ← sourceArgument source
  if storyIdOk storyId then some ⟨storyId, source⟩ else none

/-- Without a source of its own a call asks the deployment's. -/
theorem source_listStoriesInput {filter source : Argument Text} {input : ListStoriesInput}
    (hsource : source.isSet = false) (h : listStoriesInput filter source = some input) :
    input.source = none := by
  simp only [listStoriesInput, Option.bind_eq_bind, Option.bind_eq_some_iff,
    sourceArgument_of_not_isSet hsource] at h
  obtain ⟨_, -, _, -, _, hnone, h⟩ := h
  cases hnone
  cases h
  rfl

theorem source_getStoryInput {storyId source : Argument Text} {input : GetStoryInput}
    (hsource : source.isSet = false) (h : getStoryInput storyId source = some input) :
    input.source = none := by
  simp only [getStoryInput, Option.bind_eq_bind, Option.bind_eq_some_iff,
    sourceArgument_of_not_isSet hsource] at h
  obtain ⟨_, -, _, hnone, h⟩ := h
  cases hnone
  split_ifs at h
  cases h
  rfl

structure StoryServer (χ : Type) where
  settings : AuthSettings
  allowedCallers : List Text
  sources : Text → Option (BacklogLike χ)
  defaultSource : Text
  /-- What an exception of a source says of itself. -/
  describe : SourceError → Text
  repr : Text → Text

inductive StoryOutput where
  | stories (r : List StorySummary)
  | story (r : StoryDetail)
deriving DecidableEq, Repr

namespace StoryServer
variable {χ : Type} (server : StoryServer χ)

/-- No allowlist where auth is disabled. -/
def allowed : Option (Text → Bool) :=
  if server.settings.authDisabled then none
  else some fun caller => decide (caller ∈ server.allowedCallers)

def resolve (override : Option Text) : Except StoryException (BacklogLike χ) := do
  let name ← resolveSource override server.defaultSource
  match server.sources name with
  | some source => .ok source
  | none => .error (.sourceNotConfigured name)

/-- Servers that differ behind an override only. -/
theorem resolve_congr {server server' : StoryServer χ}
    (hdefault : server'.defaultSource = server.defaultSource)
    (hsource : server'.sources server.defaultSource = server.sources server.defaultSource) :
    server.resolve none = server'.resolve none := by
  unfold resolve
  rw [hdefault]
  cases hresolved : resolveSource none server.defaultSource with
  | error e => rfl
  | ok name =>
      have hname : name = server.defaultSource := by
        unfold resolveSource at hresolved
        dsimp only [Option.getD_none] at hresolved
        split_ifs at hresolved
        cases hresolved
        rfl
      subst hname
      dsimp only [bind, Except.bind]
      rw [hsource]

/-- `ListStoriesOutput` holds at most 50 summaries. -/
def listStories (c : χ) (request : ListStoriesInput) : Except StoryException StoryOutput := do
  let source ← server.resolve request.source
  let stories ← source.listStories c request.filter
  if stories.length ≤ 50 then .ok (.stories stories) else .error (.source .validationError)

def getStory (c : χ) (request : GetStoryInput) : Except StoryException StoryOutput := do
  let source ← server.resolve request.source
  let story ← source.getStory c request.storyId
  .ok (.story story)

def errorFor (e : StoryException) (correlationId : Uuid) : ErrorBody :=
  match e with
  | .storyNotFound id =>
      toolError .storyNotFound s!"story {server.repr id} not found in this source" correlationId
  | .invalidSourceOverride source => validationError source correlationId
  | .sourceNotConfigured source => toolError .upstreamUnavailable
      s!"source {server.repr source} is not configured in this deployment" correlationId
  | .source (.sourceUnavailable status) =>
      ⟨.upstreamUnavailable, server.describe (.sourceUnavailable status), none, correlationId,
        true, some 30, rfl⟩
  | .source (.preparationError message) => validationError message correlationId
  | .source .valueError => validationError (server.describe .valueError) correlationId
  | .source .validationError =>
      validationError (server.describe .validationError) correlationId
  | .source _ => toolError .upstreamUnavailable "unexpected internal error" correlationId

end StoryServer
end StorySource
end StoryReview
