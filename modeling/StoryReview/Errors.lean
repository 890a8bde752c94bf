import StoryReview.Schemas

/-!
# Errors

The structured error body shared by every service, and the exceptions that the
orchestration code raises and catches. An `except` clause is a match on
`PyException`; an exception no clause names travels on unchanged.
-/
namespace StoryReview

inductive ErrorCode where
  | unauthenticated | forbidden | validationError | storyNotFound | sessionNotFound
  | artifactNotFound | sessionLocked | sessionReadOnly | storySessionActive
  | notFinalizing | reportNotReady | idempotencyKeyReused | delegationValidation
  | deadlineExceeded | upstreamUnavailable | renderFailed | reportRenderFailed
  | finalReviewInvalid
deriving DecidableEq, Repr

structure ErrorBody where
  code : ErrorCode
  message : Text
  agent : Option Text := none
  correlationId : Uuid
  retryable : Bool
  retryAfterSeconds : Option ℕ
  retry_hint_matches_retryability : retryable = retryAfterSeconds.isSome
deriving DecidableEq, Repr

/-- Hint served with retryable 503s. -/
def retryAfterSeconds : ℕ := 5

theorem noHint : (none : Option ℕ) = none := rfl

/-- The retry hint is the fixed one whenever the error is retryable. -/
def makeError (code : ErrorCode) (message : Text) (correlationId : Uuid)
    (retryable : Bool) (agent : Option Text := none) (hint : Option ℕ := none)
    (hhint : retryable = false → hint = none := by first | exact fun _ => noHint | simp) :
    ErrorBody where
  code := code
  message := message
  agent := agent
  correlationId := correlationId
  retryable := retryable
  retryAfterSeconds := if retryable then some retryAfterSeconds else hint
  retry_hint_matches_retryability := by
    cases retryable with
    | false => simp [hhint rfl]
    | true => rfl

@[simp] theorem makeError_code (code : ErrorCode) (message : Text) (correlationId : Uuid)
    (retryable : Bool) (agent : Option Text) (hint : Option ℕ)
    (hhint : retryable = false → hint = none) :
    (makeError code message correlationId retryable agent hint hhint).code = code := rfl

@[simp] theorem makeError_retryable (code : ErrorCode) (message : Text)
    (correlationId : Uuid) (retryable : Bool) (agent : Option Text) (hint : Option ℕ)
    (hhint : retryable = false → hint = none) :
    (makeError code message correlationId retryable agent hint hhint).retryable =
      retryable := rfl

structure ApiError where
  statusCode : ℕ
  error : ErrorBody
deriving DecidableEq, Repr

/-- The database constraints whose violation the API layer tells apart. -/
inductive Constraint where
  | oneActiveRunPerStory | uniqueRow
deriving DecidableEq, Repr

inductive PyException where
  | apiError (e : ApiError)
  | finalizationFailed (e : ApiError) (retryable : Bool)
  | sessionLocked (retryAfterSeconds : ℕ)
  | idempotencyKeyReused (message : Text)
  | constraintViolation (c : Constraint)
  | mcpCallFailure (e : ErrorBody)
  | mcpTransportError
  | deadlineExceededError
  | agentCallFailure (e : ErrorBody)
  | agentTransportError
  | agentDeadlineExceeded
  | validationError
  | turnInvalid (reason : Text)
  | assertionError (message : Text)
  | typeError
  | indexError
deriving DecidableEq, Repr

def ArtifactType.wire : ArtifactType → Text
  | .story => "story"
  | .reviewBusiness => "review-business"
  | .reviewEngineering => "review-engineering"
  | .synthesis => "synthesis"
  | .finalizedReview => "finalized-review"
  | .reportMd => "report-md"
  | .reportPdf => "report-pdf"

def SessionState.wire : SessionState → Text
  | .active => "active"
  | .parked => "parked"
  | .finalizing => "finalizing"
  | .completed => "completed"

def Disposition.wire : Disposition → Text
  | .resolved => "resolved"
  | .accepted => "accepted"
  | .unresolved => "unresolved"
  | .reopened => "reopened"

def Format.wire : Format → Text
  | .md => "md"
  | .pdf => "pdf"

end StoryReview
