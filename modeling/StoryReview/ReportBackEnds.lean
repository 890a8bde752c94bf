import StoryReview.EngineHistories

/-!
# The reviewer and synthesis back ends

A reviewer or synthesis invocation is a single turn. The Agent Engine client
parses the reply and hands the report out; the local adapter parses it and
compares the report with the request before it does.
-/
namespace StoryReview

namespace AgentEngine

/-! ## The Agent Engine clients -/

def shortCallAttempts : ℕ := 3

/-- How one attempt at a stream ends. -/
inductive StreamOutcome where
  | answered (events : List Event)
  | failed (message : Text)
  | refused (error : ErrorBody)
  | deadline

/-- What one attempt comes to: a reply that is not blank, or the error to remember. -/
def StreamOutcome.result : StreamOutcome → Except AeException (Except AeException Text)
  | .deadline => .error .deadlineExceeded
  | .failed message => .ok (.error (.httpError message))
  | .refused error =>
      if error.retryable then .ok (.error (.callFailure error))
      else .error (.callFailure error)
  | .answered events =>
      if isBlank (finalModelReply events) then
        .ok (.error (.transportError "AE stream ended without a reply"))
      else .ok (.ok (finalModelReply events))

/-- The attempts that remain, the next one numbered `attempt`: a reply, and the attempt
that gave it. -/
def streamFrom (post : ℕ → StreamOutcome) : ℕ → ℕ → Option AeException →
    Except AeException (Text × ℕ)
  | 0, _, some (.callFailure error) => .error (.callFailure error)
  | 0, _, some exc => .error (.transportError exc.text)
  | 0, _, none => .error (.transportError "None")
  | remaining + 1, attempt, _ =>
      match (post attempt).result with
      | .error exc => .error exc
      | .ok (.error exc) => streamFrom post remaining (attempt + 1) (some exc)
      | .ok (.ok reply) => .ok (reply, attempt)

/-- A report with its audit fields. -/
structure ReportResult (α : Type) where
  report : α
  agentVersion : Text
  promptSha256 : Text
  transportAttempts : ℕ := 1

/-- A single-turn client: its parser and the version it reports. -/
structure ReportClient (α : Type) where
  wire : Wire
  parser : ReplyParser α
  version : Text

/-- The message is streamed, and the final reply validated. -/
def ReportClient.invoke {α : Type} (client : ReportClient α) (message : Text)
    (correlationId : Uuid) (post : ℕ → StreamOutcome) : Except AeException (ReportResult α) := do
  let (reply, attempts) ← streamFrom post shortCallAttempts 1 none
  let report ← validatedReply client.parser reply correlationId
  pure ⟨report, client.version, message, attempts⟩

/-- `AeReviewerClient.invoke`. -/
def invokeReviewer (client : ReportClient ReviewReport) (request : ReviewerInvocation)
    (correlationId : Uuid) (post : ℕ → StreamOutcome) :
    Except AeException (ReportResult ReviewReport) :=
  client.invoke (renderReviewerMessage client.wire request) correlationId post

/-- `AeSynthesisClient.invoke`. -/
def invokeSynthesis (client : ReportClient SynthesisReport) (request : SynthesisInvocation)
    (correlationId : Uuid) (post : ℕ → StreamOutcome) :
    Except AeException (ReportResult SynthesisReport) :=
  client.invoke (renderSynthesisMessage client.wire request) correlationId post

end AgentEngine

/-! ## The local adapters -/

namespace AgentKit

inductive ReportException where
  | outputParseError (message : Text)
  | reportMismatchError (message : Text)
  | loadsError
deriving DecidableEq, Repr

structure ReportResponse (α : Type) where
  report : α
  agentVersion : Text
  promptSha256 : Text

/-- `run_reviewer`, from the final text of the run. -/
def parseReview (parser : ReplyParser ReviewReport) (finalText : Text) :
    Except ReportException ReviewReport :=
  match parser.loads finalText with
  | .value payload =>
      match parser.modelValidate payload with
      | .ok report => .ok report
      | .error e => .error (.outputParseError
          s!"model reply fails ReviewReport validation: {e.text}")
  | .notJson message => .error (.outputParseError s!"model reply is not JSON: {message}")
  | .fails => .error .loadsError

/-- `assemble_response`. -/
def assembleResponse (report : ReviewReport) (request : ReviewerInvocation)
    (promptSha256 agentVersion : Text) (perspective : Perspective) :
    Except ReportException (ReportResponse ReviewReport) :=
  if report.perspective ≠ perspective then
    .error (.reportMismatchError (s!"report perspective '{report.perspective.wire}' is not " ++
      s!"'{perspective.wire}'"))
  else if report.storyId ≠ request.story.storyId then
    .error (.reportMismatchError (s!"report story_id '{report.storyId}' does not match " ++
      s!"requested story '{request.story.storyId}'"))
  else if request.previousReview.isNone ∧ report.previousReviewVersion.isSome then
    .error (.reportMismatchError
      "report carries previous_review_version without a previous review")
  else .ok ⟨report, agentVersion, promptSha256⟩

/-- `run_synthesis`, from the final text of the run. -/
def parseSynthesis (parser : ReplyParser SynthesisReport) (finalText : Text) :
    Except ReportException SynthesisReport :=
  match parser.modelValidateJson finalText with
  | .ok report => .ok report
  | .error e => .error (.outputParseError
      s!"model reply fails SynthesisReport validation: {e.text}")

/-- `assemble_synthesis_response`. -/
def assembleSynthesisResponse (report : SynthesisReport) (request : SynthesisInvocation)
    (promptSha256 agentVersion : Text) :
    Except ReportException (ReportResponse SynthesisReport) :=
  let expectedStory := (request.pairs .business).report.storyId
  if report.storyId ≠ expectedStory then
    .error (.reportMismatchError (s!"report story_id '{report.storyId}' does not match the " ++
      s!"reviewed story '{expectedStory}'"))
  else
    match [Perspective.business, .engineering].find? fun perspective =>
        decide (report.inputs perspective ≠ (request.pairs perspective).reference) with
    | some perspective => .error (.reportMismatchError
        (s!"inputs.{perspective.wire} does not echo the supplied " ++
          s!"{perspective.wire} artifact reference"))
    | none => .ok ⟨report, agentVersion, promptSha256⟩

/-- `POST /invoke` of a reviewer adapter, from the final text of the run. -/
def invokeReviewer (perspective : Perspective) (parser : ReplyParser ReviewReport)
    (promptSha256 agentVersion : Text) (request : ReviewerInvocation) (finalText : Text) :
    Except ReportException (ReportResponse ReviewReport) := do
  let report ← parseReview parser finalText
  assembleResponse report request promptSha256 agentVersion perspective

/-- `POST /invoke` of the synthesis adapter, from the final text of the run. -/
def invokeSynthesis (parser : ReplyParser SynthesisReport) (promptSha256 agentVersion : Text)
    (request : SynthesisInvocation) (finalText : Text) :
    Except ReportException (ReportResponse SynthesisReport) := do
  let report ← parseSynthesis parser finalText
  assembleSynthesisResponse report request promptSha256 agentVersion

end AgentKit

/-! ## What the clients hand out -/

namespace AgentEngine

section Stream
variable {post : ℕ → StreamOutcome} {remaining attempt k : ℕ} {reply : Text}
variable {lastError : Option AeException}

end Stream

end AgentEngine
end StoryReview

namespace StoryReview.Scenario
open AgentEngine

def reviewRequest : ReviewerInvocation := ⟨story "story-01", none, none⟩

end StoryReview.Scenario
