import StoryReview.AgentEngine
import StoryReview.FacilitatorInput

/-!
# The local facilitator adapter

One turn of the adapter is a loop over the model: a reply that is not a valid
output is answered by a corrective message, at most twice. The model is a
function of the conversation so far, which may also fail to answer.
-/
namespace StoryReview.AgentKit

inductive AdapterException where
  | validationError (e : ValidationError)
  | turnInvalid (e : FacilitatorTurnInvalid)
  | delegationValidation (message : Text)
  | loadsError
  | modelFailed
deriving DecidableEq, Repr

/-- The conversation is the messages sent so far; the model answers from it. -/
abbrev Model := List Text → Option Text

abbrev Turn := Program (List Text) Model AdapterException

/-- One run of the agent in the conversation: its final reply. -/
def send (message : Text) : Turn Text :=
  Program.atomicExcept fun model sent =>
    match model sent with
    | some reply => (.ok reply, sent ++ [message])
    | none => (.error .modelFailed, sent ++ [message])

section Loop
variable (parser : ReplyParser FacilitatorTurnOutput) (request : FacilitatorInvocation)

/-- `_parse_turn_output`. -/
def parseTurnOutput (reply : Text) : Except AdapterException FacilitatorTurnOutput :=
  match parser.loads reply with
  | .value payload =>
      match parser.modelValidate payload with
      | .ok output => .ok output
      | .error e => .error (.validationError e)
  | .notJson message => .error (.turnInvalid ⟨s!"reply is not JSON: {message}"⟩)
  | .fails => .error .loadsError

/-- The output of a reply that follows the turn rules. -/
def judge (reply : Text) : Except AdapterException FacilitatorTurnOutput :=
  match parseTurnOutput parser reply with
  | .error exc => .error exc
  | .ok output =>
      match validateTurnOutput output request with
      | .ok _ => .ok output
      | .error e => .error (.turnInvalid e)

/-- `_invalid_reasons`, of the exceptions that the loop catches. -/
def invalidReasons : AdapterException → Option Text
  | .validationError e =>
      some ("; ".intercalate ((e.errors.take 5).map fun error => s!"{error.1}: {error.2}"))
  | .turnInvalid e => some e.reason
  | _ => none

def correctiveMax : ℕ := 2

/-- The re-prompt appended after a malformed turn output. -/
def correctiveMessage (reasons : Text) : Text :=
  "Your previous reply was not a valid FacilitatorTurnOutput:\n" ++
    s!"{reasons}\n\n" ++
    "Reply again with a single corrected FacilitatorTurnOutput as JSON " ++
    "only — no prose outside the JSON object."

/-- The loop with `remaining` corrections left. -/
def correctionsFrom : ℕ → Text → Turn (FacilitatorTurnOutput × ℕ)
  | 0, message => do
      let reply ← send message
      match judge parser request reply with
      | .ok output => pure (output, correctiveMax)
      | .error exc =>
          match invalidReasons exc with
          | none => .raise exc
          | some reasons => .raise (.delegationValidation
              (s!"no valid turn output after {correctiveMax} corrective " ++
                s!"re-prompts: {reasons}"))
  | remaining + 1, message => do
      let reply ← send message
      match judge parser request reply with
      | .ok output => pure (output, correctiveMax - (remaining + 1))
      | .error exc =>
          match invalidReasons exc with
          | none => .raise exc
          | some reasons => correctionsFrom remaining (correctiveMessage reasons)

/-- One turn: the adapter renders the same message as the Agent Engine client. -/
def turnWithCorrections (wire : Wire) : Turn (FacilitatorTurnOutput × ℕ) :=
  correctionsFrom parser request correctiveMax
    (AgentEngine.renderFacilitatorMessage wire request)

end Loop
end StoryReview.AgentKit
