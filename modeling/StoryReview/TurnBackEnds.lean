import StoryReview.EngineHistories
import StoryReview.FacilitatorAdapter

/-!
# The two facilitator back ends

Both back ends turn a sequence of model replies into an output, or give up. Each
is first read off as a function of the replies; the two functions are then
compared, and the client's own treatment of the first reply is put on top.
-/
namespace StoryReview.AgentEngine
open Program

/-! ## The loops as functions of the replies -/

/-- How a loop ends, and the index of the reply at which it does. -/
inductive Verdict where
  | accepted (output : FacilitatorTurnOutput) (index : ℕ)
  | invalid (index : ℕ)
  | broken

section Loops
variable (parser : ReplyParser FacilitatorTurnOutput) (request : FacilitatorInvocation)
variable (reply : ℕ → Text)

/-- `json.loads` raises something that no caller expects. -/
def fails (i : ℕ) : Bool := (parser.loads (reply i)).isFailure

def blank (i : ℕ) : Bool := isBlank (reply i)

variable {parser request reply}
variable {chokes skips : ℕ → Bool} {remaining i k : ℕ} {output : FacilitatorTurnOutput}

/-- The same end, and not by an exception that the caller does not expect. -/
def Verdict.Agrees (v v' : Verdict) : Prop := v = v' ∧ v ≠ .broken

end Loops

/-! ## The runs -/

/-- The reply of a stream. -/
def replyText (stream : List (List Text)) : Text :=
  finalModelReply (stream.map (Event.mk .model))

/-- How the run of a loop shows its verdict: the corrections are counted from `first`, and
so are the replies that were read. -/
inductive Shows {ε : Type} (Invalid : ε → Prop) (first : ℕ) :
    Verdict → Except ε (FacilitatorTurnOutput × ℕ) → ℕ → Prop
  | accepted {output : FacilitatorTurnOutput} {corrections replies : ℕ} :
      Shows Invalid first (.accepted output (first + corrections)) (.ok (output, corrections)) replies
  | invalid {exc : ε} {index replies : ℕ} (h : Invalid exc) (hreplies : replies = index + 1) :
      Shows Invalid first (.invalid index) (.error exc) replies
  | broken {exc : ε} {replies : ℕ} (h : ¬ Invalid exc) :
      Shows Invalid first .broken (.error exc) replies

/-- The exceptions that stand for an invalid turn. -/
def AeException.Invalid : AeException → Prop
  | .callFailure error => error.code = .validationError ∨ error.code = .delegationValidation
  | _ => False

section Engine
variable {client : FacilitatorClient} {request : FacilitatorInvocation} {base : ℕ}
variable {s s' : Session}

end Engine
section Invoke
variable {client : FacilitatorClient} {base : ℕ} {s : Session}
variable (request : FacilitatorInvocation) (streams : ℕ → List (List Text))

def FacilitatorResult.turn (result : FacilitatorResult) : FacilitatorTurnOutput × ℕ :=
  (result.output, result.correctiveReprompts)

end Invoke

section Adapter
open AgentKit
variable {parser : ReplyParser FacilitatorTurnOutput} {request : FacilitatorInvocation}
variable {reply : ℕ → Text}

end Adapter
/-! ## Agreement -/

end StoryReview.AgentEngine

namespace StoryReview.Scenario
open AgentEngine

def opening : FacilitatorInvocation := invocation 1 (.facilitatorTurn 1 ⟨1⟩ 1) none

end StoryReview.Scenario
