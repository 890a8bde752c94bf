import Mathlib.Tactic.NormNum
import StoryReview.ExceptionGroups
import StoryReview.HttpAgents

/-!
# The MCP client

Calls of a tool under the short-call policy. What an attempt raises, bare or in groups,
is a failure of the tool when it is an `McpCallFailure`; any other exception is a failure
of the transport, which is retried.
-/
namespace StoryReview
open Waits

namespace ToolCalls
open AgentClients

/-- One exception that a transport raises, with its text; `base` is no `Exception`. -/
inductive Leaf where
  | callFailure (error : ErrorBody)
  | exception (text : Text)
  | base (text : Text)
deriving DecidableEq

def Leaf.isCallFailure : Leaf → Bool
  | .callFailure _ => true
  | _ => false

def Leaf.isException : Leaf → Bool
  | .base _ => false
  | _ => true

/-- How one attempt ends. -/
inductive Attempted (P : Type) where
  | payload (p : P)
  | raised (exc : Raised Leaf)

inductive McpError where
  | callFailure (error : ErrorBody)
  | transportError (cause : Option (Raised Leaf))
  | deadlineExceeded (message : Text)
  | uncaught (exc : Raised Leaf)

/-- The upstream-5xx-equivalent codes only. -/
def toolErrorIsRetryable (error : ErrorBody) : Bool :=
  decide (error.code ∈ [.upstreamUnavailable, .renderFailed]) && error.retryable

/-- A group is an `Exception` if all its members are. -/
def isException (exc : Raised Leaf) : Bool := exc.leaves.all Leaf.isException

/-- `self._attempt`, over what the session call raises. -/
def attemptRaises (wrapsOne : Bool) (exc : Raised Leaf) : Raised Leaf :=
  exc.exceptStar Leaf.isCallFailure wrapsOne Raised.firstLeaf

/-- `base * (0.5 + rng())` for a base of one second, then two. -/
def backoff (attempt : ℕ) {L A : Type} : Waits L A McpError Unit :=
  .random fun r => .sleep ((if attempt - 1 = 0 then 1 else 2) * (1 / 2 + r)) (.ret ())

/-- The label of a session call; there are no others. -/
inductive SessionCall where
  | session
deriving DecidableEq

abbrev Call (P : Type) := Waits SessionCall (Attempted P) McpError

/-- A client; `wrapsOne` tells how its interpreter leaves `except*`. -/
structure McpClient where
  settings : Settings
  wrapsOne : Bool

namespace McpClient
variable {P : Type} (client : McpClient)

/-- What follows an attempt, `retry` being the attempts that remain if there are any. -/
def handle (attempt : ℕ) (retry : Option (Call P P)) : Attempted P → Call P P
  | .payload p => .ret p
  | .raised exc =>
      match attemptRaises client.wrapsOne exc with
      | .leaf (.callFailure error) =>
          match retry.filter fun _ => toolErrorIsRetryable error with
          | some retry => (backoff attempt).bind fun _ => retry
          | none => .raise (.callFailure error)
      | exc =>
          if isException exc then
            match retry with
            | some retry => (backoff attempt).bind fun _ => retry
            | none => .raise (.transportError (some exc))
          else .raise (.uncaught exc)

def callFrom (deadlineAt : ℚ) : (remaining attempt : ℕ) → Call P P
  | 0, _ => .raise (.transportError none)
  | remaining + 1, attempt =>
      (clampedCall .session client.settings.shortCallTimeoutSeconds
        (.deadlineExceeded "request deadline budget exhausted") deadlineAt).bind
        (client.handle attempt
          (if remaining = 0 then none else some (callFrom deadlineAt remaining (attempt + 1))))

def call (deadline : Option ℚ) : Call P P :=
  match deadline with
  | some deadlineAt => client.callFrom deadlineAt client.settings.shortCallAttempts 1
  | none => .time fun now => client.callFrom (now + client.settings.requestDeadlineSeconds)
      client.settings.shortCallAttempts 1

/-! ## Tool failures -/

variable {client}

end McpClient
end ToolCalls

namespace Scenario
open ToolCalls McpClient

/-- Every attempt ends at once with the same exception. -/
def raising (exc : Raised Leaf) : Surroundings (Attempted Unit) :=
  ⟨fun _ => (0, .raised exc), fun _ => 0, .raised exc, fun _ => le_rfl⟩

end Scenario
end StoryReview
