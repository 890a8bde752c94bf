import Mathlib.Tactic.Linarith
import StoryReview.Errors
import StoryReview.Waits

/-!
# The HTTP clients of the agents

One retry loop serves the reviewers, the synthesis and the facilitator. An attempt is
clamped to the request's deadline, less a reserve; a failed attempt of the facilitator is
looked up at the adapter before the next one.
-/
namespace StoryReview

/-- What the clients read of the settings. -/
structure Settings where
  requestDeadlineSeconds : ℕ := 300
  shortCallTimeoutSeconds : ℕ := 60
  shortCallAttempts : ℕ := 3
  facilitatorTimeoutSeconds : ℕ := 120
  facilitatorAttempts : ℕ := 2
deriving DecidableEq, Repr

namespace AgentClients
open Waits

/-- Budget kept aside for what follows the last attempt. -/
def responseCleanupReserveSeconds : ℚ := 5

def facilitatorBackoffSeconds : ℚ := 5

inductive AgentError where
  | callFailure (error : ErrorBody)
  | transportError (message : Text)
  | deadlineExceeded (message : Text)
  /-- Any other exception, with its text. -/
  | other (text : Text)
deriving DecidableEq, Repr

inductive Kind where
  | short | facilitator
deriving DecidableEq, Repr

def attempts (settings : Settings) : Kind → ℕ
  | .short => settings.shortCallAttempts
  | .facilitator => settings.facilitatorAttempts

def timeout (settings : Settings) : Kind → ℕ
  | .short => settings.shortCallTimeoutSeconds
  | .facilitator => settings.facilitatorTimeoutSeconds

section Policy
variable {L A ε : Type}

/-- `min(policy timeout, remaining budget - reserve)`; `expired` when nothing remains. -/
def clampedTimeout (policy : ℚ) (expired : ε) (deadlineAt : ℚ) : Waits L A ε ℚ :=
  .time fun now =>
    let remaining := deadlineAt - now - responseCleanupReserveSeconds
    if remaining ≤ 0 then .raise expired else .ret (min policy remaining)

/-- A call with a clamped timeout. -/
def clampedCall (label : L) (policy : ℚ) (expired : ε) (deadlineAt : ℚ) : Waits L A ε A :=
  (clampedTimeout policy expired deadlineAt).bind fun timeout => .call label timeout .ret

/-- A deadline of zero is taken for none. -/
def deadlineAt (settings : Settings) (deadline : Option ℚ) : Waits L A ε ℚ :=
  match deadline.filter fun d => decide (d ≠ 0) with
  | some d => .ret d
  | none => .time fun now => .ret (now + settings.requestDeadlineSeconds)

/-- The deadline of a call that starts at `now`. -/
def effectiveDeadline (settings : Settings) (deadline : Option ℚ) (now : ℚ) : ℚ :=
  (deadline.filter fun d => decide (d ≠ 0)).getD (now + settings.requestDeadlineSeconds)

/-- `base * (0.5 + rng())` for a base of one second, then two; five for the facilitator. -/
def backoffDelay (kind : Kind) (attempt : ℕ) : Waits L A ε ℚ :=
  match kind with
  | .facilitator => .ret facilitatorBackoffSeconds
  | .short => .random fun r => .ret ((if attempt - 1 = 0 then 1 else 2) * (1 / 2 + r))

/-- No sleep that the deadline would interrupt. -/
def backoff (kind : Kind) (attempt : ℕ) (deadlineAt : ℚ) : Waits L A ε Unit :=
  (backoffDelay kind attempt).bind fun delay => .time fun now =>
    if now + delay < deadlineAt then .sleep delay (.ret ()) else .ret ()

end Policy

inductive HttpCall where
  | post
  | fetch
deriving DecidableEq, Repr

inductive HttpAnswer (B : Type) where
  | raised (text : Text)
  | response (status : ℕ) (body : B)

/-- A client of one adapter; `parseError` reads the error envelope of a body. -/
structure HttpAgentClient (B : Type) where
  settings : Settings
  kind : Kind
  parseError : B → Option ErrorBody

namespace HttpAgentClient
variable {B ρ : Type} (client : HttpAgentClient B)

abbrev Call (B : Type) := Waits HttpCall (HttpAnswer B) AgentError

/-- A malformed envelope is a failure of the upstream, retryable from 500 on. -/
def errorBody (correlationId : Uuid) (status : ℕ) (body : B) : ErrorBody :=
  (client.parseError body).getD (makeError .upstreamUnavailable
    s!"adapter returned malformed error body (HTTP {status})" correlationId (decide (500 ≤ status)))

def post (deadlineAt : ℚ) : Call B (HttpAnswer B) :=
  clampedCall .post (timeout client.settings client.kind)
    (.deadlineExceeded "request deadline budget exhausted") deadlineAt

/-- The attempts from number `attempt` on; `recover` is asked after an ambiguous one. -/
def callFrom (recover : Call B (Option B)) (correlationId : Uuid) (deadlineAt : ℚ) :
    (remaining attempt : ℕ) → Call B (B × ℕ)
  | 0, _ => .raise (.transportError "None")
  | remaining + 1, attempt => (client.post deadlineAt).bind fun
      | .raised text => recover.bind fun
          | some body => .ret (body, attempt)
          | none =>
              if remaining ≠ 0 then (backoff client.kind attempt deadlineAt).bind fun _ =>
                callFrom recover correlationId deadlineAt remaining (attempt + 1)
              else .raise (.transportError text)
      | .response status body =>
          if status = 200 then .ret (body, attempt)
          else
            let error := client.errorBody correlationId status body
            if error.retryable then recover.bind fun
              | some body => .ret (body, attempt)
              | none =>
                  if remaining ≠ 0 then (backoff client.kind attempt deadlineAt).bind fun _ =>
                    callFrom recover correlationId deadlineAt remaining (attempt + 1)
                  else .raise (.callFailure error)
            else .raise (.callFailure error)

/-- `invoke`: the body is parsed after the attempts. -/
def invoke (recover : Call B (Option B)) (parse : B × ℕ → Except AgentError ρ)
    (correlationId : Uuid) (deadline : Option ℚ) : Call B ρ :=
  (deadlineAt client.settings deadline).bind fun deadlineAt =>
    (client.callFrom recover correlationId deadlineAt (attempts client.settings client.kind)
      1).bind fun answer => ofExcept (parse answer)

end HttpAgentClient

/-- The reviewers' and the synthesis client. -/
def shortClient {B : Type} (settings : Settings) (parseError : B → Option ErrorBody) :
    HttpAgentClient B :=
  ⟨settings, .short, parseError⟩

def facilitatorClient {B : Type} (settings : Settings) (parseError : B → Option ErrorBody) :
    HttpAgentClient B :=
  ⟨settings, .facilitator, parseError⟩

/-- Reviewers and synthesis recover nothing. -/
def HttpReviewerClient.invoke {B ρ : Type} (settings : Settings)
    (parseError : B → Option ErrorBody) (parse : B × ℕ → Except AgentError ρ)
    (correlationId : Uuid) (deadline : Option ℚ) : HttpAgentClient.Call B ρ :=
  (shortClient settings parseError).invoke (.ret none) parse correlationId deadline

namespace HttpFacilitatorClient

/-- Lookup budget of the reconciliation. -/
def reconcileTimeoutSeconds : ℚ := 10

/-- The stored result of the invocation; `fetches` tells whether a fetch is configured. -/
def recover {B : Type} (fetches : Bool) : HttpAgentClient.Call B (Option B) :=
  if fetches then .call .fetch reconcileTimeoutSeconds fun
    | .raised _ => .ret none
    | .response status body => .ret (if status = 200 then some body else none)
  else .ret none

def invoke {B ρ : Type} (settings : Settings) (parseError : B → Option ErrorBody)
    (fetches : Bool) (parse : B × ℕ → Except AgentError ρ) (correlationId : Uuid)
    (deadline : Option ℚ) : HttpAgentClient.Call B ρ :=
  (facilitatorClient settings parseError).invoke (recover fetches) parse correlationId deadline

end HttpFacilitatorClient

/-! ## Clamped calls -/

section Clamped
variable {L A ε : Type} {free : L → Prop} {deadlineAt now : ℚ}

theorem clamped_clampedCall (label : L) (policy : ℚ) (expired : ε) :
    (clampedCall label policy expired deadlineAt : Waits L A ε A).Clamped
      (deadlineAt - responseCleanupReserveSeconds) free now := by
  unfold clampedCall clampedTimeout
  simp only [Waits.bind, Waits.Clamped]
  by_cases hremaining : deadlineAt - now - responseCleanupReserveSeconds ≤ 0
  · rw [if_pos hremaining]
    trivial
  · rw [if_neg hremaining]
    refine ⟨fun _ => ?_, fun _ _ => trivial⟩
    have hle : max 0 (min policy (deadlineAt - now - responseCleanupReserveSeconds)) ≤
        deadlineAt - now - responseCleanupReserveSeconds :=
      max_le (not_le.mp hremaining).le (min_le_right _ _)
    linarith

theorem clamped_backoff (kind : Kind) (attempt : ℕ) (limit : ℚ) :
    (backoff kind attempt deadlineAt : Waits L A ε Unit).Clamped limit free now := by
  refine clamped_bind ?_ fun delay later => ?_
  · cases kind with
    | short => exact fun _ => trivial
    | facilitator => trivial
  · change (if later + delay < deadlineAt then _ else _ : Waits L A ε Unit).Clamped _ _ _
    split_ifs
    · exact fun _ => trivial
    · trivial

end Clamped

section Clients
variable {B ρ : Type} {free : HttpCall → Prop} {recover : HttpAgentClient.Call B (Option B)}
  {deadlineAt now : ℚ}

theorem HttpAgentClient.clamped_callFrom (client : HttpAgentClient B)
    (hrecover : ∀ now, recover.Clamped (deadlineAt - responseCleanupReserveSeconds) free now)
    (correlationId : Uuid) (remaining attempt : ℕ) :
    (client.callFrom recover correlationId deadlineAt remaining attempt).Clamped
      (deadlineAt - responseCleanupReserveSeconds) free now := by
  induction remaining generalizing attempt now with
  | zero => trivial
  | succ remaining ih =>
      have hretry : ∀ (error : AgentError) (later : ℚ), (if remaining ≠ 0 then
          (backoff client.kind attempt deadlineAt).bind fun _ =>
            client.callFrom recover correlationId deadlineAt remaining (attempt + 1)
          else .raise error : Call B (B × ℕ)).Clamped
            (deadlineAt - responseCleanupReserveSeconds) free later := by
        intro error later
        split_ifs
        · exact clamped_bind (clamped_backoff _ _ _) fun _ _ => ih _
        · trivial
      have hrecovered : ∀ (error : AgentError) (later : ℚ), (recover.bind fun
          | some body => .ret (body, attempt)
          | none => if remaining ≠ 0 then (backoff client.kind attempt deadlineAt).bind fun _ =>
              client.callFrom recover correlationId deadlineAt remaining (attempt + 1)
            else .raise error : Call B (B × ℕ)).Clamped
              (deadlineAt - responseCleanupReserveSeconds) free later := by
        intro error later
        refine clamped_bind (hrecover later) fun body later' => ?_
        cases body with
        | some body => trivial
        | none => exact hretry error later'
      refine clamped_bind (clamped_clampedCall _ _ _) fun answer later => ?_
      cases answer with
      | raised text => exact hrecovered _ later
      | response status body =>
          by_cases hok : status = 200
          · simp only [hok, if_true]
            trivial
          · simp only [hok, if_false]
            cases (client.errorBody correlationId status body).retryable with
            | true => exact hrecovered _ later
            | false => trivial

/-- All that follows once the deadline is known. -/
theorem clamped_deadlineAt {L A ε α : Type} {free : L → Prop} {limit now : ℚ}
    (settings : Settings) (deadline : Option ℚ) {g : ℚ → Waits L A ε α}
    (hg : (g (effectiveDeadline settings deadline now)).Clamped limit free now) :
    ((AgentClients.deadlineAt settings deadline).bind g).Clamped limit free now := by
  unfold AgentClients.deadlineAt
  unfold effectiveDeadline at hg
  cases h : deadline.filter fun d => decide (d ≠ 0) with
  | some d =>
      rw [h] at hg
      exact hg
  | none =>
      rw [h] at hg
      exact hg

theorem HttpAgentClient.clamped_invoke (client : HttpAgentClient B)
    (parse : B × ℕ → Except AgentError ρ) (correlationId : Uuid) (deadline : Option ℚ)
    (hrecover : ∀ limit now, recover.Clamped limit free now) :
    (client.invoke recover parse correlationId deadline).Clamped
      (effectiveDeadline client.settings deadline now - responseCleanupReserveSeconds) free now :=
  clamped_deadlineAt _ _ (clamped_bind (client.clamped_callFrom (hrecover _) _ _ _)
    fun _ _ => clamped_ofExcept _)

theorem HttpFacilitatorClient.clamped_recover (fetches : Bool) (limit : ℚ) :
    (HttpFacilitatorClient.recover fetches : HttpAgentClient.Call B (Option B)).Clamped limit
      (· = .fetch) now := by
  unfold HttpFacilitatorClient.recover
  split_ifs
  · refine ⟨fun hpost => absurd rfl hpost, fun answer later => ?_⟩
    cases answer <;> trivial
  · trivial

end Clients
end AgentClients
end StoryReview
