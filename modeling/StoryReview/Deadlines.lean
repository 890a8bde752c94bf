import StoryReview.EngineCalls
import StoryReview.ToolCalls

/-!
# Calls under the request's deadline

Posts and tool calls are clamped to the deadline less the reserve. Back-offs, lookups at an
adapter and the queries of an engine's sessions are not.
-/
namespace StoryReview
open Waits AgentClients

/-! ## Clamped engine calls -/

namespace EngineCalls

/-- A query has a timeout of its own. -/
def EngineCall.IsQuery : EngineCall → Prop
  | .query .. => True
  | .post .. => False

section Clamped
variable {limit now deadlineAt : ℚ}

theorem clamped_query {α : Type} (reconciling : Bool) (method : QueryMethod)
    (session : Option Text) (read : WireAnswer → Except AgentError α) :
    (query reconciling method session read).Clamped limit EngineCall.IsQuery now :=
  ⟨fun hpost => absurd trivial hpost, fun _ _ => clamped_ofExcept _⟩

theorem clamped_resolveSession (lib : Library) (reconciling : Bool) (sessionId : SessionId) :
    (resolveSession lib reconciling sessionId).Clamped limit EngineCall.IsQuery now := by
  refine clamped_bind (clamped_query _ _ _ _) fun session later => ?_
  cases session with
  | some session => trivial
  | none => exact clamped_query _ _ _ _

theorem clamped_retry {α : Type} {free : EngineCall → Prop} (kind : Kind)
    (remaining attempt : ℕ) {next : Call α} (hnext : ∀ later, next.Clamped limit free later) :
    ((if remaining ≠ 0 then backoff kind attempt deadlineAt else .ret ()).bind
      fun _ => next).Clamped limit free now := by
  refine clamped_bind ?_ fun _ later => hnext later
  split_ifs
  · exact clamped_backoff _ _ _
  · trivial

theorem AeReviewerClient.clamped_streamFrom (lib : Library) (settings : Settings)
    (message : Text) (correlationId : Uuid) (remaining attempt : ℕ)
    (lastError : Option AgentError) :
    (streamFrom lib settings message correlationId deadlineAt remaining attempt
      lastError).Clamped (deadlineAt - responseCleanupReserveSeconds) (fun _ => False) now := by
  induction remaining generalizing attempt lastError now with
  | zero => rcases lastError with _ | (_ | _ | _ | _) <;> trivial
  | succ remaining ih =>
      have hretry : ∀ (error : AgentError) (later : ℚ),
          ((if remaining ≠ 0 then backoff .short attempt deadlineAt else .ret ()).bind fun _ =>
            streamFrom lib settings message correlationId deadlineAt remaining (attempt + 1)
              (some error)).Clamped (deadlineAt - responseCleanupReserveSeconds)
                (fun _ => False) later :=
        fun error later => clamped_retry _ _ _ fun _ => ih _ _
      refine clamped_bind (clamped_clampedCall _ _ _) fun answer later => ?_
      rcases posted lib correlationId answer with exc | error | exc | reply
      · exact hretry exc later
      · exact clamped_ite (hretry _ later) trivial
      · trivial
      · exact clamped_ite (hretry _ later) trivial

namespace AeFacilitatorClient
variable (client : AeFacilitatorClient) (request : FacilitatorInvocation) (correlationId : Uuid)

theorem clamped_recover : (client.recover request).Clamped limit EngineCall.IsQuery now :=
  clamped_tryCatch (clamped_bind (clamped_resolveSession _ _ _) fun _ _ => clamped_query _ _ _ _)
    fun _ _ => trivial

theorem clamped_reconcile {α : Type} {g : Option Body → Call α}
    (hsome : ∀ body later, (g (some body)).Clamped limit EngineCall.IsQuery later)
    (hnone : ∀ later, (g none).Clamped limit EngineCall.IsQuery later) :
    ((client.recover request).bind g).Clamped limit EngineCall.IsQuery now := by
  refine clamped_bind (client.clamped_recover request) fun body later => ?_
  cases body with
  | some body => exact hsome body later
  | none => exact hnone later

theorem clamped_attemptsFrom (session : Text) (remaining attempt : ℕ)
    (lastError : Option AgentError) :
    (client.attemptsFrom request correlationId deadlineAt session remaining attempt
      lastError).Clamped (deadlineAt - responseCleanupReserveSeconds) EngineCall.IsQuery now := by
  induction remaining generalizing attempt lastError now with
  | zero => trivial
  | succ remaining ih =>
      have hretry : ∀ (exc : AgentError) (later : ℚ),
          ((if remaining ≠ 0 then backoff .facilitator attempt deadlineAt else .ret ()).bind
            fun _ => client.attemptsFrom request correlationId deadlineAt session remaining
              (attempt + 1) (some exc)).Clamped (deadlineAt - responseCleanupReserveSeconds)
                EngineCall.IsQuery later :=
        fun exc later => clamped_retry _ _ _ fun _ => ih _ _
      refine clamped_bind (clamped_clampedCall _ _ _) fun answer later => ?_
      rcases posted client.lib correlationId answer with exc | error | exc | reply
      · exact client.clamped_reconcile request (fun _ _ => trivial) (hretry exc)
      · exact clamped_ite
          (client.clamped_reconcile request (fun _ _ => trivial) (hretry _)) trivial
      · trivial
      · exact clamped_ite
          (client.clamped_reconcile request (fun _ _ => trivial) (hretry _))
          (clamped_bind (clamped_ofExcept _) fun _ _ => trivial)

theorem clamped_correctiveTurn (session reasons : Text) :
    (client.correctiveTurn request correlationId deadlineAt session reasons).Clamped
      (deadlineAt - responseCleanupReserveSeconds) EngineCall.IsQuery now := by
  refine clamped_bind (clamped_clampedCall _ _ _) fun answer later => ?_
  rcases posted client.lib correlationId answer with exc | error | exc | reply
  · trivial
  · trivial
  · trivial
  · exact clamped_ite trivial trivial

theorem clamped_recoveredOutput :
    (client.recoveredOutput request).Clamped limit EngineCall.IsQuery now := by
  refine clamped_bind (client.clamped_recover request) fun body later => ?_
  cases body with
  | none => trivial
  | some body =>
      dsimp only
      rcases client.lib.modelValidateJson (client.lib.dumps body.output) with e | output <;> trivial

theorem clamped_correction (session : Text) (reason : Option Text) :
    (client.correction request correlationId deadlineAt session reason).Clamped
      (deadlineAt - responseCleanupReserveSeconds) EngineCall.IsQuery now := by
  refine clamped_tryCatch (clamped_bind (client.clamped_correctiveTurn _ _ _ _)
    fun reply later => ?_) fun exc later => ?_
  · rcases client.lib.modelValidateJson reply with e | output <;> trivial
  · cases exc with
    | transportError message =>
        refine clamped_bind (client.clamped_recoveredOutput request) fun output later => ?_
        cases output <;> trivial
    | callFailure error =>
        refine clamped_bind (client.clamped_recoveredOutput request) fun output later => ?_
        cases output <;> trivial
    | deadlineExceeded message => trivial
    | other text => trivial

theorem clamped_turnWithCorrections (session : Text) (remaining : ℕ)
    (output : Option FacilitatorTurnOutput) (reason : Option Text) :
    (client.turnWithCorrections request correlationId deadlineAt session remaining output
      reason).Clamped (deadlineAt - responseCleanupReserveSeconds) EngineCall.IsQuery now := by
  induction remaining generalizing output reason now with
  | zero =>
      unfold turnWithCorrections
      rcases AgentEngine.FacilitatorClient.judge request output reason with reason | output <;> trivial
  | succ remaining ih =>
      unfold turnWithCorrections
      rcases AgentEngine.FacilitatorClient.judge request output reason with reason | output
      · exact clamped_bind (client.clamped_correction _ _ _ _) fun _ _ => ih _ _
      · trivial

theorem clamped_settle (session : Text) (attempted : Option Body × ℕ × Option AgentError) :
    (client.settle request correlationId deadlineAt session attempted).Clamped
      (deadlineAt - responseCleanupReserveSeconds) EngineCall.IsQuery now := by
  obtain ⟨_ | body, attempts, lastError⟩ := attempted
  · rcases lastError with _ | (_ | _ | _ | _) <;> trivial
  · exact clamped_bind (clamped_ofExcept _) fun _ _ =>
      clamped_bind (client.clamped_turnWithCorrections _ _ _ _ _ _) fun _ _ => trivial

theorem clamped_invoke (deadline : Option ℚ) :
    (client.invoke request correlationId deadline).Clamped
      (effectiveDeadline client.settings deadline now - responseCleanupReserveSeconds)
      EngineCall.IsQuery now :=
  clamped_deadlineAt _ _ (clamped_bind (clamped_resolveSession _ _ _) fun _ _ =>
    clamped_bind (client.clamped_attemptsFrom _ _ _ _ _ _) fun _ _ =>
      client.clamped_settle _ _ _ _)

end AeFacilitatorClient

theorem AeReviewerClient.clamped_invoke {ρ : Type} (lib : Library) (settings : Settings)
    (message : Text) (parse : Text × ℕ → Except AgentError ρ) (correlationId : Uuid)
    (deadline : Option ℚ) :
    (invoke lib settings message parse correlationId deadline).Clamped
      (effectiveDeadline settings deadline now - responseCleanupReserveSeconds)
      (fun _ => False) now :=
  clamped_deadlineAt _ _ (clamped_bind (clamped_streamFrom _ _ _ _ _ _ _)
    fun _ _ => clamped_ofExcept _)

end Clamped
end EngineCalls

/-! ## Clamped tool calls -/

namespace ToolCalls.McpClient
variable {P : Type} (client : McpClient) {limit now deadlineAt : ℚ}

theorem clamped_handle (attempt : ℕ) {retry : Option (Call P P)}
    (hretry : ∀ next ∈ retry, ∀ later, next.Clamped limit (fun _ => False) later)
    (attempted : Attempted P) :
    (client.handle attempt retry attempted).Clamped limit (fun _ => False) now := by
  have hslept : ∀ next ∈ retry, ((ToolCalls.backoff attempt).bind fun _ => next).Clamped limit
      (fun _ => False) now := fun next hnext _ later => hretry next hnext later
  rcases attempted with p | exc
  · trivial
  · unfold handle
    dsimp only
    split
    · split
      · next hsome => exact hslept _ (Option.filter_eq_some_iff.mp hsome).1
      · trivial
    · refine clamped_ite ?_ trivial
      split
      · exact hslept _ rfl
      · trivial

theorem clamped_callFrom (remaining attempt : ℕ) :
    (client.callFrom deadlineAt remaining attempt : Call P P).Clamped
      (deadlineAt - responseCleanupReserveSeconds) (fun _ => False) now := by
  induction remaining generalizing attempt now with
  | zero => trivial
  | succ remaining ih =>
      refine clamped_bind (clamped_clampedCall _ _ _) fun attempted later => ?_
      refine client.clamped_handle attempt (fun next hnext later => ?_) attempted
      split_ifs at hnext
      · cases hnext
      · obtain rfl := Option.some.inj hnext
        exact ih _

theorem clamped_call (deadline : Option ℚ) :
    (client.call deadline : Call P P).Clamped
      (deadline.getD (now + client.settings.requestDeadlineSeconds) -
        responseCleanupReserveSeconds) (fun _ => False) now := by
  cases deadline with
  | some deadlineAt => exact client.clamped_callFrom _ _
  | none => exact client.clamped_callFrom _ _

end ToolCalls.McpClient

/-! ## Downstream calls -/

section Downstream
variable {L A ε α : Type}

/-- A run respects its deadline exactly when it starts by then, every back-off that it enters
is shorter than the time left, and every call that is `free` ends in the time left. -/
def RespectsExactly (p : Waits L A ε α) (deadlineAt : ℚ → ℚ) (free : L → Prop) : Prop :=
  ∀ (env : Surroundings A) (clock : Clock),
    let limit := deadlineAt clock.now - responseCleanupReserveSeconds
    (p.run env clock).Respects limit ↔ clock.now ≤ limit ∧ p.Fits env limit free clock

open EngineCalls ToolCalls

/-- The calls of reviewers, synthesis and facilitator, of either tier, and of the tools. -/
theorem downstreamCalls_respectExactly {B P ρ : Type} (settings : Settings)
    (deadline : Option ℚ) (correlationId : Uuid) :
    let deadlineAt := effectiveDeadline settings deadline
    (∀ (parseError : B → Option ErrorBody) (parse : B × ℕ → Except AgentError ρ),
      RespectsExactly (HttpReviewerClient.invoke settings parseError parse correlationId deadline)
        deadlineAt fun _ => False) ∧
    (∀ (parseError : B → Option ErrorBody) (fetches : Bool)
      (parse : B × ℕ → Except AgentError ρ),
      RespectsExactly (HttpFacilitatorClient.invoke settings parseError fetches parse
        correlationId deadline) deadlineAt fun call => call = .fetch) ∧
    (∀ (lib : Library) (message : Text) (parse : Text × ℕ → Except AgentError ρ),
      RespectsExactly (AeReviewerClient.invoke lib settings message parse correlationId deadline)
        deadlineAt fun _ => False) ∧
    (∀ (lib : Library) (wire : Wire) (version : Text) (request : FacilitatorInvocation),
      RespectsExactly ((⟨lib, wire, settings, version⟩ : AeFacilitatorClient).invoke request
        correlationId deadline) deadlineAt EngineCall.IsQuery) ∧
    (∀ wrapsOne : Bool,
      RespectsExactly ((⟨settings, wrapsOne⟩ : McpClient).call deadline : ToolCalls.Call P P)
        (fun now => deadline.getD (now + settings.requestDeadlineSeconds)) fun _ => False) := by
  refine ⟨?_, ?_, ?_, ?_, ?_⟩
  · intro parseError parse env clock
    exact respects_run_iff ((shortClient settings parseError).clamped_invoke parse correlationId
      deadline fun _ _ => trivial)
  · intro parseError fetches parse env clock
    exact respects_run_iff ((facilitatorClient settings parseError).clamped_invoke parse
      correlationId deadline fun limit _ => HttpFacilitatorClient.clamped_recover fetches limit)
  · intro lib message parse env clock
    exact respects_run_iff (AeReviewerClient.clamped_invoke lib settings message parse
      correlationId deadline)
  · intro lib wire version request env clock
    exact respects_run_iff (AeFacilitatorClient.clamped_invoke ⟨lib, wire, settings, version⟩
      request correlationId deadline)
  · intro wrapsOne env clock
    exact respects_run_iff (McpClient.clamped_call ⟨settings, wrapsOne⟩ deadline)

end Downstream

namespace Scenario

/-- Half a second for every call, which fails, and jitters of one half. -/
def failing {A : Type} (failure : A) : Surroundings A :=
  ⟨fun _ => (1 / 2, failure), fun _ => 1 / 2, failure, fun _ => by norm_num⟩

/-- Six seconds before the deadline a tool and a reviewer are called; both calls sleep past
the reserve. -/
theorem backoffs_overrun :
    ¬ (((⟨{}, false⟩ : ToolCalls.McpClient).call (some 300) : ToolCalls.Call Unit Unit).run
      (failing (.raised (.leaf (.exception "connection refused")))) { now := 294 }).Respects
        (300 - responseCleanupReserveSeconds) ∧
    ¬ ((HttpReviewerClient.invoke {} (fun _ : Unit => none) .ok 0 (some 300)).run
      (failing (.raised "connection refused")) { now := 294 }).Respects
        (300 - responseCleanupReserveSeconds) :=
  ⟨fun h => absurd h.1 (by decide +kernel), fun h => absurd h.1 (by decide +kernel)⟩

end Scenario
end StoryReview
