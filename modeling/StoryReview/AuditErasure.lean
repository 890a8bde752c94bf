import StoryReview.AuditTrail
import StoryReview.Conduct
import StoryReview.Scenarios
import StoryReview.SilentSteps

/-!
# The audit trail is transparent

Without its recording steps an audited flow is the flow it audits, as long as every agent
reports audit fields that a record accepts.
-/
namespace StoryReview

/-- A record of the agent's run accepts these fields. -/
structure Provenance.Accepted (provenance : Provenance) (agent : Agent) : Prop where
  agentVersion : (SessionsApi.shortText provenance.agentVersion).isSome
  promptSha256 : isSha256 provenance.promptSha256
  attempts : AttemptLimits agent provenance.transportAttempts
    (Audit.correctiveReprompts agent provenance)

namespace Audit
open Program Flows

/-- Every agent's audit fields are accepted. -/
def Attested (c : AuditedChoice) : Prop := ∀ agent, (c.provenance agent).Accepted agent

/-- Without its recording steps `p` is `q`. -/
abbrev Audits {α' α : Type} (R : α' → α → Prop) (p : Audited α') (q : Orchestration α) : Prop :=
  Refines Attested AuditedWorld.world AuditedChoice.toChoice R p q

/-- The agent's result, from a run whose audit fields are accepted. -/
def Timed {α : Type} (agent : Agent) (timed : TimedResult α) (result : α) : Prop :=
  timed.result = result ∧ timed.provenance.Accepted agent

/-- A run that can be recorded. -/
structure AgentRun.Recordable (run : AgentRun) : Prop where
  accepted : run.invoked.provenance.Accepted run.agent
  references_le : run.inputReferences.length ≤ 20 ∧ run.outputReferences.length ≤ 20

/-! ## Recording -/

theorem audits_unaudited {α : Type} (p : Orchestration α) : Audits Eq (unaudited p) p :=
  .zoom (fun _ _ => rfl) p

theorem audits_timedInvoke {α : Type} (agent : Agent) (invoke : Orchestration α) :
    Audits (Timed agent) (timedInvoke agent invoke) invoke := by
  refine .atomic_bind (fun _ _ => rfl) fun _ _ _ => ?_
  refine .followed (audits_unaudited invoke) fun result _ hresult => ?_
  refine .atomic_bind (fun _ _ => rfl) fun c _ hc => ?_
  exact .atomic_bind (fun _ _ => rfl) fun _ _ _ => .ret ⟨hresult, hc agent⟩

theorem agentRunRecord_ok {run : AgentRun} (hrun : run.Recordable) (id : AgentRunId)
    (storyRunId : RunId) (sessionId : SessionId) (correlationId : Uuid) :
    ∃ record, agentRunRecord id run storyRunId sessionId correlationId = .ok record := by
  obtain ⟨version, hversion⟩ := Option.isSome_iff_exists.mp hrun.accepted.agentVersion
  unfold agentRunRecord
  simp only [hversion]
  rw [dif_pos ⟨hrun.accepted.promptSha256, hrun.references_le, hrun.accepted.attempts⟩]
  exact ⟨_, rfl⟩

theorem world_insertAgentRun (record : AgentRunRecord) (t : AuditedWorld) :
    (insertAgentRun record t).2.world = t.world := by
  unfold insertAgentRun
  split <;> rfl

/-- Recording is silent. -/
theorem audits_recordLabelled (key : IdempotencyKey) (correlationId : Uuid)
    (storyRunId : RunId) (sessionId : SessionId) (label : RunLabel) {run : AgentRun}
    (hrun : run.Recordable) :
    Audits Eq (recordLabelled key correlationId storyRunId sessionId label run) (.ret ()) := by
  obtain ⟨record, hrecord⟩ :=
    agentRunRecord_ok hrun ⟨key, label⟩ storyRunId sessionId correlationId
  unfold recordLabelled
  rw [hrecord]
  exact .silent (fun _ => world_insertAgentRun record) fun _ _ _ => .ret rfl

theorem audits_recordAgentRuns (key : IdempotencyKey) (correlationId : Uuid)
    (storyRunId : RunId) (sessionId : SessionId) {runs : List AgentRun}
    (hruns : ∀ run ∈ runs, run.Recordable) :
    Audits Eq (recordAgentRuns key correlationId storyRunId sessionId runs) (.ret ()) := by
  refine .skip (S := fun _ _ => True) (b := ()) ?_ fun _ => .ret rfl
  induction runs with
  | nil => exact .ret trivial
  | cons run runs ih =>
      obtain ⟨hrun, hruns⟩ := List.forall_mem_cons.mp hruns
      exact .skip (audits_recordLabelled _ _ _ _ _ hrun) fun _ =>
        .skip (ih hruns) fun _ => .ret trivial

theorem audits_recordRun (key : IdempotencyKey) (correlationId : Uuid)
    (session : SessionRecord) (turnNumber : ℕ) {run : AgentRun} (hrun : run.Recordable)
    (label : Option RunLabel) :
    Audits Eq (recordRun key correlationId session turnNumber run label) (.ret ()) :=
  audits_recordLabelled _ _ _ _ _ hrun

/-! ## Flow 1 -/

theorem audits_fanOutReviewers (story : StoryDetail) (correlationId : Uuid) :
    Audits (fun timed reviews => Timed .businessReviewer timed.1 reviews.1 ∧
        Timed .engineeringReviewer timed.2 reviews.2)
      (fanOutReviewers story correlationId) (Flows.fanOutReviewers story correlationId) := by
  refine .tryCatch ?_ fun e => .raise _
  refine .bind (audits_timedInvoke _ _) ?_
  rintro business _ ⟨rfl, hbusiness⟩
  refine .bind (audits_timedInvoke _ _) ?_
  rintro engineering _ ⟨rfl, hengineering⟩
  exact .ret ⟨⟨rfl, hbusiness⟩, rfl, hengineering⟩

theorem audits_openingArtifacts (story : StoryDetail) (runId : RunId) (sessionId : SessionId)
    (key : IdempotencyKey) (correlationId : Uuid) :
    Audits Eq (openingArtifacts story runId sessionId key correlationId)
      (Flows.openingArtifacts story runId sessionId key correlationId) := by
  refine .bind (audits_unaudited _) fun _ _ _ => ?_
  refine .bind (audits_unaudited _) ?_
  rintro storyReference _ rfl
  refine .bind (audits_fanOutReviewers story correlationId) ?_
  rintro ⟨business, engineering⟩ ⟨_, _⟩ ⟨⟨rfl, hbusiness⟩, rfl, hengineering⟩
  refine .bind (audits_unaudited _) ?_
  rintro businessReference _ rfl
  refine .bind (audits_unaudited _) ?_
  rintro engineeringReference _ rfl
  refine .skip (audits_recordAgentRuns _ _ _ _ ?_) fun _ => ?_
  · simp only [List.forall_mem_cons]
    exact ⟨⟨hbusiness, by simp⟩, ⟨hengineering, by simp⟩, by simp⟩
  refine .bind (audits_unaudited _) fun _ _ _ => ?_
  refine .bind (.tryCatch (audits_timedInvoke _ _) fun e => .raise _) ?_
  rintro report _ ⟨rfl, hreport⟩
  refine .bind (audits_unaudited _) ?_
  rintro synthesis _ rfl
  refine .skip (audits_recordAgentRuns _ _ _ _ ?_) fun _ => .ret rfl
  simp only [List.forall_mem_cons]
  exact ⟨⟨hreport, by simp⟩, by simp⟩

theorem audits_openingOutput (sessionId : SessionId) (key : IdempotencyKey)
    (report : SynthesisReport) (reference : ArtifactReference)
    (evidence : List ArtifactReference) (correlationId : Uuid) :
    Audits (Timed .facilitator)
      (openingOutput sessionId key report reference evidence correlationId)
      (Flows.openingOutput sessionId key report reference evidence correlationId) := by
  refine .bind (.tryCatch (audits_timedInvoke _ _) fun e => ?_) ?_
  · cases e <;> exact .raise _
  · rintro facilitator _ ⟨rfl, haccepted⟩
    exact .bind (.ofExcept fun _ _ => rfl) fun _ _ _ => .ret ⟨rfl, haccepted⟩

theorem audits_initialPipeline (story : StoryDetail) (runId : RunId) (sessionId : SessionId)
    (key : IdempotencyKey) (correlationId : Uuid) :
    Audits Eq (initialPipeline story runId sessionId key correlationId)
      (Flows.initialPipeline story runId sessionId key correlationId) := by
  refine .bind (audits_openingArtifacts _ _ _ _ _) ?_
  rintro artifacts _ rfl
  refine .bind (audits_unaudited _) fun _ _ _ => ?_
  refine .bind (audits_openingOutput _ _ _ _ _ _) ?_
  rintro facilitator _ ⟨rfl, haccepted⟩
  refine .bind (audits_unaudited _) ?_
  rintro createdAt _ rfl
  refine .bind (audits_unaudited _) ?_
  rintro completedAt _ rfl
  refine .bind (audits_unaudited _) ?_
  rintro turn _ rfl
  refine .skip (audits_recordAgentRuns _ _ _ _ ?_) fun _ => ?_
  · simp only [List.forall_mem_cons]
    exact ⟨⟨haccepted, by simp⟩, by simp⟩
  refine .bind (audits_unaudited _) fun _ _ _ => ?_
  refine .bind (.ofExcept fun _ _ => rfl) ?_
  rintro response _ rfl
  refine .bind (audits_unaudited _) fun _ _ _ => ?_
  exact .bind (audits_unaudited _) fun _ _ _ => .ret rfl

theorem audits_runCreateSession (payload : CreateSessionRequest) (key : IdempotencyKey)
    (correlationId : Uuid) (userId : UserId) :
    Audits Eq (runCreateSession payload key correlationId userId)
      (Flows.runCreateSession payload key correlationId userId) := by
  refine .bind (audits_unaudited _) ?_
  rintro claim _ rfl
  cases claim with
  | replay response =>
      cases response with
      | none => exact .raise _
      | some response =>
          cases response with
          | created response => exact .ofExcept fun _ _ => rfl
          | _ => exact .raise _
  | _ =>
      refine .bind (audits_unaudited _) ?_
      rintro story _ rfl
      refine .bind (audits_unaudited _) ?_
      rintro createdAt _ rfl
      refine .bind (audits_unaudited _) ?_
      rintro storyRun _ rfl
      refine .bind (audits_unaudited _) ?_
      rintro createdAt _ rfl
      refine .bind (audits_unaudited _) ?_
      rintro session _ rfl
      exact .ite (.bind (audits_unaudited _) fun _ _ _ => .raise _)
        (.tryCatch (audits_initialPipeline _ _ _ _ _) fun e => audits_unaudited _)

theorem audits_postSession (payload : CreateSessionRequest) (key : IdempotencyKey)
    (correlationId : Uuid) (userId : UserId) :
    Audits Eq (postSession payload key correlationId userId)
      (StoryReview.postSession payload key correlationId userId) := by
  refine .tryCatch (audits_runCreateSession _ _ _ _) fun e => ?_
  cases e <;> exact .raise _

/-! ## Flow 2 -/

theorem audits_executeDelegation (session : SessionRecord) (story : StoryDetail)
    (references : List ArtifactReference) (delegation : DelegationDecision)
    (key : IdempotencyKey) (turnNumber : ℕ) (correlationId : Uuid) :
    Audits Eq
      (executeDelegation session story references delegation key turnNumber correlationId)
      (TurnExecution.executeDelegation session story references delegation key
        correlationId) := by
  refine .bind (S := List.Forall₂ fun request' request =>
    request'.1 = request.1 ∧ request'.2.2 = request.2) ?_ fun requests' requests hrequests => ?_
  · refine .traverse (S := Eq) ?_ (List.forall₂_same.mpr fun _ _ => rfl)
    rintro p _ rfl
    suffices hrequest : Audits _ _ (((Program.ofExcept (Lineage.latest references (.review p)
        (some p) correlationId)).bind fun previousReference =>
          (Lineage.reviewReport previousReference correlationId).bind fun previous =>
            .ret (⟨story, some previous, delegation.extraContext⟩ : ReviewerInvocation)).bind
              fun request => .ret (p, request)) from hrequest
    rw [bind_assoc]
    refine .bind (S := Eq) (.ofExcept fun _ _ => rfl) ?_
    rintro previousReference _ rfl
    rw [bind_assoc]
    refine .bind (audits_unaudited _) ?_
    rintro previous _ rfl
    exact .ret ⟨rfl, rfl⟩
  refine .bind (S := List.Forall₂ fun result' result => result'.1 = result.1 ∧
    Timed (.reviewer result.1) result'.2.2 result.2) (.tryCatch (.traverse ?_ hrequests)
      fun e => .raise _) fun results' results hresults => ?_
  · rintro ⟨p, previousReference, request⟩ ⟨_, _⟩ ⟨rfl, rfl⟩
    refine .bind (audits_timedInvoke _ _) ?_
    rintro result _ ⟨rfl, haccepted⟩
    exact .ret ⟨rfl, rfl, haccepted⟩
  · refine (Refines.traverse (R := Eq) ?_ hresults).mono fun _ _ h => List.forall₂_eq_eq_eq ▸ h
    rintro ⟨p, previousReference, result⟩ ⟨_, _⟩ ⟨rfl, rfl, haccepted⟩
    refine .followed (audits_unaudited _) ?_
    rintro reference _ rfl
    exact .skip (audits_recordRun _ _ _ _ ⟨haccepted, by simp⟩ _) fun _ => .ret rfl

theorem audits_maybeSynthesize (session : SessionRecord)
    (newReviewReferences : List ArtifactReference) (reusePrevious : Bool)
    (key : IdempotencyKey) (turnNumber : ℕ) (correlationId : Uuid)
    (fallbackSynthesis : ArtifactReference) :
    Audits Eq (maybeSynthesize session newReviewReferences reusePrevious key turnNumber
        correlationId fallbackSynthesis)
      (TurnExecution.maybeSynthesize session newReviewReferences reusePrevious key
        correlationId fallbackSynthesis) := by
  unfold maybeSynthesize TurnExecution.maybeSynthesize
  split_ifs
  · exact .ret rfl
  · refine .bind (audits_unaudited _) ?_
    rintro references _ rfl
    refine .bind (audits_unaudited _) ?_
    rintro business _ rfl
    refine .bind (audits_unaudited _) ?_
    rintro engineering _ rfl
    refine .bind (.tryCatch (audits_timedInvoke _ _) fun e => .raise _) ?_
    rintro report _ ⟨rfl, haccepted⟩
    refine .bind (audits_unaudited _) ?_
    rintro reference _ rfl
    exact .skip (audits_recordRun _ _ _ _ ⟨haccepted, by simp⟩ _) fun _ => .ret rfl

theorem evidence_ok {references evidence : List ArtifactReference} {correlationId : Uuid}
    (h : Lineage.evidence references correlationId = .ok evidence) :
    ∃ story business engineering,
      Lineage.latest references .story none correlationId = .ok story ∧
      Lineage.latest references .reviewBusiness (some .business) correlationId = .ok business ∧
      Lineage.latest references .reviewEngineering (some .engineering) correlationId =
        .ok engineering ∧ evidence = [story, business, engineering] := by
  unfold Lineage.evidence at h
  cases hstory : Lineage.latest references .story none correlationId with
  | error e =>
      rw [hstory] at h
      cases h
  | ok story =>
      cases hbusiness : Lineage.latest references .reviewBusiness (some .business)
          correlationId with
      | error e =>
          rw [hstory, hbusiness] at h
          cases h
      | ok business =>
          cases hengineering : Lineage.latest references .reviewEngineering
              (some .engineering) correlationId with
          | error e =>
              rw [hstory, hbusiness, hengineering] at h
              cases h
          | ok engineering =>
              rw [hstory, hbusiness, hengineering] at h
              exact ⟨_, _, _, rfl, rfl, rfl, (Except.ok.inj h).symm⟩

theorem length_evidence {references evidence : List ArtifactReference} {correlationId : Uuid}
    (h : Lineage.evidence references correlationId = .ok evidence) : evidence.length = 3 := by
  obtain ⟨_, _, _, -, -, -, rfl⟩ := evidence_ok h
  rfl

open TurnsFlow

theorem audits_invokeSummaryFacilitator (session : SessionRecord) (key : IdempotencyKey)
    (turnNumber facilitatorTurn : ℕ) (message : Option Text) (report : SynthesisReport)
    (reference : ArtifactReference) (prior : Option DecisionState)
    (first : FacilitatorTurnOutput) (correlationId : Uuid) :
    Audits Eq (invokeSummaryFacilitator session key turnNumber facilitatorTurn message report
        reference prior first correlationId)
      (TurnsFlow.invokeSummaryFacilitator session key turnNumber facilitatorTurn message report
        reference prior first correlationId) := by
  refine .bind (audits_unaudited _) ?_
  rintro references _ rfl
  refine .bind (S := fun a' a => a' = a ∧ a.length = 3)
    (.ofExcept fun _ h => ⟨rfl, length_evidence h⟩) ?_
  rintro evidence _ ⟨rfl, hlength⟩
  refine .followed (S := Timed .facilitator)
    (.tryCatch (.bind (S := Eq) (.ofExcept fun _ _ => rfl) ?_) fun e => .raise _) ?_
  · rintro state _ rfl
    exact audits_timedInvoke _ _
  · rintro summary _ ⟨rfl, haccepted⟩
    exact .skip (audits_recordRun _ _ _ _ ⟨haccepted, by simp [hlength]⟩ _) fun _ => .ret rfl

theorem audits_invokeFirstFacilitator (session : SessionRecord) (key : IdempotencyKey)
    (facilitatorTurn : ℕ) (message : Option Text) (report : SynthesisReport)
    (reference : ArtifactReference) (evidence : List ArtifactReference)
    (turns : List TurnRecord) (correlationId : Uuid) :
    Audits (Timed .facilitator)
      (invokeFirstFacilitator session key facilitatorTurn message report reference evidence
        turns correlationId)
      (TurnsFlow.invokeFirstFacilitator session key facilitatorTurn message report reference
        evidence turns correlationId) := by
  refine .tryCatch (.bind (S := Eq) (.ofExcept fun _ _ => rfl) ?_) fun e => .raise _
  rintro state _ rfl
  exact audits_timedInvoke _ _

theorem audits_draftTurn (session : SessionRecord) (message : Option Text)
    (turns : List TurnRecord) (turnNumber facilitatorTurn : ℕ) (key : IdempotencyKey)
    (correlationId : Uuid) :
    Audits Eq (draftTurn session message turns turnNumber facilitatorTurn key correlationId)
      (TurnsFlow.draftTurn session message turns turnNumber facilitatorTurn key
        correlationId) := by
  refine .bind (audits_unaudited _) fun _ _ _ => ?_
  refine .bind (audits_unaudited _) ?_
  rintro ⟨story, references⟩ _ rfl
  refine .bind (S := Eq) (.ofExcept fun _ _ => rfl) ?_
  rintro synthesisReference _ rfl
  refine .bind (audits_unaudited _) ?_
  rintro report _ rfl
  refine .bind (S := fun a' a => a' = a ∧ a.length = 3)
    (.ofExcept fun _ h => ⟨rfl, length_evidence h⟩) ?_
  rintro evidence _ ⟨rfl, hlength⟩
  refine .bind (audits_invokeFirstFacilitator _ _ _ _ _ _ _ _ _) ?_
  rintro first _ ⟨rfl, haccepted⟩
  refine .skip (audits_recordRun _ _ _ _ ⟨haccepted, by simp [hlength]⟩ _) fun _ => ?_
  refine .bind (audits_unaudited _) fun _ _ _ => ?_
  refine .bind (audits_executeDelegation _ _ _ _ _ _ _) ?_
  rintro newReferences _ rfl
  refine .bind (audits_unaudited _) fun _ _ _ => ?_
  refine .bind (audits_maybeSynthesize _ _ _ _ _ _ _) ?_
  rintro ⟨reference, report⟩ _ rfl
  cases report with
  | none => exact .ret rfl
  | some report =>
      refine .bind (audits_unaudited _) fun _ _ _ => ?_
      refine .bind (S := Eq) (.ofExcept fun _ _ => rfl) ?_
      rintro prior _ rfl
      refine .bind (audits_invokeSummaryFacilitator _ _ _ _ _ _ _ _ _ _) ?_
      rintro summary _ rfl
      exact .ret rfl

theorem audits_messageTurn (session : SessionRecord) (message : Option Text)
    (turns : List TurnRecord) (turnNumber : ℕ) (key : IdempotencyKey) (correlationId : Uuid) :
    Audits Eq (messageTurn session message turns turnNumber key correlationId)
      (TurnsFlow.messageTurn session message turns turnNumber key correlationId) := by
  unfold messageTurn TurnsFlow.messageTurn
  refine .ite (.raise _) (.bind (audits_draftTurn _ _ _ _ _ _ _) ?_)
  rintro draft _ rfl
  exact audits_unaudited _

theorem audits_activeTurn (session : SessionRecord) (payload : TurnRequest)
    (key : IdempotencyKey) (correlationId : Uuid) :
    Audits Eq (activeTurn session payload key correlationId)
      (TurnsFlow.activeTurn session payload key correlationId) := by
  refine .bind (audits_unaudited _) ?_
  rintro turns _ rfl
  exact .ite (audits_unaudited _) (audits_messageTurn _ _ _ _ _ _)

theorem audits_executeTurn (sessionId : SessionId) (payload : TurnRequest)
    (key : IdempotencyKey) (correlationId : Uuid) (userId : UserId) :
    Audits Eq (executeTurn sessionId payload key correlationId userId)
      (TurnsFlow.executeTurn sessionId payload key correlationId userId) := by
  refine .bind (audits_unaudited _) ?_
  rintro claim _ rfl
  cases claim with
  | replay response => exact audits_unaudited _
  | _ =>
      refine .bind (audits_unaudited _) ?_
      rintro session _ rfl
      cases session with
      | none => exact .raise _
      | some session =>
          cases hstate : session.state with
          | active =>
              simp only [hstate]
              exact audits_activeTurn _ _ _ _
          | finalizing =>
              simp only [hstate, -reduceCtorEq]
              exact .ite (audits_unaudited _) (.bind (audits_unaudited _) fun _ _ _ => .raise _)
          | _ =>
              simp only [hstate]
              exact .bind (audits_unaudited _) fun _ _ _ => .raise _

theorem audits_runTurn (sessionId : SessionId) (payload : TurnRequest) (key : IdempotencyKey)
    (correlationId : Uuid) (userId : UserId) :
    Audits Eq (runTurn sessionId payload key correlationId userId)
      (TurnsFlow.runTurn sessionId payload key correlationId userId) := by
  refine .bind (audits_unaudited _) ?_
  rintro session _ rfl
  cases session with
  | none => exact .raise _
  | some session =>
      refine .bind (audits_unaudited _) ?_
      rintro token _ rfl
      exact .ensure (audits_executeTurn _ _ _ _ _) (audits_unaudited _)

theorem audits_postTurn (sessionId : SessionId) (payload : TurnRequest) (key : IdempotencyKey)
    (correlationId : Uuid) (userId : UserId) :
    Audits Eq (postTurn sessionId payload key correlationId userId)
      (StoryReview.postTurn sessionId payload key correlationId userId) := by
  refine .tryCatch (audits_runTurn _ _ _ _ _) fun e => ?_
  cases e <;> exact .raise _

/-- Every request is the plain request with recording steps. -/
theorem audits_program (a : Attempt) : Audits Eq a.program a.erased.program := by
  unfold Attempt.program StoryReview.Attempt.program Attempt.erased
  cases a.request with
  | createSession payload =>
      exact .bind (audits_postSession _ _ _ _) fun _ _ h => .ret (congrArg _ h)
  | turn sessionId payload =>
      exact .bind (audits_postTurn _ _ _ _ _) fun _ _ h => .ret (congrArg _ h)
  | finalize sessionId => exact audits_unaudited _
  | abandon sessionId => exact audits_unaudited _

/-! ## Runs -/

/-- The audited requests as threads, whose agents report fields that a record accepts. -/
def service {γ : Type} (aux : Attempt → γ)
    (observe : Attempt → γ → AuditedWorld → AuditedWorld → γ) :
    System Attempt γ AuditedWorld AuditedChoice PyException Response where
  program := Attempt.program
  admits := fun a c => (∃ n, a.choices n = c) ∧ Attested c
  aux := aux
  observe := observe

abbrev requests : System Attempt Unit AuditedWorld AuditedChoice PyException Response :=
  service (fun _ => ()) fun _ _ _ _ => ()

abbrev AuditedPool := Pool Attempt Unit AuditedWorld AuditedChoice PyException Response

theorem map_origin {γ γ' : Type} {running' : List (Thread Attempt γ' AuditedWorld AuditedChoice
      PyException Response)}
    {running : List (Thread StoryReview.Attempt γ World Choice PyException Response)}
    (h : List.Forall₂ (Thread.Refines Attested AuditedWorld.world AuditedChoice.toChoice
      Attempt.erased) running' running) :
    running.map Thread.origin = running'.map fun thread => thread.origin.erased := by
  induction h with
  | nil => rfl
  | cons hthread _ ih => rw [List.map_cons, List.map_cons, hthread.origin, ih]

/-- Every run of the audited service, whatever its requests do at once and wherever they
die, is a run of the plain one: the same rows in the same tables, and the same answers. -/
theorem audit_is_transparent {γ : Type} (aux : StoryReview.Attempt → γ)
    (observe : StoryReview.Attempt → γ → World → World → γ) {pool : AuditedPool}
    (h : pool.Reachable requests .free {}) :
    ∃ plain : Pool StoryReview.Attempt γ World Choice PyException Response,
      plain.Reachable (StoryReview.service aux observe) .free {} ∧
      plain.state = pool.state.world ∧
      plain.finished = pool.finished.map (fun answer => (answer.1.erased, answer.2)) ∧
      plain.running.map Thread.origin =
        pool.running.map (fun thread => thread.origin.erased) := by
  have hadmits (a : Attempt) (c : AuditedChoice) (hc : requests.admits a c) :
      Attested c ∧ (StoryReview.service aux observe).admits a.erased c.toChoice :=
    ⟨hc.2, hc.1.imp fun _ hn => congrArg AuditedChoice.toChoice hn⟩
  obtain ⟨plain, hplain, hrefines⟩ := h.refines
    (S := StoryReview.service aux observe) audits_program hadmits
  exact ⟨plain, hplain, hrefines.state, hrefines.finished, map_origin hrefines.running⟩

namespace Scenario

def reported : Provenance where
  agentVersion := "1.0.0"
  promptSha256 := "e3b0c44298fc1c149afbf4c8996fb92427ae41e4649b934ca495991b7852b855"
  transportAttempts := 1

theorem accepted_reported (agent : Agent) : reported.Accepted agent := by
  cases agent <;> exact ⟨by decide +kernel, by decide +kernel, by decide⟩

/-- The request with the audit fields. -/
def audited (a : StoryReview.Attempt) : Attempt :=
  ⟨a.request, a.key, a.correlationId, a.userId,
    fun n => { toChoice := a.choices n, provenance := fun _ => reported }⟩

/-- A creation leaves four records, and the world that it leaves without them. -/
theorem audit_is_transparent_create : ∃ pool : AuditedPool,
    pool.Reachable requests .free {} ∧ pool.state.agentRuns.length = 4 ∧
    ∃ plain : Pool StoryReview.Attempt Unit World Choice PyException Response,
      plain.Reachable (StoryReview.service (fun _ => ()) fun _ _ _ _ => ()) .free {} ∧
      plain.state = pool.state.world := by
  have hrun : Pool.Reachable requests .free {} _ :=
    .alone (i := audited StoryReview.Scenario.create) (audited StoryReview.Scenario.create).choices
      [] (fun n => ⟨⟨n, rfl⟩, accepted_reported⟩) trivial fun _ _ _ => trivial
  obtain ⟨plain, hplain, hstate, -, -⟩ :=
    audit_is_transparent (fun _ => ()) (fun _ _ _ _ => ()) hrun
  exact ⟨_, hrun, by decide +kernel, plain, hplain, hstate⟩

end Scenario
end Audit
end StoryReview
