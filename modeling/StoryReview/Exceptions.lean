import StoryReview.Endpoints
import StoryReview.StepConditions

/-!
# Exceptions of the service

Most of what a request does raises an exception of its own kind, which no endpoint turns
into a conflict: a record that is not valid, a missing row, a service that does not answer.
A predicate on exceptions that lets these pass is decided where a request raises others.
-/
namespace StoryReview
open Program

/-- The exception carries no response, and it is not about a lease. -/
def PyException.Plain : PyException → Prop
  | .apiError _ => False
  | .finalizationFailed _ _ => False
  | .sessionLocked _ => False
  | _ => True

/-- What reads and saves raise, mapped or not. -/
def PyException.Unconflicted : PyException → Prop
  | .apiError error => error.statusCode ≠ 409
  | e => e.Plain

/-- The predicate lets the exceptions of tables and reads pass. -/
structure Routine (P : PyException → Prop) : Prop where
  plain : ∀ e, e.Plain → P e
  upstream : ∀ message correlationId agent, P (Flows.upstream message correlationId agent)

/-- The predicate lets those of flow 3 pass too. -/
structure Closing (P : PyException → Prop) : Prop extends Routine P where
  failed : ∀ error retryable, error.statusCode ≠ 409 → P (.finalizationFailed error retryable)

theorem routine_unconflicted : Routine PyException.Unconflicted := by
  refine ⟨fun e he => ?_, fun _ _ _ => (by decide : (503 : ℕ) ≠ 409)⟩
  cases e with
  | apiError error => exact he.elim
  | _ => exact he

section Calls
variable {α : Type} {B : Choice → Prop} {P : PyException → Prop}

theorem raises_statement (f : World → α × World) : (statement f).RaisesOnly B P :=
  raisesOnly_atomic _

theorem raises_execute (f : World → World) : (execute f).RaisesOnly B P :=
  raises_statement _

theorem raises_now : now.RaisesOnly B P := raises_statement fun w => (w.clock, w)

theorem raises_storeCall (h : ∀ e : PyException, e.Plain → P e) (run : RunId)
    (tool : ArtifactId → Time → StoreProgram α) (errorFor : StoreException → ErrorBody) :
    (storeCall run tool errorFor).RaisesOnly B P := by
  refine raisesOnly_atomicExcept fun c w e _ he => ?_
  cases hfailure : c.failure with
  | some failure =>
      rw [hfailure] at he
      obtain rfl := Except.error.inj he
      cases failure <;> exact h _ trivial
  | none =>
      rw [hfailure] at he
      dsimp only at he
      generalize (Program.run _ _ _).1 = answer at he
      cases answer with
      | ok a => cases he
      | error exc =>
          obtain rfl := Except.error.inj he
          exact h _ trivial

/-- A call of the story service or an agent fails as its client says. -/
theorem raises_pureCall {answer : Choice → α} {exception : CallFailure → PyException}
    (h : ∀ c failure, B c → c.failure = some failure → P (exception failure)) :
    (pureCall answer exception).RaisesOnly B P := by
  refine raisesOnly_atomicExcept fun c w e hc he => ?_
  cases hfailure : c.failure with
  | some failure =>
      rw [hfailure] at he
      obtain rfl := Except.error.inj he
      exact h c failure hc hfailure
  | none =>
      rw [hfailure] at he
      cases he

end Calls
/-! ## Tables -/

section Tables
variable {B : Choice → Prop} {P : PyException → Prop}

theorem raises_getSession (h : Routine P) (sessionId : SessionId) (userId : UserId) :
    (RecordsStore.getSession sessionId userId).RaisesOnly B P := by
  refine .bind (raises_statement _) fun row => ?_
  cases row with
  | none => exact raisesOnly_ret _
  | some row => exact .bind (raisesOnly_check (h.plain _ (by trivial))) fun _ => raisesOnly_ret _

theorem raises_createStoryRunOrGet (h : Routine P) (record : StoryRunRecord) :
    (RecordsStore.createStoryRunOrGet record).RaisesOnly B P := by
  refine .bind (raises_statement _) fun violated => ?_
  cases violated with
  | none => exact raisesOnly_ret _
  | some violation =>
      refine .bind (raises_statement _) fun existing => ?_
      split
      · exact raisesOnly_ret _
      · exact raisesOnly_raise (h.plain _ trivial)

theorem raises_createSessionOrGet (h : Routine P) (record : SessionRecord) :
    (RecordsStore.createSessionOrGet record).RaisesOnly B P := by
  refine .bind (raises_statement _) fun inserted => ?_
  cases inserted with
  | true => exact raisesOnly_ret _
  | false =>
      refine .bind (raises_statement _) fun existing => ?_
      cases existing with
      | none => exact raisesOnly_raise (h.plain _ (by trivial))
      | some row => exact raisesOnly_check (h.plain _ (by trivial))

theorem raises_getTurn (h : Routine P) (sessionId : SessionId) (turnNumber : ℕ) :
    (RecordsStore.getTurn sessionId turnNumber).RaisesOnly B P := by
  refine .bind (raises_statement _) fun row => ?_
  cases row with
  | none => exact raisesOnly_ret _
  | some row => exact .bind (raisesOnly_check (h.plain _ (by trivial))) fun _ => raisesOnly_ret _

theorem raises_createTurnOrGet (h : Routine P) (record : TurnRecord) (producer : Producer) :
    (RecordsStore.createTurnOrGet record producer).RaisesOnly B P := by
  refine .bind (raisesOnly_check (h.plain _ (by trivial))) fun record => ?_
  refine .bind (raises_statement _) fun inserted => ?_
  cases inserted with
  | true => exact raisesOnly_ret _
  | false =>
      refine .bind (raises_getTurn h _ _) fun existing => ?_
      cases existing with
      | none => exact raisesOnly_raise (h.plain _ (by trivial))
      | some existing => exact raisesOnly_ret _

theorem raises_listTurns (h : Routine P) (sessionId : SessionId) :
    (RecordsStore.listTurns sessionId).RaisesOnly B P := by
  refine .bind (raises_statement _) fun rows => ?_
  split_ifs
  · exact raisesOnly_ret _
  · exact raisesOnly_raise (h.plain _ (by trivial))

theorem raises_setFinalizingTurnArtifacts (sessionId : SessionId)
    (references : List ArtifactReference) :
    (RecordsStore.setFinalizingTurnArtifacts sessionId references).RaisesOnly B P := by
  refine .bind (raises_statement _) fun turnNumber => ?_
  cases turnNumber with
  | none => exact raisesOnly_ret _
  | some n => exact raises_statement _

theorem raises_claim (h : Routine P) (slot : ClaimSlot) (fingerprint : Fingerprint) :
    (Idempotency.claim slot fingerprint).RaisesOnly B P := by
  refine .bind (raises_statement _) fun inserted => ?_
  cases inserted with
  | true => exact raisesOnly_ret _
  | false =>
      refine .bind (raises_statement _) fun existing => ?_
      cases existing with
      | none => exact raisesOnly_raise (h.plain _ (by trivial))
      | some existing =>
          dsimp only
          split_ifs
          · exact raisesOnly_raise (h.plain _ (by trivial))
          · split <;> exact raisesOnly_ret _

theorem raises_acquire (h : ∀ hint, P (.sessionLocked hint)) (sessionId : SessionId) :
    (TurnLease.acquire sessionId).RaisesOnly B P := by
  have hloop : ∀ n, (TurnLease.acquireLoop sessionId n).RaisesOnly B P := by
    intro n
    induction n with
    | zero => exact raisesOnly_raise (h _)
    | succ n ih =>
        refine .bind (.bind (raises_statement _) fun acquired => ?_) fun token => ?_
        · cases acquired with
          | some token => exact raisesOnly_ret _
          | none =>
              refine .bind (raises_statement _) fun wait => ?_
              cases wait with
              | none => exact raisesOnly_ret _
              | some hint => exact raisesOnly_raise (h _)
        · cases token with
          | some token => exact raisesOnly_ret _
          | none => exact ih
  exact hloop 3

theorem raises_releaseLease (sessionId : SessionId) (token : Uuid) :
    (TurnsFlow.releaseLease sessionId token).RaisesOnly B P :=
  .bind (raises_execute _) fun _ => raises_execute _

end Tables
/-! ## Reads and saves -/

section Reads
variable {B : Choice → Prop} {P : PyException → Prop} (correlationId : Uuid)

theorem raises_saveArtifact (type : ArtifactType) (run : RunId) (content : Content)
    (key : IdempotencyKey) : (Flows.saveArtifact type run content key correlationId).RaisesOnly B
      PyException.Unconflicted := by
  refine RaisesOnly.bind (raisesOnly_ofExcept fun e he => ?_) fun request => ?_
  · unfold Flows.saveArtifactInput at he
    split_ifs at he
    obtain rfl := Except.error.inj he
    trivial
  · refine RaisesOnly.bind (RaisesOnly.tryCatch (raises_storeCall routine_unconflicted.plain _ _ _)
      fun e he => ?_) fun _ => raisesOnly_ret _
    cases e with
    | mcpCallFailure error =>
        refine raisesOnly_raise ?_
        unfold Flows.toolFailure
        split_ifs
        · exact (by decide : (404 : ℕ) ≠ 409)
        · exact (by decide : (503 : ℕ) ≠ 409)
    | mcpTransportError => exact raisesOnly_raise (routine_unconflicted.upstream _ _ _)
    | deadlineExceededError => exact raisesOnly_raise (routine_unconflicted.upstream _ _ _)
    | _ => exact raisesOnly_raise he

theorem raises_listRunArtifacts (h : Routine P) (run : RunId) :
    (Lineage.listRunArtifacts run correlationId).RaisesOnly B P :=
  RaisesOnly.caught fun _ => raisesOnly_raise (h.upstream _ _ _)

theorem raises_latest (h : Routine P) {references : List ArtifactReference} {type : ArtifactType}
    {perspective : Option Perspective} {e : PyException}
    (he : Lineage.latest references type perspective correlationId = .error e) : P e := by
  unfold Lineage.latest at he
  split at he
  · cases he
  · obtain rfl := Except.error.inj he
    exact h.upstream _ _ _

theorem raises_artifactContent (h : Routine P) (reference : ArtifactReference) :
    (Lineage.artifactContent reference correlationId).RaisesOnly B P :=
  .bind (RaisesOnly.caught fun _ => raisesOnly_raise (h.upstream _ _ _)) fun _ => raisesOnly_ret _

theorem raises_synthesisReport (h : Routine P) (reference : ArtifactReference) :
    (Lineage.synthesisReport reference correlationId).RaisesOnly B P := by
  refine .bind (raises_artifactContent _ h _) fun content => ?_
  cases content with
  | synthesis report => exact raisesOnly_ret _
  | _ => exact raisesOnly_raise (h.plain _ (by trivial))

theorem raises_reviewReport (h : Routine P) (reference : ArtifactReference) :
    (Lineage.reviewReport reference correlationId).RaisesOnly B P := by
  refine .bind (raises_artifactContent _ h _) fun content => ?_
  cases content with
  | review report => exact raisesOnly_ret _
  | _ => exact raisesOnly_raise (h.plain _ (by trivial))

theorem raises_evidence (h : Routine P) (references : List ArtifactReference) :
    (ofExcept (Lineage.evidence references correlationId) :
      Orchestration (List ArtifactReference)).RaisesOnly B P := by
  refine raisesOnly_ofExcept fun e he => ?_
  unfold Lineage.evidence at he
  cases hstory : Lineage.latest references .story none correlationId with
  | error e' =>
      rw [hstory] at he
      obtain rfl := Except.error.inj he
      exact raises_latest _ h hstory
  | ok story =>
      rw [hstory] at he
      cases hbusiness : Lineage.latest references .reviewBusiness (some .business)
          correlationId with
      | error e' =>
          rw [hbusiness] at he
          obtain rfl := Except.error.inj he
          exact raises_latest _ h hbusiness
      | ok business =>
          rw [hbusiness] at he
          cases hengineering : Lineage.latest references .reviewEngineering (some .engineering)
              correlationId with
          | error e' =>
              rw [hengineering] at he
              obtain rfl := Except.error.inj he
              exact raises_latest _ h hengineering
          | ok engineering =>
              rw [hengineering] at he
              cases he

theorem raises_latestSynthesis (h : Routine P) (session : SessionRecord) :
    (TurnsFlow.latestSynthesis session correlationId).RaisesOnly B P :=
  .bind (raises_listRunArtifacts _ h _) fun _ =>
    raisesOnly_ofExcept fun _ he => raises_latest _ h he

theorem raises_reviewRequest (h : Routine P) (story : StoryDetail)
    (references : List ArtifactReference) (delegation : DelegationDecision)
    (perspective : Perspective) : (TurnExecution.reviewRequest story references delegation
      correlationId perspective).RaisesOnly B P :=
  .bind (raisesOnly_ofExcept fun _ he => raises_latest _ h he) fun _ =>
    .bind (raises_reviewReport _ h _) fun _ => raisesOnly_ret _

theorem raises_latestPair (h : Routine P) (references : List ArtifactReference)
    (perspective : Perspective) :
    (TurnExecution.latestPair references correlationId perspective).RaisesOnly B P :=
  .bind (raisesOnly_ofExcept fun _ he => raises_latest _ h he) fun _ =>
    .bind (raises_reviewReport _ h _) fun _ => raisesOnly_ret _

theorem raises_decisionState (h : P .validationError) (turns : List TurnRecord) :
    (ofExcept (TurnsFlow.decisionState turns) :
      Orchestration (Option DecisionState)).RaisesOnly B P := by
  unfold TurnsFlow.decisionState DecisionState.validate
  split_ifs
  · exact raisesOnly_ret _
  · exact raisesOnly_ret _
  · exact raisesOnly_raise h

theorem raises_mergedDecisionState (h : P .validationError) (prior : Option DecisionState)
    (first : FacilitatorTurnOutput) (turnNumber : ℕ) :
    (ofExcept (TurnsFlow.mergedDecisionState prior first turnNumber) :
      Orchestration DecisionState).RaisesOnly B P := by
  unfold TurnsFlow.mergedDecisionState DecisionState.validate
  dsimp only
  split_ifs
  · exact raisesOnly_ret _
  · exact raisesOnly_raise h

end Reads
/-! ## Flow 3 -/

section Finalization
variable {B : Choice → Prop} {P : PyException → Prop} (correlationId : Uuid)

theorem raises_finalSynthesisReport (h : Closing P) (reference : ArtifactReference) :
    (Finalization.synthesisReport reference correlationId).RaisesOnly B P := by
  refine .tryCatch (raises_synthesisReport _ routine_unconflicted _) fun e he => ?_
  cases e with
  | validationError => exact raisesOnly_raise (h.failed _ _ (by decide : (503 : ℕ) ≠ 409))
  | apiError error => exact raisesOnly_raise (h.failed _ _ he)
  | mcpTransportError => exact raisesOnly_raise (h.failed _ _ (by decide : (503 : ℕ) ≠ 409))
  | deadlineExceededError => exact raisesOnly_raise (h.failed _ _ (by decide : (503 : ℕ) ≠ 409))
  | mcpCallFailure error => exact raisesOnly_raise (h.failed _ _ (by decide : (503 : ℕ) ≠ 409))
  | _ => exact raisesOnly_raise (h.plain _ he)

theorem raises_saveFinalReview (h : Closing P) (session : SessionRecord)
    (review : FinalizedReview) (key : IdempotencyKey) :
    (Finalization.saveFinalReview session review key correlationId).RaisesOnly B P := by
  refine .tryCatch (raises_saveArtifact _ _ _ _ _) fun e he => ?_
  cases e with
  | apiError error => exact raisesOnly_raise (h.failed _ _ he)
  | _ => exact raisesOnly_raise (h.plain _ he)

theorem raises_renderOne (h : Closing P) (session : SessionRecord)
    (reference : ArtifactReference) (format : Format) :
    (Finalization.renderOne session reference correlationId format).RaisesOnly B P := by
  refine .bind (raisesOnly_ofExcept fun e he => ?_) fun request => ?_
  · unfold Finalization.renderReportInput at he
    split_ifs at he
    obtain rfl := Except.error.inj he
    exact h.plain _ trivial
  · refine .bind (.tryCatch (raises_storeCall (fun _ he => he) _ _ _) fun e he => ?_)
      fun _ => raisesOnly_ret _
    have hfailed : ∀ (error : ErrorBody) retryable,
        P (.finalizationFailed ⟨503, error⟩ retryable) :=
      fun _ _ => h.failed _ _ (by decide : (503 : ℕ) ≠ 409)
    cases e with
    | validationError => exact raisesOnly_raise (hfailed _ _)
    | mcpCallFailure error => exact raisesOnly_raise (hfailed _ _)
    | mcpTransportError => exact raisesOnly_raise (hfailed _ _)
    | deadlineExceededError => exact raisesOnly_raise (hfailed _ _)
    | _ => exact raisesOnly_raise (h.plain _ he)

theorem raises_buildFinalReview (h : Closing P) (session : SessionRecord)
    (reference : ArtifactReference) (reports : List SynthesisReport) (turns : List TurnRecord)
    (finalizedAt : Time) :
    (ofExcept (Finalization.buildFinalReview session reference reports turns finalizedAt
      correlationId) : Orchestration FinalizedReview).RaisesOnly B P := by
  refine raisesOnly_ofExcept fun e he => ?_
  unfold Finalization.buildFinalReview at he
  split at he
  · obtain rfl := Except.error.inj he
    exact h.plain _ trivial
  · split at he
    · obtain rfl := Except.error.inj he
      exact h.failed _ _ (by decide : (503 : ℕ) ≠ 409)
    · dsimp only at he
      split at he
      · obtain rfl := Except.error.inj he
        exact h.failed _ _ (by decide : (503 : ℕ) ≠ 409)
      · cases he

theorem raises_produceReports (h : Closing P) (session : SessionRecord) (turns : List TurnRecord)
    (key : IdempotencyKey) (reference : ArtifactReference) :
    (Finalization.produceReports session turns key correlationId reference).RaisesOnly B P :=
  .bind (.traverse (fun _ => raises_finalSynthesisReport _ h _) _) fun _ =>
    .bind raises_now fun _ =>
      .bind (raises_buildFinalReview _ h _ _ _ _ _) fun _ =>
        .bind (raises_saveFinalReview _ h _ _ _) fun _ =>
          .bind (.traverse (fun _ => raises_renderOne _ h _ _ _) _) fun _ => raisesOnly_ret _

theorem raises_runFlow3 (h : Closing P) (session : SessionRecord) (turns : List TurnRecord)
    (key : IdempotencyKey) (reference : ArtifactReference) :
    (Finalization.runFlow3 session turns key correlationId reference).RaisesOnly B P := by
  refine .bind (raises_execute _) fun _ => .bind (.tryCatch (raises_produceReports _ h _ _ _ _)
    fun e he => ?_) fun _ => .bind (raises_setFinalizingTurnArtifacts _ _) fun _ => raisesOnly_ret _
  cases e with
  | finalizationFailed error retryable =>
      cases retryable with
      | false => exact .bind (raises_execute _) fun _ => raisesOnly_raise he
      | true => exact raisesOnly_raise he
  | _ => exact raisesOnly_raise he

end Finalization
/-! ## The end of a turn -/

section Turns
variable {B : Choice → Prop} {P : PyException → Prop} (correlationId : Uuid)

theorem raises_finalizeAndRespond (h : Closing P) (session : SessionRecord) (turn : TurnRecord)
    (turns : List TurnRecord) (reference : ArtifactReference) (count : Option ℕ)
    (key : IdempotencyKey) : (TurnsFlow.finalizeAndRespond session turn turns reference count key
      correlationId).RaisesOnly B P :=
  .bind (raises_runFlow3 _ h _ _ _ _) fun _ =>
    .bind (raisesOnly_check (h.plain _ (by trivial))) fun _ =>
      .bind (raises_execute _) fun _ => raisesOnly_check (h.plain _ (by trivial))

theorem raises_persistAndRespond (h : Routine P) (sessionId : SessionId) (key : IdempotencyKey)
    (turn : TurnRecord) (outcome : TurnOutcome) (reference : ArtifactReference)
    (resolutions : List ResolutionItem) (count : ℕ) :
    (TurnsFlow.persistAndRespond sessionId key turn outcome reference resolutions
      count).RaisesOnly B P :=
  .bind (raisesOnly_check (h.plain _ (by trivial))) fun _ => .bind (raises_execute _) fun _ =>
    raisesOnly_check (h.plain _ (by trivial))

theorem raises_responseFromCanonical (h : Routine P) (response : Option CanonicalResponse) :
    (TurnsFlow.responseFromCanonical response).RaisesOnly B P := by
  unfold TurnsFlow.responseFromCanonical
  split
  · exact raisesOnly_raise (h.plain _ trivial)
  · refine .bind (raises_getTurn h _ _) fun turn => ?_
    cases turn with
    | none => exact raisesOnly_raise (h.plain _ trivial)
    | some turn => exact raisesOnly_check (h.plain _ (by trivial))
  · exact raisesOnly_raise (h.plain _ trivial)

theorem raises_resumeFinalizing (h : Closing P) (session : SessionRecord)
    (key : IdempotencyKey) :
    (TurnsFlow.resumeFinalizing session key correlationId).RaisesOnly B P := by
  refine .bind (raises_listTurns h.toRoutine _) fun turns => ?_
  split
  · exact raisesOnly_raise (h.plain _ trivial)
  · exact .bind (raises_latestSynthesis _ h.toRoutine _) fun _ => .bind (raises_execute _) fun _ =>
      raises_finalizeAndRespond _ h _ _ _ _ _ _

theorem raises_acceptTurn (h : Closing P) (session : SessionRecord) (turnNumber : ℕ)
    (key : IdempotencyKey) :
    (TurnsFlow.acceptTurn session turnNumber key correlationId).RaisesOnly B P :=
  .bind raises_now fun _ => .bind raises_now fun _ =>
    .bind (raises_createTurnOrGet h.toRoutine _ _) fun _ =>
      .bind (raises_listTurns h.toRoutine _) fun _ =>
        .bind (raises_latestSynthesis _ h.toRoutine _) fun _ => .bind (raises_execute _) fun _ =>
          raises_finalizeAndRespond _ h _ _ _ _ _ _

theorem raises_commitTurn (h : Closing P) (session : SessionRecord) (message : Option Text)
    (turnNumber facilitatorTurn : ℕ) (draft : TurnsFlow.TurnDraft) (key : IdempotencyKey) :
    (TurnsFlow.commitTurn session message turnNumber facilitatorTurn draft key
      correlationId).RaisesOnly B P := by
  refine .bind raises_now fun _ => .bind raises_now fun _ =>
    .bind (raises_createTurnOrGet h.toRoutine _ _) fun turn => ?_
  split_ifs
  · exact .bind (raises_execute _) fun _ => .bind (raises_listTurns h.toRoutine _) fun _ =>
      .bind (raises_execute _) fun _ => raises_finalizeAndRespond _ h _ _ _ _ _ _
  · exact raises_persistAndRespond h.toRoutine _ _ _ _ _ _ _

end Turns
end StoryReview
