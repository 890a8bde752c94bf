import StoryReview.Catalog
import StoryReview.ScopedCalls

/-!
# Requests within a user's key

The flows, step by step, behind the read that has found the session to be the user's.
-/
namespace StoryReview
open Program Flows RecordsStore

/-! ## Flow 3 -/

section Finalization
variable {sc : Scope} {session : SessionRecord} {turns : List TurnRecord}
variable {reference : ArtifactReference}

theorem Scope.cites_catalog (hturns : sc.Produced turns)
    (hreference : reference.storyRunId = ⟨sc.key⟩) :
    sc.Cites (Finalization.catalogReferences turns reference) := by
  intro r hr
  unfold Finalization.catalogReferences at hr
  split_ifs at hr
  · rw [List.mem_singleton.mp hr]
    exact hreference
  · obtain ⟨htype, turn, hturn, hmem⟩ := mem_versionReferences hr
    exact hturns turn hturn r (List.mem_filter.mpr ⟨hmem, decide_eq_true htype⟩)

theorem scoped_finalizationSynthesisReport (hreference : reference.storyRunId = ⟨sc.key⟩)
    (correlationId : Uuid) :
    (Finalization.synthesisReport reference correlationId).Scoped sc Anything := by
  refine agrees_mapped (scoped_synthesisReport hreference correlationId) fun e => ?_
  split <;> exact ⟨_, rfl⟩

theorem scoped_saveFinalReview (hs : sc.Owns session) (review : FinalizedReview)
    (key : IdempotencyKey) (correlationId : Uuid) :
    (Finalization.saveFinalReview session review key correlationId).Scoped sc Anything := by
  have hsave := scoped_saveArtifact .finalizedReview hs.2 (.finalizedReview review) key
    correlationId
  refine agrees_mapped (hsave.mono fun _ _ => trivial) fun e => ?_
  split <;> exact ⟨_, rfl⟩

theorem scoped_renderOne (hs : sc.Owns session) (reference : ArtifactReference)
    (correlationId : Uuid) (format : Format) :
    (Finalization.renderOne session reference correlationId format).Scoped sc Anything := by
  refine Agrees.bind (S := fun request => request.storyRunId = ⟨sc.key⟩)
    (agrees_ofExcept fun request hrequest => ?_) fun request hrun => ?_
  · unfold Finalization.renderReportInput at hrequest
    split_ifs at hrequest
    cases hrequest
    exact hs.2
  · refine Agrees.bind (S := Anything) (agrees_mapped (scoped_storeCall hrun fun id now o => ?_)
      fun e => ?_) fun _ _ => agrees_ret trivial
    · exact wp_mono (wp_trivial _ o) (fun _ _ => trivial) (fun _ _ _ _ _ _ => trivial)
        fun _ _ _ => trivial
    · split <;> exact ⟨_, rfl⟩

theorem scoped_produceReports (hs : sc.Owns session) (hturns : sc.Produced turns)
    (hreference : reference.storyRunId = ⟨sc.key⟩) (key : IdempotencyKey)
    (correlationId : Uuid) :
    (Finalization.produceReports session turns key correlationId reference).Scoped sc
      Anything := by
  have hreports := agrees_traverse (J := Wellformed) (R := sc.Within) (Q := Anything)
    (f := fun r => Finalization.synthesisReport r correlationId) _
    fun r hr => scoped_finalizationSynthesisReport (sc.cites_catalog hturns hreference r hr)
      correlationId
  refine hreports.bind fun reports _ => scoped_now.bind fun finalizedAt _ => ?_
  refine (scoped_ofExcept _).bind fun review _ => ?_
  refine (scoped_saveFinalReview hs review key correlationId).bind fun final _ => ?_
  have hrenders := agrees_traverse (J := Wellformed) (R := sc.Within) (Q := Anything)
    (f := Finalization.renderOne session final correlationId) session.requestedFormats
    fun format _ => scoped_renderOne hs final correlationId format
  exact hrenders.bind fun _ _ => agrees_ret trivial

theorem scoped_runFlow3 (hs : sc.Owns session) (hturns : sc.Produced turns)
    (hreference : reference.storyRunId = ⟨sc.key⟩) (key : IdempotencyKey)
    (correlationId : Uuid) :
    (Finalization.runFlow3 session turns key correlationId reference).Scoped sc Anything := by
  refine (scoped_updateSession hs.1 _).bind fun _ _ => ?_
  refine Agrees.bind (S := Anything) ?_ fun result _ => ?_
  · refine (scoped_produceReports hs hturns hreference key correlationId).tryCatch fun e => ?_
    split
    · exact (scoped_updateSession hs.1 _).bind fun _ _ => agrees_raise _
    · exact agrees_raise _
  · exact (scoped_setFinalizingTurnArtifacts hs.1 _).bind fun _ _ => agrees_ret trivial

theorem scoped_completeTransaction {slot : ClaimSlot} {id : SessionId}
    (hslot : slot.NamedBy sc.key) (hid : id = ⟨sc.key⟩) (count : Option ℕ)
    (response : CanonicalResponse) (result : Finalization.FinalizationResult) :
    (Finalization.completeTransaction slot id count response result).Scoped sc Anything :=
  scoped_execute fun _ _ h => (h.sessionUpdated hid _).completed hslot response

end Finalization

/-! ## Flow 2 -/

section Turns
variable {sc : Scope} {session : SessionRecord} {turns : List TurnRecord}
variable {reference : ArtifactReference}

theorem turnsSlot_namedBy {id : SessionId} (hid : id = ⟨sc.key⟩) (key : IdempotencyKey) :
    (TurnsFlow.slot id key).NamedBy sc.key := .inr (congrArg some hid)

theorem scoped_responseFromCanonical {response : Option CanonicalResponse}
    (h : ∀ canonical, response = some (.turn canonical) →
      canonical.sessionId = (⟨sc.key⟩ : SessionId)) :
    (TurnsFlow.responseFromCanonical response).Scoped sc Anything := by
  unfold TurnsFlow.responseFromCanonical
  split
  · exact agrees_raise _
  · refine (scoped_getTurn (h _ rfl) _).bind fun turn _ => ?_
    cases turn with
    | none => exact agrees_raise _
    | some turn => exact scoped_ofExcept _
  · exact agrees_raise _

theorem scoped_finalizeAndRespond (hs : sc.Owns session) (turn : TurnRecord)
    (hturns : sc.Produced turns) (hreference : reference.storyRunId = ⟨sc.key⟩)
    (count : Option ℕ) (key : IdempotencyKey) (correlationId : Uuid) :
    (TurnsFlow.finalizeAndRespond session turn turns reference count key
      correlationId).Scoped sc Anything := by
  refine (scoped_runFlow3 hs hturns hreference key correlationId).bind fun result _ => ?_
  refine (scoped_ofExcept _).bind fun canonical _ => ?_
  refine (scoped_completeTransaction (turnsSlot_namedBy hs.1 key) hs.1 _ _ _).bind fun _ _ => ?_
  exact scoped_ofExcept _

theorem scoped_persistAndRespond (hs : sc.Owns session) (key : IdempotencyKey)
    (turn : TurnRecord) (outcome : TurnOutcome) (reference : ArtifactReference)
    (resolutions : List ResolutionItem) (count : ℕ) :
    (TurnsFlow.persistAndRespond session.sessionId key turn outcome reference resolutions
      count).Scoped sc Anything := by
  refine (scoped_ofExcept _).bind fun canonical _ => ?_
  refine Agrees.bind (S := Anything) (scoped_execute fun _ _ h => ?_) fun _ _ => scoped_ofExcept _
  exact (h.sessionUpdated hs.1 _).completed (turnsSlot_namedBy hs.1 key) _

theorem scoped_resumeFinalizing (hs : sc.Owns session) (key : IdempotencyKey)
    (correlationId : Uuid) :
    (TurnsFlow.resumeFinalizing session key correlationId).Scoped sc Anything := by
  refine (scoped_listTurns hs.1).bind fun turns hturns => ?_
  split
  · exact agrees_raise _
  · refine (scoped_latestSynthesis hs correlationId).bind fun reference hreference => ?_
    refine (scoped_setProcessingStage hs.1 _).bind fun _ _ => ?_
    exact scoped_finalizeAndRespond hs _ hturns hreference _ key correlationId

theorem scoped_acceptTurn (hs : sc.Owns session) (turnNumber : ℕ) (key : IdempotencyKey)
    (correlationId : Uuid) :
    (TurnsFlow.acceptTurn session turnNumber key correlationId).Scoped sc Anything := by
  refine scoped_now.bind fun createdAt _ => scoped_now.bind fun completedAt _ => ?_
  refine Agrees.bind (scoped_createTurnOrGet hs.1 _) fun turn _ => ?_
  refine (scoped_listTurns hs.1).bind fun turns hturns => ?_
  refine (scoped_latestSynthesis hs correlationId).bind fun reference hreference => ?_
  refine (scoped_setProcessingStage hs.1 _).bind fun _ _ => ?_
  exact scoped_finalizeAndRespond hs _ hturns hreference _ key correlationId

/-! ### The agents' part of a message turn -/

theorem scoped_latestPair {references : List ArtifactReference} (h : sc.Cites references)
    (correlationId : Uuid) (perspective : Perspective) :
    (TurnExecution.latestPair references correlationId perspective).Scoped sc Anything :=
  (scoped_latest h _ _ _).bind fun _ hreference =>
    (scoped_reviewReport hreference _).bind fun _ _ => agrees_ret trivial

theorem scoped_executeDelegation (hs : sc.Owns session) (story : StoryDetail)
    {references : List ArtifactReference} (h : sc.Cites references)
    (delegation : DelegationDecision) (key : IdempotencyKey) (correlationId : Uuid) :
    (TurnExecution.executeDelegation session story references delegation key
      correlationId).Scoped sc Anything := by
  have hrequest : ∀ p, (TurnExecution.reviewRequest story references delegation correlationId
      p).Scoped sc Anything := fun p =>
    (scoped_latest h _ _ _).bind fun _ hreference =>
      (scoped_reviewReport hreference _).bind fun _ _ => agrees_ret trivial
  refine Agrees.bind (agrees_traverse (Q := Anything) _ fun p _ => (hrequest p).bind fun _ _ =>
    agrees_ret trivial) fun requests _ => ?_
  refine Agrees.bind (agrees_mapped (agrees_traverse (Q := Anything) _ fun x _ =>
    Agrees.bind (S := Anything) scoped_pureCall fun _ _ => agrees_ret trivial)
    fun _ => ⟨_, rfl⟩) fun results _ => ?_
  refine Agrees.mono (agrees_traverse (Q := Anything) _ fun x _ => ?_) fun _ _ => trivial
  exact (scoped_saveArtifact _ hs.2 _ _ _).mono fun _ _ => trivial

theorem scoped_maybeSynthesize (hs : sc.Owns session) (references : List ArtifactReference)
    (reusePrevious : Bool) (key : IdempotencyKey) (correlationId : Uuid)
    (hreference : reference.storyRunId = ⟨sc.key⟩) :
    (TurnExecution.maybeSynthesize session references reusePrevious key correlationId
      reference).Scoped sc fun outcome => outcome.reference.storyRunId = ⟨sc.key⟩ := by
  unfold TurnExecution.maybeSynthesize
  split_ifs
  · exact agrees_ret hreference
  · refine (scoped_listRunArtifacts hs.2 _).bind fun listed hlisted => ?_
    refine (scoped_latestPair hlisted _ .business).bind fun business _ => ?_
    refine (scoped_latestPair hlisted _ .engineering).bind fun engineering _ => ?_
    refine Agrees.bind (S := Anything) (agrees_mapped scoped_pureCall fun _ => ⟨_, rfl⟩)
      fun report _ => ?_
    exact (scoped_saveArtifact .synthesis hs.2 _ _ _).bind fun _ hsaved => agrees_ret hsaved

theorem scoped_invokeFirstFacilitator (session : SessionRecord) (key : IdempotencyKey)
    (facilitatorTurn : ℕ) (message : Option Text) (report : SynthesisReport)
    (reference : ArtifactReference) (evidence : List ArtifactReference)
    (turns : List TurnRecord) (correlationId : Uuid) :
    (TurnsFlow.invokeFirstFacilitator session key facilitatorTurn message report reference
      evidence turns correlationId).Scoped sc Anything :=
  agrees_mapped ((scoped_ofExcept _).bind fun _ _ => scoped_invokeFacilitator _ _)
    fun _ => ⟨_, rfl⟩

theorem scoped_invokeSummaryFacilitator (hs : sc.Owns session) (key : IdempotencyKey)
    (turnNumber facilitatorTurn : ℕ) (message : Option Text) (report : SynthesisReport)
    (reference : ArtifactReference) (prior : Option DecisionState)
    (first : FacilitatorTurnOutput) (correlationId : Uuid) :
    (TurnsFlow.invokeSummaryFacilitator session key turnNumber facilitatorTurn message report
      reference prior first correlationId).Scoped sc Anything := by
  refine (scoped_listRunArtifacts hs.2 _).bind fun listed _ => ?_
  refine (scoped_ofExcept _).bind fun evidence _ => ?_
  exact agrees_mapped ((scoped_ofExcept _).bind fun _ _ => scoped_invokeFacilitator _ _)
    fun _ => ⟨_, rfl⟩

theorem scoped_draftTurn (hs : sc.Owns session) (message : Option Text)
    (turns : List TurnRecord) (turnNumber facilitatorTurn : ℕ) (key : IdempotencyKey)
    (correlationId : Uuid) :
    (TurnsFlow.draftTurn session message turns turnNumber facilitatorTurn key
      correlationId).Scoped sc fun draft => draft.synthesisReference.storyRunId = ⟨sc.key⟩ := by
  refine (scoped_setProcessingStage hs.1 _).bind fun _ _ => ?_
  refine (scoped_assembleInputs hs _).bind fun inputs hinputs => ?_
  refine (scoped_latest hinputs _ _ _).bind fun reference hreference => ?_
  refine (scoped_synthesisReport hreference _).bind fun report _ => ?_
  refine (scoped_ofExcept _).bind fun evidence _ => ?_
  refine (scoped_invokeFirstFacilitator _ _ _ _ _ _ _ _ _).bind fun first _ => ?_
  refine (scoped_setProcessingStage hs.1 _).bind fun _ _ => ?_
  refine (scoped_executeDelegation hs _ hinputs _ _ _).bind fun new _ => ?_
  refine (scoped_setProcessingStage hs.1 _).bind fun _ _ => ?_
  refine (scoped_maybeSynthesize hs _ _ _ _ hreference).bind fun synthesis hsynthesis => ?_
  split
  · exact agrees_ret hsynthesis
  · refine (scoped_setProcessingStage hs.1 _).bind fun _ _ => ?_
    refine (scoped_ofExcept _).bind fun prior _ => ?_
    exact (scoped_invokeSummaryFacilitator hs _ _ _ _ _ _ _ _ _).bind fun _ _ =>
      agrees_ret hsynthesis

theorem scoped_commitTurn (hs : sc.Owns session) (message : Option Text)
    (turnNumber facilitatorTurn : ℕ) {draft : TurnsFlow.TurnDraft}
    (hdraft : draft.synthesisReference.storyRunId = ⟨sc.key⟩) (key : IdempotencyKey)
    (correlationId : Uuid) :
    (TurnsFlow.commitTurn session message turnNumber facilitatorTurn draft key
      correlationId).Scoped sc Anything := by
  refine scoped_now.bind fun createdAt _ => scoped_now.bind fun completedAt _ => ?_
  refine Agrees.bind (scoped_createTurnOrGet hs.1 _) fun turn _ => ?_
  split_ifs
  · refine (scoped_updateSession hs.1 _).bind fun _ _ => ?_
    refine (scoped_listTurns hs.1).bind fun turns hturns => ?_
    refine (scoped_setProcessingStage hs.1 _).bind fun _ _ => ?_
    exact scoped_finalizeAndRespond hs _ hturns hdraft _ key correlationId
  · exact scoped_persistAndRespond hs _ _ _ _ _ _

theorem scoped_activeTurn (hs : sc.Owns session) (payload : TurnRequest)
    (key : IdempotencyKey) (correlationId : Uuid) :
    (TurnsFlow.activeTurn session payload key correlationId).Scoped sc Anything := by
  refine (scoped_listTurns hs.1).bind fun turns _ => ?_
  split_ifs
  · exact scoped_acceptTurn hs _ _ _
  · unfold TurnsFlow.messageTurn
    dsimp only
    split_ifs
    · exact agrees_raise _
    · exact (scoped_draftTurn hs _ _ _ _ _ _).bind fun draft hdraft =>
        scoped_commitTurn hs _ _ _ hdraft _ _

theorem scoped_liveTurn {id : SessionId} (hid : id = ⟨sc.key⟩) (payload : TurnRequest)
    (key : IdempotencyKey) (correlationId : Uuid) (claim : Idempotency.ClaimOutcome) :
    (TurnsFlow.liveTurn id payload key correlationId sc.userId claim).Scoped sc Anything := by
  refine (scoped_getSession hid).bind fun session hsession => ?_
  have hrelease : ∀ e, (do
      Idempotency.release (TurnsFlow.slot id key)
      .raise e : Orchestration TurnResponse).Scoped sc Anything := fun e =>
    (scoped_release (turnsSlot_namedBy hid key)).bind fun _ _ => agrees_raise e
  cases session with
  | none => exact agrees_raise _
  | some session =>
      have hs := hsession session rfl
      dsimp only
      cases session.state with
      | finalizing =>
          dsimp only
          split_ifs
          · exact scoped_resumeFinalizing hs _ _
          · exact hrelease _
      | active => exact scoped_activeTurn hs _ _ _
      | parked => exact hrelease _
      | completed => exact hrelease _

theorem scoped_executeTurn {id : SessionId} (hid : id = ⟨sc.key⟩) (payload : TurnRequest)
    (key : IdempotencyKey) (correlationId : Uuid) :
    (TurnsFlow.executeTurn id payload key correlationId sc.userId).Scoped sc Anything := by
  refine (scoped_claim (turnsSlot_namedBy hid key) _).bind fun outcome houtcome => ?_
  cases outcome with
  | replay response =>
      refine scoped_responseFromCanonical fun canonical hcanonical => ?_
      have hslot := houtcome canonical (congrArg _ hcanonical)
      exact (Option.some.inj hslot).symm.trans hid
  | claimed => exact scoped_liveTurn hid payload key correlationId _
  | inProgress => exact scoped_liveTurn hid payload key correlationId _

end Turns

/-! ## Finalize and abandon -/

section Endpoints
variable {sc : Scope} {session : SessionRecord} {id : SessionId}

theorem scoped_resumeFlow3 (hs : sc.Owns session) (key : IdempotencyKey)
    (correlationId : Uuid) :
    (Finalize.resumeFlow3 session key correlationId).Scoped sc Anything := by
  refine (scoped_listTurns hs.1).bind fun turns hturns => ?_
  split_ifs
  · exact agrees_raise _
  · refine (scoped_latestSynthesis hs _).bind fun reference hreference => ?_
    refine (scoped_setProcessingStage hs.1 _).bind fun _ _ => ?_
    refine (scoped_runFlow3 hs hturns hreference key correlationId).bind fun result _ => ?_
    refine (scoped_ofExcept _).bind fun canonical _ => ?_
    have hslot : (Finalize.slot session.sessionId key).NamedBy sc.key :=
      .inr (congrArg some hs.1)
    exact (scoped_completeTransaction hslot hs.1 _ _ _).bind fun _ _ => scoped_ofExcept _

theorem scoped_resumeUnderLease (hid : id = ⟨sc.key⟩) (key : IdempotencyKey)
    (correlationId : Uuid) :
    (Finalize.resumeUnderLease id key correlationId sc.userId).Scoped sc Anything := by
  refine (scoped_getSession hid).bind fun session hsession => ?_
  cases session with
  | none => exact agrees_raise _
  | some session =>
      dsimp only
      cases session.state with
      | completed => exact scoped_ofExcept _
      | active => exact agrees_raise _
      | parked => exact agrees_raise _
      | finalizing =>
          have hslot : (Finalize.slot id key).NamedBy sc.key := .inr (congrArg some hid)
          refine (scoped_claim hslot _).bind fun outcome _ => ?_
          cases outcome with
          | replay response => exact scoped_ofExcept _
          | claimed => exact scoped_resumeFlow3 (hsession session rfl) _ _
          | inProgress => exact scoped_resumeFlow3 (hsession session rfl) _ _

theorem scoped_parkUnderClaim (hid : id = ⟨sc.key⟩) (key : IdempotencyKey)
    (correlationId : Uuid) :
    (Abandon.parkUnderClaim id key correlationId sc.userId).Scoped sc Anything := by
  have hslot : (Abandon.slot id key).NamedBy sc.key := .inr (congrArg some hid)
  refine (scoped_getSession hid).bind fun session _ => ?_
  cases session with
  | none => exact agrees_raise _
  | some session =>
      dsimp only
      split_ifs
      · exact (scoped_release hslot).bind fun _ _ => agrees_raise _
      · refine Agrees.bind (S := Anything) (scoped_execute fun _ _ h => ?_)
          fun _ _ => agrees_ret trivial
        exact (h.sessionUpdated hid _).completed hslot _

theorem scoped_parkNow (hid : id = ⟨sc.key⟩) (key : IdempotencyKey) (correlationId : Uuid) :
    (Abandon.parkNow id key correlationId sc.userId).Scoped sc Anything := by
  have hslot : (Abandon.slot id key).NamedBy sc.key := .inr (congrArg some hid)
  refine (scoped_claim hslot _).bind fun outcome _ => ?_
  cases outcome with
  | claimed => exact scoped_parkUnderClaim hid key correlationId
  | inProgress => exact scoped_parkUnderClaim hid key correlationId
  | replay response =>
      cases response with
      | none => exact agrees_raise _
      | some response =>
          cases response with
          | abandoned sessionId => exact agrees_ret trivial
          | created r => exact agrees_raise _
          | turn r => exact agrees_raise _
          | report r => exact agrees_raise _

end Endpoints

/-! ## Creation -/

section Creation
variable {sc : Scope} {session : SessionRecord} {id : SessionId} {run : RunId}

theorem createSlot_namedBy (key : IdempotencyKey) : (createSlot key).NamedBy key := .inl rfl

theorem scoped_fanOutReviewers (story : StoryDetail) (correlationId : Uuid) :
    (fanOutReviewers story correlationId).Scoped sc Anything :=
  agrees_mapped (Agrees.bind (S := Anything) scoped_pureCall fun _ _ =>
    Agrees.bind (S := Anything) scoped_pureCall fun _ _ => agrees_ret trivial) fun _ => ⟨_, rfl⟩

theorem scoped_openingArtifacts (story : StoryDetail) (hrun : run = ⟨sc.key⟩)
    (hid : id = ⟨sc.key⟩) (key : IdempotencyKey) (correlationId : Uuid) :
    (openingArtifacts story run id key correlationId).Scoped sc Anything := by
  refine (scoped_setProcessingStage hid _).bind fun _ _ => ?_
  refine (scoped_saveArtifact _ hrun _ _ _).bind fun storyReference _ => ?_
  refine (scoped_fanOutReviewers story _).bind fun reviews _ => ?_
  refine (scoped_saveArtifact _ hrun _ _ _).bind fun business _ => ?_
  refine (scoped_saveArtifact _ hrun _ _ _).bind fun engineering _ => ?_
  refine (scoped_setProcessingStage hid _).bind fun _ _ => ?_
  refine Agrees.bind (S := Anything) (agrees_mapped scoped_pureCall fun _ => ⟨_, rfl⟩)
    fun report _ => ?_
  exact (scoped_saveArtifact _ hrun _ _ _).bind fun _ _ => agrees_ret trivial

theorem scoped_openingOutput (id : SessionId) (key : IdempotencyKey) (report : SynthesisReport)
    (reference : ArtifactReference) (evidence : List ArtifactReference)
    (correlationId : Uuid) :
    (openingOutput id key report reference evidence correlationId).Scoped sc Anything := by
  refine Agrees.bind (S := Anything) (agrees_mapped (scoped_invokeFacilitator _ _)
    fun e => ?_) fun output _ => (scoped_ofExcept _).bind fun _ _ => agrees_ret trivial
  split <;> exact ⟨_, rfl⟩

theorem scoped_initialPipeline (story : StoryDetail) (hrun : run = ⟨sc.key⟩)
    (hid : id = ⟨sc.key⟩) (correlationId : Uuid) :
    (initialPipeline story run id sc.key correlationId).Scoped sc Anything := by
  refine (scoped_openingArtifacts story hrun hid _ _).bind fun artifacts _ => ?_
  refine (scoped_setProcessingStage hid _).bind fun _ _ => ?_
  refine (scoped_openingOutput _ _ _ _ _ _).bind fun output _ => ?_
  refine scoped_now.bind fun createdAt _ => scoped_now.bind fun completedAt _ => ?_
  refine Agrees.bind (scoped_createTurnOrGet hid _) fun turn _ => ?_
  refine (scoped_touchSession hid).bind fun _ _ => ?_
  refine (scoped_ofExcept _).bind fun response _ => ?_
  refine Agrees.bind (S := Anything) (scoped_execute fun _ _ h =>
    h.completed (createSlot_namedBy sc.key) _) fun _ _ => ?_
  exact (scoped_setProcessingStage hid _).bind fun _ _ => agrees_ret trivial

theorem scoped_pipelineFailed (hid : id = ⟨sc.key⟩) (e : PyException) :
    (pipelineFailed id sc.key e).Scoped sc Anything := by
  refine (scoped_setProcessingStage hid _).bind fun _ _ => ?_
  split
  · split_ifs
    · exact agrees_raise _
    · refine Agrees.bind (S := Anything) (scoped_execute fun w w' h => ?_)
        fun _ _ => agrees_raise _
      have hupdated := h.sessionUpdated hid { state := some .parked }
      refine hupdated.of_beside
        (hupdated.beside.released hupdated.owner (createSlot_namedBy sc.key)) ?_
      unfold Idempotency.released
      split <;> rfl
  · exact agrees_raise _

theorem Scope.Within.insertSession {w w' : World} (h : sc.Within w w')
    (hs : sc.Owns session) (huser : session.userId = sc.userId) :
    (insertSession session w).1 = (insertSession session w').1 ∧
      sc.Within (insertSession session w).2 (insertSession session w').2 := by
  have hkeys : ∀ {v : World}, v.Owned → ∀ row ∈ v.sessions,
      (decide (row.record.sessionId = session.sessionId ∨
        row.record.storyRunId = session.storyRunId)) = true →
      row.record.sessionId.key = sc.key := by
    intro v hv row hrow hfound
    rcases of_decide_eq_true hfound with hid | hrun
    · rw [hid, hs.1]
    · rw [← hv.keyed row hrow, hrun, hs.2]
  have hany := h.beside.owned.any h.owner (hkeys h.beside.owned)
  have hany' := h.beside.owned'.any (h.beside.owner h.owner) (hkeys h.beside.owned')
  rw [h.beside.agree.sessions, hany] at hany'
  unfold RecordsStore.insertSession
  rw [← hany']
  split_ifs
  · exact ⟨rfl, h⟩
  · exact ⟨rfl, h.of_beside (h.beside.newSession hs huser h.owner) rfl⟩

theorem scoped_createSessionOrGet (hs : sc.Owns session) (huser : session.userId = sc.userId) :
    (createSessionOrGet session).Scoped sc sc.Owns := by
  refine Agrees.bind (S := Anything) (scoped_statement fun w w' _ h => ?_) fun inserted _ => ?_
  · obtain ⟨hsame, hwithin⟩ := h.insertSession hs huser
    exact ⟨hsame, trivial, hwithin⟩
  split_ifs
  · exact agrees_ret hs
  refine Agrees.bind (S := fun row => ∀ r ∈ row, sc.Owns r.record)
    (scoped_query fun w w' _ h => ⟨?_, fun row hrow => ?_⟩) fun row hrow => ?_
  · have hkeys : ∀ {v : World}, v.Owned → ∀ row ∈ v.sessions,
        decide (row.record.storyRunId = session.storyRunId) = true →
        row.record.sessionId.key = sc.key := by
      intro v hv row hrow hfound
      rw [← hv.keyed row hrow, of_decide_eq_true hfound, hs.2]
    rw [← h.beside.owned.find? h.owner (hkeys h.beside.owned),
      ← h.beside.owned'.find? (h.beside.owner h.owner) (hkeys h.beside.owned'),
      h.beside.agree.sessions]
  · have hrun := List.find?_some hrow
    rw [decide_eq_true_eq, hs.2] at hrun
    have hkeyed := h.beside.owned.keyed row (List.mem_of_find?_eq_some hrow)
    rw [hrun] at hkeyed
    exact ⟨congrArg SessionId.mk hkeyed.symm, hrun⟩
  · cases row with
    | none => exact agrees_raise _
    | some row =>
        refine agrees_ofExcept fun record hrecord => ?_
        unfold sessionFromRow at hrecord
        split_ifs at hrecord
        cases hrecord
        exact hrow row rfl

end Creation
end StoryReview
