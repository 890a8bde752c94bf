import StoryReview.RequestSteps
import StoryReview.Refetches
import StoryReview.Scenarios

/-!
# Agents asked again

A creation and a delegating turn do not read what an earlier attempt of the same request
has saved. A retry fetches the story and asks the agents again, and a different answer is
refused where the first one is saved already: the creation then parks its session, and the
turn fails for good. A retry that refetches is spared this.
-/
namespace StoryReview
open Program Flows RecordsStore

/-! ## Reviews and synthesis -/

section Reviews
variable {run : RunId} {key : IdempotencyKey} {types : List ArtifactType} {t w : World}

theorem unrefused_fanOutReviewers (hreviews : ∀ p, ArtifactType.review p ∈ types)
    (story : StoryDetail) (hw : Quiet t w) (correlationId : Uuid) :
    Unrefused run key types (fun reviews u =>
        ((Content.review reviews.1).HasPerspective (some .business) →
          (t.objects run).Repeats .reviewBusiness key (.review reviews.1)) ∧
        ((Content.review reviews.2).HasPerspective (some .engineering) →
          (t.objects run).Repeats .reviewEngineering key (.review reviews.2)) ∧ Quiet t u)
      (fanOutReviewers story correlationId) w := by
  refine Given.tryCatch (F := fun _ _ => False) ?_ fun _ _ hfalse => hfalse.elim
  refine Given.bind (given_invokeReviewer (hreviews .business) _ hw) ?_
  rintro business u ⟨hbusiness, hu⟩
  refine Given.bind (given_invokeReviewer (hreviews .engineering) _ hu) ?_
  rintro engineering v ⟨hengineering, hv⟩
  exact ⟨hbusiness, hengineering, hv⟩

/-- The artifacts of the initial pipeline. -/
theorem unrefused_openingArtifacts (h : w.StoresSound) {story : StoryDetail}
    (hstory : (w.objects run).Repeats .story key (.story story))
    (hreviews : ∀ p, ArtifactType.review p ∈ types) (hsynthesis : ArtifactType.synthesis ∈ types)
    (sessionId : SessionId) (correlationId : Uuid) :
    Unrefused run key types (fun _ _ => True)
      (openingArtifacts story run sessionId key correlationId) w := by
  refine Given.bind (unrefused_of_raises (raises_execute _) (quiet_setProcessingStage _ _)
    (Quiet.refl w) (yields_any _ _)) ?_
  rintro - t ⟨-, ht⟩
  have hsound := (SameObjects.of_quiet ht).sound h
  rw [← ht.objects] at hstory
  refine Given.bind (unrefused_saveArtifact hsound (by rintro _ ⟨⟩) (fun _ => hstory) _)
    fun _ t₁ h₁ => ?_
  refine Given.bind (unrefused_fanOutReviewers hreviews story (Quiet.refl t₁) correlationId) ?_
  rintro ⟨business, engineering⟩ t₂ ⟨hbusiness, hengineering, ht₂⟩
  have hsound₂ := (SameObjects.of_quiet ht₂).sound h₁.sound
  rw [← ht₂.objects] at hbusiness hengineering
  refine Given.bind (unrefused_saveArtifact hsound₂ (by rintro _ ⟨⟩) hbusiness _)
    fun _ t₃ h₃ => ?_
  have hengineering' : (Content.review engineering).HasPerspective (some .engineering) →
      (t₃.objects run).Repeats .reviewEngineering key (.review engineering) :=
    fun hperspective => h₃.repeats (by rintro ⟨⟩) (hengineering hperspective)
  refine Given.bind (unrefused_saveArtifact h₃.sound (by rintro _ ⟨⟩) hengineering' _)
    fun _ t₄ h₄ => ?_
  refine Given.bind (unrefused_of_raises (raises_execute _) (quiet_setProcessingStage _ _)
    (Quiet.refl t₄) (yields_any _ _)) ?_
  rintro - t₅ ⟨-, ht₅⟩
  refine Given.bind (Given.tryCatch (F := fun _ _ => False) (given_invokeSynthesis hsynthesis _
    (Quiet.refl t₅)) fun _ _ hfalse => hfalse.elim) ?_
  rintro report t₆ ⟨hreport, ht₆⟩
  have hsound₆ := (SameObjects.of_quiet (ht₅.trans ht₆)).sound h₄.sound
  rw [← ht₆.objects] at hreport
  exact Given.bind (unrefused_saveArtifact hsound₆ (by rintro _ ⟨⟩) (fun _ => hreport) _)
    fun _ _ _ => trivial

end Reviews

/-! ## Delegation -/

section Delegation
variable {run : RunId} {key : IdempotencyKey} {types : List ArtifactType}
variable {t w : World} {story : StoryDetail}

theorem unrefused_getStory (storyId : StoryId) (correlationId : Uuid) :
    (getStory storyId correlationId).RaisesOnly Choice.FaultFree fun e => ¬ e.SaveRefused :=
  .tryCatch (raises_pureCall (P := fun _ => False) fun _ _ hc hfailure => by
    rw [hc.2] at hfailure
    cases hfailure) fun _ he => he.elim

theorem unrefused_reviewRequest (hw : Quiet t w) (references : List ArtifactReference)
    (delegation : DelegationDecision) (correlationId : Uuid) (p : Perspective) :
    Unrefused run key types (fun request u => request.story = story ∧ Quiet t u)
      (TurnExecution.reviewRequest story references delegation correlationId p) w := by
  refine unrefused_of_raises (raises_reviewRequest _ routine_unrefused _ _ _ _)
    (quiet_reviewRequest _ _ _ _ _) hw ?_
  exact Yields.bind (yields_any _ _) fun _ _ _ =>
    Yields.bind (yields_any _ _) fun _ _ _ => rfl

theorem ArtifactType.review_injective : Function.Injective ArtifactType.review := by
  intro p q h
  cases p <;> cases q <;> first | rfl | cases h

/-- What the delegation saves is what is saved already. -/
theorem unrefused_reviews (h : w.StoresSound) {results : List (Perspective × ReviewReport)}
    (hnodup : (results.map Prod.fst).Nodup)
    (hrepeats : ∀ result ∈ results, (Content.review result.2).HasPerspective
      (ArtifactType.review result.1).expectedPerspective →
        (w.objects run).Repeats (.review result.1) key (.review result.2))
    (correlationId : Uuid) :
    Unrefused run key types (fun _ u => u.StoresSound) (traverse (fun result =>
      saveArtifact (.review result.1) run (.review result.2) key correlationId) results) w := by
  induction results generalizing w with
  | nil => exact h
  | cons result results ih =>
      rw [List.map_cons, List.nodup_cons] at hnodup
      have hfirst := hrepeats result List.mem_cons_self
      refine Given.bind (unrefused_saveArtifact h (by rintro _ ⟨⟩) hfirst _)
        fun reference u hu => ?_
      refine Given.bind (ih hu.sound hnodup.2 fun later hlater hperspective => ?_)
        fun _ _ hv => hv
      have hne : ArtifactType.review later.1 ≠ .review result.1 := fun heq =>
        hnodup.1 (ArtifactType.review_injective heq ▸ List.mem_map_of_mem hlater)
      exact hu.repeats hne (hrepeats later (List.mem_cons_of_mem _ hlater) hperspective)

theorem TurnExecution.nodup_perspectives (invoke : Invoke) : (perspectives invoke).Nodup := by
  cases invoke <;> decide

theorem unrefused_executeDelegation (h : w.StoresSound)
    (hreviews : ∀ p, ArtifactType.review p ∈ types) {session : SessionRecord}
    (hrun : session.storyRunId = run) (references : List ArtifactReference)
    (delegation : DelegationDecision) (correlationId : Uuid) :
    Unrefused run key types (fun _ u => u.StoresSound)
      (TurnExecution.executeDelegation session story references delegation key correlationId)
      w := by
  subst hrun
  refine Given.bind (Given.traverse (I := Quiet w) (f := id) (g := Prod.fst)
    (G := fun x : Perspective × ReviewerInvocation => x.2.story = story)
    (fun p _ t ht => ?_) (Quiet.refl w)) ?_
  · refine Given.bind (unrefused_reviewRequest ht _ _ _ p) ?_
    rintro request u ⟨hstory, hu⟩
    exact ⟨⟨hstory, rfl⟩, hu⟩
  rintro requests t ⟨⟨hstory, hrequests⟩, ht⟩
  refine Given.bind (Given.tryCatch (F := fun _ _ => False) (Given.traverse (I := Quiet w)
    (f := Prod.fst) (g := Prod.fst) (G := fun x : Perspective × ReviewReport =>
      (Content.review x.2).HasPerspective (ArtifactType.review x.1).expectedPerspective →
        (w.objects session.storyRunId).Repeats (.review x.1) key (.review x.2))
    (fun x hx t ht => ?_) ht) fun _ _ hfalse => hfalse.elim) ?_
  · refine Given.bind (given_invokeReviewer (hreviews x.1) x.2 ht) ?_
    rintro report u ⟨hrepeats, hu⟩
    rw [hstory x hx] at hrepeats
    exact ⟨⟨hrepeats, rfl⟩, hu⟩
  rintro results u ⟨⟨hrepeats, hresults⟩, hu⟩
  rw [hrequests, List.map_id] at hresults
  refine unrefused_reviews ((SameObjects.of_quiet hu).sound h) ?_ ?_ _
  · rw [hresults]
    exact TurnExecution.nodup_perspectives _
  · rw [hu.objects]
    exact hrepeats

theorem unrefused_maybeSynthesize (h : w.StoresSound)
    (hsynthesis : ArtifactType.synthesis ∈ types) {session : SessionRecord}
    (hrun : session.storyRunId = run) (fresh : List ArtifactReference) (reusePrevious : Bool)
    (correlationId : Uuid) (fallback : ArtifactReference) :
    Unrefused run key types (fun _ _ => True) (TurnExecution.maybeSynthesize session fresh
      reusePrevious key correlationId fallback) w := by
  subst hrun
  unfold TurnExecution.maybeSynthesize
  split_ifs
  · trivial
  · refine Given.bind (unrefused_of_raises (raises_listRunArtifacts _ routine_unrefused _)
      (quiet_listRunArtifacts _ _) (Quiet.refl w) (yields_any _ _)) ?_
    rintro references t ⟨-, ht⟩
    refine Given.bind (unrefused_of_raises (raises_latestPair _ routine_unrefused _ _)
      (quiet_latestPair _ _ _) ht (yields_any _ _)) ?_
    rintro business t ⟨-, ht⟩
    refine Given.bind (unrefused_of_raises (raises_latestPair _ routine_unrefused _ _)
      (quiet_latestPair _ _ _) ht (yields_any _ _)) ?_
    rintro engineering t ⟨-, ht⟩
    refine Given.bind (Given.tryCatch (F := fun _ _ => False) (given_invokeSynthesis hsynthesis _
      ht) fun _ _ hfalse => hfalse.elim) ?_
    rintro report t ⟨hreport, ht⟩
    rw [← ht.objects] at hreport
    exact Given.bind (unrefused_saveArtifact ((SameObjects.of_quiet ht).sound h) (by rintro _ ⟨⟩)
      (fun _ => hreport) _) fun _ _ _ => trivial

end Delegation

/-! ## Facilitator calls -/

section Facilitator
variable (correlationId : Uuid)

/-- Without faults, a facilitator call fails only by its rejected turn. -/
theorem raises_invokeFacilitator {P : PyException → Prop}
    (h : ∀ error : ErrorBody, error.code = .delegationValidation → P (.agentCallFailure error))
    (request : FacilitatorInvocation) :
    (Agents.invokeFacilitator request correlationId).RaisesOnly Choice.FaultFree P := by
  refine .bind (raises_pureCall fun _ _ hc hfailure => ?_) fun output => ?_
  · rw [hc.2] at hfailure
    cases hfailure
  · split
    · exact raisesOnly_ret _
    · exact raisesOnly_raise (h _ rfl)

theorem unrefused_agentFailure (agent : Text) (error : ErrorBody)
    (hcode : error.code = .delegationValidation) :
    ¬ (agentFailure (.agentCallFailure error) correlationId agent).SaveRefused := by
  refine unrefused_of_code ?_
  rw [show (makeError error.code _ _ _ _).code = error.code from rfl, hcode]
  rintro ⟨⟩

theorem unrefused_invokeFirstFacilitator (session : SessionRecord) (key : IdempotencyKey)
    (facilitatorTurn : ℕ) (message : Option Text) (report : SynthesisReport)
    (reference : ArtifactReference) (evidence : List ArtifactReference)
    (turns : List TurnRecord) :
    (TurnsFlow.invokeFirstFacilitator session key facilitatorTurn message report reference
      evidence turns correlationId).RaisesOnly Choice.FaultFree fun e => ¬ e.SaveRefused :=
  .tryCatch (.bind (raises_decisionState (routine_unrefused.upstream _ _ _) _) fun _ =>
    raises_invokeFacilitator _ (unrefused_agentFailure _ _) _) fun _ he => raisesOnly_raise he

theorem unrefused_invokeSummaryFacilitator (session : SessionRecord) (key : IdempotencyKey)
    (turnNumber facilitatorTurn : ℕ) (message : Option Text) (report : SynthesisReport)
    (reference : ArtifactReference) (prior : Option DecisionState)
    (first : FacilitatorTurnOutput) :
    (TurnsFlow.invokeSummaryFacilitator session key turnNumber facilitatorTurn message report
      reference prior first correlationId).RaisesOnly Choice.FaultFree
        fun e => ¬ e.SaveRefused :=
  .bind (raises_listRunArtifacts _ routine_unrefused _) fun _ =>
    .bind (raises_evidence _ routine_unrefused _) fun _ =>
      .tryCatch (.bind (raises_mergedDecisionState (routine_unrefused.upstream _ _ _) _ _ _)
        fun _ => raises_invokeFacilitator _ (unrefused_agentFailure _ _) _)
          fun _ he => raisesOnly_raise he

theorem unrefused_assertOpeningTurn (output : FacilitatorTurnOutput) (report : SynthesisReport)
    {e : PyException} (he : assertOpeningTurn output report correlationId = .error e) :
    ¬ e.SaveRefused := by
  unfold assertOpeningTurn at he
  split at he
  · cases he
  · obtain rfl := Except.error.inj he
    exact unrefused_of_code (by rintro ⟨⟩)
  · next exc hinvalid hopening =>
      unfold validateOpeningTurn validateOpeningFence at hopening
      dsimp only at hopening
      split_ifs at hopening
      · obtain rfl := Except.error.inj hopening
        exact absurd rfl (hinvalid _)
      · split at hopening
        · cases hopening
        · obtain rfl := Except.error.inj hopening
          exact absurd rfl (hinvalid _)

theorem unrefused_openingOutput (sessionId : SessionId) (key : IdempotencyKey)
    (report : SynthesisReport) (reference : ArtifactReference)
    (evidence : List ArtifactReference) :
    (openingOutput sessionId key report reference evidence correlationId).RaisesOnly
      Choice.FaultFree fun e => ¬ e.SaveRefused := by
  refine .bind (.tryCatch (raises_invokeFacilitator _ (P := fun e => ∃ error : ErrorBody,
    error.code = .delegationValidation ∧ e = .agentCallFailure error) (fun error hcode =>
      ⟨error, hcode, rfl⟩) _) fun e he => ?_) fun output => .bind (raisesOnly_ofExcept fun _ he =>
        unrefused_assertOpeningTurn _ _ _ he) fun _ => raisesOnly_ret _
  obtain ⟨error, hcode, rfl⟩ := he
  exact raisesOnly_raise (unrefused_agentFailure _ _ _ hcode)

end Facilitator

/-! ## A turn -/

section Turn
variable {run : RunId} {key : IdempotencyKey} {types : List ArtifactType} {w : World}
variable {session : SessionRecord} (correlationId : Uuid)

theorem unrefused_draftTurn (h : w.StoresSound) (hreviews : ∀ p, ArtifactType.review p ∈ types)
    (hsynthesis : ArtifactType.synthesis ∈ types) (hrun : session.storyRunId = run)
    (message : Option Text) (turns : List TurnRecord) (turnNumber facilitatorTurn : ℕ) :
    Unrefused run key types (fun _ _ => True) (TurnsFlow.draftTurn session message turns
      turnNumber facilitatorTurn key correlationId) w := by
  have hinputs : (Lineage.assembleInputs session correlationId).RaisesOnly Choice.FaultFree
      fun e => ¬ e.SaveRefused := .bind (unrefused_getStory _ _) fun _ =>
    .bind (raises_listRunArtifacts _ routine_unrefused _) fun _ => raisesOnly_ret _
  refine Given.bind (unrefused_of_raises (raises_execute _) (quiet_setProcessingStage _ _)
    (Quiet.refl w) (yields_any _ _)) ?_
  rintro - t ⟨-, ht⟩
  refine Given.bind (unrefused_of_raises hinputs (quiet_assembleInputs _ _) ht
    (yields_any _ _)) ?_
  rintro ⟨story, references⟩ t ⟨-, ht⟩
  refine Given.bind (unrefused_of_raises (raisesOnly_ofExcept fun _ he =>
    raises_latest _ routine_unrefused he) (moves_ofExcept _) ht (yields_any _ _)) ?_
  rintro reference t ⟨-, ht⟩
  refine Given.bind (unrefused_of_raises (raises_synthesisReport _ routine_unrefused _)
    (quiet_synthesisReport _ _) ht (yields_any _ _)) ?_
  rintro report t ⟨-, ht⟩
  refine Given.bind (unrefused_of_raises (raises_evidence _ routine_unrefused _)
    (moves_ofExcept _) ht (yields_any _ _)) ?_
  rintro evidence t ⟨-, ht⟩
  refine Given.bind (unrefused_of_raises (unrefused_invokeFirstFacilitator _ _ _ _ _ _ _ _ _)
    (quiet_invokeFirstFacilitator _ _ _ _ _ _ _ _ _) ht (yields_any _ _)) ?_
  rintro first t ⟨-, ht⟩
  refine Given.bind (unrefused_of_raises (raises_execute _) (quiet_setProcessingStage _ _)
    ht (yields_any _ _)) ?_
  rintro - t ⟨-, ht⟩
  refine Given.bind (unrefused_executeDelegation ((SameObjects.of_quiet ht).sound h) hreviews hrun
    _ _ _) fun fresh u hu => ?_
  refine Given.bind (unrefused_of_raises (raises_execute _) (quiet_setProcessingStage _ _)
    (Quiet.refl u) (yields_any _ _)) ?_
  rintro - v ⟨-, hv⟩
  refine Given.bind (unrefused_maybeSynthesize ((SameObjects.of_quiet hv).sound hu) hsynthesis
    hrun _ _ _ _) fun synthesis v _ => ?_
  cases synthesis.report with
  | none => trivial
  | some report =>
      exact unrefused_any (.bind (raises_execute _) fun _ =>
        .bind (raises_decisionState (by rintro ⟨⟩) _) fun _ =>
          .bind (unrefused_invokeSummaryFacilitator _ _ _ _ _ _ _ _ _ _) fun _ =>
            raisesOnly_ret _)

theorem unrefused_activeTurn (h : w.StoresSound)
    (hreviews : ∀ p, ArtifactType.review p ∈ types)
    (hsynthesis : ArtifactType.synthesis ∈ types) (hrun : session.storyRunId = run)
    (payload : TurnRequest) :
    Unrefused run key types (fun _ _ => True)
      (TurnsFlow.activeTurn session payload key correlationId) w := by
  refine Given.bind (unrefused_of_raises (raises_listTurns routine_unrefused _)
    (quiet_listTurns _) (Quiet.refl w) (yields_any _ _)) ?_
  rintro turns t ⟨-, ht⟩
  split_ifs
  · exact unrefused_any (raises_acceptTurn _ closing_unrefused _ _ _)
  · unfold TurnsFlow.messageTurn
    dsimp only
    split_ifs
    · rintro ⟨⟩
    · exact Given.bind (unrefused_draftTurn correlationId ((SameObjects.of_quiet ht).sound h)
        hreviews hsynthesis hrun _ _ _ _) fun _ _ _ =>
          unrefused_any (raises_commitTurn _ closing_unrefused _ _ _ _ _ _)

theorem unrefused_executeTurn {sessionId : SessionId} (h : w.StoresSound)
    (hrun : ∀ s, w.core sessionId = some s → s.storyRunId = run)
    (hreviews : ∀ p, ArtifactType.review p ∈ types)
    (hsynthesis : ArtifactType.synthesis ∈ types) (payload : TurnRequest) (userId : UserId) :
    Unrefused run key types (fun _ _ => True)
      (TurnsFlow.executeTurn sessionId payload key correlationId userId) w := by
  refine Given.bind (unrefused_of_raises (R := fun _ t => True ∧ SameCores w t)
    (raises_claim routine_unrefused _ _) (moves_claim (fun _ _ => SameObjects.of_quiet)
      (fun _ _ hsame => ⟨hsame.fresh.ge, hsame.clock.ge, hsame.objects⟩) _ _)
    (SameObjects.refl w) ((moves_claim (fun _ _ hq => hq.cores) (fun _ _ hsame => hsame.cores) _
      _).yields (show SameCores w w from rfl) (yields_any _ _))) ?_
  rintro claim t ⟨⟨-, hcores⟩, ht⟩
  cases claim with
  | replay response => exact unrefused_any (raises_responseFromCanonical routine_unrefused _)
  | _ =>
      refine Given.bind (unrefused_of_raises (raises_getSession routine_unrefused _ _)
        (quiet_getSession _ _) (Quiet.refl t) (yields_getSession _ _)) ?_
      rintro found u ⟨hfound, hu⟩
      cases found with
      | none => rintro ⟨⟩
      | some session =>
          obtain ⟨hs, -, -⟩ := hfound session rfl
          rw [World.core, hcores, ← World.core] at hs
          have hsession : session.storyRunId = run := hrun session.core hs
          dsimp only
          split
          · split_ifs
            all_goals first
              | exact unrefused_any (raises_resumeFinalizing _ closing_unrefused _ _)
              | exact unrefused_any (.bind (raises_execute _) fun _ =>
                  raisesOnly_raise (unrefused_of_code (by rintro ⟨⟩)))
          · exact unrefused_activeTurn correlationId
              ((ht.trans (SameObjects.of_quiet hu)).sound h) hreviews hsynthesis hsession _
          · exact unrefused_any (.bind (raises_execute _) fun _ =>
              raisesOnly_raise (unrefused_of_code (by rintro ⟨⟩)))

theorem unrefused_runTurn {sessionId : SessionId} (h : w.StoresSound)
    (hrun : ∀ s, w.core sessionId = some s → s.storyRunId = run)
    (hreviews : ∀ p, ArtifactType.review p ∈ types)
    (hsynthesis : ArtifactType.synthesis ∈ types) (payload : TurnRequest) (userId : UserId) :
    Unrefused run key types (fun _ _ => True)
      (TurnsFlow.runTurn sessionId payload key correlationId userId) w := by
  refine Given.bind (unrefused_of_raises (raises_getSession routine_unrefused _ _)
    (quiet_getSession _ _) (Quiet.refl w) (yields_any _ _)) ?_
  rintro found t ⟨-, ht⟩
  cases found with
  | none => exact unrefused_of_code (by rintro ⟨⟩)
  | some session =>
      refine Given.bind (unrefused_of_raises (raises_acquire (fun _ => not_false) _)
        (quiet_acquire _) ht (yields_any _ _)) ?_
      rintro token u ⟨-, hu⟩
      have hturn : Unrefused run key types (fun _ _ => True)
          (TurnsFlow.executeTurn sessionId payload key correlationId userId) u :=
        unrefused_executeTurn correlationId ((SameObjects.of_quiet hu).sound h)
          (fun s hs => hrun s ((hu.core _).symm.trans hs)) hreviews hsynthesis payload userId
      refine hturn.ensure (fun _ v _ => ?_) fun e v he => ?_
      · exact unrefused_any (raises_releaseLease _ _)
      · exact (unrefused_any (raises_releaseLease _ _)).mono (fun _ _ _ => he) fun _ _ h => h

end Turn

/-! ## A creation -/

section Creation
variable {run : RunId} {key : IdempotencyKey} {types : List ArtifactType} {w : World}
variable {story : StoryDetail} (correlationId : Uuid)

theorem unrefused_initialPipeline (h : w.StoresSound)
    (hstory : (w.objects run).Repeats .story key (.story story))
    (hreviews : ∀ p, ArtifactType.review p ∈ types) (hsynthesis : ArtifactType.synthesis ∈ types)
    (sessionId : SessionId) :
    Unrefused run key types (fun _ _ => True)
      (initialPipeline story run sessionId key correlationId) w := by
  refine Given.bind (unrefused_openingArtifacts h hstory hreviews hsynthesis _ _)
    fun artifacts t _ => unrefused_any ?_
  exact .bind (raises_execute _) fun _ => .bind (unrefused_openingOutput _ _ _ _ _ _) fun _ =>
    .bind raises_now fun _ => .bind raises_now fun _ =>
      .bind (raises_createTurnOrGet routine_unrefused _ _) fun _ =>
        .bind (raises_execute _) fun _ => .bind (raisesOnly_check (by rintro ⟨⟩)) fun _ =>
          .bind (raises_execute _) fun _ => .bind (raises_execute _) fun _ => raisesOnly_ret _

theorem unrefused_pipelineFailed (sessionId : SessionId) {e : PyException}
    (he : ¬ e.SaveRefused) : (pipelineFailed sessionId key e).RaisesOnly Choice.FaultFree
      fun e => ¬ e.SaveRefused := by
  refine .bind (raises_execute _) fun _ => ?_
  cases e with
  | apiError error =>
      dsimp only
      split_ifs
      · exact raisesOnly_raise he
      · exact .bind (raises_execute _) fun _ => raisesOnly_raise he
  | _ => exact raisesOnly_raise he

theorem moves_createStoryRunOrGet (record : StoryRunRecord) :
    (createStoryRunOrGet record).Moves Choice.FaultFree SameObjects := by
  refine moves_bind (moves_statement fun w c => ?_) fun violated => ?_
  · unfold insertStoryRun
    split_ifs <;> exact ⟨le_rfl, (SameObjects.of_quiet (quiet_tick w c)).clock, rfl⟩
  · cases violated with
    | none => exact moves_ret _
    | some violation =>
        refine moves_bind ((quiet_query _).mono fun _ _ => SameObjects.of_quiet) fun existing => ?_
        split
        · exact moves_ret _
        · exact moves_raise _

theorem yields_createStoryRunOrGet (record : StoryRunRecord) :
    (createStoryRunOrGet record).Yields Choice.FaultFree
      (fun storyRun _ => storyRun.storyRunId = record.storyRunId) w := by
  refine Yields.bind (yields_any _ _) fun violated t _ => ?_
  cases violated with
  | none => rfl
  | some violation =>
      refine Yields.bind (S := fun existing _ => ∀ r, existing = some r →
        r.storyRunId = record.storyRunId) (yields_query fun c r hr => ?_) fun existing u hid => ?_
      · have hkey := List.find?_some (show List.find? _ _ = some r from hr)
        exact of_decide_eq_true hkey
      · split
        · next r hfilter => exact hid r (Option.filter_eq_some_iff.mp hfilter).1
        · exact yields_raise _

theorem moves_createSessionOrGet (record : SessionRecord) :
    (createSessionOrGet record).Moves Choice.FaultFree SameObjects := by
  refine moves_bind (moves_statement fun w c => ?_) fun inserted => ?_
  · unfold insertSession
    split_ifs <;> exact ⟨le_rfl, (SameObjects.of_quiet (quiet_tick w c)).clock, rfl⟩
  · cases inserted with
    | true => exact moves_ret _
    | false =>
        refine moves_bind ((quiet_query _).mono fun _ _ => SameObjects.of_quiet) fun existing => ?_
        cases existing with
        | none => exact moves_raise _
        | some row => exact moves_ofExcept _

theorem unrefused_runCreateSession (h : w.StoresSound) (hstory : ArtifactType.story ∈ types)
    (hreviews : ∀ p, ArtifactType.review p ∈ types) (hsynthesis : ArtifactType.synthesis ∈ types)
    (payload : CreateSessionRequest) (userId : UserId) :
    Unrefused ⟨key⟩ key types (fun _ _ => True)
      (runCreateSession payload key correlationId userId) w := by
  refine Given.bind (unrefused_of_raises (raises_claim routine_unrefused _ _) (moves_claim
    (fun _ _ => SameObjects.of_quiet) (fun _ _ hsame => ⟨hsame.fresh.ge, hsame.clock.ge,
      hsame.objects⟩) _ _) (SameObjects.refl w) (yields_any _ _)) ?_
  rintro claim t ⟨-, ht⟩
  cases claim with
  | replay response =>
      refine unrefused_any ?_
      rcases response with _ | response
      · exact raisesOnly_raise (by rintro ⟨⟩)
      · cases response with
        | created response => exact raisesOnly_check (by rintro ⟨⟩)
        | _ => exact raisesOnly_raise (by rintro ⟨⟩)
  | _ =>
      refine Given.bind (given_getStory hstory _ correlationId (Quiet.refl t)) ?_
      rintro story t₁ ⟨hrepeats, ht₁⟩
      refine Given.bind (unrefused_of_raises raises_now quiet_now (Quiet.refl t₁)
        (yields_any _ _)) ?_
      rintro createdAt t₂ ⟨-, ht₂⟩
      refine Given.bind (unrefused_of_raises (raises_createStoryRunOrGet routine_unrefused _)
        (moves_createStoryRunOrGet _) (SameObjects.of_quiet (ht₁.trans ht₂))
        (yields_createStoryRunOrGet _)) ?_
      rintro storyRun t₃ ⟨hrun, ht₃⟩
      refine Given.bind (unrefused_of_raises raises_now (quiet_now.mono fun _ _ =>
        SameObjects.of_quiet) ht₃ (yields_any _ _)) ?_
      rintro createdAt t₄ ⟨-, ht₄⟩
      refine Given.bind (unrefused_of_raises (raises_createSessionOrGet routine_unrefused _)
        (moves_createSessionOrGet _) ht₄ (yields_any _ _)) ?_
      rintro session t₅ ⟨-, ht₅⟩
      split_ifs
      · exact unrefused_any (.bind (raises_execute _) fun _ =>
          raisesOnly_raise (by rintro ⟨⟨⟩, -⟩))
      · rw [← ht₅.objects] at hrepeats
        rw [show storyRun.storyRunId = ⟨key⟩ from hrun]
        exact (unrefused_initialPipeline correlationId ((ht.trans ht₅).sound h) hrepeats hreviews
          hsynthesis _).tryCatch fun _ _ he => unrefused_any (unrefused_pipelineFailed _ he)

end Creation

/-! ## Retries -/

namespace Attempt

/-- What a creation or a turn does before the endpoint answers its exception. -/
def flow (a : Attempt) : Orchestration Unit :=
  match a.request with
  | .createSession payload => do
      let _ ← runCreateSession payload a.key a.correlationId a.userId
      pure ()
  | .turn sessionId payload => do
      let _ ← TurnsFlow.runTurn sessionId payload a.key a.correlationId a.userId
      pure ()
  | .finalize _ | .abandon _ => pure ()

/-- What a flow fetches and saves under the key of its request. -/
def drafts (a : Attempt) : List ArtifactType :=
  match a.request with
  | .createSession _ => [.story, .reviewBusiness, .reviewEngineering, .synthesis]
  | .turn _ _ => [.reviewBusiness, .reviewEngineering, .synthesis]
  | .finalize _ | .abandon _ => []

end Attempt

theorem unrefused_flow {w : World} (h : Inv w) (a : Attempt) :
    Unrefused ⟨a.sessionId.key⟩ a.key a.drafts (fun _ _ => True) a.flow w := by
  unfold Attempt.flow Attempt.drafts Attempt.sessionId
  cases a.request with
  | createSession payload =>
      exact Given.bind (unrefused_runCreateSession _ h.objects (by simp)
        (fun p => by cases p <;> simp [ArtifactType.review]) (by simp) _ _)
          fun _ _ _ => trivial
  | turn sessionId payload =>
      exact Given.bind (unrefused_runTurn _ h.objects (fun _ hs => h.run_of_core hs)
        (fun p => by cases p <;> simp [ArtifactType.review]) (by simp) _ _)
          fun _ _ _ => trivial
  | finalize sessionId => trivial
  | abandon sessionId => trivial

/-- In a fault-free retry whose steps fetch what is saved already under its key, or what
nothing is saved for, no save is refused. -/
theorem retry_saves_accepted {w : World} (hw : Reachable w) (a : Attempt)
    (hfaultFree : ∀ n, (a.choices n).FaultFree)
    (hrefetches : a.flow.Meets (Refetches ⟨a.sessionId.key⟩ a.key a.drafts) a.choices w) :
    ∀ e, (a.flow.run a.choices w).1 = .error e → ¬ e.SaveRefused := by
  intro e he
  have hrun := (unrefused_flow hw.inv a).run (hrefetches.and hfaultFree)
  revert hrun he
  generalize a.flow.run a.choices w = outcome
  obtain ⟨b | e', t⟩ := outcome
  · intro he hrefused
    exact Except.error.inj he ▸ hrefused
  · rintro ⟨⟩

namespace Scenario

/-- How a request fails: status, code and whether the error is retryable. -/
def failedWith {α : Type} : Except PyException α → Option (ℕ × ErrorCode × Bool)
  | .error (.apiError error) =>
      some (error.statusCode, error.error.code, error.error.retryable)
  | _ => none

def secondThoughts (p : Perspective) : ReviewReport :=
  { review p with summary := "On second thoughts, nothing." }

/-- The reviewers word their reports anew. -/
def reworded (choice : Choice) : Choice := { choice with reviewer := fun p _ => secondThoughts p }

/-- The facilitator delegates to the business reviewer and then closes the finding. -/
def consulting : Choice := later (environment fun request =>
  match request.invocationId with
  | .facilitatorSummary .. => closes
  | _ => consults)

def consultation (choice : Choice) (crashAfter : Option ℕ) : Attempt :=
  attempt (.turn ⟨1⟩ ⟨some "Why?", false, rfl⟩) 2 choice crashAfter

/-- A creation and a consulting turn die once the business review is saved. Retried with the
reviewers' new wording, the creation parks its session, and the turn fails for good. -/
theorem reworded_review_refused :
    let opening := attempt (.createSession inBoth) 1 (reworded steady) none
    let opened := opening.program.run opening.choices
      (World.after {} [attempt (.createSession inBoth) 1 steady (some 12)])
    let turn := consultation (reworded consulting) none
    let turned := turn.program.run turn.choices
      (World.after {} [create, consultation consulting (some 15)])
    failedWith opened.1 = some (503, .idempotencyKeyReused, false) ∧
      (opened.2.session ⟨1⟩).map (fun row => row.record.state) = some .parked ∧
      failedWith turned.1 = some (503, .idempotencyKeyReused, false) ∧
      (turned.2.session ⟨1⟩).map (fun row => row.record.state) = some .active := by
  decide +kernel

/-- Every fetch answers the same, whatever is asked. -/
def unchanging : Choice :=
  { steady with story := fun _ => story "story-01", synthesis := fun _ => oneGap }

def answered : ArtifactType → Content
  | .story => .story (story "story-01")
  | .reviewBusiness => .review (review .business)
  | .reviewEngineering => .review (review .engineering)
  | _ => .synthesis oneGap

theorem fenceResult_review (p : Perspective) (story : StoryDetail)
    (previousReview : Option ReviewReport) (extraContext : Option Text) :
    OutputFence.fenceResult (review p) story previousReview extraContext = review p := by
  unfold OutputFence.fenceResult OutputFence.applyFence
  cases previousReview with
  | none => rfl
  | some previous =>
      cases extraContext with
      | none => rfl
      | some context =>
          by_cases hcontext : context = ""
          · subst hcontext
            rfl
          · simp only [if_neg hcontext]
            rfl

theorem answered_of_fetches {β : Type} {f : Choice → World → β × World} {type : ArtifactType}
    {content : Content} (h : Fetches unchanging f type content) : content = answered type := by
  cases h with
  | story storyId => rfl
  | review p request =>
      refine (congrArg Content.review (fenceResult_review p _ _ _)).trans ?_
      cases p <;> rfl
  | synthesis request => rfl

/-- What is saved under the creation's key is what the fetches answer. -/
def Kept (w : World) : Prop :=
  ∀ type ∈ create.drafts, ∀ r ∈ (w.objects ⟨1⟩).recordUnder type 1,
    r.reference.checksumSha256 = canonicalChecksum (answered type)

instance : DecidablePred Kept := fun _ =>
  inferInstanceAs (Decidable (∀ type ∈ create.drafts, ∀ r ∈ _, _ = _))

/-- A creation that dies once the business review is saved. -/
def cutShort : Attempt := attempt (.createSession inBoth) 1 unchanging (some 12)

def retried : Attempt := { cutShort with crashAfter := none }

theorem retry_unchanged_accepted : Reachable (World.after {} [cutShort]) ∧
    ∀ e, (retried.flow.run retried.choices (World.after {} [cutShort])).1 = .error e →
      ¬ e.SaveRefused := by
  refine ⟨reachable_after _,
    retry_saves_accepted (reachable_after _) retried (fun _ => ⟨rfl, rfl⟩) ?_⟩
  have hkept : retried.flow.Meets (fun _ _ _ t => Kept t) retried.choices
      (World.after {} [cutShort]) := by
    decide +kernel
  refine (hkept.and (B := fun c => c = unchanging) fun _ => rfl).mono ?_
  rintro β f c t ⟨rfl, hkept⟩ type htype content hfetches - r hr
  rw [answered_of_fetches hfetches]
  exact hkept type htype r hr

end Scenario
end StoryReview
