import StoryReview.AuditConduct

/-!
# Every request keeps the audit trail

The flows of the audited service, one rule for each, and from them every run: the trail
only grows, each of its records names a session and artifacts of the session's run, and no
turn or answered creation is stored before the agents behind it are on record.
-/
namespace StoryReview
open Program Flows RecordsStore

namespace Audit
variable {J : AuditedWorld → Prop} {t : AuditedWorld}

/-! ## Parts -/

theorem follows_nothing {α : Type} {p : Orchestration α}
    (hp : p.Moves (fun _ => True) AddsNothing) (hJ : Lasting J) (ht : Known J t) :
    Follows (unaudited p) (fun _ => Known J) t :=
  follows_part hp hJ (fun _ _ _ h => h.elim) (fun _ _ _ h => h.elim) ht

theorem follows_setProcessingStage (id : SessionId) (stage : Option ProcessingStage)
    (hJ : Lasting J) (ht : Known J t) :
    Follows (unaudited (setProcessingStage id stage)) (fun _ => Known J) t :=
  follows_quiet (quiet_setProcessingStage _ _) hJ ht

theorem follows_saveArtifact (type : ArtifactType) (run : RunId) (content : Content)
    (key : IdempotencyKey) (correlationId : Uuid) (hJ : Lasting J) (ht : Known J t) :
    Follows (unaudited (saveArtifact type run content key correlationId))
      (fun reference => Known fun t => J t ∧ t.world.SavedUnder run key type reference) t :=
  follows_gives (serves_adds.saveArtifact _ _ _ _ _)
    (fun _ hw => gives_saveArtifact type run content key correlationId hw) hJ ht

theorem follows_recordAgentRuns {key : IdempotencyKey} {correlationId : Uuid}
    {storyRunId : RunId} {sessionId : SessionId} {runs : List AgentRun} (hJ : Lasting J)
    (hruns : ∀ run ∈ runs, ∀ t, Known J t → Accounted ⟨key, .opening run.agent⟩ run.agent
      storyRunId sessionId run.inputReferences run.outputReferences t.world)
    (ht : Known J t) :
    Follows (recordAgentRuns key correlationId storyRunId sessionId runs)
      (fun _ => Known fun t => J t ∧ ∀ run ∈ runs, t.HasRun ⟨key, .opening run.agent⟩) t := by
  refine (follows_traverse (T := fun run _ t => t.HasRun ⟨key, .opening run.agent⟩ ∧ True)
    (fun run _ => (lasting_hasRun _).and lasting_true)
    (fun run hrun t ht => ?_) ht).bind fun _ t h => ?_
  · exact (follows_recordLabelled hJ (hruns run hrun) ht).mono
      fun _ _ h => ⟨h.1, h.2.1, h.2.2, trivial⟩
  · exact ⟨h.1, h.2.1, (List.forall₂_and_left _ _ |>.mp h.2.2).1⟩

/-! ## Flow 1 -/

theorem follows_fanOutReviewers (story : StoryDetail) (correlationId : Uuid) (hJ : Lasting J)
    (ht : Known J t) : Follows (fanOutReviewers story correlationId) (fun _ => Known J) t := by
  refine Follows.tryCatch ?_ fun e t ht => ht
  refine (follows_timedInvoke (quiet_invokeReviewer _ _) hJ ht).bind fun business t ht => ?_
  exact (follows_timedInvoke (quiet_invokeReviewer _ _) hJ ht).bind fun engineering t ht => ht

/-- A reviewer reads one artifact and saves its own. -/
theorem accounted_reviewer {id : AgentRunId} {p : Perspective} {run : RunId}
    {sessionId : SessionId} {input output : ArtifactReference} {w : World} (hw : w.Sane)
    (hlabel : id.label.agent = .reviewer p) (hsession : w.BelongsTo sessionId run)
    (hinput : w.Stores run input) (hinputs : id.label.inputs = [input.type])
    (houtput : w.SavedUnder run id.key (.review p) output) :
    Accounted id (.reviewer p) run sessionId [input] [output] w where
  label := hlabel
  session := hsession
  stored := by
    intro reference href
    rw [List.singleton_append, List.mem_pair] at href
    rcases href with rfl | rfl
    · exact hinput
    · exact houtput.stores
  consumed := hinputs.symm
  produced := by
    rw [List.map_singleton, houtput.type_eq hw]
    cases p <;> rfl
  saved := by
    intro _ reference href
    rw [List.mem_singleton.mp href]
    cases p <;> exact houtput

/-- The synthesis reads a review of each perspective and saves its report. -/
theorem accounted_synthesis {id : AgentRunId} {run : RunId} {sessionId : SessionId}
    {business engineering output : ArtifactReference} {w : World} (hw : w.Sane)
    (hlabel : id.label.agent = .synthesis)
    (hinputs : id.label.inputs = [.reviewBusiness, .reviewEngineering])
    (hsession : w.BelongsTo sessionId run)
    (hbusiness : w.Stores run business ∧ business.type = .reviewBusiness)
    (hengineering : w.Stores run engineering ∧ engineering.type = .reviewEngineering)
    (houtput : w.SavedUnder run id.key .synthesis output) :
    Accounted id .synthesis run sessionId [business, engineering] [output] w where
  label := hlabel
  session := hsession
  stored := by
    intro reference href
    simp only [List.cons_append, List.nil_append, List.mem_cons, List.not_mem_nil,
      or_false] at href
    rcases href with rfl | rfl | rfl
    · exact hbusiness.1
    · exact hengineering.1
    · exact houtput.stores
  consumed := by
    rw [hinputs, List.map_cons, List.map_singleton, hbusiness.2, hengineering.2]
  produced := by
    rw [List.map_singleton, houtput.type_eq hw]
    rfl
  saved := by
    intro _ reference href
    rw [List.mem_singleton.mp href]
    exact houtput

/-- The facilitator reads the synthesis and its evidence; the record names the synthesis. -/
theorem accounted_facilitator {id : AgentRunId} {run : RunId} {sessionId : SessionId}
    {synthesis : ArtifactReference} {evidence : List ArtifactReference} {w : World}
    (hlabel : id.label.agent = .facilitator)
    (hinputs : id.label.inputs = [.synthesis, .story, .reviewBusiness, .reviewEngineering])
    (hsession : w.BelongsTo sessionId run)
    (hsynthesis : w.Stores run synthesis ∧ synthesis.type = .synthesis)
    (hevidence : (∀ reference ∈ evidence, w.Stores run reference) ∧
      evidence.map ArtifactReference.type = [.story, .reviewBusiness, .reviewEngineering]) :
    Accounted id .facilitator run sessionId (synthesis :: evidence) [synthesis] w where
  label := hlabel
  session := hsession
  stored := by
    intro reference href
    rw [List.mem_append, List.mem_cons, List.mem_singleton] at href
    rcases href with (rfl | href) | rfl
    · exact hsynthesis.1
    · exact hevidence.1 reference href
    · exact hsynthesis.1
  consumed := by
    rw [hinputs, List.map_cons, hsynthesis.2, hevidence.2]
  produced := by
    rw [List.map_singleton, hsynthesis.2]
    rfl
  saved := fun h => absurd rfl h

/-- What an opening saved, and who is on record for it. -/
structure OpeningKnown (key : IdempotencyKey) (run : RunId) (artifacts : OpeningArtifacts)
    (t : AuditedWorld) : Prop where
  story : t.world.SavedUnder run key .story artifacts.story
  business : t.world.SavedUnder run key .reviewBusiness artifacts.business
  engineering : t.world.SavedUnder run key .reviewEngineering artifacts.engineering
  synthesis : t.world.SavedUnder run key .synthesis artifacts.synthesis
  runs : ∀ agent, agent ≠ .facilitator → t.HasRun ⟨key, .opening agent⟩

theorem lasting_openingKnown (key : IdempotencyKey) (run : RunId)
    (artifacts : OpeningArtifacts) : Lasting (OpeningKnown key run artifacts) :=
  fun _ _ h hsees => {
    story := h.story.endures hsees.endures
    business := h.business.endures hsees.endures
    engineering := h.engineering.endures hsees.endures
    synthesis := h.synthesis.endures hsees.endures
    runs := fun agent hagent => (h.runs agent hagent).mono hsees.agentRuns }

section Creation
variable {story : StoryDetail} {run : RunId} {sessionId : SessionId} {key : IdempotencyKey}
variable {correlationId : Uuid}

theorem follows_openingArtifacts (hJ : Lasting J)
    (hsession : ∀ t, J t → t.world.BelongsTo sessionId run) (ht : Known J t) :
    Follows (openingArtifacts story run sessionId key correlationId)
      (fun artifacts => Known fun t => J t ∧ OpeningKnown key run artifacts t) t := by
  refine (follows_setProcessingStage _ _ hJ ht).bind fun _ t ht => ?_
  refine (follows_saveArtifact .story _ _ _ _ hJ ht).bind fun story' t ht => ?_
  have hJ := hJ.and (lasting_savedUnder run key .story story')
  refine (follows_fanOutReviewers _ _ hJ ht).bind fun reviews t ht => ?_
  refine (follows_saveArtifact .reviewBusiness _ _ _ _ hJ ht).bind fun business t ht => ?_
  have hJ := hJ.and (lasting_savedUnder run key .reviewBusiness business)
  refine (follows_saveArtifact .reviewEngineering _ _ _ _ hJ ht).bind fun engineering t ht => ?_
  have hJ := hJ.and (lasting_savedUnder run key .reviewEngineering engineering)
  refine (follows_recordAgentRuns hJ (fun r hr t ht => ?_) ht).bind fun _ t ht => ?_
  · obtain ⟨hsane, ⟨⟨ht, hstory⟩, hbusiness⟩, hengineering⟩ := ht
    have hinput : [ArtifactType.story] = [story'.type] := by rw [hstory.type_eq hsane]
    rcases List.mem_pair.mp hr with rfl | rfl
    · exact accounted_reviewer (p := .business) hsane rfl (hsession t ht) hstory.stores hinput
        hbusiness
    · exact accounted_reviewer (p := .engineering) hsane rfl (hsession t ht) hstory.stores
        hinput hengineering
  have hJ := hJ.and (((lasting_hasRun ⟨key, .opening .businessReviewer⟩).and
    (lasting_hasRun ⟨key, .opening .engineeringReviewer⟩)))
  refine (follows_setProcessingStage _ _ hJ ⟨ht.1, ht.2.1, ht.2.2 _ (.head _),
    ht.2.2 _ (.tail _ (.head _))⟩).bind fun _ t ht => ?_
  refine (Follows.tryCatch (follows_timedInvoke (quiet_invokeSynthesis _) hJ ht)
    fun e t ht => ?_).bind fun report t ht => ?_
  · exact ht
  refine (follows_saveArtifact .synthesis _ _ _ _ hJ ht).bind fun synthesis t ht => ?_
  have hJ := hJ.and (lasting_savedUnder run key .synthesis synthesis)
  refine (follows_recordAgentRuns hJ (fun r hr t ht => ?_) ht).bind fun _ t ht => ?_
  · obtain ⟨hsane, ⟨⟨⟨⟨ht, hstory⟩, hbusiness⟩, hengineering⟩, hruns⟩, hsynthesis⟩ := ht
    cases List.mem_singleton.mp hr
    exact accounted_synthesis hsane rfl rfl (hsession t ht)
      ⟨hbusiness.stores, hbusiness.type_eq hsane⟩
      ⟨hengineering.stores, hengineering.type_eq hsane⟩ hsynthesis
  · obtain ⟨hsane, ⟨⟨⟨⟨⟨ht, hstory⟩, hbusiness⟩, hengineering⟩, hruns⟩, hsynthesis⟩, hrun⟩ := ht
    refine ⟨hsane, ht, hstory, hbusiness, hengineering, hsynthesis, fun agent hagent => ?_⟩
    cases agent with
    | facilitator => exact absurd rfl hagent
    | businessReviewer => exact hruns.1
    | engineeringReviewer => exact hruns.2
    | synthesis => exact hrun _ (.head _)

theorem follows_openingOutput {report : SynthesisReport} {reference : ArtifactReference}
    {evidence : List ArtifactReference} (hJ : Lasting J) (ht : Known J t) :
    Follows (openingOutput sessionId key report reference evidence correlationId)
      (fun _ => Known J) t := by
  refine ((follows_timedInvoke (quiet_invokeFacilitator _ _) hJ ht).tryCatch fun e t ht =>
    ?_).bind fun facilitator t ht => ?_
  · cases e <;> exact ht
  · exact Follows.ofExcept_bind ht fun _ _ => ht

/-- The opening turn comes after the agents it speaks for. -/
theorem recorded_openingRecord {artifacts : OpeningArtifacts}
    {output : FacilitatorTurnOutput} {createdAt completedAt : Time}
    (h : OpeningKnown key run artifacts t) :
    t.Recorded ⟨openingRecord sessionId correlationId output artifacts createdAt completedAt,
      .createSession key⟩ where
  message := by rintro _ ⟨⟩
  delegated := by rintro _ ⟨⟩
  opening := by
    rintro _ ⟨⟩
    exact h.runs

theorem follows_initialPipeline (hJ : Lasting J)
    (hsession : ∀ t, J t → t.world.BelongsTo sessionId run) (ht : Known J t) :
    Follows (initialPipeline story run sessionId key correlationId) (fun _ => Known J) t := by
  refine (follows_openingArtifacts hJ hsession ht).bind fun artifacts t ht => ?_
  have hJ := hJ.and (lasting_openingKnown key run artifacts)
  refine (follows_setProcessingStage _ _ hJ ht).bind fun _ t ht => ?_
  refine (follows_openingOutput hJ ht).bind fun facilitator t ht => ?_
  refine (follows_quiet quiet_now hJ ht).bind fun createdAt t ht => ?_
  refine (follows_quiet quiet_now hJ ht).bind fun completedAt t ht => ?_
  refine (follows_part (P := (· = ⟨openingRecord sessionId correlationId facilitator.result
    artifacts createdAt completedAt, .createSession key⟩)) (Q := fun _ => False)
      (serves_adds.createTurnOrGet rfl) hJ (fun t row h hrow => hrow ▸ recorded_openingRecord h.2)
        (fun _ _ _ h => h.elim) ht).bind fun turn t ht => ?_
  refine (follows_recordAgentRuns hJ (fun r hr t ht => ?_) ht).bind fun _ t ht => ?_
  · obtain ⟨hsane, ht, hopening⟩ := ht
    cases List.mem_singleton.mp hr
    refine accounted_facilitator rfl rfl (hsession t ht) ⟨hopening.synthesis.stores,
      hopening.synthesis.type_eq hsane⟩ ⟨fun reference href => ?_, ?_⟩
    · simp only [List.mem_cons, List.not_mem_nil, or_false] at href
      rcases href with rfl | rfl | rfl
      · exact hopening.story.stores
      · exact hopening.business.stores
      · exact hopening.engineering.stores
    · simp only [List.map_cons, List.map_nil, hopening.story.type_eq hsane,
        hopening.business.type_eq hsane, hopening.engineering.type_eq hsane]
  have hJ := hJ.and (lasting_hasRun ⟨key, .opening .facilitator⟩)
  refine (follows_quiet (quiet_touchSession _) hJ ⟨ht.1, ht.2.1, ht.2.2 _ (.head _)⟩).bind
    fun _ t ht => ?_
  refine Follows.ofExcept_bind ht fun response _ => ?_
  -- the creation is answered with its facilitator on record
  refine (follows_part (P := fun _ => False) (Q := (key = ·)) (serves_adds.complete rfl _) hJ
    (fun _ _ _ h => h.elim) (fun t key' h hkey => hkey ▸ h.2) ht).bind fun _ t ht => ?_
  exact (follows_setProcessingStage _ _ hJ ht).bind fun _ t ht => ⟨ht.1, ht.2.1.1⟩

end Creation

theorem follows_runCreateSession (payload : CreateSessionRequest) (key : IdempotencyKey)
    (correlationId : Uuid) (userId : UserId) (ht : t.world.Sane) :
    Follows (runCreateSession payload key correlationId userId)
      (fun _ => Known fun _ => True) t := by
  have hJ := lasting_true
  refine (follows_nothing (serves_adds.claim _ _) hJ ⟨ht, trivial⟩).bind fun claim t ht => ?_
  split
  · exact Follows.ofExcept ht fun _ _ => ht
  · exact ht.1
  · exact ht.1
  · refine (follows_quiet (quiet_getStory _ _) hJ ht).bind fun story t ht => ?_
    refine (follows_quiet quiet_now hJ ht).bind fun createdAt t ht => ?_
    refine (follows_gives (serves_adds.createStoryRunOrGet _)
      (fun _ hw => gives_createStoryRunOrGet _ hw) hJ ht).bind fun storyRun t ht => ?_
    obtain ⟨hsane, -, hrun⟩ := ht
    refine (follows_quiet quiet_now hJ ⟨hsane, trivial⟩).bind fun createdAt t ht => ?_
    refine (follows_gives (serves_adds.createSessionOrGet rfl)
      (fun _ hw => gives_createSessionOrGet rfl hw) hJ ht).bind fun session t ht => ?_
    split_ifs
    · exact (follows_nothing (serves_adds.release _) hJ ⟨ht.1, trivial⟩).bind fun _ t ht => ht.1
    · obtain ⟨hsane, -, hsession⟩ := ht
      refine ((follows_initialPipeline (lasting_belongsTo session.sessionId
        storyRun.storyRunId) (fun t h => h) ⟨hsane, ?_⟩).mono fun _ t ht =>
          ⟨ht.1, trivial⟩).tryCatch fun e t ht => ?_
      · exact hrun ▸ hsession
      · exact follows_nothing (serves_adds.pipelineFailed _ _ _) hJ ⟨ht, trivial⟩

theorem follows_postSession (payload : CreateSessionRequest) (key : IdempotencyKey)
    (correlationId : Uuid) (userId : UserId) (ht : t.world.Sane) :
    Follows (postSession payload key correlationId userId) (fun _ => Known fun _ => True) t := by
  refine (follows_runCreateSession payload key correlationId userId ht).tryCatch
    fun e t ht => ?_
  cases e <;> exact ht

/-! ## Delegation -/

theorem mem_of_latest {references : List ArtifactReference} {type : ArtifactType}
    {perspective : Option Perspective} {correlationId : Uuid} {reference : ArtifactReference}
    (h : Lineage.latest references type perspective correlationId = .ok reference) :
    reference ∈ references ∧ reference.type = type := by
  obtain ⟨hmem, htype⟩ :=
    List.mem_filter.mp (Lineage.mem_of_maxVersion (Lineage.latest_eq_ok h))
  exact ⟨hmem, (of_decide_eq_true htype).1⟩

theorem mem_of_evidence {references evidence : List ArtifactReference} {correlationId : Uuid}
    (h : Lineage.evidence references correlationId = .ok evidence) :
    (∀ reference ∈ evidence, reference ∈ references) ∧
      evidence.map ArtifactReference.type = [.story, .reviewBusiness, .reviewEngineering] := by
  obtain ⟨story, business, engineering, hstory, hbusiness, hengineering, rfl⟩ := evidence_ok h
  have hstory := mem_of_latest hstory
  have hbusiness := mem_of_latest hbusiness
  have hengineering := mem_of_latest hengineering
  refine ⟨fun reference href => ?_, ?_⟩
  · simp only [List.mem_cons, List.not_mem_nil, or_false] at href
    rcases href with rfl | rfl | rfl
    · exact hstory.1
    · exact hbusiness.1
    · exact hengineering.1
  · simp only [List.map_cons, List.map_nil, hstory.2, hbusiness.2, hengineering.2]

/-- Every result of the traversal satisfies `S`. -/
theorem follows_traverse_all {α β : Type} {f : β → Audited α} {S : α → Prop} {xs : List β}
    (hf : ∀ x ∈ xs, ∀ t, Known J t → Follows (f x) (fun y => Known fun t => J t ∧ S y) t)
    (ht : Known J t) :
    Follows (Program.traverse f xs) (fun ys => Known fun t => J t ∧ ∀ y ∈ ys, S y) t := by
  refine (follows_traverse (T := fun _ y _ => S y ∧ True) (fun _ _ _ _ h _ => h)
    (fun x hx t ht => ?_) ht).mono fun ys t h => ?_
  · exact (hf x hx t ht).mono fun _ _ h => ⟨h.1, h.2.1, h.2.2, trivial⟩
  · have hflip : List.Forall₂ (fun y _ => S y ∧ True) ys xs := h.2.2.flip
    exact ⟨h.1, h.2.1, ((List.forall₂_and_left _ _).mp hflip).1⟩

section Turns
variable {session : SessionRecord} {story : StoryDetail} {references : List ArtifactReference}
variable {key : IdempotencyKey} {turnNumber : ℕ} {correlationId : Uuid}

theorem follows_recordRun {label : Option RunLabel} {run : AgentRun} (hJ : Lasting J)
    (hrun : ∀ t, Known J t → Accounted ⟨key, label.getD (.turn run.agent turnNumber)⟩ run.agent
      session.storyRunId session.sessionId run.inputReferences run.outputReferences t.world)
    (ht : Known J t) :
    Follows (recordRun key correlationId session turnNumber run label) (fun _ => Known fun t =>
      J t ∧ t.HasRun ⟨key, label.getD (.turn run.agent turnNumber)⟩) t :=
  follows_recordLabelled hJ hrun ht

theorem follows_executeDelegation {delegation : DelegationDecision} (hJ : Lasting J)
    (hsession : ∀ t, J t → t.world.BelongsTo session.sessionId session.storyRunId)
    (hreferences : ∀ t, J t → ∀ reference ∈ references,
      t.world.Stores session.storyRunId reference) (ht : Known J t) :
    Follows (executeDelegation session story references delegation key turnNumber
      correlationId) (fun _ => Known J) t := by
  -- every re-review is handed the perspective's latest review
  refine (follows_traverse_all (S := fun y : Perspective × ArtifactReference ×
    ReviewerInvocation => y.2.1 ∈ references ∧ y.2.1.type = .review y.1)
      (fun p _ t ht => ?_) ht).bind fun requests t ht => ?_
  · refine Follows.ofExcept_bind ht fun previous hprevious => ?_
    refine (follows_quiet (quiet_reviewReport _ _) hJ ht).bind fun report t ht => ?_
    exact ⟨ht.1, ht.2, mem_of_latest hprevious⟩
  obtain ⟨hsane, ht, hrequests⟩ := ht
  refine (Follows.tryCatch (follows_traverse_all (J := J) (S := fun y : Perspective ×
    ArtifactReference × TimedResult ReviewReport => y.2.1 ∈ references ∧
      y.2.1.type = .review y.1) (fun request hrequest t ht => ?_) ⟨hsane, ht⟩)
        fun e t ht => ?_).bind fun results t ht => ?_
  · obtain ⟨p, previous, request⟩ := request
    refine (follows_timedInvoke (quiet_invokeReviewer _ _) hJ ht).bind fun result t ht => ?_
    exact ⟨ht.1, ht.2, hrequests _ hrequest⟩
  · exact ht
  obtain ⟨hsane, ht, hresults⟩ := ht
  refine (follows_traverse_all (J := J) (S := fun _ => True) (fun result hresult t ht => ?_)
    ⟨hsane, ht⟩).mono fun _ _ h => ⟨h.1, h.2.1⟩
  obtain ⟨p, previous, result⟩ := result
  obtain ⟨hmem, htype⟩ := hresults _ hresult
  refine (follows_saveArtifact (.review p) _ _ _ _ hJ ht).bind fun reference t ht => ?_
  refine (follows_recordRun (hJ.and (lasting_savedUnder _ _ _ _)) (fun t ht => ?_) ht).bind
    fun _ t ht => ⟨ht.1, ht.2.1.1, trivial⟩
  refine accounted_reviewer ht.1 rfl (hsession t ht.2.1) (hreferences t ht.2.1 _ hmem) ?_ ht.2.2
  rw [htype]
  cases p <;> rfl

/-- A new synthesis is saved, and its agent on record. -/
theorem follows_maybeSynthesize {newReferences : List ArtifactReference} {reuse : Bool}
    {fallback : ArtifactReference} (hJ : Lasting J)
    (hsession : ∀ t, J t → t.world.BelongsTo session.sessionId session.storyRunId)
    (ht : Known J t) :
    Follows (maybeSynthesize session newReferences reuse key turnNumber correlationId fallback)
      (fun outcome => Known fun t => J t ∧ (outcome.report.isSome = true →
        t.world.SavedUnder session.storyRunId key .synthesis outcome.reference ∧
        t.HasRun ⟨key, .turn .synthesis turnNumber⟩)) t := by
  unfold maybeSynthesize
  split_ifs
  · exact ⟨ht.1, ht.2, by simp⟩
  refine (follows_gives (serves_adds.quiet (quiet_listRunArtifacts _ _))
    (fun _ hw => gives_listRunArtifacts _ _ hw) hJ ht).bind fun references t ht => ?_
  have hstored := hJ.and (lasting_stores session.storyRunId references)
  refine (follows_gives (serves_adds.quiet (quiet_latestPair _ _ _))
    (fun _ hw => gives_latestPair _ _ _ hw) hstored ht).bind fun business t ht => ?_
  obtain ⟨hsane, ht, hbusiness⟩ := ht
  refine (follows_gives (serves_adds.quiet (quiet_latestPair _ _ _))
    (fun _ hw => gives_latestPair _ _ _ hw) hstored ⟨hsane, ht⟩).bind fun engineering t ht => ?_
  obtain ⟨hsane, ht, hengineering⟩ := ht
  have hbusiness := mem_of_latest hbusiness
  have hengineering := mem_of_latest hengineering
  refine (Follows.tryCatch (follows_timedInvoke (quiet_invokeSynthesis _) hstored ⟨hsane, ht⟩)
    fun e t ht => ?_).bind fun report t ht => ?_
  · exact ht
  refine (follows_saveArtifact .synthesis _ _ _ _ hstored ht).bind fun reference t ht => ?_
  refine (follows_recordRun (hstored.and (lasting_savedUnder _ _ _ _)) (fun t ht => ?_)
    ht).bind fun _ t ht => ?_
  · obtain ⟨hsane, ⟨ht, hrefs⟩, hsaved⟩ := ht
    exact accounted_synthesis hsane rfl rfl (hsession t ht)
      ⟨hrefs _ hbusiness.1, hbusiness.2⟩ ⟨hrefs _ hengineering.1, hengineering.2⟩ hsaved
  · exact ⟨ht.1, ht.2.1.1.1, fun _ => ⟨ht.2.1.2, ht.2.2⟩⟩

/-! ## Flow 2 -/

open TurnsFlow

theorem follows_invokeSummaryFacilitator {facilitatorTurn : ℕ} {message : Option Text}
    {report : SynthesisReport} {reference : ArtifactReference} {prior : Option DecisionState}
    {first : FacilitatorTurnOutput} (hJ : Lasting J)
    (hsession : ∀ t, J t → t.world.BelongsTo session.sessionId session.storyRunId)
    (hreference : ∀ t, Known J t → t.world.Stores session.storyRunId reference ∧
      reference.type = .synthesis) (ht : Known J t) :
    Follows (invokeSummaryFacilitator session key turnNumber facilitatorTurn message report
      reference prior first correlationId)
      (fun _ => Known fun t => J t ∧ t.HasRun ⟨key, .facilitatorSummary turnNumber⟩) t := by
  refine (follows_gives (serves_adds.quiet (quiet_listRunArtifacts _ _))
    (fun _ hw => gives_listRunArtifacts _ _ hw) hJ ht).bind fun references t ht => ?_
  have hstored := hJ.and (lasting_stores session.storyRunId references)
  refine Follows.ofExcept_bind ht fun evidence hevidence => ?_
  have hevidence := mem_of_evidence hevidence
  refine (Follows.tryCatch (Follows.ofExcept_bind ht fun state _ =>
    follows_timedInvoke (quiet_invokeFacilitator _ _) hstored ht) fun e t ht => ?_).bind
      fun summary t ht => ?_
  · exact ht
  refine (follows_recordRun hstored (fun t ht => ?_) ht).bind fun _ t ht =>
    ⟨ht.1, ht.2.1.1, ht.2.2⟩
  obtain ⟨hsane, ht, hrefs⟩ := ht
  exact accounted_facilitator rfl rfl (hsession t ht) (hreference t ⟨hsane, ht⟩)
    ⟨fun r hr => hrefs r (hevidence.1 r hr), hevidence.2⟩

theorem follows_invokeFirstFacilitator {facilitatorTurn : ℕ} {message : Option Text}
    {report : SynthesisReport} {reference : ArtifactReference}
    {evidence : List ArtifactReference} {turns : List TurnRecord} (hJ : Lasting J)
    (ht : Known J t) :
    Follows (invokeFirstFacilitator session key facilitatorTurn message report reference
      evidence turns correlationId) (fun _ => Known J) t := by
  refine Follows.tryCatch (Follows.ofExcept_bind ht fun state _ =>
    follows_timedInvoke (quiet_invokeFacilitator _ _) hJ ht) fun e t ht => ?_
  exact ht

/-- Who is on record for a draft. -/
structure DraftKnown (key : IdempotencyKey) (turnNumber : ℕ) (draft : TurnDraft)
    (t : AuditedWorld) : Prop where
  facilitator : t.HasRun ⟨key, .turn .facilitator turnNumber⟩
  delegated : draft.delegationRationaleReply.isSome = true →
    t.HasRun ⟨key, .turn .synthesis turnNumber⟩ ∧ t.HasRun ⟨key, .facilitatorSummary turnNumber⟩

theorem lasting_draftKnown (key : IdempotencyKey) (turnNumber : ℕ) (draft : TurnDraft) :
    Lasting (DraftKnown key turnNumber draft) :=
  fun _ _ h hsees => ⟨h.facilitator.mono hsees.agentRuns, fun hsome =>
    ⟨(h.delegated hsome).1.mono hsees.agentRuns, (h.delegated hsome).2.mono hsees.agentRuns⟩⟩

theorem follows_draftTurn {message : Option Text} {turns : List TurnRecord}
    {facilitatorTurn : ℕ} (hJ : Lasting J)
    (hsession : ∀ t, J t → t.world.BelongsTo session.sessionId session.storyRunId)
    (ht : Known J t) :
    Follows (draftTurn session message turns turnNumber facilitatorTurn key correlationId)
      (fun draft => Known fun t => J t ∧ DraftKnown key turnNumber draft t) t := by
  refine (follows_setProcessingStage _ _ hJ ht).bind fun _ t ht => ?_
  refine (follows_gives (serves_adds.quiet (quiet_assembleInputs _ _))
    (fun _ hw => gives_assembleInputs _ _ hw) hJ ht).bind fun inputs t ht => ?_
  obtain ⟨story, references⟩ := inputs
  have hstored := hJ.and (lasting_stores session.storyRunId references)
  refine Follows.ofExcept_bind ht fun synthesisReference hlatest => ?_
  have hlatest := mem_of_latest hlatest
  refine (follows_quiet (quiet_synthesisReport _ _) hstored ht).bind fun report t ht => ?_
  refine Follows.ofExcept_bind ht fun evidence hevidence => ?_
  have hevidence := mem_of_evidence hevidence
  refine (follows_invokeFirstFacilitator hstored ht).bind fun first t ht => ?_
  refine (follows_recordRun hstored (fun t ht => ?_) ht).bind fun _ t ht => ?_
  · obtain ⟨hsane, ht, hrefs⟩ := ht
    exact accounted_facilitator rfl rfl (hsession t ht) ⟨hrefs _ hlatest.1, hlatest.2⟩
      ⟨fun r hr => hrefs r (hevidence.1 r hr), hevidence.2⟩
  have hfirst := hstored.and (lasting_hasRun ⟨key, .turn .facilitator turnNumber⟩)
  refine (follows_setProcessingStage _ _ hfirst ht).bind fun _ t ht => ?_
  refine (follows_executeDelegation hfirst (fun t h => hsession t h.1.1) (fun t h => h.1.2)
    ht).bind fun newReferences t ht => ?_
  refine (follows_setProcessingStage _ _ hfirst ht).bind fun _ t ht => ?_
  refine (follows_maybeSynthesize hfirst (fun t h => hsession t h.1.1) ht).bind
    fun synthesis t ht => ?_
  obtain ⟨hsane, ht, hsynthesis⟩ := ht
  split
  · exact ⟨hsane, ht.1.1, ht.2, by simp⟩
  · next report' hreport =>
      have hsecond := hfirst.and ((lasting_savedUnder session.storyRunId key .synthesis
        synthesis.reference).and (lasting_hasRun ⟨key, .turn .synthesis turnNumber⟩))
      have hproduced := hsynthesis (by rw [hreport]; rfl)
      refine (follows_setProcessingStage _ _ hsecond ⟨hsane, ht, hproduced⟩).bind
        fun _ t ht => ?_
      refine Follows.ofExcept_bind ht fun prior _ => ?_
      refine (follows_invokeSummaryFacilitator hsecond (fun t h => hsession t h.1.1.1)
        (fun t ht => ?_) ht).bind fun summary t ht => ?_
      · exact ⟨ht.2.2.1.stores, ht.2.2.1.type_eq ht.1⟩
      · obtain ⟨hsane, ⟨⟨⟨ht, -⟩, hfacilitator⟩, -, hsynthesis⟩, hsummary⟩ := ht
        exact ⟨hsane, ht, hfacilitator, fun _ => ⟨hsynthesis, hsummary⟩⟩

/-- A message turn comes after the agents that drafted it. -/
theorem recorded_messageRecord {message : Option Text} {draft : TurnDraft}
    {outcome : TurnOutcome} {createdAt completedAt : Time}
    (h : DraftKnown key turnNumber draft t) :
    t.Recorded ⟨messageRecord session.sessionId turnNumber correlationId message draft outcome
      createdAt completedAt, .turn key⟩ where
  message := by
    rintro _ ⟨⟩ -
    exact h.facilitator
  delegated := by
    rintro _ ⟨⟩
    exact h.delegated
  opening := by rintro _ ⟨⟩

theorem follows_messageTurn {message : Option Text} {turns : List TurnRecord} (hJ : Lasting J)
    (hsession : ∀ t, J t → t.world.BelongsTo session.sessionId session.storyRunId)
    (ht : Known J t) :
    Follows (messageTurn session message turns turnNumber key correlationId)
      (fun _ => Known J) t := by
  unfold messageTurn
  dsimp only
  split_ifs
  · exact ht.1
  refine (follows_draftTurn hJ hsession ht).bind fun draft t ht => ?_
  refine (follows_part (P := fun row => ∃ outcome createdAt completedAt, row = ⟨messageRecord
    session.sessionId turnNumber correlationId message draft outcome createdAt completedAt,
      .turn key⟩) (Q := fun _ => False) (serves_adds.commitTurn _ _ _ _ _ _ _ fun outcome createdAt
        completedAt => ⟨outcome, createdAt, completedAt, rfl⟩)
          (hJ.and (lasting_draftKnown key turnNumber draft)) (fun t row h hrow => ?_)
            (fun _ _ _ h => h.elim) ht).mono fun _ _ h => ⟨h.1, h.2.1⟩
  obtain ⟨outcome, createdAt, completedAt, rfl⟩ := hrow
  exact recorded_messageRecord h.2

/-- An acceptance invokes no agent. -/
theorem recorded_acceptedRecord {createdAt completedAt : Time} :
    t.Recorded ⟨acceptedRecord session.sessionId turnNumber correlationId createdAt
      completedAt, .turn key⟩ where
  message := by rintro _ - ⟨⟩
  delegated := by rintro _ - ⟨⟩
  opening := by rintro _ ⟨⟩

theorem follows_activeTurn {payload : TurnRequest} (hJ : Lasting J)
    (hsession : ∀ t, J t → t.world.BelongsTo session.sessionId session.storyRunId)
    (ht : Known J t) :
    Follows (activeTurn session payload key correlationId) (fun _ => Known J) t := by
  refine (follows_quiet (quiet_listTurns _) hJ ht).bind fun turns t ht => ?_
  split_ifs
  · refine follows_part (P := fun row => ∃ createdAt completedAt, row = ⟨acceptedRecord
      session.sessionId (nextTurnNumber turns) correlationId createdAt completedAt,
        .turn key⟩) (Q := fun _ => False) (serves_adds.acceptTurn _ _ _ _ fun createdAt
          completedAt => ⟨createdAt, completedAt, rfl⟩) hJ (fun t row h hrow => ?_) (fun _ _ _ h => h.elim) ht
    obtain ⟨createdAt, completedAt, rfl⟩ := hrow
    exact recorded_acceptedRecord
  · exact follows_messageTurn hJ hsession ht

end Turns

theorem follows_executeTurn (sessionId : SessionId) (payload : TurnRequest)
    (key : IdempotencyKey) (correlationId : Uuid) (userId : UserId) (ht : t.world.Sane) :
    Follows (executeTurn sessionId payload key correlationId userId)
      (fun _ => Known fun _ => True) t := by
  have hJ := lasting_true
  refine (follows_nothing (serves_adds.claim _ _) hJ ⟨ht, trivial⟩).bind fun claim t ht => ?_
  split
  · exact follows_nothing (serves_adds.responseFromCanonical _) hJ ht
  · refine (follows_gives (serves_adds.quiet (quiet_getSession _ _))
      (fun _ hw => gives_getSession _ _ hw) hJ ht).bind fun session t ht => ?_
    obtain ⟨hsane, -, hsession⟩ := ht
    cases session with
    | none => exact hsane
    | some session =>
        cases hstate : session.state with
        | finalizing =>
            simp only [hstate]
            split_ifs
            · exact follows_nothing (serves_adds.resumeFinalizing _ _ _) hJ ⟨hsane, trivial⟩
            · exact (follows_nothing (serves_adds.release _) hJ ⟨hsane, trivial⟩).bind
                fun _ t ht => ht.1
        | active =>
            simp only [hstate]
            exact (follows_activeTurn (lasting_belongsTo session.sessionId session.storyRunId)
              (fun _ h => h) ⟨hsane, hsession session rfl⟩).mono fun _ _ h => ⟨h.1, trivial⟩
        | _ =>
            simp only [hstate]
            exact (follows_nothing (serves_adds.release _) hJ ⟨hsane, trivial⟩).bind
              fun _ t ht => ht.1

theorem follows_ensure {α : Type} {p : Audited α} {q : Audited Unit}
    (hp : Follows p (fun _ => Known fun _ => True) t)
    (hq : ∀ t, t.world.Sane → Follows q (fun _ => Known fun _ => True) t) :
    Follows (p.ensure q) (fun _ => Known fun _ => True) t := by
  refine (Follows.tryCatch hp fun e t ht => ?_).bind fun a t ht => ?_
  · exact (hq t ht).bind fun _ t ht => ht.1
  · exact (hq t ht.1).bind fun _ t ht => ht

theorem follows_postTurn (sessionId : SessionId) (payload : TurnRequest)
    (key : IdempotencyKey) (correlationId : Uuid) (userId : UserId) (ht : t.world.Sane) :
    Follows (postTurn sessionId payload key correlationId userId)
      (fun _ => Known fun _ => True) t := by
  have hJ := lasting_true
  refine Follows.tryCatch ((follows_quiet (quiet_getSession _ _) hJ ⟨ht, trivial⟩).bind
    fun session t ht => ?_) fun e t ht => ?_
  · cases session with
    | none => exact ht.1
    | some session =>
        refine (follows_quiet (quiet_acquire _) hJ ht).bind fun token t ht => ?_
        refine follows_ensure (follows_executeTurn _ _ _ _ _ ht.1) fun t ht => ?_
        exact follows_quiet (quiet_releaseLease _ _) hJ ⟨ht, trivial⟩
  · cases e <;> exact ht

/-- Every request keeps the trail, whatever the others do meanwhile. -/
theorem follows_program (a : Attempt) (ht : t.world.Sane) :
    Follows a.program (fun _ => Known fun _ => True) t := by
  unfold Attempt.program
  cases hrequest : a.request with
  | createSession payload => exact (follows_postSession _ _ _ _ ht).bind fun _ t ht => ht
  | turn sessionId payload => exact (follows_postTurn _ _ _ _ _ ht).bind fun _ t ht => ht
  | finalize sessionId =>
      refine follows_nothing ?_ lasting_true ⟨ht, trivial⟩
      simp only [StoryReview.Attempt.program, Attempt.erased, hrequest]
      exact moves_bind (serves_adds.postFinalize _ _ _ _) fun _ => moves_ret _
  | abandon sessionId =>
      refine follows_nothing ?_ lasting_true ⟨ht, trivial⟩
      simp only [StoryReview.Attempt.program, Attempt.erased, hrequest]
      exact moves_bind (serves_adds.postAbandon _ _ _ _) fun _ => moves_ret _

/-! ## Runs -/

/-- The audited requests, whatever their agents report of their runs. -/
abbrev reporting : System Attempt Unit AuditedWorld AuditedChoice PyException Response :=
  { requests with admits := fun a c => ∃ n, a.choices n = c }

def trailContract : Contract Attempt Unit AuditedWorld PyException Response where
  inv := Sound
  rely := fun _ _ => Sees
  guar := fun _ _ => Trails
  post := fun _ _ _ _ => True

section Runs
variable {D : Discipline Attempt Unit AuditedWorld AuditedChoice PyException Response}
variable {pool pool' : AuditedPool}

theorem trailContract_sound : trailContract.Sound reporting D where
  rely_refl := fun _ _ _ h => .refl h.sane
  rely_trans := fun _ _ _ _ _ h h' => h.trans h'
  starts := fun _ _ a h _ => rg_mono (rg_admits (follows_program a h.sane) fun _ _ => trivial)
    (fun _ _ _ _ => trivial) fun _ _ _ _ => trivial
  inv := fun _ _ _ _ h _ hguar => h.trails hguar
  compatible := fun _ _ _ _ h _ hguar _ _ => ⟨hguar.endures, hguar.sane h.sane, hguar.agentRuns⟩
  post := fun _ _ _ _ _ _ _ _ _ _ _ => trivial

/-- A run of the service only adds to the trail. -/
theorem trail_grows (hpool : trailContract.Holds reporting pool)
    (hsteps : Pool.Steps reporting D pool pool') :
    trailContract.Holds reporting pool' ∧ pool.state.agentRuns <+: pool'.state.agentRuns := by
  induction hsteps with
  | refl => exact ⟨hpool, List.prefix_rfl⟩
  | tail _ hlast ih =>
      obtain ⟨mover, hlast⟩ := hlast
      refine ⟨ih.1.step trailContract_sound hlast, ih.2.trans ?_⟩
      cases mover with
      | none => rw [hlast.state_eq]
      | some thread => exact (ih.1.guarantee trailContract_sound hlast).2.2.agentRuns

/-- Whatever runs at once: no record is changed or dropped, no two share an id, and each
names a session and stored artifacts of its run, of the kinds its agent reads and writes. -/
theorem records_attest (h : pool.Reachable reporting .free {})
    (hsteps : Pool.Steps reporting .free pool pool') :
    pool.state.agentRuns <+: pool'.state.agentRuns ∧
      (pool'.state.agentRuns.map AgentRunRecord.agentRunId).Nodup ∧
      ∀ r ∈ pool'.state.agentRuns, r.Attests pool'.state.world := by
  have hpool := trailContract_sound.holds sound_init h
  obtain ⟨hpool', hgrows⟩ := trail_grows hpool hsteps
  exact ⟨hgrows, hpool'.inv.ids, hpool'.inv.attests⟩

end Runs

namespace Scenario
open StoryReview.Scenario

/-- A message upon which both reviewers are asked again. -/
def delegates : StoryReview.Attempt :=
  attempt (.turn ⟨1⟩ ⟨some "Why?", false, rfl⟩) 2 (later (environment fun _ => reReview)) none

/-- One audited request after another. -/
theorem steps_alone (a : StoryReview.Attempt) (t : AuditedWorld)
    (finished : List (Attempt × Except PyException Response)) :
    Pool.Steps reporting .free ⟨t, [], finished⟩
      ⟨((audited a).program.run (audited a).choices t).2, [],
        (audited a, ((audited a).program.run (audited a).choices t).1) :: finished⟩ :=
  .alone (i := audited a) (audited a).choices finished (fun n => ⟨n, rfl⟩) trivial
    fun _ _ _ => trivial

/-- The creation records four runs, the delegated turn five more. -/
theorem records_attest_delegates : ∃ pool pool' : AuditedPool,
    pool.Reachable reporting .free {} ∧ Pool.Steps reporting .free pool pool' ∧
      pool.state.agentRuns.length = 4 ∧ pool'.state.agentRuns.length = 9 ∧
      pool.state.agentRuns <+: pool'.state.agentRuns ∧
      ∀ r ∈ pool'.state.agentRuns, r.Attests pool'.state.world := by
  have hcreated := steps_alone create {} []
  have hdelegated := steps_alone delegates
    ((audited create).program.run (audited create).choices {}).2
    [(audited create, ((audited create).program.run (audited create).choices {}).1)]
  obtain ⟨hgrows, -, hattests⟩ := records_attest hcreated hdelegated
  exact ⟨_, _, hcreated, hdelegated, by decide +kernel, by decide +kernel, hgrows, hattests⟩

end Scenario
end Audit
end StoryReview
