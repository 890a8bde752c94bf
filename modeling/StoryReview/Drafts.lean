import StoryReview.Calls

/-!
# The drafting part of a request

Reviews and syntheses are saved under the request's key; everything else only
reads. What a draft hands to persistence is tied to the stored history and to
the stored syntheses.
-/
namespace StoryReview
open Program Flows

/-! ## Frames of store writes -/

/-- Runs, sessions, turns and claims are untouched, and objects only grow. -/
structure Framed (w w' : World) : Prop where
  clock : w.clock ≤ w'.clock
  storyRuns : w'.storyRuns = w.storyRuns
  cores : w'.cores = w.cores
  turns : w'.turns = w.turns
  claims : w'.claims = w.claims
  grows : ∀ run, (w.objects run).Grows (w'.objects run)

namespace Framed
variable {u v w : World}

theorem of_quiet (h : Quiet v w) : Framed v w :=
  ⟨h.clock, h.storyRuns, h.cores, h.turns, h.claims, fun _ => h.objects ▸ .refl _⟩

theorem of_served {run : RunId} {o' : RunObjects} (h : (v.objects run).Grows o') :
    Framed v (v.served run o') := by
  refine ⟨le_rfl, rfl, rfl, rfl, rfl, fun run' => ?_⟩
  rw [World.served_objects]
  split_ifs with hrun
  · exact hrun ▸ h
  · exact .refl _

theorem trans (h : Framed u v) (h' : Framed v w) : Framed u w :=
  ⟨h.clock.trans h'.clock, h'.storyRuns.trans h.storyRuns, h'.cores.trans h.cores,
    h'.turns.trans h.turns, h'.claims.trans h.claims,
    fun run => (h.grows run).trans (h'.grows run)⟩

theorem core (h : Framed v w) : w.core = v.core := by
  funext id
  simp only [World.core, h.cores]

theorem history (h : Framed v w) : w.history = v.history := by
  funext id
  simp only [World.history, h.turns]

theorem of_doing {R : World → World → Prop} (hR : ∀ v w, R v w → Framed v w)
    (h : Doing R v w) : Framed v w := by
  induction h with
  | refl => exact of_quiet (Quiet.refl _)
  | tail _ hstep ih => exact ih.trans (hstep.elim of_quiet (hR _ _))

end Framed

/-- The saves of drafts, among quiet steps. -/
abbrev Drafting (key : IdempotencyKey) (run : RunId) : World → World → Prop :=
  Doing (SavesDraft key run)

namespace Drafting
variable {key : IdempotencyKey} {run : RunId} {w w' : World}

theorem framed (h : Drafting key run w w') : Framed w w' := by
  refine Framed.of_doing (fun v u hvu => ?_) h
  obtain ⟨_, _, _, _, _, hsaves, rfl⟩ := hvu
  exact Framed.of_served (RunObjects.grows_of_saves hsaves)

theorem evolves {a : Attempt} {w₀ : World} {s : SessionRecord}
    (h : Drafting a.key s.storyRunId w w') (hs : w.core a.sessionId = some s.core) :
    Evolves a w₀ w w' := by
  induction h with
  | refl => exact .refl
  | tail hdone hstep ih =>
      refine ih.tail ?_
      rcases hstep with hq | hd
      · exact .quiet hq
      · have hframe : Framed w _ := framed hdone
        exact .draft (s := s.core) (hframe.core ▸ hs) hd

end Drafting

theorem Inv.drafting {key : IdempotencyKey} {run : RunId} {w w' : World} (h : Inv w)
    (hd : Drafting key run w w') : Inv w' := by
  induction hd with
  | refl => exact h
  | tail _ hstep ih =>
      rcases hstep with hq | ⟨request, o', htype, -, rfl, hsaves, rfl⟩
      · exact ih.quiet hq
      · refine ih.saves (fun f hf => ?_) hsaves
        have hcontent := request.type_matches_content
        rw [hf] at hcontent
        exact absurd hcontent htype

/-! ## References and records -/

theorem Inv.storesSynthesis {w : World} (h : Inv w) {run : RunId} {key : IdempotencyKey}
    {r : ArtifactRecord} {report : SynthesisReport}
    (hr : (w.objects run).recordUnder .synthesis key = some r)
    (hsum : r.reference.checksumSha256 = canonicalChecksum (.synthesis report)) :
    (r.reference.type = .synthesis ∧ r.reference.storyRunId = run) ∧
      w.StoresSynthesis run r.reference.artifactId report := by
  have hsound := h.objects run
  have hmem := RunObjects.mem_records_of_recordUnder hr
  have htype := hsound.type_of_recordUnder hr
  obtain ⟨hhas, hrun, -, hcheck⟩ := hsound.records_typed r hmem
  obtain ⟨stored, hstored⟩ := Content.hasType_synthesis (htype ▸ hhas)
  refine ⟨⟨htype, hrun⟩, r, stored, hsound.record_of_mem hmem, htype, hstored, ?_⟩
  rw [← hstored, ← hcheck, hsum]

theorem RunObjects.mem_listing {o : RunObjects} {limit offset : ℕ} {r : ArtifactReference}
    (h : r ∈ o.listing limit offset) :
    ∃ q ∈ o.records, r = { q.reference with isLatest := r.isLatest } := by
  obtain ⟨p, hp, rfl⟩ := List.mem_map.mp h
  have hsorted := List.mem_of_mem_drop (List.mem_of_mem_take hp)
  rw [List.mem_insertionSort] at hsorted
  obtain ⟨q, hq, rfl⟩ := List.mem_map.mp hsorted
  exact ⟨q, hq, rfl⟩

/-- A fold that keeps its best so far or takes the next element ends with one of them. -/
theorem mem_of_foldl_choice {α : Type} {choose : Option α → α → Option α}
    (hchoose : ∀ best a, choose best a = best ∨ choose best a = some a) {l : List α} {r : α}
    {best : Option α} (h : l.foldl choose best = some r) : best = some r ∨ r ∈ l := by
  induction l generalizing best with
  | nil => exact .inl h
  | cons q qs ih =>
      rcases ih h with h | h
      · rcases hchoose best q with hbest | hq
        · exact .inl (hbest.symm.trans h)
        · cases hq.symm.trans h
          exact .inr List.mem_cons_self
      · exact .inr (List.mem_cons_of_mem _ h)

theorem Lineage.mem_of_maxVersion {references : List ArtifactReference}
    {r : ArtifactReference} (h : maxVersion references = some r) : r ∈ references := by
  refine (mem_of_foldl_choice (fun best q => ?_) h).resolve_left (Option.some_ne_none r).symm
  cases best with
  | none => exact .inr rfl
  | some b =>
      dsimp only
      split_ifs
      · exact .inr rfl
      · exact .inl rfl

/-- The synthesis a turn starts from belongs to the run. -/
theorem Inv.latestSynthesis {w : World} (h : Inv w) {run : RunId}
    {reference : ArtifactReference} (hlatest : w.latestSynthesis run = some reference) :
    reference.type = .synthesis ∧ reference.storyRunId = run := by
  obtain ⟨hmem, htype⟩ := List.mem_filter.mp (Lineage.mem_of_maxVersion hlatest)
  obtain ⟨q, hq, href⟩ := RunObjects.mem_listing hmem
  refine ⟨(of_decide_eq_true htype).1, ?_⟩
  rw [href]
  exact ((h.objects run).records_typed q hq).2.1

/-- A synthesis read back is stored. -/
theorem Inv.storesSynthesis_of_read {w : World} (h : Inv w) {run : RunId} {id : ArtifactId}
    {r : ArtifactRecord} {report : SynthesisReport}
    (hr : (w.objects run).record id = some r) (hcontent : r.content = .synthesis report) :
    w.StoresSynthesis run id report := by
  have htyped := ((h.objects run).records_typed r (RunObjects.mem_records_of_record hr)).1
  rw [hcontent] at htyped
  exact ⟨r, report, hr, htyped, hcontent, rfl⟩

/-! ## Delegation -/

section Delegation
variable {A : Choice → Prop} {key : IdempotencyKey} {run : RunId} {w : World}

theorem moves_saveDraft {type : ArtifactType} (htype : type ≠ .finalizedReview)
    (content : Content) (correlationId : Uuid) :
    (saveArtifact type run content key correlationId).Moves A (Drafting key run) := by
  refine moves_saveArtifact fun request ht hrun _ hkey w w' hsaves => ?_
  obtain ⟨o', hsaves, hw'⟩ := hsaves
  rw [hrun] at hsaves hw'
  exact ⟨request, o', ht ▸ htype, hkey, hrun, hsaves, hw'⟩

theorem quiet_reviewRequest (story : StoryDetail) (references : List ArtifactReference)
    (delegation : DelegationDecision) (correlationId : Uuid) (p : Perspective) :
    (TurnExecution.reviewRequest story references delegation correlationId p).Moves A
      Quiet :=
  moves_bind (moves_ofExcept _) fun _ => moves_bind (quiet_reviewReport _ _) fun _ =>
    moves_ret _

theorem quiet_latestPair (references : List ArtifactReference) (correlationId : Uuid)
    (p : Perspective) :
    (TurnExecution.latestPair references correlationId p).Moves A Quiet :=
  moves_bind (moves_ofExcept _) fun _ => moves_bind (quiet_reviewReport _ _) fun _ =>
    moves_ret _

theorem moves_executeDelegation (session : SessionRecord) (story : StoryDetail)
    (references : List ArtifactReference) (delegation : DelegationDecision)
    (key : IdempotencyKey) (correlationId : Uuid) :
    (TurnExecution.executeDelegation session story references delegation key
      correlationId).Moves A (Drafting key session.storyRunId) := by
  refine moves_bind (moves_doing (moves_traverse (fun p =>
    moves_bind (quiet_reviewRequest _ _ _ _ p) fun _ => moves_ret _) _)) fun requests => ?_
  refine moves_bind (moves_doing (moves_tryCatch (moves_traverse (fun x =>
    moves_bind (quiet_invokeReviewer _ _) fun _ => moves_ret _) _) fun _ => moves_raise _))
      fun results => ?_
  exact moves_traverse (fun x => moves_saveDraft (ArtifactType.review_ne_finalizedReview _) _ _)
    _

/-- A comprehension whose calls keep a footprint; `T` is what each result owes to
its argument. -/
theorem yields_traverse {α β : Type} {F : World → World → Prop} [IsPreorder World F]
    {f : α → Orchestration β} {T : α → β → Prop} {xs : List α} (hmoves : ∀ x, (f x).Moves A F)
    (hf : ∀ x ∈ xs, ∀ t, F w t → (f x).Yields A (fun y _ => T x y) t) :
    (traverse f xs).Yields A (fun ys _ => List.Forall₂ T xs ys) w := by
  have hwp := wp_traverse (A := A) (f := f) (P := F w) (T := fun _ => T)
    (E := fun _ _ => True) (fun x hx t ht => (hmoves x).wp_of_yields ht (hf x hx t ht)
      (fun _ h => h) (fun _ _ h h' => ⟨h, h', fun _ _ h => h⟩) fun _ _ _ => trivial) (refl w)
  exact wp_mono hwp (fun _ _ => trivial) (fun _ _ h => h.2.1) fun _ _ _ => trivial

instance : IsPreorder World Quiet where
  refl := Quiet.refl

theorem TurnExecution.length_perspectives (invoke : Invoke) :
    (perspectives invoke).length ≤ 2 := by
  cases invoke <;> decide

theorem types_of_reviews {ps : List Perspective} {refs : List ArtifactReference}
    (h : List.Forall₂ (fun p r => r.type = .review p) ps refs) :
    ∀ r ∈ refs, ∃ p, r.type = .review p := by
  induction h with
  | nil => nofun
  | cons hp _ ih =>
      intro r hr
      rcases List.mem_cons.mp hr with rfl | hr
      · exact ⟨_, hp⟩
      · exact ih r hr

/-- The delegation saves one review for each reviewer it names. -/
theorem yields_executeDelegation (h : Inv w) (session : SessionRecord) (story : StoryDetail)
    (references : List ArtifactReference) (delegation : DelegationDecision)
    (key : IdempotencyKey) (correlationId : Uuid) :
    (TurnExecution.executeDelegation session story references delegation key
      correlationId).Yields A (fun refs _ => List.Forall₂ (fun p r => r.type = .review p)
        (TurnExecution.perspectives delegation.invoke) refs) w := by
  have hrequests := fun p => moves_bind (quiet_reviewRequest (A := A) story references delegation
    correlationId p) fun request => moves_ret (R := Quiet) (p, request)
  refine Yields.bind (Moves.yields (moves_traverse hrequests _) (Quiet.refl w)
    (yields_traverse (F := Quiet) (T := fun p (x : Perspective × ReviewerInvocation) => p = x.1)
      hrequests fun p _ t _ => Yields.bind (yields_any _ _) fun _ _ _ => rfl)) ?_
  rintro requests t ⟨hrequested, hq⟩
  have hcalls := fun x : Perspective × ReviewerInvocation =>
    moves_bind (quiet_invokeReviewer (A := A) x.1 x.2) fun report => moves_ret (R := Quiet)
      (x.1, OutputFence.fenceResult report story x.2.previousReview x.2.extraContext)
  refine Yields.bind (Yields.tryCatch (Moves.yields (moves_traverse hcalls _) hq
    (yields_traverse (F := Quiet)
      (T := fun (x : Perspective × ReviewerInvocation) (y : Perspective × ReviewReport) =>
        x.1 = y.1) hcalls fun x _ t _ =>
        Yields.bind (yields_any _ _) fun _ _ _ => rfl)) fun _ _ => yields_raise _) ?_
  rintro results t ⟨hanswered, hq'⟩
  have hperspectives : TurnExecution.perspectives delegation.invoke =
      results.map Prod.fst := by
    have hids := map_eq_map_of_forall₂ (f := id) (g := Prod.fst) hrequested
    rw [List.map_id] at hids
    exact hids.trans (map_eq_map_of_forall₂ hanswered)
  have hinv := h.quiet hq'
  refine Yields.mono (yields_traverse (F := Drafting key session.storyRunId)
    (T := fun x (r : ArtifactReference) => r.type = .review x.1)
    (fun x => moves_saveDraft (ArtifactType.review_ne_finalizedReview _) _ _)
    fun x _ u hu => ?_) fun refs _ hrefs => ?_
  · have hsave := (moves_saveDraft (A := A) (ArtifactType.review_ne_finalizedReview x.1)
      (.review x.2) correlationId).yields hu (yields_saveArtifact _ _ _ _ _)
    refine hsave.mono ?_
    rintro b v ⟨⟨r, hr, rfl, -⟩, hv⟩
    exact ((hinv.drafting hv).objects _).type_of_recordUnder hr
  · rw [hperspectives]
    exact List.forall₂_map_left_iff.mpr hrefs

theorem moves_maybeSynthesize (session : SessionRecord) (refs : List ArtifactReference)
    (reusePrevious : Bool) (key : IdempotencyKey) (correlationId : Uuid)
    (fallback : ArtifactReference) :
    (TurnExecution.maybeSynthesize session refs reusePrevious key correlationId
      fallback).Moves A (Drafting key session.storyRunId) := by
  unfold TurnExecution.maybeSynthesize
  split_ifs
  · exact moves_ret _
  · refine moves_bind (moves_doing (quiet_listRunArtifacts _ _)) fun references => ?_
    refine moves_bind (moves_doing (quiet_latestPair _ _ _)) fun business => ?_
    refine moves_bind (moves_doing (quiet_latestPair _ _ _)) fun engineering => ?_
    refine moves_bind (moves_doing (moves_tryCatch (quiet_invokeSynthesis _) fun _ =>
      moves_raise _)) fun report => ?_
    exact moves_bind (moves_saveDraft (show ArtifactType.synthesis ≠ _ from nofun) _ _)
      fun _ => moves_ret _

/-- The outcome of the synthesis step: the fallback, or a stored new report. -/
def SynthesisStored (run : RunId) (refs : List ArtifactReference) (reusePrevious : Bool)
    (fallback : ArtifactReference) (outcome : TurnExecution.SynthesisOutcome)
    (w : World) : Prop :=
  match outcome.report with
  | none => outcome.reference = fallback ∧ refs = [] ∧ reusePrevious = false
  | some report => (outcome.reference.type = .synthesis ∧
      outcome.reference.storyRunId = run) ∧
      w.StoresSynthesis run outcome.reference.artifactId report

theorem yields_maybeSynthesize (h : Inv w) (session : SessionRecord)
    (refs : List ArtifactReference) (reusePrevious : Bool) (key : IdempotencyKey)
    (correlationId : Uuid) (fallback : ArtifactReference) :
    (TurnExecution.maybeSynthesize session refs reusePrevious key correlationId
      fallback).Yields A
      (SynthesisStored session.storyRunId refs reusePrevious fallback) w := by
  unfold TurnExecution.maybeSynthesize
  split_ifs with hnone
  · exact ⟨rfl, hnone⟩
  · refine Yields.bind (Moves.yields (quiet_listRunArtifacts _ _) (Quiet.refl w)
      (yields_any _ _)) fun references t ht => ?_
    refine Yields.bind (Moves.yields (quiet_latestPair _ _ _) ht.2 (yields_any _ _))
      fun business t ht => ?_
    refine Yields.bind (Moves.yields (quiet_latestPair _ _ _) ht.2 (yields_any _ _))
      fun engineering t ht => ?_
    refine Yields.bind (Moves.yields (moves_tryCatch (quiet_invokeSynthesis _) fun _ =>
      moves_raise _) ht.2 (yields_any _ _)) fun report t ht => ?_
    refine Yields.bind (Moves.yields (moves_saveDraft
      (show ArtifactType.synthesis ≠ _ from nofun) _ _) (Relation.ReflTransGen.refl)
      (yields_saveArtifact _ _ _ _ _)) ?_
    rintro reference u ⟨⟨r, hr, rfl, hsum⟩, hu⟩
    exact ((h.quiet ht.2).drafting hu).storesSynthesis hr hsum

end Delegation

/-! ## The draft of a message turn -/

section Draft
variable {A : Choice → Prop} {w : World}

theorem moves_draftTurn (session : SessionRecord) (message : Option Text)
    (turns : List TurnRecord) (turnNumber facilitatorTurn : ℕ) (key : IdempotencyKey)
    (correlationId : Uuid) :
    (TurnsFlow.draftTurn session message turns turnNumber facilitatorTurn key
      correlationId).Moves A (Drafting key session.storyRunId) := by
  refine moves_bind (moves_doing (quiet_setProcessingStage _ _)) fun _ => ?_
  refine moves_bind (moves_doing (quiet_assembleInputs _ _)) fun inputs => ?_
  refine moves_bind (moves_ofExcept _) fun reference => ?_
  refine moves_bind (moves_doing (quiet_synthesisReport _ _)) fun report => ?_
  refine moves_bind (moves_ofExcept _) fun evidence => ?_
  refine moves_bind (moves_doing (quiet_invokeFirstFacilitator _ _ _ _ _ _ _ _ _))
    fun first => ?_
  refine moves_bind (moves_doing (quiet_setProcessingStage _ _)) fun _ => ?_
  refine moves_bind (moves_executeDelegation _ _ _ _ _ _) fun refs => ?_
  refine moves_bind (moves_doing (quiet_setProcessingStage _ _)) fun _ => ?_
  refine moves_bind (moves_maybeSynthesize _ _ _ _ _ _) fun synthesis => ?_
  cases synthesis.report with
  | none => exact moves_ret _
  | some report =>
      refine moves_bind (moves_doing (quiet_setProcessingStage _ _)) fun _ => ?_
      refine moves_bind (moves_ofExcept _) fun prior => ?_
      exact moves_bind (moves_doing (quiet_invokeSummaryFacilitator _ _ _ _ _ _ _ _ _ _))
        fun _ => moves_ret _

/-- Where a drafted output comes from. -/
theorem yields_draftTurn {a : Attempt} {w₀ : World} (h : Inv w) {session : SessionRecord}
    {message : Option Text} {turns : List TurnRecord} {turnNumber : ℕ}
    (hobjects : w.objects = w₀.objects) (hturns : turns = w₀.history session.sessionId)
    (hnumber : turnNumber = (w₀.history session.sessionId).length + 1)
    (correlationId : Uuid) :
    (TurnsFlow.draftTurn session message turns turnNumber (session.facilitatorTurnCount + 1)
      a.key correlationId).Yields a.Admits (fun draft t => FinalOutput a w₀ t session.core
        draft.output (draft.newReferences ++
          if draft.produced then [draft.synthesisReference] else [])) w := by
  refine Yields.bind (Moves.yields (quiet_setProcessingStage _ _) (Quiet.refl w)
    (yields_any _ _)) fun _ t₁ ht₁ => ?_
  have hinputs : (Lineage.assembleInputs session correlationId).Yields a.Admits
      (fun b _ => b.2 = (w.objects session.storyRunId).listing 500 0) t₁ := by
    refine Yields.bind (Moves.yields (quiet_getStory _ _) ht₁.2 (yields_any _ _))
      fun story t ht => ?_
    refine Yields.bind (yields_listRunArtifacts _ _) ?_
    rintro references t' rfl
    simp only [pure_eq, yields_ret, ht.2.objects]
  refine Yields.bind (Moves.yields (quiet_assembleInputs _ _) ht₁.2 hinputs) ?_
  rintro ⟨story, references⟩ t₂ ⟨rfl, ht₂⟩
  refine Yields.bind (yields_ofExcept (R := fun b t => w.latestSynthesis session.storyRunId =
    some b ∧ t₂ = t) fun reference hlatest => ⟨Lineage.latest_eq_ok hlatest, rfl⟩) ?_
  rintro reference _ ⟨hlatest, rfl⟩
  have hreference := h.latestSynthesis hlatest
  refine Yields.bind (Moves.yields (quiet_synthesisReport _ _) ht₂
    (yields_synthesisReport _ _)) ?_
  rintro report t₃ ⟨⟨record, hrecord, hcontent⟩, ht₃⟩
  rw [ht₂.objects, hreference.2] at hrecord
  have hstored := h.storesSynthesis_of_read hrecord hcontent
  refine Yields.bind (yields_ofExcept (R := fun _ t => t₃ = t) fun _ _ => rfl) ?_
  rintro evidence _ rfl
  have hfirst : (TurnsFlow.invokeFirstFacilitator session a.key
      (session.facilitatorTurnCount + 1) message report reference evidence turns
      correlationId).Yields a.Admits (fun b _ => ∃ request,
        FirstAnswer a w₀ session.core request b ∧ request.synthesisReport = report) t₃ := by
    refine Yields.tryCatch (Yields.bind (yields_ofExcept (R := fun state _ =>
      TurnsFlow.decisionState turns = .ok state) fun _ h => h) fun state t hstate => ?_)
      fun _ _ => yields_raise _
    exact (yields_invokeFacilitator a _ _).mono
      fun output _ houtput => ⟨_, ⟨houtput, rfl, rfl, rfl, hturns ▸ hstate⟩, rfl⟩
  refine Yields.bind (Moves.yields (quiet_invokeFirstFacilitator _ _ _ _ _ _ _ _ _) ht₃
    hfirst) ?_
  rintro first t₄ ⟨⟨request, hanswer, rfl⟩, ht₄⟩
  refine Yields.bind (Moves.yields (quiet_setProcessingStage _ _) ht₄ (yields_any _ _))
    fun _ t₅ ht₅ => ?_
  refine Yields.bind (Moves.yields (moves_executeDelegation _ _ _ _ _ _)
    (Doing.quiet ht₅.2) (yields_executeDelegation (h.quiet ht₅.2) _ _ _ _ _ _)) ?_
  rintro refs t₆ ⟨hrefs, ht₆⟩
  refine Yields.bind (Moves.yields (moves_doing (quiet_setProcessingStage _ _)) ht₆
    (yields_any _ _)) fun _ t₇ ht₇ => ?_
  refine Yields.bind (Moves.yields (moves_maybeSynthesize _ _ _ _ _ _) ht₇.2
    (yields_maybeSynthesize (h.drafting ht₇.2) _ _ _ _ _ _)) ?_
  rintro ⟨newReference, newReport⟩ t₈ ⟨hsynthesis, ht₈⟩
  cases newReport with
  | none =>
      obtain ⟨-, rfl, hreuse⟩ := hsynthesis
      have hinvoke : first.delegation.invoke = .none := by
        cases hi : first.delegation.invoke <;> rw [hi] at hrefs <;> cases hrefs
      refine .plain hanswer ?_
        (hstored.mono (ht₈.framed.grows _)) hinvoke hreuse
      simp only [World.latestSynthesis, ← hobjects]
      exact hlatest
  | some report' =>
      obtain ⟨hreference', hstored'⟩ := hsynthesis
      refine Yields.bind (Moves.yields (quiet_setProcessingStage _ _) (Quiet.refl t₈)
        (yields_any _ _)) fun _ t₉ ht₉ => ?_
      refine Yields.bind (yields_ofExcept (R := fun state t =>
        TurnsFlow.decisionState turns = .ok state ∧ t₉ = t) fun _ h => ⟨h, rfl⟩) ?_
      rintro prior _ ⟨hprior, rfl⟩
      have hsummary : (TurnsFlow.invokeSummaryFacilitator session a.key turnNumber
          (session.facilitatorTurnCount + 1) message report' newReference prior first
          correlationId).Yields a.Admits (fun b _ => ∃ request,
            SummaryAnswer a w₀ session.core request b ∧
            request.synthesisReport = report') t₉ := by
        refine Yields.bind (yields_any _ _) fun _ _ _ => Yields.bind (yields_any _ _)
          fun _ _ _ => Yields.tryCatch (Yields.bind (yields_ofExcept (R := fun state _ =>
            TurnsFlow.mergedDecisionState prior first turnNumber = .ok state) fun _ h => h)
            fun state _ hstate => ?_) fun _ _ => yields_raise _
        have hprior' : request.decisionState = prior :=
          Except.ok.inj (hanswer.decisionState.symm.trans (hturns ▸ hprior))
        exact (yields_invokeFacilitator a _ _).mono fun output _ houtput => ⟨_, ⟨houtput, rfl,
          rfl, rfl, request, first, state, hanswer, hprior' ▸ hnumber ▸ hstate, rfl⟩, rfl⟩
      refine Yields.bind (Moves.yields (quiet_invokeSummaryFacilitator _ _ _ _ _ _ _ _ _ _)
        ht₉.2 hsummary) ?_
      rintro summary t ⟨⟨request', hanswer', rfl⟩, ht⟩
      refine .summary hanswer' (hstored'.mono ((Framed.of_quiet ht).grows _)) hreference' ?_ ?_
      · exact types_of_reviews hrefs
      · exact hrefs.length_eq ▸ TurnExecution.length_perspectives _

end Draft

/-! ## The draft of a new session -/

section Opening
variable {A : Choice → Prop} {w : World}

theorem moves_openingArtifacts (story : StoryDetail) (run : RunId) (sessionId : SessionId)
    (key : IdempotencyKey) (correlationId : Uuid) :
    (openingArtifacts story run sessionId key correlationId).Moves A (Drafting key run) := by
  refine moves_bind (moves_doing (quiet_setProcessingStage _ _)) fun _ => ?_
  refine moves_bind (moves_saveDraft (show ArtifactType.story ≠ _ from nofun) _ _)
    fun storyReference => ?_
  refine moves_bind (moves_doing (quiet_fanOutReviewers _ _)) fun reviews => ?_
  refine moves_bind (moves_saveDraft (show ArtifactType.reviewBusiness ≠ _ from nofun) _ _)
    fun business => ?_
  refine moves_bind (moves_saveDraft (show ArtifactType.reviewEngineering ≠ _ from nofun) _ _)
    fun engineering => ?_
  refine moves_bind (moves_doing (quiet_setProcessingStage _ _)) fun _ => ?_
  refine moves_bind (moves_doing (moves_tryCatch (quiet_invokeSynthesis _) fun _ =>
    moves_raise _)) fun report => ?_
  exact moves_bind (moves_saveDraft (show ArtifactType.synthesis ≠ _ from nofun) _ _)
    fun _ => moves_ret _

theorem yields_openingArtifacts (h : Inv w) (story : StoryDetail) (run : RunId)
    (sessionId : SessionId) (key : IdempotencyKey) (correlationId : Uuid) :
    (openingArtifacts story run sessionId key correlationId).Yields A (fun artifacts t =>
      (artifacts.business.type = .reviewBusiness ∧
        artifacts.engineering.type = .reviewEngineering) ∧
      (artifacts.synthesis.type = .synthesis ∧ artifacts.synthesis.storyRunId = run) ∧
      t.StoresSynthesis run artifacts.synthesis.artifactId artifacts.report) w := by
  refine Yields.bind (Moves.yields (moves_doing (quiet_setProcessingStage _ _))
    (refl_of (Drafting key run) w) (yields_any _ _)) fun _ t ht => ?_
  refine Yields.bind (Moves.yields (moves_saveDraft
    (show ArtifactType.story ≠ _ from nofun) _ _) ht.2 (yields_any _ _)) fun _ t ht => ?_
  refine Yields.bind (Moves.yields (moves_doing (quiet_fanOutReviewers _ _)) ht.2
    (yields_any _ _)) fun reviews t ht => ?_
  refine Yields.bind (Moves.yields (moves_saveDraft
    (show ArtifactType.reviewBusiness ≠ _ from nofun) _ _) ht.2
    (yields_saveArtifact _ _ _ _ _)) ?_
  rintro business t ⟨⟨rb, hrb, rfl, -⟩, ht⟩
  have htb := ((h.drafting ht).objects _).type_of_recordUnder hrb
  refine Yields.bind (Moves.yields (moves_saveDraft
    (show ArtifactType.reviewEngineering ≠ _ from nofun) _ _) ht
    (yields_saveArtifact _ _ _ _ _)) ?_
  rintro engineering t ⟨⟨re, hre, rfl, -⟩, ht⟩
  have hte := ((h.drafting ht).objects _).type_of_recordUnder hre
  refine Yields.bind (Moves.yields (moves_doing (quiet_setProcessingStage _ _)) ht
    (yields_any _ _)) fun _ t ht => ?_
  refine Yields.bind (Moves.yields (moves_doing (moves_tryCatch (quiet_invokeSynthesis _)
    fun _ => moves_raise _)) ht.2 (yields_any _ _)) fun report t ht => ?_
  refine Yields.bind (Moves.yields (moves_saveDraft
    (show ArtifactType.synthesis ≠ _ from nofun) _ _) ht.2
    (yields_saveArtifact _ _ _ _ _)) ?_
  rintro synthesis t ⟨⟨rs, hrs, rfl, hsum⟩, ht⟩
  obtain ⟨hreference, hstored⟩ := (h.drafting ht).storesSynthesis hrs hsum
  exact ⟨⟨htb, hte⟩, hreference, hstored⟩

theorem quiet_openingOutput (sessionId : SessionId) (key : IdempotencyKey)
    (report : SynthesisReport) (reference : ArtifactReference)
    (evidence : List ArtifactReference) (correlationId : Uuid) :
    (openingOutput sessionId key report reference evidence correlationId).Moves A
      Quiet := by
  refine moves_bind (moves_tryCatch (quiet_invokeFacilitator _ _) fun e => ?_) fun output =>
    moves_bind (moves_ofExcept _) fun _ => moves_ret _
  split <;> exact moves_raise _

theorem yields_openingOutput (a : Attempt) (sessionId : SessionId)
    (report : SynthesisReport) (reference : ArtifactReference)
    (evidence : List ArtifactReference) (correlationId : Uuid) :
    (openingOutput sessionId a.key report reference evidence correlationId).Yields a.Admits
      (fun b _ => ∃ request, a.Answers request b ∧ request.turnNumber = 1 ∧
        request.invocationId = .facilitatorTurn a.key sessionId 1 ∧
        request.synthesisReport = report ∧ request.decisionState = none) w := by
  refine Yields.bind (Yields.tryCatch (yields_invokeFacilitator a _ _) fun e t => ?_)
    fun output t houtput => ?_
  · split <;> exact yields_raise _
  · exact Yields.bind (yields_any _ _) fun _ _ _ => ⟨_, houtput, rfl, rfl, rfl, rfl⟩

end Opening

end StoryReview
