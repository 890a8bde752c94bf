import StoryReview.Completion
import StoryReview.Replays
import StoryReview.Serving

/-!
# Retries of a finalization

Flow 3 builds its review anew, with the time of the attempt, and saves it under the
key of the request it came through; a report format belongs to the first review it is
rendered from. A retry without faults completes the session exactly when the attempts
before it left neither a review under its key nor a claim on a requested format.
-/
namespace StoryReview
open Program RecordsStore Finalization

/-! ## The final review -/

/-- The stored synthesis versions and the turns make a final review. -/
def World.BuildsReview (w : World) (session : SessionRecord) (turns : List TurnRecord)
    (reference : ArtifactReference) : Prop :=
  ∃ reports, List.Forall₂ w.Holds (catalogReferences turns reference) reports ∧
    ∀ finalizedAt correlationId, ∃ review,
      buildFinalReview session reference reports turns finalizedAt correlationId = .ok review

/-- Flow 3 gets through: it has a review to save, nothing is saved under its key, and no
requested format is claimed. -/
structure World.Finalizable (w : World) (session : SessionRecord) (turns : List TurnRecord)
    (reference : ArtifactReference) (key : IdempotencyKey) : Prop where
  review : w.BuildsReview session turns reference
  unsaved : (w.objects session.storyRunId).recordUnder .finalizedReview key = none
  unclaimed : ∀ format ∈ session.requestedFormats,
    (w.objects session.storyRunId).reportIdem format = none

/-- The session is completed. -/
def World.Completed (w : World) (id : SessionId) : Prop :=
  ∃ s, w.core id = some s ∧ s.state = .completed

section Review
variable {w w' : World} {session : SessionRecord} {turns : List TurnRecord}
variable {reference : ArtifactReference} {key : IdempotencyKey} {reports : List SynthesisReport}

theorem buildFinalReview_eq_ok {finalizedAt : Time} {correlationId : Uuid}
    {review : FinalizedReview}
    (h : buildFinalReview session reference reports turns finalizedAt correlationId =
      .ok review) :
    review.finalizedAt = finalizedAt ∧ review.storyRunId = session.storyRunId := by
  refine ⟨finalizedAt_of_buildFinalReview h, ?_⟩
  unfold buildFinalReview at h
  split at h
  · cases h
  · split at h
    · cases h
    · dsimp only at h
      split at h
      · cases h
      · cases h
        rfl

/-- Whether the review can be built does not depend on the time. -/
theorem buildFinalReview_isOk {at₁ at₂ : Time} {id₁ id₂ : Uuid} {review : FinalizedReview}
    (h : buildFinalReview session reference reports turns at₁ id₁ = .ok review) :
    ∃ review', buildFinalReview session reference reports turns at₂ id₂ = .ok review' := by
  unfold buildFinalReview at h ⊢
  cases haccepted : acceptanceState turns with
  | none =>
      rw [haccepted] at h
      cases h
  | some accepted =>
      rw [haccepted] at h
      cases hcatalog : issueCatalog reports turns with
      | error failure =>
          simp only [hcatalog] at h
          cases h
      | ok catalog =>
          simp only [hcatalog] at h ⊢
          split at h
          · cases h
          · next hvalid =>
              -- no validator reads the time
              refine ⟨{ review with finalizedAt := at₂ }, ?_⟩
              cases h
              have hvalid' : finalStateFailure _ = none := hvalid
              split
              · next hfailure => exact absurd (hvalid'.symm.trans hfailure) nofun
              · rfl

theorem World.BuildsReview.congr (hobjects : w'.objects = w.objects) :
    w'.BuildsReview session turns reference ↔ w.BuildsReview session turns reference := by
  unfold World.BuildsReview World.Holds
  rw [hobjects]

theorem World.Finalizable.congr (hobjects : w'.objects = w.objects) :
    w'.Finalizable session turns reference key ↔ w.Finalizable session turns reference key := by
  constructor
  · rintro ⟨hreview, hunsaved, hunclaimed⟩
    rw [hobjects] at hunsaved hunclaimed
    exact ⟨(World.BuildsReview.congr hobjects).mp hreview, hunsaved, hunclaimed⟩
  · rintro ⟨hreview, hunsaved, hunclaimed⟩
    rw [← hobjects] at hunsaved hunclaimed
    exact ⟨(World.BuildsReview.congr hobjects).mpr hreview, hunsaved, hunclaimed⟩

/-- What is built from other reports than the stored ones is not built at all. -/
theorem World.BuildsReview.of_holds (hreports : List.Forall₂ w.Holds
    (catalogReferences turns reference) reports) (h : w.BuildsReview session turns reference)
    (finalizedAt : Time) (correlationId : Uuid) : ∃ review,
      buildFinalReview session reference reports turns finalizedAt correlationId =
        .ok review := by
  obtain ⟨reports', hreports', hbuilds⟩ := h
  have hunique : Relator.RightUnique w.Holds := fun _ _ _ h h' => h.unique h'
  rw [List.right_unique_forall₂' hunique hreports hreports']
  exact hbuilds finalizedAt correlationId

end Review

/-! ## Flow 3 -/

section Flow3
variable {w : World} {session : SessionRecord} {turns : List TurnRecord}
variable {reference : ArtifactReference}

/-- The reports of one review, in formats that are its first. -/
theorem concludes_renders (h : Inv w) (htype : reference.type = .finalizedReview)
    (hrun : reference.storyRunId = session.storyRunId)
    (hread : ((w.objects session.storyRunId).finalizedReview reference).isSome)
    {formats : List Format} (hnodup : formats.Nodup)
    (hother : ∀ format ∈ formats, ∀ c, (w.objects session.storyRunId).reportIdem format =
      some c → c.finalReviewArtifactId ≠ reference.artifactId) (correlationId : Uuid) :
    Concludes (fun references _ =>
        (∀ format ∈ formats, (w.objects session.storyRunId).reportIdem format = none) ∧
          references.map ArtifactReference.type = formats.map ArtifactType.report)
      (fun _ _ => ¬ ∀ format ∈ formats,
        (w.objects session.storyRunId).reportIdem format = none)
      (traverse (renderOne session reference correlationId) formats) w := by
  induction formats generalizing w with
  | nil => exact ⟨nofun, rfl⟩
  | cons format formats ih =>
      obtain ⟨hnew, hnodup⟩ := List.nodup_cons.mp hnodup
      refine Concludes.bind ((concludes_renderOne h htype hrun hread
        (hother format List.mem_cons_self) correlationId).mono (fun _ _ h => h) ?_) ?_
      · rintro e t hused hall
        exact hused (hall format List.mem_cons_self)
      · rintro b t ⟨hfree, ht, hsame, hread', htype'⟩
        have hkept : ∀ format' ∈ formats, (t.objects session.storyRunId).reportIdem format' =
            (w.objects session.storyRunId).reportIdem format' := fun format' hmem =>
          hsame format' fun heq => hnew (heq ▸ hmem)
        refine Concludes.bind ((ih ht hread' hnodup ?_).mono (fun _ _ h => h) ?_) ?_
        · intro format' hmem c hc
          rw [hkept format' hmem] at hc
          exact hother format' (List.mem_cons_of_mem _ hmem) c hc
        · rintro e u hused hall
          refine hused fun format' hmem => ?_
          rw [hkept format' hmem]
          exact hall format' (List.mem_cons_of_mem _ hmem)
        · rintro bs u ⟨hrest, htypes⟩
          refine ⟨fun format' hmem => ?_, ?_⟩
          · rcases List.mem_cons.mp hmem with rfl | hmem
            · exact hfree
            · rw [← hkept format' hmem]
              exact hrest format' hmem
          · rw [List.map_cons, List.map_cons, htype', htypes]

/-- The guarded part of flow 3. -/
theorem concludes_produceReports (turns : List TurnRecord) (reference : ArtifactReference)
    (h : Inv w) (hnodup : session.requestedFormats.Nodup)
    (key : IdempotencyKey) (correlationId : Uuid) :
    Concludes (fun result t => (w.Finalizable session turns reference key ∧
        result.reportReferences.map ArtifactReference.type =
          session.requestedFormats.map ArtifactType.report) ∧ Framed w t)
      (fun _ t => ¬ w.Finalizable session turns reference key ∧ Framed w t)
      (produceReports session turns key correlationId reference) w := by
  refine Concludes.framed ?_ (moves_produceReports _ _ _ _ _) (Framed.of_quiet (Quiet.refl w))
  refine Concludes.bind ((concludes_synthesisReports h _ correlationId (Quiet.refl w)).mono
    (fun _ _ h => h) ?_) ?_
  · rintro e t ⟨hnone, -⟩ ⟨⟨reports, hreports, -⟩, -, -⟩
    exact hnone reports hreports
  rintro reports t₁ ⟨hreports, hq₁⟩
  refine Concludes.bind (R := fun finalizedAt t => Quiet w t ∧ finalizedAt = t.clock ∧
    w.clock < finalizedAt) (fun c _ => ⟨trivial, hq₁.trans (quiet_tick t₁ c), rfl, ?_⟩) ?_
  · exact Nat.lt_succ_of_le (hq₁.clock.trans (Nat.le_add_right _ _))
  rintro finalizedAt t₂ ⟨hq₂, hnow, hlate⟩
  cases hreview : buildFinalReview session reference reports turns finalizedAt correlationId with
  | error e =>
      rintro ⟨hbuilds, -, -⟩
      obtain ⟨review, hreview'⟩ := hbuilds.of_holds hreports finalizedAt correlationId
      rw [hreview] at hreview'
      cases hreview'
  | ok review =>
      simp only [bind_eq, ofExcept_ok, ret_bind]
      obtain ⟨hat, hrun⟩ := buildFinalReview_eq_ok hreview
      have hbuilds : w.BuildsReview session turns reference :=
        ⟨reports, hreports, fun _ _ => buildFinalReview_isOk hreview⟩
      have hsound := h.objects session.storyRunId
      have hsave := concludes_saveFinalReview (h.quiet hq₂) hrun
        (hat.trans hnow).le (fun r hr f hf => ?_) key correlationId
      swap
      · rw [hq₂.objects] at hr
        rw [hat]
        exact (hsound.finalized_before r hr f hf).trans_lt hlate
      rw [hq₂.objects] at hsave
      refine Concludes.bind (hsave.mono (fun _ _ h => h) ?_) ?_
      · rintro e t hused ⟨-, hunsaved, -⟩
        exact hused hunsaved
      rintro finalReference t₃ ⟨hunsaved, ht₃, hclaims, hnew⟩
      have hother : ∀ format ∈ session.requestedFormats, ∀ c,
          (t₃.objects session.storyRunId).reportIdem format = some c →
            c.finalReviewArtifactId ≠ finalReference.artifactId := by
        intro format _ c hc heq
        rw [hclaims] at hc
        obtain ⟨r, hr, hid, -⟩ := hsound.reportIdem_pinned format c hc
        have hrecord := hsound.record_of_mem hr
        have hfresh := hnew.new
        rw [hq₂.objects, ← heq, ← hid, hrecord] at hfresh
        cases hfresh
      refine Concludes.bind ((concludes_renders ht₃ hnew.type hnew.owned hnew.read hnodup hother
        correlationId).mono (fun _ _ h => h) ?_) ?_
      · rintro e t hused ⟨-, -, hunclaimed⟩
        refine hused ?_
        rw [hclaims]
        exact hunclaimed
      · rintro references t ⟨hfree, htypes⟩
        rw [hclaims] at hfree
        exact ⟨⟨hbuilds, hunsaved, hfree⟩, htypes⟩

theorem World.Completed.quiet {w' : World} {id : SessionId} (hq : Quiet w w') :
    w'.Completed id ↔ w.Completed id := by
  unfold World.Completed
  rw [hq.core]

/-- A session in another state is not completed. -/
theorem World.not_completed {id : SessionId} {s : SessionRecord} (hs : w.core id = some s)
    (hopen : s.state.Open) : ¬ w.Completed id := by
  rintro ⟨q, hq, hdone⟩
  rw [hs] at hq
  cases hq
  exact hopen.not_completed hdone

variable {id : SessionId} {s : SessionRecord}

/-- An update of the state alone. -/
theorem concludes_updateState (hs : w.core id = some s) (state : SessionState) :
    Concludes (fun _ t => (∃ v, Quiet w v ∧ t = sessionUpdated id { state := some state } v) ∧
        ∃ q, t.core id = some q ∧ q.state = state)
      (fun _ _ => False) (updateSession id { state := some state }) w := by
  refine concludes_execute fun v hv => ?_
  have hcore : (sessionUpdated id { state := some state } v).core id =
      some (SessionUpdate.apply { state := some state } 0 s) := by
    rw [World.core_sessionUpdated, if_pos rfl, hv.core, hs, Option.map_some]
  exact ⟨⟨v, hv, rfl⟩, _, hcore, rfl⟩

theorem moves_setFinalizingTurnArtifacts {A : Choice → Prop} (id : SessionId)
    (references : List ArtifactReference) :
    (setFinalizingTurnArtifacts id references).Moves A SameCores := by
  refine moves_bind (moves_statement fun _ _ => rfl) fun turnNumber => ?_
  cases turnNumber with
  | none => exact moves_ret _
  | some n => exact moves_statement fun _ _ => rfl

theorem concludes_setFinalizingTurnArtifacts (id : SessionId)
    (references : List ArtifactReference) :
    Concludes (fun _ t => SameCores w t) (fun _ _ => False)
      (setFinalizingTurnArtifacts id references) w := by
  have hanswers : Concludes (fun _ _ => True) (fun _ _ => False)
      (setFinalizingTurnArtifacts id references) w := by
    refine Concludes.bind (R := fun _ _ => True) (concludes_statement fun _ _ => trivial)
      fun turnNumber t _ => ?_
    cases turnNumber with
    | none => trivial
    | some n => exact concludes_statement fun _ _ => trivial
  exact (hanswers.framed (moves_setFinalizingTurnArtifacts id references) rfl).mono
    (fun _ _ h => h.2) fun _ _ h => h.1

/-- Flow 3 of an open session whose last turn finalizes it. -/
theorem concludes_runFlow3 (h : Inv w) (hid : session.sessionId = id)
    (hs : w.core id = some s) (hopen : s.state.Open)
    (hlast : ∃ t, (w.history id).getLast? = some t ∧ t.outcome = .finalize)
    (hnodup : session.requestedFormats.Nodup) (key : IdempotencyKey) (correlationId : Uuid) :
    Concludes (fun result t => (w.Finalizable session turns reference key ∧
        result.reportReferences.map ArtifactReference.type =
          session.requestedFormats.map ArtifactType.report) ∧
        ∃ q, t.core id = some q ∧ q.state.Open)
      (fun _ t => ¬ w.Finalizable session turns reference key ∧ ¬ t.Completed id)
      (runFlow3 session turns key correlationId reference) w := by
  unfold runFlow3
  rw [hid]
  refine Concludes.bind ((concludes_updateState hs .finalizing).mono (fun _ _ h => h)
    fun _ _ h => h.elim) ?_
  rintro - t₁ ⟨⟨v, hv, rfl⟩, q, hq, hstate⟩
  have hinv : Inv (sessionUpdated id { state := some .finalizing } v) := by
    refine (h.quiet hv).update ((hv.core id).trans hs)
      (Commit.valid_of_open (h.valid id s hs) rfl rfl nofun nofun) hopen.not_completed fun _ => ?_
    rw [World.history, hv.turns]
    exact hlast
  have hobjects : (sessionUpdated id { state := some .finalizing } v).objects = w.objects :=
    (World.objects_sessionUpdated _ _ _).trans hv.objects
  have hproduce := concludes_produceReports turns reference hinv hnodup
    key correlationId
  simp only [World.Finalizable.congr hobjects] at hproduce
  refine Concludes.bind (R := fun result t => (w.Finalizable session turns reference key ∧
    result.reportReferences.map ArtifactReference.type =
      session.requestedFormats.map ArtifactType.report) ∧
    t.core id = some q) ?_ ?_
  · refine Concludes.tryCatch (hproduce.mono (fun _ t hdone => ⟨hdone.1, ?_⟩) fun _ _ h => h) ?_
    · rw [hdone.2.core]
      exact hq
    · rintro e t ⟨hnot, hframe⟩
      have hcore : t.core id = some q := hframe.core ▸ hq
      split
      · refine Concludes.bind ((concludes_updateState hcore .active).mono (fun _ _ h => h)
          fun _ _ h => h.elim) ?_
        rintro - u ⟨-, r, hr, hactive⟩
        exact ⟨hnot, World.not_completed hr (.inl hactive)⟩
      · exact ⟨hnot, World.not_completed hcore (.inr hstate)⟩
  · rintro result t ⟨hdone, hcore⟩
    refine Concludes.bind ((concludes_setFinalizingTurnArtifacts id _).mono (fun _ _ h => h)
      fun _ _ h => h.elim) ?_
    intro _ u hsame
    refine ⟨hdone, q, ?_, .inr hstate⟩
    rw [World.core, hsame]
    exact hcore

/-- The completing transaction. -/
theorem concludes_completeTransaction (hs : w.core id = some s) (slot : ClaimSlot)
    (count : Option ℕ) (response : CanonicalResponse) (result : FinalizationResult) :
    Concludes (fun _ t => t.Completed id) (fun _ _ => False)
      (completeTransaction slot id count response result) w := by
  exact concludes_execute fun v hv => ⟨SessionUpdate.apply _ 0 s,
    World.core_completed ((hv.core id).trans hs), rfl⟩

/-- The references that flow 3 returns are those of a report response. -/
theorem reportReferences_of_types {formats : List Format} {references : List ArtifactReference}
    (hne : formats ≠ []) (hnodup : formats.Nodup)
    (htypes : references.map ArtifactReference.type = formats.map ArtifactType.report) :
    references ≠ [] ∧ ReportReferences references := by
  have hlength : references.length = formats.length := by
    simpa using congrArg List.length htypes
  refine ⟨fun hnil => hne ?_, ?_, fun r hr => ?_, ?_⟩
  · rw [hnil] at hlength
    exact List.eq_nil_of_length_eq_zero hlength.symm
  · rw [hlength]
    exact Commit.length_le_of_formats hnodup
  · have hmem := List.mem_map_of_mem (f := ArtifactReference.type) hr
    rw [htypes] at hmem
    obtain ⟨format, -, hformat⟩ := List.mem_map.mp hmem
    rw [← hformat]
    cases format with
    | md => exact .inl rfl
    | pdf => exact .inr rfl
  · rw [htypes]
    exact hnodup.map fun _ _ => ArtifactType.report_injective

/-- A finalizing turn is answered through flow 3 when its number fits a turn result. -/
theorem concludes_finalizeAndRespond (h : Inv w) (hid : session.sessionId = id)
    (hs : w.core id = some s) (hopen : s.state.Open)
    (hlast : ∃ t, (w.history id).getLast? = some t ∧ t.outcome = .finalize)
    (hformats : session.requestedFormats ≠ []) (hnodup : session.requestedFormats.Nodup)
    (turn : TurnRecord) (count : Option ℕ) (key : IdempotencyKey) (correlationId : Uuid) :
    Concludes (fun _ t => t.Completed id ↔
        w.Finalizable session turns reference key ∧ 2 ≤ turn.turnNumber)
      (fun _ t => t.Completed id ↔
        w.Finalizable session turns reference key ∧ 2 ≤ turn.turnNumber)
      (TurnsFlow.finalizeAndRespond session turn turns reference count key correlationId) w := by
  refine Concludes.bind ((concludes_runFlow3 h hid hs hopen hlast hnodup key correlationId).mono
    (fun _ _ h => h) fun _ t hfailed => iff_of_false hfailed.2 fun hall => hfailed.1 hall.1) ?_
  rintro result t ⟨⟨hfinal, htypes⟩, q, hq, hopen'⟩
  obtain ⟨hne, hreports⟩ := reportReferences_of_types hformats hnodup htypes
  by_cases hnumber : 2 ≤ turn.turnNumber
  · have hvalid : (TurnsFlow.turnResult session.sessionId turn .finalize .completed reference
        result.reportReferences).Valid := by
      refine ⟨hnumber, ?_, rfl, ⟨fun _ => hne, fun _ => rfl⟩, hreports⟩
      cases hdelegation : turn.delegation with
      | none => simp [TurnsFlow.turnResult, hdelegation]
      | some delegation =>
          simpa [TurnsFlow.turnResult, hdelegation] using delegation.openIssues_le
    rw [TurnsFlow.canonicalTurnResult, if_pos hvalid]
    simp only [bind_eq, ofExcept_ok, ret_bind, hid]
    refine Concludes.bind ((concludes_completeTransaction hq _ _ _ _).mono (fun _ _ h => h)
      fun _ _ h => h.elim) fun _ u hdone => ?_
    exact (wp_ofExcept _).mpr ⟨fun _ _ => iff_of_true hdone ⟨hfinal, hnumber⟩,
      fun _ _ => iff_of_true hdone ⟨hfinal, hnumber⟩⟩
  · have hvalid : ¬ (TurnsFlow.turnResult session.sessionId turn .finalize .completed reference
        result.reportReferences).Valid := fun hvalid => hnumber hvalid.1
    rw [TurnsFlow.canonicalTurnResult, if_neg hvalid]
    exact iff_of_false (World.not_completed hq hopen') fun hall => hnumber hall.2

end Flow3

/-! ## The retry -/

/-- What a retry under the key finds on the stores lets flow 3 through. -/
def World.Resumable (w : World) (s : SessionRecord) (key : IdempotencyKey) : Prop :=
  ∃ reference, w.latestSynthesis s.storyRunId = some reference ∧
    w.Finalizable s (w.history s.sessionId) reference key

/-- The fingerprint of a finalize request is that of its empty body. -/
def FinalizeBodies (w : World) : Prop :=
  ∀ id key row, w.claims (Finalize.slot id key) = some row → row.requestFingerprint = .empty

section Retry
variable {w w' w₀ : World} {session : SessionRecord} {key : IdempotencyKey} {a : Attempt}

theorem World.Resumable.congr (hobjects : w'.objects = w.objects) (hturns : w'.turns = w.turns) :
    w'.Resumable session key ↔ w.Resumable session key := by
  unfold World.Resumable World.latestSynthesis
  simp only [World.Finalizable.congr hobjects, hobjects, World.history, hturns]

theorem Commit.finalizeBodies (h : FinalizeBodies w) (hc : Commit a w₀ w w') :
    FinalizeBodies w' := by
  intro id key row hrow
  obtain ⟨heffect, hother⟩ := hc.claims_cases
  by_cases hslot : Finalize.slot id key = a.slot
  swap
  · exact h id key row ((hother _ hslot).symm.trans hrow)
  have hempty : a.fingerprint = .empty := by
    cases hrequest : a.request with
    | finalize => rw [Attempt.fingerprint, hrequest]
    | _ =>
        rw [Attempt.slot, hrequest] at hslot
        cases hslot
  rw [hslot] at hrow
  rw [hrow] at heffect
  have hold : ∀ {row'}, w.claims a.slot = some row' → row'.requestFingerprint = .empty :=
    fun hrow' => h id key _ (hslot ▸ hrow')
  generalize hclaim : (some row : Option ClaimRow) = claim at heffect
  cases heffect with
  | same => exact hold hclaim.symm
  | claim =>
      cases hclaim
      exact hempty
  | release => exact hold (Option.filter_eq_some_iff.mp hclaim.symm).1
  | close =>
      obtain ⟨row', hrow', rfl⟩ := Option.map_eq_some_iff.mp hclaim.symm
      have hkept := hold hrow'
      exact hkept
  | created =>
      obtain ⟨row', hrow', rfl⟩ := Option.map_eq_some_iff.mp hclaim.symm
      have hkept := hold hrow'
      exact hkept

theorem Evolves.finalizeBodies (h : FinalizeBodies w₀) (hw : Evolves a w₀ w₀ w) :
    FinalizeBodies w := by
  induction hw with
  | refl => exact h
  | tail _ hc ih => exact Commit.finalizeBodies ih hc

theorem ReachableIf.finalizeBodies {P : World → Attempt → Prop} (h : ReachableIf P w) :
    FinalizeBodies w := by
  induction h with
  | init =>
      intro id key row hrow
      cases hrow
  | @step w a hw _ ih => exact Evolves.finalizeBodies ih (a.evolves hw.inv)

/-! ### Under the lease -/

variable {id : SessionId} {s : SessionRecord}

theorem World.Resumable.core : w.Resumable session.core key ↔ w.Resumable session key := by
  constructor
  · rintro ⟨reference, hlatest, hreview, hunsaved, hunclaimed⟩
    exact ⟨reference, hlatest, hreview, hunsaved, hunclaimed⟩
  · rintro ⟨reference, hlatest, hreview, hunsaved, hunclaimed⟩
    exact ⟨reference, hlatest, hreview, hunsaved, hunclaimed⟩

/-- Flow 3 once more, through the finalize endpoint. -/
theorem concludes_resumeFlow3 (h : Inv w) (hs : w.core session.sessionId = some session.core)
    (hstate : session.state = .finalizing) (key : IdempotencyKey) (correlationId : Uuid) :
    Concludes (fun _ t => t.Completed session.sessionId ↔ w.Resumable session key)
      (fun _ t => t.Completed session.sessionId ↔ w.Resumable session key)
      (Finalize.resumeFlow3 session key correlationId) w := by
  have hlast := h.finalizing _ _ hs hstate
  have hvalid := SessionRecord.core_valid.mp (h.valid _ _ hs)
  have hopen : session.core.state.Open := .inr hstate
  refine Concludes.bind ((concludes_listTurns h).mono (fun _ _ h => h) fun _ _ h => h.elim) ?_
  rintro turns t ⟨rfl, hq⟩
  have hne : w.history session.sessionId ≠ [] := by
    obtain ⟨turn, hturn, -⟩ := hlast
    intro hnil
    rw [hnil] at hturn
    cases hturn
  simp only [if_neg hne]
  refine Concludes.bind ((concludes_latestSynthesis session correlationId).mono
    (fun _ _ h => h) fun e u hnone => ?_) ?_
  · refine iff_of_false (World.not_completed ((hnone.2.core _).trans ((hq.core _).trans hs))
      hopen) ?_
    rintro ⟨reference, hlatest, -⟩
    have hmissing := hnone.1
    rw [World.latestSynthesis, hq.objects] at hmissing
    rw [World.latestSynthesis, hmissing] at hlatest
    cases hlatest
  rintro reference u ⟨hlatest, hu⟩
  refine Concludes.bind (R := fun _ v => Quiet w v) ?_ ?_
  · refine concludes_execute fun v hv => ((hq.trans hu).trans hv).trans ?_
    exact quiet_modifySession _ fun _ => rfl
  rintro - v hv
  have hresumable : v.Finalizable session (w.history session.sessionId) reference key ↔
      w.Resumable session key := by
    rw [World.latestSynthesis, hq.objects] at hlatest
    rw [World.Finalizable.congr hv.objects]
    refine ⟨fun hfinal => ⟨reference, hlatest, hfinal⟩, ?_⟩
    rintro ⟨reference', hlatest', hfinal⟩
    rw [World.latestSynthesis, hlatest] at hlatest'
    cases hlatest'
    exact hfinal
  have hlastv : ∃ t, (v.history session.sessionId).getLast? = some t ∧ t.outcome = .finalize := by
    rw [World.history, hv.turns]
    exact hlast
  refine Concludes.bind ((concludes_runFlow3 (h.quiet hv) rfl ((hv.core _).trans hs) hopen hlastv
    hvalid.2.1 key correlationId).mono (fun _ _ h => h) fun e x hfailed => ?_) ?_
  · exact iff_of_false hfailed.2 fun hall => hfailed.1 (hresumable.mpr hall)
  rintro result x ⟨⟨hfinal, htypes⟩, q, hcore, -⟩
  have hreferences := reportReferences_of_types hvalid.1 hvalid.2.1 htypes
  have hcanonical : (⟨session.sessionId, result.reportReferences⟩ : CanonicalReportResult).Valid :=
    hreferences
  rw [Finalize.canonicalReport, if_pos hcanonical]
  simp only [bind_eq, ofExcept_ok, ret_bind]
  refine Concludes.bind ((concludes_completeTransaction hcore _ _ _ _).mono (fun _ _ h => h)
    fun _ _ h => h.elim) fun _ y hdone => ?_
  exact (wp_ofExcept _).mpr ⟨fun _ _ => iff_of_true hdone (hresumable.mp hfinal),
    fun _ _ => iff_of_true hdone (hresumable.mp hfinal)⟩

/-- The same turn request once more: flow 3 for the turn that finalizes the session. -/
theorem concludes_resumeFinalizing (h : Inv w)
    (hs : w.core session.sessionId = some session.core) (hstate : session.state = .finalizing)
    (key : IdempotencyKey) (correlationId : Uuid) :
    Concludes (fun _ t => t.Completed session.sessionId ↔
        w.Resumable session key ∧ 2 ≤ (w.history session.sessionId).length)
      (fun _ t => t.Completed session.sessionId ↔
        w.Resumable session key ∧ 2 ≤ (w.history session.sessionId).length)
      (TurnsFlow.resumeFinalizing session key correlationId) w := by
  obtain ⟨turn, hturn, houtcome⟩ := h.finalizing _ _ hs hstate
  have hvalid := SessionRecord.core_valid.mp (h.valid _ _ hs)
  have hopen : session.core.state.Open := .inr hstate
  have hnumber : turn.turnNumber = (w.history session.sessionId).length := by
    have hlast := congrArg List.getLast? (h.numbered session.sessionId)
    rw [List.getLast?_map, hturn, Option.map_some] at hlast
    cases hlength : (w.history session.sessionId).length with
    | zero => simp [hlength] at hlast
    | succ n =>
        rw [hlength, List.range'_concat, List.getLast?_concat, Option.some.injEq] at hlast
        omega
  refine Concludes.bind ((concludes_listTurns h).mono (fun _ _ h => h) fun _ _ h => h.elim) ?_
  rintro turns t ⟨rfl, hq⟩
  rw [hturn, Option.filter_some, if_pos (decide_eq_true houtcome)]
  refine Concludes.bind ((concludes_latestSynthesis session correlationId).mono
    (fun _ _ h => h) fun e u hnone => ?_) ?_
  · refine iff_of_false (World.not_completed ((hnone.2.core _).trans ((hq.core _).trans hs))
      hopen) ?_
    rintro ⟨⟨reference, hlatest, -⟩, -⟩
    have hmissing := hnone.1
    rw [World.latestSynthesis, hq.objects] at hmissing
    rw [World.latestSynthesis, hmissing] at hlatest
    cases hlatest
  rintro reference u ⟨hlatest, hu⟩
  refine Concludes.bind (R := fun _ v => Quiet w v) ?_ ?_
  · refine concludes_execute fun v hv => ((hq.trans hu).trans hv).trans ?_
    exact quiet_modifySession _ fun _ => rfl
  rintro - v hv
  have hresumable : v.Finalizable session (w.history session.sessionId) reference key ∧
      2 ≤ turn.turnNumber ↔
        w.Resumable session key ∧ 2 ≤ (w.history session.sessionId).length := by
    rw [World.latestSynthesis, hq.objects] at hlatest
    rw [World.Finalizable.congr hv.objects, hnumber]
    refine and_congr_left fun _ => ⟨fun hfinal => ⟨reference, hlatest, hfinal⟩, ?_⟩
    rintro ⟨reference', hlatest', hfinal⟩
    rw [World.latestSynthesis, hlatest] at hlatest'
    cases hlatest'
    exact hfinal
  have hlastv : ∃ t, (v.history session.sessionId).getLast? = some t ∧ t.outcome = .finalize := by
    rw [World.history, hv.turns]
    exact ⟨turn, hturn, houtcome⟩
  exact (concludes_finalizeAndRespond (h.quiet hv) rfl ((hv.core _).trans hs) hopen hlastv
    hvalid.1 hvalid.2.1 turn none key correlationId).mono (fun _ _ hdone => hdone.trans hresumable)
    fun _ _ hdone => hdone.trans hresumable

/-- A claim that no other body and no stored answer stands in the way of. -/
theorem concludes_claim (slot : ClaimSlot) (fingerprint : Fingerprint) (h : Inv w)
    (hopen : ∀ row, w.claims slot = some row →
      row.state = .inProgress ∧ row.requestFingerprint = fingerprint) :
    Concludes (fun outcome t => Inv t ∧ t.core = w.core ∧ t.turns = w.turns ∧
        t.objects = w.objects ∧
        outcome = if (w.claims slot).isSome then .inProgress else .claimed)
      (fun _ _ => False) (Idempotency.claim slot fingerprint) w := by
  unfold Idempotency.claim
  cases hclaim : w.claims slot with
  | none =>
      refine Concludes.bind (R := fun inserted t => inserted = true ∧ Inv t ∧ t.core = w.core ∧
        t.turns = w.turns ∧ t.objects = w.objects) (concludes_statement fun v hv => ?_) ?_
      · have hfree : ¬ (v.claims slot).isSome := by simp [hv.claims, hclaim]
        rw [Idempotency.insertClaim, if_neg hfree]
        exact ⟨rfl, (h.quiet hv).claim _ _, funext hv.core, hv.turns, hv.objects⟩
      · rintro inserted t ⟨rfl, ht⟩
        exact ⟨ht.1, ht.2.1, ht.2.2.1, ht.2.2.2, rfl⟩
  | some row =>
      obtain ⟨hstate, rfl⟩ := hopen row hclaim
      refine Concludes.bind (R := fun inserted t => inserted = false ∧ Quiet w t)
        (concludes_statement fun v hv => ?_) ?_
      · have htaken : (v.claims slot).isSome := by simp [hv.claims, hclaim]
        rw [Idempotency.insertClaim, if_pos htaken]
        exact ⟨rfl, hv⟩
      · rintro inserted t ⟨rfl, hq⟩
        refine Concludes.bind (R := fun existing u => existing = some row ∧ Quiet w u)
          (concludes_statement fun v hv => ?_) ?_
        · exact ⟨(congrFun (hq.trans hv).claims slot).trans hclaim, hq.trans hv⟩
        · rintro existing u ⟨rfl, hu⟩
          simp only [ne_eq, not_true_eq_false, if_false, hstate]
          exact ⟨h.quiet hu, funext hu.core, hu.turns, hu.objects, rfl⟩

/-- The owner reads the session. -/
theorem concludes_getSession (h : Inv w) (hs : w.core id = some s) :
    Concludes (fun found t => Quiet w t ∧ ∃ session, found = some session ∧ session.core = s)
      (fun _ _ => False) (getSession id s.userId) w := by
  refine Program.Takes.concludes (takes_getSession hs (h.valid id s hs) ?_)
  exact fun c session _ hsession => ⟨quiet_tick w c, session, rfl, hsession⟩

theorem concludes_resumeUnderLease (h : Inv w) (hbodies : FinalizeBodies w)
    (hs : w.core id = some s) (hstate : s.state = .finalizing) (key : IdempotencyKey)
    (correlationId : Uuid) :
    Concludes (fun _ t => t.Completed id ↔ w.Resumable s key)
      (fun _ t => t.Completed id ↔ w.Resumable s key)
      (Finalize.resumeUnderLease id key correlationId s.userId) w := by
  refine Concludes.bind ((concludes_getSession h hs).mono (fun _ _ h => h)
    fun _ _ h => h.elim) ?_
  rintro found t ⟨hq, session, rfl, rfl⟩
  have hid : session.core.sessionId = id := World.sessionId_of_core hs
  have hid : session.sessionId = id := hid
  have hstate' : session.state = .finalizing := hstate
  have hclaim := concludes_claim (Finalize.slot id key) .empty (h.quiet hq)
    fun row hrow => by
      rw [hq.claims] at hrow
      refine ⟨?_, hbodies id key row hrow⟩
      cases hdone : row.state with
      | inProgress => rfl
      | completed =>
          obtain ⟨q, hq', hcompleted⟩ := h.finalizeClaim id key row hrow hdone
          rw [hs] at hq'
          cases hq'
          rw [hstate] at hcompleted
          cases hcompleted
  simp only [hstate']
  refine Concludes.bind (hclaim.mono (fun _ _ h => h) fun _ _ h => h.elim) ?_
  rintro outcome u ⟨hu, hcore, hturns, hobjects, rfl⟩
  have hresume := concludes_resumeFlow3 hu
    (by rw [hcore, hq.core, hid]; exact hs) hstate' key correlationId
  rw [World.Resumable.congr (hobjects.trans hq.objects) (hturns.trans hq.turns), hid,
    ← World.Resumable.core] at hresume
  split_ifs <;> exact hresume

theorem concludes_executeTurn (h : Inv w) (hs : w.core id = some s)
    (hstate : s.state = .finalizing) {payload : TurnRequest} {key : IdempotencyKey}
    {row : ClaimRow} (hrow : w.claims (TurnsFlow.slot id key) = some row)
    (hopen : row.state = .inProgress) (hbody : row.requestFingerprint = .turn payload)
    (correlationId : Uuid) :
    Concludes (fun _ t => t.Completed id ↔ w.Resumable s key ∧ 2 ≤ (w.history id).length)
      (fun _ t => t.Completed id ↔ w.Resumable s key ∧ 2 ≤ (w.history id).length)
      (TurnsFlow.executeTurn id payload key correlationId s.userId) w := by
  have hclaim := concludes_claim (TurnsFlow.slot id key) (.turn payload) h
    fun row' hrow' => by
      rw [hrow] at hrow'
      cases hrow'
      exact ⟨hopen, hbody⟩
  refine Concludes.bind (hclaim.mono (fun _ _ h => h) fun _ _ h => h.elim) ?_
  rintro outcome t ⟨ht, hcore, hturns, hobjects, rfl⟩
  have hst : t.core id = some s := by rw [hcore]; exact hs
  simp only [hrow, Option.isSome_some, if_true]
  refine Concludes.bind ((concludes_getSession ht hst).mono (fun _ _ h => h)
    fun _ _ h => h.elim) ?_
  rintro found u ⟨hq, session, rfl, rfl⟩
  have hid : session.core.sessionId = id := World.sessionId_of_core hs
  have hid : session.sessionId = id := hid
  have hstate' : session.state = .finalizing := hstate
  have hresume := concludes_resumeFinalizing (ht.quiet hq)
    (by rw [hq.core, hid]; exact hst) hstate' key correlationId
  rw [World.Resumable.congr (hq.objects.trans hobjects) (hq.turns.trans hturns), World.history,
    hq.turns.trans hturns, hid, ← World.Resumable.core] at hresume
  simp only [hstate']
  exact hresume

/-! ### The whole request -/

section Lease
variable {α : Type}

theorem run_getSession {row : SessionRow} (hrow : w.session id = some row)
    (hvalid : row.record.Valid) (g : Option SessionRecord → Orchestration α) :
    ((getSession id row.record.userId).bind g).run cs w =
      (g (some row.record)).run (fun n => cs (n + 1)) (w.tick (cs 0)) := by
  have hfound : (w.tick (cs 0)).session id = some row := hrow
  have hread : sessionFromRow row = .ok row.record := by rw [sessionFromRow, if_pos hvalid]
  simp only [getSession, query, statement, atomic, bind_eq, Program.bind, run, hfound,
    Option.filter_some, decide_true, if_true, hread, ofExcept_ok, pure_eq]

/-- The lease is free when the request comes to it. -/
theorem run_acquire (cs : ℕ → Choice) (hfree : ¬ (w.tick (cs 0)).Held id)
    (g : Uuid → Orchestration α) :
    ∃ token t, Quiet w t ∧
      ((TurnLease.acquire id).bind g).run cs w = (g token).run (fun n => cs (n + 1)) t := by
  have hacquired : TurnLease.acquireStatement id (w.tick (cs 0)) = (some w.fresh,
      (TurnLease.acquireStatement id (w.tick (cs 0))).2) := by
    unfold TurnLease.acquireStatement
    cases hlease : (w.tick (cs 0)).leases id with
    | none => rfl
    | some lease =>
        have hexpired : lease.expiresAt ≤ (w.tick (cs 0)).clock := by
          by_contra hlater
          exact hfree ⟨lease, hlease, Nat.lt_of_not_le hlater⟩
        simp only [if_pos hexpired]
        rfl
  refine ⟨w.fresh, _, (quiet_tick w (cs 0)).trans (quiet_acquireStatement id _), ?_⟩
  simp only [TurnLease.acquire, TurnLease.acquireLoop, TurnLease.attemptAcquire, statement, atomic,
    bind_eq, Program.bind, run, pure_eq]
  rw [hacquired]
  rfl

/-- A held lease locks the request out. -/
theorem run_acquire_held (cs : ℕ → Choice) (hheld : (w.tick (cs 0)).Held id)
    (g : Uuid → Orchestration α) :
    Quiet w (((TurnLease.acquire id).bind g).run cs w).2 := by
  obtain ⟨lease, hlease, hlater⟩ := hheld
  have hlocked : TurnLease.acquireStatement id (w.tick (cs 0)) =
      (none, { w.tick (cs 0) with fresh := w.fresh + 1 }) := by
    unfold TurnLease.acquireStatement
    simp only [hlease, if_neg (Nat.not_le.mpr hlater)]
    rfl
  have hquiet := (quiet_tick w (cs 0)).trans (quiet_acquireStatement id (w.tick (cs 0)))
  simp only [TurnLease.acquire, TurnLease.acquireLoop, TurnLease.attemptAcquire, statement, atomic,
    bind_eq, Program.bind, run, hlocked, query, TurnLease.retryAfter]
  rw [hlocked] at hquiet
  have hhint : ({ w.tick (cs 0) with fresh := w.fresh + 1 }.tick (cs 1)).leases id =
    some lease := hlease
  simp only [hhint, Option.map_some, Program.bind, run]
  exact hquiet.trans (quiet_tick _ _)

end Lease

/-- A fault-free request of the session's owner that is to finish a finalizing session:
the finalize endpoint under any key, or the same turn request under a key whose claim is
open. -/
structure Attempt.Retries (a : Attempt) (w : World) (s : SessionRecord) : Prop where
  owner : a.userId = s.userId
  survives : a.crashAfter = none
  faultFree : ∀ n, (a.choices n).FaultFree
  request : a.request = .finalize s.sessionId ∨
    (∃ payload, a.request = .turn s.sessionId payload) ∧ a.HoldsClaim w

/-- The session is completed with one report for each of its formats, and a report of one
of them that had been rendered in `before` is the one that it references. -/
def World.FinishedSince (w before : World) (id : SessionId) : Prop :=
  ∃ row, w.session id = some row ∧ row.record.state = .completed ∧
    (row.record.reportReferences.map ArtifactReference.type).Perm
      (row.record.requestedFormats.map ArtifactType.report) ∧
    ∀ format ∈ row.record.requestedFormats, ∀ c reference,
      (before.objects row.record.storyRunId).reportIdem format = some c →
        (before.objects row.record.storyRunId).reportMeta c.artifactId = some reference →
          reference ∈ row.record.reportReferences

/-- The lease is held when the request, having read the session, comes to it. -/
def Attempt.LockedOut (a : Attempt) (w : World) (id : SessionId) : Prop :=
  ((w.tick (a.choices 0)).tick (a.choices 1)).Held id

/-- The number of the finalizing turn fits a turn result; the finalize endpoint answers
without one. -/
def Attempt.NumbersTurn (a : Attempt) (w : World) (id : SessionId) : Prop :=
  a.request = .finalize id ∨ 2 ≤ (w.history id).length

theorem World.Completed.of_concludes {α : Type} {p : Orchestration α} {C : Prop}
    {cs : ℕ → Choice} (hp : Concludes (fun _ t => t.Completed id ↔ C)
      (fun _ t => t.Completed id ↔ C) p w) (hcs : ∀ n, (cs n).FaultFree) :
    (p.run cs w).2.Completed id ↔ C := by
  have hrun := wp_run hp hcs
  split at hrun
  · next heq => rw [heq]; exact hrun
  · next heq => rw [heq]; exact hrun

/-- The end of an exchange under the lease. -/
theorem concludes_ensure {α : Type} {p : Orchestration α} {C : Prop}
    (hp : Concludes (fun _ t => t.Completed id ↔ C) (fun _ t => t.Completed id ↔ C) p w)
    (token : Uuid) : Concludes (fun _ t => t.Completed id ↔ C) (fun _ t => t.Completed id ↔ C)
      (ensure p (TurnsFlow.releaseLease id token)) w := by
  have hrelease : ∀ t : World, (t.Completed id ↔ C) → Concludes (fun _ u => u.Completed id ↔ C)
      (fun _ _ => False) (TurnsFlow.releaseLease id token) t := fun t ht =>
    (((takes_releaseLease id token).quiet (Quiet.refl t)).concludes).mono
      (fun _ _ hu => (World.Completed.quiet hu.2).trans ht) fun _ _ hu => hu.1
  refine (wp_ensure _ _).mpr (hp.mono (fun _ t ht => ?_) fun _ t ht => ?_)
  · exact (hrelease t ht).mono (fun _ _ h => h) fun _ _ h => h.elim
  · exact (hrelease t ht).mono (fun _ _ h => h) fun _ _ h => h.elim

/-- What is done under the lease decides, unless the lease is held. -/
theorem completed_leased {α : Type} (hs : w.core id = some s) (hopen : s.state.Open)
    (hfaultFree : ∀ n, (a.choices n).FaultFree) {p : Orchestration α} {C : Prop}
    (hp : ∀ t, Quiet w t → Concludes (fun _ u => u.Completed id ↔ C)
      (fun _ u => u.Completed id ↔ C) p t) :
    (((TurnLease.acquire id).bind fun token => ensure p (TurnsFlow.releaseLease id token)).run
      (fun n => a.choices (n + 1)) (w.tick (a.choices 0))).2.Completed id ↔
        ¬ a.LockedOut w id ∧ C := by
  have hq := quiet_tick w (a.choices 0)
  by_cases hheld : a.LockedOut w id
  · have hlocked := run_acquire_held (fun n => a.choices (n + 1)) hheld fun token =>
      ensure p (TurnsFlow.releaseLease id token)
    rw [World.Completed.quiet (hq.trans hlocked)]
    exact iff_of_false (World.not_completed hs hopen) fun hall => hall.1 hheld
  · obtain ⟨token, t, ht, hrun⟩ := run_acquire (fun n => a.choices (n + 1)) hheld
      fun token => ensure p (TurnsFlow.releaseLease id token)
    rw [hrun]
    refine (World.Completed.of_concludes (concludes_ensure (hp t (hq.trans ht)) token)
      fun n => hfaultFree _).trans ?_
    exact ⟨fun hC => ⟨hheld, hC⟩, fun hall => hall.2⟩

theorem completed_result_iff (h : Inv w) (hbodies : FinalizeBodies w) {row : SessionRow}
    (hrow : w.session id = some row) (hstate : row.record.state = .finalizing)
    (ha : a.Retries w row.record) : (a.result w).Completed id ↔
      ¬ a.LockedOut w id ∧ w.Resumable row.record a.key ∧ a.NumbersTurn w id := by
  have hs := World.core_of_session hrow
  have hid : row.record.core.sessionId = id := World.sessionId_of_core hs
  have hid : row.record.sessionId = id := hid
  have hvalid := SessionRecord.core_valid.mp (h.valid _ _ hs)
  have hopen : row.record.core.state.Open := .inr hstate
  rw [Attempt.result, ha.survives]
  dsimp only
  rcases ha.request with hrequest | ⟨⟨payload, hrequest⟩, claim, hclaim, hinProgress, hbody⟩
  · rw [hid] at hrequest
    have hnumbers : a.NumbersTurn w id := .inl hrequest
    unfold Attempt.program postFinalize Finalize.finalize
    rw [hrequest]
    simp only [bind_eq, pure_eq, run_bind_ret_state]
    rw [run_tryCatch_state (fun e => by cases e <;> exact ⟨_, rfl⟩), ha.owner,
      run_getSession hrow hvalid]
    simp only [hstate]
    refine (completed_leased (C := w.Resumable row.record a.key) hs hopen ha.faultFree
      fun t ht => ?_).trans (by simp only [hnumbers, and_true])
    have hbodies' : FinalizeBodies t := by
      unfold FinalizeBodies
      rw [ht.claims]
      exact hbodies
    have hresume := concludes_resumeUnderLease (h.quiet ht) hbodies' ((ht.core id).trans hs)
      hstate a.key a.correlationId
    rw [World.Resumable.congr ht.objects ht.turns, World.Resumable.core] at hresume
    exact hresume
  · rw [hid] at hrequest
    have hslot : a.slot = TurnsFlow.slot id a.key := by rw [Attempt.slot, hrequest]
    have hfingerprint : a.fingerprint = .turn payload := by rw [Attempt.fingerprint, hrequest]
    have hnumbers : a.NumbersTurn w id ↔ 2 ≤ (w.history id).length := by
      rw [Attempt.NumbersTurn, hrequest]
      simp
    unfold Attempt.program postTurn TurnsFlow.runTurn
    rw [hrequest]
    simp only [bind_eq, pure_eq, run_bind_ret_state]
    rw [run_tryCatch_state (fun e => by cases e <;> exact ⟨_, rfl⟩), ha.owner,
      run_getSession hrow hvalid]
    rw [hnumbers]
    refine completed_leased hs hopen ha.faultFree fun t ht => ?_
    have hclaim' : t.claims (TurnsFlow.slot id a.key) = some claim := by
      rw [ht.claims, ← hslot]
      exact hclaim
    have hresume := concludes_executeTurn (h.quiet ht) ((ht.core id).trans hs) hstate hclaim'
      hinProgress (hbody.trans hfingerprint) a.correlationId
    rw [World.Resumable.congr ht.objects ht.turns, World.history, ht.turns, ← World.history,
      World.Resumable.core] at hresume
    exact hresume

end Retry

/-- A fault-free retry of an interrupted finalization finishes the session exactly when
the lease is free, a final review can be built, no review is saved under the retry's key
and no requested format is claimed yet. -/
theorem retry_finishes_iff {w : World} (h : Reachable w) {id : SessionId} {row : SessionRow}
    (hrow : w.session id = some row) (hstate : row.record.state = .finalizing) {a : Attempt}
    (ha : a.Retries w row.record) : (a.result w).FinishedSince w id ↔
      ¬ a.LockedOut w id ∧ w.Resumable row.record a.key ∧ a.NumbersTurn w id := by
  have hs := World.core_of_session hrow
  have hcompleted := completed_result_iff h.inv h.finalizeBodies hrow hstate ha
  have hreachable : Reachable (a.result w) := .step a h trivial
  constructor
  · rintro ⟨row', hrow', hdone, -⟩
    exact hcompleted.mp ⟨_, World.core_of_session hrow', hdone⟩
  · intro hall
    obtain ⟨s', hs', hdone⟩ := hcompleted.mpr hall
    obtain ⟨row', hrow', rfl⟩ := World.session_of_core hs'
    have hdone' : row'.record.state = .completed := hdone
    have hfinished := (hreachable.completionCoherent.finished_iff id row' hrow').mp hdone'
    refine ⟨row', hrow', hdone', hfinished.reports, fun format hformat c reference hc _ => ?_⟩
    -- a requested format is claimed by none of the attempts before
    obtain ⟨-, ⟨latest, -, -, -, hunclaimed⟩, -⟩ := hall
    obtain ⟨q, hq, hsame⟩ := Evolves.field_kept
      (fun s => (s.storyRunId, s.requestedFormats)) (fun _ _ => rfl) hs (a.evolves h.inv)
    rw [hs', Option.some.injEq] at hq
    subst hq
    obtain ⟨hrun, hformats⟩ := Prod.mk.inj hsame
    have hrun : row'.record.storyRunId = row.record.storyRunId := hrun
    have hformats : row'.record.requestedFormats = row.record.requestedFormats := hformats
    rw [hrun, hunclaimed format (hformats ▸ hformat)] at hc
    cases hc

namespace Scenario

/-- Acceptances that died after the mark, the saved review and the first report. -/
def marked : World := World.after {} [create, accept 2 (some 12)]
def reviewSaved : World := World.after {} [create, accept 2 (some 15)]
def reportClaimed : World := World.after {} [create, accept 2 (some 16)]

/-- The session ⟨1⟩ is finalizing, of the scenario's user, and flow 3 is free to run again. -/
def interrupted (w : World) : Bool :=
  (w.session ⟨1⟩).any (fun row => decide (row.record.state = .finalizing ∧
    row.record.userId = 7 ∧ row.record.sessionId = ⟨1⟩)) &&
  (w.claims (TurnsFlow.slot ⟨1⟩ 2)).any fun claim => decide (claim.state = .inProgress ∧
    claim.requestFingerprint = .turn ⟨none, true, rfl⟩)

theorem faultFree_steady : (later steady).FaultFree := ⟨rfl, rfl⟩

theorem retries_of_interrupted {w : World} (h : interrupted w = true) :
    ∃ row, w.session ⟨1⟩ = some row ∧ row.record.state = .finalizing ∧
      (accept 2 none).Retries w row.record ∧ ∀ key, (finalize key).Retries w row.record := by
  rw [interrupted, Bool.and_eq_true] at h
  obtain ⟨row, hrow, hdecided⟩ := (Option.any_eq_true _ _).mp h.1
  obtain ⟨claim, hclaim, hopen⟩ := (Option.any_eq_true _ _).mp h.2
  obtain ⟨hstate, huser, hid⟩ := of_decide_eq_true hdecided
  obtain ⟨hinProgress, hbody⟩ := of_decide_eq_true hopen
  refine ⟨row, hrow, hstate, ⟨huser.symm, rfl, fun _ => faultFree_steady, .inr ?_⟩, fun key =>
    ⟨huser.symm, rfl, fun _ => faultFree_steady, .inl (by rw [hid]; rfl)⟩⟩
  exact ⟨⟨_, by rw [hid]; rfl⟩, claim, hclaim, hinProgress, hbody⟩

/-- A retry that is refused for good and puts the session back to active. -/
def rollsBack (a : Attempt) (w : World) : Bool :=
  ((a.result w).session ⟨1⟩).any (fun row => decide (row.record.state = .active)) &&
  match (a.program.run a.choices w).1 with
  | .error (.apiError error) => decide (error.error.code = .idempotencyKeyReused) &&
      !error.error.retryable
  | .error (.finalizationFailed error retryable) =>
      decide (error.error.code = .idempotencyKeyReused) && !retryable
  | _ => false

theorem retry_finishes_marked : ∃ row, marked.session ⟨1⟩ = some row ∧
    (((accept 2 none).result marked).FinishedSince marked ⟨1⟩ ↔
      ¬ (accept 2 none).LockedOut marked ⟨1⟩ ∧ marked.Resumable row.record 2 ∧
        (accept 2 none).NumbersTurn marked ⟨1⟩) := by
  obtain ⟨row, hrow, hstate, hretries, -⟩ := retries_of_interrupted (w := marked)
    (by decide +kernel)
  exact ⟨row, hrow, retry_finishes_iff (reachable_after _) hrow hstate hretries⟩

/-- The saved review stands in the way of the turn's own retry, and a claimed report in the
way of the finalize endpoint too. -/
theorem retries_rollBack :
    (∃ row reference, Reachable reviewSaved ∧ reviewSaved.session ⟨1⟩ = some row ∧
      row.record.state = .finalizing ∧
      reviewSaved.latestSynthesis row.record.storyRunId = some reference ∧
      reviewSaved.BuildsReview row.record (reviewSaved.history row.record.sessionId) reference ∧
      (accept 2 none).Retries reviewSaved row.record ∧
      ¬ (accept 2 none).LockedOut reviewSaved ⟨1⟩ ∧
      ¬ ((accept 2 none).result reviewSaved).FinishedSince reviewSaved ⟨1⟩) ∧
    rollsBack (accept 2 none) reviewSaved = true ∧ Reachable reportClaimed ∧
    ((reportClaimed.objects ⟨1⟩).reportIdem .md).isSome ∧
    rollsBack (accept 2 none) reportClaimed = true ∧ rollsBack (finalize 3) reportClaimed = true := by
  have hrollsBack : rollsBack (accept 2 none) reviewSaved = true := by decide +kernel
  refine ⟨?_, hrollsBack, reachable_after _, by decide +kernel, by decide +kernel,
    by decide +kernel⟩
  obtain ⟨row, hrow, hstate, hretries, hothers⟩ := retries_of_interrupted (w := reviewSaved)
    (by decide +kernel)
  have hreachable : Reachable reviewSaved := reachable_after _
  -- through the finalize endpoint the same review is built and saved
  have hcompletes : ((finalize 3).result reviewSaved).Completed ⟨1⟩ := by
    have hdone : (((finalize 3).result reviewSaved).session ⟨1⟩).any
        (fun row => decide (row.record.state = .completed)) = true := by decide +kernel
    obtain ⟨row', hrow', hdone'⟩ := (Option.any_eq_true _ _).mp hdone
    exact ⟨_, World.core_of_session hrow', of_decide_eq_true hdone'⟩
  obtain ⟨hfree, ⟨reference, hlatest, hreview, -, -⟩, -⟩ := (completed_result_iff hreachable.inv
    hreachable.finalizeBodies hrow hstate (hothers 3)).mp hcompletes
  refine ⟨row, reference, hreachable, hrow, hstate, hlatest, hreview, hretries, hfree, ?_⟩
  rintro ⟨row', hrow', hdone, -⟩
  rw [rollsBack, hrow', Option.any_some, Bool.and_eq_true, decide_eq_true_eq, hdone] at hrollsBack
  exact absurd hrollsBack.1 nofun

end Scenario
end StoryReview
