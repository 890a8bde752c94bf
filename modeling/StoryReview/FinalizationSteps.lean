import StoryReview.Drafts

/-!
# The durable steps of flow 3

Flow 3 saves one finalized review under the request's key, renders one report
for each requested format, and stamps both on the finalizing turn.
-/
namespace StoryReview
open Program RecordsStore

/-! ## Parts of an attempt -/

section Safe
variable {a : Attempt} {w₀ w : World} {α β : Type}

/-- A part of the attempt's run: all it does is durable steps of the attempt. -/
abbrev Safe (a : Attempt) (w₀ : World) (Q : α → World → Prop) (p : Orchestration α)
    (w : World) : Prop :=
  p.wp a.Admits (Evolves a w₀ w₀) Q (fun _ => Evolves a w₀ w₀) w

variable {p : Orchestration α} {g : α → Orchestration β} {Q : β → World → Prop}
variable {R : α → World → Prop}

theorem Evolves.quiet (hw : Evolves a w₀ w₀ w) {w' : World} (hq : Quiet w w') :
    Evolves a w₀ w₀ w' := hw.tail (.quiet hq)

theorem Safe.mono (h : Safe a w₀ R p w) {R' : α → World → Prop}
    (hR : ∀ b t, R b t → R' b t) : Safe a w₀ R' p w :=
  wp_mono h (fun _ h => h) hR fun _ _ h => h

theorem Safe.bind (hp : Safe a w₀ R p w) (hg : ∀ b t, R b t → Safe a w₀ Q (g b) t) :
    Safe a w₀ Q (p.bind g) w :=
  (wp_bind p g).mpr (wp_mono hp (fun _ h => h) hg fun _ _ h => h)

theorem Safe.of_quiet {R' : α → World → Prop} (hw : Evolves a w₀ w₀ w)
    (hp : p.Moves a.Admits Quiet) (hy : p.Yields a.Admits R w)
    (hR : ∀ b t, Evolves a w₀ w₀ t → Quiet w t → R b t → R' b t) : Safe a w₀ R' p w :=
  hp.wp_of_yields (Quiet.refl w) hy (fun _ hq => hw.quiet hq)
    (fun b t hq hb => hR b t (hw.quiet hq) hq hb) fun _ _ hq => hw.quiet hq

/-- A call that changes nothing durable. -/
theorem Safe.bind_quiet (hw : Evolves a w₀ w₀ w) (hp : p.Moves a.Admits Quiet)
    (hy : p.Yields a.Admits R w)
    (hg : ∀ b t, Evolves a w₀ w₀ t → Quiet w t → R b t → Safe a w₀ Q (g b) t) :
    Safe a w₀ Q (p.bind g) w :=
  Safe.bind (R := fun b t => Evolves a w₀ w₀ t ∧ Quiet w t ∧ R b t)
    (Safe.of_quiet hw hp hy fun _ _ ht hq hb => ⟨ht, hq, hb⟩)
    fun b t h => hg b t h.1 h.2.1 h.2.2

theorem Safe.bind_ofExcept {r : Except PyException α} (hw : Evolves a w₀ w₀ w)
    (hg : ∀ b, r = .ok b → Safe a w₀ Q (g b) w) :
    Safe a w₀ Q ((ofExcept r).bind g) w := by
  refine (wp_bind _ _).mpr ((wp_ofExcept r).mpr ⟨hg, fun _ _ => hw⟩)

theorem safe_statement {f : World → α × World} (hw : Evolves a w₀ w₀ w)
    (h : ∀ v, Evolves a w₀ w₀ v → Quiet w v →
      Evolves a w₀ w₀ (f v).2 ∧ R (f v).1 (f v).2) : Safe a w₀ R (statement f) w :=
  fun c _ => h _ (hw.quiet (quiet_tick w c)) (quiet_tick w c)

theorem safe_execute {f : World → World} {R : Unit → World → Prop}
    (hw : Evolves a w₀ w₀ w) (h : ∀ v, Evolves a w₀ w₀ v → Quiet w v →
      Evolves a w₀ w₀ (f v) ∧ R () (f v)) : Safe a w₀ R (execute f) w :=
  safe_statement hw h

end Safe

/-! ## Session updates -/

theorem Attempt.HoldsClaim.congr {a : Attempt} {w v : World} (h : a.HoldsClaim w)
    (hclaims : v.claims = w.claims) : a.HoldsClaim v := by
  rw [Attempt.HoldsClaim, hclaims]
  exact h

theorem CountsTurn.congr {a : Attempt} {w₀ w v : World} {s : SessionRecord} {n : ℕ}
    (h : CountsTurn a w₀ w s n) (hturns : v.turns = w.turns) : CountsTurn a w₀ v s n :=
  ⟨h.message, h.before, hturns ▸ h.stored, h.le⟩

theorem Marks.congr {a : Attempt} {w₀ w v : World} {s : SessionRecord} {u : SessionUpdate}
    (h : Marks a w₀ w s u) (hturns : v.turns = w.turns) : Marks a w₀ v s u := by
  cases h with
  | count hstate hcount hgate => exact .count hstate (hcount.congr hturns) hgate
  | finalizing hstate hlast houtcome => exact .finalizing hstate (hturns ▸ hlast) houtcome
  | rollBack hstate hunstamped hfinalizes =>
      refine .rollBack hstate (fun h₀ => ?_) hfinalizes
      have hkept := hunstamped h₀
      rwa [World.Unstamped, World.history, ← hturns] at hkept

theorem safe_updateSession {a : Attempt} {w₀ w : World} {s : SessionRecord}
    {u : SessionUpdate} (hw : Evolves a w₀ w₀ w) (hs : w.core a.sessionId = some s)
    (hmark : Marks a w₀ w s u) : Safe a w₀ (fun _ t => Evolves a w₀ w₀ t ∧
      t.core a.sessionId = some (u.apply 0 s) ∧ t.turns = w.turns ∧ t.claims = w.claims)
      (updateSession a.sessionId u) w := by
  refine safe_execute hw fun v hv hq => ?_
  have hcore : v.core a.sessionId = some s := (hq.core _).trans hs
  have hnext := hv.tail (.mark hcore (hmark.congr hq.turns))
  refine ⟨hnext, hnext, ?_, ?_, ?_⟩
  · rw [World.core_sessionUpdated, if_pos rfl, hcore]
    rfl
  · rw [World.turns_sessionUpdated, hq.turns]
  · rw [World.claims_sessionUpdated, hq.claims]

/-! ## The saved review and the reports -/

/-- One served attempt to save the review. -/
def SavesFinal (review : FinalizedReview) (key : IdempotencyKey) (run : RunId)
    (w w' : World) : Prop :=
  ∃ request : SaveArtifactInput, request.type = .finalizedReview ∧
    request.content = .finalizedReview review ∧ request.idempotencyKey = key ∧
    request.storyRunId = run ∧ SavesAs request w w'

/-- One served attempt to render a report of the run. -/
def RendersIn (run : RunId) (w w' : World) : Prop :=
  ∃ request : RenderReportInput, request.storyRunId = run ∧ RendersAs request w w'

theorem framed_savesAs {request : SaveArtifactInput} {w w' : World}
    (h : SavesAs request w w') : Framed w w' := by
  obtain ⟨o', hsaves, rfl⟩ := h
  exact Framed.of_served (RunObjects.grows_of_saves hsaves)

theorem framed_savesFinal {review : FinalizedReview} {key : IdempotencyKey} {run : RunId}
    {w w' : World} (h : Doing (SavesFinal review key run) w w') : Framed w w' :=
  Framed.of_doing (fun _ _ ⟨_, _, _, _, _, hsaves⟩ => framed_savesAs hsaves) h

theorem framed_rendersIn {run : RunId} {w w' : World}
    (h : Doing (RendersIn run) w w') : Framed w w' := by
  refine Framed.of_doing (fun v u hvu => ?_) h
  obtain ⟨_, _, o', hrenders, rfl⟩ := hvu
  exact Framed.of_served (RunObjects.grows_of_renders hrenders)

section Steps
variable {a : Attempt} {w₀ w w' : World} {s : SessionRecord}

theorem evolves_savesFinal {review : FinalizedReview} (hw : Evolves a w₀ w₀ w)
    (hs : w.core a.sessionId = some s) (hstate : s.state = .finalizing)
    (hfinalizes : Finalizes a w₀) (hat : review.finalizedAt ≤ w.clock)
    (h : Doing (SavesFinal review a.key s.storyRunId) w w') : Evolves a w₀ w₀ w' := by
  induction h with
  | refl => exact hw
  | tail hdone hstep ih =>
      have hframe := framed_savesFinal hdone
      refine ih.tail ?_
      rcases hstep with hq | ⟨request, htype, hcontent, hkey, hrun, o', hsaves, rfl⟩
      · exact .quiet hq
      · rw [hrun] at hsaves ⊢
        exact .finalReview (hframe.core ▸ hs) hstate hfinalizes htype hcontent
          (hat.trans hframe.clock) hkey hrun hsaves

theorem evolves_rendersIn (hw : Evolves a w₀ w₀ w) (hs : w.core a.sessionId = some s)
    (hstate : s.state = .finalizing) (h : Doing (RendersIn s.storyRunId) w w') :
    Evolves a w₀ w₀ w' := by
  induction h with
  | refl => exact hw
  | tail hdone hstep ih =>
      refine ih.tail ?_
      rcases hstep with hq | ⟨request, hrun, o', hrenders, rfl⟩
      · exact .quiet hq
      · rw [hrun] at hrenders ⊢
        exact .report ((framed_rendersIn hdone).core ▸ hs) hstate hrun hrenders

end Steps

section Calls
variable {A : Choice → Prop} {w : World}

theorem moves_saveFinalReview (session : SessionRecord) (review : FinalizedReview)
    (key : IdempotencyKey) (correlationId : Uuid) :
    (Finalization.saveFinalReview session review key correlationId).Moves A
      (Doing (SavesFinal review key session.storyRunId)) := by
  refine moves_tryCatch (moves_saveArtifact fun request ht hrun hcontent hkey w w' hsaves =>
    ⟨request, ht, hcontent, hkey, hrun, hsaves⟩) fun e => ?_
  split <;> exact moves_raise _

theorem yields_saveFinalReview (session : SessionRecord) (review : FinalizedReview)
    (key : IdempotencyKey) (correlationId : Uuid) :
    (Finalization.saveFinalReview session review key correlationId).Yields A (fun b t =>
      ∃ r, (t.objects session.storyRunId).recordUnder .finalizedReview key = some r ∧
        r.reference = b) w := by
  refine Yields.tryCatch ((yields_saveArtifact _ _ _ _ _).mono ?_) fun e t => ?_
  · rintro b t ⟨r, hr, href, -⟩
    exact ⟨r, hr, href⟩
  · split <;> exact yields_raise _

theorem moves_renderOne (session : SessionRecord) (reference : ArtifactReference)
    (correlationId : Uuid) (format : Format) :
    (Finalization.renderOne session reference correlationId format).Moves A
      (Doing (RendersIn session.storyRunId)) := by
  unfold Finalization.renderOne Finalization.renderReportInput
  split_ifs with h <;> simp only [bind_eq, ofExcept_ok, ofExcept_error, ret_bind, raise_bind]
  · refine moves_bind (moves_tryCatch ((moves_callRender _ _).mono fun _ _ =>
      Doing.mono fun _ _ hrenders => ⟨_, rfl, hrenders⟩) fun e => ?_) fun _ => moves_ret _
    split <;> exact moves_raise _
  · exact moves_raise _

theorem yields_renderOne (h : Inv w) (session : SessionRecord)
    (reference : ArtifactReference) (correlationId : Uuid) (format : Format) :
    (Finalization.renderOne session reference correlationId format).Yields A (fun b t =>
      ReportOf reference.artifactId (t.objects session.storyRunId) format b) w := by
  unfold Finalization.renderOne Finalization.renderReportInput
  split_ifs with hinput <;>
    simp only [bind_eq, ofExcept_ok, ofExcept_error, ret_bind, raise_bind]
  · refine Yields.bind (Yields.tryCatch (yields_callRender h _ _) fun e t => ?_) ?_
    · split <;> exact yields_raise _
    · rintro output t ⟨c, hc, hpin, hmeta, htype⟩
      exact ⟨htype, c, hc, hpin, hmeta⟩
  · exact yields_raise _

end Calls

/-! ## Flow 3 -/

theorem Finalization.finalizedAt_of_buildFinalReview {session : SessionRecord}
    {reference : ArtifactReference} {reports : List SynthesisReport}
    {turns : List TurnRecord} {finalizedAt : Time} {correlationId : Uuid}
    {review : FinalizedReview}
    (h : buildFinalReview session reference reports turns finalizedAt correlationId =
      .ok review) : review.finalizedAt = finalizedAt := by
  unfold buildFinalReview at h
  split at h
  · cases h
  · split at h
    · cases h
    · dsimp only at h
      split at h
      · cases h
      · cases h
        rfl

section Flow3
variable {a : Attempt} {w₀ w : World} {s : SessionRecord} {session : SessionRecord}

/-- The guarded part of flow 3, in a session marked finalizing. -/
theorem safe_produceReports (h₀ : Inv w₀) (hw : Evolves a w₀ w₀ w)
    (hs : w.core a.sessionId = some s) (hstate : s.state = .finalizing)
    (hfinalizes : Finalizes a w₀) (hrun : session.storyRunId = s.storyRunId)
    (hformats : session.requestedFormats = s.requestedFormats) (turns : List TurnRecord)
    (correlationId : Uuid) (reference : ArtifactReference) :
    Safe a w₀ (fun result t => Evolves a w₀ w₀ t ∧ Framed w t ∧ Produced t a.key s result)
      (Finalization.produceReports session turns a.key correlationId reference) w := by
  refine Safe.bind_quiet hw (moves_traverse (fun r =>
    quiet_finalizationSynthesisReport r correlationId) _) (yields_any _ _)
    fun reports t₁ ht₁ hq₁ _ => ?_
  refine Safe.bind_quiet (R := fun b t => b = t.clock) ht₁ quiet_now
    (yields_query fun c => rfl) fun finalizedAt t₂ ht₂ hq₂ hat => ?_
  refine Safe.bind_ofExcept ht₂ fun review hreview => ?_
  have hat' : review.finalizedAt ≤ t₂.clock :=
    (Finalization.finalizedAt_of_buildFinalReview hreview).trans hat |>.le
  have hs₂ : t₂.core a.sessionId = some s := ((hq₁.trans hq₂).core _).trans hs
  have hmoves := moves_saveFinalReview (A := a.Admits) session review a.key correlationId
  rw [hrun] at hmoves
  refine Safe.bind (R := fun b t => Evolves a w₀ w₀ t ∧ Framed t₂ t ∧
    ∃ r, (t.objects s.storyRunId).recordUnder .finalizedReview a.key = some r ∧
      r.reference = b) (hmoves.wp_of_yields .refl (hrun ▸ yields_saveFinalReview _ _ _ _)
    (fun t h => evolves_savesFinal ht₂ hs₂ hstate hfinalizes hat' h)
    (fun b t h hb => ⟨evolves_savesFinal ht₂ hs₂ hstate hfinalizes hat' h,
      framed_savesFinal h, hb⟩)
    fun _ t h => evolves_savesFinal ht₂ hs₂ hstate hfinalizes hat' h) ?_
  rintro finalReference t₃ ⟨ht₃, hframe₃, record, hrecord, href⟩
  have hs₃ : t₃.core a.sessionId = some s := hframe₃.core ▸ hs₂
  have hrenders := fun format => moves_renderOne (A := a.Admits) session finalReference
    correlationId format
  rw [hrun] at hrenders
  have htraverse := wp_traverse (A := a.Admits)
    (P := fun t => Evolves a w₀ w₀ t ∧ Doing (RendersIn s.storyRunId) t₃ t)
    (T := fun t => ReportOf finalReference.artifactId (t.objects s.storyRunId))
    (E := fun _ => Evolves a w₀ w₀)
    (f := Finalization.renderOne session finalReference correlationId)
    (fun format (_ : format ∈ session.requestedFormats) t ht => by
      have hyields := yields_renderOne (A := a.Admits) (h₀.evolves ht.1) session
        finalReference correlationId format
      rw [hrun] at hyields
      refine (hrenders format).wp_of_yields .refl hyields
        (fun u hu => ⟨evolves_rendersIn ht₃ hs₃ hstate (ht.2.trans hu), ht.2.trans hu⟩)
        (fun b u hu hb => ⟨⟨evolves_rendersIn ht₃ hs₃ hstate (ht.2.trans hu),
          ht.2.trans hu⟩, hb, fun _ _ h => h.mono ((framed_rendersIn hu).grows _)⟩)
        fun _ u hu => evolves_rendersIn ht₃ hs₃ hstate (ht.2.trans hu)) ⟨ht₃, .refl⟩
  refine Safe.bind (wp_mono htraverse (fun _ h => h.1) (fun _ _ h => h) fun _ _ h => h) ?_
  rintro references t₄ ⟨⟨ht₄, hdoing⟩, hreports, -⟩
  have hframe₄ := framed_rendersIn hdoing
  refine ⟨ht₄, ((Framed.of_quiet (hq₁.trans hq₂)).trans hframe₃).trans hframe₄, ?_, ?_⟩
  · exact ⟨record, (hframe₄.grows _).recordUnder hrecord, href⟩
  · exact hformats ▸ hreports

instance : IsTrans World Framed := ⟨fun _ _ _ => Framed.trans⟩

theorem moves_produceReports {A : Choice → Prop} (session : SessionRecord)
    (turns : List TurnRecord) (key : IdempotencyKey) (correlationId : Uuid)
    (reference : ArtifactReference) :
    (Finalization.produceReports session turns key correlationId reference).Moves A
      Framed := by
  refine moves_bind (moves_traverse (fun r => (quiet_finalizationSynthesisReport r _).mono
    fun _ _ => Framed.of_quiet) _) fun reports => ?_
  refine moves_bind (quiet_now.mono fun _ _ => Framed.of_quiet) fun finalizedAt => ?_
  refine moves_bind (moves_ofExcept _) fun review => ?_
  refine moves_bind ((moves_saveFinalReview _ _ _ _).mono fun _ _ => framed_savesFinal)
    fun finalReference => ?_
  exact moves_bind (moves_traverse (fun f => (moves_renderOne _ _ _ f).mono
    fun _ _ => framed_rendersIn) _) fun _ => moves_ret _

/-- The stamped turn is the last finalize turn. -/
theorem find_stampTurn {rows : List TurnRow} {n : ℕ} {references : List ArtifactReference}
    (h : finalizingTurnNumber rows = some n) :
    ∃ row, (rows.map (stampTurn n references)).reverse.find? (fun row =>
        decide (row.record.outcome = .finalize)) = some row ∧
      row.record.producedArtifacts = references := by
  obtain ⟨row, hfind, hnumber⟩ := Option.map_eq_some_iff.mp h
  have houtcome : ((fun row : TurnRow => decide (row.record.outcome = .finalize)) ∘
      stampTurn n references) = fun row => decide (row.record.outcome = .finalize) := by
    funext row
    simp only [Function.comp_apply, stampTurn]
    split_ifs <;> rfl
  refine ⟨stampTurn n references row, ?_, ?_⟩
  · rw [← List.map_reverse, List.find?_map, houtcome, hfind]
    rfl
  · rw [stampTurn, if_pos hnumber]

/-- What flow 3 leaves behind when it returns. -/
structure Flow3Done (a : Attempt) (w₀ w : World) (s : SessionRecord)
    (result : Finalization.FinalizationResult) (t : World) : Prop where
  evolves : Evolves a w₀ w₀ t
  core : t.core a.sessionId = some { s with state := .finalizing }
  claims : t.claims = w.claims
  turns : ∃ n, t.turns a.sessionId = (w.turns a.sessionId).map
    (stampTurn n (result.finalReviewReference :: result.reportReferences))
  finalized : t.FinalizedWith a.sessionId
    (result.finalReviewReference :: result.reportReferences)
  produced : Produced t a.key { s with state := .finalizing } result

theorem SessionUpdate.apply_state (s : SessionRecord) (state : SessionState)
    (h : s.updatedAt = 0) :
    (SessionUpdate.apply { state := some state } 0 s) = { s with state := state } := by
  obtain ⟨⟩ := s
  cases h
  rfl

theorem World.updatedAt_of_core {w : World} {id : SessionId} {s : SessionRecord}
    (h : w.core id = some s) : s.updatedAt = 0 := by
  obtain ⟨row, -, rfl⟩ := List.mem_map.mp (mem_cores_of_core h)
  rfl

theorem Produced.congr {w w' : World} {key : IdempotencyKey}
    {result : Finalization.FinalizationResult} (h : Produced w key s result)
    (hobjects : w'.objects = w.objects) : Produced w' key s result :=
  ⟨hobjects ▸ h.finalReview, hobjects ▸ h.reports⟩

/-- The references of a finished flow 3 fit on a turn and are no syntheses. -/
theorem Produced.references {w : World} (h : Inv w) {key : IdempotencyKey}
    {result : Finalization.FinalizationResult} (hvalid : s.Valid)
    (hproduced : Produced w key s result) :
    (result.finalReviewReference :: result.reportReferences).length ≤ 3 ∧
      ∀ r ∈ result.finalReviewReference :: result.reportReferences,
        r.type = .finalizedReview ∨ ∃ f, r.type = .report f := by
  obtain ⟨record, hrecord, href⟩ := hproduced.finalReview
  have hlength : result.reportReferences.length ≤ 2 := by
    rw [← hproduced.reports.length_eq]
    exact Commit.length_le_of_formats hvalid.2.1
  refine ⟨Nat.succ_le_succ hlength, fun r hr => ?_⟩
  rcases List.mem_cons.mp hr with rfl | hr
  · exact .inl (href ▸ (h.objects _).type_of_recordUnder hrecord)
  · have hall := hproduced.reports
    generalize s.requestedFormats = formats, result.reportReferences = references at hall hr
    induction hall with
    | nil => cases hr
    | cons hf _ ih =>
        rcases List.mem_cons.mp hr with rfl | hr
        · exact .inr ⟨_, hf.1⟩
        · exact ih hr

theorem safe_runFlow3 (h₀ : Inv w₀) (hw : Evolves a w₀ w₀ w)
    (hs : w.core a.sessionId = some s) (hstate : s.state = .active ∨ s.state = .finalizing)
    {row : TurnRow} (hlast : (w.turns a.sessionId).getLast? = some row)
    (houtcome : row.record.outcome = .finalize) (hfinalizes : Finalizes a w₀)
    (hid : session.sessionId = a.sessionId) (hrun : session.storyRunId = s.storyRunId)
    (hformats : session.requestedFormats = s.requestedFormats)
    (hunstamped : w₀.Unstamped a.sessionId → w.Unstamped a.sessionId)
    (turns : List TurnRecord) (correlationId : Uuid) (reference : ArtifactReference) :
    Safe a w₀ (Flow3Done a w₀ w s)
      (Finalization.runFlow3 session turns a.key correlationId reference) w := by
  have hsid := World.sessionId_of_core hs
  have hzero := World.updatedAt_of_core hs
  unfold Finalization.runFlow3
  rw [hid]
  refine Safe.bind (safe_updateSession hw hs (.finalizing hstate (hsid ▸ hlast) houtcome)) ?_
  rintro - t₁ ⟨ht₁, hs₁, hturns₁, hclaims₁⟩
  rw [SessionUpdate.apply_state s .finalizing hzero] at hs₁
  refine Safe.bind (R := fun result t => Evolves a w₀ w₀ t ∧ Framed t₁ t ∧
    Produced t a.key { s with state := .finalizing } result) ?_ ?_
  · refine (wp_tryCatch _ _).mpr (wp_mono ((moves_produceReports _ _ _ _ _).wp_frame
      (Framed.of_quiet (Quiet.refl t₁)) (safe_produceReports h₀ ht₁ hs₁ rfl hfinalizes hrun
        hformats turns correlationId reference)) (fun _ h => h.1) (fun _ _ h => h.1) ?_)
    -- a failure that is not retryable rolls the session back
    rintro e t ⟨ht, hframe⟩
    split
    · have hback : w₀.Unstamped s.sessionId → t.Unstamped s.sessionId := by
        have hturns : t.history = w.history := by
          funext id
          rw [World.history, hframe.turns, hturns₁]
          rfl
        simp only [World.Unstamped, hturns]
        exact hsid ▸ hunstamped
      exact Safe.bind (safe_updateSession (s := { s with state := .finalizing }) ht
        (hframe.core ▸ hs₁) (.rollBack rfl hback hfinalizes)) fun _ _ h => h.1
    · exact ht
  rintro result t₂ ⟨ht₂, hframe₂, hproduced⟩
  have hs₂ := hframe₂.core ▸ hs₁
  have hreferences := hproduced.references (h₀.evolves ht₂)
    ((h₀.evolves ht₂).valid _ _ hs₂)
  have hturns₂ : t₂.turns = w.turns := hframe₂.turns.trans hturns₁
  have hclaims₂ : t₂.claims = w.claims := hframe₂.claims.trans hclaims₁
  refine Safe.bind (R := fun _ => Flow3Done a w₀ w s result) ?_ fun _ _ h => h
  refine Safe.bind_quiet (R := fun b _ => b = finalizingTurnNumber (t₂.turns a.sessionId)) ht₂
    (quiet_query _) (yields_query fun c => rfl) ?_
  rintro turnNumber t₃ ht₃ hq₃ rfl
  have hs₃ := ((hq₃.core _).trans hs₂)
  cases hnumber : finalizingTurnNumber (t₂.turns a.sessionId) with
  | none =>
      have hnone : row ∉ w.turns a.sessionId := by
        simp only [finalizingTurnNumber, Option.map_eq_none_iff, List.find?_eq_none,
          List.mem_reverse, decide_eq_true_eq, hturns₂] at hnumber
        exact fun hmem => hnumber row hmem houtcome
      exact absurd (List.mem_of_getLast? hlast) hnone
  | some n =>
      refine safe_execute ht₃ fun v hv hq => ?_
      have hsv := (hq.core _).trans hs₃
      have htypes : ∀ r ∈ result.finalReviewReference :: result.reportReferences,
          r.type ≠ .synthesis := by
        intro r hr
        rcases hreferences.2 r hr with htype | ⟨f, htype⟩
        · exact htype ▸ by decide
        · rw [htype]
          cases f <;> decide
      obtain ⟨record, hrecord, href⟩ := hproduced.finalReview
      have hfinal : result.finalReviewReference.type = .finalizedReview :=
        href ▸ ((h₀.evolves ht₂).objects _).type_of_recordUnder hrecord
      have hstamp : Commit a w₀ v _ := .stamp n hsv rfl
        ⟨hreferences.1, htypes, _, List.mem_cons_self, hfinal⟩
      rw [show ({ s with state := SessionState.finalizing } : SessionRecord).sessionId =
        a.sessionId from hsid] at hstamp
      have hnext := hv.tail hstamp
      have hturnsv : v.turns = w.turns := (hq₃.trans hq).turns.trans hturns₂
      refine ⟨hnext, hnext, hsv, (hq₃.trans hq).claims.trans hclaims₂, ⟨n, ?_⟩, ?_,
        hproduced.congr (hq₃.trans hq).objects⟩
      · rw [World.turns_setTurns, if_pos rfl, hturnsv]
      · rw [World.FinalizedWith, World.turns_setTurns, if_pos rfl, (hq₃.trans hq).turns]
        exact find_stampTurn hnumber

end Flow3

end StoryReview
