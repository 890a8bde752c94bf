import StoryReview.Invariants

/-!
# What the calls of a request establish

For every call below the flows: which durable steps it takes, and what its
answer tells about the world.
-/
namespace StoryReview
open Program

/-! ## Statements and store calls -/

section Statements
variable {A : Choice → Prop} {α : Type} {w : World}

theorem yields_statement {R : α → World → Prop} {f : World → α × World}
    (h : ∀ c, R (f (w.tick c)).1 (f (w.tick c)).2) : (statement f).Yields A R w :=
  fun c _ => ⟨trivial, h c⟩

theorem yields_query {R : α → World → Prop} {f : World → α}
    (h : ∀ c, R (f (w.tick c)) (w.tick c)) : (query f).Yields A R w :=
  yields_statement h

theorem yields_pureCall {R : α → World → Prop} {answer : Choice → α}
    {exception : CallFailure → PyException} (h : ∀ c, A c → R (answer c) (w.tick c)) :
    (pureCall answer exception).Yields A R w := by
  refine (wp_atomicExcept _).mpr fun c hc => ⟨trivial, ?_, fun _ _ => trivial⟩
  cases hf : c.failure with
  | some failure => nofun
  | none =>
      rintro b hb
      cases hb
      exact h c hc

variable {run : RunId} {tool : ArtifactId → Time → StoreProgram α}
variable {errorFor : StoreException → ErrorBody}

/-- The world in which the last attempt of a call is made. -/
def World.afterLost (w : World) (run : RunId) (tool : ArtifactId → Time → StoreProgram α)
    (c : Choice) : World :=
  c.lost.foldl (fun w n => w.attempt run tool n) (w.tick c)

theorem wp_storeCall {I : World → Prop} {Q : α → World → Prop}
    {E : PyException → World → Prop}
    (hfail : ∀ c failure, A c → c.failure = some failure →
      I (w.afterLost run tool c) ∧ E failure.mcpException (w.afterLost run tool c))
    (hrun : ∀ c, A c → c.failure = none → ∀ w', w' = w.afterLost run tool c →
      (tool ⟨w'.fresh⟩ w'.clock).wp silent (fun _ => True)
        (fun answer o => I (w'.served run o) ∧ Q answer (w'.served run o))
        (fun e o => I (w'.served run o) ∧ E (.mcpCallFailure (errorFor e)) (w'.served run o))
        (w'.objects run)) :
    (storeCall run tool errorFor).wp A I Q E w := by
  refine (wp_atomicExcept _).mpr fun c hc => ?_
  cases hf : c.failure with
  | some failure =>
      obtain ⟨hI, hE⟩ := hfail c failure hc hf
      refine ⟨hI, fun b hb => ?_, fun e he => ?_⟩
      · cases hb
      · cases he
        exact hE
  | none =>
      have hwp := wp_run (hrun c hc hf _ rfl) silent_answers
      revert hwp
      unfold World.afterLost World.served
      dsimp only
      generalize (tool _ _).run _ _ = outcome
      obtain ⟨e | answer, o⟩ := outcome
      · rintro ⟨hI, hE⟩
        refine ⟨hI, fun b hb => ?_, fun e' he' => ?_⟩
        · cases hb
        · cases he'
          exact hE
      · rintro ⟨hI, hQ⟩
        refine ⟨hI, fun b hb => ?_, fun e he => ?_⟩
        · cases hb
          exact hQ
        · cases he

theorem moves_afterLost {F : World → World → Prop} [IsTrans World F]
    (hquiet : ∀ w w', Quiet w w' → F w w') (hattempt : ∀ w n, F w (w.attempt run tool n))
    (c : Choice) : F w (w.afterLost run tool c) :=
  IsTrans.trans _ _ _ (hquiet _ _ (quiet_tick w c))
    (foldl_attempt (fun w => hquiet w w (Quiet.refl w)) (fun _ _ _ => IsTrans.trans _ _ _)
      hattempt _ _)

/-- The answer of a store call is the answer of its last attempt. -/
theorem yields_storeCall {F : World → World → Prop} {R : α → World → Prop} [IsTrans World F]
    (hquiet : ∀ w w', Quiet w w' → F w w') (hattempt : ∀ w n, F w (w.attempt run tool n))
    (hR : ∀ w', F w w' → (tool ⟨w'.fresh⟩ w'.clock).wp silent (fun _ => True)
      (fun answer o => R answer (w'.served run o)) (fun _ _ => True) (w'.objects run)) :
    (storeCall run tool errorFor).Yields A R w := by
  refine wp_storeCall (fun _ _ _ _ => ⟨trivial, trivial⟩) fun c _ _ w' hw' => ?_
  have hF : F w w' := hw' ▸ moves_afterLost hquiet hattempt c
  exact wp_mono (hR w' hF) (fun _ h => h) (fun _ _ h => ⟨trivial, h⟩)
    fun _ _ _ => ⟨trivial, trivial⟩

/-- A reading tool answers from the objects as they were. -/
theorem yields_storeRead {R : α → World → Prop}
    (hread : ∀ id now o, (tool id now).wp silent (· = o) (fun _ => (· = o))
      (fun _ => (· = o)) o)
    (hR : ∀ w', Quiet w w' → (tool ⟨w'.fresh⟩ w'.clock).wp silent (fun _ => True)
      (fun answer _ => ∀ w'', R answer w'') (fun _ _ => True) (w.objects run)) :
    (storeCall run tool errorFor).Yields A R w := by
  refine yields_storeCall (F := Quiet) (fun _ _ h => h) (fun w n => ?_) fun w' hw' => ?_
  · have hsame := wp_crash (hread ⟨w.fresh⟩ w.clock (w.objects run)) rfl
      silent_answers n
    exact { Quiet.refl w with
      fresh := Nat.le_succ _
      objects := by simp [World.attempt, World.setObjects, hsame] }
  · rw [hw'.objects]
    exact wp_mono (hR w' hw') (fun _ h => h) (fun _ _ h => h _) fun _ _ h => h

end Statements

/-! ## Reads -/

section Reads
variable {A : Choice → Prop} {w : World}

theorem yields_getSession (sessionId : SessionId) (userId : UserId) :
    (RecordsStore.getSession sessionId userId).Yields A
      (fun b _ => ∀ s, b = some s →
        w.core sessionId = some s.core ∧ s.userId = userId ∧ s.Valid) w := by
  refine Yields.bind (S := fun row _ => ∀ r, row = some r →
    w.core sessionId = some r.record.core ∧ r.record.userId = userId) ?_ ?_
  · refine yields_query fun c r hr => ?_
    obtain ⟨hr, huser⟩ := Option.filter_eq_some_iff.mp hr
    rw [decide_eq_true_eq] at huser
    exact ⟨World.core_of_session (w := w) hr, huser⟩
  · intro row t hrow
    cases row with
    | none =>
        intro s hs
        cases hs
    | some row =>
        refine Yields.bind (S := fun record _ => row.record = record ∧ record.Valid)
          (yields_ofExcept fun record hrecord => ?_) ?_
        · unfold RecordsStore.sessionFromRow at hrecord
          split_ifs at hrecord with hvalid
          cases hrecord
          exact ⟨rfl, hvalid⟩
        · rintro record t ⟨rfl, hvalid⟩ s hs
          cases hs
          exact ⟨(hrow row rfl).1, (hrow row rfl).2, hvalid⟩

theorem yields_listTurns (sessionId : SessionId) :
    (RecordsStore.listTurns sessionId).Yields A (fun b _ => b = w.history sessionId) w := by
  refine Yields.bind (S := fun rows _ => rows = w.turns sessionId)
    (yields_query fun c => rfl) ?_
  rintro rows t rfl
  split_ifs
  · exact rfl
  · exact yields_raise _

theorem yields_getTurn (sessionId : SessionId) (turnNumber : ℕ) :
    (RecordsStore.getTurn sessionId turnNumber).Yields A
      (fun b _ => ∀ t, b = some t →
        t ∈ w.history sessionId ∧ t.turnNumber = turnNumber) w := by
  refine Yields.bind (S := fun row _ => ∀ r, row = some r → r ∈ w.turns sessionId ∧
    r.record.turnNumber = turnNumber) (yields_query fun c r hr => ?_) ?_
  · have hnumber := List.find?_some hr
    rw [decide_eq_true_eq] at hnumber
    exact ⟨List.mem_of_find?_eq_some hr, hnumber⟩
  · intro row t hrow
    cases row with
    | none =>
        intro t ht
        cases ht
    | some row =>
        refine Yields.bind (S := fun record _ => row.record = record)
          (yields_ofExcept fun record hrecord => ?_) ?_
        · unfold RecordsStore.turnRecord at hrecord
          split_ifs at hrecord
          cases hrecord
          rfl
        · rintro record t rfl t' ht'
          cases ht'
          exact ⟨List.mem_map_of_mem (hrow row rfl).1, (hrow row rfl).2⟩

theorem yields_listRunArtifacts (run : RunId) (correlationId : Uuid) :
    (Lineage.listRunArtifacts run correlationId).Yields A
      (fun b _ => b = (w.objects run).listing 500 0) w :=
  Yields.tryCatch (yields_storeRead (fun _ _ _ => wp_list rfl rfl)
    fun _ _ => wp_list trivial fun _ => rfl) fun _ _ => yields_raise _

theorem yields_artifactContent (reference : ArtifactReference) (correlationId : Uuid) :
    (Lineage.artifactContent reference correlationId).Yields A
      (fun b _ => ∃ r, (w.objects reference.storyRunId).record reference.artifactId = some r ∧
        r.content = b) w := by
  refine Yields.bind (S := fun record _ =>
    (w.objects reference.storyRunId).record reference.artifactId = some record) ?_
    fun record t hrecord => ⟨record, hrecord, rfl⟩
  exact Yields.tryCatch (yields_storeRead
    (fun _ _ _ => wp_get rfl (fun _ _ _ => rfl) fun _ _ => rfl)
    fun _ _ => wp_get trivial (fun r hr _ _ => hr) fun _ _ => trivial) fun _ _ => yields_raise _

theorem yields_synthesisReport (reference : ArtifactReference) (correlationId : Uuid) :
    (Lineage.synthesisReport reference correlationId).Yields A
      (fun b _ => ∃ r, (w.objects reference.storyRunId).record reference.artifactId = some r ∧
        r.content = .synthesis b) w := by
  refine Yields.bind (yields_artifactContent reference correlationId) ?_
  rintro content t ⟨r, hr, rfl⟩
  refine yields_ofExcept fun report hreport => ⟨r, hr, ?_⟩
  unfold Lineage.parseSynthesis at hreport
  split at hreport
  · next hcontent =>
      cases hreport
      exact hcontent
  · cases hreport

theorem Lineage.latest_eq_ok {references : List ArtifactReference} {type : ArtifactType}
    {perspective : Option Perspective} {correlationId : Uuid} {reference : ArtifactReference}
    (h : latest references type perspective correlationId = .ok reference) :
    maxVersion (references.filter fun r =>
      decide (r.type = type ∧ r.perspective = perspective)) = some reference := by
  unfold latest at h
  split at h
  · next hmax =>
      cases h
      exact hmax
  · cases h

/-- The facilitator's answers are the attempt's. -/
theorem yields_invokeFacilitator (a : Attempt) (request : FacilitatorInvocation)
    (correlationId : Uuid) :
    (Agents.invokeFacilitator request correlationId).Yields a.Admits
      (fun b _ => a.Answers request b) w := by
  refine Yields.bind (S := fun b _ => ∃ n, (a.choices n).facilitator request = b)
    (yields_pureCall ?_) fun output t houtput => ?_
  · rintro _ ⟨n, rfl⟩
    exact ⟨n, rfl⟩
  · split
    · next h => exact ⟨houtput, h⟩
    · exact yields_raise _

end Reads

/-! ## Saves and renders -/

/-- One served attempt of a save. -/
def SavesAs (request : SaveArtifactInput) (w w' : World) : Prop :=
  ∃ o', Saves request ⟨w.fresh⟩ w.clock (w.objects request.storyRunId) o' ∧
    w' = w.served request.storyRunId o'

def RendersAs (request : RenderReportInput) (w w' : World) : Prop :=
  ∃ o', Renders request ⟨w.fresh⟩ w.clock (w.objects request.storyRunId) o' ∧
    w' = w.served request.storyRunId o'

/-- Quiet steps and steps of `R`, in any order. -/
abbrev Doing (R : World → World → Prop) : World → World → Prop :=
  Relation.ReflTransGen fun w w' => Quiet w w' ∨ R w w'

theorem Doing.quiet {R : World → World → Prop} {w w' : World} (h : Quiet w w') :
    Doing R w w' := .single (.inl h)

theorem Doing.mono {R R' : World → World → Prop} (hR : ∀ w w', R w w' → R' w w')
    {w w' : World} (h : Doing R w w') : Doing R' w w' :=
  Relation.ReflTransGen.mono (fun _ _ h => h.imp id (hR _ _)) _ _ h

theorem moves_doing {A : Choice → Prop} {R : World → World → Prop} {α : Type}
    {p : Orchestration α} (h : p.Moves A Quiet) : p.Moves A (Doing R) :=
  h.mono fun _ _ => Doing.quiet

section Writes
variable {A : Choice → Prop} {w w' : World}

theorem savesAs_attempt (request : SaveArtifactInput) (w : World) (n : ℕ) :
    SavesAs request w (w.attempt request.storyRunId (ArtifactService.save request) n) :=
  ⟨_, wp_crash (wp_mono (wp_save request _ _ _) (fun _ h => h) (fun _ _ h => h.1)
    fun _ _ h => h.1) .refl silent_answers n, rfl⟩

theorem rendersAs_attempt (request : RenderReportInput) (w : World) (n : ℕ) :
    RendersAs request w (w.attempt request.storyRunId (ReportStore.renderReport request) n) :=
  ⟨_, wp_crash (wp_mono (wp_renderReport request _ _ _) (fun _ h => h) (fun _ _ h => h.1)
    fun _ _ h => h.1) .refl silent_answers n, rfl⟩

theorem moves_callSave (request : SaveArtifactInput) (correlationId : Uuid) :
    (Flows.callSave request correlationId).Moves A (Doing (SavesAs request)) := by
  refine moves_storeCall (G := Saves request) (fun _ _ => Doing.quiet) (fun _ _ _ => .refl)
    (fun _ _ _ => wp_mono (wp_save request _ _ _) (fun _ h => h) (fun _ _ h => h.1)
      fun _ _ h => h.1) fun w o' ho' => .single (.inr ⟨o', ho', rfl⟩)

/-- A save answers with the reference stored under its key. -/
theorem yields_callSave (request : SaveArtifactInput) (correlationId : Uuid) :
    (Flows.callSave request correlationId).Yields A
      (fun b t => ∃ r, (t.objects request.storyRunId).recordUnder request.type
        request.idempotencyKey = some r ∧ b.reference = r.reference ∧
        r.reference.checksumSha256 = canonicalChecksum request.content) w := by
  refine yields_storeCall (F := Doing (SavesAs request)) (fun _ _ => Doing.quiet)
    (fun w n => .single (.inr (savesAs_attempt request w n))) fun w' _ => ?_
  refine wp_mono (wp_save request _ _ _) (fun _ _ => trivial) ?_ fun _ _ _ => trivial
  rintro out o ⟨-, ⟨r, hr, href, hsum⟩, -⟩
  exact ⟨r, by rw [World.served_objects_self]; exact hr, href, hsum⟩

theorem moves_callRender (request : RenderReportInput) (correlationId : Uuid) :
    (Finalization.callRender request correlationId).Moves A (Doing (RendersAs request)) :=
  moves_storeCall (G := Renders request) (fun _ _ => Doing.quiet) (fun _ _ _ => .refl)
    (fun _ _ _ => wp_mono (wp_renderReport request _ _ _) (fun _ h => h) (fun _ _ h => h.1)
      fun _ _ h => h.1) fun _ o' ho' => .single (.inr ⟨o', ho', rfl⟩)

/-- A render answers with the report stored for its format, pinned to the review. -/
theorem yields_callRender (h : Inv w) (request : RenderReportInput) (correlationId : Uuid) :
    (Finalization.callRender request correlationId).Yields A
      (fun b t => ∃ c, (t.objects request.storyRunId).reportIdem request.format = some c ∧
        c.finalReviewArtifactId = request.finalReviewReference.artifactId ∧
        (t.objects request.storyRunId).reportMeta c.artifactId = some b.reference ∧
        b.reference.type = .report request.format) w := by
  refine yields_storeCall (F := Doing (RendersAs request)) (fun _ _ => Doing.quiet)
    (fun _ n => .single (.inr (rendersAs_attempt request _ n))) fun w' hw' => ?_
  have hinv : Inv w' := by
    induction hw' with
    | refl => exact h
    | tail _ hstep ih =>
        rcases hstep with hq | ⟨o', ho', rfl⟩
        · exact ih.quiet hq
        · exact ih.renders ho'
  refine wp_mono (wp_renderReport request _ _ _) (fun _ _ => trivial) ?_ fun _ _ _ => trivial
  rintro out o ⟨-, hformat, hfree⟩
  obtain ⟨c, hc, hpin, hmeta⟩ := hfree (hinv.objects _).reportIdFree
  rw [World.served_objects_self]
  exact ⟨c, hc, hpin, hmeta, hformat ▸ out.format_matches_reference⟩

theorem moves_saveArtifact {R : World → World → Prop} {type : ArtifactType} {run : RunId}
    {content : Content} {key : IdempotencyKey} {correlationId : Uuid}
    (hR : ∀ request : SaveArtifactInput, request.type = type → request.storyRunId = run →
      request.content = content → request.idempotencyKey = key →
      ∀ w w', SavesAs request w w' → R w w') :
    (Flows.saveArtifact type run content key correlationId).Moves A (Doing R) := by
  unfold Flows.saveArtifact Flows.saveArtifactInput
  split_ifs with h <;> simp only [bind_eq, ofExcept_ok, ofExcept_error, ret_bind, raise_bind]
  · refine moves_bind (moves_tryCatch ((moves_callSave _ _).mono
      fun _ _ => Doing.mono (hR _ rfl rfl rfl rfl)) fun e => ?_) fun _ => moves_ret _
    split <;> exact moves_raise _
  · exact moves_raise _

theorem yields_saveArtifact (type : ArtifactType) (run : RunId) (content : Content)
    (key : IdempotencyKey) (correlationId : Uuid) :
    (Flows.saveArtifact type run content key correlationId).Yields A
      (fun b t => ∃ r, (t.objects run).recordUnder type key = some r ∧ r.reference = b ∧
        r.reference.checksumSha256 = canonicalChecksum content) w := by
  unfold Flows.saveArtifact Flows.saveArtifactInput
  split_ifs with h <;> simp only [bind_eq, ofExcept_ok, ofExcept_error, ret_bind, raise_bind]
  · refine Yields.bind (Yields.tryCatch (yields_callSave _ _) fun e t => ?_) ?_
    · split <;> exact yields_raise _
    · rintro output t ⟨r, hr, href, hsum⟩
      exact ⟨r, hr, href.symm, hsum⟩
  · exact yields_raise _

end Writes

end StoryReview
