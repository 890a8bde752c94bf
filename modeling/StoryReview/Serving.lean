import StoryReview.Catalog
import StoryReview.Statements

/-!
# Requests without faults

How the calls of flow 3 end when none is lost and none fails. Each one is described
both ways, by what its answer says of the stores and by what its error says of them.
-/
namespace StoryReview
open Program RecordsStore

/-- Without faults the run answers in `Q` or raises in `E`. -/
abbrev Concludes {α : Type} (Q : α → World → Prop) (E : PyException → World → Prop)
    (p : Orchestration α) (w : World) : Prop :=
  p.wp Choice.FaultFree (fun _ => True) Q E w

section Rules
variable {α β : Type} {w : World} {p : Orchestration α} {g : α → Orchestration β}
variable {R : α → World → Prop} {Q : β → World → Prop} {E : PyException → World → Prop}

theorem Concludes.mono (h : Concludes R E p w) {R' : α → World → Prop}
    {E' : PyException → World → Prop} (hR : ∀ b t, R b t → R' b t)
    (hE : ∀ e t, E e t → E' e t) : Concludes R' E' p w :=
  wp_mono h (fun _ h => h) hR hE

theorem Concludes.bind (hp : Concludes R E p w) (hg : ∀ b t, R b t → Concludes Q E (g b) t) :
    Concludes Q E (p.bind g) w :=
  (wp_bind p g).mpr (wp_mono hp (fun _ h => h) hg fun _ _ h => h)

theorem Concludes.tryCatch {handler : PyException → Orchestration α}
    {F : PyException → World → Prop} (hp : Concludes R F p w)
    (hhandler : ∀ e t, F e t → Concludes R E (handler e) t) :
    Concludes R E (p.tryCatch handler) w :=
  (wp_tryCatch p handler).mpr (wp_mono hp (fun _ h => h) (fun _ _ h => h) hhandler)

theorem Concludes.framed {F : World → World → Prop} [IsTrans World F] (hp : Concludes R E p w)
    (hmoves : p.Moves Choice.FaultFree F) {w₀ : World} (hw : F w₀ w) :
    Concludes (fun b t => R b t ∧ F w₀ t) (fun e t => E e t ∧ F w₀ t) p w :=
  wp_mono (hmoves.wp_frame hw hp) (fun _ _ => trivial) (fun _ _ h => h) fun _ _ h => h

theorem Program.Takes.concludes {S : ∀ β : Type, (Choice → World → β × World) → World → Prop}
    (h : p.Takes S Choice.FaultFree R E w) : Concludes R E p w := by
  induction p generalizing w with
  | ret b => exact h
  | raise e => exact h
  | step f k ih => exact fun c hc => ⟨trivial, ih _ (h.2 c hc)⟩

theorem concludes_statement {f : World → α × World}
    (h : ∀ v, Quiet w v → R (f v).1 (f v).2) : Concludes R E (statement f) w :=
  fun c _ => ⟨trivial, h _ (quiet_tick w c)⟩

theorem concludes_execute {f : World → World} {R : Unit → World → Prop}
    (h : ∀ v, Quiet w v → R () (f v)) : Concludes R E (execute f) w :=
  concludes_statement h

/-- A store call makes one attempt, in a world whose objects are those of `w`. -/
theorem concludes_storeCall {run : RunId} {tool : ArtifactId → Time → StoreProgram α}
    {errorFor : StoreException → ErrorBody}
    (h : ∀ v, Quiet w v → (tool ⟨v.fresh⟩ v.clock).wp silent (fun _ => True)
      (fun answer o => R answer (v.served run o))
      (fun e o => E (.mcpCallFailure (errorFor e)) (v.served run o)) (v.objects run)) :
    Concludes R E (storeCall run tool errorFor) w := by
  refine wp_storeCall (fun c failure hc hfailure => ?_) fun c hc _ v hv => ?_
  · rw [hc.2] at hfailure
    cases hfailure
  · have hv : v = w.tick c := by rw [hv, World.afterLost, hc.1, List.foldl_nil]
    subst hv
    exact wp_mono (h _ (quiet_tick w c)) (fun _ h => h) (fun _ _ h => ⟨trivial, h⟩)
      fun _ _ h => ⟨trivial, h⟩

end Rules

/-! ## Reads -/

section Reads
variable {w : World} {id : SessionId} {reference : ArtifactReference}

theorem concludes_listTurns (h : Inv w) :
    Concludes (fun b t => b = w.history id ∧ Quiet w t) (fun _ _ => False) (listTurns id) w := by
  have hvalid : ∀ row ∈ w.turns id, row.record.Valid := fun row hrow =>
    (h.turns id _ (List.mem_map_of_mem hrow)).1
  refine Concludes.bind (R := fun rows t => rows = w.turns id ∧ Quiet w t)
    (concludes_statement fun v hv => ⟨congrFun hv.turns id, hv⟩) ?_
  rintro rows t ⟨rfl, hq⟩
  rw [if_pos hvalid]
  exact ⟨rfl, hq⟩

theorem concludes_listRunArtifacts (run : RunId) (correlationId : Uuid) :
    Concludes (fun b t => b = (w.objects run).listing 500 0 ∧ Quiet w t) (fun _ _ => False)
      (Lineage.listRunArtifacts run correlationId) w := by
  have hlist : Concludes (fun b _ => b = (w.objects run).listing 500 0) (fun _ _ => False)
      (Lineage.listRunArtifacts run correlationId) w := by
    refine Concludes.tryCatch (F := fun _ _ => False) (concludes_storeCall fun v hv => ?_)
      fun _ _ h => h.elim
    rw [hv.objects]
    exact wp_list trivial rfl
  exact (hlist.framed (quiet_listRunArtifacts _ _) (Quiet.refl w)).mono (fun _ _ h => h)
    fun _ _ h => h.1

/-- The latest synthesis is answered when the first page of the run has one. -/
theorem concludes_latestSynthesis (session : SessionRecord) (correlationId : Uuid) :
    Concludes (fun b t => w.latestSynthesis session.storyRunId = some b ∧ Quiet w t)
      (fun _ t => w.latestSynthesis session.storyRunId = none ∧ Quiet w t)
      (TurnsFlow.latestSynthesis session correlationId) w := by
  refine Concludes.bind ((concludes_listRunArtifacts session.storyRunId correlationId).mono
    (fun _ _ h => h) fun _ _ h => h.elim) ?_
  rintro references t ⟨rfl, hq⟩
  refine (wp_ofExcept _).mpr ⟨fun found hfound => ⟨Lineage.latest_eq_ok hfound, hq⟩,
    fun e he => ⟨?_, hq⟩⟩
  unfold Lineage.latest at he
  split at he
  · cases he
  · assumption

theorem World.Holds.congr {w' : World} {report : SynthesisReport}
    (hobjects : w'.objects = w.objects) : w'.Holds reference report ↔ w.Holds reference report := by
  unfold World.Holds
  rw [hobjects]

theorem World.Holds.unique {report report' : SynthesisReport} (h : w.Holds reference report)
    (h' : w.Holds reference report') : report = report' := by
  obtain ⟨r, hr, hcontent⟩ := h
  obtain ⟨r', hr', hcontent'⟩ := h'
  rw [hr] at hr'
  cases hr'
  rw [hcontent] at hcontent'
  exact Content.synthesis.inj hcontent'

theorem concludes_artifactContent (h : Inv w) (correlationId : Uuid) :
    Concludes (fun b _ => ∃ r, (w.objects reference.storyRunId).record reference.artifactId =
        some r ∧ r.content = b)
      (fun _ _ => (w.objects reference.storyRunId).record reference.artifactId = none)
      (Lineage.artifactContent reference correlationId) w := by
  refine Concludes.bind (R := fun r _ =>
    (w.objects reference.storyRunId).record reference.artifactId = some r)
    (Concludes.tryCatch (F := fun _ _ =>
      (w.objects reference.storyRunId).record reference.artifactId = none)
      (concludes_storeCall fun v hv => ?_) fun _ _ hnone => hnone) fun r _ hr => ⟨r, hr, rfl⟩
  rw [hv.objects]
  refine wp_get trivial (fun r hr _ => hr) fun e hnot => ?_
  cases hrecord : (w.objects reference.storyRunId).record reference.artifactId with
  | none => rfl
  | some r =>
      have htyped := (h.objects _).records_typed r (RunObjects.mem_records_of_record hrecord)
      exact absurd htyped.1 (hnot r hrecord)

/-- A synthesis version is read, or the store has no synthesis under the reference. -/
theorem concludes_synthesisReport (h : Inv w) (correlationId : Uuid) :
    Concludes (fun b t => w.Holds reference b ∧ Quiet w t)
      (fun _ t => (∀ report, ¬ w.Holds reference report) ∧ Quiet w t)
      (Finalization.synthesisReport reference correlationId) w := by
  have hread : Concludes (fun b _ => w.Holds reference b)
      (fun _ _ => ∀ report, ¬ w.Holds reference report)
      (Finalization.synthesisReport reference correlationId) w := by
    refine Concludes.tryCatch (F := fun _ _ => ∀ report, ¬ w.Holds reference report) ?_ ?_
    · refine Concludes.bind ((concludes_artifactContent h correlationId).mono (fun _ _ h => h) ?_) ?_
      · rintro e t hnone report ⟨r, hr, -⟩
        rw [hnone] at hr
        cases hr
      · rintro content t ⟨r, hr, rfl⟩
        refine (wp_ofExcept _).mpr ⟨fun report hreport => ⟨r, hr, ?_⟩, ?_⟩
        · unfold Lineage.parseSynthesis at hreport
          split at hreport
          · next hcontent =>
              cases hreport
              exact hcontent
          · cases hreport
        · rintro e he report ⟨r', hr', hcontent⟩
          rw [hr] at hr'
          cases hr'
          rw [hcontent] at he
          cases he
    · intro e t hnone
      split <;> exact hnone
  exact hread.framed (quiet_finalizationSynthesisReport _ _) (Quiet.refl w)

/-- All versions are read, or one of them is not there. -/
theorem concludes_synthesisReports (h : Inv w) (references : List ArtifactReference)
    (correlationId : Uuid) {v : World} (hv : Quiet w v) :
    Concludes (fun reports t => List.Forall₂ w.Holds references reports ∧ Quiet w t)
      (fun _ t => (∀ reports, ¬ List.Forall₂ w.Holds references reports) ∧ Quiet w t)
      (traverse (fun r => Finalization.synthesisReport r correlationId) references) v := by
  induction references generalizing v with
  | nil => exact ⟨.nil, hv⟩
  | cons reference references ih =>
      refine Concludes.bind (R := fun report t => w.Holds reference report ∧ Quiet w t)
        ((concludes_synthesisReport (h.quiet hv) correlationId).mono ?_ ?_) ?_
      · rintro report t ⟨hreport, hq⟩
        exact ⟨(World.Holds.congr hv.objects).mp hreport, hv.trans hq⟩
      · rintro e t ⟨hnone, hq⟩
        refine ⟨fun reports hreports => ?_, hv.trans hq⟩
        cases hreports with
        | cons hreport _ => exact hnone _ ((World.Holds.congr hv.objects).mpr hreport)
      · rintro report t ⟨hreport, ht⟩
        refine Concludes.bind ((ih ht).mono (fun _ _ h => h) ?_) ?_
        · rintro e u ⟨hnone, hu⟩
          refine ⟨fun reports hreports => ?_, hu⟩
          cases hreports with
          | cons _ hrest => exact hnone _ hrest
        · rintro reports u ⟨hreports, hu⟩
          exact ⟨.cons hreport hreports, hu⟩

end Reads

/-! ## Writes -/

namespace RunObjects
variable {o o' : RunObjects}

theorem reportIdem_of_saves {request : SaveArtifactInput} {id : ArtifactId} {now : Time}
    (h : Saves request id now o o') : o'.reportIdem = o.reportIdem := by
  induction h with
  | refl => rfl
  | tail _ hstep ih =>
      refine Eq.trans ?_ ih
      cases hstep <;> rfl

/-- A render claims no format but its own. -/
theorem reportIdem_of_renders {request : RenderReportInput} {id : ArtifactId} {now : Time}
    (h : Renders request id now o o') {format : Format} (hne : format ≠ request.format) :
    o'.reportIdem format = o.reportIdem format := by
  induction h with
  | refl => rfl
  | tail _ hstep ih =>
      refine Eq.trans ?_ ih
      cases hstep with
      | claim => simp [hne]
      | bytes => rfl
      | finish => rfl

variable {run : RunId} {fresh : Uuid} {clock : Time}

theorem Sound.record_fresh (h : o.Sound run fresh clock) : o.record ⟨fresh⟩ = none := by
  cases hrecord : o.record ⟨fresh⟩ with
  | none => rfl
  | some r =>
      obtain ⟨key, hkey⟩ := h.records_claimed r (mem_records_of_record hrecord)
      have hlt := h.idem_fresh _ _ _ hkey
      rw [artifactId_of_record hrecord] at hlt
      exact absurd hlt (lt_irrefl _)

/-- The record that a save files under a key without one is new. -/
theorem Sound.new_of_saves (h : o.Sound run fresh clock) {fresh' : Uuid} {clock' : Time}
    (h' : o'.Sound run fresh' clock') (hgrows : o.Grows o') {type : ArtifactType}
    {key : IdempotencyKey} (hnone : o.recordUnder type key = none) {r : ArtifactRecord}
    (hr : o'.recordUnder type key = some r) : o.record r.reference.artifactId = none := by
  cases hold : o.record r.reference.artifactId with
  | none => rfl
  | some q =>
      exfalso
      obtain ⟨id, hid, hrecord⟩ := Option.bind_eq_some_iff.mp hr
      obtain rfl := artifactId_of_record hrecord
      have hsame := (hgrows.record _ _ hold).symm.trans hrecord
      cases hsame
      obtain ⟨key', hkey'⟩ := h.records_claimed _ (mem_records_of_record hold)
      obtain ⟨htype, rfl⟩ :=
        h'.idem_injective _ _ _ _ _ (hgrows.idem _ _ _ hkey') hid
      rw [htype] at hkey'
      simp [recordUnder, hkey', hold] at hnone

theorem Sound.readsFinalized (h : o.Sound run fresh clock) {key : IdempotencyKey}
    {r : ArtifactRecord} (hr : o.recordUnder .finalizedReview key = some r) :
    (o.finalizedReview r.reference).isSome := by
  have hmem := mem_records_of_recordUnder hr
  have htype := h.type_of_recordUnder hr
  obtain ⟨review, hcontent⟩ :=
    Content.hasType_finalizedReview (htype ▸ (h.records_typed r hmem).1)
  simp [finalizedReview, h.record_of_mem hmem, htype, hcontent]

end RunObjects

section Writes
variable {w : World} {session : SessionRecord}

/-- What the saved review's reference is good for: its review can be read, and was not
stored in `w`. -/
structure NewReview (w t : World) (run : RunId) (reference : ArtifactReference) : Prop where
  type : reference.type = .finalizedReview
  owned : reference.storyRunId = run
  read : ((t.objects run).finalizedReview reference).isSome
  new : (w.objects run).record reference.artifactId = none

/-- A review stamped later than every stored one is saved exactly when nothing was saved
under the key. -/
theorem concludes_saveFinalReview (h : Inv w) {review : FinalizedReview}
    (hrun : review.storyRunId = session.storyRunId) (hat : review.finalizedAt ≤ w.clock)
    (hlater : ∀ r ∈ (w.objects session.storyRunId).records, ∀ f,
      r.content = .finalizedReview f → f.finalizedAt < review.finalizedAt)
    (key : IdempotencyKey) (correlationId : Uuid) :
    Concludes (fun b t =>
        (w.objects session.storyRunId).recordUnder .finalizedReview key = none ∧ Inv t ∧
          (t.objects session.storyRunId).reportIdem =
            (w.objects session.storyRunId).reportIdem ∧
          NewReview w t session.storyRunId b)
      (fun _ _ => (w.objects session.storyRunId).recordUnder .finalizedReview key ≠ none)
      (Finalization.saveFinalReview session review key correlationId) w := by
  unfold Finalization.saveFinalReview Flows.saveArtifact Flows.saveArtifactInput
  rw [dif_pos ⟨rfl, trivial, hrun⟩]
  simp only [bind_eq, ofExcept_ok, ret_bind, pure_eq]
  refine Concludes.tryCatch (F := fun _ _ =>
    (w.objects session.storyRunId).recordUnder .finalizedReview key ≠ none) ?_ fun e t hused => ?_
  swap
  · split <;> exact hused
  refine Concludes.bind (R := fun (output : SaveArtifactOutput) t =>
    (w.objects session.storyRunId).recordUnder .finalizedReview key = none ∧ Inv t ∧
      (t.objects session.storyRunId).reportIdem = (w.objects session.storyRunId).reportIdem ∧
      NewReview w t session.storyRunId output.reference) ?_ fun _ _ h => h
  refine Concludes.tryCatch (F := fun _ _ =>
    (w.objects session.storyRunId).recordUnder .finalizedReview key ≠ none) ?_ fun e t hused => ?_
  swap
  · split <;> exact hused
  refine concludes_storeCall fun v hv => ?_
  have hinv := h.quiet hv
  refine wp_mono (wp_save _ _ _ _) (fun _ _ => trivial) ?_ fun e o' hfail => ?_
  · rintro output o' ⟨hsaves, ⟨r, hr, href, -⟩, hsame⟩
    have hnone : (w.objects session.storyRunId).recordUnder .finalizedReview key = none := by
      cases hunder : (w.objects session.storyRunId).recordUnder .finalizedReview key with
      | none => rfl
      | some q =>
          have hsound := h.objects session.storyRunId
          have hmem := RunObjects.mem_records_of_recordUnder hunder
          have htyped := hsound.records_typed q hmem
          rw [hsound.type_of_recordUnder hunder] at htyped
          obtain ⟨f, hf⟩ := Content.hasType_finalizedReview htyped.1
          have hsum := hsame q (by rw [hv.objects]; exact hunder)
          rw [htyped.2.2.2, hf] at hsum
          have htime := finalizedAt_of_checksum_eq hsum
          exact absurd htime (hlater q hmem f hf).ne
    have hserved : Inv (v.served session.storyRunId o') := by
      refine hinv.saves (fun f hf => ?_) hsaves
      cases hf
      exact hat.trans hv.clock
    have hsound' := hserved.objects session.storyRunId
    rw [World.served_objects_self] at hsound'
    have hmem := RunObjects.mem_records_of_recordUnder hr
    have hgrows := RunObjects.grows_of_saves hsaves
    refine ⟨hnone, hserved, ?_, ?_⟩
    · rw [World.served_objects_self, RunObjects.reportIdem_of_saves hsaves, hv.objects]
    · rw [href]
      refine ⟨hsound'.type_of_recordUnder hr, (hsound'.records_typed r hmem).2.1, ?_, ?_⟩
      · rw [World.served_objects_self]
        exact hsound'.readsFinalized hr
      · have hnew := (hinv.objects session.storyRunId).new_of_saves hsound' hgrows
          (by rw [hv.objects]; exact hnone) hr
        rwa [hv.objects] at hnew
  · obtain ⟨-, -, r, hr, -⟩ := hfail.2 (hinv.objects session.storyRunId).record_fresh
    rw [← hv.objects, hr]
    exact Option.some_ne_none r

/-- A report of the review is rendered exactly when its format was free, when no format
can have been claimed for the review before. -/
theorem concludes_renderOne (h : Inv w) {reference : ArtifactReference}
    (htype : reference.type = .finalizedReview)
    (hrun : reference.storyRunId = session.storyRunId)
    (hread : ((w.objects session.storyRunId).finalizedReview reference).isSome)
    {format : Format} (hother : ∀ c, (w.objects session.storyRunId).reportIdem format =
      some c → c.finalReviewArtifactId ≠ reference.artifactId) (correlationId : Uuid) :
    Concludes (fun b t => (w.objects session.storyRunId).reportIdem format = none ∧ Inv t ∧
        (∀ format', format' ≠ format → (t.objects session.storyRunId).reportIdem format' =
          (w.objects session.storyRunId).reportIdem format') ∧
        ((t.objects session.storyRunId).finalizedReview reference).isSome ∧
        b.type = .report format)
      (fun _ _ => (w.objects session.storyRunId).reportIdem format ≠ none)
      (Finalization.renderOne session reference correlationId format) w := by
  unfold Finalization.renderOne Finalization.renderReportInput
  rw [dif_pos ⟨hrun, htype⟩]
  simp only [bind_eq, ofExcept_ok, ret_bind, pure_eq]
  refine Concludes.bind (R := fun (output : RenderReportOutput) t =>
    (w.objects session.storyRunId).reportIdem format = none ∧ Inv t ∧
      (∀ format', format' ≠ format → (t.objects session.storyRunId).reportIdem format' =
        (w.objects session.storyRunId).reportIdem format') ∧
      ((t.objects session.storyRunId).finalizedReview reference).isSome ∧
      output.reference.type = .report format) ?_ fun _ _ h => h
  refine Concludes.tryCatch (F := fun _ _ =>
    (w.objects session.storyRunId).reportIdem format ≠ none) ?_ fun e t hused => ?_
  swap
  · split <;> exact hused
  refine concludes_storeCall fun v hv => ?_
  have hinv := h.quiet hv
  have hfree := (hinv.objects session.storyRunId).reportIdFree
  refine wp_mono (wp_renderReport _ _ _ _) (fun _ _ => trivial) ?_ fun e o' hfail hnone => ?_
  · rintro output o' ⟨hrenders, hformat, hpinned⟩
    obtain ⟨c, hc, hpin, -⟩ := hpinned hfree
    have hgrows := RunObjects.grows_of_renders hrenders
    rw [hv.objects] at hgrows hrenders
    have hnone : (w.objects session.storyRunId).reportIdem format = none := by
      cases hclaimed : (w.objects session.storyRunId).reportIdem format with
      | none => rfl
      | some c' =>
          have hsame := (hgrows.reportIdem _ _ hclaimed).symm.trans hc
          cases hsame
          exact absurd hpin (hother c hclaimed)
    rw [World.served_objects_self]
    refine ⟨hnone, ?_, fun format' hne => RunObjects.reportIdem_of_renders hrenders hne, ?_, ?_⟩
    · rw [← hv.objects] at hrenders
      exact hinv.renders hrenders
    · simpa [RunObjects.finalizedReview, RunObjects.record,
        RunObjects.records_of_renders hrenders] using hread
    · rw [output.format_matches_reference, hformat]
  · refine hfail.2 hfree ⟨?_, ?_⟩
    · rw [hv.objects]
      exact hread
    · rw [hv.objects]
      exact hnone

end Writes
end StoryReview
