import StoryReview.Stores

/-!
# What the stores of a run keep

Objects only accumulate, every record is filed under the key that claimed it,
and every report claim is pinned to a stored finalized review. `fresh` bounds
the UUIDs in use and `clock` the times.
-/
namespace StoryReview.RunObjects
open StoryReview
variable {o o' o'' : RunObjects}

/-- Nothing of `o` is lost or changed in `o'`. -/
structure Grows (o o' : RunObjects) : Prop where
  idem : ∀ t k id, o.idem t k = some id → o'.idem t k = some id
  records : ∀ r ∈ o.records, r ∈ o'.records
  record : ∀ id r, o.record id = some r → o'.record id = some r
  reportIdem : ∀ f c, o.reportIdem f = some c → o'.reportIdem f = some c
  reportMeta : ∀ id m, o.reportMeta id = some m → o'.reportMeta id = some m

theorem Grows.refl (o : RunObjects) : o.Grows o :=
  ⟨fun _ _ _ h => h, fun _ h => h, fun _ _ h => h, fun _ _ h => h, fun _ _ h => h⟩

theorem Grows.trans (h : o.Grows o') (h' : o'.Grows o'') : o.Grows o'' :=
  ⟨fun t k id hi => h'.idem t k id (h.idem t k id hi),
    fun r hr => h'.records r (h.records r hr),
    fun id r hr => h'.record id r (h.record id r hr),
    fun f c hc => h'.reportIdem f c (h.reportIdem f c hc),
    fun id m hm => h'.reportMeta id m (h.reportMeta id m hm)⟩

theorem Grows.recordUnder (h : o.Grows o') {t : ArtifactType} {k : IdempotencyKey}
    {r : ArtifactRecord} (hr : o.recordUnder t k = some r) : o'.recordUnder t k = some r := by
  simp only [RunObjects.recordUnder, Option.bind_eq_some_iff] at hr ⊢
  obtain ⟨id, hid, hrec⟩ := hr
  exact ⟨id, h.idem t k id hid, h.record id r hrec⟩

theorem grows_setIdem {t : ArtifactType} {k : IdempotencyKey} (h : o.idem t k = none)
    (id : ArtifactId) : o.Grows (o.setIdem t k id) := by
  refine { Grows.refl o with idem := fun t' k' id' hid => ?_ }
  rw [setIdem_idem]
  split_ifs with htk
  · rw [← htk.1, ← htk.2, h] at hid
    cases hid
  · exact hid

theorem grows_addRecord (o : RunObjects) (r : ArtifactRecord) : o.Grows (o.addRecord r) :=
  { Grows.refl o with
    records := fun r hr => by simp [hr]
    record := fun id r hr => by simp [addRecord_record, hr] }

theorem grows_setReportIdem {f : Format} (h : o.reportIdem f = none) (c : ReportClaim) :
    o.Grows (o.setReportIdem f c) := by
  refine { Grows.refl o with reportIdem := fun f' c' hc => ?_ }
  rw [setReportIdem_reportIdem]
  split_ifs with hf
  · rw [hf, h] at hc
    cases hc
  · exact hc

theorem grows_addReportBytes (o : RunObjects) (b : ReportBytes) :
    o.Grows (o.addReportBytes b) :=
  { Grows.refl o with }

theorem grows_addReportMeta (o : RunObjects) (m : ArtifactReference) :
    o.Grows (o.addReportMeta m) :=
  { Grows.refl o with
    reportMeta := fun id m hm => by simp [addReportMeta_reportMeta, hm] }

theorem grows_of_saveStep {request : SaveArtifactInput} {id : ArtifactId} {now : Time}
    (h : SaveStep request id now o o') : o.Grows o' := by
  cases h with
  | claim h => exact grows_setIdem h _
  | write winner h hnew => exact grows_addRecord o _

theorem grows_of_renderStep {request : RenderReportInput} {id : ArtifactId} {now : Time}
    (h : RenderStep request id now o o') : o.Grows o' := by
  cases h with
  | claim content hread h => exact grows_setReportIdem h _
  | bytes content c hread h hpin => exact grows_addReportBytes o _
  | finish content c hread h hpin hnew => exact grows_addReportMeta o _

theorem grows_of_saves {request : SaveArtifactInput} {id : ArtifactId} {now : Time}
    (h : Saves request id now o o') : o.Grows o' := by
  induction h with
  | refl => exact .refl o
  | tail _ hstep ih => exact ih.trans (grows_of_saveStep hstep)

theorem grows_of_renders {request : RenderReportInput} {id : ArtifactId} {now : Time}
    (h : Renders request id now o o') : o.Grows o' := by
  induction h with
  | refl => exact .refl o
  | tail _ hstep ih => exact ih.trans (grows_of_renderStep hstep)

/-- A save only adds records of its type, filed under its key. -/
theorem records_of_saves {request : SaveArtifactInput} {id : ArtifactId} {now : Time}
    (h : Saves request id now o o') {r : ArtifactRecord} (hr : r ∈ o'.records) :
    r ∈ o.records ∨ (r.reference.type = request.type ∧
      o'.recordUnder request.type request.idempotencyKey = some r) := by
  induction h with
  | refl => exact .inl hr
  | @tail o₁ o₂ _ hstep ih =>
      have hgrow := grows_of_saveStep hstep
      cases hstep with
      | claim hnone => exact (ih hr).imp_right fun h => ⟨h.1, hgrow.recordUnder h.2⟩
      | write winner hwin hnew =>
          rcases List.mem_append.mp hr with hr | hr
          · exact (ih hr).imp_right fun h => ⟨h.1, hgrow.recordUnder h.2⟩
          · rw [List.mem_singleton.mp hr]
            exact .inr ⟨rfl, recordUnder_addRecord hwin hnew⟩

theorem records_of_renders {request : RenderReportInput} {id : ArtifactId} {now : Time}
    (h : Renders request id now o o') : o'.records = o.records := by
  induction h with
  | refl => rfl
  | tail _ hstep ih => cases hstep <;> exact ih

structure Sound (o : RunObjects) (run : RunId) (fresh : Uuid) (clock : Time) : Prop where
  idem_fresh : ∀ t k id, o.idem t k = some id → id.uuid < fresh
  idem_injective : ∀ t k t' k' id, o.idem t k = some id → o.idem t' k' = some id →
    t = t' ∧ k = k'
  records_claimed : ∀ r ∈ o.records,
    ∃ k, o.idem r.reference.type k = some r.reference.artifactId
  records_typed : ∀ r ∈ o.records, r.content.HasType r.reference.type ∧
    r.reference.storyRunId = run ∧
    r.reference.perspective = r.reference.type.expectedPerspective ∧
    r.reference.checksumSha256 = canonicalChecksum r.content
  records_nodup : (o.records.map fun r => r.reference.artifactId).Nodup
  finalized_before : ∀ r ∈ o.records, ∀ f, r.content = .finalizedReview f →
    f.finalizedAt ≤ clock
  reportIdem_fresh : ∀ f c, o.reportIdem f = some c → c.artifactId.uuid < fresh
  reportIdem_pinned : ∀ f c, o.reportIdem f = some c → ∃ r ∈ o.records,
    r.reference.artifactId = c.finalReviewArtifactId ∧
    r.reference.type = .finalizedReview ∧
    r.reference.checksumSha256 = c.finalReviewChecksum
  bytes_claimed : ∀ b ∈ o.reportBytes,
    ∃ c, o.reportIdem b.ext = some c ∧ c.artifactId = b.artifactId
  metas_claimed : ∀ m ∈ o.reportMetas, ∃ f c, m.type = .report f ∧
    o.reportIdem f = some c ∧ c.artifactId = m.artifactId ∧ m.storyRunId = run

variable {run : RunId} {fresh fresh' : Uuid} {clock clock' : Time}

theorem sound_empty (run : RunId) (fresh : Uuid) (clock : Time) :
    ({} : RunObjects).Sound run fresh clock := by
  constructor <;> simp

theorem Sound.mono (h : o.Sound run fresh clock) (hf : fresh ≤ fresh')
    (hc : clock ≤ clock') : o.Sound run fresh' clock' :=
  { h with
    idem_fresh := fun t k id hid => lt_of_lt_of_le (h.idem_fresh t k id hid) hf
    finalized_before := fun r hr f hrf => (h.finalized_before r hr f hrf).trans hc
    reportIdem_fresh := fun f c hfc => lt_of_lt_of_le (h.reportIdem_fresh f c hfc) hf }

theorem Sound.record_of_mem (h : o.Sound run fresh clock) {r : ArtifactRecord}
    (hr : r ∈ o.records) : o.record r.reference.artifactId = some r := by
  have hnd := h.records_nodup
  unfold record
  generalize o.records = records at hr hnd ⊢
  induction records with
  | nil => cases hr
  | cons q qs ih =>
      rw [List.map_cons, List.nodup_cons] at hnd
      rcases List.mem_cons.mp hr with rfl | hr'
      · simp
      · have hne : q.reference.artifactId ≠ r.reference.artifactId := fun he =>
          hnd.1 (he ▸ List.mem_map_of_mem (f := fun r => r.reference.artifactId) hr')
        simpa [List.find?_cons, hne] using ih hr' hnd.2

/-- A record filed under a type is of that type. -/
theorem Sound.type_of_recordUnder (h : o.Sound run fresh clock) {t : ArtifactType}
    {k : IdempotencyKey} {r : ArtifactRecord} (hr : o.recordUnder t k = some r) :
    r.reference.type = t := by
  simp only [recordUnder, Option.bind_eq_some_iff] at hr
  obtain ⟨id, hid, hrec⟩ := hr
  have hart := artifactId_of_record hrec
  obtain ⟨k', hk'⟩ := h.records_claimed r (mem_records_of_record hrec)
  exact (h.idem_injective _ _ _ _ _ (hart ▸ hk') hid).1

theorem Sound.reportIdFree (h : o.Sound run fresh clock) : o.ReportIdFree ⟨fresh⟩ := by
  constructor
  · intro b hb hid
    obtain ⟨c, hc, hbc⟩ := h.bytes_claimed b hb
    have hlt := h.reportIdem_fresh _ c hc
    rw [hbc, hid] at hlt
    exact absurd hlt (lt_irrefl _)
  · simp only [reportMeta, List.find?_eq_none, decide_eq_true_eq]
    intro m hm hid
    obtain ⟨f, c, _, hc, hmc, _⟩ := h.metas_claimed m hm
    have hlt := h.reportIdem_fresh _ c hc
    rw [hmc, hid] at hlt
    exact absurd hlt (lt_irrefl _)

/-- The step lemma of a save: `hfree` says that the id may still be given out. -/
theorem Sound.saveStep {request : SaveArtifactInput} {now : Time}
    (h : o.Sound run (fresh + 1) clock) (hrun : request.storyRunId = run)
    (hat : ∀ f, request.content = .finalizedReview f → f.finalizedAt ≤ clock)
    (hfree : o.idem request.type request.idempotencyKey = none →
      ∀ t k, o.idem t k ≠ some ⟨fresh⟩)
    (hs : SaveStep request ⟨fresh⟩ now o o') : o'.Sound run (fresh + 1) clock := by
  cases hs with
  | claim hnone =>
      have hne := hfree hnone
      exact { h with
        idem_fresh := by
          intro t k id hid
          rw [setIdem_idem] at hid
          split_ifs at hid with htk
          · cases hid
            exact Nat.lt_succ_self _
          · exact h.idem_fresh t k id hid
        idem_injective := by
          intro t k t' k' id hid hid'
          rw [setIdem_idem] at hid hid'
          split_ifs at hid hid' with h₁ h₂ h₂
          · exact ⟨h₁.1.symm.trans h₂.1, h₁.2.symm.trans h₂.2⟩
          · cases hid
            exact absurd hid' (hne t' k')
          · cases hid'
            exact absurd hid (hne t k)
          · exact h.idem_injective t k t' k' id hid hid'
        records_claimed := by
          intro r hr
          obtain ⟨k, hk⟩ := h.records_claimed r hr
          have hstep : SaveStep request ⟨fresh⟩ now o _ := .claim o hnone
          exact ⟨k, (grows_of_saveStep hstep).idem _ _ _ hk⟩ }
  | write winner hwin hnew =>
      exact { h with
        records_claimed := by
          intro r hr
          rcases List.mem_append.mp hr with hr | hr
          · exact h.records_claimed r hr
          · rw [List.mem_singleton.mp hr]
            exact ⟨_, hwin⟩
        records_typed := by
          intro r hr
          rcases List.mem_append.mp hr with hr | hr
          · exact h.records_typed r hr
          · rw [List.mem_singleton.mp hr]
            exact ⟨request.type_matches_content, hrun, request.perspective_matches, rfl⟩
        records_nodup := by
          rw [addRecord_records, List.map_append]
          refine List.nodup_append.mpr ⟨h.records_nodup, List.nodup_singleton _, ?_⟩
          intro a ha b hb hab
          obtain ⟨r, hr, rfl⟩ := List.mem_map.mp ha
          simp only [List.map_cons, List.map_nil, List.mem_singleton,
            ArtifactService.newReference_artifactId] at hb
          have hrec := h.record_of_mem hr
          rw [hab, hb, hnew] at hrec
          cases hrec
        finalized_before := by
          intro r hr f hf
          rcases List.mem_append.mp hr with hr | hr
          · exact h.finalized_before r hr f hf
          · rw [List.mem_singleton.mp hr] at hf
            exact hat f hf
        reportIdem_pinned := by
          intro f c hc
          obtain ⟨r, hr, hpin⟩ := h.reportIdem_pinned f c hc
          exact ⟨r, List.mem_append_left _ hr, hpin⟩ }

theorem Sound.saves {request : SaveArtifactInput} {now : Time}
    (h : o.Sound run fresh clock) (hrun : request.storyRunId = run)
    (hat : ∀ f, request.content = .finalizedReview f → f.finalizedAt ≤ clock)
    (hs : Saves request ⟨fresh⟩ now o o') : o'.Sound run (fresh + 1) clock := by
  suffices hboth : o'.Sound run (fresh + 1) clock ∧
      (o'.idem request.type request.idempotencyKey = none →
        ∀ t k, o'.idem t k ≠ some ⟨fresh⟩) from hboth.1
  induction hs with
  | refl =>
      refine ⟨h.mono (Nat.le_succ _) le_rfl, fun _ t k hid => ?_⟩
      exact absurd (h.idem_fresh t k _ hid) (lt_irrefl _)
  | tail _ hstep ih =>
      refine ⟨ih.1.saveStep hrun hat ih.2 hstep, ?_⟩
      cases hstep with
      | claim hnone => simp
      | write winner hwin hnew =>
          intro hnone
          rw [addRecord_idem, hwin] at hnone
          cases hnone

theorem Sound.renderStep {request : RenderReportInput} {now : Time}
    (h : o.Sound run (fresh + 1) clock) (hrun : request.storyRunId = run)
    (hs : RenderStep request ⟨fresh⟩ now o o') : o'.Sound run (fresh + 1) clock := by
  have hgrow := grows_of_renderStep hs
  cases hs with
  | claim content hread hnone =>
      exact { h with
        reportIdem_fresh := by
          intro f c hc
          rw [setReportIdem_reportIdem] at hc
          split_ifs at hc with hf
          · cases hc
            exact Nat.lt_succ_self _
          · exact h.reportIdem_fresh f c hc
        reportIdem_pinned := by
          intro f c hc
          rw [setReportIdem_reportIdem] at hc
          split_ifs at hc with hf
          · cases hc
            simp only [finalizedReview, Option.bind_eq_some_iff] at hread
            obtain ⟨r, hr, hcontent⟩ := hread
            split_ifs at hcontent with hmatch
            exact ⟨r, mem_records_of_record hr, artifactId_of_record hr, hmatch⟩
          · exact h.reportIdem_pinned f c hc
        bytes_claimed := by
          intro b hb
          obtain ⟨c, hc, hbc⟩ := h.bytes_claimed b hb
          exact ⟨c, hgrow.reportIdem _ c hc, hbc⟩
        metas_claimed := by
          intro m hm
          obtain ⟨f, c, hf, hc, hmc⟩ := h.metas_claimed m hm
          exact ⟨f, c, hf, hgrow.reportIdem f c hc, hmc⟩ }
  | bytes content c hread hidem hpin =>
      exact { h with
        bytes_claimed := by
          intro b hb
          rcases List.mem_append.mp hb with hb | hb
          · exact h.bytes_claimed b hb
          · rw [List.mem_singleton.mp hb]
            exact ⟨c, hidem, rfl⟩ }
  | finish content c hread hidem hpin hnew =>
      exact { h with
        metas_claimed := by
          intro m hm
          rcases List.mem_append.mp hm with hm | hm
          · exact h.metas_claimed m hm
          · rw [List.mem_singleton.mp hm]
            exact ⟨request.format, c, rfl, hidem, rfl, hrun⟩ }

theorem Sound.renders {request : RenderReportInput} {now : Time}
    (h : o.Sound run fresh clock) (hrun : request.storyRunId = run)
    (hs : Renders request ⟨fresh⟩ now o o') : o'.Sound run (fresh + 1) clock := by
  induction hs with
  | refl => exact h.mono (Nat.le_succ _) le_rfl
  | tail _ hstep ih => exact ih.renderStep hrun hstep

end StoryReview.RunObjects
