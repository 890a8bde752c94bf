import StoryReview.Scenarios

/-!
# One finalized review per run

The artifact store is create-only per key, not per run. A run keeps a single
finalized review as long as no attempt enters flow 3 under another key than the
stored review's.
-/
namespace StoryReview
open RecordsStore

/-- The finalized reviews a run stores. -/
def World.finalizedReviews (w : World) (run : RunId) : List ArtifactRecord :=
  (w.objects run).records.filter fun r => decide (r.reference.type = .finalizedReview)

structure OneFinalizedReview (w : World) : Prop where
  atMostOne : ∀ run, (w.finalizedReviews run).length ≤ 1
  referenced : ∀ id row, w.session id = some row → row.record.state = .completed →
    ∃ r ∈ w.finalizedReviews row.record.storyRunId,
      row.record.finalReviewReference = some r.reference

/-- An attempt that enters flow 3 for a run with a finalized review carries the key
the review was saved under. -/
def ReusesReviewKey (w : World) (a : Attempt) : Prop :=
  Finalizes a w → ∀ r ∈ w.finalizedReviews ⟨a.sessionId.key⟩,
    (w.objects ⟨a.sessionId.key⟩).recordUnder .finalizedReview a.key = some r

theorem World.mem_finalizedReviews {w : World} {run : RunId} {r : ArtifactRecord} :
    r ∈ w.finalizedReviews run ↔
      r ∈ (w.objects run).records ∧ r.reference.type = .finalizedReview := by
  simp [World.finalizedReviews]

/-! ## The invariant -/

/-- Every finalized review of the run is the one under `key`. -/
def ReviewedUnder (w : World) (run : RunId) (key : IdempotencyKey) : Prop :=
  ∀ r ∈ w.finalizedReviews run, (w.objects run).recordUnder .finalizedReview key = some r

/-- A completed session references a finalized review of its run. -/
def ReferencesReview (w : World) : Prop :=
  ∀ id s, w.core id = some s → s.state = .completed →
    ∃ key r, (w.objects s.storyRunId).recordUnder .finalizedReview key = some r ∧
      s.finalReviewReference = some r.reference

/-- While an attempt runs, the finalized reviews of a run are those it found, or all
of them are under the attempt's key. -/
def KeepsReviews (a : Attempt) (w₀ w : World) (run : RunId) : Prop :=
  (∀ r ∈ w.finalizedReviews run, r ∈ w₀.finalizedReviews run) ∨ ReviewedUnder w run a.key

section Steps
variable {a : Attempt} {w₀ w w' : World}

theorem Commit.keepsReviews (h : Inv w) (hreuse : ReusesReviewKey w₀ a) {run : RunId}
    (hgrows : (w₀.objects run).Grows (w.objects run)) (hk : KeepsReviews a w₀ w run)
    (hc : Commit a w₀ w w') : KeepsReviews a w₀ w' run := by
  obtain ⟨hgrow, hsame | ⟨hfinalizes, s, request, hs, hrun, htype, hkey, hsaves⟩⟩ :=
    hc.objects_cases run
  · -- no new finalized review
    have hold : ∀ r ∈ w'.finalizedReviews run, r ∈ w.finalizedReviews run := by
      intro r hr
      rw [World.mem_finalizedReviews] at hr ⊢
      exact ⟨hsame r hr.1 hr.2, hr.2⟩
    exact hk.imp (fun hk r hr => hk r (hold r hr))
      fun hk r hr => hgrow.recordUnder (hk r (hold r hr))
  · -- the attempt saves its own, beside none but those under its key
    have hrun' : run = ⟨a.sessionId.key⟩ := hrun ▸ h.run_of_core hs
    refine .inr fun r hr => ?_
    rw [World.mem_finalizedReviews] at hr
    rcases RunObjects.records_of_saves hsaves hr.1 with hmem | ⟨-, hunder⟩
    · have hfound := World.mem_finalizedReviews.mpr ⟨hmem, hr.2⟩
      rcases hk with hk | hk
      · have hunder := hreuse hfinalizes r (hrun' ▸ hk r hfound)
        exact hgrow.recordUnder (hgrows.recordUnder (hrun' ▸ hunder))
      · exact hgrow.recordUnder (hk r hfound)
    · rwa [htype, hkey] at hunder

theorem Evolves.keepsReviews (h₀ : Inv w₀) (hreuse : ReusesReviewKey w₀ a) (run : RunId)
    (hw : Evolves a w₀ w₀ w) : KeepsReviews a w₀ w run := by
  induction hw with
  | refl => exact .inl fun r hr => hr
  | tail hw hc ih => exact hc.keepsReviews (h₀.evolves hw) hreuse (Evolves.grows hw run) ih

theorem Produced.referencesReview {key : IdempotencyKey} {s : SessionRecord}
    {result : Finalization.FinalizationResult} (h : Produced w key s result) :
    ∃ key r, (w.objects s.storyRunId).recordUnder .finalizedReview key = some r ∧
      some result.finalReviewReference = some r.reference := by
  obtain ⟨r, hr, href⟩ := h.finalReview
  exact ⟨key, r, hr, congrArg some href.symm⟩

theorem Closes.referencesReview {s : SessionRecord} {u : SessionUpdate}
    {response : CanonicalResponse} (h : Closes a w₀ w s u response)
    (hstate : (u.apply 0 s).state = .completed) :
    ∃ key r, (w.objects s.storyRunId).recordUnder .finalizedReview key = some r ∧
      (u.apply 0 s).finalReviewReference = some r.reference := by
  cases h with
  | @persist payload row canonical count hrequest hactive =>
      by_cases hpark : parkTurn ≤ count <;> simp [SessionUpdate.apply, hpark, hactive] at hstate
  | completeTurn count hrequest hfin hmem howns hdescribes hcount hproduced =>
      exact hproduced.referencesReview
  | completeFinalize canonical hrequest hfin hproduced => exact hproduced.referencesReview
  | abandon => cases hstate

theorem Marks.state_ne_completed {s : SessionRecord} {u : SessionUpdate} (h : Marks a w₀ w s u) :
    (u.apply 0 s).state ≠ .completed := by
  cases h with
  | count hstate => simp [SessionUpdate.apply, hstate]
  | finalizing => simp [SessionUpdate.apply]
  | rollBack => simp [SessionUpdate.apply]

theorem Commit.referencesReview (h : ReferencesReview w) (hc : Commit a w₀ w w') :
    ReferencesReview w' := by
  have hgrow : ∀ {s : SessionRecord} {reference : Option ArtifactReference},
      (∃ key r, (w.objects s.storyRunId).recordUnder .finalizedReview key = some r ∧
        reference = some r.reference) →
      ∃ key r, (w'.objects s.storyRunId).recordUnder .finalizedReview key = some r ∧
        reference = some r.reference := by
    rintro s reference ⟨key, r, hr, href⟩
    exact ⟨key, r, (hc.objects_cases s.storyRunId).1.recordUnder hr, href⟩
  intro id s' hs' hstate
  cases hc.core_cases hs' with
  | same hs => exact hgrow (h id s' hs hstate)
  | mark hid hs hmarks heq => exact absurd (heq ▸ hstate) hmarks.state_ne_completed
  | close hid hs hcloses heq =>
      subst heq
      exact hgrow (hcloses.referencesReview hstate)
  | parkFailed hid hs hactive heq =>
      subst heq
      cases hstate
  | session hnone hactive =>
      rw [hactive] at hstate
      cases hstate

theorem Evolves.referencesReview (h : ReferencesReview w₀) (hw : Evolves a w₀ w₀ w) :
    ReferencesReview w := by
  induction hw with
  | refl => exact h
  | tail _ hc ih => exact hc.referencesReview ih

end Steps

/-! ## Runs -/

/-- Records under one key are one record. -/
theorem ReviewedUnder.length_le {w : World} (h : Inv w) {run : RunId} {key : IdempotencyKey}
    (hunder : ReviewedUnder w run key) : (w.finalizedReviews run).length ≤ 1 := by
  have hnodup : (w.finalizedReviews run).Nodup :=
    ((h.objects run).records_nodup.of_map _).filter _
  have hsub : w.finalizedReviews run ⊆
      ((w.objects run).recordUnder .finalizedReview key).toList := by
    intro r hr
    rw [Option.mem_toList]
    exact hunder r hr
  refine (hnodup.subperm hsub).length_le.trans ?_
  cases (w.objects run).recordUnder .finalizedReview key <;> simp

/-- Between attempts some key accounts for all finalized reviews of a run. -/
theorem ReachableIf.reviewedUnder {w : World} (h : ReachableIf ReusesReviewKey w)
    (run : RunId) : ∃ key, ReviewedUnder w run key := by
  induction h with
  | init => exact ⟨0, by simp [ReviewedUnder, World.finalizedReviews]⟩
  | @step w a hw hreuse ih =>
      have hevolves := a.evolves hw.inv
      rcases Evolves.keepsReviews hw.inv hreuse run hevolves with hold | hown
      · obtain ⟨key, hkey⟩ := ih
        exact ⟨key, fun r hr =>
          (Evolves.grows hevolves run).recordUnder (hkey r (hold r hr))⟩
      · exact ⟨a.key, hown⟩

theorem ReachableIf.referencesReview {P : World → Attempt → Prop} {w : World}
    (h : ReachableIf P w) : ReferencesReview w := by
  induction h with
  | init => simp [ReferencesReview, World.core, World.cores]
  | @step w a hw _ ih => exact Evolves.referencesReview ih (a.evolves hw.inv)

/-- A run whose attempts reuse the key of a stored review keeps one finalized review
per story run, and its completed sessions reference it. -/
theorem reachable_oneFinalizedReview {w : World} (h : ReachableIf ReusesReviewKey w) :
    OneFinalizedReview w where
  atMostOne run := by
    obtain ⟨key, hkey⟩ := h.reviewedUnder run
    exact hkey.length_le h.inv
  referenced id row hrow hstate := by
    obtain ⟨key, r, hr, href⟩ := h.referencesReview id row.record.core
      (World.core_of_session hrow) hstate
    refine ⟨r, World.mem_finalizedReviews.mpr ⟨RunObjects.mem_records_of_recordUnder hr, ?_⟩,
      href⟩
    exact (h.inv.objects _).type_of_recordUnder hr

/-- An attempt on a run without a finalized review reuses whatever key it has. -/
theorem reusesReviewKey_of_none {w : World} {a : Attempt}
    (h : (w.finalizedReviews ⟨a.sessionId.key⟩).isEmpty = true) : ReusesReviewKey w a := by
  intro _ r hr
  rw [List.isEmpty_iff.mp h] at hr
  cases hr

namespace Scenario

/-- A session accepted without a fault keeps one review. -/
theorem oneFinalizedReview_accepted :
    OneFinalizedReview (World.after {} [create, accept 2 none]) :=
  reachable_oneFinalizedReview (.step (accept 2 none)
    (.step create .init (reusesReviewKey_of_none (by decide +kernel)))
    (reusesReviewKey_of_none (by decide +kernel)))

/-- The process that accepts dies right after it has saved the review. -/
def twoReviews : World := World.after {} [create, accept 2 (some 15), finalize 3]

/-- A second key finalizes again and saves a second review. -/
theorem twoReviews_not_one : Reachable twoReviews ∧ ¬ OneFinalizedReview twoReviews :=
  ⟨reachable_after _, fun h => absurd (h.atMostOne ⟨1⟩) (by decide +kernel)⟩

end Scenario
end StoryReview
