import StoryReview.Scenarios

/-!
# What recording a finalization leaves on the turn

Flow 3 writes the final review and the reports into the artifact list of the last
finalize turn. The list is overwritten, so recording any number of attempts amounts to
recording the last one, and nothing is lost exactly when the turn had produced no review
and no synthesis of its own: an acceptance, or a turn that neither delegated nor
re-synthesized.
-/
namespace StoryReview
open RecordsStore

/-- What a turn produces before flow 3: a review or a synthesis. -/
def ArtifactReference.Drafted (r : ArtifactReference) : Prop :=
  r.type = .reviewBusiness ∨ r.type = .reviewEngineering ∨ r.type = .synthesis

/-- The last finalize turn of a session. -/
def World.finalizingTurn (w : World) (id : SessionId) : Option TurnRow :=
  (w.turns id).reverse.find? fun row => decide (row.record.outcome = .finalize)

namespace Finalization

/-- The artifact list flow 3 records. -/
def FinalizationResult.references (result : FinalizationResult) : List ArtifactReference :=
  result.finalReviewReference :: result.reportReferences

/-- A finalized review and reports, as flow 3 returns them. -/
def FinalizationResult.Typed (result : FinalizationResult) : Prop :=
  result.finalReviewReference.type = .finalizedReview ∧
    ∀ r ∈ result.reportReferences, r.type = .reportMd ∨ r.type = .reportPdf

/-- The recordings of several flow-3 attempts. -/
def record (id : SessionId) (results : List FinalizationResult) : Orchestration (List Unit) :=
  Program.traverse (fun result => setFinalizingTurnArtifacts id result.references) results

theorem FinalizationResult.Typed.not_drafted {result : FinalizationResult}
    (h : result.Typed) : ∀ r ∈ result.references, ¬ r.Drafted := by
  intro r hr
  rcases List.mem_cons.mp hr with rfl | hr
  · simp [ArtifactReference.Drafted, h.1]
  · rcases h.2 r hr with htype | htype <;> simp [ArtifactReference.Drafted, htype]

end Finalization

open Finalization

/-- The frame of recordings that lead from `w` to `w'`: the turn keeps its own artifacts,
and a retry collects the same synthesis versions and builds the same catalog. -/
structure KeepsArtifacts (w w' : World) (id : SessionId) (turn : TurnRow) : Prop where
  artifacts : ∀ r ∈ turn.record.producedArtifacts, r.Drafted →
    ∃ row, turnRow w' id turn.record.turnNumber = some row ∧ r ∈ row.record.producedArtifacts
  lineage : ∀ reference, catalogReferences (w'.history id) reference =
    catalogReferences (w.history id) reference
  catalog : ∀ reference (contents : ArtifactReference → SynthesisReport),
    issueCatalog ((catalogReferences (w'.history id) reference).map contents)
        (w'.history id) =
      issueCatalog ((catalogReferences (w.history id) reference).map contents) (w.history id)

/-! ## The overwrite -/

section Stamps
variable {n : ℕ} {references : List ArtifactReference}

theorem stampTurn_stampTurn (earlier : List ArtifactReference) (row : TurnRow) :
    stampTurn n references (stampTurn n earlier row) = stampTurn n references row := by
  by_cases h : row.record.turnNumber = n <;> simp [stampTurn, h]

/-- The stamp does not change which turn is the last finalize turn. -/
theorem finalizingTurnNumber_stamp (rows : List TurnRow) :
    finalizingTurnNumber (rows.map (stampTurn n references)) = finalizingTurnNumber rows := by
  simp only [finalizingTurnNumber, ← List.map_reverse, List.find?_map, Function.comp_def,
    stampTurn_outcome, Option.map_map, stampTurn_turnNumber]

end Stamps

section Recordings
variable {w : World} {id : SessionId} {turn : TurnRow}

theorem World.finalizingTurnNumber_eq (h : w.finalizingTurn id = some turn) :
    finalizingTurnNumber (w.turns id) = some turn.record.turnNumber := by
  rw [World.finalizingTurn] at h
  rw [finalizingTurnNumber, h, Option.map_some]

theorem World.mem_of_finalizingTurn (h : w.finalizingTurn id = some turn) :
    turn ∈ w.turns id :=
  List.mem_reverse.mp (List.mem_of_find?_eq_some h)

/-- One recording overwrites the list of the last finalize turn. -/
theorem wp_setFinalizingTurnArtifacts {n : ℕ}
    (h : finalizingTurnNumber (w.turns id) = some n) (references : List ArtifactReference) :
    (setFinalizingTurnArtifacts id references).wp (fun _ => True) (fun _ => True)
      (fun _ t => t.turns id = (w.turns id).map (stampTurn n references))
      (fun _ _ => False) w := by
  simp only [setFinalizingTurnArtifacts, query, execute, statement, Program.bind_eq,
    Program.wp_bind, Program.wp_atomic]
  intro c _
  refine ⟨trivial, ?_⟩
  rw [show finalizingTurnNumber ((w.tick c).turns id) = some n from h]
  intro c' _
  refine ⟨trivial, ?_⟩
  simp [World.setTurns, World.tick]

/-- Any number of recordings leaves what the last one wrote. -/
theorem wp_record {n : ℕ} (h : finalizingTurnNumber (w.turns id) = some n)
    {results : List FinalizationResult} (hne : results ≠ []) :
    (record id results).wp (fun _ => True) (fun _ => True)
      (fun _ t => ∃ result ∈ results,
        t.turns id = (w.turns id).map (stampTurn n result.references))
      (fun _ _ => False) w := by
  induction results generalizing w with
  | nil => exact absurd rfl hne
  | cons result rest ih =>
      simp only [record, Program.traverse, Program.wp_bind, Program.wp_ret] at ih ⊢
      refine Program.wp_mono (wp_setFinalizingTurnArtifacts h _) (fun _ h => h) ?_
        (fun _ _ h => h)
      intro _ t ht
      cases rest with
      | nil => exact ⟨result, by simp, ht⟩
      | cons next rest =>
          have ht' : finalizingTurnNumber (t.turns id) = some n := by
            rw [ht, finalizingTurnNumber_stamp, h]
          refine Program.wp_mono (ih ht' (List.cons_ne_nil next rest)) (fun _ h => h) ?_ (fun _ _ h => h)
          rintro _ t' ⟨last, hlast, hturns⟩
          refine ⟨last, List.mem_cons_of_mem _ hlast, ?_⟩
          rw [hturns, ht, List.map_map]
          exact List.map_congr_left fun row _ => stampTurn_stampTurn _ row

theorem turns_record {n : ℕ} (h : finalizingTurnNumber (w.turns id) = some n)
    {results : List FinalizationResult} (hne : results ≠ []) (cs : ℕ → Choice) :
    ∃ result ∈ results, ((record id results).run cs w).2.turns id =
      (w.turns id).map (stampTurn n result.references) := by
  have hrun := @Program.wp_run _ _ _ _ _ _ _ _ _ _ (wp_record h hne) cs fun _ => trivial
  split at hrun
  · next heq => rwa [heq]
  · exact hrun.elim

/-! ## What is kept -/

/-- An overwritten turn holds nothing but what was written. -/
theorem mem_references_of_turnRow {w' : World} {references : List ArtifactReference} {n : ℕ}
    (hturns : w'.turns id = (w.turns id).map (stampTurn n references)) {row : TurnRow}
    (hrow : turnRow w' id n = some row) : row.record.producedArtifacts = references := by
  have hmem := List.mem_of_find?_eq_some hrow
  have hnumber := List.find?_some hrow
  rw [hturns] at hmem
  obtain ⟨old, -, rfl⟩ := List.mem_map.mp hmem
  simp only [stampTurn_turnNumber, decide_eq_true_eq] at hnumber
  rw [stampTurn, if_pos hnumber]

/-- Of the turns the catalog reads their drafts only. -/
theorem issueCatalog_congr {reports : List SynthesisReport} {turns turns' : List TurnRecord}
    (h : turns'.flatMap TurnRecord.newIssues = turns.flatMap TurnRecord.newIssues) :
    issueCatalog reports turns' = issueCatalog reports turns := by
  unfold issueCatalog catalogEntries
  rw [h]

/-- Where neither the old list nor the new one names a synthesis, the versions that a
retry collects stay. -/
theorem catalogReferences_stamp (h : Inv w) (hrow : turn ∈ w.turns id)
    (hnone : ∀ r ∈ turn.record.producedArtifacts, r.type ≠ .synthesis)
    {references : List ArtifactReference} (hnew : ∀ r ∈ references, r.type ≠ .synthesis)
    {w' : World}
    (hturns : w'.turns id = (w.turns id).map (stampTurn turn.record.turnNumber references))
    (reference : ArtifactReference) :
    catalogReferences (w'.history id) reference =
      catalogReferences (w.history id) reference := by
  have hsame : ∀ row ∈ w.turns id,
      (stampTurn turn.record.turnNumber references row).record.producedArtifacts.filter
          (fun r => decide (r.type = .synthesis)) =
        row.record.producedArtifacts.filter fun r => decide (r.type = .synthesis) := by
    intro row hmem
    unfold stampTurn
    split_ifs with hnumber
    · obtain rfl := h.turn_unique hmem hrow hnumber
      have hnil : ∀ rs : List ArtifactReference, (∀ r ∈ rs, r.type ≠ .synthesis) →
          rs.filter (fun r => decide (r.type = .synthesis)) = [] := by
        intro rs hrs
        simpa [List.filter_eq_nil_iff] using hrs
      rw [hnil _ hnew, hnil _ hnone]
    · rfl
  have hversions : versionReferences (w'.history id) = versionReferences (w.history id) := by
    simp only [versionReferences, World.history, hturns, List.flatMap_map, List.map_map,
      List.filter_flatMap]
    refine congrArg (fun l => (OrderedDict.empty.setDefaults _ _ l).values) ?_
    exact List.flatMap_congr hsame
  simp only [catalogReferences, hversions]

/-- In every reachable world: recording any attempts on the finalizing turn keeps its
artifacts, the lineage and the catalog exactly when the turn had produced no review and no
synthesis. -/
theorem record_keepsArtifacts_iff (h : Reachable w) (hturn : w.finalizingTurn id = some turn)
    {results : List FinalizationResult} (hne : results ≠ [])
    (htyped : ∀ result ∈ results, result.Typed) (cs : ℕ → Choice) :
    KeepsArtifacts w ((record id results).run cs w).2 id turn ↔
      ∀ r ∈ turn.record.producedArtifacts, ¬ r.Drafted := by
  obtain ⟨result, hresult, hturns⟩ :=
    turns_record (World.finalizingTurnNumber_eq hturn) hne cs
  have hnew := (htyped result hresult).not_drafted
  constructor
  · intro hkeeps r hr hdrafted
    obtain ⟨row, hrow, hmem⟩ := hkeeps.artifacts r hr hdrafted
    rw [mem_references_of_turnRow hturns hrow] at hmem
    exact hnew r hmem hdrafted
  · intro hnone
    have hlineage := catalogReferences_stamp h.inv (World.mem_of_finalizingTurn hturn)
      (fun r hr htype => hnone r hr (.inr (.inr htype)))
      (fun r hr htype => hnew r hr (.inr (.inr htype))) hturns
    have hissues : (World.history ((record id results).run cs w).2 id).flatMap
        TurnRecord.newIssues = (w.history id).flatMap TurnRecord.newIssues := by
      simp [World.history, hturns, List.flatMap_map]
    refine ⟨fun r hr hdrafted => absurd hdrafted (hnone r hr), hlineage, ?_⟩
    intro reference contents
    rw [hlineage, issueCatalog_congr hissues]

end Recordings

namespace Scenario

def delegating : Choice := environment fun request =>
  match request.invocationId with
  | .facilitatorSummary _ _ _ => closes
  | .facilitatorTurn _ _ n => if n = 1 then keepsOpen else consults

/-- A PO message whose turn delegates and then passes the gate. -/
def consult (key : IdempotencyKey) (crashAfter : Option ℕ) : Attempt :=
  attempt (.turn ⟨1⟩ ⟨some "Why?", false, rfl⟩) key (later delegating) crashAfter

/-- An accepted turn has produced nothing, so recording a review keeps all of it. -/
theorem record_keepsArtifacts_accepted : ∃ turn,
    (World.after {} [create, accept 2 (some 13)]).finalizingTurn ⟨1⟩ = some turn ∧
      KeepsArtifacts (World.after {} [create, accept 2 (some 13)])
        ((record ⟨1⟩ [⟨{ reviewReference .business with type := .finalizedReview }, []⟩]).run
          (fun _ => steady) (World.after {} [create, accept 2 (some 13)])).2 ⟨1⟩ turn := by
  have hbare : ((World.after {} [create, accept 2 (some 13)]).finalizingTurn ⟨1⟩).any
      (fun turn => decide (turn.record.producedArtifacts = [])) = true := by decide +kernel
  obtain ⟨turn, hturn, hnil⟩ := Option.any_eq_true _ _ |>.mp hbare
  refine ⟨turn, hturn, (record_keepsArtifacts_iff (reachable_after _) hturn (by simp)
    ?_ _).mpr ?_⟩
  · simp [FinalizationResult.Typed]
  · rw [of_decide_eq_true hnil]
    nofun

/-- The delegated turn is stored with its review and its synthesis; the next steps save,
render and record. -/
def drafted : World := World.after {} [create, consult 2 (some 37)]

def recorded : World := World.after {} [create, consult 2 (some 38)]

/-- The recording drops the turn's review and synthesis, and a retry no longer sees the
second synthesis version. -/
theorem recorded_drops : Reachable drafted ∧ Reachable recorded ∧
    (drafted.finalizingTurn ⟨1⟩).map (fun turn =>
      turn.record.producedArtifacts.map ArtifactReference.type) =
        some [.reviewBusiness, .synthesis] ∧
    (recorded.finalizingTurn ⟨1⟩).map (fun turn =>
      turn.record.producedArtifacts.map ArtifactReference.type) =
        some [.finalizedReview, .reportMd, .reportPdf] ∧
    (versionReferences (drafted.history ⟨1⟩)).length = 2 ∧
    (versionReferences (recorded.history ⟨1⟩)).length = 1 ∧
    ∀ turn, drafted.finalizingTurn ⟨1⟩ = some turn →
      ¬ KeepsArtifacts drafted recorded ⟨1⟩ turn := by
  have hversions : (versionReferences (drafted.history ⟨1⟩)).length = 2 := by decide +kernel
  have hversions' : (versionReferences (recorded.history ⟨1⟩)).length = 1 := by decide +kernel
  refine ⟨reachable_after _, reachable_after _, by decide +kernel, by decide +kernel,
    hversions, hversions', ?_⟩
  intro turn _ hkeeps
  have hlineage := hkeeps.lineage (reviewReference .business)
  have hne : ∀ {n : ℕ} {references : List ArtifactReference}, references.length = n + 1 →
      references ≠ [] := by
    rintro n references hlength rfl
    cases hlength
  rw [catalogReferences, catalogReferences, if_neg (hne hversions), if_neg (hne hversions')]
    at hlineage
  have hlength := congrArg List.length hlineage
  rw [hversions, hversions'] at hlength
  cases hlength

end Scenario
end StoryReview
