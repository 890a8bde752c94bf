import StoryReview.ArtifactListing
import StoryReview.Calls
import StoryReview.ListEdits
import StoryReview.Scenarios

/-!
# What the session lineage reads

The lineage of a session is the first page of the run's listing, 500 references
in the order of type, perspective and version, whatever their total. The latest
artifact of a slot is looked for on that page alone.
-/
namespace StoryReview
open Program Windows ListEdits

/-- The objects of a run after any object-store calls of saves and renders, in any
interleaving and with crashes anywhere. -/
inductive Written (run : RunId) : RunObjects → Prop
  | empty : Written run {}
  | save {o o' : RunObjects} (request : SaveArtifactInput) (id : ArtifactId) (now : Time)
      (hrun : request.storyRunId = run) (h : Written run o)
      (hstep : SaveStep request id now o o') : Written run o'
  | render {o o' : RunObjects} (request : RenderReportInput) (id : ArtifactId) (now : Time)
      (hrun : request.storyRunId = run) (h : Written run o)
      (hstep : RenderStep request id now o o') : Written run o'

/-- Whenever `list_run_artifacts` answers, `latest` finds in its answer a stored reference
of the slot's greatest version. -/
def World.ReadsLatest (w : World) (run : RunId) (type : ArtifactType)
    (perspective : Option Perspective) : Prop :=
  ∀ cs correlationId references w',
    (Lineage.listRunArtifacts run correlationId).run cs w = (.ok references, w') →
      ∃ r ∈ (w.objects run).references,
        Lineage.latest references type perspective correlationId =
            .ok ((w.objects run).flagged r) ∧
          r.type = type ∧ r.perspective = perspective ∧ (w.objects run).Latest r

/-- The reference stands before `r` in a listing. -/
def SortsBefore (r q : ArtifactReference) : Prop :=
  toLex (ArtifactService.sortKey q) < toLex (ArtifactService.sortKey r)

instance (r : ArtifactReference) : DecidablePred (SortsBefore r) :=
  fun _ => inferInstanceAs (Decidable (_ < _))

namespace RunObjects

/-- Every stored reference has the perspective of its type. -/
def Proper (o : RunObjects) : Prop :=
  ∀ r ∈ o.references, r.perspective = r.type.expectedPerspective

end RunObjects

section Reads
variable {run : RunId} {o o' : RunObjects} {r q : ArtifactReference}

theorem SaveStep.proper {request : SaveArtifactInput} {id : ArtifactId} {now : Time}
    (hstep : SaveStep request id now o o') (h : o.Proper) : o'.Proper := by
  cases hstep with
  | claim => exact h
  | write winner =>
      intro r hr
      rw [references_addRecord] at hr
      rcases List.mem_append.mp hr with hr | hr
      · exact h r hr
      · rw [List.mem_singleton.mp hr]
        exact request.perspective_matches

theorem Written.proper (h : Written run o) : o.Proper := by
  induction h with
  | empty => exact fun _ hr => nomatch hr
  | save _ _ _ _ _ hstep ih => exact hstep.proper ih
  | render _ _ _ _ _ hstep ih =>
      cases hstep with
      | claim => exact ih
      | bytes => exact ih
      | finish => exact ih

theorem RunObjects.Sound.proper {fresh : Uuid} {clock : Time} (h : o.Sound run fresh clock) :
    o.Proper := by
  intro r hr
  obtain ⟨record, hrecord, rfl⟩ := List.mem_map.mp hr
  exact (h.records_typed record hrecord).2.2.1

/-- Two proper references of one rank are of one slot. -/
theorem slot_of_rank (hr : r.perspective = r.type.expectedPerspective)
    (hq : q.perspective = q.type.expectedPerspective)
    (h : (ArtifactService.sortKey q).1 = (ArtifactService.sortKey r).1) :
    q.type = r.type ∧ q.perspective = r.perspective := by
  have htype : q.type = r.type := by
    simp only [ArtifactService.sortKey, hr, hq] at h
    revert h
    cases q.type <;> cases r.type <;> decide
  exact ⟨htype, by rw [hq, hr, htype]⟩

theorem sortKey_eq_iff (hr : r.perspective = r.type.expectedPerspective)
    (hq : q.perspective = q.type.expectedPerspective) :
    toLex (ArtifactService.sortKey q) = toLex (ArtifactService.sortKey r) ↔
      (q.type = r.type ∧ q.perspective = r.perspective) ∧ q.version = r.version := by
  constructor
  · intro h
    obtain ⟨hrank, hversion⟩ := Prod.mk.inj (toLex.injective h)
    exact ⟨slot_of_rank hr hq hrank, hversion⟩
  · rintro ⟨⟨htype, hperspective⟩, hversion⟩
    simp only [ArtifactService.sortKey, htype, hperspective, hversion]

/-! ## The maximum -/

theorem maxVersion_eq_foldl (references : List ArtifactReference) :
    Lineage.maxVersion references =
      ((references.map fun r => (r, r.version)).foldl better none).map Prod.fst := by
  induction references using List.reverseRecOn with
  | nil => rfl
  | append_singleton references r ih =>
      have hbest : ∀ {b : ArtifactReference × ℕ},
          (references.map fun r => (r, r.version)).foldl better none = some b →
            b.2 = b.1.version := fun h => (firstMax_of_foldl_better h).2
      rw [Lineage.maxVersion, List.foldl_append, ← Lineage.maxVersion, ih, List.map_append,
        List.foldl_append]
      cases h : (references.map fun r => (r, r.version)).foldl better none with
      | none => rfl
      | some b =>
          simp only [List.foldl_cons, List.foldl_nil, List.map_cons, List.map_nil, better,
            Option.map_some, hbest h]
          split_ifs <;> rfl

theorem maxVersion_eq_some_iff {references : List ArtifactReference} :
    Lineage.maxVersion references = some r ↔ FirstMax ArtifactReference.version references r := by
  rw [maxVersion_eq_foldl, Option.map_eq_some_iff]
  constructor
  · rintro ⟨b, hb, rfl⟩
    exact (firstMax_of_foldl_better hb).1
  · intro h
    exact ⟨(r, r.version), foldl_better_eq_some_iff.mpr ⟨h, rfl⟩, rfl⟩

theorem exists_maxVersion {references : List ArtifactReference} (h : references ≠ []) :
    ∃ r ∈ references, Lineage.maxVersion references = some r ∧
      ∀ q ∈ references, q.version ≤ r.version := by
  cases hmax : Lineage.maxVersion references with
  | none =>
      rw [maxVersion_eq_foldl, Option.map_eq_none_iff, foldl_better_eq_none] at hmax
      exact absurd hmax h
  | some r =>
      have hfirst := maxVersion_eq_some_iff.mp hmax
      exact ⟨r, hfirst.mem, rfl, fun q hq => hfirst.le hq⟩

/-! ## The page -/

/-- The page of the lineage: the first 500 references in the order of the listing. -/
def RunObjects.firstPage (o : RunObjects) : List ArtifactReference :=
  (o.references.insertionSort ArtifactService.sortLe).take 500

theorem listing_eq (o : RunObjects) : o.listing 500 0 = o.firstPage.map o.flagged := by
  refine List.map_congr_left fun r _ => ?_
  have hperm := (List.perm_insertionSort ArtifactService.sortLe o.references).filter fun q =>
    decide (q.type = r.type ∧ q.perspective = r.perspective)
  have hversion : ArtifactService.latestVersion
      (o.references.insertionSort ArtifactService.sortLe) r =
        (o.versions r.type r.perspective).foldr max 0 :=
    foldr_max_congr fun _ => (hperm.map ArtifactReference.version).mem_iff
  rw [RunObjects.flagged, ← hversion]
  rfl

theorem mem_references_of_firstPage (h : r ∈ o.firstPage) : r ∈ o.references :=
  (List.mem_insertionSort _).mp (List.mem_of_mem_take h)

/-- The references of a slot that the page shows. -/
def RunObjects.shown (o : RunObjects) (type : ArtifactType) (perspective : Option Perspective) :
    List ArtifactReference :=
  o.firstPage.filter fun r => decide (r.type = type ∧ r.perspective = perspective)

theorem mem_shown {type : ArtifactType} {perspective : Option Perspective} :
    r ∈ o.shown type perspective ↔
      r ∈ o.firstPage ∧ r.type = type ∧ r.perspective = perspective := by
  rw [RunObjects.shown, List.mem_filter, decide_eq_true_eq]

theorem latest_listing (type : ArtifactType) (perspective : Option Perspective)
    (correlationId : Uuid) :
    Lineage.latest (o.listing 500 0) type perspective correlationId =
      match Lineage.maxVersion ((o.shown type perspective).map o.flagged) with
      | some reference => .ok reference
      | none => .error (Flows.upstream
          s!"missing {type.wire} artifact in the session lineage" correlationId) := by
  rw [Lineage.latest, listing_eq, List.filter_map]
  rfl

/-- The page shows the latest reference of a slot exactly when fewer than 500 stand
before it. -/
theorem exists_shown_iff (hproper : o.Proper) (hr : r ∈ o.references) :
    (∃ q ∈ o.shown r.type r.perspective, q.version = r.version) ↔
      (o.references.filter fun q => SortsBefore r q).length < 500 := by
  have hsorted : (o.references.insertionSort ArtifactService.sortLe).Pairwise fun a b =>
      toLex (ArtifactService.sortKey a) ≤ toLex (ArtifactService.sortKey b) :=
    (pairwise_sortLe o.references).imp fun h => sortLe_iff.mp h
  have hcount := ((List.perm_insertionSort ArtifactService.sortLe o.references).filter
    fun q => SortsBefore r q).length_eq
  have hpage := exists_mem_take_iff hsorted
    ⟨r, (List.mem_insertionSort _).mpr hr, rfl⟩ 500
  rw [← hcount]
  refine Iff.trans ⟨?_, ?_⟩ hpage
  · rintro ⟨q, hq, hversion⟩
    obtain ⟨hshown, hslot⟩ := mem_shown.mp hq
    have hstored := mem_references_of_firstPage hshown
    exact ⟨q, hshown, (sortKey_eq_iff (hproper r hr) (hproper q hstored)).mpr ⟨hslot, hversion⟩⟩
  · rintro ⟨q, hq, hkey⟩
    have hstored := mem_references_of_firstPage hq
    obtain ⟨hslot, hversion⟩ := (sortKey_eq_iff (hproper r hr) (hproper q hstored)).mp hkey
    exact ⟨q, mem_shown.mpr ⟨hq, hslot⟩, hversion⟩

/-! ## The read -/

theorem listed_of_run {w w' : World} {cs : ℕ → Choice} {correlationId : Uuid}
    {references : List ArtifactReference}
    (h : (Lineage.listRunArtifacts run correlationId).run cs w = (.ok references, w')) :
    references = (w.objects run).listing 500 0 := by
  have hyields : (Lineage.listRunArtifacts run correlationId).Yields (Set.range cs)
      (fun b _ => b = (w.objects run).listing 500 0) w := yields_listRunArtifacts run correlationId
  have hanswer := wp_run hyields (Set.mem_range_self (f := cs))
  rw [h] at hanswer
  exact hanswer

theorem run_listRunArtifacts (w : World) (run : RunId) (correlationId : Uuid) :
    ∃ w', (Lineage.listRunArtifacts run correlationId).run (fun _ => Scenario.steady) w =
      (.ok ((w.objects run).listing 500 0), w') := ⟨_, rfl⟩

theorem readsLatest_iff {w : World} (hproper : (w.objects run).Proper)
    (hr : r ∈ (w.objects run).references) (hlatest : (w.objects run).Latest r) :
    w.ReadsLatest run r.type r.perspective ↔
      ((w.objects run).references.filter fun q => SortsBefore r q).length < 500 := by
  rw [← exists_shown_iff hproper hr]
  constructor
  · intro h
    obtain ⟨w', hrun⟩ := run_listRunArtifacts w run 0
    obtain ⟨q, hq, hread, htype, hperspective, hmax⟩ := h _ 0 _ w' hrun
    rw [latest_listing] at hread
    split at hread
    · next reference hfound =>
        obtain ⟨p, hp, hsame⟩ := List.mem_map.mp (maxVersion_eq_some_iff.mp hfound).mem
        have hversion : p.version = q.version := by
          have hflag : (w.objects run).flagged p = (w.objects run).flagged q :=
            hsame.trans (Except.ok.inj hread)
          show ((w.objects run).flagged p).version = ((w.objects run).flagged q).version
          rw [hflag]
        refine ⟨p, hp, hversion.trans (le_antisymm ?_ ?_)⟩
        · exact hlatest q hq htype hperspective
        · exact hmax r hr htype.symm hperspective.symm
    · cases hread
  · rintro ⟨q, hq, hversion⟩ cs correlationId references w' hrun
    have hne : ((w.objects run).shown r.type r.perspective).map (w.objects run).flagged ≠ [] :=
      List.ne_nil_of_mem (List.mem_map_of_mem hq)
    obtain ⟨top, htop, hmax, hle⟩ := exists_maxVersion hne
    obtain ⟨p, hp, rfl⟩ := List.mem_map.mp htop
    obtain ⟨hshown, htype, hperspective⟩ := mem_shown.mp hp
    have hbound : q.version ≤ p.version :=
      hle ((w.objects run).flagged q) (List.mem_map_of_mem hq)
    refine ⟨p, mem_references_of_firstPage hshown, ?_, htype, hperspective, ?_⟩
    · rw [listed_of_run hrun, latest_listing, hmax]
    · intro s hs hstype hsperspective
      have hsmall := hlatest s hs (hstype.trans htype) (hsperspective.trans hperspective)
      exact hsmall.trans (hversion ▸ hbound)

/-- Whatever has been saved, the lineage reads the latest artifact of a slot exactly when
fewer than 500 of the run's references sort before it. -/
theorem written_readsLatest_iff {w : World} (h : Written run (w.objects run))
    (hr : r ∈ (w.objects run).references) (hlatest : (w.objects run).Latest r) :
    w.ReadsLatest run r.type r.perspective ↔
      ((w.objects run).references.filter fun q => SortsBefore r q).length < 500 :=
  readsLatest_iff h.proper hr hlatest

/-- So it is in every reachable world. -/
theorem Inv.readsLatest_iff {w : World} (h : Inv w) (hr : r ∈ (w.objects run).references)
    (hlatest : (w.objects run).Latest r) :
    w.ReadsLatest run r.type r.perspective ↔
      ((w.objects run).references.filter fun q => SortsBefore r q).length < 500 :=
  StoryReview.readsLatest_iff (h.objects run).proper hr hlatest

theorem Written.saves {request : SaveArtifactInput} {id : ArtifactId} {now : Time}
    (h : Written run o) (hrun : request.storyRunId = run) (hsaves : Saves request id now o o') :
    Written run o' := by
  induction hsaves with
  | refl => exact h
  | tail _ hstep ih => exact ih.save request id now hrun hstep

theorem written_of_savedSerially (h : SavedSerially run o) : Written run o := by
  induction h with
  | refl => exact .empty
  | tail _ hcall ih =>
      obtain ⟨request, id, now, hrun, hsaves⟩ := hcall.saves
      exact ih.saves hrun hsaves

end Reads

/-! ## A crowded run -/

namespace Scenario

def storySave : SaveArtifactInput where
  type := .story
  storyRunId := ⟨1⟩
  perspective := none
  content := .story (story "story-01")
  idempotencyKey := 0
  type_matches_content := rfl
  perspective_matches := rfl
  content_perspective_matches := trivial
  content_belongs_to_run := trivial

/-- A story, and then the reviews of `n` attempts. -/
def crowded : ℕ → RunObjects
  | 0 => ((ArtifactService.save storySave ⟨0⟩ 0).run (fun _ => ()) {}).2
  | n + 1 =>
      ((ArtifactService.save (businessSave (n + 1)) ⟨n + 1⟩ 0).run (fun _ => ()) (crowded n)).2

theorem savedSerially_crowded (n : ℕ) : SavedSerially ⟨1⟩ (crowded n) := by
  induction n with
  | zero => exact .single (.served storySave ⟨0⟩ 0 {} rfl)
  | succ n ih => exact ih.tail (.served (businessSave (n + 1)) ⟨n + 1⟩ 0 _ rfl)

/-- A save under a new key and a new id writes its record. -/
theorem run_save_new {request : SaveArtifactInput} {id : ArtifactId} {now : Time}
    {o : RunObjects} (hkey : o.idem request.type request.idempotencyKey = none)
    (hid : o.record id = none) :
    ((ArtifactService.save request id now).run (fun _ => ()) o).2 =
      (o.setIdem request.type request.idempotencyKey id).addRecord
        ⟨ArtifactService.newReference request id (canonicalChecksum request.content) now
          o.references, request.content⟩ := by
  simp [ArtifactService.save, ArtifactService.claimIdempotencyKey, ArtifactService.writeRecord,
    uploadNew, storeRead, Program.run, Program.bind, Program.atomic, hkey, hid, RunObjects.references]

/-- What the crowded run holds: the story, and `n` business reviews. -/
structure Crowd (n : ℕ) (o : RunObjects) : Prop where
  keys : ∀ key, n < key → o.idem .reviewBusiness key = none
  ids : ∀ id, n < id → o.record ⟨id⟩ = none
  references : ∃ story reviews, o.references = story :: reviews ∧ reviews.length = n ∧
    story.type = .story ∧ story.perspective = none ∧
    ∀ q ∈ reviews, q.type = .reviewBusiness ∧ q.perspective = some .business

theorem crowd_crowded (n : ℕ) : Crowd n (crowded n) := by
  induction n with
  | zero =>
      rw [crowded, run_save_new rfl rfl]
      constructor
      · exact fun key _ => rfl
      · intro id hid
        have hne : (⟨0⟩ : ArtifactId) ≠ ⟨id⟩ := fun h => hid.ne (ArtifactId.mk.inj h)
        simp [RunObjects.addRecord_record, hne]
        rfl
      · exact ⟨_, [], rfl, rfl, rfl, rfl, nofun⟩
  | succ n ih =>
      have hkey := ih.keys (n + 1) n.lt_succ_self
      have hid := ih.ids (n + 1) n.lt_succ_self
      rw [crowded, run_save_new hkey hid]
      constructor
      · intro key hlt
        have hne : n + 1 ≠ key := hlt.ne
        simpa [businessSave, hne] using ih.keys key (n.lt_succ_self.trans hlt)
      · intro id hlt
        have hne : (⟨n + 1⟩ : ArtifactId) ≠ ⟨id⟩ := fun h => hlt.ne (ArtifactId.mk.inj h)
        simpa [RunObjects.addRecord_record, hne] using ih.ids id (n.lt_succ_self.trans hlt)
      · obtain ⟨story, reviews, hrefs, hlength, htype, hperspective, hreviews⟩ := ih.references
        rw [references_addRecord]
        refine ⟨story, _, congrArg (· ++ [_]) hrefs, ?_, htype, hperspective, ?_⟩
        · exact List.length_append.trans (congrArg (· + 1) hlength)
        · intro q hq
          rcases List.mem_append.mp hq with hq | hq
          · exact hreviews q hq
          · rw [List.mem_singleton.mp hq]
            exact ⟨rfl, rfl⟩

/-- The world with the crowded run. -/
def crowdedWorld (n : ℕ) : World := World.setObjects {} ⟨1⟩ (crowded n)

theorem objects_crowdedWorld (n : ℕ) : (crowdedWorld n).objects ⟨1⟩ = crowded n := by
  simp [crowdedWorld, World.setObjects]

theorem written_crowdedWorld (n : ℕ) : Written ⟨1⟩ ((crowdedWorld n).objects ⟨1⟩) := by
  rw [objects_crowdedWorld]
  exact written_of_savedSerially (savedSerially_crowded n)

/-- The story is the only one of its slot, and the reviews sort before it. -/
theorem crowdedWorld_story (n : ℕ) : ∃ story ∈ ((crowdedWorld n).objects ⟨1⟩).references,
    story.type = .story ∧ story.perspective = none ∧
      ((crowdedWorld n).objects ⟨1⟩).Latest story ∧
      (((crowdedWorld n).objects ⟨1⟩).references.filter fun q => SortsBefore story q).length = n := by
  rw [objects_crowdedWorld]
  obtain ⟨story, reviews, hrefs, hlength, htype, hperspective, hreviews⟩ :=
    (crowd_crowded n).references
  have hbefore : ∀ q ∈ reviews, SortsBefore story q := by
    intro q hq
    refine Prod.Lex.toLex_lt_toLex.mpr (.inl ?_)
    simp [ArtifactService.sortKey, (hreviews q hq).1, (hreviews q hq).2, htype]
  have hself : ¬ SortsBefore story story := lt_irrefl _
  refine ⟨story, ?_, htype, hperspective, ?_, ?_⟩
  · rw [hrefs]
    exact List.mem_cons_self
  · intro q hq hqtype _
    rw [hrefs] at hq
    rcases List.mem_cons.mp hq with rfl | hq
    · exact le_rfl
    · rw [(hreviews q hq).1, htype] at hqtype
      cases hqtype
  · rw [hrefs, List.filter_cons_of_neg (by simpa using hself),
      List.filter_eq_self.mpr fun q hq => decide_eq_true (hbefore q hq), hlength]

/-- A run with a story and a review reads its story. -/
theorem smallRun_readsStory : (crowdedWorld 1).ReadsLatest ⟨1⟩ .story none := by
  obtain ⟨story, hstory, htype, hperspective, hlatest, hcount⟩ := crowdedWorld_story 1
  rw [← htype, ← hperspective]
  exact (written_readsLatest_iff (written_crowdedWorld 1) hstory hlatest).mpr
    (hcount.trans_lt (by decide))

/-- Once 500 reviews sort before it, the one stored story is not read. -/
theorem crowdedWorld_missesStory {n : ℕ} (hn : 500 ≤ n) :
    ¬ (crowdedWorld n).ReadsLatest ⟨1⟩ .story none := by
  obtain ⟨story, hstory, htype, hperspective, hlatest, hcount⟩ := crowdedWorld_story n
  rw [← htype, ← hperspective,
    readsLatest_iff (written_crowdedWorld n).proper hstory hlatest, hcount]
  exact not_lt.mpr hn

/-- The lineage of a run with 501 artifacts, saved one at a time, misses its story. -/
theorem crowdedRun_missesStory :
    Written ⟨1⟩ ((crowdedWorld 500).objects ⟨1⟩) ∧
      (∃ r ∈ ((crowdedWorld 500).objects ⟨1⟩).references,
        r.type = .story ∧ r.perspective = none) ∧
      ¬ (crowdedWorld 500).ReadsLatest ⟨1⟩ .story none := by
  obtain ⟨story, hstory, htype, hperspective, -⟩ := crowdedWorld_story 500
  exact ⟨written_crowdedWorld 500, ⟨story, hstory, htype, hperspective⟩,
    crowdedWorld_missesStory le_rfl⟩

end Scenario
end StoryReview
