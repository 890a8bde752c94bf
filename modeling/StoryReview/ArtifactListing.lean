import Mathlib.Data.Prod.Lex
import StoryReview.Scenarios
import StoryReview.StoreInvariants
import StoryReview.Windows

/-!
# Versions and listings of one run's artifacts

Saves that run one at a time number the artifacts of a slot, which is a type with
its perspective, from 1 without gaps in the order of writing. A listing sorts
what its filter lets through and flags the greatest version of each slot before
it cuts out a page, so that the pages of any width make up one list and agree on
the flags.
-/
namespace StoryReview
open Program Windows

/-! ## The filtered listing -/

/-- `ListArtifactsInput`. -/
structure ListArtifactsInput where
  storyRunId : RunId
  type : Option ArtifactType := none
  perspective : Option Perspective := none
  limit : ℕ := 100
  offset : ℕ := 0
  type_saveable : ∀ format, type ≠ some (.report format) := by decide
  limit_range : 1 ≤ limit ∧ limit ≤ 500 := by decide
  /-- A perspective filters review types only, and must agree with them. -/
  filters_are_compatible :
    ∀ t ∈ type, perspective = none ∨ perspective = t.expectedPerspective := by decide

/-- `ListArtifactsOutput`. -/
structure ListArtifactsOutput where
  items : List ArtifactReference := []
  total : ℕ
deriving DecidableEq, Repr

/-- Both filters let the reference through. -/
def ListArtifactsInput.Matches (request : ListArtifactsInput) (r : ArtifactReference) : Prop :=
  (request.type = none ∨ request.type = some r.type) ∧
    (request.perspective = none ∨ request.perspective = r.perspective)

instance (request : ListArtifactsInput) : DecidablePred request.Matches :=
  fun _ => inferInstanceAs (Decidable (_ ∧ _))

namespace ArtifactService

/-- One ordered page of the references that the filters let through, `is_latest`
flagged, with their total. -/
def listArtifacts (request : ListArtifactsInput) : StoreProgram ListArtifactsOutput := do
  let references ← storeRead fun o => o.records.map ArtifactRecord.reference
  let filtered := (references.filter fun r => request.Matches r).insertionSort sortLe
  let page := (filtered.drop request.offset).take request.limit
  pure ⟨page.map fun r => { r with isLatest := decide (r.version = latestVersion filtered r) },
    filtered.length⟩

end ArtifactService

namespace RunObjects
variable (o : RunObjects)

def references : List ArtifactReference := o.records.map ArtifactRecord.reference

/-- The stored versions of a slot, in order of writing. -/
def versions (type : ArtifactType) (perspective : Option Perspective) : List ℕ :=
  (o.references.filter fun r => decide (r.type = type ∧ r.perspective = perspective)).map
    ArtifactReference.version

/-- The references that a request lists, in the order of the listing. -/
def listed (request : ListArtifactsInput) : List ArtifactReference :=
  (o.references.filter fun r => request.Matches r).insertionSort ArtifactService.sortLe

/-- The reference as a listing shows it. -/
def flagged (r : ArtifactReference) : ArtifactReference :=
  { r with isLatest := decide (r.version = (o.versions r.type r.perspective).foldr max 0) }

end RunObjects

/-- One save call on a run, executed alone to its end or to a crash. -/
inductive SavedAlone (run : RunId) : RunObjects → RunObjects → Prop
  | served (request : SaveArtifactInput) (id : ArtifactId) (now : Time) (o : RunObjects)
      (hrun : request.storyRunId = run) :
      SavedAlone run o ((ArtifactService.save request id now).run (fun _ => ()) o).2
  | crashed (request : SaveArtifactInput) (id : ArtifactId) (now : Time) (o : RunObjects)
      (hrun : request.storyRunId = run) (n : ℕ) :
      SavedAlone run o ((ArtifactService.save request id now).crash (fun _ => ()) n o)

/-- Save calls one after the other, from the empty run. -/
abbrev SavedSerially (run : RunId) : RunObjects → Prop :=
  Relation.ReflTransGen (SavedAlone run) {}

/-! ## Numbering -/

/-- What serial saves keep: the versions of every slot count from 1, in order of
writing, and the stored references are flagged by no one. -/
structure RunObjects.Numbered (o : RunObjects) : Prop where
  versions : ∀ type perspective,
    o.versions type perspective = List.range' 1 (o.versions type perspective).length
  ids : (o.references.map ArtifactReference.artifactId).Nodup
  unflagged : ∀ r ∈ o.references, r.isLatest = false

section Numbering
variable {o o' : RunObjects} {request : SaveArtifactInput} {id : ArtifactId} {now : Time}

theorem nextVersion_eq (o : RunObjects) (type : ArtifactType) (perspective : Option Perspective) :
    ArtifactService.nextVersion o.references type perspective =
      (o.versions type perspective).foldr max 0 + 1 := rfl

theorem references_addRecord (r : ArtifactRecord) :
    (o.addRecord r).references = o.references ++ [r.reference] := by
  simp [RunObjects.references]

theorem versions_addRecord (r : ArtifactRecord) (type : ArtifactType)
    (perspective : Option Perspective) :
    (o.addRecord r).versions type perspective = o.versions type perspective ++
      if r.reference.type = type ∧ r.reference.perspective = perspective then
        [r.reference.version] else [] := by
  rw [RunObjects.versions, references_addRecord, List.filter_append, List.map_append]
  by_cases h : r.reference.type = type ∧ r.reference.perspective = perspective
  · simp [h, RunObjects.versions]
  · simp [h, RunObjects.versions]

theorem numbered_empty : ({} : RunObjects).Numbered := by
  constructor <;> simp [RunObjects.versions, RunObjects.references]

theorem RunObjects.Numbered.nextVersion (h : o.Numbered) (type : ArtifactType)
    (perspective : Option Perspective) :
    ArtifactService.nextVersion o.references type perspective =
      (o.versions type perspective).length + 1 := by
  rw [nextVersion_eq, h.versions, foldr_max_range', List.length_range']

theorem RunObjects.Numbered.addRecord {r : ArtifactRecord} (h : o.Numbered)
    (hversion : r.reference.version =
      (o.versions r.reference.type r.reference.perspective).length + 1)
    (hnew : o.record r.reference.artifactId = none) (hflag : r.reference.isLatest = false) :
    (o.addRecord r).Numbered where
  versions := by
    intro type perspective
    rw [versions_addRecord]
    split_ifs with hslot
    · obtain ⟨rfl, rfl⟩ := hslot
      rw [List.length_append, List.length_singleton, List.range'_concat, ← h.versions, hversion,
        Nat.one_mul, Nat.add_comm 1]
    · rw [List.append_nil]
      exact h.versions type perspective
  ids := by
    rw [references_addRecord, List.map_append, List.map_singleton]
    refine List.nodup_append.mpr ⟨h.ids, List.nodup_singleton _, ?_⟩
    intro i hi j hj hij
    obtain ⟨q, hq, rfl⟩ := List.mem_map.mp hi
    obtain ⟨record, hrecord, rfl⟩ := List.mem_map.mp hq
    rw [List.mem_singleton.mp hj] at hij
    exact absurd (decide_eq_true hij) (List.find?_eq_none.mp hnew record hrecord)
  unflagged := by
    intro q hq
    rw [references_addRecord] at hq
    rcases List.mem_append.mp hq with hq | hq
    · exact h.unflagged q hq
    · rw [List.mem_singleton.mp hq]
      exact hflag

/-- The step: a write continues the numbering of its slot and leaves the others. -/
theorem SaveStep.numbered (hstep : SaveStep request id now o o') (h : o.Numbered) :
    o'.Numbered := by
  cases hstep with
  | claim => exact ⟨h.versions, h.ids, h.unflagged⟩
  | write winner _ hnew => exact h.addRecord (h.nextVersion _ _) hnew rfl

theorem numbered_of_saves (hsaves : Saves request id now o o') (h : o.Numbered) :
    o'.Numbered := by
  induction hsaves with
  | refl => exact h
  | tail _ hstep ih => exact hstep.numbered ih

theorem SavedAlone.saves {run : RunId} (h : SavedAlone run o o') :
    ∃ request id now, request.storyRunId = run ∧ Saves request id now o o' := by
  cases h with
  | served request id now _ hrun =>
      exact ⟨request, id, now, hrun, wp_run_state (wp_save request id now o) .refl silent_answers⟩
  | crashed request id now _ hrun n =>
      exact ⟨request, id, now, hrun, wp_crash (wp_save request id now o) .refl silent_answers n⟩

/-- The run: whatever is saved, the numbering is kept. -/
theorem numbered_of_savedSerially {run : RunId} (h : SavedSerially run o) : o.Numbered := by
  induction h with
  | refl => exact numbered_empty
  | tail _ hcall ih =>
      obtain ⟨request, id, now, -, hsaves⟩ := hcall.saves
      exact numbered_of_saves hsaves ih

end Numbering

/-! ## Pages -/

section Pages
variable {o : RunObjects} {request : ListArtifactsInput} {r q : ArtifactReference}

theorem sortLe_iff : ArtifactService.sortLe r q ↔
    toLex (ArtifactService.sortKey r) ≤ toLex (ArtifactService.sortKey q) := by
  rw [Prod.Lex.toLex_le_toLex]
  rfl

theorem pairwise_sortLe (xs : List ArtifactReference) :
    (xs.insertionSort ArtifactService.sortLe).Pairwise ArtifactService.sortLe := by
  have htotal : Std.Total ArtifactService.sortLe := by
    constructor
    intro r q
    rw [sortLe_iff, sortLe_iff]
    exact le_total _ _
  have htrans : IsTrans ArtifactReference ArtifactService.sortLe := by
    constructor
    intro r q p hrq hqp
    rw [sortLe_iff] at hrq hqp ⊢
    exact hrq.trans hqp
  exact List.pairwise_insertionSort _ xs

theorem mem_listed : r ∈ o.listed request ↔ r ∈ o.references ∧ request.Matches r := by
  rw [RunObjects.listed, List.mem_insertionSort, List.mem_filter, decide_eq_true_eq]

/-- A filter lets a slot through as a whole, so it does not change its greatest version. -/
theorem latestVersion_listed (hr : request.Matches r) :
    ArtifactService.latestVersion (o.listed request) r =
      (o.versions r.type r.perspective).foldr max 0 := by
  have hperm : ((o.listed request).filter fun q =>
      decide (q.type = r.type ∧ q.perspective = r.perspective)).Perm
      (o.references.filter fun q => decide (q.type = r.type ∧ q.perspective = r.perspective)) := by
    refine ((List.perm_insertionSort _ _).filter _).trans ?_
    rw [List.filter_filter]
    refine List.Perm.of_eq (List.filter_congr fun q _ => ?_)
    rw [Bool.eq_iff_iff, Bool.and_eq_true, decide_eq_true_eq, decide_eq_true_eq, and_iff_left_iff_imp]
    rintro ⟨htype, hperspective⟩
    simpa only [ListArtifactsInput.Matches, htype, hperspective] using hr
  exact foldr_max_congr fun _ => (hperm.map ArtifactReference.version).mem_iff

/-- What the listing answers. -/
def RunObjects.answer (o : RunObjects) (request : ListArtifactsInput) : ListArtifactsOutput :=
  ⟨(((o.listed request).drop request.offset).take request.limit).map o.flagged,
    (o.listed request).length⟩

theorem run_listArtifacts (request : ListArtifactsInput) (cs : ℕ → Unit) (o : RunObjects) :
    (ArtifactService.listArtifacts request).run cs o = (.ok (o.answer request), o) := by
  have hflags : (((o.listed request).drop request.offset).take request.limit).map
      (fun r : ArtifactReference =>
        { r with
          isLatest := decide (r.version = ArtifactService.latestVersion (o.listed request) r) }) =
      (((o.listed request).drop request.offset).take request.limit).map o.flagged := by
    refine List.map_congr_left fun r hr => ?_
    have hmatches := (mem_listed.mp (List.mem_of_mem_drop (List.mem_of_mem_take hr))).2
    rw [latestVersion_listed hmatches, RunObjects.flagged]
  rw [RunObjects.answer, ← hflags]
  rfl

/-- The request for the `i`-th page of its width. -/
def ListArtifactsInput.page (request : ListArtifactsInput) (i : ℕ) : ListArtifactsInput :=
  { request with offset := i * request.limit }

/-- The items of the first `n` pages, one after the other. -/
def RunObjects.pages (o : RunObjects) (request : ListArtifactsInput) (n : ℕ) :
    List ArtifactReference :=
  (List.range n).flatMap fun i => (o.answer (request.page i)).items

theorem length_listed (o : RunObjects) (request : ListArtifactsInput) :
    (o.listed request).length = (o.references.filter fun r => request.Matches r).length :=
  (List.perm_insertionSort _ _).length_eq

theorem pages_eq {n : ℕ} (hn : (o.references.filter fun r => request.Matches r).length ≤
    n * request.limit) : o.pages request n = (o.listed request).map o.flagged := by
  have hwindows := flatMap_window_of_le (length_listed o request ▸ hn)
  calc o.pages request n
      = (List.range n).flatMap fun i =>
          (window (o.listed request) request.limit i).map o.flagged := rfl
    _ = ((List.range n).flatMap (window (o.listed request) request.limit)).map o.flagged :=
        List.map_flatMap.symm
    _ = (o.listed request).map o.flagged := by rw [hwindows]

/-- The reference has the greatest stored version of its slot. -/
def RunObjects.Latest (o : RunObjects) (r : ArtifactReference) : Prop :=
  ∀ q ∈ o.references, q.type = r.type → q.perspective = r.perspective → q.version ≤ r.version

theorem isLatest_flagged (hr : r ∈ o.references) :
    (o.flagged r).isLatest = true ↔ o.Latest r := by
  have hversion : r.version ∈ o.versions r.type r.perspective := by
    refine List.mem_map_of_mem (List.mem_filter.mpr ⟨hr, ?_⟩)
    simp
  rw [RunObjects.flagged, decide_eq_true_eq, eq_foldr_max_iff hversion]
  simp only [RunObjects.versions, List.mem_map, List.mem_filter, decide_eq_true_eq,
    RunObjects.Latest]
  constructor
  · intro h q hq htype hperspective
    exact h _ ⟨q, ⟨hq, htype, hperspective⟩, rfl⟩
  · rintro h _ ⟨q, ⟨hq, htype, hperspective⟩, rfl⟩
    exact h q hq htype hperspective

/-- In a numbered run a version names one reference of its slot. -/
theorem RunObjects.Numbered.eq_of_version (h : o.Numbered) (hr : r ∈ o.references)
    (hq : q ∈ o.references) (htype : q.type = r.type) (hperspective : q.perspective = r.perspective)
    (hversion : q.version = r.version) : q = r := by
  have hnodup : (o.versions r.type r.perspective).Nodup := by
    rw [h.versions]
    exact List.nodup_range'
  refine List.inj_on_of_nodup_map hnodup (List.mem_filter.mpr ⟨hq, ?_⟩)
    (List.mem_filter.mpr ⟨hr, ?_⟩) hversion
  · simp [htype, hperspective]
  · simp

theorem exists_latest (hr : r ∈ o.references) :
    ∃ q ∈ o.references, q.type = r.type ∧ q.perspective = r.perspective ∧ o.Latest q := by
  have hne : o.versions r.type r.perspective ≠ [] := by
    refine List.ne_nil_of_mem (List.mem_map_of_mem (List.mem_filter.mpr ⟨hr, ?_⟩))
    simp
  obtain ⟨q, hq, hmax⟩ := List.mem_map.mp (foldr_max_mem hne)
  obtain ⟨hstored, hslot⟩ := List.mem_filter.mp hq
  obtain ⟨htype, hperspective⟩ := of_decide_eq_true hslot
  refine ⟨q, hstored, htype, hperspective, fun p hp hptype hpperspective => ?_⟩
  rw [hmax]
  refine le_foldr_max (List.mem_map_of_mem (List.mem_filter.mpr ⟨hp, ?_⟩))
  simp [hptype, hpperspective, htype, hperspective]

/-- A list shows every matching artifact of the run once, in order, and flags the latest
of each slot. -/
structure ListsAll (o : RunObjects) (request : ListArtifactsInput)
    (items : List ArtifactReference) : Prop where
  complete : (items.map fun r => { r with isLatest := false }).Perm
    (o.references.filter fun r => request.Matches r)
  once : (items.map ArtifactReference.artifactId).Nodup
  ordered : items.Pairwise ArtifactService.sortLe
  latest : ∀ item ∈ items, item.isLatest = true ↔ o.Latest item
  flagged : ∀ item ∈ items, ∃! latest, latest ∈ items ∧ latest.type = item.type ∧
    latest.perspective = item.perspective ∧ latest.isLatest = true

theorem RunObjects.Numbered.listsAll (h : o.Numbered) (request : ListArtifactsInput) :
    ListsAll o request ((o.listed request).map o.flagged) where
  complete := by
    have hunflag : ((o.listed request).map o.flagged).map (fun r : ArtifactReference =>
        { r with isLatest := false }) = o.listed request := by
      rw [List.map_map]
      refine (List.map_congr_left fun r hr => ?_).trans (List.map_id _)
      have hflag := h.unflagged r (mem_listed.mp hr).1
      rw [Function.comp_apply, RunObjects.flagged, id_eq, ← hflag]
    rw [hunflag]
    exact List.perm_insertionSort _ _
  once := by
    rw [List.map_map]
    have hperm := (List.perm_insertionSort ArtifactService.sortLe
      (o.references.filter fun r => request.Matches r)).map ArtifactReference.artifactId
    refine hperm.nodup_iff.mpr (h.ids.sublist ?_)
    exact List.filter_sublist.map _
  ordered := by
    rw [List.pairwise_map]
    exact pairwise_sortLe _
  latest := by
    intro item hitem
    obtain ⟨r, hr, rfl⟩ := List.mem_map.mp hitem
    exact isLatest_flagged (mem_listed.mp hr).1
  flagged := by
    intro item hitem
    obtain ⟨r, hr, rfl⟩ := List.mem_map.mp hitem
    obtain ⟨hstored, hmatches⟩ := mem_listed.mp hr
    obtain ⟨q, hq, htype, hperspective, hlatest⟩ := exists_latest hstored
    have hqmatches : request.Matches q := by
      simpa only [ListArtifactsInput.Matches, htype, hperspective] using hmatches
    refine ⟨o.flagged q, ⟨List.mem_map_of_mem (mem_listed.mpr ⟨hq, hqmatches⟩), htype,
      hperspective, (isLatest_flagged hq).mpr hlatest⟩, ?_⟩
    rintro other ⟨hother, hotype, hoperspective, hoflag⟩
    obtain ⟨p, hp, rfl⟩ := List.mem_map.mp hother
    have hpstored := (mem_listed.mp hp).1
    have hplatest := (isLatest_flagged hpstored).mp hoflag
    have hsame : p.type = q.type ∧ p.perspective = q.perspective :=
      ⟨hotype.trans htype.symm, hoperspective.trans hperspective.symm⟩
    have hversion : p.version = q.version := le_antisymm
      (hlatest p hpstored hsame.1 hsame.2) (hplatest q hq hsame.1.symm hsame.2.symm)
    rw [h.eq_of_version hq hpstored hsame.1 hsame.2 hversion]

/-- After any saves executed one at a time the versions of every slot are 1 to n in order
of writing, and for every filter and page width the pages of the listing make up one
complete list with its total. -/
theorem savedSerially_listing {run : RunId} (h : SavedSerially run o) :
    (∀ type perspective,
      o.versions type perspective = List.range' 1 (o.versions type perspective).length) ∧
    (∀ request cs, (ArtifactService.listArtifacts request).run cs o =
      (.ok (o.answer request), o)) ∧
    ∀ request : ListArtifactsInput,
      (o.answer request).total = (o.references.filter fun r => request.Matches r).length ∧
      ∀ n, (o.answer request).total ≤ n * request.limit →
        ListsAll o request (o.pages request n) := by
  have hnumbered := numbered_of_savedSerially h
  refine ⟨hnumbered.versions, fun request cs => run_listArtifacts request cs o, fun request => ?_⟩
  have htotal : (o.answer request).total =
      (o.references.filter fun r => request.Matches r).length := length_listed o request
  refine ⟨htotal, fun n hn => ?_⟩
  rw [pages_eq (htotal ▸ hn)]
  exact hnumbered.listsAll request

end Pages

namespace Scenario

def businessSave (key : IdempotencyKey) : SaveArtifactInput where
  type := .reviewBusiness
  storyRunId := ⟨1⟩
  perspective := some .business
  content := .review (review .business)
  idempotencyKey := key
  type_matches_content := .inl rfl
  perspective_matches := rfl
  content_perspective_matches := rfl
  content_belongs_to_run := trivial

/-- A save, a crash between claim and record, and its retry. -/
theorem savedSerially_three : ∃ o, SavedSerially ⟨1⟩ o ∧ o.records.length = 2 ∧
    o.versions .reviewBusiness (some .business) = [1, 2] ∧
    ∀ request : ListArtifactsInput, (o.answer request).total ≤ 3 * request.limit →
      ListsAll o request (o.pages request 3) := by
  have h : SavedSerially ⟨1⟩ _ := ((Relation.ReflTransGen.single
    (.served (businessSave 1) ⟨1⟩ 0 {} rfl)).tail
    (.crashed (businessSave 2) ⟨2⟩ 0 _ rfl 1)).tail
    (.served (businessSave 2) ⟨3⟩ 0 _ rfl)
  exact ⟨_, h, rfl, rfl, fun request => ((savedSerially_listing h).2.2 request).2 3⟩

end Scenario
end StoryReview
