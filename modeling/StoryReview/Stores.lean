import Mathlib.Data.List.Sort
import Mathlib.Logic.Function.Basic
import Mathlib.Logic.Relation
import StoryReview.CrashProgram
import StoryReview.Errors

/-!
# The artifact and report stores

Both services keep their objects of one story run in a bucket, and every object
is created once under a generation-0 precondition. A service call is a program
over the run's objects with one step per object-store call, so that a crash can
fall between any two of them. A listing reads every listed object; these are
immutable, so it is one step.
-/
namespace StoryReview

/-- `runs/<run>/artifacts/<artifact_id>.json`. -/
structure ArtifactRecord where
  reference : ArtifactReference
  content : Content

/-- `runs/<run>/report-idem/<format>`. -/
structure ReportClaim where
  artifactId : ArtifactId
  finalReviewArtifactId : ArtifactId
  finalReviewChecksum : Checksum
deriving DecidableEq, Repr

/-- Rendering is a pure function of the review and the format, so rendered bytes
are represented by what they are rendered from. -/
structure Rendered where
  format : Format
  review : Canonical
deriving DecidableEq, Repr

def render (content : FinalizedReview) (format : Format) : Rendered :=
  ⟨format, modelDump content⟩

instance : ModelDump Format := ⟨fun x => .number x.ctorIdx⟩

instance : ModelDump Rendered where
  modelDump r := .object [modelDump r.format, r.review]

/-- `runs/<run>/reports/<artifact_id>.<ext>`. -/
structure ReportBytes where
  artifactId : ArtifactId
  ext : Format
  rendered : Rendered
deriving DecidableEq, Repr

/-- The objects of one story run, each kind under its own prefix. -/
structure RunObjects where
  idem : ArtifactType → IdempotencyKey → Option ArtifactId := fun _ _ => none
  records : List ArtifactRecord := []
  reportIdem : Format → Option ReportClaim := fun _ => none
  reportBytes : List ReportBytes := []
  reportMetas : List ArtifactReference := []

inductive StoreException where
  | artifactNotFound (message : Text)
  | idempotencyKeyReused (message : Text)
  | finalizedReviewNotFound (message : Text)
  | idempotencyConflict (message : Text)
  | valueError (message : Text)
  | preconditionFailed
deriving DecidableEq, Repr

abbrev StoreProgram := Program RunObjects Unit StoreException

namespace RunObjects

def record (o : RunObjects) (id : ArtifactId) : Option ArtifactRecord :=
  o.records.find? fun r => decide (r.reference.artifactId = id)

def reportMeta (o : RunObjects) (id : ArtifactId) : Option ArtifactReference :=
  o.reportMetas.find? fun r => decide (r.artifactId = id)

def setIdem (o : RunObjects) (type : ArtifactType) (key : IdempotencyKey)
    (id : ArtifactId) : RunObjects :=
  { o with idem := Function.update o.idem type (Function.update (o.idem type) key id) }

def addRecord (o : RunObjects) (r : ArtifactRecord) : RunObjects :=
  { o with records := o.records ++ [r] }

def setReportIdem (o : RunObjects) (format : Format) (claim : ReportClaim) : RunObjects :=
  { o with reportIdem := Function.update o.reportIdem format claim }

def addReportBytes (o : RunObjects) (b : ReportBytes) : RunObjects :=
  { o with reportBytes := o.reportBytes ++ [b] }

def addReportMeta (o : RunObjects) (r : ArtifactReference) : RunObjects :=
  { o with reportMetas := o.reportMetas ++ [r] }

/-- The artifact that a save under this type and key produced. -/
def recordUnder (o : RunObjects) (type : ArtifactType) (key : IdempotencyKey) :
    Option ArtifactRecord :=
  (o.idem type key).bind o.record

end RunObjects

/-- A store call that reads. -/
def storeRead {α : Type} (f : RunObjects → α) : StoreProgram α := .atomic fun _ o => (f o, o)

/-- `upload_from_string(…, if_generation_match=0)`: `taken` tells whether the
object exists, `put` creates it. The answer tells whether it was created. -/
def uploadNew (taken : RunObjects → Bool) (put : RunObjects → RunObjects) :
    StoreProgram Bool :=
  .atomic fun _ o => if taken o then (false, o) else (true, put o)

/-! ## Artifact service -/

/-- Exactly the models `SaveArtifactInput` accepts. -/
structure SaveArtifactInput where
  type : ArtifactType
  storyRunId : RunId
  perspective : Option Perspective
  content : Content
  idempotencyKey : IdempotencyKey
  type_matches_content : content.HasType type
  perspective_matches : perspective = type.expectedPerspective
  content_perspective_matches : content.HasPerspective type.expectedPerspective
  content_belongs_to_run : content.BelongsTo storyRunId

structure SaveArtifactOutput where
  reference : ArtifactReference
  created : Bool
deriving DecidableEq, Repr

namespace ArtifactService

/-- Point the key at its artifact: `none` when this call won the claim, else the
artifact id the key already points at. -/
def claimIdempotencyKey (request : SaveArtifactInput) (artifactId : ArtifactId) :
    StoreProgram (Option ArtifactId) := do
  let won ← uploadNew (fun o => (o.idem request.type request.idempotencyKey).isSome)
    (·.setIdem request.type request.idempotencyKey artifactId)
  if won then pure none
  else storeRead fun o => o.idem request.type request.idempotencyKey

def readRecord (run : RunId) (id : ArtifactId) : StoreProgram ArtifactRecord := do
  let found ← storeRead fun o => (o.record id).isSome
  let record ← storeRead fun o => o.record id
  match found, record with
  | true, some record => pure record
  | _, _ => .raise (.artifactNotFound s!"artifact {id.uuid} not found in run {run.key}")

def readOrNone (run : RunId) (id : ArtifactId) : StoreProgram (Option ArtifactRecord) :=
  Program.tryCatch (do let record ← readRecord run id; pure (some record)) fun
    | .artifactNotFound _ => pure none
    | e => .raise e

/-- `max(existing) + 1` for the `(type, perspective)` pair. -/
def nextVersion (references : List ArtifactReference) (type : ArtifactType)
    (perspective : Option Perspective) : ℕ :=
  ((references.filter fun r => decide (r.type = type ∧ r.perspective = perspective)).map
    ArtifactReference.version).foldr max 0 + 1

def newReference (request : SaveArtifactInput) (artifactId : ArtifactId)
    (checksum : Checksum) (now : Time) (references : List ArtifactReference) :
    ArtifactReference where
  artifactId := artifactId
  storyRunId := request.storyRunId
  type := request.type
  perspective := request.perspective
  version := nextVersion references request.type request.perspective
  createdAt := now
  contentType := request.type.contentType
  checksumSha256 := checksum

@[simp] theorem newReference_artifactId (request : SaveArtifactInput) (id : ArtifactId)
    (checksum : Checksum) (now : Time) (references : List ArtifactReference) :
    (newReference request id checksum now references).artifactId = id := rfl

def writeRecord (request : SaveArtifactInput) (reference : ArtifactReference) :
    StoreProgram Unit := do
  let created ← uploadNew (fun o => (o.record reference.artifactId).isSome)
    (·.addRecord ⟨reference, request.content⟩)
  if created then pure () else .raise .preconditionFailed

/-- Idempotent per `(run, type, idempotency_key)`. The key is claimed before the
record is written, so a crash between the two leaves a key whose record the
retry writes. -/
def save (request : SaveArtifactInput) (artifactId : ArtifactId) (now : Time) :
    StoreProgram SaveArtifactOutput := do
  let checksum := canonicalChecksum request.content
  let winner ← claimIdempotencyKey request artifactId
  let existing ← (match winner with
    | none => pure none
    | some winnerId => readOrNone request.storyRunId winnerId)
  match existing with
  | some existing =>
      if existing.reference.checksumSha256 = checksum then
        pure ⟨existing.reference, false⟩
      else
        .raise (.idempotencyKeyReused "idempotency key already used with different content")
  | none =>
      let references ← storeRead fun o => o.records.map ArtifactRecord.reference
      let reference :=
        newReference request (winner.getD artifactId) checksum now references
      writeRecord request reference
      pure ⟨reference, true⟩

/-- The record, when its content is the model its reference declares. -/
def get (run : RunId) (id : ArtifactId) : StoreProgram ArtifactRecord := do
  let record ← readRecord run id
  if record.content.HasType record.reference.type then pure record
  else .raise (.valueError "reference type does not match content model")

/-- `(type, perspective or "", version)`, compared as the strings are. -/
def sortKey (r : ArtifactReference) : ℕ × ℕ :=
  (match r.type, r.perspective with
    | .finalizedReview, _ => 0
    | .reportMd, _ => 1
    | .reportPdf, _ => 2
    | .reviewBusiness, none => 3
    | .reviewBusiness, some .business => 4
    | .reviewBusiness, some .engineering => 5
    | .reviewEngineering, none => 6
    | .reviewEngineering, some .business => 7
    | .reviewEngineering, some .engineering => 8
    | .story, _ => 9
    | .synthesis, _ => 10, r.version)

def sortLe (a b : ArtifactReference) : Prop :=
  (sortKey a).1 < (sortKey b).1 ∨
    (sortKey a).1 = (sortKey b).1 ∧ (sortKey a).2 ≤ (sortKey b).2

instance : DecidableRel sortLe := fun _ _ => inferInstanceAs (Decidable (_ ∨ _))

/-- The highest version of a reference's slot. -/
def latestVersion (references : List ArtifactReference) (r : ArtifactReference) : ℕ :=
  ((references.filter fun q =>
    decide (q.type = r.type ∧ q.perspective = r.perspective)).map
      ArtifactReference.version).foldr max 0

/-- One ordered page of the run's references, `is_latest` flagged. -/
def list (limit offset : ℕ) : StoreProgram (List ArtifactReference) := do
  let references ← storeRead fun o => o.records.map ArtifactRecord.reference
  let sorted := references.insertionSort sortLe
  let page := (sorted.drop offset).take limit
  pure (page.map fun r => { r with isLatest := decide (r.version = latestVersion sorted r) })

end ArtifactService

/-! ## Report service -/

structure RenderReportInput where
  storyRunId : RunId
  finalReviewReference : ArtifactReference
  format : Format
  validate_final_review_reference :
    finalReviewReference.storyRunId = storyRunId ∧
      finalReviewReference.type = .finalizedReview

structure RenderReportOutput where
  reference : ArtifactReference
  format : Format
  created : Bool
  format_matches_reference : reference.type = .report format
deriving DecidableEq, Repr

namespace ReportStore

/-- The finalized-review record, run-scoped and type-checked, with its content. -/
def readFinalizedReview (request : RenderReportInput) :
    StoreProgram (ArtifactRecord × FinalizedReview) := do
  let id := request.finalReviewReference.artifactId
  let found ← storeRead fun o => (o.record id).isSome
  let record ← storeRead fun o => o.record id
  match found, record with
  | true, some record =>
      if record.reference.type ≠ .finalizedReview then
        .raise (.finalizedReviewNotFound
          s!"artifact {id.uuid} in run {request.storyRunId.key} is not a finalized review")
      else if record.reference.checksumSha256 ≠
          request.finalReviewReference.checksumSha256 then
        .raise (.valueError
          "finalized-review reference checksum does not match the stored record")
      else
        match record.content with
        | .finalizedReview content => pure (record, content)
        | _ => .raise (.valueError "content is not a finalized review")
  | _, _ => .raise (.finalizedReviewNotFound
      (s!"finalized-review artifact {id.uuid} not found in run " ++
        s!"{request.storyRunId.key}"))

/-- Claim the `(run, format)` identity: `none` when this call won it. -/
def claim (request : RenderReportInput) (artifactId : ArtifactId)
    (record : ArtifactRecord) : StoreProgram (Option ReportClaim) := do
  let payload : ReportClaim := {
    artifactId := artifactId
    finalReviewArtifactId := request.finalReviewReference.artifactId
    finalReviewChecksum := record.reference.checksumSha256 }
  let won ← uploadNew (fun o => (o.reportIdem request.format).isSome)
    (·.setReportIdem request.format payload)
  if won then pure none
  else
    match ← storeRead fun o => o.reportIdem request.format with
    | some winner =>
        if winner.finalReviewArtifactId = request.finalReviewReference.artifactId ∧
            winner.finalReviewChecksum = record.reference.checksumSha256 then
          pure (some winner)
        else
          .raise (.idempotencyConflict
            (s!"report {request.format.wire} already rendered for run " ++
              s!"{request.storyRunId.key} from a different finalized review"))
    | none => .raise (.valueError "report claim unreadable")

def readMetaOrNone (id : ArtifactId) : StoreProgram (Option ArtifactReference) := do
  let found ← storeRead fun o => (o.reportMeta id).isSome
  if found then storeRead fun o => o.reportMeta id else pure none

def newReference (request : RenderReportInput) (artifactId : ArtifactId)
    (rendered : Rendered) (now : Time) (references : List ArtifactReference) :
    ArtifactReference where
  artifactId := artifactId
  storyRunId := request.storyRunId
  type := .report request.format
  perspective := none
  version := ((references.filter fun r => decide (r.type = .report request.format)).map
    ArtifactReference.version).foldr max 0 + 1
  createdAt := now
  contentType := (ArtifactType.report request.format).contentType
  checksumSha256 := modelDump rendered

/-- The bytes, then the reference; either may be left over from a crashed
attempt, and rendering is deterministic. -/
def writeReport (request : RenderReportInput) (reference : ArtifactReference)
    (rendered : Rendered) : StoreProgram Unit := do
  let bytes := fun o : RunObjects => o.reportBytes.find? fun b =>
    decide (b.artifactId = reference.artifactId ∧ b.ext = request.format)
  let created ← uploadNew (fun o => (bytes o).isSome)
    (·.addReportBytes ⟨reference.artifactId, request.format, rendered⟩)
  let same ← (if created then pure true
    else storeRead fun o =>
      (bytes o).any fun b => decide (modelDump b.rendered = reference.checksumSha256))
  if !same then .raise .preconditionFailed
  else
    let created ← uploadNew (fun o => (o.reportMeta reference.artifactId).isSome)
      (·.addReportMeta reference)
    let present ← (if created then pure true
      else storeRead fun o => (o.reportMeta reference.artifactId).isSome)
    if present then pure () else .raise .preconditionFailed

/-- Idempotent per `(story_run_id, format)`; the identity is pinned to one
finalized review. -/
def renderReport (request : RenderReportInput) (artifactId : ArtifactId) (now : Time) :
    StoreProgram RenderReportOutput := do
  let (record, content) ← readFinalizedReview request
  let rendered := render content request.format
  let winner ← claim request artifactId record
  let existing ← (match winner with
    | none => pure none
    | some winner => readMetaOrNone winner.artifactId)
  match existing with
  | some existing =>
      if h : existing.type = .report request.format then
        pure ⟨existing, request.format, false, h⟩
      else
        .raise (.valueError "report format does not match artifact reference")
  | none =>
      let references ← storeRead RunObjects.reportMetas
      let id := (winner.map ReportClaim.artifactId).getD artifactId
      let reference := newReference request id rendered now references
      writeReport request reference rendered
      pure ⟨reference, request.format, true, rfl⟩

end ReportStore

/-! ## What a store call can do -/

namespace RunObjects
variable (o : RunObjects)

@[simp] theorem setIdem_idem (t : ArtifactType) (k : IdempotencyKey) (id : ArtifactId)
    (t' : ArtifactType) (k' : IdempotencyKey) :
    (o.setIdem t k id).idem t' k' = if t = t' ∧ k = k' then some id else o.idem t' k' := by
  simp only [setIdem, Function.update_apply]
  by_cases ht : t' = t
  · subst ht
    simp only [if_true, Function.update_apply, true_and, eq_comm]
  · simp [ht, Ne.symm ht]

@[simp] theorem setIdem_records (t : ArtifactType) (k : IdempotencyKey) (id : ArtifactId) :
    (o.setIdem t k id).records = o.records := rfl

@[simp] theorem setIdem_record (t : ArtifactType) (k : IdempotencyKey) (id : ArtifactId) :
    (o.setIdem t k id).record = o.record := rfl

@[simp] theorem addRecord_idem (r : ArtifactRecord) : (o.addRecord r).idem = o.idem := rfl

@[simp] theorem addRecord_records (r : ArtifactRecord) :
    (o.addRecord r).records = o.records ++ [r] := rfl

theorem addRecord_record (r : ArtifactRecord) (id : ArtifactId) :
    (o.addRecord r).record id =
      (o.record id).or (if r.reference.artifactId = id then some r else none) := by
  simp only [record, addRecord, List.find?_append]
  congr 1
  by_cases h : r.reference.artifactId = id <;> simp [h]

@[simp] theorem setReportIdem_reportIdem (f f' : Format) (c : ReportClaim) :
    (o.setReportIdem f c).reportIdem f' = if f' = f then some c else o.reportIdem f' := by
  simp [setReportIdem, Function.update_apply]

@[simp] theorem setReportIdem_record (f : Format) (c : ReportClaim) :
    (o.setReportIdem f c).record = o.record := rfl

@[simp] theorem setReportIdem_reportMeta (f : Format) (c : ReportClaim) :
    (o.setReportIdem f c).reportMeta = o.reportMeta := rfl

@[simp] theorem setReportIdem_reportBytes (f : Format) (c : ReportClaim) :
    (o.setReportIdem f c).reportBytes = o.reportBytes := rfl

@[simp] theorem addReportBytes_record (b : ReportBytes) :
    (o.addReportBytes b).record = o.record := rfl

@[simp] theorem addReportBytes_reportIdem (b : ReportBytes) :
    (o.addReportBytes b).reportIdem = o.reportIdem := rfl

@[simp] theorem addReportBytes_reportMeta (b : ReportBytes) :
    (o.addReportBytes b).reportMeta = o.reportMeta := rfl

@[simp] theorem addReportMeta_record (m : ArtifactReference) :
    (o.addReportMeta m).record = o.record := rfl

@[simp] theorem addReportMeta_reportIdem (m : ArtifactReference) :
    (o.addReportMeta m).reportIdem = o.reportIdem := rfl

theorem addReportMeta_reportMeta (m : ArtifactReference) (id : ArtifactId) :
    (o.addReportMeta m).reportMeta id =
      (o.reportMeta id).or (if m.artifactId = id then some m else none) := by
  simp only [reportMeta, addReportMeta, List.find?_append]
  congr 1
  by_cases h : m.artifactId = id <;> simp [h]

theorem artifactId_of_record {o : RunObjects} {id : ArtifactId} {r : ArtifactRecord}
    (h : o.record id = some r) : r.reference.artifactId = id := by
  have hid := List.find?_some h
  exact of_decide_eq_true hid

theorem recordUnder_addRecord {o : RunObjects} {r : ArtifactRecord} {t : ArtifactType}
    {k : IdempotencyKey} (h : o.idem t k = some r.reference.artifactId)
    (hnew : o.record r.reference.artifactId = none) :
    (o.addRecord r).recordUnder t k = some r := by
  simp [recordUnder, h, addRecord_record, hnew]

theorem mem_records_of_record {o : RunObjects} {id : ArtifactId} {r : ArtifactRecord}
    (h : o.record id = some r) : r ∈ o.records :=
  List.mem_of_find?_eq_some h

theorem mem_records_of_recordUnder {o : RunObjects} {t : ArtifactType} {k : IdempotencyKey}
    {r : ArtifactRecord} (h : o.recordUnder t k = some r) : r ∈ o.records := by
  obtain ⟨_, _, hrec⟩ := Option.bind_eq_some_iff.mp h
  exact mem_records_of_record hrec

end RunObjects

/-- The environment of a store call answers nothing. -/
def silent : Unit → Prop := fun _ => True

theorem silent_answers (_ : ℕ) : silent () := trivial

section StoreRules
variable {I : RunObjects → Prop} {E : StoreException → RunObjects → Prop} {o : RunObjects}

@[simp] theorem wp_storeRead {α : Type} {Q : α → RunObjects → Prop} (f : RunObjects → α) :
    (storeRead f).wp silent I Q E o ↔ I o ∧ Q (f o) o := by
  simp [storeRead, silent]

theorem wp_uploadNew {Q : Bool → RunObjects → Prop} (taken : RunObjects → Bool)
    (put : RunObjects → RunObjects) :
    (uploadNew taken put).wp silent I Q E o ↔
      if taken o then I o ∧ Q false o else I (put o) ∧ Q true (put o) := by
  simp only [uploadNew, Program.wp_atomic, silent, forall_const]
  split_ifs with h <;> simp

theorem wp_readRecord {Q : ArtifactRecord → RunObjects → Prop} {run : RunId}
    {id : ArtifactId} (hI : I o) (hQ : ∀ r, o.record id = some r → Q r o)
    (hE : o.record id = none → ∀ m, E (.artifactNotFound m) o) :
    (ArtifactService.readRecord run id).wp silent I Q E o := by
  simp only [ArtifactService.readRecord, Program.bind_eq, Program.wp_bind, wp_storeRead]
  refine ⟨hI, hI, ?_⟩
  cases h : o.record id with
  | none => exact hE h _
  | some r => exact hQ r h

theorem wp_readOrNone {Q : Option ArtifactRecord → RunObjects → Prop} {run : RunId}
    {id : ArtifactId} (hI : I o) (hQ : Q (o.record id) o) :
    (ArtifactService.readOrNone run id).wp silent I Q E o := by
  simp only [ArtifactService.readOrNone, Program.wp_tryCatch, Program.bind_eq,
    Program.wp_bind]
  refine wp_readRecord hI (fun r hr => ?_) (fun hr m => ?_)
  · simpa [hr] using hQ
  · simpa [hr] using hQ

end StoreRules

/-- What one object-store call of a save can change. -/
inductive SaveStep (request : SaveArtifactInput) (id : ArtifactId) (now : Time) :
    RunObjects → RunObjects → Prop
  | claim (o : RunObjects) (h : o.idem request.type request.idempotencyKey = none) :
      SaveStep request id now o (o.setIdem request.type request.idempotencyKey id)
  | write (o : RunObjects) (winner : ArtifactId)
      (h : o.idem request.type request.idempotencyKey = some winner)
      (hnew : o.record winner = none) :
      SaveStep request id now o (o.addRecord
        ⟨ArtifactService.newReference request winner (canonicalChecksum request.content)
          now (o.records.map ArtifactRecord.reference), request.content⟩)

abbrev Saves (request : SaveArtifactInput) (id : ArtifactId) (now : Time) :
    RunObjects → RunObjects → Prop :=
  Relation.ReflTransGen (SaveStep request id now)

/-- A save answers with the reference stored under its key. With a fresh id it
fails exactly when the key's record holds other content. -/
theorem wp_save (request : SaveArtifactInput) (id : ArtifactId) (now : Time)
    (o : RunObjects) :
    (ArtifactService.save request id now).wp silent (Saves request id now o)
      (fun out o' => Saves request id now o o' ∧
        (∃ r, o'.recordUnder request.type request.idempotencyKey = some r ∧
          out.reference = r.reference ∧
          r.reference.checksumSha256 = canonicalChecksum request.content) ∧
        ∀ r, o.recordUnder request.type request.idempotencyKey = some r →
          r.reference.checksumSha256 = canonicalChecksum request.content)
      (fun e o' => Saves request id now o o' ∧ (o.record id = none →
        o' = o ∧ (∃ m, e = .idempotencyKeyReused m) ∧
        ∃ r, o.recordUnder request.type request.idempotencyKey = some r ∧
          r.reference.checksumSha256 ≠ canonicalChecksum request.content)) o := by
  simp only [ArtifactService.save, ArtifactService.claimIdempotencyKey,
    Program.bind_eq, Program.pure_eq, Program.wp_bind, wp_uploadNew]
  cases hidem : o.idem request.type request.idempotencyKey with
  | none =>
      have hclaim : Saves request id now o _ := .single (.claim o hidem)
      have hwin : (o.setIdem request.type request.idempotencyKey id).idem request.type
          request.idempotencyKey = some id := by simp
      simp only [Option.isSome_none, Bool.false_eq_true, if_false, if_true, Program.wp_ret,
        Program.wp_bind, wp_storeRead, ArtifactService.writeRecord, Program.bind_eq,
        Program.pure_eq, wp_uploadNew, ArtifactService.newReference_artifactId,
        Option.getD_none]
      refine ⟨hclaim, hclaim, ?_⟩
      have hsame : (o.setIdem request.type request.idempotencyKey id).record id =
          o.record id := rfl
      cases hrec : o.record id with
      | none =>
          rw [hrec] at hsame
          have hwrite := hclaim.tail (.write _ id hwin hsame)
          simp only [hsame, Option.isSome_none, Bool.false_eq_true, if_false]
          exact ⟨hwrite, hwrite, ⟨_, RunObjects.recordUnder_addRecord hwin hsame, rfl, rfl⟩,
            by simp [RunObjects.recordUnder, hidem]⟩
      | some r =>
          rw [hrec] at hsame
          simp only [hsame, Option.isSome_some, if_true, Program.wp_raise]
          exact ⟨hclaim, hclaim, by rintro ⟨⟩⟩
  | some winner =>
      simp only [Option.isSome_some, if_true, Bool.false_eq_true, if_false, wp_storeRead, hidem]
      refine ⟨.refl, .refl, wp_readOrNone .refl ?_⟩
      have hunder : o.recordUnder request.type request.idempotencyKey = o.record winner := by
        simp [RunObjects.recordUnder, hidem]
      cases hrec : o.record winner with
      | some r =>
          rw [hrec] at hunder
          dsimp only
          split_ifs with hsum
          · refine ⟨.refl, ⟨r, hunder, rfl, hsum⟩, fun r' hr' => ?_⟩
            rw [hunder, Option.some.injEq] at hr'
            exact hr' ▸ hsum
          · exact ⟨.refl, fun _ => ⟨rfl, ⟨_, rfl⟩, r, hunder, hsum⟩⟩
      | none =>
          have hwrite : Saves request id now o _ := .single (.write o winner hidem hrec)
          simp only [Program.wp_bind, wp_storeRead, ArtifactService.writeRecord,
            Program.bind_eq, wp_uploadNew, ArtifactService.newReference_artifactId, hrec,
            Option.getD_some, Option.isSome_none, Bool.false_eq_true, if_false,
            Program.wp_ret, if_true]
          exact ⟨.refl, hwrite, hwrite,
            ⟨_, RunObjects.recordUnder_addRecord hidem hrec, rfl, rfl⟩,
            by simp [hunder, hrec]⟩

/-- The finalized review that a render request names, as the store has it. -/
def RunObjects.finalizedReview (o : RunObjects) (reference : ArtifactReference) :
    Option FinalizedReview :=
  (o.record reference.artifactId).bind fun record =>
    if record.reference.type = .finalizedReview ∧
        record.reference.checksumSha256 = reference.checksumSha256 then
      match record.content with
      | .finalizedReview content => some content
      | _ => none
    else none

/-- What one object-store call of a render can change. -/
inductive RenderStep (request : RenderReportInput) (id : ArtifactId) (now : Time) :
    RunObjects → RunObjects → Prop
  | claim (o : RunObjects) (content : FinalizedReview)
      (hread : o.finalizedReview request.finalReviewReference = some content)
      (h : o.reportIdem request.format = none) :
      RenderStep request id now o (o.setReportIdem request.format
        ⟨id, request.finalReviewReference.artifactId,
          request.finalReviewReference.checksumSha256⟩)
  | bytes (o : RunObjects) (content : FinalizedReview) (c : ReportClaim)
      (hread : o.finalizedReview request.finalReviewReference = some content)
      (h : o.reportIdem request.format = some c)
      (hpin : c.finalReviewArtifactId = request.finalReviewReference.artifactId) :
      RenderStep request id now o
        (o.addReportBytes ⟨c.artifactId, request.format, render content request.format⟩)
  | finish (o : RunObjects) (content : FinalizedReview) (c : ReportClaim)
      (hread : o.finalizedReview request.finalReviewReference = some content)
      (h : o.reportIdem request.format = some c)
      (hpin : c.finalReviewArtifactId = request.finalReviewReference.artifactId)
      (hnew : o.reportMeta c.artifactId = none) :
      RenderStep request id now o (o.addReportMeta
        (ReportStore.newReference request c.artifactId (render content request.format) now
          o.reportMetas))

abbrev Renders (request : RenderReportInput) (id : ArtifactId) (now : Time) :
    RunObjects → RunObjects → Prop :=
  Relation.ReflTransGen (RenderStep request id now)

theorem wp_readFinalizedReview {I : RunObjects → Prop}
    {Q : ArtifactRecord × FinalizedReview → RunObjects → Prop}
    {E : StoreException → RunObjects → Prop} {o : RunObjects}
    {request : RenderReportInput} (hI : I o)
    (hQ : ∀ record content, o.finalizedReview request.finalReviewReference = some content →
      record.reference.checksumSha256 = request.finalReviewReference.checksumSha256 →
        Q (record, content) o)
    (hE : o.finalizedReview request.finalReviewReference = none → ∀ e, E e o) :
    (ReportStore.readFinalizedReview request).wp silent I Q E o := by
  simp only [ReportStore.readFinalizedReview, Program.bind_eq, Program.wp_bind, wp_storeRead]
  refine ⟨hI, hI, ?_⟩
  unfold RunObjects.finalizedReview at hQ hE
  cases h : o.record request.finalReviewReference.artifactId with
  | none => exact hE (by simp [h]) _
  | some record =>
      simp only [h, Option.bind_some] at hQ hE
      simp only [Option.isSome_some]
      split_ifs with htype hsum
      · exact hE (by simp [htype]) _
      · exact hE (by simp [hsum]) _
      · rw [not_not] at htype hsum
        simp only [htype, hsum, and_self, if_true] at hQ hE
        cases hc : record.content with
        | finalizedReview content => exact hQ record content (by simp [hc]) hsum
        | story s => exact hE (by simp [hc]) _
        | review r => exact hE (by simp [hc]) _
        | synthesis s => exact hE (by simp [hc]) _

theorem wp_writeReport {I : RunObjects → Prop} {Q : Unit → RunObjects → Prop}
    {E : StoreException → RunObjects → Prop} {o : RunObjects} (request : RenderReportInput)
    (id : ArtifactId) (now : Time) {content : FinalizedReview} {c : ReportClaim}
    (hread : o.finalizedReview request.finalReviewReference = some content)
    (hidem : o.reportIdem request.format = some c)
    (hpin : c.finalReviewArtifactId = request.finalReviewReference.artifactId)
    (hI : ∀ o', Renders request id now o o' → I o')
    (hQ : ∀ o', Renders request id now o o' → (o.reportMeta c.artifactId = none →
      o'.reportIdem request.format = some c ∧
      o'.reportMeta c.artifactId = some (ReportStore.newReference request c.artifactId
        (render content request.format) now o.reportMetas)) → Q () o')
    (hE : (∃ b ∈ o.reportBytes, b.artifactId = c.artifactId) → E .preconditionFailed o) :
    (ReportStore.writeReport request (ReportStore.newReference request c.artifactId
      (render content request.format) now o.reportMetas)
      (render content request.format)).wp silent I Q E o := by
  set reference := ReportStore.newReference request c.artifactId
    (render content request.format) now o.reportMetas
  have hid : reference.artifactId = c.artifactId := rfl
  have finish : ∀ o' : RunObjects, Renders request id now o o' →
      o'.reportIdem request.format = some c → o'.finalizedReview
        request.finalReviewReference = some content →
      o'.reportMetas = o.reportMetas →
      (Program.bind (uploadNew (fun o => (o.reportMeta reference.artifactId).isSome)
          (·.addReportMeta reference)) fun created =>
        Program.bind (if created = true then .ret true else storeRead fun o =>
          (o.reportMeta reference.artifactId).isSome) fun present =>
        if present = true then .ret () else .raise .preconditionFailed).wp silent I Q E o' := by
    intro o' ho' hidem' hread' hmetas
    have hmeta : o'.reportMeta c.artifactId = o.reportMeta c.artifactId := by
      simp only [RunObjects.reportMeta, hmetas]
    simp only [Program.wp_bind, wp_uploadNew, hid, hmeta]
    cases hm : o.reportMeta c.artifactId with
    | none =>
        have hfinish : RenderStep request id now o' _ :=
          .finish o' content c hread' hidem' hpin (hmeta.trans hm)
        rw [hmetas] at hfinish
        simp only [Option.isSome_none, Bool.false_eq_true, if_false, if_true, Program.wp_ret]
        refine ⟨hI _ (ho'.tail hfinish), hQ _ (ho'.tail hfinish) fun _ => ⟨hidem', ?_⟩⟩
        simp [RunObjects.addReportMeta_reportMeta, hmeta, hm, hid]
    | some m =>
        simp only [Option.isSome_some, if_true, Bool.false_eq_true, if_false, wp_storeRead,
          hmeta, hm, Program.wp_ret]
        exact ⟨hI _ ho', hI _ ho', hQ _ ho' fun h => by rw [hm] at h; cases h⟩
  simp only [ReportStore.writeReport, Program.bind_eq, Program.pure_eq]
  rw [Program.wp_bind, wp_uploadNew]
  simp only [hid]
  cases hfind : o.reportBytes.find? fun b =>
      decide (b.artifactId = c.artifactId ∧ b.ext = request.format) with
  | none =>
      have hbytes : Renders request id now o _ :=
        .single (.bytes o content c hread hidem hpin)
      simp only [Option.isSome_none, Bool.false_eq_true, if_false, if_true]
      rw [Program.wp_bind, Program.wp_ret]
      exact ⟨hI _ hbytes, finish _ hbytes hidem hread rfl⟩
  | some b =>
      simp only [Option.isSome_some, if_true, Bool.false_eq_true, if_false]
      rw [Program.wp_bind, wp_storeRead]
      refine ⟨hI o .refl, hI o .refl, ?_⟩
      split_ifs with hsame
      · have hb := List.find?_some hfind
        exact hE ⟨b, List.mem_of_find?_eq_some hfind, (of_decide_eq_true hb).1⟩
      · exact finish o .refl hidem hread rfl

/-- The id a call would give to a new report is not in use. -/
def RunObjects.ReportIdFree (o : RunObjects) (id : ArtifactId) : Prop :=
  (∀ b ∈ o.reportBytes, b.artifactId ≠ id) ∧ o.reportMeta id = none

/-- With a free id a render answers with the report stored for its format, pinned
to the requested review, and fails only when the format is taken or the review is
not readable. -/
theorem wp_renderReport (request : RenderReportInput) (id : ArtifactId) (now : Time)
    (o : RunObjects) :
    (ReportStore.renderReport request id now).wp silent (Renders request id now o)
      (fun out o' => Renders request id now o o' ∧ out.format = request.format ∧
        (o.ReportIdFree id → ∃ c, o'.reportIdem request.format = some c ∧
          c.finalReviewArtifactId = request.finalReviewReference.artifactId ∧
          o'.reportMeta c.artifactId = some out.reference))
      (fun _ o' => Renders request id now o o' ∧ (o.ReportIdFree id →
        ¬ ((o.finalizedReview request.finalReviewReference).isSome ∧
          o.reportIdem request.format = none))) o := by
  simp only [ReportStore.renderReport, Program.bind_eq, Program.pure_eq, Program.wp_bind]
  refine wp_readFinalizedReview .refl (fun record content hread hsum => ?_)
    (fun hnone e => ⟨.refl, by simp [hnone]⟩)
  simp only [ReportStore.claim, Program.bind_eq, Program.pure_eq, Program.wp_bind, wp_uploadNew]
  cases hidem : o.reportIdem request.format with
  | none =>
      have hclaim : Renders request id now o _ := .single (.claim o content hread hidem)
      simp only [Option.isSome_none, Bool.false_eq_true, if_false, if_true, Program.wp_ret,
        Program.wp_bind, wp_storeRead, hsum, Option.map_none, Option.getD_none]
      refine ⟨hclaim, hclaim, wp_writeReport request id now
        (c := ⟨id, request.finalReviewReference.artifactId,
          request.finalReviewReference.checksumSha256⟩) hread (by simp) rfl
        (fun o' h => hclaim.trans h) (fun o' h hm => ?_) (fun hb => ?_)⟩
      · refine ⟨hclaim.trans h, trivial, fun hfree => ?_⟩
        obtain ⟨hc, hm'⟩ := hm hfree.2
        exact ⟨_, hc, rfl, hm'⟩
      · obtain ⟨b, hb, hid⟩ := hb
        exact ⟨hclaim, fun hfree => absurd hid (hfree.1 b hb)⟩
  | some winner =>
      simp only [Option.isSome_some, if_true, Bool.false_eq_true, if_false, Program.wp_bind,
        wp_storeRead, hidem]
      refine ⟨.refl, .refl, ?_⟩
      split_ifs with hpin
      · simp only [Program.wp_ret, ReportStore.readMetaOrNone, Program.bind_eq,
          Program.wp_bind, wp_storeRead, Program.pure_eq]
        refine ⟨.refl, ?_⟩
        cases hm : o.reportMeta winner.artifactId with
        | some existing =>
            simp only [Option.isSome_some, if_true, wp_storeRead, hm]
            refine ⟨.refl, ?_⟩
            split_ifs with htype
            · exact ⟨.refl, rfl, fun _ => ⟨winner, hidem, hpin.1, hm⟩⟩
            · exact ⟨.refl, by simp⟩
        | none =>
            simp only [Option.isSome_none, Bool.false_eq_true, if_false, Program.wp_ret,
              Program.wp_bind, wp_storeRead, Option.map_some, Option.getD_some]
            refine ⟨.refl, wp_writeReport request id now (c := winner) hread hidem hpin.1
              (fun o' h => h) (fun o' h hm' => ?_) (fun _ => ⟨.refl, by simp⟩)⟩
            exact ⟨h, trivial, fun _ => ⟨winner, (hm' hm).1, hpin.1, (hm' hm).2⟩⟩
      · exact ⟨.refl, by simp⟩

theorem wp_get {I : RunObjects → Prop} {Q : ArtifactRecord → RunObjects → Prop}
    {E : StoreException → RunObjects → Prop} {o : RunObjects} {run : RunId} {id : ArtifactId}
    (hI : I o) (hQ : ∀ r, o.record id = some r → r.content.HasType r.reference.type → Q r o)
    (hE : ∀ e, (∀ r, o.record id = some r → ¬ r.content.HasType r.reference.type) → E e o) :
    (ArtifactService.get run id).wp silent I Q E o := by
  simp only [ArtifactService.get, Program.bind_eq, Program.wp_bind]
  refine wp_readRecord hI (fun r hr => ?_) (fun hr m => hE _ (by simp [hr]))
  split_ifs with htype
  · exact hQ r hr htype
  · exact hE _ fun r' hr' => (Option.some.inj (hr.symm.trans hr')) ▸ htype

/-- One page of the run's listing. -/
def RunObjects.listing (o : RunObjects) (limit offset : ℕ) : List ArtifactReference :=
  let sorted := (o.records.map ArtifactRecord.reference).insertionSort ArtifactService.sortLe
  ((sorted.drop offset).take limit).map fun r =>
    { r with isLatest := decide (r.version = ArtifactService.latestVersion sorted r) }

theorem wp_list {I : RunObjects → Prop} {Q : List ArtifactReference → RunObjects → Prop}
    {E : StoreException → RunObjects → Prop} {o : RunObjects} {limit offset : ℕ}
    (hI : I o) (hQ : Q (o.listing limit offset) o) :
    (ArtifactService.list limit offset).wp silent I Q E o := by
  simp only [ArtifactService.list, Program.bind_eq, Program.pure_eq, Program.wp_bind,
    wp_storeRead, Program.wp_ret]
  exact ⟨hI, hQ⟩

/-- The error a tool answers with. Only a report write conflict is retryable. -/
def artifactErrorFor (e : StoreException) (correlationId : Uuid) : ErrorBody :=
  let error := fun code message => ErrorBody.mk code message none correlationId false none rfl
  match e with
  | .artifactNotFound message => error .artifactNotFound message
  | .idempotencyKeyReused message => error .idempotencyKeyReused message
  | .valueError message => error .validationError message
  | .preconditionFailed => error .upstreamUnavailable
      "storage write conflict, retry the same idempotency key"
  | _ => error .upstreamUnavailable "unexpected internal error"

def reportErrorFor (e : StoreException) (correlationId : Uuid) : ErrorBody :=
  let error := fun code message => ErrorBody.mk code message none correlationId false none rfl
  match e with
  | .finalizedReviewNotFound message => error .artifactNotFound message
  | .idempotencyConflict message => error .idempotencyKeyReused message
  | .valueError message => error .validationError message
  | .preconditionFailed => .mk .upstreamUnavailable
      "storage write conflict, retry the same render" none correlationId true (some 30) rfl
  | _ => error .upstreamUnavailable "unexpected internal error"

end StoryReview
