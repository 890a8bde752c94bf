import StoryReview.Interleaving
import StoryReview.Scenarios

/-!
# Artifact saves under interleaving

Any number of saves of one run, each object-store call one step of the pool. A save
claims its key, and writes the record the key points at when there is none; a loser of
the claim adopts a key whose record is missing. No two saves draw the same artifact id.
-/
namespace StoryReview.ArtifactService
open Program

structure SaveCall where
  request : SaveArtifactInput
  artifactId : ArtifactId
  now : Time

namespace SaveCall

abbrev type (call : SaveCall) : ArtifactType := call.request.type

abbrev key (call : SaveCall) : IdempotencyKey := call.request.idempotencyKey

def checksum (call : SaveCall) : Checksum := canonicalChecksum call.request.content

/-- The record stored under the call's key. -/
def stored (call : SaveCall) (o : RunObjects) : Option ArtifactRecord :=
  o.recordUnder call.type call.key

end SaveCall

abbrev Trace := List (RunObjects × RunObjects)

def saves : System SaveCall Trace RunObjects Unit StoreException SaveArtifactOutput :=
  .tracing fun call => save call.request call.artifactId call.now

abbrev SavePool := Pool SaveCall Trace RunObjects Unit StoreException SaveArtifactOutput

abbrev SaveThread := Thread SaveCall Trace RunObjects Unit StoreException SaveArtifactOutput

def Distinct (call call' : SaveCall) : Prop := call.artifactId ≠ call'.artifactId

/-- Calls of the kind `P` start, each with an artifact id that is in use nowhere. -/
def freshIds (P : SaveCall → Prop) :
    Discipline SaveCall Trace RunObjects Unit StoreException SaveArtifactOutput where
  starts := fun o running call => P call ∧ (∀ t k, o.idem t k ≠ some call.artifactId) ∧
    ∀ thread ∈ running, Distinct call thread.origin
  moves := fun _ _ _ => True

/-! ## What one object-store call does -/

inductive SaveEffect (call : SaveCall) (o : RunObjects) : RunObjects → Prop
  | read : SaveEffect call o o
  | claim (h : o.idem call.type call.key = none)
      (hfree : ∀ t k, o.idem t k ≠ some call.artifactId) :
      SaveEffect call o (o.setIdem call.type call.key call.artifactId)
  | write {reference : ArtifactReference}
      (h : o.idem call.type call.key = some reference.artifactId)
      (hnew : o.record reference.artifactId = none) (htype : reference.type = call.type)
      (hsum : reference.checksumSha256 = call.checksum) :
      SaveEffect call o (o.addRecord ⟨reference, call.request.content⟩)

theorem SaveEffect.grows {call : SaveCall} {o o' : RunObjects} (h : SaveEffect call o o') :
    o.Grows o' := by
  cases h with
  | read => exact .refl o
  | claim h hfree => exact RunObjects.grows_setIdem h _
  | write h hnew htype hsum => exact RunObjects.grows_addRecord o _

/-- Keys point at different artifacts, and every record is the one of a call's key, with
that call's checksum. -/
structure Filed (P : SaveCall → Prop) (o : RunObjects) : Prop where
  injective : ∀ t k t' k' id, o.idem t k = some id → o.idem t' k' = some id →
    t = t' ∧ k = k'
  written : ∀ r ∈ o.records, ∃ call, P call ∧ call.stored o = some r ∧
    r.reference.type = call.type ∧ r.reference.checksumSha256 = call.checksum

theorem filed_empty (P : SaveCall → Prop) : Filed P {} where
  injective := by
    intro t k t' k' id h
    cases h
  written := by
    intro r hr
    cases hr

theorem SaveEffect.filed {P : SaveCall → Prop} {call : SaveCall} {o o' : RunObjects}
    (h : SaveEffect call o o') (hcall : P call) (ho : Filed P o) : Filed P o' := by
  have hgrows := h.grows
  have hold : ∀ r ∈ o.records, ∃ call, P call ∧ call.stored o' = some r ∧
      r.reference.type = call.type ∧ r.reference.checksumSha256 = call.checksum := by
    intro r hr
    obtain ⟨call', hcall', hstored, hrest⟩ := ho.written r hr
    exact ⟨call', hcall', hgrows.recordUnder hstored, hrest⟩
  cases h with
  | read => exact ho
  | claim h hfree =>
      refine ⟨fun t k t' k' id hid hid' => ?_, hold⟩
      rw [RunObjects.setIdem_idem] at hid hid'
      split_ifs at hid hid' with htk htk' htk'
      · exact ⟨htk.1.symm.trans htk'.1, htk.2.symm.trans htk'.2⟩
      · exact absurd (hid'.trans hid.symm) (hfree t' k')
      · exact absurd (hid.trans hid'.symm) (hfree t k)
      · exact ho.injective t k t' k' id hid hid'
  | write h hnew htype hsum =>
      refine ⟨ho.injective, fun r hr => ?_⟩
      rcases List.mem_append.mp hr with hr | hr
      · exact hold r hr
      · rw [List.mem_singleton.mp hr]
        exact ⟨call, hcall, RunObjects.recordUnder_addRecord h hnew, htype, hsum⟩

/-! ## Each save keeps the contract -/

/-- The save has won the claim, or looked for the record and found none. -/
def Missed (call : SaveCall) (g : Trace) : Prop :=
  (∃ first, g.getLast? = some first ∧ first.1.idem call.type call.key = none) ∨
    ∃ seen, g.reverse[2]? = some seen ∧ call.stored seen.1 = none

/-- Another save has written the record that this one is going to write. -/
def Overtaken (call : SaveCall) (g : Trace) (o : RunObjects) : Prop :=
  Missed call g ∧ (call.stored o).isSome

/-- How a save may end, given the objects around its calls. -/
inductive Ends (call : SaveCall) (o : RunObjects) :
    Trace → Except StoreException SaveArtifactOutput → Prop
  | saved {r : ArtifactRecord} {out : SaveArtifactOutput} {last : RunObjects × RunObjects}
      {g : Trace} (hstored : call.stored o = some r) (hout : out.reference = r.reference)
      (hsum : r.reference.checksumSha256 = call.checksum)
      (hfirst : ¬ Overtaken call g last.1) : Ends call o (last :: g) (.ok out)
  | reused {r : ArtifactRecord} {message : Text} {g : Trace}
      (hstored : call.stored o = some r)
      (hsum : r.reference.checksumSha256 ≠ call.checksum) :
      Ends call o g (.error (.idempotencyKeyReused message))
  | conflict {last : RunObjects × RunObjects} {g : Trace}
      (hovertaken : Overtaken call g last.1) :
      Ends call o (last :: g) (.error .preconditionFailed)

/-- No one else claims a key for the call's id, and nothing stored is lost. -/
structure Rely (call : SaveCall) (o o' : RunObjects) : Prop where
  grows : o.Grows o'
  own : ∀ t k, o'.idem t k = some call.artifactId → o.idem t k = some call.artifactId

theorem Rely.refl (call : SaveCall) (o : RunObjects) : Rely call o o :=
  ⟨.refl o, fun _ _ h => h⟩

theorem Rely.trans {call : SaveCall} {o o' o'' : RunObjects} (h : Rely call o o')
    (h' : Rely call o' o'') : Rely call o o'' :=
  ⟨h.grows.trans h'.grows, fun t k hid => h.own t k (h'.own t k hid)⟩

def contract (P : SaveCall → Prop) :
    Contract SaveCall Trace RunObjects StoreException SaveArtifactOutput where
  inv := Filed P
  rely := fun call _ => Rely call
  guar := fun call _ o o' => P call ∧ SaveEffect call o o'
  post := fun call g r o => Ends call o g r

abbrev Keeps (call : SaveCall) {α : Type} (p : StoreProgram α)
    (Q : α → Trace → RunObjects → Prop) (E : StoreException → Trace → RunObjects → Prop)
    (g : Trace) (o : RunObjects) : Prop :=
  p.rg (fun _ => True) (fun g o o' => (o, o') :: g) (fun _ => Rely call)
    (fun _ => SaveEffect call) Q E g o

section Keeps
variable {call : SaveCall} {α : Type} {Q : α → Trace → RunObjects → Prop}
variable {E : StoreException → Trace → RunObjects → Prop} {g : Trace} {o : RunObjects}

theorem keeps_storeRead {f : RunObjects → α}
    (h : ∀ t, Rely call o t → Q (f t) ((t, t) :: g) t) : Keeps call (storeRead f) Q E g o :=
  fun _ t _ ht => ⟨.read, h t ht⟩

theorem keeps_uploadNew {Q : Bool → Trace → RunObjects → Prop} {taken : RunObjects → Bool}
    {put : RunObjects → RunObjects}
    (htaken : ∀ t, Rely call o t → taken t = true → Q false ((t, t) :: g) t)
    (hput : ∀ t, Rely call o t → taken t = false →
      SaveEffect call t (put t) ∧ Q true ((t, put t) :: g) (put t)) :
    Keeps call (uploadNew taken put) Q E g o := by
  refine (rg_atomic _).mpr fun c t _ ht => ?_
  cases h : taken t with
  | true => exact ⟨.read, htaken t ht h⟩
  | false => exact hput t ht h

/-- The record is written under the id its key points at. -/
theorem keeps_writeRecord {reference : ArtifactReference}
    (hid : o.idem call.type call.key = some reference.artifactId)
    (htype : reference.type = call.type) (hsum : reference.checksumSha256 = call.checksum)
    (hmissed : Missed call g) (created : Bool) :
    Keeps call (writeRecord call.request reference)
      (fun _ g o => Ends call o g (.ok ⟨reference, created⟩))
      (fun e g o => Ends call o g (.error e)) g o := by
  simp only [writeRecord, Keeps, Program.bind_eq, Program.pure_eq, rg_bind]
  refine keeps_uploadNew (fun t ht htaken => ?_) fun t ht hfree => ?_
  · have hstored : call.stored t = t.record reference.artifactId := by
      simp [SaveCall.stored, RunObjects.recordUnder, ht.grows.idem _ _ _ hid]
    exact Ends.conflict ⟨hmissed, hstored ▸ htaken⟩
  · have hid' := ht.grows.idem _ _ _ hid
    have hnew : t.record reference.artifactId = none := by simpa using hfree
    have hstored : call.stored t = none := by
      simp [SaveCall.stored, RunObjects.recordUnder, hid', hnew]
    refine ⟨.write hid' hnew htype hsum,
      Ends.saved (RunObjects.recordUnder_addRecord hid' hnew) rfl hsum fun h => ?_⟩
    have hsome := h.2
    rw [hstored] at hsome
    cases hsome

/-- The record under an id that may have been written in between the two reads. -/
theorem keeps_readOrNone {run : RunId} {id : ArtifactId}
    {Q : Option ArtifactRecord → Trace → RunObjects → Prop}
    (hfound : ∀ t u r, Rely call o t → Rely call t u → t.record id = some r →
      Q (some r) ((u, u) :: (t, t) :: g) u)
    (hmissing : ∀ t u, Rely call o t → Rely call t u → t.record id = none →
      Q none ((u, u) :: (t, t) :: g) u) :
    Keeps call (readOrNone run id) Q E g o := by
  simp only [readOrNone, readRecord, Keeps, Program.bind_eq, Program.pure_eq, rg_tryCatch,
    rg_bind]
  refine keeps_storeRead fun t ht => keeps_storeRead fun u hu => ?_
  cases hrecord : t.record id with
  | none => exact hmissing t u ht hu hrecord
  | some r =>
      rw [hu.grows.record id r hrecord]
      exact hfound t u r ht hu hrecord

end Keeps

theorem keeps_save (call : SaveCall) {o : RunObjects}
    (hfree : ∀ t k, o.idem t k ≠ some call.artifactId) :
    Keeps call (save call.request call.artifactId call.now)
      (fun out g o => Ends call o g (.ok out)) (fun e g o => Ends call o g (.error e)) [] o := by
  simp only [save, claimIdempotencyKey, Keeps, Program.bind_eq, Program.pure_eq, rg_bind]
  refine keeps_uploadNew (fun t ht htaken => ?_) fun t ht hopen => ?_
  · -- the claim is lost
    obtain ⟨winner, hwinner⟩ := Option.isSome_iff_exists.mp htaken
    have hlost : ∀ g : Trace, ¬ ∃ first, (g ++ [(t, t)]).getLast? = some first ∧
        first.1.idem call.type call.key = none := by
      rintro g ⟨first, hfirst, hnone⟩
      rw [List.getLast?_concat, Option.some_inj] at hfirst
      subst hfirst
      rw [hwinner] at hnone
      cases hnone
    simp only [Bool.false_eq_true, if_false]
    refine keeps_storeRead fun u hu => ?_
    rw [hu.grows.idem _ _ _ hwinner]
    dsimp only
    refine keeps_readOrNone (fun v w r hv hw hrecord => ?_) fun v w hv hw hrecord => ?_
    · -- the winner's record is there
      have hstored : call.stored v = some r := by
        simp [SaveCall.stored, RunObjects.recordUnder,
          hv.grows.idem _ _ _ (hu.grows.idem _ _ _ hwinner), hrecord]
      have hstored' : call.stored w = some r := hw.grows.recordUnder hstored
      dsimp only
      split_ifs with hsum
      · refine Ends.saved hstored' rfl hsum fun h => ?_
        rcases h.1 with hfirst | ⟨seen, hseen, hnone⟩
        · exact hlost [(v, v), (u, u)] hfirst
        · cases hseen
          rw [hstored] at hnone
          cases hnone
      · exact Ends.reused hstored' hsum
    · -- the winner has not written it yet
      have hwon : ∀ x, Rely call w x → x.idem call.type call.key = some winner := fun x hx =>
        hx.grows.idem _ _ _ (hw.grows.idem _ _ _
          (hv.grows.idem _ _ _ (hu.grows.idem _ _ _ hwinner)))
      have hstored : call.stored v = none := by
        simp [SaveCall.stored, RunObjects.recordUnder,
          hv.grows.idem _ _ _ (hu.grows.idem _ _ _ hwinner), hrecord]
      simp only [rg_bind]
      refine keeps_storeRead fun x hx => ?_
      exact keeps_writeRecord (hwon x hx) rfl rfl (.inr ⟨(v, v), rfl, hstored⟩) true
  · -- the claim is won
    have hnone : t.idem call.type call.key = none := by simpa using hopen
    refine ⟨.claim hnone fun t' k' hid => hfree t' k' (ht.own t' k' hid), ?_⟩
    simp only [if_true, rg_ret, rg_bind]
    refine keeps_storeRead fun u hu => ?_
    have hwon : u.idem call.type call.key = some call.artifactId :=
      hu.grows.idem _ _ _ (by simp)
    exact keeps_writeRecord hwon rfl rfl (.inl ⟨_, rfl, hnone⟩) true

theorem contract_sound (P : SaveCall → Prop) :
    (contract P).Sound saves ((freshIds P).apart Distinct) where
  rely_refl := fun call _ o _ => .refl call o
  rely_trans := fun _ _ _ _ _ h h' => h.trans h'
  starts := fun o running call _ hstart =>
    rg_weaken (keeps_save call hstart.2.1) fun _ _ _ h => ⟨hstart.1, h⟩
  inv := fun _ _ _ _ ho _ h => h.2.filed h.1 ho
  compatible := by
    intro o others thread o' _ hmoves h other hother
    refine ⟨h.2.grows, fun t k hid => ?_⟩
    cases h.2 with
    | read => exact hid
    | claim hnone hfree =>
        rw [RunObjects.setIdem_idem] at hid
        split_ifs at hid with htk
        · exact absurd (Option.some_inj.mp hid) (hmoves.2 other hother)
        · exact hid
    | write => exact hid
  post := by
    intro o others thread o' _ _ h call g r hpost
    have hgrows := h.2.grows
    cases hpost with
    | saved hstored hout hsum hfirst =>
        exact .saved (hgrows.recordUnder hstored) hout hsum hfirst
    | reused hstored hsum => exact .reused (hgrows.recordUnder hstored) hsum
    | conflict hovertaken => exact .conflict hovertaken

/-! ## Runs -/

theorem distinct_of_starts {P : SaveCall → Prop} {o : RunObjects} {running : List SaveThread}
    {call : SaveCall} (h : (freshIds P).starts o running call) :
    ∀ thread ∈ running, Distinct call thread.origin := h.2.2

theorem reachable_apart {P : SaveCall → Prop} {pool : SavePool}
    (h : pool.Reachable saves (freshIds P) {}) :
    pool.Reachable saves ((freshIds P).apart Distinct) {} ∧
      (pool.running.map Thread.origin).Pairwise Distinct :=
  h.apart (fun _ _ => Ne.symm) fun _ _ _ => distinct_of_starts

theorem holds_of_reachable {P : SaveCall → Prop} {pool : SavePool}
    (h : pool.Reachable saves (freshIds P) {}) : (contract P).Holds saves pool :=
  (contract_sound P).holds (filed_empty P) (reachable_apart h).1

theorem step_apart {P : SaveCall → Prop} {mover : Option SaveThread} {pool pool' : SavePool}
    (h : pool.Reachable saves (freshIds P) {})
    (hstep : Pool.Step saves (freshIds P) mover pool pool') :
    Pool.Step saves ((freshIds P).apart Distinct) mover pool pool' :=
  (hstep.apart (fun _ _ => Ne.symm) (fun _ _ _ => distinct_of_starts) (reachable_apart h).2).1

theorem Filed.stored_unique {P : SaveCall → Prop} {o : RunObjects} (ho : Filed P o)
    {r : ArtifactRecord} (hr : r ∈ o.records) :
    ∃! key, o.recordUnder r.reference.type key = some r := by
  obtain ⟨call, -, hstored, htype, -⟩ := ho.written r hr
  refine ⟨call.key, htype ▸ hstored, fun key hkey => ?_⟩
  obtain ⟨id, hid, hrecord⟩ := Option.bind_eq_some_iff.mp hkey
  obtain ⟨id', hid', hrecord'⟩ := Option.bind_eq_some_iff.mp hstored
  obtain rfl : id = id' := (RunObjects.artifactId_of_record hrecord).symm.trans
    (RunObjects.artifactId_of_record hrecord')
  exact (ho.injective _ _ _ _ id hid hid').2

/-- The saves of one run. -/
def InRun (run : RunId) (call : SaveCall) : Prop := call.request.storyRunId = run

/-- However the saves of a run interleave and crash: each record is stored under one key
and never changes, a save that returns has the reference of the record stored under its
key with its own checksum, and where the stored checksum is another no save returns. -/
theorem saves_agree {run : RunId} {pool : SavePool}
    (h : pool.Reachable saves (freshIds (InRun run)) {}) :
    (∀ r ∈ pool.state.records, ∃! key, pool.state.recordUnder r.reference.type key = some r) ∧
      (∀ call out, (call, .ok out) ∈ pool.ended → ∃ r, call.stored pool.state = some r ∧
        out.reference = r.reference ∧ r.reference.checksumSha256 = call.checksum) ∧
      (∀ mover pool', Pool.Step saves (freshIds (InRun run)) mover pool pool' →
        ∀ type key r, pool.state.recordUnder type key = some r →
          pool'.state.recordUnder type key = some r) ∧
      ∀ call r out, call.stored pool.state = some r →
        r.reference.checksumSha256 ≠ call.checksum → (call, .ok out) ∉ pool.ended := by
  have hholds := holds_of_reachable h
  have hanswers : ∀ call out, (call, .ok out) ∈ pool.ended →
      ∃ r, call.stored pool.state = some r ∧ out.reference = r.reference ∧
        r.reference.checksumSha256 = call.checksum := by
    intro call out hout
    obtain ⟨g, hends⟩ := hholds.ended hout
    generalize hr : (Except.ok out : Except StoreException SaveArtifactOutput) = r at hends
    cases hends with
    | saved hstored hreference hsum =>
        cases hr
        exact ⟨_, hstored, hreference, hsum⟩
    | reused => cases hr
    | conflict => cases hr
  refine ⟨fun r hr => hholds.inv.stored_unique hr, hanswers,
    fun mover pool' hstep type key r hstored => ?_, fun call r out hstored hsum hout => ?_⟩
  · cases mover with
    | none => exact hstep.state_eq ▸ hstored
    | some thread =>
        have heffect := (hholds.guarantee (contract_sound _) (step_apart h hstep)).2.2.2
        exact heffect.grows.recordUnder hstored
  · obtain ⟨r', hstored', -, hsum'⟩ := hanswers call out hout
    obtain rfl := Option.some_inj.mp (hstored.symm.trans hstored')
    exact hsum hsum'

/-- The attempts to save one content under one key. -/
structure AttemptAt (run : RunId) (type : ArtifactType) (key : IdempotencyKey)
    (checksum : Checksum) (call : SaveCall) : Prop where
  run : call.request.storyRunId = run
  type : call.type = type
  key : call.key = key
  checksum : call.checksum = checksum

/-- The attempt returned the stored reference, or may be retried. -/
def Accepted (call : SaveCall) (o : RunObjects) (r : Except StoreException SaveArtifactOutput) :
    Prop :=
  (∃ out stored, r = .ok out ∧ call.stored o = some stored ∧
    out.reference = stored.reference) ∨
  ∃ e, r = .error e ∧ ∀ correlationId, (artifactErrorFor e correlationId).retryable = true

/-- An attempt returns the stored reference or a retryable error exactly when no other
attempt has written the record that it found missing. -/
theorem attempts_accepted_iff {run : RunId} {type : ArtifactType} {key : IdempotencyKey}
    {checksum : Checksum} {pool : SavePool}
    (h : pool.Reachable saves (freshIds (AttemptAt run type key checksum)) {})
    {mover : Option SaveThread} {pool' : SavePool}
    (hstep : Pool.Step saves (freshIds (AttemptAt run type key checksum)) mover pool pool') :
    ∃ new : Option (SaveCall × Except StoreException SaveArtifactOutput),
      pool'.ended.Subperm (new.toList ++ pool.ended) ∧
      ∀ call r, new = some (call, r) → ∃ thread, mover = some thread ∧ thread.origin = call ∧
        (Accepted call pool'.state r ↔ ¬ Overtaken call thread.aux pool.state) := by
  have hholds := holds_of_reachable h
  have hapart := step_apart h hstep
  obtain ⟨new, hsub, hnew⟩ :=
    hholds.newlyEnded (contract_sound _) (fun _ => rfl) hapart
  refine ⟨new, hsub, fun call r heq => ?_⟩
  obtain ⟨thread, hthread, horigin, hends⟩ := hnew _ heq
  dsimp only at horigin hends
  subst horigin
  refine ⟨thread, hthread, rfl, ?_⟩
  have hmoved : mover = some thread := hthread
  subst hmoved
  have hfiled : Filed (AttemptAt run type key checksum) pool'.state :=
    (hholds.step (contract_sound _) hapart).inv
  have hcall : AttemptAt run type key checksum thread.origin :=
    (hholds.guarantee (contract_sound _) hapart).2.2.1
  generalize hg : saves.observe thread.origin thread.aux pool.state pool'.state = g at hends
  cases hends with
  | saved hstored hout hsum hfirst =>
      cases hg
      exact iff_of_true (.inl ⟨_, _, rfl, hstored, hout⟩) hfirst
  | @reused r message g hstored hsum =>
      -- the stored record is that of an attempt too
      obtain ⟨call, hattempt, -, -, hsum'⟩ :=
        hfiled.written r (RunObjects.mem_records_of_recordUnder hstored)
      exact absurd (hsum'.trans (hattempt.checksum.trans hcall.checksum.symm)) hsum
  | conflict hovertaken =>
      cases hg
      refine iff_of_false ?_ (not_not.mpr hovertaken)
      rintro (⟨out, stored, hout, -⟩ | ⟨e, he, hretry⟩)
      · cases hout
      · cases he
        exact absurd (hretry 0) (by decide)

end StoryReview.ArtifactService

namespace StoryReview.Scenario
open ArtifactService

/-- Attempts to save one story under one key. -/
def saveStory (id : Uuid) : SaveCall where
  request :=
    { type := .story, storyRunId := ⟨0⟩, perspective := none
      content := .story (story "story-01"), idempotencyKey := 1
      type_matches_content := by decide
      perspective_matches := by decide
      content_perspective_matches := by decide
      content_belongs_to_run := by decide }
  artifactId := ⟨id⟩
  now := 0

def saveRest (id : Uuid) (n : ℕ) (o : RunObjects) : StoreProgram SaveArtifactOutput :=
  (saves.program (saveStory id)).residual (fun _ => ()) n o

def saveState (id : Uuid) (n : ℕ) (o : RunObjects) : RunObjects :=
  (saves.program (saveStory id)).crash (fun _ => ()) n o

theorem starts_saveStory {P : SaveCall → Prop} (hP : P (saveStory 0)) :
    (freshIds P).starts {} [] (saveStory 0) := by
  refine ⟨hP, fun t k hid => ?_, fun thread hthread => ?_⟩
  · cases hid
  · cases hthread

theorem attemptAt_saveStory (id : Uuid) :
    AttemptAt ⟨0⟩ .story 1 (saveStory 0).checksum (saveStory id) := ⟨rfl, rfl, rfl, rfl⟩

/-- A save that runs alone. -/
theorem saves_agree_story : ∃ pool : SavePool, ∃ out r,
    pool.Reachable saves (freshIds (InRun ⟨0⟩)) {} ∧ (saveStory 0, .ok out) ∈ pool.ended ∧
      (saveStory 0).stored pool.state = some r ∧ out.reference = r.reference := by
  have hsteps := Pool.Steps.alone (S := saves) (i := saveStory 0) (fun _ => ()) []
    (fun _ => trivial) (starts_saveStory (P := InRun ⟨0⟩) rfl) fun _ _ _ => trivial
  have hok : (((saves.program (saveStory 0)).run (fun _ => ()) {}).1.toOption).isSome := by
    decide +kernel
  cases hrun : ((saves.program (saveStory 0)).run (fun _ => ()) {}).1 with
  | error e =>
      rw [hrun] at hok
      cases hok
  | ok out =>
      rw [hrun] at hsteps
      have hended : (saveStory 0, .ok out) ∈ Pool.ended
          (⟨((saves.program (saveStory 0)).run (fun _ => ()) {}).2, [],
            [(saveStory 0, .ok out)]⟩ : SavePool) := List.mem_cons_self
      obtain ⟨r, hstored, hout, -⟩ := (saves_agree hsteps).2.1 _ _ hended
      exact ⟨_, out, r, hsteps, hended, hstored, hout⟩

/-- The write of a save that no other overlaps with. -/
theorem attempts_accepted_story : ∃ pool pool' : SavePool, ∃ mover,
    pool.Reachable saves (freshIds (AttemptAt ⟨0⟩ .story 1 (saveStory 0).checksum)) {} ∧
      Pool.Step saves (freshIds (AttemptAt ⟨0⟩ .story 1 (saveStory 0).checksum)) mover
        pool pool' ∧
      ∃ new : Option (SaveCall × Except StoreException SaveArtifactOutput),
        pool'.ended.Subperm (new.toList ++ pool.ended) ∧
        ∀ call r, new = some (call, r) → ∃ thread, mover = some thread ∧
          thread.origin = call ∧
            (Accepted call pool'.state r ↔ ¬ Overtaken call thread.aux pool.state) := by
  obtain ⟨g, hsteps⟩ := Pool.Steps.advance (S := saves)
    (D := freshIds (AttemptAt ⟨0⟩ .story 1 (saveStory 0).checksum)) (i := saveStory 0)
    (p := saves.program (saveStory 0)) (fun _ => ()) [] [] (fun _ => trivial)
    (fun _ _ _ => trivial) 2 [] {} []
  have hreach := Relation.ReflTransGen.head
    ⟨none, .start (saveStory 0) (starts_saveStory (attemptAt_saveStory 0))⟩ hsteps
  have hrest : (saveRest 0 2 {}).outcome.isNone = true := by decide +kernel
  obtain ⟨g', hstep⟩ := Pool.Step.next (S := saves)
    (D := freshIds (AttemptAt ⟨0⟩ .story 1 (saveStory 0).checksum)) (i := saveStory 0)
    [] [] (p := saveRest 0 2 {}) (Option.isNone_iff_eq_none.mp hrest) (c := ()) trivial
    (g := g) (s := saveState 0 2 {}) trivial []
  exact ⟨_, _, _, hreach, hstep, attempts_accepted_iff hreach hstep⟩

/-- A first attempt claims the key, a retry with the same content adopts it and writes the
record, and the first attempt is refused for good. -/
theorem overtakenSave_refused : ∃ pool : SavePool, ∃ e,
    pool.Reachable saves (freshIds (AttemptAt ⟨0⟩ .story 1 (saveStory 0).checksum)) {} ∧
      (saveStory 0, .error e) ∈ pool.finished ∧ e = .preconditionFailed ∧
      ∀ correlationId, (artifactErrorFor e correlationId).retryable = false := by
  let D := freshIds (AttemptAt ⟨0⟩ .story 1 (saveStory 0).checksum)
  obtain ⟨g, hclaimed⟩ := Pool.Steps.advance (S := saves) (D := D) (i := saveStory 0)
    (p := saves.program (saveStory 0)) (fun _ => ()) [] [] (fun _ => trivial)
    (fun _ _ _ => trivial) 1 [] {} []
  have hfresh : ∀ t k, (saveState 0 1 {}).idem t k ≠ some (saveStory 1).artifactId := by
    intro t k hid
    have hclaims : saveState 0 1 {} = RunObjects.setIdem {} .story 1 ⟨0⟩ := rfl
    rw [hclaims, RunObjects.setIdem_idem] at hid
    split_ifs at hid
    cases hid
  have hstart : D.starts (saveState 0 1 {}) [⟨saveStory 0, g, saveRest 0 1 {}⟩]
      (saveStory 1) := by
    refine ⟨attemptAt_saveStory 1, hfresh, fun thread hthread => ?_⟩
    rw [List.mem_singleton.mp hthread]
    exact fun h => nomatch h
  have hretry := Pool.Steps.complete (S := saves) (D := D) (i := saveStory 1)
    (p := saves.program (saveStory 1)) (fun _ => ()) []
    [⟨saveStory 0, g, saveRest 0 1 {}⟩] (fun _ => trivial) (fun _ _ _ => trivial) []
    (saveState 0 1 {}) []
  have hfirst := Pool.Steps.complete (S := saves) (D := D) (i := saveStory 0)
    (p := saveRest 0 1 {}) (fun _ => ()) [] [] (fun _ => trivial) (fun _ _ _ => trivial) g
    ((saves.program (saveStory 1)).run (fun _ => ()) (saveState 0 1 {})).2
    [(saveStory 1, ((saves.program (saveStory 1)).run (fun _ => ()) (saveState 0 1 {})).1)]
  have hrefused : ((saveRest 0 1 {}).run (fun _ => ())
      ((saves.program (saveStory 1)).run (fun _ => ()) (saveState 0 1 {})).2).1 =
        .error .preconditionFailed := by
    decide +kernel
  rw [hrefused] at hfirst
  exact ⟨_, .preconditionFailed,
    (((Relation.ReflTransGen.head
      ⟨none, .start (saveStory 0) (starts_saveStory (attemptAt_saveStory 0))⟩
      hclaimed).tail ⟨none, .start (saveStory 1) hstart⟩).trans hretry).trans hfirst,
    List.mem_cons_self, rfl, fun _ => rfl⟩

end StoryReview.Scenario
