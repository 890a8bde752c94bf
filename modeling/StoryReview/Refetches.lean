import StoryReview.Exceptions
import StoryReview.Serving

/-!
# Fetched and saved again

The story, the reviews and the synthesis of a request are saved under its key. A step that
fetches one of them refetches if it is answered with what is saved under the key, or if
nothing is. The save of what was refetched is accepted, and any other is refused.
-/
namespace StoryReview
open Program Flows RecordsStore

/-- What a request raises when a save is refused; a reused claim is answered with a 409. -/
def PyException.SaveRefused : PyException → Prop
  | .apiError error => error.statusCode = 503 ∧ error.error.code = .idempotencyKeyReused
  | _ => False

theorem closing_unrefused : Closing fun e => ¬ e.SaveRefused where
  plain e he := by
    cases e with
    | apiError error => exact he.elim
    | _ => exact not_false
  upstream _ _ _ := by rintro ⟨-, ⟨⟩⟩
  failed _ _ _ := not_false

theorem routine_unrefused : Routine fun e => ¬ e.SaveRefused := closing_unrefused.toRoutine

theorem unrefused_of_code {error : ApiError} (h : error.error.code ≠ .idempotencyKeyReused) :
    ¬ (PyException.apiError error).SaveRefused :=
  fun hrefused => h hrefused.2

/-! ## What is saved already -/

/-- What is saved under the key, if anything, is the content. -/
def RunObjects.Repeats (o : RunObjects) (type : ArtifactType) (key : IdempotencyKey)
    (content : Content) : Prop :=
  ∀ r, o.recordUnder type key = some r → r.reference.checksumSha256 = canonicalChecksum content

/-- The object stores are sound. -/
def World.StoresSound (w : World) : Prop :=
  ∀ run, (w.objects run).Sound run w.fresh w.clock

/-- No object is stored. -/
structure SameObjects (w w' : World) : Prop where
  fresh : w.fresh ≤ w'.fresh
  clock : w.clock ≤ w'.clock
  objects : w'.objects = w.objects

namespace SameObjects
variable {u v w : World}

theorem refl (w : World) : SameObjects w w := ⟨le_rfl, le_rfl, rfl⟩

theorem trans (h : SameObjects u v) (h' : SameObjects v w) : SameObjects u w :=
  ⟨h.fresh.trans h'.fresh, h.clock.trans h'.clock, h'.objects.trans h.objects⟩

instance : IsTrans World SameObjects := ⟨fun _ _ _ => trans⟩

theorem of_quiet (h : Quiet v w) : SameObjects v w := ⟨h.fresh, h.clock, h.objects⟩

theorem sound (h : SameObjects v w) (hv : v.StoresSound) : w.StoresSound := by
  intro run
  rw [h.objects]
  exact (hv run).mono h.fresh h.clock

end SameObjects

namespace RunObjects
variable {o o' : RunObjects} {request : SaveArtifactInput} {id : ArtifactId} {now : Time}

theorem idem_of_saves (h : Saves request id now o o') {type : ArtifactType}
    (hne : type ≠ request.type) (key : IdempotencyKey) : o'.idem type key = o.idem type key := by
  induction h with
  | refl => rfl
  | tail _ hstep ih =>
      refine Eq.trans ?_ ih
      cases hstep with
      | claim => simp [hne.symm]
      | write => rfl

theorem type_of_saves (h : Saves request id now o o') {r : ArtifactRecord}
    (hr : r ∈ o'.records) : r ∈ o.records ∨ r.reference.type = request.type := by
  induction h with
  | refl => exact .inl hr
  | tail _ hstep ih =>
      cases hstep with
      | claim => exact ih hr
      | write winner _ _ =>
          rcases List.mem_append.mp hr with hr | hr
          · exact ih hr
          · rw [List.mem_singleton] at hr
            subst hr
            exact .inr rfl

/-- A save leaves what other types have under their keys. -/
theorem recordUnder_of_saves {run run' : RunId} {fresh fresh' : Uuid} {clock clock' : Time}
    (h : Saves request id now o o') (ho : o.Sound run fresh clock)
    (ho' : o'.Sound run' fresh' clock') {type : ArtifactType} (hne : type ≠ request.type)
    (key : IdempotencyKey) : o'.recordUnder type key = o.recordUnder type key := by
  have hgrows := grows_of_saves h
  unfold recordUnder
  rw [idem_of_saves h hne]
  cases hid : o.idem type key with
  | none => rfl
  | some winner =>
      rw [Option.bind_some, Option.bind_some]
      cases hold : o.record winner with
      | some r => exact hgrows.record _ _ hold
      | none =>
          -- a new record has the type of the save and is claimed under it
          refine Option.eq_none_iff_forall_ne_some.mpr fun r hr => ?_
          have hmem := mem_records_of_record hr
          obtain rfl := artifactId_of_record hr
          rcases type_of_saves h hmem with hkept | htype
          · rw [ho.record_of_mem hkept] at hold
            cases hold
          · obtain ⟨key', hkey'⟩ := ho'.records_claimed r hmem
            have hsame := (ho'.idem_injective _ _ _ _ _ hkey' (hgrows.idem _ _ _ hid)).1
            exact hne (hsame.symm.trans htype)

end RunObjects

/-! ## The steps that fetch -/

/-- The step of a call that leaves no durable trace. -/
def answering {α : Type} (answer : Choice → α) (exception : CallFailure → PyException) :
    Choice → World → Except PyException α × World := fun c w =>
  match c.failure with
  | some failure => (.error (exception failure), w.tick c)
  | none => (.ok (answer c), w.tick c)

/-- The step fetches what a flow saves as an artifact of the type: the story, a fenced
review, or a synthesis. -/
inductive Fetches (c : Choice) : {β : Type} → (Choice → World → β × World) → ArtifactType →
    Content → Prop
  | story (storyId : StoryId) :
      Fetches c (answering (fun c => c.story storyId) CallFailure.mcpException) .story
        (.story (c.story storyId))
  | review (p : Perspective) (request : ReviewerInvocation) :
      Fetches c (answering (fun c => c.reviewer p request) CallFailure.agentException) (.review p)
        (.review (OutputFence.fenceResult (c.reviewer p request) request.story
          request.previousReview request.extraContext))
  | synthesis (request : SynthesisInvocation) :
      Fetches c (answering (fun c => c.synthesis request) CallFailure.agentException) .synthesis
        (.synthesis (c.synthesis request))

/-- A step that fetches a content of one of the types, if the save of such a content is well
formed, fetches the one that is saved under the key. -/
def Refetches (run : RunId) (key : IdempotencyKey) (types : List ArtifactType) (β : Type)
    (f : Choice → World → β × World) (c : Choice) (w : World) : Prop :=
  ∀ type ∈ types, ∀ content, Fetches c f type content →
    content.HasPerspective type.expectedPerspective → (w.objects run).Repeats type key content

/-- The same without faults. -/
abbrev Steadily (run : RunId) (key : IdempotencyKey) (types : List ArtifactType) (β : Type)
    (f : Choice → World → β × World) (c : Choice) (w : World) : Prop :=
  c.FaultFree ∧ Refetches run key types β f c w

/-- Whenever the steps refetch, no save is refused, and what is returned satisfies `Q`. -/
abbrev Unrefused {α : Type} (run : RunId) (key : IdempotencyKey) (types : List ArtifactType)
    (Q : α → World → Prop) (p : Orchestration α) (w : World) : Prop :=
  p.Given (Steadily run key types) Q (fun e _ => ¬ e.SaveRefused) w

section Steps
variable {α β : Type} {run : RunId} {key : IdempotencyKey} {types : List ArtifactType}
variable {t w : World} {Q R : α → World → Prop} {F : World → World → Prop}

/-- What a program raises and what it establishes are known from elsewhere. -/
theorem unrefused_of_raises {p : Orchestration α}
    (hraises : p.RaisesOnly Choice.FaultFree fun e => ¬ e.SaveRefused) [IsTrans World F]
    (hmoves : p.Moves Choice.FaultFree F) (hw : F t w) (hyields : p.Yields Choice.FaultFree R w) :
    Unrefused run key types (fun b u => R b u ∧ F t u) p w :=
  hraises.given (fun _ _ _ _ h => h.1) (hmoves.yields hw hyields)

theorem unrefused_any {p : Orchestration α}
    (hraises : p.RaisesOnly Choice.FaultFree fun e => ¬ e.SaveRefused) :
    Unrefused run key types (fun _ _ => True) p w :=
  hraises.given (fun _ _ _ _ h => h.1) (yields_any _ _)

theorem given_answering {answer : Choice → α} {exception : CallFailure → PyException}
    {E : PyException → World → Prop}
    (h : ∀ c, Steadily run key types _ (answering answer exception) c w →
      Q (answer c) (w.tick c)) :
    (pureCall answer exception).Given (Steadily run key types) Q E w := by
  refine given_atomicExcept (f := answering answer exception) fun c hc => ?_
  have hanswered : answering answer exception c w = (.ok (answer c), w.tick c) := by
    unfold answering
    rw [hc.1.2]
  rw [hanswered]
  refine ⟨fun b hb => ?_, fun e he => by cases he⟩
  obtain rfl := Except.ok.inj hb
  exact h c hc

theorem given_getStory {E : PyException → World → Prop} (hstory : ArtifactType.story ∈ types)
    (storyId : StoryId) (correlationId : Uuid) (hw : Quiet t w) :
    (getStory storyId correlationId).Given (Steadily run key types)
      (fun story u => (t.objects run).Repeats .story key (.story story) ∧ Quiet t u) E w := by
  refine Given.tryCatch (F := fun _ _ => False) (given_answering fun c hc =>
    ⟨?_, hw.trans (quiet_tick w c)⟩) fun _ _ hfalse => hfalse.elim
  rw [← hw.objects]
  exact hc.2 _ hstory _ (.story storyId) trivial

theorem given_invokeReviewer {E : PyException → World → Prop} {p : Perspective}
    (hp : ArtifactType.review p ∈ types) (request : ReviewerInvocation) (hw : Quiet t w) :
    (Agents.invokeReviewer p request).Given (Steadily run key types)
      (fun report u => ((Content.review (OutputFence.fenceResult report request.story
        request.previousReview request.extraContext)).HasPerspective
          (ArtifactType.review p).expectedPerspective → (t.objects run).Repeats (.review p) key
            (.review (OutputFence.fenceResult report request.story request.previousReview
              request.extraContext))) ∧ Quiet t u) E w := by
  refine given_answering fun c hc => ⟨fun hperspective => ?_, hw.trans (quiet_tick w c)⟩
  rw [← hw.objects]
  exact hc.2 _ hp _ (.review p request) hperspective

theorem given_invokeSynthesis {E : PyException → World → Prop}
    (hsynthesis : ArtifactType.synthesis ∈ types) (request : SynthesisInvocation)
    (hw : Quiet t w) : (Agents.invokeSynthesis request).Given (Steadily run key types)
      (fun report u => (t.objects run).Repeats .synthesis key (.synthesis report) ∧ Quiet t u)
      E w := by
  refine given_answering fun c hc => ⟨?_, hw.trans (quiet_tick w c)⟩
  rw [← hw.objects]
  exact hc.2 _ hsynthesis _ (.synthesis request) trivial

/-- What the saves of other types have under their keys after a save. -/
structure SavedOne (run : RunId) (key : IdempotencyKey) (type : ArtifactType) (w t : World) :
    Prop where
  sound : t.StoresSound
  others : ∀ type' ≠ type, (t.objects run).recordUnder type' key =
    (w.objects run).recordUnder type' key

theorem SavedOne.repeats {type type' : ArtifactType} {content : Content}
    (h : SavedOne run key type w t) (hne : type' ≠ type)
    (hrepeats : (w.objects run).Repeats type' key content) :
    (t.objects run).Repeats type' key content := by
  intro r hr
  rw [h.others type' hne] at hr
  exact hrepeats r hr

/-- A well-formed save is refused exactly if other content is saved under the key. -/
theorem concludes_saveDraft (h : w.StoresSound) {type : ArtifactType} {content : Content}
    (hvalid : content.HasType type ∧ content.HasPerspective type.expectedPerspective ∧
      content.BelongsTo run) (hdraft : ∀ review, content ≠ .finalizedReview review)
    (correlationId : Uuid) :
    Concludes (fun _ t => (w.objects run).Repeats type key content ∧ SavedOne run key type w t)
      (fun e _ => e.SaveRefused ∧ ¬ (w.objects run).Repeats type key content)
      (saveArtifact type run content key correlationId) w := by
  unfold saveArtifact saveArtifactInput
  rw [dif_pos hvalid]
  simp only [bind_eq, ofExcept_ok, ret_bind, pure_eq]
  refine Concludes.bind (R := fun _ t => (w.objects run).Repeats type key content ∧
    SavedOne run key type w t) (Concludes.tryCatch (F := fun e _ => ∃ message,
      e = .mcpCallFailure (artifactErrorFor (.idempotencyKeyReused message) correlationId) ∧
        ¬ (w.objects run).Repeats type key content) ?_ ?_) fun _ _ hsaved => hsaved
  · refine concludes_storeCall fun v hv => ?_
    have hsound := (SameObjects.of_quiet hv).sound h
    refine wp_mono (wp_save _ _ _ _) (fun _ _ => trivial) ?_ ?_
    · rintro output o' ⟨hsaves, -, hsame⟩
      have hsound' : (v.served run o').StoresSound := by
        intro run'
        rw [World.served_objects]
        split_ifs with hrun
        · rw [hrun]
          exact (hsound run).saves rfl (fun review hreview => absurd hreview (hdraft review)) hsaves
        · exact (hsound run').mono (Nat.le_succ _) le_rfl
      rw [hv.objects] at hsame
      refine ⟨hsame, hsound', fun type' hne => ?_⟩
      rw [World.served_objects_self, ← hv.objects]
      have hserved := hsound' run
      rw [World.served_objects_self] at hserved
      exact RunObjects.recordUnder_of_saves hsaves (hsound run) hserved hne key
    · rintro e o' ⟨-, hfails⟩
      obtain ⟨-, ⟨message, rfl⟩, r, hr, hsum⟩ := hfails (hsound run).record_fresh
      rw [hv.objects] at hr
      exact ⟨message, rfl, fun hrepeats => hsum (hrepeats r hr)⟩
  · rintro e t ⟨message, rfl, hother⟩
    exact ⟨⟨rfl, rfl⟩, hother⟩

/-- A save of what is saved already, or for the first time, is accepted. -/
theorem unrefused_saveArtifact (h : w.StoresSound) {type : ArtifactType} {content : Content}
    (hdraft : ∀ review, content ≠ .finalizedReview review)
    (hrepeats : content.HasPerspective type.expectedPerspective →
      (w.objects run).Repeats type key content) (correlationId : Uuid) :
    Unrefused run key types (fun _ t => SavedOne run key type w t)
      (saveArtifact type run content key correlationId) w := by
  by_cases hvalid : content.HasType type ∧ content.HasPerspective type.expectedPerspective ∧
      content.BelongsTo run
  · refine (Given.of_wp (fun _ _ _ _ hc => hc.1) (concludes_saveDraft h hvalid hdraft
      correlationId)).mono (fun _ _ hsaved => hsaved.2) fun e t hrefused => ?_
    exact absurd (hrepeats hvalid.2.1) hrefused.2
  · unfold saveArtifact saveArtifactInput
    rw [dif_neg hvalid]
    exact not_false

end Steps
end StoryReview
