import StoryReview.Durability
import StoryReview.PartSteps

/-!
# What the parts of a request add

Whatever state a part of a request is resumed in, nothing stored is lost, and the turn it
may insert and the creation it may answer are known from its text.
-/
namespace StoryReview
open Program Flows RecordsStore

/-- The objects of every run are sound, as of some time. -/
def World.StoreSound (w : World) : Prop :=
  ∀ run, ∃ clock, (w.objects run).Sound run w.fresh clock

namespace World.StoreSound
variable {w w' : World}

theorem of_objects (h : w.StoreSound) (hobjects : w'.objects = w.objects)
    (hfresh : w.fresh ≤ w'.fresh) : w'.StoreSound := by
  intro run
  obtain ⟨clock, hsound⟩ := h run
  rw [hobjects]
  exact ⟨clock, hsound.mono hfresh le_rfl⟩

theorem served (h : w.StoreSound) {run : RunId} {o' : RunObjects}
    (ho' : ∃ clock, o'.Sound run (w.fresh + 1) clock) : (w.served run o').StoreSound := by
  intro run'
  rw [World.served_objects]
  split_ifs with hrun
  · exact hrun ▸ ho'
  · obtain ⟨clock, hsound⟩ := h run'
    exact ⟨clock, hsound.mono (Nat.le_succ _) le_rfl⟩

theorem savesAs {request : SaveArtifactInput} (hsaves : SavesAs request w w')
    (h : w.StoreSound) : w'.StoreSound := by
  obtain ⟨o', hsaves, rfl⟩ := hsaves
  obtain ⟨clock, hsound⟩ := h request.storyRunId
  -- a review under this request is finalized before some time
  have hbefore : ∃ later, ∀ f, request.content = .finalizedReview f → f.finalizedAt ≤ later := by
    cases request.content with
    | finalizedReview f =>
        refine ⟨f.finalizedAt, ?_⟩
        rintro _ ⟨⟩
        exact le_rfl
    | _ => exact ⟨0, by simp⟩
  obtain ⟨later, hlater⟩ := hbefore
  exact h.served ⟨max clock later, (hsound.mono le_rfl (le_max_left _ _)).saves rfl
    (fun f hf => (hlater f hf).trans (le_max_right _ _)) hsaves⟩

theorem rendersAs {request : RenderReportInput} (hrenders : RendersAs request w w')
    (h : w.StoreSound) : w'.StoreSound := by
  obtain ⟨o', hrenders, rfl⟩ := hrenders
  obtain ⟨clock, hsound⟩ := h request.storyRunId
  exact h.served ⟨clock, hsound.renders rfl hrenders⟩

end World.StoreSound

/-- The objects are sound, and session and run come from one key. -/
structure World.Sane (w : World) : Prop where
  stores : w.StoreSound
  runs : ∀ s ∈ w.cores, s.storyRunId.key = s.sessionId.key

theorem sane_init : World.Sane {} :=
  ⟨fun run => ⟨0, RunObjects.sound_empty run _ _⟩, by simp [World.cores]⟩

/-- Nothing is lost; a new turn satisfies `P`, and a newly answered creation `Q`. -/
structure Adds (P : TurnRow → Prop) (Q : IdempotencyKey → Prop) (w w' : World) : Prop where
  endures : Endures w w'
  sane : w.Sane → w'.Sane
  turns : ∀ id, ∀ row ∈ w'.turns id, (∃ old ∈ w.turns id, old.unstamped = row.unstamped) ∨ P row
  answers : ∀ key, w'.Answered (createSlot key) → w.Answered (createSlot key) ∨ Q key

/-- No turn and no answer. -/
abbrev AddsNothing : World → World → Prop := Adds (fun _ => False) fun _ => False

namespace Adds
variable {P P' : TurnRow → Prop} {Q Q' : IdempotencyKey → Prop} {u v w w' : World}

/-- A step that adds no turn and saves nothing. -/
theorem of_turns (hendures : Endures w w') (hturns : w'.turns = w.turns)
    (hobjects : w'.objects = w.objects) (hfresh : w.fresh ≤ w'.fresh)
    (hruns : (∀ s ∈ w.cores, s.storyRunId.key = s.sessionId.key) →
      ∀ s ∈ w'.cores, s.storyRunId.key = s.sessionId.key)
    (hanswers : ∀ key, w'.Answered (createSlot key) → w.Answered (createSlot key)) :
    Adds P Q w w' :=
  ⟨hendures, fun h => ⟨h.stores.of_objects hobjects hfresh, hruns h.runs⟩,
    fun _ row hrow => .inl ⟨row, hturns ▸ hrow, rfl⟩, fun key h => .inl (hanswers key h)⟩

theorem of_framed (h : Framed w w') (hstores : w.StoreSound → w'.StoreSound) :
    Adds P Q w w' := by
  refine ⟨.of_framed h, fun hw => ⟨hstores hw.stores, h.cores ▸ hw.runs⟩,
    fun _ row hrow => .inl ⟨row, h.turns ▸ hrow, rfl⟩, fun key hkey => .inl ?_⟩
  rw [World.Answered, ← h.claims]
  exact hkey

theorem of_quiet (h : Quiet w w') : Adds P Q w w' :=
  of_framed (.of_quiet h) fun hstores => hstores.of_objects h.objects h.fresh

theorem of_savesAs {request : SaveArtifactInput} (h : SavesAs request w w') : Adds P Q w w' :=
  of_framed (framed_savesAs h) fun hstores => hstores.savesAs h

theorem of_rendersAs {request : RenderReportInput} (h : RendersAs request w w') :
    Adds P Q w w' := by
  refine of_framed ?_ fun hstores => hstores.rendersAs h
  obtain ⟨o', hrenders, rfl⟩ := h
  exact Framed.of_served (RunObjects.grows_of_renders hrenders)

theorem mono (h : Adds P Q w w') (hP : ∀ row, P row → P' row) (hQ : ∀ key, Q key → Q' key) :
    Adds P' Q' w w' :=
  ⟨h.endures, h.sane, fun id row hrow => (h.turns id row hrow).imp_right (hP row),
    fun key hkey => (h.answers key hkey).imp_right (hQ key)⟩

theorem of_nothing (h : AddsNothing w w') : Adds P Q w w' :=
  h.mono (fun _ => False.elim) fun _ => False.elim

theorem after_nothing (h : AddsNothing u v) (h' : Adds P Q v w) : Adds P Q u w := by
  refine ⟨h.endures.trans h'.endures, fun hw => h'.sane (h.sane hw),
    fun id row hrow => ?_, fun key hkey => ?_⟩
  · rcases h'.turns id row hrow with ⟨old, hold, hsame⟩ | hP
    · rcases h.turns id old hold with ⟨older, holder, hsame'⟩ | hP
      · exact .inl ⟨older, holder, hsame'.trans hsame⟩
      · exact hP.elim
    · exact .inr hP
  · exact (h'.answers key hkey).elim (fun h' => .inl ((h.answers key h').resolve_right id)) .inr

theorem ticked {c : Choice} (h : Adds P Q (w.tick c) w') : Adds P Q w w' :=
  after_nothing (of_quiet (quiet_tick w c)) h

/-- Steps that each add nothing. -/
theorem of_doing {R : World → World → Prop} (hR : ∀ v w, R v w → AddsNothing v w)
    (h : Doing R v w) : Adds P Q v w := by
  refine of_nothing ?_
  induction h with
  | refl => exact of_quiet (.refl _)
  | tail _ hstep ih => exact ih.after_nothing (hstep.elim of_quiet (hR _ _))

/-! ## The statements -/

theorem insertClaim (slot : ClaimSlot) (fingerprint : Fingerprint) (w : World) :
    AddsNothing w (Idempotency.insertClaim slot fingerprint w).2 := by
  have hsame : (Idempotency.insertClaim slot fingerprint w).2.turns = w.turns ∧
      (Idempotency.insertClaim slot fingerprint w).2.objects = w.objects ∧
      (Idempotency.insertClaim slot fingerprint w).2.fresh = w.fresh ∧
      (Idempotency.insertClaim slot fingerprint w).2.cores = w.cores := by
    unfold Idempotency.insertClaim
    split_ifs <;> exact ⟨rfl, rfl, rfl, rfl⟩
  refine of_turns (.insertClaim _ _ _) hsame.1 hsame.2.1 hsame.2.2.1.ge
    (fun hruns => hsame.2.2.2 ▸ hruns) fun key => ?_
  · rintro ⟨row, hrow, hdone⟩
    unfold Idempotency.insertClaim at hrow
    split_ifs at hrow
    · exact ⟨row, hrow, hdone⟩
    · dsimp only at hrow
      rw [World.claims_setClaim] at hrow
      split_ifs at hrow
      · cases hrow
        cases hdone
      · exact ⟨row, hrow, hdone⟩

theorem released (slot : ClaimSlot) (w : World) :
    AddsNothing w (Idempotency.released slot w) := by
  have hsame := World.sameButClaims_released w slot
  refine of_turns (.released _ _) hsame.turns hsame.objects hsame.fresh.ge
    (fun hruns => hsame.cores ▸ hruns) fun key => ?_
  rintro ⟨row, hrow, hdone⟩
  rw [World.claims_released] at hrow
  split_ifs at hrow with hslot
  · rw [hslot]
    exact ⟨row, (Option.filter_eq_some_iff.mp hrow).1, hdone⟩
  · exact ⟨row, hrow, hdone⟩

theorem completed {slot : ClaimSlot} (response : CanonicalResponse) (w : World)
    (hslot : ∀ key, slot = createSlot key → Q key) :
    Adds P Q w (Idempotency.completed slot response w) := by
  have hsame := World.sameButClaims_completed w slot response
  refine ⟨.completed _ _ _,
    fun h => ⟨h.stores.of_objects hsame.objects hsame.fresh.ge, hsame.cores ▸ h.runs⟩,
    fun _ row hrow => .inl ⟨row, hsame.turns ▸ hrow, rfl⟩, fun key => ?_⟩
  rintro ⟨row, hrow, hdone⟩
  rw [World.claims_completed] at hrow
  split_ifs at hrow with hkey
  · exact .inr (hslot key hkey.symm)
  · exact .inl ⟨row, hrow, hdone⟩

theorem sessionUpdated (id : SessionId) (u : SessionUpdate) (w : World) :
    AddsNothing w (RecordsStore.sessionUpdated id u w) :=
  of_turns (.sessionUpdated _ _ _) (World.turns_sessionUpdated _ _ _)
    (World.objects_sessionUpdated _ _ _) (World.fresh_sessionUpdated _ _ _).ge
    (Lawful.sessionUpdated id u w).runs fun _ => by
    rw [World.Answered, World.Answered, World.claims_sessionUpdated]
    exact fun h => h

theorem insertStoryRun (record : StoryRunRecord) (w : World) :
    AddsNothing w (RecordsStore.insertStoryRun record w).2 := by
  have hsame : (RecordsStore.insertStoryRun record w).2.turns = w.turns ∧
      (RecordsStore.insertStoryRun record w).2.objects = w.objects ∧
      (RecordsStore.insertStoryRun record w).2.fresh = w.fresh ∧
      (RecordsStore.insertStoryRun record w).2.claims = w.claims := by
    unfold RecordsStore.insertStoryRun
    split_ifs <;> exact ⟨rfl, rfl, rfl, rfl⟩
  refine of_turns (.insertStoryRun _ _) hsame.1 hsame.2.1 hsame.2.2.1.ge
    (Lawful.insertStoryRun record w).runs fun key => ?_
  rw [World.Answered, hsame.2.2.2]
  exact id

theorem insertSession {record : SessionRecord}
    (hkey : record.storyRunId.key = record.sessionId.key) (w : World) :
    AddsNothing w (RecordsStore.insertSession record w).2 := by
  have hsame : (RecordsStore.insertSession record w).2.turns = w.turns ∧
      (RecordsStore.insertSession record w).2.objects = w.objects ∧
      (RecordsStore.insertSession record w).2.fresh = w.fresh ∧
      (RecordsStore.insertSession record w).2.claims = w.claims := by
    unfold RecordsStore.insertSession
    split_ifs <;> exact ⟨rfl, rfl, rfl, rfl⟩
  refine of_turns (.insertSession _ _) hsame.1 hsame.2.1 hsame.2.2.1.ge
    (Lawful.insertSession hkey w).runs fun key => ?_
  rw [World.Answered, hsame.2.2.2]
  exact id

theorem insertTurn {row : TurnRow} (hrow : P row) (w : World) :
    Adds P Q w (RecordsStore.insertTurn row w).2 := by
  refine ⟨.insertTurn _ _, fun h => ?_, fun id r hr => ?_, fun key hkey => .inl ?_⟩
  · rw [insertTurn_snd]
    split_ifs
    · exact h
    · exact ⟨h.stores, h.runs⟩
  · rw [insertTurn_snd] at hr
    split_ifs at hr
    · exact .inl ⟨r, hr, rfl⟩
    · rw [World.turns_setTurns] at hr
      split_ifs at hr with hid
      · rw [List.mem_orderedInsert] at hr
        rcases hr with rfl | hr
        · exact .inr hrow
        · exact .inl ⟨r, hid ▸ hr, rfl⟩
      · exact .inl ⟨r, hr, rfl⟩
  · rw [insertTurn_snd] at hkey
    split_ifs at hkey <;> exact hkey

theorem stamp (id : SessionId) (n : ℕ) (references : List ArtifactReference) (w : World) :
    AddsNothing w (w.setTurns id ((w.turns id).map (stampTurn n references))) := by
  refine ⟨.stamp _ _ _ _, fun h => ⟨h.stores, h.runs⟩, fun id' row hrow => .inl ?_,
    fun _ h => .inl h⟩
  rw [World.turns_setTurns] at hrow
  split_ifs at hrow with hid
  · obtain ⟨old, hold, rfl⟩ := List.mem_map.mp hrow
    exact ⟨old, hid ▸ hold, (unstamped_stampTurn n references old).symm⟩
  · exact ⟨row, hrow, rfl⟩

end Adds

/-- The statements add what they are told to add. -/
theorem serves_adds {P : TurnRow → Prop} {Q : IdempotencyKey → Prop} :
    Serves (Adds P Q) P Q fun record => record.storyRunId.key = record.sessionId.key where
  still := fun _ _ => .of_quiet
  artifacts := fun _ _ => Adds.of_doing fun _ _ hstored => by
    rcases hstored with ⟨request, hsaves⟩ | ⟨request, hrenders⟩
    · exact .of_savesAs hsaves
    · exact .of_rendersAs hrenders
  insertClaim := fun _ _ _ _ => (Adds.of_nothing (.insertClaim _ _ _)).ticked
  released := fun _ _ _ => (Adds.of_nothing (.released _ _)).ticked
  completed := fun _ _ _ _ hslot => (Adds.completed _ _ hslot).ticked
  sessionUpdated := fun _ _ _ _ => (Adds.of_nothing (.sessionUpdated _ _ _)).ticked
  closed := fun _ _ _ _ _ _ hslot => (Adds.after_nothing (.sessionUpdated _ _ _)
    (.completed _ _ fun key hkey => absurd hkey (hslot key))).ticked
  parked := fun _ _ _ _ _ => (Adds.after_nothing (.sessionUpdated _ _ _)
    (.of_nothing (.released _ _))).ticked
  insertStoryRun := fun _ _ _ => (Adds.of_nothing (.insertStoryRun _ _)).ticked
  insertSession := fun _ _ _ hkey => (Adds.of_nothing (.insertSession hkey _)).ticked
  insertTurn := fun _ _ _ hrow => (Adds.insertTurn hrow _).ticked
  stamped := fun _ _ _ _ _ => (Adds.of_nothing (.stamp _ _ _ _)).ticked

end StoryReview
