import StoryReview.Absorbing

/-!
# What endures

No statement of the service deletes a row or takes back what a row says for good, and none
touches another session. Whatever requests run at once, and wherever they die, a session's
history only grows, and only by the requests on that session.
-/
namespace StoryReview
open Program Flows RecordsStore

/-! ## Entries that last -/

/-- An entry that is there stays there, and looks the same. -/
def Lasts {α β : Type} (view : α → β) (entry entry' : Option α) : Prop :=
  ∀ a, entry = some a → ∃ a', entry' = some a' ∧ view a' = view a

namespace Lasts
variable {α β : Type} {view : α → β} {entry entry' entry'' : Option α}

theorem of_eq (h : entry' = entry) : Lasts view entry entry' := fun a ha => ⟨a, h.trans ha, rfl⟩

theorem of_none (h : entry = none) : Lasts view entry entry' := by
  intro a ha
  rw [h] at ha
  cases ha

theorem trans (h : Lasts view entry entry') (h' : Lasts view entry' entry'') :
    Lasts view entry entry'' := by
  intro a ha
  obtain ⟨a', ha', hview⟩ := h a ha
  obtain ⟨a'', ha'', hview'⟩ := h' a' ha'
  exact ⟨a'', ha'', hview'.trans hview⟩

theorem map {f : α → α} (hf : ∀ a, view (f a) = view a) : Lasts view entry (entry.map f) := by
  rintro a rfl
  exact ⟨f a, rfl, hf a⟩

end Lasts

/-- The run without its state. -/
def StoryRunRecord.identity (r : StoryRunRecord) : StoryRunRecord :=
  { r with state := .active, updatedAt := 0 }

/-- The session without what its requests update. -/
def SessionRecord.identity (s : SessionRecord) : SessionRecord :=
  { s with
    state := .active
    facilitatorTurnCount := 0
    finalReviewReference := none
    reportReferences := []
    updatedAt := 0 }

/-- The turn without the artifacts that a finalization stamps on it. -/
def TurnRow.unstamped (row : TurnRow) : TurnRow :=
  { row with record := { row.record with producedArtifacts := [] } }

theorem unstamped_stampTurn (n : ℕ) (references : List ArtifactReference) (row : TurnRow) :
    (stampTurn n references row).unstamped = row.unstamped := by
  unfold stampTurn
  split_ifs <;> rfl

/-- Nothing that `w` stores is gone or rewritten in `w'`. -/
structure Endures (w w' : World) : Prop where
  objects : ∀ run, (w.objects run).Grows (w'.objects run)
  storyRuns : ∀ run, Lasts StoryRunRecord.identity (w.storyRun run) (w'.storyRun run)
  sessions : ∀ id, Lasts SessionRecord.identity (w.core id) (w'.core id)
  turns : ∀ id n, Lasts TurnRow.unstamped (turnRow w id n) (turnRow w' id n)
  /-- An answered request stays answered. -/
  answers : ∀ slot, Lasts ClaimRow.requestFingerprint
    ((w.claims slot).filter fun row => decide (row.state = .completed))
    ((w'.claims slot).filter fun row => decide (row.state = .completed))

namespace Endures
variable {u v w w' : World}

theorem trans (h : Endures u v) (h' : Endures v w) : Endures u w :=
  ⟨fun run => (h.objects run).trans (h'.objects run),
    fun run => (h.storyRuns run).trans (h'.storyRuns run),
    fun id => (h.sessions id).trans (h'.sessions id),
    fun id n => (h.turns id n).trans (h'.turns id n),
    fun slot => (h.answers slot).trans (h'.answers slot)⟩

theorem of_framed (h : Framed w w') : Endures w w' where
  objects := h.grows
  storyRuns := fun _ => .of_eq (by rw [World.storyRun, World.storyRun, h.storyRuns])
  sessions := fun _ => .of_eq (by rw [h.core])
  turns := fun _ _ => .of_eq (by rw [turnRow, turnRow, h.turns])
  answers := fun _ => .of_eq (by rw [h.claims])

theorem refl (w : World) : Endures w w := of_framed (.of_quiet (.refl w))

theorem tick (w : World) (c : Choice) : Endures w (w.tick c) :=
  of_framed (.of_quiet (quiet_tick w c))

theorem ticked {c : Choice} (h : Endures (w.tick c) w') : Endures w w' := (tick w c).trans h

/-- A claim may be set where none was answered, or answered once more. -/
theorem setClaim {slot : ClaimSlot} {row : Option ClaimRow}
    (h : Lasts ClaimRow.requestFingerprint
      ((w.claims slot).filter fun row => decide (row.state = .completed))
      (row.filter fun row => decide (row.state = .completed))) :
    Endures w (w.setClaim slot row) := by
  refine ⟨fun _ => .refl _, fun _ => .of_eq rfl, fun _ => .of_eq rfl, fun _ _ => .of_eq rfl,
    fun slot' => ?_⟩
  rw [World.claims_setClaim]
  split_ifs with hslot
  · exact hslot ▸ h
  · exact .of_eq rfl

theorem insertClaim (slot : ClaimSlot) (fingerprint : Fingerprint) (w : World) :
    Endures w (Idempotency.insertClaim slot fingerprint w).2 := by
  unfold Idempotency.insertClaim
  split_ifs with htaken
  · exact refl w
  · rw [Option.not_isSome_iff_eq_none] at htaken
    exact setClaim (.of_none (by rw [htaken]; rfl))

theorem released (slot : ClaimSlot) (w : World) : Endures w (Idempotency.released slot w) := by
  unfold Idempotency.released
  split
  · next fingerprint response hrow =>
      refine setClaim (.of_none ?_)
      rw [hrow]
      rfl
  · exact refl w

theorem completed (slot : ClaimSlot) (response : CanonicalResponse) (w : World) :
    Endures w (Idempotency.completed slot response w) := by
  unfold Idempotency.completed
  split
  · next row hrow =>
      refine setClaim fun done hdone => ⟨_, rfl, ?_⟩
      rw [hrow] at hdone
      rw [← Option.some.inj (Option.filter_eq_some_iff.mp hdone).1]
  · exact refl w

theorem insertStoryRun (record : StoryRunRecord) (w : World) :
    Endures w (RecordsStore.insertStoryRun record w).2 := by
  unfold RecordsStore.insertStoryRun
  split_ifs
  · exact refl w
  · exact refl w
  · refine ⟨fun _ => .refl _, fun run r hr => ⟨r, ?_, rfl⟩, fun _ => .of_eq rfl,
      fun _ _ => .of_eq rfl, fun _ => .of_eq rfl⟩
    rw [World.storyRun] at hr ⊢
    rw [List.find?_append, hr]
    rfl

theorem insertSession (record : SessionRecord) (w : World) :
    Endures w (RecordsStore.insertSession record w).2 := by
  unfold RecordsStore.insertSession
  split_ifs
  · exact refl w
  · refine ⟨fun _ => .refl _, fun _ => .of_eq rfl, fun id s hs => ⟨s, ?_, rfl⟩,
      fun _ _ => .of_eq rfl, fun _ => .of_eq rfl⟩
    rw [World.core, World.cores] at hs ⊢
    rw [List.map_append, List.find?_append, hs]
    rfl

theorem insertTurn (row : TurnRow) (w : World) :
    Endures w (RecordsStore.insertTurn row w).2 := by
  have hothers : (RecordsStore.insertTurn row w).2.objects = w.objects ∧
      (RecordsStore.insertTurn row w).2.storyRuns = w.storyRuns ∧
      (RecordsStore.insertTurn row w).2.sessions = w.sessions ∧
      (RecordsStore.insertTurn row w).2.claims = w.claims := by
    rw [insertTurn_snd]
    split_ifs <;> exact ⟨rfl, rfl, rfl, rfl⟩
  obtain ⟨hobjects, hruns, hsessions, hclaims⟩ := hothers
  refine ⟨fun run => hobjects ▸ .refl _, fun _ => .of_eq (by simp only [World.storyRun, hruns]),
    fun _ => .of_eq (by simp only [World.core, World.cores, hsessions]), fun id n old hold => ?_,
    fun _ => .of_eq (by rw [hclaims])⟩
  refine ⟨old, ?_, rfl⟩
  rw [turnRow_insertTurn, if_neg, hold]
  rintro ⟨-, -, hnone⟩
  rw [hold] at hnone
  cases hnone

theorem stamp (id : SessionId) (n : ℕ) (references : List ArtifactReference) (w : World) :
    Endures w (w.setTurns id ((w.turns id).map (stampTurn n references))) := by
  refine ⟨fun _ => .refl _, fun _ => .of_eq rfl, fun _ => .of_eq rfl, fun id' m => ?_,
    fun _ => .of_eq rfl⟩
  rw [turnRow, turnRow, World.turns_setTurns]
  split_ifs with hid
  · subst hid
    have hnumber : ((fun r : TurnRow => decide (r.record.turnNumber = m)) ∘
        stampTurn n references) = fun r => decide (r.record.turnNumber = m) := by
      funext r
      simp only [Function.comp_apply, stampTurn_turnNumber]
    rw [List.find?_map, hnumber]
    exact .map fun r => unstamped_stampTurn n references r
  · exact .of_eq rfl

/-- A run is retired with its session, and keeps its identity. -/
theorem storyRun_retireStoryRun (id : SessionId) (state : SessionState) (w : World)
    (run : RunId) :
    (retireStoryRun id state w).storyRun run = (w.storyRun run).map fun r =>
      if (w.session id).any (fun row => decide (row.record.storyRunId = r.storyRunId)) then
        { r with state := state, updatedAt := w.clock } else r := by
  unfold retireStoryRun World.storyRun
  rw [List.find?_map]
  congr 2
  funext r
  simp only [Function.comp_apply]
  split_ifs <;> rfl

/-- The session row of the batch, before the run is retired. -/
theorem sessionUpdated_cases (id : SessionId) (u : SessionUpdate) (w : World) :
    ∃ v, v.cores = (w.cores.map fun s => if s.sessionId = id then u.apply 0 s else s) ∧
      v.storyRuns = w.storyRuns ∧
      (RecordsStore.sessionUpdated id u w = v ∨
        ∃ state, RecordsStore.sessionUpdated id u w = retireStoryRun id state v) := by
  refine ⟨w.modifySession id fun row => { row with record := u.apply w.clock row.record },
    w.modifySession_cores (g := u.apply 0) fun _ => rfl, rfl, ?_⟩
  unfold RecordsStore.sessionUpdated
  dsimp only
  split
  · exact .inr ⟨_, rfl⟩
  · exact .inr ⟨_, rfl⟩
  · exact .inl rfl

theorem storyRuns_sessionUpdated (id : SessionId) (u : SessionUpdate) (w : World)
    (run : RunId) : Lasts StoryRunRecord.identity (w.storyRun run)
      ((RecordsStore.sessionUpdated id u w).storyRun run) := by
  obtain ⟨v, -, hruns, hcases⟩ := sessionUpdated_cases id u w
  have hrun : w.storyRun run = v.storyRun run := by rw [World.storyRun, World.storyRun, hruns]
  rw [hrun]
  rcases hcases with heq | ⟨state, heq⟩
  · exact .of_eq (by rw [heq])
  · rw [heq, storyRun_retireStoryRun]
    refine .map fun r => ?_
    split_ifs <;> rfl

/-- The run of another key is another session's. -/
theorem storyRun_sessionUpdated {id : SessionId} (u : SessionUpdate) {w : World}
    (hw : Coherent w) {run : RunId} (hrun : run.key ≠ id.key) :
    (RecordsStore.sessionUpdated id u w).storyRun run = w.storyRun run := by
  obtain ⟨v, hcores, hruns, hcases⟩ := sessionUpdated_cases id u w
  have hsame : v.storyRun run = w.storyRun run := by rw [World.storyRun, World.storyRun, hruns]
  rcases hcases with heq | ⟨state, heq⟩
  · rw [heq, hsame]
  rw [heq, storyRun_retireStoryRun, ← hsame]
  refine (Option.map_congr fun r hr => if_neg ?_).trans Option.map_id'
  simp only [Option.any_eq_true, decide_eq_true_eq, not_exists, not_and]
  intro row hrow hid
  have hcore := World.core_of_session hrow
  have hmem := World.mem_cores_of_core hcore
  rw [hcores] at hmem
  obtain ⟨s, hs, hrow⟩ := List.mem_map.mp hmem
  have hsession : row.record.core.storyRunId = s.storyRunId ∧
      row.record.core.sessionId = s.sessionId := by
    rw [← hrow]
    split_ifs <;> exact ⟨rfl, rfl⟩
  have hrunId : row.record.core.storyRunId = run :=
    hid.trans (of_decide_eq_true (List.find?_some hr :))
  have hkey := hw.runs s hs
  rw [← hsession.1, ← hsession.2, hrunId, World.sessionId_of_core hcore] at hkey
  exact hrun hkey

theorem sessionUpdated (id : SessionId) (u : SessionUpdate) (w : World) :
    Endures w (RecordsStore.sessionUpdated id u w) := by
  refine ⟨fun run => by rw [World.objects_sessionUpdated]; exact .refl _,
    storyRuns_sessionUpdated id u w, fun id' => ?_,
    fun _ _ => .of_eq (by rw [turnRow, turnRow, World.turns_sessionUpdated]),
    fun _ => .of_eq (by rw [World.claims_sessionUpdated])⟩
  rw [World.core_sessionUpdated]
  split_ifs
  · exact .map fun _ => rfl
  · exact .of_eq rfl

end Endures

/-! ## What a request touches -/

/-- Nothing is lost, and no other session is touched. -/
structure Footprint (a : Attempt) (w w' : World) : Prop where
  lawful : Lawful w w'
  endures : Endures w w'
  others : ∀ id, id ≠ a.sessionId → SameView id w w'
  storyRuns : ∀ run, run.key ≠ a.sessionId.key → w'.storyRun run = w.storyRun run

/-- What a request sees happen between its steps. -/
structure Tolerates (w w' : World) : Prop where
  lawful : Lawful w w'
  endures : Endures w w'
  coherent : Coherent w'

theorem Footprint.of_framed {a : Attempt} {w w' : World} (h : Framed w w') : Footprint a w w' :=
  ⟨.of_framed h, .of_framed h, fun _ _ => .of_framed h,
    fun _ _ => by rw [World.storyRun, World.storyRun, h.storyRuns]⟩

theorem Footprint.ticked {a : Attempt} {w w' : World} {c : Choice}
    (h : Footprint a (w.tick c) w') : Footprint a w w' :=
  ⟨h.lawful.ticked, h.endures.ticked, fun id hid => (h.others id hid).ticked, h.storyRuns⟩

theorem Footprint.trans {a : Attempt} {u v w : World} (h : Footprint a u v)
    (h' : Footprint a v w) : Footprint a u w :=
  ⟨h.lawful.trans h'.lawful, h.endures.trans h'.endures,
    fun id hid => (h.others id hid).trans (h'.others id hid),
    fun run hrun => (h'.storyRuns run hrun).trans (h.storyRuns run hrun)⟩

namespace Footprint
variable {a : Attempt}

theorem insertClaim (slot : ClaimSlot) (fingerprint : Fingerprint) (w : World) :
    Footprint a w (Idempotency.insertClaim slot fingerprint w).2 := by
  refine ⟨.insertClaim _ _ _, .insertClaim _ _ _, fun _ _ => .insertClaim _ _ _, fun run _ => ?_⟩
  unfold Idempotency.insertClaim
  split_ifs <;> rfl

theorem released (slot : ClaimSlot) (w : World) :
    Footprint a w (Idempotency.released slot w) := by
  refine ⟨.released _ _, .released _ _,
    fun _ _ => .of_sameButClaims (World.sameButClaims_released _ _), fun run _ => ?_⟩
  unfold Idempotency.released
  split <;> rfl

theorem of_completed {slot : ClaimSlot} {response : CanonicalResponse} {w : World}
    (h : Lawful w (Idempotency.completed slot response w)) :
    Footprint a w (Idempotency.completed slot response w) := by
  refine ⟨h, .completed _ _ _,
    fun _ _ => .of_sameButClaims (World.sameButClaims_completed _ _ _), fun run _ => ?_⟩
  unfold Idempotency.completed
  split <;> rfl

theorem insertStoryRun {record : StoryRunRecord} (hid : record.storyRunId.key = a.sessionId.key)
    (w : World) : Footprint a w (RecordsStore.insertStoryRun record w).2 := by
  refine ⟨.insertStoryRun _ _, .insertStoryRun _ _, fun _ _ => .insertStoryRun _ _,
    fun run hrun => ?_⟩
  have hother : (decide (record.storyRunId = run)) = false :=
    decide_eq_false fun h => hrun (h ▸ hid)
  unfold RecordsStore.insertStoryRun
  split_ifs
  · rfl
  · rfl
  · rw [World.storyRun, World.storyRun, List.find?_append, List.find?_singleton, hother]
    simp

theorem insertSession {record : SessionRecord} (hid : record.sessionId = a.sessionId)
    (hkey : record.storyRunId.key = record.sessionId.key) (w : World) :
    Footprint a w (RecordsStore.insertSession record w).2 := by
  refine ⟨.insertSession hkey _, .insertSession _ _,
    fun _ hother => .insertSession (hid ▸ hother.symm) _, fun run _ => ?_⟩
  unfold RecordsStore.insertSession
  split_ifs <;> rfl

theorem insertTurn {row : TurnRow} (hid : row.record.sessionId = a.sessionId) (w : World) :
    Footprint a w (RecordsStore.insertTurn row w).2 := by
  refine ⟨.insertTurn _ _, .insertTurn _ _, fun _ hother => .insertTurn (hid ▸ hother) _,
    fun run _ => ?_⟩
  rw [insertTurn_snd]
  split_ifs <;> rfl

theorem stamp (n : ℕ) (references : List ArtifactReference) (w : World) : Footprint a w
    (w.setTurns a.sessionId ((w.turns a.sessionId).map (stampTurn n references))) :=
  ⟨.stamp _ _ _ _, .stamp _ _ _ _, fun _ hother => .setTurns hother _ _, fun _ _ => rfl⟩

theorem sessionUpdated (u : SessionUpdate) {w : World} (hw : Coherent w) :
    Footprint a w (RecordsStore.sessionUpdated a.sessionId u w) :=
  ⟨.sessionUpdated _ _ _, .sessionUpdated _ _ _, fun _ hother => .sessionUpdated hother _ _,
    fun _ hrun => Endures.storyRun_sessionUpdated u hw hrun⟩

end Footprint

/-! ## Every request keeps to its session -/

/-- What a request may see and do, whatever its auxiliary state. -/
def footing {γ : Type} (observe : Attempt → γ → World → World → γ) (a : Attempt) :
    Conduct γ where
  observe := observe a
  rely := fun _ => Tolerates
  guar := fun _ => Footprint a

namespace Footing
variable {γ : Type} {observe : Attempt → γ → World → World → γ} {a : Attempt} {w w' : World}

theorem keeps_coherent : (footing observe a).Keeps fun _ w => Coherent w :=
  ⟨fun _ _ _ _ hrely => hrely.coherent, fun _ _ _ hK hframed =>
    ⟨.of_framed hframed, (Lawful.of_framed hframed).coherent hK⟩⟩

theorem does {g : γ} (hw : Coherent w) (h : Footprint a w w') :
    (footing observe a).Does (fun _ w => Coherent w) g w w' :=
  ⟨h, h.lawful.coherent hw⟩

theorem coherent_tick {c : Choice} (hw : Coherent w) : Coherent (w.tick c) :=
  (Lawful.tick w c).coherent hw

theorem sessionOutline (hrequest : ∀ payload, a.request ≠ .createSession payload) :
    SessionOutline a (footing observe a) (fun _ w => Coherent w) (fun _ w => Coherent w)
      (fun _ w => Coherent w) (fun _ => True) (fun _ => True) where
  start := keeps_coherent
  leased := keeps_coherent
  isOpen := keeps_coherent
  weaken := fun _ _ h => h
  frame := fun _ _ _ h => .of_framed h
  acquire := by
    intro g w c token w' hw h
    have hquiet := quiet_acquireStatement a.sessionId (w.tick c)
    rw [h] at hquiet
    exact keeps_coherent.frame g w w' hw (.of_quiet ((quiet_tick w c).trans hquiet))
  claim := fun _ _ _ hw => does hw (Footprint.insertClaim _ _ _).ticked
  claimOpen := fun _ _ _ hw => does hw (Footprint.insertClaim _ _ _).ticked
  release := fun _ _ _ _ => (Footprint.released _ _).ticked
  read := fun _ _ _ hw _ _ => hw
  number := fun _ _ _ _ => trivial
  turn := fun _ _ _ _ _ hw _ hid _ _ _ => does hw (Footprint.insertTurn hid _).ticked
  last := fun _ _ _ _ _ => trivial
  stamp := fun _ _ _ _ _ hw _ => does hw (Footprint.stamp _ _ _).ticked
  mark := fun _ _ _ u hw _ => does hw (Footprint.sessionUpdated u (coherent_tick hw)).ticked
  close := fun _ _ _ u _ hw _ =>
    (Footprint.sessionUpdated u (coherent_tick hw)).ticked.trans
      (.of_completed (.completed (Attempt.slot_ne_createSlot hrequest) _ _))

theorem createOutline {payload : CreateSessionRequest}
    (hrequest : a.request = .createSession payload) :
    CreateOutline a (footing observe a) (fun _ w => Coherent w) (fun _ w => Coherent w)
      (fun _ w => Coherent w) (fun _ w => Coherent w) (fun _ w => Coherent w)
      (fun _ _ w => Coherent w) := by
  have hsession : a.sessionId = ⟨a.key⟩ := Attempt.sessionId_create hrequest
  exact {
    start := fun _ _ _ _ hrely => hrely.coherent
    claiming := keeps_coherent
    claimed := keeps_coherent
    pipeline := keeps_coherent
    opened := keeps_coherent
    answered := fun _ => keeps_coherent
    frame := fun _ _ _ h => .of_framed h
    kept := fun _ _ _ h => h.lawful.kept
    claim := fun _ _ _ hw =>
      have hdoes := does hw (Footprint.insertClaim _ _ _).ticked
      ⟨hdoes, fun _ => hdoes.2⟩
    proceed := fun _ _ _ hw _ _ => hw
    replay := fun _ _ _ _ hw _ => hw
    release := fun _ _ _ _ => (Footprint.released _ _).ticked
    storyRun := fun _ _ _ record hw hrun _ =>
      does hw (Footprint.insertStoryRun (by rw [hrun, hsession]) _).ticked
    session := fun _ _ _ record hw hid hrun _ =>
      have hdoes := does hw (Footprint.insertSession (hid.trans hsession.symm)
        (by rw [hid, hrun]) _).ticked
      ⟨hdoes, fun _ => hdoes.2⟩
    existing := fun _ _ row hw hrow =>
      have hid : row.record.core.sessionId = ⟨a.key⟩ :=
        World.sessionId_of_core (hw.core_of_run hrow)
      ⟨hid, fun _ => hw⟩
    turn := fun _ _ _ _ _ _ _ _ hw _ => does hw (Footprint.insertTurn hsession.symm _).ticked
    complete := fun _ w c r hw hcreated => by
      rw [← Attempt.createSlot hrequest]
      exact does hw (Footprint.of_completed (.created (hcreated.kept (.tick w c)))).ticked
    park := fun _ _ _ hw => by
      rw [← hsession]
      exact (Footprint.sessionUpdated _ (coherent_tick hw)).ticked.trans (.released _ _) }

/-- Every request stays within its footprint. -/
theorem rg_program {A : Choice → Prop} (a : Attempt) (g : γ) {w : World} (hw : Coherent w) :
    (footing observe a).rg A a.program (fun _ _ _ => True) (fun _ _ _ => True) g w := by
  by_cases hrequest : ∃ payload, a.request = .createSession payload
  · obtain ⟨payload, hrequest⟩ := hrequest
    exact rg_mono ((createOutline hrequest).rg_program hrequest hw)
      (fun _ _ _ _ => trivial) fun _ _ _ _ => trivial
  · rw [not_exists] at hrequest
    exact (sessionOutline hrequest).rg_program hrequest hw

end Footing

/-! ## Runs -/

section Runs
variable {γ : Type} {aux : Attempt → γ} {observe : Attempt → γ → World → World → γ}

variable {D : Discipline Attempt γ World Choice PyException Response}
variable {pool pool' : Pool Attempt γ World Choice PyException Response}

/-- No request on the session takes a step. -/
def beside (id : SessionId) : Discipline Attempt γ World Choice PyException Response where
  starts := fun _ _ _ => True
  moves := fun _ _ thread => thread.origin.sessionId ≠ id

end Runs

namespace Scenario

/-- The session ⟨2⟩ of another story. -/
def createOther : Attempt :=
  attempt (.createSession ⟨"story-02", [.md], by decide, by decide⟩) 2 steady none

end Scenario
end StoryReview
