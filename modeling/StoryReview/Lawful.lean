import StoryReview.OpeningConduct

/-!
# What every statement of the service keeps

Under any interleaving a completed creation is answered from the first turn and the
artifacts of its key, and no statement takes such an answer back.
-/
namespace StoryReview
open Program Flows RecordsStore

/-- Session and run come from one key, and a completed creation claim tells what the
key has created. -/
structure Coherent (w : World) : Prop where
  runs : ∀ s ∈ w.cores, s.storyRunId.key = s.sessionId.key
  answers : ∀ key row, w.claims (createSlot key) = some row → row.state = .completed →
    ∃ r, row.canonicalResponse = some (.created r) ∧ w.Created key r

theorem coherent_init : Coherent {} := ⟨by simp [World.cores], by simp⟩

/-- A session is found under its run as under its id. -/
theorem Coherent.core_of_run {w : World} (h : Coherent w) {key : IdempotencyKey}
    {row : SessionRow} (hrow : (w.sessions.find? fun row =>
      decide (row.record.storyRunId = ⟨key⟩)) = some row) :
    w.core ⟨key⟩ = some row.record.core := by
  refine World.core_of_session (Eq.trans ?_ hrow)
  refine List.find?_congr fun q hq => ?_
  have hkey : q.record.storyRunId.key = q.record.sessionId.key :=
    h.runs q.record.core (List.mem_map_of_mem (f := fun row => row.record.core) hq)
  refine decide_eq_decide.mpr ⟨fun hid => ?_, fun hrun => ?_⟩
  · rw [hid] at hkey
    exact congrArg RunId.mk hkey
  · rw [hrun] at hkey
    exact congrArg SessionId.mk hkey.symm

structure Lawful (w w' : World) : Prop where
  kept : Kept w w'
  runs : (∀ s ∈ w.cores, s.storyRunId.key = s.sessionId.key) →
    ∀ s ∈ w'.cores, s.storyRunId.key = s.sessionId.key
  /-- A completed creation claim is old and as it was, or tells what was created. -/
  claims : ∀ key row, w'.claims (createSlot key) = some row → row.state = .completed →
    w.claims (createSlot key) = some row ∨
      ∃ r, row.canonicalResponse = some (.created r) ∧ w'.Created key r
  answered : ∀ key row, Coherent w → w.claims (createSlot key) = some row →
    row.state = .completed → w'.claims (createSlot key) = some row

namespace Lawful
variable {u v w w' : World}

theorem coherent (h : Lawful w w') (hw : Coherent w) : Coherent w' := by
  refine ⟨h.runs hw.runs, fun key row hrow hdone => ?_⟩
  rcases h.claims key row hrow hdone with hold | ⟨r, hr, hcreated⟩
  · obtain ⟨r, hr, hcreated⟩ := hw.answers key row hold hdone
    exact ⟨r, hr, hcreated.kept h.kept⟩
  · exact ⟨r, hr, hcreated⟩

/-- Steps that leave the creation claims alone. -/
theorem of_claims (hclaims : ∀ key, w'.claims (createSlot key) = w.claims (createSlot key))
    (hruns : (∀ s ∈ w.cores, s.storyRunId.key = s.sessionId.key) →
      ∀ s ∈ w'.cores, s.storyRunId.key = s.sessionId.key) (hkept : Kept w w') :
    Lawful w w' :=
  ⟨hkept, hruns, fun key _ hrow _ => .inl (hclaims key ▸ hrow),
    fun key _ _ hrow _ => (hclaims key).trans hrow⟩

theorem of_framed (h : Framed w w') : Lawful w w' :=
  of_claims (fun key => by rw [h.claims]) (fun hruns => h.cores ▸ hruns) (.of_framed h)

theorem refl (w : World) : Lawful w w := of_framed (.of_quiet (.refl w))

theorem tick (w : World) (c : Choice) : Lawful w (w.tick c) :=
  of_framed (.of_quiet (quiet_tick w c))

/-- A claim step keeps the rest; `hclaims` and `hanswered` are about the claims. -/
theorem of_sameButClaims (h : World.SameButClaims w w')
    (hclaims : ∀ key row, w'.claims (createSlot key) = some row → row.state = .completed →
      w.claims (createSlot key) = some row ∨
        ∃ r, row.canonicalResponse = some (.created r) ∧ w'.Created key r)
    (hanswered : ∀ key row, Coherent w → w.claims (createSlot key) = some row →
      row.state = .completed → w'.claims (createSlot key) = some row) : Lawful w w' :=
  ⟨.of_sameButClaims h, fun hruns => h.cores ▸ hruns, hclaims, hanswered⟩

theorem insertClaim (slot : ClaimSlot) (fingerprint : Fingerprint) (w : World) :
    Lawful w (Idempotency.insertClaim slot fingerprint w).2 := by
  unfold Idempotency.insertClaim
  split_ifs with htaken
  · exact refl w
  · rw [Option.not_isSome_iff_eq_none] at htaken
    refine of_sameButClaims (World.sameButClaims_setClaim _ _ _)
      (fun key row hrow hdone => ?_) fun key row _ hrow _ => ?_
    · rw [World.claims_setClaim] at hrow
      split_ifs at hrow with hslot
      · cases hrow
        cases hdone
      · exact .inl hrow
    · rw [World.claims_setClaim, if_neg]
      · exact hrow
      · rintro rfl
        rw [htaken] at hrow
        cases hrow

theorem released (slot : ClaimSlot) (w : World) : Lawful w (Idempotency.released slot w) := by
  refine of_sameButClaims (World.sameButClaims_released _ _)
    (fun key row hrow _ => .inl ?_) fun key row _ hrow hdone => ?_
  · rw [World.claims_released] at hrow
    split_ifs at hrow with hslot
    · exact hslot ▸ (Option.filter_eq_some_iff.mp hrow).1
    · exact hrow
  · rw [World.claims_released]
    split_ifs with hslot
    · rw [← hslot, hrow]
      simp [hdone]
    · exact hrow

/-- A session request completes its own claim. -/
theorem completed {slot : ClaimSlot} (hslot : ∀ key, slot ≠ createSlot key)
    (response : CanonicalResponse) (w : World) :
    Lawful w (Idempotency.completed slot response w) := by
  have hsame := World.sameButClaims_completed w slot response
  refine of_claims (fun key => ?_) (fun hruns => hsame.cores ▸ hruns) (.of_sameButClaims hsame)
  rw [World.claims_completed, if_neg (hslot key).symm]

/-- A creation completes its claim with what it has created; a second answer is the
first one again. -/
theorem created {key : IdempotencyKey} {r : CreateSessionResponse} (h : w.Created key r) :
    Lawful w (Idempotency.completed (createSlot key) (.created r) w) := by
  have hkey : ∀ {key'}, createSlot key' = createSlot key → key' = key := by
    rintro key' ⟨⟩
    rfl
  have hsame := World.sameButClaims_completed w (createSlot key) (.created r)
  refine of_sameButClaims hsame (fun key' row hrow hdone => ?_) fun key' row hw hrow hdone => ?_
  · rw [World.claims_completed] at hrow
    split_ifs at hrow with hslot
    · obtain ⟨row₀, -, rfl⟩ := Option.map_eq_some_iff.mp hrow
      obtain rfl := hkey hslot
      exact .inr ⟨r, rfl, h.kept (.of_sameButClaims hsame)⟩
    · exact .inl hrow
  · rw [World.claims_completed]
    split_ifs with hslot
    · obtain rfl := hkey hslot
      obtain ⟨r', hr', hcreated⟩ := hw.answers key' row hrow hdone
      rw [hcreated.unique h] at hr'
      obtain ⟨fingerprint, state, response⟩ := row
      cases hdone
      cases hr'
      rw [hrow]
      rfl
    · exact hrow

theorem sessionUpdated (id : SessionId) (u : SessionUpdate) (w : World) :
    Lawful w (RecordsStore.sessionUpdated id u w) := by
  refine of_claims (fun key => by simp) (fun hruns => ?_)
    (.of_turns (by simp) fun run => by rw [World.objects_sessionUpdated]; exact .refl _)
  rw [World.cores_sessionUpdated]
  intro s hs
  obtain ⟨q, hq, rfl⟩ := List.mem_map.mp hs
  have hkey := hruns q hq
  split_ifs <;> exact hkey

theorem insertStoryRun (record : StoryRunRecord) (w : World) :
    Lawful w (RecordsStore.insertStoryRun record w).2 := by
  have hsame := refl w
  unfold RecordsStore.insertStoryRun
  split_ifs
  · exact hsame
  · exact hsame
  · exact of_claims (fun _ => rfl) (fun hruns => hruns) (.of_turns rfl fun _ => .refl _)

theorem insertSession {record : SessionRecord}
    (hrecord : record.storyRunId.key = record.sessionId.key) (w : World) :
    Lawful w (RecordsStore.insertSession record w).2 := by
  unfold RecordsStore.insertSession
  split_ifs
  · exact refl w
  · refine of_claims (fun _ => rfl) (fun hruns => ?_) (.of_turns rfl fun _ => .refl _)
    simp only [World.cores, List.map_append, List.mem_append]
    rintro s (hs | hs)
    · exact hruns s hs
    · rw [List.mem_singleton.mp hs]
      exact hrecord

theorem insertTurn (row : TurnRow) (w : World) :
    Lawful w (RecordsStore.insertTurn row w).2 := by
  refine of_claims (fun key => ?_) (fun hruns => ?_) (kept_insertTurn row w)
  · rw [insertTurn_snd]
    split_ifs <;> rfl
  · rw [insertTurn_snd]
    split_ifs <;> exact hruns

/-- A stamp keeps replies and delegations. -/
theorem stamp (id : SessionId) (n : ℕ) (references : List ArtifactReference) (w : World) :
    Lawful w (w.setTurns id ((w.turns id).map (stampTurn n references))) := by
  refine of_claims (fun _ => rfl) (fun hruns => hruns) ⟨fun _ => .refl _, fun id' row h => ?_⟩
  have hnumber : ((fun r : TurnRow => decide (r.record.turnNumber = 1)) ∘
      stampTurn n references) = fun r => decide (r.record.turnNumber = 1) := by
    funext r
    simp only [Function.comp_apply, stampTurn]
    split_ifs <;> rfl
  rw [turnRow, World.turns_setTurns]
  split_ifs with hid
  · subst hid
    rw [List.find?_map, hnumber]
    rw [turnRow] at h
    rw [h]
    refine ⟨_, rfl, ?_⟩
    unfold stampTurn
    split_ifs <;> exact ⟨rfl, rfl⟩
  · exact ⟨row, h, rfl, rfl⟩

theorem trans (h : Lawful u v) (h' : Lawful v w) : Lawful u w := by
  refine ⟨h.kept.trans h'.kept, fun hruns => h'.runs (h.runs hruns),
    fun key row hrow hdone => ?_, fun key row hu hrow hdone =>
      h'.answered key row (h.coherent hu) (h.answered key row hu hrow hdone) hdone⟩
  rcases h'.claims key row hrow hdone with hold | hnew
  · exact (h.claims key row hold hdone).imp_right fun ⟨r, hr, hcreated⟩ =>
      ⟨r, hr, hcreated.kept h'.kept⟩
  · exact .inr hnew

/-- A statement runs on the world as it is when its time has come. -/
theorem ticked {c : Choice} (h : Lawful (w.tick c) w') : Lawful w w' := (tick w c).trans h

end Lawful
end StoryReview
