import StoryReview.Invariants

/-!
# What one durable step changes

One inversion lemma for each table: objects, turns, claims and sessions. The
results about whole runs are derived from these.
-/
namespace StoryReview
open RecordsStore

namespace Commit
variable {a : Attempt} {w₀ w w' : World}

/-! ## Objects -/

/-- The finalized reviews of a run only change when one is saved. -/
theorem objects_cases (hc : Commit a w₀ w w') (run : RunId) :
    (w.objects run).Grows (w'.objects run) ∧
      ((∀ r ∈ (w'.objects run).records, r.reference.type = .finalizedReview →
          r ∈ (w.objects run).records) ∨
        (Finalizes a w₀ ∧ ∃ s request, w.core a.sessionId = some s ∧ s.storyRunId = run ∧
          request.type = .finalizedReview ∧ request.idempotencyKey = a.key ∧
          Saves request ⟨w.fresh⟩ w.clock (w.objects run) (w'.objects run))) := by
  have hsame : w'.objects = w.objects → (w.objects run).Grows (w'.objects run) ∧
      ((∀ r ∈ (w'.objects run).records, r.reference.type = .finalizedReview →
          r ∈ (w.objects run).records) ∨
        (Finalizes a w₀ ∧ ∃ s request, w.core a.sessionId = some s ∧ s.storyRunId = run ∧
          request.type = .finalizedReview ∧ request.idempotencyKey = a.key ∧
          Saves request ⟨w.fresh⟩ w.clock (w.objects run) (w'.objects run))) :=
    fun h => ⟨h ▸ .refl _, .inl fun r hr _ => h ▸ hr⟩
  cases hc with
  | quiet hq => exact hsame hq.objects
  | @draft _ s hs hsaves =>
      obtain ⟨request, o', htype, -, -, hsaves, rfl⟩ := hsaves
      rw [World.served_objects]
      split_ifs with hrun
      · subst hrun
        refine ⟨RunObjects.grows_of_saves hsaves, .inl fun r hr hfinal => ?_⟩
        rcases RunObjects.records_of_saves hsaves hr with hr | hr
        · exact hr
        · exact absurd (hr.1.symm.trans hfinal) htype
      · exact ⟨.refl _, .inl fun r hr _ => hr⟩
  | claim => exact hsame rfl
  | release => exact hsame (World.sameButClaims_released _ _).objects
  | storyRun => exact hsame rfl
  | session => exact hsame rfl
  | turn => exact hsame rfl
  | mark => exact hsame (World.objects_sessionUpdated _ _ _)
  | @finalReview s request review o' hs hstate hfinalizes htype hcontent hat hkey hrun hsaves =>
      rw [World.served_objects]
      split_ifs with hrun'
      · subst hrun'
        exact ⟨RunObjects.grows_of_saves hsaves,
          .inr ⟨hfinalizes, s, request, hs, rfl, htype, hkey, hsaves⟩⟩
      · exact ⟨.refl _, .inl fun r hr _ => hr⟩
  | @report s request o' hs hstate hrun hrenders =>
      rw [World.served_objects]
      split_ifs with hrun'
      · subst hrun'
        refine ⟨RunObjects.grows_of_renders hrenders, .inl fun r hr _ => ?_⟩
        rwa [RunObjects.records_of_renders hrenders] at hr
      · exact ⟨.refl _, .inl fun r hr _ => hr⟩
  | stamp => exact hsame rfl
  | close =>
      exact hsame ((World.sameButClaims_completed _ _ _).objects.trans
        (World.objects_sessionUpdated _ _ _))
  | created => exact hsame (World.sameButClaims_completed _ _ _).objects
  | parkFailed =>
      exact hsame ((World.sameButClaims_released _ _).objects.trans
        (World.objects_sessionUpdated _ _ _))

/-! ## Turns -/

/-- A step leaves a session's turns, appends one, or stamps them. -/
inductive TurnsEffect (a : Attempt) (w₀ w : World) (id : SessionId) : List TurnRow → Prop
  | same : TurnsEffect a w₀ w id (w.turns id)
  | append {s : SessionRecord} {row : TurnRow} (hid : id = a.sessionId)
      (hs : w.core id = some s) (hstate : s.state = .active) (hnew : NewTurn a w₀ w s row)
      (hclaim : a.HoldsClaim w) :
      TurnsEffect a w₀ w id (w.turns id ++ [row])
  | stamp {s : SessionRecord} {n : ℕ} {references : List ArtifactReference}
      (hid : id = a.sessionId) (hs : w.core id = some s) (hstate : s.state = .finalizing)
      (hreferences : ∃ r ∈ references, r.type = .finalizedReview) :
      TurnsEffect a w₀ w id ((w.turns id).map (stampTurn n references))

theorem turns_cases (hc : Commit a w₀ w w') (id : SessionId) :
    TurnsEffect a w₀ w id (w'.turns id) := by
  have hsame : w'.turns = w.turns → TurnsEffect a w₀ w id (w'.turns id) :=
    fun h => h ▸ .same
  cases hc with
  | quiet hq => exact hsame hq.turns
  | draft hs hsaves =>
      obtain ⟨_, _, _, _, _, _, rfl⟩ := hsaves
      exact hsame rfl
  | claim => exact hsame rfl
  | release => exact hsame (World.sameButClaims_released _ _).turns
  | storyRun => exact hsame rfl
  | session => exact hsame rfl
  | turn hs hstate hvalid hnew hclaim =>
      rw [World.turns_setTurns]
      split_ifs with hid
      · have hsid := World.sessionId_of_core hs
        subst hid
        exact .append hsid (hsid ▸ hs) hstate hnew hclaim
      · exact .same
  | mark => exact hsame (World.turns_sessionUpdated _ _ _)
  | finalReview => exact hsame rfl
  | report => exact hsame rfl
  | stamp _ hs hstate hreferences =>
      rw [World.turns_setTurns]
      split_ifs with hid
      · have hsid := World.sessionId_of_core hs
        subst hid
        exact .stamp hsid (hsid ▸ hs) hstate hreferences.2.2
      · exact .same
  | close =>
      exact hsame ((World.sameButClaims_completed _ _ _).turns.trans
        (World.turns_sessionUpdated _ _ _))
  | created => exact hsame (World.sameButClaims_completed _ _ _).turns
  | parkFailed =>
      exact hsame ((World.sameButClaims_released _ _).turns.trans
        (World.turns_sessionUpdated _ _ _))

/-! ## Claims -/

/-- What a step makes of its own claim. -/
inductive ClaimEffect (a : Attempt) (w₀ w : World) : Option ClaimRow → Prop
  | same : ClaimEffect a w₀ w (w.claims a.slot)
  | claim (h : w.claims a.slot = none) :
      ClaimEffect a w₀ w (some ⟨a.fingerprint, .inProgress, none⟩)
  | release : ClaimEffect a w₀ w
      ((w.claims a.slot).filter fun row => decide (row.state = .completed))
  | close {s : SessionRecord} {u : SessionUpdate} {response : CanonicalResponse}
      (hs : w.core a.sessionId = some s) (h : Closes a w₀ w s u response)
      (hclaim : a.HoldsClaim w) :
      ClaimEffect a w₀ w ((w.claims a.slot).map fun row =>
        { row with state := .completed, canonicalResponse := some response })
  | created {payload : CreateSessionRequest} {response : CreateSessionResponse}
      (hrequest : a.request = .createSession payload) :
      ClaimEffect a w₀ w ((w.claims a.slot).map fun row =>
        { row with state := .completed, canonicalResponse := some (.created response) })

theorem claims_cases (hc : Commit a w₀ w w') :
    ClaimEffect a w₀ w (w'.claims a.slot) ∧
      ∀ slot, slot ≠ a.slot → w'.claims slot = w.claims slot := by
  have hsame : w'.claims = w.claims → ClaimEffect a w₀ w (w'.claims a.slot) ∧
      ∀ slot, slot ≠ a.slot → w'.claims slot = w.claims slot :=
    fun h => ⟨h ▸ .same, fun _ _ => h ▸ rfl⟩
  cases hc with
  | quiet hq => exact hsame hq.claims
  | draft hs hsaves =>
      obtain ⟨_, _, _, _, _, _, rfl⟩ := hsaves
      exact hsame rfl
  | claim h =>
      refine ⟨?_, fun slot hslot => ?_⟩
      · rw [World.claims_setClaim, if_pos rfl]
        exact .claim h
      · rw [World.claims_setClaim, if_neg hslot]
  | release =>
      refine ⟨?_, fun slot hslot => ?_⟩
      · rw [World.claims_released, if_pos rfl]
        exact .release
      · rw [World.claims_released, if_neg hslot]
  | storyRun => exact hsame rfl
  | session => exact hsame rfl
  | turn => exact hsame rfl
  | mark => exact hsame (World.claims_sessionUpdated _ _ _)
  | finalReview => exact hsame rfl
  | report => exact hsame rfl
  | stamp => exact hsame rfl
  | close hs h hclaim =>
      refine ⟨?_, fun slot hslot => ?_⟩
      · rw [World.claims_completed, if_pos rfl, World.claims_sessionUpdated]
        exact .close hs h hclaim
      · rw [World.claims_completed, if_neg hslot, World.claims_sessionUpdated]
  | created hrequest =>
      refine ⟨?_, fun slot hslot => ?_⟩
      · rw [World.claims_completed, if_pos rfl]
        exact .created hrequest
      · rw [World.claims_completed, if_neg hslot]
  | parkFailed =>
      refine ⟨?_, fun slot hslot => ?_⟩
      · rw [World.claims_released, if_pos rfl, World.claims_sessionUpdated]
        exact .release
      · rw [World.claims_released, if_neg hslot, World.claims_sessionUpdated]

/-! ## Sessions -/

/-- Where the session record of a stepped world comes from. -/
inductive CoreEffect (a : Attempt) (w₀ w : World) (id : SessionId) (s' : SessionRecord) : Prop
  | same (hs : w.core id = some s')
  | mark {s : SessionRecord} {u : SessionUpdate} (hid : id = a.sessionId)
      (hs : w.core id = some s) (h : Marks a w₀ w s u) (heq : s' = u.apply 0 s)
  | close {s : SessionRecord} {u : SessionUpdate} {response : CanonicalResponse}
      (hid : id = a.sessionId) (hs : w.core id = some s) (h : Closes a w₀ w s u response)
      (heq : s' = u.apply 0 s)
  | parkFailed {s : SessionRecord} (hid : id = a.sessionId) (hs : w.core id = some s)
      (hstate : s.state = .active)
      (heq : s' = SessionUpdate.apply { state := some .parked } 0 s)
  | session (hnone : w.core id = none) (hstate : s'.state = .active)
      (hcount : s'.facilitatorTurnCount = 1) (hreview : s'.finalReviewReference = none)

theorem core_cases (hc : Commit a w₀ w w') {id : SessionId} {s' : SessionRecord}
    (hs' : w'.core id = some s') : CoreEffect a w₀ w id s' := by
  have hsame : w'.cores = w.cores → CoreEffect a w₀ w id s' := by
    intro h
    rw [World.core, h] at hs'
    exact .same hs'
  have hupdate : ∀ {u : SessionUpdate} {v : World}, v.cores =
      (sessionUpdated a.sessionId u w).cores → v.core id = some s' →
      w.core id = some s' ∨
        (id = a.sessionId ∧ ∃ s, w.core id = some s ∧ s' = u.apply 0 s) := by
    intro u v hv hvs
    rw [World.core, hv] at hvs
    have hcore := w.core_sessionUpdated a.sessionId u id
    rw [World.core] at hcore
    rw [hcore] at hvs
    split_ifs at hvs with hid
    · obtain ⟨s, hs, rfl⟩ := Option.map_eq_some_iff.mp hvs
      exact .inr ⟨hid, s, hs, rfl⟩
    · exact .inl hvs
  cases hc with
  | quiet hq => exact hsame hq.cores
  | draft hs hsaves =>
      obtain ⟨_, _, _, _, _, _, rfl⟩ := hsaves
      exact hsame rfl
  | claim => exact hsame rfl
  | release => exact hsame (World.sameButClaims_released _ _).cores
  | storyRun => exact hsame rfl
  | session =>
      simp only [World.core, World.cores, List.map_append, List.find?_append,
        Option.or_eq_some_iff] at hs'
      rcases hs' with hs' | ⟨hnone, hs'⟩
      · exact .same hs'
      · have hmem := List.mem_of_find?_eq_some hs'
        rw [List.map_singleton, List.mem_singleton] at hmem
        exact .session hnone (hmem ▸ rfl) (hmem ▸ rfl) (hmem ▸ rfl)
  | turn => exact hsame rfl
  | mark hs h =>
      rcases hupdate rfl hs' with hold | ⟨hid, s, hcore, heq⟩
      · exact .same hold
      · rw [← hid, hcore] at hs
        cases hs
        exact .mark hid hcore h heq
  | finalReview => exact hsame rfl
  | report => exact hsame rfl
  | stamp => exact hsame rfl
  | close hs h =>
      rcases hupdate (World.sameButClaims_completed _ _ _).cores hs' with
        hold | ⟨hid, s, hcore, heq⟩
      · exact .same hold
      · rw [← hid, hcore] at hs
        cases hs
        exact .close hid hcore h heq
  | created => exact hsame (World.sameButClaims_completed _ _ _).cores
  | parkFailed hrequest hs hstate =>
      rcases hupdate (World.sameButClaims_released _ _).cores hs' with
        hold | ⟨hid, s, hcore, heq⟩
      · exact .same hold
      · rw [← hid, hcore] at hs
        cases hs
        exact .parkFailed hid hcore hstate heq

end Commit

theorem Evolves.grows {a : Attempt} {w₀ w w' : World} (h : Evolves a w₀ w w') (run : RunId) :
    (w.objects run).Grows (w'.objects run) := by
  induction h with
  | refl => exact .refl _
  | tail _ hc ih => exact ih.trans (hc.objects_cases run).1

end StoryReview
