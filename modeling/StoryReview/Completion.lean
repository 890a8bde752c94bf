import StoryReview.StoryRuns

/-!
# Completion

One transaction completes a session: it writes state, final review and reports of the
session, retires the story run and stores the canonical response under the key of the
request. A session is completed exactly when all of it is there.
-/
namespace StoryReview
open Program RecordsStore

/-- The report references of a response that answers a finalization. -/
def CanonicalResponse.finalized : CanonicalResponse → Option (List ArtifactReference)
  | .turn r => if r.outcome = .finalize then some r.reportReferences else none
  | .report r => some r.reportReferences
  | .created _ | .abandoned _ => none

/-- The claim is completed with the response of a finalization. -/
def World.StoresFinal (w : World) (slot : ClaimSlot) (references : List ArtifactReference) :
    Prop :=
  ∃ row response, w.claims slot = some row ∧ row.state = .completed ∧
    row.canonicalResponse = some response ∧ response.finalized = some references

/-- The session carries a final review and one report for each requested format, its run
is completed, and its last finalize turn carries the same references. -/
structure World.Finished (w : World) (s : SessionRecord) : Prop where
  results : ∃ review, s.finalReviewReference = some review ∧
    w.FinalizedWith s.sessionId (review :: s.reportReferences)
  reports : (s.reportReferences.map ArtifactReference.type).Perm
    (s.requestedFormats.map ArtifactType.report)
  run : ∃ run, w.storyRun s.storyRunId = some run ∧ run.state = .completed

section Steps
variable {a : Attempt} {w₀ w w' : World} {s : SessionRecord} {u : SessionUpdate}

/-! ## The closing transaction -/

/-- A closing transaction completes the session and stores a finalization response, or it
does neither. -/
theorem Closes.finalized {response : CanonicalResponse} (h : Closes a w₀ w s u response) :
    ((u.apply 0 s).state ≠ .completed ∧ response.finalized = none) ∨
      ∃ review references, (u.apply 0 s).state = .completed ∧
        (u.apply 0 s).finalReviewReference = some review ∧
        (u.apply 0 s).reportReferences = references ∧
        response.finalized = some references ∧
        w.FinalizedWith s.sessionId (review :: references) ∧
        a.slot.sessionId = some s.sessionId := by
  cases h with
  | @persist payload row canonical count hrequest hstate hmem howns hdescribes hcount houtcome =>
      refine .inl ⟨?_, if_neg houtcome⟩
      unfold SessionUpdate.apply
      split_ifs
      · rintro ⟨⟩
      · exact fun heq => absurd (hstate.symm.trans heq) (by decide)
  | completeTurn count hrequest hstate hmem howns hdescribes hcount hproduced hstamped
      hreports houtcome =>
      refine .inr ⟨_, _, rfl, rfl, rfl, ?_, hstamped, ?_⟩
      · rw [CanonicalResponse.finalized, if_pos houtcome, hreports]
        rfl
      · rw [Attempt.slot, hrequest]
        rfl
  | completeFinalize canonical hrequest hstate hproduced hstamped hreports =>
      refine .inr ⟨_, _, rfl, rfl, rfl, congrArg some hreports, hstamped, ?_⟩
      rw [Attempt.slot, hrequest]
      rfl
  | abandon => exact .inl ⟨by rintro ⟨⟩, rfl⟩

theorem World.StoresFinal.congr {slot : ClaimSlot} {references : List ArtifactReference}
    (h : w.StoresFinal slot references) (hclaims : w'.claims = w.claims) :
    w'.StoresFinal slot references := by
  unfold World.StoresFinal
  rw [hclaims]
  exact h

/-- A step closes its request, or it neither completes a session nor stores a
finalization response. -/
theorem Commit.close_or (hc : Commit a w₀ w w') :
    (∃ s u response, w.core a.sessionId = some s ∧ Closes a w₀ w s u response ∧
      a.HoldsClaim w ∧
      w' = Idempotency.completed a.slot response (sessionUpdated a.sessionId u w)) ∨
    (∀ id s', w'.core id = some s' → s'.state = .completed → w.core id = some s') ∧
      ∀ slot references, w'.StoresFinal slot references → w.StoresFinal slot references := by
  have hcore : ∀ {v : World}, v.cores = w.cores → ∀ id s', v.core id = some s' →
      s'.state = .completed → w.core id = some s' := by
    intro v hv id s' hs' _
    rwa [World.core, hv] at hs'
  have hupdate : ∀ {u : SessionUpdate} {v : World},
      v.cores = (sessionUpdated a.sessionId u w).cores →
      (∀ s, w.core a.sessionId = some s → (u.apply 0 s).state ≠ .completed) →
      ∀ id s', v.core id = some s' → s'.state = .completed → w.core id = some s' := by
    intro u v hv hother id s' hs' hdone
    rw [World.core, hv, ← World.core, World.core_sessionUpdated] at hs'
    split_ifs at hs' with hid
    · obtain ⟨s, hs, rfl⟩ := Option.map_eq_some_iff.mp hs'
      exact absurd hdone (hother s (hid ▸ hs))
    · exact hs'
  have hreleased : ∀ {v : World}, ∀ slot references,
      (Idempotency.released a.slot v).StoresFinal slot references →
      v.StoresFinal slot references := by
    rintro v slot references ⟨row, response, hrow, hstored⟩
    rw [World.claims_released] at hrow
    split_ifs at hrow with hslot
    · exact ⟨row, response, hslot ▸ (Option.filter_eq_some_iff.mp hrow).1, hstored⟩
    · exact ⟨row, response, hrow, hstored⟩
  cases hc with
  | quiet hq => exact .inr ⟨hcore hq.cores, fun _ _ h => h.congr hq.claims.symm⟩
  | draft hs hsaves =>
      obtain ⟨_, _, _, _, _, _, rfl⟩ := hsaves
      exact .inr ⟨hcore rfl, fun _ _ h => h⟩
  | claim hnone =>
      refine .inr ⟨hcore rfl, ?_⟩
      rintro slot references ⟨row, response, hrow, hdone, hstored⟩
      rw [World.claims_setClaim] at hrow
      split_ifs at hrow with hslot
      · cases hrow
        cases hdone
      · exact ⟨row, response, hrow, hdone, hstored⟩
  | release => exact .inr ⟨hcore (World.sameButClaims_released _ _).cores, hreleased⟩
  | storyRun => exact .inr ⟨hcore rfl, fun _ _ h => h⟩
  | session =>
      refine .inr ⟨fun id s' hs' hdone => ?_, fun _ _ h => h⟩
      simp only [World.core, World.cores, List.map_append, List.find?_append,
        Option.or_eq_some_iff] at hs'
      rcases hs' with hs' | ⟨-, hs'⟩
      · exact hs'
      · have hmem := List.mem_of_find?_eq_some hs'
        rw [List.map_singleton, List.mem_singleton] at hmem
        rw [hmem] at hdone
        cases hdone
  | turn => exact .inr ⟨hcore rfl, fun _ _ h => h⟩
  | mark hs hmarks =>
      refine .inr ⟨hupdate rfl fun q hq => ?_, fun _ _ h =>
        h.congr (World.claims_sessionUpdated _ _ _).symm⟩
      rw [hs] at hq
      cases hq
      cases hmarks with
      | count hstate => exact fun heq => absurd (hstate.symm.trans heq) (by decide)
      | finalizing => rintro ⟨⟩
      | rollBack => rintro ⟨⟩
  | finalReview => exact .inr ⟨hcore rfl, fun _ _ h => h⟩
  | report => exact .inr ⟨hcore rfl, fun _ _ h => h⟩
  | stamp => exact .inr ⟨hcore rfl, fun _ _ h => h⟩
  | close hs h hclaim => exact .inl ⟨_, _, _, hs, h, hclaim, rfl⟩
  | created =>
      refine .inr ⟨hcore (World.sameButClaims_completed _ _ _).cores, ?_⟩
      rintro slot references ⟨row, response, hrow, hdone, hresponse, hfinal⟩
      rw [World.claims_completed] at hrow
      split_ifs at hrow with hslot
      · obtain ⟨row, -, rfl⟩ := Option.map_eq_some_iff.mp hrow
        cases hresponse
        cases hfinal
      · exact ⟨row, response, hrow, hdone, hresponse, hfinal⟩
  | parkFailed =>
      refine .inr ⟨hupdate (World.sameButClaims_released _ _).cores fun _ _ => by rintro ⟨⟩,
        fun slot references h => ?_⟩
      exact (hreleased slot references h).congr (World.claims_sessionUpdated _ _ _).symm

/-! ## What stays -/

theorem Commit.completed_kept (hc : Commit a w₀ w w') {id : SessionId}
    (hs : w.core id = some s) (hdone : s.state = .completed) : w'.core id = some s := by
  have hclosed : ∀ {q : SessionRecord}, w.core id = some q → ¬ q.state.Open := by
    intro q hq hopen
    rw [hs] at hq
    cases hq
    exact hopen.not_completed hdone
  obtain ⟨s', hs'⟩ := hc.core_kept hs
  cases hc.core_cases hs' with
  | same hold => exact hs'.trans (hold.symm.trans hs)
  | mark _ hold hmarks => exact absurd hmarks.open_before (hclosed hold)
  | close _ hold hcloses => exact absurd hcloses.open_before (hclosed hold)
  | parkFailed _ hold hactive => exact absurd (.inl hactive) (hclosed hold)
  | session hnone =>
      rw [hs] at hnone
      cases hnone

theorem Commit.completed_turns (hc : Commit a w₀ w w') {id : SessionId}
    (hs : w.core id = some s) (hdone : s.state = .completed) : w'.turns id = w.turns id := by
  have hnot : ∀ {q : SessionRecord}, w.core id = some q → ¬ q.state.Open := by
    intro q hq hopen
    rw [hs] at hq
    cases hq
    exact hopen.not_completed hdone
  generalize hturns : w'.turns id = rows
  have heffect := hturns ▸ hc.turns_cases id
  cases heffect with
  | same => rfl
  | append _ hold hactive => exact absurd (.inl hactive) (hnot hold)
  | stamp _ hold hfinalizing => exact absurd (.inr hfinalizing) (hnot hold)

/-- A stored finalization response of a session is there for good. -/
theorem Commit.storesFinal_kept (hc : Commit a w₀ w w') {slot : ClaimSlot}
    (hslot : slot.sessionId.isSome) {references : List ArtifactReference}
    (h : w.StoresFinal slot references) : w'.StoresFinal slot references := by
  obtain ⟨row, response, hrow, hdone, hstored⟩ := h
  exact ⟨row, response, hc.claim_kept hslot hrow hdone, hdone, hstored⟩

/-! ## Runs of steps -/

theorem World.FinalizedWith.congr {id : SessionId} {references : List ArtifactReference}
    (h : w.FinalizedWith id references) (hturns : w'.turns id = w.turns id) :
    w'.FinalizedWith id references := by
  unfold World.FinalizedWith
  rw [hturns]
  exact h

/-- A completed session has its references and its stored response. -/
def World.CompletedWell (w : World) (id : SessionId) (s : SessionRecord) : Prop :=
  (∃ review, s.finalReviewReference = some review ∧
    w.FinalizedWith id (review :: s.reportReferences)) ∧
  ∃ slot, slot.sessionId = some id ∧ w.StoresFinal slot s.reportReferences

/-- A response belongs to a completed session. -/
def World.AnsweredWell (w : World) (slot : ClaimSlot) (references : List ArtifactReference) :
    Prop :=
  ∃ id s, slot.sessionId = some id ∧ w.core id = some s ∧ s.state = .completed ∧
    s.reportReferences = references

structure Completes (w : World) : Prop where
  completed : ∀ id s, w.core id = some s → s.state = .completed → w.CompletedWell id s
  stored : ∀ slot references, w.StoresFinal slot references → w.AnsweredWell slot references

theorem completes_init : Completes {} :=
  ⟨fun _ _ hs => (nomatch hs), fun _ _ ⟨_, _, hrow, _⟩ => (nomatch hrow)⟩

/-- What was there stays, so that only what a step adds is to be looked at. -/
theorem Completes.step (h : Completes w) (hc : Commit a w₀ w w')
    (hcore : ∀ id s', w'.core id = some s' → s'.state = .completed →
      w.core id = some s' ∨ w'.CompletedWell id s')
    (hclaims : ∀ slot references, w'.StoresFinal slot references →
      w.StoresFinal slot references ∨ w'.AnsweredWell slot references) : Completes w' := by
  refine ⟨fun id s hs' hdone => ?_, fun slot references hstores => ?_⟩
  · rcases hcore id s hs' hdone with hs | hnew
    · obtain ⟨⟨review, hreview, hfinalized⟩, slot, hslot, hstores⟩ := h.completed id s hs hdone
      exact ⟨⟨review, hreview, hfinalized.congr (hc.completed_turns hs hdone)⟩, slot, hslot,
        hc.storesFinal_kept (by simp [hslot]) hstores⟩
    · exact hnew
  · rcases hclaims slot references hstores with hold | hnew
    · obtain ⟨id, s, hslot, hs, hdone, hreports⟩ := h.stored slot references hold
      exact ⟨id, s, hslot, hc.completed_kept hs hdone, hdone, hreports⟩
    · exact hnew

/-- The session that a closing transaction leaves, and the response that it stores. -/
theorem Closes.completedWell {response : CanonicalResponse} (hs : w.core a.sessionId = some s)
    (hcloses : Closes a w₀ w s u response) (hclaim : a.HoldsClaim w)
    (hdone : (u.apply 0 s).state = .completed) :
    response.finalized = some (u.apply 0 s).reportReferences ∧
      a.slot.sessionId = some a.sessionId ∧
      (Idempotency.completed a.slot response (sessionUpdated a.sessionId u w)).StoresFinal a.slot
        (u.apply 0 s).reportReferences ∧
      (Idempotency.completed a.slot response (sessionUpdated a.sessionId u w)).CompletedWell
        a.sessionId (u.apply 0 s) := by
  have hsid := World.sessionId_of_core hs
  have hstored : (Idempotency.completed a.slot response
      (sessionUpdated a.sessionId u w)).claims a.slot = _ :=
    (hclaim.congr (World.claims_sessionUpdated w a.sessionId u)).completed
  rcases hcloses.finalized with ⟨hnot, -⟩ | ⟨review, references, -, hreview, hreports, hfinal,
    hfinalized, hslot⟩
  · exact absurd hdone hnot
  rw [hsid] at hslot hfinalized
  rw [hreports]
  have hstores : (Idempotency.completed a.slot response
      (sessionUpdated a.sessionId u w)).StoresFinal a.slot references :=
    ⟨_, response, hstored, rfl, rfl, hfinal⟩
  refine ⟨hfinal, hslot, hstores, ⟨review, hreview, ?_⟩, a.slot, hslot, hreports ▸ hstores⟩
  rw [hreports]
  refine hfinalized.congr ?_
  rw [(World.sameButClaims_completed _ _ _).turns, World.turns_sessionUpdated]

theorem Commit.completes (h : Completes w) (hc : Commit a w₀ w w') : Completes w' := by
  rcases hc.close_or with ⟨s, u, response, hs, hcloses, hclaim, rfl⟩ | ⟨hcore, hclaims⟩
  swap
  · exact h.step hc (fun id s' hs' hdone => .inl (hcore id s' hs' hdone))
      fun slot references hstores => .inl (hclaims slot references hstores)
  have hcore : (Idempotency.completed a.slot response
      (sessionUpdated a.sessionId u w)).core a.sessionId = _ := World.core_completed hs
  refine h.step hc (fun id s' hs' hdone => ?_) fun slot references hstores => ?_
  · by_cases hid : id = a.sessionId
    · subst hid
      rw [hcore] at hs'
      cases hs'
      exact .inr (hcloses.completedWell hs hclaim hdone).2.2.2
    · rw [World.core, (World.sameButClaims_completed _ _ _).cores, ← World.core,
        World.core_sessionUpdated, if_neg hid] at hs'
      exact .inl hs'
  · obtain ⟨row, response', hrow, hdone, hresponse, hfinal⟩ := hstores
    rw [World.claims_completed, World.claims_sessionUpdated] at hrow
    split_ifs at hrow with hslot
    · obtain ⟨row, -, rfl⟩ := Option.map_eq_some_iff.mp hrow
      cases hresponse
      rcases hcloses.finalized with ⟨-, hnone⟩ | ⟨review, references', hstate, -, hreports,
        hfinal', -, hsession⟩
      · rw [hnone] at hfinal
        cases hfinal
      · rw [hfinal'] at hfinal
        cases hfinal
        rw [World.sessionId_of_core hs] at hsession
        exact .inr ⟨a.sessionId, _, hslot ▸ hsession, hcore, hstate, hreports⟩
    · exact .inl ⟨row, response', hrow, hdone, hresponse, hfinal⟩

theorem Evolves.completed_kept {id : SessionId} (hs : w₀.core id = some s)
    (hdone : s.state = .completed) (hw : Evolves a w₀ w₀ w) : w.core id = some s := by
  induction hw with
  | refl => exact hs
  | tail _ hc ih => exact hc.completed_kept ih hdone

theorem Evolves.completes (h : Completes w₀) (hw : Evolves a w₀ w₀ w) : Completes w := by
  induction hw with
  | refl => exact h
  | tail _ hc ih => exact hc.completes ih

end Steps

/-! ## Reachable worlds -/

/-- The world after the first `n` steps of an attempt. -/
def Attempt.afterSteps (a : Attempt) (n : ℕ) (w : World) : World :=
  a.program.crash a.choices n w

theorem ReachableIf.completes {P : World → Attempt → Prop} {w : World} (h : ReachableIf P w) :
    Completes w := by
  induction h with
  | init => exact completes_init
  | @step w a hw _ ih => exact Evolves.completes ih (a.evolves hw.inv)

/-- The report types of a valid completed session are the requested ones. -/
theorem SessionRecord.Valid.reports_perm {s : SessionRecord} (h : s.Valid)
    (hdone : s.state = .completed) : (s.reportReferences.map ArtifactReference.type).Perm
      (s.requestedFormats.map ArtifactType.report) := by
  obtain ⟨-, hformats, -, -, -, htypes, hreports, hcomplete⟩ := h
  obtain ⟨-, hrequested⟩ := hcomplete hdone
  refine (List.perm_ext_iff_of_nodup hreports
    (hformats.map fun _ _ => ArtifactType.report_injective)).mpr fun type => ?_
  constructor
  · intro hmem
    obtain ⟨r, hr, rfl⟩ := List.mem_map.mp hmem
    rcases htypes r hr with htype | htype
    · rw [htype] at hmem ⊢
      exact List.mem_map_of_mem ((hrequested .md).mpr hmem)
    · rw [htype] at hmem ⊢
      exact List.mem_map_of_mem ((hrequested .pdf).mpr hmem)
  · intro hmem
    obtain ⟨format, hformat, rfl⟩ := List.mem_map.mp hmem
    exact (hrequested format).mp hformat

/-- A session is completed exactly when its results are there, and exactly then the
response of its finalization is stored. -/
structure World.CompletionCoherent (w : World) : Prop where
  finished_iff : ∀ id row, w.session id = some row →
    (row.record.state = .completed ↔ w.Finished row.record)
  stored : ∀ id row, w.session id = some row → row.record.state = .completed →
    ∃ slot, slot.sessionId = some id ∧ w.StoresFinal slot row.record.reportReferences
  completed_of_stored : ∀ slot references, w.StoresFinal slot references →
    ∃ id row, slot.sessionId = some id ∧ w.session id = some row ∧
      row.record.state = .completed ∧ row.record.reportReferences = references

theorem ReachableIf.completionCoherent {P : World → Attempt → Prop} {w : World}
    (h : ReachableIf P w) : w.CompletionCoherent := by
  refine ⟨fun id row hrow => ⟨fun hdone => ?_, fun hfinished => ?_⟩, fun id row hrow hdone => ?_,
    fun slot references hstores => ?_⟩
  · have hs := World.core_of_session hrow
    obtain ⟨⟨review, hreview, hfinalized⟩, -⟩ := h.completes.completed id _ hs hdone
    have hid : row.record.core.sessionId = id := World.sessionId_of_core hs
    have hid : row.record.sessionId = id := hid
    refine ⟨⟨review, hreview, hid ▸ hfinalized⟩,
      (SessionRecord.core_valid.mp (h.inv.valid id _ hs)).reports_perm hdone, ?_⟩
    obtain ⟨run, hrun, hsame⟩ := h.runsMatch.runs _ (World.mem_cores_of_core hs)
    have hsome := storyRun_isSome hrun
    rw [hsame] at hsome
    obtain ⟨run', hrun'⟩ := Option.isSome_iff_exists.mp hsome
    obtain ⟨hmem, hid'⟩ := mem_of_storyRun hrun'
    have hfollows := h.runsMatch.follows run' hmem _ (World.mem_cores_of_core hs) hid'.symm
    rcases hfollows with heq | ⟨-, hopen⟩
    · exact ⟨run', hrun', heq.trans hdone⟩
    · exact absurd hdone hopen.not_completed
  · have hs := World.core_of_session hrow
    obtain ⟨run, hrun, hstate⟩ := hfinished.run
    obtain ⟨hmem, hid⟩ := mem_of_storyRun hrun
    rcases h.runsMatch.follows run hmem _ (World.mem_cores_of_core hs) hid.symm with
      heq | ⟨hopen, -⟩
    · exact heq.symm.trans hstate
    · exact absurd hstate hopen.not_completed
  · exact (h.completes.completed id _ (World.core_of_session hrow) hdone).2
  · obtain ⟨id, s, hslot, hs, hdone, hreports⟩ := h.completes.stored slot references hstores
    obtain ⟨row, hrow, rfl⟩ := World.session_of_core hs
    exact ⟨id, row, hslot, hrow, hdone, hreports⟩

namespace Scenario

end Scenario
end StoryReview
