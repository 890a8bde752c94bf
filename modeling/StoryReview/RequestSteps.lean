import StoryReview.FinalizationSteps

/-!
# The durable steps of the requests

Every program an endpoint runs takes the durable steps of its attempt only, and
a turn request answers with a turn it owns or with the one its claim records.
-/
namespace StoryReview
open Program RecordsStore Flows

/-! ## New turns -/

theorem orderedInsert_eq_append {α : Type} {r : α → α → Prop} [DecidableRel r] {x : α}
    {xs : List α} (h : ∀ y ∈ xs, ¬ r x y) : xs.orderedInsert r x = xs ++ [x] := by
  induction xs with
  | nil => rfl
  | cons y ys ih =>
      rw [List.orderedInsert_cons, if_neg (h y (by simp)), ih fun z hz => h z (by simp [hz])]
      rfl

namespace Inv
variable {w : World} {id : SessionId}

theorem numbered_turns (h : Inv w) : ((w.turns id).map fun row => row.record.turnNumber) =
    List.range' 1 (w.turns id).length := by
  have hold := h.numbered id
  simp only [World.history, List.map_map, List.length_map] at hold
  exact hold

theorem turnNumber_le (h : Inv w) {row : TurnRow} (hrow : row ∈ w.turns id) :
    1 ≤ row.record.turnNumber ∧ row.record.turnNumber ≤ (w.turns id).length := by
  have hmem := List.mem_map_of_mem (f := fun row : TurnRow => row.record.turnNumber) hrow
  rw [h.numbered_turns, List.mem_range'_1] at hmem
  omega

/-- A turn number determines the turn. -/
theorem turn_unique (h : Inv w) {row row' : TurnRow} (hrow : row ∈ w.turns id)
    (hrow' : row' ∈ w.turns id) (hnumber : row.record.turnNumber = row'.record.turnNumber) :
    row = row' := by
  have hnodup : ((w.turns id).map fun row => row.record.turnNumber).Nodup := by
    rw [h.numbered_turns]
    exact List.nodup_range'
  exact List.inj_on_of_nodup_map hnodup hrow hrow' hnumber

theorem nextTurnNumber (h : Inv w) :
    TurnsFlow.nextTurnNumber (w.history id) = (w.turns id).length + 1 := by
  unfold TurnsFlow.nextTurnNumber
  have hlast := congrArg List.getLast? (h.numbered id)
  rw [List.getLast?_map, World.history, List.length_map] at hlast
  rw [World.history]
  cases hl : ((w.turns id).map TurnRow.record).getLast? with
  | none =>
      rw [List.getLast?_eq_none_iff, List.map_eq_nil_iff] at hl
      simp [hl]
  | some t =>
      rw [hl, Option.map_some] at hlast
      cases hn : (w.turns id).length with
      | zero => simp [hn] at hlast
      | succ n =>
          rw [hn, List.range'_concat, List.getLast?_concat, Option.some.injEq] at hlast
          simp only [hlast]
          omega

/-- The next turn is appended. -/
theorem insertTurn (h : Inv w) {row : TurnRow} (hid : row.record.sessionId = id)
    (hnumber : row.record.turnNumber = (w.turns id).length + 1) :
    RecordsStore.insertTurn row w = (true, w.setTurns id (w.turns id ++ [row])) := by
  have hnone : turnRow w id row.record.turnNumber = none := by
    simp only [turnRow, List.find?_eq_none, decide_eq_true_eq]
    intro q hq heq
    have := (h.turnNumber_le hq).2
    omega
  have hinsert : (w.turns id).orderedInsert
      (fun a b => a.record.turnNumber ≤ b.record.turnNumber) row = w.turns id ++ [row] := by
    refine orderedInsert_eq_append fun q hq hle => ?_
    have := (h.turnNumber_le hq).2
    omega
  simp only [RecordsStore.insertTurn, hid, hnone, hinsert, Option.isSome_none,
    Bool.false_eq_true, if_false]

end Inv

section Turns
variable {a : Attempt} {w₀ w : World} {s : SessionRecord}

theorem FinalOutput.congr {w' : World} {output : FacilitatorTurnOutput}
    {references : List ArtifactReference} (h : FinalOutput a w₀ w s output references)
    (hobjects : w'.objects = w.objects) : FinalOutput a w₀ w' s output references := by
  have hstores : ∀ run id report, w.StoresSynthesis run id report →
      w'.StoresSynthesis run id report := by
    intro run id report hstored
    exact hstored.mono (hobjects ▸ .refl _)
  cases h with
  | plain hanswer hlatest hstored hinvoke hreuse =>
      exact .plain hanswer hlatest (hstores _ _ _ hstored) hinvoke hreuse
  | summary hanswer hstored hreference hreviews hlength =>
      exact .summary hanswer (hstores _ _ _ hstored) hreference hreviews hlength

/-- A final output answers one of the turn's two facilitator calls. -/
theorem FinalOutput.answered {output : FacilitatorTurnOutput}
    {references : List ArtifactReference} (h : FinalOutput a w₀ w s output references) :
    ∃ request, a.Answers request output ∧
      (request.invocationId =
          .facilitatorTurn a.key s.sessionId (s.facilitatorTurnCount + 1) ∨
        request.invocationId =
          .facilitatorSummary a.key s.sessionId (s.facilitatorTurnCount + 1)) := by
  cases h with
  | plain hanswer => exact ⟨_, hanswer.answers, .inl hanswer.invocationId⟩
  | summary hanswer => exact ⟨_, hanswer.answers, .inr hanswer.invocationId⟩

theorem NewTurn.quiet {w' : World} {row : TurnRow} (h : NewTurn a w₀ w s row)
    (hq : Quiet w w') : NewTurn a w₀ w' s row := by
  cases h with
  | opening hrequest hanswer hturn hcall hreport hnostate hstored hsynthesis hreviews hempty =>
      exact .opening hrequest hanswer hturn hcall hreport hnostate
        (hstored.mono (hq.objects ▸ .refl _)) hsynthesis hreviews (hq.turns ▸ hempty)
  | accepted hrequest haccepted hsame hbefore =>
      rw [← hq.turns] at hsame ⊢
      exact .accepted hrequest haccepted hsame hbefore
  | message hrequest haccepted hsame hbefore hfinal =>
      rw [← hq.turns] at hsame ⊢
      exact .message hrequest haccepted hsame hbefore (hfinal.congr hq.objects)

/-- No new turn produced a finalized review. -/
theorem NewTurn.unstamped {row : TurnRow} (h : NewTurn a w₀ w s row) :
    ∀ r ∈ row.record.producedArtifacts, r.type ≠ .finalizedReview := by
  cases h with
  | opening hrequest hanswer hturn hcall hreport hnostate hstored hsynthesis hreviews hempty =>
      intro r hr
      simp only [Flows.openingRecord, List.mem_cons, List.not_mem_nil, or_false] at hr
      rcases hr with rfl | rfl | rfl
      · exact hreviews.1 ▸ by decide
      · exact hreviews.2 ▸ by decide
      · exact hsynthesis.1 ▸ by decide
  | accepted => exact List.forall_mem_nil _
  | @message payload draft createdAt completedAt hrequest haccepted hsame hbefore hfinal =>
      intro r hr
      simp only [TurnsFlow.messageRecord] at hr
      generalize draft.newReferences ++
        (if draft.produced = true then [draft.synthesisReference] else []) = produced
        at hfinal hr
      cases hfinal with
      | plain => cases hr
      | summary hanswer hstored hreference hreviews hlength =>
          rcases List.mem_append.mp hr with hr | hr
          · obtain ⟨p, hp⟩ := hreviews r hr
            rw [hp]
            cases p <;> decide
          · exact List.mem_singleton.mp hr ▸ hreference.1 ▸ by decide

/-- What the insertion of a turn leaves. -/
structure TurnStored (a : Attempt) (w₀ w : World) (s : SessionRecord) (row : TurnRow)
    (t : World) : Prop where
  evolves : Evolves a w₀ w₀ t
  turns : t.turns a.sessionId = w.turns a.sessionId ++ [row]
  core : t.core a.sessionId = some s
  claims : t.claims = w.claims
  objects : t.objects = w.objects

theorem TurnStored.last {row : TurnRow} {t : World} (h : TurnStored a w₀ w s row t) :
    (t.turns a.sessionId).getLast? = some row := by
  rw [h.turns, List.getLast?_concat]

theorem TurnStored.unstamped {row : TurnRow} {t v : World} (h : TurnStored a w₀ w s row t)
    (hsame : w.turns a.sessionId = w₀.turns a.sessionId) (hnew : NewTurn a w₀ v s row) :
    w₀.Unstamped a.sessionId → t.Unstamped a.sessionId := by
  intro h₀ record hrecord
  rw [World.history, h.turns, hsame, List.map_append, List.mem_append] at hrecord
  rcases hrecord with hrecord | hrecord
  · exact h₀ record hrecord
  · rw [List.map_singleton, List.mem_singleton] at hrecord
    exact hrecord ▸ hnew.unstamped

theorem TurnStored.countsTurn {row : TurnRow} {t : World} (h : TurnStored a w₀ w s row t)
    (hid : s.sessionId = a.sessionId) (hsame : w.turns a.sessionId = w₀.turns a.sessionId)
    (hmessage : ∃ payload, a.request = .turn a.sessionId payload ∧ payload.poAccepted = false)
    (hbefore : w₀.core a.sessionId = some s) (hactive : s.state = .active) (hdelegated : row.record.delegation.isSome)
    (hten : s.facilitatorTurnCount + 1 ≤ 10) :
    CountsTurn a w₀ t s (s.facilitatorTurnCount + 1) :=
  ⟨hid ▸ hmessage, ⟨s, hid ▸ hbefore, hactive, rfl⟩, ⟨row, by rw [hid, h.turns, hsame], hdelegated⟩, hten⟩

theorem safe_createTurn (h₀ : Inv w₀) (hw : Evolves a w₀ w₀ w)
    (hs : w.core a.sessionId = some s) (hstate : s.state = .active) {record : TurnRecord}
    {producer : Producer} (hnew : NewTurn a w₀ w s ⟨record, producer⟩)
    (hclaim : a.HoldsClaim w) :
    Safe a w₀ (fun b t => b = record ∧ TurnStored a w₀ w s ⟨record, producer⟩ t)
      (createTurnOrGet record producer) w := by
  have hsid := World.sessionId_of_core hs
  unfold createTurnOrGet
  refine Safe.bind_ofExcept hw fun record' hrecord => ?_
  unfold turnRecord at hrecord
  split_ifs at hrecord with hvalid
  cases hrecord
  refine Safe.bind (R := fun b t => b = true ∧ TurnStored a w₀ w s ⟨record, producer⟩ t)
    (safe_statement hw fun v hv hq => ?_) ?_
  · have hnew' := hnew.quiet hq
    obtain ⟨hnumber, hsession, -⟩ := hnew'.spec
    have hinsert := (h₀.evolves hv).insertTurn hsession hnumber
    have hcommit : Commit a w₀ v _ := .turn ((hq.core _).trans hs) hstate hvalid hnew'
      (hclaim.congr hq.claims)
    rw [hinsert]
    have hnext := hv.tail hcommit
    refine ⟨hnext, rfl, hnext, ?_, (hq.core _).trans hs, hq.claims, hq.objects⟩
    rw [hsid, World.turns_setTurns, if_pos rfl, hq.turns]
  · rintro _ t ⟨rfl, ht⟩
    exact ⟨rfl, ht⟩

end Turns

/-! ## Responses -/

theorem describes_turnResult {record : TurnRecord} {sessionId : SessionId}
    {state : SessionState} {reference : ArtifactReference}
    {reports : List ArtifactReference} {canonical : CanonicalTurnResult}
    {outcome : TurnOutcome} (houtcome : record.outcome = outcome)
    (hsession : record.sessionId = sessionId)
    (h : TurnsFlow.canonicalTurnResult (TurnsFlow.turnResult sessionId record outcome state
      reference reports) = .ok canonical) : Describes canonical record := by
  unfold TurnsFlow.canonicalTurnResult at h
  split_ifs at h
  cases h
  subst houtcome hsession
  exact ⟨_, _, _, rfl⟩

/-- Stamping artifacts on a turn leaves what responses tell of it. -/
theorem Describes.stamp {canonical : CanonicalTurnResult} {row : TurnRow}
    (h : Describes canonical row.record) (n : ℕ) (references : List ArtifactReference) :
    Describes canonical (stampTurn n references row).record := by
  obtain ⟨state, reference, reports, rfl⟩ := h
  unfold stampTurn
  split_ifs <;> exact ⟨_, _, _, rfl⟩

theorem Describes.tells {canonical : CanonicalTurnResult} {record : TurnRecord}
    {resolutions : List ResolutionItem} {response : TurnResponse}
    (h : Describes canonical record) (hresolutions : resolutions = record.resolutions)
    (hresponse : TurnsFlow.turnResponse canonical resolutions = .ok response) :
    Tells response record := by
  obtain ⟨state, reference, reports, rfl⟩ := h
  unfold TurnsFlow.turnResponse at hresponse
  dsimp only at hresponse
  split_ifs at hresponse
  cases hresponse
  exact ⟨rfl, rfl, rfl, rfl, rfl, rfl, hresolutions⟩

/-- The stamp changes the artifact list of one turn and nothing else. -/
theorem stampTurn_eq (n : ℕ) (references : List ArtifactReference) (row : TurnRow) :
    stampTurn n references row = { row with record := { row.record with
      producedArtifacts :=
        if row.record.turnNumber = n then references else row.record.producedArtifacts } } := by
  unfold stampTurn
  split_ifs <;> rfl

@[simp] theorem stampTurn_resolutions (n : ℕ) (references : List ArtifactReference)
    (row : TurnRow) :
    (stampTurn n references row).record.resolutions = row.record.resolutions := by
  rw [stampTurn_eq]

@[simp] theorem stampTurn_delegation (n : ℕ) (references : List ArtifactReference)
    (row : TurnRow) :
    (stampTurn n references row).record.delegation = row.record.delegation := by
  rw [stampTurn_eq]

@[simp] theorem stampTurn_newIssues (n : ℕ) (references : List ArtifactReference)
    (row : TurnRow) :
    (stampTurn n references row).record.newIssues = row.record.newIssues := by
  rw [stampTurn_eq]

@[simp] theorem stampTurn_turnNumber (n : ℕ) (references : List ArtifactReference)
    (row : TurnRow) :
    (stampTurn n references row).record.turnNumber = row.record.turnNumber := by
  rw [stampTurn_eq]

@[simp] theorem stampTurn_outcome (n : ℕ) (references : List ArtifactReference)
    (row : TurnRow) :
    (stampTurn n references row).record.outcome = row.record.outcome := by
  rw [stampTurn_eq]

theorem stampTurn_producer (n : ℕ) (references : List ArtifactReference) (row : TurnRow) :
    (stampTurn n references row).producer = row.producer := by
  rw [stampTurn_eq]

/-- The claim stores the canonical result that the response is rebuilt from. -/
structure AnswerRecorded (a : Attempt) (response : TurnResponse) (canonical : CanonicalTurnResult)
    (turn : TurnRecord) (t : World) : Prop where
  claim : t.claims a.slot = some ⟨a.fingerprint, .completed, some (.turn canonical)⟩
  stored : turn ∈ t.history canonical.sessionId
  number : turn.turnNumber = canonical.turnNumber
  response : TurnsFlow.turnResponse canonical turn.resolutions = .ok response

theorem AnswerRecorded.quiet {a : Attempt} {t u : World} {response : TurnResponse}
    {canonical : CanonicalTurnResult} {turn : TurnRecord}
    (h : AnswerRecorded a response canonical turn t) (hq : Quiet t u) :
    AnswerRecorded a response canonical turn u := by
  refine ⟨hq.claims ▸ h.claim, ?_, h.number, h.response⟩
  rw [World.history, hq.turns]
  exact h.stored

/-- The facilitator turn of an answered message is counted. -/
def MessageCounted (a : Attempt) (w₀ t : World) : Prop :=
  ∀ payload s₀, a.request = .turn a.sessionId payload → payload.poAccepted = false →
    w₀.core a.sessionId = some s₀ → s₀.state = .active →
    ∃ s, t.core a.sessionId = some s ∧
      s.facilitatorTurnCount = s₀.facilitatorTurnCount + 1

/-- A turn request answers with a turn it owns, or with the turn that its completed
claim records. -/
inductive TurnAnswered (a : Attempt) (w₀ : World) (response : TurnResponse) (t : World) : Prop
  | own {row : TurnRow} {canonical : CanonicalTurnResult}
      (hmem : row ∈ t.turns a.sessionId) (howns : Owns a w₀ row)
      (htells : Tells response row.record)
      (hrecorded : AnswerRecorded a response canonical row.record t)
      (hcounted : MessageCounted a w₀ t)
  | replay {canonical : CanonicalTurnResult} {turn : TurnRecord}
      (hrecorded : AnswerRecorded a response canonical turn w₀) (hquiet : Quiet w₀ t)

theorem TurnAnswered.quiet {a : Attempt} {w₀ t u : World} {response : TurnResponse}
    (h : TurnAnswered a w₀ response t) (hq : Quiet t u) : TurnAnswered a w₀ response u := by
  cases h with
  | own hmem howns htells hrecorded hcounted =>
      refine .own (hq.turns ▸ hmem) howns htells (hrecorded.quiet hq) ?_
      intro payload s₀ hrequest haccepted hs₀ hactive
      rw [hq.core]
      exact hcounted payload s₀ hrequest haccepted hs₀ hactive
  | replay hrecorded hquiet => exact .replay hrecorded (hquiet.trans hq)

section Responses
variable {a : Attempt} {w₀ w : World} {s session : SessionRecord} {row : TurnRow}
variable {payload : TurnRequest}

theorem Attempt.turnSlot (hrequest : a.request = .turn a.sessionId payload) :
    TurnsFlow.slot a.sessionId a.key = a.slot := by
  rw [Attempt.slot, hrequest]

/-- The session record that a closing transaction leaves. -/
theorem World.core_completed {slot : ClaimSlot} {response : CanonicalResponse}
    {id : SessionId} {u : SessionUpdate} (hs : w.core id = some s) :
    (Idempotency.completed slot response (sessionUpdated id u w)).core id =
      some (u.apply 0 s) := by
  rw [World.core, (World.sameButClaims_completed _ _ _).cores]
  rw [← World.core, World.core_sessionUpdated, if_pos rfl, hs, Option.map_some]

/-- A closed claim stores the response. -/
theorem Attempt.HoldsClaim.completed {response : CanonicalResponse} (h : a.HoldsClaim w) :
    (Idempotency.completed a.slot response w).claims a.slot =
      some ⟨a.fingerprint, .completed, some response⟩ := by
  obtain ⟨claim, hclaim, -, hbody⟩ := h
  rw [World.claims_completed, if_pos rfl, hclaim, Option.map_some, hbody]

theorem Describes.number {canonical : CanonicalTurnResult} {record : TurnRecord}
    (h : Describes canonical record) :
    canonical.sessionId = record.sessionId ∧ canonical.turnNumber = record.turnNumber ∧
      canonical.outcome = record.outcome := by
  obtain ⟨state, reference, reports, rfl⟩ := h
  exact ⟨rfl, rfl, rfl⟩

theorem safe_finalizeAndRespond (h₀ : Inv w₀) (hw : Evolves a w₀ w₀ w)
    (hrequest : a.request = .turn a.sessionId payload)
    (hs : w.core a.sessionId = some s) (hstate : s.state = .active ∨ s.state = .finalizing)
    (hlast : (w.turns a.sessionId).getLast? = some row)
    (houtcome : row.record.outcome = .finalize) (hfinalizes : Finalizes a w₀)
    (howns : Owns a w₀ row) (hid : session.sessionId = a.sessionId)
    (hrun : session.storyRunId = s.storyRunId)
    (hformats : session.requestedFormats = s.requestedFormats) {count : Option ℕ}
    (hunstamped : w₀.Unstamped a.sessionId → w.Unstamped a.sessionId)
    (hcount : ∀ n ∈ count, n = s.facilitatorTurnCount) (hclaim : a.HoldsClaim w)
    (hcounted : ∀ s₀, payload.poAccepted = false → w₀.core a.sessionId = some s₀ →
      s₀.state = .active → s.facilitatorTurnCount = s₀.facilitatorTurnCount + 1)
    (turns : List TurnRecord) (correlationId : Uuid) (reference : ArtifactReference) :
    Safe a w₀ (fun response t => Evolves a w₀ w₀ t ∧ TurnAnswered a w₀ response t)
      (TurnsFlow.finalizeAndRespond session row.record turns reference count a.key
        correlationId) w := by
  have hsid := World.sessionId_of_core hs
  unfold TurnsFlow.finalizeAndRespond
  refine Safe.bind (safe_runFlow3 h₀ hw hs hstate hlast houtcome hfinalizes hid hrun hformats
    hunstamped turns correlationId reference) ?_
  rintro result t ⟨ht, hcore, hclaims, ⟨n, hturns⟩, hfinalized, hproduced⟩
  refine Safe.bind_ofExcept ht fun canonical hcanonical => ?_
  have hmem := List.mem_of_getLast? hlast
  have hsession := ((h₀.evolves hw).turns _ _ (List.mem_map_of_mem hmem)).2
  have hdescribes := (describes_turnResult houtcome (hsession.trans hid.symm)
    hcanonical).stamp n (result.finalReviewReference :: result.reportReferences)
  have hshape : canonical.reportReferences = result.reportReferences ∧
      canonical.outcome = .finalize := by
    unfold TurnsFlow.canonicalTurnResult at hcanonical
    split_ifs at hcanonical
    cases hcanonical
    exact ⟨rfl, rfl⟩
  have howns' : Owns a w₀ (stampTurn n
      (result.finalReviewReference :: result.reportReferences) row) := by
    unfold Owns at howns ⊢
    rw [stampTurn_producer]
    exact howns
  rw [hid, Attempt.turnSlot hrequest]
  have hmem' := List.mem_map_of_mem (f := stampTurn n
    (result.finalReviewReference :: result.reportReferences)) hmem
  rw [← hturns] at hmem'
  refine Safe.bind (R := fun _ u => Evolves a w₀ w₀ u ∧ u.turns = t.turns ∧
    u.claims a.slot = some ⟨a.fingerprint, .completed, some (.turn canonical)⟩ ∧
    ∃ s', u.core a.sessionId = some s' ∧ s'.facilitatorTurnCount = s.facilitatorTurnCount)
    ?_ ?_
  · refine safe_execute ht fun v hv hq => ?_
    have hholds : a.HoldsClaim v := hclaim.congr (hq.claims.trans hclaims)
    have hclose : Commit a w₀ v _ := .close ((hq.core _).trans hcore)
      (.completeTurn count (hsid ▸ hrequest) rfl
        (by rw [hq.turns]; exact hsid ▸ hmem') howns' hdescribes hcount
        (hproduced.congr hq.objects)
        (by rw [World.FinalizedWith, hq.turns]; exact hsid ▸ hfinalized) hshape.1
        hshape.2) hholds
    have hnext := hv.tail hclose
    refine ⟨hnext, hnext, ?_, (hholds.congr (World.claims_sessionUpdated _ _ _)).completed,
      _, World.core_completed ((hq.core _).trans hcore), ?_⟩
    · rw [(World.sameButClaims_completed _ _ _).turns, World.turns_sessionUpdated, hq.turns]
    · cases count with
      | none => rfl
      | some n => exact hcount n rfl
  · rintro - u ⟨hu, hturnsu, hclaimu, s', hs', hcount'⟩
    refine (wp_ofExcept _).mpr ⟨fun response hresponse => ⟨hu, ?_⟩, fun _ _ => hu⟩
    have hsame := (stampTurn_resolutions n
      (result.finalReviewReference :: result.reportReferences) row).symm
    obtain ⟨hcsid, hcnumber, -⟩ := hdescribes.number
    refine .own (hturnsu ▸ hmem') howns' (hdescribes.tells hsame hresponse)
      ⟨hclaimu, ?_, hcnumber.symm, hsame ▸ hresponse⟩ ?_
    · rw [hcsid, ((h₀.evolves ht).turns _ _ (List.mem_map_of_mem hmem')).2, World.history,
        hturnsu]
      exact List.mem_map_of_mem hmem'
    · intro payload' s₀ hrequest' haccepted hs₀ hactive
      cases hrequest.symm.trans hrequest'
      exact ⟨s', hs', hcount'.trans (hcounted s₀ haccepted hs₀ hactive)⟩

theorem safe_persistAndRespond (h₀ : Inv w₀) (hw : Evolves a w₀ w₀ w)
    (hrequest : a.request = .turn a.sessionId payload)
    (hs : w.core a.sessionId = some s) (hstate : s.state = .active)
    (hmem : row ∈ w.turns a.sessionId) (howns : row.producer = .turn a.key)
    {count : ℕ} (hcount : CountsTurn a w₀ w s count) {outcome : TurnOutcome}
    (hpark : outcome = .park ↔ parkTurn ≤ count) (hopen : row.record.outcome ≠ .finalize)
    (hclaim : a.HoldsClaim w) (reference : ArtifactReference)
    {resolutions : List ResolutionItem} (hresolutions : resolutions = row.record.resolutions) :
    Safe a w₀ (fun response t => Evolves a w₀ w₀ t ∧ TurnAnswered a w₀ response t)
      (TurnsFlow.persistAndRespond a.sessionId a.key row.record outcome reference resolutions
        count) w := by
  have hsid := World.sessionId_of_core hs
  unfold TurnsFlow.persistAndRespond
  refine Safe.bind_ofExcept hw fun canonical hcanonical => ?_
  have hsession := ((h₀.evolves hw).turns _ _ (List.mem_map_of_mem hmem)).2
  have hdescribes := describes_turnResult rfl hsession hcanonical
  obtain ⟨hcsid, hcnumber, hcoutcome⟩ := hdescribes.number
  rw [Attempt.turnSlot hrequest]
  simp only [hpark]
  refine Safe.bind (R := fun _ u => Evolves a w₀ w₀ u ∧ u.turns = w.turns ∧
    u.claims a.slot = some ⟨a.fingerprint, .completed, some (.turn canonical)⟩ ∧
    ∃ s', u.core a.sessionId = some s' ∧ s'.facilitatorTurnCount = count) ?_ ?_
  · refine safe_execute hw fun v hv hq => ?_
    have hholds : a.HoldsClaim v := hclaim.congr hq.claims
    have hclose : Commit a w₀ v _ := .close ((hq.core _).trans hs)
      (.persist (hsid ▸ hrequest) hstate (by rw [hq.turns, hsid]; exact hmem) howns hdescribes
        (hcount.congr hq.turns) (hcoutcome ▸ hopen)) hholds
    have hnext := hv.tail hclose
    refine ⟨hnext, hnext, ?_, (hholds.congr (World.claims_sessionUpdated _ _ _)).completed,
      _, World.core_completed ((hq.core _).trans hs), rfl⟩
    rw [(World.sameButClaims_completed _ _ _).turns, World.turns_sessionUpdated, hq.turns]
  · rintro - u ⟨hu, hturnsu, hclaimu, s', hs', hcount'⟩
    refine (wp_ofExcept _).mpr ⟨fun response hresponse => ⟨hu, ?_⟩, fun _ _ => hu⟩
    refine .own (hturnsu ▸ hmem) (.inl howns) (hdescribes.tells hresolutions hresponse)
      ⟨hclaimu, ?_, hcnumber.symm, hresolutions ▸ hresponse⟩ ?_
    · rw [hcsid, hsession, World.history, hturnsu]
      exact List.mem_map_of_mem hmem
    · intro payload' s₀ _ _ hs₀ _
      obtain ⟨s₁, hs₁, -, hbefore⟩ := hcount.before
      rw [hsid, hs₀] at hs₁
      cases hs₁
      exact ⟨s', hs', hcount'.trans hbefore⟩

end Responses

/-! ## Claims -/

/-- A request under its in-progress claim, before its first durable change. -/
structure Started (a : Attempt) (w₀ t : World) : Prop where
  evolves : Evolves a w₀ w₀ t
  cores : t.cores = w₀.cores
  turns : t.turns = w₀.turns
  objects : t.objects = w₀.objects
  claim : a.HoldsClaim t

namespace Started
variable {a : Attempt} {w₀ t u : World}

theorem quiet (h : Started a w₀ t) (hq : Quiet t u) : Started a w₀ u :=
  ⟨h.evolves.quiet hq, hq.cores.trans h.cores, hq.turns.trans h.turns,
    hq.objects.trans h.objects, h.claim.congr hq.claims⟩

theorem core (h : Started a w₀ t) : t.core = w₀.core := by
  funext id
  simp only [World.core, h.cores]

theorem history (h : Started a w₀ t) : t.history = w₀.history := by
  funext id
  simp only [World.history, h.turns]

end Started

/-- What a claim's outcome tells about the world the attempt started in. -/
inductive ClaimTaken (a : Attempt) (w₀ t : World) : Idempotency.ClaimOutcome → Prop
  | claimed (hfree : w₀.claims a.slot = none) (hstarted : Started a w₀ t) :
      ClaimTaken a w₀ t .claimed
  | inProgress {row : ClaimRow} (hrow : w₀.claims a.slot = some row)
      (hstate : row.state = .inProgress) (hbody : row.requestFingerprint = a.fingerprint)
      (hstarted : Started a w₀ t) : ClaimTaken a w₀ t .inProgress
  | replay {row : ClaimRow} (hrow : w₀.claims a.slot = some row)
      (hstate : row.state = .completed) (hbody : row.requestFingerprint = a.fingerprint)
      (hquiet : Quiet w₀ t) :
      ClaimTaken a w₀ t (.replay row.canonicalResponse)

theorem moves_claim {A : Choice → Prop} {R : World → World → Prop} [IsTrans World R]
    (hquiet : ∀ w w', Quiet w w' → R w w')
    (hclaims : ∀ w w', World.SameButClaims w w' → R w w') (slot : ClaimSlot)
    (fingerprint : Fingerprint) : (Idempotency.claim slot fingerprint).Moves A R := by
  refine moves_bind (moves_statement fun w c => ?_) fun inserted => ?_
  · unfold Idempotency.insertClaim
    split_ifs
    · exact hquiet _ _ (quiet_tick w c)
    · exact IsTrans.trans _ _ _ (hquiet _ _ (quiet_tick w c))
        (hclaims _ _ (World.sameButClaims_setClaim _ _ _))
  · cases inserted with
    | true => exact moves_ret _
    | false =>
        refine moves_bind ((quiet_query _).mono hquiet) fun existing => ?_
        cases existing with
        | none => exact moves_raise _
        | some existing =>
            dsimp only
            split_ifs
            · exact moves_raise _
            · cases existing.state <;> exact moves_ret _

theorem safe_claim {a : Attempt} {w₀ w : World} (hq₀ : Quiet w₀ w) :
    Safe a w₀ (fun outcome t => Evolves a w₀ w₀ t ∧ ClaimTaken a w₀ t outcome)
      (Idempotency.claim a.slot a.fingerprint) w := by
  have hw : Evolves a w₀ w₀ w := .single (.quiet hq₀)
  refine Safe.bind (R := fun inserted t => match inserted with
    | true => w₀.claims a.slot = none ∧ Started a w₀ t
    | false => (w₀.claims a.slot).isSome ∧ Quiet w₀ t) ?_ ?_
  · refine safe_statement hw fun v hv hq => ?_
    unfold Idempotency.insertClaim
    by_cases hsome : (v.claims a.slot).isSome
    · rw [if_pos hsome]
      exact ⟨hv, (hq₀.trans hq).claims ▸ hsome, hq₀.trans hq⟩
    · rw [if_neg hsome]
      rw [Option.not_isSome_iff_eq_none] at hsome
      have hnext := hv.tail (.claim hsome)
      refine ⟨hnext, (hq₀.trans hq).claims ▸ hsome, hnext, (hq₀.trans hq).cores,
        (hq₀.trans hq).turns, (hq₀.trans hq).objects, ?_⟩
      exact ⟨_, by rw [World.claims_setClaim, if_pos rfl], rfl, rfl⟩
  · intro inserted t ht
    cases inserted with
    | true => exact ⟨ht.2.evolves, .claimed ht.1 ht.2⟩
    | false =>
        obtain ⟨hsome, hqt⟩ := ht
        have htw : Evolves a w₀ w₀ t := .single (.quiet hqt)
        refine Safe.bind_quiet (R := fun b _ => b = w₀.claims a.slot) htw (quiet_query _)
          (yields_query fun c => hqt.claims ▸ rfl) ?_
        rintro _ u hu hq rfl
        cases hrow : w₀.claims a.slot with
        | none => exact hu
        | some row =>
            dsimp only
            split_ifs with hbody
            · exact hu
            · rw [not_not] at hbody
              split
              · next hstate => exact ⟨hu, .replay hrow hstate hbody (hqt.trans hq)⟩
              · next hstate =>
                  refine ⟨hu, .inProgress hrow hstate hbody ⟨hu, (hqt.trans hq).cores,
                    (hqt.trans hq).turns, (hqt.trans hq).objects, row, ?_, hstate, hbody⟩⟩
                  rw [(hqt.trans hq).claims, hrow]

theorem safe_release {a : Attempt} {w₀ w : World} (hw : Evolves a w₀ w₀ w) :
    Safe a w₀ (fun _ => Evolves a w₀ w₀) (Idempotency.release a.slot) w :=
  safe_execute hw fun _ hv _ => ⟨hv.tail .release, hv.tail .release⟩

/-! ## Turn requests -/

section TurnRequests
variable {a : Attempt} {w₀ w : World} {s session : SessionRecord} {payload : TurnRequest}

/-- What a successful turn request has established. -/
abbrev AnswersTurn (a : Attempt) (w₀ : World) (response : TurnResponse) (t : World) : Prop :=
  Evolves a w₀ w₀ t ∧ TurnAnswered a w₀ response t

theorem safe_resumeFinalizing (h₀ : Inv w₀) (hstart : Started a w₀ w)
    (hrequest : a.request = .turn a.sessionId payload)
    (hs : w₀.core a.sessionId = some session.core) (hstate : session.state = .finalizing)
    {row : ClaimRow} (hrow : w₀.claims a.slot = some row) (hprogress : row.state = .inProgress)
    (hbody : row.requestFingerprint = a.fingerprint) (correlationId : Uuid) :
    Safe a w₀ (AnswersTurn a w₀)
      (TurnsFlow.resumeFinalizing session a.key correlationId) w := by
  have hid : session.sessionId = a.sessionId :=
    show session.core.sessionId = _ from World.sessionId_of_core hs
  unfold TurnsFlow.resumeFinalizing
  rw [hid]
  refine Safe.bind_quiet hstart.evolves (quiet_listTurns _) (yields_listTurns _) ?_
  rintro _ t₁ ht₁ hq₁ rfl
  rw [hstart.history, World.history, List.getLast?_map]
  cases hlast : (w₀.turns a.sessionId).getLast? with
  | none => exact ht₁
  | some turn =>
      rw [Option.map_some]
      by_cases houtcome : turn.record.outcome = .finalize
      swap
      · simp only [Option.filter, houtcome, decide_false, Bool.false_eq_true, if_false]
        exact ht₁
      simp only [Option.filter, houtcome, decide_true, if_true]
      refine Safe.bind_quiet ht₁ (quiet_latestSynthesis _ _) (yields_any _ _)
        fun reference t₂ ht₂ hq₂ _ => ?_
      refine Safe.bind_quiet ht₂ (quiet_setProcessingStage _ _) (yields_any _ _)
        fun _ t₃ ht₃ hq₃ _ => ?_
      have hstart₃ := hstart.quiet ((hq₁.trans hq₂).trans hq₃)
      have hbefore : ∃ s, w₀.core a.sessionId = some s ∧ s.state = .finalizing :=
        ⟨session.core, hs, hstate⟩
      refine safe_finalizeAndRespond (s := session.core) h₀ ht₃ hrequest (hstart₃.core ▸ hs)
        (.inr hstate) (hstart₃.turns ▸ hlast) houtcome
        (.resume hrequest hbefore ⟨row, hrow, hprogress, hbody⟩)
        (.inr ⟨hbefore, ⟨row, hrow, hprogress⟩, turn, hlast, rfl⟩) hid rfl rfl
        (by rw [World.Unstamped, World.Unstamped, hstart₃.history]; exact id) (by simp)
        hstart₃.claim (fun s₀ _ hs₀ hactive => ?_) _ _ _
      rw [hs] at hs₀
      cases hs₀
      cases hstate.symm.trans hactive

theorem safe_acceptTurn (h₀ : Inv w₀) (hstart : Started a w₀ w)
    (hrequest : a.request = .turn a.sessionId payload) (haccepted : payload.poAccepted = true)
    (hs : w₀.core a.sessionId = some session.core) (hstate : session.state = .active)
    {turnNumber : ℕ} (hnumber : turnNumber = (w₀.turns a.sessionId).length + 1) :
    Safe a w₀ (AnswersTurn a w₀)
      (TurnsFlow.acceptTurn session turnNumber a.key a.correlationId) w := by
  have hid : session.sessionId = a.sessionId :=
    show session.core.sessionId = _ from World.sessionId_of_core hs
  have hrequest' : a.request = .turn session.core.sessionId payload :=
    hrequest.trans (congrArg (Request.turn · payload) hid.symm)
  have hbefore : ∃ s₀, w₀.core session.core.sessionId = some s₀ ∧ s₀.state = .active :=
    ⟨session.core, hid ▸ hs, hstate⟩
  unfold TurnsFlow.acceptTurn
  refine Safe.bind_quiet hstart.evolves quiet_now (yields_any _ _) fun createdAt t₁ ht₁ hq₁ _ => ?_
  refine Safe.bind_quiet ht₁ quiet_now (yields_any _ _) fun completedAt t₂ ht₂ hq₂ _ => ?_
  have hstart₂ := hstart.quiet (hq₁.trans hq₂)
  have hnew : NewTurn a w₀ t₂ session.core ⟨TurnsFlow.acceptedRecord session.core.sessionId
      ((t₂.turns session.core.sessionId).length + 1) a.correlationId createdAt completedAt,
      .turn a.key⟩ := .accepted hrequest' haccepted (by rw [hstart₂.turns]) hbefore
  have hlength : (t₂.turns session.core.sessionId).length + 1 = turnNumber := by
    rw [hstart₂.turns, show session.core.sessionId = a.sessionId from hid, hnumber]
  rw [hlength] at hnew
  refine Safe.bind (safe_createTurn (s := session.core) h₀ ht₂ (hstart₂.core ▸ hs) hstate hnew hstart₂.claim) ?_
  rintro _ t₃ ⟨rfl, hstored⟩
  refine Safe.bind_quiet hstored.evolves (quiet_listTurns _) (yields_any _ _)
    fun turns t₄ ht₄ hq₄ _ => ?_
  refine Safe.bind_quiet ht₄ (quiet_latestSynthesis _ _) (yields_any _ _)
    fun reference t₅ ht₅ hq₅ _ => ?_
  refine Safe.bind_quiet ht₅ (quiet_setProcessingStage _ _) (yields_any _ _)
    fun _ t₆ ht₆ hq₆ _ => ?_
  have hq := (hq₄.trans hq₅).trans hq₆
  have hlast := hstored.last
  rw [← hq.turns] at hlast
  exact safe_finalizeAndRespond (s := session.core) h₀ ht₆ hrequest
    ((hq.core _).trans hstored.core) (.inl hstate) hlast rfl
    (.accept hrequest haccepted ⟨session.core, hs, hstate⟩) (.inl rfl) hid rfl rfl
    (by
      have hhistory : t₆.history = t₃.history := by
        funext id
        rw [World.history, hq.turns]
        rfl
      simp only [World.Unstamped, hhistory]
      exact hstored.unstamped (by rw [hstart₂.turns]) hnew) (by simp)
    (hstart₂.claim.congr (hq.claims.trans hstored.claims))
    (fun s₀ hmessage _ _ => absurd (haccepted.symm.trans hmessage) nofun) _ _ _

theorem safe_commitTurn (h₀ : Inv w₀) (hw : Evolves a w₀ w₀ w)
    (hturns : w.turns = w₀.turns) (hcores : w.cores = w₀.cores)
    (hclaim : a.HoldsClaim w)
    (hrequest : a.request = .turn a.sessionId payload) (haccepted : payload.poAccepted = false)
    (hs : w₀.core a.sessionId = some session.core) (hstate : session.state = .active)
    {turnNumber : ℕ} (hnumber : turnNumber = (w₀.turns a.sessionId).length + 1)
    (hcount : session.facilitatorTurnCount + 1 ≤ 10) {draft : TurnsFlow.TurnDraft}
    (hfinal : FinalOutput a w₀ w session.core draft.output (draft.newReferences ++
      if draft.produced then [draft.synthesisReference] else [])) :
    Safe a w₀ (AnswersTurn a w₀) (TurnsFlow.commitTurn session payload.message turnNumber
      (session.facilitatorTurnCount + 1) draft a.key a.correlationId) w := by
  have hid : session.sessionId = a.sessionId :=
    show session.core.sessionId = _ from World.sessionId_of_core hs
  have hrequest' : a.request = .turn session.core.sessionId payload :=
    hrequest.trans (congrArg (Request.turn · payload) hid.symm)
  have hbefore : w₀.core session.core.sessionId = some session.core ∧
      session.core.state = .active := ⟨hid ▸ hs, hstate⟩
  have hcore : w.core = w₀.core := by
    funext id
    simp only [World.core, hcores]
  unfold TurnsFlow.commitTurn
  refine Safe.bind_quiet hw quiet_now (yields_any _ _) fun createdAt t₁ ht₁ hq₁ _ => ?_
  refine Safe.bind_quiet ht₁ quiet_now (yields_any _ _) fun completedAt t₂ ht₂ hq₂ _ => ?_
  have hq := hq₁.trans hq₂
  have hnew : NewTurn a w₀ t₂ session.core ⟨TurnsFlow.messageRecord session.core.sessionId
      ((t₂.turns session.core.sessionId).length + 1) a.correlationId payload.message draft
      (evaluateGate (session.core.facilitatorTurnCount + 1) draft.output.delegation) createdAt
      completedAt, .turn a.key⟩ :=
    .message hrequest' haccepted (by rw [hq.turns, hturns]) hbefore (hfinal.congr hq.objects)
  have hlength : (t₂.turns session.core.sessionId).length + 1 = turnNumber := by
    rw [hq.turns, hturns, show session.core.sessionId = a.sessionId from hid, hnumber]
  rw [hlength] at hnew
  refine Safe.bind (safe_createTurn (s := session.core) h₀ ht₂ ((hq.core _).trans (hcore ▸ hs)) hstate hnew
    (hclaim.congr hq.claims)) ?_
  rintro _ t₃ ⟨rfl, hstored⟩
  have hlast := hstored.last
  have hsame : t₂.turns a.sessionId = w₀.turns a.sessionId := by rw [hq.turns, hturns]
  have hcounts : CountsTurn a w₀ t₃ session.core (session.facilitatorTurnCount + 1) :=
    hstored.countsTurn hid hsame ⟨payload, hrequest, haccepted⟩ hs hstate rfl hcount
  have hpark := evaluateGate_eq_park (n := session.facilitatorTurnCount + 1)
    (d := draft.output.delegation)
  split_ifs with hgate
  · have hlt : session.facilitatorTurnCount + 1 < parkTurn := by
      by_contra hge
      rw [hpark.mpr (not_lt.mp hge)] at hgate
      cases hgate
    refine Safe.bind (hid ▸ safe_updateSession (s := session.core) hstored.evolves hstored.core
      (.count hstate hcounts hlt)) ?_
    rintro - t₄ ⟨ht₄, hcore₄, hturns₄, hclaims₄⟩
    rw [hid] at hcore₄
    refine Safe.bind_quiet ht₄ (quiet_listTurns _) (yields_any _ _)
      fun turns t₅ ht₅ hq₅ _ => ?_
    refine Safe.bind_quiet ht₅ (quiet_setProcessingStage _ _) (yields_any _ _)
      fun _ t₆ ht₆ hq₆ _ => ?_
    have hqq := hq₅.trans hq₆
    obtain ⟨request, hanswer, hcall⟩ := hfinal.answered
    rw [show session.core.sessionId = a.sessionId from hid] at hcall
    refine safe_finalizeAndRespond h₀ ht₆ hrequest ((hqq.core _).trans hcore₄) (.inl hstate)
      (by rw [hqq.turns, hturns₄]; exact hlast) hgate
      (.gate hrequest haccepted ⟨hs, hstate⟩ hanswer hcall hgate) (.inl rfl) hid rfl rfl
      (by
        have hhistory : t₆.history = t₃.history := by
          funext id
          rw [World.history, hqq.turns, hturns₄]
          rfl
        simp only [World.Unstamped, hhistory]
        exact hstored.unstamped hsame hnew)
      (fun n hn => Option.some.inj hn ▸ rfl)
      (hclaim.congr (((hqq.claims.trans hclaims₄).trans hstored.claims).trans hq.claims))
      (fun s₀ _ hs₀ _ => ?_) _ _ _
    rw [hs] at hs₀
    cases hs₀
    rfl
  · rw [hid]
    exact safe_persistAndRespond h₀ hstored.evolves hrequest hstored.core hstate
      (List.mem_of_getLast? hlast) rfl hcounts hpark hgate
      (hclaim.congr (hstored.claims.trans hq.claims)) _ rfl

theorem safe_messageTurn (h₀ : Inv w₀) (hstart : Started a w₀ w)
    (hrequest : a.request = .turn a.sessionId payload) (haccepted : payload.poAccepted = false)
    (hs : w₀.core a.sessionId = some session.core) (hstate : session.state = .active)
    {turnNumber : ℕ} (hnumber : turnNumber = (w₀.turns a.sessionId).length + 1) :
    Safe a w₀ (AnswersTurn a w₀) (TurnsFlow.messageTurn session payload.message
      (w₀.history session.sessionId) turnNumber a.key a.correlationId) w := by
  have hid : session.sessionId = a.sessionId :=
    show session.core.sessionId = _ from World.sessionId_of_core hs
  unfold TurnsFlow.messageTurn
  dsimp only
  split_ifs with hcount
  · exact hstart.evolves
  · have hevolves : ∀ t, Drafting a.key session.storyRunId w t → Evolves a w₀ w₀ t :=
      fun t ht => hstart.evolves.trans (Drafting.evolves (s := session) ht (hstart.core ▸ hs))
    refine Safe.bind (R := fun draft t => Drafting a.key session.storyRunId w t ∧
      FinalOutput a w₀ t session.core draft.output (draft.newReferences ++
        if draft.produced then [draft.synthesisReference] else [])) ?_ ?_
    · exact (moves_draftTurn _ _ _ _ _ _ _).wp_of_yields .refl
        (yields_draftTurn (h₀.evolves hstart.evolves) hstart.objects rfl
          (by rw [hnumber, World.history, List.length_map, hid]) _)
        hevolves (fun _ _ h hb => ⟨h, hb⟩) fun _ => hevolves
    · rintro draft t ⟨ht, hfinal⟩
      have hframe := ht.framed
      exact safe_commitTurn h₀ (hevolves t ht) (hframe.turns.trans hstart.turns)
        (hframe.cores.trans hstart.cores) (hstart.claim.congr hframe.claims) hrequest haccepted hs
        hstate hnumber (not_lt.mp hcount) hfinal

/-- What is left of a turn request once its claim is taken. -/
def TurnsFlow.liveTurn (sessionId : SessionId) (payload : TurnRequest) (key : IdempotencyKey)
    (correlationId : Uuid) (userId : UserId) (claim : Idempotency.ClaimOutcome) :
    Orchestration TurnResponse := do
  let session ← getSession sessionId userId
  match session with
  | none => .raise (.assertionError "session is not None")
  | some session =>
      match session.state with
      | .finalizing =>
          if claim = .inProgress then
            TurnsFlow.resumeFinalizing session key correlationId
          else do
            Idempotency.release (TurnsFlow.slot sessionId key)
            .raise (readOnly correlationId session.state)
      | .active => TurnsFlow.activeTurn session payload key correlationId
      | state => do
          Idempotency.release (TurnsFlow.slot sessionId key)
          .raise (readOnly correlationId state)

theorem safe_liveTurn (h₀ : Inv w₀) (hrequest : a.request = .turn a.sessionId payload)
    (userId : UserId) (outcome : Idempotency.ClaimOutcome) (ht₁ : Evolves a w₀ w₀ w)
    (hstart : Started a w₀ w)
    (hresume : outcome = .inProgress → ∃ row, w₀.claims a.slot = some row ∧
      row.state = .inProgress ∧ row.requestFingerprint = a.fingerprint) :
    Safe a w₀ (AnswersTurn a w₀)
      (TurnsFlow.liveTurn a.sessionId payload a.key a.correlationId userId outcome) w := by
  unfold TurnsFlow.liveTurn
  rw [Attempt.turnSlot hrequest]
  refine Safe.bind_quiet ht₁ (quiet_getSession _ _) (yields_getSession _ _)
    fun session t₂ ht₂ hq₂ hsession => ?_
  have hstart₂ := hstart.quiet hq₂
  cases session with
  | none => exact ht₂
  | some session =>
      have hs : w₀.core a.sessionId = some session.core := by
        rw [← hstart.core]
        exact (hsession session rfl).1
      have hid : session.sessionId = a.sessionId :=
        show session.core.sessionId = _ from World.sessionId_of_core hs
      dsimp only
      split
      · next hstate =>
          split_ifs with houtcome
          · obtain ⟨row, hrow, hprogress, hbody⟩ := hresume houtcome
            exact safe_resumeFinalizing h₀ hstart₂ hrequest hs hstate hrow hprogress hbody _
          · exact Safe.bind (safe_release ht₂) fun _ _ h => h
      · next hstate =>
          unfold TurnsFlow.activeTurn
          rw [hid]
          refine Safe.bind_quiet ht₂ (quiet_listTurns _) (yields_listTurns _) ?_
          rintro _ t₃ ht₃ hq₃ rfl
          have hstart₃ := hstart₂.quiet hq₃
          have hnumber : TurnsFlow.nextTurnNumber (t₂.history a.sessionId) =
              (w₀.turns a.sessionId).length + 1 := by
            rw [hstart₂.history]
            exact h₀.nextTurnNumber
          split_ifs with haccepted
          · exact safe_acceptTurn h₀ hstart₃ hrequest haccepted hs hstate hnumber
          · have hmessage := safe_messageTurn h₀ hstart₃ hrequest
              (Bool.eq_false_iff.mpr haccepted) hs hstate hnumber
            rw [hid, ← hstart₂.history] at hmessage
            exact hmessage
      · exact Safe.bind (safe_release ht₂) fun _ _ h => h

theorem safe_executeTurn (h₀ : Inv w₀) (hq₀ : Quiet w₀ w)
    (hrequest : a.request = .turn a.sessionId payload) (userId : UserId) :
    Safe a w₀ (AnswersTurn a w₀)
      (TurnsFlow.executeTurn a.sessionId payload a.key a.correlationId userId) w := by
  have hbody : Fingerprint.turn payload = a.fingerprint := by
    rw [Attempt.fingerprint, hrequest]
  have hclaim := safe_claim (a := a) hq₀
  rw [← Attempt.turnSlot hrequest, ← hbody] at hclaim
  refine Safe.bind hclaim ?_
  rintro outcome t₁ ⟨ht₁, hclaim⟩
  cases hclaim with
  | claimed hfree hstart => exact safe_liveTurn h₀ hrequest userId _ ht₁ hstart (by rintro ⟨⟩)
  | inProgress hrow hstate hsame hstart =>
      exact safe_liveTurn h₀ hrequest userId _ ht₁ hstart fun _ => ⟨_, hrow, hstate, hsame⟩
  | @replay row hrow hstate hbody hquiet =>
      dsimp only
      unfold TurnsFlow.responseFromCanonical
      split
      · exact ht₁
      · next result hcanonical =>
          refine Safe.bind_quiet ht₁ (quiet_getTurn _ _) (yields_getTurn _ _)
            fun turn t₂ ht₂ hq₂ hturn => ?_
          cases turn with
          | none => exact ht₂
          | some turn =>
              obtain ⟨hmem, hnumber⟩ := hturn turn rfl
              refine (wp_ofExcept _).mpr ⟨fun response hresponse => ⟨ht₂, ?_⟩, fun _ _ => ht₂⟩
              refine .replay ⟨?_, ?_, hnumber, hresponse⟩ (hquiet.trans hq₂)
              · rw [hrow, ← hbody, ← hstate, ← hcanonical]
              · simpa only [World.history, hquiet.turns] using hmem
      · exact ht₁

theorem safe_ensure {α : Type} {p : Orchestration α} {q : Orchestration Unit}
    {Q : α → World → Prop} (hp : Safe a w₀ (fun b t => Evolves a w₀ w₀ t ∧ Q b t) p w)
    (hq : q.Moves a.Admits Quiet) (hQ : ∀ b t u, Q b t → Quiet t u → Q b u) :
    Safe a w₀ (fun b t => Evolves a w₀ w₀ t ∧ Q b t) (p.ensure q) w := by
  refine (wp_ensure _ _).mpr (wp_mono hp (fun _ h => h) ?_ ?_)
  · rintro b t ⟨ht, hb⟩
    exact Safe.of_quiet ht hq (yields_any _ _) fun _ u hu hqu _ => ⟨hu, hQ b t u hb hqu⟩
  · exact fun e t ht => Safe.of_quiet ht hq (yields_any _ _) fun _ u hu _ _ => hu

theorem safe_postTurn (h₀ : Inv w₀) (hrequest : a.request = .turn a.sessionId payload)
    (userId : UserId) :
    Safe a w₀ (AnswersTurn a w₀)
      (postTurn a.sessionId payload a.key a.correlationId userId) w₀ := by
  refine (wp_tryCatch _ _).mpr (wp_mono (Q := AnswersTurn a w₀) (E := fun _ => Evolves a w₀ w₀)
    ?_ (fun _ h => h) (fun _ _ h => h) fun e t ht => ?_)
  · refine Safe.bind_quiet .refl (quiet_getSession _ _) (yields_any _ _)
      fun session t₁ ht₁ hq₁ _ => ?_
    cases session with
    | none => exact ht₁
    | some session =>
        refine Safe.bind_quiet ht₁ (quiet_acquire _) (yields_any _ _)
          fun token t₂ ht₂ hq₂ _ => ?_
        exact safe_ensure (safe_executeTurn h₀ (hq₁.trans hq₂) hrequest userId)
          (quiet_releaseLease _ _) fun _ _ _ h hq => h.quiet hq
  · split <;> exact ht

end TurnRequests

/-! ## Finalize requests -/

section FinalizeRequests
variable {a : Attempt} {w₀ w : World} {session : SessionRecord}

theorem safe_resumeFlow3 (h₀ : Inv w₀) (hstart : Started a w₀ w)
    (hrequest : a.request = .finalize a.sessionId)
    (hs : w₀.core a.sessionId = some session.core) (hstate : session.state = .finalizing) :
    Safe a w₀ (fun _ => Evolves a w₀ w₀)
      (Finalize.resumeFlow3 session a.key a.correlationId) w := by
  have hid : session.sessionId = a.sessionId :=
    show session.core.sessionId = _ from World.sessionId_of_core hs
  have hslot : Finalize.slot a.sessionId a.key = a.slot := by
    rw [Attempt.slot, hrequest]
  have hrequest' : a.request = .finalize session.core.sessionId :=
    hrequest.trans (congrArg Request.finalize hid.symm)
  unfold Finalize.resumeFlow3
  rw [hid, hslot]
  refine Safe.bind_quiet hstart.evolves (quiet_listTurns _) (yields_any _ _)
    fun turns t₁ ht₁ hq₁ _ => ?_
  split_ifs
  · exact ht₁
  · refine Safe.bind_quiet ht₁ (quiet_latestSynthesis _ _) (yields_any _ _)
      fun reference t₂ ht₂ hq₂ _ => ?_
    refine Safe.bind_quiet ht₂ (quiet_setProcessingStage _ _) (yields_any _ _)
      fun _ t₃ ht₃ hq₃ _ => ?_
    have hstart₃ := hstart.quiet ((hq₁.trans hq₂).trans hq₃)
    obtain ⟨turn, hturn, houtcome⟩ := h₀.finalizing _ _ hs hstate
    rw [World.history, List.getLast?_map, Option.map_eq_some_iff] at hturn
    obtain ⟨row, hlast, rfl⟩ := hturn
    refine Safe.bind (safe_runFlow3 (s := session.core) h₀ ht₃ (hstart₃.core ▸ hs)
      (.inr hstate) (hstart₃.turns ▸ hlast) houtcome
      (.finalize hrequest ⟨session.core, hs, hstate⟩) hid rfl rfl
      (by rw [World.Unstamped, World.Unstamped, hstart₃.history]; exact id) _ _ _) ?_
    rintro result t₄ ⟨ht₄, hcore, hclaims, -, hfinalized, hproduced⟩
    refine Safe.bind_ofExcept ht₄ fun canonical hcanonical => ?_
    have hreports : canonical.reportReferences = result.reportReferences := by
      simp only [Finalize.canonicalReport] at hcanonical
      split_ifs at hcanonical
      cases hcanonical
      rfl
    refine Safe.bind (R := fun _ => Evolves a w₀ w₀) ?_ fun _ t ht =>
      (wp_ofExcept _).mpr ⟨fun _ _ => ht, fun _ _ => ht⟩
    refine safe_execute ht₄ fun v hv hq => ?_
    have hclose : Commit a w₀ v _ := .close ((hq.core _).trans hcore)
      (.completeFinalize canonical hrequest' rfl (hproduced.congr hq.objects)
        (by rw [World.FinalizedWith, hq.turns]; exact hid ▸ hfinalized) hreports)
      (hstart₃.claim.congr (hq.claims.trans hclaims))
    exact ⟨hv.tail hclose, hv.tail hclose⟩

theorem safe_postFinalize (h₀ : Inv w₀) (hrequest : a.request = .finalize a.sessionId)
    (userId : UserId) :
    Safe a w₀ (fun _ => Evolves a w₀ w₀)
      (postFinalize a.sessionId a.key a.correlationId userId) w₀ := by
  have hslot : Finalize.slot a.sessionId a.key = a.slot := by
    rw [Attempt.slot, hrequest]
  have hbody : Fingerprint.empty = a.fingerprint := by
    rw [Attempt.fingerprint, hrequest]
  have hrespond : ∀ {t : World} (r : Except PyException Finalize.ReportResponse),
      Evolves a w₀ w₀ t → Safe a w₀ (fun _ => Evolves a w₀ w₀) (ofExcept r) t :=
    fun r ht => (wp_ofExcept r).mpr ⟨fun _ _ => ht, fun _ _ => ht⟩
  have hlease : ∀ t, Quiet w₀ t → Safe a w₀ (fun _ => Evolves a w₀ w₀)
      (Finalize.resumeUnderLease a.sessionId a.key a.correlationId userId) t := by
    intro t hq
    refine Safe.bind_quiet (.single (.quiet hq)) (quiet_getSession _ _) (yields_getSession _ _)
      fun session t₁ ht₁ hq₁ hsession => ?_
    cases session with
    | none => exact ht₁
    | some session =>
        dsimp only
        split
        · exact hrespond _ ht₁
        · exact ht₁
        · exact ht₁
        · next hstate =>
            have hs : w₀.core a.sessionId = some session.core :=
              (hq.core _) ▸ (hsession session rfl).1
            rw [hslot, hbody]
            refine Safe.bind (safe_claim (hq.trans hq₁)) ?_
            rintro outcome t₂ ⟨ht₂, hclaim⟩
            cases hclaim with
            | claimed _ hstart => exact safe_resumeFlow3 h₀ hstart hrequest hs hstate
            | inProgress _ _ _ hstart => exact safe_resumeFlow3 h₀ hstart hrequest hs hstate
            | replay => exact hrespond _ ht₂
  refine (wp_tryCatch _ _).mpr (wp_mono (Q := fun _ => Evolves a w₀ w₀)
    (E := fun _ => Evolves a w₀ w₀) ?_ (fun _ h => h) (fun _ _ h => h) fun e t ht => ?_)
  · refine Safe.bind_quiet .refl (quiet_getSession _ _) (yields_any _ _)
      fun session t₁ ht₁ hq₁ _ => ?_
    cases session with
    | none => exact ht₁
    | some session =>
        dsimp only
        split
        · exact hrespond _ ht₁
        · exact ht₁
        · exact ht₁
        · refine Safe.bind_quiet ht₁ (quiet_acquire _) (yields_any _ _)
            fun token t₂ ht₂ hq₂ _ => ?_
          have hensure := safe_ensure (Q := fun _ _ => True)
            ((hlease t₂ (hq₁.trans hq₂)).mono fun _ _ h => ⟨h, trivial⟩)
            (quiet_releaseLease a.sessionId token) fun _ _ _ h _ => h
          exact hensure.mono fun _ _ h => h.1
  · split <;> exact ht

end FinalizeRequests

/-! ## Abandon requests -/

section AbandonRequests
variable {a : Attempt} {w₀ w : World}

theorem Attempt.parkSlot (hrequest : a.request = .abandon a.sessionId) :
    Abandon.slot a.sessionId a.key = a.slot := by
  rw [Attempt.slot, hrequest]

/-- What is left of an abandonment once its claim is taken. -/
def Abandon.parkUnderClaim (sessionId : SessionId) (key : IdempotencyKey)
    (correlationId : Uuid) (userId : UserId) : Orchestration SessionId := do
  let session ← getSession sessionId userId
  match session with
  | none => .raise (.assertionError "session is not None")
  | some session =>
      if session.state ≠ .active ∧ session.state ≠ .finalizing then do
        Idempotency.release (Abandon.slot sessionId key)
        .raise (Abandon.readOnly correlationId)
      else do
        execute fun w => Idempotency.completed (Abandon.slot sessionId key)
          (.abandoned session.sessionId)
          (sessionUpdated sessionId { state := some .parked } w)
        pure session.sessionId

theorem safe_parkUnderClaim (ht₁ : Evolves a w₀ w₀ w) (hstart : Started a w₀ w)
    (hrequest : a.request = .abandon a.sessionId) (userId : UserId) :
    Safe a w₀ (fun _ => Evolves a w₀ w₀)
      (Abandon.parkUnderClaim a.sessionId a.key a.correlationId userId) w := by
  unfold Abandon.parkUnderClaim
  rw [Attempt.parkSlot hrequest]
  refine Safe.bind_quiet ht₁ (quiet_getSession _ _) (yields_getSession _ _)
    fun session t₂ ht₂ hq₂ hsession => ?_
  cases session with
  | none => exact ht₂
  | some session =>
      have hs := (hsession session rfl).1
      have hid : session.sessionId = a.sessionId :=
        show session.core.sessionId = _ from World.sessionId_of_core hs
      dsimp only
      split_ifs with hstate
      · exact Safe.bind (safe_release ht₂) fun _ _ h => h
      · refine Safe.bind (R := fun _ => Evolves a w₀ w₀) (safe_execute ht₂ fun v hv hq => ?_)
          fun _ _ h => h
        rw [not_and_or, not_not, not_not] at hstate
        have hclose : Commit a w₀ v _ := .close (((hq₂.trans hq).core _).trans hs)
          (.abandon (hrequest.trans (congrArg Request.abandon hid.symm)) hstate)
          (hstart.claim.congr (hq₂.trans hq).claims)
        exact ⟨hv.tail hclose, hv.tail hclose⟩

theorem safe_parkNow (hq₀ : Quiet w₀ w) (hrequest : a.request = .abandon a.sessionId)
    (userId : UserId) :
    Safe a w₀ (fun _ => Evolves a w₀ w₀)
      (Abandon.parkNow a.sessionId a.key a.correlationId userId) w := by
  have hbody : Fingerprint.empty = a.fingerprint := by
    rw [Attempt.fingerprint, hrequest]
  have hclaim := safe_claim (a := a) hq₀
  rw [← Attempt.parkSlot hrequest, ← hbody] at hclaim
  refine Safe.bind hclaim ?_
  rintro outcome t₁ ⟨ht₁, hclaim⟩
  cases hclaim with
  | claimed _ hstart => exact safe_parkUnderClaim ht₁ hstart hrequest userId
  | inProgress _ _ _ hstart => exact safe_parkUnderClaim ht₁ hstart hrequest userId
  | @replay row hrow hstate hbody hquiet =>
      obtain ⟨_, _, _ | response⟩ := row
      · exact ht₁
      · cases response <;> exact ht₁

theorem safe_postAbandon (hrequest : a.request = .abandon a.sessionId) (userId : UserId) :
    Safe a w₀ (fun _ => Evolves a w₀ w₀)
      (postAbandon a.sessionId a.key a.correlationId userId) w₀ := by
  refine (wp_tryCatch _ _).mpr (wp_mono (Q := fun _ => Evolves a w₀ w₀)
    (E := fun _ => Evolves a w₀ w₀) ?_ (fun _ h => h) (fun _ _ h => h) fun e t ht => ?_)
  · refine Safe.bind_quiet .refl (quiet_getSession _ _) (yields_any _ _)
      fun session t₁ ht₁ hq₁ _ => ?_
    cases session with
    | none => exact ht₁
    | some session =>
        refine Safe.bind_quiet ht₁ (quiet_acquire _) (yields_any _ _)
          fun token t₂ ht₂ hq₂ _ => ?_
        have hensure := safe_ensure (Q := fun _ _ => True)
          ((safe_parkNow (hq₁.trans hq₂) hrequest userId).mono fun _ _ h => ⟨h, trivial⟩)
          (quiet_releaseLease a.sessionId token) fun _ _ _ h _ => h
        exact hensure.mono fun _ _ h => h.1
  · split <;> exact ht

end AbandonRequests

end StoryReview
