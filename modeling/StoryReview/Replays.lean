import StoryReview.Lifecycle
import StoryReview.Statements
import StoryReview.TurnKeys

/-!
# Replays

An answered turn request leaves a completed claim, which no later step of any request
touches, and the turn that the answer tells of, which keeps its resolutions. A later
request under the same key is rebuilt from the two, without a call, unless it finds the
session's lease held.
-/
namespace StoryReview
open Program RecordsStore

section Steps
variable {a b : Attempt} {w₀ w w' : World} {response : TurnResponse}
variable {canonical : CanonicalTurnResult}

/-- The answer is on record: the completed claim and the turn it is rebuilt from. -/
def Attempt.Recorded (a : Attempt) (response : TurnResponse) (w : World) : Prop :=
  ∃ canonical turn, AnswerRecorded a response canonical turn w

theorem TurnAnswered.recorded (h : TurnAnswered a w₀ response w) : a.Recorded response w := by
  cases h with
  | own _ _ _ hrecorded => exact ⟨_, _, hrecorded⟩
  | replay hrecorded hquiet => exact ⟨_, _, hrecorded.quiet hquiet⟩

/-- No step of any request takes the answer back. -/
theorem Commit.recorded (hc : Commit b w₀ w w') (hslot : a.slot.sessionId.isSome)
    (h : a.Recorded response w) : a.Recorded response w' := by
  obtain ⟨canonical, turn, hclaim, hstored, hnumber, hanswer⟩ := h
  obtain ⟨row, hrow, rfl⟩ := List.mem_map.mp hstored
  obtain ⟨row', hrow', -, ⟨hnumber', hresolutions⟩, -⟩ := hc.turn_kept hrow
  exact ⟨canonical, row'.record, hc.claim_kept hslot hclaim rfl, List.mem_map_of_mem hrow',
    hnumber'.trans hnumber, hresolutions ▸ hanswer⟩

theorem Evolves.recorded (hslot : a.slot.sessionId.isSome) (h : a.Recorded response w₀)
    (hw : Evolves b w₀ w₀ w) : a.Recorded response w := by
  induction hw with
  | refl => exact h
  | tail _ hc ih => exact hc.recorded hslot ih

/-- No step changes a field of a session that no update sets. -/
theorem Commit.field_kept {β : Type} (field : SessionRecord → β)
    (hfield : ∀ (u : SessionUpdate) (q : SessionRecord), field (u.apply 0 q) = field q)
    (hc : Commit b w₀ w w') {id : SessionId} {s : SessionRecord} (hs : w.core id = some s) :
    ∃ s', w'.core id = some s' ∧ field s' = field s := by
  obtain ⟨s', hs'⟩ := hc.core_kept hs
  refine ⟨s', hs', ?_⟩
  have hsame : ∀ {q : SessionRecord}, w.core id = some q → field q = field s := by
    intro q hq
    rw [hs] at hq
    cases hq
    rfl
  cases hc.core_cases hs' with
  | same hold => exact hsame hold
  | mark _ hold _ heq =>
      rw [heq, hfield]
      exact hsame hold
  | close _ hold _ heq =>
      rw [heq, hfield]
      exact hsame hold
  | parkFailed _ hold _ heq =>
      rw [heq, hfield]
      exact hsame hold
  | session hnone =>
      rw [hs] at hnone
      cases hnone

theorem Evolves.field_kept {β : Type} (field : SessionRecord → β)
    (hfield : ∀ (u : SessionUpdate) (q : SessionRecord), field (u.apply 0 q) = field q)
    {id : SessionId} {s : SessionRecord} (hs : w₀.core id = some s) (hw : Evolves b w₀ w₀ w) :
    ∃ s', w.core id = some s' ∧ field s' = field s := by
  induction hw with
  | refl => exact ⟨s, hs, rfl⟩
  | tail _ hc ih =>
      obtain ⟨q, hq, hsame⟩ := ih
      obtain ⟨s', hs', hsame'⟩ := hc.field_kept field hfield hq
      exact ⟨s', hs', hsame'.trans hsame⟩

end Steps

/-! ## The replaying request -/

section Requests
variable {A : Choice → Prop} {E : PyException → World → Prop} {w : World} {id : SessionId}

theorem takes_claim {slot : ClaimSlot} {fingerprint : Fingerprint}
    {response : Option CanonicalResponse}
    (hclaim : w.claims slot = some ⟨fingerprint, .completed, response⟩) :
    (Idempotency.claim slot fingerprint).Takes QuietStatements A
      (fun outcome _ => outcome = .replay response) E w := by
  unfold Idempotency.claim
  have hinsert : ∀ c, Idempotency.insertClaim slot fingerprint (w.tick c) =
      (false, w.tick c) := by
    intro c
    refine if_pos ?_
    rw [(quiet_tick w c).claims, hclaim]
    rfl
  refine Takes.bind (R := fun inserted t => inserted = false ∧ t.claims = w.claims)
    (takes_quiet (fun c => ?_) fun c _ => ?_) ?_
  · rw [hinsert]
    exact .refl _
  · rw [hinsert]
    exact ⟨rfl, rfl⟩
  · rintro inserted t ⟨rfl, hclaims⟩
    refine Takes.bind (R := fun existing _ =>
      existing = some ⟨fingerprint, .completed, response⟩) (takes_query fun c _ => ?_) ?_
    · have hsame : (t.tick c).claims slot = w.claims slot := congrFun hclaims slot
      exact hsame.trans hclaim
    · rintro existing u rfl
      simp only [ne_eq, not_true_eq_false, if_false]
      exact rfl

theorem takes_getTurn (hw : Inv w) {row : TurnRow} (hrow : row ∈ w.turns id) :
    (getTurn id row.record.turnNumber).Takes QuietStatements A
      (fun found _ => found = some row.record) E w := by
  have hfound : turnRow w id row.record.turnNumber = some row := by
    have hsome : (turnRow w id row.record.turnNumber).isSome :=
      List.find?_isSome.mpr ⟨row, hrow, decide_eq_true rfl⟩
    obtain ⟨row', hrow'⟩ := Option.isSome_iff_exists.mp hsome
    have hnumber := List.find?_some hrow'
    rw [hrow', hw.turn_unique (List.mem_of_find?_eq_some hrow') hrow (of_decide_eq_true hnumber)]
  have hvalid : row.record.Valid := (hw.turns id _ (List.mem_map_of_mem hrow)).1
  unfold getTurn
  refine Takes.bind (R := fun found _ => found = some row) (takes_query fun c _ => hfound) ?_
  rintro found t rfl
  have hread : turnRecord row.record = .ok row.record := by
    rw [turnRecord, if_pos hvalid]
  simp only [hread, bind_eq, ofExcept_ok, ret_bind]
  exact rfl

/-- Under the lease the recorded answer is given again. -/
theorem takes_executeTurn (hw : Inv w) {a : Attempt} {payload : TurnRequest}
    {response : TurnResponse} (hrequest : a.request = .turn id payload)
    (h : a.Recorded response w) :
    (TurnsFlow.executeTurn id payload a.key a.correlationId a.userId).Takes QuietStatements A
      (fun r _ => r = response) E w := by
  obtain ⟨canonical, turn, hclaim, hstored, hnumber, hanswer⟩ := h
  obtain ⟨row, hrow, rfl⟩ := List.mem_map.mp hstored
  have hslot : a.slot = TurnsFlow.slot id a.key := by
    rw [Attempt.slot, hrequest]
  have hfingerprint : a.fingerprint = .turn payload := by
    rw [Attempt.fingerprint, hrequest]
  rw [hslot, hfingerprint] at hclaim
  unfold TurnsFlow.executeTurn
  refine Takes.bind ((takes_claim hclaim).quiet (Quiet.refl w)) ?_ |>.mono
    (fun _ _ h => h) fun _ _ h => h.1
  rintro outcome t ⟨rfl, hq⟩
  dsimp only
  unfold TurnsFlow.responseFromCanonical
  dsimp only
  rw [← hnumber]
  refine Takes.bind (takes_getTurn (hw.quiet hq) (hq.turns ▸ hrow)) ?_
  rintro found u rfl
  dsimp only
  rw [hanswer]
  exact rfl

/-- The whole request: the recorded answer, or locked out by a lease that is held when it
has read the session. -/
theorem takes_replay (hw : Inv w) {a : Attempt} {payload : TurnRequest}
    {response : TurnResponse} {s : SessionRecord} (hs : w.core id = some s)
    (howner : s.userId = a.userId) (hrequest : a.request = .turn id payload)
    (h : a.Recorded response w) : a.program.Takes QuietStatements A
      (fun r _ => r = .turn response)
      (fun e _ => (∃ hint, e = mapSessionLocked hint a.correlationId) ∧
        ∃ c, A c ∧ (w.tick c).Held id) w := by
  unfold Attempt.program
  rw [hrequest]
  refine Takes.bind (R := fun r _ => r = response) ?_ fun r t hr => ?_
  swap
  · exact congrArg Response.turn hr
  refine Takes.tryCatch (F := fun e _ => (∃ hint, e = .sessionLocked hint) ∧
    ∃ c, A c ∧ (w.tick c).Held id) ?_ ?_
  swap
  · rintro e t ⟨⟨hint, rfl⟩, hheld⟩
    exact ⟨⟨hint, rfl⟩, hheld⟩
  rw [← howner]
  refine Takes.bind (R := fun (found : Option SessionRecord) t => found.isSome ∧
    ∃ c, A c ∧ t = w.tick c) (takes_getSession hs (hw.valid id s hs) fun c session hc _ =>
      ⟨rfl, c, hc, rfl⟩) ?_
  rintro found t ⟨hfound, c, hc, rfl⟩
  obtain ⟨session, rfl⟩ := Option.isSome_iff_exists.mp hfound
  refine Takes.bind (R := fun _ u => Quiet w u) (((takes_acquire id).quiet
    (quiet_tick w c)).mono (fun _ _ hu => hu.2) fun e u hlocked => ?_) fun token u hqu => ?_
  · exact ⟨hlocked.1.1, c, hc, hlocked.1.2⟩
  have hrecorded : a.Recorded response u := by
    obtain ⟨canonical, turn, hanswer⟩ := h
    exact ⟨canonical, turn, hanswer.quiet hqu⟩
  rw [howner]
  refine Takes.ensure (E := fun _ _ => False) (takes_executeTurn (hw.quiet hqu) hrequest
    hrecorded) (fun r v hr => ?_) fun _ _ hfalse => hfalse.elim
  exact (takes_releaseLease (E := fun _ _ => False) id token).mono (fun _ _ _ => hr)
    fun _ _ hfalse => hfalse.elim

/-- An answered turn request reads a session of its user. -/
theorem Attempt.owned {a : Attempt} {payload : TurnRequest} {response : Response}
    (hrequest : a.request = .turn id payload) (hresponse : a.response w = some response) :
    ∃ s, w.core id = some s ∧ s.userId = a.userId := by
  have hyields : a.program.Yields a.Admits
      (fun _ _ => ∃ s, w.core id = some s ∧ s.userId = a.userId) w := by
    unfold Attempt.program
    rw [hrequest]
    refine Yields.bind (S := fun _ _ => ∃ s, w.core id = some s ∧ s.userId = a.userId) ?_
      fun _ _ h => h
    refine Yields.tryCatch ?_ fun e t => ?_
    · refine Yields.bind (yields_getSession id a.userId) fun found t hfound => ?_
      cases found with
      | none => exact yields_raise _
      | some session =>
          obtain ⟨hcore, howner, -⟩ := hfound session rfl
          exact (yields_any _ t).mono fun _ _ _ => ⟨session.core, hcore, howner⟩
    · split <;> exact yields_raise _
  have hrun := wp_run hyields fun n => (⟨n, rfl⟩ : a.Admits (a.choices n))
  unfold Attempt.response at hresponse
  split at hresponse
  · cases hout : a.program.run a.choices w with
    | mk answer t =>
        rw [hout] at hrun hresponse
        cases answer with
        | ok r => exact hrun
        | error e => cases hresponse
  · cases hresponse

end Requests

/-! ## Replay equality -/

theorem Reachable.after {w : World} (h : Reachable w) (attempts : List Attempt) :
    Reachable (World.after w attempts) := by
  induction attempts using List.reverseRecOn with
  | nil => exact h
  | append_singleton attempts a ih =>
      rw [World.after_concat]
      exact .step a ih trivial

/-- An answered turn request is on record, and its session owned, in every later world. -/
theorem Attempt.recorded_after {a : Attempt} {w : World} {id : SessionId}
    {payload : TurnRequest} {response : TurnResponse} (h : Reachable w)
    (hrequest : a.request = .turn id payload)
    (hresponse : a.response w = some (.turn response)) (later : List Attempt) :
    a.Recorded response (World.after (a.result w) later) ∧
      ∃ s, (World.after (a.result w) later).core id = some s ∧ s.userId = a.userId := by
  have hslot : a.slot.sessionId.isSome := by
    rw [Attempt.slot, hrequest]
    rfl
  induction later using List.reverseRecOn with
  | nil =>
      obtain ⟨s, hs, howner⟩ := Attempt.owned hrequest hresponse
      obtain ⟨s', hs', howner'⟩ :=
        Evolves.field_kept SessionRecord.userId (fun _ _ => rfl) hs (a.evolves h.inv)
      exact ⟨(a.answered h.inv hresponse response rfl).recorded, s', hs', howner'.trans howner⟩
  | append_singleton later b ih =>
      obtain ⟨hrecorded, s, hs, howner⟩ := ih
      have hreachable : Reachable (World.after (a.result w) later) :=
        Reachable.after (.step a h trivial) later
      have hevolves := b.evolves hreachable.inv
      obtain ⟨s', hs', howner'⟩ :=
        Evolves.field_kept SessionRecord.userId (fun _ _ => rfl) hs hevolves
      rw [World.after_concat]
      exact ⟨Evolves.recorded hslot hrecorded hevolves, s', hs', howner'.trans howner⟩

/-- Whatever has run since, a repetition of an answered turn request by its user asks
nobody and changes nothing. It gives the answer again, unless the lease is held when it
has read the session: then it is told that the session is locked. -/
theorem turn_replays {w : World} {a b : Attempt} {id : SessionId} {payload : TurnRequest}
    {response : TurnResponse} (h : Reachable w) (hrequest : a.request = .turn id payload)
    (hresponse : a.response w = some (.turn response)) (later : List Attempt)
    (hsame : b.request = a.request ∧ b.key = a.key ∧ b.userId = a.userId) :
    b.AsksNobody (World.after (a.result w) later) ∧
      Quiet (World.after (a.result w) later) (b.result (World.after (a.result w) later)) ∧
      (b.crashAfter = none →
        b.response (World.after (a.result w) later) = some (.turn response) ∨
          (∃ hint, (b.program.run b.choices (World.after (a.result w) later)).1 =
            .error (mapSessionLocked hint b.correlationId)) ∧
          ∃ n, ((World.after (a.result w) later).tick (b.choices n)).Held id) := by
  obtain ⟨hrecorded, s, hs, howner⟩ := Attempt.recorded_after h hrequest hresponse later
  have hinv : Inv (World.after (a.result w) later) :=
    (Reachable.after (.step a h trivial) later).inv
  obtain ⟨hrequest', hkey, huser⟩ := hsame
  have hslot : b.slot = a.slot := by
    rw [Attempt.slot, Attempt.slot, hrequest', hkey]
  have hfingerprint : b.fingerprint = a.fingerprint := by
    rw [Attempt.fingerprint, Attempt.fingerprint, hrequest', hrequest]
  have hrecorded' : b.Recorded response (World.after (a.result w) later) := by
    obtain ⟨canonical, turn, hclaim, hstored, hnumber, hanswer⟩ := hrecorded
    exact ⟨canonical, turn, by rw [hslot, hfingerprint, hclaim], hstored, hnumber, hanswer⟩
  have htakes := fun A => takes_replay (A := A) hinv hs (howner.trans huser.symm)
    (hrequest'.trans hrequest) hrecorded'
  generalize World.after (a.result w) later = w' at htakes ⊢
  refine ⟨((htakes fun _ => True).weaken fun _ _ _ hf => hf.1).mono (fun _ _ _ => trivial)
    fun _ _ _ => trivial, ?_, fun hsurvives => ?_⟩
  · unfold Attempt.result
    split
    · rcases ((htakes b.Admits).quiet (Quiet.refl w')).run fun n => ⟨n, rfl⟩ with
        ⟨-, -, -, hq⟩ | ⟨-, -, -, hq⟩
      · exact hq
      · exact hq
    · exact (htakes b.Admits).keeps_crash (fun _ _ _ c hf _ => hf.2 c) (Quiet.refl w')
        (fun n => ⟨n, rfl⟩) _
  · rw [Attempt.response, hsurvives]
    rcases (htakes b.Admits).run fun n => ⟨n, rfl⟩ with ⟨r, hr, rfl⟩ | ⟨e, he, ⟨hint, rfl⟩, c,
      ⟨n, rfl⟩, hheld⟩
    · refine .inl ?_
      dsimp only
      rw [hr]
      rfl
    · exact .inr ⟨⟨hint, he⟩, n, hheld⟩

namespace Scenario

theorem turn_replays_accepted : ∃ response,
    (accept 2 none).response (World.after {} [create]) = some (.turn response) ∧
      (accept 2 none).AsksNobody (World.after {} [create, accept 2 none, abandon 3]) ∧
      Quiet (World.after {} [create, accept 2 none, abandon 3])
        ((accept 2 none).result (World.after {} [create, accept 2 none, abandon 3])) := by
  have hanswers : answersTurn ((accept 2 none).response (World.after {} [create])) = true := by
    decide +kernel
  obtain ⟨response, hresponse⟩ := exists_turn hanswers
  obtain ⟨hasks, hquiet, -⟩ := turn_replays (b := accept 2 none) (reachable_after [create]) rfl
    hresponse [abandon 3] ⟨rfl, rfl, rfl⟩
  exact ⟨response, hresponse, hasks, hquiet⟩

/-- A process that dies with the lease in its hands. -/
def holdsLease : Attempt := { abandon 3 with crashAfter := some 2 }

/-- The answered acceptance again, before the lease has run out. -/
def again : Attempt := { accept 2 none with choices := fun _ => steady }

theorem again_locked : Reachable (World.after {} [create]) ∧ ∃ response,
    (accept 2 none).response (World.after {} [create]) = some (.turn response) ∧
      again.response (World.after {} [create, accept 2 none, holdsLease]) ≠
        some (.turn response) := by
  have hanswers : answersTurn ((accept 2 none).response (World.after {} [create])) = true := by
    decide +kernel
  have hnone : answersTurn (again.response
      (World.after {} [create, accept 2 none, holdsLease])) = false := by decide +kernel
  obtain ⟨response, hresponse⟩ := exists_turn hanswers
  refine ⟨reachable_after _, response, hresponse, fun hagain => ?_⟩
  rw [hagain] at hnone
  cases hnone

end Scenario
end StoryReview
