import StoryReview.RequestSteps

/-!
# What the parts of a request do, statement by statement

A relation that every statement stays within holds between the states before and after
every step of every part of a request, whatever state the part is resumed in. The turns
that a part inserts, the creations it answers and the sessions it creates are known from
its text.
-/
namespace StoryReview
open Program Flows RecordsStore

/-- The statements stay within `R`: those that insert a turn when it satisfies `P`, those
that answer a creation when its key satisfies `Q`, those that insert a session when it
satisfies `S`. -/
structure Serves (R : World → World → Prop) (P : TurnRow → Prop) (Q : IdempotencyKey → Prop)
    (S : SessionRecord → Prop) : Prop where
  still : ∀ w w', Quiet w w' → R w w'
  artifacts : ∀ w w', Doing (fun v v' => (∃ request, SavesAs request v v') ∨
    ∃ request, RendersAs request v v') w w' → R w w'
  insertClaim : ∀ w c slot fingerprint,
    R w (Idempotency.insertClaim slot fingerprint (w.tick c)).2
  released : ∀ w c slot, R w (Idempotency.released slot (w.tick c))
  completed : ∀ w c slot response, (∀ key, slot = createSlot key → Q key) →
    R w (Idempotency.completed slot response (w.tick c))
  sessionUpdated : ∀ w c id u, R w (sessionUpdated id u (w.tick c))
  closed : ∀ w c slot response id u, (∀ key, slot ≠ createSlot key) →
    R w (Idempotency.completed slot response (RecordsStore.sessionUpdated id u (w.tick c)))
  parked : ∀ w c slot id u,
    R w (Idempotency.released slot (RecordsStore.sessionUpdated id u (w.tick c)))
  insertStoryRun : ∀ w c record, R w (insertStoryRun record (w.tick c)).2
  insertSession : ∀ w c record, S record → R w (insertSession record (w.tick c)).2
  insertTurn : ∀ w c row, P row → R w (insertTurn row (w.tick c)).2
  stamped : ∀ w c id n references, R w ((w.tick c).setTurns id
    (((w.tick c).turns id).map (stampTurn n references)))

namespace Serves
variable {A : Choice → Prop} {R : World → World → Prop} {P : TurnRow → Prop}
variable {Q : IdempotencyKey → Prop} {S : SessionRecord → Prop} {α : Type}

/-! ## Tables and artifacts -/

theorem moves_execute {f : World → World} (hf : ∀ w c, R w (f (World.tick w c))) :
    (execute f).Moves A R := moves_statement hf

theorem quiet (h : Serves R P Q S) {p : Orchestration α} (hp : p.Moves A Quiet) :
    p.Moves A R := hp.mono h.still

theorem saveArtifact (h : Serves R P Q S) (type : ArtifactType) (run : RunId)
    (content : Content) (key : IdempotencyKey) (correlationId : Uuid) :
    (saveArtifact type run content key correlationId).Moves A R :=
  (moves_saveArtifact fun request _ _ _ _ _ _ hsaves => .inl ⟨request, hsaves⟩).mono
    h.artifacts

theorem claim (h : Serves R P Q S) (slot : ClaimSlot) (fingerprint : Fingerprint) :
    (Idempotency.claim slot fingerprint).Moves A R := by
  refine moves_bind (moves_statement fun w c => h.insertClaim w c _ _) fun inserted => ?_
  cases inserted with
  | true => exact moves_ret _
  | false =>
      refine moves_bind (h.quiet (quiet_query _)) fun existing => ?_
      cases existing with
      | none => exact moves_raise _
      | some existing =>
          dsimp only
          split_ifs
          · exact moves_raise _
          · cases existing.state <;> exact moves_ret _

theorem release (h : Serves R P Q S) (slot : ClaimSlot) :
    (Idempotency.release slot).Moves A R :=
  moves_execute fun w c => h.released w c slot

theorem complete (h : Serves R P Q S) {key : IdempotencyKey} (hkey : Q key)
    (response : CanonicalResponse) :
    (Idempotency.complete (createSlot key) response).Moves A R := by
  refine moves_execute fun w c => h.completed w c _ _ fun key' hslot => ?_
  have hsame : key = key' := congrArg ClaimSlot.key hslot
  exact hsame ▸ hkey

theorem updateSession (h : Serves R P Q S) (id : SessionId) (u : SessionUpdate) :
    (updateSession id u).Moves A R :=
  moves_execute fun w c => h.sessionUpdated w c id u

/-- A session update and the answer of a claim, in one transaction. -/
theorem close (h : Serves R P Q S) {slot : ClaimSlot} (hslot : ∀ key, slot ≠ createSlot key)
    (response : CanonicalResponse) (id : SessionId) (u : SessionUpdate) :
    (execute fun w => Idempotency.completed slot response
      (RecordsStore.sessionUpdated id u w)).Moves A R :=
  moves_execute fun w c => h.closed w c slot response id u hslot

theorem createStoryRunOrGet (h : Serves R P Q S) (record : StoryRunRecord) :
    (createStoryRunOrGet record).Moves A R := by
  refine moves_bind (moves_statement fun w c => h.insertStoryRun w c record) fun violated => ?_
  cases violated with
  | none => exact moves_ret _
  | some violation =>
      refine moves_bind (h.quiet (quiet_query _)) fun existing => ?_
      split
      · exact moves_ret _
      · exact moves_raise _

theorem createSessionOrGet (h : Serves R P Q S) {record : SessionRecord} (hrecord : S record) :
    (createSessionOrGet record).Moves A R := by
  refine moves_bind (moves_statement fun w c => h.insertSession w c record hrecord)
    fun inserted => ?_
  cases inserted with
  | true => exact moves_ret _
  | false =>
      refine moves_bind (h.quiet (quiet_query _)) fun existing => ?_
      cases existing with
      | none => exact moves_raise _
      | some row => exact moves_ofExcept _

theorem createTurnOrGet (h : Serves R P Q S) {record : TurnRecord} {producer : Producer}
    (hrow : P ⟨record, producer⟩) : (createTurnOrGet record producer).Moves A R := by
  unfold RecordsStore.createTurnOrGet turnRecord
  split_ifs with hvalid <;> simp only [bind_eq, ofExcept_ok, ofExcept_error, ret_bind, raise_bind]
  · refine moves_bind (moves_statement fun w c => h.insertTurn w c _ hrow) fun inserted => ?_
    cases inserted with
    | true => exact moves_ret _
    | false =>
        refine moves_bind (h.quiet (quiet_getTurn _ _)) fun existing => ?_
        cases existing <;> trivial
  · exact moves_raise _

theorem setFinalizingTurnArtifacts (h : Serves R P Q S) (id : SessionId)
    (references : List ArtifactReference) :
    (setFinalizingTurnArtifacts id references).Moves A R := by
  refine moves_bind (h.quiet (quiet_query _)) fun turnNumber => ?_
  cases turnNumber with
  | none => exact moves_ret _
  | some n => exact moves_execute fun w c => h.stamped w c id n references

/-! ## Flow 3 -/

theorem produceReports (h : Serves R P Q S) (session : SessionRecord)
    (turns : List TurnRecord) (key : IdempotencyKey) (correlationId : Uuid)
    (reference : ArtifactReference) :
    (Finalization.produceReports session turns key correlationId reference).Moves A R := by
  refine moves_bind (moves_traverse (fun r =>
    h.quiet (quiet_finalizationSynthesisReport r _)) _) fun reports => ?_
  refine moves_bind (h.quiet quiet_now) fun finalizedAt => ?_
  refine moves_bind (moves_ofExcept _) fun review => ?_
  refine moves_bind ((moves_saveFinalReview _ _ _ _).mono fun v w hdoing => ?_)
    fun finalReference => ?_
  · refine h.artifacts v w (hdoing.mono fun _ _ hsaves => .inl ?_)
    obtain ⟨request, -, -, -, -, hsaves⟩ := hsaves
    exact ⟨request, hsaves⟩
  · refine moves_bind (moves_traverse (fun f => (moves_renderOne _ _ _ f).mono
      fun v w hdoing => ?_) _) fun _ => moves_ret _
    refine h.artifacts v w (hdoing.mono fun _ _ hrenders => .inr ?_)
    obtain ⟨request, -, hrenders⟩ := hrenders
    exact ⟨request, hrenders⟩

theorem runFlow3 (h : Serves R P Q S) (session : SessionRecord) (turns : List TurnRecord)
    (key : IdempotencyKey) (correlationId : Uuid) (reference : ArtifactReference) :
    (Finalization.runFlow3 session turns key correlationId reference).Moves A R := by
  refine moves_bind (h.updateSession _ _) fun _ => moves_bind (moves_tryCatch
    (h.produceReports _ _ _ _ _) fun e => ?_) fun result => ?_
  · split
    · exact moves_bind (h.updateSession _ _) fun _ => moves_raise _
    · exact moves_raise _
  · exact moves_bind (h.setFinalizingTurnArtifacts _ _) fun _ => moves_ret _

theorem turnSlot_ne_createSlot (id : SessionId) (key key' : IdempotencyKey) :
    TurnsFlow.slot id key ≠ createSlot key' := by
  rintro ⟨⟩

theorem finalizeAndRespond (h : Serves R P Q S) (session : SessionRecord) (turn : TurnRecord)
    (turns : List TurnRecord) (reference : ArtifactReference) (count : Option ℕ)
    (key : IdempotencyKey) (correlationId : Uuid) :
    (TurnsFlow.finalizeAndRespond session turn turns reference count key
      correlationId).Moves A R := by
  refine moves_bind (h.runFlow3 _ _ _ _ _) fun result => ?_
  refine moves_bind (moves_ofExcept _) fun canonical => ?_
  exact moves_bind (h.close (turnSlot_ne_createSlot _ _) _ _ _) fun _ => moves_ofExcept _

theorem persistAndRespond (h : Serves R P Q S) (id : SessionId) (key : IdempotencyKey)
    (turn : TurnRecord) (outcome : TurnOutcome) (reference : ArtifactReference)
    (resolutions : List ResolutionItem) (count : ℕ) :
    (TurnsFlow.persistAndRespond id key turn outcome reference resolutions count).Moves A R :=
  moves_bind (moves_ofExcept _) fun _ =>
    moves_bind (h.close (turnSlot_ne_createSlot _ _) _ _ _) fun _ => moves_ofExcept _

/-! ## Turns -/

theorem responseFromCanonical (h : Serves R P Q S) (response : Option CanonicalResponse) :
    (TurnsFlow.responseFromCanonical response).Moves A R := by
  unfold TurnsFlow.responseFromCanonical
  split
  · exact moves_raise _
  · refine moves_bind (h.quiet (quiet_getTurn _ _)) fun turn => ?_
    cases turn with
    | none => exact moves_raise _
    | some turn => exact moves_ofExcept _
  · exact moves_raise _

theorem resumeFinalizing (h : Serves R P Q S) (session : SessionRecord) (key : IdempotencyKey)
    (correlationId : Uuid) :
    (TurnsFlow.resumeFinalizing session key correlationId).Moves A R := by
  refine moves_bind (h.quiet (quiet_listTurns _)) fun turns => ?_
  split
  · exact moves_raise _
  · refine moves_bind (h.quiet (quiet_latestSynthesis _ _)) fun reference => ?_
    exact moves_bind (h.quiet (quiet_setProcessingStage _ _)) fun _ =>
      h.finalizeAndRespond _ _ _ _ _ _ _

/-- An acceptance adds an accepted turn. -/
theorem acceptTurn (h : Serves R P Q S) (session : SessionRecord) (turnNumber : ℕ)
    (key : IdempotencyKey) (correlationId : Uuid) (hturn : ∀ createdAt completedAt,
      P ⟨TurnsFlow.acceptedRecord session.sessionId turnNumber correlationId createdAt
        completedAt, .turn key⟩) :
    (TurnsFlow.acceptTurn session turnNumber key correlationId).Moves A R := by
  refine moves_bind (h.quiet quiet_now) fun createdAt => ?_
  refine moves_bind (h.quiet quiet_now) fun completedAt => ?_
  refine moves_bind (h.createTurnOrGet (hturn _ _)) fun turn => ?_
  refine moves_bind (h.quiet (quiet_listTurns _)) fun turns => ?_
  refine moves_bind (h.quiet (quiet_latestSynthesis _ _)) fun reference => ?_
  exact moves_bind (h.quiet (quiet_setProcessingStage _ _)) fun _ =>
    h.finalizeAndRespond _ _ _ _ _ _ _

/-- A message turn adds the turn of its draft. -/
theorem commitTurn (h : Serves R P Q S) (session : SessionRecord) (message : Option Text)
    (turnNumber facilitatorTurn : ℕ) (draft : TurnsFlow.TurnDraft) (key : IdempotencyKey)
    (correlationId : Uuid) (hturn : ∀ outcome createdAt completedAt, P ⟨TurnsFlow.messageRecord
      session.sessionId turnNumber correlationId message draft outcome createdAt completedAt,
        .turn key⟩) :
    (TurnsFlow.commitTurn session message turnNumber facilitatorTurn draft key
      correlationId).Moves A R := by
  refine moves_bind (h.quiet quiet_now) fun createdAt => ?_
  refine moves_bind (h.quiet quiet_now) fun completedAt => ?_
  refine moves_bind (h.createTurnOrGet (hturn _ _ _)) fun turn => ?_
  split_ifs
  · refine moves_bind (h.updateSession _ _) fun _ => ?_
    refine moves_bind (h.quiet (quiet_listTurns _)) fun turns => ?_
    exact moves_bind (h.quiet (quiet_setProcessingStage _ _)) fun _ =>
      h.finalizeAndRespond _ _ _ _ _ _ _
  · exact h.persistAndRespond _ _ _ _ _ _ _

theorem pipelineFailed (h : Serves R P Q S) (id : SessionId) (key : IdempotencyKey)
    (e : PyException) : (pipelineFailed id key e).Moves A R := by
  refine moves_bind (h.quiet (quiet_setProcessingStage _ _)) fun _ => ?_
  split
  · split_ifs
    · exact moves_raise _
    · exact moves_bind (moves_execute fun w c => h.parked w c _ _ _) fun _ => moves_raise _
  · exact moves_raise _

/-! ## Finalize and abandon requests -/

theorem moves_ensure {F : World → World → Prop} {p : Orchestration α} {q : Orchestration Unit}
    (hp : p.Moves A F) (hq : q.Moves A F) : (p.ensure q).Moves A F :=
  moves_bind (moves_tryCatch hp fun _ => moves_bind hq fun _ => moves_raise _) fun _ =>
    moves_bind hq fun _ => moves_ret _

theorem finalizeSlot_ne_createSlot (id : SessionId) (key key' : IdempotencyKey) :
    Finalize.slot id key ≠ createSlot key' := by
  rintro ⟨⟩

theorem abandonSlot_ne_createSlot (id : SessionId) (key key' : IdempotencyKey) :
    Abandon.slot id key ≠ createSlot key' := by
  rintro ⟨⟩

theorem resumeFlow3 (h : Serves R P Q S) (session : SessionRecord) (key : IdempotencyKey)
    (correlationId : Uuid) : (Finalize.resumeFlow3 session key correlationId).Moves A R := by
  refine moves_bind (h.quiet (quiet_listTurns _)) fun turns => ?_
  split_ifs
  · exact moves_raise _
  · refine moves_bind (h.quiet (quiet_latestSynthesis _ _)) fun reference => ?_
    refine moves_bind (h.quiet (quiet_setProcessingStage _ _)) fun _ => ?_
    refine moves_bind (h.runFlow3 _ _ _ _ _) fun result => ?_
    refine moves_bind (moves_ofExcept _) fun canonical => ?_
    exact moves_bind (h.close (finalizeSlot_ne_createSlot _ _) _ _ _) fun _ =>
      moves_ofExcept _

theorem resumeUnderLease (h : Serves R P Q S) (id : SessionId) (key : IdempotencyKey)
    (correlationId : Uuid) (userId : UserId) :
    (Finalize.resumeUnderLease id key correlationId userId).Moves A R := by
  refine moves_bind (h.quiet (quiet_getSession _ _)) fun fresh => ?_
  cases fresh with
  | none => exact moves_raise _
  | some fresh =>
      cases hstate : fresh.state with
      | finalizing =>
          simp only [hstate]
          refine moves_bind (h.claim _ _) fun claim => ?_
          cases claim with
          | replay response => exact moves_ofExcept _
          | _ => exact h.resumeFlow3 _ _ _
      | completed =>
          simp only [hstate]
          exact moves_ofExcept _
      | _ =>
          simp only [hstate]
          exact moves_raise _

theorem postFinalize (h : Serves R P Q S) (id : SessionId) (key : IdempotencyKey)
    (correlationId : Uuid) (userId : UserId) :
    (postFinalize id key correlationId userId).Moves A R := by
  refine moves_tryCatch (moves_bind (h.quiet (quiet_getSession _ _)) fun session => ?_)
    fun e => ?_
  · cases session with
    | none => exact moves_raise _
    | some session =>
        cases hstate : session.state with
        | finalizing =>
            simp only [hstate]
            exact moves_bind (h.quiet (quiet_acquire _)) fun _ =>
              moves_ensure (h.resumeUnderLease _ _ _ _) (h.quiet (quiet_releaseLease _ _))
        | completed =>
            simp only [hstate]
            exact moves_ofExcept _
        | _ =>
            simp only [hstate]
            exact moves_raise _
  · cases e <;> exact moves_raise _

theorem parkNow (h : Serves R P Q S) (id : SessionId) (key : IdempotencyKey)
    (correlationId : Uuid) (userId : UserId) :
    (Abandon.parkNow id key correlationId userId).Moves A R := by
  refine moves_bind (h.claim _ _) fun claim => ?_
  split
  · exact moves_ret _
  · exact moves_raise _
  · exact moves_raise _
  · refine moves_bind (h.quiet (quiet_getSession _ _)) fun session => ?_
    cases session with
    | none => exact moves_raise _
    | some session =>
        dsimp only
        split_ifs
        · exact moves_bind (h.release _) fun _ => moves_raise _
        · exact moves_bind (h.close (abandonSlot_ne_createSlot _ _) _ _ _) fun _ =>
            moves_ret _

theorem postAbandon (h : Serves R P Q S) (id : SessionId) (key : IdempotencyKey)
    (correlationId : Uuid) (userId : UserId) :
    (postAbandon id key correlationId userId).Moves A R := by
  refine moves_tryCatch (moves_bind (h.quiet (quiet_getSession _ _)) fun session => ?_)
    fun e => ?_
  · cases session with
    | none => exact moves_raise _
    | some session =>
        exact moves_bind (h.quiet (quiet_acquire _)) fun _ =>
          moves_ensure (h.parkNow _ _ _ _) (h.quiet (quiet_releaseLease _ _))
  · cases e <;> exact moves_raise _

end Serves
end StoryReview
