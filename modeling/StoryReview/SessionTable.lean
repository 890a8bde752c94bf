import StoryReview.Lawful

/-!
# The session table

What the parts of a request do to the rows of the session table, markers and timestamps
included. Most leave the table as it is. A part that works on one session leaves the rows
of the others as they are, and an update stamps its row with the time of the statement.
-/
namespace StoryReview
open Program Flows RecordsStore

/-! ## Rows -/

/-- A row some time later. -/
structure RowAges (before after : Time) (row row' : SessionRow) : Prop where
  sessionId : row'.record.sessionId = row.record.sessionId
  userId : row'.record.userId = row.record.userId
  updatedAt : row'.record.updatedAt = row.record.updatedAt ∨
    before ≤ row'.record.updatedAt ∧ row'.record.updatedAt ≤ after

theorem RowAges.refl (before after : Time) (row : SessionRow) : RowAges before after row row :=
  ⟨rfl, rfl, .inl rfl⟩

theorem RowAges.trans {t₁ t₂ t₃ : Time} {row₁ row₂ row₃ : SessionRow}
    (h : RowAges t₁ t₂ row₁ row₂) (h' : RowAges t₂ t₃ row₂ row₃) (h₁₂ : t₁ ≤ t₂)
    (h₂₃ : t₂ ≤ t₃) : RowAges t₁ t₃ row₁ row₃ where
  sessionId := h'.sessionId.trans h.sessionId
  userId := h'.userId.trans h.userId
  updatedAt := by
    rcases h'.updatedAt with hsame | ⟨hle, hle'⟩
    · rw [hsame]
      exact h.updatedAt.imp_right fun hstamp => ⟨hstamp.1, hstamp.2.trans h₂₃⟩
    · exact .inr ⟨h₁₂.trans hle, hle'⟩

/-- The session table is as it was. -/
structure SameSessions (w w' : World) : Prop where
  clock : w.clock ≤ w'.clock
  sessions : w'.sessions = w.sessions

/-- Every row has an id of its own. -/
def World.DistinctSessions (w : World) : Prop :=
  (w.sessions.map fun row => row.record.sessionId).Nodup

/-- At most the row of the session changes, or is new. -/
structure Touches (id : SessionId) (w w' : World) : Prop where
  clock : w.clock ≤ w'.clock
  distinct : w.DistinctSessions → w'.DistinctSessions
  rows : ∃ (g : SessionRow → SessionRow) (new : List SessionRow),
    w'.sessions = w.sessions.map g ++ new ∧
      (∀ row, row.record.sessionId ≠ id → g row = row) ∧
      (∀ row, RowAges w.clock w'.clock row (g row)) ∧
      ∀ row ∈ new, row.record.sessionId = id ∧ row.record.updatedAt ≤ w'.clock

section Tables
variable {id : SessionId} {u v w w' : World}

theorem SameSessions.refl (w : World) : SameSessions w w := ⟨le_rfl, rfl⟩

theorem SameSessions.trans (h : SameSessions u v) (h' : SameSessions v w) : SameSessions u w :=
  ⟨h.clock.trans h'.clock, h'.sessions.trans h.sessions⟩

instance : IsTrans World SameSessions := ⟨fun _ _ _ => SameSessions.trans⟩

theorem same_tick (w : World) (c : Choice) : SameSessions w (w.tick c) :=
  ⟨(quiet_tick w c).clock, rfl⟩

/-- Claims are another table. -/
theorem same_released (slot : ClaimSlot) (w : World) :
    SameSessions w (Idempotency.released slot w) := by
  unfold Idempotency.released
  split
  · exact ⟨le_rfl, rfl⟩
  · exact .refl w

theorem same_completed (slot : ClaimSlot) (response : CanonicalResponse) (w : World) :
    SameSessions w (Idempotency.completed slot response w) := by
  unfold Idempotency.completed
  split
  · exact ⟨le_rfl, rfl⟩
  · exact .refl w

theorem SameSessions.touches (h : SameSessions w w') : Touches id w w' where
  clock := h.clock
  distinct := fun hdistinct => by rwa [World.DistinctSessions, h.sessions]
  rows := ⟨fun row => row, [], by simp [h.sessions], fun _ _ => rfl,
    fun row => .refl _ _ row, by simp⟩

theorem Touches.refl (id : SessionId) (w : World) : Touches id w w := (SameSessions.refl w).touches

theorem Touches.trans (h : Touches id u v) (h' : Touches id v w) : Touches id u w := by
  obtain ⟨hclock, hdistinct, g, new, hsessions, hothers, hages, hnew⟩ := h
  obtain ⟨hclock', hdistinct', g', new', hsessions', hothers', hages', hnew'⟩ := h'
  refine ⟨hclock.trans hclock', fun h => hdistinct' (hdistinct h), g' ∘ g, new.map g' ++ new',
    by simp [hsessions', hsessions], ?_, ?_, ?_⟩
  · intro row hrow
    simp only [Function.comp_apply]
    rw [hothers row hrow, hothers' row hrow]
  · exact fun row => (hages row).trans (hages' (g row)) hclock hclock'
  · simp only [List.forall_mem_append, List.forall_mem_map]
    constructor
    · intro row hrow
      obtain ⟨hid, hstamp⟩ := hnew row hrow
      have hage := hages' row
      constructor
      · exact hage.sessionId.trans hid
      · rcases hage.updatedAt with hsame | ⟨-, hle⟩
        · rw [hsame]
          exact hstamp.trans hclock'
        · exact hle
    · exact hnew'

instance : IsTrans World (Touches id) := ⟨fun _ _ _ => Touches.trans⟩

theorem touches_modifySession (w : World) (c : Choice) {f : SessionRow → SessionRow}
    (hf : ∀ row, RowAges (w.tick c).clock (w.tick c).clock row (f row)) :
    Touches id w ((w.tick c).modifySession id f) := by
  have hclock : w.clock ≤ (w.tick c).clock := (quiet_tick w c).clock
  refine ⟨hclock, fun hdistinct => ?_, fun row =>
    if row.record.sessionId = id then f row else row, [], (List.append_nil _).symm, ?_, ?_,
    by simp⟩
  · have hids : (fun row : SessionRow => row.record.sessionId) ∘ (fun row =>
        if row.record.sessionId = id then f row else row) = fun row => row.record.sessionId := by
      funext row
      simp only [Function.comp_apply]
      split_ifs
      · exact (hf row).sessionId
      · rfl
    rwa [World.DistinctSessions, World.modifySession, List.map_map, hids]
  · exact fun row hrow => if_neg hrow
  · intro row
    dsimp only
    split_ifs
    · obtain ⟨hid, huser, hstamp⟩ := hf row
      exact ⟨hid, huser, hstamp.imp_right fun h => ⟨hclock.trans h.1, h.2⟩⟩
    · exact .refl _ _ row

theorem same_sessionUpdated (id : SessionId) (u : SessionUpdate) (w : World) :
    SameSessions (w.modifySession id fun row => { row with record := u.apply w.clock row.record })
      (RecordsStore.sessionUpdated id u w) := by
  unfold RecordsStore.sessionUpdated
  dsimp only
  split
  · exact ⟨le_rfl, rfl⟩
  · exact ⟨le_rfl, rfl⟩
  · exact .refl _

theorem touches_sessionUpdated (u : RecordsStore.SessionUpdate) (w : World) (c : Choice) :
    Touches id w (RecordsStore.sessionUpdated id u (w.tick c)) := by
  have htouches : Touches id w ((w.tick c).modifySession id fun row =>
      { row with record := u.apply (w.tick c).clock row.record }) :=
    touches_modifySession w c fun row => ⟨rfl, rfl, .inr ⟨le_rfl, le_rfl⟩⟩
  exact htouches.trans (same_sessionUpdated id u _).touches

end Tables

/-! ## Statements and calls -/

section Statements
variable {A : Choice → Prop} {id : SessionId} {α : Type}

theorem same_statement {f : World → α × World} (h : ∀ w, SameSessions w (f w).2) :
    (statement f).Moves A SameSessions :=
  moves_statement fun w c => (same_tick w c).trans (h _)

theorem same_query (f : World → α) : (query f).Moves A SameSessions :=
  same_statement fun w => .refl w

theorem same_execute {f : World → World} (h : ∀ w, SameSessions w (f w)) :
    (execute f).Moves A SameSessions :=
  same_statement h

theorem same_now : now.Moves A SameSessions := same_query _

theorem same_pureCall (answer : Choice → α) (exception : CallFailure → PyException) :
    (pureCall answer exception).Moves A SameSessions := by
  apply moves_atomicExcept
  intro c w _
  cases c.failure with
  | none => exact same_tick w c
  | some failure => exact same_tick w c

theorem same_storeCall {run : RunId} {tool : ArtifactId → Time → StoreProgram α}
    {errorFor : StoreException → ErrorBody} :
    (storeCall run tool errorFor).Moves A SameSessions := by
  have hserved : ∀ (w : World) (o : RunObjects), SameSessions w (w.served run o) :=
    fun _ _ => ⟨le_rfl, rfl⟩
  apply moves_atomicExcept
  intro c w _
  have hlost : SameSessions w (c.lost.foldl (fun w n => w.attempt run tool n) (w.tick c)) :=
    (same_tick w c).trans (foldl_attempt .refl (fun _ _ _ => .trans)
      (fun w n => hserved w _) _ _)
  cases c.failure with
  | some failure => exact hlost
  | none => exact hlost.trans (hserved _ _)

theorem touches_execute {f : World → World} (h : ∀ w c, Touches id w (f (w.tick c))) :
    (execute f).Moves A (Touches id) :=
  moves_statement h

theorem touches_touchSession : (touchSession id).Moves A (Touches id) :=
  touches_execute fun w c =>
    touches_modifySession w c fun _ => ⟨rfl, rfl, .inr ⟨le_rfl, le_rfl⟩⟩

theorem touches_setProcessingStage (stage : Option ProcessingStage) :
    (setProcessingStage id stage).Moves A (Touches id) :=
  touches_execute fun w c => touches_modifySession w c fun _ => ⟨rfl, rfl, .inl rfl⟩

theorem touches_updateSession (u : SessionUpdate) :
    (updateSession id u).Moves A (Touches id) :=
  touches_execute fun w c => touches_sessionUpdated u w c

/-- A session update and the answer of a claim, in one transaction. -/
theorem touches_closing (slot : ClaimSlot) (response : CanonicalResponse) (u : SessionUpdate) :
    (execute fun w => Idempotency.completed slot response (sessionUpdated id u w)).Moves A
      (Touches id) :=
  touches_execute fun w c =>
    (touches_sessionUpdated u w c).trans (same_completed slot response _).touches

/-! ## Tables -/

theorem same_getSession (sessionId : SessionId) (userId : UserId) :
    (getSession sessionId userId).Moves A SameSessions := by
  refine moves_bind (same_query _) fun row => ?_
  cases row with
  | none => exact moves_ret _
  | some row => exact moves_bind (moves_ofExcept _) fun _ => moves_ret _

theorem same_listTurns (sessionId : SessionId) :
    (listTurns sessionId).Moves A SameSessions := by
  refine moves_bind (same_query _) fun rows => ?_
  split_ifs
  · exact moves_ret _
  · exact moves_raise _

theorem same_getTurn (sessionId : SessionId) (turnNumber : ℕ) :
    (getTurn sessionId turnNumber).Moves A SameSessions := by
  refine moves_bind (same_query _) fun row => ?_
  cases row with
  | none => exact moves_ret _
  | some row => exact moves_bind (moves_ofExcept _) fun _ => moves_ret _

theorem same_createTurnOrGet (record : TurnRecord) (producer : Producer) :
    (createTurnOrGet record producer).Moves A SameSessions := by
  apply moves_bind (moves_ofExcept _)
  intro record
  apply moves_bind
  · apply same_statement
    intro w
    unfold insertTurn
    dsimp only
    split_ifs
    · exact .refl w
    · exact ⟨le_rfl, rfl⟩
  · intro inserted
    split_ifs
    · exact moves_ret _
    · apply moves_bind (same_getTurn _ _)
      intro existing
      cases existing with
      | none => exact moves_raise _
      | some existing => exact moves_ret _

theorem same_setFinalizingTurnArtifacts (sessionId : SessionId)
    (references : List ArtifactReference) :
    (setFinalizingTurnArtifacts sessionId references).Moves A SameSessions := by
  refine moves_bind (same_query _) fun turnNumber => ?_
  cases turnNumber with
  | none => exact moves_ret _
  | some n => exact same_execute fun _ => ⟨le_rfl, rfl⟩

theorem same_createStoryRunOrGet (record : StoryRunRecord) :
    (createStoryRunOrGet record).Moves A SameSessions := by
  apply moves_bind
  · apply same_statement
    intro w
    unfold insertStoryRun
    split_ifs
    · exact .refl w
    · exact .refl w
    · exact ⟨le_rfl, rfl⟩
  · intro violated
    cases violated with
    | none => exact moves_ret _
    | some violation =>
        refine moves_bind (same_query _) fun existing => ?_
        split
        · exact moves_ret _
        · exact moves_raise _

theorem same_claim (slot : ClaimSlot) (fingerprint : Fingerprint) :
    (Idempotency.claim slot fingerprint).Moves A SameSessions := by
  apply moves_bind
  · apply same_statement
    intro w
    unfold Idempotency.insertClaim
    split_ifs
    · exact .refl w
    · exact ⟨le_rfl, rfl⟩
  · intro inserted
    split_ifs
    · exact moves_ret _
    · refine moves_bind (same_query _) fun existing => ?_
      cases existing with
      | none => exact moves_raise _
      | some existing =>
          dsimp only
          split_ifs
          · exact moves_raise _
          · split
            · exact moves_ret _
            · exact moves_ret _

theorem same_release (slot : ClaimSlot) : (Idempotency.release slot).Moves A SameSessions :=
  same_execute fun w => same_released slot w

theorem same_complete (slot : ClaimSlot) (response : CanonicalResponse) :
    (Idempotency.complete slot response).Moves A SameSessions :=
  same_execute fun w => same_completed slot response w

theorem same_acquire (sessionId : SessionId) :
    (TurnLease.acquire sessionId).Moves A SameSessions := by
  have hloop : ∀ n, (TurnLease.acquireLoop sessionId n).Moves A SameSessions := by
    intro n
    induction n with
    | zero => exact moves_raise _
    | succ n ih =>
        apply moves_bind
        · apply moves_bind
          · apply same_statement
            intro w
            unfold TurnLease.acquireStatement
            dsimp only
            split
            · exact ⟨le_rfl, rfl⟩
            · split_ifs
              · exact ⟨le_rfl, rfl⟩
              · exact ⟨le_rfl, rfl⟩
          · intro token
            cases token with
            | some token => exact moves_ret _
            | none =>
                refine moves_bind (same_query _) fun hint => ?_
                cases hint with
                | none => exact moves_ret _
                | some hint => exact moves_raise _
        · intro token
          cases token with
          | some token => exact moves_ret _
          | none => exact ih
  exact hloop 3

theorem same_leaseRelease (sessionId : SessionId) (token : Uuid) :
    (TurnLease.release sessionId token).Moves A SameSessions := by
  apply same_execute
  intro w
  split_ifs
  · exact ⟨le_rfl, rfl⟩
  · exact .refl w

end Statements

/-! ## Downstream calls -/

section Downstream
variable {A : Choice → Prop}

theorem same_getStory (storyId : StoryId) (correlationId : Uuid) :
    (getStory storyId correlationId).Moves A SameSessions := by
  apply moves_tryCatch (same_pureCall _ _)
  intro e
  split <;> exact moves_raise _

theorem same_saveArtifact (type : ArtifactType) (run : RunId) (content : Content)
    (key : IdempotencyKey) (correlationId : Uuid) :
    (saveArtifact type run content key correlationId).Moves A SameSessions := by
  apply moves_bind (moves_ofExcept _)
  intro request
  apply moves_bind
  · apply moves_tryCatch same_storeCall
    intro e
    split <;> exact moves_raise _
  · exact fun _ => moves_ret _

theorem same_listRunArtifacts (run : RunId) (correlationId : Uuid) :
    (Lineage.listRunArtifacts run correlationId).Moves A SameSessions :=
  moves_tryCatch same_storeCall fun _ => moves_raise _

theorem same_artifactContent (reference : ArtifactReference) (correlationId : Uuid) :
    (Lineage.artifactContent reference correlationId).Moves A SameSessions :=
  moves_bind (moves_tryCatch same_storeCall fun _ => moves_raise _) fun _ => moves_ret _

theorem same_synthesisReport (reference : ArtifactReference) (correlationId : Uuid) :
    (Lineage.synthesisReport reference correlationId).Moves A SameSessions :=
  moves_bind (same_artifactContent _ _) fun _ => moves_ofExcept _

theorem same_reviewReport (reference : ArtifactReference) (correlationId : Uuid) :
    (Lineage.reviewReport reference correlationId).Moves A SameSessions :=
  moves_bind (same_artifactContent _ _) fun _ => moves_ofExcept _

theorem same_invokeFacilitator (request : FacilitatorInvocation) (correlationId : Uuid) :
    (Agents.invokeFacilitator request correlationId).Moves A SameSessions := by
  refine moves_bind (same_pureCall _ _) fun output => ?_
  split
  · exact moves_ret _
  · exact moves_raise _

theorem same_latestSynthesis (session : SessionRecord) (correlationId : Uuid) :
    (TurnsFlow.latestSynthesis session correlationId).Moves A SameSessions :=
  moves_bind (same_listRunArtifacts _ _) fun _ => moves_ofExcept _

theorem same_fanOutReviewers (story : StoryDetail) (correlationId : Uuid) :
    (fanOutReviewers story correlationId).Moves A SameSessions :=
  moves_tryCatch (moves_bind (same_pureCall _ _) fun _ =>
    moves_bind (same_pureCall _ _) fun _ => moves_ret _) fun _ => moves_raise _

theorem same_openingOutput (sessionId : SessionId) (key : IdempotencyKey)
    (report : SynthesisReport) (reference : ArtifactReference)
    (evidence : List ArtifactReference) (correlationId : Uuid) :
    (openingOutput sessionId key report reference evidence correlationId).Moves A
      SameSessions := by
  apply moves_bind
  · apply moves_tryCatch (same_invokeFacilitator _ _)
    intro e
    split <;> exact moves_raise _
  · exact fun output => moves_bind (moves_ofExcept _) fun _ => moves_ret _

theorem same_executeDelegation (session : SessionRecord) (story : StoryDetail)
    (references : List ArtifactReference) (delegation : DelegationDecision)
    (key : IdempotencyKey) (correlationId : Uuid) :
    (TurnExecution.executeDelegation session story references delegation key
      correlationId).Moves A SameSessions := by
  apply moves_bind
  · apply moves_traverse
    intro p
    apply moves_bind
    · exact moves_bind (moves_ofExcept _) fun _ =>
        moves_bind (same_reviewReport _ _) fun _ => moves_ret _
    · exact fun _ => moves_ret _
  · intro requests
    apply moves_bind
    · apply moves_tryCatch
      · apply moves_traverse
        exact fun _ => moves_bind (same_pureCall _ _) fun _ => moves_ret _
      · exact fun _ => moves_raise _
    · exact fun results => moves_traverse (fun _ => same_saveArtifact _ _ _ _ _) _

theorem same_maybeSynthesize (session : SessionRecord) (references : List ArtifactReference)
    (reusePrevious : Bool) (key : IdempotencyKey) (correlationId : Uuid)
    (fallback : ArtifactReference) :
    (TurnExecution.maybeSynthesize session references reusePrevious key correlationId
      fallback).Moves A SameSessions := by
  have hpair : ∀ references p, (TurnExecution.latestPair references correlationId p).Moves A
      SameSessions := fun _ _ =>
    moves_bind (moves_ofExcept _) fun _ => moves_bind (same_reviewReport _ _) fun _ =>
      moves_ret _
  unfold TurnExecution.maybeSynthesize
  split_ifs
  · exact moves_ret _
  · apply moves_bind (same_listRunArtifacts _ _)
    intro references
    apply moves_bind (hpair _ _)
    intro business
    apply moves_bind (hpair _ _)
    intro engineering
    apply moves_bind (moves_tryCatch (same_pureCall _ _) fun _ => moves_raise _)
    exact fun report => moves_bind (same_saveArtifact _ _ _ _ _) fun _ => moves_ret _

theorem same_produceReports (session : SessionRecord) (turns : List TurnRecord)
    (key : IdempotencyKey) (correlationId : Uuid) (reference : ArtifactReference) :
    (Finalization.produceReports session turns key correlationId reference).Moves A
      SameSessions := by
  apply moves_bind
  · apply moves_traverse
    intro r
    apply moves_tryCatch (same_synthesisReport _ _)
    intro e
    split <;> exact moves_raise _
  intro reports
  apply moves_bind same_now
  intro finalizedAt
  apply moves_bind (moves_ofExcept _)
  intro review
  apply moves_bind
  · apply moves_tryCatch (same_saveArtifact _ _ _ _ _)
    intro e
    split <;> exact moves_raise _
  intro finalReference
  apply moves_bind
  · apply moves_traverse
    intro format
    apply moves_bind (moves_ofExcept _)
    intro request
    apply moves_bind
    · apply moves_tryCatch same_storeCall
      intro e
      split <;> exact moves_raise _
    · exact fun _ => moves_ret _
  · exact fun _ => moves_ret _

theorem same_responseFromCanonical (response : Option CanonicalResponse) :
    (TurnsFlow.responseFromCanonical response).Moves A SameSessions := by
  unfold TurnsFlow.responseFromCanonical
  split
  · exact moves_raise _
  · apply moves_bind (same_getTurn _ _)
    intro turn
    split
    · exact moves_raise _
    · exact moves_ofExcept _
  · exact moves_raise _

end Downstream

/-! ## Flows -/

section FlowParts
variable {A : Choice → Prop} {id : SessionId} {α : Type}

theorem touches_same {p : Orchestration α} (h : p.Moves A SameSessions) :
    p.Moves A (Touches id) :=
  h.mono fun _ _ => SameSessions.touches

theorem touches_openingArtifacts (story : StoryDetail) (run : RunId) (key : IdempotencyKey)
    (correlationId : Uuid) :
    (openingArtifacts story run id key correlationId).Moves A (Touches id) := by
  apply moves_bind (touches_setProcessingStage _)
  intro _
  apply moves_bind (touches_same (same_saveArtifact _ _ _ _ _))
  intro storyReference
  apply moves_bind (touches_same (same_fanOutReviewers _ _))
  intro reviews
  apply moves_bind (touches_same (same_saveArtifact _ _ _ _ _))
  intro business
  apply moves_bind (touches_same (same_saveArtifact _ _ _ _ _))
  intro engineering
  apply moves_bind (touches_setProcessingStage _)
  intro _
  apply moves_bind (touches_same (moves_tryCatch (same_pureCall _ _) fun _ => moves_raise _))
  intro report
  exact moves_bind (touches_same (same_saveArtifact _ _ _ _ _)) fun _ => moves_ret _

theorem touches_runFlow3 {session : SessionRecord} (hsession : session.sessionId = id)
    (turns : List TurnRecord) (key : IdempotencyKey) (correlationId : Uuid)
    (reference : ArtifactReference) :
    (Finalization.runFlow3 session turns key correlationId reference).Moves A (Touches id) := by
  unfold Finalization.runFlow3
  rw [hsession]
  apply moves_bind (touches_updateSession _)
  intro _
  apply moves_bind
  · apply moves_tryCatch (touches_same (same_produceReports _ _ _ _ _))
    intro e
    split
    · exact moves_bind (touches_updateSession _) fun _ => moves_raise _
    · exact moves_raise _
  · intro result
    exact moves_bind (touches_same (same_setFinalizingTurnArtifacts _ _)) fun _ => moves_ret _

theorem touches_finalizeAndRespond {session : SessionRecord} (hsession : session.sessionId = id)
    (turn : TurnRecord) (turns : List TurnRecord) (reference : ArtifactReference)
    (count : Option ℕ) (key : IdempotencyKey) (correlationId : Uuid) :
    (TurnsFlow.finalizeAndRespond session turn turns reference count key correlationId).Moves A
      (Touches id) := by
  unfold TurnsFlow.finalizeAndRespond
  apply moves_bind (touches_runFlow3 hsession _ _ _ _)
  intro result
  apply moves_bind (moves_ofExcept _)
  intro canonical
  rw [hsession]
  exact moves_bind (touches_closing _ _ _) fun _ => moves_ofExcept _

theorem touches_resumeFinalizing {session : SessionRecord} (hsession : session.sessionId = id)
    (key : IdempotencyKey) (correlationId : Uuid) :
    (TurnsFlow.resumeFinalizing session key correlationId).Moves A (Touches id) := by
  unfold TurnsFlow.resumeFinalizing
  apply moves_bind (touches_same (same_listTurns _))
  intro turns
  split
  · exact moves_raise _
  · apply moves_bind (touches_same (same_latestSynthesis _ _))
    intro reference
    rw [hsession]
    apply moves_bind (touches_setProcessingStage _)
    exact fun _ => touches_finalizeAndRespond hsession _ _ _ _ _ _

theorem touches_acceptTurn {session : SessionRecord} (hsession : session.sessionId = id)
    (turnNumber : ℕ) (key : IdempotencyKey) (correlationId : Uuid) :
    (TurnsFlow.acceptTurn session turnNumber key correlationId).Moves A (Touches id) := by
  unfold TurnsFlow.acceptTurn
  apply moves_bind (touches_same same_now)
  intro createdAt
  apply moves_bind (touches_same same_now)
  intro completedAt
  apply moves_bind (touches_same (same_createTurnOrGet _ _))
  intro turn
  apply moves_bind (touches_same (same_listTurns _))
  intro turns
  apply moves_bind (touches_same (same_latestSynthesis _ _))
  intro reference
  rw [hsession]
  apply moves_bind (touches_setProcessingStage _)
  exact fun _ => touches_finalizeAndRespond hsession _ _ _ _ _ _

theorem touches_draftTurn {session : SessionRecord} (hsession : session.sessionId = id)
    (message : Option Text) (turns : List TurnRecord) (turnNumber facilitatorTurn : ℕ)
    (key : IdempotencyKey) (correlationId : Uuid) :
    (TurnsFlow.draftTurn session message turns turnNumber facilitatorTurn key
      correlationId).Moves A (Touches id) := by
  unfold TurnsFlow.draftTurn
  rw [hsession]
  apply moves_bind (touches_setProcessingStage _)
  intro _
  apply moves_bind
  · exact touches_same (moves_bind (same_getStory _ _) fun _ =>
      moves_bind (same_listRunArtifacts _ _) fun _ => moves_ret _)
  intro inputs
  apply moves_bind (moves_ofExcept _)
  intro reference
  apply moves_bind (touches_same (same_synthesisReport _ _))
  intro report
  apply moves_bind (moves_ofExcept _)
  intro evidence
  apply moves_bind
  · exact touches_same (moves_tryCatch (moves_bind (moves_ofExcept _) fun _ =>
      same_invokeFacilitator _ _) fun _ => moves_raise _)
  intro first
  apply moves_bind (touches_setProcessingStage _)
  intro _
  apply moves_bind (touches_same (same_executeDelegation _ _ _ _ _ _))
  intro references
  apply moves_bind (touches_setProcessingStage _)
  intro _
  apply moves_bind (touches_same (same_maybeSynthesize _ _ _ _ _ _))
  intro synthesis
  cases synthesis.report with
  | none => exact moves_ret _
  | some report =>
      apply moves_bind (touches_setProcessingStage _)
      intro _
      apply moves_bind (moves_ofExcept _)
      intro prior
      apply moves_bind
      · exact touches_same (moves_bind (same_listRunArtifacts _ _) fun _ =>
          moves_bind (moves_ofExcept _) fun _ => moves_tryCatch
            (moves_bind (moves_ofExcept _) fun _ => same_invokeFacilitator _ _)
            fun _ => moves_raise _)
      · exact fun _ => moves_ret _

theorem touches_commitTurn {session : SessionRecord} (hsession : session.sessionId = id)
    (message : Option Text) (turnNumber facilitatorTurn : ℕ) (draft : TurnsFlow.TurnDraft)
    (key : IdempotencyKey) (correlationId : Uuid) :
    (TurnsFlow.commitTurn session message turnNumber facilitatorTurn draft key
      correlationId).Moves A (Touches id) := by
  unfold TurnsFlow.commitTurn
  rw [hsession]
  apply moves_bind (touches_same same_now)
  intro createdAt
  apply moves_bind (touches_same same_now)
  intro completedAt
  apply moves_bind (touches_same (same_createTurnOrGet _ _))
  intro turn
  split_ifs
  · apply moves_bind (touches_updateSession _)
    intro _
    apply moves_bind (touches_same (same_listTurns _))
    intro turns
    apply moves_bind (touches_setProcessingStage _)
    exact fun _ => touches_finalizeAndRespond hsession _ _ _ _ _ _
  · apply moves_bind (moves_ofExcept _)
    exact fun canonical => moves_bind (touches_closing _ _ _) fun _ => moves_ofExcept _

theorem touches_activeTurn {session : SessionRecord} (hsession : session.sessionId = id)
    (payload : TurnRequest) (key : IdempotencyKey) (correlationId : Uuid) :
    (TurnsFlow.activeTurn session payload key correlationId).Moves A (Touches id) := by
  unfold TurnsFlow.activeTurn
  apply moves_bind (touches_same (same_listTurns _))
  intro turns
  split_ifs
  · exact touches_acceptTurn hsession _ _ _
  · unfold TurnsFlow.messageTurn
    dsimp only
    split_ifs
    · exact moves_raise _
    · apply moves_bind (touches_draftTurn hsession _ _ _ _ _ _)
      exact fun draft => touches_commitTurn hsession _ _ _ _ _ _

theorem touches_resumeFlow3 {session : SessionRecord} (hsession : session.sessionId = id)
    (key : IdempotencyKey) (correlationId : Uuid) :
    (Finalize.resumeFlow3 session key correlationId).Moves A (Touches id) := by
  unfold Finalize.resumeFlow3
  apply moves_bind (touches_same (same_listTurns _))
  intro turns
  split_ifs
  · exact moves_raise _
  · apply moves_bind (touches_same (same_latestSynthesis _ _))
    intro reference
    rw [hsession]
    apply moves_bind (touches_setProcessingStage _)
    intro _
    apply moves_bind (touches_runFlow3 hsession _ _ _ _)
    intro result
    apply moves_bind (moves_ofExcept _)
    exact fun canonical => moves_bind (touches_closing _ _ _) fun _ => moves_ofExcept _

end FlowParts
end StoryReview
