import StoryReview.Endpoints
import StoryReview.StoreInvariants

/-!
# Frames

What the parts of a request leave unchanged. Most of a request is quiet: it
reads, calls agents and moves markers and leases. The drafting part of a turn
also saves artifacts of its run under the request's key, none of them a
finalized review.
-/
namespace StoryReview
open Program

/-- A session that a request may still change. -/
def SessionState.Open (state : SessionState) : Prop := state = .active ∨ state = .finalizing

instance : DecidablePred SessionState.Open := fun _ => inferInstanceAs (Decidable (_ ∨ _))

theorem SessionState.Open.not_completed {state : SessionState} (h : state.Open) :
    state ≠ .completed := by
  rcases h with rfl | rfl <;> nofun

/-- A session record up to its pagination timestamp. -/
def SessionRecord.core (s : SessionRecord) : SessionRecord := { s with updatedAt := 0 }

theorem SessionRecord.core_valid {s : SessionRecord} : s.core.Valid ↔ s.Valid := Iff.rfl

namespace World
variable (w : World)

/-- The session table up to markers and timestamps. -/
def cores : List SessionRecord := w.sessions.map fun row => row.record.core

def core (sessionId : SessionId) : Option SessionRecord :=
  w.cores.find? fun s => decide (s.sessionId = sessionId)

theorem core_eq_session (sessionId : SessionId) :
    w.core sessionId = (w.session sessionId).map fun row => row.record.core := by
  simp only [core, cores, session, List.find?_map]
  rfl

theorem core_of_session {w : World} {sessionId : SessionId} {row : SessionRow}
    (h : w.session sessionId = some row) : w.core sessionId = some row.record.core := by
  simp [core_eq_session, h]

theorem session_of_core {s : SessionRecord} {w : World} {id : SessionId}
    (h : w.core id = some s) :
    ∃ row, w.session id = some row ∧ row.record.core = s := by
  rw [core_eq_session, Option.map_eq_some_iff] at h
  exact h

theorem mem_cores_of_core {w : World} {sessionId : SessionId} {s : SessionRecord}
    (h : w.core sessionId = some s) : s ∈ w.cores := List.mem_of_find?_eq_some h

theorem sessionId_of_core {w : World} {sessionId : SessionId} {s : SessionRecord}
    (h : w.core sessionId = some s) : s.sessionId = sessionId := by
  have hid := List.find?_some h
  exact of_decide_eq_true hid

/-- An update of one session row, seen on the cores. -/
theorem modifySession_cores {sessionId : SessionId} {f : SessionRow → SessionRow}
    {g : SessionRecord → SessionRecord}
    (hf : ∀ row, (f row).record.core = g row.record.core) :
    (w.modifySession sessionId f).cores =
      w.cores.map fun s => if s.sessionId = sessionId then g s else s := by
  simp only [cores, modifySession, List.map_map]
  refine List.map_congr_left fun row _ => ?_
  have hid : row.record.core.sessionId = row.record.sessionId := rfl
  by_cases h : row.record.sessionId = sessionId
  · simp [h, hid, hf]
  · simp [h, hid]

theorem modifySession_cores_eq {sessionId : SessionId} {f : SessionRow → SessionRow}
    (hf : ∀ row, (f row).record.core = row.record.core) :
    (w.modifySession sessionId f).cores = w.cores := by
  rw [modifySession_cores w (g := id) hf]
  simp

/-- The world with the objects that a served store call leaves. -/
def served (run : RunId) (o : RunObjects) : World :=
  { w.setObjects run o with fresh := w.fresh + 1 }

@[simp] theorem served_clock (run : RunId) (o : RunObjects) :
    (w.served run o).clock = w.clock := rfl
@[simp] theorem served_fresh (run : RunId) (o : RunObjects) :
    (w.served run o).fresh = w.fresh + 1 := rfl
@[simp] theorem served_cores (run : RunId) (o : RunObjects) :
    (w.served run o).cores = w.cores := rfl
@[simp] theorem served_core (run : RunId) (o : RunObjects) :
    (w.served run o).core = w.core := rfl
@[simp] theorem served_turns (run : RunId) (o : RunObjects) :
    (w.served run o).turns = w.turns := rfl
@[simp] theorem served_claims (run : RunId) (o : RunObjects) :
    (w.served run o).claims = w.claims := rfl
@[simp] theorem served_storyRuns (run : RunId) (o : RunObjects) :
    (w.served run o).storyRuns = w.storyRuns := rfl

theorem served_objects (run run' : RunId) (o : RunObjects) :
    (w.served run o).objects run' = if run' = run then o else w.objects run' := by
  simp [served, setObjects, Function.update_apply]

@[simp] theorem served_objects_self (run : RunId) (o : RunObjects) :
    (w.served run o).objects run = o := by
  simp [served_objects]

end World

/-! ## Quiet steps -/

/-- Only time, UUIDs, leases, markers and timestamps may differ. -/
structure Quiet (w w' : World) : Prop where
  clock : w.clock ≤ w'.clock
  fresh : w.fresh ≤ w'.fresh
  storyRuns : w'.storyRuns = w.storyRuns
  cores : w'.cores = w.cores
  turns : w'.turns = w.turns
  claims : w'.claims = w.claims
  objects : w'.objects = w.objects

theorem Quiet.refl (w : World) : Quiet w w := ⟨le_rfl, le_rfl, rfl, rfl, rfl, rfl, rfl⟩

theorem Quiet.trans {u v w : World} (h : Quiet u v) (h' : Quiet v w) : Quiet u w :=
  ⟨h.clock.trans h'.clock, h.fresh.trans h'.fresh, h'.storyRuns.trans h.storyRuns,
    h'.cores.trans h.cores, h'.turns.trans h.turns, h'.claims.trans h.claims,
    h'.objects.trans h.objects⟩

instance : IsTrans World Quiet := ⟨fun _ _ _ => Quiet.trans⟩

theorem Quiet.core {w w' : World} (h : Quiet w w') (sessionId : SessionId) :
    w'.core sessionId = w.core sessionId := by
  simp only [World.core, h.cores]

theorem quiet_tick (w : World) (c : Choice) : Quiet w (w.tick c) :=
  ⟨Nat.le_succ_of_le (Nat.le_add_right _ _), le_rfl, rfl, rfl, rfl, rfl, rfl⟩

theorem quiet_modifySession (w : World) {sessionId : SessionId} {f : SessionRow → SessionRow}
    (hf : ∀ row, (f row).record.core = row.record.core) :
    Quiet w (w.modifySession sessionId f) :=
  { Quiet.refl w with cores := w.modifySession_cores_eq hf }

section Moves
variable {A : Choice → Prop} {α : Type}

theorem moves_statement {R : World → World → Prop} {f : World → α × World}
    (h : ∀ w c, R w (f (w.tick c)).2) : (statement f).Moves A R :=
  moves_atomic fun c w _ => h w c

theorem quiet_statement {f : World → α × World} (h : ∀ w, Quiet w (f w).2) :
    (statement f).Moves A Quiet :=
  moves_statement fun w c => (quiet_tick w c).trans (h _)

theorem quiet_query (f : World → α) : (query f).Moves A Quiet :=
  quiet_statement fun w => Quiet.refl w

theorem quiet_execute {f : World → World} (h : ∀ w, Quiet w (f w)) :
    (execute f).Moves A Quiet :=
  quiet_statement h

theorem quiet_now : now.Moves A Quiet := quiet_query _

theorem quiet_pureCall (answer : Choice → α) (exception : CallFailure → PyException) :
    (pureCall answer exception).Moves A Quiet := by
  refine moves_atomicExcept fun c w _ => ?_
  cases c.failure with
  | none => exact quiet_tick w c
  | some f => exact quiet_tick w c

theorem quiet_getSession (sessionId : SessionId) (userId : UserId) :
    (RecordsStore.getSession sessionId userId).Moves A Quiet := by
  refine moves_bind (quiet_query _) fun row => ?_
  cases row with
  | none => exact moves_ret _
  | some row => exact moves_bind (moves_ofExcept _) fun _ => moves_ret _

theorem quiet_touchSession (sessionId : SessionId) :
    (RecordsStore.touchSession sessionId).Moves A Quiet :=
  quiet_execute fun w => quiet_modifySession w fun _ => rfl

theorem quiet_setProcessingStage (sessionId : SessionId) (stage : Option ProcessingStage) :
    (RecordsStore.setProcessingStage sessionId stage).Moves A Quiet :=
  quiet_execute fun w => quiet_modifySession w fun _ => rfl

theorem quiet_listTurns (sessionId : SessionId) :
    (RecordsStore.listTurns sessionId).Moves A Quiet := by
  refine moves_bind (quiet_query _) fun rows => ?_
  split_ifs
  · exact moves_ret _
  · exact moves_raise _

theorem quiet_getTurn (sessionId : SessionId) (turnNumber : ℕ) :
    (RecordsStore.getTurn sessionId turnNumber).Moves A Quiet := by
  refine moves_bind (quiet_query _) fun row => ?_
  cases row with
  | none => exact moves_ret _
  | some row => exact moves_bind (moves_ofExcept _) fun _ => moves_ret _

theorem quiet_acquireStatement (sessionId : SessionId) (w : World) :
    Quiet w (TurnLease.acquireStatement sessionId w).2 := by
  have hset : Quiet w { w.setLease sessionId
      (some ⟨w.fresh, w.clock, w.clock + TurnLease.ttl⟩) with fresh := w.fresh + 1 } :=
    { Quiet.refl w with fresh := Nat.le_succ _ }
  simp only [TurnLease.acquireStatement]
  split
  · exact hset
  · split_ifs
    · exact hset
    · exact { Quiet.refl w with fresh := Nat.le_succ _ }

theorem quiet_attemptAcquire (sessionId : SessionId) :
    (TurnLease.attemptAcquire sessionId).Moves A Quiet := by
  refine moves_bind (quiet_statement (quiet_acquireStatement sessionId)) fun token => ?_
  cases token with
  | some token => exact moves_ret _
  | none =>
      refine moves_bind (quiet_query _) fun hint => ?_
      cases hint with
      | none => exact moves_ret _
      | some hint => exact moves_raise _

theorem quiet_acquireLoop (sessionId : SessionId) :
    ∀ n, (TurnLease.acquireLoop sessionId n).Moves A Quiet
  | 0 => moves_raise _
  | n + 1 => moves_bind (quiet_attemptAcquire sessionId) fun token =>
      match token with
      | some _ => moves_ret _
      | none => quiet_acquireLoop sessionId n

theorem quiet_acquire (sessionId : SessionId) :
    (TurnLease.acquire sessionId).Moves A Quiet :=
  quiet_acquireLoop sessionId 3

theorem quiet_leaseRelease (sessionId : SessionId) (token : Uuid) :
    (TurnLease.release sessionId token).Moves A Quiet := by
  refine quiet_execute fun w => ?_
  split_ifs
  · exact { Quiet.refl w with }
  · exact Quiet.refl w

theorem quiet_releaseLease (sessionId : SessionId) (token : Uuid) :
    (TurnsFlow.releaseLease sessionId token).Moves A Quiet :=
  moves_bind (quiet_setProcessingStage _ _) fun _ => quiet_leaseRelease _ _

end Moves

/-! ## Store calls -/

section StoreCalls
variable {α : Type} {run : RunId} {tool : ArtifactId → Time → StoreProgram α}
variable {errorFor : StoreException → ErrorBody}
variable {G : ArtifactId → Time → RunObjects → RunObjects → Prop}
variable {R : World → World → Prop}

/-- The lost attempts of a call, one after another. -/
theorem foldl_attempt (hrefl : ∀ w, R w w) (htrans : ∀ u v w, R u v → R v w → R u w)
    (hattempt : ∀ w n, R w (w.attempt run tool n)) (lost : List ℕ) (w : World) :
    R w (lost.foldl (fun w n => w.attempt run tool n) w) := by
  induction lost generalizing w with
  | nil => exact hrefl w
  | cons n lost ih => exact htrans _ _ _ (hattempt w n) (ih _)

/-- A store call moves the world as its tool moves the objects: `G` is what the
tool can do to them. -/
theorem moves_storeCall {A : Choice → Prop} [IsTrans World R]
    (hquiet : ∀ w w', Quiet w w' → R w w')
    (hG : ∀ id now o, G id now o o)
    (hwp : ∀ id now o, (tool id now).wp silent (G id now o) (fun _ => G id now o)
      (fun _ => G id now o) o)
    (hR : ∀ w o', G ⟨w.fresh⟩ w.clock (w.objects run) o' → R w (w.served run o')) :
    (storeCall run tool errorFor).Moves A R := by
  have hattempt : ∀ w n, R w (w.attempt run tool n) := fun w n =>
    hR w _ (wp_crash (hwp _ _ _) (hG _ _ _) (fun _ => trivial) n)
  refine moves_atomicExcept fun c w _ => ?_
  have hlost : R w (c.lost.foldl (fun w n => w.attempt run tool n) (w.tick c)) :=
    IsTrans.trans _ _ _ (hquiet _ _ (quiet_tick w c))
      (foldl_attempt (fun w => hquiet w w (Quiet.refl w)) (fun _ _ _ => IsTrans.trans _ _ _)
        hattempt _ _)
  cases c.failure with
  | some failure => exact hlost
  | none =>
      refine IsTrans.trans _ _ _ hlost (hR _ _ ?_)
      exact wp_run_state (hwp _ _ _) (hG _ _ _) fun _ => trivial

theorem quiet_storeCall {A : Choice → Prop}
    (hread : ∀ id now o, (tool id now).wp silent (· = o) (fun _ => (· = o))
      (fun _ => (· = o)) o) :
    (storeCall run tool errorFor).Moves A Quiet := by
  refine moves_storeCall (G := fun _ _ o o' => o' = o) (fun _ _ h => h)
    (fun _ _ _ => rfl) hread fun w o' ho' => ?_
  subst ho'
  exact { Quiet.refl w with
    fresh := Nat.le_succ _
    objects := by simp [World.served, World.setObjects] }

theorem quiet_list {A : Choice → Prop} (limit offset : ℕ) :
    (storeCall run (fun _ _ => ArtifactService.list limit offset) errorFor).Moves A Quiet :=
  quiet_storeCall fun _ _ _ => wp_list rfl rfl

theorem quiet_get {A : Choice → Prop} (run' : RunId) (id : ArtifactId) :
    (storeCall run (fun _ _ => ArtifactService.get run' id) errorFor).Moves A Quiet :=
  quiet_storeCall fun _ _ _ => wp_get rfl (fun _ _ _ => rfl) fun _ _ => rfl

end StoreCalls

section Downstream
variable {A : Choice → Prop}

theorem quiet_getStory (storyId : StoryId) (correlationId : Uuid) :
    (Flows.getStory storyId correlationId).Moves A Quiet := by
  refine moves_tryCatch (quiet_pureCall _ _) fun e => ?_
  split <;> exact moves_raise _

theorem quiet_listRunArtifacts (run : RunId) (correlationId : Uuid) :
    (Lineage.listRunArtifacts run correlationId).Moves A Quiet :=
  moves_tryCatch (quiet_list _ _) fun _ => moves_raise _

theorem quiet_artifactContent (reference : ArtifactReference) (correlationId : Uuid) :
    (Lineage.artifactContent reference correlationId).Moves A Quiet :=
  moves_bind (moves_tryCatch (quiet_get _ _) fun _ => moves_raise _) fun _ => moves_ret _

theorem quiet_synthesisReport (reference : ArtifactReference) (correlationId : Uuid) :
    (Lineage.synthesisReport reference correlationId).Moves A Quiet :=
  moves_bind (quiet_artifactContent _ _) fun _ => moves_ofExcept _

theorem quiet_reviewReport (reference : ArtifactReference) (correlationId : Uuid) :
    (Lineage.reviewReport reference correlationId).Moves A Quiet :=
  moves_bind (quiet_artifactContent _ _) fun _ => moves_ofExcept _

theorem quiet_assembleInputs (session : SessionRecord) (correlationId : Uuid) :
    (Lineage.assembleInputs session correlationId).Moves A Quiet :=
  moves_bind (quiet_getStory _ _) fun _ =>
    moves_bind (quiet_listRunArtifacts _ _) fun _ => moves_ret _

theorem quiet_invokeReviewer (p : Perspective) (request : ReviewerInvocation) :
    (Agents.invokeReviewer p request).Moves A Quiet := quiet_pureCall _ _

theorem quiet_invokeSynthesis (request : SynthesisInvocation) :
    (Agents.invokeSynthesis request).Moves A Quiet := quiet_pureCall _ _

theorem quiet_invokeFacilitator (request : FacilitatorInvocation) (correlationId : Uuid) :
    (Agents.invokeFacilitator request correlationId).Moves A Quiet := by
  refine moves_bind (quiet_pureCall _ _) fun output => ?_
  split
  · exact moves_ret _
  · exact moves_raise _

theorem quiet_latestSynthesis (session : SessionRecord) (correlationId : Uuid) :
    (TurnsFlow.latestSynthesis session correlationId).Moves A Quiet :=
  moves_bind (quiet_listRunArtifacts _ _) fun _ => moves_ofExcept _

theorem quiet_fanOutReviewers (story : StoryDetail) (correlationId : Uuid) :
    (Flows.fanOutReviewers story correlationId).Moves A Quiet :=
  moves_tryCatch (moves_bind (quiet_invokeReviewer _ _) fun _ =>
    moves_bind (quiet_invokeReviewer _ _) fun _ => moves_ret _) fun _ => moves_raise _

theorem quiet_finalizationSynthesisReport (reference : ArtifactReference)
    (correlationId : Uuid) :
    (Finalization.synthesisReport reference correlationId).Moves A Quiet := by
  refine moves_tryCatch (quiet_synthesisReport _ _) fun e => ?_
  split <;> exact moves_raise _

theorem quiet_responseFromCanonical (response : Option CanonicalResponse) :
    (TurnsFlow.responseFromCanonical response).Moves A Quiet := by
  unfold TurnsFlow.responseFromCanonical
  split
  · exact moves_raise _
  · refine moves_bind (quiet_getTurn _ _) fun turn => ?_
    split
    · exact moves_raise _
    · exact moves_ofExcept _
  · exact moves_raise _

theorem quiet_invokeFirstFacilitator (session : SessionRecord) (key : IdempotencyKey)
    (facilitatorTurn : ℕ) (message : Option Text) (report : SynthesisReport)
    (reference : ArtifactReference) (evidence : List ArtifactReference)
    (turns : List TurnRecord) (correlationId : Uuid) :
    (TurnsFlow.invokeFirstFacilitator session key facilitatorTurn message report reference
      evidence turns correlationId).Moves A Quiet :=
  moves_tryCatch (moves_bind (moves_ofExcept _) fun _ => quiet_invokeFacilitator _ _)
    fun _ => moves_raise _

theorem quiet_invokeSummaryFacilitator (session : SessionRecord) (key : IdempotencyKey)
    (turnNumber facilitatorTurn : ℕ) (message : Option Text) (report : SynthesisReport)
    (reference : ArtifactReference) (prior : Option DecisionState)
    (first : FacilitatorTurnOutput) (correlationId : Uuid) :
    (TurnsFlow.invokeSummaryFacilitator session key turnNumber facilitatorTurn message report
      reference prior first correlationId).Moves A Quiet :=
  moves_bind (quiet_listRunArtifacts _ _) fun _ => moves_bind (moves_ofExcept _) fun _ =>
    moves_tryCatch (moves_bind (moves_ofExcept _) fun _ => quiet_invokeFacilitator _ _)
      fun _ => moves_raise _

end Downstream
end StoryReview
