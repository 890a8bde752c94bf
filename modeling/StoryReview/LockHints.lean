import StoryReview.Exceptions
import StoryReview.Interleaving
import StoryReview.Scenarios

/-!
# The hint of a locked session

A request that meets a held lease answers `SESSION_LOCKED` with a hint when to come back.
Nothing but the lease's acquisition answers so, and the hint is the fixed one of every
retryable error.
-/
namespace StoryReview
open Program

/-! ## Exceptions of other origin -/

/-- No rejection by the lease, and no answer that looks like one. -/
def Unlocked : PyException → Prop
  | .sessionLocked _ => False
  | .apiError error => error.statusCode = 409 → error.error.code ≠ .sessionLocked
  | .finalizationFailed error _ => error.statusCode = 409 → error.error.code ≠ .sessionLocked
  | _ => True

/-- How a program ends, whatever other requests do between its statements: `Q` and `E` are
of the world that its last statement left. -/
abbrev EndsIn {α : Type} (Q : α → World → Prop) (E : PyException → World → Prop)
    (p : Orchestration α) (w : World) : Prop :=
  p.rg (fun _ => True) (fun _ _ _ => ()) (fun _ _ _ => True) (fun _ _ _ => True)
    (fun a _ => Q a) (fun e _ => E e) () w

/-- The program is never locked out. -/
def NoLock {α : Type} (p : Orchestration α) : Prop :=
  ∀ w, EndsIn (fun _ _ => True) (fun e _ => Unlocked e) p w

theorem NoLock.of_raises {α : Type} {p : Orchestration α}
    (h : p.RaisesOnly (fun _ => True) Unlocked) : NoLock p := by
  induction p with
  | ret a => exact fun _ => trivial
  | raise e => exact fun _ => h
  | step f k ih => exact fun w c t hc ht => ⟨trivial, ih _ (h c t hc) _⟩

theorem closing_unlocked : Closing Unlocked where
  plain e he := by
    cases e with
    | apiError error => exact he.elim
    | finalizationFailed error retryable => exact he.elim
    | sessionLocked hint => exact he.elim
    | _ => trivial
  upstream _ _ _ := by rintro ⟨⟩
  failed _ _ hstatus heq := absurd heq hstatus

theorem routine_unlocked : Routine Unlocked := closing_unlocked.toRoutine

theorem unlocked_of_code {error : ApiError} (h : error.error.code ≠ .sessionLocked) :
    Unlocked (.apiError error) :=
  fun _ => h

/-! ## Drafts -/

section Drafts
variable (correlationId : Uuid)

theorem unlocked_agentFailure (exc : PyException) (agent : Text) :
    Unlocked (Flows.agentFailure exc correlationId agent) := by
  cases exc with
  | agentCallFailure error =>
      dsimp only [Flows.agentFailure, Unlocked]
      split_ifs <;> rintro ⟨⟩
  | _ => exact routine_unlocked.upstream _ _ _

theorem unlocked_saveArtifact (type : ArtifactType) (run : RunId) (content : Content)
    (key : IdempotencyKey) : (Flows.saveArtifact type run content key correlationId).RaisesOnly
      (fun _ => True) Unlocked := by
  refine (raises_saveArtifact _ _ _ _ _).mono fun e he => ?_
  cases e with
  | apiError error => exact fun heq => absurd heq he
  | _ => exact routine_unlocked.plain _ he

theorem unlocked_getStory (storyId : StoryId) :
    (Flows.getStory storyId correlationId).RaisesOnly (fun _ => True) Unlocked := by
  have hfails : ∀ (c : Choice) failure, True → c.failure = some failure →
      failure.mcpException.Plain := fun _ failure _ _ => by cases failure <;> trivial
  refine .tryCatch (raises_pureCall hfails) fun e he => ?_
  cases e with
  | mcpCallFailure error =>
      refine raisesOnly_raise ?_
      unfold Flows.toolFailure
      split_ifs <;> rintro ⟨⟩
  | mcpTransportError => exact raisesOnly_raise (routine_unlocked.upstream _ _ _)
  | deadlineExceededError => exact raisesOnly_raise (routine_unlocked.upstream _ _ _)
  | _ => exact raisesOnly_raise (routine_unlocked.plain _ he)

theorem unlocked_executeDelegation (session : SessionRecord) (story : StoryDetail)
    (references : List ArtifactReference) (delegation : DelegationDecision)
    (key : IdempotencyKey) : (TurnExecution.executeDelegation session story references delegation
      key correlationId).RaisesOnly (fun _ => True) Unlocked := by
  refine .bind (.traverse (fun p => ?_) _) fun requests =>
    .bind (.caught fun exc => raisesOnly_raise (unlocked_agentFailure _ exc _)) fun results =>
      .traverse (fun result => unlocked_saveArtifact _ _ _ _ _) _
  exact .bind (raises_reviewRequest _ routine_unlocked _ _ _ _) fun _ => raisesOnly_ret _

theorem unlocked_maybeSynthesize (session : SessionRecord) (fresh : List ArtifactReference)
    (reusePrevious : Bool) (key : IdempotencyKey) (fallback : ArtifactReference) :
    (TurnExecution.maybeSynthesize session fresh reusePrevious key correlationId
      fallback).RaisesOnly (fun _ => True) Unlocked := by
  unfold TurnExecution.maybeSynthesize
  split_ifs
  · exact raisesOnly_ret _
  · exact .bind (raises_listRunArtifacts _ routine_unlocked _) fun _ =>
      .bind (raises_latestPair _ routine_unlocked _ _) fun _ =>
        .bind (raises_latestPair _ routine_unlocked _ _) fun _ =>
          .bind (.caught fun exc => raisesOnly_raise (unlocked_agentFailure _ exc _)) fun _ =>
            .bind (unlocked_saveArtifact _ _ _ _ _) fun _ => raisesOnly_ret _

theorem unlocked_draftTurn (session : SessionRecord) (message : Option Text)
    (turns : List TurnRecord) (turnNumber facilitatorTurn : ℕ) (key : IdempotencyKey) :
    (TurnsFlow.draftTurn session message turns turnNumber facilitatorTurn key
      correlationId).RaisesOnly (fun _ => True) Unlocked := by
  have hinputs : (Lineage.assembleInputs session correlationId).RaisesOnly (fun _ => True)
      Unlocked := .bind (unlocked_getStory _ _) fun _ =>
    .bind (raises_listRunArtifacts _ routine_unlocked _) fun _ => raisesOnly_ret _
  refine .bind (raises_execute _) fun _ => .bind hinputs fun inputs =>
    .bind (raisesOnly_ofExcept fun _ he => raises_latest _ routine_unlocked he) fun _ =>
      .bind (raises_synthesisReport _ routine_unlocked _) fun _ =>
        .bind (raises_evidence _ routine_unlocked _) fun _ =>
          .bind (.caught fun exc => raisesOnly_raise (unlocked_agentFailure _ exc _)) fun first =>
            .bind (raises_execute _) fun _ => .bind (unlocked_executeDelegation _ _ _ _ _ _)
              fun _ => .bind (raises_execute _) fun _ =>
                .bind (unlocked_maybeSynthesize _ _ _ _ _ _) fun synthesis => ?_
  cases synthesis.report with
  | none => exact raisesOnly_ret _
  | some report =>
      refine .bind (raises_execute _) fun _ => .bind (raises_decisionState trivial _)
        fun prior => .bind (.bind (raises_listRunArtifacts _ routine_unlocked _) fun _ =>
          .bind (raises_evidence _ routine_unlocked _) fun _ =>
            .caught fun exc => raisesOnly_raise (unlocked_agentFailure _ exc _))
              fun _ => raisesOnly_ret _

end Drafts

/-! ## Requests -/

section Requests
variable (correlationId : Uuid)

theorem unlocked_activeTurn (session : SessionRecord) (payload : TurnRequest)
    (key : IdempotencyKey) : (TurnsFlow.activeTurn session payload key correlationId).RaisesOnly
      (fun _ => True) Unlocked := by
  refine .bind (raises_listTurns routine_unlocked _) fun turns => ?_
  split_ifs
  · exact raises_acceptTurn _ closing_unlocked _ _ _
  · unfold TurnsFlow.messageTurn
    dsimp only
    split_ifs
    · exact raisesOnly_raise trivial
    · exact .bind (unlocked_draftTurn _ _ _ _ _ _ _) fun _ =>
        raises_commitTurn _ closing_unlocked _ _ _ _ _ _

theorem unlocked_executeTurn (sessionId : SessionId) (payload : TurnRequest)
    (key : IdempotencyKey) (userId : UserId) :
    (TurnsFlow.executeTurn sessionId payload key correlationId userId).RaisesOnly (fun _ => True)
      Unlocked := by
  refine .bind (raises_claim routine_unlocked _ _) fun claim => ?_
  cases claim with
  | replay response => exact raises_responseFromCanonical routine_unlocked _
  | _ =>
      refine .bind (raises_getSession routine_unlocked _ _) fun session => ?_
      cases session with
      | none => exact raisesOnly_raise trivial
      | some session =>
          dsimp only
          split
          · split_ifs
            all_goals first
              | exact raises_resumeFinalizing _ closing_unlocked _ _
              | exact .bind (raises_execute _) fun _ =>
                  raisesOnly_raise (unlocked_of_code (by rintro ⟨⟩))
          · exact unlocked_activeTurn _ _ _ _
          · exact .bind (raises_execute _) fun _ =>
              raisesOnly_raise (unlocked_of_code (by rintro ⟨⟩))

theorem unlocked_resumeUnderLease (sessionId : SessionId) (key : IdempotencyKey)
    (userId : UserId) :
    (Finalize.resumeUnderLease sessionId key correlationId userId).RaisesOnly (fun _ => True)
      Unlocked := by
  refine .bind (raises_getSession routine_unlocked _ _) fun fresh => ?_
  cases fresh with
  | none => exact raisesOnly_raise trivial
  | some fresh =>
      dsimp only
      split
      · exact raisesOnly_check (by trivial)
      · exact raisesOnly_raise (unlocked_of_code (by rintro ⟨⟩))
      · exact raisesOnly_raise (unlocked_of_code (by rintro ⟨⟩))
      · refine .bind (raises_claim routine_unlocked _ _) fun claim => ?_
        have hresume : (Finalize.resumeFlow3 fresh key correlationId).RaisesOnly (fun _ => True)
            Unlocked := by
          refine .bind (raises_listTurns routine_unlocked _) fun turns => ?_
          split_ifs
          · exact raisesOnly_raise trivial
          · exact .bind (raises_latestSynthesis _ routine_unlocked _) fun _ =>
              .bind (raises_execute _) fun _ =>
                .bind (raises_runFlow3 _ closing_unlocked _ _ _ _) fun _ =>
                  .bind (raisesOnly_check (by trivial)) fun _ =>
                    .bind (raises_execute _) fun _ => raisesOnly_check (by trivial)
        cases claim with
        | replay response =>
            unfold Finalize.replayReportResponse
            dsimp only
            split
            · exact raisesOnly_raise trivial
            · exact raisesOnly_check (by trivial)
            · exact raisesOnly_raise trivial
        | claimed => exact hresume
        | inProgress => exact hresume

theorem unlocked_parkNow (sessionId : SessionId) (key : IdempotencyKey) (userId : UserId) :
    (Abandon.parkNow sessionId key correlationId userId).RaisesOnly (fun _ => True) Unlocked := by
  refine .bind (raises_claim routine_unlocked _ _) fun claim => ?_
  cases claim with
  | replay response =>
      rcases response with _ | _ | _ | _ | _
      · exact raisesOnly_raise trivial
      · exact raisesOnly_raise trivial
      · exact raisesOnly_raise trivial
      · exact raisesOnly_raise trivial
      · exact raisesOnly_ret _
  | _ =>
      refine .bind (raises_getSession routine_unlocked _ _) fun session => ?_
      cases session with
      | none => exact raisesOnly_raise trivial
      | some session =>
          dsimp only
          split_ifs
          · exact .bind (raises_execute _) fun _ =>
              raisesOnly_raise (unlocked_of_code (by rintro ⟨⟩))
          · exact .bind (raises_execute _) fun _ => raisesOnly_ret _

end Requests

/-! ## The hint -/

section Hints
variable (sessionId : SessionId) (key : IdempotencyKey) (correlationId : Uuid) (userId : UserId)

/-- The hint is no less than the wait that the acquisition computed, and whoever comes back
after it to the same lease acquires it. -/
def HintHonest (error : ErrorBody) (w : World) : Prop :=
  ∃ hint, error.retryAfterSeconds = some hint ∧
    (∀ wait, TurnLease.retryAfter sessionId w = some wait → max 1 wait ≤ hint) ∧
    ∀ later : World, later.leases sessionId = w.leases sessionId →
      w.clock + hint * 1000000 ≤ later.clock →
        (TurnLease.acquireStatement sessionId later).1.isSome

/-- A rejection is honest exactly if no more than five seconds of the lease are left. -/
def HonestExactly (e : PyException) (w : World) : Prop :=
  ∀ error, e = .apiError error → error.statusCode = 409 → error.error.code = .sessionLocked →
    (HintHonest sessionId error.error w ↔
      ∀ lease, w.leases sessionId = some lease → lease.expiresAt ≤ w.clock + 5000000)

variable {sessionId correlationId}

theorem honestExactly_of_unlocked {e : PyException} {w : World} (h : Unlocked e) :
    HonestExactly sessionId e w := by
  rintro error rfl hstatus hcode
  exact absurd hcode (h hstatus)

/-- Rounded up, a wait is at most five seconds. -/
theorem wait_le_five {expiresAt now : ℕ} :
    max 1 ((expiresAt - now + 999999) / 1000000) ≤ 5 ↔ expiresAt ≤ now + 5000000 := by
  omega

theorem honestExactly_locked (hint : ℕ) (w : World) :
    HonestExactly sessionId (mapSessionLocked hint correlationId) w := by
  intro error he _ _
  obtain rfl := PyException.apiError.inj he
  constructor
  · rintro ⟨seconds, hseconds, hwait, -⟩ lease hlease
    obtain rfl := Option.some.inj hseconds
    exact wait_le_five.mp (hwait _ (congrArg (Option.map _) hlease))
  · intro hexpires
    refine ⟨retryAfterSeconds, rfl, fun wait hwait => ?_, fun later hleases hlater => ?_⟩
    · obtain ⟨lease, hlease, rfl⟩ := Option.map_eq_some_iff.mp hwait
      exact wait_le_five.mpr (hexpires lease hlease)
    · unfold TurnLease.acquireStatement
      rw [hleases]
      cases hlease : w.leases sessionId with
      | none => rfl
      | some lease =>
          have hexpired : lease.expiresAt ≤ later.clock := (hexpires lease hlease).trans hlater
          simp only [if_pos hexpired, Option.isSome_some]

/-- The acquisition is rejected with the wait that it read last. -/
theorem endsIn_acquire (w : World) :
    EndsIn (fun _ _ => True) (fun e t => ∃ hint, e = .sessionLocked hint ∧
      ∀ wait, TurnLease.retryAfter sessionId t = some wait → hint = max 1 wait)
      (TurnLease.acquire sessionId) w := by
  have hloop : ∀ n t, (n = 0 → TurnLease.retryAfter sessionId t = none) →
      EndsIn (fun _ _ => True) (fun e t => ∃ hint, e = .sessionLocked hint ∧
        ∀ wait, TurnLease.retryAfter sessionId t = some wait → hint = max 1 wait)
        (TurnLease.acquireLoop sessionId n) t := by
    intro n
    induction n with
    | zero =>
        intro t hnone
        refine ⟨1, rfl, fun wait hwait => ?_⟩
        rw [hnone rfl] at hwait
        cases hwait
    | succ n ih =>
        intro t _ c u _ _
        refine ⟨trivial, ?_⟩
        cases (TurnLease.acquireStatement sessionId (u.tick c)).1 with
        | some token => trivial
        | none =>
            intro c' v _ _
            refine ⟨trivial, ?_⟩
            dsimp only [Program.bind]
            cases hwait : TurnLease.retryAfter sessionId (v.tick c') with
            | none => exact ih _ fun _ => hwait
            | some wait =>
                refine ⟨_, rfl, fun wait' hwait' => ?_⟩
                obtain rfl := Option.some.inj (hwait.symm.trans hwait')
                rfl
  exact hloop 3 w nofun

/-- What a request raises that may be locked out at its acquisition and nowhere else. -/
def LockedOrNot (e : PyException) : Prop := Unlocked e ∨ ∃ hint, e = .sessionLocked hint

theorem endsIn_locked {α : Type} {rest : Uuid → Orchestration α}
    (hrest : ∀ token, NoLock (rest token)) (w : World) :
    EndsIn (fun _ _ => True) (fun e _ => LockedOrNot e)
      ((TurnLease.acquire sessionId).bind rest) w := by
  rw [EndsIn, rg_bind]
  refine rg_mono (endsIn_acquire w) (fun token _ t _ => ?_) fun e _ _ he => ?_
  · exact rg_mono (hrest token t) (fun _ _ _ _ => trivial) fun _ _ _ he => .inl he
  · obtain ⟨hint, rfl, -⟩ := he
    exact .inr ⟨hint, rfl⟩

theorem endsIn_after {α β : Type} {p : Orchestration β} {g : β → Orchestration α}
    (hp : NoLock p)
    (hg : ∀ b t, EndsIn (fun _ _ => True) (fun e _ => LockedOrNot e) (g b) t) (w : World) :
    EndsIn (fun _ _ => True) (fun e _ => LockedOrNot e) (p.bind g) w := by
  rw [EndsIn, rg_bind]
  exact rg_mono (hp w) (fun b _ t _ => hg b t) fun _ _ _ he => .inl he

/-- The endpoints answer a rejection with its hint, and hide no other exception behind one. -/
theorem endsIn_mapped {α : Type} {p : Orchestration α} {h : PyException → Orchestration α}
    {w : World} (hp : EndsIn (fun _ _ => True) (fun e _ => LockedOrNot e) p w)
    (hlocked : ∀ hint, h (.sessionLocked hint) = .raise (mapSessionLocked hint correlationId))
    (hother : ∀ e, Unlocked e → ∃ e', h e = .raise e' ∧ Unlocked e') :
    EndsIn (fun _ _ => True) (HonestExactly sessionId) (Program.tryCatch p h) w := by
  rw [EndsIn, rg_tryCatch]
  refine rg_mono hp (fun _ _ _ _ => trivial) fun e _ t he => ?_
  rcases he with hunlocked | ⟨hint, rfl⟩
  · obtain ⟨e', hraise, hunlocked'⟩ := hother e hunlocked
    rw [hraise]
    exact honestExactly_of_unlocked hunlocked'
  · rw [hlocked hint]
    exact honestExactly_locked hint t

/-- Under any interleaving, the acquisition is rejected with the wait that the lease asks for,
and the answer of a rejected turn, finalization or abandonment is honest exactly if at most
five seconds of the lease are left. -/
theorem lockHints_honestExactly (sessionId : SessionId) (key : IdempotencyKey)
    (correlationId : Uuid) (userId : UserId) (w : World) :
    EndsIn (fun _ _ => True) (fun e t => ∃ hint, e = .sessionLocked hint ∧
      ∀ wait, TurnLease.retryAfter sessionId t = some wait → hint = max 1 wait)
      (TurnLease.acquire sessionId) w ∧
    (∀ payload, EndsIn (fun _ _ => True) (HonestExactly sessionId)
      (postTurn sessionId payload key correlationId userId) w) ∧
    EndsIn (fun _ _ => True) (HonestExactly sessionId)
      (postFinalize sessionId key correlationId userId) w ∧
    EndsIn (fun _ _ => True) (HonestExactly sessionId)
      (postAbandon sessionId key correlationId userId) w := by
  refine ⟨endsIn_acquire w, fun payload => ?_, ?_, ?_⟩
  · refine endsIn_mapped (endsIn_after (.of_raises (raises_getSession routine_unlocked _ _))
      (fun session t => ?_) w) (fun _ => rfl) fun e he => ?_
    · cases session with
      | none => exact .inl (by rintro ⟨⟩)
      | some session =>
          exact endsIn_locked (fun _ => .of_raises (.ensure (unlocked_executeTurn _ _ _ _ _)
            (raises_releaseLease _ _))) t
    · cases e with
      | sessionLocked => exact he.elim
      | finalizationFailed error retryable => exact ⟨_, rfl, he⟩
      | idempotencyKeyReused message => exact ⟨_, rfl, unlocked_of_code (by rintro ⟨⟩)⟩
      | _ => exact ⟨_, rfl, he⟩
  · refine endsIn_mapped (endsIn_after (.of_raises (raises_getSession routine_unlocked _ _))
      (fun session t => ?_) w) (fun _ => rfl) fun e he => ?_
    · cases session with
      | none => exact .inl (by rintro ⟨⟩)
      | some session =>
          dsimp only
          split
          · exact rg_mono (NoLock.of_raises (raisesOnly_check (by trivial)) t)
              (fun _ _ _ _ => trivial) fun _ _ _ he => .inl he
          · exact .inl (unlocked_of_code (by rintro ⟨⟩))
          · exact .inl (unlocked_of_code (by rintro ⟨⟩))
          · exact endsIn_locked (fun _ => .of_raises (.ensure (unlocked_resumeUnderLease _ _ _ _)
              (raises_releaseLease _ _))) t
    · cases e with
      | sessionLocked => exact he.elim
      | idempotencyKeyReused message => exact ⟨_, rfl, unlocked_of_code (by rintro ⟨⟩)⟩
      | _ => exact ⟨_, rfl, he⟩
  · refine endsIn_mapped (endsIn_after (.of_raises (raises_getSession routine_unlocked _ _))
      (fun session t => ?_) w) (fun _ => rfl) fun e he => ?_
    · cases session with
      | none => exact .inl (by rintro ⟨⟩)
      | some session =>
          exact endsIn_locked (fun _ => .of_raises (.ensure (unlocked_parkNow _ _ _ _)
            (raises_releaseLease _ _))) t
    · cases e with
      | sessionLocked => exact he.elim
      | idempotencyKeyReused message => exact ⟨_, rfl, unlocked_of_code (by rintro ⟨⟩)⟩
      | _ => exact ⟨_, rfl, he⟩

end Hints

namespace Scenario

def acceptNow (key : IdempotencyKey) (crashAfter : Option ℕ) : Attempt :=
  attempt (.turn ⟨1⟩ ⟨none, true, rfl⟩) key steady crashAfter

/-- A turn request dies once it has the lease. -/
def leaseHeld : World := World.after {} [create, acceptNow 2 (some 2)]

/-- The hint of a rejection by the lease. -/
def lockedHint : Except PyException Response → Option ℕ
  | .error (.apiError error) =>
      if error.statusCode = 409 ∧ error.error.code = .sessionLocked then
        error.error.retryAfterSeconds
      else none
  | _ => none

/-- The next one is told to wait for five seconds, after which the lease is still held. -/
theorem lockHint_understates :
    let rejected := (acceptNow 3 none).program.run (acceptNow 3 none).choices leaseHeld
    lockedHint rejected.1 = some 5 ∧
      (TurnLease.retryAfter ⟨1⟩ rejected.2).any (fun wait => decide (5 < wait)) = true ∧
      (TurnLease.acquireStatement ⟨1⟩
        { rejected.2 with clock := rejected.2.clock + 5 * 1000000 }).1.isSome = false := by
  decide +kernel

end Scenario
end StoryReview
