import StoryReview.Drafts
import StoryReview.Ownership
import StoryReview.SessionReads

/-!
# Statements and calls within a user's key

A request that has found its session to be its user's acts on what is stored under the key
of that session. Every statement and call it makes there answers the same in two worlds
that agree for the user, keeps them so, and touches nothing of other users.
-/
namespace StoryReview
open Program Flows RecordsStore

/-! ## Claims and sessions -/

/-- A turn result that a claim keeps is of the claim's session. -/
def ClaimsTellOwnSession (w : World) : Prop :=
  ∀ slot claim canonical, w.claims slot = some claim →
    claim.canonicalResponse = some (.turn canonical) →
      slot.sessionId = some canonical.sessionId

/-- What every world in which a request runs satisfies. -/
def Wellformed (w : World) : Prop := Inv w ∧ ClaimsTellOwnSession w

section Claims
variable {a : Attempt} {w₀ w w' : World}

theorem Closes.tells {s : SessionRecord} {u : SessionUpdate} {canonical : CanonicalTurnResult}
    (h : Closes a w₀ w s u (.turn canonical)) (hw : Inv w) :
    a.slot.sessionId = some canonical.sessionId := by
  have hown : ∀ {payload : TurnRequest} {row : TurnRow},
      a.request = .turn s.sessionId payload → row ∈ w.turns s.sessionId →
      Describes canonical row.record → a.slot.sessionId = some canonical.sessionId := by
    rintro payload row hrequest hrow ⟨_, _, _, rfl⟩
    have hsession := (hw.turns s.sessionId row.record (List.mem_map_of_mem hrow)).2
    simp only [Attempt.slot, hrequest, TurnsFlow.slot, TurnsFlow.turnResult, hsession]
  cases h with
  | persist hrequest _ hmem _ hdescribes => exact hown hrequest hmem hdescribes
  | completeTurn _ hrequest _ hmem _ hdescribes => exact hown hrequest hmem hdescribes

theorem Commit.claimsTellOwnSession (h : ClaimsTellOwnSession w) (hw : Inv w)
    (hc : Commit a w₀ w w') : ClaimsTellOwnSession w' := by
  intro slot claim canonical hclaim hcanonical
  obtain ⟨hown, hother⟩ := hc.claims_cases
  by_cases hslot : slot = a.slot
  swap
  · exact h slot claim canonical (hother slot hslot ▸ hclaim) hcanonical
  subst hslot
  rw [hclaim] at hown
  generalize hclaim' : some claim = claim' at hown
  cases hown with
  | same => exact h _ claim canonical hclaim'.symm hcanonical
  | claim hnone =>
      rw [Option.some.inj hclaim'] at hcanonical
      cases hcanonical
  | release =>
      obtain ⟨hclaim', -⟩ := Option.filter_eq_some_iff.mp hclaim'.symm
      exact h _ claim canonical hclaim' hcanonical
  | close hs hcloses =>
      obtain ⟨claim₀, -, rfl⟩ := Option.map_eq_some_iff.mp hclaim'.symm
      rw [Option.some.inj hcanonical] at hcloses
      exact hcloses.tells hw
  | created =>
      obtain ⟨claim₀, -, rfl⟩ := Option.map_eq_some_iff.mp hclaim'.symm
      cases hcanonical

theorem Evolves.wellformed (h : Wellformed w₀) (hw : Evolves a w₀ w₀ w) : Wellformed w := by
  refine ⟨h.1.evolves hw, ?_⟩
  induction hw with
  | refl => exact h.2
  | tail hdone hc ih => exact hc.claimsTellOwnSession ih (h.1.evolves hdone)

theorem Quiet.wellformed (hq : Quiet w w') (h : Wellformed w) : Wellformed w' := by
  refine ⟨h.1.quiet hq, ?_⟩
  unfold ClaimsTellOwnSession
  rw [hq.claims]
  exact h.2

end Claims

/-! ## The scope of a request -/

/-- The user and the key of a request, and the worlds that two runs of it start from. -/
structure Scope where
  userId : UserId
  key : IdempotencyKey
  start : World
  start' : World

namespace Scope
variable (sc : Scope)

/-- The two runs have come to worlds in which the key is the user's. -/
structure Within (w w' : World) : Prop where
  beside : Beside sc.userId sc.start sc.start' w w'
  owner : w.owner sc.key = some sc.userId

/-- The session of the key. -/
def Owns (s : SessionRecord) : Prop := s.sessionId = ⟨sc.key⟩ ∧ s.storyRunId = ⟨sc.key⟩

/-- Artifacts of the run of the key. -/
def Cites (references : List ArtifactReference) : Prop :=
  ∀ r ∈ references, r.storyRunId = ⟨sc.key⟩

/-- Turns that produced syntheses of the run of the key only. -/
def Produced (turns : List TurnRecord) : Prop :=
  ∀ t ∈ turns, sc.Cites (t.producedArtifacts.filter fun r => decide (r.type = .synthesis))

end Scope

/-- The program agrees in worlds that agree for the user of the scope. -/
abbrev Program.Scoped {α : Type} (p : Orchestration α) (sc : Scope) (Q : α → Prop) : Prop :=
  p.Agrees Wellformed sc.Within Q

/-- A value that may be anything. -/
abbrev Anything {α : Type} : α → Prop := fun _ => True

section Statements
variable {sc : Scope} {α : Type} {Q : α → Prop} {w w' w₁ w₁' : World}

theorem Scope.Within.of_beside (h : sc.Within w w')
    (hbeside : Beside sc.userId sc.start sc.start' w₁ w₁')
    (hruns : w₁.storyRuns = w.storyRuns) : sc.Within w₁ w₁' := by
  refine ⟨hbeside, ?_⟩
  rw [World.owner, World.storyRun, hruns]
  exact h.owner

theorem Scope.Within.tick (h : sc.Within w w') (c : Choice) :
    sc.Within (w.tick c) (w'.tick c) :=
  h.of_beside (h.beside.tick c) rfl

theorem Wellformed.tick (h : Wellformed w) (c : Choice) : Wellformed (w.tick c) :=
  (quiet_tick w c).wellformed h

theorem scoped_statement {f : World → α × World}
    (h : ∀ w w', Wellformed w → sc.Within w w' →
      (f w).1 = (f w').1 ∧ Q (f w).1 ∧ sc.Within (f w).2 (f w').2) :
    (statement f).Scoped sc Q :=
  agrees_atomic fun c w w' hw _ _ => h (w.tick c) (w'.tick c) (hw.1.tick c) (hw.2.2.tick c)

theorem scoped_query {f : World → α}
    (h : ∀ w w', Wellformed w → sc.Within w w' → f w = f w' ∧ Q (f w)) :
    (query f).Scoped sc Q :=
  scoped_statement fun w w' hw hww =>
    ⟨(h w w' hw hww).1, (h w w' hw hww).2, hww⟩

theorem scoped_execute {f : World → World}
    (h : ∀ w w', sc.Within w w' → sc.Within (f w) (f w')) :
    (execute f).Scoped sc Anything :=
  scoped_statement fun w w' _ hww => ⟨rfl, trivial, h w w' hww⟩

theorem agrees_now {R : World → World → Prop}
    (htick : ∀ w w' c, R w w' → R (w.tick c) (w'.tick c))
    (hclock : ∀ w w', R w w' → w'.clock = w.clock) :
    now.Agrees Wellformed R Anything :=
  agrees_atomic fun _ _ _ hw _ _ =>
    ⟨(hclock _ _ (htick _ _ _ hw.2.2)).symm, trivial, htick _ _ _ hw.2.2⟩

theorem scoped_now : now.Scoped sc Anything :=
  agrees_now (fun _ _ c h => h.tick c) fun _ _ h => h.beside.agree.clock

/-- A call that reads and writes nothing durable. -/
theorem agrees_pureCall {R : World → World → Prop}
    (htick : ∀ w w' c, R w w' → R (w.tick c) (w'.tick c)) {answer : Choice → α}
    {exception : CallFailure → PyException} :
    (pureCall answer exception).Agrees Wellformed R Anything := by
  refine agrees_atomicExcept fun c w w' hw _ _ => ?_
  cases c.failure with
  | some failure => exact ⟨rfl, fun _ _ => trivial, htick _ _ c hw.2.2⟩
  | none => exact ⟨rfl, fun _ _ => trivial, htick _ _ c hw.2.2⟩

theorem scoped_pureCall {answer : Choice → α} {exception : CallFailure → PyException} :
    (pureCall answer exception).Scoped sc Anything :=
  agrees_pureCall fun _ _ c h => h.tick c

theorem scoped_ofExcept (r : Except PyException α) :
    (ofExcept r : Orchestration α).Scoped sc Anything :=
  agrees_ofExcept fun _ _ => trivial

variable {run : RunId} {tool : ArtifactId → Time → StoreProgram α}
variable {errorFor : StoreException → ErrorBody}

theorem Scope.Within.served (h : sc.Within w w') (hrun : run = ⟨sc.key⟩) {o o' : RunObjects}
    (ho : o = o') : sc.Within (w.served run o) (w'.served run o') := by
  subst hrun ho
  exact h.of_beside (h.beside.served h.owner o) rfl

/-- What a call of the tool depends on. -/
theorem Scope.Within.inputs (h : sc.Within w w') (hrun : run = ⟨sc.key⟩) :
    w'.fresh = w.fresh ∧ w'.clock = w.clock ∧ w'.objects run = w.objects run := by
  subst hrun
  exact ⟨h.beside.agree.fresh, h.beside.agree.clock, (h.beside.data h.owner).objects⟩

theorem Scope.Within.afterLost (h : sc.Within w w') (hrun : run = ⟨sc.key⟩)
    (tool : ArtifactId → Time → StoreProgram α) (c : Choice) :
    sc.Within (w.afterLost run tool c) (w'.afterLost run tool c) := by
  have hattempts : ∀ (lost : List ℕ) {v v' : World}, sc.Within v v' →
      sc.Within (lost.foldl (fun w n => w.attempt run tool n) v)
        (lost.foldl (fun w n => w.attempt run tool n) v') := by
    intro lost
    induction lost with
    | nil => exact fun hv => hv
    | cons n lost ih =>
        intro v v' hv
        obtain ⟨hfresh, hclock, hobjects⟩ := hv.inputs hrun
        refine ih (hv.served hrun ?_)
        rw [hfresh, hclock, hobjects]
  exact hattempts c.lost (h.tick c)

/-- A call on the run of the key; `hQ` is what it establishes of its answer. -/
theorem scoped_storeCall (hrun : run = ⟨sc.key⟩)
    (hQ : ∀ id now o, (tool id now).wp silent (fun _ => True) (fun b o' =>
      ∀ w, Wellformed w → w.objects run = o' → Q b) (fun _ _ => True) o) :
    (storeCall run tool errorFor).Scoped sc Q := by
  refine agrees_atomicExcept fun c w w' hw hpost _ => ?_
  have hlost := hw.2.2.afterLost hrun tool c
  unfold World.afterLost at hlost
  revert hpost
  dsimp only
  generalize c.lost.foldl (fun w n => w.attempt run tool n) (w.tick c) = v at hlost ⊢
  generalize c.lost.foldl (fun w n => w.attempt run tool n) (w'.tick c) = v' at hlost ⊢
  cases c.failure with
  | some failure => exact fun _ => ⟨rfl, nofun, hlost⟩
  | none =>
      obtain ⟨hfresh, hclock, hobjects⟩ := hlost.inputs hrun
      have hwp := wp_run (hQ ⟨v.fresh⟩ v.clock (v.objects run)) silent_answers
      rw [hfresh, hclock, hobjects]
      revert hwp
      dsimp only
      generalize (tool ⟨v.fresh⟩ v.clock).run (fun _ => ()) (v.objects run) = outcome
      obtain ⟨answer, o⟩ := outcome
      intro hwp hpost
      have hserved := hlost.served hrun (rfl : o = o)
      unfold World.served at hserved
      rw [hfresh] at hserved
      refine ⟨rfl, fun b hb => ?_, hserved⟩
      cases answer with
      | error e => cases hb
      | ok b' =>
          cases hb
          exact hwp _ hpost (World.served_objects_self v run o)

end Statements
/-! ## Records -/

section Records
variable {sc : Scope} {id : SessionId}

theorem scoped_setProcessingStage (hid : id = ⟨sc.key⟩) (stage : Option ProcessingStage) :
    (setProcessingStage id stage).Scoped sc Anything := by
  subst hid
  refine scoped_execute fun w w' h => h.of_beside ?_ rfl
  exact h.beside.modifySession ⟨sc.key⟩ h.owner fun _ => ⟨rfl, rfl, rfl⟩

theorem scoped_touchSession (hid : id = ⟨sc.key⟩) : (touchSession id).Scoped sc Anything := by
  subst hid
  refine scoped_execute fun w w' h => h.of_beside ?_ rfl
  rw [h.beside.agree.clock]
  exact h.beside.modifySession ⟨sc.key⟩ h.owner fun _ => ⟨rfl, rfl, rfl⟩

theorem World.owner_sessionUpdated (w : World) (u : SessionUpdate) (key : IdempotencyKey) :
    (sessionUpdated id u w).owner key = w.owner key := by
  have hretire : ∀ (v : World) state, (retireStoryRun id state v).owner key = v.owner key := by
    intro v state
    unfold RecordsStore.retireStoryRun World.owner
    rw [World.storyRun_map, Option.map_map]
    · congr 1
      funext run
      rw [Function.comp_apply]
      split_ifs <;> rfl
    · intro run
      split_ifs <;> rfl
  unfold RecordsStore.sessionUpdated
  dsimp only
  split
  · rw [hretire]
    rfl
  · rw [hretire]
    rfl
  · rfl

theorem Scope.Within.sessionUpdated {w w' : World} (h : sc.Within w w') (hid : id = ⟨sc.key⟩)
    (u : SessionUpdate) : sc.Within (sessionUpdated id u w) (sessionUpdated id u w') := by
  subst hid
  refine ⟨h.beside.sessionUpdated h.owner u, ?_⟩
  rw [World.owner_sessionUpdated]
  exact h.owner

theorem scoped_updateSession (hid : id = ⟨sc.key⟩) (u : SessionUpdate) :
    (updateSession id u).Scoped sc Anything :=
  scoped_execute fun _ _ h => h.sessionUpdated hid u

theorem scoped_getSession (hid : id = ⟨sc.key⟩) :
    (RecordsStore.getSession id sc.userId).Scoped sc fun found => ∀ s ∈ found, sc.Owns s := by
  subst hid
  refine Agrees.bind (S := fun row => ∀ r ∈ row, sc.Owns r.record)
    (scoped_query fun w w' hw h => ⟨?_, fun r hr => ?_⟩) fun row hrow => ?_
  · rw [h.beside.session_eq ⟨sc.key⟩ h.owner]
  · obtain ⟨hr, -⟩ := Option.filter_eq_some_iff.mp hr
    have hid := List.find?_some hr
    rw [decide_eq_true_eq] at hid
    have hkeyed := h.beside.owned.keyed r (List.mem_of_find?_eq_some hr)
    rw [hid] at hkeyed
    exact ⟨hid, congrArg RunId.mk hkeyed⟩
  · cases row with
    | none => exact agrees_ret fun s hs => by cases hs
    | some row =>
        refine Agrees.bind (S := sc.Owns) (agrees_ofExcept fun record hrecord => ?_)
          fun record hrecord => agrees_ret fun s hs => ?_
        · unfold sessionFromRow at hrecord
          split_ifs at hrecord
          cases hrecord
          exact hrow row rfl
        · cases hs
          exact hrecord

theorem Scope.Within.turns {w w' : World} (h : sc.Within w w') (hid : id = ⟨sc.key⟩) :
    w'.turns id = w.turns id := by
  subst hid
  exact (h.beside.data h.owner).turns

theorem scoped_getTurn (hid : id = ⟨sc.key⟩) (turnNumber : ℕ) :
    (getTurn id turnNumber).Scoped sc Anything := by
  refine Agrees.bind (S := Anything) (scoped_query fun w w' hw h => ⟨?_, trivial⟩) fun row _ => ?_
  · rw [turnRow, turnRow, h.turns hid]
  · cases row with
    | none => exact agrees_ret trivial
    | some row => exact (scoped_ofExcept _).bind fun _ _ => agrees_ret trivial

theorem Scope.Within.insertTurn {w w' : World} (h : sc.Within w w') (row : TurnRow)
    (hid : row.record.sessionId = ⟨sc.key⟩) :
    (insertTurn row w).1 = (insertTurn row w').1 ∧
      sc.Within (insertTurn row w).2 (insertTurn row w').2 := by
  have hturns := h.turns rfl
  have hset := fun rows => h.beside.setTurns h.owner rows
  unfold RecordsStore.insertTurn RecordsStore.turnRow
  dsimp only
  rw [hid, hturns]
  split_ifs
  · exact ⟨rfl, h⟩
  · exact ⟨rfl, h.of_beside (hset _) rfl⟩

theorem scoped_createTurnOrGet {record : TurnRecord} (hid : record.sessionId = ⟨sc.key⟩)
    (producer : Producer) : (createTurnOrGet record producer).Scoped sc Anything := by
  refine Agrees.bind (S := fun r => r.sessionId = ⟨sc.key⟩)
    (agrees_ofExcept fun r hr => ?_) fun r hr => ?_
  · unfold turnRecord at hr
    split_ifs at hr
    cases hr
    exact hid
  · refine Agrees.bind (S := Anything) (scoped_statement fun w w' _ h => ?_) fun inserted _ => ?_
    · obtain ⟨hsame, hwithin⟩ := h.insertTurn ⟨r, producer⟩ hr
      exact ⟨hsame, trivial, hwithin⟩
    · split_ifs
      · exact agrees_ret trivial
      · refine (scoped_getTurn hr _).bind fun existing _ => ?_
        cases existing with
        | none => exact agrees_raise _
        | some existing => exact agrees_ret trivial

theorem scoped_listTurns (hid : id = ⟨sc.key⟩) : (listTurns id).Scoped sc sc.Produced := by
  subst hid
  refine Agrees.bind (S := fun rows => sc.Produced (rows.map TurnRow.record))
    (scoped_query fun w w' hw h => ⟨(h.turns rfl).symm, fun t ht r hr => ?_⟩) fun rows hrows => ?_
  · obtain ⟨hr, htype⟩ := List.mem_filter.mp hr
    exact (hw.1.produced ⟨sc.key⟩ t ht r hr (of_decide_eq_true htype)).1
  · split_ifs
    · exact agrees_ret hrows
    · exact agrees_raise _

theorem scoped_setFinalizingTurnArtifacts (hid : id = ⟨sc.key⟩)
    (references : List ArtifactReference) :
    (setFinalizingTurnArtifacts id references).Scoped sc Anything := by
  subst hid
  refine Agrees.bind (S := Anything)
    (scoped_query fun w w' _ h => ⟨by rw [h.turns rfl], trivial⟩) fun n _ => ?_
  cases n with
  | none => exact agrees_ret trivial
  | some n =>
      refine scoped_execute fun w w' h => ?_
      rw [h.turns rfl]
      exact h.of_beside (h.beside.setTurns h.owner _) rfl

/-! ### Claims and leases -/

variable {slot : ClaimSlot}

theorem Scope.Within.insertClaim {w w' : World} (h : sc.Within w w')
    (hslot : slot.NamedBy sc.key) (fingerprint : Fingerprint) :
    (Idempotency.insertClaim slot fingerprint w).1 =
        (Idempotency.insertClaim slot fingerprint w').1 ∧
      sc.Within (Idempotency.insertClaim slot fingerprint w).2
        (Idempotency.insertClaim slot fingerprint w').2 := by
  unfold Idempotency.insertClaim
  rw [h.beside.claim_eq h.owner hslot]
  split_ifs
  · exact ⟨rfl, h⟩
  · exact ⟨rfl, h.of_beside (h.beside.setClaim h.owner hslot _) rfl⟩

/-- The answer of a claim to be replayed is of the claim's session. -/
theorem scoped_claim (hslot : slot.NamedBy sc.key) (fingerprint : Fingerprint) :
    (Idempotency.claim slot fingerprint).Scoped sc fun outcome =>
      ∀ canonical, outcome = .replay (some (.turn canonical)) →
        slot.sessionId = some canonical.sessionId := by
  refine Agrees.bind (S := Anything) (scoped_statement fun w w' _ h => ?_) fun inserted _ => ?_
  · obtain ⟨hsame, hwithin⟩ := h.insertClaim hslot fingerprint
    exact ⟨hsame, trivial, hwithin⟩
  split_ifs
  · exact agrees_ret fun _ heq => by cases heq
  refine Agrees.bind (S := fun row => ∀ claim ∈ row, ∀ canonical,
    claim.canonicalResponse = some (.turn canonical) →
      slot.sessionId = some canonical.sessionId)
    (scoped_query fun w w' hw h => ⟨(h.beside.claim_eq h.owner hslot).symm,
      fun claim hclaim canonical => hw.2 slot claim canonical hclaim⟩) fun row hrow => ?_
  cases row with
  | none => exact agrees_raise _
  | some row =>
      dsimp only
      split_ifs
      · exact agrees_raise _
      · cases row.state with
        | completed =>
            refine agrees_ret fun canonical heq => hrow row rfl canonical ?_
            exact Idempotency.ClaimOutcome.replay.inj heq
        | inProgress => exact agrees_ret fun _ heq => by cases heq

theorem scoped_release (hslot : slot.NamedBy sc.key) :
    (Idempotency.release slot).Scoped sc Anything := by
  refine scoped_execute fun w w' h => h.of_beside (h.beside.released h.owner hslot) ?_
  unfold Idempotency.released
  split <;> rfl

theorem Scope.Within.completed {w w' : World} (h : sc.Within w w')
    (hslot : slot.NamedBy sc.key) (response : CanonicalResponse) :
    sc.Within (Idempotency.completed slot response w)
      (Idempotency.completed slot response w') := by
  refine h.of_beside (h.beside.completed h.owner hslot response) ?_
  unfold Idempotency.completed
  split <;> rfl

theorem Scope.Within.leases {w w' : World} (h : sc.Within w w') (hid : id = ⟨sc.key⟩) :
    w'.leases id = w.leases id := by
  subst hid
  exact (h.beside.data h.owner).leases

theorem Scope.Within.acquired {w w' : World} (h : sc.Within w w') (hid : id = ⟨sc.key⟩) :
    (TurnLease.acquireStatement id w).1 = (TurnLease.acquireStatement id w').1 ∧
      sc.Within (TurnLease.acquireStatement id w).2 (TurnLease.acquireStatement id w').2 := by
  subst hid
  have hfresh := h.beside.agree.fresh
  have hclock := h.beside.agree.clock
  have hacquired : ∀ lease lease', lease = lease' → sc.Within
      { w.setLease ⟨sc.key⟩ lease with fresh := w.fresh + 1 }
      { w'.setLease ⟨sc.key⟩ lease' with fresh := w'.fresh + 1 } := by
    rintro lease _ rfl
    exact Scope.Within.of_beside h ((h.beside.setLease h.owner lease).fresh h.owner) rfl
  have hleases : w'.leases ⟨sc.key⟩ = w.leases ⟨sc.key⟩ := h.leases rfl
  have hnew : some (⟨w.fresh, w.clock, w.clock + TurnLease.ttl⟩ : Lease) =
      some ⟨w'.fresh, w'.clock, w'.clock + TurnLease.ttl⟩ := by rw [hfresh, hclock]
  unfold TurnLease.acquireStatement
  cases hlease : w.leases ⟨sc.key⟩ with
  | none =>
      rw [hlease] at hleases
      simp only [hleases]
      exact ⟨congrArg some hfresh.symm, hacquired _ _ hnew⟩
  | some held =>
      rw [hlease] at hleases
      simp only [hleases]
      by_cases hexpired : held.expiresAt ≤ w.clock
      · rw [if_pos hexpired, if_pos (hclock ▸ hexpired)]
        exact ⟨congrArg some hfresh.symm, hacquired _ _ hnew⟩
      · rw [if_neg hexpired, if_neg (hclock ▸ hexpired)]
        exact ⟨rfl, h.of_beside (h.beside.fresh h.owner) rfl⟩

theorem scoped_acquire (hid : id = ⟨sc.key⟩) : (TurnLease.acquire id).Scoped sc Anything := by
  have hattempt : (TurnLease.attemptAcquire id).Scoped sc Anything := by
    refine Agrees.bind (S := Anything) (scoped_statement fun w w' _ h => ?_) fun token _ => ?_
    · obtain ⟨hsame, hwithin⟩ := h.acquired hid
      exact ⟨hsame, trivial, hwithin⟩
    cases token with
    | some token => exact agrees_ret trivial
    | none =>
        refine Agrees.bind (S := Anything)
          (scoped_query fun w w' _ h => ⟨?_, trivial⟩) fun hint _ => ?_
        · rw [TurnLease.retryAfter, TurnLease.retryAfter, h.leases hid, h.beside.agree.clock]
        · cases hint with
          | none => exact agrees_ret trivial
          | some hint => exact agrees_raise _
  have hloop : ∀ n, (TurnLease.acquireLoop id n).Scoped sc Anything := by
    intro n
    induction n with
    | zero => exact agrees_raise _
    | succ n ih =>
        refine hattempt.bind fun token _ => ?_
        cases token with
        | some token => exact agrees_ret trivial
        | none => exact ih
  exact hloop 3

theorem scoped_releaseLease (hid : id = ⟨sc.key⟩) (token : Uuid) :
    (TurnsFlow.releaseLease id token).Scoped sc Anything := by
  refine (scoped_setProcessingStage hid none).bind fun _ _ => ?_
  refine scoped_execute fun w w' h => ?_
  rw [h.leases hid]
  subst hid
  split_ifs
  · exact h.of_beside (h.beside.setLease h.owner none) rfl
  · exact h

end Records

/-! ## Downstream calls -/

section Downstream
variable {sc : Scope} {run : RunId} {correlationId : Uuid} {reference : ArtifactReference}

/-- Errors are mapped, whatever was read. -/
theorem agrees_mapped {α : Type} {R : World → World → Prop} {Q : α → Prop}
    {p : Orchestration α} {handler : PyException → Orchestration α}
    (hp : p.Agrees Wellformed R Q) (hhandler : ∀ e, ∃ e', handler e = .raise e') :
    (p.tryCatch handler).Agrees Wellformed R Q := by
  refine hp.tryCatch fun e => ?_
  obtain ⟨e', heq⟩ := hhandler e
  rw [heq]
  exact agrees_raise e'

theorem agrees_getStory {R : World → World → Prop}
    (htick : ∀ w w' c, R w w' → R (w.tick c) (w'.tick c)) (storyId : StoryId)
    (correlationId : Uuid) :
    (getStory storyId correlationId).Agrees Wellformed R Anything := by
  refine agrees_mapped (agrees_pureCall htick) fun e => ?_
  split <;> exact ⟨_, rfl⟩

theorem scoped_invokeFacilitator (request : FacilitatorInvocation) (correlationId : Uuid) :
    (Agents.invokeFacilitator request correlationId).Scoped sc Anything := by
  refine Agrees.bind (S := Anything) scoped_pureCall fun output _ => ?_
  split
  · exact agrees_ret trivial
  · exact agrees_raise _

/-- A saved artifact is one of the run it is saved in. -/
theorem scoped_saveArtifact (type : ArtifactType) (hrun : run = ⟨sc.key⟩) (content : Content)
    (key : IdempotencyKey) (correlationId : Uuid) :
    (saveArtifact type run content key correlationId).Scoped sc
      fun r => r.storyRunId = ⟨sc.key⟩ := by
  have hcall : ∀ request : SaveArtifactInput, request.storyRunId = run →
      (callSave request correlationId).Scoped sc fun out =>
        out.reference.storyRunId = ⟨sc.key⟩ := by
    rintro request rfl
    refine scoped_storeCall hrun fun id now o => ?_
    refine wp_mono (wp_save request id now o) (fun _ _ => trivial) ?_ fun _ _ _ => trivial
    rintro out o' ⟨-, ⟨r, hr, href, -⟩, -⟩ w hw rfl
    have hmem := RunObjects.mem_records_of_recordUnder hr
    rw [href, ((hw.1.objects request.storyRunId).records_typed r hmem).2.1, hrun]
  unfold saveArtifact saveArtifactInput
  split_ifs with h <;> simp only [bind_eq, ofExcept_ok, ofExcept_error, ret_bind, raise_bind]
  · refine Agrees.bind (S := fun out => out.reference.storyRunId = ⟨sc.key⟩)
      (agrees_mapped (hcall _ rfl) fun e => ?_) fun out hout => agrees_ret hout
    split <;> exact ⟨_, rfl⟩
  · exact agrees_raise _

theorem scoped_list {errorFor : StoreException → ErrorBody} (hrun : run = ⟨sc.key⟩)
    (limit offset : ℕ) :
    (storeCall run (fun _ _ => ArtifactService.list limit offset) errorFor).Scoped sc
      sc.Cites := by
  refine scoped_storeCall hrun fun id now o => wp_list trivial ?_
  rintro w hw rfl r hr
  obtain ⟨q, hq, heq⟩ := RunObjects.mem_listing hr
  rw [heq, ← hrun]
  exact ((hw.1.objects run).records_typed q hq).2.1

theorem scoped_listRunArtifacts (hrun : run = ⟨sc.key⟩) (correlationId : Uuid) :
    (Lineage.listRunArtifacts run correlationId).Scoped sc sc.Cites :=
  agrees_mapped (scoped_list hrun 500 0) fun _ => ⟨_, rfl⟩

theorem scoped_latest {references : List ArtifactReference} (h : sc.Cites references)
    (type : ArtifactType) (perspective : Option Perspective) (correlationId : Uuid) :
    (ofExcept (Lineage.latest references type perspective correlationId) :
      Orchestration ArtifactReference).Scoped sc fun r => r.storyRunId = ⟨sc.key⟩ := by
  refine agrees_ofExcept fun r hr => h r ?_
  exact List.mem_of_mem_filter (Lineage.mem_of_maxVersion (Lineage.latest_eq_ok hr))

theorem scoped_artifactContent (hreference : reference.storyRunId = ⟨sc.key⟩)
    (correlationId : Uuid) :
    (Lineage.artifactContent reference correlationId).Scoped sc Anything := by
  refine Agrees.bind (S := Anything)
    (agrees_mapped (scoped_storeCall hreference fun id now o => ?_) fun _ => ⟨_, rfl⟩)
    fun _ _ => agrees_ret trivial
  exact wp_mono (wp_trivial _ o) (fun _ _ => trivial) (fun _ _ _ _ _ _ => trivial)
    fun _ _ _ => trivial

theorem scoped_synthesisReport (hreference : reference.storyRunId = ⟨sc.key⟩)
    (correlationId : Uuid) :
    (Lineage.synthesisReport reference correlationId).Scoped sc Anything :=
  (scoped_artifactContent hreference correlationId).bind fun _ _ => scoped_ofExcept _

theorem scoped_reviewReport (hreference : reference.storyRunId = ⟨sc.key⟩)
    (correlationId : Uuid) :
    (Lineage.reviewReport reference correlationId).Scoped sc Anything :=
  (scoped_artifactContent hreference correlationId).bind fun _ _ => scoped_ofExcept _

theorem scoped_assembleInputs {session : SessionRecord} (hs : sc.Owns session)
    (correlationId : Uuid) :
    (Lineage.assembleInputs session correlationId).Scoped sc fun x => sc.Cites x.2 :=
  (agrees_getStory (fun _ _ c h => h.tick c) _ _).bind fun _ _ =>
    (scoped_listRunArtifacts hs.2 _).bind fun _ hreferences => agrees_ret hreferences

theorem scoped_latestSynthesis {session : SessionRecord} (hs : sc.Owns session)
    (correlationId : Uuid) : (TurnsFlow.latestSynthesis session correlationId).Scoped sc
      fun r => r.storyRunId = ⟨sc.key⟩ :=
  (scoped_listRunArtifacts hs.2 _).bind fun _ hreferences => scoped_latest hreferences _ _ _

end Downstream
end StoryReview
