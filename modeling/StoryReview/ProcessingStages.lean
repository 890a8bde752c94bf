import StoryReview.Debts
import StoryReview.Durability
import StoryReview.SessionTable

/-!
# Processing stages

A request marks its session with the stage it is in and clears the marker when it ends.
While no process dies, a marker that is set is the marker of a request still running.
-/
namespace StoryReview
open Program Flows RecordsStore

/-! ## Markers -/

/-- The session's stage marker is set. -/
def World.marked (id : SessionId) (w : World) : Bool :=
  (w.session id).any fun row => row.processingStage.isSome

theorem session_modifySession (id : SessionId) (w : World) {f : SessionRow → SessionRow}
    (hf : ∀ row, (f row).record.sessionId = row.record.sessionId) :
    (w.modifySession id f).session id = (w.session id).map f := by
  have hsame : ((fun row : SessionRow => decide (row.record.sessionId = id)) ∘
      fun row => if row.record.sessionId = id then f row else row) =
      fun row => decide (row.record.sessionId = id) := by
    funext row
    simp only [Function.comp_apply]
    split_ifs
    · rw [hf]
    · rfl
  rw [World.session, World.modifySession, List.find?_map, hsame, World.session]
  cases hrow : w.sessions.find? fun row => decide (row.record.sessionId = id) with
  | none => rfl
  | some row =>
      have hid := List.find?_some hrow
      simp [of_decide_eq_true hid]

theorem marked_setProcessingStage (id : SessionId) (w : World) :
    World.marked id (w.modifySession id fun row => { row with processingStage := none }) =
      false := by
  have hsession := session_modifySession id w
    (f := fun row => { row with processingStage := none }) fun _ => rfl
  rw [World.marked, hsession]
  cases w.session id <;> rfl

theorem marked_of_sessions {id : SessionId} {w w' : World} (h : w'.sessions = w.sessions) :
    World.marked id w' = World.marked id w := by
  rw [World.marked, World.marked, World.session, World.session, h]

theorem marked_sessionUpdated (id : SessionId) (u : SessionUpdate) (w : World) :
    World.marked id (sessionUpdated id u w) = World.marked id w := by
  have hsession := session_modifySession id w
    (f := fun row => { row with record := u.apply w.clock row.record }) fun _ => rfl
  rw [marked_of_sessions (same_sessionUpdated id u w).sessions, World.marked, hsession,
    World.marked]
  cases w.session id <;> rfl

/-- A new session has no marker. -/
theorem marked_insertSession (id : SessionId) (record : SessionRecord) (w : World) :
    World.marked id (insertSession record w).2 = true → World.marked id w = true := by
  unfold insertSession
  split_ifs
  · exact fun h => h
  · intro h
    simp only [World.marked, World.session, List.find?_append] at h ⊢
    cases hrow : w.sessions.find? fun row => decide (row.record.sessionId = id) with
    | none =>
        rw [hrow, Option.none_or, List.find?_singleton] at h
        split_ifs at h <;> exact absurd h Bool.false_ne_true
    | some row =>
        rw [hrow] at h
        exact h

theorem touches_insertSession {id : SessionId} {record : SessionRecord} {w : World} {c : Choice}
    (hid : record.sessionId = id) (hstamp : record.updatedAt ≤ w.clock) :
    Touches id w (insertSession record (w.tick c)).2 := by
  have hclock : w.clock ≤ (w.tick c).clock := (quiet_tick w c).clock
  unfold insertSession
  split_ifs
  · exact (same_tick w c).touches
  · next hany =>
      refine ⟨hclock, fun hdistinct => ?_, fun row => row, [⟨record, none⟩],
        by simp [World.tick], fun _ _ => rfl, fun row => .refl _ _ row, ?_⟩
      · simp only [List.any_eq_true, decide_eq_true_eq, not_exists, not_and, not_or] at hany
        rw [World.DistinctSessions, List.map_append, List.nodup_append']
        refine ⟨hdistinct, List.nodup_singleton _, ?_⟩
        simp only [List.map_cons, List.map_nil, List.disjoint_singleton, List.mem_map, not_exists,
          not_and]
        exact fun row hrow => (hany row hrow).1
      · simp only [List.forall_mem_singleton]
        exact ⟨hid, hstamp.trans hclock⟩

/-- Requests on other sessions leave a row as it is. -/
theorem Touches.session {id id' : SessionId} {w w' : World} (h : Touches id w w')
    (hne : id' ≠ id) : w'.session id' = w.session id' := by
  obtain ⟨-, -, g, new, hsessions, hothers, hages, hnew⟩ := h
  have hsame : ((fun row : SessionRow => decide (row.record.sessionId = id')) ∘ g) =
      fun row => decide (row.record.sessionId = id') := by
    funext row
    simp only [Function.comp_apply, (hages row).sessionId]
  have hnone : new.find? (fun row => decide (row.record.sessionId = id')) = none := by
    simp only [List.find?_eq_none, decide_eq_true_eq]
    exact fun row hrow heq => hne (heq.symm.trans (hnew row hrow).1)
  rw [World.session, hsessions, List.find?_append, hnone, Option.or_none, List.find?_map, hsame,
    World.session]
  cases hrow : w.sessions.find? fun row => decide (row.record.sessionId = id') with
  | none => rfl
  | some row =>
      have hid := List.find?_some hrow
      rw [Option.map_some, hothers row fun heq => hne ((of_decide_eq_true hid).symm.trans heq)]

/-! ## Requests and their markers -/

/-- A request keeps track of whether it owes the clearing of its session's marker. -/
def marking (a : Attempt) : Conduct Bool where
  observe := owing (World.marked a.sessionId)
  rely := fun _ w w' => Tolerates w w' ∧ w.clock ≤ w'.clock
  guar := fun _ => Touches a.sessionId

/-- The request owes nothing, and the time `t` has come. -/
def Settled (t : Time) (owes : Bool) (w : World) : Prop := owes = false ∧ t ≤ w.clock

section Marking
variable {A : Choice → Prop} {a : Attempt} {α : Type} {p : Orchestration α} {t : Time}
variable {owes : Bool} {w : World}

theorem settled_zero (w : World) : Settled 0 false w := ⟨rfl, Nat.zero_le _⟩

theorem Settled.rely {w' : World} (h : Settled t owes w)
    (hrely : (marking a).rely owes w w') : Settled t owes w' :=
  ⟨h.1, h.2.trans hrely.2⟩

theorem Settled.step {w' : World} (h : Settled t owes w) (htouches : Touches a.sessionId w w')
    (hmarked : World.marked a.sessionId w' = true → World.marked a.sessionId w = true) :
    Settled t ((marking a).observe owes w w') w' := by
  obtain ⟨rfl, hclock⟩ := h
  exact ⟨owing_same hmarked, hclock.trans htouches.clock⟩

/-- Whatever it owes, a request works on its own session. -/
theorem loose (h : p.Moves A (Touches a.sessionId)) :
    (marking a).rg A p (fun _ _ _ => True) (fun _ _ _ => True) owes w :=
  h.rg (J := fun _ _ => True) (fun _ _ _ _ _ => trivial) (fun _ _ _ _ hstep => ⟨hstep, trivial⟩)
    trivial

theorem settled_same (h : p.Moves A SameSessions) (hsettled : Settled t owes w) :
    (marking a).rg A p (fun _ => Settled t) (fun _ => Settled t) owes w :=
  h.rg (fun _ _ _ hJ hrely => hJ.rely hrely) (fun _ _ _ hJ hstep =>
    ⟨hstep.touches, hJ.step hstep.touches
      fun hmarked => (marked_of_sessions hstep.sessions).symm.trans hmarked⟩) hsettled

theorem settled_raise (e : PyException) (h : Settled t owes w) :
    (marking a).rg A (.raise e : Orchestration α) (fun _ => Settled t) (fun _ => Settled t) owes
      w := h

/-- Clearing the marker settles. -/
theorem settled_clear :
    (marking a).rg A (setProcessingStage a.sessionId none) (fun _ => Settled 0)
      (fun _ => Settled 0) owes w := by
  intro c v _ _
  have hclean := marked_setProcessingStage a.sessionId (v.tick c)
  exact ⟨touches_modifySession v c fun _ => ⟨rfl, rfl, .inl rfl⟩, owing_clean hclean,
    Nat.zero_le _⟩

/-- Under the lease a request may owe: the marker is cleared however it ends. -/
theorem settled_underLease (hbody : ∀ owes w, (marking a).rg A p (fun _ _ _ => True)
      (fun _ _ _ => True) owes w) (hsettled : Settled 0 owes w) :
    (marking a).rg A (Program.bind (TurnLease.acquire a.sessionId) fun token =>
        Program.ensure p (TurnsFlow.releaseLease a.sessionId token))
      (fun _ => Settled 0) (fun _ => Settled 0) owes w := by
  have hcleanup : ∀ token owes w, (marking a).rg A (TurnsFlow.releaseLease a.sessionId token)
      (fun _ => Settled 0) (fun _ => Settled 0) owes w := by
    intro token owes w
    apply (rg_bind _ _).mpr
    apply rg_mono settled_clear
    · exact fun _ _ _ h => settled_same (same_leaseRelease _ _) h
    · exact fun _ _ _ h => h
  apply (rg_bind _ _).mpr
  apply rg_mono (settled_same (same_acquire _) hsettled)
  · intro token owes w _
    apply (rg_ensure _ _).mpr
    apply rg_mono (hbody owes w)
    · exact fun _ owes w _ => hcleanup token owes w
    · exact fun _ owes w _ => hcleanup token owes w
  · exact fun _ _ _ h => h

theorem loose_query {β : Type} {f : World → β} {P : β → Prop} (h : ∀ w, P (f w)) :
    (marking a).rg A (query f) (fun b _ _ => P b) (fun _ _ _ => True) owes w :=
  fun c v _ _ => ⟨(same_tick v c).touches, h _⟩

/-- A session that is read is the one asked for. -/
theorem loose_getSession (userId : UserId) :
    (marking a).rg A (getSession a.sessionId userId)
      (fun session _ _ => ∀ s ∈ session, s.sessionId = a.sessionId) (fun _ _ _ => True) owes
        w := by
  have hread : ∀ w : World, ∀ row ∈ (w.session a.sessionId).filter fun row =>
      decide (row.record.userId = userId), row.record.sessionId = a.sessionId := by
    intro w row hrow
    have hid := List.find?_some (Option.filter_eq_some_iff.mp hrow).1
    exact of_decide_eq_true hid
  apply (rg_bind _ _).mpr
  apply rg_mono (loose_query (P := fun row : Option SessionRow =>
    ∀ r ∈ row, r.record.sessionId = a.sessionId) hread)
  · intro row _ _ hrow
    cases row with
    | none => simp
    | some row =>
        apply (rg_bind _ _).mpr
        apply (rg_ofExcept _).mpr
        constructor
        · intro s hs
          unfold sessionFromRow at hs
          split_ifs at hs
          cases hs
          simpa using hrow
        · exact fun _ _ => trivial
  · exact fun _ _ _ _ => trivial

theorem marking_statement {f : World → α × World} {Q : α → Bool → World → Prop}
    {E : PyException → Bool → World → Prop} (h : ∀ v c, (marking a).rely owes w v →
      Touches a.sessionId v (f (v.tick c)).2 ∧ Q (f (v.tick c)).1
        ((marking a).observe owes v (f (v.tick c)).2) (f (v.tick c)).2) :
    (marking a).rg A (statement f) Q E owes w :=
  fun c v _ hrely => h v c hrely

theorem marking_bind {β : Type} {q : β → Orchestration α} {r : Orchestration β}
    {Q : β → Bool → World → Prop} {Q' : α → Bool → World → Prop}
    {E E' : PyException → Bool → World → Prop} (h : (marking a).rg A r Q E owes w)
    (hq : ∀ b owes w, Q b owes w → (marking a).rg A (q b) Q' E' owes w)
    (hE : ∀ e owes w, E e owes w → E' e owes w) :
    (marking a).rg A (r.bind q) Q' E' owes w := by
  apply (rg_bind _ _).mpr
  exact rg_mono h hq hE

theorem owed_bind {β : Type} {q : β → Orchestration α} {r : Orchestration β}
    {Q : β → Bool → World → Prop} (h : (marking a).rg A r Q (fun _ _ _ => True) owes w)
    (hq : ∀ b owes w, Q b owes w →
      (marking a).rg A (q b) (fun _ _ _ => True) (fun _ _ _ => True) owes w) :
    (marking a).rg A (r.bind q) (fun _ _ _ => True) (fun _ _ _ => True) owes w :=
  marking_bind h hq fun _ _ _ _ => trivial

/-! ### Turn, finalize and abandon requests -/

theorem loose_executeTurn (payload : TurnRequest) :
    (marking a).rg A (TurnsFlow.executeTurn a.sessionId payload a.key a.correlationId a.userId)
      (fun _ _ _ => True) (fun _ _ _ => True) owes w := by
  unfold TurnsFlow.executeTurn
  apply owed_bind (loose (touches_same (same_claim _ _)))
  intro claim owes w _
  split
  · exact loose (touches_same (same_responseFromCanonical _))
  · apply owed_bind (loose_getSession a.userId)
    intro session owes w hsession
    split
    · trivial
    · next session =>
        have hid := hsession session rfl
        split
        · split_ifs
          · exact loose (touches_resumeFinalizing hid _ _)
          · exact loose (moves_bind (touches_same (same_release _)) fun _ => moves_raise _)
        · exact loose (touches_activeTurn hid _ _ _)
        · exact loose (moves_bind (touches_same (same_release _)) fun _ => moves_raise _)

theorem loose_resumeUnderLease :
    (marking a).rg A (Finalize.resumeUnderLease a.sessionId a.key a.correlationId a.userId)
      (fun _ _ _ => True) (fun _ _ _ => True) owes w := by
  unfold Finalize.resumeUnderLease
  apply owed_bind (loose_getSession a.userId)
  intro session owes w hsession
  split
  · trivial
  · next session =>
      have hid := hsession session rfl
      split
      · exact loose (moves_ofExcept _)
      · trivial
      · trivial
      · apply owed_bind (loose (touches_same (same_claim _ _)))
        intro claim owes w _
        split
        · exact loose (moves_ofExcept _)
        · exact loose (touches_resumeFlow3 hid _ _)

theorem loose_parkNow :
    (marking a).rg A (Abandon.parkNow a.sessionId a.key a.correlationId a.userId)
      (fun _ _ _ => True) (fun _ _ _ => True) owes w := by
  unfold Abandon.parkNow
  apply owed_bind (loose (touches_same (same_claim _ _)))
  intro claim owes w _
  split
  · trivial
  · trivial
  · trivial
  · apply loose (moves_bind (touches_same (same_getSession _ _)) _)
    intro session
    split
    · exact moves_raise _
    · split_ifs
      · exact moves_bind (touches_same (same_release _)) fun _ => moves_raise _
      · exact moves_bind (touches_closing _ _ _) fun _ => moves_ret _

/-- A request that catches and raises again. -/
theorem settled_tryCatch {q : Orchestration α} {handler : PyException → Orchestration α}
    (h : (marking a).rg A q (fun _ => Settled 0) (fun _ => Settled 0) owes w)
    (hhandler : ∀ e, ∃ e', handler e = .raise e') :
    (marking a).rg A (q.tryCatch handler) (fun _ => Settled 0) (fun _ => Settled 0) owes w := by
  apply (rg_tryCatch _ _).mpr
  apply rg_mono h
  · exact fun _ _ _ h => h
  · intro e owes w hsettled
    obtain ⟨e', he'⟩ := hhandler e
    rw [he']
    exact hsettled

theorem settled_postTurn (payload : TurnRequest) (h : Settled 0 owes w) :
    (marking a).rg A (postTurn a.sessionId payload a.key a.correlationId a.userId)
      (fun _ => Settled 0) (fun _ => Settled 0) owes w := by
  apply settled_tryCatch
  · unfold TurnsFlow.runTurn
    apply marking_bind (settled_same (same_getSession _ _) h)
    · intro session owes w hsettled
      cases session with
      | none => exact settled_raise _ hsettled
      | some session => exact settled_underLease (fun _ _ => loose_executeTurn payload) hsettled
    · exact fun _ _ _ h => h
  · intro e
    split <;> exact ⟨_, rfl⟩

theorem settled_postFinalize (h : Settled 0 owes w) :
    (marking a).rg A (postFinalize a.sessionId a.key a.correlationId a.userId)
      (fun _ => Settled 0) (fun _ => Settled 0) owes w := by
  apply settled_tryCatch
  · unfold Finalize.finalize
    apply marking_bind (settled_same (same_getSession _ _) h)
    · intro session owes w hsettled
      cases session with
      | none => exact settled_raise _ hsettled
      | some session =>
          dsimp only
          split
          · exact settled_same (moves_ofExcept _) hsettled
          · exact settled_raise _ hsettled
          · exact settled_raise _ hsettled
          · exact settled_underLease (fun _ _ => loose_resumeUnderLease) hsettled
    · exact fun _ _ _ h => h
  · intro e
    split <;> exact ⟨_, rfl⟩

theorem settled_postAbandon (h : Settled 0 owes w) :
    (marking a).rg A (postAbandon a.sessionId a.key a.correlationId a.userId)
      (fun _ => Settled 0) (fun _ => Settled 0) owes w := by
  apply settled_tryCatch
  · apply marking_bind (settled_same (same_getSession _ _) h)
    · intro session owes w hsettled
      cases session with
      | none => exact settled_raise _ hsettled
      | some session => exact settled_underLease (fun _ _ => loose_parkNow) hsettled
    · exact fun _ _ _ h => h
  · intro e
    split <;> exact ⟨_, rfl⟩

/-! ### Creations -/

theorem settled_now (h : Settled t owes w) :
    (marking a).rg A now (fun time => Settled time) (fun _ => Settled 0) owes w := by
  unfold now query
  apply marking_statement
  intro v c hrely
  have htick : Touches a.sessionId v (v.tick c) := (same_tick v c).touches
  have hstep := (h.rely hrely).step htick fun hmarked => hmarked
  exact ⟨htick, hstep.1, le_rfl⟩

theorem Settled.forget (h : Settled t owes w) : Settled 0 owes w := ⟨h.1, Nat.zero_le _⟩

/-- The session of a creation is new, or it is the session of the run. -/
theorem settled_createSessionOrGet (hsession : a.sessionId = ⟨a.key⟩) {record : SessionRecord}
    (hid : record.sessionId = ⟨a.key⟩) (hrun : record.storyRunId = ⟨a.key⟩)
    (h : Settled record.updatedAt owes w) :
    (marking a).rg A (createSessionOrGet record)
      (fun session owes w => Settled 0 owes w ∧ session.sessionId = a.sessionId)
      (fun _ => Settled 0) owes w := by
  apply (rg_bind _ _).mpr
  apply marking_statement
  intro v c hrely
  have hv := h.rely hrely
  have htouches : Touches a.sessionId v (insertSession record (v.tick c)).2 :=
    touches_insertSession (hid.trans hsession.symm) hv.2
  have hstep := (hv.step htouches (marked_insertSession _ _ (v.tick c))).forget
  refine ⟨htouches, ?_⟩
  split_ifs
  · exact ⟨hstep, hid.trans hsession.symm⟩
  · apply (rg_bind _ _).mpr
    apply marking_statement
    intro v' c' hrely'
    have htick : Touches a.sessionId v' (v'.tick c') := (same_tick v' c').touches
    have hstep' := (hstep.rely hrely').step htick fun hmarked => hmarked
    refine ⟨htick, ?_⟩
    split
    · next row hrow =>
        have hcoherent : Coherent (v'.tick c') :=
          (Lawful.tick v' c').coherent hrely'.1.coherent
        rw [hrun] at hrow
        have hkey : row.record.core.sessionId = ⟨a.key⟩ :=
          World.sessionId_of_core (hcoherent.core_of_run hrow)
        apply (rg_ofExcept _).mpr
        constructor
        · intro session hread
          unfold sessionFromRow at hread
          split_ifs at hread
          cases hread
          exact ⟨hstep', hkey.trans hsession.symm⟩
        · exact fun _ _ => hstep'
    · exact hstep'

theorem settled_initialPipeline (story : StoryDetail) (run : RunId) :
    (marking a).rg A (initialPipeline story run a.sessionId a.key a.correlationId)
      (fun _ => Settled 0) (fun _ _ _ => True) owes w := by
  unfold initialPipeline
  apply marking_bind (loose (touches_openingArtifacts _ _ _ _)) _ fun _ _ _ h => h
  intro artifacts owes w _
  apply marking_bind (loose (touches_setProcessingStage _)) _ fun _ _ _ h => h
  intro _ owes w _
  apply marking_bind (loose (touches_same (same_openingOutput _ _ _ _ _ _))) _ fun _ _ _ h => h
  intro output owes w _
  apply marking_bind (loose (touches_same same_now)) _ fun _ _ _ h => h
  intro createdAt owes w _
  apply marking_bind (loose (touches_same same_now)) _ fun _ _ _ h => h
  intro completedAt owes w _
  apply marking_bind (loose (touches_same (same_createTurnOrGet _ _))) _ fun _ _ _ h => h
  intro turn owes w _
  apply marking_bind (loose touches_touchSession) _ fun _ _ _ h => h
  intro _ owes w _
  apply marking_bind (loose (moves_ofExcept _)) _ fun _ _ _ h => h
  intro response owes w _
  apply marking_bind (loose (touches_same (same_complete _ _))) _ fun _ _ _ h => h
  intro _ owes w _
  exact marking_bind settled_clear (fun _ _ _ h => h) fun _ _ _ _ => trivial

theorem settled_pipelineFailed (exc : PyException) :
    (marking a).rg A (pipelineFailed a.sessionId a.key exc) (fun _ => Settled 0)
      (fun _ => Settled 0) owes w := by
  unfold pipelineFailed
  apply marking_bind settled_clear _ fun _ _ _ h => h
  intro _ owes w hsettled
  split
  · split_ifs
    · exact hsettled
    · apply (rg_bind _ _).mpr
      unfold parkFailedSession execute
      apply marking_statement
      intro v c hrely
      have hsame := same_released (createSlot a.key)
        (sessionUpdated a.sessionId { state := some .parked } (v.tick c))
      have htouches : Touches a.sessionId v _ :=
        (touches_sessionUpdated { state := some .parked } v c).trans hsame.touches
      refine ⟨htouches, (hsettled.rely hrely).step htouches ?_⟩
      rw [marked_of_sessions hsame.sessions, marked_sessionUpdated]
      exact fun hmarked => hmarked
  · exact hsettled

theorem settled_postSession {payload : CreateSessionRequest}
    (hrequest : a.request = .createSession payload) (h : Settled 0 owes w) :
    (marking a).rg A (postSession payload a.key a.correlationId a.userId)
      (fun _ => Settled 0) (fun _ => Settled 0) owes w := by
  have hsession : a.sessionId = ⟨a.key⟩ := Attempt.sessionId_create hrequest
  apply settled_tryCatch
  · unfold runCreateSession
    apply marking_bind (settled_same (same_claim _ _) h) _ fun _ _ _ h => h
    intro claim owes w h
    split
    · exact settled_same (moves_ofExcept _) h
    · exact settled_raise _ h
    · exact settled_raise _ h
    · apply marking_bind (settled_same (same_getStory _ _) h) _ fun _ _ _ h => h
      intro story owes w h
      apply marking_bind (settled_now h) _ fun _ _ _ h => h
      intro createdAt owes w h
      apply marking_bind (settled_same (same_createStoryRunOrGet _) h) _
        fun _ _ _ h => h.forget
      intro storyRun owes w h
      apply marking_bind (settled_now h) _ fun _ _ _ h => h
      intro createdAt' owes w h
      apply marking_bind (settled_createSessionOrGet hsession rfl rfl h) _ fun _ _ _ h => h
      rintro session owes w ⟨h, hid⟩
      split_ifs
      · exact marking_bind (settled_same (same_release _) h) (fun _ _ _ h => settled_raise _ h)
          fun _ _ _ h => h
      · rw [hid]
        apply (rg_tryCatch _ _).mpr
        apply rg_mono (settled_initialPipeline story _)
        · exact fun _ _ _ h => h
        · exact fun exc owes w _ => settled_pipelineFailed exc
  · intro e
    split <;> exact ⟨_, rfl⟩

/-- A request that ends owes nothing. -/
theorem settled_program (h : Settled 0 owes w) :
    (marking a).rg A a.program (fun _ => Settled 0) (fun _ => Settled 0) owes w := by
  unfold Attempt.program
  cases hkind : a.request with
  | createSession payload =>
      exact marking_bind (settled_postSession hkind h) (fun _ _ _ h => h) fun _ _ _ h => h
  | turn id payload =>
      obtain rfl : a.sessionId = id := by rw [Attempt.sessionId, hkind]
      exact marking_bind (settled_postTurn payload h) (fun _ _ _ h => h) fun _ _ _ h => h
  | finalize id =>
      obtain rfl : a.sessionId = id := by rw [Attempt.sessionId, hkind]
      exact marking_bind (settled_postFinalize h) (fun _ _ _ h => h) fun _ _ _ h => h
  | abandon id =>
      obtain rfl : a.sessionId = id := by rw [Attempt.sessionId, hkind]
      exact marking_bind (settled_postAbandon h) (fun _ _ _ h => h) fun _ _ _ h => h

end Marking

/-! ## Runs -/

section Runs
variable {γ : Type} {aux : Attempt → γ} {observe : Attempt → γ → World → World → γ}
variable {D : Discipline Attempt γ World Choice PyException Response}

/-- `J` is what a request that has ended knows of what it kept track of. -/
def tableContract (J : γ → Prop) : Contract Attempt γ World PyException Response where
  inv := Coherent
  rely := fun _ _ w w' => Tolerates w w' ∧ w.clock ≤ w'.clock
  guar := fun a _ w w' => Footprint a w w' ∧ Touches a.sessionId w w'
  post := fun _ g _ _ => J g

theorem tableContract_sound {J : γ → Prop} (hstarts : ∀ (a : Attempt) (w : World),
      a.program.rg a.Admits (observe a)
      (fun _ w w' => Tolerates w w' ∧ w.clock ≤ w'.clock) (fun _ => Touches a.sessionId)
      (fun _ g _ => J g) (fun _ g _ => J g) (aux a) w) :
    (tableContract J).Sound (service aux observe) D where
  rely_refl := fun _ _ w hw => ⟨⟨.refl w, .refl w, hw⟩, le_rfl⟩
  rely_trans := fun _ _ _ _ _ h h' => ⟨⟨h.1.lawful.trans h'.1.lawful,
    h.1.endures.trans h'.1.endures, h'.1.coherent⟩, h.2.trans h'.2⟩
  starts := fun w _ a hw _ => by
    have hfooting : a.program.rg a.Admits (observe a) (fun _ w w' => Tolerates w w' ∧
        w.clock ≤ w'.clock) (fun _ => Footprint a) (fun _ _ _ => True) (fun _ _ _ => True) (aux a)
        w := rg_rely (Footing.rg_program a (aux a) hw) fun _ _ _ h => h.1
    exact rg_mono (rg_and hfooting (hstarts a w)) (fun _ _ _ h => h.2) fun _ _ _ h => h.2
  inv := fun _ _ _ _ hw _ hguar => hguar.1.lawful.coherent hw
  compatible := fun _ _ _ _ hw _ hguar _ _ =>
    ⟨⟨hguar.1.lawful, hguar.1.endures, hguar.1.lawful.coherent hw⟩, hguar.2.clock⟩
  post := fun _ _ _ _ _ _ _ _ _ _ h => h

/-- Requests that keep track of the marker of one session. -/
def markers (id : SessionId) : System Attempt Bool World Choice PyException Response :=
  service (fun _ => false) fun _ => owing (World.marked id)

theorem marking_starts (id : SessionId) (a : Attempt) (w : World) :
    a.program.rg a.Admits (owing (World.marked id)) (fun _ w w' => Tolerates w w' ∧
        w.clock ≤ w'.clock) (fun _ => Touches a.sessionId) (fun _ owes _ => owes = false)
      (fun _ owes _ => owes = false) false w := by
  have hprogram := settled_program (A := a.Admits) (a := a) (settled_zero w)
  by_cases hid : a.sessionId = id
  · subst hid
    exact rg_mono hprogram (fun _ _ _ h => h.1) fun _ _ _ h => h.1
  · apply rg_track hprogram
    · rintro owes v v' rfl htouches
      apply owing_same
      rw [World.marked, World.marked, htouches.session (Ne.symm hid)]
      exact fun hmarked => hmarked
    · rfl

/-- While no process dies, a marker that is set belongs to a request still running. -/
theorem stages_are_cleared
    {pool : Pool Attempt γ World Choice PyException Response}
    (h : Pool.Survives (service aux observe) .free ⟨{}, [], []⟩ pool) {id : SessionId}
    {row : SessionRow} (hrow : pool.state.session id = some row)
    (hstage : row.processingStage ≠ none) :
    ∃ thread ∈ pool.running, thread.origin.sessionId = id := by
  obtain ⟨pool', hpool', halike⟩ := Pool.Survives.alike (S := service aux observe)
    (T := markers id) rfl rfl h
  have hmarked : World.marked id pool'.state = true := by
    rw [halike.state, World.marked, hrow]
    exact Option.isSome_iff_ne_none.mpr hstage
  have hsound : (tableContract (· = false)).Sound (markers id) .free :=
    tableContract_sound (marking_starts id)
  obtain ⟨thread, hthread, hid, -⟩ := hsound.owed (fun a => a.sessionId = id)
    (fun _ => rfl) (fun _ _ _ _ h => h)
    (fun a _ w w' hguar hother hdirty => by
      rw [World.marked, hguar.2.session (Ne.symm hother)] at hdirty
      exact hdirty) coherent_init rfl hpool' hmarked
  have hmem : thread.bare ∈ pool.running.map Thread.bare :=
    halike.running ▸ List.mem_map_of_mem hthread
  obtain ⟨other, hother, hbare⟩ := List.mem_map.mp hmem
  have horigin : other.origin = thread.origin := congrArg Prod.fst hbare
  exact ⟨other, hother, horigin ▸ hid⟩

end Runs

namespace Scenario

/-- A creation that has told its stage. -/
theorem stages_are_cleared_create : ∃ pool : RequestPool, ∃ row,
    Pool.Survives requests .free ⟨{}, [], []⟩ pool ∧ pool.state.session ⟨1⟩ = some row ∧
      row.processingStage = some .reviewing ∧
      ∃ thread ∈ pool.running, thread.origin.sessionId = ⟨1⟩ := by
  obtain ⟨phase, hunderway⟩ := Pool.Survives.underway (S := requests) (D := .free) (s := {})
    (i := create) create.choices [] (fun n => ⟨n, rfl⟩) trivial (fun _ _ _ => trivial) 7
  have hrow : ((create.program.crash create.choices 7 {}).session ⟨1⟩).any (fun row =>
      decide (row.processingStage = some .reviewing)) = true := by decide +kernel
  obtain ⟨row, hrow, hstage⟩ := Option.any_eq_true _ _ |>.mp hrow
  have hstage : row.processingStage = some .reviewing := of_decide_eq_true hstage
  have hset : row.processingStage ≠ none := by simp [hstage]
  exact ⟨_, row, hunderway, hrow, hstage, stages_are_cleared hunderway hrow hset⟩

end Scenario

end StoryReview
