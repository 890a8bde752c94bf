import StoryReview.Interleaving
import StoryReview.SessionSteps

/-!
# Requests under interference

Each statement of a request may find the world changed since the one before it.
An outline says what a request knows at its critical statements, and that each of
them keeps the guarantee with only that knowledge; everything in between only
drafts. A request whose outline holds keeps its contract.
-/
namespace StoryReview
open Program Flows RecordsStore

/-- A claim that exists is not inserted again. -/
theorem insertClaim_eq {slot : ClaimSlot} {fingerprint : Fingerprint} {row : ClaimRow}
    {w : World} (h : w.claims slot = some row) :
    Idempotency.insertClaim slot fingerprint w = (false, w) := by
  unfold Idempotency.insertClaim
  rw [if_pos (by rw [h]; rfl)]

theorem insertClaim_new {slot : ClaimSlot} {fingerprint : Fingerprint} {w : World}
    (h : w.claims slot = none) : Idempotency.insertClaim slot fingerprint w =
      (true, w.setClaim slot (some ⟨fingerprint, .inProgress, none⟩)) := by
  unfold Idempotency.insertClaim
  rw [if_neg (by rw [h]; nofun)]

/-- The HTTP requests as threads; a process may die at any step. -/
def service {γ : Type} (aux : Attempt → γ) (observe : Attempt → γ → World → World → γ) :
    System Attempt γ World Choice PyException Response where
  program := Attempt.program
  admits := Attempt.Admits
  aux := aux
  observe := observe

/-- What a request may see happen and what it may do. -/
structure Conduct (γ : Type) where
  observe : γ → World → World → γ
  rely : γ → World → World → Prop
  guar : γ → World → World → Prop

namespace Conduct
variable {γ α β : Type} {C : Conduct γ} {A : Choice → Prop} {K J : γ → World → Prop}
variable {Q : α → γ → World → Prop} {E : PyException → γ → World → Prop} {g : γ} {w : World}

abbrev rg (C : Conduct γ) (A : Choice → Prop) (p : Orchestration α)
    (Q : α → γ → World → Prop) (E : PyException → γ → World → Prop) (g : γ) (w : World) :
    Prop :=
  Program.rg A C.observe C.rely C.guar Q E p g w

/-- A statement that is in the guarantee and establishes `K`. -/
def Does (C : Conduct γ) (K : γ → World → Prop) (g : γ) (w w' : World) : Prop :=
  C.guar g w w' ∧ K (C.observe g w w') w'

/-- Knowledge that interference and drafting leave intact. -/
structure Keeps (C : Conduct γ) (K : γ → World → Prop) : Prop where
  stable : ∀ g w w', K g w → C.rely g w w' → K g w'
  frame : ∀ g w w', K g w → Framed w w' → C.Does K g w w'

theorem Keeps.framed (h : C.Keeps K) {p : Orchestration α} (hp : p.Moves A Framed)
    (hK : K g w) : C.rg A p (fun _ => K) (fun _ => K) g w :=
  hp.rg h.stable h.frame hK

theorem Keeps.quiet (h : C.Keeps K) {p : Orchestration α} (hp : p.Moves A Quiet)
    (hK : K g w) : C.rg A p (fun _ => K) (fun _ => K) g w :=
  h.framed (hp.mono fun _ _ => Framed.of_quiet) hK

theorem Keeps.tick (h : C.Keeps K) (hK : K g w) (c : Choice) : C.Does K g w (w.tick c) :=
  h.frame _ _ _ hK (Framed.of_quiet (quiet_tick w c))

/-- A read, and what it tells of the world it reads. -/
theorem Keeps.query (h : C.Keeps K) {f : World → α} (hK : K g w)
    (hQ : ∀ g w, K g w → Q (f w) g w) : C.rg A (query f) Q E g w := by
  intro c v hc hv
  have hdoes := h.tick (h.stable _ _ _ hK hv) c
  exact ⟨hdoes.1, hQ _ _ hdoes.2⟩

/-- One statement that changes the world. -/
theorem Keeps.execute (h : C.Keeps K) {f : World → World} (hK : K g w)
    (hf : ∀ g w c, K g w → C.Does J g w (f (w.tick c))) :
    C.rg A (execute f) (fun _ => J) E g w := by
  intro c v hc hv
  exact hf g v c (h.stable _ _ _ hK hv)

theorem Keeps.quietExecute (h : C.Keeps K) {f : World → World} (hf : ∀ w, Quiet w (f w))
    (hK : K g w) : C.rg A (StoryReview.execute f) (fun _ => K) E g w :=
  h.execute hK fun g w c hK =>
    h.frame g w _ hK (Framed.of_quiet ((quiet_tick w c).trans (hf _)))

theorem rg_statement (hstable : ∀ g w w', K g w → C.rely g w w' → K g w')
    {f : World → α × World} (hK : K g w)
    (hf : ∀ g w c, K g w → C.guar g w (f (w.tick c)).2 ∧
      Q (f (w.tick c)).1 (C.observe g w (f (w.tick c)).2) (f (w.tick c)).2) :
    C.rg A (statement f) Q E g w := by
  intro c v hc hv
  exact hf g v c (hstable _ _ _ hK hv)

theorem Keeps.statement (h : C.Keeps K) {f : World → α × World} (hK : K g w)
    (hf : ∀ g w c, K g w → C.guar g w (f (w.tick c)).2 ∧
      Q (f (w.tick c)).1 (C.observe g w (f (w.tick c)).2) (f (w.tick c)).2) :
    C.rg A (StoryReview.statement f) Q E g w :=
  rg_statement h.stable hK hf

theorem Keeps.claim (h : C.Keeps K) {slot : ClaimSlot} {fingerprint : Fingerprint}
    (hinsert : ∀ g w c, K g w →
      C.Does K g w (Idempotency.insertClaim slot fingerprint (w.tick c)).2) (hK : K g w) :
    C.rg A (Idempotency.claim slot fingerprint) (fun _ => K) (fun _ => K) g w := by
  refine (rg_bind _ _).mpr (h.statement hK fun g w c hK => ?_)
  have hdoes := hinsert g w c hK
  refine ⟨hdoes.1, ?_⟩
  split
  · exact hdoes.2
  · refine (rg_bind _ _).mpr (h.query hdoes.2 fun g w hK => ?_)
    split
    · exact hK
    · split_ifs
      · exact hK
      · split
        · exact hK
        · exact hK

end Conduct

/-! ## Turn, finalize and abandon requests -/

/-- The knowledge of a session request: `K` from its start, `L` under the lease, `O`
once it has found the session open; `N` are the numbers it gives to new turns and `M`
those of the turns it stamps. -/
structure SessionOutline {γ : Type} (a : Attempt) (C : Conduct γ)
    (K L O : γ → World → Prop) (N M : ℕ → Prop) : Prop where
  start : C.Keeps K
  leased : C.Keeps L
  isOpen : C.Keeps O
  weaken : ∀ g w, O g w → L g w
  frame : ∀ g w w', Framed w w' → C.guar g w w'
  acquire : ∀ g w c token w', K g w →
    TurnLease.acquireStatement a.sessionId (w.tick c) = (some token, w') → C.Does L g w w'
  claim : ∀ g w c, L g w → C.Does L g w (Idempotency.insertClaim a.slot a.fingerprint
    (w.tick c)).2
  claimOpen : ∀ g w c, O g w → C.Does O g w (Idempotency.insertClaim a.slot a.fingerprint
    (w.tick c)).2
  release : ∀ g w c, L g w → C.guar g w (Idempotency.released a.slot (w.tick c))
  read : ∀ g w row, L g w → w.session a.sessionId = some row → row.record.state.Open → O g w
  number : ∀ g w, O g w → (∀ row ∈ w.turns a.sessionId, row.record.Valid) →
    N (TurnsFlow.nextTurnNumber (w.history a.sessionId))
  turn : ∀ g w c row payload, O g w → a.request = .turn a.sessionId payload →
    row.record.sessionId = a.sessionId → row.record.Valid → row.producer = .turn a.key →
      N row.record.turnNumber → C.Does O g w (insertTurn row (w.tick c)).2
  last : ∀ g w n, O g w → finalizingTurnNumber (w.turns a.sessionId) = some n → M n
  stamp : ∀ g w c n references, O g w → M n → C.Does O g w ((w.tick c).setTurns a.sessionId
    (((w.tick c).turns a.sessionId).map (stampTurn n references)))
  mark : ∀ g w c u, O g w → (∀ state ∈ u.state, state.Open) →
    C.Does O g w (sessionUpdated a.sessionId u (w.tick c))
  close : ∀ g w c u response, O g w → (∀ r, response ≠ .created r) →
    C.guar g w (Idempotency.completed a.slot response
      (sessionUpdated a.sessionId u (w.tick c)))

namespace SessionOutline
variable {γ : Type} {a : Attempt} {C : Conduct γ} {K L O : γ → World → Prop} {N M : ℕ → Prop}
variable {A : Choice → Prop} {g : γ} {w : World}

/-! ### Primitives -/

theorem rg_release (h : SessionOutline a C K L O N M) (hL : L g w) :
    C.rg A (Idempotency.release a.slot) (fun _ _ _ => True) (fun _ _ _ => True) g w :=
  h.leased.execute (J := fun _ _ => True) hL fun g w c hL => ⟨h.release g w c hL, trivial⟩

theorem rg_getSession (h : SessionOutline a C K L O N M) (userId : UserId) (hL : L g w) :
    C.rg A (getSession a.sessionId userId)
      (fun session g w => L g w ∧ ∀ s ∈ session, s.sessionId = a.sessionId ∧
        (s.state.Open → O g w)) (fun _ _ _ => True) g w := by
  refine (rg_bind _ _).mpr (h.leased.query hL fun g w hL => ?_)
  split
  · exact ⟨hL, by simp⟩
  · next row hrow =>
      obtain ⟨hrow, -⟩ := Option.filter_eq_some_iff.mp hrow
      refine (rg_bind _ _).mpr ((rg_ofExcept _).mpr ⟨fun s hs => ⟨hL, ?_⟩, fun _ _ => trivial⟩)
      have heq : s = row.record := by
        unfold sessionFromRow at hs
        split_ifs at hs
        exact (Except.ok.inj hs).symm
      have hid : row.record.core.sessionId = a.sessionId :=
        World.sessionId_of_core (World.core_of_session hrow)
      rintro _ ⟨⟩
      subst heq
      exact ⟨hid, fun hopen => h.read g w row hL hrow hopen⟩

theorem rg_listTurns (h : SessionOutline a C K L O N M) (hO : O g w) :
    C.rg A (listTurns a.sessionId)
      (fun turns g w => O g w ∧ N (TurnsFlow.nextTurnNumber turns)) (fun _ _ _ => True) g w := by
  refine (rg_bind _ _).mpr (h.isOpen.query hO fun g w hO => ?_)
  split_ifs with hvalid
  · exact ⟨hO, h.number g w hO hvalid⟩
  · exact trivial

theorem rg_createTurnOrGet (h : SessionOutline a C K L O N M) {payload : TurnRequest}
    (hrequest : a.request = .turn a.sessionId payload) {record : TurnRecord}
    (hsession : record.sessionId = a.sessionId) (hnumber : N record.turnNumber)
    (hO : O g w) : C.rg A (createTurnOrGet record (.turn a.key)) (fun _ => O)
      (fun _ _ _ => True) g w := by
  refine (rg_bind _ _).mpr ((rg_ofExcept _).mpr ⟨fun record' hrecord => ?_, fun _ _ => trivial⟩)
  unfold turnRecord at hrecord
  split_ifs at hrecord with hvalid
  cases hrecord
  refine (rg_bind _ _).mpr (h.isOpen.statement hO fun g w c hO => ?_)
  have hdoes := h.turn g w c ⟨record, .turn a.key⟩ payload hO hrequest hsession hvalid rfl hnumber
  refine ⟨hdoes.1, ?_⟩
  split
  · exact hdoes.2
  · refine (rg_bind _ _).mpr (rg_mono (h.isOpen.quiet (quiet_getTurn _ _) hdoes.2)
      (fun existing g w hO => ?_) fun _ _ _ _ => trivial)
    split
    · exact hO
    · trivial

theorem rg_updateSession (h : SessionOutline a C K L O N M) {u : SessionUpdate}
    (hu : ∀ state ∈ u.state, state.Open) (hO : O g w) :
    C.rg A (updateSession a.sessionId u) (fun _ => O) (fun _ _ _ => True) g w :=
  h.isOpen.execute hO fun g w c hO => h.mark g w c u hO hu

/-! ### Flow 3 and the closing transactions -/

theorem rg_runFlow3 (h : SessionOutline a C K L O N M) {session : SessionRecord}
    (hsession : session.sessionId = a.sessionId) (turns : List TurnRecord)
    (reference : ArtifactReference) (hO : O g w) :
    C.rg A (Finalization.runFlow3 session turns a.key a.correlationId reference) (fun _ => O)
      (fun _ _ _ => True) g w := by
  unfold Finalization.runFlow3
  rw [hsession]
  refine (rg_bind _ _).mpr (rg_mono (h.rg_updateSession (fun state hstate => ?_) hO)
    (fun _ g w hO => ?_) fun _ _ _ h => h)
  · cases hstate
    exact .inr rfl
  refine (rg_bind _ _).mpr ((rg_tryCatch _ _).mpr (rg_mono
    (h.isOpen.framed (moves_produceReports session turns a.key a.correlationId reference) hO)
    (fun result g w hO => ?_) fun e g w hO => ?_))
  · -- the two statements of the stamp
    refine (rg_bind _ _).mpr ((rg_bind _ _).mpr (h.isOpen.query hO fun g w hO => ?_))
    split
    · exact hO
    · next n hn =>
        exact h.isOpen.execute hO fun g' w' c hO' =>
          h.stamp g' w' c n _ hO' (h.last g w n hO hn)
  · -- the roll back of a final failure
    split
    · exact (rg_bind _ _).mpr (rg_mono (h.rg_updateSession (fun state hstate => by
        cases hstate; exact .inl rfl) hO) (fun _ _ _ _ => trivial) fun _ _ _ _ => trivial)
    · trivial

/-- A transaction that closes the claim with the session update. -/
theorem rg_close (h : SessionOutline a C K L O N M) (u : SessionUpdate)
    {response : CanonicalResponse} (hresponse : ∀ r, response ≠ .created r) (hO : O g w) :
    C.rg A (execute fun w => Idempotency.completed a.slot response
        (sessionUpdated a.sessionId u w))
      (fun _ _ _ => True) (fun _ _ _ => True) g w :=
  h.isOpen.execute (J := fun _ _ => True) hO fun g w c hO =>
    ⟨h.close g w c u response hO hresponse, trivial⟩

theorem rg_ends {α : Type} (r : Except PyException α) :
    C.rg A (.ofExcept r) (fun _ _ _ => True) (fun _ _ _ => True) g w :=
  (rg_ofExcept r).mpr ⟨fun _ _ => trivial, fun _ _ => trivial⟩

theorem rg_quiet (h : SessionOutline a C K L O N M) {α : Type} {p : Orchestration α}
    (hp : p.Moves A Quiet) : C.rg A p (fun _ _ _ => True) (fun _ _ _ => True) g w :=
  hp.rg (J := fun _ _ => True) (fun _ _ _ _ _ => trivial)
    (fun g w w' _ hq => ⟨h.frame g w w' (Framed.of_quiet hq), trivial⟩) trivial

/-! ### Turn requests -/

section Turn
variable {payload : TurnRequest}

theorem rg_finalizeAndRespond (h : SessionOutline a C K L O N M)
    (hrequest : a.request = .turn a.sessionId payload) {session : SessionRecord}
    (hsession : session.sessionId = a.sessionId) (turn : TurnRecord)
    (turns : List TurnRecord) (reference : ArtifactReference) (count : Option ℕ) (hO : O g w) :
    C.rg A (TurnsFlow.finalizeAndRespond session turn turns reference count a.key
      a.correlationId) (fun _ _ _ => True) (fun _ _ _ => True) g w := by
  have hslot : TurnsFlow.slot session.sessionId a.key = a.slot := by
    rw [hsession, Attempt.turnSlot hrequest]
  unfold TurnsFlow.finalizeAndRespond
  rw [hslot, hsession]
  refine (rg_bind _ _).mpr (rg_mono (h.rg_runFlow3 hsession turns reference hO)
    (fun result g w hO => ?_) fun _ _ _ _ => trivial)
  refine (rg_bind _ _).mpr ((rg_ofExcept _).mpr ⟨fun canonical _ => ?_, fun _ _ => trivial⟩)
  refine (rg_bind _ _).mpr (rg_mono (h.rg_close _ (by simp) hO)
    (fun _ g w _ => ?_) fun _ _ _ _ => trivial)
  exact rg_ends _

theorem rg_persistAndRespond (h : SessionOutline a C K L O N M)
    (hrequest : a.request = .turn a.sessionId payload) (turn : TurnRecord)
    (outcome : TurnOutcome) (reference : ArtifactReference)
    (resolutions : List ResolutionItem) (count : ℕ) (hO : O g w) :
    C.rg A (TurnsFlow.persistAndRespond a.sessionId a.key turn outcome reference resolutions
      count) (fun _ _ _ => True) (fun _ _ _ => True) g w := by
  unfold TurnsFlow.persistAndRespond
  rw [Attempt.turnSlot hrequest]
  refine (rg_bind _ _).mpr ((rg_ofExcept _).mpr ⟨fun canonical _ => ?_, fun _ _ => trivial⟩)
  refine (rg_bind _ _).mpr (rg_mono (h.rg_close _ (by simp) hO) (fun _ g w _ => ?_)
    fun _ _ _ _ => trivial)
  exact rg_ends _

theorem rg_resumeFinalizing (h : SessionOutline a C K L O N M)
    (hrequest : a.request = .turn a.sessionId payload) {session : SessionRecord}
    (hsession : session.sessionId = a.sessionId) (hO : O g w) :
    C.rg A (TurnsFlow.resumeFinalizing session a.key a.correlationId) (fun _ _ _ => True)
      (fun _ _ _ => True) g w := by
  unfold TurnsFlow.resumeFinalizing
  rw [hsession]
  refine (rg_bind _ _).mpr (rg_mono (h.rg_listTurns hO) ?_ fun _ _ _ _ => trivial)
  rintro turns g w ⟨hO, -⟩
  split
  · trivial
  · next turn _ =>
      refine (rg_bind _ _).mpr (rg_mono (h.isOpen.quiet (quiet_latestSynthesis _ _) hO)
        (fun reference g w hO => ?_) fun _ _ _ _ => trivial)
      refine (rg_bind _ _).mpr (rg_mono (h.isOpen.quiet (quiet_setProcessingStage _ _) hO)
        (fun _ g w hO => ?_) fun _ _ _ _ => trivial)
      exact h.rg_finalizeAndRespond hrequest hsession turn turns reference none hO

theorem rg_acceptTurn (h : SessionOutline a C K L O N M)
    (hrequest : a.request = .turn a.sessionId payload) {session : SessionRecord}
    (hsession : session.sessionId = a.sessionId) {turnNumber : ℕ} (hnumber : N turnNumber)
    (hO : O g w) :
    C.rg A (TurnsFlow.acceptTurn session turnNumber a.key a.correlationId)
      (fun _ _ _ => True) (fun _ _ _ => True) g w := by
  unfold TurnsFlow.acceptTurn
  rw [hsession]
  refine (rg_bind _ _).mpr (rg_mono (h.isOpen.quiet quiet_now hO) (fun createdAt g w hO => ?_)
    fun _ _ _ _ => trivial)
  refine (rg_bind _ _).mpr (rg_mono (h.isOpen.quiet quiet_now hO)
    (fun completedAt g w hO => ?_) fun _ _ _ _ => trivial)
  refine (rg_bind _ _).mpr (rg_mono (h.rg_createTurnOrGet hrequest rfl hnumber hO)
    (fun turn g w hO => ?_) fun _ _ _ _ => trivial)
  refine (rg_bind _ _).mpr (rg_mono (h.rg_listTurns hO) ?_ fun _ _ _ _ => trivial)
  rintro turns g w ⟨hO, -⟩
  refine (rg_bind _ _).mpr (rg_mono (h.isOpen.quiet (quiet_latestSynthesis _ _) hO)
    (fun reference g w hO => ?_) fun _ _ _ _ => trivial)
  refine (rg_bind _ _).mpr (rg_mono (h.isOpen.quiet (quiet_setProcessingStage _ _) hO)
    (fun _ g w hO => ?_) fun _ _ _ _ => trivial)
  exact h.rg_finalizeAndRespond hrequest hsession turn turns reference none hO

theorem rg_commitTurn (h : SessionOutline a C K L O N M)
    (hrequest : a.request = .turn a.sessionId payload) {session : SessionRecord}
    (hsession : session.sessionId = a.sessionId) (message : Option Text) {turnNumber : ℕ}
    (hnumber : N turnNumber) (facilitatorTurn : ℕ) (draft : TurnsFlow.TurnDraft) (hO : O g w) :
    C.rg A (TurnsFlow.commitTurn session message turnNumber facilitatorTurn draft a.key
      a.correlationId) (fun _ _ _ => True) (fun _ _ _ => True) g w := by
  unfold TurnsFlow.commitTurn
  rw [hsession]
  refine (rg_bind _ _).mpr (rg_mono (h.isOpen.quiet quiet_now hO) (fun createdAt g w hO => ?_)
    fun _ _ _ _ => trivial)
  refine (rg_bind _ _).mpr (rg_mono (h.isOpen.quiet quiet_now hO)
    (fun completedAt g w hO => ?_) fun _ _ _ _ => trivial)
  refine (rg_bind _ _).mpr (rg_mono (h.rg_createTurnOrGet hrequest rfl hnumber hO)
    (fun turn g w hO => ?_) fun _ _ _ _ => trivial)
  split
  · refine (rg_bind _ _).mpr (rg_mono (h.rg_updateSession nofun hO) (fun _ g w hO => ?_)
      fun _ _ _ _ => trivial)
    refine (rg_bind _ _).mpr (rg_mono (h.rg_listTurns hO) ?_ fun _ _ _ _ => trivial)
    rintro turns g w ⟨hO, -⟩
    refine (rg_bind _ _).mpr (rg_mono (h.isOpen.quiet (quiet_setProcessingStage _ _) hO)
      (fun _ g w hO => ?_) fun _ _ _ _ => trivial)
    exact h.rg_finalizeAndRespond hrequest hsession turn turns _ _ hO
  · exact h.rg_persistAndRespond hrequest turn _ _ _ _ hO

theorem rg_activeTurn (h : SessionOutline a C K L O N M)
    (hrequest : a.request = .turn a.sessionId payload) {session : SessionRecord}
    (hsession : session.sessionId = a.sessionId) (hO : O g w) :
    C.rg A (TurnsFlow.activeTurn session payload a.key a.correlationId) (fun _ _ _ => True)
      (fun _ _ _ => True) g w := by
  unfold TurnsFlow.activeTurn
  rw [hsession]
  refine (rg_bind _ _).mpr (rg_mono (h.rg_listTurns hO) ?_ fun _ _ _ _ => trivial)
  rintro turns g w ⟨hO, hnumber⟩
  split
  · exact h.rg_acceptTurn hrequest hsession hnumber hO
  · unfold TurnsFlow.messageTurn
    dsimp only
    split
    · trivial
    · refine (rg_bind _ _).mpr (rg_mono (h.isOpen.framed
        ((moves_draftTurn session payload.message turns _ _ a.key a.correlationId).mono
          fun _ _ => Drafting.framed) hO) (fun draft g w hO => ?_) fun _ _ _ _ => trivial)
      exact h.rg_commitTurn hrequest hsession payload.message hnumber _ draft hO

theorem rg_executeTurn (h : SessionOutline a C K L O N M)
    (hrequest : a.request = .turn a.sessionId payload) (hL : L g w) :
    C.rg A (TurnsFlow.executeTurn a.sessionId payload a.key a.correlationId a.userId)
      (fun _ _ _ => True) (fun _ _ _ => True) g w := by
  have hfingerprint : Fingerprint.turn payload = a.fingerprint := by
    rw [Attempt.fingerprint, hrequest]
  unfold TurnsFlow.executeTurn
  rw [Attempt.turnSlot hrequest, hfingerprint]
  refine (rg_bind _ _).mpr (rg_mono (h.leased.claim h.claim hL) (fun claim g w hL => ?_)
    fun _ _ _ _ => trivial)
  split
  · exact h.rg_quiet (quiet_responseFromCanonical _)
  · refine (rg_bind _ _).mpr (rg_mono (h.rg_getSession a.userId hL) ?_ fun _ _ _ _ => trivial)
    rintro session g w ⟨hL, hread⟩
    split
    · trivial
    · next session =>
        obtain ⟨hsession, hopen⟩ := hread session rfl
        split
        · next hstate =>
            split_ifs
            · exact h.rg_resumeFinalizing hrequest hsession (hopen (.inr hstate))
            · exact (rg_bind _ _).mpr (rg_mono (h.rg_release hL) (fun _ _ _ _ => trivial)
                fun _ _ _ _ => trivial)
        · next hstate => exact h.rg_activeTurn hrequest hsession (hopen (.inl hstate))
        · exact (rg_bind _ _).mpr (rg_mono (h.rg_release hL) (fun _ _ _ _ => trivial)
            fun _ _ _ _ => trivial)

end Turn

/-! ### The lease -/

/-- Under the lease the body runs from what its holder knows. -/
theorem rg_underLease (h : SessionOutline a C K L O N M) {α : Type} {body : Orchestration α}
    (hbody : ∀ g w, L g w → C.rg A body (fun _ _ _ => True) (fun _ _ _ => True) g w)
    (hK : K g w) :
    C.rg A (Program.bind (TurnLease.acquire a.sessionId) fun token =>
        Program.ensure body (TurnsFlow.releaseLease a.sessionId token))
      (fun _ _ _ => True) (fun _ _ _ => True) g w := by
  refine (rg_bind _ _).mpr (rg_mono (Q := fun _ => L) (E := fun _ _ _ => True) ?_
    (fun token g w hL => ?_) fun _ _ _ _ => trivial)
  · unfold TurnLease.acquire
    generalize 3 = n
    induction n generalizing g w with
    | zero => trivial
    | succ n ih =>
        refine (rg_bind _ _).mpr ((rg_bind _ _).mpr (h.start.statement hK fun g w c hK => ?_))
        have hstep := fun token w' => h.acquire g w c token w' hK
        have hquiet := quiet_acquireStatement a.sessionId (w.tick c)
        generalize TurnLease.acquireStatement a.sessionId (w.tick c) = answer at hstep hquiet
        obtain ⟨token, w'⟩ := answer
        cases token with
        | some token => exact hstep token w' rfl
        | none =>
            have hdoes := h.start.frame g w w' hK
              (Framed.of_quiet ((quiet_tick w c).trans hquiet))
            refine ⟨hdoes.1, (rg_bind _ _).mpr (h.start.query hdoes.2 fun g w hK => ?_)⟩
            split
            · exact ih hK
            · trivial
  · refine (rg_ensure _ _).mpr (rg_mono (hbody g w hL) (fun _ g w _ => ?_) fun _ g w _ => ?_)
    · exact h.rg_quiet (quiet_releaseLease _ _)
    · exact h.rg_quiet (quiet_releaseLease _ _)

/-! ### Whole requests -/

theorem rg_runTurn (h : SessionOutline a C K L O N M) {payload : TurnRequest}
    (hrequest : a.request = .turn a.sessionId payload) (hK : K g w) :
    C.rg A (TurnsFlow.runTurn a.sessionId payload a.key a.correlationId a.userId)
      (fun _ _ _ => True) (fun _ _ _ => True) g w := by
  unfold TurnsFlow.runTurn
  refine (rg_bind _ _).mpr (rg_mono (h.start.quiet (quiet_getSession _ _) hK)
    (fun session g w hK => ?_) fun _ _ _ _ => trivial)
  split
  · trivial
  · exact h.rg_underLease (fun g w hL => h.rg_executeTurn hrequest hL) hK

theorem rg_resumeFlow3 (h : SessionOutline a C K L O N M)
    (hrequest : a.request = .finalize a.sessionId) {session : SessionRecord}
    (hsession : session.sessionId = a.sessionId) (hO : O g w) :
    C.rg A (Finalize.resumeFlow3 session a.key a.correlationId) (fun _ _ _ => True)
      (fun _ _ _ => True) g w := by
  have hslot : Finalize.slot a.sessionId a.key = a.slot := by rw [Attempt.slot, hrequest]
  unfold Finalize.resumeFlow3
  rw [hsession, hslot]
  refine (rg_bind _ _).mpr (rg_mono (h.rg_listTurns hO) ?_ fun _ _ _ _ => trivial)
  rintro turns g w ⟨hO, -⟩
  split
  · trivial
  · refine (rg_bind _ _).mpr (rg_mono (h.isOpen.quiet (quiet_latestSynthesis _ _) hO)
      (fun reference g w hO => ?_) fun _ _ _ _ => trivial)
    refine (rg_bind _ _).mpr (rg_mono (h.isOpen.quiet (quiet_setProcessingStage _ _) hO)
      (fun _ g w hO => ?_) fun _ _ _ _ => trivial)
    refine (rg_bind _ _).mpr (rg_mono (h.rg_runFlow3 hsession turns reference hO)
      (fun result g w hO => ?_) fun _ _ _ _ => trivial)
    refine (rg_bind _ _).mpr ((rg_ofExcept _).mpr ⟨fun canonical _ => ?_, fun _ _ => trivial⟩)
    refine (rg_bind _ _).mpr (rg_mono (h.rg_close _ (by simp) hO)
      (fun _ g w _ => ?_) fun _ _ _ _ => trivial)
    exact rg_ends _

theorem rg_resumeUnderLease (h : SessionOutline a C K L O N M)
    (hrequest : a.request = .finalize a.sessionId) (hL : L g w) :
    C.rg A (Finalize.resumeUnderLease a.sessionId a.key a.correlationId a.userId)
      (fun _ _ _ => True) (fun _ _ _ => True) g w := by
  have hslot : Finalize.slot a.sessionId a.key = a.slot := by rw [Attempt.slot, hrequest]
  have hfingerprint : Fingerprint.empty = a.fingerprint := by
    rw [Attempt.fingerprint, hrequest]
  unfold Finalize.resumeUnderLease
  rw [hslot, hfingerprint]
  refine (rg_bind _ _).mpr (rg_mono (h.rg_getSession a.userId hL) ?_ fun _ _ _ _ => trivial)
  rintro session g w ⟨hL, hread⟩
  split
  · trivial
  · next session =>
      obtain ⟨hsession, hopen⟩ := hread session rfl
      split
      · exact rg_ends _
      · trivial
      · trivial
      · next hstate =>
          refine (rg_bind _ _).mpr (rg_mono (h.isOpen.claim h.claimOpen (hopen (.inr hstate)))
            (fun claim g w hO => ?_) fun _ _ _ _ => trivial)
          split
          · exact rg_ends _
          · exact h.rg_resumeFlow3 hrequest hsession hO

theorem rg_finalize (h : SessionOutline a C K L O N M)
    (hrequest : a.request = .finalize a.sessionId) (hK : K g w) :
    C.rg A (Finalize.finalize a.sessionId a.key a.correlationId a.userId)
      (fun _ _ _ => True) (fun _ _ _ => True) g w := by
  unfold Finalize.finalize
  refine (rg_bind _ _).mpr (rg_mono (h.start.quiet (quiet_getSession _ _) hK)
    (fun session g w hK => ?_) fun _ _ _ _ => trivial)
  split
  · trivial
  · split
    · exact rg_ends _
    · trivial
    · trivial
    · exact h.rg_underLease (fun g w hL => h.rg_resumeUnderLease hrequest hL) hK

theorem rg_parkNow (h : SessionOutline a C K L O N M)
    (hrequest : a.request = .abandon a.sessionId) (hL : L g w) :
    C.rg A (Abandon.parkNow a.sessionId a.key a.correlationId a.userId)
      (fun _ _ _ => True) (fun _ _ _ => True) g w := by
  have hslot : Abandon.slot a.sessionId a.key = a.slot := by rw [Attempt.slot, hrequest]
  have hfingerprint : Fingerprint.empty = a.fingerprint := by
    rw [Attempt.fingerprint, hrequest]
  unfold Abandon.parkNow
  rw [hslot, hfingerprint]
  refine (rg_bind _ _).mpr (rg_mono (h.leased.claim h.claim hL) (fun claim g w hL => ?_)
    fun _ _ _ _ => trivial)
  split
  · trivial
  · trivial
  · trivial
  · refine (rg_bind _ _).mpr (rg_mono (h.rg_getSession a.userId hL) ?_ fun _ _ _ _ => trivial)
    rintro session g w ⟨hL, hread⟩
    split
    · trivial
    · next session =>
        obtain ⟨-, hopen⟩ := hread session rfl
        split_ifs with hstate
        · exact (rg_bind _ _).mpr (rg_mono (h.rg_release hL) (fun _ _ _ _ => trivial)
            fun _ _ _ _ => trivial)
        · have hO : O g w := hopen (by
            rw [SessionState.Open]
            tauto)
          exact (rg_bind _ _).mpr (rg_mono (h.rg_close _ (by simp) hO)
            (fun _ _ _ _ => trivial) fun _ _ _ _ => trivial)

theorem rg_abandon (h : SessionOutline a C K L O N M)
    (hrequest : a.request = .abandon a.sessionId) (hK : K g w) :
    C.rg A (postAbandon a.sessionId a.key a.correlationId a.userId)
      (fun _ _ _ => True) (fun _ _ _ => True) g w := by
  refine (rg_tryCatch _ _).mpr (rg_mono (Q := fun _ _ _ => True) (E := fun _ _ _ => True) ?_
    (fun _ _ _ _ => trivial) fun e g w _ => ?_)
  · refine (rg_bind _ _).mpr (rg_mono (h.start.quiet (quiet_getSession _ _) hK)
      (fun session g w hK => ?_) fun _ _ _ _ => trivial)
    split
    · trivial
    · exact h.rg_underLease (fun g w hL => h.rg_parkNow hrequest hL) hK
  · split <;> trivial

/-- A turn, finalize or abandon request whose outline holds keeps its contract. -/
theorem rg_program (h : SessionOutline a C K L O N M)
    (hrequest : ∀ payload, a.request ≠ .createSession payload) (hK : K g w) :
    C.rg A a.program (fun _ _ _ => True) (fun _ _ _ => True) g w := by
  unfold Attempt.program
  cases hkind : a.request with
  | createSession payload => exact absurd hkind (hrequest payload)
  | turn id payload =>
      obtain rfl : a.sessionId = id := by rw [Attempt.sessionId, hkind]
      refine (rg_bind _ _).mpr ((rg_tryCatch _ _).mpr (rg_mono (h.rg_runTurn hkind hK)
        (fun _ _ _ _ => trivial) fun e g w _ => ?_))
      split <;> trivial
  | finalize id =>
      obtain rfl : a.sessionId = id := by rw [Attempt.sessionId, hkind]
      refine (rg_bind _ _).mpr ((rg_tryCatch _ _).mpr (rg_mono (h.rg_finalize hkind hK)
        (fun _ _ _ _ => trivial) fun e g w _ => ?_))
      split <;> trivial
  | abandon id =>
      obtain rfl : a.sessionId = id := by rw [Attempt.sessionId, hkind]
      exact (rg_bind _ _).mpr (rg_mono (h.rg_abandon hkind hK) (fun _ _ _ _ => trivial)
        fun _ _ _ _ => trivial)

end SessionOutline

end StoryReview
