import StoryReview.Conduct

/-!
# Session creation under interference

Flow 1 runs without the session lease, so its outline relies only on what no
statement of the service takes back: an artifact stays under its key, and the
first turn keeps its answer. From these the response is determined.
-/
namespace StoryReview
open Program Flows RecordsStore

/-! ## What no statement takes back -/

/-- Objects only grow, and a first turn keeps its reply and its delegation. -/
structure Kept (w w' : World) : Prop where
  grows : ∀ run, (w.objects run).Grows (w'.objects run)
  firstTurn : ∀ id row, turnRow w id 1 = some row → ∃ row', turnRow w' id 1 = some row' ∧
    row'.record.facilitatorReply = row.record.facilitatorReply ∧
    row'.record.delegation = row.record.delegation

namespace Kept
variable {u v w : World}

theorem refl (w : World) : Kept w w := ⟨fun _ => .refl _, fun _ row h => ⟨row, h, rfl, rfl⟩⟩

theorem trans (h : Kept u v) (h' : Kept v w) : Kept u w := by
  refine ⟨fun run => (h.grows run).trans (h'.grows run), fun id row hrow => ?_⟩
  obtain ⟨row', hrow', hreply, hdelegation⟩ := h.firstTurn id row hrow
  obtain ⟨row'', hrow'', hreply', hdelegation'⟩ := h'.firstTurn id row' hrow'
  exact ⟨row'', hrow'', hreply'.trans hreply, hdelegation'.trans hdelegation⟩

theorem of_turns (hturns : w.turns = v.turns)
    (hgrows : ∀ run, (v.objects run).Grows (w.objects run)) : Kept v w :=
  ⟨hgrows, fun id row h => ⟨row, by rw [turnRow, hturns]; exact h, rfl, rfl⟩⟩

theorem of_framed (h : Framed v w) : Kept v w := of_turns h.turns h.grows

theorem of_sameButClaims (h : World.SameButClaims v w) : Kept v w :=
  of_turns h.turns fun _ => h.objects ▸ .refl _

theorem tick (w : World) (c : Choice) : Kept w (w.tick c) := of_framed (.of_quiet (quiet_tick w c))

end Kept

/-- The reference that a save under the type and the key answers with. -/
def World.SavedUnder (w : World) (run : RunId) (key : IdempotencyKey) (type : ArtifactType)
    (reference : ArtifactReference) : Prop :=
  ∃ r, (w.objects run).recordUnder type key = some r ∧ r.reference = reference

theorem World.SavedUnder.kept {w w' : World} {run : RunId} {key : IdempotencyKey}
    {type : ArtifactType} {reference : ArtifactReference}
    (h : w.SavedUnder run key type reference) (hkept : Kept w w') :
    w'.SavedUnder run key type reference := by
  obtain ⟨r, hr, href⟩ := h
  exact ⟨r, (hkept.grows run).recordUnder hr, href⟩

theorem World.SavedUnder.unique {w : World} {run : RunId} {key : IdempotencyKey}
    {type : ArtifactType} {reference reference' : ArtifactReference}
    (h : w.SavedUnder run key type reference) (h' : w.SavedUnder run key type reference') :
    reference = reference' := by
  obtain ⟨r, hr, rfl⟩ := h
  obtain ⟨r', hr', rfl⟩ := h'
  rw [hr] at hr'
  cases hr'
  rfl

/-- The artifacts that the key's pipeline saves. -/
structure World.SavedAll (w : World) (key : IdempotencyKey) (artifacts : OpeningArtifacts) :
    Prop where
  story : w.SavedUnder ⟨key⟩ key .story artifacts.story
  business : w.SavedUnder ⟨key⟩ key .reviewBusiness artifacts.business
  engineering : w.SavedUnder ⟨key⟩ key .reviewEngineering artifacts.engineering
  synthesis : w.SavedUnder ⟨key⟩ key .synthesis artifacts.synthesis

theorem World.SavedAll.kept {w w' : World} {key : IdempotencyKey}
    {artifacts : OpeningArtifacts} (h : w.SavedAll key artifacts) (hkept : Kept w w') :
    w'.SavedAll key artifacts :=
  ⟨h.story.kept hkept, h.business.kept hkept, h.engineering.kept hkept, h.synthesis.kept hkept⟩

/-- The first turn of the key's session has the reply and the delegation of `turn`. -/
def World.FirstTurn (w : World) (key : IdempotencyKey) (turn : TurnRecord) : Prop :=
  ∃ row, turnRow w ⟨key⟩ 1 = some row ∧ row.record.facilitatorReply = turn.facilitatorReply ∧
    row.record.delegation = turn.delegation

theorem World.FirstTurn.kept {w w' : World} {key : IdempotencyKey} {turn : TurnRecord}
    (h : w.FirstTurn key turn) (hkept : Kept w w') : w'.FirstTurn key turn := by
  obtain ⟨row, hrow, hreply, hdelegation⟩ := h
  obtain ⟨row', hrow', hreply', hdelegation'⟩ := hkept.firstTurn _ _ hrow
  exact ⟨row', hrow', hreply'.trans hreply, hdelegation'.trans hdelegation⟩

/-- The response that the pipeline builds. -/
def openingResponse (key : IdempotencyKey) (artifacts : OpeningArtifacts)
    (turn : TurnRecord) : CreateSessionResponse where
  sessionId := ⟨key⟩
  storyRunId := ⟨key⟩
  openingTurnNumber := 1
  facilitatorReply := turn.facilitatorReply.getD ""
  issues := match turn.delegation with
    | some delegation => delegation.openIssues
    | none => []
  delegation := turn.delegation
  synthesis := artifacts.synthesis
  artifactReferences :=
    [artifacts.story, artifacts.business, artifacts.engineering, artifacts.synthesis]

/-- The response tells of the first turn and the artifacts of the key. -/
def World.Created (w : World) (key : IdempotencyKey) (r : CreateSessionResponse) : Prop :=
  ∃ artifacts turn, w.SavedAll key artifacts ∧ w.FirstTurn key turn ∧
    r = openingResponse key artifacts turn

theorem World.Created.kept {w w' : World} {key : IdempotencyKey} {r : CreateSessionResponse}
    (h : w.Created key r) (hkept : Kept w w') : w'.Created key r := by
  obtain ⟨artifacts, turn, hsaved, hturn, rfl⟩ := h
  exact ⟨artifacts, turn, hsaved.kept hkept, hturn.kept hkept, rfl⟩

/-- There is only one such response. -/
theorem World.Created.unique {w : World} {key : IdempotencyKey}
    {r r' : CreateSessionResponse} (h : w.Created key r) (h' : w.Created key r') : r = r' := by
  obtain ⟨artifacts, turn, hsaved, ⟨row, hrow, hreply, hdelegation⟩, rfl⟩ := h
  obtain ⟨artifacts', turn', hsaved', ⟨row', hrow', hreply', hdelegation'⟩, rfl⟩ := h'
  rw [hrow] at hrow'
  cases hrow'
  simp only [openingResponse, ← hreply, ← hdelegation, hreply', hdelegation',
    hsaved.story.unique hsaved'.story, hsaved.business.unique hsaved'.business,
    hsaved.engineering.unique hsaved'.engineering, hsaved.synthesis.unique hsaved'.synthesis]

/-! ## Turn rows -/

theorem find?_orderedInsert {α : Type} {r : α → α → Prop} [DecidableRel r] {p : α → Bool}
    {x : α} (hx : p x = false) (xs : List α) :
    (xs.orderedInsert r x).find? p = xs.find? p := by
  induction xs with
  | nil => simp [hx]
  | cons y ys ih =>
      rw [List.orderedInsert_cons]
      split_ifs
      · rw [List.find?_cons, hx]
      · rw [List.find?_cons, List.find?_cons, ih]

theorem find?_orderedInsert_self {α : Type} {r : α → α → Prop} [DecidableRel r] {p : α → Bool}
    {x : α} (hx : p x = true) {xs : List α} (hxs : xs.find? p = none) :
    (xs.orderedInsert r x).find? p = some x := by
  induction xs with
  | nil => simp [hx]
  | cons y ys ih =>
      rw [List.find?_cons] at hxs
      split at hxs
      · cases hxs
      · next hy =>
          rw [List.orderedInsert_cons]
          split_ifs
          · rw [List.find?_cons, hx]
          · rw [List.find?_cons, hy]
            exact ih hxs

theorem insertTurn_snd (row : TurnRow) (w : World) :
    (insertTurn row w).2 = if (turnRow w row.record.sessionId row.record.turnNumber).isSome
      then w else w.setTurns row.record.sessionId ((w.turns row.record.sessionId).orderedInsert
        (fun a b => a.record.turnNumber ≤ b.record.turnNumber) row) := by
  unfold insertTurn
  dsimp only
  split_ifs <;> rfl

/-- A new row is found under its number, and hides no other. -/
theorem turnRow_insertTurn (row : TurnRow) (w : World) (id : SessionId) (n : ℕ) :
    turnRow (insertTurn row w).2 id n =
      if id = row.record.sessionId ∧ n = row.record.turnNumber ∧
        turnRow w id n = none then some row else turnRow w id n := by
  rw [insertTurn_snd]
  split_ifs with htaken h h
  · obtain ⟨rfl, rfl, hnone⟩ := h
    rw [hnone] at htaken
    cases htaken
  · rfl
  · obtain ⟨rfl, rfl, hnone⟩ := h
    rw [turnRow, World.turns_setTurns, if_pos rfl]
    exact find?_orderedInsert_self
      (p := fun r : TurnRow => decide (r.record.turnNumber = row.record.turnNumber))
      (decide_eq_true rfl) hnone
  · rw [turnRow, World.turns_setTurns]
    split_ifs with hid
    · subst hid
      have hother : (fun r : TurnRow => decide (r.record.turnNumber = n)) row = false := by
        refine decide_eq_false fun hn => h ⟨rfl, hn.symm, ?_⟩
        rw [← hn]
        exact Option.not_isSome_iff_eq_none.mp htaken
      exact find?_orderedInsert
        (r := fun a b : TurnRow => a.record.turnNumber ≤ b.record.turnNumber) hother _
    · rfl

theorem turnRow_of_inserted {row : TurnRow} {w : World} (h : (insertTurn row w).1 = true) :
    turnRow (insertTurn row w).2 row.record.sessionId row.record.turnNumber = some row := by
  have hnone : turnRow w row.record.sessionId row.record.turnNumber = none := by
    unfold insertTurn at h
    dsimp only at h
    split_ifs at h with htaken
    exact Option.not_isSome_iff_eq_none.mp htaken
  rw [turnRow_insertTurn, if_pos ⟨rfl, rfl, hnone⟩]

theorem kept_insertTurn (row : TurnRow) (w : World) : Kept w (insertTurn row w).2 := by
  refine ⟨fun run => ?_, fun id row' hrow' => ⟨row', ?_, rfl, rfl⟩⟩
  · rw [insertTurn_snd]
    split_ifs <;> exact .refl _
  · rw [turnRow_insertTurn, if_neg, hrow']
    rintro ⟨-, -, hnone⟩
    rw [hrow'] at hnone
    cases hnone

/-! ## Saves under interference -/

section Saves
variable {γ : Type} {C : Conduct γ} {K : γ → World → Prop} {A : Choice → Prop} {g : γ}
variable {w : World}

theorem Conduct.Keeps.and (h : C.Keeps K) (hkept : ∀ g w w', C.rely g w w' → Kept w w')
    {F : World → Prop} (hF : ∀ w w', Kept w w' → F w → F w') :
    C.Keeps fun g w => K g w ∧ F w := by
  refine ⟨fun g w w' hK hrely => ?_, fun g w w' hK hframed => ?_⟩
  · exact ⟨h.stable g w w' hK.1 hrely, hF w w' (hkept g w w' hrely) hK.2⟩
  · have hdoes := h.frame g w w' hK.1 hframed
    exact ⟨hdoes.1, hdoes.2, hF w w' (.of_framed hframed) hK.2⟩

/-- A single call, wherever it is served, answers as it does alone. -/
theorem Conduct.Keeps.atomicExcept (h : C.Keeps K) {α : Type}
    {f : Choice → World → Except PyException α × World} {R : α → World → Prop}
    (hm : (atomicExcept f).Moves A Framed)
    (hy : ∀ w, (atomicExcept f).Yields A R w) (hK : K g w) :
    C.rg A (atomicExcept f) (fun b g w => K g w ∧ R b w) (fun _ => K) g w := by
  refine (rg_atomicExcept f).mpr fun c v hc hv => ?_
  have hdoes := h.frame g v _ (h.stable g w v hK hv) (hm.1 c v hc)
  have hyields := ((wp_atomicExcept f).mp (hy v) c hc).2.1
  exact ⟨hdoes.1, fun b hb => ⟨hdoes.2, hyields b hb⟩, fun _ _ => hdoes.2⟩

theorem framed_callSave (request : SaveArtifactInput) (correlationId : Uuid) :
    (callSave request correlationId).Moves A Framed := by
  refine (moves_callSave request correlationId).mono fun v w h => Framed.of_doing ?_ h
  rintro v w ⟨o', hsaves, rfl⟩
  exact Framed.of_served (RunObjects.grows_of_saves hsaves)

/-- A save answers with what is under its key from then on. -/
theorem Conduct.Keeps.saveArtifact (h : C.Keeps K) (type : ArtifactType) (run : RunId)
    (content : Content) (key : IdempotencyKey) (correlationId : Uuid) (hK : K g w) :
    C.rg A (saveArtifact type run content key correlationId)
      (fun reference g w => K g w ∧ w.SavedUnder run key type reference) (fun _ => K) g w := by
  unfold Flows.saveArtifact saveArtifactInput
  split_ifs with hvalid <;> simp only [bind_eq, ofExcept_ok, ofExcept_error, ret_bind, raise_bind]
  · refine (rg_bind _ _).mpr ((rg_tryCatch _ _).mpr (rg_mono (h.atomicExcept
      (framed_callSave _ correlationId) (fun w => yields_callSave _ correlationId) hK) ?_
        fun e g w hK => ?_))
    · rintro output g w ⟨hK, r, hr, href, -⟩
      exact ⟨hK, r, hr, href.symm⟩
    · split <;> exact hK
  · exact hK

/-- The opening artifacts end up under the key. -/
theorem Conduct.Keeps.openingArtifacts (h : C.Keeps K)
    (hkept : ∀ g w w', C.rely g w w' → Kept w w') (story : StoryDetail)
    (sessionId : SessionId) (key : IdempotencyKey) (correlationId : Uuid) (hK : K g w) :
    C.rg A (openingArtifacts story ⟨key⟩ sessionId key correlationId)
      (fun artifacts g w => K g w ∧ w.SavedAll key artifacts) (fun _ => K) g w := by
  unfold Flows.openingArtifacts
  refine (rg_bind _ _).mpr (rg_mono (h.quiet (quiet_setProcessingStage _ _) hK)
    (fun _ g w hK => ?_) fun _ _ _ hK => hK)
  refine (rg_bind _ _).mpr (rg_mono (h.saveArtifact _ _ _ _ _ hK) (fun story g w hK => ?_)
    fun _ _ _ hK => hK)
  have hstory := h.and hkept fun w w' hkept (hs : w.SavedUnder ⟨key⟩ key .story story) =>
    hs.kept hkept
  refine (rg_bind _ _).mpr (rg_mono (hstory.quiet (quiet_fanOutReviewers _ _) hK)
    (fun reviews g w hK => ?_) fun _ _ _ hK => hK.1)
  refine (rg_bind _ _).mpr (rg_mono (hstory.saveArtifact _ _ _ _ _ hK)
    (fun business g w hK => ?_) fun _ _ _ hK => hK.1)
  have hbusiness := hstory.and hkept fun w w' hkept
    (hs : w.SavedUnder ⟨key⟩ key .reviewBusiness business) => hs.kept hkept
  refine (rg_bind _ _).mpr (rg_mono (hbusiness.saveArtifact _ _ _ _ _ hK)
    (fun engineering g w hK => ?_) fun _ _ _ hK => hK.1.1)
  have hengineering := hbusiness.and hkept fun w w' hkept
    (hs : w.SavedUnder ⟨key⟩ key .reviewEngineering engineering) => hs.kept hkept
  refine (rg_bind _ _).mpr (rg_mono (hengineering.quiet (quiet_setProcessingStage _ _) hK)
    (fun _ g w hK => ?_) fun _ _ _ hK => hK.1.1.1)
  refine (rg_bind _ _).mpr (rg_mono (hengineering.quiet (moves_tryCatch
    (quiet_invokeSynthesis _) fun _ => moves_raise _) hK) (fun report g w hK => ?_)
      fun _ _ _ hK => hK.1.1.1)
  refine (rg_bind _ _).mpr (rg_mono (hengineering.saveArtifact _ _ _ _ _ hK) ?_
    fun _ _ _ hK => hK.1.1.1)
  rintro synthesis g w ⟨⟨⟨⟨hK, hstory⟩, hbusiness⟩, hengineering⟩, hsynthesis⟩
  exact ⟨hK, hstory, hbusiness, hengineering, hsynthesis⟩

end Saves

/-! ## The outline of a creation -/

/-- The knowledge of a session creation: `S` at its start, `T` after its claim step, `K`
once the claim is its own or another one's in progress, `P` in the pipeline of the active
session, `O` when it has stored or found the first turn, `Z r` when it answers `r`. -/
structure CreateOutline {γ : Type} (a : Attempt) (C : Conduct γ)
    (S T K P O : γ → World → Prop) (Z : CreateSessionResponse → γ → World → Prop) :
    Prop where
  start : ∀ g w w', S g w → C.rely g w w' → S g w'
  claiming : C.Keeps T
  claimed : C.Keeps K
  pipeline : C.Keeps P
  opened : C.Keeps O
  answered : ∀ r, C.Keeps (Z r)
  frame : ∀ g w w', Framed w w' → C.guar g w w'
  kept : ∀ g w w', C.rely g w w' → Kept w w'
  claim : ∀ g w c, S g w →
    C.Does T g w (Idempotency.insertClaim a.slot a.fingerprint (w.tick c)).2 ∧
      ((Idempotency.insertClaim a.slot a.fingerprint (w.tick c)).1 = true →
        K (C.observe g w (Idempotency.insertClaim a.slot a.fingerprint (w.tick c)).2)
          (Idempotency.insertClaim a.slot a.fingerprint (w.tick c)).2)
  proceed : ∀ g w row, T g w → w.claims a.slot = some row → row.state = .inProgress → K g w
  replay : ∀ g w fingerprint r, T g w →
    w.claims a.slot = some ⟨fingerprint, .completed, some (.created r)⟩ → Z r g w
  release : ∀ g w c, K g w → C.guar g w (Idempotency.released a.slot (w.tick c))
  storyRun : ∀ g w c record, K g w → record.storyRunId = ⟨a.key⟩ → record.state = .active →
    C.Does K g w (insertStoryRun record (w.tick c)).2
  session : ∀ g w c record, K g w → record.sessionId = ⟨a.key⟩ →
    record.storyRunId = ⟨a.key⟩ → record.state = .active →
      C.Does K g w (insertSession record (w.tick c)).2 ∧
        ((insertSession record (w.tick c)).1 = true →
          P (C.observe g w (insertSession record (w.tick c)).2)
            (insertSession record (w.tick c)).2)
  existing : ∀ g w row, K g w → (w.sessions.find? fun row =>
      decide (row.record.storyRunId = ⟨a.key⟩)) = some row →
    row.record.sessionId = ⟨a.key⟩ ∧ (row.record.state = .active → P g w)
  turn : ∀ g w c correlationId output artifacts createdAt completedAt, P g w →
    w.SavedAll a.key artifacts →
      C.Does O g w (insertTurn ⟨openingRecord ⟨a.key⟩ correlationId output artifacts createdAt
        completedAt, .createSession a.key⟩ (w.tick c)).2
  complete : ∀ g w c r, O g w → w.Created a.key r →
    C.Does (Z r) g w (Idempotency.completed a.slot (.created r) (w.tick c))
  park : ∀ g w c, P g w → C.guar g w (Idempotency.released a.slot
    (sessionUpdated ⟨a.key⟩ { state := some .parked } (w.tick c)))

namespace CreateOutline
variable {γ : Type} {a : Attempt} {C : Conduct γ} {S T K P O : γ → World → Prop}
variable {Z : CreateSessionResponse → γ → World → Prop}
variable {A : Choice → Prop} {g : γ} {w : World}

theorem rg_quiet (h : CreateOutline a C S T K P O Z) {α : Type} {p : Orchestration α}
    (hp : p.Moves A Quiet) : C.rg A p (fun _ _ _ => True) (fun _ _ _ => True) g w :=
  hp.rg (J := fun _ _ => True) (fun _ _ _ _ _ => trivial)
    (fun g w w' _ hq => ⟨h.frame g w w' (Framed.of_quiet hq), trivial⟩) trivial

theorem rg_claim (h : CreateOutline a C S T K P O Z) (hS : S g w) :
    C.rg A (Idempotency.claim a.slot a.fingerprint) (fun claim g w =>
      ((∀ response, claim ≠ .replay response) → K g w) ∧
        ∀ r, claim = .replay (some (.created r)) → Z r g w) (fun _ _ _ => True) g w := by
  refine (rg_bind _ _).mpr (Conduct.rg_statement h.start hS fun g w c hS => ?_)
  obtain ⟨hdoes, hinserted⟩ := h.claim g w c hS
  refine ⟨hdoes.1, ?_⟩
  split
  · next hnew => exact ⟨fun _ => hinserted hnew, by simp⟩
  · refine (rg_bind _ _).mpr (h.claiming.query hdoes.2 fun g w hT => ?_)
    split
    · trivial
    · next row hrow =>
        split_ifs
        · trivial
        · split
          · next hstate =>
              refine ⟨fun hno => absurd rfl (hno _), fun r hr => ?_⟩
              obtain ⟨fingerprint, state, response⟩ := row
              cases hr
              cases hstate
              exact h.replay g w fingerprint r hT hrow
          · next hstate => exact ⟨fun _ => h.proceed g w row hT hrow hstate, by simp⟩

theorem rg_createStoryRunOrGet (h : CreateOutline a C S T K P O Z) {record : StoryRunRecord}
    (hid : record.storyRunId = ⟨a.key⟩) (hstate : record.state = .active) (hK : K g w) :
    C.rg A (createStoryRunOrGet record)
      (fun run g w => K g w ∧ run.storyRunId = ⟨a.key⟩) (fun _ _ _ => True) g w := by
  refine (rg_bind _ _).mpr (h.claimed.statement hK fun g w c hK => ?_)
  have hdoes := h.storyRun g w c record hK hid hstate
  refine ⟨hdoes.1, ?_⟩
  split
  · exact ⟨hdoes.2, hid⟩
  · refine (rg_bind _ _).mpr (h.claimed.query hdoes.2 fun g w hK => ?_)
    split
    · next run hrun =>
        obtain ⟨hrun, -⟩ := Option.filter_eq_some_iff.mp hrun
        have hfound := List.find?_some hrun
        exact ⟨hK, (of_decide_eq_true hfound).trans hid⟩
    · trivial

theorem rg_createSessionOrGet (h : CreateOutline a C S T K P O Z) {record : SessionRecord}
    (hid : record.sessionId = ⟨a.key⟩) (hrun : record.storyRunId = ⟨a.key⟩)
    (hstate : record.state = .active) (hK : K g w) :
    C.rg A (createSessionOrGet record)
      (fun session g w => session.sessionId = ⟨a.key⟩ ∧ K g w ∧
        (session.state = .active → P g w)) (fun _ _ _ => True) g w := by
  refine (rg_bind _ _).mpr (h.claimed.statement hK fun g w c hK => ?_)
  obtain ⟨hdoes, hinserted⟩ := h.session g w c record hK hid hrun hstate
  refine ⟨hdoes.1, ?_⟩
  split
  · next hnew => exact ⟨hid, hdoes.2, fun _ => hinserted hnew⟩
  · refine (rg_bind _ _).mpr (h.claimed.query hdoes.2 fun g w hK => ?_)
    rw [hrun]
    split
    · next row hrow =>
        obtain ⟨hsession, hactive⟩ := h.existing g w row hK hrow
        refine (rg_ofExcept _).mpr ⟨fun session hs => ?_, fun _ _ => trivial⟩
        unfold sessionFromRow at hs
        split_ifs at hs
        cases hs
        exact ⟨hsession, hK, hactive⟩
    · trivial

/-- The first turn is stored, or found. -/
theorem rg_openingTurn (h : CreateOutline a C S T K P O Z) (correlationId : Uuid)
    (output : FacilitatorTurnOutput) (artifacts : OpeningArtifacts)
    (createdAt completedAt : Time) (hP : P g w) (hsaved : w.SavedAll a.key artifacts) :
    C.rg A (createTurnOrGet (openingRecord ⟨a.key⟩ correlationId output artifacts createdAt
        completedAt) (.createSession a.key))
      (fun turn g w => (O g w ∧ w.SavedAll a.key artifacts) ∧ w.FirstTurn a.key turn)
      (fun e _ _ => ∀ error, e ≠ .apiError error) g w := by
  have hpipeline := h.pipeline.and h.kept fun w w' hkept (hs : w.SavedAll a.key artifacts) =>
    hs.kept hkept
  have hopened := h.opened.and h.kept fun w w' hkept (hs : w.SavedAll a.key artifacts) =>
    hs.kept hkept
  refine (rg_bind _ _).mpr ((rg_ofExcept _).mpr ⟨fun record hrecord => ?_, fun e he => ?_⟩)
  swap
  · unfold turnRecord at he
    split_ifs at he
    cases he
    nofun
  unfold turnRecord at hrecord
  split_ifs at hrecord
  cases hrecord
  refine (rg_bind _ _).mpr (hpipeline.statement ⟨hP, hsaved⟩ ?_)
  rintro g w c ⟨hP, hsaved⟩
  have hdoes := h.turn g w c correlationId output artifacts createdAt completedAt hP hsaved
  have hkept : Kept w (insertTurn ⟨openingRecord ⟨a.key⟩ correlationId output artifacts
      createdAt completedAt, .createSession a.key⟩ (w.tick c)).2 :=
    (Kept.tick w c).trans (kept_insertTurn _ _)
  refine ⟨hdoes.1, ?_⟩
  split
  · next hnew =>
      refine ⟨⟨hdoes.2, hsaved.kept hkept⟩, _, turnRow_of_inserted hnew, rfl, rfl⟩
  · refine (rg_bind _ _).mpr ((rg_bind _ _).mpr (hopened.query ⟨hdoes.2, hsaved.kept hkept⟩ ?_))
    rintro g w ⟨hO, hsaved⟩
    split
    · nofun
    · next row hrow =>
        refine (rg_bind _ _).mpr ((rg_ofExcept _).mpr ⟨fun record hrecord => ?_, fun e he => ?_⟩)
        · unfold turnRecord at hrecord
          split_ifs at hrecord
          cases hrecord
          exact ⟨⟨hO, hsaved⟩, row, hrow, rfl, rfl⟩
        · unfold turnRecord at he
          split_ifs at he
          cases he
          nofun

/-- The pipeline: an API error leaves it before the first turn. -/
theorem rg_initialPipeline (h : CreateOutline a C S T K P O Z) {payload : CreateSessionRequest}
    (hrequest : a.request = .createSession payload) (story : StoryDetail) (hP : P g w) :
    C.rg A (initialPipeline story ⟨a.key⟩ ⟨a.key⟩ a.key a.correlationId)
      Z (fun e g w => ∀ error, e = .apiError error → P g w) g w := by
  unfold initialPipeline
  rw [Attempt.createSlot hrequest]
  refine (rg_bind _ _).mpr (rg_mono (h.pipeline.openingArtifacts h.kept story ⟨a.key⟩ a.key
    a.correlationId hP) (fun artifacts g w hP => ?_) fun e g w hP _ _ => hP)
  have hpipeline := h.pipeline.and h.kept fun w w' hkept (hs : w.SavedAll a.key artifacts) =>
    hs.kept hkept
  refine (rg_bind _ _).mpr (rg_mono (hpipeline.quiet (quiet_setProcessingStage _ _) hP)
    (fun _ g w hP => ?_) fun e g w hP _ _ => hP.1)
  refine (rg_bind _ _).mpr (rg_mono (hpipeline.quiet (quiet_openingOutput _ _ _ _ _ _) hP)
    (fun output g w hP => ?_) fun e g w hP _ _ => hP.1)
  refine (rg_bind _ _).mpr (rg_mono (hpipeline.quiet quiet_now hP)
    (fun createdAt g w hP => ?_) fun e g w hP _ _ => hP.1)
  refine (rg_bind _ _).mpr (rg_mono (hpipeline.quiet quiet_now hP)
    (fun completedAt g w hP => ?_) fun e g w hP _ _ => hP.1)
  refine (rg_bind _ _).mpr (rg_mono (h.rg_openingTurn a.correlationId output artifacts
    createdAt completedAt hP.1 hP.2) (fun turn g w hO => ?_)
      fun e g w he error heq => absurd heq (he error))
  have hopened := (h.opened.and h.kept fun w w' hkept (hs : w.SavedAll a.key artifacts) =>
    hs.kept hkept).and h.kept fun w w' hkept (hs : w.FirstTurn a.key turn) => hs.kept hkept
  refine (rg_bind _ _).mpr (rg_mono (E := fun e _ _ => ∀ error, e ≠ .apiError error)
    (hopened.quietExecute (fun w => quiet_modifySession w fun _ => rfl) hO)
      (fun _ g w hO => ?_) fun e g w he error heq => absurd heq (he error))
  refine (rg_bind _ _).mpr ((rg_ofExcept _).mpr ⟨fun response hresponse => ?_, fun e he => ?_⟩)
  swap
  · unfold createSessionResponse at he
    split_ifs at he
    cases he
    nofun
  unfold createSessionResponse at hresponse
  split_ifs at hresponse
  cases hresponse
  have hanswer := h.opened.and h.kept fun w w' hkept
    (hs : w.Created a.key (openingResponse a.key artifacts turn)) => hs.kept hkept
  refine (rg_bind _ _).mpr (rg_mono (E := fun e _ _ => ∀ error, e ≠ .apiError error)
    (hanswer.execute (J := Z (openingResponse a.key artifacts turn))
      ⟨hO.1.1, artifacts, turn, hO.1.2, hO.2, rfl⟩ fun g w c hO => h.complete g w c _ hO.1 hO.2)
    (fun _ g w hZ => ?_) fun e g w he error heq => absurd heq (he error))
  exact (rg_bind _ _).mpr (rg_mono (E := fun e _ _ => ∀ error, e ≠ .apiError error)
    ((h.answered _).quietExecute (fun w => quiet_modifySession w fun _ => rfl) hZ)
      (fun _ _ _ hZ => hZ) fun e g w he error heq => absurd heq (he error))

theorem rg_pipelineFailed (h : CreateOutline a C S T K P O Z) {payload : CreateSessionRequest}
    (hrequest : a.request = .createSession payload) (e : PyException)
    (hP : ∀ error, e = .apiError error → P g w) :
    C.rg A (pipelineFailed ⟨a.key⟩ a.key e) Z (fun _ _ _ => True) g w := by
  unfold pipelineFailed parkFailedSession
  rw [Attempt.createSlot hrequest]
  by_cases hapi : ∃ error, e = .apiError error
  · obtain ⟨error, rfl⟩ := hapi
    refine (rg_bind _ _).mpr (rg_mono (h.pipeline.quiet (quiet_setProcessingStage _ _)
      (hP error rfl)) (fun _ g w hP => ?_) fun _ _ _ _ => trivial)
    dsimp only
    split_ifs
    · trivial
    · exact (rg_bind _ _).mpr (h.pipeline.execute (J := fun _ _ => True) hP
        fun g w c hP => ⟨h.park g w c hP, trivial⟩)
  · refine (rg_bind _ _).mpr (rg_mono (h.rg_quiet (quiet_setProcessingStage _ _))
      (fun _ g w _ => ?_) fun _ _ _ _ => trivial)
    split
    · exact absurd ⟨_, rfl⟩ hapi
    · trivial

theorem rg_runCreateSession (h : CreateOutline a C S T K P O Z) {payload : CreateSessionRequest}
    (hrequest : a.request = .createSession payload) (hS : S g w) :
    C.rg A (runCreateSession payload a.key a.correlationId a.userId) Z
      (fun _ _ _ => True) g w := by
  have hfingerprint : Fingerprint.createSession payload a.userId = a.fingerprint := by
    rw [Attempt.fingerprint, hrequest]
  unfold runCreateSession
  rw [Attempt.createSlot hrequest, hfingerprint]
  refine (rg_bind _ _).mpr (rg_mono (h.rg_claim hS) ?_ fun _ _ _ _ => trivial)
  rintro claim g w ⟨hclaimed, hreplay⟩
  split
  · next r =>
      refine (rg_ofExcept _).mpr ⟨fun response hresponse => ?_, fun _ _ => trivial⟩
      unfold createSessionResponse at hresponse
      split_ifs at hresponse
      cases hresponse
      exact hreplay r rfl
  · trivial
  · trivial
  · next hfirst hother hempty =>
      have hK : K g w := hclaimed fun response hresponse => by
        cases response with
        | none => exact hempty hresponse
        | some response => exact hother _ hresponse
      refine (rg_bind _ _).mpr (rg_mono (h.claimed.quiet (quiet_getStory _ _) hK)
        (fun story g w hK => ?_) fun _ _ _ _ => trivial)
      refine (rg_bind _ _).mpr (rg_mono (h.claimed.quiet quiet_now hK)
        (fun createdAt g w hK => ?_) fun _ _ _ _ => trivial)
      refine (rg_bind _ _).mpr (rg_mono (h.rg_createStoryRunOrGet rfl rfl hK) ?_
        fun _ _ _ _ => trivial)
      rintro run g w ⟨hK, hrun⟩
      refine (rg_bind _ _).mpr (rg_mono (h.claimed.quiet quiet_now hK)
        (fun createdAt g w hK => ?_) fun _ _ _ _ => trivial)
      refine (rg_bind _ _).mpr (rg_mono (h.rg_createSessionOrGet rfl rfl rfl hK) ?_
        fun _ _ _ _ => trivial)
      rintro session g w ⟨hid, hK, hactive⟩
      split_ifs with hstate
      · exact (rg_bind _ _).mpr (rg_mono (E := fun _ _ _ => True) (h.claimed.execute
          (J := fun _ _ => True) hK fun g w c hK => ⟨h.release g w c hK, trivial⟩)
            (fun _ _ _ _ => trivial) fun _ _ _ _ => trivial)
      · rw [not_not] at hstate
        rw [hrun, hid]
        refine (rg_tryCatch _ _).mpr (rg_mono (h.rg_initialPipeline hrequest story
          (hactive hstate)) (fun _ _ _ h => h) fun e g w hP => ?_)
        exact h.rg_pipelineFailed hrequest e hP

/-- A creation whose outline holds keeps its contract, and establishes its answer. -/
theorem rg_program (h : CreateOutline a C S T K P O Z) {payload : CreateSessionRequest}
    (hrequest : a.request = .createSession payload) (hS : S g w) :
    C.rg A a.program (fun response g w => ∀ r, response = .createSession r → Z r g w)
      (fun _ _ _ => True) g w := by
  unfold Attempt.program
  rw [hrequest]
  refine (rg_bind _ _).mpr ((rg_tryCatch _ _).mpr (rg_mono (h.rg_runCreateSession hrequest hS)
    (fun r g w hr => ?_) fun e g w _ => ?_))
  · rintro _ ⟨⟩
    exact hr
  · split <;> trivial

end CreateOutline

end StoryReview
