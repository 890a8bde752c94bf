import StoryReview.Milestones
import StoryReview.Resumption

/-!
# Finalizations after a failed one

A finalization that fails for good puts the session back to active, but what it has written
stays: its turn, its review and the reports it got to claim. The next finalization stores a
turn of its own, and from that step on the stores decide whether the session completes.
-/
namespace StoryReview
open Program RecordsStore Finalization

/-- More turns of the session are stored than in `w`. -/
def World.Grown (w : World) (id : SessionId) (t : World) : Prop :=
  (w.turns id).length < (t.turns id).length

/-- The synthesis that flow 3 is given for a new turn: the one that the turn made, or else
the latest one of the run before it. -/
def World.givenSynthesis (w : World) (run : RunId) (turn : TurnRecord) :
    Option ArtifactReference :=
  (turn.producedArtifacts.find? fun r => decide (r.type = .synthesis)).or (w.latestSynthesis run)

/-- Flow 3 gets through for a turn that was new in `w` and is stored in `v`. -/
def World.FinalizesWith (w v : World) (s : SessionRecord) (turn : TurnRecord)
    (key : IdempotencyKey) : Prop :=
  ∃ reference, w.givenSynthesis s.storyRunId turn = some reference ∧
    v.Finalizable s (v.history s.sessionId) reference key

/-- What is left of a request once its finalizing turn is stored completes the session
exactly if flow 3 gets through. -/
def Decides {α : Type} (w : World) (s : SessionRecord) (key : IdempotencyKey)
    (q : Orchestration α) (v : World) : Prop :=
  Inv v → ∀ turn, v.history s.sessionId = w.history s.sessionId ++ [turn] →
    turn.outcome = .finalize →
      Concludes (fun _ t => t.Completed s.sessionId ↔ w.FinalizesWith v s turn key)
        (fun _ t => t.Completed s.sessionId ↔ w.FinalizesWith v s turn key) q v

section
variable {α β : Type} {w t u v : World} {s session : SessionRecord} {id : SessionId}
variable {key : IdempotencyKey} {turn : TurnRecord}

theorem World.not_grown (h : t.turns = w.turns) : ¬ w.Grown id t := by
  unfold World.Grown
  rw [h]
  exact Nat.lt_irrefl _

theorem World.grown_iff : w.Grown id t ↔ (w.history id).length < (t.history id).length := by
  rw [World.Grown, World.history, World.history, List.length_map, List.length_map]

theorem World.Grown.of_quiet (h : Quiet t u) (hu : w.Grown id u) : w.Grown id t := by
  unfold World.Grown at hu ⊢
  rw [h.turns] at hu
  exact hu

theorem World.FinalizesWith.core :
    w.FinalizesWith v s.core turn key ↔ w.FinalizesWith v s turn key := by
  constructor
  · rintro ⟨reference, hgiven, hreview, hunsaved, hunclaimed⟩
    exact ⟨reference, hgiven, hreview, hunsaved, hunclaimed⟩
  · rintro ⟨reference, hgiven, hreview, hunsaved, hunclaimed⟩
    exact ⟨reference, hgiven, hreview, hunsaved, hunclaimed⟩

theorem Decides.core {q : Orchestration α} (h : Decides w s key q v) :
    Decides w s.core key q v := by
  intro hv turn hturn hfinal
  rw [World.FinalizesWith.core]
  exact h hv turn hturn hfinal

/-! ## What surrounds the turn -/

theorem Decides.map {q : Orchestration α} (h : Decides w s key q v) (g : α → β) :
    Decides w s key (q.bind fun a => ret (g a)) v :=
  fun hv turn hturn hfinal => Concludes.bind (h hv turn hturn hfinal) fun _ _ hdone => hdone

theorem Decides.rethrow {q : Orchestration α} (h : Decides w s key q v)
    {handler : PyException → Orchestration α} (hraises : ∀ e, ∃ e', handler e = raise e') :
    Decides w s key (q.tryCatch handler) v := by
  refine fun hv turn hturn hfinal => Concludes.tryCatch (h hv turn hturn hfinal)
    fun e _ hdone => ?_
  obtain ⟨e', he⟩ := hraises e
  rw [he]
  exact hdone

theorem Decides.released {q : Orchestration α} (h : Decides w s key q v) (token : Uuid) :
    Decides w s key (ensure q (TurnsFlow.releaseLease s.sessionId token)) v :=
  fun hv turn hturn hfinal => concludes_ensure (h hv turn hturn hfinal) token

/-! ## Up to the turn -/

variable {a : Attempt} {A : Choice → Prop} {K : Orchestration β → World → Prop}

theorem passes_quiet_bind {p : Orchestration α} {g : α → Orchestration β}
    {R : α → World → Prop} (hmoves : p.Moves A Quiet) (hyields : p.Yields A R t)
    (hturns : t.turns = w.turns)
    (hg : ∀ b u, R b u → Quiet t u → (g b).Passes A (w.Grown id) K u) :
    (p.bind g).Passes A (w.Grown id) K t :=
  passes_bind_of_wp (hmoves.wp_of_yields (Q := fun b u => R b u ∧ Quiet t u)
    (E := fun _ _ => True) (Quiet.refl t) hyields
    (fun _ hq => World.not_grown (hq.turns.trans hturns)) (fun _ _ hq hb => ⟨hb, hq⟩)
    fun _ _ _ => trivial) fun b u h => hg b u h.1 h.2

/-- A turn with the next number is inserted, and this is where the session grows. -/
theorem passes_createTurnOrGet {record : TurnRecord} {producer : Producer}
    {g : TurnRecord → Orchestration β} (ht : Inv t) (hturns : t.turns = w.turns)
    (hid : record.sessionId = id) (hnumber : record.turnNumber = (w.turns id).length + 1)
    (hg : ∀ u, Quiet t u → K (g record) (u.setTurns id (u.turns id ++ [⟨record, producer⟩]))) :
    ((createTurnOrGet record producer).bind g).Passes A (w.Grown id) K t := by
  unfold createTurnOrGet turnRecord
  split_ifs
  · simp only [bind_eq, ofExcept_ok, ret_bind, pure_eq]
    intro c _
    have hq := quiet_tick t c
    have hnumber' : record.turnNumber = ((t.tick c).turns id).length + 1 := by
      rw [hq.turns, hturns]
      exact hnumber
    have hinsert : insertTurn ⟨record, producer⟩ (t.tick c) = (true, (t.tick c).setTurns id
        ((t.tick c).turns id ++ [⟨record, producer⟩])) :=
      (ht.quiet hq).insertTurn hid hnumber'
    have hgrown : w.Grown id ((t.tick c).setTurns id
        ((t.tick c).turns id ++ [⟨record, producer⟩])) := by
      unfold World.Grown
      rw [World.turns_setTurns, if_pos rfl, List.length_append, hq.turns, hturns]
      exact Nat.lt_succ_self _
    dsimp only
    rw [hinsert]
    exact ⟨fun _ => hg _ hq, fun hnot => absurd hgrown hnot⟩
  · trivial

end
section Turns
variable {a : Attempt} {w t v : World} {s session : SessionRecord}
variable {turn : TurnRecord}

/-! ## From the turn on -/

theorem World.history_insert (hturns : t.turns = w.turns) (id : SessionId) (row : TurnRow) :
    (t.setTurns id (t.turns id ++ [row])).history id = w.history id ++ [row.record] := by
  rw [World.history_setTurns, if_pos rfl, hturns, List.map_append]
  rfl

/-- Flow 3 for the last turn of the history. -/
theorem concludes_finalizing (reference : ArtifactReference) (h : Inv v)
    (hs : v.core session.sessionId = some s)
    (hopen : s.state.Open) (hformats : session.requestedFormats ≠ [])
    (hnodup : session.requestedFormats.Nodup)
    (hlast : (v.history session.sessionId).getLast? = some turn) (hfinal : turn.outcome = .finalize)
    (hnumber : 2 ≤ turn.turnNumber) (count : Option ℕ) (key : IdempotencyKey)
    (correlationId : Uuid) :
    Concludes (fun _ t => t.Completed session.sessionId ↔
        v.Finalizable session (v.history session.sessionId) reference key)
      (fun _ t => t.Completed session.sessionId ↔
        v.Finalizable session (v.history session.sessionId) reference key)
      ((setProcessingStage session.sessionId (some .finalizing)).bind fun _ =>
        TurnsFlow.finalizeAndRespond session turn (v.history session.sessionId) reference count
          key correlationId) v := by
  refine Concludes.bind (R := fun _ u => Quiet v u) ?_ ?_
  · refine concludes_execute fun u hu => hu.trans ?_
    exact quiet_modifySession _ fun _ => rfl
  rintro - u hu
  have hlast' : ∃ t, (u.history session.sessionId).getLast? = some t ∧ t.outcome = .finalize := by
    rw [World.history, hu.turns]
    exact ⟨turn, hlast, hfinal⟩
  have hresponds : Concludes (fun _ t => t.Completed session.sessionId ↔
        u.Finalizable session (v.history session.sessionId) reference key ∧ 2 ≤ turn.turnNumber)
      (fun _ t => t.Completed session.sessionId ↔
        u.Finalizable session (v.history session.sessionId) reference key ∧ 2 ≤ turn.turnNumber)
      (TurnsFlow.finalizeAndRespond session turn (v.history session.sessionId) reference count
        key correlationId) u :=
    concludes_finalizeAndRespond (h.quiet hu) rfl ((hu.core _).trans hs) hopen hlast' hformats
      hnodup turn count key correlationId
  simp only [World.Finalizable.congr hu.objects, hnumber, and_true] at hresponds
  exact hresponds

/-- The rest of an acceptance. -/
theorem decides_accepted (hs : v.core session.sessionId = some session.core)
    (hactive : session.state = .active) (hvalid : session.Valid) (hobjects : v.objects = w.objects)
    (hnumber : 2 ≤ turn.turnNumber) (hproduced : turn.producedArtifacts = [])
    (key : IdempotencyKey) (correlationId : Uuid)
    (hlast : v.history session.sessionId = w.history session.sessionId ++ [turn]) :
    Decides w session key (do
      let turns ← listTurns session.sessionId
      let synthesisReference ← TurnsFlow.latestSynthesis session correlationId
      setProcessingStage session.sessionId (some .finalizing)
      TurnsFlow.finalizeAndRespond session turn turns synthesisReference none key
        correlationId) v := by
  intro hv turn' hturn hfinal
  obtain rfl : turn = turn' := by
    rw [hlast, List.append_cancel_left_eq, List.cons.injEq] at hturn
    exact hturn.1
  have hopen : session.core.state.Open := .inl hactive
  have hgiven : w.givenSynthesis session.storyRunId turn = w.latestSynthesis session.storyRunId := by
    rw [World.givenSynthesis, hproduced]
    rfl
  refine Concludes.bind ((concludes_listTurns hv).mono (fun _ _ h => h) fun _ _ h => h.elim) ?_
  rintro turns t ⟨rfl, hq⟩
  have hlatest : t.latestSynthesis session.storyRunId =
      w.givenSynthesis session.storyRunId turn := by
    rw [hgiven, World.latestSynthesis, World.latestSynthesis, hq.objects, hobjects]
  refine Concludes.bind ((concludes_latestSynthesis session correlationId).mono
    (fun _ _ h => h) fun e u hnone => ?_) ?_
  · refine iff_of_false (World.not_completed ((hnone.2.core _).trans ((hq.core _).trans hs))
      hopen) ?_
    rintro ⟨reference, hreference, -⟩
    exact absurd (hnone.1.symm.trans (hlatest.trans hreference)) (Option.some_ne_none _).symm
  rintro reference u ⟨hreference, hu⟩
  have hqu := hq.trans hu
  have hhistory : u.history session.sessionId = v.history session.sessionId := by
    rw [World.history, hqu.turns, World.history]
  have hrest := concludes_finalizing reference (hv.quiet hqu)
    ((hqu.core _).trans hs) hopen hvalid.1 hvalid.2.1
    (by rw [hhistory, hlast, List.getLast?_concat]) hfinal hnumber none key correlationId
  rw [hhistory, World.Finalizable.congr hqu.objects] at hrest
  have hiff : v.Finalizable session (v.history session.sessionId) reference key ↔
      w.FinalizesWith v session turn key := by
    refine ⟨fun hfinalizable => ⟨reference, hlatest.symm.trans hreference, hfinalizable⟩, ?_⟩
    rintro ⟨reference', hreference', hfinalizable⟩
    rw [← hlatest, hreference, Option.some.injEq] at hreference'
    exact hreference' ▸ hfinalizable
  exact hrest.mono (fun _ _ hdone => hdone.trans hiff) fun _ _ hdone => hdone.trans hiff

theorem passes_acceptTurn (h : Inv w) (hstart : Started a w t)
    (hs : w.core session.sessionId = some session.core) (hactive : session.state = .active)
    (hvalid : session.Valid) (hne : w.history session.sessionId ≠ []) {n : ℕ}
    (hnumber : n = (w.turns session.sessionId).length + 1) :
    (TurnsFlow.acceptTurn session n a.key a.correlationId).Passes a.Admits
      (w.Grown session.sessionId) (Decides w session a.key) t := by
  unfold TurnsFlow.acceptTurn
  refine passes_quiet_bind quiet_now (yields_any _ _) hstart.turns fun createdAt t₁ _ hq₁ => ?_
  have hstart₁ := hstart.quiet hq₁
  refine passes_quiet_bind quiet_now (yields_any _ _) hstart₁.turns fun completedAt t₂ _ hq₂ => ?_
  have hstart₂ := hstart₁.quiet hq₂
  refine passes_createTurnOrGet (h.evolves hstart₂.evolves) hstart₂.turns rfl hnumber
    fun u hq => ?_
  have hturns := hq.turns.trans hstart₂.turns
  have hlength : 2 ≤ n := by
    have hpos := List.length_pos_iff.mpr hne
    rw [World.history, List.length_map] at hpos
    omega
  refine decides_accepted ?_ hactive hvalid ?_ hlength rfl a.key a.correlationId
    (World.history_insert hturns _ _)
  · exact (hq.core _).trans (hstart₂.core ▸ hs)
  · exact hq.objects.trans hstart₂.objects

end Turns
section Message
variable {a : Attempt} {w t v : World} {s session : SessionRecord} {id : SessionId}
variable {turn : TurnRecord} {payload : TurnRequest}

/-- What a draft says about the synthesis that its turn hands to flow 3. -/
def TurnsFlow.TurnDraft.Hands (draft : TurnsFlow.TurnDraft) (w : World) (run : RunId) : Prop :=
  ((draft.newReferences ++ if draft.produced then [draft.synthesisReference] else []).find?
    fun r => decide (r.type = .synthesis)).or (w.latestSynthesis run) =
      some draft.synthesisReference

theorem yields_draftTurn_hands {A : Choice → Prop} (h : Inv w) (session : SessionRecord)
    (message : Option Text) (turns : List TurnRecord) (turnNumber facilitatorTurn : ℕ)
    (key : IdempotencyKey) (correlationId : Uuid) :
    (TurnsFlow.draftTurn session message turns turnNumber facilitatorTurn key
      correlationId).Yields A (fun draft _ => draft.Hands w session.storyRunId) w := by
  refine Yields.bind (Moves.yields (quiet_setProcessingStage _ _) (Quiet.refl w)
    (yields_any _ _)) fun _ t₁ ht₁ => ?_
  have hinputs : (Lineage.assembleInputs session correlationId).Yields A
      (fun b _ => b.2 = (w.objects session.storyRunId).listing 500 0) t₁ := by
    refine Yields.bind (Moves.yields (quiet_getStory _ _) ht₁.2 (yields_any _ _))
      fun story t ht => ?_
    refine Yields.bind (yields_listRunArtifacts _ _) ?_
    rintro references t' rfl
    simp only [pure_eq, yields_ret, ht.2.objects]
  refine Yields.bind (Moves.yields (quiet_assembleInputs _ _) ht₁.2 hinputs) ?_
  rintro ⟨story, references⟩ t₂ ⟨rfl, ht₂⟩
  refine Yields.bind (yields_ofExcept (R := fun b t => w.latestSynthesis session.storyRunId =
    some b ∧ t₂ = t) fun reference hlatest => ⟨Lineage.latest_eq_ok hlatest, rfl⟩) ?_
  rintro reference _ ⟨hlatest, rfl⟩
  refine Yields.bind (Moves.yields (quiet_synthesisReport _ _) ht₂ (yields_any _ _))
    fun report t₃ ht₃ => ?_
  refine Yields.bind (yields_ofExcept (R := fun _ t => t₃ = t) fun _ _ => rfl) ?_
  rintro evidence _ rfl
  refine Yields.bind (Moves.yields (quiet_invokeFirstFacilitator _ _ _ _ _ _ _ _ _) ht₃.2
    (yields_any _ _)) fun first t₄ ht₄ => ?_
  refine Yields.bind (Moves.yields (quiet_setProcessingStage _ _) ht₄.2 (yields_any _ _))
    fun _ t₅ ht₅ => ?_
  refine Yields.bind (Moves.yields (moves_executeDelegation _ _ _ _ _ _)
    (Doing.quiet ht₅.2) (yields_executeDelegation (h.quiet ht₅.2) _ _ _ _ _ _)) ?_
  rintro refs t₆ ⟨hrefs, ht₆⟩
  have hreviews : refs.find? (fun r => decide (r.type = .synthesis)) = none := by
    refine List.find?_eq_none.mpr fun r hr => ?_
    obtain ⟨p, hp⟩ := types_of_reviews hrefs r hr
    rw [hp]
    cases p <;> decide
  refine Yields.bind (Moves.yields (moves_doing (quiet_setProcessingStage _ _)) ht₆
    (yields_any _ _)) fun _ t₇ ht₇ => ?_
  refine Yields.bind (Moves.yields (moves_maybeSynthesize _ _ _ _ _ _) ht₇.2
    (yields_maybeSynthesize (h.drafting ht₇.2) _ _ _ _ _ _)) ?_
  rintro ⟨newReference, newReport⟩ t₈ ⟨hsynthesis, -⟩
  cases newReport with
  | none =>
      obtain ⟨rfl, rfl, -⟩ := hsynthesis
      exact hlatest
  | some report' =>
      have htype : newReference.type = .synthesis := hsynthesis.1.1
      refine Yields.bind (yields_any _ _) fun _ _ _ => Yields.bind (yields_any _ _)
        fun _ _ _ => Yields.bind (yields_any _ _) fun summary _ _ => ?_
      simp only [pure_eq, yields_ret, TurnsFlow.TurnDraft.Hands]
      simp [List.find?_append, hreviews, htype]

/-- The rest of a message turn that passes the gate. -/
theorem decides_gatePassed (hs : v.core session.sessionId = some session.core)
    (hactive : session.state = .active) (hvalid : session.Valid) (hnumber : 2 ≤ turn.turnNumber)
    {reference : ArtifactReference}
    (hgiven : w.givenSynthesis session.storyRunId turn = some reference) {count : ℕ}
    (hcount : count ≤ 10) (key : IdempotencyKey) (correlationId : Uuid)
    (hlast : v.history session.sessionId = w.history session.sessionId ++ [turn]) :
    Decides w session key (do
      updateSession session.sessionId { facilitatorTurnCount := some count }
      let turns ← listTurns session.sessionId
      setProcessingStage session.sessionId (some .finalizing)
      TurnsFlow.finalizeAndRespond session turn turns reference (some count) key
        correlationId) v := by
  intro hv turn' hturn hfinal
  obtain rfl : turn = turn' := by
    rw [hlast, List.append_cancel_left_eq, List.cons.injEq] at hturn
    exact hturn.1
  set update : SessionUpdate := { facilitatorTurnCount := some count } with hupdate
  refine Concludes.bind (R := fun _ t => ∃ x, Quiet v x ∧
    t = sessionUpdated session.sessionId update x)
    (concludes_execute fun x hx => ⟨x, hx, rfl⟩) ?_
  rintro - t ⟨x, hx, rfl⟩
  have hsx := (hx.core session.sessionId).trans hs
  have hinv : Inv (sessionUpdated session.sessionId update x) := by
    refine (hv.quiet hx).update hsx (Commit.valid_of_open (hv.valid _ _ hs) rfl rfl ?_ ?_) ?_ ?_
    · intro n hn
      exact Option.mem_some.mp hn ▸ hcount
    · exact fun heq => absurd (hactive.symm.trans heq) (by decide)
    · exact fun heq => absurd (hactive.symm.trans heq) (by decide)
    · exact fun heq => absurd (hactive.symm.trans heq) (by decide)
  have hcore : (sessionUpdated session.sessionId update x).core session.sessionId =
      some (update.apply 0 session.core) := by
    rw [World.core_sessionUpdated, if_pos rfl, hsx, Option.map_some]
  have hobjects : (sessionUpdated session.sessionId update x).objects = v.objects :=
    (World.objects_sessionUpdated _ _ _).trans hx.objects
  have hhistory : (sessionUpdated session.sessionId update x).history session.sessionId =
      v.history session.sessionId := by
    rw [World.history, World.turns_sessionUpdated, hx.turns, World.history]
  refine Concludes.bind ((concludes_listTurns hinv).mono (fun _ _ h => h)
    fun _ _ h => h.elim) ?_
  rintro turns u ⟨rfl, hu⟩
  have hhistoryu : u.history session.sessionId =
      (sessionUpdated session.sessionId update x).history session.sessionId := by
    rw [World.history, hu.turns, World.history]
  have hrest := concludes_finalizing reference (hinv.quiet hu)
    ((hu.core _).trans hcore) (.inl hactive) hvalid.1 hvalid.2.1
    (by rw [hhistoryu, hhistory, hlast, List.getLast?_concat]) hfinal hnumber (some count) key
    correlationId
  rw [World.Finalizable.congr (hu.objects.trans hobjects), hhistoryu, hhistory] at hrest
  have hiff : v.Finalizable session (v.history session.sessionId) reference key ↔
      w.FinalizesWith v session turn key := by
    refine ⟨fun hfinalizable => ⟨reference, hgiven, hfinalizable⟩, ?_⟩
    rintro ⟨reference', hreference', hfinalizable⟩
    rw [hgiven, Option.some.injEq] at hreference'
    exact hreference' ▸ hfinalizable
  rw [hhistory]
  exact hrest.mono (fun _ _ hdone => hdone.trans hiff) fun _ _ hdone => hdone.trans hiff

end Message
section Request
variable {a : Attempt} {w t v : World} {s session : SessionRecord} {id : SessionId}
variable {payload : TurnRequest}

theorem passes_commitTurn (ht : Inv t) (hturns : t.turns = w.turns)
    (hs : t.core session.sessionId = some session.core) (hactive : session.state = .active)
    (hvalid : session.Valid) (hne : w.history session.sessionId ≠ []) {n count : ℕ}
    (hnumber : n = (w.turns session.sessionId).length + 1) (hcount : count ≤ 10)
    (message : Option Text) {draft : TurnsFlow.TurnDraft}
    (hhands : draft.Hands w session.storyRunId) :
    (TurnsFlow.commitTurn session message n count draft a.key a.correlationId).Passes a.Admits
      (w.Grown session.sessionId) (Decides w session a.key) t := by
  unfold TurnsFlow.commitTurn
  refine passes_quiet_bind quiet_now (yields_any _ _) hturns fun createdAt t₁ _ hq₁ => ?_
  refine passes_quiet_bind quiet_now (yields_any _ _) (hq₁.turns.trans hturns)
    fun completedAt t₂ _ hq₂ => ?_
  have hq := hq₁.trans hq₂
  refine passes_createTurnOrGet (ht.quiet hq) (hq.turns.trans hturns) rfl hnumber fun u hu => ?_
  have hlength : 2 ≤ n := by
    have hpos := List.length_pos_iff.mpr hne
    rw [World.history, List.length_map] at hpos
    omega
  have hlast := World.history_insert ((hq.trans hu).turns.trans hturns) session.sessionId
    ⟨TurnsFlow.messageRecord session.sessionId n a.correlationId message draft
      (evaluateGate count draft.output.delegation) createdAt completedAt, .turn a.key⟩
  split_ifs with hgate
  · refine decides_gatePassed ?_ hactive hvalid ?_ ?_ hcount a.key a.correlationId hlast
    · exact ((hq.trans hu).core _).trans hs
    · exact hlength
    · exact hhands
  · intro _ turn hturn hfinal
    rw [hlast, List.append_cancel_left_eq, List.cons.injEq] at hturn
    exact absurd ((congrArg TurnRecord.outcome hturn.1).trans hfinal) hgate

theorem passes_messageTurn (h : Inv w) (hstart : Started a w t)
    (hs : w.core session.sessionId = some session.core) (hactive : session.state = .active)
    (hvalid : session.Valid) (hne : w.history session.sessionId ≠ []) (message : Option Text)
    (turns : List TurnRecord) {n : ℕ} (hnumber : n = (w.turns session.sessionId).length + 1) :
    (TurnsFlow.messageTurn session message turns n a.key a.correlationId).Passes a.Admits
      (w.Grown session.sessionId) (Decides w session a.key) t := by
  unfold TurnsFlow.messageTurn
  dsimp only
  split_ifs with hcount
  · trivial
  · have ht := h.evolves hstart.evolves
    have hdraft := (moves_draftTurn session message turns n (session.facilitatorTurnCount + 1)
      a.key a.correlationId).wp_of_yields (A := a.Admits)
      (I := fun u => ¬ w.Grown session.sessionId u)
      (Q := fun draft u => draft.Hands w session.storyRunId ∧
        Drafting a.key session.storyRunId t u) (E := fun _ _ => True) .refl
      (yields_draftTurn_hands ht session message turns n _ a.key a.correlationId)
      (fun _ hu => World.not_grown (hu.framed.turns.trans hstart.turns))
      (fun draft _ hu hhands => ⟨?_, hu⟩) fun _ _ _ => trivial
    · refine passes_bind_of_wp hdraft fun draft u hu => ?_
      have hframe := hu.2.framed
      exact passes_commitTurn (ht.drafting hu.2) (hframe.turns.trans hstart.turns)
        (hframe.core ▸ hstart.core ▸ hs) hactive hvalid hne hnumber (not_lt.mp hcount) message hu.1
    · rw [TurnsFlow.TurnDraft.Hands, World.latestSynthesis, ← hstart.objects]
      exact hhands

theorem passes_activeTurn (h : Inv w) (hstart : Started a w t)
    (hs : w.core session.sessionId = some session.core) (hactive : session.state = .active)
    (hvalid : session.Valid) (hne : w.history session.sessionId ≠ []) :
    (TurnsFlow.activeTurn session payload a.key a.correlationId).Passes a.Admits
      (w.Grown session.sessionId) (Decides w session a.key) t := by
  unfold TurnsFlow.activeTurn
  refine passes_quiet_bind (quiet_listTurns _) (yields_listTurns _) hstart.turns ?_
  rintro _ u rfl hq
  have hstart' := hstart.quiet hq
  have hnumber : TurnsFlow.nextTurnNumber (t.history session.sessionId) =
      (w.turns session.sessionId).length + 1 := by
    rw [hstart.history]
    exact h.nextTurnNumber
  split_ifs
  · exact passes_acceptTurn h hstart' hs hactive hvalid hne hnumber
  · exact passes_messageTurn h hstart' hs hactive hvalid hne _ _ hnumber

end Request
/-! ## The whole request -/

def SameTurns (w w' : World) : Prop := w'.turns = w.turns

instance : IsTrans World SameTurns := ⟨fun _ _ _ h h' => Eq.trans h' h⟩

section Request
variable {a : Attempt} {w t v : World} {s : SessionRecord} {payload : TurnRequest}

theorem passes_liveTurn (h : Inv w) (hstart : Started a w t)
    (hs : w.core a.sessionId = some s) (hactive : s.state = .active)
    (hne : w.history a.sessionId ≠ []) (userId : UserId) (outcome : Idempotency.ClaimOutcome) :
    (TurnsFlow.liveTurn a.sessionId payload a.key a.correlationId userId outcome).Passes
      a.Admits (w.Grown a.sessionId) (Decides w s a.key) t := by
  refine passes_quiet_bind (quiet_getSession _ _) (yields_getSession _ _) hstart.turns
    fun session u hsession hq => ?_
  cases session with
  | none => trivial
  | some session =>
      obtain ⟨hcore, -, hvalid⟩ := hsession session rfl
      rw [hstart.core, hs, Option.some.injEq] at hcore
      subst hcore
      have hid : session.sessionId = a.sessionId :=
        show session.core.sessionId = _ from World.sessionId_of_core hs
      have hstate : session.state = .active := hactive
      dsimp only
      rw [hstate, ← hid]
      exact (passes_activeTurn h (hstart.quiet hq) (hid ▸ hs) hstate hvalid (hid ▸ hne)).mono
        fun _ _ hdecides => hdecides.core

theorem passes_executeTurn (h : Inv w) (hq : Quiet w t)
    (hrequest : a.request = .turn a.sessionId payload) (hs : w.core a.sessionId = some s)
    (hactive : s.state = .active) (hne : w.history a.sessionId ≠ []) (userId : UserId) :
    (TurnsFlow.executeTurn a.sessionId payload a.key a.correlationId userId).Passes a.Admits
      (w.Grown a.sessionId) (Decides w s a.key) t := by
  have hbody : Fingerprint.turn payload = a.fingerprint := by
    rw [Attempt.fingerprint, hrequest]
  have hclaim := (moves_claim (fun _ _ hsame => hsame.turns) (fun _ _ hsame => hsame.turns) a.slot
    a.fingerprint).wp_frame (show SameTurns w t from hq.turns) (safe_claim (a := a) hq)
  rw [← Attempt.turnSlot hrequest, ← hbody] at hclaim
  refine passes_bind_of_wp (wp_mono hclaim (fun _ ht => World.not_grown ht.2) (fun _ _ ht => ht)
    fun _ _ ht => ht) ?_
  rintro outcome u ⟨⟨-, htaken⟩, hturns⟩
  cases htaken with
  | claimed _ hstart => exact passes_liveTurn h hstart hs hactive hne userId _
  | inProgress _ _ _ hstart => exact passes_liveTurn h hstart hs hactive hne userId _
  | replay =>
      exact Moves.passes (quiet_responseFromCanonical _) (fun _ _ => World.Grown.of_quiet)
        (World.not_grown hturns)

theorem passes_program (h : Inv w) (hrequest : a.request = .turn a.sessionId payload)
    (hs : w.core a.sessionId = some s) (hactive : s.state = .active)
    (hne : w.history a.sessionId ≠ []) :
    a.program.Passes a.Admits (w.Grown a.sessionId) (Decides w s a.key) w := by
  have hid : s.sessionId = a.sessionId := World.sessionId_of_core hs
  have hfirst : ¬ w.Grown a.sessionId w := World.not_grown rfl
  have hrun : (TurnsFlow.runTurn a.sessionId payload a.key a.correlationId a.userId).Passes
      a.Admits (w.Grown a.sessionId) (Decides w s a.key) w := by
    refine passes_quiet_bind (quiet_getSession _ _) (yields_any _ _) rfl fun session t _ hq => ?_
    cases session with
    | none => trivial
    | some session =>
        refine passes_quiet_bind (quiet_acquire _) (yields_any _ _) hq.turns
          fun token u _ hu => ?_
        have hqu := hq.trans hu
        refine Passes.ensure (passes_executeTurn h hqu hrequest hs hactive hne a.userId)
          (World.not_grown hqu.turns) (fun _ _ hdecides => ?_) (quiet_releaseLease _ _)
          fun _ _ => World.Grown.of_quiet
        rw [← hid]
        exact hdecides.released token
  have hpost : (postTurn a.sessionId payload a.key a.correlationId a.userId).Passes a.Admits
      (w.Grown a.sessionId) (Decides w s a.key) w := by
    refine Passes.tryCatch hrun hfirst (fun _ _ hdecides => ?_) fun e _ _ => ?_
    · exact hdecides.rethrow fun e => by cases e <;> exact ⟨_, rfl⟩
    · cases e <;> trivial
  unfold Attempt.program
  rw [hrequest]
  exact Passes.bind hpost hfirst (fun _ _ hdecides => hdecides.map _) fun _ _ _ => trivial

end Request
/-- A later finalization of an active session one of whose finalizations did not get through:
from the moment its turn is stored it completes the session, with every requested format,
exactly if no format is claimed by a report of an earlier review, no review is saved under
its key and a final review can be built. -/
theorem later_finalization_completes_iff {w : World} (h : Reachable w) {id : SessionId}
    {row : SessionRow} (hrow : w.session id = some row) (hactive : row.record.state = .active)
    (hfailed : ∃ earlier ∈ w.history id, earlier.outcome = .finalize) {a : Attempt}
    {payload : TurnRequest} (hrequest : a.request = .turn id payload)
    (hsurvives : a.crashAfter = none) (hfaultFree : ∀ n, (a.choices n).FaultFree) {n : ℕ}
    {turn : TurnRecord} (hbefore : ∀ m ≤ n, (a.afterSteps m w).history id = w.history id)
    (hstored : (a.afterSteps (n + 1) w).history id = w.history id ++ [turn])
    (hfinal : turn.outcome = .finalize) :
    (∃ row', (a.result w).session id = some row' ∧ row'.record.state = .completed ∧
      (a.result w).Finished row'.record) ↔
        w.FinalizesWith (a.afterSteps (n + 1) w) row.record turn a.key := by
  have hs := World.core_of_session hrow
  have hid : row.record.core.sessionId = id := World.sessionId_of_core hs
  have hown : a.sessionId = id := by rw [Attempt.sessionId, hrequest]
  have hreachable : ∀ m, Reachable (a.afterSteps m w) := fun m =>
    .step { a with crashAfter := some m } h trivial
  -- the turn of this attempt is the first that it stores
  have hpasses : a.program.Passes a.Admits (w.Grown id) (Decides w row.record.core a.key) w := by
    obtain ⟨earlier, hearlier, -⟩ := hfailed
    rw [← hown] at hrequest hs hearlier ⊢
    exact passes_program h.inv hrequest hs hactive (List.ne_nil_of_mem hearlier)
  have hfirst : ∀ m ≤ n, ¬ w.Grown id (a.afterSteps m w) := by
    intro m hm hgrown
    rw [World.grown_iff, hbefore m hm] at hgrown
    exact Nat.lt_irrefl _ hgrown
  have hgrown : w.Grown id (a.afterSteps (n + 1) w) := by
    rw [World.grown_iff, hstored, List.length_append]
    exact Nat.lt_succ_self _
  obtain ⟨rest, hdecides, hrun⟩ := hpasses.run (fun m => ⟨m, rfl⟩) hfirst hgrown
  have hconcludes := hdecides (hreachable (n + 1)).inv turn (by rw [hid]; exact hstored) hfinal
  rw [World.FinalizesWith.core, hid] at hconcludes
  have hcompleted : (a.result w).Completed id ↔
      w.FinalizesWith (a.afterSteps (n + 1) w) row.record turn a.key := by
    rw [Attempt.result, hsurvives]
    dsimp only
    rw [hrun]
    exact World.Completed.of_concludes hconcludes fun m => hfaultFree _
  rw [← hcompleted]
  constructor
  · rintro ⟨row', hrow', hdone, -⟩
    exact ⟨_, World.core_of_session hrow', hdone⟩
  · rintro ⟨s', hs', hdone⟩
    obtain ⟨row', hrow', rfl⟩ := World.session_of_core hs'
    have hresult : Reachable (a.result w) := .step a h trivial
    exact ⟨row', hrow', hdone, (hresult.completionCoherent.finished_iff id row' hrow').mp hdone⟩

namespace Scenario

def renderFailed : ErrorBody := makeError .renderFailed "deterministic render defect" 0 false

/-- An acceptance that the renderer refuses for good in its `n`-th step. -/
def failsAt (n : ℕ) : Attempt :=
  { accept 2 none with
    choices := fun m => { later steady with
      failure := if m = n then some (.error renderFailed) else none } }

/-- The first report is refused, or the second one. -/
def failedAtFirst : World := World.after {} [create, failsAt 15]
def failedAtSecond : World := World.after {} [create, failsAt 16]

/-- The session ⟨1⟩ is finalizing before the `n`-th step, whose failure puts it back to
active and is not retryable. -/
def failsForGood (n : ℕ) : Bool :=
  (((failsAt n).afterSteps n (World.after {} [create])).session ⟨1⟩).any (fun row =>
    decide (row.record.state = .finalizing)) &&
  match ((failsAt n).program.run (failsAt n).choices (World.after {} [create])).1 with
  | .error (.apiError error) => decide (error.error.code = .renderFailed) && !error.error.retryable
  | .error (.finalizationFailed error retryable) =>
      decide (error.error.code = .renderFailed) && !retryable
  | _ => false

/-- The session ⟨1⟩ is active after a finalizing turn, and the next acceptance stores its
turn in step 8. -/
def acceptsAgain (w : World) : Bool :=
  (w.session ⟨1⟩).any (fun row => decide (row.record.state = .active)) &&
  (w.history ⟨1⟩).any (fun turn => decide (turn.outcome = .finalize)) &&
  (List.range 8).all (fun m =>
    decide (((accept 3 none).afterSteps m w).history ⟨1⟩ = w.history ⟨1⟩)) &&
  decide ((((accept 3 none).afterSteps 8 w).history ⟨1⟩).dropLast = w.history ⟨1⟩) &&
  (((accept 3 none).afterSteps 8 w).history ⟨1⟩).getLast?.any fun turn =>
    decide (turn.outcome = .finalize)

theorem of_acceptsAgain {w : World} (h : acceptsAgain w = true) :
    ∃ row turn, w.session ⟨1⟩ = some row ∧ row.record.state = .active ∧
      (∃ earlier ∈ w.history ⟨1⟩, earlier.outcome = .finalize) ∧
      (∀ m ≤ 7, ((accept 3 none).afterSteps m w).history ⟨1⟩ = w.history ⟨1⟩) ∧
      ((accept 3 none).afterSteps (7 + 1) w).history ⟨1⟩ = w.history ⟨1⟩ ++ [turn] ∧
      turn.outcome = .finalize := by
  simp only [acceptsAgain, Bool.and_eq_true, decide_eq_true_eq] at h
  obtain ⟨⟨⟨⟨hactive, hfailed⟩, hbefore⟩, hinit⟩, hlast⟩ := h
  obtain ⟨row, hrow, hstate⟩ := (Option.any_eq_true _ _).mp hactive
  obtain ⟨earlier, hearlier, houtcome⟩ := List.any_eq_true.mp hfailed
  obtain ⟨turn, hturn, hfinal⟩ := (Option.any_eq_true _ _).mp hlast
  obtain ⟨front, hfront⟩ := List.getLast?_eq_some_iff.mp hturn
  refine ⟨row, turn, hrow, of_decide_eq_true hstate, ⟨earlier, hearlier,
    of_decide_eq_true houtcome⟩, fun m hm => ?_, ?_, of_decide_eq_true hfinal⟩
  · exact of_decide_eq_true
      (List.all_eq_true.mp hbefore m (List.mem_range.mpr (Nat.lt_succ_of_le hm)))
  · rw [← hinit, hfront, List.dropLast_concat]

/-- After the second report was refused the next acceptance is refused, after the first one
it completes the session. -/
theorem later_finalization_iff_unclaimed :
    (∃ row turn, failedAtSecond.session ⟨1⟩ = some row ∧
      ((∃ row', ((accept 3 none).result failedAtSecond).session ⟨1⟩ = some row' ∧
        row'.record.state = .completed ∧
          ((accept 3 none).result failedAtSecond).Finished row'.record) ↔
        failedAtSecond.FinalizesWith ((accept 3 none).afterSteps (7 + 1) failedAtSecond)
          row.record turn 3)) ∧
    ∃ row turn, failedAtFirst.session ⟨1⟩ = some row ∧
      failedAtFirst.FinalizesWith ((accept 3 none).afterSteps (7 + 1) failedAtFirst)
        row.record turn 3 := by
  constructor
  · obtain ⟨row, turn, hrow, hactive, hfailed, hbefore, hstored, hfinal⟩ :=
      of_acceptsAgain (w := failedAtSecond) (by decide +kernel)
    exact ⟨row, turn, hrow, later_finalization_completes_iff (reachable_after _) hrow hactive
      hfailed rfl rfl (fun _ => faultFree_steady) hbefore hstored hfinal⟩
  · obtain ⟨row, turn, hrow, hactive, hfailed, hbefore, hstored, hfinal⟩ :=
      of_acceptsAgain (w := failedAtFirst) (by decide +kernel)
    have hiff := later_finalization_completes_iff (a := accept 3 none) (reachable_after _) hrow
      hactive hfailed rfl rfl (fun _ => faultFree_steady) hbefore hstored hfinal
    have hdone : (((accept 3 none).result failedAtFirst).session ⟨1⟩).any
        (fun row => decide (row.record.state = .completed)) = true := by decide +kernel
    obtain ⟨row', hrow', hdone'⟩ := (Option.any_eq_true _ _).mp hdone
    have hresult : Reachable ((accept 3 none).result failedAtFirst) :=
      .step _ (reachable_after _) trivial
    have hcompleted : row'.record.state = .completed := of_decide_eq_true hdone'
    exact ⟨row, turn, hrow, hiff.mp ⟨row', hrow', hcompleted,
      (hresult.completionCoherent.finished_iff _ row' hrow').mp hcompleted⟩⟩

/-- The report of the refused finalization stands in the way of the next one. -/
theorem claimed_report_stands_in_the_way :
    Reachable failedAtSecond ∧ failsForGood 16 = true ∧
    ((failedAtSecond.objects ⟨1⟩).reportIdem .md).isSome ∧ acceptsAgain failedAtSecond = true ∧
    (∀ n, ((accept 3 none).choices n).FaultFree) ∧ rollsBack (accept 3 none) failedAtSecond = true ∧
    ¬ ∃ row, ((accept 3 none).result failedAtSecond).session ⟨1⟩ = some row ∧
      row.record.state = .completed := by
  have hrollsBack : rollsBack (accept 3 none) failedAtSecond = true := by decide +kernel
  refine ⟨reachable_after _, by decide +kernel, by decide +kernel, by decide +kernel,
    fun _ => faultFree_steady, hrollsBack, ?_⟩
  rintro ⟨row, hrow, hdone⟩
  rw [rollsBack, hrow, Option.any_some, Bool.and_eq_true, decide_eq_true_eq, hdone] at hrollsBack
  cases hrollsBack.1

end Scenario
end StoryReview
