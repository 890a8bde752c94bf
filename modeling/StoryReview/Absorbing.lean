import StoryReview.Phases

/-!
# Terminal sessions absorb

No request on a session takes a step while another one is underway on it: then a
completed or parked session stays as it is. The lease alone does not enforce this; its
holder may outlive it.
-/
namespace StoryReview
open Program Flows RecordsStore

/-! ## One session in two worlds -/

/-- The session's row, up to markers and timestamps, and its turns are the same. -/
structure SameView (id : SessionId) (w w' : World) : Prop where
  core : w'.core id = w.core id
  turns : w'.turns id = w.turns id

namespace SameView
variable {id : SessionId} {u v w : World}

theorem refl (id : SessionId) (w : World) : SameView id w w := ⟨rfl, rfl⟩

theorem trans (h : SameView id u v) (h' : SameView id v w) : SameView id u w :=
  ⟨h'.core.trans h.core, h'.turns.trans h.turns⟩

theorem of_framed (h : Framed v w) : SameView id v w := ⟨by rw [h.core], by rw [h.turns]⟩

theorem of_sameButClaims (h : World.SameButClaims v w) : SameView id v w :=
  ⟨by rw [World.core, h.cores, World.core], by rw [h.turns]⟩

theorem ticked {c : Choice} (h : SameView id (v.tick c) w) : SameView id v w :=
  (of_framed (.of_quiet (quiet_tick v c))).trans h

theorem insertClaim (slot : ClaimSlot) (fingerprint : Fingerprint) (w : World) :
    SameView id w (Idempotency.insertClaim slot fingerprint w).2 := by
  unfold Idempotency.insertClaim
  split_ifs
  · exact refl id w
  · exact of_sameButClaims (World.sameButClaims_setClaim _ _ _)

theorem insertStoryRun (record : StoryRunRecord) (w : World) :
    SameView id w (RecordsStore.insertStoryRun record w).2 := by
  unfold RecordsStore.insertStoryRun
  split_ifs <;> exact ⟨rfl, rfl⟩

theorem insertSession {record : SessionRecord} (hid : record.sessionId ≠ id) (w : World) :
    SameView id w (RecordsStore.insertSession record w).2 := by
  unfold RecordsStore.insertSession
  split_ifs
  · exact refl id w
  · refine ⟨?_, rfl⟩
    simp only [World.core, World.cores, List.map_append, List.find?_append, List.map_cons,
      List.map_nil]
    have hother : ¬ record.core.sessionId = id := hid
    simp [hother]

theorem sessionUpdated {id' : SessionId} (hid : id ≠ id') (u : SessionUpdate) (w : World) :
    SameView id w (RecordsStore.sessionUpdated id' u w) :=
  ⟨by rw [World.core_sessionUpdated, if_neg hid], by rw [World.turns_sessionUpdated]⟩

theorem setTurns {id' : SessionId} (hid : id ≠ id') (rows : List TurnRow) (w : World) :
    SameView id w (w.setTurns id' rows) :=
  ⟨rfl, by rw [World.turns_setTurns, if_neg hid]⟩

theorem insertTurn {row : TurnRow} (hid : id ≠ row.record.sessionId) (w : World) :
    SameView id w (RecordsStore.insertTurn row w).2 := by
  rw [insertTurn_snd]
  split_ifs
  · exact refl id w
  · exact setTurns hid _ w

end SameView

/-- The session exists and is active or finalizing. -/
def World.IsOpen (w : World) (id : SessionId) : Prop :=
  ∃ s, w.core id = some s ∧ s.state.Open

theorem World.IsOpen.sameView {w w' : World} {id : SessionId} (h : w.IsOpen id)
    (hview : SameView id w w') : w'.IsOpen id := by
  obtain ⟨s, hs, hopen⟩ := h
  exact ⟨s, hview.core.trans hs, hopen⟩

/-! ## The contract -/

/-- A request that is not underway changes no session, and one that is changes its own
only, while it is open. -/
structure Guards (a : Attempt) (phase : Phase) (w w' : World) : Prop where
  lawful : Lawful w w'
  others : ∀ id, id ≠ a.sessionId → SameView id w w'
  idle : ¬ phase.Underway → SameView a.sessionId w w'
  closed : ∀ s, w.core a.sessionId = some s → ¬ s.state.Open → SameView a.sessionId w w'

namespace Guards
variable {a : Attempt} {phase : Phase} {w w' : World}

theorem of_view (hlawful : Lawful w w') (hview : ∀ id, SameView id w w') :
    Guards a phase w w' :=
  ⟨hlawful, fun id _ => hview id, fun _ => hview _, fun _ _ _ => hview _⟩

theorem of_framed (h : Framed w w') : Guards a phase w w' :=
  of_view (.of_framed h) fun _ => .of_framed h

/-- An underway request on its open session. -/
theorem of_open (hphase : phase.Underway) (hopen : w.IsOpen a.sessionId)
    (hlawful : Lawful w w') (hothers : ∀ id, id ≠ a.sessionId → SameView id w w') :
    Guards a phase w w' := by
  refine ⟨hlawful, hothers, fun hidle => absurd hphase hidle, fun s hs hclosed => ?_⟩
  obtain ⟨s', hs', hopen⟩ := hopen
  rw [hs] at hs'
  cases hs'
  exact absurd hopen hclosed

end Guards

/-- An underway request relies on its session being left alone. -/
structure Undisturbed (a : Attempt) (phase : Phase) (w w' : World) : Prop where
  lawful : Lawful w w'
  coherent : Coherent w'
  session : phase.Underway → SameView a.sessionId w w'

def guarding (a : Attempt) : Conduct Phase where
  observe := a.observe
  rely := Undisturbed a
  guar := Guards a

namespace Guarding
variable {a : Attempt} {K : Phase → World → Prop}

/-- Knowledge of an underway request that its session's view carries over. -/
theorem keeps_underway {F : World → Prop} (hF : ∀ w w', SameView a.sessionId w w' → F w → F w') :
    (guarding a).Keeps fun phase w => Coherent w ∧ phase.Underway ∧ F w := by
  refine ⟨fun phase w w' hK hrely => ?_, fun phase w w' hK hframed => ?_⟩
  · exact ⟨hrely.coherent, hK.2.1, hF w w' (hrely.session hK.2.1) hK.2.2⟩
  · exact ⟨.of_framed hframed, (Lawful.of_framed hframed).coherent hK.1, hK.2.1.observe w w',
      hF w w' (.of_framed hframed) hK.2.2⟩

theorem keeps_coherent : (guarding a).Keeps fun _ w => Coherent w :=
  ⟨fun _ _ _ _ hrely => hrely.coherent, fun _ _ _ hK hframed =>
    ⟨.of_framed hframed, (Lawful.of_framed hframed).coherent hK⟩⟩

/-- A statement on the session, which is open before and after it. -/
theorem does_open {phase : Phase} {w w' : World}
    (hO : Coherent w ∧ phase.Underway ∧ w.IsOpen a.sessionId) (hlawful : Lawful w w')
    (hothers : ∀ id, id ≠ a.sessionId → SameView id w w') (hopen : w'.IsOpen a.sessionId) :
    (guarding a).Does (fun phase w => Coherent w ∧ phase.Underway ∧ w.IsOpen a.sessionId)
      phase w w' :=
  ⟨.of_open hO.2.1 hO.2.2 hlawful hothers, hlawful.coherent hO.1, hO.2.1.observe w w', hopen⟩

theorem isOpen_sessionUpdated {u : SessionUpdate} {w : World} {id : SessionId}
    (h : w.IsOpen id) (hu : ∀ state ∈ u.state, state.Open) :
    (RecordsStore.sessionUpdated id u w).IsOpen id := by
  obtain ⟨s, hs, hopen⟩ := h
  refine ⟨u.apply 0 s, by rw [World.core_sessionUpdated, if_pos rfl, hs]; rfl, ?_⟩
  cases hstate : u.state with
  | none => simpa [SessionUpdate.apply, hstate] using hopen
  | some state => simpa [SessionUpdate.apply, hstate] using hu state hstate

/-- Turn, finalize and abandon requests. -/
theorem sessionOutline (hrequest : ∀ payload, a.request ≠ .createSession payload) :
    SessionOutline a (guarding a) (fun _ w => Coherent w)
      (fun phase w => Coherent w ∧ phase.Underway ∧ True)
      (fun phase w => Coherent w ∧ phase.Underway ∧ w.IsOpen a.sessionId)
      (fun _ => True) (fun _ => True) where
  start := keeps_coherent
  leased := keeps_underway fun _ _ _ h => h
  isOpen := keeps_underway fun _ _ hview h => h.sameView hview
  weaken := fun _ _ h => ⟨h.1, h.2.1, trivial⟩
  frame := fun _ _ _ h => .of_framed h
  acquire := by
    intro phase w c token w' hK h
    have hframed : Framed w w' := by
      refine .of_quiet ((quiet_tick w c).trans ?_)
      have hquiet := quiet_acquireStatement a.sessionId (w.tick c)
      rwa [h] at hquiet
    refine ⟨.of_framed hframed, (Lawful.of_framed hframed).coherent hK, ?_, trivial⟩
    exact .inl (Attempt.observe_acquire hrequest h)
  claim := by
    intro phase w c hL
    have hlawful := (Lawful.insertClaim a.slot a.fingerprint (w.tick c)).ticked
    exact ⟨.of_view hlawful fun id => (SameView.insertClaim _ _ _).ticked,
      hlawful.coherent hL.1, hL.2.1.observe _ _, trivial⟩
  claimOpen := by
    intro phase w c hO
    have hview : SameView a.sessionId w _ :=
      (SameView.insertClaim a.slot a.fingerprint (w.tick c)).ticked
    exact does_open hO (Lawful.insertClaim _ _ _).ticked
      (fun id _ => (SameView.insertClaim _ _ _).ticked) (hO.2.2.sameView hview)
  release := by
    intro phase w c hL
    exact .of_view (Lawful.released _ _).ticked fun id =>
      (SameView.of_sameButClaims (World.sameButClaims_released _ _)).ticked
  read := by
    intro phase w row hL hrow hopen
    exact ⟨hL.1, hL.2.1, row.record.core, World.core_of_session hrow, hopen⟩
  number := fun _ _ _ _ => trivial
  turn := by
    intro phase w c row payload hO _ hid _ _ _
    refine does_open hO (Lawful.insertTurn _ _).ticked
      (fun id hne => (SameView.insertTurn (hid ▸ hne) _).ticked) ?_
    obtain ⟨s, hs, hopen⟩ := hO.2.2
    refine ⟨s, ?_, hopen⟩
    rw [insertTurn_snd]
    split_ifs <;> exact hs
  last := fun _ _ _ _ _ => trivial
  stamp := by
    intro phase w c n references hO _
    exact does_open hO (Lawful.stamp _ _ _ _).ticked
      (fun id hne => (SameView.setTurns hne _ _).ticked) hO.2.2
  mark := by
    intro phase w c u hO hu
    exact does_open hO (Lawful.sessionUpdated _ _ _).ticked
      (fun id hne => (SameView.sessionUpdated hne _ _).ticked)
      (isOpen_sessionUpdated hO.2.2 hu)
  close := by
    intro phase w c u response hO hresponse
    refine .of_open hO.2.1 hO.2.2
      ((Lawful.sessionUpdated _ _ _).ticked.trans (.completed
        (Attempt.slot_ne_createSlot hrequest) _ _)) fun id hne => ?_
    exact (SameView.sessionUpdated hne _ _).ticked.trans
      (.of_sameButClaims (World.sameButClaims_completed _ _ _))

/-! ### Creations -/

section Creations
variable {payload : CreateSessionRequest} {phase : Phase} {w w' : World}

theorem keeps_claiming (hrequest : a.request = .createSession payload) :
    (guarding a).Keeps (Claiming a) := by
  refine ⟨fun phase w w' hT hrely => hT.lawful hrequest hrely.lawful,
    fun phase w w' hT hframed => ⟨.of_framed hframed, ?_⟩⟩
  refine hT.step hrequest (.of_framed hframed) ?_
  rw [World.Opened, World.Opened, hframed.turns]
  exact id

/-- A statement of a working creation that stores no turn. -/
theorem does_working (hrequest : a.request = .createSession payload)
    (hK : Coherent w ∧ phase = .working) (hguards : Guards a phase w w')
    (hturns : w'.turns = w.turns) :
    (guarding a).Does (fun phase w => Coherent w ∧ phase = .working) phase w w' := by
  refine ⟨hguards, hguards.lawful.coherent hK.1, ?_⟩
  have hopened : w'.Opened a.key → w.Opened a.key := by
    rw [World.Opened, World.Opened, hturns]
    exact id
  obtain ⟨-, rfl⟩ := hK
  exact a.observe_working hrequest hopened

theorem keeps_working (hrequest : a.request = .createSession payload) :
    (guarding a).Keeps fun phase w => Coherent w ∧ phase = .working :=
  ⟨fun _ _ _ hK hrely => ⟨hrely.coherent, hK.2⟩, fun _ _ _ hK hframed =>
    does_working hrequest hK (.of_framed hframed) hframed.turns⟩

theorem turns_insertSession (record : SessionRecord) (w : World) :
    (insertSession record w).2.turns = w.turns := by
  unfold insertSession
  split_ifs <;> rfl

/-- A session that exists is not inserted again. -/
theorem insertSession_eq {record s : SessionRecord} (hs : w.core record.sessionId = some s) :
    (insertSession record w) = (false, w) := by
  unfold insertSession
  rw [if_pos]
  have hmem := World.mem_cores_of_core hs
  obtain ⟨row, hrow, rfl⟩ := List.mem_map.mp hmem
  have hid : row.record.core.sessionId = record.sessionId := World.sessionId_of_core hs
  exact List.any_eq_true.mpr ⟨row, hrow, decide_eq_true (.inl hid)⟩

theorem core_insertSession {record : SessionRecord}
    (h : (insertSession record w).1 = true) :
    (insertSession record w).2.core record.sessionId = some record.core := by
  unfold insertSession at h ⊢
  split_ifs at h ⊢ with hany
  have hnone : w.core record.sessionId = none := by
    refine List.find?_eq_none.mpr fun s hs => ?_
    obtain ⟨row, hrow, rfl⟩ := List.mem_map.mp hs
    intro hid
    exact hany (List.any_eq_true.mpr ⟨row, hrow, decide_eq_true (.inl (of_decide_eq_true hid))⟩)
  simp only [World.core, World.cores, List.map_append, List.find?_append] at hnone ⊢
  rw [hnone]
  simp [SessionRecord.core]

theorem createOutline (hrequest : a.request = .createSession payload) :
    CreateOutline a (guarding a) (fun phase w => Coherent w ∧ phase = .fresh) (Claiming a)
      (fun phase w => Coherent w ∧ phase = .working)
      (fun phase w => Coherent w ∧ phase.Underway ∧ w.IsOpen a.sessionId)
      (fun phase w => Coherent w ∧ phase.Underway ∧ w.IsOpen a.sessionId)
      (fun _ _ w => Coherent w) where
  start := fun _ _ _ hS hrely => ⟨hrely.coherent, hS.2⟩
  claiming := keeps_claiming hrequest
  claimed := keeps_working hrequest
  pipeline := keeps_underway fun _ _ hview h => h.sameView hview
  opened := keeps_underway fun _ _ hview h => h.sameView hview
  answered := fun _ => keeps_coherent
  frame := fun _ _ _ h => .of_framed h
  kept := fun _ _ _ h => h.lawful.kept
  claim := by
    intro phase w c hS
    have hlawful := (Lawful.insertClaim a.slot a.fingerprint (w.tick c)).ticked
    have hw := hlawful.coherent hS.1
    refine ⟨⟨.of_view hlawful fun id => (SameView.insertClaim _ _ _).ticked,
      .first hrequest hw hS.2⟩, fun hnew => ?_⟩
    have hT := Claiming.first (w := w) hrequest hw hS.2
    exact ⟨hw, hT.working (inserted_inProgress hnew) rfl⟩
  proceed := fun _ _ _ hT hrow hstate => ⟨hT.coherent, hT.working hrow hstate⟩
  replay := fun _ _ _ _ hT _ => hT.coherent
  release := by
    intro phase w c hK
    exact .of_view (Lawful.released _ _).ticked fun id =>
      (SameView.of_sameButClaims (World.sameButClaims_released _ _)).ticked
  storyRun := by
    intro phase w c record hK _ _
    refine does_working hrequest hK (.of_view (Lawful.insertStoryRun _ _).ticked fun id =>
      (SameView.insertStoryRun _ _).ticked) ?_
    unfold insertStoryRun
    split_ifs <;> rfl
  session := by
    intro phase w c record hK hid hrun hstate
    have hkey : record.storyRunId.key = record.sessionId.key := by rw [hid, hrun]
    have hsession : a.sessionId = record.sessionId := by rw [Attempt.sessionId, hrequest, hid]
    have hlawful := (Lawful.insertSession hkey (w.tick c)).ticked
    have hguards : Guards a phase w (insertSession record (w.tick c)).2 := by
      refine ⟨hlawful, fun id hne => (SameView.insertSession (hsession ▸ hne.symm) _).ticked,
        fun hidle => absurd (.inl hK.2) hidle, fun s hs _ => ?_⟩
      rw [insertSession_eq (hsession ▸ hs)]
      exact .of_framed (.of_quiet (quiet_tick w c))
    have hdoes := does_working hrequest hK hguards (turns_insertSession _ _)
    refine ⟨hdoes, fun hnew => ⟨hdoes.2.1, .inl hdoes.2.2, record.core, ?_, .inl hstate⟩⟩
    rw [hsession]
    exact core_insertSession hnew
  existing := by
    intro phase w row hK hrow
    have hcore := hK.1.core_of_run hrow
    have hsession : a.sessionId = ⟨a.key⟩ := by rw [Attempt.sessionId, hrequest]
    have hid : row.record.core.sessionId = ⟨a.key⟩ := World.sessionId_of_core hcore
    refine ⟨hid, fun hactive => ?_⟩
    exact ⟨hK.1, .inl hK.2, row.record.core, hsession ▸ hcore, .inl hactive⟩
  turn := by
    intro phase w c correlationId output artifacts createdAt completedAt hP _
    have hsession : a.sessionId = ⟨a.key⟩ := by rw [Attempt.sessionId, hrequest]
    refine does_open hP (Lawful.insertTurn _ _).ticked
      (fun id hne => (SameView.insertTurn (hsession ▸ hne) _).ticked) ?_
    obtain ⟨s, hs, hopen⟩ := hP.2.2
    refine ⟨s, ?_, hopen⟩
    rw [insertTurn_snd]
    split_ifs <;> exact hs
  complete := by
    intro phase w c r hO hcreated
    rw [← Attempt.createSlot hrequest]
    have hview : ∀ id, SameView id w
        (Idempotency.completed (createSlot a.key) (.created r) (w.tick c)) := fun id =>
      (SameView.of_sameButClaims (World.sameButClaims_completed _ _ _)).ticked
    have hlawful := (Lawful.created (hcreated.kept (.tick w c))).ticked
    exact ⟨.of_view hlawful hview, hlawful.coherent hO.1⟩
  park := by
    intro phase w c hP
    have hsession : a.sessionId = ⟨a.key⟩ := by rw [Attempt.sessionId, hrequest]
    refine .of_open hP.2.1 hP.2.2
      ((Lawful.sessionUpdated _ _ _).ticked.trans (.released _ _)) fun id hne => ?_
    exact (SameView.sessionUpdated (hsession ▸ hne) _ _).ticked.trans
      (.of_sameButClaims (World.sameButClaims_released _ _))

end Creations

end Guarding

/-! ## Runs -/

/-- An underway request takes a step only while no other one on its session is underway. -/
def exclusive : Discipline Attempt Phase World Choice PyException Response where
  starts := fun _ _ _ => True
  moves := fun _ others thread => thread.aux.Underway → ∀ other ∈ others,
    other.origin.sessionId = thread.origin.sessionId → ¬ other.aux.Underway

def guardingContract : Contract Attempt Phase World PyException Response where
  inv := Coherent
  rely := Undisturbed
  guar := Guards
  post := fun _ _ _ _ => True

theorem Guarding.rg_program {A : Choice → Prop} (a : Attempt) {w : World} (hw : Coherent w) :
    (guarding a).rg A a.program (fun _ _ _ => True) (fun _ _ _ => True) .fresh w := by
  by_cases hrequest : ∃ payload, a.request = .createSession payload
  · obtain ⟨payload, hrequest⟩ := hrequest
    exact rg_mono ((createOutline hrequest).rg_program hrequest ⟨hw, rfl⟩)
      (fun _ _ _ _ => trivial) fun _ _ _ _ => trivial
  · rw [not_exists] at hrequest
    exact (sessionOutline hrequest).rg_program hrequest hw

theorem guardingContract_sound : guardingContract.Sound requests exclusive where
  rely_refl := fun _ _ w hw => ⟨.refl w, hw, fun _ => .refl _ w⟩
  rely_trans := fun _ _ _ _ _ h h' => ⟨h.lawful.trans h'.lawful, h'.coherent,
    fun hphase => (h.session hphase).trans (h'.session hphase)⟩
  starts := fun _ _ a hw _ => Guarding.rg_program a hw
  inv := fun _ _ _ _ hw _ hguards => hguards.lawful.coherent hw
  compatible := by
    intro w others thread w' hw hmoves hguards other hother
    refine ⟨hguards.lawful, hguards.lawful.coherent hw, fun hphase => ?_⟩
    by_cases hsession : other.origin.sessionId = thread.origin.sessionId
    · rw [hsession]
      exact hguards.idle fun hunderway => hmoves hunderway other hother hsession hphase
    · exact hguards.others _ hsession
  post := fun _ _ _ _ _ _ _ _ _ _ _ => trivial

/-- A terminal session keeps its state, final review, reports and turns. -/
def World.Absorbs (w w' : World) (id : SessionId) : Prop :=
  ∀ row, w.session id = some row → row.record.state = .completed ∨ row.record.state = .parked →
    ∃ row', w'.session id = some row' ∧ row'.record.state = row.record.state ∧
      row'.record.finalReviewReference = row.record.finalReviewReference ∧
      row'.record.reportReferences = row.record.reportReferences ∧ w'.turns id = w.turns id

theorem closed_sameView {pool pool' : RequestPool} {id : SessionId} {s : SessionRecord}
    (h : pool.Reachable requests exclusive {}) (hsteps : Pool.Steps requests exclusive pool pool')
    (hs : pool.state.core id = some s) (hclosed : ¬ s.state.Open) :
    SameView id pool.state pool'.state := by
  induction hsteps with
  | refl => exact .refl id _
  | @tail mid last hmid hlast ih =>
      refine ih.trans ?_
      obtain ⟨mover, hlast⟩ := hlast
      cases mover with
      | none =>
          rw [hlast.state_eq]
          exact .refl id _
      | some thread =>
          have hholds := guardingContract_sound.holds coherent_init (h.trans hmid)
          obtain ⟨-, -, hguards⟩ := hholds.guarantee guardingContract_sound hlast
          by_cases hid : id = thread.origin.sessionId
          · subst hid
            exact hguards.closed s (ih.core.trans hs) hclosed
          · exact hguards.others id hid

/-- Where no two requests on a session are underway in turns, terminal states absorb. -/
theorem terminal_absorbs {pool pool' : RequestPool}
    (h : pool.Reachable requests exclusive {}) (hsteps : Pool.Steps requests exclusive pool pool')
    (id : SessionId) : pool.state.Absorbs pool'.state id := by
  intro row hrow hclosed
  have hnot : ¬ row.record.state.Open := by
    rcases hclosed with hstate | hstate <;> rw [hstate] <;> decide
  have hview := closed_sameView h hsteps (World.core_of_session hrow) hnot
  obtain ⟨row', hrow', heq⟩ :=
    World.session_of_core (hview.core.trans (World.core_of_session hrow))
  refine ⟨row', hrow', ?_, ?_, ?_, hview.turns⟩
  · have hstate : row'.record.core.state = row.record.core.state := by rw [heq]
    exact hstate
  · have hfinal : row'.record.core.finalReviewReference =
        row.record.core.finalReviewReference := by rw [heq]
    exact hfinal
  · have hreports : row'.record.core.reportReferences =
        row.record.core.reportReferences := by rw [heq]
    exact hreports

namespace Scenario

/-- A parked session stays parked while an acceptance is turned away. -/
theorem terminal_absorbs_parked : ∃ pool pool' : RequestPool,
    pool.Reachable requests exclusive {} ∧ Pool.Steps requests exclusive pool pool' ∧
      (pool.state.session ⟨1⟩).any (fun row => decide (row.record.state = .parked)) = true ∧
      pool.state.Absorbs pool'.state ⟨1⟩ := by
  have halone (a : Attempt) (w : World) (finished : List (Attempt × Except PyException Response)) :
      Pool.Steps requests exclusive ⟨w, [], finished⟩ ⟨(a.program.run a.choices w).2, [],
        (a, (a.program.run a.choices w).1) :: finished⟩ :=
    .alone _ _ (fun n => ⟨n, rfl⟩) trivial fun _ _ _ _ _ hother => by cases hother
  have hparked := (halone create {} []).trans (halone (abandon 2) _ _)
  have hlater := hparked.trans (halone (accept 3 none) _ _)
  exact ⟨_, _, hparked, halone (accept 3 none) _ _, by decide +kernel,
    terminal_absorbs hparked (halone (accept 3 none) _ _) ⟨1⟩⟩

/-- An acceptance that has just read its active session. -/
def reading : World := (accept 2 none).program.crash (accept 2 none).choices 5
  (World.after {} [create])

/-- Its lease has expired, and another request has taken it over and parked the session. -/
def overtaken : World := (abandon 3).result reading

/-- The acceptance has gone on to its end. -/
def resumed : World :=
  (((accept 2 none).program.residual (accept 2 none).choices 5 (World.after {} [create])).run
    (accept 2 none).choices overtaken).2

theorem parked_completes : ∃ pool pool' : RequestPool,
    pool.Reachable requests .free {} ∧ Pool.Steps requests .free pool pool' ∧
      ¬ pool.state.Absorbs pool'.state ⟨1⟩ := by
  have hcreated := Pool.Steps.alone (S := requests) (D := .free) (i := create) (s := {})
    create.choices [] (fun n => ⟨n, rfl⟩) trivial fun _ _ _ => trivial
  obtain ⟨g, hread⟩ := Pool.Steps.advance (S := requests) (D := .free) (i := accept 2 none)
    (p := (accept 2 none).program) (accept 2 none).choices [] []
    (fun n => ⟨n, rfl⟩) (fun _ _ _ => trivial) 5 .fresh (World.after {} [create])
    [(create, (create.program.run create.choices {}).1)]
  have hparked := Pool.Steps.complete (S := requests) (D := .free) (i := abandon 3)
    (p := (abandon 3).program) (abandon 3).choices []
    ([⟨accept 2 none, g, (accept 2 none).program.residual (accept 2 none).choices 5
      (World.after {} [create])⟩]) (fun n => ⟨n, rfl⟩) (fun _ _ _ => trivial) .fresh reading
    [(create, (create.program.run create.choices {}).1)]
  have hcompleted := fun finished => Pool.Steps.complete (S := requests) (D := .free)
    (i := accept 2 none)
    (p := (accept 2 none).program.residual (accept 2 none).choices 5 (World.after {} [create]))
    (accept 2 none).choices [] [] (fun n => ⟨n, rfl⟩)
    (fun _ _ _ => trivial) g overtaken finished
  refine ⟨_, _, ((hcreated.tail ⟨_, .start (accept 2 none) trivial⟩).trans hread).trans
    (.head ⟨_, .start (abandon 3) trivial⟩ hparked), hcompleted _, fun habsorbs => ?_⟩
  have hparked : (overtaken.session ⟨1⟩).any
      (fun row => decide (row.record.state = .parked)) = true := by decide +kernel
  have hdone : (resumed.session ⟨1⟩).all
      (fun row => decide (row.record.state = .completed)) = true := by decide +kernel
  obtain ⟨row, hrow, hstate⟩ := Option.any_eq_true _ _ |>.mp hparked
  have hstate := of_decide_eq_true hstate
  obtain ⟨row', hrow', hsame, -⟩ := habsorbs row hrow (.inr hstate)
  have hrow' : resumed.session ⟨1⟩ = some row' := hrow'
  rw [hrow', Option.all_some, decide_eq_true_eq, hsame, hstate] at hdone
  cases hdone

end Scenario
end StoryReview
