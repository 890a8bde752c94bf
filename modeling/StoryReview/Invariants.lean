import StoryReview.Evolution

/-!
# The invariants of every reachable world

Each durable step keeps them, hence so does every attempt, crashed or not.
-/
namespace StoryReview
open RecordsStore

/-! ## What the record updates change -/

namespace World
variable (w : World) (sessionId : SessionId) (u : SessionUpdate) (slot : ClaimSlot)
variable (response : CanonicalResponse)

theorem cores_sessionUpdated :
    (sessionUpdated sessionId u w).cores =
      w.cores.map fun s => if s.sessionId = sessionId then u.apply 0 s else s := by
  have hmodify : (w.modifySession sessionId fun row =>
      { row with record := u.apply w.clock row.record }).cores = _ :=
    w.modifySession_cores (g := u.apply 0) fun _ => rfl
  simp only [sessionUpdated]
  split <;> exact hmodify

/-- The session updated, and no other. -/
theorem core_sessionUpdated (sessionId' : SessionId) :
    (sessionUpdated sessionId u w).core sessionId' =
      if sessionId' = sessionId then (w.core sessionId').map (u.apply 0)
      else w.core sessionId' := by
  have hfind : ∀ cores : List SessionRecord,
      (cores.map fun s => if s.sessionId = sessionId then u.apply 0 s else s).find?
          (fun s => decide (s.sessionId = sessionId')) =
        (cores.find? fun s => decide (s.sessionId = sessionId')).map
          fun s => if s.sessionId = sessionId then u.apply 0 s else s := by
    intro cores
    rw [List.find?_map]
    congr 2
    funext s
    simp only [Function.comp_apply]
    split_ifs <;> rfl
  unfold core
  rw [cores_sessionUpdated, hfind]
  cases h : w.cores.find? fun s => decide (s.sessionId = sessionId') with
  | none => simp
  | some s =>
      have hid := List.find?_some h
      rw [decide_eq_true_eq] at hid
      by_cases heq : sessionId' = sessionId <;> simp [hid, heq]

@[simp] theorem turns_sessionUpdated : (sessionUpdated sessionId u w).turns = w.turns := by
  simp only [sessionUpdated]
  split <;> rfl

@[simp] theorem claims_sessionUpdated : (sessionUpdated sessionId u w).claims = w.claims := by
  simp only [sessionUpdated]
  split <;> rfl

@[simp] theorem objects_sessionUpdated :
    (sessionUpdated sessionId u w).objects = w.objects := by
  simp only [sessionUpdated]
  split <;> rfl

@[simp] theorem clock_sessionUpdated : (sessionUpdated sessionId u w).clock = w.clock := by
  simp only [sessionUpdated]
  split <;> rfl

@[simp] theorem fresh_sessionUpdated : (sessionUpdated sessionId u w).fresh = w.fresh := by
  simp only [sessionUpdated]
  split <;> rfl

/-- Only the claims differ. -/
structure SameButClaims (w w' : World) : Prop where
  clock : w'.clock = w.clock
  fresh : w'.fresh = w.fresh
  cores : w'.cores = w.cores
  turns : w'.turns = w.turns
  objects : w'.objects = w.objects

theorem sameButClaims_setClaim (row : Option ClaimRow) :
    SameButClaims w (w.setClaim slot row) := ⟨rfl, rfl, rfl, rfl, rfl⟩

theorem sameButClaims_released : SameButClaims w (Idempotency.released slot w) := by
  simp only [Idempotency.released]
  split
  · exact sameButClaims_setClaim _ _ _
  · exact ⟨rfl, rfl, rfl, rfl, rfl⟩

theorem sameButClaims_completed :
    SameButClaims w (Idempotency.completed slot response w) := by
  simp only [Idempotency.completed]
  split
  · exact sameButClaims_setClaim _ _ _
  · exact ⟨rfl, rfl, rfl, rfl, rfl⟩

theorem claims_setClaim (row : Option ClaimRow) (slot' : ClaimSlot) :
    (w.setClaim slot row).claims slot' = if slot' = slot then row else w.claims slot' := by
  simp [setClaim, Function.update_apply]

theorem claims_released (slot' : ClaimSlot) :
    (Idempotency.released slot w).claims slot' =
      if slot' = slot then (w.claims slot).filter fun row => decide (row.state = .completed)
      else w.claims slot' := by
  unfold Idempotency.released
  split
  · next h =>
      rw [claims_setClaim, h]
      rfl
  · next h =>
      split_ifs with hslot
      · rw [hslot]
        match hrow : w.claims slot with
        | none => rfl
        | some ⟨_, .completed, _⟩ => rfl
        | some ⟨_, .inProgress, _⟩ => exact absurd hrow (h _ _)
      · rfl

theorem claims_completed (slot' : ClaimSlot) :
    (Idempotency.completed slot response w).claims slot' =
      if slot' = slot then (w.claims slot).map fun row =>
        { row with state := .completed, canonicalResponse := some response }
      else w.claims slot' := by
  unfold Idempotency.completed
  split
  · next h =>
      rw [claims_setClaim, h]
      rfl
  · next h =>
      split_ifs with hslot
      · rw [hslot, h]
        rfl
      · rfl

theorem turns_setTurns (rows : List TurnRow) (sessionId' : SessionId) :
    (w.setTurns sessionId rows).turns sessionId' =
      if sessionId' = sessionId then rows else w.turns sessionId' := by
  simp [setTurns, Function.update_apply]

theorem history_setTurns (rows : List TurnRow) (sessionId' : SessionId) :
    (w.setTurns sessionId rows).history sessionId' =
      if sessionId' = sessionId then rows.map TurnRow.record else w.history sessionId' := by
  unfold history
  rw [turns_setTurns]
  split_ifs <;> rfl

end World

/-- Stored syntheses stay stored. -/
theorem World.StoresSynthesis.mono {w w' : World} {run : RunId} {id : ArtifactId}
    {report : SynthesisReport} (h : w.StoresSynthesis run id report)
    (hgrow : (w.objects run).Grows (w'.objects run)) : w'.StoresSynthesis run id report := by
  obtain ⟨r, stored, hr, hrest⟩ := h
  exact ⟨r, stored, hgrow.record id r hr, hrest⟩

/-! ## The invariants -/

structure Inv (w : World) : Prop where
  /-- Session and run are derived from one key. -/
  keyed : ∀ s ∈ w.cores, s.storyRunId.key = s.sessionId.key
  valid : ∀ id s, w.core id = some s → s.Valid
  /-- Turns are numbered from 1 without gaps. -/
  numbered : ∀ id, (w.history id).map TurnRecord.turnNumber =
    List.range' 1 (w.history id).length
  turns : ∀ id, ∀ t ∈ w.history id, t.Valid ∧ t.sessionId = id
  /-- A finalizing session has its finalize turn. -/
  finalizing : ∀ id s, w.core id = some s → s.state = .finalizing →
    ∃ t, (w.history id).getLast? = some t ∧ t.outcome = .finalize
  /-- A completed finalize claim belongs to a completed session. -/
  finalizeClaim : ∀ id key row, w.claims (Finalize.slot id key) = some row →
    row.state = .completed → ∃ s, w.core id = some s ∧ s.state = .completed
  objects : ∀ run, (w.objects run).Sound run w.fresh w.clock
  /-- The syntheses that turns produced are stored with their run. -/
  produced : ∀ id, ∀ t ∈ w.history id, ∀ r ∈ t.producedArtifacts, r.type = .synthesis →
    r.storyRunId = ⟨id.key⟩ ∧ ∃ report, w.StoresSynthesis ⟨id.key⟩ r.artifactId report

theorem inv_init : Inv {} := by
  refine ⟨?_, ?_, ?_, ?_, ?_, ?_, fun run => RunObjects.sound_empty run _ _, ?_⟩ <;>
    simp [World.cores, World.core, World.history]

namespace Inv
variable {w w' : World}

theorem run_of_core (h : Inv w) {id : SessionId} {s : SessionRecord}
    (hs : w.core id = some s) : s.storyRunId = ⟨id.key⟩ := by
  have hkey := h.keyed s (World.mem_cores_of_core hs)
  rw [World.sessionId_of_core hs] at hkey
  rw [← hkey]

/-- Steps that touch neither sessions, turns nor claims. -/
theorem of_objects (h : Inv w) (hcores : w'.cores = w.cores) (hturns : w'.turns = w.turns)
    (hclaims : w'.claims = w.claims)
    (hsound : ∀ run, (w'.objects run).Sound run w'.fresh w'.clock)
    (hgrow : ∀ run, (w.objects run).Grows (w'.objects run)) : Inv w' := by
  have hcore : w'.core = w.core := by
    funext id
    simp only [World.core, hcores]
  have hhist : w'.history = w.history := by
    funext id
    simp only [World.history, hturns]
  refine ⟨hcores ▸ h.keyed, hcore ▸ h.valid, hhist ▸ h.numbered, hhist ▸ h.turns,
    hcore ▸ hhist ▸ h.finalizing, hclaims ▸ hcore ▸ h.finalizeClaim, hsound, ?_⟩
  rw [hhist]
  intro id t ht r hr hsyn
  obtain ⟨hrun, report, hstored⟩ := h.produced id t ht r hr hsyn
  exact ⟨hrun, report, hstored.mono (hgrow _)⟩

theorem quiet (h : Inv w) (hq : Quiet w w') : Inv w' := by
  refine h.of_objects hq.cores hq.turns hq.claims (fun run => ?_) (fun run => ?_)
  · rw [hq.objects]
    exact (h.objects run).mono hq.fresh hq.clock
  · rw [hq.objects]
    exact .refl _

theorem served (h : Inv w) {run : RunId} {o' : RunObjects}
    (hsound : o'.Sound run (w.fresh + 1) w.clock)
    (hgrow : (w.objects run).Grows o') : Inv (w.served run o') := by
  refine h.of_objects rfl rfl rfl (fun run' => ?_) (fun run' => ?_)
  · rw [World.served_objects]
    split_ifs with hrun
    · exact hrun ▸ hsound
    · exact (h.objects run').mono (Nat.le_succ _) le_rfl
  · rw [World.served_objects]
    split_ifs with hrun
    · exact hrun ▸ hgrow
    · exact .refl _

theorem saves (h : Inv w) {request : SaveArtifactInput} {o' : RunObjects}
    (hat : ∀ f, request.content = .finalizedReview f → f.finalizedAt ≤ w.clock)
    (hsaves : Saves request ⟨w.fresh⟩ w.clock (w.objects request.storyRunId) o') :
    Inv (w.served request.storyRunId o') :=
  h.served ((h.objects _).saves rfl hat hsaves) (RunObjects.grows_of_saves hsaves)

theorem renders (h : Inv w) {request : RenderReportInput} {o' : RunObjects}
    (hrenders : Renders request ⟨w.fresh⟩ w.clock (w.objects request.storyRunId) o') :
    Inv (w.served request.storyRunId o') :=
  h.served ((h.objects _).renders rfl hrenders) (RunObjects.grows_of_renders hrenders)

/-- Steps that move claims only; `hclaim` is about completed finalize claims. -/
theorem of_claims (h : Inv w) (hsame : World.SameButClaims w w')
    (hclaim : ∀ id key row, w'.claims (Finalize.slot id key) = some row →
      row.state = .completed → ∃ s, w.core id = some s ∧ s.state = .completed) : Inv w' := by
  have hcore : w'.core = w.core := by
    funext id
    simp only [World.core, hsame.cores]
  have hhist : w'.history = w.history := by
    funext id
    simp only [World.history, hsame.turns]
  refine ⟨hsame.cores ▸ h.keyed, hcore ▸ h.valid, hhist ▸ h.numbered, hhist ▸ h.turns,
    hcore ▸ hhist ▸ h.finalizing, hcore ▸ hclaim, ?_, ?_⟩
  · rw [hsame.objects, hsame.fresh, hsame.clock]
    exact h.objects
  · simp only [World.StoresSynthesis, hsame.objects, hhist]
    exact h.produced

theorem claim (h : Inv w) (slot : ClaimSlot) (fingerprint : Fingerprint) :
    Inv (w.setClaim slot (some ⟨fingerprint, .inProgress, none⟩)) := by
  refine h.of_claims (World.sameButClaims_setClaim _ _ _) fun id key row hrow hdone => ?_
  rw [World.claims_setClaim] at hrow
  split_ifs at hrow with hslot
  · cases hrow
    cases hdone
  · exact h.finalizeClaim id key row hrow hdone

theorem release (h : Inv w) (slot : ClaimSlot) : Inv (Idempotency.released slot w) := by
  refine h.of_claims (World.sameButClaims_released _ _) fun id key row hrow hdone => ?_
  rw [World.claims_released] at hrow
  split_ifs at hrow with hslot
  · exact h.finalizeClaim id key row (hslot ▸ (Option.filter_eq_some_iff.mp hrow).1) hdone
  · exact h.finalizeClaim id key row hrow hdone

/-- Completing a claim; a finalize claim must find its session completed. -/
theorem complete (h : Inv w) (slot : ClaimSlot) (response : CanonicalResponse)
    (hslot : ∀ id key, slot = Finalize.slot id key →
      ∃ s, w.core id = some s ∧ s.state = .completed) :
    Inv (Idempotency.completed slot response w) := by
  refine h.of_claims (World.sameButClaims_completed _ _ _) fun id key row hrow hdone => ?_
  rw [World.claims_completed] at hrow
  split_ifs at hrow with heq
  · exact hslot id key heq.symm
  · exact h.finalizeClaim id key row hrow hdone

/-- An update of one session, which may leave a completed state only to stay in it. -/
theorem update (h : Inv w) {id : SessionId} {s : SessionRecord} {u : SessionUpdate}
    (hs : w.core id = some s) (hvalid : (u.apply 0 s).Valid)
    (hstate : s.state ≠ .completed)
    (hlast : (u.apply 0 s).state = .finalizing →
      ∃ t, (w.history id).getLast? = some t ∧ t.outcome = .finalize) :
    Inv (sessionUpdated id u w) := by
  have hcore := w.core_sessionUpdated id u
  have hhist : (sessionUpdated id u w).history = w.history := by
    funext id'
    simp only [World.history, World.turns_sessionUpdated]
  refine ⟨?_, ?_, hhist ▸ h.numbered, hhist ▸ h.turns, ?_, ?_, ?_, ?_⟩
  · rw [World.cores_sessionUpdated]
    intro s' hs'
    obtain ⟨q, hq, rfl⟩ := List.mem_map.mp hs'
    have hkey := h.keyed q hq
    split_ifs <;> exact hkey
  · intro id' s' hs'
    rw [hcore] at hs'
    split_ifs at hs' with hid
    · rw [hid, hs, Option.map_some, Option.some.injEq] at hs'
      exact hs' ▸ hvalid
    · exact h.valid id' s' hs'
  · rw [hhist]
    intro id' s' hs' hfin
    rw [hcore] at hs'
    split_ifs at hs' with hid
    · rw [hid, hs, Option.map_some, Option.some.injEq] at hs'
      rw [hid]
      exact hlast (hs' ▸ hfin)
    · exact h.finalizing id' s' hs' hfin
  · rw [World.claims_sessionUpdated]
    intro id' key row hrow hdone
    obtain ⟨s', hs', hcompleted⟩ := h.finalizeClaim id' key row hrow hdone
    rw [hcore]
    split_ifs with hid
    · rw [hid, hs, Option.some.injEq] at hs'
      exact absurd (hs' ▸ hcompleted) hstate
    · exact ⟨s', hs', hcompleted⟩
  · rw [World.objects_sessionUpdated, World.fresh_sessionUpdated, World.clock_sessionUpdated]
    exact h.objects
  · simp only [World.StoresSynthesis, World.objects_sessionUpdated, hhist]
    exact h.produced

/-- Another list of turns for one session. -/
theorem setTurns (h : Inv w) {id : SessionId} {rows : List TurnRow}
    (hnumbered : (rows.map fun row => row.record.turnNumber) =
      List.range' 1 rows.length)
    (hturns : ∀ row ∈ rows, row.record.Valid ∧ row.record.sessionId = id)
    (hlast : ∀ s, w.core id = some s → s.state = .finalizing →
      ∃ t, (rows.map TurnRow.record).getLast? = some t ∧ t.outcome = .finalize)
    (hproduced : ∀ row ∈ rows, ∀ r ∈ row.record.producedArtifacts, r.type = .synthesis →
      r.storyRunId = ⟨id.key⟩ ∧ ∃ report, w.StoresSynthesis ⟨id.key⟩ r.artifactId report) :
    Inv (w.setTurns id rows) := by
  refine ⟨h.keyed, h.valid, fun id' => ?_, fun id' => ?_, fun id' s hs hfin => ?_,
    h.finalizeClaim, h.objects, fun id' => ?_⟩
  · rw [World.history_setTurns]
    split_ifs
    · rw [List.map_map, List.length_map]
      exact hnumbered
    · exact h.numbered id'
  · rw [World.history_setTurns]
    split_ifs with hid
    · intro t ht
      obtain ⟨row, hrow, rfl⟩ := List.mem_map.mp ht
      exact hid ▸ hturns row hrow
    · exact h.turns id'
  · rw [World.history_setTurns]
    split_ifs with hid
    · exact hlast s (hid ▸ hs) hfin
    · exact h.finalizing id' s hs hfin
  · rw [World.history_setTurns]
    split_ifs with hid
    · intro t ht
      obtain ⟨row, hrow, rfl⟩ := List.mem_map.mp ht
      exact hid ▸ hproduced row hrow
    · exact h.produced id'

theorem newSession (h : Inv w) {record : SessionRecord}
    (hkey : record.storyRunId.key = record.sessionId.key) (hvalid : record.Valid)
    (hactive : record.state = .active) :
    Inv { w with sessions := w.sessions ++ [⟨record, none⟩] } := by
  have hcore : ∀ id, World.core { w with sessions := w.sessions ++ [⟨record, none⟩] } id =
      (w.core id).or (if record.sessionId = id then some record.core else none) := by
    intro id
    simp only [World.core, World.cores, List.map_append, List.find?_append]
    congr 1
    by_cases hid : record.sessionId = id
    · simp [SessionRecord.core, hid]
    · simp [SessionRecord.core, hid]
  refine ⟨?_, ?_, h.numbered, h.turns, ?_, ?_, h.objects, h.produced⟩
  · simp only [World.cores, List.map_append, List.mem_append]
    rintro s (hs | hs)
    · exact h.keyed s hs
    · rw [List.mem_singleton.mp hs]
      exact hkey
  · intro id s hs
    rw [hcore, Option.or_eq_some_iff] at hs
    rcases hs with hs | ⟨-, hs⟩
    · exact h.valid id s hs
    · split_ifs at hs
      cases hs
      exact hvalid
  · intro id s hs hfin
    rw [hcore, Option.or_eq_some_iff] at hs
    rcases hs with hs | ⟨-, hs⟩
    · exact h.finalizing id s hs hfin
    · split_ifs at hs
      cases hs
      exact absurd (hactive.symm.trans hfin) (by decide)
  · intro id key row hrow hdone
    obtain ⟨s, hs, hcompleted⟩ := h.finalizeClaim id key row hrow hdone
    exact ⟨s, by rw [hcore, hs]; rfl, hcompleted⟩

end Inv

/-! ## Preservation -/

/-- A new turn takes the next number, and its synthesis is stored. -/
theorem NewTurn.spec {a : Attempt} {w₀ w : World} {s : SessionRecord} {row : TurnRow}
    (h : NewTurn a w₀ w s row) :
    row.record.turnNumber = (w.turns s.sessionId).length + 1 ∧
      row.record.sessionId = s.sessionId ∧
      ∀ r ∈ row.record.producedArtifacts, r.type = .synthesis →
        r.storyRunId = s.storyRunId ∧
          ∃ report, w.StoresSynthesis s.storyRunId r.artifactId report := by
  cases h with
  | opening hrequest hanswer hturn hcall hreport hnostate hstored hsynthesis hreviews hempty =>
      refine ⟨by rw [hempty]; rfl, rfl, fun r hr htype => ?_⟩
      simp only [Flows.openingRecord, List.mem_cons, List.not_mem_nil, or_false] at hr
      rcases hr with rfl | rfl | rfl
      · rw [hreviews.1] at htype
        cases htype
      · rw [hreviews.2] at htype
        cases htype
      · exact ⟨hsynthesis.2, _, hstored⟩
  | accepted hrequest haccepted hsame hbefore => exact ⟨rfl, rfl, nofun⟩
  | @message payload draft createdAt completedAt hrequest haccepted hsame hbefore hfinal =>
      refine ⟨rfl, rfl, fun r hr htype => ?_⟩
      simp only [TurnsFlow.messageRecord] at hr
      generalize hproduced : draft.newReferences ++
        (if draft.produced = true then [draft.synthesisReference] else []) = produced
        at hfinal hr
      cases hfinal with
      | plain => cases hr
      | summary hanswer hstored hreference hreviews hlength =>
          rcases List.mem_append.mp hr with hr | hr
          · obtain ⟨p, hp⟩ := hreviews r hr
            exact absurd htype (hp ▸ ArtifactType.review_ne_synthesis p)
          · rw [List.mem_singleton.mp hr]
            exact ⟨hreference.2, _, hstored⟩

namespace Commit
variable {a : Attempt} {w₀ w w' : World} {s : SessionRecord} {row : TurnRow}

theorem inv_turn (h : Inv w) (hs : w.core a.sessionId = some s)
    (hstate : s.state = .active) (hvalid : row.record.Valid) (hnew : NewTurn a w₀ w s row) :
    Inv (w.setTurns s.sessionId (w.turns s.sessionId ++ [row])) := by
  have hid := World.sessionId_of_core hs
  have hrun := h.run_of_core hs
  obtain ⟨hnumber, hsession, hproduced⟩ := hnew.spec
  have hold := h.numbered s.sessionId
  rw [hid] at hnumber hsession hold ⊢
  simp only [World.history, List.map_map, List.length_map] at hold
  refine h.setTurns ?_ ?_ ?_ ?_
  · rw [List.map_append, List.length_append, List.length_singleton, List.range'_concat]
    refine congrArg₂ _ hold ?_
    simp [hnumber, Nat.add_comm]
  · intro q hq
    rcases List.mem_append.mp hq with hq | hq
    · exact h.turns _ _ (List.mem_map_of_mem hq)
    · rw [List.mem_singleton.mp hq]
      exact ⟨hvalid, hsession⟩
  · intro s' hs' hfin
    rw [hs, Option.some.injEq] at hs'
    rw [← hs', hstate] at hfin
    cases hfin
  · intro q hq
    rcases List.mem_append.mp hq with hq | hq
    · exact h.produced _ _ (List.mem_map_of_mem hq)
    · rw [List.mem_singleton.mp hq, ← hrun]
      exact hproduced

theorem inv_stamp (h : Inv w) (hs : w.core a.sessionId = some s)
    (turnNumber : ℕ) {references : List ArtifactReference}
    (hreferences : references.length ≤ 3 ∧ (∀ r ∈ references, r.type ≠ .synthesis) ∧
      ∃ r ∈ references, r.type = .finalizedReview) :
    Inv (w.setTurns s.sessionId
      ((w.turns s.sessionId).map (stampTurn turnNumber references))) := by
  have hid := World.sessionId_of_core hs
  rw [hid]
  have hnumber : ∀ row, (stampTurn turnNumber references row).record.turnNumber =
      row.record.turnNumber := by
    intro row
    unfold stampTurn
    split_ifs <;> rfl
  have hold := h.numbered a.sessionId
  simp only [World.history, List.map_map, List.length_map] at hold
  refine h.setTurns ?_ ?_ ?_ ?_
  · rw [List.map_map, List.length_map, ← hold]
    exact List.map_congr_left fun row _ => hnumber row
  · intro q hq
    obtain ⟨row, hrow, rfl⟩ := List.mem_map.mp hq
    obtain ⟨hvalid, hsession⟩ := h.turns _ _ (List.mem_map_of_mem (f := TurnRow.record) hrow)
    unfold stampTurn
    split_ifs
    · obtain ⟨haction, hres, hissues, -, hpos⟩ := hvalid
      exact ⟨⟨haction, hres, hissues, hreferences.1.trans (by decide), hpos⟩, hsession⟩
    · exact ⟨hvalid, hsession⟩
  · intro s' hs' hfin
    obtain ⟨t, ht, houtcome⟩ := h.finalizing _ s' hs' hfin
    simp only [World.history, List.getLast?_map, Option.map_eq_some_iff] at ht ⊢
    obtain ⟨row, hrow, rfl⟩ := ht
    refine ⟨_, ⟨_, ⟨row, hrow, rfl⟩, rfl⟩, ?_⟩
    unfold stampTurn
    split_ifs <;> exact houtcome
  · intro q hq r hr htype
    obtain ⟨row, hrow, rfl⟩ := List.mem_map.mp hq
    unfold stampTurn at hr
    split_ifs at hr
    · exact absurd htype (hreferences.2.1 r hr)
    · exact h.produced _ _ (List.mem_map_of_mem hrow) r hr htype

theorem length_le_of_formats {formats : List Format} (h : formats.Nodup) : formats.length ≤ 2 := by
  have hsub : formats ⊆ [Format.md, Format.pdf] := fun f _ => by cases f <;> simp
  exact (h.subperm hsub).length_le

/-- What a finalization produced completes the session record. -/
theorem valid_of_produced (h : Inv w) {key : IdempotencyKey} {count : Option ℕ}
    {result : Finalization.FinalizationResult} (hvalid : s.Valid)
    (hcount : ∀ n ∈ count, n ≤ 10) (hproduced : Produced w key s result) :
    (SessionUpdate.apply
      { state := some .completed
        facilitatorTurnCount := count
        finalReviewReference := some result.finalReviewReference
        reportReferences := some result.reportReferences } 0 s).Valid := by
  obtain ⟨hne, hnodup, hten, -⟩ := hvalid
  obtain ⟨r, hr, href⟩ := hproduced.finalReview
  have hsound := h.objects s.storyRunId
  have htyped := hsound.records_typed r (RunObjects.mem_records_of_recordUnder hr)
  have htypes : result.reportReferences.map ArtifactReference.type =
      s.requestedFormats.map ArtifactType.report :=
    (map_eq_map_of_forall₂ (hproduced.reports.imp fun _ _ h => h.1.symm)).symm
  have hmd : ∀ f : Format, ArtifactType.report f = .reportMd ∨
      ArtifactType.report f = .reportPdf := fun f => by cases f <;> simp [ArtifactType.report]
  have hlength : s.requestedFormats.length ≤ 2 := by
    exact length_le_of_formats hnodup
  refine ⟨hne, hnodup, ?_, ?_, ?_, ?_, ?_, ?_⟩
  · cases count with
    | none => exact hten
    | some n => exact hcount n rfl
  · intro r' hr'
    simp only [SessionUpdate.apply, Option.some_or, Option.mem_def, Option.some.injEq] at hr'
    rw [← hr', ← href]
    exact ⟨hsound.type_of_recordUnder hr, htyped.2.1⟩
  · have hlen := congrArg List.length htypes
    simp only [List.length_map] at hlen
    exact hlen.trans_le hlength
  · intro r' hr'
    have hmem := List.mem_map_of_mem (f := ArtifactReference.type) hr'
    rw [show (SessionUpdate.apply _ 0 s).reportReferences = result.reportReferences from rfl,
      htypes] at hmem
    obtain ⟨f, -, hf⟩ := List.mem_map.mp hmem
    exact hf ▸ hmd f
  · rw [show (SessionUpdate.apply _ 0 s).reportReferences = result.reportReferences from rfl,
      htypes]
    exact hnodup.map fun _ _ => ArtifactType.report_injective
  · rw [show (SessionUpdate.apply _ 0 s).reportReferences = result.reportReferences from rfl,
      htypes]
    refine fun _ => ⟨rfl, fun f => ⟨List.mem_map_of_mem, fun hf => ?_⟩⟩
    obtain ⟨g, hg, hgf⟩ := List.mem_map.mp hf
    exact ArtifactType.report_injective hgf ▸ hg

/-- A new count or a new state short of completion keeps a record valid. -/
theorem valid_of_open (hvalid : s.Valid) {u : SessionUpdate}
    (hfinal : u.finalReviewReference = none) (hreports : u.reportReferences = none)
    (hcount : ∀ n ∈ u.facilitatorTurnCount, n ≤ 10)
    (hstate : u.state.getD s.state ≠ .completed) : (u.apply 0 s).Valid := by
  obtain ⟨hne, hnodup, hten, href, hlen, htype, htypes, -⟩ := hvalid
  refine ⟨hne, hnodup, ?_, ?_, ?_, ?_, ?_, fun h => absurd h hstate⟩
  · cases hc : u.facilitatorTurnCount with
    | none => simpa [SessionUpdate.apply, hc] using hten
    | some n => simpa [SessionUpdate.apply, hc] using hcount n hc
  all_goals simpa only [SessionUpdate.apply, hfinal, hreports, Option.none_or,
    Option.getD_none]

theorem inv_mark (h : Inv w) (hs : w.core a.sessionId = some s) {u : SessionUpdate}
    (hmark : Marks a w₀ w s u) : Inv (sessionUpdated a.sessionId u w) := by
  have hid := World.sessionId_of_core hs
  have hvalid := h.valid _ s hs
  cases hmark with
  | count hstate hcount hgate =>
      refine h.update hs (valid_of_open hvalid rfl rfl ?_ ?_) ?_ ?_
      · simpa using hcount.le
      · exact hstate ▸ nofun
      · exact hstate ▸ nofun
      · exact fun hfin => absurd (hstate.symm.trans hfin) nofun
  | finalizing hstate hlast houtcome =>
      refine h.update hs (valid_of_open hvalid rfl rfl nofun nofun) ?_ fun _ => ?_
      · rcases hstate with hstate | hstate <;> exact hstate ▸ nofun
      · rw [World.history, List.getLast?_map, ← hid, hlast]
        exact ⟨_, rfl, houtcome⟩
  | rollBack hstate hunstamped =>
      exact h.update hs (valid_of_open hvalid rfl rfl nofun nofun) (hstate ▸ nofun) nofun

theorem inv_close (h : Inv w) (hs : w.core a.sessionId = some s) {u : SessionUpdate}
    {response : CanonicalResponse} (hclose : Closes a w₀ w s u response) :
    Inv (Idempotency.completed a.slot response (sessionUpdated a.sessionId u w)) := by
  have hvalid := h.valid _ s hs
  have hcore := w.core_sessionUpdated a.sessionId u a.sessionId
  rw [if_pos rfl, hs, Option.map_some] at hcore
  have hslot : (∀ id, a.request ≠ .finalize id) → ∀ id key, a.slot ≠ Finalize.slot id key := by
    intro hrequest id key
    simp only [Attempt.slot]
    split <;> simp_all [Flows.createSlot, TurnsFlow.slot, Finalize.slot, Abandon.slot]
  cases hclose with
  | @persist payload row canonical count hrequest hstate hmem howns hdescribes hcount houtcome =>
      refine Inv.complete (h.update hs (valid_of_open hvalid rfl rfl ?_ ?_) ?_ ?_) _ _
        fun id key heq => absurd heq (hslot (by simp [hrequest]) id key)
      · simpa using hcount.le
      · split_ifs <;> simp [hstate]
      · exact hstate ▸ nofun
      · split_ifs <;> simp [SessionUpdate.apply, hstate]
  | @completeTurn payload row canonical result count hrequest hstate hmem howns hdescribes hcount
      hproduced hstamped hreports =>
      have hten : ∀ n ∈ count, n ≤ 10 := fun n hn => hcount n hn ▸ hvalid.2.2.1
      exact Inv.complete
        (h.update hs (valid_of_produced h hvalid hten hproduced) (hstate ▸ nofun) nofun) _ _
        fun id key heq => absurd heq (hslot (by simp [hrequest]) id key)
  | completeFinalize canonical hrequest hstate hproduced hstamped hreports =>
      refine Inv.complete
        (h.update hs (valid_of_produced h hvalid (by simp) hproduced) (hstate ▸ nofun) nofun)
        _ _ fun id key heq => ?_
      have hid : a.sessionId = id := by
        simp only [Attempt.slot, hrequest, Finalize.slot, ClaimSlot.mk.injEq,
          Option.some.injEq] at heq
        rw [Attempt.sessionId, hrequest]
        exact heq.2.1
      subst hid
      exact ⟨_, hcore, rfl⟩
  | abandon hrequest hstate =>
      have hne : s.state ≠ .completed := by
        rcases hstate with hstate | hstate <;> exact hstate ▸ nofun
      have hupdate := h.update (u := { state := some .parked }) hs
        (valid_of_open hvalid rfl rfl (by simp) nofun) hne nofun
      exact hupdate.complete _ _ fun id key heq =>
        absurd heq (hslot (by simp [hrequest]) id key)

/-- The step lemma: one durable step keeps the invariants. -/
theorem inv (h : Inv w) (hc : Commit a w₀ w w') : Inv w' := by
  cases hc with
  | quiet hq => exact h.quiet hq
  | draft hs hsaves =>
      obtain ⟨request, o', htype, -, hrun, hsaves, rfl⟩ := hsaves
      rw [← hrun] at hsaves ⊢
      refine h.saves (fun f hf => ?_) hsaves
      have hcontent := request.type_matches_content
      rw [hf] at hcontent
      exact absurd hcontent htype
  | claim => exact h.claim _ _
  | release => exact h.release _
  | storyRun => exact h.of_objects rfl rfl rfl h.objects fun _ => .refl _
  | @session payload storyId at_ hrequest hnew hrun =>
      exact h.newSession rfl ⟨payload.formats_ne_nil, payload.formats_are_unique,
        Nat.le_of_ble_eq_true rfl, nofun, Nat.zero_le _, nofun, List.nodup_nil, nofun⟩ rfl
  | turn hs hstate hvalid hnew => exact inv_turn h hs hstate hvalid hnew
  | mark hs hmark => exact inv_mark h hs hmark
  | finalReview hs hstate hfinalizes htype hcontent hat hkey hrun hsaves =>
      rw [← hrun] at hsaves ⊢
      refine h.saves (fun f hf => ?_) hsaves
      rw [hcontent] at hf
      cases hf
      exact hat
  | report hs hstate hrun hrenders =>
      rw [← hrun] at hrenders ⊢
      exact h.renders hrenders
  | stamp _ hs hstate hreferences => exact inv_stamp h hs _ hreferences
  | close hs hclose => exact inv_close h hs hclose
  | created hrequest =>
      refine h.complete _ _ fun id key heq => ?_
      rw [Attempt.slot, hrequest] at heq
      cases heq
  | parkFailed hrequest hs hstate =>
      have hupdate := h.update (u := { state := some .parked }) hs
        (valid_of_open (h.valid _ _ hs) rfl rfl (by simp) nofun) (hstate ▸ nofun) nofun
      exact hupdate.release _

end Commit

/-- The run lemma: so does whatever an attempt has done by some moment. -/
theorem Inv.evolves {a : Attempt} {w₀ w w' : World} (h : Inv w)
    (hevolves : Evolves a w₀ w w') : Inv w' := by
  induction hevolves with
  | refl => exact h
  | tail _ hc ih => exact Commit.inv ih hc

end StoryReview
