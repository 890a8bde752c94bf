import StoryReview.Phases

/-!
# The opening turn

Where a turn request starts only on a session that has a turn already, turn 1 is the one
that the creation stores. Nothing else takes the number: a request numbers its turn after
the last one it has read, and a final stamp goes to a turn that finalizes.
-/
namespace StoryReview
open Program Flows RecordsStore

/-- A row that flow 1 built from the artifacts under its key. -/
def World.OpeningRow (w : World) (id : SessionId) (row : TurnRow) : Prop :=
  ∃ correlationId output artifacts createdAt completedAt,
    row = ⟨openingRecord id correlationId output artifacts createdAt completedAt,
      .createSession id.key⟩ ∧ w.SavedAll id.key artifacts

theorem World.OpeningRow.kept {w w' : World} {id : SessionId} {row : TurnRow}
    (h : w.OpeningRow id row) (hkept : Kept w w') : w'.OpeningRow id row := by
  obtain ⟨correlationId, output, artifacts, createdAt, completedAt, heq, hsaved⟩ := h
  exact ⟨correlationId, output, artifacts, createdAt, completedAt, heq, hsaved.kept hkept⟩

/-- The invariant: only opening rows are numbered 1, and a session with turns has one. -/
structure OpeningFirst (w : World) : Prop where
  coherent : Coherent w
  opening : ∀ id, ∀ row ∈ w.turns id, row.record.turnNumber = 1 → w.OpeningRow id row
  first : ∀ id, w.turns id ≠ [] → ∃ row ∈ w.turns id, row.record.turnNumber = 1

theorem openingFirst_init : OpeningFirst {} :=
  ⟨coherent_init, fun _ _ hrow => (nomatch hrow), fun _ hne => absurd rfl hne⟩

/-! ## The contract -/

/-- The invariant is kept, and no turn is deleted. -/
structure KeepsOpening (w w' : World) : Prop where
  lawful : Lawful w w'
  first : OpeningFirst w → OpeningFirst w'
  stays : ∀ id, w.turns id ≠ [] → w'.turns id ≠ []

namespace KeepsOpening
variable {u v w w' : World}

theorem of_turns (hlawful : Lawful w w') (hturns : w'.turns = w.turns) : KeepsOpening w w' := by
  refine ⟨hlawful, fun h => ⟨hlawful.coherent h.coherent, ?_, ?_⟩, ?_⟩
  · rw [hturns]
    exact fun id row hrow hone => (h.opening id row hrow hone).kept hlawful.kept
  · rw [hturns]
    exact h.first
  · rw [hturns]
    exact fun _ hne => hne

theorem trans (h : KeepsOpening u v) (h' : KeepsOpening v w) : KeepsOpening u w :=
  ⟨h.lawful.trans h'.lawful, fun hu => h'.first (h.first hu),
    fun id hne => h'.stays id (h.stays id hne)⟩

theorem of_framed (h : Framed w w') : KeepsOpening w w' := of_turns (.of_framed h) h.turns

theorem ticked {c : Choice} (h : KeepsOpening (w.tick c) w') : KeepsOpening w w' :=
  (of_framed (.of_quiet (quiet_tick w c))).trans h

theorem insertClaim (slot : ClaimSlot) (fingerprint : Fingerprint) (w : World) :
    KeepsOpening w (Idempotency.insertClaim slot fingerprint w).2 := by
  refine of_turns (.insertClaim _ _ _) ?_
  unfold Idempotency.insertClaim
  split_ifs <;> rfl

theorem released (slot : ClaimSlot) (w : World) :
    KeepsOpening w (Idempotency.released slot w) :=
  of_turns (.released _ _) (World.sameButClaims_released _ _).turns

theorem sessionUpdated (id : SessionId) (u : SessionUpdate) (w : World) :
    KeepsOpening w (RecordsStore.sessionUpdated id u w) :=
  of_turns (.sessionUpdated _ _ _) (by simp)

/-- Another list of turns for one session. -/
theorem setTurns {id : SessionId} {rows : List TurnRow}
    (hlawful : Lawful w (w.setTurns id rows)) (hne : w.turns id ≠ [] → rows ≠ [])
    (hopening : OpeningFirst w → ∀ row ∈ rows, row.record.turnNumber = 1 → w.OpeningRow id row)
    (hfirst : OpeningFirst w → rows ≠ [] → ∃ row ∈ rows, row.record.turnNumber = 1) :
    KeepsOpening w (w.setTurns id rows) := by
  refine ⟨hlawful, fun h => ⟨hlawful.coherent h.coherent, fun id' => ?_, fun id' => ?_⟩,
    fun id' => ?_⟩ <;> rw [World.turns_setTurns] <;> split_ifs with hid
  · intro row hrow hone
    exact hid ▸ (hopening h row hrow hone).kept hlawful.kept
  · exact fun row hrow hone => (h.opening id' row hrow hone).kept hlawful.kept
  · exact hfirst h
  · exact h.first id'
  · exact hid ▸ hne
  · exact fun hne => hne

/-- A new row; one numbered 1 is an opening row, any other joins one. -/
theorem insertTurn {row : TurnRow} {w : World}
    (hopening : row.record.turnNumber = 1 → w.OpeningRow row.record.sessionId row)
    (hjoins : row.record.turnNumber ≠ 1 → w.turns row.record.sessionId ≠ []) :
    KeepsOpening w (RecordsStore.insertTurn row w).2 := by
  have hlawful := Lawful.insertTurn row w
  rw [insertTurn_snd] at hlawful ⊢
  split_ifs at hlawful ⊢
  · exact of_framed (.of_quiet (.refl w))
  · refine setTurns hlawful (fun _ => ?_) (fun h q hq hone => ?_) fun h _ => ?_
    · exact List.ne_nil_of_mem ((List.mem_orderedInsert _).mpr (.inl rfl))
    · rcases (List.mem_orderedInsert _).mp hq with rfl | hq
      · exact hopening hone
      · exact h.opening _ q hq hone
    · by_cases hone : row.record.turnNumber = 1
      · exact ⟨row, (List.mem_orderedInsert _).mpr (.inl rfl), hone⟩
      · obtain ⟨q, hq, hqone⟩ := h.first _ (hjoins hone)
        exact ⟨q, (List.mem_orderedInsert _).mpr (.inr hq), hqone⟩

/-- A stamp of another turn than the first. -/
theorem stamp {n : ℕ} (hn : n ≠ 1) (id : SessionId) (references : List ArtifactReference)
    (w : World) :
    KeepsOpening w (w.setTurns id ((w.turns id).map (stampTurn n references))) := by
  have hsame : ∀ {q : TurnRow}, q.record.turnNumber = 1 → stampTurn n references q = q := by
    intro q hq
    rw [stampTurn, if_neg (hq ▸ hn.symm)]
  have hnumber : ∀ q : TurnRow, (stampTurn n references q).record.turnNumber =
      q.record.turnNumber := by
    intro q
    unfold stampTurn
    split_ifs <;> rfl
  refine setTurns (.stamp _ _ _ _) (fun hne => ?_) (fun h row hrow hone => ?_) fun h hne => ?_
  · exact fun hnil => hne (List.map_eq_nil_iff.mp hnil)
  · obtain ⟨q, hq, rfl⟩ := List.mem_map.mp hrow
    rw [hnumber] at hone
    rw [hsame hone]
    exact h.opening id q hq hone
  · obtain ⟨q, hq, hone⟩ := h.first id fun hnil => hne (by rw [hnil, List.map_nil])
    exact ⟨q, List.mem_map.mpr ⟨q, hq, hsame hone⟩, hone⟩

end KeepsOpening

/-- The invariant holds again, whatever happened in between. -/
structure SeesOpening (w w' : World) : Prop where
  keeps : KeepsOpening w w'
  opening : OpeningFirst w'

def keeping (a : Attempt) : Conduct Phase where
  observe := a.observe
  rely := fun _ => SeesOpening
  guar := fun _ => KeepsOpening

namespace Keeping
variable {a : Attempt}

/-- What a turn request knows: its session has a turn. -/
def Follows (a : Attempt) (w : World) : Prop :=
  OpeningFirst w ∧ ∀ payload, a.request = .turn a.sessionId payload → w.turns a.sessionId ≠ []

theorem Follows.next {w w' : World} (h : Follows a w) (hkeeps : KeepsOpening w w') :
    Follows a w' :=
  ⟨hkeeps.first h.1, fun payload hrequest => hkeeps.stays _ (h.2 payload hrequest)⟩

theorem does {phase : Phase} {w w' : World} (h : Follows a w) (hkeeps : KeepsOpening w w') :
    (keeping a).Does (fun _ => Follows a) phase w w' := ⟨hkeeps, h.next hkeeps⟩

theorem keeps_follows : (keeping a).Keeps fun _ => Follows a :=
  ⟨fun _ _ _ hK hrely => hK.next hrely.keeps, fun _ _ _ hK hframed => does hK (.of_framed hframed)⟩

/-- A number after the last one. -/
theorem number_le {w : World} (hne : w.turns a.sessionId ≠ [])
    (hvalid : ∀ row ∈ w.turns a.sessionId, row.record.Valid) :
    2 ≤ TurnsFlow.nextTurnNumber (w.history a.sessionId) := by
  obtain ⟨row, hrow⟩ := Option.ne_none_iff_exists'.mp
    (fun h => hne (List.getLast?_eq_none_iff.mp h))
  obtain ⟨-, -, -, -, hpos⟩ := hvalid row (List.mem_of_getLast? hrow)
  rw [TurnsFlow.nextTurnNumber, World.history, List.getLast?_map, hrow]
  exact Nat.succ_le_succ hpos

theorem finalizingTurnNumber_ne_one {w : World} (h : OpeningFirst w) {id : SessionId} {n : ℕ}
    (hn : finalizingTurnNumber (w.turns id) = some n) : n ≠ 1 := by
  rw [finalizingTurnNumber, Option.map_eq_some_iff] at hn
  obtain ⟨row, hrow, rfl⟩ := hn
  intro hone
  have hfound := List.find?_some hrow
  have houtcome : row.record.outcome = .finalize := of_decide_eq_true hfound
  obtain ⟨_, _, _, _, _, rfl, -⟩ :=
    h.opening id row (List.mem_reverse.mp (List.mem_of_find?_eq_some hrow)) hone
  cases houtcome

/-- Turn, finalize and abandon requests. -/
theorem sessionOutline (hrequest : ∀ payload, a.request ≠ .createSession payload) :
    SessionOutline a (keeping a) (fun _ => Follows a) (fun _ => Follows a) (fun _ => Follows a)
      (fun n => ∀ payload, a.request = .turn a.sessionId payload → 2 ≤ n) (fun n => n ≠ 1) where
  start := keeps_follows
  leased := keeps_follows
  isOpen := keeps_follows
  weaken := fun _ _ h => h
  frame := fun _ _ _ h => .of_framed h
  acquire := by
    intro phase w c token w' hK h
    have hquiet := quiet_acquireStatement a.sessionId (w.tick c)
    rw [h] at hquiet
    exact does hK (.of_framed (.of_quiet ((quiet_tick w c).trans hquiet)))
  claim := fun _ _ _ hL => does hL (KeepsOpening.insertClaim _ _ _).ticked
  claimOpen := fun _ _ _ hO => does hO (KeepsOpening.insertClaim _ _ _).ticked
  release := fun _ _ _ _ => (KeepsOpening.released _ _).ticked
  read := fun _ _ _ hL _ _ => hL
  number := fun _ _ hO hvalid payload hturn => number_le (hO.2 payload hturn) hvalid
  turn := by
    intro phase w c row payload hO hturn hid _ _ hnumber
    have htwo := hnumber payload hturn
    refine does hO (KeepsOpening.insertTurn (fun hone => ?_) fun _ => ?_).ticked
    · omega
    · rw [hid]
      exact hO.2 payload hturn
  last := fun _ _ _ hO hn => finalizingTurnNumber_ne_one hO.1 hn
  stamp := fun _ _ _ _ _ hO hn => does hO (KeepsOpening.stamp hn _ _ _).ticked
  mark := fun _ _ _ _ hO _ => does hO (KeepsOpening.sessionUpdated _ _ _).ticked
  close := by
    intro phase w c u response _ _
    refine (KeepsOpening.sessionUpdated _ _ _).ticked.trans (.of_turns
      (.completed (Attempt.slot_ne_createSlot hrequest) _ _) ?_)
    exact (World.sameButClaims_completed _ _ _).turns

theorem keeps_first : (keeping a).Keeps fun _ => OpeningFirst :=
  ⟨fun _ _ _ _ hrely => hrely.opening, fun _ _ _ hK hframed =>
    ⟨.of_framed hframed, (KeepsOpening.of_framed hframed).first hK⟩⟩

theorem keeps_created (r : CreateSessionResponse) :
    (keeping a).Keeps fun _ w => OpeningFirst w ∧ w.Created a.key r :=
  keeps_first.and (fun _ _ _ h => h.keeps.lawful.kept) fun _ _ hkept hr => hr.kept hkept

theorem does_first {phase : Phase} {w w' : World} (hK : OpeningFirst w)
    (hkeeps : KeepsOpening w w') : (keeping a).Does (fun _ => OpeningFirst) phase w w' :=
  ⟨hkeeps, hkeeps.first hK⟩

theorem createOutline {payload : CreateSessionRequest}
    (hrequest : a.request = .createSession payload) :
    CreateOutline a (keeping a) (fun _ => OpeningFirst) (fun _ => OpeningFirst)
      (fun _ => OpeningFirst) (fun _ => OpeningFirst) (fun _ => OpeningFirst)
      (fun r _ w => OpeningFirst w ∧ w.Created a.key r) where
  start := keeps_first.stable
  claiming := keeps_first
  claimed := keeps_first
  pipeline := keeps_first
  opened := keeps_first
  answered := keeps_created
  frame := fun _ _ _ h => .of_framed h
  kept := fun _ _ _ h => h.keeps.lawful.kept
  claim := by
    intro phase w c hS
    have hdoes : (keeping a).Does (fun _ => OpeningFirst) phase w _ := does_first hS
      (KeepsOpening.insertClaim a.slot a.fingerprint (w.tick c)).ticked
    exact ⟨hdoes, fun _ => hdoes.2⟩
  proceed := fun _ _ _ hT _ _ => hT
  replay := by
    intro phase w fingerprint r hT hrow
    rw [← Attempt.createSlot hrequest] at hrow
    obtain ⟨r', hr', hcreated⟩ := hT.coherent.answers _ _ hrow rfl
    cases hr'
    exact ⟨hT, hcreated⟩
  release := fun _ _ _ _ => (KeepsOpening.released _ _).ticked
  storyRun := by
    intro phase w c record hK _ _
    refine does_first hK (KeepsOpening.of_turns (.insertStoryRun _ _) ?_).ticked
    unfold insertStoryRun
    split_ifs <;> rfl
  session := by
    intro phase w c record hK hid hrun _
    have hkey : record.storyRunId.key = record.sessionId.key := by rw [hid, hrun]
    have hdoes : (keeping a).Does (fun _ => OpeningFirst) phase w
        (insertSession record (w.tick c)).2 := by
      refine does_first hK (KeepsOpening.of_turns (.insertSession hkey _) ?_).ticked
      unfold insertSession
      split_ifs <;> rfl
    exact ⟨hdoes, fun _ => hdoes.2⟩
  existing := by
    intro phase w row hK hrow
    have hid : row.record.core.sessionId = ⟨a.key⟩ :=
      World.sessionId_of_core (hK.coherent.core_of_run hrow)
    exact ⟨hid, fun _ => hK⟩
  turn := by
    intro phase w c correlationId output artifacts createdAt completedAt hP hsaved
    refine does_first hP (KeepsOpening.insertTurn (fun _ => ?_) fun hne => absurd rfl hne).ticked
    exact ⟨correlationId, output, artifacts, createdAt, completedAt, rfl,
      hsaved.kept (.tick w c)⟩
  complete := by
    intro phase w c r hO hcreated
    rw [← Attempt.createSlot hrequest]
    have hkeeps := (KeepsOpening.of_turns (Lawful.created (hcreated.kept (.tick w c)))
      (World.sameButClaims_completed _ _ _).turns).ticked
    exact ⟨hkeeps, hkeeps.first hO, hcreated.kept hkeeps.lawful.kept⟩
  park := fun _ _ _ _ => (KeepsOpening.sessionUpdated _ _ _).ticked.trans (.released _ _)

end Keeping

/-! ## Runs -/

/-- A turn request starts on a session that has a stored turn. -/
def turnsFollow : Discipline Attempt Phase World Choice PyException Response where
  starts := fun w _ a => ∀ payload, a.request = .turn a.sessionId payload →
    w.turns a.sessionId ≠ []
  moves := fun _ _ _ => True

def keepingContract : Contract Attempt Phase World PyException Response where
  inv := OpeningFirst
  rely := fun _ _ => SeesOpening
  guar := fun _ _ => KeepsOpening
  post := fun a _ result w => ∀ r, result = .ok (.createSession r) → a.Creates a.key →
    w.Created a.key r

theorem Keeping.rg_program {A : Choice → Prop} (a : Attempt) {w : World} (hw : Follows a w) :
    (keeping a).rg A a.program (fun response _ w => ∀ r, response = .createSession r →
      a.Creates a.key → w.Created a.key r) (fun _ _ _ => True) .fresh w := by
  by_cases hrequest : ∃ payload, a.request = .createSession payload
  · obtain ⟨payload, hrequest⟩ := hrequest
    exact rg_mono ((createOutline hrequest).rg_program hrequest hw.1)
      (fun _ _ _ hZ r hr _ => (hZ r hr).2) fun _ _ _ _ => trivial
  · have hno := not_exists.mp hrequest
    exact rg_mono ((sessionOutline hno).rg_program hno hw)
      (fun _ _ _ _ r _ hcreates => absurd hcreates.2 hrequest) fun _ _ _ _ => trivial

theorem keepingContract_sound : keepingContract.Sound requests turnsFollow where
  rely_refl := fun _ _ w hw => ⟨.of_framed (.of_quiet (.refl w)), hw⟩
  rely_trans := fun _ _ _ _ _ h h' => ⟨h.keeps.trans h'.keeps, h'.opening⟩
  starts := fun _ _ a hw hstart => rg_mono (Keeping.rg_program a ⟨hw, hstart⟩)
    (fun _ _ _ h r hr => h r (by cases hr; rfl)) fun _ _ _ _ _ hr => nomatch hr
  inv := fun _ _ _ _ hw _ hkeeps => hkeeps.first hw
  compatible := fun _ _ _ _ hw _ hkeeps _ _ => ⟨hkeeps, hkeeps.first hw⟩
  post := fun _ _ _ _ _ _ hkeeps _ _ _ hpost r hr hcreates =>
    (hpost r hr hcreates).kept hkeeps.lawful.kept

/-- Turn 1 of every session is the opening turn of flow 1, and an answered creation tells
of it and of its synthesis. -/
structure OpenedByFlow1 (pool : RequestPool) : Prop where
  first : ∀ id, pool.state.turns id ≠ [] →
    ∃ row, turnRow pool.state id 1 = some row ∧ pool.state.OpeningRow id row
  answered : ∀ a r, a.Creates a.key → (a, .ok (.createSession r)) ∈ pool.ended →
    r.sessionId = ⟨a.key⟩ ∧ pool.state.SavedUnder ⟨a.key⟩ a.key .synthesis r.synthesis ∧
      ∃ row, turnRow pool.state ⟨a.key⟩ 1 = some row ∧ pool.state.OpeningRow ⟨a.key⟩ row ∧
        r.synthesis ∈ row.record.producedArtifacts ∧
        row.record.facilitatorReply = some r.facilitatorReply ∧
        row.record.delegation = r.delegation

theorem OpeningFirst.opening_of_turnRow {w : World} (h : OpeningFirst w) {id : SessionId}
    {row : TurnRow} (hrow : turnRow w id 1 = some row) : w.OpeningRow id row := by
  have hfound := List.find?_some hrow
  exact h.opening id row (List.mem_of_find?_eq_some hrow) (of_decide_eq_true hfound)

theorem reachable_openedByFlow1 {pool : RequestPool}
    (h : pool.Reachable requests turnsFollow {}) : OpenedByFlow1 pool := by
  have hholds := keepingContract_sound.holds openingFirst_init h
  have hinv : OpeningFirst pool.state := hholds.inv
  refine ⟨fun id hne => ?_, fun a r ha hanswer => ?_⟩
  · obtain ⟨row, hrow, hone⟩ := hinv.first id hne
    have hsome : (turnRow pool.state id 1).isSome :=
      List.find?_isSome.mpr ⟨row, hrow, decide_eq_true hone⟩
    obtain ⟨row', hrow'⟩ := Option.isSome_iff_exists.mp hsome
    exact ⟨row', hrow', hinv.opening_of_turnRow hrow'⟩
  · obtain ⟨_, hpost⟩ := hholds.ended hanswer
    have hcreated : pool.state.Created a.key r := hpost r rfl ha
    obtain ⟨artifacts, turn, hsaved, ⟨row, hrow, hreply, hdelegation⟩, rfl⟩ := hcreated
    have hopening := hinv.opening_of_turnRow hrow
    refine ⟨rfl, hsaved.synthesis, row, hrow, hopening, ?_, ?_, hdelegation⟩
    · obtain ⟨_, _, artifacts', _, _, rfl, hsaved'⟩ := hopening
      have hsame : artifacts.synthesis = artifacts'.synthesis :=
        hsaved.synthesis.unique hsaved'.synthesis
      simp [openingResponse, openingRecord, hsame]
    · obtain ⟨_, _, _, _, _, rfl, -⟩ := hopening
      simp only [openingRecord] at hreply
      simp [openingResponse, ← hreply, openingRecord]

namespace Scenario

theorem openedByFlow1_created : ∃ pool : RequestPool,
    pool.Reachable requests turnsFollow {} ∧ pool.state.turns ⟨1⟩ ≠ [] ∧
      OpenedByFlow1 pool := by
  have hcreated := Pool.Steps.alone (S := requests) (D := turnsFollow) (i := create) (s := {})
    create.choices [] (fun n => ⟨n, rfl⟩) nofun fun _ _ _ => trivial
  have hturns : (create.program.run create.choices {}).2.turns ⟨1⟩ ≠ [] := by decide +kernel
  exact ⟨_, hcreated, hturns, reachable_openedByFlow1 hcreated⟩

/-- The creation has inserted its session and reviews the story. -/
def visible : World := create.program.crash create.choices 6 {}

/-- An acceptance takes turn 1 of the session that is still being created. -/
theorem accepted_first : ∃ pool : RequestPool, pool.Reachable requests .free {} ∧
    ¬ OpenedByFlow1 pool := by
  obtain ⟨g, hvisible⟩ := Pool.Steps.advance (S := requests) (D := .free) (i := create)
    (p := create.program) create.choices [] []
    (fun n => ⟨n, rfl⟩) (fun _ _ _ => trivial) 6 .fresh {} []
  have haccepted := Pool.Steps.complete (S := requests) (D := .free) (i := accept 2 none)
    (p := (accept 2 none).program) (accept 2 none).choices []
    [⟨create, g, create.program.residual create.choices 6 {}⟩]
    (fun n => ⟨n, rfl⟩) (fun _ _ _ => trivial) .fresh visible []
  refine ⟨_, ((Relation.ReflTransGen.head ⟨none, .start create trivial⟩ hvisible).tail
    ⟨none, .start (accept 2 none) trivial⟩).trans haccepted, fun hopened => ?_⟩
  have hproducer : ((turnRow ((accept 2 none).result visible) ⟨1⟩ 1).any
      fun row => decide (row.producer = .turn 2)) = true := by decide +kernel
  obtain ⟨row, hrow, hturn⟩ := Option.any_eq_true _ _ |>.mp hproducer
  have hne : ((accept 2 none).result visible).turns ⟨1⟩ ≠ [] :=
    List.ne_nil_of_mem (List.mem_of_find?_eq_some hrow)
  obtain ⟨row', hrow', _, _, _, _, _, rfl, -⟩ := hopened.first ⟨1⟩ hne
  have hsame := hrow.symm.trans hrow'
  cases hsame
  cases of_decide_eq_true hturn

end Scenario
end StoryReview
