import StoryReview.Phases

/-!
# Repeated creations

While at most one creation of a key is past its claim step, and none works on once the
opening turn is stored by another, no creation harms the session, and the first answer
is the answer of every later one.
-/
namespace StoryReview
open Program Flows RecordsStore

/-- The claim of a key's creation. -/
abbrev World.creation (w : World) (key : IdempotencyKey) : Option ClaimRow :=
  w.claims (createSlot key)

/-! ## The contract -/

/-- The session of the key and its run stay as they are. -/
structure SparesSession (key : IdempotencyKey) (w w' : World) : Prop where
  session : ∀ s, w.core ⟨key⟩ = some s → w'.core ⟨key⟩ = some s
  run : ∀ run, w.storyRun ⟨key⟩ = some run → w'.storyRun ⟨key⟩ = some run

/-- Only a working creation changes its session, and only one underway its claim. -/
structure Spares (a : Attempt) (phase : Phase) (w w' : World) : Prop where
  lawful : Lawful w w'
  claims : ∀ key, ¬ a.Creates key → w'.creation key = w.creation key
  idle : ¬ phase.Underway → ∀ row, w.creation a.key = some row → w'.creation a.key = some row
  live : a.Creates a.key → phase ≠ .working → SparesSession a.key w w'

namespace Spares
variable {a : Attempt} {phase : Phase} {w w' : World}

theorem of_framed (h : Framed w w') : Spares a phase w w' := by
  refine ⟨.of_framed h, fun key _ => by rw [World.creation, h.claims], fun _ row hrow => ?_,
    fun _ _ => ⟨fun s hs => ?_, fun run hrun => ?_⟩⟩
  · rw [World.creation, h.claims]
    exact hrow
  · rw [h.core]
    exact hs
  · rw [World.storyRun, h.storyRuns]
    exact hrun

/-- A session request. -/
theorem of_session (hrequest : ∀ payload, a.request ≠ .createSession payload)
    (hlawful : Lawful w w') (hclaims : ∀ key, w'.creation key = w.creation key) :
    Spares a phase w w' :=
  ⟨hlawful, fun key _ => hclaims key, fun _ _ hrow => (hclaims a.key).trans hrow,
    fun ⟨_, payload, hcreates⟩ => absurd hcreates (hrequest payload)⟩

/-- A working creation. -/
theorem of_working (hphase : phase = .working) (hlawful : Lawful w w')
    (hclaims : ∀ key, key ≠ a.key → w'.creation key = w.creation key)
    {payload : CreateSessionRequest} (hrequest : a.request = .createSession payload) :
    Spares a phase w w' :=
  ⟨hlawful, fun key hother => hclaims key fun hkey => hother ⟨hkey.symm, payload, hrequest⟩,
    fun hidle => absurd (.inl hphase) hidle, fun _ hnot => absurd hphase hnot⟩

end Spares

/-- A creation underway relies on its claim being left alone. -/
structure Claimed (a : Attempt) (phase : Phase) (w w' : World) : Prop where
  lawful : Lawful w w'
  coherent : Coherent w'
  claim : a.Creates a.key → phase.Underway → ∀ row, w.creation a.key = some row →
    w'.creation a.key = some row

def sparing (a : Attempt) : Conduct Phase where
  observe := a.observe
  rely := Claimed a
  guar := Spares a

/-! ## Claim rows -/

section Claims
variable (w : World)

theorem creation_insertClaim {slot : ClaimSlot} (fingerprint : Fingerprint)
    {key : IdempotencyKey} (hslot : slot ≠ createSlot key) :
    (Idempotency.insertClaim slot fingerprint w).2.creation key = w.creation key := by
  unfold Idempotency.insertClaim
  split_ifs
  · rfl
  · rw [World.creation, World.claims_setClaim, if_neg hslot.symm]

theorem creation_released {slot : ClaimSlot} {key : IdempotencyKey}
    (hslot : slot ≠ createSlot key) :
    (Idempotency.released slot w).creation key = w.creation key := by
  rw [World.creation, World.claims_released, if_neg hslot.symm]

theorem creation_completed {slot : ClaimSlot} (response : CanonicalResponse)
    {key : IdempotencyKey} (hslot : slot ≠ createSlot key) :
    (Idempotency.completed slot response w).creation key = w.creation key := by
  rw [World.creation, World.claims_completed, if_neg hslot.symm]

theorem creation_sessionUpdated (id : SessionId) (u : SessionUpdate) (key : IdempotencyKey) :
    (sessionUpdated id u w).creation key = w.creation key := by
  rw [World.creation, World.claims_sessionUpdated]

theorem creation_insertTurn (row : TurnRow) (key : IdempotencyKey) :
    (insertTurn row w).2.creation key = w.creation key := by
  rw [insertTurn_snd]
  split_ifs <;> rfl

end Claims

namespace Sparing
variable {a : Attempt}

theorem keeps_coherent : (sparing a).Keeps fun _ w => Coherent w :=
  ⟨fun _ _ _ _ hrely => hrely.coherent, fun _ _ _ hK hframed =>
    ⟨.of_framed hframed, (Lawful.of_framed hframed).coherent hK⟩⟩

/-- Turn, finalize and abandon requests. -/
theorem sessionOutline (hrequest : ∀ payload, a.request ≠ .createSession payload) :
    SessionOutline a (sparing a) (fun _ w => Coherent w) (fun _ w => Coherent w)
      (fun _ w => Coherent w) (fun _ => True) (fun _ => True) := by
  have hslot := Attempt.slot_ne_createSlot hrequest
  have hdoes : ∀ {phase w w'}, Coherent w → Lawful w w' →
      (∀ key, w'.creation key = w.creation key) →
      (sparing a).Does (fun _ w => Coherent w) phase w w' := fun hw hlawful hclaims =>
    ⟨.of_session hrequest hlawful hclaims, hlawful.coherent hw⟩
  have hclaim : ∀ phase w c, Coherent w → (sparing a).Does (fun _ w => Coherent w) phase w
      (Idempotency.insertClaim a.slot a.fingerprint (w.tick c)).2 := fun phase w c hw =>
    hdoes hw (Lawful.insertClaim _ _ _).ticked fun key => creation_insertClaim _ _ (hslot key)
  exact {
    start := keeps_coherent
    leased := keeps_coherent
    isOpen := keeps_coherent
    weaken := fun _ _ h => h
    frame := fun _ _ _ h => .of_framed h
    acquire := by
      intro phase w c token w' hw h
      have hquiet := quiet_acquireStatement a.sessionId (w.tick c)
      rw [h] at hquiet
      exact keeps_coherent.frame phase w w' hw (.of_quiet ((quiet_tick w c).trans hquiet))
    claim := hclaim
    claimOpen := hclaim
    release := fun phase w c hw => .of_session hrequest (Lawful.released _ _).ticked
      fun key => creation_released _ (hslot key)
    read := fun _ _ _ hw _ _ => hw
    number := fun _ _ _ _ => trivial
    turn := fun phase w c row payload hw _ _ _ _ _ =>
      hdoes hw (Lawful.insertTurn _ _).ticked fun key => creation_insertTurn _ row key
    last := fun _ _ _ _ _ => trivial
    stamp := fun phase w c n references hw _ =>
      hdoes hw (Lawful.stamp _ _ _ _).ticked fun _ => rfl
    mark := fun phase w c u hw _ =>
      hdoes hw (Lawful.sessionUpdated _ _ _).ticked fun key => creation_sessionUpdated _ _ _ key
    close := fun phase w c u response hw _ => .of_session hrequest
      ((Lawful.sessionUpdated _ _ _).ticked.trans (.completed hslot _ _)) fun key =>
        (creation_completed _ _ (hslot key)).trans (creation_sessionUpdated _ _ _ key) }

/-! ### Creations -/

section Creations
variable {payload : CreateSessionRequest} {phase : Phase} {w w' : World}

/-- A creation that works has a claim to complete. -/
def Working (a : Attempt) (phase : Phase) (w : World) : Prop :=
  Coherent w ∧ phase = .working ∧ ∃ row, w.creation a.key = some row

/-- So has one that has stored or found the first turn. -/
def Opening (a : Attempt) (phase : Phase) (w : World) : Prop :=
  Coherent w ∧ phase.Underway ∧ ∃ row, w.creation a.key = some row

/-- The claim holds the answer. -/
def Answering (a : Attempt) (r : CreateSessionResponse) (w : World) : Prop :=
  ∃ fingerprint, w.creation a.key = some ⟨fingerprint, .completed, some (.created r)⟩

theorem Answering.lawful {r : CreateSessionResponse} (h : Answering a r w)
    (hlawful : Lawful w w') (hw : Coherent w) : Answering a r w' := by
  obtain ⟨fingerprint, hrow⟩ := h
  exact ⟨fingerprint, hlawful.answered _ _ hw hrow rfl⟩

theorem keeps_claiming (hrequest : a.request = .createSession payload) :
    (sparing a).Keeps (Claiming a) := by
  refine ⟨fun phase w w' hT hrely => hT.lawful hrequest hrely.lawful,
    fun phase w w' hT hframed => ⟨.of_framed hframed, ?_⟩⟩
  refine hT.step hrequest (.of_framed hframed) ?_
  rw [World.Opened, World.Opened, hframed.turns]
  exact id

/-- A statement of a working creation that stores no turn and keeps its claim. -/
theorem does_working (hrequest : a.request = .createSession payload)
    (hK : Working a phase w) (hlawful : Lawful w w') (hturns : w'.turns = w.turns)
    (hclaims : w'.claims = w.claims) : (sparing a).Does (Working a) phase w w' := by
  obtain ⟨hw, rfl, row, hrow⟩ := hK
  refine ⟨.of_working rfl hlawful (fun key _ => by rw [World.creation, hclaims]) hrequest,
    hlawful.coherent hw, a.observe_working hrequest ?_, row, ?_⟩
  · rw [World.Opened, World.Opened, hturns]
    exact id
  · rw [World.creation, hclaims]
    exact hrow

theorem keeps_working (hrequest : a.request = .createSession payload) :
    (sparing a).Keeps (Working a) := by
  refine ⟨fun phase w w' hK hrely => ?_, fun phase w w' hK hframed =>
    does_working hrequest hK (.of_framed hframed) hframed.turns hframed.claims⟩
  obtain ⟨-, hphase, row, hrow⟩ := hK
  exact ⟨hrely.coherent, hphase, row,
    hrely.claim ⟨rfl, payload, hrequest⟩ (.inl hphase) row hrow⟩

theorem keeps_opening (hrequest : a.request = .createSession payload) :
    (sparing a).Keeps (Opening a) := by
  refine ⟨fun phase w w' hO hrely => ?_, fun phase w w' hO hframed => ?_⟩
  · obtain ⟨-, hphase, row, hrow⟩ := hO
    exact ⟨hrely.coherent, hphase, row,
      hrely.claim ⟨rfl, payload, hrequest⟩ hphase row hrow⟩
  · obtain ⟨hw, hphase, row, hrow⟩ := hO
    refine ⟨.of_framed hframed, (Lawful.of_framed hframed).coherent hw,
      hphase.observe _ _, row, ?_⟩
    rw [World.creation, hframed.claims]
    exact hrow

theorem keeps_answering (r : CreateSessionResponse) :
    (sparing a).Keeps fun _ w => Coherent w ∧ Answering a r w := by
  refine ⟨fun phase w w' hZ hrely => ⟨hrely.coherent, hZ.2.lawful hrely.lawful hZ.1⟩,
    fun phase w w' hZ hframed => ⟨.of_framed hframed, ?_⟩⟩
  have hlawful := Lawful.of_framed hframed
  exact ⟨hlawful.coherent hZ.1, hZ.2.lawful hlawful hZ.1⟩

theorem slot_ne_other (hrequest : a.request = .createSession payload) {key : IdempotencyKey}
    (hkey : key ≠ a.key) : a.slot ≠ createSlot key := by
  rw [← Attempt.createSlot hrequest]
  rintro ⟨⟩
  exact hkey rfl

theorem createOutline (hrequest : a.request = .createSession payload) :
    CreateOutline a (sparing a) (fun phase w => Coherent w ∧ phase = .fresh) (Claiming a)
      (Working a) (Working a) (Opening a) (fun r _ w => Coherent w ∧ Answering a r w) where
  start := fun _ _ _ hS hrely => ⟨hrely.coherent, hS.2⟩
  claiming := keeps_claiming hrequest
  claimed := keeps_working hrequest
  pipeline := keeps_working hrequest
  opened := keeps_opening hrequest
  answered := keeps_answering
  frame := fun _ _ _ h => .of_framed h
  kept := fun _ _ _ h => h.lawful.kept
  claim := by
    intro phase w c hS
    have hslot := Attempt.createSlot hrequest
    have hlawful := (Lawful.insertClaim a.slot a.fingerprint (w.tick c)).ticked
    have hw := hlawful.coherent hS.1
    have hT := Claiming.first (w := w) hrequest hw hS.2
    refine ⟨⟨⟨hlawful, fun key hother => ?_, fun _ row hrow => ?_, fun _ _ => ?_⟩, hT⟩,
      fun hnew => ?_⟩
    · exact creation_insertClaim _ _ (slot_ne_other hrequest fun hkey =>
        hother ⟨hkey.symm, payload, hrequest⟩)
    · have htaken : (w.tick c).claims (createSlot a.key) = some row := hrow
      rw [← hslot, insertClaim_eq htaken]
      exact hrow
    · unfold Idempotency.insertClaim
      split_ifs <;> exact ⟨fun s hs => hs, fun run hrun => hrun⟩
    · have hrow := inserted_inProgress hnew
      refine ⟨hw, hT.working hrow rfl, ⟨a.fingerprint, .inProgress, none⟩, ?_⟩
      rw [World.creation, hslot]
      exact hrow
  proceed := by
    intro phase w row hT hrow hstate
    refine ⟨hT.coherent, hT.working hrow hstate, row, ?_⟩
    rw [World.creation, Attempt.createSlot hrequest]
    exact hrow
  replay := by
    intro phase w fingerprint r hT hrow
    rw [← Attempt.createSlot hrequest] at hrow
    exact ⟨hT.coherent, fingerprint, hrow⟩
  release := fun phase w c hK => .of_working hK.2.1 (Lawful.released _ _).ticked
    (fun key hkey => creation_released _ (slot_ne_other hrequest hkey)) hrequest
  storyRun := by
    intro phase w c record hK _ _
    refine does_working hrequest hK (Lawful.insertStoryRun _ _).ticked ?_ ?_ <;>
      · unfold insertStoryRun
        split_ifs <;> rfl
  session := by
    intro phase w c record hK hid hrun _
    have hkey : record.storyRunId.key = record.sessionId.key := by rw [hid, hrun]
    have hdoes : (sparing a).Does (Working a) phase w (insertSession record (w.tick c)).2 := by
      refine does_working hrequest hK (Lawful.insertSession hkey _).ticked ?_ ?_ <;>
        · unfold insertSession
          split_ifs <;> rfl
    exact ⟨hdoes, fun _ => hdoes.2⟩
  existing := by
    intro phase w row hK hrow
    have hid : row.record.core.sessionId = ⟨a.key⟩ :=
      World.sessionId_of_core (hK.1.core_of_run hrow)
    exact ⟨hid, fun _ => hK⟩
  turn := by
    intro phase w c correlationId output artifacts createdAt completedAt hP _
    obtain ⟨hw, hphase, row, hrow⟩ := hP
    have hlawful := (Lawful.insertTurn ⟨openingRecord ⟨a.key⟩ correlationId output artifacts
      createdAt completedAt, .createSession a.key⟩ (w.tick c)).ticked
    refine ⟨.of_working hphase hlawful (fun key _ => creation_insertTurn _ _ key) hrequest,
      hlawful.coherent hw, Phase.Underway.observe (.inl hphase) _ _, row, ?_⟩
    rw [creation_insertTurn]
    exact hrow
  complete := by
    intro phase w c r hO hcreated
    obtain ⟨hw, hphase, row, hrow⟩ := hO
    have hslot := Attempt.createSlot hrequest
    have hlawful := (Lawful.created (hcreated.kept (.tick w c))).ticked
    rw [hslot] at hlawful
    refine ⟨⟨hlawful, fun key hother => ?_, fun hidle => absurd hphase hidle, fun _ _ => ?_⟩,
      hlawful.coherent hw, row.requestFingerprint, ?_⟩
    · exact creation_completed _ _ (slot_ne_other hrequest fun hkey =>
        hother ⟨hkey.symm, payload, hrequest⟩)
    · unfold Idempotency.completed
      split <;> exact ⟨fun s hs => hs, fun run hrun => hrun⟩
    · have hrow' : (w.tick c).claims (createSlot a.key) = some row := hrow
      rw [World.creation, ← hslot, World.claims_completed, if_pos rfl, hrow']
      rfl
  park := fun phase w c hP => .of_working hP.2.1
    ((Lawful.sessionUpdated _ _ _).ticked.trans (.released _ _)) (fun key hkey =>
      (creation_released _ (slot_ne_other hrequest hkey)).trans
        (creation_sessionUpdated _ _ _ key)) hrequest

end Creations

end Sparing

/-! ## Runs -/

/-- At most one creation of a key is past its claim step, and it works only until the
opening turn is stored. -/
def oneCreation : Discipline Attempt Phase World Choice PyException Response where
  starts := fun _ _ _ => True
  moves := fun w others thread => ∀ key, thread.origin.Creates key →
    (thread.aux = .working → ¬ w.Opened key) ∧
      (thread.aux.Underway → ∀ other ∈ others, other.origin.Creates key →
        ¬ other.aux.Underway)

def sparingContract : Contract Attempt Phase World PyException Response where
  inv := Coherent
  rely := Claimed
  guar := Spares
  post := fun a _ result w => ∀ r, result = .ok (.createSession r) → a.Creates a.key →
    Sparing.Answering a r w

theorem Sparing.rg_program {A : Choice → Prop} (a : Attempt) {w : World} (hw : Coherent w) :
    (sparing a).rg A a.program (fun response _ w => ∀ r, response = .createSession r →
      a.Creates a.key → Answering a r w) (fun _ _ _ => True) .fresh w := by
  by_cases hrequest : ∃ payload, a.request = .createSession payload
  · obtain ⟨payload, hrequest⟩ := hrequest
    exact rg_mono ((createOutline hrequest).rg_program hrequest ⟨hw, rfl⟩)
      (fun _ _ _ hZ r hr _ => (hZ r hr).2) fun _ _ _ _ => trivial
  · have hno := not_exists.mp hrequest
    exact rg_mono ((sessionOutline hno).rg_program hno hw)
      (fun _ _ _ _ r _ hcreates => absurd hcreates.2 hrequest) fun _ _ _ _ => trivial

theorem sparingContract_sound : sparingContract.Sound requests oneCreation where
  rely_refl := fun _ _ w hw => ⟨.refl w, hw, fun _ _ _ hrow => hrow⟩
  rely_trans := fun _ _ _ _ _ h h' => ⟨h.lawful.trans h'.lawful, h'.coherent,
    fun hcreates hphase row hrow =>
      h'.claim hcreates hphase row (h.claim hcreates hphase row hrow)⟩
  starts := fun _ _ a hw _ => rg_mono (Sparing.rg_program a hw)
    (fun _ _ _ h r hr => h r (by cases hr; rfl)) fun _ _ _ _ _ hr => nomatch hr
  inv := fun _ _ _ _ hw _ hspares => hspares.lawful.coherent hw
  compatible := by
    intro w others thread w' hw hmoves hspares other hother
    refine ⟨hspares.lawful, hspares.lawful.coherent hw, fun hcreates hphase row hrow => ?_⟩
    by_cases hsame : thread.origin.Creates other.origin.key
    · have hidle : ¬ thread.aux.Underway := fun hunderway =>
        (hmoves _ hsame).2 hunderway other hother hcreates hphase
      rw [← hsame.1] at hrow ⊢
      exact hspares.idle hidle row hrow
    · exact (hspares.claims _ hsame).trans hrow
  post := fun _ _ _ _ hw _ hspares _ _ _ hpost r hr hcreates =>
    (hpost r hr hcreates).lawful hspares.lawful hw

/-- What the creations of a key do from here on under a discipline: none of their steps
parks the session or retires its run once the opening turn is stored, and an answer stays
the completed claim and the answer of all of them. -/
structure SparesLive (D : Discipline Attempt Phase World Choice PyException Response)
    (key : IdempotencyKey) (pool : RequestPool) : Prop where
  session : pool.state.Opened key → ∀ thread pool', thread.origin.Creates key →
    Pool.Step requests D (some thread) pool pool' → SparesSession key pool.state pool'.state
  answer : ∀ a r, a.Creates key → (a, .ok (.createSession r)) ∈ pool.ended →
    ∃ row, pool.state.creation key = some row ∧ row.state = .completed ∧
      row.canonicalResponse = some (.created r) ∧
      ∀ pool', Pool.Steps requests D pool pool' → pool'.state.creation key = some row ∧
        ∀ a' r', a'.Creates key → (a', .ok (.createSession r')) ∈ pool'.ended → r' = r

/-- A completed claim stays. -/
theorem creation_kept {pool pool' : RequestPool} (h : pool.Reachable requests oneCreation {})
    (hsteps : Pool.Steps requests oneCreation pool pool') {key : IdempotencyKey} {row : ClaimRow}
    (hrow : pool.state.creation key = some row) (hdone : row.state = .completed) :
    pool'.state.creation key = some row := by
  induction hsteps with
  | refl => exact hrow
  | @tail mid last hmid hlast ih =>
      obtain ⟨mover, hlast⟩ := hlast
      cases mover with
      | none =>
          rw [hlast.state_eq]
          exact ih
      | some thread =>
          have hholds := sparingContract_sound.holds coherent_init (h.trans hmid)
          obtain ⟨-, -, hspares⟩ := hholds.guarantee sparingContract_sound hlast
          exact hspares.lawful.answered key row hholds.inv ih hdone

theorem answer_claimed {pool : RequestPool} (h : pool.Reachable requests oneCreation {})
    {key : IdempotencyKey} {a : Attempt} {r : CreateSessionResponse} (ha : a.Creates key)
    (hanswer : (a, .ok (.createSession r)) ∈ pool.ended) :
    ∃ fingerprint, pool.state.creation key =
      some ⟨fingerprint, .completed, some (.created r)⟩ := by
  have hholds := sparingContract_sound.holds coherent_init h
  obtain ⟨_, hpost⟩ := hholds.ended hanswer
  obtain ⟨rfl, hcreates⟩ := ha
  exact hpost r rfl ⟨rfl, hcreates⟩

/-- Repeated creations spare a live session. -/
theorem creations_spareLive {pool : RequestPool}
    (h : pool.Reachable requests oneCreation {}) (key : IdempotencyKey) :
    SparesLive oneCreation key pool where
  session hopened thread pool' hcreates hstep := by
    have hholds := sparingContract_sound.holds coherent_init h
    obtain ⟨-, ⟨others, hmoves⟩, hspares⟩ := hholds.guarantee sparingContract_sound hstep
    have hphase : thread.aux ≠ .working := fun hworking =>
      (hmoves key hcreates).1 hworking hopened
    obtain ⟨rfl, hrequest⟩ := hcreates
    exact hspares.live ⟨rfl, hrequest⟩ hphase
  answer a r ha hanswer := by
    obtain ⟨fingerprint, hrow⟩ := answer_claimed h ha hanswer
    refine ⟨_, hrow, rfl, rfl, fun pool' hsteps => ?_⟩
    have hkept := creation_kept h hsteps hrow rfl
    refine ⟨hkept, fun a' r' ha' hanswer' => ?_⟩
    obtain ⟨fingerprint', hrow'⟩ := answer_claimed (h.trans hsteps) ha' hanswer'
    rw [hkept] at hrow'
    cases hrow'
    rfl

namespace Scenario

theorem creations_spareLive_created : ∃ pool : RequestPool,
    pool.Reachable requests oneCreation {} ∧ pool.state.Opened 1 ∧
      SparesLive oneCreation 1 pool := by
  have hcreated := Pool.Steps.follow (S := requests) (D := oneCreation) (i := create)
    (P := fun phase w => decide (phase = .working → ¬ w.Opened 1))
    (p := create.program) create.choices [] [] (fun n => ⟨n, rfl⟩)
    (fun g w p h key hkey => by
      obtain rfl : (1 : IdempotencyKey) = key := hkey.1
      exact ⟨of_decide_eq_true h, fun _ other hother => by cases hother⟩)
    (g := .fresh) (s := {}) (by decide +kernel) []
  have hreach := Relation.ReflTransGen.head ⟨none, .start create trivial⟩ hcreated
  exact ⟨_, hreach, by decide +kernel, creations_spareLive hreach 1⟩

/-- The creation of the session dies when it has stored the opening turn. -/
def opened : World := create.program.crash create.choices 20 {}

/-- The same request again; its reviewers find other words. -/
def createAgain : Attempt :=
  attempt create.request 1 { steady with reviewer := fun p _ =>
    { perspective := p, storyId := "story-01", summary := "Something to add." } } none

/-- The retry is about to park the session: its reviews are not those under the key. -/
def rejected : World := createAgain.program.crash createAgain.choices 15 opened

theorem createAgain_parks : ∃ pool : RequestPool, pool.Reachable requests .free {} ∧
    ¬ SparesLive .free 1 pool := by
  obtain ⟨g, hopened⟩ := Pool.Steps.advance (S := requests) (D := .free) (i := create)
    (p := create.program) create.choices [] []
    (fun n => ⟨n, rfl⟩) (fun _ _ _ => trivial) 20 .fresh {} []
  obtain ⟨g', hrejected⟩ := Pool.Steps.advance (S := requests) (D := .free) (i := createAgain)
    (p := createAgain.program) createAgain.choices [] []
    (fun n => ⟨n, rfl⟩) (fun _ _ _ => trivial) 15 .fresh opened []
  obtain ⟨g'', hparks⟩ := Pool.Step.next (S := requests) (D := .free) (i := createAgain)
    (p := createAgain.program.residual createAgain.choices 15 opened)
    (c := createAgain.choices 15) [] [] (Option.isNone_iff_eq_none.mp
      (by decide +kernel)) ⟨15, rfl⟩ (g := g') (s := rejected) trivial []
  refine ⟨_, ((Relation.ReflTransGen.head ⟨none, .start create trivial⟩ hopened).tail
    ⟨none, .crash _⟩).trans (.head ⟨none, .start createAgain trivial⟩ hrejected),
    fun hspares => ?_⟩
  have hstored : rejected.Opened 1 := by decide +kernel
  have hsession := (hspares.session hstored _ _ ⟨rfl, _, rfl⟩ hparks).session
  have hactive : (rejected.core ⟨1⟩).any (fun s => decide (s.state = .active)) = true := by
    decide +kernel
  have hparked : ((createAgain.program.crash createAgain.choices 16 opened).core ⟨1⟩).all
      (fun s => decide (s.state = .parked)) = true := by decide +kernel
  obtain ⟨s, hs, hstate⟩ := Option.any_eq_true _ _ |>.mp hactive
  have hs' : (createAgain.program.crash createAgain.choices 16 opened).core ⟨1⟩ = some s :=
    hsession s hs
  rw [hs', Option.all_some, decide_eq_true_eq, of_decide_eq_true hstate] at hparked
  cases hparked

end Scenario
end StoryReview
