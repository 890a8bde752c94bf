import Mathlib.Data.Set.Finite.Basic
import StoryReview.OpeningConduct
import StoryReview.Abandonment

/-!
# No run without a session

A creation inserts the run and the session two statements apart. Where no process dies
between them, every run that is not terminal has an open session, so that the index over
open runs locks no story for good. The steps of a creation are counted to tell where it
dies.
-/
namespace StoryReview
open Program Flows RecordsStore

/-! ## Sessions stay -/

/-- A run keeps its session. -/
def SessionsStay (w w' : World) : Prop := ∀ run, w.HasSession run → w'.HasSession run

namespace SessionsStay
variable {w w' : World}

theorem of_cores (h : w'.cores = w.cores) : SessionsStay w w' := by
  intro run hrun
  rw [World.HasSession, h]
  exact hrun

theorem of_framed (h : Framed w w') : SessionsStay w w' := of_cores h.cores

theorem of_quiet (h : Quiet w w') : SessionsStay w w' := of_cores h.cores

theorem sessionUpdated (id : SessionId) (u : SessionUpdate) (w : World) :
    SessionsStay w (RecordsStore.sessionUpdated id u w) :=
  fun _ hrun => (World.hasSession_sessionUpdated _).mpr hrun

end SessionsStay

section Moves
variable {A : Choice → Prop}

theorem staying_statement {α : Type} {f : World → α × World}
    (h : ∀ w, SessionsStay w (f w).2) : (statement f).Moves A SessionsStay :=
  moves_statement fun w c run hrun => h _ run (SessionsStay.of_quiet (quiet_tick w c) run hrun)

theorem staying_execute {f : World → World} (h : ∀ w, SessionsStay w (f w)) :
    (execute f).Moves A SessionsStay := staying_statement h

theorem staying_initialPipeline (story : StoryDetail) (run : RunId) (sessionId : SessionId)
    (key : IdempotencyKey) (correlationId : Uuid) :
    (initialPipeline story run sessionId key correlationId).Moves A SessionsStay := by
  have hquiet : ∀ {α : Type} {p : Orchestration α}, p.Moves A Quiet → p.Moves A SessionsStay :=
    fun hp => hp.mono fun _ _ => .of_quiet
  unfold initialPipeline
  refine moves_bind ((moves_openingArtifacts _ _ _ _ _).mono fun _ _ h =>
    .of_framed (Drafting.framed h)) fun artifacts => ?_
  refine moves_bind (hquiet (quiet_setProcessingStage _ _)) fun _ => ?_
  refine moves_bind (hquiet (quiet_openingOutput _ _ _ _ _ _)) fun output => ?_
  refine moves_bind (hquiet quiet_now) fun createdAt => ?_
  refine moves_bind (hquiet quiet_now) fun completedAt => ?_
  refine moves_bind ?_ fun turn => ?_
  · refine moves_bind (moves_ofExcept _) fun record => ?_
    refine moves_bind (staying_statement fun w => ?_) fun inserted => ?_
    · rw [insertTurn_snd]
      split_ifs <;> exact .of_cores rfl
    · split
      · exact moves_ret _
      · refine moves_bind (hquiet (quiet_getTurn _ _)) fun existing => ?_
        split
        · exact moves_ret _
        · exact moves_raise _
  refine moves_bind (hquiet (quiet_touchSession _)) fun _ => ?_
  refine moves_bind (moves_ofExcept _) fun response => ?_
  refine moves_bind (staying_execute fun w =>
    .of_cores (World.sameButClaims_completed _ _ _).cores) fun _ => ?_
  exact moves_bind (hquiet (quiet_setProcessingStage _ _)) fun _ => moves_ret _

theorem staying_pipelineFailed (sessionId : SessionId) (key : IdempotencyKey)
    (e : PyException) : (pipelineFailed sessionId key e).Moves A SessionsStay := by
  unfold pipelineFailed
  refine moves_bind ((quiet_setProcessingStage _ _).mono fun _ _ => .of_quiet) fun _ => ?_
  split
  · split_ifs
    · exact moves_raise _
    · refine moves_bind (staying_execute fun w run hrun => ?_) fun _ => moves_raise _
      exact SessionsStay.of_cores (World.sameButClaims_released _ _).cores run
        (SessionsStay.sessionUpdated _ _ w run hrun)
  · exact moves_raise _

end Moves

/-! ## The inserts of a creation -/

/-- The run of the key has a session if it exists. -/
def World.Paired (w : World) (key : IdempotencyKey) : Prop :=
  (w.storyRun ⟨key⟩).isSome → w.HasSession ⟨key⟩

/-- Counting the steps of a program that runs alone. -/
def counting (I : ℕ → World → Prop) : Conduct ℕ where
  observe := fun n _ _ => n + 1
  rely := fun _ => Eq
  guar := fun n _ w' => I (n + 1) w'

namespace Attempt

/-- The statements of the claim step: the insert, and the read of a claim that exists. -/
def claimSteps (a : Attempt) (w : World) : ℕ := if (w.claims a.slot).isSome then 2 else 1

/-- The process of a creation dies after it has inserted the run and before it inserts
the session: claim, story, clock and run come before, the clock and the session after. -/
def DiesBetweenInserts (a : Attempt) (w : World) : Prop :=
  (∃ payload, a.request = .createSession payload) ∧ w.storyRun ⟨a.key⟩ = none ∧
    (a.crashAfter = some (a.claimSteps w + 3) ∨ a.crashAfter = some (a.claimSteps w + 4))

end Attempt

section Inserts
variable {a : Attempt} {payload : CreateSessionRequest} {w w' : World} {n k : ℕ}
variable {A : Choice → Prop}

/-- The run does not exist yet. -/
structure Unborn (key : IdempotencyKey) (w : World) : Prop where
  run : w.storyRun ⟨key⟩ = none
  keyed : ∀ s ∈ w.cores, s.storyRunId.key = s.sessionId.key

namespace Unborn
variable {key : IdempotencyKey}

theorem paired (h : Unborn key w) : w.Paired key := by
  rw [World.Paired, h.run]
  nofun

theorem of_same (h : Unborn key w) (hruns : w'.storyRuns = w.storyRuns)
    (hcores : w'.cores = w.cores) : Unborn key w' := by
  refine ⟨?_, hcores ▸ h.keyed⟩
  rw [World.storyRun, hruns]
  exact h.run

theorem quiet (h : Unborn key w) (hq : Quiet w w') : Unborn key w' :=
  h.of_same hq.storyRuns hq.cores

end Unborn

/-- The bound on the states of a counted creation. -/
abbrev Bounded (key : IdempotencyKey) (k n : ℕ) (w : World) : Prop :=
  w.Paired key ∨ n = k + 3 ∨ n = k + 4

theorem bounded_statement {α : Type} {key : IdempotencyKey} {f : World → α × World}
    {Q : α → ℕ → World → Prop} {E : PyException → ℕ → World → Prop}
    (hf : ∀ c, Bounded key k (n + 1) (f (w.tick c)).2 ∧
      Q (f (w.tick c)).1 (n + 1) (f (w.tick c)).2) :
    (counting (Bounded key k)).rg A (statement f) Q E n w := by
  rintro c v - rfl
  exact hf c

theorem bounded_read {α : Type} {key : IdempotencyKey} {f : World → α}
    {Q : α → ℕ → World → Prop} {E : PyException → ℕ → World → Prop}
    (hf : ∀ c, Bounded key k (n + 1) (w.tick c) ∧ Q (f (w.tick c)) (n + 1) (w.tick c)) :
    (counting (Bounded key k)).rg A (query f) Q E n w :=
  bounded_statement hf

/-- Nothing happens to the tables of runs and sessions. -/
theorem bounded_query {α : Type} {key : IdempotencyKey} {f : World → α}
    {Q : α → ℕ → World → Prop} {E : PyException → ℕ → World → Prop} (hw : Unborn key w)
    (hQ : ∀ w', Quiet w w' → Unborn key w' → Q (f w') (n + 1) w') :
    (counting (Bounded key k)).rg A (query f) Q E n w :=
  bounded_statement fun c =>
    ⟨.inl (hw.quiet (quiet_tick w c)).paired,
      hQ _ (quiet_tick w c) (hw.quiet (quiet_tick w c))⟩

theorem bounded_claim (hw : Unborn a.key w) (hk : k = a.claimSteps w) :
    (counting (Bounded a.key k)).rg A (Idempotency.claim a.slot a.fingerprint)
      (fun _ n w => n = k ∧ Unborn a.key w) (fun _ _ w => w.Paired a.key) 0 w := by
  refine (rg_bind _ _).mpr (bounded_statement fun c => ?_)
  have htick := hw.quiet (quiet_tick w c)
  rw [Attempt.claimSteps] at hk
  cases hclaim : w.claims a.slot with
  | none =>
      have htick' : (w.tick c).claims a.slot = none := hclaim
      rw [hclaim] at hk
      rw [insertClaim_new htick']
      have hset : Unborn a.key ((w.tick c).setClaim a.slot
        (some ⟨a.fingerprint, .inProgress, none⟩)) := htick.of_same rfl rfl
      exact ⟨.inl hset.paired, hk.symm, hset⟩
  | some row =>
      have htick' : (w.tick c).claims a.slot = some row := hclaim
      rw [hclaim] at hk
      rw [insertClaim_eq htick']
      refine ⟨.inl htick.paired, (rg_bind _ _).mpr (bounded_query htick fun w' _ hw' => ?_)⟩
      split
      · exact hw'.paired
      · split_ifs
        · exact hw'.paired
        · split
          · exact ⟨hk.symm, hw'⟩
          · exact ⟨hk.symm, hw'⟩

theorem bounded_getStory (hw : Unborn a.key w) (storyId : StoryId) (correlationId : Uuid) :
    (counting (Bounded a.key k)).rg A (getStory storyId correlationId)
      (fun _ m w => m = n + 1 ∧ Unborn a.key w) (fun _ _ w => w.Paired a.key) n w := by
  refine (rg_tryCatch _ _).mpr ((rg_atomicExcept _).mpr ?_)
  rintro c v - rfl
  have htick := hw.quiet (quiet_tick w c)
  split
  · refine ⟨.inl htick.paired, nofun, fun e _ => ?_⟩
    split <;> exact htick.paired
  · exact ⟨.inl htick.paired, fun _ _ => ⟨rfl, htick⟩, nofun⟩

theorem bounded_createStoryRunOrGet (hw : Unborn a.key w) (hn : n + 1 = k + 3)
    {record : StoryRunRecord} (hid : record.storyRunId = ⟨a.key⟩) :
    (counting (Bounded a.key k)).rg A (createStoryRunOrGet record)
      (fun _ m w => m = k + 3 ∧ ∀ s ∈ w.cores, s.storyRunId.key = s.sessionId.key)
      (fun _ _ w => w.Paired a.key) n w := by
  refine (rg_bind _ _).mpr (bounded_statement fun c => ⟨.inr (.inl hn), ?_⟩)
  have htick := hw.quiet (quiet_tick w c)
  have hlost : ∀ {Q : StoryRunRecord → ℕ → World → Prop}
      {next : Option StoryRunRecord → Orchestration StoryRunRecord},
      (∀ w' : World, w'.Paired a.key → (counting (Bounded a.key k)).rg A (next none) Q
        (fun _ _ w => w.Paired a.key) (n + 1 + 1) w') →
      (counting (Bounded a.key k)).rg A
        ((query fun w => w.storyRun record.storyRunId).bind next) Q
        (fun _ _ w => w.Paired a.key) (n + 1) (w.tick c) := by
    intro Q next hnext
    refine (rg_bind _ _).mpr (bounded_query htick fun w' _ hw' => ?_)
    rw [hid, hw'.run]
    exact hnext w' hw'.paired
  unfold insertStoryRun
  split_ifs
  · exact hlost fun _ hpaired => hpaired
  · exact hlost fun _ hpaired => hpaired
  · exact ⟨hn, htick.keyed⟩

/-- From the session insert on the run has its session. -/
theorem bounded_staying {α : Type} {key : IdempotencyKey} {p : Orchestration α}
    (hp : p.Moves A SessionsStay) (hw : w.HasSession ⟨key⟩) :
    (counting (Bounded key k)).rg A p (fun _ _ w => w.Paired key) (fun _ _ w => w.Paired key)
      n w := by
  refine rg_mono (hp.rg (J := fun _ w => w.HasSession ⟨key⟩) (fun _ w w' hs hrely => ?_)
    (fun _ _ _ hs hstay => ⟨.inl fun _ => hstay _ hs, hstay _ hs⟩) hw)
    (fun _ _ _ hs _ => hs) fun _ _ _ hs _ => hs
  have hsame : w = w' := hrely
  exact hsame ▸ hs

theorem hasSession_insertSession (record : SessionRecord) {key : IdempotencyKey}
    (hkeyed : ∀ s ∈ w.cores, s.storyRunId.key = s.sessionId.key)
    (hid : record.sessionId = ⟨key⟩) (hrun : record.storyRunId = ⟨key⟩) :
    (insertSession record w).2.HasSession ⟨key⟩ := by
  unfold insertSession
  split_ifs with hany
  · obtain ⟨row, hrow, hmatch⟩ := List.any_eq_true.mp hany
    have hmem : row.record.core ∈ w.cores := List.mem_map_of_mem hrow
    refine ⟨row.record.core, hmem, ?_⟩
    rcases of_decide_eq_true hmatch with hsession | hsame
    · have hkey : row.record.core.storyRunId.key = row.record.core.sessionId.key :=
        hkeyed _ hmem
      simp only [SessionRecord.core] at hkey
      rw [hsession, hid] at hkey
      exact congrArg RunId.mk hkey
    · exact hsame.trans hrun
  · refine ⟨record.core, ?_, hrun⟩
    simp [World.cores]

theorem bounded_postSession (hrequest : a.request = .createSession payload)
    (hw : Unborn a.key w) (hk : k = a.claimSteps w) :
    (counting (Bounded a.key k)).rg A (postSession payload a.key a.correlationId a.userId)
      (fun _ _ w => w.Paired a.key) (fun _ _ w => w.Paired a.key) 0 w := by
  have hfingerprint : Fingerprint.createSession payload a.userId = a.fingerprint := by
    rw [Attempt.fingerprint, hrequest]
  refine (rg_tryCatch _ _).mpr (rg_mono (Q := fun _ _ w => w.Paired a.key)
    (E := fun _ _ w => w.Paired a.key) ?_ (fun _ _ _ h => h) fun e n w h => ?_)
  swap
  · split <;> exact h
  unfold runCreateSession
  rw [Attempt.createSlot hrequest, hfingerprint]
  refine (rg_bind _ _).mpr (rg_mono (bounded_claim hw hk) ?_ fun _ _ _ h => h)
  rintro claim n w ⟨hn, hw⟩
  split
  · exact (rg_ofExcept _).mpr ⟨fun _ _ => hw.paired, fun _ _ => hw.paired⟩
  · exact hw.paired
  · exact hw.paired
  · refine (rg_bind _ _).mpr (rg_mono (bounded_getStory hw _ _) ?_ fun _ _ _ h => h)
    rintro story m w ⟨rfl, hw⟩
    refine (rg_bind _ _).mpr (bounded_query hw fun w _ hw => ?_)
    refine (rg_bind _ _).mpr (rg_mono (bounded_createStoryRunOrGet hw (by omega) rfl) ?_
      fun _ _ _ h => h)
    rintro run m w ⟨rfl, hkeyed⟩
    refine (rg_bind _ _).mpr (bounded_read (f := World.clock) fun c =>
      ⟨.inr (.inr rfl), ?_⟩)
    refine (rg_bind _ _).mpr ((rg_bind _ _).mpr (bounded_statement fun c' => ?_))
    let record : SessionRecord := {
      sessionId := ⟨a.key⟩
      storyRunId := ⟨a.key⟩
      storyId := story.storyId
      userId := a.userId
      state := .active
      requestedFormats := payload.requestedFormats
      facilitatorTurnCount := 1
      createdAt := (w.tick c).clock
      updatedAt := (w.tick c).clock }
    have hsession : (insertSession record ((w.tick c).tick c')).2.HasSession ⟨a.key⟩ :=
      hasSession_insertSession record hkeyed rfl rfl
    refine ⟨.inl fun _ => hsession, ?_⟩
    refine (rg_bind _ _).mp (bounded_staying (moves_bind ?_ fun session => ?_) hsession)
    · split_ifs
      · exact moves_ret _
      · refine moves_bind ((quiet_query _).mono fun _ _ => .of_quiet) fun existing => ?_
        split
        · exact moves_ofExcept _
        · exact moves_raise _
    · split_ifs
      · exact moves_bind (staying_execute fun w =>
          .of_cores (World.sameButClaims_released _ _).cores) fun _ => moves_raise _
      · exact moves_tryCatch (staying_initialPipeline _ _ _ _ _)
          fun e => staying_pipelineFailed _ _ e

/-- A creation that does not die between its inserts leaves its run a session. -/
theorem Attempt.paired (hrequest : a.request = .createSession payload)
    (hw : Unborn a.key w) (hlives : ¬ a.DiesBetweenInserts w) : (a.result w).Paired a.key := by
  have hadmits : ∀ n, a.Admits (a.choices n) := fun n => ⟨n, rfl⟩
  have hbound : (counting (Bounded a.key (a.claimSteps w))).rg a.Admits a.program
      (fun _ _ w => w.Paired a.key) (fun _ _ w => w.Paired a.key) 0 w := by
    unfold Attempt.program
    rw [hrequest]
    exact (rg_bind _ _).mpr (rg_mono (bounded_postSession hrequest hw rfl)
      (fun _ _ _ h => h) fun _ _ _ h => h)
  unfold Attempt.result
  cases hcrash : a.crashAfter with
  | none =>
      exact rg_run (I := Bounded a.key (a.claimSteps w)) (F := fun w => w.Paired a.key) hbound
        hadmits
  | some n =>
      have hstates := rg_crash (I := Bounded a.key (a.claimSteps w))
        (F := fun w => w.Paired a.key) hbound (.inl hw.paired) hadmits n
      rcases hstates with hpaired | hpaired | hdies
      · exact hpaired
      · exact hpaired
      · refine absurd ⟨⟨payload, hrequest⟩, hw.run, ?_⟩ hlives
        rw [hcrash]
        simp only [Option.some.injEq]
        omega

end Inserts

/-! ## Runs -/

/-- Every run has a session. -/
def AllPaired (w : World) : Prop := ∀ run ∈ w.storyRuns, w.HasSession run.storyRunId

section Steps
variable {a : Attempt} {w₀ w w' : World}

/-- A step inserts no run but that of a creation. -/
theorem Commit.newRun (hc : Commit a w₀ w w') {run' : StoryRunRecord}
    (hrun : run' ∈ w'.storyRuns) : (∃ run ∈ w.storyRuns, run.storyRunId = run'.storyRunId) ∨
      (run'.storyRunId = ⟨a.key⟩ ∧ ∃ payload, a.request = .createSession payload) := by
  have hsame : ∀ {v : World}, v.storyRuns = w.storyRuns → run' ∈ v.storyRuns →
      (∃ run ∈ w.storyRuns, run.storyRunId = run'.storyRunId) ∨
        (run'.storyRunId = ⟨a.key⟩ ∧ ∃ payload, a.request = .createSession payload) :=
    fun heq hmem => .inl ⟨run', heq ▸ hmem, rfl⟩
  have hupdate : ∀ {s : SessionRecord} {u : SessionUpdate}, w.core a.sessionId = some s →
      run' ∈ (sessionUpdated a.sessionId u w).storyRuns →
      (∃ run ∈ w.storyRuns, run.storyRunId = run'.storyRunId) ∨
        (run'.storyRunId = ⟨a.key⟩ ∧ ∃ payload, a.request = .createSession payload) := by
    intro s u hs hmem
    obtain ⟨run, hmem, hid, -⟩ := World.mem_storyRuns_sessionUpdated hs hmem
    exact .inl ⟨run, hmem, hid.symm⟩
  have hcompleted : ∀ {slot : ClaimSlot} {response : CanonicalResponse} {v : World},
      (Idempotency.completed slot response v).storyRuns = v.storyRuns := by
    intro slot response v
    unfold Idempotency.completed
    split <;> rfl
  have hreleased : ∀ {slot : ClaimSlot} {v : World},
      (Idempotency.released slot v).storyRuns = v.storyRuns := by
    intro slot v
    unfold Idempotency.released
    split <;> rfl
  cases hc with
  | quiet hq => exact hsame hq.storyRuns hrun
  | draft _ hsaves =>
      obtain ⟨_, _, _, _, _, _, rfl⟩ := hsaves
      exact hsame rfl hrun
  | claim => exact hsame rfl hrun
  | release => exact hsame hreleased hrun
  | @storyRun payload record hrequest hrecord _ =>
      rcases List.mem_append.mp hrun with hrun | hrun
      · exact .inl ⟨run', hrun, rfl⟩
      · rw [List.mem_singleton.mp hrun]
        exact .inr ⟨hrecord.1, payload, hrequest⟩
  | session => exact hsame rfl hrun
  | turn => exact hsame rfl hrun
  | mark hs => exact hupdate hs hrun
  | finalReview => exact hsame rfl hrun
  | report => exact hsame rfl hrun
  | stamp => exact hsame rfl hrun
  | close hs =>
      rw [hcompleted] at hrun
      exact hupdate hs hrun
  | created => exact hsame hcompleted hrun
  | parkFailed _ hs =>
      rw [hreleased] at hrun
      exact hupdate hs hrun

theorem Commit.sessionsStay (hc : Commit a w₀ w w') : SessionsStay w w' := by
  cases hc with
  | quiet hq => exact .of_quiet hq
  | draft _ hsaves =>
      obtain ⟨_, _, _, _, _, _, rfl⟩ := hsaves
      exact .of_cores rfl
  | claim => exact .of_cores rfl
  | release => exact .of_cores (World.sameButClaims_released _ _).cores
  | storyRun => exact .of_cores rfl
  | session =>
      rintro run ⟨s, hs, hrun⟩
      refine ⟨s, ?_, hrun⟩
      simp only [World.cores, List.map_append, List.mem_append]
      exact .inl hs
  | turn => exact .of_cores rfl
  | mark => exact .sessionUpdated _ _ _
  | finalReview => exact .of_cores rfl
  | report => exact .of_cores rfl
  | stamp => exact .of_cores rfl
  | close =>
      intro run hrun
      exact SessionsStay.of_cores (World.sameButClaims_completed _ _ _).cores run
        (SessionsStay.sessionUpdated _ _ _ run hrun)
  | created => exact .of_cores (World.sameButClaims_completed _ _ _).cores
  | parkFailed =>
      intro run hrun
      exact SessionsStay.of_cores (World.sameButClaims_released _ _).cores run
        (SessionsStay.sessionUpdated _ _ _ run hrun)

theorem Evolves.sessionsStay (h : Evolves a w₀ w w') : SessionsStay w w' := by
  induction h with
  | refl => exact fun _ hrun => hrun
  | tail _ hc ih => exact fun run hrun => hc.sessionsStay run (ih run hrun)

theorem Evolves.newRun (h : Evolves a w₀ w w') {run' : StoryRunRecord}
    (hrun : run' ∈ w'.storyRuns) : (∃ run ∈ w.storyRuns, run.storyRunId = run'.storyRunId) ∨
      (run'.storyRunId = ⟨a.key⟩ ∧ ∃ payload, a.request = .createSession payload) := by
  induction h generalizing run' with
  | refl => exact .inl ⟨run', hrun, rfl⟩
  | tail _ hc ih =>
      rcases hc.newRun hrun with ⟨run, hrun, hid⟩ | hown
      · exact hid ▸ ih hrun
      · exact .inr hown

/-- An attempt that does not die between the inserts of a creation pairs every run. -/
theorem Attempt.allPaired (h : AllPaired w) (hw : Inv w)
    (hlives : ¬ a.DiesBetweenInserts w) : AllPaired (a.result w) := by
  intro run' hrun'
  have hevolves := a.evolves hw
  rcases Evolves.newRun hevolves hrun' with ⟨run, hrun, hid⟩ | ⟨hid, payload, hrequest⟩
  · exact hid ▸ Evolves.sessionsStay hevolves _ (h run hrun)
  · rw [hid]
    cases hborn : w.storyRun ⟨a.key⟩ with
    | some run =>
        obtain ⟨hrun, hkey⟩ := mem_of_storyRun hborn
        exact Evolves.sessionsStay hevolves _ (hkey ▸ h run hrun)
    | none =>
        have hpaired := Attempt.paired hrequest ⟨hborn, hw.keyed⟩ hlives
        exact hpaired (hid ▸ storyRun_isSome hrun')

end Steps

section Runs
variable {a : Attempt} {w₀ w w' : World}

/-- No process has died between the inserts of a creation. -/
abbrev NoneDiesBetweenInserts : World → Attempt → Prop := fun w a => ¬ a.DiesBetweenInserts w

theorem ReachableIf.allPaired (h : ReachableIf NoneDiesBetweenInserts w) : AllPaired w := by
  induction h with
  | init => exact fun _ hrun => nomatch hrun
  | step a hw ha ih => exact Attempt.allPaired ih hw.inv ha

theorem ReachableIf.open_iff (h : ReachableIf NoneDiesBetweenInserts w) {run : StoryRunRecord}
    (hrun : run ∈ w.storyRuns) : (run.state ≠ .completed ∧ run.state ≠ .parked) ↔
      ∃ row ∈ w.sessions, row.record.storyRunId = run.storyRunId ∧ row.record.state.Open := by
  have hmatch := h.runsMatch
  have hopen : (run.state ≠ .completed ∧ run.state ≠ .parked) ↔ run.state.Open := by
    unfold SessionState.Open
    cases run.state <;> simp
  rw [hopen]
  constructor
  · intro hstate
    obtain ⟨s, hs, hsame⟩ := h.allPaired run hrun
    obtain ⟨row, hrow, rfl⟩ := List.mem_map.mp hs
    exact ⟨row, hrow, hsame, (hmatch.follows run hrun _ hs hsame).open_iff.mp hstate⟩
  · rintro ⟨row, hrow, hsame, hstate⟩
    have hs : row.record.core ∈ w.cores := List.mem_map_of_mem hrow
    exact (hmatch.follows run hrun _ hs hsame).open_iff.mpr hstate

end Runs

namespace Scenario

end Scenario
end StoryReview
