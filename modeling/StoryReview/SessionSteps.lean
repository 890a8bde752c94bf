import Mathlib.Data.List.Find
import StoryReview.RequestSteps

/-!
# The durable steps of flow 1, and of every attempt

A session creation inserts the run, the session and the opening turn, and parks
the session when its pipeline fails for good. With it, every attempt is a run of
durable steps, so that every reachable world keeps the invariants.
-/
namespace StoryReview
open Program RecordsStore Flows

section CreateSession
variable {a : Attempt} {w₀ w : World} {payload : CreateSessionRequest}

theorem Attempt.sessionId_create (hrequest : a.request = .createSession payload) :
    a.sessionId = ⟨a.key⟩ := by
  rw [Attempt.sessionId, hrequest]

theorem Attempt.createSlot (hrequest : a.request = .createSession payload) :
    Flows.createSlot a.key = a.slot := by
  rw [Attempt.slot, hrequest]

theorem safe_createStoryRun (hw : Evolves a w₀ w₀ w)
    (hrequest : a.request = .createSession payload) {record : StoryRunRecord}
    (hid : record.storyRunId = ⟨a.key⟩) (hactive : record.state = .active) :
    Safe a w₀ (fun b t => b.storyRunId = ⟨a.key⟩ ∧ (t.storyRun ⟨a.key⟩).isSome ∧
        Evolves a w₀ w₀ t ∧ t.claims = w.claims)
      (createStoryRunOrGet record) w := by
  refine Safe.bind (R := fun violated t => (violated = none → (t.storyRun ⟨a.key⟩).isSome) ∧
    Evolves a w₀ w₀ t ∧ t.claims = w.claims) (safe_statement hw fun v hv hq => ?_) ?_
  · unfold insertStoryRun
    split_ifs with hsome
    · exact ⟨hv, nofun, hv, hq.claims⟩
    · exact ⟨hv, nofun, hv, hq.claims⟩
    · rw [hid, Option.not_isSome_iff_eq_none] at hsome
      have hnext := hv.tail (.storyRun record hrequest ⟨hid, hactive⟩ hsome)
      refine ⟨hnext, fun _ => ?_, hnext, hq.claims⟩
      simp [World.storyRun, List.find?_append, hid]
  · rintro violated t ⟨hfound, ht, hclaims⟩
    cases violated with
    | none => exact ⟨hid, hfound rfl, ht, hclaims⟩
    | some violation =>
        refine Safe.bind_quiet (R := fun b _ => b = t.storyRun ⟨a.key⟩) ht (quiet_query _)
          (yields_query fun c => by rw [hid]; rfl) fun existing u hu hq hexisting => ?_
        split
        · next existing' hfilter =>
            have hsome := (Option.filter_eq_some_iff.mp hfilter).1
            rw [hexisting] at hsome
            have hkey := List.find?_some hsome
            refine ⟨of_decide_eq_true hkey, ?_, hu, hq.claims.trans hclaims⟩
            rw [World.storyRun, hq.storyRuns, ← World.storyRun, hsome]
            rfl
        · exact hu

/-- A run's session is the session of the run's key. -/
theorem Inv.find_of_run (h : Inv w) (key : IdempotencyKey) :
    (w.sessions.find? fun row => decide (row.record.storyRunId = ⟨key⟩)) =
      w.session ⟨key⟩ := by
  unfold World.session
  refine List.find?_congr fun row hrow => ?_
  have hkey := h.keyed _ (List.mem_map_of_mem (f := fun row : SessionRow => row.record.core)
    hrow)
  have hkey' : row.record.storyRunId.key = row.record.sessionId.key := hkey
  rw [decide_eq_decide]
  constructor
  · intro heq
    rw [heq] at hkey'
    rw [show row.record.sessionId = ⟨row.record.sessionId.key⟩ from rfl, ← hkey']
  · intro heq
    rw [heq] at hkey'
    rw [show row.record.storyRunId = ⟨row.record.storyRunId.key⟩ from rfl, hkey']

theorem safe_createSession (h₀ : Inv w₀) (hw : Evolves a w₀ w₀ w)
    (hrequest : a.request = .createSession payload)
    (hrun : (w.storyRun ⟨a.key⟩).isSome) (storyId : StoryId) (at_ : Time) :
    Safe a w₀ (fun b t => t.core a.sessionId = some b.core ∧ Evolves a w₀ w₀ t ∧
        t.claims = w.claims)
      (createSessionOrGet {
        sessionId := ⟨a.key⟩, storyRunId := ⟨a.key⟩, storyId := storyId, userId := a.userId,
        state := .active, requestedFormats := payload.requestedFormats,
        facilitatorTurnCount := 1, createdAt := at_, updatedAt := at_ }) w := by
  rw [Attempt.sessionId_create hrequest]
  unfold createSessionOrGet
  generalize hrecord : ({
    sessionId := ⟨a.key⟩, storyRunId := ⟨a.key⟩, storyId := storyId, userId := a.userId,
    state := .active, requestedFormats := payload.requestedFormats,
    facilitatorTurnCount := 1, createdAt := at_, updatedAt := at_ } : SessionRecord) = record
  have hids : record.sessionId = ⟨a.key⟩ ∧ record.storyRunId = ⟨a.key⟩ := by
    rw [← hrecord]
    exact ⟨rfl, rfl⟩
  refine Safe.bind (R := fun inserted t => (inserted = true →
    t.core ⟨a.key⟩ = some record.core) ∧ Evolves a w₀ w₀ t ∧ t.claims = w.claims)
    (safe_statement hw fun v hv hq => ?_) ?_
  · unfold insertSession
    split_ifs with hany
    · exact ⟨hv, nofun, hv, hq.claims⟩
    · rw [List.any_eq_true, not_exists] at hany
      have hnew : ∀ s ∈ v.cores, s.sessionId ≠ ⟨a.key⟩ ∧ s.storyRunId ≠ ⟨a.key⟩ := by
        intro s hs
        obtain ⟨row, hrow, rfl⟩ := List.mem_map.mp hs
        have hrow' := hany row
        simp only [hrow, true_and, decide_eq_true_eq, not_or, hids] at hrow'
        exact hrow'
      have hcommit : Commit a w₀ v _ := .session storyId at_ hrequest hnew
        (by rw [World.storyRun, hq.storyRuns]; exact hrun)
      rw [hrecord] at hcommit
      have hnext := hv.tail hcommit
      refine ⟨hnext, fun _ => ?_, hnext, hq.claims⟩
      have hnone : v.cores.find? (fun s => decide (s.sessionId = ⟨a.key⟩)) = none := by
        simp only [List.find?_eq_none, decide_eq_true_eq]
        exact fun s hs => (hnew s hs).1
      simp only [World.core, World.cores, List.map_append, List.find?_append]
      rw [show List.map (fun row : SessionRow => row.record.core) v.sessions = v.cores from rfl,
        hnone]
      simp [SessionRecord.core, hids]
  · rintro inserted t ⟨hcore, ht, hclaims⟩
    cases inserted with
    | true => exact ⟨hcore rfl, ht, hclaims⟩
    | false =>
        have hinv := h₀.evolves ht
        refine Safe.bind_quiet (R := fun b u => b = u.sessions.find? fun row =>
          decide (row.record.storyRunId = ⟨a.key⟩)) ht (quiet_query _)
          (yields_query fun c => by rw [hids.2]) ?_
        rintro existing u hu hq rfl
        rw [(hinv.quiet hq).find_of_run]
        cases hrow : u.session ⟨a.key⟩ with
        | none => exact hu
        | some row =>
            refine (wp_ofExcept _).mpr ⟨fun b hb => ?_, fun _ _ => hu⟩
            unfold sessionFromRow at hb
            split_ifs at hb
            cases hb
            exact ⟨World.core_of_session hrow, hu, hq.claims.trans hclaims⟩

/-- The opening turn is inserted, or was by an earlier attempt. -/
theorem safe_createOpening (h₀ : Inv w₀) (hw : Evolves a w₀ w₀ w) {s : SessionRecord}
    (hs : w.core a.sessionId = some s) (hstate : s.state = .active) {record : TurnRecord}
    {producer : Producer} (hid : record.sessionId = a.sessionId)
    (hone : record.turnNumber = 1)
    (hnew : w.turns a.sessionId = [] → NewTurn a w₀ w s ⟨record, producer⟩)
    (hclaim : a.HoldsClaim w) :
    Safe a w₀ (fun _ => Evolves a w₀ w₀) (createTurnOrGet record producer) w := by
  by_cases hempty : w.turns a.sessionId = []
  · exact (safe_createTurn h₀ hw hs hstate (hnew hempty) hclaim).mono fun _ _ h => h.2.evolves
  · unfold createTurnOrGet
    refine Safe.bind_ofExcept hw fun record' hrecord => ?_
    unfold turnRecord at hrecord
    split_ifs at hrecord
    cases hrecord
    refine Safe.bind (R := fun b t => b = false ∧ Evolves a w₀ w₀ t)
      (safe_statement hw fun v hv hq => ?_) ?_
    · have hpresent : (turnRow v a.sessionId 1).isSome := by
        obtain ⟨row, hrow⟩ := List.exists_mem_of_ne_nil _ hempty
        have hlength := List.length_pos_of_mem hrow
        have hnumbers := @Inv.numbered_turns w a.sessionId (h₀.evolves hw)
        have hmem : 1 ∈ (w.turns a.sessionId).map fun row => row.record.turnNumber := by
          rw [hnumbers, List.mem_range'_1]
          omega
        obtain ⟨first, hfirst, hnumber⟩ := List.mem_map.mp hmem
        rw [turnRow, List.find?_isSome]
        exact ⟨first, hq.turns ▸ hfirst, by simp [hnumber]⟩
      simp only [insertTurn, hid, hone, hpresent, if_true]
      exact ⟨hv, trivial, hv⟩
    · rintro _ t ⟨rfl, ht⟩
      refine Safe.bind_quiet ht (quiet_getTurn _ _) (yields_any _ _) fun turn u hu _ _ => ?_
      cases turn with
      | none => exact hu
      | some turn => exact hu

theorem safe_initialPipeline (h₀ : Inv w₀) (hw : Evolves a w₀ w₀ w)
    (hrequest : a.request = .createSession payload) {s : SessionRecord}
    (hs : w.core a.sessionId = some s) (hstate : s.state = .active)
    (hclaim : a.HoldsClaim w)
    (story : StoryDetail) :
    Safe a w₀ (fun _ => Evolves a w₀ w₀)
      (initialPipeline story s.storyRunId a.sessionId a.key a.correlationId) w := by
  have hsid := World.sessionId_of_core hs
  have hzero : s.core = s := by
    have := World.updatedAt_of_core hs
    obtain ⟨⟩ := s
    cases this
    rfl
  have hdraft : ∀ t, Drafting a.key s.storyRunId w t → Evolves a w₀ w₀ t := fun t ht =>
    hw.trans (Drafting.evolves ht (hzero.symm ▸ hs))
  unfold initialPipeline
  refine Safe.bind (R := fun artifacts t => Drafting a.key s.storyRunId w t ∧
    (artifacts.business.type = .reviewBusiness ∧
      artifacts.engineering.type = .reviewEngineering) ∧
    (artifacts.synthesis.type = .synthesis ∧ artifacts.synthesis.storyRunId = s.storyRunId) ∧
    t.StoresSynthesis s.storyRunId artifacts.synthesis.artifactId artifacts.report)
    ((moves_openingArtifacts _ _ _ _ _).wp_of_yields .refl
      (yields_openingArtifacts (h₀.evolves hw) _ _ _ _ _) hdraft (fun _ _ h hb => ⟨h, hb⟩)
      fun _ => hdraft) ?_
  rintro artifacts t₁ ⟨hd, hreviews, hsynthesis, hstored⟩
  refine Safe.bind_quiet (hdraft _ hd) (quiet_setProcessingStage _ _) (yields_any _ _)
    fun _ t₂ ht₂ hq₂ _ => ?_
  refine Safe.bind_quiet ht₂ (quiet_openingOutput _ _ _ _ _ _)
    (yields_openingOutput a _ _ _ _ _) ?_
  rintro output t₃ ht₃ hq₃ ⟨request, hanswer, hturn, hcall, hreport, hnostate⟩
  refine Safe.bind_quiet ht₃ quiet_now (yields_any _ _) fun createdAt t₄ ht₄ hq₄ _ => ?_
  refine Safe.bind_quiet ht₄ quiet_now (yields_any _ _) fun completedAt t₅ ht₅ hq₅ _ => ?_
  have hframe := hd.framed.trans (Framed.of_quiet (((hq₂.trans hq₃).trans hq₄).trans hq₅))
  refine Safe.bind (safe_createOpening h₀ ht₅ (hframe.core ▸ hs) hstate rfl rfl (fun hempty => ?_)
    (hclaim.congr hframe.claims)) fun turn t₆ ht₆ => ?_
  · rw [← hsid] at hempty ⊢
    refine .opening hrequest hanswer hturn (hcall.trans (by rw [hsid])) hreport hnostate
      (hstored.mono ?_) hsynthesis hreviews hempty
    exact (Framed.of_quiet (((hq₂.trans hq₃).trans hq₄).trans hq₅)).grows _
  · refine Safe.bind_quiet ht₆ (quiet_touchSession _) (yields_any _ _) fun _ t₇ ht₇ _ _ => ?_
    refine Safe.bind_ofExcept ht₇ fun response _ => ?_
    refine Safe.bind (R := fun _ => Evolves a w₀ w₀) (safe_execute ht₇ fun v hv _ => ?_)
      fun _ t₈ ht₈ => ?_
    · rw [Attempt.createSlot hrequest]
      exact ⟨hv.tail (.created hrequest), hv.tail (.created hrequest)⟩
    · exact Safe.bind_quiet ht₈ (quiet_setProcessingStage _ _) (yields_any _ _)
        fun _ _ ht₉ _ _ => ht₉

/-- The session table is as it was. -/
def SameCores (w w' : World) : Prop := w'.cores = w.cores

instance : IsTrans World SameCores := ⟨fun _ _ _ h h' => Eq.trans h' h⟩

theorem moves_createTurnOrGet {A : Choice → Prop} (record : TurnRecord)
    (producer : Producer) : (createTurnOrGet record producer).Moves A SameCores := by
  refine moves_bind (moves_ofExcept _) fun record => moves_bind (moves_statement fun w c => ?_)
    fun inserted => ?_
  · unfold insertTurn
    dsimp only
    split_ifs <;> rfl
  · cases inserted with
    | true => exact moves_ret _
    | false =>
        refine moves_bind ((quiet_getTurn _ _).mono fun _ _ h => h.cores) fun turn => ?_
        cases turn <;> exact trivial

theorem moves_initialPipeline {A : Choice → Prop} (story : StoryDetail) (run : RunId)
    (sessionId : SessionId) (key : IdempotencyKey) (correlationId : Uuid) :
    (initialPipeline story run sessionId key correlationId).Moves A SameCores := by
  have hquiet : ∀ {α : Type} {p : Orchestration α}, p.Moves A Quiet → p.Moves A SameCores :=
    fun h => h.mono fun _ _ hq => hq.cores
  refine moves_bind ((moves_openingArtifacts _ _ _ _ _).mono fun _ _ h => h.framed.cores)
    fun artifacts => ?_
  refine moves_bind (hquiet (quiet_setProcessingStage _ _)) fun _ => ?_
  refine moves_bind (hquiet (quiet_openingOutput _ _ _ _ _ _)) fun output => ?_
  refine moves_bind (hquiet quiet_now) fun _ => moves_bind (hquiet quiet_now) fun _ => ?_
  refine moves_bind (moves_createTurnOrGet _ _) fun turn => ?_
  refine moves_bind (hquiet (quiet_touchSession _)) fun _ => ?_
  refine moves_bind (moves_ofExcept _) fun response => ?_
  have hcomplete : (Idempotency.complete (createSlot key) (.created response)).Moves A
      SameCores := moves_atomic fun c w _ => (World.sameButClaims_completed _ _ _).cores
  exact moves_bind hcomplete fun _ =>
    moves_bind (hquiet (quiet_setProcessingStage _ _)) fun _ => moves_ret _

theorem safe_postSession (h₀ : Inv w₀) (hrequest : a.request = .createSession payload) :
    Safe a w₀ (fun _ => Evolves a w₀ w₀)
      (postSession payload a.key a.correlationId a.userId) w₀ := by
  have hbody : Fingerprint.createSession payload a.userId = a.fingerprint := by
    rw [Attempt.fingerprint, hrequest]
  have hsid := Attempt.sessionId_create hrequest
  refine (wp_tryCatch _ _).mpr (wp_mono (Q := fun _ => Evolves a w₀ w₀)
    (E := fun _ => Evolves a w₀ w₀) ?_ (fun _ h => h) (fun _ _ h => h) fun e t ht => ?_)
  swap
  · split <;> exact ht
  unfold runCreateSession
  rw [Attempt.createSlot hrequest, hbody]
  refine Safe.bind (safe_claim (Quiet.refl w₀)) ?_
  rintro outcome t₁ ⟨ht₁, hclaim⟩
  have hlive : ∀ (hstart : Started a w₀ t₁), Safe a w₀ (fun _ => Evolves a w₀ w₀) (do
      let story ← getStory payload.storyId a.correlationId
      let createdAt ← now
      let storyRun ← createStoryRunOrGet {
        storyRunId := ⟨a.key⟩
        storyId := story.storyId
        userId := a.userId
        state := .active
        createdAt := createdAt
        updatedAt := createdAt }
      let createdAt ← now
      let session ← createSessionOrGet {
        sessionId := ⟨a.key⟩
        storyRunId := ⟨a.key⟩
        storyId := story.storyId
        userId := a.userId
        state := .active
        requestedFormats := payload.requestedFormats
        facilitatorTurnCount := 1
        createdAt := createdAt
        updatedAt := createdAt }
      if session.state ≠ .active then do
        Idempotency.release a.slot
        .raise (.apiError ⟨409, makeError .idempotencyKeyReused
          "this key's previous attempt failed terminally and its session was parked; retry with a new idempotency key" a.correlationId false⟩)
      else
        Program.tryCatch
          (initialPipeline story storyRun.storyRunId session.sessionId a.key a.correlationId)
          (pipelineFailed session.sessionId a.key)) t₁ := by
    intro hstart
    refine Safe.bind_quiet ht₁ (quiet_getStory _ _) (yields_any _ _)
      fun story t₂ ht₂ hq₂ _ => ?_
    refine Safe.bind_quiet ht₂ quiet_now (yields_any _ _) fun createdAt t₃ ht₃ hq₃ _ => ?_
    refine Safe.bind (safe_createStoryRun ht₃ hrequest rfl rfl) ?_
    rintro storyRun t₄ ⟨hrun, hfound, ht₄, hclaims₄⟩
    refine Safe.bind_quiet ht₄ quiet_now (yields_any _ _) fun createdAt t₅ ht₅ hq₅ _ => ?_
    refine Safe.bind (safe_createSession h₀ ht₅ hrequest
      (by rw [World.storyRun, hq₅.storyRuns]; exact hfound) story.storyId createdAt) ?_
    rintro session t₆ ⟨hs, ht₆, hclaims₆⟩
    have hid : session.sessionId = a.sessionId :=
      show session.core.sessionId = _ from World.sessionId_of_core hs
    have hrun' : session.storyRunId = storyRun.storyRunId := by
      have hkeyed := (h₀.evolves ht₆).run_of_core hs
      rw [hsid] at hkeyed
      exact hkeyed.trans hrun.symm
    have hclaim₆ : a.HoldsClaim t₆ := by
      refine hstart.claim.congr ?_
      rw [hclaims₆, hq₅.claims, hclaims₄, hq₃.claims, hq₂.claims]
    split_ifs with hstate
    · exact Safe.bind (safe_release ht₆) fun _ _ h => h
    · rw [not_not] at hstate
      rw [hid, ← hrun']
      refine (wp_tryCatch _ _).mpr (wp_mono ((moves_initialPipeline story session.storyRunId
        a.sessionId a.key a.correlationId).wp_frame (show SameCores t₆ t₆ from rfl)
          (safe_initialPipeline h₀ ht₆ hrequest hs hstate hclaim₆ story)) (fun _ h => h.1)
            (fun _ _ h => h.1) ?_)
      -- the failed pipeline still finds its session active
      rintro e t ⟨ht, hcores⟩
      have hst : t.core a.sessionId = some session.core := by
        rw [← hs, World.core, World.core, show t.cores = t₆.cores from hcores]
      refine Safe.bind_quiet ht (quiet_setProcessingStage _ _) (yields_any _ _)
        fun _ u hu hqu _ => ?_
      split
      · split_ifs
        · exact hu
        · refine Safe.bind (R := fun _ => Evolves a w₀ w₀) (safe_execute hu fun v hv hq => ?_)
            fun _ _ h => h
          rw [Attempt.createSlot hrequest]
          have hpark : Commit a w₀ v _ :=
            .parkFailed hrequest (((hqu.trans hq).core _).trans hst) hstate
          exact ⟨hv.tail hpark, hv.tail hpark⟩
      · exact hu
  cases hclaim with
  | claimed _ hstart => exact hlive hstart
  | inProgress _ _ _ hstart => exact hlive hstart
  | @replay row hrow hstate hbody hquiet =>
      obtain ⟨_, _, _ | response⟩ := row
      · exact ht₁
      · cases response with
        | created response => exact (wp_ofExcept _).mpr ⟨fun _ _ => ht₁, fun _ _ => ht₁⟩
        | turn => exact ht₁
        | report => exact ht₁
        | abandoned => exact ht₁

end CreateSession

/-! ## Every attempt -/

/-- What an attempt's answer has established. -/
def Answered (a : Attempt) (w₀ : World) (response : Response) (t : World) : Prop :=
  ∀ r, response = .turn r → TurnAnswered a w₀ r t

/-- The program of an attempt only takes durable steps of that attempt. -/
theorem Attempt.safe (a : Attempt) {w₀ : World} (h₀ : Inv w₀) :
    Safe a w₀ (fun b t => Evolves a w₀ w₀ t ∧ Answered a w₀ b t) a.program w₀ := by
  have hrespond : ∀ (response : Response) t, Evolves a w₀ w₀ t → Answered a w₀ response t →
      Safe a w₀ (fun b t => Evolves a w₀ w₀ t ∧ Answered a w₀ b t) (.ret response) t :=
    fun _ _ ht h => ⟨ht, h⟩
  unfold Attempt.program
  split
  · next payload hrequest =>
      refine Safe.bind (safe_postSession h₀ hrequest) fun r t ht => hrespond _ t ht ?_
      intro _ heq
      cases heq
  · next sessionId payload hrequest =>
      have hid : a.sessionId = sessionId := by
        rw [Attempt.sessionId, hrequest]
      subst hid
      refine Safe.bind (safe_postTurn h₀ hrequest _) fun r t ht => hrespond _ t ht.1 ?_
      intro _ heq
      cases heq
      exact ht.2
  · next sessionId hrequest =>
      have hid : a.sessionId = sessionId := by
        rw [Attempt.sessionId, hrequest]
      subst hid
      refine Safe.bind (safe_postFinalize h₀ hrequest _) fun r t ht => hrespond _ t ht ?_
      intro _ heq
      cases heq
  · next sessionId hrequest =>
      have hid : a.sessionId = sessionId := by
        rw [Attempt.sessionId, hrequest]
      subst hid
      refine Safe.bind (safe_postAbandon hrequest _) fun r t ht => hrespond _ t ht ?_
      intro _ heq
      cases heq

/-- Cut anywhere, an attempt has done a sequence of its durable steps. -/
theorem Attempt.evolves (a : Attempt) {w : World} (h : Inv w) :
    Evolves a w w (a.result w) := by
  unfold Attempt.result
  split
  · exact wp_run_state (a.safe h) .refl fun n => ⟨n, rfl⟩
  · exact wp_crash (a.safe h) .refl (fun n => ⟨n, rfl⟩) _

theorem Attempt.answered (a : Attempt) {w : World} (h : Inv w) {response : Response}
    (hresponse : a.response w = some response) : Answered a w response (a.result w) := by
  have hrun := wp_run (a.safe h) fun n => (⟨n, rfl⟩ : a.Admits (a.choices n))
  unfold Attempt.response at hresponse
  unfold Attempt.result
  revert hrun hresponse
  split
  · generalize a.program.run a.choices w = outcome
    obtain ⟨e | b, t⟩ := outcome
    · nofun
    · rintro hb ⟨-, hanswered⟩
      cases hb
      exact hanswered
  · nofun

/-- Every reachable world keeps the invariants. -/
theorem ReachableIf.inv {P : World → Attempt → Prop} {w : World} (h : ReachableIf P w) :
    Inv w :=
  h.invariant inv_init fun _ a hw _ => hw.evolves (a.evolves hw)

end StoryReview
