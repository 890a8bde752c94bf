import StoryReview.Readability
import StoryReview.ScopedRequests

/-!
# Isolation of users

Whatever has been requested before, a request leaves everything of other users as it was,
and its answer depends on nothing of theirs but which keys are taken.
-/
namespace StoryReview
open Program Flows RecordsStore

/-! ## Entering the scope -/

section Entry
variable {sc : Scope} {α : Type} {Q : α → Prop} {w w' : World}

/-- The relation of two runs before the session is found to be the user's. -/
abbrev Scope.Beside (sc : Scope) (w w' : World) : Prop :=
  StoryReview.Beside sc.userId sc.start sc.start' w w'

theorem Program.Scoped.beside {p : Orchestration α} (h : p.Scoped sc Q)
    (hw : Together Wellformed sc.Within w w') :
    p.Both Wellformed sc.Beside
      (fun a b s t => a = b ∧ Q a ∧ Together Wellformed sc.Beside s t)
      (fun e e' s t => e = e' ∧ Together Wellformed sc.Beside s t) p w w' :=
  (h.both hw fun _ _ h => h.beside).mono (fun _ _ h => h)
    (fun _ _ _ _ h => ⟨h.1, h.2.1, h.2.2.1, h.2.2.2.1, h.2.2.2.2.beside⟩) fun _ _ _ _ h => h

/-- A session of another user reads as absent. -/
theorem World.Owned.filter_session (h : w.Owned) {id : SessionId} {userId : UserId}
    (hid : w.owner id.key ≠ some userId) :
    ((w.session id).filter fun row => decide (row.record.userId = userId)) = none := by
  rw [Option.filter_eq_none_iff]
  intro row hrow huser
  have hfound := List.find?_some hrow
  rw [decide_eq_true_eq] at hfound huser
  have howner := h.owner row (List.mem_of_find?_eq_some hrow)
  rw [hfound, huser] at howner
  exact hid howner

/-- A request that first looks for the user's session. -/
theorem agrees_getSession {id : SessionId} (hid : id = ⟨sc.key⟩)
    {g : Option SessionRecord → Orchestration α} (hnone : ∃ e, g none = .raise e)
    (hsome : ∀ s, sc.Owns s → (g (some s)).Scoped sc Q) :
    ((RecordsStore.getSession id sc.userId).bind g).Agrees Wellformed sc.Beside Q := by
  intro w w' hw
  by_cases howner : w.owner sc.key = some sc.userId
  · refine Scoped.beside ((scoped_getSession hid).bind fun found hfound => ?_)
      ⟨hw.1, hw.2.1, hw.2.2, howner⟩
    cases found with
    | none =>
        obtain ⟨e, he⟩ := hnone
        rw [he]
        exact agrees_raise e
    | some s => exact hsome s (hfound s rfl)
  · subst hid
    have hother : w'.owner sc.key ≠ some sc.userId :=
      (not_congr (hw.2.2.agree.owner_iff sc.key)).mpr howner
    have habsent : ∀ {v : World}, v.Owned → v.owner sc.key ≠ some sc.userId → ∀ c,
        (((v.tick c).session ⟨sc.key⟩).filter fun row =>
          decide (row.record.userId = sc.userId)) = none :=
      fun hv ho c => World.Owned.filter_session (w := World.tick _ c) { hv with } ho
    obtain ⟨e, he⟩ := hnone
    intro c hpost hpost'
    have htick : sc.Beside (w.tick c) (w'.tick c) := hw.2.2.tick c
    refine ⟨htick, ?_⟩
    dsimp only
    rw [habsent hw.2.2.owned howner c, habsent hw.2.2.owned' hother c]
    simp only [pure_eq, ret_bind, he]
    exact ⟨rfl, hpost, hpost', htick⟩

end Entry

/-! ## Creation -/

section Creation
variable {sc : Scope} {w w' : World} {payload : CreateSessionRequest}

/-- The two runs of a creation, which hold the same claim. -/
structure Scope.Claiming (sc : Scope) (w w' : World) : Prop where
  beside : sc.Beside w w'
  claim : w'.claims (createSlot sc.key) = w.claims (createSlot sc.key)

theorem Scope.Claiming.tick (h : sc.Claiming w w') (c : Choice) :
    sc.Claiming (w.tick c) (w'.tick c) := ⟨h.beside.tick c, h.claim⟩

theorem Scope.Claiming.insertClaim (h : sc.Claiming w w') (fingerprint : Fingerprint) :
    (Idempotency.insertClaim (createSlot sc.key) fingerprint w).1 =
        (Idempotency.insertClaim (createSlot sc.key) fingerprint w').1 ∧
      sc.Claiming (Idempotency.insertClaim (createSlot sc.key) fingerprint w).2
        (Idempotency.insertClaim (createSlot sc.key) fingerprint w').2 := by
  unfold Idempotency.insertClaim
  rw [h.claim]
  split_ifs
  · exact ⟨rfl, h⟩
  · refine ⟨rfl, h.beside.setCreated sc.key _, ?_⟩
    rw [World.claims_setClaim, World.claims_setClaim, if_pos rfl, if_pos rfl]

theorem agrees_claim (fingerprint : Fingerprint) :
    (Idempotency.claim (createSlot sc.key) fingerprint).Agrees Wellformed sc.Claiming
      Anything := by
  refine Agrees.bind (S := Anything) (agrees_atomic fun c w w' hw _ _ => ?_) fun inserted _ => ?_
  · obtain ⟨hsame, hclaiming⟩ := (hw.2.2.tick c).insertClaim fingerprint
    exact ⟨hsame, trivial, hclaiming⟩
  split_ifs
  · exact agrees_ret trivial
  refine Agrees.bind (S := Anything) (agrees_atomic fun c w w' hw _ _ =>
    ⟨(hw.2.2.tick c).claim.symm, trivial, hw.2.2.tick c⟩) fun row _ => ?_
  cases row with
  | none => exact agrees_raise _
  | some row =>
      dsimp only
      split_ifs
      · exact agrees_raise _
      · cases row.state with
        | completed => exact agrees_ret trivial
        | inProgress => exact agrees_ret trivial

/-- A creation claim of another user is refused, whatever it holds. -/
theorem both_claim (payload : CreateSessionRequest)
    (hw : Together Wellformed sc.Beside w w') :
    (Idempotency.claim (createSlot sc.key) (.createSession payload sc.userId)).Both Wellformed
      sc.Beside (fun a b s t => a = b ∧ Together Wellformed sc.Claiming s t)
      (fun e e' s t => e = e' ∧ Together Wellformed sc.Beside s t)
      (Idempotency.claim (createSlot sc.key) (.createSession payload sc.userId)) w w' := by
  rcases hw.2.2.agree.created sc.key with hsame | ⟨-, hothers, hothers'⟩
  · exact ((agrees_claim _).both ⟨hw.1, hw.2.1, hw.2.2, hsame⟩ fun _ _ h => h.beside).mono
      (fun _ _ h => h) (fun _ _ _ _ h => ⟨h.1, h.2.2⟩) fun _ _ _ _ h => h
  · obtain ⟨row, hrow, hother⟩ := hothers
    obtain ⟨row', hrow', hother'⟩ := hothers'
    have htaken : ∀ {v : World} {claim}, claim ∈ v.claims (createSlot sc.key) → ∀ c,
        Idempotency.insertClaim (createSlot sc.key) (.createSession payload sc.userId)
          (v.tick c) = (false, v.tick c) := by
      intro v claim hclaim c
      refine if_pos ?_
      have hclaims : (v.tick c).claims (createSlot sc.key) = some claim := hclaim
      rw [hclaims]
      rfl
    intro c hpost hpost'
    dsimp only at hpost hpost' ⊢
    rw [htaken hrow] at hpost ⊢
    rw [htaken hrow'] at hpost' ⊢
    refine ⟨hw.2.2.tick c, fun c' hread hread' => ?_⟩
    have hclaims : ((w.tick c).tick c').claims (createSlot sc.key) = some row := hrow
    have hclaims' : ((w'.tick c).tick c').claims (createSlot sc.key) = some row' := hrow'
    dsimp only
    rw [hclaims, hclaims']
    refine ⟨(hw.2.2.tick c).tick c', ?_⟩
    simp only [ret_bind]
    rw [if_pos (hother payload), if_pos (hother' payload)]
    exact ⟨rfl, hread, hread', (hw.2.2.tick c).tick c'⟩

/-- The insert finds the same keys taken and the same open runs of the user. -/
theorem Scope.Claiming.insertStoryRun (h : sc.Claiming w w') {record : StoryRunRecord}
    (hrun : record.storyRunId = ⟨sc.key⟩) (huser : record.userId = sc.userId) :
    (insertStoryRun record w).1 = (insertStoryRun record w').1 ∧
      sc.Claiming (insertStoryRun record w).2 (insertStoryRun record w').2 ∧
      ((insertStoryRun record w).1 = none →
        (insertStoryRun record w).2.owner sc.key = some sc.userId) := by
  have htaken : (w'.storyRun ⟨sc.key⟩).isSome = (w.storyRun ⟨sc.key⟩).isSome := by
    rcases h.beside.agree.storyRun sc.key with hsame | ⟨⟨v, hv, -⟩, ⟨v', hv', -⟩⟩
    · rw [hsame]
    · obtain ⟨run, hfound, -⟩ := Option.map_eq_some_iff.mp hv
      obtain ⟨run', hfound', -⟩ := Option.map_eq_some_iff.mp hv'
      rw [hfound, hfound']
      rfl
  have hopen : ∀ v : World, v.storyRuns.any (fun r => decide (r.userId = record.userId ∧
        r.storyId = record.storyId ∧ r.state ≠ .completed ∧ r.state ≠ .parked)) =
      (v.runsOf sc.userId).any fun r => decide (r.userId = record.userId ∧
        r.storyId = record.storyId ∧ r.state ≠ .completed ∧ r.state ≠ .parked) := by
    refine fun v => (any_filter_of_forall fun r _ hr => decide_eq_true ?_).symm
    exact (of_decide_eq_true hr).1.trans huser
  unfold RecordsStore.insertStoryRun
  rw [hrun, htaken, hopen w, hopen w', h.beside.agree.runs]
  split_ifs with hsome
  · exact ⟨rfl, h, nofun⟩
  · exact ⟨rfl, h, nofun⟩
  · obtain ⟨hbeside, howner⟩ := h.beside.newRun hrun huser (by simpa using hsome) h.claim
    exact ⟨rfl, ⟨hbeside, h.claim⟩, fun _ => howner⟩

theorem both_createStoryRunOrGet (hw : Together Wellformed sc.Claiming w w')
    {record : StoryRunRecord} (hrun : record.storyRunId = ⟨sc.key⟩)
    (huser : record.userId = sc.userId) :
    (createStoryRunOrGet record).Both Wellformed sc.Beside
      (fun a b s t => a = b ∧ a.storyRunId = ⟨sc.key⟩ ∧ Together Wellformed sc.Within s t)
      (fun e e' s t => e = e' ∧ Together Wellformed sc.Beside s t)
      (createStoryRunOrGet record) w w' := by
  refine Both.bind (S := fun a b s t => a = b ∧ Together Wellformed sc.Claiming s t ∧
    (a = none → s.owner sc.key = some sc.userId)) (both_atomic fun c hpost hpost' => ?_) ?_
  · obtain ⟨hsame, hclaiming, howner⟩ := (hw.2.2.tick c).insertStoryRun hrun huser
    exact ⟨hclaiming.beside, hsame, ⟨hpost, hpost', hclaiming⟩, howner⟩
  · rintro violated _ s t ⟨rfl, hst, howner⟩
    cases violated with
    | none => exact ⟨rfl, hrun, hst.1, hst.2.1, hst.2.2.beside, howner rfl⟩
    | some violation =>
        intro c hpost hpost'
        have htick := hst.2.2.tick c
        refine ⟨htick.beside, ?_⟩
        simp only [ret_bind]
        rw [hrun, huser]
        rcases htick.beside.agree.storyRun sc.key with hsame | ⟨⟨v, hv, hne⟩, ⟨v', hv', hne'⟩⟩
        · rw [hsame]
          cases hfound : ((s.tick c).storyRun ⟨sc.key⟩).filter fun e =>
              decide (e.storyId = record.storyId ∧ e.userId = sc.userId) with
          | none => exact ⟨rfl, hpost, hpost', htick.beside⟩
          | some run =>
              obtain ⟨hrow, hown⟩ := Option.filter_eq_some_iff.mp hfound
              have hid := List.find?_some hrow
              rw [decide_eq_true_eq] at hid hown
              refine ⟨rfl, hid, hpost, hpost', htick.beside, ?_⟩
              rw [World.owner, hrow, Option.map_some, hown.2]
        · have hforeign : ∀ {u : World} {x}, x ∈ u.owner sc.key → x ≠ sc.userId →
              (u.storyRun ⟨sc.key⟩).filter (fun e =>
                decide (e.storyId = record.storyId ∧ e.userId = sc.userId)) = none := by
            intro u x hx hne
            rw [Option.filter_eq_none_iff]
            intro run hrow hown
            rw [World.owner, hrow, Option.map_some, Option.mem_some_iff] at hx
            exact hne (hx.symm.trans (of_decide_eq_true hown).2)
          rw [hforeign hv hne, hforeign hv' hne']
          exact ⟨rfl, hpost, hpost', htick.beside⟩

theorem agrees_runCreateSession (payload : CreateSessionRequest) (correlationId : Uuid) :
    (runCreateSession payload sc.key correlationId sc.userId).Agrees Wellformed sc.Beside
      Anything := by
  intro w w' hw
  refine (both_claim payload hw).bind ?_
  rintro outcome _ s t ⟨rfl, hst⟩
  have hbeside : Together Wellformed sc.Beside s t := ⟨hst.1, hst.2.1, hst.2.2.beside⟩
  cases outcome with
  | replay response =>
      cases response with
      | none => exact ⟨rfl, hbeside⟩
      | some response =>
          cases response with
          | created r => exact (agrees_ofExcept fun _ _ => trivial) s t hbeside
          | turn r => exact ⟨rfl, hbeside⟩
          | report r => exact ⟨rfl, hbeside⟩
          | abandoned id => exact ⟨rfl, hbeside⟩
  | claimed | inProgress =>
      refine ((agrees_getStory (R := sc.Claiming) (fun _ _ c h => h.tick c) _ _).both hst
        fun _ _ h => h.beside).bind ?_
      rintro story _ s t ⟨rfl, -, hst⟩
      refine ((agrees_now (R := sc.Claiming) (fun _ _ c h => h.tick c)
        fun _ _ h => h.beside.agree.clock).both hst fun _ _ h => h.beside).bind ?_
      rintro createdAt _ s t ⟨rfl, -, hst⟩
      refine (both_createStoryRunOrGet hst rfl rfl).bind ?_
      rintro storyRun _ s t ⟨rfl, hrun, hst⟩
      refine Scoped.beside ?_ hst
      -- from here on the key is the user's
      refine scoped_now.bind fun createdAt _ => ?_
      refine (scoped_createSessionOrGet ⟨rfl, rfl⟩ rfl).bind fun session hs => ?_
      split_ifs
      · exact (scoped_release (createSlot_namedBy sc.key)).bind fun _ _ => agrees_raise _
      · exact (scoped_initialPipeline story hrun hs.1 correlationId).tryCatch fun e =>
          scoped_pipelineFailed hs.1 e

end Creation

/-! ## Requests -/

section Requests
variable (sc : Scope) {id : SessionId}

theorem agrees_postSession (payload : CreateSessionRequest) (correlationId : Uuid) :
    (postSession payload sc.key correlationId sc.userId).Agrees Wellformed sc.Beside
      Anything := by
  refine agrees_mapped (agrees_runCreateSession payload correlationId) fun e => ?_
  split <;> exact ⟨_, rfl⟩

theorem agrees_postTurn (hid : id = ⟨sc.key⟩) (payload : TurnRequest) (key : IdempotencyKey)
    (correlationId : Uuid) :
    (postTurn id payload key correlationId sc.userId).Agrees Wellformed sc.Beside
      Anything := by
  have hrun : (TurnsFlow.runTurn id payload key correlationId sc.userId).Agrees Wellformed
      sc.Beside Anything :=
    agrees_getSession hid ⟨_, rfl⟩ fun s _ => (scoped_acquire hid).bind fun token _ =>
      (scoped_executeTurn hid payload key correlationId).ensure (scoped_releaseLease hid token)
  refine agrees_mapped hrun fun e => ?_
  split <;> exact ⟨_, rfl⟩

theorem agrees_postFinalize (hid : id = ⟨sc.key⟩) (key : IdempotencyKey)
    (correlationId : Uuid) :
    (postFinalize id key correlationId sc.userId).Agrees Wellformed sc.Beside Anything := by
  have hfinalize : (Finalize.finalize id key correlationId sc.userId).Agrees Wellformed
      sc.Beside Anything := by
    refine agrees_getSession hid ⟨_, rfl⟩ fun s _ => ?_
    dsimp only
    cases s.state with
    | completed => exact scoped_ofExcept _
    | active => exact agrees_raise _
    | parked => exact agrees_raise _
    | finalizing =>
        exact (scoped_acquire hid).bind fun token _ =>
          (scoped_resumeUnderLease hid key correlationId).ensure (scoped_releaseLease hid token)
  refine agrees_mapped hfinalize fun e => ?_
  split <;> exact ⟨_, rfl⟩

theorem agrees_postAbandon (hid : id = ⟨sc.key⟩) (key : IdempotencyKey)
    (correlationId : Uuid) :
    (postAbandon id key correlationId sc.userId).Agrees Wellformed sc.Beside Anything := by
  refine agrees_mapped (agrees_getSession hid ⟨_, rfl⟩ fun s _ =>
    (scoped_acquire hid).bind fun token _ =>
      (scoped_parkNow hid key correlationId).ensure (scoped_releaseLease hid token)) fun e => ?_
  split <;> exact ⟨_, rfl⟩

/-! ### Reads -/

theorem agrees_listSessions (keyset : Keyset) (limit : ℤ) (cursor : Option Text)
    (correlationId : Uuid) :
    (SessionsApi.listSessions keyset limit cursor correlationId sc.userId).Agrees Wellformed
      sc.Beside Anything := by
  unfold SessionsApi.listSessions
  split_ifs
  · exact agrees_raise _
  refine Agrees.bind (S := Anything) (agrees_ofExcept fun _ _ => trivial) fun before _ => ?_
  refine Agrees.bind (S := Anything) ?_ fun page _ => ?_
  · refine Agrees.bind (S := Anything) (agrees_atomic fun c w w' hw _ _ => ?_) fun rows _ => ?_
    · have htick := hw.2.2.tick c
      have hown := htick.agree.sessions
      unfold World.sessionsOf at hown
      refine ⟨?_, trivial, htick⟩
      dsimp only [RecordsStore.sessionRows]
      rw [hown]
    · dsimp only
      split_ifs
      · exact agrees_ret trivial
      · exact agrees_raise _
  · refine Agrees.bind (S := Anything) (agrees_ofExcept fun _ _ => trivial) fun sessions _ => ?_
    by_cases hcap : sessions.length ≤ 100
    · rw [if_pos hcap]
      exact agrees_ret trivial
    · rw [if_neg hcap]
      exact agrees_raise _

theorem agrees_getDetail (hid : id = ⟨sc.key⟩) (correlationId : Uuid) :
    (SessionsApi.getSession id correlationId sc.userId).Agrees Wellformed sc.Beside
      Anything := by
  refine agrees_getSession hid ⟨_, rfl⟩ fun s hs => ?_
  refine (scoped_listTurns hid).bind fun turns _ => ?_
  have hreferences : (SessionsApi.runArtifacts s.storyRunId correlationId).Scoped sc
      sc.Cites := by
    refine (scoped_list hs.2 500 0).tryCatch fun e => ?_
    split
    · split_ifs <;> exact agrees_raise _
    · exact agrees_raise _
    · exact agrees_raise _
    · exact agrees_raise _
  refine hreferences.bind fun references _ => ?_
  refine (scoped_ofExcept _).bind fun reports _ => (scoped_ofExcept _).bind fun views _ => ?_
  refine Agrees.bind (S := Anything) (scoped_query fun w w' _ h => ⟨?_, trivial⟩)
    fun stage _ => scoped_ofExcept _
  subst hid
  rw [h.beside.session_eq ⟨sc.key⟩ h.owner]

theorem agrees_getReport (hid : id = ⟨sc.key⟩) (correlationId : Uuid) :
    (SessionsApi.getReport id correlationId sc.userId).Agrees Wellformed sc.Beside
      Anything := by
  refine agrees_getSession hid ⟨_, rfl⟩ fun s _ => ?_
  dsimp only
  split_ifs
  · exact agrees_raise _
  · exact scoped_ofExcept _

end Requests

variable {w w' w₀ w₀' : World} {keyset : Keyset}

theorem Attempt.agrees (a : Attempt) (w₀ w₀' : World) :
    a.program.Agrees Wellformed (Beside a.userId w₀ w₀') Anything := by
  unfold Attempt.program
  split
  · exact (agrees_postSession ⟨a.userId, a.key, w₀, w₀'⟩ _ _).bind
      fun _ _ => agrees_ret trivial
  · next id _ _ =>
      exact (agrees_postTurn ⟨a.userId, id.key, w₀, w₀'⟩ rfl _ _ _).bind
        fun _ _ => agrees_ret trivial
  · next id _ =>
      exact (agrees_postFinalize ⟨a.userId, id.key, w₀, w₀'⟩ rfl _ _).bind
        fun _ _ => agrees_ret trivial
  · next id _ =>
      exact (agrees_postAbandon ⟨a.userId, id.key, w₀, w₀'⟩ rfl _ _).bind
        fun _ _ => agrees_ret trivial

theorem Read.agrees (keyset : Keyset) (r : Read) (w₀ w₀' : World) :
    (r.program keyset).Agrees Wellformed (Beside r.userId w₀ w₀') Anything := by
  unfold Read.program
  split
  · exact (agrees_listSessions ⟨r.userId, 0, w₀, w₀'⟩ keyset _ _ _).bind
      fun _ _ => agrees_ret trivial
  · next id _ =>
      exact (agrees_getDetail ⟨r.userId, id.key, w₀, w₀'⟩ rfl _).bind
        fun _ _ => agrees_ret trivial
  · next id _ =>
      exact (agrees_getReport ⟨r.userId, id.key, w₀, w₀'⟩ rfl _).bind
        fun _ _ => agrees_ret trivial

/-! ## Whole runs -/

theorem Beside.start {userId : UserId} (hw : w.Owned) (hw' : w'.Owned)
    (h : AgreeFor userId w w') : Beside userId w w' w w' :=
  ⟨h, hw, hw', .refl userId w, .refl userId w'⟩

/-- Two runs of one request, from worlds that agree for its user. -/
theorem Attempt.beside (a : Attempt) (hw : Wellformed w) (hw' : Wellformed w')
    (h : Beside a.userId w w' w w') :
    (a.program.run a.choices w).1 = (a.program.run a.choices w').1 ∧
      Beside a.userId w w' (a.result w) (a.result w') := by
  have hwp : ∀ {v : World}, Wellformed v → a.program.wp a.Admits Wellformed
      (fun _ _ => True) (fun _ _ => True) v := fun hv =>
    wp_mono (a.safe hv.1) (fun _ ht => Evolves.wellformed hv ht) (fun _ _ _ => trivial)
      fun _ _ _ => trivial
  have hchoices : ∀ n, a.Admits (a.choices n) := fun n => ⟨n, rfl⟩
  have hrun := (a.agrees w w').run ⟨hw, hw', h⟩ (hwp hw) (hwp hw') hchoices
  refine ⟨hrun.1, ?_⟩
  unfold Attempt.result
  cases a.crashAfter with
  | none => exact hrun.2
  | some n => exact (a.agrees w w').crash ⟨hw, hw', h⟩ (hwp hw) (hwp hw') hchoices n

theorem Read.beside (keyset : Keyset) (r : Read) (hw : Wellformed w) (hw' : Wellformed w')
    (h : Beside r.userId w w' w w') :
    ((r.program keyset).run r.choices w).1 = ((r.program keyset).run r.choices w').1 ∧
      Beside r.userId w w' (r.result keyset w) (r.result keyset w') := by
  have hwp : ∀ {v : World}, Wellformed v → (r.program keyset).wp
      (fun c => ∃ n, r.choices n = c) Wellformed (fun _ _ => True) (fun _ _ => True) v :=
    fun {v} hv => (Still.moves_read keyset r).wp (Still.refl v)
      (fun _ ht => ht.quiet.wellformed hv) (fun _ _ _ => trivial) fun _ _ _ => trivial
  have hchoices : ∀ n, ∃ m, r.choices m = r.choices n := fun n => ⟨n, rfl⟩
  have hrun := (r.agrees keyset w w').run ⟨hw, hw', h⟩ (hwp hw) (hwp hw') hchoices
  refine ⟨hrun.1, ?_⟩
  unfold Read.result
  cases r.crashAfter with
  | none => exact hrun.2
  | some n =>
      exact (r.agrees keyset w w').crash ⟨hw, hw', h⟩ (hwp hw) (hwp hw') hchoices n

section Served
variable {P : World → Attempt → Prop}

theorem ServedIf.wellformed (h : ServedIf keyset P w) : Wellformed w := by
  induction h with
  | init => exact ⟨inv_init, by simp [ClaimsTellOwnSession]⟩
  | attempt a _ _ ih => exact Evolves.wellformed ih (a.evolves ih.1)
  | read r _ ih => exact (r.still keyset _).quiet.wellformed ih

theorem ServedIf.owned (h : ServedIf keyset P w) : w.Owned := by
  induction h with
  | init => exact ⟨by simp, by simp⟩
  | attempt a hw _ ih =>
      exact (a.beside hw.wellformed hw.wellformed (.start ih ih (.refl _ _))).2.owned
  | read r hw ih =>
      exact (r.beside keyset hw.wellformed hw.wellformed (.start ih ih (.refl _ _))).2.owned

end Served

/-- A session with its run, turns, lease, claims and artifacts, as it was. -/
structure Untouched (row : SessionRow) (w w' : World) : Prop where
  session : w'.session row.record.sessionId = some row
  storyRun : w'.storyRun row.record.storyRunId = w.storyRun row.record.storyRunId
  turns : w'.turns row.record.sessionId = w.turns row.record.sessionId
  leases : w'.leases row.record.sessionId = w.leases row.record.sessionId
  claims : ∀ route key, w'.claims ⟨route, some row.record.sessionId, key⟩ =
    w.claims ⟨route, some row.record.sessionId, key⟩
  objects : w'.objects row.record.storyRunId = w.objects row.record.storyRunId

theorem SparesOthers.untouched {userId : UserId} (h : SparesOthers userId w w') (hw : w.Owned)
    (hw' : w'.Owned) {row : SessionRow} (hrow : w.session row.record.sessionId = some row)
    (huser : row.record.userId ≠ userId) : Untouched row w w' := by
  have hmem := List.mem_of_find?_eq_some hrow
  have howner := hw.owner row hmem
  have hforeign : w.Foreign userId row.record.sessionId.key := ⟨_, howner, huser⟩
  have hrun : row.record.storyRunId = ⟨row.record.sessionId.key⟩ :=
    congrArg RunId.mk (hw.keyed row hmem)
  have hkept := h.storyRun _ hforeign
  have hdata := h.data _ hforeign
  refine ⟨?_, hrun ▸ hkept, hdata.turns, hdata.leases, hdata.claims, hrun ▸ hdata.objects⟩
  have hkey : ∀ r : SessionRow, decide (r.record.sessionId = row.record.sessionId) = true →
      r.record.sessionId.key = row.record.sessionId.key :=
    fun r hr => congrArg SessionId.key (of_decide_eq_true hr)
  have howner' := (World.owner_congr hkept).trans howner
  rw [World.session, ← hw'.find? howner' fun r _ => hkey r, h.sessions _ huser,
    hw.find? howner fun r _ => hkey r]
  exact hrow

/-- After any requests and reads of any users, no request of a user changes a session of
another, nor its run, turns, lease, claims or artifacts. And what the user is answered, and
what becomes of the user's own data, is the same in every other such world that agrees for
the user: it depends on nothing that is stored for others. -/
theorem users_isolated (hw : Served keyset w) :
    (∀ row, w.session row.record.sessionId = some row →
      (∀ a : Attempt, row.record.userId ≠ a.userId → Untouched row w (a.result w)) ∧
        ∀ r : Read, row.record.userId ≠ r.userId → Untouched row w (r.result keyset w)) ∧
      ∀ w', Served keyset w' →
        (∀ a : Attempt, AgreeFor a.userId w w' →
          (a.program.run a.choices w).1 = (a.program.run a.choices w').1 ∧
            AgreeFor a.userId (a.result w) (a.result w')) ∧
          ∀ r : Read, AgreeFor r.userId w w' →
            ((r.program keyset).run r.choices w).1 = ((r.program keyset).run r.choices w').1 ∧
              AgreeFor r.userId (r.result keyset w) (r.result keyset w') := by
  refine ⟨fun row hrow => ⟨fun a huser => ?_, fun r huser => ?_⟩,
    fun w' hw' => ⟨fun a h => ?_, fun r h => ?_⟩⟩
  · have hstart : Beside a.userId w w w w := .start hw.owned hw.owned (.refl _ w)
    have hbeside := (a.beside hw.wellformed hw.wellformed hstart).2
    exact hbeside.spares.untouched hw.owned hbeside.owned hrow huser
  · have hstart : Beside r.userId w w w w := .start hw.owned hw.owned (.refl _ w)
    have hbeside := (r.beside keyset hw.wellformed hw.wellformed hstart).2
    exact hbeside.spares.untouched hw.owned hbeside.owned hrow huser
  · have hbeside := a.beside hw.wellformed hw'.wellformed (.start hw.owned hw'.owned h)
    exact ⟨hbeside.1, hbeside.2.agree⟩
  · have hbeside := r.beside keyset hw.wellformed hw'.wellformed (.start hw.owned hw'.owned h)
    exact ⟨hbeside.1, hbeside.2.agree⟩

namespace Scenario

/-- A creation under key 1 whose process dies when the run is inserted. -/
def cut (payload : CreateSessionRequest) : Attempt :=
  attempt (.createSession payload) 1 steady (some 4)

theorem cut_result (payload : CreateSessionRequest) : (cut payload).result {} =
    { clock := 4
      storyRuns := [⟨⟨1⟩, payload.storyId, 7, .active, 3, 3⟩]
      claims := Function.update (fun _ => none) (createSlot 1)
        (some ⟨.createSession payload 7, .inProgress, none⟩) } := rfl

/-- To another user it makes no difference what is created under the key. -/
theorem agreeFor_cut (payload payload' : CreateSessionRequest) :
    AgreeFor 8 ((cut payload).result {}) ((cut payload').result {}) := by
  rw [cut_result, cut_result]
  refine ⟨rfl, rfl, rfl, rfl, fun key => ?_, fun key => ?_, fun key hkey => ?_⟩
  · by_cases hkey : key = 1
    · subst hkey
      exact .inr ⟨⟨7, rfl, by decide⟩, ⟨7, rfl, by decide⟩⟩
    · have hne : (⟨1⟩ : RunId) ≠ ⟨key⟩ := fun heq => hkey (congrArg RunId.key heq).symm
      refine .inl ?_
      simp [World.storyRun, hne]
  · by_cases hkey : key = 1
    · subst hkey
      have hne : (7 : UserId) ≠ 8 := by decide
      have hothers : ∀ p : CreateSessionRequest, OthersClaim 8 (Function.update (fun _ => none)
          (createSlot 1) (some ⟨.createSession p 7, .inProgress, none⟩) (createSlot 1)) := by
        intro p
        rw [Function.update_self]
        exact ⟨_, rfl, fun _ heq => hne (Fingerprint.createSession.inj heq).2⟩
      exact .inr ⟨fun heq => hne (Option.some.inj heq), hothers payload, hothers payload'⟩
    · have hne : createSlot key ≠ createSlot 1 := fun heq => hkey (congrArg ClaimSlot.key heq)
      refine .inl ?_
      simp [hne]
  · have hclaims : ∀ route claimKey, (⟨route, some ⟨key⟩, claimKey⟩ : ClaimSlot) ≠
        createSlot 1 := fun _ _ heq => Option.some_ne_none _ (congrArg ClaimSlot.sessionId heq)
    exact ⟨rfl, rfl, rfl, fun route claimKey => by simp [hclaims]⟩

/-- A request of the scenario made by another user. -/
def intrude (a : Attempt) : Attempt := { a with userId := 8 }

theorem users_isolated_intruder :
    (∃ row, (World.after {} [create]).session ⟨1⟩ = some row ∧
      Untouched row (World.after {} [create])
        ((intrude (abandon 2)).result (World.after {} [create]))) ∧
      ∀ payload payload',
        ((intrude create).program.run (intrude create).choices ((cut payload).result {})).1 =
          ((intrude create).program.run (intrude create).choices ((cut payload').result {})).1 := by
  have hserved : ∀ attempts, Served keyset (World.after {} attempts) :=
    fun attempts => (reachable_after attempts).served
  refine ⟨?_, fun payload payload' => ?_⟩
  · have hsome : ((World.after {} [create]).session ⟨1⟩).isSome = true := by decide +kernel
    have huser : ((World.after {} [create]).session ⟨1⟩).all
        (fun row => decide (row.record.userId ≠ 8)) = true := by decide +kernel
    obtain ⟨row, hrow⟩ := Option.isSome_iff_exists.mp hsome
    rw [hrow, Option.all_some, decide_eq_true_eq] at huser
    have hid := List.find?_some hrow
    rw [decide_eq_true_eq] at hid
    exact ⟨row, hrow, ((users_isolated (hserved [create])).1 row (hid ▸ hrow)).1 _ huser⟩
  · exact (((users_isolated (hserved [cut payload])).2 _ (hserved [cut payload'])).1
      (intrude create) (agreeFor_cut payload payload')).1

end Scenario
end StoryReview
