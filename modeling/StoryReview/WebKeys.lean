import StoryReview.WebClient

/-!
# Keys and bodies in the browser

A stored key outlives the call that stored it: a reload drops the call, and a session
locked to the end leaves the key behind. The key then goes out with whatever body comes
next in its scope. While the user only repeats what is pending, each key has one body.
-/
namespace StoryReview.WebClient

/-! ## What a step does -/

/-- Nothing is sent, no key is stored, and the body of a key that stays is kept. -/
structure Quiet (b b' : Browser) : Prop where
  sent : b'.sent = b.sent
  fresh : b'.fresh = b.fresh
  stored : ∀ scope key, b'.storage.key scope = some key →
    b.storage.key scope = some key ∧ b'.storage.body scope = b.storage.body scope
  calls : ∀ post ∈ b'.page.calls, ∃ earlier ∈ b.page.calls, earlier.toSent = post.toSent

/-- The turns that an action posts: the user's, or the pending one of an opened session. -/
inductive Asks (b : Browser) : Action → SessionId → PendingTurn → Prop
  | message {sessionId : SessionId} (text : Text) (h : b.idleSession = some sessionId) :
      Asks b (.sendTurn text) sessionId { message := some text }
  | accept {sessionId : SessionId} (h : b.idleSession = some sessionId) :
      Asks b .acceptReport sessionId { poAccepted := true }
  | resume {sessionId : SessionId} {turn : PendingTurn} (i : ℕ) (detail : SessionDetail)
      (h : b.storage.getPendingTurn sessionId = some turn) :
      Asks b (.opened i detail) sessionId turn

/-- What an action can do. The page `p` has the calls of before. -/
inductive Effect (b : Browser) : Action → Browser → Prop
  | quiet {action : Action} {b' : Browser} (h : Quiet b b') : Effect b action b'
  | create (storyId : StoryId) (p : Page) (hp : p.calls = b.page.calls) :
      Effect b (.confirmStory storyId) ({ b with page := p }.createSession storyId)
  | turn {action : Action} {sessionId : SessionId} {turn : PendingTurn}
      (h : Asks b action sessionId turn) (p : Page) (hp : p.calls = b.page.calls) :
      Effect b action ({ b with page := p }.postTurn sessionId turn)
  | abandon (sessionId : SessionId) : Effect b .runAbandon (b.abandonSession sessionId)
  | finalize (sessionId : SessionId) : Effect b .runFinalizeRetry (b.finalizeRetry sessionId)
  | resend (i : ℕ) {post : Post} (h : post ∈ b.page.calls) :
      Effect b (.slept i) { b with
        sent := b.sent ++ [post.toSent]
        page.calls := b.page.calls.set i
          { post with attempt := post.attempt + 1, sleeping := false } }

section Steps
variable {b b' : Browser}

theorem Quiet.refl (b : Browser) : Quiet b b where
  sent := rfl
  fresh := rfl
  stored := fun _ _ h => ⟨h, rfl⟩
  calls := fun post h => ⟨post, h, rfl⟩

theorem Quiet.trans {b'' : Browser} (h : Quiet b b') (h' : Quiet b' b'') : Quiet b b'' where
  sent := h'.sent.trans h.sent
  fresh := h'.fresh.trans h.fresh
  stored := by
    intro scope key hkey
    obtain ⟨hkey', hbody'⟩ := h'.stored scope key hkey
    obtain ⟨hkey'', hbody''⟩ := h.stored scope key hkey'
    exact ⟨hkey'', hbody'.trans hbody''⟩
  calls := by
    intro post hpost
    obtain ⟨earlier, hearlier, hsame⟩ := h'.calls post hpost
    obtain ⟨first, hfirst, hsame'⟩ := h.calls earlier hearlier
    exact ⟨first, hfirst, hsame'.trans hsame⟩

/-- A change of the page alone, and of the remembered session. -/
theorem quiet_page {p : Page} {sessionId : Option SessionId}
    (hp : ∀ post ∈ p.calls, ∃ earlier ∈ b.page.calls, earlier.toSent = post.toSent) :
    Quiet b { b with storage.sessionId := sessionId, page := p } where
  sent := rfl
  fresh := rfl
  stored := fun _ _ h => ⟨h, rfl⟩
  calls := hp

theorem quiet_release (b : Browser) (scope : Scope) (pendingBody : Option PendingTurn) :
    Quiet b { b with storage := b.storage.release scope pendingBody } where
  sent := rfl
  fresh := rfl
  stored := by
    intro other key hkey
    have hne : other ≠ scope := by
      rintro rfl
      simp [Storage.release] at hkey
    simp only [Storage.release, Function.update_of_ne hne] at hkey ⊢
    refine ⟨hkey, ?_⟩
    split_ifs
    · exact Function.update_of_ne hne _ _
    · rfl
  calls := fun post h => ⟨post, h, rfl⟩

theorem quiet_resolve (b : Browser) (scope : Scope) (result : Result) :
    Quiet b (b.resolve scope result) := by
  have hself : ∀ post ∈ b.page.calls, ∃ earlier ∈ b.page.calls,
      earlier.toSent = post.toSent := fun post hpost => ⟨post, hpost, rfl⟩
  unfold Browser.resolve
  split
  · exact quiet_page hself
  · exact quiet_page hself
  · exact quiet_page hself
  · exact quiet_page hself
  · exact quiet_page hself
  · exact quiet_page hself
  · exact .refl b

theorem quiet_finish (b : Browser) (i : ℕ) (post : Post) (result : Result) :
    Quiet b (b.finish i post result) := by
  have hstored : Quiet b { b with
      storage := if result.Locked then b.storage
        else b.storage.release post.scope post.pendingBody } := by
    split_ifs
    · exact .refl b
    · exact quiet_release b post.scope post.pendingBody
  have hended : Quiet b { b with
      storage := if result.Locked then b.storage
        else b.storage.release post.scope post.pendingBody
      page.calls := b.page.calls.eraseIdx i } :=
    { hstored with calls := fun other h => ⟨other, List.mem_of_mem_eraseIdx h, rfl⟩ }
  exact hended.trans (quiet_resolve _ post.scope result)

/-- An answered opening re-issues the pending turn, waits, or drops what is stored. -/
theorem effect_showSession (i : ℕ) (detail : SessionDetail) (sessionId : SessionId) {p : Page}
    (hp : p.calls = b.page.calls) :
    Effect b (.opened i detail) ({ b with page := p }.showSession sessionId detail) := by
  have hself : ∀ post ∈ p.calls, ∃ earlier ∈ b.page.calls, earlier.toSent = post.toSent :=
    fun post hpost => ⟨post, hp ▸ hpost, rfl⟩
  have hcleared : Quiet b { b with storage := b.storage.clearPendingTurn sessionId } :=
    quiet_release b (.turn sessionId) (some {})
  unfold Browser.showSession
  dsimp only
  split
  · exact .quiet (quiet_page hself)
  · next turn _ hpending _ =>
      split_ifs at hpending
      exact .turn (.resume i detail hpending) _ hp
  · split_ifs
    · exact .quiet { hcleared with calls := hself }
    · exact .quiet (quiet_page hself)
  · exact .quiet { hcleared with calls := hself }

/-- The spec of the step function. -/
theorem effect_of_act {action : Action} (h : b.act action = some b') : Effect b action b' := by
  have hself : ∀ post ∈ b.page.calls, ∃ earlier ∈ b.page.calls,
      earlier.toSent = post.toSent := fun post hpost => ⟨post, hpost, rfl⟩
  cases action with
  | confirmStory storyId =>
      simp only [Browser.act] at h
      split_ifs at h
      cases h
      exact .create storyId _ rfl
  | resume sessionId =>
      simp only [Browser.act] at h
      split_ifs at h
      cases h
      exact .quiet (quiet_page hself)
  | sendTurn message =>
      simp only [Browser.act] at h
      split_ifs at h
      obtain ⟨sessionId, hidle, rfl⟩ := Option.map_eq_some_iff.mp h
      exact .turn (.message message hidle) _ rfl
  | acceptReport =>
      obtain ⟨sessionId, hidle, rfl⟩ := Option.map_eq_some_iff.mp h
      exact .turn (.accept hidle) _ rfl
  | runAbandon =>
      obtain ⟨sessionId, -, rfl⟩ := Option.map_eq_some_iff.mp h
      exact .abandon sessionId
  | runFinalizeRetry =>
      simp only [Browser.act] at h
      split_ifs at h
      obtain ⟨sessionId, -, rfl⟩ := Option.map_eq_some_iff.mp h
      exact .finalize sessionId
  | leaveSession =>
      simp only [Browser.act] at h
      split_ifs at h
      cases h
      exact .quiet (quiet_page hself)
  | restartStory =>
      simp only [Browser.act] at h
      split_ifs at h
      cases h
      exact .quiet (quiet_page hself)
  | reload =>
      cases h
      refine .quiet ?_
      unfold Browser.reload
      split
      · exact quiet_page (by simp)
      · exact quiet_page (by simp)
  | responded i result =>
      obtain ⟨post, hpost, h⟩ := Option.bind_eq_some_iff.mp h
      split_ifs at h with hsleeping hretries
      · cases h
        refine .quiet (quiet_page fun other hother => ?_)
        rcases List.mem_or_eq_of_mem_set hother with hother | rfl
        · exact hself other hother
        · exact ⟨post, List.mem_of_getElem? hpost, rfl⟩
      · cases h
        exact .quiet (quiet_finish b i post result)
  | slept i =>
      obtain ⟨post, hpost, h⟩ := Option.bind_eq_some_iff.mp h
      split_ifs at h
      cases h
      exact .resend i (List.mem_of_getElem? hpost)
  | opened i detail =>
      obtain ⟨opening, -, rfl⟩ := Option.map_eq_some_iff.mp h
      exact effect_showSession i detail opening.sessionId rfl
  | notOpened i status =>
      obtain ⟨opening, -, rfl⟩ := Option.map_eq_some_iff.mp h
      dsimp only
      split_ifs
      · exact .quiet (quiet_page hself)
      · exact .quiet (quiet_page hself)
      · exact .quiet (quiet_page hself)
  | discovered sessionId =>
      simp only [Browser.act] at h
      split_ifs at h
      cases h
      exact .quiet (quiet_page hself)
  | stageDone =>
      obtain ⟨sessionId, -, rfl⟩ := Option.map_eq_some_iff.mp h
      dsimp only
      split_ifs
      · exact .quiet (quiet_page hself)
      · exact .quiet (quiet_page hself)

end Steps

/-! ## The invariant -/

/-- Two requests of one route and session with one key have one body. -/
def Browser.KeysOwnBodies (b : Browser) : Prop :=
  ∀ r ∈ b.sent, ∀ r' ∈ b.sent, r.scope = r'.scope → r.key = r'.key → r.body = r'.body

/-- A turn offered for resuming is the one its key was first sent with. -/
def Browser.ResumesFirst (b : Browser) : Prop :=
  ∀ sessionId turn, b.storage.getPendingTurn sessionId = some turn →
    ∃ key first, b.storage.key (.turn sessionId) = some key ∧
      b.sent.find? (fun r => decide (r.scope = .turn sessionId ∧ r.key = key)) = some first ∧
      turn.body = first.body

/-- The routes without a body. -/
def Scope.Bodiless : Scope → Prop
  | .finalize _ | .abandon _ => True
  | .createSession | .turn _ => False

structure Keyed (b : Browser) : Prop where
  bodies : b.KeysOwnBodies
  empty : ∀ r ∈ b.sent, r.scope.Bodiless → r.body = .empty
  issued : ∀ r ∈ b.sent, r.key < b.fresh
  stored : ∀ scope key, b.storage.key scope = some key →
    ∃ r ∈ b.sent, r.scope = scope ∧ r.key = key
  pending : ∀ sessionId key, b.storage.key (.turn sessionId) = some key →
    ∃ turn, b.storage.body (.turn sessionId) = some turn ∧
      ⟨.turn sessionId, key, turn.body⟩ ∈ b.sent
  running : ∀ post ∈ b.page.calls, post.toSent ∈ b.sent

section Invariant
variable {b b' : Browser} {scope : Scope} {body : Body} {pendingBody : Option PendingTurn}

theorem keyed_start : Keyed {} where
  bodies := fun _ h => nomatch h
  empty := fun _ h => nomatch h
  issued := fun _ h => nomatch h
  stored := fun _ _ h => nomatch h
  pending := fun _ _ h => nomatch h
  running := fun _ h => nomatch h

theorem Quiet.keyed (h : Quiet b b') (hb : Keyed b) : Keyed b' where
  bodies := by
    unfold Browser.KeysOwnBodies
    rw [h.sent]
    exact hb.bodies
  empty := by
    rw [h.sent]
    exact hb.empty
  issued := by
    rw [h.sent, h.fresh]
    exact hb.issued
  stored := by
    intro scope key hkey
    rw [h.sent]
    exact hb.stored scope key (h.stored scope key hkey).1
  pending := by
    intro sessionId key hkey
    obtain ⟨hkey', hbody⟩ := h.stored _ key hkey
    rw [h.sent, hbody]
    exact hb.pending sessionId key hkey'
  running := by
    intro post hpost
    obtain ⟨earlier, hearlier, hsame⟩ := h.calls post hpost
    rw [h.sent, ← hsame]
    exact hb.running earlier hearlier

/-- A post whose key is fresh, or has been sent with the same body only. -/
theorem Keyed.post (hb : Keyed b)
    (hsame : ∀ key, b.storage.key scope = some key →
      ∀ r ∈ b.sent, r.scope = scope → r.key = key → r.body = body)
    (hpending : ∀ sessionId, scope = .turn sessionId →
      ∃ turn, pendingBody = some turn ∧ turn.body = body)
    (hempty : scope.Bodiless → body = .empty) :
    Keyed (b.postWithIdempotentKey scope body pendingBody) := by
  have hagree : ∀ r ∈ b.sent, r.scope = scope → r.key = (b.storage.key scope).getD b.fresh →
      r.body = body := by
    intro r hr hscope hkey
    cases hstored : b.storage.key scope with
    | some key => exact hsame key hstored r hr hscope (by rw [hkey, hstored, Option.getD_some])
    | none =>
        rw [hstored, Option.getD_none] at hkey
        exact absurd hkey (hb.issued r hr).ne
  have hissued : (b.storage.key scope).getD b.fresh < b.fresh + 1 := by
    cases hstored : b.storage.key scope with
    | some key =>
        obtain ⟨r, hr, -, rfl⟩ := hb.stored scope key hstored
        exact (hb.issued r hr).trans b.fresh.lt_succ_self
    | none => exact b.fresh.lt_succ_self
  constructor
  · intro r hr r' hr' hscope hkey
    rcases List.mem_append.mp hr with hr | hr <;> rcases List.mem_append.mp hr' with hr' | hr'
    · exact hb.bodies r hr r' hr' hscope hkey
    · rw [List.mem_singleton] at hr'
      subst hr'
      exact hagree r hr hscope hkey
    · rw [List.mem_singleton] at hr
      subst hr
      exact (hagree r' hr' hscope.symm hkey.symm).symm
    · rw [List.mem_singleton] at hr hr'
      rw [hr, hr']
  · intro r hr
    rcases List.mem_append.mp hr with hr | hr
    · exact hb.empty r hr
    · rw [List.mem_singleton.mp hr]
      exact hempty
  · intro r hr
    rcases List.mem_append.mp hr with hr | hr
    · exact (hb.issued r hr).trans b.fresh.lt_succ_self
    · rw [List.mem_singleton.mp hr]
      exact hissued
  · intro other key hkey
    by_cases hne : other = scope
    · subst hne
      refine ⟨_, List.mem_append_right _ (List.mem_singleton_self _), rfl, ?_⟩
      simpa [Browser.postWithIdempotentKey, Storage.persist] using hkey
    · simp only [Browser.postWithIdempotentKey, Storage.persist,
        Function.update_of_ne hne] at hkey
      obtain ⟨r, hr, hscope, hrkey⟩ := hb.stored other key hkey
      exact ⟨r, List.mem_append_left _ hr, hscope, hrkey⟩
  · intro sessionId key hkey
    by_cases hne : .turn sessionId = scope
    · obtain ⟨turn, hturn, hbody⟩ := hpending sessionId hne.symm
      subst hne hturn hbody
      refine ⟨turn, by simp [Browser.postWithIdempotentKey, Storage.persist], ?_⟩
      simp only [Browser.postWithIdempotentKey, Storage.persist, Function.update_self,
        Option.some.injEq] at hkey ⊢
      subst hkey
      exact List.mem_append_right _ (List.mem_singleton_self _)
    · simp only [Browser.postWithIdempotentKey, Storage.persist,
        Function.update_of_ne hne] at hkey ⊢
      obtain ⟨turn, hturn, hsent⟩ := hb.pending sessionId key hkey
      exact ⟨turn, hturn, List.mem_append_left _ hsent⟩
  · intro post hpost
    rcases List.mem_append.mp hpost with hpost | hpost
    · exact List.mem_append_left _ (hb.running post hpost)
    · rw [List.mem_singleton.mp hpost]
      exact List.mem_append_right _ (List.mem_singleton_self _)

/-- A second attempt repeats a request that is on record. -/
theorem Keyed.resend (hb : Keyed b) {post : Post} (hpost : post ∈ b.page.calls) {p : Page}
    (hp : ∀ other ∈ p.calls, ∃ earlier ∈ b.page.calls, earlier.toSent = other.toSent) :
    Keyed { b with sent := b.sent ++ [post.toSent], page := p } := by
  have hmem : ∀ r, r ∈ b.sent ++ [post.toSent] ↔ r ∈ b.sent := by
    intro r
    rw [List.mem_append, List.mem_singleton, or_iff_left_iff_imp]
    rintro rfl
    exact hb.running post hpost
  constructor
  · intro r hr r' hr'
    exact hb.bodies r ((hmem r).mp hr) r' ((hmem r').mp hr')
  · exact fun r hr => hb.empty r ((hmem r).mp hr)
  · exact fun r hr => hb.issued r ((hmem r).mp hr)
  · intro scope key hkey
    obtain ⟨r, hr, hrest⟩ := hb.stored scope key hkey
    exact ⟨r, (hmem r).mpr hr, hrest⟩
  · intro sessionId key hkey
    obtain ⟨turn, hturn, hsent⟩ := hb.pending sessionId key hkey
    exact ⟨turn, hturn, (hmem _).mpr hsent⟩
  · intro other hother
    obtain ⟨earlier, hearlier, hsame⟩ := hp other hother
    exact (hmem _).mpr (hsame ▸ hb.running earlier hearlier)

end Invariant

/-! ## Users that repeat what is pending -/

/-- A user who confirms a story while a creation's key is stored confirms that story again,
and one who sends a turn while the session's turn is pending sends that turn again. -/
def Browser.Repeats (b : Browser) : Action → Prop
  | .confirmStory storyId => ∀ key, b.storage.key .createSession = some key →
      ∀ r ∈ b.sent, r.scope = .createSession → r.key = key →
        r.body = .createSession storyId [.md, .pdf]
  | .sendTurn message => ∀ sessionId turn, b.idleSession = some sessionId →
      b.storage.getPendingTurn sessionId = some turn →
        turn.body = .message (some message)
  | .acceptReport => ∀ sessionId turn, b.idleSession = some sessionId →
      b.storage.getPendingTurn sessionId = some turn → turn.body = .poAccepted
  | _ => True

section Runs
variable {b b' : Browser} {action : Action} {sessionId : SessionId} {turn : PendingTurn}

theorem Asks.body_of_pending (h : Asks b action sessionId turn) (hrepeats : b.Repeats action)
    {pending : PendingTurn} (hpending : b.storage.getPendingTurn sessionId = some pending) :
    pending.body = turn.body := by
  cases h with
  | message text hidle => exact hrepeats sessionId pending hidle hpending
  | accept hidle => exact hrepeats sessionId pending hidle hpending
  | resume i detail h => rw [Option.some.inj (hpending.symm.trans h)]

/-- The bodies sent under the key of a pending turn are that turn's. -/
theorem Keyed.body_of_key (hb : Keyed b) {key : IdempotencyKey}
    (hkey : b.storage.key (.turn sessionId) = some key) :
    ∃ pending, b.storage.getPendingTurn sessionId = some pending ∧
      ∀ r ∈ b.sent, r.scope = .turn sessionId → r.key = key → r.body = pending.body := by
  obtain ⟨pending, hpending, hsent⟩ := hb.pending sessionId key hkey
  refine ⟨pending, ?_, fun r hr hscope hrkey => hb.bodies r hr _ hsent hscope hrkey⟩
  rw [Storage.getPendingTurn, if_neg (by simp [hkey]), hpending]

/-- The routes without a body are safe to post to. -/
theorem Keyed.post_empty (hb : Keyed b) {scope : Scope} (hscope : scope.Bodiless) :
    Keyed (b.postWithIdempotentKey scope .empty none) := by
  refine hb.post ?_ ?_ fun _ => rfl
  · rintro key - r hr rfl -
    exact hb.empty r hr hscope
  · rintro sessionId rfl
    cases hscope

/-- The step. -/
theorem Effect.keyed (h : Effect b action b') (hb : Keyed b) (hrepeats : b.Repeats action) :
    Keyed b' := by
  have hpage : ∀ p : Page, p.calls = b.page.calls → Keyed { b with page := p } := by
    intro p hp
    exact Quiet.keyed (quiet_page fun post hpost => ⟨post, hp ▸ hpost, rfl⟩) hb
  cases h with
  | quiet h => exact h.keyed hb
  | create storyId p hp => exact (hpage p hp).post hrepeats nofun nofun
  | @turn _ sessionId turn h p hp =>
      refine (hpage p hp).post ?_ ?_ nofun
      · intro key hkey r hr hscope hrkey
        obtain ⟨pending, hpending, hbodies⟩ := hb.body_of_key hkey
        rw [hbodies r hr hscope hrkey, h.body_of_pending hrepeats hpending]
      · rintro _ -
        exact ⟨turn, rfl, rfl⟩
  | abandon sessionId => exact hb.post_empty trivial
  | finalize sessionId => exact hb.post_empty trivial
  | resend i hpost =>
      refine hb.resend hpost fun other hother => ?_
      rcases List.mem_or_eq_of_mem_set hother with hother | rfl
      · exact ⟨other, hother, rfl⟩
      · exact ⟨_, hpost, rfl⟩

/-- The run. -/
theorem keyed_of_repeats (h : ReachableIf Browser.Repeats b) : Keyed b := by
  induction h with
  | start => exact keyed_start
  | act action _ hrepeats hact ih => exact (effect_of_act hact).keyed ih hrepeats

theorem Keyed.resumesFirst (hb : Keyed b) : b.ResumesFirst := by
  intro sessionId turn hturn
  cases hkey : b.storage.key (.turn sessionId) with
  | none => simp [Storage.getPendingTurn, hkey] at hturn
  | some key =>
      obtain ⟨pending, hpending, hsent⟩ := hb.pending sessionId key hkey
      have hsame : pending = turn := by
        rw [Storage.getPendingTurn, if_neg (by simp [hkey]), hpending] at hturn
        exact Option.some.inj hturn
      have hfound : (b.sent.find? fun r =>
          decide (r.scope = .turn sessionId ∧ r.key = key)).isSome := by
        rw [List.find?_isSome]
        exact ⟨_, hsent, by simp⟩
      obtain ⟨first, hfirst⟩ := Option.isSome_iff_exists.mp hfound
      have hslot := List.find?_some hfirst
      rw [decide_eq_true_eq] at hslot
      exact ⟨key, first, rfl, hfirst, hsame ▸
        hb.bodies _ hsent first (List.mem_of_find?_eq_some hfirst) hslot.1.symm hslot.2.symm⟩

end Runs

/-! ## What the server sees -/

/-- The attempt carries out the request. -/
def Sent.Delivers (r : Sent) (a : Attempt) : Prop := r.request = some a.request ∧ a.key = r.key

/-- The claim that the server holds the request to. -/
def Scope.slot (scope : Scope) (key : IdempotencyKey) : ClaimSlot :=
  match scope with
  | .createSession => ⟨.createSession, none, key⟩
  | .turn sessionId => ⟨.turns, some sessionId, key⟩
  | .finalize sessionId => ⟨.finalize, some sessionId, key⟩
  | .abandon sessionId => ⟨.abandon, some sessionId, key⟩

/-- No two requests of one user make the server find a key reused. -/
def Browser.NeverReuses (b : Browser) : Prop :=
  ∀ r ∈ b.sent, ∀ r' ∈ b.sent, ∀ a a' : Attempt, r.Delivers a → r'.Delivers a' →
    a.userId = a'.userId → a.slot = a'.slot → a.fingerprint = a'.fingerprint

section Server
variable {b : Browser} {r r' : Sent} {a a' : Attempt}

theorem Sent.Delivers.slot_eq (h : r.Delivers a) : a.slot = r.scope.slot r.key := by
  obtain ⟨hrequest, hkey⟩ := h
  rw [← hkey, Attempt.slot]
  unfold Sent.request at hrequest
  split at hrequest
  · next hscope _ =>
      split_ifs at hrequest
      rw [← Option.some.inj hrequest, hscope]
      rfl
  · next hscope _ =>
      rw [← Option.some.inj hrequest, hscope]
      rfl
  · next hscope _ =>
      rw [← Option.some.inj hrequest, hscope]
      rfl
  · next hscope _ =>
      rw [← Option.some.inj hrequest, hscope]
      rfl
  · next hscope _ =>
      rw [← Option.some.inj hrequest, hscope]
      rfl
  · cases hrequest

theorem Scope.slot_injective {scope scope' : Scope} {key key' : IdempotencyKey}
    (h : scope.slot key = scope'.slot key') : scope = scope' ∧ key = key' := by
  cases scope <;> cases scope' <;> simp_all [Scope.slot]

theorem fingerprint_of_request (hrequest : a.request = a'.request) (huser : a.userId = a'.userId) :
    a.fingerprint = a'.fingerprint := by
  rw [Attempt.fingerprint, Attempt.fingerprint, hrequest, huser]

theorem Browser.KeysOwnBodies.neverReuses (h : b.KeysOwnBodies) : b.NeverReuses := by
  intro r hr r' hr' a a' hdelivers hdelivers' huser hslot
  rw [hdelivers.slot_eq, hdelivers'.slot_eq] at hslot
  obtain ⟨hscope, hkey⟩ := Scope.slot_injective hslot
  have hbody := h r hr r' hr' hscope hkey
  have hrequest : r.request = r'.request := by rw [Sent.request, Sent.request, hscope, hbody]
  rw [hdelivers.1, hdelivers'.1] at hrequest
  exact fingerprint_of_request (Option.some.inj hrequest) huser

/-- In every run whose users repeat what is pending, each key has one body, a turn offered
for resuming is the one its key was first sent with, and the server finds no key reused. -/
theorem repeats_keysOwnBodies (h : ReachableIf Browser.Repeats b) :
    b.KeysOwnBodies ∧ b.ResumesFirst ∧ b.NeverReuses :=
  have hkeyed := keyed_of_repeats h
  ⟨hkeyed.bodies, hkeyed.resumesFirst, hkeyed.bodies.neverReuses⟩

/-- After a reload the same story is confirmed again. -/
theorem sameStory_keysOwnBodies : ∃ b, ReachableIf Browser.Repeats b ∧
    b.sent = List.replicate 2 ⟨.createSession, 1, .createSession "story-01" [.md, .pdf]⟩ ∧
    b.KeysOwnBodies ∧ b.ResumesFirst ∧ b.NeverReuses := by
  have hfirst : ReachableIf Browser.Repeats (Browser.startSession {} "story-01") :=
    .act (.confirmStory "story-01") .start nofun rfl
  have hreloaded : ReachableIf Browser.Repeats (Browser.startSession {} "story-01").reload :=
    .act .reload hfirst trivial rfl
  have hsecond : ReachableIf Browser.Repeats
      ((Browser.startSession {} "story-01").reload.startSession "story-01") := by
    refine .act (.confirmStory "story-01") hreloaded ?_ rfl
    intro key _ r hr _ _
    rw [List.mem_singleton.mp hr]
  exact ⟨_, hsecond, rfl, repeats_keysOwnBodies hsecond⟩

end Server

/-! ## Runs -/

namespace Browser

/-- The browser after the actions, when each can be taken. -/
def after (b : Browser) (actions : List Action) : Option Browser :=
  actions.foldlM act b

theorem reachable_after {actions : List Action} {b b' : Browser} (hb : Reachable b)
    (h : b.after actions = some b') : Reachable b' := by
  induction actions generalizing b with
  | nil =>
      cases h
      exact hb
  | cons action actions ih =>
      obtain ⟨next, hact, hrest⟩ := Option.bind_eq_some_iff.mp h
      exact ih (hb.act action trivial hact) hrest

end Browser

/-- A story is confirmed, the page reloaded, and another story confirmed. -/
def otherStory : List Action :=
  [.confirmStory "story-01", .reload, .confirmStory "story-02"]

def storiesSent : List Sent :=
  [⟨.createSession, 1, .createSession "story-01" [.md, .pdf]⟩,
    ⟨.createSession, 1, .createSession "story-02" [.md, .pdf]⟩]

/-- A message meets a lease for as long as it is retried, and another message is sent. -/
def otherMessage : List Action :=
  [.resume ⟨7⟩, .opened 0 ⟨.active, false⟩, .sendTurn "Why?"] ++
    (List.replicate 4 [.responded 0 (.error 409 (some .sessionLocked)), .slept 0]).flatten ++
    [.responded 0 (.error 409 (some .sessionLocked)), .sendTurn "Stop."]

def messagesSent : List Sent :=
  List.replicate 5 ⟨.turn ⟨7⟩, 1, .message (some "Why?")⟩ ++
    [⟨.turn ⟨7⟩, 1, .message (some "Stop.")⟩]

/-- What a run sends, and what it leaves pending of a session. -/
theorem exists_reachable (actions : List Action) (sent : List Sent) (sessionId : SessionId)
    (key : Option IdempotencyKey) (turn : Option PendingTurn)
    (h : (Browser.after {} actions).map (fun b =>
      (b.sent, b.storage.key (.turn sessionId), b.storage.getPendingTurn sessionId)) =
        some (sent, key, turn)) :
    ∃ b, Reachable b ∧ b.sent = sent ∧ b.storage.key (.turn sessionId) = key ∧
      b.storage.getPendingTurn sessionId = turn := by
  obtain ⟨b, hrun, hb⟩ := Option.map_eq_some_iff.mp h
  obtain ⟨hsent, hrest⟩ := Prod.mk.inj hb
  obtain ⟨hkey, hturn⟩ := Prod.mk.inj hrest
  exact ⟨b, Browser.reachable_after .start hrun, hsent, hkey, hturn⟩

/-- Two stories go out under one key, and so do two messages of a session; the second
message is then offered for resuming under the key of the first. -/
theorem browser_reusesKeys :
    (∃ b, Reachable b ∧ b.sent = storiesSent ∧ ¬ b.KeysOwnBodies) ∧
      ∃ b, Reachable b ∧ b.sent = messagesSent ∧ ¬ b.KeysOwnBodies ∧ ¬ b.ResumesFirst := by
  constructor
  · obtain ⟨b, hb, hsent, -⟩ := exists_reachable otherStory storiesSent ⟨7⟩ none none
      (by decide +kernel)
    refine ⟨b, hb, hsent, fun h => ?_⟩
    rw [Browser.KeysOwnBodies, hsent] at h
    exact absurd h (by decide)
  · obtain ⟨b, hb, hsent, hkey, hturn⟩ := exists_reachable otherMessage messagesSent ⟨7⟩
      (some 1) (some { message := some "Stop." }) (by decide +kernel)
    refine ⟨b, hb, hsent, fun h => ?_, fun h => ?_⟩
    · rw [Browser.KeysOwnBodies, hsent] at h
      exact absurd h (by decide)
    · obtain ⟨key, first, hstored, hfirst, hbody⟩ := h ⟨7⟩ _ hturn
      cases hkey.symm.trans hstored
      have hwhy : messagesSent.find? (fun r =>
          decide (r.scope = .turn ⟨7⟩ ∧ r.key = 1)) = messagesSent.head? := by decide
      rw [hsent, hwhy] at hfirst
      cases hfirst
      exact absurd hbody (by decide)

end StoryReview.WebClient
