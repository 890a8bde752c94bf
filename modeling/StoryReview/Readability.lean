import StoryReview.SessionReads
import StoryReview.Statements

/-!
# Which sessions stay readable

Partial updates and stamps bypass the validators of the rows, yet every row stays valid.
Of the caps that only the response models state, the one on the history is not kept:
acceptances are not counted, and one that dies or fails leaves its turn.
-/
namespace StoryReview
open Program Flows RecordsStore

/-! ## Session ids are unique -/

def World.sessionIds (w : World) : List SessionId := w.cores.map SessionRecord.sessionId

theorem World.sessionIds_sessionUpdated (w : World) (id : SessionId) (u : SessionUpdate) :
    (sessionUpdated id u w).sessionIds = w.sessionIds := by
  rw [World.sessionIds, World.cores_sessionUpdated, List.map_map]
  refine List.map_congr_left fun s _ => ?_
  rw [Function.comp_apply]
  split_ifs <;> rfl

section Steps
variable {a : Attempt} {w₀ w w' : World}

theorem sessionIds_of_cores (h : w'.cores = w.cores) : w'.sessionIds = w.sessionIds :=
  congrArg (List.map SessionRecord.sessionId) h

/-- A step keeps the session ids, or adds a new one. -/
theorem Commit.sessionIds_cases (hc : Commit a w₀ w w') : w'.sessionIds = w.sessionIds ∨
    (w'.sessionIds = w.sessionIds ++ [⟨a.key⟩] ∧ ⟨a.key⟩ ∉ w.sessionIds) := by
  cases hc with
  | quiet hq => exact .inl (sessionIds_of_cores hq.cores)
  | draft _ hsaves =>
      obtain ⟨_, _, _, _, _, _, rfl⟩ := hsaves
      exact .inl rfl
  | claim => exact .inl rfl
  | release => exact .inl (sessionIds_of_cores (World.sameButClaims_released _ _).cores)
  | storyRun => exact .inl rfl
  | session storyId at_ hrequest hnew hrun =>
      refine .inr ⟨by simp [World.sessionIds, World.cores, SessionRecord.core], fun hmem => ?_⟩
      obtain ⟨s, hs, hid⟩ := List.mem_map.mp hmem
      exact (hnew s hs).1 hid
  | turn => exact .inl rfl
  | mark => exact .inl (w.sessionIds_sessionUpdated _ _)
  | finalReview => exact .inl rfl
  | report => exact .inl rfl
  | stamp => exact .inl rfl
  | close => exact .inl ((sessionIds_of_cores (World.sameButClaims_completed _ _ _).cores).trans
      (w.sessionIds_sessionUpdated _ _))
  | created => exact .inl (sessionIds_of_cores (World.sameButClaims_completed _ _ _).cores)
  | parkFailed => exact .inl ((sessionIds_of_cores (World.sameButClaims_released _ _).cores).trans
      (w.sessionIds_sessionUpdated _ _))

theorem Evolves.sessionIds_nodup (h : w₀.sessionIds.Nodup) (hw : Evolves a w₀ w₀ w) :
    w.sessionIds.Nodup := by
  induction hw with
  | refl => exact h
  | tail _ hc ih =>
      rcases hc.sessionIds_cases with hsame | ⟨hnew, hmem⟩
      · exact hsame ▸ ih
      · rw [hnew]
        exact List.nodup_append.mpr ⟨ih, List.nodup_singleton _, fun id hid id' hid' heq =>
          hmem (List.mem_singleton.mp hid' ▸ heq ▸ hid)⟩

end Steps

/-- A session row is the one found under its id. -/
theorem World.session_of_mem {w : World} (h : w.sessionIds.Nodup) {row : SessionRow}
    (hrow : row ∈ w.sessions) : w.session row.record.sessionId = some row := by
  have hids : (w.sessions.map fun row => row.record.sessionId).Nodup := by
    simpa [World.sessionIds, World.cores, Function.comp_def, SessionRecord.core] using h
  obtain ⟨found, hfound⟩ := Option.isSome_iff_exists.mp
    (List.find?_isSome (p := fun q : SessionRow =>
      decide (q.record.sessionId = row.record.sessionId)) |>.mpr ⟨row, hrow, decide_eq_true rfl⟩)
  have hid := List.find?_some hfound
  rw [decide_eq_true_eq] at hid
  have hsame := List.inj_on_of_nodup_map hids (List.mem_of_find?_eq_some hfound) hrow hid
  exact hsame ▸ hfound

/-! ## Histories -/

/-- A turn request that may add to its session's history: the session is active and the
key has no answer yet. -/
def Attempt.Extends (a : Attempt) (w : World) : Prop :=
  (∃ payload, a.request = .turn a.sessionId payload) ∧
    (∃ s, w.core a.sessionId = some s ∧ s.state = .active) ∧
    ∀ row, w.claims a.slot = some row → row.state = .inProgress

/-- No history of a hundred turns is added to. -/
def SparesHistory (w : World) (a : Attempt) : Prop :=
  a.Extends w → (w.turns a.sessionId).length < 100

section Steps
variable {a : Attempt} {w₀ w w' : World}

theorem NewTurn.length_lt {s : SessionRecord} {row : TurnRow} (hspares : SparesHistory w₀ a)
    (hs : w.core a.sessionId = some s) (hnew : NewTurn a w₀ w s row)
    (hclaim : a.slot.sessionId.isSome →
      ∀ claim, w₀.claims a.slot = some claim → claim.state = .inProgress) :
    (w.turns a.sessionId).length < 100 := by
  have hid := World.sessionId_of_core hs
  have hextends : ∀ payload, a.request = .turn s.sessionId payload →
      (∃ s₀, w₀.core s.sessionId = some s₀ ∧ s₀.state = .active) →
      (w₀.turns a.sessionId).length < 100 := by
    intro payload hrequest hactive
    rw [hid] at hrequest hactive
    refine hspares ⟨⟨payload, hrequest⟩, hactive, hclaim ?_⟩
    rw [Attempt.slot, hrequest]
    rfl
  cases hnew with
  | opening _ _ _ _ _ _ _ _ _ hempty =>
      rw [← hid, hempty]
      exact Nat.zero_lt_succ _
  | accepted hrequest _ hsame hbefore =>
      rw [← hid, hsame, hid]
      exact hextends _ hrequest hbefore
  | message hrequest _ hsame hbefore =>
      rw [← hid, hsame, hid]
      exact hextends _ hrequest ⟨s, hbefore⟩

/-- A session claim that is open now was open, or not there, when the attempt started. -/
theorem Evolves.claim_open (hw : Evolves a w₀ w₀ w) (hslot : a.slot.sessionId.isSome)
    (hholds : a.HoldsClaim w) :
    ∀ claim, w₀.claims a.slot = some claim → claim.state = .inProgress := by
  intro claim hclaim
  cases hstate : claim.state with
  | inProgress => rfl
  | completed =>
      have hkept : w.claims a.slot = some claim := by
        clear hholds
        induction hw with
        | refl => exact hclaim
        | tail _ hc ih => exact hc.claim_kept hslot ih hstate
      obtain ⟨row, hrow, hopen, -⟩ := hholds
      cases hkept.symm.trans hrow
      exact hstate.symm.trans hopen

theorem Evolves.history_le (hspares : SparesHistory w₀ a)
    (h : ∀ id, (w₀.turns id).length ≤ 100) (hw : Evolves a w₀ w₀ w) :
    ∀ id, (w.turns id).length ≤ 100 := by
  induction hw with
  | refl => exact h
  | @tail v w' hv hc ih =>
      intro id
      generalize hrows : w'.turns id = rows
      have heffect := hrows ▸ hc.turns_cases id
      cases heffect with
      | same => exact ih id
      | append hid hs hstate hnew hclaim =>
          subst hid
          rw [List.length_append]
          exact hnew.length_lt hspares hs fun hslot => Evolves.claim_open hv hslot hclaim
      | stamp =>
          rw [List.length_map]
          exact ih id

end Steps

/-! ## Runs with reads -/

section Runs
variable {keyset : Keyset} {P : World → Attempt → Prop} {w : World}

theorem ServedIf.mono {Q : World → Attempt → Prop} (hPQ : ∀ w a, P w a → Q w a)
    (h : ServedIf keyset P w) : ServedIf keyset Q w := by
  induction h with
  | init => exact .init
  | attempt a _ ha ih => exact .attempt a ih (hPQ _ _ ha)
  | read r _ ih => exact .read r ih

theorem ServedIf.inv (h : ServedIf keyset P w) : Inv w := by
  induction h with
  | init => exact inv_init
  | attempt a _ _ ih => exact ih.evolves (a.evolves ih)
  | read r _ ih => exact ih.quiet (r.still keyset _).quiet

theorem ServedIf.sessionIds_nodup (h : ServedIf keyset P w) : w.sessionIds.Nodup := by
  induction h with
  | init => exact List.nodup_nil
  | attempt a hw _ ih => exact Evolves.sessionIds_nodup ih (a.evolves hw.inv)
  | @read w r _ ih =>
      rw [sessionIds_of_cores (r.still keyset w).quiet.cores]
      exact ih

theorem ServedIf.history_le (h : ServedIf keyset SparesHistory w) :
    ∀ id, (w.turns id).length ≤ 100 := by
  induction h with
  | init => exact fun _ => Nat.zero_le _
  | attempt a hw ha ih => exact Evolves.history_le ha ih (a.evolves hw.inv)
  | @read w r _ ih =>
      rw [(r.still keyset w).turns]
      exact ih

theorem ServedIf.valid_of_mem (h : ServedIf keyset P w) {row : SessionRow}
    (hrow : row ∈ w.sessions) : row.record.Valid := by
  have hcore := World.core_of_session (World.session_of_mem h.sessionIds_nodup hrow)
  exact SessionRecord.core_valid.mp (h.inv.valid _ _ hcore)

theorem ServedIf.turn_valid (h : ServedIf keyset P w) {id : SessionId} {row : TurnRow}
    (hrow : row ∈ w.turns id) : row.record.Valid :=
  (h.inv.turns id row.record (List.mem_map_of_mem hrow)).1

end Runs

/-! ## Building the responses -/

theorem mapM_ok {ε α β : Type} {f : α → Except ε β} {xs : List α}
    (h : ∀ x ∈ xs, ∃ y, f x = .ok y) :
    ∃ ys, xs.mapM f = .ok ys ∧ ys.length = xs.length := by
  induction xs with
  | nil => exact ⟨[], rfl, rfl⟩
  | cons x xs ih =>
      obtain ⟨y, hy⟩ := h x List.mem_cons_self
      obtain ⟨ys, hys, hlength⟩ := ih fun x' hx' => h x' (List.mem_cons_of_mem _ hx')
      refine ⟨y :: ys, ?_, congrArg Nat.succ hlength⟩
      rw [List.mapM_cons, hy, hys]
      rfl

section Responses
variable {record : SessionRecord}

theorem sessionSummary_ok {row : SessionRow} (h : row.record.Valid) :
    ∃ summary, SessionsApi.sessionSummary row = .ok summary :=
  ⟨_, if_pos ⟨h.1, Commit.length_le_of_formats h.2.1, h.2.1⟩⟩

theorem turnView_ok {turn : TurnRecord} (h : turn.Valid) :
    ∃ view, SessionsApi.turnView turn = .ok view := by
  obtain ⟨haction, hresolutions, -, hproduced, hnumber⟩ := h
  exact ⟨_, if_pos ⟨hnumber, hresolutions, hproduced, haction⟩⟩

/-- The downloads of a valid record meet what the detail asks of them. -/
theorem sessionReports_ok (h : record.Valid) :
    ∃ reports, SessionsApi.sessionReports record = .ok reports ∧ reports.length ≤ 2 ∧
      (reports.map ArtifactReference.type).Nodup ∧
      (record.state = .completed → ∀ f : Format, f ∈ record.requestedFormats ↔
        .report f ∈ reports.map ArtifactReference.type) ∧
      (record.state ≠ .completed → reports = []) := by
  obtain ⟨hformats, -, -, -, hlength, htypes, hnodup, hcompleted⟩ := h
  unfold SessionsApi.sessionReports
  by_cases hstate : record.state = .completed
  · obtain ⟨-, hreports⟩ := hcompleted hstate
    have hne : record.reportReferences ≠ [] := by
      obtain ⟨f, hf⟩ := List.exists_mem_of_ne_nil _ hformats
      intro hnil
      have hmem := (hreports f).mp hf
      rw [hnil] at hmem
      cases hmem
    rw [if_pos hstate, Finalize.reportResponse, if_pos ⟨hne, hlength, htypes, hnodup⟩]
    exact ⟨_, rfl, hlength, hnodup, fun _ => hreports, fun h => absurd hstate h⟩
  · rw [if_neg hstate]
    exact ⟨[], rfl, Nat.zero_le _, List.nodup_nil, fun h => absurd h hstate, fun _ => rfl⟩

end Responses

/-- Every call is answered. -/
def Choice.Answered (c : Choice) : Prop := c.failure = none

section Detail
variable {w : World} {row : SessionRow} {E : PyException → World → Prop}

theorem length_listing (o : RunObjects) (limit offset : ℕ) :
    (o.listing limit offset).length ≤ limit := by
  simp [RunObjects.listing]

theorem wp_runArtifacts {Q : List ArtifactReference → World → Prop} {run : RunId}
    (correlationId : Uuid) (hQ : ∀ references w', references.length ≤ 500 → Still w w' →
      Q references w') :
    (SessionsApi.runArtifacts run correlationId).wp Choice.Answered (fun _ => True) Q E w := by
  refine (wp_tryCatch _ _).mpr (wp_storeCall (fun c failure hc hf => ?_) fun c _ _ w' hw' => ?_)
  · rw [hc] at hf
    cases hf
  · have hlost : Still w w' := hw' ▸ Still.afterLost (fun _ _ _ => wp_list rfl rfl) w c
    exact wp_list trivial ⟨trivial, hQ _ _ (length_listing _ _ _) (hlost.trans (.served w' run))⟩

theorem wp_getSession {A : Choice → Prop} (hrow : w.session row.record.sessionId = some row)
    (hvalid : row.record.Valid) :
    (RecordsStore.getSession row.record.sessionId row.record.userId).wp A (fun _ => True)
      (fun found w' => found = some row.record ∧ Still w w') E w := by
  refine (wp_bind _ _).mpr fun c _ => ⟨trivial, ?_⟩
  have hfound : ((w.tick c).session row.record.sessionId).filter
      (fun r => decide (r.record.userId = row.record.userId)) = some row := by
    rw [show (w.tick c).session row.record.sessionId = some row from hrow]
    simp
  dsimp only
  rw [hfound]
  refine (wp_bind _ _).mpr ?_
  rw [sessionFromRow, if_pos hvalid, ofExcept_ok, wp_ret]
  exact ⟨rfl, .tick w c⟩

theorem wp_listTurns {A : Choice → Prop} {id : SessionId}
    (hturns : ∀ t ∈ w.turns id, t.record.Valid) :
    (listTurns id).wp A (fun _ => True) (fun turns w' => turns = w.history id ∧ Still w w')
      E w := by
  refine (wp_bind _ _).mpr fun c _ => ⟨trivial, ?_⟩
  have hvalid : ∀ t ∈ (w.tick c).turns id, t.record.Valid := hturns
  rw [wp_ret, if_pos hvalid]
  exact ⟨rfl, .tick w c⟩

/-- A detail request for the owner's session ends with the detail, or fails to build it if
the history is too long. -/
theorem wp_getDetail (hrow : w.session row.record.sessionId = some row)
    (hvalid : row.record.Valid) (hturns : ∀ t ∈ w.turns row.record.sessionId, t.record.Valid)
    (correlationId : Uuid) :
    (SessionsApi.getSession row.record.sessionId correlationId row.record.userId).wp
      Choice.Answered (fun _ => True)
      (fun _ _ => (w.turns row.record.sessionId).length ≤ 100)
      (fun _ _ => 100 < (w.turns row.record.sessionId).length) w := by
  have hviewable : ∀ t ∈ w.history row.record.sessionId,
      ∃ view, SessionsApi.turnView t = .ok view := by
    intro t ht
    obtain ⟨r, hr, rfl⟩ := List.mem_map.mp ht
    exact turnView_ok (hturns r hr)
  obtain ⟨views, hviews, hlength⟩ := mapM_ok hviewable
  rw [World.history, List.length_map] at hlength
  obtain ⟨reports, hreports, hcap, hnodup, hcompleted, hnone⟩ := sessionReports_ok hvalid
  refine (wp_bind _ _).mpr (wp_mono (wp_getSession hrow hvalid) (fun _ _ => trivial) ?_
    fun _ _ h => h)
  rintro _ u ⟨rfl, hu⟩
  refine (wp_bind _ _).mpr (wp_mono (wp_listTurns (hu.turns ▸ hturns)) (fun _ _ => trivial) ?_
    fun _ _ h => h)
  rintro _ v ⟨rfl, hv⟩
  refine (wp_bind _ _).mpr (wp_runArtifacts correlationId fun references w' hcount hw' => ?_)
  have hsame : u.history row.record.sessionId = w.history row.record.sessionId := by
    rw [World.history, hu.turns, World.history]
  rw [hreports, hsame, hviews]
  refine (wp_bind _ _).mpr fun c _ => ⟨trivial, ?_⟩
  dsimp only
  rw [ret_bind, SessionsApi.sessionDetail]
  by_cases hcaps : views.length ≤ 100
  · rw [if_pos]
    · exact (hlength ▸ hcaps : (w.turns row.record.sessionId).length ≤ 100)
    · exact ⟨⟨hvalid.1, Commit.length_le_of_formats hvalid.2.1, hvalid.2.1⟩, hvalid.2.2.1,
        hcaps, hcount.trans (by decide), hcap, hnodup, hcompleted, hnone⟩
  · rw [if_neg fun hdetail => hcaps hdetail.2.2.1]
    exact (hlength ▸ not_le.mp hcaps : 100 < (w.turns row.record.sessionId).length)

/-- A page of decoded rows is listed, whatever it is asked from. -/
theorem wp_listSessions (A : Choice → Prop) {keyset : Keyset} {limit : ℤ}
    {cursor : Option Text} (hlimit : 1 ≤ limit ∧ limit ≤ 100)
    (hcursor : ∀ text ∈ cursor, (keyset.decodeCursor text).isSome)
    (hvalid : ∀ row ∈ w.sessions, row.record.Valid) (correlationId : Uuid) (userId : UserId) :
    (SessionsApi.listSessions keyset limit cursor correlationId userId).wp A (fun _ => True)
      (fun _ _ => True) (fun _ _ => False) w := by
  unfold SessionsApi.listSessions
  rw [if_neg (by omega)]
  refine (wp_bind _ _).mpr ((wp_ofExcept _).mpr ⟨fun before _ => ?_, fun e he => ?_⟩)
  swap
  · cases cursor with
    | none => cases he
    | some text =>
        obtain ⟨key, hkey⟩ := Option.isSome_iff_exists.mp (hcursor text rfl)
        simp only [hkey] at he
        cases he
  refine (wp_bind _ _).mpr ((wp_bind _ _).mpr fun c _ => ⟨trivial, ?_⟩)
  rw [wp_ret]
  have hpage : ∀ row ∈ (sessionRows keyset userId limit.toNat before (w.tick c)).take
      limit.toNat, row.record.Valid := by
    intro row hrow
    have hmem := List.mem_of_mem_take (List.mem_of_mem_take hrow)
    rw [List.mem_insertionSort] at hmem
    exact hvalid row (List.mem_of_mem_filter (List.mem_of_mem_filter hmem))
  have hcount : ((sessionRows keyset userId limit.toNat before (w.tick c)).take
      limit.toNat).length ≤ 100 := by
    rw [List.length_take]
    omega
  rw [if_pos hpage]
  obtain ⟨summaries, hsummaries, hlength⟩ :=
    mapM_ok fun row hrow => sessionSummary_ok (hpage row hrow)
  dsimp only
  rw [pure_eq, wp_ret, hsummaries]
  refine (wp_bind _ _).mpr ?_
  rw [ofExcept_ok, wp_ret, if_pos (hlength ▸ hcount)]
  trivial

end Detail

/-! ## Readable sessions -/

/-- The owner's detail request is answered whenever its calls are. -/
def World.Shows (w : World) (row : SessionRow) : Prop :=
  ∀ correlationId choices, (∀ n, (choices n).Answered) → ∃ detail,
    ((SessionsApi.getSession row.record.sessionId correlationId row.record.userId).run choices
      w).1 = .ok detail

section Readable
variable {keyset : Keyset} {P : World → Attempt → Prop} {w : World} {row : SessionRow}

theorem ServedIf.shows_iff (h : ServedIf keyset P w) (hrow : row ∈ w.sessions) :
    w.Shows row ↔ (w.turns row.record.sessionId).length ≤ 100 := by
  have hwp := wp_getDetail (World.session_of_mem h.sessionIds_nodup hrow)
    (h.valid_of_mem hrow) fun t ht => h.turn_valid ht
  constructor
  · intro hshows
    have hanswered : ∀ _ : ℕ, Scenario.steady.Answered := fun _ => rfl
    obtain ⟨detail, hdetail⟩ := hshows 0 (fun _ => Scenario.steady) hanswered
    have hend := wp_run (hwp 0) hanswered
    revert hdetail hend
    generalize Program.run _ _ _ = outcome
    obtain ⟨result, w'⟩ := outcome
    rintro rfl hle
    exact hle
  · intro hle correlationId choices hanswered
    have hend := wp_run (hwp correlationId) hanswered
    revert hend
    generalize Program.run _ _ _ = outcome
    obtain ⟨result, w'⟩ := outcome
    cases result with
    | ok detail => exact fun _ => ⟨detail, rfl⟩
    | error e => exact fun hlt => absurd hle (not_le.mpr hlt)

/-- Rows always decode and pages are always listed; a session is shown unless its history
exceeds the response's cap, which no run reaches that spares full histories. -/
theorem served_readable (h : Served keyset w) :
    (∀ row ∈ w.sessions, sessionFromRow row = .ok row.record) ∧
      (∀ id, ∀ row ∈ w.turns id, turnRecord row.record = .ok row.record) ∧
      (∀ (limit : ℤ) (cursor : Option Text) (correlationId : Uuid) (userId : UserId)
        (choices : ℕ → Choice), 1 ≤ limit ∧ limit ≤ 100 →
        (∀ text ∈ cursor, (keyset.decodeCursor text).isSome) → ∃ page,
          ((SessionsApi.listSessions keyset limit cursor correlationId userId).run choices
            w).1 = .ok page) ∧
      (∀ row ∈ w.sessions, w.Shows row ↔ (w.turns row.record.sessionId).length ≤ 100) ∧
      (ServedIf keyset SparesHistory w → ∀ row ∈ w.sessions, w.Shows row) := by
  refine ⟨fun row hrow => if_pos (h.valid_of_mem hrow),
    fun id row hrow => if_pos (h.turn_valid hrow), ?_, fun row hrow => h.shows_iff hrow,
    fun hspares row hrow => (h.shows_iff hrow).mpr (hspares.history_le _)⟩
  intro limit cursor correlationId userId choices hlimit hcursor
  have hend := wp_run (wp_listSessions (fun c => ∃ n, choices n = c) hlimit hcursor
    (fun row hrow => h.valid_of_mem hrow) correlationId userId) fun n => ⟨n, rfl⟩
  revert hend
  generalize Program.run _ _ _ = outcome
  obtain ⟨result, w'⟩ := outcome
  cases result with
  | ok page => exact fun _ => ⟨page, rfl⟩
  | error e => exact False.elim

theorem ReachableIf.served (h : ReachableIf P w) : ServedIf keyset P w := by
  induction h with
  | init => exact .init
  | step a _ ha ih => exact .attempt a ih ha

end Readable

namespace Scenario

/-- Ids by their numbers, cursors in clear. -/
def keyset : Keyset where
  sessionText id := toString id.key
  le a b := decide (a ≤ b)
  encodeCursor time text := toString time ++ "|" ++ text
  decodeCursor text :=
    match text.splitOn "|" with
    | [time, text] => time.toNat?.map fun time => (time, text)
    | _ => none

theorem readable_created : ∃ row ∈ (World.after {} [create]).sessions,
    (World.after {} [create]).Shows row := by
  have hspares : ReachableIf SparesHistory (World.after {} [create]) := by
    refine .step create .init fun hextends => ?_
    obtain ⟨⟨_, hrequest⟩, -⟩ := hextends
    cases hrequest
  have hsessions : (World.after {} [create]).sessions ≠ [] := by decide +kernel
  obtain ⟨row, hrow⟩ := List.exists_mem_of_ne_nil _ hsessions
  have hserved : Served keyset (World.after {} [create]) := (reachable_after [create]).served
  obtain ⟨-, -, -, -, hshown⟩ := served_readable hserved
  exact ⟨row, hrow, hshown hspares.served row hrow⟩

/-- Acceptances under keys of their own, each of whose processes dies once the turn is in. -/
def acceptances (n : ℕ) : List Attempt :=
  (List.range n).map fun i => accept (i + 2) (some 10)

theorem acceptances_turns :
    ((World.after {} (create :: acceptances 100)).turns ⟨1⟩).length = 101 ∧
      ((World.after {} (create :: acceptances 100)).sessions.map
        fun row => row.record.sessionId) = [⟨1⟩] := by
  decide +kernel

/-- After a hundred acceptances the history does not fit the response. -/
theorem hundredAcceptances_unreadable :
    Served keyset (World.after {} (create :: acceptances 100)) ∧
      ∃ row ∈ (World.after {} (create :: acceptances 100)).sessions,
        ¬ (World.after {} (create :: acceptances 100)).Shows row := by
  have hserved : Served keyset (World.after {} (create :: acceptances 100)) :=
    (reachable_after _).served
  obtain ⟨hlength, hids⟩ := acceptances_turns
  generalize World.after {} (create :: acceptances 100) = w at hserved hlength hids ⊢
  have hmem : (⟨1⟩ : SessionId) ∈ w.sessions.map fun row => row.record.sessionId := by
    rw [hids]
    exact List.mem_singleton.mpr rfl
  obtain ⟨row, hrow, hid⟩ := List.mem_map.mp hmem
  refine ⟨hserved, row, hrow, fun hshows => ?_⟩
  have hle := (hserved.shows_iff hrow).mp hshows
  rw [hid, hlength] at hle
  exact absurd hle (by decide)

end Scenario
end StoryReview
