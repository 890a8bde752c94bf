import StoryReview.ProcessingStages
import StoryReview.SessionPaging

/-!
# Paging while sessions change

Between two pages the service may run any requests. A session that is updated moves to the
front of the list, which the client has left behind, so no session is listed twice, and one
that is not updated meanwhile is listed.
-/
namespace StoryReview
open Program Flows RecordsStore

/-! ## Time stamps -/

/-- No row is newer than the clock. -/
def World.Stamped (w : World) : Prop := ∀ row ∈ w.sessions, row.record.updatedAt ≤ w.clock

/-- The rows of the session table some time later. -/
structure World.Ages (w w' : World) : Prop where
  stamped : w'.Stamped
  distinct : w'.DistinctSessions
  rows : ∀ row ∈ w.sessions, ∃ row' ∈ w'.sessions,
    row'.record.sessionId = row.record.sessionId ∧ row'.record.userId = row.record.userId ∧
      row.record.updatedAt ≤ row'.record.updatedAt

theorem Touches.ages {id : SessionId} {w w' : World} (h : Touches id w w') (hstamped : w.Stamped)
    (hdistinct : w.DistinctSessions) : w.Ages w' := by
  obtain ⟨hclock, hids, g, new, hsessions, -, hages, hnew⟩ := h
  constructor
  · intro row hrow
    rw [hsessions, List.mem_append] at hrow
    rcases hrow with hrow | hrow
    · obtain ⟨row, hold, rfl⟩ := List.mem_map.mp hrow
      rcases (hages row).updatedAt with hsame | ⟨-, hle⟩
      · rw [hsame]
        exact (hstamped row hold).trans hclock
      · exact hle
    · exact (hnew row hrow).2
  · exact hids hdistinct
  · intro row hrow
    refine ⟨g row, ?_, (hages row).sessionId, (hages row).userId, ?_⟩
    · rw [hsessions]
      exact List.mem_append_left _ (List.mem_map_of_mem hrow)
    · rcases (hages row).updatedAt with hsame | ⟨hle, -⟩
      · exact hsame.ge
      · exact (hstamped row hrow).trans hle

section Runs
variable {γ : Type} {aux : Attempt → γ} {observe : Attempt → γ → World → World → γ}
variable {D : Discipline Attempt γ World Choice PyException Response}
variable {pool pool' : Pool Attempt γ World Choice PyException Response}

theorem tableContract_free : (tableContract fun _ : γ => True).Sound (service aux observe) D :=
  tableContract_sound fun _ w =>
    rg_track (settled_program (settled_zero w)) (fun _ _ _ _ _ => trivial) trivial

theorem ages_steps (hpool : (tableContract fun _ : γ => True).Holds (service aux observe) pool)
    (hstamped : pool.state.Stamped) (hdistinct : pool.state.DistinctSessions)
    (hsteps : Pool.Steps (service aux observe) D pool pool') :
    (tableContract fun _ : γ => True).Holds (service aux observe) pool' ∧
      pool.state.Ages pool'.state := by
  induction hsteps with
  | refl => exact ⟨hpool, hstamped, hdistinct, fun row hrow => ⟨row, hrow, rfl, rfl, le_rfl⟩⟩
  | tail _ hstep ih =>
      obtain ⟨mover, hstep⟩ := hstep
      obtain ⟨hmid, hages⟩ := ih
      refine ⟨hmid.step tableContract_free hstep, ?_⟩
      cases mover with
      | none => rwa [hstep.state_eq]
      | some thread =>
          obtain ⟨-, -, -, htouches⟩ := hmid.guarantee tableContract_free hstep
          have hnext := htouches.ages hages.stamped hages.distinct
          refine ⟨hnext.stamped, hnext.distinct, fun row hrow => ?_⟩
          obtain ⟨row₁, hrow₁, hid₁, huser₁, hle₁⟩ := hages.rows row hrow
          obtain ⟨row₂, hrow₂, hid₂, huser₂, hle₂⟩ := hnext.rows row₁ hrow₁
          exact ⟨row₂, hrow₂, hid₂.trans hid₁, huser₂.trans huser₁, hle₁.trans hle₂⟩

theorem holds_free (h : pool.Reachable (service aux observe) D {}) :
    (tableContract fun _ : γ => True).Holds (service aux observe) pool ∧ pool.state.Stamped ∧
      pool.state.DistinctSessions := by
  have hinit := ages_steps (tableContract_free.holds (D := D) coherent_init .refl)
    (by simp [World.Stamped]) (by simp [World.DistinctSessions]) h
  exact ⟨hinit.1, hinit.2.stamped, hinit.2.distinct⟩

/-- Along a run the session table is in order, and only ages. -/
theorem ages_along {pools : ℕ → Pool Attempt γ World Choice PyException Response}
    (hreach : (pools 0).Reachable (service aux observe) D {})
    (hsteps : ∀ n, Pool.Steps (service aux observe) D (pools n) (pools (n + 1))) :
    (∀ n, (pools n).state.Stamped ∧ (pools n).state.DistinctSessions) ∧
      ∀ m n, m ≤ n → (pools m).state.Ages (pools n).state := by
  have hall : ∀ n, (tableContract fun _ : γ => True).Holds (service aux observe) (pools n) ∧
      (pools n).state.Stamped ∧ (pools n).state.DistinctSessions := by
    intro n
    induction n with
    | zero => exact holds_free hreach
    | succ n ih =>
        obtain ⟨hpool, hages⟩ := ages_steps ih.1 ih.2.1 ih.2.2 (hsteps n)
        exact ⟨hpool, hages.stamped, hages.distinct⟩
  refine ⟨fun n => (hall n).2, fun m n hmn => ?_⟩
  have hrun : Pool.Steps (service aux observe) D (pools m) (pools n) := by
    induction hmn with
    | refl => exact .refl
    | step _ ih => exact ih.trans (hsteps _)
  exact (ages_steps (hall m).1 (hall m).2.1 (hall m).2.2 hrun).2

end Runs

/-! ## Pages -/

namespace SessionsApi
variable {keyset : Keyset} {w : World} {limit : ℤ} {userId : UserId}

theorem summaries_eq {rows : List SessionRow} {sessions : List SessionSummary}
    (h : rows.mapM sessionSummary = .ok sessions) :
    sessions = rows.map SessionRow.summary := by
  induction rows generalizing sessions with
  | nil => exact (Except.ok.inj h).symm
  | cons row rows ih =>
      rw [List.mapM_cons] at h
      cases hrow : sessionSummary row with
      | error e =>
          rw [hrow] at h
          cases h
      | ok summary =>
          cases hrest : rows.mapM sessionSummary with
          | error e =>
              rw [hrow, hrest] at h
              cases h
          | ok rest =>
              rw [hrow, hrest] at h
              cases h
              rw [List.map_cons, ← ih hrest]
              unfold sessionSummary at hrow
              dsimp only at hrow
              split_ifs at hrow
              cases hrow
              rfl

/-- A page that is answered is the page after the cursor's key. -/
theorem wp_served (A : Choice → Prop) {cursor : Option Text} {before : Option (Time × Text)}
    (hbefore : cursor.map keyset.decodeCursor = before.map some) (correlationId : Uuid) :
    (listSessions keyset limit cursor correlationId userId).wp A (fun _ => True)
      (fun page _ => 1 ≤ limit ∧ page = pageAfter keyset userId limit.toNat before w)
      (fun _ _ => True) w := by
  unfold listSessions
  split_ifs with hlimit
  · trivial
  · apply (wp_bind _ _).mpr
    apply (wp_ofExcept _).mpr
    refine ⟨fun before' hdecoded => ?_, fun _ _ => trivial⟩
    have hsame : before' = before := by
      cases cursor with
      | none =>
          cases before with
          | none => exact (Except.ok.inj hdecoded).symm
          | some key => cases hbefore
      | some text =>
          cases before with
          | none => cases hbefore
          | some key =>
              simp only [Option.some.inj hbefore] at hdecoded
              exact (Except.ok.inj hdecoded).symm
    rw [hsame]
    refine (wp_bind _ _).mpr ((wp_bind _ _).mpr fun c _ => ⟨trivial, ?_⟩)
    rw [wp_ret]
    dsimp only
    split_ifs
    · rw [pure_eq, wp_ret]
      apply (wp_bind _ _).mpr
      apply (wp_ofExcept _).mpr
      refine ⟨fun sessions hsessions => ?_, fun _ _ => trivial⟩
      rw [summaries_eq hsessions]
      split
      · rw [pure_eq, wp_ret]
        refine ⟨by omega, ?_⟩
        simp only [decide_eq_true_iff]
        rfl
      · trivial
    · trivial

end SessionsApi

section Order
variable {keyset : Keyset} {x y z : SessionRow}

theorem Keyset.follows_trans (hle : Collation keyset.le)
    (hxy : keyset.follows (keyset.key x) y = true)
    (hyz : keyset.follows (keyset.key y) z = true) : keyset.follows (keyset.key x) z = true := by
  rw [follows_iff] at hxy hyz ⊢
  rcases hxy with hxy | ⟨hxy, hxy', hxy''⟩
  · rcases hyz with hyz | ⟨hyz, -⟩
    · exact .inl (hyz.trans hxy)
    · exact .inl (hyz.trans_lt hxy)
  · rcases hyz with hyz | ⟨hyz, hyz', -⟩
    · exact .inl (hyz.trans_eq hxy)
    · refine .inr ⟨hyz.trans hxy, hle.trans _ _ _ hyz' hxy', ?_⟩
      rw [← Bool.not_eq_true] at hxy'' ⊢
      exact fun hxz => hxy'' (hle.trans _ _ _ hxz hyz')

/-- Where a row comes depends on its key. -/
theorem Keyset.follows_congr (hkey : keyset.key y = keyset.key z) (before : Time × Text) :
    keyset.follows before y = keyset.follows before z := by
  have htime : y.record.updatedAt = z.record.updatedAt := congrArg Prod.fst hkey
  have htext : keyset.sessionText y.record.sessionId = keyset.sessionText z.record.sessionId :=
    congrArg Prod.snd hkey
  unfold follows
  rw [htime, htext]

/-- A session that is updated does not come after what it was. -/
theorem Keyset.not_follows (hid : x.record.sessionId = y.record.sessionId)
    (hage : x.record.updatedAt ≤ y.record.updatedAt) :
    ¬ keyset.follows (keyset.key x) y = true := by
  rw [follows_iff]
  rintro (hlt | ⟨-, hle, hnle⟩)
  · exact absurd hlt (Nat.not_lt.mpr hage)
  · simp only [key, hid] at hle hnle
    exact Bool.false_ne_true (hnle.symm.trans hle)

/-- The page after a row is a page of the user's rows. -/
theorem Keyset.page_sessionRows (hle : Collation keyset.le) {w : World} {userId : UserId}
    (hids : (w.sessions.map fun row => (keyset.key row).2).Nodup) {limit : ℕ} (hlimit : 1 ≤ limit)
    (before : Option SessionRow) :
    let rows := sessionRows keyset userId limit (before.map keyset.key) w
    Cursors.Page (fun x y => keyset.follows (keyset.key x) y = true)
      (w.sessions.filter fun row => decide (row.record.userId = userId)) before
      (rows.take limit) (decide (limit < rows.length)) := by
  intro rows
  have hfollow : ∀ row : SessionRow, ((before.map keyset.key).all fun key =>
      keyset.follows key row) = true ↔ ∀ x ∈ before, keyset.follows (keyset.key x) row = true := by
    intro row
    cases before <;> simp
  generalize hafter : ((w.sessions.filter fun row => decide (row.record.userId = userId)).filter
    fun row => (before.map keyset.key).all fun key => keyset.follows key row) = after
  have hmem : ∀ y, y ∈ after.insertionSort keyset.newestFirst ↔
      y ∈ (w.sessions.filter fun row => decide (row.record.userId = userId)) ∧
        ∀ x ∈ before, keyset.follows (keyset.key x) y = true := by
    intro y
    rw [List.mem_insertionSort, ← hafter, List.mem_filter, hfollow]
  have hnodup : (after.map fun row => (keyset.key row).2).Nodup := by
    rw [← hafter]
    exact hids.sublist ((List.filter_sublist.trans List.filter_sublist).map _)
  have hsorted := pairwise_follows hle hnodup
  have hrows : rows = (after.insertionSort keyset.newestFirst).take (limit + 1) := by
    rw [← hafter]
    rfl
  generalize after.insertionSort keyset.newestFirst = sorted at hmem hsorted hrows
  have htake : rows.take limit = sorted.take limit := by
    rw [hrows, List.take_take, Nat.min_eq_left (Nat.le_succ _)]
  have hmore : limit < rows.length ↔ limit < sorted.length := by
    rw [hrows, List.length_take]
    omega
  rw [htake]
  constructor
  · exact fun y hy => (hmem y).mp (List.mem_of_mem_take hy)
  · exact hsorted.sublist (List.take_sublist _ _)
  · intro h
    have hlength := hmore.mp (of_decide_eq_true h)
    apply List.ne_nil_of_length_pos
    rw [List.length_take]
    omega
  · intro y hy hbelow
    have hy' := (hmem y).mpr ⟨hy, hbelow⟩
    rw [← List.take_append_drop limit sorted] at hy' hsorted
    rcases List.mem_append.mp hy' with hy' | hy'
    · exact .inl hy'
    · refine .inr ⟨decide_eq_true (hmore.mpr ?_), fun x hx => ?_⟩
      · have hpos := List.length_pos_of_mem hy'
        rw [List.length_drop] at hpos
        omega
      · exact (List.pairwise_append.mp hsorted).2.2 x (List.mem_of_getLast? hx) y hy'

/-- A row listed once does not come after itself some time later. -/
theorem World.Ages.not_follows {w w' : World} (h : w.Ages w') (hx : x ∈ w.sessions)
    (hy : y ∈ w'.sessions) (hid : x.record.sessionId = y.record.sessionId) :
    ¬ keyset.follows (keyset.key x) y = true := by
  obtain ⟨x', hx', hid', -, hage⟩ := h.rows x hx
  have hsame : x' = y := List.inj_on_of_nodup_map h.distinct hx' hy (hid'.trans hid)
  exact Keyset.not_follows hid (hsame ▸ hage)

/-- What is answered to the cursor of a row is the page after that row. -/
theorem SessionsApi.page_of_answer (hle : Collation keyset.le) {limit : ℤ} {userId : UserId}
    {worlds : ℕ → World} {choices : ℕ → ℕ → Choice} {correlationIds : ℕ → Uuid} {n : ℕ}
    (hids : ((worlds n).sessions.map fun row => (keyset.key row).2).Nodup)
    {before : Option SessionRow} {answer : List SessionSummary × Option Text}
    (hcursor : ∀ x ∈ before, shortText (keyset.cursor x) = some (keyset.cursor x) ∧
      keyset.decodeCursor (keyset.cursor x) = some (keyset.key x))
    (h : pages keyset limit userId worlds choices correlationIds n (before.map keyset.cursor) =
      some answer) :
    ∃ page more, Cursors.Page (fun x y => keyset.follows (keyset.key x) y = true)
        ((worlds n).sessions.filter fun row => decide (row.record.userId = userId)) before page
        more ∧
      answer = (page.map SessionRow.summary,
        if more then page.getLast?.map keyset.cursor else none) := by
  have hquery : listSessionsQuery keyset limit (before.map keyset.cursor) (correlationIds n)
      userId = listSessions keyset limit (before.map keyset.cursor) (correlationIds n) userId := by
    cases before with
    | none => rfl
    | some x => simp only [Option.map_some, listSessionsQuery, (hcursor x rfl).1]
  have hdecode : (before.map keyset.cursor).map keyset.decodeCursor =
      (before.map keyset.key).map some := by
    cases before with
    | none => rfl
    | some x => exact congrArg some (hcursor x rfl).2
  have hserved : (listSessions keyset limit (before.map keyset.cursor) (correlationIds n)
      userId).wp (fun c => ∃ m, choices n m = c) (fun _ => True)
        (fun page _ => 1 ≤ limit ∧ page = pageAfter keyset userId limit.toNat
          (before.map keyset.key) (worlds n)) (fun _ _ => True) (worlds n) :=
    wp_served _ hdecode (correlationIds n)
  have hend := wp_run hserved fun m => ⟨m, rfl⟩
  unfold pages at h
  rw [hquery] at h
  revert hend h
  generalize Program.run _ _ _ = outcome
  obtain ⟨result, w'⟩ := outcome
  cases result with
  | error e =>
      intro h
      cases h
  | ok page =>
      rintro h ⟨hlimit, rfl⟩
      have hone : 1 ≤ limit.toNat := by omega
      refine ⟨_, _, Keyset.page_sessionRows hle hids hone before, ?_⟩
      cases h
      simp only [pageAfter, decide_eq_true_iff]
      rfl

end Order

/-! ## Following the cursors -/

section Sessions
variable {γ : Type} {aux : Attempt → γ} {observe : Attempt → γ → World → World → γ}
variable {sessionText : SessionId → Text} {le : Text → Text → Bool}

/-- What a client sees that follows the cursors to the end while any requests run. -/
theorem sessions_listed_while_changing (hle : Collation le) (other : List Char → Option Datetime)
    (userId : UserId) (limit : ℤ)
    {pools : ℕ → Pool Attempt γ World Choice PyException Response}
    (hreach : (pools 0).Reachable (service aux observe) .free {})
    (hsteps : ∀ n, Pool.Steps (service aux observe) .free (pools n) (pools (n + 1)))
    (hids : ∀ n, ((pools n).state.sessions.map fun row =>
      sessionText row.record.sessionId).Nodup)
    (htexts : ∀ n, ∀ row ∈ (pools n).state.sessions, isSessionId (sessionText row.record.sessionId))
    (htime : ∀ n, (pools n).state.clock < 3652059 * 86400000000)
    (choices : ℕ → ℕ → Choice) (correlationIds : ℕ → Uuid) {listed : List SessionSummary}
    (h : Cursors.Listing (SessionsApi.pages (SessionsApi.keyset sessionText le other) limit userId
      (fun n => (pools n).state) choices correlationIds) 0 none listed) :
    ∃ rows : List SessionRow, listed = rows.map SessionRow.summary ∧
      (rows.map fun row => row.record.sessionId).Nodup ∧
      (rows.Pairwise fun x y => (SessionsApi.keyset sessionText le other).follows
        ((SessionsApi.keyset sessionText le other).key x) y = true) ∧
      (∀ row ∈ rows, row.record.userId = userId ∧ ∃ n, row ∈ (pools n).state.sessions) ∧
      ∀ id updatedAt, (∀ n, ∃ row ∈ (pools n).state.sessions, row.record.sessionId = id ∧
        row.record.userId = userId ∧ row.record.updatedAt = updatedAt) →
          ∃ row ∈ rows, row.record.sessionId = id := by
  obtain ⟨hall, hages⟩ := ages_along hreach hsteps
  let keys := SessionsApi.keyset sessionText le other
  have hkeys : ∀ n, ((pools n).state.sessions.map fun row => (keys.key row).2).Nodup := hids
  have hserve : ∀ n before answer, (∀ x ∈ before, ∃ m, x ∈ ((pools m).state.sessions.filter
      fun row => decide (row.record.userId = userId))) →
      SessionsApi.pages keys limit userId (fun n => (pools n).state) choices correlationIds n
        (before.map keys.cursor) = some answer → ∃ page more, Cursors.Page
          (fun x y => keys.follows (keys.key x) y = true) ((pools n).state.sessions.filter
            fun row => decide (row.record.userId = userId)) before page more ∧
          answer = (page.map SessionRow.summary,
            if more then page.getLast?.map keys.cursor else none) := by
    intro n before answer hbefore hanswer
    apply SessionsApi.page_of_answer hle (hkeys n) ?_ hanswer
    intro x hx
    obtain ⟨m, hm⟩ := hbefore x hx
    have hrow := List.mem_of_mem_filter hm
    exact SessionsApi.keyset_cursor other (htexts m x hrow)
      (((hall m).1 x hrow).trans_lt (htime m))
  have hfront : ∀ m n (x y : SessionRow), m ≤ n →
      x ∈ ((pools m).state.sessions.filter fun row => decide (row.record.userId = userId)) →
      y ∈ ((pools n).state.sessions.filter fun row => decide (row.record.userId = userId)) →
      x.record.sessionId = y.record.sessionId → ¬ keys.follows (keys.key x) y = true :=
    fun m n _ _ hmn hx hy =>
      (hages m n hmn).not_follows (List.mem_of_mem_filter hx) (List.mem_of_mem_filter hy)
  have hlisting : Cursors.Listing (SessionsApi.pages keys limit userId
      (fun n => (pools n).state) choices correlationIds) 0
        ((none : Option SessionRow).map keys.cursor) listed := h
  have htrans : ∀ x y z : SessionRow, keys.follows (keys.key x) y = true →
      keys.follows (keys.key y) z = true → keys.follows (keys.key x) z = true :=
    fun _ _ _ => Keyset.follows_trans hle
  obtain ⟨seen, rfl, hseen⟩ := Cursors.seen_of_listing htrans hfront hserve (by simp) hlisting
  refine ⟨seen, rfl, hseen.once, hseen.sorted, fun row hrow => ?_, fun id updatedAt hstays => ?_⟩
  · obtain ⟨⟨n, -, hrow⟩, -⟩ := hseen.mem row hrow
    obtain ⟨hrow, huser⟩ := List.mem_filter.mp hrow
    exact ⟨of_decide_eq_true huser, n, hrow⟩
  · have hplace : ∀ n, ∃ row ∈ (pools n).state.sessions.filter fun row =>
        decide (row.record.userId = userId), row.record.sessionId = id ∧
          keys.key row = (updatedAt, sessionText id) := by
      intro n
      obtain ⟨row, hrow, rfl, huser, rfl⟩ := hstays n
      exact ⟨row, List.mem_filter.mpr ⟨hrow, decide_eq_true huser⟩, rfl, rfl⟩
    obtain ⟨row, -, -, hkey⟩ := hplace 0
    have hlisted := hseen.stays id (fun row => keys.key row = (updatedAt, sessionText id))
      (fun _ _ _ hy hz hbelow => (Keyset.follows_congr (hy.trans hz.symm) _).symm.trans hbelow)
      (fun n _ => hplace n) ⟨row, hkey, by simp⟩
    obtain ⟨row, hrow, hid⟩ := List.mem_map.mp hlisted
    exact ⟨row, hrow, hid⟩

end Sessions

namespace Scenario

def abandonOther : Attempt := attempt (.abandon ⟨2⟩) 3 steady none

def textKeys : Keyset := SessionsApi.keyset sessionText (fun a b => decide (a ≤ b)) fun _ => none

/-- Before and after the session ⟨2⟩ is abandoned. -/
def beforeAbandon : World :=
  (createOther.program.run createOther.choices (create.program.run create.choices {}).2).2

def afterAbandon : World := (abandonOther.program.run abandonOther.choices beforeAbandon).2

def whileAbandoning (n : ℕ) : World := if n = 0 then beforeAbandon else afterAbandon

/-- The session ⟨2⟩ is listed, then abandoned; the session ⟨1⟩ is on the next page. -/
theorem sessions_listed_while_abandoning : ∃ pools : ℕ → RequestPool,
    (pools 0).Reachable requests .free {} ∧
    (∀ n, Pool.Steps requests .free (pools n) (pools (n + 1))) ∧
    ((pools 1).state.session ⟨2⟩).any (fun row => decide (row.record.state = .parked)) = true ∧
    ∃ listed, Cursors.Listing (SessionsApi.pages textKeys 1 7 (fun n => (pools n).state)
        (fun _ _ => steady) id) 0 none listed ∧ listed.length = 2 ∧
      ∃ rows : List SessionRow, listed = rows.map SessionRow.summary ∧
        (rows.map fun row => row.record.sessionId).Nodup := by
  have hle : Collation fun a b => decide (a ≤ b) := by
    refine ⟨fun a b => ?_, fun a b c => ?_, fun a b => ?_⟩
    · exact (le_total a b).imp decide_eq_true decide_eq_true
    · intro hab hbc
      exact decide_eq_true ((of_decide_eq_true hab).trans (of_decide_eq_true hbc))
    · intro hab hba
      exact le_antisymm (of_decide_eq_true hab) (of_decide_eq_true hba)
  have halone (a : Attempt) (w : World) (finished : List (Attempt × Except PyException Response)) :
      Pool.Steps requests .free ⟨w, [], finished⟩ ⟨(a.program.run a.choices w).2, [],
        (a, (a.program.run a.choices w).1) :: finished⟩ :=
    .alone _ _ (fun n => ⟨n, rfl⟩) trivial fun _ _ _ => trivial
  obtain ⟨finished, hcreated⟩ : ∃ finished, Pool.Reachable requests .free {}
      ⟨beforeAbandon, [], finished⟩ := ⟨_, (halone create {} []).trans (halone createOther _ _)⟩
  obtain ⟨finished', habandoned⟩ : ∃ finished', Pool.Steps requests .free
      ⟨beforeAbandon, [], finished⟩ ⟨afterAbandon, [], finished'⟩ :=
    ⟨_, halone abandonOther _ _⟩
  let pools : ℕ → RequestPool := fun n =>
    ⟨whileAbandoning n, [], if n = 0 then finished else finished'⟩
  have hreach : (pools 0).Reachable requests .free {} := hcreated
  have hsteps : ∀ n, Pool.Steps requests .free (pools n) (pools (n + 1)) := by
    intro n
    cases n with
    | zero => exact habandoned
    | succ n => exact .refl
  have hboth : ∀ {P : World → Prop}, P beforeAbandon → P afterAbandon →
      ∀ n, P (whileAbandoning n) := by
    intro P hbefore hafter n
    cases n with
    | zero => exact hbefore
    | succ n => exact hafter
  let serve := SessionsApi.pages textKeys 1 7 whileAbandoning (fun _ _ => steady) id
  have hpages : ((serve 0 none).bind fun first => first.2.bind fun key =>
      (serve 1 (some key)).filter fun second =>
        decide ((first.1 ++ second.1).length = 2 ∧ second.2 = none)).isSome = true := by
    decide +kernel
  obtain ⟨⟨page', more'⟩, hpages⟩ := Option.isSome_iff_exists.mp hpages
  obtain ⟨⟨page, more⟩, hfirst, hpages⟩ := Option.bind_eq_some_iff.mp hpages
  obtain ⟨key, rfl, hpages⟩ := Option.bind_eq_some_iff.mp hpages
  obtain ⟨hsecond, hlength⟩ := Option.filter_eq_some_iff.mp hpages
  obtain ⟨hlength, rfl⟩ := of_decide_eq_true hlength
  have hlisting : Cursors.Listing serve 0 none (page ++ page') := .next hfirst (.last hsecond)
  obtain ⟨rows, hrows, honce, -⟩ := sessions_listed_while_changing hle (fun _ => none) 7 1
    hreach hsteps
    (hboth (P := fun w => (w.sessions.map fun row => sessionText row.record.sessionId).Nodup)
      (by decide +kernel) (by decide +kernel))
    (fun _ _ _ => isSessionId_sessionText _)
    (hboth (P := fun w => w.clock < 3652059 * 86400000000) (by decide +kernel)
      (by decide +kernel)) (fun _ _ => steady) id hlisting
  have hparked : (afterAbandon.session ⟨2⟩).any (fun row =>
      decide (row.record.state = .parked)) = true := by decide +kernel
  exact ⟨pools, hcreated, hsteps, hparked, _, hlisting, hlength, rows, hrows, honce⟩

end Scenario
end StoryReview
