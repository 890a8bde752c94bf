import StoryReview.Interleaving
import StoryReview.Scenarios

/-!
# Turn leases under interleaving

Any number of acquire, renew and release calls, each statement of each call one
step of the pool, with the database clock advancing in between as it likes. The
auxiliary state of a call is the pair of worlds around its last statement.
-/
namespace StoryReview.TurnLease
open Program

inductive Call where
  | acquire (sessionId : SessionId)
  | renew (sessionId : SessionId) (token : Uuid)
  | release (sessionId : SessionId) (token : Uuid)
deriving DecidableEq, Repr

inductive Answer where
  | acquired (token : Uuid)
  | renewed (held : Bool)
  | released
deriving DecidableEq, Repr

def Call.program : Call → Orchestration Answer
  | .acquire sessionId => do
      let token ← TurnLease.acquire sessionId
      pure (.acquired token)
  | .renew sessionId token => do
      let held ← TurnLease.renew sessionId token
      pure (.renewed held)
  | .release sessionId token => do
      TurnLease.release sessionId token
      pure .released

def system : System Call (Option (World × World)) World Choice PyException Answer where
  program := Call.program
  admits := fun _ _ => True
  aux := fun _ => none
  observe := fun _ _ w w' => some (w, w')

/-! ## What one statement does to the lease table -/

/-- A new token takes a row that is absent or expired at the statement's `now()`. -/
structure TakesOver (sessionId : SessionId) (token : Uuid) (w w' : World) : Prop where
  free : ∀ held, w.leases sessionId = some held → held.expiresAt ≤ w'.clock
  isFresh : token = w.fresh
  fresh : w'.fresh = w.fresh + 1
  leases : w'.leases =
    Function.update w.leases sessionId (some ⟨token, w'.clock, w'.clock + ttl⟩)

inductive Effect (w w' : World) : Call → Prop
  | same {call : Call} (h : w'.leases = w.leases) : Effect w w' call
  | takeOver {sessionId : SessionId} {token : Uuid} (h : TakesOver sessionId token w w') :
      Effect w w' (.acquire sessionId)
  | renew {sessionId : SessionId} {held : Lease} (hheld : w.leases sessionId = some held)
      (h : w'.leases = Function.update w.leases sessionId
        (some { held with expiresAt := w'.clock + ttl })) :
      Effect w w' (.renew sessionId held.token)
  | release {sessionId : SessionId} {held : Lease} (hheld : w.leases sessionId = some held)
      (h : w'.leases = Function.update w.leases sessionId none) :
      Effect w w' (.release sessionId held.token)

/-- How a call may end, given the worlds around its last statement. -/
inductive Ends : Call → Option (World × World) → Except PyException Answer → Uuid → Prop
  | acquired {sessionId : SessionId} {token : Uuid} {w w' : World} {fresh : Uuid}
      (h : TakesOver sessionId token w w') (hfresh : token < fresh) :
      Ends (.acquire sessionId) (some (w, w')) (.ok (.acquired token)) fresh
  | locked {sessionId : SessionId} {g : Option (World × World)} {hint : ℕ} {fresh : Uuid}
      (h : 1 ≤ hint) : Ends (.acquire sessionId) g (.error (.sessionLocked hint)) fresh
  | renewed {sessionId : SessionId} {token : Uuid} {g : Option (World × World)} {held : Bool}
      {fresh : Uuid} : Ends (.renew sessionId token) g (.ok (.renewed held)) fresh
  | released {sessionId : SessionId} {token : Uuid} {g : Option (World × World)}
      {fresh : Uuid} : Ends (.release sessionId token) g (.ok .released) fresh

theorem Ends.mono {call : Call} {g : Option (World × World)} {r : Except PyException Answer}
    {fresh fresh' : Uuid} (h : Ends call g r fresh) (hle : fresh ≤ fresh') :
    Ends call g r fresh' := by
  cases h with
  | acquired h hfresh => exact .acquired h (lt_of_lt_of_le hfresh hle)
  | locked h => exact .locked h
  | renewed => exact .renewed
  | released => exact .released

/-- Nothing is relied on but that UUIDs are not used twice. -/
def contract : Contract Call (Option (World × World)) World PyException Answer where
  inv := fun _ => True
  rely := fun _ _ w w' => w.fresh ≤ w'.fresh
  guar := fun call _ w w' => w.clock ≤ w'.clock ∧ w.fresh ≤ w'.fresh ∧ Effect w w' call
  post := fun call g r w => Ends call g r w.fresh

/-! ## Each call keeps the contract -/

/-- A call of the system keeps the contract. -/
abbrev Keeps {α : Type} (call : Call) (p : Orchestration α)
    (Q : α → Option (World × World) → World → Prop) (g : Option (World × World))
    (w : World) : Prop :=
  p.rg (fun _ => True) (fun _ w w' => some (w, w')) (contract.rely call) (contract.guar call)
    Q (fun e g w => contract.post call g (.error e) w) g w

theorem tick_clock (w : World) (c : Choice) : w.clock ≤ (w.tick c).clock :=
  Nat.le_succ_of_le (Nat.le_add_right _ _)

/-- The conditional upsert takes the row over exactly when it answers. -/
theorem acquireStatement_spec (sessionId : SessionId) (w : World) (c : Choice) :
    match acquireStatement sessionId (w.tick c) with
    | (some token, w') => TakesOver sessionId token w w' ∧ w.clock ≤ w'.clock
    | (none, w') => w'.leases = w.leases ∧ w.fresh ≤ w'.fresh ∧ w.clock ≤ w'.clock := by
  have hclock := tick_clock w c
  have htakes (hfree : ∀ held, w.leases sessionId = some held →
      held.expiresAt ≤ (w.tick c).clock) : TakesOver sessionId w.fresh w
        { (w.tick c).setLease sessionId (some ⟨(w.tick c).fresh, (w.tick c).clock,
          (w.tick c).clock + ttl⟩) with fresh := (w.tick c).fresh + 1 } :=
    ⟨hfree, rfl, rfl, rfl⟩
  have hleases : (w.tick c).leases = w.leases := rfl
  simp only [acquireStatement, hleases]
  cases hheld : w.leases sessionId with
  | none =>
      exact ⟨htakes fun held h => absurd (h.symm.trans hheld) (Option.some_ne_none held), hclock⟩
  | some held =>
      dsimp only
      split_ifs with hexpired
      · refine ⟨htakes fun held' h => ?_, hclock⟩
        rw [hheld] at h
        cases h
        exact hexpired
      · exact ⟨rfl, Nat.le_succ _, hclock⟩

theorem keeps_acquireLoop (sessionId : SessionId) (n : ℕ) (g : Option (World × World))
    (w : World) : Keeps (.acquire sessionId) (acquireLoop sessionId n)
      (fun token g w => Ends (.acquire sessionId) g (.ok (.acquired token)) w.fresh) g w := by
  induction n generalizing g w with
  | zero => exact Ends.locked le_rfl
  | succ n ih =>
      simp only [acquireLoop, attemptAcquire, Program.bind_eq, Program.pure_eq, Keeps, rg_bind,
        statement, rg_atomic]
      intro c v hc hv
      have hspec := acquireStatement_spec sessionId v c
      generalize acquireStatement sessionId (v.tick c) = answer at hspec
      obtain ⟨token, v'⟩ := answer
      cases token with
      | some token =>
          obtain ⟨htakes, hclock⟩ := hspec
          refine ⟨⟨hclock, ?_, .takeOver htakes⟩, .acquired htakes ?_⟩
          · exact htakes.fresh ▸ Nat.le_succ _
          · exact htakes.fresh ▸ htakes.isFresh ▸ Nat.lt_succ_self _
      | none =>
          obtain ⟨hleases, hfresh, hclock⟩ := hspec
          refine ⟨⟨hclock, hfresh, .same hleases⟩, ?_⟩
          simp only [rg_bind, query, statement, rg_atomic]
          intro c' u hc' hu
          refine ⟨⟨tick_clock u c', le_rfl, .same rfl⟩, ?_⟩
          cases retryAfter sessionId (u.tick c') with
          | none => exact ih _ _
          | some hint => exact Ends.locked (le_max_left 1 hint)

theorem keeps_renew (sessionId : SessionId) (token : Uuid) (g : Option (World × World))
    (w : World) : Keeps (.renew sessionId token) (renew sessionId token)
      (fun _ _ _ => True) g w := by
  simp only [renew, Keeps, statement, rg_atomic]
  intro c v hc hv
  refine ⟨?_, trivial⟩
  have hleases : (v.tick c).leases = v.leases := rfl
  simp only [hleases]
  cases hheld : (v.leases sessionId).filter fun lease => decide (lease.token = token) with
  | none => exact ⟨tick_clock v c, le_rfl, .same rfl⟩
  | some held =>
      obtain ⟨hrow, htoken⟩ := Option.filter_eq_some_iff.mp hheld
      obtain rfl := of_decide_eq_true htoken
      exact ⟨tick_clock v c, le_rfl, .renew hrow rfl⟩

theorem keeps_release (sessionId : SessionId) (token : Uuid) (g : Option (World × World))
    (w : World) : Keeps (.release sessionId token) (release sessionId token)
      (fun _ _ _ => True) g w := by
  simp only [release, Keeps, execute, statement, rg_atomic]
  intro c v hc hv
  refine ⟨?_, trivial⟩
  have hleases : (v.tick c).leases = v.leases := rfl
  simp only [hleases]
  split_ifs with hheld
  · obtain ⟨held, hrow, htoken⟩ := (Option.any_eq_true _ _).mp hheld
    obtain rfl := of_decide_eq_true htoken
    exact ⟨tick_clock v c, le_rfl, .release hrow rfl⟩
  · exact ⟨tick_clock v c, le_rfl, .same rfl⟩

theorem contract_sound : contract.Sound system .free where
  rely_refl := fun _ _ _ _ => le_rfl
  rely_trans := fun _ _ _ _ _ h h' => h.trans h'
  starts := by
    intro w running call hw hstarts
    cases call with
    | acquire sessionId =>
        refine (rg_bind _ _).mpr (rg_mono (keeps_acquireLoop sessionId 3 none w)
          (fun token g w h => h) fun e g w h => h)
    | renew sessionId token =>
        exact (rg_bind _ _).mpr (rg_mono (keeps_renew sessionId token none w)
          (fun _ _ _ _ => .renewed) fun e g w h => h)
    | release sessionId token =>
        exact (rg_bind _ _).mpr (rg_mono (keeps_release sessionId token none w)
          (fun _ _ _ _ => .released) fun e g w h => h)
  inv := fun _ _ _ _ _ _ _ => trivial
  compatible := fun _ _ _ _ _ _ h _ _ => h.2.1
  post := fun _ _ _ _ _ _ h _ _ _ hends => hends.mono h.2.1

/-! ## Issued tokens -/

abbrev LeasePool := Pool Call (Option (World × World)) World Choice PyException Answer

/-- The token that an acquire of the session was given. -/
def token (sessionId : SessionId) (call : Call) (r : Except PyException Answer) :
    Option Uuid :=
  match call, r with
  | .acquire s, .ok (.acquired token) => if s = sessionId then some token else none
  | _, _ => none

/-- The tokens that acquires of the session were given, one for each. -/
def issued (sessionId : SessionId) (pool : LeasePool) : List Uuid :=
  pool.ended.filterMap fun answer => token sessionId answer.1 answer.2

theorem Ends.of_token {sessionId : SessionId} {call : Call} {g : Option (World × World)}
    {r : Except PyException Answer} {fresh t : Uuid} (h : Ends call g r fresh)
    (ht : token sessionId call r = some t) :
    t < fresh ∧ ∃ w w', g = some (w, w') ∧ TakesOver sessionId t w w' := by
  cases h with
  | acquired htakes hfresh =>
      simp only [token] at ht
      split_ifs at ht with hid
      cases ht
      exact ⟨hfresh, _, _, rfl, hid ▸ htakes⟩
  | locked => cases ht
  | renewed => cases ht
  | released => cases ht

/-- Every issued token is older than the next one. -/
theorem lt_of_issued {sessionId : SessionId} {pool : LeasePool}
    (h : contract.Holds system pool) {t : Uuid} (ht : t ∈ issued sessionId pool) :
    t < pool.state.fresh := by
  obtain ⟨answer, hanswer, ht⟩ := List.mem_filterMap.mp ht
  obtain ⟨g, hends⟩ := h.ended hanswer
  exact (hends.of_token ht).1

theorem outcome_program (call : Call) : (system.program call).outcome = none := by
  cases call <;> rfl

/-- A step issues at most one token, and takes the row over with it. -/
theorem issued_step (sessionId : SessionId)
    {mover : Option (Thread Call (Option (World × World)) World Choice PyException Answer)}
    {pool pool' : LeasePool} (h : contract.Holds system pool)
    (hstep : Pool.Step system .free mover pool pool') :
    ∃ new : Option Uuid, (issued sessionId pool').Subperm
        (new.toList ++ issued sessionId pool) ∧
      ∀ t ∈ new, TakesOver sessionId t pool.state pool'.state := by
  obtain ⟨new, hsub, hnew⟩ := h.newlyEnded contract_sound outcome_program hstep
  refine ⟨new.bind fun answer => token sessionId answer.1 answer.2, ?_, fun t ht => ?_⟩
  · have hsub' := subperm_filterMap (fun answer => token sessionId answer.1 answer.2) hsub
    rw [List.filterMap_append] at hsub'
    refine hsub'.trans (List.Perm.subperm (.append_right _ (.of_eq ?_)))
    cases new with
    | none => rfl
    | some answer =>
        cases htoken : token sessionId answer.1 answer.2 with
        | none => simp [htoken]
        | some t => simp [htoken]
  · obtain ⟨answer, hanswer, ht⟩ := Option.bind_eq_some_iff.mp ht
    obtain ⟨thread, hthread, horigin, hends⟩ := hnew answer hanswer
    obtain ⟨-, w, w', hg, htakes⟩ := hends.of_token (horigin ▸ ht)
    cases hg
    exact htakes

theorem issued_nodup {sessionId : SessionId} {pool : LeasePool}
    (h : pool.Reachable system .free {}) : (issued sessionId pool).Nodup := by
  induction h with
  | refl => exact List.nodup_nil
  | @tail pool pool' hpool hstep ih =>
      obtain ⟨mover, hstep⟩ := hstep
      have hholds := contract_sound.holds trivial hpool
      obtain ⟨new, hsub, htakes⟩ := issued_step sessionId hholds hstep
      have hnodup : (new.toList ++ issued sessionId pool).Nodup := by
        cases new with
        | none => exact ih
        | some t =>
            refine List.nodup_cons.mpr ⟨fun ht => ?_, ih⟩
            have hlt := lt_of_issued hholds ht
            exact absurd ((htakes t rfl).isFresh ▸ hlt) (lt_irrefl _)
      obtain ⟨l, hperm, hsublist⟩ := hsub
      exact hperm.nodup_iff.mp (hnodup.sublist hsublist)

/-- The token is that of the session's lease row, and the row is unexpired. -/
def holds (w : World) (sessionId : SessionId) (t : Uuid) : Bool :=
  (w.leases sessionId).any fun lease =>
    decide (lease.token = t ∧ w.clock < lease.expiresAt)

theorem holds_unique {w : World} {sessionId : SessionId} {t t' : Uuid}
    (h : holds w sessionId t = true) (h' : holds w sessionId t' = true) : t = t' := by
  obtain ⟨lease, hrow, ht⟩ := (Option.any_eq_true _ _).mp h
  obtain ⟨lease', hrow', ht'⟩ := (Option.any_eq_true _ _).mp h'
  rw [hrow] at hrow'
  cases hrow'
  exact (of_decide_eq_true ht).1.symm.trans (of_decide_eq_true ht').1

theorem countP_holds_le_one {w : World} {sessionId : SessionId} {tokens : List Uuid}
    (h : tokens.Nodup) : tokens.countP (holds w sessionId) ≤ 1 := by
  rw [List.countP_eq_length_filter]
  have hfilter := h.filter (holds w sessionId)
  have hholds : ∀ t ∈ tokens.filter (holds w sessionId), holds w sessionId t = true :=
    fun t ht => (List.mem_filter.mp ht).2
  generalize tokens.filter (holds w sessionId) = held at hfilter hholds
  match held with
  | [] => exact Nat.zero_le _
  | [t] => exact le_rfl
  | t :: t' :: rest =>
      have heq := holds_unique (hholds t (by simp)) (hholds t' (by simp))
      exact absurd hfilter (by simp [heq])

/-- Over every interleaving: at most one issued token holds an unexpired row; a
token is issued only over an absent or expired row; a renewal or release with any
token but the row's own changes nothing; and a call fails only with a hint. -/
theorem lease_exclusion {pool : LeasePool} (h : pool.Reachable system .free {})
    (sessionId : SessionId) :
    (issued sessionId pool).countP (holds pool.state sessionId) ≤ 1 ∧
      (∀ mover pool', Pool.Step system .free mover pool pool' →
        pool.state.clock ≤ pool'.state.clock ∧
        (∀ t ∈ issued sessionId pool', t ∉ issued sessionId pool →
          TakesOver sessionId t pool.state pool'.state) ∧
        (∀ thread ∈ mover, Effect pool.state pool'.state thread.origin) ∧
        ∀ thread ∈ mover, ∀ t, thread.origin = .renew sessionId t ∨
            thread.origin = .release sessionId t →
          (∀ held, pool.state.leases sessionId = some held → held.token ≠ t) →
            pool'.state.leases = pool.state.leases) ∧
      ∀ call e, (call, .error e) ∈ pool.finished →
        ∃ hint, e = .sessionLocked hint ∧ 1 ≤ hint := by
  have hholds := contract_sound.holds trivial h
  refine ⟨countP_holds_le_one (issued_nodup h), fun mover pool' hstep => ?_,
    fun call e hfinished => ?_⟩
  · have heffect : ∀ thread ∈ mover, pool.state.clock ≤ pool'.state.clock ∧
        Effect pool.state pool'.state thread.origin := by
      rintro thread rfl
      obtain ⟨-, -, hclock, -, heffect⟩ := hholds.guarantee contract_sound hstep
      exact ⟨hclock, heffect⟩
    refine ⟨?_, fun t ht hnew => ?_, fun thread hthread => (heffect thread hthread).2,
      fun thread hthread t horigin hother => ?_⟩
    · cases mover with
      | none => exact hstep.state_eq ▸ le_rfl
      | some thread => exact (heffect thread rfl).1
    · obtain ⟨new, hsub, htakes⟩ := issued_step sessionId hholds hstep
      rcases List.mem_append.mp (hsub.subset ht) with ht | ht
      · exact htakes t (Option.mem_toList.mp ht)
      · exact absurd ht hnew
    · have hthis := (heffect thread hthread).2
      generalize thread.origin = call at hthis horigin
      cases hthis with
      | same h => exact h
      | takeOver => rcases horigin with h | h <;> cases h
      | renew hheld =>
          rcases horigin with h | h
          · cases h
            exact absurd rfl (hother _ hheld)
          · cases h
      | release hheld =>
          rcases horigin with h | h
          · cases h
          · cases h
            exact absurd rfl (hother _ hheld)
  · obtain ⟨g, hends⟩ := hholds.post _ hfinished
    generalize hr : (Except.error e : Except PyException Answer) = r at hends
    cases hends with
    | locked hhint =>
        cases hr
        exact ⟨_, rfl, hhint⟩
    | acquired => cases hr
    | renewed => cases hr
    | released => cases hr

/-- One acquire has taken the lease, and a second one is still at its statement. -/
theorem lease_exclusion_acquired : ∃ pool : LeasePool, pool.Reachable system .free {} ∧
    issued ⟨1⟩ pool = [0] ∧ holds pool.state ⟨1⟩ 0 = true ∧
      (issued ⟨1⟩ pool).countP (holds pool.state ⟨1⟩) ≤ 1 := by
  let call : Call := .acquire ⟨1⟩
  let first : LeasePool := ⟨{}, [⟨call, none, call.program⟩, ⟨call, none, call.program⟩], []⟩
  have hfirst : first.Reachable system .free {} :=
    .tail (.tail .refl ⟨none, .start call trivial⟩) ⟨none, .start call trivial⟩
  obtain ⟨g, hsteps⟩ := Pool.Steps.advance (S := system) (D := .free) (i := call)
    (p := call.program) (fun _ => Scenario.steady) []
    [⟨call, none, call.program⟩] (fun _ => trivial) (fun _ _ _ => trivial) 1 none
    {} []
  have hreach := Relation.ReflTransGen.trans hfirst hsteps
  exact ⟨_, hreach, rfl, rfl, (lease_exclusion hreach ⟨1⟩).1⟩

end StoryReview.TurnLease
