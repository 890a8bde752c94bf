import StoryReview.Interleaving
import StoryReview.Scenarios

/-!
# Idempotency claims under interleaving

Any number of claim, release and complete calls, each SQL statement one step of
the pool. A claim inserts or skips, and reads the row back when it skipped. The
auxiliary state of a call lists the worlds around its statements, last first.
-/
namespace StoryReview.Idempotency
open Program

inductive Call where
  | claim (slot : ClaimSlot) (fingerprint : Fingerprint)
  | release (slot : ClaimSlot)
  | complete (slot : ClaimSlot) (response : CanonicalResponse)
deriving DecidableEq, Repr

inductive Answer where
  | claim (outcome : ClaimOutcome)
  | done
deriving DecidableEq, Repr

def Call.program : Call → Orchestration Answer
  | .claim slot fingerprint => do
      let outcome ← Idempotency.claim slot fingerprint
      pure (.claim outcome)
  | .release slot => do
      Idempotency.release slot
      pure .done
  | .complete slot response => do
      Idempotency.complete slot response
      pure .done

abbrev Statements := List (World × World)

def system : System Call Statements World Choice PyException Answer where
  program := Call.program
  admits := fun _ _ => True
  aux := fun _ => []
  observe := fun _ g w w' => (w, w') :: g

/-- The claim call has skipped its insert over a row, and not read the row yet. -/
def Skipped (slot : ClaimSlot) (call : Call) (g : Statements) : Prop :=
  (∃ fingerprint, call = .claim slot fingerprint) ∧
    ∃ w w', g = [(w, w')] ∧ (w.claims slot).isSome

/-- No release deletes a row between the two statements of a claim that found it. -/
def undisturbed : Discipline Call Statements World Choice PyException Answer where
  starts := fun _ _ _ => True
  moves := fun w others thread => ∀ slot row, thread.origin = .release slot →
    w.claims slot = some row → row.state = .inProgress →
      ∀ other ∈ others, ¬ Skipped slot other.origin other.aux

/-! ## What one statement does to the claim table -/

structure Inserts (slot : ClaimSlot) (fingerprint : Fingerprint) (w w' : World) : Prop where
  absent : w.claims slot = none
  claims : w'.claims =
    Function.update w.claims slot (some ⟨fingerprint, .inProgress, none⟩)

inductive Effect (w w' : World) : Call → Prop
  | same {call : Call} (h : w'.claims = w.claims) : Effect w w' call
  | claim {slot : ClaimSlot} {fingerprint : Fingerprint} (h : Inserts slot fingerprint w w') :
      Effect w w' (.claim slot fingerprint)
  | release {slot : ClaimSlot} {row : ClaimRow} (hrow : w.claims slot = some row)
      (hstate : row.state = .inProgress)
      (h : w'.claims = Function.update w.claims slot none) : Effect w w' (.release slot)
  | complete {slot : ClaimSlot} {row : ClaimRow} {response : CanonicalResponse}
      (hrow : w.claims slot = some row)
      (h : w'.claims = Function.update w.claims slot
        (some { row with state := .completed, canonicalResponse := some response })) :
      Effect w w' (.complete slot response)

/-- A completed claim has its response. -/
def Complete (w : World) : Prop :=
  ∀ slot row, w.claims slot = some row → row.state = .completed →
    row.canonicalResponse.isSome

theorem Effect.complete_kept {w w' : World} {call : Call} (h : Effect w w' call)
    (hw : Complete w) : Complete w' := by
  intro slot row hrow hstate
  cases h with
  | same h => exact hw slot row (h ▸ hrow) hstate
  | claim h =>
      rw [h.claims, Function.update_apply] at hrow
      split_ifs at hrow
      · cases hrow
        cases hstate
      · exact hw slot row hrow hstate
  | release _ _ h =>
      rw [h, Function.update_apply] at hrow
      split_ifs at hrow
      exact hw slot row hrow hstate
  | complete _ h =>
      rw [h, Function.update_apply] at hrow
      split_ifs at hrow
      · cases hrow
        rfl
      · exact hw slot row hrow hstate

/-- Only a release takes a row away. -/
theorem Effect.isSome {w w' : World} {call : Call} (h : Effect w w' call) {slot : ClaimSlot}
    (hw : (w.claims slot).isSome) : (w'.claims slot).isSome ∨
      (call = .release slot ∧ ∃ row, w.claims slot = some row ∧ row.state = .inProgress) := by
  cases h with
  | same h => exact .inl (h ▸ hw)
  | claim h =>
      rw [h.claims, Function.update_apply]
      split_ifs
      · exact .inl rfl
      · exact .inl hw
  | @release slot' row hrow hstate h =>
      by_cases hslot : slot = slot'
      · subst hslot
        exact .inr ⟨rfl, row, hrow, hstate⟩
      · rw [h, Function.update_apply, if_neg hslot]
        exact .inl hw
  | complete _ h =>
      rw [h, Function.update_apply]
      split_ifs
      · exact .inl rfl
      · exact .inl hw

/-- A completed row stays, with its fingerprint; another response only replaces the
stored one by another completion. -/
theorem Effect.completed_kept {w w' : World} {call : Call} (h : Effect w w' call)
    {slot : ClaimSlot} {row : ClaimRow} (hrow : w.claims slot = some row)
    (hstate : row.state = .completed) :
    w'.claims slot = some row ∨ ∃ response, call = .complete slot response ∧
      w'.claims slot = some { row with canonicalResponse := some response } := by
  cases h with
  | same h => exact .inl (h ▸ hrow)
  | @claim slot' fingerprint h =>
      rw [h.claims, Function.update_apply]
      split_ifs with hslot
      · subst hslot
        rw [h.absent] at hrow
        cases hrow
      · exact .inl hrow
  | @release slot' row' hrow' hstate' h =>
      rw [h, Function.update_apply]
      split_ifs with hslot
      · subst hslot
        rw [hrow'] at hrow
        cases hrow
        rw [hstate'] at hstate
        cases hstate
      · exact .inl hrow
  | @complete slot' row' response hrow' h =>
      rw [h, Function.update_apply]
      split_ifs with hslot
      · subst hslot
        rw [hrow'] at hrow
        cases hrow
        exact .inr ⟨response, rfl, by rw [hstate]⟩
      · exact .inl hrow

/-! ## Each call keeps the contract -/

/-- How a call may end, given the worlds around its statements. -/
inductive Ends : Call → Statements → Except PyException Answer → Prop
  | claimed {slot : ClaimSlot} {fingerprint : Fingerprint} {w w' : World} {g : Statements}
      (h : Inserts slot fingerprint w w') :
      Ends (.claim slot fingerprint) ((w, w') :: g) (.ok (.claim .claimed))
  | inProgress {slot : ClaimSlot} {row : ClaimRow} {w w' : World} {g : Statements}
      (hrow : w.claims slot = some row) (hstate : row.state = .inProgress) :
      Ends (.claim slot row.requestFingerprint) ((w, w') :: g) (.ok (.claim .inProgress))
  | replay {slot : ClaimSlot} {fingerprint : Fingerprint} {response : CanonicalResponse}
      {w w' : World} {g : Statements}
      (hrow : w.claims slot = some ⟨fingerprint, .completed, some response⟩) :
      Ends (.claim slot fingerprint) ((w, w') :: g) (.ok (.claim (.replay (some response))))
  | reused {slot : ClaimSlot} {fingerprint : Fingerprint} {row : ClaimRow} {message : Text}
      {w w' : World} {g : Statements} (hrow : w.claims slot = some row)
      (hother : row.requestFingerprint ≠ fingerprint) :
      Ends (.claim slot fingerprint) ((w, w') :: g) (.error (.idempotencyKeyReused message))
  | released {slot : ClaimSlot} {g : Statements} : Ends (.release slot) g (.ok .done)
  | completed {slot : ClaimSlot} {response : CanonicalResponse} {g : Statements} :
      Ends (.complete slot response) g (.ok .done)

/-- A claim relies on the row it skipped over to stay until it has read it. -/
def contract : Contract Call Statements World PyException Answer where
  inv := Complete
  rely := fun call g w w' => Complete w' ∧
    ∀ slot, Skipped slot call g → (w.claims slot).isSome → (w'.claims slot).isSome
  guar := fun call _ w w' => Effect w w' call
  post := fun call g r _ => Ends call g r

abbrev Keeps {α : Type} (call : Call) (p : Orchestration α)
    (Q : α → Statements → World → Prop) (g : Statements) (w : World) : Prop :=
  p.rg (fun _ => True) (fun g w w' => (w, w') :: g) (contract.rely call)
    (contract.guar call) Q (fun e g w => contract.post call g (.error e) w) g w

theorem keeps_claim (slot : ClaimSlot) (fingerprint : Fingerprint) (w : World) :
    Keeps (.claim slot fingerprint) (claim slot fingerprint)
      (fun outcome g _ => Ends (.claim slot fingerprint) g (.ok (.claim outcome))) [] w := by
  simp only [claim, Keeps, Program.bind_eq, Program.pure_eq, rg_bind, statement, rg_atomic]
  intro c v hc hv
  have hclaims : (v.tick c).claims = v.claims := rfl
  simp only [insertClaim, hclaims]
  cases hrow : v.claims slot with
  | none =>
      have hinserts : Inserts slot fingerprint v
          ((v.tick c).setClaim slot (some ⟨fingerprint, .inProgress, none⟩)) := ⟨hrow, rfl⟩
      exact ⟨.claim hinserts, .claimed hinserts⟩
  | some row =>
      have hskipped : Skipped slot (.claim slot fingerprint) [(v, v.tick c)] :=
        ⟨⟨fingerprint, rfl⟩, v, v.tick c, rfl, by simp [hrow]⟩
      refine ⟨.same rfl, ?_⟩
      simp only [Option.isSome_some, if_true, Bool.false_eq_true, if_false, query, statement,
        rg_bind, rg_atomic]
      intro c' u hc' hu
      have hpresent : (u.claims slot).isSome := hu.2 slot hskipped (by simp [hclaims, hrow])
      refine ⟨.same rfl, ?_⟩
      obtain ⟨found, hfound⟩ := Option.isSome_iff_exists.mp hpresent
      have hclaims' : (u.tick c').claims = u.claims := rfl
      simp only [hclaims', hfound]
      split_ifs with hother
      · exact Ends.reused hfound hother
      · rw [not_not] at hother
        subst hother
        cases hstate : found.state with
        | inProgress => exact Ends.inProgress hfound hstate
        | completed =>
            obtain ⟨response, hresponse⟩ :=
              Option.isSome_iff_exists.mp (hu.1 slot found hfound hstate)
            obtain ⟨fingerprint, state, canonicalResponse⟩ := found
            subst hstate hresponse
            exact Ends.replay hfound

theorem keeps_release (slot : ClaimSlot) (w : World) :
    Keeps (.release slot) (release slot) (fun _ _ _ => True) [] w := by
  simp only [release, Keeps, execute, statement, rg_atomic]
  intro c v hc hv
  refine ⟨?_, trivial⟩
  have hclaims : (v.tick c).claims = v.claims := rfl
  simp only [released, hclaims]
  split
  · next hrow => exact .release hrow rfl rfl
  · exact .same rfl

theorem keeps_complete (slot : ClaimSlot) (response : CanonicalResponse) (w : World) :
    Keeps (.complete slot response) (complete slot response) (fun _ _ _ => True) [] w := by
  simp only [complete, Keeps, execute, statement, rg_atomic]
  intro c v hc hv
  refine ⟨?_, trivial⟩
  have hclaims : (v.tick c).claims = v.claims := rfl
  simp only [completed, hclaims]
  split
  · next hrow => exact .complete hrow rfl
  · exact .same rfl

theorem contract_sound : contract.Sound system undisturbed where
  rely_refl := fun _ _ _ h => ⟨h, fun _ _ h => h⟩
  rely_trans := fun _ _ _ _ _ h h' =>
    ⟨h'.1, fun slot hskipped hrow => h'.2 slot hskipped (h.2 slot hskipped hrow)⟩
  starts := by
    intro w running call hw hstarts
    cases call with
    | claim slot fingerprint =>
        exact (rg_bind _ _).mpr (rg_mono (keeps_claim slot fingerprint w)
          (fun _ _ _ h => h) fun _ _ _ h => h)
    | release slot =>
        exact (rg_bind _ _).mpr (rg_mono (keeps_release slot w)
          (fun _ _ _ _ => .released) fun _ _ _ h => h)
    | complete slot response =>
        exact (rg_bind _ _).mpr (rg_mono (keeps_complete slot response w)
          (fun _ _ _ _ => .completed) fun _ _ _ h => h)
  inv := fun _ _ _ _ hw _ h => h.complete_kept hw
  compatible := by
    intro w others thread w' hw hmoves h other hother
    refine ⟨h.complete_kept hw, fun slot hskipped hrow => ?_⟩
    rcases h.isSome hrow with hkept | ⟨hrelease, row, hrow, hstate⟩
    · exact hkept
    · exact absurd hskipped (hmoves slot row hrelease hrow hstate other hother)
  post := fun _ _ _ _ _ _ _ _ _ _ h => h

/-! ## Runs -/

abbrev ClaimPool := Pool Call Statements World Choice PyException Answer

theorem outcome_program (call : Call) : (system.program call).outcome = none := by
  cases call <;> rfl

def isClaimed (slot : ClaimSlot) : Call × Except PyException Answer → Bool
  | (.claim s _, .ok (.claim .claimed)) => decide (s = slot)
  | _ => false

/-- How many claims of the slot have ended as the owner. -/
def claimed (slot : ClaimSlot) (pool : ClaimPool) : ℕ := pool.ended.countP (isClaimed slot)

/-- A claim becomes the owner by inserting the row. -/
theorem inserts_of_claimed {slot : ClaimSlot} {mover : Option (Thread Call Statements World
    Choice PyException Answer)} {pool pool' : ClaimPool} (h : contract.Holds system pool)
    (hstep : Pool.Step system undisturbed mover pool pool')
    (hlt : claimed slot pool < claimed slot pool') :
    pool.state.claims slot = none ∧ (pool'.state.claims slot).isSome := by
  obtain ⟨new, hsub, hnew⟩ := h.newlyEnded contract_sound outcome_program hstep
  have hle := hsub.countP_le (isClaimed slot)
  rw [List.countP_append] at hle
  cases new with
  | none =>
      rw [Option.toList_none, List.countP_nil, Nat.zero_add] at hle
      exact absurd hle (Nat.not_le.mpr hlt)
  | some answer =>
      obtain ⟨call, r⟩ := answer
      obtain ⟨thread, hthread, horigin, hends⟩ := hnew _ rfl
      have hclaimed : isClaimed slot (call, r) = true := by
        by_contra hno
        rw [Bool.not_eq_true] at hno
        rw [Option.toList_some, List.countP_singleton, hno] at hle
        simp only [Bool.false_eq_true, if_false, Nat.zero_add] at hle
        exact absurd hle (Nat.not_le.mpr hlt)
      dsimp only at horigin hends
      subst horigin
      generalize hg : system.observe thread.origin thread.aux pool.state pool'.state = g
        at hends
      generalize thread.origin = call at hends hclaimed
      cases hends with
      | claimed hinserts =>
          obtain rfl := of_decide_eq_true hclaimed
          cases hg
          exact ⟨hinserts.absent, by simp [hinserts.claims]⟩
      | inProgress => cases hclaimed
      | replay => cases hclaimed
      | reused => cases hclaimed
      | released => cases hclaimed
      | completed => cases hclaimed

/-- The four ways a claim may end. -/
def Answered (r : Except PyException Answer) : Prop :=
  r = .ok (.claim .claimed) ∨ r = .ok (.claim .inProgress) ∨
    (∃ response, r = .ok (.claim (.replay (some response)))) ∨
    ∃ message, r = .error (.idempotencyKeyReused message)

theorem Ends.answered {slot : ClaimSlot} {fingerprint : Fingerprint} {g : Statements}
    {r : Except PyException Answer} (h : Ends (.claim slot fingerprint) g r) : Answered r := by
  cases h with
  | claimed => exact .inl rfl
  | inProgress => exact .inr (.inl rfl)
  | replay => exact .inr (.inr (.inl ⟨_, rfl⟩))
  | reused => exact .inr (.inr (.inr ⟨_, rfl⟩))

theorem Ends.of_replay {slot : ClaimSlot} {fingerprint : Fingerprint} {g : Statements}
    {response : Option CanonicalResponse} {w w' : World}
    (h : Ends (.claim slot fingerprint) ((w, w') :: g) (.ok (.claim (.replay response)))) :
    ∃ stored, response = some stored ∧
      w.claims slot = some ⟨fingerprint, .completed, some stored⟩ := by
  cases h with
  | replay hrow => exact ⟨_, rfl, hrow⟩

/-- Where no release comes between the two statements of a claim: every claim has one
of the four answers; a completed row stays with its fingerprint and a response; a
replay hands out what is stored for the fingerprint it was called with; and between
two claims that become the owner a release deletes the row. -/
theorem claims_exclusive {pool : ClaimPool} (h : pool.Reachable system undisturbed {})
    (slot : ClaimSlot) :
    (∀ fingerprint r, (.claim slot fingerprint, r) ∈ pool.ended → Answered r) ∧
    (∀ mover pool', Pool.Step system undisturbed mover pool pool' →
      (∃ new : Option (Call × Except PyException Answer),
        pool'.ended.Subperm (new.toList ++ pool.ended) ∧
        ∀ fingerprint response,
          new = some (.claim slot fingerprint, .ok (.claim (.replay response))) →
          ∃ stored, response = some stored ∧
            pool.state.claims slot = some ⟨fingerprint, .completed, some stored⟩) ∧
      ∀ row, pool.state.claims slot = some row → row.state = .completed →
        row.canonicalResponse.isSome ∧ (pool'.state.claims slot = some row ∨
          ∃ thread ∈ mover, ∃ response, thread.origin = .complete slot response ∧
            pool'.state.claims slot =
              some { row with canonicalResponse := some response })) ∧
    ∀ mover₁ mover₂ pool₁ pool₂ pool₃, Pool.Step system undisturbed mover₁ pool pool₁ →
      Pool.Steps system undisturbed pool₁ pool₂ →
      Pool.Step system undisturbed mover₂ pool₂ pool₃ →
      claimed slot pool < claimed slot pool₁ → claimed slot pool₂ < claimed slot pool₃ →
      ∃ thread before after, Pool.Steps system undisturbed pool₁ before ∧
        Pool.Step system undisturbed (some thread) before after ∧
        Pool.Steps system undisturbed after pool₂ ∧ thread.origin = .release slot ∧
        (before.state.claims slot).isSome ∧ after.state.claims slot = none := by
  have hinit : Complete {} := fun _ _ h => absurd h nofun
  have hholds := contract_sound.holds hinit h
  refine ⟨fun fingerprint r hr => ?_, fun mover pool' hstep => ⟨?_, fun row hrow hstate => ?_⟩,
    fun mover₁ mover₂ pool₁ pool₂ pool₃ hfirst hbetween hsecond hclaimed₁ hclaimed₂ => ?_⟩
  · obtain ⟨g, hends⟩ := hholds.ended hr
    exact hends.answered
  · obtain ⟨new, hsub, hnew⟩ := hholds.newlyEnded contract_sound outcome_program hstep
    refine ⟨new, hsub, fun fingerprint response heq => ?_⟩
    obtain ⟨thread, hthread, horigin, hends⟩ := hnew _ heq
    rw [← horigin] at hends
    exact hends.of_replay
  · refine ⟨hholds.inv slot row hrow hstate, ?_⟩
    cases mover with
    | none => exact .inl (hstep.state_eq ▸ hrow)
    | some thread =>
        have heffect : Effect pool.state pool'.state thread.origin :=
          (hholds.guarantee contract_sound hstep).2.2
        refine (heffect.completed_kept hrow hstate).imp id ?_
        rintro ⟨response, horigin, hrow'⟩
        exact ⟨thread, rfl, response, horigin, hrow'⟩
  · have hpool₁ := h.tail ⟨mover₁, hfirst⟩
    have hholds₂ := contract_sound.holds hinit (Relation.ReflTransGen.trans hpool₁ hbetween)
    have hpresent := (inserts_of_claimed hholds hfirst hclaimed₁).2
    have habsent := (inserts_of_claimed hholds₂ hsecond hclaimed₂).1
    obtain ⟨before, after, hbefore, ⟨mover, hstep⟩, hafter, hsome, hnone⟩ :=
      exists_crossing (P := fun p : ClaimPool => (p.state.claims slot).isSome) hbetween hpresent
        (by simp [habsent])
    rw [Option.not_isSome_iff_eq_none] at hnone
    cases mover with
    | none =>
        rw [hstep.state_eq] at hnone
        rw [hnone] at hsome
        cases hsome
    | some thread =>
        have hholds' := contract_sound.holds hinit
          (Relation.ReflTransGen.trans hpool₁ hbefore)
        have heffect : Effect before.state after.state thread.origin :=
          (hholds'.guarantee contract_sound hstep).2.2
        refine ⟨thread, before, after, hbefore, hstep, hafter, ?_, hsome, hnone⟩
        rcases heffect.isSome hsome with hkept | ⟨horigin, -⟩
        · rw [hnone] at hkept
          cases hkept
        · exact horigin

/-- A first claim owns the slot. -/
theorem claims_exclusive_claimed : ∃ pool : ClaimPool,
    pool.Reachable system undisturbed {} ∧ claimed ⟨.turns, some ⟨1⟩, 2⟩ pool = 1 ∧
      ∀ fingerprint r, (.claim ⟨.turns, some ⟨1⟩, 2⟩ fingerprint, r) ∈ pool.ended →
        Answered r := by
  let call : Call := .claim ⟨.turns, some ⟨1⟩, 2⟩ .empty
  obtain ⟨g, hsteps⟩ := Pool.Steps.advance (S := system) (D := undisturbed) (i := call)
    (p := call.program) (fun _ => Scenario.steady) [] []
    (fun _ => trivial) (fun _ _ _ _ _ h => nomatch h) 1 [] {} []
  have hreach := Relation.ReflTransGen.head ⟨none, .start call trivial⟩ hsteps
  exact ⟨_, hreach, rfl, (claims_exclusive hreach _).1⟩

/-- A claim that skipped its insert does not read the row before another request
releases it, and dies of a `TypeError`. -/
theorem claim_typeError : ∃ pool : ClaimPool, ∃ slot, pool.Reachable system .free {} ∧
    (.claim slot .empty, .error .typeError) ∈ pool.ended ∧ ¬ Answered (.error .typeError) := by
  let slot : ClaimSlot := ⟨.turns, some ⟨1⟩, 2⟩
  let call : Call := .claim slot .empty
  let thread : Call → Thread Call Statements World Choice PyException Answer :=
    fun call => ⟨call, [], call.program⟩
  have hstarted : Pool.Steps system .free ⟨{}, [], []⟩
      ⟨{}, [thread call, thread call, thread (.release slot)], []⟩ :=
    .tail (.tail (.tail .refl ⟨none, .start (.release slot) trivial⟩)
      ⟨none, .start call trivial⟩) ⟨none, .start call trivial⟩
  have hadvance := fun call p g before after w => Pool.Steps.advance (S := system)
    (D := .free) (i := call) (p := p) (fun _ => Scenario.steady) before
    after (fun _ => trivial) (fun _ _ _ => trivial) 1 g w []
  obtain ⟨g₁, hclaimed⟩ := hadvance call call.program [] []
    [thread call, thread (.release slot)] {}
  obtain ⟨g₂, hskipped⟩ := hadvance call call.program [] [⟨call, g₁, _⟩]
    [thread (.release slot)] _
  obtain ⟨g₃, hreleased⟩ := hadvance (.release slot) (Call.release slot).program []
    [⟨call, g₁, _⟩, ⟨call, g₂, _⟩] [] _
  obtain ⟨g₄, hread⟩ := hadvance call _ g₂ [⟨call, g₁, _⟩] [⟨.release slot, g₃, _⟩] _
  refine ⟨_, slot, (((hstarted.trans hclaimed).trans hskipped).trans hreleased).trans hread,
    List.mem_append_left _ (List.mem_filterMap.mpr
      ⟨_, List.mem_append_right _ List.mem_cons_self, rfl⟩), ?_⟩
  rintro (h | h | ⟨_, h⟩ | ⟨_, h⟩) <;> cases h

end StoryReview.Idempotency
