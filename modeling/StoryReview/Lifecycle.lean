import StoryReview.Scenarios

/-!
# The life of a session

What runs of whole requests keep of a session: the facilitator-turn budget, the
turn that finalizes, the references of a completed session and the state of its
story run.
-/
namespace StoryReview
open RecordsStore

section Steps
variable {a : Attempt} {w₀ w w' : World} {s : SessionRecord} {u : SessionUpdate}

/-! ## Session updates -/

theorem Marks.open_before (h : Marks a w₀ w s u) : s.state.Open := by
  cases h with
  | count hstate => exact .inl hstate
  | finalizing hstate => exact hstate
  | rollBack hstate => exact .inr hstate

theorem Closes.open_before {response : CanonicalResponse} (h : Closes a w₀ w s u response) :
    s.state.Open := by
  cases h with
  | persist hrequest hstate => exact .inl hstate
  | completeTurn _ hrequest hstate => exact .inr hstate
  | completeFinalize _ hrequest hstate => exact .inr hstate
  | abandon hrequest hstate => exact hstate

/-- A message turn on an active session, which is what consumes facilitator turns. -/
def Attempt.MessageOn (a : Attempt) (w : World) (id : SessionId) : Prop :=
  id = a.sessionId ∧ (∃ payload, a.request = .turn id payload ∧ payload.poAccepted = false) ∧
    ∃ s, w.core id = some s ∧ s.state = .active

/-! ## The facilitator-turn budget -/

structure TurnBudget (s : SessionRecord) : Prop where
  pos : 1 ≤ s.facilitatorTurnCount
  le : s.facilitatorTurnCount ≤ parkTurn
  parks : s.facilitatorTurnCount = parkTurn → s.state = .parked

theorem TurnBudget.lt_of_open (h : TurnBudget s) (hopen : s.state.Open) :
    s.facilitatorTurnCount < parkTurn := by
  refine lt_of_le_of_ne h.le fun heq => ?_
  have hparked := h.parks heq
  rcases hopen with hstate | hstate
  · exact absurd (hparked.symm.trans hstate) nofun
  · exact absurd (hparked.symm.trans hstate) nofun

/-- Below the cap the budget only depends on the count. -/
theorem TurnBudget.of_count (h : TurnBudget s) (hlt : s.facilitatorTurnCount < parkTurn)
    {s' : SessionRecord} (hcount : s'.facilitatorTurnCount = s.facilitatorTurnCount) :
    TurnBudget s' :=
  ⟨hcount ▸ h.pos, hcount ▸ h.le, fun heq => absurd (hcount.symm.trans heq) hlt.ne⟩

theorem Marks.turnBudget (h : Marks a w₀ w s u) (hb : TurnBudget s) :
    TurnBudget (u.apply 0 s) := by
  have hlt := hb.lt_of_open h.open_before
  cases h with
  | @count n hstate hcount hgate =>
      obtain ⟨s₀, -, -, hn⟩ := hcount.before
      exact ⟨by simp [SessionUpdate.apply, hn], by simpa [SessionUpdate.apply] using hgate.le,
        fun heq => absurd heq (by simpa [SessionUpdate.apply] using hgate.ne)⟩
  | finalizing => exact hb.of_count hlt rfl
  | rollBack => exact hb.of_count hlt rfl

theorem Closes.turnBudget {response : CanonicalResponse} (h : Closes a w₀ w s u response)
    (hb : TurnBudget s) : TurnBudget (u.apply 0 s) := by
  have hlt := hb.lt_of_open h.open_before
  cases h with
  | @persist payload row canonical n hrequest hstate hmem howns hdescribes hcount houtcome =>
      obtain ⟨s₀, -, -, hn⟩ := hcount.before
      refine ⟨by simp [SessionUpdate.apply, hn], hcount.le, fun heq => ?_⟩
      have hten : n = parkTurn := by simpa [SessionUpdate.apply] using heq
      simp [SessionUpdate.apply, hten]
  | completeTurn count hrequest hstate hmem howns hdescribes hcount =>
      refine hb.of_count hlt ?_
      cases count with
      | none => rfl
      | some n => exact hcount n rfl
  | completeFinalize => exact hb.of_count hlt rfl
  | abandon => exact ⟨hb.pos, hb.le, fun _ => rfl⟩

/-- Every session keeps to its budget. -/
def KeepsBudget (w : World) : Prop := ∀ id s, w.core id = some s → TurnBudget s

theorem Commit.keepsBudget (h : KeepsBudget w) (hc : Commit a w₀ w w') : KeepsBudget w' := by
  intro id s' hs'
  cases hc.core_cases hs' with
  | same hs => exact h id s' hs
  | mark hid hs hmarks heq => exact heq ▸ hmarks.turnBudget (h id _ hs)
  | close hid hs hcloses heq => exact heq ▸ hcloses.turnBudget (h id _ hs)
  | parkFailed hid hs hactive heq =>
      have hb := h id _ hs
      exact heq ▸ ⟨hb.pos, hb.le, fun _ => rfl⟩
  | session hnone hstate hcount =>
      exact ⟨hcount.ge, hcount ▸ Nat.le_of_ble_eq_true rfl, fun heq =>
        absurd (hcount.symm.trans heq) nofun⟩

/-- The count of a session while an attempt runs: as it was, or one more for a message
turn on an active session. -/
def CountKept (a : Attempt) (w₀ w : World) (id : SessionId) (s₀ : SessionRecord) : Prop :=
  ∃ s, w.core id = some s ∧ (s.facilitatorTurnCount = s₀.facilitatorTurnCount ∨
    (a.MessageOn w₀ id ∧ s.facilitatorTurnCount = s₀.facilitatorTurnCount + 1))

/-- A session stays, with the record that the step makes of it. -/
theorem Commit.core_kept (hc : Commit a w₀ w w') {id : SessionId} (hs : w.core id = some s) :
    ∃ s', w'.core id = some s' := by
  have hupdate : ∀ (u : SessionUpdate) (v : World),
      v.cores = (sessionUpdated a.sessionId u w).cores → ∃ s', v.core id = some s' := by
    intro u v hv
    rw [World.core, hv, ← World.core, World.core_sessionUpdated, hs]
    split_ifs
    · exact ⟨_, rfl⟩
    · exact ⟨_, rfl⟩
  have hsame : ∀ v : World, v.cores = w.cores → ∃ s', v.core id = some s' := by
    intro v hv
    rw [World.core, hv]
    exact ⟨s, hs⟩
  cases hc with
  | quiet hq => exact hsame _ hq.cores
  | draft _ hsaves =>
      obtain ⟨_, _, _, _, _, _, rfl⟩ := hsaves
      exact hsame _ rfl
  | claim => exact hsame _ rfl
  | release => exact hsame _ (World.sameButClaims_released _ _).cores
  | storyRun => exact hsame _ rfl
  | session =>
      simp only [World.core, World.cores, List.map_append, List.find?_append]
      rw [World.core, World.cores] at hs
      rw [hs]
      exact ⟨s, rfl⟩
  | turn => exact hsame _ rfl
  | mark => exact hupdate _ _ rfl
  | finalReview => exact hsame _ rfl
  | report => exact hsame _ rfl
  | stamp => exact hsame _ rfl
  | close => exact hupdate _ _ (World.sameButClaims_completed _ _ _).cores
  | created => exact hsame _ (World.sameButClaims_completed _ _ _).cores
  | parkFailed => exact hupdate _ _ (World.sameButClaims_released _ _).cores

/-- A completed claim of a session is never touched again. -/
theorem Commit.claim_kept (hc : Commit a w₀ w w') {slot : ClaimSlot}
    (hslot : slot.sessionId.isSome) {row : ClaimRow} (hrow : w.claims slot = some row)
    (hdone : row.state = .completed) : w'.claims slot = some row := by
  by_cases hown : slot = a.slot
  swap
  · exact (hc.claims_cases.2 slot hown).trans hrow
  subst hown
  generalize hclaim : w'.claims a.slot = claim
  have heffect := hclaim ▸ hc.claims_cases.1
  cases heffect with
  | same => exact hrow
  | claim hnone =>
      rw [hrow] at hnone
      cases hnone
  | release =>
      rw [hrow]
      simp [hdone]
  | close _ _ hholds =>
      obtain ⟨row', hrow', hprogress, -⟩ := hholds
      rw [hrow] at hrow'
      cases hrow'
      cases hdone.symm.trans hprogress
  | created hrequest =>
      rw [Attempt.slot, hrequest] at hslot
      cases hslot

theorem CountsTurn.countKept {n : ℕ} {id : SessionId} {s₀ : SessionRecord}
    (h : CountsTurn a w₀ w s n) (hid : id = a.sessionId) (hsid : s.sessionId = id)
    (hs₀ : w₀.core id = some s₀) :
    a.MessageOn w₀ id ∧ n = s₀.facilitatorTurnCount + 1 := by
  obtain ⟨s₁, hs₁, hactive, hn⟩ := h.before
  rw [hsid, hs₀] at hs₁
  cases hs₁
  exact ⟨⟨hid, hsid ▸ h.message, s₀, hs₀, hactive⟩, hn⟩

theorem Commit.countKept {id : SessionId} {s₀ : SessionRecord} (hs₀ : w₀.core id = some s₀)
    (h : CountKept a w₀ w id s₀) (hc : Commit a w₀ w w') : CountKept a w₀ w' id s₀ := by
  obtain ⟨s, hs, hkept⟩ := h
  obtain ⟨s', hs'⟩ := hc.core_kept hs
  refine ⟨s', hs', ?_⟩
  have hsid := World.sessionId_of_core hs
  cases hc.core_cases hs' with
  | same hold =>
      rw [hs] at hold
      cases hold
      exact hkept
  | mark hid hold hmarks heq =>
      rw [hs] at hold
      cases hold
      subst heq
      cases hmarks with
      | count hstate hcount => exact .inr (hcount.countKept hid hsid hs₀)
      | finalizing => exact hkept
      | rollBack => exact hkept
  | close hid hold hcloses heq =>
      rw [hs] at hold
      cases hold
      subst heq
      cases hcloses with
      | persist hrequest hstate hmem howns hdescribes hcount =>
          exact .inr (hcount.countKept hid hsid hs₀)
      | completeTurn count hrequest hstate hmem howns hdescribes hcount =>
          cases count with
          | none => exact hkept
          | some n =>
              have hn := hcount n rfl
              exact hkept.imp (fun h => hn.trans h) fun h => ⟨h.1, hn.trans h.2⟩
      | completeFinalize => exact hkept
      | abandon => exact hkept
  | parkFailed hid hold hactive heq =>
      rw [hs] at hold
      cases hold
      subst heq
      exact hkept
  | session hnone =>
      rw [hs] at hnone
      cases hnone

theorem Evolves.keepsBudget (h : KeepsBudget w₀) (hw : Evolves a w₀ w₀ w) : KeepsBudget w := by
  induction hw with
  | refl => exact h
  | tail _ hc ih => exact hc.keepsBudget ih

theorem Evolves.countKept {id : SessionId} {s₀ : SessionRecord} (hs₀ : w₀.core id = some s₀)
    (hw : Evolves a w₀ w₀ w) : CountKept a w₀ w id s₀ := by
  induction hw with
  | refl => exact ⟨s₀, hs₀, .inl rfl⟩
  | tail _ hc ih => exact hc.countKept hs₀ ih

end Steps

section Runs
variable {P : World → Attempt → Prop} {w : World} {id : SessionId} {row : SessionRow}

theorem ReachableIf.keepsBudget (h : ReachableIf P w) : KeepsBudget w := by
  induction h with
  | init => exact fun _ _ hs => absurd hs nofun
  | @step w a hw _ ih => exact Evolves.keepsBudget ih (a.evolves hw.inv)

/-- Facilitator turns are counted from 1 to 10 and the tenth parks the session; an
attempt adds one at most, for a message turn on an active session, and does so when it
answers the message for the first time. -/
theorem reachable_turnBudget (h : Reachable w) (hrow : w.session id = some row) :
    TurnBudget row.record ∧
      (row.record.state.Open → row.record.facilitatorTurnCount + 1 ≤ parkTurn) ∧
      ∀ a : Attempt, ∃ row', (a.result w).session id = some row' ∧
        row.record.facilitatorTurnCount ≤ row'.record.facilitatorTurnCount ∧
        row'.record.facilitatorTurnCount ≤ row.record.facilitatorTurnCount + 1 ∧
        (¬ a.MessageOn w id →
          row'.record.facilitatorTurnCount = row.record.facilitatorTurnCount) ∧
        ∀ response, a.response w = some (.turn response) → a.MessageOn w id →
          (∀ claim, w.claims a.slot = some claim → claim.state = .inProgress) →
          row'.record.facilitatorTurnCount = row.record.facilitatorTurnCount + 1 := by
  have hs := World.core_of_session hrow
  have hbudget := h.keepsBudget id _ hs
  have hbudget' : TurnBudget row.record := ⟨hbudget.pos, hbudget.le, hbudget.parks⟩
  refine ⟨hbudget', fun hopen => hbudget'.lt_of_open hopen, fun a => ?_⟩
  obtain ⟨s', hs', hkept⟩ := Evolves.countKept hs (a.evolves h.inv)
  obtain ⟨row', hrow', rfl⟩ := World.session_of_core hs'
  have hkept' : row'.record.facilitatorTurnCount = row.record.facilitatorTurnCount ∨
      (a.MessageOn w id ∧
        row'.record.facilitatorTurnCount = row.record.facilitatorTurnCount + 1) := hkept
  refine ⟨row', hrow', ?_, ?_, ?_, fun response hresponse hmessage hlive => ?_⟩
  · omega
  · omega
  · exact fun hno => hkept'.resolve_right fun hm => hno hm.1
  · cases a.answered h.inv hresponse response rfl with
    | own hmem howns htells hrecorded hcounted =>
        obtain ⟨rfl, ⟨payload, hrequest, haccepted⟩, s₀, hs₀, hactive⟩ := hmessage
        rw [hs] at hs₀
        cases hs₀
        obtain ⟨s₁, hs₁, hcount⟩ := hcounted payload _ hrequest haccepted hs hactive
        rw [hs'] at hs₁
        cases hs₁
        exact hcount
    | replay hrecorded => exact absurd (hlive _ hrecorded.claim) nofun

end Runs

namespace Scenario

theorem turnBudget_created : ∃ row, (World.after {} [create]).session ⟨1⟩ = some row ∧
    TurnBudget row.record ∧ ∃ row', (World.after {} [create, ask 2 none]).session ⟨1⟩ =
      some row' ∧ row'.record.facilitatorTurnCount = row.record.facilitatorTurnCount + 1 := by
  have hisSome : ((World.after {} [create]).session ⟨1⟩).isSome = true := by decide +kernel
  obtain ⟨row, hrow⟩ := Option.isSome_iff_exists.mp hisSome
  obtain ⟨hbudget, -, hattempt⟩ := reachable_turnBudget (reachable_after [create]) hrow
  obtain ⟨row', hrow', -, -, -, hanswered⟩ := hattempt (ask 2 none)
  have hanswers : answersTurn ((ask 2 none).response (World.after {} [create])) = true := by
    decide +kernel
  have hactive : ((World.after {} [create]).core ⟨1⟩).any
      (fun s => decide (s.state = .active)) = true := by decide +kernel
  have hnone : (World.after {} [create]).claims (ask 2 none).slot = none := by decide +kernel
  obtain ⟨response, hresponse⟩ := exists_turn hanswers
  obtain ⟨s, hs, hstate⟩ := Option.any_eq_true _ _ |>.mp hactive
  refine ⟨row, hrow, hbudget, row', hrow', hanswered response hresponse ?_ ?_⟩
  · exact ⟨rfl, ⟨_, rfl, rfl⟩, s, hs, of_decide_eq_true hstate⟩
  · intro claim hclaim
    rw [hnone] at hclaim
    cases hclaim

end Scenario
end StoryReview
