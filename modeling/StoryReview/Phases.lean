import StoryReview.LeaseRaces
import StoryReview.Lawful

/-!
# The phases of a request

The auxiliary state of a request as its own steps move it: a turn, finalize or abandon
request works from when it has taken the lease; a creation works from its claim step
unless that finds an answer to replay, and is settled once it has stored the opening
turn.
-/
namespace StoryReview
open Program Flows RecordsStore

inductive Phase where
  | fresh | replaying | working | settled
deriving DecidableEq, Repr

/-- The request may change its session. -/
def Phase.Underway (phase : Phase) : Prop := phase = .working ∨ phase = .settled

instance : DecidablePred Phase.Underway := fun _ => inferInstanceAs (Decidable (_ ∨ _))

/-- The claim has an answer. -/
def World.Answered (w : World) (slot : ClaimSlot) : Prop :=
  ∃ row ∈ w.claims slot, row.state = .completed

instance (w : World) (slot : ClaimSlot) : Decidable (w.Answered slot) :=
  inferInstanceAs (Decidable (∃ row ∈ w.claims slot, _))

/-- The opening turn of the key's session is stored. -/
def World.Opened (w : World) (key : IdempotencyKey) : Prop :=
  ∃ row ∈ w.turns ⟨key⟩, row.producer = .createSession key

instance (w : World) (key : IdempotencyKey) : Decidable (w.Opened key) :=
  inferInstanceAs (Decidable (∃ row ∈ w.turns ⟨key⟩, _))

/-- How a step of its own moves the request. -/
def Attempt.observe (a : Attempt) (phase : Phase) (w w' : World) : Phase :=
  match a.request, phase with
  | .createSession _, .fresh => if w'.Answered a.slot then .replaying else .working
  | .createSession _, .working =>
      if ¬ w.Opened a.key ∧ w'.Opened a.key then .settled else .working
  | .createSession _, phase => phase
  | _, phase =>
      if w'.leases a.sessionId ≠ w.leases a.sessionId ∧ (w'.leases a.sessionId).isSome then
        .working
      else phase

/-- The requests of the service, each in its phase. -/
def requests : System Attempt Phase World Choice PyException Response :=
  service (fun _ => .fresh) Attempt.observe

abbrev RequestPool := Pool Attempt Phase World Choice PyException Response

theorem Phase.Underway.observe {a : Attempt} {phase : Phase} (h : phase.Underway)
    (w w' : World) : (a.observe phase w w').Underway := by
  unfold Attempt.observe
  cases a.request with
  | createSession payload =>
      rcases h with rfl | rfl
      · dsimp only
        split_ifs
        · exact .inr rfl
        · exact .inl rfl
      · exact .inr rfl
  | turn | finalize | abandon =>
      dsimp only
      split_ifs
      · exact .inl rfl
      · exact h

theorem Attempt.observe_acquire {a : Attempt}
    (hrequest : ∀ payload, a.request ≠ .createSession payload)
    {phase : Phase} {w w' : World} {c : Choice} {token : Uuid}
    (h : TurnLease.acquireStatement a.sessionId (w.tick c) = (some token, w')) :
    a.observe phase w w' = .working := by
  have hspec := TurnLease.acquireStatement_spec a.sessionId w c
  rw [h] at hspec
  obtain ⟨⟨hfree, -, -, hleases⟩, hclock⟩ := hspec
  have hlease : w'.leases a.sessionId = some ⟨token, w'.clock, w'.clock + TurnLease.ttl⟩ := by
    rw [hleases, Function.update_self]
  have hnew : w'.leases a.sessionId ≠ w.leases a.sessionId := by
    rw [hlease]
    intro hsame
    have hlater : w'.clock < w'.clock + TurnLease.ttl := Nat.lt_add_of_pos_right (by decide)
    exact absurd (hfree _ hsame.symm) (Nat.not_le.mpr hlater)
  unfold Attempt.observe
  cases hkind : a.request with
  | createSession payload => exact absurd hkind (hrequest payload)
  | turn | finalize | abandon =>
      dsimp only
      rw [if_pos ⟨hnew, by simp [hlease]⟩]

theorem Attempt.slot_ne_createSlot {a : Attempt}
    (hrequest : ∀ payload, a.request ≠ .createSession payload) (key : IdempotencyKey) :
    a.slot ≠ Flows.createSlot key := by
  unfold Attempt.slot
  cases hkind : a.request with
  | createSession payload => exact absurd hkind (hrequest payload)
  | turn | finalize | abandon => nofun

/-! ## Creations -/

/-- The request creates the session of the key. -/
def Attempt.Creates (a : Attempt) (key : IdempotencyKey) : Prop :=
  a.key = key ∧ ∃ payload, a.request = .createSession payload

section Creations
variable {a : Attempt} {payload : CreateSessionRequest} {phase : Phase} {w w' : World}

theorem Attempt.observe_fresh (hrequest : a.request = .createSession payload) (w w' : World) :
    a.observe .fresh w w' = if w'.Answered a.slot then .replaying else .working := by
  simp only [Attempt.observe, hrequest]

theorem Attempt.observe_replaying (hrequest : a.request = .createSession payload)
    (w w' : World) : a.observe .replaying w w' = .replaying := by
  simp only [Attempt.observe, hrequest]

/-- Only the statement that stores the opening turn settles a creation. -/
theorem Attempt.observe_working (hrequest : a.request = .createSession payload)
    (h : w'.Opened a.key → w.Opened a.key) : a.observe .working w w' = .working := by
  simp only [Attempt.observe, hrequest]
  rw [if_neg fun hnew => hnew.1 (h hnew.2)]

theorem Lawful.isAnswered {key : IdempotencyKey} (h : Lawful w w') (hw : Coherent w)
    (hanswered : w.Answered (createSlot key)) : w'.Answered (createSlot key) := by
  obtain ⟨row, hrow, hdone⟩ := hanswered
  exact ⟨row, h.answered key row hw hrow hdone, hdone⟩

/-- What a creation knows after its claim step: it works, or there is an answer. -/
structure Claiming (a : Attempt) (phase : Phase) (w : World) : Prop where
  coherent : Coherent w
  phase : phase = .working ∨ (phase = .replaying ∧ w.Answered a.slot)

namespace Claiming

theorem lawful (hrequest : a.request = .createSession payload) (h : Claiming a phase w)
    (hlawful : Lawful w w') : Claiming a phase w' := by
  refine ⟨hlawful.coherent h.coherent, h.phase.imp_right fun hreplay => ⟨hreplay.1, ?_⟩⟩
  have hanswered := hreplay.2
  rw [← Attempt.createSlot hrequest] at hanswered ⊢
  exact hlawful.isAnswered h.coherent hanswered

/-- A step that stores no opening turn. -/
theorem step (hrequest : a.request = .createSession payload) (h : Claiming a phase w)
    (hlawful : Lawful w w') (hopened : w'.Opened a.key → w.Opened a.key) :
    Claiming a (a.observe phase w w') w' := by
  have hnext := h.lawful hrequest hlawful
  rcases h.phase with rfl | ⟨rfl, -⟩
  · rw [a.observe_working hrequest hopened]
    exact hnext
  · rw [a.observe_replaying hrequest]
    exact hnext

/-- The claim step itself. -/
theorem first (hrequest : a.request = .createSession payload) (hw : Coherent w')
    (hphase : phase = .fresh) : Claiming a (a.observe phase w w') w' := by
  subst hphase
  rw [a.observe_fresh hrequest]
  split_ifs with hanswered
  · exact ⟨hw, .inr ⟨rfl, hanswered⟩⟩
  · exact ⟨hw, .inl rfl⟩

/-- A claim in progress is not replayed. -/
theorem working {row : ClaimRow} (h : Claiming a phase w) (hrow : w.claims a.slot = some row)
    (hstate : row.state = .inProgress) : phase = .working := by
  refine h.phase.resolve_right fun ⟨_, row', hrow', hdone⟩ => ?_
  rw [Option.mem_def, hrow] at hrow'
  cases hrow'
  rw [hstate] at hdone
  cases hdone

end Claiming

theorem inserted_inProgress {slot : ClaimSlot} {fingerprint : Fingerprint}
    (h : (Idempotency.insertClaim slot fingerprint w).1 = true) :
    (Idempotency.insertClaim slot fingerprint w).2.claims slot =
      some ⟨fingerprint, .inProgress, none⟩ := by
  unfold Idempotency.insertClaim at h ⊢
  split_ifs at h ⊢
  rw [World.claims_setClaim, if_pos rfl]

end Creations

end StoryReview
