import StoryReview.Scenarios

/-!
# Turns and the keys that produced them

A turn request inserts its turn, moves the session on and completes its claim in
separate steps. Two things follow as long as no retry starts between them: a key
has at most one turn, and a request answers with the turn of its own key.
-/
namespace StoryReview
open RecordsStore

/-- The turns that requests under a key inserted. -/
def World.turnsOf (w : World) (id : SessionId) (key : IdempotencyKey) : List TurnRow :=
  (w.turns id).filter fun row => decide (row.producer = .turn key)

def OneTurnPerKey (w : World) : Prop := ∀ id key, (w.turnsOf id key).length ≤ 1

/-- A turn request that is not a replay finds its session active only when no turn of
its key is stored. -/
def InsertsOnce (w : World) (a : Attempt) : Prop :=
  ∀ payload s, a.request = .turn a.sessionId payload → w.core a.sessionId = some s →
    s.state = .active →
    (∀ claim, w.claims a.slot = some claim → claim.state = .inProgress) →
    w.turnsOf a.sessionId a.key = []

/-- A turn request that resumes a finalizing session finds its own turn last. -/
def ResumesOwnTurn (w : World) (a : Attempt) : Prop :=
  ∀ payload s claim row, a.request = .turn a.sessionId payload →
    w.core a.sessionId = some s → s.state = .finalizing →
    w.claims a.slot = some claim → claim.state = .inProgress →
    (w.turns a.sessionId).getLast? = some row → row.producer = .turn a.key

/-! ## One turn per key -/

section Steps
variable {a : Attempt} {w₀ w w' : World}

theorem Commit.ClaimEffect.completed {claim' : Option ClaimRow}
    (h : Commit.ClaimEffect a w₀ w claim') {claim : ClaimRow}
    (hclaim : w.claims a.slot = some claim) (hstate : claim.state = .completed) :
    ∃ c, claim' = some c ∧ c.state = .completed := by
  cases h with
  | same => exact ⟨claim, hclaim, hstate⟩
  | claim hnone =>
      rw [hnone] at hclaim
      cases hclaim
  | release => exact ⟨claim, by simp [hclaim, hstate], hstate⟩
  | close => exact ⟨_, by rw [hclaim, Option.map_some], rfl⟩
  | created => exact ⟨_, by rw [hclaim, Option.map_some], rfl⟩

/-- A completed claim stays completed. -/
theorem Evolves.completed (hw : Evolves a w₀ w w') {claim : ClaimRow}
    (hclaim : w.claims a.slot = some claim) (hstate : claim.state = .completed) :
    ∃ c, w'.claims a.slot = some c ∧ c.state = .completed := by
  induction hw with
  | refl => exact ⟨claim, hclaim, hstate⟩
  | tail _ hc ih =>
      obtain ⟨c, hc', hstate'⟩ := ih
      exact hc.claims_cases.1.completed hc' hstate'

/-- Who inserts a turn, and what a turn request knew when it did. -/
theorem NewTurn.producer {s : SessionRecord} {row : TurnRow} (h : NewTurn a w₀ w s row) :
    row.producer = .createSession a.key ∨ (row.producer = .turn a.key ∧
      ∃ payload s₀, a.request = .turn s.sessionId payload ∧
        w.turns s.sessionId = w₀.turns s.sessionId ∧ w₀.core s.sessionId = some s₀ ∧
        s₀.state = .active) := by
  cases h with
  | opening => exact .inl rfl
  | accepted hrequest _ hsame hbefore =>
      obtain ⟨s₀, hs₀, hstate⟩ := hbefore
      exact .inr ⟨rfl, _, s₀, hrequest, hsame, hs₀, hstate⟩
  | message hrequest _ hsame hbefore =>
      exact .inr ⟨rfl, _, s, hrequest, hsame, hbefore⟩

theorem Commit.oneTurnPerKey (hinserts : InsertsOnce w₀ a) (hw : Evolves a w₀ w₀ w)
    (h : OneTurnPerKey w) (hc : Commit a w₀ w w') : OneTurnPerKey w' := by
  intro id key
  have hold := h id key
  unfold World.turnsOf at hold ⊢
  generalize hrows : w'.turns id = rows
  have heffect := hrows ▸ hc.turns_cases id
  cases heffect with
  | same => exact hold
  | @append s row hid hs hstate hnew hclaim =>
      rw [List.filter_append, List.length_append]
      by_cases hkey : row.producer = .turn key
      swap
      · simpa [hkey] using hold
      rcases hnew.producer with hp | ⟨hp, payload, s₀, hrequest, hsame, hs₀, hactive⟩
      · rw [hp] at hkey
        cases hkey
      -- a turn of the attempt's own key: the session had none when it started
      obtain rfl : a.key = key := by
        rw [hp] at hkey
        exact Producer.turn.inj hkey
      have hsid : s.sessionId = a.sessionId := (World.sessionId_of_core hs).trans hid
      rw [hsid] at hrequest hsame hs₀
      have hnone : w₀.turnsOf a.sessionId a.key = [] := by
        refine hinserts payload s₀ hrequest hs₀ hactive fun claim₀ hclaim₀ => ?_
        cases hstate₀ : claim₀.state with
        | inProgress => rfl
        | completed =>
            obtain ⟨c, hc, hdone⟩ := hw.completed hclaim₀ hstate₀
            obtain ⟨c', hc', hopen, -⟩ := hclaim
            rw [hc, Option.some.injEq] at hc'
            rw [← hc', hdone] at hopen
            cases hopen
      unfold World.turnsOf at hnone
      rw [hid, hsame, hnone]
      simp [hp]
  | stamp hid hs hstate hreferences =>
      rw [List.filter_map, List.length_map]
      simpa [Function.comp_def, stampTurn_producer] using hold

theorem Evolves.oneTurnPerKey (hinserts : InsertsOnce w₀ a) (h : OneTurnPerKey w₀)
    (hw : Evolves a w₀ w₀ w) : OneTurnPerKey w := by
  induction hw with
  | refl => exact h
  | tail hw hc ih => exact hc.oneTurnPerKey hinserts hw ih

end Steps

/-- A run in which no retry finds its turn stored and the session still active keeps
one turn per key. -/
theorem reachable_oneTurnPerKey {w : World} (h : ReachableIf InsertsOnce w) : OneTurnPerKey w := by
  induction h with
  | init => exact fun _ _ => by simp [World.turnsOf]
  | @step w a hw hinserts ih => exact Evolves.oneTurnPerKey hinserts ih (a.evolves hw.inv)

namespace Scenario

/-- An attempt on a session without turns of its key inserts once. -/
theorem insertsOnce_of_none {w : World} {a : Attempt}
    (h : (w.turnsOf a.sessionId a.key).isEmpty = true) : InsertsOnce w a :=
  fun _ _ _ _ _ _ => List.isEmpty_iff.mp h

theorem oneTurnPerKey_accepted : OneTurnPerKey (World.after {} [create, accept 2 none]) :=
  reachable_oneTurnPerKey (.step (accept 2 none)
    (.step create .init (insertsOnce_of_none (by decide +kernel)))
    (insertsOnce_of_none (by decide +kernel)))

/-- The process that accepts dies right after its turn is stored, and is retried. -/
def twoAcceptances : World := World.after {} [create, accept 2 (some 8), accept 2 none]

theorem twoAcceptances_not_one : Reachable twoAcceptances ∧ ¬ OneTurnPerKey twoAcceptances :=
  ⟨reachable_after _, fun h => absurd (h ⟨1⟩ 2) (by decide +kernel)⟩

end Scenario

/-! ## Answers -/

/-- A completed turn claim tells of a turn of its key. -/
def ClaimsTellOwnTurn (w : World) : Prop :=
  ∀ id key claim canonical, w.claims (TurnsFlow.slot id key) = some claim →
    claim.canonicalResponse = some (.turn canonical) →
    ∃ row ∈ w.turns id, row.producer = .turn key ∧ Describes canonical row.record

/-- A request's turn is its own when resumptions are. -/
theorem Owns.producer {a : Attempt} {w₀ : World} {row : TurnRow} {payload : TurnRequest}
    (h : Owns a w₀ row) (hresumes : ResumesOwnTurn w₀ a)
    (hrequest : a.request = .turn a.sessionId payload) : row.producer = .turn a.key := by
  rcases h with hown | ⟨⟨s, hs, hstate⟩, ⟨claim, hclaim, hopen⟩, row₀, hlast, hproducer⟩
  · exact hown
  · rw [← hproducer]
    exact hresumes payload s claim row₀ hrequest hs hstate hclaim hopen hlast

section Steps
variable {a : Attempt} {w₀ w w' : World}

/-- A stored turn stays stored, up to the artifacts stamped on it. -/
theorem Commit.turn_kept (hc : Commit a w₀ w w') {id : SessionId} {row : TurnRow}
    (hrow : row ∈ w.turns id) : ∃ row' ∈ w'.turns id, row'.producer = row.producer ∧
      (row'.record.turnNumber = row.record.turnNumber ∧
        row'.record.resolutions = row.record.resolutions) ∧
      ∀ canonical, Describes canonical row.record → Describes canonical row'.record := by
  generalize hrows : w'.turns id = rows
  have heffect := hrows ▸ hc.turns_cases id
  cases heffect with
  | same => exact ⟨row, hrow, rfl, ⟨rfl, rfl⟩, fun _ h => h⟩
  | append => exact ⟨row, List.mem_append_left _ hrow, rfl, ⟨rfl, rfl⟩, fun _ h => h⟩
  | @stamp s n references =>
      refine ⟨stampTurn n references row, List.mem_map_of_mem hrow, stampTurn_producer _ _ _,
        ⟨?_, stampTurn_resolutions _ _ _⟩, fun _ h => h.stamp n references⟩
      unfold stampTurn
      split_ifs <;> rfl

/-- A request closes with its own turn. -/
theorem Closes.own {s : SessionRecord} {u : SessionUpdate} {canonical : CanonicalTurnResult}
    (h : Closes a w₀ w s u (.turn canonical)) (hresumes : ResumesOwnTurn w₀ a)
    (hid : s.sessionId = a.sessionId) :
    (∃ payload, a.request = .turn a.sessionId payload) ∧
      ∃ row ∈ w.turns a.sessionId, row.producer = .turn a.key ∧
        Describes canonical row.record := by
  cases h with
  | persist hrequest _ hmem howns hdescribes =>
      exact ⟨⟨_, hid ▸ hrequest⟩, _, hid ▸ hmem, howns, hdescribes⟩
  | completeTurn _ hrequest _ hmem howns hdescribes =>
      have hrequest' := hid ▸ hrequest
      exact ⟨⟨_, hrequest'⟩, _, hid ▸ hmem, howns.producer hresumes hrequest', hdescribes⟩

theorem Commit.claimsTellOwnTurn (hresumes : ResumesOwnTurn w₀ a) (h : ClaimsTellOwnTurn w)
    (hc : Commit a w₀ w w') : ClaimsTellOwnTurn w' := by
  intro id key claim canonical hclaim hcanonical
  have hkeep : (∃ row ∈ w.turns id, row.producer = .turn key ∧
      Describes canonical row.record) →
      ∃ row ∈ w'.turns id, row.producer = .turn key ∧ Describes canonical row.record := by
    rintro ⟨row, hrow, hproducer, hdescribes⟩
    obtain ⟨row', hrow', hproducer', -, hkept⟩ := hc.turn_kept hrow
    exact ⟨row', hrow', hproducer'.trans hproducer, hkept _ hdescribes⟩
  obtain ⟨hown, hother⟩ := hc.claims_cases
  by_cases hslot : TurnsFlow.slot id key = a.slot
  swap
  · exact hkeep (h id key claim canonical (hother _ hslot ▸ hclaim) hcanonical)
  have hold := h id key
  rw [hslot] at hclaim hold
  rw [hclaim] at hown
  refine hkeep ?_
  generalize hclaim' : some claim = claim' at hown
  cases hown with
  | same => exact hold claim canonical hclaim'.symm hcanonical
  | claim hnone =>
      rw [Option.some.inj hclaim'] at hcanonical
      cases hcanonical
  | release =>
      obtain ⟨hclaim', -⟩ := Option.filter_eq_some_iff.mp hclaim'.symm
      exact hold claim canonical hclaim' hcanonical
  | @close s u response hs hcloses =>
      obtain ⟨claim₀, -, rfl⟩ := Option.map_eq_some_iff.mp hclaim'.symm
      obtain rfl : response = .turn canonical := Option.some.inj hcanonical
      obtain ⟨⟨payload, hrequest⟩, hrow⟩ :=
        hcloses.own hresumes (World.sessionId_of_core hs)
      obtain ⟨rfl, rfl⟩ : a.sessionId = id ∧ a.key = key := by
        rw [← Attempt.turnSlot hrequest] at hslot
        simp only [TurnsFlow.slot, ClaimSlot.mk.injEq, Option.some.injEq, true_and] at hslot
        exact ⟨hslot.1.symm, hslot.2.symm⟩
      exact hrow
  | created =>
      obtain ⟨claim₀, -, rfl⟩ := Option.map_eq_some_iff.mp hclaim'.symm
      cases hcanonical

theorem Evolves.claimsTellOwnTurn (hresumes : ResumesOwnTurn w₀ a)
    (h : ClaimsTellOwnTurn w₀) (hw : Evolves a w₀ w₀ w) : ClaimsTellOwnTurn w := by
  induction hw with
  | refl => exact h
  | tail _ hc ih => exact hc.claimsTellOwnTurn hresumes ih

end Steps

theorem ReachableIf.claimsTellOwnTurn {w : World} (h : ReachableIf ResumesOwnTurn w) :
    ClaimsTellOwnTurn w := by
  induction h with
  | init => simp [ClaimsTellOwnTurn]
  | @step w a hw hresumes ih => exact Evolves.claimsTellOwnTurn hresumes ih (a.evolves hw.inv)

/-- In a run whose resumptions find their own turn last, every answered turn request
tells of a turn that its own key produced. -/
theorem answeredByOwnTurn {w : World} {a : Attempt} {payload : TurnRequest}
    {response : TurnResponse} (hw : ReachableIf ResumesOwnTurn w) (ha : ResumesOwnTurn w a)
    (hrequest : a.request = .turn a.sessionId payload)
    (hresponse : a.response w = some (.turn response)) :
    ∃ row ∈ (a.result w).turns a.sessionId, row.producer = .turn a.key ∧
      Tells response row.record := by
  cases a.answered hw.inv hresponse response rfl with
  | own hmem howns htells => exact ⟨_, hmem, howns.producer ha hrequest, htells⟩
  | @replay canonical turn hrecorded hquiet =>
      obtain ⟨hclaim, hturn, hnumber, hanswer⟩ := hrecorded
      rw [← Attempt.turnSlot hrequest] at hclaim
      obtain ⟨row, hrow, hproducer, hdescribes⟩ :=
        hw.claimsTellOwnTurn _ _ _ canonical hclaim rfl
      -- the turn the replay reads back is the row: same session, same number
      have hvalid := hw.inv.turns a.sessionId row.record (List.mem_map_of_mem hrow)
      obtain ⟨row', hrow', rfl⟩ := List.mem_map.mp hturn
      obtain ⟨state, reference, reports, rfl⟩ := id hdescribes
      rw [show (TurnsFlow.turnResult _ _ _ _ _ _).sessionId = a.sessionId from hvalid.2]
        at hrow'
      obtain rfl := hw.inv.turn_unique hrow' hrow hnumber
      exact ⟨row', hquiet.turns ▸ hrow, hproducer, hdescribes.tells rfl hanswer⟩

namespace Scenario

/-- On an active session there is nothing to resume. -/
theorem resumesOwnTurn_of_active {w : World} {a : Attempt}
    (h : (w.core a.sessionId).all (fun s => decide (s.state = .active)) = true) :
    ResumesOwnTurn w a := by
  intro payload s claim row hrequest hs hstate
  rw [hs, Option.all_some, decide_eq_true_eq] at h
  rw [h] at hstate
  cases hstate

theorem answeredByOwnTurn_accepted : ∃ response,
    (accept 2 none).response (World.after {} [create]) = some (.turn response) ∧
      ∃ row ∈ (World.after {} [create, accept 2 none]).turns ⟨1⟩,
        row.producer = .turn 2 ∧ Tells response row.record := by
  have hanswers : answersTurn ((accept 2 none).response (World.after {} [create])) = true := by
    decide +kernel
  obtain ⟨response, hresponse⟩ := exists_turn hanswers
  exact ⟨response, hresponse, answeredByOwnTurn
    (.step create .init (resumesOwnTurn_of_active (by decide +kernel)))
    (resumesOwnTurn_of_active (by decide +kernel)) rfl hresponse⟩

/-- A message is cut off with its claim open, and another key's acceptance right after
it has marked the session finalizing. -/
def acceptedMeanwhile : World := World.after {} [create, ask 2 (some 5), accept 3 (some 12)]

/-- The retried message is answered with the acceptance of the other key. -/
theorem acceptedMeanwhile_other : Reachable acceptedMeanwhile ∧ ∃ response,
    (ask 2 none).response acceptedMeanwhile = some (.turn response) ∧
      ¬ ∃ row ∈ ((ask 2 none).result acceptedMeanwhile).turns ⟨1⟩,
        row.producer = .turn 2 ∧ Tells response row.record := by
  have hanswers : answersTurn ((ask 2 none).response acceptedMeanwhile) = true := by
    decide +kernel
  obtain ⟨response, hresponse⟩ := exists_turn hanswers
  refine ⟨reachable_after _, response, hresponse, ?_⟩
  rintro ⟨row, hrow, hproducer, -⟩
  have hnone : ∀ row ∈ ((ask 2 none).result acceptedMeanwhile).turns ⟨1⟩,
      row.producer ≠ .turn 2 := by decide +kernel
  exact hnone row hrow hproducer

end Scenario
end StoryReview
