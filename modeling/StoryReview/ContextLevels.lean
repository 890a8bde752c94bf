import StoryReview.Compaction
import Mathlib.Algebra.Order.Field.Rat
import Mathlib.Algebra.Order.Field.Basic

/-!
# The context level and the request it measures

After each model call the telemetry records how much of the context limit the request took,
and the next call compacts at the level on record. The request that is measured may itself be
a compacted one, while the next history is full again. Fractions are exact here.
-/
namespace StoryReview.Compaction

/-! ## Telemetry -/

def warnFraction : ℚ := 1 / 2

def summarizeFraction : ℚ := 3 / 4

def contextLevel (promptTokens limit : ℕ) : ContextLevel × ℚ :=
  let fraction : ℚ := promptTokens / limit
  if summarizeFraction ≤ fraction then (.summarize, fraction)
  else if warnFraction ≤ fraction then (.warn, fraction)
  else (.ok, fraction)

structure ModelResponse where
  isPartial : Bool := false
  promptTokenCount : Option ℕ
deriving DecidableEq, Repr

def afterModel (contextTokenLimit : Option ℕ) (response : ModelResponse)
    (state : Option SessionState) : Option SessionState :=
  if response.isPartial then state
  else
    match response.promptTokenCount, contextTokenLimit with
    | some promptTokens, some limit =>
        if limit = 0 then state
        else state.map fun state =>
          { state with contextLevel := some (contextLevel promptTokens limit).1 }
    | _, _ => state

/-- The contents take at least 75% of the limit. -/
def Reached (tokens : List Content → ℕ) (limit : ℕ) (contents : List Content) : Prop :=
  summarizeFraction * limit ≤ tokens contents

instance (tokens : List Content → ℕ) (limit : ℕ) (contents : List Content) :
    Decidable (Reached tokens limit contents) := inferInstanceAs (Decidable (_ ≤ _))

theorem contextLevel_eq_summarize {promptTokens limit : ℕ} (hlimit : 0 < limit) :
    (contextLevel promptTokens limit).1 = .summarize ↔ summarizeFraction * limit ≤ promptTokens := by
  have hpos : (0 : ℚ) < limit := Nat.cast_pos.mpr hlimit
  rw [← le_div_iff₀ hpos]
  unfold contextLevel
  dsimp only
  split_ifs with hsummarize hwarn
  · exact ⟨fun _ => hsummarize, fun _ => rfl⟩
  · exact ⟨nofun, fun h => absurd h hsummarize⟩
  · exact ⟨nofun, fun h => absurd h hsummarize⟩

/-! ## A conversation -/

/-- What the history grows by before a call, and a summarizer that always succeeds. -/
structure Exchange where
  appended : List Content
  summarizer : Text → ConversationSummary

/-- The call as the callbacks see it: at the level on record. -/
def Exchange.call (exchange : Exchange) (session : Session) : Call :=
  ⟨exchange.appended, session.state.contextLevel,
    fun text => some (.model (exchange.summarizer text))⟩

structure Sent where
  history : List Content
  replaced : Option (List Content)

def Sent.request (sent : Sent) : List Content := sent.replaced.getD sent.history

def Sent.Compacted (keep : ℤ) (sent : Sent) : Prop :=
  ∃ summary, sent.replaced = some (compacted keep summary sent.history)

section
variable (keep : ℤ) (tokens : List Content → ℕ) (limit : ℕ)

def Session.sends (session : Session) (exchange : Exchange) : Sent :=
  let grown := session.grown (exchange.call session)
  ⟨grown.history, (grown.outcome keep (exchange.call session)).replaced⟩

/-- `before_model`, the call, and `after_model` with the size of the request that was sent. -/
def Session.exchanged (session : Session) (exchange : Exchange) : Session :=
  let called := session.called keep (exchange.call session)
  let response := { promptTokenCount := some (tokens (session.sends keep exchange).request) }
  { called with state := (afterModel (some limit) response (some called.state)).getD called.state }

def Session.sent : Session → List Exchange → List Sent
  | _, [] => []
  | session, exchange :: rest =>
      session.sends keep exchange :: (session.exchanged keep tokens limit exchange).sent rest

/-- Once a request has reached 75% of the limit, every later one is compacted as long as the
full history reaches it. -/
def StaysOn (sent : List Sent) : Prop :=
  ∀ (i j : ℕ) (first last : Sent), i < j → sent[i]? = some first → sent[j]? = some last →
    Reached tokens limit first.request →
    (∀ (k : ℕ) (between : Sent), i < k → k ≤ j → sent[k]? = some between →
      Reached tokens limit between.history) →
    last.Compacted keep

/-- The summary that a compaction would apply: the checkpoint's, or a new one. -/
def Session.inForce (session : Session) (exchange : Exchange) : ConversationSummary :=
  let contents := session.history ++ exchange.appended
  (covering keep session.state contents).getD (exchange.summarizer (texts contents))

/-- At the level `summarize`, the summary in force and the kept window still reach 75% of the
limit; in every exchange but the last. -/
def StaysLong : Session → List Exchange → Prop
  | session, exchange :: next :: rest =>
      (session.state.contextLevel = some .summarize →
        Reached tokens limit (compacted keep (session.inForce keep exchange)
          (session.history ++ exchange.appended))) ∧
      StaysLong (session.exchanged keep tokens limit exchange) (next :: rest)
  | _, _ => True

end

/-! ## What one exchange does -/

section
variable {keep : ℤ} {tokens : List Content → ℕ} {limit : ℕ}

theorem beforeModel_of_summarize {state : SessionState} (contents : List Content)
    (summarizer : Text → ConversationSummary) (h : state.contextLevel = some .summarize) :
    (beforeModel keep (fun text => some (.model (summarizer text))) (some state)
      contents).replaced =
      some (compacted keep ((covering keep state contents).getD (summarizer (texts contents)))
        contents) := by
  rcases beforeModel_cases keep (fun text => some (.model (summarizer text))) state contents with
    ⟨hlevel, -⟩ | ⟨-, summary, hcovering, hout⟩ | ⟨-, -, hfailed, -⟩ |
      ⟨-, hcovering, value, summary, hvalue, hvalid, hout⟩
  · exact absurd h hlevel
  · rw [hout, hcovering, Option.getD_some]
  · cases hfailed
  · obtain rfl := Option.some.inj hvalue
    obtain rfl := Option.some.inj hvalid
    rw [hout, hcovering, Option.getD_none]

theorem beforeModel_of_not_summarize {state : SessionState} (contents : List Content)
    (summarizer : Text → Option SummaryValue) (h : state.contextLevel ≠ some .summarize) :
    (beforeModel keep summarizer (some state) contents).replaced = none := by
  unfold beforeModel
  simp only [if_pos h]

theorem sends_of_summarize {session : Session} (exchange : Exchange)
    (h : session.state.contextLevel = some .summarize) :
    (session.sends keep exchange).replaced =
      some (compacted keep (session.inForce keep exchange)
        (session.history ++ exchange.appended)) :=
  beforeModel_of_summarize _ _ h

/-- A request is compacted exactly at the level `summarize`. -/
theorem sends_compacted_iff (session : Session) (exchange : Exchange) :
    (session.sends keep exchange).Compacted keep ↔
      session.state.contextLevel = some .summarize := by
  constructor
  · rintro ⟨summary, hreplaced⟩
    by_contra h
    cases hreplaced.symm.trans (beforeModel_of_not_summarize _ _ h)
  · exact fun h => ⟨_, sends_of_summarize exchange h⟩

/-- The level that an exchange leaves is that of the request it sent. -/
theorem exchanged_level_iff (hlimit : 0 < limit) (session : Session) (exchange : Exchange) :
    (session.exchanged keep tokens limit exchange).state.contextLevel = some .summarize ↔
      Reached tokens limit (session.sends keep exchange).request := by
  unfold Session.exchanged afterModel
  simp only [Bool.false_eq_true, if_false, if_neg hlimit.ne', Option.map_some, Option.getD_some,
    Option.some.injEq]
  exact contextLevel_eq_summarize hlimit

@[simp] theorem exchanged_history (session : Session) (exchange : Exchange) :
    (session.exchanged keep tokens limit exchange).history =
      session.history ++ exchange.appended := rfl

/-! ## Whole conversations -/

/-- The later requests are compacted exactly if each compacted request but the last reaches
75% again. The level before a conversation stands for one more request before it. -/
theorem pairwise_compacted_iff (hlimit : 0 < limit) (exchanges : List Exchange)
    (session : Session) :
    ((session.state.contextLevel = some .summarize →
        ∀ sent ∈ session.sent keep tokens limit exchanges, sent.Compacted keep) ∧
      (session.sent keep tokens limit exchanges).Pairwise
        (fun first last => Reached tokens limit first.request → last.Compacted keep)) ↔
      StaysLong keep tokens limit session exchanges := by
  induction exchanges generalizing session with
  | nil => simp [Session.sent, StaysLong]
  | cons exchange rest ih =>
      have hcompacted : (session.sends keep exchange).Compacted keep ↔
          session.state.contextLevel = some .summarize := sends_compacted_iff session exchange
      cases rest with
      | nil => simp [Session.sent, StaysLong, hcompacted]
      | cons next rest =>
          have hlevel : (session.exchanged keep tokens limit exchange).state.contextLevel =
              some .summarize ↔ Reached tokens limit (session.sends keep exchange).request :=
            exchanged_level_iff hlimit session exchange
          have hnext : ((session.exchanged keep tokens limit exchange).sends keep
              next).Compacted keep ↔ Reached tokens limit (session.sends keep exchange).request :=
            (sends_compacted_iff _ next).trans hlevel
          have hrest := ih (session.exchanged keep tokens limit exchange)
          rw [hlevel] at hrest
          have hrequest : session.state.contextLevel = some .summarize →
              (session.sends keep exchange).request =
                compacted keep (session.inForce keep exchange)
                  (session.history ++ exchange.appended) := fun h => by
            rw [Sent.request, sends_of_summarize exchange h, Option.getD_some]
          rw [StaysLong, ← hrest, Session.sent, List.pairwise_cons]
          constructor
          · rintro ⟨hall, hfirst, htail⟩
            refine ⟨fun h => ?_, fun h last hlast => hfirst last hlast h, htail⟩
            rw [← hrequest h]
            exact hnext.mp (hall h _ (List.mem_cons_of_mem _ List.mem_cons_self))
          · rintro ⟨hlong, hfirst, htail⟩
            refine ⟨fun h sent hsent => ?_, fun last hlast h => hfirst h last hlast, htail⟩
            rcases List.mem_cons.mp hsent with rfl | hsent
            · exact hcompacted.mpr h
            · exact hfirst (by rw [hrequest h]; exact hlong h) sent hsent

/-- The full history has reached 75% of the limit once the level says so. -/
def Session.Long (tokens : List Content → ℕ) (limit : ℕ) (session : Session) : Prop :=
  session.state.contextLevel = some .summarize → Reached tokens limit session.history

section
variable (hmono : ∀ contents more, tokens contents ≤ tokens (contents ++ more))
include hmono

theorem Reached.append {contents : List Content} (h : Reached tokens limit contents)
    (more : List Content) : Reached tokens limit (contents ++ more) :=
  h.trans (Nat.cast_le.mpr (hmono contents more))

theorem Session.Long.exchanged (hlimit : 0 < limit) {session : Session}
    (h : session.Long tokens limit) (exchange : Exchange) :
    (session.exchanged keep tokens limit exchange).Long tokens limit := by
  intro hlevel
  rw [exchanged_level_iff hlimit] at hlevel
  by_cases hsummarize : session.state.contextLevel = some .summarize
  · exact (h hsummarize).append hmono _
  · rw [Sent.request, show (session.sends keep exchange).replaced = none from
      beforeModel_of_not_summarize _ _ hsummarize] at hlevel
    exact hlevel

theorem sent_reached (exchanges : List Exchange) {session : Session}
    (h : Reached tokens limit session.history) :
    ∀ sent ∈ session.sent keep tokens limit exchanges, Reached tokens limit sent.history := by
  induction exchanges generalizing session with
  | nil => nofun
  | cons exchange rest ih =>
      have happend : Reached tokens limit
          (session.exchanged keep tokens limit exchange).history :=
        h.append hmono exchange.appended
      intro sent hsent
      rcases List.mem_cons.mp hsent with rfl | hsent
      · exact happend
      · exact ih happend sent hsent

theorem pairwise_reached (hlimit : 0 < limit) (exchanges : List Exchange) {session : Session}
    (h : session.Long tokens limit) :
    (session.sent keep tokens limit exchanges).Pairwise
      (fun first last => Reached tokens limit first.request →
        Reached tokens limit last.history) := by
  induction exchanges generalizing session with
  | nil => exact .nil
  | cons exchange rest ih =>
      have hlong : (session.exchanged keep tokens limit exchange).Long tokens limit :=
        h.exchanged hmono hlimit exchange
      refine .cons (fun last hlast hfirst => ?_) (ih hlong)
      exact sent_reached hmono rest (hlong ((exchanged_level_iff hlimit _ _).mpr hfirst)) last hlast

end

/-- Where the full histories do reach, staying on is a matter of pairs of requests. -/
theorem staysOn_iff_pairwise {sent : List Sent}
    (h : sent.Pairwise fun first last => Reached tokens limit first.request →
      Reached tokens limit last.history) :
    StaysOn keep tokens limit sent ↔
      sent.Pairwise fun first last => Reached tokens limit first.request → last.Compacted keep := by
  rw [List.pairwise_iff_getElem] at h ⊢
  constructor
  · intro hon i j hi hj hij hfirst
    refine hon i j _ _ hij (List.getElem?_eq_getElem hi) (List.getElem?_eq_getElem hj) hfirst
      fun k between hik hkj hbetween => ?_
    obtain ⟨hk, rfl⟩ := List.getElem?_eq_some_iff.mp hbetween
    exact h i k hi hk hik hfirst
  · intro hpairs i j first last hij hi hj hfirst _
    obtain ⟨hi', rfl⟩ := List.getElem?_eq_some_iff.mp hi
    obtain ⟨hj', rfl⟩ := List.getElem?_eq_some_iff.mp hj
    exact hpairs i j hi' hj' hij hfirst

/-- Compaction stays on exactly in the conversations whose compacted requests, all but the
last, still reach 75% of the limit. -/
theorem compaction_staysOn_iff (hlimit : 0 < limit)
    (hmono : ∀ contents more, tokens contents ≤ tokens (contents ++ more))
    (exchanges : List Exchange) :
    StaysOn keep tokens limit (Session.sent keep tokens limit {} exchanges) ↔
      StaysLong keep tokens limit {} exchanges := by
  have hfresh : ({} : Session).state.contextLevel ≠ some .summarize := by decide
  rw [staysOn_iff_pairwise (pairwise_reached hmono hlimit exchanges fun h => absurd h hfresh),
    ← pairwise_compacted_iff hlimit]
  exact (and_iff_right fun h => absurd h hfresh).symm

end

namespace Scenario

def summary : ConversationSummary :=
  ⟨["B-2"], ["E-4 resolved as wontfix"], "story-07", "run-0001", ["art-1"],
    ["confirm edit window with ops"], by decide⟩

/-- The history grows by so many turns. -/
def turns (n : ℕ) : Exchange :=
  ⟨List.replicate n ⟨"user", some [{ text := some "turn" }]⟩, fun _ => summary⟩

def tenEach (contents : List Content) : ℕ := 10 * contents.length

theorem tenEach_mono (contents more : List Content) :
    tenEach contents ≤ tenEach (contents ++ more) := by
  simp [tenEach]

/-- At a limit of 100, eight turns call for a summary, the compacted request is small, and the
next one carries all ten turns again. -/
theorem compaction_switchesOff :
    (∀ contents more, tenEach contents ≤ tenEach (contents ++ more)) ∧
      ¬ StaysOn keepRecentTurns tenEach 100
        (Session.sent keepRecentTurns tenEach 100 {} [turns 8, turns 1, turns 1]) := by
  refine ⟨tenEach_mono, fun h => ?_⟩
  have hfull : (Session.sent keepRecentTurns tenEach 100 {} [turns 8, turns 1, turns 1])[2]?.bind
      Sent.replaced = none := by decide +kernel
  obtain ⟨summary, hsummary⟩ := h 0 2 _ _ (by decide) rfl rfl (by decide +kernel)
    fun k between hk hk' hbetween => by
      obtain rfl | rfl : k = 1 ∨ k = 2 := by omega
      · obtain rfl := Option.some.inj hbetween
        decide +kernel
      · obtain rfl := Option.some.inj hbetween
        decide +kernel
  cases hfull.symm.trans hsummary

theorem staysOn_fifty :
    StaysOn keepRecentTurns tenEach 50
      (Session.sent keepRecentTurns tenEach 50 {} [turns 8, turns 1, turns 1]) :=
  (compaction_staysOn_iff (by decide) tenEach_mono _).mpr
    ⟨fun _ => by decide +kernel, fun _ => by decide +kernel, trivial⟩

end Scenario
end StoryReview.Compaction
