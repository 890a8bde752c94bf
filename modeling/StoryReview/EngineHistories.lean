import StoryReview.AgentEngine
import StoryReview.Scenarios

/-!
# Event histories of the engine

What the scan for a recorded reply finds, and what the session looks like after a
message that the engine answers while the client waits.
-/
namespace StoryReview.AgentEngine
open Program

/-! ## The scan -/

/-- What the loop knows of the events it has passed. -/
inductive Scanned (turnNumber : ℕ) : List Event → Scan → Prop
  | missing {events : List Event}
      (h : ∀ e ∈ events, e.author = .user → isOwn turnNumber e = false) :
      Scanned turnNumber events ⟨none, false⟩
  | found {before after : List Event} {own : Event} {laterUser : Bool}
      (huser : own.author = .user) (hown : isOwn turnNumber own = true)
      (hafter : laterUser = false → ∀ e ∈ after, e.author ≠ .user) :
      Scanned turnNumber (before ++ own :: after) ⟨some before.length, laterUser⟩

theorem Scanned.next {turnNumber : ℕ} {events : List Event} {scan : Scan}
    (h : Scanned turnNumber events scan) (event : Event) :
    Scanned turnNumber (events ++ [event]) (scan.next turnNumber (event, events.length)) := by
  unfold Scan.next
  dsimp only
  split_ifs with hmodel hown hsome
  · cases h with
    | missing h =>
        refine .missing fun e he huser => ?_
        rcases List.mem_append.mp he with he | he
        · exact h e he huser
        · rw [List.mem_singleton.mp he] at huser
          exact absurd huser hmodel
    | found huser hown hafter =>
        rw [List.append_assoc, List.cons_append]
        refine .found huser hown fun hfalse e he => ?_
        rcases List.mem_append.mp he with he | he
        · exact hafter hfalse e he
        · rw [List.mem_singleton.mp he]
          exact hmodel
  · have hfound : Scanned turnNumber (events ++ event :: []) ⟨some events.length, false⟩ :=
      .found (not_not.mp hmodel) hown fun _ _ h => nomatch h
    exact hfound
  · cases h with
    | missing h => cases hsome
    | found huser hown' hafter =>
        rw [List.append_assoc, List.cons_append]
        exact .found huser hown' nofun
  · cases h with
    | missing h =>
        refine .missing fun e he huser => ?_
        rcases List.mem_append.mp he with he | he
        · exact h e he huser
        · rw [List.mem_singleton.mp he]
          exact Bool.not_eq_true _ ▸ hown
    | found => exact absurd rfl hsome

theorem scanned (turnNumber : ℕ) (events : List Event) :
    Scanned turnNumber events (events.zipIdx.foldl (Scan.next turnNumber) {}) := by
  induction events using List.reverseRecOn with
  | nil => exact .missing fun _ h => nomatch h
  | append_singleton events event ih =>
      rw [List.zipIdx_append, List.foldl_append]
      have hnext := ih.next event
      simpa using hnext

theorem foldl_next_of_model {turnNumber : ℕ} {entries : List (Event × ℕ)}
    (h : ∀ entry ∈ entries, entry.1.author ≠ .user) (scan : Scan) :
    entries.foldl (Scan.next turnNumber) scan = scan := by
  induction entries with
  | nil => rfl
  | cons entry entries ih =>
      have hkeep : scan.next turnNumber entry = scan := if_pos (h entry List.mem_cons_self)
      rw [List.foldl_cons, hkeep]
      exact ih fun e he => h e (List.mem_cons_of_mem _ he)

theorem scan_eq {turnNumber : ℕ} {before after : List Event} {own : Event}
    (huser : own.author = .user) (hown : isOwn turnNumber own = true)
    (hafter : ∀ e ∈ after, e.author ≠ .user) :
    (before ++ own :: after).zipIdx.foldl (Scan.next turnNumber) {} =
      ⟨some before.length, false⟩ := by
  rw [List.zipIdx_append, List.foldl_append, List.zipIdx_cons, List.foldl_cons]
  generalize List.foldl (Scan.next turnNumber) {} before.zipIdx = scan
  have hnext : scan.next turnNumber (own, 0 + before.length) = ⟨some before.length, false⟩ := by
    rw [Scan.next, if_neg (not_not.mpr huser), if_pos hown, Nat.zero_add]
  rw [hnext]
  refine foldl_next_of_model (fun entry hentry => ?_) _
  exact hafter _ (List.fst_mem_of_mem_zipIdx hentry)

/-- A recovered reply is the last model text after a message that carries the marker and
that no other message follows. -/
theorem recoveredTurnReply_eq_some {events : List Event} {turnNumber : ℕ} {reply : Text} :
    recoveredTurnReply events turnNumber = some reply ↔
      ∃ before own after, events = before ++ own :: after ∧ own.author = .user ∧
        isOwn turnNumber own = true ∧ (∀ e ∈ after, e.author ≠ .user) ∧
        finalModelReply after = reply ∧ reply ≠ "" := by
  have hdrop : ∀ (before after : List Event) (own : Event),
      (before ++ own :: after).drop (before.length + 1) = after := by
    intro before after own
    rw [List.drop_append]
    simp
  constructor
  · intro h
    have hscanned := scanned turnNumber events
    unfold recoveredTurnReply at h
    generalize events.zipIdx.foldl (Scan.next turnNumber) {} = scan at h hscanned
    cases hscanned with
    | missing => cases h
    | @found before after own laterUser huser hown hafter =>
        cases laterUser with
        | true => cases h
        | false =>
            simp only [Bool.false_eq_true, if_false, hdrop] at h
            split_ifs at h with hblank
            cases h
            exact ⟨before, own, after, rfl, huser, hown, hafter rfl, rfl, hblank⟩
  · rintro ⟨before, own, after, rfl, huser, hown, hafter, rfl, hblank⟩
    unfold recoveredTurnReply
    simp only [scan_eq huser hown hafter, Bool.false_eq_true, if_false, hdrop, if_neg hblank]

namespace Session

theorem deliver_eq {s : Session} {id : ℕ} {exchange : Exchange} (h : s.find id = some exchange)
    (hnew : exchange.delivered = false) :
    s.deliver id = (s.record ⟨⟨.user, [exchange.text]⟩, exchange.invocation, id, s.answering⟩
      (lt_of_find h)).markDelivered id := by
  unfold deliver
  split
  · next hnone => rw [h] at hnone; cases hnone
  · next found hfound =>
      rw [h] at hfound
      cases hfound
      rw [if_neg (by simp [hnew])]

theorem reply_eq {s : Session} {id : ℕ} {exchange : Exchange} (h : s.find id = some exchange)
    (hold : exchange.delivered = true) (parts : List Text) :
    s.reply id parts =
      s.record ⟨⟨.model, parts⟩, exchange.invocation, id, s.answering⟩ (lt_of_find h) := by
  unfold reply
  split
  · next hnone => rw [h] at hnone; cases hnone
  · next found hfound =>
      rw [h] at hfound
      cases hfound
      rw [if_pos hold]

/-- The engine records the replies to a delivered message. -/
structure Replied (id : ℕ) (invocation : InvocationId) (stream : List (List Text))
    (s s' : Session) : Prop where
  events : s'.events = s.events ++
    stream.map fun parts => ⟨⟨.model, parts⟩, invocation, id, s.answering⟩
  pending : s'.pending = s.pending
  posts : s'.posts = s.posts
  reads : s'.reads = s.reads

theorem replied {id : ℕ} {exchange : Exchange} (stream : List (List Text)) {s : Session}
    (h : s.find id = some exchange) (hold : exchange.delivered = true) :
    Replied id exchange.invocation stream s
      ((stream.map (Progress.reply id)).foldl advance s) := by
  induction stream generalizing s with
  | nil => exact ⟨by simp, rfl, rfl, rfl⟩
  | cons parts stream ih =>
      rw [List.map_cons, List.foldl_cons, advance, reply_eq h hold]
      have hrest := ih (s := s.record
        ⟨⟨.model, parts⟩, exchange.invocation, id, s.answering⟩ (lt_of_find h)) h
      exact ⟨by rw [hrest.events]; simp [record, answering], hrest.pending, hrest.posts,
        hrest.reads⟩

/-- Nothing from `base` on is pending. -/
def Resting (base : ℕ) (s : Session) : Prop := ∀ e ∈ s.pending, e.id < base

/-- The session after a message that was answered while the client waited. -/
structure Served (base : ℕ) (text : Text) (stream : List (List Text)) (s s' : Session) :
    Prop where
  events : s'.events.map Recorded.event = s.events.map Recorded.event ++
    ⟨.user, [text]⟩ :: stream.map (Event.mk .model)
  posts : s'.posts.length = s.posts.length + 1
  resting : Resting base s'

end Session

section Serving
variable {streams : ℕ → List (List Text)} {base : ℕ} {s : Session}

end Serving
end StoryReview.AgentEngine

namespace StoryReview.Scenario
open AgentEngine

/-- One text is a JSON document, which the schema takes as `verdict` says. -/
def singleParser {α : Type} (text : Text) (verdict : Except ValidationError α) :
    ReplyParser α where
  Json := Unit
  loads t := if t = text then .value () else
    .notJson "Expecting value: line 1 column 1 (char 0)"
  dumps _ := text
  modelValidate _ := verdict
  modelValidateJson t := if t = text then verdict else
    .error ⟨[("", "Invalid JSON: expected value at line 1 column 1")], "1 validation error"⟩
  modelDump _ := ()

/-- The JSON texts of an engine for which they do not matter. -/
def wire : Wire :=
  ⟨fun _ => "\x7b\x7d", fun _ => "\x7b\x7d", fun _ => "\x7b\x7d", fun _ => "\x7b\x7d",
    fun _ => "run-0b7c1f4e-5a3d-5c1e-9f0a-2d6b8e4c7a11",
    fun _ => "art-6f1d2c3b-4a59-4e68-8d77-9c0b1a2f3e4d"⟩

def client (text : Text) (output : FacilitatorTurnOutput) : FacilitatorClient where
  wire := wire
  parser := singleParser text (.ok output)
  version := "facilitator-7d1b9bd"

/-- A facilitator invocation of the session ⟨1⟩, with one finding. -/
def invocation (turnNumber : ℕ) (id : InvocationId) (message : Option Text) :
    FacilitatorInvocation where
  sessionId := ⟨1⟩
  turnNumber := turnNumber
  invocationId := id
  poMessage := message
  synthesisReport := oneGap
  synthesisReference :=
    { reviewReference .business with type := .synthesis, perspective := none }

end StoryReview.Scenario
