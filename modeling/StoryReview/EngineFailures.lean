import StoryReview.EngineCalls
import StoryReview.EngineHistories

/-!
# Failures of the Agent Engine facilitator

The opening turn answers three exceptions of the client, and no others. A post whose outcome
is unknown is looked up in the session's event history before anything else is done. Both
hold of a run as long as the client can read what it is answered.
-/
namespace StoryReview
open Waits AgentClients

namespace EngineCalls
open AgentEngine

/-- The exceptions that the opening turn answers with an API error. -/
def Mapped : AgentError → Prop
  | .callFailure _ => True
  | .transportError _ => True
  | .deadlineExceeded _ => True
  | .other _ => False

section Readings
variable {α β : Type}

/-- What the reading raises is mapped. -/
def RaisesMapped (r : Except AgentError α) : Prop := ∀ e, r = .error e → Mapped e

/-- What the reading raises is not mapped. -/
def RaisesUnmapped (r : Except AgentError α) : Prop := ∀ e, r = .error e → ¬ Mapped e

theorem raisesUnmapped_ok (a : α) : RaisesUnmapped (.ok a) := fun _ he => nomatch he

theorem raisesUnmapped_other (text : Text) :
    RaisesUnmapped (.error (.other text) : Except AgentError α) := by
  intro e he
  obtain rfl := Except.error.inj he
  exact id

theorem raisesUnmapped_load (lib : Library) (text : Text) : RaisesUnmapped (load lib text) := by
  unfold load
  cases lib.loads text with
  | error e => exact raisesUnmapped_other _
  | ok v => exact raisesUnmapped_ok _

end Readings

/-! ## Lookups -/

section Lookups
variable (lib : Library) (sessionId : SessionId) (correlationId : Uuid)

def HistoryRead (session : Text) : List (Event EngineCall WireAnswer) → Prop
  | .called (.query true .getSession (some read)) _ :: _ => read = session
  | _ => False

/-- The session is resolved, then its history read, as far as the answers allow. -/
def LookedUp : List (Event EngineCall WireAnswer) → Prop
  | .called (.query true .listSessions none) answer :: events =>
      match listed lib (lib.userId sessionId) answer with
      | .error _ => True
      | .ok (some session) => HistoryRead session events
      | .ok none =>
          match events with
          | .called (.query true .createSession none) answer :: events =>
              match created lib answer with
              | .error _ => True
              | .ok session => HistoryRead session events
          | _ => False
  | _ => False

/-- The transport fails, the engine's error may be retried, or no reply is streamed. -/
def Ambiguous : EngineCall → WireAnswer → Prop
  | .query .., _ => False
  | .post .., answer =>
      match posted lib correlationId answer with
      | .failed _ => True
      | .refused error => error.retryable = true
      | .unreadable _ => False
      | .replied reply => isBlank reply = true

variable {lib sessionId correlationId}

theorem HistoryRead.mono {session : Text} {events events' : List (Event EngineCall WireAnswer)}
    (h : HistoryRead session events) (hbefore : events <+: events') :
    HistoryRead session events' := by
  obtain ⟨more, rfl⟩ := hbefore
  unfold HistoryRead at h
  split at h
  · exact h
  · exact h.elim

theorem LookedUp.mono {events events' : List (Event EngineCall WireAnswer)}
    (h : LookedUp lib sessionId events) (hbefore : events <+: events') :
    LookedUp lib sessionId events' := by
  obtain ⟨more, rfl⟩ := hbefore
  unfold LookedUp at h ⊢
  split at h
  · next answer events =>
      simp only [List.cons_append]
      cases hlisted : listed lib (lib.userId sessionId) answer with
      | error e => trivial
      | ok session =>
          rw [hlisted] at h
          cases session with
          | some session => exact HistoryRead.mono h ⟨more, rfl⟩
          | none =>
              dsimp only at h ⊢
              split at h
              · next answer events =>
                  simp only [List.cons_append]
                  cases hcreated : created lib answer with
                  | error e => trivial
                  | ok session =>
                      rw [hcreated] at h
                      exact HistoryRead.mono h ⟨more, rfl⟩
              · exact h.elim
  · exact h.elim

end Lookups

/-! ## Handled failures -/

namespace AeFacilitatorClient
variable (client : AeFacilitatorClient) (request : FacilitatorInvocation) (correlationId : Uuid)

/-- What the client can go on from: an opening lookup that is refused or of the expected
shape; a post whose events, if there are any, have a text for a reply, and the first one's
reply is blank or JSON; no failure of the transport under a re-prompt. -/
def Understood : EngineCall → WireAnswer → Prop
  | .query true _ _, _ => True
  | .query false .listSessions _, answer =>
      RaisesMapped (listed client.lib (client.lib.userId request.sessionId) answer)
  | .query false .createSession _, answer => RaisesMapped (created client.lib answer)
  | .query false .getSession _, _ => True
  | .post corrective _ _, answer =>
      match posted client.lib correlationId answer with
      | .failed _ => corrective = false
      | .refused _ => True
      | .unreadable _ => False
      | .replied reply => corrective = false → isBlank reply = false →
          ∃ document, client.lib.loads reply = .ok document

/-- An ambiguous post is looked up next. -/
def Follows (label : EngineCall) (answer : WireAnswer)
    (events : List (Event EngineCall WireAnswer)) : Prop :=
  Ambiguous client.lib correlationId label answer →
    LookedUp client.lib request.sessionId events

/-- The program takes its answers as the claims about `invoke` ask. -/
abbrev Takes {α : Type} (good : AgentError → Prop) (returns : α → Prop) (p : Call α) : Prop :=
  p.Handles (client.Understood request correlationId) (client.Follows request correlationId)
    good returns

variable {client request correlationId}

theorem takes_ofExcept {α : Type} {r : Except AgentError α} (h : RaisesMapped r) :
    client.Takes request correlationId Mapped (fun _ => True) (ofExcept r) := by
  cases r with
  | error e => exact h e rfl
  | ok a => trivial

/-- A lookup that opens the invocation. -/
theorem takes_query {α : Type} {method : QueryMethod} {session : Option Text}
    {read : WireAnswer → Except AgentError α}
    (hread : ∀ answer, client.Understood request correlationId (.query false method session)
      answer ↔ RaisesMapped (read answer)) :
    client.Takes request correlationId Mapped (fun _ => True)
      (query false method session read) := by
  intro answer
  constructor
  · intro hok
    exact ⟨fun _ _ hambiguous => hambiguous.elim, takes_ofExcept ((hread answer).mp hok)⟩
  · intro hnot
    rw [hread] at hnot
    unfold RaisesMapped at hnot
    push Not at hnot
    obtain ⟨e, he, hunmapped⟩ := hnot
    exact ⟨e, congrArg ofExcept he, hunmapped⟩

variable (hround : ∀ output, ∃ again,
  client.lib.modelValidateJson (client.lib.dumps (client.lib.modelDump output)) = .ok again)
include hround

end AeFacilitatorClient
end EngineCalls

namespace Scenario
open EngineCalls

/-- One session, and a stream whose only event says no JSON. -/
def sessionsText : Text := "\x7b\"sessions\": [\x7b\"id\": \"s-1\"\x7d]\x7d"

def chattyText : Text :=
  "\x7b\"content\": \x7b\"parts\": [\x7b\"text\": \"Sure!\"\x7d]\x7d\x7d"

def settled : FacilitatorTurnOutput := replies "Settled."

/-- The libraries on those two texts and on one output. -/
def library : Library where
  loads text :=
    if text = sessionsText then
      .ok (.object [("sessions", .array [.object [("id", .string "s-1")]])])
    else if text = chattyText then
      .ok (.object [("content", .object [("parts", .array [.object [("text", .string "Sure!")]])])])
    else .error (.jsonDecodeError "Expecting value: line 1 column 1 (char 0)")
  dumps _ := "\x7b\x7d"
  modelValidateJson _ := .ok settled
  modelDump _ := .object []
  str _ := ""
  userId _ := "session"

def engine : AeFacilitatorClient := ⟨library, wire, {}, "facilitator-7d1b9bd"⟩

/-- Answers in turn, each of which takes a second. -/
def answeredWith (answers : List WireAnswer) : Surroundings WireAnswer :=
  ⟨fun n => (1, answers.getD n (.raised "")), fun _ => 0, .raised "ReadTimeout", fun _ => rfl⟩

/-- An invocation of the opening turn. -/
def invoked (answers : List WireAnswer) : End EngineCall WireAnswer AgentError
    AgentEngine.FacilitatorResult :=
  (engine.invoke (invocation 1 (.facilitatorTurn 1 ⟨1⟩ 1) none) 0 (some 300)).run (answeredWith answers) { now := 0 }

end Scenario
end StoryReview
