import StoryReview.LineageGuard
import StoryReview.Phases

/-!
# Least privilege

What arrives in a deployment are requests to the orchestration service, calls to the tool
servers and turns of the facilitator's model, in any order and at once. Only the service
writes: the others change nothing that it could see, and a turn sees its own story run.
-/
namespace StoryReview
open Program Ingress Flows

inductive Arrival where
  | request (a : Attempt)
  | call (c : ToolCall)
  | turn (d : Dialogue)

inductive Reply where
  | response (r : Response)
  | answer (r : ToolAnswer)
  | transcript (r : List ToolExchange)

/-- The request behind an arrival. -/
def Arrival.attempt : Arrival → Option Attempt
  | .request a => some a
  | _ => none

/-- What the service answered, where an answer is the service's. -/
def Arrival.served :
    Arrival × Except PyException Reply → Option (Attempt × Except PyException Response)
  | (.request a, .ok (.response r)) => some (a, .ok r)
  | (.request a, .error e) => some (a, .error e)
  | _ => none

/-- The call did not get to a handler. -/
def ToolAnswer.Refused : ToolAnswer → Prop
  | .respond _ _ => True
  | .result (.error e) => e.code = .unauthenticated ∨ e.code = .forbidden
  | .result (.ok _) => False

namespace Servers
variable (servers : Servers) (shown : Argument Text → Text)

/-- The callers that a server lets write. -/
def orchestration : Tool → List Text
  | .listStories | .getStory => servers.story.allowedCallers
  | .renderReport => servers.report.orchestrationCallers
  | _ => servers.artifact.roles.orchestration

/-- A call that would store something comes to a server with auth, and not from the
orchestration service. -/
def Foreign (call : ToolCall) : Prop :=
  call.tool.writes = true → (servers.settings call.tool).authDisabled = false ∧
    ∀ caller, (servers.settings call.tool).enter call.scope = .app (some caller) →
      caller ∉ servers.orchestration call.tool

/-- Requests and turns as they come, and such calls. -/
def Comes : Arrival → Prop
  | .call call => servers.Foreign call
  | _ => True

def program : Arrival → Orchestration Reply
  | .request a => a.program.bind fun r => .ret (.response r)
  | .call call => (servers.serve call).bind fun r => .ret (.answer r)
  | .turn d => (servers.dialogue shown d).bind fun r => .ret (.transcript r)

def deployment : System Arrival Unit World Choice PyException Reply where
  program := servers.program shown
  admits
    | .request a, c => a.Admits c
    | _, _ => True
  aux := fun _ => ()
  observe := fun _ _ _ _ => ()

/-! ## Refusals -/

section Refusals
variable {servers} {call : ToolCall}

theorem allowed_of_writes {tool : Tool} (hwrites : tool.writes = true)
    (hauth : (servers.settings tool).authDisabled = false) :
    ∃ allowed, servers.allowed tool = some allowed ∧
      ∀ caller, caller ∉ servers.orchestration tool → allowed caller = false := by
  cases tool with
  | saveArtifact =>
      change servers.artifact.settings.authDisabled = false at hauth
      refine ⟨_, if_neg (by simp [hauth]), ?_⟩
      intro caller hcaller
      change caller ∉ servers.artifact.roles.orchestration at hcaller
      simp [hcaller, Tool.writes]
  | renderReport =>
      change servers.report.settings.authDisabled = false at hauth
      refine ⟨_, if_neg (by simp [hauth]), ?_⟩
      intro caller hcaller
      change caller ∉ servers.report.orchestrationCallers at hcaller
      simp [hcaller]
  | listStories | getStory | getArtifact | listArtifacts => cases hwrites

theorem dispatch_of_unauthorized {ρ : Type} {principal : Option Text} {validated : Option ρ}
    {handler : ρ → Orchestration (Except ErrorBody ToolOutput)} {e : ErrorBody}
    (h : authorize servers.repr (servers.allowed call.tool) principal call.correlationId =
      .error e) :
    servers.dispatch call principal validated handler = .ret (.error e) := by
  unfold dispatch
  rw [h]
  rfl

theorem handle_of_unauthorized {principal : Option Text} {e : ErrorBody}
    (h : authorize servers.repr (servers.allowed call.tool) principal call.correlationId =
      .error e) :
    servers.handle call principal = .ret (.error e) := by
  unfold handle
  split <;> exact dispatch_of_unauthorized h

/-- A foreign write is turned down before it does anything. -/
theorem Foreign.refused (h : servers.Foreign call) (hwrites : call.tool.writes = true) :
    ∃ answer : ToolAnswer, servers.serve call = .ret answer ∧ answer.Refused := by
  obtain ⟨hauth, hcallers⟩ := h hwrites
  obtain ⟨allowed, hallowed, hnot⟩ := allowed_of_writes hwrites hauth
  unfold serve
  cases henter : (servers.settings call.tool).enter call.scope with
  | respond status error => exact ⟨_, rfl, trivial⟩
  | app principal =>
      have hunauthorized : ∃ e, authorize servers.repr (servers.allowed call.tool) principal
          call.correlationId = .error e := by
        rw [hallowed]
        cases principal with
        | none => exact ⟨_, rfl⟩
        | some caller =>
            rw [authorize, hnot caller (hcallers caller henter)]
            exact ⟨_, rfl⟩
      obtain ⟨e, he⟩ := hunauthorized
      dsimp only
      rw [handle_of_unauthorized he]
      exact ⟨_, rfl, authorize_error he⟩

theorem Foreign.still (h : servers.Foreign call) : Still (servers.serve call) := by
  cases hwrites : call.tool.writes with
  | true =>
      obtain ⟨answer, hserve, -⟩ := h.refused hwrites
      rw [hserve]
      exact moves_ret _
  | false => exact still_serve hwrites

end Refusals

/-! ## Runs of a deployment -/

/-- The service is what both systems have in common. -/
def overlap : Overlap Arrival Attempt World World Choice Choice Reply Response where
  admits := fun _ => True
  get := id
  ask := id
  named := Arrival.attempt
  result := fun reply r => reply = .response r

variable {servers shown}

theorem fits : overlap.Fits (servers.deployment shown) (.only servers.Comes) requests where
  shows := by
    intro arrival a hname
    cases arrival with
    | request a =>
        cases hname
        exact Refines.renamed _ Reply.response
    | call call => cases hname
    | turn d => cases hname
  spares := by
    intro w running arrival hcomes hname
    cases arrival with
    | request a => cases hname
    | call call => exact moves_bind (Foreign.still hcomes) fun r => moves_ret _
    | turn d => exact moves_bind (still_dialogue shown d) fun r => moves_ret _
  admits := fun _ _ _ => trivial
  asks := by
    intro arrival a c hname hadmits
    cases arrival with
    | request a =>
        cases hname
        exact hadmits
    | call call => cases hname
    | turn d => cases hname

abbrev DeploymentPool := Pool Arrival Unit World Choice PyException Reply

section Runs
variable {pool : DeploymentPool}

/-- However calls and turns come in between, the service runs as if there were none, and
none of the calls that come to write gets to its handler. -/
theorem tool_calls_invisible
    (h : pool.Reachable (servers.deployment shown) (.only servers.Comes) {}) :
    (∃ plain : RequestPool, plain.Reachable requests .free {} ∧ plain.state = pool.state ∧
      plain.finished = pool.finished.filterMap Arrival.served) ∧
    ∀ call r, (.call call, r) ∈ pool.finished → call.tool.writes = true →
      ∃ answer : ToolAnswer, r = .ok (.answer answer) ∧ answer.Refused := by
  constructor
  · obtain ⟨plain, hplain, hshown⟩ := fits.shown h
    refine ⟨plain, hplain, hshown.state, hshown.finished.eq_filterMap ?_ ?_⟩
    · rintro ⟨arrival, r'⟩ ⟨a, r⟩ ⟨hname, hends⟩
      cases arrival with
      | request a =>
          cases hname
          cases hends with
          | ok hresult =>
              cases hresult
              rfl
          | error e => rfl
      | call call => cases hname
      | turn d => cases hname
    · rintro ⟨arrival, r'⟩ hname
      cases arrival with
      | request a => cases hname
      | call call => rfl
      | turn d => rfl
  · intro call r hfinished hwrites
    obtain ⟨cs, ws, -, hamid⟩ := (h.amid .refl Scenario.steady).2 _ hfinished
    obtain ⟨answer, hserve, hrefused⟩ :=
      Foreign.refused (h.only.2 _ hfinished : servers.Foreign call) hwrites
    refine ⟨answer, ?_, hrefused⟩
    dsimp only at hamid
    rw [← hamid]
    simp only [deployment, program, hserve]
    rfl

/-- What a turn of the model reads is settled by the worlds that its steps found, as far as
its lineage goes, and by the default backlog. -/
theorem turn_confined {D : Discipline Arrival Unit World Choice PyException Reply}
    (h : pool.Reachable (servers.deployment shown) D {}) {d : Dialogue}
    {r : Except PyException Reply} (hanswered : (.turn d, r) ∈ pool.finished) :
    ∃ (cs : ℕ → Choice) (ws : ℕ → World),
      (∀ n, pool.Passed (servers.deployment shown) D {} (ws n)) ∧
      ∀ sources ws', servers.SameDefault sources →
        (∀ n, SameLineage d.request (ws n) (ws' n)) →
        ((servers.withSources sources).program shown (.turn d)).amid cs ws' = r := by
  obtain ⟨cs, ws, hpassed, hamid⟩ := (h.amid .refl Scenario.steady).2 _ hanswered
  refine ⟨cs, ws, hpassed, ?_⟩
  intro sources ws' hsame hlineage
  have hindistinct : Indistinct (SameLineage d.request) (servers.program shown (.turn d))
      ((servers.withSources sources).program shown (.turn d)) :=
    (indistinct_dialogue hsame shown d).bind fun r => .ret _
  exact (hindistinct.amid_eq hlineage).symm.trans hamid

end Runs
end Servers

namespace Scenario
open Servers

/-- Only the facilitator's token verifies. -/
def auth : AuthSettings :=
  ⟨false, "tools", fun token _ => if token = "f" then some "facilitator@" else none⟩

def toolServers : Servers where
  story := {
    settings := auth
    allowedCallers := ["orchestration@", "facilitator@"]
    sources := fun _ => none
    defaultSource := "mock"
    describe := fun _ => "the source failed"
    repr := id
  }
  artifact := ⟨auth, ⟨["orchestration@"], ["facilitator@"]⟩⟩
  report := ⟨auth, ["orchestration@"]⟩
  repr := id
  invalid := fun _ _ => "invalid arguments"

def byFacilitator (tool : Tool) (arguments : Arguments) : ToolCall :=
  ⟨⟨true, "/mcp", [("authorization", "Bearer f")]⟩, tool, arguments, 0⟩

/-- The turn lists what its run has. -/
def lists : Dialogue where
  request := { parsedTurn with
    synthesisReference := { parsedTurn.synthesisReference with storyRunId := ⟨1⟩ }
    evidenceReferences := []
    reference_is_synthesis := rfl
    one_lineage := by simp }
  agent := fun past => if past.length = 0 then
    some (byFacilitator .listArtifacts { storyRunId := .value ⟨1⟩ }) else none
  rounds := 5

/-- The listing that the turn saw holds something. -/
def showsArtifacts : Arrival × Except PyException Reply → Bool
  | (_, .ok (.transcript [⟨_, .ok (.result (.ok (.listing r)))⟩])) => !r.items.isEmpty
  | _ => false

/-- A review that the facilitator would store. -/
def forges : ToolCall :=
  byFacilitator .saveArtifact {
    type := .value (.review .business)
    storyRunId := .value ⟨1⟩
    perspective := .value .business
    content := .value (.review (review .business))
    idempotencyKey := .value 9
  }

theorem comes_forges : toolServers.Foreign forges := by
  intro _
  refine ⟨rfl, ?_⟩
  intro caller hcaller
  have henter : (toolServers.settings forges.tool).enter forges.scope =
      .app (some "facilitator@") := by decide +kernel
  rw [henter] at hcaller
  cases hcaller
  decide

/-- A session is created, a turn lists its artifacts, and a write is tried. -/
theorem reachable_forged : ∃ (pool : DeploymentPool) (r₁ r₂ r₃ : Except PyException Reply),
    pool.Reachable (toolServers.deployment fun _ => "?") (.only toolServers.Comes) {} ∧
      (pool.state.session ⟨1⟩).isSome = true ∧ showsArtifacts (.turn lists, r₂) = true ∧
      pool.finished = [(.call forges, r₁), (.turn lists, r₂), (.request create, r₃)] := by
  have halone (arrival : Arrival) (hcomes : toolServers.Comes arrival) (w : World)
      (finished : List (Arrival × Except PyException Reply))
      (hadmits : ∀ n, (toolServers.deployment fun _ => "?").admits arrival (create.choices n)) :
      Pool.Steps (toolServers.deployment fun _ => "?") (.only toolServers.Comes) ⟨w, [], finished⟩
        ⟨(((toolServers.deployment fun _ => "?").program arrival).run create.choices w).2, [],
          (arrival, (((toolServers.deployment fun _ => "?").program arrival).run
            create.choices w).1) :: finished⟩ :=
    .alone _ _ hadmits hcomes fun _ _ _ => trivial
  have hcreated := halone (.request create) trivial {} [] fun n => ⟨n, rfl⟩
  have hlisted := hcreated.trans (halone (.turn lists) trivial _ _ fun _ => trivial)
  have hforged := hlisted.trans (halone (.call forges) comes_forges _ _ fun _ => trivial)
  exact ⟨_, _, _, _, hforged, by decide +kernel, by decide +kernel, rfl⟩

/-- The write is turned down, and the service has seen only its own request. -/
theorem tool_calls_invisible_forged : ∃ (pool : DeploymentPool) (plain : RequestPool),
    (pool.state.session ⟨1⟩).isSome = true ∧ plain.Reachable requests .free {} ∧
      plain.state = pool.state ∧ plain.finished = pool.finished.filterMap Arrival.served ∧
      ∃ answer : ToolAnswer, (.call forges, .ok (.answer answer)) ∈ pool.finished ∧
        answer.Refused := by
  obtain ⟨pool, r₁, r₂, r₃, hreachable, hcreated, -, hfinished⟩ := reachable_forged
  obtain ⟨⟨plain, hplain, hstate, hserved⟩, hrefused⟩ := tool_calls_invisible hreachable
  have hforges : (.call forges, r₁) ∈ pool.finished := by simp [hfinished]
  obtain ⟨answer, hanswer, hturned⟩ := hrefused forges r₁ hforges rfl
  rw [hanswer] at hforges
  exact ⟨pool, plain, hcreated, hplain, hstate, hserved, answer, hforges, hturned⟩

/-- The turn that listed its run's artifacts. -/
theorem turn_confined_lists : ∃ (pool : DeploymentPool) (r : Except PyException Reply),
    (.turn lists, r) ∈ pool.finished ∧ showsArtifacts (.turn lists, r) = true ∧
      ∃ (cs : ℕ → Choice) (ws : ℕ → World), ∀ ws' : ℕ → World,
        (∀ n, SameLineage lists.request (ws n) (ws' n)) →
          (toolServers.program (fun _ => "?") (.turn lists)).amid cs ws' = r := by
  obtain ⟨pool, r₁, r₂, r₃, hreachable, -, hshows, hfinished⟩ := reachable_forged
  have hlists : (.turn lists, r₂) ∈ pool.finished := by simp [hfinished]
  obtain ⟨cs, ws, -, hamid⟩ := turn_confined hreachable hlists
  exact ⟨pool, r₂, hlists, hshows, cs, ws, fun ws' => hamid toolServers.story.sources ws' rfl⟩

end Scenario
end StoryReview
