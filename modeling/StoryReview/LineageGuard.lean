import StoryReview.AdapterMessages
import StoryReview.Bystanders
import StoryReview.ToolServers

/-!
# The lineage guard

The local adapter looks at every tool call of the facilitator's model before it leaves. A
call that passes reads, and it reads the backlog, the references of the turn's story run, or
the artifacts that the turn was given.
-/
namespace StoryReview
open Program Ingress

namespace AgentKit

/-- `^(?:{StoryId})$` under `re.match`, where `$` also matches before a final newline. -/
def storyPatternMatches (id : Text) : Bool :=
  StorySource.storyIdOk id || (id.toList.getLast? == some '\n' &&
    StorySource.storyIdOk (String.ofList id.toList.dropLast))

def storyIdPermitted : Argument Text → Bool
  | .absent | .null => true
  | .value id => storyPatternMatches id
  | .other => false

end AgentKit

namespace FacilitatorRequest
variable (request : FacilitatorRequest)

/-- The artifacts that the turn was given. -/
def allowed : List ArtifactId :=
  request.synthesisReference.artifactId ::
    request.evidenceReferences.map ArtifactReference.artifactId

end FacilitatorRequest

namespace AgentKit

/-- The error that stands for the tool's result when the call may not proceed. `shown`
prints a story id. -/
def lineageToolGuard (shown : Argument Text → Text) (tool : Tool) (args : Arguments)
    (request : Option FacilitatorRequest) : Option Text :=
  match request with
  | none => some "no facilitator turn is active"
  | some request =>
      let notInLineage := "artifact is not in this turn's lineage: use " ++
        "only the references supplied in the turn context"
      match tool with
      | .getStory | .listStories =>
          if args.source.isSet then some "source override is orchestration-only; omit it"
          else if storyIdPermitted args.storyId then none
          else some s!"invalid story id {shown args.storyId}"
      | .getArtifact | .listArtifacts =>
          if args.storyRunId ≠ .value request.storyRunId then
            some ("artifact reads are lineage-scoped to the current " ++
              s!"story run {request.storyRunId.key}")
          else
            match args.artifactId with
            | .absent | .null => none
            | .value id => if id ∈ request.allowed then none else some notInLineage
            | .other => some notInLineage
      | tool => some s!"tool '{tool.name}' is not permitted for the facilitator"

/-- What a call that passes may ask for. -/
inductive Permitted (request : FacilitatorRequest) : Tool → Arguments → Prop
  | listStories {args : Arguments} (h : args.source.isSet = false) :
      Permitted request .listStories args
  | getStory {args : Arguments} (h : args.source.isSet = false) :
      Permitted request .getStory args
  | listArtifacts {args : Arguments} (h : args.storyRunId = .value request.storyRunId) :
      Permitted request .listArtifacts args
  | getArtifact {args : Arguments} (h : args.storyRunId = .value request.storyRunId)
      (hid : ∀ id, args.artifactId = .value id → id ∈ request.allowed) :
      Permitted request .getArtifact args

theorem permitted_of_guard {shown : Argument Text → Text} {tool : Tool} {args : Arguments}
    {request : FacilitatorRequest}
    (h : lineageToolGuard shown tool args (some request) = none) :
    Permitted request tool args := by
  cases tool with
  | listStories =>
      apply Permitted.listStories
      by_contra hset
      rw [Bool.not_eq_false] at hset
      simp [lineageToolGuard, hset] at h
  | getStory =>
      apply Permitted.getStory
      by_contra hset
      rw [Bool.not_eq_false] at hset
      simp [lineageToolGuard, hset] at h
  | listArtifacts =>
      apply Permitted.listArtifacts
      by_contra hrun
      simp [lineageToolGuard, hrun] at h
  | getArtifact =>
      apply Permitted.getArtifact
      · by_contra hrun
        simp [lineageToolGuard, hrun] at h
      · intro id hid
        by_contra hnot
        by_cases hrun : args.storyRunId = .value request.storyRunId
        · simp [lineageToolGuard, hrun, hid, hnot] at h
        · simp [lineageToolGuard, hrun] at h
  | saveArtifact => simp [lineageToolGuard] at h
  | renderReport => simp [lineageToolGuard] at h

theorem Permitted.reads {request : FacilitatorRequest} {tool : Tool} {args : Arguments}
    (h : Permitted request tool args) : tool.writes = false := by
  cases h <;> rfl

end AgentKit

/-! ## Dialogues -/

/-- One tool call of the model, and what it saw of it. -/
structure ToolExchange where
  call : ToolCall
  answer : Except Text ToolAnswer

/-- A turn's run of the model: its next call, from what it has seen so far, if it makes one
more. -/
structure Dialogue where
  request : FacilitatorRequest
  agent : List ToolExchange → Option ToolCall
  rounds : ℕ

namespace Servers
variable (servers : Servers) (shown : Argument Text → Text)

/-- `_guarded_tool_call` in front of the servers. -/
def guardedToolCall (request : FacilitatorRequest) (call : ToolCall) :
    Orchestration (Except Text ToolAnswer) :=
  match AgentKit.lineageToolGuard shown call.tool call.arguments (some request) with
  | some error => .ret (.error error)
  | none => (servers.serve call).bind fun answer => .ret (.ok answer)

def converse (request : FacilitatorRequest) (agent : List ToolExchange → Option ToolCall) :
    ℕ → List ToolExchange → Orchestration (List ToolExchange)
  | 0, past => .ret past
  | n + 1, past =>
      match agent past with
      | none => .ret past
      | some call => (guardedToolCall servers shown request call).bind fun answer =>
          converse request agent n (past ++ [⟨call, answer⟩])

def dialogue (d : Dialogue) : Orchestration (List ToolExchange) :=
  servers.converse shown d.request d.agent d.rounds []

/-! ## Reads change nothing -/

/-- Every step leaves the world as it is. -/
abbrev Still {α : Type} (p : Orchestration α) : Prop :=
  p.Moves (fun _ => True) fun w w' => w' = w

variable {servers}

theorem still_onRun {α : Type} {run : RunId} {errorFor : StoreException → ErrorBody}
    {output : α → ToolOutput} {p : StoreProgram α}
    (hp : p.Moves (fun _ => True) fun o o' => o' = o) : Still (onRun run errorFor output p) := by
  apply moves_tryCatch
  · apply moves_bind _ fun a => moves_ret _
    induction p with
    | ret a => trivial
    | raise e => trivial
    | step f k ih =>
        constructor
        · intro c w _
          dsimp only
          rw [hp.1 () _ trivial]
          simp [World.setObjects]
        · exact fun b => ih b (hp.2 b)
  · exact fun e => moves_ret _

theorem still_storeRead {α : Type} (f : RunObjects → α) :
    (storeRead f).Moves (fun _ => True) fun o o' => o' = o :=
  moves_atomic fun _ _ _ => rfl

theorem still_get (run : RunId) (id : ArtifactId) :
    (ArtifactService.get run id).Moves (fun _ => True) fun o o' => o' = o := by
  unfold ArtifactService.get ArtifactService.readRecord
  apply moves_bind
  · apply moves_bind (still_storeRead _)
    intro found
    apply moves_bind (still_storeRead _)
    intro record
    split
    · exact moves_ret _
    · exact moves_raise _
  · intro record
    split_ifs
    · exact moves_ret _
    · exact moves_raise _

theorem still_listArtifacts (request : ListArtifactsInput) :
    (ArtifactService.listArtifacts request).Moves (fun _ => True) fun o o' => o' = o :=
  moves_bind (still_storeRead _) fun _ => moves_ret _

theorem still_dispatch {ρ : Type} {call : ToolCall} {principal : Option Text}
    {validated : Option ρ} {handler : ρ → Orchestration (Except ErrorBody ToolOutput)}
    (h : ∀ request, Still (handler request)) :
    Still (servers.dispatch call principal validated handler) := by
  unfold dispatch
  split
  · exact h _
  · exact moves_ret _

theorem still_onSource (correlationId : Uuid)
    (answer : Choice → Except StorySource.StoryException StorySource.StoryOutput) :
    Still (servers.onSource correlationId answer) :=
  moves_atomic fun _ _ _ => rfl

theorem still_handle {call : ToolCall} (hreads : call.tool.writes = false)
    (principal : Option Text) : Still (servers.handle call principal) := by
  unfold handle
  cases htool : call.tool with
  | listStories => exact still_dispatch fun request => still_onSource _ _
  | getStory => exact still_dispatch fun request => still_onSource _ _
  | getArtifact => exact still_dispatch fun request => still_onRun (still_get _ _)
  | listArtifacts => exact still_dispatch fun request => still_onRun (still_listArtifacts _)
  | saveArtifact => rw [htool] at hreads; cases hreads
  | renderReport => rw [htool] at hreads; cases hreads

theorem still_serve {call : ToolCall} (hreads : call.tool.writes = false) :
    Still (servers.serve call) := by
  unfold serve
  split
  · exact moves_ret _
  · exact moves_bind (still_handle hreads _) fun r => moves_ret _

theorem still_guardedToolCall (request : FacilitatorRequest) (call : ToolCall) :
    Still (servers.guardedToolCall shown request call) := by
  unfold guardedToolCall
  split
  · exact moves_ret _
  next hguard =>
    exact moves_bind (still_serve (AgentKit.permitted_of_guard hguard).reads) fun _ => moves_ret _

/-- However the model adapts its calls. -/
theorem still_dialogue (d : Dialogue) : Still (servers.dialogue shown d) := by
  unfold dialogue
  generalize ([] : List ToolExchange) = past
  induction d.rounds generalizing past with
  | zero => exact moves_ret _
  | succ n ih =>
      unfold converse
      split
      · exact moves_ret _
      · exact moves_bind (still_guardedToolCall shown _ _) fun answer => ih _

/-! ## What a dialogue sees -/

/-- The deployment with other backlogs behind the story server. -/
def withSources (servers : Servers)
    (sources : Text → Option (StorySource.BacklogLike Choice)) : Servers :=
  { servers with story := { servers.story with sources := sources } }

end Servers

section Lineage
variable {request : FacilitatorRequest}

/-- The same references in the run, and the same records behind those that the turn was
given. -/
structure SameReadable (request : FacilitatorRequest) (o o' : RunObjects) : Prop where
  references : o.references = o'.references
  record : ∀ id ∈ request.allowed, o.record id = o'.record id

/-- The turn's story run is the same in both worlds, to those who read what the turn was
given. -/
def SameLineage (request : FacilitatorRequest) (w w' : World) : Prop :=
  SameReadable request (w.objects request.storyRunId) (w'.objects request.storyRunId)

theorem indistinct_get {id : ArtifactId} (hid : id ∈ request.allowed) (run : RunId) :
    Indistinct (SameReadable request) (ArtifactService.get run id)
      (ArtifactService.get run id) := by
  unfold ArtifactService.get ArtifactService.readRecord
  apply Indistinct.bind
  · apply Indistinct.bind
    · apply Indistinct.atomic
      intro c o o' h
      simp [h.record id hid]
    · intro found
      apply Indistinct.bind
      · exact .atomic fun c o o' h => h.record id hid
      · intro record
        split
        · exact .ret _
        · exact .raise _
  · intro record
    split_ifs
    · exact .ret _
    · exact .raise _

theorem indistinct_listArtifacts (input : ListArtifactsInput) :
    Indistinct (SameReadable request) (ArtifactService.listArtifacts input)
      (ArtifactService.listArtifacts input) := by
  unfold ArtifactService.listArtifacts
  apply Indistinct.bind
  · exact .atomic fun c o o' h => h.references
  · exact fun references => .ret _

namespace Servers
variable {servers : Servers} {sources : Text → Option (StorySource.BacklogLike Choice)}
variable {call : ToolCall} {principal : Option Text}

theorem indistinct_onRun {α : Type} {errorFor : StoreException → ErrorBody}
    {output : α → ToolOutput} {p : StoreProgram α} (hp : Indistinct (SameReadable request) p p) :
    Indistinct (SameLineage request) (onRun request.storyRunId errorFor output p)
      (onRun request.storyRunId errorFor output p) := by
  apply Indistinct.tryCatch
  · apply Indistinct.bind
    · exact hp.zoom fun w w' h => h
    · exact fun a => .ret _
  · exact fun e => .ret _

theorem indistinct_dispatch {ρ : Type} {R : World → World → Prop} {validated : Option ρ}
    {handler handler' : ρ → Orchestration (Except ErrorBody ToolOutput)}
    (h : ∀ input, validated = some input → Indistinct R (handler input) (handler' input)) :
    Indistinct R (servers.dispatch call principal validated handler)
      ((servers.withSources sources).dispatch call principal validated handler') := by
  unfold dispatch
  cases hvet : vet (authorize servers.repr (servers.allowed call.tool) principal
      call.correlationId) call.arguments.given call.tool.fields validated
      (servers.invalid call.tool call.arguments) call.correlationId with
  | ok input =>
      have hvet' : vet (authorize (servers.withSources sources).repr
          ((servers.withSources sources).allowed call.tool) principal call.correlationId)
          call.arguments.given call.tool.fields validated
          ((servers.withSources sources).invalid call.tool call.arguments)
          call.correlationId = .ok input := hvet
      rw [hvet']
      exact h input (vet_ok hvet).2
  | error e =>
      have hvet' : vet (authorize (servers.withSources sources).repr
          ((servers.withSources sources).allowed call.tool) principal call.correlationId)
          call.arguments.given call.tool.fields validated
          ((servers.withSources sources).invalid call.tool call.arguments)
          call.correlationId = .error e := hvet
      rw [hvet']
      exact .ret _

@[simp] theorem settings_withSources (tool : Tool) :
    (servers.withSources sources).settings tool = servers.settings tool := by
  cases tool <;> rfl

theorem indistinct_onSource {R : World → World → Prop} {correlationId : Uuid}
    {answer answer' : Choice → Except StorySource.StoryException StorySource.StoryOutput}
    (h : answer = answer') :
    Indistinct R (servers.onSource correlationId answer)
      ((servers.withSources sources).onSource correlationId answer') := by
  subst h
  exact .atomic fun c w w' _ => rfl

/-- The backlogs differ at most behind an override. -/
def SameDefault (servers : Servers)
    (sources : Text → Option (StorySource.BacklogLike Choice)) : Prop :=
  sources servers.story.defaultSource = servers.story.sources servers.story.defaultSource

theorem SameDefault.resolve (h : servers.SameDefault sources) :
    servers.story.resolve none = (servers.withSources sources).story.resolve none :=
  StorySource.StoryServer.resolve_congr rfl h

theorem indistinct_handle (hsame : servers.SameDefault sources)
    (h : AgentKit.Permitted request call.tool call.arguments) (principal : Option Text) :
    Indistinct (SameLineage request) (servers.handle call principal)
      ((servers.withSources sources).handle call principal) := by
  unfold handle
  generalize htool : call.tool = tool at h
  generalize hargs : call.arguments = args at h
  cases h with
  | listStories hsource =>
      apply indistinct_dispatch
      intro input hinput
      apply indistinct_onSource
      funext c
      have hnone := StorySource.source_listStoriesInput hsource hinput
      simp only [StorySource.StoryServer.listStories, hnone, hsame.resolve]
  | getStory hsource =>
      apply indistinct_dispatch
      intro input hinput
      apply indistinct_onSource
      funext c
      have hnone := StorySource.source_getStoryInput hsource hinput
      simp only [StorySource.StoryServer.getStory, hnone, hsame.resolve]
  | listArtifacts hrun =>
      apply indistinct_dispatch
      intro input hinput
      have hof : input.storyRunId = request.storyRunId :=
        Arguments.storyRunId_listArtifactsInput hrun hinput
      rw [hof]
      exact indistinct_onRun (indistinct_listArtifacts input)
  | getArtifact hrun hid =>
      apply indistinct_dispatch
      intro input hinput
      obtain ⟨run, id⟩ := input
      obtain ⟨hrunId, hartifactId⟩ := Arguments.given_getArtifactInput hinput
      rw [hrun, Argument.value.injEq] at hrunId
      subst hrunId
      exact indistinct_onRun (indistinct_get (hid _ hartifactId) _)

theorem indistinct_guardedToolCall (hsame : servers.SameDefault sources)
    (shown : Argument Text → Text) (call : ToolCall) :
    Indistinct (SameLineage request) (servers.guardedToolCall shown request call)
      ((servers.withSources sources).guardedToolCall shown request call) := by
  unfold guardedToolCall
  split
  · exact .ret _
  next hguard =>
    have hpermitted := AgentKit.permitted_of_guard hguard
    apply Indistinct.bind
    · unfold serve
      rw [settings_withSources]
      split
      · exact .ret _
      · exact (indistinct_handle hsame hpermitted _).bind fun r => .ret _
    · exact fun answer => .ret _

/-- A dialogue cannot tell such worlds and backlogs apart, however the model adapts its
calls to what it has seen. -/
theorem indistinct_dialogue (hsame : servers.SameDefault sources)
    (shown : Argument Text → Text) (d : Dialogue) :
    Indistinct (SameLineage d.request) (servers.dialogue shown d)
      ((servers.withSources sources).dialogue shown d) := by
  unfold dialogue
  generalize ([] : List ToolExchange) = past
  induction d.rounds generalizing past with
  | zero => exact .ret _
  | succ n ih =>
      unfold converse
      split
      · exact .ret _
      · exact (indistinct_guardedToolCall hsame shown _).bind fun answer => ih _

end Servers
end Lineage
end StoryReview
