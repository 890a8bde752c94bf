import StoryReview.AuditErasure
import StoryReview.TurnAdditions

/-!
# What the audit trail tells

A record names a session and artifacts of its run, of the kinds that its agent reads and
writes; no two records share an id and none is ever changed. A turn is stored only when
the agents that answered for it are on record.
-/
namespace StoryReview
open Program Flows RecordsStore

/-! ## Records and the store -/

def RunLabel.agent : RunLabel → Agent
  | .opening agent => agent
  | .turn agent _ => agent
  | .facilitatorSummary _ => .facilitator

/-- The kinds of the artifacts that the agent is handed, in order. -/
def RunLabel.inputs : RunLabel → List ArtifactType
  | .opening .businessReviewer => [.story]
  | .opening .engineeringReviewer => [.story]
  | .turn .businessReviewer _ => [.reviewBusiness]
  | .turn .engineeringReviewer _ => [.reviewEngineering]
  | .opening .synthesis => [.reviewBusiness, .reviewEngineering]
  | .turn .synthesis _ => [.reviewBusiness, .reviewEngineering]
  | _ => [.synthesis, .story, .reviewBusiness, .reviewEngineering]

/-- The kind of the one artifact that a record of the agent names as its output; for the
facilitator it is the synthesis it speaks about. -/
def Agent.output : Agent → ArtifactType
  | .businessReviewer => .reviewBusiness
  | .engineeringReviewer => .reviewEngineering
  | _ => .synthesis

/-- The reference is that of an artifact of the run, up to its latest mark. -/
def World.Stores (w : World) (run : RunId) (reference : ArtifactReference) : Prop :=
  ∃ q ∈ (w.objects run).records,
    reference = { q.reference with isLatest := reference.isLatest }

/-- What a record of the agent's run may say. -/
structure Accounted (id : AgentRunId) (agent : Agent) (run : RunId) (sessionId : SessionId)
    (inputs outputs : List ArtifactReference) (w : World) : Prop where
  label : id.label.agent = agent
  session : ∃ s, w.core sessionId = some s ∧ s.storyRunId = run
  stored : ∀ reference ∈ inputs ++ outputs, w.Stores run reference
  consumed : inputs.map ArtifactReference.type = id.label.inputs
  produced : outputs.map ArtifactReference.type = [agent.output]
  /-- What the agent wrote is what is saved under the key. -/
  saved : agent ≠ .facilitator →
    ∀ reference ∈ outputs, w.SavedUnder run id.key agent.output reference

def AgentRunRecord.Attests (r : AgentRunRecord) (w : World) : Prop :=
  Accounted r.agentRunId r.agent r.storyRunId r.sessionId r.inputReferences r.outputReferences w

theorem World.Stores.endures {w w' : World} {run : RunId} {reference : ArtifactReference}
    (h : w.Stores run reference) (hw : Endures w w') : w'.Stores run reference := by
  obtain ⟨q, hq, href⟩ := h
  exact ⟨q, (hw.objects run).records q hq, href⟩

theorem World.SavedUnder.endures {w w' : World} {run : RunId} {key : IdempotencyKey}
    {type : ArtifactType} {reference : ArtifactReference}
    (h : w.SavedUnder run key type reference) (hw : Endures w w') :
    w'.SavedUnder run key type reference := by
  obtain ⟨r, hr, href⟩ := h
  exact ⟨r, (hw.objects run).recordUnder hr, href⟩

theorem World.SavedUnder.stores {w : World} {run : RunId} {key : IdempotencyKey}
    {type : ArtifactType} {reference : ArtifactReference}
    (h : w.SavedUnder run key type reference) : w.Stores run reference := by
  obtain ⟨r, hr, rfl⟩ := h
  exact ⟨r, RunObjects.mem_records_of_recordUnder hr, rfl⟩

theorem World.SavedUnder.type_eq {w : World} {run : RunId} {key : IdempotencyKey}
    {type : ArtifactType} {reference : ArtifactReference}
    (h : w.SavedUnder run key type reference) (hw : w.Sane) : reference.type = type := by
  obtain ⟨r, hr, rfl⟩ := h
  obtain ⟨clock, hsound⟩ := hw.stores run
  exact hsound.type_of_recordUnder hr

/-- The session belongs to the run. -/
def World.BelongsTo (w : World) (sessionId : SessionId) (run : RunId) : Prop :=
  ∃ s, w.core sessionId = some s ∧ s.storyRunId = run

theorem World.BelongsTo.endures {w w' : World} {sessionId : SessionId} {run : RunId}
    (h : w.BelongsTo sessionId run) (hw : Endures w w') : w'.BelongsTo sessionId run := by
  obtain ⟨s, hs, hrun⟩ := h
  obtain ⟨s', hs', hsame⟩ := hw.sessions sessionId s hs
  have hrunId : s'.identity.storyRunId = s.identity.storyRunId := by rw [hsame]
  exact ⟨s', hs', hrunId.trans hrun⟩

theorem Accounted.endures {id : AgentRunId} {agent : Agent} {run : RunId}
    {sessionId : SessionId} {inputs outputs : List ArtifactReference} {w w' : World}
    (h : Accounted id agent run sessionId inputs outputs w) (hw : Endures w w') :
    Accounted id agent run sessionId inputs outputs w' :=
  { h with
    session := World.BelongsTo.endures h.session hw
    stored := fun reference href => (h.stored reference href).endures hw
    saved := fun hagent reference href => (h.saved hagent reference href).endures hw }

/-! ## Turns and the records -/

namespace AuditedWorld
variable {t t' : AuditedWorld}

/-- Some record has the id. -/
def HasRun (t : AuditedWorld) (id : AgentRunId) : Prop :=
  ∃ r ∈ t.agentRuns, r.agentRunId = id

/-- The agents that answered for the turn are on record: the facilitator of a message turn;
after a delegation also the synthesis and the facilitator's second answer; before the
opening turn the reviewers and the synthesis. -/
structure Recorded (t : AuditedWorld) (row : TurnRow) : Prop where
  message : ∀ key, row.producer = .turn key → row.record.poAccepted = false →
    t.HasRun ⟨key, .turn .facilitator row.record.turnNumber⟩
  delegated : ∀ key, row.producer = .turn key →
    row.record.delegationRationaleReply.isSome = true →
      t.HasRun ⟨key, .turn .synthesis row.record.turnNumber⟩ ∧
      t.HasRun ⟨key, .facilitatorSummary row.record.turnNumber⟩
  opening : ∀ key, row.producer = .createSession key →
    ∀ agent, agent ≠ .facilitator → t.HasRun ⟨key, .opening agent⟩

theorem HasRun.mono {id : AgentRunId} (h : t.HasRun id) (hruns : t.agentRuns <+: t'.agentRuns) :
    t'.HasRun id := by
  obtain ⟨r, hr, hid⟩ := h
  exact ⟨r, hruns.subset hr, hid⟩

theorem Recorded.mono {row row' : TurnRow} (h : t.Recorded row)
    (hsame : row.unstamped = row'.unstamped) (hruns : t.agentRuns <+: t'.agentRuns) :
    t'.Recorded row' := by
  have hproducer : row'.producer = row.producer :=
    (congrArg TurnRow.producer hsame.symm :)
  have hrecord : row'.unstamped.record = row.unstamped.record := by rw [hsame]
  have haccepted : row'.record.poAccepted = row.record.poAccepted :=
    (congrArg TurnRecord.poAccepted hrecord :)
  have hrationale : row'.record.delegationRationaleReply = row.record.delegationRationaleReply :=
    (congrArg TurnRecord.delegationRationaleReply hrecord :)
  have hnumber : row'.record.turnNumber = row.record.turnNumber :=
    (congrArg TurnRecord.turnNumber hrecord :)
  constructor
  · intro key hkey hmessage
    rw [hnumber]
    exact (h.message key (hproducer ▸ hkey) (haccepted ▸ hmessage)).mono hruns
  · intro key hkey hsome
    rw [hnumber]
    exact (h.delegated key (hproducer ▸ hkey) (hrationale ▸ hsome)).imp
      (fun hrun => hrun.mono hruns) fun hrun => hrun.mono hruns
  · exact fun key hkey agent hagent => (h.opening key (hproducer ▸ hkey) agent hagent).mono hruns

end AuditedWorld

namespace Audit

/-- What every reachable state of the audited service satisfies. -/
structure Sound (t : AuditedWorld) : Prop where
  sane : t.world.Sane
  ids : (t.agentRuns.map AgentRunRecord.agentRunId).Nodup
  attests : ∀ r ∈ t.agentRuns, r.Attests t.world
  turns : ∀ id, ∀ row ∈ t.world.turns id, t.Recorded row
  /-- An answered creation has its facilitator on record. -/
  answers : ∀ key, t.world.Answered (createSlot key) → t.HasRun ⟨key, .opening .facilitator⟩

/-- What a request sees happen between its steps. -/
structure Sees (t t' : AuditedWorld) : Prop where
  endures : Endures t.world t'.world
  sane : t'.world.Sane
  agentRuns : t.agentRuns <+: t'.agentRuns

/-- What a step of a request does. -/
structure Trails (t t' : AuditedWorld) : Prop where
  endures : Endures t.world t'.world
  sane : t.world.Sane → t'.world.Sane
  agentRuns : t.agentRuns <+: t'.agentRuns
  ids : (t.agentRuns.map AgentRunRecord.agentRunId).Nodup →
    (t'.agentRuns.map AgentRunRecord.agentRunId).Nodup
  attests : ∀ r ∈ t'.agentRuns, r ∈ t.agentRuns ∨ r.Attests t'.world
  turns : ∀ id, ∀ row ∈ t'.world.turns id,
    (∃ old ∈ t.world.turns id, old.unstamped = row.unstamped) ∨ t'.Recorded row
  answers : ∀ key, t'.world.Answered (createSlot key) →
    t.world.Answered (createSlot key) ∨ t'.HasRun ⟨key, .opening .facilitator⟩

theorem Sound.trails {t t' : AuditedWorld} (h : Sound t) (ht : Trails t t') : Sound t' where
  sane := ht.sane h.sane
  ids := ht.ids h.ids
  attests := fun r hr => (ht.attests r hr).elim (fun hold => (h.attests r hold).endures ht.endures)
    id
  turns := by
    intro id row hrow
    rcases ht.turns id row hrow with ⟨old, hold, hsame⟩ | hnew
    · exact (h.turns id old hold).mono hsame ht.agentRuns
    · exact hnew
  answers := fun key hkey => (ht.answers key hkey).elim
    (fun hold => (h.answers key hold).mono ht.agentRuns) id

theorem sound_init : Sound {} where
  sane := sane_init
  ids := .nil
  attests := by simp
  turns := by simp
  answers := by simp [World.Answered]

theorem Sees.refl {t : AuditedWorld} (h : t.world.Sane) : Sees t t := ⟨.refl _, h, List.prefix_rfl⟩

theorem Sees.trans {t u v : AuditedWorld} (h : Sees t u) (h' : Sees u v) : Sees t v :=
  ⟨h.endures.trans h'.endures, h'.sane, h.agentRuns.trans h'.agentRuns⟩

end Audit
end StoryReview
