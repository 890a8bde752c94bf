import StoryReview.Effects
import StoryReview.SessionSteps

/-!
# Runs from the empty world

A list of attempts is a run, and its end is reachable. The scenario below is an
agreeable environment: one story, reviews without findings, a synthesis that
depends on nothing but its inputs, and whatever facilitator is wanted.
-/
namespace StoryReview

/-- The world after some attempts. -/
def World.after (w : World) (attempts : List Attempt) : World :=
  attempts.foldl (fun w a => a.result w) w

theorem World.after_concat (w : World) (attempts : List Attempt) (a : Attempt) :
    w.after (attempts ++ [a]) = a.result (w.after attempts) := by
  simp [World.after]

theorem reachable_after (attempts : List Attempt) : Reachable (World.after {} attempts) := by
  induction attempts using List.reverseRecOn with
  | nil => exact .init
  | append_singleton attempts a ih =>
      rw [World.after_concat]
      exact .step a ih trivial

namespace Scenario

def story (storyId : StoryId) : StoryDetail where
  storyId := storyId
  title := "Export"
  status := "Ready"
  description := "Export the board."
  epicContext := "Reporting"
  roadmapContext := "Q3"

def review (p : Perspective) : ReviewReport where
  perspective := p
  storyId := "story-01"
  summary := "Nothing to add."

def finding (id : IssueId) : Finding where
  id := id
  title := "Gap"
  description := "A gap."
  severity := .major
  category := "scope"

def reviewReference (p : Perspective) : ArtifactReference where
  artifactId := ⟨0⟩
  storyRunId := ⟨0⟩
  type := .review p
  perspective := some p
  version := 1
  createdAt := 0
  contentType := .json
  checksumSha256 := .null

/-- A report of the given findings, over two reviews of the run ⟨0⟩. -/
def gaps (findings : List Finding) (h : findings.length ≤ 400) : SynthesisReport where
  storyId := "story-01"
  summary := "Gaps."
  mergedFindings := findings
  inputs := reviewReference
  mergedFindings_le := h
  validate_paired_inputs := ⟨fun _ => ⟨rfl, rfl⟩, rfl⟩

def noGaps : SynthesisReport := gaps [] (by decide)

def oneGap : SynthesisReport := gaps [finding "F-1"] (by decide)

/-- A synthesis of the given findings, over the pair it is invoked with. -/
def synthesis (findings : List Finding) (h : findings.length ≤ 400)
    (request : SynthesisInvocation) : SynthesisReport :=
  if hpair : (∀ p, (request.pairs p).reference.type = .review p ∧
      (request.pairs p).reference.perspective = some p) ∧
      (request.pairs .business).reference.storyRunId =
        (request.pairs .engineering).reference.storyRunId then
    { storyId := "story-01", summary := "Gaps.", mergedFindings := findings
      inputs := fun p => (request.pairs p).reference, mergedFindings_le := h
      validate_paired_inputs := hpair }
  else
    noGaps

def environment (facilitator : FacilitatorInvocation → FacilitatorTurnOutput) : Choice where
  story := story
  reviewer := fun p _ => review p
  synthesis := synthesis [finding "F-1"] (by decide)
  facilitator := facilitator

/-- An output that leaves the given issues open. -/
def leaves (issues : List IssueId) (h : issues.length ≤ 100) : FacilitatorTurnOutput where
  reply := "Noted."
  delegation := { openIssues := issues, openIssues_le := h }
  resynthesis_is_bare := nofun
  newIssues_are_open := by simp

/-- The finding stays open. -/
def keepsOpen : FacilitatorTurnOutput := leaves ["F-1"] (by decide)

/-- An output that says something and leaves nothing open. -/
def replies (reply : Text) : FacilitatorTurnOutput where
  reply := reply
  delegation := {}
  newIssues_are_open := by simp

/-- An output with resolutions that keeps the finding open. -/
def settles (reply : Text) (resolutions : List ResolutionDraft)
    (h : resolutions.length ≤ 100) : FacilitatorTurnOutput where
  reply := reply
  delegation := { openIssues := ["F-1"] }
  resolutions := resolutions
  resolutions_le := h
  resynthesis_is_bare := nofun
  newIssues_are_open := by simp

/-- The opening output mints an issue beside the finding. -/
def mints : FacilitatorTurnOutput where
  reply := "Two things."
  delegation := { openIssues := ["F-1", "N-1"] }
  newIssues := [⟨"N-1", "Limits", "No limit is given."⟩]
  resynthesis_is_bare := nofun

/-- The finding is resolved and a new issue takes its place. -/
def replaces : FacilitatorTurnOutput where
  reply := "One more thing."
  delegation := { openIssues := ["N-1"] }
  resolutions := [⟨"F-1", .resolved, "Answered."⟩]
  newIssues := [⟨"N-1", "Limits", "No limit is given."⟩]
  resynthesis_is_bare := nofun

/-- The finding is reopened and the business reviewer asked. -/
def reopens : FacilitatorTurnOutput where
  reply := "Back to the gap."
  delegation := { invoke := .business, openIssues := ["F-1"] }
  resolutions := [⟨"F-1", .reopened, "The answer was wrong."⟩]
  resynthesis_is_bare := nofun
  newIssues_are_open := by simp

/-- The facilitator asks the business reviewer again. -/
def consults : FacilitatorTurnOutput where
  reply := "Asking."
  delegation := { invoke := .business, openIssues := ["F-1"] }
  resynthesis_is_bare := nofun
  newIssues_are_open := by simp

/-- The facilitator's summary settles the finding. -/
def closes : FacilitatorTurnOutput where
  reply := "Done."
  delegation := { openIssues := [] }
  resolutions := [⟨"F-1", .resolved, "Answered."⟩]
  resynthesis_is_bare := nofun
  newIssues_are_open := by simp

/-- Both reviewers are asked again. -/
def reReview : FacilitatorTurnOutput where
  reply := "Reviewing again."
  delegation := { invoke := .both, openIssues := ["F-1"] }

def undecided : DecisionState where
  resolutions := [⟨"F-1", .unresolved, "Not yet.", 1⟩]

def attempt (request : Request) (key : IdempotencyKey) (choice : Choice)
    (crashAfter : Option ℕ) : Attempt where
  request := request
  key := key
  correlationId := 0
  userId := 7
  choices := fun _ => choice
  crashAfter := crashAfter

/-- A facilitator that keeps the finding open. -/
def steady : Choice := environment fun _ => keepsOpen

def inBoth : CreateSessionRequest := ⟨"story-01", [.md, .pdf], by decide, by decide⟩

/-- The session ⟨1⟩ of story-01, to be rendered in both formats. -/
def create : Attempt := attempt (.createSession inBoth) 1 steady none

/-- Six minutes and more pass before the first step. -/
def later (choice : Choice) : Choice := { choice with elapsed := 400000000 }

def accept (key : IdempotencyKey) (crashAfter : Option ℕ) : Attempt :=
  attempt (.turn ⟨1⟩ ⟨none, true, rfl⟩) key (later steady) crashAfter

/-- A PO message. -/
def ask (key : IdempotencyKey) (crashAfter : Option ℕ) : Attempt :=
  attempt (.turn ⟨1⟩ ⟨some "Why?", false, rfl⟩) key (later steady) crashAfter

def finalize (key : IdempotencyKey) : Attempt :=
  attempt (.finalize ⟨1⟩) key (later steady) none

def abandon (key : IdempotencyKey) : Attempt :=
  attempt (.abandon ⟨1⟩) key (later steady) none

/-- Whether a turn request was answered. -/
def answersTurn : Option Response → Bool
  | some (.turn _) => true
  | _ => false

theorem exists_turn {response : Option Response} (h : answersTurn response = true) :
    ∃ r, response = some (.turn r) := by
  unfold answersTurn at h
  split at h
  · exact ⟨_, rfl⟩
  · cases h

end Scenario
end StoryReview
