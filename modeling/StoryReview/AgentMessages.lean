import Mathlib.Data.List.Infix
import StoryReview.TurnValidation
import StoryReview.World

/-!
# Messages to the Agent Engine

The user messages that the Agent Engine clients send, and the marker by which a
facilitator message is found again in a session's history. The JSON text of the
embedded models and of the identifiers derived from a hash is a parameter.
-/
namespace StoryReview

def Perspective.wire : Perspective → Text
  | .business => "business"
  | .engineering => "engineering"

/-- The text that the schema library writes for a value. -/
structure Wire where
  story : StoryDetail → Text
  review : ReviewReport → Text
  synthesis : SynthesisReport → Text
  reference : ArtifactReference → Text
  runId : RunId → Text
  artifactId : ArtifactId → Text

namespace AgentEngine

/-! ## Characters -/

/-- The zeros of the decimal digit blocks that `\d` matches, each a run of ten. -/
def decimalZeros : List ℕ :=
  [0x30, 0x660, 0x6f0, 0x7c0, 0x966, 0x9e6, 0xa66, 0xae6, 0xb66, 0xbe6, 0xc66, 0xce6, 0xd66,
    0xde6, 0xe50, 0xed0, 0xf20, 0x1040, 0x1090, 0x17e0, 0x1810, 0x1946, 0x19d0, 0x1a80,
    0x1a90, 0x1b50, 0x1bb0, 0x1c40, 0x1c50, 0xa620, 0xa8d0, 0xa900, 0xa9d0, 0xa9f0, 0xaa50,
    0xabf0, 0xff10, 0x104a0, 0x10d30, 0x11066, 0x110f0, 0x11136, 0x111d0, 0x112f0, 0x11450,
    0x114d0, 0x11650, 0x116c0, 0x11730, 0x118e0, 0x11950, 0x11c50, 0x11d50, 0x11da0, 0x16a60,
    0x16ac0, 0x16b50, 0x1d7ce, 0x1d7d8, 0x1d7e2, 0x1d7ec, 0x1d7f6, 0x1e140, 0x1e2f0, 0x1e950,
    0x1fbf0]

def isDecimal (c : Char) : Bool :=
  decimalZeros.any fun base => decide (base ≤ c.toNat ∧ c.toNat < base + 10)

/-- What `str.strip` takes off. -/
def isSpace (c : Char) : Bool :=
  decide (c.toNat ∈ [0x9, 0xa, 0xb, 0xc, 0xd, 0x1c, 0x1d, 0x1e, 0x1f, 0x20, 0x85, 0xa0, 0x1680,
    0x2000, 0x2001, 0x2002, 0x2003, 0x2004, 0x2005, 0x2006, 0x2007, 0x2008, 0x2009, 0x200a,
    0x2028, 0x2029, 0x202f, 0x205f, 0x3000])

/-- `not text.strip()`. -/
def isBlank (text : Text) : Bool := text.toList.all isSpace

/-! ## The turn marker -/

def turnMarker : Text := "This is turn "

def markerChars (turnNumber : ℕ) : List Char := (turnMarker ++ toString turnNumber).toList

/-- `re.search(rf"This is turn {turn_number}(?!\d)", text)`. -/
def carriesMarker (turnNumber : ℕ) (text : Text) : Bool :=
  text.toList.tails.any fun rest =>
    (markerChars turnNumber).isPrefixOf rest &&
      !(rest.drop (markerChars turnNumber).length).head?.any isDecimal

theorem carriesMarker_append {turnNumber : ℕ} (before : Text) {after : Text}
    (hafter : after.toList.head?.any isDecimal = false) :
    carriesMarker turnNumber (before ++ (turnMarker ++ toString turnNumber ++ after)) := by
  refine List.any_eq_true.mpr ⟨markerChars turnNumber ++ after.toList, ?_, ?_⟩
  · rw [List.mem_tails, markerChars, ← String.toList_append, String.toList_append (s := before)]
    exact List.suffix_append _ _
  · simp [hafter]

/-! ## Rendering -/

/-- `"\n\n".join(sections)`. -/
def joinSections (sections : List Text) : Text := "\n\n".intercalate sections

def jsonBlock (json : Text) : Text := "```json\n" ++ json ++ "\n```"

def renderReviewerMessage (wire : Wire) (request : ReviewerInvocation) : Text :=
  joinSections <|
    ["## Story under review", jsonBlock (wire.story request.story)] ++
    (match request.previousReview with
      | none => []
      | some review => ["## Previous review of this story (re-review baseline)",
          jsonBlock (wire.review review)]) ++
    (match request.extraContext with
      | none => []
      | some context => ["## Extra context from the Product Owner", context]) ++
    ["## Your task",
      "Produce the structured review of the story above, following your instructions."]

def renderSynthesisMessage (wire : Wire) (request : SynthesisInvocation) : Text :=
  let pair := fun (label lower : Text) (p : Perspective) =>
    [s!"## {label}", jsonBlock (wire.review (request.pairs p).report),
      s!"### Artifact reference for the {lower} (echo unchanged in `inputs`)",
      jsonBlock (wire.reference (request.pairs p).reference)]
  joinSections <|
    pair "Business review" "business review" .business ++
    pair "Engineering review" "engineering review" .engineering ++
    ["## Your task",
      "Merge the two reviews above into one synthesis report, following " ++
      "your instructions. Echo the two supplied artifact references " ++
      "unchanged as your `inputs`."]

def turnNote (turnNumber : ℕ) : Text :=
  if turnNumber = 1 then " — the opening turn (no PO message yet)." else "."

/-- The line that carries the turn marker. -/
def turnContext (wire : Wire) (request : FacilitatorInvocation) : Text :=
  s!"Story under review: {request.synthesisReport.storyId}. " ++
    s!"Story run: {wire.runId request.synthesisReference.storyRunId}. " ++
    (turnMarker ++ toString request.turnNumber ++ turnNote request.turnNumber)

def resolutionLine (item : ResolutionItem) : Text :=
  s!"- {item.issue}: {item.disposition.wire} (turn {item.turnNumber}) — " ++ item.explanation

def decisionSections (state : DecisionState) : List Text :=
  if state.resolutions = [] ∧ state.openIssues = [] then []
  else
    ["## Current decision state",
      "Latest recorded disposition per issue (authoritative — reconcile " ++
      "against this, not the conversation):\n" ++
      (if state.resolutions = [] then "- none"
        else "\n".intercalate (state.resolutions.map resolutionLine)),
      "Currently open issues: " ++
        (if state.openIssues = [] then "none" else ", ".intercalate state.openIssues)]

def evidenceLine (wire : Wire) (reference : ArtifactReference) : Text :=
  s!"- `{wire.artifactId reference.artifactId}` ({reference.type.wire}" ++
    (match reference.perspective with
      | none => ""
      | some perspective => s!", {perspective.wire}") ++
    s!", v{reference.version})"

/-- What follows the turn context. -/
def turnSections (wire : Wire) (request : FacilitatorInvocation) : List Text :=
  (match request.poMessage with
    | none => []
    | some message => ["## PO message", message]) ++
  (match request.decisionState with
    | none => []
    | some state => decisionSections state) ++
  ["## Latest synthesis report", jsonBlock (wire.synthesis request.synthesisReport),
    "### Synthesis artifact reference", jsonBlock (wire.reference request.synthesisReference)] ++
  (if request.evidenceReferences = [] then
    ["## Artifact references available as evidence",
      "None — no artifacts are readable this turn."]
  else
    ["## Artifact references available as evidence (this story run only)",
      "\n".intercalate (request.evidenceReferences.map (evidenceLine wire))]) ++
  ["## Your task",
    "Produce this turn's `FacilitatorTurnOutput` following your " ++
    "instructions. Artifact reads are limited to the references listed above."]

def renderFacilitatorMessage (wire : Wire) (request : FacilitatorInvocation) : Text :=
  joinSections ("## Turn context" :: turnContext wire request :: turnSections wire request)

/-- The re-prompt after an output that breaks a rule. -/
def correctiveMessage (reasons : Text) (turnNumber : ℕ) : Text :=
  turnMarker ++ toString turnNumber ++ (" (corrective re-prompt, same turn).\n\n" ++
    "Your previous reply was not a valid FacilitatorTurnOutput:\n" ++
    s!"{reasons}\n\n" ++
    "Reply again with a single corrected FacilitatorTurnOutput as JSON " ++
    "only — no prose outside the JSON object.")

/-! ## Every message carries its own marker -/

theorem head?_append {s : Text} {c : Char} (h : s.toList.head? = some c) (t : Text) :
    (s ++ t).toList.head? = some c := by
  rw [String.toList_append, List.head?_append, h, Option.some_or]

theorem head?_joinSections {s : Text} {c : Char} (h : s.toList.head? = some c)
    (rest : List Text) : (joinSections (s :: rest)).toList.head? = some c := by
  cases rest with
  | nil => rwa [joinSections, String.intercalate_singleton]
  | cons t rest =>
      rw [joinSections, String.intercalate_cons_cons, String.append_assoc]
      exact head?_append h _

theorem correctiveMessage_carriesMarker (reasons : Text) (turnNumber : ℕ) :
    carriesMarker turnNumber (correctiveMessage reasons turnNumber) := by
  have hspace : (" (corrective re-prompt, same turn).\n\n" : Text).toList.head? = some ' ' := rfl
  rw [← String.empty_append (s := correctiveMessage _ _)]
  refine carriesMarker_append _ ?_
  rw [String.append_assoc, String.append_assoc, String.append_assoc, head?_append hspace]
  decide

theorem head?_turnNote (turnNumber : ℕ) :
    ∃ c, (turnNote turnNumber).toList.head? = some c ∧ isDecimal c = false := by
  unfold turnNote
  split_ifs
  · exact ⟨' ', rfl, by decide⟩
  · exact ⟨'.', rfl, by decide⟩

theorem joinSections_marker (before after : Text) (turnNumber : ℕ) (rest : List Text) :
    joinSections ((before ++ (turnMarker ++ toString turnNumber ++ after)) :: rest) =
      before ++ (turnMarker ++ toString turnNumber ++ joinSections (after :: rest)) := by
  unfold joinSections
  rw [String.intercalate_cons_append, String.intercalate_cons_append]

theorem renderFacilitatorMessage_carriesMarker (wire : Wire) (request : FacilitatorInvocation) :
    carriesMarker request.turnNumber (renderFacilitatorMessage wire request) := by
  obtain ⟨c, hc, hdecimal⟩ := head?_turnNote request.turnNumber
  generalize hrest : turnSections wire request = rest
  have heq : renderFacilitatorMessage wire request = ("## Turn context" ++ "\n\n" ++
      (s!"Story under review: {request.synthesisReport.storyId}. " ++
        s!"Story run: {wire.runId request.synthesisReference.storyRunId}. ")) ++
      (turnMarker ++ toString request.turnNumber ++
        joinSections (turnNote request.turnNumber :: rest)) := by
    rw [String.append_assoc, ← joinSections_marker, ← hrest]
    exact String.intercalate_cons_cons
  rw [heq]
  refine carriesMarker_append _ ?_
  rw [head?_joinSections hc, Option.any_some, hdecimal]

end AgentEngine
end StoryReview
