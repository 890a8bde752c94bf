import Mathlib.Data.Finset.Dedup
import Mathlib.Data.Finset.Lattice.Basic
import Mathlib.Data.Finset.Card
import Mathlib.Data.Rat.Defs
import Mathlib.Algebra.Order.Ring.Unbundled.Rat
import StoryReview.Schemas

/-!
# The reviewer output fence

A pure post-processing of one review report: a finding that overlaps a settling
sentence of the story is dropped, and in a re-review with extra context a
finding that matches a previous one is clamped one severity below it. Overlap
is the overlap coefficient of content-word sets, an exact rational here.
-/
namespace StoryReview.OutputFence
open StoryReview

def stopwords : List String :=
  ["the", "a", "an", "and", "or", "of", "to", "in", "on", "for", "with", "by", "is", "are",
    "was", "were", "be", "been", "it", "its", "this", "that", "these", "those", "as", "at",
    "from", "not", "no", "but", "if", "then", "than", "so", "such", "can", "could",
    "should", "would", "will", "may", "might", "must", "do", "does", "did", "have", "has",
    "had", "their", "there", "when", "which", "who", "whom", "what", "where", "how", "all",
    "any", "each", "other", "more", "most", "some", "only", "own", "same", "too", "very",
    "just", "also", "into", "over", "under", "again", "further", "once", "you", "your",
    "our"]

def settlementMarkers : List String :=
  ["out of scope", "no additional", "exactly", "handled by the existing", "not in scope",
    "excluded", "no story-specific"]

def matchThreshold : ℚ := 35 / 100

def contextThreshold : ℚ := 20 / 100

/-- One severity level below; `info` findings are dropped instead. -/
def downgrade : Severity → Severity
  | .blocker => .major
  | .major => .minor
  | .minor => .info
  | .info => .info

inductive FenceRule where
  | scopeSettlement | reReviewClamp
deriving DecidableEq, Repr

structure FenceEvent where
  rule : FenceRule
  findingId : IssueId
  reference : Text
  similarity : ℚ
deriving DecidableEq

/-- `str.lower`, as far as it can produce a letter of a token: the two non-ASCII
characters with an ASCII letter in their lower case are the dotted capital I and
the Kelvin sign. -/
def lower (s : List Char) : List Char :=
  s.flatMap fun c =>
    if c = Char.ofNat 0x212A then ['k']
    else if c = Char.ofNat 0x130 then ['i', Char.ofNat 0x307]
    else [c.toLower]

/-- `\s` of a text pattern. -/
def isSpace (c : Char) : Bool :=
  c.toNat ∈ [0x20, 0x85, 0xA0, 0x1680, 0x2028, 0x2029, 0x202F, 0x205F, 0x3000] ||
    (0x9 ≤ c.toNat && c.toNat ≤ 0xD) || (0x1C ≤ c.toNat && c.toNat ≤ 0x1F) ||
    (0x2000 ≤ c.toNat && c.toNat ≤ 0x200A)

/-- Replace every match of `<[^>]+>` by a space; `inTag` skips to its end. -/
def stripTags (inTag : Bool) : List Char → List Char
  | [] => []
  | c :: rest =>
      if inTag then stripTags (c ≠ '>') rest
      else if c = '<' ∧ rest.head? ≠ some '>' ∧ '>' ∈ rest then ' ' :: stripTags true rest
      else c :: stripTags false rest

/-- Description, acceptance criteria and comment texts, joined with spaces. -/
def storyPlainText (story : StoryDetail) : List Char :=
  [' '].intercalate ((story.description :: story.acceptanceCriteria ++
    story.comments.map StoryComment.text).map fun part => stripTags false part.toList)

/-- Split at the matches of a separator; adjacent matches count as one. -/
def splitTokens (current : List Char) : List Char → List (List Char)
  | [] => [current.reverse]
  | c :: rest =>
      if ('a' ≤ c ∧ c ≤ 'z') ∨ ('0' ≤ c ∧ c ≤ '9') then splitTokens (c :: current) rest
      else current.reverse :: splitTokens [] rest

/-- Lower-cased alphanumeric tokens of at least three characters that are no
stopwords. -/
def contentTokens (text : List Char) : Finset String :=
  ((splitTokens [] (lower text)).filterMap fun token =>
    if 3 ≤ token.length ∧ String.ofList token ∉ stopwords then
      some (String.ofList token) else none).toFinset

/-- `|A ∩ B| / min(|A|, |B|)`, zero on empty sets. -/
def overlap (a b : Finset String) : ℚ :=
  if a = ∅ ∨ b = ∅ then 0 else (a ∩ b).card / (min a.card b.card : ℕ)

/-- Split after `.`, `!` or `?` at a run of white space, which is dropped. -/
def splitSentences (current : List Char) (afterStop dropping : Bool) :
    List Char → List (List Char)
  | [] => [current.reverse]
  | c :: rest =>
      if isSpace c ∧ dropping then splitSentences current false true rest
      else if isSpace c ∧ afterStop then current.reverse :: splitSentences [] false true rest
      else splitSentences (c :: current) (c = '.' ∨ c = '!' ∨ c = '?') false rest

/-- `marker in sentence`. -/
def contains (marker : List Char) : List Char → Bool
  | [] => marker.isEmpty
  | c :: rest => marker.isPrefixOf (c :: rest) || contains marker rest

def settlingClauses (storyText : List Char) : List (List Char) :=
  (splitSentences [] false false storyText).filter fun sentence =>
    settlementMarkers.any fun marker => contains marker.toList (lower sentence)

def findingTokens (finding : Finding) : Finset String :=
  contentTokens (finding.title.toList ++ ' ' :: finding.description.toList)

/-- Rule 1: drop findings materially overlapping a settling clause. -/
def applyScopeSettlement (findings : List Finding)
    (clauses : List (List Char × Finset String)) : List Finding × List FenceEvent :=
  findings.foldr (fun finding (kept, events) =>
    match clauses.find? fun clause =>
        decide (matchThreshold ≤ overlap (findingTokens finding) clause.2) with
    | some clause => (kept, ⟨.scopeSettlement, finding.id, String.ofList clause.1,
        overlap (findingTokens finding) clause.2⟩ :: events)
    | none => (finding :: kept, events)) ([], [])

/-- `max(…, key=similarity)`: the first best match at or above the threshold. -/
def bestMatch (tokens : Finset String) (previous : List Finding) : Option (Finding × ℚ) :=
  (previous.filterMap fun prev =>
    let similarity := overlap tokens (findingTokens prev)
    if matchThreshold ≤ similarity then some (prev, similarity) else none).foldl
      (fun best candidate =>
        match best with
        | none => some candidate
        | some b => if b.2 < candidate.2 then some candidate else some b) none

/-- Rule 2: clamp findings matching both a previous finding and the extra
context. -/
def applyReReviewClamp (findings : List Finding) (previousReview : ReviewReport)
    (extraContext : Text) : List Finding × List FenceEvent :=
  findings.foldr (fun finding (kept, events) =>
    let tokens := findingTokens finding
    match bestMatch tokens previousReview.findings with
    | some (prev, similarity) =>
        if contextThreshold ≤ overlap tokens (contentTokens extraContext.toList) then
          let event : FenceEvent := ⟨.reReviewClamp, finding.id, prev.id, similarity⟩
          if prev.severity = .info then (kept, event :: events)
          else ({ finding with severity := downgrade prev.severity } :: kept, event :: events)
        else (finding :: kept, events)
    | none => (finding :: kept, events)) ([], [])

def applyFence (report : ReviewReport) (storyText : List Char)
    (previousReview : Option ReviewReport) (extraContext : Option Text) :
    ReviewReport × List FenceEvent :=
  let clauses := (settlingClauses storyText).map fun clause => (clause, contentTokens clause)
  let settled := applyScopeSettlement report.findings clauses
  let clamped := match previousReview, extraContext with
    | some previous, some context =>
        if context = "" then (settled.1, []) else applyReReviewClamp settled.1 previous context
    | _, _ => (settled.1, [])
  let events := settled.2 ++ clamped.2
  if events = [] then (report, events) else ({ report with findings := clamped.1 }, events)

/-- The report that is persisted. -/
def fenceResult (report : ReviewReport) (story : StoryDetail)
    (previousReview : Option ReviewReport) (extraContext : Option Text) : ReviewReport :=
  (applyFence report (storyPlainText story) previousReview extraContext).1

@[simp] theorem fenceResult_perspective (report : ReviewReport) (story : StoryDetail)
    (previousReview : Option ReviewReport) (extraContext : Option Text) :
    (fenceResult report story previousReview extraContext).perspective =
      report.perspective := by
  simp only [fenceResult, applyFence]
  split_ifs <;> rfl

end StoryReview.OutputFence
