import StoryReview.Datetimes
import StoryReview.Errors
import StoryReview.OrderedDict
import StoryReview.OutputFenceLaws
import Mathlib.Data.List.DropRight

/-!
# The Markdown of a finalized review

A finalized review becomes a flat list of blocks, and each block one line of Markdown: free
text is written as it is. A line ends at a line feed or a carriage return.
-/
namespace StoryReview

/-! ## Pieces between separators -/

namespace Pieces
variable {α : Type} (p : α → Bool)

/-- The nonempty pieces of a list between the separators. -/
def pieces (xs : List α) : List (List α) := (xs.splitOnP p).filter fun piece => !piece.isEmpty

variable {p}

theorem pieces_append_cons (xs ys : List α) {sep : α} (hsep : p sep) :
    pieces p (xs ++ sep :: ys) = pieces p xs ++ pieces p ys := by
  rw [pieces, List.splitOnP_append_cons xs ys hsep, List.filter_append, pieces, pieces]

@[simp] theorem pieces_nil : pieces p [] = [] := rfl

theorem pieces_of_unbroken {xs : List α} (h : ∀ x ∈ xs, p x = false) (hne : xs ≠ []) :
    pieces p xs = [xs] := by
  rw [pieces, List.splitOnP_eq_singleton h]
  exact List.filter_cons_of_pos (by simp [hne])

theorem pieces_concat_sep (xs : List α) {sep : α} (hsep : p sep) :
    pieces p (xs ++ [sep]) = pieces p xs := by
  rw [pieces_append_cons xs [] hsep, pieces_nil, List.append_nil]

theorem unbroken_of_mem_splitOnP {xs piece : List α} (h : piece ∈ xs.splitOnP p) :
    ∀ x ∈ piece, p x = false := by
  induction xs generalizing piece with
  | nil =>
      obtain rfl := List.mem_singleton.mp h
      nofun
  | cons x xs ih =>
      rw [List.splitOnP_cons_eq_if_modifyHead] at h
      split_ifs at h with hx
      · rcases List.mem_cons.mp h with rfl | h
        · nofun
        · exact ih h
      · cases hsplit : xs.splitOnP p with
        | nil => exact absurd hsplit (List.splitOnP_ne_nil p xs)
        | cons first rest =>
            rw [hsplit] at h ih
            rcases List.mem_cons.mp h with rfl | h
            · intro y hy
              rcases List.mem_cons.mp hy with rfl | hy
              · exact Bool.eq_false_iff.mpr hx
              · exact ih List.mem_cons_self y hy
            · exact ih (List.mem_cons_of_mem _ h)

theorem unbroken_of_mem {xs piece : List α} (h : piece ∈ pieces p xs) :
    ∀ x ∈ piece, p x = false :=
  unbroken_of_mem_splitOnP (List.mem_of_mem_filter h)

/-- A list that does not end in a separator ends in its last piece. -/
theorem exists_last_piece (xs : List α) {x : α} (hx : p x = false) :
    ∃ init last, pieces p (xs ++ [x]) = init ++ [last ++ [x]] := by
  have hsplit : ∃ init last, (xs ++ [x]).splitOnP p = init ++ [last ++ [x]] := by
    induction xs with
    | nil => exact ⟨[], [], List.splitOnP_eq_singleton (by simpa using hx)⟩
    | cons y ys ih =>
        obtain ⟨init, last, h⟩ := ih
        rw [List.cons_append, List.splitOnP_cons_eq_if_modifyHead, h]
        split_ifs with hy
        · exact ⟨[] :: init, last, rfl⟩
        · cases init with
          | nil => exact ⟨[], y :: last, rfl⟩
          | cons first rest => exact ⟨(y :: first) :: rest, last, rfl⟩
  obtain ⟨init, last, h⟩ := hsplit
  refine ⟨init.filter fun piece => !piece.isEmpty, last, ?_⟩
  rw [pieces, h, List.filter_append, List.filter_cons_of_pos (by simp), List.filter_nil]

theorem intercalate_concat {sep : α} (last : List α) :
    ∀ {ls : List (List α)}, ls ≠ [] →
      [sep].intercalate (ls ++ [last]) = [sep].intercalate ls ++ sep :: last := by
  intro ls
  induction ls with
  | nil => exact fun h => absurd rfl h
  | cons l ls ih =>
      intro _
      by_cases hls : ls = []
      · subst hls
        simp [List.intercalate_cons_cons]
      · rw [List.cons_append, List.intercalate_cons_of_ne_nil (by simp), ih hls,
          List.intercalate_cons_of_ne_nil hls]
        simp

theorem pieces_intercalate {sep : α} (hsep : p sep) (ls : List (List α)) :
    pieces p ([sep].intercalate ls) = ls.flatMap (pieces p) := by
  induction ls using List.reverseRecOn with
  | nil => rfl
  | append_singleton ls last ih =>
      by_cases hls : ls = []
      · subst hls
        simp
      · rw [intercalate_concat last hls, pieces_append_cons _ _ hsep, ih]
        simp

end Pieces

/-! ## Blocks -/

namespace Markdown
open Pieces OutputFence

inductive BlockKind where
  | title | heading | para | bullet | numbered
deriving DecidableEq, Repr

structure Block where
  kind : BlockKind
  text : Text
deriving DecidableEq, Repr

def BlockKind.marker : BlockKind → List Char
  | .title => ['#', ' ']
  | .heading => ['#', '#', ' ']
  | .bullet => ['-', ' ']
  | .para => []
  | .numbered => []

/-- `^run-<uuid>$`. -/
def isRunId (id : Text) : Prop :=
  ∃ a b c d e : List Char, id.toList = "run-".toList ++ a ++ '-' :: b ++ '-' :: c ++ '-' :: d ++ '-' :: e ∧
    a.length = 8 ∧ b.length = 4 ∧ c.length = 4 ∧ d.length = 4 ∧ e.length = 12 ∧
    ∀ x ∈ a ++ b ++ c ++ d ++ e, x.isDigit ∨ ('a' ≤ x ∧ x ≤ 'f')

/-- A text as it leaves the validation of `Text`. -/
def isStripped (text : Text) : Prop :=
  stripWhitespace text.toList = text.toList ∧ isText text

/-- A validated review, without the synthesis reference. -/
structure FinalizedReview where
  storyId : StoryId
  storyRunId : Text
  issues : List IssueEntry
  resolutions : List ResolutionItem
  remainingOpenIssues : List IssueId
  poAccepted : Bool
  finalTurnNumber : ℕ
  finalizedAt : Datetime
  storyId_valid : isStoryId storyId
  storyRunId_valid : isRunId storyRunId
  issues_valid : issues.length ≤ 400 ∧ ∀ entry ∈ issues,
    isStripped entry.issue ∧ isStripped entry.title ∧ isStripped entry.description
  resolutions_valid : resolutions.length ≤ 200 ∧ ∀ item ∈ resolutions,
    isStripped item.issue ∧ isStripped item.explanation ∧ 1 ≤ item.turnNumber
  remaining_valid : remainingOpenIssues.length ≤ 100 ∧ ∀ issue ∈ remainingOpenIssues,
    isStripped issue
  finalTurnNumber_pos : 1 ≤ finalTurnNumber
  finalizedAt_aware : finalizedAt.utcoffset ≠ none
  accepted : remainingOpenIssues ≠ [] → poAccepted = true
  unique : (issues.map IssueEntry.issue).Nodup
  unsettled : ∀ issue ∈ remainingOpenIssues, ∀ item,
    (OrderedDict.ofList ResolutionItem.issue resolutions).get? issue = some item →
      ¬ item.disposition.Settled
  catalogued : ∀ issue, issue ∈ resolutions.map ResolutionItem.issue ∨ issue ∈ remainingOpenIssues →
    issue ∈ issues.map IssueEntry.issue

def severityWord : Severity → Text
  | .info => "info"
  | .minor => "minor"
  | .major => "major"
  | .blocker => "blocker"

def sourceWord : IssueSource → Text
  | .synthesis => "from synthesis"
  | .facilitator => "raised by facilitator"

namespace FinalizedReview
variable (content : FinalizedReview)

def catalog : OrderedDict IssueId IssueEntry := .ofList IssueEntry.issue content.issues

/-- An id with its title in the catalog, if it has one. -/
def label (issue : IssueId) : Text :=
  match content.catalog.get? issue with
  | some entry => issue ++ " — " ++ entry.title
  | none => issue

def issueBlock (entry : IssueEntry) : Block :=
  ⟨.bullet, entry.issue ++ " — " ++ entry.title ++ " (" ++ sourceWord entry.source ++
    (match entry.severity with
      | some severity => ", " ++ severityWord severity
      | none => "") ++ "): " ++ entry.description⟩

def resolutionText (item : ResolutionItem) : Text :=
  content.label item.issue ++ " — " ++ item.disposition.wire ++ " (turn " ++
    toString item.turnNumber ++ "): " ++ item.explanation

def resolutionBlock (item : ResolutionItem) (index : ℕ) : Block :=
  ⟨.numbered, toString index ++ ". " ++ content.resolutionText item⟩

/-- A list of blocks, or a paragraph that says there are none. -/
def orNone (blocks : List Block) : List Block :=
  if blocks = [] then [⟨.para, "None."⟩] else blocks

def header : List Block :=
  [⟨.title, "Story Review Report — " ++ content.storyId⟩,
    ⟨.para, "Story: " ++ content.storyId⟩,
    ⟨.para, "Story run: " ++ content.storyRunId⟩,
    ⟨.para, "Final turn: " ++ toString content.finalTurnNumber⟩,
    ⟨.para, "Finalized at: " ++ String.ofList content.finalizedAt.isoformat⟩,
    ⟨.heading, "Verdict"⟩,
    ⟨.para, "PO acceptance: " ++ if content.poAccepted then "accepted" else "not accepted"⟩,
    ⟨.heading, "Issues"⟩]

def documentBlocks : List Block :=
  content.header ++
  orNone (content.issues.map issueBlock) ++
  [⟨.heading, "Resolutions"⟩] ++
  orNone ((content.resolutions.zipIdx 1).map fun entry => content.resolutionBlock entry.1 entry.2) ++
  [⟨.heading, "Remaining open issues"⟩] ++
  orNone (content.remainingOpenIssues.map fun issue => ⟨.bullet, content.label issue⟩)

end FinalizedReview

/-- The line that a block is written as. -/
def Block.line (block : Block) : List Char := block.kind.marker ++ block.text.toList

def Block.lines (block : Block) : List (List Char) :=
  match block.kind with
  | .bullet => [block.line]
  | _ => [block.line, []]

/-- Joined, stripped on the right, ended by a line feed. -/
def writeBlocks (blocks : List Block) : List Char :=
  (['\n'].intercalate (blocks.flatMap Block.lines)).rdropWhile isSpace ++ ['\n']

def renderMarkdown (content : FinalizedReview) : Text :=
  String.ofList (writeBlocks content.documentBlocks)

/-! ## Reading the lines -/

def isLineBreak (c : Char) : Bool := c = '\n' || c = '\r'

/-- The line opens a heading or a list item. -/
def Opens (line : List Char) : Bool :=
  ['#', ' '].isPrefixOf line || ['#', '#', ' '].isPrefixOf line || ['-', ' '].isPrefixOf line

/-- The line that a title, a heading or a bullet opens with. -/
def Block.opening (block : Block) : Option (List Char) :=
  if block.kind.marker = [] then none else (block.line.splitOnP isLineBreak).head?

/-- A line that starts with a number and a period. -/
def isNumbered (line : List Char) : Bool :=
  !(line.takeWhile Char.isDigit).isEmpty && ['.', ' '].isPrefixOf (line.dropWhile Char.isDigit)

def readLine (line : List Char) : Block :=
  if ['#', '#', ' '].isPrefixOf line then ⟨.heading, String.ofList (line.drop 3)⟩
  else if ['#', ' '].isPrefixOf line then ⟨.title, String.ofList (line.drop 2)⟩
  else if ['-', ' '].isPrefixOf line then ⟨.bullet, String.ofList (line.drop 2)⟩
  else if isNumbered line then ⟨.numbered, String.ofList line⟩
  else ⟨.para, String.ofList line⟩

/-- A block a line, blank lines between them. -/
def readBlocks (text : Text) : List Block := (pieces isLineBreak text.toList).map readLine

/-- The lines that open a heading or a list item are those of the blocks that do, in their
order. -/
def KeepsStructure (content : FinalizedReview) : Prop :=
  ((renderMarkdown content).toList.splitOnP isLineBreak).filter Opens =
    content.documentBlocks.filterMap Block.opening

/-- No text of the review has a line break, and the last block does not end in whitespace,
which can only be a separator control character. -/
structure Unbroken (content : FinalizedReview) : Prop where
  issues : ∀ entry ∈ content.issues,
    ∀ text ∈ [entry.issue, entry.title, entry.description], ∀ c ∈ text.toList, ¬ isLineBreak c
  resolutions : ∀ item ∈ content.resolutions,
    ∀ text ∈ [item.issue, item.explanation], ∀ c ∈ text.toList, ¬ isLineBreak c
  remaining : ∀ issue ∈ content.remainingOpenIssues, ∀ c ∈ issue.toList, ¬ isLineBreak c
  last : ∀ issue ∈ content.remainingOpenIssues.getLast?,
    ∀ c ∈ (content.label issue).toList.getLast?, ¬ isSpace c

/-! ## A block and its line -/

/-- What tells a paragraph and a numbered item from the other lines. -/
def Block.Shaped (block : Block) : Prop :=
  match block.kind with
  | .para => ∃ c rest, block.text.toList = c :: rest ∧ c ≠ '#' ∧ c ≠ '-' ∧ ¬ c.isDigit
  | .numbered => ∃ number rest, block.text.toList = number ++ '.' :: ' ' :: rest ∧ number ≠ [] ∧
      ∀ d ∈ number, d.isDigit
  | _ => True

theorem ofList_drop_append (marker : List Char) (text : Text) :
    String.ofList ((marker ++ text.toList).drop marker.length) = text := by
  rw [List.drop_left, String.ofList_toList]

theorem isNumbered_append {number rest : List Char} (hne : number ≠ [])
    (hdigits : ∀ d ∈ number, d.isDigit) : isNumbered (number ++ '.' :: ' ' :: rest) = true := by
  have htake : (number ++ '.' :: ' ' :: rest).takeWhile Char.isDigit = number := by
    rw [List.takeWhile_append_of_pos hdigits]
    simp
  have hdrop : (number ++ '.' :: ' ' :: rest).dropWhile Char.isDigit = '.' :: ' ' :: rest := by
    rw [List.dropWhile_append_of_pos hdigits]
    simp
  simp [isNumbered, htake, hdrop, hne]

theorem readLine_cons {c : Char} (rest : List Char) (hhash : c ≠ '#') (hdash : c ≠ '-') :
    readLine (c :: rest) =
      if isNumbered (c :: rest) then ⟨.numbered, String.ofList (c :: rest)⟩
      else ⟨.para, String.ofList (c :: rest)⟩ := by
  simp [readLine, List.isPrefixOf, hhash.symm, hdash.symm]

/-- The line of a block is read as that block. -/
theorem readLine_line {block : Block} (h : block.Shaped) : readLine block.line = block := by
  obtain ⟨kind, text⟩ := block
  cases kind with
  | title =>
      have hread : readLine (['#', ' '] ++ text.toList) =
          ⟨.title, String.ofList ((['#', ' '] ++ text.toList).drop 2)⟩ := rfl
      exact hread.trans (congrArg _ (ofList_drop_append ['#', ' '] text))
  | heading =>
      have hread : readLine (['#', '#', ' '] ++ text.toList) =
          ⟨.heading, String.ofList ((['#', '#', ' '] ++ text.toList).drop 3)⟩ := rfl
      exact hread.trans (congrArg _ (ofList_drop_append ['#', '#', ' '] text))
  | bullet =>
      have hread : readLine (['-', ' '] ++ text.toList) =
          ⟨.bullet, String.ofList ((['-', ' '] ++ text.toList).drop 2)⟩ := rfl
      exact hread.trans (congrArg _ (ofList_drop_append ['-', ' '] text))
  | para =>
      obtain ⟨c, rest, htext, hhash, hdash, hdigit⟩ := h
      have hnumbered : isNumbered (c :: rest) = false := by simp [isNumbered, hdigit]
      show readLine text.toList = _
      rw [show text.toList = c :: rest from htext, readLine_cons rest hhash hdash, hnumbered,
        if_neg Bool.false_ne_true, ← show text.toList = c :: rest from htext, String.ofList_toList]
  | numbered =>
      obtain ⟨number, rest, htext, hne, hdigits⟩ := h
      obtain ⟨d, ds, rfl⟩ := List.exists_cons_of_ne_nil hne
      have hd : d.isDigit := hdigits d List.mem_cons_self
      have hhash : d ≠ '#' := fun h => absurd (h ▸ hd) (by decide)
      have hdash : d ≠ '-' := fun h => absurd (h ▸ hd) (by decide)
      have hnumbered : isNumbered (d :: ds ++ '.' :: ' ' :: rest) = true :=
        isNumbered_append hne hdigits
      show readLine text.toList = _
      rw [show text.toList = _ from htext, List.cons_append, readLine_cons _ hhash hdash,
        ← List.cons_append, if_pos hnumbered, ← show text.toList = _ from htext,
        String.ofList_toList]

theorem marker_append_drop {marker line : List Char} (h : marker.isPrefixOf line) :
    marker ++ (line.drop marker.length) = line := by
  obtain ⟨rest, rfl⟩ := List.isPrefixOf_iff_prefix.mp h
  rw [List.drop_left]

/-- What is read from a line is written as that line. -/
theorem line_readLine (line : List Char) : (readLine line).line = line := by
  unfold readLine
  split_ifs with hheading htitle hbullet
  · simpa [Block.line, BlockKind.marker] using marker_append_drop hheading
  · simpa [Block.line, BlockKind.marker] using marker_append_drop htitle
  · simpa [Block.line, BlockKind.marker] using marker_append_drop hbullet
  · simp [Block.line, BlockKind.marker]
  · simp [Block.line, BlockKind.marker]

theorem mem_line_of_mem_text {block : Block} {c : Char} (h : c ∈ block.text.toList) :
    c ∈ block.line :=
  List.mem_append_right _ h

/-- A block without a marker starts like no other line. -/
theorem Block.Shaped.head {block : Block} (h : block.Shaped) (hmarker : block.kind.marker = []) :
    ∃ c rest, block.line = c :: rest ∧ c ≠ '#' ∧ c ≠ '-' := by
  obtain ⟨kind, text⟩ := block
  cases kind with
  | title => cases hmarker
  | heading => cases hmarker
  | bullet => cases hmarker
  | para =>
      obtain ⟨c, rest, htext, hhash, hdash, -⟩ := h
      exact ⟨c, rest, htext, hhash, hdash⟩
  | numbered =>
      obtain ⟨number, rest, htext, hne, hdigits⟩ := h
      obtain ⟨d, ds, rfl⟩ := List.exists_cons_of_ne_nil hne
      have hd : d.isDigit := hdigits d List.mem_cons_self
      exact ⟨d, _, htext, fun h => absurd (h ▸ hd) (by decide), fun h => absurd (h ▸ hd) (by decide)⟩

theorem line_ne_nil {block : Block} (h : block.Shaped) : block.line ≠ [] := by
  by_cases hmarker : block.kind.marker = []
  · obtain ⟨c, rest, hline, -⟩ := h.head hmarker
    simp [hline]
  · simp [Block.line, hmarker]

/-- The lines that open a heading or a list item are those with a marker. -/
theorem opens_line {block : Block} (h : block.Shaped) :
    Opens block.line = !block.kind.marker.isEmpty := by
  by_cases hmarker : block.kind.marker = []
  · obtain ⟨c, rest, hline, hhash, hdash⟩ := h.head hmarker
    rw [hline, hmarker]
    simp [Opens, List.isPrefixOf, hhash.symm, hdash.symm]
  · obtain ⟨kind, text⟩ := block
    cases kind with
    | title => rfl
    | heading => rfl
    | bullet => rfl
    | para => exact absurd rfl hmarker
    | numbered => exact absurd rfl hmarker

/-! ## The written lines -/

/-- Written without a line break inside. -/
def Block.Plain (block : Block) : Prop := ∀ c ∈ block.line, isLineBreak c = false

theorem pieces_lines {blocks : List Block} (h : ∀ block ∈ blocks, block.Shaped ∧ block.Plain) :
    (blocks.flatMap Block.lines).flatMap (pieces isLineBreak) = blocks.map Block.line := by
  induction blocks with
  | nil => rfl
  | cons block rest ih =>
      obtain ⟨⟨hshaped, hplain⟩, hrest⟩ := List.forall_mem_cons.mp h
      have hline := pieces_of_unbroken hplain (line_ne_nil hshaped)
      rw [List.flatMap_cons, List.flatMap_append, ih hrest, List.map_cons]
      unfold Block.lines
      cases block.kind <;> simp [hline]

theorem exists_written (blocks : List Block) (block : Block) :
    ∃ body, (∃ start, body = start ++ block.line) ∧
      ['\n'].intercalate ((blocks ++ [block]).flatMap Block.lines) ∈ [body, body ++ ['\n']] := by
  refine ⟨['\n'].intercalate (blocks.flatMap Block.lines ++ [block.line]), ?_, ?_⟩
  · by_cases hblocks : blocks.flatMap Block.lines = []
    · exact ⟨[], by simp [hblocks]⟩
    · exact ⟨['\n'].intercalate (blocks.flatMap Block.lines) ++ ['\n'], by
        rw [intercalate_concat _ hblocks]
        simp⟩
  · have hne : blocks.flatMap Block.lines ++ [block.line] ≠ [] := by simp
    have hblank : ['\n'].intercalate (blocks.flatMap Block.lines ++ [block.line] ++ [[]]) = _ :=
      intercalate_concat [] hne
    rw [List.append_assoc] at hblank
    rw [List.flatMap_append, List.flatMap_cons, List.flatMap_nil, List.append_nil]
    unfold Block.lines
    cases block.kind with
    | bullet => exact List.mem_cons_self
    | _ => exact List.mem_cons_of_mem _ (List.mem_singleton.mpr hblank)

/-- When the last line ends in no space, stripping takes off line feeds only. -/
theorem pieces_writeBlocks {blocks : List Block} {block : Block}
    (h : ∀ b ∈ blocks ++ [block], b.Shaped ∧ b.Plain)
    (hlast : ∀ c ∈ block.line.getLast?, ¬ isSpace c) :
    pieces isLineBreak (writeBlocks (blocks ++ [block])) =
      (blocks ++ [block]).map Block.line := by
  have hne : block.line ≠ [] := line_ne_nil (h block (by simp)).1
  obtain ⟨body, ⟨start, hbody⟩, hjoin⟩ := exists_written blocks block
  have hstrip : body.rdropWhile isSpace = body := by
    rw [List.rdropWhile_eq_self_iff]
    intro hl hspace
    refine hlast _ ?_ hspace
    rw [Option.mem_def, ← List.getLast?_append_of_ne_nil start hne, ← hbody,
      List.getLast?_eq_some_getLast hl]
  have hwritten : writeBlocks (blocks ++ [block]) = body ++ ['\n'] ∧
      pieces isLineBreak (['\n'].intercalate ((blocks ++ [block]).flatMap Block.lines)) =
        pieces isLineBreak body := by
    unfold writeBlocks
    rcases List.mem_pair.mp hjoin with hjoin | hjoin
    · rw [hjoin, hstrip]
      exact ⟨rfl, rfl⟩
    · rw [hjoin, List.rdropWhile_concat_pos _ _ _ (by decide), hstrip]
      exact ⟨rfl, pieces_concat_sep _ (by decide)⟩
  rw [hwritten.1, pieces_concat_sep _ (by decide), ← hwritten.2,
    pieces_intercalate (by decide), pieces_lines h]

/-- What is written ends in a character that is no space, or says nothing. -/
theorem writeBlocks_last (blocks : List Block) :
    pieces isLineBreak (writeBlocks blocks) = [] ∨
      ∃ init last c, pieces isLineBreak (writeBlocks blocks) = init ++ [last ++ [c]] ∧
        ¬ isSpace c := by
  unfold writeBlocks
  rw [pieces_concat_sep _ (by decide)]
  generalize ['\n'].intercalate (blocks.flatMap Block.lines) = joined
  by_cases hnil : joined.rdropWhile isSpace = []
  · exact .inl (by rw [hnil, pieces_nil])
  · refine .inr ?_
    have hspace := List.rdropWhile_last_not isSpace joined hnil
    rw [← List.dropLast_append_getLast hnil]
    generalize (joined.rdropWhile isSpace).getLast hnil = c at hspace
    have hbreak : isLineBreak c = false := by
      by_contra h
      rw [Bool.not_eq_false, isLineBreak, Bool.or_eq_true, decide_eq_true_eq,
        decide_eq_true_eq] at h
      rcases h with rfl | rfl
      · exact hspace (by decide)
      · exact hspace (by decide)
    obtain ⟨init, last, h⟩ := exists_last_piece (joined.rdropWhile isSpace).dropLast hbreak
    exact ⟨init, last, c, h, hspace⟩

/-! ## The blocks of a review -/

def PlainText (text : Text) : Prop := ∀ c ∈ text.toList, isLineBreak c = false

instance (text : Text) : Decidable (PlainText text) :=
  List.decidableBAll (fun c => isLineBreak c = false) text.toList

theorem PlainText.append {a b : Text} (ha : PlainText a) (hb : PlainText b) :
    PlainText (a ++ b) := by
  unfold PlainText
  rw [String.toList_append]
  exact List.forall_mem_append.mpr ⟨ha, hb⟩

theorem PlainText.of_append {a b : Text} (h : PlainText (a ++ b)) : PlainText a ∧ PlainText b := by
  unfold PlainText at h
  rw [String.toList_append] at h
  exact List.forall_mem_append.mp h

theorem isLineBreak_of_isDigit {c : Char} (h : c.isDigit) : isLineBreak c = false := by
  by_contra hbreak
  rw [Bool.not_eq_false, isLineBreak, Bool.or_eq_true, decide_eq_true_eq,
    decide_eq_true_eq] at hbreak
  rcases hbreak with rfl | rfl
  · exact absurd h (by decide)
  · exact absurd h (by decide)

theorem isDigit_toString {n : ℕ} : ∀ c ∈ (toString n).toList, c.isDigit := by
  intro c hc
  rw [Nat.toString_eq_repr, Nat.toList_repr] at hc
  exact Nat.isDigit_of_mem_toDigits (by decide) (by decide) hc

theorem plain_toString (n : ℕ) : PlainText (toString n) := fun c hc =>
  isLineBreak_of_isDigit (isDigit_toString c hc)

theorem toString_ne_nil (n : ℕ) : (toString n).toList ≠ [] := by
  rw [Nat.toString_eq_repr, Nat.toList_repr]
  exact Nat.toDigits_ne_nil

theorem plain_isoformat (d : Datetime) : PlainText (String.ofList d.isoformat) := by
  intro c hc
  rw [String.toList_ofList] at hc
  rcases Datetime.isIso_isoformat d c hc with ⟨n, hn, rfl⟩ | hc
  · have hdigit : ∀ m < 10, (Decimal.digit m).isDigit := by decide
    exact isLineBreak_of_isDigit (hdigit n hn)
  · have hwords : PlainText "-T:.+" := by decide
    exact hwords c hc

theorem plain_storyId {id : StoryId} (h : isStoryId id) : PlainText id := by
  intro c hc
  have hstory : PlainText "story-" := by decide
  have hado : PlainText "ado-" := by decide
  rcases h with ⟨n, hid, -, hdigits⟩ | ⟨n, hid, -, -, hdigits⟩
  · rw [hid] at hc
    rcases List.mem_append.mp hc with hc | hc
    · exact hstory c hc
    · exact isLineBreak_of_isDigit (hdigits c hc)
  · rw [hid] at hc
    rcases List.mem_append.mp hc with hc | hc
    · exact hado c hc
    · exact isLineBreak_of_isDigit (hdigits c hc)

theorem isLineBreak_of_hex {c : Char} (h : c.isDigit ∨ ('a' ≤ c ∧ c ≤ 'f')) :
    isLineBreak c = false := by
  rcases h with h | h
  · exact isLineBreak_of_isDigit h
  · by_contra hbreak
    rw [Bool.not_eq_false, isLineBreak, Bool.or_eq_true, decide_eq_true_eq,
      decide_eq_true_eq] at hbreak
    rcases hbreak with rfl | rfl
    · exact absurd h (by decide)
    · exact absurd h (by decide)

theorem plain_runId {id : Text} (h : isRunId id) : PlainText id := by
  obtain ⟨a, b, c, d, e, hid, -, -, -, -, -, hhex⟩ := h
  have hwords : PlainText "run-" := by decide
  have hdash : isLineBreak '-' = false := by decide
  intro x hx
  have hmem : x ∈ "run-".toList ∨ x = '-' ∨ x ∈ a ++ b ++ c ++ d ++ e := by
    rw [hid] at hx
    simp only [List.mem_append, List.mem_cons] at hx ⊢
    grind
  rcases hmem with hx | rfl | hx
  · exact hwords x hx
  · rfl
  · exact isLineBreak_of_hex (hhex x hx)

theorem plain_severityWord (severity : Severity) : PlainText (severityWord severity) := by
  cases severity <;> decide

theorem plain_sourceWord (source : IssueSource) : PlainText (sourceWord source) := by
  cases source <;> decide

theorem plain_wire (disposition : Disposition) : PlainText disposition.wire := by
  cases disposition <;> decide

theorem forall_orNone {P : Block → Prop} {blocks : List Block} (hnone : P ⟨.para, "None."⟩)
    (h : ∀ block ∈ blocks, P block) : ∀ block ∈ FinalizedReview.orNone blocks, P block := by
  unfold FinalizedReview.orNone
  split_ifs
  · exact List.forall_mem_singleton.mpr hnone
  · exact h

/-- A property of all blocks of a review, kind by kind. -/
theorem forall_documentBlocks {content : FinalizedReview} {P : Block → Prop}
    (hheader : ∀ block ∈ content.header, P block) (hnone : P ⟨.para, "None."⟩)
    (hheading : ∀ word ∈ ["Resolutions", "Remaining open issues"], P ⟨.heading, word⟩)
    (hissues : ∀ entry ∈ content.issues, P (FinalizedReview.issueBlock entry))
    (hresolutions : ∀ item ∈ content.resolutions, ∀ n, P (content.resolutionBlock item n))
    (hremaining : ∀ issue ∈ content.remainingOpenIssues, P ⟨.bullet, content.label issue⟩) :
    ∀ block ∈ content.documentBlocks, P block := by
  unfold FinalizedReview.documentBlocks
  simp only [List.forall_mem_append, List.forall_mem_singleton]
  refine ⟨⟨⟨⟨⟨hheader, forall_orNone hnone ?_⟩, ?_⟩, forall_orNone hnone ?_⟩, ?_⟩,
    forall_orNone hnone ?_⟩
  · exact List.forall_mem_map.mpr hissues
  · exact hheading _ (by simp)
  · rw [List.forall_mem_map]
    intro entry hentry
    exact hresolutions _ (List.fst_mem_of_mem_zipIdx hentry) _
  · exact hheading _ (by simp)
  · exact List.forall_mem_map.mpr hremaining

theorem shaped_documentBlocks (content : FinalizedReview) :
    ∀ block ∈ content.documentBlocks, block.Shaped := by
  have hword : ∀ {word : Text} {c : Char} {cs : List Char} (rest : Text),
      word.toList = c :: cs → c ≠ '#' ∧ c ≠ '-' ∧ ¬ c.isDigit →
        Block.Shaped ⟨.para, word ++ rest⟩ := fun rest hword hc =>
    ⟨_, _, by rw [String.toList_append, hword]; rfl, hc⟩
  apply forall_documentBlocks
  · unfold FinalizedReview.header
    simp only [List.forall_mem_cons]
    refine ⟨trivial, hword _ rfl (by decide), hword _ rfl (by decide), hword _ rfl (by decide),
      hword _ rfl (by decide), trivial, hword _ rfl (by decide), trivial, nofun⟩
  · exact ⟨'N', "one.".toList, rfl, by decide⟩
  · exact fun _ _ => trivial
  · exact fun _ _ => trivial
  · intro item _ n
    refine ⟨(toString n).toList, (content.resolutionText item).toList, ?_, toString_ne_nil n,
      isDigit_toString⟩
    simp only [FinalizedReview.resolutionBlock, String.toList_append, List.append_assoc]
    rfl
  · exact fun _ _ => trivial

theorem plain_of_text {kind : BlockKind} {text : Text} (h : PlainText text) :
    Block.Plain ⟨kind, text⟩ := by
  have hmarker : ∀ c ∈ kind.marker, isLineBreak c = false := by
    cases kind <;> simp [BlockKind.marker, isLineBreak]
  exact List.forall_mem_append.mpr ⟨hmarker, h⟩

theorem get?_catalog_mem {content : FinalizedReview} {issue : IssueId} {entry : IssueEntry}
    (h : content.catalog.get? issue = some entry) : entry ∈ content.issues := by
  unfold FinalizedReview.catalog at h
  rw [OrderedDict.get?_ofList] at h
  exact List.mem_reverse.mp (List.mem_of_find?_eq_some h)

theorem PlainText.of_not {text : Text} (h : ∀ c ∈ text.toList, ¬ isLineBreak c) :
    PlainText text :=
  fun c hc => Bool.eq_false_iff.mpr (h c hc)

theorem Unbroken.plain_label {content : FinalizedReview} (h : Unbroken content) {issue : IssueId}
    (hissue : PlainText issue) : PlainText (content.label issue) := by
  unfold FinalizedReview.label
  cases hentry : content.catalog.get? issue with
  | none => exact hissue
  | some entry =>
      have htitle : PlainText entry.title :=
        .of_not (h.issues entry (get?_catalog_mem hentry) entry.title (by simp))
      exact (hissue.append (by decide)).append htitle

theorem Unbroken.plain {content : FinalizedReview} (h : Unbroken content) :
    ∀ block ∈ content.documentBlocks, block.Plain := by
  apply forall_documentBlocks
  · unfold FinalizedReview.header
    simp only [List.forall_mem_cons]
    refine ⟨plain_of_text (.append (by decide) (plain_storyId content.storyId_valid)),
      plain_of_text (.append (by decide) (plain_storyId content.storyId_valid)),
      plain_of_text (.append (by decide) (plain_runId content.storyRunId_valid)),
      plain_of_text (.append (by decide) (plain_toString _)),
      plain_of_text (.append (by decide) (plain_isoformat _)), plain_of_text (by decide),
      plain_of_text (.append (by decide) ?_), plain_of_text (by decide), nofun⟩
    split_ifs <;> decide
  · exact plain_of_text (by decide)
  · intro word hword
    have hplain : ∀ word ∈ ["Resolutions", "Remaining open issues"], PlainText word := by decide
    exact plain_of_text (hplain word hword)
  · intro entry hentry
    have htext : ∀ text ∈ [entry.issue, entry.title, entry.description], PlainText text :=
      fun text htext => .of_not (h.issues entry hentry text htext)
    have hseverity : PlainText (match entry.severity with
        | some severity => ", " ++ severityWord severity
        | none => "") := by
      cases entry.severity with
      | none => decide
      | some severity => exact .append (by decide) (plain_severityWord severity)
    exact plain_of_text ((((((((htext _ (by simp)).append (by decide)).append
      (htext _ (by simp))).append (by decide)).append (plain_sourceWord _)).append
        hseverity).append (by decide)).append (htext _ (by simp)))
  · intro item hitem n
    have htext : ∀ text ∈ [item.issue, item.explanation], PlainText text :=
      fun text htext => .of_not (h.resolutions item hitem text htext)
    have hlabel := h.plain_label (htext item.issue (by simp))
    exact plain_of_text (((plain_toString n).append (by decide)).append
      ((((((hlabel.append (by decide)).append (plain_wire _)).append (by decide)).append
        (plain_toString _)).append (by decide)).append (htext _ (by simp))))
  · exact fun issue hissue => plain_of_text (h.plain_label (.of_not (h.remaining issue hissue)))

/-! ## Reading a review back -/

theorem mem_orNone {blocks : List Block} {block : Block} (h : block ∈ blocks) :
    block ∈ FinalizedReview.orNone blocks := by
  rwa [FinalizedReview.orNone, if_neg (List.ne_nil_of_mem h)]

theorem issueBlock_mem {content : FinalizedReview} {entry : IssueEntry}
    (h : entry ∈ content.issues) :
    FinalizedReview.issueBlock entry ∈ content.documentBlocks := by
  have hblock := mem_orNone (List.mem_map_of_mem (f := FinalizedReview.issueBlock) h)
  simp only [FinalizedReview.documentBlocks, List.mem_append, hblock, true_or, or_true]

theorem exists_resolutionBlock_mem {content : FinalizedReview} {item : ResolutionItem}
    (h : item ∈ content.resolutions) : ∃ n, content.resolutionBlock item n ∈
      content.documentBlocks := by
  rw [← List.zipIdx_map_fst 1 content.resolutions] at h
  obtain ⟨entry, hentry, rfl⟩ := List.mem_map.mp h
  have hblock := mem_orNone (List.mem_map_of_mem
    (f := fun entry : ResolutionItem × ℕ => content.resolutionBlock entry.1 entry.2) hentry)
  refine ⟨entry.2, ?_⟩
  simp only [FinalizedReview.documentBlocks, List.mem_append, hblock, true_or, or_true]

theorem label_mem {content : FinalizedReview} {issue : IssueId}
    (h : issue ∈ content.remainingOpenIssues) :
    ⟨.bullet, content.label issue⟩ ∈ content.documentBlocks := by
  have hblock := mem_orNone (List.mem_map_of_mem
    (f := fun issue => (⟨.bullet, content.label issue⟩ : Block)) h)
  simp only [FinalizedReview.documentBlocks, List.mem_append, hblock, or_true]

theorem plain_issue_of_label {content : FinalizedReview} {issue : IssueId}
    (h : PlainText (content.label issue)) : PlainText issue := by
  unfold FinalizedReview.label at h
  cases hentry : content.catalog.get? issue with
  | none => rwa [hentry] at h
  | some entry =>
      rw [hentry] at h
      exact h.of_append.1.of_append.1

theorem exists_last_orNone {α : Type} (f : α → Block) (xs : List α) :
    ∃ init last, FinalizedReview.orNone (xs.map f) = init ++ [last] ∧
      ((xs = [] ∧ last = ⟨.para, "None."⟩) ∨ ∃ x, xs.getLast? = some x ∧ last = f x) := by
  rcases List.eq_nil_or_concat xs with rfl | ⟨init, x, rfl⟩
  · exact ⟨[], _, rfl, .inl ⟨rfl, rfl⟩⟩
  · rw [List.concat_eq_append]
    refine ⟨init.map f, f x, ?_, .inr ⟨x, List.getLast?_concat, rfl⟩⟩
    simp [FinalizedReview.orNone]

/-- The last block is the last remaining open issue, or says that there is none. -/
theorem exists_last_block (content : FinalizedReview) :
    ∃ blocks block, content.documentBlocks = blocks ++ [block] ∧
      ((content.remainingOpenIssues = [] ∧ block = ⟨.para, "None."⟩) ∨
        ∃ issue, content.remainingOpenIssues.getLast? = some issue ∧
          block = ⟨.bullet, content.label issue⟩) := by
  obtain ⟨init, last, horNone, hlast⟩ := exists_last_orNone
    (fun issue => ⟨.bullet, content.label issue⟩) content.remainingOpenIssues
  unfold FinalizedReview.documentBlocks
  rw [horNone, ← List.append_assoc]
  exact ⟨_, last, rfl, hlast⟩

theorem label_ne_nil {content : FinalizedReview} {issue : IssueId}
    (h : issue ∈ content.remainingOpenIssues) : (content.label issue).toList ≠ [] := by
  have hissue : issue.toList ≠ [] := by
    have hstripped := content.remaining_valid.2 issue h
    rw [← hstripped.1]
    exact hstripped.2.1
  unfold FinalizedReview.label
  cases content.catalog.get? issue with
  | none => exact hissue
  | some entry => simp [String.toList_append, hissue]

theorem text_sub_line {line : List Char} {block : Block} (h : readLine line = block) :
    ∀ c ∈ block.text.toList, c ∈ line := by
  intro c hc
  rw [← line_readLine line, h]
  exact mem_line_of_mem_text hc

/-- The blocks can be read off the lines exactly if no text breaks a line. -/
theorem readBlocks_renderMarkdown (content : FinalizedReview) :
    readBlocks (renderMarkdown content) = content.documentBlocks ↔ Unbroken content := by
  unfold readBlocks renderMarkdown
  rw [String.toList_ofList]
  obtain ⟨blocks, block, hblocks, hlast⟩ := exists_last_block content
  constructor
  · intro hread
    have hplain : ∀ b ∈ content.documentBlocks, PlainText b.text := by
      intro b hb
      rw [← hread] at hb
      obtain ⟨line, hline, rfl⟩ := List.mem_map.mp hb
      exact fun c hc => unbroken_of_mem hline c (text_sub_line rfl c hc)
    have hissue : ∀ entry ∈ content.issues,
        PlainText entry.issue ∧ PlainText entry.title ∧ PlainText entry.description := by
      intro entry hentry
      have htext := (hplain _ (issueBlock_mem hentry)).of_append
      have htitle := htext.1.of_append.1.of_append.1.of_append.1.of_append.1.of_append
      exact ⟨htitle.1.of_append.1, htitle.2, htext.2⟩
    have hresolution : ∀ item ∈ content.resolutions,
        PlainText item.issue ∧ PlainText item.explanation := by
      intro item hitem
      obtain ⟨n, hn⟩ := exists_resolutionBlock_mem hitem
      have htext := (hplain _ hn).of_append.2.of_append
      have hlabel := htext.1.of_append.1.of_append.1.of_append.1.of_append.1.of_append.1
      exact ⟨plain_issue_of_label hlabel, htext.2⟩
    have hremaining : ∀ issue ∈ content.remainingOpenIssues, PlainText issue := fun issue h =>
      plain_issue_of_label (hplain _ (label_mem h))
    refine ⟨?_, ?_, ?_, ?_⟩
    · intro entry hentry text htext c hc
      obtain ⟨hid, htitle, hdescription⟩ := hissue entry hentry
      simp only [List.mem_cons, List.not_mem_nil, or_false] at htext
      rcases htext with rfl | rfl | rfl
      · exact Bool.eq_false_iff.mp (hid c hc)
      · exact Bool.eq_false_iff.mp (htitle c hc)
      · exact Bool.eq_false_iff.mp (hdescription c hc)
    · intro item hitem text htext c hc
      obtain ⟨hid, hexplanation⟩ := hresolution item hitem
      simp only [List.mem_cons, List.not_mem_nil, or_false] at htext
      rcases htext with rfl | rfl
      · exact Bool.eq_false_iff.mp (hid c hc)
      · exact Bool.eq_false_iff.mp (hexplanation c hc)
    · exact fun issue hissue c hc => Bool.eq_false_iff.mp (hremaining issue hissue c hc)
    · intro issue hgetLast c hc hspace
      rcases hlast with ⟨hnil, -⟩ | ⟨issue', hissue', rfl⟩
      · rw [hnil] at hgetLast
        cases hgetLast
      · obtain rfl := Option.some.inj (hissue'.symm.trans hgetLast)
        rcases writeBlocks_last content.documentBlocks with hnone | ⟨init, last, d, hpieces, hd⟩
        · rw [hnone, hblocks] at hread
          simp at hread
        · rw [hpieces, hblocks, List.map_append] at hread
          have hread := List.singleton_inj.mp (List.append_inj_right' hread rfl)
          have hline := (congrArg Block.line hread).symm.trans (line_readLine (last ++ [d]))
          have hgetLast := congrArg List.getLast? hline
          rw [Block.line, List.getLast?_append_of_ne_nil _ (label_ne_nil
            (List.mem_of_getLast? hissue')), List.getLast?_concat] at hgetLast
          obtain rfl := Option.some.inj (hgetLast.symm.trans hc)
          exact hd hspace
  · intro h
    have hline : ∀ c ∈ block.line.getLast?, ¬ isSpace c := by
      rcases hlast with ⟨-, rfl⟩ | ⟨issue, hissue, rfl⟩
      · intro c hc
        obtain rfl := Option.some.inj hc
        decide
      · intro c hc
        have hne := label_ne_nil (List.mem_of_getLast? hissue)
        refine h.last issue hissue c ?_
        rwa [Block.line, List.getLast?_append_of_ne_nil _ hne] at hc
    have hshaped : ∀ b ∈ blocks ++ [block], b.Shaped ∧ b.Plain := fun b hb =>
      ⟨shaped_documentBlocks content b (hblocks ▸ hb), h.plain b (hblocks ▸ hb)⟩
    rw [hblocks, pieces_writeBlocks hshaped hline, List.map_map]
    exact List.map_congr_left (fun b hb => readLine_line (hshaped b hb).1) |>.trans (List.map_id _)

theorem filter_opens {lines : List (List Char)} :
    lines.filter Opens = (lines.filter fun line => !line.isEmpty).filter Opens := by
  rw [List.filter_filter]
  apply List.filter_congr
  intro line _
  cases line with
  | nil => rfl
  | cons c rest => simp

/-- Without line breaks in its text a block opens with its whole line. -/
theorem opening_eq {block : Block} (hshaped : block.Shaped) (hplain : block.Plain) :
    block.opening = if Opens block.line then some block.line else none := by
  rw [Block.opening, opens_line hshaped, List.splitOnP_eq_singleton hplain]
  cases block.kind.marker <;> rfl

theorem filterMap_opening {blocks : List Block} (h : ∀ block ∈ blocks, block.Shaped ∧ block.Plain) :
    blocks.filterMap Block.opening = (blocks.map Block.line).filter Opens := by
  induction blocks with
  | nil => rfl
  | cons block rest ih =>
      obtain ⟨⟨hshaped, hplain⟩, hrest⟩ := List.forall_mem_cons.mp h
      rw [List.filterMap_cons, List.map_cons, List.filter_cons, opening_eq hshaped hplain, ih hrest]
      split_ifs <;> rfl

theorem Unbroken.keepsStructure {content : FinalizedReview} (h : Unbroken content) :
    KeepsStructure content := by
  have hblocks : ∀ block ∈ content.documentBlocks, block.Shaped ∧ block.Plain :=
    fun block hblock => ⟨shaped_documentBlocks content block hblock, h.plain block hblock⟩
  have hread := congrArg (List.map Block.line) ((readBlocks_renderMarkdown content).mpr h)
  rw [readBlocks, List.map_map] at hread
  have hlines : pieces isLineBreak (renderMarkdown content).toList =
      content.documentBlocks.map Block.line := by
    rw [← hread]
    exact ((List.map_congr_left fun line _ => line_readLine line).trans (List.map_id _)).symm
  rw [KeepsStructure, filter_opens, filterMap_opening hblocks, ← hlines, pieces]

/-- The headings and list items of the report are those of its blocks, and the blocks can be
read back, exactly if no text of the review has a line break and the last one does not end in
a separator. -/
theorem reports_keepStructure_iff (content : FinalizedReview) :
    (KeepsStructure content ∧ readBlocks (renderMarkdown content) = content.documentBlocks) ↔
      Unbroken content := by
  rw [readBlocks_renderMarkdown]
  exact ⟨And.right, fun h => ⟨h.keepsStructure, h⟩⟩

/-! ## What a line break can do -/

theorem intercalate_broken {α : Type} {sep : α} (first second : List α) (after : List (List α)) :
    ∀ before : List (List α),
      [sep].intercalate (before ++ (first ++ sep :: second) :: after) =
        [sep].intercalate (before ++ first :: second :: after) := by
  intro before
  induction before with
  | nil => cases after <;> simp [List.intercalate_cons_cons]
  | cons l before ih =>
      rw [List.cons_append, List.intercalate_cons_of_ne_nil (by simp), ih, List.cons_append,
        List.intercalate_cons_of_ne_nil (by simp)]

/-- A list item whose text goes on in a second line with a marker is written as two. -/
theorem writeBlocks_broken (before after : List Block) (first second : Text) :
    writeBlocks (before ++ ⟨.bullet, first ++ "\n- " ++ second⟩ :: after) =
      writeBlocks (before ++ ⟨.bullet, first⟩ :: ⟨.bullet, second⟩ :: after) := by
  have hline : (⟨.bullet, first ++ "\n- " ++ second⟩ : Block).lines =
      [(⟨.bullet, first⟩ : Block).line ++ '\n' :: (⟨.bullet, second⟩ : Block).line] := by
    simp [Block.lines, Block.line, BlockKind.marker, String.toList_append]
  unfold writeBlocks
  rw [List.flatMap_append, List.flatMap_cons, hline, List.singleton_append, intercalate_broken]
  simp [Block.lines]

theorem length_opening (blocks : List Block) : (blocks.filterMap Block.opening).length =
    blocks.countP fun block => !block.kind.marker.isEmpty := by
  rw [List.length_filterMap_eq_countP]
  apply List.countP_congr
  intro block _
  unfold Block.opening
  split_ifs with hmarker
  · simp [hmarker]
  · obtain ⟨l, ls, h⟩ := List.exists_cons_of_ne_nil (List.splitOnP_ne_nil isLineBreak block.line)
    simp [h, hmarker]

namespace Scenario

instance (text : Text) : Decidable (isStripped text) :=
  inferInstanceAs (Decidable (_ = _ ∧ _ ≠ _ ∧ _ ≤ _))

/-- An accepted review with these issues, nothing resolved and nothing open. -/
def review (issues : List IssueEntry) (hvalid : issues.length ≤ 400 ∧ ∀ entry ∈ issues,
      isStripped entry.issue ∧ isStripped entry.title ∧ isStripped entry.description)
    (hunique : (issues.map IssueEntry.issue).Nodup) : FinalizedReview where
  storyId := "story-07"
  storyRunId := "run-00000000-0000-5000-8000-000000000001"
  issues := issues
  resolutions := []
  remainingOpenIssues := []
  poAccepted := true
  finalTurnNumber := 2
  finalizedAt := ⟨63924000000000000, some 0, by decide, by decide⟩
  storyId_valid := .inl ⟨['0', '7'], rfl, rfl, by simp⟩
  storyRunId_valid := ⟨List.replicate 8 '0', List.replicate 4 '0', ['5', '0', '0', '0'],
    ['8', '0', '0', '0'], List.replicate 11 '0' ++ ['1'], rfl, rfl, rfl, rfl, rfl, rfl, by simp⟩
  issues_valid := hvalid
  resolutions_valid := ⟨Nat.zero_le _, nofun⟩
  remaining_valid := ⟨Nat.zero_le _, nofun⟩
  finalTurnNumber_pos := by decide
  finalizedAt_aware := by decide
  accepted := fun _ => rfl
  unique := hunique
  unsettled := nofun
  catalogued := by simp

def noLimit : IssueEntry := ⟨"B-1", "No limit", "None set.", none, .synthesis⟩

def noLog : IssueEntry := ⟨"B-2", "No log", "None kept.", none, .synthesis⟩

/-- An issue whose description goes on with the line of another one. -/
def twoLines : IssueEntry :=
  { noLimit with description := "None set." ++ "\n- " ++ (FinalizedReview.issueBlock noLog).text }

def forged : FinalizedReview := review [twoLines] (by decide +kernel) (by decide)

def honest : FinalizedReview := review [noLimit, noLog] (by decide +kernel) (by decide)

def rest : List Block :=
  [⟨.heading, "Resolutions"⟩, ⟨.para, "None."⟩, ⟨.heading, "Remaining open issues"⟩,
    ⟨.para, "None."⟩]

/-- The description makes an issue of its own, and no reader can tell. -/
theorem forged_issue :
    renderMarkdown forged = renderMarkdown honest ∧
      forged.documentBlocks ≠ honest.documentBlocks ∧ ¬ KeepsStructure forged := by
  have hforged : forged.documentBlocks =
      honest.header ++ FinalizedReview.issueBlock twoLines :: rest := rfl
  have hhonest : honest.documentBlocks = honest.header ++
      FinalizedReview.issueBlock noLimit :: FinalizedReview.issueBlock noLog :: rest := rfl
  have hblock : FinalizedReview.issueBlock twoLines =
      ⟨.bullet, (FinalizedReview.issueBlock noLimit).text ++ "\n- " ++
        (FinalizedReview.issueBlock noLog).text⟩ := by
    simp only [FinalizedReview.issueBlock, twoLines, noLimit, String.append_assoc]
  have hrender : renderMarkdown forged = renderMarkdown honest := by
    rw [renderMarkdown, renderMarkdown, hforged, hhonest, hblock, writeBlocks_broken]
    rfl
  have hunbroken : Unbroken honest := by
    refine ⟨fun entry hentry text htext c hc => ?_, nofun, nofun, nofun⟩
    have hplain : ∀ entry ∈ [noLimit, noLog],
        ∀ text ∈ [entry.issue, entry.title, entry.description], PlainText text := by decide
    exact Bool.eq_false_iff.mp (hplain entry hentry text htext c hc)
  refine ⟨hrender, fun h => ?_, fun h => ?_⟩
  · have hlength := congrArg List.length h
    rw [hforged, hhonest] at hlength
    simp at hlength
  · have hlength := congrArg List.length
      ((h.symm.trans (by rw [hrender])).trans hunbroken.keepsStructure)
    rw [length_opening, length_opening, hforged, hhonest] at hlength
    simp [FinalizedReview.issueBlock, BlockKind.marker] at hlength

end Scenario
end Markdown
end StoryReview
