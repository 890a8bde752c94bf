import StoryReview.OutputFence
import StoryReview.ListEdits

/-!
# What the reviewer output fence does to a report

Both rules decide about a finding by its title and description only, so the
fence is one edit of the list of findings. What it drops, changes and reports,
and what a second application does, is read off that edit.
-/
namespace StoryReview.OutputFence
open StoryReview ListEdits

variable {report : ReviewReport} {storyText : List Char}
  {previousReview : Option ReviewReport} {extraContext : Option Text}
  {finding prev : Finding}

/-- `info < minor < major < blocker`. -/
instance : LE Severity := ⟨fun a b => a.ctorIdx ≤ b.ctorIdx⟩

instance (a b : Severity) : Decidable (a ≤ b) :=
  inferInstanceAs (Decidable (a.ctorIdx ≤ b.ctorIdx))

/-! ## Matches -/

/-- A settling sentence of the story overlaps the finding by the threshold. -/
def Settled (storyText : List Char) (finding : Finding) : Prop :=
  ∃ clause ∈ settlingClauses storyText,
    matchThreshold ≤ overlap (findingTokens finding) (contentTokens clause)

/-- Of the previous findings at or above the threshold, the first of greatest
overlap. -/
def BestMatch (tokens : Finset String) (previous : List Finding) (prev : Finding) : Prop :=
  FirstMax (fun prev => overlap tokens (findingTokens prev))
    (previous.filter fun prev => matchThreshold ≤ overlap tokens (findingTokens prev)) prev

/-- Both re-review inputs are there, the finding overlaps the extra context, and
`prev` is its match in the previous review. -/
def ClampMatch (previousReview : Option ReviewReport) (extraContext : Option Text)
    (finding prev : Finding) : Prop :=
  ∃ previous context, previousReview = some previous ∧ extraContext = some context ∧
    context ≠ "" ∧
    contextThreshold ≤ overlap (findingTokens finding) (contentTokens context.toList) ∧
    BestMatch (findingTokens finding) previous.findings prev

theorem bestMatch_eq_foldl (tokens : Finset String) (previous : List Finding) :
    bestMatch tokens previous =
      (((previous.filter fun prev => matchThreshold ≤ overlap tokens (findingTokens prev)).map
        fun prev => (prev, overlap tokens (findingTokens prev))).foldl better none) := by
  have hcandidates : (previous.filterMap fun prev =>
        if matchThreshold ≤ overlap tokens (findingTokens prev) then
          some (prev, overlap tokens (findingTokens prev)) else none) =
      (previous.filter fun prev => matchThreshold ≤ overlap tokens (findingTokens prev)).map
        fun prev => (prev, overlap tokens (findingTokens prev)) := by
    induction previous with
    | nil => rfl
    | cons p ps ih =>
        by_cases hp : matchThreshold ≤ overlap tokens (findingTokens p) <;> simp [hp, ih]
  rw [bestMatch, hcandidates]
  refine List.foldl_ext _ _ _ fun best candidate _ => ?_
  cases best with
  | none => rfl
  | some b => by_cases h : b.2 < candidate.2 <;> simp [better, h]

theorem bestMatch_eq_some_iff {tokens : Finset String} {previous : List Finding} {s : ℚ} :
    bestMatch tokens previous = some (prev, s) ↔
      BestMatch tokens previous prev ∧ s = overlap tokens (findingTokens prev) := by
  rw [bestMatch_eq_foldl]
  exact foldl_better_eq_some_iff

theorem BestMatch.unique {tokens : Finset String} {previous : List Finding} {prev' : Finding}
    (h : BestMatch tokens previous prev) (h' : BestMatch tokens previous prev') : prev = prev' :=
  FirstMax.unique h h'

theorem ClampMatch.unique {prev' : Finding}
    (h : ClampMatch previousReview extraContext finding prev)
    (h' : ClampMatch previousReview extraContext finding prev') : prev = prev' := by
  obtain ⟨previous, context, rfl, rfl, -, -, hbest⟩ := h
  obtain ⟨previous', context', heq, -, -, -, hbest'⟩ := h'
  obtain rfl := Option.some.inj heq
  exact hbest.unique hbest'

/-! ## The two rules as edits -/

/-- Rule 1 on one finding. -/
def settle (storyText : List Char) (finding : Finding) : Option Finding × Option FenceEvent :=
  match ((settlingClauses storyText).map fun clause => (clause, contentTokens clause)).find?
      fun clause => decide (matchThreshold ≤ overlap (findingTokens finding) clause.2) with
  | some clause => (none, some ⟨.scopeSettlement, finding.id, String.ofList clause.1,
      overlap (findingTokens finding) clause.2⟩)
  | none => (some finding, none)

/-- Rule 2 on one finding. -/
def clamp (previousReview : Option ReviewReport) (extraContext : Option Text)
    (finding : Finding) : Option Finding × Option FenceEvent :=
  match previousReview, extraContext with
  | some previous, some context =>
      if context = "" then (some finding, none)
      else
        match bestMatch (findingTokens finding) previous.findings with
        | some (prev, similarity) =>
            if contextThreshold ≤
                overlap (findingTokens finding) (contentTokens context.toList) then
              (if prev.severity = .info then none
                else some { finding with severity := downgrade prev.severity },
                some ⟨.reReviewClamp, finding.id, prev.id, similarity⟩)
            else (some finding, none)
        | none => (some finding, none)
  | _, _ => (some finding, none)

theorem applyScopeSettlement_eq_pass (findings : List Finding) (storyText : List Char) :
    applyScopeSettlement findings
        ((settlingClauses storyText).map fun clause => (clause, contentTokens clause)) =
      pass (settle storyText) findings := by
  induction findings with
  | nil => rfl
  | cons finding findings ih =>
      rw [applyScopeSettlement, List.foldr_cons, ← applyScopeSettlement, ih, pass_cons, settle]
      cases hfind : ((settlingClauses storyText).map fun clause =>
          (clause, contentTokens clause)).find? fun clause =>
            decide (matchThreshold ≤ overlap (findingTokens finding) clause.2) with
      | none => rfl
      | some clause => rfl

theorem applyReReviewClamp_eq_pass (findings : List Finding) (previous : ReviewReport)
    {context : Text} (hcontext : context ≠ "") :
    applyReReviewClamp findings previous context =
      pass (clamp (some previous) (some context)) findings := by
  induction findings with
  | nil => rfl
  | cons finding findings ih =>
      rw [applyReReviewClamp, List.foldr_cons, ← applyReReviewClamp, ih, pass_cons, clamp,
        if_neg hcontext]
      dsimp only
      cases bestMatch (findingTokens finding) previous.findings with
      | none => rfl
      | some m =>
          dsimp only
          split_ifs <;> rfl

theorem clamp_eq_self_of_no_match
    (h : ∀ prev, ¬ClampMatch previousReview extraContext finding prev) :
    clamp previousReview extraContext finding = (some finding, none) := by
  unfold clamp
  split
  · rename_i previous context
    by_cases hempty : context = ""
    · rw [if_pos hempty]
    · rw [if_neg hempty]
      cases hbest : bestMatch (findingTokens finding) previous.findings with
      | none => rfl
      | some m =>
          have hmatch := (bestMatch_eq_some_iff.mp hbest).1
          exact if_neg fun hoverlap =>
            h m.1 ⟨previous, context, rfl, rfl, hempty, hoverlap, hmatch⟩
  · rfl

theorem clamp_of_match (h : ClampMatch previousReview extraContext finding prev) :
    clamp previousReview extraContext finding =
      (if prev.severity = .info then none
        else some { finding with severity := downgrade prev.severity },
        some ⟨.reReviewClamp, finding.id, prev.id,
          overlap (findingTokens finding) (findingTokens prev)⟩) := by
  obtain ⟨previous, context, rfl, rfl, hempty, hoverlap, hbest⟩ := h
  simp only [clamp, if_neg hempty, bestMatch_eq_some_iff.mpr ⟨hbest, rfl⟩, if_pos hoverlap]

theorem settle_of_settled (h : Settled storyText finding) :
    (settle storyText finding).1 = none ∧
      ∃ event ∈ (settle storyText finding).2,
        event.rule = .scopeSettlement ∧ event.findingId = finding.id := by
  obtain ⟨clause, hclause, hoverlap⟩ := h
  have hsome := List.find?_isSome (p := fun clause : List Char × Finset String =>
      decide (matchThreshold ≤ overlap (findingTokens finding) clause.2)).mpr
    ⟨_, List.mem_map_of_mem (f := fun clause => (clause, contentTokens clause)) hclause,
      decide_eq_true hoverlap⟩
  obtain ⟨found, hfound⟩ := Option.isSome_iff_exists.mp hsome
  simp only [settle, hfound]
  exact ⟨trivial, _, rfl, rfl, rfl⟩

theorem settle_of_not_settled (h : ¬Settled storyText finding) :
    settle storyText finding = (some finding, none) := by
  have hnone : ((settlingClauses storyText).map fun clause =>
      (clause, contentTokens clause)).find? (fun clause =>
        decide (matchThreshold ≤ overlap (findingTokens finding) clause.2)) = none := by
    refine List.find?_eq_none.mpr fun found hfound hoverlap => h ?_
    obtain ⟨clause, hclause, rfl⟩ := List.mem_map.mp hfound
    exact ⟨clause, hclause, of_decide_eq_true hoverlap⟩
  simp only [settle, hnone]

/-! ## The fence as one edit -/

/-- What becomes of one finding. -/
def outcome (storyText : List Char) (previousReview : Option ReviewReport)
    (extraContext : Option Text) : Finding → Option Finding :=
  andThen (settle storyText) (clamp previousReview extraContext)

/-- The event rule 2 leaves for one finding. -/
def clampEvent (storyText : List Char) (previousReview : Option ReviewReport)
    (extraContext : Option Text) (finding : Finding) : Option FenceEvent :=
  (settle storyText finding).1.bind fun kept => (clamp previousReview extraContext kept).2

theorem outcome_of_settled (h : Settled storyText finding) :
    outcome storyText previousReview extraContext finding = none := by
  rw [outcome, andThen, (settle_of_settled h).1]
  rfl

theorem outcome_of_not_settled (h : ¬Settled storyText finding) :
    outcome storyText previousReview extraContext finding =
      (clamp previousReview extraContext finding).1 := by
  rw [outcome, andThen, settle_of_not_settled h]
  rfl

theorem clampEvent_of_settled (h : Settled storyText finding) :
    clampEvent storyText previousReview extraContext finding = none := by
  rw [clampEvent, (settle_of_settled h).1]
  rfl

theorem clampEvent_of_not_settled (h : ¬Settled storyText finding) :
    clampEvent storyText previousReview extraContext finding =
      (clamp previousReview extraContext finding).2 := by
  rw [clampEvent, settle_of_not_settled h]
  rfl

/-- The four things that can become of a finding. -/
inductive Fenced (storyText : List Char) (previousReview : Option ReviewReport)
    (extraContext : Option Text) (finding : Finding) :
    Option Finding → Option FenceEvent → Option FenceEvent → Prop
  | settled (event : FenceEvent) (h : Settled storyText finding)
      (hrule : event.rule = .scopeSettlement) (hid : event.findingId = finding.id) :
      Fenced storyText previousReview extraContext finding none (some event) none
  | matchedInfo (event : FenceEvent) (prev : Finding) (h : ¬Settled storyText finding)
      (hmatch : ClampMatch previousReview extraContext finding prev)
      (hinfo : prev.severity = .info)
      (hrule : event.rule = .reReviewClamp) (hid : event.findingId = finding.id) :
      Fenced storyText previousReview extraContext finding none none (some event)
  | clamped (event : FenceEvent) (prev : Finding) (h : ¬Settled storyText finding)
      (hmatch : ClampMatch previousReview extraContext finding prev)
      (hinfo : prev.severity ≠ .info)
      (hrule : event.rule = .reReviewClamp) (hid : event.findingId = finding.id) :
      Fenced storyText previousReview extraContext finding
        (some { finding with severity := downgrade prev.severity }) none (some event)
  | kept (h : ¬Settled storyText finding)
      (hmatch : ∀ prev, ¬ClampMatch previousReview extraContext finding prev) :
      Fenced storyText previousReview extraContext finding (some finding) none none

theorem fenced (storyText : List Char) (previousReview : Option ReviewReport)
    (extraContext : Option Text) (finding : Finding) :
    Fenced storyText previousReview extraContext finding
      (outcome storyText previousReview extraContext finding)
      (settle storyText finding).2
      (clampEvent storyText previousReview extraContext finding) := by
  by_cases hsettled : Settled storyText finding
  · rw [outcome_of_settled hsettled, clampEvent_of_settled hsettled]
    obtain ⟨event, hevent, hrule, hid⟩ := (settle_of_settled hsettled).2
    rw [Option.mem_def.mp hevent]
    exact .settled event hsettled hrule hid
  · rw [outcome_of_not_settled hsettled, clampEvent_of_not_settled hsettled,
      settle_of_not_settled hsettled]
    by_cases hmatch : ∃ prev, ClampMatch previousReview extraContext finding prev
    · obtain ⟨prev, hprev⟩ := hmatch
      rw [clamp_of_match hprev]
      by_cases hinfo : prev.severity = .info
      · rw [if_pos hinfo]
        exact .matchedInfo _ prev hsettled hprev hinfo rfl rfl
      · rw [if_neg hinfo]
        exact .clamped _ prev hsettled hprev hinfo rfl rfl
    · have hnone := not_exists.mp hmatch
      rw [clamp_eq_self_of_no_match hnone]
      exact .kept hsettled hnone

theorem exists_fenced {result : Option Finding}
    (h : outcome storyText previousReview extraContext finding = result) :
    ∃ settled clamped,
      Fenced storyText previousReview extraContext finding result settled clamped :=
  ⟨_, _, h ▸ fenced storyText previousReview extraContext finding⟩

theorem pass_clamp_eq_self
    (h : ∀ finding, clamp previousReview extraContext finding = (some finding, none))
    (findings : List Finding) :
    pass (clamp previousReview extraContext) findings = (findings, []) := by
  simp [ListEdits.pass, h]

/-- Rule 2 runs on what rule 1 leaves, and without its inputs it is the pass that
changes nothing. -/
theorem applyFence_eq (report : ReviewReport) (storyText : List Char)
    (previousReview : Option ReviewReport) (extraContext : Option Text) :
    applyFence report storyText previousReview extraContext =
      (let settled := pass (settle storyText) report.findings
      let clamped := pass (clamp previousReview extraContext) settled.1
      if settled.2 ++ clamped.2 = [] then (report, settled.2 ++ clamped.2)
      else ({ report with findings := clamped.1 }, settled.2 ++ clamped.2)) := by
  unfold applyFence
  simp only [applyScopeSettlement_eq_pass]
  match previousReview, extraContext with
  | some previous, some context =>
      by_cases hempty : context = ""
      · have hself : ∀ finding, clamp (some previous) (some context) finding =
            (some finding, none) := fun finding => if_pos hempty
        simp only [if_pos hempty, pass_clamp_eq_self hself]
      · simp only [if_neg hempty, applyReReviewClamp_eq_pass _ previous hempty]
  | some previous, none =>
      have hself : ∀ finding, clamp (some previous) none finding = (some finding, none) :=
        fun _ => rfl
      simp only [pass_clamp_eq_self hself]
  | none, extra =>
      have hself : ∀ finding, clamp none extra finding = (some finding, none) := fun _ => rfl
      simp only [pass_clamp_eq_self hself]

theorem applyFence_events (report : ReviewReport) (storyText : List Char)
    (previousReview : Option ReviewReport) (extraContext : Option Text) :
    (applyFence report storyText previousReview extraContext).2 =
      (report.findings.filterMap fun finding => (settle storyText finding).2) ++
        report.findings.filterMap (clampEvent storyText previousReview extraContext) := by
  rw [applyFence_eq]
  simp only [pass_pass_snd]
  split_ifs <;> rfl

theorem outcome_of_no_event (hsettle : (settle storyText finding).2 = none)
    (hclamp : clampEvent storyText previousReview extraContext finding = none) :
    outcome storyText previousReview extraContext finding = some finding := by
  have h := fenced storyText previousReview extraContext finding
  rw [hsettle, hclamp] at h
  generalize outcome storyText previousReview extraContext finding = result at h ⊢
  cases h
  rfl

theorem applyFence_findings (report : ReviewReport) (storyText : List Char)
    (previousReview : Option ReviewReport) (extraContext : Option Text) :
    (applyFence report storyText previousReview extraContext).1.findings =
      report.findings.filterMap (outcome storyText previousReview extraContext) := by
  rw [applyFence_eq]
  simp only [pass_pass_fst, pass_pass_snd]
  split_ifs with hnone
  · obtain ⟨hsettle, hclamp⟩ := List.append_eq_nil_iff.mp hnone
    have hkept : ∀ finding ∈ report.findings,
        outcome storyText previousReview extraContext finding = some finding := by
      intro finding hfinding
      exact outcome_of_no_event (List.filterMap_eq_nil_iff.mp hsettle finding hfinding)
        (List.filterMap_eq_nil_iff.mp hclamp finding hfinding)
    rw [List.filterMap_congr hkept, List.filterMap_some]
  · rfl

theorem applyFence_other_fields (report : ReviewReport) (storyText : List Char)
    (previousReview : Option ReviewReport) (extraContext : Option Text) :
    (applyFence report storyText previousReview extraContext).1 =
      { report with
        findings := (applyFence report storyText previousReview extraContext).1.findings } := by
  rw [applyFence_eq]
  dsimp only
  split_ifs <;> rfl

theorem applyFence_of_no_event
    (h : (applyFence report storyText previousReview extraContext).2 = []) :
    (applyFence report storyText previousReview extraContext).1 = report := by
  rw [applyFence_eq] at h ⊢
  dsimp only at h ⊢
  split_ifs at h ⊢ with hnone
  · rfl
  · exact absurd h hnone

/-- The two findings are equal up to their severities. -/
def SameButSeverity (survivor finding : Finding) : Prop :=
  survivor = { finding with severity := survivor.severity }

theorem outcome_sameButSeverity {survivor : Finding}
    (h : outcome storyText previousReview extraContext finding = some survivor) :
    SameButSeverity survivor finding := by
  obtain ⟨_, _, hfenced⟩ := exists_fenced h
  cases hfenced with
  | clamped => rfl
  | kept => rfl

/-- Matches are decided by title and description, which the fence keeps. -/
theorem matches_of_sameButSeverity (previousReview : Option ReviewReport)
    (extraContext : Option Text) (storyText : List Char) {survivor : Finding}
    (h : SameButSeverity survivor finding) :
    (∀ prev, ClampMatch previousReview extraContext survivor prev ↔
      ClampMatch previousReview extraContext finding prev) ∧
    (Settled storyText survivor ↔ Settled storyText finding) := by
  have htokens : findingTokens survivor = findingTokens finding := by
    rw [h, findingTokens, findingTokens]
  simp only [ClampMatch, Settled, htokens, implies_true, and_self]

theorem SameButSeverity.sameKey {survivor : Finding} (h : SameButSeverity survivor finding) :
    { survivor with severity := .info } = { finding with severity := .info } := by
  rw [h]

theorem outcome_eq_none_iff :
    outcome storyText previousReview extraContext finding = none ↔
      Settled storyText finding ∨
        ∃ prev, ClampMatch previousReview extraContext finding prev ∧ prev.severity = .info := by
  constructor
  · intro h
    obtain ⟨_, _, hfenced⟩ := exists_fenced h
    cases hfenced with
    | settled _ hsettled => exact .inl hsettled
    | matchedInfo _ prev _ hmatch hinfo => exact .inr ⟨prev, hmatch, hinfo⟩
  · rintro (h | ⟨prev, hmatch, hinfo⟩)
    · exact outcome_of_settled h
    · by_cases h : Settled storyText finding
      · exact outcome_of_settled h
      · rw [outcome_of_not_settled h, clamp_of_match hmatch, if_pos hinfo]

theorem isSome_outcome_congr (a b : Finding)
    (h : { a with severity := .info } = { b with severity := .info }) :
    (outcome storyText previousReview extraContext a).isSome =
      (outcome storyText previousReview extraContext b).isSome := by
  have hsame : SameButSeverity a b := by
    obtain ⟨⟩ := a
    obtain ⟨⟩ := b
    simp only [SameButSeverity, Finding.mk.injEq] at h ⊢
    simp only [h, and_self]
  obtain ⟨hmatches, hsettled⟩ :=
    matches_of_sameButSeverity previousReview extraContext storyText hsame
  rw [Bool.eq_iff_iff, ← not_iff_not, Option.not_isSome_iff_eq_none,
    Option.not_isSome_iff_eq_none, outcome_eq_none_iff, outcome_eq_none_iff]
  simp only [hmatches, hsettled]

theorem outcome_eq_some_iff {survivor : Finding} :
    outcome storyText previousReview extraContext finding = some survivor ↔
      ¬Settled storyText finding ∧
        ((∃ prev, ClampMatch previousReview extraContext finding prev ∧ prev.severity ≠ .info ∧
            survivor = { finding with severity := downgrade prev.severity }) ∨
          (∀ prev, ¬ClampMatch previousReview extraContext finding prev) ∧ survivor = finding) := by
  constructor
  · intro h
    obtain ⟨_, _, hfenced⟩ := exists_fenced h
    cases hfenced with
    | clamped _ prev hsettled hmatch hinfo =>
        exact ⟨hsettled, .inl ⟨prev, hmatch, hinfo, rfl⟩⟩
    | kept hsettled hmatch => exact ⟨hsettled, .inr ⟨hmatch, rfl⟩⟩
  · rintro ⟨hsettled, ⟨prev, hmatch, hinfo, rfl⟩ | ⟨hmatch, rfl⟩⟩
    · rw [outcome_of_not_settled hsettled, clamp_of_match hmatch, if_neg hinfo]
    · rw [outcome_of_not_settled hsettled, clamp_eq_self_of_no_match hmatch]

/-! ## Severities -/

/-- No finding comes out with a higher severity than it had. -/
def OnlyLowers (result findings : List Finding) : Prop :=
  List.SublistForall₂ (fun survivor finding =>
    SameButSeverity survivor finding ∧ survivor.severity ≤ finding.severity) result findings

/-- The fence lowers severities exactly when no finding it clamps is already below
the level under its match. -/
theorem applyFence_onlyLowers_iff (report : ReviewReport) (storyText : List Char)
    (previousReview : Option ReviewReport) (extraContext : Option Text) :
    OnlyLowers (applyFence report storyText previousReview extraContext).1.findings
        report.findings ↔
      ∀ finding ∈ report.findings, ¬Settled storyText finding →
        ∀ prev, ClampMatch previousReview extraContext finding prev → prev.severity ≠ .info →
          downgrade prev.severity ≤ finding.severity := by
  rw [OnlyLowers, applyFence_findings,
    sublistForall₂_filterMap_iff (fun finding : Finding => { finding with severity := .info })
      (fun survivor finding h => h.1.sameKey) (fun finding survivor h =>
        (outcome_sameButSeverity h).sameKey) isSome_outcome_congr]
  constructor
  · intro h finding hfinding hsettled prev hmatch hinfo
    exact (h finding hfinding _
      (outcome_eq_some_iff.mpr ⟨hsettled, .inl ⟨prev, hmatch, hinfo, rfl⟩⟩)).2
  · intro h finding hfinding survivor hsurvivor
    refine ⟨outcome_sameButSeverity hsurvivor, ?_⟩
    rcases outcome_eq_some_iff.mp hsurvivor with ⟨hsettled, ⟨prev, hmatch, hinfo, rfl⟩ | ⟨-, rfl⟩⟩
    · exact h finding hfinding hsettled prev hmatch hinfo
    · exact Nat.le_refl _

/-- A minor finding that repeats a previous blocker leaves the fence as a major
one. -/
theorem applyFence_raises :
    let finding (severity : Severity) : Finding :=
      { id := "B-1", title := "Retry hazard", description := "Payment retry", severity,
        category := "completeness" }
    let review (severity : Severity) : ReviewReport :=
      { perspective := .business, storyId := "story-01", summary := "Summary",
        findings := [finding severity] }
    let fenced := applyFence (review .minor) [] (some (review .blocker)) (some "Retry payment")
    fenced.1.findings = [finding .major] ∧ ¬OnlyLowers fenced.1.findings (review .minor).findings := by
  intro finding review fenced
  have hfindings : fenced.1.findings = [finding .major] := by decide +kernel
  refine ⟨hfindings, ?_⟩
  rw [hfindings]
  rintro (_ | ⟨⟨-, hle⟩, -⟩ | h)
  · revert hle
    decide
  · cases h

/-! ## What is kept, and what is recorded -/

/-- A finding of the input, what became of it and the event left for it. -/
structure Position where
  finding : Finding
  outcome : Option Finding
  event : Option FenceEvent

/-- What the fence owes at one position. -/
structure Position.Sound (storyText : List Char) (previousReview : Option ReviewReport)
    (extraContext : Option Text) (position : Position) : Prop where
  onlySeverity : ∀ survivor ∈ position.outcome, SameButSeverity survivor position.finding
  named : ∀ event ∈ position.event, event.findingId = position.finding.id
  actedOn : position.event.isSome ↔ Settled storyText position.finding ∨
    ∃ prev, ClampMatch previousReview extraContext position.finding prev
  audited : position.outcome ≠ some position.finding → position.event.isSome
  missing : position.outcome = none ↔ Settled storyText position.finding ∨
    ∃ prev, ClampMatch previousReview extraContext position.finding prev ∧ prev.severity = .info

theorem Fenced.sound {result : Option Finding} {settled clamped : Option FenceEvent}
    (h : Fenced storyText previousReview extraContext finding result settled clamped) :
    Position.Sound storyText previousReview extraContext
      ⟨finding, result, settled.or clamped⟩ := by
  cases h with
  | settled event hsettled _ hid =>
      constructor
      · simp
      · simpa using hid
      · simp [hsettled]
      · simp
      · simp [hsettled]
  | matchedInfo event prev _ hmatch hinfo _ hid =>
      constructor
      · simp
      · simpa using hid
      · simpa using .inr ⟨prev, hmatch⟩
      · simp
      · simpa using .inr ⟨prev, hmatch, hinfo⟩
  | clamped event prev hunsettled hmatch hinfo _ hid =>
      constructor
      · simp [SameButSeverity]
      · simpa using hid
      · simpa using .inr ⟨prev, hmatch⟩
      · simp
      · have hother : ∀ other, ClampMatch previousReview extraContext finding other →
            other.severity ≠ .info := fun other h => hmatch.unique h ▸ hinfo
        simpa [hunsettled] using hother
  | kept hunsettled hmatch =>
      constructor
      · simp [SameButSeverity]
      · simp
      · simp [hunsettled, hmatch]
      · simp
      · simp [hunsettled, hmatch]

theorem Fenced.rules {result : Option Finding} {settled clamped : Option FenceEvent}
    (h : Fenced storyText previousReview extraContext finding result settled clamped) :
    (∀ event ∈ settled, event.rule = .scopeSettlement) ∧
      (∀ event ∈ clamped, event.rule = .reReviewClamp) ∧ (settled = none ∨ clamped = none) := by
  cases h with
  | settled _ _ hrule => simpa using hrule
  | matchedInfo _ _ _ _ _ hrule => simpa using hrule
  | clamped _ _ _ _ _ hrule => simpa using hrule
  | kept => simp

/-- The positions of a list of findings. -/
def positions (storyText : List Char) (previousReview : Option ReviewReport)
    (extraContext : Option Text) (findings : List Finding) : List Position :=
  findings.map fun finding => ⟨finding, outcome storyText previousReview extraContext finding,
    (settle storyText finding).2.or (clampEvent storyText previousReview extraContext finding)⟩

theorem events_of_positions (report : ReviewReport) (storyText : List Char)
    (previousReview : Option ReviewReport) (extraContext : Option Text) :
    let recorded := (positions storyText previousReview extraContext report.findings).filterMap
      Position.event
    (applyFence report storyText previousReview extraContext).2 =
      (recorded.filter fun event => event.rule = .scopeSettlement) ++
        recorded.filter fun event => event.rule = .reReviewClamp := by
  intro recorded
  have hrules := fun finding => (fenced storyText previousReview extraContext finding).rules
  have hrecorded : recorded = report.findings.filterMap fun finding =>
      (settle storyText finding).2.or
        (clampEvent storyText previousReview extraContext finding) := by
    simp only [recorded, positions, List.filterMap_map]
    rfl
  rw [applyFence_events, hrecorded, filter_filterMap_or, filter_filterMap_or_right]
  · intro finding event h
    simp [(hrules finding).1 event h]
  · intro finding event h
    simp [(hrules finding).2.1 event h]
  · intro finding
    exact (hrules finding).2.2
  · intro finding event h
    simp [(hrules finding).1 event h]
  · intro finding event h
    simp [(hrules finding).2.1 event h]

/-! ## The validators of a report -/

/-- What `strip_whitespace` strips. -/
def isWhiteSpace (c : Char) : Bool :=
  isSpace c && !(0x1C ≤ c.toNat && c.toNat ≤ 0x1F)

def stripWhitespace (s : List Char) : List Char :=
  ((s.dropWhile isWhiteSpace).reverse.dropWhile isWhiteSpace).reverse

/-- `StringConstraints(strip_whitespace=True, min_length=1, max_length=…)`. -/
def textOk (maxLength : ℕ) (s : String) : Prop :=
  stripWhitespace s.toList ≠ [] ∧ (stripWhitespace s.toList).length ≤ maxLength

def isText : Text → Prop := textOk 20000

def isShortText : Text → Prop := textOk 500

/-- `^(story-[0-9]{2}|ado-[0-9]{1,8})$`. -/
def isStoryId (id : StoryId) : Prop :=
  (∃ n, id.toList = "story-".toList ++ n ∧ n.length = 2 ∧ ∀ c ∈ n, c.isDigit) ∨
    ∃ n, id.toList = "ado-".toList ++ n ∧ 1 ≤ n.length ∧ n.length ≤ 8 ∧ ∀ c ∈ n, c.isDigit

/-- `^[BE]-[1-9][0-9]*$`, at most 32 characters. -/
def isFindingId (id : IssueId) : Prop :=
  id.toList.length ≤ 32 ∧ ∃ c d rest, id.toList = c :: '-' :: d :: rest ∧
    (c = 'B' ∨ c = 'E') ∧ d.isDigit ∧ d ≠ '0' ∧ ∀ e ∈ rest, e.isDigit

/-- `^[a-z][a-z0-9-]*$`, at most 64 characters. -/
def isCategory (category : Text) : Prop :=
  category.toList.length ≤ 64 ∧ ∃ c rest, category.toList = c :: rest ∧ c.isLower ∧
    ∀ d ∈ rest, d.isLower ∨ d.isDigit ∨ d = '-'

structure Finding.Validates (finding : Finding) : Prop where
  id : isFindingId finding.id
  title : isShortText finding.title
  description : isText finding.description
  category : isCategory finding.category
  suggestion : ∀ text ∈ finding.suggestion, isText text

def findingPrefix : Perspective → String
  | .business => "B-"
  | .engineering => "E-"

structure ReviewReport.Validates (report : ReviewReport) : Prop where
  storyId : isStoryId report.storyId
  summary : isText report.summary
  findings : report.findings.length ≤ 200 ∧ ∀ finding ∈ report.findings, Finding.Validates finding
  risks : report.risks.length ≤ 100 ∧ ∀ text ∈ report.risks, isText text
  questionsForPo : report.questionsForPo.length ≤ 100 ∧ ∀ text ∈ report.questionsForPo, isText text
  basedOnExtraContext : ∀ text ∈ report.basedOnExtraContext, isText text
  previousReviewVersion : ∀ version ∈ report.previousReviewVersion, 1 ≤ version
  /-- `finding_prefix_matches_perspective`. -/
  prefixes : ∀ finding ∈ report.findings,
    (findingPrefix report.perspective).toList <+: finding.id.toList

theorem SameButSeverity.validates {survivor : Finding} (h : SameButSeverity survivor finding)
    (hfinding : Finding.Validates finding) : Finding.Validates survivor := by
  rw [h]
  exact { hfinding with }

theorem applyFence_validates (h : ReviewReport.Validates report) :
    ReviewReport.Validates
      (applyFence report storyText previousReview extraContext).1 := by
  have horigin : ∀ survivor ∈ report.findings.filterMap
      (outcome storyText previousReview extraContext),
      ∃ finding ∈ report.findings, SameButSeverity survivor finding := by
    intro survivor hsurvivor
    obtain ⟨finding, hfinding, houtcome⟩ := List.mem_filterMap.mp hsurvivor
    exact ⟨finding, hfinding, outcome_sameButSeverity houtcome⟩
  rw [applyFence_other_fields, applyFence_findings]
  refine { h with findings := ⟨?_, ?_⟩, prefixes := ?_ }
  · exact (List.length_filterMap_le _ _).trans h.findings.1
  · intro survivor hsurvivor
    obtain ⟨finding, hfinding, hsame⟩ := horigin survivor hsurvivor
    exact hsame.validates (h.findings.2 finding hfinding)
  · intro survivor hsurvivor
    obtain ⟨finding, hfinding, hsame⟩ := horigin survivor hsurvivor
    have hprefix := h.prefixes finding hfinding
    rw [hsame]
    exact hprefix

/-- The fence changes nothing but severities, drops nothing without a reason and
does neither without an event. -/
theorem applyFence_conserves (report : ReviewReport) (storyText : List Char)
    (previousReview : Option ReviewReport) (extraContext : Option Text) :
    let fenced := applyFence report storyText previousReview extraContext
    (∃ positions : List Position,
      positions.map Position.finding = report.findings ∧
      positions.filterMap Position.outcome = fenced.1.findings ∧
      ((positions.filterMap Position.event).filter fun event => event.rule = .scopeSettlement) ++
        ((positions.filterMap Position.event).filter fun event => event.rule = .reReviewClamp) =
          fenced.2 ∧
      ∀ position ∈ positions, position.Sound storyText previousReview extraContext) ∧
    List.SublistForall₂ SameButSeverity fenced.1.findings report.findings ∧
    fenced.1 = { report with findings := fenced.1.findings } ∧
    (fenced.2 = [] → fenced.1 = report) ∧
    (ReviewReport.Validates report → ReviewReport.Validates fenced.1) := by
  intro fencedReport
  refine ⟨⟨positions storyText previousReview extraContext report.findings, ?_, ?_, ?_, ?_⟩,
    ?_, applyFence_other_fields .., applyFence_of_no_event, applyFence_validates⟩
  · simp [positions, Function.comp_def]
  · rw [applyFence_findings]
    simp only [positions, List.filterMap_map]
    rfl
  · exact (events_of_positions report storyText previousReview extraContext).symm
  · intro position hposition
    obtain ⟨finding, -, rfl⟩ := List.mem_map.mp hposition
    exact (fenced storyText previousReview extraContext finding).sound
  · rw [applyFence_findings]
    exact sublistForall₂_filterMap fun finding _ survivor h => outcome_sameButSeverity h

/-! ## A second application -/

theorem outcome_idempotent (finding survivor : Finding)
    (h : outcome storyText previousReview extraContext finding = some survivor) :
    outcome storyText previousReview extraContext survivor = some survivor := by
  obtain ⟨hmatches, hsettled⟩ := matches_of_sameButSeverity previousReview extraContext storyText
    (outcome_sameButSeverity h)
  obtain ⟨hunsettled, ⟨prev, hmatch, hinfo, hsurvivor⟩ | ⟨hmatch, hsurvivor⟩⟩ :=
    outcome_eq_some_iff.mp h
  · refine outcome_eq_some_iff.mpr ⟨hsettled.not.mpr hunsettled, .inl ?_⟩
    -- the new severity depends on the match alone
    exact ⟨prev, (hmatches prev).mpr hmatch, hinfo, by rw [hsurvivor]⟩
  · rw [hsurvivor] at h ⊢
    exact h

theorem applyFence_idempotent (report : ReviewReport) (storyText : List Char)
    (previousReview : Option ReviewReport) (extraContext : Option Text) :
    (applyFence (applyFence report storyText previousReview extraContext).1 storyText
      previousReview extraContext).1 =
      (applyFence report storyText previousReview extraContext).1 := by
  have hfindings := applyFence_findings
    (applyFence report storyText previousReview extraContext).1 storyText previousReview
    extraContext
  rw [applyFence_findings report, filterMap_idempotent outcome_idempotent,
    ← applyFence_findings] at hfindings
  rw [applyFence_other_fields, hfindings]

end StoryReview.OutputFence
