import StoryReview.AgentMessages
import StoryReview.OrderedDict
import StoryReview.OutputFenceLaws

/-!
# Context stories from work-item relations

Two sources walk the relations of a work item. The dataset source keeps the kind of each
target and asks it for the linked stories; the live source fetches each target. Both map what
they find by the same function. The HTML parser and the reading of timestamps are the
standard library's, and parameters here.
-/
namespace StoryReview.StorySource
open StoryReview.OutputFence

/-! ## Work items -/

inductive SourceError where
  | valueError
  | typeError
  | keyError
  | validationError
  | preparationError (message : Text)
  | sourceUnavailable (status : ℕ)
deriving DecidableEq, Repr

/-- A text, or another value with its truth. -/
inductive FieldValue where
  | text (t : Text)
  | other (truthy : Bool)
deriving DecidableEq, Repr

/-- `url` is the value as `str` prints it, empty when absent. -/
structure Relation where
  rel : Option Text
  url : Text := ""
deriving DecidableEq, Repr

structure WorkItem where
  id : ℤ
  fields : Text → Option FieldValue
  relations : Option (List Relation) := none

structure WorkItemComment where
  text : Text
  displayName : Option Text
  createdDate : Option Text
deriving DecidableEq, Repr

structure StoryEnvelope where
  storyId : Text
  workItem : WorkItem
  comments : List WorkItemComment := []

def relationByAdoType : Option Text → Option StoryRelation
  | some "System.LinkTypes.Related" => some .related
  | some "System.LinkTypes.Dependency-Forward" => some .depends
  | some "System.LinkTypes.Dependency-Reverse" => some .depends
  | _ => none

/-! ## Target ids -/

/-- The value of a decimal digit of any script. -/
def decimal (c : Char) : Option ℕ :=
  (AgentEngine.decimalZeros.find? fun base => decide (base ≤ c.toNat ∧ c.toNat < base + 10)).map
    fun base => c.toNat - base

/-- Digits with single underscores between them. -/
def digits : List Char → Option (List ℕ)
  | [] => none
  | [c] => (decimal c).map fun d => [d]
  | c :: '_' :: rest => do
      let d ← decimal c
      let ds ← digits rest
      some (d :: ds)
  | c :: rest => do
      let d ← decimal c
      let ds ← digits rest
      some (d :: ds)

/-- `int(text)`, with the limit on the number of digits. -/
def pyInt (cs : List Char) : Option ℤ :=
  let stripped := ((cs.dropWhile AgentEngine.isSpace).reverse.dropWhile AgentEngine.isSpace).reverse
  let signed : Bool × List Char :=
    match stripped with
    | '-' :: rest => (true, rest)
    | '+' :: rest => (false, rest)
    | rest => (false, rest)
  match digits signed.2 with
  | none => none
  | some ds =>
      if 4300 < ds.length then none
      else
        let value : ℕ := ds.foldl (fun n d => 10 * n + d) 0
        some (if signed.1 then -value else value)

/-- `url.rstrip("/").rsplit("/", 1)[-1]`. -/
def lastSegment (cs : List Char) : List Char :=
  ((cs.reverse.dropWhile (· = '/')).takeWhile (· ≠ '/')).reverse

def targetId (relation : Relation) : Except SourceError ℤ :=
  match pyInt (lastSegment relation.url.toList) with
  | some n => .ok n
  | none => .error .valueError

/-! ## One context story -/

def constrained (maxLength : ℕ) (s : Text) : Except SourceError Text :=
  let stripped := stripWhitespace s.toList
  if stripped ≠ [] ∧ stripped.length ≤ maxLength then .ok (String.ofList stripped)
  else .error .validationError

/-- `^(story-[0-9]{2}|ado-[0-9]{1,8})$`. -/
def storyIdOk (id : Text) : Bool :=
  let number (head : List Char) := id.toList.drop head.length
  ("story-".toList.isPrefixOf id.toList && (number "story-".toList).length == 2 &&
      (number "story-".toList).all Char.isDigit) ||
    ("ado-".toList.isPrefixOf id.toList && 1 ≤ (number "ado-".toList).length &&
      (number "ado-".toList).length ≤ 8 && (number "ado-".toList).all Char.isDigit)

def field (item : WorkItem) (name owner : Text) : Except SourceError Text :=
  match item.fields name with
  | some (.text t) => .ok t
  | _ => .error (.preparationError s!"{owner} has no {name}")

/-- `item.fields.get(name) or ""`, where only a text can be flattened. -/
def richText (item : WorkItem) (name : Text) : Except SourceError Text :=
  match item.fields name with
  | some (.text t) => .ok t
  | some (.other true) => .error .typeError
  | _ => .ok ""

section
variable (parse : Text → List Text) (fromisoformat : Text → Except SourceError Time)

def htmlToBlocks (html : Text) : List Text := if html = "" then [] else parse html

def htmlToText (html : Text) : Text := "\n".intercalate (htmlToBlocks parse html)

def comment (raw : WorkItemComment) : Except SourceError StoryComment := do
  let some displayName := raw.displayName | .error .keyError
  let some createdDate := raw.createdDate | .error .keyError
  let createdAt ← fromisoformat createdDate
  let author ← constrained 500 displayName
  let text ← constrained 20000 raw.text
  pure ⟨author, text, createdAt⟩

def comments (raw : List WorkItemComment) : Except SourceError (List StoryComment) := do
  let mapped ← raw.mapM (comment fromisoformat)
  pure (mapped.mergeSort fun a b => decide (a.createdAt ≤ b.createdAt))

def contextStoryFromWorkItem (item : WorkItem) (comments : List StoryComment)
    (relation : StoryRelation) (storyId : Text) : Except SourceError ContextStory := do
  let title ← field item "System.Title" s!"linked work item {item.id}"
  let description ← richText item "System.Description"
  let acceptance ← richText item "Microsoft.VSTS.Common.AcceptanceCriteria"
  let blocks := htmlToBlocks parse acceptance
  let title ← constrained 500 title
  let description ← constrained 20000 (htmlToText parse description)
  let acceptanceCriteria ← blocks.mapM (constrained 20000)
  if storyIdOk storyId ∧ blocks.length ≤ 100 ∧ comments.length ≤ 50 then
    pure ⟨storyId, title, relation, description, acceptanceCriteria, comments⟩
  else .error .validationError

/-! ## The dataset source -/

def keepKind (relation : Relation) (target : ℤ) (kinds : OrderedDict ℤ StoryRelation) :
    OrderedDict ℤ StoryRelation :=
  match relationByAdoType relation.rel with
  | some kind => kinds.set target kind
  | none => kinds

/-- The kind of each target: every url is read, a mapped type is kept, the last one wins. -/
def relationByTarget : List Relation → OrderedDict ℤ StoryRelation →
    Except SourceError (OrderedDict ℤ StoryRelation)
  | [], kinds => .ok kinds
  | relation :: rest, kinds => do
      let target ← targetId relation
      relationByTarget rest (keepKind relation target kinds)

def contextStory (kinds : OrderedDict ℤ StoryRelation) (peers : Text → Option StoryEnvelope)
    (caseId : Text) : Except SourceError ContextStory :=
  match peers caseId with
  | none => .error (.preparationError s!"linked story '{caseId}' has no peer envelope")
  | some target => do
      let comments ← comments fromisoformat target.comments
      contextStoryFromWorkItem parse target.workItem comments
        ((kinds.get? target.workItem.id).getD .related) target.storyId

def contextStories (story : WorkItem) (linked : List Text) (peers : Text → Option StoryEnvelope) :
    Except SourceError (List ContextStory) := do
  let kinds ← relationByTarget (story.relations.getD []) .empty
  linked.mapM (contextStory parse fromisoformat kinds peers)

/-! ## The live source -/

/-- The two requests that the live source makes for a target. -/
structure AzureDevOpsRestClient (m : Type → Type) where
  workItem : ℤ → m WorkItem
  comments : ℤ → m (List WorkItemComment)

def linkedStory {m : Type → Type} [Monad m] [MonadExcept SourceError m]
    (client : AzureDevOpsRestClient m) (kind : StoryRelation) (target : ℤ) : m ContextStory := do
  let item ← client.workItem target
  let raw ← client.comments target
  ofExcept (do
    let comments ← comments fromisoformat raw
    contextStoryFromWorkItem parse item comments kind s!"ado-{target}")

def fetchContextStories {m : Type → Type} [Monad m] [MonadExcept SourceError m]
    (client : AzureDevOpsRestClient m) : List Relation → m (List ContextStory)
  | [] => pure []
  | relation :: rest =>
      match relationByAdoType relation.rel with
      | none => fetchContextStories client rest
      | some kind => do
          let target ← ofExcept (targetId relation)
          let story ← linkedStory parse fromisoformat client kind target
          let stories ← fetchContextStories client rest
          pure (story :: stories)

end

/-- What the live source reads from a list of relations. -/
def linkedTargets : List Relation → Except SourceError (List (ℤ × StoryRelation))
  | [] => .ok []
  | relation :: rest =>
      match relationByAdoType relation.rel with
      | none => linkedTargets rest
      | some kind => do
          let target ← targetId relation
          let targets ← linkedTargets rest
          pure ((target, kind) :: targets)

example : pyInt " -1_0 ".toList = some (-10) := by decide
example : lastSegment "x/wit/workItems/11/".toList = "11".toList := by decide

/-! ## Reading the relations -/

@[simp] theorem toOption_ok {ε α : Type} (a : α) :
    (Except.ok a : Except ε α).toOption = some a := rfl

@[simp] theorem toOption_pure {ε α : Type} (a : α) :
    (pure a : Except ε α).toOption = some a := rfl

@[simp] theorem toOption_error {ε α : Type} (e : ε) :
    (Except.error e : Except ε α).toOption = none := rfl

@[simp] theorem toOption_bind {ε α β : Type} (x : Except ε α) (f : α → Except ε β) :
    (x >>= f).toOption = x.toOption.bind fun a => (f a).toOption := by
  cases x <;> rfl

@[simp] theorem toOption_map {ε α β : Type} (f : α → β) (x : Except ε α) :
    (f <$> x).toOption = x.toOption.map f := by
  cases x <;> rfl

/-- The type is one that becomes a context story. -/
def Relation.Mapped (relation : Relation) : Prop := (relationByAdoType relation.rel).isSome

section
variable {parse : Text → List Text} {fromisoformat : Text → Except SourceError Time}

/-- The live source fetches the targets that it reads, in their order. -/
theorem fetchContextStories_toOption (client : AzureDevOpsRestClient (Except SourceError))
    (relations : List Relation) :
    (fetchContextStories parse fromisoformat client relations).toOption =
      (linkedTargets relations).toOption.bind fun targets =>
        (targets.mapM fun entry =>
          linkedStory parse fromisoformat client entry.2 entry.1).toOption := by
  induction relations with
  | nil => rfl
  | cons relation rest ih =>
      unfold fetchContextStories linkedTargets
      cases relationByAdoType relation.rel with
      | none => exact ih
      | some kind =>
          cases htarget : targetId relation with
          | error e => rfl
          | ok target =>
              change (linkedStory parse fromisoformat client kind target >>= fun story =>
                fetchContextStories parse fromisoformat client rest >>= fun stories =>
                  pure (story :: stories)).toOption =
                (linkedTargets rest >>= fun targets => pure ((target, kind) :: targets)).toOption.bind _
              simp only [toOption_bind, ih]
              cases hstory : linkedStory parse fromisoformat client kind target <;>
                cases linkedTargets rest <;> simp [List.mapM_cons, hstory, Option.map_eq_bind]

/-! ## Both sources -/

end

namespace Scenario

def parse (html : Text) : List Text := [html]

def fromisoformat : Text → Except SourceError Time
  | "2026-09-08T14:05:00Z" => .ok 1788876300000000
  | _ => .error .valueError

def story : WorkItem := { id := 10, fields := fun _ => none }

end Scenario
end StoryReview.StorySource
