import StoryReview.EngineHistories
import StoryReview.Interleaving

/-!
# Attribution of recovered replies

Any number of calls of the client share one session of the engine, each of their calls
to the engine one step of the pool. The engine answers at its own pace, also after a
client has given up. A recovered reply answers the last recorded message, or one whose
answer was still underway when that message was recorded.
-/
namespace StoryReview.AgentEngine
open Program

/-- The last message in a history. -/
def lastMessage (events : List Recorded) : Option Recorded :=
  events.reverse.find? fun r => decide (r.event.author = .user)

/-- The event that `finalModelReply` takes its text from. -/
def replyEvent (events : List Recorded) : Option Recorded :=
  events.reverse.find? fun r => decide (r.event.author ≠ .user ∧ r.event.texts ≠ [])

/-- A reply recovered for the request answers a message of its invocation. -/
def Attributable (request : FacilitatorInvocation) (events : List Recorded) : Prop :=
  ∀ reply, recoveredTurnReply (events.map Recorded.event) request.turnNumber = some reply →
    ∃ r, replyEvent events = some r ∧ r.event.texts.getLast? = some reply ∧
      r.invocation = request.invocationId

/-- The last message, if it is one the request takes for its own, was sent for the
invocation, while no message of another invocation was being answered. -/
def LastOwn (request : FacilitatorInvocation) (events : List Recorded) : Prop :=
  ∀ message, lastMessage events = some message →
    isOwn request.turnNumber message.event = true →
      message.invocation = request.invocationId ∧
        ∀ id ∈ message.answering, id = request.invocationId

/-! ## The event of a reply -/

theorem foldl_last (texts : List Text) (reply : Text) :
    texts.foldl (fun _ text => text) reply = texts.getLast?.getD reply := by
  induction texts generalizing reply with
  | nil => rfl
  | cons text texts ih =>
      rw [List.foldl_cons, ih, List.getLast?_cons]
      rfl

theorem finalModelReply_append (events : List Event) (event : Event) :
    finalModelReply (events ++ [event]) =
      if event.author = .user then finalModelReply events
      else event.texts.getLast?.getD (finalModelReply events) := by
  simp only [finalModelReply, List.foldl_append, List.foldl_cons, List.foldl_nil, foldl_last]

/-- A reply that is not blank is the last text of one of the events. -/
theorem replyEvent_of_reply {events : List Recorded}
    (h : finalModelReply (events.map Recorded.event) ≠ "") :
    ∃ r ∈ events, replyEvent events = some r ∧
      r.event.texts.getLast? = some (finalModelReply (events.map Recorded.event)) := by
  induction events using List.reverseRecOn with
  | nil => exact absurd rfl h
  | append_singleton events r ih =>
      rw [List.map_append, List.map_singleton, finalModelReply_append] at h ⊢
      unfold replyEvent at ih ⊢
      rw [List.reverse_append, List.reverse_singleton, List.singleton_append, List.find?_cons]
      by_cases hmodel : r.event.author ≠ .user ∧ r.event.texts ≠ []
      · have hlast := List.getLast?_eq_some_getLast hmodel.2
        refine ⟨r, by simp, by simp [hmodel], ?_⟩
        rw [if_neg hmodel.1, hlast, Option.getD_some]
      · have hkeep : (if r.event.author = .user then finalModelReply (events.map Recorded.event)
            else r.event.texts.getLast?.getD (finalModelReply (events.map Recorded.event))) =
              finalModelReply (events.map Recorded.event) := by
          split_ifs with huser
          · rfl
          · have hnil : r.event.texts = [] := by
              by_contra htexts
              exact hmodel ⟨huser, htexts⟩
            simp [hnil]
        rw [hkeep] at h ⊢
        obtain ⟨found, hmem, hfound, hlast⟩ := ih h
        exact ⟨found, List.mem_append_left _ hmem, by simpa [hmodel] using hfound, hlast⟩

/-- What a history in which a reply is found looks like. -/
theorem recovered_split {events : List Recorded} {turnNumber : ℕ} {reply : Text}
    (h : recoveredTurnReply (events.map Recorded.event) turnNumber = some reply) :
    ∃ before message after, events = before ++ message :: after ∧
      message.event.author = .user ∧ isOwn turnNumber message.event = true ∧
      (∀ r ∈ after, r.event.author ≠ .user) ∧
      finalModelReply (after.map Recorded.event) = reply ∧ reply ≠ "" := by
  obtain ⟨before, own, after, hsplit, huser, hown, hafter, hreply, hblank⟩ :=
    recoveredTurnReply_eq_some.mp h
  obtain ⟨before', rest, rfl, rfl, hrest⟩ := List.map_eq_append_iff.mp hsplit
  obtain ⟨message, after', rfl, rfl, rfl⟩ := List.map_eq_cons_iff.mp hrest
  refine ⟨before', message, after', rfl, huser, hown, fun r hr => ?_, hreply, hblank⟩
  exact hafter _ (List.mem_map_of_mem hr)

/-- The last message and the event of the reply, in such a history. -/
theorem find_of_split {before after : List Recorded} {message : Recorded}
    (huser : message.event.author = .user) (hafter : ∀ r ∈ after, r.event.author ≠ .user) :
    lastMessage (before ++ message :: after) = some message := by
  have hnone : after.reverse.find? (fun r => decide (r.event.author = .user)) = none := by
    refine List.find?_eq_none.mpr fun r hr => ?_
    simpa using hafter r (List.mem_reverse.mp hr)
  simp [lastMessage, List.find?_append, hnone, huser]

theorem replyEvent_of_split {before after : List Recorded} {message r : Recorded}
    (h : replyEvent after = some r) : replyEvent (before ++ message :: after) = some r := by
  unfold replyEvent at h ⊢
  rw [List.reverse_append, List.reverse_cons, List.append_assoc, List.find?_append, h,
    Option.some_or]

/-! ## What the session knows of its events -/

/-- The events after the last message answer it, or a message that was being answered
when it was recorded; so do those still to come. -/
def Traced (events : List Recorded) (answering : List InvocationId) : Prop :=
  ∀ before message after, events = before ++ message :: after →
    message.event.author = .user → (∀ r ∈ after, r.event.author ≠ .user) →
    (∀ r ∈ after, r.invocation = message.invocation ∨ r.invocation ∈ message.answering) ∧
      ∀ id ∈ answering, id = message.invocation ∨ id ∈ message.answering

theorem Traced.mono {events : List Recorded} {answering answering' : List InvocationId}
    (h : Traced events answering) (hsub : ∀ id ∈ answering', id ∈ answering) :
    Traced events answering' := by
  intro before message after hsplit huser hafter
  obtain ⟨hanswers, hopen⟩ := h before message after hsplit huser hafter
  exact ⟨hanswers, fun id hid => hopen id (hsub id hid)⟩

theorem snoc_split {α : Type} {xs before after : List α} {x y : α}
    (h : xs ++ [x] = before ++ y :: after) :
    (after = [] ∧ y = x) ∨ ∃ after', after = after' ++ [x] ∧ xs = before ++ y :: after' := by
  rcases List.eq_nil_or_concat after with rfl | ⟨after', z, rfl⟩
  · exact .inl ⟨rfl, (List.append_singleton_inj.mp h).2.symm⟩
  · rw [List.concat_eq_append, ← List.cons_append, ← List.append_assoc] at h
    obtain ⟨hxs, rfl⟩ := List.append_singleton_inj.mp h
    exact .inr ⟨after', List.concat_eq_append, hxs⟩

/-- A message is recorded. -/
theorem Traced.message {events : List Recorded} {message : Recorded}
    {answering : List InvocationId} (huser : message.event.author = .user)
    (hanswering : ∀ id ∈ answering, id = message.invocation ∨ id ∈ message.answering) :
    Traced (events ++ [message]) answering := by
  intro before found after hsplit hfound hafter
  rcases snoc_split hsplit with ⟨rfl, rfl⟩ | ⟨after', rfl, -⟩
  · exact ⟨nofun, hanswering⟩
  · exact absurd huser (hafter message (by simp))

/-- A reply to a message that is being answered is recorded. -/
theorem Traced.reply {events : List Recorded} {r : Recorded} {answering : List InvocationId}
    (h : Traced events answering) (hmodel : r.event.author ≠ .user)
    (hopen : r.invocation ∈ answering) : Traced (events ++ [r]) answering := by
  intro before message after hsplit huser hafter
  rcases snoc_split hsplit with ⟨rfl, rfl⟩ | ⟨after', rfl, rfl⟩
  · exact absurd huser hmodel
  · obtain ⟨hanswers, hstill⟩ := h before message after' rfl huser fun r hr =>
      hafter r (List.mem_append_left _ hr)
    refine ⟨fun r' hr' => ?_, hstill⟩
    rcases List.mem_append.mp hr' with hr' | hr'
    · exact hanswers r' hr'
    · rw [List.mem_singleton.mp hr']
      exact hstill r.invocation hopen

/-- The recovered reply is of the invocation of the last message, or of one that was being
answered when that was recorded. -/
theorem Traced.recovered {events : List Recorded} {answering : List InvocationId}
    (h : Traced events answering) {turnNumber : ℕ} {reply : Text}
    (hreply : recoveredTurnReply (events.map Recorded.event) turnNumber = some reply) :
    ∃ message r, lastMessage events = some message ∧ isOwn turnNumber message.event = true ∧
      replyEvent events = some r ∧ r.event.texts.getLast? = some reply ∧
      (r.invocation = message.invocation ∨ r.invocation ∈ message.answering) := by
  obtain ⟨before, message, after, rfl, huser, hown, hafter, rfl, hblank⟩ :=
    recovered_split hreply
  obtain ⟨r, hmem, hfound, hlast⟩ := replyEvent_of_reply hblank
  exact ⟨message, r, find_of_split huser hafter, hown, replyEvent_of_split hfound, hlast,
    (h before message after rfl huser hafter).1 r hmem⟩

theorem Traced.attributable {request : FacilitatorInvocation} {events : List Recorded}
    {answering : List InvocationId} (h : Traced events answering)
    (hown : LastOwn request events) : Attributable request events := by
  intro reply hreply
  obtain ⟨message, r, hmessage, hisOwn, hfound, hlast, hinvocation⟩ := h.recovered hreply
  obtain ⟨hmine, hothers⟩ := hown message hmessage hisOwn
  refine ⟨r, hfound, hlast, ?_⟩
  rcases hinvocation with heq | hanswering
  · exact heq.trans hmine
  · exact hothers _ hanswering

/-- While the last message came undisturbed, only its own invocation can reuse the reply. -/
theorem Traced.lastOwn {request : FacilitatorInvocation} {events : List Recorded}
    {answering : List InvocationId} {message : Recorded} {reply : Text}
    (h : Traced events answering) (hmessage : lastMessage events = some message)
    (halone : ∀ id ∈ message.answering, id = message.invocation)
    (hreply : recoveredTurnReply (events.map Recorded.event) request.turnNumber = some reply)
    (hattributable : Attributable request events) :
    message.invocation = request.invocationId := by
  obtain ⟨message', r, hmessage', -, hfound, -, hinvocation⟩ := h.recovered hreply
  obtain rfl := Option.some_inj.mp (hmessage.symm.trans hmessage')
  obtain ⟨r', hfound', -, hmine⟩ := hattributable reply hreply
  obtain rfl := Option.some_inj.mp (hfound.symm.trans hfound')
  rcases hinvocation with heq | hanswering
  · exact heq.symm.trans hmine
  · exact (halone _ hanswering).symm.trans hmine

/-! ## The session keeps it -/

namespace Session

/-- The invariant of the session: its own history and every one it was read as. -/
structure Sound (s : Session) : Prop where
  ids : (s.pending.map Exchange.id).Nodup
  events : Traced s.events s.answering
  reads : ∀ read ∈ s.reads, ∃ answering, Traced read.2 answering

theorem mem_answering {s : Session} {invocation : InvocationId} :
    invocation ∈ s.answering ↔
      ∃ e ∈ s.pending, e.delivered = true ∧ e.invocation = invocation := by
  simp [answering, and_assoc]

theorem markDelivered_ids (s : Session) (id : ℕ) :
    (s.markDelivered id).pending.map Exchange.id = s.pending.map Exchange.id := by
  rw [markDelivered, List.map_map]
  refine List.map_congr_left fun e _ => ?_
  simp only [Function.comp_apply]
  split_ifs <;> rfl

/-- After a delivery the message is being answered, and what was before. -/
theorem Sound.answering_markDelivered {s : Session} (h : s.Sound) {id : ℕ}
    {exchange : Exchange} (hfind : s.find id = some exchange) {invocation : InvocationId}
    (hanswering : invocation ∈ (s.markDelivered id).answering) :
    invocation = exchange.invocation ∨ invocation ∈ s.answering := by
  obtain ⟨e, he, hopen, rfl⟩ := mem_answering.mp hanswering
  obtain ⟨e', he', rfl⟩ := List.mem_map.mp he
  by_cases hid : e'.id = id
  · have hexchange := List.find?_some hfind
    rw [decide_eq_true_eq] at hexchange
    have hsame : e' = exchange :=
      List.inj_on_of_nodup_map h.ids he' (List.mem_of_find?_eq_some hfind)
        (hid.trans hexchange.symm)
    rw [if_pos hid]
    exact .inl (hsame ▸ rfl)
  · rw [if_neg hid] at hopen ⊢
    exact .inr (mem_answering.mpr ⟨e', he', hopen, rfl⟩)

theorem Sound.deliver {s : Session} (h : s.Sound) (id : ℕ) : (s.deliver id).Sound := by
  cases hfind : s.find id with
  | none =>
      have hsame : s.deliver id = s := by
        unfold Session.deliver
        split
        · rfl
        · next hsome => rw [hfind] at hsome; cases hsome
      rwa [hsame]
  | some exchange =>
      cases hdelivered : exchange.delivered with
      | true =>
          have hsame : s.deliver id = s := by
            unfold Session.deliver
            split
            · rfl
            · next found hsome =>
                rw [hfind] at hsome
                cases hsome
                rw [if_pos hdelivered]
          rwa [hsame]
      | false =>
          rw [deliver_eq hfind hdelivered]
          exact ⟨(markDelivered_ids _ id).symm ▸ h.ids,
            Traced.message rfl fun _ => h.answering_markDelivered hfind, h.reads⟩

theorem Sound.reply {s : Session} (h : s.Sound) (id : ℕ) (parts : List Text) :
    (s.reply id parts).Sound := by
  unfold Session.reply
  split
  · exact h
  · next exchange hfind =>
      split_ifs with hdelivered
      · refine ⟨h.ids, h.events.reply (by rintro ⟨⟩) ?_, h.reads⟩
        exact mem_answering.mpr
          ⟨exchange, List.mem_of_find?_eq_some hfind, hdelivered, rfl⟩
      · exact h

theorem Sound.close {s : Session} (h : s.Sound) (id : ℕ) : (s.close id).Sound := by
  refine ⟨h.ids.sublist (List.filter_sublist.map _),
    h.events.mono fun invocation hanswering => ?_, h.reads⟩
  obtain ⟨e, he, hopen⟩ := mem_answering.mp hanswering
  exact mem_answering.mpr ⟨e, List.mem_of_mem_filter he, hopen⟩

theorem Sound.post {s : Session} (h : s.Sound) (invocation : InvocationId) (text : Text) :
    (s.post invocation text).Sound := by
  refine ⟨?_, h.events.mono fun id hanswering => ?_, h.reads⟩
  · have hnew : ∀ e ∈ s.pending, e.id ≠ s.posts.length :=
      fun e he => (s.pending_lt e he).ne
    simpa [Session.post, List.nodup_append, h.ids] using hnew
  · obtain ⟨e, he, hopen, rfl⟩ := mem_answering.mp hanswering
    rcases List.mem_append.mp he with he | he
    · exact mem_answering.mpr ⟨e, he, hopen, rfl⟩
    · rw [List.mem_singleton.mp he] at hopen
      cases hopen

theorem Sound.read {s : Session} (h : s.Sound) (request : FacilitatorInvocation) :
    (s.read request).Sound := by
  refine ⟨h.ids, h.events, fun read hread => ?_⟩
  rcases List.mem_append.mp hread with hread | hread
  · exact h.reads read hread
  · rw [List.mem_singleton.mp hread]
    exact ⟨_, h.events⟩

theorem Sound.advance {s : Session} (h : s.Sound) (progress : List Progress) :
    (progress.foldl Session.advance s).Sound := by
  induction progress generalizing s with
  | nil => exact h
  | cons p progress ih =>
      rw [List.foldl_cons]
      refine ih ?_
      cases p with
      | deliver id => exact h.deliver id
      | reply id parts => exact h.reply id parts
      | close id => exact h.close id

end Session

/-! ## Every call keeps it -/

/-- The footprint of the client: the session stays sound. -/
def Keeps (s t : Session) : Prop := s.Sound → t.Sound

section Calls
variable {A : Environment → Prop} {α : Type}

theorem moves_call {f : Outcome → Session → Except AeException α × Session}
    (h : ∀ outcome s, Keeps s (f outcome s).2) : (call f).Moves A Keeps :=
  moves_atomicExcept fun env s _ hs => h (env s).outcome _ (hs.advance (env s).progress)

theorem moves_post (invocation : InvocationId) (text : Text) :
    (post invocation text).Moves A Keeps := by
  refine moves_bind (moves_call fun outcome s => ?_) fun id => moves_call fun outcome s => ?_
  · cases outcome with
    | deadline => exact id
    | answered => exact fun h => h.post _ _
    | failed => exact fun h => h.post _ _
    | refused => exact fun h => h.post _ _
  · cases outcome with
    | answered => exact fun h => h.close id
    | deadline => exact fun h => h
    | failed => exact fun h => h
    | refused => exact fun h => h

theorem moves_resolveSession : resolveSession.Moves A Keeps := by
  refine moves_call fun outcome s h => ?_
  cases outcome <;> exact h

theorem moves_listEvents (request : FacilitatorInvocation) :
    (listEvents request).Moves A Keeps := by
  refine moves_call fun outcome s h => ?_
  cases outcome with
  | answered => exact h.read request
  | deadline => exact h
  | failed => exact h
  | refused => exact h

variable (client : FacilitatorClient) (request : FacilitatorInvocation)

theorem moves_recover : (client.recover request).Moves A Keeps := by
  refine moves_tryCatch ?_ fun _ => moves_ret _
  refine moves_bind moves_resolveSession fun _ => moves_bind (moves_listEvents request)
    fun events => ?_
  split
  · exact moves_ret _
  · split
    · exact moves_ret _
    · exact moves_raise _

theorem moves_sendTurn : (client.sendTurn request).Moves A Keeps := by
  refine moves_tryCatch (moves_bind (moves_post _ _) fun _ => moves_ret _) fun exc => ?_
  cases exc <;> trivial

theorem moves_attempt : (client.attempt request).Moves A Keeps := by
  refine moves_bind (moves_sendTurn client request) fun answer => ?_
  split
  · exact moves_ret _
  · split_ifs
    · exact moves_ret _
    · exact moves_raise _
  · exact moves_ofExcept _

theorem moves_attemptsFrom (remaining attempts : ℕ) (lastError : Option AeException) :
    (client.attemptsFrom request remaining attempts lastError).Moves A Keeps := by
  induction remaining generalizing attempts lastError with
  | zero => exact moves_ret _
  | succ remaining ih =>
      refine moves_bind (moves_attempt client request) fun answer => ?_
      split
      · exact moves_ret _
      · refine moves_bind (moves_recover client request) fun recovered => ?_
        split
        · exact moves_ret _
        · exact ih _ _

theorem moves_corrected (reason : Option Text) :
    (client.corrected request reason).Moves A Keeps := by
  refine moves_bind (moves_bind (moves_post _ _) fun answer => ?_) fun reply => ?_
  · split
    · exact moves_raise _
    · dsimp only
      split_ifs
      · exact moves_raise _
      · exact moves_ret _
  · split
    · exact moves_ret _
    · exact moves_ret _

theorem moves_recoveredOutput : (client.recoveredOutput request).Moves A Keeps := by
  refine moves_bind (moves_recover client request) fun recovered => ?_
  split
  · exact moves_ret _
  · split
    · exact moves_ret _
    · exact moves_raise _

theorem moves_correction (reason : Option Text) :
    (client.correction request reason).Moves A Keeps := by
  refine moves_tryCatch (moves_corrected client request reason) fun exc => ?_
  cases exc with
  | transportError message =>
      refine moves_bind (moves_recoveredOutput client request) fun output => ?_
      cases output <;> trivial
  | callFailure error =>
      refine moves_bind (moves_recoveredOutput client request) fun output => ?_
      cases output <;> trivial
  | _ => exact moves_raise _

theorem moves_turnWithCorrections (correlationId : Uuid) (remaining : ℕ)
    (output : Option FacilitatorTurnOutput) (reason : Option Text) :
    (client.turnWithCorrections request correlationId remaining output reason).Moves
      A Keeps := by
  induction remaining generalizing output reason with
  | zero =>
      unfold FacilitatorClient.turnWithCorrections
      split
      · exact moves_ret _
      · exact moves_raise _
  | succ remaining ih =>
      unfold FacilitatorClient.turnWithCorrections
      split
      · exact moves_ret _
      · exact moves_bind (moves_correction client request _) fun next => ih _ _

theorem moves_invoke (correlationId : Uuid) :
    (client.invoke request correlationId).Moves A Keeps := by
  refine moves_bind moves_resolveSession fun _ =>
    moves_bind (moves_attemptsFrom client request _ _ _) fun answer => ?_
  unfold FacilitatorClient.settle
  split
  · exact moves_bind (moves_ofExcept _) fun output =>
      moves_bind (moves_turnWithCorrections client request correlationId _ _ _)
        fun _ => moves_ret _
  · exact moves_raise _
  · exact moves_raise _
  · exact moves_raise _

end Calls

/-! ## Runs -/

/-- Any invocations, each any number of times. -/
def system (client : FacilitatorClient) : System (FacilitatorInvocation × Uuid) Unit Session
    Environment AeException FacilitatorResult where
  program := fun call => client.invoke call.1 call.2
  admits := fun _ _ => True
  aux := fun _ => ()
  observe := fun _ _ _ _ => ()

def contract : Contract (FacilitatorInvocation × Uuid) Unit Session AeException
    FacilitatorResult where
  inv := Session.Sound
  rely := fun _ _ => Keeps
  guar := fun _ _ => Keeps
  post := fun _ _ _ _ => True

theorem contract_sound (client : FacilitatorClient) :
    contract.Sound (system client) .free where
  rely_refl := fun _ _ _ _ => id
  rely_trans := fun _ _ _ _ _ h h' hs => h' (h hs)
  starts := by
    intro s running call hs hstarts
    refine rg_mono (Moves.rg (J := fun _ => Session.Sound) (moves_invoke client call.1 call.2)
      (fun _ _ _ h h' => h' h) (fun _ _ _ h h' => ⟨h', h' h⟩) hs) ?_ ?_
    · exact fun _ _ _ _ => trivial
    · exact fun _ _ _ _ => trivial
  inv := fun _ _ _ _ hs _ h => h hs
  compatible := fun _ _ _ _ _ _ h _ _ => h
  post := fun _ _ _ _ _ _ _ _ _ _ _ => trivial

theorem sound_empty : ({} : Session).Sound :=
  ⟨List.nodup_nil, fun _ _ _ h => absurd h (by simp), fun _ h => absurd h (by simp)⟩

/-- In every run, a reply that a call reads back from the history is its invocation's own
if the last message of that history is, and came while no other was being answered; and
only if, where that message came undisturbed. -/
theorem reads_attributable {client : FacilitatorClient}
    {pool : Pool (FacilitatorInvocation × Uuid) Unit Session Environment AeException
      FacilitatorResult} (h : pool.Reachable (system client) .free {})
    (request : FacilitatorInvocation) (events : List Recorded)
    (hread : (request, events) ∈ pool.state.reads) :
    (LastOwn request events → Attributable request events) ∧
      ∀ message reply, lastMessage events = some message →
        (∀ id ∈ message.answering, id = message.invocation) →
        recoveredTurnReply (events.map Recorded.event) request.turnNumber = some reply →
        Attributable request events → message.invocation = request.invocationId := by
  obtain ⟨answering, htraced⟩ :=
    ((contract_sound client).holds sound_empty h).inv.reads _ hread
  exact ⟨htraced.attributable, fun message reply => htraced.lastOwn⟩

end StoryReview.AgentEngine

namespace StoryReview.Scenario
open AgentEngine

def reReviewText : Text := "\x7b\"reply\": \"Reviewing again.\", \"delegation\": \x7b" ++
  "\"invoke\": \"both\", \"open_issues\": [\"F-1\"]\x7d\x7d"

/-- The two invocations of one turn that has the story reviewed again. -/
def turnTwo : FacilitatorInvocation :=
  invocation 2 (.facilitatorTurn 2 ⟨1⟩ 2) (some "Please review again.")

def summaryOfTurnTwo : FacilitatorInvocation :=
  invocation 2 (.facilitatorSummary 2 ⟨1⟩ 2) (some "Please review again.")

/-- The engine answers the first message after its client gave up, and drops the others. -/
def lateFirst : Environment := fun s =>
  match s.pending.getLast? with
  | none => {}
  | some exchange =>
      if exchange.id = 0 then
        ⟨[.deliver 0, .reply 0 [reReviewText], .close 0], .failed "ReadTimeout"⟩
      else ⟨[.close exchange.id], .failed "ReadTimeout"⟩

def reReviewClient : FacilitatorClient := client reReviewText reReview

def afterTurnTwo : Except AeException FacilitatorResult × Session :=
  (reReviewClient.invoke turnTwo 0).runWith lateFirst {}

def afterSummary : Except AeException FacilitatorResult × Session :=
  (reReviewClient.invoke summaryOfTurnTwo 0).runWith lateFirst afterTurnTwo.2

theorem reachable_afterTurnTwo :
    Pool.Reachable (system reReviewClient) .free {}
      ⟨afterTurnTwo.2, [], [((turnTwo, 0), afterTurnTwo.1)]⟩ :=
  Pool.Steps.alone (S := system reReviewClient) (i := (turnTwo, 0)) (fun _ => lateFirst) []
    (fun _ => trivial) trivial fun _ _ _ => trivial

/-- The client finds the turn's own reply again, and then takes it for the summary. -/
theorem twoCalls_read :
    (afterTurnTwo.2.reads.any fun read =>
        decide (read.1.invocationId = turnTwo.invocationId) &&
          (lastMessage read.2).all fun message =>
            decide (message.invocation = turnTwo.invocationId ∧ message.answering = [])) ∧
      afterSummary.1.toOption.map FacilitatorResult.output = some reReview ∧
      afterSummary.2.reads.any fun read =>
        decide (read.1.invocationId = summaryOfTurnTwo.invocationId ∧
          (∀ r ∈ read.2, r.invocation = turnTwo.invocationId) ∧
          recoveredTurnReply (read.2.map Recorded.event) read.1.turnNumber =
            some reReviewText) := by
  -- One evaluation for the three: each runs through the whole text of the message.
  decide +kernel

/-- The turn's own reply is found again. -/
theorem reads_attributable_ownReply : ∃ request events,
    request.invocationId = turnTwo.invocationId ∧ (request, events) ∈ afterTurnTwo.2.reads ∧
      Attributable request events := by
  obtain ⟨⟨request, events⟩, hread, hlast⟩ := List.any_eq_true.mp twoCalls_read.1
  rw [Bool.and_eq_true, decide_eq_true_eq] at hlast
  have hstate : (request, events) ∈ (Pool.mk afterTurnTwo.2 [] [((turnTwo, (0 : Uuid)),
      afterTurnTwo.1)] : Pool _ Unit Session Environment AeException _).state.reads := by
    rw [Pool.state_mk]
    exact hread
  refine ⟨request, events, hlast.1, hread, (reads_attributable reachable_afterTurnTwo request
    events hstate).1 fun message hmessage _ => ?_⟩
  have hown := hlast.2
  rw [hmessage, Option.all_some, decide_eq_true_eq] at hown
  exact ⟨hown.1.trans hlast.1.symm, by simp [hown.2]⟩

/-- A run that ends as the two calls do has the summary read back the turn's reply. -/
theorem reusesTurn_of_read {s : Session} {answer : Except AeException FacilitatorResult}
    {finished : List ((FacilitatorInvocation × Uuid) × Except AeException FacilitatorResult)}
    (hreach : Pool.Reachable (system reReviewClient) .free {}
      ⟨s, [], ((summaryOfTurnTwo, 0), answer) :: finished⟩)
    (hanswer : answer.toOption.map FacilitatorResult.output = some reReview)
    (hany : s.reads.any fun read =>
      decide (read.1.invocationId = summaryOfTurnTwo.invocationId ∧
        (∀ r ∈ read.2, r.invocation = turnTwo.invocationId) ∧
        recoveredTurnReply (read.2.map Recorded.event) read.1.turnNumber =
          some reReviewText)) :
    ∃ pool : Pool (FacilitatorInvocation × Uuid) Unit Session Environment AeException
        FacilitatorResult, ∃ request events result,
      pool.Reachable (system reReviewClient) .free {} ∧
        ((summaryOfTurnTwo, 0), .ok result) ∈ pool.finished ∧ result.output = reReview ∧
        (request, events) ∈ pool.state.reads ∧
        request.invocationId = summaryOfTurnTwo.invocationId ∧
        (∀ r ∈ events, r.invocation = turnTwo.invocationId) ∧
        ¬ Attributable request events := by
  obtain ⟨⟨request, events⟩, hread, hfacts⟩ := List.any_eq_true.mp hany
  obtain ⟨hrequest, hfirst, hreply⟩ := of_decide_eq_true hfacts
  cases answer with
  | error => cases hanswer
  | ok result =>
      refine ⟨_, request, events, result, hreach, List.mem_cons_self,
        Option.some_inj.mp hanswer, hread, hrequest, hfirst, fun h => ?_⟩
      obtain ⟨r, hfound, -, hinvocation⟩ := h _ hreply
      rw [hfirst r (List.mem_reverse.mp (List.mem_of_find?_eq_some hfound)), hrequest]
        at hinvocation
      exact absurd hinvocation (by decide)

/-- The summary call of the turn is lost, and its client returns the reply to the turn's
first call. -/
theorem summary_reusesTurn : ∃ pool : Pool (FacilitatorInvocation × Uuid) Unit Session
    Environment AeException FacilitatorResult, ∃ request events result,
    pool.Reachable (system reReviewClient) .free {} ∧
      ((summaryOfTurnTwo, 0), .ok result) ∈ pool.finished ∧ result.output = reReview ∧
      (request, events) ∈ pool.state.reads ∧
      request.invocationId = summaryOfTurnTwo.invocationId ∧
      (∀ r ∈ events, r.invocation = turnTwo.invocationId) ∧
      ¬ Attributable request events := by
  have hreach : Pool.Reachable (system reReviewClient) .free {}
      ⟨afterSummary.2, [], [((summaryOfTurnTwo, 0), afterSummary.1),
        ((turnTwo, 0), afterTurnTwo.1)]⟩ :=
    reachable_afterTurnTwo.trans (Pool.Steps.alone (S := system reReviewClient)
      (i := (summaryOfTurnTwo, 0)) (fun _ => lateFirst) _ (fun _ => trivial) trivial
      fun _ _ _ => trivial)
  exact reusesTurn_of_read hreach twoCalls_read.2.1 twoCalls_read.2.2

end StoryReview.Scenario
