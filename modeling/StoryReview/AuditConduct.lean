import StoryReview.AuditRecords

/-!
# Recording under interference

Every request of the audited service keeps the audit trail sound, whatever the others do:
at each recording step it knows, of the session and of the artifacts that it names, what
no step of any request takes back.
-/
namespace StoryReview
open Program Flows RecordsStore

/-! ## What the parts answer -/

/-- Session and run come from one key. -/
def World.Keyed (w : World) : Prop := ∀ s ∈ w.cores, s.storyRunId.key = s.sessionId.key

/-- A part alone: around its steps and by them nothing is lost. -/
def enduring : Conduct Unit where
  observe := fun _ _ _ => ()
  rely := fun _ w w' => Endures w w' ∧ w'.Keyed
  guar := fun _ => Endures

theorem keeps_enduring {F : World → Prop} (hF : ∀ w w', Endures w w' → F w → F w') :
    enduring.Keeps fun _ w => w.Keyed ∧ F w := by
  refine ⟨fun _ w w' hw hrely => ⟨hrely.2, hF w w' hrely.1 hw.2⟩, fun _ w w' hw hframed => ?_⟩
  have hendures := Endures.of_framed hframed
  have hkeyed : w'.Keyed := by
    rw [World.Keyed, hframed.cores]
    exact hw.1
  exact ⟨hendures, hkeyed, hF w w' hendures hw.2⟩

/-- What the part answers, wherever its steps are served. -/
abbrev Gives {α : Type} (p : Orchestration α) (R : α → World → Prop) (w : World) : Prop :=
  enduring.rg (fun _ => True) p (fun a _ => R a) (fun _ _ _ => True) () w

section Gives
variable {α : Type} {w : World}

theorem gives_quiet {p : Orchestration α} (hp : p.Moves (fun _ => True) Quiet)
    (hw : w.Keyed) : Gives p (fun _ w => w.Keyed) w :=
  rg_mono ((keeps_enduring (F := fun _ => True) fun _ _ _ h => h).quiet hp ⟨hw, trivial⟩)
    (fun _ _ _ h => h.1) fun _ _ _ _ => trivial

theorem gives_saveArtifact (type : ArtifactType) (run : RunId) (content : Content)
    (key : IdempotencyKey) (correlationId : Uuid) (hw : w.Keyed) :
    Gives (saveArtifact type run content key correlationId)
      (fun reference w => w.SavedUnder run key type reference) w :=
  rg_mono ((keeps_enduring (F := fun _ => True) fun _ _ _ h => h).saveArtifact type run content
    key correlationId ⟨hw, trivial⟩) (fun _ _ _ h => h.2) fun _ _ _ _ => trivial

theorem gives_listRunArtifacts (run : RunId) (correlationId : Uuid) (hw : w.Keyed) :
    Gives (Lineage.listRunArtifacts run correlationId)
      (fun references w => ∀ reference ∈ references, w.Stores run reference) w := by
  refine (rg_tryCatch _ _).mpr (rg_mono ((keeps_enduring (F := fun _ => True)
    fun _ _ _ h => h).atomicExcept (R := fun references w => ∀ reference ∈ references,
      w.Stores run reference) ((quiet_list _ _).mono fun _ _ => Framed.of_quiet) (fun w => ?_)
        ⟨hw, trivial⟩) (fun _ _ _ h => h.2) fun _ _ _ _ => trivial)
  have hread : (storeCall run (fun _ _ => ArtifactService.list 500 0)
      fun e => artifactErrorFor e correlationId).Yields (fun _ => True)
      (fun references _ => references = (w.objects run).listing 500 0) w :=
    yields_storeRead (fun _ _ _ => wp_list rfl rfl) fun _ _ => wp_list trivial fun _ => rfl
  refine Yields.mono ((quiet_list _ _).yields (Quiet.refl w) hread) ?_
  rintro references w' ⟨rfl, hquiet⟩ reference hreference
  obtain ⟨q, hq, href⟩ := RunObjects.mem_listing hreference
  exact ⟨q, hquiet.objects ▸ hq, href⟩

theorem gives_assembleInputs (session : SessionRecord) (correlationId : Uuid) (hw : w.Keyed) :
    Gives (Lineage.assembleInputs session correlationId)
      (fun inputs w => ∀ reference ∈ inputs.2, w.Stores session.storyRunId reference) w := by
  refine (rg_bind _ _).mpr (rg_mono (gives_quiet (quiet_getStory _ _) hw) (fun story _ w hw => ?_)
    fun _ _ _ _ => trivial)
  refine (rg_bind _ _).mpr (rg_mono (gives_listRunArtifacts _ _ hw) (fun references _ w h => ?_)
    fun _ _ _ _ => trivial)
  exact h

theorem gives_latestPair (references : List ArtifactReference) (correlationId : Uuid)
    (p : Perspective) (hw : w.Keyed) :
    Gives (TurnExecution.latestPair references correlationId p) (fun pair _ => Lineage.latest
      references (.review p) (some p) correlationId = .ok pair.reference) w := by
  refine (rg_bind _ _).mpr ((rg_ofExcept _).mpr ⟨fun reference hlatest => ?_, fun _ _ => trivial⟩)
  refine (rg_bind _ _).mpr (rg_mono (gives_quiet (quiet_reviewReport _ _) hw)
    (fun report _ w _ => ?_) fun _ _ _ _ => trivial)
  exact hlatest

theorem gives_getSession (sessionId : SessionId) (userId : UserId) (hw : w.Keyed) :
    Gives (getSession sessionId userId)
      (fun session w => ∀ s ∈ session, w.BelongsTo s.sessionId s.storyRunId) w := by
  refine (rg_bind _ _).mpr ((keeps_enduring (F := fun _ => True) fun _ _ _ h => h).query
    ⟨hw, trivial⟩ fun _ w hw => ?_)
  split
  · exact fun _ h => by cases h
  · next row hrow =>
      obtain ⟨hrow, -⟩ := Option.filter_eq_some_iff.mp hrow
      refine (rg_bind _ _).mpr ((rg_ofExcept _).mpr ⟨fun s hs => ?_, fun _ _ => trivial⟩)
      unfold sessionFromRow at hs
      split_ifs at hs
      cases hs
      rintro _ ⟨⟩
      have hcore := World.core_of_session hrow
      have hid : row.record.core.sessionId = sessionId := World.sessionId_of_core hcore
      refine ⟨row.record.core, ?_, rfl⟩
      rw [← hid] at hcore
      exact hcore

theorem gives_createStoryRunOrGet (record : StoryRunRecord) (hw : w.Keyed) :
    Gives (createStoryRunOrGet record) (fun r _ => r.storyRunId = record.storyRunId) w := by
  have hkeeps := keeps_enduring (F := fun _ => True) fun _ _ _ h => h
  refine (rg_bind _ _).mpr (hkeeps.statement ⟨hw, trivial⟩ fun _ w c hw => ?_)
  have hlawful := (Lawful.insertStoryRun record (w.tick c)).ticked
  refine ⟨(Endures.insertStoryRun record _).ticked, ?_⟩
  split
  · exact rfl
  · refine (rg_bind _ _).mpr (hkeeps.query ⟨hlawful.runs hw.1, trivial⟩ fun _ w _ => ?_)
    split
    · next existing hexisting =>
        have hfound := (Option.filter_eq_some_iff.mp hexisting).1
        change existing.storyRunId = record.storyRunId
        exact of_decide_eq_true (List.find?_some hfound :)
    · trivial

theorem belongsTo_of_mem (hw : w.Keyed) {row : SessionRow} (hrow : row ∈ w.sessions) :
    w.BelongsTo row.record.sessionId row.record.storyRunId := by
  have hmem : row.record.core ∈ w.cores := List.mem_map_of_mem hrow
  have hsome : (w.core row.record.sessionId).isSome :=
    List.find?_isSome.mpr ⟨row.record.core, hmem, decide_eq_true rfl⟩
  obtain ⟨s, hs⟩ := Option.isSome_iff_exists.mp hsome
  refine ⟨s, hs, ?_⟩
  have hid : s.sessionId.key = row.record.core.sessionId.key :=
    congrArg SessionId.key (World.sessionId_of_core hs)
  have hkey : s.storyRunId.key = row.record.core.storyRunId.key :=
    (hw s (World.mem_cores_of_core hs)).trans (hid.trans (hw _ hmem).symm)
  exact congrArg RunId.mk hkey

/-- The session that is created, or found, belongs to the run. -/
theorem gives_createSessionOrGet {record : SessionRecord}
    (hkey : record.storyRunId.key = record.sessionId.key) (hw : w.Keyed) :
    Gives (createSessionOrGet record)
      (fun s w => w.BelongsTo s.sessionId record.storyRunId) w := by
  have hkeeps := keeps_enduring (F := fun _ => True) fun _ _ _ h => h
  refine (rg_bind _ _).mpr (hkeeps.statement ⟨hw, trivial⟩ fun _ w c hw => ?_)
  have hlawful := (Lawful.insertSession hkey (w.tick c)).ticked
  refine ⟨(Endures.insertSession record _).ticked, ?_⟩
  split
  · next hnew => exact ⟨record.core, Guarding.core_insertSession hnew, rfl⟩
  · refine (rg_bind _ _).mpr (hkeeps.query ⟨hlawful.runs hw.1, trivial⟩ fun _ w hw => ?_)
    split
    · next row hrow =>
        refine (rg_ofExcept _).mpr ⟨fun s hs => ?_, fun _ _ => trivial⟩
        unfold sessionFromRow at hs
        split_ifs at hs
        cases hs
        have hrun : row.record.storyRunId = record.storyRunId :=
          of_decide_eq_true (List.find?_some hrow :)
        exact hrun ▸ belongsTo_of_mem hw.1 (List.mem_of_find?_eq_some hrow)
    · trivial

end Gives

/-! ## Requests -/

namespace Audit

/-- Knowledge that no step of any request takes back. -/
def Lasting (J : AuditedWorld → Prop) : Prop := ∀ t t', J t → Sees t t' → J t'

/-- What is known of a sane world. -/
def Known (J : AuditedWorld → Prop) (t : AuditedWorld) : Prop := t.world.Sane ∧ J t

/-- The audited part, resumed in `t`, ends in `Q`. -/
abbrev Follows {α : Type} (p : Audited α) (Q : α → AuditedWorld → Prop) (t : AuditedWorld) :
    Prop :=
  p.rg (fun _ => True) (fun _ _ _ => ()) (fun _ => Sees) (fun _ => Trails) (fun a _ => Q a)
    (fun _ _ t => t.world.Sane) () t

section Rules
variable {α β : Type} {J : AuditedWorld → Prop} {Q : α → AuditedWorld → Prop}
variable {t : AuditedWorld}

theorem Follows.mono {p : Audited α} {Q' : α → AuditedWorld → Prop} (h : Follows p Q t)
    (hQ : ∀ a t, Q a t → Q' a t) : Follows p Q' t :=
  rg_mono h (fun a _ => hQ a) fun _ _ _ h => h

theorem Follows.bind {S : β → AuditedWorld → Prop} {p : Audited β} {g : β → Audited α}
    (h : Follows p S t) (hg : ∀ b t, S b t → Follows (g b) Q t) : Follows (p.bind g) Q t :=
  (rg_bind _ _).mpr (rg_mono h (fun b _ t hb => hg b t hb) fun _ _ _ h => h)

theorem Follows.ofExcept_bind {r : Except PyException β} {g : β → Audited α}
    (ht : Known J t) (hg : ∀ b, r = .ok b → Follows (g b) Q t) :
    Follows ((Program.ofExcept r).bind g) Q t :=
  (rg_bind _ _).mpr ((rg_ofExcept _).mpr ⟨hg, fun _ _ => ht.1⟩)

theorem Follows.ofExcept {r : Except PyException α} (ht : Known J t)
    (hr : ∀ a, r = .ok a → Q a t) : Follows (Program.ofExcept r) Q t :=
  (rg_ofExcept _).mpr ⟨hr, fun _ _ => ht.1⟩

theorem Follows.tryCatch {p : Audited α} {handler : PyException → Audited α}
    (h : Follows p Q t) (hhandler : ∀ e t, t.world.Sane → Follows (handler e) Q t) :
    Follows (p.tryCatch handler) Q t :=
  (rg_tryCatch _ _).mpr (rg_mono h (fun _ _ _ h => h) fun e _ t he => hhandler e t he)

theorem Lasting.and {K : AuditedWorld → Prop} (hJ : Lasting J) (hK : Lasting K) :
    Lasting fun t => J t ∧ K t :=
  fun t t' ht hsees => ⟨hJ t t' ht.1 hsees, hK t t' ht.2 hsees⟩

theorem lasting_true : Lasting fun _ => True := fun _ _ _ _ => trivial

theorem lasting_hasRun (id : AgentRunId) : Lasting fun t => t.HasRun id :=
  fun _ _ h hsees => AuditedWorld.HasRun.mono h hsees.agentRuns

theorem lasting_savedUnder (run : RunId) (key : IdempotencyKey) (type : ArtifactType)
    (reference : ArtifactReference) :
    Lasting fun t => t.world.SavedUnder run key type reference :=
  fun _ _ h hsees => World.SavedUnder.endures h hsees.endures

theorem lasting_stores (run : RunId) (references : List ArtifactReference) :
    Lasting fun t => ∀ reference ∈ references, t.world.Stores run reference :=
  fun _ _ h hsees reference href => (h reference href).endures hsees.endures

theorem lasting_belongsTo (sessionId : SessionId) (run : RunId) :
    Lasting fun t => t.world.BelongsTo sessionId run :=
  fun _ _ h hsees => World.BelongsTo.endures h hsees.endures

theorem Known.sees {t' : AuditedWorld} (ht : Known J t) (hJ : Lasting J) (h : Sees t t') :
    Known J t' := ⟨h.sane, hJ t t' ht.2 h⟩

/-- What lasts still holds when the part ends. -/
theorem Follows.frame {K : AuditedWorld → Prop} {p : Audited α} (h : Follows p Q t)
    (hK : Lasting K) (ht : Known K t) : Follows p (fun a t => Q a t ∧ K t) t := by
  induction p generalizing t with
  | ret a => exact ⟨h, ht.2⟩
  | raise e => exact h
  | step f k ih =>
      intro c u hc hsees
      obtain ⟨htrails, hrest⟩ := h c u hc hsees
      have hu := ht.sees hK hsees
      have hstep : Sees u (f c u).2 := ⟨htrails.endures, htrails.sane hu.1, htrails.agentRuns⟩
      exact ⟨htrails, ih _ hrest (hu.sees hK hstep)⟩

/-- A step of the plain service. -/
theorem trails_adds {P : TurnRow → Prop} {Q : IdempotencyKey → Prop} {w : World}
    (hJ : Lasting J) (hP : ∀ t row, J t → P row → t.Recorded row)
    (hQ : ∀ t key, J t → Q key → t.HasRun ⟨key, .opening .facilitator⟩) (ht : Known J t)
    (h : Adds P Q t.world w) :
    Trails t { t with world := w } ∧ Known J { t with world := w } := by
  have hsees : Sees t { t with world := w } := ⟨h.endures, h.sane ht.1, List.prefix_rfl⟩
  have hknown := ht.sees hJ hsees
  refine ⟨⟨h.endures, h.sane, List.prefix_rfl, id, fun r hr => .inl hr, fun id row hrow => ?_,
    fun key hkey => ?_⟩, hknown⟩
  · exact (h.turns id row hrow).imp_right (hP _ row hknown.2)
  · exact (h.answers key hkey).imp_right (hQ _ key hknown.2)

/-- A part of the plain service that may add what is on record. -/
theorem follows_adding {P : TurnRow → Prop} {Q : IdempotencyKey → Prop}
    {R : α → World → Prop} {p : Orchestration α}
    (hp : p.Moves (fun _ => True) (Adds P Q)) (hgives : ∀ w, w.Keyed → Gives p R w)
    (hJ : Lasting J) (hP : ∀ t row, J t → P row → t.Recorded row)
    (hQ : ∀ t key, J t → Q key → t.HasRun ⟨key, .opening .facilitator⟩) (ht : Known J t) :
    Follows (unaudited p) (fun a => Known fun t => J t ∧ R a t.world) t := by
  refine rg_mono (rg_zoom (J := fun _ => Known J) (hgives _ ht.1.runs) hp (fun _ _ => rfl)
    (fun _ _ => trivial) (fun _ _ _ => rfl) (fun _ t u hu hsees => ?_) (fun _ t w hu hadds => ?_)
      ht) (fun _ _ _ h => ⟨h.1.1, h.1.2, h.2⟩) fun _ _ _ h => h.1.1
  · exact ⟨⟨hsees.endures, hsees.sane.runs⟩, hu.sees hJ hsees⟩
  · exact trails_adds hJ hP hQ hu hadds

/-- A part of the plain service that adds nothing. -/
theorem follows_gives {R : α → World → Prop} {p : Orchestration α}
    (hp : p.Moves (fun _ => True) AddsNothing) (hgives : ∀ w, w.Keyed → Gives p R w)
    (hJ : Lasting J) (ht : Known J t) :
    Follows (unaudited p) (fun a => Known fun t => J t ∧ R a t.world) t :=
  follows_adding hp hgives hJ (fun _ _ _ h => h.elim) (fun _ _ _ h => h.elim) ht

theorem follows_quiet {p : Orchestration α} (hp : p.Moves (fun _ => True) Quiet)
    (hJ : Lasting J) (ht : Known J t) : Follows (unaudited p) (fun _ => Known J) t :=
  (follows_gives (serves_adds.quiet hp) (fun _ hw => gives_quiet hp hw) hJ ht).mono
    fun _ _ h => ⟨h.1, h.2.1⟩

/-- A part whose answer tells nothing. -/
theorem follows_part {P : TurnRow → Prop} {Q : IdempotencyKey → Prop} {p : Orchestration α}
    (hp : p.Moves (fun _ => True) (Adds P Q)) (hJ : Lasting J)
    (hP : ∀ t row, J t → P row → t.Recorded row)
    (hQ : ∀ t key, J t → Q key → t.HasRun ⟨key, .opening .facilitator⟩) (ht : Known J t) :
    Follows (unaudited p) (fun _ => Known J) t := by
  refine (follows_adding (R := fun _ _ => True) hp (fun w _ => ?_) hJ hP hQ ht).mono
    fun _ _ h => ⟨h.1, h.2.1⟩
  exact rg_mono ((hp.mono fun _ _ h => h.endures).rg (J := fun _ _ => True)
    (fun _ _ _ _ _ => trivial) (fun _ _ _ _ h => ⟨h, trivial⟩) trivial)
    (fun _ _ _ _ => trivial) fun _ _ _ _ => trivial

/-- A step that only reads. -/
theorem follows_read {f : AuditedChoice → AuditedWorld → β} {g : β → Audited α}
    (hJ : Lasting J) (ht : Known J t) (hg : ∀ b t, Known J t → Follows (g b) Q t) :
    Follows ((Program.atomic fun c t => (f c t, t)).bind g) Q t := by
  intro c u _ hsees
  have hu := ht.sees hJ hsees
  exact ⟨(trails_adds (w := u.world) (P := fun _ => False) (Q := fun _ => False) hJ
    (fun _ _ _ h => h.elim) (fun _ _ _ h => h.elim) hu (.of_quiet (.refl _))).1, hg _ _ hu⟩

theorem follows_timedInvoke {agent : Agent} {invoke : Orchestration α}
    (hinvoke : invoke.Moves (fun _ => True) Quiet) (hJ : Lasting J) (ht : Known J t) :
    Follows (timedInvoke agent invoke) (fun _ => Known J) t := by
  refine follows_read hJ ht fun startedAt t ht => ?_
  refine (follows_quiet hinvoke hJ ht).bind fun result t ht => ?_
  refine follows_read hJ ht fun provenance t ht => ?_
  exact follows_read hJ ht fun finishedAt t ht => ht

theorem follows_traverse {f : β → Audited α} {T : β → α → AuditedWorld → Prop} {xs : List β}
    (hT : ∀ x y, Lasting (T x y))
    (hf : ∀ x ∈ xs, ∀ t, Known J t → Follows (f x) (fun y => Known fun t => J t ∧ T x y t) t)
    (ht : Known J t) :
    Follows (Program.traverse f xs)
      (fun ys => Known fun t => J t ∧ List.Forall₂ (fun x y => T x y t) xs ys) t := by
  induction xs generalizing t with
  | nil => exact ⟨ht.1, ht.2, .nil⟩
  | cons x xs ih =>
      obtain ⟨hx, hxs⟩ := List.forall_mem_cons.mp hf
      refine (hx t ht).bind fun y t hy => ?_
      refine ((ih hxs ⟨hy.1, hy.2.1⟩).frame (hT x y) ⟨hy.1, hy.2.2⟩).bind fun ys t hys => ?_
      exact ⟨hys.1.1, hys.1.2.1, .cons hys.2 hys.1.2.2⟩

/-! ### Recording -/

/-- The record tells what the run it is built from tells. -/
theorem attests_of_agentRunRecord {id : AgentRunId} {run : AgentRun} {storyRunId : RunId}
    {sessionId : SessionId} {correlationId : Uuid} {record : AgentRunRecord}
    (h : agentRunRecord id run storyRunId sessionId correlationId = .ok record) {w : World}
    (hrun : Accounted id run.agent storyRunId sessionId run.inputReferences
      run.outputReferences w) : record.agentRunId = id ∧ record.Attests w := by
  unfold agentRunRecord at h
  dsimp only at h
  split at h
  · cases h
  · split_ifs at h
    cases h
    exact ⟨rfl, hrun⟩

theorem Trails.refl (t : AuditedWorld) : Trails t t where
  endures := .refl _
  sane := id
  agentRuns := List.prefix_rfl
  ids := id
  attests := fun _ h => .inl h
  turns := fun _ row hrow => .inl ⟨row, hrow, rfl⟩
  answers := fun _ h => .inl h

theorem trails_insertAgentRun {record : AgentRunRecord} (h : record.Attests t.world) :
    Trails t (insertAgentRun record t).2 ∧
      (insertAgentRun record t).2.HasRun record.agentRunId := by
  unfold insertAgentRun agentRun
  split
  · next existing hexisting =>
      exact ⟨.refl t, existing, List.mem_of_find?_eq_some hexisting,
        of_decide_eq_true (List.find?_some hexisting :)⟩
  · next hnone =>
      refine ⟨⟨.refl _, fun h => h, List.prefix_append _ _, fun hids => ?_, fun r hr => ?_,
        fun id row hrow => .inl ⟨row, hrow, rfl⟩, fun key hkey => .inl hkey⟩,
          record, by simp, rfl⟩
      · rw [List.map_append, List.nodup_append]
        refine ⟨hids, by simp, ?_⟩
        intro id hid id' hid'
        obtain ⟨r, hr, rfl⟩ := List.mem_map.mp hid
        rw [List.map_singleton, List.mem_singleton] at hid'
        rw [hid']
        exact fun heq => List.find?_eq_none.mp hnone r hr (decide_eq_true heq)
      · rcases List.mem_append.mp hr with hr | hr
        · exact .inl hr
        · rw [List.mem_singleton.mp hr]
          exact .inr h

/-- A recorded run is on record from then on. -/
theorem follows_recordLabelled {key : IdempotencyKey} {correlationId : Uuid}
    {storyRunId : RunId} {sessionId : SessionId} {label : RunLabel} {run : AgentRun}
    (hJ : Lasting J) (hrun : ∀ t, Known J t → Accounted ⟨key, label⟩ run.agent storyRunId
      sessionId run.inputReferences run.outputReferences t.world) (ht : Known J t) :
    Follows (recordLabelled key correlationId storyRunId sessionId label run)
      (fun _ => Known fun t => J t ∧ t.HasRun ⟨key, label⟩) t := by
  refine Follows.ofExcept_bind ht fun record hrecord => ?_
  intro c u _ hsees
  have hu := ht.sees hJ hsees
  obtain ⟨hid, hattests⟩ := attests_of_agentRunRecord hrecord (hrun u hu)
  obtain ⟨htrails, hhas⟩ := trails_insertAgentRun hattests
  have hnext : Sees u (insertAgentRun record u).2 :=
    ⟨htrails.endures, htrails.sane hu.1, htrails.agentRuns⟩
  exact ⟨htrails, htrails.sane hu.1, hJ _ _ hu.2 hnext, hid ▸ hhas⟩

end Rules
end Audit
end StoryReview
