import StoryReview.Interleaving
import StoryReview.Scenarios

/-!
# Report renders under interleaving

Any number of renders of one run, each object-store call one step of the pool. The
identity of a format is claimed for one finalized review, then the bytes and the
metadata are written, by whoever finds them missing. No two renders draw the same
artifact id.
-/
namespace StoryReview

/-- The rendered bytes stored under an id. -/
def RunObjects.bytesUnder (o : RunObjects) (id : ArtifactId) (format : Format) :
    Option ReportBytes :=
  o.reportBytes.find? fun b => decide (b.artifactId = id ∧ b.ext = format)

/-- The finalized review that a claim is pinned to. -/
def RunObjects.pinned (o : RunObjects) (c : ReportClaim) : Option FinalizedReview :=
  (o.record c.finalReviewArtifactId).bind fun record =>
    if record.reference.checksumSha256 = c.finalReviewChecksum then
      match record.content with
      | .finalizedReview content => some content
      | _ => none
    else none

theorem RunObjects.Grows.pinned {o o' : RunObjects} (h : o.Grows o') {c : ReportClaim}
    {content : FinalizedReview} (hc : o.pinned c = some content) :
    o'.pinned c = some content := by
  unfold RunObjects.pinned at hc ⊢
  obtain ⟨record, hrecord, hcontent⟩ := Option.bind_eq_some_iff.mp hc
  exact Option.bind_eq_some_iff.mpr ⟨record, h.record _ _ hrecord, hcontent⟩

namespace ReportStore
open Program

structure RenderCall where
  request : RenderReportInput
  artifactId : ArtifactId
  now : Time

namespace RenderCall

abbrev format (call : RenderCall) : Format := call.request.format

/-- The reference stored for the call's format. -/
def stored (call : RenderCall) (o : RunObjects) : Option ArtifactReference :=
  (o.reportIdem call.format).bind fun c => o.reportMeta c.artifactId

end RenderCall

abbrev Trace := List (RunObjects × RunObjects)

def renders : System RenderCall Trace RunObjects Unit StoreException RenderReportOutput :=
  .tracing fun call => renderReport call.request call.artifactId call.now

abbrev RenderPool := Pool RenderCall Trace RunObjects Unit StoreException RenderReportOutput

abbrev RenderThread :=
  Thread RenderCall Trace RunObjects Unit StoreException RenderReportOutput

def Distinct (call call' : RenderCall) : Prop := call.artifactId ≠ call'.artifactId

/-- Every call starts with an artifact id that is in use nowhere. -/
def freshIds : Discipline RenderCall Trace RunObjects Unit StoreException RenderReportOutput where
  starts := fun o running call =>
    (∀ f c, o.reportIdem f = some c → c.artifactId ≠ call.artifactId) ∧
      ∀ thread ∈ running, Distinct call thread.origin
  moves := fun _ _ _ => True

/-! ## What one object-store call does -/

/-- The claim of a call's format and the review it is pinned to. -/
structure Claimed (call : RenderCall) (c : ReportClaim) (content : FinalizedReview)
    (o : RunObjects) : Prop where
  claim : o.reportIdem call.format = some c
  pinned : o.pinned c = some content

theorem Claimed.grows {call : RenderCall} {c : ReportClaim} {content : FinalizedReview}
    {o o' : RunObjects} (h : Claimed call c content o) (hgrows : o.Grows o') :
    Claimed call c content o' :=
  ⟨hgrows.reportIdem _ _ h.claim, hgrows.pinned h.pinned⟩

inductive RenderEffect (call : RenderCall) (o : RunObjects) : RunObjects → Prop
  | read : RenderEffect call o o
  | claim {c : ReportClaim} (hnone : o.reportIdem call.format = none)
      (hid : c.artifactId = call.artifactId)
      (hfree : ∀ f c, o.reportIdem f = some c → c.artifactId ≠ call.artifactId) :
      RenderEffect call o (o.setReportIdem call.format c)
  | bytes {c : ReportClaim} {content : FinalizedReview} (hclaim : Claimed call c content o)
      (hnew : o.bytesUnder c.artifactId call.format = none) :
      RenderEffect call o
        (o.addReportBytes ⟨c.artifactId, call.format, render content call.format⟩)
  | finish {c : ReportClaim} {reference : ArtifactReference}
      (hclaim : o.reportIdem call.format = some c) (hid : reference.artifactId = c.artifactId)
      (htype : reference.type = .report call.format)
      (hnew : o.reportMeta c.artifactId = none) :
      RenderEffect call o (o.addReportMeta reference)

theorem RenderEffect.grows {call : RenderCall} {o o' : RunObjects}
    (h : RenderEffect call o o') : o.Grows o' := by
  cases h with
  | read => exact .refl o
  | claim hnone hid hfree => exact RunObjects.grows_setReportIdem hnone _
  | bytes hclaim hnew => exact RunObjects.grows_addReportBytes o _
  | finish hclaim hid htype hnew => exact RunObjects.grows_addReportMeta o _

theorem RenderEffect.bytesUnder {call : RenderCall} {o o' : RunObjects}
    (h : RenderEffect call o o') {id : ArtifactId} {format : Format} {b : ReportBytes}
    (hb : o.bytesUnder id format = some b) : o'.bytesUnder id format = some b := by
  cases h with
  | read => exact hb
  | claim => exact hb
  | bytes =>
      unfold RunObjects.bytesUnder at hb ⊢
      rw [RunObjects.addReportBytes, List.find?_append, hb, Option.some_or]
  | finish => exact hb

/-- Formats are claimed with different ids, the bytes of a format are those of its claim
and rendered from the review it is pinned to, and its metadata is that of its claim. -/
structure Reported (o : RunObjects) : Prop where
  injective : ∀ f c f' c', o.reportIdem f = some c → o.reportIdem f' = some c' →
    c.artifactId = c'.artifactId → f = f'
  bytes : ∀ b ∈ o.reportBytes, ∃ c content, o.reportIdem b.ext = some c ∧
    c.artifactId = b.artifactId ∧ o.pinned c = some content ∧
    b.rendered = render content b.ext
  metas : ∀ m ∈ o.reportMetas, ∃ f c, m.type = .report f ∧ o.reportIdem f = some c ∧
    m.artifactId = c.artifactId
  nodup : (o.reportMetas.map ArtifactReference.artifactId).Nodup

theorem RenderEffect.reported {call : RenderCall} {o o' : RunObjects}
    (h : RenderEffect call o o') (ho : Reported o) : Reported o' := by
  have hgrows := h.grows
  have hbytes : ∀ b ∈ o.reportBytes, ∃ c content, o'.reportIdem b.ext = some c ∧
      c.artifactId = b.artifactId ∧ o'.pinned c = some content ∧
      b.rendered = render content b.ext := by
    intro b hb
    obtain ⟨c, content, hc, hid, hpinned, hrendered⟩ := ho.bytes b hb
    exact ⟨c, content, hgrows.reportIdem _ _ hc, hid, hgrows.pinned hpinned, hrendered⟩
  have hmetas : ∀ m ∈ o.reportMetas, ∃ f c, m.type = .report f ∧
      o'.reportIdem f = some c ∧ m.artifactId = c.artifactId := by
    intro m hm
    obtain ⟨f, c, htype, hc, hid⟩ := ho.metas m hm
    exact ⟨f, c, htype, hgrows.reportIdem _ _ hc, hid⟩
  cases h with
  | read => exact ho
  | @claim c hnone hid hfree =>
      refine ⟨fun f d f' d' hd hd' hsame => ?_, hbytes, hmetas, ho.nodup⟩
      rw [RunObjects.setReportIdem_reportIdem] at hd hd'
      split_ifs at hd hd' with hf hf' hf'
      · exact hf.trans hf'.symm
      · cases hd
        exact absurd (hsame.symm.trans hid) (hfree f' d' hd')
      · cases hd'
        exact absurd (hsame.trans hid) (hfree f d hd)
      · exact ho.injective f d f' d' hd hd' hsame
  | bytes hclaim hnew =>
      refine ⟨ho.injective, fun b hb => ?_, hmetas, ho.nodup⟩
      rcases List.mem_append.mp hb with hb | hb
      · exact hbytes b hb
      · rw [List.mem_singleton.mp hb]
        exact ⟨_, _, hclaim.claim, rfl, hclaim.pinned, rfl⟩
  | @finish c reference hclaim hid htype hnew =>
      refine ⟨ho.injective, hbytes, fun m hm => ?_, ?_⟩
      · rcases List.mem_append.mp hm with hm | hm
        · exact hmetas m hm
        · rw [List.mem_singleton.mp hm]
          exact ⟨call.format, c, htype, hclaim, hid⟩
      · have hfresh : ∀ m ∈ o.reportMetas, m.artifactId ≠ reference.artifactId := by
          intro m hm hsame
          have hnone := List.find?_eq_none.mp hnew m hm
          rw [decide_eq_true_eq] at hnone
          exact hnone (hsame.trans hid)
        simpa [RunObjects.addReportMeta, List.nodup_append, ho.nodup] using hfresh

/-! ## Each render keeps the contract -/

/-- The render has won the claim, or looked for the metadata and found none. -/
def Missed (call : RenderCall) (g : Trace) : Prop :=
  (∃ seen, g.reverse[2]? = some seen ∧ seen.1.reportIdem call.format = none) ∨
    ∃ seen, g.reverse[4]? = some seen ∧ call.stored seen.1 = none

/-- Another render has stored the metadata that this one is going to write. -/
def Overtaken (call : RenderCall) (g : Trace) (o : RunObjects) : Prop :=
  Missed call g ∧ (call.stored o).isSome

theorem Missed.cons {call : RenderCall} {g : Trace} (h : Missed call g)
    (step : RunObjects × RunObjects) : Missed call (step :: g) := by
  have hkeep : ∀ (n : ℕ) seen, g.reverse[n]? = some seen →
      (step :: g).reverse[n]? = some seen := by
    intro n seen hseen
    obtain ⟨hlt, -⟩ := List.getElem?_eq_some_iff.mp hseen
    rw [List.reverse_cons, List.getElem?_append_left hlt]
    exact hseen
  rcases h with ⟨seen, hseen, hnone⟩ | ⟨seen, hseen, hnone⟩
  · exact .inl ⟨seen, hkeep 2 seen hseen, hnone⟩
  · exact .inr ⟨seen, hkeep 4 seen hseen, hnone⟩

/-- How a render may end: with the stored reference, unless it was overtaken and answers
with the one it built. -/
inductive Ends (call : RenderCall) (o : RunObjects) :
    Trace → Except StoreException RenderReportOutput → Prop
  | returned {out : RenderReportOutput} {last : RunObjects × RunObjects} {g : Trace}
      (hstored : ¬ Overtaken call g last.1 → call.stored o = some out.reference)
      (hown : Overtaken call g last.1 → out.reference.createdAt = call.now) :
      Ends call o (last :: g) (.ok out)
  | failed {e : StoreException} {g : Trace} : Ends call o g (.error e)

/-- Nothing stored is lost, no one else claims a format for the call's id, and what the
store knows of its reports holds on. -/
structure Rely (call : RenderCall) (o o' : RunObjects) : Prop where
  grows : o.Grows o'
  bytes : ∀ id format b, o.bytesUnder id format = some b → o'.bytesUnder id format = some b
  own : ∀ f c, o'.reportIdem f = some c → c.artifactId = call.artifactId →
    o.reportIdem f = some c
  reported : Reported o'

theorem Rely.trans {call : RenderCall} {o o' o'' : RunObjects} (h : Rely call o o')
    (h' : Rely call o' o'') : Rely call o o'' :=
  ⟨h.grows.trans h'.grows, fun id format b hb => h'.bytes id format b (h.bytes id format b hb),
    fun f c hc hid => h.own f c (h'.own f c hc hid) hid, h'.reported⟩

def contract : Contract RenderCall Trace RunObjects StoreException RenderReportOutput where
  inv := Reported
  rely := fun call _ => Rely call
  guar := fun call _ => RenderEffect call
  post := fun call g r o => Ends call o g r

abbrev Keeps (call : RenderCall) {α : Type} (p : StoreProgram α)
    (Q : α → Trace → RunObjects → Prop) (g : Trace) (o : RunObjects) : Prop :=
  p.rg (fun _ => True) (fun g o o' => (o, o') :: g) (fun _ => Rely call)
    (fun _ => RenderEffect call) Q (fun e g o => Ends call o g (.error e)) g o

section Keeps
variable {call : RenderCall} {α : Type} {Q : α → Trace → RunObjects → Prop}
variable {g : Trace} {o : RunObjects}

theorem keeps_storeRead {f : RunObjects → α}
    (h : ∀ t, Rely call o t → Q (f t) ((t, t) :: g) t) : Keeps call (storeRead f) Q g o :=
  fun _ t _ ht => ⟨.read, h t ht⟩

theorem keeps_uploadNew {Q : Bool → Trace → RunObjects → Prop} {taken : RunObjects → Bool}
    {put : RunObjects → RunObjects}
    (htaken : ∀ t, Rely call o t → taken t = true → Q false ((t, t) :: g) t)
    (hput : ∀ t, Rely call o t → taken t = false →
      RenderEffect call t (put t) ∧ Q true ((t, put t) :: g) (put t)) :
    Keeps call (uploadNew taken put) Q g o := by
  refine (rg_atomic _).mpr fun c t _ ht => ?_
  cases h : taken t with
  | true => exact ⟨.read, htaken t ht h⟩
  | false => exact hput t ht h

/-- The metadata is written last; a loser of that write answers all the same. -/
theorem keeps_finish {c : ReportClaim} {out : RenderReportOutput}
    (hclaim : o.reportIdem call.format = some c)
    (hid : out.reference.artifactId = c.artifactId)
    (htype : out.reference.type = .report call.format)
    (hnow : out.reference.createdAt = call.now) (hmissed : Missed call g) :
    Keeps call (do
      let created ← uploadNew (fun o => (o.reportMeta out.reference.artifactId).isSome)
        (·.addReportMeta out.reference)
      let present ← (if created then pure true
        else storeRead fun o => (o.reportMeta out.reference.artifactId).isSome)
      if present then pure () else .raise .preconditionFailed)
      (fun _ g o => Ends call o g (.ok out)) g o := by
  simp only [Keeps, Program.bind_eq, Program.pure_eq, rg_bind]
  refine keeps_uploadNew (fun t ht htaken => ?_) fun t ht hfree => ?_
  · -- another render has written the metadata
    simp only [Bool.false_eq_true, if_false]
    obtain ⟨m, hm⟩ := Option.isSome_iff_exists.mp htaken
    refine keeps_storeRead fun u hu => ?_
    have hm' := hu.grows.reportMeta _ _ hm
    have hclaim' := hu.grows.reportIdem _ _ (ht.grows.reportIdem _ _ hclaim)
    simp only [hm', Option.isSome_some, if_true, rg_ret]
    have hovertaken : Overtaken call ((t, t) :: g) u := by
      refine ⟨hmissed.cons _, ?_⟩
      simp [RenderCall.stored, hclaim', ← hid, hm']
    exact Ends.returned (fun h => absurd hovertaken h) fun _ => hnow
  · have hnew : t.reportMeta out.reference.artifactId = none := by simpa using hfree
    have hclaim' := ht.grows.reportIdem _ _ hclaim
    refine ⟨.finish hclaim' hid htype (hid ▸ hnew), ?_⟩
    simp only [if_true, rg_ret]
    refine Ends.returned (fun _ => ?_) fun h => ?_
    · simp [RenderCall.stored, hclaim', ← hid, RunObjects.addReportMeta_reportMeta, hnew]
    · have hsome := h.2
      simp [RenderCall.stored, hclaim', ← hid, hnew] at hsome

/-- The bytes are those of the claim, whoever wrote them. -/
theorem keeps_writeReport (out : RenderReportOutput) {c : ReportClaim}
    {content : FinalizedReview} (hclaim : Claimed call c content o)
    (hid : out.reference.artifactId = c.artifactId)
    (htype : out.reference.type = .report call.format)
    (hsum : out.reference.checksumSha256 = modelDump (render content call.format))
    (hnow : out.reference.createdAt = call.now) (hmissed : Missed call g) :
    Keeps call (writeReport call.request out.reference (render content call.format))
      (fun _ g o => Ends call o g (.ok out)) g o := by
  simp only [writeReport, Keeps, Program.bind_eq, Program.pure_eq, rg_bind]
  refine keeps_uploadNew (fun t ht htaken => ?_) fun t ht hfree => ?_
  · simp only [Bool.false_eq_true, if_false]
    refine keeps_storeRead fun u hu => ?_
    obtain ⟨b, hb⟩ := Option.isSome_iff_exists.mp htaken
    have hb' : u.bytesUnder out.reference.artifactId call.format = some b := hu.bytes _ _ _ hb
    have hclaim' := hclaim.grows (ht.grows.trans hu.grows)
    have hsame : modelDump b.rendered = out.reference.checksumSha256 := by
      obtain ⟨c', content', hc', -, hpinned, hrendered⟩ :=
        hu.reported.bytes b (List.mem_of_find?_eq_some hb')
      have hext := List.find?_some hb'
      rw [decide_eq_true_eq] at hext
      rw [hext.2] at hc' hrendered
      obtain rfl := Option.some_inj.mp (hclaim'.claim.symm.trans hc')
      obtain rfl := Option.some_inj.mp (hclaim'.pinned.symm.trans hpinned)
      rw [hrendered, hsum]
    unfold RunObjects.bytesUnder at hb'
    simp only [hb', Option.any_some, hsame, decide_true, Bool.not_true, Bool.false_eq_true,
      if_false]
    have hfinish := keeps_finish (g := (u, u) :: (t, t) :: g) hclaim'.claim hid htype hnow
      ((hmissed.cons (t, t)).cons (u, u))
    simpa only [Keeps, Program.bind_eq, Program.pure_eq] using hfinish
  · have hnew : t.bytesUnder out.reference.artifactId call.format = none := by
      unfold RunObjects.bytesUnder
      simpa using hfree
    have hclaim' := hclaim.grows ht.grows
    have heffect := RenderEffect.bytes hclaim' (hid ▸ hnew)
    rw [← hid] at heffect
    refine ⟨heffect, ?_⟩
    simp only [if_true, rg_ret, Bool.not_true, Bool.false_eq_true, if_false]
    have hfinish := keeps_finish
      (o := t.addReportBytes ⟨out.reference.artifactId, call.format, render content call.format⟩)
      hclaim'.claim hid htype hnow (hmissed.cons (t, t.addReportBytes
        ⟨out.reference.artifactId, call.format, render content call.format⟩))
    simpa only [Keeps, Program.bind_eq, Program.pure_eq] using hfinish

theorem keeps_readFinalizedReview
    {Q : ArtifactRecord × FinalizedReview → Trace → RunObjects → Prop}
    (h : ∀ t u record content, Rely call o t → Rely call t u →
      u.record call.request.finalReviewReference.artifactId = some record →
      record.content = .finalizedReview content →
      Q (record, content) [(u, u), (t, t)] u) :
    Keeps call (readFinalizedReview call.request) Q [] o := by
  simp only [readFinalizedReview, Keeps, Program.bind_eq, Program.pure_eq, rg_bind]
  refine keeps_storeRead fun t ht => keeps_storeRead fun u hu => ?_
  split
  · next record hfound hrecord =>
      split_ifs
      · exact .failed
      · exact .failed
      · split
        · next content hcontent => exact h t u record content ht hu hrecord hcontent
        · exact .failed
  · exact .failed

theorem keeps_readMetaOrNone {id : ArtifactId}
    {Q : Option ArtifactReference → Trace → RunObjects → Prop}
    (hfound : ∀ t u m, Rely call o t → Rely call t u → t.reportMeta id = some m →
      Q (some m) ((u, u) :: (t, t) :: g) u)
    (hmissing : ∀ t, Rely call o t → t.reportMeta id = none → Q none ((t, t) :: g) t) :
    Keeps call (readMetaOrNone id) Q g o := by
  simp only [readMetaOrNone, Keeps, Program.bind_eq, Program.pure_eq, rg_bind]
  refine keeps_storeRead fun t ht => ?_
  cases hm : t.reportMeta id with
  | none => exact hmissing t ht hm
  | some m =>
      simp only [Option.isSome_some, if_true]
      refine keeps_storeRead fun u hu => ?_
      rw [hu.grows.reportMeta id m hm]
      exact hfound t u m ht hu hm

end Keeps

theorem pinned_of_record {o : RunObjects} {c : ReportClaim} {record : ArtifactRecord}
    {content : FinalizedReview} (hrecord : o.record c.finalReviewArtifactId = some record)
    (hcontent : record.content = .finalizedReview content)
    (hsum : c.finalReviewChecksum = record.reference.checksumSha256) :
    o.pinned c = some content := by
  simp [RunObjects.pinned, hrecord, hcontent, hsum]

theorem keeps_renderReport (call : RenderCall) {o : RunObjects}
    (hfree : ∀ f c, o.reportIdem f = some c → c.artifactId ≠ call.artifactId) :
    Keeps call (renderReport call.request call.artifactId call.now)
      (fun out g o => Ends call o g (.ok out)) [] o := by
  simp only [renderReport, Keeps, Program.bind_eq, Program.pure_eq, rg_bind]
  refine keeps_readFinalizedReview fun t u record content ht hu hrecord hcontent => ?_
  simp only [claim, Program.bind_eq, Program.pure_eq, rg_bind]
  refine keeps_uploadNew (fun v hv htaken => ?_) fun v hv hopen => ?_
  · -- the claim is lost
    obtain ⟨winner, hwinner⟩ := Option.isSome_iff_exists.mp htaken
    simp only [Bool.false_eq_true, if_false, rg_bind]
    refine keeps_storeRead fun w hw => ?_
    rw [hw.grows.reportIdem _ _ hwinner]
    dsimp only
    split_ifs with hsame
    swap
    · exact .failed
    simp only [rg_ret]
    refine keeps_readMetaOrNone (fun x y m hx hy hm => ?_) fun x hx hm => ?_
    · -- the winner's metadata is there
      have hclaim : x.reportIdem call.format = some winner :=
        hx.grows.reportIdem _ _ (hw.grows.reportIdem _ _ hwinner)
      have hstored : call.stored x = some m := by
        simp [RenderCall.stored, hclaim, hm]
      have hstored' : call.stored y = some m := by
        simp [RenderCall.stored, hy.grows.reportIdem _ _ hclaim, hy.grows.reportMeta _ _ hm]
      dsimp only
      split_ifs with htype
      · refine Ends.returned (fun _ => hstored') fun h => ?_
        rcases h.1 with ⟨seen, hseen, hnone⟩ | ⟨seen, hseen, hnone⟩
        · cases hseen
          rw [hwinner] at hnone
          cases hnone
        · cases hseen
          rw [hstored] at hnone
          cases hnone
      · exact .failed
    · -- the winner has not written it yet
      have hclaim : x.reportIdem call.format = some winner :=
        hx.grows.reportIdem _ _ (hw.grows.reportIdem _ _ hwinner)
      have hrecord' : x.record winner.finalReviewArtifactId = some record := by
        rw [hsame.1]
        exact hx.grows.record _ _ (hw.grows.record _ _ (hv.grows.record _ _ hrecord))
      have hmissed : Missed call [(x, x), (w, w), (v, v), (u, u), (t, t)] :=
        .inr ⟨(x, x), rfl, by simp [RenderCall.stored, hclaim, hm]⟩
      simp only [rg_bind, Option.map_some, Option.getD_some]
      refine keeps_storeRead fun y hy => ?_
      exact keeps_writeReport
        ⟨newReference call.request winner.artifactId (render content call.format)
          call.now y.reportMetas, call.format, true, rfl⟩
        ⟨hy.grows.reportIdem _ _ hclaim, pinned_of_record (hy.grows.record _ _ hrecord')
          hcontent hsame.2⟩ rfl rfl rfl rfl (hmissed.cons _)
  · -- the claim is won
    have hnone : v.reportIdem call.format = none := by simpa using hopen
    have hfree' : ∀ f c, v.reportIdem f = some c → c.artifactId ≠ call.artifactId := by
      intro f c hc hid
      exact hfree f c ((ht.trans (hu.trans hv)).own f c hc hid) hid
    refine ⟨.claim hnone rfl hfree', ?_⟩
    have hmissed : ∀ v', Missed call [(v, v'), (u, u), (t, t)] :=
      fun v' => .inl ⟨(v, v'), rfl, hnone⟩
    simp only [if_true, rg_ret, rg_bind, Option.map_none, Option.getD_none]
    refine keeps_storeRead fun w hw => ?_
    have hclaim := hw.grows.reportIdem call.format _
      ((RunObjects.setReportIdem_reportIdem _ _ _ _).trans (if_pos rfl))
    have hrecord' : w.record call.request.finalReviewReference.artifactId = some record :=
      hw.grows.record _ _ (hv.grows.record _ _ hrecord)
    exact keeps_writeReport
      ⟨newReference call.request call.artifactId (render content call.format)
        call.now w.reportMetas, call.format, true, rfl⟩
      ⟨hclaim, pinned_of_record hrecord' hcontent rfl⟩ rfl rfl rfl rfl ((hmissed _).cons _)

theorem contract_sound : contract.Sound renders (freshIds.apart Distinct) where
  rely_refl := fun call _ o ho =>
    ⟨.refl o, fun _ _ _ h => h, fun _ _ h _ => h, ho⟩
  rely_trans := fun _ _ _ _ _ h h' => h.trans h'
  starts := fun o running call _ hstart => keeps_renderReport call hstart.1
  inv := fun _ _ _ _ ho _ h => h.reported ho
  compatible := by
    intro o others thread o' ho hmoves h other hother
    refine ⟨h.grows, fun _ _ _ hb => h.bytesUnder hb, fun f c hc hid => ?_, h.reported ho⟩
    cases h with
    | read => exact hc
    | claim hnone hown hfree =>
        rw [RunObjects.setReportIdem_reportIdem] at hc
        split_ifs at hc
        · cases hc
          exact absurd (hown.symm.trans hid) (hmoves.2 other hother)
        · exact hc
    | bytes => exact hc
    | finish => exact hc
  post := by
    intro o others thread o' _ _ h call g r hpost
    cases hpost with
    | returned hstored hown =>
        refine .returned (fun hnot => ?_) hown
        obtain ⟨c, hc, hm⟩ := Option.bind_eq_some_iff.mp (hstored hnot)
        exact Option.bind_eq_some_iff.mpr
          ⟨c, h.grows.reportIdem _ _ hc, h.grows.reportMeta _ _ hm⟩
    | failed => exact .failed

/-! ## Runs -/

theorem distinct_of_starts {o : RunObjects} {running : List RenderThread} {call : RenderCall}
    (h : freshIds.starts o running call) : ∀ thread ∈ running, Distinct call thread.origin := h.2

/-- The run's finalized reviews are stored, and no report. -/
def unrendered (records : List ArtifactRecord) : RunObjects := { records := records }

theorem reported_unrendered (records : List ArtifactRecord) : Reported (unrendered records) where
  injective := by
    intro f c f' c' h
    cases h
  bytes := by
    intro b hb
    cases hb
  metas := by
    intro m hm
    cases hm
  nodup := List.nodup_nil

/-- At most one report of a format: its bytes are rendered from the review that the
identity is pinned to, its metadata has the identity's id. -/
structure OneReport (o : RunObjects) : Prop where
  bytes : ∀ b ∈ o.reportBytes, ∀ b' ∈ o.reportBytes, b.ext = b'.ext → b = b'
  metas : ∀ m ∈ o.reportMetas, ∀ m' ∈ o.reportMetas, m.type = m'.type → m = m'
  rendered : ∀ b ∈ o.reportBytes, ∃ c content, o.reportIdem b.ext = some c ∧
    c.artifactId = b.artifactId ∧ o.pinned c = some content ∧
    b.rendered = render content b.ext
  named : ∀ m ∈ o.reportMetas, ∃ f c, m.type = .report f ∧ o.reportIdem f = some c ∧
    m.artifactId = c.artifactId

theorem Reported.oneReport {o : RunObjects} (h : Reported o) : OneReport o where
  bytes := by
    rintro ⟨id, ext, rendered⟩ hb ⟨id', ext', rendered'⟩ hb' rfl
    obtain ⟨c, content, hc, hid, hpinned, hrendered⟩ := h.bytes _ hb
    obtain ⟨c', content', hc', hid', hpinned', hrendered'⟩ := h.bytes _ hb'
    obtain rfl := Option.some_inj.mp (hc.symm.trans hc')
    obtain rfl := Option.some_inj.mp (hpinned.symm.trans hpinned')
    simp_all
  metas := by
    intro m hm m' hm' hsame
    obtain ⟨f, c, htype, hc, hid⟩ := h.metas m hm
    obtain ⟨f', c', htype', hc', hid'⟩ := h.metas m' hm'
    obtain rfl := ArtifactType.report_injective (htype.symm.trans (hsame.trans htype'))
    obtain rfl := Option.some_inj.mp (hc.symm.trans hc')
    exact List.inj_on_of_nodup_map h.nodup hm hm' (hid.trans hid'.symm)
  rendered := h.bytes
  named := h.metas

/-- However the renders of a run interleave and crash: there is one report of a format,
rendered from the review that its identity names, a stored reference never changes, and a
call that returns has the stored reference unless another stored its metadata before this
one's upload; the reference it then returns is its own, of its own time. -/
theorem renders_agree {records : List ArtifactRecord} {pool : RenderPool}
    (h : pool.Reachable renders freshIds (unrendered records)) {mover : Option RenderThread}
    {pool' : RenderPool} (hstep : Pool.Step renders freshIds mover pool pool') :
    OneReport pool'.state ∧
      (∀ call m, RenderCall.stored call pool.state = some m →
        call.stored pool'.state = some m) ∧
      ∃ new : Option (RenderCall × Except StoreException RenderReportOutput),
        pool'.ended.Subperm (new.toList ++ pool.ended) ∧
        ∀ call out, new = some (call, .ok out) → ∃ thread, mover = some thread ∧
          thread.origin = call ∧
          (¬ Overtaken call thread.aux pool.state →
            call.stored pool'.state = some out.reference) ∧
          (Overtaken call thread.aux pool.state →
            ∃ stored, call.stored pool'.state = some stored ∧
              (stored.createdAt ≠ call.now → out.reference ≠ stored)) := by
  have hreach := h.apart (R := Distinct) (fun _ _ => Ne.symm) fun _ _ _ => distinct_of_starts
  have hapart := (hstep.apart (R := Distinct) (fun _ _ => Ne.symm)
    (fun _ _ _ => distinct_of_starts) hreach.2).1
  have hholds := contract_sound.holds (reported_unrendered records) hreach.1
  have hkeeps : ∀ call m, RenderCall.stored call pool.state = some m →
      call.stored pool'.state = some m := by
    intro call m hm
    cases mover with
    | none => exact hstep.state_eq ▸ hm
    | some thread =>
        have hgrows := (hholds.guarantee contract_sound hapart).2.2.grows
        obtain ⟨c, hc, hm⟩ := Option.bind_eq_some_iff.mp hm
        exact Option.bind_eq_some_iff.mpr
          ⟨c, hgrows.reportIdem _ _ hc, hgrows.reportMeta _ _ hm⟩
  refine ⟨(hholds.step contract_sound hapart).inv.oneReport, hkeeps, ?_⟩
  obtain ⟨new, hsub, hnew⟩ := hholds.newlyEnded contract_sound (fun _ => rfl) hapart
  refine ⟨new, hsub, fun call out heq => ?_⟩
  obtain ⟨thread, hthread, horigin, hends⟩ := hnew _ heq
  dsimp only at horigin hends
  subst horigin
  refine ⟨thread, hthread, rfl, ?_⟩
  generalize hg : renders.observe thread.origin thread.aux pool.state pool'.state = g at hends
  generalize hr : (Except.ok out : Except StoreException RenderReportOutput) = r at hends
  cases hends with
  | failed => cases hr
  | returned hstored hown =>
      cases hg
      cases hr
      refine ⟨hstored, fun hovertaken => ?_⟩
      obtain ⟨stored, hbefore⟩ := Option.isSome_iff_exists.mp hovertaken.2
      refine ⟨stored, hkeeps _ _ hbefore, fun hnow hsame => hnow ?_⟩
      rw [← hsame]
      exact hown hovertaken

end ReportStore
end StoryReview

namespace StoryReview.Scenario
open ReportStore

def finalReview : FinalizedReview where
  storyId := "story-01"
  storyRunId := ⟨0⟩
  synthesisReference := { reviewReference .business with type := .synthesis, perspective := none }
  issues := []
  resolutions := []
  remainingOpenIssues := []
  poAccepted := true
  finalTurnNumber := 2
  finalizedAt := 0

def finalReference : ArtifactReference :=
  { reviewReference .business with
    artifactId := ⟨7⟩
    type := .finalizedReview
    perspective := none }

def finalRecords : List ArtifactRecord := [⟨finalReference, .finalizedReview finalReview⟩]

/-- A request for the Markdown report, each with its own id and time. -/
def renderMd (id : Uuid) : RenderCall where
  request :=
    { storyRunId := ⟨0⟩, finalReviewReference := finalReference, format := .md
      validate_final_review_reference := ⟨rfl, rfl⟩ }
  artifactId := ⟨id⟩
  now := id

def renderRest (id : Uuid) (n : ℕ) (o : RunObjects) : StoreProgram RenderReportOutput :=
  (renders.program (renderMd id)).residual (fun _ => ()) n o

def renderState (id : Uuid) (n : ℕ) (o : RunObjects) : RunObjects :=
  (renders.program (renderMd id)).crash (fun _ => ()) n o

theorem starts_renderMd (id : Uuid) : freshIds.starts (unrendered finalRecords) [] (renderMd id) := by
  refine ⟨fun f c hc => ?_, fun thread hthread => ?_⟩
  · cases hc
  · cases hthread

/-- The last write of a render that no other overlaps with. -/
theorem renders_agree_alone : ∃ pool pool' : RenderPool, ∃ mover,
    pool.Reachable renders freshIds (unrendered finalRecords) ∧
      Pool.Step renders freshIds mover pool pool' ∧ OneReport pool'.state ∧
      ((renderMd 0).stored pool'.state).isSome := by
  obtain ⟨g, hsteps⟩ := Pool.Steps.advance (S := renders) (D := freshIds) (i := renderMd 0)
    (p := renders.program (renderMd 0)) (fun _ => ()) [] [] (fun _ => trivial)
    (fun _ _ _ => trivial) 5 [] (unrendered finalRecords) []
  have hreach := Relation.ReflTransGen.head
    ⟨none, .start (renderMd 0) (starts_renderMd 0)⟩ hsteps
  have hrest : (renderRest 0 5 (unrendered finalRecords)).outcome.isNone = true := by
    decide +kernel
  obtain ⟨g', hstep⟩ := Pool.Step.next (S := renders) (D := freshIds) (i := renderMd 0)
    [] [] (p := renderRest 0 5 (unrendered finalRecords)) (Option.isNone_iff_eq_none.mp hrest)
    (c := ()) trivial (g := g) (s := renderState 0 5 (unrendered finalRecords)) trivial []
  have hstored : ((renderMd 0).stored ((renderRest 0 5 (unrendered finalRecords)).crash
      (fun _ => ()) 1 (renderState 0 5 (unrendered finalRecords)))).isSome = true := by
    decide +kernel
  exact ⟨_, _, _, hreach, hstep, (renders_agree hreach hstep).1, hstored⟩

/-- The second render, after the first one's claim. -/
def secondRender : Except StoreException RenderReportOutput × RunObjects :=
  (renders.program (renderMd 1)).run (fun _ => ()) (renderState 0 3 (unrendered finalRecords))

/-- The rest of the first render, after the second one. -/
def firstRender : Except StoreException RenderReportOutput × RunObjects :=
  (renderRest 0 3 (unrendered finalRecords)).run (fun _ => ()) secondRender.2

/-- A first render claims the identity, a second one adopts it and stores the report, and
the first one returns the reference that it built itself. -/
theorem overtakenRender_differs : ∃ pool : RenderPool, ∃ out,
    pool.Reachable renders freshIds (unrendered finalRecords) ∧
      (renderMd 0, .ok out) ∈ pool.finished ∧
      (renderMd 0).stored pool.state ≠ some out.reference := by
  obtain ⟨g, hclaimed⟩ := Pool.Steps.advance (S := renders) (D := freshIds) (i := renderMd 0)
    (p := renders.program (renderMd 0)) (fun _ => ()) [] [] (fun _ => trivial)
    (fun _ _ _ => trivial) 3 [] (unrendered finalRecords) []
  have hstart : freshIds.starts (renderState 0 3 (unrendered finalRecords))
      [⟨renderMd 0, g, renderRest 0 3 (unrendered finalRecords)⟩] (renderMd 1) := by
    refine ⟨fun f c hc hid => ?_, fun thread hthread => ?_⟩
    · have hclaims : renderState 0 3 (unrendered finalRecords) =
        (unrendered finalRecords).setReportIdem .md ⟨⟨0⟩, ⟨7⟩, .null⟩ := rfl
      rw [hclaims, RunObjects.setReportIdem_reportIdem] at hc
      split_ifs at hc
      · cases hc
        cases hid
      · cases hc
    · rw [List.mem_singleton.mp hthread]
      exact fun h => nomatch h
  have hsecond := Pool.Steps.complete (S := renders) (D := freshIds) (i := renderMd 1)
    (p := renders.program (renderMd 1)) (fun _ => ()) []
    [⟨renderMd 0, g, renderRest 0 3 (unrendered finalRecords)⟩] (fun _ => trivial)
    (fun _ _ _ => trivial) [] (renderState 0 3 (unrendered finalRecords)) []
  have hfirst := Pool.Steps.complete (S := renders) (D := freshIds) (i := renderMd 0)
    (p := renderRest 0 3 (unrendered finalRecords)) (fun _ => ()) [] [] (fun _ => trivial)
    (fun _ _ _ => trivial) g secondRender.2 [(renderMd 1, secondRender.1)]
  have hanswer : firstRender.1.toOption.map (fun out => out.reference.createdAt) = some 0 := by
    decide +kernel
  have hstored : ((renderMd 0).stored firstRender.2).map ArtifactReference.createdAt =
      some 1 := by
    decide +kernel
  have hreach := (((Relation.ReflTransGen.head
    ⟨none, .start (renderMd 0) (starts_renderMd 0)⟩ hclaimed).tail
    ⟨none, .start (renderMd 1) hstart⟩).trans hsecond).trans hfirst
  cases hrun : firstRender.1 with
  | error e =>
      rw [hrun] at hanswer
      cases hanswer
  | ok out =>
      rw [hrun] at hanswer
      have hmem : (renderMd 0, .ok out) ∈
          [(renderMd 0, firstRender.1), (renderMd 1, secondRender.1)] := by
        rw [hrun]
        exact List.mem_cons_self
      refine ⟨_, out, hreach, hmem, fun hsame => ?_⟩
      have hsame' : (renderMd 0).stored firstRender.2 = some out.reference := hsame
      have hzero : out.reference.createdAt = 0 := Option.some_inj.mp hanswer
      rw [hsame', Option.map_some, hzero] at hstored
      cases hstored

end StoryReview.Scenario
