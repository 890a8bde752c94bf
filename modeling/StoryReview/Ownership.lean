import StoryReview.Invariants
import StoryReview.PairedRuns

/-!
# What belongs to a user

A key names a run and its session, and what is stored under it belongs to the user of the
run. Two worlds agree for a user when they differ only in what is stored for others; a
request spares the others when it leaves that as it was. Each kind of update keeps both.
-/
namespace StoryReview
open Program Flows RecordsStore

namespace World
variable (w : World) (userId : UserId)

/-- The user whose run the key names. -/
def owner (key : IdempotencyKey) : Option UserId :=
  (w.storyRun ⟨key⟩).map StoryRunRecord.userId

/-- The key names the run of another user. -/
def Foreign (key : IdempotencyKey) : Prop := ∃ v ∈ w.owner key, v ≠ userId

def runsOf : List StoryRunRecord := w.storyRuns.filter fun run => decide (run.userId = userId)

def sessionsOf : List SessionRow :=
  w.sessions.filter fun row => decide (row.record.userId = userId)

/-- Session and run are named by one key and have one user. -/
structure Owned : Prop where
  keyed : ∀ row ∈ w.sessions, row.record.storyRunId.key = row.record.sessionId.key
  owner : ∀ row ∈ w.sessions, w.owner row.record.sessionId.key = some row.record.userId

end World

/-- The same turns, lease, artifacts and session claims are stored under the key. -/
structure World.SameData (w w' : World) (key : IdempotencyKey) : Prop where
  turns : w'.turns ⟨key⟩ = w.turns ⟨key⟩
  leases : w'.leases ⟨key⟩ = w.leases ⟨key⟩
  objects : w'.objects ⟨key⟩ = w.objects ⟨key⟩
  claims : ∀ route claimKey,
    w'.claims ⟨route, some ⟨key⟩, claimKey⟩ = w.claims ⟨route, some ⟨key⟩, claimKey⟩

/-- A creation claim of another user. -/
def OthersClaim (userId : UserId) (claim : Option ClaimRow) : Prop :=
  ∃ row ∈ claim, ∀ payload, row.requestFingerprint ≠ .createSession payload userId

/-- The worlds differ only in what is stored for other users: which keys their runs and
their creation claims take is the same, what these hold need not be. -/
structure AgreeFor (userId : UserId) (w w' : World) : Prop where
  clock : w'.clock = w.clock
  fresh : w'.fresh = w.fresh
  runs : w'.runsOf userId = w.runsOf userId
  sessions : w'.sessionsOf userId = w.sessionsOf userId
  storyRun : ∀ key, w'.storyRun ⟨key⟩ = w.storyRun ⟨key⟩ ∨
    (w.Foreign userId key ∧ w'.Foreign userId key)
  created : ∀ key, w'.claims (createSlot key) = w.claims (createSlot key) ∨
    (w.owner key ≠ some userId ∧ OthersClaim userId (w.claims (createSlot key)) ∧
      OthersClaim userId (w'.claims (createSlot key)))
  data : ∀ key, ¬ w.Foreign userId key → w.SameData w' key

/-- Nothing stored for other users has changed. -/
structure SparesOthers (userId : UserId) (w₀ w : World) : Prop where
  sessions : ∀ v, v ≠ userId → w.sessionsOf v = w₀.sessionsOf v
  storyRun : ∀ key, w₀.Foreign userId key → w.storyRun ⟨key⟩ = w₀.storyRun ⟨key⟩
  data : ∀ key, w₀.Foreign userId key → w₀.SameData w key

/-! ## Lookups -/

theorem find?_filter_of_forall {α : Type} {p q : α → Bool} {l : List α}
    (h : ∀ x ∈ l, p x → q x) : (l.filter q).find? p = l.find? p := by
  induction l with
  | nil => rfl
  | cons x l ih =>
      have hrest := ih fun y hy => h y (List.mem_cons_of_mem x hy)
      by_cases hq : q x
      · rw [List.filter_cons_of_pos hq, List.find?_cons, List.find?_cons, hrest]
      · have hp : ¬ p x := fun hp => hq (h x List.mem_cons_self hp)
        rw [List.filter_cons_of_neg hq, List.find?_cons_of_neg hp, hrest]

theorem any_filter_of_forall {α : Type} {p q : α → Bool} {l : List α}
    (h : ∀ x ∈ l, p x → q x) : (l.filter q).any p = l.any p := by
  rw [← List.isSome_find?, ← List.isSome_find?, find?_filter_of_forall h]

section Lookups
variable {userId v : UserId} {key : IdempotencyKey} {w w' : World} {row : SessionRow}

theorem World.not_foreign_of_owner (h : w.owner key = some userId) :
    ¬ w.Foreign userId key := by
  rintro ⟨v, hv, hne⟩
  rw [h] at hv
  exact hne (Option.some.inj hv).symm

theorem World.owner_congr (h : w'.storyRun ⟨key⟩ = w.storyRun ⟨key⟩) :
    w'.owner key = w.owner key := by
  rw [World.owner, World.owner, h]

theorem World.foreign_congr (h : w'.owner key = w.owner key) :
    w'.Foreign userId key ↔ w.Foreign userId key := by
  rw [World.Foreign, World.Foreign, h]

theorem AgreeFor.storyRun_eq (h : AgreeFor userId w w') (hkey : ¬ w.Foreign userId key) :
    w'.storyRun ⟨key⟩ = w.storyRun ⟨key⟩ :=
  (h.storyRun key).resolve_right fun hforeign => hkey hforeign.1

theorem AgreeFor.owner_iff (h : AgreeFor userId w w') (key : IdempotencyKey) :
    w'.owner key = some userId ↔ w.owner key = some userId := by
  rcases h.storyRun key with hsame | ⟨hw, hw'⟩
  · rw [World.owner_congr hsame]
  · exact ⟨fun ho => absurd hw' (World.not_foreign_of_owner ho),
      fun ho => absurd hw (World.not_foreign_of_owner ho)⟩

theorem AgreeFor.created_eq (h : AgreeFor userId w w') (hkey : w.owner key = some userId) :
    w'.claims (createSlot key) = w.claims (createSlot key) :=
  (h.created key).resolve_right fun hothers => hothers.1 hkey

theorem World.Owned.user_of_key (h : w.Owned) (hrow : row ∈ w.sessions)
    (hkey : w.owner row.record.sessionId.key = some userId) : row.record.userId = userId :=
  Option.some.inj ((h.owner row hrow).symm.trans hkey)

/-- A search for rows of one of the user's keys finds them among the user's rows. -/
theorem World.Owned.find? (h : w.Owned) (hkey : w.owner key = some userId)
    {p : SessionRow → Bool} (hp : ∀ row ∈ w.sessions, p row → row.record.sessionId.key = key) :
    (w.sessionsOf userId).find? p = w.sessions.find? p := by
  refine find?_filter_of_forall fun row hrow hfound => decide_eq_true ?_
  exact h.user_of_key hrow ((hp row hrow hfound).symm ▸ hkey)

theorem World.Owned.any (h : w.Owned) (hkey : w.owner key = some userId)
    {p : SessionRow → Bool} (hp : ∀ row ∈ w.sessions, p row → row.record.sessionId.key = key) :
    (w.sessionsOf userId).any p = w.sessions.any p := by
  refine any_filter_of_forall fun row hrow hfound => decide_eq_true ?_
  exact h.user_of_key hrow ((hp row hrow hfound).symm ▸ hkey)

end Lookups

/-! ## Updates -/

/-- Two runs of requests of one user: the worlds reached agree for the user, and each
leaves what it found of other users. -/
structure Beside (userId : UserId) (w₀ w₀' w w' : World) : Prop where
  agree : AgreeFor userId w w'
  owned : w.Owned
  owned' : w'.Owned
  spares : SparesOthers userId w₀ w
  spares' : SparesOthers userId w₀' w'

/-- The claim is of a request that creates the session of the key, or acts on it. -/
def ClaimSlot.NamedBy (slot : ClaimSlot) (key : IdempotencyKey) : Prop :=
  slot = createSlot key ∨ slot.sessionId = some ⟨key⟩

/-- The update leaves a row its key and its user. -/
def KeepsOwner (f : SessionRow → SessionRow) : Prop :=
  ∀ row, (f row).record.sessionId = row.record.sessionId ∧
    (f row).record.storyRunId = row.record.storyRunId ∧
    (f row).record.userId = row.record.userId

namespace World

/-- Only what is stored under the key has changed. -/
structure Apart (key : IdempotencyKey) (w w' : World) : Prop where
  storyRuns : w'.storyRuns = w.storyRuns
  sessions : w'.sessions = w.sessions
  created : ∀ k, w'.claims (createSlot k) = w.claims (createSlot k)
  data : ∀ k, k ≠ key → w.SameData w' k

variable {w w₁ w₂ : World} {key : IdempotencyKey} {userId : UserId}

theorem SameData.refl (w : World) (key : IdempotencyKey) : w.SameData w key :=
  ⟨rfl, rfl, rfl, fun _ _ => rfl⟩

theorem SameData.symm (h : w.SameData w₁ key) : w₁.SameData w key :=
  ⟨h.turns.symm, h.leases.symm, h.objects.symm, fun _ _ => (h.claims _ _).symm⟩

theorem SameData.trans (h : w.SameData w₁ key) (h' : w₁.SameData w₂ key) :
    w.SameData w₂ key :=
  ⟨h'.turns.trans h.turns, h'.leases.trans h.leases, h'.objects.trans h.objects,
    fun _ _ => (h'.claims _ _).trans (h.claims _ _)⟩

theorem Apart.owner (h : w.Apart key w₁) (k : IdempotencyKey) : w₁.owner k = w.owner k := by
  rw [World.owner, World.owner, storyRun, storyRun, h.storyRuns]

theorem Apart.owned (h : w.Apart key w₁) (hw : w.Owned) : w₁.Owned := by
  refine ⟨?_, ?_⟩
  · rw [h.sessions]
    exact hw.keyed
  · rw [h.sessions]
    intro row hrow
    rw [h.owner]
    exact hw.owner row hrow

end World

variable {userId : UserId} {w₀ w₀' w w' w₁ w₁' : World} {key : IdempotencyKey}

theorem SparesOthers.ne_of_foreign (h : SparesOthers userId w₀ w) (hkey : w.owner key = some userId)
    {k : IdempotencyKey} (hk : w₀.Foreign userId k) : k ≠ key := by
  rintro rfl
  have hforeign : w.Foreign userId k :=
    (World.foreign_congr (World.owner_congr (h.storyRun k hk))).mpr hk
  exact World.not_foreign_of_owner hkey hforeign

/-- A change under a key of the user. -/
theorem SparesOthers.apart (h : SparesOthers userId w₀ w) (hkey : w.owner key = some userId)
    (hw : w.Apart key w₁) : SparesOthers userId w₀ w₁ := by
  refine ⟨?_, fun k hk => ?_, fun k hk => ?_⟩
  · unfold World.sessionsOf
    rw [hw.sessions]
    exact h.sessions
  · rw [World.storyRun, hw.storyRuns]
    exact h.storyRun k hk
  · exact (h.data k hk).trans (hw.data k (h.ne_of_foreign hkey hk))

theorem AgreeFor.apart (h : AgreeFor userId w w') (hw : w.Apart key w₁)
    (hw' : w'.Apart key w₁') (hclock : w₁'.clock = w₁.clock) (hfresh : w₁'.fresh = w₁.fresh)
    (hdata : w₁.SameData w₁' key) : AgreeFor userId w₁ w₁' := by
  have hforeign : ∀ k, w₁.Foreign userId k ↔ w.Foreign userId k := fun k =>
    World.foreign_congr (hw.owner k)
  have hforeign' : ∀ k, w₁'.Foreign userId k ↔ w'.Foreign userId k := fun k =>
    World.foreign_congr (hw'.owner k)
  refine ⟨hclock, hfresh, ?_, ?_, fun k => ?_, fun k => ?_, fun k hk => ?_⟩
  · rw [World.runsOf, World.runsOf, hw.storyRuns, hw'.storyRuns]
    exact h.runs
  · rw [World.sessionsOf, World.sessionsOf, hw.sessions, hw'.sessions]
    exact h.sessions
  · rw [hforeign, hforeign', World.storyRun, World.storyRun, hw.storyRuns, hw'.storyRuns]
    exact h.storyRun k
  · rw [hw.created, hw'.created, hw.owner]
    exact h.created k
  · by_cases hown : k = key
    · exact hown ▸ hdata
    · have hsame := h.data k fun hf => hk ((hforeign k).mpr hf)
      exact ((hw.data k hown).symm.trans hsame).trans (hw'.data k hown)

theorem Beside.apart (h : Beside userId w₀ w₀' w w') (hkey : w.owner key = some userId)
    (hw : w.Apart key w₁) (hw' : w'.Apart key w₁') (hclock : w₁'.clock = w₁.clock)
    (hfresh : w₁'.fresh = w₁.fresh) (hdata : w₁.SameData w₁' key) :
    Beside userId w₀ w₀' w₁ w₁' :=
  ⟨h.agree.apart hw hw' hclock hfresh hdata, hw.owned h.owned, hw'.owned h.owned',
    h.spares.apart hkey hw, h.spares'.apart ((h.agree.owner_iff key).mpr hkey) hw'⟩

theorem AgreeFor.refl (userId : UserId) (w : World) : AgreeFor userId w w :=
  ⟨rfl, rfl, rfl, rfl, fun _ => .inl rfl, fun _ => .inl rfl, fun _ _ => .refl _ _⟩

theorem SparesOthers.refl (userId : UserId) (w : World) : SparesOthers userId w w :=
  ⟨fun _ _ => rfl, fun _ _ => rfl, fun _ _ => .refl _ _⟩

namespace Beside

theorem tick (h : Beside userId w₀ w₀' w w') (c : Choice) :
    Beside userId w₀ w₀' (w.tick c) (w'.tick c) where
  agree := { h.agree with
    clock := by
      simp only [World.tick]
      rw [h.agree.clock]
    data := fun k hk => { h.agree.data k hk with } }
  owned := { h.owned with }
  owned' := { h.owned' with }
  spares := { h.spares with data := fun k hk => { h.spares.data k hk with } }
  spares' := { h.spares' with data := fun k hk => { h.spares'.data k hk with } }

/-! ### Turns, leases, artifacts -/

section Data
variable (h : Beside userId w₀ w₀' w w') (hkey : w.owner key = some userId)
include h hkey

theorem data : w.SameData w' key :=
  h.agree.data key (World.not_foreign_of_owner hkey)

theorem owner : w'.owner key = some userId := (h.agree.owner_iff key).mpr hkey

theorem setTurns (rows : List TurnRow) :
    Beside userId w₀ w₀' (w.setTurns ⟨key⟩ rows) (w'.setTurns ⟨key⟩ rows) := by
  have hapart : ∀ v : World, v.Apart key (v.setTurns ⟨key⟩ rows) := fun v =>
    { storyRuns := rfl
      sessions := rfl
      created := fun _ => rfl
      data := fun k hk => { World.SameData.refl v k with
        turns := by
          rw [World.turns_setTurns, if_neg]
          simpa using hk } }
  refine h.apart hkey (hapart w) (hapart w') h.agree.clock h.agree.fresh ?_
  exact { h.data hkey with
    turns := by
      rw [World.turns_setTurns, World.turns_setTurns, if_pos rfl, if_pos rfl] }

theorem setLease (lease : Option Lease) :
    Beside userId w₀ w₀' (w.setLease ⟨key⟩ lease) (w'.setLease ⟨key⟩ lease) := by
  have hapart : ∀ v : World, v.Apart key (v.setLease ⟨key⟩ lease) := fun v =>
    { storyRuns := rfl
      sessions := rfl
      created := fun _ => rfl
      data := fun k hk => { World.SameData.refl v k with
        leases := by simp [World.setLease, hk] } }
  refine h.apart hkey (hapart w) (hapart w') h.agree.clock h.agree.fresh ?_
  exact { h.data hkey with leases := by simp [World.setLease] }

/-- A served call on the run, with the same outcome. -/
theorem served (o : RunObjects) :
    Beside userId w₀ w₀' (w.served ⟨key⟩ o) (w'.served ⟨key⟩ o) := by
  have hapart : ∀ v : World, v.Apart key (v.served ⟨key⟩ o) := fun v =>
    { storyRuns := rfl
      sessions := rfl
      created := fun _ => rfl
      data := fun k hk => { World.SameData.refl v k with
        objects := by
          rw [World.served_objects, if_neg]
          simpa using hk } }
  refine h.apart hkey (hapart w) (hapart w') h.agree.clock ?_ ?_
  · rw [World.served_fresh, World.served_fresh, h.agree.fresh]
  · exact { h.data hkey with
      objects := by rw [World.served_objects_self, World.served_objects_self] }

theorem fresh : Beside userId w₀ w₀' { w with fresh := w.fresh + 1 }
    { w' with fresh := w'.fresh + 1 } := by
  have hapart : ∀ v : World, v.Apart key { v with fresh := v.fresh + 1 } := fun v =>
    ⟨rfl, rfl, fun _ => rfl, fun k _ => { World.SameData.refl v k with }⟩
  refine h.apart hkey (hapart w) (hapart w') h.agree.clock ?_ { h.data hkey with }
  exact congrArg (· + 1) h.agree.fresh

end Data

/-! ### Claims -/

/-- The creation claim of the key itself is written alike on both sides. -/
theorem setCreated (h : Beside userId w₀ w₀' w w') (key : IdempotencyKey)
    (row : Option ClaimRow) :
    Beside userId w₀ w₀' (w.setClaim (createSlot key) row)
      (w'.setClaim (createSlot key) row) := by
  have hclaims : ∀ (v : World) k route claimKey,
      (v.setClaim (createSlot key) row).claims ⟨route, some ⟨k⟩, claimKey⟩ =
        v.claims ⟨route, some ⟨k⟩, claimKey⟩ := by
    intro v k route claimKey
    rw [World.claims_setClaim, if_neg]
    exact fun heq => Option.some_ne_none _ (congrArg ClaimSlot.sessionId heq)
  have hspares : ∀ {v₀ v : World}, SparesOthers userId v₀ v →
      SparesOthers userId v₀ (v.setClaim (createSlot key) row) := fun hv =>
    { hv with
      data := fun k hk => { hv.data k hk with
        claims := fun route claimKey => by
          rw [hclaims]
          exact (hv.data k hk).claims route claimKey } }
  refine ⟨{ h.agree with created := fun k => ?_, data := fun k hk => ?_ }, { h.owned with },
    { h.owned' with }, hspares h.spares, hspares h.spares'⟩
  · rw [World.claims_setClaim, World.claims_setClaim]
    split_ifs
    · exact .inl rfl
    · exact h.agree.created k
  · exact { h.agree.data k hk with
      claims := fun route claimKey => by
        rw [hclaims, hclaims]
        exact (h.agree.data k hk).claims route claimKey }

variable {slot : ClaimSlot}

section Claims
variable (h : Beside userId w₀ w₀' w w') (hkey : w.owner key = some userId)
variable (hslot : slot.NamedBy key)
include h hkey hslot

theorem claim_eq : w'.claims slot = w.claims slot := by
  rcases hslot with rfl | hid
  · exact h.agree.created_eq hkey
  · obtain ⟨route, sessionId, claimKey⟩ := slot
    obtain rfl : sessionId = some ⟨key⟩ := hid
    exact (h.data hkey).claims route claimKey

theorem setClaim (row : Option ClaimRow) :
    Beside userId w₀ w₀' (w.setClaim slot row) (w'.setClaim slot row) := by
  rcases hslot with rfl | hid
  · exact h.setCreated key row
  have hapart : ∀ v : World, v.Apart key (v.setClaim slot row) := fun v =>
    { storyRuns := rfl
      sessions := rfl
      created := fun k => by
        rw [World.claims_setClaim, if_neg]
        rintro rfl
        exact Option.some_ne_none _ hid.symm
      data := fun k hk => { World.SameData.refl v k with
        claims := fun route claimKey => by
          rw [World.claims_setClaim, if_neg]
          rintro rfl
          exact hk (congrArg SessionId.key (Option.some.inj hid)) } }
  refine h.apart hkey (hapart w) (hapart w') h.agree.clock h.agree.fresh ?_
  exact { h.data hkey with
    claims := fun route claimKey => by
      rw [World.claims_setClaim, World.claims_setClaim, (h.data hkey).claims] }

theorem released :
    Beside userId w₀ w₀' (Idempotency.released slot w) (Idempotency.released slot w') := by
  unfold Idempotency.released
  rw [h.claim_eq hkey hslot]
  split
  · exact h.setClaim hkey hslot none
  · exact h

theorem completed (response : CanonicalResponse) :
    Beside userId w₀ w₀' (Idempotency.completed slot response w)
      (Idempotency.completed slot response w') := by
  unfold Idempotency.completed
  rw [h.claim_eq hkey hslot]
  split
  · exact h.setClaim hkey hslot _
  · exact h

end Claims

/-! ### Sessions and runs -/

end Beside

section Rows
variable {f : SessionRow → SessionRow} {id : SessionId}

theorem World.sessionsOf_modifySession (hf : KeepsOwner f) (v : UserId) :
    (w.modifySession id f).sessionsOf v =
      (w.sessionsOf v).map fun row => if row.record.sessionId = id then f row else row := by
  simp only [World.sessionsOf, World.modifySession, List.filter_map]
  congr 2
  funext row
  simp only [Function.comp_apply]
  split_ifs
  · rw [(hf row).2.2]
  · rfl

theorem World.Owned.modifySession (h : w.Owned) (hf : KeepsOwner f) :
    (w.modifySession id f).Owned := by
  refine ⟨fun row' hrow' => ?_, fun row' hrow' => ?_⟩
  · obtain ⟨row, hrow, rfl⟩ := List.mem_map.mp hrow'
    split_ifs
    · rw [(hf row).1, (hf row).2.1]
      exact h.keyed row hrow
    · exact h.keyed row hrow
  · obtain ⟨row, hrow, rfl⟩ := List.mem_map.mp hrow'
    split_ifs
    · rw [(hf row).1, (hf row).2.2]
      exact h.owner row hrow
    · exact h.owner row hrow

theorem SparesOthers.modifySession (h : SparesOthers userId w₀ w) (hw : w.Owned)
    (hid : w.owner id.key = some userId) (hf : KeepsOwner f) :
    SparesOthers userId w₀ (w.modifySession id f) := by
  refine { h with sessions := fun v hv => ?_, data := fun k hk => { h.data k hk with } }
  rw [World.sessionsOf_modifySession hf, ← h.sessions v hv]
  conv_rhs => rw [← List.map_id (w.sessionsOf v)]
  refine List.map_congr_left fun row hrow => if_neg fun hrowId => hv ?_
  obtain ⟨hrow, huser⟩ := List.mem_filter.mp hrow
  rw [← of_decide_eq_true huser]
  exact hw.user_of_key hrow (hrowId ▸ hid)

end Rows

namespace Beside
variable {f : SessionRow → SessionRow}

theorem modifySession (h : Beside userId w₀ w₀' w w') (id : SessionId)
    (hid : w.owner id.key = some userId) (hf : KeepsOwner f) :
    Beside userId w₀ w₀' (w.modifySession id f) (w'.modifySession id f) := by
  refine ⟨{ h.agree with sessions := ?_, data := fun k hk => { h.agree.data k hk with } },
    h.owned.modifySession hf, h.owned'.modifySession hf, h.spares.modifySession h.owned hid hf,
    h.spares'.modifySession h.owned' (h.owner hid) hf⟩
  rw [World.sessionsOf_modifySession hf, World.sessionsOf_modifySession hf, h.agree.sessions]

theorem session_eq (h : Beside userId w₀ w₀' w w') (id : SessionId)
    (hid : w.owner id.key = some userId) :
    w'.session id = w.session id := by
  have hfind : ∀ row : SessionRow, decide (row.record.sessionId = id) = true →
      row.record.sessionId.key = id.key := fun row hrow => congrArg _ (of_decide_eq_true hrow)
  rw [World.session, World.session, ← h.owned.find? hid fun row _ => hfind row,
    ← h.owned'.find? (h.owner hid) fun row _ => hfind row, h.agree.sessions]

end Beside

section Runs
variable {id : SessionId} {state : SessionState} {f : StoryRunRecord → StoryRunRecord}

/-- An update of the runs of a key that leaves them their user. -/
theorem World.storyRun_map (hf : ∀ run, (f run).storyRunId = run.storyRunId) (run : RunId) :
    World.storyRun { w with storyRuns := w.storyRuns.map f } run = (w.storyRun run).map f := by
  unfold World.storyRun
  rw [List.find?_map]
  congr 2
  funext record
  rw [Function.comp_apply, hf]

theorem Beside.mapRuns (h : Beside userId w₀ w₀' w w') (hkey : w.owner key = some userId)
    (hf : ∀ run, (f run).storyRunId = run.storyRunId ∧ (f run).userId = run.userId)
    (hother : ∀ run, run.storyRunId ≠ ⟨key⟩ → f run = run) :
    Beside userId w₀ w₀' { w with storyRuns := w.storyRuns.map f }
      { w' with storyRuns := w'.storyRuns.map f } := by
  have hfind : ∀ (v : World) k, World.storyRun { v with storyRuns := v.storyRuns.map f } ⟨k⟩ =
      (v.storyRun ⟨k⟩).map f := fun v k => World.storyRun_map (fun run => (hf run).1) ⟨k⟩
  have howner : ∀ (v : World) k, World.owner { v with storyRuns := v.storyRuns.map f } k =
      v.owner k := by
    intro v k
    rw [World.owner, World.owner, hfind, Option.map_map]
    congr 1
    funext run
    exact (hf run).2
  have hforeign : ∀ (v : World) k,
      World.Foreign { v with storyRuns := v.storyRuns.map f } userId k ↔
        v.Foreign userId k := fun v k => World.foreign_congr (howner v k)
  have howned : ∀ {v : World}, v.Owned →
      World.Owned { v with storyRuns := v.storyRuns.map f } := fun {v} hv =>
    { hv with
      owner := fun row hrow => by
        rw [howner]
        exact hv.owner row hrow }
  have hspares : ∀ {v₀ v : World}, v.owner key = some userId → SparesOthers userId v₀ v →
      SparesOthers userId v₀ { v with storyRuns := v.storyRuns.map f } := fun {v₀ v} hv hs =>
    { hs with
      storyRun := fun k hk => by
        rw [hfind, ← hs.storyRun k hk]
        cases hrun : v.storyRun ⟨k⟩ with
        | none => rfl
        | some run =>
            have hid := List.find?_some hrun
            rw [decide_eq_true_eq] at hid
            have hne := hs.ne_of_foreign hv hk
            rw [Option.map_some, hother run fun heq => hne ?_]
            exact congrArg RunId.key (hid.symm.trans heq)
      data := fun k hk => { hs.data k hk with } }
  refine ⟨{ h.agree with
      runs := ?_, storyRun := fun k => ?_, created := fun k => ?_, data := fun k hk => ?_ },
    howned h.owned, howned h.owned', hspares hkey h.spares,
    hspares (h.owner hkey) h.spares'⟩
  · have hruns : ∀ v : World, World.runsOf { v with storyRuns := v.storyRuns.map f } userId =
        (v.runsOf userId).map f := by
      intro v
      simp only [World.runsOf, List.filter_map]
      congr 2
      funext run
      rw [Function.comp_apply, (hf run).2]
    rw [hruns, hruns, h.agree.runs]
  · rw [hfind, hfind, hforeign, hforeign]
    rcases h.agree.storyRun k with hsame | hboth
    · exact .inl (by rw [hsame])
    · exact .inr hboth
  · rw [howner]
    exact h.agree.created k
  · exact { h.agree.data k ((not_congr (hforeign w k)).mp hk) with }

theorem Beside.retireStoryRun (h : Beside userId w₀ w₀' w w')
    (hid : w.owner id.key = some userId) (state : SessionState) :
    Beside userId w₀ w₀' (retireStoryRun id state w) (retireStoryRun id state w') := by
  have hsame : (fun run : StoryRunRecord => if (w'.session id).any fun row =>
        decide (row.record.storyRunId = run.storyRunId)
      then { run with state := state, updatedAt := w'.clock } else run) =
      fun run => if (w.session id).any fun row =>
        decide (row.record.storyRunId = run.storyRunId)
      then { run with state := state, updatedAt := w.clock } else run := by
    rw [h.session_eq id hid, h.agree.clock]
  unfold RecordsStore.retireStoryRun
  rw [hsame]
  refine h.mapRuns hid (fun run => ?_) fun run hrun => if_neg fun hany => hrun ?_
  · split_ifs <;> exact ⟨rfl, rfl⟩
  · cases hrow : w.session id with
    | none =>
        rw [hrow] at hany
        cases hany
    | some row =>
        rw [hrow, Option.any_some, decide_eq_true_eq] at hany
        have hrowId := List.find?_some hrow
        rw [decide_eq_true_eq] at hrowId
        have hkeyed := h.owned.keyed row (List.mem_of_find?_eq_some hrow)
        rw [hany, hrowId] at hkeyed
        exact congrArg RunId.mk hkeyed

theorem Beside.sessionUpdated (h : Beside userId w₀ w₀' w w')
    (hid : w.owner id.key = some userId) (u : SessionUpdate) :
    Beside userId w₀ w₀' (sessionUpdated id u w) (sessionUpdated id u w') := by
  have hmodified := h.modifySession id hid
    (f := fun row => { row with record := u.apply w.clock row.record })
    fun _ => ⟨rfl, rfl, rfl⟩
  unfold RecordsStore.sessionUpdated
  rw [h.agree.clock]
  dsimp only
  split
  · exact hmodified.retireStoryRun hid .parked
  · exact hmodified.retireStoryRun hid .completed
  · exact hmodified

/-! ### Creation -/

theorem World.storyRun_concat (record : StoryRunRecord) (run : RunId) :
    World.storyRun { w with storyRuns := w.storyRuns ++ [record] } run =
      (w.storyRun run).or (if record.storyRunId = run then some record else none) := by
  unfold World.storyRun
  rw [List.find?_append, List.find?_singleton]
  congr 1
  by_cases hrun : record.storyRunId = run <;> simp [hrun]

/-- A run of the user under a key that is not taken. -/
theorem Beside.newRun (h : Beside userId w₀ w₀' w w') {record : StoryRunRecord}
    (hid : record.storyRunId = ⟨key⟩) (huser : record.userId = userId)
    (hnone : w.storyRun ⟨key⟩ = none)
    (hclaim : w'.claims (createSlot key) = w.claims (createSlot key)) :
    Beside userId w₀ w₀' { w with storyRuns := w.storyRuns ++ [record] }
        { w' with storyRuns := w'.storyRuns ++ [record] } ∧
      World.owner { w with storyRuns := w.storyRuns ++ [record] } key = some userId := by
  have hfree : ∀ {v : World}, v.storyRun ⟨key⟩ = none → ¬ v.Foreign userId key := by
    rintro v hv ⟨u, hu, -⟩
    rw [World.owner, hv] at hu
    cases hu
  have hnone' : w'.storyRun ⟨key⟩ = none := by rw [h.agree.storyRun_eq (hfree hnone), hnone]
  have hself : ∀ {v : World}, v.storyRun ⟨key⟩ = none →
      World.storyRun { v with storyRuns := v.storyRuns ++ [record] } ⟨key⟩ = some record := by
    intro v hv
    rw [World.storyRun_concat, hv, if_pos hid, Option.none_or]
  have hother : ∀ {v : World} {k}, k ≠ key →
      World.storyRun { v with storyRuns := v.storyRuns ++ [record] } ⟨k⟩ = v.storyRun ⟨k⟩ := by
    intro v k hk
    rw [World.storyRun_concat, if_neg, Option.or_none]
    exact fun heq => hk (congrArg RunId.key (heq.symm.trans hid))
  have hforeign : ∀ {v : World}, v.storyRun ⟨key⟩ = none → ∀ k,
      World.Foreign { v with storyRuns := v.storyRuns ++ [record] } userId k ↔
        v.Foreign userId k := by
    intro v hv k
    by_cases hk : k = key
    · subst hk
      refine iff_of_false (World.not_foreign_of_owner ?_) (hfree hv)
      rw [World.owner, hself hv, Option.map_some, huser]
    · exact World.foreign_congr (World.owner_congr (hother hk))
  have howned : ∀ {v : World}, v.storyRun ⟨key⟩ = none → v.Owned →
      World.Owned { v with storyRuns := v.storyRuns ++ [record] } := fun {v} hv hw =>
    { hw with
      owner := fun row hrow => by
        have howner := hw.owner row hrow
        have hne : row.record.sessionId.key ≠ key := by
          intro heq
          rw [heq, World.owner, hv] at howner
          cases howner
        rw [World.owner_congr (hother hne)]
        exact howner }
  have hspares : ∀ {v₀ v : World}, v.storyRun ⟨key⟩ = none → SparesOthers userId v₀ v →
      SparesOthers userId v₀ { v with storyRuns := v.storyRuns ++ [record] } := fun {v₀ v} hv hs =>
    { hs with
      storyRun := fun k hk => by
        have hkept := hs.storyRun k hk
        have hne : k ≠ key := by
          rintro rfl
          exact hfree hv ((World.foreign_congr (World.owner_congr hkept)).mpr hk)
        rw [hother hne]
        exact hkept
      data := fun k hk => { hs.data k hk with } }
  refine ⟨⟨{ h.agree with
      runs := ?_, storyRun := fun k => ?_, created := fun k => ?_, data := fun k hk => ?_ },
    howned hnone h.owned, howned hnone' h.owned', hspares hnone h.spares,
    hspares hnone' h.spares'⟩, ?_⟩
  · have hruns := h.agree.runs
    unfold World.runsOf at hruns ⊢
    rw [List.filter_append, List.filter_append, hruns]
  · rw [hforeign hnone, hforeign hnone']
    by_cases hk : k = key
    · subst hk
      exact .inl ((hself hnone').trans (hself hnone).symm)
    · rw [hother hk, hother hk]
      exact h.agree.storyRun k
  · by_cases hk : k = key
    · exact .inl (hk ▸ hclaim)
    · rw [World.owner_congr (hother hk)]
      exact h.agree.created k
  · exact { h.agree.data k ((not_congr (hforeign hnone k)).mp hk) with }
  · rw [World.owner, hself hnone, Option.map_some, huser]

theorem Beside.newSession (h : Beside userId w₀ w₀' w w') {row : SessionRow}
    (hrow : row.record.sessionId = ⟨key⟩ ∧ row.record.storyRunId = ⟨key⟩)
    (huser : row.record.userId = userId) (hkey : w.owner key = some userId) :
    Beside userId w₀ w₀' { w with sessions := w.sessions ++ [row] }
      { w' with sessions := w'.sessions ++ [row] } := by
  have howned : ∀ {v : World}, v.owner key = some userId → v.Owned →
      World.Owned { v with sessions := v.sessions ++ [row] } := by
    intro v hv hw
    refine ⟨fun r hr => ?_, fun r hr => ?_⟩
    · rcases List.mem_append.mp hr with hr | hr
      · exact hw.keyed r hr
      · rw [List.mem_singleton.mp hr, hrow.1, hrow.2]
    · rcases List.mem_append.mp hr with hr | hr
      · exact hw.owner r hr
      · rw [List.mem_singleton.mp hr, hrow.1, huser]
        exact hv
  have hspares : ∀ {v₀ v : World}, SparesOthers userId v₀ v →
      SparesOthers userId v₀ { v with sessions := v.sessions ++ [row] } := by
    intro v₀ v hs
    refine { hs with sessions := fun u hu => ?_, data := fun k hk => { hs.data k hk with } }
    have hnew : [row].filter (fun row => decide (row.record.userId = u)) = [] :=
      List.filter_cons_of_neg (by simpa [huser] using hu.symm)
    have hkept := hs.sessions u hu
    unfold World.sessionsOf at hkept ⊢
    rw [List.filter_append, hnew, List.append_nil, hkept]
  refine ⟨{ h.agree with sessions := ?_, data := fun k hk => { h.agree.data k hk with } },
    howned hkey h.owned, howned (h.owner hkey) h.owned', hspares h.spares,
    hspares h.spares'⟩
  have hsessions := h.agree.sessions
  unfold World.sessionsOf at hsessions ⊢
  rw [List.filter_append, List.filter_append, hsessions]

end Runs
end StoryReview
