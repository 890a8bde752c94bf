import StoryReview.Frames

/-!
# Runs that only take statements

`Takes S` is the weakest precondition with a condition on the steps themselves and the
states they are taken from: the run takes no step outside `S`. For the service `S` is the
SQL statements, or those that change nothing durable, so that a run of this kind asks no
agent and no tool, and its outcome is exact: how it returns and how it raises are both
known.
-/
namespace StoryReview

namespace Program
variable {σ χ ε ε' α β : Type}

/-- Every run from `s` whose answers are admissible for `A` takes only steps of `S`, and
ends in `Q` or raises in `E`. -/
def Takes (S : ∀ β : Type, (χ → σ → β × σ) → σ → Prop) (A : χ → Prop) (Q : α → σ → Prop)
    (E : ε → σ → Prop) : Program σ χ ε α → σ → Prop
  | .ret a, s => Q a s
  | .raise e, s => E e s
  | .step f k, s => S _ f s ∧ ∀ c, A c → (k (f c s).1).Takes S A Q E (f c s).2

section Rules
variable {S T : ∀ β : Type, (χ → σ → β × σ) → σ → Prop} {A : χ → Prop}
variable {Q Q' : α → σ → Prop} {E E' : ε → σ → Prop} {s : σ}

@[simp] theorem takes_ret (a : α) :
    (Program.ret a : Program σ χ ε α).Takes S A Q E s ↔ Q a s := Iff.rfl

@[simp] theorem takes_raise (e : ε) :
    (Program.raise e : Program σ χ ε α).Takes S A Q E s ↔ E e s := Iff.rfl

theorem takes_atomic {f : χ → σ → α × σ} (hf : S _ f s)
    (h : ∀ c, A c → Q (f c s).1 (f c s).2) :
    (atomic f : Program σ χ ε α).Takes S A Q E s := ⟨hf, h⟩

theorem Takes.mono {p : Program σ χ ε α} (h : p.Takes S A Q E s)
    (hQ : ∀ a t, Q a t → Q' a t) (hE : ∀ e t, E e t → E' e t) : p.Takes S A Q' E' s := by
  induction p generalizing s with
  | ret a => exact hQ a s h
  | raise e => exact hE e s h
  | step f k ih => exact ⟨h.1, fun c hc => ih _ (h.2 c hc)⟩

theorem Takes.bind {R : β → σ → Prop} {p : Program σ χ ε β} {g : β → Program σ χ ε α}
    (h : p.Takes S A R E s) (hg : ∀ b t, R b t → (g b).Takes S A Q E t) :
    (p.bind g).Takes S A Q E s := by
  induction p generalizing s with
  | ret b => exact hg b s h
  | raise e => exact h
  | step f k ih => exact ⟨h.1, fun c hc => ih _ (h.2 c hc)⟩

theorem Takes.tryCatch {p : Program σ χ ε' α} {handler : ε' → Program σ χ ε α}
    {F : ε' → σ → Prop} (h : p.Takes S A Q F s)
    (hhandler : ∀ e t, F e t → (handler e).Takes S A Q E t) :
    (p.tryCatch handler).Takes S A Q E s := by
  induction p generalizing s with
  | ret a => exact h
  | raise e => exact hhandler e s h
  | step f k ih => exact ⟨h.1, fun c hc => ih _ (h.2 c hc)⟩

theorem Takes.ensure {p : Program σ χ ε α} {q : Program σ χ ε Unit}
    (h : p.Takes S A Q E s) (hq : ∀ a t, Q a t → q.Takes S A (fun _ => Q' a) E' t)
    (hq' : ∀ e t, E e t → q.Takes S A (fun _ => E' e) E' t) :
    (p.ensure q).Takes S A Q' E' s := by
  refine Takes.bind (R := Q) (h.tryCatch fun e t he => ?_) fun a t ha => ?_
  · exact (hq' e t he).bind fun _ _ h => h
  · exact (hq a t ha).bind fun _ _ h => h

/-- A weaker condition on the steps. -/
theorem Takes.weaken {p : Program σ χ ε α} (h : p.Takes S A Q E s)
    (hS : ∀ β f t, S β f t → T β f t) : p.Takes T A Q E s := by
  induction p generalizing s with
  | ret a => exact h
  | raise e => exact h
  | step f k ih => exact ⟨hS _ f s h.1, fun c hc => ih _ (h.2 c hc)⟩

/-- What every step taken leaves related stays related through the run. -/
theorem Takes.keeps {R : σ → σ → Prop} [IsTrans σ R] {p : Program σ χ ε α}
    (h : p.Takes S A Q E s) (hS : ∀ β f t c, S β f t → A c → R t (f c t).2) {s₀ : σ}
    (hs : R s₀ s) :
    p.Takes S A (fun a t => Q a t ∧ R s₀ t) (fun e t => E e t ∧ R s₀ t) s := by
  induction p generalizing s with
  | ret a => exact ⟨h, hs⟩
  | raise e => exact ⟨h, hs⟩
  | step f k ih =>
      refine ⟨h.1, fun c hc => ih _ (h.2 c hc) ?_⟩
      exact IsTrans.trans _ _ _ hs (hS _ f s c h.1 hc)

theorem Takes.keeps_crash {R : σ → σ → Prop} [IsTrans σ R] {p : Program σ χ ε α}
    (h : p.Takes S A Q E s) (hS : ∀ β f t c, S β f t → A c → R t (f c t).2) {s₀ : σ}
    (hs : R s₀ s) {cs : ℕ → χ} (hcs : ∀ n, A (cs n)) (n : ℕ) : R s₀ (p.crash cs n s) := by
  induction p generalizing s cs n with
  | ret a => exact hs
  | raise e => exact hs
  | step f k ih =>
      cases n with
      | zero => exact hs
      | succ n =>
          have hnext := IsTrans.trans _ _ _ hs (hS _ f s (cs 0) h.1 (hcs 0))
          exact ih _ (h.2 (cs 0) (hcs 0)) hnext (fun i => hcs (i + 1)) n

theorem Takes.run {p : Program σ χ ε α} (h : p.Takes S A Q E s) {cs : ℕ → χ}
    (hcs : ∀ n, A (cs n)) :
    (∃ a, (p.run cs s).1 = .ok a ∧ Q a (p.run cs s).2) ∨
      ∃ e, (p.run cs s).1 = .error e ∧ E e (p.run cs s).2 := by
  induction p generalizing s cs with
  | ret a => exact .inl ⟨a, rfl, h⟩
  | raise e => exact .inr ⟨e, rfl, h⟩
  | step f k ih => exact ih _ (h.2 (cs 0) (hcs 0)) fun n => hcs (n + 1)

end Rules
end Program

open Program RecordsStore

/-- The step is one SQL statement: of the environment it only reads the clock. -/
def Statements (β : Type) (f : Choice → World → β × World) (_ : World) : Prop :=
  ∃ g : World → β × World, f = fun c w => g (w.tick c)

/-- A statement that changes nothing durable where it is taken. -/
def QuietStatements (β : Type) (f : Choice → World → β × World) (w : World) : Prop :=
  Statements β f w ∧ ∀ c, Quiet w (f c w).2

/-- The request asks no agent and no tool, whatever the environment would answer. -/
def Attempt.AsksNobody (a : Attempt) (w : World) : Prop :=
  a.program.Takes Statements (fun _ => True) (fun _ _ => True) (fun _ _ => True) w

section Statements
variable {A : Choice → Prop} {w : World} {α : Type}
variable {Q : α → World → Prop} {E : PyException → World → Prop}

theorem takes_quiet {f : World → α × World} (hquiet : ∀ c, Quiet (w.tick c) (f (w.tick c)).2)
    (h : ∀ c, A c → Q (f (w.tick c)).1 (f (w.tick c)).2) :
    (statement f).Takes QuietStatements A Q E w :=
  takes_atomic ⟨⟨f, rfl⟩, fun c => (quiet_tick w c).trans (hquiet c)⟩ h

theorem takes_query {f : World → α} (h : ∀ c, A c → Q (f (w.tick c)) (w.tick c)) :
    (query f).Takes QuietStatements A Q E w :=
  takes_quiet (fun _ => .refl _) h

/-- Nothing durable changes through a run of quiet statements. -/
theorem Program.Takes.quiet {p : Orchestration α} (h : p.Takes QuietStatements A Q E w) {w₀ : World}
    (hw : Quiet w₀ w) : p.Takes QuietStatements A (fun a t => Q a t ∧ Quiet w₀ t)
      (fun e t => E e t ∧ Quiet w₀ t) w :=
  h.keeps (fun _ _ _ c hf _ => hf.2 c) hw

/-- The owner reads the session. -/
theorem takes_getSession {Q : Option SessionRecord → World → Prop} {id : SessionId}
    {s : SessionRecord} (hs : w.core id = some s) (hvalid : s.Valid)
    (h : ∀ c session, A c → session.core = s → Q (some session) (w.tick c)) :
    (getSession id s.userId).Takes QuietStatements A Q E w := by
  obtain ⟨row, hrow, rfl⟩ := World.session_of_core hs
  unfold getSession
  refine Takes.bind (R := fun r w' => r = some row ∧ ∃ c, A c ∧ w' = w.tick c)
    (takes_query fun c hc => ⟨?_, c, hc, rfl⟩) ?_
  · have hfound : (w.tick c).session id = some row := hrow
    have howner : row.record.userId = row.record.core.userId := rfl
    simp [hfound, howner]
  · rintro r t ⟨rfl, c, hc, rfl⟩
    have hread : sessionFromRow row = .ok row.record := by
      rw [sessionFromRow, if_pos (SessionRecord.core_valid.mp hvalid)]
    simp only [hread, bind_eq, ofExcept_ok, ret_bind]
    exact h c row.record hc rfl

theorem takes_releaseLease (id : SessionId) (token : Uuid) :
    (TurnsFlow.releaseLease id token).Takes QuietStatements A (fun _ _ => True) E w := by
  unfold TurnsFlow.releaseLease setProcessingStage TurnLease.release
  refine Takes.bind (R := fun _ _ => True) (takes_quiet (fun c => ?_) fun _ _ => trivial)
    fun _ t _ => takes_quiet (fun c => ?_) fun _ _ => trivial
  · exact quiet_modifySession _ fun _ => rfl
  · dsimp only
    split_ifs
    · exact { Quiet.refl (t.tick c) with }
    · exact Quiet.refl _

/-- The lease is held, and not until a time that has come. -/
def World.Held (w : World) (id : SessionId) : Prop :=
  ∃ lease, w.leases id = some lease ∧ w.clock < lease.expiresAt

/-- The lease is free or has run out, or else the request is locked out at once. -/
theorem takes_acquire (id : SessionId) : (TurnLease.acquire id).Takes QuietStatements A
    (fun _ _ => True) (fun e _ => (∃ hint, e = .sessionLocked hint) ∧ w.Held id) w := by
  have hfree : ∀ {v : World}, (∀ lease, v.leases id = some lease → lease.expiresAt ≤ v.clock) →
      (TurnLease.acquireStatement id v).1 = some v.fresh := by
    intro v hexpired
    unfold TurnLease.acquireStatement
    cases hheld : v.leases id with
    | none => rfl
    | some held => exact congrArg Prod.fst (if_pos (hexpired held hheld))
  have hlocked : ∀ {v : World} {lease : Lease}, v.leases id = some lease →
      v.clock < lease.expiresAt →
      TurnLease.acquireStatement id v = (none, { v with fresh := v.fresh + 1 }) := by
    intro v lease hlease hlater
    unfold TurnLease.acquireStatement
    simp [hlease, hlater]
  unfold TurnLease.acquire TurnLease.acquireLoop
  refine Takes.bind (R := fun (token : Option Uuid) _ => token.isSome) ?_ ?_
  · unfold TurnLease.attemptAcquire
    refine Takes.bind (R := fun (token : Option Uuid) w' => token.isSome ∨
      (token = none ∧ w'.leases = w.leases ∧ w.Held id))
      (takes_quiet (fun _ => quiet_acquireStatement id _) fun c _ => ?_) ?_
    · by_cases hexpired : ∀ lease, (w.tick c).leases id = some lease →
          lease.expiresAt ≤ (w.tick c).clock
      · exact .inl (by rw [hfree hexpired]; rfl)
      · simp only [not_forall, not_le] at hexpired
        obtain ⟨lease, hlease, hlater⟩ := hexpired
        rw [hlocked hlease hlater]
        exact .inr ⟨rfl, rfl, lease, hlease, (quiet_tick w c).clock.trans_lt hlater⟩
    · rintro token t (htoken | ⟨rfl, hleases, hheld⟩)
      · obtain ⟨token, rfl⟩ := Option.isSome_iff_exists.mp htoken
        exact htoken
      · refine Takes.bind (R := fun (hint : Option ℕ) _ => hint.isSome)
          (takes_query fun c _ => ?_) ?_
        · obtain ⟨lease, hlease, -⟩ := hheld
          have hlease : (t.tick c).leases id = some lease := hleases ▸ hlease
          simp [TurnLease.retryAfter, hlease]
        · rintro hint u hhint
          obtain ⟨hint, rfl⟩ := Option.isSome_iff_exists.mp hhint
          exact ⟨⟨_, rfl⟩, hheld⟩
  · rintro token t htoken
    obtain ⟨token, rfl⟩ := Option.isSome_iff_exists.mp htoken
    trivial

end Statements
end StoryReview
