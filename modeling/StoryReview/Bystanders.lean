import StoryReview.SilentSteps

/-!
# Bystanders

Beside the programs of a system others may run that leave a part of the state alone. On
that part every run is a run of the system by itself, the bystanders left out. What such a
program learns is settled by what its steps read of the states they find.
-/
namespace StoryReview

/-! ## Lists with entries left out -/

/-- The entries of the first list that `R` relates to the second, in their order; of the
others `P` holds. -/
inductive Projects {κ' κ : Type*} (R : κ' → κ → Prop) (P : κ' → Prop) :
    List κ' → List κ → Prop
  | nil : Projects R P [] []
  | keep {x : κ'} {y : κ} {xs : List κ'} {ys : List κ} (h : R x y)
      (hrest : Projects R P xs ys) : Projects R P (x :: xs) (y :: ys)
  | skip {x : κ'} {xs : List κ'} {ys : List κ} (h : P x) (hrest : Projects R P xs ys) :
      Projects R P (x :: xs) ys

namespace Projects
variable {κ' κ : Type*} {R : κ' → κ → Prop} {P : κ' → Prop} {xs xs' : List κ'}
variable {ys ys' : List κ} {x : κ'}

theorem append (h : Projects R P xs ys) (h' : Projects R P xs' ys') :
    Projects R P (xs ++ xs') (ys ++ ys') := by
  induction h with
  | nil => exact h'
  | keep h _ ih => exact .keep h ih
  | skip h _ ih => exact .skip h ih

/-- An entry that was left out, or its image, with what comes before and after. -/
theorem split {before after : List κ'} (h : Projects R P (before ++ x :: after) ys) :
    (∃ before' y after', ys = before' ++ y :: after' ∧ Projects R P before before' ∧ R x y ∧
      Projects R P after after') ∨
    ∃ before' after', ys = before' ++ after' ∧ Projects R P before before' ∧ P x ∧
      Projects R P after after' := by
  induction before generalizing ys with
  | nil =>
      cases h with
      | keep hx hafter => exact .inl ⟨[], _, _, rfl, .nil, hx, hafter⟩
      | skip hx hafter => exact .inr ⟨[], _, rfl, .nil, hx, hafter⟩
  | cons z before ih =>
      cases h with
      | keep hz hrest =>
          rcases ih hrest with ⟨b, y, a, rfl, hb, hx, ha⟩ | ⟨b, a, rfl, hb, hx, ha⟩
          · exact .inl ⟨_ :: b, y, a, rfl, .keep hz hb, hx, ha⟩
          · exact .inr ⟨_ :: b, a, rfl, .keep hz hb, hx, ha⟩
      | skip hz hrest =>
          rcases ih hrest with ⟨b, y, a, rfl, hb, hx, ha⟩ | ⟨b, a, rfl, hb, hx, ha⟩
          · exact .inl ⟨b, y, a, rfl, .skip hz hb, hx, ha⟩
          · exact .inr ⟨b, a, rfl, .skip hz hb, hx, ha⟩

/-- Where both relations are a partial map's, the second list is the image. -/
theorem eq_filterMap {f : κ' → Option κ} (h : Projects R P xs ys)
    (hR : ∀ x y, R x y → f x = some y) (hP : ∀ x, P x → f x = none) :
    ys = xs.filterMap f := by
  induction h with
  | nil => rfl
  | keep h _ ih => rw [List.filterMap_cons_some (hR _ _ h), ih]
  | skip h _ ih => rw [List.filterMap_cons_none (hP _ h), ih]

end Projects

/-! ## Pools -/

section Pools
variable {ι ι' γ γ' σ τ χ χ' ε α α' : Type}

/-- Only programs of which `P` holds start. -/
def Discipline.only (P : ι → Prop) : Discipline ι γ σ χ ε α :=
  ⟨fun _ _ => P, fun _ _ _ => True⟩

/-- Results that `R` relates, or the same exception. -/
inductive EndsAs (R : α' → α → Prop) : Except ε α' → Except ε α → Prop
  | ok {a' : α'} {a : α} (h : R a' a) : EndsAs R (.ok a') (.ok a)
  | error (e : ε) : EndsAs R (.error e) (.error e)

theorem Program.Refines.endsAs {A : χ' → Prop} {get : τ → σ} {ask : χ' → χ}
    {R : α' → α → Prop} {p : Program τ χ' ε α'} {q : Program σ χ ε α}
    (h : Refines A get ask R p q) {r' : Except ε α'} (hr : p.outcome = some r') :
    ∃ r, q.outcome = some r ∧ EndsAs R r' r := by
  cases h with
  | ret h =>
      cases hr
      exact ⟨_, rfl, .ok h⟩
  | raise e =>
      cases hr
      exact ⟨_, rfl, .error e⟩
  | step => cases hr
  | silent => cases hr

/-- A program with its result renamed. -/
theorem Program.Refines.renamed (p : Program σ χ ε α) (f : α → α') :
    Refines (fun _ : χ => True) id id (fun a' a => a' = f a) (p.bind fun a => .ret (f a)) p := by
  induction p with
  | ret a => exact .ret rfl
  | raise e => exact .raise e
  | step g k ih => exact .step (fun _ _ => rfl) (fun _ _ => rfl) ih

/-- What the two systems have in common: the part of the state, the answers, the names of
the programs that are not bystanders, and their results. -/
structure Overlap (ι' ι τ σ χ' χ α' α : Type) where
  admits : χ' → Prop
  get : τ → σ
  ask : χ' → χ
  named : ι' → Option ι
  result : α' → α → Prop

namespace Overlap
variable (O : Overlap ι' ι τ σ χ' χ α' α)

/-- The thread runs a refinement of the other's program. -/
def Shows (thread' : Thread ι' γ' τ χ' ε α') (thread : Thread ι γ σ χ ε α) : Prop :=
  O.named thread'.origin = some thread.origin ∧
    Program.Refines O.admits O.get O.ask O.result thread'.rest thread.rest

/-- The program leaves the part alone. -/
def Spared (p : Program τ χ' ε α') : Prop := p.Moves O.admits fun t t' => O.get t' = O.get t

/-- The thread has no name and leaves the part alone. -/
def Bystands (thread' : Thread ι' γ' τ χ' ε α') : Prop :=
  O.named thread'.origin = none ∧ O.Spared thread'.rest

/-- The pool without its bystanders. -/
structure Shown (pool' : Pool ι' γ' τ χ' ε α') (pool : Pool ι γ σ χ ε α) : Prop where
  state : pool.state = O.get pool'.state
  running : Projects O.Shows O.Bystands pool'.running pool.running
  finished : Projects (fun end' answer => O.named end'.1 = some answer.1 ∧
    EndsAs O.result end'.2 answer.2) (fun end' => O.named end'.1 = none)
      pool'.finished pool.finished

/-- Each program that has a name refines its namesake; the others that start are
bystanders. -/
structure Fits (S' : System ι' γ' τ χ' ε α') (D : Discipline ι' γ' τ χ' ε α')
    (S : System ι γ σ χ ε α) : Prop where
  shows : ∀ i' i, O.named i' = some i →
    Program.Refines O.admits O.get O.ask O.result (S'.program i') (S.program i)
  spares : ∀ t running i', D.starts t running i' → O.named i' = none →
    O.Spared (S'.program i')
  admits : ∀ i' c, S'.admits i' c → O.admits c
  asks : ∀ i' i c, O.named i' = some i → S'.admits i' c → S.admits i (O.ask c)

variable {O} {S' : System ι' γ' τ χ' ε α'} {S : System ι γ σ χ ε α}

/-- One step of the larger pool is a step of the other, or none. -/
theorem Shown.step {D : Discipline ι' γ' τ χ' ε α'} (hfits : O.Fits S' D S)
    {mover' : Option (Thread ι' γ' τ χ' ε α')} {pool₁ pool₂ : Pool ι' γ' τ χ' ε α'}
    {pool : Pool ι γ σ χ ε α} (h : O.Shown pool₁ pool)
    (hstep : Pool.Step S' D mover' pool₁ pool₂) :
    ∃ pool', Pool.Steps S .free pool pool' ∧ O.Shown pool₂ pool' := by
  obtain ⟨s, running, finished⟩ := pool
  obtain ⟨hstate, hrunning, hfinished⟩ := h
  dsimp only at hstate hrunning hfinished
  subst hstate
  cases hstep with
  | start i' hstart =>
      cases hname : O.named i' with
      | none =>
          exact ⟨_, .refl, rfl, .skip ⟨hname, hfits.spares _ _ i' hstart hname⟩ hrunning,
            hfinished⟩
      | some i =>
          exact ⟨_, .single ⟨_, .start i trivial⟩, rfl,
            .keep ⟨hname, hfits.shows i' i hname⟩ hrunning, hfinished⟩
  | @move t before after _ i' g' δ f' k' c hc _ =>
      have hadmits := hfits.admits i' c hc
      rcases hrunning.split with ⟨before', thread, after', rfl, hbefore, hthread, hafter⟩ |
        ⟨before', after', rfl, hbefore, hthread, hafter⟩
      · obtain ⟨i, g, q⟩ := thread
        obtain ⟨hname, hrest⟩ := hthread
        dsimp only at hname hrest
        cases hrest with
        | step hanswer hstate hrest =>
            refine ⟨_, .single ⟨_, .move (O.ask c) (hfits.asks i' i c hname hc) trivial⟩,
              (hstate c t).symm, hbefore.append (.keep ⟨hname, ?_⟩ hafter), hfinished⟩
            dsimp only
            rw [← hanswer c t]
            exact hrest _
        | silent hstate hrest =>
            exact ⟨_, .refl, (hstate c t).symm,
              hbefore.append (.keep ⟨hname, hrest c t hadmits⟩ hafter), hfinished⟩
      · exact ⟨_, .refl, (hthread.2.1 c t hadmits).symm,
          hbefore.append (.skip ⟨hthread.1, hthread.2.2 _⟩ hafter), hfinished⟩
  | @finish t before after _ i' g' p r houtcome =>
      rcases hrunning.split with ⟨before', thread, after', rfl, hbefore, hthread, hafter⟩ |
        ⟨before', after', rfl, hbefore, hthread, hafter⟩
      · obtain ⟨i, g, q⟩ := thread
        obtain ⟨hname, hrest⟩ := hthread
        obtain ⟨r', houtcome', hends⟩ := hrest.endsAs houtcome
        exact ⟨_, .single ⟨_, .finish houtcome'⟩, rfl, hbefore.append hafter,
          .keep ⟨hname, hends⟩ hfinished⟩
      · exact ⟨_, .refl, rfl, hbefore.append hafter, .skip hthread.1 hfinished⟩
  | @crash t before after _ thread' =>
      rcases hrunning.split with ⟨before', thread, after', rfl, hbefore, -, hafter⟩ |
        ⟨before', after', rfl, hbefore, -, hafter⟩
      · exact ⟨_, .single ⟨_, .crash thread⟩, rfl, hbefore.append hafter, hfinished⟩
      · exact ⟨_, .refl, rfl, hbefore.append hafter, hfinished⟩

/-- Every run is a run of the system by itself. -/
theorem Fits.shown {D : Discipline ι' γ' τ χ' ε α'} (hfits : O.Fits S' D S) {t : τ}
    {pool' : Pool ι' γ' τ χ' ε α'} (h : pool'.Reachable S' D t) :
    ∃ pool : Pool ι γ σ χ ε α, pool.Reachable S .free (O.get t) ∧ O.Shown pool' pool := by
  induction h with
  | refl => exact ⟨⟨O.get t, [], []⟩, .refl, rfl, .nil, .nil⟩
  | tail _ hstep ih =>
      obtain ⟨mover', hstep⟩ := hstep
      obtain ⟨pool, hpool, hshown⟩ := ih
      obtain ⟨pool', hsteps, hnext⟩ := hshown.step hfits hstep
      exact ⟨pool', hpool.trans hsteps, hnext⟩

end Overlap
end Pools

/-! ## What a program learns -/

namespace Program
variable {σ τ χ ε ε' α β : Type}

/-- How the program ends amid others: `ss n` is the state that its step `n` finds. -/
def amid : Program σ χ ε α → (ℕ → χ) → (ℕ → σ) → Except ε α
  | .ret a, _, _ => .ok a
  | .raise e, _, _ => .error e
  | .step f k, cs, ss =>
      (k (f (cs 0) (ss 0)).1).amid (fun n => cs (n + 1)) fun n => ss (n + 1)

/-- The programs step together, and states that `R` relates are the same to them. -/
inductive Indistinct (R : σ → σ → Prop) : Program σ χ ε α → Program σ χ ε α → Prop
  | ret (a : α) : Indistinct R (.ret a) (.ret a)
  | raise (e : ε) : Indistinct R (.raise e) (.raise e)
  | step {δ : Type} {f g : χ → σ → δ × σ} {k l : δ → Program σ χ ε α}
      (hanswer : ∀ c s t, R s t → (f c s).1 = (g c t).1)
      (hrest : ∀ d, Indistinct R (k d) (l d)) : Indistinct R (.step f k) (.step g l)

namespace Indistinct
variable {R : σ → σ → Prop} {p q : Program σ χ ε β}

theorem atomic {f g : χ → σ → α × σ} (h : ∀ c s t, R s t → (f c s).1 = (g c t).1) :
    Indistinct R (Program.atomic f : Program σ χ ε α) (Program.atomic g) :=
  .step h .ret

theorem bind {f g : β → Program σ χ ε α} (h : Indistinct R p q)
    (hfg : ∀ b, Indistinct R (f b) (g b)) : Indistinct R (p.bind f) (q.bind g) := by
  induction h with
  | ret a => exact hfg a
  | raise e => exact .raise e
  | step hanswer _ ih => exact .step hanswer ih

theorem tryCatch {f g : ε → Program σ χ ε' β} (h : Indistinct R p q)
    (hfg : ∀ e, Indistinct R (f e) (g e)) : Indistinct R (p.tryCatch f) (q.tryCatch g) := by
  induction h with
  | ret a => exact .ret a
  | raise e => exact hfg e
  | step hanswer _ ih => exact .step hanswer ih

/-- On a part of the state. -/
theorem zoom {χ' : Type} {R' : τ → τ → Prop} {get : τ → σ} {set : τ → σ → τ} {ask : χ' → χ}
    (h : Indistinct R p q) (hget : ∀ s t, R' s t → R (get s) (get t)) :
    Indistinct R' (p.zoom get set ask) (q.zoom get set ask) := by
  induction h with
  | ret a => exact .ret a
  | raise e => exact .raise e
  | step hanswer _ ih => exact .step (fun c s t hst => hanswer _ _ _ (hget s t hst)) ih

/-- States that are related one by one lead to one end. -/
theorem amid_eq (h : Indistinct R p q) {cs : ℕ → χ} {ss ts : ℕ → σ}
    (hst : ∀ n, R (ss n) (ts n)) : p.amid cs ss = q.amid cs ts := by
  induction h generalizing cs ss ts with
  | ret a => rfl
  | raise e => rfl
  | step hanswer _ ih =>
      simp only [Program.amid, hanswer _ _ _ (hst 0)]
      exact ih _ fun n => hst (n + 1)

end Indistinct

theorem amid_of_outcome {p : Program σ χ ε α} {r : Except ε α} (h : p.outcome = some r)
    (cs : ℕ → χ) (ss : ℕ → σ) : p.amid cs ss = r := by
  cases p with
  | ret a => exact Option.some.inj h
  | raise e => exact Option.some.inj h
  | step f k => cases h

end Program

section Passed
variable {ι γ σ χ ε α : Type} {S : System ι γ σ χ ε α} {D : Discipline ι γ σ χ ε α} {s : σ}
variable {pool : Pool ι γ σ χ ε α}

/-- The run to the pool has passed the state. -/
def Pool.Passed (S : System ι γ σ χ ε α) (D : Discipline ι γ σ χ ε α) (s : σ)
    (pool : Pool ι γ σ χ ε α) (t : σ) : Prop :=
  ∃ earlier : Pool ι γ σ χ ε α, earlier.Reachable S D s ∧ Pool.Steps S D earlier pool ∧
    earlier.state = t

/-- Every answer is the program's amid states that the run has passed: what a thread has
left to do, amid any such states, is what its program does amid the ones it met and then
these. -/
theorem Pool.Reachable.amid {last : Pool ι γ σ χ ε α} (h : pool.Reachable S D s)
    (hlast : Pool.Steps S D pool last) (c₀ : χ) :
    (∀ thread ∈ pool.running, ∀ cs ss, (∀ n, last.Passed S D s (ss n)) →
      ∃ cs' ss', (∀ n, last.Passed S D s (ss' n)) ∧
        (S.program thread.origin).amid cs' ss' = thread.rest.amid cs ss) ∧
    ∀ answer ∈ pool.finished, ∃ cs ss, (∀ n, last.Passed S D s (ss n)) ∧
      (S.program answer.1).amid cs ss = answer.2 := by
  induction h with
  | refl => simp
  | @tail pool pool' hpool hstep ih =>
      obtain ⟨mover, hstep⟩ := hstep
      have hsteps : Pool.Steps S D pool last := hlast.head ⟨mover, hstep⟩
      have hnow : last.Passed S D s pool.state := ⟨pool, hpool, hsteps, rfl⟩
      obtain ⟨hrunning, hfinished⟩ := ih hsteps
      cases hstep with
      | start i _ =>
          refine ⟨?_, hfinished⟩
          rw [List.forall_mem_cons]
          exact ⟨fun cs ss hss => ⟨cs, ss, hss, rfl⟩, hrunning⟩
      | @move t before after _ i g δ f k c _ _ =>
          simp only [List.forall_mem_append, List.forall_mem_cons] at hrunning ⊢
          obtain ⟨hbefore, hthread, hafter⟩ := hrunning
          refine ⟨⟨hbefore, ?_, hafter⟩, hfinished⟩
          intro cs ss hss
          have hmet : ∀ n, last.Passed S D s (Nat.casesOn n t ss) := by
            intro n
            cases n with
            | zero => exact hnow
            | succ n => exact hss n
          obtain ⟨cs', ss', hss', hamid⟩ :=
            hthread (fun n => n.casesOn c cs) (fun n => n.casesOn t ss) hmet
          exact ⟨cs', ss', hss', hamid⟩
      | @finish t before after _ i g p r houtcome =>
          simp only [List.forall_mem_append, List.forall_mem_cons] at hrunning ⊢
          obtain ⟨hbefore, hthread, hafter⟩ := hrunning
          refine ⟨⟨hbefore, hafter⟩, ?_, hfinished⟩
          obtain ⟨cs', ss', hss', hamid⟩ := hthread (fun _ => c₀) (fun _ => t) fun _ => hnow
          exact ⟨cs', ss', hss', hamid.trans (Program.amid_of_outcome houtcome _ _)⟩
      | @crash t before after _ thread =>
          simp only [List.forall_mem_append, List.forall_mem_cons] at hrunning ⊢
          exact ⟨⟨hrunning.1, hrunning.2.2⟩, hfinished⟩

/-- What is only started when `P` holds of it runs and answers only then. -/
theorem Pool.Reachable.only {P : ι → Prop} (h : pool.Reachable S (.only P) s) :
    (∀ thread ∈ pool.running, P thread.origin) ∧ ∀ answer ∈ pool.finished, P answer.1 := by
  induction h with
  | refl => simp
  | tail _ hstep ih =>
      obtain ⟨mover, hstep⟩ := hstep
      obtain ⟨hrunning, hfinished⟩ := ih
      cases hstep with
      | start i hstart => exact ⟨List.forall_mem_cons.2 ⟨hstart, hrunning⟩, hfinished⟩
      | move c _ _ =>
          simp only [List.forall_mem_append, List.forall_mem_cons] at hrunning ⊢
          exact ⟨hrunning, hfinished⟩
      | finish _ =>
          simp only [List.forall_mem_append, List.forall_mem_cons] at hrunning ⊢
          exact ⟨⟨hrunning.1, hrunning.2.2⟩, hrunning.2.1, hfinished⟩
      | crash _ =>
          simp only [List.forall_mem_append, List.forall_mem_cons] at hrunning ⊢
          exact ⟨⟨hrunning.1, hrunning.2.2⟩, hfinished⟩

end Passed
end StoryReview
