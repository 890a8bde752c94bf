import Mathlib.Tactic.ByContra
import StoryReview.Interleaving

/-!
# Debts

A program that makes a state dirty owes a clean-up, and must have seen a clean state after
a step of its own before it ends. In a pool of such programs of which none dies, a state is
dirty only while one that owes is still running. What a program owes is auxiliary state:
any run is one of threads that keep track of their debts.
-/
namespace StoryReview
namespace Program
variable {σ χ ε α γ γ' : Type} {A : χ → Prop} {observe : γ → σ → σ → γ}
variable {R R' G G' : γ → σ → σ → Prop} {Q Q' : α → γ → σ → Prop} {E E' : ε → γ → σ → Prop}
variable {p : Program σ χ ε α} {g : γ} {s : σ}

/-! ## Rules -/

/-- Less interference. -/
theorem rg_rely (h : p.rg A observe R G Q E g s) (hR : ∀ g s t, R' g s t → R g s t) :
    p.rg A observe R' G Q E g s := by
  induction p generalizing g s with
  | ret a => exact h
  | raise e => exact h
  | step f k ih =>
      intro c t hc ht
      have hstep := h c t hc (hR g s t ht)
      exact ⟨hstep.1, ih _ hstep.2⟩

theorem rg_and (h : p.rg A observe R G Q E g s) (h' : p.rg A observe R G' Q' E' g s) :
    p.rg A observe R (fun g s t => G g s t ∧ G' g s t) (fun a g s => Q a g s ∧ Q' a g s)
      (fun e g s => E e g s ∧ E' e g s) g s := by
  induction p generalizing g s with
  | ret a => exact ⟨h, h'⟩
  | raise e => exact ⟨h, h'⟩
  | step f k ih =>
      intro c t hc ht
      have hstep := h c t hc ht
      have hstep' := h' c t hc ht
      exact ⟨⟨hstep.1, hstep'.1⟩, ih _ hstep.2 hstep'.2⟩

/-- What every guaranteed step keeps, whatever else the thread keeps track of. -/
theorem rg_track {R G : σ → σ → Prop} {observe' : γ' → σ → σ → γ'} {J : γ' → Prop}
    {Q : α → γ → σ → Prop} {E : ε → γ → σ → Prop} {g' : γ'}
    (h : p.rg A observe (fun _ => R) (fun _ => G) Q E g s)
    (hJ : ∀ g' s t, J g' → G s t → J (observe' g' s t)) (hg : J g') :
    p.rg A observe' (fun _ => R) (fun _ => G) (fun _ g' _ => J g') (fun _ g' _ => J g') g' s := by
  induction p generalizing g g' s with
  | ret a => exact hg
  | raise e => exact hg
  | step f k ih =>
      intro c t hc ht
      have hstep := h c t hc ht
      exact ⟨hstep.1, ih _ hstep.2 (hJ g' t _ hg hstep.1)⟩

end Program

/-! ## Auxiliary state -/

section Auxiliary
variable {ι γ γ' σ χ ε α : Type}

/-- A thread without what it keeps track of. -/
def Thread.bare (thread : Thread ι γ σ χ ε α) : ι × Program σ χ ε α := (thread.origin, thread.rest)

/-- The same but for what the threads keep track of. -/
structure Pool.Alike (pool : Pool ι γ σ χ ε α) (pool' : Pool ι γ' σ χ ε α) : Prop where
  state : pool'.state = pool.state
  finished : pool'.finished = pool.finished
  running : pool'.running.map Thread.bare = pool.running.map Thread.bare

/-- Steps in which no program dies. -/
def Pool.Survives (S : System ι γ σ χ ε α) (D : Discipline ι γ σ χ ε α) :
    Pool ι γ σ χ ε α → Pool ι γ σ χ ε α → Prop :=
  Relation.ReflTransGen fun pool pool' => (∃ mover, Pool.Step S D mover pool pool') ∧
    pool.running.length + pool.finished.length ≤ pool'.running.length + pool'.finished.length

variable {S : System ι γ σ χ ε α} {T : System ι γ' σ χ ε α} {D : Discipline ι γ σ χ ε α}

theorem Pool.Survives.steps {pool pool' : Pool ι γ σ χ ε α} (h : Pool.Survives S D pool pool') :
    Pool.Steps S D pool pool' :=
  Relation.ReflTransGen.mono (fun _ _ hstep => hstep.1) _ _ h

theorem Pool.Alike.split {before after : List (Thread ι γ σ χ ε α)}
    {thread : Thread ι γ σ χ ε α} {running' : List (Thread ι γ' σ χ ε α)}
    (h : running'.map Thread.bare = (before ++ thread :: after).map Thread.bare) :
    ∃ before' g' after', running' = before' ++ ⟨thread.origin, g', thread.rest⟩ :: after' ∧
      before'.map Thread.bare = before.map Thread.bare ∧
      after'.map Thread.bare = after.map Thread.bare := by
  rw [List.map_append, List.map_cons, List.map_eq_append_iff] at h
  obtain ⟨before', rest', rfl, hbefore, hrest⟩ := h
  obtain ⟨⟨i', g', p'⟩, after', rfl, hthread, hafter⟩ := List.map_eq_cons_iff.mp hrest
  obtain ⟨i, g, p⟩ := thread
  cases hthread
  exact ⟨before', g', after', rfl, hbefore, hafter⟩

theorem Pool.Alike.step (hprogram : T.program = S.program) (hadmits : T.admits = S.admits)
    {mover : Option (Thread ι γ σ χ ε α)} {pool next : Pool ι γ σ χ ε α}
    {pool' : Pool ι γ' σ χ ε α} (h : pool.Alike pool') (hstep : Pool.Step S D mover pool next) :
    ∃ next', (∃ mover', Pool.Step T .free mover' pool' next') ∧ next.Alike next' := by
  obtain ⟨s', running', finished'⟩ := pool'
  obtain ⟨rfl, rfl, hrunning⟩ := h
  cases hstep with
  | start i _ =>
      refine ⟨_, ⟨_, .start i trivial⟩, rfl, rfl, ?_⟩
      have hthread : Thread.bare ⟨i, T.aux i, T.program i⟩ =
          Thread.bare ⟨i, S.aux i, S.program i⟩ := by rw [Thread.bare, hprogram, Thread.bare]
      rw [List.map_cons, hthread, hrunning, List.map_cons]
  | move c hc _ =>
      obtain ⟨before', g', after', rfl, hbefore, hafter⟩ := Alike.split hrunning
      refine ⟨_, ⟨_, .move c (hadmits ▸ hc) trivial⟩, rfl, rfl, ?_⟩
      simp only [List.map_append, List.map_cons, hbefore, hafter, Thread.bare]
  | finish houtcome =>
      obtain ⟨before', g', after', rfl, hbefore, hafter⟩ := Alike.split hrunning
      refine ⟨_, ⟨_, .finish houtcome⟩, rfl, rfl, ?_⟩
      simp only [List.map_append, hbefore, hafter]
  | crash thread =>
      obtain ⟨before', g', after', rfl, hbefore, hafter⟩ := Alike.split hrunning
      refine ⟨_, ⟨_, .crash _⟩, rfl, rfl, ?_⟩
      simp only [List.map_append, hbefore, hafter]

/-- No step reads what a thread keeps track of. -/
theorem Pool.Survives.alike (hprogram : T.program = S.program) (hadmits : T.admits = S.admits)
    {s : σ} {pool : Pool ι γ σ χ ε α} (h : Pool.Survives S D ⟨s, [], []⟩ pool) :
    ∃ pool', Pool.Survives T .free ⟨s, [], []⟩ pool' ∧ pool.Alike pool' := by
  induction h with
  | refl => exact ⟨_, .refl, rfl, rfl, rfl⟩
  | tail _ hstep ih =>
      obtain ⟨⟨mover, hstep⟩, hlength⟩ := hstep
      obtain ⟨mid, hmid, halike⟩ := ih
      obtain ⟨next, hnext, halike'⟩ := halike.step hprogram hadmits hstep
      refine ⟨next, hmid.tail ⟨hnext, ?_⟩, halike'⟩
      have hmidlength := congrArg List.length halike.running
      have hnextlength := congrArg List.length halike'.running
      simp only [List.length_map] at hmidlength hnextlength
      rwa [hmidlength, hnextlength, halike.finished, halike'.finished]

/-- A program that is started and runs on for `n` steps. -/
theorem Pool.Survives.underway {i : ι} {s : σ} (cs : ℕ → χ) (finished : List (ι × Except ε α))
    (hcs : ∀ n, S.admits i (cs n)) (hstart : D.starts s [] i)
    (hmoves : ∀ g s p, D.moves s [] ⟨i, g, p⟩) (n : ℕ) :
    ∃ g, Pool.Survives S D ⟨s, [], finished⟩ ⟨(S.program i).crash cs n s,
      [⟨i, g, (S.program i).residual cs n s⟩], finished⟩ := by
  have hrun : ∀ (n : ℕ) (p : Program σ χ ε α) (cs : ℕ → χ) (g : γ) (s : σ),
      (∀ n, S.admits i (cs n)) → ∃ g', Pool.Survives S D ⟨s, [⟨i, g, p⟩], finished⟩
        ⟨p.crash cs n s, [⟨i, g', p.residual cs n s⟩], finished⟩ := by
    intro n
    induction n with
    | zero =>
        intro p cs g s _
        cases p with
        | ret a => exact ⟨g, .refl⟩
        | raise e => exact ⟨g, .refl⟩
        | step f k => exact ⟨g, .refl⟩
    | succ n ih =>
        intro p cs g s hcs
        cases p with
        | ret a => exact ⟨g, .refl⟩
        | raise e => exact ⟨g, .refl⟩
        | step f k =>
            obtain ⟨g', hsteps⟩ := ih (k (f (cs 0) s).1) (fun n => cs (n + 1))
              (S.observe i g s (f (cs 0) s).2) (f (cs 0) s).2 fun n => hcs (n + 1)
            have hstep : Pool.Step S D _ ⟨s, [] ++ ⟨i, g, .step f k⟩ :: [], finished⟩ _ :=
              .move (cs 0) (hcs 0) (hmoves _ _ _)
            exact ⟨g', .head ⟨⟨_, hstep⟩, Nat.le_refl _⟩ hsteps⟩
  obtain ⟨g, hsteps⟩ := hrun n (S.program i) cs (S.aux i) s hcs
  have hstep : Pool.Step S D none ⟨s, [], finished⟩ _ := .start i hstart
  exact ⟨g, .head ⟨⟨_, hstep⟩, Nat.add_le_add_right (Nat.zero_le _) _⟩ hsteps⟩

end Auxiliary

/-! ## Debts -/

section Debts
variable {ι σ χ ε α : Type} {dirty : σ → Bool}

/-- Who makes a clean state dirty owes until a step of its own leaves a clean one. -/
def owing (dirty : σ → Bool) (owes : Bool) (s t : σ) : Bool := dirty t && (owes || !dirty s)

theorem owing_clean {owes : Bool} {s t : σ} (h : dirty t = false) :
    owing dirty owes s t = false := by
  simp [owing, h]

theorem owing_same {s t : σ} (h : dirty t = true → dirty s = true) :
    owing dirty false s t = false := by
  cases hdirty : dirty t with
  | false => exact owing_clean hdirty
  | true => simp [owing, hdirty, h hdirty]

variable {S : System ι Bool σ χ ε α} {D : Discipline ι Bool σ χ ε α}
variable {C : Contract ι Bool σ ε α} {s : σ}

/-- While a state is dirty, a debtor that owes is still running. -/
theorem Contract.Sound.owed (Debtor : ι → Prop) (hsound : C.Sound S D)
    (hobserve : ∀ i, S.observe i = owing dirty)
    (hpost : ∀ i owes r s, C.post i owes r s → owes = false)
    (hguar : ∀ i owes s t, C.guar i owes s t → ¬ Debtor i → dirty t = true → dirty s = true)
    (hs : C.inv s) (hclean : dirty s = false) {pool : Pool ι Bool σ χ ε α}
    (h : Pool.Survives S D ⟨s, [], []⟩ pool) (hdirty : dirty pool.state = true) :
    ∃ thread ∈ pool.running, Debtor thread.origin ∧ thread.aux = true := by
  induction h with
  | refl => exact absurd (hclean.symm.trans hdirty) Bool.false_ne_true
  | tail hmid hstep ih =>
      obtain ⟨⟨mover, hstep⟩, hlength⟩ := hstep
      have hpool := hsound.holds hs (Pool.Survives.steps hmid)
      cases hstep with
      | start i _ =>
          obtain ⟨thread, hthread, howes⟩ := ih hdirty
          exact ⟨thread, List.mem_cons_of_mem _ hthread, howes⟩
      | @move s before after _ i g δ f k c hc hmoves =>
          obtain ⟨hstep, -⟩ := (hpool.safe _ List.mem_append_cons_self).move hsound hpool.inv hc
            hmoves
          dsimp only at hdirty ih ⊢
          cases hdirtied : dirty s with
          | true =>
              obtain ⟨thread, hmem, hdebtor, howes⟩ := ih hdirtied
              simp only [List.mem_append, List.mem_cons] at hmem ⊢
              rcases hmem with hmem | rfl | hmem
              · exact ⟨thread, .inl hmem, hdebtor, howes⟩
              · refine ⟨_, .inr (.inl rfl), hdebtor, ?_⟩
                have howes : g = true := howes
                simp [hobserve, owing, hdirty, howes]
              · exact ⟨thread, .inr (.inr hmem), hdebtor, howes⟩
          | false =>
              -- the mover owes for what it makes dirty
              have hdebtor : Debtor i := by
                by_contra hother
                exact Bool.false_ne_true (hdirtied.symm.trans (hguar i g s _ hstep hother hdirty))
              refine ⟨_, List.mem_append_right _ List.mem_cons_self, hdebtor, ?_⟩
              simp [hobserve, owing, hdirty, hdirtied]
      | @finish s before after _ i g p r houtcome =>
          obtain ⟨thread, hmem, hdebtor, howes⟩ := ih hdirty
          simp only [List.mem_append, List.mem_cons] at hmem ⊢
          rcases hmem with hmem | rfl | hmem
          · exact ⟨thread, .inl hmem, hdebtor, howes⟩
          · -- who owes has not ended
            have hended := (hpool.safe _ List.mem_append_cons_self).post r houtcome
            exact absurd ((hpost _ _ _ _ hended).symm.trans howes) Bool.false_ne_true
          · exact ⟨thread, .inr hmem, hdebtor, howes⟩
      | crash thread =>
          simp only [List.length_append, List.length_cons] at hlength
          omega

end Debts
end StoryReview
