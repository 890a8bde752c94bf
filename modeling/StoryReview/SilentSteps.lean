import StoryReview.Interleaving

/-!
# Silent steps

A program refines another one if it takes the other's steps on a part of its state and,
in between, silent steps of its own, which leave that part alone. An interleaving of such
programs is an interleaving of the others with the silent steps left out.
-/
namespace StoryReview
namespace Program
variable {σ τ χ χ' ε ε' α α' β β' : Type}

theorem bind_assoc (p : Program σ χ ε α) (f : α → Program σ χ ε β) (g : β → Program σ χ ε β') :
    (p.bind f).bind g = p.bind fun a => (f a).bind g := by
  induction p with
  | ret a => rfl
  | raise e => rfl
  | step f k ih => exact congrArg (step f) (funext ih)

/-- `get` is the part of the state and `ask` the part of the answers that both programs
know; `A` is what the silent steps are promised of their answers, `R` relates the
results. -/
inductive Refines (A : χ' → Prop) (get : τ → σ) (ask : χ' → χ) (R : α' → α → Prop) :
    Program τ χ' ε α' → Program σ χ ε α → Prop
  | ret {a' : α'} {a : α} (h : R a' a) : Refines A get ask R (.ret a') (.ret a)
  | raise (e : ε) : Refines A get ask R (.raise e) (.raise e)
  | step {δ : Type} {f' : χ' → τ → δ × τ} {f : χ → σ → δ × σ} {k' : δ → Program τ χ' ε α'}
      {k : δ → Program σ χ ε α}
      (hanswer : ∀ c t, (f' c t).1 = (f (ask c) (get t)).1)
      (hstate : ∀ c t, get (f' c t).2 = (f (ask c) (get t)).2)
      (hrest : ∀ d, Refines A get ask R (k' d) (k d)) :
      Refines A get ask R (.step f' k') (.step f k)
  | silent {δ : Type} {f' : χ' → τ → δ × τ} {k' : δ → Program τ χ' ε α'}
      {q : Program σ χ ε α} (hstate : ∀ c t, get (f' c t).2 = get t)
      (hrest : ∀ c t, A c → Refines A get ask R (k' (f' c t).1) q) :
      Refines A get ask R (.step f' k') q

section Rules
variable {A : χ' → Prop} {get : τ → σ} {ask : χ' → χ} {R : α' → α → Prop}
variable {S : β' → β → Prop}

theorem Refines.ofExcept {R : α → α → Prop} {r : Except ε α} (h : ∀ a, r = .ok a → R a a) :
    Refines A get ask R (.ofExcept r) (.ofExcept r) := by
  cases r with
  | ok a => exact .ret (h a rfl)
  | error e => exact .raise e

theorem Refines.mono {R' : α' → α → Prop} {p : Program τ χ' ε α'} {q : Program σ χ ε α}
    (h : Refines A get ask R p q) (hR : ∀ a' a, R a' a → R' a' a) :
    Refines A get ask R' p q := by
  induction h with
  | ret h => exact .ret (hR _ _ h)
  | raise e => exact .raise e
  | step hanswer hstate _ ih => exact .step hanswer hstate ih
  | silent hstate _ ih => exact .silent hstate ih

theorem Refines.bind {p : Program τ χ' ε β'} {q : Program σ χ ε β}
    {g' : β' → Program τ χ' ε α'} {g : β → Program σ χ ε α} (h : Refines A get ask S p q)
    (hg : ∀ b' b, S b' b → Refines A get ask R (g' b') (g b)) :
    Refines A get ask R (p.bind g') (q.bind g) := by
  induction h with
  | ret h => exact hg _ _ h
  | raise e => exact .raise e
  | step hanswer hstate _ ih => exact .step hanswer hstate ih
  | silent hstate _ ih => exact .silent hstate ih

theorem Refines.tryCatch {p : Program τ χ' ε' α'} {q : Program σ χ ε' α}
    {handler' : ε' → Program τ χ' ε α'} {handler : ε' → Program σ χ ε α}
    (h : Refines A get ask R p q)
    (hhandler : ∀ e, Refines A get ask R (handler' e) (handler e)) :
    Refines A get ask R (p.tryCatch handler') (q.tryCatch handler) := by
  induction h with
  | ret h => exact .ret h
  | raise e => exact hhandler e
  | step hanswer hstate _ ih => exact .step hanswer hstate ih
  | silent hstate _ ih => exact .silent hstate ih

theorem Refines.ite {c : Prop} [Decidable c] {p' q' : Program τ χ' ε α'}
    {p q : Program σ χ ε α} (hp : Refines A get ask R p' p) (hq : Refines A get ask R q' q) :
    Refines A get ask R (if c then p' else q') (if c then p else q) := by
  split_ifs
  exacts [hp, hq]

theorem Refines.ensure {p : Program τ χ' ε α'} {q : Program σ χ ε α}
    {cleanup' : Program τ χ' ε Unit} {cleanup : Program σ χ ε Unit}
    (h : Refines A get ask R p q) (hcleanup : Refines A get ask Eq cleanup' cleanup) :
    Refines A get ask R (p.ensure cleanup') (q.ensure cleanup) := by
  refine .bind (.tryCatch h fun e => .bind hcleanup fun _ _ _ => .raise e) fun a' a ha => ?_
  exact .bind hcleanup fun _ _ _ => .ret ha

theorem Refines.traverse {f' : β' → Program τ χ' ε α'} {f : β → Program σ χ ε α}
    {xs' : List β'} {xs : List β}
    (hf : ∀ x' x, S x' x → Refines A get ask R (f' x') (f x)) (hxs : List.Forall₂ S xs' xs) :
    Refines A get ask (List.Forall₂ R) (Program.traverse f' xs') (Program.traverse f xs) := by
  induction hxs with
  | nil => exact .ret .nil
  | cons hx _ ih =>
      exact .bind (hf _ _ hx) fun _ _ hy => .bind ih fun _ _ hys => .ret (.cons hy hys)

/-- A silent step before the rest. -/
theorem Refines.atomic_bind {δ : Type} {f' : χ' → τ → δ × τ} {g' : δ → Program τ χ' ε α'}
    {q : Program σ χ ε α} (hstate : ∀ c t, get (f' c t).2 = get t)
    (h : ∀ c t, A c → Refines A get ask R (g' (f' c t).1) q) :
    Refines A get ask R ((Program.atomic f').bind g') q :=
  .silent hstate h

/-- A program of silent steps before the rest. -/
theorem Refines.skip {p : Program τ χ' ε β'} {g' : β' → Program τ χ' ε α'}
    {q : Program σ χ ε α} {b : β} (h : Refines A get ask S p (.ret b))
    (hg : ∀ b', Refines A get ask R (g' b') q) : Refines A get ask R (p.bind g') q :=
  Refines.bind (g := fun _ => q) h fun b' _ _ => hg b'

/-- Silent steps after the rest. -/
theorem Refines.followed {p : Program τ χ' ε β'} {q : Program σ χ ε α}
    {g' : β' → Program τ χ' ε α'} {S : β' → α → Prop} (h : Refines A get ask S p q)
    (hg : ∀ b' a, S b' a → Refines A get ask R (g' b') (.ret a)) :
    Refines A get ask R (p.bind g') q := by
  have hbind := h.bind hg
  rwa [bind_ret] at hbind

/-- A program on the part itself takes no silent step. -/
theorem Refines.zoom {set : τ → σ → τ} (hset : ∀ t s, get (set t s) = s)
    (p : Program σ χ ε α) : Refines A get ask Eq (p.zoom get set ask) p := by
  induction p with
  | ret a => exact .ret rfl
  | raise e => exact .raise e
  | step f k ih => exact .step (fun _ _ => rfl) (fun _ _ => hset _ _) ih

/-- A program that ends ends as the one it refines. -/
theorem Refines.outcome {p : Program τ χ' ε α} {q : Program σ χ ε α}
    (h : Refines A get ask Eq p q) {r : Except ε α} (hr : p.outcome = some r) :
    q.outcome = some r := by
  cases h with
  | ret h =>
      subst h
      exact hr
  | raise e => exact hr
  | step => cases hr
  | silent => cases hr

end Rules

/-! ## On a part of the state -/

section Zoom
variable {A : χ → Prop} {A' : χ' → Prop} {get : τ → σ} {set : τ → σ → τ} {ask : χ' → χ}
variable {γ : Type} {observe : γ → σ → σ → γ} {observe' : γ → τ → τ → γ}
variable {R G : γ → σ → σ → Prop} {R' G' : γ → τ → τ → Prop}
variable {Q : α → γ → σ → Prop} {E : ε → γ → σ → Prop} {F : σ → σ → Prop}
variable {J : γ → τ → Prop} {p : Program σ χ ε α} {g : γ} {t : τ}

theorem rg_admits {A₁ : χ → Prop} {s : σ} (h : p.rg A observe R G Q E g s)
    (hA : ∀ c, A₁ c → A c) : p.rg A₁ observe R G Q E g s := by
  induction p generalizing g s with
  | ret a => exact h
  | raise e => exact h
  | step f k ih => exact fun c t hc ht => ⟨(h c t (hA c hc) ht).1, ih _ (h c t (hA c hc) ht).2⟩

/-- A program on a part keeps on the whole what it keeps on the part, and whatever its
footprint leaves alone. -/
theorem rg_zoom (h : p.rg A observe R G Q E g (get t)) (hmoves : p.Moves A F)
    (hset : ∀ t s, get (set t s) = s) (hask : ∀ c, A' c → A (ask c))
    (hobserve : ∀ g t s, observe' g t (set t s) = observe g (get t) s)
    (hrely : ∀ g t u, J g t → R' g t u → R g (get t) (get u) ∧ J g u)
    (hstep : ∀ g t s, J g t → F (get t) s →
      G' g t (set t s) ∧ J (observe g (get t) s) (set t s)) (hJ : J g t) :
    (p.zoom get set ask).rg A' observe' R' G' (fun a g u => J g u ∧ Q a g (get u))
      (fun e g u => J g u ∧ E e g (get u)) g t := by
  induction p generalizing g t with
  | ret a => exact ⟨hJ, h⟩
  | raise e => exact ⟨hJ, h⟩
  | step f k ih =>
      intro c u hc hu
      obtain ⟨hpart, hJu⟩ := hrely g t u hJ hu
      have hrest := h (ask c) (get u) (hask c hc) hpart
      have hown := hstep g u _ hJu (hmoves.1 (ask c) (get u) (hask c hc))
      refine ⟨hown.1, ?_⟩
      rw [hobserve]
      refine ih _ ?_ (hmoves.2 _) hown.2
      rw [hset]
      exact hrest.2

end Zoom
end Program

/-! ## Pools -/

section Pools
variable {ι ι' γ γ' σ τ χ χ' ε α : Type}

/-- The thread runs a refinement of the other's program. -/
structure Thread.Refines (A : χ' → Prop) (get : τ → σ) (ask : χ' → χ) (named : ι' → ι)
    (thread' : Thread ι' γ' τ χ' ε α) (thread : Thread ι γ σ χ ε α) : Prop where
  origin : thread.origin = named thread'.origin
  rest : Program.Refines A get ask Eq thread'.rest thread.rest

/-- The pool on the part of the state: the same threads, and the same outcomes. -/
structure Pool.Refines (A : χ' → Prop) (get : τ → σ) (ask : χ' → χ) (named : ι' → ι)
    (pool' : Pool ι' γ' τ χ' ε α) (pool : Pool ι γ σ χ ε α) : Prop where
  state : pool.state = get pool'.state
  running : List.Forall₂ (Thread.Refines A get ask named) pool'.running pool.running
  finished : pool.finished = pool'.finished.map fun end' => (named end'.1, end'.2)

section Refinement
variable {A : χ' → Prop} {get : τ → σ} {ask : χ' → χ} {named : ι' → ι}
variable {S' : System ι' γ' τ χ' ε α} {S : System ι γ σ χ ε α}

theorem forall₂_split {κ κ' : Type*} {R : κ → κ' → Prop} {before after : List κ} {x : κ}
    {ys : List κ'} (h : List.Forall₂ R (before ++ x :: after) ys) :
    ∃ before' y after', ys = before' ++ y :: after' ∧ List.Forall₂ R before before' ∧
      R x y ∧ List.Forall₂ R after after' := by
  induction before generalizing ys with
  | nil =>
      cases h with
      | cons hx hafter => exact ⟨[], _, _, rfl, .nil, hx, hafter⟩
  | cons z before ih =>
      cases h with
      | cons hz hrest =>
          obtain ⟨before', y, after', rfl, hbefore, hx, hafter⟩ := ih hrest
          exact ⟨_ :: before', y, after', rfl, .cons hz hbefore, hx, hafter⟩

/-- One step of the refining pool is one step of the other, or silent. -/
theorem Pool.Refines.step {mover' : Option (Thread ι' γ' τ χ' ε α)}
    {pool₁ pool₂ : Pool ι' γ' τ χ' ε α} {pool : Pool ι γ σ χ ε α}
    (hprogram : ∀ i, Program.Refines A get ask Eq (S'.program i) (S.program (named i)))
    (hadmits : ∀ i c, S'.admits i c → A c ∧ S.admits (named i) (ask c))
    (h : pool₁.Refines A get ask named pool) (hstep : Pool.Step S' .free mover' pool₁ pool₂) :
    ∃ pool', Pool.Steps S .free pool pool' ∧ pool₂.Refines A get ask named pool' := by
  obtain ⟨s, running, finished⟩ := pool
  obtain ⟨hstate, hrunning, hfinished⟩ := h
  dsimp only at hstate hrunning hfinished
  subst hstate hfinished
  cases hstep with
  | start i _ =>
      refine ⟨_, .single ⟨_, .start (named i) trivial⟩, rfl, .cons ⟨rfl, hprogram i⟩ hrunning,
        rfl⟩
  | @move t before after _ i g δ f k c hc _ =>
      obtain ⟨before', thread, after', rfl, hbefore, hthread, hafter⟩ := forall₂_split hrunning
      obtain ⟨j, g', q⟩ := thread
      obtain ⟨rfl, hrest⟩ := hthread
      obtain ⟨hpromised, hadmitted⟩ := hadmits i c hc
      dsimp only at hrest hadmitted
      cases hrest with
      | step hanswer hstate hrest =>
          refine ⟨_, .single ⟨_, .move (ask c) hadmitted trivial⟩, (hstate c t).symm, ?_, rfl⟩
          refine List.rel_append hbefore (.cons ⟨rfl, ?_⟩ hafter)
          dsimp only
          rw [← hanswer c t]
          exact hrest _
      | silent hstate hrest =>
          refine ⟨_, .refl, (hstate c t).symm, ?_, rfl⟩
          exact List.rel_append hbefore (.cons ⟨rfl, hrest c t hpromised⟩ hafter)
  | @finish t before after _ i g p r houtcome =>
      obtain ⟨before', thread, after', rfl, hbefore, hthread, hafter⟩ := forall₂_split hrunning
      obtain ⟨j, g', q⟩ := thread
      obtain ⟨rfl, hrest⟩ := hthread
      exact ⟨_, .single ⟨_, .finish (hrest.outcome houtcome)⟩, rfl,
        List.rel_append hbefore hafter, rfl⟩
  | @crash t before after _ thread' =>
      obtain ⟨before', thread, after', rfl, hbefore, -, hafter⟩ := forall₂_split hrunning
      exact ⟨_, .single ⟨_, .crash thread⟩, rfl, List.rel_append hbefore hafter, rfl⟩

/-- Every run of the refining pool is a run of the other, its silent steps left out. -/
theorem Pool.Reachable.refines
    (hprogram : ∀ i, Program.Refines A get ask Eq (S'.program i) (S.program (named i)))
    (hadmits : ∀ i c, S'.admits i c → A c ∧ S.admits (named i) (ask c)) {t : τ}
    {pool' : Pool ι' γ' τ χ' ε α} (h : pool'.Reachable S' .free t) :
    ∃ pool : Pool ι γ σ χ ε α, pool.Reachable S .free (get t) ∧
      pool'.Refines A get ask named pool := by
  induction h with
  | refl => exact ⟨⟨get t, [], []⟩, .refl, rfl, .nil, rfl⟩
  | tail _ hstep ih =>
      obtain ⟨mover', hstep⟩ := hstep
      obtain ⟨pool, hpool, hrefines⟩ := ih
      obtain ⟨pool', hsteps, hnext⟩ := hrefines.step hprogram hadmits hstep
      exact ⟨pool', hpool.trans hsteps, hnext⟩

end Refinement
end Pools
end StoryReview
