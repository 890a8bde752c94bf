import StoryReview.CrashProgram

/-!
# Milestones

A run passes a milestone with the first step that makes a condition true. What is left of
the program at that moment, and the state it is left with, may satisfy an assertion of
their own; then the rest of the run can be reasoned about from there, although nobody
knows beforehand when it comes to that.
-/
namespace StoryReview.Program
variable {σ χ ε ε' α β : Type}

/-- If a step of a run from `s` is the first to make `M` true, the rest of the program
and the state satisfy `K`. -/
def Passes (A : χ → Prop) (M : σ → Prop) (K : Program σ χ ε α → σ → Prop) :
    Program σ χ ε α → σ → Prop
  | .ret _, _ => True
  | .raise _, _ => True
  | .step f k, s => ∀ c, A c → (M (f c s).2 → K (k (f c s).1) (f c s).2) ∧
      (¬ M (f c s).2 → (k (f c s).1).Passes A M K (f c s).2)

section Passes
variable {A : χ → Prop} {M : σ → Prop} {s : σ}

theorem crash_zero (p : Program σ χ ε α) (cs : ℕ → χ) (s : σ) : p.crash cs 0 s = s := by
  cases p with
  | ret a => rfl
  | raise e => rfl
  | step f k => rfl

/-- The run goes on from its milestone. -/
theorem Passes.run {K : Program σ χ ε α → σ → Prop} {p : Program σ χ ε α}
    (h : p.Passes A M K s) {cs : ℕ → χ} (hcs : ∀ n, A (cs n)) {n : ℕ}
    (hbefore : ∀ m ≤ n, ¬ M (p.crash cs m s)) (hafter : M (p.crash cs (n + 1) s)) :
    ∃ q, K q (p.crash cs (n + 1) s) ∧
      p.run cs s = q.run (fun i => cs (i + (n + 1))) (p.crash cs (n + 1) s) := by
  induction p generalizing s cs n with
  | ret a => exact absurd hafter (hbefore 0 (Nat.zero_le n))
  | raise e => exact absurd hafter (hbefore 0 (Nat.zero_le n))
  | step f k ih =>
      obtain ⟨hpasses, hrest⟩ := h (cs 0) (hcs 0)
      cases n with
      | zero =>
          simp only [crash, crash_zero] at hafter ⊢
          exact ⟨_, hpasses hafter, rfl⟩
      | succ n =>
          have hfirst := hbefore 1 (Nat.le_add_left 1 n)
          simp only [crash, crash_zero] at hfirst
          have hnext : ∀ m ≤ n, ¬ M ((k (f (cs 0) s).1).crash (fun i => cs (i + 1)) m
              (f (cs 0) s).2) := fun m hm => hbefore (m + 1) (Nat.succ_le_succ hm)
          exact ih _ (hrest hfirst) (fun i => hcs (i + 1)) hnext hafter

variable {K : Program σ χ ε β → σ → Prop}

theorem Passes.mono {K' : Program σ χ ε β → σ → Prop} {p : Program σ χ ε β}
    (h : p.Passes A M K s) (hK : ∀ q t, K q t → K' q t) : p.Passes A M K' s := by
  induction p generalizing s with
  | ret a => trivial
  | raise e => trivial
  | step f k ih =>
      intro c hc
      obtain ⟨hpasses, hrest⟩ := h c hc
      exact ⟨fun hM => hK _ _ (hpasses hM), fun hnot => ih _ (hrest hnot)⟩

/-- A program none of whose steps can make `M` true has no milestone. -/
theorem Moves.passes {R : σ → σ → Prop} {p : Program σ χ ε β} (h : p.Moves A R)
    (hR : ∀ s t, R s t → M t → M s) (hs : ¬ M s) : p.Passes A M K s := by
  induction p generalizing s with
  | ret a => trivial
  | raise e => trivial
  | step f k ih =>
      intro c hc
      have hnot : ¬ M (f c s).2 := fun hM => hs (hR _ _ (h.1 c s hc) hM)
      exact ⟨fun hM => absurd hM hnot, fun _ => ih _ (h.2 _) hnot⟩

/-- The milestone comes after the first part. -/
theorem passes_bind_of_wp {Q : α → σ → Prop} {E : ε → σ → Prop} {p : Program σ χ ε α}
    {g : α → Program σ χ ε β} (hp : p.wp A (fun t => ¬ M t) Q E s)
    (hg : ∀ a t, Q a t → (g a).Passes A M K t) : (p.bind g).Passes A M K s := by
  induction p generalizing s with
  | ret a => exact hg a s hp
  | raise e => trivial
  | step f k ih =>
      intro c hc
      obtain ⟨hnot, hrest⟩ := hp c hc
      exact ⟨fun hM => absurd hM hnot, fun _ => ih _ hrest⟩

/-- The milestone comes in either part. -/
theorem Passes.bind {K' : Program σ χ ε α → σ → Prop} {p : Program σ χ ε α}
    {g : α → Program σ χ ε β} (hp : p.Passes A M K' s) (hs : ¬ M s)
    (hK : ∀ q t, K' q t → K (q.bind g) t) (hg : ∀ a t, ¬ M t → (g a).Passes A M K t) :
    (p.bind g).Passes A M K s := by
  induction p generalizing s with
  | ret a => exact hg a s hs
  | raise e => trivial
  | step f k ih =>
      intro c hc
      obtain ⟨hpasses, hrest⟩ := hp c hc
      exact ⟨fun hM => hK _ _ (hpasses hM), fun hnot => ih _ (hrest hnot) hnot⟩

theorem Passes.tryCatch {K' : Program σ χ ε' β → σ → Prop} {p : Program σ χ ε' β}
    {handler : ε' → Program σ χ ε β} (hp : p.Passes A M K' s) (hs : ¬ M s)
    (hK : ∀ q t, K' q t → K (q.tryCatch handler) t)
    (hhandler : ∀ e t, ¬ M t → (handler e).Passes A M K t) :
    (p.tryCatch handler).Passes A M K s := by
  induction p generalizing s with
  | ret a => trivial
  | raise e => exact hhandler e s hs
  | step f k ih =>
      intro c hc
      obtain ⟨hpasses, hrest⟩ := hp c hc
      exact ⟨fun hM => hK _ _ (hpasses hM), fun hnot => ih _ (hrest hnot) hnot⟩

/-- What runs finally has no milestone of its own. -/
theorem Passes.ensure {R : σ → σ → Prop} {p : Program σ χ ε β} {q : Program σ χ ε Unit}
    (hp : p.Passes A M K s) (hs : ¬ M s) (hK : ∀ r t, K r t → K (r.ensure q) t)
    (hq : q.Moves A R) (hR : ∀ s t, R s t → M t → M s) : (p.ensure q).Passes A M K s := by
  have hraise : ∀ e t, ¬ M t → (q.bind fun _ => (raise e : Program σ χ ε β)).Passes A M
      (fun r u => K (r.bind fun a => q.bind fun _ => ret a) u) t := fun e _ ht =>
    Moves.passes (moves_bind hq fun _ => moves_raise e) hR ht
  have hret : ∀ a t, ¬ M t → (q.bind fun _ => (ret a : Program σ χ ε β)).Passes A M K t :=
    fun a _ ht => Moves.passes (moves_bind hq fun _ => moves_ret a) hR ht
  exact Passes.bind (Passes.tryCatch hp hs hK hraise) hs (fun _ _ h => h) hret

end Passes
end StoryReview.Program
