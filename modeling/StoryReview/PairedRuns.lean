import StoryReview.CrashProgram

/-!
# Runs side by side

Two programs run from two states under the same answers of the environment. `Both` relates
the runs step by step; `Agrees` is its special case of one program whose behaviour does not
depend on what the relation leaves open. What is known of each run alone, by its weakest
precondition, may be assumed along the way.
-/
namespace StoryReview
namespace Program
variable {σ χ ε ε' ε'' α β γ δ : Type}

/-- The programs step together from `s` and `t`. After every step `R` relates the states,
provided `J` holds of both, and the runs return in `Q` or raise in `E`. -/
def Both (J : σ → Prop) (R : σ → σ → Prop) (Q : α → β → σ → σ → Prop)
    (E : ε → ε' → σ → σ → Prop) : Program σ χ ε α → Program σ χ ε' β → σ → σ → Prop
  | .ret a, .ret b, s, t => Q a b s t
  | .raise e, .raise e', s, t => E e e' s t
  | .step f k, .step g l, s, t => ∀ c, J (f c s).2 → J (g c t).2 → R (f c s).2 (g c t).2 ∧
      (k (f c s).1).Both J R Q E (l (g c t).1) (f c s).2 (g c t).2
  | _, _, _, _ => False

section Both
variable {J : σ → Prop} {R R' : σ → σ → Prop} {s t : σ}

theorem both_atomic {f : χ → σ → α × σ} {g : χ → σ → β × σ} {Q : α → β → σ → σ → Prop}
    {E : ε → ε → σ → σ → Prop}
    (h : ∀ c, J (f c s).2 → J (g c t).2 →
      R (f c s).2 (g c t).2 ∧ Q (f c s).1 (g c t).1 (f c s).2 (g c t).2) :
    (atomic f : Program σ χ ε α).Both J R Q E (atomic g : Program σ χ ε β) s t := h

theorem Both.mono {Q Q' : α → β → σ → σ → Prop} {E E' : ε → ε' → σ → σ → Prop}
    {p : Program σ χ ε α} {q : Program σ χ ε' β} (h : p.Both J R Q E q s t)
    (hR : ∀ s t, R s t → R' s t) (hQ : ∀ a b s t, Q a b s t → Q' a b s t)
    (hE : ∀ e e' s t, E e e' s t → E' e e' s t) : p.Both J R' Q' E' q s t := by
  induction p generalizing q s t with
  | ret a =>
      cases q with
      | ret b => exact hQ _ _ _ _ h
      | raise e => exact h.elim
      | step g l => exact h.elim
  | raise e =>
      cases q with
      | ret b => exact h.elim
      | raise e' => exact hE _ _ _ _ h
      | step g l => exact h.elim
  | step f k ih =>
      cases q with
      | ret b => exact h.elim
      | raise e => exact h.elim
      | step g l => exact fun c hs ht => ⟨hR _ _ (h c hs ht).1, ih _ (h c hs ht).2⟩

theorem Both.bind {S : α → β → σ → σ → Prop} {Q : γ → δ → σ → σ → Prop}
    {E : ε → ε' → σ → σ → Prop} {p : Program σ χ ε α} {q : Program σ χ ε' β}
    {f : α → Program σ χ ε γ} {g : β → Program σ χ ε' δ} (h : p.Both J R S E q s t)
    (hfg : ∀ a b s t, S a b s t → (f a).Both J R Q E (g b) s t) :
    (p.bind f).Both J R Q E (q.bind g) s t := by
  induction p generalizing q s t with
  | ret a =>
      cases q with
      | ret b => exact hfg _ _ _ _ h
      | raise e => exact h.elim
      | step g l => exact h.elim
  | raise e =>
      cases q with
      | ret b => exact h.elim
      | raise e' => exact h
      | step g l => exact h.elim
  | step f k ih =>
      cases q with
      | ret b => exact h.elim
      | raise e => exact h.elim
      | step g l => exact fun c hs ht => ⟨(h c hs ht).1, ih _ (h c hs ht).2⟩

theorem Both.tryCatch {Q : α → β → σ → σ → Prop} {F : ε → ε' → σ → σ → Prop}
    {E : ε'' → ε'' → σ → σ → Prop} {p : Program σ χ ε α} {q : Program σ χ ε' β}
    {f : ε → Program σ χ ε'' α} {g : ε' → Program σ χ ε'' β} (h : p.Both J R Q F q s t)
    (hfg : ∀ e e' s t, F e e' s t → (f e).Both J R Q E (g e') s t) :
    (p.tryCatch f).Both J R Q E (q.tryCatch g) s t := by
  induction p generalizing q s t with
  | ret a =>
      cases q with
      | ret b => exact h
      | raise e => exact h.elim
      | step g l => exact h.elim
  | raise e =>
      cases q with
      | ret b => exact h.elim
      | raise e' => exact hfg _ _ _ _ h
      | step g l => exact h.elim
  | step f k ih =>
      cases q with
      | ret b => exact h.elim
      | raise e => exact h.elim
      | step g l => exact fun c hs ht => ⟨(h c hs ht).1, ih _ (h c hs ht).2⟩

variable {A : χ → Prop} {cs : ℕ → χ}
variable {Q : α → β → σ → σ → Prop} {E : ε → ε' → σ → σ → Prop}
variable {Q₁ : α → σ → Prop} {Q₂ : β → σ → Prop} {E₁ : ε → σ → Prop} {E₂ : ε' → σ → Prop}
variable {p : Program σ χ ε α} {q : Program σ χ ε' β}

/-- Runs whose states are all in `J` end alike. -/
theorem Both.run (h : p.Both J R Q E q s t) (hp : p.wp A J Q₁ E₁ s) (hq : q.wp A J Q₂ E₂ t)
    (hcs : ∀ n, A (cs n)) :
    (∃ a b, (p.run cs s).1 = .ok a ∧ (q.run cs t).1 = .ok b ∧
        Q a b (p.run cs s).2 (q.run cs t).2) ∨
      ∃ e e', (p.run cs s).1 = .error e ∧ (q.run cs t).1 = .error e' ∧
        E e e' (p.run cs s).2 (q.run cs t).2 := by
  induction p generalizing q s t cs with
  | ret a =>
      cases q with
      | ret b => exact .inl ⟨a, b, rfl, rfl, h⟩
      | raise e => exact h.elim
      | step g l => exact h.elim
  | raise e =>
      cases q with
      | ret b => exact h.elim
      | raise e' => exact .inr ⟨e, e', rfl, rfl, h⟩
      | step g l => exact h.elim
  | step f k ih =>
      cases q with
      | ret b => exact h.elim
      | raise e => exact h.elim
      | step g l =>
          have hs := hp (cs 0) (hcs 0)
          have ht := hq (cs 0) (hcs 0)
          exact ih _ (h _ hs.1 ht.1).2 hs.2 ht.2 fun n => hcs (n + 1)

/-- Crashes after the same number of steps leave related states. -/
theorem Both.crash (h : p.Both J R Q E q s t) (hp : p.wp A J Q₁ E₁ s)
    (hq : q.wp A J Q₂ E₂ t) (hst : R s t) (hcs : ∀ n, A (cs n)) (n : ℕ) :
    R (p.crash cs n s) (q.crash cs n t) := by
  induction p generalizing q s t cs n with
  | ret a =>
      cases q with
      | ret b => exact hst
      | raise e => exact h.elim
      | step g l => exact h.elim
  | raise e =>
      cases q with
      | ret b => exact h.elim
      | raise e' => exact hst
      | step g l => exact h.elim
  | step f k ih =>
      cases q with
      | ret b => exact h.elim
      | raise e => exact h.elim
      | step g l =>
          cases n with
          | zero => exact hst
          | succ n =>
              have hs := hp (cs 0) (hcs 0)
              have ht := hq (cs 0) (hcs 0)
              have hnext := h _ hs.1 ht.1
              exact ih _ hnext.2 hs.2 ht.2 hnext.1 (fun i => hcs (i + 1)) n

end Both

/-! ## One program from related states -/

/-- Related states, each of them in `J`. -/
def Together (J : σ → Prop) (R : σ → σ → Prop) (s t : σ) : Prop := J s ∧ J t ∧ R s t

/-- From related states the program takes related steps, and returns one and the same value,
in `Q`, or raises one and the same exception. -/
def Agrees (J : σ → Prop) (R : σ → σ → Prop) (Q : α → Prop) (p : Program σ χ ε α) : Prop :=
  ∀ s t, Together J R s t →
    p.Both J R (fun a b s t => a = b ∧ Q a ∧ Together J R s t)
      (fun e e' s t => e = e' ∧ Together J R s t) p s t

section Agrees
variable {J : σ → Prop} {R : σ → σ → Prop} {Q Q' : α → Prop} {S : β → Prop}

theorem agrees_ret {a : α} (h : Q a) : (Program.ret a : Program σ χ ε α).Agrees J R Q :=
  fun _ _ hst => ⟨rfl, h, hst⟩

@[simp] theorem agrees_raise (e : ε) : (Program.raise e : Program σ χ ε α).Agrees J R Q :=
  fun _ _ hst => ⟨rfl, hst⟩

theorem agrees_ofExcept {r : Except ε α} (h : ∀ a, r = .ok a → Q a) :
    (ofExcept r : Program σ χ ε α).Agrees J R Q := by
  cases r with
  | ok a => exact agrees_ret (h a rfl)
  | error e => exact agrees_raise e

theorem agrees_atomic {f : χ → σ → α × σ}
    (h : ∀ c s t, Together J R s t → J (f c s).2 → J (f c t).2 →
      (f c s).1 = (f c t).1 ∧ Q (f c s).1 ∧ R (f c s).2 (f c t).2) :
    (atomic f : Program σ χ ε α).Agrees J R Q := by
  intro s t hst
  refine both_atomic fun c hs ht => ?_
  obtain ⟨hanswer, hQ, hR⟩ := h c s t hst hs ht
  exact ⟨hR, hanswer, hQ, hs, ht, hR⟩

theorem agrees_atomicExcept {f : χ → σ → Except ε α × σ}
    (h : ∀ c s t, Together J R s t → J (f c s).2 → J (f c t).2 →
      (f c s).1 = (f c t).1 ∧ (∀ a, (f c s).1 = .ok a → Q a) ∧ R (f c s).2 (f c t).2) :
    (atomicExcept f).Agrees J R Q := by
  intro s t hst c hs ht
  obtain ⟨hanswer, hQ, hR⟩ := h c s t hst hs ht
  refine ⟨hR, ?_⟩
  rw [← hanswer]
  cases hr : (f c s).1 with
  | ok a => exact ⟨rfl, hQ a hr, hs, ht, hR⟩
  | error e => exact ⟨rfl, hs, ht, hR⟩

theorem Agrees.mono {p : Program σ χ ε α} (h : p.Agrees J R Q) (hQ : ∀ a, Q a → Q' a) :
    p.Agrees J R Q' :=
  fun s t hst => (h s t hst).mono (fun _ _ h => h)
    (fun a _ _ _ h => ⟨h.1, hQ a h.2.1, h.2.2⟩) fun _ _ _ _ h => h

/-- Seen from a weaker relation. -/
theorem Agrees.both {R' : σ → σ → Prop} {p : Program σ χ ε α} {s t : σ}
    (h : p.Agrees J R Q) (hst : Together J R s t) (hR : ∀ s t, R s t → R' s t) :
    p.Both J R' (fun a b s t => a = b ∧ Q a ∧ Together J R s t)
      (fun e e' s t => e = e' ∧ Together J R' s t) p s t :=
  (h s t hst).mono hR (fun _ _ _ _ h => h) fun _ _ _ _ h =>
    ⟨h.1, h.2.1, h.2.2.1, hR _ _ h.2.2.2⟩

theorem Agrees.bind {p : Program σ χ ε β} {g : β → Program σ χ ε α}
    (h : p.Agrees J R S) (hg : ∀ b, S b → (g b).Agrees J R Q) : (p.bind g).Agrees J R Q := by
  intro s t hst
  refine (h s t hst).bind fun a b s t hab => ?_
  obtain ⟨rfl, hS, hst⟩ := hab
  exact hg a hS s t hst

theorem Agrees.tryCatch {p : Program σ χ ε' α} {handler : ε' → Program σ χ ε α}
    (h : p.Agrees J R Q) (hhandler : ∀ e, (handler e).Agrees J R Q) :
    (p.tryCatch handler).Agrees J R Q := by
  intro s t hst
  refine (h s t hst).tryCatch fun e e' s t he => ?_
  obtain ⟨rfl, hst⟩ := he
  exact hhandler e s t hst

theorem Agrees.ensure {p : Program σ χ ε α} {q : Program σ χ ε Unit}
    (h : p.Agrees J R Q) (hq : q.Agrees J R fun _ => True) : (p.ensure q).Agrees J R Q :=
  Agrees.bind (h.tryCatch fun e => hq.bind fun _ _ => agrees_raise e) fun _ ha =>
    hq.bind fun _ _ => agrees_ret ha

theorem agrees_traverse {f : β → Program σ χ ε α} (xs : List β)
    (hf : ∀ x ∈ xs, (f x).Agrees J R Q) :
    (traverse f xs).Agrees J R fun ys => ∀ y ∈ ys, Q y := by
  induction xs with
  | nil => exact agrees_ret fun y hy => absurd hy List.not_mem_nil
  | cons x xs ih =>
      refine (hf x List.mem_cons_self).bind fun y hy => ?_
      refine (ih fun z hz => hf z (List.mem_cons_of_mem x hz)).bind fun ys hys => ?_
      exact agrees_ret (List.forall_mem_cons.mpr ⟨hy, hys⟩)

variable {A : χ → Prop} {cs : ℕ → χ} {s t : σ} {p : Program σ χ ε α}
variable {Q₁ Q₂ : α → σ → Prop} {E₁ E₂ : ε → σ → Prop}

theorem Agrees.run (h : p.Agrees J R Q) (hst : Together J R s t) (hs : p.wp A J Q₁ E₁ s)
    (ht : p.wp A J Q₂ E₂ t) (hcs : ∀ n, A (cs n)) :
    (p.run cs s).1 = (p.run cs t).1 ∧ R (p.run cs s).2 (p.run cs t).2 := by
  rcases (h s t hst).run hs ht hcs with ⟨a, b, ha, hb, hab⟩ | ⟨e, e', he, he', hee'⟩
  · exact ⟨by rw [ha, hb, hab.1], hab.2.2.2.2⟩
  · exact ⟨by rw [he, he', hee'.1], hee'.2.2.2⟩

theorem Agrees.crash (h : p.Agrees J R Q) (hst : Together J R s t)
    (hs : p.wp A J Q₁ E₁ s) (ht : p.wp A J Q₂ E₂ t) (hcs : ∀ n, A (cs n)) (n : ℕ) :
    R (p.crash cs n s) (p.crash cs n t) :=
  (h s t hst).crash hs ht hst.2.2 hcs n

end Agrees
end Program
end StoryReview
