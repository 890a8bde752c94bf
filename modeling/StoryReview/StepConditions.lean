import StoryReview.CrashProgram

/-!
# Conditions on the steps of a run

What a run is promised may depend on the step: which call it makes, what it is answered
and from which state it is taken. `Meets` says that a run keeps such a promise, and `Given`
is the weakest precondition of all the runs that keep it. `RaisesOnly` is about the
exceptions alone, whatever the states between the steps are.
-/
namespace StoryReview.Program
variable {σ χ ε ε' α β : Type}

/-- Every step of the run meets `A`. -/
def Meets (A : ∀ β : Type, (χ → σ → β × σ) → χ → σ → Prop) :
    Program σ χ ε α → (ℕ → χ) → σ → Prop
  | .ret _, _, _ => True
  | .raise _, _, _ => True
  | .step f k, cs, s => A _ f (cs 0) s ∧
      (k (f (cs 0) s).1).Meets A (fun n => cs (n + 1)) (f (cs 0) s).2

instance Meets.decidable {A : ∀ β : Type, (χ → σ → β × σ) → χ → σ → Prop}
    [∀ β f c s, Decidable (A β f c s)] :
    (p : Program σ χ ε α) → (cs : ℕ → χ) → (s : σ) → Decidable (p.Meets A cs s)
  | .ret _, _, _ => .isTrue trivial
  | .raise _, _, _ => .isTrue trivial
  | .step f k, cs, s =>
      @instDecidableAnd _ _ _ (Meets.decidable (k (f (cs 0) s).1) (fun n => cs (n + 1))
        (f (cs 0) s).2)

/-- Every run from `s` whose steps meet `A` ends in `Q` or raises in `E`. -/
def Given (A : ∀ β : Type, (χ → σ → β × σ) → χ → σ → Prop) (Q : α → σ → Prop)
    (E : ε → σ → Prop) : Program σ χ ε α → σ → Prop
  | .ret a, s => Q a s
  | .raise e, s => E e s
  | .step f k, s => ∀ c, A _ f c s → (k (f c s).1).Given A Q E (f c s).2

/-- Whatever the program raises satisfies `P`, if its answers are admissible for `B`. -/
def RaisesOnly (B : χ → Prop) (P : ε → Prop) : Program σ χ ε α → Prop
  | .ret _ => True
  | .raise e => P e
  | .step f k => ∀ c s, B c → (k (f c s).1).RaisesOnly B P

/-! ## Exceptions -/

section Raises
variable {B : χ → Prop} {P : ε → Prop} {P' : ε' → Prop} {s : σ}

theorem raisesOnly_ret (a : α) : (ret a : Program σ χ ε α).RaisesOnly B P := trivial

theorem raisesOnly_raise {e : ε} (h : P e) : (raise e : Program σ χ ε α).RaisesOnly B P := h

theorem raisesOnly_atomic (f : χ → σ → α × σ) :
    (atomic f : Program σ χ ε α).RaisesOnly B P := fun _ _ _ => trivial

theorem raisesOnly_atomicExcept {f : χ → σ → Except ε α × σ}
    (h : ∀ c s e, B c → (f c s).1 = .error e → P e) : (atomicExcept f).RaisesOnly B P := by
  intro c s hc
  cases hf : (f c s).1 with
  | ok a => trivial
  | error e => exact h c s e hc hf

theorem raisesOnly_ofExcept {r : Except ε α} (h : ∀ e, r = .error e → P e) :
    (ofExcept r : Program σ χ ε α).RaisesOnly B P := by
  cases r with
  | ok a => trivial
  | error e => exact h e rfl

/-- A check that fails with an exception of its own. -/
theorem raisesOnly_check {c : Prop} [Decidable c] {a : α} {e : ε} (h : P e) :
    (ofExcept (if c then .ok a else .error e) : Program σ χ ε α).RaisesOnly B P := by
  split_ifs
  · trivial
  · exact h

theorem RaisesOnly.bind {p : Program σ χ ε β} {g : β → Program σ χ ε α}
    (hp : p.RaisesOnly B P) (hg : ∀ b, (g b).RaisesOnly B P) : (p.bind g).RaisesOnly B P := by
  induction p with
  | ret b => exact hg b
  | raise e => exact hp
  | step f k ih => exact fun c s hc => ih _ (hp c s hc)

theorem RaisesOnly.tryCatch {p : Program σ χ ε' α} {handler : ε' → Program σ χ ε α}
    (hp : p.RaisesOnly B P') (hhandler : ∀ e, P' e → (handler e).RaisesOnly B P) :
    (p.tryCatch handler).RaisesOnly B P := by
  induction p with
  | ret a => trivial
  | raise e => exact hhandler e hp
  | step f k ih => exact fun c s hc => ih _ (hp c s hc)

theorem RaisesOnly.mono {p : Program σ χ ε α} {P' : ε → Prop} (h : p.RaisesOnly B P)
    (hP : ∀ e, P e → P' e) : p.RaisesOnly B P' := by
  induction p with
  | ret a => trivial
  | raise e => exact hP e h
  | step f k ih => exact fun c s hc => ih _ (h c s hc)

theorem raisesOnly_any (p : Program σ χ ε α) : p.RaisesOnly B fun _ => True := by
  induction p with
  | ret a => trivial
  | raise e => trivial
  | step f k ih => exact fun c s _ => ih _

/-- Every exception is handled. -/
theorem RaisesOnly.caught {p : Program σ χ ε' α} {handler : ε' → Program σ χ ε α}
    (hhandler : ∀ e, (handler e).RaisesOnly B P) : (p.tryCatch handler).RaisesOnly B P :=
  (raisesOnly_any p).tryCatch fun e _ => hhandler e

theorem RaisesOnly.ensure {p : Program σ χ ε α} {q : Program σ χ ε Unit}
    (hp : p.RaisesOnly B P) (hq : q.RaisesOnly B P) : (p.ensure q).RaisesOnly B P :=
  (hp.tryCatch fun _ he => hq.bind fun _ => raisesOnly_raise he).bind fun a =>
    hq.bind fun _ => raisesOnly_ret a

theorem RaisesOnly.traverse {f : β → Program σ χ ε α} (hf : ∀ x, (f x).RaisesOnly B P)
    (xs : List β) : (Program.traverse f xs).RaisesOnly B P := by
  induction xs with
  | nil => trivial
  | cons x xs ih => exact (hf x).bind fun _ => ih.bind fun _ => raisesOnly_ret _

end Raises

/-! ## Promises about the steps -/

section Given
variable {A : ∀ β : Type, (χ → σ → β × σ) → χ → σ → Prop} {B : χ → Prop} {s : σ}
variable {Q Q' : α → σ → Prop} {E E' : ε → σ → Prop} {P : ε → Prop}

theorem Given.mono {p : Program σ χ ε α} (h : p.Given A Q E s) (hQ : ∀ a t, Q a t → Q' a t)
    (hE : ∀ e t, E e t → E' e t) : p.Given A Q' E' s := by
  induction p generalizing s with
  | ret a => exact hQ a s h
  | raise e => exact hE e s h
  | step f k ih => exact fun c hc => ih _ (h c hc)

theorem Given.bind {R : β → σ → Prop} {p : Program σ χ ε β} {g : β → Program σ χ ε α}
    (h : p.Given A R E s) (hg : ∀ b t, R b t → (g b).Given A Q E t) :
    (p.bind g).Given A Q E s := by
  induction p generalizing s with
  | ret b => exact hg b s h
  | raise e => exact h
  | step f k ih => exact fun c hc => ih _ (h c hc)

theorem Given.tryCatch {F : ε' → σ → Prop} {p : Program σ χ ε' α}
    {handler : ε' → Program σ χ ε α} (h : p.Given A Q F s)
    (hhandler : ∀ e t, F e t → (handler e).Given A Q E t) :
    (p.tryCatch handler).Given A Q E s := by
  induction p generalizing s with
  | ret a => exact h
  | raise e => exact hhandler e s h
  | step f k ih => exact fun c hc => ih _ (h c hc)

theorem Given.ensure {p : Program σ χ ε α} {q : Program σ χ ε Unit} (h : p.Given A Q E s)
    (hq : ∀ a t, Q a t → q.Given A (fun _ => Q' a) E' t)
    (hq' : ∀ e t, E e t → q.Given A (fun _ => E' e) E' t) : (p.ensure q).Given A Q' E' s :=
  Given.bind (R := Q) (h.tryCatch fun e t he => (hq' e t he).bind fun _ _ h => h)
    fun a t ha => (hq a t ha).bind fun _ _ h => h

/-- Each result satisfies `G` and has the name of what it was computed from. -/
theorem Given.traverse {γ : Type} {p : β → Program σ χ ε α} {G : α → Prop} {I : σ → Prop}
    {f : β → γ} {g : α → γ} {xs : List β}
    (hp : ∀ x ∈ xs, ∀ t, I t → (p x).Given A (fun a u => (G a ∧ g a = f x) ∧ I u) E t)
    (hs : I s) : (Program.traverse p xs).Given A
      (fun as t => ((∀ a ∈ as, G a) ∧ as.map g = xs.map f) ∧ I t) E s := by
  induction xs generalizing s with
  | nil => exact ⟨⟨List.forall_mem_nil _, rfl⟩, hs⟩
  | cons x xs ih =>
      refine Given.bind (hp x List.mem_cons_self s hs) ?_
      rintro a t ⟨⟨hgood, hname⟩, ht⟩
      refine Given.bind (ih (fun y hy => hp y (List.mem_cons_of_mem _ hy)) ht) ?_
      rintro as u ⟨⟨hall, hnames⟩, hu⟩
      refine ⟨⟨List.forall_mem_cons.mpr ⟨hgood, hall⟩, ?_⟩, hu⟩
      rw [List.map_cons, List.map_cons, hname, hnames]

theorem given_atomicExcept {f : χ → σ → Except ε α × σ}
    (h : ∀ c, A _ f c s → (∀ a, (f c s).1 = .ok a → Q a (f c s).2) ∧
      ∀ e, (f c s).1 = .error e → E e (f c s).2) : (atomicExcept f).Given A Q E s := by
  intro c hc
  obtain ⟨hok, herror⟩ := h c hc
  cases hf : (f c s).1 with
  | ok a => exact hok a hf
  | error e => exact herror e hf

theorem Given.of_wp (hA : ∀ β f c t, A β f c t → B c) {I : σ → Prop} {p : Program σ χ ε α}
    (h : p.wp B I Q E s) : p.Given A Q E s := by
  induction p generalizing s with
  | ret a => exact h
  | raise e => exact h
  | step f k ih => exact fun c hc => ih _ (h c (hA _ f c s hc)).2

/-- What is known of a program whatever its steps are promised. -/
theorem RaisesOnly.given (hA : ∀ β f c t, A β f c t → B c) {p : Program σ χ ε α}
    (h : p.RaisesOnly B P) (hyields : p.Yields B Q s) : p.Given A Q (fun e _ => P e) s := by
  induction p generalizing s with
  | ret a => exact hyields
  | raise e => exact h
  | step f k ih =>
      intro c hc
      have hadmits := hA _ f c s hc
      exact ih _ (h c s hadmits) (hyields c hadmits).2

theorem Meets.and {p : Program σ χ ε α} {cs : ℕ → χ} (h : p.Meets A cs s)
    (hcs : ∀ n, B (cs n)) : p.Meets (fun β f c t => B c ∧ A β f c t) cs s := by
  induction p generalizing s cs with
  | ret a => trivial
  | raise e => trivial
  | step f k ih => exact ⟨⟨hcs 0, h.1⟩, ih _ h.2 fun n => hcs (n + 1)⟩

theorem Meets.mono {A' : ∀ β : Type, (χ → σ → β × σ) → χ → σ → Prop} {p : Program σ χ ε α}
    {cs : ℕ → χ} (h : p.Meets A cs s) (hA : ∀ β f c t, A β f c t → A' β f c t) :
    p.Meets A' cs s := by
  induction p generalizing s cs with
  | ret a => trivial
  | raise e => trivial
  | step f k ih => exact ⟨hA _ f _ _ h.1, ih _ h.2⟩

theorem Given.run {p : Program σ χ ε α} (h : p.Given A Q E s) {cs : ℕ → χ}
    (hcs : p.Meets A cs s) : match p.run cs s with
    | (.ok a, t) => Q a t
    | (.error e, t) => E e t := by
  induction p generalizing s cs with
  | ret a => exact h
  | raise e => exact h
  | step f k ih => exact ih _ (h (cs 0) hcs.1) hcs.2

end Given
end StoryReview.Program
