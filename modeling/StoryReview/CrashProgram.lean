import Mathlib.Data.List.Forall2
import Mathlib.Order.Defs.Unbundled

/-!
# Crash-prone programs

A program is a sequence of atomic steps over a shared state. Each step reads an
answer of the environment (a clock reading, a reply, a fault) and may run any
continuation on its result; it can end by returning or by raising. A crash cuts
the run after any number of steps and leaves the state of that moment, so that
every intermediate state is durable.

The weakest precondition carries three assertions: the postcondition, the
exceptional postcondition, and the crash condition that holds after every step.
Nothing here depends on what the state, the answers or the exceptions are.
-/
namespace StoryReview

/-- `σ` is the state, `χ` the environment's answers, `ε` the exceptions. -/
inductive Program (σ χ ε : Type) (α : Type) : Type 1
  | ret (a : α)
  | raise (e : ε)
  | step {β : Type} (f : χ → σ → β × σ) (k : β → Program σ χ ε α)

namespace Program
variable {σ χ ε ε' α β γ : Type}

def bind : Program σ χ ε α → (α → Program σ χ ε β) → Program σ χ ε β
  | .ret a, g => g a
  | .raise e, _ => .raise e
  | .step f k, g => .step f fun b => (k b).bind g

instance : Monad (Program σ χ ε) where
  pure := .ret
  bind := bind

/-- One atomic step, its result returned. -/
def atomic (f : χ → σ → β × σ) : Program σ χ ε β := .step f .ret

/-- One atomic step that may raise; the state it leaves is kept either way. -/
def atomicExcept (f : χ → σ → Except ε β × σ) : Program σ χ ε β :=
  .step f fun
    | .ok b => .ret b
    | .error e => .raise e

def ofExcept : Except ε α → Program σ χ ε α
  | .ok a => .ret a
  | .error e => .raise e

/-- `try p except e: h e`. -/
def tryCatch : Program σ χ ε α → (ε → Program σ χ ε' α) → Program σ χ ε' α
  | .ret a, _ => .ret a
  | .raise e, h => h e
  | .step f k, h => .step f fun b => (k b).tryCatch h

/-- `try: p finally: q`. A crash inside `p` skips `q`. -/
def ensure (p : Program σ χ ε α) (q : Program σ χ ε Unit) : Program σ χ ε α :=
  (p.tryCatch fun e => q.bind fun _ => .raise e).bind fun a =>
    q.bind fun _ => .ret a

/-- A comprehension `[await f(x) for x in xs]`: in order, stopping at the first
exception. -/
def traverse (f : α → Program σ χ ε β) : List α → Program σ χ ε (List β)
  | [] => .ret []
  | x :: xs => (f x).bind fun y => (traverse f xs).bind fun ys => .ret (y :: ys)

/-- The program over a state of which its own is a part. -/
def zoom {τ χ' : Type} (get : τ → σ) (set : τ → σ → τ) (ask : χ' → χ) :
    Program σ χ ε α → Program τ χ' ε α
  | .ret a => .ret a
  | .raise e => .raise e
  | .step f k => .step (fun c t => ((f (ask c) (get t)).1, set t (f (ask c) (get t)).2))
      fun b => (k b).zoom get set ask

/-- Run to the end; `cs n` is the environment's answer to step `n`. -/
def run : Program σ χ ε α → (ℕ → χ) → σ → Except ε α × σ
  | .ret a, _, s => (.ok a, s)
  | .raise e, _, s => (.error e, s)
  | .step f k, cs, s =>
      (k (f (cs 0) s).1).run (fun n => cs (n + 1)) (f (cs 0) s).2

/-- The state a crash after `n` steps leaves behind. -/
def crash : Program σ χ ε α → (ℕ → χ) → ℕ → σ → σ
  | .ret _, _, _, s => s
  | .raise _, _, _, s => s
  | .step _ _, _, 0, s => s
  | .step f k, cs, n + 1, s =>
      (k (f (cs 0) s).1).crash (fun i => cs (i + 1)) n (f (cs 0) s).2

/-- Every run from `s` whose answers are admissible for `A` keeps the crash
condition `I` after each step, and ends in `Q` or raises in `E`. -/
def wp (A : χ → Prop) (I : σ → Prop) (Q : α → σ → Prop) (E : ε → σ → Prop) :
    Program σ χ ε α → σ → Prop
  | .ret a, s => Q a s
  | .raise e, s => E e s
  | .step f k, s => ∀ c, A c → I (f c s).2 ∧ (k (f c s).1).wp A I Q E (f c s).2

/-- Every step of the program, from whatever state it is taken, stays in `R`. -/
def Moves (A : χ → Prop) (R : σ → σ → Prop) : Program σ χ ε α → Prop
  | .ret _ => True
  | .raise _ => True
  | .step f k => (∀ c s, A c → R s (f c s).2) ∧ ∀ b, (k b).Moves A R

section Rules
variable {A : χ → Prop} {I J : σ → Prop} {Q Q' : α → σ → Prop}
variable {E E' : ε → σ → Prop} {s : σ}

@[simp] theorem pure_eq (a : α) : (pure a : Program σ χ ε α) = .ret a := rfl

@[simp] theorem bind_eq (p : Program σ χ ε α) (g : α → Program σ χ ε β) :
    p >>= g = p.bind g := rfl

@[simp] theorem ofExcept_ok (a : α) :
    (ofExcept (.ok a) : Program σ χ ε α) = .ret a := rfl

@[simp] theorem ofExcept_error (e : ε) :
    (ofExcept (.error e) : Program σ χ ε α) = .raise e := rfl

@[simp] theorem ret_bind (a : α) (g : α → Program σ χ ε β) : (ret a).bind g = g a := rfl

@[simp] theorem raise_bind (e : ε) (g : α → Program σ χ ε β) :
    (raise e : Program σ χ ε α).bind g = .raise e := rfl

theorem bind_ret (p : Program σ χ ε α) : p.bind .ret = p := by
  induction p with
  | ret a => rfl
  | raise e => rfl
  | step f k ih => exact congrArg (step f) (funext ih)

@[simp] theorem wp_ret (a : α) :
    (Program.ret a : Program σ χ ε α).wp A I Q E s ↔ Q a s := Iff.rfl

@[simp] theorem wp_raise (e : ε) :
    (Program.raise e : Program σ χ ε α).wp A I Q E s ↔ E e s := Iff.rfl

@[simp] theorem wp_atomic (f : χ → σ → α × σ) :
    (atomic f : Program σ χ ε α).wp A I Q E s ↔
      ∀ c, A c → I (f c s).2 ∧ Q (f c s).1 (f c s).2 := Iff.rfl

theorem wp_atomicExcept (f : χ → σ → Except ε α × σ) :
    (atomicExcept f).wp A I Q E s ↔
      ∀ c, A c → I (f c s).2 ∧ (∀ a, (f c s).1 = .ok a → Q a (f c s).2) ∧
        ∀ e, (f c s).1 = .error e → E e (f c s).2 := by
  unfold atomicExcept
  simp only [wp]
  refine forall_congr' fun c => imp_congr_right fun _ => and_congr_right fun _ => ?_
  cases h : (f c s).1 <;> simp [wp]

theorem wp_ofExcept (r : Except ε α) :
    (ofExcept r : Program σ χ ε α).wp A I Q E s ↔
      (∀ a, r = .ok a → Q a s) ∧ ∀ e, r = .error e → E e s := by
  cases r <;> simp [ofExcept]

@[simp] theorem wp_bind (p : Program σ χ ε β) (g : β → Program σ χ ε α) :
    (p.bind g).wp A I Q E s ↔ p.wp A I (fun b t => (g b).wp A I Q E t) E s := by
  induction p generalizing s with
  | ret a => rfl
  | raise e => rfl
  | step f k ih =>
      simp only [bind, wp]
      exact forall_congr' fun c => imp_congr_right fun _ => and_congr_right fun _ => ih _

@[simp] theorem wp_tryCatch (p : Program σ χ ε' α) (h : ε' → Program σ χ ε α) :
    (p.tryCatch h).wp A I Q E s ↔ p.wp A I Q (fun e t => (h e).wp A I Q E t) s := by
  induction p generalizing s with
  | ret a => rfl
  | raise e => rfl
  | step f k ih =>
      simp only [tryCatch, wp]
      exact forall_congr' fun c => imp_congr_right fun _ => and_congr_right fun _ => ih _

theorem wp_ensure (p : Program σ χ ε α) (q : Program σ χ ε Unit) :
    (p.ensure q).wp A I Q E s ↔
      p.wp A I (fun a t => q.wp A I (fun _ => Q a) E t)
        (fun e t => q.wp A I (fun _ => E e) E t) s := by
  simp [ensure]

theorem wp_mono {p : Program σ χ ε α} (h : p.wp A I Q E s)
    (hI : ∀ t, I t → J t) (hQ : ∀ a t, Q a t → Q' a t) (hE : ∀ e t, E e t → E' e t) :
    p.wp A J Q' E' s := by
  induction p generalizing s with
  | ret a => exact hQ a s h
  | raise e => exact hE e s h
  | step f k ih => exact fun c hc => ⟨hI _ (h c hc).1, ih _ (h c hc).2⟩

theorem wp_and {p : Program σ χ ε α} (h : p.wp A I Q E s) (h' : p.wp A J Q' E' s) :
    p.wp A (fun t => I t ∧ J t) (fun a t => Q a t ∧ Q' a t)
      (fun e t => E e t ∧ E' e t) s := by
  induction p generalizing s with
  | ret a => exact ⟨h, h'⟩
  | raise e => exact ⟨h, h'⟩
  | step f k ih =>
      exact fun c hc => ⟨⟨(h c hc).1, (h' c hc).1⟩, ih _ (h c hc).2 (h' c hc).2⟩

/-- A crash leaves a state of the crash condition. -/
theorem wp_crash {p : Program σ χ ε α} (h : p.wp A I Q E s) (hs : I s)
    {cs : ℕ → χ} (hcs : ∀ n, A (cs n)) (n : ℕ) : I (p.crash cs n s) := by
  induction p generalizing s cs n with
  | ret a => exact hs
  | raise e => exact hs
  | step f k ih =>
      cases n with
      | zero => exact hs
      | succ n =>
          have hc := h (cs 0) (hcs 0)
          exact ih _ hc.2 hc.1 (fun i => hcs (i + 1)) n

/-- A run to the end meets the postcondition of the way it ended. -/
theorem wp_run {p : Program σ χ ε α} (h : p.wp A I Q E s)
    {cs : ℕ → χ} (hcs : ∀ n, A (cs n)) :
    match p.run cs s with
    | (.ok a, t) => Q a t
    | (.error e, t) => E e t := by
  induction p generalizing s cs with
  | ret a => exact h
  | raise e => exact h
  | step f k ih => exact ih _ (h (cs 0) (hcs 0)).2 fun i => hcs (i + 1)

/-- The final state meets the crash condition, however the run ended. -/
theorem wp_run_state {p : Program σ χ ε α} (h : p.wp A I Q E s) (hs : I s)
    {cs : ℕ → χ} (hcs : ∀ n, A (cs n)) : I (p.run cs s).2 := by
  induction p generalizing s cs with
  | ret a => exact hs
  | raise e => exact hs
  | step f k ih =>
      have hc := h (cs 0) (hcs 0)
      exact ih _ hc.2 hc.1 fun i => hcs (i + 1)

theorem run_tryCatch_state {p : Program σ χ ε' α}
    {handler : ε' → Program σ χ ε α} (hraise : ∀ e, ∃ e', handler e = .raise e') (cs : ℕ → χ)
    (s : σ) : ((p.tryCatch handler).run cs s).2 = (p.run cs s).2 := by
  induction p generalizing cs s with
  | ret a => rfl
  | raise e =>
      obtain ⟨e', he⟩ := hraise e
      rw [Program.tryCatch, he, run, run]
  | step f k ih => exact ih _ _ _

theorem run_bind_ret_state (p : Program σ χ ε α) (f : α → β) (cs : ℕ → χ)
    (s : σ) : ((p.bind fun a => .ret (f a)).run cs s).2 = (p.run cs s).2 := by
  induction p generalizing cs s with
  | ret a => rfl
  | raise e => rfl
  | step g k ih => exact ih _ _ _

/-- A comprehension keeps an assertion that each of its calls keeps; `T` is what
each call establishes of its argument and its result, and no later call undoes. -/
theorem wp_traverse {f : β → Program σ χ ε γ} {P : σ → Prop} {T : σ → β → γ → Prop}
    {E : ε → σ → Prop} {xs : List β}
    (hf : ∀ x ∈ xs, ∀ t, P t → (f x).wp A P
      (fun y u => P u ∧ T u x y ∧ ∀ x' y', T t x' y' → T u x' y') E t) (hs : P s) :
    (traverse f xs).wp A P (fun ys t => P t ∧ List.Forall₂ (T t) xs ys ∧
      ∀ x y, T s x y → T t x y) E s := by
  induction xs generalizing s with
  | nil => exact ⟨hs, .nil, fun _ _ h => h⟩
  | cons x xs ih =>
      simp only [traverse, wp_bind]
      refine wp_mono (hf x (by simp) s hs) (fun _ h => h) ?_ (fun _ _ h => h)
      rintro y t ⟨ht, hy, hkeep⟩
      refine wp_mono (ih (fun z hz => hf z (by simp [hz])) ht) (fun _ h => h) ?_
        (fun _ _ h => h)
      rintro ys u ⟨hu, hys, hkeep'⟩
      exact ⟨hu, .cons (hkeep' _ _ hy) hys, fun _ _ h => hkeep' _ _ (hkeep _ _ h)⟩

end Rules

section Moves
variable {A : χ → Prop} {R R' : σ → σ → Prop}

@[simp] theorem moves_ret (a : α) : (Program.ret a : Program σ χ ε α).Moves A R := trivial

@[simp] theorem moves_raise (e : ε) :
    (Program.raise e : Program σ χ ε α).Moves A R := trivial

theorem moves_atomic {f : χ → σ → α × σ} (h : ∀ c s, A c → R s (f c s).2) :
    (atomic f : Program σ χ ε α).Moves A R := ⟨h, fun _ => trivial⟩

theorem moves_atomicExcept {f : χ → σ → Except ε α × σ}
    (h : ∀ c s, A c → R s (f c s).2) : (atomicExcept f).Moves A R :=
  ⟨h, fun | .ok _ => trivial | .error _ => trivial⟩

@[simp] theorem moves_ofExcept (r : Except ε α) :
    (ofExcept r : Program σ χ ε α).Moves A R := by
  cases r <;> trivial

theorem moves_bind {p : Program σ χ ε α} {g : α → Program σ χ ε β}
    (hp : p.Moves A R) (hg : ∀ a, (g a).Moves A R) : (p.bind g).Moves A R := by
  induction p with
  | ret a => exact hg a
  | raise e => trivial
  | step f k ih => exact ⟨hp.1, fun b => ih b (hp.2 b)⟩

theorem moves_tryCatch {p : Program σ χ ε α} {h : ε → Program σ χ ε' α}
    (hp : p.Moves A R) (hh : ∀ e, (h e).Moves A R) : (p.tryCatch h).Moves A R := by
  induction p with
  | ret a => trivial
  | raise e => exact hh e
  | step f k ih => exact ⟨hp.1, fun b => ih b (hp.2 b)⟩

theorem moves_zoom {τ χ' : Type} {get : τ → σ} {set : τ → σ → τ} {ask : χ' → χ}
    {A : χ' → Prop} {R : τ → τ → Prop} (h : ∀ t s, R t (set t s)) (p : Program σ χ ε α) :
    (p.zoom get set ask).Moves A R := by
  induction p with
  | ret a => trivial
  | raise e => trivial
  | step f k ih => exact ⟨fun c t _ => h t _, ih⟩

theorem moves_traverse {f : α → Program σ χ ε β} (hf : ∀ x, (f x).Moves A R) :
    ∀ xs : List α, (traverse f xs).Moves A R
  | [] => trivial
  | x :: xs => moves_bind (hf x) fun _ =>
      moves_bind (moves_traverse hf xs) fun _ => trivial

theorem Moves.mono {p : Program σ χ ε α} (h : p.Moves A R)
    (hR : ∀ s t, R s t → R' s t) : p.Moves A R' := by
  induction p with
  | ret a => trivial
  | raise e => trivial
  | step f k ih => exact ⟨fun c s hc => hR _ _ (h.1 c s hc), fun b => ih b (h.2 b)⟩

/-- Frame rule: what a footprint leaves related stays related through the run. -/
theorem Moves.wp_frame [IsTrans σ R] {I : σ → Prop} {Q : α → σ → Prop}
    {E : ε → σ → Prop} {p : Program σ χ ε α} (h : p.Moves A R) {s₀ s : σ}
    (hs : R s₀ s) (hw : p.wp A I Q E s) :
    p.wp A (fun t => I t ∧ R s₀ t) (fun a t => Q a t ∧ R s₀ t)
      (fun e t => E e t ∧ R s₀ t) s := by
  induction p generalizing s with
  | ret a => exact ⟨hw, hs⟩
  | raise e => exact ⟨hw, hs⟩
  | step f k ih =>
      intro c hc
      have hR : R s₀ (f c s).2 := IsTrans.trans _ _ _ hs (h.1 c s hc)
      exact ⟨⟨(hw c hc).1, hR⟩, ih _ (h.2 _) hR (hw c hc).2⟩

theorem wp_trivial (p : Program σ χ ε α) (s : σ) :
    p.wp A (fun _ => True) (fun _ _ => True) (fun _ _ => True) s := by
  induction p generalizing s with
  | ret a => trivial
  | raise e => trivial
  | step f k ih => exact fun c _ => ⟨trivial, ih _ _⟩

/-- A program is safe for every crash condition and postcondition its footprint
implies. -/
theorem Moves.wp [IsTrans σ R] {I : σ → Prop} {Q : α → σ → Prop}
    {E : ε → σ → Prop} {p : Program σ χ ε α} (h : p.Moves A R) {s₀ s : σ}
    (hs : R s₀ s) (hI : ∀ t, R s₀ t → I t) (hQ : ∀ a t, R s₀ t → Q a t)
    (hE : ∀ e t, R s₀ t → E e t) : p.wp A I Q E s :=
  wp_mono (h.wp_frame hs (wp_trivial p s)) (fun t ht => hI t ht.2)
    (fun a t ht => hQ a t ht.2) fun e t ht => hE e t ht.2

end Moves

/-! ## Partial correctness -/

/-- Whatever a run returns satisfies `R`. -/
def Yields (A : χ → Prop) (R : α → σ → Prop) (p : Program σ χ ε α) (s : σ) : Prop :=
  p.wp A (fun _ => True) R (fun _ _ => True) s

section Yields
variable {A : χ → Prop} {R R' : α → σ → Prop} {S : β → σ → Prop} {s : σ}

@[simp] theorem yields_ret (a : α) :
    (Program.ret a : Program σ χ ε α).Yields A R s ↔ R a s := Iff.rfl

@[simp] theorem yields_raise (e : ε) :
    (Program.raise e : Program σ χ ε α).Yields A R s := trivial

theorem yields_ofExcept {r : Except ε α} (h : ∀ a, r = .ok a → R a s) :
    (ofExcept r).Yields A R s := (wp_ofExcept r).mpr ⟨h, fun _ _ => trivial⟩

theorem Yields.mono {p : Program σ χ ε α} (h : p.Yields A R s)
    (hR : ∀ a t, R a t → R' a t) : p.Yields A R' s :=
  wp_mono h (fun _ h => h) hR fun _ _ h => h

theorem yields_any (p : Program σ χ ε α) (s : σ) : p.Yields A (fun _ _ => True) s :=
  wp_trivial p s

theorem Yields.and {p : Program σ χ ε α} (h : p.Yields A R s) (h' : p.Yields A R' s) :
    p.Yields A (fun a t => R a t ∧ R' a t) s :=
  wp_mono (wp_and h h') (fun _ _ => trivial) (fun _ _ h => h) fun _ _ _ => trivial

theorem Yields.bind {p : Program σ χ ε β} {g : β → Program σ χ ε α}
    (hp : p.Yields A S s) (hg : ∀ b t, S b t → (g b).Yields A R t) :
    (p.bind g).Yields A R s :=
  (wp_bind p g).mpr (wp_mono hp (fun _ h => h) hg fun _ _ h => h)

theorem Yields.tryCatch {p : Program σ χ ε' α} {h : ε' → Program σ χ ε α}
    (hp : p.Yields A R s) (hh : ∀ e t, (h e).Yields A R t) : (p.tryCatch h).Yields A R s :=
  (wp_tryCatch p h).mpr (wp_mono hp (fun _ h => h) (fun _ _ h => h) fun e t _ => hh e t)

/-- What a footprint leaves related is known of the returned state too. -/
theorem Moves.yields {F : σ → σ → Prop} [IsTrans σ F] {p : Program σ χ ε α}
    (h : p.Moves A F) {s₀ : σ} (hs : F s₀ s) (hy : p.Yields A R s) :
    p.Yields A (fun a t => R a t ∧ F s₀ t) s :=
  wp_mono (h.wp_frame hs hy) (fun _ _ => trivial) (fun _ _ h => h) fun _ _ _ => trivial

/-- A program is safe for what its footprint implies, and returns what it yields. -/
theorem Moves.wp_of_yields {F : σ → σ → Prop} [IsTrans σ F] {p : Program σ χ ε α}
    {I : σ → Prop} {Q : α → σ → Prop} {E : ε → σ → Prop} (h : p.Moves A F) {s₀ : σ}
    (hs : F s₀ s) (hy : p.Yields A R s) (hI : ∀ t, F s₀ t → I t)
    (hQ : ∀ a t, F s₀ t → R a t → Q a t) (hE : ∀ e t, F s₀ t → E e t) : p.wp A I Q E s :=
  wp_mono (h.wp_frame hs hy) (fun t ht => hI t ht.2) (fun a t ht => hQ a t ht.2 ht.1)
    fun e t ht => hE e t ht.2

end Yields
/-! ## Runs in a fixed environment -/

/-- Run to the end, every step answered by the same `c`. -/
def runWith (c : χ) (p : Program σ χ ε α) (s : σ) : Except ε α × σ := p.run (fun _ => c) s

section Fixed
variable {c : χ} {s s' : σ}

@[simp] theorem runWith_ret (a : α) :
    (Program.ret a : Program σ χ ε α).runWith c s = (.ok a, s) := rfl

@[simp] theorem runWith_raise (e : ε) :
    (Program.raise e : Program σ χ ε α).runWith c s = (.error e, s) := rfl

end Fixed
end Program

/-- Elements that agree pairwise have the same images. -/
theorem map_eq_map_of_forall₂ {α β γ : Type} {f : α → γ} {g : β → γ} {xs : List α}
    {ys : List β} (h : List.Forall₂ (fun x y => f x = g y) xs ys) : xs.map f = ys.map g := by
  induction h with
  | nil => rfl
  | cons hxy _ ih => rw [List.map_cons, List.map_cons, hxy, ih]

end StoryReview
