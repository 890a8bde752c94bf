import Mathlib.Data.List.Perm.Subperm
import Mathlib.Logic.Relation
import StoryReview.CrashProgram

/-!
# Interleaved programs

Any number of programs run over one state. Each atomic step is taken by one of
them, a program can start or be cut off at any moment, and a finished one leaves
its outcome behind. A thread carries auxiliary state that its own steps update
and no step reads; a discipline tells which starts and moves a run admits.

Rely and guarantee: a thread is verified alone, against any interference that
its rely allows, and promises its guarantee for each of its steps. Where every
admitted step of a thread is interference that the others allow, the promises
hold of the pool.
-/
namespace StoryReview

namespace Program
variable {σ χ ε ε' α β γ : Type}

/-- Between any two steps the state may change as `R` allows; each step is in `G`.
`observe` updates the auxiliary state. -/
def rg (A : χ → Prop) (observe : γ → σ → σ → γ) (R G : γ → σ → σ → Prop)
    (Q : α → γ → σ → Prop) (E : ε → γ → σ → Prop) : Program σ χ ε α → γ → σ → Prop
  | .ret a, g, s => Q a g s
  | .raise e, g, s => E e g s
  | .step f k, g, s => ∀ c t, A c → R g s t → G g t (f c t).2 ∧
      (k (f c t).1).rg A observe R G Q E (observe g t (f c t).2) (f c t).2

section Rules
variable {A : χ → Prop} {observe : γ → σ → σ → γ} {R G : γ → σ → σ → Prop}
variable {Q Q' : α → γ → σ → Prop} {E E' : ε → γ → σ → Prop} {g : γ} {s : σ}

@[simp] theorem rg_ret (a : α) :
    (Program.ret a : Program σ χ ε α).rg A observe R G Q E g s ↔ Q a g s := Iff.rfl

@[simp] theorem rg_raise (e : ε) :
    (Program.raise e : Program σ χ ε α).rg A observe R G Q E g s ↔ E e g s := Iff.rfl

@[simp] theorem rg_atomic (f : χ → σ → α × σ) :
    (atomic f : Program σ χ ε α).rg A observe R G Q E g s ↔
      ∀ c t, A c → R g s t →
        G g t (f c t).2 ∧ Q (f c t).1 (observe g t (f c t).2) (f c t).2 := Iff.rfl

theorem rg_atomicExcept (f : χ → σ → Except ε α × σ) :
    (atomicExcept f).rg A observe R G Q E g s ↔ ∀ c t, A c → R g s t →
      G g t (f c t).2 ∧ (∀ a, (f c t).1 = .ok a → Q a (observe g t (f c t).2) (f c t).2) ∧
        ∀ e, (f c t).1 = .error e → E e (observe g t (f c t).2) (f c t).2 := by
  unfold atomicExcept
  simp only [rg]
  refine forall_congr' fun c => forall_congr' fun t => imp_congr_right fun _ =>
    imp_congr_right fun _ => and_congr_right fun _ => ?_
  cases h : (f c t).1 <;> simp [rg]

theorem rg_ofExcept (r : Except ε α) :
    (ofExcept r : Program σ χ ε α).rg A observe R G Q E g s ↔
      (∀ a, r = .ok a → Q a g s) ∧ ∀ e, r = .error e → E e g s := by
  cases r <;> simp [ofExcept]

@[simp] theorem rg_bind (p : Program σ χ ε β) (h : β → Program σ χ ε α) :
    (p.bind h).rg A observe R G Q E g s ↔
      p.rg A observe R G (fun b g t => (h b).rg A observe R G Q E g t) E g s := by
  induction p generalizing g s with
  | ret a => rfl
  | raise e => rfl
  | step f k ih =>
      simp only [bind, rg]
      exact forall_congr' fun c => forall_congr' fun t => imp_congr_right fun _ =>
        imp_congr_right fun _ => and_congr_right fun _ => ih _

@[simp] theorem rg_tryCatch (p : Program σ χ ε' α) (h : ε' → Program σ χ ε α) :
    (p.tryCatch h).rg A observe R G Q E g s ↔
      p.rg A observe R G Q (fun e g t => (h e).rg A observe R G Q E g t) g s := by
  induction p generalizing g s with
  | ret a => rfl
  | raise e => rfl
  | step f k ih =>
      simp only [tryCatch, rg]
      exact forall_congr' fun c => forall_congr' fun t => imp_congr_right fun _ =>
        imp_congr_right fun _ => and_congr_right fun _ => ih _

theorem rg_ensure (p : Program σ χ ε α) (q : Program σ χ ε Unit) :
    (p.ensure q).rg A observe R G Q E g s ↔
      p.rg A observe R G (fun a g t => q.rg A observe R G (fun _ => Q a) E g t)
        (fun e g t => q.rg A observe R G (fun _ => E e) E g t) g s := by
  simp [ensure]

theorem rg_mono {p : Program σ χ ε α} (h : p.rg A observe R G Q E g s)
    (hQ : ∀ a g t, Q a g t → Q' a g t) (hE : ∀ e g t, E e g t → E' e g t) :
    p.rg A observe R G Q' E' g s := by
  induction p generalizing g s with
  | ret a => exact hQ a g s h
  | raise e => exact hE e g s h
  | step f k ih => exact fun c t hc ht => ⟨(h c t hc ht).1, ih _ (h c t hc ht).2⟩

theorem rg_weaken {G' : γ → σ → σ → Prop} {p : Program σ χ ε α}
    (h : p.rg A observe R G Q E g s) (hG : ∀ g s t, G g s t → G' g s t) :
    p.rg A observe R G' Q E g s := by
  induction p generalizing g s with
  | ret a => exact h
  | raise e => exact h
  | step f k ih => exact fun c t hc ht => ⟨hG _ _ _ (h c t hc ht).1, ih _ (h c t hc ht).2⟩

/-- Footprint rule: what is stable under interference and under every step that the
footprint allows is kept to the end. -/
theorem Moves.rg {F : σ → σ → Prop} {J : γ → σ → Prop} {p : Program σ χ ε α}
    (h : p.Moves A F) (hrely : ∀ g s t, J g s → R g s t → J g t)
    (hstep : ∀ g s t, J g s → F s t → G g s t ∧ J (observe g s t) t) (hJ : J g s) :
    p.rg A observe R G (fun _ => J) (fun _ => J) g s := by
  induction p generalizing g s with
  | ret a => exact hJ
  | raise e => exact hJ
  | step f k ih =>
      intro c t hc ht
      have hmove := hstep g t _ (hrely g s t hJ ht) (h.1 c t hc)
      exact ⟨hmove.1, ih _ (h.2 _) hmove.2⟩

/-- Alone and counting its steps: what a crash after any number of them leaves. -/
theorem rg_crash {I : ℕ → σ → Prop} {F : σ → Prop} {p : Program σ χ ε α} {n : ℕ}
    (h : p.rg A (fun n _ _ => n + 1) (fun _ => Eq) (fun n _ t => I (n + 1) t) (fun _ _ => F)
      (fun _ _ => F) n s) (hs : I n s) {cs : ℕ → χ} (hcs : ∀ i, A (cs i)) (m : ℕ) :
    F (p.crash cs m s) ∨ I (n + m) (p.crash cs m s) := by
  induction p generalizing n s cs m with
  | ret a => exact .inl h
  | raise e => exact .inl h
  | step f k ih =>
      cases m with
      | zero => exact .inr hs
      | succ m =>
          have hstep := h (cs 0) s (hcs 0) rfl
          have hrest := ih _ hstep.2 hstep.1 (fun i => hcs (i + 1)) m
          rwa [Nat.add_assoc, Nat.add_comm 1 m] at hrest

theorem rg_run {I : ℕ → σ → Prop} {F : σ → Prop} {p : Program σ χ ε α} {n : ℕ}
    (h : p.rg A (fun n _ _ => n + 1) (fun _ => Eq) (fun n _ t => I (n + 1) t) (fun _ _ => F)
      (fun _ _ => F) n s) {cs : ℕ → χ} (hcs : ∀ i, A (cs i)) : F (p.run cs s).2 := by
  induction p generalizing n s cs with
  | ret a => exact h
  | raise e => exact h
  | step f k ih => exact ih _ (h (cs 0) s (hcs 0) rfl).2 fun i => hcs (i + 1)

end Rules

/-- How a program that takes no more steps ended. -/
def outcome : Program σ χ ε α → Option (Except ε α)
  | .ret a => some (.ok a)
  | .raise e => some (.error e)
  | .step _ _ => none

/-- What is left of a program after `n` of its steps. -/
def residual : Program σ χ ε α → (ℕ → χ) → ℕ → σ → Program σ χ ε α
  | .step f k, cs, n + 1, s =>
      (k (f (cs 0) s).1).residual (fun i => cs (i + 1)) n (f (cs 0) s).2
  | p, _, _, _ => p

/-- Whether `P` holds before each step of a run. -/
def follows (P : γ → σ → Bool) (observe : γ → σ → σ → γ) :
    Program σ χ ε α → (ℕ → χ) → γ → σ → Bool
  | .step f k, cs, g, s => P g s && (k (f (cs 0) s).1).follows P observe
      (fun n => cs (n + 1)) (observe g s (f (cs 0) s).2) (f (cs 0) s).2
  | _, _, _, _ => true

end Program

section Pools
variable {ι γ σ χ ε α : Type}

/-- A running program, with what it was started as. -/
structure Thread (ι γ σ χ ε α : Type) where
  origin : ι
  aux : γ
  rest : Program σ χ ε α

structure Pool (ι γ σ χ ε α : Type) where
  state : σ
  running : List (Thread ι γ σ χ ε α)
  finished : List (ι × Except ε α)

@[simp] theorem Pool.state_mk (s : σ) (running : List (Thread ι γ σ χ ε α))
    (finished : List (ι × Except ε α)) : (Pool.mk s running finished).state = s := rfl

/-- The programs that can be started, and how their auxiliary state goes. -/
structure System (ι γ σ χ ε α : Type) where
  program : ι → Program σ χ ε α
  admits : ι → χ → Prop
  aux : ι → γ
  observe : ι → γ → σ → σ → γ

/-- Programs that meet any answer; a thread remembers the states around its steps, last
first. -/
def System.tracing (program : ι → Program σ χ ε α) :
    System ι (List (σ × σ)) σ χ ε α where
  program := program
  admits := fun _ _ => True
  aux := fun _ => []
  observe := fun _ g s t => (s, t) :: g

/-- Which starts and moves a run admits, from the state and the other threads. -/
structure Discipline (ι γ σ χ ε α : Type) where
  starts : σ → List (Thread ι γ σ χ ε α) → ι → Prop
  moves : σ → List (Thread ι γ σ χ ε α) → Thread ι γ σ χ ε α → Prop

/-- Every start and every move. -/
def Discipline.free : Discipline ι γ σ χ ε α := ⟨fun _ _ _ => True, fun _ _ _ => True⟩

namespace Pool

/-- One step of a pool, labelled with the thread that moved, if one did. -/
inductive Step (S : System ι γ σ χ ε α) (D : Discipline ι γ σ χ ε α) :
    Option (Thread ι γ σ χ ε α) → Pool ι γ σ χ ε α → Pool ι γ σ χ ε α → Prop
  | start {s : σ} {running : List (Thread ι γ σ χ ε α)} {finished : List (ι × Except ε α)}
      (i : ι) (h : D.starts s running i) :
      Step S D none ⟨s, running, finished⟩
        ⟨s, ⟨i, S.aux i, S.program i⟩ :: running, finished⟩
  | move {s : σ} {before after : List (Thread ι γ σ χ ε α)}
      {finished : List (ι × Except ε α)} {i : ι} {g : γ} {β : Type} {f : χ → σ → β × σ}
      {k : β → Program σ χ ε α} (c : χ) (hc : S.admits i c)
      (h : D.moves s (before ++ after) ⟨i, g, .step f k⟩) :
      Step S D (some ⟨i, g, .step f k⟩) ⟨s, before ++ ⟨i, g, .step f k⟩ :: after, finished⟩
        ⟨(f c s).2, before ++ ⟨i, S.observe i g s (f c s).2, k (f c s).1⟩ :: after, finished⟩
  | finish {s : σ} {before after : List (Thread ι γ σ χ ε α)}
      {finished : List (ι × Except ε α)} {i : ι} {g : γ} {p : Program σ χ ε α}
      {r : Except ε α} (h : p.outcome = some r) :
      Step S D none ⟨s, before ++ ⟨i, g, p⟩ :: after, finished⟩
        ⟨s, before ++ after, (i, r) :: finished⟩
  | crash {s : σ} {before after : List (Thread ι γ σ χ ε α)}
      {finished : List (ι × Except ε α)} (thread : Thread ι γ σ χ ε α) :
      Step S D none ⟨s, before ++ thread :: after, finished⟩ ⟨s, before ++ after, finished⟩

abbrev Steps (S : System ι γ σ χ ε α) (D : Discipline ι γ σ χ ε α) :
    Pool ι γ σ χ ε α → Pool ι γ σ χ ε α → Prop :=
  Relation.ReflTransGen fun pool pool' => ∃ mover, Step S D mover pool pool'

/-- What a run from the state `s` reaches. -/
def Reachable (S : System ι γ σ χ ε α) (D : Discipline ι γ σ χ ε α) (s : σ)
    (pool : Pool ι γ σ χ ε α) : Prop :=
  Steps S D ⟨s, [], []⟩ pool

end Pool

/-! ## Threads that start apart -/

/-- `R` holds between a thread that moves and the others. -/
def Discipline.apart (D : Discipline ι γ σ χ ε α) (R : ι → ι → Prop) :
    Discipline ι γ σ χ ε α :=
  ⟨D.starts, fun s others thread =>
    D.moves s others thread ∧ ∀ other ∈ others, R thread.origin other.origin⟩

section Apart
variable {S : System ι γ σ χ ε α} {D : Discipline ι γ σ χ ε α} {R : ι → ι → Prop}

theorem Pool.Step.apart (hsymm : ∀ i j, R i j → R j i)
    (hstarts : ∀ s running i, D.starts s running i → ∀ thread ∈ running, R i thread.origin)
    {mover : Option (Thread ι γ σ χ ε α)} {pool pool' : Pool ι γ σ χ ε α}
    (hpool : (pool.running.map Thread.origin).Pairwise R)
    (hstep : Pool.Step S D mover pool pool') :
    Pool.Step S (D.apart R) mover pool pool' ∧
      (pool'.running.map Thread.origin).Pairwise R := by
  cases hstep with
  | start i hstart =>
      refine ⟨.start i hstart, List.pairwise_cons.mpr ⟨fun j hj => ?_, hpool⟩⟩
      obtain ⟨thread, hthread, rfl⟩ := List.mem_map.mp hj
      exact hstarts _ _ _ hstart thread hthread
  | move c hc hmoves =>
      refine ⟨.move c hc ⟨hmoves, fun other hother => ?_⟩, by simpa using hpool⟩
      simp only [List.map_append, List.map_cons, List.pairwise_append,
        List.pairwise_cons] at hpool
      rcases List.mem_append.mp hother with hother | hother
      · exact hsymm _ _ (hpool.2.2 _ (List.mem_map_of_mem hother) _ List.mem_cons_self)
      · exact hpool.2.1.1 _ (List.mem_map_of_mem hother)
  | finish houtcome =>
      refine ⟨.finish houtcome, hpool.sublist ?_⟩
      exact List.Sublist.map _ (List.Sublist.append_left (List.sublist_cons_self _ _) _)
  | crash thread =>
      refine ⟨.crash thread, hpool.sublist ?_⟩
      exact List.Sublist.map _ (List.Sublist.append_left (List.sublist_cons_self _ _) _)

/-- What holds between every thread that starts and those running holds of every move. -/
theorem Pool.Reachable.apart (hsymm : ∀ i j, R i j → R j i)
    (hstarts : ∀ s running i, D.starts s running i → ∀ thread ∈ running, R i thread.origin)
    {s : σ} {pool : Pool ι γ σ χ ε α} (h : pool.Reachable S D s) :
    pool.Reachable S (D.apart R) s ∧ (pool.running.map Thread.origin).Pairwise R := by
  induction h with
  | refl => exact ⟨.refl, .nil⟩
  | tail _ hstep ih =>
      obtain ⟨mover, hstep⟩ := hstep
      have hnext := hstep.apart hsymm hstarts ih.2
      exact ⟨ih.1.tail ⟨mover, hnext.1⟩, hnext.2⟩

end Apart

/-! ## The parallel rule -/

/-- An invariant of the state, what each thread relies on and promises, and what a
program that has ended has established. -/
structure Contract (ι γ σ ε α : Type) where
  inv : σ → Prop
  rely : ι → γ → σ → σ → Prop
  guar : ι → γ → σ → σ → Prop
  post : ι → γ → Except ε α → σ → Prop

/-- Each program keeps its contract alone, and the contracts fit together. -/
structure Contract.Sound (C : Contract ι γ σ ε α) (S : System ι γ σ χ ε α)
    (D : Discipline ι γ σ χ ε α) : Prop where
  rely_refl : ∀ i g s, C.inv s → C.rely i g s s
  rely_trans : ∀ i g s t u, C.rely i g s t → C.rely i g t u → C.rely i g s u
  starts : ∀ s running i, C.inv s → D.starts s running i →
    (S.program i).rg (S.admits i) (S.observe i) (C.rely i) (C.guar i)
      (fun a g => C.post i g (.ok a)) (fun e g => C.post i g (.error e)) (S.aux i) s
  inv : ∀ s others thread t, C.inv s → D.moves s others thread →
    C.guar thread.origin thread.aux s t → C.inv t
  compatible : ∀ s others thread t, C.inv s → D.moves s others thread →
    C.guar thread.origin thread.aux s t →
      ∀ other ∈ others, C.rely other.origin other.aux s t
  post : ∀ s others thread t, C.inv s → D.moves s others thread →
    C.guar thread.origin thread.aux s t → ∀ i g r, C.post i g r s → C.post i g r t

namespace Contract
variable {S : System ι γ σ χ ε α} {D : Discipline ι γ σ χ ε α} {C : Contract ι γ σ ε α}

/-- The thread was last left in a state from which it keeps its contract, and has
only seen interference that it allows since. -/
structure Safe (C : Contract ι γ σ ε α) (S : System ι γ σ χ ε α) (s : σ)
    (thread : Thread ι γ σ χ ε α) : Prop where
  keeps : ∃ s₀, C.rely thread.origin thread.aux s₀ s ∧
    thread.rest.rg (S.admits thread.origin) (S.observe thread.origin)
      (C.rely thread.origin) (C.guar thread.origin)
      (fun a g => C.post thread.origin g (.ok a))
      (fun e g => C.post thread.origin g (.error e)) thread.aux s₀
  post : ∀ r, thread.rest.outcome = some r → C.post thread.origin thread.aux r s

/-- The invariant of a pool. -/
structure Holds (C : Contract ι γ σ ε α) (S : System ι γ σ χ ε α)
    (pool : Pool ι γ σ χ ε α) : Prop where
  inv : C.inv pool.state
  safe : ∀ thread ∈ pool.running, C.Safe S pool.state thread
  post : ∀ answer ∈ pool.finished, ∃ g, C.post answer.1 g answer.2 pool.state

theorem Safe.of_rg (h : C.Sound S D) {i : ι} {g : γ} {p : Program σ χ ε α} {s : σ}
    (hs : C.inv s) (hp : p.rg (S.admits i) (S.observe i) (C.rely i) (C.guar i)
      (fun a g => C.post i g (.ok a)) (fun e g => C.post i g (.error e)) g s) :
    C.Safe S s ⟨i, g, p⟩ := by
  refine ⟨⟨s, h.rely_refl _ _ _ hs, hp⟩, fun r hr => ?_⟩
  cases p with
  | ret a =>
      cases hr
      exact hp
  | raise e =>
      cases hr
      exact hp
  | step f k => cases hr

/-- A thread's next step is in its guarantee, and leaves it safe. -/
theorem Safe.move (h : C.Sound S D) {i : ι} {g : γ} {β : Type} {f : χ → σ → β × σ}
    {k : β → Program σ χ ε α} {s : σ} {others : List (Thread ι γ σ χ ε α)}
    (hs : C.inv s) (hsafe : C.Safe S s ⟨i, g, .step f k⟩) {c : χ} (hc : S.admits i c)
    (hmoves : D.moves s others ⟨i, g, .step f k⟩) :
    C.guar i g s (f c s).2 ∧
      C.Safe S (f c s).2 ⟨i, S.observe i g s (f c s).2, k (f c s).1⟩ := by
  obtain ⟨s₀, hrely, hrg⟩ := hsafe.keeps
  have hstep := hrg c s hc hrely
  exact ⟨hstep.1, .of_rg h (h.inv _ _ _ _ hs hmoves hstep.1) hstep.2⟩

theorem Holds.step (h : C.Sound S D) {mover : Option (Thread ι γ σ χ ε α)}
    {pool pool' : Pool ι γ σ χ ε α} (hpool : C.Holds S pool)
    (hstep : Pool.Step S D mover pool pool') : C.Holds S pool' := by
  obtain ⟨hinv, hsafe, hpost⟩ := hpool
  cases hstep with
  | start i hstart =>
      refine ⟨hinv, fun thread hthread => ?_, hpost⟩
      rcases List.mem_cons.mp hthread with rfl | hthread
      · exact .of_rg h hinv (h.starts _ _ _ hinv hstart)
      · exact hsafe thread hthread
  | @move s before after finished i g β f k c hc hmoves =>
      obtain ⟨hguar, hown⟩ := (hsafe _ (by simp)).move h hinv hc hmoves
      refine ⟨h.inv _ _ _ _ hinv hmoves hguar, fun thread hthread => ?_,
        fun answer hanswer => ?_⟩
      swap
      · obtain ⟨g', hanswer⟩ := hpost answer hanswer
        exact ⟨g', h.post _ _ _ _ hinv hmoves hguar _ _ _ hanswer⟩
      have hthread' : thread ∈ before ++ after ∨
          thread = ⟨i, S.observe i g s (f c s).2, k (f c s).1⟩ := by
        simp only [List.mem_append, List.mem_cons] at hthread ⊢
        tauto
      rcases hthread' with hother | rfl
      · have hold := hsafe thread (by
          simp only [List.mem_append, List.mem_cons] at hother ⊢
          tauto)
        obtain ⟨s₀, hrely, hrg⟩ := hold.keeps
        exact ⟨⟨s₀, h.rely_trans _ _ _ _ _ hrely
          (h.compatible _ _ _ _ hinv hmoves hguar thread hother), hrg⟩,
          fun r hr => h.post _ _ _ _ hinv hmoves hguar _ _ _ (hold.post r hr)⟩
      · exact hown
  | @finish s before after finished i g p r houtcome =>
      refine ⟨hinv, fun thread hthread => hsafe thread ?_, fun answer hanswer => ?_⟩
      · simp only [List.mem_append, List.mem_cons] at hthread ⊢
        tauto
      · rcases List.mem_cons.mp hanswer with rfl | hanswer
        · exact ⟨g, (hsafe ⟨i, g, p⟩ (by simp)).post r houtcome⟩
        · exact hpost answer hanswer
  | crash thread =>
      refine ⟨hinv, fun other hother => hsafe other ?_, hpost⟩
      simp only [List.mem_append, List.mem_cons] at hother ⊢
      tauto

/-- The parallel rule. -/
theorem Sound.holds (h : C.Sound S D) {s : σ} (hs : C.inv s) {pool : Pool ι γ σ χ ε α}
    (hpool : pool.Reachable S D s) : C.Holds S pool := by
  induction hpool with
  | refl => exact ⟨hs, by simp, by simp⟩
  | tail _ hstep ih =>
      obtain ⟨mover, hstep⟩ := hstep
      exact ih.step h hstep

/-- A thread that moves was allowed to, and keeps its guarantee. -/
theorem Holds.guarantee (h : C.Sound S D) {thread : Thread ι γ σ χ ε α}
    {pool pool' : Pool ι γ σ χ ε α} (hpool : C.Holds S pool)
    (hstep : Pool.Step S D (some thread) pool pool') :
    thread ∈ pool.running ∧ (∃ others, D.moves pool.state others thread) ∧
      C.guar thread.origin thread.aux pool.state pool'.state := by
  cases hstep with
  | move c hc hmoves =>
      exact ⟨by simp, ⟨_, hmoves⟩, ((hpool.safe _ (by simp)).move h hpool.inv hc hmoves).1⟩

end Contract

/-- Only a move changes the state. -/
theorem Pool.Step.state_eq {S : System ι γ σ χ ε α} {D : Discipline ι γ σ χ ε α}
    {pool pool' : Pool ι γ σ χ ε α} (h : Pool.Step S D none pool pool') :
    pool'.state = pool.state := by
  cases h <;> rfl

/-! ## Answers -/

/-- How a thread ended, if it has. -/
def Thread.answer (thread : Thread ι γ σ χ ε α) : Option (ι × Except ε α) :=
  thread.rest.outcome.map fun r => (thread.origin, r)

/-- The programs that have ended, and how. -/
def Pool.ended (pool : Pool ι γ σ χ ε α) : List (ι × Except ε α) :=
  pool.running.filterMap Thread.answer ++ pool.finished

theorem Contract.Holds.ended {S : System ι γ σ χ ε α} {C : Contract ι γ σ ε α}
    {pool : Pool ι γ σ χ ε α} (h : C.Holds S pool) {answer : ι × Except ε α}
    (hanswer : answer ∈ pool.ended) : ∃ g, C.post answer.1 g answer.2 pool.state := by
  rcases List.mem_append.mp hanswer with hanswer | hanswer
  · obtain ⟨thread, hthread, hanswer⟩ := List.mem_filterMap.mp hanswer
    obtain ⟨r, hr, rfl⟩ := Option.map_eq_some_iff.mp hanswer
    exact ⟨thread.aux, (h.safe thread hthread).post r hr⟩
  · exact h.post answer hanswer

/-- A step ends at most one program, that of the thread which moved. -/
theorem Contract.Holds.newlyEnded {S : System ι γ σ χ ε α} {D : Discipline ι γ σ χ ε α}
    {C : Contract ι γ σ ε α} (h : C.Sound S D) (hprogram : ∀ i, (S.program i).outcome = none)
    {mover : Option (Thread ι γ σ χ ε α)} {pool pool' : Pool ι γ σ χ ε α}
    (hpool : C.Holds S pool) (hstep : Pool.Step S D mover pool pool') :
    ∃ new : Option (ι × Except ε α), pool'.ended.Subperm (new.toList ++ pool.ended) ∧
      ∀ answer ∈ new, ∃ thread ∈ mover, answer.1 = thread.origin ∧
        C.post thread.origin (S.observe thread.origin thread.aux pool.state pool'.state)
          answer.2 pool'.state := by
  have hpool' := hpool.step h hstep
  cases hstep with
  | start i =>
      refine ⟨none, List.Perm.subperm ?_, nofun⟩
      have hnone : Thread.answer ⟨i, S.aux i, S.program i⟩ = none := by
        simp [Thread.answer, hprogram]
      simp [Pool.ended, hnone]
  | @move s before after finished i g β f k c hc =>
      refine ⟨Thread.answer ⟨i, S.observe i g s (f c s).2, k (f c s).1⟩,
        List.Perm.subperm ?_, fun answer hanswer => ?_⟩
      · have hold : Thread.answer ⟨i, g, .step f k⟩ = none := rfl
        simp only [Pool.ended, List.filterMap_append, List.filterMap_cons, hold]
        cases Thread.answer ⟨i, S.observe i g s (f c s).2, k (f c s).1⟩ with
        | none => exact .refl _
        | some answer =>
            simp only [Option.toList_some, List.append_assoc, List.cons_append,
              List.nil_append]
            exact List.perm_middle
      · obtain ⟨r, hr, rfl⟩ := Option.map_eq_some_iff.mp hanswer
        exact ⟨_, rfl, rfl, (hpool'.safe
          ⟨i, S.observe i g s (f c s).2, k (f c s).1⟩ (by simp)).post r hr⟩
  | @finish s before after finished i g p r houtcome =>
      refine ⟨none, List.Perm.subperm ?_, nofun⟩
      have hold : Thread.answer ⟨i, g, p⟩ = some (i, r) := by
        simp [Thread.answer, houtcome]
      simp only [Pool.ended, List.filterMap_append, List.filterMap_cons, hold,
        Option.toList_none, List.nil_append, List.append_assoc, List.cons_append]
      exact .append_left _ List.perm_middle
  | crash thread =>
      refine ⟨none, List.Sublist.subperm ?_, nofun⟩
      simp only [Pool.ended, List.filterMap_append, List.filterMap_cons, Option.toList_none,
        List.nil_append]
      refine .append_right (.append_left ?_ _) _
      cases thread.answer with
      | none => exact .refl _
      | some answer => exact .cons _ (.refl _)

theorem subperm_filterMap {α β : Type} (f : α → Option β) {xs ys : List α}
    (h : xs.Subperm ys) : (xs.filterMap f).Subperm (ys.filterMap f) := by
  obtain ⟨zs, hperm, hsub⟩ := h
  exact ⟨zs.filterMap f, hperm.filterMap f, hsub.filterMap f⟩

/-- A run that starts with `P` and ends without has a step that loses it. -/
theorem exists_crossing {τ : Type*} {r : τ → τ → Prop} {P : τ → Prop} {a b : τ}
    (h : Relation.ReflTransGen r a b) (ha : P a) (hb : ¬ P b) :
    ∃ c d, Relation.ReflTransGen r a c ∧ r c d ∧ Relation.ReflTransGen r d b ∧ P c ∧ ¬ P d := by
  induction h with
  | refl => exact absurd ha hb
  | @tail c d hac hcd ih =>
      by_cases hc : P c
      · exact ⟨c, d, hac, hcd, .refl, hc, hb⟩
      · obtain ⟨x, y, hax, hxy, hyc, hx, hy⟩ := ih hc
        exact ⟨x, y, hax, hxy, hyc.tail hcd, hx, hy⟩

/-! ## Runs of one thread -/

/-- A thread runs on for `n` steps while the others wait. -/
theorem Pool.Steps.advance {S : System ι γ σ χ ε α} {D : Discipline ι γ σ χ ε α} {i : ι}
    {p : Program σ χ ε α} (cs : ℕ → χ) (before after : List (Thread ι γ σ χ ε α))
    (hcs : ∀ n, S.admits i (cs n))
    (hmoves : ∀ g s p, D.moves s (before ++ after) ⟨i, g, p⟩) (n : ℕ) (g : γ) (s : σ)
    (finished : List (ι × Except ε α)) :
    ∃ g', Pool.Steps S D ⟨s, before ++ ⟨i, g, p⟩ :: after, finished⟩
      ⟨p.crash cs n s, before ++ ⟨i, g', p.residual cs n s⟩ :: after, finished⟩ := by
  induction n generalizing p cs g s with
  | zero =>
      cases p with
      | ret a => exact ⟨g, .refl⟩
      | raise e => exact ⟨g, .refl⟩
      | step f k => exact ⟨g, .refl⟩
  | succ n ih =>
      cases p with
      | ret a => exact ⟨g, .refl⟩
      | raise e => exact ⟨g, .refl⟩
      | step f k =>
          obtain ⟨g', hsteps⟩ := ih (p := k (f (cs 0) s).1) _ (fun n => hcs (n + 1))
            (S.observe i g s (f (cs 0) s).2) (f (cs 0) s).2
          exact ⟨g', .head ⟨_, .move (cs 0) (hcs 0) (hmoves _ _ _)⟩ hsteps⟩

/-- The next step of a thread that has not ended. -/
theorem Pool.Step.next {S : System ι γ σ χ ε α} {D : Discipline ι γ σ χ ε α} {i : ι}
    {p : Program σ χ ε α} (before after : List (Thread ι γ σ χ ε α)) (hp : p.outcome = none)
    {c : χ} (hc : S.admits i c) {g : γ} {s : σ}
    (hmoves : D.moves s (before ++ after) ⟨i, g, p⟩) (finished : List (ι × Except ε α)) :
    ∃ g', Pool.Step S D (some ⟨i, g, p⟩) ⟨s, before ++ ⟨i, g, p⟩ :: after, finished⟩
      ⟨p.crash (fun _ => c) 1 s, before ++ ⟨i, g', p.residual (fun _ => c) 1 s⟩ :: after,
        finished⟩ := by
  cases p with
  | ret a => cases hp
  | raise e => cases hp
  | step f k =>
      have hcrash : ∀ (q : Program σ χ ε α) cs t, q.crash cs 0 t = t ∧ q.residual cs 0 t = q := by
        intro q cs t
        cases q <;> exact ⟨rfl, rfl⟩
      refine ⟨S.observe i g s (f c s).2, ?_⟩
      simp only [Program.crash, Program.residual, hcrash]
      exact .move c hc hmoves

/-- A thread runs on to its end while the others wait, if each move is admitted. -/
theorem Pool.Steps.follow {S : System ι γ σ χ ε α} {D : Discipline ι γ σ χ ε α} {i : ι}
    {p : Program σ χ ε α} (cs : ℕ → χ) (before after : List (Thread ι γ σ χ ε α))
    {P : γ → σ → Bool} (hcs : ∀ n, S.admits i (cs n))
    (hP : ∀ g s p, P g s = true → D.moves s (before ++ after) ⟨i, g, p⟩) {g : γ} {s : σ}
    (hfollows : p.follows P (S.observe i) cs g s = true) (finished : List (ι × Except ε α)) :
    Pool.Steps S D ⟨s, before ++ ⟨i, g, p⟩ :: after, finished⟩
      ⟨(p.run cs s).2, before ++ after, (i, (p.run cs s).1) :: finished⟩ := by
  induction p generalizing cs g s with
  | ret a => exact .single ⟨_, .finish rfl⟩
  | raise e => exact .single ⟨_, .finish rfl⟩
  | step f k ih =>
      rw [Program.follows, Bool.and_eq_true] at hfollows
      exact .head ⟨_, .move (cs 0) (hcs 0) (hP _ _ _ hfollows.1)⟩
        (ih _ _ (fun n => hcs (n + 1)) hfollows.2)

/-- A thread runs on to its end while the others wait. -/
theorem Pool.Steps.complete {S : System ι γ σ χ ε α} {D : Discipline ι γ σ χ ε α} {i : ι}
    {p : Program σ χ ε α} (cs : ℕ → χ) (before after : List (Thread ι γ σ χ ε α))
    (hcs : ∀ n, S.admits i (cs n))
    (hmoves : ∀ g s p, D.moves s (before ++ after) ⟨i, g, p⟩) (g : γ) (s : σ)
    (finished : List (ι × Except ε α)) :
    Pool.Steps S D ⟨s, before ++ ⟨i, g, p⟩ :: after, finished⟩
      ⟨(p.run cs s).2, before ++ after, (i, (p.run cs s).1) :: finished⟩ := by
  refine Pool.Steps.follow (P := fun _ _ => true) cs before after hcs
    (fun g s p _ => hmoves g s p) ?_ finished
  clear hmoves hcs
  induction p generalizing cs g s with
  | ret a => rfl
  | raise e => rfl
  | step f k ih =>
      rw [Program.follows, Bool.true_and]
      exact ih _ _ _ _

/-- A program that runs alone from its start to its end. -/
theorem Pool.Steps.alone {S : System ι γ σ χ ε α} {D : Discipline ι γ σ χ ε α} {i : ι}
    {s : σ} (cs : ℕ → χ) (finished : List (ι × Except ε α)) (hcs : ∀ n, S.admits i (cs n))
    (hstart : D.starts s [] i) (hmoves : ∀ g s p, D.moves s [] ⟨i, g, p⟩) :
    Pool.Steps S D ⟨s, [], finished⟩
      ⟨((S.program i).run cs s).2, [], (i, ((S.program i).run cs s).1) :: finished⟩ :=
  .head ⟨_, .start i hstart⟩ (Pool.Steps.complete cs [] [] hcs hmoves _ _ _)

end Pools
end StoryReview
