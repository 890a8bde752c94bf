import Mathlib.Algebra.Order.Ring.Rat
import Mathlib.Algebra.Order.Monoid.Unbundled.Basic

/-!
# Programs that wait

A program reads a clock, draws random numbers, sleeps, and makes calls that an
environment answers. Only sleeps and calls take time, and a call is given up when its
timeout is over. A predicate on the single waits extends to those of a run; a run
respects a limit exactly when each of its waits does.
-/
namespace StoryReview

/-- `L` says what a call is for, `A` is what it may be answered. -/
inductive Waits (L A ε α : Type) : Type where
  | ret (a : α)
  | raise (e : ε)
  | time (next : ℚ → Waits L A ε α)
  | random (next : ℚ → Waits L A ε α)
  | sleep (delay : ℚ) (next : Waits L A ε α)
  | call (label : L) (timeout : ℚ) (next : A → Waits L A ε α)

namespace Waits
variable {L A ε ε' α β : Type}

def bind : Waits L A ε α → (α → Waits L A ε β) → Waits L A ε β
  | ret a, g => g a
  | raise e, _ => raise e
  | time next, g => time fun t => (next t).bind g
  | random next, g => random fun r => (next r).bind g
  | sleep delay next, g => sleep delay (next.bind g)
  | call label timeout next, g => call label timeout fun a => (next a).bind g

instance : Monad (Waits L A ε) where
  pure := ret
  bind := bind

def tryCatch : Waits L A ε α → (ε → Waits L A ε' α) → Waits L A ε' α
  | ret a, _ => ret a
  | raise e, h => h e
  | time next, h => time fun t => (next t).tryCatch h
  | random next, h => random fun r => (next r).tryCatch h
  | sleep delay next, h => sleep delay (next.tryCatch h)
  | call label timeout next, h => call label timeout fun a => (next a).tryCatch h

def ofExcept : Except ε α → Waits L A ε α
  | .ok a => ret a
  | .error e => raise e

/-! ## Runs -/

/-- What the calls are answered and how long each answer takes; `expired` is what a call
gives whose timeout is over. -/
structure Surroundings (A : Type) where
  answers : ℕ → ℚ × A
  jitters : ℕ → ℚ
  expired : A
  takes_nonneg : ∀ n, 0 ≤ (answers n).1

/-- The time, and how many calls were made and numbers drawn. -/
structure Clock where
  now : ℚ
  calls : ℕ := 0
  draws : ℕ := 0
deriving DecidableEq

inductive Event (L A : Type) where
  | slept (wake : ℚ)
  | called (label : L) (answer : A)
deriving DecidableEq

structure End (L A ε α : Type) where
  result : Except ε α
  clock : Clock
  events : List (Event L A)

namespace Surroundings
variable (env : Surroundings A) (clock : Clock)

/-- The time the next call takes. -/
def elapsed (timeout : ℚ) : ℚ := min (env.answers clock.calls).1 (max 0 timeout)

def answer (timeout : ℚ) : A :=
  if (env.answers clock.calls).1 ≤ timeout then (env.answers clock.calls).2 else env.expired

def answered (timeout : ℚ) : Clock :=
  { clock with now := clock.now + env.elapsed clock timeout, calls := clock.calls + 1 }

end Surroundings

/-- A sleep of no length returns at once. -/
def Clock.slept (clock : Clock) (delay : ℚ) : Clock := { clock with now := clock.now + max 0 delay }

def End.after (e : End L A ε α) (event : Event L A) : End L A ε α :=
  { e with events := event :: e.events }

def run (env : Surroundings A) : Waits L A ε α → Clock → End L A ε α
  | ret a, clock => ⟨.ok a, clock, []⟩
  | raise e, clock => ⟨.error e, clock, []⟩
  | time next, clock => (next clock.now).run env clock
  | random next, clock =>
      (next (env.jitters clock.draws)).run env { clock with draws := clock.draws + 1 }
  | sleep delay next, clock =>
      (next.run env (clock.slept delay)).after (.slept (clock.slept delay).now)
  | call label timeout next, clock =>
      ((next (env.answer clock timeout)).run env (env.answered clock timeout)).after
        (.called label (env.answer clock timeout))

/-- Every sleep and every call of the run is as told, in the time it starts at: the delay
of a sleep, the duration and the answer of a call. -/
def Along (env : Surroundings A) (sleepOk : ℚ → ℚ → Prop) (callOk : ℚ → ℚ → L → A → Prop) :
    Waits L A ε α → Clock → Prop
  | ret _, _ => True
  | raise _, _ => True
  | time next, clock => (next clock.now).Along env sleepOk callOk clock
  | random next, clock => (next (env.jitters clock.draws)).Along env sleepOk callOk
      { clock with draws := clock.draws + 1 }
  | sleep delay next, clock => sleepOk clock.now (max 0 delay) ∧
      next.Along env sleepOk callOk (clock.slept delay)
  | call label timeout next, clock =>
      callOk clock.now (env.elapsed clock timeout) label (env.answer clock timeout) ∧
        (next (env.answer clock timeout)).Along env sleepOk callOk (env.answered clock timeout)

/-! ## Limits -/

/-- The run ends by the limit, and sleeps end before it. -/
def End.Respects (limit : ℚ) (e : End L A ε α) : Prop :=
  e.clock.now ≤ limit ∧ ∀ wake, .slept wake ∈ e.events → wake < limit

/-- The sleeps of a run end before the limit, and the calls that are not clamped by it. -/
def Fits (env : Surroundings A) (limit : ℚ) (free : L → Prop) :
    Waits L A ε α → Clock → Prop :=
  Along env (fun now delay => now + delay < limit)
    fun now elapsed label _ => free label → now + elapsed ≤ limit

/-- From `now` on, every call that is not `free` has a timeout that ends by the limit. -/
def Clamped (limit : ℚ) (free : L → Prop) : Waits L A ε α → ℚ → Prop
  | ret _, _ => True
  | raise _, _ => True
  | time next, now => (next now).Clamped limit free now
  | random next, now => ∀ r, (next r).Clamped limit free now
  | sleep _ next, _ => ∀ later, next.Clamped limit free later
  | call label timeout next, now => (¬ free label → now + max 0 timeout ≤ limit) ∧
      ∀ a later, (next a).Clamped limit free later

section Limits
variable {env : Surroundings A} {limit : ℚ} {free : L → Prop} {p : Waits L A ε α} {clock : Clock}

theorem Surroundings.elapsed_nonneg (env : Surroundings A) (clock : Clock) (timeout : ℚ) :
    0 ≤ env.elapsed clock timeout :=
  le_min (env.takes_nonneg _) (le_max_left _ _)

theorem Surroundings.elapsed_le (env : Surroundings A) (clock : Clock) (timeout : ℚ) :
    env.elapsed clock timeout ≤ max 0 timeout := min_le_right _ _

theorem le_now_run (p : Waits L A ε α) (clock : Clock) :
    clock.now ≤ (p.run env clock).clock.now := by
  induction p generalizing clock with
  | ret => exact le_rfl
  | raise => exact le_rfl
  | time next ih => exact ih _ clock
  | random next ih => exact ih _ _
  | sleep delay next ih =>
      have hslept : clock.now ≤ (clock.slept delay).now :=
        le_add_of_nonneg_right (le_max_left _ _)
      exact hslept.trans (ih _)
  | call label timeout next ih =>
      have hanswered : clock.now ≤ (env.answered clock timeout).now :=
        le_add_of_nonneg_right (env.elapsed_nonneg clock timeout)
      exact hanswered.trans (ih _ _)

theorem respects_after_called {e : End L A ε α} {label : L} {a : A} :
    (e.after (.called label a)).Respects limit ↔ e.Respects limit := by
  unfold End.Respects End.after
  simp

theorem respects_after_slept {e : End L A ε α} {wake : ℚ} :
    (e.after (.slept wake)).Respects limit ↔ wake < limit ∧ e.Respects limit := by
  unfold End.Respects End.after
  simp only [List.mem_cons, Event.slept.injEq]
  constructor
  · rintro ⟨hend, hsleeps⟩
    exact ⟨hsleeps wake (.inl rfl), hend, fun t ht => hsleeps t (.inr ht)⟩
  · rintro ⟨hwake, hend, hsleeps⟩
    refine ⟨hend, fun t ht => ?_⟩
    rcases ht with rfl | ht
    · exact hwake
    · exact hsleeps t ht

/-- A program whose other calls are clamped respects the limit if and only if it starts by
then and its sleeps and free calls fit. -/
theorem respects_run_iff (hclamped : p.Clamped limit free clock.now) :
    (p.run env clock).Respects limit ↔ clock.now ≤ limit ∧ p.Fits env limit free clock := by
  induction p generalizing clock with
  | ret => exact and_congr_right fun _ => iff_of_true (fun t ht => nomatch ht) trivial
  | raise => exact and_congr_right fun _ => iff_of_true (fun t ht => nomatch ht) trivial
  | time next ih => exact ih _ hclamped
  | random next ih => exact ih _ (hclamped _)
  | sleep delay next ih =>
      have hwake : clock.now ≤ clock.now + max 0 delay := le_add_of_nonneg_right (le_max_left _ _)
      rw [run, respects_after_slept, ih (hclamped _)]
      constructor
      · rintro ⟨hlt, -, hfits⟩
        exact ⟨hwake.trans hlt.le, hlt, hfits⟩
      · rintro ⟨-, hlt, hfits⟩
        exact ⟨hlt, hlt.le, hfits⟩
  | call label timeout next ih =>
      have hstart := env.elapsed_nonneg clock timeout
      rw [run, respects_after_called, ih _ (hclamped.2 _ _)]
      constructor
      · rintro ⟨hend, hfits⟩
        exact ⟨(le_add_of_nonneg_right hstart).trans hend, fun _ => hend, hfits⟩
      · rintro ⟨hnow, hfree, hfits⟩
        refine ⟨?_, hfits⟩
        by_cases hlabel : free label
        · exact hfree hlabel
        · have helapsed := env.elapsed_le clock timeout
          exact (add_le_add_right helapsed _).trans (hclamped.1 hlabel)

end Limits

/-! ## Composition -/

section Composition
variable {limit : ℚ} {free : L → Prop} {now : ℚ}

theorem clamped_bind {p : Waits L A ε α} {g : α → Waits L A ε β}
    (hp : p.Clamped limit free now) (hg : ∀ a later, (g a).Clamped limit free later) :
    (p.bind g).Clamped limit free now := by
  induction p generalizing now with
  | ret a => exact hg a now
  | raise => trivial
  | time next ih => exact ih _ hp
  | random next ih => exact fun r => ih r (hp r)
  | sleep delay next ih => exact fun later => ih (hp later)
  | call label timeout next ih => exact ⟨hp.1, fun a later => ih a (hp.2 a later)⟩

theorem clamped_tryCatch {p : Waits L A ε α} {h : ε → Waits L A ε' α}
    (hp : p.Clamped limit free now) (hh : ∀ e later, (h e).Clamped limit free later) :
    (p.tryCatch h).Clamped limit free now := by
  induction p generalizing now with
  | ret => trivial
  | raise e => exact hh e now
  | time next ih => exact ih _ hp
  | random next ih => exact fun r => ih r (hp r)
  | sleep delay next ih => exact fun later => ih (hp later)
  | call label timeout next ih => exact ⟨hp.1, fun a later => ih a (hp.2 a later)⟩

theorem clamped_ite {c : Prop} [Decidable c] {p q : Waits L A ε α}
    (hp : p.Clamped limit free now) (hq : q.Clamped limit free now) :
    (if c then p else q).Clamped limit free now := by
  split_ifs
  · exact hp
  · exact hq

theorem clamped_ofExcept (r : Except ε α) :
    (ofExcept r : Waits L A ε α).Clamped limit free now := by
  cases r <;> trivial

end Composition

/-! ## Handled answers -/

/-- How a program takes the answers of its calls. After one that is `ok` the events are as
told; any other raises at once, and no `good` exception. All else that is raised is `good`,
and what is returned is as told. -/
def Handles (ok : L → A → Prop) (follows : L → A → List (Event L A) → Prop) (good : ε → Prop)
    (returns : α → Prop) : Waits L A ε α → Prop
  | ret a => returns a
  | raise e => good e
  | time next => ∀ now, (next now).Handles ok follows good returns
  | random next => ∀ r, (next r).Handles ok follows good returns
  | sleep _ next => next.Handles ok follows good returns
  | call label _ next => ∀ a,
      (ok label a → (∀ env clock, follows label a ((next a).run env clock).events) ∧
        (next a).Handles ok follows good returns) ∧
      (¬ ok label a → ∃ e, next a = raise e ∧ ¬ good e)

section Handled
variable {ok : L → A → Prop} {follows : L → A → List (Event L A) → Prop} {good : ε → Prop}
  {returns : α → Prop} {env : Surroundings A} {clock : Clock} {p : Waits L A ε α}

/-- What comes after a program adds to its events. -/
theorem events_run_bind (p : Waits L A ε α) (g : α → Waits L A ε β) (clock : Clock) :
    (p.run env clock).events <+: ((p.bind g).run env clock).events := by
  induction p generalizing clock with
  | ret => exact List.nil_prefix
  | raise => exact List.nil_prefix
  | time next ih => exact ih _ clock
  | random next ih => exact ih _ _
  | sleep delay next ih => exact (List.prefix_cons_inj _).mpr (ih _)
  | call label timeout next ih => exact (List.prefix_cons_inj _).mpr (ih _ _)

theorem events_run_tryCatch (p : Waits L A ε α) (h : ε → Waits L A ε' α) (clock : Clock) :
    (p.run env clock).events <+: ((p.tryCatch h).run env clock).events := by
  induction p generalizing clock with
  | ret => exact List.nil_prefix
  | raise => exact List.nil_prefix
  | time next ih => exact ih _ clock
  | random next ih => exact ih _ _
  | sleep delay next ih => exact (List.prefix_cons_inj _).mpr (ih _)
  | call label timeout next ih => exact (List.prefix_cons_inj _).mpr (ih _ _)

variable (hmono : ∀ label a events events', events <+: events' →
  follows label a events → follows label a events')
include hmono

theorem Handles.bind {g : α → Waits L A ε β} {returns' : β → Prop}
    (hp : p.Handles ok follows good returns)
    (hg : ∀ a, returns a → (g a).Handles ok follows good returns') :
    (p.bind g).Handles ok follows good returns' := by
  induction p with
  | ret a => exact hg a hp
  | raise e => exact hp
  | time next ih => exact fun now => ih now (hp now)
  | random next ih => exact fun r => ih r (hp r)
  | sleep delay next ih => exact ih hp
  | call label timeout next ih =>
      intro a
      constructor
      · intro hok
        obtain ⟨hfollows, hnext⟩ := (hp a).1 hok
        exact ⟨fun env clock => hmono label a _ _ (events_run_bind _ g clock) (hfollows env clock),
          ih a hnext⟩
      · intro hnot
        obtain ⟨e, hraise, hbad⟩ := (hp a).2 hnot
        exact ⟨e, congrArg (fun q => q.bind g) hraise, hbad⟩

/-- A handler of the good exceptions that passes on the others. -/
theorem Handles.tryCatch {h : ε → Waits L A ε' α} {good' : ε' → Prop}
    (hp : p.Handles ok follows good returns)
    (hgood : ∀ e, good e → (h e).Handles ok follows good' returns)
    (hbad : ∀ e, ¬ good e → ∃ e', h e = raise e' ∧ ¬ good' e') :
    (p.tryCatch h).Handles ok follows good' returns := by
  induction p with
  | ret a => exact hp
  | raise e => exact hgood e hp
  | time next ih => exact fun now => ih now (hp now)
  | random next ih => exact fun r => ih r (hp r)
  | sleep delay next ih => exact ih hp
  | call label timeout next ih =>
      intro a
      constructor
      · intro hok
        obtain ⟨hfollows, hnext⟩ := (hp a).1 hok
        exact ⟨fun env clock => hmono label a _ _ (events_run_tryCatch _ h clock)
          (hfollows env clock), ih a hnext⟩
      · intro hnot
        obtain ⟨e, hraise, hnotGood⟩ := (hp a).2 hnot
        obtain ⟨e', hpassed, hbad'⟩ := hbad e hnotGood
        exact ⟨e', (congrArg (fun q => q.tryCatch h) hraise).trans hpassed, hbad'⟩

end Handled

end Waits
end StoryReview
