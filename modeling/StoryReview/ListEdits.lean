import Mathlib.Data.List.Forall2
import Mathlib.Data.List.Induction
import Mathlib.Order.Lattice

/-!
# Editing a list element by element

A step keeps, replaces or drops one element and may leave one entry in a log. A
pass runs a step over a list. The result of a pass is read off position by
position: what became of an element depends on that element alone, so passes
compose, and a pass whose step leaves its own results alone changes nothing the
second time.

The last section is about selecting the first element of greatest score.
-/
namespace StoryReview.ListEdits

variable {α ε κ : Type*}

/-- Run `step` over `xs`: the elements that remain and the log. -/
def pass (step : α → Option α × Option ε) (xs : List α) : List α × List ε :=
  (xs.filterMap fun a => (step a).1, xs.filterMap fun a => (step a).2)

theorem pass_cons (step : α → Option α × Option ε) (a : α) (xs : List α) :
    pass step (a :: xs) =
      ((step a).1.toList ++ (pass step xs).1, (step a).2.toList ++ (pass step xs).2) := by
  simp only [pass, List.filterMap_cons]
  cases (step a).1 <;> cases (step a).2 <;> rfl

/-- Run `second` on what `first` leaves of an element. -/
def andThen (first second : α → Option α × Option ε) (a : α) : Option α :=
  (first a).1.bind fun b => (second b).1

theorem pass_pass_fst (first second : α → Option α × Option ε) (xs : List α) :
    (pass second (pass first xs).1).1 = xs.filterMap (andThen first second) := by
  simp only [pass, List.filterMap_filterMap]
  rfl

theorem pass_pass_snd (first second : α → Option α × Option ε) (xs : List α) :
    (pass second (pass first xs).1).2 =
      xs.filterMap fun a => (first a).1.bind fun b => (second b).2 := by
  simp only [pass, List.filterMap_filterMap]

/-! ## What remains of a list -/

variable {R : α → α → Prop} {f : α → Option α}

theorem filterMap_idempotent (h : ∀ a b, f a = some b → f b = some b) (xs : List α) :
    (xs.filterMap f).filterMap f = xs.filterMap f := by
  rw [List.filterMap_filterMap]
  refine List.filterMap_congr fun a _ => ?_
  cases ha : f a with
  | none => rfl
  | some b => exact h a b ha

theorem sublistForall₂_filterMap {xs : List α} (h : ∀ a ∈ xs, ∀ b ∈ f a, R b a) :
    List.SublistForall₂ R (xs.filterMap f) xs := by
  induction xs with
  | nil => exact .nil
  | cons a xs ih =>
      have hxs := ih fun c hc => h c (List.mem_cons_of_mem a hc)
      cases ha : f a with
      | none =>
          rw [List.filterMap_cons_none ha]
          exact .cons_right hxs
      | some b =>
          rw [List.filterMap_cons_some ha]
          exact .cons (h a List.mem_cons_self b ha) hxs

/-- The remaining elements stand, in order, over the elements they come from. -/
theorem forall₂_filterMap_iff {xs : List α} :
    List.Forall₂ R (xs.filterMap f) (xs.filter fun a => (f a).isSome) ↔
      ∀ a ∈ xs, ∀ b ∈ f a, R b a := by
  induction xs with
  | nil => simp
  | cons a xs ih =>
      cases ha : f a with
      | none => simp [ha, ih]
      | some b => simp [ha, ih]

theorem exists_of_forall₂ {xs ys : List α} (h : List.Forall₂ R xs ys) :
    ∀ y ∈ ys, ∃ x ∈ xs, R x y := by
  induction h with
  | nil => simp
  | @cons a b xs ys hab _ ih =>
      intro y hy
      rcases List.mem_cons.mp hy with rfl | hy
      · exact ⟨a, List.mem_cons_self, hab⟩
      · obtain ⟨x, hx, hxy⟩ := ih y hy
        exact ⟨x, List.mem_cons_of_mem a hx, hxy⟩

/-- Where a step keeps the key of an element and decides by the key whether the
element remains, there is only one way to lay the result over the list it comes
from, so comparing the two lists is comparing the elements one by one. -/
theorem sublistForall₂_filterMap_iff (key : α → κ) (hR : ∀ b a, R b a → key b = key a)
    (hkey : ∀ a b, f a = some b → key b = key a)
    (hdrop : ∀ a b, key a = key b → (f a).isSome = (f b).isSome) {xs : List α} :
    List.SublistForall₂ R (xs.filterMap f) xs ↔ ∀ a ∈ xs, ∀ b ∈ f a, R b a := by
  constructor
  · intro h
    obtain ⟨ys, hys, hsub⟩ := List.sublistForall₂_iff.mp h
    have hsome : ∀ y ∈ ys, (f y).isSome := by
      intro y hy
      obtain ⟨b, hb, hby⟩ := exists_of_forall₂ hys y hy
      obtain ⟨a, -, ha⟩ := List.mem_filterMap.mp hb
      rw [← hdrop a y ((hkey a b ha).symm.trans (hR b y hby)), ha]
      rfl
    have hfilter : ys.Sublist (xs.filter fun a => (f a).isSome) := by
      have := hsub.filter fun a => (f a).isSome
      rwa [List.filter_eq_self.mpr hsome] at this
    have hlen : ys.length = (xs.filter fun a => (f a).isSome).length := by
      rw [← hys.length_eq, List.length_filterMap_eq_countP, List.countP_eq_length_filter]
    rw [hfilter.eq_of_length hlen] at hys
    exact forall₂_filterMap_iff.mp hys
  · exact sublistForall₂_filterMap

/-! ## Two logs in one -/

section Logs
variable {f g : α → Option ε} {p : ε → Bool}

theorem filter_filterMap_or (hf : ∀ a, ∀ e ∈ f a, p e) (hg : ∀ a, ∀ e ∈ g a, ¬p e)
    (xs : List α) : (xs.filterMap fun a => (f a).or (g a)).filter p = xs.filterMap f := by
  rw [List.filter_filterMap]
  refine List.filterMap_congr fun a _ => ?_
  cases hfa : f a with
  | some e => simpa using hf a e hfa
  | none =>
      cases hga : g a with
      | none => rfl
      | some e => simpa using hg a e hga

theorem filter_filterMap_or_right (hf : ∀ a, ∀ e ∈ f a, ¬p e) (hg : ∀ a, ∀ e ∈ g a, p e)
    (hone : ∀ a, f a = none ∨ g a = none) (xs : List α) :
    (xs.filterMap fun a => (f a).or (g a)).filter p = xs.filterMap g := by
  have hswap : ∀ a, (f a).or (g a) = (g a).or (f a) := by
    intro a
    rcases hone a with h | h <;> simp [h]
  simp only [hswap]
  exact filter_filterMap_or hg hf xs

end Logs

/-! ## The first element of greatest score -/

section FirstMax
variable {σ : Type*} [LinearOrder σ]

/-- Keep the better of two candidates, the earlier one on a tie. -/
def better (best : Option (α × σ)) (candidate : α × σ) : Option (α × σ) :=
  match best with
  | none => some candidate
  | some b => if b.2 < candidate.2 then some candidate else some b

/-- `a` has the greatest score of `xs`, and nothing before it has that score. -/
def FirstMax (score : α → σ) (xs : List α) (a : α) : Prop :=
  ∃ before after, xs = before ++ a :: after ∧ (∀ b ∈ before, score b < score a) ∧
    ∀ b ∈ after, score b ≤ score a

theorem FirstMax.mem {score : α → σ} {xs : List α} {a : α} (h : FirstMax score xs a) :
    a ∈ xs := by
  obtain ⟨before, after, rfl, -⟩ := h
  exact List.mem_append_right before List.mem_cons_self

theorem FirstMax.le {score : α → σ} {xs : List α} {a b : α} (h : FirstMax score xs a)
    (hb : b ∈ xs) : score b ≤ score a := by
  obtain ⟨before, after, rfl, hbefore, hafter⟩ := h
  rcases List.mem_append.mp hb with hb | hb
  · exact (hbefore b hb).le
  · rcases List.mem_cons.mp hb with rfl | hb
    · exact le_refl _
    · exact hafter b hb

theorem foldl_better_eq_none {score : α → σ} {xs : List α} :
    (xs.map fun a => (a, score a)).foldl better none = none ↔ xs = [] := by
  induction xs using List.reverseRecOn with
  | nil => simp
  | append_singleton xs a ih =>
      simp only [List.map_append, List.map_cons, List.map_nil, List.foldl_append,
        List.foldl_cons, List.foldl_nil, List.append_eq_nil_iff, List.cons_ne_self, and_false,
        iff_false, better]
      split
      · simp
      · split_ifs <;> simp

theorem firstMax_of_foldl_better {score : α → σ} {xs : List α} {a : α} {s : σ}
    (h : (xs.map fun a => (a, score a)).foldl better none = some (a, s)) :
    FirstMax score xs a ∧ s = score a := by
  induction xs using List.reverseRecOn generalizing a s with
  | nil => simp at h
  | append_singleton xs c ih =>
      simp only [List.map_append, List.map_cons, List.map_nil, List.foldl_append,
        List.foldl_cons, List.foldl_nil] at h
      cases hbest : (xs.map fun a => (a, score a)).foldl better none with
      | none =>
          rw [hbest] at h
          obtain rfl := foldl_better_eq_none.mp hbest
          simp only [better, Option.some.injEq, Prod.mk.injEq] at h
          obtain ⟨rfl, rfl⟩ := h
          exact ⟨⟨[], [], rfl, by simp, by simp⟩, rfl⟩
      | some b =>
          rw [hbest] at h
          obtain ⟨⟨before, after, rfl, hbefore, hafter⟩, hscore⟩ := ih hbest
          simp only [better, hscore] at h
          split_ifs at h with hlt
          · obtain ⟨rfl, rfl⟩ := Prod.mk.inj (Option.some.inj h)
            refine ⟨⟨before ++ b.1 :: after, [], rfl, ?_, by simp⟩, rfl⟩
            intro d hd
            rcases List.mem_append.mp hd with hd | hd
            · exact (hbefore d hd).trans hlt
            · rcases List.mem_cons.mp hd with rfl | hd
              · exact hlt
              · exact (hafter d hd).trans_lt hlt
          · obtain rfl := Option.some.inj h
            refine ⟨⟨before, after ++ [c], by simp, hbefore, ?_⟩, hscore⟩
            intro d hd
            rcases List.mem_append.mp hd with hd | hd
            · exact hafter d hd
            · obtain rfl := List.mem_singleton.mp hd
              exact not_lt.mp hlt

theorem FirstMax.unique {score : α → σ} {xs : List α} {a b : α} (ha : FirstMax score xs a)
    (hb : FirstMax score xs b) : a = b := by
  obtain ⟨before, after, rfl, hbefore, hafter⟩ := ha
  obtain ⟨before', after', heq, hbefore', hafter'⟩ := hb
  rcases List.append_eq_append_iff.mp heq with ⟨mid, rfl, hmid⟩ | ⟨mid, rfl, hmid⟩
  · cases mid with
    | nil => exact (List.cons.inj hmid).1
    | cons m mid =>
        obtain ⟨rfl, rfl⟩ := List.cons.inj hmid
        have h₁ := hbefore' a (by simp)
        have h₂ := hafter b (by simp)
        exact absurd h₁ (not_lt.mpr h₂)
  · cases mid with
    | nil => exact (List.cons.inj hmid).1.symm
    | cons m mid =>
        obtain ⟨rfl, rfl⟩ := List.cons.inj hmid
        have h₁ := hbefore b (by simp)
        have h₂ := hafter' a (by simp)
        exact absurd h₁ (not_lt.mpr h₂)

theorem foldl_better_eq_some_iff {score : α → σ} {xs : List α} {a : α} {s : σ} :
    (xs.map fun a => (a, score a)).foldl better none = some (a, s) ↔
      FirstMax score xs a ∧ s = score a := by
  constructor
  · exact firstMax_of_foldl_better
  · intro ⟨ha, hs⟩
    cases hbest : (xs.map fun a => (a, score a)).foldl better none with
    | none =>
        obtain ⟨before, after, hxs, -⟩ := ha
        simp [foldl_better_eq_none.mp hbest] at hxs
    | some b =>
        obtain ⟨hb, hscore⟩ := firstMax_of_foldl_better (s := b.2) hbest
        obtain rfl := ha.unique hb
        rw [hs, ← hscore]

end FirstMax

end StoryReview.ListEdits
