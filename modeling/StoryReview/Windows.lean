import Mathlib.Data.List.Basic
import Mathlib.Order.Lattice
import Mathlib.Order.MinMax
import Mathlib.Order.Nat

/-!
# Reading a sorted list through windows

Consecutive windows of one width put a list together again. A first window alone
shows a key of a sorted list exactly when fewer elements than it is wide come
before that key.
-/
namespace StoryReview.Windows

variable {α κ : Type*}

/-- The `i`-th window of width `limit`. -/
def window (xs : List α) (limit i : ℕ) : List α := (xs.drop (i * limit)).take limit

theorem flatMap_window (xs : List α) (limit n : ℕ) :
    (List.range n).flatMap (window xs limit) = xs.take (n * limit) := by
  induction n with
  | zero => simp
  | succ n ih =>
      rw [List.range_succ, List.flatMap_append, ih, List.flatMap_singleton, Nat.succ_mul,
        List.take_add]
      rfl

theorem flatMap_window_of_le {xs : List α} {limit n : ℕ} (h : xs.length ≤ n * limit) :
    (List.range n).flatMap (window xs limit) = xs := by
  rw [flatMap_window, List.take_of_length_le h]

theorem exists_mem_take_iff [LinearOrder κ] {key : α → κ} {k : κ} {xs : List α}
    (hsorted : xs.Pairwise fun a b => key a ≤ key b) (hk : ∃ a ∈ xs, key a = k) (n : ℕ) :
    (∃ a ∈ xs.take n, key a = k) ↔ (xs.filter fun a => key a < k).length < n := by
  induction xs generalizing n with
  | nil => simp at hk
  | cons a xs ih =>
      obtain ⟨hle, hxs⟩ := List.pairwise_cons.mp hsorted
      rcases lt_trichotomy (key a) k with hlt | heq | hgt
      · have hk' : ∃ b ∈ xs, key b = k := by
          obtain ⟨b, hb, hkey⟩ := hk
          rcases List.mem_cons.mp hb with rfl | hb
          · exact absurd hkey hlt.ne
          · exact ⟨b, hb, hkey⟩
        cases n with
        | zero => simp
        | succ n =>
            have hcount : ((a :: xs).filter fun b => key b < k).length =
                (xs.filter fun b => key b < k).length + 1 := by simp [hlt]
            rw [List.take_succ_cons, hcount, Nat.succ_lt_succ_iff, ← ih hxs hk' n]
            simp [hlt.ne]
      · have hnone : (a :: xs).filter (fun b => key b < k) = [] := by
          refine List.filter_eq_nil_iff.mpr fun b hb hlt => ?_
          rcases List.mem_cons.mp hb with rfl | hb
          · exact (of_decide_eq_true hlt).ne heq
          · exact absurd (of_decide_eq_true hlt) (not_lt.mpr (heq ▸ hle b hb))
        rw [hnone]
        cases n with
        | zero => simp
        | succ n => simp [heq]
      · obtain ⟨b, hb, hkey⟩ := hk
        rcases List.mem_cons.mp hb with rfl | hb
        · exact absurd hkey hgt.ne'
        · exact absurd (hkey ▸ hle b hb) (not_le.mpr hgt)

/-! ## The greatest of a list of numbers -/

theorem le_foldr_max {xs : List ℕ} {m : ℕ} (h : m ∈ xs) : m ≤ xs.foldr max 0 := by
  induction xs with
  | nil => cases h
  | cons x xs ih =>
      rcases List.mem_cons.mp h with rfl | h
      · exact le_max_left _ _
      · exact (ih h).trans (le_max_right _ _)

theorem foldr_max_le {xs : List ℕ} {n : ℕ} (h : ∀ m ∈ xs, m ≤ n) : xs.foldr max 0 ≤ n := by
  induction xs with
  | nil => exact Nat.zero_le n
  | cons x xs ih =>
      exact max_le (h x List.mem_cons_self) (ih fun m hm => h m (List.mem_cons_of_mem x hm))

theorem foldr_max_mem {xs : List ℕ} (h : xs ≠ []) : xs.foldr max 0 ∈ xs := by
  induction xs with
  | nil => exact absurd rfl h
  | cons x xs ih =>
      by_cases hxs : xs = []
      · simp [hxs]
      · rcases max_choice x (xs.foldr max 0) with hmax | hmax
        · simp [hmax]
        · rw [List.foldr_cons, hmax]
          exact List.mem_cons_of_mem x (ih hxs)

theorem foldr_max_congr {xs ys : List ℕ} (h : ∀ m, m ∈ xs ↔ m ∈ ys) :
    xs.foldr max 0 = ys.foldr max 0 :=
  le_antisymm (foldr_max_le fun m hm => le_foldr_max ((h m).mp hm))
    (foldr_max_le fun m hm => le_foldr_max ((h m).mpr hm))

theorem eq_foldr_max_iff {xs : List ℕ} {n : ℕ} (hn : n ∈ xs) :
    n = xs.foldr max 0 ↔ ∀ m ∈ xs, m ≤ n := by
  constructor
  · intro h m hm
    exact h ▸ le_foldr_max hm
  · intro h
    exact le_antisymm (le_foldr_max hn) (foldr_max_le h)

theorem foldr_max_range' (n : ℕ) : (List.range' 1 n).foldr max 0 = n := by
  cases n with
  | zero => rfl
  | succ n =>
      refine ((eq_foldr_max_iff ?_).mpr fun m hm => ?_).symm
      · exact List.mem_range'_1.mpr (by omega)
      · have hbounds := List.mem_range'_1.mp hm
        omega

end StoryReview.Windows
