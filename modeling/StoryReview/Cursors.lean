import Mathlib.Data.List.Basic

/-!
# Following cursors

A server hands out a sorted list page by page; a page that is not the last one comes
with the key of its last element, and the next page holds what comes after that key.
A client that follows the keys until none is given has seen the list once.
-/
namespace StoryReview.Cursors

variable {α β κ : Type*}

/-- The client's list, from request `n` on, which it makes with `cursor`. -/
inductive Listing (serve : ℕ → Option κ → Option (List β × Option κ)) :
    ℕ → Option κ → List β → Prop
  | last {n : ℕ} {cursor : Option κ} {page : List β}
      (h : serve n cursor = some (page, none)) : Listing serve n cursor page
  | next {n : ℕ} {cursor : Option κ} {page rest : List β} {key : κ}
      (h : serve n cursor = some (page, some key))
      (hrest : Listing serve (n + 1) (some key) rest) : Listing serve n cursor (page ++ rest)

variable {serve : ℕ → Option κ → Option (List β × Option κ)}

/-- The client has no choice. -/
theorem Listing.unique {n : ℕ} {cursor : Option κ} {xs ys : List β}
    (hxs : Listing serve n cursor xs) (hys : Listing serve n cursor ys) : xs = ys := by
  induction hxs generalizing ys with
  | last h =>
      cases hys with
      | last h' =>
          rw [h] at h'
          cases h'
          rfl
      | next h' _ =>
          rw [h] at h'
          cases h'
  | next h _ ih =>
      cases hys with
      | last h' =>
          rw [h] at h'
          cases h'
      | next h' hrest =>
          rw [h] at h'
          cases h'
          rw [ih hrest]

/-- What comes after an element of a sorted list. -/
theorem filter_after {r : α → α → Bool} (hasymm : ∀ x y, r x y → r y x = false)
    {before after : List α} {x : α}
    (hsorted : (before ++ x :: after).Pairwise fun x y => r x y = true) :
    (before ++ x :: after).filter (r x) = after := by
  obtain ⟨-, hx, hbefore⟩ := List.pairwise_append.mp hsorted
  have hdropped : before.filter (r x) = [] := by
    rw [List.filter_eq_nil_iff]
    intro y hy
    rw [hasymm y x (hbefore y hy x List.mem_cons_self)]
    exact Bool.false_ne_true
  have hself : r x x = false := by
    cases h : r x x with
    | false => rfl
    | true => rw [← h, hasymm x x h]
  have hkept : after.filter (r x) = after :=
    List.filter_eq_self.mpr fun y hy => (List.pairwise_cons.mp hx).1 y hy
  rw [List.filter_append, hdropped, List.nil_append, List.filter_cons, hself, hkept]
  rfl

/-- Pages of at most `limit` elements, served by the key of the element before them. -/
theorem listing_of_pages {key : α → κ} {view : α → β} {limit : ℕ} (hlimit : 0 < limit)
    {xs : List α}
    (hserve : ∀ n before after, before ++ after = xs →
      serve n (before.getLast?.map key) = some ((after.take limit).map view,
        if limit < after.length then (after.take limit).getLast?.map key else none))
    (n : ℕ) (before after : List α) (hxs : before ++ after = xs) :
    Listing serve n (before.getLast?.map key) (after.map view) := by
  induction hlength : after.length using Nat.strongRecOn generalizing n before after with
  | ind length ih =>
      have hpage := hserve n before after hxs
      by_cases hmore : limit < after.length
      · -- the page is full, so its last element is the last one seen
        have hne : after.take limit ≠ [] := by
          apply List.ne_nil_of_length_pos
          rw [List.length_take]
          omega
        have hlast : (before ++ after.take limit).getLast? = (after.take limit).getLast? :=
          List.getLast?_append_of_ne_nil _ hne
        have hrest := ih (after.drop limit).length (by rw [List.length_drop]; omega) (n + 1)
          (before ++ after.take limit) (after.drop limit)
          (by rw [List.append_assoc, List.take_append_drop, hxs]) rfl
        rw [hlast, List.getLast?_eq_some_getLast hne] at hrest
        rw [if_pos hmore, List.getLast?_eq_some_getLast hne] at hpage
        have hlisting := Listing.next hpage hrest
        rwa [← List.map_append, List.take_append_drop] at hlisting
      · rw [if_neg hmore, List.take_of_length_le (by omega)] at hpage
        exact .last hpage

/-! ## A list that changes meanwhile -/

/-- What is served of the list as it is now, after the element `before` of an earlier one. -/
structure Page (below : α → α → Prop) (rows : List α) (before : Option α) (page : List α)
    (more : Bool) : Prop where
  mem : ∀ y ∈ page, y ∈ rows ∧ ∀ x ∈ before, below x y
  sorted : page.Pairwise below
  full : more = true → page ≠ []
  rest : ∀ y ∈ rows, (∀ x ∈ before, below x y) →
    y ∈ page ∨ more = true ∧ ∀ x ∈ page.getLast?, below x y

/-- What a client has seen of a changing list from request `n` on. -/
structure Seen {ι : Type*} (rows : ℕ → List α) (below : α → α → Prop) (id : α → ι) (n : ℕ)
    (before : Option α) (seen : List α) : Prop where
  once : (seen.map id).Nodup
  sorted : seen.Pairwise below
  mem : ∀ y ∈ seen, (∃ m, n ≤ m ∧ y ∈ rows m) ∧ ∀ x ∈ before, below x y
  /-- An element that keeps its place is seen. -/
  stays : ∀ (i : ι) (P : α → Prop), (∀ x y z, P y → P z → below x y → below x z) →
    (∀ m, n ≤ m → ∃ y ∈ rows m, id y = i ∧ P y) → (∃ y, P y ∧ ∀ x ∈ before, below x y) →
      i ∈ seen.map id

section Changing
variable {ι : Type*} {rows : ℕ → List α} {below : α → α → Prop} {id : α → ι} {cursor : α → κ}
variable {view : α → β}

/-- No element is on a page twice. -/
theorem Page.once (hfront : ∀ m n x y, m ≤ n → x ∈ rows m → y ∈ rows n → id x = id y → ¬ below x y)
    {n : ℕ} {before : Option α} {page : List α} {more : Bool}
    (h : Page below (rows n) before page more) : (page.map id).Nodup := by
  rw [List.Nodup, List.pairwise_map]
  apply h.sorted.imp_of_mem
  intro x y hx hy hbelow heq
  exact hfront n n x y (Nat.le_refl _) (h.mem x hx).1 (h.mem y hy).1 heq hbelow

/-- The last page is all that is left to see. -/
theorem Page.seen (hfront : ∀ m n x y, m ≤ n → x ∈ rows m → y ∈ rows n → id x = id y → ¬ below x y)
    {n : ℕ} {before : Option α} {page : List α} (h : Page below (rows n) before page false) :
    Seen rows below id n before page := by
  refine ⟨h.once hfront, h.sorted, ?_, ?_⟩
  · exact fun y hy => ⟨⟨n, Nat.le_refl _, (h.mem y hy).1⟩, (h.mem y hy).2⟩
  · intro i P hP hrows ⟨y, hy, hbelow⟩
    obtain ⟨z, hz, rfl, hPz⟩ := hrows n (Nat.le_refl _)
    rcases h.rest z hz fun x hx => hP x y z hy hPz (hbelow x hx) with hmem | ⟨hmore, -⟩
    · exact List.mem_map_of_mem hmem
    · cases hmore

/-- A page, and what is seen after its last element. -/
theorem Page.seen_append (htrans : ∀ x y z, below x y → below y z → below x z)
    (hfront : ∀ m n x y, m ≤ n → x ∈ rows m → y ∈ rows n → id x = id y → ¬ below x y)
    {n : ℕ} {before : Option α} {page seen : List α} {last : α}
    (h : Page below (rows n) before page true) (hlast : page.getLast? = some last)
    (hseen : Seen rows below id (n + 1) (some last) seen) :
    Seen rows below id n before (page ++ seen) := by
  have hmem : last ∈ page := List.mem_of_getLast? hlast
  -- the rest comes after every element of the page
  have hafter : ∀ x ∈ page, ∀ y ∈ seen, below x y := by
    intro x hx y hy
    have hy' : below last y := (hseen.mem y hy).2 last rfl
    obtain ⟨init, rfl⟩ := List.getLast?_eq_some_iff.mp hlast
    rcases List.mem_append.mp hx with hx | hx
    · have hsorted := (List.pairwise_append.mp h.sorted).2.2
      exact htrans _ _ _ (hsorted x hx last List.mem_cons_self) hy'
    · rwa [List.mem_singleton.mp hx]
  constructor
  · rw [List.map_append, List.nodup_append]
    refine ⟨h.once hfront, hseen.once, ?_⟩
    intro i hi j hj heq
    obtain ⟨x, hx, rfl⟩ := List.mem_map.mp hi
    obtain ⟨y, hy, rfl⟩ := List.mem_map.mp hj
    obtain ⟨m, hm, hrow⟩ := (hseen.mem y hy).1
    exact hfront n m x y (Nat.le_of_succ_le hm) (h.mem x hx).1 hrow heq (hafter x hx y hy)
  · exact List.pairwise_append.mpr ⟨h.sorted, hseen.sorted, hafter⟩
  · intro y hy
    rcases List.mem_append.mp hy with hy | hy
    · exact ⟨⟨n, Nat.le_refl _, (h.mem y hy).1⟩, (h.mem y hy).2⟩
    · obtain ⟨⟨m, hm, hrow⟩, -⟩ := hseen.mem y hy
      refine ⟨⟨m, Nat.le_of_succ_le hm, hrow⟩, fun x hx => ?_⟩
      exact htrans _ _ _ ((h.mem last hmem).2 x hx) (hafter last hmem y hy)
  · intro i P hP hrows ⟨y, hy, hbelow⟩
    rw [List.map_append, List.mem_append]
    obtain ⟨z, hz, rfl, hPz⟩ := hrows n (Nat.le_refl _)
    rcases h.rest z hz fun x hx => hP x y z hy hPz (hbelow x hx) with hmem | ⟨-, hlater⟩
    · exact .inl (List.mem_map_of_mem hmem)
    · refine .inr (hseen.stays _ P hP (fun m hm => hrows m (Nat.le_of_succ_le hm))
        ⟨z, hPz, fun x hx => ?_⟩)
      cases hx
      exact hlater _ hlast

/-- In a list whose elements only move to the front, nothing is seen twice, and nothing that
keeps its place is missed. -/
theorem seen_of_listing (htrans : ∀ x y z, below x y → below y z → below x z)
    (hfront : ∀ m n x y, m ≤ n → x ∈ rows m → y ∈ rows n → id x = id y → ¬ below x y)
    (hserve : ∀ n before answer, (∀ x ∈ before, ∃ m, x ∈ rows m) →
      serve n (before.map cursor) = some answer → ∃ page more,
        Page below (rows n) before page more ∧
        answer = (page.map view, if more then page.getLast?.map cursor else none))
    {n : ℕ} {before : Option α} {listed : List β} (hbefore : ∀ x ∈ before, ∃ m, x ∈ rows m)
    (h : Listing serve n (before.map cursor) listed) :
    ∃ seen, listed = seen.map view ∧ Seen rows below id n before seen := by
  generalize hcursor : before.map cursor = key at h
  induction h generalizing before with
  | @last n key answer hanswer =>
      subst hcursor
      obtain ⟨page, more, hpage, heq⟩ := hserve n before _ hbefore hanswer
      obtain ⟨rfl, hnone⟩ := Prod.mk.inj heq
      cases more with
      | false => exact ⟨page, rfl, hpage.seen hfront⟩
      | true =>
          -- a page that is not the last one has a cursor
          rw [if_pos rfl, List.getLast?_eq_some_getLast (hpage.full rfl)] at hnone
          cases hnone
  | @next n key answer rest next hanswer _ ih =>
      subst hcursor
      obtain ⟨page, more, hpage, heq⟩ := hserve n before _ hbefore hanswer
      obtain ⟨rfl, hnext⟩ := Prod.mk.inj heq
      cases more with
      | false => cases hnext
      | true =>
          have hlast := List.getLast?_eq_some_getLast (hpage.full rfl)
          generalize page.getLast (hpage.full rfl) = last at hlast
          have hmem : last ∈ page := List.mem_of_getLast? hlast
          rw [if_pos rfl, hlast] at hnext
          have hrest : ∃ seen, rest = seen.map view ∧
              Seen rows below id (n + 1) (some last) seen :=
            ih (by simpa using ⟨n, (hpage.mem last hmem).1⟩) hnext.symm
          obtain ⟨seen, rfl, hseen⟩ := hrest
          exact ⟨page ++ seen, (List.map_append).symm,
            hpage.seen_append htrans hfront hlast hseen⟩

end Changing
end StoryReview.Cursors
