import Mathlib.Data.List.Induction
import Mathlib.Data.List.Nodup

/-!
# Insertion-ordered dictionaries

A dictionary keeps its entries in the order in which their keys were first set;
setting a present key replaces the value in place. The distinctness of the keys
is a field, so a lookup has at most one answer.
-/
namespace StoryReview

structure OrderedDict (κ ν : Type) where
  entries : List (κ × ν)
  nodup : (entries.map Prod.fst).Nodup

namespace OrderedDict
variable {κ ν α : Type} [DecidableEq κ]

def empty : OrderedDict κ ν := ⟨[], List.nodup_nil⟩

def keys (d : OrderedDict κ ν) : List κ := d.entries.map Prod.fst

omit [DecidableEq κ] in
@[simp] theorem keys_empty : (empty : OrderedDict κ ν).keys = [] := rfl

omit [DecidableEq κ] in
theorem nodup_keys (d : OrderedDict κ ν) : d.keys.Nodup := d.nodup

def values (d : OrderedDict κ ν) : List ν := d.entries.map Prod.snd

/-- Replace the value of a present key where it stands, or append the entry. -/
def setEntry (k : κ) (v : ν) : List (κ × ν) → List (κ × ν)
  | [] => [(k, v)]
  | e :: es => if e.1 = k then (k, v) :: es else e :: setEntry k v es

theorem setEntry_keys (k : κ) (v : ν) (es : List (κ × ν)) :
    (setEntry k v es).map Prod.fst =
      if k ∈ es.map Prod.fst then es.map Prod.fst else es.map Prod.fst ++ [k] := by
  induction es with
  | nil => rfl
  | cons e es ih =>
      simp only [setEntry]
      split_ifs with h₁ h₂ h₂
      · simp [h₁]
      · exact absurd (by simp [h₁]) h₂
      · have hk : k ∈ es.map Prod.fst := by
          simpa [Ne.symm h₁] using h₂
        simp [ih, hk]
      · have hk : k ∉ es.map Prod.fst := fun h => h₂ (by simp [h])
        simp only [List.map_cons, ih, if_neg hk, List.cons_append]

/-- `d[k] = v`. -/
def set (d : OrderedDict κ ν) (k : κ) (v : ν) : OrderedDict κ ν where
  entries := setEntry k v d.entries
  nodup := by
    rw [setEntry_keys]
    split_ifs with h
    · exact d.nodup
    · refine List.nodup_append.mpr ⟨d.nodup, List.nodup_singleton k, ?_⟩
      intro a ha b hb hab
      exact h (List.mem_singleton.mp hb ▸ hab ▸ ha)

/-- `d.get(k)`. -/
def get? (d : OrderedDict κ ν) (k : κ) : Option ν :=
  (d.entries.find? fun e => decide (e.1 = k)).map Prod.snd

/-- `d.setdefault(k, v)`, for its effect. -/
def setDefault (d : OrderedDict κ ν) (k : κ) (v : ν) : OrderedDict κ ν :=
  if (d.get? k).isSome then d else d.set k v

/-- `{key(x): x for x in xs}`. -/
def ofList (key : α → κ) (xs : List α) : OrderedDict κ α :=
  xs.foldl (fun d x => d.set (key x) x) empty

/-- `for x in xs: d.setdefault(key(x), value(x))`. -/
def setDefaults (d : OrderedDict κ ν) (key : α → κ) (value : α → ν) (xs : List α) :
    OrderedDict κ ν :=
  xs.foldl (fun d x => d.setDefault (key x) (value x)) d

@[simp] theorem get?_empty (k : κ) : (empty : OrderedDict κ ν).get? k = none := rfl

theorem get?_set (d : OrderedDict κ ν) (k k' : κ) (v : ν) :
    (d.set k v).get? k' = if k = k' then some v else d.get? k' := by
  obtain ⟨es, hes⟩ := d
  simp only [get?, set]
  clear hes
  induction es with
  | nil => by_cases h : k = k' <;> simp [setEntry, h]
  | cons e es ih =>
      simp only [setEntry]
      by_cases h₁ : e.1 = k
      · by_cases h₂ : k = k' <;> simp [h₁, h₂]
      · by_cases h₂ : e.1 = k'
        · have h₃ : k ≠ k' := fun h => h₁ (h₂.trans h.symm)
          simp [h₂, h₃, Ne.symm h₃]
        · simpa only [h₁, if_false, List.find?_cons, h₂, decide_false] using ih

theorem keys_set (d : OrderedDict κ ν) (k : κ) (v : ν) :
    (d.set k v).keys = if k ∈ d.keys then d.keys else d.keys ++ [k] :=
  setEntry_keys k v d.entries

theorem mem_keys_set {d : OrderedDict κ ν} {k k' : κ} {v : ν} :
    k' ∈ (d.set k v).keys ↔ k' = k ∨ k' ∈ d.keys := by
  rw [keys_set]
  split_ifs with h
  · exact ⟨Or.inr, fun h' => h'.elim (fun e => e ▸ h) id⟩
  · simp [or_comm]

theorem mem_keys_iff {d : OrderedDict κ ν} {k : κ} : k ∈ d.keys ↔ (d.get? k).isSome := by
  simp only [keys, get?, List.mem_map, Option.isSome_map, List.find?_isSome,
    decide_eq_true_eq]

theorem mem_keys_setDefault {d : OrderedDict κ ν} {k k' : κ} {v : ν} :
    k' ∈ (d.setDefault k v).keys ↔ k' = k ∨ k' ∈ d.keys := by
  unfold setDefault
  split_ifs with h
  · exact ⟨Or.inr, fun h' => h'.elim (fun e => e ▸ mem_keys_iff.mpr h) id⟩
  · exact mem_keys_set

theorem mem_keys_setDefaults {d : OrderedDict κ ν} {key : α → κ} {value : α → ν}
    {xs : List α} {k : κ} :
    k ∈ (d.setDefaults key value xs).keys ↔ k ∈ d.keys ∨ ∃ x ∈ xs, key x = k := by
  induction xs generalizing d with
  | nil => simp [setDefaults]
  | cons x xs ih =>
      rw [show d.setDefaults key value (x :: xs) =
        (d.setDefault (key x) (value x)).setDefaults key value xs from rfl, ih,
        mem_keys_setDefault]
      simp only [List.mem_cons, exists_eq_or_imp]
      rw [eq_comm (a := k)]
      tauto

theorem get?_eq_some_of_mem {d : OrderedDict κ ν} {k : κ} {v : ν}
    (h : (k, v) ∈ d.entries) : d.get? k = some v := by
  obtain ⟨es, hes⟩ := d
  simp only [get?]
  induction es with
  | nil => simp at h
  | cons e es ih =>
      obtain ⟨he, hes'⟩ := List.nodup_cons.mp hes
      rcases List.mem_cons.mp h with rfl | h'
      · simp
      · have hne : e.1 ≠ k := fun hk => he (hk ▸ List.mem_map_of_mem (f := Prod.fst) h')
        simpa [List.find?_cons, hne] using ih hes' h'

theorem mem_values_of_get? {d : OrderedDict κ ν} {k : κ} {v : ν}
    (h : d.get? k = some v) : v ∈ d.values := by
  simp only [get?, Option.map_eq_some_iff] at h
  obtain ⟨e, he, rfl⟩ := h
  exact List.mem_map_of_mem (f := Prod.snd) (List.mem_of_find?_eq_some he)

theorem mem_setEntry {k : κ} {v : ν} {es : List (κ × ν)} {e : κ × ν}
    (h : e ∈ setEntry k v es) : e = (k, v) ∨ e ∈ es := by
  induction es with
  | nil => exact .inl (List.mem_singleton.mp h)
  | cons e' es ih =>
      simp only [setEntry] at h
      split_ifs at h
      · exact (List.mem_cons.mp h).imp_right (List.mem_cons_of_mem _)
      · rcases List.mem_cons.mp h with rfl | h
        · exact .inr List.mem_cons_self
        · exact (ih h).imp_right (List.mem_cons_of_mem _)

/-- An entry is an old one or comes from one of the elements. -/
theorem mem_entries_setDefaults {d : OrderedDict κ ν} {key : α → κ} {value : α → ν}
    {xs : List α} {e : κ × ν} (h : e ∈ (d.setDefaults key value xs).entries) :
    e ∈ d.entries ∨ ∃ x ∈ xs, e = (key x, value x) := by
  induction xs generalizing d with
  | nil => exact .inl h
  | cons x xs ih =>
      rcases ih (d := d.setDefault (key x) (value x)) h with hold | ⟨y, hy, rfl⟩
      · unfold setDefault at hold
        split_ifs at hold
        · exact .inl hold
        · rcases mem_setEntry hold with rfl | hold
          · exact .inr ⟨x, List.mem_cons_self, rfl⟩
          · exact .inl hold
      · exact .inr ⟨y, List.mem_cons_of_mem _ hy, rfl⟩

omit [DecidableEq κ] in
/-- Where every entry is filed under the key of its value, the values carry the keys. -/
theorem map_values_eq_keys {d : OrderedDict κ ν} {f : ν → κ}
    (h : ∀ e ∈ d.entries, e.1 = f e.2) : d.values.map f = d.keys := by
  simp only [values, keys, List.map_map]
  exact List.map_congr_left fun e he => (h e he).symm

section OfList
variable (key : α → κ)

@[simp] theorem ofList_nil : ofList key ([] : List α) = empty := rfl

theorem ofList_concat (xs : List α) (x : α) :
    ofList key (xs ++ [x]) = (ofList key xs).set (key x) x := by
  simp [ofList]

/-- Latest wins: a key maps to the last element that carries it. -/
theorem get?_ofList (xs : List α) (k : κ) :
    (ofList key xs).get? k = xs.reverse.find? fun x => decide (key x = k) := by
  induction xs using List.reverseRecOn with
  | nil => rfl
  | append_singleton xs x ih =>
      rw [ofList_concat, get?_set, List.reverse_append, List.reverse_singleton,
        List.singleton_append, List.find?_cons, ih]
      by_cases h : key x = k <;> simp [h]

/-- Of two runs of assignments the later one decides, where it says anything. -/
theorem get?_ofList_append (xs ys : List α) (k : κ) :
    (ofList key (xs ++ ys)).get? k = ((ofList key ys).get? k).or ((ofList key xs).get? k) := by
  simp only [get?_ofList, List.reverse_append, List.find?_append]

theorem mem_keys_ofList {xs : List α} {k : κ} :
    k ∈ (ofList key xs).keys ↔ ∃ x ∈ xs, key x = k := by
  simp [mem_keys_iff, get?_ofList]

/-- Every entry is filed under its own key. -/
theorem key_of_mem_entries {xs : List α} {e : κ × α}
    (h : e ∈ (ofList key xs).entries) : e.1 = key e.2 := by
  have hget := get?_eq_some_of_mem (d := ofList key xs) (k := e.1) (v := e.2) h
  rw [get?_ofList] at hget
  have hkey := List.find?_some hget
  exact (of_decide_eq_true hkey).symm

theorem map_key_values (xs : List α) :
    (ofList key xs).values.map key = (ofList key xs).keys :=
  map_values_eq_keys fun _ he => key_of_mem_entries key he

theorem mem_values_ofList {xs : List α} {x : α} (h : x ∈ (ofList key xs).values) :
    x ∈ xs := by
  obtain ⟨e, he, rfl⟩ := List.mem_map.mp h
  have hget := get?_eq_some_of_mem (d := ofList key xs) (k := e.1) (v := e.2) he
  rw [get?_ofList] at hget
  exact List.mem_reverse.mp (List.mem_of_find?_eq_some hget)

/-- A value is what its own key looks up. -/
theorem get?_of_mem_values {xs : List α} {x : α} (h : x ∈ (ofList key xs).values) :
    (ofList key xs).get? (key x) = some x := by
  obtain ⟨e, he, rfl⟩ := List.mem_map.mp h
  rw [← key_of_mem_entries key he]
  exact get?_eq_some_of_mem he

/-- With distinct keys nothing is overridden. -/
theorem get?_ofList_of_nodup {xs : List α} (hxs : (xs.map key).Nodup) {x : α}
    (hx : x ∈ xs) : (ofList key xs).get? (key x) = some x := by
  rw [get?_ofList, List.find?_eq_some_iff_append]
  obtain ⟨as, bs, rfl⟩ := List.append_of_mem hx
  refine ⟨by simp, bs.reverse, as.reverse, by simp, fun y hy => ?_⟩
  have hne : key y ≠ key x := by
    have h := (List.nodup_append.mp (by simpa using hxs)).2.1
    exact fun he => (List.nodup_cons.mp h).1
      (he ▸ List.mem_map_of_mem (List.mem_reverse.mp hy))
  simpa using hne

/-- Rebuilding a dictionary from its own values changes no lookup. -/
theorem get?_ofList_values (xs : List α) (k : κ) :
    (ofList key (ofList key xs).values).get? k = (ofList key xs).get? k := by
  have hnd : ((ofList key xs).values.map key).Nodup := by
    rw [map_key_values]
    exact nodup_keys _
  cases h : (ofList key xs).get? k with
  | some x =>
      have hk : key x = k := by
        rw [get?_ofList] at h
        have hkey := List.find?_some h
        exact of_decide_eq_true hkey
      rw [← hk]
      exact get?_ofList_of_nodup key hnd (mem_values_of_get? h)
  | none =>
      rw [← Option.not_isSome_iff_eq_none, ← mem_keys_iff, mem_keys_ofList]
      rintro ⟨x, hx, rfl⟩
      have hmem : key x ∈ (ofList key xs).keys := by
        rw [← map_key_values]
        exact List.mem_map_of_mem hx
      rw [mem_keys_iff, h] at hmem
      exact Bool.false_ne_true hmem

end OfList
end OrderedDict
end StoryReview
