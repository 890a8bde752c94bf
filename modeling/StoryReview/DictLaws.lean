import Mathlib.Data.List.Nodup
import StoryReview.OrderedDict

/-!
# Laws of insertion-ordered dictionaries

The keys of a dictionary stand in the order of their first assignment, whatever
is assigned later. A run of assignments can therefore be cut at any point and
resumed from the values it has left.
-/
namespace StoryReview.OrderedDict

variable {κ ν α : Type}

theorem ext_entries {d e : OrderedDict κ ν} (h : d.entries = e.entries) : d = e := by
  obtain ⟨es, hes⟩ := d
  obtain ⟨fs, hfs⟩ := e
  cases h
  rfl

variable [DecidableEq κ]

/-! ## First occurrences -/

theorem eraseDups_concat (ks : List κ) (k : κ) :
    (ks ++ [k]).eraseDups = if k ∈ ks then ks.eraseDups else ks.eraseDups ++ [k] := by
  rw [List.eraseDups_append]
  by_cases h : k ∈ ks
  · simp [h, List.removeAll]
  · simp [h, List.removeAll, List.eraseDups_cons]

theorem nodup_eraseDups (ks : List κ) : ks.eraseDups.Nodup := by
  induction ks using List.reverseRecOn with
  | nil => exact List.nodup_nil
  | append_singleton ks k ih =>
      rw [eraseDups_concat]
      split_ifs with h
      · exact ih
      · refine List.nodup_append.mpr ⟨ih, List.nodup_singleton k, ?_⟩
        intro a ha b hb hab
        rw [hab, List.mem_singleton.mp hb] at ha
        exact h (List.mem_eraseDups.mp ha)

theorem eraseDups_of_nodup {ks : List κ} (h : ks.Nodup) : ks.eraseDups = ks := by
  induction ks using List.reverseRecOn with
  | nil => rfl
  | append_singleton ks k ih =>
      have hk : k ∉ ks := fun hmem =>
        (List.nodup_append.mp h).2.2 k hmem k (List.mem_singleton_self k) rfl
      rw [eraseDups_concat, if_neg hk, ih (List.nodup_append.mp h).1]

theorem eraseDups_eraseDups_append (ks ls : List κ) :
    (ks.eraseDups ++ ls).eraseDups = (ks ++ ls).eraseDups := by
  induction ls using List.reverseRecOn with
  | nil => rw [List.append_nil, List.append_nil, eraseDups_of_nodup (nodup_eraseDups ks)]
  | append_singleton ls l ih =>
      rw [← List.append_assoc, ← List.append_assoc, eraseDups_concat, eraseDups_concat, ih]
      simp only [List.mem_append, List.mem_eraseDups]

theorem keys_set_of_eq {d : OrderedDict κ ν} {ks : List κ} (h : d.keys = ks.eraseDups) (k : κ)
    (v : ν) : (d.set k v).keys = (ks ++ [k]).eraseDups := by
  rw [keys_set, h, eraseDups_concat]
  simp only [List.mem_eraseDups]

/-! ## Runs of assignments -/

section OfList
variable (key : α → κ)

theorem keys_ofList (xs : List α) : (ofList key xs).keys = (xs.map key).eraseDups := by
  induction xs using List.reverseRecOn with
  | nil => rfl
  | append_singleton xs x ih =>
      rw [ofList_concat, List.map_append, List.map_singleton]
      exact keys_set_of_eq ih _ _

theorem setEntry_of_notMem {k : κ} {v : ν} {es : List (κ × ν)} (h : k ∉ es.map Prod.fst) :
    setEntry k v es = es ++ [(k, v)] := by
  induction es with
  | nil => rfl
  | cons e es ih =>
      rw [List.map_cons, List.mem_cons, not_or] at h
      rw [setEntry, if_neg (Ne.symm h.1), ih h.2, List.cons_append]

/-- With distinct keys every assignment appends. -/
theorem entries_ofList_of_nodup {xs : List α} (h : (xs.map key).Nodup) :
    (ofList key xs).entries = xs.map fun x => (key x, x) := by
  induction xs using List.reverseRecOn with
  | nil => rfl
  | append_singleton xs x ih =>
      rw [List.map_append, List.map_singleton] at h
      have hxs := ih (List.nodup_append.mp h).1
      have hx : key x ∉ (ofList key xs).entries.map Prod.fst := by
        rw [hxs, List.map_map]
        intro hmem
        exact (List.nodup_append.mp h).2.2 _ hmem _ (List.mem_singleton_self _) rfl
      have hset : (ofList key (xs ++ [x])).entries = (ofList key xs).entries ++ [(key x, x)] := by
        rw [ofList_concat]
        exact setEntry_of_notMem hx
      rw [hset, hxs, List.map_append, List.map_singleton]

/-- The values left are assigned again without effect. -/
theorem ofList_values (xs : List α) : ofList key (ofList key xs).values = ofList key xs := by
  have hnodup : ((ofList key xs).values.map key).Nodup := by
    rw [map_key_values]
    exact nodup_keys _
  apply ext_entries
  rw [entries_ofList_of_nodup key hnodup, values, List.map_map]
  calc (ofList key xs).entries.map ((fun x => (key x, x)) ∘ Prod.snd)
      = (ofList key xs).entries.map id :=
        List.map_congr_left fun e he => by
          rw [Function.comp_apply, ← key_of_mem_entries key he, id_eq]
    _ = (ofList key xs).entries := List.map_id _

theorem ofList_append (xs ys : List α) :
    ofList key (xs ++ ys) = ys.foldl (fun d y => d.set (key y) y) (ofList key xs) := by
  rw [ofList, List.foldl_append, ofList]

/-- A run of assignments is resumed from the values of its first part. -/
theorem ofList_values_append (xs ys : List α) :
    ofList key ((ofList key xs).values ++ ys) = ofList key (xs ++ ys) := by
  rw [ofList_append, ofList_values, ← ofList_append]

end OfList

/-! ## Runs of defaults -/

section Defaults
variable {key : α → κ} {value : α → ν}

theorem keys_setDefault (d : OrderedDict κ ν) (k : κ) (v : ν) :
    (d.setDefault k v).keys = if k ∈ d.keys then d.keys else d.keys ++ [k] := by
  unfold setDefault
  split_ifs with hsome hmem hmem
  · rfl
  · exact absurd (mem_keys_iff.mpr hsome) hmem
  · exact absurd (mem_keys_iff.mp hmem) hsome
  · rw [keys_set, if_neg hmem]

theorem get?_setDefault (d : OrderedDict κ ν) (k k' : κ) (v : ν) :
    (d.setDefault k v).get? k' = (d.get? k').or (if k = k' then some v else none) := by
  unfold setDefault
  by_cases hk : k = k'
  · subst hk
    cases hget : d.get? k with
    | none => simp [get?_set]
    | some u => simp [hget]
  · rw [if_neg hk, Option.or_none]
    split_ifs
    · rfl
    · rw [get?_set, if_neg hk]

theorem setDefaults_concat (d : OrderedDict κ ν) (xs : List α) (x : α) :
    d.setDefaults key value (xs ++ [x]) =
      (d.setDefaults key value xs).setDefault (key x) (value x) := by
  simp [setDefaults]

/-- The keys present come first, then the new ones in order. -/
theorem keys_setDefaults (d : OrderedDict κ ν) (xs : List α) :
    (d.setDefaults key value xs).keys = (d.keys ++ xs.map key).eraseDups := by
  induction xs using List.reverseRecOn with
  | nil =>
      rw [List.map_nil, List.append_nil, eraseDups_of_nodup d.nodup_keys]
      rfl
  | append_singleton xs x ih =>
      rw [setDefaults_concat, keys_setDefault, ih, List.map_append, List.map_singleton,
        ← List.append_assoc, eraseDups_concat]
      simp only [List.mem_eraseDups]

/-- A key present keeps its value, any other takes its first default. -/
theorem get?_setDefaults (d : OrderedDict κ ν) (xs : List α) (k : κ) :
    (d.setDefaults key value xs).get? k =
      (d.get? k).or ((xs.find? fun x => decide (key x = k)).map value) := by
  induction xs using List.reverseRecOn with
  | nil => simp [setDefaults]
  | append_singleton xs x ih =>
      rw [setDefaults_concat, get?_setDefault, ih, List.find?_append, Option.or_assoc,
        Option.map_or]
      by_cases hx : key x = k <;> simp [hx]

end Defaults
end StoryReview.OrderedDict
