import Mathlib.Data.List.Basic

/-!
# Exception groups

An exception is raised bare or inside groups of any shape. An `except*` clause sees the
part of a group that it matches, a bare exception as a group of its own; what the clause
raises instead leaves together with the part that it did not match, in a new group. Some
interpreters leave the new group out when there is one exception only.
-/
namespace StoryReview

/-- A group has at least one member. -/
inductive Raised (ε : Type) where
  | leaf (e : ε)
  | group (message : String) (first : Raised ε) (rest : List (Raised ε))

namespace Raised
variable {ε : Type} (p : ε → Bool)

mutual
/-- The exceptions of a group, depth first. -/
def leaves : Raised ε → List ε
  | leaf e => [e]
  | group _ first rest => first.leaves ++ leavesAll rest

def leavesAll : List (Raised ε) → List ε
  | [] => []
  | e :: es => e.leaves ++ leavesAll es
end

def regroup (message : String) : List (Raised ε) → Option (Raised ε)
  | [] => none
  | e :: es => some (group message e es)

mutual
/-- The part of a group whose leaves satisfy the predicate, in its shape. -/
def subgroup : Raised ε → Option (Raised ε)
  | leaf e => if p e then some (leaf e) else none
  | group message first rest => regroup message (first.subgroup.toList ++ subgroupAll rest)

def subgroupAll : List (Raised ε) → List (Raised ε)
  | [] => []
  | e :: es => e.subgroup.toList ++ subgroupAll es
end

/-- The depth-first first leaf. -/
def firstLeaf : Raised ε → ε
  | leaf e => e
  | group _ first _ => first.firstLeaf

/-- A group of one is kept around a lone exception if `wrapsOne`. -/
def merge (wrapsOne : Bool) (raised : ε) : Option (Raised ε) → Raised ε
  | some rest => group "" (leaf raised) [rest]
  | none => if wrapsOne then group "" (leaf raised) [] else leaf raised

/-- What leaves `except* … as group: raise handler(group)` over the exception. -/
def exceptStar (wrapsOne : Bool) (handler : Raised ε → ε) : Raised ε → Raised ε
  | leaf e => if p e then leaf (handler (group "" (leaf e) [])) else leaf e
  | group message first rest =>
      match (group message first rest).subgroup p with
      | none => group message first rest
      | some matched =>
          merge wrapsOne (handler matched) ((group message first rest).subgroup fun e => !p e)

/-! ## Leaves -/

theorem leavesAll_append (es es' : List (Raised ε)) :
    leavesAll (es ++ es') = leavesAll es ++ leavesAll es' := by
  induction es with
  | nil => rfl
  | cons e es ih => rw [List.cons_append, leavesAll, ih, leavesAll, List.append_assoc]

theorem leavesAll_toList (e : Option (Raised ε)) :
    leavesAll e.toList = e.elim [] leaves := by
  cases e with
  | none => rfl
  | some e => exact List.append_nil _

theorem leaves_regroup (message : String) (es : List (Raised ε)) :
    (regroup message es).elim [] leaves = leavesAll es := by
  cases es <;> rfl

mutual
theorem leaves_subgroup : ∀ e : Raised ε, (e.subgroup p).elim [] leaves = e.leaves.filter p
  | leaf e => by
      rw [subgroup, leaves]
      cases h : p e <;> simp [h, leaves]
  | group message first rest => by
      rw [subgroup, leaves_regroup, leavesAll_append, leavesAll_toList, leaves_subgroup first,
        leavesAll_subgroupAll rest, leaves, List.filter_append]

theorem leavesAll_subgroupAll :
    ∀ es : List (Raised ε), leavesAll (subgroupAll p es) = (leavesAll es).filter p
  | [] => rfl
  | e :: es => by
      rw [subgroupAll, leavesAll_append, leavesAll_toList, leaves_subgroup e,
        leavesAll_subgroupAll es, leavesAll, List.filter_append]
end

variable {p}

variable {wrapsOne : Bool} {e : Raised ε} {x : ε} {xs : List ε}

end Raised
end StoryReview
