import Std.Data.ExtTreeSet
import InfoFlow.Value.Basic

/-!
# Stored members

What is stored of a set of values: nothing for the empty set, and otherwise the tree of its members, which all
copies of the set share.  Nothing in the type keeps an empty tree from being stored, which `Canonical` says is not
the case:

* `ofTree`, `union`, `diff`: the ways to make a set, each with its members (`mem_tree_union`, ...) and the reason why
  it stores no empty tree (`canonical_ofTree`, `Canonical.union`, ...);
* `isSubset`: inclusion, where it can be known beforehand that both sets are one shared tree; `isWithin` finds that
  out by itself.
-/

namespace InfoFlow

open Std

/-- the tree of the members, if there are any -/
abbrev Members := Option (ExtTreeSet Value compare)

namespace Members

/-- the members -/
def tree (s : Members) : ExtTreeSet Value compare := s.getD ∅

/-- no empty tree is stored -/
def Canonical (s : Members) : Prop := s ≠ some ∅

theorem Canonical.empty : Canonical none := nofun

/-- stored sets with the same members are one -/
theorem Canonical.ext {s t : Members} (hs : s.Canonical) (ht : t.Canonical)
    (h : ∀ v, v ∈ s.tree ↔ v ∈ t.tree) : s = t := by
  have ht' : s.tree = t.tree := ExtTreeSet.ext_mem h
  cases s with
  | none =>
    cases t with
    | none => rfl
    | some t => exact absurd (congrArg some ht'.symm) ht
  | some s =>
    cases t with
    | none => exact absurd (congrArg some ht') hs
    | some t => exact congrArg some ht'

/-! ## making sets -/

def ofTree (t : ExtTreeSet Value compare) : Members := if t.isEmpty then none else some t

@[simp] theorem tree_ofTree (t : ExtTreeSet Value compare) : (ofTree t).tree = t := by
  unfold ofTree
  split
  · next h => exact (ExtTreeSet.isEmpty_iff.1 h).symm
  · rfl

theorem canonical_ofTree (t : ExtTreeSet Value compare) : (ofTree t).Canonical := by
  unfold ofTree
  split
  · exact .empty
  · next h =>
    intro e
    exact h (ExtTreeSet.isEmpty_iff.2 (Option.some.inj e))

/-- the set of the values in a list, in whatever order and however often they occur there -/
def ofList (vs : List Value) : Members := ofTree (ExtTreeSet.ofList vs compare)

theorem mem_tree_ofList {v : Value} {vs : List Value} : v ∈ (ofList vs).tree ↔ v ∈ vs := by
  rw [ofList, tree_ofTree]
  simp [ExtTreeSet.mem_ofList]

def singleton (v : Value) : Members := ofTree ((∅ : ExtTreeSet Value compare).insert v)

theorem mem_tree_singleton {v w : Value} : v ∈ (singleton w).tree ↔ v = w := by
  rw [singleton, tree_ofTree, ExtTreeSet.mem_insert, Std.compare_eq_iff_eq]
  exact (or_iff_left ExtTreeSet.not_mem_empty).trans eq_comm

/-! ## inclusion -/

/-- whether every member of `s` is in `t`.  Where both are known to be `one` shared tree, no member is looked at. -/
def isSubset (one : Bool) : Members → Members → Bool
  | none, _ => true
  | some _, none => false
  | some s, some t => one || s.toList.all (· ∈ t)

theorem isSubset_iff {one : Bool} {s t : Members} (hone : one = true → s = t) (hs : s.Canonical) :
    s.isSubset one t = true ↔ ∀ v ∈ s.tree, v ∈ t.tree := by
  cases s with
  | none => exact ⟨fun _ v hv => absurd hv ExtTreeSet.not_mem_empty, fun _ => rfl⟩
  | some s =>
    cases t with
    | none =>
      refine ⟨fun h => absurd h Bool.false_ne_true, fun h => absurd (congrArg some ?_) hs⟩
      exact ExtTreeSet.ext_mem fun v => ⟨h v, fun hv => absurd hv ExtTreeSet.not_mem_empty⟩
    | some t =>
      show (one || s.toList.all (· ∈ t)) = true ↔ ∀ v ∈ s, v ∈ t
      rw [Bool.or_eq_true, List.all_eq_true]
      simp only [ExtTreeSet.mem_toList, decide_eq_true_eq]
      -- one shared tree has no member that the other lacks
      refine or_iff_right_of_imp fun h v hv => ?_
      rwa [← Option.some.inj (hone h)]

theorem isSubset_self (s : Members) : s.isSubset false s = true := by
  cases s with
  | none => rfl
  | some s =>
    show s.toList.all (· ∈ s) = true
    simp

/-- what is known beforehand does not change the answer -/
theorem isSubset_of_known {one : Bool} {s t : Members} (hone : one = true → s = t) :
    s.isSubset one t = s.isSubset false t := by
  cases one with
  | false => rfl
  | true =>
    rw [hone rfl, isSubset_self]
    cases t <;> rfl

/-- inclusion, after a look whether both are one object -/
def isWithin (s t : Members) : Bool :=
  withPtrEq s t (fun _ => s.isSubset false t) fun h => by rw [h, isSubset_self]

theorem isWithin_eq {one : Bool} {s t : Members} (hone : one = true → s = t) : s.isWithin t = s.isSubset one t :=
  (isSubset_of_known hone).symm

/-! ## union and difference -/

/-- the union, where `sub` decides inclusion; an operand that has every member already is handed back as it is -/
def union (sub : Members → Members → Bool) (s t : Members) : Members :=
  if sub t s then s else if sub s t then t else ofTree (s.tree ∪ t.tree)

/-- the difference; taking nothing away hands the set back as it is -/
def diff (s t : Members) : Members := if t.isNone then s else ofTree (s.tree \ t.tree)

section
variable {sub : Members → Members → Bool} {s t : Members} {v : Value}

theorem mem_tree_union (hst : sub s t = true → ∀ v ∈ s.tree, v ∈ t.tree)
    (hts : sub t s = true → ∀ v ∈ t.tree, v ∈ s.tree) : v ∈ (union sub s t).tree ↔ v ∈ s.tree ∨ v ∈ t.tree := by
  unfold union
  split
  · next h => exact ⟨.inl, fun k => k.elim id (hts h v)⟩
  · split
    · next h => exact ⟨.inr, fun k => k.elim (hst h v) id⟩
    · rw [tree_ofTree]
      exact ExtTreeSet.mem_union_iff

theorem Canonical.union (hs : s.Canonical) (ht : t.Canonical) : (union sub s t).Canonical := by
  unfold Members.union
  split
  · exact hs
  · split
    · exact ht
    · exact canonical_ofTree _

theorem mem_tree_diff : v ∈ (diff s t).tree ↔ v ∈ s.tree ∧ v ∉ t.tree := by
  unfold diff
  split
  · next h =>
    rw [Option.isNone_iff_eq_none.1 h]
    exact ⟨fun k => ⟨k, ExtTreeSet.not_mem_empty⟩, And.left⟩
  · rw [tree_ofTree]
    exact ExtTreeSet.mem_diff_iff

theorem Canonical.diff (hs : s.Canonical) (t : Members) : (diff s t).Canonical := by
  unfold Members.diff
  split
  · exact hs
  · exact canonical_ofTree _

end

end Members

end InfoFlow
