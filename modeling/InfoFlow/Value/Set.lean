import InfoFlow.Facts
import InfoFlow.Value.Members

/-!
# Sets of values

`ValueSet` is a finite set of values, listed in increasing order by `toList`; the empty set stores nothing.  Two sets
are equal exactly when they have the same members (`ValueSet.ext`).

* `mem_union`, `mem_diff`, `isSubset_iff`: union, difference and inclusion are those of plain sets,
  although union hands back an operand that already has every member, and inclusion looks first
  whether the two sets are one object;
* `addresses`: the addresses among the members.

`AddressSet` is a finite set of addresses.
-/

namespace InfoFlow

open Std

/-- finite sets of addresses, in increasing order -/
abbrev AddressSet := ExtTreeSet Address compare

structure ValueSet where
  members : Members
  canonical : members.Canonical
deriving DecidableEq

namespace ValueSet

instance : EmptyCollection ValueSet := ⟨⟨none, .empty⟩⟩

instance : Inhabited ValueSet := ⟨∅⟩

instance : Membership Value ValueSet := ⟨fun s v => v ∈ s.members.tree⟩

instance (v : Value) (s : ValueSet) : Decidable (v ∈ s) := inferInstanceAs (Decidable (v ∈ s.members.tree))

theorem members_inj {s t : ValueSet} : s.members = t.members ↔ s = t := by
  constructor
  · intro h; cases s; cases t; cases h; rfl
  · intro h; rw [h]

@[ext] theorem ext {s t : ValueSet} (h : ∀ v, v ∈ s ↔ v ∈ t) : s = t :=
  members_inj.1 (s.canonical.ext t.canonical h)

@[simp] theorem not_mem_empty (v : Value) : v ∉ (∅ : ValueSet) := ExtTreeSet.not_mem_empty

/-! ## making sets -/

def ofList (vs : List Value) : ValueSet := ⟨.ofList vs, Members.canonical_ofTree _⟩

@[simp] theorem mem_ofList {v : Value} {vs : List Value} : v ∈ ofList vs ↔ v ∈ vs := Members.mem_tree_ofList

def singleton (v : Value) : ValueSet := ⟨.singleton v, Members.canonical_ofTree _⟩

@[simp] theorem mem_singleton {v w : Value} : v ∈ singleton w ↔ v = w := Members.mem_tree_singleton

/-! ## looking at sets -/

/-- the members, each once, in increasing order -/
def toList (s : ValueSet) : List Value := s.members.tree.toList

@[simp] theorem mem_toList {v : Value} {s : ValueSet} : v ∈ s.toList ↔ v ∈ s := ExtTreeSet.mem_toList

theorem toList_sorted (s : ValueSet) : s.toList.Pairwise (compare · · = .lt) :=
  ExtTreeSet.ordered_toList

def size (s : ValueSet) : Nat := s.members.tree.size

theorem length_toList (s : ValueSet) : s.toList.length = s.size := ExtTreeSet.length_toList

/-- whether nothing is stored -/
def isEmpty (s : ValueSet) : Bool := s.members.isNone

theorem isEmpty_iff {s : ValueSet} : s.isEmpty = true ↔ s = ∅ :=
  Option.isNone_iff_eq_none.trans (members_inj (t := ∅))

/-- the addresses among the members, in increasing order -/
def addresses (s : ValueSet) : List Address := s.toList.filterMap Value.address?

theorem mem_addresses {a : Address} {s : ValueSet} : a ∈ s.addresses ↔ .address a ∈ s := by
  rw [addresses, List.mem_filterMap]
  constructor
  · rintro ⟨v, hv, ha⟩
    cases v with
    | address b => cases ha; exact mem_toList.1 hv
    | atom b => cases ha
  · exact fun h => ⟨.address a, mem_toList.2 h, rfl⟩

instance : ToString ValueSet :=
  ⟨fun s => "[" ++ ", ".intercalate (s.toList.map toString) ++ "]"⟩

/-! ## inclusion -/

/-- whether every member of `s` is in `t`; two sets that are one object need no look at the members -/
def isSubset (s t : ValueSet) : Bool := s.members.isWithin t.members

theorem isSubset_iff {s t : ValueSet} : s.isSubset t = true ↔ ∀ v ∈ s, v ∈ t :=
  Members.isSubset_iff (fun h => absurd h Bool.false_ne_true) s.canonical

instance : HasSubset ValueSet := ⟨fun s t => ∀ v ∈ s, v ∈ t⟩

instance (s t : ValueSet) : Decidable (s ⊆ t) := decidable_of_iff _ isSubset_iff

theorem subset_refl (s : ValueSet) : s ⊆ s := fun _ h => h

theorem empty_subset (s : ValueSet) : ∅ ⊆ s := fun v h => absurd h (not_mem_empty v)

theorem subset_antisymm {s t : ValueSet} (h : s ⊆ t) (k : t ⊆ s) : s = t :=
  ext fun v => ⟨h v, k v⟩

/-! ## union and difference -/

/-- the union; an operand that has every member already is handed back as it is -/
def union (s t : ValueSet) : ValueSet := ⟨.union Members.isWithin s.members t.members, s.canonical.union t.canonical⟩

instance : Union ValueSet := ⟨union⟩

@[simp] theorem mem_union {v : Value} {s t : ValueSet} : v ∈ s ∪ t ↔ v ∈ s ∨ v ∈ t :=
  Members.mem_tree_union isSubset_iff.1 isSubset_iff.1

/-- the difference; taking nothing away hands the set back as it is -/
def diff (s t : ValueSet) : ValueSet := ⟨.diff s.members t.members, s.canonical.diff t.members⟩

instance : SDiff ValueSet := ⟨diff⟩

@[simp] theorem mem_diff {v : Value} {s t : ValueSet} : v ∈ s \ t ↔ v ∈ s ∧ v ∉ t := Members.mem_tree_diff

/-! ## facts -/

theorem union_eq_right_iff {s t : ValueSet} : s ∪ t = t ↔ s ⊆ t := by
  constructor
  · intro h v hv
    rw [← h]
    exact mem_union.2 (.inl hv)
  · intro h
    ext v
    exact ⟨fun hv => (mem_union.1 hv).elim (h v) id, fun hv => mem_union.2 (.inr hv)⟩

instance : Facts ValueSet where
  union_comm a b := by ext v; simp [or_comm]
  union_assoc a b c := by ext v; simp [or_assoc]
  union_self a := by ext v; simp
  union_empty a := by ext v; simp
  diff_below a b c := by
    rw [union_eq_right_iff, union_eq_right_iff]
    constructor
    · intro h v hv
      by_cases hb : v ∈ b
      · exact mem_union.2 (.inl hb)
      · exact mem_union.2 (.inr (h v (mem_diff.2 ⟨hv, hb⟩)))
    · intro h v hv
      obtain ⟨hv, hb⟩ := mem_diff.1 hv
      exact (mem_union.1 (h v hv)).resolve_left hb

/-! ## order -/

/-- the order: nothing stored, then the increasing member lists -/
def order : ValueSet → ValueSet → Ordering := compareOn fun s => s.members.map (·.toList)

instance : Ord ValueSet := ⟨order⟩

instance : TransOrd ValueSet := inferInstanceAs (TransCmp (compareOn fun s : ValueSet => s.members.map (·.toList)))

instance : LawfulEqOrd ValueSet where
  eq_of_compare {a b} h := by
    change order a b = .eq at h
    simp only [order, compareOn, Std.compare_eq_iff_eq] at h
    have htree : ∀ s : ValueSet, s.toList = (s.members.map (·.toList)).getD [] := by
      rintro ⟨_ | t, _⟩
      · rfl
      · rfl
    ext v
    rw [← mem_toList, htree, h, ← htree, mem_toList]

end ValueSet

end InfoFlow
