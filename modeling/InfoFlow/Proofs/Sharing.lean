import InfoFlow.Proofs.Reading

/-!
# Histories of sets

A set of values can be made empty, from one value or from a list, and be joined with or taken from other sets, any
number of times.  Copies share one tree, and where both operands of a step are one shared tree, the step may notice
that and look at no member.  None of this shows:

* `Members.Built`: what comes out of such a history, whatever was noticed on the way;
* `Members.Built.canonical`, `Members.Canonical.built`: these are the sets that store no empty tree;
* `Members.AsPlainSets`: membership, inclusion, iteration, size and equality are those of plain sets;
* `shared_sets_are_plain_sets`: this holds of all histories, and they are the histories of `ValueSet`.
-/

namespace InfoFlow

open Std

namespace Members

/-! ## histories -/

/-- the set comes out of a history of operations; `one` says whether a union noticed that both its operands are
    one shared tree -/
inductive Built : Members → Prop
  | new : Built none
  | singleton (v : Value) : Built (singleton v)
  | collect (vs : List Value) : Built (ofList vs)
  | union {s t : Members} (hs : Built s) (ht : Built t) (one : Bool) (hone : one = true → s = t) :
      Built (union (isSubset one) s t)
  | diff {s t : Members} (hs : Built s) (ht : Built t) : Built (diff s t)

theorem Built.canonical {s : Members} (h : Built s) : s.Canonical := by
  induction h with
  | new => exact .empty
  | singleton v => exact canonical_ofTree _
  | collect vs => exact canonical_ofTree _
  | union _ _ one _ ihs iht => exact ihs.union iht
  | diff _ _ ihs _ => exact ihs.diff _

/-- a set is collected from its own members -/
theorem Canonical.built {s : Members} (h : s.Canonical) : Built s := by
  have hs : ofList s.tree.toList = s := by
    have hlist : (ofList s.tree.toList).Canonical := canonical_ofTree _
    apply hlist.ext h
    intro v
    rw [mem_tree_ofList, ExtTreeSet.mem_toList]
  rw [← hs]
  exact .collect _

/-! ## plain sets -/

theorem Canonical.eq_none_iff {s : Members} (h : s.Canonical) : s = none ↔ ∀ v, v ∉ s.tree := by
  constructor
  · rintro rfl v
    exact ExtTreeSet.not_mem_empty
  · intro hv
    apply h.ext .empty
    intro v
    exact ⟨fun k => absurd k (hv v), fun k => absurd k ExtTreeSet.not_mem_empty⟩

theorem Canonical.mem_tree_union {s t : Members} (hs : s.Canonical) (ht : t.Canonical) {one : Bool}
    (hone : one = true → s = t) {v : Value} :
    v ∈ (Members.union (isSubset one) s t).tree ↔ v ∈ s.tree ∨ v ∈ t.tree :=
  Members.mem_tree_union (isSubset_iff hone hs).1 (isSubset_iff (fun h => (hone h).symm) ht).1

theorem nodup_toList (s : Members) : s.tree.toList.Nodup := by
  refine List.Pairwise.imp ?_ (ExtTreeSet.ordered_toList (t := s.tree))
  rintro a _ hlt rfl
  rw [compare_self] at hlt
  cases hlt

/-- the sets in `P` are plain sets of values, whatever the operations notice about their operands -/
structure AsPlainSets (P : Members → Prop) : Prop where
  mem_union : ∀ {s t}, P s → P t → ∀ one, (one = true → s = t) →
    ∀ v, v ∈ (union (isSubset one) s t).tree ↔ v ∈ s.tree ∨ v ∈ t.tree
  mem_diff : ∀ {s t}, P s → P t → ∀ v, v ∈ (diff s t).tree ↔ v ∈ s.tree ∧ v ∉ t.tree
  isSubset_iff : ∀ {s t}, P s → P t → ∀ one, (one = true → s = t) →
    (s.isSubset one t = true ↔ ∀ v ∈ s.tree, v ∈ t.tree)
  mem_toList : ∀ {s}, P s → ∀ v, v ∈ s.tree.toList ↔ v ∈ s.tree
  increasing : ∀ {s}, P s → s.tree.toList.Pairwise (compare · · = .lt)
  nodup : ∀ {s}, P s → s.tree.toList.Nodup
  size_eq : ∀ {s}, P s → s.tree.size = s.tree.toList.length
  eq_none_iff : ∀ {s}, P s → (s = none ↔ ∀ v, v ∉ s.tree)
  beq_iff : ∀ {s t}, P s → P t → ((s == t) = true ↔ ∀ v, v ∈ s.tree ↔ v ∈ t.tree)

theorem asPlainSets_built : AsPlainSets Built where
  mem_union hs ht _ hone _ := hs.canonical.mem_tree_union ht.canonical hone
  mem_diff _ _ _ := mem_tree_diff
  isSubset_iff hs _ _ hone := isSubset_iff hone hs.canonical
  mem_toList _ _ := ExtTreeSet.mem_toList
  increasing _ := ExtTreeSet.ordered_toList
  nodup _ := nodup_toList _
  size_eq _ := ExtTreeSet.length_toList.symm
  eq_none_iff hs := hs.canonical.eq_none_iff
  beq_iff hs ht := by
    rw [beq_iff_eq]
    exact ⟨fun h _ => h ▸ Iff.rfl, hs.canonical.ext ht.canonical⟩

end Members

/-! ## the sets of the library -/

namespace ValueSet

theorem members_union {s t : ValueSet} {one : Bool} (hone : one = true → s.members = t.members) :
    (s ∪ t).members = .union (Members.isSubset one) s.members t.members := by
  show Members.union Members.isWithin s.members t.members = _
  unfold Members.union
  rw [Members.isWithin_eq hone, Members.isWithin_eq fun h => (hone h).symm]

theorem beq_eq_members (s t : ValueSet) : (s == t) = (s.members == t.members) := by
  rw [Bool.eq_iff_iff, beq_iff_eq, beq_iff_eq, members_inj]

end ValueSet

/-- **Shared sets are plain sets.**  Sets of any history have the members, the order of iteration and the size of
plain sets, are equal when their members are, and store nothing exactly if they have no member, whichever shortcuts
union and inclusion took.  `ValueSet` has these sets and these operations. -/
theorem shared_sets_are_plain_sets :
    Members.AsPlainSets Members.Built ∧
      (∀ v w : Value, v ∈ (Members.singleton w).tree ↔ v = w) ∧
      (∀ (v : Value) (vs : List Value), v ∈ (Members.ofList vs).tree ↔ v ∈ vs) ∧
      (∀ s : ValueSet, s.members.Built) ∧
      (∀ m : Members, m.Built → ∃ s : ValueSet, s.members = m) ∧
      (∀ (s t : ValueSet) (one : Bool), (one = true → s.members = t.members) →
        (s ∪ t).members = .union (Members.isSubset one) s.members t.members ∧
          s.isSubset t = s.members.isSubset one t.members) ∧
      (∀ s t : ValueSet, (s \ t).members = s.members.diff t.members ∧ (s == t) = (s.members == t.members)) ∧
      ∀ s : ValueSet, s.toList = s.members.tree.toList ∧ s.size = s.members.tree.size ∧
        s.isEmpty = s.members.isNone := by
  refine ⟨Members.asPlainSets_built, fun v w => Members.mem_tree_singleton, fun v vs => Members.mem_tree_ofList,
    fun s => s.canonical.built, fun m hm => ⟨⟨m, hm.canonical⟩, rfl⟩, fun s t one hone => ?_,
    fun s t => ⟨rfl, s.beq_eq_members t⟩, fun s => ⟨rfl, rfl, rfl⟩⟩
  exact ⟨ValueSet.members_union hone, Members.isWithin_eq hone⟩

namespace Sample

/-- two boxes, one of them listed twice -/
def pair : Members := .ofList [.address (box 2), .address (box 1), .address (box 2)]

/-- the boxes joined with themselves, which is noticed -/
def joinedPair : Members := .union (Members.isSubset true) pair pair

theorem built_pair : pair.Built := .collect _

theorem built_joinedPair : joinedPair.Built := .union built_pair built_pair true fun _ => rfl

end Sample

open Sample in
theorem shared_sets_are_plain_sets_boxes :
    pair.Built ∧ joinedPair.Built ∧ (joinedPair == pair) = true ∧ joinedPair.isSubset false pair = true ∧
      pair.diff joinedPair = none := by
  obtain ⟨h, -⟩ := shared_sets_are_plain_sets
  have hmem : ∀ v, v ∈ joinedPair.tree ↔ v ∈ pair.tree := fun v =>
    (h.mem_union built_pair built_pair true (fun _ => rfl) v).trans (or_self_iff ..)
  refine ⟨built_pair, built_joinedPair, (h.beq_iff built_joinedPair built_pair).2 hmem,
    (h.isSubset_iff built_joinedPair built_pair false nofun).2 fun v hv => (hmem v).1 hv,
    (h.eq_none_iff (built_pair.diff built_joinedPair)).2 fun v hv => ?_⟩
  obtain ⟨hv, hn⟩ := (h.mem_diff built_pair built_joinedPair v).1 hv
  exact hn ((hmem v).2 hv)

end InfoFlow
