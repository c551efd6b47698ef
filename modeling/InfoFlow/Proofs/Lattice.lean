import InfoFlow.Proofs.Reading

/-!
# The order of facts

`Below a b` is the test of a fixed-point driver: adding `a` to `b` changes nothing.

* `Facts.union_below_iff`, `Facts.diff_below_iff`: `∪` is the join of this order and `\` its residual, from
  which the laws that mix the two follow (`Facts.union_diff_right`, `Facts.union_diff`, `Facts.diff_diff`);
* `ReadBy.below_iff`: the order compares the values at each place;
* `union_is_least_upper_bound`, `diff_is_residual`: both for every kind of state.

The fields and the arrays of a heap and the statics of a snapshot are stores.
-/

namespace InfoFlow

open Std

namespace Facts

variable {α : Type} [DecidableEq α] [Union α]

/-- adding `a` to `b` changes nothing -/
def Below (a b : α) : Prop := (a ∪ b == b) = true

theorem below_iff {a b : α} : Below a b ↔ a ∪ b = b := beq_iff_eq

variable [EmptyCollection α] [SDiff α] [Facts α] {a b c : α}

/-! ## the join -/

theorem below_union_left (a b : α) : Below a (a ∪ b) := by
  rw [below_iff, ← union_assoc, union_self]

theorem below_union_right (a b : α) : Below b (a ∪ b) := by
  rw [union_comm a b]
  exact below_union_left b a

theorem below_trans (h : Below a b) (k : Below b c) : Below a c := by
  rw [below_iff] at *
  rw [← k, ← union_assoc, h]

theorem below_antisymm (h : Below a b) (k : Below b a) : a = b := by
  rw [below_iff] at *
  rw [← k, union_comm b a, h]

theorem union_below_iff : Below (a ∪ b) c ↔ Below a c ∧ Below b c := by
  refine ⟨fun h => ⟨below_trans (below_union_left a b) h, below_trans (below_union_right a b) h⟩, fun h => ?_⟩
  obtain ⟨ha, hb⟩ := h
  rw [below_iff] at *
  rw [union_assoc, hb, ha]

/-- what is below the same things is the same -/
theorem eq_of_below_iff (h : ∀ c, Below a c ↔ Below b c) : a = b := by
  have refl : ∀ x : α, Below x x := fun x => below_iff.2 (union_self x)
  exact below_antisymm ((h b).2 (refl b)) ((h a).1 (refl a))

/-! ## the residual -/

theorem diff_below_iff : Below (a \ b) c ↔ Below a (b ∪ c) := by
  rw [below_iff, below_iff]
  exact diff_below a b c

theorem diff_eq_empty_iff : a \ b = ∅ ↔ b ∪ a = b := by
  have h : Below (a \ b) ∅ ↔ Below a (b ∪ ∅) := diff_below_iff
  rwa [below_iff, below_iff, union_empty, union_empty, union_comm a b] at h

theorem union_diff_right (a b : α) : (a ∪ b) \ b = a \ b := by
  apply eq_of_below_iff
  intro c
  rw [diff_below_iff, diff_below_iff, union_below_iff]
  exact and_iff_left (below_union_left b c)

theorem union_diff (a b : α) : b ∪ a \ b = b ∪ a := by
  apply eq_of_below_iff
  intro c
  rw [union_below_iff, union_below_iff, diff_below_iff]
  refine and_congr_right fun hb => ?_
  rw [below_iff.1 hb]

theorem diff_diff (a b c : α) : (a \ b) \ c = a \ (b ∪ c) := by
  apply eq_of_below_iff
  intro d
  rw [diff_below_iff, diff_below_iff, diff_below_iff, union_assoc]

end Facts

/-! ## place by place -/

namespace ReadBy

variable {α π : Type} [EmptyCollection α] [Union α] [SDiff α]

theorem below_iff [DecidableEq α] {get : α → π → ValueSet} (hg : ReadBy get) {a b : α} :
    Facts.Below a b ↔ ∀ p, get a p ⊆ get b p := by
  rw [Facts.below_iff, hg.eq_iff]
  refine forall_congr' fun p => ?_
  rw [hg.union, ValueSet.union_eq_right_iff]

theorem get_diff_eq_empty {ν : Type} [EmptyCollection ν] [Union ν] [SDiff ν] [Facts ν] {get : α → π → ν}
    (hg : ReadBy get) {a b : α} {p : π} (h : get a p = ∅) : get (a \ b) p = ∅ := by
  rw [hg.diff, h, Facts.empty_diff]

end ReadBy

/-! ## every kind of state -/

section
variable {α π ν : Type} [DecidableEq α] [EmptyCollection α] [Union α] [SDiff α]

/-- `∪` is the join of `Below`, with least element `∅`, and `Below` is inclusion at each place -/
structure LeastUpperBound (get : α → π → ValueSet) : Prop where
  comm : ∀ a b : α, a ∪ b = b ∪ a
  assoc : ∀ a b c : α, a ∪ b ∪ c = a ∪ (b ∪ c)
  idem : ∀ a : α, a ∪ a = a
  union_empty : ∀ a : α, a ∪ ∅ = a
  empty_union : ∀ a : α, ∅ ∪ a = a
  below_iff : ∀ a b : α, Facts.Below a b ↔ ∀ p, get a p ⊆ get b p
  left_below : ∀ a b : α, Facts.Below a (a ∪ b)
  right_below : ∀ a b : α, Facts.Below b (a ∪ b)
  least : ∀ a b c : α, Facts.Below a c → Facts.Below b c → Facts.Below (a ∪ b) c

theorem ReadBy.leastUpperBound [Facts α] {get : α → π → ValueSet} (hg : ReadBy get) : LeastUpperBound get where
  comm := Facts.union_comm
  assoc := Facts.union_assoc
  idem := Facts.union_self
  union_empty := Facts.union_empty
  empty_union := Facts.empty_union
  below_iff _ _ := hg.below_iff
  left_below := Facts.below_union_left
  right_below := Facts.below_union_right
  least _ _ _ ha hb := Facts.union_below_iff.2 ⟨ha, hb⟩

/-- `\` is the residual of `∪`: it takes away what `∪` puts back, and it has nothing where its first operand
    has nothing -/
structure Residual [EmptyCollection ν] (get : α → π → ν) (isEmpty : α → Bool) : Prop where
  diff_below_iff : ∀ a b c : α, Facts.Below (a \ b) c ↔ Facts.Below a (b ∪ c)
  isEmpty_diff_iff : ∀ a b : α, isEmpty (a \ b) = true ↔ (b ∪ a == b) = true
  union_diff_right : ∀ a b : α, (a ∪ b) \ b = a \ b
  union_diff : ∀ a b : α, b ∪ a \ b = b ∪ a
  diff_diff : ∀ a b c : α, (a \ b) \ c = a \ (b ∪ c)
  get_diff_eq_empty : ∀ (a b : α) p, get a p = ∅ → get (a \ b) p = ∅

theorem ReadBy.residual [EmptyCollection ν] [Union ν] [SDiff ν] [Facts ν] [Facts α] {get : α → π → ν}
    (hg : ReadBy get) {isEmpty : α → Bool} (he : ∀ {a}, isEmpty a = true ↔ a = ∅) : Residual get isEmpty where
  diff_below_iff _ _ _ := Facts.diff_below_iff
  isEmpty_diff_iff a b := by rw [he, beq_iff_eq, Facts.diff_eq_empty_iff]
  union_diff_right := Facts.union_diff_right
  union_diff := Facts.union_diff
  diff_diff := Facts.diff_diff
  get_diff_eq_empty _ _ _ := hg.get_diff_eq_empty

end

namespace Sample

/-- one static field, which holds some boxes -/
def holding (is : List Nat) : Statics := (∅ : Statics).set shared (.ofList (is.map fun i => .address (box i)))

theorem get_holding (is : List Nat) (f : Field) :
    (holding is).get f = if shared = f then .ofList (is.map fun i => .address (box i)) else ∅ := by
  rw [holding, SparseMap.get_set, SparseMap.get_empty]

theorem holding_below {is js : List Nat} (h : ∀ i ∈ is, i ∈ js) : Facts.Below (holding is) (holding js) := by
  rw [SparseMap.readBy_get.below_iff]
  intro f v hv
  rw [get_holding] at hv ⊢
  split at hv
  · next hf =>
    rw [if_pos hf]
    rw [ValueSet.mem_ofList, List.mem_map] at hv ⊢
    obtain ⟨i, hi, he⟩ := hv
    exact ⟨i, h i hi, he⟩
  · exact absurd hv (ValueSet.not_mem_empty v)

theorem holding_union (is js : List Nat) : holding is ∪ holding js = holding (is ++ js) := by
  apply SparseMap.ext
  intro f
  rw [SparseMap.get_union, get_holding, get_holding, get_holding]
  split
  · apply ValueSet.ext
    intro v
    rw [ValueSet.mem_union, ValueSet.mem_ofList, ValueSet.mem_ofList, ValueSet.mem_ofList, List.map_append,
      List.mem_append]
  · exact Facts.union_empty ∅

end Sample

/-- **Union is the least upper bound**, for stores with any keys, frames, heaps, snapshots and analyses. -/
theorem union_is_least_upper_bound :
    (∀ (κ : Type) [Ord κ] [TransOrd κ] [LawfulEqOrd κ], LeastUpperBound (SparseMap.get : Store κ → κ → ValueSet)) ∧
      LeastUpperBound Frame.get ∧ LeastUpperBound Heap.get ∧ LeastUpperBound Snapshot.get ∧
      LeastUpperBound Analysis.getAt :=
  ⟨fun _ _ _ _ => SparseMap.readBy_get.leastUpperBound, Frame.readBy_get.leastUpperBound,
    Heap.readBy_get.leastUpperBound, Snapshot.readBy_get.leastUpperBound, Analysis.readBy_getAt.leastUpperBound⟩

open Facts Sample in
theorem union_is_least_upper_bound_boxes :
    Below (holding [1]) (holding [1, 2, 3]) ∧ Below (holding [2]) (holding [1, 2, 3]) ∧
      Below (holding [1] ∪ holding [2]) (holding [1, 2, 3]) := by
  have h₁ : Below (holding [1]) (holding [1, 2, 3]) := holding_below (by decide)
  have h₂ : Below (holding [2]) (holding [1, 2, 3]) := holding_below (by decide)
  exact ⟨h₁, h₂, (union_is_least_upper_bound.1 Field).least _ _ _ h₁ h₂⟩

/-- **Difference is the residual of union**, for stores with any keys, frames, heaps, snapshots and analyses. -/
theorem diff_is_residual :
    (∀ (κ : Type) [Ord κ] [TransOrd κ] [LawfulEqOrd κ],
        Residual (SparseMap.get : Store κ → κ → ValueSet) SparseMap.isEmpty) ∧
      Residual Frame.get Frame.isEmpty ∧ Residual Heap.get Heap.isEmpty ∧ Residual Snapshot.get Snapshot.isEmpty ∧
      Residual (SparseMap.get : Analysis → Context → Snapshot) SparseMap.isEmpty ∧
      Residual Analysis.getAt SparseMap.isEmpty :=
  ⟨fun _ _ _ _ => SparseMap.readBy_get.residual SparseMap.isEmpty_iff, Frame.readBy_get.residual Frame.isEmpty_iff,
    Heap.readBy_get.residual Heap.isEmpty_iff, Snapshot.readBy_get.residual Snapshot.isEmpty_iff,
    SparseMap.readBy_get.residual SparseMap.isEmpty_iff, Analysis.readBy_getAt.residual SparseMap.isEmpty_iff⟩

open Facts Sample in
theorem diff_is_residual_boxes :
    Below (holding [1, 2] \ holding [1]) (holding [2, 3]) ∧
      (∅ : Statics).get shared = ∅ ∧ ((∅ : Statics) \ holding [1]).get shared = ∅ := by
  have h := diff_is_residual.1 Field
  have hu : Below (holding [1, 2]) (holding [1] ∪ holding [2, 3]) := by
    rw [holding_union]
    exact holding_below (by decide)
  exact ⟨(h.diff_below_iff _ _ _).2 hu, SparseMap.get_empty _, h.get_diff_eq_empty _ _ _ (SparseMap.get_empty _)⟩

end InfoFlow
