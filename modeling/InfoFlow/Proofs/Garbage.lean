import InfoFlow.Proofs.Lattice
import InfoFlow.Proofs.Search

/-!
# What a collection keeps

* `Heap.get?`: the entry of a cell, where one is stored;
* `Heap.get?_gc_eq_some_iff`, `Heap.get?_diff_gc_eq_some_iff`: the entries of a heap, divided into those that a
  collection keeps and those that it drops, by their addresses alone;
* `Heap.reachable_gc`: dropping entries cuts no chain between reachable addresses, so that collecting twice is
  collecting for the second roots (`Heap.gc_gc`);
* `collection_keeps_the_reachable`: all of this, and the two parts together are the heap.
-/

namespace InfoFlow

open Std

namespace Heap

/-! ## entries -/

/-- the stored values of a cell -/
def get? (h : Heap) : Cell → Option ValueSet
  | .field k => h.fields.get? k
  | .array a => h.arrays.get? a

theorem get?_eq_some_iff {h : Heap} {c : Cell} {vs : ValueSet} : h.get? c = some vs ↔ h.get c = vs ∧ vs ≠ ∅ := by
  cases c with
  | field k => exact SparseMap.get?_eq_some_iff
  | array a => exact SparseMap.get?_eq_some_iff

theorem get?_eq_singleton {h : Heap} {c : Cell} {v : Value} (hv : ∀ w, w ∈ h.get c ↔ w = v) :
    h.get? c = some (.singleton v) := by
  have hget : h.get c = .singleton v := by
    ext w
    rw [hv, ValueSet.mem_singleton]
  refine get?_eq_some_iff.2 ⟨hget, fun hempty => ?_⟩
  have hmem : v ∈ (∅ : ValueSet) := hempty ▸ ValueSet.mem_singleton.2 rfl
  exact ValueSet.not_mem_empty v hmem

/-- a heap that has the values of `h` where `P` holds and nothing elsewhere has the entries of `h` where `P` holds -/
theorem get?_eq_some_iff_of_get {h k : Heap} {P : Cell → Prop} [DecidablePred P]
    (hk : ∀ c, k.get c = if P c then h.get c else ∅) {c : Cell} {vs : ValueSet} :
    k.get? c = some vs ↔ h.get? c = some vs ∧ P c := by
  rw [get?_eq_some_iff, get?_eq_some_iff, hk]
  by_cases hc : P c
  · rw [if_pos hc, and_iff_left hc]
  · rw [if_neg hc]
    refine iff_of_false ?_ fun hp => hc hp.2
    rintro ⟨he, hne⟩
    exact hne he.symm

theorem get?_gc_eq_some_iff {h : Heap} {roots : AddressSet} {c : Cell} {vs : ValueSet} :
    (h.gc roots).get? c = some vs ↔ h.get? c = some vs ∧ c.holder ∈ h.reachable roots :=
  get?_eq_some_iff_of_get (P := fun c => c.holder ∈ h.reachable roots) (h.get_gc roots)

theorem get_diff_gc (h : Heap) (roots : AddressSet) (c : Cell) :
    (h \ h.gc roots).get c = if c.holder ∉ h.reachable roots then h.get c else ∅ := by
  rw [readBy_get.diff, get_gc]
  by_cases hc : c.holder ∈ h.reachable roots
  · rw [if_pos hc, if_neg (not_not_intro hc)]
    exact Facts.diff_eq_empty_iff.2 (Facts.union_self _)
  · rw [if_neg hc, if_pos hc]
    ext v
    simp

theorem get?_diff_gc_eq_some_iff {h : Heap} {roots : AddressSet} {c : Cell} {vs : ValueSet} :
    (h \ h.gc roots).get? c = some vs ↔ h.get? c = some vs ∧ c.holder ∉ h.reachable roots :=
  get?_eq_some_iff_of_get (P := fun c => c.holder ∉ h.reachable roots) (h.get_diff_gc roots)

/-! ## a heap and its parts -/

theorem gc_below (h : Heap) (roots : AddressSet) : Facts.Below (h.gc roots) h := by
  rw [readBy_get.below_iff]
  intro c
  rw [get_gc]
  split
  · exact ValueSet.subset_refl _
  · exact ValueSet.empty_subset _

theorem gc_union_diff (h : Heap) (roots : AddressSet) : h.gc roots ∪ h \ h.gc roots = h := by
  rw [Facts.union_diff]
  exact Facts.below_iff.1 (h.gc_below roots)

/-! ## collecting twice -/

theorem get_gc_of_reachable {h : Heap} {roots roots' : AddressSet} (hr : ∀ a ∈ roots', a ∈ h.reachable roots) (c : Cell)
    (hc : c.holder ∈ h.reachable roots') : h.get c = (h.gc roots).get c := by
  have hlive : c.holder ∈ h.reachable roots := mem_reachable_of_subset hr _ hc
  rw [get_gc, if_pos hlive]

theorem reachable_gc {h : Heap} {roots roots' : AddressSet} (hr : ∀ a ∈ roots', a ∈ h.reachable roots) :
    (h.gc roots).reachable roots' = h.reachable roots' :=
  (reachable_congr (get_gc_of_reachable hr)).symm

theorem gc_gc {h : Heap} {roots roots' : AddressSet} (hr : ∀ a ∈ roots', a ∈ h.reachable roots) :
    (h.gc roots).gc roots' = h.gc roots' := by
  apply readBy_get.ext
  intro c
  rw [get_gc, get_gc h roots' c, reachable_gc hr]
  split
  · next hc => exact (get_gc_of_reachable hr c hc).symm
  · rfl

theorem gc_reachable (h : Heap) (roots : AddressSet) : h.gc (h.reachable roots) = h.gc roots := by
  rw [gc, reachable_reachable, gc]

end Heap

/-- **A collection keeps the entries at reachable addresses, and nothing else.**  What was reachable from any of them
still is, so that a later collection does what it would have done at first, and what was dropped is all at
unreachable addresses. -/
theorem collection_keeps_the_reachable (h : Heap) (roots : AddressSet) :
    (∀ c vs, (h.gc roots).get? c = some vs ↔ h.get? c = some vs ∧ c.holder ∈ h.reachable roots) ∧
      (∀ roots' : AddressSet, (∀ a ∈ roots', a ∈ h.reachable roots) →
        (h.gc roots).reachable roots' = h.reachable roots' ∧ (h.gc roots).gc roots' = h.gc roots') ∧
      (h.gc roots).gc roots = h.gc roots ∧
      h.gc (h.reachable roots) = h.gc roots ∧
      h.gc roots ∪ h \ h.gc roots = h ∧
      ∀ c vs, (h \ h.gc roots).get? c = some vs ↔ h.get? c = some vs ∧ c.holder ∉ h.reachable roots :=
  ⟨fun _ _ => Heap.get?_gc_eq_some_iff, fun _ hr => ⟨Heap.reachable_gc hr, Heap.gc_gc hr⟩,
    Heap.gc_gc fun _ => Heap.mem_reachable_of_root, h.gc_reachable roots, h.gc_union_diff roots,
    fun _ _ => Heap.get?_diff_gc_eq_some_iff⟩

namespace Sample

theorem box_mem_reachable : ∀ i ∈ [1, 2, 3], box i ∈ ring.reachable (boxes [1]) := by
  have h₁ : box 1 ∈ ring.reachable (boxes [1]) :=
    Heap.mem_reachable_of_root (mem_boxes.2 ⟨1, List.mem_singleton.2 rfl, rfl⟩)
  have h₂ : box 2 ∈ ring.reachable (boxes [1]) := Heap.mem_reachable_of_points h₁ (points_ring.2 (by simp))
  have h₃ : box 3 ∈ ring.reachable (boxes [1]) := Heap.mem_reachable_of_points h₂ (points_ring.2 (by simp))
  simp [h₁, h₂, h₃]

theorem boxes_reachable : ∀ a ∈ boxes [2, 3], a ∈ ring.reachable (boxes [1]) := by
  intro a ha
  obtain ⟨i, hi, rfl⟩ := mem_boxes.1 ha
  exact box_mem_reachable i (List.mem_cons_of_mem _ hi)

theorem fourth_not_mem_reachable : box 4 ∉ ring.reachable (boxes [1]) := by
  have hne : ∀ a ∈ ring.reachable (boxes [1]), a ≠ box 4 :=
    Heap.reachable_induction (fun _ => ne_of_mem_boxes) fun _ _ _ => ne_of_points_ring
  exact fun h => hne _ h rfl

theorem fourth_stored : ring.get? (.field ⟨box 4, shared⟩) = some (.singleton (.address (box 1))) := by
  apply Heap.get?_eq_singleton
  intro v
  rw [mem_ring]
  simp [box_inj]

end Sample

open Sample in
theorem collection_keeps_the_reachable_ring :
    (∀ a ∈ boxes [2, 3], a ∈ ring.reachable (boxes [1])) ∧
      (ring.gc (boxes [1])).gc (boxes [2, 3]) = ring.gc (boxes [2, 3]) ∧
      (ring \ ring.gc (boxes [1])).get? (.field ⟨box 4, shared⟩) = some (.singleton (.address (box 1))) := by
  obtain ⟨_, htwice, _, _, _, hdropped⟩ := collection_keeps_the_reachable ring (boxes [1])
  exact ⟨boxes_reachable, (htwice _ boxes_reachable).2, (hdropped _ _).2 ⟨fourth_stored, fourth_not_mem_reachable⟩⟩

end InfoFlow
