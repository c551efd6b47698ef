import InfoFlow.Proofs.AccessPath
import InfoFlow.Proofs.Monotone

/-!
# Unions of roots, of scopes and of snapshots

* `Heap.reachable_union`: what is reachable from two sets of roots together is reachable from one of them;
* `Heap.eq_union_of_get`: a heap cut down to two kinds of cells together is the union of the heaps cut down to either,
  so that collecting and localizing for two sets of roots or two scopes can be done one by one;
* `reachability_is_additive`: these laws together;
* `Snapshot.roots_union`, `Snapshot.gc_union_below`: the roots of two snapshots are put together one by one too, but not
  their garbage, for what is garbage in one of them may be held by the other;
* `union_of_collected_is_collected`: collecting before a union keeps no more than collecting after it, and leaves
  nothing to collect.
-/

namespace InfoFlow

open Std

/-! ## roots and scopes -/

theorem Cell.inScope_append {fields fields' : List ObjectField} {arrays arrays' : List Address} {taint : Field}
    {c : Cell} :
    c.InScope (fields ++ fields') (arrays ++ arrays') taint ↔
      c.InScope fields arrays taint ∨ c.InScope fields' arrays' taint := by
  cases c with
  | field k =>
    show k ∈ fields ++ fields' ∨ k.field = taint ↔ (k ∈ fields ∨ k.field = taint) ∨ k ∈ fields' ∨ k.field = taint
    rw [List.mem_append, ← or_or_distrib_right]
  | array a => exact List.mem_append

namespace Heap

theorem reachable_union (h : Heap) (roots roots' : AddressSet) :
    h.reachable (roots ∪ roots') = h.reachable roots ∪ h.reachable roots' := by
  apply ExtTreeSet.ext_mem
  intro b
  rw [ExtTreeSet.mem_union_iff]
  constructor
  · intro hb
    obtain ⟨a, ha, hab⟩ := mem_reachable.1 hb
    rcases ExtTreeSet.mem_union_iff.1 ha with ha | ha
    · exact .inl (mem_reachable.2 ⟨a, ha, hab⟩)
    · exact .inr (mem_reachable.2 ⟨a, ha, hab⟩)
  · have hsub : ∀ a, a ∈ roots ∨ a ∈ roots' → a ∈ h.reachable (roots ∪ roots') :=
      fun a ha => mem_reachable_of_root (ExtTreeSet.mem_union_iff.2 ha)
    rintro (hb | hb)
    · exact mem_reachable_of_subset (fun a ha => hsub a (.inl ha)) b hb
    · exact mem_reachable_of_subset (fun a ha => hsub a (.inr ha)) b hb

theorem eq_union_of_get {h k k₁ k₂ : Heap} {P Q R : Cell → Prop} [DecidablePred P] [DecidablePred Q] [DecidablePred R]
    (hR : ∀ c, R c ↔ P c ∨ Q c) (hk : ∀ c, k.get c = if R c then h.get c else ∅)
    (h₁ : ∀ c, k₁.get c = if P c then h.get c else ∅) (h₂ : ∀ c, k₂.get c = if Q c then h.get c else ∅) :
    k = k₁ ∪ k₂ := by
  apply readBy_get.ext
  intro c
  rw [readBy_get.union, hk, h₁, h₂]
  by_cases hP : P c
  · rw [if_pos hP, if_pos ((hR c).2 (.inl hP))]
    -- both parts may have the cell, and then with the same values
    split
    · exact (Facts.union_self _).symm
    · exact (Facts.union_empty _).symm
  · rw [if_neg hP, Facts.empty_union]
    exact if_congr ((hR c).trans (or_iff_right hP)) rfl rfl

theorem gc_union (h : Heap) (roots roots' : AddressSet) : h.gc (roots ∪ roots') = h.gc roots ∪ h.gc roots' := by
  refine eq_union_of_get (fun c => ?_) (h.get_gc _) (h.get_gc _) (h.get_gc _)
  rw [reachable_union, ExtTreeSet.mem_union_iff]

theorem localize_union (h : Heap) (roots roots' : AddressSet) (fields : List ObjectField) (arrays : List Address)
    (taint : Field) :
    h.localize (roots ∪ roots') fields arrays taint =
      h.localize roots fields arrays taint ∪ h.localize roots' fields arrays taint := by
  refine eq_union_of_get (fun c => ?_) (h.get_localize _ _ _ _) (h.get_localize _ _ _ _) (h.get_localize _ _ _ _)
  rw [reachable_union, ExtTreeSet.mem_union_iff, or_and_right]

theorem localize_append (h : Heap) (roots : AddressSet) (fields fields' : List ObjectField)
    (arrays arrays' : List Address) (taint : Field) :
    h.localize roots (fields ++ fields') (arrays ++ arrays') taint =
      h.localize roots fields arrays taint ∪ h.localize roots fields' arrays' taint := by
  refine eq_union_of_get (fun c => ?_) (h.get_localize _ _ _ _) (h.get_localize _ _ _ _) (h.get_localize _ _ _ _)
  rw [Cell.inScope_append, and_or_left]

end Heap

/-- **Reachability, collecting and localizing are additive**, in the roots and in what is named by a scope. -/
theorem reachability_is_additive (h : Heap) (roots₁ roots₂ : AddressSet) (fields₁ fields₂ : List ObjectField)
    (arrays₁ arrays₂ : List Address) (taint : Field) :
    h.reachable (roots₁ ∪ roots₂) = h.reachable roots₁ ∪ h.reachable roots₂ ∧
      h.gc (roots₁ ∪ roots₂) = h.gc roots₁ ∪ h.gc roots₂ ∧
      h.localize (roots₁ ∪ roots₂) fields₁ arrays₁ taint =
        h.localize roots₁ fields₁ arrays₁ taint ∪ h.localize roots₂ fields₁ arrays₁ taint ∧
      h.localize roots₁ (fields₁ ++ fields₂) (arrays₁ ++ arrays₂) taint =
        h.localize roots₁ fields₁ arrays₁ taint ∪ h.localize roots₁ fields₂ arrays₂ taint :=
  ⟨h.reachable_union _ _, h.gc_union _ _, h.localize_union _ _ _ _ _, h.localize_append _ _ _ _ _ _⟩

/-! ## snapshots -/

namespace Snapshot

theorem roots_union (s t : Snapshot) : (s ∪ t).roots = s.roots ∪ t.roots := by
  apply ExtTreeSet.ext_mem
  intro a
  rw [ExtTreeSet.mem_union_iff, mem_roots_iff, mem_roots_iff, mem_roots_iff]
  constructor
  · rintro ⟨l, hl, ha⟩
    rw [readBy_get.union] at ha
    rcases ValueSet.mem_union.1 ha with ha | ha
    · exact .inl ⟨l, hl, ha⟩
    · exact .inr ⟨l, hl, ha⟩
  · rintro (⟨l, hl, ha⟩ | ⟨l, hl, ha⟩)
    · exact ⟨l, hl, by rw [readBy_get.union]; exact ValueSet.mem_union.2 (.inl ha)⟩
    · exact ⟨l, hl, by rw [readBy_get.union]; exact ValueSet.mem_union.2 (.inr ha)⟩

theorem gc_below (s : Snapshot) : Facts.Below s.gc s := by
  have hheap : s.heap.gc s.roots ∪ s.heap = s.heap := Facts.below_iff.1 (s.heap.gc_below s.roots)
  exact Facts.below_iff.2 (Snapshot.ext (Facts.union_self _) hheap (Facts.union_self _))

theorem gc_union_below (s t : Snapshot) : Facts.Below (s.gc ∪ t.gc) (s ∪ t).gc :=
  Facts.union_below_iff.2 ⟨gc_mono (Facts.below_union_left s t), gc_mono (Facts.below_union_right s t)⟩

theorem gc_union_gc (s t : Snapshot) : (s.gc ∪ t.gc).gc = s.gc ∪ t.gc := by
  have h : Facts.Below (s.gc.gc ∪ t.gc.gc) (s.gc ∪ t.gc).gc := gc_union_below s.gc t.gc
  rw [gc_gc, gc_gc] at h
  exact Facts.below_antisymm (gc_below _) h

end Snapshot

/-- **A union of collected snapshots is collected.**  The roots of a union are the roots of both parts, and collecting
each part keeps no more than collecting the union. -/
theorem union_of_collected_is_collected (s t : Snapshot) :
    (s ∪ t).roots = s.roots ∪ t.roots ∧
      Facts.Below (s.gc ∪ t.gc) (s ∪ t).gc ∧
      (s.gc ∪ t.gc).gc = s.gc ∪ t.gc :=
  ⟨s.roots_union t, s.gc_union_below t, s.gc_union_gc t⟩

/-! ## garbage that a union brings back -/

namespace Sample

/-- the ring with nothing that holds it -/
def dropped : Snapshot := ⟨∅, ring, ∅⟩

/-- the first box held, with nothing in it -/
def hollow : Snapshot := ⟨∅, ∅, holding [1]⟩

theorem dropped_union_hollow : dropped ∪ hollow = held :=
  Snapshot.ext (Facts.union_self _) (Facts.union_empty _) (Facts.empty_union _)

theorem gc_dropped_get (c : Cell) : dropped.gc.heap.get c = ∅ := by
  have hempty : ∀ l : Location, l.holder? = none → dropped.get l = ∅ := by
    intro l hl
    cases l with
    | slot p => exact Frame.readBy_get.empty p
    | field k => cases hl
    | array b => cases hl
    | static f => exact SparseMap.get_empty f
  have hroots : ∀ a, a ∉ dropped.roots := by
    intro a ha
    obtain ⟨l, hl, ha⟩ := Snapshot.mem_roots_iff.1 ha
    rw [hempty l hl] at ha
    exact ValueSet.not_mem_empty _ ha
  have hlive : c.holder ∉ ring.reachable dropped.roots := by
    intro hc
    obtain ⟨a, ha, _⟩ := Heap.mem_reachable.1 hc
    exact hroots a ha
  exact (ring.get_gc dropped.roots c).trans (if_neg hlive)

theorem gc_hollow_get (c : Cell) : hollow.gc.heap.get c = ∅ := by
  refine ((∅ : Heap).get_gc hollow.roots c).trans ?_
  rw [Heap.readBy_get.empty, ite_self]

end Sample

open Sample in
theorem union_of_collected_is_collected_dropped :
    Facts.Below (dropped.gc ∪ hollow.gc) (dropped ∪ hollow).gc ∧
      (dropped.gc ∪ hollow.gc).heap.get (.field ⟨box 3, Sample.hidden⟩) = ∅ ∧
      (dropped ∪ hollow).gc.heap.get (.field ⟨box 3, Sample.hidden⟩) ≠ ∅ := by
  refine ⟨(union_of_collected_is_collected dropped hollow).2.1, ?_, ?_⟩
  · rw [Snapshot.heap_union, Heap.readBy_get.union, gc_dropped_get, gc_hollow_get]
    exact Facts.union_empty ∅
  · rw [dropped_union_hollow]
    exact third_kept

end InfoFlow
