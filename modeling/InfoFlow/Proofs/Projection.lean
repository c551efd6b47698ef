import InfoFlow.Proofs.AccessPath
import InfoFlow.Proofs.Monotone

/-!
# A callee's part of a snapshot

* `IsProjection s frame scope taint t`: what `t` holds at each place, said by what `s` holds there: the statics in
  scope decide the roots, the roots decide what is reachable in the whole heap of `s`, and only then the scope and the
  field `taint` decide what of it is kept;
* `IsProjection.unique`: this leaves no choice for `t`;
* `localize_is_scoped_projection`: localizing gives that snapshot, with the taints of all that a callee can reach.
-/

namespace InfoFlow

open Std

/-! ## place by place -/

structure IsProjection (s : Snapshot) (frame : Frame) (scope : Scope) (taint : Field) (t : Snapshot) : Prop where
  frame_eq : t.frame = frame
  get_static : ∀ f, t.statics.get f = if f ∈ scope.statics then s.statics.get f else ∅
  get_field : ∀ a f, t.heap.fields.get ⟨a, f⟩ =
    if a ∈ s.heap.reachable (frame.roots ∪ t.statics.roots) ∧ (⟨a, f⟩ ∈ scope.objectFields ∨ f = taint)
    then s.heap.fields.get ⟨a, f⟩ else ∅
  get_array : ∀ a, t.heap.arrays.get a =
    if a ∈ s.heap.reachable (frame.roots ∪ t.statics.roots) ∧ a ∈ scope.arrays then s.heap.arrays.get a else ∅

theorem isProjection_localize (s : Snapshot) (frame : Frame) (scope : Scope) (taint : Field) :
    IsProjection s frame scope taint (s.localize frame scope taint) where
  frame_eq := rfl
  get_static := s.statics.get_localize scope.statics
  get_field a f := s.heap.get_localize (s.calleeRoots frame scope) scope.objectFields scope.arrays taint
    (.field ⟨a, f⟩)
  get_array a := s.heap.get_localize (s.calleeRoots frame scope) scope.objectFields scope.arrays taint (.array a)

namespace IsProjection

variable {s t u : Snapshot} {frame : Frame} {scope : Scope} {taint : Field}

theorem unique (ht : IsProjection s frame scope taint t) (hu : IsProjection s frame scope taint u) : t = u := by
  have hstatics : t.statics = u.statics := by
    apply SparseMap.ext
    intro f
    rw [ht.get_static, hu.get_static]
  -- what is reachable is the same only because the statics are
  refine Snapshot.ext (ht.frame_eq.trans hu.frame_eq.symm) (Heap.ext ?_ ?_) hstatics
  · apply SparseMap.ext
    intro k
    have hk := ht.get_field k.address k.field
    rw [hstatics, ← hu.get_field] at hk
    exact hk
  · apply SparseMap.ext
    intro a
    rw [ht.get_array, hu.get_array, hstatics]

end IsProjection

/-! ## what survives -/

theorem Heap.localize_below_gc (h : Heap) (roots : AddressSet) (fields : List ObjectField) (arrays : List Address)
    (taint : Field) : Facts.Below (h.localize roots fields arrays taint) (h.gc roots) := by
  rw [readBy_get.below_iff]
  intro c
  rw [get_localize, get_gc]
  split
  · next hc =>
    rw [if_pos hc.1]
    exact ValueSet.subset_refl _
  · exact ValueSet.empty_subset _

namespace Snapshot

/-- only which names are in a scope matters, not how often and in which order they are listed -/
theorem localize_scope_congr (s : Snapshot) (frame : Frame) {scope scope' : Scope} (h : scope.Within scope')
    (h' : scope'.Within scope) (taint : Field) : s.localize frame scope' taint = s.localize frame scope taint := by
  have hs : Facts.Below s s := Facts.below_iff.2 (Facts.union_self s)
  have hf : Facts.Below frame frame := Facts.below_iff.2 (Facts.union_self frame)
  exact Facts.below_antisymm (localize_mono hs hf h' taint) (localize_mono hs hf h taint)

end Snapshot

/-- **Localizing is the projection to a scope.**  Each place of the localized snapshot is as the projection says, and
no other snapshot is like this.  The taints of all that the callee can reach are kept, also where only places out of
scope lead there. -/
theorem localize_is_scoped_projection {s l : Snapshot} {frame : Frame} {scope : Scope} {taint : Field}
    (hl : l = s.localize frame scope taint) :
    IsProjection s frame scope taint l ∧ (∀ t, IsProjection s frame scope taint t → t = l) ∧
      (∀ a ∈ s.heap.reachable (frame.roots ∪ l.statics.roots),
        l.heap.fields.get ⟨a, taint⟩ = s.heap.fields.get ⟨a, taint⟩) ∧
      Facts.Below l.heap (s.heap.gc (frame.roots ∪ l.statics.roots)) ∧
      Facts.Below (s.heap.gc (frame.roots ∪ l.statics.roots)) s.heap ∧
      ∀ scope' : Scope, scope.Within scope' → scope'.Within scope → s.localize frame scope' taint = l := by
  subst hl
  have hproj := isProjection_localize s frame scope taint
  refine ⟨hproj, fun t ht => ht.unique hproj, fun a ha => ?_, s.heap.localize_below_gc _ _ _ _, s.heap.gc_below _,
    fun scope' h h' => s.localize_scope_congr frame h h' taint⟩
  rw [hproj.get_field, if_pos ⟨ha, .inr rfl⟩]

/-! ## a taint behind places out of scope -/

namespace Sample

/-- no field or array that leads through the ring is in scope; the field of the fourth box is -/
def ringScope : Scope := ⟨[⟨box 4, shared⟩], [], [shared, hidden, shared]⟩

/-- the same names, listed in another way -/
def listedScope : Scope := ⟨[⟨box 4, shared⟩, ⟨box 4, shared⟩], [], [hidden, shared]⟩

def callee : Snapshot := held.localize ∅ ringScope hidden

theorem calleeRoots_held {scope : Scope} (hs : shared ∈ scope.statics) : held.calleeRoots ∅ scope = boxes [1] := by
  have hstatics : (holding [1]).localize scope.statics = holding [1] := by
    apply SparseMap.ext
    intro f
    rw [Statics.get_localize]
    split
    · rfl
    · next hf =>
      rw [get_holding, if_neg]
      rintro rfl
      exact hf hs
  show (∅ : Frame).roots ∪ ((holding [1]).localize scope.statics).roots = _
  rw [hstatics]
  exact roots_held

theorem roots_callee : (∅ : Frame).roots ∪ callee.statics.roots = boxes [1] := calleeRoots_held List.mem_cons_self

end Sample

open Sample in
theorem localize_is_scoped_projection_ring :
    callee = held.localize ∅ ringScope Sample.hidden ∧
      box 3 ∈ held.heap.reachable ((∅ : Frame).roots ∪ callee.statics.roots) ∧
      Value.atom (.taint "t") ∈ callee.heap.fields.get ⟨box 3, Sample.hidden⟩ ∧
      callee.heap.fields.get ⟨box 1, shared⟩ = ∅ ∧ callee.heap.fields.get ⟨box 4, shared⟩ = ∅ ∧
      ringScope.Within listedScope ∧ listedScope.Within ringScope ∧
      held.localize ∅ listedScope Sample.hidden = callee := by
  have hcallee : callee = held.localize ∅ ringScope Sample.hidden := rfl
  obtain ⟨hproj, _, htaint, _, _, hscope⟩ := localize_is_scoped_projection hcallee
  have hthird : box 3 ∈ held.heap.reachable ((∅ : Frame).roots ∪ callee.statics.roots) := by
    rw [roots_callee]
    exact box_mem_reachable 3 (by simp)
  have hfourth : box 4 ∉ held.heap.reachable ((∅ : Frame).roots ∪ callee.statics.roots) := by
    rw [roots_callee]
    exact fourth_not_mem_reachable
  have hlisted : ringScope.Within listedScope := ⟨by decide, by decide, by decide⟩
  have hring : listedScope.Within ringScope := ⟨by decide, by decide, by decide⟩
  refine ⟨hcallee, hthird, ?_, ?_, ?_, hlisted, hring, hscope _ hlisted hring⟩
  · rw [htaint _ hthird]
    exact taint_mem_ring
  · rw [hproj.get_field, if_neg]
    rintro ⟨_, h | h⟩
    · exact absurd h (by decide)
    · exact absurd h (by decide)
  · rw [hproj.get_field, if_neg fun h => hfourth h.1]

end InfoFlow
