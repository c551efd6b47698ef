import Mathlib.Logic.Function.Iterate
import InfoFlow.Proofs.Projection

/-!
# Across call boundaries

A caller may collect garbage before it calls, and a callee may call in turn.

* `Heap.localize_gc`, `Snapshot.localize_gc`: a callee that is given live addresses sees nothing of a collection;
* `collection_before_call_is_invisible`: both together;
* `Heap.Linked`: a chain of places in scope leads to an address; such addresses are the reachable ones of a localized
  heap (`Heap.mem_reachable_localize`);
* `Snapshot.localize_localize`: to localize again is to collect garbage, for what was reachable through places out of
  scope is so no longer (`nested_localize_loses_taint`);
* `nested_localize_is_collection`: what exactly is left, however often it is done.
-/

namespace InfoFlow

open Std Relation

/-! ## a collection before the call -/

theorem Heap.localize_gc {h : Heap} {roots roots' : AddressSet} (hr : ∀ a ∈ roots', a ∈ h.reachable roots)
    (fields : List ObjectField) (arrays : List Address) (taint : Field) :
    (h.gc roots).localize roots' fields arrays taint = h.localize roots' fields arrays taint :=
  (localize_congr (get_gc_of_reachable hr)).symm

namespace Snapshot

variable {s : Snapshot} {frame : Frame} {scope : Scope}

theorem mem_live_of_calleeRoots (hf : ∀ a ∈ frame.roots, a ∈ s.live) :
    ∀ a ∈ s.calleeRoots frame scope, a ∈ s.live := by
  intro a ha
  rcases mem_calleeRoots.1 ha with ha | ⟨f, _, ha⟩
  · exact hf a (Frame.mem_roots.2 ha)
  · have hstart : (Location.static f).holder? = none := rfl
    exact mem_live_of_start hstart a ha

theorem localize_gc (hf : ∀ a ∈ frame.roots, a ∈ s.live) (scope : Scope) (taint : Field) :
    s.gc.localize frame scope taint = s.localize frame scope taint :=
  -- the statics are untouched, so the roots of the callee are the same
  Snapshot.ext rfl (Heap.localize_gc (mem_live_of_calleeRoots hf) _ _ _) rfl

end Snapshot

/-- **A callee cannot tell whether its caller collected garbage.**  It is given addresses that the caller can reach, so
all that it can see is kept. -/
theorem collection_before_call_is_invisible :
    (∀ (s : Snapshot) (frame : Frame) (scope : Scope) (taint : Field),
        (∀ a ∈ frame.roots, a ∈ s.heap.reachable s.roots) →
          s.gc.localize frame scope taint = s.localize frame scope taint) ∧
      ∀ (h : Heap) (roots roots' : AddressSet) (fields : List ObjectField) (arrays : List Address) (taint : Field),
        (∀ a ∈ roots', a ∈ h.reachable roots) →
          (h.gc roots).localize roots' fields arrays taint = h.localize roots' fields arrays taint :=
  ⟨fun _ _ scope taint hf => Snapshot.localize_gc hf scope taint,
    fun _ _ _ fields arrays taint hr => Heap.localize_gc hr fields arrays taint⟩

namespace Sample

/-- the callee is given the second box -/
def given : Frame := ((∅ : Frame).write (.receiver main) (.strong (.singleton (.address (box 2))))).2

theorem mem_roots_given {a : Address} (ha : a ∈ given.roots) : a = box 2 := by
  obtain ⟨p, ha⟩ := Frame.mem_roots.1 ha
  rw [given, Frame.get_write, Frame.readBy_get.empty] at ha
  split at ha
  · exact Value.address.inj (ValueSet.mem_singleton.1 ha)
  · exact absurd ha (ValueSet.not_mem_empty _)

end Sample

open Sample in
theorem collection_before_call_is_invisible_ring :
    held.gc ≠ held ∧ (∀ a ∈ given.roots, a ∈ held.heap.reachable held.roots) ∧
      held.gc.localize given sharedScope Sample.hidden = held.localize given sharedScope Sample.hidden ∧
      (∀ a ∈ boxes [2, 3], a ∈ ring.reachable (boxes [1])) ∧
      (ring.gc (boxes [1])).localize (boxes [2, 3]) [] [box 2] Sample.hidden =
        ring.localize (boxes [2, 3]) [] [box 2] Sample.hidden := by
  have hgiven : ∀ a ∈ given.roots, a ∈ held.heap.reachable held.roots := by
    intro a ha
    rw [mem_roots_given ha, roots_held]
    exact box_mem_reachable 2 (by simp)
  exact ⟨gc_held_ne, hgiven, collection_before_call_is_invisible.1 _ _ _ _ hgiven, boxes_reachable,
    collection_before_call_is_invisible.2 _ _ _ _ _ _ boxes_reachable⟩

/-! ## chains in scope -/

namespace Heap

/-- some cell of `a` in scope holds `b` -/
def Links (h : Heap) (scope : Scope) (taint : Field) (a b : Address) : Prop :=
  ∃ c : Cell, c.holder = a ∧ c.InScope scope.objectFields scope.arrays taint ∧ Value.address b ∈ h.get c

/-- a chain of cells in scope leads to `b` from a root -/
def Linked (h : Heap) (roots : AddressSet) (scope : Scope) (taint : Field) (b : Address) : Prop :=
  ∃ a ∈ roots, ReflTransGen (h.Links scope taint) a b

variable {h : Heap} {roots : AddressSet} {scope : Scope} {taint : Field}

theorem Links.points {a b : Address} (hab : h.Links scope taint a b) : h.Points a b := by
  obtain ⟨c, hc, _, hb⟩ := hab
  exact ⟨c, hc, hb⟩

theorem points_localize {a b : Address} :
    (h.localize roots scope.objectFields scope.arrays taint).Points a b ↔
      a ∈ h.reachable roots ∧ h.Links scope taint a b := by
  constructor
  · rintro ⟨c, rfl, hb⟩
    rw [get_localize] at hb
    split at hb
    · next hc => exact ⟨hc.1, c, rfl, hc.2, hb⟩
    · exact absurd hb (ValueSet.not_mem_empty _)
  · rintro ⟨ha, c, rfl, hc, hb⟩
    exact ⟨c, rfl, by rwa [get_localize, if_pos ⟨ha, hc⟩]⟩

theorem mem_reachable_localize {b : Address} :
    b ∈ (h.localize roots scope.objectFields scope.arrays taint).reachable roots ↔ h.Linked roots scope taint b := by
  rw [mem_reachable]
  refine exists_congr fun a => and_congr_right fun ha => ?_
  constructor
  · exact fun hab => hab.lift id fun _ _ hxy => (points_localize.1 hxy).2
  · -- a chain in scope stays among the reachable addresses, whose cells in scope are kept
    intro hab
    have key : b ∈ h.reachable roots ∧
        ReflTransGen (h.localize roots scope.objectFields scope.arrays taint).Points a b := by
      induction hab with
      | refl => exact ⟨mem_reachable_of_root ha, .refl⟩
      | tail _ hxy ih =>
        exact ⟨mem_reachable_of_points ih.1 hxy.points, ih.2.tail (points_localize.2 ⟨ih.1, hxy⟩)⟩
    exact key.2

/-- where every pointer is in scope, all that is reachable is linked -/
theorem linked_of_reachable (hp : ∀ a b, a ∈ h.reachable roots → h.Points a b → h.Links scope taint a b) :
    ∀ b ∈ h.reachable roots, h.Linked roots scope taint b := by
  apply reachable_induction_of_mem
  · intro a ha
    exact ⟨a, ha, .refl⟩
  · rintro a b ha ⟨r, hr, hra⟩ hab
    exact ⟨r, hr, hra.tail (hp a b ha hab)⟩

theorem localize_localize (h : Heap) (roots : AddressSet) (fields : List ObjectField) (arrays : List Address)
    (taint : Field) :
    (h.localize roots fields arrays taint).localize roots fields arrays taint =
      (h.localize roots fields arrays taint).gc roots := by
  apply readBy_get.ext
  intro c
  rw [get_localize, get_gc]
  by_cases hc : c.InScope fields arrays taint
  · exact if_congr (and_iff_left hc) rfl rfl
  · -- out of scope there is nothing left to keep
    have hempty : (h.localize roots fields arrays taint).get c = ∅ := by
      rw [get_localize, if_neg fun hp => hc hp.2]
    rw [hempty, ite_self, ite_self]

theorem get?_localize_eq_some_iff {fields : List ObjectField} {arrays : List Address} {c : Cell} {vs : ValueSet} :
    (h.localize roots fields arrays taint).get? c = some vs ↔
      h.get? c = some vs ∧ c.holder ∈ h.reachable roots ∧ c.InScope fields arrays taint :=
  get?_eq_some_iff_of_get (P := fun c => c.holder ∈ h.reachable roots ∧ c.InScope fields arrays taint)
    (h.get_localize roots fields arrays taint)

end Heap

/-! ## a call within a call -/

theorem Statics.localize_localize (s : Statics) (fields : List Field) :
    (s.localize fields).localize fields = s.localize fields := by
  apply localize_congr
  intro f hf
  rw [get_localize, if_pos hf]

namespace Snapshot

theorem gc_eq_self_iff {s : Snapshot} : s.gc = s ↔ ∀ c vs, s.heap.get? c = some vs → c.holder ∈ s.live := by
  constructor
  · intro hgc c vs hc
    rw [← hgc] at hc
    exact (Heap.get?_gc_eq_some_iff.1 hc).2
  · intro hlive
    refine Snapshot.ext rfl (Heap.readBy_get.ext fun c => ?_) rfl
    refine (s.heap.get_gc s.roots c).trans ?_
    by_cases hc : s.heap.get c = ∅
    · rw [hc, ite_self]
    · exact if_pos (hlive c _ (Heap.get?_eq_some_iff.2 ⟨rfl, hc⟩))

variable (s : Snapshot) (frame : Frame) (scope : Scope) (taint : Field)

theorem calleeRoots_localize :
    (s.localize frame scope taint).calleeRoots frame scope = s.calleeRoots frame scope := by
  show frame.roots ∪ ((s.statics.localize scope.statics).localize scope.statics).roots = _
  rw [Statics.localize_localize]
  rfl

theorem localize_localize :
    (s.localize frame scope taint).localize frame scope taint = (s.localize frame scope taint).gc := by
  refine Snapshot.ext rfl ?_ (s.statics.localize_localize _)
  show (s.localize frame scope taint).heap.localize ((s.localize frame scope taint).calleeRoots frame scope) _ _ _ = _
  rw [calleeRoots_localize]
  exact s.heap.localize_localize _ _ _ _

theorem mem_live_localize {b : Address} :
    b ∈ (s.localize frame scope taint).live ↔ s.heap.Linked (s.localize frame scope taint).roots scope taint b :=
  Heap.mem_reachable_localize

/-- all calls after the first one are collections, and of these only one does anything -/
theorem localize_iterate (n : Nat) :
    (fun t => t.localize frame scope taint)^[n + 1] (s.localize frame scope taint) =
      (s.localize frame scope taint).gc := by
  induction n with
  | zero => exact s.localize_localize frame scope taint
  | succ n ih =>
    have hf : ∀ a ∈ frame.roots, a ∈ (s.localize frame scope taint).live :=
      fun a ha => Heap.mem_reachable_of_root (ExtTreeSet.mem_union_iff.2 (.inl ha))
    rw [Function.iterate_succ_apply', ih]
    exact (localize_gc hf scope taint).trans (s.localize_localize frame scope taint)

/-- frame and statics are what they are after the first call -/
theorem frame_statics_iterate (n : Nat) :
    ((fun t => t.localize frame scope taint)^[n] (s.localize frame scope taint)).frame = frame ∧
      ((fun t => t.localize frame scope taint)^[n] (s.localize frame scope taint)).statics =
        s.statics.localize scope.statics := by
  cases n with
  | zero => exact ⟨rfl, rfl⟩
  | succ n =>
    rw [localize_iterate]
    exact ⟨rfl, rfl⟩

end Snapshot

/-- **Localizing again collects garbage.**  An entry that a callee was given, be it a taint, is still there after a
nested call exactly when places in scope lead to it, after one such call as after many, while frame and statics stay as
they are.  So nothing changes exactly when places in scope lead to every entry, and in particular when every pointer is
in scope. -/
theorem nested_localize_is_collection {s l : Snapshot} {frame : Frame} {scope : Scope} {taint : Field}
    (hl : l = s.localize frame scope taint) :
    (∀ n, (fun t => t.localize frame scope taint)^[n + 1] l = l.gc) ∧
      (∀ n, ((fun t => t.localize frame scope taint)^[n] l).frame = l.frame ∧
        ((fun t => t.localize frame scope taint)^[n] l).statics = l.statics) ∧
      (∀ c vs, (l.localize frame scope taint).heap.get? c = some vs ↔
        l.heap.get? c = some vs ∧ s.heap.Linked l.roots scope taint c.holder) ∧
      (l.localize frame scope taint = l ↔
        ∀ c vs, l.heap.get? c = some vs → s.heap.Linked l.roots scope taint c.holder) ∧
      ((∀ a b, a ∈ s.heap.reachable l.roots → s.heap.Points a b → s.heap.Links scope taint a b) →
        l.localize frame scope taint = l) := by
  subst hl
  have hagain := s.localize_localize frame scope taint
  have hlive : ∀ b, b ∈ (s.localize frame scope taint).live ↔
      s.heap.Linked (s.localize frame scope taint).roots scope taint b := fun _ => s.mem_live_localize frame scope taint
  have hself : (s.localize frame scope taint).localize frame scope taint = s.localize frame scope taint ↔
      ∀ c vs, (s.localize frame scope taint).heap.get? c = some vs →
        s.heap.Linked (s.localize frame scope taint).roots scope taint c.holder := by
    rw [hagain, Snapshot.gc_eq_self_iff]
    simp only [hlive]
  refine ⟨s.localize_iterate frame scope taint, s.frame_statics_iterate frame scope taint, fun c vs => ?_, hself,
    fun hp => hself.2 fun c vs hc => ?_⟩
  · rw [hagain, ← hlive]
    exact Heap.get?_gc_eq_some_iff
  · -- whatever was kept is at an address that the callee reaches in the whole heap
    have hreach : c.holder ∈ s.heap.reachable (s.localize frame scope taint).roots :=
      (Heap.get?_localize_eq_some_iff.1 hc).2.1
    exact Heap.linked_of_reachable hp _ hreach

/-! ## taints behind places out of scope, and in scope -/

namespace Sample

theorem third_stored : ring.get? (.field ⟨box 3, hidden⟩) = some (.singleton (.atom (.taint "t"))) := by
  apply Heap.get?_eq_singleton
  intro v
  rw [mem_ring]
  simp [box_inj]

theorem third_localized {scope : Scope} (hs : shared ∈ scope.statics) :
    (held.localize ∅ scope hidden).heap.get? (.field ⟨box 3, hidden⟩) = some (.singleton (.atom (.taint "t"))) := by
  refine Heap.get?_localize_eq_some_iff.2 ⟨third_stored, ?_, .inr rfl⟩
  rw [calleeRoots_held hs]
  exact box_mem_reachable 3 (by simp)

/-- of the places that lead through the ring none is in scope -/
theorem links_ring {a b : Address} (hab : ring.Links ringScope hidden a b) : b = box 1 := by
  obtain ⟨c, rfl, hc, hb⟩ := hab
  have hcell := mem_ring.1 hb
  simp only [List.mem_cons, Prod.mk.injEq, List.not_mem_nil, or_false] at hcell
  rcases hcell with ⟨rfl, _⟩ | ⟨_, hv⟩ | ⟨_, hv⟩ | ⟨rfl, _⟩ | ⟨rfl, _⟩
  · exact absurd hc (by decide)
  · cases hv
  · exact Value.address.inj hv
  · exact absurd hc (by decide)
  · exact absurd hc (by decide)

theorem third_not_linked : ¬ ring.Linked (boxes [1]) ringScope hidden (box 3) := by
  rintro ⟨a, ha, hab⟩
  rcases hab.cases_tail with rfl | ⟨b, _, hb⟩
  · rw [mem_boxes] at ha
    simp [box_inj] at ha
  · exact absurd (links_ring hb) (by decide)

/-- all that leads through the ring is in scope -/
def linkedScope : Scope := ⟨[⟨box 1, shared⟩], [box 2], [shared]⟩

def linkedCallee : Snapshot := held.localize ∅ linkedScope hidden

theorem links_of_points_ring {a b : Address} (ha : a ∈ ring.reachable (boxes [1])) (hab : ring.Points a b) :
    ring.Links linkedScope hidden a b := by
  obtain ⟨c, rfl, hb⟩ := hab
  have hcell := mem_ring.1 hb
  simp only [List.mem_cons, Prod.mk.injEq, List.not_mem_nil, or_false] at hcell
  refine ⟨c, rfl, ?_, hb⟩
  rcases hcell with ⟨rfl, _⟩ | ⟨_, hv⟩ | ⟨rfl, _⟩ | ⟨rfl, _⟩ | ⟨rfl, _⟩
  · decide
  · cases hv
  · exact absurd ha fourth_not_mem_reachable
  · decide
  · decide

end Sample

open Sample in
theorem nested_localize_is_collection_linked :
    linkedCallee = held.localize ∅ linkedScope Sample.hidden ∧
      (∀ a b, a ∈ held.heap.reachable linkedCallee.roots → held.heap.Points a b →
        held.heap.Links linkedScope Sample.hidden a b) ∧
      linkedCallee.localize ∅ linkedScope Sample.hidden = linkedCallee ∧
      linkedCallee.heap.get? (.field ⟨box 3, Sample.hidden⟩) = some (.singleton (.atom (.taint "t"))) := by
  have hcallee : linkedCallee = held.localize ∅ linkedScope Sample.hidden := rfl
  have hs : shared ∈ linkedScope.statics := List.mem_cons_self
  have hroots : linkedCallee.roots = boxes [1] := calleeRoots_held hs
  have hlinks : ∀ a b, a ∈ held.heap.reachable linkedCallee.roots → held.heap.Points a b →
      held.heap.Links linkedScope Sample.hidden a b := by
    rw [hroots]
    exact fun _ _ => links_of_points_ring
  obtain ⟨_, _, _, _, hself⟩ := nested_localize_is_collection hcallee
  exact ⟨hcallee, hlinks, hself hlinks, third_localized hs⟩

open Sample in
/-- the taint of the third box is given to a callee, but not to what the callee calls with the same frame and scope -/
theorem nested_localize_loses_taint :
    callee = held.localize ∅ ringScope Sample.hidden ∧
      callee.heap.get? (.field ⟨box 3, Sample.hidden⟩) = some (.singleton (.atom (.taint "t"))) ∧
      (callee.localize ∅ ringScope Sample.hidden).heap.get? (.field ⟨box 3, Sample.hidden⟩) = none ∧
      callee.localize ∅ ringScope Sample.hidden ≠ callee := by
  have hs : shared ∈ ringScope.statics := List.mem_cons_self
  have hgiven : callee.heap.get? (.field ⟨box 3, Sample.hidden⟩) = some (.singleton (.atom (.taint "t"))) :=
    third_localized hs
  have hdead : box 3 ∉ callee.live := by
    intro h
    have hroots : callee.roots = boxes [1] := calleeRoots_held hs
    have hlinked : ring.Linked callee.roots ringScope Sample.hidden (box 3) :=
      (held.mem_live_localize ∅ ringScope Sample.hidden).1 h
    rw [hroots] at hlinked
    exact third_not_linked hlinked
  have hlost : (callee.localize ∅ ringScope Sample.hidden).heap.get? (.field ⟨box 3, Sample.hidden⟩) = none := by
    rw [Option.eq_none_iff_forall_ne_some]
    intro vs hvs
    rw [callee, Snapshot.localize_localize] at hvs
    exact hdead (Heap.get?_gc_eq_some_iff.1 hvs).2
  refine ⟨rfl, hgiven, hlost, fun h => ?_⟩
  rw [h, hgiven] at hlost
  cases hlost

end InfoFlow
