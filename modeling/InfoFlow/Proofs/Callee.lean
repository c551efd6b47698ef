import InfoFlow.Proofs.Collection

/-!
# What a callee sees

A callee is given its own frame, the statics in its scope, and of the heap what can be reached from these.

* `Snapshot.InSight`: the locations of the caller that are looked at for this;
* `Statics.localize_congr`, `Heap.localize_congr`: statics and heaps that agree there are cut down to the same;
* `callee_noninterference`: nothing else has an influence on what the callee sees.
-/

namespace InfoFlow

open Std

/-! ## cutting down to the same -/

namespace Statics

theorem get_localize (s : Statics) (fields : List Field) (f : Field) :
    (s.localize fields).get f = if f ∈ fields then s.get f else ∅ := by
  show (SparseMap.filter s fun f => f ∈ fields).get f = _
  rw [SparseMap.get_filter]
  simp only [decide_eq_true_eq]

theorem localize_congr {s t : Statics} {fields : List Field} (h : ∀ f ∈ fields, s.get f = t.get f) :
    s.localize fields = t.localize fields := by
  apply SparseMap.ext
  intro f
  rw [get_localize, get_localize]
  split
  · next hf => exact h f hf
  · rfl

end Statics

theorem Heap.localize_congr {h k : Heap} {roots : AddressSet} {fields : List ObjectField} {arrays : List Address}
    {taint : Field} (hcells : ∀ c : Cell, c.holder ∈ h.reachable roots → h.get c = k.get c) :
    h.localize roots fields arrays taint = k.localize roots fields arrays taint := by
  apply Heap.readBy_get.ext
  intro c
  -- what is reachable is not assumed to be the same, but follows from the agreement
  rw [get_localize, get_localize, ← reachable_congr hcells]
  split
  · next hc => exact hcells c hc.1
  · rfl

/-! ## locations in sight -/

namespace Snapshot

theorem mem_calleeRoots {s : Snapshot} {frame : Frame} {scope : Scope} {a : Address} :
    a ∈ s.calleeRoots frame scope ↔
      (∃ p, Value.address a ∈ frame.get p) ∨ ∃ f ∈ scope.statics, Value.address a ∈ s.statics.get f := by
  rw [calleeRoots, ExtTreeSet.mem_union_iff, Frame.mem_roots, Statics.roots, Store.mem_addresses]
  apply or_congr_right
  constructor
  · rintro ⟨f, ha⟩
    rw [Statics.get_localize] at ha
    split at ha
    · next hf => exact ⟨f, hf, ha⟩
    · exact absurd ha (ValueSet.not_mem_empty _)
  · rintro ⟨f, hf, ha⟩
    exact ⟨f, by rwa [Statics.get_localize, if_pos hf]⟩

/-- the caller's locations that are looked at for a callee: the statics in its scope, and all cells of the
    addresses that can be reached from there or from the callee's frame.  Slots of the caller's own frame are
    never in sight. -/
def InSight (s : Snapshot) (frame : Frame) (scope : Scope) : Location → Prop
  | .slot _ => False
  | .field k => k.address ∈ s.heap.reachable (s.calleeRoots frame scope)
  | .array a => a ∈ s.heap.reachable (s.calleeRoots frame scope)
  | .static f => f ∈ scope.statics

theorem inSight_location {s : Snapshot} {frame : Frame} {scope : Scope} {c : Cell} :
    s.InSight frame scope c.location ↔ c.holder ∈ s.heap.reachable (s.calleeRoots frame scope) := by
  cases c with
  | field k => exact Iff.rfl
  | array a => exact Iff.rfl

theorem localize_congr {s t : Snapshot} {frame : Frame} {scope : Scope}
    (h : ∀ l, s.InSight frame scope l → s.get l = t.get l) (taint : Field) :
    s.localize frame scope taint = t.localize frame scope taint := by
  have hstatics : s.statics.localize scope.statics = t.statics.localize scope.statics :=
    Statics.localize_congr fun f hf => h (.static f) hf
  have hroots : s.calleeRoots frame scope = t.calleeRoots frame scope := by
    rw [calleeRoots, calleeRoots, hstatics]
  have hcells : ∀ c : Cell, c.holder ∈ s.heap.reachable (s.calleeRoots frame scope) →
      s.heap.get c = t.heap.get c := by
    intro c hc
    rw [← get_location, ← get_location]
    exact h c.location (inSight_location.2 hc)
  refine Snapshot.ext rfl ?_ hstatics
  show s.heap.localize (s.calleeRoots frame scope) _ _ _ = t.heap.localize (t.calleeRoots frame scope) _ _ _
  rw [← hroots]
  exact Heap.localize_congr hcells

theorem get_updateAll_of_ne {s : Snapshot} {us : List Update} {l : Location} (h : ∀ u ∈ us, u.location ≠ l) :
    (s.updateAll us).get l = s.get l := by
  induction us generalizing s with
  | nil => rfl
  | cons u us ih =>
    have hu : (s.update u).get l = s.get l := by
      rw [update, get_write, if_neg (h u List.mem_cons_self)]
    show ((s.update u).updateAll us).get l = _
    rw [ih fun v hv => h v (List.mem_cons_of_mem _ hv), hu]

/-- updates out of sight leave alone what is in sight -/
theorem get_updateAll_of_inSight {s : Snapshot} {frame : Frame} {scope : Scope} {us : List Update}
    (h : ∀ u ∈ us, ¬ s.InSight frame scope u.location) {l : Location} (hl : s.InSight frame scope l) :
    s.get l = (s.updateAll us).get l := by
  have hne : ∀ u ∈ us, u.location ≠ l := fun u hu e => h u hu (e ▸ hl)
  exact (get_updateAll_of_ne hne).symm

end Snapshot

/-- **Noninterference.**  Snapshots that agree in sight of a callee look the same to it.  So whatever is done
to the caller's frame, to statics out of scope and to what only these reach, the callee sees no difference. -/
theorem callee_noninterference (s : Snapshot) (frame : Frame) (scope : Scope) (taint : Field) :
    (∀ t : Snapshot, (∀ l, s.InSight frame scope l → s.get l = t.get l) →
        s.localize frame scope taint = t.localize frame scope taint) ∧
      ∀ us : List Update, (∀ u ∈ us, ¬ s.InSight frame scope u.location) →
        s.localize frame scope taint = (s.updateAll us).localize frame scope taint :=
  ⟨fun _ h => Snapshot.localize_congr h taint,
    fun _ h => Snapshot.localize_congr (fun _ hl => Snapshot.get_updateAll_of_inSight h hl) taint⟩

/-! ## a caller with something to hide -/

namespace Sample

/-- the callee mentions both arrays, but of the static fields only the shared one -/
def sharedScope : Scope := ⟨[], [box 1, box 2], [shared]⟩

/-- the caller's frame and a static field out of scope come to hold the second box, whose array grows -/
def secrets : List Update :=
  [⟨.slot (.receiver main), .strong (.singleton (.address (box 2)))⟩,
    ⟨.static hidden, .weak (.singleton (.address (box 2)))⟩,
    ⟨.array (box 2), .weak (.singleton (.address (box 1)))⟩]

theorem mem_roots_of_calleeRoots {a : Address} (h : a ∈ start.calleeRoots ∅ sharedScope) : a ∈ start.roots := by
  rcases Snapshot.mem_calleeRoots.1 h with ⟨p, h⟩ | ⟨f, _, h⟩
  · rw [Frame.readBy_get.empty] at h
    exact absurd h (ValueSet.not_mem_empty _)
  · exact Snapshot.mem_roots_iff.2 ⟨.static f, rfl, h⟩

theorem reachable_start {a : Address} (h : a ∈ start.heap.reachable (start.calleeRoots ∅ sharedScope)) :
    a = box 1 := by
  have hlive : a ∈ start.live :=
    Heap.reachable_subset (fun _ => mem_roots_of_calleeRoots) (fun _ _ _ => ValueSet.subset_refl _) a h
  exact mem_live_start.1 hlive

theorem not_inSight_secrets : ∀ u ∈ secrets, ¬ start.InSight ∅ sharedScope u.location := by
  intro u hu
  simp only [secrets, List.mem_cons, List.not_mem_nil, or_false] at hu
  rcases hu with rfl | rfl | rfl
  · exact id
  · show hidden ∉ [shared]
    decide
  · exact fun h => absurd (reachable_start h) (by decide)

theorem secrets_ne : start.updateAll secrets ≠ start := by
  intro h
  have hb : Value.address (box 2) ∈ (start.updateAll secrets).get (.static hidden) := by
    show _ ∈ (((start.write _ _).2.write _ _).2.write _ _).2.get _
    rw [Snapshot.get_write, if_neg (by decide), Snapshot.get_write, if_pos rfl]
    exact ValueSet.mem_union.2 (.inr (ValueSet.mem_singleton.2 rfl))
  rw [h, get_start, if_neg (by decide), if_neg (by decide)] at hb
  exact ValueSet.not_mem_empty _ hb

end Sample

open Sample in
theorem callee_noninterference_secrets :
    start.updateAll secrets ≠ start ∧
      (∀ u ∈ secrets, ¬ start.InSight ∅ sharedScope u.location) ∧
      (∀ l, start.InSight ∅ sharedScope l → start.get l = (start.updateAll secrets).get l) ∧
      start.localize ∅ sharedScope shared = (start.updateAll secrets).localize ∅ sharedScope shared := by
  have h : ∀ l, start.InSight ∅ sharedScope l → start.get l = (start.updateAll secrets).get l :=
    fun l hl => Snapshot.get_updateAll_of_inSight not_inSight_secrets hl
  exact ⟨secrets_ne, not_inSight_secrets, h, (callee_noninterference _ _ _ _).1 _ h⟩

end InfoFlow
