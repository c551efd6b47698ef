import InfoFlow.Proofs.Callee
import InfoFlow.Proofs.Lattice

/-!
# Coarser runs

A run of transfers writes, merges, collects garbage and enters callees.  A run that starts from more facts and is
coarser at each step ends with more facts.

* `Write.Coarser`, `Transfer.Coarser`, `CoarserRun`: what may be done in place of a write, of a transfer and of a
  run: more values, more facts, a larger frame or scope, adding in place of replacing, not clearing;
* `Snapshot.live_mono`: more facts make more addresses live, so that collecting (`Snapshot.gc_mono`) and
  localizing (`Snapshot.localize_mono`) keep the order, although both take facts away;
* `coarser_run_above`: the order is kept from the start of two runs to their ends.
-/

namespace InfoFlow

open Std

/-! ## writes -/

/-- `w'` may stand for `w`: it brings in at least the same values, in the same way or by adding where `w`
    replaces -/
inductive Write.Coarser : Write ValueSet → Write ValueSet → Prop
  | strong {v v' : ValueSet} (h : v ⊆ v') : Coarser (.strong v) (.strong v')
  | weak {v v' : ValueSet} (h : v ⊆ v') : Coarser (.weak v) (.weak v')
  | weaken {v v' : ValueSet} (h : v ⊆ v') : Coarser (.strong v) (.weak v')
  | clear : Coarser .clear .clear

theorem Write.Coarser.apply_subset {w w' : Write ValueSet} (h : w.Coarser w') {old old' : ValueSet}
    (ho : old ⊆ old') : w.apply old ⊆ w'.apply old' := by
  cases h with
  | strong h => exact h
  | weak h =>
    intro v hv
    rcases ValueSet.mem_union.1 hv with hv | hv
    · exact ValueSet.mem_union.2 (.inl (ho v hv))
    · exact ValueSet.mem_union.2 (.inr (h v hv))
  | weaken h => exact fun v hv => ValueSet.mem_union.2 (.inr (h v hv))
  | clear => exact ValueSet.subset_refl _

namespace Snapshot

variable {s t : Snapshot}

theorem below_iff : Facts.Below s t ↔ ∀ l, s.get l ⊆ t.get l := readBy_get.below_iff

theorem write_mono (h : Facts.Below s t) (l : Location) {w w' : Write ValueSet} (hw : w.Coarser w') :
    Facts.Below (s.write l w).2 (t.write l w').2 := by
  rw [below_iff] at h ⊢
  intro m
  rw [get_write, get_write]
  split
  · exact hw.apply_subset (h m)
  · exact h m

theorem write_clear_below (h : Facts.Below s t) (l : Location) : Facts.Below (s.write l .clear).2 t := by
  rw [below_iff] at h ⊢
  intro m
  rw [get_write]
  split
  · exact ValueSet.empty_subset _
  · exact h m

/-! ## collecting -/

theorem heap_get_subset (h : Facts.Below s t) (c : Cell) : s.heap.get c ⊆ t.heap.get c := by
  rw [← get_location, ← get_location]
  exact below_iff.1 h c.location

theorem roots_mono (h : Facts.Below s t) : ∀ a ∈ s.roots, a ∈ t.roots := by
  intro a ha
  obtain ⟨l, hl, ha⟩ := mem_roots_iff.1 ha
  exact mem_roots_iff.2 ⟨l, hl, below_iff.1 h l _ ha⟩

theorem live_mono (h : Facts.Below s t) : ∀ a ∈ s.live, a ∈ t.live :=
  Heap.reachable_subset (roots_mono h) fun c _ _ => heap_get_subset h c

theorem gc_mono (h : Facts.Below s t) : Facts.Below s.gc t.gc := by
  rw [below_iff]
  intro l
  by_cases hl : l.Within s.live
  · have ht : l.Within t.live := fun a ha => live_mono h a (hl a ha)
    rw [get_gc_of_within hl, get_gc_of_within ht]
    exact below_iff.1 h l
  · rw [get_gc_of_not_within hl]
    exact ValueSet.empty_subset _

end Snapshot

/-! ## localizing -/

/-- the scope `scope'` names all that `scope` names -/
structure Scope.Within (scope scope' : Scope) : Prop where
  objectFields : scope.objectFields ⊆ scope'.objectFields
  arrays : scope.arrays ⊆ scope'.arrays
  statics : scope.statics ⊆ scope'.statics

theorem Cell.InScope.mono {scope scope' : Scope} (h : scope.Within scope') {taint : Field} {c : Cell}
    (hc : c.InScope scope.objectFields scope.arrays taint) :
    c.InScope scope'.objectFields scope'.arrays taint := by
  cases c with
  | field k => exact hc.imp_left fun hk => h.objectFields hk
  | array a => exact h.arrays hc

theorem Heap.localize_mono {h k : Heap} (hcells : ∀ c, h.get c ⊆ k.get c) {roots roots' : AddressSet}
    (hroots : ∀ a ∈ roots, a ∈ roots') {scope scope' : Scope} (hs : scope.Within scope') (taint : Field)
    (c : Cell) :
    (h.localize roots scope.objectFields scope.arrays taint).get c ⊆
      (k.localize roots' scope'.objectFields scope'.arrays taint).get c := by
  rw [get_localize, get_localize]
  split
  · next hc =>
    have hreach : c.holder ∈ k.reachable roots' := reachable_subset hroots (fun c _ _ => hcells c) _ hc.1
    rw [if_pos ⟨hreach, hc.2.mono hs⟩]
    exact hcells c
  · exact ValueSet.empty_subset _

namespace Snapshot

variable {s t : Snapshot} {frame frame' : Frame} {scope scope' : Scope}

theorem calleeRoots_mono (h : Facts.Below s t) (hf : Facts.Below frame frame') (hs : scope.Within scope') :
    ∀ a ∈ s.calleeRoots frame scope, a ∈ t.calleeRoots frame' scope' := by
  intro a ha
  rcases mem_calleeRoots.1 ha with ⟨p, ha⟩ | ⟨f, hfs, ha⟩
  · exact mem_calleeRoots.2 (.inl ⟨p, Frame.readBy_get.below_iff.1 hf p _ ha⟩)
  · exact mem_calleeRoots.2 (.inr ⟨f, hs.statics hfs, below_iff.1 h (.static f) _ ha⟩)

theorem localize_mono (h : Facts.Below s t) (hf : Facts.Below frame frame') (hs : scope.Within scope')
    (taint : Field) : Facts.Below (s.localize frame scope taint) (t.localize frame' scope' taint) := by
  have hheap : ∀ c : Cell, (s.localize frame scope taint).heap.get c ⊆ (t.localize frame' scope' taint).heap.get c :=
    Heap.localize_mono (heap_get_subset h) (calleeRoots_mono h hf hs) hs taint
  rw [below_iff]
  intro l
  cases l with
  | slot p => exact Frame.readBy_get.below_iff.1 hf p
  | field k => exact hheap (.field k)
  | array a => exact hheap (.array a)
  | static f =>
    show (s.statics.localize scope.statics).get f ⊆ (t.statics.localize scope'.statics).get f
    rw [Statics.get_localize, Statics.get_localize]
    split
    · next hfs =>
      rw [if_pos (hs.statics hfs)]
      exact below_iff.1 h (.static f)
    · exact ValueSet.empty_subset _

end Snapshot

/-! ## transfers -/

/-- one step of an analysis in one context -/
inductive Transfer
  | write (l : Location) (w : Write ValueSet)
  | merge (t : Snapshot)
  | collect
  /-- from here on the run is in a callee -/
  | enter (frame : Frame) (scope : Scope) (taint : Field)

/-- `y` may stand for `x` -/
inductive Transfer.Coarser : Transfer → Transfer → Prop
  | write (l : Location) {w w' : Write ValueSet} (h : w.Coarser w') : Coarser (.write l w) (.write l w')
  | merge {t t' : Snapshot} (h : Facts.Below t t') : Coarser (.merge t) (.merge t')
  | collect : Coarser .collect .collect
  | enter {frame frame' : Frame} {scope scope' : Scope} (hf : Facts.Below frame frame')
      (hs : scope.Within scope') (taint : Field) :
      Coarser (.enter frame scope taint) (.enter frame' scope' taint)

/-- the second run may stand for the first: each of its transfers for one of the first, in order, where the
    first may also clear locations in between -/
inductive CoarserRun : List Transfer → List Transfer → Prop
  | nil : CoarserRun [] []
  | step {x y : Transfer} {xs ys : List Transfer} (h : x.Coarser y) (hs : CoarserRun xs ys) :
      CoarserRun (x :: xs) (y :: ys)
  | skip (l : Location) {xs ys : List Transfer} (hs : CoarserRun xs ys) : CoarserRun (.write l .clear :: xs) ys

namespace Snapshot

def transfer (s : Snapshot) : Transfer → Snapshot
  | .write l w => (s.write l w).2
  | .merge t => s ∪ t
  | .collect => s.gc
  | .enter frame scope taint => s.localize frame scope taint

def transferAll (s : Snapshot) (xs : List Transfer) : Snapshot := xs.foldl transfer s

theorem transfer_mono {s t : Snapshot} (h : Facts.Below s t) {x y : Transfer} (hxy : x.Coarser y) :
    Facts.Below (s.transfer x) (t.transfer y) := by
  cases hxy with
  | write l hw => exact write_mono h l hw
  | merge ht =>
    exact Facts.union_below_iff.2 ⟨Facts.below_trans h (Facts.below_union_left _ _),
      Facts.below_trans ht (Facts.below_union_right _ _)⟩
  | collect => exact gc_mono h
  | enter hf hs taint => exact localize_mono h hf hs taint

end Snapshot

/-- **Coarser runs end above.**  Whatever is written, merged, collected and entered, a run from a larger snapshot
that is coarser step by step, also by adding where the other replaces and by not clearing, ends in a larger
snapshot. -/
theorem coarser_run_above {s t : Snapshot} (h : Facts.Below s t) {xs ys : List Transfer} (hxy : CoarserRun xs ys) :
    Facts.Below (s.transferAll xs) (t.transferAll ys) := by
  induction hxy generalizing s t with
  | nil => exact h
  | step hx _ ih => exact ih (Snapshot.transfer_mono h hx)
  | skip l _ ih => exact ih (Snapshot.write_clear_below h l)

/-! ## a run and a coarser one -/

namespace Sample

/-- the static field is set and cleared again, then a box is merged in and a callee is entered -/
def precise : List Transfer :=
  [.write (.static shared) (.strong (.singleton (.address (box 1)))), .write (.static shared) .clear,
    .merge ⟨∅, ∅, holding [1]⟩, .collect, .enter ∅ ⟨[], [], [shared]⟩ shared]

/-- the same, but the static field is only ever added to, and the callee mentions some arrays -/
def coarse : List Transfer :=
  [.write (.static shared) (.weak (.ofList [.address (box 1), .address (box 2)])),
    .merge ⟨∅, ∅, holding [1, 3]⟩, .collect, .enter ∅ sharedScope shared]

theorem coarserRun_precise : CoarserRun precise coarse := by
  have hv : ValueSet.singleton (.address (box 1)) ⊆ .ofList [.address (box 1), .address (box 2)] := by
    intro v hv
    rw [ValueSet.mem_singleton.1 hv, ValueSet.mem_ofList]
    exact List.mem_cons_self
  have ht : Facts.Below (⟨∅, ∅, holding [1]⟩ : Snapshot) ⟨∅, ∅, holding [1, 3]⟩ :=
    Facts.below_iff.2 (Snapshot.ext (Facts.union_self _) (Facts.union_self _)
      (Facts.below_iff.1 (holding_below (by decide))))
  have hs : Scope.Within ⟨[], [], [shared]⟩ sharedScope :=
    ⟨List.nil_subset _, List.nil_subset _, List.Subset.refl _⟩
  exact .step (.write _ (.weaken hv)) (.skip _ (.step (.merge ht) (.step .collect
    (.step (.enter (Facts.below_iff.2 (Facts.union_self _)) hs shared) .nil))))

end Sample

open Sample in
theorem coarser_run_above_precise :
    Facts.Below (∅ : Snapshot) start ∧ CoarserRun precise coarse ∧
      Facts.Below ((∅ : Snapshot).transferAll precise) (start.transferAll coarse) := by
  have h : Facts.Below (∅ : Snapshot) start := Facts.below_iff.2 (Facts.empty_union _)
  exact ⟨h, coarserRun_precise, coarser_run_above h coarserRun_precise⟩

end InfoFlow
