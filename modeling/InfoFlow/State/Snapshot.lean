import InfoFlow.State.Frame
import InfoFlow.State.Heap

/-!
# Snapshots

A snapshot is the whole abstract state in one calling context: a frame, a heap, and the values of static
fields.

* `Location`: any place of a snapshot; `Snapshot.get` and `Snapshot.write` work on one location;
* `Snapshot.gc`: the snapshot without the part of the heap that neither frame nor statics can reach;
* `Snapshot.localize`: what a callee can see, given its frame and the scope of what it mentions.
-/

namespace InfoFlow

open Std

/-- the values of static fields -/
abbrev Statics := Store Field

namespace Statics

/-- all addresses held in static fields -/
def roots (s : Statics) : AddressSet := Store.addresses s

/-- the statics cut down to the given fields -/
def localize (s : Statics) (fields : List Field) : Statics := SparseMap.filter s fun f => f ∈ fields

def report (s : Statics) : Json := Store.report s Field.signature

end Statics

/-- what a callee mentions, directly or not -/
structure Scope where
  objectFields : List ObjectField
  arrays : List Address
  statics : List Field
deriving DecidableEq

/-- any place of a snapshot -/
inductive Location
  | slot (s : Slot)
  | field (k : ObjectField)
  | array (a : Address)
  | static (f : Field)
deriving DecidableEq

@[ext] structure Snapshot where
  frame : Frame
  heap : Heap
  statics : Statics
deriving DecidableEq

namespace Snapshot

/-! ## facts -/

instance : EmptyCollection Snapshot := ⟨⟨∅, ∅, ∅⟩⟩

instance : Inhabited Snapshot := ⟨∅⟩

instance : Union Snapshot :=
  ⟨fun s t => ⟨s.frame ∪ t.frame, s.heap ∪ t.heap, s.statics ∪ t.statics⟩⟩

instance : SDiff Snapshot :=
  ⟨fun s t => ⟨s.frame \ t.frame, s.heap \ t.heap, s.statics \ t.statics⟩⟩

@[simp] theorem frame_union (s t : Snapshot) : (s ∪ t).frame = s.frame ∪ t.frame := rfl
@[simp] theorem heap_union (s t : Snapshot) : (s ∪ t).heap = s.heap ∪ t.heap := rfl
@[simp] theorem statics_union (s t : Snapshot) : (s ∪ t).statics = s.statics ∪ t.statics := rfl

@[simp] theorem frame_diff (s t : Snapshot) : (s \ t).frame = s.frame \ t.frame := rfl
@[simp] theorem heap_diff (s t : Snapshot) : (s \ t).heap = s.heap \ t.heap := rfl
@[simp] theorem statics_diff (s t : Snapshot) : (s \ t).statics = s.statics \ t.statics := rfl

instance : Facts Snapshot where
  union_comm _ _ := Snapshot.ext (Facts.union_comm _ _) (Facts.union_comm _ _) (Facts.union_comm _ _)
  union_assoc _ _ _ :=
    Snapshot.ext (Facts.union_assoc _ _ _) (Facts.union_assoc _ _ _) (Facts.union_assoc _ _ _)
  union_self _ := Snapshot.ext (Facts.union_self _) (Facts.union_self _) (Facts.union_self _)
  union_empty _ := Snapshot.ext (Facts.union_empty _) (Facts.union_empty _) (Facts.union_empty _)
  diff_below a b c := by
    simp only [Snapshot.ext_iff, frame_union, heap_union, statics_union, frame_diff, heap_diff,
      statics_diff, Facts.diff_below]

/-- whether no location holds a value -/
def isEmpty (s : Snapshot) : Bool := s.frame.isEmpty && s.heap.isEmpty && s.statics.isEmpty

theorem isEmpty_iff {s : Snapshot} : s.isEmpty = true ↔ s = ∅ := by
  simp only [isEmpty, Bool.and_eq_true, Frame.isEmpty_iff, Heap.isEmpty_iff]
  constructor
  · rintro ⟨⟨hf, hh⟩, hs⟩
    exact Snapshot.ext hf hh (SparseMap.isEmpty_iff.1 hs)
  · rintro rfl
    exact ⟨⟨rfl, rfl⟩, rfl⟩

/-! ## locations -/

/-- the values at a location -/
def get (s : Snapshot) : Location → ValueSet
  | .slot p => s.frame.get p
  | .field k => s.heap.fields.get k
  | .array a => s.heap.arrays.get a
  | .static f => s.statics.get f

/-- writes one location; also tells what was stored there before -/
def write (s : Snapshot) (l : Location) (w : Write ValueSet) : Option ValueSet × Snapshot :=
  match l with
  | .slot p => let r := s.frame.write p w; (r.1, { s with frame := r.2 })
  | .field k => let r := s.heap.fields.write k w; (r.1, { s with heap := { s.heap with fields := r.2 } })
  | .array a => let r := s.heap.arrays.write a w; (r.1, { s with heap := { s.heap with arrays := r.2 } })
  | .static f => let r := s.statics.write f w; (r.1, { s with statics := r.2 })

@[simp] theorem get_write (s : Snapshot) (l : Location) (w : Write ValueSet) (m : Location) :
    (s.write l w).2.get m = if l = m then w.apply (s.get m) else s.get m := by
  cases l <;> cases m <;> simp [write, get]

/-! ## reachability -/

/-- all addresses held outside the heap -/
def roots (s : Snapshot) : AddressSet := s.frame.roots ∪ s.statics.roots

/-- the snapshot without the garbage in its heap -/
def gc (s : Snapshot) : Snapshot := { s with heap := s.heap.gc s.roots }

def gcTraced (s : Snapshot) : Traced Snapshot where
  value := s.gc
  log := (s.heap.gcTraced s.roots).log

/-- the roots of a callee: its frame, and the statics in its scope -/
def calleeRoots (s : Snapshot) (frame : Frame) (scope : Scope) : AddressSet :=
  frame.roots ∪ (s.statics.localize scope.statics).roots

/-- what a callee with this frame can see: the statics in its scope, and of the heap that can be reached
    from there or from the frame the fields and arrays in its scope and the field `taint` of every object -/
def localize (s : Snapshot) (frame : Frame) (scope : Scope) (taint : Field) : Snapshot where
  frame
  heap := s.heap.localize (s.calleeRoots frame scope) scope.objectFields scope.arrays taint
  statics := s.statics.localize scope.statics

def localizeTraced (s : Snapshot) (frame : Frame) (scope : Scope) (taint : Field) : Traced Snapshot where
  value := s.localize frame scope taint
  log := (s.heap.localizeTraced (s.calleeRoots frame scope) scope.objectFields scope.arrays taint).log

/-! ## text -/

instance : ToString Snapshot where
  toString s := "(" ++ toString s.frame ++ ", " ++ toString s.heap ++ ", " ++ toString s.statics ++ ")"

def report (s : Snapshot) : Json :=
  .obj [("frame", s.frame.report), ("heap", s.heap.report), ("statics", s.statics.report)]

end Snapshot

end InfoFlow
