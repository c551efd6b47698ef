import InfoFlow.Location.Slot
import InfoFlow.State.Store

/-!
# Frames

A frame holds the values of local variables, of receivers and of parameters.

* `Frame.get`, `Frame.write`: one slot of any of the three kinds;
* `Frame.roots`: all addresses held in the frame (`mem_roots`);
* `Frame.withArguments`: the frame of a callee, which keeps the local variables.
-/

namespace InfoFlow

open Std

@[ext] structure Frame where
  locals : Store LocalSlot
  receivers : Store Method
  params : Store ParamSlot
deriving DecidableEq

namespace Frame

/-! ## facts -/

instance : EmptyCollection Frame := ⟨⟨∅, ∅, ∅⟩⟩

instance : Inhabited Frame := ⟨∅⟩

instance : Union Frame :=
  ⟨fun f g => ⟨f.locals ∪ g.locals, f.receivers ∪ g.receivers, f.params ∪ g.params⟩⟩

instance : SDiff Frame :=
  ⟨fun f g => ⟨f.locals \ g.locals, f.receivers \ g.receivers, f.params \ g.params⟩⟩

@[simp] theorem locals_union (f g : Frame) : (f ∪ g).locals = f.locals ∪ g.locals := rfl
@[simp] theorem receivers_union (f g : Frame) : (f ∪ g).receivers = f.receivers ∪ g.receivers := rfl
@[simp] theorem params_union (f g : Frame) : (f ∪ g).params = f.params ∪ g.params := rfl

@[simp] theorem locals_diff (f g : Frame) : (f \ g).locals = f.locals \ g.locals := rfl
@[simp] theorem receivers_diff (f g : Frame) : (f \ g).receivers = f.receivers \ g.receivers := rfl
@[simp] theorem params_diff (f g : Frame) : (f \ g).params = f.params \ g.params := rfl

instance : Facts Frame where
  union_comm _ _ := Frame.ext (Facts.union_comm _ _) (Facts.union_comm _ _) (Facts.union_comm _ _)
  union_assoc _ _ _ :=
    Frame.ext (Facts.union_assoc _ _ _) (Facts.union_assoc _ _ _) (Facts.union_assoc _ _ _)
  union_self _ := Frame.ext (Facts.union_self _) (Facts.union_self _) (Facts.union_self _)
  union_empty _ := Frame.ext (Facts.union_empty _) (Facts.union_empty _) (Facts.union_empty _)
  diff_below a b c := by
    simp only [Frame.ext_iff, locals_union, receivers_union, params_union, locals_diff, receivers_diff,
      params_diff, Facts.diff_below]

/-- whether no slot holds a value -/
def isEmpty (f : Frame) : Bool := f.locals.isEmpty && f.receivers.isEmpty && f.params.isEmpty

theorem isEmpty_iff {f : Frame} : f.isEmpty = true ↔ f = ∅ := by
  simp only [isEmpty, Bool.and_eq_true, SparseMap.isEmpty_iff]
  constructor
  · rintro ⟨⟨hl, hr⟩, hp⟩
    exact Frame.ext hl hr hp
  · rintro rfl
    exact ⟨⟨rfl, rfl⟩, rfl⟩

/-! ## slots -/

/-- the values in a slot -/
def get (f : Frame) : Slot → ValueSet
  | .var s => f.locals.get s
  | .receiver m => f.receivers.get m
  | .param s => f.params.get s

/-- writes one slot; also tells what was stored there before -/
def write (f : Frame) (s : Slot) (w : Write ValueSet) : Option ValueSet × Frame :=
  match s with
  | .var s => let r := f.locals.write s w; (r.1, { f with locals := r.2 })
  | .receiver m => let r := f.receivers.write m w; (r.1, { f with receivers := r.2 })
  | .param s => let r := f.params.write s w; (r.1, { f with params := r.2 })

@[simp] theorem get_write (f : Frame) (s : Slot) (w : Write ValueSet) (t : Slot) :
    (f.write s w).2.get t = if s = t then w.apply (f.get t) else f.get t := by
  cases s <;> cases t <;> simp [write, get]

/-- the frame that has the same local variables, and these receivers and parameters -/
def withArguments (f : Frame) (receivers : Store Method) (params : Store ParamSlot) : Frame :=
  { f with receivers, params }

/-! ## addresses -/

/-- all addresses held in the frame -/
def roots (f : Frame) : AddressSet := f.locals.addresses ∪ f.receivers.addresses ∪ f.params.addresses

theorem mem_roots {f : Frame} {a : Address} : a ∈ f.roots ↔ ∃ s, Value.address a ∈ f.get s := by
  rw [roots, ExtTreeSet.mem_union_iff, ExtTreeSet.mem_union_iff, Store.mem_addresses,
    Store.mem_addresses, Store.mem_addresses]
  constructor
  · rintro ((⟨s, h⟩ | ⟨m, h⟩) | ⟨s, h⟩)
    · exact ⟨.var s, h⟩
    · exact ⟨.receiver m, h⟩
    · exact ⟨.param s, h⟩
  · rintro ⟨s | m | s, h⟩
    · exact .inl (.inl ⟨s, h⟩)
    · exact .inl (.inr ⟨m, h⟩)
    · exact .inr ⟨s, h⟩

/-! ## text -/

instance : ToString Frame where
  toString f := "(" ++ toString f.locals ++ ", " ++ toString f.receivers ++ ", " ++ toString f.params ++ ")"

def report (f : Frame) : Json :=
  .obj [("locals", f.locals.report LocalSlot.label), ("receivers", f.receivers.report Method.receiverLabel),
    ("parameters", f.params.report ParamSlot.label)]

end Frame

end InfoFlow
