import InfoFlow.State.Analysis

/-!
# Facts place by place

Each kind of state can be read as a function from places to values: a store at its keys, a frame at its
slots, a heap at its cells, a snapshot at its locations, an analysis at its contexts.

* `ReadBy get`: reading by `get` tells everything, and `∅`, `∪`, `\` work at each place alone;
* `ReadBy.comp`: reading twice is reading once, so an analysis is also read at a context and a location.
-/

namespace InfoFlow

open Std

/-- `get` tells collections of facts apart, and their operations work at each place alone -/
structure ReadBy {α π ν : Type} [EmptyCollection α] [Union α] [SDiff α] [EmptyCollection ν] [Union ν] [SDiff ν]
    (get : α → π → ν) : Prop where
  ext : ∀ {a b : α}, (∀ p, get a p = get b p) → a = b
  empty : ∀ p, get ∅ p = ∅
  union : ∀ (a b : α) p, get (a ∪ b) p = get a p ∪ get b p
  diff : ∀ (a b : α) p, get (a \ b) p = get a p \ get b p

namespace ReadBy

variable {α β π ρ ν : Type} [EmptyCollection α] [Union α] [SDiff α] [EmptyCollection β] [Union β] [SDiff β]
  [EmptyCollection ν] [Union ν] [SDiff ν]

theorem eq_iff {get : α → π → ν} (h : ReadBy get) {a b : α} : a = b ↔ ∀ p, get a p = get b p :=
  ⟨fun e _ => e ▸ rfl, h.ext⟩

theorem comp {f : α → π → β} {g : β → ρ → ν} (hf : ReadBy f) (hg : ReadBy g) :
    ReadBy fun (a : α) (p : π × ρ) => g (f a p.1) p.2 where
  ext h := hf.ext fun p => hg.ext fun q => h (p, q)
  empty p := by rw [hf.empty, hg.empty]
  union a b p := by rw [hf.union, hg.union]
  diff a b p := by rw [hf.diff, hg.diff]

end ReadBy

/-! ## stores -/

namespace SparseMap

variable {κ ν : Type} [Ord κ] [TransOrd κ] [LawfulEqOrd κ] [DecidableEq ν] [EmptyCollection ν] [Union ν]
  [SDiff ν] [Facts ν]

theorem readBy_get : ReadBy (get : SparseMap κ ν → κ → ν) where
  ext := SparseMap.ext
  empty := get_empty
  union := get_union
  diff := get_diff

end SparseMap

/-! ## frames -/

namespace Frame

theorem readBy_get : ReadBy Frame.get where
  ext h := Frame.ext (SparseMap.ext fun s => h (.var s)) (SparseMap.ext fun m => h (.receiver m))
    (SparseMap.ext fun s => h (.param s))
  empty s := by cases s <;> exact SparseMap.get_empty _
  union f g s := by cases s <;> exact SparseMap.get_union _ _ _
  diff f g s := by cases s <;> exact SparseMap.get_diff _ _ _

end Frame

/-! ## heaps -/

/-- any place of a heap: a field of objects, or the elements of arrays -/
inductive Cell
  | field (k : ObjectField)
  | array (a : Address)

namespace Heap

/-- the values in a cell -/
def get (h : Heap) : Cell → ValueSet
  | .field k => h.fields.get k
  | .array a => h.arrays.get a

theorem readBy_get : ReadBy Heap.get where
  ext h := Heap.ext (SparseMap.ext fun k => h (.field k)) (SparseMap.ext fun a => h (.array a))
  empty c := by cases c <;> exact SparseMap.get_empty _
  union h k c := by cases c <;> exact SparseMap.get_union _ _ _
  diff h k c := by cases c <;> exact SparseMap.get_diff _ _ _

end Heap

/-! ## snapshots -/

/-- the cell of the heap as a location of the whole snapshot -/
def Cell.location : Cell → Location
  | .field k => .field k
  | .array a => .array a

namespace Snapshot

theorem get_location (s : Snapshot) (c : Cell) : s.get c.location = s.heap.get c := by
  cases c with
  | field k => rfl
  | array a => rfl

theorem readBy_get : ReadBy Snapshot.get where
  ext h := Snapshot.ext (Frame.readBy_get.ext fun p => h (.slot p))
    (Heap.ext (SparseMap.ext fun k => h (.field k)) (SparseMap.ext fun a => h (.array a)))
    (SparseMap.ext fun f => h (.static f))
  empty l := by
    cases l with
    | slot p => exact Frame.readBy_get.empty p
    | field k => exact SparseMap.get_empty k
    | array a => exact SparseMap.get_empty a
    | static f => exact SparseMap.get_empty f
  union s t l := by
    cases l with
    | slot p => exact Frame.readBy_get.union _ _ p
    | field k => exact SparseMap.get_union _ _ k
    | array a => exact SparseMap.get_union _ _ a
    | static f => exact SparseMap.get_union _ _ f
  diff s t l := by
    cases l with
    | slot p => exact Frame.readBy_get.diff _ _ p
    | field k => exact SparseMap.get_diff _ _ k
    | array a => exact SparseMap.get_diff _ _ a
    | static f => exact SparseMap.get_diff _ _ f

end Snapshot

/-! ## analyses -/

namespace Analysis

/-- the values at a location of the snapshot of a context -/
def getAt (s : Analysis) (p : Context × Location) : ValueSet := (s.get p.1).get p.2

theorem readBy_getAt : ReadBy getAt := SparseMap.readBy_get.comp Snapshot.readBy_get

end Analysis

/-! ## addresses, fields and a method to show states with -/

namespace Sample

/-- the address of the `i`-th box -/
def box (i : Nat) : Address where
  site := { id := i, type := "Box", method := none, text := _, text_eq := rfl, type_ne := by decide }

def shared : Field where
  className := "Main"
  name := "shared"
  type := "Box"
  signature := _
  signature_eq := rfl
  className_ne := by decide
  name_ne := by decide

def hidden : Field where
  className := "Main"
  name := "hidden"
  type := "Box"
  signature := _
  signature_eq := rfl
  className_ne := by decide
  name_ne := by decide

def main : Method where
  className := "Main"
  name := "main"
  params := []
  returnType := "void"
  signature := _
  signature_eq := rfl
  className_ne := by decide
  name_ne := by decide
  params_ne := by decide

end Sample

end InfoFlow
