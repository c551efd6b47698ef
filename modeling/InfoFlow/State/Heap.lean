import InfoFlow.State.Store
import InfoFlow.Trace

/-!
# Heaps

A heap holds the values in the fields of objects and in the elements of arrays, by address.

* `Heap.reachable`: the addresses that can be reached from a set of roots;
* `Heap.gc`: the heap without what cannot be reached;
* `Heap.localize`: the heap cut down to the fields and arrays that a callee can reach and is interested in.

Each address is expanded at most once: its outgoing edges are taken out of the table of edges when it is
visited, which is also why the search ends.
-/

namespace InfoFlow

open Std

@[ext] structure Heap where
  fields : Store ObjectField
  arrays : Store Address
deriving DecidableEq

namespace Heap

/-! ## facts -/

instance : EmptyCollection Heap := ⟨⟨∅, ∅⟩⟩

instance : Inhabited Heap := ⟨∅⟩

instance : Union Heap := ⟨fun h k => ⟨h.fields ∪ k.fields, h.arrays ∪ k.arrays⟩⟩

instance : SDiff Heap := ⟨fun h k => ⟨h.fields \ k.fields, h.arrays \ k.arrays⟩⟩

@[simp] theorem fields_union (h k : Heap) : (h ∪ k).fields = h.fields ∪ k.fields := rfl
@[simp] theorem arrays_union (h k : Heap) : (h ∪ k).arrays = h.arrays ∪ k.arrays := rfl

@[simp] theorem fields_diff (h k : Heap) : (h \ k).fields = h.fields \ k.fields := rfl
@[simp] theorem arrays_diff (h k : Heap) : (h \ k).arrays = h.arrays \ k.arrays := rfl

instance : Facts Heap where
  union_comm _ _ := Heap.ext (Facts.union_comm _ _) (Facts.union_comm _ _)
  union_assoc _ _ _ := Heap.ext (Facts.union_assoc _ _ _) (Facts.union_assoc _ _ _)
  union_self _ := Heap.ext (Facts.union_self _) (Facts.union_self _)
  union_empty _ := Heap.ext (Facts.union_empty _) (Facts.union_empty _)
  diff_below a b c := by
    simp only [Heap.ext_iff, fields_union, arrays_union, fields_diff, arrays_diff, Facts.diff_below]

/-- whether neither a field nor an array holds a value -/
def isEmpty (h : Heap) : Bool := h.fields.isEmpty && h.arrays.isEmpty

theorem isEmpty_iff {h : Heap} : h.isEmpty = true ↔ h = ∅ := by
  simp only [isEmpty, Bool.and_eq_true, SparseMap.isEmpty_iff]
  constructor
  · rintro ⟨hf, ha⟩
    exact Heap.ext hf ha
  · rintro rfl
    exact ⟨rfl, rfl⟩

/-- the number of stored fields and arrays -/
def size (h : Heap) : Nat := h.fields.size + h.arrays.size

/-! ## reachable addresses -/

/-- the addresses held in one stored field or array, with the address of their holder -/
def edges (h : Heap) : List (Address × List Address) :=
  h.fields.toList.map (fun e => (e.1.address, e.2.addresses)) ++
    h.arrays.toList.map fun e => (e.1, e.2.addresses)

/-- for each address, the addresses held in its fields and its array -/
def successors (h : Heap) : ExtTreeMap Address (List Address) compare :=
  h.edges.foldl (fun m e => m.alter e.1 fun old => some (e.2 ++ old.getD [])) ∅

theorem size_erase_lt {edges : ExtTreeMap Address (List Address) compare} {a : Address} {next : List Address}
    (h : edges[a]? = some next) : (edges.erase a).size < edges.size := by
  have ha : a ∈ edges := by
    rw [ExtTreeMap.mem_iff_isSome_getElem?, h]
    rfl
  have hs : edges.size ≠ 0 := by
    intro h0
    have he : edges = ∅ := ExtTreeMap.isEmpty_iff.1 (by rw [ExtTreeMap.isEmpty_eq_size_beq_zero, h0]; rfl)
    rw [he] at ha
    exact ExtTreeMap.not_mem_empty ha
  rw [ExtTreeMap.size_erase, if_pos (ExtTreeMap.contains_iff_mem.2 ha)]
  omega

/-- everything in `seen`, and everything that can be reached from `todo`.  An address that is visited
    gives its edges away, so that it is expanded only once. -/
def spread (edges : ExtTreeMap Address (List Address) compare) (todo : List Address) (seen : AddressSet) :
    AddressSet :=
  match todo with
  | [] => seen
  | a :: rest =>
    match h : edges[a]? with
    | none => spread edges rest seen
    | some next =>
      have := size_erase_lt h
      spread (edges.erase a) (next ++ rest) (seen.insertMany next)
termination_by (edges.size, todo.length)
decreasing_by
  · exact Prod.Lex.right _ (Nat.lt_succ_self _)
  · exact Prod.Lex.left _ _ this

/-- the addresses reachable from `roots`, with the roots themselves -/
def reachable (h : Heap) (roots : AddressSet) : AddressSet := spread h.successors roots.toList roots

/-! ## restriction -/

/-- the part of the heap at the addresses in `live` -/
def within (h : Heap) (live : AddressSet) : Heap where
  fields := h.fields.filter fun k => k.address ∈ live
  arrays := h.arrays.filter fun a => a ∈ live

/-- the heap without what cannot be reached from `roots` -/
def gc (h : Heap) (roots : AddressSet) : Heap := h.within (h.reachable roots)

def gcTraced (h : Heap) (roots : AddressSet) : Traced Heap where
  value := h.gc roots
  log := [.collected roots.size (h.reachable roots).size (h.gc roots).size h.size]

/-- the part of the heap reachable from `roots` that is named in a scope: the given fields of objects, the
    field `taint` of every object, and the given arrays.  What is reachable is decided in the whole heap. -/
def localize (h : Heap) (roots : AddressSet) (fields : List ObjectField) (arrays : List Address)
    (taint : Field) : Heap :=
  let live := h.reachable roots
  { fields := h.fields.filter fun k => k.address ∈ live && (k ∈ fields || k.field == taint)
    arrays := h.arrays.filter fun a => a ∈ live && a ∈ arrays }

def localizeTraced (h : Heap) (roots : AddressSet) (fields : List ObjectField) (arrays : List Address)
    (taint : Field) : Traced Heap where
  value := h.localize roots fields arrays taint
  log := [.localized (h.reachable roots).size (h.localize roots fields arrays taint).size h.size]

/-! ## text -/

instance : ToString Heap where
  toString h := "(" ++ toString h.fields ++ ", " ++ toString h.arrays ++ ")"

def report (h : Heap) : Json :=
  .obj [("instances", h.fields.report toString), ("arrays", h.arrays.report toString)]

end Heap

end InfoFlow
