import InfoFlow.SparseMap.Entries

/-!
# Sparse maps

`SparseMap κ ν` is a total function from keys to values that is `∅` at all but finitely many keys.
Only the other keys are stored, so equality is equality of functions (`SparseMap.ext`).

* `get_set`, `get_erase`, `get_filter`: what one operation does to the function;
* `get?`: the stored value, if there is one (`get?_eq_some_iff`);
* `toList`: the stored entries in increasing order of their keys.
-/

namespace InfoFlow

open Std

structure SparseMap (κ ν : Type) [Ord κ] [TransOrd κ] [EmptyCollection ν] where
  entries : Entries κ ν
  /-- no key is stored with the value `∅` -/
  sparse : entries.Sparse

namespace SparseMap

variable {κ ν : Type} [Ord κ] [TransOrd κ] [EmptyCollection ν]

instance : EmptyCollection (SparseMap κ ν) := ⟨⟨∅, .empty⟩⟩

instance : Inhabited (SparseMap κ ν) := ⟨∅⟩

theorem entries_inj {s t : SparseMap κ ν} : s.entries = t.entries ↔ s = t := by
  constructor
  · intro h; cases s; cases t; cases h; rfl
  · intro h; rw [h]

instance [LawfulEqOrd κ] [DecidableEq ν] : DecidableEq (SparseMap κ ν) := fun s t =>
  decidable_of_iff (s.entries.agrees t.entries = true) ((s.sparse.agrees_iff t.sparse).trans entries_inj)

/-! ## looking up -/

/-- the stored value of `k` -/
def get? (s : SparseMap κ ν) (k : κ) : Option ν := s.entries[k]?

/-- the value of `k`, which is `∅` where none is stored -/
def get (s : SparseMap κ ν) (k : κ) : ν := s.entries.lookup k

def contains (s : SparseMap κ ν) (k : κ) : Bool := s.entries.contains k

theorem get?_eq_some_iff {s : SparseMap κ ν} {k : κ} {v : ν} :
    s.get? k = some v ↔ s.get k = v ∧ v ≠ ∅ := s.sparse.getElem?_eq_some_iff

theorem get?_eq_none_iff {s : SparseMap κ ν} {k : κ} : s.get? k = none ↔ s.get k = ∅ :=
  s.sparse.getElem?_eq_none_iff

@[ext] theorem ext [LawfulEqOrd κ] {s t : SparseMap κ ν} (h : ∀ k, s.get k = t.get k) : s = t :=
  entries_inj.1 (s.sparse.ext t.sparse h)

@[simp] theorem get_empty (k : κ) : (∅ : SparseMap κ ν).get k = ∅ := Entries.lookup_empty k

/-! ## listing -/

/-- the stored entries, in increasing order of their keys -/
def toList (s : SparseMap κ ν) : List (κ × ν) := s.entries.toList

def keys (s : SparseMap κ ν) : List κ := s.entries.keys

def size (s : SparseMap κ ν) : Nat := s.entries.size

def isEmpty (s : SparseMap κ ν) : Bool := s.entries.isEmpty

theorem isEmpty_iff {s : SparseMap κ ν} : s.isEmpty = true ↔ s = ∅ :=
  ExtTreeMap.isEmpty_iff.trans (entries_inj (t := ∅))

theorem mem_toList [LawfulEqOrd κ] {s : SparseMap κ ν} {k : κ} {v : ν} :
    (k, v) ∈ s.toList ↔ s.get? k = some v := ExtTreeMap.mem_toList_iff_getElem?_eq_some

/-- the text `{k=v, …}`, in increasing order of the keys -/
instance [ToString κ] [ToString ν] : ToString (SparseMap κ ν) where
  toString s :=
    "\x7b" ++ ", ".intercalate (s.toList.map fun e => toString e.1 ++ "=" ++ toString e.2) ++ "\x7d"

/-! ## changing one key -/

section
variable [LawfulEqOrd κ]

/-- the map with `∅` at `k` -/
def erase (s : SparseMap κ ν) (k : κ) : SparseMap κ ν := ⟨s.entries.erase k, s.sparse.erase k⟩

@[simp] theorem get_erase [DecidableEq κ] (s : SparseMap κ ν) (k j : κ) :
    (s.erase k).get j = if k = j then ∅ else s.get j := s.entries.lookup_erase k j

/-- the map with `v` at `k` -/
def set [DecidableEq ν] (s : SparseMap κ ν) (k : κ) (v : ν) : SparseMap κ ν :=
  ⟨s.entries.put k v, s.sparse.put k v⟩

@[simp] theorem get_set [DecidableEq κ] [DecidableEq ν] (s : SparseMap κ ν) (k : κ) (v : ν) (j : κ) :
    (s.set k v).get j = if k = j then v else s.get j := s.entries.lookup_put k v j

end

/-! ## restriction to some keys -/

/-- the map with `∅` at every key that `p` refuses -/
def filter [LawfulEqOrd κ] (s : SparseMap κ ν) (p : κ → Bool) : SparseMap κ ν :=
  ⟨s.entries.filter fun k _ => p k, s.sparse.filter p⟩

@[simp] theorem get_filter [LawfulEqOrd κ] (s : SparseMap κ ν) (p : κ → Bool) (k : κ) :
    (s.filter p).get k = if p k then s.get k else ∅ := s.entries.lookup_filter p k

end SparseMap

end InfoFlow
