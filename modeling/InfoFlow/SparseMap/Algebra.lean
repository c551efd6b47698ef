import InfoFlow.SparseMap.Basic

/-!
# Facts at many keys

A sparse map of facts is itself a collection of facts: `∪` and `\` work key by key.

* `addAll`: the map with a list of entries added, where entries of one key are put together;
* `get_union`, `get_diff`: union and difference key by key;
* `Write`: replace the value of a key, add to it, or clear it;
* `write_strong`, `write_weak`, `write_clear`: whichever way a write takes, it answers with what was stored before.
-/

set_option linter.unusedSectionVars false

namespace InfoFlow

open Std

namespace SparseMap

variable {κ ν : Type} [Ord κ] [TransOrd κ] [LawfulEqOrd κ] [DecidableEq ν] [EmptyCollection ν]
  [Union ν] [SDiff ν] [Facts ν]

/-! ## union -/

/-- the map with `v` added at `k` -/
def add (s : SparseMap κ ν) (k : κ) (v : ν) : SparseMap κ ν := ⟨s.entries.add k v, s.sparse.add k v⟩

/-- the map with every entry of the list added -/
def addAll (s : SparseMap κ ν) (es : List (κ × ν)) : SparseMap κ ν :=
  ⟨s.entries.addAll es, s.sparse.addAll es⟩

/-- the map of a list of entries, where entries of one key are put together -/
def ofList (es : List (κ × ν)) : SparseMap κ ν := addAll ∅ es

instance : Union (SparseMap κ ν) := ⟨fun s t => s.addAll t.toList⟩

@[simp] theorem get_add [DecidableEq κ] (s : SparseMap κ ν) (k : κ) (v : ν) (j : κ) :
    (s.add k v).get j = if k = j then s.get j ∪ v else s.get j := s.entries.lookup_add k v j

/-! ## difference -/

instance : SDiff (SparseMap κ ν) := ⟨fun s t => ⟨s.entries.minus t.entries, .minus _ _⟩⟩

/-! ## key by key -/

@[simp] theorem get_union (s t : SparseMap κ ν) (k : κ) : (s ∪ t).get k = s.get k ∪ t.get k :=
  s.entries.lookup_addAll_toList t.entries k

@[simp] theorem get_diff (s t : SparseMap κ ν) (k : κ) : (s \ t).get k = s.get k \ t.get k :=
  s.entries.lookup_minus t.entries k

instance : Facts (SparseMap κ ν) where
  union_comm a b := by ext k; simp [Facts.union_comm]
  union_assoc a b c := by ext k; simp [Facts.union_assoc]
  union_self a := by ext k; simp [Facts.union_self]
  union_empty a := by ext k; simp [Facts.union_empty]
  diff_below a b c := by
    have key : ∀ x y : SparseMap κ ν, x = y ↔ ∀ k, x.get k = y.get k :=
      fun x y => ⟨fun h k => h ▸ rfl, SparseMap.ext⟩
    simp only [key, get_union, get_diff, Facts.diff_below]

end SparseMap

/-! ## writes -/

/-- one change of the value of a key -/
inductive Write (ν : Type)
  /-- the new value, whatever was there -/
  | strong (v : ν)
  /-- the value to add to what was there -/
  | weak (v : ν)
  /-- nothing is left -/
  | clear

/-- the value after a write -/
def Write.apply {ν : Type} [EmptyCollection ν] [Union ν] : Write ν → ν → ν
  | strong v, _ => v
  | weak v, old => old ∪ v
  | clear, _ => ∅

namespace Entries

variable {κ ν : Type} [Ord κ] [TransOrd κ] [DecidableEq ν] [EmptyCollection ν] [Union ν] {t : Entries κ ν}

/-- takes `k` out; also tells what was stored there before -/
def remove (t : Entries κ ν) (k : κ) : Option ν × Entries κ ν := (t[k]?, t.erase k)

/-- stores `v` at `k`; also tells what was stored there before -/
def store (t : Entries κ ν) (k : κ) (v : ν) : Option ν × Entries κ ν := (t[k]?, t.insert k v)

/-- writes at `k`; also tells what was stored there before -/
def write (t : Entries κ ν) (k : κ) : Write ν → Option ν × Entries κ ν
  | .strong v => if v = ∅ then t.remove k else t.store k v
  | .weak v =>
    if v = ∅ then (t[k]?, t)
    else
      match t[k]? with
      | some old => (some old, t.insert k (old ∪ v))
      | none => (none, t.insert k v)
  | .clear => t.remove k

theorem write_strong (t : Entries κ ν) (k : κ) (v : ν) : t.write k (.strong v) = (t[k]?, t.put k v) := by
  rw [write, put]
  split <;> rfl

variable [LawfulEqOrd κ]

theorem join_of_some {k : κ} {old : ν} (hk : t[k]? = some old) (v : ν) : t.join k v = t.insert k (old ∪ v) := by
  apply ExtTreeMap.ext_getElem?
  intro j
  rw [join, ExtTreeMap.getElem?_alter, ExtTreeMap.getElem?_insert, hk]

theorem join_of_none {k : κ} (hk : t[k]? = none) (v : ν) : t.join k v = t.insert k v := by
  apply ExtTreeMap.ext_getElem?
  intro j
  rw [join, ExtTreeMap.getElem?_alter, ExtTreeMap.getElem?_insert, hk]

theorem write_weak (t : Entries κ ν) (k : κ) (v : ν) : t.write k (.weak v) = (t[k]?, t.add k v) := by
  rw [write, add]
  by_cases hv : v = ∅
  · rw [if_pos hv, if_pos hv]
  · rw [if_neg hv, if_neg hv]
    cases hk : t[k]? with
    | some old => rw [join_of_some hk]
    | none => rw [join_of_none hk]

theorem Sparse.write [SDiff ν] [Facts ν] (h : t.Sparse) (k : κ) (w : Write ν) : Sparse (t.write k w).2 := by
  cases w with
  | strong v =>
    rw [write_strong]
    exact h.put k v
  | weak v =>
    rw [write_weak]
    exact h.add k v
  | clear => exact h.erase k

end Entries

namespace SparseMap

variable {κ ν : Type} [Ord κ] [TransOrd κ] [LawfulEqOrd κ] [DecidableEq ν] [EmptyCollection ν]
  [Union ν] [SDiff ν] [Facts ν]

/-- writes at `k`; also tells what was stored there before -/
def write (s : SparseMap κ ν) (k : κ) (w : Write ν) : Option ν × SparseMap κ ν :=
  let r := s.entries.write k w
  (r.1, ⟨r.2, s.sparse.write k w⟩)

theorem write_eq_of_entries {s t : SparseMap κ ν} {k : κ} {w : Write ν}
    (h : s.entries.write k w = (s.get? k, t.entries)) : s.write k w = (s.get? k, t) := by
  apply Prod.ext
  · show (s.entries.write k w).1 = _
    rw [h]
  · apply entries_inj.1
    show (s.entries.write k w).2 = _
    rw [h]

theorem write_strong (s : SparseMap κ ν) (k : κ) (v : ν) : s.write k (.strong v) = (s.get? k, s.set k v) :=
  write_eq_of_entries (s.entries.write_strong k v)

theorem write_weak (s : SparseMap κ ν) (k : κ) (v : ν) : s.write k (.weak v) = (s.get? k, s.add k v) :=
  write_eq_of_entries (s.entries.write_weak k v)

theorem write_clear (s : SparseMap κ ν) (k : κ) : s.write k .clear = (s.get? k, s.erase k) := rfl

theorem fst_write (s : SparseMap κ ν) (k : κ) (w : Write ν) : (s.write k w).1 = s.get? k := by
  cases w with
  | strong v => rw [write_strong]
  | weak v => rw [write_weak]
  | clear => rw [write_clear]

@[simp] theorem get_write [DecidableEq κ] (s : SparseMap κ ν) (k : κ) (w : Write ν) (j : κ) :
    (s.write k w).2.get j = if k = j then w.apply (s.get j) else s.get j := by
  cases w with
  | strong v =>
    rw [write_strong]
    exact get_set s k v j
  | weak v =>
    rw [write_weak]
    exact get_add s k v j
  | clear =>
    rw [write_clear]
    exact get_erase s k j

end SparseMap

end InfoFlow
