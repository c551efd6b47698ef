import InfoFlow.Json.Basic
import InfoFlow.SparseMap.Algebra
import InfoFlow.Value.Set

/-!
# Stores

A store holds a set of values for each location of one kind; a location that is not stored holds no value.

* `Store.addresses`: all addresses held anywhere in the store (`mem_addresses`);
* `Store.report`: the store as a JSON object, from labels of locations to texts of values.
-/

namespace InfoFlow

open Std

/-- the texts of the members, in order -/
def ValueSet.texts (s : ValueSet) : List String := s.toList.map toString

def ValueSet.report (s : ValueSet) : Json := .arr (s.texts.map .str)

/-- the sets of values held at the locations `κ` -/
abbrev Store (κ : Type) [Ord κ] [TransOrd κ] := SparseMap κ ValueSet

namespace Store

variable {κ : Type} [Ord κ] [TransOrd κ]

/-- all addresses held in the store -/
def addresses (s : Store κ) : AddressSet :=
  ExtTreeSet.ofList (s.toList.flatMap fun e => e.2.addresses) compare

/-- a value is in some listed entry exactly when it is in the set of that entry's location -/
theorem exists_mem_toList [LawfulEqOrd κ] {s : Store κ} {p : κ → Prop} {v : Value} :
    (∃ e ∈ s.toList, p e.1 ∧ v ∈ e.2) ↔ ∃ k, p k ∧ v ∈ s.get k := by
  constructor
  · rintro ⟨⟨k, vs⟩, he, hk, hv⟩
    have hvs := (SparseMap.get?_eq_some_iff.1 (SparseMap.mem_toList.1 he)).1
    exact ⟨k, hk, by rw [hvs]; exact hv⟩
  · rintro ⟨k, hk, hv⟩
    refine ⟨(k, s.get k), SparseMap.mem_toList.2 (SparseMap.get?_eq_some_iff.2 ⟨rfl, ?_⟩), hk, hv⟩
    intro h
    rw [h] at hv
    exact ValueSet.not_mem_empty _ hv

theorem mem_addresses [LawfulEqOrd κ] {s : Store κ} {a : Address} :
    a ∈ s.addresses ↔ ∃ k, Value.address a ∈ s.get k := by
  have h : a ∈ s.addresses ↔ ∃ e ∈ s.toList, True ∧ Value.address a ∈ e.2 := by
    simp [addresses, ExtTreeSet.mem_ofList, ValueSet.mem_addresses]
  rw [h, exists_mem_toList (p := fun _ => True)]
  simp

/-- the store as a JSON object: a member for each location, named by its label -/
def report (s : Store κ) (label : κ → String) : Json :=
  .obj (s.toList.map fun e => (label e.1, e.2.report))

end Store

end InfoFlow
