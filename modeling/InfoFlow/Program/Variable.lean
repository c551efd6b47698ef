import InfoFlow.Program.Malformed

/-!
# Local variables and parameters

* `Local`: a named variable of a method body, with its type;
* `Parameter`: a position in a parameter list, with its type.

Neither says which method it belongs to: see `LocalSlot` and `ParamSlot`.
-/

namespace InfoFlow

open Std

/-! ## local variables -/

structure Local where
  name : String
  type : String
  name_ne : name ≠ ""

namespace Local

/-- a local variable is fixed by its parts -/
theorem eq_of_parts {a b : Local} (hn : a.name = b.name) (ht : a.type = b.type) : a = b := by
  cases a; cases b
  simp_all

instance : DecidableEq Local := fun a b =>
  decidable_of_iff (a.name = b.name ∧ a.type = b.type)
    ⟨fun h => eq_of_parts h.1 h.2, fun h => h ▸ ⟨rfl, rfl⟩⟩

def declare (name type : String) : Except Malformed Local :=
  if h : name = "" then .error .localName else .ok { name, type, name_ne := h }

instance : ToString Local := ⟨name⟩

/-- the order: name, type -/
def order : Local → Local → Ordering := compareLex (compareOn name) (compareOn type)

instance : Ord Local := ⟨order⟩

instance : TransOrd Local := inferInstanceAs (TransCmp (compareLex (compareOn name) (compareOn type)))

instance : LawfulEqOrd Local where
  eq_of_compare {a b} h := by
    change order a b = .eq at h
    simp only [order, compareLex_eq_eq, compareOn, Std.compare_eq_iff_eq] at h
    exact eq_of_parts h.1 h.2

end Local

/-! ## parameters -/

structure Parameter where
  index : Nat
  type : String
deriving DecidableEq

namespace Parameter

instance : ToString Parameter := ⟨fun p => "@parameter" ++ toString p.index ++ ": " ++ p.type⟩

/-- the order: index, type -/
def order : Parameter → Parameter → Ordering := compareLex (compareOn index) (compareOn type)

instance : Ord Parameter := ⟨order⟩

instance : TransOrd Parameter :=
  inferInstanceAs (TransCmp (compareLex (compareOn index) (compareOn type)))

instance : LawfulEqOrd Parameter where
  eq_of_compare {a b} h := by
    change order a b = .eq at h
    simp only [order, compareLex_eq_eq, compareOn, Std.compare_eq_iff_eq] at h
    cases a; cases b
    simp_all

end Parameter

end InfoFlow
