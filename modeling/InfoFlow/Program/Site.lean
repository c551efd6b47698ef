import InfoFlow.Program.Method

/-!
# Allocation sites

A site is a numbered `new` expression of a type, possibly inside a method, which is remembered by its
signature.  Its text `AllocNode i new T in method S` is carried along.

* `Site.declare` accepts every non-empty type;
* sites are ordered by text first, and the order is a lawful total order.
-/

namespace InfoFlow

open Std

/-- the text `AllocNode i new T`, followed by the method where there is one -/
def Site.spell (id : Nat) (type : String) : Option String → String
  | none => "AllocNode " ++ toString id ++ " new " ++ type
  | some m => "AllocNode " ++ toString id ++ " new " ++ type ++ " in method " ++ m

structure Site where
  id : Nat
  type : String
  /-- the signature of the enclosing method -/
  method : Option String
  text : String
  text_eq : text = Site.spell id type method
  type_ne : type ≠ ""

namespace Site

def declare (id : Nat) (type : String) (method : Option Method) : Except Malformed Site :=
  if h : type = "" then .error (.siteType id)
  else .ok
    { id, type
      method := method.map Method.signature
      text := spell id type (method.map Method.signature)
      text_eq := rfl
      type_ne := h }

instance : ToString Site := ⟨text⟩

/-- a site is fixed by its parts -/
theorem eq_of_parts {a b : Site} (hi : a.id = b.id) (ht : a.type = b.type)
    (hm : a.method = b.method) : a = b := by
  obtain ⟨_, _, _, _, ha, _⟩ := a
  obtain ⟨_, _, _, _, hb, _⟩ := b
  simp_all

instance : DecidableEq Site := fun a b =>
  decidable_of_iff (a.id = b.id ∧ a.type = b.type ∧ a.method = b.method)
    ⟨fun h => eq_of_parts h.1 h.2.1 h.2.2, fun h => h ▸ ⟨rfl, rfl, rfl⟩⟩

/-! ## order -/

/-- the order: text, number, type, method -/
def order : Site → Site → Ordering :=
  compareLex (compareOn text) <| compareLex (compareOn id) <|
  compareLex (compareOn type) (compareOn method)

instance : Ord Site := ⟨order⟩

instance : TransOrd Site :=
  inferInstanceAs (TransCmp (compareLex (compareOn text) <| compareLex (compareOn id) <|
    compareLex (compareOn type) (compareOn method)))

instance : LawfulEqOrd Site where
  eq_of_compare {a b} h := by
    change order a b = .eq at h
    simp only [order, compareLex_eq_eq, compareOn, Std.compare_eq_iff_eq] at h
    exact eq_of_parts h.2.1 h.2.2.1 h.2.2.2

end Site

end InfoFlow
