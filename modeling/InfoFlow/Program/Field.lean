import InfoFlow.Program.Malformed

/-!
# Fields

A field is named by its declaring class, its name and its type, and carries its signature `<C: T f>`.

* `Field.declare` accepts a non-empty class and a non-empty name; the type may be empty;
* fields are ordered by signature first, and the order is a lawful total order.
-/

namespace InfoFlow

open Std

/-- the signature `<C: T f>` -/
def Field.spell (className type name : String) : String :=
  "<" ++ className ++ ": " ++ type ++ " " ++ name ++ ">"

structure Field where
  className : String
  name : String
  type : String
  signature : String
  signature_eq : signature = Field.spell className type name
  className_ne : className ≠ ""
  name_ne : name ≠ ""

namespace Field

/-- the field of these parts; the class is looked at before the name -/
def declare (className type name : String) : Except Malformed Field :=
  if hc : className = "" then .error .fieldClass
  else if hn : name = "" then .error (.fieldName className)
  else .ok
    { className, name, type
      signature := spell className type name
      signature_eq := rfl
      className_ne := hc
      name_ne := hn }

instance : ToString Field := ⟨signature⟩

/-- a field is fixed by its parts -/
theorem eq_of_parts {f g : Field} (hc : f.className = g.className) (ht : f.type = g.type)
    (hn : f.name = g.name) : f = g := by
  obtain ⟨_, _, _, _, hf, _, _⟩ := f
  obtain ⟨_, _, _, _, hg, _, _⟩ := g
  simp_all

instance : DecidableEq Field := fun f g =>
  decidable_of_iff (f.className = g.className ∧ f.type = g.type ∧ f.name = g.name)
    ⟨fun h => eq_of_parts h.1 h.2.1 h.2.2, fun h => h ▸ ⟨rfl, rfl, rfl⟩⟩

/-! ## order -/

/-- the order: signature, class, name, type -/
def order : Field → Field → Ordering :=
  compareLex (compareOn signature) <| compareLex (compareOn className) <|
  compareLex (compareOn name) (compareOn type)

instance : Ord Field := ⟨order⟩

instance : TransOrd Field :=
  inferInstanceAs (TransCmp (compareLex (compareOn signature) <| compareLex (compareOn className) <|
    compareLex (compareOn name) (compareOn type)))

instance : LawfulEqOrd Field where
  eq_of_compare {a b} h := by
    change order a b = .eq at h
    simp only [order, compareLex_eq_eq, compareOn, Std.compare_eq_iff_eq] at h
    exact eq_of_parts h.2.1 h.2.2.2 h.2.2.1

end Field

end InfoFlow
