import InfoFlow.Program.Malformed

/-!
# Methods

A method is named by its declaring class, its name, the types of its parameters and its return type.
It carries its signature `<C: R n(p,q)>`, which is always the one spelled by the other parts.

* `Method.declare` accepts a class, a name and parameter types that are all non-empty;
* methods are ordered by signature first, and the order is a lawful total order.
-/

namespace InfoFlow

open Std

/-- the signature `<C: R n(p,q)>` -/
def Method.spell (className name : String) (params : List String) (returnType : String) : String :=
  "<" ++ className ++ ": " ++ returnType ++ " " ++ name ++ "(" ++ ",".intercalate params ++ ")>"

structure Method where
  className : String
  name : String
  params : List String
  returnType : String
  signature : String
  signature_eq : signature = Method.spell className name params returnType
  className_ne : className ≠ ""
  name_ne : name ≠ ""
  params_ne : ∀ p ∈ params, p ≠ ""

namespace Method

/-- a method is fixed by its parts -/
theorem eq_of_parts {a b : Method} (hc : a.className = b.className) (hn : a.name = b.name)
    (hp : a.params = b.params) (hr : a.returnType = b.returnType) : a = b := by
  obtain ⟨_, _, _, _, _, ha, _, _, _⟩ := a
  obtain ⟨_, _, _, _, _, hb, _, _, _⟩ := b
  simp_all

instance : DecidableEq Method := fun a b =>
  decidable_of_iff (a.className = b.className ∧ a.name = b.name ∧ a.params = b.params ∧
      a.returnType = b.returnType)
    ⟨fun h => eq_of_parts h.1 h.2.1 h.2.2.1 h.2.2.2, fun h => h ▸ ⟨rfl, rfl, rfl, rfl⟩⟩

/-- the method of these parts; the first missing part is reported, in the order class, name, parameters -/
def declare (className name : String) (params : List String) (returnType : String) :
    Except Malformed Method :=
  if hc : className = "" then .error .methodClass
  else if hn : name = "" then .error (.methodName className)
  else match hp : params.findIdx? (· == "") with
    | some i => .error (.methodParam i className name)
    | none => .ok
      { className, name, params, returnType
        signature := spell className name params returnType
        signature_eq := rfl
        className_ne := hc
        name_ne := hn
        params_ne := fun p h => by simpa using List.findIdx?_eq_none_iff.1 hp p h }

def arity (m : Method) : Nat := m.params.length

instance : ToString Method := ⟨signature⟩

/-- the label of the receiver of a method -/
def receiverLabel (m : Method) : String := m.signature ++ " this"

/-! ## order -/

/-- the order: signature, class, name, parameter types, return type -/
def order : Method → Method → Ordering :=
  compareLex (compareOn signature) <| compareLex (compareOn className) <|
  compareLex (compareOn name) <| compareLex (compareOn params) (compareOn returnType)

instance : Ord Method := ⟨order⟩

instance : TransOrd Method :=
  inferInstanceAs (TransCmp (compareLex (compareOn signature) <| compareLex (compareOn className) <|
    compareLex (compareOn name) <| compareLex (compareOn params) (compareOn returnType)))

instance : LawfulEqOrd Method where
  eq_of_compare {a b} h := by
    change order a b = .eq at h
    simp only [order, compareLex_eq_eq, compareOn, Std.compare_eq_iff_eq] at h
    exact eq_of_parts h.2.1 h.2.2.1 h.2.2.2.1 h.2.2.2.2

end Method

end InfoFlow
