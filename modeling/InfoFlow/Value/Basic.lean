import InfoFlow.Location.Address

/-!
# Abstract values

* `Atom`: a value without structure: a taint label, a constant text, or a token of some kind;
* `Value`: an address or an atom.

Atoms are ordered taints, constants, tokens; addresses come before atoms.  Both orders are lawful.
-/

namespace InfoFlow

open Std

/-! ## atoms -/

inductive Atom
  | taint (label : String)
  | constant (text : String)
  | token (kind label : String)
deriving DecidableEq

namespace Atom

instance : ToString Atom where
  toString
    | taint l => "taint:" ++ l
    | constant t => "\"" ++ t ++ "\""
    | token k l => k ++ ":" ++ l

/-- the place of the constructor in the order -/
def rank : Atom → Nat
  | taint _ => 0
  | constant _ => 1
  | token .. => 2

def first : Atom → String
  | taint l => l
  | constant t => t
  | token k _ => k

def second : Atom → String
  | taint _ => ""
  | constant _ => ""
  | token _ l => l

/-- the order: constructor, first text, second text -/
def order : Atom → Atom → Ordering :=
  compareLex (compareOn rank) <| compareLex (compareOn first) (compareOn second)

instance : Ord Atom := ⟨order⟩

instance : TransOrd Atom :=
  inferInstanceAs (TransCmp (compareLex (compareOn rank) <|
    compareLex (compareOn first) (compareOn second)))

instance : LawfulEqOrd Atom where
  eq_of_compare {a b} h := by
    change order a b = .eq at h
    simp only [order, compareLex_eq_eq, compareOn, Std.compare_eq_iff_eq] at h
    cases a <;> cases b <;> simp_all [rank, first, second]

end Atom

/-! ## values -/

inductive Value
  | address (a : Address)
  | atom (a : Atom)
deriving DecidableEq

namespace Value

def address? : Value → Option Address
  | address a => some a
  | atom _ => none

def atom? : Value → Option Atom
  | address _ => none
  | atom a => some a

instance : ToString Value where
  toString
    | address a => toString a
    | atom a => toString a

/-- the order: no atom before an atom, then by atom or by address -/
def order : Value → Value → Ordering := compareLex (compareOn atom?) (compareOn address?)

instance : Ord Value := ⟨order⟩

instance : TransOrd Value :=
  inferInstanceAs (TransCmp (compareLex (compareOn atom?) (compareOn address?)))

instance : LawfulEqOrd Value where
  eq_of_compare {a b} h := by
    change order a b = .eq at h
    simp only [order, compareLex_eq_eq, compareOn, Std.compare_eq_iff_eq] at h
    cases a <;> cases b <;> simp_all [atom?, address?]

end Value

end InfoFlow
