import InfoFlow.Program.Method
import InfoFlow.Program.Variable

/-!
# Slots of a frame

* `LocalSlot`: a local variable of a method;
* `ParamSlot`: a parameter of a method;
* `Slot`: any place of a frame: a local variable, the receiver of a method, or a parameter.

`Slot.label` names a slot uniquely as long as names hold no separators.
-/

namespace InfoFlow

open Std

/-! ## local variables of a method -/

structure LocalSlot where
  method : Method
  var : Local
deriving DecidableEq

namespace LocalSlot

instance : ToString LocalSlot := ⟨fun s => toString s.var⟩

def label (s : LocalSlot) : String := s.method.signature ++ " " ++ s.var.name ++ ": " ++ s.var.type

/-- the order: method, variable -/
def order : LocalSlot → LocalSlot → Ordering := compareLex (compareOn method) (compareOn var)

instance : Ord LocalSlot := ⟨order⟩

instance : TransOrd LocalSlot :=
  inferInstanceAs (TransCmp (compareLex (compareOn method) (compareOn var)))

instance : LawfulEqOrd LocalSlot where
  eq_of_compare {a b} h := by
    change order a b = .eq at h
    simp only [order, compareLex_eq_eq, compareOn, Std.compare_eq_iff_eq] at h
    cases a; cases b
    simp_all

end LocalSlot

/-! ## parameters of a method -/

structure ParamSlot where
  method : Method
  param : Parameter
deriving DecidableEq

namespace ParamSlot

instance : ToString ParamSlot := ⟨fun s => toString s.param⟩

def label (s : ParamSlot) : String := s.method.signature ++ " " ++ toString s.param

/-- the order: method, parameter -/
def order : ParamSlot → ParamSlot → Ordering := compareLex (compareOn method) (compareOn param)

instance : Ord ParamSlot := ⟨order⟩

instance : TransOrd ParamSlot :=
  inferInstanceAs (TransCmp (compareLex (compareOn method) (compareOn param)))

instance : LawfulEqOrd ParamSlot where
  eq_of_compare {a b} h := by
    change order a b = .eq at h
    simp only [order, compareLex_eq_eq, compareOn, Std.compare_eq_iff_eq] at h
    cases a; cases b
    simp_all

end ParamSlot

/-! ## all slots -/

inductive Slot
  | var (s : LocalSlot)
  | receiver (m : Method)
  | param (s : ParamSlot)
deriving DecidableEq

def Slot.label : Slot → String
  | var s => s.label
  | receiver m => m.receiverLabel
  | param s => s.label

end InfoFlow
