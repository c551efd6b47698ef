import InfoFlow.Program.CallEdge

/-!
# Calling contexts

A context is the edge by which the program was entered together with the last call edge.
The order looks at the entry first; it is lawful.
-/

namespace InfoFlow

open Std

structure Context where
  entry : CallEdge
  call : CallEdge
deriving DecidableEq

namespace Context

instance : ToString Context :=
  ⟨fun c => "(" ++ toString c.entry ++ ", " ++ toString c.call ++ ")"⟩

/-- the order: entry edge, call edge -/
def order : Context → Context → Ordering := compareLex (compareOn entry) (compareOn call)

instance : Ord Context := ⟨order⟩

instance : TransOrd Context :=
  inferInstanceAs (TransCmp (compareLex (compareOn entry) (compareOn call)))

instance : LawfulEqOrd Context where
  eq_of_compare {a b} h := by
    change order a b = .eq at h
    simp only [order, compareLex_eq_eq, compareOn, Std.compare_eq_iff_eq] at h
    cases a; cases b
    simp_all

end Context

end InfoFlow
