import InfoFlow.Program.Method

/-!
# Call edges

How control enters a method: from outside the program, or from a numbered call site of another method.
Entries come before calls in the order, which is a lawful total order.
-/

namespace InfoFlow

open Std

inductive CallEdge
  /-- the target is entered from outside -/
  | entry (target : Method)
  /-- call number `site` of `source` enters `target` -/
  | call (source : Method) (site : Nat) (target : Method)
deriving DecidableEq

namespace CallEdge

def source? : CallEdge → Option Method
  | entry _ => none
  | call s _ _ => some s

def site? : CallEdge → Option Nat
  | entry _ => none
  | call _ i _ => some i

def target : CallEdge → Method
  | entry t => t
  | call _ _ t => t

def isEntry : CallEdge → Bool
  | entry _ => true
  | call .. => false

instance : ToString CallEdge where
  toString
    | entry t => "<entry> -> " ++ t.signature
    | call s i t => s.signature ++ " @" ++ toString i ++ " -> " ++ t.signature

/-! ## order -/

/-- the order: source, site, target, where a missing part comes first -/
def order : CallEdge → CallEdge → Ordering :=
  compareLex (compareOn source?) <| compareLex (compareOn site?) (compareOn target)

instance : Ord CallEdge := ⟨order⟩

instance : TransOrd CallEdge :=
  inferInstanceAs (TransCmp (compareLex (compareOn source?) <|
    compareLex (compareOn site?) (compareOn target)))

instance : LawfulEqOrd CallEdge where
  eq_of_compare {a b} h := by
    change order a b = .eq at h
    simp only [order, compareLex_eq_eq, compareOn, Std.compare_eq_iff_eq] at h
    cases a <;> cases b <;> simp_all [source?, site?, target]

end CallEdge

end InfoFlow
