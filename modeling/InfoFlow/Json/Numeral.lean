import InfoFlow.Json.Fault

/-!
# Numerals

A numeral is the text of a number taken apart.  It stands for an integer if it is written as one and fits
into 64 bits, with or without a sign; otherwise for a floating-point number.

The floating-point value is the significand, as far as it fits into 64 bits, multiplied or divided by a power
of ten; each of these steps rounds.  A value too large has no number (`toFloat?`).
-/

namespace InfoFlow

namespace Json

structure Numeral where
  negative : Bool
  /-- the digits before the point -/
  whole : List Nat
  /-- the digits after the point -/
  fraction : List Nat
  /-- the digits of the exponent, and whether it is negative -/
  exponent : Option (Bool × List Nat)
deriving DecidableEq

namespace Numeral

/-- the number that the digits spell -/
def ofDigits (ds : List Nat) : Nat := ds.foldl (fun n d => 10 * n + d) 0

/-! ## significand and exponent -/

/-- a number `significand * 10^exponent` in the making; `full` once a digit did not fit any more -/
structure Scaled where
  significand : Nat
  exponent : Int
  full : Bool

/-- a digit before the point; each digit that does not fit is made up for by the exponent -/
def Scaled.addWhole (s : Scaled) (d : Nat) : Scaled :=
  let n := 10 * s.significand + d
  if s.full || Nat.pow 2 64 ≤ n then { s with exponent := s.exponent + 1, full := true }
  else { s with significand := n }

/-- a digit after the point; digits that do not fit are dropped -/
def Scaled.addFraction (s : Scaled) (d : Nat) : Scaled :=
  let n := 10 * s.significand + d
  if s.full || Nat.pow 2 64 ≤ n then { s with full := true }
  else { s with significand := n, exponent := s.exponent - 1 }

/-- the digits before and after the point -/
def scaled (n : Numeral) : Scaled :=
  let w := n.whole.foldl Scaled.addWhole ⟨0, 0, false⟩
  n.fraction.foldl Scaled.addFraction { w with full := false }

/-! ## the floating-point value -/

/-- the product `x * 10^e`, unless that is too large -/
def scale (x : Float) (e : Int) : Option Float :=
  if hs : e.natAbs ≤ 308 then
    if 0 ≤ e then
      let y := x * Float.ofScientific 1 false e.toNat
      if y.isInf then none else some y
    else some (x / Float.ofScientific 1 false e.natAbs)
  else if x == 0 then some x
  else if he : 0 ≤ e then none
  else scale (x / Float.ofScientific 1 false 308) (e + 308)
termination_by e.natAbs
decreasing_by omega

/-- the magnitude; an exponent of more than 31 bits leaves nothing, or too much -/
def magnitude? (n : Numeral) : Option Float :=
  let s := n.scaled
  let x := s.significand.toUInt64.toFloat
  match n.exponent with
  | none => scale x s.exponent
  | some (negative, ds) =>
    let e := ofDigits ds
    if Nat.pow 2 31 ≤ e then
      if s.significand = 0 || negative then some 0 else none
    else scale x (if negative then s.exponent - e else s.exponent + e)

def toFloat? (n : Numeral) : Option Float := n.magnitude?.map fun x => if n.negative then -x else x

/-! ## the value -/

/-- the integer, if the numeral is written as one and fits; zero with a sign is no integer -/
def toInt? (n : Numeral) : Option Int :=
  if n.fraction = [] ∧ n.exponent = none then
    let v := ofDigits n.whole
    if n.negative then
      if 0 < v ∧ v ≤ Nat.pow 2 63 then some (-(v : Int)) else none
    else if v < Nat.pow 2 64 then some v else none
  else none

def found? (n : Numeral) : Option Found :=
  match n.toInt? with
  | some i => some (.int i)
  | none => n.toFloat?.map .float

end Numeral

end Json

end InfoFlow
