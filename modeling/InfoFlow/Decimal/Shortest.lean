/-!
# Shortest decimals

`shortest x` is the decimal with the fewest digits among those that read back as the positive number `x`, and
of these the nearest to `x`; a tie goes to the even digit.  `render` lays a number out: positionally
where the leading digit stands for a power of ten from -5 to 15, and otherwise with an exponent, whose sign
is always written.
-/

namespace InfoFlow

namespace Decimal

/-- a binary fraction `mid * 2^exp` with the bounds of what reads back as it, all in quarters of a unit -/
structure Binary where
  /-- the number in quarter units -/
  mid : Nat
  /-- the lower bound in quarter units -/
  low : Nat
  /-- the upper bound in quarter units -/
  high : Nat
  /-- whether the bounds themselves read back -/
  closed : Bool
  /-- the power of two of a quarter unit -/
  exp : Int

/-- the parts of a finite positive number -/
def Binary.ofFloat (x : Float) : Binary :=
  let bits := x.toBits.toNat
  let e : Nat := bits / Nat.pow 2 52 % Nat.pow 2 11
  let f : Nat := bits % Nat.pow 2 52
  let m := if e = 0 then f else f + Nat.pow 2 52
  { mid := 4 * m
    low := if f = 0 ∧ 1 < e then 4 * m - 1 else 4 * m - 2
    high := 4 * m + 2
    closed := m % 2 = 0
    exp := if e = 0 then -1076 else (e : Int) - 1077 }

/-- the multiple of `10^k` in the bounds that is nearest to the number -/
def Binary.onGrid? (b : Binary) (k : Int) : Option Nat :=
  -- everything over one denominator: a quarter unit is `unit`, a step of the grid is `step`
  let unit := Nat.pow 2 b.exp.toNat * Nat.pow 10 (-k).toNat
  let step := Nat.pow 10 k.toNat * Nat.pow 2 (-b.exp).toNat
  let inside (d : Nat) : Bool :=
    if b.closed then b.low * unit ≤ d * step && d * step ≤ b.high * unit
    else b.low * unit < d * step && d * step < b.high * unit
  let down := b.mid * unit / step
  let up := down + 1
  let below := b.mid * unit - down * step
  let above := up * step - b.mid * unit
  match inside down, inside up with
  | false, false => none
  | true, false => some down
  | false, true => some up
  | true, true => if below < above || (below == above && down % 2 == 0) then some down else some up

/-- the coarsest of the grids `10^k, 10^(k-1), …` with a point in the bounds, and that point -/
def Binary.search (b : Binary) : Nat → Int → Nat × Int
  | 0, k => (0, k)
  | n + 1, k =>
    match b.onGrid? k with
    | some d => if d = 0 then b.search n (k - 1) else (d, k)
    | none => b.search n (k - 1)

/-- digits `d` and exponent `k` of the shortest decimal `d * 10^k` that reads back as `x` -/
def shortest (x : Float) : Nat × Int := (Binary.ofFloat x).search 700 309

/-- an exponent, which always has a sign -/
def signed (e : Int) : List Char :=
  if e < 0 then '-' :: Nat.toDigits 10 e.natAbs else '+' :: Nat.toDigits 10 e.natAbs

/-- the decimal `d * 10^k` -/
def layout (d : Nat) (k : Int) : String :=
  let ds := Nat.toDigits 10 d
  let zeros (n : Int) : List Char := List.replicate n.toNat '0'
  -- the number of digits before the point
  let point : Int := ds.length + k
  let text : List Char :=
    if 0 ≤ k ∧ point ≤ 16 then ds ++ zeros k ++ ['.', '0']
    else if 0 < point ∧ point ≤ 16 then ds.take point.toNat ++ '.' :: ds.drop point.toNat
    else if -5 < point ∧ point ≤ 0 then '0' :: '.' :: (zeros (-point) ++ ds)
    else if ds.length = 1 then ds ++ 'e' :: signed (point - 1)
    else ds.take 1 ++ '.' :: (ds.drop 1 ++ 'e' :: signed (point - 1))
  String.ofList text

/-- the text of a finite number -/
def render (x : Float) : String :=
  let sign := if x.toBits.toNat / Nat.pow 2 63 = 1 then "-" else ""
  if x == 0 then sign ++ "0.0" else let (d, k) := shortest x.abs; sign ++ layout d k

end Decimal

end InfoFlow
