/-
  Shortest decimals — the fewest digits that read back as a given number.

  Problem: a finite, non-zero binary64 magnitude is `m · 2^q`.  Among the decimals that round to it,
  find one with the fewest digits; of two such, the nearer; of two equally near, the upper.

  1. **The interval** — the reals that round to `m · 2^q` reach half way to either neighbour, ends
     included exactly when `m` is even.  Below a power of two the lower neighbour is twice as near.
     `readsBack` compares with both ends by cross-multiplying naturals: no division, no rounding.

  2. **The search** — `scale` is the least power of ten above the number.  On the grid of `n` digits
     only the two points around the number can be nearest (`onGrid?`), and the first `n` for which
     one of them reads back wins (`shortest`).

  3. **Totality** — seventeen digits always suffice; should the search end without a hit the exact
     decimal value is given, which needs no search.
-/
import ExprGraph.Binary64

namespace ExprGraph.Binary64

/-- A finite, non-zero magnitude `mantissa · 2^exponent`; `narrow` says that the gap below it is
    half the gap above it. -/
structure Magnitude where
  mantissa : Nat
  exponent : Int
  narrow : Bool

/-- The decimal `digits · 10^exponent`. -/
structure Decimal where
  digits : Nat
  exponent : Int
  deriving DecidableEq

/-- The magnitude of a finite number. -/
def magnitude (x : Binary64) : Magnitude :=
  if x.exponentField == 0 then ⟨x.fraction, -1074, false⟩
  else ⟨0x10000000000000 + x.fraction, x.exponentField - 1075, x.fraction == 0 && x.exponentField != 1⟩

/-- `2^e` for an exponent that is not negative, else 1. -/
def twoTo (e : Int) : Nat := Nat.pow 2 e.toNat

/-- `10^e` for an exponent that is not negative, else 1. -/
def tenTo (e : Int) : Nat := Nat.pow 10 e.toNat

/-- How `d` compares with `m · 2^q`, exactly: negative powers change sides. -/
def Decimal.compareScaled (d : Decimal) (m : Nat) (q : Int) : Ordering :=
  compare (d.digits * tenTo d.exponent * twoTo (-q)) (m * twoTo q * tenTo (-d.exponent))

namespace Magnitude

/-- `d` lies among the reals that round to `x`. -/
def readsBack (x : Magnitude) (d : Decimal) : Bool :=
  let low := 4 * x.mantissa - if x.narrow then 1 else 2
  let high := 4 * x.mantissa + 2
  let included := x.mantissa % 2 == 0
  let lower := d.compareScaled low (x.exponent - 2)
  let upper := d.compareScaled high (x.exponent - 2)
  (lower == .gt || included && lower == .eq) && (upper == .lt || included && upper == .eq)

/-- The largest multiple of `10^e` not above `x`, as a multiple. -/
def floorAt (x : Magnitude) (e : Int) : Nat :=
  (x.mantissa * twoTo x.exponent * tenTo (-e)) / (twoTo (-x.exponent) * tenTo e)

/-- The least `k` with `x < 10^k`, near its estimate from the binary logarithm. -/
def scale (x : Magnitude) : Int :=
  let estimate := Int.fdiv ((x.mantissa.log2 + x.exponent) * 30103) 100000
  ((([0, 1, 2] : List Int).map (estimate + ·)).find? fun k => x.floorAt k == 0).getD (estimate + 2)

/-- The better of the two points around `x` on the grid of `10^e`, if one reads back. -/
def onGrid? (x : Magnitude) (e : Int) : Option Decimal :=
  let below : Decimal := ⟨x.floorAt e, e⟩
  let above : Decimal := ⟨x.floorAt e + 1, e⟩
  match x.readsBack below, x.readsBack above with
  | true, true =>
    -- twice the number against the sum of the two points: below the middle goes down, a tie up
    let middle : Decimal := ⟨2 * x.floorAt e + 1, e⟩
    if middle.compareScaled x.mantissa (x.exponent + 1) == .gt then some below else some above
  | true, false => some below
  | false, true => some above
  | false, false => none

/-- The exact decimal value. -/
def exactDecimal (x : Magnitude) : Decimal :=
  if 0 ≤ x.exponent then ⟨x.mantissa * twoTo x.exponent, 0⟩
  else ⟨x.mantissa * Nat.pow 5 (-x.exponent).toNat, x.exponent⟩

/-- **The shortest decimal** that reads back as `x`, possibly with trailing zeros. -/
def shortest (x : Magnitude) : Decimal :=
  ((List.range 17).findSome? fun (n : Nat) => x.onGrid? (x.scale - (n + 1))).getD x.exactDecimal

end Magnitude

end ExprGraph.Binary64
