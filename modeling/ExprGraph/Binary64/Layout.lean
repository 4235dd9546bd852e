/-
  Layout — how the digits of a number are written down.

  The digits come from `Binary64.Magnitude.shortest`.  Where the point goes, whether a whole number
  shows one, and when an exponent is used are the decisions of a `Layout`; the graph has two.

  1. **Program** — `Digits` holds digits without trailing zeros and the place of the point among
     them; `Digits.positional` and `Digits.scientific` are the two forms, and `Binary64.write` picks
     one, after the sign and the special values.

  2. **The two layouts** — `Layout.plain` never uses an exponent and shows no point on a whole
     number; `Layout.diagnostic` writes `.0` on whole numbers, and an exponent from 10^16 up and
     below 10^-4.
-/
import ExprGraph.Binary64.Shortest

namespace ExprGraph

namespace Binary64

/-- The decisions of a written form. -/
structure Layout where
  /-- what a whole number ends in -/
  whole : String
  /-- the places of the point, from and up to, that are written without an exponent; all, if absent
      -/
  places : Option (Int × Int)

/-- Never an exponent, no point on whole numbers. -/
def Layout.plain : Layout := ⟨"", none⟩

/-- A point on every number without an exponent; positional from 10^-4 up to 10^16, not included. -/
def Layout.diagnostic : Layout := ⟨".0", some (-3, 16)⟩

/-- Digits, the last of them not zero, and the number of them in front of the point, which may be
    negative. -/
structure Digits where
  digits : List Char
  point : Int

/-- The digits of a decimal. -/
def Decimal.toDigits (d : Decimal) : Digits :=
  let all := Nat.toDigits 10 d.digits
  ⟨(all.reverse.dropWhile (· == '0')).reverse, all.length + d.exponent⟩

namespace Digits

/-- Digits around a point, filled up with zeros. -/
def positional (d : Digits) (whole : String) : String :=
  if d.point ≤ 0 then
    "0." ++ String.ofList (List.replicate (-d.point).toNat '0' ++ d.digits)
  else if d.digits.length ≤ d.point.toNat then
    String.ofList (d.digits ++ List.replicate (d.point.toNat - d.digits.length) '0') ++ whole
  else
    String.ofList (d.digits.take d.point.toNat ++ '.' :: d.digits.drop d.point.toNat)

/-- One digit in front of the point, and an exponent. -/
def scientific (d : Digits) : String :=
  let tail := d.digits.drop 1
  let tail := if tail.isEmpty then tail else '.' :: tail
  String.ofList (d.digits.take 1 ++ tail) ++ "e" ++ toString (d.point - 1)

/-- The form that the layout asks for. -/
def write (d : Digits) (layout : Layout) : String :=
  match layout.places with
  | none => d.positional layout.whole
  | some (first, last) =>
    if first ≤ d.point && d.point ≤ last then d.positional layout.whole else d.scientific

end Digits

/-- **The written form of a number.** -/
def write (x : Binary64) (layout : Layout) : String :=
  if x.isNaN then "NaN"
  else
    let sign := if x.isNegative then "-" else ""
    let magnitude :=
      if x.isInfinite then "inf"
      else if x.isZero then "0" ++ layout.whole
      else x.magnitude.shortest.toDigits.write layout
    sign ++ magnitude

/-! ## The two layouts at work -/

example : (⟨0x3FB999999999999A⟩ : Binary64).write .plain = "0.1" := by decide +kernel
example : (⟨0x4341C37937E08000⟩ : Binary64).write .plain = "10000000000000000" := by decide +kernel
example : (⟨0x4341C37937E08000⟩ : Binary64).write .diagnostic = "1e16" := by decide +kernel
example : (⟨0x8000000000000000⟩ : Binary64).write .diagnostic = "-0.0" := by decide +kernel
example : (⟨0x1⟩ : Binary64).write .diagnostic = "5e-324" := by decide +kernel

end Binary64

end ExprGraph
