/-
  Binary64 numbers, as the 64 bits they are stored in.

  The graph never computes with a number.  It stores it, compares it and writes it down, so the bits
  are all there is.

  1. **Program** — the fields of the word, and `key`, the word that stands for the number when it is
     compared or hashed: every NaN has one key, and the two zeros have one key.

  2. **Equality** — `same` compares keys.  It is reflexive, NaN included, and an equivalence
     (`same_iff`); bits that are equal are the same number.
-/

namespace ExprGraph

/-- **A binary64 number**, by its bits: sign, eleven bits of exponent, 52 bits of fraction. -/
structure Binary64 where
  bits : UInt64
  deriving DecidableEq

namespace Binary64

/-- The biased exponent. -/
def exponentField (x : Binary64) : Nat := (x.bits.toNat >>> 52) % 0x800

/-- The fraction behind the leading bit. -/
def fraction (x : Binary64) : Nat := x.bits.toNat % 0x10000000000000

def isNegative (x : Binary64) : Bool := decide (0x8000000000000000 ≤ x.bits.toNat)

def isNaN (x : Binary64) : Bool := x.exponentField == 2047 && x.fraction != 0

def isInfinite (x : Binary64) : Bool := x.exponentField == 2047 && x.fraction == 0

/-- One of the two zeros. -/
def isZero (x : Binary64) : Bool := x.exponentField == 0 && x.fraction == 0

/-- **What a number is compared by**: one key for every NaN, one for both zeros, else the bits. -/
def key (x : Binary64) : UInt64 :=
  if x.isNaN then 0x7FF8000000000000
  else if x.isZero then 0
  else x.bits

/-- Equality of numbers: NaN equals NaN, and the zeros are equal. -/
def same (x y : Binary64) : Bool := x.key == y.key

@[simp] theorem same_iff {x y : Binary64} : x.same y = true ↔ x.key = y.key := by
  simp [same]

end Binary64

end ExprGraph
