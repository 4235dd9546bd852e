/-
  Shapes — is a value one scalar, or a column of them?

  There are two shapes, `scalar` below `columnar`, and one rule for operands: a scalar broadcasts,
  so a result is a column as soon as one operand is.

  1. **Program** — `combine` decides the shape of a two-operand result, `combineAll` that of any
     number of operands; nothing to combine gives a scalar.

  2. **Order** — `compare` ranks the two shapes, and `combine` is its maximum (`combine_eq_max`):
     that is why the order and the grouping of operands never matter (`combine_comm`,
     `combine_assoc`), and why `combineAll` is columnar exactly when some operand is
     (`combineAll_eq_columnar_iff`).
-/

namespace ExprGraph

/-- **Shape** of a value: one scalar, or a column. -/
inductive Shape where
  | scalar
  | columnar
  deriving DecidableEq

namespace Shape

/-- Place in the order `scalar < columnar`. -/
def rank : Shape → Nat
  | .scalar => 0
  | .columnar => 1

instance : Ord Shape := ⟨fun a b => compare a.rank b.rank⟩

/-- The larger of two shapes. -/
def max (a b : Shape) : Shape :=
  if a.rank ≤ b.rank then b else a

/-- **Broadcasting.** Two scalars give a scalar; any column gives a column. -/
def combine : Shape → Shape → Shape
  | .scalar, .scalar => .scalar
  | _, _ => .columnar

/-- The shape of a result over any number of operands; no operand gives a scalar. -/
def combineAll (shapes : List Shape) : Shape :=
  shapes.foldl combine .scalar

def isScalar (s : Shape) : Bool := s == .scalar

def isColumnar (s : Shape) : Bool := s == .columnar

/-- The written form. -/
def text : Shape → String
  | .scalar => "scalar"
  | .columnar => "columnar"

/-- The constructor's own name, as diagnostics write it. -/
def label : Shape → String
  | .scalar => "Scalar"
  | .columnar => "Columnar"

/-- The shape that a written form stands for. -/
def ofText? : String → Option Shape
  | "scalar" => some .scalar
  | "columnar" => some .columnar
  | _ => none

/-! ## Combining is taking the maximum -/

theorem combine_eq_max (a b : Shape) : a.combine b = a.max b := by
  cases a <;> cases b <;> rfl

theorem combine_comm (a b : Shape) : a.combine b = b.combine a := by
  cases a <;> cases b <;> rfl

theorem combine_assoc (a b c : Shape) : (a.combine b).combine c = a.combine (b.combine c) := by
  cases a <;> cases b <;> cases c <;> rfl

@[simp] theorem scalar_combine (s : Shape) : Shape.scalar.combine s = s := by
  cases s <;> rfl

@[simp] theorem columnar_combine (s : Shape) : Shape.columnar.combine s = .columnar := by
  cases s <;> rfl

theorem combine_eq_columnar_iff {a b : Shape} :
    a.combine b = .columnar ↔ a = .columnar ∨ b = .columnar := by
  cases a <;> cases b <;> simp [combine]

theorem foldl_combine (s : Shape) (shapes : List Shape) :
    shapes.foldl combine s = s.combine (combineAll shapes) := by
  induction shapes generalizing s with
  | nil => cases s <;> rfl
  | cons t ts ih =>
    simp only [combineAll, List.foldl_cons]
    rw [ih, ih (Shape.scalar.combine t), combine_assoc, scalar_combine]

@[simp] theorem combineAll_nil : combineAll [] = .scalar := rfl

theorem combineAll_cons (s : Shape) (shapes : List Shape) :
    combineAll (s :: shapes) = s.combine (combineAll shapes) := by
  rw [combineAll, List.foldl_cons, foldl_combine, scalar_combine]

/-- **A column anywhere makes a column.** -/
theorem combineAll_eq_columnar_iff (shapes : List Shape) :
    combineAll shapes = .columnar ↔ Shape.columnar ∈ shapes := by
  induction shapes with
  | nil => simp
  | cons s ss ih => rw [combineAll_cons, combine_eq_columnar_iff, ih, List.mem_cons, eq_comm]

theorem ofText?_text (s : Shape) : ofText? s.text = some s := by
  cases s <;> rfl

end Shape

end ExprGraph
