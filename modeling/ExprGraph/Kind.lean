/-
  Kinds — what sorts of nodes there are.

  The kinds are closed: leaves, renamings, operators on one and two values, lists of nodes, calls
  with free arguments, and sealed nodes.  A kind decides the names of a node's arguments and, for
  operators, the type of the result.

  1. **Kinds and their names** — `Kind.name` is what messages and rendered nodes show.  Two kinds
     may share a name: negation of a value and negation into an array are different kinds, and both
     are called `Negate`.

  2. **Operators** — `UnaryOp.outputType` and `BinaryOp.outputType` are the type rules; the shape of
     a result never depends on the operator.  A program brings the operators that it needs, each with
     an identity, a name and a type rule, and nothing else.  Those here stand for all of them: rules
     that keep a type, that fix it, that build on it and that combine two, and two operators of one
     name.  Nodes go by the identity (`Kind.code`), the name and the rule of their operator, so what
     is said of nodes of all kinds does not depend on which operators there are.

  3. **Argument names** — fixed for most kinds; the members of a list are numbered from 0, the
     arguments of a call are `p0`, `p1`, and so on.
-/
import ExprGraph.DataType

namespace ExprGraph

/-- Operators on one value. -/
inductive UnaryOp where
  /-- negation, which keeps the operand's type -/
  | negate
  /-- is the value missing? -/
  | isNull
  /-- negation into an array of the operand's type; it goes by the same name as `negate` -/
  | arrayNegate
  deriving DecidableEq

/-- Operators on two values. -/
inductive BinaryOp where
  | add
  | equals
  deriving DecidableEq

/-- **The kind of a node.** Nodes of different kinds are never equal. -/
inductive Kind where
  /-- a leaf with a fixed name, type and shape -/
  | field
  /-- a value under another name, or deliberately unnamed -/
  | alias
  | unary (op : UnaryOp)
  | binary (op : BinaryOp)
  /-- a group of nodes in one argument slot; not a value -/
  | list
  /-- a value of type `null` over any arguments -/
  | call
  /-- a node over any arguments that equals only itself; not a value -/
  | sealed
  deriving DecidableEq

namespace UnaryOp

def name : UnaryOp → String
  | .negate => "Negate"
  | .isNull => "IsNull"
  | .arrayNegate => "Negate"

/-- The type of the result. -/
def outputType : UnaryOp → DataType → DataType
  | .negate, t => t
  | .isNull, _ => .boolean
  | .arrayNegate, t => .array t

end UnaryOp

/-- **Promotion.** Equal types stay; else anything floating makes `float64`, all else `int64`. -/
def DataType.promote (left right : DataType) : DataType :=
  if left = right then left
  else if left.isFloating || right.isFloating then .float64
  else .int64

namespace BinaryOp

def name : BinaryOp → String
  | .add => "Add"
  | .equals => "Equals"

/-- The type of the result. -/
def outputType : BinaryOp → DataType → DataType → DataType
  | .add, left, right => left.promote right
  | .equals, _, _ => .boolean

end BinaryOp

namespace Kind

/-- The name that messages and rendered nodes show. -/
def name : Kind → String
  | .field => "Field"
  | .alias => "Alias"
  | .unary op => op.name
  | .binary op => op.name
  | .list => "NodeList"
  | .call => "Call"
  | .sealed => "Opaque"

/-- The declared fields of a kind whose arguments are fixed in number. -/
def fields : Kind → List String
  | .field => ["name", "dtype", "shape"]
  | .alias => ["arg", "name"]
  | .unary _ => ["arg"]
  | .binary _ => ["left", "right"]
  | .list | .call | .sealed => []

/-- The names of the arguments of a node with `count` of them. -/
def argumentNames (count : Nat) : Kind → List String
  | .list => (List.range count).map fun i => toString i
  | .call | .sealed => (List.range count).map fun i => "p" ++ toString i
  | kind => kind.fields

/-- A number of its own for each kind. -/
def code : Kind → UInt64
  | .field => 0
  | .alias => 1
  | .unary .negate => 2
  | .unary .isNull => 3
  | .unary .arrayNegate => 4
  | .binary .add => 5
  | .binary .equals => 6
  | .list => 7
  | .call => 8
  | .sealed => 9

theorem code_injective {a b : Kind} (h : a.code = b.code) : a = b := by
  rcases a with _ | _ | a | a | _ | _ | _ <;> rcases b with _ | _ | b | b | _ | _ | _ <;>
    first
      | rfl
      | (cases a <;> cases b <;> first | rfl | exact absurd h (by decide))
      | (cases a <;> exact absurd h (by decide))
      | (cases b <;> exact absurd h (by decide))
      | exact absurd h (by decide)

end Kind

end ExprGraph
