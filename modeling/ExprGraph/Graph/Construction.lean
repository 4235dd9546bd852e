/-
  Construction — from arguments to operations.

  A node is built in two steps: its arguments are checked and become an operation, and the operation
  is added to the graph.  Only the second step takes an identity, so a refused node leaves no trace.

  1. **Typed construction** — `aliasOf`, `unaryOf`, `binaryOf` take nodes and check what the types
     cannot: that operands are values.  Operands are checked in order, and the first that is no
     value is the one refused.  Fields and lists need no check.

  2. **Construction from a tuple** — `ofArguments` reads any argument tuple as the fields of a kind.

  3. **Derivation** — `Graph.derive` builds a node of the same kind over other arguments; a node's
     own arguments play no part in it.
-/
import ExprGraph.Graph.Fields

namespace ExprGraph

namespace Operation

/-- A value under another name, or deliberately unnamed. -/
def aliasOf (g : Graph) (arg : NodeId) (name : Option String) : Except GraphError Operation := do
  let arg ← g.operand Kind.alias.name "arg" arg
  return .alias arg name

/-- An operator on one value. -/
def unaryOf (g : Graph) (op : UnaryOp) (arg : NodeId) : Except GraphError Operation := do
  let arg ← g.operand op.name "arg" arg
  return .unary op arg

/-- An operator on two values. -/
def binaryOf (g : Graph) (op : BinaryOp) (left right : NodeId) : Except GraphError Operation := do
  let left ← g.operand op.name "left" left
  let right ← g.operand op.name "right" right
  return .binary op left right

open FieldReader in
/-- **An operation of a kind from a tuple of arguments**, refused where a rule is violated. -/
def ofArguments (g : Graph) (kind : Kind) (args : List Argument) : Except GraphError Operation :=
  match kind with
  | .field => readAll .field args do
    let name ← text "name"
    let t ← dataType "dtype"
    let s ← shape "shape"
    return .field name t s
  | .alias => readAll .alias args do
    let arg ← value g "arg"
    let name ← name "name"
    return .alias arg name
  | .unary op => readAll (.unary op) args do
    let arg ← value g "arg"
    return .unary op arg
  | .binary op => readAll (.binary op) args do
    let left ← value g "left"
    let right ← value g "right"
    return .binary op left right
  | .list => (nodesOf Kind.list.name "values" args).map .list
  | .call => .ok (.call args)
  | .sealed => .ok (.sealed args)

end Operation

/-- **An operation of the same kind as a node**, over other arguments. -/
def Graph.derive (g : Graph) (n : NodeId) (args : List Argument) : Except GraphError Operation :=
  Operation.ofArguments g (g.kind n) args

end ExprGraph
