/-
  Towers — the same construction, applied over and over.

  A chain applies one operator to a node again and again.  A tower adds to a node its own negation,
  and goes on with the sum: each storey uses the one below twice, so a tower of depth `d` has `2 ·
  d` nodes and `2 ^ d` paths.

  1. **Program** — `chain` and `tower` build from the ground up and say which nodes they created, in
     order of creation; each of those is held once by the caller.

  2. **Refusals** — an operand that is no value is refused at the first step, and nothing is
     created.
-/
import ExprGraph.Session

namespace ExprGraph

/-- What a repeated construction ends in, and the nodes it created on the way. -/
structure Tower where
  top : NodeId
  created : List NodeId
  session : Session

namespace Session

/-- **A chain**: an operator applied `times` times. -/
def chain (op : UnaryOp) : Nat → NodeId → Session → Except GraphError Tower
  | 0, n, s => .ok ⟨n, [], s⟩
  | times + 1, n, s => do
    let (m, s) ← s.build (Operation.unaryOf s.graph op n)
    let rest ← chain op times m s
    return { rest with created := m :: rest.created }

/-- **A tower**: `depth` times the sum of a node and its negation, which is created first. -/
def tower : Nat → NodeId → Session → Except GraphError Tower
  | 0, n, s => .ok ⟨n, [], s⟩
  | depth + 1, n, s => do
    let (negated, s) ← s.build (Operation.unaryOf s.graph .negate n)
    let (sum, s) ← s.build (Operation.binaryOf s.graph .add n negated)
    let rest ← tower depth sum s
    return { rest with created := negated :: sum :: rest.created }

end Session

end ExprGraph
