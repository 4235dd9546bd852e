/-
  The graph — nodes that never change, each built over older ones.

  A node is an operation over arguments, and its structural digest.  The graph is the sequence of
  all nodes ever built; a node's identity is its place there.  Nodes are added at the end and never
  touched again, so an identity always means the same node, and whatever a node is built over has a
  smaller identity.  That is what every recursion over the graph descends on.

  1. **Operations** — `Operation` is what a node does.  The operands of renamings and operators are
     values, and an `Operand` keeps the shape and the type that the operand had when the node was
     built.

  2. **Arguments** — `Operation.arguments` spells an operation as the tuple that equality, digests
     and rendering look at; `Operation.children` lists the nodes in it.

  3. **Growth** — `Graph.insert` adds a node and takes the next identity; nothing else does.

  4. **Queries** — kind, arguments, digest, name, and `value?`: the shape and the type of what a
     node produces, if it produces a value.
-/
import ExprGraph.Digest
import ExprGraph.Error
import ExprGraph.Kind

namespace ExprGraph

/-- Shape and type of what a node produces. -/
structure Value where
  shape : Shape
  dataType : DataType
  deriving DecidableEq

/-- **An operand**: a node known to be a value, with the shape and the type it was found to have. -/
structure Operand extends Value where
  node : NodeId
  deriving DecidableEq

/-- **What a node does.** -/
inductive Operation where
  | field (name : String) (dataType : DataType) (shape : Shape)
  | alias (arg : Operand) (name : Option String)
  | unary (op : UnaryOp) (arg : Operand)
  | binary (op : BinaryOp) (left right : Operand)
  | list (members : List NodeId)
  | call (arguments : List Argument)
  | sealed (arguments : List Argument)

namespace Operation

def kind : Operation → Kind
  | .field .. => .field
  | .alias .. => .alias
  | .unary op _ => .unary op
  | .binary op _ _ => .binary op
  | .list _ => .list
  | .call _ => .call
  | .sealed _ => .sealed

/-- **The argument tuple**: what the operation was built from, in declared order. -/
def arguments : Operation → List Argument
  | .field name t s => [.text name, .dataType t, .shape s]
  | .alias arg name => [.node arg.node, .ofName name]
  | .unary _ arg => [.node arg.node]
  | .binary _ left right => [.node left.node, .node right.node]
  | .list members => members.map .node
  | .call args => args
  | .sealed args => args

/-- The names of the arguments, in the same order. -/
def argumentNames (op : Operation) : List String :=
  op.kind.argumentNames op.arguments.length

/-- The nodes in the argument tuple, once for each place where they stand. -/
def children (op : Operation) : List NodeId := op.arguments.flatMap Argument.nodes

/-- The tokens of an operation: its kind, and its argument tuple. -/
def tokens (H : Hasher) (digestOf : NodeId → UInt64) (op : Operation) : List Token :=
  .word op.kind.code :: .word op.arguments.length.toUInt64
    :: Argument.itemTokens H digestOf op.arguments

end Operation

/-- A node: what it does, and its structural digest. -/
structure Node where
  operation : Operation
  digest : UInt64

/-- **The graph**: all nodes ever built, in order of creation. -/
structure Graph where
  nodes : Array Node

namespace Graph

def empty : Graph := ⟨#[]⟩

def size (g : Graph) : Nat := g.nodes.size

/-- The node of an identity; one that was never given out reads as an empty list. -/
def node (g : Graph) (n : NodeId) : Node := g.nodes.getD n ⟨.list [], 0⟩

def operation (g : Graph) (n : NodeId) : Operation := (g.node n).operation

def digest (g : Graph) (n : NodeId) : UInt64 := (g.node n).digest

def kind (g : Graph) (n : NodeId) : Kind := (g.operation n).kind

def arguments (g : Graph) (n : NodeId) : List Argument := (g.operation n).arguments

def children (g : Graph) (n : NodeId) : List NodeId := (g.operation n).children

/-- **Add a node.** It takes the next identity. -/
def insert (H : Hasher) (g : Graph) (op : Operation) : NodeId × Graph :=
  (g.size, ⟨g.nodes.push ⟨op, H.digest (op.tokens H g.digest)⟩⟩)

/-- The members of a list node. -/
def members? (g : Graph) (n : NodeId) : Option (List NodeId) :=
  match g.operation n with
  | .list members => some members
  | _ => none

/-- **What a node produces**, if it is a value.  Renamings and operators answer from the copies in
    their operands; a call is columnar as soon as one of its direct node arguments is a columnar
    value. -/
def value? (g : Graph) (n : NodeId) : Option Value :=
  match g.operation n with
  | .field _ t s => some ⟨s, t⟩
  | .alias arg _ => some arg.toValue
  | .unary op arg => some ⟨arg.shape, op.outputType arg.dataType⟩
  | .binary op left right =>
    some ⟨left.shape.combine right.shape, op.outputType left.dataType right.dataType⟩
  | .list _ => none
  | .call args =>
    let shapes := (args.filterMap Argument.node?).filterMap fun c =>
      if _h : c < n then (g.value? c).map Value.shape else none
    some ⟨Shape.combineAll shapes, .null⟩
  | .sealed _ => none
  termination_by n

def isValue (g : Graph) (n : NodeId) : Bool := (g.value? n).isSome

/-- The name of a node, which may be the mark of a deliberately unnamed one; only renamings have
    one. -/
def resolveName (g : Graph) (n : NodeId) : Except GraphError (Option String) :=
  match g.operation n with
  | .alias _ name => .ok name
  | op => .error (.notNamed op.kind.name)

def hasResolvedName (g : Graph) (n : NodeId) : Bool :=
  match g.operation n with
  | .alias .. => true
  | _ => false

/-! ## Growth keeps what was there -/

@[simp] theorem size_insert (H : Hasher) (g : Graph) (op : Operation) :
    (g.insert H op).2.size = g.size + 1 := by
  simp [insert, size]

@[simp] theorem insert_fst (H : Hasher) (g : Graph) (op : Operation) :
    (g.insert H op).1 = g.size := rfl

theorem node_insert_of_lt (H : Hasher) (g : Graph) (op : Operation) {n : NodeId}
    (h : n < g.size) : (g.insert H op).2.node n = g.node n := by
  have h' : n < g.nodes.size := h
  simp [insert, node, Array.getElem_push_lt h', h', Nat.lt_succ_of_lt h']

theorem operation_insert (H : Hasher) (g : Graph) (op : Operation) :
    (g.insert H op).2.operation g.size = op := by
  simp [insert, operation, node, size]

end Graph

end ExprGraph
