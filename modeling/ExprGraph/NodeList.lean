/-
  Node lists — ordered groups of nodes.

  A list is nothing but its members in order.  It is not a node; wrapping it makes one
  (`Operation.list`), whose arguments are exactly the members.

  1. **Program** — joining a list with nodes on either side, also written `+`, with an untyped
     operand (a tuple of nodes or a list node) on either side, and access by position.

  2. **Untyped operands** — `operandNodes` is the sequence that an argument denotes: the nodes of a
     tuple, or the members of a list node, one level deep.  All else is refused.
-/
import ExprGraph.Graph.Fields

namespace ExprGraph

/-- **An ordered group of nodes.** -/
structure NodeList where
  members : List NodeId
  deriving DecidableEq

namespace NodeList

def empty : NodeList := ⟨[]⟩

def length (l : NodeList) : Nat := l.members.length

def isEmpty (l : NodeList) : Bool := l.members.isEmpty

def get? (l : NodeList) (i : Nat) : Option NodeId := l.members[i]?

/-- The member at a position, which must be inside the list. -/
def nodeAt (l : NodeList) (i : Nat) : Except GraphError NodeId :=
  match l.members[i]? with
  | some n => .ok n
  | none => .error (.indexOutOfRange i l.length)

def first? (l : NodeList) : Option NodeId := l.members.head?

def last? (l : NodeList) : Option NodeId := l.members.getLast?

/-- The list, and then `nodes`. -/
def concat (l : NodeList) (nodes : List NodeId) : NodeList := ⟨l.members ++ nodes⟩

/-- `nodes`, and then the list. -/
def rconcat (l : NodeList) (nodes : List NodeId) : NodeList := ⟨nodes ++ l.members⟩

instance : HAdd NodeList NodeList NodeList := ⟨fun l m => l.concat m.members⟩

instance : HAdd NodeList (List NodeId) NodeList := ⟨concat⟩

instance : HAdd (List NodeId) NodeList NodeList := ⟨fun nodes l => l.rconcat nodes⟩

/-- A list from a tuple of arguments, all of which must be nodes. -/
def ofArguments (args : List Argument) : Except GraphError NodeList :=
  (nodesOf Kind.list.name "values" args).map NodeList.mk

/-- **The nodes that an untyped operand denotes.** -/
def operandNodes (g : Graph) (other : Argument) : Except GraphError (List NodeId) :=
  match other with
  | .tuple items => nodesOf Kind.list.name "other" items
  | .node n =>
    match g.members? n with
    | some members => .ok members
    | none =>
      .error (.invalidField Kind.list.name (.named "other") .nodes (.node (g.kind n).name))
  | other =>
    .error (.invalidField Kind.list.name (.named "other") .nodes (.form other.form))

/-- The list, and then what an untyped operand denotes. -/
def concat? (g : Graph) (l : NodeList) (other : Argument) : Except GraphError NodeList :=
  (operandNodes g other).map l.concat

/-- What an untyped operand denotes, and then the list. -/
def rconcat? (g : Graph) (l : NodeList) (other : Argument) : Except GraphError NodeList :=
  (operandNodes g other).map l.rconcat

end NodeList

end ExprGraph
