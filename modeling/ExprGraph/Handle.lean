/-
  Handles — a node together with what the surface needs to know about it.

  A handle says by its sort whether a node is a scalar value, a column, or a list; for values it
  carries the type, for lists the members.

  1. **Program** — `Graph.handle` gives the handle of a node: a value becomes a scalar or a column
     by its shape, a list a list handle, and a sealed node a column of type `null`.

  2. **Names** — a handle is named as its node is (`Handle.resolveName`); naming a handle wraps its
     node in a renaming, which is the business of whoever owns the graph.
-/
import ExprGraph.NodeList

namespace ExprGraph

/-- **A handle on a node.** -/
inductive Handle where
  | scalar (node : NodeId) (dataType : DataType)
  | column (node : NodeId) (dataType : DataType)
  | list (node : NodeId) (members : NodeList)
  deriving DecidableEq

namespace Handle

def node : Handle → NodeId
  | .scalar n _ => n
  | .column n _ => n
  | .list n _ => n

/-- The type of a scalar or column handle; lists have none. -/
def dataType? : Handle → Option DataType
  | .scalar _ t => some t
  | .column _ t => some t
  | .list .. => none

/-- The shape of a scalar or column handle; lists have none. -/
def shape? : Handle → Option Shape
  | .scalar .. => some .scalar
  | .column .. => some .columnar
  | .list .. => none

def isScalar (h : Handle) : Bool := h.shape? == some .scalar

def isColumn (h : Handle) : Bool := h.shape? == some .columnar

def isList (h : Handle) : Bool := h.shape? == none

/-- The members of a list handle. -/
def members? : Handle → Option NodeList
  | .list _ members => some members
  | _ => none

/-- The handle of a node as a value of the given shape and type. -/
def ofValue (n : NodeId) (v : Value) : Handle :=
  match v.shape with
  | .columnar => .column n v.dataType
  | .scalar => .scalar n v.dataType

/-- The nodes that a handle holds on to: its own, and the members it carries. -/
def nodes (h : Handle) : List NodeId :=
  h.node :: (h.members?.map NodeList.members).getD []

def resolveName (g : Graph) (h : Handle) : Except GraphError (Option String) :=
  g.resolveName h.node

def hasName (g : Graph) (h : Handle) : Bool := g.hasResolvedName h.node

end Handle

/-- **The handle of a node.** -/
def Graph.handle (g : Graph) (n : NodeId) : Handle :=
  match g.value? n with
  | some v => .ofValue n v
  | none =>
    match g.members? n with
    | some members => .list n ⟨members⟩
    | none => .column n .null

end ExprGraph
