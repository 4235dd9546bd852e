/-
  Field rules — reading an argument tuple as the fields of a kind.

  A pass over the graph holds plain tuples of arguments.  Before a node is built over it, each
  argument is read as the field that its position declares, and refused if it does not fit.

  1. **The reader** — a `FieldReader` holds the kind that the fields belong to and the arguments not
     yet read.  `FieldReader.start` refuses a tuple of the wrong length and names the declared
     fields.

  2. **Reads** — each takes the next argument, whether or not it then fits: `argument` takes any,
     `node` a node, `value` a node that is a value, `name` a text or the mark of the unnamed.

  3. **Groups** — `nodesOf` reads a whole tuple as nodes and names the first entry that is none.
-/
import ExprGraph.Graph

namespace ExprGraph

/-- **An operand for a field**: the node must be a value, and its shape and type are kept. -/
def Graph.operand (g : Graph) (kind field : String) (n : NodeId) : Except GraphError Operand :=
  match g.value? n with
  | some v => .ok { v with node := n }
  | none =>
    .error (.invalidField kind (.named field) .valueNode (.node (g.kind n).name))

/-- The arguments of a node of `kind` that are still to be read. -/
structure FieldReader where
  kind : String
  pending : List Argument

/-- A read: it takes arguments from the reader, and may refuse. -/
abbrev FieldRead := ExceptT GraphError (StateM FieldReader)

namespace FieldReader

/-- Begin to read `args` as the fields `names`. -/
def start (kind : String) (names : List String) (args : List Argument) :
    Except GraphError FieldReader :=
  if args.length = names.length then .ok ⟨kind, args⟩
  else .error (.invalidField kind .all (.arguments names) (.arguments args.length))

/-- The refusal of an argument that does not fit its field. -/
def mismatch {α : Type} (field : String) (expected : Expected) (found : Argument) :
    FieldRead α := do
  throw (.invalidField (← get).kind (.named field) expected (.form found.form))

/-- The next argument, whatever it is. -/
def argument (field : String) : FieldRead Argument := do
  let reader ← get
  match reader.pending with
  | [] => throw (.invalidField reader.kind (.named field) .argument .nothing)
  | a :: rest =>
    set { reader with pending := rest }
    return a

/-- The next argument, which must be a node. -/
def node (field : String) : FieldRead NodeId := do
  match ← argument field with
  | .node n => return n
  | other => mismatch field .node other

/-- The next argument, which must be a node that is a value. -/
def value (g : Graph) (field : String) : FieldRead Operand := do
  let n ← node field
  match g.operand (← get).kind field n with
  | .ok operand => return operand
  | .error e => throw e

/-- The next argument, which must be a text, or `none` for the deliberately unnamed. -/
def name (field : String) : FieldRead (Option String) := do
  match ← argument field with
  | .text s => return some s
  | .none => return none
  | other => mismatch field .textOrNone other

/-- The next argument, which must be a text. -/
def text (field : String) : FieldRead String := do
  match ← argument field with
  | .text s => return s
  | other => mismatch field .text other

/-- The next argument, which must be a data type. -/
def dataType (field : String) : FieldRead DataType := do
  match ← argument field with
  | .dataType t => return t
  | other => mismatch field .dataType other

/-- The next argument, which must be a shape. -/
def shape (field : String) : FieldRead Shape := do
  match ← argument field with
  | .shape s => return s
  | other => mismatch field .shape other

/-- Read a whole tuple: begin with its length, then read its fields. -/
def readAll {α : Type} (kind : Kind) (args : List Argument) (read : FieldRead α) :
    Except GraphError α := do
  let reader ← start kind.name kind.fields args
  (read.run reader).1

end FieldReader

/-- A sequence of nodes, the first of them at position `index` of its field. -/
def nodesFrom (kind field : String) (index : Nat) : List Argument → Except GraphError (List NodeId)
  | [] => .ok []
  | .node n :: rest => do return n :: (← nodesFrom kind field (index + 1) rest)
  | other :: _ =>
    .error (.invalidField kind (.entry field index) .node (.form other.form))

/-- **A tuple of nodes.** The first entry that is no node is refused, with its position. -/
def nodesOf (kind field : String) (args : List Argument) : Except GraphError (List NodeId) :=
  nodesFrom kind field 0 args

end ExprGraph
