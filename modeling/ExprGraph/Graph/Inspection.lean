/-
  Inspection — nodes as text, for diagnosis.

  The diagnostic form shows what a node is stored as: its identity, its constructor, every field by
  name, and the shape and the type that an operand keeps.  Nested nodes are shown in full.

  1. **Program** — `Argument.inspect`, `Operation.inspect` and `Graph.inspect`, of the same build as
     the plain rendering, and `Handle.inspect` and `NodeList.inspect` on top.

  2. **Forms** — every argument stands in its constructor, texts and keys are quoted, and numbers
     are in the diagnostic layout.
-/
import ExprGraph.Graph.Rendering

namespace ExprGraph

/-- Fields by name, in braces behind the name of what they belong to. -/
def inspectFields (name : String) (fields : List (String × String)) : String :=
  name ++ " \x7b " ++ Argument.commas (fields.map fun (field, value) => field ++ ": " ++ value)
    ++ " \x7d"

/-- Parts in brackets. -/
def inspectSequence (parts : List String) : String := "[" ++ Argument.commas parts ++ "]"

namespace Argument

mutual

/-- **The diagnostic form of an argument**, given that of nodes. -/
def inspect (nodeText : NodeId → String) : Argument → String
  | .node n => "Node(" ++ nodeText n ++ ")"
  | .none => "None"
  | .bool b => "Bool(" ++ (if b then "true" else "false") ++ ")"
  | .int i => "Int(" ++ toString i.toInt ++ ")"
  | .float x => "Float(" ++ x.write .diagnostic ++ ")"
  | .text s => "Str(" ++ Text.quote s ++ ")"
  | .shape s => "Shape(" ++ s.label ++ ")"
  | .dataType t => "DataType(" ++ t.label ++ ")"
  | .tuple items => "Tuple([" ++ commas (inspectItems nodeText items) ++ "])"
  | .map entries => "Map(\x7b" ++ commas (inspectEntries nodeText entries) ++ "\x7d)"

def inspectItems (nodeText : NodeId → String) : List Argument → List String
  | [] => []
  | a :: rest => a.inspect nodeText :: inspectItems nodeText rest

def inspectEntries (nodeText : NodeId → String) : List (String × Argument) → List String
  | [] => []
  | (key, a) :: rest =>
    (Text.quote key ++ ": " ++ a.inspect nodeText) :: inspectEntries nodeText rest

end

end Argument

/-- The diagnostic form of an operand. -/
def Operand.inspect (nodeText : NodeId → String) (operand : Operand) : String :=
  inspectFields "ValueNode"
    [("node", nodeText operand.node), ("shape", operand.shape.label),
      ("dtype", operand.dataType.label)]

/-- The diagnostic form of an operation, given that of nodes. -/
def Operation.inspect (nodeText : NodeId → String) (op : Operation) : String :=
  let name := op.kind.name
  match op with
  | .field fieldName t s =>
    inspectFields name [("name", Text.quote fieldName), ("dtype", t.label), ("shape", s.label)]
  | .alias arg alias? =>
    let shown :=
      match alias? with
      | some s => "Some(" ++ Text.quote s ++ ")"
      | none => "None"
    inspectFields name [("arg", arg.inspect nodeText), ("name", shown)]
  | .unary _ arg => inspectFields name [("arg", nodeText arg.node)]
  | .binary _ left right =>
    inspectFields name [("left", nodeText left.node), ("right", nodeText right.node)]
  | .list members => inspectFields name [("values", inspectSequence (members.map nodeText))]
  | .call args => name ++ "(" ++ inspectSequence (Argument.inspectItems nodeText args) ++ ")"
  | .sealed args => name ++ "(" ++ inspectSequence (Argument.inspectItems nodeText args) ++ ")"

/-- **The diagnostic form of a node.** -/
def Graph.inspect (g : Graph) (n : NodeId) : String :=
  inspectFields "Node"
    [("id", "NodeId(" ++ toString n ++ ")"),
      ("op", (g.operation n).inspect fun c => if _h : c < n then g.inspect c else "")]
  termination_by n

/-- The diagnostic form of a list. -/
def NodeList.inspect (g : Graph) (l : NodeList) : String :=
  inspectFields Kind.list.name [("values", inspectSequence (l.members.map g.inspect))]

/-- The diagnostic form of a handle. -/
def Handle.inspect (g : Graph) : Handle → String
  | .scalar n t =>
    "Scalar(" ++ inspectFields "ScalarExpr" [("node", g.inspect n), ("dtype", t.label)] ++ ")"
  | .column n t =>
    "Column(" ++ inspectFields "ColumnExpr" [("node", g.inspect n), ("dtype", t.label)] ++ ")"
  | .list n members =>
    "List(" ++ inspectFields "ListExpr" [("node", g.inspect n), ("list", members.inspect g)] ++ ")"

end ExprGraph
