/-
  Rendering — nodes as text, for people.

  A node is its kind's name and its arguments in parentheses, each with its name in front; the
  members of a list stand without names.  Nested nodes are written out in full, so a node that is
  shared is written once for each path that leads to it.

  1. **Program** — `Argument.render` writes an argument, given the text of every node;
     `Graph.render` ties the knot by recursion on the identity, since arguments are older than the
     node.

  2. **Forms** — texts are quoted (`Text.quote`), numbers are in the plain layout, tuples stand in
     parentheses and maps in braces, with their keys as they are.
-/
import ExprGraph.Binary64.Layout
import ExprGraph.Handle
import ExprGraph.Text.Quoted

namespace ExprGraph

namespace Argument

/-- Parts with commas between them. -/
def commas (parts : List String) : String := String.intercalate ", " parts

mutual

/-- **An argument as text**, given the text of nodes. -/
def render (nodeText : NodeId → String) : Argument → String
  | .node n => nodeText n
  | .none => "None"
  | .bool b => if b then "true" else "false"
  | .int i => toString i.toInt
  | .float x => x.write .plain
  | .text s => Text.quote s
  | .shape s => s.text
  | .dataType t => t.text
  | .tuple items => "(" ++ commas (renderItems nodeText items) ++ ")"
  | .map entries => "\x7b" ++ commas (renderEntries nodeText entries) ++ "\x7d"

def renderItems (nodeText : NodeId → String) : List Argument → List String
  | [] => []
  | a :: rest => a.render nodeText :: renderItems nodeText rest

def renderEntries (nodeText : NodeId → String) : List (String × Argument) → List String
  | [] => []
  | (key, a) :: rest => (key ++ ": " ++ a.render nodeText) :: renderEntries nodeText rest

end

end Argument

/-- An operation as text, given the text of nodes. -/
def Operation.render (nodeText : NodeId → String) (op : Operation) : String :=
  let args := Argument.renderItems nodeText op.arguments
  let parts :=
    match op.kind with
    | .list => args
    | _ => List.zipWith (fun name arg => name ++ "=" ++ arg) op.argumentNames args
  op.kind.name ++ "(" ++ Argument.commas parts ++ ")"

/-- **A node as text.** -/
def Graph.render (g : Graph) (n : NodeId) : String :=
  (g.operation n).render fun c => if _h : c < n then g.render c else ""
  termination_by n

/-- A handle as text: its node, and what sort of value it is. -/
def Handle.render (g : Graph) : Handle → String
  | .scalar n t => g.render n ++ ": scalar<" ++ t.text ++ ">"
  | .column n t => g.render n ++ ": column<" ++ t.text ++ ">"
  | .list n members => g.render n ++ ": list[" ++ toString members.length ++ "]"

end ExprGraph
