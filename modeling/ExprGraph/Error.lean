/-
  Errors — why a request to the graph is refused.

  A refusal is a cause with the facts that belong to it.  The wording is in one place, `message`,
  and nothing else depends on it.

  1. **Causes** — an argument that does not fit its field, a name asked of a node that has none, a
     node compared with something that is no node, a position behind the end of a list.

  2. **Fields** — a refused field is named by `FieldPath`: the whole tuple when its length is wrong,
     one declared field, or one entry of a field that holds several.

  3. **Wording** — `Expected.phrase` and `Found.phrase` say what the rule accepts and what came
     instead.
-/
import ExprGraph.Argument

namespace ExprGraph

/-- Which part of an argument tuple is at fault. -/
inductive FieldPath where
  /-- the tuple as a whole -/
  | all
  /-- one declared field -/
  | named (name : String)
  /-- one entry of a field that holds several -/
  | entry (name : String) (index : Nat)
  deriving DecidableEq

/-- What a field's rule accepts. -/
inductive Expected where
  | arguments (names : List String)
  | argument
  | node
  | valueNode
  | nodes
  | text
  | textOrNone
  | dataType
  | shape
  deriving DecidableEq

/-- What came instead. -/
inductive Found where
  | nothing
  | arguments (count : Nat)
  | form (form : Argument.Form)
  /-- a node of the wrong sort, by the name of its kind -/
  | node (kind : String)
  deriving DecidableEq

/-- **Why a request is refused.** -/
inductive GraphError where
  | invalidField (node : String) (field : FieldPath) (expected : Expected) (found : Found)
  | notNamed (node : String)
  | invalidComparison (found : Argument.Form)
  | indexOutOfRange (index length : Nat)
  deriving DecidableEq

def FieldPath.phrase : FieldPath → String
  | .all => "<args>"
  | .named name => name
  | .entry name index => name ++ "[" ++ toString index ++ "]"

def Expected.phrase : Expected → String
  | .arguments names =>
    toString names.length ++ " arguments (" ++ String.intercalate ", " names ++ ")"
  | .argument => "an argument"
  | .node => "a node"
  | .valueNode => "a value node"
  | .nodes => "a sequence of nodes"
  | .text => "a string"
  | .textOrNone => "a string or None"
  | .dataType => "a datatype"
  | .shape => "a shape"

def Found.phrase : Found → String
  | .nothing => "nothing"
  | .arguments count => toString count ++ " arguments"
  | .form f => f.name
  | .node kind => kind ++ " node"

namespace GraphError

/-- The wording of a refusal. -/
def message : GraphError → String
  | .invalidField node field expected found =>
    "invalid field value for " ++ node ++ "." ++ field.phrase ++ ": expected " ++ expected.phrase
      ++ ", found " ++ found.phrase
  | .notNamed node => "expression is not named: " ++ node
  | .invalidComparison found =>
    "invalid equality comparison between Node and " ++ found.name
  | .indexOutOfRange index length =>
    "index " ++ toString index ++ " out of range for NodeList of length " ++ toString length

/-- Does the refusal come from the rules on fields? -/
def isValidation : GraphError → Bool
  | .invalidField .. => true
  | _ => false

end GraphError

end ExprGraph
