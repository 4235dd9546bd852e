/-
  Comparing arguments.

  Two arguments are equal when they have the same form and equal contents.  What it means for two
  nodes to be equal is not decided here: it is a question that the comparison asks, one pair at a
  time, and whoever is asked may keep a state (a cache, a counter, a log).

  1. **Order of questions** — tuples are compared from left to right and maps in the order of the
     left operand's keys; the first difference ends the comparison.  Lengths are compared first, so
     a tuple or a map of another length asks nothing.

  2. **Maps** are dictionaries: each key of the left operand is looked up in the right one, wherever
     it stands there.

  3. **Floats** are compared as numbers (`Binary64.same`), everything else by its value.
-/
import ExprGraph.Argument

namespace ExprGraph.Argument

variable {m : Type → Type} [Monad m]

mutual

/-- **Are two arguments equal**, if `ask` decides it for nodes? -/
def equalM (ask : NodeId → NodeId → m Bool) : Argument → Argument → m Bool
  | .node a, .node b => ask a b
  | .none, .none => pure true
  | .bool a, .bool b => pure (a == b)
  | .int a, .int b => pure (a == b)
  | .float a, .float b => pure (a.same b)
  | .text a, .text b => pure (a == b)
  | .shape a, .shape b => pure (a == b)
  | .dataType a, .dataType b => pure (a == b)
  | .tuple as, .tuple bs =>
    if as.length = bs.length then itemsEqualM ask as bs else pure false
  | .map as, .map bs =>
    if as.length = bs.length then entriesEqualM ask as bs else pure false
  | _, _ => pure false
  termination_by structural a => a

/-- Are two sequences equal, position by position, as far as the shorter one reaches? -/
def itemsEqualM (ask : NodeId → NodeId → m Bool) : List Argument → List Argument → m Bool
  | a :: as, b :: bs => do
    if ← a.equalM ask b then itemsEqualM ask as bs else pure false
  | _, _ => pure true
  termination_by structural as => as

/-- Has the right dictionary an equal value under every key of the left one? -/
def entriesEqualM (ask : NodeId → NodeId → m Bool) :
    List (String × Argument) → List (String × Argument) → m Bool
  | [], _ => pure true
  | (key, a) :: as, bs =>
    match bs.lookup key with
    | Option.none => pure false
    | some b => do
      if ← a.equalM ask b then entriesEqualM ask as bs else pure false
  termination_by structural as => as

end

/-- **Are two argument tuples equal?** -/
def tuplesEqualM (ask : NodeId → NodeId → m Bool) (as bs : List Argument) : m Bool :=
  if as.length = bs.length then itemsEqualM ask as bs else pure false

end ExprGraph.Argument
