/-
  Comparison — structural equality of nodes, through a cache.

  Problem: two nodes are equal when they are of one kind and their argument tuples are equal, nested
  nodes being compared in the same way.  Trees share subtrees, so a naive comparison may ask the
  same question over and over.

  1. **Program** — `PairCache.equalM` answers in this order:
     - a node equals itself, and nothing is looked up or counted;
     - nodes whose digests or kinds differ are not equal, and nothing is looked up or counted;
     - a stored outcome is a hit;
     - else it is a miss: the miss is noted, the argument tuples are compared through the same cache
       (a sealed node differs from every other node), and the outcome is stored.

  2. **Termination** — the left node descends.  Whatever a node is built over is older than the
     node, so the guard `c < a` in front of the recursive call never fails on a graph that was built
     node by node; it is there for the recursion to be total on any graph.

  3. **Everything else** — arguments, lists, handles and operands are compared by the nodes inside
     them.  Lists are compared member by member, which comes to the same as comparing the tuples of
     their members (`listsEqualM_eq_tuplesEqualM`).
-/
import ExprGraph.Argument.Comparison
import ExprGraph.Handle
import ExprGraph.PairCache

namespace ExprGraph

/-- Are two nodes of one kind built from equal arguments?  A sealed node is like no other. -/
def Graph.contentsEqualM {m : Type → Type} [Monad m] (g : Graph) (ask : NodeId → NodeId → m Bool)
    (a b : NodeId) : m Bool :=
  match g.kind a with
  | .sealed => pure false
  | _ => Argument.tuplesEqualM ask (g.arguments a) (g.arguments b)

section Contents

variable {m : Type → Type} [Monad m] {g : Graph} {ask : NodeId → NodeId → m Bool} {a b : NodeId}

theorem Graph.contentsEqualM_of_sealed (hs : g.kind a = .sealed) :
    g.contentsEqualM ask a b = pure false := by
  rw [contentsEqualM, hs]

theorem Graph.contentsEqualM_of_ne_sealed (hs : g.kind a ≠ .sealed) :
    g.contentsEqualM ask a b = Argument.tuplesEqualM ask (g.arguments a) (g.arguments b) := by
  unfold contentsEqualM
  split
  · exact absurd ‹_› hs
  · rfl

end Contents

namespace PairCache

/-- **Are two nodes structurally equal?** -/
def equalM (g : Graph) (a b : NodeId) : StateM PairCache Bool := do
  if a = b then
    return true
  else if g.digest a ≠ g.digest b ∨ g.kind a ≠ g.kind b then
    return false
  else
    match (← get).lookup (.of a b) with
    | some outcome =>
      modify fun c => c.noteHit (.of a b)
      return outcome
    | none =>
      modify fun c => c.noteMiss (.of a b)
      let outcome ←
        g.contentsEqualM (fun c d => if _h : c < a then equalM g c d else pure false) a b
      modify fun c => c.store a b outcome
      return outcome
  termination_by a

/-- Are two arguments structurally equal? -/
def argumentsEqualM (g : Graph) (a b : Argument) : StateM PairCache Bool := a.equalM (equalM g) b

/-- Are two argument tuples structurally equal? -/
def tuplesEqualM (g : Graph) (as bs : List Argument) : StateM PairCache Bool :=
  Argument.tuplesEqualM (equalM g) as bs

/-- Are nodes equal, one by one, as far as the shorter sequence reaches?  The first two that differ
    end it. -/
def membersEqualM (g : Graph) : List NodeId → List NodeId → StateM PairCache Bool
  | a :: as, b :: bs => do
    if ← equalM g a b then membersEqualM g as bs else return false
  | _, _ => return true

/-- Are two lists of nodes of one length, and equal member by member? -/
def listsEqualM (g : Graph) (l m : NodeList) : StateM PairCache Bool :=
  if l.length = m.length then membersEqualM g l.members m.members else return false

/-- Are the nodes of two handles structurally equal? -/
def handlesEqualM (g : Graph) (a b : Handle) : StateM PairCache Bool := equalM g a.node b.node

/-- Are two operands structurally equal?  Their shapes and types follow from their nodes. -/
def operandsEqualM (g : Graph) (a b : Operand) : StateM PairCache Bool := equalM g a.node b.node

/-- Compare a node with any argument, which must be a node. -/
def equalArgumentM (g : Graph) (a : NodeId) :
    Argument → StateM PairCache (Except GraphError Bool)
  | .node b => .ok <$> equalM g a b
  | other => pure (.error (.invalidComparison other.form))

/-! ## Lists and tuples -/

theorem membersEqualM_eq_itemsEqualM (g : Graph) (as bs : List NodeId) :
    membersEqualM g as bs = Argument.itemsEqualM (equalM g) (as.map .node) (bs.map .node) := by
  induction as generalizing bs with
  | nil => cases bs <;> simp only [membersEqualM, List.map_nil, List.map_cons, Argument.itemsEqualM]
  | cons a as ih =>
    cases bs with
    | nil => simp only [membersEqualM, List.map_nil, List.map_cons, Argument.itemsEqualM]
    | cons b bs =>
      simp only [membersEqualM, List.map_cons, Argument.itemsEqualM, Argument.equalM, ih]

/-- **Lists are compared like the tuples of their members**: the same questions are asked in the same
    order. -/
theorem listsEqualM_eq_tuplesEqualM (g : Graph) (l m : NodeList) :
    listsEqualM g l m = tuplesEqualM g (l.members.map .node) (m.members.map .node) := by
  rw [listsEqualM, tuplesEqualM, Argument.tuplesEqualM, List.length_map, List.length_map,
    membersEqualM_eq_itemsEqualM]
  rfl

end PairCache

end ExprGraph
