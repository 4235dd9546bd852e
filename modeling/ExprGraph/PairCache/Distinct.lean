/-
  Distinct elements — putting elements into a set, one by one.

  An element is new if no element that was put in before equals it.  Only elements of the same
  digest are ever compared, the new one on the left, in the order in which they were put in, until
  one is equal.

  1. **Program** — `findEqualM` looks for an equal element, `newcomersM` says of each element
     whether it was new.  What equality means, and what it remembers, is the caller's.
-/
import ExprGraph.PairCache.Comparison

namespace ExprGraph

namespace PairCache

variable {α : Type}

/-- Is an element equal to one of the kept elements? -/
def findEqualM (equal : α → α → StateM PairCache Bool) (x : α) : List α → StateM PairCache Bool
  | [] => pure false
  | y :: rest => do
    if ← equal x y then return true
    else findEqualM equal x rest

/-- Of each element in turn: is it new, after the `kept` ones? -/
def newcomersFromM (digest : α → UInt64) (equal : α → α → StateM PairCache Bool) (kept : List α) :
    List α → StateM PairCache (List Bool)
  | [] => pure []
  | x :: rest => do
    let known ← findEqualM equal x (kept.filter fun y => digest y == digest x)
    let kept := if known then kept else kept ++ [x]
    return (!known) :: (← newcomersFromM digest equal kept rest)

/-- **Of each element in turn: is it new?** -/
def newcomersM (digest : α → UInt64) (equal : α → α → StateM PairCache Bool) (xs : List α) :
    StateM PairCache (List Bool) :=
  newcomersFromM digest equal [] xs

end PairCache

end ExprGraph
