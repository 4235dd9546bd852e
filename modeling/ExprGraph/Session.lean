/-
  Sessions — a graph in use: who holds which nodes, and what the caches remember.

  A session owns the graph, one shared cache, and a cache for each pass that asked for one.  Its
  users hold nodes; nodes hold the nodes they are built over.  A node lives for as long as somebody
  holds it.  When the last hold goes the node is destroyed: the shared cache forgets it, and then it
  lets go of what it was built over, from left to right, which may destroy more.

  1. **Holds** — `held` counts the holds of users on each node, `uses` the places where living nodes
     are built over it.  `retain` and `release` change the first, `insert` and `destroy` the second.

  2. **Creation** — `insert` adds a node, held once by the caller.  The refusals are decided before,
     on operations, so there is no creation that fails.

  3. **Destruction** — `destroy` recurses on the identity: what a node is built over is older.

  4. **Caches** — `onCache` runs a comparison on one cache and no other, and moves what the cache
     reports to the end of the session's log.
-/
import ExprGraph.Graph.Construction
import ExprGraph.PairCache.Comparison

namespace ExprGraph

/-- The name of a cache: the shared one, or one made for a pass. -/
inductive CacheRef where
  | shared
  | pass (index : Nat)
  deriving DecidableEq

/-- **A graph in use.** -/
structure Session where
  hasher : Hasher
  picker : ShardPicker
  graph : Graph
  /-- how often users hold each node -/
  held : Array Nat
  /-- how often living nodes are built over each node -/
  uses : Array Nat
  shared : PairCache
  passes : Array PairCache
  log : Array Event

namespace Session

/-- An empty session. -/
def start (hasher : Hasher) (picker : ShardPicker) : Session where
  hasher := hasher
  picker := picker
  graph := .empty
  held := #[]
  uses := #[]
  shared := .create picker PairCache.standardShards true
  passes := #[]
  log := #[]

/-! ## Caches -/

/-- A cache by its name; one that was never made reads as an empty one. -/
def cache (s : Session) : CacheRef → PairCache
  | .shared => s.shared
  | .pass i => s.passes.getD i (.create s.picker PairCache.standardShards false)

/-- Put a cache back under its name, and its reports at the end of the log. -/
def putCache (s : Session) (ref : CacheRef) (c : PairCache) : Session :=
  let s := { s with log := s.log ++ c.events }
  let c := { c with events := #[] }
  match ref with
  | .shared => { s with shared := c }
  | .pass i => { s with passes := s.passes.setIfInBounds i c }

/-- **Run something on one cache.** -/
def onCache {α : Type} (s : Session) (ref : CacheRef) (act : StateM PairCache α) : α × Session :=
  let (result, c) := act.run (s.cache ref)
  (result, s.putCache ref c)

/-- A new cache, for one pass. -/
def newCache (s : Session) (shards : Nat) : CacheRef × Session :=
  (.pass s.passes.size, { s with passes := s.passes.push (.create s.picker shards false) })

/-- Forget all that a cache remembers. -/
def clearCache (s : Session) (ref : CacheRef) : Session := s.putCache ref (s.cache ref).clear

/-- The log since it was last taken. -/
def takeLog (s : Session) : Array Event × Session := (s.log, { s with log := #[] })

/-! ## Holds -/

/-- Does anybody hold the node? -/
def isAlive (s : Session) (n : NodeId) : Bool := s.held.getD n 0 != 0 || s.uses.getD n 0 != 0

/-- **Create a node**, held once by the caller. -/
def insert (s : Session) (op : Operation) : NodeId × Session :=
  let (n, graph) := s.graph.insert s.hasher op
  let uses := op.children.foldl (fun uses c => uses.modify c (· + 1)) s.uses
  (n, { s with graph := graph, held := s.held.push 1, uses := uses.push 0 })

/-- One more hold of a user on a node. -/
def retain (s : Session) (n : NodeId) : Session := { s with held := s.held.modify n (· + 1) }

/-- **Destroy a node**: the shared cache forgets it, then it lets go of what it was built over. -/
def destroy (s : Session) (n : NodeId) : Session :=
  (s.graph.children n).foldl
    (fun s c =>
      if _h : c < n then
        let s := { s with uses := s.uses.modify c (· - 1) }
        if s.isAlive c then s else destroy s c
      else s)
    (s.putCache .shared (s.shared.nodeDestroyed n))
  termination_by n

/-- One hold of a user less; the last one destroys the node. -/
def release (s : Session) (n : NodeId) : Session :=
  let s := { s with held := s.held.modify n (· - 1) }
  if s.isAlive n then s else s.destroy n

def retainAll (s : Session) (ns : List NodeId) : Session := ns.foldl retain s

def releaseAll (s : Session) (ns : List NodeId) : Session := ns.foldl release s

/-! ## Destruction leaves the graph as it is -/

@[simp] theorem graph_putCache (s : Session) (ref : CacheRef) (c : PairCache) :
    (s.putCache ref c).graph = s.graph := by
  cases ref <;> rfl

/-- **Identities outlive their nodes**: destroying changes what is held, never what was built. -/
theorem graph_destroy (s : Session) (n : NodeId) : (s.destroy n).graph = s.graph := by
  induction n using Nat.strongRecOn generalizing s with
  | _ n ih =>
    rw [destroy]
    have fold : ∀ (cs : List NodeId) (t : Session), (cs.foldl
        (fun s c =>
          if _h : c < n then
            let s := { s with uses := s.uses.modify c (· - 1) }
            if s.isAlive c then s else destroy s c
          else s) t).graph = t.graph := by
      intro cs
      induction cs with
      | nil => intro t; rfl
      | cons c rest ihc =>
        intro t
        rw [List.foldl_cons, ihc]
        split
        · rename_i h
          simp only
          split
          · rfl
          · exact ih c h _
        · rfl
    rw [fold, graph_putCache]

/-! ## Building -/

/-- Create a node from an operation that may have been refused. -/
def build (s : Session) (op : Except GraphError Operation) : Except GraphError (NodeId × Session) :=
  op.map s.insert

/-- The same handle known under a name: a renaming of its node is created, held by the caller. -/
def nameHandle (s : Session) (h : Handle) (name : String) :
    Except GraphError (Handle × Session) := do
  let (n, s) ← s.build (Operation.aliasOf s.graph h.node (some name))
  return (s.graph.handle n, s)

end Session

end ExprGraph
