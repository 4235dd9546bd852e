/-
  Runs — everything that users of a session may do, in any order.

  A run starts with an empty session and goes on action by action.  An action is permitted when the
  nodes that it names are alive and the cache that it names exists; what is not permitted never
  happens.  The states that a run can reach are the ones that laws about sessions speak of.

  1. **Actions** — create a node from an argument tuple, take or give up a hold, compare two
     arguments through a cache, make a cache, clear one.  Comparing two nodes is comparing them as
     arguments, and typed construction is construction from a tuple, so nothing else is needed.

  2. **Program** — `Session.permits` says when an action may happen, `Session.perform` what it does,
     and `Session.answer` what the comparison in it says.

  3. **Reachability** — `Session.Reachable` is generated by the empty session and by permitted
     actions.
-/
import ExprGraph.Argument.WellFormed
import ExprGraph.Session

namespace ExprGraph

/-- **Something that a user may do.** -/
inductive Action where
  | create (kind : Kind) (args : List Argument)
  | retain (n : NodeId)
  | release (n : NodeId)
  | compare (ref : CacheRef) (a b : Argument)
  | newCache (shards : Nat)
  | clear (ref : CacheRef)

namespace Session

/-- Has the cache been made? -/
def hasCache (s : Session) : CacheRef → Prop
  | .shared => True
  | .pass i => i < s.passes.size

/-- An argument that a user may pass: well-formed, over living nodes. -/
def Usable (s : Session) (a : Argument) : Prop :=
  a.WellFormed ∧ ∀ n ∈ a.nodes, s.isAlive n = true

/-- **May the action happen?** -/
def permits (s : Session) : Action → Prop
  | .create _ args => ∀ a ∈ args, s.Usable a
  | .retain n => s.isAlive n = true
  | .release n => 0 < s.held.getD n 0
  | .compare ref a b => s.hasCache ref ∧ s.Usable a ∧ s.Usable b
  | .newCache _ => True
  | .clear ref => s.hasCache ref

/-- **What an action does.** A refused creation does nothing. -/
def perform (s : Session) : Action → Session
  | .create kind args =>
    match s.build (Operation.ofArguments s.graph kind args) with
    | .ok (_, s') => s'
    | .error _ => s
  | .retain n => s.retain n
  | .release n => s.release n
  | .compare ref a b => (s.onCache ref (PairCache.argumentsEqualM s.graph a b)).2
  | .newCache shards => (s.newCache shards).2
  | .clear ref => s.clearCache ref

/-- What the comparison in an action says; other actions say nothing. -/
def answer (s : Session) : Action → Option Bool
  | .compare ref a b => some (s.onCache ref (PairCache.argumentsEqualM s.graph a b)).1
  | _ => none

/-- **The states of runs.** -/
inductive Reachable (H : Hasher) (picker : ShardPicker) : Session → Prop where
  | start : Reachable H picker (Session.start H picker)
  | perform {s : Session} (a : Action) : Reachable H picker s → s.permits a →
      Reachable H picker (s.perform a)

end Session

end ExprGraph
