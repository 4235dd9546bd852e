/-
  Records — the operations on a cache, one after the other.

  A comparison changes its cache many times on the way, and so does a destruction that brings down
  several nodes.  Laws that hold at every such moment need the moments: here a cache operation is
  made into a datum, a comparison is run with a record of what it does, and the record is shown to
  be the comparison.

  1. **Steps** — `CacheStep` is one completed operation on a cache, `PairCache.apply` what it does,
     `PairCache.replay` what a sequence of them does.  The caches that a run passes through are the
     replays of the prefixes of its record.

  2. **Recorded comparison** — `recordEqualM` is `PairCache.equalM`, except that every change goes
     through `perform`, which appends the step to the record.

  3. **Erasure** — without its record the recorded comparison is the comparison
     (`recordEqualM_erases`), for nodes and for arguments.

  4. **Reports** — a session empties the list of reports after each action.  `PairCache.quiet` is
     the cache with that list emptied, and no step depends on it (`quiet_replay`).
-/
import ExprGraph.PairCache.Comparison
import ExprGraph.Proofs.Traversal

namespace ExprGraph

/-- **One completed operation on a cache.** -/
inductive CacheStep where
  | hit (pair : Pair)
  | miss (pair : Pair)
  | store (a b : NodeId) (outcome : Bool)
  /-- a node is destroyed, and the cache has forgotten it -/
  | destroyed (n : NodeId)
  /-- all pairs are forgotten, of which there were `entries` -/
  | clear (entries : Nat)

namespace PairCache

/-- What a step does to a cache. -/
def apply (c : PairCache) : CacheStep → PairCache
  | .hit pair => c.noteHit pair
  | .miss pair => c.noteMiss pair
  | .store a b outcome => c.store a b outcome
  | .destroyed n => c.nodeDestroyed n
  | .clear _ => c.clear

/-- What a sequence of steps makes of a cache. -/
def replay (c : PairCache) (steps : List CacheStep) : PairCache := steps.foldl apply c

@[simp] theorem replay_nil (c : PairCache) : c.replay [] = c := rfl

@[simp] theorem replay_cons (c : PairCache) (step : CacheStep) (rest : List CacheStep) :
    c.replay (step :: rest) = (c.apply step).replay rest := rfl

theorem replay_append (c : PairCache) (front back : List CacheStep) :
    c.replay (front ++ back) = (c.replay front).replay back := by
  rw [replay, replay, replay, List.foldl_append]

theorem replay_concat (c : PairCache) (front : List CacheStep) (step : CacheStep) :
    c.replay (front ++ [step]) = (c.replay front).apply step := by
  rw [replay_append, replay_cons, replay_nil]

/-! ## The recorded comparison -/

/-- A run on a cache that keeps a record of its steps. -/
abbrev Recorded := StateM (PairCache × List CacheStep)

/-- Take a step, and put it on record. -/
def perform (step : CacheStep) : Recorded Unit :=
  modify fun (c, record) => (c.apply step, record ++ [step])

/-- **Structural equality of two nodes, on record.** -/
def recordEqualM (g : Graph) (a b : NodeId) : Recorded Bool := do
  if a = b then
    return true
  else if g.digest a ≠ g.digest b ∨ g.kind a ≠ g.kind b then
    return false
  else
    match (← get).1.lookup (.of a b) with
    | some outcome =>
      perform (.hit (.of a b))
      return outcome
    | none =>
      perform (.miss (.of a b))
      let outcome ←
        g.contentsEqualM (fun c d => if _h : c < a then recordEqualM g c d else pure false) a b
      perform (.store a b outcome)
      return outcome
  termination_by a

/-- Structural equality of two arguments, on record. -/
def recordArgumentsM (g : Graph) (a b : Argument) : Recorded Bool := a.equalM (recordEqualM g) b

/-! ## Erasure -/

/-- **Without its record, `x` is `y`.** -/
def Erases (x : Recorded Bool) (y : StateM PairCache Bool) : Prop :=
  ∀ c record, ((x.run (c, record)).1, (x.run (c, record)).2.1) = y.run c

theorem relates_erases : Argument.Relates Erases where
  pure b c record := rfl
  andThen := by
    intro x y x' y' hx hy c record
    have hx := hx c record
    simp only [Argument.andThen, StateT.run_bind]
    rw [← hx]
    generalize x.run (c, record) = out
    obtain ⟨answer, c', record'⟩ := out
    cases answer with
    | true => exact hy c' record'
    | false => rfl

/-- The comparison of the arguments of two nodes, as it recurs. -/
def recordContentsM (g : Graph) (a b : NodeId) : Recorded Bool :=
  g.contentsEqualM (fun c d => if _h : c < a then recordEqualM g c d else pure false) a b

section Runs

variable {g : Graph} {a b : NodeId} {c : PairCache} {record : List CacheStep}

theorem recordEqualM_run_self : (recordEqualM g a a).run (c, record) = (true, (c, record)) := by
  rw [recordEqualM, if_pos rfl]
  rfl

theorem recordEqualM_run_of_differ (hab : a ≠ b)
    (hdiffer : g.digest a ≠ g.digest b ∨ g.kind a ≠ g.kind b) :
    (recordEqualM g a b).run (c, record) = (false, (c, record)) := by
  rw [recordEqualM, if_neg hab, if_pos hdiffer]
  rfl

theorem recordEqualM_run_of_hit (hab : a ≠ b)
    (hdiffer : ¬ (g.digest a ≠ g.digest b ∨ g.kind a ≠ g.kind b)) {outcome : Bool}
    (hfound : c.lookup (.of a b) = some outcome) :
    (recordEqualM g a b).run (c, record) =
      (outcome, (c.noteHit (.of a b), record ++ [.hit (.of a b)])) := by
  rw [recordEqualM, if_neg hab, if_neg hdiffer]
  simp only [StateT.run_bind, StateT.run_get, pure_bind, hfound]
  rfl

theorem recordEqualM_run_of_miss (hab : a ≠ b)
    (hdiffer : ¬ (g.digest a ≠ g.digest b ∨ g.kind a ≠ g.kind b))
    (hfound : c.lookup (.of a b) = none) :
    (recordEqualM g a b).run (c, record) =
      let out := (recordContentsM g a b).run
        (c.noteMiss (.of a b), record ++ [.miss (.of a b)])
      (out.1, (out.2.1.store a b out.1, out.2.2 ++ [.store a b out.1])) := by
  rw [recordEqualM, if_neg hab, if_neg hdiffer]
  simp only [StateT.run_bind, StateT.run_get, pure_bind, hfound]
  rfl

/-- A miss between nodes with no nodes inside is settled by the nodes themselves. -/
theorem recordEqualM_run_of_leaf (hab : a ≠ b)
    (hdiffer : ¬ (g.digest a ≠ g.digest b ∨ g.kind a ≠ g.kind b))
    (hfound : c.lookup (.of a b) = none) {outcome : Bool}
    (hleaf : recordContentsM g a b = pure outcome) :
    (recordEqualM g a b).run (c, record) =
      (outcome, ((c.noteMiss (.of a b)).store a b outcome,
        record ++ [.miss (.of a b), .store a b outcome])) := by
  rw [recordEqualM_run_of_miss hab hdiffer hfound, hleaf]
  show (outcome, _, (record ++ [.miss (.of a b)]) ++ [.store a b outcome]) = _
  rw [List.append_assoc]
  rfl

end Runs

/-- **The recorded comparison is the comparison.** -/
theorem recordEqualM_erases (g : Graph) (a b : NodeId) :
    Erases (recordEqualM g a b) (equalM g a b) := by
  -- both recur on the left node, under the same guard
  induction a using Nat.strongRecOn generalizing b with
  | _ a ih =>
    have hcontents : Erases (recordContentsM g a b)
        (g.contentsEqualM (fun c d => if _h : c < a then equalM g c d else pure false) a b) :=
      Argument.contentsEqualM_related_of_lt relates_erases ih b
    intro c record
    rw [equalM]
    by_cases hab : a = b
    · subst hab
      rw [recordEqualM_run_self, if_pos rfl]
      rfl
    by_cases hdiffer : g.digest a ≠ g.digest b ∨ g.kind a ≠ g.kind b
    · rw [recordEqualM_run_of_differ hab hdiffer, if_neg hab, if_pos hdiffer]
      rfl
    rw [if_neg hab, if_neg hdiffer]
    simp only [StateT.run_bind, StateT.run_get, pure_bind]
    cases hfound : c.lookup (.of a b) with
    | some outcome =>
      rw [recordEqualM_run_of_hit hab hdiffer hfound]
      rfl
    | none =>
      have hcontents := hcontents (c.noteMiss (.of a b)) (record ++ [.miss (.of a b)])
      rw [recordEqualM_run_of_miss hab hdiffer hfound]
      simp only [StateT.run_bind, StateT.run_modify, pure_bind]
      rw [← hcontents]
      rfl

/-- The same for arguments. -/
theorem recordArgumentsM_erases (g : Graph) (a b : Argument) :
    Erases (recordArgumentsM g a b) (argumentsEqualM g a b) :=
  Argument.equalM_related relates_erases fun c d _ => recordEqualM_erases g c d

/-! ## Reports

  Every step adds to the list of reports, and none reads it. -/

/-- A cache with its list of reports emptied. -/
def quiet (c : PairCache) : PairCache := { c with events := #[] }

@[simp] theorem lookup_quiet (c : PairCache) (pair : Pair) :
    c.quiet.lookup pair = c.lookup pair := rfl

theorem quiet_store (c : PairCache) (a b : NodeId) (outcome : Bool) :
    (c.store a b outcome).quiet = (c.quiet.store a b outcome).quiet := by
  have houtcomes : c.quiet.outcomes = c.outcomes := rfl
  have htracks : c.quiet.tracksLifetimes = c.tracksLifetimes := rfl
  unfold store
  simp only [houtcomes, htracks]
  split <;> rfl

theorem quiet_unlink (c : PairCache) (n partner : NodeId) :
    (c.unlink n partner).quiet = (c.quiet.unlink n partner).quiet := by
  have hpartners : c.quiet.partners = c.partners := rfl
  unfold unlink
  rw [hpartners]
  split
  · rfl
  · split <;> rfl

theorem quiet_dropPair (c : PairCache) (pair : Pair) :
    (c.dropPair pair).quiet = (c.quiet.dropPair pair).quiet := by
  have houtcomes : c.quiet.outcomes = c.outcomes := rfl
  unfold dropPair
  rw [houtcomes]
  split <;> rfl

theorem quiet_evictPair (c : PairCache) (n partner : NodeId) :
    (c.evictPair n partner).quiet = (c.quiet.evictPair n partner).quiet := by
  rw [evictPair, evictPair, quiet_unlink, quiet_dropPair, ← quiet_unlink]

theorem quiet_evict (c : PairCache) (n : NodeId) :
    (c.evict n).quiet = (c.quiet.evict n).quiet := by
  have fold : ∀ (list : List NodeId) (c d : PairCache), c.quiet = d.quiet →
      (list.foldl (fun c partner => c.evictPair n partner) c).quiet =
        (list.foldl (fun c partner => c.evictPair n partner) d).quiet := by
    intro list
    induction list with
    | nil => exact fun _ _ h => h
    | cons partner rest ih =>
      intro c d h
      refine ih _ _ ?_
      rw [quiet_evictPair c, quiet_evictPair d, h]
  have hpartners : c.quiet.partners = c.partners := rfl
  unfold evict
  rw [hpartners]
  split
  · rfl
  · exact fold _ _ _ rfl

theorem quiet_apply (c : PairCache) (step : CacheStep) :
    (c.apply step).quiet = (c.quiet.apply step).quiet := by
  cases step with
  | hit pair => rfl
  | miss pair => rfl
  | store a b outcome => exact quiet_store c a b outcome
  | destroyed n =>
    have hmarked : c.quiet.marked = c.marked := rfl
    rw [apply, apply, nodeDestroyed, nodeDestroyed, hmarked]
    split
    · exact quiet_evict c n
    · rfl
  | clear entries => rfl

/-- **No step depends on the reports.** -/
theorem quiet_replay (c : PairCache) (steps : List CacheStep) :
    (c.replay steps).quiet = (c.quiet.replay steps).quiet := by
  induction steps generalizing c with
  | nil => rfl
  | cons step rest ih => rw [replay_cons, replay_cons, ih, quiet_apply, ← ih]

end PairCache

end ExprGraph
