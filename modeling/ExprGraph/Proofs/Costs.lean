/-
  Costs — what a comparison costs with a cache of its own.

  A pass makes a cache, compares two nodes, and reads the counters.  What it reads is a matter of the
  two nodes alone: not of the number of shards, nor of what else was built or compared by then.  So
  costs can be measured in one state, and relied on in another.

  1. **Runs alike** — `RunsAlike x y`: from caches with the same outcomes, both take the same steps
     and say the same.  Comparisons do, in graphs that agree on the two nodes and on all older ones
     (`recordEqualM_runsAlike`).

  2. **Costs** — `Costs g a b misses hits`: `a` and `b` are distinct and the same, and so many misses
     and hits it takes to find out, from any cache without outcomes.

  3. **Counters** — `Session.compareAfresh` is a comparison through a new cache.  What it reports are
     the costs, in that state and later (`costs_of_compareAfresh`, `Costs.compareAfresh`), and there
     are as many pairs in the cache as misses.
-/
import ExprGraph.Proofs.Effect

namespace ExprGraph

/-! ## Hits -/

/-- The pair that a step hits. -/
def CacheStep.hit? : CacheStep → Option Pair
  | .hit pair => some pair
  | _ => none

/-- The pairs hit, in order. -/
def hitPairs (steps : List CacheStep) : List Pair := steps.filterMap CacheStep.hit?

theorem hitPairs_append (xs ys : List CacheStep) :
    hitPairs (xs ++ ys) = hitPairs xs ++ hitPairs ys := List.filterMap_append

@[simp] theorem hitPairs_hit (p : Pair) (rest : List CacheStep) :
    hitPairs (.hit p :: rest) = p :: hitPairs rest := rfl

namespace PairCache

/-- A comparison counts its hits. -/
theorem hits_replay {c : PairCache} {steps : List CacheStep}
    (h : ∀ step ∈ steps, step.OfComparison) :
    (c.replay steps).hits = c.hits + (hitPairs steps).length := by
  induction steps generalizing c with
  | nil => rfl
  | cons step rest ih =>
    obtain ⟨hstep, hrest⟩ := List.forall_mem_cons.1 h
    rw [replay_cons, ih hrest]
    cases step with
    | hit pair =>
      have hhit : (c.apply (.hit pair)).hits = c.hits + 1 := rfl
      rw [hhit, hitPairs_hit, List.length_cons]
      omega
    | miss pair => rfl
    | store a b outcome =>
      have hstore : (c.store a b outcome).hits = c.hits := by
        unfold store
        simp only
        split <;> rfl
      rw [apply, hstore]
      rfl
    | destroyed n => exact hstep.elim
    | clear entries => exact hstep.elim

/-- **The counters of a new cache** after one comparison. -/
theorem stats_replay {g : Graph} {H : Hasher} {R : NodeId → NodeId → Prop} {picker : ShardPicker}
    {shards : Nat} {steps : List CacheStep} (hg : g.Built H)
    (h : Episode g R (.create picker shards false) steps) :
    ((create picker shards false).replay steps).stats =
      ⟨(hitPairs steps).length, (missedPairs steps).length, 0, (missedPairs steps).length⟩ := by
  have hnew := keeps_create picker shards false
  obtain ⟨hmisses, hevictions⟩ := counters_replay (c := create picker shards false) h.ofComparison
  have hkeeps : Keeps _ (survivors steps) := (hnew.replay (h.proper false)).1
  have hsurvivors : survivors ([] ++ steps) = survivors [] ++ storedPairs steps :=
    h.survivors_append hg hnew
  have hsize : ((create picker shards false).replay steps).size = (missedPairs steps).length := by
    rw [hkeeps.size, ← List.nil_append steps, hsurvivors]
    exact h.stored_perm_missed.length_eq
  rw [stats, hits_replay h.ofComparison, hmisses, hevictions, hsize]
  simp [create]

/-! ## Runs alike -/

/-- **Two comparisons that take the same steps** and say the same, from caches with the same
    outcomes, which stay the same. -/
def RunsAlike (x y : Recorded Bool) : Prop :=
  ∀ c d past past', (∀ p, d.lookup p = c.lookup p) → ∃ answer c' d' steps,
    x.run (c, past) = (answer, (c', past ++ steps)) ∧
      y.run (d, past') = (answer, (d', past' ++ steps)) ∧ ∀ p, d'.lookup p = c'.lookup p

theorem runsAlike_pure (answer : Bool) : RunsAlike (pure answer) (pure answer) := by
  intro c d past past' h
  exact ⟨answer, c, d, [], by rw [List.append_nil]; rfl, by rw [List.append_nil]; rfl, h⟩

theorem relates_runsAlike : Argument.Relates RunsAlike where
  pure := runsAlike_pure
  andThen := by
    intro x y x' y' hx hy c d past past' h
    obtain ⟨answer, c', d', xs, hrun, hrun', h'⟩ := hx c d past past' h
    simp only [Argument.andThen, StateT.run_bind]
    rw [hrun, hrun']
    cases answer with
    | false => exact ⟨false, c', d', xs, rfl, rfl, h'⟩
    | true =>
      obtain ⟨answer, c'', d'', ys, hrun, hrun', h''⟩ := hy c' d' (past ++ xs) (past' ++ xs) h'
      rw [List.append_assoc] at hrun hrun'
      exact ⟨answer, c'', d'', xs ++ ys, hrun, hrun', h''⟩

section Graphs

variable {g g' : Graph} {H : Hasher} {a b : NodeId} {size : Nat}

/-- The comparison of the arguments, given that of what is older. -/
theorem recordContentsM_runsAlike (hg : g.Built H) (hkind : g'.kind a = g.kind a)
    (hleft : g'.arguments a = g.arguments a) (hright : g'.arguments b = g.arguments b)
    (ih : ∀ c < a, ∀ d < b, RunsAlike (recordEqualM g c d) (recordEqualM g' c d)) :
    RunsAlike (recordContentsM g a b) (recordContentsM g' a b) := by
  by_cases hs : g.kind a = .sealed
  · rw [recordContentsM_of_sealed hs, recordContentsM_of_sealed (hkind.trans hs)]
    exact runsAlike_pure false
  rw [recordContentsM_of_ne_sealed hs, recordContentsM_of_ne_sealed (hkind ▸ hs), hleft, hright]
  refine Argument.tuplesEqualM_related relates_runsAlike fun c d hcd => ?_
  obtain ⟨hca, hdb⟩ := hg.lt_of_asked hcd
  rw [dif_pos hca, dif_pos hca]
  exact ih c hca d hdb

/-- **Comparisons run alike** in graphs that agree on the two nodes and what is older. -/
theorem recordEqualM_runsAlike (hg : g.Built H) (hnodes : ∀ n < size, g'.node n = g.node n)
    (ha : a < size) (hb : b < size) : RunsAlike (recordEqualM g a b) (recordEqualM g' a b) := by
  induction a using Nat.strongRecOn generalizing b with
  | _ a ih =>
    have hoperation : ∀ n < size, g'.operation n = g.operation n := fun n hn =>
      congrArg Node.operation (hnodes n hn)
    have hdigest : ∀ n < size, g'.digest n = g.digest n := fun n hn =>
      congrArg Node.digest (hnodes n hn)
    have hkind : ∀ n < size, g'.kind n = g.kind n := fun n hn =>
      congrArg Operation.kind (hoperation n hn)
    have harguments : ∀ n < size, g'.arguments n = g.arguments n := fun n hn =>
      congrArg Operation.arguments (hoperation n hn)
    have hcontents : RunsAlike (recordContentsM g a b) (recordContentsM g' a b) :=
      recordContentsM_runsAlike hg (hkind a ha) (harguments a ha) (harguments b hb)
        fun c hc d hd => ih c hc (Nat.lt_trans hc ha) (Nat.lt_trans hd hb)
    intro c d past past' h
    by_cases hab : a = b
    · subst hab
      rw [recordEqualM_run_self, recordEqualM_run_self]
      exact ⟨true, c, d, [], by rw [List.append_nil], by rw [List.append_nil], h⟩
    by_cases hdiffer : g.digest a ≠ g.digest b ∨ g.kind a ≠ g.kind b
    · have hdiffer' : g'.digest a ≠ g'.digest b ∨ g'.kind a ≠ g'.kind b := by
        rwa [hdigest a ha, hdigest b hb, hkind a ha, hkind b hb]
      rw [recordEqualM_run_of_differ hab hdiffer, recordEqualM_run_of_differ hab hdiffer']
      exact ⟨false, c, d, [], by rw [List.append_nil], by rw [List.append_nil], h⟩
    have hdiffer' : ¬ (g'.digest a ≠ g'.digest b ∨ g'.kind a ≠ g'.kind b) := by
      rwa [hdigest a ha, hdigest b hb, hkind a ha, hkind b hb]
    cases hfound : c.lookup (.of a b) with
    | some outcome =>
      rw [recordEqualM_run_of_hit hab hdiffer hfound,
        recordEqualM_run_of_hit hab hdiffer' ((h _).trans hfound)]
      exact ⟨outcome, _, _, _, rfl, rfl, h⟩
    | none =>
      rw [recordEqualM_run_of_miss hab hdiffer hfound,
        recordEqualM_run_of_miss hab hdiffer' ((h _).trans hfound)]
      obtain ⟨outcome, c', d', inner, hrun, hrun', h'⟩ :=
        hcontents (c.noteMiss (.of a b)) (d.noteMiss (.of a b)) (past ++ [.miss (.of a b)])
          (past' ++ [.miss (.of a b)]) h
      rw [hrun, hrun']
      refine ⟨outcome, c'.store a b outcome, d'.store a b outcome,
        .miss (.of a b) :: (inner ++ [.store a b outcome]), by simp, by simp, fun p => ?_⟩
      rw [lookup_store, lookup_store, h']

end Graphs

/-! ## Costs -/

/-- **What it costs to find `a` and `b` equal**, with a cache that has no outcomes yet. -/
structure Costs (g : Graph) (a b : NodeId) (misses hits : Nat) : Prop where
  left_lt : a < g.size
  right_lt : b < g.size
  ne : a ≠ b
  same : g.Same a b
  run : ∀ c past, (∀ p, c.lookup p = none) → ∃ later steps,
    (recordEqualM g a b).run (c, past) = (true, (later, past ++ steps)) ∧
      (missedPairs steps).length = misses ∧ (hitPairs steps).length = hits

end PairCache

namespace Session

open PairCache

variable {H : Hasher} {picker : ShardPicker} {s t : Session} {a b : NodeId}

/-- **Compare two nodes with a new cache**, and read its counters. -/
def compareAfresh (s : Session) (shards : Nat) (a b : NodeId) : Bool × CacheStats :=
  let (ref, s) := s.newCache shards
  let (answer, s) := s.onCache ref (equalM s.graph a b)
  (answer, (s.cache ref).stats)

/-- The new cache starts without outcomes, and nothing else has a part in it. -/
theorem compareAfresh_eq (s : Session) (shards : Nat) (a b : NodeId) :
    s.compareAfresh shards a b =
      let out := (equalM s.graph a b).run (.create s.picker shards false)
      (out.1, out.2.stats) := by
  have hnew : (s.newCache shards).2.cache (.pass s.passes.size) =
      .create s.picker shards false := (cache_newCache s shards _).trans (if_pos rfl)
  have hcache : (s.newCache shards).2.hasCache (.pass s.passes.size) := by
    show s.passes.size < (s.passes.push _).size
    rw [Array.size_push]
    exact Nat.lt_succ_self _
  have hafter := cache_onCache_equalM hcache a b
  show (((equalM s.graph a b).run ((s.newCache shards).2.cache (.pass s.passes.size))).1,
    (((s.newCache shards).2.onCache (.pass s.passes.size) (equalM s.graph a b)).2.cache
      (.pass s.passes.size)).stats) = _
  refine (congrArg (fun c => (_, PairCache.stats c)) hafter).trans ?_
  rw [hnew]
  rfl

/-- **The misses are the pairs that paths lead to**, each of them once. -/
theorem misses_of_pathPairs (h : Reachable H picker s) (ha : a < s.graph.size)
    (hb : b < s.graph.size) (hab : a ≠ b) (hsame : s.graph.Same a b) {pairs : List Pair}
    (hnodup : pairs.Nodup) (hpairs : ∀ p, p ∈ pairs ↔ s.graph.PathPair a b p) (shards : Nat) :
    (s.compareAfresh shards a b).2.misses = pairs.length := by
  have hempty := lookup_create s.picker shards false
  have hgains := (equalM_gains h.consistent.built (Graph.coherent_of_empty hempty) ha hb hab
    hsame).2
  rw [compareAfresh_eq]
  refine (hgains.misses_of_list hnodup fun p => ?_).trans (Nat.zero_add _)
  rw [hpairs, and_iff_left (hempty p)]

/-- A comparison with a new cache, on record. -/
theorem exists_record_of_compareAfresh (h : Reachable H picker s) (ha : a < s.graph.size)
    (hb : b < s.graph.size) (hsame : s.graph.Same a b) (shards : Nat) : ∃ later steps,
    (recordEqualM s.graph a b).run (.create s.picker shards false, []) = (true, (later, steps)) ∧
      s.compareAfresh shards a b = (true,
        ⟨(hitPairs steps).length, (missedPairs steps).length, 0, (missedPairs steps).length⟩) := by
  have hg := h.consistent.built
  have hsound : s.graph.Sound (.create s.picker shards false) :=
    (Graph.coherent_of_empty (lookup_create _ _ _)).sound
  obtain ⟨steps, hrun, hepisode, hanswer⟩ := recordEqualM_asks hg ha hb _ [] hsound
  have hrun : (recordEqualM s.graph a b).run (.create s.picker shards false, []) =
      (true, ((create s.picker shards false).replay steps, steps)) :=
    Prod.ext (hanswer.2 hsame) hrun
  refine ⟨_, steps, hrun, ?_⟩
  rw [compareAfresh_eq, ← recordEqualM_erases s.graph a b _ [], hrun, ← stats_replay hg hepisode]

/-- **What was measured is what it costs**, then and later. -/
theorem costs_of_compareAfresh (h : Reachable H picker s) (ha : a < s.graph.size)
    (hb : b < s.graph.size) (hab : a ≠ b) (hsame : s.graph.Same a b) (ht : s.Later t)
    (shards : Nat) :
    Costs t.graph a b (s.compareAfresh shards a b).2.misses
      (s.compareAfresh shards a b).2.hits := by
  obtain ⟨later, steps, hrun, hstats⟩ := exists_record_of_compareAfresh h ha hb hsame shards
  rw [hstats]
  refine ⟨Nat.lt_of_lt_of_le ha (ht.size_le h), Nat.lt_of_lt_of_le hb (ht.size_le h), hab,
    (ht.same_iff h ha hb).2 hsame, fun c past hc => ?_⟩
  -- the new cache and `c` have no outcomes, so the run that was measured tells how this one goes
  obtain ⟨answer, c', d', steps', hrun', hthere, -⟩ :=
    recordEqualM_runsAlike h.consistent.built (fun n hn => ht.node_eq h hn) ha hb
      (.create s.picker shards false) c [] past fun p => (hc p).trans (lookup_create _ _ _ p).symm
  rw [hrun] at hrun'
  cases hrun'
  exact ⟨d', _, hthere, rfl, rfl⟩

end Session

/-- **What it costs is what is measured.** -/
theorem PairCache.Costs.compareAfresh {H : Hasher} {picker : ShardPicker} {t : Session}
    {a b : NodeId} {misses hits : Nat} (h : Costs t.graph a b misses hits)
    (ht : Session.Reachable H picker t) (shards : Nat) :
    t.compareAfresh shards a b = (true, ⟨hits, misses, 0, misses⟩) := by
  obtain ⟨later, steps, hrun, hstats⟩ :=
    Session.exists_record_of_compareAfresh ht h.left_lt h.right_lt h.same shards
  obtain ⟨later', steps', hrun', rfl, rfl⟩ :=
    h.run (.create t.picker shards false) [] (lookup_create _ _ _)
  rw [hrun] at hrun'
  cases hrun'
  exact hstats

end ExprGraph
