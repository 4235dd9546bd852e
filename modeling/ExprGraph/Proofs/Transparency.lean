/-
  Transparency — caches are never seen in an answer.

  A stored outcome was computed by one of its two nodes, is found by both, and may be found long
  after: through another comparison, when other nodes of the same store are gone, or when its own
  are.  It is the right outcome all the same, so asking a cache is asking the graph.

  The reasons are all in place.  Sameness is symmetric, so it does not matter who computed; digests
  of same nodes agree, so nothing is lost where digests differ; identities are never given out
  twice, so an old outcome still speaks of the same two nodes.  They meet in `Consistent.sound`.
-/
import ExprGraph.Proofs.Histories

namespace ExprGraph.Session

variable {H : Hasher} {picker : ShardPicker} {s : Session}

/-- **Transparency**: in every reachable state, each cache answers what the graph says about any two
    live nodes, and whatever outcome it stores is what the graph says about the pair. -/
theorem cache_transparent (h : Reachable H picker s) (ref : CacheRef) :
    (∀ a b, s.Live a → s.Live b →
      ((s.onCache ref (PairCache.equalM s.graph a b)).1 = true ↔ s.graph.Same a b)) ∧
    ∀ p outcome, (s.cache ref).lookup p = some outcome →
      (outcome = true ↔ s.graph.Same p.low p.high) := by
  obtain ⟨history, hrun⟩ := reachable_iff_run.1 h
  have hs := hrun.invariant.1
  refine ⟨fun a b ha hb => ?_, fun p outcome hfound => (hs.sound ref p outcome hfound).2.2⟩
  have ha : a < s.graph.size := hs.tallied.lt_size ((isAlive_iff_live hs.built hs.tallied).2 ha)
  have hb : b < s.graph.size := hs.tallied.lt_size ((isAlive_iff_live hs.built hs.tallied).2 hb)
  exact PairCache.equalM_answer hs.built ha hb (hs.sound ref)

/-- Two lists that are alive, and whose pair is stored: they are the same, and so they are found to
    be. -/
theorem cache_transparent_nestedRun :
    Reachable .mixing .standard nestedRun.2 ∧ nestedRun.2.Live 2 ∧ nestedRun.2.Live 3 ∧
    (nestedRun.2.cache .shared).lookup (.of 2 3) = some true ∧ nestedRun.2.graph.Same 2 3 ∧
    (nestedRun.2.onCache .shared (PairCache.equalM nestedRun.2.graph 2 3)).1 = true := by
  have hleft : nestedRun.2.Live 2 := ⟨2, Nat.one_pos, .refl⟩
  have hright : nestedRun.2.Live 3 := ⟨3, Nat.one_pos, .refl⟩
  obtain ⟨hanswer, houtcome⟩ := cache_transparent reachable_nestedRun .shared
  have hsame : nestedRun.2.graph.Same 2 3 := (houtcome _ true lookup_nestedRun).1 rfl
  exact ⟨reachable_nestedRun, hleft, hright, lookup_nestedRun, hsame, (hanswer 2 3 hleft hright).2 hsame⟩

end ExprGraph.Session
