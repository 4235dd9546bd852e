/-
  Effect — what one positive comparison leaves behind.

  A comparison goes down from its two nodes side by side.  It stops at a pair that is stored, at a
  node that meets itself, and it may come to one pair along many paths, in either order.  What it
  leaves behind depends on none of this.

  1. **Specification** — `Graph.PathPair g a b p`: `p` is a pair of distinct nodes to which one path
     leads, from `a` and from `b`.  A cache gains pairs (`PairCache.Gains`) if these are stored with
     the outcome `true`, everything else is as before, and each pair that is new is counted as a miss
     once.  What a cache gains decides what is stored and how many misses there are (`Gains.lookup_eq`,
     `Gains.misses_eq`).

  2. **Nothing else** — a comparison misses opposite nodes only (`Episode.of_mem_missedPairs`), none
     of them stored and none twice, and stores what it misses.

  3. **Nothing less** — afterwards the two nodes are stored as equal, and positive outcomes go down:
     so the whole of what paths lead to is stored (`Closed.follow`), a hit on the way or not.

  4. **Result** — `equalM_gains` for the comparison of nodes that are the same; without sealed nodes
     below, ideal digests say which ones these are.
-/
import ExprGraph.Proofs.Accounting
import ExprGraph.Proofs.Values
import ExprGraph.Proofs.Digests

namespace ExprGraph

/-! ## The specification -/

/-- **A pair that paths lead to**: distinct nodes at the ends of one path from `a` and from `b`. -/
def Graph.PathPair (g : Graph) (a b : NodeId) (p : Pair) : Prop :=
  ∃ x y, g.Opposite a b x y ∧ x ≠ y ∧ p = .of x y

theorem Graph.pathPair_comm {g : Graph} {a b : NodeId} {p : Pair} :
    g.PathPair a b p ↔ g.PathPair b a p := by
  constructor
  · rintro ⟨x, y, hxy, hne, rfl⟩
    exact ⟨y, x, hxy.symm, hne.symm, Pair.of_comm x y⟩
  · rintro ⟨x, y, hxy, hne, rfl⟩
    exact ⟨y, x, hxy.symm, hne.symm, Pair.of_comm x y⟩

/-- The pairs below are those below nodes that stand at one place. -/
theorem Graph.pathPair_iff {g : Graph} {a b : NodeId} {p : Pair} (hab : a ≠ b) :
    g.PathPair a b p ↔ p = .of a b ∨ ∃ place c d, g.nodeAt? a place = some c ∧
      g.nodeAt? b place = some d ∧ g.PathPair c d p := by
  constructor
  · rintro ⟨x, y, ⟨path, hx, hy⟩, hne, rfl⟩
    cases path with
    | nil =>
      cases hx
      cases hy
      exact Or.inl rfl
    | cons place rest =>
      obtain ⟨c, hc, hx⟩ := follow_cons.1 hx
      obtain ⟨d, hd, hy⟩ := follow_cons.1 hy
      exact Or.inr ⟨place, c, d, hc, hd, x, y, ⟨rest, hx, hy⟩, hne, rfl⟩
  · rintro (rfl | ⟨place, c, d, hc, hd, x, y, hxy, hne, rfl⟩)
    · exact ⟨a, b, .refl g a b, hab, rfl⟩
    · exact ⟨x, y, hxy.head hc hd, hne, rfl⟩

/-- From a node over no other nodes there is no way down. -/
theorem Graph.pathPair_of_leaf {g : Graph} {a b : NodeId} {p : Pair} (ha : g.children a = [])
    (hab : a ≠ b) : g.PathPair a b p ↔ p = .of a b := by
  rw [pathPair_iff hab]
  refine or_iff_left ?_
  rintro ⟨place, c, d, hc, -⟩
  have hmem := mem_children_of_nodeAt? hc
  rw [ha] at hmem
  exact List.not_mem_nil hmem

namespace PairCache

/-- **What a cache gains**: `pairs` are stored as equal, everything else is as before, and the misses
    grow by the number of those that were not stored. -/
structure Gains (before after : PairCache) (pairs : Pair → Prop) : Prop where
  lookup : ∀ p outcome, after.lookup p = some outcome ↔
    before.lookup p = some outcome ∨ (pairs p ∧ outcome = true)
  misses : ∃ new : List Pair, new.Nodup ∧ (∀ p, p ∈ new ↔ pairs p ∧ before.lookup p = none) ∧
    after.misses = before.misses + new.length

namespace Gains

variable {before after after' : PairCache} {pairs : Pair → Prop}

theorem congr {pairs' : Pair → Prop} (h : before.Gains after pairs)
    (hpairs : ∀ p, pairs p ↔ pairs' p) : before.Gains after pairs' := by
  obtain rfl : pairs = pairs' := funext fun p => propext (hpairs p)
  exact h

theorem quiet (h : before.Gains after pairs) : before.Gains after.quiet pairs :=
  ⟨h.lookup, h.misses⟩

/-- **The gain decides what is stored.** -/
theorem lookup_eq (h : before.Gains after pairs) (h' : before.Gains after' pairs) (p : Pair) :
    after'.lookup p = after.lookup p :=
  Option.ext fun outcome => (h'.lookup p outcome).trans (h.lookup p outcome).symm

/-- The number of misses, if the new pairs are listed. -/
theorem misses_of_list (h : before.Gains after pairs) {new : List Pair} (hnodup : new.Nodup)
    (hmem : ∀ p, p ∈ new ↔ pairs p ∧ before.lookup p = none) :
    after.misses = before.misses + new.length := by
  obtain ⟨new', hnodup', hmem', hmisses⟩ := h.misses
  have hperm : new'.Perm new :=
    (List.perm_ext_iff_of_nodup hnodup' hnodup).2 fun p => (hmem' p).trans (hmem p).symm
  rw [hmisses, hperm.length_eq]

/-- **The gain decides the misses.** -/
theorem misses_eq (h : before.Gains after pairs) (h' : before.Gains after' pairs) :
    after'.misses = after.misses := by
  obtain ⟨new, hnodup, hmem, hmisses⟩ := h.misses
  exact (h'.misses_of_list hnodup hmem).trans hmisses.symm

end Gains

end PairCache

/-! ## Nothing less -/

namespace Graph

variable {g : Graph} {H : Hasher} {c : PairCache} {a b : NodeId}

/-- **Positive outcomes go all the way down.** -/
theorem Closed.follow (h : g.Closed c) {path : List (List Argument.Step)} {x y : NodeId}
    (hab : a = b ∨ c.cached a b = some true) (hx : g.follow a path = some x)
    (hy : g.follow b path = some y) : x = y ∨ c.cached x y = some true := by
  induction path generalizing a b with
  | nil =>
    cases hx
    cases hy
    exact hab
  | cons place rest ih =>
    rcases hab with rfl | hab
    · -- one node leads to one node
      exact Or.inl (Option.some.inj (hx.symm.trans hy))
    · obtain ⟨u, hu, hx⟩ := follow_cons.1 hx
      obtain ⟨v, hv, hy⟩ := follow_cons.1 hy
      exact ih (h a b hab place u v hu hv) hx hy

theorem Closed.pathPair (h : g.Closed c) (hab : c.cached a b = some true) {p : Pair}
    (hp : g.PathPair a b p) : c.lookup p = some true := by
  obtain ⟨x, y, ⟨path, hx, hy⟩, hne, rfl⟩ := hp
  exact (h.follow (Or.inr hab) hx hy).resolve_left hne

end Graph

/-! ## The effect -/

/-- **A comparison that ends with a positive outcome** gains all pairs that paths lead to. -/
theorem Episode.gains {g : Graph} {H : Hasher} {c : PairCache} {steps : List CacheStep}
    {a b : NodeId} (hg : g.Built H) (hc : g.Coherent c)
    (hsize : ∀ x y, g.Opposite a b x y → x < g.size ∧ y < g.size)
    (h : Episode g (g.Opposite a b) c steps)
    (hyes : (c.replay steps).cached a b = some true) :
    c.Gains (c.replay steps) (g.PathPair a b) := by
  have hpairs : ∀ p, g.PathPair a b p → (c.replay steps).lookup p = some true := fun p hp =>
    (h.coherent hg hsize hc List.prefix_rfl).closed.pathPair hyes hp
  have hmissed : ∀ p, p ∈ missedPairs steps ↔ g.PathPair a b p ∧ c.lookup p = none := by
    intro p
    constructor
    · exact fun hp => ⟨h.of_mem_missedPairs hp, h.fresh hp⟩
    · rintro ⟨hp, hnone⟩
      -- it is stored now and was not before, so it was stored on the way
      have hstored := (PairCache.isSome_lookup_replay h.ofComparison c p).1 (by simp [hpairs p hp])
      rw [hnone] at hstored
      exact h.stored_perm_missed.mem_iff.1 (hstored.resolve_left (by simp))
  refine ⟨fun p outcome => ⟨fun hp => ?_, ?_⟩, missedPairs steps, h.nodup_missed hg, hmissed,
    (PairCache.counters_replay h.ofComparison).1⟩
  · rcases hbefore : c.lookup p with _ | before
    · have hstored := (PairCache.isSome_lookup_replay h.ofComparison c p).1 (by simp [hp])
      rw [hbefore] at hstored
      have hpath := ((hmissed p).1
        (h.stored_perm_missed.mem_iff.1 (hstored.resolve_left (by simp)))).1
      have htrue := hpairs p hpath
      rw [hp] at htrue
      exact Or.inr ⟨hpath, Option.some.inj htrue⟩
    · have hkept := h.replay_extends p before hbefore
      rw [hp] at hkept
      exact Or.inl hkept.symm
  · rintro (hp | ⟨hp, rfl⟩)
    · exact h.replay_extends p outcome hp
    · exact hpairs p hp

namespace PairCache

variable {g : Graph} {H : Hasher} {c : PairCache} {a b : NodeId}

/-- **The comparison of two nodes that are the same** says yes, and the cache gains all pairs that
    paths lead to. -/
theorem equalM_gains (hg : g.Built H) (hc : g.Coherent c) (ha : a < g.size) (hb : b < g.size)
    (hab : a ≠ b) (hsame : g.Same a b) :
    ((equalM g a b).run c).1 = true ∧ c.Gains ((equalM g a b).run c).2 (g.PathPair a b) := by
  obtain ⟨steps, hrun, hepisode, hanswer⟩ := recordEqualM_asks hg ha hb c [] hc.sound
  have hyes := hanswer.2 hsame
  have hstored := (cached_of_recordEqualM hyes).resolve_left hab
  rw [← recordEqualM_erases g a b c []]
  rw [hrun] at hstored ⊢
  refine ⟨hyes, hepisode.gains hg hc (fun x y hxy => ?_) hstored⟩
  exact ⟨Nat.lt_of_le_of_lt (hg.le_of_reaches hxy.reaches.1) ha,
    Nat.lt_of_le_of_lt (hg.le_of_reaches hxy.reaches.2) hb⟩

end PairCache

namespace Session

variable {H : Hasher} {picker : ShardPicker} {s : Session}

/-- What a comparison leaves of a cache, reports apart. -/
theorem cache_onCache_equalM {ref : CacheRef} (href : s.hasCache ref) (a b : NodeId) :
    (s.onCache ref (PairCache.equalM s.graph a b)).2.cache ref =
      ((PairCache.equalM s.graph a b).run (s.cache ref)).2.quiet :=
  cache_putCache_self href _

/-- **The effect of one comparison**, with ideal digests.  Two distinct nodes with equal digests, one
    of which leads to no sealed node, are found equal by each cache.  Afterwards it stores what it
    stored before and, as equal, all pairs that paths lead to from the two nodes; and it has counted
    a miss for each of these that was not there.  So it does not matter which of the two nodes is
    asked. -/
theorem comparison_effect (h : Reachable H picker s) (hi : s.graph.Ideal) {ref : CacheRef}
    (href : s.hasCache ref) {a b : NodeId} (ha : a < s.graph.size) (hb : b < s.graph.size)
    (hab : a ≠ b) (hdigest : s.graph.digest a = s.graph.digest b)
    (hunsealed : (∀ n, s.graph.Reaches a n → s.graph.kind n ≠ .sealed) ∨
      ∀ n, s.graph.Reaches b n → s.graph.kind n ≠ .sealed) :
    let there := s.onCache ref (PairCache.equalM s.graph a b)
    let back := s.onCache ref (PairCache.equalM s.graph b a)
    (there.1 = true ∧ (s.cache ref).Gains (there.2.cache ref) (s.graph.PathPair a b)) ∧
      back.1 = true ∧ (∀ p, (back.2.cache ref).lookup p = (there.2.cache ref).lookup p) ∧
        (back.2.cache ref).misses = (there.2.cache ref).misses := by
  intro there back
  have hg := h.consistent.built
  obtain ⟨history, hrun⟩ := reachable_iff_run.1 h
  have hc := hrun.coherent_cache ref
  have hsame := hi.same_of_unsealed hg ha hb hdigest hunsealed
  obtain ⟨hthere, hgains⟩ := PairCache.equalM_gains hg hc ha hb hab hsame
  obtain ⟨hback, hgains'⟩ := PairCache.equalM_gains hg hc hb ha hab.symm (hsame.symm hg)
  have hgains' := hgains'.quiet.congr fun p => Graph.pathPair_comm
  rw [cache_onCache_equalM href, cache_onCache_equalM href]
  exact ⟨⟨hthere, hgains.quiet⟩, hback, hgains.quiet.lookup_eq hgains',
    hgains.quiet.misses_eq hgains'⟩

/-- The hasher of running programs makes no collision among the renamed columns. -/
theorem ideal_twinColumns : twinColumns.graph.Ideal :=
  (Graph.ideal_iff_check reachable_twinColumns.consistent.built.wellFormed).2 (by decide +kernel)

/-- The two renamed columns are found equal, and now the columns below them are stored as well. -/
theorem comparison_effect_twinColumns :
    let there := twinColumns.onCache .shared (PairCache.equalM twinColumns.graph 2 3)
    let back := twinColumns.onCache .shared (PairCache.equalM twinColumns.graph 3 2)
    Reachable .mixing .standard twinColumns ∧ twinColumns.graph.Ideal ∧
    twinColumns.graph.digest 2 = twinColumns.graph.digest 3 ∧
    (there.1 = true ∧ twinColumns.shared.Gains there.2.shared (twinColumns.graph.PathPair 2 3)) ∧
    there.2.shared.lookup (.of 0 1) = some true ∧
    back.2.shared.lookup (.of 0 1) = some true ∧ back.2.shared.misses = there.2.shared.misses := by
  intro there back
  have hunsealed : ∀ n, twinColumns.graph.Reaches 2 n → twinColumns.graph.kind n ≠ .sealed :=
    reachable_twinColumns.consistent.built.unsealed_of_le (by decide)
  have hdigest : twinColumns.graph.digest 2 = twinColumns.graph.digest 3 := rfl
  have hshared : twinColumns.hasCache .shared := trivial
  obtain ⟨hthere, -, hlookup, hmisses⟩ := comparison_effect reachable_twinColumns ideal_twinColumns
    hshared (a := 2) (b := 3) (by decide) (by decide) (by decide) hdigest (Or.inl hunsealed)
  have hpath : twinColumns.graph.PathPair 2 3 (.of 0 1) :=
    ⟨0, 1, ⟨[[.item 0]], rfl, rfl⟩, by decide, rfl⟩
  have hstored : there.2.shared.lookup (.of 0 1) = some true :=
    (hthere.2.lookup _ _).2 (Or.inr ⟨hpath, rfl⟩)
  exact ⟨reachable_twinColumns, ideal_twinColumns, hdigest, hthere, hstored,
    (hlookup _).trans hstored, hmisses⟩

end Session

end ExprGraph
