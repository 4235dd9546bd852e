/-
  Accounting — the counters of a cache add up.

  Every pair enters a cache through a miss and leaves it through an eviction or a clearing, so the
  misses are the pairs that are there, the evicted ones and the cleared ones.  Three things could
  break the sum, and each is excluded by a law that is already there: a miss that stores nothing new
  (`Episode.stored_perm_missed`, `Episode.fresh`, `Episode.nodup_missed`), an eviction that finds
  nothing to evict (`Forgotten.size`), and one that finds a pair of before the last clearing
  (`keeps_clear`).

  1. **Comparisons** count misses, and count nothing else (`counters_replay`).

  2. **Drops** count an eviction and report it for each pair that goes, once (`release_reported`).

  3. **Balance** — every action keeps the sum (`addsUp_perform`).
-/
import ExprGraph.Proofs.Contents

namespace ExprGraph

/-! ## Comparisons -/

namespace PairCache

theorem counters_store (c : PairCache) (a b : NodeId) (outcome : Bool) :
    (c.store a b outcome).misses = c.misses ∧ (c.store a b outcome).evictions = c.evictions := by
  unfold store
  simp only
  split <;> exact ⟨rfl, rfl⟩

/-- A comparison counts its misses and no evictions. -/
theorem counters_replay {c : PairCache} {steps : List CacheStep}
    (h : ∀ step ∈ steps, step.OfComparison) :
    (c.replay steps).misses = c.misses + (missedPairs steps).length ∧
      (c.replay steps).evictions = c.evictions := by
  induction steps generalizing c with
  | nil => exact ⟨rfl, rfl⟩
  | cons step rest ih =>
    obtain ⟨hstep, hrest⟩ := List.forall_mem_cons.1 h
    obtain ⟨hmisses, hevictions⟩ := ih (c := c.apply step) hrest
    rw [replay_cons, hmisses, hevictions]
    cases step with
    | hit pair => exact ⟨rfl, rfl⟩
    | miss pair =>
      refine ⟨?_, rfl⟩
      have hmiss : (c.apply (.miss pair)).misses = c.misses + 1 := rfl
      rw [hmiss, missedPairs_miss, List.length_cons]
      omega
    | store a b outcome =>
      obtain ⟨hm, he⟩ := c.counters_store a b outcome
      rw [apply, hm, he]
      exact ⟨rfl, rfl⟩
    | destroyed n => exact hstep.elim
    | clear entries => exact hstep.elim

end PairCache

theorem removedByClears_append (xs ys : List CacheStep) :
    removedByClears (xs ++ ys) = removedByClears xs + removedByClears ys := by
  induction xs with
  | nil => rw [List.nil_append, removedByClears, Nat.zero_add]
  | cons step rest ih =>
    cases step with
    | clear entries =>
      rw [List.cons_append, removedByClears, removedByClears, ih]
      omega
    | _ => exact ih

theorem removedByClears_eq_zero {steps : List CacheStep} (h : ∀ k, .clear k ∉ steps) :
    removedByClears steps = 0 := by
  induction steps with
  | nil => rfl
  | cons step rest ih =>
    have hrest := ih fun k hk => h k (List.mem_cons_of_mem step hk)
    cases step with
    | clear entries => exact absurd List.mem_cons_self (h entries)
    | _ => exact hrest

/-! ## Drops -/

namespace Session

variable {H : Hasher} {picker : ShardPicker} {history : CacheRef → List CacheStep} {s : Session}

/-- **What is counted and reported** from `s` to `t`, when the shared cache loses `pairs`. -/
structure Reported (s t : Session) (pairs : List Pair) : Prop where
  evictions : t.shared.evictions = s.shared.evictions + pairs.length
  size : t.shared.size + pairs.length = s.shared.size
  misses : t.shared.misses = s.shared.misses
  log : t.log = s.log ++ (pairs.map Event.evicted).toArray

theorem Reported.trans {t u : Session} {xs ys : List Pair} (h : Reported s t xs)
    (h' : Reported t u ys) : Reported s u (xs ++ ys) where
  evictions := by
    rw [h'.evictions, h.evictions, List.length_append]
    omega
  size := by
    have hfirst := h.size
    have hsecond := h'.size
    rw [List.length_append]
    omega
  misses := h'.misses.trans h.misses
  log := by
    rw [h'.log, h.log, List.map_append, Array.append_assoc]
    simp

/-- A destroyed node takes its pairs, oldest first. -/
theorem reported_forget {order : List Pair} (hkeeps : Keeps s.shared order)
    (htracks : s.shared.tracksLifetimes = true) (hquiet : s.shared.quiet = s.shared) (n : NodeId) :
    Reported s (s.forget n) (order.filter fun p => p.Has n) := by
  have hforgotten := forgotten_nodeDestroyed hkeeps.toRefines (hkeeps.indexed htracks) n
  have hpairs : (partnersIn order n).map (Pair.of n) = order.filter fun p => p.Has n :=
    map_partnersIn hkeeps.proper n
  have hlength : (order.filter fun p => p.Has n).length = (partnersIn order n).length := by
    rw [← hpairs, List.length_map]
  refine ⟨?_, ?_, hforgotten.misses, ?_⟩
  · rw [hlength]
    exact hforgotten.evictions
  · rw [hlength]
    exact hforgotten.size
  · have hlog : (s.forget n).log = s.log ++ (s.shared.nodeDestroyed n).events := rfl
    have hempty : s.shared.events = #[] := (congrArg PairCache.events hquiet).symm
    have hevents : (s.shared.nodeDestroyed n).events =
        s.shared.events ++ ((partnersIn order n).map fun m => Event.evicted (.of n m)).toArray :=
      hforgotten.events
    rw [hlog, hevents, hempty, ← hpairs, List.map_map]
    simp
    rfl

/-- **Several destroyed nodes** take the pairs that have one of them, each once, even if both nodes
    of a pair are destroyed. -/
theorem foldl_forget_reported {order : List Pair} (hkeeps : Keeps s.shared order)
    (htracks : s.shared.tracksLifetimes = true) (hquiet : s.shared.quiet = s.shared)
    (gone : List NodeId) :
    ∃ pairs : List Pair, pairs.Nodup ∧ (∀ p, p ∈ pairs ↔ p ∈ order ∧ ∃ n ∈ gone, p.Has n) ∧
      Reported s (gone.foldl forget s) pairs := by
  induction gone generalizing s order with
  | nil =>
    refine ⟨[], List.nodup_nil, by simp, rfl, rfl, rfl, ?_⟩
    rw [List.map_nil, Array.append_empty]
    rfl
  | cons n rest ih =>
    obtain ⟨hkeeps', htracks'⟩ := hkeeps.destroyed htracks n
    obtain ⟨pairs, hnodup, hmem, hreported⟩ :=
      ih (s := s.forget n) hkeeps'.quiet (htracks'.trans htracks) rfl
    have hmem' : ∀ p, p ∈ pairs ↔ (p ∈ order ∧ ¬ p.Has n) ∧ ∃ m ∈ rest, p.Has m := by
      intro p
      rw [hmem, survivorsAfter, List.mem_filter, decide_eq_true_iff]
    refine ⟨(order.filter fun p => p.Has n) ++ pairs, ?_, fun p => ?_,
      (reported_forget hkeeps htracks hquiet n).trans hreported⟩
    · -- a pair that went with `n` is not there for a later node
      refine List.nodup_append.2 ⟨hkeeps.nodup.filter _, hnodup, ?_⟩
      rintro p hp q hq rfl
      exact ((hmem' p).1 hq).1.2 (by simpa using (List.mem_filter.1 hp).2)
    · rw [List.mem_append, hmem', List.mem_filter, decide_eq_true_iff, List.exists_mem_cons_iff]
      by_cases hn : p.Has n <;> simp [hn]

/-- **A drop** takes the pairs that have a node that dies. -/
theorem release_reported (hs : Consistent H s) (ht : Traced picker history s) {n : NodeId}
    (hn : s.permits (.release n)) :
    ∃ pairs : List Pair, pairs.Nodup ∧
      (∀ p, p ∈ pairs ↔ (s.shared.lookup p).isSome = true ∧
        (Dies s (s.release n) p.low ∨ Dies s (s.release n) p.high)) ∧
      Reported s (s.release n) pairs := by
  obtain ⟨hkeeps, htracks⟩ := ht.keeps .shared
  obtain ⟨-, hdestruction⟩ := release_spec hs.built hs.tallied hn
  obtain ⟨pairs, hnodup, hmem, hreported⟩ :=
    foldl_forget_reported hkeeps htracks (hs.quiet .shared) (s.destroyedBy n)
  refine ⟨pairs, hnodup, fun p => ?_, ?_⟩
  · have hstored : (s.shared.lookup p).isSome = true ↔ p ∈ survivors (history .shared) :=
      hkeeps.stored p
    rw [hmem, hstored, dies_or_dies_iff hs hn]
  · rw [hdestruction.frame]
    exact ⟨hreported.evictions, hreported.size, hreported.misses, hreported.log⟩

/-! ## The balance -/

/-- The sum of a cache with the history `steps`, and no evictions where nobody is evicted. -/
structure AddsUp (tracks : Bool) (steps : List CacheStep) (c : PairCache) : Prop where
  misses : c.misses = c.size + c.evictions + removedByClears steps
  evictions : tracks = false → c.evictions = 0

theorem addsUp_create (shards : Nat) (tracks : Bool) :
    AddsUp tracks [] (.create picker shards tracks) where
  misses := by
    have hsize : (PairCache.create picker shards tracks).size = 0 :=
      Sharded.size_create picker.ofPair shards
    rw [hsize]
    rfl
  evictions _ := rfl

/-- **Every action keeps the balance.** -/
theorem addsUp_perform (hrun : Run H picker history s) {a : Action} (ha : s.permits a)
    {r : CacheRef} (h : AddsUp r.tracks (history r) (s.cache r)) :
    AddsUp r.tracks (history r ++ s.steps a r) ((s.perform a).cache r) := by
  obtain ⟨hs, ht⟩ := hrun.invariant
  obtain ⟨hkeeps, htracks⟩ := ht.keeps r
  rcases cache_perform hs ha r with hcache | ⟨shards, rfl, rfl, hcache⟩
  · rcases steps_cases s a r with ⟨x, y, rfl⟩ | ⟨n, rfl, rfl⟩ | rfl | hnone
    · -- a comparison: as many new pairs as misses
      have hepisode := (compare_episode hs ha).2
      have hafter : Keeps ((s.perform (.compare r x y)).cache r)
          (survivors (history r ++ s.steps (.compare r x y) r)) :=
        ((ht.perform hs ha).keeps r).1
      obtain ⟨hmisses, hevictions⟩ :=
        PairCache.counters_replay (c := s.cache r) hepisode.ofComparison
      have hsize := hafter.size
      rw [hepisode.survivors_append hs.built hkeeps, List.length_append, ← hkeeps.size,
        hepisode.stored_perm_missed.length_eq] at hsize
      have hcleared : removedByClears (s.steps (.compare r x y) r) = 0 :=
        removedByClears_eq_zero fun k hk => hepisode.ofComparison _ hk
      have hmisses' : ((s.perform (.compare r x y)).cache r).misses = _ :=
        (congrArg PairCache.misses hcache).trans hmisses
      have hevictions' : ((s.perform (.compare r x y)).cache r).evictions = _ :=
        (congrArg PairCache.evictions hcache).trans hevictions
      refine ⟨?_, fun hno => hevictions'.trans (h.evictions hno)⟩
      rw [hmisses', hsize, hevictions', h.misses, removedByClears_append, hcleared]
      omega
    · -- a drop: as many pairs less as evictions more
      obtain ⟨pairs, -, -, hreported⟩ := release_reported hs ht ha
      have hcleared : removedByClears (s.steps (.release n) .shared) = 0 := by
        rw [steps_release]
        refine removedByClears_eq_zero fun k hk => ?_
        obtain ⟨m, -, hm⟩ := List.mem_map.1 hk
        cases hm
      have hbefore : s.shared.misses = s.shared.size + s.shared.evictions +
          removedByClears (history .shared) := h.misses
      refine ⟨?_, fun hno => by cases hno⟩
      show (s.release n).shared.misses = (s.release n).shared.size +
        (s.release n).shared.evictions + _
      rw [hreported.misses, hreported.evictions, removedByClears_append, hcleared, hbefore,
        ← hreported.size]
      omega
    · -- a clearing: its pairs move from one side to the other
      rw [steps_clear] at hcache ⊢
      have hsize : ((s.cache r).replay [.clear (s.cache r).size]).quiet.size = 0 :=
        Sharded.size_clear (s.cache r).outcomes
      rw [hcache]
      refine ⟨?_, h.evictions⟩
      show (s.cache r).misses = _ + (s.cache r).evictions + _
      rw [hsize, removedByClears_append, h.misses, removedByClears, removedByClears]
      omega
    · rw [hcache, hnone, List.append_nil]
      exact ⟨h.misses, h.evictions⟩
  · have hnew : ¬ s.hasCache (.pass s.passes.size) := Nat.lt_irrefl _
    rw [hcache, ht.unused _ hnew]
    exact addsUp_create shards false

theorem Run.addsUp (h : Run H picker history s) (r : CacheRef) :
    AddsUp r.tracks (history r) (s.cache r) := by
  induction h with
  | start => cases r <;> exact addsUp_create PairCache.standardShards _
  | perform a hrun ha ih => exact addsUp_perform hrun ha ih

/-- **The counters of caches**, in every run.  The misses are the pairs in the cache, the evicted
    and the cleared ones together, and only the shared cache evicts.  A drop counts and reports the
    pairs that were stored and have a node that dies, each of them once. -/
theorem cache_accounting (h : Run H picker history s) :
    (∀ ref, (s.cache ref).misses =
      (s.cache ref).size + (s.cache ref).evictions + removedByClears (history ref)) ∧
    (∀ i, (s.cache (.pass i)).evictions = 0) ∧
    ∀ n, s.permits (.release n) → ∃ pairs : List Pair, pairs.Nodup ∧
      (∀ p, p ∈ pairs ↔ (s.shared.lookup p).isSome = true ∧
        (Dies s (s.release n) p.low ∨ Dies s (s.release n) p.high)) ∧
      (s.release n).shared.evictions = s.shared.evictions + pairs.length ∧
      (s.release n).log = s.log ++ (pairs.map Event.evicted).toArray := by
  obtain ⟨hs, ht⟩ := h.invariant
  refine ⟨fun ref => (h.addsUp ref).misses, fun i => (h.addsUp (.pass i)).evictions rfl,
    fun n hn => ?_⟩
  obtain ⟨pairs, hnodup, hmem, hreported⟩ := release_reported hs ht hn
  exact ⟨pairs, hnodup, hmem, hreported.evictions, hreported.log⟩

/-- The balance after two misses, and what a drop of the first list adds to it. -/
theorem cache_accounting_nestedRun :
    Run .mixing .standard nestedRun.1 nestedRun.2 ∧ nestedRun.2.permits (.release 2) ∧
    nestedRun.2.shared.misses = nestedRun.2.shared.size + nestedRun.2.shared.evictions +
      removedByClears (nestedRun.1 .shared) ∧
    ∃ pairs : List Pair, pairs.Nodup ∧
      (∀ p, p ∈ pairs ↔ (nestedRun.2.shared.lookup p).isSome = true ∧
        (Dies nestedRun.2 (nestedRun.2.release 2) p.low ∨
          Dies nestedRun.2 (nestedRun.2.release 2) p.high)) ∧
      (nestedRun.2.release 2).shared.evictions = nestedRun.2.shared.evictions + pairs.length ∧
      (nestedRun.2.release 2).log = nestedRun.2.log ++ (pairs.map Event.evicted).toArray := by
  have hpermitted : nestedRun.2.permits (.release 2) := Nat.one_pos
  obtain ⟨hbalance, -, hdrop⟩ := cache_accounting run_nestedRun
  exact ⟨run_nestedRun, hpermitted, hbalance .shared, hdrop 2 hpermitted⟩

end Session

end ExprGraph
