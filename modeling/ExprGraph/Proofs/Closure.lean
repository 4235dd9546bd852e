/-
  Closure — positive outcomes go down.

  Two nodes are equal because the nodes below them are.  A cache that has stored the one has stored
  the other: nobody who finds a positive outcome has to ask how it came about.

  1. **Specification** — `Graph.Closed g c`: wherever `c` says that two nodes are equal, nodes that
     stand opposite each other in their argument tuples are one node, or `c` says that they are
     equal, too.

  2. **Moments** — `PairCache.Moment c steps`: the states that a cache goes through.  A history is
     finer than the list of operations, and while a destroyed node is forgotten, its pairs go one by
     one, so there are moments in the middle of a step as well.

  3. **Invariant** — `Graph.Coherent`: all that is known about stored outcomes, together.  A store
     keeps it, as the outcome was settled (`Coherent.store`).  Forgetting keeps it, as the nodes
     over a destroyed node are destroyed, and forgotten, before it (`Coherent.forget`).

  4. **Result** — every cache is closed at every moment of every run.
-/
import ExprGraph.Proofs.Contents

namespace ExprGraph

/-! ## The specification -/

namespace Graph

/-- **Positive outcomes go down**, from two nodes to all nodes opposite each other in them. -/
def Closed (g : Graph) (c : PairCache) : Prop :=
  ∀ a b, c.cached a b = some true → g.Covered c a b

/-- **What is known of stored outcomes.** -/
structure Coherent (g : Graph) (c : PairCache) : Prop where
  sound : g.Sound c
  digest : ∀ p outcome, c.lookup p = some outcome → g.digest p.low = g.digest p.high
  closed : g.Closed c

end Graph

/-! ## Moments -/

namespace PairCache

/-- **The states that a cache goes through**, from `c` on: between two steps, and in the middle of a
    step that forgets a node. -/
inductive Moment (c : PairCache) (steps : List CacheStep) : PairCache → Prop where
  | between {past : List CacheStep} : past <+: steps → Moment c steps (c.replay past)
  | within {past : List CacheStep} {n : NodeId} {list front : List NodeId} :
      past ++ [.destroyed n] <+: steps → (c.replay past).marked.contains n = true →
      (c.replay past).partners.get? n = some list → front <+: list →
      Moment c steps ((c.replay past).evictAmong n front)

/-- A moment of a longer history is one of its first part, or of the rest. -/
theorem Moment.of_append {c d : PairCache} {xs ys : List CacheStep} (h : Moment c (xs ++ ys) d) :
    Moment c xs d ∨ Moment (c.replay xs) ys d := by
  cases h with
  | @between past hpast =>
    by_cases hearly : past <+: xs
    · exact Or.inl (.between hearly)
    · obtain ⟨zs, hzs, rfl⟩ := moment_of_append hpast hearly
      rw [replay_append]
      exact Or.inr (.between hzs)
  | @within past n list front hpast hmarked hlist hfront =>
    by_cases hearly : past ++ [.destroyed n] <+: xs
    · exact Or.inl (.within hearly hmarked hlist hfront)
    · obtain ⟨zs, hzs, rfl⟩ := moment_of_append_concat hpast hearly
      rw [replay_append] at hmarked hlist ⊢
      exact Or.inr (.within hzs hmarked hlist hfront)

/-- Comparisons and clearings have no moments but those between their steps. -/
theorem Moment.exists_past {c d : PairCache} {steps : List CacheStep} (h : Moment c steps d)
    (hsteps : ∀ n, .destroyed n ∉ steps) : ∃ past, past <+: steps ∧ d = c.replay past := by
  cases h with
  | between hpast => exact ⟨_, hpast, rfl⟩
  | @within past n _ _ hpast _ _ _ =>
    exact absurd (hpast.subset (List.mem_append_right past List.mem_cons_self)) (hsteps n)

end PairCache

/-! ## The invariant -/

namespace Graph

variable {g : Graph} {H : Hasher} {c d : PairCache}

theorem coherent_of_empty (h : ∀ p, c.lookup p = none) : g.Coherent c where
  sound p outcome hp := by
    rw [h] at hp
    cases hp
  digest p outcome hp := by
    rw [h] at hp
    cases hp
  closed a b hab := by
    rw [PairCache.cached, h] at hab
    cases hab

/-- It is about outcomes only. -/
theorem Coherent.congr (h : g.Coherent c) (hlookup : ∀ p, d.lookup p = c.lookup p) :
    g.Coherent d := by
  have hcached : ∀ a b, d.cached a b = c.cached a b := fun a b => hlookup _
  refine ⟨fun p outcome hp => h.sound p outcome (hlookup p ▸ hp),
    fun p outcome hp => h.digest p outcome (hlookup p ▸ hp), fun a b hab => ?_⟩
  intro place x y hx hy
  rw [hcached] at hab ⊢
  exact h.closed a b hab place x y hx hy

/-- **A settled outcome** is stored. -/
theorem Coherent.store (h : g.Coherent c) (hg : g.Built H) {a b : NodeId} (ha : a < g.size)
    (hb : b < g.size) {outcome : Bool} (hsettles : g.Settles c a b outcome) :
    g.Coherent (c.store a b outcome) := by
  -- a positive outcome stays, even if it is the one that is written again
  have hkept : ∀ x y, c.cached x y = some true → (c.store a b outcome).cached x y = some true := by
    intro x y hxy
    rw [PairCache.cached, PairCache.lookup_store]
    split
    · rename_i hp
      have hab : c.cached a b = some true := (congrArg c.lookup hp).trans hxy
      rw [hsettles.right.2 ((h.sound.cached_iff hg hab).1 rfl)]
    · exact hxy
  have hcovered : ∀ x y, g.Covered c x y → g.Covered (c.store a b outcome) x y :=
    fun x y hxy place u v hu hv => (hxy place u v hu hv).imp_right (hkept u v)
  refine ⟨h.sound.store hg ha hb hsettles.right, fun p o hp => ?_, fun x y hxy => ?_⟩
  · rw [PairCache.lookup_store] at hp
    split at hp
    · rename_i hab
      subst hab
      unfold Pair.of
      split
      · exact hsettles.digest
      · exact hsettles.digest.symm
    · exact h.digest p o hp
  · rw [PairCache.cached, PairCache.lookup_store] at hxy
    split at hxy
    · rename_i hp
      have htrue : outcome = true := Option.some.inj hxy
      rcases Pair.of_eq_iff.1 hp with ⟨rfl, rfl⟩ | ⟨rfl, rfl⟩
      · exact hcovered a b (hsettles.covered htrue)
      · exact (hcovered a b (hsettles.covered htrue)).symm
    · exact hcovered x y (h.closed x y hxy)

/-- **Outcomes about dead nodes go**, and no pair that stays has a node over a dead one. -/
theorem Coherent.forget (h : g.Coherent c) {dead : NodeId → Prop}
    (hsub : ∀ p outcome, d.lookup p = some outcome → c.lookup p = some outcome)
    (hkept : ∀ p outcome, c.lookup p = some outcome →
      d.lookup p = some outcome ∨ ∃ n, dead n ∧ p.Has n)
    (horphan : ∀ a b, d.cached a b = some true → ∀ n, dead n → n ∉ g.children a) :
    g.Coherent d := by
  refine ⟨fun p outcome hp => h.sound p outcome (hsub p outcome hp),
    fun p outcome hp => h.digest p outcome (hsub p outcome hp), fun a b hab => ?_⟩
  intro place x y hx hy
  have hba : d.cached b a = some true := (congrArg d.lookup (Pair.of_comm b a)).trans hab
  refine (h.closed a b (hsub _ _ hab) place x y hx hy).imp_right fun hxy => ?_
  refine (hkept _ _ hxy).resolve_right ?_
  rintro ⟨n, hdead, hn⟩
  rcases Pair.has_of.1 hn with rfl | rfl
  · exact horphan a b hab _ hdead (mem_children_of_nodeAt? hx)
  · exact horphan b a hba _ hdead (mem_children_of_nodeAt? hy)

/-- **A new node** has no part in stored outcomes. -/
theorem Coherent.insert (h : g.Coherent c) (hg : g.Built H) (op : Operation) :
    (g.insert H op).2.Coherent c := by
  have hold : ∀ {n : NodeId}, n < g.size → (g.insert H op).2.node n = g.node n := fun hn =>
    node_insert_of_ne (Nat.ne_of_lt hn)
  refine ⟨Session.sound_insert hg h.sound op, fun p outcome hp => ?_, fun a b hab => ?_⟩
  · obtain ⟨hlow, hhigh, -⟩ := h.sound p outcome hp
    rw [Graph.digest, Graph.digest, hold hlow, hold hhigh]
    exact h.digest p outcome hp
  · obtain ⟨ha, hb⟩ := h.sound.lt_size_of_cached hab
    intro place x y hx hy
    rw [nodeAt?, arguments, operation, hold ha] at hx
    rw [nodeAt?, arguments, operation, hold hb] at hy
    exact h.closed a b hab place x y hx hy

end Graph

/-- **Comparisons keep it**, at each of their moments. -/
theorem Episode.coherent {g : Graph} {H : Hasher} {R : NodeId → NodeId → Prop} {c : PairCache}
    {steps : List CacheStep} (hg : g.Built H) (hR : ∀ a b, R a b → a < g.size ∧ b < g.size)
    (h : Episode g R c steps) (hc : g.Coherent c) {past : List CacheStep} (hpast : past <+: steps) :
    g.Coherent (c.replay past) := by
  induction h generalizing past with
  | done =>
    rw [List.prefix_nil.1 hpast]
    exact hc
  | hit _ _ _ _ ih =>
    rcases List.prefix_cons_iff.1 hpast with rfl | ⟨rest, rfl, hrest⟩
    · exact hc
    · exact ih hR (hc.congr fun _ => rfl) hrest
  | @miss R c a b outcome inner rest hab _ _ _ hsettles _ ih₁ ih₂ =>
    rcases List.prefix_cons_iff.1 hpast with rfl | ⟨front, rfl, hfront⟩
    · exact hc
    have hmiss : g.Coherent (c.noteMiss (.of a b)) := hc.congr fun _ => rfl
    have hinner := @ih₁ (fun x y h => hR x y h.1) hmiss
    rw [PairCache.replay_cons]
    by_cases hearly : front <+: inner
    · exact hinner hearly
    obtain ⟨late, hlate, rfl⟩ := moment_of_append hfront hearly
    rw [PairCache.replay_append]
    rcases List.prefix_cons_iff.1 hlate with rfl | ⟨last, rfl, hlast⟩
    · exact hinner List.prefix_rfl
    · obtain ⟨ha, hb⟩ := hR a b hab
      exact ih₂ hR ((hinner List.prefix_rfl).store hg ha hb hsettles) hlast

namespace Session

variable {H : Hasher} {picker : ShardPicker} {history : CacheRef → List CacheStep} {s t : Session}

/-! ## Drops -/

/-- **In the middle of a drop**: a pair is what it was, and has no node of those destroyed so far; or
    it is gone, and has one of them or the node that comes next. -/
theorem lookup_of_moment_destroyed {c d : PairCache} {order : List Pair} (hkeeps : Keeps c order)
    (htracks : c.tracksLifetimes = true) {gone : List NodeId}
    (hd : PairCache.Moment c (gone.map .destroyed) d) : ∃ front, front <+: gone ∧ ∀ p,
      (d.lookup p = c.lookup p ∧ ∀ n ∈ front, ¬ p.Has n) ∨
        (d.lookup p = none ∧ ∃ n, (n ∈ front ∨ front ++ [n] <+: gone) ∧ p.Has n) := by
  have hreplay : ∀ (front : List NodeId) (p : Pair),
      ((c.replay (front.map .destroyed)).lookup p = c.lookup p ∧ ∀ n ∈ front, ¬ p.Has n) ∨
        ((c.replay (front.map .destroyed)).lookup p = none ∧ ∃ n ∈ front, p.Has n) := by
    intro front p
    have hlookup : (c.replay (front.map .destroyed)).lookup p =
        if ∃ n ∈ front, p.Has n then none else c.lookup p :=
      hkeeps.lookup_replay_destroyed htracks front p
    by_cases hsome : ∃ n ∈ front, p.Has n
    · exact Or.inr ⟨hlookup.trans (if_pos hsome), hsome⟩
    · refine Or.inl ⟨hlookup.trans (if_neg hsome), fun n hn hhas => hsome ⟨n, hn, hhas⟩⟩
  cases hd with
  | between hpast =>
    obtain ⟨front, hfront, rfl⟩ := List.prefix_map_iff.1 hpast
    refine ⟨front, hfront, fun p => (hreplay front p).imp_right ?_⟩
    rintro ⟨hnone, n, hn, hhas⟩
    exact ⟨hnone, n, Or.inl hn, hhas⟩
  | @within past n list partners hpast _ _ _ =>
    obtain ⟨upTo, hupTo, hsplit⟩ := List.prefix_map_iff.1 hpast
    obtain ⟨front, last, rfl, rfl, hlast⟩ := List.append_eq_map_iff.1 hsplit
    obtain ⟨m, rfl, hm⟩ := List.map_eq_singleton_iff.1 hlast
    cases hm
    refine ⟨front, (List.prefix_append front [n]).trans hupTo, fun p => ?_⟩
    rw [PairCache.lookup_evictAmong]
    split
    · rename_i hmem
      obtain ⟨m, -, rfl⟩ := List.mem_map.1 hmem
      exact Or.inr ⟨rfl, n, Or.inr hupTo, Pair.has_of.2 (Or.inl rfl)⟩
    · refine (hreplay front p).imp_right ?_
      rintro ⟨hnone, m, hm, hhas⟩
      exact ⟨hnone, m, Or.inl hm, hhas⟩

/-- Whatever is over a node that is destroyed next, or was destroyed, was destroyed before. -/
theorem Destruction.mem_front {gone front : List NodeId} (h : Destruction s t gone)
    (hfront : front <+: gone) {n m : NodeId} (hn : n ∈ front ∨ front ++ [n] <+: gone)
    (hm : s.isAlive m = true) (hnm : n ∈ s.graph.children m) : m ∈ front := by
  rcases hn with hn | ⟨back, hback⟩
  · obtain ⟨early, late, rfl⟩ := List.append_of_mem hn
    obtain ⟨back, rfl⟩ := hfront
    rw [List.append_assoc, List.cons_append] at h
    exact List.mem_append_left _ (h.parentsFirst early n _ rfl m hm hnm)
  · rw [List.append_assoc, List.singleton_append] at hback
    exact h.parentsFirst front n back hback.symm m hm hnm

/-- **A drop keeps it**, at each of its moments, in a cache of pairs that are alive before. -/
theorem Destruction.coherent {gone : List NodeId} (h : Destruction s t gone) {c d : PairCache}
    {order : List Pair} (hkeeps : Keeps c order) (htracks : c.tracksLifetimes = true)
    (hc : s.graph.Coherent c)
    (halive : ∀ p, (c.lookup p).isSome = true → ∀ n, p.Has n → s.isAlive n = true)
    (hd : PairCache.Moment c (gone.map .destroyed) d) : s.graph.Coherent d := by
  obtain ⟨front, hfront, hpairs⟩ := lookup_of_moment_destroyed hkeeps htracks hd
  have hleft : ∀ p outcome, d.lookup p = some outcome →
      c.lookup p = some outcome ∧ ∀ n ∈ front, ¬ p.Has n := by
    intro p outcome hp
    rcases hpairs p with ⟨hkept, hnot⟩ | ⟨hnone, -⟩
    · exact ⟨hkept.symm.trans hp, hnot⟩
    · rw [hnone] at hp
      cases hp
  have hkept : ∀ p outcome, c.lookup p = some outcome → d.lookup p = some outcome ∨
      ∃ n, (n ∈ front ∨ front ++ [n] <+: gone) ∧ p.Has n := fun p outcome hp =>
    (hpairs p).imp (fun hkept => hkept.1.trans hp) fun hgone => hgone.2
  refine hc.forget (fun p outcome hp => (hleft p outcome hp).1) hkept fun a b hab n hn hna => ?_
  -- a node over a dead one was destroyed before it, and its pairs are gone
  obtain ⟨hfound, hnot⟩ := hleft _ _ hab
  have hhas : (Pair.of a b).Has a := Pair.has_of.2 (Or.inl rfl)
  have ha : s.isAlive a = true := halive _ (by rw [hfound]; rfl) a hhas
  exact hnot a (h.mem_front hfront hn ha hna) hhas

/-! ## Runs -/

/-- **Actions keep it**, at each moment of their steps. -/
theorem Consistent.coherent (hs : Consistent H s) {a : Action} (ha : s.permits a) {r : CacheRef}
    {c d : PairCache} {order : List Pair} (hcache : s.cache r = c.quiet) (hkeeps : Keeps c order)
    (htracks : c.tracksLifetimes = r.tracks) (hc : s.graph.Coherent c)
    (halive : r = .shared →
      ∀ p, (c.lookup p).isSome = true → ∀ n, p.Has n → s.isAlive n = true)
    (hd : PairCache.Moment c (s.steps a r) d) : s.graph.Coherent d := by
  rcases steps_cases s a r with ⟨x, y, rfl⟩ | ⟨n, rfl, rfl⟩ | rfl | hnone
  · have hepisode := (compare_episode hs ha).2
    obtain ⟨past, hpast, rfl⟩ := hd.exists_past fun n hn => hepisode.ofComparison _ hn
    have hbefore : s.graph.Coherent (s.cache r) := hc.congr fun p => congrArg (·.lookup p) hcache
    have hafter := hepisode.coherent hs.built
      (fun u v huv => ⟨hs.tallied.lt_size huv.1, hs.tallied.lt_size huv.2⟩) hbefore hpast
    refine hafter.congr fun p => ?_
    rw [hcache, ← PairCache.lookup_quiet, PairCache.quiet_replay, PairCache.lookup_quiet]
  · rw [steps_release] at hd
    exact (release_spec hs.built hs.tallied ha).2.coherent hkeeps htracks hc (halive rfl) hd
  · rw [steps_clear] at hd
    obtain ⟨past, hpast, rfl⟩ := hd.exists_past fun n hn => by simp at hn
    rcases List.prefix_cons_iff.1 hpast with rfl | ⟨rest, rfl, hrest⟩
    · exact hc
    · rw [List.prefix_nil.1 hrest]
      exact Graph.coherent_of_empty (PairCache.lookup_clear c)
  · rw [hnone] at hd
    obtain ⟨past, hpast, rfl⟩ := hd.exists_past fun n => List.not_mem_nil
    rw [List.prefix_nil.1 hpast]
    exact hc

/-- **In a run**, all is known of stored outcomes at each moment. -/
theorem Run.coherent (h : Run H picker history s) (r : CacheRef) :
    ∃ shards, s.cache r = ((PairCache.create picker shards r.tracks).replay (history r)).quiet ∧
      ∀ c, PairCache.Moment (.create picker shards r.tracks) (history r) c →
        s.graph.Coherent c := by
  have hnew : ∀ (g : Graph) shards c,
      PairCache.Moment (.create picker shards r.tracks) [] c → g.Coherent c := by
    intro g shards c hc
    obtain ⟨past, hpast, rfl⟩ := hc.exists_past fun n => List.not_mem_nil
    rw [List.prefix_nil.1 hpast]
    exact Graph.coherent_of_empty (PairCache.lookup_create picker shards r.tracks)
  induction h with
  | start =>
    refine ⟨PairCache.standardShards, ?_, fun c hc => hnew _ _ c hc⟩
    cases r <;> rfl
  | @perform history s a hrun ha ih =>
    obtain ⟨hs, ht⟩ := hrun.invariant
    have hgrow : ∀ {c}, s.graph.Coherent c → (s.perform a).graph.Coherent c := by
      intro c hc
      rcases (perform_graph hs ha).2 with hgraph | ⟨op, hgraph, -, -⟩
      · rw [hgraph]
        exact hc
      · rw [hgraph]
        exact hc.insert hs.built op
    rcases ht.cache_perform hs ha r with hgoes | ⟨hnone, shards, hcache⟩
    · obtain ⟨shards, hbefore, hmoments⟩ := ih
      refine ⟨shards, hgoes shards hbefore, fun c hc => hgrow ?_⟩
      rcases hc.of_append with hc | hc
      · exact hmoments c hc
      · obtain ⟨hkeeps, htracks⟩ := (keeps_create picker shards r.tracks).replay (ht.proper r)
        refine hs.coherent ha hbefore hkeeps htracks (hmoments _ (.between List.prefix_rfl)) ?_ hc
        rintro rfl p hp n hn
        -- what is stored in the shared cache is live
        obtain ⟨hlow, hhigh⟩ :=
          ((hrun.mem_survivors_iff .shared p).1 ((hkeeps.stored p).1 hp)).2 rfl
        rw [isAlive_iff_live hs.built hs.tallied]
        rcases hn with rfl | rfl
        · exact hlow
        · exact hhigh
    · beta_reduce
      rw [hnone]
      exact ⟨shards, hcache, fun c hc => hnew _ shards c hc⟩

/-- Between two actions. -/
theorem Run.coherent_cache (h : Run H picker history s) (r : CacheRef) :
    s.graph.Coherent (s.cache r) := by
  obtain ⟨shards, hcache, hmoments⟩ := h.coherent r
  rw [hcache]
  exact (hmoments _ (.between List.prefix_rfl)).congr (PairCache.lookup_quiet _)

/-- **Positive outcomes go down**, in every cache and at every moment of every run: between two
    actions, between two steps of a comparison, and in the middle of a drop, between two of the
    pairs that go. -/
theorem positive_closed (h : Run H picker history s) (ref : CacheRef) :
    s.graph.Closed (s.cache ref) ∧
    ∃ shards, s.cache ref =
        ((PairCache.create picker shards ref.tracks).replay (history ref)).quiet ∧
      ∀ c, PairCache.Moment (.create picker shards ref.tracks) (history ref) c →
        s.graph.Closed c := by
  obtain ⟨shards, hcache, hmoments⟩ := h.coherent ref
  exact ⟨(h.coherent_cache ref).closed, shards, hcache, fun c hc => (hmoments c hc).closed⟩

/-- Two lists of one list each: their pair is stored as equal, and so is that of their members, which
    was stored a moment earlier. -/
theorem positive_closed_nestedRun :
    Run .mixing .standard nestedRun.1 nestedRun.2 ∧
    nestedRun.2.shared.cached 2 3 = some true ∧
    nestedRun.2.graph.nodeAt? 2 [.item 0] = some 0 ∧
    nestedRun.2.graph.nodeAt? 3 [.item 0] = some 1 ∧
    ((0 : NodeId) = 1 ∨ nestedRun.2.shared.cached 0 1 = some true) ∧
    ∃ shards, nestedRun.2.graph.Closed ((PairCache.create .standard shards true).replay
      [.miss (.of 2 3), .miss (.of 0 1), .store 0 1 true]) := by
  obtain ⟨hclosed, shards, hcache, hmoments⟩ := positive_closed run_nestedRun .shared
  have hmoment : [.miss (.of 2 3), .miss (.of 0 1), .store 0 1 true] <+: nestedRun.1 .shared := by
    rw [history_nestedRun]
    exact ⟨[.store 2 3 true], rfl⟩
  have hstored : nestedRun.2.shared.cached 2 3 = some true := lookup_nestedRun
  have hleft : nestedRun.2.graph.nodeAt? 2 [.item 0] = some 0 := rfl
  have hright : nestedRun.2.graph.nodeAt? 3 [.item 0] = some 1 := rfl
  exact ⟨run_nestedRun, hstored, hleft, hright, hclosed 2 3 hstored [.item 0] 0 1 hleft hright,
    shards, hmoments _ (.between hmoment)⟩

end Session

end ExprGraph
