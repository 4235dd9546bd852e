/-
  Contents — what a cache holds, told from its history.

  1. **Specification** — a pair is in a cache if it was missed since the last clearing and, in the
     shared cache, if both of its nodes are live.  Nothing is said about stores, evictions or order.

  2. **Invariant** — `Balanced steps`, between two operations: the survivors of the history are the
     pairs missed since the last clearing without a destroyed node, and at every moment the pairs
     missed so far are distinct.  In the middle of a comparison the first half is false: a pair is
     missed long before it is stored.  So a comparison is added to a history as a whole
     (`Balanced.append_episode`), everything else step by step (`Balanced.concat`).

  3. **Result** — the specification holds for all caches, and says what a drop removes.
-/
import ExprGraph.Proofs.Histories

namespace ExprGraph

/-! ## Growing histories -/

theorem missedSinceClear_concat (steps : List CacheStep) (step : CacheStep) :
    missedSinceClear (steps ++ [step]) =
      match step with
      | .miss pair => missedSinceClear steps ++ [pair]
      | .clear _ => []
      | .hit _ | .store .. | .destroyed _ => missedSinceClear steps := by
  rw [missedSinceClear, List.foldl_append]
  rfl

/-- A comparison adds the pairs that it misses. -/
theorem missedSinceClear_append {xs ys : List CacheStep} (h : ∀ step ∈ ys, step.OfComparison) :
    missedSinceClear (xs ++ ys) = missedSinceClear xs ++ missedPairs ys := by
  induction ys generalizing xs with
  | nil => rw [List.append_nil, missedPairs, List.filterMap_nil, List.append_nil]
  | cons step rest ih =>
    obtain ⟨hstep, hrest⟩ := List.forall_mem_cons.1 h
    have hsplit : xs ++ step :: rest = (xs ++ [step]) ++ rest := by
      rw [List.append_assoc, List.singleton_append]
    rw [hsplit, ih hrest, missedSinceClear_concat]
    cases step with
    | hit pair => rfl
    | miss pair =>
      rw [missedPairs_miss, List.append_assoc]
      rfl
    | store a b outcome => rfl
    | destroyed n => exact hstep.elim
    | clear entries => exact hstep.elim

/-- A comparison that stores each pair once, and none that is there, adds the pairs it stores. -/
theorem survivors_append {xs ys : List CacheStep} (h : ∀ step ∈ ys, step.OfComparison)
    (hnew : ∀ p ∈ storedPairs ys, p ∉ survivors xs) (hnodup : (storedPairs ys).Nodup) :
    survivors (xs ++ ys) = survivors xs ++ storedPairs ys := by
  induction ys generalizing xs with
  | nil => rw [List.append_nil, storedPairs, List.filterMap_nil, List.append_nil]
  | cons step rest ih =>
    obtain ⟨hstep, hrest⟩ := List.forall_mem_cons.1 h
    have hsplit : xs ++ step :: rest = (xs ++ [step]) ++ rest := by
      rw [List.append_assoc, List.singleton_append]
    rw [hsplit]
    cases step with
    | store a b outcome =>
      -- the pair is new, so it goes to the end; the later ones are others
      rw [storedPairs_store] at hnew hnodup
      have hfirst : survivors (xs ++ [.store a b outcome]) = survivors xs ++ [Pair.of a b] := by
        rw [survivors_concat]
        exact if_neg (hnew _ List.mem_cons_self)
      rw [ih hrest (fun p hp => ?_) (List.nodup_cons.1 hnodup).2, hfirst, storedPairs_store,
        List.append_assoc, List.singleton_append]
      rw [hfirst, List.mem_append, List.mem_singleton, not_or]
      refine ⟨hnew p (List.mem_cons_of_mem _ hp), ?_⟩
      rintro rfl
      exact (List.nodup_cons.1 hnodup).1 hp
    | hit pair =>
      have hfirst : survivors (xs ++ [.hit pair]) = survivors xs := survivors_concat xs _
      rw [ih hrest (fun p hp => by rw [hfirst]; exact hnew p hp) hnodup, hfirst]
      rfl
    | miss pair =>
      have hfirst : survivors (xs ++ [.miss pair]) = survivors xs := survivors_concat xs _
      rw [ih hrest (fun p hp => by rw [hfirst]; exact hnew p hp) hnodup, hfirst]
      rfl
    | destroyed n => exact hstep.elim
    | clear entries => exact hstep.elim

/-- A moment of a grown history that is not an earlier one is a moment of the addition. -/
theorem moment_of_append {past xs ys : List CacheStep} (h : past <+: xs ++ ys)
    (hlate : ¬ past <+: xs) : ∃ zs, zs <+: ys ∧ past = xs ++ zs := by
  have hearly : xs <+: past :=
    (List.prefix_or_prefix_of_prefix (List.prefix_append xs ys) h).resolve_right hlate
  obtain ⟨zs, rfl⟩ := hearly
  exact ⟨zs, (List.prefix_append_right_inj xs).1 h, rfl⟩

/-- The same for a moment that comes right before a step. -/
theorem moment_of_append_concat {past xs ys : List CacheStep} {step : CacheStep}
    (h : past ++ [step] <+: xs ++ ys) (hlate : ¬ past ++ [step] <+: xs) :
    ∃ zs, zs ++ [step] <+: ys ∧ past = xs ++ zs := by
  obtain ⟨zs, hzs, hsplit⟩ := moment_of_append h hlate
  rcases List.eq_nil_or_concat zs with rfl | ⟨front, last, rfl⟩
  · rw [List.append_nil] at hsplit
    exact absurd (hsplit ▸ List.prefix_rfl) hlate
  · rw [List.concat_eq_append] at hzs hsplit
    rw [← List.append_assoc] at hsplit
    obtain ⟨rfl, hlast⟩ := List.append_inj' hsplit rfl
    cases hlast
    exact ⟨front, hzs, rfl⟩

/-! ## Episodes and what is there -/

namespace Episode

variable {g : Graph} {H : Hasher} {R : NodeId → NodeId → Prop} {c : PairCache}
  {steps ys : List CacheStep}

/-- Nothing that a comparison stores was there before. -/
theorem not_mem_of_stored {order : List Pair} (hkeeps : Keeps c order) (h : Episode g R c ys)
    {p : Pair} (hp : p ∈ storedPairs ys) : p ∉ order := by
  intro hmem
  have hfresh := h.fresh (h.stored_perm_missed.mem_iff.1 hp)
  have hsome := (hkeeps.stored p).2 hmem
  rw [hfresh] at hsome
  exact Bool.false_ne_true hsome

theorem survivors_append (hg : g.Built H) (hkeeps : Keeps c (survivors steps))
    (h : Episode g R c ys) : survivors (steps ++ ys) = survivors steps ++ storedPairs ys :=
  ExprGraph.survivors_append h.ofComparison (fun _ hp => h.not_mem_of_stored hkeeps hp)
    (h.stored_perm_missed.nodup_iff.2 (h.nodup_missed hg))

end Episode

/-! ## The invariant -/

/-- **A history between two operations.** -/
structure Balanced (steps : List CacheStep) : Prop where
  survivors_iff : ∀ p, p ∈ survivors steps ↔
    p ∈ missedSinceClear steps ∧ ∀ n, p.Has n → .destroyed n ∉ steps
  nodup : ∀ past, past <+: steps → (missedSinceClear past).Nodup

namespace Balanced

variable {g : Graph} {H : Hasher} {R : NodeId → NodeId → Prop} {c : PairCache}
  {steps : List CacheStep}

theorem nil : Balanced [] where
  survivors_iff p := iff_of_false List.not_mem_nil fun h => List.not_mem_nil h.1
  nodup past h := by
    rw [List.prefix_nil.1 h]
    exact List.nodup_nil

/-- **A comparison among nodes that were not destroyed.** -/
theorem append_episode (h : Balanced steps) (hg : g.Built H) (hkeeps : Keeps c (survivors steps))
    {ys : List CacheStep} (hepisode : Episode g R c ys)
    (hR : ∀ u v, R u v → .destroyed u ∉ steps ∧ .destroyed v ∉ steps) :
    Balanced (steps ++ ys) := by
  have hsame : ∀ p, p ∈ storedPairs ys ↔ p ∈ missedPairs ys := fun p =>
    hepisode.stored_perm_missed.mem_iff
  have hundestroyed : ∀ n, .destroyed n ∉ ys := fun n hn => hepisode.ofComparison _ hn
  have halive : ∀ p ∈ missedPairs ys, ∀ n, p.Has n → .destroyed n ∉ steps := by
    intro p hp n hn
    obtain ⟨a, b, hab, -, rfl⟩ := hepisode.of_mem_missedPairs hp
    rcases Pair.has_of.1 hn with rfl | rfl
    · exact (hR _ _ hab).1
    · exact (hR _ _ hab).2
  -- what is missed now was not missed since the last clearing, or it would still be there
  have hnew : ∀ p ∈ missedPairs ys, p ∉ missedSinceClear steps := by
    intro p hp hmissed
    have hmem := (h.survivors_iff p).2 ⟨hmissed, halive p hp⟩
    exact hepisode.not_mem_of_stored hkeeps ((hsame p).2 hp) hmem
  constructor
  · intro p
    rw [hepisode.survivors_append hg hkeeps, missedSinceClear_append hepisode.ofComparison,
      List.mem_append, List.mem_append, hsame, h.survivors_iff]
    constructor
    · rintro (⟨hmissed, hkept⟩ | hmissed)
      · refine ⟨Or.inl hmissed, fun n hn => ?_⟩
        exact List.not_mem_append (hkept n hn) (hundestroyed n)
      · refine ⟨Or.inr hmissed, fun n hn => ?_⟩
        exact List.not_mem_append (halive p hmissed n hn) (hundestroyed n)
    · rintro ⟨hmissed | hmissed, hkept⟩
      · exact Or.inl ⟨hmissed, fun n hn hmem => hkept n hn (List.mem_append_left ys hmem)⟩
      · exact Or.inr hmissed
  · intro past hpast
    by_cases hearly : past <+: steps
    · exact h.nodup past hearly
    · obtain ⟨zs, hzs, rfl⟩ := moment_of_append hpast hearly
      have hcomparison : ∀ step ∈ zs, step.OfComparison := fun step hstep =>
        hepisode.ofComparison step (hzs.subset hstep)
      have hsub : (missedPairs zs).Sublist (missedPairs ys) := hzs.sublist.filterMap _
      rw [missedSinceClear_append hcomparison]
      refine List.nodup_append.2
        ⟨h.nodup steps List.prefix_rfl, hsub.nodup (hepisode.nodup_missed hg), ?_⟩
      rintro p hp q hq rfl
      exact hnew p (hsub.subset hq) hp

/-- **A step that is no part of a comparison.** -/
theorem concat (h : Balanced steps) {step : CacheStep} (hstep : ¬ step.OfComparison) :
    Balanced (steps ++ [step]) := by
  have hprefix : ∀ past, past <+: steps ++ [step] → past <+: steps ∨ past = steps ++ [step] :=
    fun past hpast => (List.prefix_concat_iff.1 hpast).symm
  cases step with
  | destroyed n =>
    -- the pairs of `n` leave the one side, and `n` joins the destroyed on the other
    have hmissed : missedSinceClear (steps ++ [.destroyed n]) = missedSinceClear steps :=
      missedSinceClear_concat steps _
    constructor
    · intro p
      rw [hmissed, survivors_concat, survivorsAfter, List.mem_filter, decide_eq_true_iff,
        h.survivors_iff, and_assoc]
      refine and_congr_right fun _ => ?_
      constructor
      · rintro ⟨hkept, hnot⟩ m hm
        refine List.not_mem_append (hkept m hm) fun hmem => ?_
        cases List.mem_singleton.1 hmem
        exact hnot hm
      · intro hkept
        refine ⟨fun m hm hmem => hkept m hm (List.mem_append_left _ hmem), fun hn => ?_⟩
        exact hkept n hn (List.mem_append_right _ List.mem_cons_self)
    · intro past hpast
      rcases hprefix past hpast with hpast | rfl
      · exact h.nodup past hpast
      · rw [hmissed]
        exact h.nodup steps List.prefix_rfl
  | clear entries =>
    have hmissed : missedSinceClear (steps ++ [.clear entries]) = [] :=
      missedSinceClear_concat steps _
    constructor
    · intro p
      rw [hmissed, survivors_concat]
      exact iff_of_false List.not_mem_nil fun hp => List.not_mem_nil hp.1
    · intro past hpast
      rcases hprefix past hpast with hpast | rfl
      · exact h.nodup past hpast
      · rw [hmissed]
        exact List.nodup_nil
  | _ => exact absurd trivial hstep

theorem append_forgetting (h : Balanced steps) {ys : List CacheStep}
    (hys : ∀ step ∈ ys, ¬ step.OfComparison) : Balanced (steps ++ ys) := by
  induction ys generalizing steps with
  | nil =>
    rw [List.append_nil]
    exact h
  | cons step rest ih =>
    obtain ⟨hstep, hrest⟩ := List.forall_mem_cons.1 hys
    have hsplit : steps ++ step :: rest = (steps ++ [step]) ++ rest := by
      rw [List.append_assoc, List.singleton_append]
    rw [hsplit]
    exact ih (h.concat hstep) hrest

end Balanced

namespace Session

variable {H : Hasher} {picker : ShardPicker} {history : CacheRef → List CacheStep} {s : Session}

/-- Caches of passes never hear of destroyed nodes. -/
theorem Traced.eq_shared_of_destroyed (h : Traced picker history s) {r : CacheRef} {n : NodeId}
    (hn : .destroyed n ∈ history r) : r = .shared := by
  have htracks : r.tracks = true := h.proper r _ hn
  cases r with
  | shared => rfl
  | pass i => cases htracks

/-- A living node was never destroyed. -/
theorem Run.not_destroyed_of_isAlive (h : Run H picker history s) {n : NodeId}
    (hn : s.isAlive n = true) (r : CacheRef) : .destroyed n ∉ history r := by
  intro hdestroyed
  obtain rfl := h.invariant.2.eq_shared_of_destroyed hdestroyed
  have hdead := ((h.destroyed_iff n).1 hdestroyed).2
  exact Bool.false_ne_true (hdead.symm.trans hn)

/-- **Every history in a run is balanced** between two actions. -/
theorem Run.balanced (h : Run H picker history s) (r : CacheRef) : Balanced (history r) := by
  induction h with
  | start => exact .nil
  | @perform history s a hrun ha ih =>
    obtain ⟨hs, ht⟩ := hrun.invariant
    by_cases hcompare : ∃ x y, a = .compare r x y
    · obtain ⟨x, y, rfl⟩ := hcompare
      refine ih.append_episode hs.built (ht.keeps r).1 (compare_episode hs ha).2 fun u v huv => ?_
      exact ⟨hrun.not_destroyed_of_isAlive huv.1 r, hrun.not_destroyed_of_isAlive huv.2 r⟩
    · exact ih.append_forgetting (steps_forget fun x y hxy => hcompare ⟨x, y, hxy⟩)

/-- **What survives in a run**, by liveness. -/
theorem Run.mem_survivors_iff (h : Run H picker history s) (r : CacheRef) (p : Pair) :
    p ∈ survivors (history r) ↔
      p ∈ missedSinceClear (history r) ∧ (r = .shared → s.Live p.low ∧ s.Live p.high) := by
  obtain ⟨hs, ht⟩ := h.invariant
  have hlive : ∀ n, s.isAlive n = true ↔ s.Live n := fun n => isAlive_iff_live hs.built hs.tallied
  constructor
  · intro hp
    obtain ⟨hmissed, hkept⟩ := ((h.balanced r).survivors_iff p).1 hp
    refine ⟨hmissed, ?_⟩
    rintro rfl
    -- a pair that is stored is one of nodes of the graph, and those are alive or destroyed
    obtain ⟨outcome, hfound⟩ := Option.isSome_iff_exists.1 (((ht.keeps .shared).1.stored p).2 hp)
    obtain ⟨hlow, hhigh, -⟩ := hs.sound .shared p outcome hfound
    have halive : ∀ n, p.Has n → n < s.graph.size → s.Live n := by
      intro n hn hlt
      rw [← hlive]
      by_contra hdead
      exact hkept n hn ((h.destroyed_iff n).2 ⟨hlt, by simpa using hdead⟩)
    exact ⟨halive p.low (Or.inl rfl) hlow, halive p.high (Or.inr rfl) hhigh⟩
  · rintro ⟨hmissed, halive⟩
    refine ((h.balanced r).survivors_iff p).2 ⟨hmissed, fun n hn hdestroyed => ?_⟩
    obtain rfl := ht.eq_shared_of_destroyed hdestroyed
    have hn : s.Live n := by
      rcases hn with rfl | rfl
      · exact (halive rfl).1
      · exact (halive rfl).2
    exact h.not_destroyed_of_isAlive ((hlive n).2 hn) .shared hdestroyed

/-- A pair has a node that dies in a drop, if it has one of the destroyed nodes. -/
theorem dies_or_dies_iff (hs : Consistent H s) {n : NodeId} (hn : s.permits (.release n))
    {p : Pair} : Dies s (s.release n) p.low ∨ Dies s (s.release n) p.high ↔
      ∃ m ∈ s.destroyedBy n, p.Has m := by
  rw [dies_release_iff hs.built hs.tallied hn, dies_release_iff hs.built hs.tallied hn]
  constructor
  · rintro (hlow | hhigh)
    · exact ⟨_, hlow, Or.inl rfl⟩
    · exact ⟨_, hhigh, Or.inr rfl⟩
  · rintro ⟨m, hm, rfl | rfl⟩
    · exact Or.inl hm
    · exact Or.inr hm

/-- The outcomes in the shared cache after a drop. -/
theorem lookup_release (hs : Consistent H s) (ht : Traced picker history s) {n : NodeId}
    (hn : s.permits (.release n)) (p : Pair) (outcome : Bool) :
    (s.release n).shared.lookup p = some outcome ↔ s.shared.lookup p = some outcome ∧
      ¬ (Dies s (s.release n) p.low ∨ Dies s (s.release n) p.high) := by
  -- the drop is a replay of its destroyed nodes, and those are the ones that die
  obtain ⟨hkeeps, htracks⟩ := ht.keeps .shared
  have hshared : (s.release n).shared =
      (s.shared.replay ((s.destroyedBy n).map .destroyed)).quiet := by
    rcases cache_perform hs hn .shared with hcache | ⟨shards, ha, -⟩
    · rw [steps_release] at hcache
      exact hcache
    · cases ha
  have hlookup : (s.shared.replay ((s.destroyedBy n).map .destroyed)).lookup p =
      if ∃ m ∈ s.destroyedBy n, p.Has m then none else s.shared.lookup p :=
    hkeeps.lookup_replay_destroyed htracks (s.destroyedBy n) p
  rw [dies_or_dies_iff hs hn, hshared, PairCache.lookup_quiet, hlookup]
  split
  · rename_i hgone
    exact iff_of_false (by simp) fun h => h.2 hgone
  · rename_i hkept
    exact (and_iff_left hkept).symm

/-- **The contents of caches**, in every run.  A pair is stored if and only if it was missed since
    the last clearing and, in the shared cache, both of its nodes are live.  A drop takes the pairs
    with a node that dies, and leaves all others with their outcomes.  And at no moment, not even
    inside a comparison, has a pair been missed twice since the last clearing. -/
theorem cache_contents (h : Run H picker history s) :
    (∀ ref p, ((s.cache ref).lookup p).isSome = true ↔
      p ∈ missedSinceClear (history ref) ∧ (ref = .shared → s.Live p.low ∧ s.Live p.high)) ∧
    (∀ n, s.permits (.release n) → ∀ p outcome,
      ((s.release n).shared.lookup p = some outcome ↔ s.shared.lookup p = some outcome ∧
        ¬ (Dies s (s.release n) p.low ∨ Dies s (s.release n) p.high))) ∧
    ∀ ref past, past <+: history ref → (missedSinceClear past).Nodup := by
  obtain ⟨hs, ht⟩ := h.invariant
  refine ⟨fun ref p => ?_, fun n hn p outcome => lookup_release hs ht hn p outcome,
    fun ref => (h.balanced ref).nodup⟩
  exact ((ht.keeps ref).1.stored p).trans (h.mem_survivors_iff ref p)

/-- Two pairs are missed and stored; a drop of the first list destroys a node of each. -/
theorem cache_contents_nestedRun :
    Run .mixing .standard nestedRun.1 nestedRun.2 ∧ nestedRun.2.permits (.release 2) ∧
    (((nestedRun.2.cache .shared).lookup (.of 0 1)).isSome = true ↔
      Pair.of 0 1 ∈ missedSinceClear (nestedRun.1 .shared) ∧
        (CacheRef.shared = .shared → nestedRun.2.Live 0 ∧ nestedRun.2.Live 1)) ∧
    ((nestedRun.2.release 2).shared.lookup (.of 0 1) = some true ↔
      nestedRun.2.shared.lookup (.of 0 1) = some true ∧
        ¬ (Dies nestedRun.2 (nestedRun.2.release 2) 0 ∨
          Dies nestedRun.2 (nestedRun.2.release 2) 1)) ∧
    (missedSinceClear (nestedRun.1 .shared)).Nodup := by
  have hpermitted : nestedRun.2.permits (.release 2) := Nat.one_pos
  obtain ⟨hcontents, hdrop, hnodup⟩ := cache_contents run_nestedRun
  exact ⟨run_nestedRun, hpermitted, hcontents .shared (.of 0 1), hdrop 2 hpermitted (.of 0 1) true,
    hnodup .shared _ List.prefix_rfl⟩

end Session

end ExprGraph
