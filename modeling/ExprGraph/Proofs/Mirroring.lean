/-
  Mirroring — the outcomes and the lists of the shared cache say the same thing, always.

  Pairs are kept in one map and lists of partners in another, and every operation edits both.  The
  refinement of a cache by the survivors of its history holds after each completed step: also inside
  a comparison, between two stores, and inside a drop, between two destroyed nodes.

  1. **Specification** — `Mirrored past c` is the agreement of the two maps of `c`, after the steps
     `past`: same pairs, same order, no leftovers, and no trace of a node that was destroyed.

  2. **The dead stay out** — no pair with a destroyed node is stored later (`StoresOnlyLiving`):
     comparisons are among living nodes, and nothing comes back to life.

  3. **Result** — the agreement holds at every moment of every history.  The caches of passes have
     no lists at all.
-/
import ExprGraph.Proofs.Contents
import Mathlib.Data.List.Induction

namespace ExprGraph

/-! ## The specification -/

/-- **The two maps of a cache agree**, after the steps `past`. -/
structure Mirrored (past : List CacheStep) (c : PairCache) : Prop where
  /-- a pair is stored exactly if each node is in the list of the other -/
  stored_iff : ∀ a b, (c.cached a b).isSome = true ↔ b ∈ c.partnersOf a ∧ a ∈ c.partnersOf b
  /-- no node is in the list of one that is not in its own -/
  mutual_iff : ∀ a b, b ∈ c.partnersOf a ↔ a ∈ c.partnersOf b
  distinct : ∀ p, (c.lookup p).isSome = true → p.low < p.high
  noEmptyList : ∀ n, c.partners.get? n ≠ some []
  nodup : ∀ n, (c.partnersOf n).Nodup
  /-- the lists are in the order in which the surviving pairs were stored -/
  ordered : ∀ n, c.partnersOf n = partnersIn (survivors past) n
  /-- a node with a list is marked, and was not destroyed -/
  marked : ∀ n list, c.partners.get? n = some list →
    c.marked.contains n = true ∧ .destroyed n ∉ past
  /-- a node that was destroyed is in no pair, has no list, and is in no list -/
  forgotten : ∀ n, .destroyed n ∈ past → (∀ p, (c.lookup p).isSome = true → ¬ p.Has n) ∧
    c.partners.get? n = none ∧ ∀ m, n ∉ c.partnersOf m

/-! ## The dead stay out -/

/-- **What is stored was not destroyed before.** -/
def StoresOnlyLiving (steps : List CacheStep) : Prop :=
  ∀ past a b outcome, past ++ [.store a b outcome] <+: steps →
    .destroyed a ∉ past ∧ .destroyed b ∉ past

theorem StoresOnlyLiving.until {past steps : List CacheStep} (h : StoresOnlyLiving steps)
    (hpast : past <+: steps) : StoresOnlyLiving past :=
  fun front a b outcome hfront => h front a b outcome (hfront.trans hpast)

/-- Steps are added that store nothing about the dead, of before or of their own. -/
theorem StoresOnlyLiving.append {xs ys : List CacheStep} (h : StoresOnlyLiving xs)
    (hys : ∀ a b outcome, .store a b outcome ∈ ys →
      .destroyed a ∉ xs ++ ys ∧ .destroyed b ∉ xs ++ ys) : StoresOnlyLiving (xs ++ ys) := by
  intro past a b outcome hpast
  by_cases hearly : past ++ [.store a b outcome] <+: xs
  · exact h past a b outcome hearly
  obtain ⟨zs, hzs, -⟩ := moment_of_append_concat hpast hearly
  have hstored : .store a b outcome ∈ ys :=
    hzs.subset (List.mem_append_right zs List.mem_cons_self)
  have hsub : past ⊆ xs ++ ys := ((List.prefix_append past _).trans hpast).subset
  obtain ⟨ha, hb⟩ := hys a b outcome hstored
  exact ⟨fun hmem => ha (hsub hmem), fun hmem => hb (hsub hmem)⟩

/-- No survivor has a destroyed node. -/
theorem StoresOnlyLiving.not_has {steps : List CacheStep} (h : StoresOnlyLiving steps) {p : Pair}
    {n : NodeId} (hp : p ∈ survivors steps) (hn : .destroyed n ∈ steps) : ¬ p.Has n := by
  induction steps using List.reverseRecOn with
  | nil => exact absurd hn List.not_mem_nil
  | append_singleton front step ih =>
    have hfront := h.until (List.prefix_append front [step])
    rw [survivors_concat] at hp
    rw [List.mem_append, List.mem_singleton] at hn
    cases step with
    | hit pair => exact ih hfront hp (hn.resolve_right nofun)
    | miss pair => exact ih hfront hp (hn.resolve_right nofun)
    | clear entries => exact absurd hp List.not_mem_nil
    | destroyed m =>
      obtain ⟨hp, hm⟩ := List.mem_filter.1 hp
      rcases hn with hn | hn
      · exact ih hfront hp hn
      · cases hn
        simpa using hm
    | store a b outcome =>
      have hn := hn.resolve_right nofun
      have hkept := h front a b outcome List.prefix_rfl
      rw [survivorsAfter] at hp
      split at hp
      · exact ih hfront hp hn
      · rcases List.mem_append.1 hp with hp | hp
        · exact ih hfront hp hn
        · rw [List.mem_singleton.1 hp, Pair.has_of]
          rintro (rfl | rfl)
          · exact hkept.1 hn
          · exact hkept.2 hn

/-! ## The refinement gives the agreement -/

/-- **A cache that keeps the survivors** of a history, with its lists, is mirrored. -/
theorem Keeps.mirrored {c : PairCache} {past : List CacheStep} (h : Keeps c (survivors past))
    (htracks : c.tracksLifetimes = true) (hpast : StoresOnlyLiving past) : Mirrored past c := by
  have hindexed := h.indexed htracks
  have hmem : ∀ a b, b ∈ c.partnersOf a ↔ Pair.of a b ∈ survivors past := fun a b => by
    rw [hindexed.partnersOf, mem_partnersIn h.proper]
  have hmem' : ∀ a b, a ∈ c.partnersOf b ↔ Pair.of a b ∈ survivors past := fun a b => by
    rw [hmem, Pair.of_comm]
  have hlist : ∀ n list, c.partners.get? n = some list → c.partnersOf n = list := by
    intro n list hn
    rw [PairCache.partnersOf, hn]
    rfl
  -- a list is not empty, so its owner is in a pair that survives
  have howner : ∀ n list, c.partners.get? n = some list → ∃ m, Pair.of n m ∈ survivors past := by
    intro n list hn
    cases list with
    | nil => exact absurd hn (hindexed.noEmptyList n)
    | cons m rest =>
      refine ⟨m, (hmem n m).1 ?_⟩
      rw [hlist n _ hn]
      exact List.mem_cons_self
  refine
    { stored_iff := fun a b => ?_, mutual_iff := fun a b => ?_, distinct := fun p hp => ?_,
      noEmptyList := hindexed.noEmptyList, nodup := fun n => ?_, ordered := hindexed.partnersOf,
      marked := fun n list hn => ?_, forgotten := fun n hn => ⟨fun p hp => ?_, ?_, fun m hm => ?_⟩ }
  · rw [hmem, hmem', and_self]
    exact h.stored _
  · rw [hmem, hmem']
  · exact h.proper p ((h.stored p).1 hp)
  · rw [hindexed.partnersOf]
    exact partnersIn_nodup h.proper h.nodup n
  · obtain ⟨m, hm⟩ := howner n list hn
    have hhas : (Pair.of n m).Has n := Pair.has_of.2 (Or.inl rfl)
    exact ⟨hindexed.marked _ hm n hhas, fun hdestroyed => hpast.not_has hm hdestroyed hhas⟩
  · exact hpast.not_has ((h.stored p).1 hp) hn
  · cases hlist : c.partners.get? n with
    | none => rfl
    | some list =>
      obtain ⟨m, hm⟩ := howner n list hlist
      exact absurd (Pair.has_of.2 (Or.inl rfl)) (hpast.not_has hm hn)
  · exact hpast.not_has ((hmem m n).1 hm) hn (Pair.has_of.2 (Or.inr rfl))

namespace Session

variable {H : Hasher} {picker : ShardPicker} {history : CacheRef → List CacheStep} {s : Session}

/-- **In a run, nothing is stored about the dead.** -/
theorem Run.storesOnlyLiving (h : Run H picker history s) (r : CacheRef) :
    StoresOnlyLiving (history r) := by
  induction h with
  | start => exact fun past a b outcome hpast => by simp at hpast
  | @perform history s a hrun ha ih =>
    have hs := hrun.invariant.1
    refine ih.append fun u v outcome hstored => ?_
    by_cases hcompare : ∃ x y, a = .compare r x y
    · obtain ⟨x, y, rfl⟩ := hcompare
      have hepisode := (compare_episode hs ha).2
      obtain ⟨⟨hu, hv⟩, -⟩ := hepisode.of_mem_store hstored
      have hkept : ∀ n, s.isAlive n = true →
          .destroyed n ∉ history r ++ s.steps (.compare r x y) r := fun n halive =>
        List.not_mem_append (hrun.not_destroyed_of_isAlive halive r) fun hn =>
          hepisode.ofComparison _ hn
      exact ⟨hkept u hu, hkept v hv⟩
    · exact absurd trivial (steps_forget (fun x y hxy => hcompare ⟨x, y, hxy⟩) _ hstored)

/-- **The index is mirrored**, at every moment of every run: the shared cache is what its history
    makes of a new cache, and after each step of that history its two maps agree.  The nodes that
    its history calls destroyed are those that are not live any more.  Caches of passes never have a
    list. -/
theorem index_mirrored (h : Run H picker history s) :
    (∃ shards, s.shared =
        ((PairCache.create picker shards true).replay (history .shared)).quiet ∧
      ∀ past, past <+: history .shared →
        Mirrored past ((PairCache.create picker shards true).replay past)) ∧
    (∀ n, .destroyed n ∈ history .shared ↔ n < s.graph.size ∧ ¬ s.Live n) ∧
    ∀ i, ∃ shards, s.cache (.pass i) =
        ((PairCache.create picker shards false).replay (history (.pass i))).quiet ∧
      ∀ past, past <+: history (.pass i) →
        Unindexed ((PairCache.create picker shards false).replay past) := by
  obtain ⟨hs, ht⟩ := h.invariant
  have hmoment : ∀ ref past, past <+: history ref → ∀ shards,
      Keeps ((PairCache.create picker shards ref.tracks).replay past) (survivors past) ∧
        ((PairCache.create picker shards ref.tracks).replay past).tracksLifetimes = ref.tracks :=
    fun ref past hpast shards =>
      (keeps_create picker shards ref.tracks).replay fun step hstep =>
        ht.proper ref step (hpast.subset hstep)
  refine ⟨?_, fun n => ?_, fun i => ?_⟩
  · obtain ⟨shards, hshared⟩ := ht.cache .shared
    refine ⟨shards, hshared, fun past hpast => ?_⟩
    obtain ⟨hkeeps, htracks⟩ := hmoment .shared past hpast shards
    exact hkeeps.mirrored htracks ((h.storesOnlyLiving .shared).until hpast)
  · rw [h.destroyed_iff, ← isAlive_iff_live hs.built hs.tallied, Bool.not_eq_true]
  · obtain ⟨shards, hpass⟩ := ht.cache (.pass i)
    refine ⟨shards, hpass, fun past hpast => ?_⟩
    obtain ⟨hkeeps, htracks⟩ := hmoment (.pass i) past hpast shards
    exact hkeeps.unindexed htracks

/-- A moment inside a nested comparison: the inner pair is stored, the outer one is not yet. -/
theorem index_mirrored_nestedRun :
    Run .mixing .standard nestedRun.1 nestedRun.2 ∧
    [.miss (.of 2 3), .miss (.of 0 1), .store 0 1 true] <+: nestedRun.1 .shared ∧
    ∃ shards, Mirrored [.miss (.of 2 3), .miss (.of 0 1), .store 0 1 true]
      ((PairCache.create .standard shards true).replay
        [.miss (.of 2 3), .miss (.of 0 1), .store 0 1 true]) := by
  have hmoment : [.miss (.of 2 3), .miss (.of 0 1), .store 0 1 true] <+: nestedRun.1 .shared := by
    rw [history_nestedRun]
    exact ⟨[.store 2 3 true], rfl⟩
  obtain ⟨⟨shards, -, hmirrored⟩, -⟩ := index_mirrored run_nestedRun
  exact ⟨run_nestedRun, hmoment, shards, hmirrored _ hmoment⟩

end Session

end ExprGraph
