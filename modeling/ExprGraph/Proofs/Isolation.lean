/-
  Isolation — what goes through one cache is not seen in another.

  Every pass may have a cache of its own, and all of them stand in one session.  A comparison that
  strayed into the wrong cache would leave pairs there that nobody asked for; no answer would show
  it, since all caches answer alike, but the counters would.

  1. **Frames** — an action leaves a cache alone, counters and all, unless it is a comparison through
     it, a clearing of it, or, for the shared cache, a drop (`cache_perform_eq`).  A comparison
     through the cache of a pass never links two nodes and never marks one
     (`PairCache.replay_unlinked`), at no moment of its recursion.

  2. **Two runs** — `AgreesOn ref s t`: the sessions have the same nodes with the same holds, and the
     same cache `ref`; other caches and the log may be anything.  Such sessions stay in step
     (`InStep`): the same actions are permitted, and the same nodes destroyed.  An action that goes
     through another cache is not noticed (`AgreesOn.skip`), and all other actions do the same on
     both sides (`AgreesOn.perform`).  By induction, a run agrees with what is left of it when the
     actions elsewhere are struck out (`AgreesOn.performAll`).
-/
import ExprGraph.Proofs.Contents
import ExprGraph.Proofs.Equivalence

namespace ExprGraph

/-- Does the action go through another cache than `ref`? -/
def Action.elsewhere (ref : CacheRef) : Action → Bool
  | .compare r _ _ => r != ref
  | .clear r => r != ref
  | .create .. | .retain _ | .release _ | .newCache _ => false

/-- **A comparison on a cache that hears of no destroyed nodes** links nothing and marks nothing. -/
theorem PairCache.replay_unlinked {c : PairCache} (htracks : c.tracksLifetimes = false)
    {steps : List CacheStep} (hsteps : ∀ step ∈ steps, step.OfComparison) :
    (c.replay steps).partners = c.partners ∧ (c.replay steps).marked = c.marked := by
  induction steps generalizing c with
  | nil => exact ⟨rfl, rfl⟩
  | cons step rest ih =>
    obtain ⟨hstep, hrest⟩ := List.forall_mem_cons.1 hsteps
    have happly : (c.apply step).partners = c.partners ∧ (c.apply step).marked = c.marked ∧
        (c.apply step).tracksLifetimes = false := by
      cases step with
      | hit pair => exact ⟨rfl, rfl, htracks⟩
      | miss pair => exact ⟨rfl, rfl, htracks⟩
      | store a b outcome =>
        rw [apply, c.store_eq_of_not_linked (by rw [htracks]; rfl)]
        exact ⟨rfl, rfl, htracks⟩
      | destroyed n => exact hstep.elim
      | clear entries => exact hstep.elim
    obtain ⟨hpartners, hmarked, htracks'⟩ := happly
    obtain ⟨hpartners', hmarked'⟩ := ih htracks' hrest
    exact ⟨hpartners'.trans hpartners, hmarked'.trans hmarked⟩

namespace Session

variable {H : Hasher} {picker : ShardPicker} {history : CacheRef → List CacheStep}
  {s t u : Session} {ref : CacheRef}

/-! ## Frames -/

/-- A cache on which an action takes no steps is as it was, unless the action makes caches. -/
theorem cache_perform_eq (h : Consistent H s) {a : Action} (ha : s.permits a)
    (hnew : ∀ shards, a ≠ .newCache shards) {r : CacheRef} (hsteps : s.steps a r = []) :
    (s.perform a).cache r = s.cache r := by
  rcases cache_perform h ha r with hcache | ⟨shards, rfl, -⟩
  · rw [hcache, hsteps]
    exact h.quiet r
  · exact absurd rfl (hnew shards)

/-- A cache that was never made reads as an empty one. -/
theorem cache_of_not_hasCache {i : Nat} (hr : ¬ s.hasCache (.pass i)) :
    s.cache (.pass i) = .create s.picker PairCache.standardShards false := by
  show s.passes.getD i _ = _
  rw [Array.getD_eq_getD_getElem?, Array.getElem?_eq_none (Nat.le_of_not_lt hr)]
  rfl

/-- Nothing is put under a name that no cache has. -/
theorem cache_putCache_of_not_hasCache (h : ¬ s.hasCache ref) (c : PairCache) :
    (s.putCache ref c).cache ref = s.cache ref := by
  cases ref with
  | shared => exact absurd trivial h
  | pass i =>
    show (s.passes.setIfInBounds i c.quiet).getD i _ = s.passes.getD i _
    rw [Array.setIfInBounds_eq_of_size_le (Nat.le_of_not_lt h)]
    rfl

/-- The same for single entries, which a new cache has none of. -/
theorem lookup_perform_eq (h : Consistent H s) {a : Action} (ha : s.permits a) {r : CacheRef}
    (hsteps : s.steps a r = []) (p : Pair) :
    ((s.perform a).cache r).lookup p = (s.cache r).lookup p := by
  rcases cache_perform h ha r with hcache | ⟨shards, -, hnew, hcache⟩
  · rw [hcache, hsteps]
    rfl
  · subst hnew
    rw [hcache, PairCache.lookup_create, cache_of_not_hasCache (Nat.lt_irrefl _),
      PairCache.lookup_create]

/-- **An entry changes** only by a comparison through its cache, by a clearing, or by the death of
    one of its nodes. -/
theorem changed_entry (h : Consistent H s) (ht : Traced picker history s) {a : Action}
    (ha : s.permits a) {r : CacheRef} {p : Pair}
    (hp : ((s.perform a).cache r).lookup p ≠ (s.cache r).lookup p) :
    (∃ x y, a = .compare r x y) ∨ a = .clear r ∨ (r = .shared ∧ ∃ n, a = .release n ∧
      (Dies s (s.release n) p.low ∨ Dies s (s.release n) p.high)) := by
  rcases steps_cases s a r with hcompare | ⟨n, rfl, rfl⟩ | hclear | hnone
  · exact Or.inl hcompare
  · refine Or.inr (Or.inr ⟨rfl, n, rfl, ?_⟩)
    by_contra hlive
    refine hp (Option.ext fun outcome => ?_)
    exact (lookup_release h ht ha p outcome).trans (and_iff_left hlive)
  · exact Or.inr (Or.inl hclear)
  · exact absurd (lookup_perform_eq h ha hnone p) hp

/-! ## Sessions that agree on one cache -/

/-- The session after some more actions. -/
def performAll (s : Session) (actions : List Action) : Session := actions.foldl perform s

theorem PermitsAll.of_prefix {front actions : List Action} (h : s.PermitsAll actions)
    (hfront : front <+: actions) : s.PermitsAll front := by
  induction front generalizing s actions with
  | nil => trivial
  | cons a rest ih =>
    obtain ⟨back, rfl⟩ := hfront
    exact ⟨h.1, ih h.2 (List.prefix_append rest back)⟩

/-! ## Sessions in step -/

/-- **Sessions that stay in step**: `R` holds only of sessions with the same nodes, the same holds
    and as many caches, and it is kept when both count anew, and when both forget a node. -/
structure InStep (R : Session → Session → Prop) : Prop where
  graph : ∀ {s t}, R s t → t.graph = s.graph
  held : ∀ {s t}, R s t → t.held = s.held
  uses : ∀ {s t}, R s t → t.uses = s.uses
  passes : ∀ {s t}, R s t → t.passes.size = s.passes.size
  recount : ∀ {s t} {held held' uses uses' : Array Nat}, R s t → held' = held → uses' = uses →
    R { s with held := held, uses := uses } { t with held := held', uses := uses' }
  forget : ∀ {s t} (n : NodeId), R s t → R (s.forget n) (t.forget n)

theorem hasCache_congr (h : t.passes.size = s.passes.size) (r : CacheRef) :
    t.hasCache r ↔ s.hasCache r := by
  cases r with
  | shared => exact Iff.rfl
  | pass i =>
    show i < t.passes.size ↔ i < s.passes.size
    rw [h]

namespace InStep

variable {R : Session → Session → Prop}

theorem isAlive (hR : InStep R) (h : R s t) (n : NodeId) : t.isAlive n = s.isAlive n := by
  rw [Session.isAlive, Session.isAlive, hR.held h, hR.uses h]

/-- **The same actions are permitted.** -/
theorem permits (hR : InStep R) (h : R s t) (a : Action) : t.permits a ↔ s.permits a := by
  have husable : ∀ x, t.Usable x ↔ s.Usable x := fun x => by
    simp only [Usable, hR.isAlive h]
  have hcache := hasCache_congr (hR.passes h)
  cases a with
  | create kind args => simp only [Session.permits, husable]
  | retain n => rw [Session.permits, Session.permits, hR.isAlive h]
  | release n => rw [Session.permits, Session.permits, hR.held h]
  | compare r x y => rw [Session.permits, Session.permits, hcache, husable, husable]
  | newCache shards => exact Iff.rfl
  | clear r => exact hcache r

theorem retain (hR : InStep R) (h : R s t) (n : NodeId) : R (s.retain n) (t.retain n) :=
  hR.recount h (congrArg (·.modify n (· + 1)) (hR.held h)) (hR.uses h)

/-- A loop that keeps the relation in each of its rounds. -/
theorem foldl {f : Session → NodeId → Session} (hf : ∀ {s t}, R s t → ∀ c, R (f s c) (f t c))
    (h : R s t) (cs : List NodeId) : R (cs.foldl f s) (cs.foldl f t) := by
  induction cs generalizing s t with
  | nil => exact h
  | cons c rest ih => exact ih (hf h c)

/-- **A destruction** takes the same nodes on both sides. -/
theorem destroy (hR : InStep R) (h : R s t) (n : NodeId) : R (s.destroy n) (t.destroy n) := by
  induction n using Nat.strongRecOn generalizing s t with
  | _ n ih =>
    rw [Session.destroy, Session.destroy, hR.graph h]
    refine foldl (fun {s t} h c => ?_) (hR.forget n h) _
    -- the sessions agree on the counts, so they go the same way in each round
    split
    · rename_i hc
      have hletGo : R (s.letGo c) (t.letGo c) :=
        hR.recount h (hR.held h) (congrArg (·.modify c (· - 1)) (hR.uses h))
      show R (if (s.letGo c).isAlive c then s.letGo c else (s.letGo c).destroy c)
        (if (t.letGo c).isAlive c then t.letGo c else (t.letGo c).destroy c)
      rw [hR.isAlive hletGo c]
      split
      · exact hletGo
      · exact ih c hc hletGo
    · exact h

/-- A hold less, which may destroy. -/
theorem release (hR : InStep R) (h : R s t) (n : NodeId) : R (s.release n) (t.release n) := by
  have hunhold : R (s.unhold n) (t.unhold n) :=
    hR.recount h (congrArg (·.modify n (· - 1)) (hR.held h)) (hR.uses h)
  show R (if (s.unhold n).isAlive n then s.unhold n else (s.unhold n).destroy n)
    (if (t.unhold n).isAlive n then t.unhold n else (t.unhold n).destroy n)
  rw [hR.isAlive hunhold n]
  split
  · exact hunhold
  · exact hR.destroy hunhold n

end InStep

/-- **Two sessions with the same nodes, the same holds and the same cache `ref`.** -/
structure AgreesOn (ref : CacheRef) (s t : Session) : Prop where
  hasher : t.hasher = s.hasher
  picker : t.picker = s.picker
  graph : t.graph = s.graph
  held : t.held = s.held
  uses : t.uses = s.uses
  passes : t.passes.size = s.passes.size
  cache : t.cache ref = s.cache ref

namespace AgreesOn

theorem refl (s : Session) : AgreesOn ref s s := ⟨rfl, rfl, rfl, rfl, rfl, rfl, rfl⟩

theorem symm (h : AgreesOn ref s t) : AgreesOn ref t s :=
  ⟨h.hasher.symm, h.picker.symm, h.graph.symm, h.held.symm, h.uses.symm, h.passes.symm,
    h.cache.symm⟩

theorem trans (h : AgreesOn ref s t) (h' : AgreesOn ref t u) : AgreesOn ref s u :=
  ⟨h'.hasher.trans h.hasher, h'.picker.trans h.picker, h'.graph.trans h.graph,
    h'.held.trans h.held, h'.uses.trans h.uses, h'.passes.trans h.passes, h'.cache.trans h.cache⟩

/-! ### What happens to the cache itself -/

/-- The same cache is put back on both sides. -/
theorem putCache (h : AgreesOn ref s t) (c : PairCache) :
    AgreesOn ref (s.putCache ref c) (t.putCache ref c) := by
  have hcache : (t.putCache ref c).cache ref = (s.putCache ref c).cache ref := by
    have hnames := hasCache_congr h.passes ref
    by_cases hr : s.hasCache ref
    · rw [cache_putCache_self hr, cache_putCache_self (hnames.2 hr)]
    · rw [cache_putCache_of_not_hasCache hr, cache_putCache_of_not_hasCache (mt hnames.1 hr),
        h.cache]
  cases ref with
  | shared => exact ⟨h.hasher, h.picker, h.graph, h.held, h.uses, h.passes, hcache⟩
  | pass i =>
    refine ⟨h.hasher, h.picker, h.graph, h.held, h.uses, ?_, hcache⟩
    show (t.passes.setIfInBounds i _).size = (s.passes.setIfInBounds i _).size
    rw [Array.size_setIfInBounds, Array.size_setIfInBounds, h.passes]

/-- Another cache is put back, and `ref` does not notice. -/
theorem putCache_of_ne (s : Session) {r : CacheRef} (hr : r ≠ ref) (c : PairCache) :
    AgreesOn ref s (s.putCache r c) := by
  have hcache := cache_putCache_of_ne (s := s) hr c
  cases r with
  | shared => exact ⟨rfl, rfl, rfl, rfl, rfl, rfl, hcache⟩
  | pass i => exact ⟨rfl, rfl, rfl, rfl, rfl, Array.size_setIfInBounds, hcache⟩

/-- Whatever is run through `ref` answers the same, and leaves sessions that agree. -/
theorem onCache {α : Type} (h : AgreesOn ref s t) (act : StateM PairCache α) :
    (t.onCache ref act).1 = (s.onCache ref act).1 ∧
      AgreesOn ref (s.onCache ref act).2 (t.onCache ref act).2 := by
  rw [Session.onCache, Session.onCache, h.cache]
  exact ⟨rfl, h.putCache _⟩

/-! ### What happens to the nodes -/

theorem insert (h : AgreesOn ref s t) (op : Operation) :
    AgreesOn ref (s.insert op).2 (t.insert op).2 := by
  refine ⟨h.hasher, h.picker, ?_, ?_, ?_, h.passes, ?_⟩
  · show (t.graph.insert t.hasher op).2 = (s.graph.insert s.hasher op).2
    rw [h.graph, h.hasher]
  · show t.held.push 1 = s.held.push 1
    rw [h.held]
  · show (op.children.foldl _ t.uses).push 0 = (op.children.foldl _ s.uses).push 0
    rw [h.uses]
  · rw [cache_insert, cache_insert, h.cache]

theorem recount (h : AgreesOn ref s t) {held held' uses uses' : Array Nat} (hheld : held' = held)
    (huses : uses' = uses) :
    AgreesOn ref { s with held := held, uses := uses } { t with held := held', uses := uses' } := by
  refine ⟨h.hasher, h.picker, h.graph, hheld, huses, h.passes, ?_⟩
  have hcache := h.cache
  cases ref <;> exact hcache

/-- The shared cache forgets a node. -/
theorem forget (h : AgreesOn ref s t) (n : NodeId) : AgreesOn ref (s.forget n) (t.forget n) := by
  by_cases hr : ref = .shared
  · subst hr
    have hshared : t.shared = s.shared := h.cache
    rw [Session.forget, Session.forget, hshared]
    exact h.putCache _
  · have hs : AgreesOn ref s (s.forget n) := putCache_of_ne s (Ne.symm hr) _
    have ht : AgreesOn ref t (t.forget n) := putCache_of_ne t (Ne.symm hr) _
    exact hs.symm.trans (h.trans ht)

theorem inStep (ref : CacheRef) : InStep (AgreesOn ref) where
  graph := AgreesOn.graph
  held := AgreesOn.held
  uses := AgreesOn.uses
  passes := AgreesOn.passes
  recount h := h.recount
  forget n h := h.forget n

theorem newCache (h : AgreesOn ref s t) (shards : Nat) :
    AgreesOn ref (s.newCache shards).2 (t.newCache shards).2 := by
  refine ⟨h.hasher, h.picker, h.graph, h.held, h.uses, ?_, ?_⟩
  · show (t.passes.push _).size = (s.passes.push _).size
    rw [Array.size_push, Array.size_push, h.passes]
  · rw [cache_newCache, cache_newCache, h.passes, h.picker, h.cache]

/-! ### Actions and runs -/

/-- **An action that does not go through another cache** does the same on both sides. -/
theorem perform (h : AgreesOn ref s t) {a : Action} (ha : a.elsewhere ref = false) :
    AgreesOn ref (s.perform a) (t.perform a) := by
  cases a with
  | create kind args =>
    rw [Session.perform, Session.perform, build, build, h.graph]
    cases Operation.ofArguments s.graph kind args with
    | error e => exact h
    | ok op => exact h.insert op
  | retain n => exact (inStep ref).retain h n
  | release n => exact (inStep ref).release h n
  | compare r x y =>
    obtain rfl : r = ref := by simpa [Action.elsewhere] using ha
    rw [Session.perform, Session.perform, h.graph]
    exact (h.onCache _).2
  | newCache shards => exact h.newCache shards
  | clear r =>
    obtain rfl : r = ref := by simpa [Action.elsewhere] using ha
    rw [Session.perform, Session.perform, clearCache, clearCache, h.cache]
    exact h.putCache _

/-- **An action that goes through another cache** is not noticed. -/
theorem skip (h : AgreesOn ref s t) {a : Action} (ha : a.elsewhere ref = true) :
    AgreesOn ref (s.perform a) t := by
  cases a with
  | compare r x y => exact (putCache_of_ne s (by simpa [Action.elsewhere] using ha) _).symm.trans h
  | clear r => exact (putCache_of_ne s (by simpa [Action.elsewhere] using ha) _).symm.trans h
  | _ => cases ha

/-- **A run agrees with what is left of it** without the actions elsewhere, which is permitted. -/
theorem performAll (h : AgreesOn ref s t) {actions : List Action} (hs : s.PermitsAll actions) :
    t.PermitsAll (actions.filter fun a => !a.elsewhere ref) ∧ AgreesOn ref (s.performAll actions)
      (t.performAll (actions.filter fun a => !a.elsewhere ref)) := by
  induction actions generalizing s t with
  | nil => exact ⟨trivial, h⟩
  | cons a rest ih =>
    cases ha : a.elsewhere ref with
    | true =>
      rw [List.filter_cons_of_neg (by simp [ha])]
      exact ih (h.skip ha) hs.2
    | false =>
      rw [List.filter_cons_of_pos (by simp [ha])]
      obtain ⟨hpermits, hagrees⟩ := ih (h.perform ha) hs.2
      exact ⟨⟨((inStep ref).permits h a).2 hs.1, hpermits⟩, hagrees⟩

/-- What comparisons through `ref` answer. -/
theorem answer (h : AgreesOn ref s t) (x y : Argument) :
    t.answer (.compare ref x y) = s.answer (.compare ref x y) := by
  rw [Session.answer, Session.answer, h.graph]
  exact congrArg some (h.onCache _).1

end AgreesOn

/-- **Caches are isolated.**  In every reachable state an entry of a cache changes only by a
    comparison through that cache, by clearing it, or, in the shared cache, by the death of a node of
    the pair; a drop leaves the caches of passes as they are.  A comparison through the cache of a
    pass leaves all other caches as they are, and at every moment of its recursion its own has the
    partner lists and the marks of before.  And whatever happens from then on, a cache and its
    answers are at every moment those of a run in which nothing goes through any other cache. -/
theorem caches_isolated (h : Reachable H picker s) (ref : CacheRef) :
    (∀ a, s.permits a → ∀ p,
      ((s.perform a).cache ref).lookup p ≠ (s.cache ref).lookup p →
        (∃ x y, a = .compare ref x y) ∨ a = .clear ref ∨ (ref = .shared ∧ ∃ n, a = .release n ∧
          (Dies s (s.release n) p.low ∨ Dies s (s.release n) p.high))) ∧
    (∀ n i, s.permits (.release n) → (s.release n).cache (.pass i) = s.cache (.pass i)) ∧
    (∀ i x y, s.permits (.compare (.pass i) x y) →
      (∀ r, r ≠ .pass i → (s.perform (.compare (.pass i) x y)).cache r = s.cache r) ∧
      (s.perform (.compare (.pass i) x y)).cache (.pass i) =
        ((s.cache (.pass i)).replay (s.steps (.compare (.pass i) x y) (.pass i))).quiet ∧
      ∀ front, front <+: s.steps (.compare (.pass i) x y) (.pass i) →
        ((s.cache (.pass i)).replay front).partners = (s.cache (.pass i)).partners ∧
          ((s.cache (.pass i)).replay front).marked = (s.cache (.pass i)).marked) ∧
    ∀ actions, s.PermitsAll actions →
      s.PermitsAll (actions.filter fun a => !a.elsewhere ref) ∧
      ∀ front, front <+: actions →
        (s.performAll (front.filter fun a => !a.elsewhere ref)).cache ref =
            (s.performAll front).cache ref ∧
          ∀ x y, (s.performAll (front.filter fun a => !a.elsewhere ref)).answer (.compare ref x y) =
            (s.performAll front).answer (.compare ref x y) := by
  obtain ⟨history, hrun⟩ := reachable_iff_run.1 h
  obtain ⟨hs, ht⟩ := hrun.invariant
  refine ⟨fun a ha p hp => changed_entry hs ht ha hp, fun n i hn => ?_, fun i x y hxy => ?_,
    fun actions hactions => ⟨((AgreesOn.refl s).performAll hactions).1, fun front hfront => ?_⟩⟩
  · have hsteps : s.steps (.release n) (.pass i) = [] := rfl
    exact cache_perform_eq hs hn (by simp) hsteps
  · obtain ⟨hcache, hepisode⟩ := compare_episode hs hxy
    refine ⟨fun r hr => cache_perform_eq hs hxy (by simp) (if_neg (Ne.symm hr)), hcache,
      fun front hfront => ?_⟩
    have htracks : (s.cache (.pass i)).tracksLifetimes = false := (ht.keeps (.pass i)).2
    exact PairCache.replay_unlinked htracks fun step hstep =>
      hepisode.ofComparison step (hfront.subset hstep)
  · have hself : AgreesOn ref s s := .refl s
    obtain ⟨-, hagrees⟩ := hself.performAll (hactions.of_prefix hfront)
    exact ⟨hagrees.cache, hagrees.answer⟩

/-- The last hold of a user, given up on a node that stands in no other, destroys it. -/
theorem dies_of_last_hold (h : Consistent H s) {n : NodeId} (hn : s.permits (.release n))
    (hlast : (s.unhold n).isAlive n = false) : Dies s (s.release n) n := by
  have halive : s.isAlive n = true := isAlive_of_held hn
  obtain ⟨htallied, -⟩ := (h.tallied.modify_held halive (· - 1)).tallied_of_died
    (h.tallied.lt_size halive) hlast
  obtain ⟨t, gone, hrun, -⟩ := recordDestroy_spec (s := s.unhold n) h.built hlast htallied []
  rw [dies_release_iff h.built h.tallied hn, destroyedBy, hlast, if_neg Bool.false_ne_true, hrun]
  exact List.mem_cons_self

/-- Two lists compared through the cache of a pass, which is cleared, and through the shared one,
    before one of them goes. -/
def crossing : List Action :=
  [.compare (.pass 0) (.node 2) (.node 3), .clear (.pass 0), .compare .shared (.node 3) (.node 2),
    .release 2]

/-- The sample run, with a cache for a pass. -/
theorem reachable_crossing : Reachable .mixing .standard (nestedRun.2.perform (.newCache 4)) :=
  reachable_nestedRun.perform _ trivial

/-- A pair that goes with its nodes; a comparison through the cache of a pass; and the shared cache
    after the run, with the detour and without. -/
theorem caches_isolated_crossing :
    let s := nestedRun.2.perform (.newCache 4)
    Reachable .mixing .standard s ∧ s.PermitsAll crossing ∧
    (Dies s (s.release 2) 2 ∨ Dies s (s.release 2) 3) ∧
    (s.release 2).cache (.pass 0) = s.cache (.pass 0) ∧
    (s.perform (.compare (.pass 0) (.node 2) (.node 3))).cache .shared = s.cache .shared ∧
    (s.performAll [.compare .shared (.node 3) (.node 2), .release 2]).cache .shared =
      (s.performAll crossing).cache .shared ∧
    s.answer (.compare .shared (.node 3) (.node 2)) =
      (s.performAll [.compare (.pass 0) (.node 2) (.node 3), .clear (.pass 0)]).answer
        (.compare .shared (.node 3) (.node 2)) := by
  intro s
  have hpermits : s.PermitsAll crossing := by
    simp only [crossing, PermitsAll, permits, Usable, hasCache, Argument.WellFormed, Argument.nodes,
      List.mem_singleton, forall_eq, true_and, and_true]
    exact ⟨⟨Nat.one_pos, rfl, rfl⟩, Nat.one_pos, ⟨rfl, rfl⟩, Nat.one_pos⟩
  obtain ⟨history, hrun⟩ := reachable_iff_run.1 reachable_crossing
  obtain ⟨hs, ht⟩ := hrun.invariant
  obtain ⟨hentries, hdrop, hpass, hruns⟩ := caches_isolated reachable_crossing .shared
  have hheld : s.permits (.release 2) := Nat.one_pos
  have hstored : (s.cache .shared).lookup (.of 2 3) = some true := lookup_nestedRun
  have hchanged : ((s.perform (.release 2)).cache .shared).lookup (.of 2 3) ≠
      (s.cache .shared).lookup (.of 2 3) := by
    intro hsame
    have hkept := (lookup_release hs ht hheld (.of 2 3) true).1 (hsame.trans hstored)
    exact hkept.2 (Or.inl (dies_of_last_hold hs hheld rfl))
  obtain ⟨x, y, hno⟩ | hno | ⟨-, n, hn, hdies⟩ := hentries (.release 2) hheld _ hchanged
  · cases hno
  · cases hno
  · cases hn
    obtain ⟨-, hfronts⟩ := hruns crossing hpermits
    refine ⟨reachable_crossing, hpermits, hdies, hdrop 2 0 hheld,
      (hpass 0 (.node 2) (.node 3) hpermits.1).1 .shared (by simp),
      (hfronts _ List.prefix_rfl).1, ?_⟩
    exact ((hfronts [.compare (.pass 0) (.node 2) (.node 3), .clear (.pass 0)]
      ⟨[.compare .shared (.node 3) (.node 2), .release 2], rfl⟩).2 _ _)

end Session

end ExprGraph
