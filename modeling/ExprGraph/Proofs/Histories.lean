/-
  Histories — what the caches of a session have been through.

  A run of a session is a sequence of actions; each action takes some steps on some cache.  The
  laws of caches are laws of these steps, so a run is looked at together with the history of each
  cache: all steps it took, the ones in the middle of an action included.

  1. **Runs** — `Session.steps` are the steps that an action takes on a cache: the record of a
     comparison, the destroyed nodes of a drop, a clearing.  `Session.Run` is `Session.Reachable`
     with the histories kept (`reachable_iff_run`).

  2. **Replay** — a cache is what its history makes of a new one (`Traced`), reports apart.

  3. **Invariant** — `Consistent` is what every reachable session satisfies: the graph is well
     built, the counts are right, and every stored outcome is.

  4. **Comparisons** — in a run, the record of a comparison is an episode among living nodes
     (`compare_episode`).
-/
import ExprGraph.Proofs.Construction
import ExprGraph.Proofs.Lifetimes
import ExprGraph.Proofs.PartnerIndex
import ExprGraph.Session.Run

namespace ExprGraph

/-! ## Histories of one cache -/

/-- The pairs missed since the last clearing, in order. -/
def missedSinceClear (steps : List CacheStep) : List Pair :=
  steps.foldl
    (fun missed step =>
      match step with
      | .miss pair => missed ++ [pair]
      | .clear _ => []
      | .hit _ | .store .. | .destroyed _ => missed)
    []

/-- How many pairs all clearings together have removed. -/
def removedByClears : List CacheStep → Nat
  | [] => 0
  | .clear entries :: rest => entries + removedByClears rest
  | _ :: rest => removedByClears rest

/-- Does the cache hear of destroyed nodes? -/
def CacheRef.tracks : CacheRef → Bool
  | .shared => true
  | .pass _ => false

/-- Comparisons store pairs of distinct nodes, and destroy nothing. -/
theorem Episode.proper {g : Graph} {R : NodeId → NodeId → Prop} {c : PairCache}
    {steps : List CacheStep} (h : Episode g R c steps) (tracks : Bool) :
    ∀ step ∈ steps, step.Proper tracks := by
  intro step hstep
  cases step with
  | store u v outcome => exact (h.of_mem_store hstep).2.1
  | destroyed n => exact (h.ofComparison _ hstep).elim
  | _ => trivial

namespace PairCache

/-- The cache in the middle of forgetting `n`: its list is gone, and its pairs with `front`. -/
def evictAmong (c : PairCache) (n : NodeId) (front : List NodeId) : PairCache :=
  front.foldl (fun c m => c.evictPair n m) { c with partners := c.partners.erase n }

/-- Behind the last partner the node is forgotten. -/
theorem evict_eq_evictAmong {c : PairCache} {n : NodeId} {list : List NodeId}
    (h : c.partners.get? n = some list) : c.evict n = c.evictAmong n list := by
  rw [evict, h]
  rfl

theorem lookup_evictAmong (c : PairCache) (n : NodeId) (front : List NodeId) (p : Pair) :
    (c.evictAmong n front).lookup p =
      if p ∈ front.map (Pair.of n) then none else c.lookup p := by
  have fold : ∀ (front : List NodeId) (c : PairCache),
      (front.foldl (fun c m => c.evictPair n m) c).lookup p =
        if p ∈ front.map (Pair.of n) then none else c.lookup p := by
    intro front
    induction front with
    | nil => exact fun c => rfl
    | cons m rest ih =>
      intro c
      rw [List.foldl_cons, ih, lookup_evictPair, List.map_cons]
      by_cases hm : Pair.of n m = p
      · simp [hm]
      · simp [hm, Ne.symm hm]
  exact fold front _

theorem lookup_of_evict {c : PairCache} {n : NodeId} {p : Pair} {outcome : Bool}
    (h : (c.evict n).lookup p = some outcome) : c.lookup p = some outcome := by
  cases hlist : c.partners.get? n with
  | none =>
    rw [evict, hlist] at h
    exact h
  | some list =>
    rw [evict_eq_evictAmong hlist, lookup_evictAmong] at h
    split at h
    · cases h
    · exact h

/-- Steps that only forget leave no outcome that was not there. -/
theorem lookup_of_forgetting {c : PairCache} {steps : List CacheStep}
    (hsteps : ∀ step ∈ steps, ¬ step.OfComparison) {p : Pair} {outcome : Bool}
    (h : (c.replay steps).lookup p = some outcome) : c.lookup p = some outcome := by
  induction steps generalizing c with
  | nil => exact h
  | cons step rest ih =>
    obtain ⟨hstep, hrest⟩ := List.forall_mem_cons.1 hsteps
    have hfound := ih hrest h
    cases step with
    | destroyed n =>
      rw [apply, nodeDestroyed] at hfound
      split at hfound
      · exact lookup_of_evict hfound
      · exact hfound
    | clear entries =>
      rw [apply, lookup_clear] at hfound
      cases hfound
    | _ => exact absurd trivial hstep

end PairCache

namespace Session

/-! ## Runs -/

/-- **The steps that an action takes on a cache.** -/
def steps (s : Session) (a : Action) (ref : CacheRef) : List CacheStep :=
  match a with
  | .compare r x y =>
    if r = ref then ((PairCache.recordArgumentsM s.graph x y).run (s.cache ref, [])).2.2 else []
  | .release n => if ref = .shared then (s.destroyedBy n).map .destroyed else []
  | .clear r => if r = ref then [.clear (s.cache ref).size] else []
  | .create .. | .retain _ | .newCache _ => []

/-- **Runs, with the histories of all caches.** -/
inductive Run (H : Hasher) (picker : ShardPicker) :
    (CacheRef → List CacheStep) → Session → Prop where
  | start : Run H picker (fun _ => []) (Session.start H picker)
  | perform {history : CacheRef → List CacheStep} {s : Session} (a : Action) :
      Run H picker history s → s.permits a →
      Run H picker (fun ref => history ref ++ s.steps a ref) (s.perform a)

/-- Every action of the list is permitted when its turn comes. -/
def PermitsAll (s : Session) : List Action → Prop
  | [] => True
  | a :: rest => s.permits a ∧ (s.perform a).PermitsAll rest

/-- The histories of a run and the session at its end, after some more actions. -/
def playFrom (histories : (CacheRef → List CacheStep) × Session) :
    List Action → (CacheRef → List CacheStep) × Session
  | [] => histories
  | a :: rest =>
    playFrom (fun ref => histories.1 ref ++ histories.2.steps a ref, histories.2.perform a) rest

/-- **A list of actions, played from the start.** -/
def play (H : Hasher) (picker : ShardPicker) (actions : List Action) :
    (CacheRef → List CacheStep) × Session :=
  playFrom (fun _ => [], Session.start H picker) actions

theorem Run.playFrom {H : Hasher} {picker : ShardPicker} {history : CacheRef → List CacheStep}
    {s : Session} (h : Run H picker history s) {actions : List Action}
    (hactions : s.PermitsAll actions) :
    Run H picker (Session.playFrom (history, s) actions).1
      (Session.playFrom (history, s) actions).2 := by
  induction actions generalizing history s with
  | nil => exact h
  | cons a rest ih => exact ih (h.perform a hactions.1) hactions.2

/-- A permitted list of actions is a run. -/
theorem run_play {H : Hasher} {picker : ShardPicker} {actions : List Action}
    (h : (Session.start H picker).PermitsAll actions) :
    Run H picker (play H picker actions).1 (play H picker actions).2 := Run.start.playFrom h

/-- Every reachable session has histories. -/
theorem reachable_iff_run {H : Hasher} {picker : ShardPicker} {s : Session} :
    Reachable H picker s ↔ ∃ history, Run H picker history s := by
  constructor
  · intro h
    induction h with
    | start => exact ⟨_, .start⟩
    | perform a _ ha ih =>
      obtain ⟨history, hrun⟩ := ih
      exact ⟨_, hrun.perform a ha⟩
  · rintro ⟨history, hrun⟩
    induction hrun with
    | start => exact .start
    | perform a _ ha ih => exact ih.perform a ha

/-! ## Caches by name -/

section Caches

variable {s : Session} {ref r : CacheRef}

theorem cache_putCache_self (h : s.hasCache ref) (c : PairCache) :
    (s.putCache ref c).cache ref = c.quiet := by
  cases ref with
  | shared => rfl
  | pass i =>
    have hi : i < s.passes.size := h
    show (s.passes.setIfInBounds i c.quiet).getD i _ = c.quiet
    simp [Array.getD_eq_getD_getElem?, hi]

theorem cache_putCache_of_ne (h : ref ≠ r) (c : PairCache) :
    (s.putCache ref c).cache r = s.cache r := by
  cases ref with
  | shared =>
    cases r with
    | shared => exact absurd rfl h
    | pass i => rfl
  | pass i =>
    cases r with
    | shared => rfl
    | pass j =>
      have hij : i ≠ j := fun hij => h (hij ▸ rfl)
      show (s.passes.setIfInBounds i c.quiet).getD j _ = s.passes.getD j _
      rw [Array.getD_eq_getD_getElem?, Array.getElem?_setIfInBounds_ne hij,
        ← Array.getD_eq_getD_getElem?]
      rfl

/-- A new cache is found under the next free name, and no other cache notices. -/
theorem cache_newCache (s : Session) (shards : Nat) (r : CacheRef) :
    (s.newCache shards).2.cache r =
      if r = .pass s.passes.size then .create s.picker shards false else s.cache r := by
  cases r with
  | shared => rfl
  | pass i =>
    show (s.passes.push _).getD i _ = _
    simp only [Array.getD_eq_getD_getElem?, Array.getElem?_push, CacheRef.pass.injEq]
    split
    · rfl
    · simp only [cache, Array.getD_eq_getD_getElem?]
      rfl

theorem cache_insert (s : Session) (op : Operation) : (s.insert op).2.cache = s.cache := by
  funext r
  cases r <;> rfl

/-- Forgetting nodes, in order, is a replay on the shared cache. -/
theorem cache_foldl_forget (hq : s.shared.quiet = s.shared) (gone : List NodeId) (r : CacheRef) :
    (gone.foldl forget s).cache r =
      if r = .shared then (s.shared.replay (gone.map .destroyed)).quiet else s.cache r := by
  induction gone generalizing s with
  | nil =>
    cases r with
    | shared => exact hq.symm
    | pass i => rfl
  | cons n rest ih =>
    have hshared : (s.forget n).shared = (s.shared.nodeDestroyed n).quiet := rfl
    rw [List.foldl_cons, ih (by rw [hshared]; rfl)]
    cases r with
    | shared =>
      rw [if_pos rfl, if_pos rfl, hshared, List.map_cons, PairCache.replay_cons]
      exact (PairCache.quiet_replay (s.shared.nodeDestroyed n) _).symm
    | pass i =>
      rw [if_neg CacheRef.noConfusion, if_neg CacheRef.noConfusion]
      exact cache_putCache_of_ne CacheRef.noConfusion _

end Caches

/-! ## The invariant -/

/-- **What every reachable session satisfies.** -/
structure Consistent (H : Hasher) (s : Session) : Prop where
  hasher : s.hasher = H
  built : s.graph.Built H
  tallied : s.Tallied []
  quiet : ∀ ref, (s.cache ref).quiet = s.cache ref
  sound : ∀ ref, s.graph.Sound (s.cache ref)

section Actions

variable {H : Hasher} {s : Session}

theorem Consistent.lt_size (h : Consistent H s) {x : Argument} (hx : s.Usable x) :
    ∀ n ∈ x.nodes, n < s.graph.size := fun n hn => h.tallied.lt_size (hx.2 n hn)

/-- A permitted creation adds a node over living nodes, or does nothing. -/
theorem perform_create {kind : Kind} {args : List Argument} (ha : s.permits (.create kind args)) :
    s.perform (.create kind args) = s ∨ ∃ op : Operation,
      s.perform (.create kind args) = (s.insert op).2 ∧
      (∀ x ∈ op.arguments, x.WellFormed) ∧ ∀ c ∈ op.children, s.isAlive c = true := by
  rw [perform, build]
  cases hop : Operation.ofArguments s.graph kind args with
  | error e => exact Or.inl rfl
  | ok op =>
    obtain ⟨-, hargs⟩ := Operation.ofArguments_ok hop
    refine Or.inr ⟨op, rfl, fun x hx => (ha x (hargs ▸ hx)).1, fun c hc => ?_⟩
    obtain ⟨x, hx, hcx⟩ := List.mem_flatMap.1 hc
    exact (ha x (hargs ▸ hx)).2 c hcx

/-- **A comparison in a run**: its record is an episode among living nodes. -/
theorem compare_episode (h : Consistent H s) {ref : CacheRef} {x y : Argument}
    (ha : s.permits (.compare ref x y)) :
    (s.perform (.compare ref x y)).cache ref =
        ((s.cache ref).replay (s.steps (.compare ref x y) ref)).quiet ∧
      Episode s.graph (fun u v => s.isAlive u = true ∧ s.isAlive v = true) (s.cache ref)
        (s.steps (.compare ref x y) ref) := by
  obtain ⟨hcache, hx, hy⟩ := ha
  obtain ⟨steps, hrun, hepisode, -⟩ :=
    PairCache.recordArgumentsM_asks h.built hx.1 hy.1 (h.lt_size hx) (h.lt_size hy) (s.cache ref) []
      (h.sound ref)
  have herases := PairCache.recordArgumentsM_erases s.graph x y (s.cache ref) []
  have hsteps : s.steps (.compare ref x y) ref = steps := by
    rw [Session.steps, if_pos rfl, hrun]
    rfl
  have hlive : ∀ {z : Argument}, s.Usable z → ∀ u, (∃ n ∈ z.nodes, s.graph.Reaches n u) →
      s.isAlive u = true := by
    rintro z hz u ⟨n, hn, hreach⟩
    induction hreach with
    | refl => exact hz.2 n hn
    | tail _ hc ih => exact h.tallied.isAlive_child ih hc
  rw [hsteps]
  refine ⟨?_, hepisode.mono fun u v huv => ⟨hlive hx u huv.1, hlive hy v huv.2⟩⟩
  have hfinal : ((PairCache.argumentsEqualM s.graph x y).run (s.cache ref)).2 =
      (s.cache ref).replay steps := by
    rw [← herases, hrun]
  show (s.putCache ref ((PairCache.argumentsEqualM s.graph x y).run (s.cache ref)).2).cache ref = _
  rw [cache_putCache_self hcache, hfinal]

/-- **What an action does to the caches**: it takes its steps; a new cache is new. -/
theorem cache_perform (h : Consistent H s) {a : Action} (ha : s.permits a) (r : CacheRef) :
    (s.perform a).cache r = ((s.cache r).replay (s.steps a r)).quiet ∨
      ∃ shards, a = .newCache shards ∧ r = .pass s.passes.size ∧
        (s.perform a).cache r = .create s.picker shards false := by
  -- an action that takes no steps must leave a cache as it is, reports and all
  cases a with
  | create kind args =>
    refine Or.inl ?_
    rcases perform_create ha with heq | ⟨op, heq, -, -⟩
    · rw [heq]
      exact (h.quiet r).symm
    · rw [heq, cache_insert]
      exact (h.quiet r).symm
  | retain n =>
    have hcache : (s.retain n).cache r = s.cache r := by cases r <;> rfl
    exact Or.inl (hcache.trans (h.quiet r).symm)
  | release n =>
    refine Or.inl ?_
    obtain ⟨-, hdestruction⟩ := release_spec h.built h.tallied ha
    have hcache : (s.release n).cache r = ((s.destroyedBy n).foldl forget s).cache r := by
      rw [hdestruction.frame]
      cases r <;> rfl
    show (s.release n).cache r = _
    rw [hcache, cache_foldl_forget (h.quiet .shared), Session.steps]
    by_cases hr : r = .shared
    · rw [if_pos hr, if_pos hr, hr]
      rfl
    · rw [if_neg hr, if_neg hr]
      exact (h.quiet r).symm
  | compare ref x y =>
    refine Or.inl ?_
    by_cases hr : ref = r
    · subst hr
      exact (compare_episode h ha).1
    · show (s.putCache ref _).cache r = _
      rw [cache_putCache_of_ne hr, Session.steps, if_neg hr]
      exact (h.quiet r).symm
  | newCache shards =>
    have hcache := cache_newCache s shards r
    by_cases hr : r = .pass s.passes.size
    · rw [if_pos hr] at hcache
      exact Or.inr ⟨shards, rfl, hr, hcache⟩
    · rw [if_neg hr] at hcache
      exact Or.inl (hcache.trans (h.quiet r).symm)
  | clear ref =>
    refine Or.inl ?_
    by_cases hr : ref = r
    · subst hr
      rw [Session.steps, if_pos rfl]
      exact cache_putCache_self ha _
    · show (s.putCache ref _).cache r = _
      rw [cache_putCache_of_ne hr, Session.steps, if_neg hr]
      exact (h.quiet r).symm

/-- The actions that take steps on a cache. -/
theorem steps_cases (s : Session) (a : Action) (r : CacheRef) :
    (∃ x y, a = .compare r x y) ∨ (∃ n, a = .release n ∧ r = .shared) ∨ a = .clear r ∨
      s.steps a r = [] := by
  cases a with
  | compare ref x y =>
    by_cases hr : ref = r
    · exact Or.inl ⟨x, y, hr ▸ rfl⟩
    · exact Or.inr (Or.inr (Or.inr (if_neg hr)))
  | release n =>
    by_cases hr : r = .shared
    · exact Or.inr (Or.inl ⟨n, rfl, hr⟩)
    · exact Or.inr (Or.inr (Or.inr (if_neg hr)))
  | clear ref =>
    by_cases hr : ref = r
    · exact Or.inr (Or.inr (Or.inl (hr ▸ rfl)))
    · exact Or.inr (Or.inr (Or.inr (if_neg hr)))
  | _ => exact Or.inr (Or.inr (Or.inr rfl))

theorem steps_release (s : Session) (n : NodeId) :
    s.steps (.release n) .shared = (s.destroyedBy n).map .destroyed := by
  rw [Session.steps, if_pos rfl]

theorem steps_clear (s : Session) (r : CacheRef) :
    s.steps (.clear r) r = [.clear (s.cache r).size] := if_pos rfl

/-- An action that is no comparison on the cache only makes it forget. -/
theorem steps_forget {a : Action} {r : CacheRef} (ha : ∀ x y, a ≠ .compare r x y) :
    ∀ step ∈ s.steps a r, ¬ step.OfComparison := by
  intro step hstep
  rcases steps_cases s a r with ⟨x, y, rfl⟩ | ⟨n, rfl, rfl⟩ | rfl | hnone
  · exact absurd rfl (ha x y)
  · rw [steps_release] at hstep
    obtain ⟨m, -, rfl⟩ := List.mem_map.1 hstep
    exact not_false
  · rw [steps_clear, List.mem_singleton] at hstep
    rw [hstep]
    exact not_false
  · rw [hnone] at hstep
    exact absurd hstep List.not_mem_nil

/-- No action loses a cache or changes how shards are picked. -/
theorem perform_frame (h : Consistent H s) {a : Action} (ha : s.permits a) :
    (s.perform a).hasher = s.hasher ∧ (s.perform a).picker = s.picker ∧
      ∀ r, s.hasCache r → (s.perform a).hasCache r := by
  have hput : ∀ ref c, (s.putCache ref c).hasher = s.hasher ∧
      (s.putCache ref c).picker = s.picker ∧
      ∀ r, s.hasCache r → (s.putCache ref c).hasCache r := by
    intro ref c
    cases ref with
    | shared => exact ⟨rfl, rfl, fun r hr => hr⟩
    | pass i =>
      refine ⟨rfl, rfl, fun r hr => ?_⟩
      cases r with
      | shared => trivial
      | pass j =>
        show j < (s.passes.setIfInBounds i _).size
        rw [Array.size_setIfInBounds]
        exact hr
  cases a with
  | create kind args =>
    rcases perform_create ha with heq | ⟨op, heq, -, -⟩
    · rw [heq]
      exact ⟨rfl, rfl, fun r hr => hr⟩
    · rw [heq]
      exact ⟨rfl, rfl, fun r hr => hr⟩
  | retain n => exact ⟨rfl, rfl, fun r hr => hr⟩
  | release n =>
    obtain ⟨-, hdestruction⟩ := release_spec h.built h.tallied ha
    obtain ⟨shared, log, hfold⟩ := foldl_forget_eq s (s.destroyedBy n)
    have hframe := hdestruction.frame
    rw [hfold] at hframe
    have hperform : s.perform (.release n) = s.release n := rfl
    rw [hperform, hframe]
    exact ⟨rfl, rfl, fun r hr => hr⟩
  | compare ref x y => exact hput ref _
  | newCache shards =>
    refine ⟨rfl, rfl, fun r hr => ?_⟩
    cases r with
    | shared => trivial
    | pass i =>
      show i < (s.passes.push _).size
      rw [Array.size_push]
      exact Nat.lt_succ_of_lt hr
  | clear ref => exact hput ref _

/-- The graph stays as it is, or grows by a node over living nodes; the counts stay right. -/
theorem perform_graph (h : Consistent H s) {a : Action} (ha : s.permits a) :
    (s.perform a).Tallied [] ∧ ((s.perform a).graph = s.graph ∨ ∃ op : Operation,
      (s.perform a).graph = (s.graph.insert H op).2 ∧
      (∀ x ∈ op.arguments, x.WellFormed) ∧ ∀ c ∈ op.children, s.isAlive c = true) := by
  have hput : ∀ ref c, (s.putCache ref c).Tallied [] := by
    intro ref c
    cases ref <;> exact h.tallied.congr rfl rfl rfl
  cases a with
  | create kind args =>
    rcases perform_create ha with heq | ⟨op, heq, hw, hc⟩
    · rw [heq]
      exact ⟨h.tallied, Or.inl rfl⟩
    · rw [heq]
      refine ⟨h.tallied.insert hc, Or.inr ⟨op, ?_, hw, hc⟩⟩
      show (s.graph.insert s.hasher op).2 = _
      rw [h.hasher]
  | retain n => exact ⟨(h.tallied.retain ha).1, Or.inl rfl⟩
  | release n =>
    obtain ⟨htallied, hdestruction⟩ := release_spec h.built h.tallied ha
    exact ⟨htallied, Or.inl hdestruction.graph⟩
  | compare ref x y => exact ⟨hput ref _, Or.inl (graph_putCache s ref _)⟩
  | newCache shards => exact ⟨h.tallied.congr rfl rfl rfl, Or.inl rfl⟩
  | clear ref => exact ⟨hput ref _, Or.inl (graph_putCache s ref _)⟩

/-- **Outcomes stay right** on a graph that grows. -/
theorem sound_insert {g : Graph} (hg : g.Built H) {c : PairCache} (hc : g.Sound c)
    (op : Operation) : (g.insert H op).2.Sound c := by
  intro p outcome hfound
  obtain ⟨hlow, hhigh, hright⟩ := hc p outcome hfound
  rw [Graph.size_insert]
  refine ⟨Nat.lt_succ_of_lt hlow, Nat.lt_succ_of_lt hhigh, hright.trans ?_⟩
  exact (Graph.same_insert_iff hg op hlow hhigh).symm

/-- The outcomes after an action are right on the graph before it. -/
theorem sound_cache_perform (h : Consistent H s) {a : Action} (ha : s.permits a) (r : CacheRef) :
    s.graph.Sound ((s.perform a).cache r) := by
  rcases cache_perform h ha r with hcache | ⟨shards, -, -, hcache⟩
  · have hreplay : s.graph.Sound ((s.cache r).replay (s.steps a r)) := by
      by_cases hcompare : ∃ x y, a = .compare r x y
      · obtain ⟨x, y, rfl⟩ := hcompare
        refine (compare_episode h ha).2.sound h.built (fun u v huv => ?_) (h.sound r)
        exact ⟨h.tallied.lt_size huv.1, h.tallied.lt_size huv.2⟩
      · have hforget := steps_forget (s := s) fun x y hxy => hcompare ⟨x, y, hxy⟩
        exact fun p outcome hfound =>
          h.sound r p outcome (PairCache.lookup_of_forgetting hforget hfound)
    intro p outcome hfound
    rw [hcache] at hfound
    exact hreplay p outcome hfound
  · intro p outcome hfound
    rw [hcache, PairCache.lookup_create] at hfound
    cases hfound

theorem consistent_start (H : Hasher) (picker : ShardPicker) :
    Consistent H (Session.start H picker) where
  hasher := rfl
  built := Graph.built_empty H
  tallied := ⟨rfl, rfl, fun c => by simp [Session.start, places, living, Graph.empty, Graph.size]⟩
  quiet ref := by cases ref <;> rfl
  sound ref p outcome hfound := by
    cases ref <;> exact absurd hfound (by simp [cache, Session.start, PairCache.lookup_create])

/-- **Every permitted action keeps the invariant.** -/
theorem Consistent.perform (h : Consistent H s) {a : Action} (ha : s.permits a) :
    Consistent H (s.perform a) := by
  obtain ⟨htallied, hgraph⟩ := perform_graph h ha
  have hsound := sound_cache_perform h ha
  refine ⟨(perform_frame h ha).1.trans h.hasher, ?_, htallied, fun r => ?_, fun r => ?_⟩
  · rcases hgraph with hgraph | ⟨op, hgraph, hw, hc⟩
    · rw [hgraph]
      exact h.built
    · rw [hgraph]
      exact h.built.insert (fun c hmem => h.tallied.lt_size (hc c hmem)) hw
  · rcases cache_perform h ha r with hcache | ⟨shards, -, -, hcache⟩
    · rw [hcache]
      rfl
    · rw [hcache]
      rfl
  · rcases hgraph with hgraph | ⟨op, hgraph, -, -⟩
    · rw [hgraph]
      exact hsound r
    · rw [hgraph]
      exact sound_insert h.built (hsound r) op

end Actions

/-! ## Histories and caches -/

/-- **Each cache is what its history makes of a new one.** -/
structure Traced (picker : ShardPicker) (history : CacheRef → List CacheStep) (s : Session) :
    Prop where
  picker_eq : s.picker = picker
  cache : ∀ ref, ∃ shards, s.cache ref =
    ((PairCache.create picker shards ref.tracks).replay (history ref)).quiet
  unused : ∀ ref, ¬ s.hasCache ref → history ref = []
  proper : ∀ ref, ∀ step ∈ history ref, step.Proper ref.tracks

section Runs

variable {H : Hasher} {picker : ShardPicker} {history : CacheRef → List CacheStep} {s : Session}

theorem proper_steps (h : Consistent H s) {a : Action} (ha : s.permits a) (r : CacheRef) :
    ∀ step ∈ s.steps a r, step.Proper r.tracks := by
  intro step hstep
  rcases steps_cases s a r with ⟨x, y, rfl⟩ | ⟨n, rfl, rfl⟩ | rfl | hnone
  · exact (compare_episode h ha).2.proper r.tracks step hstep
  · rw [steps_release] at hstep
    obtain ⟨m, -, rfl⟩ := List.mem_map.1 hstep
    exact rfl
  · rw [steps_clear, List.mem_singleton] at hstep
    rw [hstep]
    trivial
  · rw [hnone] at hstep
    exact absurd hstep List.not_mem_nil

/-- An action takes no steps on a cache that does not exist. -/
theorem steps_of_not_hasCache {a : Action} (ha : s.permits a) {r : CacheRef}
    (hr : ¬ s.hasCache r) : s.steps a r = [] := by
  rcases steps_cases s a r with ⟨x, y, rfl⟩ | ⟨n, rfl, rfl⟩ | rfl | hnone
  · exact absurd ha.1 hr
  · exact absurd trivial hr
  · exact absurd ha hr
  · exact hnone

/-- The history goes on from the same new cache, or the cache is new itself. -/
theorem Traced.cache_perform (h : Consistent H s) (ht : Traced picker history s) {a : Action}
    (ha : s.permits a) (r : CacheRef) :
    (∀ shards, s.cache r = ((PairCache.create picker shards r.tracks).replay (history r)).quiet →
      (s.perform a).cache r =
        ((PairCache.create picker shards r.tracks).replay (history r ++ s.steps a r)).quiet) ∨
    (history r ++ s.steps a r = [] ∧
      ∃ shards, (s.perform a).cache r = .create picker shards r.tracks) := by
  rcases Session.cache_perform h ha r with hcache | ⟨shards, rfl, hr, hcache⟩
  · refine Or.inl fun shards hbefore => ?_
    rw [hcache, PairCache.replay_append, hbefore]
    exact (PairCache.quiet_replay _ _).symm
  · have hnew : ¬ s.hasCache r := by
      rw [hr]
      exact Nat.lt_irrefl _
    refine Or.inr ⟨?_, shards, ?_⟩
    · rw [ht.unused r hnew]
      rfl
    · rw [hcache, ht.picker_eq, hr]
      rfl

theorem Traced.perform (h : Consistent H s) (ht : Traced picker history s) {a : Action}
    (ha : s.permits a) :
    Traced picker (fun ref => history ref ++ s.steps a ref) (s.perform a) := by
  obtain ⟨-, hpicker, hkept⟩ := perform_frame h ha
  refine ⟨hpicker.trans ht.picker_eq, fun r => ?_, fun r hr => ?_, fun r => ?_⟩
  · rcases ht.cache_perform h ha r with hgoes | ⟨hnone, shards, hcache⟩
    · obtain ⟨shards, hbefore⟩ := ht.cache r
      exact ⟨shards, hgoes shards hbefore⟩
    · refine ⟨shards, ?_⟩
      rw [hcache, hnone]
      rfl
  · have hbefore : ¬ s.hasCache r := fun hbefore => hr (hkept r hbefore)
    rw [ht.unused r hbefore, steps_of_not_hasCache ha hbefore]
    rfl
  · exact List.forall_mem_append.2 ⟨ht.proper r, proper_steps h ha r⟩

/-- **Every run** satisfies both invariants. -/
theorem Run.invariant (h : Run H picker history s) :
    Consistent H s ∧ Traced picker history s := by
  induction h with
  | start =>
    refine ⟨consistent_start H picker, rfl, fun r => ⟨PairCache.standardShards, ?_⟩,
      fun r _ => rfl, fun r step hstep => absurd hstep List.not_mem_nil⟩
    cases r <;> rfl
  | perform a _ ha ih => exact ⟨ih.1.perform ha, ih.2.perform ih.1 ha⟩

/-- A cache in a run keeps the survivors of its history. -/
theorem Traced.keeps (ht : Traced picker history s) (r : CacheRef) :
    Keeps (s.cache r) (survivors (history r)) ∧ (s.cache r).tracksLifetimes = r.tracks := by
  obtain ⟨shards, hcache⟩ := ht.cache r
  obtain ⟨hkeeps, htracks⟩ := (keeps_create picker shards r.tracks).replay (ht.proper r)
  rw [hcache]
  exact ⟨hkeeps.quiet, htracks⟩

/-! ## Destroyed nodes -/

/-- A node that an action destroys was alive, and the action is a drop. -/
theorem isAlive_of_destroyed (h : Consistent H s) {a : Action} (ha : s.permits a) {n : NodeId}
    (hn : .destroyed n ∈ s.steps a .shared) : s.isAlive n = true := by
  rcases steps_cases s a .shared with ⟨x, y, rfl⟩ | ⟨m, rfl, -⟩ | rfl | hnone
  · exact ((compare_episode h ha).2.ofComparison _ hn).elim
  · rw [steps_release] at hn
    obtain ⟨k, hk, hkn⟩ := List.mem_map.1 hn
    cases hkn
    exact (release_spec h.built h.tallied ha).2.wasAlive n hk
  · rw [steps_clear, List.mem_singleton] at hn
    cases hn
  · rw [hnone] at hn
    exact absurd hn List.not_mem_nil

/-- Only drops destroy. -/
theorem not_destroyed (h : Consistent H s) {a : Action} (ha : s.permits a)
    (hrelease : ∀ m, a ≠ .release m) (n : NodeId) : .destroyed n ∉ s.steps a .shared := by
  intro hmem
  rcases steps_cases s a .shared with ⟨x, y, rfl⟩ | ⟨m, rfl, -⟩ | rfl | hnone
  · exact (compare_episode h ha).2.ofComparison _ hmem
  · exact hrelease m rfl
  · rw [steps_clear, List.mem_singleton] at hmem
    cases hmem
  · rw [hnone] at hmem
    exact absurd hmem List.not_mem_nil

/-- **What an action does to the living**: some are destroyed, and whatever is new is alive. -/
theorem isAlive_perform (h : Consistent H s) {a : Action} (ha : s.permits a) (n : NodeId) :
    s.graph.size ≤ (s.perform a).graph.size ∧ ((s.perform a).isAlive n = true ↔
      (s.isAlive n = true ∧ .destroyed n ∉ s.steps a .shared) ∨
        (s.graph.size ≤ n ∧ n < (s.perform a).graph.size)) := by
  have hnew : ¬ (s.graph.size ≤ n ∧ n < s.graph.size) := fun hn => Nat.not_lt.2 hn.1 hn.2
  have hsame : (∀ m, a ≠ .release m) → (s.perform a).graph = s.graph →
      (s.perform a).isAlive n = s.isAlive n → s.graph.size ≤ (s.perform a).graph.size ∧
        ((s.perform a).isAlive n = true ↔ (s.isAlive n = true ∧ .destroyed n ∉ s.steps a .shared) ∨
          (s.graph.size ≤ n ∧ n < (s.perform a).graph.size)) := by
    intro hrelease hgraph halive
    rw [hgraph, halive, or_iff_left hnew, and_iff_left (not_destroyed h ha hrelease n)]
    exact ⟨Nat.le_refl _, Iff.rfl⟩
  have hput : ∀ ref c, (s.putCache ref c).isAlive n = s.isAlive n := fun ref c => by
    cases ref <;> rfl
  cases a with
  | create kind args =>
    rcases perform_create ha with heq | ⟨op, heq, -, hc⟩
    · exact hsame (fun m => Action.noConfusion) (congrArg graph heq)
        (congrArg (isAlive · n) heq)
    · have hsize : (s.insert op).2.graph.size = s.graph.size + 1 :=
        Graph.size_insert s.hasher s.graph op
      rw [heq, hsize, isAlive_insert h.tallied hc n,
        and_iff_left (not_destroyed h ha (fun m => Action.noConfusion) n)]
      refine ⟨Nat.le_succ _, or_congr_right ⟨fun hn => ?_, fun hn => ?_⟩⟩
      · rw [hn]
        exact ⟨Nat.le_refl _, Nat.lt_succ_self _⟩
      · exact Nat.le_antisymm (Nat.lt_succ_iff.1 hn.2) hn.1
  | release m =>
    obtain ⟨-, hdestruction⟩ := release_spec h.built h.tallied ha
    have hgraph : (s.perform (.release m)).graph = s.graph := hdestruction.graph
    rw [hgraph, or_iff_left hnew, steps_release]
    refine ⟨Nat.le_refl _, (hdestruction.isAlive n).trans (and_congr_right fun _ => not_congr ?_)⟩
    rw [List.mem_map]
    exact ⟨fun hn => ⟨n, hn, rfl⟩, fun ⟨k, hk, hkn⟩ => by cases hkn; exact hk⟩
  | retain m => exact hsame (fun m => Action.noConfusion) rfl ((h.tallied.retain ha).2 n)
  | compare ref x y =>
    exact hsame (fun m => Action.noConfusion) (graph_putCache s ref _) (hput ref _)
  | newCache shards => exact hsame (fun m => Action.noConfusion) rfl rfl
  | clear ref =>
    exact hsame (fun m => Action.noConfusion) (graph_putCache s ref _) (hput ref _)

/-- **The history of the shared cache names the dead.** -/
theorem Run.destroyed_iff (h : Run H picker history s) (n : NodeId) :
    .destroyed n ∈ history .shared ↔ n < s.graph.size ∧ s.isAlive n = false := by
  induction h with
  | start => exact ⟨fun hn => absurd hn List.not_mem_nil, fun hn => absurd hn.1 (Nat.not_lt_zero n)⟩
  | @perform history s a hrun ha ih =>
    -- the dead stay dead, the destroyed join them, and what is new is alive
    have hs := hrun.invariant.1
    obtain ⟨hsize, halive⟩ := isAlive_perform hs ha n
    rw [List.mem_append, ih, ← Bool.not_eq_true ((s.perform a).isAlive n), halive]
    constructor
    · rintro (⟨hlt, hdead⟩ | hn)
      · refine ⟨Nat.lt_of_lt_of_le hlt hsize, ?_⟩
        rintro (⟨halive, -⟩ | hnew)
        · exact Bool.false_ne_true (hdead.symm.trans halive)
        · exact Nat.not_lt.2 hnew.1 hlt
      · have hlt := hs.tallied.lt_size (isAlive_of_destroyed hs ha hn)
        refine ⟨Nat.lt_of_lt_of_le hlt hsize, ?_⟩
        rintro (⟨-, hnot⟩ | hnew)
        · exact hnot hn
        · exact Nat.not_lt.2 hnew.1 hlt
    · rintro ⟨hlt, hnot⟩
      rw [not_or, not_and, not_and, not_not] at hnot
      have hlt : n < s.graph.size := Nat.lt_of_not_le fun hle => hnot.2 hle hlt
      cases hn : s.isAlive n with
      | true => exact Or.inr (hnot.1 hn)
      | false => exact Or.inl ⟨hlt, rfl⟩

/-- What is stored last is found. -/
theorem Run.lookup_of_last (h : Run H picker history s) (ref : CacheRef) (steps : List CacheStep)
    {a b : NodeId} {outcome : Bool} (hlast : history ref = steps ++ [.store a b outcome]) :
    (s.cache ref).lookup (.of a b) = some outcome := by
  obtain ⟨shards, hcache⟩ := h.invariant.2.cache ref
  rw [hcache, hlast, PairCache.lookup_quiet, PairCache.replay_concat]
  exact (PairCache.lookup_store _ a b outcome (.of a b)).trans (if_pos rfl)

end Runs

/-! ## A run to look at -/

/-- Two lists, of one empty list each, which nobody else holds. -/
def nestedLists : List Action :=
  [.create .list [], .create .list [], .create .list [.node 0], .create .list [.node 1],
    .release 0, .release 1]

/-- The two lists, compared through the shared cache. -/
def nestedTwins : List Action := nestedLists ++ [.compare .shared (.node 2) (.node 3)]

/-- The histories of that run, and the session at its end. -/
def nestedRun : (CacheRef → List CacheStep) × Session := play .mixing .standard nestedTwins

theorem run_nestedRun : Run .mixing .standard nestedRun.1 nestedRun.2 := by
  refine run_play ?_
  simp only [nestedTwins, nestedLists, List.cons_append, List.nil_append, PermitsAll, permits,
    Usable, Argument.WellFormed, Argument.nodes, List.not_mem_nil, List.mem_singleton, forall_eq,
    false_imp_iff, implies_true, true_and, and_true]
  exact ⟨rfl, rfl, Nat.one_pos, Nat.one_pos, trivial, rfl, rfl⟩

theorem reachable_nestedRun : Reachable .mixing .standard nestedRun.2 :=
  reachable_iff_run.2 ⟨_, run_nestedRun⟩

/-- The inner comparison is missed and stored inside the outer one. -/
theorem history_nestedRun : nestedRun.1 .shared =
    [.miss (.of 2 3), .miss (.of 0 1), .store 0 1 true, .store 2 3 true] := by
  let s := (play .mixing .standard nestedLists).2
  have hkind : s.graph.kind 0 ≠ .sealed := by decide
  have hleaf : PairCache.recordContentsM s.graph 0 1 = pure true :=
    PairCache.recordContentsM_of_ne_sealed hkind
  exact PairCache.record_of_single_leaf (g := s.graph) (a := 2) (b := 3) (by decide) ⟨rfl, rfl⟩
    (by decide) rfl rfl (by decide) (by decide) ⟨rfl, rfl⟩ hleaf (PairCache.lookup_create _ _ _)

/-- The pair of the lists is stored. -/
theorem lookup_nestedRun : (nestedRun.2.cache .shared).lookup (.of 2 3) = some true :=
  run_nestedRun.lookup_of_last .shared [.miss (.of 2 3), .miss (.of 0 1), .store 0 1 true]
    history_nestedRun

end Session

end ExprGraph
