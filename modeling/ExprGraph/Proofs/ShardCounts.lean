/-
  Shard counts — runs that differ in nothing but the shards of their caches.

  Whoever makes a cache asks for a number of shards, and how a shard is picked is decided when the
  session starts.  Both are about speed alone: a run with other shards is to show the same nodes,
  the same log, and the same answers and counters of every cache, at every moment.

  1. **Runs** — `Session.startWith` starts with any number of shards in the shared cache, and
     `Action.Resharded` are the same action but for the number of shards of a new cache.

  2. **Invariant** — `Session.Resharded`: the sessions have the same nodes, holds and log, and under
     each name a cache that splits one cache in one piece.  Every action keeps it
     (`Resharded.perform`), and sessions that it holds of look alike (`Resharded.seenAlike`).

  3. **Result** — any calls of a cache are answered as by one in one piece, and any run goes as it
     would with other shards.
-/
import ExprGraph.Proofs.Isolation
import ExprGraph.Proofs.Sharding

namespace ExprGraph

/-- **The same action**, but for the number of shards of a new cache. -/
inductive Action.Resharded : Action → Action → Prop where
  | same (a : Action) : Resharded a a
  | newCache (shards shards' : Nat) : Resharded (.newCache shards) (.newCache shards')

namespace PairCache

variable {picker picker' : ShardPicker} {c d : PairCache}

/-- **Two caches that split one** in one piece. -/
def Resplit (picker picker' : ShardPicker) (c d : PairCache) : Prop :=
  ∃ count count' u, c.Splits picker count u ∧ d.Splits picker' count' u

theorem resplit_create (picker picker' : ShardPicker) (shards shards' : Nat) (tracks : Bool) :
    Resplit picker picker' (.create picker shards tracks) (.create picker' shards' tracks) :=
  ⟨_, _, _, .create picker shards tracks, .create picker' shards' tracks⟩

namespace Resplit

/-- What keeps both splittings keeps the caches split. -/
theorem map (h : Resplit picker picker' c d) {f : PairCache → PairCache}
    {k : WholeCache → WholeCache}
    (hf : ∀ {picker count c u}, Splits picker count c u → Splits picker count (f c) (k u)) :
    Resplit picker picker' (f c) (f d) := by
  obtain ⟨count, count', u, hc, hd⟩ := h
  exact ⟨count, count', k u, hf hc, hf hd⟩

theorem quiet (h : Resplit picker picker' c d) : Resplit picker picker' c.quiet d.quiet :=
  h.map (k := fun u => { u with events := #[] }) fun h => { h with events := rfl }

theorem nodeDestroyed (h : Resplit picker picker' c d) (n : NodeId) :
    Resplit picker picker' (c.nodeDestroyed n) (d.nodeDestroyed n) :=
  h.map fun h => h.nodeDestroyed n

theorem clear (h : Resplit picker picker' c d) : Resplit picker picker' c.clear d.clear :=
  h.map Splits.clear

theorem events_eq (h : Resplit picker picker' c d) : d.events = c.events := by
  obtain ⟨_, _, u, hc, hd⟩ := h
  exact hd.events.trans hc.events.symm

/-- **A comparison** says the same through both caches, and leaves caches that split one. -/
theorem compare (h : Resplit picker picker' c d) (g : Graph) (x y : Argument) :
    ((argumentsEqualM g x y).run d).1 = ((argumentsEqualM g x y).run c).1 ∧
      Resplit picker picker' ((argumentsEqualM g x y).run c).2
        ((argumentsEqualM g x y).run d).2 := by
  obtain ⟨count, count', u, hc, hd⟩ := h
  obtain ⟨hanswer, hafter⟩ := argumentsEqualM_mirrors g x y c u hc
  obtain ⟨hanswer', hafter'⟩ := argumentsEqualM_mirrors g x y d u hd
  exact ⟨hanswer'.trans hanswer.symm, count, count', _, hafter, hafter'⟩

end Resplit

end PairCache

namespace Session

variable {s t : Session} {H : Hasher} {picker picker' : ShardPicker}

/-- An empty session, the shared cache of which has at least so many shards. -/
def startWith (H : Hasher) (picker : ShardPicker) (shards : Nat) : Session :=
  { start H picker with shared := .create picker shards true }

/-- **Two sessions that differ in the shards of their caches** and in nothing else. -/
structure Resharded (s t : Session) : Prop where
  hasher : t.hasher = s.hasher
  graph : t.graph = s.graph
  held : t.held = s.held
  uses : t.uses = s.uses
  passes : t.passes.size = s.passes.size
  log : t.log = s.log
  caches : ∀ ref, PairCache.Resplit s.picker t.picker (s.cache ref) (t.cache ref)

/-- **Two sessions in which the same is seen**: nodes, holds, log, what is permitted, and of every
    cache the outcomes, the counters and the answers. -/
structure SeenAlike (s t : Session) : Prop where
  graph : t.graph = s.graph
  held : t.held = s.held
  isAlive : ∀ n, t.isAlive n = s.isAlive n
  log : t.log = s.log
  permits : ∀ a, t.permits a ↔ s.permits a
  cached : ∀ ref a b, (t.cache ref).cached a b = (s.cache ref).cached a b
  size : ∀ ref, (t.cache ref).size = (s.cache ref).size
  isEmpty : ∀ ref, (t.cache ref).isEmpty = (s.cache ref).isEmpty
  stats : ∀ ref, (t.cache ref).stats = (s.cache ref).stats
  answer : ∀ a, t.answer a = s.answer a

theorem resharded_start (H : Hasher) (picker picker' : ShardPicker) (shards shards' : Nat) :
    (startWith H picker shards).Resharded (startWith H picker' shards') where
  hasher := rfl
  graph := rfl
  held := rfl
  uses := rfl
  passes := rfl
  log := rfl
  caches ref := by
    cases ref with
    | shared => exact PairCache.resplit_create picker picker' shards shards' true
    | pass i => exact PairCache.resplit_create picker picker' _ _ false

namespace Resharded

/-! ### Caches -/

/-- Caches that split one are put back under one name. -/
theorem putCache (h : s.Resharded t) {c d : PairCache}
    (hcd : PairCache.Resplit s.picker t.picker c d) (ref : CacheRef) :
    (s.putCache ref c).Resharded (t.putCache ref d) := by
  have hcaches : ∀ r, PairCache.Resplit s.picker t.picker ((s.putCache ref c).cache r)
      ((t.putCache ref d).cache r) := by
    intro r
    have hnames := hasCache_congr h.passes ref
    by_cases hr : ref = r
    · subst hr
      by_cases href : s.hasCache ref
      · rw [cache_putCache_self href, cache_putCache_self (hnames.2 href)]
        exact hcd.quiet
      · -- neither session has a cache of that name, and none is made
        rw [cache_putCache_of_not_hasCache href,
          cache_putCache_of_not_hasCache (mt hnames.1 href)]
        exact h.caches ref
    · rw [cache_putCache_of_ne hr, cache_putCache_of_ne hr]
      exact h.caches r
  have hlog : t.log ++ d.events = s.log ++ c.events := by rw [h.log, hcd.events_eq]
  cases ref with
  | shared => exact ⟨h.hasher, h.graph, h.held, h.uses, h.passes, hlog, hcaches⟩
  | pass i =>
    refine ⟨h.hasher, h.graph, h.held, h.uses, ?_, hlog, hcaches⟩
    show (t.passes.setIfInBounds i _).size = (s.passes.setIfInBounds i _).size
    rw [Array.size_setIfInBounds, Array.size_setIfInBounds, h.passes]

/-- **A comparison** through a cache says the same, and keeps the sessions alike. -/
theorem compare (h : s.Resharded t) (ref : CacheRef) (x y : Argument) :
    (t.onCache ref (PairCache.argumentsEqualM t.graph x y)).1 =
        (s.onCache ref (PairCache.argumentsEqualM s.graph x y)).1 ∧
      (s.onCache ref (PairCache.argumentsEqualM s.graph x y)).2.Resharded
        (t.onCache ref (PairCache.argumentsEqualM t.graph x y)).2 := by
  rw [h.graph]
  obtain ⟨hanswer, hafter⟩ := (h.caches ref).compare s.graph x y
  exact ⟨hanswer, h.putCache hafter ref⟩

theorem newCache (h : s.Resharded t) (shards shards' : Nat) :
    (s.newCache shards).2.Resharded (t.newCache shards').2 where
  hasher := h.hasher
  graph := h.graph
  held := h.held
  uses := h.uses
  passes := by
    show (t.passes.push _).size = (s.passes.push _).size
    rw [Array.size_push, Array.size_push, h.passes]
  log := h.log
  caches r := by
    rw [cache_newCache, cache_newCache, h.passes]
    split
    · exact PairCache.resplit_create _ _ _ _ _
    · exact h.caches r

/-! ### Nodes -/

theorem insert (h : s.Resharded t) (op : Operation) :
    (s.insert op).2.Resharded (t.insert op).2 where
  hasher := h.hasher
  graph := by
    show (t.graph.insert t.hasher op).2 = (s.graph.insert s.hasher op).2
    rw [h.graph, h.hasher]
  held := congrArg (·.push 1) h.held
  uses := by
    show (op.children.foldl _ t.uses).push 0 = (op.children.foldl _ s.uses).push 0
    rw [h.uses]
  passes := h.passes
  log := h.log
  caches r := by
    rw [cache_insert, cache_insert]
    exact h.caches r

/-- Such sessions destroy the same nodes. -/
theorem inStep : InStep Resharded where
  graph := Resharded.graph
  held := Resharded.held
  uses := Resharded.uses
  passes := Resharded.passes
  recount h hheld huses :=
    { h with
      held := hheld
      uses := huses
      caches := fun ref => by
        have hcaches := h.caches ref
        cases ref <;> exact hcaches }
  forget n h := h.putCache ((h.caches .shared).nodeDestroyed n) .shared

/-! ### Runs -/

/-- **An action**, and the same one with other shards, keep sessions alike. -/
theorem perform (h : s.Resharded t) {a b : Action} (hab : a.Resharded b) :
    (s.perform a).Resharded (t.perform b) := by
  cases hab with
  | newCache shards shards' => exact h.newCache shards shards'
  | same =>
    cases a with
    | create kind args =>
      rw [Session.perform, Session.perform, build, build, h.graph]
      cases Operation.ofArguments s.graph kind args with
      | error e => exact h
      | ok op => exact h.insert op
    | retain n => exact inStep.retain h n
    | release n => exact inStep.release h n
    | compare r x y => exact (h.compare r x y).2
    | newCache shards => exact h.newCache shards shards
    | clear r => exact h.putCache (h.caches r).clear r

theorem permits (h : s.Resharded t) {a b : Action} (hab : a.Resharded b) :
    t.permits b ↔ s.permits a := by
  cases hab with
  | newCache shards shards' => exact Iff.rfl
  | same => exact inStep.permits h a

/-- **Runs with other shards** are permitted alike, and keep sessions alike. -/
theorem performAll (h : s.Resharded t) {actions actions' : List Action}
    (hactions : List.Forall₂ Action.Resharded actions actions') :
    (t.PermitsAll actions' ↔ s.PermitsAll actions) ∧
      (s.performAll actions).Resharded (t.performAll actions') := by
  induction hactions generalizing s t with
  | nil => exact ⟨Iff.rfl, h⟩
  | cons hab _ ih =>
    obtain ⟨hpermits, hend⟩ := ih (h.perform hab)
    exact ⟨and_congr (h.permits hab) hpermits, hend⟩

/-- **Sessions that differ in shards look alike.** -/
theorem seenAlike (h : s.Resharded t) : s.SeenAlike t where
  graph := h.graph
  held := h.held
  isAlive n := inStep.isAlive h n
  log := h.log
  permits a := inStep.permits h a
  cached ref a b := by
    obtain ⟨_, _, u, hs, ht⟩ := h.caches ref
    exact (ht.lookup_eq _).trans (hs.lookup_eq _).symm
  size ref := by
    obtain ⟨_, _, u, hs, ht⟩ := h.caches ref
    exact ht.size_eq.trans hs.size_eq.symm
  isEmpty ref := by
    obtain ⟨_, _, u, hs, ht⟩ := h.caches ref
    exact ht.isEmpty_eq.trans hs.isEmpty_eq.symm
  stats ref := by
    obtain ⟨_, _, u, hs, ht⟩ := h.caches ref
    exact ht.stats_eq.trans hs.stats_eq.symm
  answer a := by
    cases a with
    | compare ref x y => exact congrArg some (h.compare ref x y).1
    | _ => rfl

end Resharded

/-- **Shards are invisible.**  However many shards a cache has, and however they are picked for
    pairs and for nodes, any calls are answered as by the cache in one piece; afterwards every key
    is in the shard that is picked for it and in no other, and together the shards hold what that
    cache holds.  And any run goes as it goes with other shards, in the shared cache and in those of
    the passes: the same actions are permitted, and at its end the same nodes are alive, the same
    log is written, and every cache has the same outcomes, the same counters and the same answers.

    That is for any numbers of shards.  A machine that counts in words of 64 bits makes them for
    requests of up to 2^63 (`Sharded.shardCount_lt`); a cache for more is one of the model only. -/
theorem shards_invisible (H : Hasher) (picker picker' : ShardPicker) :
    (∀ shards tracks calls,
      (callAll PairCache.call (.create picker shards tracks) calls).1 =
        (callAll WholeCache.call (.create tracks) calls).1 ∧
      (callAll PairCache.call (.create picker shards tracks) calls).2.Splits picker
        (Sharded.shardCount shards) (callAll WholeCache.call (.create tracks) calls).2) ∧
    ∀ shards shards' actions actions', List.Forall₂ Action.Resharded actions actions' →
      ((startWith H picker' shards').PermitsAll actions' ↔
        (startWith H picker shards).PermitsAll actions) ∧
      ((startWith H picker shards).performAll actions).SeenAlike
        ((startWith H picker' shards').performAll actions') := by
  refine ⟨fun shards tracks calls => (PairCache.Splits.create picker shards tracks).callAll calls,
    fun shards shards' actions actions' hactions => ?_⟩
  obtain ⟨hpermits, hend⟩ := (resharded_start H picker picker' shards shards').performAll hactions
  exact ⟨hpermits, hend.seenAlike⟩

/-! ### Runs to look at -/

/-- One word for all pairs and all nodes, so that all but one of the shards stay empty. -/
def crowdedPicker : ShardPicker := ⟨fun _ => 7, fun _ => 7⟩

/-- The two nested lists, compared through a cache with so many shards. -/
def nestedThrough (shards : Nat) : List Action :=
  nestedLists ++ [.newCache shards, .compare (.pass 0) (.node 2) (.node 3)]

/-- A cache of four shards, and one of sixty-four that are not made use of. -/
theorem shards_invisible_nestedThrough :
    startWith .mixing .standard PairCache.standardShards = start .mixing .standard ∧
    (startWith .mixing .standard PairCache.standardShards).PermitsAll (nestedThrough 4) ∧
    (startWith .mixing crowdedPicker 1).PermitsAll (nestedThrough 64) ∧
    ((startWith .mixing .standard PairCache.standardShards).performAll (nestedThrough 4)).SeenAlike
      ((startWith .mixing crowdedPicker 1).performAll (nestedThrough 64)) := by
  have hlists : List.Forall₂ Action.Resharded nestedLists nestedLists :=
    List.forall₂_same.2 fun a _ => .same a
  have hactions : List.Forall₂ Action.Resharded (nestedThrough 4) (nestedThrough 64) :=
    List.rel_append hlists (.cons (.newCache 4 64) (.cons (.same _) .nil))
  obtain ⟨-, hruns⟩ := shards_invisible .mixing .standard crowdedPicker
  obtain ⟨hpermits, hseen⟩ := hruns PairCache.standardShards 1 _ _ hactions
  have hleft : (start .mixing .standard).PermitsAll (nestedThrough 4) := by
    simp only [nestedThrough, nestedLists, List.cons_append, List.nil_append, PermitsAll, permits,
      Usable, hasCache, Argument.WellFormed, Argument.nodes, List.not_mem_nil, List.mem_singleton,
      forall_eq, false_imp_iff, implies_true, true_and, and_true]
    exact ⟨rfl, rfl, Nat.one_pos, Nat.one_pos, Nat.one_pos, rfl, rfl⟩
  exact ⟨rfl, hleft, hpermits.2 hleft, hseen⟩

end Session

end ExprGraph
