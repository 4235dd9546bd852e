/-
  Sharding — a cache in shards, and a cache in one piece.

  The maps of a cache are kept in shards, so that few have to wait for one another.  A key is
  written and looked up in one shard only, the sizes are added up over all of them, and a pair of
  nodes and the partner lists of the two live in shards of two different arrays.  A key that was
  ever written to one shard and looked up in another would be lost, and only for some ways to pick
  shards.

  1. **Specification** — `WholeCache` is a cache with one map of outcomes and one of partner lists.
     There are no shards in it, and no words to pick them by.

  2. **Invariant** — `Sharded.Splits pick count s m`: there are `count` shards, every key in a shard
     is one that is picked for it, and together they hold what the map `m` holds.  Every write keeps
     it.  `PairCache.Splits` is that for both maps of a cache, all else being equal.

  3. **Result** — one call of a cache keeps the invariant and says what the cache in one piece says
     (`PairCache.Splits.call`), comparisons included (`PairCache.equalM_mirrors`); and so do any
     calls in any order (`PairCache.Splits.callAll`), with the shards picked in any way.
-/
import ExprGraph.Proofs.Traversal
import ExprGraph.PairCache.Comparison

namespace ExprGraph

/-! ## Maps -/

namespace Sharded

variable {κ β : Type} [DecidableEq κ] [Hashable κ] {pick : κ → UInt64} {count : Nat}
  {s : Sharded κ β} {m : Std.HashMap κ β}

/-- **The shards split the map**: each key is in the shard that is picked for it and in no other,
    and what is found under it is what is found in the map. -/
structure Splits (pick : κ → UInt64) (count : Nat) (s : Sharded κ β) (m : Std.HashMap κ β) :
    Prop where
  pick_eq : s.pick = pick
  count_eq : s.shards.size = count
  placed : ∀ (i : Nat) (h : i < s.shards.size), ∀ k ∈ s.shards[i], (pick k).toNat % count = i
  get?_eq : ∀ k, s.get? k = m[k]?
  size_eq : s.size = m.size

/-- An erasure takes a key away, if it was there. -/
theorem size_erase (s : Sharded κ β) (key : κ) :
    (s.erase key).size = if s.contains key then s.size - 1 else s.size := by
  split
  · rename_i h
    have := s.size_erase_of_contains h
    omega
  · rename_i h
    have hupdate := s.size_update key fun shard => shard.erase key
    rw [contains, ← Std.HashMap.mem_iff_contains] at h
    rw [Std.HashMap.size_erase, if_neg h] at hupdate
    simp only [erase]
    omega

/-- No shard holds a key exactly if there are no keys to count. -/
theorem isEmpty_iff (s : Sharded κ β) : s.isEmpty = true ↔ s.size = 0 := by
  rw [isEmpty, Array.all_eq_true_iff_forall_mem]
  constructor
  · intro h
    refine s.size_eq_zero_of_shards fun shard hshard => ?_
    have hempty := h shard hshard
    rwa [Std.HashMap.isEmpty_eq_size_eq_zero, beq_iff_eq] at hempty
  · intro h shard hshard
    rw [size_eq_total] at h
    have hzero : ∀ l : List (Std.HashMap κ β), total l = 0 → ∀ shard ∈ l, shard.size = 0 := by
      intro l
      induction l with
      | nil => exact fun _ shard hshard => absurd hshard List.not_mem_nil
      | cons first rest ih =>
        intro hl
        rw [total, Nat.add_eq_zero_iff] at hl
        exact List.forall_mem_cons.2 ⟨hl.1, ih hl.2⟩
    rw [Std.HashMap.isEmpty_eq_size_eq_zero, beq_iff_eq]
    exact hzero _ h shard (Array.mem_toList_iff.2 hshard)

namespace Splits

theorem contains_eq (h : Splits pick count s m) (k : κ) : s.contains k = m.contains k := by
  rw [contains_eq_isSome_get?, h.get?_eq, Std.HashMap.isSome_getElem?_eq_contains]

theorem isEmpty_eq (h : Splits pick count s m) : s.isEmpty = m.isEmpty := by
  rw [Bool.eq_iff_iff, s.isEmpty_iff, h.size_eq, Std.HashMap.isEmpty_eq_size_eq_zero, beq_iff_eq]

/-- The shard of a key, by the number that is picked for it. -/
theorem index_eq (h : Splits pick count s m) (k : κ) : s.index k = (pick k).toNat % count := by
  rw [index_eq_mod, h.pick_eq, h.count_eq]

/-- **An update puts no key into a wrong shard**, if it adds only its own key. -/
theorem placed_update (h : Splits pick count s m) {key : κ}
    {f : Std.HashMap κ β → Std.HashMap κ β} (hf : ∀ shard, ∀ k ∈ f shard, k = key ∨ k ∈ shard)
    (i : Nat) (hi : i < (s.update key f).shards.size) (k : κ)
    (hk : k ∈ (s.update key f).shards[i]) : (pick k).toNat % count = i := by
  simp only [update, Array.size_modify] at hi
  simp only [update, Array.getElem_modify] at hk
  split at hk
  · rename_i hindex
    rcases hf _ k hk with rfl | hmem
    · rw [← h.index_eq, hindex]
    · exact h.placed i hi k hmem
  · exact h.placed i hi k hk

theorem create (pick : κ → UInt64) (requested : Nat) :
    Splits pick (shardCount requested) (.create pick requested) (∅ : Std.HashMap κ β) where
  pick_eq := rfl
  count_eq := Array.size_replicate
  placed i hi k hk := by
    simp only [Sharded.create, Array.getElem_replicate] at hk
    exact absurd hk Std.HashMap.not_mem_empty
  get?_eq k := by rw [get?_create, Std.HashMap.getElem?_empty]
  size_eq := size_create pick requested

theorem insert (h : Splits pick count s m) (key : κ) (value : β) :
    Splits pick count (s.insert key value) (m.insert key value) where
  pick_eq := h.pick_eq
  count_eq := Array.size_modify.trans h.count_eq
  placed := h.placed_update fun shard k hk => by
    rw [Std.HashMap.mem_insert, beq_iff_eq] at hk
    exact hk.imp_left Eq.symm
  get?_eq k := by
    rw [get?_insert, h.get?_eq, Std.HashMap.getElem?_insert]
    simp only [beq_iff_eq]
  size_eq := by
    rw [size_insert, h.contains_eq, h.size_eq, Std.HashMap.size_insert]
    simp only [Std.HashMap.mem_iff_contains]

theorem erase (h : Splits pick count s m) (key : κ) :
    Splits pick count (s.erase key) (m.erase key) where
  pick_eq := h.pick_eq
  count_eq := Array.size_modify.trans h.count_eq
  placed := h.placed_update fun shard k hk => Or.inr (Std.HashMap.mem_of_mem_erase hk)
  get?_eq k := by
    rw [get?_erase, h.get?_eq, Std.HashMap.getElem?_erase]
    simp only [beq_iff_eq]
  size_eq := by
    rw [size_erase, h.contains_eq, h.size_eq, Std.HashMap.size_erase]
    simp only [Std.HashMap.mem_iff_contains]

theorem clear (h : Splits pick count s m) : Splits pick count s.clear (∅ : Std.HashMap κ β) where
  pick_eq := h.pick_eq
  count_eq := Array.size_map.trans h.count_eq
  placed i hi k hk := by
    simp only [Sharded.clear, Array.getElem_map] at hk
    exact absurd hk Std.HashMap.not_mem_empty
  get?_eq k := by rw [get?_clear, Std.HashMap.getElem?_empty]
  size_eq := s.size_clear

end Splits

end Sharded

/-! ## Caches -/

/-- **A cache in one piece**, without shards. -/
structure WholeCache where
  outcomes : Std.HashMap Pair Bool
  partners : Std.HashMap NodeId (List NodeId)
  tracksLifetimes : Bool
  marked : Std.HashSet NodeId
  hits : Nat
  misses : Nat
  evictions : Nat
  events : Array Event

namespace WholeCache

def create (tracksLifetimes : Bool) : WholeCache where
  outcomes := ∅
  partners := ∅
  tracksLifetimes := tracksLifetimes
  marked := ∅
  hits := 0
  misses := 0
  evictions := 0
  events := #[]

def stats (u : WholeCache) : CacheStats := ⟨u.hits, u.misses, u.evictions, u.outcomes.size⟩

def noteHit (u : WholeCache) (pair : Pair) : WholeCache :=
  { u with hits := u.hits + 1, events := u.events.push (.hit pair) }

def noteMiss (u : WholeCache) (pair : Pair) : WholeCache :=
  { u with misses := u.misses + 1, events := u.events.push (.miss pair) }

def link (u : WholeCache) (n partner : NodeId) : WholeCache :=
  { u with
    marked := u.marked.insert n
    partners := u.partners.insert n (u.partners[n]?.getD [] ++ [partner]) }

def store (u : WholeCache) (a b : NodeId) (outcome : Bool) : WholeCache :=
  let stored := { u with outcomes := u.outcomes.insert (.of a b) outcome }
  if u.tracksLifetimes && !u.outcomes.contains (.of a b) then (stored.link a b).link b a else stored

def unlink (u : WholeCache) (n partner : NodeId) : WholeCache :=
  match u.partners[n]? with
  | none => u
  | some list =>
    match list.filter (· != partner) with
    | [] => { u with partners := u.partners.erase n }
    | rest => { u with partners := u.partners.insert n rest }

def dropPair (u : WholeCache) (pair : Pair) : WholeCache :=
  if u.outcomes.contains pair then
    { u with
      outcomes := u.outcomes.erase pair
      evictions := u.evictions + 1
      events := u.events.push (.evicted pair) }
  else u

def evict (u : WholeCache) (n : NodeId) : WholeCache :=
  match u.partners[n]? with
  | none => u
  | some list =>
    list.foldl (fun u partner => (u.dropPair (.of n partner)).unlink partner n)
      { u with partners := u.partners.erase n }

def nodeDestroyed (u : WholeCache) (n : NodeId) : WholeCache :=
  if u.marked.contains n then u.evict n else u

def clear (u : WholeCache) : WholeCache :=
  { u with outcomes := ∅, partners := ∅, events := u.events.push .cleared }

/-- Compare two nodes through the cache. -/
def equalM (g : Graph) (a b : NodeId) : StateM WholeCache Bool := do
  if a = b then
    return true
  else if g.digest a ≠ g.digest b ∨ g.kind a ≠ g.kind b then
    return false
  else
    match (← get).outcomes[Pair.of a b]? with
    | some outcome =>
      modify fun u => u.noteHit (.of a b)
      return outcome
    | none =>
      modify fun u => u.noteMiss (.of a b)
      let outcome ←
        g.contentsEqualM (fun c d => if _h : c < a then equalM g c d else pure false) a b
      modify fun u => u.store a b outcome
      return outcome
  termination_by a

/-- Compare two arguments through the cache. -/
def argumentsEqualM (g : Graph) (a b : Argument) : StateM WholeCache Bool := a.equalM (equalM g) b

end WholeCache

namespace PairCache

variable {picker : ShardPicker} {count : Nat} {c : PairCache} {u : WholeCache}

/-- **A cache in shards splits one in one piece**: its maps are split, and all else is the same. -/
structure Splits (picker : ShardPicker) (count : Nat) (c : PairCache) (u : WholeCache) : Prop where
  outcomes : c.outcomes.Splits picker.ofPair count u.outcomes
  partners : c.partners.Splits picker.ofNode count u.partners
  tracksLifetimes : c.tracksLifetimes = u.tracksLifetimes
  marked : c.marked = u.marked
  hits : c.hits = u.hits
  misses : c.misses = u.misses
  evictions : c.evictions = u.evictions
  events : c.events = u.events

namespace Splits

theorem create (picker : ShardPicker) (requested : Nat) (tracks : Bool) :
    Splits picker (Sharded.shardCount requested) (.create picker requested tracks)
      (.create tracks) where
  outcomes := .create picker.ofPair requested
  partners := .create picker.ofNode requested
  tracksLifetimes := rfl
  marked := rfl
  hits := rfl
  misses := rfl
  evictions := rfl
  events := rfl

/-! ### What is read -/

theorem lookup_eq (h : Splits picker count c u) (pair : Pair) :
    c.lookup pair = u.outcomes[pair]? := h.outcomes.get?_eq pair

theorem size_eq (h : Splits picker count c u) : c.size = u.outcomes.size := h.outcomes.size_eq

theorem isEmpty_eq (h : Splits picker count c u) : c.isEmpty = u.outcomes.isEmpty :=
  h.outcomes.isEmpty_eq

theorem stats_eq (h : Splits picker count c u) : c.stats = u.stats := by
  rw [stats, WholeCache.stats, h.hits, h.misses, h.evictions, h.size_eq]

/-! ### What is written -/

theorem noteHit (h : Splits picker count c u) (pair : Pair) :
    Splits picker count (c.noteHit pair) (u.noteHit pair) :=
  { h with
    hits := congrArg (· + 1) h.hits
    events := congrArg (·.push (.hit pair)) h.events }

theorem noteMiss (h : Splits picker count c u) (pair : Pair) :
    Splits picker count (c.noteMiss pair) (u.noteMiss pair) :=
  { h with
    misses := congrArg (· + 1) h.misses
    events := congrArg (·.push (.miss pair)) h.events }

theorem link (h : Splits picker count c u) (n partner : NodeId) :
    Splits picker count (c.link n partner) (u.link n partner) :=
  { h with
    marked := congrArg (·.insert n) h.marked
    partners := by
      rw [PairCache.link, partnersOf, h.partners.get?_eq]
      exact h.partners.insert n _ }

theorem store (h : Splits picker count c u) (a b : NodeId) (outcome : Bool) :
    Splits picker count (c.store a b outcome) (u.store a b outcome) := by
  have hstored : Splits picker count { c with outcomes := c.outcomes.insert (.of a b) outcome }
      { u with outcomes := u.outcomes.insert (.of a b) outcome } :=
    { h with outcomes := h.outcomes.insert (.of a b) outcome }
  have hlinked : (c.tracksLifetimes && !c.outcomes.contains (.of a b)) =
      (u.tracksLifetimes && !u.outcomes.contains (.of a b)) := by
    rw [h.tracksLifetimes, h.outcomes.contains_eq]
  simp only [PairCache.store, WholeCache.store]
  rw [hlinked]
  split
  · exact (hstored.link a b).link b a
  · exact hstored

theorem unlink (h : Splits picker count c u) (n partner : NodeId) :
    Splits picker count (c.unlink n partner) (u.unlink n partner) := by
  rw [PairCache.unlink, WholeCache.unlink, h.partners.get?_eq]
  cases u.partners[n]? with
  | none => exact h
  | some list =>
    simp only
    cases list.filter (· != partner) with
    | nil => exact { h with partners := h.partners.erase n }
    | cons first rest => exact { h with partners := h.partners.insert n (first :: rest) }

theorem dropPair (h : Splits picker count c u) (pair : Pair) :
    Splits picker count (c.dropPair pair) (u.dropPair pair) := by
  rw [PairCache.dropPair, WholeCache.dropPair, h.outcomes.contains_eq]
  split
  · exact { h with
      outcomes := h.outcomes.erase pair
      evictions := congrArg (· + 1) h.evictions
      events := congrArg (·.push (.evicted pair)) h.events }
  · exact h

/-- **An eviction** goes through both arrays of shards: those of pairs, and those of partners. -/
theorem evict (h : Splits picker count c u) (n : NodeId) :
    Splits picker count (c.evict n) (u.evict n) := by
  have hfold : ∀ (list : List NodeId) (c : PairCache) (u : WholeCache), Splits picker count c u →
      Splits picker count (list.foldl (fun c partner => c.evictPair n partner) c)
        (list.foldl (fun u partner => (u.dropPair (.of n partner)).unlink partner n) u) := by
    intro list
    induction list with
    | nil => exact fun _ _ h => h
    | cons partner rest ih =>
      exact fun _ _ h => ih _ _ ((h.dropPair (.of n partner)).unlink partner n)
  rw [PairCache.evict, WholeCache.evict, h.partners.get?_eq]
  cases u.partners[n]? with
  | none => exact h
  | some list => exact hfold list _ _ { h with partners := h.partners.erase n }

theorem nodeDestroyed (h : Splits picker count c u) (n : NodeId) :
    Splits picker count (c.nodeDestroyed n) (u.nodeDestroyed n) := by
  rw [PairCache.nodeDestroyed, WholeCache.nodeDestroyed, h.marked]
  split
  · exact h.evict n
  · exact h

theorem clear (h : Splits picker count c u) : Splits picker count c.clear u.clear :=
  { h with
    outcomes := h.outcomes.clear
    partners := h.partners.clear
    events := congrArg (·.push .cleared) h.events }

end Splits

/-! ### Comparisons -/

/-- **Two runs that mirror each other**: from caches of which one splits the other, they say the
    same, and leave such caches. -/
def Mirrors (picker : ShardPicker) (count : Nat) {α : Type} (x : StateM PairCache α)
    (y : StateM WholeCache α) : Prop :=
  ∀ c u, Splits picker count c u →
    (x.run c).1 = (y.run u).1 ∧ Splits picker count (x.run c).2 (y.run u).2

section Rules

variable {α β : Type} {x : StateM PairCache α} {y : StateM WholeCache α}

theorem mirrors_pure (v : α) : Mirrors picker count (pure v) (pure v) := fun _ _ h => ⟨rfl, h⟩

theorem mirrors_modify {f : PairCache → PairCache} {k : WholeCache → WholeCache}
    (hf : ∀ c u, Splits picker count c u → Splits picker count (f c) (k u)) :
    Mirrors picker count (modify f) (modify k) := fun c u h => ⟨rfl, hf c u h⟩

theorem Mirrors.bind {f : α → StateM PairCache β} {k : α → StateM WholeCache β}
    (h : Mirrors picker count x y) (hf : ∀ v, Mirrors picker count (f v) (k v)) :
    Mirrors picker count (x >>= f) (y >>= k) := by
  intro c u hsplits
  obtain ⟨hvalue, hafter⟩ := h c u hsplits
  show ((f (x.run c).1).run (x.run c).2).1 = ((k (y.run u).1).run (y.run u).2).1 ∧
    Splits picker count ((f (x.run c).1).run (x.run c).2).2 ((k (y.run u).1).run (y.run u).2).2
  rw [hvalue]
  exact hf _ _ _ hafter

end Rules

theorem relates_mirrors (picker : ShardPicker) (count : Nat) :
    Argument.Relates (Mirrors picker count) where
  pure := mirrors_pure
  andThen hx hy := hx.bind fun answer => by
    cases answer with
    | true => exact hy
    | false => exact mirrors_pure false

/-- **Comparisons mirror each other**, in any graph. -/
theorem equalM_mirrors (g : Graph) (a b : NodeId) :
    Mirrors picker count (equalM g a b) (WholeCache.equalM g a b) := by
  -- both recur on the left node, under the same guard
  induction a using Nat.strongRecOn generalizing b with
  | _ a ih =>
    have hcontents : Mirrors picker count
        (g.contentsEqualM (fun c d => if _h : c < a then equalM g c d else pure false) a b)
        (g.contentsEqualM
          (fun c d => if _h : c < a then WholeCache.equalM g c d else pure false) a b) :=
      Argument.contentsEqualM_related_of_lt (relates_mirrors picker count) ih b
    intro c u h
    rw [equalM, WholeCache.equalM]
    split
    · exact ⟨rfl, h⟩
    split
    · exact ⟨rfl, h⟩
    -- what is stored for the pair decides how both go on
    simp only [StateT.run_bind, StateT.run_get, pure_bind]
    rw [h.lookup_eq]
    cases u.outcomes[Pair.of a b]? with
    | some outcome => exact ⟨rfl, h.noteHit _⟩
    | none =>
      refine Mirrors.bind (mirrors_modify fun _ _ h => h.noteMiss _) (fun _ => ?_) c u h
      refine hcontents.bind fun outcome => ?_
      exact (mirrors_modify fun _ _ h => h.store a b outcome).bind fun _ => mirrors_pure outcome

/-- The same for arguments. -/
theorem argumentsEqualM_mirrors (g : Graph) (x y : Argument) :
    Mirrors picker count (argumentsEqualM g x y) (WholeCache.argumentsEqualM g x y) :=
  Argument.equalM_related (relates_mirrors picker count) fun c d _ => equalM_mirrors g c d

end PairCache

/-! ## Calls -/

/-- **Something that is asked of a cache**, or done to it. -/
inductive CacheCall where
  | cached (a b : NodeId)
  | size
  | isEmpty
  | stats
  | store (a b : NodeId) (outcome : Bool)
  | evict (n : NodeId)
  | nodeDestroyed (n : NodeId)
  | clear
  | compare (g : Graph) (x y : Argument)

/-- What the cache says to it. -/
inductive CacheReply where
  | done
  | found (outcome : Option Bool)
  | bool (value : Bool)
  | size (value : Nat)
  | stats (value : CacheStats)

/-- A call of a cache in shards. -/
def PairCache.call (c : PairCache) : CacheCall → CacheReply × PairCache
  | .cached a b => (.found (c.cached a b), c)
  | .size => (.size c.size, c)
  | .isEmpty => (.bool c.isEmpty, c)
  | .stats => (.stats c.stats, c)
  | .store a b outcome => (.done, c.store a b outcome)
  | .evict n => (.done, c.evict n)
  | .nodeDestroyed n => (.done, c.nodeDestroyed n)
  | .clear => (.done, c.clear)
  | .compare g x y => ((argumentsEqualM g x y).run c).map .bool id

/-- A call of a cache in one piece. -/
def WholeCache.call (u : WholeCache) : CacheCall → CacheReply × WholeCache
  | .cached a b => (.found u.outcomes[Pair.of a b]?, u)
  | .size => (.size u.outcomes.size, u)
  | .isEmpty => (.bool u.outcomes.isEmpty, u)
  | .stats => (.stats u.stats, u)
  | .store a b outcome => (.done, u.store a b outcome)
  | .evict n => (.done, u.evict n)
  | .nodeDestroyed n => (.done, u.nodeDestroyed n)
  | .clear => (.done, u.clear)
  | .compare g x y => ((argumentsEqualM g x y).run u).map .bool id

/-- Calls one after another, and what is said to them. -/
def callAll {σ : Type} (call : σ → CacheCall → CacheReply × σ) : σ → List CacheCall →
    List CacheReply × σ
  | state, [] => ([], state)
  | state, first :: rest =>
    let (reply, state) := call state first
    let (replies, state) := callAll call state rest
    (reply :: replies, state)

namespace PairCache.Splits

variable {picker : ShardPicker} {count : Nat} {c : PairCache} {u : WholeCache}

/-- **One call** is answered alike, and keeps the invariant. -/
theorem call (h : Splits picker count c u) (what : CacheCall) :
    (c.call what).1 = (u.call what).1 ∧ Splits picker count (c.call what).2 (u.call what).2 := by
  cases what with
  | cached a b => exact ⟨congrArg CacheReply.found (h.lookup_eq _), h⟩
  | size => exact ⟨congrArg CacheReply.size h.size_eq, h⟩
  | isEmpty => exact ⟨congrArg CacheReply.bool h.isEmpty_eq, h⟩
  | stats => exact ⟨congrArg CacheReply.stats h.stats_eq, h⟩
  | store a b outcome => exact ⟨rfl, h.store a b outcome⟩
  | evict n => exact ⟨rfl, h.evict n⟩
  | nodeDestroyed n => exact ⟨rfl, h.nodeDestroyed n⟩
  | clear => exact ⟨rfl, h.clear⟩
  | compare g x y =>
    obtain ⟨hanswer, hafter⟩ := argumentsEqualM_mirrors g x y c u h
    exact ⟨congrArg CacheReply.bool hanswer, hafter⟩

/-- **Any calls in any order** are answered alike. -/
theorem callAll (h : Splits picker count c u) (calls : List CacheCall) :
    (ExprGraph.callAll PairCache.call c calls).1 = (ExprGraph.callAll WholeCache.call u calls).1 ∧
    Splits picker count (ExprGraph.callAll PairCache.call c calls).2
      (ExprGraph.callAll WholeCache.call u calls).2 := by
  induction calls generalizing c u with
  | nil => exact ⟨rfl, h⟩
  | cons first rest ih =>
    obtain ⟨hreply, hafter⟩ := h.call first
    obtain ⟨hreplies, hend⟩ := ih hafter
    exact ⟨congrArg₂ List.cons hreply hreplies, hend⟩

end PairCache.Splits

end ExprGraph
