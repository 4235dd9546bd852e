/-
  Shard indices — every access of a map in shards finds its shard.

  A key goes to the shard that the low bits of a 64-bit word name, and those are cut out with a mask:
  the number of shards less one.  What remains is the number of a shard only if the shards are a
  power of two, and not none, and if a word can hold their number; and all that is decided far away
  from the mask, when the shards are made.

  1. **Counts** — the number of shards is the least power of two that is not below the requested
     count, nor below one (`Sharded.isLeast_shardCount`).

  2. **Words** — for a power of two the mask is the remainder (`mask_eq_mod`): no index is out of
     range, and none is left out.

  3. **Program** — the calls of a cache once more, as a machine makes them (`PairCache.checkedCall`):
     indices are words (`wordIndex`), and a call that would take one from no shards, or read or
     write at an index that is no shard's, has no result.

  4. **Result** — each call has a result, and it is that of the cache
     (`PairCache.Splits.checkedCall_eq`), as long as a word can count the shards; and so have any calls
     of a cache made for up to 2^63.
-/
import ExprGraph.Proofs.Sharding
import Mathlib.Algebra.Group.Nat.Defs
import Mathlib.Order.Bounds.Basic

namespace ExprGraph

/-! ## The number of shards -/

namespace Sharded

/-- **The number of shards** is the least power of two for the count. -/
theorem isLeast_shardCount (requested : Nat) :
    IsLeast {m : Nat | m.isPowerOfTwo ∧ max requested 1 ≤ m} (shardCount requested) := by
  have hpower := isPowerOfTwo_shardCount requested
  refine ⟨⟨hpower, Nat.max_le.2 ⟨le_shardCount requested, Nat.pos_of_isPowerOfTwo hpower⟩⟩, ?_⟩
  intro m hm
  exact shardCount_le hm.1 (Nat.le_trans (Nat.le_max_left _ _) hm.2)

/-- A word can hold the number of shards, up to the largest power of two that it can hold. -/
theorem shardCount_lt {requested : Nat} (h : requested ≤ 2 ^ 63) :
    shardCount requested < 2 ^ 64 := by
  have hbound : shardCount requested ≤ 2 ^ 63 :=
    (isLeast_shardCount requested).2 ⟨⟨63, rfl⟩, Nat.max_le.2 ⟨h, by decide⟩⟩
  exact Nat.lt_of_le_of_lt hbound (by decide)

end Sharded

/-! ## Words -/

section Words

variable {count : UInt64}

/-- Nothing is taken from zero where a power of two is lowered by one. -/
theorem toNat_sub_one (h : count.toNat.isPowerOfTwo) : (count - 1).toNat = count.toNat - 1 :=
  UInt64.toNat_sub_of_le _ _ (UInt64.le_iff_toNat_le.2 (Nat.pos_of_isPowerOfTwo h))

/-- **The mask is the remainder**, for a power of two. -/
theorem mask_eq_mod (h : count.toNat.isPowerOfTwo) (word : UInt64) :
    word &&& (count - 1) = word % count := by
  have hsub := toNat_sub_one h
  obtain ⟨k, hk⟩ := h
  refine UInt64.toNat_inj.1 ?_
  rw [UInt64.toNat_and, hsub, UInt64.toNat_mod, hk, Nat.and_two_pow_sub_one_eq_mod]

/-- The mask leaves an index in range. -/
theorem mask_lt (h : count.toNat.isPowerOfTwo) (word : UInt64) : word &&& (count - 1) < count := by
  rw [mask_eq_mod h, UInt64.lt_iff_toNat_lt, UInt64.toNat_mod]
  exact Nat.mod_lt _ (Nat.pos_of_isPowerOfTwo h)

/-- Every index in range is what the mask leaves of a word: of itself, for one. -/
theorem mask_eq_self (h : count.toNat.isPowerOfTwo) {i : UInt64} (hi : i < count) :
    i &&& (count - 1) = i := by
  refine UInt64.toNat_inj.1 ?_
  rw [mask_eq_mod h, UInt64.toNat_mod]
  exact Nat.mod_eq_of_lt (UInt64.lt_iff_toNat_lt.1 hi)

/-- **The index of a word** among so many shards.  From none, one cannot be taken. -/
def wordIndex (count word : UInt64) : Option UInt64 :=
  if count = 0 then none else some (word &&& (count - 1))

end Words

namespace Sharded

variable {κ β : Type} [DecidableEq κ] [Hashable κ]

/-- The shard of a key, by the index of its word; nothing, if no shard has that index. -/
def checkedIndex (s : Sharded κ β) (key : κ) : Option (Fin s.shards.size) := do
  let i ← wordIndex s.shards.size.toUInt64 (s.pick key)
  if h : i.toNat < s.shards.size then some ⟨i.toNat, h⟩ else none

def checkedGet (s : Sharded κ β) (key : κ) : Option (Option β) := do
  let i ← s.checkedIndex key
  return s.shards[i][key]?

def checkedUpdate (s : Sharded κ β) (key : κ) (f : Std.HashMap κ β → Std.HashMap κ β) :
    Option (Sharded κ β) := do
  let i ← s.checkedIndex key
  return {
    pick := s.pick
    shards := s.shards.modify i f
    isPowerOfTwo := Array.size_modify.symm ▸ s.isPowerOfTwo }

variable {s : Sharded κ β}

theorem toNat_count (hfits : s.shards.size < 2 ^ 64) :
    s.shards.size.toUInt64.toNat = s.shards.size := UInt64.toNat_ofNat_of_lt' hfits

/-- The mask on the word of a key is the number of its shard. -/
theorem toNat_mask (hfits : s.shards.size < 2 ^ 64) (key : κ) :
    (s.pick key &&& (s.shards.size.toUInt64 - 1)).toNat = s.index key := by
  have hcount := toNat_count hfits
  rw [mask_eq_mod (hcount.symm ▸ s.isPowerOfTwo), UInt64.toNat_mod, hcount, index_eq_mod]

/-- **Every key has a shard**, found by its word. -/
theorem checkedIndex_eq (hfits : s.shards.size < 2 ^ 64) (key : κ) :
    s.checkedIndex key = some ⟨s.index key, s.index_lt key⟩ := by
  have hne : s.shards.size.toUInt64 ≠ 0 := by
    intro hzero
    have hnone : s.shards.size = 0 := by rw [← toNat_count hfits, hzero]; rfl
    exact absurd (Nat.pos_of_isPowerOfTwo s.isPowerOfTwo) (Nat.not_lt_of_le (Nat.le_of_eq hnone))
  rw [checkedIndex, wordIndex, if_neg hne]
  simp only [Option.bind_eq_bind, Option.bind_some, toNat_mask hfits, dif_pos (s.index_lt key)]

theorem checkedGet_eq (hfits : s.shards.size < 2 ^ 64) (key : κ) :
    s.checkedGet key = some (s.get? key) := by
  rw [checkedGet, checkedIndex_eq hfits]
  rfl

theorem checkedUpdate_eq (hfits : s.shards.size < 2 ^ 64) (key : κ)
    (f : Std.HashMap κ β → Std.HashMap κ β) : s.checkedUpdate key f = some (s.update key f) := by
  rw [checkedUpdate, checkedIndex_eq hfits]
  rfl

end Sharded

/-! ## Checked calls -/

namespace PairCache

def checkedLookup (c : PairCache) (pair : Pair) : Option (Option Bool) :=
  c.outcomes.checkedGet pair

def checkedLink (c : PairCache) (n partner : NodeId) : Option PairCache := do
  let list := (← c.partners.checkedGet n).getD []
  let partners ← c.partners.checkedUpdate n fun shard => shard.insert n (list ++ [partner])
  return { c with marked := c.marked.insert n, partners := partners }

def checkedStore (c : PairCache) (a b : NodeId) (outcome : Bool) : Option PairCache := do
  let old ← c.checkedLookup (.of a b)
  let outcomes ← c.outcomes.checkedUpdate (.of a b) fun shard => shard.insert (.of a b) outcome
  let c := { c with outcomes := outcomes }
  if c.tracksLifetimes && old.isNone then (← c.checkedLink a b).checkedLink b a else return c

def checkedUnlink (c : PairCache) (n partner : NodeId) : Option PairCache := do
  match ← c.partners.checkedGet n with
  | none => return c
  | some list =>
    match list.filter (· != partner) with
    | [] => return { c with partners := ← c.partners.checkedUpdate n fun shard => shard.erase n }
    | rest =>
      return { c with partners := ← c.partners.checkedUpdate n fun shard => shard.insert n rest }

def checkedDropPair (c : PairCache) (pair : Pair) : Option PairCache := do
  if (← c.checkedLookup pair).isSome then
    return { c with
      outcomes := ← c.outcomes.checkedUpdate pair fun shard => shard.erase pair
      evictions := c.evictions + 1
      events := c.events.push (.evicted pair) }
  else return c

def checkedEvictPair (c : PairCache) (n partner : NodeId) : Option PairCache := do
  (← c.checkedDropPair (.of n partner)).checkedUnlink partner n

def checkedEvict (c : PairCache) (n : NodeId) : Option PairCache := do
  match ← c.partners.checkedGet n with
  | none => return c
  | some list =>
    let partners ← c.partners.checkedUpdate n fun shard => shard.erase n
    list.foldlM (fun c partner => c.checkedEvictPair n partner) { c with partners := partners }

def checkedNodeDestroyed (c : PairCache) (n : NodeId) : Option PairCache :=
  if c.marked.contains n then c.checkedEvict n else some c

/-- Store the outcome of a comparison. -/
def checkedStoreM (a b : NodeId) (outcome : Bool) : StateT PairCache Option Unit := do
  set (← (← get).checkedStore a b outcome)

/-- Compare two nodes with checked lookups and stores. -/
def checkedEqualM (g : Graph) (a b : NodeId) : StateT PairCache Option Bool := do
  if a = b then
    return true
  else if g.digest a ≠ g.digest b ∨ g.kind a ≠ g.kind b then
    return false
  else
    match ← (← get).checkedLookup (.of a b) with
    | some outcome =>
      modify fun c => c.noteHit (.of a b)
      return outcome
    | none =>
      modify fun c => c.noteMiss (.of a b)
      let outcome ←
        g.contentsEqualM (fun c d => if _h : c < a then checkedEqualM g c d else pure false) a b
      checkedStoreM a b outcome
      return outcome
  termination_by a

/-- **A call with all indices checked.** -/
def checkedCall (c : PairCache) : CacheCall → Option (CacheReply × PairCache)
  | .cached a b => return (.found (← c.checkedLookup (.of a b)), c)
  | .size => some (.size c.size, c)
  | .isEmpty => some (.bool c.isEmpty, c)
  | .stats => some (.stats c.stats, c)
  | .store a b outcome => return (.done, ← c.checkedStore a b outcome)
  | .evict n => return (.done, ← c.checkedEvict n)
  | .nodeDestroyed n => return (.done, ← c.checkedNodeDestroyed n)
  | .clear => some (.done, c.clear)
  | .compare g x y => return ((← (x.equalM (checkedEqualM g) y).run c)).map .bool id

/-- Checked calls one after another, up to the first that has no result. -/
def checkedCallAll : PairCache → List CacheCall → Option (List CacheReply × PairCache)
  | c, [] => some ([], c)
  | c, first :: rest => do
    let (reply, c) ← c.checkedCall first
    let (replies, c) ← checkedCallAll c rest
    return (reply :: replies, c)

variable {picker : ShardPicker} {count : Nat} {c : PairCache} {u : WholeCache}

namespace Splits

/-! ### One operation -/

theorem outcomes_lt (h : Splits picker count c u) (hfits : count < 2 ^ 64) :
    c.outcomes.shards.size < 2 ^ 64 := h.outcomes.count_eq.symm ▸ hfits

theorem partners_lt (h : Splits picker count c u) (hfits : count < 2 ^ 64) :
    c.partners.shards.size < 2 ^ 64 := h.partners.count_eq.symm ▸ hfits

theorem checkedLookup_eq (h : Splits picker count c u) (hfits : count < 2 ^ 64) (pair : Pair) :
    c.checkedLookup pair = some (c.lookup pair) :=
  Sharded.checkedGet_eq (h.outcomes_lt hfits) pair

theorem checkedLink_eq (h : Splits picker count c u) (hfits : count < 2 ^ 64)
    (n partner : NodeId) : c.checkedLink n partner = some (c.link n partner) := by
  rw [checkedLink, Sharded.checkedGet_eq (h.partners_lt hfits)]
  simp only [Option.bind_eq_bind, Option.bind_some]
  rw [Sharded.checkedUpdate_eq (h.partners_lt hfits)]
  rfl

theorem checkedStore_eq (h : Splits picker count c u) (hfits : count < 2 ^ 64) (a b : NodeId)
    (outcome : Bool) : c.checkedStore a b outcome = some (c.store a b outcome) := by
  have hstored : Splits picker count { c with outcomes := c.outcomes.insert (.of a b) outcome }
      { u with outcomes := u.outcomes.insert (.of a b) outcome } :=
    { h with outcomes := h.outcomes.insert (.of a b) outcome }
  have hnew : (c.lookup (.of a b)).isNone = !c.outcomes.contains (.of a b) := by
    rw [Sharded.contains_eq_isSome_get?, Option.not_isSome]
    rfl
  rw [checkedStore, h.checkedLookup_eq hfits]
  simp only [Option.bind_eq_bind, Option.bind_some]
  rw [Sharded.checkedUpdate_eq (h.outcomes_lt hfits)]
  simp only [Option.bind_some, hnew, PairCache.store]
  split
  · -- the two partner lists, one after the other
    have hlink := hstored.checkedLink_eq hfits a b
    have hback := (hstored.link a b).checkedLink_eq hfits b a
    rw [Sharded.insert] at hlink hback
    rw [hlink, Option.bind_some, hback]
    rfl
  · rfl

theorem checkedUnlink_eq (h : Splits picker count c u) (hfits : count < 2 ^ 64)
    (n partner : NodeId) : c.checkedUnlink n partner = some (c.unlink n partner) := by
  rw [checkedUnlink, Sharded.checkedGet_eq (h.partners_lt hfits), PairCache.unlink]
  simp only [Option.bind_eq_bind, Option.bind_some]
  cases c.partners.get? n with
  | none => rfl
  | some list =>
    simp only [Sharded.checkedUpdate_eq (h.partners_lt hfits)]
    cases list.filter (· != partner) with
    | nil => rfl
    | cons first rest => rfl

theorem checkedDropPair_eq (h : Splits picker count c u) (hfits : count < 2 ^ 64) (pair : Pair) :
    c.checkedDropPair pair = some (c.dropPair pair) := by
  have hstored : (c.lookup pair).isSome = c.outcomes.contains pair :=
    (Sharded.contains_eq_isSome_get? c.outcomes pair).symm
  rw [checkedDropPair, h.checkedLookup_eq hfits, PairCache.dropPair]
  simp only [Option.bind_eq_bind, Option.bind_some, hstored]
  split
  · rw [Sharded.checkedUpdate_eq (h.outcomes_lt hfits)]
    rfl
  · rfl

theorem checkedEvictPair_eq (h : Splits picker count c u) (hfits : count < 2 ^ 64)
    (n partner : NodeId) : c.checkedEvictPair n partner = some (c.evictPair n partner) := by
  rw [checkedEvictPair, h.checkedDropPair_eq hfits]
  exact (h.dropPair (.of n partner)).checkedUnlink_eq hfits partner n

/-- **An eviction** finds the shard of the node, and those of every pair and of every partner. -/
theorem checkedEvict_eq (h : Splits picker count c u) (hfits : count < 2 ^ 64) (n : NodeId) :
    c.checkedEvict n = some (c.evict n) := by
  have hfold : ∀ (list : List NodeId) (c : PairCache) (u : WholeCache), Splits picker count c u →
      list.foldlM (fun c partner => c.checkedEvictPair n partner) c =
        some (list.foldl (fun c partner => c.evictPair n partner) c) := by
    intro list
    induction list with
    | nil => exact fun _ _ _ => rfl
    | cons partner rest ih =>
      intro c u h
      rw [List.foldlM_cons, h.checkedEvictPair_eq hfits]
      exact ih _ _ ((h.dropPair (.of n partner)).unlink partner n)
  rw [checkedEvict, Sharded.checkedGet_eq (h.partners_lt hfits), PairCache.evict]
  simp only [Option.bind_eq_bind, Option.bind_some]
  cases c.partners.get? n with
  | none => rfl
  | some list =>
    simp only [Sharded.checkedUpdate_eq (h.partners_lt hfits), Option.bind_some]
    exact hfold list _ { u with partners := u.partners.erase n }
      { h with partners := h.partners.erase n }

theorem checkedNodeDestroyed_eq (h : Splits picker count c u) (hfits : count < 2 ^ 64)
    (n : NodeId) : c.checkedNodeDestroyed n = some (c.nodeDestroyed n) := by
  rw [checkedNodeDestroyed, PairCache.nodeDestroyed]
  split
  · exact h.checkedEvict_eq hfits n
  · rfl

end Splits

/-! ### Comparisons -/

/-- **A run with checked indices, and one without**: from a cache in so many shards, the first has a
    result, that of the second, and leaves such a cache. -/
def Checks (picker : ShardPicker) (count : Nat) {α : Type} (x : StateT PairCache Option α)
    (y : StateM PairCache α) : Prop :=
  ∀ c u, Splits picker count c u →
    x.run c = some (y.run c) ∧ ∃ u', Splits picker count (y.run c).2 u'

section Rules

variable {α β : Type} {x : StateT PairCache Option α} {y : StateM PairCache α}

theorem checks_pure (v : α) : Checks picker count (pure v) (pure v) := fun _ u h => ⟨rfl, u, h⟩

/-- What is done to a cache, checked or not. -/
theorem checks_modify {x : StateT PairCache Option Unit} {k : PairCache → PairCache}
    {l : WholeCache → WholeCache} (hx : ∀ c u, Splits picker count c u → x.run c = some ((), k c))
    (hk : ∀ c u, Splits picker count c u → Splits picker count (k c) (l u)) :
    Checks picker count x (modify k) := fun c u h => ⟨hx c u h, l u, hk c u h⟩

theorem checks_noteMiss (pair : Pair) :
    Checks picker count (modify fun c => c.noteMiss pair) (modify fun c => c.noteMiss pair) :=
  checks_modify (fun _ _ _ => rfl) fun _ _ h => h.noteMiss pair

theorem checks_store (hfits : count < 2 ^ 64) (a b : NodeId) (outcome : Bool) :
    Checks picker count (checkedStoreM a b outcome) (modify fun c => c.store a b outcome) := by
  refine checks_modify (fun c u h => ?_) fun _ _ h => h.store a b outcome
  simp only [checkedStoreM, StateT.run_bind, StateT.run_get, StateT.run_monadLift, StateT.run_set,
    pure_bind, h.checkedStore_eq hfits]
  rfl

theorem Checks.bind {f : α → StateT PairCache Option β} {k : α → StateM PairCache β}
    (h : Checks picker count x y) (hf : ∀ v, Checks picker count (f v) (k v)) :
    Checks picker count (x >>= f) (y >>= k) := by
  intro c u hsplits
  obtain ⟨hresult, u', hafter⟩ := h c u hsplits
  obtain ⟨hresult', hend⟩ := hf (y.run c).1 _ _ hafter
  refine ⟨?_, hend⟩
  rw [StateT.run_bind, hresult]
  exact hresult'

end Rules

theorem relates_checks (picker : ShardPicker) (count : Nat) :
    Argument.Relates (Checks picker count) where
  pure := checks_pure
  andThen hx hy := hx.bind fun answer => by
    cases answer with
    | true => exact hy
    | false => exact checks_pure false

/-- **Comparisons find all their shards**, in any graph. -/
theorem checkedEqualM_checks (hfits : count < 2 ^ 64) (g : Graph) (a b : NodeId) :
    Checks picker count (checkedEqualM g a b) (equalM g a b) := by
  -- both recur on the left node, under the same guard
  induction a using Nat.strongRecOn generalizing b with
  | _ a ih =>
    have hcontents : Checks picker count
        (g.contentsEqualM (fun c d => if _h : c < a then checkedEqualM g c d else pure false) a b)
        (g.contentsEqualM (fun c d => if _h : c < a then equalM g c d else pure false) a b) :=
      Argument.contentsEqualM_related_of_lt (relates_checks picker count) ih b
    intro c u h
    rw [checkedEqualM, equalM]
    split
    · exact ⟨rfl, u, h⟩
    split
    · exact ⟨rfl, u, h⟩
    simp only [StateT.run_bind, StateT.run_get, StateT.run_monadLift, monadLift_self, pure_bind,
      h.checkedLookup_eq hfits, Option.bind_eq_bind, Option.bind_some, Option.pure_def]
    cases c.lookup (.of a b) with
    | some outcome => exact ⟨rfl, _, h.noteHit _⟩
    | none =>
      refine Checks.bind (checks_noteMiss _) (fun _ => ?_) c u h
      refine hcontents.bind fun outcome => ?_
      exact (checks_store hfits a b outcome).bind fun _ => checks_pure outcome

/-- The same for arguments. -/
theorem checkedArgumentsEqualM_checks (hfits : count < 2 ^ 64) (g : Graph) (x y : Argument) :
    Checks picker count (x.equalM (checkedEqualM g) y) (argumentsEqualM g x y) :=
  Argument.equalM_related (relates_checks picker count) fun c d _ =>
    checkedEqualM_checks hfits g c d

namespace Splits

/-! ### Calls -/

/-- **One call** with its indices checked has a result, that of the call. -/
theorem checkedCall_eq (h : Splits picker count c u) (hfits : count < 2 ^ 64) (what : CacheCall) :
    c.checkedCall what = some (c.call what) := by
  cases what with
  | cached a b =>
    rw [checkedCall, h.checkedLookup_eq hfits]
    rfl
  | size => rfl
  | isEmpty => rfl
  | stats => rfl
  | store a b outcome =>
    rw [checkedCall, h.checkedStore_eq hfits]
    rfl
  | evict n =>
    rw [checkedCall, h.checkedEvict_eq hfits]
    rfl
  | nodeDestroyed n =>
    rw [checkedCall, h.checkedNodeDestroyed_eq hfits]
    rfl
  | clear => rfl
  | compare g x y =>
    rw [checkedCall, (checkedArgumentsEqualM_checks hfits g x y c u h).1]
    rfl

/-- **Any calls in any order** have results. -/
theorem checkedCallAll_eq (h : Splits picker count c u) (hfits : count < 2 ^ 64)
    (calls : List CacheCall) :
    c.checkedCallAll calls = some (ExprGraph.callAll PairCache.call c calls) := by
  induction calls generalizing c u with
  | nil => rfl
  | cons first rest ih =>
    rw [checkedCallAll, h.checkedCall_eq hfits, Option.bind_eq_bind, Option.bind_some]
    simp only [ih (h.call first).2]
    rfl

end Splits

/-- **The shards of a cache, counted by a word**: both its maps have so many, and cut the index of a
    key out of its word with one mask. -/
structure Masked (picker : ShardPicker) (count : UInt64) (c : PairCache) : Prop where
  outcomes_size : c.outcomes.shards.size = count.toNat
  partners_size : c.partners.shards.size = count.toNat
  outcomes_index : ∀ pair, c.outcomes.index pair = (picker.ofPair pair &&& (count - 1)).toNat
  partners_index : ∀ n, c.partners.index n = (picker.ofNode n &&& (count - 1)).toNat

theorem Splits.masked {count : UInt64} (h : Splits picker count.toNat c u)
    (hpower : count.toNat.isPowerOfTwo) : Masked picker count c where
  outcomes_size := h.outcomes.count_eq
  partners_size := h.partners.count_eq
  outcomes_index pair := by rw [h.outcomes.index_eq, mask_eq_mod hpower, UInt64.toNat_mod]
  partners_index n := by rw [h.partners.index_eq, mask_eq_mod hpower, UInt64.toNat_mod]

/-- **Shard indices are in range.** A cache for up to 2^63 shards has the least power of two of them
    that is not below the count, nor below one, for pairs and for partners alike, and keeps them
    whatever it is called for.  The mask is the remainder by that number: it names a shard for every
    word, and every shard for some word.  So any calls have results when all their indices are
    checked, and have those of the cache. -/
theorem shard_indices_in_range (n : Nat) (hn : n ≤ 2 ^ 63) (picker : ShardPicker) (tracks : Bool)
    (calls : List CacheCall) :
    ∃ s : UInt64, IsLeast {m : Nat | m.isPowerOfTwo ∧ max n 1 ≤ m} s.toNat ∧
      (s - 1).toNat + 1 = s.toNat ∧
      (∀ word, word &&& (s - 1) = word % s ∧ word &&& (s - 1) < s) ∧
      (∀ i < s, ∃ word, word &&& (s - 1) = i) ∧
      Masked picker s (create picker n tracks) ∧
      Masked picker s (callAll call (create picker n tracks) calls).2 ∧
      checkedCallAll (create picker n tracks) calls =
        some (callAll call (create picker n tracks) calls) := by
  have hfits := Sharded.shardCount_lt hn
  have hleast := Sharded.isLeast_shardCount n
  have hstart := Splits.create picker n tracks
  -- from here on the number of shards is a word
  obtain ⟨s, hs⟩ : ∃ s : UInt64, s.toNat = Sharded.shardCount n :=
    ⟨(Sharded.shardCount n).toUInt64, UInt64.toNat_ofNat_of_lt' hfits⟩
  rw [← hs] at hfits hleast hstart
  have hpower := hleast.1.1
  refine ⟨s, hleast, ?_, fun word => ⟨mask_eq_mod hpower word, mask_lt hpower word⟩,
    fun i hi => ⟨i, mask_eq_self hpower hi⟩, hstart.masked hpower,
    (hstart.callAll calls).2.masked hpower, hstart.checkedCallAll_eq hfits calls⟩
  rw [toNat_sub_one hpower]
  exact Nat.sub_add_cancel (Nat.pos_of_isPowerOfTwo hpower)

/-- The low bits of the smaller identity, or of the only one. -/
def lowBits : ShardPicker := ⟨fun pair => pair.low.toUInt64, fun n => n.toUInt64⟩

/-- Who asks for five shards gets eight, and at the top of the range a count stays as it is. -/
theorem shard_indices_in_range_lowBits :
    (5 ≤ 2 ^ 63 ∧ ∃ s : UInt64, s.toNat = 8 ∧
      (checkedCallAll (create lowBits 5 true)
          [.store 1 2 true, .cached 2 1, .evict 2, .cached 1 2]).map Prod.fst =
        some [.done, .found (some true), .done, .found none]) ∧
    ∃ s : UInt64, s.toNat = 2 ^ 63 ∧ Masked lowBits s (create lowBits (2 ^ 63) false) := by
  refine ⟨⟨by decide, ?_⟩, ?_⟩
  · obtain ⟨s, hleast, -, -, -, -, -, hresult⟩ := shard_indices_in_range 5 (by decide) lowBits true
      [.store 1 2 true, .cached 2 1, .evict 2, .cached 1 2]
    have hcount : Sharded.shardCount 5 = 8 := by decide
    refine ⟨s, (hleast.unique (Sharded.isLeast_shardCount 5)).trans hcount, ?_⟩
    rw [hresult]
    cbv
  · obtain ⟨s, hleast, -, -, -, hmasked, -⟩ := shard_indices_in_range (2 ^ 63) (Nat.le_refl _)
      lowBits false []
    have htop : IsLeast {m : Nat | m.isPowerOfTwo ∧ max (2 ^ 63) 1 ≤ m} (2 ^ 63) :=
      ⟨⟨⟨63, rfl⟩, Nat.le_refl _⟩, fun m hm => hm.2⟩
    exact ⟨s, hleast.unique htop, hmasked⟩

end PairCache

end ExprGraph
