/-
  Sharded maps — one map, kept in a power of two of smaller ones.

  A key belongs to one shard, chosen by the low bits of a word that a caller-supplied function picks
  for it.  Splitting is about who waits for whom; it must not be visible in any answer.

  1. **Program** — `Sharded.create` rounds a requested count up to a power of two (`shardCount`).
     `index` masks the picked word with the count less one; the count being a power of two, the mask
     is the remainder (`index_eq_mod`) and always names a shard (`index_lt`).

  2. **Access** — `get?`, `insert` and `erase` touch the shard of their key only; `size` and
     `isEmpty` ask all shards.

  3. **Laws** — what a key is found under after each of them (`get?_insert`, `get?_erase`), and how
     many keys there are (`size_insert`, `size_erase_of_contains`).
-/
import Std.Data.HashMap

namespace ExprGraph

/-- **A map in shards.** `pick` chooses the word whose low bits name a key's shard. -/
structure Sharded (κ β : Type) [DecidableEq κ] [Hashable κ] where
  pick : κ → UInt64
  shards : Array (Std.HashMap κ β)
  isPowerOfTwo : shards.size.isPowerOfTwo

namespace Sharded

variable {κ β : Type} [DecidableEq κ] [Hashable κ]

/-- **The number of shards** for a requested count: the next power of two, at least one.  A word of
    64 bits holds it for requests of up to 2^63; numbers go on beyond, where a machine that counts in
    words cannot make the shards. -/
def shardCount (requested : Nat) : Nat :=
  if requested ≤ 1 then 1 else 1 <<< ((requested - 1).log2 + 1)

theorem isPowerOfTwo_shardCount (requested : Nat) : (shardCount requested).isPowerOfTwo := by
  unfold shardCount
  split
  · exact ⟨0, rfl⟩
  · exact ⟨_, Nat.one_shiftLeft _⟩

/-- There are as many shards as requested, or more. -/
theorem le_shardCount (requested : Nat) : requested ≤ shardCount requested := by
  unfold shardCount
  split
  · assumption
  · have hbelow : requested - 1 < 1 <<< ((requested - 1).log2 + 1) := by
      rw [Nat.one_shiftLeft]
      exact Nat.lt_log2_self
    omega

/-- No smaller power of two would do. -/
theorem shardCount_le {requested m : Nat} (hm : m.isPowerOfTwo) (h : requested ≤ m) :
    shardCount requested ≤ m := by
  unfold shardCount
  split
  · exact Nat.pos_of_isPowerOfTwo hm
  · obtain ⟨k, rfl⟩ := hm
    have hne : requested - 1 ≠ 0 := by omega
    have hlog : (requested - 1).log2 < k := (Nat.log2_lt hne).2 (by omega)
    rw [Nat.one_shiftLeft]
    exact Nat.pow_le_pow_right (by decide) hlog

/-- An empty map with at least the requested number of shards. -/
def create (pick : κ → UInt64) (requested : Nat) : Sharded κ β where
  pick := pick
  shards := Array.replicate (shardCount requested) ∅
  isPowerOfTwo := by
    rw [Array.size_replicate]
    exact isPowerOfTwo_shardCount _

/-- The shard of a key. -/
def index (s : Sharded κ β) (key : κ) : Nat := (s.pick key).toNat &&& (s.shards.size - 1)

/-- **The mask is the remainder**, since the count is a power of two. -/
theorem index_eq_mod (s : Sharded κ β) (key : κ) :
    s.index key = (s.pick key).toNat % s.shards.size := by
  obtain ⟨k, hk⟩ := s.isPowerOfTwo
  rw [index, hk, Nat.and_two_pow_sub_one_eq_mod]

/-- Every key has a shard. -/
theorem index_lt (s : Sharded κ β) (key : κ) : s.index key < s.shards.size := by
  rw [index_eq_mod]
  exact Nat.mod_lt _ (Nat.pos_of_isPowerOfTwo s.isPowerOfTwo)

/-- The shard that holds a key, if any does. -/
def shard (s : Sharded κ β) (key : κ) : Std.HashMap κ β :=
  have := s.index_lt key
  s.shards[s.index key]

def get? (s : Sharded κ β) (key : κ) : Option β := (s.shard key)[key]?

def contains (s : Sharded κ β) (key : κ) : Bool := (s.shard key).contains key

/-- The map with the shard of a key replaced by what `f` makes of it. -/
def update (s : Sharded κ β) (key : κ) (f : Std.HashMap κ β → Std.HashMap κ β) : Sharded κ β where
  pick := s.pick
  shards := s.shards.modify (s.index key) f
  isPowerOfTwo := by
    rw [Array.size_modify]
    exact s.isPowerOfTwo

def insert (s : Sharded κ β) (key : κ) (value : β) : Sharded κ β :=
  s.update key fun shard => shard.insert key value

def erase (s : Sharded κ β) (key : κ) : Sharded κ β :=
  s.update key fun shard => shard.erase key

/-- The number of keys in all shards. -/
def size (s : Sharded κ β) : Nat := s.shards.foldl (fun n shard => n + shard.size) 0

def isEmpty (s : Sharded κ β) : Bool := s.shards.all Std.HashMap.isEmpty

/-- The same shards, all of them empty. -/
def clear (s : Sharded κ β) : Sharded κ β where
  pick := s.pick
  shards := s.shards.map fun _ => ∅
  isPowerOfTwo := by
    rw [Array.size_map]
    exact s.isPowerOfTwo

/-! ## Splitting does not show

  What a key is found under depends on the writes to that key alone, whatever the shards are. -/

theorem index_update (s : Sharded κ β) (key : κ) (f : Std.HashMap κ β → Std.HashMap κ β) (k : κ) :
    (s.update key f).index k = s.index k := by
  simp [index, update]

/-- An update is seen in the shard of its key and nowhere else. -/
theorem shard_update (s : Sharded κ β) (key : κ) (f : Std.HashMap κ β → Std.HashMap κ β) (k : κ) :
    (s.update key f).shard k = if s.index key = s.index k then f (s.shard k) else s.shard k := by
  unfold shard
  simp only [index_update]
  simp only [update, Array.getElem_modify]

@[simp] theorem get?_create (pick : κ → UInt64) (requested : Nat) (k : κ) :
    (create pick requested : Sharded κ β).get? k = none := by
  simp [get?, shard, create]

/-- **A write is found under its key**, and no other key notices. -/
theorem get?_insert (s : Sharded κ β) (key : κ) (value : β) (k : κ) :
    (s.insert key value).get? k = if key = k then some value else s.get? k := by
  unfold get? insert
  rw [shard_update]
  by_cases h : key = k
  · subst h
    simp
  · rw [if_neg h]
    split
    · rw [Std.HashMap.getElem?_insert]
      simp [h]
    · rfl

/-- An erased key is gone, and no other key notices. -/
theorem get?_erase (s : Sharded κ β) (key k : κ) :
    (s.erase key).get? k = if key = k then none else s.get? k := by
  unfold get? erase
  rw [shard_update]
  by_cases h : key = k
  · subst h
    simp
  · rw [if_neg h]
    split
    · rw [Std.HashMap.getElem?_erase]
      simp [h]
    · rfl

@[simp] theorem get?_clear (s : Sharded κ β) (k : κ) : s.clear.get? k = none := by
  simp [get?, shard, clear]

theorem contains_eq_isSome_get? (s : Sharded κ β) (k : κ) : s.contains k = (s.get? k).isSome := by
  simp [contains, get?]

/-! ## Counting

  Only the shard of a key counts it, so the counts of the shards add up. -/

/-- The keys in a list of shards. -/
def total : List (Std.HashMap κ β) → Nat
  | [] => 0
  | shard :: rest => shard.size + total rest

theorem total_append (xs ys : List (Std.HashMap κ β)) : total (xs ++ ys) = total xs + total ys := by
  induction xs with
  | nil => rw [List.nil_append, total, Nat.zero_add]
  | cons shard rest ih => rw [List.cons_append, total, total, ih, Nat.add_assoc]

/-- The number of keys is the sum of the numbers in the shards. -/
theorem size_eq_total (s : Sharded κ β) : s.size = total s.shards.toList := by
  have fold : ∀ (l : List (Std.HashMap κ β)) (n : Nat),
      l.foldl (fun n shard => n + shard.size) n = n + total l := by
    intro l
    induction l with
    | nil => exact fun _ => rfl
    | cons shard rest ih =>
      intro n
      rw [List.foldl_cons, ih, total, Nat.add_assoc]
  rw [size, ← Array.foldl_toList, fold, Nat.zero_add]

/-- An update is counted in the shard of its key and nowhere else. -/
theorem size_update (s : Sharded κ β) (key : κ) (f : Std.HashMap κ β → Std.HashMap κ β) :
    (s.update key f).size + (s.shard key).size = s.size + (f (s.shard key)).size := by
  have hlt : s.index key < s.shards.toList.length := s.index_lt key
  have hsplit : s.shards.toList =
      s.shards.toList.take (s.index key) ++
        s.shard key :: s.shards.toList.drop (s.index key + 1) := by
    rw [shard, ← Array.getElem_toList, ← List.drop_eq_getElem_cons hlt, List.take_append_drop]
  have hmodify : (s.update key f).shards.toList =
      s.shards.toList.take (s.index key) ++
        f (s.shard key) :: s.shards.toList.drop (s.index key + 1) := by
    rw [update, Array.toList_modify, List.modify_eq_take_cons_drop hlt]
    rfl
  rw [size_eq_total, size_eq_total s, hmodify, congrArg total hsplit]
  rw [total_append, total_append, total, total]
  omega

/-- **A write adds a key if the key is new.** -/
theorem size_insert (s : Sharded κ β) (key : κ) (value : β) :
    (s.insert key value).size = if s.contains key then s.size else s.size + 1 := by
  have hupdate := s.size_update key fun shard => shard.insert key value
  rw [Std.HashMap.size_insert] at hupdate
  simp only [contains, ← Std.HashMap.mem_iff_contains]
  split <;> rename_i h <;> simp only [h, if_true, if_false] at hupdate <;>
    simp only [insert] <;> omega

/-- An erasure takes a key away if it was there. -/
theorem size_erase_of_contains (s : Sharded κ β) {key : κ} (h : s.contains key = true) :
    (s.erase key).size + 1 = s.size := by
  have hupdate := s.size_update key fun shard => shard.erase key
  rw [contains, ← Std.HashMap.mem_iff_contains] at h
  rw [Std.HashMap.size_erase, if_pos h] at hupdate
  have hpos : (s.shard key).size ≠ 0 := by
    intro hsize
    have hempty : (s.shard key).isEmpty = true := by
      rw [Std.HashMap.isEmpty_eq_size_eq_zero, hsize]
      rfl
    exact Std.HashMap.not_mem_of_isEmpty hempty h
  simp only [erase]
  omega

/-- Empty shards hold no key. -/
theorem size_eq_zero_of_shards (s : Sharded κ β) (h : ∀ shard ∈ s.shards, shard.size = 0) :
    s.size = 0 := by
  have htotal : ∀ l : List (Std.HashMap κ β), (∀ shard ∈ l, shard.size = 0) → total l = 0 := by
    intro l hl
    induction l with
    | nil => rfl
    | cons shard rest ih =>
      obtain ⟨hshard, hrest⟩ := List.forall_mem_cons.1 hl
      rw [total, hshard, ih hrest]
  rw [size_eq_total]
  exact htotal _ fun shard hshard => h shard (Array.mem_toList_iff.1 hshard)

@[simp] theorem size_clear (s : Sharded κ β) : s.clear.size = 0 := by
  refine s.clear.size_eq_zero_of_shards fun shard h => ?_
  obtain ⟨_, -, rfl⟩ := Array.mem_map.1 h
  rfl

@[simp] theorem size_create (pick : κ → UInt64) (requested : Nat) :
    (create pick requested : Sharded κ β).size = 0 := by
  refine size_eq_zero_of_shards _ fun shard h => ?_
  rw [(Array.mem_replicate.1 h).2]
  rfl

end Sharded

end ExprGraph
