/-
  The pair cache — outcomes of comparisons, remembered per pair of nodes.

  Nodes never change and identities are never reused, so the outcome of a comparison stays true for
  as long as anyone can ask for it.  A cache stores it under the unordered pair of the two
  identities.

  1. **Pairs** — `Pair.of` puts the smaller identity first, so a pair has one spelling.

  2. **Two sorts of caches** — a cache made for one pass keeps what it stored until it is cleared.
     The shared cache (`tracksLifetimes`) also forgets every pair of a node that is destroyed.  For
     that it keeps, per node, the list of its partners in the order in which the pairs were stored,
     and it marks the nodes that it must be told about.

  3. **Program** — `lookup`, `store`, `evict`, `clear` and the counters.  `evict` drops a node's
     partner list first, then its pairs one by one (`evictPair`), each time taking the node off the
     partner's list (`unlink`); a list that becomes empty goes.

  4. **Events** — every hit, miss, eviction and clearing is noted in `events`, in order, and all but
     the clearings are counted.  The counters are numbers; counters of 64 bits show the same until
     they have counted 2^64 times, and begin again at zero there.
-/
import ExprGraph.Argument
import ExprGraph.Sharded
import Std.Data.HashSet

namespace ExprGraph

/-- **An unordered pair of nodes**, the smaller identity first. -/
structure Pair where
  low : NodeId
  high : NodeId
  deriving DecidableEq, Hashable

/-- The pair of two nodes, in whichever order they come. -/
def Pair.of (a b : NodeId) : Pair := if a ≤ b then ⟨a, b⟩ else ⟨b, a⟩

theorem Pair.of_comm (a b : NodeId) : Pair.of a b = Pair.of b a := by
  unfold Pair.of
  rcases Nat.lt_trichotomy a b with h | h | h
  · rw [if_pos (Nat.le_of_lt h), if_neg (Nat.not_le_of_lt h)]
  · rw [h]
  · rw [if_neg (Nat.not_le_of_lt h), if_pos (Nat.le_of_lt h)]

/-- What a cache reports. -/
inductive Event where
  | hit (pair : Pair)
  | miss (pair : Pair)
  | evicted (pair : Pair)
  | cleared
  deriving DecidableEq

/-- How shards are picked: a word for each pair and for each node. -/
structure ShardPicker where
  ofPair : Pair → UInt64
  ofNode : NodeId → UInt64

/-- The picker of running programs. -/
def ShardPicker.standard : ShardPicker := ⟨hash, hash⟩

/-- Counters of a cache, as numbers that no word bounds, and the number of pairs that it holds. -/
structure CacheStats where
  hits : Nat
  misses : Nat
  evictions : Nat
  entries : Nat
  deriving DecidableEq

/-- **A cache of comparison outcomes.** -/
structure PairCache where
  outcomes : Sharded Pair Bool
  /-- the partners of each node, oldest pair first; filled only if lifetimes are tracked -/
  partners : Sharded NodeId (List NodeId)
  /-- does the cache hear of destroyed nodes? -/
  tracksLifetimes : Bool
  /-- the nodes whose destruction must be reported -/
  marked : Std.HashSet NodeId
  hits : Nat
  misses : Nat
  evictions : Nat
  events : Array Event

namespace PairCache

/-- The number of shards when none is asked for. -/
def standardShards : Nat := 16

/-- An empty cache. -/
def create (picker : ShardPicker) (shards : Nat) (tracksLifetimes : Bool) : PairCache where
  outcomes := .create picker.ofPair shards
  partners := .create picker.ofNode shards
  tracksLifetimes := tracksLifetimes
  marked := ∅
  hits := 0
  misses := 0
  evictions := 0
  events := #[]

def shardCount (c : PairCache) : Nat := c.outcomes.shards.size

def size (c : PairCache) : Nat := c.outcomes.size

def isEmpty (c : PairCache) : Bool := c.outcomes.isEmpty

def stats (c : PairCache) : CacheStats := ⟨c.hits, c.misses, c.evictions, c.size⟩

/-- The stored outcome of a pair. -/
def lookup (c : PairCache) (pair : Pair) : Option Bool := c.outcomes.get? pair

/-- The stored outcome for two nodes. -/
def cached (c : PairCache) (a b : NodeId) : Option Bool := c.lookup (.of a b)

/-- The partners of a node, oldest pair first. -/
def partnersOf (c : PairCache) (n : NodeId) : List NodeId := (c.partners.get? n).getD []

def noteHit (c : PairCache) (pair : Pair) : PairCache :=
  { c with hits := c.hits + 1, events := c.events.push (.hit pair) }

def noteMiss (c : PairCache) (pair : Pair) : PairCache :=
  { c with misses := c.misses + 1, events := c.events.push (.miss pair) }

/-- Put `partner` at the end of the list of `n`, and mark `n`. -/
def link (c : PairCache) (n partner : NodeId) : PairCache :=
  { c with
    marked := c.marked.insert n
    partners := c.partners.insert n (c.partnersOf n ++ [partner]) }

/-- **Store an outcome.** A pair new to a cache that tracks lifetimes is linked both ways. -/
def store (c : PairCache) (a b : NodeId) (outcome : Bool) : PairCache :=
  let pair := Pair.of a b
  let isNew := !c.outcomes.contains pair
  let c := { c with outcomes := c.outcomes.insert pair outcome }
  if c.tracksLifetimes && isNew then (c.link a b).link b a else c

/-- Take `partner` off the list of `n`; a list that becomes empty goes. -/
def unlink (c : PairCache) (n partner : NodeId) : PairCache :=
  match c.partners.get? n with
  | none => c
  | some list =>
    match list.filter (· != partner) with
    | [] => { c with partners := c.partners.erase n }
    | rest => { c with partners := c.partners.insert n rest }

/-- Drop a pair, if it is stored. -/
def dropPair (c : PairCache) (pair : Pair) : PairCache :=
  if c.outcomes.contains pair then
    { c with
      outcomes := c.outcomes.erase pair
      evictions := c.evictions + 1
      events := c.events.push (.evicted pair) }
  else c

/-- Drop the pair of a node and one of its partners, and take the node off the partner's list. -/
def evictPair (c : PairCache) (n partner : NodeId) : PairCache :=
  (c.dropPair (.of n partner)).unlink partner n

/-- **Forget a node**: all its pairs, oldest first. -/
def evict (c : PairCache) (n : NodeId) : PairCache :=
  match c.partners.get? n with
  | none => c
  | some list =>
    list.foldl (fun c partner => c.evictPair n partner) { c with partners := c.partners.erase n }

/-- Forget a node that is destroyed; a node that was never marked has nothing to forget. -/
def nodeDestroyed (c : PairCache) (n : NodeId) : PairCache :=
  if c.marked.contains n then c.evict n else c

/-- Forget all pairs. -/
def clear (c : PairCache) : PairCache :=
  { c with
    outcomes := c.outcomes.clear
    partners := c.partners.clear
    events := c.events.push .cleared }

/-! ## What a lookup sees

  Notes and links change no outcome; a write and an eviction change that of their own pair. -/

@[simp] theorem lookup_noteHit (c : PairCache) (pair k : Pair) :
    (c.noteHit pair).lookup k = c.lookup k := rfl

@[simp] theorem lookup_noteMiss (c : PairCache) (pair k : Pair) :
    (c.noteMiss pair).lookup k = c.lookup k := rfl

@[simp] theorem lookup_link (c : PairCache) (n partner : NodeId) (k : Pair) :
    (c.link n partner).lookup k = c.lookup k := rfl

theorem lookup_store (c : PairCache) (a b : NodeId) (outcome : Bool) (k : Pair) :
    (c.store a b outcome).lookup k = if Pair.of a b = k then some outcome else c.lookup k := by
  unfold store
  simp only
  split <;> exact Sharded.get?_insert c.outcomes (Pair.of a b) outcome k

theorem lookup_clear (c : PairCache) (k : Pair) : c.clear.lookup k = none :=
  Sharded.get?_clear c.outcomes k

theorem lookup_create (picker : ShardPicker) (shards : Nat) (tracks : Bool) (k : Pair) :
    (create picker shards tracks).lookup k = none :=
  Sharded.get?_create picker.ofPair shards k

@[simp] theorem lookup_unlink (c : PairCache) (n partner : NodeId) (k : Pair) :
    (c.unlink n partner).lookup k = c.lookup k := by
  unfold unlink
  split
  · rfl
  · split <;> rfl

theorem lookup_dropPair (c : PairCache) (pair k : Pair) :
    (c.dropPair pair).lookup k = if pair = k then none else c.lookup k := by
  unfold dropPair
  split
  · exact Sharded.get?_erase c.outcomes pair k
  · rename_i h
    by_cases hk : pair = k
    · rw [if_pos hk, ← hk, lookup]
      rw [Sharded.contains_eq_isSome_get?] at h
      simpa using h
    · rw [if_neg hk]

theorem lookup_evictPair (c : PairCache) (n partner : NodeId) (k : Pair) :
    (c.evictPair n partner).lookup k = if Pair.of n partner = k then none else c.lookup k := by
  rw [evictPair, lookup_unlink, lookup_dropPair]

end PairCache

/-- A pair as text. -/
def Pair.text (p : Pair) : String := "(#" ++ toString p.low ++ ", #" ++ toString p.high ++ ")"

namespace Event

/-- The text of an event. -/
def text : Event → String
  | .hit pair => "equality cache hit for " ++ pair.text
  | .miss pair => "equality cache miss for " ++ pair.text
  | .evicted pair => "equality cache evicted " ++ pair.text
  | .cleared => "equality cache cleared"

/-- The level at which an event is logged. -/
def level : Event → String
  | .cleared => "DEBUG"
  | _ => "TRACE"

/-- The line of an event in a log. -/
def line (e : Event) : String := e.level ++ " " ++ e.text

end Event

end ExprGraph
