/-
  The partner index — two maps that say the same thing.

  A cache keeps outcomes under pairs; the shared cache also keeps, for every node, the list of its
  partners.  Both refine one plain list: the pairs stored and not yet removed, oldest first.

  1. **Specification** — `survivors steps` is that list, for any history of steps.  A store puts a
     new pair at the end, a destroyed node takes its pairs away, a clearing takes all.

  2. **Refinement** — `Refines c order`: the outcomes of `c` are stored under the pairs of `order`,
     as many as there are.  `Indexed c order`: the list of each node holds its partners in `order`,
     in that order; no list is empty; the nodes of all pairs are marked.

  3. **Steps** — one lemma for each operation.  The hard one is forgetting a node
     (`forgotten_foldl`): while the loop goes through the list of the node it edits the lists of its
     partners, and the two maps agree again only when it is done.

  4. **Histories** — `Keeps` joins the two, with no lists at all in a cache that does not track
     lifetimes; by induction it holds after every step of a proper history (`Keeps.replay`).
-/
import ExprGraph.Proofs.Episode

namespace ExprGraph

/-! ## The nodes of a pair -/

namespace Pair

/-- Is `n` one of the two nodes? -/
def Has (p : Pair) (n : NodeId) : Prop := p.low = n ∨ p.high = n

instance (p : Pair) (n : NodeId) : Decidable (p.Has n) := inferInstanceAs (Decidable (_ ∨ _))

/-- The other node of the pair, if `n` is one. -/
def partner? (p : Pair) (n : NodeId) : Option NodeId :=
  if p.low = n then some p.high
  else if p.high = n then some p.low
  else none

theorem isSome_partner? (p : Pair) (n : NodeId) : (p.partner? n).isSome ↔ p.Has n := by
  unfold partner? Has
  split
  · rename_i h
    simp [h]
  · rename_i h
    split <;> simp_all

theorem partner?_eq_none_iff (p : Pair) (n : NodeId) : p.partner? n = none ↔ ¬ p.Has n := by
  rw [← isSome_partner?, Option.not_isSome_iff_eq_none]

theorem partner?_eq_some_iff {p : Pair} (h : p.low < p.high) {n m : NodeId} :
    p.partner? n = some m ↔ Pair.of n m = p := by
  have hne : p.low ≠ p.high := Nat.ne_of_lt h
  constructor
  · intro hm
    unfold partner? at hm
    split at hm
    · rename_i hlow
      cases hm
      rw [← hlow]
      exact of_low_high h
    · split at hm
      · rename_i hhigh
        cases hm
        rw [← hhigh, of_comm]
        exact of_low_high h
      · cases hm
  · rintro rfl
    unfold Pair.of at hne ⊢
    unfold partner?
    split
    · simp
    · rename_i hnm
      rw [if_neg hnm] at hne
      simp [hne]

theorem has_of {a b n : NodeId} : (Pair.of a b).Has n ↔ a = n ∨ b = n := by
  unfold Pair.of Has
  split
  · exact Iff.rfl
  · exact Or.comm

end Pair

/-- The partners of a node among `order`, in that order. -/
def partnersIn (order : List Pair) (n : NodeId) : List NodeId :=
  order.filterMap fun p => p.partner? n

theorem mem_partnersIn {order : List Pair} (h : ∀ p ∈ order, p.low < p.high) {n m : NodeId} :
    m ∈ partnersIn order n ↔ Pair.of n m ∈ order := by
  rw [partnersIn, List.mem_filterMap]
  constructor
  · rintro ⟨p, hp, hm⟩
    rw [(Pair.partner?_eq_some_iff (h p hp)).1 hm]
    exact hp
  · intro hmem
    exact ⟨_, hmem, (Pair.partner?_eq_some_iff (h _ hmem)).2 rfl⟩

theorem partnersIn_nodup {order : List Pair} (h : ∀ p ∈ order, p.low < p.high)
    (hnodup : order.Nodup) (n : NodeId) : (partnersIn order n).Nodup := by
  induction order with
  | nil => exact List.nodup_nil
  | cons p rest ih =>
    have hrest := ih (fun q hq => h q (List.mem_cons_of_mem p hq)) (List.nodup_cons.1 hnodup).2
    unfold partnersIn at hrest ⊢
    rw [List.filterMap_cons]
    split
    · exact hrest
    · rename_i m hm
      refine List.nodup_cons.2 ⟨fun hmem => (List.nodup_cons.1 hnodup).1 ?_, hrest⟩
      have hp := (Pair.partner?_eq_some_iff (h p List.mem_cons_self)).1 hm
      rw [← hp]
      exact (mem_partnersIn fun q hq => h q (List.mem_cons_of_mem p hq)).1 hmem

/-- The pairs of a node, found through its partners. -/
theorem map_partnersIn {order : List Pair} (h : ∀ p ∈ order, p.low < p.high) (n : NodeId) :
    (partnersIn order n).map (Pair.of n) = order.filter fun p => p.Has n := by
  induction order with
  | nil => rfl
  | cons p rest ih =>
    have hrest := ih fun q hq => h q (List.mem_cons_of_mem p hq)
    unfold partnersIn at hrest ⊢
    rw [List.filterMap_cons, List.filter_cons]
    split
    · rename_i hm
      rw [hrest, if_neg (by simpa using (Pair.partner?_eq_none_iff p n).1 hm)]
    · rename_i m hm
      have hhas : p.Has n := (Pair.isSome_partner? p n).1 (by rw [hm]; rfl)
      rw [List.map_cons, hrest, (Pair.partner?_eq_some_iff (h p List.mem_cons_self)).1 hm,
        if_pos (by simpa using hhas)]

/-- **Without the pairs of one node**, the partners of another are the same but for that node. -/
theorem partnersIn_filter {order : List Pair} (h : ∀ p ∈ order, p.low < p.high) {n m : NodeId}
    (hnm : m ≠ n) : partnersIn (order.filter fun p => ¬ p.Has n) m =
      (partnersIn order m).filter (· != n) := by
  unfold partnersIn
  rw [List.filterMap_filter, List.filter_filterMap]
  refine List.filterMap_congr fun p hp => ?_
  cases hm : p.partner? m with
  | none => simp
  | some x =>
    have hp' := (Pair.partner?_eq_some_iff (h p hp)).1 hm
    have hhas : p.Has n ↔ x = n := by
      rw [← hp', Pair.has_of]
      exact or_iff_right hnm
    by_cases hx : x = n
    · simp [hhas, hx, Option.filter]
    · simp [hhas, hx, Option.filter]

theorem partnersIn_filter_self (order : List Pair) (n : NodeId) :
    partnersIn (order.filter fun p => ¬ p.Has n) n = [] := by
  rw [partnersIn, List.filterMap_eq_nil_iff]
  intro p hp
  rw [Pair.partner?_eq_none_iff]
  simpa using (List.mem_filter.1 hp).2

/-! ## What the operations do to the lists -/

namespace PairCache

theorem partnersOf_link (c : PairCache) (n partner m : NodeId) :
    (c.link n partner).partnersOf m =
      if n = m then c.partnersOf m ++ [partner] else c.partnersOf m := by
  unfold partnersOf link
  rw [Sharded.get?_insert]
  split
  · rename_i h
    rw [← h]
    rfl
  · rfl

theorem partnersOf_unlink (c : PairCache) (n partner m : NodeId) :
    (c.unlink n partner).partnersOf m =
      if n = m then (c.partnersOf m).filter (· != partner) else c.partnersOf m := by
  unfold unlink
  split
  · rename_i hn
    split
    · rename_i h
      rw [partnersOf, ← h, hn]
      rfl
    · rfl
  · rename_i list hn
    have hof : c.partnersOf n = list := by rw [partnersOf, hn]; rfl
    split
    · rename_i hempty
      unfold partnersOf
      rw [Sharded.get?_erase]
      split
      · rename_i h
        rw [← h, hn, Option.getD_some, hempty]
        rfl
      · rfl
    · unfold partnersOf
      rw [Sharded.get?_insert]
      split
      · rename_i h
        rw [← h, hn]
        rfl
      · rfl

/-- No node keeps a list without partners. -/
def NoEmptyList (c : PairCache) : Prop := ∀ m, c.partners.get? m ≠ some []

theorem NoEmptyList.link {c : PairCache} (h : c.NoEmptyList) (n partner : NodeId) :
    (c.link n partner).NoEmptyList := by
  intro m
  show (c.partners.insert n (c.partnersOf n ++ [partner])).get? m ≠ some []
  rw [Sharded.get?_insert]
  split
  · simp
  · exact h m

theorem NoEmptyList.unlink {c : PairCache} (h : c.NoEmptyList) (n partner : NodeId) :
    (c.unlink n partner).NoEmptyList := by
  unfold PairCache.unlink
  split
  · exact h
  · split
    · intro m
      show (c.partners.erase n).get? m ≠ some []
      rw [Sharded.get?_erase]
      split
      · simp
      · exact h m
    · rename_i hne
      intro m
      rw [Sharded.get?_insert]
      split
      · simpa using hne
      · exact h m

/-- Taking a node off a list touches nothing but the lists. -/
theorem unlink_eq (c : PairCache) (n partner : NodeId) :
    ∃ partners, c.unlink n partner = { c with partners := partners } := by
  unfold unlink
  split
  · exact ⟨c.partners, rfl⟩
  · split <;> exact ⟨_, rfl⟩

theorem contains_eq_isSome_lookup (c : PairCache) (p : Pair) :
    c.outcomes.contains p = (c.lookup p).isSome := Sharded.contains_eq_isSome_get? c.outcomes p

theorem size_store (c : PairCache) (a b : NodeId) (outcome : Bool) :
    (c.store a b outcome).size =
      if (c.lookup (.of a b)).isSome then c.size else c.size + 1 := by
  have hsize : (c.store a b outcome).size = (c.outcomes.insert (.of a b) outcome).size := by
    unfold store
    simp only
    split <;> rfl
  rw [hsize, Sharded.size_insert, contains_eq_isSome_lookup]
  rfl

/-- A store that only replaces an outcome, or in a cache without lists, links nothing. -/
theorem store_eq_of_not_linked (c : PairCache) {a b : NodeId} {outcome : Bool}
    (h : (c.tracksLifetimes && !c.outcomes.contains (.of a b)) = false) :
    c.store a b outcome = { c with outcomes := c.outcomes.insert (.of a b) outcome } := by
  unfold store
  exact if_neg (by rw [h]; exact Bool.false_ne_true)

/-- A store of a new pair in the shared cache links both nodes. -/
theorem store_eq_of_linked (c : PairCache) {a b : NodeId} {outcome : Bool}
    (h : (c.tracksLifetimes && !c.outcomes.contains (.of a b)) = true) :
    c.store a b outcome =
      (link { c with outcomes := c.outcomes.insert (.of a b) outcome } a b).link b a := by
  unfold store
  exact if_pos h

end PairCache

/-! ## Forgetting a node -/

/-- **What is left when the pairs of `n` with the nodes of `list` are gone**: `before` is the cache
    without the list of `n`, `after` the cache when the loop has gone through `list`. -/
structure Forgotten (n : NodeId) (list : List NodeId) (before after : PairCache) : Prop where
  lookup : ∀ p, after.lookup p = if p ∈ list.map (Pair.of n) then none else before.lookup p
  partnersOf : ∀ m, after.partnersOf m =
    if m ∈ list then (before.partnersOf m).filter (· != n) else before.partnersOf m
  noEmptyList : before.NoEmptyList → after.NoEmptyList
  size : after.size + list.length = before.size
  evictions : after.evictions = before.evictions + list.length
  events : after.events = before.events ++ (list.map fun m => Event.evicted (.of n m)).toArray
  marked : after.marked = before.marked
  tracksLifetimes : after.tracksLifetimes = before.tracksLifetimes
  hits : after.hits = before.hits
  misses : after.misses = before.misses

theorem forgotten_nil (n : NodeId) (c : PairCache) : Forgotten n [] c c where
  lookup p := by simp
  partnersOf m := by simp
  noEmptyList h := h
  size := rfl
  evictions := rfl
  events := by simp
  marked := rfl
  tracksLifetimes := rfl
  hits := rfl
  misses := rfl

/-- One round of the loop, for a pair that is stored. -/
theorem forgotten_evictPair {c : PairCache} {n m : NodeId} (h : (c.lookup (.of n m)).isSome) :
    Forgotten n [m] c (c.evictPair n m) := by
  have hcontains : c.outcomes.contains (.of n m) = true := by
    rw [PairCache.contains_eq_isSome_lookup]
    exact h
  have hdrop : c.dropPair (.of n m) = { c with
      outcomes := c.outcomes.erase (.of n m)
      evictions := c.evictions + 1
      events := c.events.push (.evicted (.of n m)) } := by
    rw [PairCache.dropPair, if_pos hcontains]
  obtain ⟨partners, hunlink⟩ := (c.dropPair (.of n m)).unlink_eq m n
  have hevict : c.evictPair n m = _ := hunlink
  have hlists : ∀ k, (c.dropPair (.of n m)).partnersOf k = c.partnersOf k := by
    intro k
    rw [hdrop]
    rfl
  -- the pair goes and is counted, then the node goes off the partner's list
  refine
    { lookup := fun p => ?_, partnersOf := fun k => ?_, noEmptyList := fun hc => ?_, size := ?_,
      evictions := ?_, events := ?_, marked := ?_, tracksLifetimes := ?_, hits := ?_, misses := ?_ }
  · rw [PairCache.lookup_evictPair]
    simp [eq_comm]
  · rw [PairCache.evictPair, PairCache.partnersOf_unlink, hlists]
    simp [eq_comm]
  · refine PairCache.NoEmptyList.unlink ?_ m n
    rw [hdrop]
    exact hc
  · rw [hevict, hdrop]
    exact Sharded.size_erase_of_contains c.outcomes hcontains
  · rw [hevict, hdrop]
    rfl
  · rw [hevict, hdrop]
    rfl
  all_goals
    rw [hevict, hdrop]

theorem Forgotten.trans {n : NodeId} {xs ys : List NodeId} {c d e : PairCache}
    (h : Forgotten n xs c d) (h' : Forgotten n ys d e) : Forgotten n (xs ++ ys) c e where
  lookup p := by
    rw [h'.lookup, h.lookup, List.map_append]
    by_cases hx : p ∈ xs.map (Pair.of n) <;> by_cases hy : p ∈ ys.map (Pair.of n) <;>
      simp only [List.mem_append, hx, hy, if_true, if_false, or_true, true_or, or_self]
  partnersOf m := by
    rw [h'.partnersOf, h.partnersOf]
    by_cases hx : m ∈ xs <;> by_cases hy : m ∈ ys <;> simp [hx, hy, List.filter_filter]
  noEmptyList hc := h'.noEmptyList (h.noEmptyList hc)
  size := by
    have h₁ := h.size
    have h₂ := h'.size
    rw [List.length_append]
    omega
  evictions := by
    rw [h'.evictions, h.evictions, List.length_append]
    omega
  events := by
    rw [h'.events, h.events, List.map_append, Array.append_assoc]
    simp
  marked := h'.marked.trans h.marked
  tracksLifetimes := h'.tracksLifetimes.trans h.tracksLifetimes
  hits := h'.hits.trans h.hits
  misses := h'.misses.trans h.misses

/-- **The loop**: each partner in turn, the pairs all being stored and distinct. -/
theorem forgotten_foldl {n : NodeId} {list : List NodeId} {c : PairCache} (hnodup : list.Nodup)
    (hstored : ∀ m ∈ list, (c.lookup (.of n m)).isSome) :
    Forgotten n list c (list.foldl (fun c m => c.evictPair n m) c) := by
  induction list generalizing c with
  | nil => exact forgotten_nil n c
  | cons m rest ih =>
    rw [List.nodup_cons] at hnodup
    have hhead := forgotten_evictPair (hstored m List.mem_cons_self)
    refine hhead.trans (ih hnodup.2 fun k hk => ?_)
    -- the pair of another partner is another pair, so the first round left it alone
    have hne : Pair.of n m ≠ Pair.of n k := by
      intro h
      rcases Pair.of_eq_iff.1 h with ⟨-, rfl⟩ | ⟨rfl, rfl⟩ <;> exact hnodup.1 hk
    rw [PairCache.lookup_evictPair, if_neg hne]
    exact hstored k (List.mem_cons_of_mem m hk)

/-! ## The specification -/

/-- What a step makes of the pairs stored, oldest first. -/
def survivorsAfter (order : List Pair) : CacheStep → List Pair
  | .store a b _ => if Pair.of a b ∈ order then order else order ++ [Pair.of a b]
  | .destroyed n => order.filter fun p => ¬ p.Has n
  | .clear _ => []
  | .hit _ | .miss _ => order

/-- **The pairs that survive a history**, in the order in which they were stored. -/
def survivors (steps : List CacheStep) : List Pair := steps.foldl survivorsAfter []

theorem survivors_concat (steps : List CacheStep) (step : CacheStep) :
    survivors (steps ++ [step]) = survivorsAfter (survivors steps) step := by
  rw [survivors, survivors, List.foldl_append]
  rfl

/-! ## The refinement -/

/-- **The outcomes** are stored under the pairs of `order`. -/
structure Refines (c : PairCache) (order : List Pair) : Prop where
  stored : ∀ p, (c.lookup p).isSome ↔ p ∈ order
  proper : ∀ p ∈ order, p.low < p.high
  nodup : order.Nodup
  size : c.size = order.length

/-- **The lists** hold the partners in `order`, and the nodes of all pairs are marked. -/
structure Indexed (c : PairCache) (order : List Pair) : Prop where
  partnersOf : ∀ n, c.partnersOf n = partnersIn order n
  noEmptyList : c.NoEmptyList
  marked : ∀ p ∈ order, ∀ n, p.Has n → c.marked.contains n = true

/-- No node has a list. -/
def Unindexed (c : PairCache) : Prop := ∀ n, c.partners.get? n = none

section Steps

variable {c : PairCache} {order : List Pair}

theorem Refines.store (h : Refines c order) {a b : NodeId} (hne : a ≠ b) (outcome : Bool) :
    Refines (c.store a b outcome) (survivorsAfter order (.store a b outcome)) := by
  have hstored : ∀ p, ((c.store a b outcome).lookup p).isSome ↔ Pair.of a b = p ∨ p ∈ order := by
    intro p
    rw [PairCache.lookup_store, ← h.stored p]
    split <;> simp_all
  have hsize := c.size_store a b outcome
  show Refines _ (if Pair.of a b ∈ order then order else order ++ [Pair.of a b])
  by_cases hmem : Pair.of a b ∈ order
  · rw [if_pos hmem]
    rw [if_pos ((h.stored _).2 hmem)] at hsize
    refine ⟨fun p => (hstored p).trans ?_, h.proper, h.nodup, hsize.trans h.size⟩
    exact or_iff_right_of_imp fun hp => hp ▸ hmem
  · rw [if_neg hmem]
    rw [if_neg (fun hsome => hmem ((h.stored _).1 hsome))] at hsize
    refine ⟨fun p => (hstored p).trans ?_, fun p hp => ?_, ?_, ?_⟩
    · rw [List.mem_append, List.mem_singleton, or_comm, eq_comm]
    · rcases List.mem_append.1 hp with hp | hp
      · exact h.proper p hp
      · rw [List.mem_singleton.1 hp]
        exact Pair.low_lt_high_of hne
    · refine List.nodup_append.2 ⟨h.nodup, by simp, ?_⟩
      rintro p hp q hq rfl
      exact hmem (List.mem_singleton.1 hq ▸ hp)
    · rw [hsize, h.size, List.length_append]
      rfl

/-- A new pair stands at the end of the lists of its two nodes. -/
theorem partnersIn_concat {a b : NodeId} (hne : a ≠ b) (n : NodeId) :
    partnersIn (order ++ [.of a b]) n = partnersIn order n ++
      (if a = n then [b] else if b = n then [a] else []) := by
  have happend : partnersIn (order ++ [.of a b]) n =
      partnersIn order n ++ ((Pair.of a b).partner? n).toList := by
    unfold partnersIn
    rw [List.filterMap_append]
    cases h : (Pair.of a b).partner? n <;> simp [h]
  have hproper := Pair.low_lt_high_of hne
  rw [happend]
  congr 1
  split
  · rename_i ha
    rw [(Pair.partner?_eq_some_iff hproper).2 (congrArg (Pair.of · b) ha.symm)]
    rfl
  · rename_i ha
    split
    · rename_i hb
      rw [(Pair.partner?_eq_some_iff hproper).2
        ((congrArg (Pair.of · a) hb.symm).trans (Pair.of_comm b a))]
      rfl
    · rename_i hb
      rw [(Pair.partner?_eq_none_iff (.of a b) n).2 fun h => (Pair.has_of.1 h).elim ha hb]
      rfl

theorem Indexed.store (h : Indexed c order) (href : Refines c order)
    (htracks : c.tracksLifetimes = true) {a b : NodeId} (hne : a ≠ b) (outcome : Bool) :
    Indexed (c.store a b outcome) (survivorsAfter order (.store a b outcome)) := by
  have hcontains : c.outcomes.contains (.of a b) = decide (Pair.of a b ∈ order) := by
    rw [PairCache.contains_eq_isSome_lookup, Bool.eq_iff_iff, decide_eq_true_iff]
    exact href.stored _
  show Indexed _ (if Pair.of a b ∈ order then order else order ++ [Pair.of a b])
  by_cases hmem : Pair.of a b ∈ order
  · -- a known pair only has its outcome replaced
    rw [if_pos hmem, c.store_eq_of_not_linked (by simp [hcontains, hmem])]
    exact ⟨h.partnersOf, h.noEmptyList, h.marked⟩
  · -- a new pair, linked both ways
    rw [if_neg hmem, c.store_eq_of_linked (by simp [htracks, hcontains, hmem])]
    have hbase : ∀ n, PairCache.partnersOf
        { c with outcomes := c.outcomes.insert (.of a b) outcome } n = partnersIn order n :=
      h.partnersOf
    refine ⟨fun n => ?_, (PairCache.NoEmptyList.link h.noEmptyList a b).link b a,
      fun p hp n hn => ?_⟩
    · rw [PairCache.partnersOf_link, PairCache.partnersOf_link, hbase, partnersIn_concat hne]
      by_cases ha : a = n
      · have hb : b ≠ n := fun hb => hne (ha.trans hb.symm)
        rw [if_neg hb, if_pos ha, if_pos ha]
      · by_cases hb : b = n
        · rw [if_pos hb, if_neg ha, if_neg ha, if_pos hb]
        · rw [if_neg hb, if_neg ha, if_neg ha, if_neg hb, List.append_nil]
    · show ((c.marked.insert a).insert b).contains n = true
      rw [Std.HashSet.contains_insert, Std.HashSet.contains_insert]
      rcases List.mem_append.1 hp with hp | hp
      · simp [h.marked p hp n hn]
      · rw [List.mem_singleton.1 hp, Pair.has_of] at hn
        rcases hn with rfl | rfl <;> simp

theorem unindexed_store (h : Unindexed c) (htracks : c.tracksLifetimes = false) (a b : NodeId)
    (outcome : Bool) : Unindexed (c.store a b outcome) := by
  rw [c.store_eq_of_not_linked (by rw [htracks]; rfl)]
  exact h

/-- A node without a list has nothing to forget. -/
theorem forgotten_of_no_list {n : NodeId} (h : c.partners.get? n = none) :
    Forgotten n [] { c with partners := c.partners.erase n } c where
  lookup p := by simp [PairCache.lookup]
  partnersOf m := by
    rw [if_neg List.not_mem_nil]
    unfold PairCache.partnersOf
    rw [Sharded.get?_erase]
    split
    · rename_i hm
      rw [← hm, h]
    · rfl
  noEmptyList hc m := by
    have hm := hc m
    rw [Sharded.get?_erase] at hm
    split at hm
    · rename_i hnm
      rw [← hnm, h]
      exact hm
    · exact hm
  size := rfl
  evictions := rfl
  events := by simp
  marked := rfl
  tracksLifetimes := rfl
  hits := rfl
  misses := rfl

/-- **A destroyed node takes its pairs with it**, those of its list. -/
theorem forgotten_nodeDestroyed (href : Refines c order) (h : Indexed c order) (n : NodeId) :
    Forgotten n (partnersIn order n) { c with partners := c.partners.erase n }
      (c.nodeDestroyed n) := by
  have hlist := h.partnersOf n
  cases hn : c.partners.get? n with
  | none =>
    have hnone : partnersIn order n = [] := by
      rw [← hlist, PairCache.partnersOf, hn]
      rfl
    have hsame : c.nodeDestroyed n = c := by
      unfold PairCache.nodeDestroyed PairCache.evict
      rw [hn]
      exact ite_self c
    rw [hnone, hsame]
    exact forgotten_of_no_list hn
  | some list =>
    have hlist : list = partnersIn order n := by
      rw [← hlist, PairCache.partnersOf, hn]
      rfl
    -- the list has a member, so some pair has the node, and the node is marked
    have hmarked : c.marked.contains n = true := by
      cases list with
      | nil => exact absurd hn (h.noEmptyList n)
      | cons m rest =>
        have hmem : Pair.of n m ∈ order :=
          (mem_partnersIn href.proper).1 (hlist ▸ List.mem_cons_self)
        exact h.marked _ hmem n (Pair.has_of.2 (Or.inl rfl))
    rw [PairCache.nodeDestroyed, if_pos hmarked, PairCache.evict, hn, ← hlist]
    refine forgotten_foldl (hlist ▸ partnersIn_nodup href.proper href.nodup n) fun m hm => ?_
    exact (href.stored _).2 ((mem_partnersIn href.proper).1 (hlist ▸ hm))

theorem lookup_nodeDestroyed (href : Refines c order) (h : Indexed c order) (n : NodeId)
    (p : Pair) : (c.nodeDestroyed n).lookup p = if p.Has n then none else c.lookup p := by
  rw [(forgotten_nodeDestroyed href h n).lookup]
  simp only [map_partnersIn href.proper, List.mem_filter, decide_eq_true_iff]
  have hbefore : PairCache.lookup { c with partners := c.partners.erase n } p = c.lookup p := rfl
  rw [hbefore]
  by_cases hmem : p ∈ order
  · simp only [hmem, true_and]
  · have hnone : c.lookup p = none := by simpa using mt (href.stored p).1 hmem
    rw [hnone, ite_self, ite_self]

theorem Refines.destroyed (href : Refines c order) (h : Indexed c order) (n : NodeId) :
    Refines (c.nodeDestroyed n) (survivorsAfter order (.destroyed n)) := by
  have hforgotten := forgotten_nodeDestroyed href h n
  show Refines _ (order.filter fun p => ¬ p.Has n)
  refine ⟨fun p => ?_, fun p hp => href.proper p (List.mem_filter.1 hp).1, href.nodup.filter _, ?_⟩
  · rw [lookup_nodeDestroyed href h, List.mem_filter, ← href.stored]
    split
    · rename_i hhas
      simp [hhas]
    · rename_i hhas
      simp [hhas]
  · have hsize : (c.nodeDestroyed n).size + (partnersIn order n).length = c.size := hforgotten.size
    have hsplit := order.length_eq_length_filter_add fun p => decide (p.Has n)
    rw [← map_partnersIn href.proper, List.length_map] at hsplit
    rw [href.size, hsplit] at hsize
    simp only [decide_not]
    omega

theorem Indexed.destroyed (href : Refines c order) (h : Indexed c order) (n : NodeId) :
    Indexed (c.nodeDestroyed n) (survivorsAfter order (.destroyed n)) := by
  have hforgotten := forgotten_nodeDestroyed href h n
  show Indexed _ (order.filter fun p => ¬ p.Has n)
  have herase : ∀ m, PairCache.partnersOf { c with partners := c.partners.erase n } m =
      if n = m then [] else partnersIn order m := by
    intro m
    rw [← h.partnersOf m]
    unfold PairCache.partnersOf
    rw [Sharded.get?_erase]
    split <;> rfl
  refine ⟨fun m => ?_, hforgotten.noEmptyList fun m => ?_, fun p hp m hm => ?_⟩
  · rw [hforgotten.partnersOf, herase]
    by_cases hmn : m = n
    · rw [if_pos hmn.symm, hmn, partnersIn_filter_self]
      exact ite_self []
    · rw [if_neg (Ne.symm hmn), partnersIn_filter href.proper hmn]
      split
      · rfl
      · -- a node that is no partner of `n` does not have `n` in its list
        rename_i hnot
        refine (List.filter_eq_self.2 fun k hk => ?_).symm
        rw [bne_iff_ne]
        rintro rfl
        rw [mem_partnersIn href.proper, Pair.of_comm] at hnot
        exact hnot ((mem_partnersIn href.proper).1 hk)
  · rw [Sharded.get?_erase]
    split
    · simp
    · exact h.noEmptyList m
  · rw [hforgotten.marked]
    exact h.marked p (List.mem_filter.1 hp).1 m hm

end Steps

/-! ## Histories -/

/-- **A step that can happen**: outcomes are about distinct nodes, and only a cache that tracks
    lifetimes hears of destroyed nodes. -/
def CacheStep.Proper (tracks : Bool) : CacheStep → Prop
  | .store a b _ => a ≠ b
  | .destroyed _ => tracks = true
  | .hit _ | .miss _ | .clear _ => True

/-- **The invariant of a cache** that holds the pairs of `order`. -/
structure Keeps (c : PairCache) (order : List Pair) : Prop extends Refines c order where
  indexed : c.tracksLifetimes = true → Indexed c order
  unindexed : c.tracksLifetimes = false → Unindexed c

theorem keeps_create (picker : ShardPicker) (shards : Nat) (tracks : Bool) :
    Keeps (.create picker shards tracks) [] where
  stored p := by simp [PairCache.lookup_create]
  proper p hp := absurd hp List.not_mem_nil
  nodup := List.nodup_nil
  size := Sharded.size_create picker.ofPair shards
  indexed _ :=
    { partnersOf := fun n => by simp [PairCache.partnersOf, PairCache.create, partnersIn]
      noEmptyList := fun n => by simp [PairCache.create]
      marked := fun p hp => absurd hp List.not_mem_nil }
  unindexed _ n := Sharded.get?_create picker.ofNode shards n

theorem keeps_clear (c : PairCache) : Keeps c.clear [] where
  stored p := by simp [PairCache.lookup_clear]
  proper p hp := absurd hp List.not_mem_nil
  nodup := List.nodup_nil
  size := Sharded.size_clear c.outcomes
  indexed _ :=
    { partnersOf := fun n => by simp [PairCache.partnersOf, PairCache.clear, partnersIn]
      noEmptyList := fun n => by simp [PairCache.clear]
      marked := fun p hp => absurd hp List.not_mem_nil }
  unindexed _ n := Sharded.get?_clear c.partners n

theorem tracksLifetimes_store (c : PairCache) (a b : NodeId) (outcome : Bool) :
    (c.store a b outcome).tracksLifetimes = c.tracksLifetimes := by
  unfold PairCache.store
  simp only
  split <;> rfl

/-- **One step.** -/
theorem Keeps.apply {c : PairCache} {order : List Pair} (h : Keeps c order) {step : CacheStep}
    (hstep : step.Proper c.tracksLifetimes) :
    Keeps (c.apply step) (survivorsAfter order step) ∧
      (c.apply step).tracksLifetimes = c.tracksLifetimes := by
  cases step with
  | hit pair =>
    exact ⟨⟨⟨h.stored, h.proper, h.nodup, h.size⟩,
      fun ht => ⟨(h.indexed ht).partnersOf, (h.indexed ht).noEmptyList, (h.indexed ht).marked⟩,
      h.unindexed⟩, rfl⟩
  | miss pair =>
    exact ⟨⟨⟨h.stored, h.proper, h.nodup, h.size⟩,
      fun ht => ⟨(h.indexed ht).partnersOf, (h.indexed ht).noEmptyList, (h.indexed ht).marked⟩,
      h.unindexed⟩, rfl⟩
  | store a b outcome =>
    have htracks := tracksLifetimes_store c a b outcome
    refine ⟨⟨h.toRefines.store hstep outcome, fun ht => ?_, fun ht => ?_⟩, htracks⟩
    · exact (h.indexed (htracks ▸ ht)).store h.toRefines (htracks ▸ ht) hstep outcome
    · exact unindexed_store (h.unindexed (htracks ▸ ht)) (htracks ▸ ht) a b outcome
  | destroyed n =>
    have hindexed := h.indexed hstep
    have htracks := (forgotten_nodeDestroyed h.toRefines hindexed n).tracksLifetimes
    refine ⟨⟨h.toRefines.destroyed hindexed n, fun _ => hindexed.destroyed h.toRefines n,
      fun ht => ?_⟩, htracks⟩
    exact absurd (hstep.symm.trans (htracks.symm.trans ht)) Bool.noConfusion
  | clear entries => exact ⟨keeps_clear c, rfl⟩

theorem Keeps.destroyed {c : PairCache} {order : List Pair} (h : Keeps c order)
    (htracks : c.tracksLifetimes = true) (n : NodeId) :
    Keeps (c.nodeDestroyed n) (survivorsAfter order (.destroyed n)) ∧
      (c.nodeDestroyed n).tracksLifetimes = c.tracksLifetimes := by
  have hstep : CacheStep.Proper c.tracksLifetimes (.destroyed n) := htracks
  exact h.apply hstep

/-- **Every history.** -/
theorem Keeps.replay {c : PairCache} {order : List Pair} (h : Keeps c order)
    {steps : List CacheStep} (hsteps : ∀ step ∈ steps, step.Proper c.tracksLifetimes) :
    Keeps (c.replay steps) (steps.foldl survivorsAfter order) ∧
      (c.replay steps).tracksLifetimes = c.tracksLifetimes := by
  induction steps generalizing c order with
  | nil => exact ⟨h, rfl⟩
  | cons step rest ih =>
    obtain ⟨hstep, hrest⟩ := List.forall_mem_cons.1 hsteps
    obtain ⟨hkeeps, htracks⟩ := h.apply hstep
    obtain ⟨hkeeps', htracks'⟩ := ih hkeeps fun step hmem => htracks ▸ hrest step hmem
    exact ⟨hkeeps', htracks'.trans htracks⟩

/-- **Several destroyed nodes** take all their pairs with them, and leave the other outcomes. -/
theorem Keeps.lookup_replay_destroyed {c : PairCache} {order : List Pair} (h : Keeps c order)
    (htracks : c.tracksLifetimes = true) (ns : List NodeId) (p : Pair) :
    (c.replay (ns.map .destroyed)).lookup p =
      if ∃ n ∈ ns, p.Has n then none else c.lookup p := by
  induction ns generalizing c order with
  | nil => exact (if_neg fun ⟨n, hn, _⟩ => List.not_mem_nil hn).symm
  | cons n rest ih =>
    have hlookup : (c.nodeDestroyed n).lookup p = if p.Has n then none else c.lookup p :=
      lookup_nodeDestroyed h.toRefines (h.indexed htracks) n p
    obtain ⟨hkeeps, htracks'⟩ := h.destroyed htracks n
    rw [List.map_cons, PairCache.replay_cons, PairCache.apply,
      ih hkeeps (htracks'.trans htracks), hlookup]
    by_cases hn : p.Has n <;> by_cases hrest : ∃ m ∈ rest, p.Has m <;> simp [hn, hrest]

/-- Reports have no part in it. -/
theorem Keeps.quiet {c : PairCache} {order : List Pair} (h : Keeps c order) :
    Keeps c.quiet order where
  stored := h.stored
  proper := h.proper
  nodup := h.nodup
  size := h.size
  indexed ht :=
    { partnersOf := (h.indexed ht).partnersOf
      noEmptyList := (h.indexed ht).noEmptyList
      marked := (h.indexed ht).marked }
  unindexed := h.unindexed

end ExprGraph
