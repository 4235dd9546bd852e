/-
  Digests — what they say about sameness.

  A digest is computed when a node is built, from its kind, its argument tuple and the digests of the
  nodes in it.  A comparison looks at digests first, and goes on only if they agree.

  1. **Agreement** — same arguments are spelled alike and same nodes have equal digests, for any
     hasher.  So a comparison never turns away what is the same.

  2. **Ideal digests** — `Graph.Ideal`: digests agree only where kinds and argument tuples do, which
     can be checked on a given graph (`ideal_iff_check`).  What they cannot tell apart, even then,
     are sealed nodes with equal arguments; `Graph.SealedAlike` says that two nodes lead to the same
     sealed nodes, along the same paths.  The two together are sameness (`Ideal.same_iff`).

  3. **Consequences** — without sealed nodes below, two nodes that differ are told apart by their
     digests, and nothing is recorded.  A stored difference is one between two sealed nodes that are
     reached along one path.
-/
import ExprGraph.Proofs.Closure
import ExprGraph.Proofs.Equivalence

namespace ExprGraph

namespace Graph

variable {g : Graph} {H : Hasher} {a b n : NodeId} {path : List (List Argument.Step)}

/-! ## Ideal digests -/

/-- **Digests without collisions**: they agree exactly where the kinds do and the argument tuples,
    nodes being compared by their digests. -/
def Ideal (g : Graph) : Prop :=
  ∀ a < g.size, ∀ b < g.size, g.digest a = g.digest b ↔ g.kind a = g.kind b ∧
    List.Forall₂ (Argument.Same fun c d => g.digest c = g.digest d) (g.arguments a) (g.arguments b)

/-- **The same sealed nodes**, wherever one path leads to a sealed node from both. -/
def SealedAlike (g : Graph) (a b : NodeId) : Prop :=
  ∀ path m n, g.follow a path = some m → g.follow b path = some n →
    g.kind m = .sealed → g.kind n = .sealed → m = n

theorem SealedAlike.nodeAt? {c d : NodeId} {place : List Argument.Step} (h : g.SealedAlike a b)
    (hc : g.nodeAt? a place = some c) (hd : g.nodeAt? b place = some d) : g.SealedAlike c d :=
  fun path m n hm hn =>
    h (place :: path) m n (follow_cons.2 ⟨c, hc, hm⟩) (follow_cons.2 ⟨d, hd, hn⟩)

theorem Same.sealedAlike (h : g.Same a b) : g.SealedAlike a b := by
  intro path m n hm hn hsealed _
  by_contra hne
  exact not_same_of_sealed hne hsealed (h.follow hm hn)

/-- **Digests decide sameness**, up to sealed nodes. -/
theorem Ideal.same_iff (hi : g.Ideal) (hg : g.Built H) (ha : a < g.size) (hb : b < g.size) :
    g.Same a b ↔ g.digest a = g.digest b ∧ g.SealedAlike a b := by
  constructor
  · exact fun h => ⟨h.digest_eq hg ha hb, h.sealedAlike⟩
  · rintro ⟨hdigest, halike⟩
    -- a difference further down would show in the digests, or in a sealed node
    induction a using Nat.strongRecOn generalizing b with
    | _ a ih =>
      obtain ⟨hkind, hargs⟩ := (hi a ha b hb).1 hdigest
      by_cases hsealed : g.kind a = .sealed
      · have hab : a = b := halike [] a b rfl rfl hsealed (hkind ▸ hsealed)
        exact hab ▸ .self a
      · refine .contents hkind hsealed (Argument.same_tuple_iff.1 ?_)
        refine (Argument.Same.tuple hargs).imp_places fun place c d hc hd hcd => ?_
        have hc := nodeAt?_eq_some_iff.2 hc
        have hd := nodeAt?_eq_some_iff.2 hd
        have hca := hg.older a c (mem_children_of_nodeAt? hc)
        have hdb := hg.older b d (mem_children_of_nodeAt? hd)
        exact ih c hca (Nat.lt_trans hca ha) (Nat.lt_trans hdb hb) hcd (halike.nodeAt? hc hd)

/-- **Ideal digests can be checked**: the traversal compares the argument tuples, and digests answer
    its questions. -/
theorem ideal_iff_check (hw : ∀ n, ∀ x ∈ g.arguments n, x.WellFormed) :
    g.Ideal ↔ ∀ a < g.size, ∀ b < g.size, g.digest a = g.digest b ↔ g.kind a = g.kind b ∧
      Argument.equalPure (fun c d => decide (g.digest c = g.digest d)) (.tuple (g.arguments a))
        (.tuple (g.arguments b)) = true := by
  have hitems : ∀ n, (Argument.tuple (g.arguments n)).WellFormed := fun n =>
    (Argument.itemsWellFormed_iff _).2 (hw n)
  refine forall₂_congr fun a _ => forall₂_congr fun b _ => iff_congr Iff.rfl ?_
  rw [Argument.equalM_pure_iff (hitems a) (hitems b), Argument.same_tuple_iff]
  simp only [decide_eq_true_eq]

/-- **No sealed node below** one of the two. -/
theorem sealedAlike_of_unsealed (h : (∀ n, g.Reaches a n → g.kind n ≠ .sealed) ∨
    ∀ n, g.Reaches b n → g.kind n ≠ .sealed) : g.SealedAlike a b := by
  intro path m n hm hn hsealed hsealed'
  rcases h with h | h
  · exact absurd hsealed (h m (reaches_of_follow hm))
  · exact absurd hsealed' (h n (reaches_of_follow hn))

/-- Without sealed nodes below, digests alone decide. -/
theorem Ideal.same_of_unsealed (hi : g.Ideal) (hg : g.Built H) (ha : a < g.size) (hb : b < g.size)
    (hdigest : g.digest a = g.digest b) (h : (∀ n, g.Reaches a n → g.kind n ≠ .sealed) ∨
      ∀ n, g.Reaches b n → g.kind n ≠ .sealed) : g.Same a b :=
  (hi.same_iff hg ha hb).2 ⟨hdigest, sealedAlike_of_unsealed h⟩

/-- What is below is older, so it is enough to look at older nodes. -/
theorem Built.unsealed_of_le (hg : g.Built H) (h : ∀ m ≤ n, g.kind m ≠ .sealed) :
    ∀ m, g.Reaches n m → g.kind m ≠ .sealed := fun m hm => h m (hg.le_of_reaches hm)

end Graph

namespace Session

variable {H : Hasher} {picker : ShardPicker} {s : Session}

/-! ## Agreement -/

/-- **Digests agree with sameness.**  Same arguments feed any hasher alike, whatever was fed before
    and is fed after; same nodes have equal digests; and so each cache finds them equal. -/
theorem digests_agree (h : Reachable H picker s) :
    (∀ x y, s.Known x → s.Known y → Argument.Same s.graph.Same x y →
      ∀ (E : Hasher) (before after : List Token),
        E.digest (before ++ x.tokens H s.graph.digest ++ after) =
          E.digest (before ++ y.tokens H s.graph.digest ++ after)) ∧
    ∀ a b, a < s.graph.size → b < s.graph.size → s.graph.Same a b →
      s.graph.digest a = s.graph.digest b ∧ s.graph.kind a = s.graph.kind b ∧
        ∀ ref, s.equal ref a b = true := by
  have hg := h.consistent.built
  refine ⟨fun x y hx hy hxy E before after => ?_, fun a b ha hb hab => ?_⟩
  · have htokens : x.tokens H s.graph.digest = y.tokens H s.graph.digest :=
      hxy.tokens_eq hx.1 hy.1 fun c hc d hd hcd => hcd.digest_eq hg (hx.2 c hc) (hy.2 d hd)
    rw [htokens]
  · exact ⟨hab.digest_eq hg ha hb, hab.kind_eq, fun ref => (Later.refl.equal_iff h ref ha hb).2 hab⟩

/-- A dictionary with a list and a NaN. -/
def nestedEntries : Argument := .map [("a", .node 0), ("b", .float ⟨0x7FF8000000000000⟩)]

/-- The same in another order, with the other list and with a NaN of other bits. -/
def nestedEntriesTurned : Argument := .map [("b", .float ⟨0xFFF8000000000001⟩), ("a", .node 1)]

/-- Two equal lists, and two equal dictionaries. -/
theorem digests_agree_nestedRun :
    Reachable .mixing .standard nestedRun.2 ∧
    nestedRun.2.graph.Same 2 3 ∧
    nestedRun.2.graph.digest 2 = nestedRun.2.graph.digest 3 ∧
    Argument.Same nestedRun.2.graph.Same nestedEntries nestedEntriesTurned ∧
    ∀ (E : Hasher) (before after : List Token),
      E.digest (before ++ nestedEntries.tokens .mixing nestedRun.2.graph.digest ++ after) =
        E.digest (before ++ nestedEntriesTurned.tokens .mixing nestedRun.2.graph.digest ++ after) := by
  have hinner : nestedRun.2.graph.Same 0 1 := .contents rfl (by decide) .nil
  have houter : nestedRun.2.graph.Same 2 3 := .contents rfl (by decide) (.cons (.node hinner) .nil)
  have hentries : Argument.Same nestedRun.2.graph.Same nestedEntries nestedEntriesTurned := by
    refine .map fun key => ?_
    by_cases ha : key = "a"
    · subst ha
      exact .some (.node hinner)
    by_cases hb : key = "b"
    · subst hb
      exact .some (.float (by decide))
    · simp [List.lookup_cons, beq_false_of_ne ha, beq_false_of_ne hb]
  have hknown : nestedRun.2.Known nestedEntries ∧ nestedRun.2.Known nestedEntriesTurned := by
    refine ⟨⟨⟨by decide, trivial, trivial, trivial⟩, fun n hn => ?_⟩,
      ⟨by decide, trivial, trivial, trivial⟩, fun n hn => ?_⟩
    · obtain rfl : n = 0 := List.mem_singleton.1 hn
      decide
    · obtain rfl : n = 1 := List.mem_singleton.1 hn
      decide
  obtain ⟨harguments, hnodes⟩ := digests_agree reachable_nestedRun
  exact ⟨reachable_nestedRun, houter, (hnodes 2 3 (by decide) (by decide) houter).1, hentries,
    harguments _ _ hknown.1 hknown.2 hentries⟩

/-! ## A run to look at -/

/-- Two lists of one sealed node each, and an empty list. -/
def sealedLists : List Action :=
  [.create .sealed [], .create .sealed [], .create .list [.node 0], .create .list [.node 1],
    .create .list []]

/-- The lists of sealed nodes, compared through the shared cache. -/
def sealedTwins : List Action := sealedLists ++ [.compare .shared (.node 2) (.node 3)]

/-- The histories of that run, and the session at its end. -/
def sealedRun : (CacheRef → List CacheStep) × Session := play .mixing .standard sealedTwins

theorem run_sealedRun : Run .mixing .standard sealedRun.1 sealedRun.2 := by
  refine run_play ?_
  simp only [sealedTwins, sealedLists, List.cons_append, List.nil_append, PermitsAll, permits,
    Usable, Argument.WellFormed, Argument.nodes, List.not_mem_nil, List.mem_singleton, forall_eq,
    false_imp_iff, implies_true, true_and, and_true]
  exact ⟨rfl, rfl, trivial, rfl, rfl⟩

theorem reachable_sealedRun : Reachable .mixing .standard sealedRun.2 :=
  reachable_iff_run.2 ⟨_, run_sealedRun⟩

/-- The difference of the sealed nodes is stored, and then that of the lists. -/
theorem history_sealedRun : sealedRun.1 .shared =
    [.miss (.of 2 3), .miss (.of 0 1), .store 0 1 false, .store 2 3 false] := by
  let s := (play .mixing .standard sealedLists).2
  have hleaf : PairCache.recordContentsM s.graph 0 1 = pure false :=
    PairCache.recordContentsM_of_sealed rfl
  exact PairCache.record_of_single_leaf (g := s.graph) (a := 2) (b := 3) (by decide) ⟨rfl, rfl⟩
    (by decide) rfl rfl (by decide) (by decide) ⟨rfl, rfl⟩ hleaf (PairCache.lookup_create _ _ _)

/-- The hasher of running programs makes no collision in this run. -/
theorem ideal_sealedRun : sealedRun.2.graph.Ideal :=
  (Graph.ideal_iff_check run_sealedRun.invariant.1.built.wellFormed).2 (by decide +kernel)

/-! ## What is recorded -/

/-- A cache with nothing to report may be put back. -/
theorem putCache_cache {ref : CacheRef} (hquiet : (s.cache ref).quiet = s.cache ref) :
    s.putCache ref (s.cache ref) = s := by
  have hevents : (s.cache ref).events = #[] := (congrArg PairCache.events hquiet).symm
  cases ref with
  | shared =>
    show { s with log := s.log ++ (s.cache .shared).events, shared := (s.cache .shared).quiet } = s
    rw [hevents, hquiet, Array.append_empty]
    rfl
  | pass i =>
    have hpasses : s.passes.setIfInBounds i (s.cache (.pass i)) = s.passes := by
      refine Array.ext_getElem? fun j => ?_
      rw [Array.getElem?_setIfInBounds]
      split
      · rename_i hij
        subst hij
        split
        · rename_i hi
          rw [Session.cache, Array.getD_eq_getD_getElem?, Array.getElem?_eq_getElem hi]
          rfl
        · rename_i hi
          exact (Array.getElem?_eq_none (Nat.le_of_not_lt hi)).symm
      · rfl
    show { s with
      log := s.log ++ (s.cache (.pass i)).events
      passes := s.passes.setIfInBounds i (s.cache (.pass i)).quiet } = s
    rw [hevents, hquiet, Array.append_empty, hpasses]

/-- **Where digests differ**, the answer is no, and nothing is recorded. -/
theorem Consistent.onCache_of_digest_ne (h : Consistent H s) (ref : CacheRef) {a b : NodeId}
    (hdigest : s.graph.digest a ≠ s.graph.digest b) :
    s.onCache ref (PairCache.equalM s.graph a b) = (false, s) := by
  have hab : a ≠ b := fun hab => hdigest (congrArg s.graph.digest hab)
  have hpure : PairCache.equalM s.graph a b = pure false := by
    rw [PairCache.equalM, if_neg hab, if_pos (Or.inl hdigest)]
  rw [hpure]
  exact congrArg (Prod.mk false) (putCache_cache (h.quiet ref))

/-- **What digests decide**, when they are ideal.  A cache finds two nodes equal if and only if their
    digests agree and they lead to the same sealed nodes.  If one of the two leads to no sealed node,
    then only digests tell them apart, and the session does not notice that it was asked.  And a
    stored difference is one between two distinct sealed nodes, reached along one path. -/
theorem digests_decide (h : Reachable H picker s) (hi : s.graph.Ideal) (ref : CacheRef) :
    (∀ a b, a < s.graph.size → b < s.graph.size →
      (s.equal ref a b = true ↔
        s.graph.digest a = s.graph.digest b ∧ s.graph.SealedAlike a b)) ∧
    (∀ a b, a < s.graph.size → b < s.graph.size →
      ((∀ n, s.graph.Reaches a n → s.graph.kind n ≠ .sealed) ∨
        ∀ n, s.graph.Reaches b n → s.graph.kind n ≠ .sealed) →
      s.equal ref a b = false →
        s.graph.digest a ≠ s.graph.digest b ∧
          s.onCache ref (PairCache.equalM s.graph a b) = (false, s)) ∧
    ∀ p, (s.cache ref).lookup p = some false → ∃ path m n,
      s.graph.follow p.low path = some m ∧ s.graph.follow p.high path = some n ∧
        s.graph.kind m = .sealed ∧ s.graph.kind n = .sealed ∧ m ≠ n := by
  have hs := h.consistent
  have hequal : ∀ a b, a < s.graph.size → b < s.graph.size →
      (s.equal ref a b = true ↔ s.graph.digest a = s.graph.digest b ∧ s.graph.SealedAlike a b) :=
    fun a b ha hb => (Later.refl.equal_iff h ref ha hb).trans (hi.same_iff hs.built ha hb)
  refine ⟨hequal, fun a b ha hb hunsealed hno => ?_, fun p hp => ?_⟩
  · have hdigest : s.graph.digest a ≠ s.graph.digest b := by
      intro hdigest
      have hyes := (hequal a b ha hb).2 ⟨hdigest, Graph.sealedAlike_of_unsealed hunsealed⟩
      exact Bool.false_ne_true (hno.symm.trans hyes)
    exact ⟨hdigest, hs.onCache_of_digest_ne ref hdigest⟩
  · -- the digests of a stored pair agree, so the difference is in the sealed nodes
    obtain ⟨history, hrun⟩ := reachable_iff_run.1 h
    have hcoherent := hrun.coherent_cache ref
    obtain ⟨hlow, hhigh, hright⟩ := hcoherent.sound p false hp
    by_contra hnone
    have halike : s.graph.SealedAlike p.low p.high := by
      intro path m n hm hn hsealed hsealed'
      by_contra hne
      exact hnone ⟨path, m, n, hm, hn, hsealed, hsealed', hne⟩
    have hsame := (hi.same_iff hs.built hlow hhigh).2 ⟨hcoherent.digest p false hp, halike⟩
    exact Bool.false_ne_true (hright.2 hsame)

/-- The lists of sealed nodes are stored as different, and lead to different sealed nodes; the empty
    list leads to none, and its digest is another. -/
theorem digests_decide_sealedRun :
    Reachable .mixing .standard sealedRun.2 ∧ sealedRun.2.graph.Ideal ∧
    (sealedRun.2.equal .shared 2 3 = true ↔
      sealedRun.2.graph.digest 2 = sealedRun.2.graph.digest 3 ∧ sealedRun.2.graph.SealedAlike 2 3) ∧
    sealedRun.2.onCache .shared (PairCache.equalM sealedRun.2.graph 4 2) = (false, sealedRun.2) ∧
    sealedRun.2.shared.lookup (.of 2 3) = some false ∧
    ∃ path m n, sealedRun.2.graph.follow 2 path = some m ∧
      sealedRun.2.graph.follow 3 path = some n ∧
        sealedRun.2.graph.kind m = .sealed ∧ sealedRun.2.graph.kind n = .sealed ∧ m ≠ n := by
  obtain ⟨hequal, hunsealed, hstored⟩ := digests_decide reachable_sealedRun ideal_sealedRun .shared
  have hfound : sealedRun.2.shared.lookup (.of 2 3) = some false :=
    run_sealedRun.lookup_of_last .shared [.miss (.of 2 3), .miss (.of 0 1), .store 0 1 false]
      history_sealedRun
  have hno : sealedRun.2.equal .shared 4 2 = false := by
    rw [← Bool.not_eq_true, hequal 4 2 (by decide) (by decide)]
    exact fun h => absurd h.1 (by decide)
  have hempty : ∀ n, sealedRun.2.graph.Reaches 4 n → sealedRun.2.graph.kind n ≠ .sealed := by
    intro n hn
    rcases Relation.ReflTransGen.cases_head hn with rfl | ⟨c, hc, -⟩
    · decide
    · exact absurd hc List.not_mem_nil
  exact ⟨reachable_sealedRun, ideal_sealedRun, hequal 2 3 (by decide) (by decide),
    (hunsealed 4 2 (by decide) (by decide) (Or.inl hempty) hno).2, hfound, hstored _ hfound⟩

end Session

end ExprGraph
