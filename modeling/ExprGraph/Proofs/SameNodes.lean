/-
  Sameness of nodes — structural equality without a cache and without digests.

  `PairCache.equalM` looks at digests, at stored outcomes, and at arguments.  What it is to answer
  is a matter of the graph alone.

  1. **Specification** — `Graph.Same` is the least relation under which a node is the same as
     itself, and two nodes of one kind, not sealed, are the same as soon as their argument tuples
     are (`Argument.Same`, position by position).  It has no guard and no order of evaluation.  On
     graphs that were built node by node it is the only relation that satisfies the equation of
     such a comparison (`Compares.iff_same`).

  2. **Invariant** — `Graph.Built` is what every graph that was built node by node satisfies: nodes
     are older than what is built over them, maps are dictionaries, and digests are computed from
     kinds and arguments.  `Graph.insert` keeps it (`Built.insert`).

  3. **Laws** — on such graphs sameness is symmetric (`Same.symm`) and transitive (`Same.trans`),
     implies equal digests (`Same.digest_eq`) — which is why a comparison may trust digests that
     differ —, and is not affected by later nodes (`same_insert_iff`).
-/
import ExprGraph.Graph
import ExprGraph.Proofs.SameArguments

namespace ExprGraph.Graph

/-! ## The specification -/

/-- **Two nodes are the same.** -/
inductive Same (g : Graph) : NodeId → NodeId → Prop where
  | self (a : NodeId) : g.Same a a
  | contents {a b : NodeId} : g.kind a = g.kind b → g.kind a ≠ .sealed →
      List.Forall₂ (Argument.Same g.Same) (g.arguments a) (g.arguments b) → g.Same a b

variable {g : Graph} {H : Hasher} {a b : NodeId}

theorem Same.kind_eq (h : g.Same a b) : g.kind a = g.kind b := by
  cases h with
  | self => rfl
  | contents hkind _ _ => exact hkind

/-- Distinct nodes are the same by their contents only. -/
theorem same_iff_of_ne (hne : a ≠ b) (hkind : g.kind a = g.kind b) (hs : g.kind a ≠ .sealed) :
    g.Same a b ↔ List.Forall₂ (Argument.Same g.Same) (g.arguments a) (g.arguments b) := by
  constructor
  · intro h
    cases h with
    | self => exact absurd rfl hne
    | contents _ _ h => exact h
  · exact Same.contents hkind hs

/-- A sealed node is the same as itself only. -/
theorem not_same_of_sealed (hne : a ≠ b) (hs : g.kind a = .sealed) : ¬ g.Same a b := by
  intro h
  cases h with
  | self => exact hne rfl
  | contents _ h _ => exact h hs

/-- **The defining equation** of a comparison without cache and digests, for a relation `R`. -/
def Compares (g : Graph) (R : NodeId → NodeId → Prop) : Prop :=
  ∀ a b, R a b ↔ a = b ∨ (g.kind a = g.kind b ∧ g.kind a ≠ .sealed ∧
    List.Forall₂ (Argument.Same R) (g.arguments a) (g.arguments b))

theorem compares_same (g : Graph) : g.Compares g.Same := by
  intro a b
  constructor
  · intro h
    cases h with
    | self => exact Or.inl rfl
    | contents hkind hs hargs => exact Or.inr ⟨hkind, hs, hargs⟩
  · rintro (rfl | ⟨hkind, hs, hargs⟩)
    · exact .self a
    · exact .contents hkind hs hargs

/-! ## Graphs built node by node -/

/-- **What building node by node guarantees.** -/
structure Built (H : Hasher) (g : Graph) : Prop where
  /-- a node is older than whatever is built over it -/
  older : ∀ n, ∀ c ∈ g.children n, c < n
  /-- maps are dictionaries -/
  wellFormed : ∀ n, ∀ x ∈ g.arguments n, x.WellFormed
  /-- digests are computed from what the node does -/
  digest : ∀ n < g.size, g.digest n = H.digest ((g.operation n).tokens H g.digest)

theorem mem_children_iff {n c : NodeId} :
    c ∈ g.children n ↔ c ∈ (Argument.tuple (g.arguments n)).nodes := by
  rw [Argument.nodes, Argument.nodesOfItems_eq]
  exact Iff.rfl

theorem node_insert_of_ne {op : Operation} {n : NodeId} (h : n ≠ g.size) :
    (g.insert H op).2.node n = g.node n := by
  rcases Nat.lt_or_gt_of_ne h with hlt | hgt
  · exact node_insert_of_lt H g op hlt
  · have h₁ : g.nodes.size < n := hgt
    have h₂ : ¬ n < g.nodes.size := Nat.not_lt_of_gt h₁
    have h₃ : ¬ n < g.nodes.size + 1 := Nat.not_lt_of_ge h₁
    simp [insert, node, h₂, h₃]

theorem node_insert_self (op : Operation) :
    (g.insert H op).2.node g.size = ⟨op, H.digest (op.tokens H g.digest)⟩ := by
  simp [insert, node, size]

theorem built_empty (H : Hasher) : empty.Built H where
  older n c hc := by
    simp [children, operation, node, empty, Operation.children, Operation.arguments] at hc
  wellFormed n x hx := by
    simp [arguments, operation, node, empty, Operation.arguments] at hx
  digest n hn := absurd hn (Nat.not_lt_zero n)

/-- Digests of a node's children are all that its tokens take from the graph. -/
theorem tokens_congr {op : Operation} {d e : NodeId → UInt64}
    (hw : ∀ x ∈ op.arguments, x.WellFormed) (h : ∀ c ∈ op.children, d c = e c) :
    op.tokens H d = op.tokens H e := by
  have hsame : Argument.Same Eq (.tuple op.arguments) (.tuple op.arguments) :=
    Argument.Same.refl fun _ _ => rfl
  have hw := (Argument.itemsWellFormed_iff op.arguments).2 hw
  have htokens : (Argument.tuple op.arguments).tokens H d =
      (Argument.tuple op.arguments).tokens H e := by
    refine hsame.tokens_eq hw hw fun m hm n _ hmn => ?_
    rw [Argument.nodes, Argument.nodesOfItems_eq] at hm
    exact hmn ▸ h m hm
  simp only [Argument.tokens, List.cons.injEq, true_and] at htokens
  rw [Operation.tokens, Operation.tokens, htokens]

/-- **A node over existing nodes** keeps the graph well built. -/
theorem Built.insert (hg : g.Built H) {op : Operation} (hc : ∀ c ∈ op.children, c < g.size)
    (hw : ∀ x ∈ op.arguments, x.WellFormed) : (g.insert H op).2.Built H where
  older n c h := by
    by_cases hn : n = g.size
    · subst hn
      rw [children, operation_insert] at h
      exact hc c h
    · rw [children, operation, node_insert_of_ne hn] at h
      exact hg.older n c h
  wellFormed n x h := by
    by_cases hn : n = g.size
    · subst hn
      rw [arguments, operation_insert] at h
      exact hw x h
    · rw [arguments, operation, node_insert_of_ne hn] at h
      exact hg.wellFormed n x h
  digest n h := by
    -- tokens mention the digests of children only, and those were there before
    rw [size_insert] at h
    by_cases hn : n = g.size
    · subst hn
      rw [operation_insert, Graph.digest, node_insert_self]
      refine congrArg H.digest (tokens_congr hw fun c hmem => ?_)
      rw [Graph.digest, Graph.digest, node_insert_of_ne (Nat.ne_of_lt (hc c hmem))]
    · have hlt : n < g.size := by omega
      rw [operation, Graph.digest, node_insert_of_ne hn]
      have hdigest := hg.digest n hlt
      rw [operation, Graph.digest] at hdigest
      rw [hdigest]
      refine congrArg H.digest (tokens_congr (hg.wellFormed n) fun c hmem => ?_)
      have hlt : c < g.size := Nat.lt_trans (hg.older n c hmem) hlt
      rw [Graph.digest, Graph.digest, node_insert_of_ne (Nat.ne_of_lt hlt)]

/-! ## Laws of sameness -/

/-- **The equation has one solution**: nodes get older on the way down. -/
theorem Compares.iff_same (hg : g.Built H) {R : NodeId → NodeId → Prop} (hR : g.Compares R)
    (a b : NodeId) : R a b ↔ g.Same a b := by
  induction a using Nat.strongRecOn generalizing b with
  | _ a ih =>
    have hchildren : ∀ c ∈ (Argument.tuple (g.arguments a)).nodes,
        ∀ d ∈ (Argument.tuple (g.arguments b)).nodes, (R c d ↔ g.Same c d) := by
      intro c hc d _
      exact ih c (hg.older a c (mem_children_iff.2 hc)) d
    rw [hR a b, g.compares_same a b]
    refine or_congr_right (and_congr_right fun _ => and_congr_right fun _ => ?_)
    rw [← Argument.same_tuple_iff, ← Argument.same_tuple_iff]
    constructor
    · exact fun h => h.imp fun c hc d hd => (hchildren c hc d hd).1
    · exact fun h => h.imp fun c hc d hd => (hchildren c hc d hd).2

/-- **Sameness is symmetric.** -/
theorem Same.symm (hg : g.Built H) (h : g.Same a b) : g.Same b a := by
  induction a using Nat.strongRecOn generalizing b with
  | _ a ih =>
    cases h with
    | self => exact .self a
    | contents hkind hs hargs =>
      refine .contents hkind.symm (hkind ▸ hs) (Argument.same_tuple_iff.1 ?_)
      refine (Argument.Same.tuple hargs).swap.imp fun d _ c hc hcd => ?_
      exact ih c (hg.older a c (mem_children_iff.2 hc)) hcd

theorem same_comm (hg : g.Built H) : g.Same a b ↔ g.Same b a := ⟨.symm hg, .symm hg⟩

/-- **Sameness is transitive.** -/
theorem Same.trans (hg : g.Built H) {c : NodeId} (h : g.Same a b) (h' : g.Same b c) :
    g.Same a c := by
  induction a using Nat.strongRecOn generalizing b c with
  | _ a ih =>
    cases h with
    | self => exact h'
    | contents hkind hs hargs =>
      cases h' with
      | self => exact .contents hkind hs hargs
      | contents hkind' _ hargs' =>
        -- the nodes in between are of no interest, and those on the left are older
        refine .contents (hkind.trans hkind') hs (Argument.same_tuple_iff.1 ?_)
        refine ((Argument.Same.tuple hargs).comp (.tuple hargs')).imp ?_
        rintro x hx z - ⟨y, hxy, hyz⟩
        exact ih x (hg.older a x (mem_children_iff.2 hx)) hxy hyz

/-- **Same nodes have equal digests**, for any hasher. -/
theorem Same.digest_eq (hg : g.Built H) (ha : a < g.size) (hb : b < g.size) (h : g.Same a b) :
    g.digest a = g.digest b := by
  induction a using Nat.strongRecOn generalizing b with
  | _ a ih =>
    cases h with
    | self => rfl
    | contents hkind _ hargs =>
      have hwa := (Argument.itemsWellFormed_iff _).2 (hg.wellFormed a)
      have hwb := (Argument.itemsWellFormed_iff _).2 (hg.wellFormed b)
      -- a digest is computed from the tokens, and same tuples have equal ones
      have htokens : (Argument.tuple (g.arguments a)).tokens H g.digest =
          (Argument.tuple (g.arguments b)).tokens H g.digest := by
        refine (Argument.Same.tuple hargs).tokens_eq hwa hwb fun c hc d hd hcd => ?_
        have hca := hg.older a c (mem_children_iff.2 hc)
        have hdb := hg.older b d (mem_children_iff.2 hd)
        exact ih c hca (Nat.lt_trans hca ha) (Nat.lt_trans hdb hb) hcd
      simp only [Argument.tokens, List.cons.injEq, true_and] at htokens
      obtain ⟨hlength, hitems⟩ := htokens
      have hcode : (g.operation a).kind = (g.operation b).kind := hkind
      rw [hg.digest a ha, hg.digest b hb, Operation.tokens, Operation.tokens, hcode]
      rw [arguments, arguments] at hlength hitems
      rw [hlength, hitems]

/-- **A later node changes nothing** between older ones. -/
theorem same_insert_iff (hg : g.Built H) (op : Operation) (ha : a < g.size) (hb : b < g.size) :
    (g.insert H op).2.Same a b ↔ g.Same a b := by
  have hkind : ∀ n < g.size, (g.insert H op).2.kind n = g.kind n := fun n hn => by
    rw [kind, operation, node_insert_of_ne (Nat.ne_of_lt hn), kind, operation]
  have harguments : ∀ n < g.size, (g.insert H op).2.arguments n = g.arguments n := fun n hn => by
    rw [arguments, operation, node_insert_of_ne (Nat.ne_of_lt hn), arguments, operation]
  -- children are older than the two nodes, so the induction stays below the new one
  induction a using Nat.strongRecOn generalizing b with
  | _ a ih =>
    have hchildren : ∀ c ∈ (Argument.tuple (g.arguments a)).nodes,
        ∀ d ∈ (Argument.tuple (g.arguments b)).nodes,
        ((g.insert H op).2.Same c d ↔ g.Same c d) := by
      intro c hc d hd
      have hca := hg.older a c (mem_children_iff.2 hc)
      have hdb := hg.older b d (mem_children_iff.2 hd)
      exact ih c hca (Nat.lt_trans hca ha) (Nat.lt_trans hdb hb)
    constructor
    · intro h
      cases h with
      | self => exact .self a
      | contents hk hs hargs =>
        rw [hkind a ha, hkind b hb] at hk
        rw [hkind a ha] at hs
        rw [harguments a ha, harguments b hb] at hargs
        refine .contents hk hs (Argument.same_tuple_iff.1 ?_)
        exact (Argument.Same.tuple hargs).imp fun c hc d hd => (hchildren c hc d hd).1
    · intro h
      cases h with
      | self => exact .self a
      | contents hk hs hargs =>
        rw [← hkind a ha, ← hkind b hb] at hk
        rw [← hkind a ha] at hs
        refine .contents hk hs ?_
        rw [harguments a ha, harguments b hb]
        refine Argument.same_tuple_iff.1 ?_
        exact (Argument.Same.tuple hargs).imp fun c hc d hd => (hchildren c hc d hd).2

end ExprGraph.Graph
