/-
  Descent — identities go down, and every comparison comes to an end.

  A comparison of two nodes recurs through tuples, through maps and through a cache, and nothing on
  the way counts down.  What it rests on is an order that nobody looks at: a node is built over
  nodes that are there already, and takes the next identity, so that whatever is asked next is about
  older nodes.

  1. **Identities** — `Session.created` are the identities that actions hand out: those of the new
     nodes, in ascending order (`created_ascending`, `mem_created_iff`), whatever was destroyed in
     between.  They are numbers here; a counter of 64 bits hands out the same ones for the first 2^64
     nodes.

  2. **Program** — `PairCache.watchedEqualM` is the comparison without its guard, and watched.  It
     fails when calls are nested deeper than is allowed, when a pair is asked for while it is being
     compared, its nodes in either order, and when an outcome is to be stored where there is one.

  3. **Invariant** — below two nodes that are being compared, both sides are older, so nothing that
     is asked or stored there is about their pair (`Uneventful`).

  4. **Result** — in a graph that was built node by node the watch never fails, whatever the cache
     holds, and the comparison is the one with the guard (`watchedEqualM_run`).  Nodes that are built
     over each other would make it fail (`watchedEqualM_run_of_mutual`).
-/
import ExprGraph.Proofs.Isolation
import ExprGraph.Proofs.TypedConstruction

namespace ExprGraph

/-! ## Identities -/

namespace Session

variable {H : Hasher} {picker : ShardPicker} {s : Session} {actions : List Action} {n : NodeId}

/-- The identity that an action hands out, if it builds a node. -/
def created? (s : Session) : Action → Option NodeId
  | .create kind args =>
    match s.build (Operation.ofArguments s.graph kind args) with
    | .ok (n, _) => some n
    | .error _ => none
  | _ => none

/-- **The identities that actions hand out**, one after another. -/
def created (s : Session) : List Action → List NodeId
  | [] => []
  | a :: rest => (s.created? a).toList ++ (s.perform a).created rest

/-- An action hands out the next identity and adds a node, or neither. -/
theorem created?_cases (s : Session) (a : Action) :
    (s.created? a = none ∧ (s.perform a).graph.size = s.graph.size) ∨
      (s.created? a = some s.graph.size ∧ (s.perform a).graph.size = s.graph.size + 1) := by
  cases a with
  | create kind args =>
    rw [created?, perform, build]
    cases Operation.ofArguments s.graph kind args with
    | error e => exact Or.inl ⟨rfl, rfl⟩
    | ok op => exact Or.inr ⟨rfl, Graph.size_insert s.hasher s.graph op⟩
  | retain n => exact Or.inl ⟨rfl, rfl⟩
  | release n =>
    have hgraph : (s.release n).graph = s.graph := by
      unfold release
      simp only
      split
      · rfl
      · rw [graph_destroy]
    exact Or.inl ⟨rfl, congrArg Graph.size hgraph⟩
  | compare ref x y => exact Or.inl ⟨rfl, congrArg Graph.size (graph_putCache s ref _)⟩
  | newCache shards => exact Or.inl ⟨rfl, rfl⟩
  | clear ref => exact Or.inl ⟨rfl, congrArg Graph.size (graph_putCache s ref _)⟩

theorem performAll_cons (s : Session) (a : Action) (rest : List Action) :
    s.performAll (a :: rest) = (s.perform a).performAll rest := rfl

/-- No node goes. -/
theorem size_le_performAll (s : Session) (actions : List Action) :
    s.graph.size ≤ (s.performAll actions).graph.size := by
  induction actions generalizing s with
  | nil => exact Nat.le_refl _
  | cons a rest ih =>
    refine Nat.le_trans ?_ (ih (s.perform a))
    rcases created?_cases s a with ⟨-, hsize⟩ | ⟨-, hsize⟩ <;> omega

/-- **The identities handed out are those of the new nodes.** -/
theorem mem_created_iff (s : Session) (actions : List Action) (n : NodeId) :
    n ∈ s.created actions ↔ s.graph.size ≤ n ∧ n < (s.performAll actions).graph.size := by
  induction actions generalizing s with
  | nil => exact iff_of_false List.not_mem_nil fun h => Nat.not_lt.2 h.1 h.2
  | cons a rest ih =>
    have hgrows := size_le_performAll (s.perform a) rest
    rw [created, List.mem_append, ih, performAll_cons]
    rcases created?_cases s a with ⟨hnone, hsize⟩ | ⟨hnew, hsize⟩
    · rw [hnone, hsize]
      simp
    · rw [hsize] at hgrows
      rw [hnew, hsize, Option.toList_some, List.mem_singleton]
      constructor
      · rintro (rfl | ⟨hle, hlt⟩)
        · exact ⟨Nat.le_refl _, hgrows⟩
        · exact ⟨Nat.le_of_succ_le hle, hlt⟩
      · rintro ⟨hle, hlt⟩
        rcases Nat.eq_or_lt_of_le hle with heq | hlater
        · exact Or.inl heq.symm
        · exact Or.inr ⟨hlater, hlt⟩

/-- **They are handed out in ascending order**, so none of them twice. -/
theorem created_ascending (s : Session) (actions : List Action) :
    (s.created actions).Pairwise (· < ·) := by
  induction actions generalizing s with
  | nil => exact .nil
  | cons a rest ih =>
    rw [created]
    rcases created?_cases s a with ⟨hnone, -⟩ | ⟨hnew, hsize⟩
    · rw [hnone]
      exact ih _
    · rw [hnew]
      refine .cons (fun n hn => ?_) (ih _)
      have hle := ((mem_created_iff _ _ _).1 hn).1
      rw [hsize] at hle
      exact hle

theorem later_performAll (h : s.PermitsAll actions) : s.Later (s.performAll actions) := by
  induction actions generalizing s with
  | nil => exact .refl
  | cons a rest ih => exact (Later.perform a .refl h.1).trans (ih h.2)

/-- **What is destroyed stays destroyed.** -/
theorem Later.isAlive_eq_false {t : Session} (ht : s.Later t) (h : Reachable H picker s)
    (hn : n < s.graph.size) (hdead : s.isAlive n = false) : t.isAlive n = false := by
  induction ht with
  | refl => exact hdead
  | @perform t a hlater ha ih =>
    have hlt := Nat.lt_of_lt_of_le hn (hlater.size_le h)
    have halive := (isAlive_perform (hlater.reachable h).consistent ha n).2
    rw [← Bool.not_eq_true, halive]
    rintro (⟨hwas, -⟩ | ⟨hle, -⟩)
    · exact Bool.false_ne_true (ih.symm.trans hwas)
    · exact Nat.not_lt.2 hle hlt

end Session

/-! ## The comparison, watched -/

namespace PairCache

/-- **What can go wrong** in a recursion that nothing guards. -/
inductive Fault where
  /-- calls are nested deeper than is allowed -/
  | tooDeep
  /-- the pair is asked for while it is being compared -/
  | reentered (pair : Pair)
  /-- an outcome is to be stored where there is one -/
  | overwritten (pair : Pair)

/-- Something done to a cache that may fail. -/
abbrev Watched := StateT PairCache (Except Fault)

/-- **Structural equality of two nodes, without a guard.**  The pairs `inProgress` are those that are
    being compared, and `depth` is how deep the calls may be nested. -/
def watchedEqualM (g : Graph) : Nat → List Pair → NodeId → NodeId → Watched Bool
  | 0, _, _, _ => throw .tooDeep
  | depth + 1, inProgress, a, b => do
    if Pair.of a b ∈ inProgress then
      throw (.reentered (.of a b))
    else if a = b then
      return true
    else if g.digest a ≠ g.digest b ∨ g.kind a ≠ g.kind b then
      return false
    else
      match (← get).lookup (.of a b) with
      | some outcome =>
        modify fun c => c.noteHit (.of a b)
        return outcome
      | none =>
        modify fun c => c.noteMiss (.of a b)
        let outcome ← g.contentsEqualM (watchedEqualM g depth (.of a b :: inProgress)) a b
        if ((← get).lookup (.of a b)).isSome then
          throw (.overwritten (.of a b))
        else
          modify fun c => c.store a b outcome
          return outcome

variable {g : Graph} {H : Hasher} {a b : NodeId} {depth : Nat} {inProgress : List Pair}

/-- **Nothing goes wrong below two nodes**: watched or not, the same is said and the same cache is
    left, and in it nothing is new but pairs of a node below `a` and one below `b`. -/
def Uneventful (a b : NodeId) (x : Watched Bool) (y : StateM PairCache Bool) : Prop :=
  ∀ c, x.run c = .ok (y.run c) ∧
    ∀ p, (y.run c).2.lookup p = c.lookup p ∨ ∃ u < a, ∃ v < b, p = .of u v

theorem uneventful_pure (a b : NodeId) (answer : Bool) :
    Uneventful a b (pure answer) (pure answer) := fun _ => ⟨rfl, fun _ => Or.inl rfl⟩

theorem Uneventful.mono {c d : NodeId} {x : Watched Bool} {y : StateM PairCache Bool}
    (h : Uneventful c d x y) (hca : c ≤ a) (hdb : d ≤ b) : Uneventful a b x y := by
  refine fun cache => ⟨(h cache).1, fun p => ((h cache).2 p).imp_right ?_⟩
  rintro ⟨u, hu, v, hv, hp⟩
  exact ⟨u, Nat.lt_of_lt_of_le hu hca, v, Nat.lt_of_lt_of_le hv hdb, hp⟩

theorem relates_uneventful (a b : NodeId) : Argument.Relates (Uneventful a b) where
  pure := uneventful_pure a b
  andThen := by
    intro x y x' y' hx hy c
    obtain ⟨hrun, hkept⟩ := hx c
    simp only [Argument.andThen, StateT.run_bind]
    rw [hrun]
    generalize x'.run c = out at hkept
    obtain ⟨answer, c'⟩ := out
    cases answer with
    | false => exact ⟨rfl, hkept⟩
    | true =>
      obtain ⟨hrun', hkept'⟩ := hy c'
      refine ⟨hrun', fun p => ?_⟩
      rcases hkept' p with heq | hbelow
      · exact (hkept p).imp_left heq.trans
      · exact Or.inr hbelow

/-- The comparison of the arguments, given that of older nodes. -/
theorem contentsEqualM_uneventful (hg : g.Built H) {ask : NodeId → NodeId → Watched Bool}
    {ask' : NodeId → NodeId → StateM PairCache Bool}
    (h : ∀ c < a, ∀ d < b, Uneventful a b (ask c d) (ask' c d)) :
    Uneventful a b (g.contentsEqualM ask a b) (g.contentsEqualM ask' a b) := by
  refine Argument.contentsEqualM_related (relates_uneventful a b) fun c d hcd => ?_
  obtain ⟨hc, hd⟩ := hg.lt_of_asked hcd
  exact h c hc d hd

/-- **The comparison of two nodes is uneventful**, inside comparisons of younger ones. -/
theorem watchedEqualM_uneventful (hg : g.Built H) (hdepth : a < depth)
    (hyounger : ∀ p ∈ inProgress, ∃ u v, a < u ∧ b < v ∧ p = .of u v) :
    Uneventful (a + 1) (b + 1) (watchedEqualM g depth inProgress a b) (equalM g a b) := by
  -- both nodes get older on the way down; the left one is what the depth is counted by
  induction depth generalizing inProgress a b with
  | zero => exact absurd hdepth (Nat.not_lt_zero a)
  | succ depth ih =>
    have hnew : Pair.of a b ∉ inProgress := by
      intro hmem
      obtain ⟨u, v, hu, hv, hp⟩ := hyounger _ hmem
      exact Pair.of_ne_of_lt hu hv hp.symm
    have hcontents : Uneventful a b
        (g.contentsEqualM (watchedEqualM g depth (.of a b :: inProgress)) a b)
        (g.contentsEqualM (fun c d => if _h : c < a then equalM g c d else pure false) a b) := by
      refine contentsEqualM_uneventful hg fun c hc d hd => ?_
      rw [dif_pos hc]
      refine (ih (Nat.lt_of_lt_of_le hc (Nat.le_of_lt_succ hdepth)) ?_).mono hc hd
      refine List.forall_mem_cons.2 ⟨⟨a, b, hc, hd, rfl⟩, fun p hp => ?_⟩
      obtain ⟨u, v, hu, hv, heq⟩ := hyounger p hp
      exact ⟨u, v, Nat.lt_trans hc hu, Nat.lt_trans hd hv, heq⟩
    intro c
    rw [watchedEqualM, equalM, if_neg hnew]
    by_cases hab : a = b
    · rw [if_pos hab, if_pos hab]
      exact uneventful_pure _ _ true c
    rw [if_neg hab, if_neg hab]
    by_cases hdiffer : g.digest a ≠ g.digest b ∨ g.kind a ≠ g.kind b
    · rw [if_pos hdiffer, if_pos hdiffer]
      exact uneventful_pure _ _ false c
    rw [if_neg hdiffer, if_neg hdiffer]
    simp only [StateT.run_bind, StateT.run_get, pure_bind]
    cases hfound : c.lookup (.of a b) with
    | some outcome => exact ⟨rfl, fun p => Or.inl rfl⟩
    | none =>
      obtain ⟨hrun, hkept⟩ := hcontents (c.noteMiss (.of a b))
      simp only [StateT.run_bind, StateT.run_modify, pure_bind]
      rw [hrun]
      generalize (g.contentsEqualM (fun c d => if _h : c < a then equalM g c d else pure false) a
        b).run (c.noteMiss (.of a b)) = out at hkept
      obtain ⟨outcome, c'⟩ := out
      -- what was stored on the way is about older nodes, so the pair is still unknown
      have hfree : c'.lookup (.of a b) = none := by
        rcases hkept (.of a b) with heq | ⟨u, hu, v, hv, hp⟩
        · exact heq.trans hfound
        · exact absurd hp (Pair.of_ne_of_lt hu hv)
      refine ⟨?_, fun p => ?_⟩
      · show StateT.run (if (c'.lookup (.of a b)).isSome = true then _ else _) c' = _
        rw [hfree]
        rfl
      · show (c'.store a b outcome).lookup p = c.lookup p ∨ _
        rw [lookup_store]
        split
        · rename_i hp
          exact Or.inr ⟨a, Nat.lt_succ_self a, b, Nat.lt_succ_self b, hp.symm⟩
        · rcases hkept p with heq | ⟨u, hu, v, hv, hp⟩
          · exact Or.inl heq
          · exact Or.inr ⟨u, Nat.lt_succ_of_lt hu, v, Nat.lt_succ_of_lt hv, hp⟩

/-- **The watch never fails**, if calls may be nested once more than the left node has older ones. -/
theorem watchedEqualM_run (hg : g.Built H) (hdepth : a < depth) (b : NodeId) (c : PairCache) :
    (watchedEqualM g depth [] a b).run c = .ok ((equalM g a b).run c) :=
  (watchedEqualM_uneventful hg hdepth (fun _ hp => absurd hp List.not_mem_nil) c).1

/-- **Nodes over each other** are what the order rules out: the comparison would come back to their
    pair from the other side. -/
theorem watchedEqualM_run_of_mutual (hab : a ≠ b) (hdigest : g.digest a = g.digest b)
    (hkind : g.kind a = g.kind b) (hs : g.kind a ≠ .sealed) (hleft : g.arguments a = [.node b])
    (hright : g.arguments b = [.node a]) {c : PairCache} (hfound : c.cached a b = none) :
    (watchedEqualM g (depth + 2) [] a b).run c = .error (.reentered (.of a b)) := by
  have hdiffer : ¬ (g.digest a ≠ g.digest b ∨ g.kind a ≠ g.kind b) := by simp [hdigest, hkind]
  have hagain : watchedEqualM g (depth + 1) [.of a b] b a = throw (.reentered (.of a b)) := by
    rw [watchedEqualM, Pair.of_comm b a, if_pos List.mem_cons_self]
  rw [watchedEqualM, if_neg List.not_mem_nil, if_neg hab, if_neg hdiffer]
  simp only [StateT.run_bind, StateT.run_get, pure_bind]
  rw [show c.lookup (.of a b) = none from hfound, Graph.contentsEqualM_of_ne_sealed hs, hleft, hright]
  simp only [Argument.tuplesEqualM, List.length_singleton, if_true, Argument.itemsEqualM,
    Argument.equalM, hagain]
  rfl

end PairCache

/-! ## Sessions -/

namespace Session

variable {H : Hasher} {picker : ShardPicker} {s t : Session} {r : Request} {route : Route}
  {n : NodeId}

/-- On whichever route a node is built, it takes the next identity. -/
theorem later_of_build (hr : ∀ n ∈ r.nodes, s.isAlive n = true)
    (hbuild : s.build (r.along s.graph route) = .ok (n, t)) : n = s.graph.size ∧ s.Later t := by
  rw [Request.along_eq] at hbuild
  obtain ⟨op, -, hinsert⟩ := ok_of_map hbuild
  cases hinsert
  exact ⟨rfl, (build_spec (permits_request hr) hbuild).1⟩

/-- **Identities order the graph, and comparisons come to an end.**  Whatever stands in the arguments
    of a node, at whichever place, is older than the node.  Whatever is done next, the identities
    handed out are those of the new nodes, in ascending order; the others go on naming the nodes
    that they name, and those that are destroyed do not come back; and it does not matter on which
    route a node is built.  So the comparison of two nodes through any cache needs no guard: its
    calls are nested no deeper than the left node has older ones, it asks for no pair that it is in
    the middle of comparing, in either order, and it stores no outcome where there is one. -/
theorem comparisons_descend (h : Reachable H picker s) :
    (∀ n, (∀ c ∈ s.graph.children n, c < n) ∧
      ∀ place c, s.graph.nodeAt? n place = some c → c < n) ∧
    (∀ actions, s.PermitsAll actions → (s.created actions).Pairwise (· < ·) ∧
      ∀ n, (n ∈ s.created actions ↔
          s.graph.size ≤ n ∧ n < (s.performAll actions).graph.size) ∧
        (n < s.graph.size → (s.performAll actions).graph.node n = s.graph.node n ∧
          (s.isAlive n = false → (s.performAll actions).isAlive n = false))) ∧
    (∀ (r : Request) route n t, (∀ m ∈ r.nodes, s.isAlive m = true) →
      s.build (r.along s.graph route) = .ok (n, t) → n = s.graph.size ∧ s.Later t) ∧
    ∀ a b depth, a < depth → ∀ c : PairCache,
      (PairCache.watchedEqualM s.graph depth [] a b).run c =
        .ok ((PairCache.equalM s.graph a b).run c) := by
  have hg := h.consistent.built
  refine ⟨fun n => ⟨hg.older n, fun place c hc => ?_⟩, fun actions hactions => ?_,
    fun r route n t hr hbuild => later_of_build hr hbuild,
    fun a b depth hdepth c => PairCache.watchedEqualM_run hg hdepth b c⟩
  · exact hg.older n c (Graph.mem_children_of_nodeAt? hc)
  · have hlater := later_performAll hactions
    refine ⟨created_ascending s actions, fun n => ⟨mem_created_iff s actions n, fun hn => ?_⟩⟩
    exact ⟨hlater.node_eq h hn, hlater.isAlive_eq_false h hn⟩

/-- Two nested lists.  When the first is dropped, the list inside it goes too, and the next list takes
    neither of their identities; nor does a list over both of them. -/
theorem comparisons_descend_nestedRun :
    Reachable .mixing .standard nestedRun.2 ∧ (0 : NodeId) < 2 ∧
    nestedRun.2.PermitsAll [.release 2, .create .list []] ∧
    (∀ n ∈ nestedRun.2.created [.release 2, .create .list []], 4 ≤ n) ∧
    (∃ t, nestedRun.2.build ((Request.list [2, 3]).along nestedRun.2.graph .typed) = .ok (4, t) ∧
      nestedRun.2.Later t) ∧
    ∀ c : PairCache, (PairCache.watchedEqualM nestedRun.2.graph 3 [] 2 3).run c =
      .ok ((PairCache.equalM nestedRun.2.graph 2 3).run c) := by
  have hactions : nestedRun.2.PermitsAll [.release 2, .create .list []] :=
    ⟨Nat.one_pos, fun x hx => absurd hx List.not_mem_nil, trivial⟩
  have hheld : ∀ n ∈ (Request.list [2, 3]).nodes, nestedRun.2.isAlive n = true := by decide
  obtain ⟨hordered, hcreated, hbuilt, hcompare⟩ := comparisons_descend reachable_nestedRun
  obtain ⟨-, hfresh⟩ := hcreated _ hactions
  exact ⟨reachable_nestedRun, (hordered 2).2 [.item 0] 0 rfl, hactions,
    fun n hn => ((hfresh n).1.1 hn).1, ⟨_, rfl, (hbuilt _ .typed 4 _ hheld rfl).2⟩,
    hcompare 2 3 3 (by decide)⟩

end Session

end ExprGraph
