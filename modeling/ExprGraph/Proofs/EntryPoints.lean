/-
  Entry points — many ways to ask, one answer.

  Nodes are compared as nodes, as arguments, through handles and operands; lists member by member,
  as tuples, or as the nodes that wrap them.  The ways differ in what they look up and in what they
  leave in the cache: comparing lists by their members stores nothing for the lists, comparing nodes
  that wrap them does.

  1. **Specification** — `Session.Answers`: a comparison has one answer in each later state and
     through each cache, and leaves a later state behind.  So nothing that one way of asking stores
     can change the answer to another.

  2. **Nodes** — `NodesAnswered` is that for every way to compare two nodes.

  3. **Lists** — `ListsAnswered` is that for lists, tuples, and any nodes that wrap the lists
     (`Wraps`), whenever they are built.
-/
import ExprGraph.Proofs.Dictionaries
import ExprGraph.Proofs.RoundTrip

namespace ExprGraph

namespace Argument

variable {R S : NodeId → NodeId → Prop} {c d : NodeId} {ms ns : List NodeId}

/-- Relations that agree on the nodes inside make the same arguments the same. -/
theorem same_congr {x y : Argument} (h : ∀ c ∈ x.nodes, ∀ d ∈ y.nodes, R c d ↔ S c d) :
    Same R x y ↔ Same S x y :=
  ⟨fun hxy => hxy.imp fun c hc d hd => (h c hc d hd).1,
    fun hxy => hxy.imp fun c hc d hd => (h c hc d hd).2⟩

theorem same_node_iff : Same R (.node c) (.node d) ↔ R c d := by
  constructor
  · intro h
    cases h with
    | node h => exact h
  · exact Same.node

/-- **Tuples of nodes** are the same member by member. -/
theorem same_tuple_nodes_iff : Same R (.tuple (ms.map .node)) (.tuple (ns.map .node)) ↔
    ms.length = ns.length ∧ ∀ (i : Nat) c d, ms[i]? = some c → ns[i]? = some d → R c d := by
  rw [same_tuple_iff, List.forall₂_map_left_iff, List.forall₂_map_right_iff]
  simp only [same_node_iff]
  constructor
  · exact fun h => ⟨h.length_eq, fun i c d hc hd => forall₂_getElem? h hc hd⟩
  · rintro ⟨hlength, h⟩
    refine List.forall₂_iff_get.2 ⟨hlength, fun i hi hj => h i _ _ ?_ ?_⟩
    · exact List.getElem?_eq_getElem hi
    · exact List.getElem?_eq_getElem hj

theorem nodes_tuple_nodes (ms : List NodeId) : (Argument.tuple (ms.map .node)).nodes = ms := by
  rw [nodes, nodesOfItems_eq, List.flatMap_map]
  exact List.flatMap_singleton' ms

end Argument

/-- A tuple of nodes is always a list. -/
theorem Operation.ofArguments_list (g : Graph) (members : List NodeId) :
    ofArguments g .list (members.map .node) = .ok (.list members) := by
  have hnone : g.FaithfulTo (.list members) := fun o ho => absurd ho List.not_mem_nil
  exact hnone.ofArguments

namespace Session

variable {H : Hasher} {picker : ShardPicker} {s t u : Session} {a b : NodeId} {l m : NodeList}
  {answer : Bool}

/-! ## One answer -/

/-- **A comparison with one answer**: in each later state, and through each cache.  What it leaves
    behind, if its operands are still there, is a later state again. -/
def Answers (s : Session) {α : Type} (operands : List NodeId)
    (ask : Graph → StateM PairCache α) (answer : α) : Prop :=
  ∀ t, s.Later t → ∀ ref, (t.onCache ref (ask t.graph)).1 = answer ∧
    (t.hasCache ref → (∀ n ∈ operands, t.isAlive n = true) →
      t.Later (t.onCache ref (ask t.graph)).2)

/-- What is done with the answer afterwards leaves the cache alone. -/
theorem Answers.map {α β : Type} {operands : List NodeId} {ask : Graph → StateM PairCache α}
    {answer : α} (h : s.Answers operands ask answer) (f : α → β) :
    s.Answers operands (fun g => f <$> ask g) (f answer) := by
  intro t ht ref
  obtain ⟨hanswer, hlater⟩ := h t ht ref
  exact ⟨congrArg f hanswer, hlater⟩

/-- **Arguments are answered** by their sameness. -/
theorem answers_arguments (h : Reachable H picker s) {x y : Argument} (hx : s.Known x)
    (hy : s.Known y) (hanswer : answer = true ↔ Argument.Same s.graph.Same x y) :
    s.Answers (x.nodes ++ y.nodes) (fun g => PairCache.argumentsEqualM g x y) answer := by
  intro t ht ref
  constructor
  · have hequal := ht.equalArguments_iff h ref hx hy
    exact Bool.eq_iff_iff.2 (hequal.trans hanswer.symm)
  · intro hcache halive
    have husable : t.Usable x ∧ t.Usable y :=
      ⟨⟨hx.1, fun n hn => halive n (List.mem_append_left _ hn)⟩,
        ⟨hy.1, fun n hn => halive n (List.mem_append_right _ hn)⟩⟩
    exact .perform (.compare ref x y) .refl ⟨hcache, husable.1, husable.2⟩

/-! ## Nodes -/

/-- **Every way to compare two nodes** has the answer: as nodes, as arguments, a node with an
    argument, through any handles on them, and as operands. -/
structure NodesAnswered (s : Session) (a b : NodeId) (answer : Bool) : Prop where
  nodes : s.Answers [a, b] (fun g => PairCache.equalM g a b) answer
  arguments : s.Answers [a, b] (fun g => PairCache.argumentsEqualM g (.node a) (.node b)) answer
  argument : s.Answers [a, b] (fun g => PairCache.equalArgumentM g a (.node b)) (.ok answer)
  handles : ∀ x y : Handle, x.node = a → y.node = b →
    s.Answers [a, b] (fun g => PairCache.handlesEqualM g x y) answer
  operands : ∀ x y : Operand, x.node = a → y.node = b →
    s.Answers [a, b] (fun g => PairCache.operandsEqualM g x y) answer

theorem known_node (ha : a < s.graph.size) : s.Known (.node a) :=
  ⟨trivial, fun _ hn => List.mem_singleton.1 hn ▸ ha⟩

/-- All ways to compare nodes run the comparison of nodes. -/
theorem nodesAnswered (h : Reachable H picker s) (ha : a < s.graph.size) (hb : b < s.graph.size)
    (hanswer : answer = true ↔ s.graph.Same a b) : s.NodesAnswered a b answer := by
  have harguments : s.Answers [a, b]
      (fun g => PairCache.argumentsEqualM g (.node a) (.node b)) answer :=
    answers_arguments h (known_node ha) (known_node hb)
      (hanswer.trans Argument.same_node_iff.symm)
  have hnodes : s.Answers [a, b] (fun g => PairCache.equalM g a b) answer := harguments
  refine ⟨hnodes, harguments, hnodes.map Except.ok, ?_, ?_⟩
  · rintro x y rfl rfl
    exact hnodes
  · rintro x y rfl rfl
    exact hnodes

/-! ## Lists -/

/-- **A node that wraps a list.** -/
def Wraps (s : Session) (n : NodeId) (l : NodeList) : Prop :=
  n < s.graph.size ∧ s.graph.operation n = .list l.members

/-- **Every way to compare two lists** has the answer: member by member, as tuples, and by any nodes
    that wrap them, in every way in which nodes are compared. -/
structure ListsAnswered (s : Session) (l m : NodeList) (answer : Bool) : Prop where
  lists : s.Answers (l.members ++ m.members) (fun g => PairCache.listsEqualM g l m) answer
  tuples : s.Answers (l.members ++ m.members) (fun g => PairCache.argumentsEqualM g
    (.tuple (l.members.map .node)) (.tuple (m.members.map .node))) answer
  wrapped : ∀ t, s.Later t → ∀ a b, t.Wraps a l → t.Wraps b m → t.NodesAnswered a b answer

theorem known_tuple_nodes (hl : ∀ n ∈ l.members, n < s.graph.size) :
    s.Known (.tuple (l.members.map .node)) := by
  refine ⟨(Argument.itemsWellFormed_iff _).2 fun x hx => ?_, fun n hn => ?_⟩
  · obtain ⟨n, -, rfl⟩ := List.mem_map.1 hx
    trivial
  · rw [Argument.nodes_tuple_nodes] at hn
    exact hl n hn

/-- Nodes that wrap lists are the same as the lists are. -/
theorem Wraps.same_iff (ha : s.Wraps a l) (hb : s.Wraps b m) : s.graph.Same a b ↔
    Argument.Same s.graph.Same (.tuple (l.members.map .node)) (.tuple (m.members.map .node)) := by
  have hwrapped : ∀ {n : NodeId} {k : NodeList}, s.Wraps n k →
      s.graph.kind n = .list ∧ s.graph.arguments n = k.members.map .node := by
    intro n k hn
    rw [Graph.kind, Graph.arguments, hn.2]
    exact ⟨rfl, rfl⟩
  obtain ⟨hkind, harguments⟩ := hwrapped ha
  obtain ⟨hkind', harguments'⟩ := hwrapped hb
  rw [← harguments, ← harguments', Argument.same_tuple_iff]
  refine ⟨Graph.Same.arguments, .contents (hkind.trans hkind'.symm) ?_⟩
  rw [hkind]
  decide

/-- Whichever way lists are compared, in the end it is their members. -/
theorem listsAnswered (h : Reachable H picker s) (hl : ∀ n ∈ l.members, n < s.graph.size)
    (hm : ∀ n ∈ m.members, n < s.graph.size)
    (hanswer : answer = true ↔ Argument.Same s.graph.Same (.tuple (l.members.map .node))
      (.tuple (m.members.map .node))) : s.ListsAnswered l m answer := by
  have hkl := known_tuple_nodes hl
  have hkm := known_tuple_nodes hm
  have htuples := answers_arguments h hkl hkm hanswer
  rw [Argument.nodes_tuple_nodes, Argument.nodes_tuple_nodes] at htuples
  have hlists : s.Answers (l.members ++ m.members) (fun g => PairCache.listsEqualM g l m) answer := by
    simp only [PairCache.listsEqualM_eq_tuplesEqualM]
    exact htuples
  refine ⟨hlists, htuples, fun t ht a b ha hb => ?_⟩
  have hwrapped := (ha.same_iff hb).symm
  refine nodesAnswered (ht.reachable h) ha.1 hb.1 (hanswer.trans (Iff.trans ?_ hwrapped))
  -- members are what they were, so it is one relation that is asked for
  exact Argument.same_congr fun c hc d hd => (ht.same_iff h (hkl.2 c hc) (hkm.2 d hd)).symm

/-- **Wrapping a list of living nodes** makes a node that wraps it from then on. -/
theorem wraps_insert (h : Reachable H picker s) (halive : ∀ n ∈ l.members, s.isAlive n = true) :
    s.Later (s.insert (.list l.members)).2 ∧
    ∀ t, (s.insert (.list l.members)).2.Later t → t.Wraps (s.insert (.list l.members)).1 l := by
  have hpermits : s.permits (.create .list (l.members.map .node)) := by
    intro x hx
    obtain ⟨n, hn, rfl⟩ := List.mem_map.1 hx
    exact usable_node (halive n hn)
  have hbuild : s.build (Operation.ofArguments s.graph .list (l.members.map .node)) =
      .ok (s.insert (.list l.members)) :=
    congrArg s.build (Operation.ofArguments_list s.graph l.members)
  obtain ⟨hlater, hlt, -⟩ := build_spec hpermits hbuild
  have hreachable := hlater.reachable h
  refine ⟨hlater, fun t ht => ⟨Nat.lt_of_lt_of_le hlt (ht.size_le hreachable), ?_⟩⟩
  have hnode := congrArg Node.operation (ht.node_eq hreachable hlt)
  exact hnode.trans (Graph.operation_insert s.hasher s.graph _)

/-- **All entry points agree.**  Whatever a cache says of two nodes now, every way to compare them
    says through every cache from now on.  Every way to compare two lists, as lists, as tuples of
    their members, or by nodes that wrap them, whenever these were built, says whether the lists are
    of one length and equal member by member. -/
theorem entry_points_agree (h : Reachable H picker s) (ref : CacheRef) :
    (∀ a b, a < s.graph.size → b < s.graph.size → s.NodesAnswered a b (s.equal ref a b)) ∧
    ∀ l m : NodeList, (∀ n ∈ l.members, n < s.graph.size) → (∀ n ∈ m.members, n < s.graph.size) →
      (∃ answer, s.ListsAnswered l m answer ∧ (answer = true ↔ l.length = m.length ∧
        ∀ i c d, l.get? i = some c → m.get? i = some d → s.equal ref c d = true)) ∧
      ∀ t, s.Later t → (∀ n ∈ l.members, t.isAlive n = true) →
        t.Later (t.insert (.list l.members)).2 ∧
        ∀ u, (t.insert (.list l.members)).2.Later u → u.Wraps (t.insert (.list l.members)).1 l := by
  refine ⟨fun a b ha hb => ?_, fun l m hl hm => ⟨?_, fun t ht => wraps_insert (ht.reachable h)⟩⟩
  · exact nodesAnswered h ha hb (Later.refl.equal_iff h ref ha hb)
  · have hkl := known_tuple_nodes hl
    have hkm := known_tuple_nodes hm
    have hequal := Later.refl.equalArguments_iff h ref hkl hkm
    have hmembers : Argument.Same s.graph.Same (.tuple (l.members.map .node))
        (.tuple (m.members.map .node)) ↔ Argument.Same (fun c d => s.equal ref c d = true)
          (.tuple (l.members.map .node)) (.tuple (m.members.map .node)) :=
      Argument.same_congr fun c hc d hd =>
        (Later.refl.equal_iff h ref (hkl.2 c hc) (hkm.2 d hd)).symm
    exact ⟨_, listsAnswered h hl hm hequal,
      hequal.trans (hmembers.trans Argument.same_tuple_nodes_iff)⟩

/-- The renamed columns, and lists of one of them each: all ways to ask say that they are equal, and
    node 4 wraps one of the lists.  A longer list is another one. -/
theorem entry_points_agree_twinColumns :
    Reachable .mixing .standard twinColumns ∧ twinColumns.NodesAnswered 2 3 true ∧
    twinColumns.ListsAnswered ⟨[2]⟩ ⟨[3]⟩ true ∧ twinColumns.ListsAnswered ⟨[2]⟩ ⟨[3, 3]⟩ false ∧
    twinColumns.Wraps 4 ⟨[2]⟩ ∧
    ∀ u, (twinColumns.insert (.list [3])).2.Later u → u.Wraps 6 ⟨[3]⟩ := by
  have hequal : twinColumns.equal .shared 2 3 = true :=
    (Later.refl.equal_iff reachable_twinColumns .shared (by decide) (by decide)).2
      same_renamedColumns
  obtain ⟨hnodes, hlists⟩ := entry_points_agree reachable_twinColumns .shared
  have hpair := hnodes 2 3 (by decide) (by decide)
  rw [hequal] at hpair
  obtain ⟨⟨answer, hanswered, hanswer⟩, -⟩ := hlists ⟨[2]⟩ ⟨[3]⟩ (by decide) (by decide)
  obtain ⟨⟨answer', hanswered', hanswer'⟩, -⟩ := hlists ⟨[2]⟩ ⟨[3, 3]⟩ (by decide) (by decide)
  obtain ⟨-, hwrap⟩ := hlists ⟨[3]⟩ ⟨[2]⟩ (by decide) (by decide)
  obtain rfl : answer = true := by
    refine hanswer.2 ⟨rfl, fun i c d hc hd => ?_⟩
    cases i with
    | zero =>
      cases hc
      cases hd
      exact hequal
    | succ i => cases hc
  obtain rfl : answer' = false :=
    Bool.eq_false_iff.2 fun htrue => absurd (hanswer'.1 htrue).1 (by decide)
  exact ⟨reachable_twinColumns, hpair, hanswered, hanswered', ⟨by decide, rfl⟩,
    (hwrap twinColumns .refl (by decide)).2⟩

end Session

end ExprGraph
