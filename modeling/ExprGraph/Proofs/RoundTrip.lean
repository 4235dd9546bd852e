/-
  Round trip — from arguments to a node, and back.

  A pass takes the arguments of a node apart, replaces some of them, and puts a node together again.
  If it replaces none, what it gets is a second node that nobody can tell from the first, unless the
  node is sealed: then the copy is another one.

  1. **Out and in** — the arguments of a new node are the tuple that it was built from
     (`Operation.ofArguments_ok`).  The other way round every operation with right copies is accepted
     again from its own arguments, and is what comes out (`FaithfulTo.ofArguments`).

  2. **One operation** — what is seen of a node is computed from its operation and from older nodes.
     So two nodes of one operation have the same digest, value, name and text
     (`digest_eq_of_operation`, `value?_eq_of_operation`, `render_eq_of_operation`), and a later node
     changes none of them.

  3. **Result** — a copy of a living node is accepted in every reachable state.
-/
import ExprGraph.Graph.Rendering
import ExprGraph.Proofs.Digests
import ExprGraph.Proofs.Substitution

namespace ExprGraph

/-! ## An operation from its own arguments -/

theorem nodesFrom_map_node (kind field : String) (index : Nat) (members : List NodeId) :
    nodesFrom kind field index (members.map .node) = .ok members := by
  induction members generalizing index with
  | nil => rfl
  | cons n rest ih =>
    rw [List.map_cons, nodesFrom, ih]
    rfl

namespace Graph

variable {g : Graph} {op : Operation}

/-- An operand whose copy is right is accepted again. -/
theorem operand_of_value? {kind field : String} {o : Operand}
    (h : g.value? o.node = some o.toValue) : g.operand kind field o.node = .ok o := by
  rw [operand, h]

/-- **An operation is accepted from its own arguments**, if its copies are right. -/
theorem FaithfulTo.ofArguments (h : g.FaithfulTo op) :
    Operation.ofArguments g op.kind op.arguments = .ok op := by
  cases op with
  | field name t s => rfl
  | «alias» arg name =>
    have harg := h arg List.mem_cons_self
    refine (Operation.ofArguments_alias g arg.node name).trans ?_
    rw [Operation.aliasOf, operand_of_value? harg]
    rfl
  | unary o arg =>
    have harg := h arg List.mem_cons_self
    refine (Operation.ofArguments_unary g o arg.node).trans ?_
    rw [Operation.unaryOf, operand_of_value? harg]
    rfl
  | binary o left right =>
    have hleft := h left List.mem_cons_self
    have hright := h right (List.mem_cons_of_mem _ List.mem_cons_self)
    refine (Operation.ofArguments_binary g o left.node right.node).trans ?_
    rw [Operation.binaryOf, operand_of_value? hleft, operand_of_value? hright]
    rfl
  | list members =>
    show (nodesFrom _ _ 0 (members.map .node)).map Operation.list = _
    rw [nodesFrom_map_node]
    rfl
  | call args => rfl
  | sealed args => rfl

/-- A copy of a node is the operation of the node. -/
theorem Faithful.derive_arguments (h : g.Faithful) (n : NodeId) :
    g.derive n (g.arguments n) = .ok (g.operation n) := (h n).ofArguments

end Graph

/-! ## Text -/

namespace Argument

variable {f k : NodeId → String}

theorem renderItems_congr {items : List Argument} (h : ∀ a ∈ items, a.render f = a.render k) :
    renderItems f items = renderItems k items := by
  induction items with
  | nil => rfl
  | cons a rest ih =>
    rw [renderItems, renderItems, h a List.mem_cons_self,
      ih fun x hx => h x (List.mem_cons_of_mem a hx)]

theorem renderEntries_congr {entries : List (String × Argument)}
    (h : ∀ e ∈ entries, e.2.render f = e.2.render k) :
    renderEntries f entries = renderEntries k entries := by
  induction entries with
  | nil => rfl
  | cons e rest ih =>
    rcases e with ⟨key, a⟩
    have ha : a.render f = a.render k := h _ List.mem_cons_self
    rw [renderEntries, renderEntries, ha, ih fun x hx => h x (List.mem_cons_of_mem _ hx)]

/-- **An argument is written with the nodes inside it**, and no others. -/
theorem render_congr {a : Argument} (h : ∀ n ∈ a.nodes, f n = k n) : a.render f = a.render k := by
  induction a with
  | node n => exact h n (List.mem_singleton.2 rfl)
  | tuple items ih =>
    rw [render, render, renderItems_congr fun x hx => ih x hx fun n hn => ?_]
    exact h n (mem_nodes_tuple.2 ⟨x, hx, hn⟩)
  | map entries ih =>
    rw [render, render, renderEntries_congr fun e he => ih e he fun n hn => ?_]
    exact h n (mem_nodes_map.2 ⟨e, he, hn⟩)
  | _ => rfl

end Argument

theorem Operation.render_congr {op : Operation} {f k : NodeId → String}
    (h : ∀ c ∈ op.children, f c = k c) : op.render f = op.render k := by
  have hitems : Argument.renderItems f op.arguments = Argument.renderItems k op.arguments := by
    refine Argument.renderItems_congr fun a ha => Argument.render_congr fun c hc => ?_
    exact h c (List.mem_flatMap.2 ⟨a, ha, hc⟩)
  rw [Operation.render, Operation.render, hitems]

/-! ## Two nodes of one operation -/

namespace Graph

variable {g g' : Graph} {H : Hasher} {m n : NodeId}

theorem digest_eq_of_operation (hg : g.Built H) (hm : m < g.size) (hn : n < g.size)
    (hop : g.operation m = g.operation n) : g.digest m = g.digest n := by
  rw [hg.digest m hm, hg.digest n hn, hop]

theorem kind_eq_of_operation (hop : g.operation m = g.operation n) : g.kind m = g.kind n := by
  rw [kind, kind, hop]

theorem arguments_eq_of_operation (hop : g.operation m = g.operation n) :
    g.arguments m = g.arguments n := by
  rw [arguments, arguments, hop]

theorem children_eq_of_operation (hop : g.operation m = g.operation n) :
    g.children m = g.children n := by
  rw [children, children, hop]

/-- They are the same, unless they are sealed. -/
theorem same_of_operation (hop : g.operation m = g.operation n) (hsealed : g.kind m ≠ .sealed) :
    g.Same m n := by
  refine .contents (kind_eq_of_operation hop) hsealed ?_
  rw [arguments_eq_of_operation hop]
  exact (Same.self n).arguments

/-- A sealed node produces nothing. -/
theorem value?_of_sealed (hn : g.kind n = .sealed) : g.value? n = none := by
  rw [Option.eq_none_iff_forall_ne_some]
  intro v hv
  have hvalue := exists_value?_iff.1 ⟨v, hv⟩
  rw [hn] at hvalue
  cases hvalue

theorem value?_eq_of_operation (hg : g.Built H) (hf : g.Faithful)
    (hop : g.operation m = g.operation n) : g.value? m = g.value? n := by
  by_cases hsealed : g.kind m = .sealed
  · have hsealed' : g.kind n = .sealed := (kind_eq_of_operation hop).symm.trans hsealed
    rw [value?_of_sealed hsealed, value?_of_sealed hsealed']
  · exact (same_of_operation hop hsealed).value?_eq hg hf

theorem resolveName_eq_of_operation (hop : g.operation m = g.operation n) :
    g.resolveName m = g.resolveName n := by
  rw [resolveName, resolveName, hop]

/-- The nodes inside are older than both, so both are written with the same texts. -/
theorem render_eq_of_operation (hg : g.Built H) (hop : g.operation m = g.operation n) :
    g.render m = g.render n := by
  rw [render, render, hop]
  refine Operation.render_congr fun c hc => ?_
  have hn : c < n := hg.older n c hc
  have hm : c < m := by
    refine hg.older m c ?_
    rw [children_eq_of_operation hop]
    exact hc
  rw [dif_pos hm, dif_pos hn]

/-- **Nodes up to `n` decide the text of `n`.** -/
theorem render_congr (h : ∀ m ≤ n, g'.operation m = g.operation m) : g'.render n = g.render n := by
  induction n using Nat.strongRecOn with
  | _ n ih =>
    rw [render, render, h n (Nat.le_refl n)]
    refine Operation.render_congr fun c _ => ?_
    split
    · rename_i hc
      exact ih c hc fun m hm => h m (Nat.le_trans hm (Nat.le_of_lt hc))
    · rfl

end Graph

/-! ## Copies -/

namespace Session

variable {H : Hasher} {picker : ShardPicker} {s t : Session} {n : NodeId}

/-- **`m` is a copy of `n`**: a node of its own, with the same contents.  Nothing that is seen of a
    node tells the two apart, and each cache finds them equal from now on, sealed nodes excepted. -/
structure Copy (t : Session) (n m : NodeId) : Prop where
  ne : m ≠ n
  kind : t.graph.kind m = t.graph.kind n
  arguments : t.graph.arguments m = t.graph.arguments n
  digest : t.graph.digest m = t.graph.digest n
  value : t.graph.value? m = t.graph.value? n
  resolveName : t.graph.resolveName m = t.graph.resolveName n
  text : t.graph.render m = t.graph.render n
  equal : ∀ u, t.Later u → ∀ ref,
    u.equal ref m n = decide (t.graph.kind n ≠ .sealed) ∧
      u.equal ref n m = decide (t.graph.kind n ≠ .sealed)

/-- Two nodes of one operation are copies of each other. -/
theorem copy_of_operation (h : Reachable H picker t) {m : NodeId} (hm : m < t.graph.size)
    (hn : n < t.graph.size) (hne : m ≠ n) (hop : t.graph.operation m = t.graph.operation n) :
    t.Copy n m := by
  have hg := h.consistent.built
  have hkind := Graph.kind_eq_of_operation hop
  have hsame : t.graph.Same m n ↔ t.graph.kind n ≠ .sealed := by
    constructor
    · exact fun hsame hsealed => Graph.not_same_of_sealed hne (hkind.trans hsealed) hsame
    · exact fun hsealed => Graph.same_of_operation hop (hkind ▸ hsealed)
  refine ⟨hne, hkind, Graph.arguments_eq_of_operation hop,
    Graph.digest_eq_of_operation hg hm hn hop, Graph.value?_eq_of_operation hg h.faithful hop,
    Graph.resolveName_eq_of_operation hop, Graph.render_eq_of_operation hg hop, fun u hu ref => ?_⟩
  constructor
  · rw [Bool.eq_iff_iff, decide_eq_true_iff, hu.equal_iff h ref hm hn, hsame]
  · rw [Bool.eq_iff_iff, decide_eq_true_iff, hu.equal_iff h ref hn hm, Graph.same_comm hg, hsame]

/-- Whatever is alive is built over well-formed arguments and living nodes, so it may be built
    again. -/
theorem permits_copy (h : Consistent H s) (hn : s.isAlive n = true) (kind : Kind) :
    s.permits (.create kind (s.graph.arguments n)) := by
  refine fun x hx => ⟨h.built.wellFormed n x hx, fun c hc => ?_⟩
  exact h.tallied.isAlive_child hn (List.mem_flatMap.2 ⟨x, hx, hc⟩)

/-- **Arguments round-trip through construction.**  The arguments of a new node are those that it
    was built from, one by one.  A node that is derived from a living one and from its own arguments
    is accepted; it takes the next identity and is a copy, and all nodes that were there before are
    what they were. -/
theorem arguments_round_trip (h : Reachable H picker s) :
    (∀ kind args m t, s.build (Operation.ofArguments s.graph kind args) = .ok (m, t) →
      t.graph.kind m = kind ∧ t.graph.arguments m = args) ∧
    ∀ n, s.isAlive n = true → ∃ m t, s.build (s.graph.derive n (s.graph.arguments n)) = .ok (m, t) ∧
      s.Later t ∧ m = s.graph.size ∧ t.Copy n m ∧
      ∀ k < s.graph.size, t.graph.node k = s.graph.node k ∧
        t.graph.value? k = s.graph.value? k ∧ t.graph.render k = s.graph.render k := by
  refine ⟨fun kind args m t hbuild => ?_, fun n hn => ?_⟩
  · obtain ⟨op, hop, hinsert⟩ := ok_of_map hbuild
    cases hinsert
    obtain ⟨rfl, rfl⟩ := Operation.ofArguments_ok hop
    have hnew : (s.graph.insert s.hasher op).2.operation s.graph.size = op :=
      Graph.operation_insert s.hasher s.graph op
    exact ⟨congrArg Operation.kind hnew, congrArg Operation.arguments hnew⟩
  · have hc := h.consistent
    have hsize := hc.tallied.lt_size hn
    have hpermits := permits_copy hc hn (s.graph.kind n)
    have hderive := h.faithful.derive_arguments n
    have hbuild : s.build (s.graph.derive n (s.graph.arguments n)) =
        .ok (s.insert (s.graph.operation n)) := by
      rw [hderive]
      rfl
    obtain ⟨hlater, hlt, -⟩ := build_spec hpermits hbuild
    have hkept : ∀ k < s.graph.size, ∀ j ≤ k,
        (s.insert (s.graph.operation n)).2.graph.node j = s.graph.node j :=
      fun k hk j hj => hlater.node_eq h (Nat.lt_of_le_of_lt hj hk)
    refine ⟨_, _, hbuild, hlater, rfl, ?_,
      fun k hk => ⟨hkept k hk k (Nat.le_refl k), hlater.value?_eq h hk, ?_⟩⟩
    · refine copy_of_operation (hlater.reachable h) hlt
        (Nat.lt_of_lt_of_le hsize (hlater.size_le h)) (Nat.ne_of_gt hsize) ?_
      have hold := congrArg Node.operation (hkept n hsize n (Nat.le_refl n))
      exact (Graph.operation_insert s.hasher s.graph _).trans hold.symm
    · exact Graph.render_congr fun j hj => congrArg Node.operation (hkept k hk j hj)

/-- A renamed column is copied: the copy has its name, and is equal to it.  The copy of a sealed
    node is not. -/
theorem arguments_round_trip_twinColumns :
    Reachable .mixing .standard twinColumns ∧ twinColumns.isAlive 2 = true ∧
    (∃ t, twinColumns.build (twinColumns.graph.derive 2 [.node 0, .text "a"]) = .ok (6, t) ∧
      t.graph.resolveName 6 = t.graph.resolveName 2 ∧ t.graph.digest 6 = t.graph.digest 2 ∧
      t.equal .shared 6 2 = true) ∧
    Reachable .mixing .standard sealedRun.2 ∧ sealedRun.2.isAlive 0 = true ∧
    ∃ t, sealedRun.2.build (sealedRun.2.graph.derive 0 []) = .ok (5, t) ∧
      t.graph.digest 5 = t.graph.digest 0 ∧ t.equal .shared 5 0 = false := by
  obtain ⟨m, t, hbuild, -, rfl, hcopy, hkept⟩ :=
    (arguments_round_trip reachable_twinColumns).2 2 rfl
  obtain ⟨m', t', hbuild', -, rfl, hcopy', hkept'⟩ := (arguments_round_trip reachable_sealedRun).2 0 rfl
  have hkind : t.graph.kind 2 = .alias :=
    congrArg (Operation.kind ∘ Node.operation) (hkept 2 (by decide)).1
  have hkind' : t'.graph.kind 0 = .sealed :=
    congrArg (Operation.kind ∘ Node.operation) (hkept' 0 (by decide)).1
  refine ⟨reachable_twinColumns, rfl, ⟨t, hbuild, hcopy.resolveName, hcopy.digest, ?_⟩,
    reachable_sealedRun, rfl, t', hbuild', hcopy'.digest, ?_⟩
  · refine (hcopy.equal t .refl .shared).1.trans ?_
    rw [hkind]
    rfl
  · refine (hcopy'.equal t' .refl .shared).1.trans ?_
    rw [hkind']
    rfl

end Session

end ExprGraph
