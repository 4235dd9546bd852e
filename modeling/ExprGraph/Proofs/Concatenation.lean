/-
  Concatenation — a list joined with whatever an operand denotes.

  A list may be joined with a tuple of arguments, with a node, with a list or with plain nodes, on
  either side.  There is an entry point for each of these, and each takes its operands in its own
  order.  What comes out should be a matter of two sequences and of the side alone.

  1. **Specification** — `Graph.Denotes g x xs`: the operand `x` stands for the nodes `xs`.  A tuple
     of nodes does, and so does a list node, one level deep; nothing else denotes anything, and is
     refused (`Graph.RefusesOperand`), a tuple in the name of its first entry that is no node.

  2. **Sequences** — `NodeList.Joins r front back`: the members of `r` are those of the two, in
     order; every position is that of an operand, shifted for the second, and behind the last one
     there is nothing.

  3. **Result** — joining succeeds exactly for the operands that denote something.  The entry points
     agree (`NodeList.TypedJoins`, `NodeList.UntypedJoins`), grouping does not matter, and no
     operand is ever touched: in all later states it denotes what it did.
-/
import ExprGraph.Proofs.EntryPoints

namespace ExprGraph

/-! ## What operands denote -/

/-- **The first entry that is no node** stands at `i`. -/
structure FirstNonNode (items : List Argument) (i : Nat) (x : Argument) : Prop where
  entry : items[i]? = some x
  not_node : ∀ n, x ≠ .node n
  before : ∀ j < i, ∃ n, items[j]? = some (.node n)

namespace Graph

/-- **The nodes that an operand denotes**: those of a tuple, or the members of a list node. -/
inductive Denotes (g : Graph) : Argument → List NodeId → Prop where
  | tuple (ns : List NodeId) : g.Denotes (.tuple (ns.map .node)) ns
  | list {n : NodeId} {ns : List NodeId} : g.operation n = .list ns → g.Denotes (.node n) ns

/-- **An operand that holds nodes**: a tuple of nothing but nodes, or a list node. -/
def HoldsNodes (g : Graph) (x : Argument) : Prop :=
  (∃ items, x = .tuple items ∧ ∀ y ∈ items, ∃ n, y = .node n) ∨ ∃ n, x = .node n ∧ g.kind n = .list

/-- **Why an operand is refused**: an entry of the tuple is no node, the node is no list, or the
    operand is something else altogether. -/
inductive RefusesOperand (g : Graph) : Argument → GraphError → Prop where
  | entry {items : List Argument} {i : Nat} {x : Argument} : FirstNonNode items i x →
      g.RefusesOperand (.tuple items)
        (.invalidField "NodeList" (.entry "other" i) .node (.form x.form))
  | node {n : NodeId} : g.kind n ≠ .list →
      g.RefusesOperand (.node n)
        (.invalidField "NodeList" (.named "other") .nodes (.node (g.kind n).name))
  | other {x : Argument} : (∀ items, x ≠ .tuple items) → (∀ n, x ≠ .node n) →
      g.RefusesOperand x (.invalidField "NodeList" (.named "other") .nodes (.form x.form))

end Graph

theorem firstNonNode_succ_iff {n : NodeId} {items : List Argument} {i : Nat} {x : Argument} :
    FirstNonNode (.node n :: items) (i + 1) x ↔ FirstNonNode items i x := by
  constructor
  · rintro ⟨hentry, hnot, hbefore⟩
    exact ⟨hentry, hnot, fun j hj => hbefore (j + 1) (Nat.succ_lt_succ hj)⟩
  · rintro ⟨hentry, hnot, hbefore⟩
    refine ⟨hentry, hnot, fun j hj => ?_⟩
    cases j with
    | zero => exact ⟨n, rfl⟩
    | succ j => exact hbefore j (Nat.lt_of_succ_lt_succ hj)

/-- In front of an entry that is no node there is nothing to come first. -/
theorem firstNonNode_iff_of_not_node {items : List Argument} {i : Nat} {x y : Argument}
    (hnot : ∀ n, y ≠ .node n) : FirstNonNode (y :: items) i x ↔ i = 0 ∧ x = y := by
  constructor
  · rintro ⟨hentry, -, hbefore⟩
    cases i with
    | zero => exact ⟨rfl, (Option.some.inj hentry).symm⟩
    | succ i =>
      obtain ⟨n, hn⟩ := hbefore 0 (Nat.succ_pos i)
      exact absurd (Option.some.inj hn) (hnot n)
  · rintro ⟨rfl, rfl⟩
    exact ⟨rfl, hnot, fun j hj => absurd hj (Nat.not_lt_zero j)⟩

section NodesFrom

variable {kind field : String} {index : Nat} {items : List Argument} {ns : List NodeId}
  {e : GraphError}

theorem nodesFrom_eq_ok_iff : nodesFrom kind field index items = .ok ns ↔ items = ns.map .node := by
  constructor
  · exact nodesFrom_ok
  · rintro rfl
    exact nodesFrom_map_node kind field index ns

/-- A node in front is not to blame. -/
theorem nodesFrom_node_eq_error_iff {n : NodeId} :
    nodesFrom kind field index (.node n :: items) = .error e ↔
      nodesFrom kind field (index + 1) items = .error e := by
  rw [nodesFrom]
  cases nodesFrom kind field (index + 1) items with
  | ok ns => exact iff_of_false (by rintro ⟨⟩) (by rintro ⟨⟩)
  | error e' => exact Iff.rfl

theorem nodesFrom_of_not_node {y : Argument} (hnot : ∀ n, y ≠ .node n) :
    nodesFrom kind field index (y :: items) =
      .error (.invalidField kind (.entry field index) .node (.form y.form)) := by
  cases y with
  | node n => exact absurd rfl (hnot n)
  | _ => rfl

/-- **A tuple of nodes is refused** in the name of the first entry that is none. -/
theorem nodesFrom_eq_error_iff : nodesFrom kind field index items = .error e ↔
    ∃ i x, FirstNonNode items i x ∧
      e = .invalidField kind (.entry field (index + i)) .node (.form x.form) := by
  induction items generalizing index with
  | nil =>
    refine iff_of_false (by simp [nodesFrom]) ?_
    rintro ⟨i, x, hfirst, -⟩
    simpa using hfirst.entry
  | cons y rest ih =>
    by_cases hy : ∃ n, y = .node n
    · obtain ⟨n, rfl⟩ := hy
      rw [nodesFrom_node_eq_error_iff, ih]
      constructor
      · rintro ⟨i, x, hfirst, he⟩
        refine ⟨i + 1, x, firstNonNode_succ_iff.2 hfirst, ?_⟩
        rw [he, Nat.add_right_comm, Nat.add_assoc]
      · rintro ⟨i, x, hfirst, he⟩
        -- the entry in front is a node, so the first that is none stands behind it
        cases i with
        | zero => exact absurd (Option.some.inj hfirst.entry).symm (hfirst.not_node n)
        | succ i =>
          refine ⟨i, x, firstNonNode_succ_iff.1 hfirst, ?_⟩
          rw [he, Nat.add_right_comm, Nat.add_assoc]
    · have hnot : ∀ n, y ≠ .node n := fun n hn => hy ⟨n, hn⟩
      rw [nodesFrom_of_not_node hnot]
      simp only [firstNonNode_iff_of_not_node hnot]
      constructor
      · intro he
        exact ⟨0, y, ⟨rfl, rfl⟩, (Except.error.inj he).symm⟩
      · rintro ⟨i, x, ⟨rfl, rfl⟩, rfl⟩
        rfl

end NodesFrom

/-- Entries that are all nodes are a sequence of nodes. -/
theorem exists_map_node {items : List Argument} (h : ∀ y ∈ items, ∃ n, y = .node n) :
    ∃ ns : List NodeId, items = ns.map .node := by
  induction items with
  | nil => exact ⟨[], rfl⟩
  | cons y rest ih =>
    obtain ⟨⟨n, rfl⟩, hrest⟩ := List.forall_mem_cons.1 h
    obtain ⟨ns, rfl⟩ := ih hrest
    exact ⟨n :: ns, rfl⟩

namespace Graph

variable {g : Graph} {x : Argument} {n : NodeId} {xs ys : List NodeId}

theorem members?_eq_some_iff : g.members? n = some xs ↔ g.operation n = .list xs := by
  unfold members?
  cases g.operation n <;> simp

theorem members?_eq_none_iff : g.members? n = none ↔ g.kind n ≠ .list := by
  unfold members?
  rw [kind]
  cases g.operation n <;> simp [Operation.kind]

theorem Denotes.members (h : g.Denotes (.node n) xs) : g.operation n = .list xs := by
  cases h with
  | list hop => exact hop

/-- **Who holds nodes denotes them**, and nobody else denotes anything. -/
theorem exists_denotes_iff : (∃ xs, g.Denotes x xs) ↔ g.HoldsNodes x := by
  constructor
  · rintro ⟨xs, hx⟩
    cases hx with
    | tuple =>
      refine Or.inl ⟨_, rfl, fun y hy => ?_⟩
      obtain ⟨n, -, rfl⟩ := List.mem_map.1 hy
      exact ⟨n, rfl⟩
    | @list n _ hop => exact Or.inr ⟨n, rfl, by rw [kind, hop]; rfl⟩
  · rintro (⟨items, rfl, hitems⟩ | ⟨n, rfl, hn⟩)
    · obtain ⟨ns, rfl⟩ := exists_map_node hitems
      exact ⟨ns, .tuple ns⟩
    · obtain ⟨xs, hxs⟩ := Option.ne_none_iff_exists'.1 fun hnone => members?_eq_none_iff.1 hnone hn
      exact ⟨xs, .list (members?_eq_some_iff.1 hxs)⟩

end Graph

namespace NodeList

variable {g g' : Graph} {x y : Argument} {l r : NodeList} {xs ys : List NodeId} {e : GraphError}

/-- **Reading an operand** gives what it denotes. -/
theorem operandNodes_eq_ok_iff : operandNodes g x = .ok xs ↔ g.Denotes x xs := by
  cases x with
  | tuple items =>
    rw [operandNodes, nodesOf, nodesFrom_eq_ok_iff]
    constructor
    · rintro rfl
      exact .tuple xs
    · intro h
      cases h with
      | tuple => rfl
  | node n =>
    rw [operandNodes]
    constructor
    · intro h
      cases hmembers : g.members? n with
      | some ns =>
        rw [hmembers] at h
        cases h
        exact .list (Graph.members?_eq_some_iff.1 hmembers)
      | none =>
        rw [hmembers] at h
        cases h
    · intro h
      rw [Graph.members?_eq_some_iff.2 h.members]
  | _ =>
    refine iff_of_false (by rintro ⟨⟩) fun h => ?_
    cases h

/-- **Reading an operand fails** as its refusal says. -/
theorem operandNodes_eq_error_iff : operandNodes g x = .error e ↔ g.RefusesOperand x e := by
  cases x with
  | tuple items =>
    rw [operandNodes, nodesOf, nodesFrom_eq_error_iff]
    constructor
    · rintro ⟨i, y, hfirst, rfl⟩
      rw [Nat.zero_add]
      exact .entry hfirst
    · intro h
      cases h with
      | @entry _ i y hfirst => exact ⟨i, y, hfirst, by rw [Nat.zero_add]; rfl⟩
      | other htuple => exact absurd rfl (htuple items)
  | node n =>
    rw [operandNodes]
    cases hmembers : g.members? n with
    | some ns =>
      refine iff_of_false (by rintro ⟨⟩) fun h => ?_
      cases h with
      | node hkind => exact absurd hmembers (by rw [Graph.members?_eq_none_iff.2 hkind]; simp)
      | other _ hnode => exact absurd rfl (hnode n)
    | none =>
      constructor
      · rintro ⟨⟩
        exact .node (Graph.members?_eq_none_iff.1 hmembers)
      · intro h
        cases h with
        | node => rfl
        | other _ hnode => exact absurd rfl (hnode n)
  | _ =>
    constructor
    · rintro ⟨⟩
      exact .other (by simp) (by simp)
    · intro h
      cases h with
      | other => rfl

/-- An operand is read in the same way wherever its nodes are the same. -/
theorem operandNodes_congr (h : ∀ n ∈ x.nodes, g'.operation n = g.operation n) :
    operandNodes g' x = operandNodes g x := by
  cases x with
  | node n =>
    have hn : g'.operation n = g.operation n := h n (List.mem_singleton_self n)
    rw [operandNodes, operandNodes, Graph.members?, Graph.members?, Graph.kind, Graph.kind, hn]
  | _ => rfl

/-! ## Joining -/

/-- What is joined, is joined to what the operand denotes. -/
theorem map_operandNodes_eq_ok_iff (f : List NodeId → NodeList) :
    (operandNodes g x).map f = .ok r ↔ ∃ xs, g.Denotes x xs ∧ r = f xs := by
  constructor
  · intro h
    obtain ⟨xs, hxs, rfl⟩ := ok_of_map h
    exact ⟨xs, operandNodes_eq_ok_iff.1 hxs, rfl⟩
  · rintro ⟨xs, hxs, rfl⟩
    rw [operandNodes_eq_ok_iff.2 hxs]
    rfl

theorem map_operandNodes_eq_error_iff (f : List NodeId → NodeList) :
    (operandNodes g x).map f = .error e ↔ g.RefusesOperand x e := by
  rw [← operandNodes_eq_error_iff]
  cases operandNodes g x with
  | ok xs => exact iff_of_false (by rintro ⟨⟩) (by rintro ⟨⟩)
  | error e' => exact ⟨by rintro ⟨⟩; rfl, by rintro ⟨⟩; rfl⟩

/-- **The two untyped entry points** accept the same operands, refuse the others with the same
    error, and differ in nothing but the side. -/
structure UntypedJoins (g : Graph) (l : NodeList) (x : Argument) : Prop where
  accepts : (∃ r, l.concat? g x = .ok r) ↔ g.HoldsNodes x
  raccepts : (∃ r, l.rconcat? g x = .ok r) ↔ g.HoldsNodes x
  concat : ∀ r, l.concat? g x = .ok r ↔ ∃ xs, g.Denotes x xs ∧ r.members = l.members ++ xs
  rconcat : ∀ r, l.rconcat? g x = .ok r ↔ ∃ xs, g.Denotes x xs ∧ r.members = xs ++ l.members
  refuses : ∀ e, l.concat? g x = .error e ↔ g.RefusesOperand x e
  rrefuses : ∀ e, l.rconcat? g x = .error e ↔ g.RefusesOperand x e

theorem eq_mk_iff : r = ⟨xs⟩ ↔ r.members = xs := by
  obtain ⟨ns⟩ := r
  exact mk.injEq ns xs ▸ Iff.rfl

theorem untypedJoins (g : Graph) (l : NodeList) (x : Argument) : UntypedJoins g l x := by
  have hjoined : ∀ f : List NodeId → NodeList,
      (∃ r, (operandNodes g x).map f = .ok r) ↔ g.HoldsNodes x := by
    intro f
    simp only [map_operandNodes_eq_ok_iff, ← Graph.exists_denotes_iff]
    exact ⟨fun ⟨_, xs, hxs, _⟩ => ⟨xs, hxs⟩, fun ⟨xs, hxs⟩ => ⟨_, xs, hxs, rfl⟩⟩
  refine ⟨hjoined l.concat, hjoined l.rconcat, fun r => ?_, fun r => ?_,
    fun e => map_operandNodes_eq_error_iff l.concat,
    fun e => map_operandNodes_eq_error_iff l.rconcat⟩
  · simp only [← eq_mk_iff]
    exact map_operandNodes_eq_ok_iff l.concat
  · simp only [← eq_mk_iff]
    exact map_operandNodes_eq_ok_iff l.rconcat

/-- **Two sequences in one list**: the members are those of the two, in order.  Positions of the
    second sequence are shifted by the first, and behind both there is nothing. -/
structure Joins (r : NodeList) (front back : List NodeId) : Prop where
  members : r.members = front ++ back
  length : r.length = front.length + back.length
  left : ∀ i n, front[i]? = some n → r.nodeAt i = .ok n
  right : ∀ i n, back[i]? = some n → r.nodeAt (front.length + i) = .ok n
  outside : ∀ i e, r.nodeAt i = .error e ↔ r.length ≤ i ∧ e = .indexOutOfRange i r.length

theorem nodeAt_eq_ok_iff {i : Nat} {n : NodeId} : r.nodeAt i = .ok n ↔ r.members[i]? = some n := by
  unfold nodeAt
  cases r.members[i]? <;> simp

theorem nodeAt_eq_error_iff {i : Nat} :
    r.nodeAt i = .error e ↔ r.length ≤ i ∧ e = .indexOutOfRange i r.length := by
  rw [length, ← List.getElem?_eq_none_iff, nodeAt]
  cases r.members[i]? with
  | some n => simp
  | none => simp [length, eq_comm]

theorem joins_append (front back : List NodeId) : Joins ⟨front ++ back⟩ front back where
  members := rfl
  length := List.length_append
  left i n hi := by
    obtain ⟨hlt, -⟩ := List.getElem?_eq_some_iff.1 hi
    exact nodeAt_eq_ok_iff.2 ((List.getElem?_append_left hlt).trans hi)
  right i n hi := by
    rw [nodeAt_eq_ok_iff, List.getElem?_append_right (Nat.le_add_right _ _),
      Nat.add_sub_cancel_left]
    exact hi
  outside i e := nodeAt_eq_error_iff

/-- **The typed entry points** join sequences, the sums are the same under another name, and neither
    grouping nor an empty list makes a difference. -/
structure TypedJoins (l : NodeList) : Prop where
  concat : ∀ xs, (l.concat xs).Joins l.members xs
  rconcat : ∀ xs, (l.rconcat xs).Joins xs l.members
  plus_nodes : ∀ xs : List NodeId, l + xs = l.concat xs ∧ xs + l = l.rconcat xs
  plus_list : ∀ m : NodeList, l + m = l.concat m.members ∧ m + l = l.rconcat m.members
  assoc : ∀ m k : NodeList, l + m + k = l + (m + k)
  assoc_nodes : ∀ xs ys : List NodeId, xs + l + ys = xs + (l + ys) ∧ l + xs + ys = l + (xs ++ ys) ∧
    xs + (ys + l) = (xs ++ ys) + l
  empty_left : empty + l = l
  empty_right : l + empty = l

theorem typedJoins (l : NodeList) : l.TypedJoins where
  concat xs := joins_append l.members xs
  rconcat xs := joins_append xs l.members
  plus_nodes _ := ⟨rfl, rfl⟩
  plus_list _ := ⟨rfl, rfl⟩
  assoc m k := eq_mk_iff.2 (List.append_assoc l.members m.members k.members)
  assoc_nodes xs ys := ⟨eq_mk_iff.2 (List.append_assoc xs l.members ys),
    eq_mk_iff.2 (List.append_assoc l.members xs ys),
    eq_mk_iff.2 (List.append_assoc xs ys l.members).symm⟩
  empty_left := eq_mk_iff.2 (List.nil_append l.members)
  empty_right := eq_mk_iff.2 (List.append_nil l.members)

/-- **Untyped and typed joining agree.** -/
theorem concat?_of_denotes (l : NodeList) (h : g.Denotes x xs) : l.concat? g x = .ok (l + xs) :=
  (map_operandNodes_eq_ok_iff l.concat).2 ⟨xs, h, rfl⟩

theorem rconcat?_of_denotes (l : NodeList) (h : g.Denotes x xs) : l.rconcat? g x = .ok (xs + l) :=
  (map_operandNodes_eq_ok_iff l.rconcat).2 ⟨xs, h, rfl⟩

end NodeList

namespace Session

variable {H : Hasher} {picker : ShardPicker} {s t : Session} {x y : Argument} {l m : NodeList}
  {xs ys : List NodeId}

/-- **Wrap a list** that may have been refused: one node, over exactly its members. -/
def wrap (s : Session) (l : Except GraphError NodeList) : Except GraphError (NodeId × Session) :=
  s.build (l.map fun l => .list l.members)

/-- **A list of living nodes is wrapped** by the next identity, for good. -/
theorem exists_wrap (h : Reachable H picker s) (halive : ∀ n ∈ l.members, s.isAlive n = true) :
    ∃ t, s.wrap (.ok l) = .ok (s.graph.size, t) ∧ s.Later t ∧ t.graph.size = s.graph.size + 1 ∧
      ∀ u, t.Later u → u.Wraps s.graph.size l := by
  obtain ⟨hlater, hwraps⟩ := wraps_insert h halive
  exact ⟨_, rfl, hlater, Graph.size_insert s.hasher s.graph _, hwraps⟩

/-- **Operands are never touched**: they are read as they were. -/
theorem Later.operandNodes_eq (ht : s.Later t) (h : Reachable H picker s)
    (hx : ∀ n ∈ x.nodes, n < s.graph.size) :
    NodeList.operandNodes t.graph x = NodeList.operandNodes s.graph x :=
  NodeList.operandNodes_congr fun n hn => congrArg Node.operation (ht.node_eq h (hx n hn))

/-- What a living operand denotes is alive. -/
theorem isAlive_of_denotes (h : Reachable H picker s) (hx : s.graph.Denotes x xs)
    (halive : ∀ n ∈ x.nodes, s.isAlive n = true) : ∀ n ∈ xs, s.isAlive n = true := by
  intro n hn
  cases hx with
  | tuple => exact halive n (by rwa [Argument.nodes_tuple_nodes])
  | @list a _ hop =>
    refine h.consistent.tallied.isAlive_child (halive a List.mem_cons_self) ?_
    rw [Graph.children, Operation.children, hop, Operation.arguments]
    exact List.mem_flatMap.2 ⟨.node n, List.mem_map.2 ⟨n, hn, rfl⟩, List.mem_singleton_self n⟩

/-- **Lists are joined as sequences.**  The typed entry points join what they are given, and the
    untyped ones what their operand denotes; they refuse operands that denote nothing, and then
    nothing is built.  Joining with a node that wraps a list is joining with the list, from either
    side, and joining twice is joining with both.  Whatever happens in between, operands stay what
    they are; and of living ones, the joined list is wrapped by one node. -/
theorem lists_concatenated (h : Reachable H picker s) (l : NodeList) :
    l.TypedJoins ∧
    (∀ x, NodeList.UntypedJoins s.graph l x ∧
      (∀ e, s.graph.RefusesOperand x e → s.wrap (l.concat? s.graph x) = .error e ∧
        s.wrap (l.rconcat? s.graph x) = .error e)) ∧
    (∀ x xs, s.graph.Denotes x xs → l.concat? s.graph x = .ok (l + xs) ∧
      l.rconcat? s.graph x = .ok (xs + l) ∧
      ((∀ n ∈ l.members ++ x.nodes, s.isAlive n = true) → ∀ r ∈ [l + xs, xs + l],
        ∃ t, s.wrap (.ok r) = .ok (s.graph.size, t) ∧ s.Later t ∧
          t.graph.size = s.graph.size + 1 ∧ ∀ u, t.Later u → u.Wraps s.graph.size r)) ∧
    (∀ x y xs ys, s.graph.Denotes x xs → s.graph.Denotes y ys →
      (l.concat? s.graph x >>= fun r => r.concat? s.graph y) = .ok (l + (xs ++ ys)) ∧
      (l.rconcat? s.graph x >>= fun r => r.concat? s.graph y) = .ok (xs + (l + ys)) ∧
      (l.concat? s.graph y >>= fun r => r.rconcat? s.graph x) = .ok (xs + (l + ys))) ∧
    (∀ a b m, s.Wraps a l → s.Wraps b m → l.rconcat? s.graph (.node b) = .ok (m + l) ∧
      m.concat? s.graph (.node a) = .ok (m + l)) ∧
    ∀ t, s.Later t → ∀ x, (∀ n ∈ x.nodes, n < s.graph.size) →
      l.concat? t.graph x = l.concat? s.graph x ∧ l.rconcat? t.graph x = l.rconcat? s.graph x := by
  refine ⟨l.typedJoins, fun x => ⟨NodeList.untypedJoins s.graph l x, fun e he => ?_⟩,
    fun x xs hx => ⟨l.concat?_of_denotes hx, l.rconcat?_of_denotes hx, fun halive r hr => ?_⟩,
    fun x y xs ys hx hy => ?_, fun a b m ha hb => ?_, fun t ht x hx => ?_⟩
  · have hjoins := NodeList.untypedJoins s.graph l x
    rw [(hjoins.refuses e).2 he, (hjoins.rrefuses e).2 he]
    exact ⟨rfl, rfl⟩
  · refine exists_wrap h fun n hn => ?_
    have hl : ∀ n ∈ l.members, s.isAlive n = true := fun n hn =>
      halive n (List.mem_append_left _ hn)
    have hxs := isAlive_of_denotes h hx fun n hn => halive n (List.mem_append_right _ hn)
    have hmem : n ∈ l.members ∨ n ∈ xs := by
      rcases List.mem_cons.1 hr with rfl | hr
      · exact List.mem_append.1 hn
      · cases List.mem_singleton.1 hr
        exact (List.mem_append.1 hn).symm
    exact hmem.elim (hl n) (hxs n)
  · have hjoins := l.typedJoins.assoc_nodes xs ys
    rw [l.concat?_of_denotes hx, l.rconcat?_of_denotes hx, l.concat?_of_denotes hy]
    refine ⟨?_, ?_, (l + ys).rconcat?_of_denotes hx⟩
    · exact ((l + xs).concat?_of_denotes hy).trans (congrArg Except.ok hjoins.2.1)
    · exact ((xs + l).concat?_of_denotes hy).trans (congrArg Except.ok hjoins.1)
  · exact ⟨l.rconcat?_of_denotes (.list hb.2), m.concat?_of_denotes (.list ha.2)⟩
  · rw [NodeList.concat?, NodeList.concat?, NodeList.rconcat?, NodeList.rconcat?,
      ht.operandNodes_eq h hx]
    exact ⟨rfl, rfl⟩

/-- A column joined with a list node and with a tuple, from either side.  A text among the entries
    is refused at its position, and so is a column where a list is wanted. -/
theorem lists_concatenated_twinColumns :
    Reachable .mixing .standard twinColumns ∧
    twinColumns.graph.Denotes (.node 4) [2] ∧
    NodeList.concat? twinColumns.graph ⟨[3]⟩ (.node 4) = .ok ⟨[3, 2]⟩ ∧
    NodeList.rconcat? twinColumns.graph ⟨[3]⟩ (.tuple [.node 0, .node 4]) = .ok ⟨[0, 4, 3]⟩ ∧
    (∃ t, twinColumns.wrap (.ok ⟨[3, 2]⟩) = .ok (6, t) ∧ t.Wraps 6 ⟨[3, 2]⟩) ∧
    NodeList.concat? twinColumns.graph ⟨[3]⟩ (.tuple [.node 0, .text "x", .none]) =
      .error (.invalidField "NodeList" (.entry "other" 1) .node (.form .text)) ∧
    NodeList.rconcat? twinColumns.graph ⟨[3]⟩ (.node 0) =
      .error (.invalidField "NodeList" (.named "other") .nodes (.node "Field")) := by
  obtain ⟨-, huntyped, hdenoted, -, -, -⟩ := lists_concatenated reachable_twinColumns ⟨[3]⟩
  have hlist : twinColumns.graph.Denotes (.node 4) [2] := .list rfl
  obtain ⟨hconcat, -, hwrap⟩ := hdenoted (.node 4) [2] hlist
  obtain ⟨t, ht, -, -, hwraps⟩ := hwrap (by decide) ⟨[3, 2]⟩ List.mem_cons_self
  obtain ⟨-, hrconcat, -⟩ := hdenoted (.tuple [.node 0, .node 4]) [0, 4] (.tuple [0, 4])
  have hfirst : FirstNonNode [.node 0, .text "x", .none] 1 (.text "x") := by
    refine ⟨rfl, by simp, fun j hj => ?_⟩
    obtain rfl : j = 0 := Nat.lt_one_iff.1 hj
    exact ⟨0, rfl⟩
  exact ⟨reachable_twinColumns, hlist, hconcat, hrconcat, ⟨t, ht, hwraps t .refl⟩,
    ((huntyped (.tuple [.node 0, .text "x", .none])).1.refuses _).2 (.entry hfirst),
    ((huntyped (.node 0)).1.rrefuses _).2 (.node (by decide))⟩

end Session

end ExprGraph
