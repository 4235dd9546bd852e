/-
  Typed construction — nodes built from nodes, and from tuples.

  Renamings, operators and lists can be built in two ways.  Who has the nodes in hand passes them
  one by one; a pass that rewrites the graph has a tuple of arguments, which has to be read first.
  The checks are written twice, and a pass may take either way only if nobody can tell.

  1. **Program** — a `Request` says what is to be built, a `Route` in which way; `Request.along` is
     the operation, or the refusal.

  2. **Operands** — `Request.operands` are the nodes that have to be values, with the names of their
     fields, in the order in which they are checked.

  3. **Result** — the first operand that is no value is the one refused, on both routes and ever
     after.  If there is none, both routes build, and what the one has built is copied by the other.
-/
import ExprGraph.Proofs.EntryPoints

namespace ExprGraph

/-! ## Two routes -/

/-- **What is to be built**, from nodes. -/
inductive Request where
  /-- a value under a name, or deliberately unnamed -/
  | named (arg : NodeId) (name : Option String)
  | unary (op : UnaryOp) (arg : NodeId)
  | binary (op : BinaryOp) (left right : NodeId)
  | list (members : List NodeId)

/-- The way in which it is built. -/
inductive Route where
  /-- the nodes are passed one by one -/
  | typed
  /-- the nodes stand in a tuple of arguments -/
  | untyped

namespace Request

def kind : Request → Kind
  | .named .. => .alias
  | .unary op _ => .unary op
  | .binary op _ _ => .binary op
  | .list _ => .list

/-- The argument tuple that says the same. -/
def arguments : Request → List Argument
  | .named arg name => [.node arg, .ofName name]
  | .unary _ arg => [.node arg]
  | .binary _ left right => [.node left, .node right]
  | .list members => members.map .node

/-- The nodes that have to be values, with the names of their fields. -/
def operands : Request → List (String × NodeId)
  | .named arg _ => [("arg", arg)]
  | .unary _ arg => [("arg", arg)]
  | .binary _ left right => [("left", left), ("right", right)]
  | .list _ => []

/-- All nodes of the request. -/
def nodes (r : Request) : List NodeId := r.arguments.flatMap Argument.nodes

/-- **The operation that is built**, or the refusal. -/
def along (r : Request) (g : Graph) : Route → Except GraphError Operation
  | .typed =>
    match r with
    | .named arg name => Operation.aliasOf g arg name
    | .unary op arg => Operation.unaryOf g op arg
    | .binary op left right => Operation.binaryOf g op left right
    | .list members => .ok (.list members)
  | .untyped =>
    match r with
    | .list members => (NodeList.ofArguments (members.map .node)).map fun l => .list l.members
    | r => Operation.ofArguments g r.kind r.arguments

/-- **The first operand that is no value**, with the name of its field. -/
def fault? (r : Request) (g : Graph) : Option (String × NodeId) :=
  r.operands.find? fun p => !g.isValue p.2

variable {g : Graph} {r : Request} {route : Route} {label : String} {n : NodeId}

/-- **Both routes read the same tuple.** -/
theorem along_eq (r : Request) (g : Graph) (route : Route) :
    r.along g route = Operation.ofArguments g r.kind r.arguments := by
  cases route with
  | typed =>
    cases r with
    | named arg name => exact (Operation.ofArguments_alias g arg name).symm
    | unary op arg => exact (Operation.ofArguments_unary g op arg).symm
    | binary op left right => exact (Operation.ofArguments_binary g op left right).symm
    | list members => exact (Operation.ofArguments_list g members).symm
  | untyped =>
    cases r with
    | list members =>
      refine Eq.trans ?_ (Operation.ofArguments_list g members).symm
      show ((nodesFrom _ _ 0 (members.map .node)).map NodeList.mk).map _ = _
      rw [nodesFrom_map_node]
      rfl
    | _ => rfl

/-! ## Refused or accepted -/

theorem operand_of_not_value {kind field : String} (h : g.isValue n = false) :
    g.operand kind field n =
      .error (.invalidField kind (.named field) .valueNode (.node (g.kind n).name)) := by
  rw [Graph.operand, Option.isNone_iff_eq_none.1 (Option.isSome_eq_false_iff.1 h)]

theorem exists_operand (h : g.isValue n = true) (kind field : String) :
    ∃ o, g.operand kind field n = .ok o := by
  obtain ⟨v, hv⟩ := Option.isSome_iff_exists.1 h
  rw [Graph.operand, hv]
  exact ⟨_, rfl⟩

theorem isValue_of_fault (h : r.fault? g = some (label, n)) : g.isValue n = false := by
  have hnot := List.find?_some h
  rwa [Bool.not_eq_true'] at hnot

/-- **The first fault is the one reported.** -/
theorem along_of_fault (h : r.fault? g = some (label, n)) : r.along g route =
    .error (.invalidField r.kind.name (.named label) .valueNode (.node (g.kind n).name)) := by
  rw [along_eq, ← along_eq r g .typed]
  have hvalue := isValue_of_fault h
  have hmem := List.mem_of_find?_eq_some h
  cases r with
  | named arg name =>
    cases List.mem_singleton.1 hmem
    rw [along, Operation.aliasOf, operand_of_not_value hvalue]
    rfl
  | unary op arg =>
    cases List.mem_singleton.1 hmem
    rw [along, Operation.unaryOf, operand_of_not_value hvalue]
    rfl
  | binary op left right =>
    -- the right operand is looked at only if the left one is a value
    cases hleft : g.isValue left with
    | false =>
      rw [fault?, operands, List.find?_cons_of_pos (by rw [hleft]; rfl)] at h
      cases h
      rw [along, Operation.binaryOf, operand_of_not_value hleft]
      rfl
    | true =>
      rw [fault?, operands, List.find?_cons_of_neg (by rw [hleft]; decide)] at h
      cases List.mem_singleton.1 (List.mem_of_find?_eq_some h)
      obtain ⟨o, ho⟩ := exists_operand hleft op.name "left"
      rw [along, Operation.binaryOf, ho, operand_of_not_value hvalue]
      rfl
  | list members => cases h

/-- **Without a fault nothing is refused.** -/
theorem exists_along (h : r.fault? g = none) (route : Route) : ∃ op, r.along g route = .ok op := by
  rw [along_eq, ← along_eq r g .typed]
  have hvalues : ∀ p ∈ r.operands, g.isValue p.2 = true := by
    intro p hp
    have hnot := List.find?_eq_none.1 h p hp
    rwa [Bool.not_eq_true', Bool.not_eq_false] at hnot
  cases r with
  | named arg name =>
    obtain ⟨o, ho⟩ := exists_operand (hvalues _ List.mem_cons_self) Kind.alias.name "arg"
    rw [along, Operation.aliasOf, ho]
    exact ⟨_, rfl⟩
  | unary op arg =>
    obtain ⟨o, ho⟩ := exists_operand (hvalues _ List.mem_cons_self) op.name "arg"
    rw [along, Operation.unaryOf, ho]
    exact ⟨_, rfl⟩
  | binary op left right =>
    obtain ⟨x, hx⟩ := exists_operand (hvalues _ List.mem_cons_self) op.name "left"
    obtain ⟨y, hy⟩ := exists_operand
      (hvalues _ (List.mem_cons_of_mem _ List.mem_cons_self)) op.name "right"
    rw [along, Operation.binaryOf, hx, hy]
    exact ⟨_, rfl⟩
  | list members => exact ⟨_, rfl⟩

theorem mem_nodes_of_operand {p : String × NodeId} (hp : p ∈ r.operands) : p.2 ∈ r.nodes := by
  cases r with
  | named arg name => cases List.mem_singleton.1 hp; exact List.mem_cons_self
  | unary op arg => cases List.mem_singleton.1 hp; exact List.mem_cons_self
  | binary op left right =>
    rcases List.mem_cons.1 hp with rfl | hp
    · exact List.mem_cons_self
    · cases List.mem_singleton.1 hp
      exact List.mem_cons_of_mem _ List.mem_cons_self
  | list members => exact absurd hp List.not_mem_nil

/-- The fault depends on the operands only. -/
theorem fault?_congr {g' : Graph} (h : ∀ n ∈ r.nodes, g'.isValue n = g.isValue n) :
    r.fault? g' = r.fault? g := by
  rw [fault?, fault?, ← List.head?_filter, ← List.head?_filter]
  refine congrArg List.head? (List.filter_congr fun p hp => ?_)
  rw [h p.2 (mem_nodes_of_operand hp)]

theorem kind_ne_sealed (r : Request) : r.kind ≠ .sealed := by
  cases r <;> exact Kind.noConfusion

theorem wellFormed_arguments (r : Request) : ∀ x ∈ r.arguments, x.WellFormed := by
  have hnode : ∀ c, (Argument.node c).WellFormed := fun _ => trivial
  cases r with
  | named arg name =>
    refine List.forall_mem_cons.2 ⟨hnode arg, List.forall_mem_singleton.2 ?_⟩
    cases name <;> trivial
  | unary op arg => exact List.forall_mem_singleton.2 (hnode arg)
  | binary op left right =>
    exact List.forall_mem_cons.2 ⟨hnode left, List.forall_mem_singleton.2 (hnode right)⟩
  | list members => exact List.forall_mem_map.2 fun c _ => hnode c

end Request

/-- **Kind and arguments make the operation**, if all copies are right. -/
theorem Graph.Faithful.operation_eq {g : Graph} {m n : NodeId} (hg : g.Faithful)
    (hkind : g.kind m = g.kind n) (harguments : g.arguments m = g.arguments n) :
    g.operation m = g.operation n := by
  have hm : Operation.ofArguments g (g.kind m) (g.arguments m) = .ok (g.operation m) :=
    hg.derive_arguments m
  have hn : Operation.ofArguments g (g.kind n) (g.arguments n) = .ok (g.operation n) :=
    hg.derive_arguments n
  rw [hkind, harguments, hn] at hm
  exact (Except.ok.inj hm).symm

namespace Session

variable {H : Hasher} {picker : ShardPicker} {s t u v : Session} {r : Request} {n : NodeId}

/-! ## What is built -/

/-- **The request is built**: there is one new node, with the next identity, of the right kind and
    over the right arguments, and no other node comes or goes. -/
structure Builds (s : Session) (r : Request) (route : Route) (t : Session) : Prop where
  build : s.build (r.along s.graph route) = .ok (s.graph.size, t)
  later : s.Later t
  size : t.graph.size = s.graph.size + 1
  kind : t.graph.kind s.graph.size = r.kind
  arguments : t.graph.arguments s.graph.size = r.arguments
  isAlive : ∀ n, t.isAlive n = true ↔ s.isAlive n = true ∨ n = s.graph.size

theorem permits_request (hr : ∀ n ∈ r.nodes, s.isAlive n = true) :
    s.permits (.create r.kind r.arguments) := fun x hx =>
  ⟨r.wellFormed_arguments x hx, fun n hn => hr n (List.mem_flatMap.2 ⟨x, hx, hn⟩)⟩

theorem exists_builds (h : Reachable H picker s) (hr : ∀ n ∈ r.nodes, s.isAlive n = true)
    (hfault : r.fault? s.graph = none) (route : Route) : ∃ t, s.Builds r route t := by
  obtain ⟨op, hop⟩ := Request.exists_along hfault route
  have hbuild : s.build (r.along s.graph route) = .ok (s.insert op) := by
    rw [hop]
    rfl
  have htuple := hbuild
  rw [Request.along_eq] at htuple hop
  obtain ⟨hlater, -, hkind, harguments⟩ := build_spec (permits_request hr) htuple
  have hchildren : ∀ c ∈ op.children, s.isAlive c = true := by
    rw [Operation.children, (Operation.ofArguments_ok hop).2]
    exact hr
  exact ⟨(s.insert op).2, hbuild, hlater, Graph.size_insert _ _ _, hkind, harguments,
    isAlive_insert h.consistent.tallied hchildren⟩

/-- **Built once, and then again**: the second node is a copy of the first. -/
theorem Builds.copy {route other : Route} (h : Reachable H picker s) (ht : s.Builds r route t)
    (hu : t.Later u) (hv : u.Builds r other v) : v.Copy s.graph.size u.graph.size := by
  have htr := ht.later.reachable h
  have htv := hu.trans hv.later
  have hvr := htv.reachable htr
  -- the first node is older than the second one, and still what it was
  have hold : s.graph.size < t.graph.size := ht.size ▸ Nat.lt_succ_self _
  have hlt : s.graph.size < u.graph.size := Nat.lt_of_lt_of_le hold (hu.size_le htr)
  have hnew : u.graph.size < v.graph.size := hv.size ▸ Nat.lt_succ_self _
  have hkind : v.graph.kind u.graph.size = v.graph.kind s.graph.size :=
    hv.kind.trans ((htv.kind_eq htr hold).trans ht.kind).symm
  have harguments : v.graph.arguments u.graph.size = v.graph.arguments s.graph.size :=
    hv.arguments.trans ((htv.arguments_eq htr hold).trans ht.arguments).symm
  exact copy_of_operation hvr hnew (Nat.lt_trans hlt hnew) (Nat.ne_of_gt hlt)
    (hvr.faithful.operation_eq hkind harguments)

/-! ## What is refused -/

/-- What is a value stays one, and what is none does not become one. -/
theorem Later.isValue_eq (h : s.Later t) (hs : Reachable H picker s) (hn : n < s.graph.size) :
    t.graph.isValue n = s.graph.isValue n := by
  rw [Graph.isValue_eq, Graph.isValue_eq, h.kind_eq hs hn]

theorem Later.fault?_eq (h : s.Later t) (hs : Reachable H picker s)
    (hr : ∀ n ∈ r.nodes, s.isAlive n = true) : r.fault? t.graph = r.fault? s.graph :=
  Request.fault?_congr fun n hn => h.isValue_eq hs (hs.consistent.tallied.lt_size (hr n hn))

/-- **A fault is refused**, and the session stays as it is. -/
theorem build_of_fault {label : String} (hfault : r.fault? s.graph = some (label, n)) :
    (∀ route, s.build (r.along s.graph route) = .error
      (.invalidField r.kind.name (.named label) .valueNode (.node (s.graph.kind n).name))) ∧
    s.perform (.create r.kind r.arguments) = s := by
  have hrefused : ∀ route, s.build (r.along s.graph route) = .error
      (.invalidField r.kind.name (.named label) .valueNode (.node (s.graph.kind n).name)) := by
    intro route
    rw [Request.along_of_fault hfault]
    rfl
  refine ⟨hrefused, ?_⟩
  have htuple := hrefused .untyped
  rw [Request.along_eq] at htuple
  rw [perform, htuple]

/-! ## Agreement -/

/-- **Typed and untyped construction agree.**  If some operand is no value, the first of them is
    refused with its field and its kind, on each route, and so it is in all later states; the
    session stays as it is.  Else each route builds the request, and as long as the nodes are there,
    so does each route afterwards: a copy with the next identity, which every cache finds equal to
    the first node. -/
theorem routes_agree (h : Reachable H picker s) (r : Request)
    (hr : ∀ n ∈ r.nodes, s.isAlive n = true) :
    (∀ label n, r.fault? s.graph = some (label, n) → ∀ t, s.Later t →
      (∀ route, t.build (r.along t.graph route) = .error
        (.invalidField r.kind.name (.named label) .valueNode (.node (s.graph.kind n).name))) ∧
      t.perform (.create r.kind r.arguments) = t) ∧
    (r.fault? s.graph = none → ∀ route, ∃ t, s.Builds r route t ∧
      ∀ u, t.Later u → (∀ n ∈ r.nodes, u.isAlive n = true) → ∀ other, ∃ v, u.Builds r other v ∧
        v.Copy s.graph.size u.graph.size ∧
        ∀ w, v.Later w → ∀ ref, w.equal ref s.graph.size u.graph.size = true ∧
          w.equal ref u.graph.size s.graph.size = true) := by
  constructor
  · intro label n hfault t ht
    have hmem : n ∈ r.nodes :=
      Request.mem_nodes_of_operand (List.mem_of_find?_eq_some hfault)
    rw [← ht.kind_eq h (h.consistent.tallied.lt_size (hr n hmem))]
    exact build_of_fault ((ht.fault?_eq h hr).trans hfault)
  · intro hfault route
    obtain ⟨t, ht⟩ := exists_builds h hr hfault route
    refine ⟨t, ht, fun u hu hru other => ?_⟩
    have hsu := ht.later.trans hu
    obtain ⟨v, hv⟩ := exists_builds (hsu.reachable h) hru ((hsu.fault?_eq h hr).trans hfault) other
    have hcopy := ht.copy h hu hv
    have hsealed : v.graph.kind s.graph.size ≠ .sealed := by
      rw [← hcopy.kind, hv.kind]
      exact r.kind_ne_sealed
    refine ⟨v, hv, hcopy, fun w hw ref => ?_⟩
    obtain ⟨hbackward, hforward⟩ := hcopy.equal w hw ref
    rw [decide_eq_true hsealed] at hbackward hforward
    exact ⟨hforward, hbackward⟩

/-- The sum of a list with itself is refused on the left, that of a column and a list on the right.
    Two columns are added on one route, and then on the other. -/
theorem routes_agree_twinColumns :
    Reachable .mixing .standard twinColumns ∧
    (∀ route, twinColumns.build ((Request.binary .add 4 4).along twinColumns.graph route) =
      .error (.invalidField "Add" (.named "left") .valueNode (.node "NodeList"))) ∧
    (∀ route, twinColumns.build ((Request.binary .add 2 4).along twinColumns.graph route) =
      .error (.invalidField "Add" (.named "right") .valueNode (.node "NodeList"))) ∧
    ∃ t, twinColumns.Builds (.binary .add 2 3) .typed t ∧
      ∃ v, t.Builds (.binary .add 2 3) .untyped v ∧ v.equal .shared 6 7 = true := by
  have halive : ∀ n ∈ [2, 3, 4], twinColumns.isAlive n = true := by decide
  obtain ⟨h₂, h₃, h₄⟩ : twinColumns.graph.isValue 2 = true ∧ twinColumns.graph.isValue 3 = true ∧
      twinColumns.graph.isValue 4 = false := by
    simp only [Graph.isValue_eq]
    decide
  have hleft : (Request.binary .add 4 4).fault? twinColumns.graph = some ("left", 4) := by
    simp only [Request.fault?, Request.operands, List.find?_cons, h₄]
    rfl
  have hright : (Request.binary .add 2 4).fault? twinColumns.graph = some ("right", 4) := by
    simp only [Request.fault?, Request.operands, List.find?_cons, h₂, h₄]
    rfl
  have hnone : (Request.binary .add 2 3).fault? twinColumns.graph = none := by
    simp only [Request.fault?, Request.operands, List.find?_cons, h₂, h₃]
    rfl
  obtain ⟨hfirst, -⟩ := routes_agree reachable_twinColumns (.binary .add 4 4) (by decide)
  obtain ⟨hsecond, -⟩ := routes_agree reachable_twinColumns (.binary .add 2 4) (by decide)
  obtain ⟨-, hgood⟩ := routes_agree reachable_twinColumns (.binary .add 2 3) (by decide)
  obtain ⟨t, ht, hafter⟩ := hgood hnone .typed
  -- nothing has gone, so the operands are there for the second route
  have hoperands : ∀ n ∈ (Request.binary .add 2 3).nodes, t.isAlive n = true := fun n hn =>
    (ht.isAlive n).2 (Or.inl (halive n (List.mem_of_mem_take (i := 2) hn)))
  obtain ⟨v, hv, -, hequal⟩ := hafter t .refl hoperands .untyped
  have hsize : t.graph.size = 7 := ht.size
  have hpair := (hequal v .refl .shared).1
  rw [hsize] at hpair
  exact ⟨reachable_twinColumns, (hfirst "left" 4 hleft _ .refl).1,
    (hsecond "right" 4 hright _ .refl).1, t, ht, v, hv, hpair⟩

end Session

end ExprGraph
