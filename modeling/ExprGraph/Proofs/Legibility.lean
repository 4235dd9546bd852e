/-
  Legibility — a node's text says what the node is.

  A rendered node has its nested nodes written out in full, and nothing marks where they end: names
  are any texts, members of a list stand bare, types are in brackets of their own.  Still, over the
  standard kinds no two different trees have one text.

  1. **Standard kinds** — `Kind.standard`: leaves, renamings, the operators, and lists.  Their names
     differ, which is not true of all kinds.  `Graph.Standard` says that a node is built from them,
     all the way down.

  2. **Parts** — `Operation.labelled` is the argument tuple with the text in front of each argument.
     Two operations of one standard kind have the same labels, and at one position arguments of one
     sort (`labelled_getElem?`): that is why no kind of argument has to be told from another.

  3. **Both directions** — same nodes have one text (`render_eq_of_same`), and one text shows that
     nodes are the same (`tells_render`), whatever is written behind them.  The nodes inside are
     older, which is what both inductions go by.
-/
import ExprGraph.Proofs.Reading
import ExprGraph.Proofs.RoundTrip

namespace ExprGraph

open Text

/-! ## Standard kinds -/

/-- **The standard kinds**, each with a name of its own. -/
def Kind.standard : List Kind :=
  [.field, .alias, .unary .negate, .unary .isNull, .binary .add, .binary .equals, .list]

theorem Kind.call_not_mem_standard : Kind.call ∉ Kind.standard := by decide

theorem Kind.sealed_not_mem_standard : Kind.sealed ∉ Kind.standard := by decide

/-- **A node over standard kinds**, all the way down. -/
def Graph.Standard (g : Graph) (n : NodeId) : Prop :=
  ∀ m, g.Reaches n m → g.kind m ∈ Kind.standard

theorem Graph.Standard.kind_mem {g : Graph} {n : NodeId} (h : g.Standard n) :
    g.kind n ∈ Kind.standard := h n .refl

theorem Graph.Standard.child {g : Graph} {n c : NodeId} (h : g.Standard n)
    (hc : c ∈ g.children n) : g.Standard c := fun m hm => h m (.head hc hm)

/-- What is below is older, so it is enough to look at older nodes. -/
theorem Graph.Built.standard_of_le {H : Hasher} {g : Graph} {n : NodeId} (hg : g.Built H)
    (h : ∀ m ≤ n, g.kind m ∈ Kind.standard) : g.Standard n := fun m hm => h m (hg.le_of_reaches hm)

/-- The name of a standard kind, up to the bracket, tells the kind. -/
theorem Kind.tells_name {k k' : Kind} (hk : k ∈ standard) (hk' : k' ∈ standard) :
    Tells (k = k') (k.name ++ "(").toList (k'.name ++ "(").toList := by
  have hbracket : ∀ k ∈ standard, '(' ∉ k.name.toList := by decide +kernel
  have hnames : ∀ k ∈ standard, ∀ k' ∈ standard, k.name = k'.name → k = k' := by decide
  rw [String.toList_append, String.toList_append]
  exact (tells_until (hbracket k hk) (hbracket k' hk')).imp fun h =>
    hnames k hk k' hk' (String.toList_inj.1 h)

/-- Negation into arrays is no standard kind for a reason. -/
example : (Kind.unary .arrayNegate).name = (Kind.unary .negate).name := rfl

theorem Kind.opens_name (k : Kind) : Opens k.name := by
  rcases k with _ | _ | operator | operator | _ | _ | _
  case unary => cases operator <;> decide +kernel
  case binary => cases operator <;> decide +kernel
  all_goals decide +kernel

theorem Kind.opens_label : ∀ k ∈ standard, ∀ name ∈ k.fields, Opens (name ++ "=") := by
  decide +kernel

/-! ## Arguments of one sort -/

namespace Argument

/-- **Arguments of one sort**, as they stand at one position of one standard kind. -/
inductive Paired : Argument → Argument → Prop where
  | nodes (c d : NodeId) : Paired (.node c) (.node d)
  | names (x y : Option String) : Paired (.ofName x) (.ofName y)
  | types (t u : DataType) : Paired (.dataType t) (.dataType u)
  | shapes (s t : Shape) : Paired (.shape s) (.shape t)

variable {x y : Argument} {R : NodeId → NodeId → Prop} {f k : NodeId → String}

/-- A name is quoted, and so it cannot be taken for a missing one. -/
theorem tells_name (x y : Option String) :
    Tells (x = y) ((ofName x).render f).toList ((ofName y).render k).toList := by
  have hquote : ∀ s : String, (Text.quote s).toList = '"' :: (s.toList.flatMap escape ++ ['"']) :=
    fun s => by rw [Text.quote, String.toList_ofList]
  cases x with
  | none =>
    cases y with
    | none => exact (tells_self _).imp fun _ => rfl
    | some t =>
      rw [ofName, ofName, render, render, hquote]
      exact tells_of_head (c := 'N') (by decide)
  | some s =>
    cases y with
    | none =>
      rw [ofName, ofName, render, render, hquote]
      exact tells_of_head (d := 'N') (by decide)
    | some t => exact (tells_quote s t).imp fun h => h ▸ rfl

theorem same_ofName (x : Option String) : Same R (.ofName x) (.ofName x) := by
  cases x with
  | none => exact .none
  | some s => exact .text s

/-- **The text of an argument tells the argument**, if the texts of nodes tell the nodes. -/
theorem Paired.tells (h : x.Paired y)
    (hR : ∀ c ∈ x.nodes, ∀ d ∈ y.nodes, Tells (R c d) (f c).toList (k d).toList) :
    Tells (Same R x y) (x.render f).toList (y.render k).toList := by
  cases h with
  | nodes c d =>
    exact (hR c (List.mem_singleton.2 rfl) d (List.mem_singleton.2 rfl)).imp Same.node
  | names x y => exact (tells_name x y).imp fun h => h ▸ same_ofName x
  | types t u => exact (DataType.tells_text t u).imp fun h => h ▸ .dataType t
  | shapes s t => exact (Shape.tells_text s t).imp fun h => h ▸ .shape s

/-- **Same arguments have one text**, if same nodes do. -/
theorem Paired.render_eq (h : x.Paired y) (hsame : Same R x y)
    (hR : ∀ c ∈ x.nodes, ∀ d ∈ y.nodes, R c d → f c = k d) : x.render f = y.render k := by
  cases h with
  | nodes c d =>
    cases hsame with
    | node h => exact hR c (List.mem_singleton.2 rfl) d (List.mem_singleton.2 rfl) h
  | names x y =>
    cases x <;> cases y <;> cases hsame <;> rfl
  | types t u =>
    cases hsame
    rfl
  | shapes s t =>
    cases hsame
    rfl

end Argument

/-! ## The parts of an operation -/

namespace Operation

variable {op op' : Operation} {R : NodeId → NodeId → Prop} {f : NodeId → String}
  {p q : String × Argument} {i : Nat}

/-- What is written in front of each argument; the members of a list have no labels. -/
def labels (op : Operation) : List String :=
  match op.kind with
  | .list => op.arguments.map fun _ => ""
  | _ => op.argumentNames.map fun name => name ++ "="

/-- **The arguments with their labels.** -/
def labelled (op : Operation) : List (String × Argument) := op.labels.zip op.arguments

/-- A part as text: the argument behind its label. -/
def part (f : NodeId → String) (p : String × Argument) : String := p.1 ++ p.2.render f

theorem length_argumentNames (op : Operation) :
    op.argumentNames.length = op.arguments.length := by
  cases op <;> simp [argumentNames, Kind.argumentNames, Kind.fields, kind, arguments]

theorem length_labels (op : Operation) : op.labels.length = op.arguments.length := by
  unfold labels
  split
  · exact List.length_map _
  · exact (List.length_map _).trans op.length_argumentNames

/-- Every argument is there, in its order. -/
theorem map_snd_labelled (op : Operation) : op.labelled.map Prod.snd = op.arguments :=
  List.map_snd_zip (Nat.le_of_eq op.length_labels.symm)

theorem renderItems_eq_map (items : List Argument) :
    Argument.renderItems f items = items.map fun a => a.render f := by
  induction items with
  | nil => rfl
  | cons a rest ih => rw [Argument.renderItems, ih, List.map_cons]

/-- **An operation is written part by part.** -/
theorem render_eq_parts (op : Operation) : op.render f =
    op.kind.name ++ "(" ++ Argument.commas (op.labelled.map (part f)) ++ ")" := by
  rw [labelled, List.map_zip_eq_zipWith]
  have hbare : ∀ items : List Argument,
      List.zipWith (Function.curry (part f)) (items.map fun _ => "") items =
        items.map fun a => a.render f := by
    intro items
    rw [List.zipWith_map_left, List.zipWith_self]
    exact List.map_congr_left fun a _ => String.empty_append
  have hnamed : ∀ (names : List String) (items : List Argument),
      List.zipWith (Function.curry (part f)) (names.map fun name => name ++ "=") items =
        List.zipWith (fun name arg => name ++ "=" ++ arg) names
          (items.map fun a => a.render f) := by
    intro names items
    rw [List.zipWith_map_left, List.zipWith_map_right]
    rfl
  cases op with
  | list members =>
    rw [labels, kind, hbare, ← renderItems_eq_map]
    rfl
  | _ =>
    rw [labels, kind, hnamed, ← renderItems_eq_map]
    rfl

/-- The parts of a list are bare nodes. -/
theorem eq_node_of_mem_labelled {members : List NodeId} (hp : p ∈ (list members).labelled) :
    ∃ c, p = ("", .node c) := by
  obtain ⟨label, x⟩ := p
  obtain ⟨hlabel, hx⟩ := List.of_mem_zip hp
  obtain ⟨_, -, rfl⟩ := List.mem_map.1 hlabel
  obtain ⟨c, -, rfl⟩ := List.mem_map.1 hx
  exact ⟨c, rfl⟩

/-- A node in one of the parts is one that the operation is built over. -/
theorem mem_children_of_labelled {c : NodeId} (hp : op.labelled[i]? = some p)
    (hc : c ∈ p.2.nodes) : c ∈ op.children := by
  refine List.mem_flatMap.2 ⟨p.2, ?_, hc⟩
  rw [← op.map_snd_labelled]
  exact List.mem_map_of_mem (List.mem_of_getElem? hp)

/-! ## One standard kind, one layout -/

/-- **Two operations of one standard kind** have the same labels, and at each position arguments of
    one sort. -/
theorem labelled_getElem? (hkind : op.kind = op'.kind) (hop : op.kind ∈ Kind.standard)
    (hp : op.labelled[i]? = some p) (hq : op'.labelled[i]? = some q) :
    p.1 = q.1 ∧ p.2.Paired q.2 := by
  -- all but lists have a fixed number of arguments, which are paired off one by one
  have hfixed : List.Forall₂ (fun p q => p.1 = q.1 ∧ p.2.Paired q.2) op.labelled op'.labelled →
      p.1 = q.1 ∧ p.2.Paired q.2 := fun h => Argument.forall₂_getElem? h hp hq
  cases op with
  | field name t s =>
    cases op' with
    | field name' t' s' =>
      exact hfixed (.cons ⟨rfl, .names (some name) (some name')⟩
        (.cons ⟨rfl, .types t t'⟩ (.cons ⟨rfl, .shapes s s'⟩ .nil)))
    | _ => cases hkind
  | «alias» arg name =>
    cases op' with
    | «alias» arg' name' =>
      exact hfixed (.cons ⟨rfl, .nodes arg.node arg'.node⟩ (.cons ⟨rfl, .names name name'⟩ .nil))
    | _ => cases hkind
  | unary operator arg =>
    cases op' with
    | unary operator' arg' => exact hfixed (.cons ⟨rfl, .nodes arg.node arg'.node⟩ .nil)
    | _ => cases hkind
  | binary operator left right =>
    cases op' with
    | binary operator' left' right' =>
      exact hfixed (.cons ⟨rfl, .nodes left.node left'.node⟩
        (.cons ⟨rfl, .nodes right.node right'.node⟩ .nil))
    | _ => cases hkind
  | list members =>
    cases op' with
    | list members' =>
      obtain ⟨c, rfl⟩ := eq_node_of_mem_labelled (List.mem_of_getElem? hp)
      obtain ⟨d, rfl⟩ := eq_node_of_mem_labelled (List.mem_of_getElem? hq)
      exact ⟨rfl, .nodes c d⟩
    | _ => cases hkind
  | call args => exact absurd hop Kind.call_not_mem_standard
  | «sealed» args => exact absurd hop Kind.sealed_not_mem_standard

theorem forall₂_labelled_iff {S : Argument → Argument → Prop} :
    List.Forall₂ (fun p q => S p.2 q.2) op.labelled op'.labelled ↔
      List.Forall₂ S op.arguments op'.arguments := by
  rw [← op.map_snd_labelled, ← op'.map_snd_labelled, List.forall₂_map_left_iff,
    List.forall₂_map_right_iff]

/-- No part begins with the closing bracket, if no node does. -/
theorem opens_part (hop : op.kind ∈ Kind.standard) (hf : ∀ c, Opens (f c))
    (hp : p ∈ op.labelled) : Opens (part f p) := by
  cases op with
  | list members =>
    obtain ⟨c, rfl⟩ := eq_node_of_mem_labelled hp
    rw [part, String.empty_append]
    exact hf c
  | call args => exact absurd hop Kind.call_not_mem_standard
  | «sealed» args => exact absurd hop Kind.sealed_not_mem_standard
  | _ =>
    obtain ⟨label, x⟩ := p
    obtain ⟨name, hname, rfl⟩ := List.mem_map.1 (List.of_mem_zip hp).1
    exact (Kind.opens_label _ hop name hname).append _

/-- **The text of an operation tells its kind and its arguments**, if the texts of the nodes inside
    tell the nodes. -/
theorem tells_render (hop : op.kind ∈ Kind.standard) (hop' : op'.kind ∈ Kind.standard)
    (hf : ∀ c, Opens (f c))
    (hR : ∀ c ∈ op.children, ∀ d ∈ op'.children, Tells (R c d) (f c).toList (f d).toList) :
    Tells (op.kind = op'.kind ∧ List.Forall₂ (Argument.Same R) op.arguments op'.arguments)
      (op.render f).toList (op'.render f).toList := by
  have hparts : op.kind = op'.kind → Tells
      (List.Forall₂ (Argument.Same R) op.arguments op'.arguments)
      ((Argument.commas (op.labelled.map (part f))).toList ++ [')'])
      ((Argument.commas (op'.labelled.map (part f))).toList ++ [')']) := by
    intro hkind
    refine (tells_commas (fun i p q hp hq => ?_) (fun p hp => opens_part hop hf hp)
      fun q hq => opens_part hop' hf hq).imp forall₂_labelled_iff.1
    obtain ⟨hlabel, hpaired⟩ := labelled_getElem? hkind hop hp hq
    rw [part, part, String.toList_append, String.toList_append, hlabel]
    exact (hpaired.tells fun c hc d hd => hR c (mem_children_of_labelled hp hc) d
      (mem_children_of_labelled hq hd)).behind q.1.toList
  have htext : ∀ op : Operation, (op.render f).toList = (op.kind.name ++ "(").toList ++
      ((Argument.commas (op.labelled.map (part f))).toList ++ [')']) := by
    intro op
    rw [render_eq_parts, String.toList_append, String.toList_append, List.append_assoc]
    rfl
  rw [htext, htext]
  exact (Kind.tells_name hop hop').append hparts

/-- **Operations with the same arguments have one text**, if the same nodes do. -/
theorem render_eq_of_same (hkind : op.kind = op'.kind) (hop : op.kind ∈ Kind.standard)
    (hsame : List.Forall₂ (Argument.Same R) op.arguments op'.arguments)
    (hR : ∀ c ∈ op.children, ∀ d ∈ op'.children, R c d → f c = f d) :
    op.render f = op'.render f := by
  have hparts : List.Forall₂ (fun p q => part f p = part f q) op.labelled op'.labelled := by
    refine Argument.forall₂_imp_of_getElem? (forall₂_labelled_iff.2 hsame)
      fun i p q hp hq hpq => ?_
    obtain ⟨hlabel, hpaired⟩ := labelled_getElem? hkind hop hp hq
    rw [part, part, hlabel]
    exact congrArg (q.1 ++ ·) (hpaired.render_eq hpq fun c hc d hd =>
      hR c (mem_children_of_labelled hp hc) d (mem_children_of_labelled hq hd))
  have hmap : op.labelled.map (part f) = op'.labelled.map (part f) := by
    rw [← List.forall₂_eq_eq_eq, List.forall₂_map_left_iff, List.forall₂_map_right_iff]
    exact hparts
  rw [render_eq_parts, render_eq_parts, hkind, hmap]

end Operation

/-! ## Nodes -/

namespace Graph

variable {g : Graph} {H : Hasher} {a b : NodeId}

/-- The nodes inside are older, so their own texts are what stands there. -/
theorem Built.render_eq (hg : g.Built H) (n : NodeId) :
    g.render n = (g.operation n).render g.render := by
  rw [render]
  exact Operation.render_congr fun c hc => dif_pos (hg.older n c hc)

theorem opens_render (n : NodeId) : Opens (g.render n) := by
  rw [render, Operation.render_eq_parts, String.append_assoc, String.append_assoc]
  exact (Kind.opens_name _).append _

/-- **The text of a node tells the node**, whatever is written behind it. -/
theorem tells_render (hg : g.Built H) (ha : g.Standard a) (hb : g.Standard b) :
    Tells (g.Same a b) (g.render a).toList (g.render b).toList := by
  induction a using Nat.strongRecOn generalizing b with
  | _ a ih =>
    rw [hg.render_eq a, hg.render_eq b]
    have hcontents := Operation.tells_render ha.kind_mem hb.kind_mem opens_render
      fun c hc d hd => ih c (hg.older a c hc) (ha.child hc) (hb.child hd)
    refine hcontents.imp fun h => .contents h.1 (fun hsealed => ?_) h.2
    exact Kind.sealed_not_mem_standard (hsealed ▸ ha.kind_mem)

/-- **Same nodes have one text.** -/
theorem Same.render_eq (hg : g.Built H) (ha : g.Standard a) (h : g.Same a b) :
    g.render a = g.render b := by
  induction a using Nat.strongRecOn generalizing b with
  | _ a ih =>
    rw [hg.render_eq a, hg.render_eq b]
    exact Operation.render_eq_of_same h.kind_eq ha.kind_mem h.arguments
      fun c hc d _ hcd => ih c (hg.older a c hc) (ha.child hc) hcd

end Graph

namespace Session

variable {H : Hasher} {picker : ShardPicker} {s : Session}

/-- **Texts are faithful.**  Of two nodes over standard kinds, however deep, with any names and any
    types, the texts are equal if and only if the nodes are, in each cache. -/
theorem render_eq_iff_equal (h : Reachable H picker s) (ref : CacheRef) {a b : NodeId}
    (ha : a < s.graph.size) (hb : b < s.graph.size) (hstandard : s.graph.Standard a)
    (hstandard' : s.graph.Standard b) :
    s.graph.render a = s.graph.render b ↔ s.equal ref a b = true := by
  have hg := h.consistent.built
  rw [Later.refl.equal_iff h ref ha hb]
  constructor
  · intro htext
    -- nothing is written behind the two texts
    exact (Graph.tells_render hg hstandard hstandard' [] [] (by rw [htext])).1
  · exact fun hsame => hsame.render_eq hg hstandard

/-- A name that looks like the end of one column and the beginning of another. -/
def lookalikeName : String := "x\", dtype=int64, shape=columnar), Field(name=\"x"

/-- A list of two columns, and a list of one column.  Without escapes the name of that column would
    give the two lists one text. -/
def lookalikes : Session :=
  let s := ((start .mixing .standard).insert (.field "x" .int64 .columnar)).2
  let s := (s.insert (.field lookalikeName .int64 .columnar)).2
  let s := (s.insert (.list [0, 0])).2
  (s.insert (.list [1])).2

theorem reachable_lookalikes : Reachable .mixing .standard lookalikes := by
  have hpermits : ∀ (t : Session) (name : String), t.permits
      (.create .field [.text name, .dataType .int64, .shape .columnar]) := by
    simp [permits, Usable, Argument.WellFormed, Argument.nodes]
  have hfield : Reachable .mixing .standard _ :=
    Reachable.start.insert .field _ (hpermits _ "x") rfl
  have hfields : Reachable .mixing .standard _ :=
    hfield.insert .field _ (hpermits _ lookalikeName) rfl
  have hlist : Reachable .mixing .standard _ := hfields.insert .list [.node 0, .node 0]
    (List.forall_mem_cons.2 ⟨usable_node rfl, List.forall_mem_singleton.2 (usable_node rfl)⟩) rfl
  exact hlist.insert .list [.node 1] (List.forall_mem_singleton.2 (usable_node rfl)) rfl

/-- The renamed twin columns have one text.  The lists of lookalikes have not. -/
theorem render_eq_iff_equal_lookalikes :
    Reachable .mixing .standard twinColumns ∧ Reachable .mixing .standard lookalikes ∧
    (∀ n ≤ 3, twinColumns.graph.Standard n ∧ lookalikes.graph.Standard n) ∧
    twinColumns.graph.render 2 = twinColumns.graph.render 3 ∧
    lookalikes.graph.render 2 ≠ lookalikes.graph.render 3 := by
  have hkinds : ∀ m ≤ 3, twinColumns.graph.kind m ∈ Kind.standard ∧
      lookalikes.graph.kind m ∈ Kind.standard := by decide
  have hstandard : ∀ n ≤ 3, twinColumns.graph.Standard n ∧ lookalikes.graph.Standard n := by
    intro n hn
    exact ⟨reachable_twinColumns.consistent.built.standard_of_le fun m hm =>
        (hkinds m (Nat.le_trans hm hn)).1,
      reachable_lookalikes.consistent.built.standard_of_le fun m hm =>
        (hkinds m (Nat.le_trans hm hn)).2⟩
  obtain ⟨htwin, hlook⟩ := hstandard 2 (by decide)
  obtain ⟨htwin', hlook'⟩ := hstandard 3 (by decide)
  have hequal : twinColumns.equal .shared 2 3 = true :=
    (Later.refl.equal_iff reachable_twinColumns .shared (by decide) (by decide)).2
      same_renamedColumns
  have hdiffer : ¬ lookalikes.equal .shared 2 3 = true := by
    rw [Later.refl.equal_iff reachable_lookalikes .shared (by decide) (by decide)]
    exact fun hsame => absurd hsame.arguments.length_eq (by decide)
  have htexts := render_eq_iff_equal reachable_twinColumns .shared (by decide) (by decide)
    htwin htwin'
  have htexts' := render_eq_iff_equal reachable_lookalikes .shared (by decide) (by decide)
    hlook hlook'
  exact ⟨reachable_twinColumns, reachable_lookalikes, hstandard, htexts.2 hequal,
    fun htext => hdiffer (htexts'.1 htext)⟩

end Session

end ExprGraph
