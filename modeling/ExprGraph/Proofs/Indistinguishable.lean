/-
  Indistinguishable nodes — what a later pass sees of equal nodes.

  A comparison looks at kinds and arguments only.  A pass looks at more: at shapes and types, which
  are kept or computed elsewhere, at names, and at handles.  None of these tells equal nodes apart,
  so a pass may replace a node by an equal one without asking what it is going to be used for.

  1. **Specification** — `Graph.Indistinguishable` lists what is seen of a node.  Handles are
     compared without the nodes in them (`Handle.Alike`).

  2. **Congruence** — same nodes have the same value (`Same.value?_eq`): their operands that decide
     are the same in turn, position by position, and the value of a node is computed from those of
     its operands.  Names and members are read off the kind and the arguments.

  3. **Result** — nodes that some cache has found equal are indistinguishable in every later state.
-/
import ExprGraph.Proofs.Values

namespace ExprGraph

/-- **Handles that differ in their nodes only**: they are of one sort, of one type, and of one
    length. -/
structure Handle.Alike (h k : Handle) : Prop where
  isScalar : h.isScalar = k.isScalar
  isColumn : h.isColumn = k.isColumn
  isList : h.isList = k.isList
  dataType : h.dataType? = k.dataType?
  length : h.members?.map NodeList.length = k.members?.map NodeList.length

theorem Handle.Alike.ofValue (a b : NodeId) (v : Value) :
    (Handle.ofValue a v).Alike (.ofValue b v) := by
  obtain ⟨shape, t⟩ := v
  cases shape <;> exact ⟨rfl, rfl, rfl, rfl, rfl⟩

theorem Handle.Alike.list (a b : NodeId) {l m : NodeList} (h : l.length = m.length) :
    (Handle.list a l).Alike (.list b m) :=
  ⟨rfl, rfl, rfl, rfl, congrArg some h⟩

/-- Same arguments are same nodes, or no nodes. -/
theorem Argument.Same.node?_rel {R : NodeId → NodeId → Prop} {x y : Argument}
    (h : Argument.Same R x y) : Option.Rel R x.node? y.node? := by
  cases h with
  | node h => exact .some h
  | _ => exact .none

namespace Graph

/-- **Nothing that is seen of a node** tells the two apart. -/
structure Indistinguishable (g : Graph) (a b : NodeId) : Prop where
  kind : g.kind a = g.kind b
  kindName : (g.kind a).name = (g.kind b).name
  argumentCount : (g.arguments a).length = (g.arguments b).length
  argumentNames : (g.operation a).argumentNames = (g.operation b).argumentNames
  isValue : g.isValue a = g.isValue b
  value : g.value? a = g.value? b
  resolveName : g.resolveName a = g.resolveName b
  hasResolvedName : g.hasResolvedName a = g.hasResolvedName b
  handle : (g.handle a).Alike (g.handle b)

variable {g : Graph} {H : Hasher} {a b n : NodeId}

/-! ## Values -/

/-- Same nodes have the same arguments, also when they are one node. -/
theorem Same.arguments (h : g.Same a b) :
    List.Forall₂ (Argument.Same g.Same) (g.arguments a) (g.arguments b) := by
  cases h with
  | self => exact List.forall₂_same.2 fun x _ => .refl fun n _ => .self n
  | contents _ _ hargs => exact hargs

/-- **The operands that decide are the same**, position by position. -/
theorem Same.valueOperands (h : g.Same a b) :
    List.Forall₂ g.Same (g.valueOperands a) (g.valueOperands b) := by
  have hnodes : List.Forall₂ g.Same ((g.arguments a).filterMap Argument.node?)
      ((g.arguments b).filterMap Argument.node?) :=
    List.rel_filterMap (fun _ _ hxy => hxy.node?_rel) h.arguments
  unfold Graph.valueOperands
  rw [← h.kind_eq]
  cases g.kind a with
  | «alias» => exact hnodes
  | unary op => exact hnodes
  | binary op => exact hnodes
  | call =>
    refine List.rel_filter (fun c d hcd => ?_) hnodes
    show (g.kind c).isValue = true ↔ (g.kind d).isValue = true
    rw [hcd.kind_eq]
  | _ => exact .nil

/-- Fields with the same arguments are spelled with the same shape and type. -/
theorem Same.value?_eq_of_field (h : g.Same a b) (ha : g.kind a = .field) :
    g.value? a = g.value? b := by
  have hb : g.kind b = .field := h.kind_eq ▸ ha
  obtain ⟨name, t, s, hleft⟩ := exists_arguments_of_field ha
  obtain ⟨name', t', s', hright⟩ := exists_arguments_of_field hb
  have hargs := h.arguments
  rw [hleft, hright] at hargs
  simp only [List.forall₂_cons] at hargs
  obtain ⟨-, ht, hs, -⟩ := hargs
  cases ht
  cases hs
  rw [value?_of_field ha hleft, value?_of_field hb hright]

/-- **Same nodes produce the same.** -/
theorem Same.value?_eq (hg : g.Built H) (hf : g.Faithful) (h : g.Same a b) :
    g.value? a = g.value? b := by
  induction a using Nat.strongRecOn generalizing b with
  | _ a ih =>
    by_cases ha : g.kind a = .field
    · exact h.value?_eq_of_field ha
    · have hb : g.kind b ≠ .field := h.kind_eq ▸ ha
      -- what is computed from values of older nodes is the same
      have holder : List.Forall₂ (fun c d => g.value? c = g.value? d) (g.valueOperands a)
          (g.valueOperands b) :=
        Argument.forall₂_imp_of_mem h.valueOperands fun c hc d _ hcd =>
          ih c (of_mem_valueOperands hg hf hc).1 hcd
      have hvalues : g.operandValues a = g.operandValues b := by
        refine List.forall₂_eq_eq_eq ▸ List.rel_filterMap (fun c d hcd => ?_) holder
        have hcd : g.value? c = g.value? d := hcd
        rw [hcd]
        cases g.value? d with
        | none => exact .none
        | some v => exact .some rfl
      rw [Graph.value?_eq hg hf ha, Graph.value?_eq hg hf hb, hvalues, h.kind_eq]

/-! ## Names and members -/

theorem hasResolvedName_eq (g : Graph) (n : NodeId) :
    g.hasResolvedName n = decide (g.kind n = .alias) := by
  rw [hasResolvedName, kind]
  cases g.operation n <;> rfl

/-- Other kinds have no name. -/
theorem resolveName_of_ne_alias (hn : g.kind n ≠ .alias) :
    g.resolveName n = .error (.notNamed (g.kind n).name) := by
  rw [kind] at hn
  rw [resolveName, kind]
  cases hop : g.operation n with
  | «alias» arg name => exact absurd (congrArg Operation.kind hop) hn
  | _ => rfl

/-- The name of a renaming is the last of its arguments. -/
theorem exists_name_of_alias (hn : g.kind n = .alias) :
    ∃ c name, g.arguments n = [.node c, .ofName name] ∧ g.resolveName n = .ok name := by
  rw [kind] at hn
  rw [arguments, resolveName]
  cases hop : g.operation n with
  | «alias» arg name => exact ⟨arg.node, name, rfl, rfl⟩
  | _ =>
    rw [hop] at hn
    cases hn

theorem Same.resolveName_eq (h : g.Same a b) : g.resolveName a = g.resolveName b := by
  by_cases ha : g.kind a = .alias
  · obtain ⟨c, name, hleft, hname⟩ := exists_name_of_alias ha
    obtain ⟨d, name', hright, hname'⟩ := exists_name_of_alias (h.kind_eq ▸ ha)
    have hargs := h.arguments
    rw [hleft, hright] at hargs
    simp only [List.forall₂_cons] at hargs
    have hsame : name = name' := by
      have := hargs.2.1
      cases name <;> cases name' <;> cases this <;> rfl
    rw [hname, hname', hsame]
  · have hb : g.kind b ≠ .alias := h.kind_eq ▸ ha
    rw [resolveName_of_ne_alias ha, resolveName_of_ne_alias hb, h.kind_eq]

/-- A list has as many members as arguments, and other nodes have none. -/
theorem members?_map_length (g : Graph) (n : NodeId) : (g.members? n).map List.length =
    if g.kind n = .list then some (g.arguments n).length else none := by
  rw [members?, kind, arguments]
  cases g.operation n with
  | list members => simp [Operation.kind, Operation.arguments]
  | _ => rfl

theorem Same.members?_length_eq (h : g.Same a b) :
    (g.members? a).map List.length = (g.members? b).map List.length := by
  rw [members?_map_length, members?_map_length, h.kind_eq, h.arguments.length_eq]

/-- Nodes with the same value, or no value and as many members, have handles alike. -/
theorem handle_alike (hvalue : g.value? a = g.value? b)
    (hlength : (g.members? a).map List.length = (g.members? b).map List.length) :
    (g.handle a).Alike (g.handle b) := by
  rw [handle, handle, hvalue]
  cases g.value? b with
  | some v => exact .ofValue a b v
  | none =>
    cases hleft : g.members? a with
    | some members =>
      cases hright : g.members? b with
      | some members' =>
        rw [hleft, hright] at hlength
        exact .list a b (Option.some.inj hlength)
      | none =>
        rw [hleft, hright] at hlength
        cases hlength
    | none =>
      cases hright : g.members? b with
      | some members' =>
        rw [hleft, hright] at hlength
        cases hlength
      | none => exact .ofValue a b ⟨.columnar, .null⟩

/-- **Same nodes are indistinguishable.** -/
theorem Same.indistinguishable (hg : g.Built H) (hf : g.Faithful) (h : g.Same a b) :
    g.Indistinguishable a b where
  kind := h.kind_eq
  kindName := by rw [h.kind_eq]
  argumentCount := h.arguments.length_eq
  argumentNames := by
    have hkind : (g.operation a).kind = (g.operation b).kind := h.kind_eq
    have hlength : (g.operation a).arguments.length = (g.operation b).arguments.length :=
      h.arguments.length_eq
    rw [Operation.argumentNames, Operation.argumentNames, hkind, hlength]
  isValue := by rw [isValue, isValue, h.value?_eq hg hf]
  value := h.value?_eq hg hf
  resolveName := h.resolveName_eq
  hasResolvedName := by rw [hasResolvedName_eq, hasResolvedName_eq, h.kind_eq]
  handle := handle_alike (h.value?_eq hg hf) h.members?_length_eq

end Graph

namespace Session

variable {H : Hasher} {picker : ShardPicker} {s t : Session}

/-- **Equal nodes are indistinguishable to later passes**: what any cache has found equal has the
    same kind, the same form and number of arguments, the same shape and type, the same name, and
    handles alike, now and in every later state. -/
theorem equal_indistinguishable (h : Reachable H picker s) (ref : CacheRef) {a b : NodeId}
    (ha : a < s.graph.size) (hb : b < s.graph.size) (hab : s.equal ref a b = true)
    (ht : s.Later t) : t.graph.Indistinguishable a b := by
  have hsame : s.graph.Same a b := (Later.refl.equal_iff h ref ha hb).1 hab
  have hreachable := ht.reachable h
  exact ((ht.same_iff h ha hb).2 hsame).indistinguishable hreachable.consistent.built
    hreachable.faithful

theorem same_twinFields : twinColumns.graph.Same 0 1 :=
  .contents rfl (by decide) (.cons (.text _) (.cons (.dataType _) (.cons (.shape _) .nil)))

theorem same_renamedColumns : twinColumns.graph.Same 2 3 :=
  .contents rfl (by decide) (.cons (.node same_twinFields) (.cons (.text _) .nil))

/-- The renamed columns, found equal now; and their names and handles when the first column has been
    given up. -/
theorem equal_indistinguishable_twinColumns :
    let t := twinColumns.perform (.release 0)
    Reachable .mixing .standard twinColumns ∧ twinColumns.equal .shared 2 3 = true ∧
    twinColumns.Later t ∧ t.graph.resolveName 2 = t.graph.resolveName 3 ∧
    (t.graph.handle 2).Alike (t.graph.handle 3) := by
  intro t
  have hlater : twinColumns.Later t := .perform _ .refl Nat.one_pos
  have hequal : twinColumns.equal .shared 2 3 = true :=
    (Later.refl.equal_iff reachable_twinColumns .shared (by decide) (by decide)).2
      same_renamedColumns
  have hseen := equal_indistinguishable reachable_twinColumns .shared (a := 2) (b := 3) (by decide)
    (by decide) hequal hlater
  exact ⟨reachable_twinColumns, hequal, hlater, hseen.resolveName, hseen.handle⟩

end Session

end ExprGraph
