/-
  Values — shape and type, derived anew from the leaves.

  A renaming or an operator does not ask its operands what they produce.  It keeps what they were
  found to produce when it was built, and answers from these copies ever after.  Nodes never change,
  so a copy should never go stale; here is what it is never to differ from.

  1. **Specification** — `Graph.Derives g n v`: the value of `n`, derived from the leaves.  A field
     has its own shape and type; every other value has the type that the rule of its kind gives
     (`Kind.resultType?`), and the largest of the shapes of its operands.  `Graph.valueOperands` are
     the edges that count: the argument of a renaming, those of operators, and the direct node
     arguments of a call that are values.  Kinds and argument tuples are all that is looked at,
     never a copy.

  2. **Invariant** — `Graph.Faithful`: every copy is what its node produces now.  `Graph.Accepts`
     are the operations that some construction accepts, and all of them take right copies
     (`Accepts.faithful`); a later node changes the value of no older one (`value?_insert`).

  3. **Result** — on faithful graphs `Graph.value?` is the derived value (`derives_iff`).  A value is
     columnar exactly if a columnar field is below (`Graph.ColumnBelow`), and its handle says so.
-/
import ExprGraph.Handle
import ExprGraph.Proofs.Equivalence
import ExprGraph.Proofs.FieldRules

namespace ExprGraph

/-! ## The specification -/

/-- Do nodes of the kind produce a value? -/
def Kind.isValue : Kind → Bool
  | .list | .sealed => false
  | _ => true

/-- **The type rules**: the type of a result from the types of the operands.  A rule applies to one
    number of operands only. -/
def Kind.resultType? : Kind → List DataType → Option DataType
  | .alias, [t] => some t
  | .unary .negate, [t] => some t
  | .unary .isNull, [_] => some .boolean
  | .unary .arrayNegate, [t] => some (.array t)
  | .binary .add, [t, u] => some (t.promote u)
  | .binary .equals, [_, _] => some .boolean
  | .call, _ => some .null
  | _, _ => none

/-- The largest of some shapes; of none, a scalar. -/
def Shape.largest (shapes : List Shape) : Shape := shapes.foldl Shape.max .scalar

namespace Graph

/-- **The operands that decide** what a node produces. -/
def valueOperands (g : Graph) (n : NodeId) : List NodeId :=
  let nodes := (g.arguments n).filterMap Argument.node?
  match g.kind n with
  | .alias | .unary _ | .binary _ => nodes
  | .call => nodes.filter fun c => (g.kind c).isValue
  | .field | .list | .sealed => []

/-- **The value of a node, derived from the leaves.** -/
inductive Derives (g : Graph) : NodeId → Value → Prop where
  | field {n : NodeId} {name : String} {t : DataType} {s : Shape} : g.kind n = .field →
      g.arguments n = [.text name, .dataType t, .shape s] → g.Derives n ⟨s, t⟩
  | operator {n : NodeId} {vs : List Value} {t : DataType} :
      List.Forall₂ g.Derives (g.valueOperands n) vs →
      (g.kind n).resultType? (vs.map Value.dataType) = some t →
      g.Derives n ⟨.largest (vs.map Value.shape), t⟩

/-- **A columnar field is below**: the operands that decide lead to it. -/
def ColumnBelow (g : Graph) (n : NodeId) : Prop :=
  ∃ f name t, Relation.ReflTransGen (fun m c => c ∈ g.valueOperands m) n f ∧
    g.kind f = .field ∧ g.arguments f = [.text name, .dataType t, .shape .columnar]

end Graph

theorem Shape.largest_eq_combineAll (shapes : List Shape) :
    Shape.largest shapes = Shape.combineAll shapes := by
  have hmax : Shape.max = Shape.combine := by
    funext a b
    exact (Shape.combine_eq_max a b).symm
  rw [Shape.largest, hmax, Shape.combineAll]

@[simp] theorem Shape.largest_one (s : Shape) : Shape.largest [s] = s := by
  cases s <;> rfl

@[simp] theorem Shape.largest_two (s t : Shape) : Shape.largest [s, t] = s.combine t := by
  cases s <;> cases t <;> rfl

@[simp] theorem Kind.resultType?_unary (op : UnaryOp) (t : DataType) :
    (Kind.unary op).resultType? [t] = some (op.outputType t) := by
  cases op <;> rfl

@[simp] theorem Kind.resultType?_binary (op : BinaryOp) (t u : DataType) :
    (Kind.binary op).resultType? [t, u] = some (op.outputType t u) := by
  cases op <;> rfl

/-! ## Copies -/

/-- The operands of which an operation keeps copies. -/
def Operation.operands : Operation → List Operand
  | .alias arg _ => [arg]
  | .unary _ arg => [arg]
  | .binary _ left right => [left, right]
  | _ => []

theorem Operation.node_mem_arguments {op : Operation} {o : Operand} (ho : o ∈ op.operands) :
    .node o.node ∈ op.arguments := by
  cases op with
  | «alias» arg name =>
    cases List.mem_singleton.1 ho
    exact List.mem_cons_self
  | unary op arg =>
    cases List.mem_singleton.1 ho
    exact List.mem_cons_self
  | binary op left right =>
    rcases List.mem_pair.1 ho with rfl | rfl
    · exact List.mem_cons_self
    · exact List.mem_cons_of_mem _ List.mem_cons_self
  | _ => exact absurd ho List.not_mem_nil

namespace Graph

variable {g : Graph} {H : Hasher} {n c : NodeId} {v : Value} {op : Operation}

/-- An operation whose copies are what the nodes produce. -/
def FaithfulTo (g : Graph) (op : Operation) : Prop :=
  ∀ o ∈ op.operands, g.value? o.node = some o.toValue

/-- **Every copy is right.** -/
def Faithful (g : Graph) : Prop := ∀ n, g.FaithfulTo (g.operation n)

/-- **What construction accepts**, from a tuple of arguments or from nodes. -/
inductive Accepts (g : Graph) : Operation → Prop where
  | ofArguments {kind : Kind} {args : List Argument} {op : Operation} :
      Operation.ofArguments g kind args = .ok op → g.Accepts op
  | derive {n : NodeId} {args : List Argument} {op : Operation} :
      g.derive n args = .ok op → g.Accepts op
  | aliasOf {arg : NodeId} {name : Option String} {op : Operation} :
      Operation.aliasOf g arg name = .ok op → g.Accepts op
  | unaryOf {o : UnaryOp} {arg : NodeId} {op : Operation} :
      Operation.unaryOf g o arg = .ok op → g.Accepts op
  | binaryOf {o : BinaryOp} {left right : NodeId} {op : Operation} :
      Operation.binaryOf g o left right = .ok op → g.Accepts op

theorem operand_eq_ok {kind field : String} {o : Operand} (h : g.operand kind field n = .ok o) :
    g.value? o.node = some o.toValue := by
  unfold operand at h
  split at h
  · rename_i v hv
    cases h
    exact hv
  · cases h

theorem valueFor_eq_ok {kind field : String} {x : Argument} {o : Operand}
    (h : g.valueFor kind field x = .ok o) : g.value? o.node = some o.toValue := by
  unfold valueFor at h
  split at h
  · exact operand_eq_ok h
  · cases h

/-- An operation from a tuple takes right copies. -/
theorem faithfulTo_of_ofArguments {kind : Kind} {args : List Argument}
    (h : Operation.ofArguments g kind args = .ok op) : g.FaithfulTo op := by
  rw [Operation.ofArguments_eq_ofFields] at h
  unfold Operation.ofFields at h
  split at h
  · obtain ⟨name, -, h⟩ := ok_of_bind h
    obtain ⟨t, -, h⟩ := ok_of_bind h
    obtain ⟨s, -, h⟩ := ok_of_bind h
    cases h
    exact fun o ho => absurd ho List.not_mem_nil
  · obtain ⟨arg, harg, h⟩ := ok_of_bind h
    obtain ⟨name, -, h⟩ := ok_of_bind h
    cases h
    exact List.forall_mem_singleton.2 (valueFor_eq_ok harg)
  · obtain ⟨arg, harg, h⟩ := ok_of_bind h
    cases h
    exact List.forall_mem_singleton.2 (valueFor_eq_ok harg)
  · obtain ⟨left, hleft, h⟩ := ok_of_bind h
    obtain ⟨right, hright, h⟩ := ok_of_bind h
    cases h
    exact List.forall_mem_cons.2
      ⟨valueFor_eq_ok hleft, List.forall_mem_singleton.2 (valueFor_eq_ok hright)⟩
  · obtain ⟨ns, -, rfl⟩ := ok_of_map h
    exact fun o ho => absurd ho List.not_mem_nil
  · cases h
    exact fun o ho => absurd ho List.not_mem_nil
  · cases h
    exact fun o ho => absurd ho List.not_mem_nil
  · cases h

/-- **Every construction takes right copies.** -/
theorem Accepts.faithful (h : g.Accepts op) : g.FaithfulTo op := by
  cases h with
  | ofArguments h => exact faithfulTo_of_ofArguments h
  | derive h => exact faithfulTo_of_ofArguments h
  | aliasOf h => exact faithfulTo_of_ofArguments ((Operation.ofArguments_alias g _ _).trans h)
  | unaryOf h => exact faithfulTo_of_ofArguments ((Operation.ofArguments_unary g _ _).trans h)
  | binaryOf h => exact faithfulTo_of_ofArguments ((Operation.ofArguments_binary g _ _ _).trans h)

/-! ## Growth -/

theorem operation_of_size_le (h : g.size ≤ n) : g.operation n = .list [] := by
  have hnone : ¬ n < g.nodes.size := Nat.not_lt_of_ge h
  simp [operation, node, hnone]

theorem operation_insert_of_ne (h : n ≠ g.size) :
    (g.insert H op).2.operation n = g.operation n := by
  rw [operation, node_insert_of_ne h, operation]

theorem lt_size_of_value? (h : g.value? n = some v) : n < g.size := by
  by_contra hn
  rw [value?, operation_of_size_le (Nat.not_lt.1 hn)] at h
  cases h

/-- Nodes up to `n` decide what `n` produces. -/
theorem value?_congr {g' : Graph} (h : ∀ m ≤ n, g'.operation m = g.operation m) :
    g'.value? n = g.value? n := by
  induction n using Nat.strongRecOn with
  | _ n ih =>
    rw [value?, value?, h n (Nat.le_refl n)]
    cases g.operation n with
    | call args =>
      -- a call asks its arguments, which are older
      have hshape : ∀ c, (if _h : c < n then (g'.value? c).map Value.shape else none) =
          if _h : c < n then (g.value? c).map Value.shape else none := by
        intro c
        split
        · rename_i hc
          rw [ih c hc fun m hm => h m (Nat.le_trans hm (Nat.le_of_lt hc))]
        · rfl
      simp only [hshape]
    | _ => rfl

/-- **A later node changes no value.** -/
theorem value?_insert (h : n < g.size) : (g.insert H op).2.value? n = g.value? n :=
  value?_congr fun _ hm => operation_insert_of_ne (Nat.ne_of_lt (Nat.lt_of_le_of_lt hm h))

/-- **Growth by a right operation** keeps the graph faithful. -/
theorem Faithful.insert (hg : g.Faithful) (hop : g.FaithfulTo op) :
    (g.insert H op).2.Faithful := by
  intro n o ho
  have hvalue : g.value? o.node = some o.toValue := by
    by_cases hn : n = g.size
    · subst hn
      rw [operation_insert] at ho
      exact hop o ho
    · rw [operation_insert_of_ne hn] at ho
      exact hg n o ho
  rw [value?_insert (lt_size_of_value? hvalue), hvalue]

theorem faithful_empty : empty.Faithful :=
  fun _ _ ho => absurd ho List.not_mem_nil

/-! ## Derived values -/

/-- The kind alone says whether a node is a value. -/
theorem isValue_eq (g : Graph) (n : NodeId) : g.isValue n = (g.kind n).isValue := by
  rw [isValue, value?, kind]
  cases g.operation n <;> rfl

theorem exists_value?_iff : (∃ v, g.value? n = some v) ↔ (g.kind n).isValue = true := by
  rw [← isValue_eq, isValue, Option.isSome_iff_exists]

theorem mem_filterMap_node? {args : List Argument} :
    c ∈ args.filterMap Argument.node? ↔ .node c ∈ args := by
  rw [List.mem_filterMap]
  constructor
  · rintro ⟨x, hx, hxc⟩
    cases x with
    | node m =>
      cases hxc
      exact hx
    | _ => cases hxc
  · exact fun hc => ⟨_, hc, rfl⟩

/-- A node argument is older than the node. -/
theorem Built.lt_of_node_mem (hg : g.Built H) (h : .node c ∈ g.arguments n) : c < n :=
  hg.older n c (List.mem_flatMap.2 ⟨_, h, List.mem_singleton.2 rfl⟩)

theorem valueOperands_of_call {args : List Argument} (hop : g.operation n = .call args) :
    g.valueOperands n = (args.filterMap Argument.node?).filter fun c => (g.kind c).isValue := by
  unfold valueOperands
  rw [kind, arguments, hop]
  rfl

/-- Other kinds keep copies of all operands that decide. -/
theorem valueOperands_of_ne_call (hn : g.kind n ≠ .call) :
    g.valueOperands n = (g.operation n).operands.map Operand.node := by
  unfold valueOperands
  rw [kind] at hn ⊢
  rw [arguments]
  cases hop : g.operation n with
  | «alias» arg name => cases name <;> rfl
  | call args => exact absurd (congrArg Operation.kind hop) hn
  | _ => rfl

/-- Operands that decide are older values. -/
theorem of_mem_valueOperands (hg : g.Built H) (hf : g.Faithful) (h : c ∈ g.valueOperands n) :
    c < n ∧ ∃ v, g.value? c = some v := by
  cases hop : g.operation n with
  | call args =>
    rw [valueOperands_of_call hop, List.mem_filter, mem_filterMap_node?] at h
    have hc : .node c ∈ g.arguments n := by
      rw [arguments, hop]
      exact h.1
    exact ⟨hg.lt_of_node_mem hc, exists_value?_iff.2 h.2⟩
  | _ =>
    have hn : g.kind n ≠ .call := by
      simp [kind, hop, Operation.kind]
    rw [valueOperands_of_ne_call hn] at h
    obtain ⟨o, ho, rfl⟩ := List.mem_map.1 h
    exact ⟨hg.lt_of_node_mem (Operation.node_mem_arguments ho), _, hf n o ho⟩

/-- What the operands that decide produce now. -/
def operandValues (g : Graph) (n : NodeId) : List Value := (g.valueOperands n).filterMap g.value?

/-- A list of values, and what they produce. -/
theorem forall₂_filterMap_value? {cs : List NodeId} (hcs : ∀ c ∈ cs, ∃ v, g.value? c = some v) :
    List.Forall₂ (fun c v => g.value? c = some v) cs (cs.filterMap g.value?) := by
  induction cs with
  | nil => exact .nil
  | cons c rest ih =>
    obtain ⟨v, hv⟩ := hcs c List.mem_cons_self
    rw [List.filterMap_cons_some hv]
    exact .cons hv (ih fun d hd => hcs d (List.mem_cons_of_mem c hd))

theorem forall₂_operandValues (hg : g.Built H) (hf : g.Faithful) (n : NodeId) :
    List.Forall₂ (fun c v => g.value? c = some v) (g.valueOperands n) (g.operandValues n) :=
  forall₂_filterMap_value? fun _ hc => (of_mem_valueOperands hg hf hc).2

theorem filterMap_value?_eq {cs : List NodeId} {vs : List Value}
    (h : List.Forall₂ (fun c v => g.value? c = some v) cs vs) : cs.filterMap g.value? = vs := by
  induction h with
  | nil => rfl
  | cons hv _ ih => rw [List.filterMap_cons_some hv, ih]

theorem operandValues_of_ne_call (hf : g.Faithful) (hn : g.kind n ≠ .call) :
    g.operandValues n = (g.operation n).operands.map Operand.toValue := by
  rw [operandValues, valueOperands_of_ne_call hn]
  refine filterMap_value?_eq ?_
  rw [List.forall₂_map_left_iff, List.forall₂_map_right_iff]
  exact List.forall₂_same.2 (hf n)

/-- A call combines the shapes of the arguments that are values. -/
theorem shapes_of_call (hg : g.Built H) {args : List Argument} (hop : g.operation n = .call args) :
    ((args.filterMap Argument.node?).filterMap fun c =>
      if _h : c < n then (g.value? c).map Value.shape else none) =
        (g.operandValues n).map Value.shape := by
  have holder : ∀ c ∈ args.filterMap Argument.node?, c < n := by
    intro c hc
    refine hg.lt_of_node_mem ?_
    rw [arguments, hop]
    exact mem_filterMap_node?.1 hc
  rw [operandValues, valueOperands_of_call hop, List.map_filterMap, List.filterMap_filter]
  refine List.filterMap_congr fun c hc => ?_
  rw [dif_pos (holder c hc)]
  cases hv : g.value? c with
  | some v => rw [if_pos (exists_value?_iff.1 ⟨v, hv⟩)]
  | none => rw [Option.map_none, ite_self]

/-- **The defining equation** of the value of a node that is no leaf: it is computed from what the
    operands that decide produce now, whatever copies there are. -/
theorem value?_eq (hg : g.Built H) (hf : g.Faithful) (hn : g.kind n ≠ .field) :
    g.value? n = ((g.kind n).resultType? ((g.operandValues n).map Value.dataType)).map fun t =>
      ⟨.largest ((g.operandValues n).map Value.shape), t⟩ := by
  have hcopies := operandValues_of_ne_call (n := n) hf
  rw [kind] at hn hcopies ⊢
  rw [value?]
  cases hop : g.operation n with
  | field name t s => exact absurd (congrArg Operation.kind hop) hn
  | «alias» arg name =>
    rw [hcopies (by simp [hop, Operation.kind]), hop]
    simp [Operation.kind, Operation.operands, Kind.resultType?]
  | unary op arg =>
    rw [hcopies (by simp [hop, Operation.kind]), hop]
    simp [Operation.kind, Operation.operands]
  | binary op left right =>
    rw [hcopies (by simp [hop, Operation.kind]), hop]
    simp [Operation.kind, Operation.operands]
  | call args =>
    rw [Shape.largest_eq_combineAll, ← shapes_of_call hg hop]
    rfl
  | list members => rfl
  | sealed args => rfl

theorem exists_operation_of_field (hn : g.kind n = .field) :
    ∃ name t s, g.operation n = .field name t s := by
  rw [kind] at hn
  cases hop : g.operation n with
  | field name t s => exact ⟨name, t, s, rfl⟩
  | _ =>
    rw [hop] at hn
    cases hn

theorem exists_arguments_of_field (hn : g.kind n = .field) :
    ∃ name t s, g.arguments n = [.text name, .dataType t, .shape s] := by
  obtain ⟨name, t, s, hop⟩ := exists_operation_of_field hn
  exact ⟨name, t, s, by rw [arguments, hop]; rfl⟩

/-- A field is built over nothing. -/
theorem children_of_field (hn : g.kind n = .field) : g.children n = [] := by
  obtain ⟨name, t, s, hop⟩ := exists_operation_of_field hn
  rw [children, hop]
  rfl

/-- What a field is spelled with is what it produces. -/
theorem value?_of_field {name : String} {t : DataType} {s : Shape} (hn : g.kind n = .field)
    (hargs : g.arguments n = [.text name, .dataType t, .shape s]) : g.value? n = some ⟨s, t⟩ := by
  obtain ⟨name', t', s', hop⟩ := exists_operation_of_field hn
  rw [arguments, hop] at hargs
  cases hargs
  rw [value?, hop]

/-- **The value of a node is the derived one.** -/
theorem derives_iff (hg : g.Built H) (hf : g.Faithful) : g.Derives n v ↔ g.value? n = some v := by
  induction n using Nat.strongRecOn generalizing v with
  | _ n ih =>
    constructor
    · intro h
      cases h with
      | field hkind hargs => exact value?_of_field hkind hargs
      | @operator _ vs t hvs ht =>
        have hn : g.kind n ≠ .field := by
          intro hfield
          rw [hfield] at ht
          cases ht
        have hvalues : g.operandValues n = vs := by
          refine filterMap_value?_eq (Argument.forall₂_imp_of_mem hvs fun c hc w _ hcw => ?_)
          exact (ih c (of_mem_valueOperands hg hf hc).1).1 hcw
        rw [value?_eq hg hf hn, hvalues, ht]
        rfl
    · intro hv
      by_cases hn : g.kind n = .field
      · obtain ⟨name, t, s, hargs⟩ := exists_arguments_of_field hn
        rw [value?_of_field hn hargs] at hv
        cases hv
        exact .field hn hargs
      · rw [value?_eq hg hf hn] at hv
        obtain ⟨t, ht, rfl⟩ := Option.map_eq_some_iff.1 hv
        have hvalues := forall₂_operandValues hg hf n
        refine .operator (Argument.forall₂_imp_of_mem hvalues fun c hc w _ hcw => ?_) ht
        exact (ih c (of_mem_valueOperands hg hf hc).1).2 hcw

/-! ## Columns -/

/-- No operand decides about a field. -/
theorem columnBelow_of_field {name : String} {t : DataType} {s : Shape} (hn : g.kind n = .field)
    (hargs : g.arguments n = [.text name, .dataType t, .shape s]) :
    g.ColumnBelow n ↔ s = .columnar := by
  constructor
  · rintro ⟨f, name', t', hpath, -, hargs'⟩
    rcases Relation.ReflTransGen.cases_head hpath with rfl | ⟨c, hc, -⟩
    · rw [hargs] at hargs'
      cases hargs'
      rfl
    · unfold valueOperands at hc
      rw [hn] at hc
      exact absurd hc List.not_mem_nil
  · rintro rfl
    exact ⟨n, name, t, .refl, hn, hargs⟩

/-- A column is below a node that is no field if one is below an operand that decides. -/
theorem columnBelow_iff (hn : g.kind n ≠ .field) :
    g.ColumnBelow n ↔ ∃ c ∈ g.valueOperands n, g.ColumnBelow c := by
  constructor
  · rintro ⟨f, name, t, hpath, hf, hargs⟩
    rcases Relation.ReflTransGen.cases_head hpath with rfl | ⟨c, hc, hpath⟩
    · exact absurd hf hn
    · exact ⟨c, hc, f, name, t, hpath, hf, hargs⟩
  · rintro ⟨c, hc, f, name, t, hpath, hf, hargs⟩
    exact ⟨f, name, t, .head hc hpath, hf, hargs⟩

/-- **A value is columnar exactly if a columnar field is below.** -/
theorem shape_eq_columnar_iff (hg : g.Built H) (hf : g.Faithful) (h : g.value? n = some v) :
    v.shape = .columnar ↔ g.ColumnBelow n := by
  induction n using Nat.strongRecOn generalizing v with
  | _ n ih =>
    by_cases hn : g.kind n = .field
    · obtain ⟨name, t, s, hargs⟩ := exists_arguments_of_field hn
      rw [value?_of_field hn hargs] at h
      cases h
      exact (columnBelow_of_field hn hargs).symm
    · rw [value?_eq hg hf hn] at h
      obtain ⟨t, -, rfl⟩ := Option.map_eq_some_iff.1 h
      rw [Shape.largest_eq_combineAll, Shape.combineAll_eq_columnar_iff, columnBelow_iff hn]
      -- the largest shape is that of some operand
      constructor
      · intro hmem
        obtain ⟨w, hw, hcolumnar⟩ := List.mem_map.1 hmem
        obtain ⟨c, hc, hcw⟩ := List.mem_filterMap.1 hw
        exact ⟨c, hc, (ih c (of_mem_valueOperands hg hf hc).1 hcw).1 hcolumnar⟩
      · rintro ⟨c, hc, hbelow⟩
        obtain ⟨hlt, w, hw⟩ := of_mem_valueOperands hg hf hc
        exact List.mem_map.2
          ⟨w, List.mem_filterMap.2 ⟨c, hc, hw⟩, (ih c hlt hw).2 hbelow⟩

/-- The handle of a value is a column or a scalar on the same node, with its type. -/
theorem handle_of_value (h : g.value? n = some v) :
    (v.shape = .columnar → g.handle n = .column n v.dataType) ∧
    (v.shape ≠ .columnar → g.handle n = .scalar n v.dataType) := by
  rw [handle, h]
  obtain ⟨shape, t⟩ := v
  cases shape with
  | columnar => exact ⟨fun _ => rfl, fun hno => absurd rfl hno⟩
  | scalar => exact ⟨fun h => absurd h (by simp), fun _ => rfl⟩

end Graph

/-! ## Reachable states -/

namespace Session

variable {H : Hasher} {picker : ShardPicker} {s t : Session}

/-- An action leaves the graph as it is, or adds an operation that construction accepts. -/
theorem perform_accepts (s : Session) (a : Action) : (s.perform a).graph = s.graph ∨
    ∃ op, s.graph.Accepts op ∧ (s.perform a).graph = (s.graph.insert s.hasher op).2 := by
  cases a with
  | create kind args =>
    rw [perform, build]
    cases hop : Operation.ofArguments s.graph kind args with
    | ok op => exact Or.inr ⟨op, .ofArguments hop, rfl⟩
    | error e => exact Or.inl rfl
  | release n =>
    refine Or.inl ?_
    rw [perform, release]
    split
    · rfl
    · exact graph_destroy _ n
  | compare ref x y => exact Or.inl (graph_putCache s ref _)
  | clear ref => exact Or.inl (graph_putCache s ref _)
  | _ => exact Or.inl rfl

/-- **Copies are right in every reachable state.** -/
theorem Reachable.faithful (h : Reachable H picker s) : s.graph.Faithful := by
  induction h with
  | start => exact Graph.faithful_empty
  | @perform s a _ _ ih =>
    rcases perform_accepts s a with hgraph | ⟨op, hop, hgraph⟩
    · rw [hgraph]
      exact ih
    · rw [hgraph]
      exact ih.insert hop.faithful

/-- **Values never change.** -/
theorem Later.value?_eq (ht : s.Later t) (h : Reachable H picker s) {n : NodeId}
    (hn : n < s.graph.size) : t.graph.value? n = s.graph.value? n := by
  refine Graph.value?_congr fun m hm => ?_
  rw [Graph.operation, ht.node_eq h (Nat.lt_of_le_of_lt hm hn), Graph.operation]

/-- **Shape and type never go stale.**  In every reachable state the value of a node is the one
    derived from the leaves, and exactly the nodes of value kinds have one.  It is columnar exactly
    if a columnar field is below, and the handle of the node says so, with the derived type.  The
    copies that nodes keep are derived values, and so are those that any accepted operation is
    about to keep. -/
theorem values_derived (h : Reachable H picker s) :
    (∀ n v, s.graph.value? n = some v ↔ s.graph.Derives n v) ∧
    (∀ n, (∃ v, s.graph.Derives n v) ↔ (s.graph.kind n).isValue = true) ∧
    (∀ n v, s.graph.Derives n v → (v.shape = .columnar ↔ s.graph.ColumnBelow n) ∧
      (s.graph.ColumnBelow n → s.graph.handle n = .column n v.dataType) ∧
      (¬ s.graph.ColumnBelow n → s.graph.handle n = .scalar n v.dataType)) ∧
    (∀ n, ∀ o ∈ (s.graph.operation n).operands, s.graph.Derives o.node o.toValue) ∧
    (∀ op, s.graph.Accepts op → ∀ o ∈ op.operands, s.graph.Derives o.node o.toValue) := by
  have hg := h.consistent.built
  have hf := h.faithful
  refine ⟨fun n v => (Graph.derives_iff hg hf).symm, fun n => ?_, fun n v hv => ?_,
    fun n o ho => (Graph.derives_iff hg hf).2 (hf n o ho),
    fun op hop o ho => (Graph.derives_iff hg hf).2 (hop.faithful o ho)⟩
  · rw [← Graph.exists_value?_iff]
    exact exists_congr fun v => Graph.derives_iff hg hf
  · have hv := (Graph.derives_iff hg hf).1 hv
    have hshape := Graph.shape_eq_columnar_iff hg hf hv
    obtain ⟨hcolumn, hscalar⟩ := Graph.handle_of_value hv
    exact ⟨hshape, fun hbelow => hcolumn (hshape.2 hbelow),
      fun hno => hscalar fun hcolumnar => hno (hshape.1 hcolumnar)⟩

/-! ### A graph to look at -/

/-- What is accepted may be created. -/
theorem Reachable.insert (h : Reachable H picker s) (kind : Kind) (args : List Argument)
    {op : Operation} (hargs : s.permits (.create kind args))
    (hop : Operation.ofArguments s.graph kind args = .ok op) :
    Reachable H picker (s.insert op).2 := by
  have hperform : s.perform (.create kind args) = (s.insert op).2 := by
    rw [Session.perform, hop]
    rfl
  exact hperform ▸ h.perform _ hargs

/-- Two columns of one name. -/
def twinFields : Session :=
  let s := ((start .mixing .standard).insert (.field "x" .int64 .columnar)).2
  (s.insert (.field "x" .int64 .columnar)).2

/-- A column under another name. -/
def renamedColumn (n : NodeId) : Operation :=
  .alias { (⟨.columnar, .int64⟩ : Value) with node := n } (some "a")

/-- The two columns, each of them renamed, and a call that has a renamed one in a list and in a
    tuple. -/
def twinColumns : Session :=
  let s := (twinFields.insert (renamedColumn 0)).2
  let s := (s.insert (renamedColumn 1)).2
  let s := (s.insert (.list [2])).2
  (s.insert (.call [.node 4, .tuple [.node 2]])).2

theorem reachable_twinFields : Reachable .mixing .standard twinFields := by
  have hpermits : ∀ t : Session, t.permits
      (.create .field [.text "x", .dataType .int64, .shape .columnar]) := by
    simp [permits, Usable, Argument.WellFormed, Argument.nodes]
  have hfield : Reachable .mixing .standard _ := Reachable.start.insert .field _ (hpermits _) rfl
  exact hfield.insert .field _ (hpermits _) rfl

theorem usable_node {n : NodeId} (h : s.isAlive n = true) : s.Usable (.node n) := by
  simpa [Usable, Argument.WellFormed, Argument.nodes] using h

theorem ofArguments_renamedColumn {g : Graph} {n : NodeId} {name : String}
    (hkind : g.kind n = .field)
    (hargs : g.arguments n = [.text name, .dataType .int64, .shape .columnar]) :
    Operation.ofArguments g .alias [.node n, .text "a"] = .ok (renamedColumn n) := by
  rw [← Argument.ofName, Operation.ofArguments_alias, Operation.aliasOf, Graph.operand,
    Graph.value?_of_field hkind hargs]
  rfl

theorem permits_renamedColumn {n : NodeId} (h : s.isAlive n = true) :
    s.permits (.create .alias [.node n, .text "a"]) := by
  refine List.forall_mem_cons.2 ⟨usable_node h, List.forall_mem_singleton.2 ⟨trivial, ?_⟩⟩
  exact fun _ hc => absurd hc List.not_mem_nil

theorem reachable_twinColumns : Reachable .mixing .standard twinColumns := by
  have hleft := reachable_twinFields.insert .alias _ (permits_renamedColumn (n := 0) rfl)
    (ofArguments_renamedColumn rfl rfl)
  have hright := hleft.insert .alias _ (permits_renamedColumn (n := 1) rfl)
    (ofArguments_renamedColumn rfl rfl)
  have hlist : Reachable .mixing .standard _ :=
    hright.insert .list [.node 2] (List.forall_mem_singleton.2 (usable_node rfl)) rfl
  refine hlist.insert .call _ (List.forall_mem_cons.2 ⟨usable_node rfl, ?_⟩) rfl
  exact List.forall_mem_singleton.2 ⟨⟨trivial, trivial⟩, (usable_node (n := 2) rfl).2⟩

/-- A renamed column is a column of its type.  The call is a scalar: the column in its list and in
    its tuple does not decide about it. -/
theorem values_derived_twinColumns :
    Reachable .mixing .standard twinColumns ∧
    twinColumns.graph.Derives 2 ⟨.columnar, .int64⟩ ∧
    twinColumns.graph.handle 2 = .column 2 .int64 ∧
    twinColumns.graph.value? 5 = some ⟨.scalar, .null⟩ ∧
    ¬ twinColumns.graph.ColumnBelow 5 ∧ twinColumns.graph.handle 5 = .scalar 5 .null := by
  obtain ⟨hvalue, -, hcolumn, -⟩ := values_derived reachable_twinColumns
  have hrenamed : twinColumns.graph.Derives 2 ⟨.columnar, .int64⟩ :=
    (hvalue 2 _).1 (by rw [Graph.value?]; rfl)
  have hnone : List.Forall₂ twinColumns.graph.Derives (twinColumns.graph.valueOperands 5) [] := .nil
  have hcall : twinColumns.graph.Derives 5 ⟨.scalar, .null⟩ := Graph.Derives.operator hnone rfl
  obtain ⟨hshape, hhandle, -⟩ := hcolumn 2 _ hrenamed
  obtain ⟨hshape', -, hhandle'⟩ := hcolumn 5 _ hcall
  have hno : ¬ twinColumns.graph.ColumnBelow 5 := fun h => absurd (hshape'.2 h) (by decide)
  exact ⟨reachable_twinColumns, hrenamed, hhandle (hshape.1 rfl), (hvalue 5 _).2 hcall, hno,
    hhandle' hno⟩

end Session

end ExprGraph
