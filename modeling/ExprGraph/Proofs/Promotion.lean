/-
  Promotion — the type of a sum, however its terms are grouped.

  Addition promotes types pairwise: equal types stay, else anything floating makes `float64` and all
  else `int64`.  In a nested sum the rule is applied to types that it has itself produced, and those
  cannot be told from the types of genuine terms.  The type of the whole should nevertheless depend
  on the types of the leaves alone.

  1. **Specification** — `DataType.Joint leaf t`: `t` is the type of a sum whose leaves have the
     types `leaf`.  It is theirs if they have one type only, else `float64` if a floating one is
     among them, else `int64`.

  2. **Sums** — `SumTree` is a sum written out as a tree, over the types of its leaves;
     `Graph.Spells g n e` says that the node `n` unfolds to it.  Nodes whose nodes below are all
     fields, renamings, negations and additions (`Graph.IsSum`) are the ones that do.
     `SumTree.Rearranged` regroups and exchanges terms, at any depth.

  3. **Result** — a sum has the joint type of its leaves.  It is an invariant of promotion
     (`DataType.Joint.promote`), by which rearranged sums have one type.
-/
import ExprGraph.Proofs.Indistinguishable

namespace ExprGraph

namespace DataType

variable {leaf left right : DataType → Prop} {t u : DataType}

/-! ## Types of sums -/

/-- The types are not all one. -/
def Mixed (leaf : DataType → Prop) : Prop := ∀ u, ∃ w, leaf w ∧ w ≠ u

/-- **The joint type of some leaves.** -/
structure Joint (leaf : DataType → Prop) (t : DataType) : Prop where
  uniform : ∀ u, (∀ w, leaf w → w = u) → t = u
  floating : Mixed leaf → leaf .float32 ∨ leaf .float64 → t = .float64
  otherwise : Mixed leaf → ¬ (leaf .float32 ∨ leaf .float64) → t = .int64

theorem isFloating_iff : t.isFloating = true ↔ t = .float32 ∨ t = .float64 := by
  cases t <;> simp [isFloating]

/-- Leaves are of one type, or differ and are floating in part, or differ and are not floating. -/
theorem leaf_cases (leaf : DataType → Prop) : (∃ u, ∀ w, leaf w → w = u) ∨
    Mixed leaf ∧ (leaf .float32 ∨ leaf .float64) ∨
    Mixed leaf ∧ ¬ (leaf .float32 ∨ leaf .float64) := by
  by_cases h : ∃ u, ∀ w, leaf w → w = u
  · exact Or.inl h
  · have hmixed : Mixed leaf := fun u => by
      obtain ⟨w, hw⟩ := not_forall.1 (not_exists.1 h u)
      exact ⟨w, Classical.not_imp.1 hw⟩
    exact Or.inr ((em _).imp (⟨hmixed, ·⟩) (⟨hmixed, ·⟩))

/-- A leaf alone has its own type. -/
theorem joint_one (t : DataType) : Joint (· = t) t := by
  have hno : ¬ Mixed (· = t) := fun hmixed => by
    obtain ⟨w, rfl, hne⟩ := hmixed t
    exact hne rfl
  exact ⟨fun u hu => hu t rfl, fun h => absurd h hno, fun h => absurd h hno⟩

namespace Joint

theorem congr (h : Joint left t) (hleaf : ∀ w, left w ↔ right w) : Joint right t := by
  obtain rfl : left = right := funext fun w => propext (hleaf w)
  exact h

/-- There is no more than one joint type. -/
theorem unique (h : Joint leaf t) (h' : Joint leaf u) : t = u := by
  rcases leaf_cases leaf with ⟨w, hw⟩ | ⟨hmixed, hfloats⟩ | ⟨hmixed, hfloats⟩
  · rw [h.uniform w hw, h'.uniform w hw]
  · rw [h.floating hmixed hfloats, h'.floating hmixed hfloats]
  · rw [h.otherwise hmixed hfloats, h'.otherwise hmixed hfloats]

/-- The joint type is the type of every leaf, or one of the two that promotion makes. -/
theorem uniform_or_made (h : Joint leaf t) :
    (∀ w, leaf w → w = t) ∨ t = .float64 ∨ t = .int64 := by
  rcases leaf_cases leaf with ⟨u, hu⟩ | ⟨hmixed, hfloats⟩ | ⟨hmixed, hfloats⟩
  · rw [h.uniform u hu]
    exact Or.inl hu
  · exact Or.inr (Or.inl (h.floating hmixed hfloats))
  · exact Or.inr (Or.inr (h.otherwise hmixed hfloats))

/-- **Floating leaves show**: the joint type is floating exactly if some leaf is. -/
theorem isFloating_iff (h : Joint leaf t) (hleaf : ∃ w, leaf w) :
    t.isFloating = true ↔ leaf .float32 ∨ leaf .float64 := by
  rcases leaf_cases leaf with ⟨u, hu⟩ | ⟨hmixed, hfloats⟩ | ⟨hmixed, hfloats⟩
  · obtain ⟨w, hw⟩ := hleaf
    obtain rfl : w = u := hu w hw
    rw [h.uniform w hu, DataType.isFloating_iff]
    exact or_congr ⟨fun he => he ▸ hw, fun hw' => (hu _ hw').symm⟩
      ⟨fun he => he ▸ hw, fun hw' => (hu _ hw').symm⟩
  · rw [h.floating hmixed hfloats]
    exact iff_of_true rfl hfloats
  · rw [h.otherwise hmixed hfloats]
    exact iff_of_false (by decide) hfloats

/-- **Promotion joins**: from the joint types of two sets of leaves it makes that of both. -/
theorem promote (h : Joint left t) (h' : Joint right u) (hleft : ∃ w, left w)
    (hright : ∃ w, right w) : Joint (fun w => left w ∨ right w) (t.promote u) := by
  have hfloats : t.isFloating = true ∨ u.isFloating = true ↔
      (left .float32 ∨ right .float32) ∨ (left .float64 ∨ right .float64) := by
    rw [h.isFloating_iff hleft, h'.isFloating_iff hright]
    exact or_or_or_comm
  -- types that agree, over leaves that do not, have been made by promotion
  have hmade : Mixed (fun w => left w ∨ right w) → t = u → t = .float64 ∨ t = .int64 := by
    rintro hmixed rfl
    rcases h.uniform_or_made with hall | hmade
    · rcases h'.uniform_or_made with hall' | hmade'
      · obtain ⟨w, hw, hne⟩ := hmixed t
        exact absurd (hw.elim (hall w) (hall' w)) hne
      · exact hmade'
    · exact hmade
  refine ⟨fun w hw => ?_, fun hmixed hleaf => ?_, fun hmixed hleaf => ?_⟩
  · rw [h.uniform w fun v hv => hw v (Or.inl hv), h'.uniform w fun v hv => hw v (Or.inr hv)]
    exact if_pos rfl
  · have hfloating : t.isFloating = true ∨ u.isFloating = true :=
      hfloats.2 hleaf
    rw [DataType.promote]
    split
    · rename_i heq
      rcases hmade hmixed heq with rfl | rfl
      · rfl
      · rw [← heq] at hfloating
        exact absurd hfloating (by decide)
    · rw [if_pos (by simpa using hfloating)]
  · have hfloating : ¬ (t.isFloating = true ∨ u.isFloating = true) :=
      fun hor => hleaf (hfloats.1 hor)
    rw [DataType.promote]
    split
    · rename_i heq
      rcases hmade hmixed heq with rfl | rfl
      · exact absurd (Or.inl rfl) hfloating
      · rfl
    · rw [if_neg (by simpa using hfloating)]

end Joint

end DataType

/-! ## Sums -/

/-- **A sum written out as a tree**, over the types of its leaves. -/
inductive SumTree where
  | leaf (t : DataType)
  | renamed (arg : SumTree)
  | negated (arg : SumTree)
  | added (left right : SumTree)

namespace SumTree

/-- The types of the leaves, from left to right. -/
def leaves : SumTree → List DataType
  | .leaf t => [t]
  | .renamed arg => arg.leaves
  | .negated arg => arg.leaves
  | .added left right => left.leaves ++ right.leaves

/-- **The same sum, rearranged**: at any place, terms change sides or are grouped otherwise. -/
inductive Rearranged : SumTree → SumTree → Prop where
  | refl (e : SumTree) : Rearranged e e
  | symm {e f : SumTree} : Rearranged e f → Rearranged f e
  | trans {e f k : SumTree} : Rearranged e f → Rearranged f k → Rearranged e k
  | renamed {e f : SumTree} : Rearranged e f → Rearranged (.renamed e) (.renamed f)
  | negated {e f : SumTree} : Rearranged e f → Rearranged (.negated e) (.negated f)
  | added {e e' f f' : SumTree} : Rearranged e e' → Rearranged f f' →
      Rearranged (.added e f) (.added e' f')
  | exchanged (e f : SumTree) : Rearranged (.added e f) (.added f e)
  | regrouped (e f k : SumTree) : Rearranged (.added (.added e f) k) (.added e (.added f k))

theorem exists_mem_leaves (e : SumTree) : ∃ t, t ∈ e.leaves := by
  induction e with
  | leaf t => exact ⟨t, List.mem_singleton_self t⟩
  | renamed _ ih => exact ih
  | negated _ ih => exact ih
  | added _ _ ih _ =>
    obtain ⟨t, ht⟩ := ih
    exact ⟨t, List.mem_append_left _ ht⟩

/-- Rearranging neither adds leaves nor drops any. -/
theorem Rearranged.leaves_perm {e f : SumTree} (h : e.Rearranged f) : e.leaves.Perm f.leaves := by
  induction h with
  | refl e => exact .refl _
  | symm _ ih => exact ih.symm
  | trans _ _ ih ih' => exact ih.trans ih'
  | renamed _ ih => exact ih
  | negated _ ih => exact ih
  | added _ _ ih ih' => exact ih.append ih'
  | exchanged e f => exact List.perm_append_comm
  | regrouped e f k =>
    rw [leaves, leaves, leaves, leaves, List.append_assoc]

end SumTree

namespace Graph

/-- **The tree that a node unfolds to**, if it is a sum.  What is shared is written out for each
    use. -/
inductive Spells (g : Graph) : NodeId → SumTree → Prop where
  | leaf {n : NodeId} {name : String} {t : DataType} {s : Shape} : g.kind n = .field →
      g.arguments n = [.text name, .dataType t, .shape s] → g.Spells n (.leaf t)
  | renamed {n c : NodeId} {name : Option String} {e : SumTree} : g.kind n = .alias →
      g.arguments n = [.node c, .ofName name] → g.Spells c e → g.Spells n (.renamed e)
  | negated {n c : NodeId} {e : SumTree} : g.kind n = .unary .negate → g.arguments n = [.node c] →
      g.Spells c e → g.Spells n (.negated e)
  | added {n c d : NodeId} {e f : SumTree} : g.kind n = .binary .add →
      g.arguments n = [.node c, .node d] → g.Spells c e → g.Spells d f → g.Spells n (.added e f)

/-- **A sum**: the node and all nodes below are fields, renamings, negations or additions. -/
def IsSum (g : Graph) (n : NodeId) : Prop :=
  ∀ m, g.Reaches n m → g.kind m ∈ [.field, .alias, .unary .negate, .binary .add]

/-- **A field of the type is below**, or is the node itself. -/
def LeafType (g : Graph) (n : NodeId) (t : DataType) : Prop :=
  ∃ f name s, g.Reaches n f ∧ g.kind f = .field ∧
    g.arguments f = [.text name, .dataType t, .shape s]

variable {g : Graph} {H : Hasher} {n m c d : NodeId} {t : DataType} {e f : SumTree}

theorem children_eq (g : Graph) (n : NodeId) :
    g.children n = (g.arguments n).flatMap Argument.nodes := rfl

theorem children_of_renamed {name : Option String}
    (hargs : g.arguments n = [.node c, .ofName name]) : g.children n = [c] := by
  rw [children_eq, hargs]
  cases name <;> rfl

theorem children_of_negated (hargs : g.arguments n = [.node c]) : g.children n = [c] := by
  rw [children_eq, hargs]
  rfl

theorem children_of_added (hargs : g.arguments n = [.node c, .node d]) : g.children n = [c, d] := by
  rw [children_eq, hargs]
  rfl

/-- The arguments of an operator are nodes, as many as it takes. -/
theorem exists_arguments_of_unary {op : UnaryOp} (hn : g.kind n = .unary op) :
    ∃ c, g.arguments n = [.node c] := by
  rw [kind] at hn
  rw [arguments]
  cases hop : g.operation n with
  | unary op arg => exact ⟨arg.node, rfl⟩
  | _ =>
    rw [hop] at hn
    cases hn

theorem exists_arguments_of_binary {op : BinaryOp} (hn : g.kind n = .binary op) :
    ∃ c d, g.arguments n = [.node c, .node d] := by
  rw [kind] at hn
  rw [arguments]
  cases hop : g.operation n with
  | binary op left right => exact ⟨left.node, right.node, rfl⟩
  | _ =>
    rw [hop] at hn
    cases hn

/-! ### Step by step -/

theorem isSum_iff : g.IsSum n ↔ g.kind n ∈ [.field, .alias, .unary .negate, .binary .add] ∧
    ∀ c ∈ g.children n, g.IsSum c := by
  constructor
  · exact fun h => ⟨h n .refl, fun c hc m hm => h m (.head hc hm)⟩
  · rintro ⟨hn, hchildren⟩ m hm
    rcases Relation.ReflTransGen.cases_head hm with rfl | ⟨c, hc, hm⟩
    · exact hn
    · exact hchildren c hc m hm

/-- The leaf of a field is the field. -/
theorem leafType_of_field {name : String} {s : Shape} {u : DataType} (hn : g.kind n = .field)
    (hargs : g.arguments n = [.text name, .dataType t, .shape s]) :
    g.LeafType n u ↔ u = t := by
  constructor
  · rintro ⟨f, name', s', hpath, -, hargs'⟩
    rcases Relation.ReflTransGen.cases_head hpath with rfl | ⟨c, hc, -⟩
    · rw [hargs] at hargs'
      cases hargs'
      rfl
    · rw [children_of_field hn] at hc
      exact absurd hc List.not_mem_nil
  · rintro rfl
    exact ⟨n, name, s, .refl, hn, hargs⟩

/-- The leaves of other nodes are those of their children. -/
theorem leafType_iff (hn : g.kind n ≠ .field) :
    g.LeafType n t ↔ ∃ c ∈ g.children n, g.LeafType c t := by
  constructor
  · rintro ⟨f, name, s, hpath, hf, hargs⟩
    rcases Relation.ReflTransGen.cases_head hpath with rfl | ⟨c, hc, hpath⟩
    · exact absurd hf hn
    · exact ⟨c, hc, f, name, s, hpath, hf, hargs⟩
  · rintro ⟨c, hc, f, name, s, hpath, hf, hargs⟩
    exact ⟨f, name, s, .head hc hpath, hf, hargs⟩

/-! ### Spelled out -/

/-- What is spelled out as a sum is one. -/
theorem Spells.isSum (h : g.Spells n e) : g.IsSum n := by
  induction h with
  | leaf hn hargs =>
    refine isSum_iff.2 ⟨by simp [hn], ?_⟩
    rw [children_of_field hn]
    exact fun c hc => absurd hc List.not_mem_nil
  | renamed hn hargs _ ih =>
    refine isSum_iff.2 ⟨by simp [hn], ?_⟩
    rw [children_of_renamed hargs]
    exact List.forall_mem_singleton.2 ih
  | negated hn hargs _ ih =>
    refine isSum_iff.2 ⟨by simp [hn], ?_⟩
    rw [children_of_negated hargs]
    exact List.forall_mem_singleton.2 ih
  | added hn hargs _ _ ih ih' =>
    refine isSum_iff.2 ⟨by simp [hn], ?_⟩
    rw [children_of_added hargs]
    exact List.forall_mem_cons.2 ⟨ih, List.forall_mem_singleton.2 ih'⟩

/-- **Every sum is spelled out**, by descent. -/
theorem IsSum.exists_spells (hg : g.Built H) (h : g.IsSum n) : ∃ e, g.Spells n e := by
  induction n using Nat.strongRecOn with
  | _ n ih =>
    obtain ⟨hn, hchildren⟩ := isSum_iff.1 h
    have hbelow : ∀ c ∈ g.children n, ∃ e, g.Spells c e := fun c hc =>
      ih c (hg.older n c hc) (hchildren c hc)
    simp only [List.mem_cons, List.not_mem_nil, or_false] at hn
    rcases hn with hn | hn | hn | hn
    · obtain ⟨name, t, s, hargs⟩ := exists_arguments_of_field hn
      exact ⟨_, .leaf hn hargs⟩
    · obtain ⟨c, name, hargs, -⟩ := exists_name_of_alias hn
      obtain ⟨e, he⟩ := hbelow c (by rw [children_of_renamed hargs]; exact List.mem_cons_self)
      exact ⟨_, .renamed hn hargs he⟩
    · obtain ⟨c, hargs⟩ := exists_arguments_of_unary hn
      obtain ⟨e, he⟩ := hbelow c (by rw [children_of_negated hargs]; exact List.mem_cons_self)
      exact ⟨_, .negated hn hargs he⟩
    · obtain ⟨c, d, hargs⟩ := exists_arguments_of_binary hn
      rw [children_of_added hargs] at hbelow
      obtain ⟨e, he⟩ := hbelow c List.mem_cons_self
      obtain ⟨f, hf⟩ := hbelow d (List.mem_cons_of_mem _ List.mem_cons_self)
      exact ⟨_, .added hn hargs he hf⟩

/-- **Leaves are leaves**: the tree has those that are below the node. -/
theorem Spells.mem_leaves_iff (h : g.Spells n e) : t ∈ e.leaves ↔ g.LeafType n t := by
  induction h with
  | leaf hn hargs =>
    rw [leafType_of_field hn hargs]
    exact List.mem_singleton
  | renamed hn hargs _ ih =>
    rw [leafType_iff (by rw [hn]; decide), children_of_renamed hargs, SumTree.leaves, ih]
    simp
  | negated hn hargs _ ih =>
    rw [leafType_iff (by rw [hn]; decide), children_of_negated hargs, SumTree.leaves, ih]
    simp
  | added hn hargs _ _ ih ih' =>
    rw [leafType_iff (by rw [hn]; decide), children_of_added hargs, SumTree.leaves,
      List.mem_append, ih, ih']
    simp

/-- **A sum is derived**, and its type is the joint one of its leaves. -/
theorem Spells.exists_derives (h : g.Spells n e) :
    ∃ v, g.Derives n v ∧ DataType.Joint (· ∈ e.leaves) v.dataType := by
  induction h with
  | @leaf n name t s hn hargs =>
    exact ⟨_, .field hn hargs, (DataType.joint_one t).congr fun w => List.mem_singleton.symm⟩
  | @renamed n c name e hn hargs _ ih =>
    obtain ⟨v, hv, hjoint⟩ := ih
    have hvalues : List.Forall₂ g.Derives (g.valueOperands n) [v] := by
      rw [valueOperands, hn, hargs]
      cases name <;> exact .cons hv .nil
    exact ⟨_, .operator hvalues (by rw [hn]; rfl), hjoint⟩
  | @negated n c e hn hargs _ ih =>
    obtain ⟨v, hv, hjoint⟩ := ih
    have hvalues : List.Forall₂ g.Derives (g.valueOperands n) [v] := by
      rw [valueOperands, hn, hargs]
      exact .cons hv .nil
    exact ⟨_, .operator hvalues (by rw [hn]; rfl), hjoint⟩
  | @added n c d e f hn hargs _ _ ih ih' =>
    obtain ⟨v, hv, hjoint⟩ := ih
    obtain ⟨w, hw, hjoint'⟩ := ih'
    have hvalues : List.Forall₂ g.Derives (g.valueOperands n) [v, w] := by
      rw [valueOperands, hn, hargs]
      exact .cons hv (.cons hw .nil)
    refine ⟨_, .operator hvalues (by rw [hn]; rfl), ?_⟩
    exact (hjoint.promote hjoint' e.exists_mem_leaves f.exists_mem_leaves).congr fun w =>
      List.mem_append.symm

end Graph

namespace Session

variable {H : Hasher} {picker : ShardPicker} {s : Session} {n : NodeId} {e : SumTree}

/-- What a sum produces, from the tree that it unfolds to. -/
theorem exists_value?_of_spells (h : Reachable H picker s) (he : s.graph.Spells n e) :
    ∃ v, s.graph.value? n = some v ∧ DataType.Joint (s.graph.LeafType n) v.dataType := by
  obtain ⟨v, hv, hjoint⟩ := he.exists_derives
  exact ⟨v, (Graph.derives_iff h.consistent.built h.faithful).1 hv,
    hjoint.congr fun w => he.mem_leaves_iff⟩

/-- **Sums have the joint type of their leaves**, whatever the tree: of one type, that type; else
    `float64` if a floating field is below, and `int64` if there is none.  So sums over fields of
    the same types have the same type, and in particular sums that unfold to trees of which one is
    the other rearranged. -/
theorem sums_promoted (h : Reachable H picker s) :
    (∀ n, s.graph.IsSum n ↔ ∃ e, s.graph.Spells n e) ∧
    (∀ n, s.graph.IsSum n → (∃ t, s.graph.LeafType n t) ∧ ∃ v, s.graph.value? n = some v ∧
      (∀ t, (∀ u, s.graph.LeafType n u → u = t) → v.dataType = t) ∧
      (DataType.Mixed (s.graph.LeafType n) →
        s.graph.LeafType n .float32 ∨ s.graph.LeafType n .float64 → v.dataType = .float64) ∧
      (DataType.Mixed (s.graph.LeafType n) →
        ¬ (s.graph.LeafType n .float32 ∨ s.graph.LeafType n .float64) → v.dataType = .int64)) ∧
    (∀ n m, s.graph.IsSum n → s.graph.IsSum m →
      (∀ t, s.graph.LeafType n t ↔ s.graph.LeafType m t) →
      (s.graph.value? n).map Value.dataType = (s.graph.value? m).map Value.dataType) ∧
    (∀ n m e f, s.graph.Spells n e → s.graph.Spells m f → e.Rearranged f →
      (s.graph.value? n).map Value.dataType = (s.graph.value? m).map Value.dataType) := by
  have hsame : ∀ n m e f, s.graph.Spells n e → s.graph.Spells m f →
      (∀ t, s.graph.LeafType n t ↔ s.graph.LeafType m t) →
      (s.graph.value? n).map Value.dataType = (s.graph.value? m).map Value.dataType := by
    intro n m e f he hf hleaf
    obtain ⟨v, hv, hjoint⟩ := exists_value?_of_spells h he
    obtain ⟨w, hw, hjoint'⟩ := exists_value?_of_spells h hf
    rw [hv, hw, Option.map_some, Option.map_some, (hjoint.congr hleaf).unique hjoint']
  have hspells : ∀ {n}, s.graph.IsSum n → ∃ e, s.graph.Spells n e :=
    fun hn => hn.exists_spells h.consistent.built
  refine ⟨fun n => ⟨hspells, fun ⟨e, he⟩ => he.isSum⟩, fun n hn => ?_, fun n m hn hm => ?_,
    fun n m e f he hf hef => hsame n m e f he hf fun t => ?_⟩
  · obtain ⟨e, he⟩ := hspells hn
    obtain ⟨t, ht⟩ := e.exists_mem_leaves
    obtain ⟨v, hv, hjoint⟩ := exists_value?_of_spells h he
    exact ⟨⟨t, he.mem_leaves_iff.1 ht⟩, v, hv, hjoint.uniform, hjoint.floating, hjoint.otherwise⟩
  · obtain ⟨e, he⟩ := hspells hn
    obtain ⟨f, hf⟩ := hspells hm
    exact hsame n m e f he hf
  · rw [← he.mem_leaves_iff, ← hf.mem_leaves_iff, hef.leaves_perm.mem_iff]

/-! ### Two groupings -/

/-- A field of a type. -/
def scalarField (name : String) (t : DataType) : Operation := .field name t .scalar

/-- A sum of two scalars of known types. -/
def scalarSum (left right : NodeId) (t u : DataType) : Operation :=
  .binary .add { (⟨.scalar, t⟩ : Value) with node := left }
    { (⟨.scalar, u⟩ : Value) with node := right }

/-- Three fields of three types, and their sum: node 4 adds the third to the first two, node 6 adds
    the first to the other two. -/
def regroupedSums : Session :=
  let s := ((start .mixing .standard).insert (scalarField "a" .float32)).2
  let s := (s.insert (scalarField "b" .int32)).2
  let s := (s.insert (scalarField "c" .float64)).2
  let s := (s.insert (scalarSum 0 1 .float32 .int32)).2
  let s := (s.insert (scalarSum 3 2 .float64 .float64)).2
  let s := (s.insert (scalarSum 1 2 .int32 .float64)).2
  (s.insert (scalarSum 5 0 .float64 .float32)).2

theorem ofArguments_scalarSum {g : Graph} {left right : NodeId} {t u : DataType}
    (hleft : g.value? left = some ⟨.scalar, t⟩) (hright : g.value? right = some ⟨.scalar, u⟩) :
    Operation.ofArguments g (.binary .add) [.node left, .node right] =
      .ok (scalarSum left right t u) := by
  rw [Operation.ofArguments_binary, Operation.binaryOf, Graph.operand, Graph.operand, hleft, hright]
  rfl

theorem Reachable.scalarField (h : Reachable H picker s) (name : String) (t : DataType) :
    Reachable H picker (s.insert (scalarField name t)).2 :=
  h.insert .field [.text name, .dataType t, .shape .scalar]
    (by simp [permits, Usable, Argument.WellFormed, Argument.nodes]) rfl

theorem Reachable.scalarSum (h : Reachable H picker s) (left right : NodeId) {t u : DataType}
    (hl : s.isAlive left = true) (hr : s.isAlive right = true)
    (hleft : s.graph.value? left = some ⟨.scalar, t⟩)
    (hright : s.graph.value? right = some ⟨.scalar, u⟩) :
    Reachable H picker (s.insert (scalarSum left right t u)).2 :=
  h.insert (.binary .add) [.node left, .node right]
    (List.forall_mem_cons.2 ⟨usable_node hl, List.forall_mem_singleton.2 (usable_node hr)⟩)
    (ofArguments_scalarSum hleft hright)

theorem reachable_regroupedSums : Reachable .mixing .standard regroupedSums := by
  have hstart : Reachable .mixing .standard (start .mixing .standard) := .start
  have hfields := ((hstart.scalarField "a" .float32).scalarField "b" .int32).scalarField "c"
    .float64
  have hfirst := hfields.scalarSum 0 1 rfl rfl
    (Graph.value?_of_field rfl rfl) (Graph.value?_of_field rfl rfl)
  have hsecond := hfirst.scalarSum 3 2 rfl rfl
    (by rw [Graph.value?]; rfl) (Graph.value?_of_field rfl rfl)
  have hthird := hsecond.scalarSum 1 2 rfl rfl
    (Graph.value?_of_field rfl rfl) (Graph.value?_of_field rfl rfl)
  exact hthird.scalarSum 5 0 rfl rfl
    (by rw [Graph.value?]; rfl) (Graph.value?_of_field rfl rfl)

/-- Both groupings have type `float64`: in node 4 a promoted type meets a genuine one that is equal
    to it, in node 6 it meets another. -/
theorem sums_promoted_regroupedSums :
    Reachable .mixing .standard regroupedSums ∧ regroupedSums.graph.IsSum 4 ∧
    regroupedSums.graph.LeafType 4 .int32 ∧
    (regroupedSums.graph.value? 4).map Value.dataType = some .float64 ∧
    (regroupedSums.graph.value? 6).map Value.dataType = some .float64 := by
  obtain ⟨hsum, htype, -, hrearranged⟩ := sums_promoted reachable_regroupedSums
  have ha : regroupedSums.graph.Spells 0 (.leaf .float32) := .leaf rfl rfl
  have hb : regroupedSums.graph.Spells 1 (.leaf .int32) := .leaf rfl rfl
  have hc : regroupedSums.graph.Spells 2 (.leaf .float64) := .leaf rfl rfl
  have hleft : regroupedSums.graph.Spells 4
      (.added (.added (.leaf .float32) (.leaf .int32)) (.leaf .float64)) :=
    .added rfl rfl (.added rfl rfl ha hb) hc
  have hright : regroupedSums.graph.Spells 6
      (.added (.added (.leaf .int32) (.leaf .float64)) (.leaf .float32)) :=
    .added rfl rfl (.added rfl rfl hb hc) ha
  have hint : regroupedSums.graph.LeafType 4 .int32 := hleft.mem_leaves_iff.1 (by decide)
  have hfloat : regroupedSums.graph.LeafType 4 .float64 := hleft.mem_leaves_iff.1 (by decide)
  have hmixed : DataType.Mixed (regroupedSums.graph.LeafType 4) := by
    intro u
    by_cases hu : u = .int32
    · exact ⟨_, hfloat, by rw [hu]; decide⟩
    · exact ⟨_, hint, Ne.symm hu⟩
  obtain ⟨-, v, hv, -, hfloating, -⟩ := htype 4 ((hsum 4).2 ⟨_, hleft⟩)
  have hfirst : (regroupedSums.graph.value? 4).map Value.dataType = some .float64 := by
    rw [hv, Option.map_some, hfloating hmixed (Or.inr hfloat)]
  have hsame := hrearranged 4 6 _ _ hleft hright
    (.trans (.regrouped _ _ _) (.exchanged _ _))
  exact ⟨reachable_regroupedSums, (hsum 4).2 ⟨_, hleft⟩, hint, hfirst, hsame ▸ hfirst⟩

end Session

end ExprGraph
