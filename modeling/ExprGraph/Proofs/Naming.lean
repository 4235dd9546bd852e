/-
  Naming — a value under one name after another.

  Naming a handle builds a renaming of its node and throws the handle away: sort, type and name of
  the new handle are found out anew, from the copy that the renaming keeps.  Over a long chain of
  names nothing of the value may get lost on the way.

  1. **Program** — `Session.nameAll` names a handle again and again.

  2. **Specification** — `Graph.NamedOver g n names m`: the node `m` is `n` under the names, one
     renaming for each of them, the first name next to `n`.

  3. **Result** — a chain over a value always succeeds, whatever the names are, and keeps sort and
     type; the last name is the one that is seen.  Chains of one length are equal exactly if they
     are over equal nodes, with the same names.  What is no value is refused at the first name.
-/
import ExprGraph.Proofs.TypedConstruction

namespace ExprGraph

namespace Graph

/-- **A node under names**: a renaming for each name, the first one of the node itself. -/
inductive NamedOver (g : Graph) : NodeId → List String → NodeId → Prop where
  | nil (n : NodeId) : g.NamedOver n [] n
  | cons {n c m : NodeId} {name : String} {names : List String} : g.kind c = .alias →
      g.arguments c = [.node n, .text name] → g.NamedOver c names m →
      g.NamedOver n (name :: names) m

variable {g : Graph} {H : Hasher} {a b c d m m' n n' : NodeId} {x y : String}
  {names names' : List String}

/-! ## One renaming -/

/-- A renaming produces what its operand produces. -/
theorem value?_of_alias (hf : g.Faithful) (hm : g.kind m = .alias)
    (hargs : g.arguments m = [.node c, .text x]) : g.value? m = g.value? c := by
  have hcopies := hf m
  rw [kind] at hm
  rw [arguments] at hargs
  cases hop : g.operation m with
  | «alias» arg name =>
    rw [hop] at hargs hcopies
    obtain ⟨rfl, -⟩ : arg.node = c ∧ _ := by simpa [Operation.arguments] using hargs
    rw [hcopies arg List.mem_cons_self, value?, hop]
  | _ =>
    rw [hop] at hm
    cases hm

theorem resolveName_of_alias (hm : g.kind m = .alias)
    (hargs : g.arguments m = [.node c, .text x]) : g.resolveName m = .ok (some x) := by
  obtain ⟨d, name, hargs', hname⟩ := exists_name_of_alias hm
  rw [hargs] at hargs'
  cases name with
  | some y =>
    cases hargs'
    exact hname
  | none => cases hargs'

/-- **Renamings are injective**: they are the same exactly if what they rename is the same, and the
    names are. -/
theorem same_alias_iff (ha : g.kind a = .alias) (hargs : g.arguments a = [.node c, .text x])
    (hb : g.kind b = .alias) (hargs' : g.arguments b = [.node d, .text y]) :
    g.Same a b ↔ g.Same c d ∧ x = y := by
  constructor
  · intro h
    have hsame := h.arguments
    rw [hargs, hargs'] at hsame
    simp only [List.forall₂_cons] at hsame
    obtain ⟨hnode, htext, -⟩ := hsame
    cases htext
    exact ⟨Argument.same_node_iff.1 hnode, rfl⟩
  · rintro ⟨hcd, rfl⟩
    refine .contents (ha.trans hb.symm) (by rw [ha]; decide) ?_
    rw [hargs, hargs']
    exact .cons (.node hcd) (.cons (.text x) .nil)

/-! ## Chains -/

namespace NamedOver

/-- A node is never newer than itself under names. -/
theorem le (hg : g.Built H) (h : g.NamedOver n names m) : n ≤ m := by
  induction h with
  | nil n => exact Nat.le_refl n
  | @cons n c m name names _ hargs _ ih =>
    have hlt : n < c := hg.lt_of_node_mem (hargs ▸ List.mem_cons_self)
    exact Nat.le_trans (Nat.le_of_lt hlt) ih

/-- **A chain of names keeps the value.** -/
theorem value?_eq (hf : g.Faithful) (h : g.NamedOver n names m) : g.value? m = g.value? n := by
  induction h with
  | nil n => rfl
  | cons hkind hargs _ ih => rw [ih, value?_of_alias hf hkind hargs]

/-- The last renaming has the last name. -/
theorem exists_last (h : g.NamedOver n names m) {last : String}
    (hlast : names.getLast? = some last) :
    ∃ c, g.kind m = .alias ∧ g.arguments m = [.node c, .text last] := by
  induction h with
  | nil n => cases hlast
  | @cons n c m name names hkind hargs hrest ih =>
    cases hrest with
    | nil =>
      cases hlast
      exact ⟨n, hkind, hargs⟩
    | cons => exact ih hlast

/-- **The last name is the one that is seen.** -/
theorem name_seen (h : g.NamedOver n names m) {last : String}
    (hlast : names.getLast? = some last) :
    g.hasResolvedName m = true ∧ g.resolveName m = .ok (some last) := by
  obtain ⟨c, hkind, hargs⟩ := h.exists_last hlast
  rw [hasResolvedName_eq, hkind]
  exact ⟨rfl, resolveName_of_alias hkind hargs⟩

/-- **Chains of one length** end in the same node exactly if they begin with the same one, and have
    the same names. -/
theorem same_iff (h : g.NamedOver n names m) (h' : g.NamedOver n' names' m')
    (hlength : names.length = names'.length) : g.Same m m' ↔ g.Same n n' ∧ names = names' := by
  induction h generalizing n' names' with
  | nil n =>
    cases h' with
    | nil => exact (and_iff_left rfl).symm
    | cons => cases hlength
  | cons hkind hargs _ ih =>
    cases h' with
    | nil => cases hlength
    | cons hkind' hargs' hrest' =>
      rw [ih hrest' (Nat.succ.inj hlength), same_alias_iff hkind hargs hkind' hargs',
        List.cons.injEq, and_assoc]

end NamedOver

@[simp] theorem node_handle (g : Graph) (n : NodeId) : (g.handle n).node = n := by
  unfold handle
  cases g.value? n with
  | some v =>
    obtain ⟨shape, t⟩ := v
    cases shape <;> rfl
  | none => cases g.members? n <;> rfl

theorem handle_of_value? {v : Value} (h : g.value? n = some v) : g.handle n = .ofValue n v := by
  rw [handle, h]

theorem isValue_eq_false_iff : g.isValue n = false ↔ g.kind n = .list ∨ g.kind n = .sealed := by
  rw [isValue_eq]
  cases g.kind n <;> simp [Kind.isValue]

end Graph

namespace Session

variable {H : Hasher} {picker : ShardPicker} {s t : Session} {n m : NodeId} {names : List String}

/-- **Name a handle again and again**, the handle with the last name being the one that is kept. -/
def nameAll (s : Session) (k : Handle) : List String → Except GraphError (Handle × Session)
  | [] => .ok (k, s)
  | name :: names => do
    let (k, s) ← s.nameHandle k name
    nameAll s k names

/-- **Naming is building** a renaming of the node of the handle. -/
theorem nameHandle_eq (s : Session) (k : Handle) (name : String) : s.nameHandle k name =
    (s.build ((Request.named k.node (some name)).along s.graph .typed)).map
      fun built => (built.2.graph.handle built.1, built.2) := by
  rw [nameHandle, Request.along]
  cases s.build (Operation.aliasOf s.graph k.node (some name)) <;> rfl

/-- A living value can be named. -/
theorem exists_nameHandle (h : Reachable H picker s) (halive : s.isAlive n = true)
    (hvalue : s.graph.isValue n = true) (name : String) :
    ∃ t, s.Builds (.named n (some name)) .typed t ∧
      s.nameHandle (s.graph.handle n) name = .ok (t.graph.handle s.graph.size, t) := by
  have hnodes : ∀ m ∈ (Request.named n (some name)).nodes, s.isAlive m = true := by
    intro m hm
    obtain rfl : m = n := List.mem_singleton.1 hm
    exact halive
  have hfault : (Request.named n (some name)).fault? s.graph = none := by
    simp [Request.fault?, Request.operands, hvalue]
  obtain ⟨t, ht⟩ := exists_builds h hnodes hfault .typed
  refine ⟨t, ht, ?_⟩
  rw [nameHandle_eq, Graph.node_handle, ht.build]
  rfl

/-- What was named stays named. -/
theorem Later.namedOver (ht : s.Later t) (h : Reachable H picker s)
    (hm : s.graph.NamedOver n names m) (hlt : m < s.graph.size) : t.graph.NamedOver n names m := by
  induction hm with
  | nil n => exact .nil n
  | cons hkind hargs hrest ih =>
    have hc := Nat.lt_of_le_of_lt (hrest.le h.consistent.built) hlt
    exact .cons ((ht.kind_eq h hc).trans hkind) ((ht.arguments_eq h hc).trans hargs) (ih hlt)

/-- **A chain over a living value** is built, a node for each name. -/
theorem exists_nameAll (h : Reachable H picker s) (halive : s.isAlive n = true)
    (hvalue : s.graph.isValue n = true) (names : List String) :
    ∃ m t, s.nameAll (s.graph.handle n) names = .ok (t.graph.handle m, t) ∧ s.Later t ∧
      t.graph.size = s.graph.size + names.length ∧ t.isAlive m = true ∧
      t.graph.NamedOver n names m := by
  -- the rest of a chain is over the renaming just built, in the session that built it
  induction names generalizing s n with
  | nil => exact ⟨n, s, rfl, .refl, rfl, halive, .nil n⟩
  | cons name names ih =>
    obtain ⟨t, ht, hname⟩ := exists_nameHandle h halive hvalue name
    have hr := ht.later.reachable h
    have hvalue' : t.graph.isValue s.graph.size = true := by
      rw [Graph.isValue_eq, ht.kind]
      rfl
    obtain ⟨m, u, hrest, hu, hsize, hm, hnamed⟩ := ih hr ((ht.isAlive _).2 (Or.inr rfl)) hvalue'
    have hlt : s.graph.size < t.graph.size := ht.size ▸ Nat.lt_succ_self _
    refine ⟨m, u, ?_, ht.later.trans hu, ?_, hm, .cons ?_ ?_ hnamed⟩
    · rw [nameAll, hname]
      exact hrest
    · rw [hsize, ht.size, List.length_cons]
      omega
    · exact (hu.kind_eq hr hlt).trans ht.kind
    · exact (hu.arguments_eq hr hlt).trans ht.arguments

/-- What is no value cannot be named. -/
theorem nameHandle_of_not_value (hvalue : s.graph.isValue n = false) (name : String) :
    s.nameHandle (s.graph.handle n) name =
      .error (.invalidField "Alias" (.named "arg") .valueNode (.node (s.graph.kind n).name)) ∧
    s.perform (.create .alias [.node n, .text name]) = s := by
  have hfault : (Request.named n (some name)).fault? s.graph = some ("arg", n) := by
    simp [Request.fault?, Request.operands, hvalue]
  obtain ⟨hrefused, hperform⟩ := build_of_fault hfault
  rw [nameHandle_eq, Graph.node_handle, hrefused]
  exact ⟨rfl, hperform⟩

/-- **Naming a value again and again** always succeeds, and builds as many nodes as there are names.
    The handle is of the sort and of the type of the handle on the value, has the last of the names,
    and is one on the value under all of them, for good.  Such handles are equal, through whichever
    cache, exactly if the values are and the names are, provided there are as many.  What is no
    value, a list or a sealed node, is refused, and the session stays as it is. -/
theorem names_chained (h : Reachable H picker s) (halive : s.isAlive n = true) :
    (s.graph.isValue n = true → ∀ names, ∃ k t,
      s.nameAll (s.graph.handle n) names = .ok (k, t) ∧ s.Later t ∧
      t.graph.size = s.graph.size + names.length ∧ t.isAlive k.node = true ∧
      k.Alike (s.graph.handle n) ∧
      ∀ u, t.Later u → u.graph.handle k.node = k ∧ k.node < u.graph.size ∧
        u.graph.NamedOver n names k.node ∧ ∀ last, names.getLast? = some last →
          k.hasName u.graph = true ∧ k.resolveName u.graph = .ok (some last)) ∧
    (∀ t, s.Later t → ∀ n' k k' names names', n' < t.graph.size → k.node < t.graph.size →
      k'.node < t.graph.size → t.graph.NamedOver n names k.node →
      t.graph.NamedOver n' names' k'.node → names.length = names'.length → ∀ ref ref',
        (t.onCache ref (PairCache.handlesEqualM t.graph k k')).1 = true ↔
          t.equal ref' n n' = true ∧ names = names') ∧
    (s.graph.isValue n = false ↔ s.graph.kind n = .list ∨ s.graph.kind n = .sealed) ∧
    (s.graph.isValue n = false → ∀ name,
      s.nameHandle (s.graph.handle n) name =
        .error (.invalidField "Alias" (.named "arg") .valueNode (.node (s.graph.kind n).name)) ∧
      s.perform (.create .alias [.node n, .text name]) = s) := by
  have hn := h.consistent.tallied.lt_size halive
  refine ⟨fun hvalue names => ?_, ?_, Graph.isValue_eq_false_iff, nameHandle_of_not_value⟩
  · obtain ⟨m, t, hname, hlater, hsize, hm, hnamed⟩ := exists_nameAll h halive hvalue names
    obtain ⟨v, hv⟩ := Option.isSome_iff_exists.1 hvalue
    have hr := hlater.reachable h
    have hlt := hr.consistent.tallied.lt_size hm
    -- all values of the chain are that of the node
    have hvm : t.graph.value? m = some v :=
      (hnamed.value?_eq hr.faithful).trans ((hlater.value?_eq h hn).trans hv)
    have hhandle := Graph.handle_of_value? hvm
    have hnode : (t.graph.handle m).node = m := Graph.node_handle t.graph m
    refine ⟨t.graph.handle m, t, hname, hlater, hsize, hnode.symm ▸ hm, ?_, fun u hu => ?_⟩
    · rw [hhandle, Graph.handle_of_value? hv]
      exact .ofValue m n v
    · have hkept : u.graph.handle m = t.graph.handle m := by
        rw [hhandle, Graph.handle_of_value? ((hu.value?_eq hr hlt).trans hvm)]
      have hnamed' := hu.namedOver hr hnamed hlt
      rw [Handle.hasName, Handle.resolveName, hnode]
      exact ⟨hkept, Nat.lt_of_lt_of_le hlt (hu.size_le hr), hnamed',
        fun last hlast => hnamed'.name_seen hlast⟩
  · intro t ht n' k k' names names' hn' hk hk' hnamed hnamed' hlength ref ref'
    have hr := ht.reachable h
    have hhandles : (t.onCache ref (PairCache.handlesEqualM t.graph k k')).1 = true ↔
        t.graph.Same k.node k'.node := Later.refl.equal_iff hr ref hk hk'
    have hvalues : t.equal ref' n n' = true ↔ t.graph.Same n n' :=
      Later.refl.equal_iff hr ref' (Nat.lt_of_lt_of_le hn (ht.size_le h)) hn'
    rw [hhandles, hvalues]
    exact hnamed.same_iff hnamed' hlength

/-- A column stays a column of its type under two names.  The twins, each under the same name, are
    equal, and a list cannot be named. -/
theorem names_chained_twinColumns :
    Reachable .mixing .standard twinColumns ∧
    (∃ k t, twinColumns.nameAll (twinColumns.graph.handle 0) ["b", "c"] = .ok (k, t) ∧
      t.graph.size = 8 ∧ k.isColumn = true ∧ k.dataType? = some .int64 ∧
      k.resolveName t.graph = .ok (some "c")) ∧
    (twinColumns.onCache .shared (PairCache.handlesEqualM twinColumns.graph (.column 2 .int64)
      (.column 3 .int64))).1 = true ∧
    twinColumns.nameHandle (twinColumns.graph.handle 4) "b" =
      .error (.invalidField "Alias" (.named "arg") .valueNode (.node "NodeList")) := by
  obtain ⟨hchain, hequal, -, -⟩ :=
    names_chained reachable_twinColumns (n := 0) (by decide)
  obtain ⟨-, -, -, hrefused⟩ := names_chained reachable_twinColumns (n := 4) (by decide)
  have hvalue : twinColumns.graph.isValue 0 = true := by
    rw [Graph.isValue_eq]
    decide
  have hlist : twinColumns.graph.isValue 4 = false := by
    rw [Graph.isValue_eq]
    decide
  obtain ⟨k, t, hname, -, hsize, -, halike, hkept⟩ := hchain hvalue ["b", "c"]
  obtain ⟨-, -, -, hlast⟩ := hkept t .refl
  have hfield : twinColumns.graph.value? 0 = some ⟨.columnar, .int64⟩ :=
    Graph.value?_of_field rfl rfl
  have hcolumn : twinColumns.graph.handle 0 = .column 0 .int64 := Graph.handle_of_value? hfield
  rw [hcolumn] at halike
  have htwins : twinColumns.equal .shared 0 1 = true :=
    (Later.refl.equal_iff reachable_twinColumns .shared (by decide) (by decide)).2 same_twinFields
  have hleft : twinColumns.graph.NamedOver 0 ["a"] 2 := .cons rfl rfl (.nil 2)
  have hright : twinColumns.graph.NamedOver 1 ["a"] 3 := .cons rfl rfl (.nil 3)
  exact ⟨reachable_twinColumns,
    ⟨k, t, hname, hsize, halike.isColumn, halike.dataType, (hlast "c" rfl).2⟩,
    (hequal twinColumns .refl 1 (.column 2 .int64) (.column 3 .int64) ["a"] ["a"] (by decide)
      (by decide) (by decide) hleft hright rfl .shared .shared).2 ⟨htwins, rfl⟩,
    (hrefused hlist "b").1⟩

end Session

end ExprGraph
