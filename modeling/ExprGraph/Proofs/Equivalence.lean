/-
  Equivalence — the answers to several comparisons fit together.

  Whoever compares gets one answer at a time, each from the cache at hand, and much may happen before
  the next: nodes are built and dropped, caches are filled and cleared.  All the same it is one
  relation that is asked for, so that nodes and arguments may be sorted into classes, and classes
  used as keys.

  1. **Laws** — `Equates known e₁ e₂ e₃` are the laws of an equivalence with three comparisons in the
     place of one relation.  They hold as soon as all three decide one equivalence
     (`equates_of_decides`).

  2. **Later states** — `Session.Later s t`: permitted actions lead from `s` to `t`.  What is the
     same in `s` is the same later (`Later.same_iff`), so three later states decide the relation of
     `s`.

  3. **Result** — the laws hold for nodes and for arguments.  Nodes that are equal have one kind, and
     a sealed node is equal to itself only.
-/
import ExprGraph.Proofs.Histories

namespace ExprGraph

/-! ## The laws -/

/-- **The laws of an equivalence** on what is `known`, for three comparisons. -/
structure Equates {α : Type} (known : α → Prop) (e₁ e₂ e₃ : α → α → Bool) : Prop where
  refl : ∀ a, known a → e₁ a a = true
  symm : ∀ a b, known a → known b → e₁ a b = e₂ b a
  trans : ∀ a b c, known a → known b → known c →
    e₁ a b = true → e₂ b c = true → e₃ a c = true

/-- Comparisons that decide one equivalence. -/
theorem equates_of_decides {α : Type} {known : α → Prop} {e₁ e₂ e₃ : α → α → Bool}
    {R : α → α → Prop} (h₁ : ∀ a b, known a → known b → (e₁ a b = true ↔ R a b))
    (h₂ : ∀ a b, known a → known b → (e₂ a b = true ↔ R a b))
    (h₃ : ∀ a b, known a → known b → (e₃ a b = true ↔ R a b)) (hrefl : ∀ a, R a a)
    (hsymm : ∀ a b, R a b → R b a) (htrans : ∀ a b c, R a b → R b c → R a c) :
    Equates known e₁ e₂ e₃ where
  refl a ha := (h₁ a a ha ha).2 (hrefl a)
  symm a b ha hb := by
    rw [Bool.eq_iff_iff, h₁ a b ha hb, h₂ b a hb ha]
    exact ⟨hsymm a b, hsymm b a⟩
  trans a b c ha hb hc hab hbc :=
    (h₃ a c ha hc).2 (htrans a b c ((h₁ a b ha hb).1 hab) ((h₂ b c hb hc).1 hbc))

namespace Session

variable {H : Hasher} {picker : ShardPicker} {s t u v : Session}

/-! ## Later states -/

/-- **Permitted actions lead** from `s` to this state, perhaps none. -/
inductive Later (s : Session) : Session → Prop where
  | refl : Later s s
  | perform {t : Session} (a : Action) : Later s t → t.permits a → Later s (t.perform a)

theorem Later.reachable (h : s.Later t) (hs : Reachable H picker s) : Reachable H picker t := by
  induction h with
  | refl => exact hs
  | perform a _ ha ih => exact ih.perform a ha

theorem Later.trans (h : s.Later t) (h' : t.Later u) : s.Later u := by
  induction h' with
  | refl => exact h
  | perform a _ ha ih => exact ih.perform a ha

theorem Reachable.consistent (h : Reachable H picker s) : Consistent H s := by
  obtain ⟨history, hrun⟩ := reachable_iff_run.1 h
  exact hrun.invariant.1

theorem Later.size_le (h : s.Later t) (hs : Reachable H picker s) :
    s.graph.size ≤ t.graph.size := by
  induction h with
  | refl => exact Nat.le_refl _
  | perform a hlater ha ih =>
    exact Nat.le_trans ih (isAlive_perform (hlater.reachable hs).consistent ha 0).1

/-- **Nodes never change.** -/
theorem Later.node_eq (h : s.Later t) (hs : Reachable H picker s) {n : NodeId}
    (hn : n < s.graph.size) : t.graph.node n = s.graph.node n := by
  induction h with
  | refl => rfl
  | @perform t act hlater hact ih =>
    rcases (perform_graph (hlater.reachable hs).consistent hact).2 with hgraph | ⟨op, hgraph, -, -⟩
    · rw [hgraph]
      exact ih
    · have hne := Nat.ne_of_lt (Nat.lt_of_lt_of_le hn (hlater.size_le hs))
      rw [hgraph, Graph.node_insert_of_ne hne]
      exact ih

theorem Later.kind_eq (h : s.Later t) (hs : Reachable H picker s) {n : NodeId}
    (hn : n < s.graph.size) : t.graph.kind n = s.graph.kind n := by
  rw [Graph.kind, Graph.operation, h.node_eq hs hn, Graph.kind, Graph.operation]

theorem Later.arguments_eq (h : s.Later t) (hs : Reachable H picker s) {n : NodeId}
    (hn : n < s.graph.size) : t.graph.arguments n = s.graph.arguments n := by
  rw [Graph.arguments, Graph.operation, h.node_eq hs hn, Graph.arguments, Graph.operation]

/-- **What is the same stays the same**, and what is not does not become so. -/
theorem Later.same_iff (h : s.Later t) (hs : Reachable H picker s) {a b : NodeId}
    (ha : a < s.graph.size) (hb : b < s.graph.size) :
    t.graph.Same a b ↔ s.graph.Same a b := by
  induction h with
  | refl => exact Iff.rfl
  | perform act hlater hact ih =>
    have ht := (hlater.reachable hs).consistent
    have hsize := hlater.size_le hs
    rcases (perform_graph ht hact).2 with hgraph | ⟨op, hgraph, -, -⟩
    · rw [hgraph]
      exact ih
    · rw [hgraph]
      exact (Graph.same_insert_iff ht.built op (Nat.lt_of_lt_of_le ha hsize)
        (Nat.lt_of_lt_of_le hb hsize)).trans ih

/-! ## The answers -/

/-- What a cache answers about two nodes. -/
def equal (s : Session) (ref : CacheRef) (a b : NodeId) : Bool :=
  (s.onCache ref (PairCache.equalM s.graph a b)).1

/-- What a cache answers about two arguments. -/
def equalArguments (s : Session) (ref : CacheRef) (x y : Argument) : Bool :=
  (s.onCache ref (PairCache.argumentsEqualM s.graph x y)).1

/-- An argument that is well-formed, over nodes that are or were. -/
def Known (s : Session) (x : Argument) : Prop := x.WellFormed ∧ ∀ n ∈ x.nodes, n < s.graph.size

theorem Usable.known (h : Consistent H s) {x : Argument} (hx : s.Usable x) : s.Known x :=
  ⟨hx.1, h.lt_size hx⟩

/-- Whatever happens, nodes are compared by the sameness of now. -/
theorem Later.equal_iff (h : s.Later t) (hs : Reachable H picker s) (ref : CacheRef)
    {a b : NodeId} (ha : a < s.graph.size) (hb : b < s.graph.size) :
    t.equal ref a b = true ↔ s.graph.Same a b := by
  have ht := (h.reachable hs).consistent
  have hsize := h.size_le hs
  refine Iff.trans ?_ (h.same_iff hs ha hb)
  exact PairCache.equalM_answer ht.built (Nat.lt_of_lt_of_le ha hsize)
    (Nat.lt_of_lt_of_le hb hsize) (ht.sound ref)

theorem Later.equalArguments_iff (h : s.Later t) (hs : Reachable H picker s) (ref : CacheRef)
    {x y : Argument} (hx : s.Known x) (hy : s.Known y) :
    t.equalArguments ref x y = true ↔ Argument.Same s.graph.Same x y := by
  have ht := (h.reachable hs).consistent
  have hsize := h.size_le hs
  have hanswer : t.equalArguments ref x y = true ↔ Argument.Same t.graph.Same x y :=
    PairCache.argumentsEqualM_answer ht.built hx.1 hy.1
      (fun n hn => Nat.lt_of_lt_of_le (hx.2 n hn) hsize)
      (fun n hn => Nat.lt_of_lt_of_le (hy.2 n hn) hsize) (ht.sound ref)
  refine hanswer.trans ⟨fun hxy => ?_, fun hxy => ?_⟩
  · exact hxy.imp fun c hc d hd => (h.same_iff hs (hx.2 c hc) (hy.2 d hd)).1
  · exact hxy.imp fun c hc d hd => (h.same_iff hs (hx.2 c hc) (hy.2 d hd)).2

/-- **Equality is an equivalence**, for nodes and for arguments, although each of the comparisons may
    go through another cache and take place in another later state.  Equal nodes have one kind, and
    a sealed node is equal to itself only. -/
theorem equality_equivalence (h : Reachable H picker s) (ht : s.Later t) (hu : s.Later u)
    (hv : s.Later v) (r₁ r₂ r₃ : CacheRef) :
    Equates (· < s.graph.size) (t.equal r₁) (u.equal r₂) (v.equal r₃) ∧
    (∀ a b, a < s.graph.size → b < s.graph.size → t.equal r₁ a b = true →
      s.graph.kind a = s.graph.kind b ∧ (s.graph.kind a = .sealed → a = b)) ∧
    Equates s.Known (t.equalArguments r₁) (u.equalArguments r₂) (v.equalArguments r₃) := by
  have hg := h.consistent.built
  refine ⟨?_, fun a b ha hb hab => ?_, ?_⟩
  · exact equates_of_decides (fun a b => ht.equal_iff h r₁) (fun a b => hu.equal_iff h r₂)
      (fun a b => hv.equal_iff h r₃) Graph.Same.self (fun a b hab => hab.symm hg)
      fun a b c hab hbc => hab.trans hg hbc
  · have hsame := (ht.equal_iff h r₁ ha hb).1 hab
    refine ⟨hsame.kind_eq, fun hsealed => ?_⟩
    by_contra hne
    exact Graph.not_same_of_sealed hne hsealed hsame
  · refine equates_of_decides (fun x y => ht.equalArguments_iff h r₁)
      (fun x y => hu.equalArguments_iff h r₂) (fun x y => hv.equalArguments_iff h r₃)
      (fun x => .refl fun n _ => .self n) (fun x y hxy => ?_) fun x y z hxy hyz => ?_
    · exact hxy.swap.imp fun d _ c _ hcd => hcd.symm hg
    · refine (hxy.comp hyz).imp ?_
      rintro c - e - ⟨d, hcd, hde⟩
      exact hcd.trans hg hde

/-- Two lists of one list each, compared through the shared cache now and through a new one later;
    and NaN, which is equal to itself. -/
theorem equality_equivalence_nestedRun :
    Reachable .mixing .standard nestedRun.2 ∧
    nestedRun.2.Later (nestedRun.2.perform (.newCache 4)) ∧
    nestedRun.2.equal .shared 2 3 = (nestedRun.2.perform (.newCache 4)).equal (.pass 0) 3 2 ∧
    (nestedRun.2.equal .shared 2 3 = true →
      (nestedRun.2.perform (.newCache 4)).equal (.pass 0) 3 2 = true →
        nestedRun.2.equal .shared 2 2 = true) ∧
    nestedRun.2.equalArguments .shared (.float ⟨0x7FF8000000000000⟩) (.float ⟨0x7FF8000000000000⟩) =
      true := by
  have hlater : nestedRun.2.Later (nestedRun.2.perform (.newCache 4)) := .perform _ .refl trivial
  have hleft : (2 : NodeId) < nestedRun.2.graph.size := by decide
  have hright : (3 : NodeId) < nestedRun.2.graph.size := by decide
  obtain ⟨hnodes, -, harguments⟩ :=
    equality_equivalence reachable_nestedRun .refl hlater .refl .shared (.pass 0) .shared
  refine ⟨reachable_nestedRun, hlater, hnodes.symm 2 3 hleft hright,
    hnodes.trans 2 3 2 hleft hright hleft, harguments.refl _ ⟨trivial, ?_⟩⟩
  simp [Argument.nodes]

end Session

end ExprGraph
