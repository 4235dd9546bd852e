/-
  Substitution — equal arguments may replace each other in construction.

  A comparison takes two tuples as they are.  Construction is more particular: it asks for forms, it
  asks whether a node is a value, and when it refuses it names forms and kinds.  All the same it
  cannot tell equal tuples apart, so a pass may rebuild a node over equal arguments at any time, and
  knows beforehand how that ends.

  1. **Outcomes** — `SameOutcome x y`: both are accepted, or both are refused with one error.

  2. **Rules** — a rule looks at forms, values and names of kinds.  Where the nodes of two tuples
     read alike (`Graph.ReadsAs`, perhaps in two graphs), construction has the same outcome
     (`ofArguments_sameOutcome`).

  3. **Result** — same nodes read alike, now and later.  Accepted operations are spelled by the
     tuples they were built from, so the two nodes are the same again: equal in every cache from
     then on, and with equal digests.
-/
import ExprGraph.Proofs.Indistinguishable

namespace ExprGraph

/-! ## Outcomes -/

/-- **Both are accepted, or both are refused with one error.** -/
inductive SameOutcome {ε α β : Type} : Except ε α → Except ε β → Prop where
  | ok (a : α) (b : β) : SameOutcome (.ok a) (.ok b)
  | error (e : ε) : SameOutcome (.error e) (.error e)

/-- Two sequences of steps with the same outcomes. -/
theorem SameOutcome.bind {ε α β γ δ : Type} {x : Except ε α} {y : Except ε β}
    {f : α → Except ε γ} {k : β → Except ε δ} (h : SameOutcome x y)
    (hnext : ∀ a b, SameOutcome (f a) (k b)) : SameOutcome (x >>= f) (y >>= k) := by
  cases h with
  | ok a b => exact hnext a b
  | error e => exact .error e

theorem SameOutcome.exists_ok {ε α β : Type} {y : Except ε β} {a : α}
    (h : SameOutcome (.ok a) y) : ∃ b, y = .ok b := by
  cases h with
  | ok _ b => exact ⟨b, rfl⟩

theorem SameOutcome.eq_error {ε α β : Type} {y : Except ε β} {e : ε}
    (h : SameOutcome (.error e : Except ε α) y) : y = .error e := by
  cases h with
  | error _ => rfl

/-! ## Rules -/

/-- **Two nodes read alike**: rules see the same value, and messages the same name. -/
def Graph.ReadsAs (g g' : Graph) (m n : NodeId) : Prop :=
  g.value? m = g'.value? n ∧ (g.kind m).name = (g'.kind n).name

section Rules

variable {R : NodeId → NodeId → Prop} {g g' : Graph} {x y : Argument} {xs ys : List Argument}

theorem Argument.Same.form_eq (h : Argument.Same R x y) : x.form = y.form := by
  cases h <;> rfl

/-- A rule that asks for a form has the same outcome on arguments of one form. -/
theorem fit_sameOutcome {α : Type} {kind field : String} {expected : Expected}
    {holds? : Argument → Option α} (hform : x.form = y.form)
    (h : (holds? x).isSome = (holds? y).isSome) :
    SameOutcome (x.fit kind field expected holds?) (y.fit kind field expected holds?) := by
  rw [Argument.fit, Argument.fit, hform]
  cases hx : holds? x with
  | some v =>
    cases hy : holds? y with
    | some w => exact .ok v w
    | none =>
      rw [hx, hy] at h
      cases h
  | none =>
    cases hy : holds? y with
    | some w =>
      rw [hx, hy] at h
      cases h
    | none => exact .error _

theorem operand_sameOutcome {kind field : String} {m n : NodeId} (h : g.ReadsAs g' m n) :
    SameOutcome (g.operand kind field m) (g'.operand kind field n) := by
  rw [Graph.operand, Graph.operand, h.1, h.2]
  cases g'.value? n with
  | some v => exact .ok _ _
  | none => exact .error _

theorem valueFor_sameOutcome {kind field : String} (h : Argument.Same (g.ReadsAs g') x y) :
    SameOutcome (g.valueFor kind field x) (g'.valueFor kind field y) := by
  cases h with
  | node h => exact operand_sameOutcome h
  | _ => exact .error _

theorem nodesFrom_sameOutcome {kind field : String} (h : List.Forall₂ (Argument.Same R) xs ys)
    (index : Nat) :
    SameOutcome (nodesFrom kind field index xs) (nodesFrom kind field index ys) := by
  induction h generalizing index with
  | nil => exact .ok _ _
  | cons hxy _ ih =>
    cases hxy with
    | node _ => exact (ih (index + 1)).bind fun _ _ => .ok _ _
    | _ => exact .error _

/-- **Construction has the same outcome** over arguments whose nodes read alike. -/
theorem ofArguments_sameOutcome (kind : Kind)
    (h : List.Forall₂ (Argument.Same (g.ReadsAs g')) xs ys) :
    SameOutcome (Operation.ofArguments g kind xs) (Operation.ofArguments g' kind ys) := by
  by_cases hcount : kind.fields ≠ [] ∧ xs.length ≠ kind.fields.length
  · have hcount' : ys.length ≠ kind.fields.length := h.length_eq ▸ hcount.2
    rw [Operation.ofArguments_of_length_ne g hcount.1 hcount.2,
      Operation.ofArguments_of_length_ne g' hcount.1 hcount', h.length_eq]
    exact .error _
  rw [not_and, not_not] at hcount
  have hcount' : kind.fields ≠ [] → ys.length = kind.fields.length := h.length_eq ▸ hcount
  -- one rule after the other, each on the two arguments at its position
  rw [Operation.ofArguments_eq_ofFields, Operation.ofArguments_eq_ofFields]
  cases kind with
  | field =>
    obtain ⟨x, y, z, rfl⟩ := List.length_eq_three.1 (hcount (List.cons_ne_nil _ _))
    obtain ⟨x', y', z', rfl⟩ := List.length_eq_three.1 (hcount' (List.cons_ne_nil _ _))
    simp only [List.forall₂_cons] at h
    obtain ⟨hx, hy, hz, -⟩ := h
    refine (fit_sameOutcome hx.form_eq (by cases hx <;> rfl)).bind fun name name' => ?_
    refine (fit_sameOutcome hy.form_eq (by cases hy <;> rfl)).bind fun t t' => ?_
    exact (fit_sameOutcome hz.form_eq (by cases hz <;> rfl)).bind fun s s' => .ok _ _
  | «alias» =>
    obtain ⟨x, y, rfl⟩ := List.length_eq_two.1 (hcount (List.cons_ne_nil _ _))
    obtain ⟨x', y', rfl⟩ := List.length_eq_two.1 (hcount' (List.cons_ne_nil _ _))
    simp only [List.forall₂_cons] at h
    obtain ⟨hx, hy, -⟩ := h
    refine (valueFor_sameOutcome hx).bind fun arg arg' => ?_
    exact (fit_sameOutcome hy.form_eq (by cases hy <;> rfl)).bind fun name name' => .ok _ _
  | unary op =>
    obtain ⟨x, rfl⟩ := List.length_eq_one_iff.1 (hcount (List.cons_ne_nil _ _))
    obtain ⟨x', rfl⟩ := List.length_eq_one_iff.1 (hcount' (List.cons_ne_nil _ _))
    obtain ⟨hx, -⟩ := List.forall₂_cons.1 h
    exact (valueFor_sameOutcome hx).bind fun arg arg' => .ok _ _
  | binary op =>
    obtain ⟨x, y, rfl⟩ := List.length_eq_two.1 (hcount (List.cons_ne_nil _ _))
    obtain ⟨x', y', rfl⟩ := List.length_eq_two.1 (hcount' (List.cons_ne_nil _ _))
    simp only [List.forall₂_cons] at h
    obtain ⟨hx, hy, -⟩ := h
    refine (valueFor_sameOutcome hx).bind fun left left' => ?_
    exact (valueFor_sameOutcome hy).bind fun right right' => .ok _ _
  | list => exact (nodesFrom_sameOutcome h 0).bind fun ns ms => .ok _ _
  | call => exact .ok _ _
  | sealed => exact .ok _ _

end Rules

/-! ## Sessions -/

namespace Session

variable {H : Hasher} {picker : ShardPicker} {s t : Session} {kind : Kind} {n : NodeId}
  {args xs ys : List Argument}

/-- **The outcome of one construction tells that of another**, which takes place over `args` at once
    or in any later state where they can be used.  If the first one is accepted, so is the second,
    and the two nodes have equal digests and are equal from then on, in every cache; if the first
    one is refused, the second is refused with the same error. -/
def Foretells (s : Session) (args : List Argument)
    (first second : Graph → Except GraphError Operation) : Prop :=
  (∀ a s₁, s.build (first s.graph) = .ok (a, s₁) → (∀ x ∈ args, s₁.Usable x) ∧
    ∀ t, s₁.Later t → (∀ x ∈ args, t.Usable x) → ∃ b t₁, t.build (second t.graph) = .ok (b, t₁) ∧
      t₁.graph.digest a = t₁.graph.digest b ∧
      ∀ u, t₁.Later u → ∀ ref, u.equal ref a b = true) ∧
  ∀ e, s.build (first s.graph) = .error e →
    ∀ t, s.Later t → t.build (second t.graph) = .error e

/-- **What an accepted construction adds**: a node of the kind, over the arguments. -/
theorem build_spec (hargs : s.permits (.create kind args))
    (hbuild : s.build (Operation.ofArguments s.graph kind args) = .ok (n, t)) :
    s.Later t ∧ n < t.graph.size ∧ t.graph.kind n = kind ∧ t.graph.arguments n = args := by
  have hlater : s.Later (s.perform (.create kind args)) := .perform _ .refl hargs
  have hperform : s.perform (.create kind args) = t := by
    rw [perform, hbuild]
  obtain ⟨op, hop, hinsert⟩ := ok_of_map hbuild
  cases hinsert
  obtain ⟨rfl, rfl⟩ := Operation.ofArguments_ok hop
  have hop : (s.graph.insert s.hasher op).2.operation s.graph.size = op :=
    Graph.operation_insert s.hasher s.graph op
  refine ⟨hperform ▸ hlater, ?_, ?_, ?_⟩
  · show s.graph.size < (s.graph.insert s.hasher op).2.size
    rw [Graph.size_insert]
    exact Nat.lt_succ_self _
  · show ((s.graph.insert s.hasher op).2.operation s.graph.size).kind = op.kind
    rw [hop]
  · show ((s.graph.insert s.hasher op).2.operation s.graph.size).arguments = op.arguments
    rw [hop]

/-- A creation takes nothing away that could be used. -/
theorem Usable.create (h : Consistent H s) (ha : s.permits (.create kind args)) {x : Argument}
    (hx : s.Usable x) : (s.perform (.create kind args)).Usable x := by
  refine ⟨hx.1, fun n hn => ((isAlive_perform h ha n).2).2 (Or.inl ⟨hx.2 n hn, ?_⟩)⟩
  exact List.not_mem_nil

/-- **Same nodes read alike**, now and later. -/
theorem readsAs_of_same (h : Reachable H picker s) (ht : s.Later t) {m : NodeId}
    (hn : n < s.graph.size) (hsame : s.graph.Same m n) : s.graph.ReadsAs t.graph m n := by
  constructor
  · rw [ht.value?_eq h hn]
    exact hsame.value?_eq h.consistent.built h.faithful
  · rw [hsame.kind_eq, ht.kind_eq h hn]

/-- **The nodes of two constructions** from arguments that were the same before are the same. -/
theorem same_of_build (h : Reachable H picker s) (hkind : kind ≠ .sealed)
    (hxs : s.permits (.create kind xs)) (hys : s.permits (.create kind ys))
    (hsame : List.Forall₂ (Argument.Same s.graph.Same) xs ys) {s₁ t₁ : Session} {a b : NodeId}
    (hleft : s.build (Operation.ofArguments s.graph kind xs) = .ok (a, s₁)) (ht : s₁.Later t)
    (hyst : t.permits (.create kind ys))
    (hright : t.build (Operation.ofArguments t.graph kind ys) = .ok (b, t₁)) :
    Reachable H picker t₁ ∧ a < t₁.graph.size ∧ b < t₁.graph.size ∧ t₁.graph.Same a b := by
  obtain ⟨hs₁, ha, hakind, haargs⟩ := build_spec hxs hleft
  obtain ⟨ht₁, hb, hbkind, hbargs⟩ := build_spec hyst hright
  -- the first node is still what it was built as
  have hreachable := hs₁.reachable h
  have hlater := ht.trans ht₁
  have hkinds : t₁.graph.kind a = kind := (hlater.kind_eq hreachable ha).trans hakind
  refine ⟨hlater.reachable hreachable, Nat.lt_of_lt_of_le ha (hlater.size_le hreachable), hb, ?_⟩
  refine .contents (hkinds.trans hbkind.symm) (hkinds ▸ hkind) ?_
  rw [hlater.arguments_eq hreachable ha, haargs, hbargs]
  refine Argument.forall₂_imp_of_mem hsame fun x hx y hy hxy => ?_
  have hx := (hxs x hx).known h.consistent
  have hy := (hys y hy).known h.consistent
  exact hxy.imp fun c hc d hd => ((hs₁.trans hlater).same_iff h (hx.2 c hc) (hy.2 d hd)).2

theorem build_sameOutcome (s t : Session) {x y : Except GraphError Operation}
    (h : SameOutcome x y) : SameOutcome (s.build x) (t.build y) := by
  cases h with
  | ok a b => exact .ok _ _
  | error e => exact .error e

/-- **Constructions from the same arguments** foretell one another. -/
theorem foretells_of_same (h : Reachable H picker s) (hkind : kind ≠ .sealed)
    (hxs : s.permits (.create kind xs)) (hys : s.permits (.create kind ys))
    (hsame : List.Forall₂ (Argument.Same s.graph.Same) xs ys)
    {first second : Graph → Except GraphError Operation}
    (hfirst : first s.graph = Operation.ofArguments s.graph kind xs)
    (hsecond : ∀ t, s.Later t → second t.graph = Operation.ofArguments t.graph kind ys) :
    s.Foretells ys first second := by
  have houtcome : ∀ t, s.Later t → SameOutcome (s.build (first s.graph))
      (t.build (second t.graph)) := by
    intro t ht
    rw [hfirst, hsecond t ht]
    refine build_sameOutcome s t (ofArguments_sameOutcome kind ?_)
    refine Argument.forall₂_imp_of_mem hsame fun x _ y hy hxy => hxy.imp fun m _ n hn => ?_
    exact readsAs_of_same h ht (((hys y hy).known h.consistent).2 n hn)
  refine ⟨fun a s₁ hleft => ?_, fun e hleft t ht => ?_⟩
  · have hleft' : s.build (Operation.ofArguments s.graph kind xs) = .ok (a, s₁) := hfirst ▸ hleft
    obtain ⟨hs₁, -⟩ := build_spec hxs hleft'
    refine ⟨fun y hy => ?_, fun t ht hyst => ?_⟩
    · have hperform : s.perform (.create kind xs) = s₁ := by
        rw [perform, hleft']
      exact hperform ▸ (hys y hy).create h.consistent hxs
    · have hout := houtcome t (hs₁.trans ht)
      rw [hleft] at hout
      obtain ⟨⟨b, t₁⟩, hright⟩ := hout.exists_ok
      obtain ⟨hreachable, ha, hb, hab⟩ := same_of_build h hkind hxs hys hsame hleft' ht hyst
        (hsecond t (hs₁.trans ht) ▸ hright)
      exact ⟨b, t₁, hright, hab.digest_eq hreachable.consistent.built ha hb,
        fun u hu ref => (hu.equal_iff hreachable ref ha hb).2 hab⟩
  · have hout := houtcome t ht
    rw [hleft] at hout
    exact hout.eq_error

/-- **Replacing equals by equals.**  Over argument tuples that some cache finds equal position by
    position, a construction from the one tells that from the other, for every kind but sealed
    nodes: for construction from a tuple, and for deriving from a node of the kind. -/
theorem equals_interchangeable (h : Reachable H picker s) (ref : CacheRef) (hkind : kind ≠ .sealed)
    (hxs : s.permits (.create kind xs)) (hys : s.permits (.create kind ys))
    (hequal : List.Forall₂ (fun x y => s.equalArguments ref x y = true) xs ys) :
    s.Foretells ys (fun g => Operation.ofArguments g kind xs)
      (fun g => Operation.ofArguments g kind ys) ∧
    ∀ n < s.graph.size, s.graph.kind n = kind →
      s.Foretells ys (fun g => g.derive n xs) (fun g => g.derive n ys) := by
  have hsame : List.Forall₂ (Argument.Same s.graph.Same) xs ys := by
    refine Argument.forall₂_imp_of_mem hequal fun x hx y hy hxy => ?_
    exact (Later.refl.equalArguments_iff h ref ((hxs x hx).known h.consistent)
      ((hys y hy).known h.consistent)).1 hxy
  refine ⟨foretells_of_same h hkind hxs hys hsame rfl fun _ _ => rfl, fun n hn hn' => ?_⟩
  refine foretells_of_same h hkind hxs hys hsame ?_ fun t ht => ?_
  · rw [Graph.derive, hn']
  · rw [Graph.derive, ht.kind_eq h hn, hn']

/-- The second renamed column, derived from the first one's arguments and then from its own. -/
theorem equals_interchangeable_twinColumns :
    Reachable .mixing .standard twinColumns ∧
    twinColumns.equalArguments .shared (.node 0) (.node 1) = true ∧
    ∃ a s b t,
      twinColumns.build (twinColumns.graph.derive 3 [.node 0, .text "a"]) = .ok (a, s) ∧
      s.build (s.graph.derive 3 [.node 1, .text "a"]) = .ok (b, t) ∧
      t.graph.digest a = t.graph.digest b ∧ t.equal .shared a b = true := by
  have hc := reachable_twinColumns.consistent
  have hxs : twinColumns.permits (.create .alias [.node 0, .text "a"]) := permits_renamedColumn rfl
  have hys : twinColumns.permits (.create .alias [.node 1, .text "a"]) := permits_renamedColumn rfl
  have hsame : List.Forall₂ (Argument.Same twinColumns.graph.Same) [.node 0, .text "a"]
      [.node 1, .text "a"] := .cons (.node same_twinFields) (.cons (.text _) .nil)
  have hequal := Argument.forall₂_imp_of_mem hsame fun x hx y hy hxy =>
    (Later.refl.equalArguments_iff reachable_twinColumns .shared ((hxs x hx).known hc)
      ((hys y hy).known hc)).2 hxy
  have hbuild : twinColumns.build (twinColumns.graph.derive 3 [.node 0, .text "a"]) =
      .ok (twinColumns.insert (renamedColumn 0)) := by
    show twinColumns.build (Operation.ofArguments twinColumns.graph .alias _) = _
    rw [ofArguments_renamedColumn rfl rfl]
    rfl
  obtain ⟨-, hderive⟩ := equals_interchangeable reachable_twinColumns .shared
    (show Kind.alias ≠ .sealed by decide) hxs hys hequal
  obtain ⟨husable, hlater⟩ := (hderive 3 (by decide) rfl).1 _ _ hbuild
  obtain ⟨b, t, hright, hdigest, hequals⟩ := hlater _ .refl husable
  exact ⟨reachable_twinColumns, (List.forall₂_cons.1 hequal).1, _, _, b, t, hbuild, hright, hdigest,
    hequals t .refl _⟩

end Session

end ExprGraph
