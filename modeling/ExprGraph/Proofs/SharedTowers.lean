/-
  Shared towers — comparisons of what is built over and over.

  A tower over `n` goes up storey by storey: the sum of `n` and its negation, the sum of that and its
  negation, and so on.  Each storey has the one below in it twice, so there are exponentially many
  paths down, but a comparison takes each storey once.

  1. **Specification** — `Graph.Storey` and `Graph.TowerOn` say what a tower is, whoever built it.

  2. **One storey** — on the way down from two sums the bases are compared first, with a cache that
     has no outcomes still.  Then come the negations: they are missed, as nothing above the bases is
     stored, and the bases below them are hit.  So a storey costs two misses and one hit
     (`Costs.storey`), and `depth` storeys so many times that (`Costs.towers`).

  3. **Building** — the program builds towers over any living value (`exists_tower`), and as what it
     creates is new, the next tower has nothing in common with this one (`exists_towers`).

  4. **Ground** — two sums of two fields each make three path pairs (`misses_of_sums`).

  5. **Result** — the towers that are built cost what was measured at the ground, and two misses and
     one hit for each storey.
-/
import ExprGraph.Proofs.Acceptance
import ExprGraph.Proofs.Costs
import ExprGraph.Session.Towers

namespace ExprGraph

/-! ## The specification -/

namespace Graph

/-- **A storey** over `n`: its negation `k`, and the sum `m` of the two. -/
structure Storey (g : Graph) (n k m : NodeId) : Prop where
  negation_kind : g.kind k = .unary .negate
  negation_arguments : g.arguments k = [.node n]
  sum_kind : g.kind m = .binary .add
  sum_arguments : g.arguments m = [.node n, .node k]

/-- **A tower** over `n` that ends in `top`, and the nodes that it consists of, from the ground up. -/
inductive TowerOn (g : Graph) : NodeId → Nat → List NodeId → NodeId → Prop where
  | ground (n : NodeId) : TowerOn g n 0 [] n
  | storey {n k m top : NodeId} {depth : Nat} {created : List NodeId} : g.Storey n k m →
      TowerOn g m depth created top → TowerOn g n (depth + 1) (k :: m :: created) top

variable {g : Graph} {H : Hasher} {a b k k' m m' n n' : NodeId}

/-- Identities that were never given out read as lists. -/
theorem lt_size_of_kind (h : g.kind n ≠ .list) : n < g.size := by
  by_contra hn
  rw [kind, operation_of_size_le (Nat.not_lt.1 hn)] at h
  exact h rfl

namespace Storey

theorem negation_lt (h : g.Storey n k m) : k < g.size :=
  lt_size_of_kind (by rw [h.negation_kind]; decide)

theorem sum_lt (h : g.Storey n k m) : m < g.size :=
  lt_size_of_kind (by rw [h.sum_kind]; decide)

theorem lt_negation (hg : g.Built H) (h : g.Storey n k m) : n < k :=
  hg.lt_of_node_mem (by rw [h.negation_arguments]; exact List.mem_cons_self)

theorem lt_sum (hg : g.Built H) (h : g.Storey n k m) : n < m :=
  hg.lt_of_node_mem (by rw [h.sum_arguments]; exact List.mem_cons_self)

theorem negation_lt_sum (hg : g.Built H) (h : g.Storey n k m) : k < m :=
  hg.lt_of_node_mem (by rw [h.sum_arguments]; exact List.mem_cons_of_mem _ List.mem_cons_self)

theorem same_negation (h : g.Storey n k m) (h' : g.Storey n' k' m') (hn : g.Same n n') :
    g.Same k k' := by
  refine .contents (h.negation_kind.trans h'.negation_kind.symm) ?_ ?_
  · rw [h.negation_kind]
    decide
  · rw [h.negation_arguments, h'.negation_arguments]
    exact .cons (.node hn) .nil

theorem same_sum (h : g.Storey n k m) (h' : g.Storey n' k' m') (hn : g.Same n n') :
    g.Same m m' := by
  refine .contents (h.sum_kind.trans h'.sum_kind.symm) ?_ ?_
  · rw [h.sum_kind]
    decide
  · rw [h.sum_arguments, h'.sum_arguments]
    exact .cons (.node hn) (.cons (.node (h.same_negation h' hn)) .nil)

end Storey

end Graph

/-! ## One storey -/

namespace PairCache

variable {g : Graph} {H : Hasher} {a b k k' m m' : NodeId} {misses hits : Nat}

/-- Same nodes do not differ at first sight. -/
theorem not_differ_of_same (hg : g.Built H) (ha : a < g.size) (hb : b < g.size)
    (h : g.Same a b) : ¬ (g.digest a ≠ g.digest b ∨ g.kind a ≠ g.kind b) := by
  rw [not_or, not_not, not_not]
  exact ⟨h.digest_eq hg ha hb, h.kind_eq⟩

/-- Behind a yes the second comparison goes on. -/
theorem run_andThen_of_yes {x y : Recorded Bool} {before after : PairCache × List CacheStep}
    (h : x.run before = (true, after)) : (Argument.andThen x y).run before = y.run after := by
  simp only [Argument.andThen, StateT.run_bind]
  rw [h]
  rfl

/-- Nodes of two members each are compared by the first ones, and then by the second ones. -/
theorem recordContentsM_of_two {x y u v : NodeId} (hs : g.kind a ≠ .sealed)
    (hleft : g.arguments a = [.node x, .node u]) (hright : g.arguments b = [.node y, .node v])
    (hx : x < a) (hu : u < a) :
    recordContentsM g a b = Argument.andThen (recordEqualM g x y) (recordEqualM g u v) := by
  rw [recordContentsM_of_ne_sealed hs, hleft, hright]
  simp only [Argument.tuplesEqualM, List.length_cons, List.length_nil, if_true,
    Argument.itemsEqualM, Argument.equalM, dif_pos hx, dif_pos hu]
  exact congrArg (Argument.andThen (recordEqualM g x y))
    (Argument.andThen_pure_true (recordEqualM g u v))

/-- **The cache behind the comparison** has the pairs that paths lead to, and no others. -/
theorem Costs.gains (hg : g.Built H) (h : Costs g a b misses hits) {c later : PairCache}
    {past record : List CacheStep} (hc : ∀ p, c.lookup p = none)
    (hrun : (recordEqualM g a b).run (c, past) = (true, (later, record))) :
    c.Gains later (g.PathPair a b) := by
  have herased := recordEqualM_erases g a b c past
  rw [hrun] at herased
  have hgains := (equalM_gains hg (Graph.coherent_of_empty hc) h.left_lt h.right_lt h.ne h.same).2
  rw [← herased] at hgains
  exact hgains

/-- Nothing is known of a pair above the two nodes. -/
theorem Gains.lookup_above (hg : g.Built H) {c later : PairCache} (hc : ∀ p, c.lookup p = none)
    (h : c.Gains later (g.PathPair a b)) (ha : a < k) (hb : b < k') :
    later.lookup (.of k k') = none := by
  rw [Option.eq_none_iff_forall_ne_some]
  intro outcome hfound
  rcases (h.lookup _ _).1 hfound with hbefore | ⟨⟨x, y, hxy, -, hpair⟩, -⟩
  · rw [hc] at hbefore
    cases hbefore
  · have hx := Nat.lt_of_le_of_lt (hg.le_of_reaches hxy.reaches.1) ha
    have hy := Nat.lt_of_le_of_lt (hg.le_of_reaches hxy.reaches.2) hb
    exact Pair.of_ne_of_lt hx hy hpair

/-- The negations of two nodes that are stored as equal: one miss, and a hit below. -/
theorem recordEqualM_run_of_negations (hg : g.Built H) (h : Costs g a b misses hits)
    (hleft : g.Storey a k m) (hright : g.Storey b k' m') (hk : k ≠ k') {c : PairCache}
    (past : List CacheStep) (hunknown : c.lookup (.of k k') = none)
    (hstored : c.lookup (.of a b) = some true) :
    (recordEqualM g k k').run (c, past) =
      (true, (((c.noteMiss (.of k k')).noteHit (.of a b)).store k k' true,
        past ++ [.miss (.of k k'), .hit (.of a b), .store k k' true])) := by
  have hnegations := hleft.same_negation hright h.same
  have hdigest := hnegations.digest_eq hg hleft.negation_lt hright.negation_lt
  have hsealed : g.kind k ≠ .sealed := by
    rw [hleft.negation_kind]
    decide
  have hhit : (recordEqualM g a b).run (c.noteMiss (.of k k'), past ++ [.miss (.of k k')]) =
      (true, ((c.noteMiss (.of k k')).noteHit (.of a b),
        past ++ [.miss (.of k k')] ++ [.hit (.of a b)])) :=
    recordEqualM_run_of_hit h.ne (not_differ_of_same hg h.left_lt h.right_lt h.same) hstored
  rw [recordEqualM_run_of_single hk ⟨hdigest, hnegations.kind_eq⟩ hsealed hleft.negation_arguments
    hright.negation_arguments (hleft.lt_negation hg) hunknown, hhit]
  simp only [List.append_assoc, List.cons_append, List.nil_append]

/-- **A storey costs two misses and one hit**, above what it costs to compare the bases. -/
theorem Costs.storey (hg : g.Built H) (h : Costs g a b misses hits) (hleft : g.Storey a k m)
    (hright : g.Storey b k' m') (hk : k ≠ k') (hm : m ≠ m') :
    Costs g m m' (misses + 2) (hits + 1) := by
  have hsums := hleft.same_sum hright h.same
  refine ⟨hleft.sum_lt, hright.sum_lt, hm, hsums, fun c past hc => ?_⟩
  -- first the bases, as from a cache without outcomes
  have hc' : ∀ p, (c.noteMiss (.of m m')).lookup p = none := hc
  obtain ⟨later, steps, hrun, hmisses, hhits⟩ := h.run _ (past ++ [.miss (.of m m')]) hc'
  have hgains := h.gains hg hc' hrun
  -- then the negations, above all that is stored by now
  have hunknown : later.lookup (.of k k') = none :=
    hgains.lookup_above hg hc' (hleft.lt_negation hg) (hright.lt_negation hg)
  have hstored : later.lookup (.of a b) = some true :=
    (hgains.lookup _ _).2 (Or.inr ⟨⟨a, b, .refl g a b, h.ne, rfl⟩, rfl⟩)
  have hnegations := recordEqualM_run_of_negations hg h hleft hright hk
    (past ++ [.miss (.of m m')] ++ steps) hunknown hstored
  have hsum : recordContentsM g m m' =
      Argument.andThen (recordEqualM g a b) (recordEqualM g k k') := by
    refine recordContentsM_of_two ?_ hleft.sum_arguments hright.sum_arguments (hleft.lt_sum hg)
      (hleft.negation_lt_sum hg)
    rw [hleft.sum_kind]
    decide
  have hcontents := (run_andThen_of_yes (y := recordEqualM g k k') hrun).trans hnegations
  rw [recordEqualM_run_of_miss hm (not_differ_of_same hg hleft.sum_lt hright.sum_lt hsums) (hc _),
    hsum, hcontents]
  let behind := (((later.noteMiss (.of k k')).noteHit (.of a b)).store k k' true).store m m' true
  refine ⟨behind, .miss (.of m m') :: (steps ++ [.miss (.of k k'), .hit (.of a b),
    .store k k' true, .store m m' true]), ?_, ?_, ?_⟩
  · simp only [List.append_assoc, List.cons_append, List.nil_append]
    rfl
  · rw [missedPairs_miss, missedPairs_append, List.length_cons, List.length_append, hmisses]
    rfl
  · show (hitPairs (steps ++ _)).length = _
    rw [hitPairs_append, List.length_append, hhits]
    rfl

/-- **Towers cost as many times that as they have storeys**, if they have no node in common. -/
theorem Costs.towers (hg : g.Built H) {n n' top top' : NodeId} {depth : Nat}
    {created created' : List NodeId} (h : Costs g n n' misses hits)
    (hleft : g.TowerOn n depth created top) (hright : g.TowerOn n' depth created' top')
    (hapart : ∀ k ∈ created, k ∉ created') :
    Costs g top top' (misses + 2 * depth) (hits + depth) := by
  induction hleft generalizing n' created' misses hits with
  | ground n =>
    cases hright
    exact h
  | @storey n k m top depth created hstorey _ ih =>
    cases hright with
    | @storey _ k' m' _ _ created' hstorey' hrest' =>
      obtain ⟨hk, hrest⟩ := List.forall_mem_cons.1 hapart
      obtain ⟨hm, hrest⟩ := List.forall_mem_cons.1 hrest
      have hk : k ≠ k' := by
        rintro rfl
        exact hk List.mem_cons_self
      have hm : m ≠ m' := by
        rintro rfl
        exact hm (List.mem_cons_of_mem k' List.mem_cons_self)
      have htop := ih (h.storey hg hstorey hstorey' hk hm) hrest' fun x hx hx' =>
        hrest x hx (List.mem_cons_of_mem k' (List.mem_cons_of_mem m' hx'))
      have hmisses : misses + 2 * (depth + 1) = misses + 2 + 2 * depth := by omega
      have hhits : hits + (depth + 1) = hits + 1 + depth := by omega
      rw [hmisses, hhits]
      exact htop

end PairCache

/-! ## Building -/

namespace Session

open PairCache

variable {H : Hasher} {picker : ShardPicker} {s t : Session} {n n' k m top : NodeId}

/-- Storeys stay what they are. -/
theorem Later.storey (ht : s.Later t) (hs : Reachable H picker s) (h : s.graph.Storey n k m) :
    t.graph.Storey n k m where
  negation_kind := (ht.kind_eq hs h.negation_lt).trans h.negation_kind
  negation_arguments := (ht.arguments_eq hs h.negation_lt).trans h.negation_arguments
  sum_kind := (ht.kind_eq hs h.sum_lt).trans h.sum_kind
  sum_arguments := (ht.arguments_eq hs h.sum_lt).trans h.sum_arguments

theorem Later.towerOn (ht : s.Later t) (hs : Reachable H picker s) {depth : Nat}
    {created : List NodeId} (h : s.graph.TowerOn n depth created top) :
    t.graph.TowerOn n depth created top := by
  induction h with
  | ground n => exact .ground n
  | storey hstorey _ ih => exact .storey (ht.storey hs hstorey) ih

/-- **What fits is created**: it takes the next identity, is alive, and nothing dies. -/
theorem exists_build (h : Reachable H picker s) {kind : Kind} {args : List Argument}
    (hargs : s.permits (.create kind args)) (hfits : s.graph.Fits kind args) :
    ∃ t, s.build (Operation.ofArguments s.graph kind args) = .ok (s.graph.size, t) ∧ s.Later t ∧
      t.graph.kind s.graph.size = kind ∧ t.graph.arguments s.graph.size = args ∧
      ∀ x, x = s.graph.size ∨ s.isAlive x = true → t.isAlive x = true := by
  obtain ⟨op, hop⟩ := exists_ofArguments_eq_ok_iff.2 hfits
  have hbuild : s.build (Operation.ofArguments s.graph kind args) = .ok (s.insert op) := by
    rw [hop]
    rfl
  have hperform : s.perform (.create kind args) = (s.insert op).2 := by
    rw [perform, hbuild]
  obtain ⟨hlater, hlt, hkind, harguments⟩ := build_spec hargs hbuild
  refine ⟨_, hbuild, hlater, hkind, harguments, fun x hx => ?_⟩
  have halive := (isAlive_perform h.consistent hargs x).2
  rw [hperform] at halive
  refine halive.2 (hx.symm.imp (fun hx => ⟨hx, List.not_mem_nil⟩) ?_)
  rintro rfl
  exact ⟨Nat.le_refl _, hlt⟩

/-- **One storey is built** over a living value, and its sum is a living value again. -/
theorem exists_storey (h : Reachable H picker s) (hn : s.isAlive n = true)
    (hvalue : (s.graph.kind n).isValue = true) : ∃ k m middle t,
    s.build (Operation.unaryOf s.graph .negate n) = .ok (k, middle) ∧
      middle.build (Operation.binaryOf middle.graph .add n k) = .ok (m, t) ∧ s.Later t ∧
      t.graph.Storey n k m ∧ s.graph.size ≤ k ∧ k < m ∧
      ∀ x, x = m ∨ s.isAlive x = true → t.isAlive x = true := by
  have hlt := h.consistent.tallied.lt_size hn
  have hfits : s.graph.Fits (.unary .negate) [.node n] := .cons hvalue .nil
  obtain ⟨middle, hnegate, hmiddle, hkind, hargs, halive⟩ :=
    exists_build h (List.forall_mem_singleton.2 (usable_node hn)) hfits
  have hreachable := hmiddle.reachable h
  have hvalues : (middle.graph.kind n).isValue = true ∧
      (middle.graph.kind s.graph.size).isValue = true := by
    rw [hmiddle.kind_eq h hlt, hkind]
    exact ⟨hvalue, rfl⟩
  have hfits' : middle.graph.Fits (.binary .add) [.node n, .node s.graph.size] :=
    .cons hvalues.1 (.cons hvalues.2 .nil)
  have husable : ∀ x ∈ [Argument.node n, .node s.graph.size], middle.Usable x :=
    List.forall_mem_cons.2 ⟨usable_node (halive n (Or.inr hn)),
      List.forall_mem_singleton.2 (usable_node (halive _ (Or.inl rfl)))⟩
  obtain ⟨t, hadd, ht, hkind', hargs', halive'⟩ := exists_build hreachable husable hfits'
  rw [Operation.ofArguments_unary] at hnegate
  rw [Operation.ofArguments_binary] at hadd
  have hnew : s.graph.size < middle.graph.size :=
    Graph.lt_size_of_kind (by rw [hkind]; decide)
  refine ⟨s.graph.size, middle.graph.size, middle, t, hnegate, hadd, hmiddle.trans ht, ⟨?_, ?_,
    hkind', hargs'⟩, Nat.le_refl _, hnew, fun x hx => halive' x (hx.imp_right fun hx => ?_)⟩
  · exact (ht.kind_eq hreachable hnew).trans hkind
  · exact (ht.arguments_eq hreachable hnew).trans hargs
  · exact halive x (Or.inr hx)

/-- **Towers are built** over any living value, of nodes that are new. -/
theorem exists_tower (h : Reachable H picker s) (hn : s.isAlive n = true)
    (hvalue : (s.graph.kind n).isValue = true) (depth : Nat) : ∃ T : Tower,
    s.tower depth n = .ok T ∧ s.Later T.session ∧
      T.session.graph.TowerOn n depth T.created T.top ∧
      (∀ x ∈ T.created, s.graph.size ≤ x ∧ x < T.session.graph.size) ∧
      ∀ x, s.isAlive x = true → T.session.isAlive x = true := by
  induction depth generalizing s n with
  | zero => exact ⟨⟨n, [], s⟩, rfl, .refl, .ground n, fun _ hx => absurd hx List.not_mem_nil,
      fun _ hx => hx⟩
  | succ depth ih =>
    obtain ⟨k, m, middle, t, hnegate, hadd, ht, hstorey, hk, hkm, halive⟩ :=
      exists_storey h hn hvalue
    have hreachable := ht.reachable h
    have hsum : (t.graph.kind m).isValue = true := by
      rw [hstorey.sum_kind]
      rfl
    obtain ⟨T, htower, hT, hon, hnew, halive'⟩ := ih hreachable (halive m (Or.inl rfl)) hsum
    have hsize := hT.size_le hreachable
    refine ⟨{ T with created := k :: m :: T.created }, ?_, ht.trans hT,
      .storey (hT.storey hreachable hstorey) hon, ?_, fun x hx => halive' x (halive x (Or.inr hx))⟩
    · rw [tower, hnegate]
      show (middle.build (Operation.binaryOf middle.graph .add n k) >>= _) = _
      rw [hadd]
      show (t.tower depth m >>= _) = _
      rw [htower]
      rfl
    · refine List.forall_mem_cons.2 ⟨⟨hk, ?_⟩, List.forall_mem_cons.2 ⟨⟨?_, ?_⟩, fun x hx => ?_⟩⟩
      · exact Nat.lt_of_lt_of_le hstorey.negation_lt hsize
      · exact Nat.le_trans hk (Nat.le_of_lt hkm)
      · exact Nat.lt_of_lt_of_le hstorey.sum_lt hsize
      · exact ⟨Nat.le_trans (ht.size_le h) (hnew x hx).1, (hnew x hx).2⟩

/-- **Two towers are built** one after the other, with no node in common. -/
theorem exists_towers (h : Reachable H picker s) (hleft : s.isAlive n = true)
    (hright : s.isAlive n' = true) (hvalue : (s.graph.kind n).isValue = true)
    (hvalue' : (s.graph.kind n').isValue = true) (depth : Nat) : ∃ T T' : Tower,
    s.tower depth n = .ok T ∧ T.session.tower depth n' = .ok T' ∧ s.Later T'.session ∧
      T'.session.graph.TowerOn n depth T.created T.top ∧
      T'.session.graph.TowerOn n' depth T'.created T'.top ∧ ∀ k ∈ T.created, k ∉ T'.created := by
  obtain ⟨T, htower, hT, hon, hnew, halive⟩ := exists_tower h hleft hvalue depth
  have hreachable := hT.reachable h
  have hvalue' : (T.session.graph.kind n').isValue = true := by
    rw [hT.kind_eq h (h.consistent.tallied.lt_size hright)]
    exact hvalue'
  obtain ⟨T', htower', hT', hon', hnew', -⟩ :=
    exists_tower hreachable (halive n' hright) hvalue' depth
  exact ⟨T, T', htower, htower', hT.trans hT', hT'.towerOn hreachable hon, hon', fun k hk hk' =>
    Nat.not_le_of_lt (hnew k hk).2 (hnew' k hk').1⟩

end Session

/-! ## Ground -/

/-- A sum of two fields. -/
structure Graph.SumOfFields (g : Graph) (n x y : NodeId) : Prop where
  kind : g.kind n = .binary .add
  arguments : g.arguments n = [.node x, .node y]
  left : g.kind x = .field
  right : g.kind y = .field

namespace Graph

variable {g : Graph} {H : Hasher} {n n' x x' y y' : NodeId} {p : Pair}

/-- From two sums of fields, paths lead to the sums, to the left fields and to the right ones. -/
theorem SumOfFields.pathPair_iff (hn : n ≠ n') (hx : x ≠ x') (hy : y ≠ y')
    (h : g.SumOfFields n x y) (h' : g.SumOfFields n' x' y') :
    g.PathPair n n' p ↔ p ∈ [Pair.of n n', .of x x', .of y y'] := by
  have hleft : ∀ {place c}, g.nodeAt? n place = some c ↔
      ∃ i, place = [.item i] ∧ [x, y][i]? = some c := nodeAt?_of_nodes h.arguments
  have hright : ∀ {place c}, g.nodeAt? n' place = some c ↔
      ∃ i, place = [.item i] ∧ [x', y'][i]? = some c := nodeAt?_of_nodes h'.arguments
  have hxs : g.PathPair x x' p ↔ p = .of x x' := pathPair_of_leaf (children_of_field h.left) hx
  have hys : g.PathPair y y' p ↔ p = .of y y' := pathPair_of_leaf (children_of_field h.right) hy
  rw [Graph.pathPair_iff hn, List.mem_cons, List.mem_pair, ← hxs, ← hys]
  refine or_congr_right ⟨?_, ?_⟩
  · rintro ⟨place, c, d, hc, hd, hp⟩
    obtain ⟨i, rfl, hmember⟩ := hleft.1 hc
    obtain ⟨j, hij, hmember'⟩ := hright.1 hd
    cases hij
    rcases i with _ | _ | i
    · cases hmember
      cases hmember'
      exact Or.inl hp
    · cases hmember
      cases hmember'
      exact Or.inr hp
    · cases hmember
  · rintro (hp | hp)
    · exact ⟨[.item 0], x, x', hleft.2 ⟨0, rfl, rfl⟩, hright.2 ⟨0, rfl, rfl⟩, hp⟩
    · exact ⟨[.item 1], y, y', hleft.2 ⟨1, rfl, rfl⟩, hright.2 ⟨1, rfl, rfl⟩, hp⟩

end Graph

namespace Session

open PairCache

variable {H : Hasher} {picker : ShardPicker} {s : Session} {n n' x x' y y' : NodeId}

/-- **Two sums of fields cost three misses**: one for the sums, and one for each side. -/
theorem misses_of_sums (h : Reachable H picker s) (hn : n ≠ n') (hsame : s.graph.Same n n')
    (hsum : s.graph.SumOfFields n x y) (hsum' : s.graph.SumOfFields n' x' y')
    (hapart : [x, y, x', y'].Nodup) (shards : Nat) :
    (s.compareAfresh shards n n').2.misses = 3 := by
  have hg := h.consistent.built
  have hlt := Graph.lt_size_of_kind (g := s.graph) (n := n) (by rw [hsum.kind]; decide)
  have hlt' := Graph.lt_size_of_kind (g := s.graph) (n := n') (by rw [hsum'.kind]; decide)
  obtain ⟨⟨hxy, hx, hxy'⟩, ⟨-, hy⟩, -⟩ :
      (x ≠ y ∧ x ≠ x' ∧ x ≠ y') ∧ (y ≠ x' ∧ y ≠ y') ∧ x' ≠ y' := by
    simpa using hapart
  have hleft : ∀ z ∈ [x, y], z < n := fun z hz => hg.lt_of_node_mem (by
    rw [hsum.arguments]
    exact List.mem_map_of_mem hz)
  have hright : ∀ z ∈ [x', y'], z < n' := fun z hz => hg.lt_of_node_mem (by
    rw [hsum'.arguments]
    exact List.mem_map_of_mem hz)
  have hnodup : [Pair.of n n', .of x x', .of y y'].Nodup := by
    have hxs : Pair.of n n' ≠ .of x x' := Pair.of_ne_of_lt (hleft x (by simp)) (hright x' (by simp))
    have hys : Pair.of n n' ≠ .of y y' := Pair.of_ne_of_lt (hleft y (by simp)) (hright y' (by simp))
    have hfields : Pair.of x x' ≠ .of y y' := by
      intro hpair
      rcases Pair.of_eq_iff.1 hpair with ⟨heq, -⟩ | ⟨heq, -⟩
      · exact hxy heq
      · exact hxy' heq
    simp [hxs, hys, hfields]
  exact misses_of_pathPairs h hlt hlt' hn hsame hnodup
    (fun p => (hsum.pathPair_iff hn hx hy hsum').symm) shards

/-- **Towers are compared in linear time.**  Two distinct living values with equal digests, one of
    which leads to no sealed node, cost some misses and hits with a new cache of their own.  Two
    towers over them with no node in common are equal, whenever and with whatever in between they
    were built, and cost two misses and one hit more for each storey; there is one entry for each
    miss.  The program builds such towers of every depth.  Two sums of two fields each, all of them
    apart, cost three misses, so the towers over them leave three entries and two for each storey. -/
theorem towers_compared_linearly (h : Reachable H picker s) (hi : s.graph.Ideal)
    (hleft : s.isAlive n = true) (hright : s.isAlive n' = true)
    (hvalue : (s.graph.kind n).isValue = true) (hn : n ≠ n')
    (hdigest : s.graph.digest n = s.graph.digest n')
    (hunsealed : (∀ m, s.graph.Reaches n m → s.graph.kind m ≠ .sealed) ∨
      ∀ m, s.graph.Reaches n' m → s.graph.kind m ≠ .sealed) (shards : Nat) :
    let base := (s.compareAfresh shards n n').2
    let costs (depth : Nat) : CacheStats :=
      ⟨base.hits + depth, base.misses + 2 * depth, 0, base.misses + 2 * depth⟩
    (∀ t, s.Later t → ∀ depth created created' top top', t.graph.TowerOn n depth created top →
      t.graph.TowerOn n' depth created' top' → (∀ k ∈ created, k ∉ created') →
        ∀ shards', t.compareAfresh shards' top top' = (true, costs depth)) ∧
    (∀ depth, ∃ T T' : Tower, s.tower depth n = .ok T ∧ T.session.tower depth n' = .ok T' ∧
      s.Later T'.session ∧ T'.session.graph.TowerOn n depth T.created T.top ∧
      T'.session.graph.TowerOn n' depth T'.created T'.top ∧ (∀ k ∈ T.created, k ∉ T'.created) ∧
      ∀ shards', T'.session.compareAfresh shards' T.top T'.top = (true, costs depth)) ∧
    ∀ x y x' y', s.graph.SumOfFields n x y → s.graph.SumOfFields n' x' y' →
      [x, y, x', y'].Nodup → base.misses = 3 := by
  intro base costs
  have hg := h.consistent.built
  have hlt := h.consistent.tallied.lt_size hleft
  have hlt' := h.consistent.tallied.lt_size hright
  have hsame := hi.same_of_unsealed hg hlt hlt' hdigest hunsealed
  have hlinear : ∀ t, s.Later t → ∀ depth created created' top top',
      t.graph.TowerOn n depth created top → t.graph.TowerOn n' depth created' top' →
      (∀ k ∈ created, k ∉ created') →
      ∀ shards', t.compareAfresh shards' top top' = (true, costs depth) := by
    intro t ht depth created created' top top' hon hon' hapart shards'
    have ht' := ht.reachable h
    have hbase := costs_of_compareAfresh h hlt hlt' hn hsame ht shards
    exact (hbase.towers ht'.consistent.built hon hon' hapart).compareAfresh ht' shards'
  refine ⟨hlinear, fun depth => ?_, fun x y x' y' hsum hsum' hapart =>
    misses_of_sums h hn hsame hsum hsum' hapart shards⟩
  have hvalue' : (s.graph.kind n').isValue = true := by
    rw [← hsame.kind_eq]
    exact hvalue
  obtain ⟨T, T', htower, htower', hlater, hon, hon', hapart⟩ :=
    exists_towers h hleft hright hvalue hvalue' depth
  exact ⟨T, T', htower, htower', hlater, hon, hon', hapart,
    hlinear T'.session hlater depth T.created T'.created T.top T'.top hon hon' hapart⟩

/-- The sum of two columns. -/
def columnSum (left right : NodeId) : Operation :=
  .binary .add { (⟨.columnar, .int64⟩ : Value) with node := left }
    { (⟨.columnar, .int64⟩ : Value) with node := right }

/-- Two columns of one name, two of another, and the sums across the names. -/
def twinSums : Session :=
  let s := (twinFields.insert (.field "y" .int64 .columnar)).2
  let s := (s.insert (.field "y" .int64 .columnar)).2
  let s := (s.insert (columnSum 0 2)).2
  (s.insert (columnSum 1 3)).2

theorem ofArguments_columnSum {g : Graph} {left right : NodeId} {name name' : String}
    (hleft : g.kind left = .field) (hright : g.kind right = .field)
    (hargs : g.arguments left = [.text name, .dataType .int64, .shape .columnar])
    (hargs' : g.arguments right = [.text name', .dataType .int64, .shape .columnar]) :
    Operation.ofArguments g (.binary .add) [.node left, .node right] =
      .ok (columnSum left right) := by
  rw [Operation.ofArguments_binary, Operation.binaryOf, Graph.operand, Graph.operand,
    Graph.value?_of_field hleft hargs, Graph.value?_of_field hright hargs']
  rfl

theorem reachable_twinSums : Reachable .mixing .standard twinSums := by
  have hfield : ∀ t : Session, t.permits
      (.create .field [.text "y", .dataType .int64, .shape .columnar]) := by
    simp [permits, Usable, Argument.WellFormed, Argument.nodes]
  have hsum : ∀ {t : Session} {left right : NodeId}, t.isAlive left = true →
      t.isAlive right = true → t.permits (.create (.binary .add) [.node left, .node right]) :=
    fun hleft hright => List.forall_mem_cons.2
      ⟨usable_node hleft, List.forall_mem_singleton.2 (usable_node hright)⟩
  have hthree : Reachable .mixing .standard _ :=
    reachable_twinFields.insert .field _ (hfield _) rfl
  have hfour : Reachable .mixing .standard _ := hthree.insert .field _ (hfield _) rfl
  have hfirst := hfour.insert (.binary .add) [.node 0, .node 2] (hsum rfl rfl)
    (ofArguments_columnSum rfl rfl rfl rfl)
  exact hfirst.insert (.binary .add) [.node 1, .node 3] (hsum rfl rfl)
    (ofArguments_columnSum rfl rfl rfl rfl)

/-- The hasher of running programs makes no collision among the sums. -/
theorem ideal_twinSums : twinSums.graph.Ideal :=
  (Graph.ideal_iff_check reachable_twinSums.consistent.built.wellFormed).2 (by decide +kernel)

/-- Towers of depth ten over the two sums have more than a thousand paths down, and leave
    twenty-three entries. -/
theorem towers_compared_linearly_twinSums :
    Reachable .mixing .standard twinSums ∧ twinSums.graph.Ideal ∧
    twinSums.graph.digest 4 = twinSums.graph.digest 5 ∧
    (twinSums.compareAfresh 16 4 5).2.misses = 3 ∧
    ∃ T T' : Tower, twinSums.tower 10 4 = .ok T ∧ T.session.tower 10 5 = .ok T' ∧
      T'.session.compareAfresh 16 T.top T'.top =
        (true, ⟨(twinSums.compareAfresh 16 4 5).2.hits + 10, 23, 0, 23⟩) := by
  have hunsealed : ∀ m, twinSums.graph.Reaches 4 m → twinSums.graph.kind m ≠ .sealed :=
    reachable_twinSums.consistent.built.unsealed_of_le (by decide)
  have hdigest : twinSums.graph.digest 4 = twinSums.graph.digest 5 := rfl
  have hleft : twinSums.isAlive 4 = true := rfl
  have hright : twinSums.isAlive 5 = true := rfl
  obtain ⟨-, hbuilt, hground⟩ := towers_compared_linearly reachable_twinSums ideal_twinSums
    hleft hright rfl (by decide) hdigest (Or.inl hunsealed) 16
  have hmisses := hground 0 2 1 3 ⟨rfl, rfl, rfl, rfl⟩ ⟨rfl, rfl, rfl, rfl⟩ (by decide)
  obtain ⟨T, T', htower, htower', -, -, -, -, hcosts⟩ := hbuilt 10
  have hcosts := hcosts 16
  rw [hmisses] at hcosts
  exact ⟨reachable_twinSums, ideal_twinSums, hdigest, hmisses, T, T', htower, htower', hcosts⟩

end Session

end ExprGraph
