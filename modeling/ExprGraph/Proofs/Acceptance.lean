/-
  Acceptance — which argument tuples a kind accepts, and how the others are refused.

  Each kind reads its tuple in its own way, one argument after the other, and stops at the first one
  that does not fit.  A pass that holds plain tuples wants to know beforehand, for all kinds alike.

  1. **Specification** — a kind declares a rule for each argument (`Kind.rules`), and a rule admits
     an argument or not (`Graph.admits`); lists have one rule for all members, calls and sealed nodes
     admit anything.  A tuple fits if there are as many arguments as rules and each is admitted
     (`Graph.Fits`).  Else it is refused for its length, or in the name of the first argument that is
     not admitted (`Graph.Refuses`).

  2. **Check** — `Graph.checkFrom` holds the rules against a tuple, from left to right.  Construction
     ends as the check does, kind by kind (`ofArguments_sameOutcome_check`).

  3. **Result** — the check says yes exactly to what fits (`checkFrom_eq_ok_iff`), and otherwise
     names the first fault (`checkFrom_eq_error_iff`).
-/
import ExprGraph.Proofs.Substitution

namespace ExprGraph

/-! ## The specification -/

/-- **What a declared field accepts.** -/
inductive FieldRule where
  | any
  | text
  | textOrNone
  | dataType
  | shape
  | node
  | valueNode
  deriving DecidableEq

/-- **The rules of a kind**, in declared order, for a node with `count` arguments. -/
def Kind.rules (count : Nat) : Kind → List FieldRule
  | .field => [.text, .dataType, .shape]
  | .alias => [.valueNode, .textOrNone]
  | .unary _ => [.valueNode]
  | .binary _ => [.valueNode, .valueNode]
  | .list => List.replicate count .node
  | .call | .sealed => List.replicate count .any

/-- The name of an argument's place: its field, or its entry in the one field of a list. -/
def Kind.placeOf (i : Nat) : Kind → FieldPath
  | .list => .entry "values" i
  | kind => .named (kind.fields.getD i "")

/-- What a refusal says about an argument that a rule does not admit. -/
def FieldRule.complaint (g : Graph) : FieldRule → Argument → Expected × Found
  | .valueNode, .node n => (.valueNode, .node (g.kind n).name)
  | .valueNode, x => (.node, .form x.form)
  | .node, x => (.node, .form x.form)
  | .text, x => (.text, .form x.form)
  | .textOrNone, x => (.textOrNone, .form x.form)
  | .dataType, x => (.dataType, .form x.form)
  | .shape, x => (.shape, .form x.form)
  | .any, x => (.argument, .form x.form)

namespace Graph

/-- **Does a rule admit an argument?** -/
def admits (g : Graph) : FieldRule → Argument → Bool
  | .any, _ => true
  | .text, .text _ => true
  | .textOrNone, .text _ => true
  | .textOrNone, .none => true
  | .dataType, .dataType _ => true
  | .shape, .shape _ => true
  | .node, .node _ => true
  | .valueNode, .node n => (g.kind n).isValue
  | _, _ => false

/-- **A tuple fits a kind**: there is an argument for each rule, and the rule admits it. -/
def Fits (g : Graph) (kind : Kind) (args : List Argument) : Prop :=
  List.Forall₂ (fun rule x => g.admits rule x = true) (kind.rules args.length) args

/-- The first argument that is not admitted, and its rule, stand at `i`. -/
structure FirstFault (g : Graph) (rules : List FieldRule) (args : List Argument) (i : Nat)
    (rule : FieldRule) (x : Argument) : Prop where
  rule_at : rules[i]? = some rule
  argument_at : args[i]? = some x
  not_admitted : g.admits rule x = false
  before : ∀ j < i, ∀ r y, rules[j]? = some r → args[j]? = some y → g.admits r y = true

/-- **Why a tuple is refused**: there are too many or too few arguments; or else some are not
    admitted, and the first of them is named. -/
inductive Refuses (g : Graph) (kind : Kind) (args : List Argument) : GraphError → Prop where
  | count : args.length ≠ (kind.rules args.length).length → Refuses g kind args
      (.invalidField kind.name .all (.arguments kind.fields) (.arguments args.length))
  | fault {i : Nat} {rule : FieldRule} {x : Argument} :
      args.length = (kind.rules args.length).length →
      g.FirstFault (kind.rules args.length) args i rule x → Refuses g kind args
      (.invalidField kind.name (kind.placeOf i) (rule.complaint g x).1 (rule.complaint g x).2)

/-! ## The check -/

/-- Hold an argument against a rule, in the name of a place. -/
def hold (g : Graph) (kind : Kind) (place : FieldPath) (rule : FieldRule) (x : Argument) :
    Except GraphError Unit :=
  if g.admits rule x then .ok ()
  else .error (.invalidField kind.name place (rule.complaint g x).1 (rule.complaint g x).2)

/-- **Hold rules against arguments** from left to right, the first of them at place `index`. -/
def checkFrom (g : Graph) (kind : Kind) (index : Nat) :
    List FieldRule → List Argument → Except GraphError Unit
  | rule :: rules, x :: xs => do
    g.hold kind (kind.placeOf index) rule x
    checkFrom g kind (index + 1) rules xs
  | _, _ => .ok ()

variable {g : Graph} {kind : Kind} {rules : List FieldRule} {args : List Argument}

theorem hold_of_admits {place : FieldPath} {rule : FieldRule} {x : Argument}
    (h : g.admits rule x = true) : g.hold kind place rule x = .ok () := if_pos h

theorem hold_of_not_admits {place : FieldPath} {rule : FieldRule} {x : Argument}
    (h : g.admits rule x = false) : g.hold kind place rule x =
      .error (.invalidField kind.name place (rule.complaint g x).1 (rule.complaint g x).2) :=
  if_neg (by simp [h])

theorem checkFrom_of_admits {index : Nat} {rule : FieldRule} {x : Argument}
    (h : g.admits rule x = true) :
    g.checkFrom kind index (rule :: rules) (x :: args) = g.checkFrom kind (index + 1) rules args := by
  rw [checkFrom, hold_of_admits h]
  rfl

theorem checkFrom_of_not_admits {index : Nat} {rule : FieldRule} {x : Argument}
    (h : g.admits rule x = false) : g.checkFrom kind index (rule :: rules) (x :: args) =
      .error (.invalidField kind.name (kind.placeOf index) (rule.complaint g x).1
        (rule.complaint g x).2) := by
  rw [checkFrom, hold_of_not_admits h]
  rfl

/-- **The check says yes** exactly if every argument is admitted. -/
theorem checkFrom_eq_ok_iff (hlength : rules.length = args.length) (index : Nat) :
    g.checkFrom kind index rules args = .ok () ↔
      List.Forall₂ (fun rule x => g.admits rule x = true) rules args := by
  induction rules generalizing args index with
  | nil =>
    obtain rfl := List.eq_nil_of_length_eq_zero hlength.symm
    exact iff_of_true rfl .nil
  | cons rule rules ih =>
    obtain ⟨x, xs, rfl⟩ := List.exists_cons_of_length_eq_add_one hlength.symm
    rw [List.forall₂_cons]
    cases h : g.admits rule x with
    | true => rw [checkFrom_of_admits h, ih (Nat.succ.inj hlength), and_iff_right rfl]
    | false =>
      rw [checkFrom_of_not_admits h]
      exact iff_of_false (by simp) fun hboth => Bool.false_ne_true hboth.1

/-- A fault behind an admitted argument is a fault one place further on. -/
theorem firstFault_succ_iff {i : Nat} {rule r : FieldRule} {x y : Argument}
    (h : g.admits rule x = true) :
    g.FirstFault (rule :: rules) (x :: args) (i + 1) r y ↔ g.FirstFault rules args i r y := by
  constructor
  · rintro ⟨hrule, hargument, hfault, hbefore⟩
    refine ⟨hrule, hargument, hfault, fun j hj r' y' hr hy => ?_⟩
    exact hbefore (j + 1) (Nat.succ_lt_succ hj) r' y' hr hy
  · rintro ⟨hrule, hargument, hfault, hbefore⟩
    refine ⟨hrule, hargument, hfault, fun j hj r' y' hr hy => ?_⟩
    cases j with
    | zero =>
      cases hr
      cases hy
      exact h
    | succ j => exact hbefore j (Nat.lt_of_succ_lt_succ hj) r' y' hr hy

/-- **The check says no** in the name of the first argument that is not admitted. -/
theorem checkFrom_eq_error_iff (hlength : rules.length = args.length) (index : Nat)
    {e : GraphError} : g.checkFrom kind index rules args = .error e ↔
      ∃ i rule x, g.FirstFault rules args i rule x ∧
        e = .invalidField kind.name (kind.placeOf (index + i)) (rule.complaint g x).1
          (rule.complaint g x).2 := by
  induction rules generalizing args index with
  | nil =>
    refine iff_of_false (by simp [checkFrom]) ?_
    rintro ⟨i, rule, x, hfault, -⟩
    simpa using hfault.rule_at
  | cons rule rules ih =>
    obtain ⟨x, xs, rfl⟩ := List.exists_cons_of_length_eq_add_one hlength.symm
    cases h : g.admits rule x with
    | true =>
      rw [checkFrom_of_admits h, ih (Nat.succ.inj hlength)]
      constructor
      · rintro ⟨i, r, y, hfault, he⟩
        refine ⟨i + 1, r, y, (firstFault_succ_iff h).2 hfault, ?_⟩
        rw [he, Nat.add_right_comm, Nat.add_assoc]
      · rintro ⟨i, r, y, hfault, he⟩
        cases i with
        | zero =>
          have hrule : rule = r := Option.some.inj hfault.rule_at
          have hargument : x = y := Option.some.inj hfault.argument_at
          have hno := hfault.not_admitted
          rw [← hrule, ← hargument, h] at hno
          cases hno
        | succ i =>
          refine ⟨i, r, y, (firstFault_succ_iff h).1 hfault, ?_⟩
          rw [he, Nat.add_right_comm, Nat.add_assoc]
    | false =>
      rw [checkFrom_of_not_admits h]
      constructor
      · intro he
        refine ⟨0, rule, x, ⟨rfl, rfl, h, fun j hj => absurd hj (Nat.not_lt_zero j)⟩, ?_⟩
        exact (Except.error.inj he).symm
      · rintro ⟨i, r, y, hfault, rfl⟩
        cases i with
        | zero =>
          have hrule : rule = r := Option.some.inj hfault.rule_at
          have hargument : x = y := Option.some.inj hfault.argument_at
          rw [hrule, hargument]
          rfl
        | succ i =>
          -- the argument in front was not admitted either
          have hfirst := hfault.before 0 (Nat.succ_pos i) rule x rfl rfl
          rw [h] at hfirst
          cases hfirst

/-! ## Construction ends as the check does -/

end Graph

namespace SameOutcome

variable {ε α β γ : Type} {x : Except ε α} {y : Except ε β}

theorem map {f : α → γ} (h : SameOutcome x y) : SameOutcome (x.map f) y := by
  cases h with
  | ok a b => exact .ok _ _
  | error e => exact .error e

theorem exists_ok_iff (h : SameOutcome x y) : (∃ a, x = .ok a) ↔ ∃ b, y = .ok b := by
  cases h with
  | ok a b => exact iff_of_true ⟨a, rfl⟩ ⟨b, rfl⟩
  | error e => simp

theorem eq_error_iff {e : ε} (h : SameOutcome x y) : x = .error e ↔ y = .error e := by
  cases h with
  | ok a b => simp
  | error e' => simp

end SameOutcome

section Outcomes

variable {g : Graph} {kind : Kind} {args : List Argument} {x : Argument}

/-- A rule that asks for what an argument holds. -/
theorem fit_sameOutcome_hold {α : Type} {field : String} {expected : Expected}
    {holds? : Argument → Option α} {rule : FieldRule}
    (hadmits : (holds? x).isSome = g.admits rule x)
    (hcomplaint : g.admits rule x = false → rule.complaint g x = (expected, .form x.form)) :
    SameOutcome (x.fit kind.name field expected holds?) (g.hold kind (.named field) rule x) := by
  rw [Argument.fit]
  cases hx : holds? x with
  | some v =>
    rw [hx] at hadmits
    rw [Graph.hold_of_admits hadmits.symm]
    exact .ok _ _
  | none =>
    rw [hx] at hadmits
    rw [Graph.hold_of_not_admits hadmits.symm, hcomplaint hadmits.symm]
    exact .error _

/-- The rule for operands: an argument that is no node, and a node that is no value. -/
theorem valueFor_sameOutcome_hold {field : String} :
    SameOutcome (g.valueFor kind.name field x) (g.hold kind (.named field) .valueNode x) := by
  cases x with
  | node n =>
    show SameOutcome (g.operand kind.name field n) _
    rw [Graph.operand]
    cases hv : g.value? n with
    | some v =>
      have hvalue : (g.kind n).isValue = true := Graph.exists_value?_iff.1 ⟨v, hv⟩
      have hadmits : g.admits .valueNode (.node n) = true := hvalue
      rw [Graph.hold_of_admits hadmits]
      exact .ok _ _
    | none =>
      have hno : g.admits .valueNode (.node n) = false := by
        rw [Graph.admits, ← Graph.isValue_eq, Graph.isValue, hv]
        rfl
      rw [Graph.hold_of_not_admits hno]
      exact .error _
  | _ => exact .error _

theorem nodesFrom_sameOutcome_check (index : Nat) (args : List Argument) :
    SameOutcome (nodesFrom Kind.list.name "values" index args)
      (g.checkFrom .list index (List.replicate args.length .node) args) := by
  induction args generalizing index with
  | nil => exact .ok _ _
  | cons x rest ih =>
    rw [List.length_cons, List.replicate_succ]
    cases x with
    | node n =>
      rw [Graph.checkFrom_of_admits rfl, nodesFrom]
      rcases hrest : nodesFrom Kind.list.name "values" (index + 1) rest with e | ns
      · have hout := ih (index + 1)
        rw [hrest] at hout
        rw [hout.eq_error]
        exact .error e
      · have hout := ih (index + 1)
        rw [hrest] at hout
        obtain ⟨u, hu⟩ := hout.exists_ok
        rw [hu]
        exact .ok _ _
    | _ =>
      rw [Graph.checkFrom_of_not_admits rfl]
      exact .error _

/-- Arguments without rules. -/
theorem checkFrom_any (index : Nat) (args : List Argument) :
    g.checkFrom kind index (List.replicate args.length .any) args = .ok () := by
  refine (Graph.checkFrom_eq_ok_iff List.length_replicate index).2 ?_
  induction args with
  | nil => exact .nil
  | cons x rest ih => exact .cons rfl ih

/-- **Construction ends as the check does**, for every tuple of the right length. -/
theorem ofArguments_sameOutcome_check (hlength : (kind.rules args.length).length = args.length) :
    SameOutcome (Operation.ofArguments g kind args)
      (g.checkFrom kind 0 (kind.rules args.length) args) := by
  rw [Operation.ofArguments_eq_ofFields]
  cases kind with
  | field =>
    obtain ⟨x, y, z, rfl⟩ := List.length_eq_three.1 hlength.symm
    refine (fit_sameOutcome_hold (by cases x <;> rfl) fun _ => by cases x <;> rfl).bind fun _ _ => ?_
    refine (fit_sameOutcome_hold (by cases y <;> rfl) fun _ => by cases y <;> rfl).bind fun _ _ => ?_
    refine (fit_sameOutcome_hold (by cases z <;> rfl) fun _ => by cases z <;> rfl).bind fun _ _ => ?_
    exact .ok _ _
  | «alias» =>
    obtain ⟨x, y, rfl⟩ := List.length_eq_two.1 hlength.symm
    refine valueFor_sameOutcome_hold.bind fun _ _ => ?_
    refine (fit_sameOutcome_hold (by cases y <;> rfl) fun _ => by cases y <;> rfl).bind fun _ _ => ?_
    exact .ok _ _
  | unary op =>
    obtain ⟨x, rfl⟩ := List.length_eq_one_iff.1 hlength.symm
    have harg : SameOutcome (g.valueFor (Kind.unary op).name "arg" x) _ := valueFor_sameOutcome_hold
    exact harg.bind fun _ _ => .ok _ _
  | binary op =>
    obtain ⟨x, y, rfl⟩ := List.length_eq_two.1 hlength.symm
    have hleft : SameOutcome (g.valueFor (Kind.binary op).name "left" x) _ :=
      valueFor_sameOutcome_hold
    have hright : SameOutcome (g.valueFor (Kind.binary op).name "right" y) _ :=
      valueFor_sameOutcome_hold
    exact hleft.bind fun _ _ => hright.bind fun _ _ => .ok _ _
  | list =>
    exact (nodesFrom_sameOutcome_check 0 args).map
  | call =>
    rw [Kind.rules, checkFrom_any]
    exact .ok _ _
  | sealed =>
    rw [Kind.rules, checkFrom_any]
    exact .ok _ _

/-- A tuple without an argument for each rule is refused as a whole. -/
theorem ofArguments_of_count (h : args.length ≠ (kind.rules args.length).length) :
    Operation.ofArguments g kind args =
      .error (.invalidField kind.name .all (.arguments kind.fields) (.arguments args.length)) := by
  cases kind with
  | list => exact absurd List.length_replicate.symm h
  | call => exact absurd List.length_replicate.symm h
  | sealed => exact absurd List.length_replicate.symm h
  | _ => exact Operation.ofArguments_of_length_ne g (List.cons_ne_nil _ _) h

/-- **Accepted is what fits.** -/
theorem exists_ofArguments_eq_ok_iff :
    (∃ op, Operation.ofArguments g kind args = .ok op) ↔ g.Fits kind args := by
  by_cases hlength : (kind.rules args.length).length = args.length
  · rw [(ofArguments_sameOutcome_check hlength).exists_ok_iff]
    exact exists_const Unit |>.trans (Graph.checkFrom_eq_ok_iff hlength 0)
  · refine iff_of_false ?_ fun hfits => hlength hfits.length_eq
    rintro ⟨op, hop⟩
    rw [ofArguments_of_count (Ne.symm hlength)] at hop
    cases hop

/-- **Refused is everything else**, in the name of the first fault. -/
theorem ofArguments_eq_error_iff {e : GraphError} :
    Operation.ofArguments g kind args = .error e ↔ g.Refuses kind args e := by
  by_cases hlength : (kind.rules args.length).length = args.length
  · rw [(ofArguments_sameOutcome_check hlength).eq_error_iff, Graph.checkFrom_eq_error_iff hlength]
    constructor
    · rintro ⟨i, rule, x, hfault, rfl⟩
      rw [Nat.zero_add]
      exact .fault hlength.symm hfault
    · intro h
      cases h with
      | count hcount => exact absurd hlength.symm hcount
      | @fault i rule x _ hfault => exact ⟨i, rule, x, hfault, by rw [Nat.zero_add]⟩
  · rw [ofArguments_of_count (Ne.symm hlength)]
    constructor
    · intro h
      cases h
      exact .count (Ne.symm hlength)
    · intro h
      cases h with
      | count _ => rfl
      | fault hcount _ => exact absurd hcount.symm hlength

/-- Whatever is refused, something was found in its place. -/
theorem Graph.Refuses.ne_nothing {e : GraphError} (h : g.Refuses kind args e) (node : String)
    (place : FieldPath) (expected : Expected) : e ≠ .invalidField node place expected .nothing := by
  cases h with
  | count _ => simp
  | @fault i rule x _ _ =>
    have hfound : (rule.complaint g x).2 ≠ .nothing := by
      cases rule <;> cases x <;> simp [FieldRule.complaint]
    exact fun h => hfound (GraphError.invalidField.inj h).2.2.2

end Outcomes

namespace Session

/-- **Tuples are accepted exactly when they fit the kind.**  A tuple that fits becomes a node, under
    the next identity.  Any other is refused as specified, nothing is created, and the session is as
    it was.  A node that is derived from one of the kind is accepted or refused in the same way,
    whatever the arguments of that one are. -/
theorem tuples_accepted (s : Session) (kind : Kind) (args : List Argument) :
    ((∃ n t, s.build (Operation.ofArguments s.graph kind args) = .ok (n, t)) ↔
      s.graph.Fits kind args) ∧
    (∀ e, s.build (Operation.ofArguments s.graph kind args) = .error e ↔
      s.graph.Refuses kind args e) ∧
    (∀ e, s.graph.Refuses kind args e → s.perform (.create kind args) = s ∧
      ∀ node place expected, e ≠ .invalidField node place expected .nothing) ∧
    (∀ n t, s.build (Operation.ofArguments s.graph kind args) = .ok (n, t) →
      n = s.graph.size ∧ t.graph.size = s.graph.size + 1) ∧
    ∀ n, s.graph.kind n = kind →
      s.graph.derive n args = Operation.ofArguments s.graph kind args := by
  refine ⟨?_, fun e => ?_, fun e he => ⟨?_, he.ne_nothing⟩, fun n t hbuild => ?_, fun n hn => ?_⟩
  · rw [← exists_ofArguments_eq_ok_iff]
    constructor
    · rintro ⟨n, t, hbuild⟩
      obtain ⟨op, hop, -⟩ := ok_of_map hbuild
      exact ⟨op, hop⟩
    · rintro ⟨op, hop⟩
      exact ⟨_, _, by rw [hop]; rfl⟩
  · rw [← ofArguments_eq_error_iff, build]
    cases Operation.ofArguments s.graph kind args with
    | ok op => simp [Except.map]
    | error e' => simp [Except.map]
  · rw [perform, ofArguments_eq_error_iff.2 he]
    rfl
  · obtain ⟨op, -, hinsert⟩ := ok_of_map hbuild
    cases hinsert
    exact ⟨rfl, Graph.size_insert s.hasher s.graph op⟩
  · rw [Graph.derive, hn]

/-- Two renamed columns can be added; a list and a text cannot, and it is the list that is refused,
    although both are at fault; and a list takes no text among its members. -/
theorem tuples_accepted_twinColumns :
    (∃ n t, twinColumns.build (Operation.ofArguments twinColumns.graph (.binary .add)
      [.node 2, .node 3]) = .ok (n, t)) ∧
    twinColumns.build (Operation.ofArguments twinColumns.graph (.binary .add)
      [.node 4, .text "x"]) =
        .error (.invalidField "Add" (.named "left") .valueNode (.node "NodeList")) ∧
    twinColumns.perform (.create (.binary .add) [.node 4, .text "x"]) = twinColumns ∧
    twinColumns.build (Operation.ofArguments twinColumns.graph .list
      [.node 0, .text "x", .none]) =
        .error (.invalidField "NodeList" (.entry "values" 1) .node (.form .text)) ∧
    twinColumns.graph.derive 2 [.node 0] = Operation.ofArguments twinColumns.graph .alias [.node 0] := by
  have hvalue : ∀ n : NodeId, n = 2 ∨ n = 3 →
      twinColumns.graph.admits .valueNode (.node n) = true := by
    rintro n (rfl | rfl)
    · rfl
    · rfl
  have hfits : twinColumns.graph.Fits (.binary .add) [.node 2, .node 3] :=
    .cons (hvalue 2 (Or.inl rfl)) (.cons (hvalue 3 (Or.inr rfl)) .nil)
  have hlist : twinColumns.graph.FirstFault [.valueNode, .valueNode] [.node 4, .text "x"] 0
      .valueNode (.node 4) := ⟨rfl, rfl, rfl, fun j hj => absurd hj (Nat.not_lt_zero j)⟩
  have htext : twinColumns.graph.FirstFault [.node, .node, .node] [.node 0, .text "x", .none] 1
      .node (.text "x") := by
    refine ⟨rfl, rfl, rfl, fun j hj r y hr hy => ?_⟩
    obtain rfl : j = 0 := by omega
    cases hr
    cases hy
    rfl
  have hoperands : twinColumns.graph.Refuses (.binary .add) [.node 4, .text "x"]
      (.invalidField (Kind.binary .add).name ((Kind.binary .add).placeOf 0) _ _) := .fault rfl hlist
  have hmembers : twinColumns.graph.Refuses .list [.node 0, .text "x", .none]
      (.invalidField Kind.list.name (Kind.list.placeOf 1) _ _) := .fault rfl htext
  obtain ⟨hok, -⟩ := tuples_accepted twinColumns (.binary .add) [.node 2, .node 3]
  obtain ⟨-, herror, hnothing, -⟩ :=
    tuples_accepted twinColumns (.binary .add) [.node 4, .text "x"]
  obtain ⟨-, herror', -⟩ := tuples_accepted twinColumns .list [.node 0, .text "x", .none]
  obtain ⟨-, -, -, -, hderive⟩ := tuples_accepted twinColumns .alias [.node 0]
  exact ⟨hok.2 hfits, (herror _).2 hoperands, (hnothing _ hoperands).1, (herror' _).2 hmembers,
    hderive 2 rfl⟩

example : (GraphError.invalidField "NodeList" (.entry "values" 1) .node (.form .text)).message =
    "invalid field value for NodeList.values[1]: expected a node, found str" := by
  decide +kernel

end Session

end ExprGraph
