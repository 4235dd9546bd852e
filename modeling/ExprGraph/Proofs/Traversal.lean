/-
  The traversal of two arguments — what it asks, what it keeps, and what it decides.

  `Argument.equalM` compares two arguments in any monad, and leaves the questions about nodes to
  whoever runs it.  Three facts about it carry every proof about comparisons.

  1. **Questions** (`Asked`) — the traversal asks about two nodes only if they stand opposite each
     other: at one place of both arguments (`Asked.exists_place`).

  2. **Parametricity** (`equalM_related`) — run the traversal twice, in two monads, with questions
     that are related.  If the relation is kept by constant answers and by the conjunction of two
     comparisons (`Relates`), then the two runs are related.

  3. **Meaning** (`equalM_pure_iff`) — run without effects, the traversal decides `Argument.Same`.

  4. **Decisions** (`tuplesEqualM_decides`) — the facts together: an assertion about runs and what
     they decide (`Decides`), kept by constants and conjunctions, holds of the traversal if it holds
     of the questions.
-/
import ExprGraph.PairCache.Comparison
import ExprGraph.Proofs.SameArguments

namespace ExprGraph.Argument

variable {m n : Type → Type} [Monad m] [Monad n]

/-- The second comparison is made only if the first one says yes. -/
def andThen (x y : m Bool) : m Bool := do
  if ← x then y else pure false

/-- Nothing comes behind the last comparison. -/
theorem andThen_pure_true [LawfulMonad m] (x : m Bool) : andThen x (pure true) = x := by
  have hanswer : (fun answer => if answer = true then pure true else pure false) =
      (pure : Bool → m Bool) := by
    funext answer
    cases answer <;> rfl
  exact (congrArg (x >>= ·) hanswer).trans (bind_pure x)

/-! ## Questions -/

/-- **What the traversal may ask**: about the node `c` inside the left argument and the node `d`
    inside the right one. -/
inductive Asked : Argument → Argument → NodeId → NodeId → Prop where
  | node (c d : NodeId) : Asked (.node c) (.node d) c d
  | item {as bs : List Argument} {i : Nat} {a b : Argument} {c d : NodeId} :
      as[i]? = some a → bs[i]? = some b → Asked a b c d → Asked (.tuple as) (.tuple bs) c d
  | entry {as bs : List (String × Argument)} {key : String} {a b : Argument} {c d : NodeId} :
      (key, a) ∈ as → bs.lookup key = some b → Asked a b c d → Asked (.map as) (.map bs) c d

/-- **Questions are about opposite nodes**, if the left argument has no key twice. -/
theorem Asked.exists_place {a b : Argument} {c d : NodeId} (h : Asked a b c d)
    (ha : a.WellFormed) :
    ∃ place, a.get? place = some (.node c) ∧ b.get? place = some (.node d) := by
  induction h with
  | node c d => exact ⟨[], rfl, rfl⟩
  | @item as bs i a b c d hi hj _ ih =>
    obtain ⟨place, hc, hd⟩ := ih ((itemsWellFormed_iff as).1 ha a (List.mem_of_getElem? hi))
    exact ⟨.item i :: place, get?_item.2 ⟨a, hi, hc⟩, get?_item.2 ⟨b, hj, hd⟩⟩
  | @entry as bs key a b c d hmem hfound _ ih =>
    obtain ⟨place, hc, hd⟩ := ih ((entriesWellFormed_iff as).1 ha.2 _ hmem)
    have hleft : as.lookup key = some a := lookup_eq_some_of_mem ha.1 hmem
    exact ⟨.key key :: place, get?_key.2 ⟨a, hleft, hc⟩, get?_key.2 ⟨b, hfound, hd⟩⟩

/-! ## Parametricity -/

/-- **A relation between comparisons in two monads** that constant answers and conjunctions keep. -/
structure Relates (Rel : m Bool → n Bool → Prop) : Prop where
  pure : ∀ b, Rel (pure b) (pure b)
  andThen : ∀ {x y x' y'}, Rel x x' → Rel y y' → Rel (andThen x y) (andThen x' y')

section Related

variable {Rel : m Bool → n Bool → Prop} {ask : NodeId → NodeId → m Bool}
  {ask' : NodeId → NodeId → n Bool}

theorem itemsEqualM_related (hRel : Relates Rel) {as bs : List Argument}
    (h : ∀ (i : Nat) (a b : Argument), as[i]? = some a → bs[i]? = some b →
      Rel (a.equalM ask b) (a.equalM ask' b)) :
    Rel (itemsEqualM ask as bs) (itemsEqualM ask' as bs) := by
  induction as generalizing bs with
  | nil =>
    simp only [itemsEqualM]
    exact hRel.pure true
  | cons a as ih =>
    cases bs with
    | nil =>
      simp only [itemsEqualM]
      exact hRel.pure true
    | cons b bs =>
      have hhead := h 0 a b rfl rfl
      have htail := ih fun i x y hx hy => h (i + 1) x y hx hy
      simp only [itemsEqualM]
      exact hRel.andThen hhead htail

theorem entriesEqualM_related (hRel : Relates Rel) {as bs : List (String × Argument)}
    (h : ∀ key a b, (key, a) ∈ as → bs.lookup key = some b →
      Rel (a.equalM ask b) (a.equalM ask' b)) :
    Rel (entriesEqualM ask as bs) (entriesEqualM ask' as bs) := by
  induction as with
  | nil =>
    simp only [entriesEqualM]
    exact hRel.pure true
  | cons x as ih =>
    rcases x with ⟨key, a⟩
    simp only [entriesEqualM]
    cases hfound : bs.lookup key with
    | none => exact hRel.pure false
    | some b =>
      have hhead := h key a b List.mem_cons_self hfound
      exact hRel.andThen hhead (ih fun k x y hx => h k x y (List.mem_cons_of_mem _ hx))

/-- **Related questions, related runs.** -/
theorem equalM_related (hRel : Relates Rel) {a b : Argument}
    (hask : ∀ c d, Asked a b c d → Rel (ask c d) (ask' c d)) :
    Rel (a.equalM ask b) (a.equalM ask' b) := by
  induction a generalizing b with
  | node c =>
    cases b with
    | node d =>
      simp only [equalM]
      exact hask c d (.node c d)
    | _ => simp only [equalM]; exact hRel.pure false
  | tuple as ih =>
    cases b with
    | tuple bs =>
      simp only [equalM]
      split
      · refine itemsEqualM_related hRel fun i a b ha hb => ?_
        exact ih a (List.mem_of_getElem? ha) fun c d hcd => hask c d (.item ha hb hcd)
      · exact hRel.pure false
    | _ => simp only [equalM]; exact hRel.pure false
  | map as ih =>
    cases b with
    | map bs =>
      simp only [equalM]
      split
      · refine entriesEqualM_related hRel fun key a b hmem hfound => ?_
        exact ih (key, a) hmem fun c d hcd => hask c d (.entry hmem hfound hcd)
      · exact hRel.pure false
    | _ => simp only [equalM]; exact hRel.pure false
  | _ => cases b <;> simp only [equalM] <;> exact hRel.pure _

/-- The same for argument tuples. -/
theorem tuplesEqualM_related (hRel : Relates Rel) {as bs : List Argument}
    (hask : ∀ c d, Asked (.tuple as) (.tuple bs) c d → Rel (ask c d) (ask' c d)) :
    Rel (tuplesEqualM ask as bs) (tuplesEqualM ask' as bs) := by
  have h : Rel ((Argument.tuple as).equalM ask (.tuple bs))
      ((Argument.tuple as).equalM ask' (.tuple bs)) := equalM_related hRel hask
  simp only [equalM] at h
  exact h

/-- The same for the contents of two nodes. -/
theorem contentsEqualM_related (hRel : Relates Rel) {g : Graph} {a b : NodeId}
    (hask : ∀ c d, Asked (.tuple (g.arguments a)) (.tuple (g.arguments b)) c d →
      Rel (ask c d) (ask' c d)) :
    Rel (g.contentsEqualM ask a b) (g.contentsEqualM ask' a b) := by
  by_cases hs : g.kind a = .sealed
  · rw [Graph.contentsEqualM_of_sealed hs, Graph.contentsEqualM_of_sealed hs]
    exact hRel.pure false
  · rw [Graph.contentsEqualM_of_ne_sealed hs, Graph.contentsEqualM_of_ne_sealed hs]
    exact tuplesEqualM_related hRel hask

/-- The same under the guard that the left node descends. -/
theorem contentsEqualM_related_of_lt (hRel : Relates Rel) {g : Graph} {a : NodeId}
    (hask : ∀ c < a, ∀ d, Rel (ask c d) (ask' c d)) (b : NodeId) :
    Rel (g.contentsEqualM (fun c d => if _h : c < a then ask c d else pure false) a b)
      (g.contentsEqualM (fun c d => if _h : c < a then ask' c d else pure false) a b) := by
  refine contentsEqualM_related hRel fun c d _ => ?_
  split
  · rename_i hc
    exact hask c hc d
  · exact hRel.pure false

end Related

/-! ## Meaning -/

section Meaning

variable {ask : NodeId → NodeId → Bool}

/-- The comparison without effects, its questions answered by a function. -/
def equalPure (ask : NodeId → NodeId → Bool) (a b : Argument) : Bool :=
  Id.run (a.equalM (fun c d => pure (ask c d)) b)

theorem itemsEqualM_pure_iff {as bs : List Argument} (hlength : as.length = bs.length) :
    Id.run (itemsEqualM (fun c d => pure (ask c d)) as bs) = true ↔
      List.Forall₂ (fun a b => equalPure ask a b = true) as bs := by
  induction as generalizing bs with
  | nil =>
    cases bs with
    | nil => simp [itemsEqualM]
    | cons b bs => simp at hlength
  | cons a as ih =>
    cases bs with
    | nil => simp at hlength
    | cons b bs =>
      have ih := ih (Nat.succ.inj hlength)
      rw [List.forall₂_cons, ← ih]
      simp only [itemsEqualM, equalPure, Id.run_bind]
      split <;> simp_all

theorem entriesEqualM_pure_iff {as bs : List (String × Argument)} :
    Id.run (entriesEqualM (fun c d => pure (ask c d)) as bs) = true ↔
      ∀ e ∈ as, ∃ b, bs.lookup e.1 = some b ∧ equalPure ask e.2 b = true := by
  induction as with
  | nil => simp [entriesEqualM]
  | cons x as ih =>
    rcases x with ⟨key, a⟩
    rw [List.forall_mem_cons, ← ih]
    simp only [entriesEqualM, equalPure]
    cases hfound : bs.lookup key with
    | none => simp
    | some b =>
      simp only [Id.run_bind, Option.some.injEq, exists_eq_left']
      split <;> simp_all

/-- Arguments of different forms are neither found equal nor the same. -/
theorem equalPure_iff_of_form_ne {R : NodeId → NodeId → Prop} {a b : Argument}
    (h : a.form ≠ b.form) : equalPure ask a b = true ↔ Same R a b := by
  have hsame : ¬ Same R a b := by
    intro hab
    cases hab <;> exact h rfl
  refine iff_of_false (fun hab => ?_) hsame
  cases a <;> cases b <;> first | exact h rfl | simp [equalPure, equalM] at hab

/-- Literals of one form are the same if their values are equal. -/
theorem equalPure_literal {α : Type} [BEq α] [LawfulBEq α] {R : NodeId → NodeId → Prop}
    {literal : α → Argument} {x y : α} (hrun : equalPure ask (literal x) (literal y) = (x == y))
    (hself : Same R (literal x) (literal x)) (hvalue : Same R (literal x) (literal y) → x = y) :
    equalPure ask (literal x) (literal y) = true ↔ Same R (literal x) (literal y) := by
  rw [hrun, beq_iff_eq]
  exact ⟨fun h => h ▸ hself, hvalue⟩

/-- **Without effects, the traversal decides sameness.** -/
theorem equalM_pure_iff {a b : Argument} (ha : a.WellFormed) (hb : b.WellFormed) :
    equalPure ask a b = true ↔ Same (fun c d => ask c d = true) a b := by
  -- the left argument descends; a right one of another form is settled at once
  induction a generalizing b with
  | node c =>
    cases b with
    | node d =>
      simp only [equalPure, equalM, Id.run_pure]
      exact ⟨fun h => .node h, fun h => by cases h; assumption⟩
    | _ => exact equalPure_iff_of_form_ne (by simp [form])
  | none =>
    cases b with
    | none =>
      simp only [equalPure, equalM, Id.run_pure]
      exact ⟨fun _ => .none, fun _ => trivial⟩
    | _ => exact equalPure_iff_of_form_ne (by simp [form])
  | float x =>
    cases b with
    | float y =>
      simp only [equalPure, equalM, Id.run_pure, Binary64.same_iff]
      exact ⟨.float, fun h => by cases h; assumption⟩
    | _ => exact equalPure_iff_of_form_ne (by simp [form])
  | tuple as ih =>
    cases b with
    | tuple bs =>
      rw [same_tuple_iff]
      simp only [equalPure, equalM]
      split
      · rename_i hlength
        rw [itemsEqualM_pure_iff hlength]
        have ha := (itemsWellFormed_iff as).1 ha
        have hb := (itemsWellFormed_iff bs).1 hb
        constructor <;> intro h <;> refine forall₂_imp_of_mem h fun a ha' b hb' hab => ?_
        · exact (ih a ha' (ha a ha') (hb b hb')).1 hab
        · exact (ih a ha' (ha a ha') (hb b hb')).2 hab
      · rename_i hlength
        exact iff_of_false (by simp) fun h => hlength h.length_eq
    | _ => exact equalPure_iff_of_form_ne (by simp [form])
  | map as ih =>
    cases b with
    | map bs =>
      rw [same_map_iff, lookup_rel_iff_scan ha.1 hb.1]
      have ha := (entriesWellFormed_iff as).1 ha.2
      have hb := (entriesWellFormed_iff bs).1 hb.2
      simp only [equalPure, equalM]
      split
      · rename_i hlength
        rw [entriesEqualM_pure_iff]
        refine ⟨fun h => ⟨hlength, fun e he => ?_⟩, fun h e he => ?_⟩
        · obtain ⟨b, hfound, hab⟩ := h e he
          exact ⟨b, hfound, (ih e he (ha e he) (hb _ (mem_of_lookup_eq_some hfound))).1 hab⟩
        · obtain ⟨b, hfound, hab⟩ := h.2 e he
          exact ⟨b, hfound, (ih e he (ha e he) (hb _ (mem_of_lookup_eq_some hfound))).2 hab⟩
      · rename_i hlength
        exact iff_of_false (by simp) fun h => hlength h.1
    | _ => exact equalPure_iff_of_form_ne (by simp [form])
  | bool x =>
    cases b with
    | bool y =>
      exact equalPure_literal rfl (.bool x) fun h => by cases h; rfl
    | _ => exact equalPure_iff_of_form_ne (by simp [form])
  | int i =>
    cases b with
    | int j =>
      exact equalPure_literal rfl (.int i) fun h => by cases h; rfl
    | _ => exact equalPure_iff_of_form_ne (by simp [form])
  | text s =>
    cases b with
    | text t =>
      exact equalPure_literal rfl (.text s) fun h => by cases h; rfl
    | _ => exact equalPure_iff_of_form_ne (by simp [form])
  | shape s =>
    cases b with
    | shape t =>
      exact equalPure_literal rfl (.shape s) fun h => by cases h; rfl
    | _ => exact equalPure_iff_of_form_ne (by simp [form])
  | dataType s =>
    cases b with
    | dataType t =>
      exact equalPure_literal rfl (.dataType s) fun h => by cases h; rfl
    | _ => exact equalPure_iff_of_form_ne (by simp [form])

end Meaning

/-! ## Decisions -/

/-- **An assertion on comparisons and what they decide** that constant answers and conjunctions
    keep. -/
structure Decides (D : Prop → m Bool → Prop) : Prop where
  pure : ∀ b : Bool, D (b = true) (pure b)
  andThen : ∀ {P Q x y}, D P x → D Q y → D (P ∧ Q) (andThen x y)

theorem relates_of_decides {D : Prop → m Bool → Prop} (hD : Decides D) :
    Relates fun (x : m Bool) (y : Id Bool) => D (Id.run y = true) x where
  pure b := hD.pure b
  andThen := by
    intro x y x' y' hx hy
    have hrun : (Id.run (andThen x' y') = true) = (Id.run x' = true ∧ Id.run y' = true) := by
      refine propext ?_
      simp only [andThen, Id.run_bind]
      split <;> simp_all
    rw [hrun]
    exact hD.andThen hx hy

open Classical in
/-- **The traversal decides sameness**, whatever else its questions do on the way.  They are about
    nodes at one place of both arguments. -/
theorem equalM_decides {D : Prop → m Bool → Prop} (hD : Decides D) {R : NodeId → NodeId → Prop}
    {ask : NodeId → NodeId → m Bool} {a b : Argument} (ha : a.WellFormed) (hb : b.WellFormed)
    (hask : ∀ place c d, a.get? place = some (.node c) → b.get? place = some (.node d) →
      D (R c d) (ask c d)) : D (Same R a b) (a.equalM ask b) := by
  have hrelated : D (equalPure (fun c d => decide (R c d)) a b = true) (a.equalM ask b) := by
    refine equalM_related (relates_of_decides hD) fun c d hcd => ?_
    obtain ⟨place, hc, hd⟩ := hcd.exists_place ha
    simpa using hask place c d hc hd
  have hmeaning : (equalPure (fun c d => decide (R c d)) a b = true) = Same R a b := by
    rw [equalM_pure_iff ha hb]
    simp only [decide_eq_true_eq]
  rw [← hmeaning]
  exact hrelated

/-- The same for argument tuples. -/
theorem tuplesEqualM_decides {D : Prop → m Bool → Prop} (hD : Decides D)
    {R : NodeId → NodeId → Prop} {ask : NodeId → NodeId → m Bool} {as bs : List Argument}
    (ha : ∀ a ∈ as, a.WellFormed) (hb : ∀ b ∈ bs, b.WellFormed)
    (hask : ∀ place c d, (Argument.tuple as).get? place = some (.node c) →
      (Argument.tuple bs).get? place = some (.node d) → D (R c d) (ask c d)) :
    D (List.Forall₂ (Same R) as bs) (tuplesEqualM ask as bs) := by
  have h : D (Same R (.tuple as) (.tuple bs)) ((Argument.tuple as).equalM ask (.tuple bs)) :=
    equalM_decides hD ((itemsWellFormed_iff as).2 ha) ((itemsWellFormed_iff bs).2 hb) hask
  rw [← same_tuple_iff]
  simp only [equalM] at h
  exact h

end ExprGraph.Argument
