/-
  Sameness of arguments — what it means for two arguments to be equal, said without a procedure.

  `Argument.equalM` is a traversal: it asks questions in an order and stops early.  Here is the
  relation that it decides.  It is a parameter what makes two nodes the same; everything around the
  nodes is fixed.

  1. **Relation** — `Argument.Same R` relates arguments of one form: literals with equal values
     (numbers with equal keys), tuples that are related position by position, and maps that have
     related values, or none, under every key.

  2. **Places** — `Argument.get?` finds what stands at a place, given by tuple indices and map keys.
     Same arguments have the same things at every place (`Same.get?`), and `R` matters for nodes
     only that stand at one place of both (`Same.imp_places`).

  3. **Laws** — `Same` is monotone in `R` (`Same.imp`), turns around with it (`Same.swap`), composes
     (`Same.comp`), and is reflexive where `R` is (`Same.refl`).  In each of them only the nodes
     inside the two arguments matter, which is what a recursion over a graph needs.

  4. **Dictionaries** — maps with distinct keys are the same if and only if the one can be
     rearranged so that keys are equal and values are the same, entry by entry
     (`exists_perm_of_lookup_rel`); so they have one length, and scanning one side finds everything
     (`lookup_rel_iff_scan`).

  5. **Spelling** — same arguments are spelled by the same tokens (`Same.tokens_eq`), whatever the
     hasher and however the maps are ordered.
-/
import ExprGraph.Argument.WellFormed
import ExprGraph.Digest
import Mathlib.Data.List.Forall2
import Mathlib.Data.List.Perm.Subperm

namespace ExprGraph.Argument

/-! ## Induction over arguments -/

/-- **Induction over arguments**: the members of a tuple and the values of a map come with the
    hypothesis. -/
@[induction_eliminator]
theorem induction {motive : Argument → Prop} (node : ∀ n, motive (.node n)) (none : motive .none)
    (bool : ∀ b, motive (.bool b)) (int : ∀ i, motive (.int i)) (float : ∀ x, motive (.float x))
    (text : ∀ s, motive (.text s)) (shape : ∀ s, motive (.shape s))
    (dataType : ∀ t, motive (.dataType t))
    (tuple : ∀ items, (∀ a ∈ items, motive a) → motive (.tuple items))
    (map : ∀ entries, (∀ e ∈ entries, motive e.2) → motive (.map entries)) (a : Argument) :
    motive a := by
  refine @Argument.rec motive (fun items => ∀ a ∈ items, motive a)
    (fun entries => ∀ e ∈ entries, motive e.2) (fun e => motive e.2) node none bool int float text
    shape dataType tuple map ?_ ?_ ?_ ?_ ?_ a
  · exact fun a ha => absurd ha List.not_mem_nil
  · intro a as ha has x hx
    rcases List.mem_cons.1 hx with rfl | hx
    · exact ha
    · exact has x hx
  · exact fun e he => absurd he List.not_mem_nil
  · intro e es he hes x hx
    rcases List.mem_cons.1 hx with rfl | hx
    · exact he
    · exact hes x hx
  · exact fun _ _ ha => ha

/-! ## The relation -/

/-- **Two arguments are the same**, if `R` says which nodes are. -/
inductive Same (R : NodeId → NodeId → Prop) : Argument → Argument → Prop where
  | node {a b : NodeId} : R a b → Same R (.node a) (.node b)
  | none : Same R .none .none
  | bool (b : Bool) : Same R (.bool b) (.bool b)
  | int (i : Int64) : Same R (.int i) (.int i)
  | float {x y : Binary64} : x.key = y.key → Same R (.float x) (.float y)
  | text (s : String) : Same R (.text s) (.text s)
  | shape (s : Shape) : Same R (.shape s) (.shape s)
  | dataType (t : DataType) : Same R (.dataType t) (.dataType t)
  | tuple {as bs : List Argument} : List.Forall₂ (Same R) as bs → Same R (.tuple as) (.tuple bs)
  | map {as bs : List (String × Argument)} :
      (∀ key, Option.Rel (Same R) (as.lookup key) (bs.lookup key)) → Same R (.map as) (.map bs)

variable {R S : NodeId → NodeId → Prop}

theorem same_tuple_iff {as bs : List Argument} :
    Same R (.tuple as) (.tuple bs) ↔ List.Forall₂ (Same R) as bs := by
  constructor
  · intro h
    cases h with
    | tuple h => exact h
  · exact Same.tuple

theorem same_map_iff {as bs : List (String × Argument)} :
    Same R (.map as) (.map bs) ↔ ∀ key, Option.Rel (Same R) (as.lookup key) (bs.lookup key) := by
  constructor
  · intro h
    cases h with
    | map h => exact h
  · exact Same.map

/-! ## Nodes inside containers -/

theorem mem_nodes_tuple {items : List Argument} {n : NodeId} :
    n ∈ (Argument.tuple items).nodes ↔ ∃ a ∈ items, n ∈ a.nodes := by
  rw [nodes, nodesOfItems_eq, List.mem_flatMap]

theorem mem_nodes_map {entries : List (String × Argument)} {n : NodeId} :
    n ∈ (Argument.map entries).nodes ↔ ∃ e ∈ entries, n ∈ e.2.nodes := by
  rw [nodes, nodesOfEntries_eq, List.mem_flatMap]

/-- A value that is found under a key stands in an entry. -/
theorem mem_of_lookup_eq_some {β : Type} {entries : List (String × β)} {key : String} {b : β}
    (h : entries.lookup key = some b) : (key, b) ∈ entries := by
  obtain ⟨front, back, rfl, -⟩ := List.lookup_eq_some_iff.1 h
  simp

/-! ## Places -/

/-- One step into a container. -/
inductive Step where
  | item (index : Nat)
  | key (name : String)
  deriving DecidableEq

/-- **What stands at a place** of an argument; a place is spelled from the outside in. -/
def get? : Argument → List Step → Option Argument
  | a, [] => some a
  | .tuple items, .item i :: rest => items[i]?.bind fun a => a.get? rest
  | .map entries, .key name :: rest => (entries.lookup name).bind fun a => a.get? rest
  | _, _ :: _ => Option.none

theorem get?_nil (a : Argument) : a.get? [] = some a := by
  cases a <;> rfl

theorem get?_item {items : List Argument} {i : Nat} {rest : List Step} {x : Argument} :
    (Argument.tuple items).get? (.item i :: rest) = some x ↔
      ∃ a, items[i]? = some a ∧ a.get? rest = some x := by
  rw [get?, Option.bind_eq_some_iff]

theorem get?_key {entries : List (String × Argument)} {name : String} {rest : List Step}
    {x : Argument} :
    (Argument.map entries).get? (.key name :: rest) = some x ↔
      ∃ a, entries.lookup name = some a ∧ a.get? rest = some x := by
  rw [get?, Option.bind_eq_some_iff]

example : (Argument.tuple [.none, .map [("k", .node 5)]]).get? [.item 1, .key "k"] =
    some (.node 5) := rfl

/-- Only tuples and maps have anything inside. -/
theorem get?_cons {a : Argument} {step : Step} {rest : List Step} {x : Argument}
    (h : a.get? (step :: rest) = some x) :
    (∃ items i, a = .tuple items ∧ step = .item i ∧
        ∃ b, items[i]? = some b ∧ b.get? rest = some x) ∨
      ∃ entries name, a = .map entries ∧ step = .key name ∧
        ∃ b, entries.lookup name = some b ∧ b.get? rest = some x := by
  cases a with
  | tuple items =>
    cases step with
    | item i => exact Or.inl ⟨items, i, rfl, rfl, get?_item.1 h⟩
    | key name => simp [get?] at h
  | map entries =>
    cases step with
    | item i => simp [get?] at h
    | key name => exact Or.inr ⟨entries, name, rfl, rfl, get?_key.1 h⟩
  | _ => simp [get?] at h

/-- A node that stands at a place is one of the nodes inside. -/
theorem mem_nodes_of_get? {a : Argument} {place : List Step} {n : NodeId}
    (h : a.get? place = some (.node n)) : n ∈ a.nodes := by
  induction place generalizing a with
  | nil =>
    rw [get?_nil] at h
    cases h
    simp [nodes]
  | cons step rest ih =>
    rcases get?_cons h with ⟨items, i, rfl, -, b, hb, h⟩ | ⟨entries, name, rfl, -, b, hb, h⟩
    · exact mem_nodes_tuple.2 ⟨b, List.mem_of_getElem? hb, ih h⟩
    · exact mem_nodes_map.2 ⟨_, mem_of_lookup_eq_some hb, ih h⟩

/-! ## Laws -/

/-- Two sequences that are related, of which only what stands at one index matters. -/
theorem forall₂_imp_of_getElem? {α β : Type} {P Q : α → β → Prop} {as : List α} {bs : List β}
    (h : List.Forall₂ P as bs)
    (hPQ : ∀ (i : Nat) (a : α) (b : β), as[i]? = some a → bs[i]? = some b → P a b → Q a b) :
    List.Forall₂ Q as bs := by
  induction h with
  | nil => exact .nil
  | cons hab _ ih =>
    refine .cons (hPQ 0 _ _ rfl rfl hab) (ih fun i x y hx hy => hPQ (i + 1) x y ?_ ?_)
    · rwa [List.getElem?_cons_succ]
    · rwa [List.getElem?_cons_succ]

/-- Two sequences that are related, of which only the members matter. -/
theorem forall₂_imp_of_mem {α β : Type} {P Q : α → β → Prop} {as : List α} {bs : List β}
    (h : List.Forall₂ P as bs) (hPQ : ∀ a ∈ as, ∀ b ∈ bs, P a b → Q a b) :
    List.Forall₂ Q as bs :=
  forall₂_imp_of_getElem? h fun _ a b ha hb =>
    hPQ a (List.mem_of_getElem? ha) b (List.mem_of_getElem? hb)

/-- Related sequences have related members at one index. -/
theorem forall₂_getElem? {α β : Type} {P : α → β → Prop} {as : List α} {bs : List β}
    (h : List.Forall₂ P as bs) {i : Nat} {a : α} {b : β} (ha : as[i]? = some a)
    (hb : bs[i]? = some b) : P a b := by
  obtain ⟨hi, rfl⟩ := List.getElem?_eq_some_iff.1 ha
  obtain ⟨hj, rfl⟩ := List.getElem?_eq_some_iff.1 hb
  exact h.get hi hj

/-- Two relations of sequences, one behind the other. -/
theorem forall₂_trans_of_mem {α β γ : Type} {P : α → β → Prop} {Q : β → γ → Prop}
    {T : α → γ → Prop} {as : List α} {bs : List β} {cs : List γ} (h : List.Forall₂ P as bs)
    (h' : List.Forall₂ Q bs cs) (hT : ∀ a ∈ as, ∀ b c, P a b → Q b c → T a c) :
    List.Forall₂ T as cs := by
  induction h generalizing cs with
  | nil =>
    cases h'
    exact .nil
  | @cons a b as bs hab _ ih =>
    cases h' with
    | cons hbc hrest =>
      refine .cons (hT a List.mem_cons_self b _ hab hbc) (ih hrest fun x hx => ?_)
      exact hT x (List.mem_cons_of_mem a hx)

theorem optionRel_imp {α β : Type} {P Q : α → β → Prop} {x : Option α} {y : Option β}
    (h : Option.Rel P x y) (hPQ : ∀ a b, x = some a → y = some b → P a b → Q a b) :
    Option.Rel Q x y := by
  cases h with
  | none => exact .none
  | some h => exact .some (hPQ _ _ rfl rfl h)

theorem optionRel_swap {α β : Type} {P : α → β → Prop} {x : Option α} {y : Option β}
    (h : Option.Rel P x y) : Option.Rel (fun b a => P a b) y x := by
  cases h with
  | none => exact .none
  | some h => exact .some h

theorem optionRel_trans {α β γ : Type} {P : α → β → Prop} {Q : β → γ → Prop} {T : α → γ → Prop}
    {x : Option α} {y : Option β} {z : Option γ} (h : Option.Rel P x y) (h' : Option.Rel Q y z)
    (hT : ∀ a b c, x = some a → P a b → Q b c → T a c) : Option.Rel T x z := by
  cases h with
  | none => cases h'; exact .none
  | some hab =>
    cases h' with
    | some hbc => exact .some (hT _ _ _ rfl hab hbc)

theorem Same.refl {a : Argument} (hR : ∀ n ∈ a.nodes, R n n) : Same R a a := by
  induction a with
  | node n => exact .node (hR n (by simp [nodes]))
  | none => exact .none
  | bool b => exact .bool b
  | int i => exact .int i
  | float x => exact .float rfl
  | text s => exact .text s
  | shape s => exact .shape s
  | dataType t => exact .dataType t
  | tuple items ih =>
    refine .tuple (List.forall₂_same.2 fun a ha => ih a ha fun n hn => ?_)
    exact hR n (mem_nodes_tuple.2 ⟨a, ha, hn⟩)
  | map entries ih =>
    refine .map fun key => ?_
    cases h : entries.lookup key with
    | none => exact .none
    | some a =>
      have ha := mem_of_lookup_eq_some h
      exact .some (ih _ ha fun n hn => hR n (mem_nodes_map.2 ⟨_, ha, hn⟩))

/-- **Sameness grows with the relation on nodes**, which is only asked about nodes that stand at one
    place of both arguments. -/
theorem Same.imp_places {a b : Argument} (h : Same R a b)
    (hRS : ∀ place c d, a.get? place = some (.node c) → b.get? place = some (.node d) →
      R c d → S c d) : Same S a b := by
  induction a generalizing b with
  | node n =>
    cases h with
    | node h => exact .node (hRS [] _ _ rfl rfl h)
  | none => cases h; exact .none
  | bool b => cases h; exact .bool b
  | int i => cases h; exact .int i
  | float x =>
    cases h with
    | float h => exact .float h
  | text s => cases h; exact .text s
  | shape s => cases h; exact .shape s
  | dataType t => cases h; exact .dataType t
  | tuple items ih =>
    cases h with
    | tuple h =>
      refine .tuple (forall₂_imp_of_getElem? h fun i a b ha hb hab => ?_)
      refine ih a (List.mem_of_getElem? ha) hab fun place c d hc hd => ?_
      exact hRS (.item i :: place) c d (get?_item.2 ⟨a, ha, hc⟩) (get?_item.2 ⟨b, hb, hd⟩)
  | map entries ih =>
    cases h with
    | map h =>
      refine .map fun key => optionRel_imp (h key) fun a b ha hb hab => ?_
      refine ih _ (mem_of_lookup_eq_some ha) hab fun place c d hc hd => ?_
      exact hRS (.key key :: place) c d (get?_key.2 ⟨a, ha, hc⟩) (get?_key.2 ⟨b, hb, hd⟩)

/-- The same, for all nodes inside the two arguments. -/
theorem Same.imp {a b : Argument} (h : Same R a b)
    (hRS : ∀ c ∈ a.nodes, ∀ d ∈ b.nodes, R c d → S c d) : Same S a b :=
  h.imp_places fun _ c d hc hd => hRS c (mem_nodes_of_get? hc) d (mem_nodes_of_get? hd)

/-- **Same arguments have the same things** at every place. -/
theorem Same.get? {a b x y : Argument} {place : List Step} (h : Same R a b)
    (ha : a.get? place = some x) (hb : b.get? place = some y) : Same R x y := by
  induction place generalizing a b with
  | nil =>
    rw [get?_nil] at ha hb
    cases ha
    cases hb
    exact h
  | cons step rest ih =>
    rcases get?_cons ha with ⟨as, i, rfl, rfl, u, hu, ha⟩ | ⟨as, name, rfl, rfl, u, hu, ha⟩
    · cases h with
      | tuple h =>
        obtain ⟨v, hv, hb⟩ := get?_item.1 hb
        exact ih (forall₂_getElem? h hu hv) ha hb
    · cases h with
      | map h =>
        obtain ⟨v, hv, hb⟩ := get?_key.1 hb
        have huv := h name
        rw [hu, hv] at huv
        cases huv with
        | some huv => exact ih huv ha hb

/-- **Sameness turns around** with the relation on nodes. -/
theorem Same.swap {a b : Argument} (h : Same R a b) : Same (fun d c => R c d) b a := by
  induction a generalizing b with
  | node n =>
    cases h with
    | node h => exact .node h
  | none => cases h; exact .none
  | bool b => cases h; exact .bool b
  | int i => cases h; exact .int i
  | float x =>
    cases h with
    | float h => exact .float h.symm
  | text s => cases h; exact .text s
  | shape s => cases h; exact .shape s
  | dataType t => cases h; exact .dataType t
  | tuple items ih =>
    cases h with
    | tuple h => exact .tuple (forall₂_imp_of_mem h fun a ha b _ hab => ih a ha hab).flip
  | map entries ih =>
    cases h with
    | map h =>
      refine .map fun key => optionRel_swap (optionRel_imp (h key) fun a b ha _ hab => ?_)
      exact ih _ (mem_of_lookup_eq_some ha) hab

/-- **Sameness composes** with the relations on nodes. -/
theorem Same.comp {a b c : Argument} (h : Same R a b) (h' : Same S b c) :
    Same (fun x z => ∃ y, R x y ∧ S y z) a c := by
  induction a generalizing b c with
  | node n =>
    cases h with
    | node h =>
      cases h' with
      | node h' => exact .node ⟨_, h, h'⟩
  | none => cases h; cases h'; exact .none
  | bool b => cases h; cases h'; exact .bool b
  | int i => cases h; cases h'; exact .int i
  | float x =>
    cases h with
    | float h =>
      cases h' with
      | float h' => exact .float (h.trans h')
  | text s => cases h; cases h'; exact .text s
  | shape s => cases h; cases h'; exact .shape s
  | dataType t => cases h; cases h'; exact .dataType t
  | tuple items ih =>
    cases h with
    | tuple h =>
      cases h' with
      | tuple h' =>
        exact .tuple (forall₂_trans_of_mem h h' fun a ha b c hab hbc => ih a ha hab hbc)
  | map entries ih =>
    cases h with
    | @map _ bs h =>
      cases h' with
      | @map _ cs h' =>
        exact .map fun key => optionRel_trans (h key) (h' key) fun a b c ha hab hbc =>
          ih _ (mem_of_lookup_eq_some ha) hab hbc

/-! ## Dictionaries

  A scan of the left side finds every key of the right one, because keys are distinct and there are
  as many on either side. -/

section Dictionaries

variable {β : Type} {P : β → β → Prop} {as bs : List (String × β)}

theorem lookup_eq_none_iff_keys {key : String} :
    as.lookup key = Option.none ↔ key ∉ as.map Prod.fst := by
  rw [List.lookup_eq_none_iff]
  constructor
  · intro h hmem
    obtain ⟨e, he, rfl⟩ := List.mem_map.1 hmem
    simpa using h e he
  · intro h e he
    refine bne_iff_ne.2 fun hkey => h ?_
    exact List.mem_map.2 ⟨e, he, hkey.symm⟩

/-- What stands in an entry is found under its key, if no key stands twice. -/
theorem lookup_eq_some_of_mem (hk : (as.map Prod.fst).Nodup) {e : String × β} (he : e ∈ as) :
    as.lookup e.1 = some e.2 := by
  induction as with
  | nil => exact absurd he List.not_mem_nil
  | cons x rest ih =>
    rw [List.map_cons, List.nodup_cons] at hk
    rcases List.mem_cons.1 he with rfl | he
    · exact List.lookup_cons_self
    · have hne : e.1 ≠ x.1 := fun h => hk.1 (h ▸ List.mem_map_of_mem he)
      rw [List.lookup_cons, beq_eq_false_iff_ne.2 hne]
      exact ih hk.2 he

/-- Taking an entry out leaves what is found under the other keys. -/
theorem lookup_append_cons_of_ne {front back : List (String × β)} {key k : String} {b : β}
    (h : k ≠ key) : (front ++ (key, b) :: back).lookup k = (front ++ back).lookup k := by
  rw [List.lookup_append, List.lookup_append, List.lookup_cons, beq_eq_false_iff_ne.2 h]

/-- **Dictionaries with related values under every key** are related entry by entry, once the right
    one is rearranged. -/
theorem exists_perm_of_lookup_rel (ha : (as.map Prod.fst).Nodup) (hb : (bs.map Prod.fst).Nodup)
    (h : ∀ key, Option.Rel P (as.lookup key) (bs.lookup key)) :
    ∃ cs, cs.Perm bs ∧ List.Forall₂ (fun x y => x.1 = y.1 ∧ P x.2 y.2) as cs := by
  induction as generalizing bs with
  | nil =>
    refine ⟨[], ?_, .nil⟩
    cases bs with
    | nil => exact .nil
    | cons e rest =>
      have he := h e.1
      rw [List.lookup_cons_self] at he
      cases he
  | cons x rest ih =>
    rcases x with ⟨key, a⟩
    rw [List.map_cons, List.nodup_cons] at ha
    have hkey := h key
    rw [List.lookup_cons_self] at hkey
    generalize hfound : bs.lookup key = found at hkey
    cases hkey with
    | @some _ b hab =>
      -- the entry of the key is taken out on the right, and the others are related again
      obtain ⟨front, back, rfl, -⟩ := List.lookup_eq_some_iff.1 hfound
      have hmiddle : (((key, b) :: (front ++ back)).map Prod.fst).Nodup :=
        (List.perm_middle.map Prod.fst).nodup_iff.1 hb
      rw [List.map_cons, List.nodup_cons] at hmiddle
      have hrest : ∀ k, Option.Rel P (rest.lookup k) ((front ++ back).lookup k) := by
        intro k
        by_cases hk : k = key
        · rw [hk, lookup_eq_none_iff_keys.2 ha.1, lookup_eq_none_iff_keys.2 hmiddle.1]
          exact .none
        · have := h k
          rwa [List.lookup_cons, beq_eq_false_iff_ne.2 hk, lookup_append_cons_of_ne hk] at this
      obtain ⟨cs, hperm, hcs⟩ := ih ha.2 hmiddle.2 hrest
      exact ⟨(key, b) :: cs, (hperm.cons _).trans List.perm_middle.symm, .cons ⟨rfl, hab⟩ hcs⟩

/-- **One scan decides**: equal lengths, and a related value under each key of the left side. -/
theorem lookup_rel_iff_scan (ha : (as.map Prod.fst).Nodup) (hb : (bs.map Prod.fst).Nodup) :
    (∀ key, Option.Rel P (as.lookup key) (bs.lookup key)) ↔
      as.length = bs.length ∧ ∀ e ∈ as, ∃ b, bs.lookup e.1 = some b ∧ P e.2 b := by
  constructor
  · intro h
    obtain ⟨cs, hperm, hcs⟩ := exists_perm_of_lookup_rel ha hb h
    refine ⟨hcs.length_eq.trans hperm.length_eq, fun e he => ?_⟩
    have hkey := h e.1
    rw [lookup_eq_some_of_mem ha he] at hkey
    generalize hfound : bs.lookup e.1 = found at hkey
    cases hkey with
    | some hab => exact ⟨_, rfl, hab⟩
  · rintro ⟨hlength, hscan⟩ key
    cases hfound : as.lookup key with
    | some a =>
      obtain ⟨b, hb, hab⟩ := hscan _ (mem_of_lookup_eq_some hfound)
      rw [hb]
      exact .some hab
    | none =>
      -- all keys of the left side are keys of the right one, which has no room for others
      have hsub : as.map Prod.fst ⊆ bs.map Prod.fst := by
        intro k hk
        obtain ⟨e, he, rfl⟩ := List.mem_map.1 hk
        obtain ⟨b, hb, -⟩ := hscan e he
        exact List.mem_map.2 ⟨_, mem_of_lookup_eq_some hb, rfl⟩
      have hperm : (as.map Prod.fst).Perm (bs.map Prod.fst) := by
        refine (ha.subperm hsub).perm_of_length_le ?_
        rw [List.length_map, List.length_map]
        exact Nat.le_of_eq hlength.symm
      have hnone : bs.lookup key = Option.none := by
        rw [lookup_eq_none_iff_keys] at hfound ⊢
        exact fun hmem => hfound (hperm.mem_iff.2 hmem)
      rw [hnone]
      exact .none

end Dictionaries

/-! ## Spelling -/

section Spelling

variable {H : Hasher} {d e : NodeId → UInt64}

theorem itemTokens_eq_of_forall₂ {as bs : List Argument}
    (h : List.Forall₂ (fun a b => a.tokens H d = b.tokens H e) as bs) :
    itemTokens H d as = itemTokens H e bs := by
  induction h with
  | nil => rfl
  | cons hab _ ih => rw [itemTokens, itemTokens, hab, ih]

theorem entrySum_eq_of_forall₂ {as bs : List (String × Argument)}
    (h : List.Forall₂ (fun x y => x.1 = y.1 ∧ x.2.tokens H d = y.2.tokens H e) as bs) :
    entrySum H d as = entrySum H e bs := by
  induction h with
  | nil => rfl
  | @cons x y as bs hxy _ ih =>
    rcases x with ⟨key, a⟩
    rcases y with ⟨_, b⟩
    obtain ⟨rfl, hab⟩ := hxy
    rw [entrySum, entrySum, hab, ih]

/-- **A sum does not know the order of its terms.** -/
theorem entrySum_perm {as bs : List (String × Argument)} (h : as.Perm bs) :
    entrySum H d as = entrySum H d bs := by
  induction h with
  | nil => rfl
  | cons x _ ih => rw [entrySum, entrySum, ih]
  | swap x y rest =>
    simp only [entrySum]
    rw [← UInt64.add_assoc, ← UInt64.add_assoc, UInt64.add_comm (H.digest _)]
  | trans _ _ ih₁ ih₂ => exact ih₁.trans ih₂

/-- **Same arguments are spelled alike**, if the same nodes have equal digests. -/
theorem Same.tokens_eq {a b : Argument} (h : Same R a b) (ha : a.WellFormed) (hb : b.WellFormed)
    (hR : ∀ m ∈ a.nodes, ∀ n ∈ b.nodes, R m n → d m = e n) : a.tokens H d = b.tokens H e := by
  induction a generalizing b with
  | node n =>
    cases h with
    | node h => rw [tokens, tokens, hR _ (by simp [nodes]) _ (by simp [nodes]) h]
  | none => cases h; rfl
  | bool b => cases h; rfl
  | int i => cases h; rfl
  | float x =>
    cases h with
    | float h => rw [tokens, tokens, h]
  | text s => cases h; rfl
  | shape s => cases h; rfl
  | dataType t => cases h; rfl
  | tuple as ih =>
    cases h with
    | @tuple _ bs h =>
      have hitems : List.Forall₂ (fun a b => a.tokens H d = b.tokens H e) as bs := by
        refine forall₂_imp_of_mem h fun a ha' b hb' hab => ?_
        refine ih a ha' hab ((itemsWellFormed_iff _).1 ha a ha')
          ((itemsWellFormed_iff _).1 hb b hb') fun m hm n hn => ?_
        exact hR m (mem_nodes_tuple.2 ⟨a, ha', hm⟩) n (mem_nodes_tuple.2 ⟨b, hb', hn⟩)
      rw [tokens, tokens, h.length_eq, itemTokens_eq_of_forall₂ hitems]
  | map as ih =>
    cases h with
    | @map _ bs h =>
      -- entry by entry the right map may have to be rearranged, and its sum does not notice
      obtain ⟨cs, hperm, hcs⟩ := exists_perm_of_lookup_rel ha.1 hb.1 h
      have hentries : List.Forall₂ (fun x y => x.1 = y.1 ∧ x.2.tokens H d = y.2.tokens H e)
          as cs := by
        refine forall₂_imp_of_mem hcs fun x hx y hy hxy => ⟨hxy.1, ?_⟩
        have hy' := hperm.mem_iff.1 hy
        refine ih x hx hxy.2 ((entriesWellFormed_iff _).1 ha.2 x hx)
          ((entriesWellFormed_iff _).1 hb.2 y hy') fun m hm n hn => ?_
        exact hR m (mem_nodes_map.2 ⟨x, hx, hm⟩) n (mem_nodes_map.2 ⟨y, hy', hn⟩)
      rw [tokens, tokens, entrySum_eq_of_forall₂ hentries, entrySum_perm hperm,
        hcs.length_eq, hperm.length_eq]

end Spelling

end ExprGraph.Argument
