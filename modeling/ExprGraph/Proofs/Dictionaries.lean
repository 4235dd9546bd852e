/-
  Dictionaries — maps are compared by what is found in them.

  A map is built from a sequence of entries in which keys may come again.  It is stored as a list
  with an order of its own, compared by one scan of the left side, and hashed by a sum.  Nothing of
  this shows: all that counts is which value was written last under each key.

  1. **Specification** — `Argument.lastValue?` is the last value of a key in a sequence of entries.
     It is what is found in the map that is built from them (`lookup_entriesOf`).

  2. **Order** — `Reordered`: the same entries in another order, those of one key in the order in
     which they were.  Any permutation is one, if no key comes twice (`Reordered.of_perm`).

  3. **Result** — maps are equal if and only if the same keys were written, and the last values of
     each key are equal; neither the order of entries nor the side of a map matters, and equal maps
     feed any hasher alike.
-/
import ExprGraph.Proofs.Digests
import ExprGraph.Proofs.Substitution

namespace ExprGraph

namespace Argument

variable {xs ys xs' : List (String × Argument)} {key : String}

/-! ## The last value of a key -/

/-- **The last value written** under a key. -/
def lastValue? (entries : List (String × Argument)) (key : String) : Option Argument :=
  entries.reverse.lookup key

/-- Entries put into a dictionary hide what was there before. -/
theorem lookup_foldl_putEntry (xs m : List (String × Argument)) (key : String) :
    (xs.foldl (fun m e => putEntry e.1 e.2 m) m).lookup key =
      (lastValue? xs key).or (m.lookup key) := by
  induction xs generalizing m with
  | nil => rfl
  | cons e rest ih =>
    have hlast : lastValue? (e :: rest) key = (lastValue? rest key).or ([e].lookup key) := by
      rw [lastValue?, List.reverse_cons, List.lookup_append]
      rfl
    have hput : (putEntry e.1 e.2 m).lookup key = ([e].lookup key).or (m.lookup key) := by
      rw [lookup_putEntry, List.lookup_cons]
      by_cases hkey : key = e.1
      · rw [if_pos hkey, beq_iff_eq.2 hkey]
        rfl
      · rw [if_neg hkey, beq_eq_false_iff_ne.2 hkey]
        rfl
    rw [List.foldl_cons, ih, hput, hlast, Option.or_assoc]

/-- **The last value is the one that is found.** -/
theorem lookup_entriesOf (xs : List (String × Argument)) (key : String) :
    (entriesOf xs).lookup key = lastValue? xs key := by
  rw [entriesOf, lookup_foldl_putEntry]
  exact Option.or_none

theorem mem_of_lastValue? {x : Argument} (h : lastValue? xs key = some x) : (key, x) ∈ xs :=
  List.mem_reverse.1 (mem_of_lookup_eq_some h)

theorem isSome_lastValue?_iff : (lastValue? xs key).isSome ↔ key ∈ xs.map Prod.fst := by
  rw [← not_iff_not, Bool.not_eq_true, Option.isSome_eq_false_iff, Option.isNone_iff_eq_none,
    lastValue?, lookup_eq_none_iff_keys, List.map_reverse, List.mem_reverse]

/-! ## The order of entries -/

/-- **The same entries in another order**, those of one key in the order in which they were. -/
def Reordered (xs xs' : List (String × Argument)) : Prop :=
  ∀ key, xs.filter (fun e => e.1 == key) = xs'.filter fun e => e.1 == key

/-- Without repeated keys, any order will do. -/
theorem Reordered.of_perm (h : xs.Perm xs') (hkeys : (xs.map Prod.fst).Nodup) :
    Reordered xs xs' := by
  intro key
  -- two entries of the key would be a repetition, and what has one member at most has one order
  have hlone : ∀ zs : List (String × Argument), (zs.map Prod.fst).Nodup →
      (zs.filter fun e => e.1 == key).Pairwise fun _ _ => False := by
    intro zs hzs
    refine ((List.pairwise_map.1 hzs).filter _).imp_of_mem fun {x y} hx hy hne => hne ?_
    rw [beq_iff_eq.1 (List.mem_filter.1 hx).2, beq_iff_eq.1 (List.mem_filter.1 hy).2]
  exact (h.filter _).eq_of_pairwise (fun _ _ _ _ hfalse => hfalse.elim) (hlone xs hkeys)
    (hlone xs' ((h.map Prod.fst).nodup_iff.1 hkeys))

theorem Reordered.mem (h : Reordered xs xs') {e : String × Argument} (he : e ∈ xs') : e ∈ xs := by
  have hfilter : e ∈ xs'.filter fun x => x.1 == e.1 := List.mem_filter.2 ⟨he, beq_self_eq_true _⟩
  rw [← h e.1] at hfilter
  exact (List.mem_filter.1 hfilter).1

theorem lookup_filter (xs : List (String × Argument)) (key : String) :
    (xs.filter fun e => e.1 == key).lookup key = xs.lookup key := by
  induction xs with
  | nil => rfl
  | cons e rest ih =>
    by_cases hkey : key = e.1
    · rw [List.filter_cons, if_pos (beq_iff_eq.2 hkey.symm), List.lookup_cons, List.lookup_cons,
        beq_iff_eq.2 hkey]
    · rw [List.filter_cons, if_neg (fun h => hkey (beq_iff_eq.1 h).symm), ih, List.lookup_cons,
        beq_eq_false_iff_ne.2 hkey]

/-- **Another order makes the same dictionary.** -/
theorem Reordered.lastValue?_eq (h : Reordered xs xs') (key : String) :
    lastValue? xs key = lastValue? xs' key := by
  rw [lastValue?, lastValue?, ← lookup_filter, ← lookup_filter xs'.reverse, List.filter_reverse,
    List.filter_reverse, h key]

/-! ## Values under every key -/

theorem optionRel_iff {α β : Type} {P : α → β → Prop} {x : Option α} {y : Option β} :
    Option.Rel P x y ↔ (x.isSome ↔ y.isSome) ∧ ∀ a b, x = some a → y = some b → P a b := by
  cases x with
  | none =>
    cases y with
    | none => simp
    | some b => simp
  | some a =>
    cases y with
    | none => simp
    | some b => simp

/-- **Sameness of maps**, told by the entries that they are built from. -/
theorem same_ofEntries_iff {R : NodeId → NodeId → Prop} :
    Same R (.ofEntries xs) (.ofEntries ys) ↔
      (∀ key, key ∈ xs.map Prod.fst ↔ key ∈ ys.map Prod.fst) ∧
      ∀ key x y, lastValue? xs key = some x → lastValue? ys key = some y → Same R x y := by
  rw [ofEntries, ofEntries, same_map_iff]
  simp only [lookup_entriesOf, optionRel_iff, isSome_lastValue?_iff]
  exact forall_and

theorem Reordered.same_iff {ys' : List (String × Argument)} {R : NodeId → NodeId → Prop}
    (hx : Reordered xs xs') (hy : Reordered ys ys') :
    Same R (.ofEntries xs') (.ofEntries ys') ↔ Same R (.ofEntries xs) (.ofEntries ys) := by
  rw [ofEntries, ofEntries, ofEntries, ofEntries, same_map_iff, same_map_iff]
  simp only [lookup_entriesOf, hx.lastValue?_eq, hy.lastValue?_eq]

theorem same_comm {g : Graph} {H : Hasher} {x y : Argument} (hg : g.Built H) :
    Same g.Same x y ↔ Same g.Same y x :=
  ⟨fun h => h.swap.imp fun _ _ _ _ hcd => hcd.symm hg,
    fun h => h.swap.imp fun _ _ _ _ hcd => hcd.symm hg⟩

end Argument

namespace Session

variable {H : Hasher} {picker : ShardPicker} {s t u : Session}

open Argument

theorem Later.known (ht : s.Later t) (h : Reachable H picker s) {x : Argument} (hx : s.Known x) :
    t.Known x := ⟨hx.1, fun n hn => Nat.lt_of_lt_of_le (hx.2 n hn) (ht.size_le h)⟩

theorem known_ofEntries {xs : List (String × Argument)} (h : ∀ e ∈ xs, s.Known e.2) :
    s.Known (.ofEntries xs) := by
  have hw := wellFormed_ofEntries fun e he => (h e he).1
  refine ⟨hw, fun n hn => ?_⟩
  obtain ⟨e, he, hne⟩ := mem_nodes_map.1 hn
  -- whatever stands in the map is the last value of its key, and so it was an entry
  have hfound := lookup_eq_some_of_mem hw.1 he
  rw [lookup_entriesOf] at hfound
  exact (h _ (mem_of_lastValue? hfound)).2 n hne

/-- **Maps compare and hash as dictionaries.**  Two maps, built from entries with repeated keys or
    without, are equal if and only if they have the same keys, and equal values were written last
    under each key; this may be asked of any caches, and at any later times.  It makes no difference
    in which order the entries came, nor which map stands on the left.  And equal maps feed any
    hasher alike, whatever was fed before and is fed after. -/
theorem maps_compared_as_dictionaries (h : Reachable H picker s) (ht : s.Later t) (hu : s.Later u)
    (r₁ r₂ : CacheRef) {xs ys : List (String × Argument)} (hx : ∀ e ∈ xs, s.Known e.2)
    (hy : ∀ e ∈ ys, s.Known e.2) :
    (t.equalArguments r₁ (.ofEntries xs) (.ofEntries ys) = true ↔
      (∀ key, key ∈ xs.map Prod.fst ↔ key ∈ ys.map Prod.fst) ∧
      ∀ key x y, lastValue? xs key = some x → lastValue? ys key = some y →
        u.equalArguments r₂ x y = true) ∧
    (∀ xs' ys', Reordered xs xs' → Reordered ys ys' →
      u.equalArguments r₂ (.ofEntries xs') (.ofEntries ys') =
        t.equalArguments r₁ (.ofEntries xs) (.ofEntries ys) ∧
      u.equalArguments r₂ (.ofEntries ys') (.ofEntries xs') =
        t.equalArguments r₁ (.ofEntries xs) (.ofEntries ys)) ∧
    (t.equalArguments r₁ (.ofEntries xs) (.ofEntries ys) = true →
      ∀ (E : Hasher) (before after : List Token),
        E.digest (before ++ (ofEntries xs).tokens H t.graph.digest ++ after) =
          E.digest (before ++ (ofEntries ys).tokens H t.graph.digest ++ after)) := by
  have hknown : ∀ {zs : List (String × Argument)}, (∀ e ∈ zs, s.Known e.2) →
      s.Known (.ofEntries zs) := known_ofEntries
  have hmaps := ht.equalArguments_iff h r₁ (hknown hx) (hknown hy)
  refine ⟨?_, fun xs' ys' hxs hys => ?_, fun hequal E before after => ?_⟩
  · refine hmaps.trans (same_ofEntries_iff.trans (and_congr_right fun _ => ?_))
    refine forall_congr' fun key => forall₂_congr fun x y => ?_
    refine forall₂_congr fun hlast hlast' => ?_
    exact (hu.equalArguments_iff h r₂ (hx _ (mem_of_lastValue? hlast))
      (hy _ (mem_of_lastValue? hlast'))).symm
  · have hx' := hknown fun e he => hx e (hxs.mem he)
    have hy' := hknown fun e he => hy e (hys.mem he)
    have hsame : Same s.graph.Same (.ofEntries xs') (.ofEntries ys') ↔
        Same s.graph.Same (.ofEntries xs) (.ofEntries ys) := hxs.same_iff hys
    constructor
    · rw [Bool.eq_iff_iff, hmaps, hu.equalArguments_iff h r₂ hx' hy', hsame]
    · rw [Bool.eq_iff_iff, hmaps, hu.equalArguments_iff h r₂ hy' hx',
        same_comm h.consistent.built, hsame]
  · -- digests stand where they stood, and same arguments are spelled alike
    have htr := ht.reachable h
    have hx' := ht.known h (hknown hx)
    have hy' := ht.known h (hknown hy)
    have hsame := (Later.refl.equalArguments_iff htr r₁ hx' hy').1 hequal
    have htokens : (ofEntries xs).tokens H t.graph.digest =
        (ofEntries ys).tokens H t.graph.digest :=
      hsame.tokens_eq hx'.1 hy'.1 fun c hc d hd hcd =>
        hcd.digest_eq htr.consistent.built (hx'.2 c hc) (hy'.2 d hd)
    rw [htokens]

/-- A key that comes twice, first with a column and then with its renaming. -/
def overwritten : List (String × Argument) :=
  [("key", .node 0), ("flag", .bool true), ("key", .node 2)]

/-- The twin of the renaming, in another order. -/
def writtenOnce : List (String × Argument) := [("flag", .bool true), ("key", .node 3)]

theorem known_columns : (∀ e ∈ overwritten, twinColumns.Known e.2) ∧
    ∀ e ∈ writtenOnce, twinColumns.Known e.2 := by
  have hnode : ∀ n, n < twinColumns.graph.size → twinColumns.Known (.node n) := fun n hn =>
    ⟨trivial, fun m hm => List.mem_singleton.1 hm ▸ hn⟩
  have hflag : twinColumns.Known (.bool true) := ⟨trivial, fun m hm => absurd hm List.not_mem_nil⟩
  simp only [overwritten, writtenOnce, List.forall_mem_cons, List.not_mem_nil, false_imp_iff,
    implies_true, and_true]
  exact ⟨⟨hnode 0 (by decide), hflag, hnode 2 (by decide)⟩, hflag, hnode 3 (by decide)⟩

/-- The two maps are equal, now and when one of them is reordered and stands on the other side. -/
theorem maps_compared_as_dictionaries_twinColumns :
    let t := twinColumns.perform (.newCache 4)
    Reachable .mixing .standard twinColumns ∧ twinColumns.Later t ∧
    (∀ e ∈ overwritten, twinColumns.Known e.2) ∧ (∀ e ∈ writtenOnce, twinColumns.Known e.2) ∧
    twinColumns.equalArguments .shared (.ofEntries overwritten) (.ofEntries writtenOnce) = true ∧
    t.equalArguments (.pass 0) (.ofEntries writtenOnce.reverse) (.ofEntries overwritten) = true ∧
    ∀ (E : Hasher) (before after : List Token),
      E.digest (before ++ (ofEntries overwritten).tokens .mixing twinColumns.graph.digest ++
          after) =
        E.digest (before ++ (ofEntries writtenOnce).tokens .mixing twinColumns.graph.digest ++
          after) := by
  intro t
  have hlater : twinColumns.Later t := .perform _ .refl trivial
  obtain ⟨hknown, hknown'⟩ := known_columns
  obtain ⟨hiff, horder, hdigest⟩ := maps_compared_as_dictionaries reachable_twinColumns .refl hlater
    .shared (.pass 0) hknown hknown'
  have hequal : twinColumns.equalArguments .shared (.ofEntries overwritten)
      (.ofEntries writtenOnce) = true := by
    refine hiff.2 ⟨fun key => ?_, fun key x y hx hy => ?_⟩
    · simp only [overwritten, writtenOnce, List.map_cons, List.map_nil, List.mem_cons,
        List.not_mem_nil]
      tauto
    · have hmem := mem_of_lastValue? hy
      simp only [writtenOnce, List.mem_cons, Prod.mk.injEq, List.not_mem_nil, or_false] at hmem
      refine (hlater.equalArguments_iff reachable_twinColumns _ (hknown _ (mem_of_lastValue? hx))
        (hknown' _ (mem_of_lastValue? hy))).2 ?_
      rcases hmem with ⟨rfl, rfl⟩ | ⟨rfl, rfl⟩
      · cases hx
        exact .bool true
      · cases hx
        exact .node same_renamedColumns
  have hreverse : Reordered writtenOnce writtenOnce.reverse :=
    .of_perm writtenOnce.reverse_perm.symm (by decide)
  refine ⟨reachable_twinColumns, hlater, hknown, hknown', hequal, ?_, hdigest hequal⟩
  exact (horder overwritten writtenOnce.reverse (fun _ => rfl) hreverse).2.trans hequal

end Session

end ExprGraph
