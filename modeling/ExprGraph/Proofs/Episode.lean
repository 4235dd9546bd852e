/-
  Episodes — what one comparison does to its cache.

  The record of a comparison is well nested: a miss stands in front of everything that the
  comparison of the two argument tuples does, and the store of the outcome stands behind it.
  Between the two, only pairs below the missed one are asked for, so a comparison never comes back
  to a pair that it has not finished.

  1. **Pairs** — a pair is spelled in one way (`Pair.of_eq_iff`), and two nodes below two others
     never make up the same pair (`of_ne_of_lt`).

  2. **Grammar** — `Episode g R c steps`: the steps are those of comparisons, started on the cache
     `c`, of nodes that `R` relates.  An outcome is stored when it is settled (`Graph.Settles`): it
     is that of `Graph.Same`, the digests agree, and a positive one rests on positive answers about
     all nodes that stand opposite each other.

  3. **Contents** — a comparison stores exactly what it misses (`Episode.stored_perm_missed`), all
     of it new (`Episode.fresh`) and none of it twice (`Episode.nodup_missed`); and the outcomes in
     the cache stay right (`Episode.sound`).

  4. **Correctness** — the recorded comparison is an episode, and answers what the specification
     says (`recordEqualM_asks`, `recordArgumentsM_asks`).  This is the one place where digests are
     trusted.  A comparison that says yes has asked about every pair of opposite nodes, and leaves
     the answers in the cache (`recordContentsM_covered`).
-/
import ExprGraph.Proofs.Paths
import ExprGraph.Proofs.Replay
import Mathlib.Logic.Relation

namespace ExprGraph

/-! ## Pairs -/

namespace Pair

theorem of_eq_iff {a b c d : NodeId} :
    Pair.of a b = Pair.of c d ↔ (a = c ∧ b = d) ∨ (a = d ∧ b = c) := by
  constructor
  · intro h
    unfold Pair.of at h
    split at h <;> split at h <;> cases h <;> simp
  · rintro (⟨rfl, rfl⟩ | ⟨rfl, rfl⟩)
    · rfl
    · exact Pair.of_comm a b

/-- Nodes below `a` and below `b` make up another pair than `a` and `b`. -/
theorem of_ne_of_lt {a b c d : NodeId} (hc : c < a) (hd : d < b) : Pair.of a b ≠ Pair.of c d := by
  intro h
  rcases of_eq_iff.1 h with ⟨rfl, -⟩ | ⟨rfl, rfl⟩
  · exact Nat.lt_irrefl _ hc
  · exact Nat.lt_asymm hc hd

theorem low_lt_high_of {a b : NodeId} (h : a ≠ b) : (Pair.of a b).low < (Pair.of a b).high := by
  unfold Pair.of
  split
  · rename_i hab
    exact Nat.lt_of_le_of_ne hab h
  · rename_i hab
    exact Nat.lt_of_not_le hab

theorem of_low_high {p : Pair} (h : p.low < p.high) : Pair.of p.low p.high = p := by
  rw [Pair.of, if_pos (Nat.le_of_lt h)]

end Pair

/-! ## What is missed and what is stored -/

namespace CacheStep

/-- The pair that a step misses. -/
def missed? : CacheStep → Option Pair
  | .miss pair => some pair
  | _ => none

/-- The pair that a step stores. -/
def stored? : CacheStep → Option Pair
  | .store a b _ => some (.of a b)
  | _ => none

/-- Is it a step of a comparison? -/
def OfComparison : CacheStep → Prop
  | .hit _ | .miss _ | .store .. => True
  | .destroyed _ | .clear _ => False

end CacheStep

/-- The pairs missed, in order. -/
def missedPairs (steps : List CacheStep) : List Pair := steps.filterMap CacheStep.missed?

/-- The pairs stored, in order. -/
def storedPairs (steps : List CacheStep) : List Pair := steps.filterMap CacheStep.stored?

theorem missedPairs_append (xs ys : List CacheStep) :
    missedPairs (xs ++ ys) = missedPairs xs ++ missedPairs ys := List.filterMap_append

theorem storedPairs_append (xs ys : List CacheStep) :
    storedPairs (xs ++ ys) = storedPairs xs ++ storedPairs ys := List.filterMap_append

@[simp] theorem missedPairs_miss (p : Pair) (rest : List CacheStep) :
    missedPairs (.miss p :: rest) = p :: missedPairs rest := rfl

@[simp] theorem missedPairs_store (a b : NodeId) (outcome : Bool) (rest : List CacheStep) :
    missedPairs (.store a b outcome :: rest) = missedPairs rest := rfl

@[simp] theorem storedPairs_miss (p : Pair) (rest : List CacheStep) :
    storedPairs (.miss p :: rest) = storedPairs rest := rfl

@[simp] theorem storedPairs_hit (p : Pair) (rest : List CacheStep) :
    storedPairs (.hit p :: rest) = storedPairs rest := rfl

@[simp] theorem storedPairs_store (a b : NodeId) (outcome : Bool) (rest : List CacheStep) :
    storedPairs (.store a b outcome :: rest) = .of a b :: storedPairs rest := rfl

namespace PairCache

/-- **Comparisons only add pairs**: what they store. -/
theorem isSome_lookup_replay {steps : List CacheStep} (h : ∀ step ∈ steps, step.OfComparison)
    (c : PairCache) (p : Pair) :
    ((c.replay steps).lookup p).isSome ↔ (c.lookup p).isSome ∨ p ∈ storedPairs steps := by
  induction steps generalizing c with
  | nil => simp [storedPairs]
  | cons step rest ih =>
    have hstep := h step List.mem_cons_self
    rw [replay_cons, ih fun x hx => h x (List.mem_cons_of_mem step hx)]
    cases step with
    | hit pair => simp [apply]
    | miss pair => simp [apply]
    | store a b outcome =>
      rw [apply, lookup_store, storedPairs_store, List.mem_cons]
      by_cases hp : Pair.of a b = p
      · simp [hp]
      · simp [hp, Ne.symm hp]
    | destroyed n => exact hstep.elim
    | clear entries => exact hstep.elim

end PairCache

/-- What is still unknown behind a comparison and its store was unknown before, and is neither the
    pair stored last nor one stored on the way. -/
theorem PairCache.unknown_of_store_replay {steps : List CacheStep}
    (h : ∀ step ∈ steps, step.OfComparison) {c : PairCache} {a b : NodeId} {outcome : Bool}
    {p : Pair}
    (hp : ((c.replay steps).store a b outcome).lookup p = none) :
    p ≠ .of a b ∧ p ∉ storedPairs steps ∧ c.lookup p = none := by
  rw [lookup_store] at hp
  split at hp
  · cases hp
  · rename_i hne
    have hkept := isSome_lookup_replay h c p
    rw [hp] at hkept
    have hnot : ¬ ((c.lookup p).isSome ∨ p ∈ storedPairs steps) := fun h => by simpa using hkept.2 h
    refine ⟨Ne.symm hne, fun hmem => hnot (Or.inr hmem), ?_⟩
    simpa using fun h => hnot (Or.inl h)

/-! ## Descent -/

namespace Graph

/-- There is a path from `a` down to `c`, which may be `a` itself. -/
def Reaches (g : Graph) : NodeId → NodeId → Prop :=
  Relation.ReflTransGen fun a c => c ∈ g.children a

/-- There is a path from `a` down to `c`, of one step at least. -/
def Within (g : Graph) : NodeId → NodeId → Prop :=
  Relation.TransGen fun a c => c ∈ g.children a

variable {g : Graph} {H : Hasher} {a c : NodeId}

theorem Built.lt_of_within (hg : g.Built H) (h : g.Within a c) : c < a := by
  induction h with
  | single h => exact hg.older _ _ h
  | tail _ h ih => exact Nat.lt_trans (hg.older _ _ h) ih

/-- **What the comparison of two nodes asks** is about older nodes, on both sides. -/
theorem Built.lt_of_asked (hg : g.Built H) {b d : NodeId}
    (h : Argument.Asked (.tuple (g.arguments a)) (.tuple (g.arguments b)) c d) : c < a ∧ d < b := by
  obtain ⟨place, hc, hd⟩ := h.exists_place ((Argument.itemsWellFormed_iff _).2 (hg.wellFormed a))
  exact ⟨hg.older a c (mem_children_iff.2 (Argument.mem_nodes_of_get? hc)),
    hg.older b d (mem_children_iff.2 (Argument.mem_nodes_of_get? hd))⟩

/-- What a path leads to is reached. -/
theorem reaches_of_follow {path : List (List Argument.Step)} (h : g.follow a path = some c) :
    g.Reaches a c := by
  induction path generalizing a with
  | nil =>
    cases h
    exact .refl
  | cons place rest ih =>
    obtain ⟨d, hd, h⟩ := follow_cons.1 h
    exact .head (mem_children_of_nodeAt? hd) (ih h)

theorem Opposite.reaches {b x y : NodeId} (h : g.Opposite a b x y) :
    g.Reaches a x ∧ g.Reaches b y := by
  obtain ⟨path, hx, hy⟩ := h
  exact ⟨reaches_of_follow hx, reaches_of_follow hy⟩

theorem Built.le_of_reaches (hg : g.Built H) (h : g.Reaches a c) : c ≤ a := by
  rcases Relation.reflTransGen_iff_eq_or_transGen.1 h with rfl | h
  · exact Nat.le_refl _
  · exact Nat.le_of_lt (hg.lt_of_within h)

/-- **Stored outcomes are right**, and about nodes of the graph. -/
def Sound (g : Graph) (c : PairCache) : Prop :=
  ∀ p outcome, c.lookup p = some outcome →
    p.low < g.size ∧ p.high < g.size ∧ (outcome = true ↔ g.Same p.low p.high)

/-- A pair is found under either spelling. -/
theorem Sound.cached_iff (hg : g.Built H) {c : PairCache} (hc : g.Sound c) {a b : NodeId}
    {outcome : Bool} (h : c.cached a b = some outcome) : outcome = true ↔ g.Same a b := by
  have hright := (hc _ _ h).2.2
  unfold Pair.of at hright
  split at hright
  · exact hright
  · exact hright.trans (same_comm hg)

theorem Sound.lt_size_of_cached {c : PairCache} (hc : g.Sound c) {a b : NodeId} {outcome : Bool}
    (h : c.cached a b = some outcome) : a < g.size ∧ b < g.size := by
  have hsizes := hc _ _ h
  unfold Pair.of at hsizes
  split at hsizes
  · exact ⟨hsizes.1, hsizes.2.1⟩
  · exact ⟨hsizes.2.1, hsizes.1⟩

theorem Sound.store (hg : g.Built H) {c : PairCache} (hc : g.Sound c) {a b : NodeId}
    (ha : a < g.size) (hb : b < g.size) {outcome : Bool} (h : outcome = true ↔ g.Same a b) :
    g.Sound (c.store a b outcome) := by
  intro p o hfound
  rw [PairCache.lookup_store] at hfound
  split at hfound
  · rename_i hp
    cases hfound
    subst hp
    unfold Pair.of
    split
    · exact ⟨ha, hb, h⟩
    · exact ⟨hb, ha, h.trans (same_comm hg)⟩
  · exact hc p o hfound

/-- **Opposite nodes were found equal**: two nodes that stand at one place of `a` and of `b` are one
    node, or stored as equal. -/
def Covered (g : Graph) (c : PairCache) (a b : NodeId) : Prop :=
  ∀ place x y, g.nodeAt? a place = some x → g.nodeAt? b place = some y →
    x = y ∨ c.cached x y = some true

theorem Covered.symm {c : PairCache} {a b : NodeId} (h : g.Covered c a b) : g.Covered c b a := by
  intro place x y hx hy
  refine (h place y x hy hx).imp Eq.symm fun hyx => ?_
  exact (congrArg c.lookup (Pair.of_comm x y)).trans hyx

/-- **An outcome may be stored** for `a` and `b`, in the cache `c`. -/
structure Settles (g : Graph) (c : PairCache) (a b : NodeId) (outcome : Bool) : Prop where
  right : outcome = true ↔ g.Same a b
  digest : g.digest a = g.digest b
  covered : outcome = true → g.Covered c a b

end Graph

/-- **Later caches**: every outcome of `c` is still there. -/
def PairCache.Extends (later c : PairCache) : Prop :=
  ∀ p outcome, c.lookup p = some outcome → later.lookup p = some outcome

theorem PairCache.Extends.trans {later middle c : PairCache} (h : later.Extends middle)
    (h' : middle.Extends c) : later.Extends c := fun p outcome hp => h p outcome (h' p outcome hp)

/-! ## The grammar -/

/-- **The steps of comparisons** of nodes that `R` relates, started on the cache `c`. -/
inductive Episode (g : Graph) : (NodeId → NodeId → Prop) → PairCache → List CacheStep → Prop where
  | done {R : NodeId → NodeId → Prop} {c : PairCache} : Episode g R c []
  | hit {R : NodeId → NodeId → Prop} {c : PairCache} {a b : NodeId} {outcome : Bool}
      {rest : List CacheStep} : R a b → a ≠ b → c.lookup (.of a b) = some outcome →
      Episode g R (c.noteHit (.of a b)) rest → Episode g R c (.hit (.of a b) :: rest)
  | miss {R : NodeId → NodeId → Prop} {c : PairCache} {a b : NodeId} {outcome : Bool}
      {inner rest : List CacheStep} : R a b → a ≠ b → c.lookup (.of a b) = none →
      Episode g (fun x y => R x y ∧ g.Within a x ∧ g.Within b y) (c.noteMiss (.of a b)) inner →
      g.Settles ((c.noteMiss (.of a b)).replay inner) a b outcome →
      Episode g R (((c.noteMiss (.of a b)).replay inner).store a b outcome) rest →
      Episode g R c (.miss (.of a b) :: (inner ++ .store a b outcome :: rest))

namespace Episode

variable {g : Graph} {H : Hasher} {R : NodeId → NodeId → Prop} {c : PairCache}
  {steps : List CacheStep}

theorem mono {S : NodeId → NodeId → Prop} (h : Episode g R c steps)
    (hRS : ∀ x y, R x y → S x y) : Episode g S c steps := by
  induction h generalizing S with
  | done => exact .done
  | hit hR hne hfound _ ih => exact .hit (hRS _ _ hR) hne hfound (ih hRS)
  | miss hR hne hfound _ hsettles _ ih₁ ih₂ =>
    exact .miss (hRS _ _ hR) hne hfound (ih₁ fun x y h => ⟨hRS x y h.1, h.2⟩) hsettles (ih₂ hRS)

theorem append {ys : List CacheStep} (h : Episode g R c steps)
    (h' : Episode g R (c.replay steps) ys) : Episode g R c (steps ++ ys) := by
  induction h with
  | done => exact h'
  | hit hR hne hfound _ ih => exact .hit hR hne hfound (ih h')
  | miss hR hne hfound hinner hsettles _ _ ih =>
    rw [List.cons_append, List.append_assoc, List.cons_append]
    refine .miss hR hne hfound hinner hsettles (ih ?_)
    rw [PairCache.replay_cons, PairCache.replay_append, PairCache.replay_cons] at h'
    exact h'

theorem ofComparison (h : Episode g R c steps) : ∀ step ∈ steps, step.OfComparison := by
  induction h with
  | done => exact fun _ h => absurd h List.not_mem_nil
  | hit _ _ _ _ ih => exact List.forall_mem_cons.2 ⟨trivial, ih⟩
  | miss _ _ _ _ _ _ ih₁ ih₂ =>
    refine List.forall_mem_cons.2 ⟨trivial, List.forall_mem_append.2 ⟨ih₁, ?_⟩⟩
    exact List.forall_mem_cons.2 ⟨trivial, ih₂⟩

/-- Every pair that is stored is one of distinct nodes that may be asked for, with the outcome of
    the specification. -/
theorem of_mem_store {a b : NodeId} {outcome : Bool} (h : Episode g R c steps)
    (hmem : .store a b outcome ∈ steps) : R a b ∧ a ≠ b ∧ (outcome = true ↔ g.Same a b) := by
  induction h with
  | done => exact absurd hmem List.not_mem_nil
  | hit _ _ _ _ ih =>
    rcases List.mem_cons.1 hmem with h | hmem
    · cases h
    · exact ih hmem
  | miss hR hne _ _ hsettles _ ih₁ ih₂ =>
    rcases List.mem_cons.1 hmem with h | hmem
    · cases h
    rcases List.mem_append.1 hmem with hmem | hmem
    · exact ⟨(ih₁ hmem).1.1, (ih₁ hmem).2⟩
    rcases List.mem_cons.1 hmem with h | hmem
    · cases h
      exact ⟨hR, hne, hsettles.right⟩
    · exact ih₂ hmem

theorem of_mem_missedPairs {p : Pair} (h : Episode g R c steps) (hmem : p ∈ missedPairs steps) :
    ∃ a b, R a b ∧ a ≠ b ∧ p = .of a b := by
  induction h with
  | done => exact absurd hmem List.not_mem_nil
  | hit _ _ _ _ ih => exact ih hmem
  | miss hR hne _ _ _ _ ih₁ ih₂ =>
    rw [missedPairs_miss, missedPairs_append, missedPairs_store] at hmem
    rcases List.mem_cons.1 hmem with rfl | hmem
    · exact ⟨_, _, hR, hne, rfl⟩
    rcases List.mem_append.1 hmem with hmem | hmem
    · obtain ⟨x, y, hxy, h⟩ := ih₁ hmem
      exact ⟨x, y, hxy.1, h⟩
    · exact ih₂ hmem

/-- **A comparison stores exactly what it misses.** -/
theorem stored_perm_missed (h : Episode g R c steps) :
    (storedPairs steps).Perm (missedPairs steps) := by
  induction h with
  | done => exact .nil
  | hit _ _ _ _ ih => exact ih
  | @miss R c a b outcome inner rest _ _ _ _ _ _ ih₁ ih₂ =>
    rw [missedPairs_miss, missedPairs_append, missedPairs_store]
    rw [storedPairs_miss, storedPairs_append, storedPairs_store]
    exact List.perm_middle.trans ((ih₁.append ih₂).cons (Pair.of a b))

/-- **Whatever is missed was not there before.** -/
theorem fresh {p : Pair} (h : Episode g R c steps) (hmem : p ∈ missedPairs steps) :
    c.lookup p = none := by
  induction h with
  | done => exact absurd hmem List.not_mem_nil
  | hit _ _ _ _ ih => exact ih hmem
  | miss _ _ hfound hinner _ _ ih₁ ih₂ =>
    rw [missedPairs_miss, missedPairs_append, missedPairs_store] at hmem
    rcases List.mem_cons.1 hmem with rfl | hmem
    · exact hfound
    rcases List.mem_append.1 hmem with hmem | hmem
    · exact ih₁ hmem
    · exact (PairCache.unknown_of_store_replay hinner.ofComparison (ih₂ hmem)).2.2

/-- **No pair is missed twice**: below a missed pair it is another one, and behind it, it is
    stored. -/
theorem nodup_missed (hg : g.Built H) (h : Episode g R c steps) : (missedPairs steps).Nodup := by
  induction h with
  | done => exact List.nodup_nil
  | hit _ _ _ _ ih => exact ih
  | @miss R c a b outcome inner rest _ _ _ hinner _ hrest ih₁ ih₂ =>
    have hstored : ∀ p ∈ missedPairs rest, p ≠ .of a b ∧ p ∉ missedPairs inner := by
      intro p hp
      obtain ⟨hne, hnot, -⟩ :=
        PairCache.unknown_of_store_replay hinner.ofComparison (hrest.fresh hp)
      exact ⟨hne, fun hp' => hnot (hinner.stored_perm_missed.mem_iff.2 hp')⟩
    rw [missedPairs_miss, missedPairs_append, missedPairs_store, List.nodup_cons]
    refine ⟨fun hmem => ?_, List.nodup_append.2 ⟨ih₁, ih₂, ?_⟩⟩
    · rcases List.mem_append.1 hmem with hmem | hmem
      · obtain ⟨x, y, hxy, -, hp⟩ := hinner.of_mem_missedPairs hmem
        exact Pair.of_ne_of_lt (hg.lt_of_within hxy.2.1) (hg.lt_of_within hxy.2.2) hp
      · exact (hstored _ hmem).1 rfl
    · rintro p hp q hq rfl
      exact (hstored p hq).2 hp

/-- **Comparisons keep stored outcomes right.** -/
theorem sound (hg : g.Built H) (hR : ∀ a b, R a b → a < g.size ∧ b < g.size)
    (h : Episode g R c steps) (hc : g.Sound c) : g.Sound (c.replay steps) := by
  induction h with
  | done => exact hc
  | hit _ _ _ _ ih => exact ih hR hc
  | miss hab _ _ _ hsettles _ ih₁ ih₂ =>
    rw [PairCache.replay_cons, PairCache.replay_append, PairCache.replay_cons]
    refine ih₂ hR ?_
    have hinner := ih₁ (fun x y h => hR x y h.1) hc
    exact hinner.store hg (hR _ _ hab).1 (hR _ _ hab).2 hsettles.right

/-- **Comparisons forget nothing**: a pair is stored only if it was not there. -/
theorem replay_extends (h : Episode g R c steps) : (c.replay steps).Extends c := by
  induction h with
  | done => exact fun _ _ hp => hp
  | hit _ _ _ _ ih => exact ih
  | @miss R c a b outcome inner rest _ _ hfound _ _ _ ih₁ ih₂ =>
    rw [PairCache.replay_cons, PairCache.replay_append, PairCache.replay_cons]
    refine ih₂.trans fun p outcome hp => ?_
    have hne : Pair.of a b ≠ p := by
      rintro rfl
      rw [hp] at hfound
      cases hfound
    rw [PairCache.lookup_store, if_neg hne]
    exact ih₁ p outcome hp

end Episode

/-! ## Correctness -/

namespace PairCache

/-- **The assertion on recorded comparisons**: started on a cache with right outcomes, `act` is an
    episode on record, and its answer is `P`. -/
def Asks (g : Graph) (R : NodeId → NodeId → Prop) (P : Prop) (act : Recorded Bool) : Prop :=
  ∀ c record, g.Sound c → ∃ steps, (act.run (c, record)).2 = (c.replay steps, record ++ steps) ∧
    Episode g R c steps ∧ ((act.run (c, record)).1 = true ↔ P)

variable {g : Graph} {H : Hasher} {R : NodeId → NodeId → Prop}

theorem asks_pure {P : Prop} {answer : Bool} (h : answer = true ↔ P) :
    Asks g R P (pure answer) := by
  intro c record _
  exact ⟨[], by rw [List.append_nil]; rfl, .done, h⟩

theorem Asks.mono {S : NodeId → NodeId → Prop} {P : Prop} {act : Recorded Bool}
    (h : Asks g R P act) (hRS : ∀ x y, R x y → S x y) : Asks g S P act := by
  intro c record hc
  obtain ⟨steps, hrun, hepisode, hanswer⟩ := h c record hc
  exact ⟨steps, hrun, hepisode.mono hRS, hanswer⟩

theorem decides_asks (hg : g.Built H) (hR : ∀ a b, R a b → a < g.size ∧ b < g.size) :
    Argument.Decides (Asks g R) where
  pure b := asks_pure Iff.rfl
  andThen := by
    intro P Q x y hx hy c record hc
    obtain ⟨xs, hrun, hepisode, hanswer⟩ := hx c record hc
    simp only [Argument.andThen, StateT.run_bind]
    generalize x.run (c, record) = out at hrun hanswer
    obtain ⟨answer, state⟩ := out
    obtain rfl : state = (c.replay xs, record ++ xs) := hrun
    cases answer with
    | true =>
      obtain ⟨ys, hrun', hepisode', hanswer'⟩ :=
        hy (c.replay xs) (record ++ xs) (hepisode.sound hg hR hc)
      refine ⟨xs ++ ys, ?_, hepisode.append hepisode', ?_⟩
      · rw [replay_append, ← List.append_assoc]
        exact hrun'
      · have hP : P := hanswer.1 rfl
        exact hanswer'.trans ⟨fun hQ => ⟨hP, hQ⟩, fun h => h.2⟩
    | false =>
      have hP : ¬ P := fun hP => Bool.false_ne_true (hanswer.2 hP)
      exact ⟨xs, rfl, hepisode, iff_of_false Bool.false_ne_true fun h => hP h.1⟩

theorem recordContentsM_of_sealed {a b : NodeId} (hs : g.kind a = .sealed) :
    recordContentsM g a b = pure false := by
  rw [recordContentsM, Graph.contentsEqualM_of_sealed hs]

theorem recordContentsM_of_ne_sealed {a b : NodeId} (hs : g.kind a ≠ .sealed) :
    recordContentsM g a b =
      Argument.tuplesEqualM (fun c d => if _h : c < a then recordEqualM g c d else pure false)
        (g.arguments a) (g.arguments b) := by
  rw [recordContentsM, Graph.contentsEqualM_of_ne_sealed hs]

/-- A miss between nodes of one member each is settled by the members. -/
theorem recordEqualM_run_of_single {a b x y : NodeId} {c : PairCache} {record : List CacheStep}
    (hab : a ≠ b) (hagree : g.digest a = g.digest b ∧ g.kind a = g.kind b)
    (hs : g.kind a ≠ .sealed) (hleft : g.arguments a = [.node x])
    (hright : g.arguments b = [.node y]) (hlt : x < a) (hfound : c.lookup (.of a b) = none) :
    (recordEqualM g a b).run (c, record) =
      let out := (recordEqualM g x y).run (c.noteMiss (.of a b), record ++ [.miss (.of a b)])
      (out.1, (out.2.1.store a b out.1, out.2.2 ++ [.store a b out.1])) := by
  have hdiffer : ¬ (g.digest a ≠ g.digest b ∨ g.kind a ≠ g.kind b) := by simp [hagree]
  have hcontents : recordContentsM g a b = recordEqualM g x y := by
    rw [recordContentsM_of_ne_sealed hs, hleft, hright]
    simp only [Argument.tuplesEqualM, List.length_singleton, if_true, Argument.itemsEqualM,
      Argument.equalM, dif_pos hlt]
    exact Argument.andThen_pure_true (recordEqualM g x y)
  rw [recordEqualM_run_of_miss hab hdiffer hfound, hcontents]

/-- If these have no nodes inside, they are missed and stored in between. -/
theorem record_of_single_leaf {a b x y : NodeId} {c : PairCache} (hab : a ≠ b)
    (hagree : g.digest a = g.digest b ∧ g.kind a = g.kind b) (hs : g.kind a ≠ .sealed)
    (hleft : g.arguments a = [.node x]) (hright : g.arguments b = [.node y]) (hlt : x < a)
    (hxy : x ≠ y) (hagree' : g.digest x = g.digest y ∧ g.kind x = g.kind y) {outcome : Bool}
    (hleaf : recordContentsM g x y = pure outcome) (hc : ∀ p, c.lookup p = none) :
    ((recordEqualM g a b).run (c, [])).2.2 =
      [.miss (.of a b), .miss (.of x y), .store x y outcome, .store a b outcome] := by
  have hdiffer : ¬ (g.digest x ≠ g.digest y ∨ g.kind x ≠ g.kind y) := by simp [hagree']
  have hmissed : (c.noteMiss (.of a b)).lookup (.of x y) = none := hc _
  rw [recordEqualM_run_of_single hab hagree hs hleft hright hlt (hc _),
    recordEqualM_run_of_leaf hxy hdiffer hmissed hleaf]
  rfl

/-- The comparison of two argument tuples, given that of opposite children. -/
theorem recordContentsM_asks (hg : g.Built H) {a b : NodeId} (hne : a ≠ b)
    (hkind : g.kind a = g.kind b) (hR : ∀ x y, R x y → x < g.size ∧ y < g.size)
    (ih : ∀ place c d, g.nodeAt? a place = some c → g.nodeAt? b place = some d →
      Asks g R (g.Same c d) (recordEqualM g c d)) :
    Asks g R (g.Same a b) (recordContentsM g a b) := by
  by_cases hs : g.kind a = .sealed
  · rw [recordContentsM_of_sealed hs]
    exact asks_pure (iff_of_false Bool.false_ne_true (Graph.not_same_of_sealed hne hs))
  · rw [recordContentsM_of_ne_sealed hs, Graph.same_iff_of_ne hne hkind hs]
    refine Argument.tuplesEqualM_decides (decides_asks hg hR) (hg.wellFormed a) (hg.wellFormed b) ?_
    intro place c d hc hd
    have hc := Graph.nodeAt?_eq_some_iff.2 hc
    rw [dif_pos (hg.older a c (Graph.mem_children_of_nodeAt? hc))]
    exact ih place c d hc (Graph.nodeAt?_eq_some_iff.2 hd)

/-- Whatever is answered with yes is one node, or stored as equal. -/
theorem cached_of_recordEqualM {a b : NodeId} {c : PairCache} {record : List CacheStep}
    (hyes : ((recordEqualM g a b).run (c, record)).1 = true) :
    a = b ∨ ((recordEqualM g a b).run (c, record)).2.1.cached a b = some true := by
  by_cases hab : a = b
  · exact Or.inl hab
  refine Or.inr ?_
  by_cases hdiffer : g.digest a ≠ g.digest b ∨ g.kind a ≠ g.kind b
  · rw [recordEqualM_run_of_differ hab hdiffer] at hyes
    cases hyes
  cases hfound : c.lookup (.of a b) with
  | some outcome =>
    rw [recordEqualM_run_of_hit hab hdiffer hfound] at hyes ⊢
    exact hfound.trans (congrArg some hyes)
  | none =>
    rw [recordEqualM_run_of_miss hab hdiffer hfound] at hyes ⊢
    exact (lookup_store _ a b _ _).trans ((if_pos rfl).trans (congrArg some hyes))

/-- **The assertion on what answers leave behind**: when `act` says yes, `P` holds, as far as it is
    about a cache `later` with all the outcomes that are known by then. -/
def Leaves (g : Graph) (R : NodeId → NodeId → Prop) (later : PairCache) (P : Prop)
    (act : Recorded Bool) : Prop :=
  (∃ Q, Asks g R Q act) ∧ ∀ c record, g.Sound c → (act.run (c, record)).1 = true →
    later.Extends (act.run (c, record)).2.1 → P

theorem Asks.run_extends {P : Prop} {act : Recorded Bool} (h : Asks g R P act) {c : PairCache}
    (hc : g.Sound c) (record : List CacheStep) : (act.run (c, record)).2.1.Extends c := by
  obtain ⟨steps, hrun, hepisode, -⟩ := h c record hc
  rw [hrun]
  exact hepisode.replay_extends

theorem decides_leaves (hg : g.Built H) (hR : ∀ a b, R a b → a < g.size ∧ b < g.size)
    (later : PairCache) : Argument.Decides (Leaves g R later) where
  pure b := ⟨⟨_, asks_pure Iff.rfl⟩, fun _ _ _ hyes _ => hyes⟩
  andThen := by
    rintro P Q x y ⟨⟨P', hxasks⟩, hx⟩ ⟨⟨Q', hyasks⟩, hy⟩
    refine ⟨⟨_, (decides_asks hg hR).andThen hxasks hyasks⟩, fun c record hc hyes hlater => ?_⟩
    obtain ⟨xs, hrun, hepisode, -⟩ := hxasks c record hc
    have hx := hx c record hc
    simp only [Argument.andThen, StateT.run_bind] at hyes hlater
    generalize x.run (c, record) = out at hrun hx hyes hlater
    obtain ⟨answer, state⟩ := out
    obtain rfl : state = (c.replay xs, record ++ xs) := hrun
    cases answer with
    | false => cases hyes
    | true =>
      have hsound := hepisode.sound hg hR hc
      have hlater : later.Extends (y.run (c.replay xs, record ++ xs)).2.1 := hlater
      exact ⟨hx rfl (hlater.trans (hyasks.run_extends hsound _)), hy _ _ hsound hyes hlater⟩

/-- **A positive comparison has covered its nodes**: every pair of opposite nodes was asked about,
    or the tuples would not have been found equal. -/
theorem recordContentsM_covered (hg : g.Built H) {a b : NodeId}
    (hR : ∀ x y, R x y → x < g.size ∧ y < g.size)
    (hasks : ∀ place x y, g.nodeAt? a place = some x → g.nodeAt? b place = some y →
      ∃ Q, Asks g R Q (recordEqualM g x y))
    {c : PairCache} (hc : g.Sound c) (record : List CacheStep)
    (hyes : ((recordContentsM g a b).run (c, record)).1 = true) :
    g.Covered ((recordContentsM g a b).run (c, record)).2.1 a b := by
  intro place x y hx hy
  generalize hlater : ((recordContentsM g a b).run (c, record)).2.1 = later
  have hextends : later.Extends ((recordContentsM g a b).run (c, record)).2.1 :=
    fun p outcome hp => hlater ▸ hp
  have hnodes : ∀ place x y, (Argument.tuple (g.arguments a)).get? place = some (.node x) →
      (Argument.tuple (g.arguments b)).get? place = some (.node y) →
      Leaves g R later (x = y ∨ later.cached x y = some true)
        (if _h : x < a then recordEqualM g x y else pure false) := by
    intro place x y hx hy
    have hx := Graph.nodeAt?_eq_some_iff.2 hx
    rw [dif_pos (hg.older a x (Graph.mem_children_of_nodeAt? hx))]
    refine ⟨hasks place x y hx (Graph.nodeAt?_eq_some_iff.2 hy), fun c record _ hyes hlater => ?_⟩
    exact (cached_of_recordEqualM hyes).imp_right (hlater _ _)
  by_cases hs : g.kind a = .sealed
  · rw [recordContentsM_of_sealed hs] at hyes
    cases hyes
  rw [recordContentsM_of_ne_sealed hs] at hyes hextends
  have hargs := Argument.tuplesEqualM_decides (decides_leaves hg hR later) (hg.wellFormed a)
    (hg.wellFormed b) hnodes
  have hsame := (Argument.Same.tuple (hargs.2 c record hc hyes hextends)).get?
    (Graph.nodeAt?_eq_some_iff.1 hx) (Graph.nodeAt?_eq_some_iff.1 hy)
  cases hsame with
  | node h => exact h

/-- **The recorded comparison of nodes** is an episode among opposite nodes, and answers
    `Graph.Same`. -/
theorem recordEqualM_asks (hg : g.Built H) {a b : NodeId} (ha : a < g.size) (hb : b < g.size) :
    Asks g (g.Opposite a b) (g.Same a b) (recordEqualM g a b) := by
  -- the left node descends; each of the four ways to answer is one case
  induction a using Nat.strongRecOn generalizing b with
  | _ a ih =>
    intro c record hc
    by_cases hab : a = b
    · subst hab
      rw [recordEqualM_run_self]
      exact ⟨[], by rw [List.append_nil]; rfl, .done, iff_of_true rfl (.self a)⟩
    by_cases hdiffer : g.digest a ≠ g.digest b ∨ g.kind a ≠ g.kind b
    · -- same nodes agree in digest and kind, so nothing is lost by trusting a difference
      have hnot : ¬ g.Same a b := by
        intro h
        rcases hdiffer with hdigest | hkind
        · exact hdigest (h.digest_eq hg ha hb)
        · exact hkind h.kind_eq
      rw [recordEqualM_run_of_differ hab hdiffer]
      exact ⟨[], by rw [List.append_nil]; rfl, .done, iff_of_false Bool.false_ne_true hnot⟩
    have hdigest : g.digest a = g.digest b := by
      by_contra h
      exact hdiffer (Or.inl h)
    have hkind : g.kind a = g.kind b := by
      by_contra h
      exact hdiffer (Or.inr h)
    cases hfound : c.lookup (.of a b) with
    | some outcome =>
      -- the stored outcome may have been computed the other way round
      rw [recordEqualM_run_of_hit hab hdiffer hfound]
      refine ⟨[.hit (.of a b)], rfl, .hit (.refl g a b) hab hfound .done, ?_⟩
      exact hc.cached_iff hg hfound
    | none =>
      -- below the two nodes, so that the missed pair does not come up again
      let below : NodeId → NodeId → Prop := fun x y =>
        g.Opposite a b x y ∧ g.Within a x ∧ g.Within b y
      have hbelow : ∀ x y, below x y → x < g.size ∧ y < g.size := fun x y h =>
        ⟨Nat.lt_of_le_of_lt (hg.le_of_reaches h.1.reaches.1) ha,
          Nat.lt_of_le_of_lt (hg.le_of_reaches h.1.reaches.2) hb⟩
      have hchildren : ∀ place d e, g.nodeAt? a place = some d → g.nodeAt? b place = some e →
          Asks g below (g.Same d e) (recordEqualM g d e) := by
        intro place d e hd he
        have hd' := Graph.mem_children_of_nodeAt? hd
        have he' := Graph.mem_children_of_nodeAt? he
        have hda := hg.older a d hd'
        have heb := hg.older b e he'
        refine (ih d hda (Nat.lt_trans hda ha) (Nat.lt_trans heb hb)).mono fun x y h => ?_
        exact ⟨h.head hd he, .head' hd' h.reaches.1, .head' he' h.reaches.2⟩
      obtain ⟨inner, hrun, hepisode, hanswer⟩ :=
        recordContentsM_asks hg hab hkind hbelow hchildren
          (c.noteMiss (.of a b)) (record ++ [.miss (.of a b)]) hc
      have hcovered := recordContentsM_covered hg hbelow
        (fun place d e hd he => ⟨_, hchildren place d e hd he⟩) (c := c.noteMiss (.of a b)) hc
        (record ++ [.miss (.of a b)])
      rw [recordEqualM_run_of_miss hab hdiffer hfound]
      simp only
      generalize (recordContentsM g a b).run
        (c.noteMiss (.of a b), record ++ [.miss (.of a b)]) = out at hrun hanswer hcovered
      obtain ⟨outcome, state⟩ := out
      obtain rfl : state = _ := hrun
      refine ⟨.miss (.of a b) :: (inner ++ [.store a b outcome]), ?_, ?_, hanswer⟩
      · rw [replay_cons, replay_concat]
        simp [apply]
      · exact .miss (.refl g a b) hab hfound hepisode ⟨hanswer, hdigest, hcovered⟩ .done

/-- **The recorded comparison of arguments** is an episode among what their nodes reach, and answers
    `Argument.Same`. -/
theorem recordArgumentsM_asks (hg : g.Built H) {x y : Argument} (hx : x.WellFormed)
    (hy : y.WellFormed) (hxs : ∀ n ∈ x.nodes, n < g.size) (hys : ∀ n ∈ y.nodes, n < g.size) :
    Asks g (fun u v => (∃ n ∈ x.nodes, g.Reaches n u) ∧ ∃ n ∈ y.nodes, g.Reaches n v)
      (Argument.Same g.Same x y) (recordArgumentsM g x y) := by
  refine Argument.equalM_decides (decides_asks hg ?_) hx hy fun place c d hc hd => ?_
  · rintro u v ⟨⟨m, hm, hu⟩, n, hn, hv⟩
    exact ⟨Nat.lt_of_le_of_lt (hg.le_of_reaches hu) (hxs m hm),
      Nat.lt_of_le_of_lt (hg.le_of_reaches hv) (hys n hn)⟩
  · have hc := Argument.mem_nodes_of_get? hc
    have hd := Argument.mem_nodes_of_get? hd
    refine (recordEqualM_asks hg (hxs c hc) (hys d hd)).mono fun u v h => ?_
    exact ⟨⟨c, hc, h.reaches.1⟩, d, hd, h.reaches.2⟩

/-- **The comparison answers the specification.** -/
theorem equalM_answer (hg : g.Built H) {a b : NodeId} (ha : a < g.size) (hb : b < g.size)
    {c : PairCache} (hc : g.Sound c) : ((equalM g a b).run c).1 = true ↔ g.Same a b := by
  obtain ⟨steps, -, -, hanswer⟩ := recordEqualM_asks hg ha hb c [] hc
  rw [← recordEqualM_erases g a b c []]
  exact hanswer

/-- The same for arguments. -/
theorem argumentsEqualM_answer (hg : g.Built H) {x y : Argument} (hx : x.WellFormed)
    (hy : y.WellFormed) (hxs : ∀ n ∈ x.nodes, n < g.size) (hys : ∀ n ∈ y.nodes, n < g.size)
    {c : PairCache} (hc : g.Sound c) :
    ((argumentsEqualM g x y).run c).1 = true ↔ Argument.Same g.Same x y := by
  obtain ⟨steps, -, -, hanswer⟩ := recordArgumentsM_asks hg hx hy hxs hys c [] hc
  rw [← recordArgumentsM_erases g x y c []]
  exact hanswer

end PairCache

end ExprGraph
