/-
  Paths — how one node leads down to another.

  A node is built over the nodes that stand at the places of its argument tuple.  A path is a list
  of such places: it goes from a node to the one at its first place, from there to the one at the
  second place, and so on.  Two nodes of one structure have nodes at the same places, and so along
  the same paths.

  1. **Program** — `Graph.nodeAt?` finds the node at one place, `Graph.follow` the node at the end
     of a path, if the path leads anywhere.

  2. **Opposite nodes** — `Graph.Opposite a b x y`: one path leads from `a` to `x` and from `b` to
     `y`.

  3. **Sameness goes down** — what same nodes lead to along one path is the same (`Same.follow`).
-/
import ExprGraph.Proofs.SameNodes

namespace ExprGraph.Graph

variable {g : Graph} {a b c d n : NodeId} {place : List Argument.Step}
  {path : List (List Argument.Step)}

/-- **The node at a place** of the argument tuple. -/
def nodeAt? (g : Graph) (n : NodeId) (place : List Argument.Step) : Option NodeId :=
  ((Argument.tuple (g.arguments n)).get? place).bind Argument.node?

/-- **The node at the end of a path.** -/
def follow (g : Graph) : NodeId → List (List Argument.Step) → Option NodeId
  | n, [] => some n
  | n, place :: rest => (g.nodeAt? n place).bind fun c => g.follow c rest

theorem nodeAt?_eq_some_iff :
    g.nodeAt? n place = some c ↔ (Argument.tuple (g.arguments n)).get? place = some (.node c) := by
  rw [nodeAt?, Option.bind_eq_some_iff]
  constructor
  · rintro ⟨x, hx, hc⟩
    rw [hx]
    cases x with
    | node m => cases hc; rfl
    | _ => cases hc
  · exact fun h => ⟨.node c, h, rfl⟩

theorem follow_cons :
    g.follow n (place :: path) = some d ↔
      ∃ c, g.nodeAt? n place = some c ∧ g.follow c path = some d := by
  rw [follow, Option.bind_eq_some_iff]

/-- The node at a place is one of the nodes built over. -/
theorem mem_children_of_nodeAt? (h : g.nodeAt? n place = some c) : c ∈ g.children n :=
  mem_children_iff.2 (Argument.mem_nodes_of_get? (nodeAt?_eq_some_iff.1 h))

/-- Of a node that is built over nodes alone, a place is the position of one of them. -/
theorem nodeAt?_of_nodes {nodes : List NodeId} (h : g.arguments n = nodes.map .node) :
    g.nodeAt? n place = some c ↔ ∃ i, place = [.item i] ∧ nodes[i]? = some c := by
  rw [nodeAt?_eq_some_iff, h]
  constructor
  · intro hc
    cases place with
    | nil =>
      rw [Argument.get?_nil] at hc
      cases hc
    | cons step rest =>
      rcases Argument.get?_cons hc with ⟨items, i, htuple, rfl, a, ha, hc⟩ | ⟨_, _, hmap, -⟩
      · cases htuple
        rw [List.getElem?_map, Option.map_eq_some_iff] at ha
        obtain ⟨d, hd, rfl⟩ := ha
        -- inside a node there is nothing but the node
        cases rest with
        | nil =>
          rw [Argument.get?_nil] at hc
          cases hc
          exact ⟨i, rfl, hd⟩
        | cons => simp [Argument.get?] at hc
      · cases hmap
  · rintro ⟨i, rfl, hi⟩
    exact Argument.get?_item.2 ⟨.node c, by rw [List.getElem?_map, hi]; rfl, rfl⟩

/-! ## Opposite nodes -/

/-- **One path leads** from `a` to `x` and from `b` to `y`. -/
def Opposite (g : Graph) (a b x y : NodeId) : Prop :=
  ∃ path, g.follow a path = some x ∧ g.follow b path = some y

theorem Opposite.refl (g : Graph) (a b : NodeId) : g.Opposite a b a b := ⟨[], rfl, rfl⟩

theorem Opposite.symm {x y : NodeId} (h : g.Opposite a b x y) : g.Opposite b a y x := by
  obtain ⟨path, hx, hy⟩ := h
  exact ⟨path, hy, hx⟩

/-- What is opposite below opposite nodes is opposite. -/
theorem Opposite.head {x y : NodeId} (hc : g.nodeAt? a place = some c)
    (hd : g.nodeAt? b place = some d) (h : g.Opposite c d x y) : g.Opposite a b x y := by
  obtain ⟨path, hx, hy⟩ := h
  exact ⟨place :: path, follow_cons.2 ⟨c, hc, hx⟩, follow_cons.2 ⟨d, hd, hy⟩⟩

/-! ## Sameness goes down -/

theorem Same.nodeAt? (h : g.Same a b) (hc : g.nodeAt? a place = some c)
    (hd : g.nodeAt? b place = some d) : g.Same c d := by
  cases h with
  | self =>
    rw [hc] at hd
    cases hd
    exact .self c
  | contents _ _ hargs =>
    have hcd := (Argument.Same.tuple hargs).get? (nodeAt?_eq_some_iff.1 hc)
      (nodeAt?_eq_some_iff.1 hd)
    cases hcd with
    | node h => exact h

/-- **Along one path**, same nodes lead to same nodes. -/
theorem Same.follow (h : g.Same a b) (hc : g.follow a path = some c)
    (hd : g.follow b path = some d) : g.Same c d := by
  induction path generalizing a b with
  | nil =>
    cases hc
    cases hd
    exact h
  | cons place rest ih =>
    obtain ⟨x, hx, hc⟩ := follow_cons.1 hc
    obtain ⟨y, hy, hd⟩ := follow_cons.1 hd
    exact ih (h.nodeAt? hx hy) hc hd

end ExprGraph.Graph
