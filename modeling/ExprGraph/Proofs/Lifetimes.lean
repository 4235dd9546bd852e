/-
  Lifetimes — what is alive, and what a drop destroys.

  Nobody walks the graph to find out whether a node is still needed: the session counts.  That the
  counts say what a walk would say is the point of this file.

  1. **Specification** — `Session.Live s n`: from some node that a user holds there is a path down
     to `n`.

  2. **Invariant** — `Tallied s pending`: a node has as many uses as there are places in living
     nodes where it stands, and as it stands in `pending`, which are the places of destroyed nodes
     that have not been let go of yet.

  3. **Record** — `recordDestroy` is `Session.destroy` with the list of destroyed nodes, in the
     order of destruction; without the list it is `Session.destroy` (`recordDestroy_fst`).

  4. **Destruction** — it restores the invariant, and it takes from the living exactly the nodes of
     its list, each once, and none before the last living node over it
     (`recordDestroy_spec`, `release_spec`).

  5. **Laws** — under the invariant a node is alive by its counts exactly if it is live
     (`isAlive_iff_live`).
-/
import ExprGraph.Proofs.Episode
import ExprGraph.Session
import Mathlib.Data.List.Perm.Basic

namespace ExprGraph

/-! ## Counters in arrays -/

theorem getD_modify_of_ne (counts : Array Nat) (f : Nat → Nat) {i j : Nat} (h : i ≠ j) :
    (counts.modify i f).getD j 0 = counts.getD j 0 := by
  simp only [Array.getD_eq_getD_getElem?, Array.getElem?_modify, if_neg h]

theorem getD_modify_self (counts : Array Nat) (f : Nat → Nat) {i : Nat} (h : i < counts.size) :
    (counts.modify i f).getD i 0 = f (counts.getD i 0) := by
  simp only [Array.getD_eq_getD_getElem?, Array.getElem?_modify, if_true]
  rw [Array.getElem?_eq_getElem h]
  rfl

theorem lt_size_of_getD_ne_zero {counts : Array Nat} {i : Nat} (h : counts.getD i 0 ≠ 0) :
    i < counts.size := by
  by_contra hlt
  rw [Array.getD_eq_getD_getElem?, Array.getElem?_eq_none (Nat.le_of_not_lt hlt)] at h
  exact h rfl

theorem getD_push (counts : Array Nat) (k i : Nat) :
    (counts.push k).getD i 0 = if i = counts.size then k else counts.getD i 0 := by
  simp only [Array.getD_eq_getD_getElem?, Array.getElem?_push]
  split <;> rfl

/-- Counting the members of a list into an array. -/
theorem getD_foldl_modify {counts : Array Nat} {cs : List NodeId} (h : ∀ c ∈ cs, c < counts.size)
    (i : Nat) : (cs.foldl (fun counts c => counts.modify c (· + 1)) counts).getD i 0 =
      counts.getD i 0 + cs.count i := by
  induction cs generalizing counts with
  | nil => rfl
  | cons c rest ih =>
    obtain ⟨hc, hrest⟩ := List.forall_mem_cons.1 h
    rw [List.foldl_cons, ih fun d hd => by rw [Array.size_modify]; exact hrest d hd]
    by_cases hci : c = i
    · rw [← hci, getD_modify_self counts _ hc, List.count_cons_self]
      omega
    · rw [getD_modify_of_ne counts _ hci, List.count_cons_of_ne hci]

theorem size_foldl_modify (counts : Array Nat) (cs : List NodeId) :
    (cs.foldl (fun counts c => counts.modify c (· + 1)) counts).size = counts.size := by
  induction cs generalizing counts with
  | nil => rfl
  | cons c rest ih => rw [List.foldl_cons, ih, Array.size_modify]

namespace Session

/-! ## The specification and the invariant -/

/-- **A node is live** if there is a path down to it from a node that a user holds. -/
def Live (s : Session) (n : NodeId) : Prop := ∃ r, 0 < s.held.getD r 0 ∧ s.graph.Reaches r n

/-- From `s` to `t`, the node dies. -/
def Dies (s t : Session) (n : NodeId) : Prop := s.Live n ∧ ¬ t.Live n

/-- The nodes that are alive by their counts, oldest first. -/
def living (s : Session) : List NodeId := (List.range s.graph.size).filter s.isAlive

/-- The places in living nodes: every node as often as living nodes are built over it. -/
def places (s : Session) : List NodeId := s.living.flatMap s.graph.children

/-- **The counts are right**, when the uses in `pending` still have to be taken back. -/
structure Tallied (s : Session) (pending : List NodeId) : Prop where
  held_size : s.held.size = s.graph.size
  uses_size : s.uses.size = s.graph.size
  uses : ∀ c, s.uses.getD c 0 = (s.places ++ pending).count c

section Counts

variable {s t : Session} {n c : NodeId} {pending : List NodeId}

theorem isAlive_iff : s.isAlive n = true ↔ s.held.getD n 0 ≠ 0 ∨ s.uses.getD n 0 ≠ 0 := by
  simp [isAlive]

theorem Tallied.lt_size (h : s.Tallied pending) (hn : s.isAlive n = true) : n < s.graph.size := by
  rcases isAlive_iff.1 hn with hn | hn
  · exact h.held_size ▸ lt_size_of_getD_ne_zero hn
  · exact h.uses_size ▸ lt_size_of_getD_ne_zero hn

theorem mem_living (h : s.Tallied pending) : n ∈ s.living ↔ s.isAlive n = true := by
  rw [living, List.mem_filter, List.mem_range]
  exact and_iff_right_of_imp h.lt_size

/-- What a living node is built over is alive. -/
theorem Tallied.isAlive_child (h : s.Tallied pending) (hn : s.isAlive n = true)
    (hc : c ∈ s.graph.children n) : s.isAlive c = true := by
  have hplace : c ∈ s.places := List.mem_flatMap.2 ⟨n, (mem_living h).2 hn, hc⟩
  refine isAlive_iff.2 (Or.inr ?_)
  rw [h.uses c]
  exact Nat.ne_of_gt (List.count_pos_iff.2 (List.mem_append_left pending hplace))

/-- **Counting finds what walking finds.** -/
theorem isAlive_iff_live {H : Hasher} (hg : s.graph.Built H) (h : s.Tallied []) :
    s.isAlive n = true ↔ s.Live n := by
  constructor
  · -- a node that is used has a living user, which is younger
    have hup : ∀ (k n : Nat), s.graph.size ≤ n + k → s.isAlive n = true → s.Live n := by
      intro k
      induction k with
      | zero => exact fun n hn halive => absurd (h.lt_size halive) (Nat.not_lt.2 hn)
      | succ k ih =>
        intro n hn halive
        rcases isAlive_iff.1 halive with hheld | huses
        · exact ⟨n, Nat.pos_of_ne_zero hheld, .refl⟩
        · rw [h.uses n, List.append_nil] at huses
          have hplace : n ∈ s.places := List.count_pos_iff.1 (Nat.pos_of_ne_zero huses)
          obtain ⟨m, hm, hnm⟩ := List.mem_flatMap.1 hplace
          have hlt : n < (m : Nat) := hg.older m n hnm
          have hle : s.graph.size ≤ (m : Nat) + k := by omega
          obtain ⟨r, hr, hreach⟩ := ih m hle ((mem_living h).1 hm)
          exact ⟨r, hr, hreach.tail hnm⟩
    exact hup s.graph.size n (Nat.le_add_left _ _)
  · rintro ⟨r, hr, hreach⟩
    induction hreach with
    | refl => exact isAlive_iff.2 (Or.inl (Nat.ne_of_gt hr))
    | tail _ hc ih => exact h.isAlive_child ih hc

/-- Caches have no part in the counts. -/
theorem Tallied.congr (h : s.Tallied pending) (hgraph : t.graph = s.graph)
    (hheld : t.held = s.held) (huses : t.uses = s.uses) : t.Tallied pending := by
  have halive : t.isAlive = s.isAlive := by
    funext m
    rw [isAlive, isAlive, hheld, huses]
  have hplaces : t.places = s.places := by rw [places, places, living, living, hgraph, halive]
  constructor
  · rw [hheld, hgraph, h.held_size]
  · rw [huses, hgraph, h.uses_size]
  · intro c
    rw [huses, hplaces, h.uses c]

/-- As long as the same nodes are alive, the places are the same. -/
theorem places_congr (hgraph : t.graph = s.graph) (halive : ∀ m, t.isAlive m = s.isAlive m) :
    t.places = s.places := by
  rw [places, places, living, living, hgraph, funext halive]

/-- When one node dies, its places go. -/
theorem places_perm_of_died (hgraph : t.graph = s.graph) (hlt : n < s.graph.size)
    (hn : s.isAlive n = true) (halive : ∀ m, t.isAlive m = true ↔ s.isAlive m = true ∧ m ≠ n) :
    s.places.Perm (s.graph.children n ++ t.places) := by
  have hmem : n ∈ s.living := List.mem_filter.2 ⟨List.mem_range.2 hlt, hn⟩
  have hnodup : s.living.Nodup := List.nodup_range.filter _
  have hliving : t.living = s.living.erase n := by
    rw [hnodup.erase_eq_filter, living, living, hgraph, List.filter_filter]
    refine List.filter_congr fun m _ => Bool.eq_iff_iff.2 ?_
    rw [halive, Bool.and_eq_true, bne_iff_ne, and_comm]
  have hplaces : t.places = (s.living.erase n).flatMap s.graph.children := by
    rw [places, hliving, hgraph]
  rw [hplaces, ← List.flatMap_cons]
  exact (List.perm_cons_erase hmem).flatMap_right _

end Counts

/-! ## One use or hold more or less -/

/-- One use of a node is taken back. -/
def letGo (s : Session) (c : NodeId) : Session := { s with uses := s.uses.modify c (· - 1) }

/-- One hold of a user is taken back. -/
def unhold (s : Session) (n : NodeId) : Session := { s with held := s.held.modify n (· - 1) }

/-- **The counts of one node have changed**, from `s` to `t`: the uses in `t` are the places in `s`
    and those in `pending`, and the other nodes are alive as before. -/
structure Recounted (s t : Session) (n : NodeId) (pending : List NodeId) : Prop where
  graph : t.graph = s.graph
  held_size : t.held.size = s.graph.size
  uses_size : t.uses.size = s.graph.size
  uses : ∀ m, t.uses.getD m 0 = (s.places ++ pending).count m
  wasAlive : s.isAlive n = true
  others : ∀ m, n ≠ m → t.isAlive m = s.isAlive m

section Recount

variable {s t : Session} {n c : NodeId} {pending : List NodeId}

/-- The node stays alive: that is all that happens. -/
theorem Recounted.tallied (h : Recounted s t n pending) (halive : t.isAlive n = true) :
    t.Tallied pending ∧ ∀ m, t.isAlive m = s.isAlive m := by
  have hsame : ∀ m, t.isAlive m = s.isAlive m := by
    intro m
    by_cases hm : n = m
    · rw [← hm, halive, h.wasAlive]
    · exact h.others m hm
  have hplaces : t.places = s.places := places_congr h.graph hsame
  refine ⟨⟨?_, ?_, fun m => ?_⟩, hsame⟩
  · rw [h.graph, h.held_size]
  · rw [h.graph, h.uses_size]
  · rw [hplaces, h.uses m]

/-- **The node dies**: its own places are pending now. -/
theorem Recounted.tallied_of_died (h : Recounted s t n pending) (hlt : n < s.graph.size)
    (hdead : t.isAlive n = false) :
    t.Tallied (s.graph.children n ++ pending) ∧
      ∀ m, t.isAlive m = true ↔ s.isAlive m = true ∧ m ≠ n := by
  have halive : ∀ m, t.isAlive m = true ↔ s.isAlive m = true ∧ m ≠ n := by
    intro m
    by_cases hm : n = m
    · simp [← hm, hdead]
    · rw [h.others m hm]
      exact (and_iff_left (Ne.symm hm)).symm
  have hperm : s.places.Perm (s.graph.children n ++ t.places) :=
    places_perm_of_died h.graph hlt h.wasAlive halive
  refine ⟨⟨?_, ?_, fun m => ?_⟩, halive⟩
  · rw [h.graph, h.held_size]
  · rw [h.graph, h.uses_size]
  · rw [h.uses m, List.count_append, hperm.count_eq]
    simp only [List.count_append]
    omega

/-- A node that dies stands in no living node any more. -/
theorem Recounted.not_mem_children {rest : List NodeId} (h : Recounted s t n pending)
    (hs : s.Tallied rest) (hdead : t.isAlive n = false) {m : NodeId} (hm : s.isAlive m = true) :
    n ∉ s.graph.children m := by
  intro hmem
  have hplace : n ∈ s.places := List.mem_flatMap.2 ⟨m, (mem_living hs).2 hm, hmem⟩
  have hused : t.isAlive n = true := by
    refine isAlive_iff.2 (Or.inr ?_)
    rw [h.uses n]
    exact Nat.ne_of_gt (List.count_pos_iff.2 (List.mem_append_left pending hplace))
  exact Bool.false_ne_true (hdead.symm.trans hused)

/-- The node of a pending place is alive. -/
theorem Tallied.isAlive_pending (h : s.Tallied (c :: pending)) : s.isAlive c = true := by
  refine isAlive_iff.2 (Or.inr ?_)
  rw [h.uses c, List.count_append, List.count_cons_self]
  omega

/-- A pending place is let go. -/
theorem Tallied.letGo (h : s.Tallied (c :: pending)) : Recounted s (s.letGo c) c pending where
  graph := rfl
  held_size := h.held_size
  uses_size := by rw [Session.letGo, Array.size_modify, h.uses_size]
  uses m := by
    have hm := h.uses m
    rw [List.count_append, List.count_cons] at hm
    rw [List.count_append]
    by_cases hcm : c = m
    · have hlt : c < s.uses.size := h.uses_size ▸ h.lt_size h.isAlive_pending
      have hself : (s.letGo c).uses.getD c 0 = s.uses.getD c 0 - 1 := getD_modify_self s.uses _ hlt
      rw [← hcm, hself, hcm, hm]
      simp [hcm]
    · have hother : (s.letGo c).uses.getD m 0 = s.uses.getD m 0 := getD_modify_of_ne s.uses _ hcm
      rw [hother, hm]
      simp [hcm]
  wasAlive := h.isAlive_pending
  others m hcm := by
    have hother : (s.letGo c).uses.getD m 0 = s.uses.getD m 0 := getD_modify_of_ne s.uses _ hcm
    rw [isAlive, isAlive, hother]
    rfl

/-- The holds on a living node change. -/
theorem Tallied.modify_held (h : s.Tallied pending) (hn : s.isAlive n = true) (f : Nat → Nat) :
    Recounted s { s with held := s.held.modify n f } n pending where
  graph := rfl
  held_size := by rw [Array.size_modify, h.held_size]
  uses_size := h.uses_size
  uses := h.uses
  wasAlive := hn
  others m hnm := by rw [isAlive, isAlive, getD_modify_of_ne s.held f hnm]

theorem isAlive_of_held (hn : 0 < s.held.getD n 0) : s.isAlive n = true :=
  isAlive_iff.2 (Or.inl (Nat.ne_of_gt hn))

/-- One more hold on a living node. -/
theorem Tallied.retain (h : s.Tallied []) (hn : s.isAlive n = true) :
    (s.retain n).Tallied [] ∧ ∀ m, (s.retain n).isAlive m = s.isAlive m := by
  have hlt : n < s.held.size := h.held_size ▸ h.lt_size hn
  have hheld : (s.retain n).held.getD n 0 = s.held.getD n 0 + 1 := getD_modify_self s.held _ hlt
  refine (h.modify_held hn (· + 1)).tallied (isAlive_of_held ?_)
  show 0 < (s.retain n).held.getD n 0
  rw [hheld]
  exact Nat.succ_pos _

end Recount

/-! ## A new node -/

section Creation

variable {s : Session}

theorem held_insert (h : s.Tallied []) (op : Operation) (m : NodeId) :
    (s.insert op).2.held.getD m 0 = if m = s.graph.size then 1 else s.held.getD m 0 := by
  rw [← h.held_size]
  exact getD_push s.held 1 m

/-- The new node uses what it is built over; itself it is not used yet. -/
theorem uses_insert {op : Operation}
    (hlt : ∀ c ∈ op.children, c < s.uses.size) (m : NodeId) :
    (s.insert op).2.uses.getD m 0 = s.uses.getD m 0 + op.children.count m := by
  have hpush : (s.insert op).2.uses.getD m 0 = _ := getD_push _ 0 m
  rw [hpush, size_foldl_modify, getD_foldl_modify hlt]
  split
  · rename_i hm
    have hnot : m ∉ op.children := fun hmem => Nat.ne_of_lt (hlt m hmem) hm
    have hzero : s.uses.getD m 0 = 0 := by
      by_contra hne
      exact Nat.ne_of_lt (lt_size_of_getD_ne_zero hne) hm
    rw [hzero, List.count_eq_zero_of_not_mem hnot]
  · rfl

/-- The new node is alive, and no other node changes its state. -/
theorem isAlive_insert (h : s.Tallied []) {op : Operation}
    (hc : ∀ c ∈ op.children, s.isAlive c = true) (m : NodeId) :
    (s.insert op).2.isAlive m = true ↔ s.isAlive m = true ∨ m = s.graph.size := by
  have hlt : ∀ c ∈ op.children, c < s.uses.size := fun c hmem =>
    h.uses_size ▸ h.lt_size (hc c hmem)
  rw [isAlive_iff, held_insert h, uses_insert hlt]
  by_cases hm : m = s.graph.size
  · simp [hm]
  · rw [if_neg hm, or_iff_left hm, isAlive_iff]
    refine ⟨fun halive => ?_, fun halive => halive.imp_right fun hne => by omega⟩
    rcases halive with hne | hne
    · exact Or.inl hne
    · by_cases hmem : m ∈ op.children
      · exact isAlive_iff.1 (hc m hmem)
      · rw [List.count_eq_zero_of_not_mem hmem] at hne
        exact Or.inr hne

/-- The new places are those in the new node. -/
theorem places_insert (h : s.Tallied []) {op : Operation}
    (hc : ∀ c ∈ op.children, s.isAlive c = true) :
    (s.insert op).2.places = s.places ++ op.children := by
  have hsize : (s.insert op).2.graph.size = s.graph.size + 1 :=
    Graph.size_insert s.hasher s.graph op
  have hliving : (s.insert op).2.living = s.living ++ [s.graph.size] := by
    rw [living, living, hsize, List.range_succ, List.filter_append]
    congr 1
    · refine List.filter_congr fun m hm => Bool.eq_iff_iff.2 ?_
      rw [isAlive_insert h hc, or_iff_left (Nat.ne_of_lt (List.mem_range.1 hm))]
    · rw [List.filter_cons_of_pos ((isAlive_insert h hc _).2 (Or.inr rfl))]
      rfl
  have hold : s.living.flatMap (s.insert op).2.graph.children = s.places := by
    refine List.flatMap_congr fun m hm => ?_
    have hm : m ≠ s.graph.size := Nat.ne_of_lt (h.lt_size ((mem_living h).1 hm))
    have hnode : (s.insert op).2.graph.node m = s.graph.node m := Graph.node_insert_of_ne hm
    rw [Graph.children, Graph.operation, hnode]
    rfl
  have hnew : (s.insert op).2.graph.children s.graph.size = op.children :=
    congrArg Operation.children (Graph.operation_insert s.hasher s.graph op)
  rw [places, hliving, List.flatMap_append, hold, List.flatMap_singleton, hnew]

/-- **A node over living nodes** keeps the counts right. -/
theorem Tallied.insert (h : s.Tallied []) {op : Operation}
    (hc : ∀ c ∈ op.children, s.isAlive c = true) : (s.insert op).2.Tallied [] := by
  have hlt : ∀ c ∈ op.children, c < s.uses.size := fun c hmem =>
    h.uses_size ▸ h.lt_size (hc c hmem)
  have hsize : (s.insert op).2.graph.size = s.graph.size + 1 :=
    Graph.size_insert s.hasher s.graph op
  refine ⟨?_, ?_, fun m => ?_⟩
  · rw [hsize]
    show (s.held.push 1).size = _
    rw [Array.size_push, h.held_size]
  · rw [hsize]
    show (Array.push _ 0).size = _
    rw [Array.size_push, size_foldl_modify, h.uses_size]
  · rw [uses_insert hlt, h.uses m, places_insert h hc, List.append_nil, List.append_nil,
      List.count_append]

end Creation

/-! ## Destruction, on record -/

/-- The shared cache forgets a destroyed node. -/
def forget (s : Session) (n : NodeId) : Session := s.putCache .shared (s.shared.nodeDestroyed n)

/-- **Destroy a node, on record**: the destroyed nodes, in order. -/
def recordDestroy (s : Session) (record : List NodeId) (n : NodeId) : Session × List NodeId :=
  (s.graph.children n).foldl
    (fun (s, record) c =>
      if _h : c < n then
        if (s.letGo c).isAlive c then (s.letGo c, record)
        else recordDestroy (s.letGo c) record c
      else (s, record))
    (s.forget n, record ++ [n])
  termination_by n

/-- Take back one use, on record: the round of the loop in `recordDestroy`. -/
def recordLetGo (n : NodeId) (state : Session × List NodeId) (c : NodeId) :
    Session × List NodeId :=
  if _h : c < n then
    if (state.1.letGo c).isAlive c then (state.1.letGo c, state.2)
    else recordDestroy (state.1.letGo c) state.2 c
  else state

theorem recordDestroy_eq (s : Session) (record : List NodeId) (n : NodeId) :
    recordDestroy s record n =
      (s.graph.children n).foldl (recordLetGo n) (s.forget n, record ++ [n]) := by
  rw [recordDestroy]
  rfl

/-- **The recorded destruction is the destruction.** -/
theorem recordDestroy_fst (s : Session) (record : List NodeId) (n : NodeId) :
    (recordDestroy s record n).1 = s.destroy n := by
  induction n using Nat.strongRecOn generalizing s record with
  | _ n ih =>
    -- round by round, the loops do the same to the session
    rw [recordDestroy_eq, destroy]
    have fold : ∀ (cs : List NodeId) (s : Session) (record : List NodeId),
        (cs.foldl (recordLetGo n) (s, record)).1 = cs.foldl
          (fun s c =>
            if _h : c < n then
              let s := { s with uses := s.uses.modify c (· - 1) }
              if s.isAlive c then s else destroy s c
            else s) s := by
      intro cs
      induction cs with
      | nil => exact fun _ _ => rfl
      | cons c rest ihc =>
        intro s record
        rw [List.foldl_cons, List.foldl_cons]
        have hround : (recordLetGo n (s, record) c).1 =
            if _h : c < n then
              let s := { s with uses := s.uses.modify c (· - 1) }
              if s.isAlive c then s else destroy s c
            else s := by
          unfold recordLetGo
          split
          · rename_i hc
            simp only
            split
            · rename_i halive
              exact (if_pos halive).symm
            · rename_i halive
              rw [ih c hc]
              exact (if_neg halive).symm
          · rfl
        rw [← hround]
        exact ihc _ _
    exact fold _ _ _

/-- The nodes destroyed when a user gives up a hold on `n`, in order. -/
def destroyedBy (s : Session) (n : NodeId) : List NodeId :=
  if (s.unhold n).isAlive n then [] else (recordDestroy (s.unhold n) [] n).2

/-- **From `s` to `t` exactly the nodes of `gone` have died**, in this order, each once, and the
    shared cache has heard of it; but for the counts, nothing else has changed. -/
structure Destruction (s t : Session) (gone : List NodeId) : Prop where
  frame : t = { gone.foldl forget s with held := t.held, uses := t.uses }
  isAlive : ∀ m, t.isAlive m = true ↔ s.isAlive m = true ∧ m ∉ gone
  nodup : gone.Nodup
  wasAlive : ∀ m ∈ gone, s.isAlive m = true
  /-- a node dies after all living nodes that are built over it -/
  parentsFirst : ∀ front n back, gone = front ++ n :: back →
    ∀ m, s.isAlive m = true → n ∈ s.graph.children m → m ∈ front

section Destruction

variable {s t u : Session} {n : NodeId} {pending : List NodeId}

theorem forget_counts (s : Session) (held uses : Array Nat) (n : NodeId) :
    forget { s with held := held, uses := uses } n =
      { s.forget n with held := held, uses := uses } := rfl

theorem foldl_forget_counts (s : Session) (held uses : Array Nat) (gone : List NodeId) :
    gone.foldl forget { s with held := held, uses := uses } =
      { gone.foldl forget s with held := held, uses := uses } := by
  induction gone generalizing s with
  | nil => rfl
  | cons n rest ih => rw [List.foldl_cons, List.foldl_cons, forget_counts, ih]

theorem isAlive_forget (s : Session) (n m : NodeId) : (s.forget n).isAlive m = s.isAlive m := rfl

/-- Forgetting touches the shared cache and the log. -/
theorem foldl_forget_eq (s : Session) (gone : List NodeId) :
    ∃ shared log, gone.foldl forget s = { s with shared := shared, log := log } := by
  induction gone generalizing s with
  | nil => exact ⟨s.shared, s.log, rfl⟩
  | cons n rest ih =>
    obtain ⟨shared, log, hrest⟩ := ih (s.forget n)
    exact ⟨shared, log, hrest⟩

theorem Destruction.graph {gone : List NodeId} (h : Destruction s t gone) : t.graph = s.graph := by
  obtain ⟨shared, log, hfold⟩ := foldl_forget_eq s gone
  rw [h.frame, hfold]

theorem destruction_nil (h : ∀ m, t.isAlive m = s.isAlive m)
    (hframe : t = { s with held := t.held, uses := t.uses }) : Destruction s t [] where
  frame := hframe
  isAlive m := by simp [h m]
  nodup := List.nodup_nil
  wasAlive m hm := absurd hm List.not_mem_nil
  parentsFirst front n back h := by simp at h

theorem Destruction.trans {xs ys : List NodeId} (h : Destruction s t xs)
    (h' : Destruction t u ys) : Destruction s u (xs ++ ys) where
  frame := by
    have hu := h'.frame
    rw [h.frame, foldl_forget_counts] at hu
    rw [List.foldl_append]
    exact hu
  isAlive m := by
    rw [h'.isAlive, h.isAlive, List.mem_append, not_or, and_assoc]
  nodup := by
    refine List.nodup_append.2 ⟨h.nodup, h'.nodup, ?_⟩
    rintro m hm k hk rfl
    exact ((h.isAlive m).1 (h'.wasAlive m hk)).2 hm
  wasAlive m hm := by
    rcases List.mem_append.1 hm with hm | hm
    · exact h.wasAlive m hm
    · exact ((h.isAlive m).1 (h'.wasAlive m hm)).1
  parentsFirst front n back hsplit m hm hn := by
    -- a node over `n` died with the first list, or lives on and dies in the second before `n`
    have hlate : ∀ early, ys = early ++ n :: back → front = xs ++ early → m ∈ front := by
      rintro early hys rfl
      by_cases hmem : m ∈ xs
      · exact List.mem_append_left early hmem
      · have hm' : t.isAlive m = true := (h.isAlive m).2 ⟨hm, hmem⟩
        have hn' : n ∈ t.graph.children m := by
          rw [h.graph]
          exact hn
        exact List.mem_append_right xs (h'.parentsFirst early n back hys m hm' hn')
    rcases List.append_eq_append_iff.1 hsplit with ⟨early, hfront, hys⟩ | ⟨rest, hxs, hrest⟩
    · exact hlate early hys hfront
    · cases rest with
      | nil => exact hlate [] hrest.symm (by rw [hxs, List.append_nil, List.append_nil])
      | cons k rest =>
        obtain ⟨rfl, rfl⟩ := List.cons.inj hrest
        exact h.parentsFirst front n rest hxs m hm hn

/-- A node dies that stands in no living node, is forgotten, and takes others with it. -/
theorem Destruction.cons {gone : List NodeId} (hn : s.isAlive n = true)
    (hframe : t = { s with held := t.held, uses := t.uses })
    (halive : ∀ m, t.isAlive m = true ↔ s.isAlive m = true ∧ m ≠ n)
    (horphan : ∀ m, s.isAlive m = true → n ∉ s.graph.children m)
    (h : Destruction (t.forget n) u gone) : Destruction s u (n :: gone) := by
  have hfirst : Destruction s (t.forget n) [n] := by
    refine ⟨?_, fun m => ?_, by simp, by simpa using hn, fun front k back hsplit m hm hk => ?_⟩
    · rw [hframe]
      rfl
    · rw [isAlive_forget, halive, List.mem_singleton]
    · have hkn : k ∈ [n] := hsplit ▸ List.mem_append_right front List.mem_cons_self
      exact absurd (List.mem_singleton.1 hkn ▸ hk) (horphan m hm)
  exact hfirst.trans h

/-- **The loop over the places of a destroyed node.** -/
theorem foldl_recordLetGo_spec {H : Hasher} (hg : s.graph.Built H)
    (ih : ∀ c < n, ∀ (s : Session) (record pending : List NodeId), s.graph.Built H →
      s.isAlive c = false → s.Tallied (s.graph.children c ++ pending) →
      ∃ t gone, recordDestroy s record c = (t, record ++ c :: gone) ∧ t.Tallied pending ∧
        Destruction (s.forget c) t gone)
    {cs : List NodeId} (hcs : ∀ c ∈ cs, c < n) (h : s.Tallied (cs ++ pending))
    (record : List NodeId) :
    ∃ t gone, cs.foldl (recordLetGo n) (s, record) = (t, record ++ gone) ∧ t.Tallied pending ∧
      Destruction s t gone := by
  induction cs generalizing s record with
  | nil => exact ⟨s, [], by simp, h, destruction_nil (fun _ => rfl) rfl⟩
  | cons c rest ihrest =>
    -- the place of `c` is let go; if it was the last one, the places of `c` come before the rest
    obtain ⟨hc, hrest⟩ := List.forall_mem_cons.1 hcs
    rw [List.cons_append] at h
    rw [List.foldl_cons, recordLetGo, dif_pos hc]
    simp only
    cases halive : (s.letGo c).isAlive c with
    | true =>
      obtain ⟨htallied, hsame⟩ := h.letGo.tallied halive
      obtain ⟨t, gone, hfold, ht, hdestruction⟩ := ihrest (s := s.letGo c) hg hrest htallied record
      refine ⟨t, gone, hfold, ht, ?_⟩
      have hfirst : Destruction s (s.letGo c) [] := destruction_nil hsame rfl
      exact hfirst.trans hdestruction
    | false =>
      obtain ⟨htallied, hdied⟩ := h.letGo.tallied_of_died (h.lt_size h.isAlive_pending) halive
      obtain ⟨t, gone, hrun, ht, hdestruction⟩ := ih c hc (s.letGo c) record _ hg halive htallied
      have hfirst : Destruction s t (c :: gone) :=
        hdestruction.cons h.isAlive_pending rfl hdied
          fun m hm => h.letGo.not_mem_children h halive hm
      obtain ⟨u, gone', hfold, hu, hdestruction'⟩ :=
        ihrest (s := t) (hfirst.graph ▸ hg) hrest ht (record ++ c :: gone)
      refine ⟨u, c :: gone ++ gone', ?_, hu, hfirst.trans hdestruction'⟩
      rw [← List.append_assoc, ← hfold, ← hrun]
      rfl

/-- **Destruction**, of a node that has no hold and no use left, and whose places are pending. -/
theorem recordDestroy_spec {H : Hasher} (hg : s.graph.Built H) (hdead : s.isAlive n = false)
    (h : s.Tallied (s.graph.children n ++ pending)) (record : List NodeId) :
    ∃ t gone, recordDestroy s record n = (t, record ++ n :: gone) ∧ t.Tallied pending ∧
      Destruction (s.forget n) t gone := by
  induction n using Nat.strongRecOn generalizing s record pending with
  | _ n ih =>
    have htallied : (s.forget n).Tallied (s.graph.children n ++ pending) := h.congr rfl rfl rfl
    obtain ⟨t, gone, hfold, ht, hdestruction⟩ :=
      foldl_recordLetGo_spec (s := s.forget n) hg
        (fun c hc s record pending hg hdead h => ih c hc hg hdead h record) (hg.older n) htallied
        (record ++ [n])
    refine ⟨t, gone, ?_, ht, hdestruction⟩
    rw [recordDestroy_eq, hfold, List.append_assoc]
    rfl

/-- **Giving up a hold** destroys the nodes of `destroyedBy`, and the counts stay right. -/
theorem release_spec {H : Hasher} (hg : s.graph.Built H) (h : s.Tallied [])
    (hn : 0 < s.held.getD n 0) :
    (s.release n).Tallied [] ∧ Destruction s (s.release n) (s.destroyedBy n) := by
  have hrelease : s.release n =
      if (s.unhold n).isAlive n then s.unhold n else (s.unhold n).destroy n := rfl
  have hnalive : s.isAlive n = true := isAlive_of_held hn
  have hrecounted : Recounted s (s.unhold n) n [] := h.modify_held hnalive (· - 1)
  rw [hrelease, destroyedBy]
  cases halive : (s.unhold n).isAlive n with
  | true =>
    obtain ⟨htallied, hsame⟩ := hrecounted.tallied halive
    exact ⟨htallied, destruction_nil hsame rfl⟩
  | false =>
    obtain ⟨htallied, hdied⟩ := hrecounted.tallied_of_died (h.lt_size hnalive) halive
    obtain ⟨t, gone, hrun, ht, hdestruction⟩ :=
      recordDestroy_spec (s := s.unhold n) hg halive htallied []
    have hfst := recordDestroy_fst (s.unhold n) [] n
    rw [hrun] at hfst
    rw [hrun, if_neg Bool.false_ne_true, if_neg Bool.false_ne_true, ← hfst]
    refine ⟨ht, hdestruction.cons hnalive rfl hdied fun m hm => ?_⟩
    exact hrecounted.not_mem_children h halive hm

/-- The nodes destroyed are those that die. -/
theorem dies_release_iff {H : Hasher} (hg : s.graph.Built H) (h : s.Tallied [])
    (hn : 0 < s.held.getD n 0) (m : NodeId) :
    Dies s (s.release n) m ↔ m ∈ s.destroyedBy n := by
  obtain ⟨htallied, hdestruction⟩ := release_spec hg h hn
  have hbuilt : (s.release n).graph.Built H := hdestruction.graph ▸ hg
  rw [Dies, ← isAlive_iff_live hg h, ← isAlive_iff_live hbuilt htallied, hdestruction.isAlive]
  constructor
  · rintro ⟨halive, hnot⟩
    by_contra hm
    exact hnot ⟨halive, hm⟩
  · exact fun hm => ⟨hdestruction.wasAlive m hm, fun halive => halive.2 hm⟩

end Destruction

end Session

end ExprGraph
