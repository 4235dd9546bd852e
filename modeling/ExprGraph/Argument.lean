/-
  Arguments — what a node is built from.

  An argument is another node, a literal, or a container of arguments.  Tuples keep order; maps are
  dictionaries that remember the order in which their keys first came.  The argument tuple of a node
  is all that equality and hashing ever look at.

  1. **Types** — `NodeId` names a node of the graph, `Argument` is the tree of arguments over it,
     and `Argument.Form` the name of its outermost constructor.

  2. **Dictionaries** — `Argument.ofEntries` builds a map from any list of entries: a repeated key
     keeps its first place and takes its last value.  `putEntry` is the step, and what it does to
     the dictionary is `lookup_putEntry`; keys never repeat (`putEntry_keys_nodup`).

  3. **Contents** — `Argument.nodes` lists the nodes inside an argument from left to right, once for
     each place where they stand.
-/
import ExprGraph.Binary64
import ExprGraph.DataType
import ExprGraph.Shape

namespace ExprGraph

/-- The identity of a node: its place in the order of creation.  A counter of 64 bits hands out the
    same identities for the first 2^64 nodes. -/
abbrev NodeId := Nat

/-- **An argument of a node.** -/
inductive Argument where
  | node (id : NodeId)
  | none
  | bool (value : Bool)
  | int (value : Int64)
  | float (value : Binary64)
  | text (value : String)
  | shape (value : Shape)
  | dataType (value : DataType)
  | tuple (items : List Argument)
  | map (entries : List (String × Argument))

namespace Argument

/-- The outermost constructor of an argument. -/
inductive Form where
  | node
  | none
  | bool
  | int
  | float
  | text
  | shape
  | dataType
  | tuple
  | map
  deriving DecidableEq

/-- The word for it in messages. -/
def Form.name : Form → String
  | .node => "node"
  | .none => "none"
  | .bool => "bool"
  | .int => "int"
  | .float => "float"
  | .text => "str"
  | .shape => "shape"
  | .dataType => "datatype"
  | .tuple => "tuple"
  | .map => "map"

def form : Argument → Form
  | .node _ => .node
  | .none => .none
  | .bool _ => .bool
  | .int _ => .int
  | .float _ => .float
  | .text _ => .text
  | .shape _ => .shape
  | .dataType _ => .dataType
  | .tuple _ => .tuple
  | .map _ => .map

def node? : Argument → Option NodeId
  | .node id => some id
  | _ => Option.none

def text? : Argument → Option String
  | .text s => some s
  | _ => Option.none

def isNone (a : Argument) : Bool := a.form == .none

/-- A name as an argument; no name is the argument `none`. -/
def ofName : Option String → Argument
  | some s => .text s
  | Option.none => .none

/-! ## Dictionaries -/

/-- Set `key` to `value`: in its place if it has one, else at the end. -/
def putEntry (key : String) (value : Argument) :
    List (String × Argument) → List (String × Argument)
  | [] => [(key, value)]
  | (k, v) :: rest =>
    if k = key then (k, value) :: rest else (k, v) :: putEntry key value rest

/-- The dictionary that a list of entries builds, from left to right. -/
def entriesOf (entries : List (String × Argument)) : List (String × Argument) :=
  entries.foldl (fun m e => putEntry e.1 e.2 m) []

/-- **A map from entries**: a repeated key keeps its first place and takes its last value. -/
def ofEntries (entries : List (String × Argument)) : Argument := .map (entriesOf entries)

/-- The value last written is the one that is found, and no other key is touched. -/
theorem lookup_putEntry (key : String) (value : Argument) (m : List (String × Argument))
    (k : String) :
    (putEntry key value m).lookup k = if k = key then some value else m.lookup k := by
  induction m with
  | nil =>
    by_cases h : k = key
    · simp [putEntry, h]
    · simp [putEntry, h, List.lookup_cons, beq_eq_false_iff_ne.2 h]
  | cons e rest ih =>
    rcases e with ⟨j, v⟩
    by_cases hj : j = key
    · subst hj
      by_cases h : k = j
      · simp [putEntry, h]
      · simp [putEntry, h, List.lookup_cons, beq_eq_false_iff_ne.2 h]
    · rw [putEntry, if_neg hj, List.lookup_cons, List.lookup_cons, ih]
      by_cases h : k = j
      · subst h
        simp [hj]
      · simp [beq_eq_false_iff_ne.2 h]

theorem mem_keys_putEntry (key : String) (value : Argument) (m : List (String × Argument))
    (k : String) :
    k ∈ (putEntry key value m).map Prod.fst ↔ k = key ∨ k ∈ m.map Prod.fst := by
  induction m with
  | nil => simp [putEntry]
  | cons e rest ih =>
    rcases e with ⟨j, v⟩
    by_cases hj : j = key
    · subst hj
      simp [putEntry]
    · rw [putEntry, if_neg hj, List.map_cons, List.mem_cons, ih, List.map_cons, List.mem_cons]
      exact or_left_comm

/-- **Keys stay distinct.** -/
theorem putEntry_keys_nodup (key : String) (value : Argument) {m : List (String × Argument)}
    (h : (m.map Prod.fst).Nodup) : ((putEntry key value m).map Prod.fst).Nodup := by
  induction m with
  | nil => simp [putEntry]
  | cons e rest ih =>
    rcases e with ⟨j, v⟩
    rw [List.map_cons, List.nodup_cons] at h
    by_cases hj : j = key
    · rw [putEntry, if_pos hj, List.map_cons, List.nodup_cons]
      exact h
    · rw [putEntry, if_neg hj, List.map_cons, List.nodup_cons, mem_keys_putEntry]
      exact ⟨fun hmem => hmem.elim hj h.1, ih h.2⟩

/-! ## The nodes inside an argument -/

mutual

/-- The nodes inside an argument, from left to right. -/
def nodes : Argument → List NodeId
  | .node id => [id]
  | .tuple items => nodesOfItems items
  | .map entries => nodesOfEntries entries
  | _ => []

def nodesOfItems : List Argument → List NodeId
  | [] => []
  | a :: rest => a.nodes ++ nodesOfItems rest

def nodesOfEntries : List (String × Argument) → List NodeId
  | [] => []
  | (_, a) :: rest => a.nodes ++ nodesOfEntries rest

end

theorem nodesOfItems_eq (items : List Argument) : nodesOfItems items = items.flatMap nodes := by
  induction items with
  | nil => rfl
  | cons a rest ih => rw [nodesOfItems, ih, List.flatMap_cons]

theorem nodesOfEntries_eq (entries : List (String × Argument)) :
    nodesOfEntries entries = entries.flatMap fun e => e.2.nodes := by
  induction entries with
  | nil => rfl
  | cons e rest ih => rw [nodesOfEntries, ih, List.flatMap_cons]

end Argument

end ExprGraph
