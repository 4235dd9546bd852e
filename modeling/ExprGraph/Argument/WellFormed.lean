/-
  Well-formed arguments — dictionaries in which no key stands twice.

  A map is a dictionary only if its keys are distinct, at every depth.  Arguments that are built
  with `Argument.ofEntries` are, and whoever builds them otherwise has to see to it.

  1. **Predicate** — `WellFormed` walks through tuples and maps; literals and nodes are well-formed.

  2. **Kept by construction** — a map built from well-formed values is well-formed
     (`wellFormed_ofEntries`).
-/
import ExprGraph.Argument

namespace ExprGraph.Argument

mutual

/-- **No map inside the argument has a key twice.** -/
def WellFormed : Argument → Prop
  | .tuple items => ItemsWellFormed items
  | .map entries => (entries.map Prod.fst).Nodup ∧ EntriesWellFormed entries
  | _ => True

def ItemsWellFormed : List Argument → Prop
  | [] => True
  | a :: rest => a.WellFormed ∧ ItemsWellFormed rest

def EntriesWellFormed : List (String × Argument) → Prop
  | [] => True
  | (_, a) :: rest => a.WellFormed ∧ EntriesWellFormed rest

end

theorem itemsWellFormed_iff (items : List Argument) :
    ItemsWellFormed items ↔ ∀ a ∈ items, a.WellFormed := by
  induction items with
  | nil => simp [ItemsWellFormed]
  | cons a rest ih => simp [ItemsWellFormed, ih]

theorem entriesWellFormed_iff (entries : List (String × Argument)) :
    EntriesWellFormed entries ↔ ∀ e ∈ entries, e.2.WellFormed := by
  induction entries with
  | nil => simp [EntriesWellFormed]
  | cons e rest ih =>
    rcases e with ⟨key, a⟩
    simp only [EntriesWellFormed, ih, List.mem_cons, forall_eq_or_imp]

/-! ## Dictionaries built from entries -/

theorem entriesWellFormed_putEntry {key : String} {value : Argument}
    {m : List (String × Argument)} (hv : value.WellFormed) (hm : EntriesWellFormed m) :
    EntriesWellFormed (putEntry key value m) := by
  induction m with
  | nil => exact ⟨hv, trivial⟩
  | cons e rest ih =>
    rcases e with ⟨j, v⟩
    by_cases hj : j = key
    · rw [putEntry, if_pos hj]
      exact ⟨hv, hm.2⟩
    · rw [putEntry, if_neg hj]
      exact ⟨hm.1, ih hm.2⟩

theorem foldl_putEntry_wellFormed (entries : List (String × Argument)) :
    ∀ m : List (String × Argument), (∀ e ∈ entries, e.2.WellFormed) → EntriesWellFormed m →
      (m.map Prod.fst).Nodup →
      EntriesWellFormed (entries.foldl (fun m e => putEntry e.1 e.2 m) m) ∧
        ((entries.foldl (fun m e => putEntry e.1 e.2 m) m).map Prod.fst).Nodup := by
  induction entries with
  | nil => intro m _ hm hk; exact ⟨hm, hk⟩
  | cons e rest ih =>
    intro m he hm hk
    rw [List.foldl_cons]
    refine ih _ (fun x hx => he x (List.mem_cons_of_mem _ hx)) ?_ ?_
    · exact entriesWellFormed_putEntry (he e List.mem_cons_self) hm
    · exact putEntry_keys_nodup e.1 e.2 hk

/-- **A map built from well-formed values is well-formed.** -/
theorem wellFormed_ofEntries {entries : List (String × Argument)}
    (h : ∀ e ∈ entries, e.2.WellFormed) : (ofEntries entries).WellFormed := by
  have := foldl_putEntry_wellFormed entries [] h trivial List.nodup_nil
  exact ⟨this.2, this.1⟩

end ExprGraph.Argument
