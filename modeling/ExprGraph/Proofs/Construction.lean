/-
  Construction keeps its arguments — an accepted operation is spelled by the tuple it was read from.

  A tuple is read field by field, and an operation is put together from what was read.  Nothing is
  lost or moved on the way: the arguments of the operation are the tuple itself.

  1. **Reads** — what one read takes from the reader (`argument_ok`, `text_ok`, …): it returns the
     next argument, if that has the right form.

  2. **Result** — `ofArguments_ok`: an accepted operation has the kind that was asked for, and the
     arguments that were given.  Hence a new node is built over exactly the nodes inside the tuple.
-/
import ExprGraph.Graph.Construction

namespace ExprGraph

namespace FieldReader

/-- The second of two reads goes on where the first one stopped, if that was not refused. -/
theorem run_bind {α β : Type} (read : FieldRead α) (next : α → FieldRead β)
    (reader : FieldReader) :
    (read >>= next).run reader =
      match read.run reader with
      | (.ok v, middle) => (next v).run middle
      | (.error e, middle) => (.error e, middle) := by
  simp only [bind, ExceptT.run, ExceptT.bind, ExceptT.mk, StateT.bind, ExceptT.bindCont]
  rcases read reader with ⟨_ | _, _⟩ <;> rfl

/-- A sequence of reads is accepted if both parts are. -/
theorem bind_ok {α β : Type} {x : FieldRead α} {f : α → FieldRead β} {reader rest : FieldReader}
    {w : β} (h : (x >>= f).run reader = (.ok w, rest)) :
    ∃ v middle, x.run reader = (.ok v, middle) ∧ (f v).run middle = (.ok w, rest) := by
  rw [run_bind] at h
  generalize x.run reader = out at h
  obtain ⟨result, middle⟩ := out
  cases result with
  | ok v => exact ⟨v, middle, rfl, h⟩
  | error e => cases h

theorem pure_ok {α : Type} {reader rest : FieldReader} {v w : α}
    (h : (pure v : FieldRead α).run reader = (.ok w, rest)) : v = w ∧ reader = rest := by
  cases h
  exact ⟨rfl, rfl⟩

theorem argument_ok {field : String} {reader rest : FieldReader} {a : Argument}
    (h : (argument field).run reader = (.ok a, rest)) : reader.pending = a :: rest.pending := by
  obtain ⟨r, middle, hget, h⟩ := bind_ok h
  cases hget
  split at h
  · cases h
  · rename_i b pending hpending
    cases h
    exact hpending

theorem node_ok {field : String} {reader rest : FieldReader} {n : NodeId}
    (h : (node field).run reader = (.ok n, rest)) : reader.pending = .node n :: rest.pending := by
  obtain ⟨a, middle, ha, h⟩ := bind_ok h
  rw [argument_ok ha]
  split at h
  · obtain ⟨rfl, rfl⟩ := pure_ok h
    rfl
  · cases h

theorem text_ok {field : String} {reader rest : FieldReader} {t : String}
    (h : (text field).run reader = (.ok t, rest)) : reader.pending = .text t :: rest.pending := by
  obtain ⟨a, middle, ha, h⟩ := bind_ok h
  rw [argument_ok ha]
  split at h
  · obtain ⟨rfl, rfl⟩ := pure_ok h
    rfl
  · cases h

theorem name_ok {field : String} {reader rest : FieldReader} {t : Option String}
    (h : (name field).run reader = (.ok t, rest)) :
    reader.pending = .ofName t :: rest.pending := by
  obtain ⟨a, middle, ha, h⟩ := bind_ok h
  rw [argument_ok ha]
  split at h
  · obtain ⟨rfl, rfl⟩ := pure_ok h
    rfl
  · obtain ⟨rfl, rfl⟩ := pure_ok h
    rfl
  · cases h

theorem dataType_ok {field : String} {reader rest : FieldReader} {t : DataType}
    (h : (dataType field).run reader = (.ok t, rest)) :
    reader.pending = .dataType t :: rest.pending := by
  obtain ⟨a, middle, ha, h⟩ := bind_ok h
  rw [argument_ok ha]
  split at h
  · obtain ⟨rfl, rfl⟩ := pure_ok h
    rfl
  · cases h

theorem shape_ok {field : String} {reader rest : FieldReader} {s : Shape}
    (h : (shape field).run reader = (.ok s, rest)) :
    reader.pending = .shape s :: rest.pending := by
  obtain ⟨a, middle, ha, h⟩ := bind_ok h
  rw [argument_ok ha]
  split at h
  · obtain ⟨rfl, rfl⟩ := pure_ok h
    rfl
  · cases h

end FieldReader

/-- An operand is the node that it was made from. -/
theorem Graph.operand_ok {g : Graph} {kind field : String} {n : NodeId} {operand : Operand}
    (h : g.operand kind field n = .ok operand) : operand.node = n := by
  unfold Graph.operand at h
  split at h
  · cases h
    rfl
  · cases h

namespace FieldReader

theorem value_ok {g : Graph} {field : String} {reader rest : FieldReader} {operand : Operand}
    (h : (value g field).run reader = (.ok operand, rest)) :
    reader.pending = .node operand.node :: rest.pending := by
  obtain ⟨n, middle, hn, h⟩ := bind_ok h
  obtain ⟨r, middle', hget, h⟩ := bind_ok h
  cases hget
  rw [node_ok hn]
  split at h
  · rename_i hoperand
    obtain ⟨rfl, rfl⟩ := pure_ok h
    rw [Graph.operand_ok hoperand]
  · cases h

/-- A whole tuple is read: as many arguments are taken as there are fields. -/
theorem readAll_ok {α : Type} {kind : Kind} {args : List Argument} {read : FieldRead α} {v : α}
    (h : readAll kind args read = .ok v) :
    args.length = kind.fields.length ∧ ∃ rest, read.run ⟨kind.name, args⟩ = (.ok v, rest) := by
  unfold readAll start at h
  split at h
  · rename_i hlength
    refine ⟨hlength, (read.run ⟨kind.name, args⟩).2, ?_⟩
    exact Prod.ext h rfl
  · cases h

end FieldReader

theorem nodesFrom_ok {kind field : String} {index : Nat} {args : List Argument} {ns : List NodeId}
    (h : nodesFrom kind field index args = .ok ns) : args = ns.map .node := by
  induction args generalizing index ns with
  | nil =>
    cases h
    rfl
  | cons a rest ih =>
    cases a with
    | node n =>
      rw [nodesFrom] at h
      cases hrest : nodesFrom kind field (index + 1) rest with
      | ok ms =>
        rw [hrest] at h
        cases h
        rw [List.map_cons, ih hrest]
      | error e =>
        rw [hrest] at h
        cases h
    | _ => simp [nodesFrom] at h

/-- When as many arguments are read as there are, none is left. -/
theorem eq_of_read {args front rest : List Argument} {count : Nat} (hargs : args = front ++ rest)
    (hlength : args.length = count) (hfront : front.length = count) : front = args := by
  have hrest : rest.length = 0 := by
    rw [hargs, List.length_append] at hlength
    omega
  rw [hargs, List.eq_nil_of_length_eq_zero hrest, List.append_nil]

namespace Operation

open FieldReader in
/-- **An accepted operation is spelled by the tuple it was read from.** -/
theorem ofArguments_ok {g : Graph} {kind : Kind} {args : List Argument} {op : Operation}
    (h : ofArguments g kind args = .ok op) : op.kind = kind ∧ op.arguments = args := by
  cases kind with
  | field =>
    obtain ⟨hlength, rest, h⟩ := readAll_ok h
    obtain ⟨name, r₁, hname, h⟩ := bind_ok h
    obtain ⟨t, r₂, ht, h⟩ := bind_ok h
    obtain ⟨s, r₃, hs, h⟩ := bind_ok h
    obtain ⟨rfl, rfl⟩ := pure_ok h
    have hargs : args = .text name :: r₁.pending := text_ok hname
    rw [dataType_ok ht, shape_ok hs] at hargs
    have hread : args = [.text name, .dataType t, .shape s] ++ r₃.pending := hargs
    exact ⟨rfl, eq_of_read hread hlength rfl⟩
  | «alias» =>
    obtain ⟨hlength, rest, h⟩ := readAll_ok h
    obtain ⟨arg, r₁, harg, h⟩ := bind_ok h
    obtain ⟨name, r₂, hname, h⟩ := bind_ok h
    obtain ⟨rfl, rfl⟩ := pure_ok h
    have hargs : args = .node arg.node :: r₁.pending := value_ok harg
    rw [name_ok hname] at hargs
    have hread : args = [.node arg.node, .ofName name] ++ r₂.pending := hargs
    exact ⟨rfl, eq_of_read hread hlength rfl⟩
  | unary op =>
    obtain ⟨hlength, rest, h⟩ := readAll_ok h
    obtain ⟨arg, r₁, harg, h⟩ := bind_ok h
    obtain ⟨rfl, rfl⟩ := pure_ok h
    have hread : args = [.node arg.node] ++ r₁.pending := value_ok harg
    exact ⟨rfl, eq_of_read hread hlength rfl⟩
  | binary op =>
    obtain ⟨hlength, rest, h⟩ := readAll_ok h
    obtain ⟨left, r₁, hleft, h⟩ := bind_ok h
    obtain ⟨right, r₂, hright, h⟩ := bind_ok h
    obtain ⟨rfl, rfl⟩ := pure_ok h
    have hargs : args = .node left.node :: r₁.pending := value_ok hleft
    rw [value_ok hright] at hargs
    have hread : args = [.node left.node, .node right.node] ++ r₂.pending := hargs
    exact ⟨rfl, eq_of_read hread hlength rfl⟩
  | list =>
    unfold ofArguments nodesOf at h
    cases hns : nodesFrom Kind.list.name "values" 0 args with
    | ok ns =>
      simp only [hns] at h
      cases h
      exact ⟨rfl, (nodesFrom_ok hns).symm⟩
    | error e =>
      simp only [hns] at h
      cases h
  | call =>
    cases h
    exact ⟨rfl, rfl⟩
  | sealed =>
    cases h
    exact ⟨rfl, rfl⟩

end Operation

end ExprGraph
