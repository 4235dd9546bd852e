/-
  Field rules — reading a tuple without a reader.

  `FieldReader` takes arguments one by one from a state, and every field says what it accepts.  Once
  the length of the tuple is right, the state never matters: each field reads the argument at its own
  position.  Here is construction from a tuple in that form.

  1. **Rules** — `fit` accepts an argument by what it holds, or refuses it in the name of a field;
     `Graph.valueFor` is the rule for operands.

  2. **Reads** — each read of the reader is a rule applied to the next argument (`run_node`,
     `run_value`, …).

  3. **Result** — `Operation.ofFields` has one equation for each kind and the right number of
     arguments, and refuses all else by its length.  It is `Operation.ofArguments`
     (`ofArguments_eq_ofFields`), and so are the typed constructions (`ofArguments_alias`, …).
-/
import ExprGraph.Proofs.Construction

namespace ExprGraph

namespace Argument

def dataType? : Argument → Option DataType
  | .dataType t => some t
  | _ => Option.none

def shape? : Argument → Option Shape
  | .shape s => some s
  | _ => Option.none

/-- A name, which may be the mark of the deliberately unnamed. -/
def name? : Argument → Option (Option String)
  | .text s => some (some s)
  | .none => some Option.none
  | _ => Option.none

/-- **A field's rule**: the argument has to hold what the field expects. -/
def fit {α : Type} (kind field : String) (expected : Expected) (holds? : Argument → Option α)
    (x : Argument) : Except GraphError α :=
  match holds? x with
  | some v => .ok v
  | Option.none => .error (.invalidField kind (.named field) expected (.form x.form))

end Argument

/-- What is accepted in two steps is accepted in both. -/
theorem ok_of_bind {ε α β : Type} {x : Except ε α} {f : α → Except ε β} {w : β}
    (h : x >>= f = .ok w) : ∃ v, x = .ok v ∧ f v = .ok w := by
  cases x with
  | ok v => exact ⟨v, rfl, h⟩
  | error e => cases h

theorem ok_of_map {ε α β : Type} {x : Except ε α} {f : α → β} {w : β} (h : x.map f = .ok w) :
    ∃ v, x = .ok v ∧ f v = w := by
  cases x with
  | ok v => exact ⟨v, rfl, Except.ok.inj h⟩
  | error e => cases h

/-- **The rule for operands**: the argument has to be a node, and the node a value. -/
def Graph.valueFor (g : Graph) (kind field : String) (x : Argument) : Except GraphError Operand :=
  match x.fit kind field .node Argument.node? with
  | .ok n => g.operand kind field n
  | .error e => .error e

/-! ## Reads -/

namespace FieldReader

variable {α β : Type} {kind field : String} {x : Argument} {rest : List Argument}

theorem run_node : (node field).run ⟨kind, x :: rest⟩ =
    (x.fit kind field .node Argument.node?, ⟨kind, rest⟩) := by
  cases x <;> rfl

theorem run_text : (text field).run ⟨kind, x :: rest⟩ =
    (x.fit kind field .text Argument.text?, ⟨kind, rest⟩) := by
  cases x <;> rfl

theorem run_name : (name field).run ⟨kind, x :: rest⟩ =
    (x.fit kind field .textOrNone Argument.name?, ⟨kind, rest⟩) := by
  cases x <;> rfl

theorem run_dataType : (dataType field).run ⟨kind, x :: rest⟩ =
    (x.fit kind field .dataType Argument.dataType?, ⟨kind, rest⟩) := by
  cases x <;> rfl

theorem run_shape : (shape field).run ⟨kind, x :: rest⟩ =
    (x.fit kind field .shape Argument.shape?, ⟨kind, rest⟩) := by
  cases x <;> rfl

theorem run_value {g : Graph} : (value g field).run ⟨kind, x :: rest⟩ =
    (g.valueFor kind field x, ⟨kind, rest⟩) := by
  rw [value, run_bind, run_node, Graph.valueFor]
  cases x.fit kind field .node Argument.node? with
  | error e => rfl
  | ok n =>
    have hget : (get : FieldRead FieldReader).run ⟨kind, rest⟩ =
        (.ok ⟨kind, rest⟩, ⟨kind, rest⟩) := rfl
    simp only [run_bind, hget]
    cases g.operand kind field n with
    | ok operand => rfl
    | error e => rfl

/-- What is read after a first field, from what the first one leaves. -/
theorem fst_run_bind (read : FieldRead α) (next : α → FieldRead β) (reader : FieldReader) :
    ((read >>= next).run reader).1 =
      (read.run reader).1 >>= fun v => ((next v).run (read.run reader).2).1 := by
  rw [run_bind]
  rcases read.run reader with ⟨_ | _, _⟩ <;> rfl

/-- A tuple of the right length is read field by field. -/
theorem readAll_of_length {kind : Kind} {args : List Argument}
    (h : args.length = kind.fields.length) (read : FieldRead α) :
    readAll kind args read = (read.run ⟨kind.name, args⟩).1 := by
  unfold readAll start
  rw [if_pos h]
  rfl

/-- A tuple of another length is refused as a whole. -/
theorem readAll_of_length_ne {kind : Kind} {args : List Argument}
    (h : args.length ≠ kind.fields.length) (read : FieldRead α) :
    readAll kind args read =
      .error (.invalidField kind.name .all (.arguments kind.fields) (.arguments args.length)) := by
  unfold readAll start
  rw [if_neg h]
  rfl

end FieldReader

/-! ## Construction -/

namespace Operation

/-- **An operation from the fields of a kind**, each read at its own position. -/
def ofFields (g : Graph) : Kind → List Argument → Except GraphError Operation
  | .field, [x, y, z] => do
    let name ← x.fit Kind.field.name "name" .text Argument.text?
    let t ← y.fit Kind.field.name "dtype" .dataType Argument.dataType?
    let s ← z.fit Kind.field.name "shape" .shape Argument.shape?
    return .field name t s
  | .alias, [x, y] => do
    let arg ← g.valueFor Kind.alias.name "arg" x
    let name ← y.fit Kind.alias.name "name" .textOrNone Argument.name?
    return .alias arg name
  | .unary op, [x] => do
    let arg ← g.valueFor op.name "arg" x
    return .unary op arg
  | .binary op, [x, y] => do
    let left ← g.valueFor op.name "left" x
    let right ← g.valueFor op.name "right" y
    return .binary op left right
  | .list, args => (nodesOf Kind.list.name "values" args).map .list
  | .call, args => .ok (.call args)
  | .sealed, args => .ok (.sealed args)
  | kind, args =>
    .error (.invalidField kind.name .all (.arguments kind.fields) (.arguments args.length))

open FieldReader in
/-- **The reader reads each field at its own position.** -/
theorem ofArguments_eq_ofFields (g : Graph) (kind : Kind) (args : List Argument) :
    ofArguments g kind args = ofFields g kind args := by
  cases kind with
  | field =>
    rcases args with _ | ⟨x, _ | ⟨y, _ | ⟨z, _ | ⟨w, rest⟩⟩⟩⟩
    · exact readAll_of_length_ne (by simp [Kind.fields]) _
    · exact readAll_of_length_ne (by simp [Kind.fields]) _
    · exact readAll_of_length_ne (by simp [Kind.fields]) _
    · rw [ofArguments, readAll_of_length rfl]
      simp only [fst_run_bind, run_text, run_dataType, run_shape]
      rfl
    · exact readAll_of_length_ne (by simp [Kind.fields]) _
  | «alias» =>
    rcases args with _ | ⟨x, _ | ⟨y, _ | ⟨z, rest⟩⟩⟩
    · exact readAll_of_length_ne (by simp [Kind.fields]) _
    · exact readAll_of_length_ne (by simp [Kind.fields]) _
    · rw [ofArguments, readAll_of_length rfl]
      simp only [fst_run_bind, run_value, run_name]
      rfl
    · exact readAll_of_length_ne (by simp [Kind.fields]) _
  | unary op =>
    rcases args with _ | ⟨x, _ | ⟨y, rest⟩⟩
    · exact readAll_of_length_ne (by simp [Kind.fields]) _
    · rw [ofArguments, readAll_of_length rfl]
      simp only [fst_run_bind, run_value]
      rfl
    · exact readAll_of_length_ne (by simp [Kind.fields]) _
  | binary op =>
    rcases args with _ | ⟨x, _ | ⟨y, _ | ⟨z, rest⟩⟩⟩
    · exact readAll_of_length_ne (by simp [Kind.fields]) _
    · exact readAll_of_length_ne (by simp [Kind.fields]) _
    · rw [ofArguments, readAll_of_length rfl]
      simp only [fst_run_bind, run_value]
      rfl
    · exact readAll_of_length_ne (by simp [Kind.fields]) _
  | list => rfl
  | call => rfl
  | sealed => rfl

/-- Where the fields are declared, a tuple of another length is refused, whatever is in it. -/
theorem ofArguments_of_length_ne (g : Graph) {kind : Kind} {args : List Argument}
    (hkind : kind.fields ≠ []) (h : args.length ≠ kind.fields.length) :
    ofArguments g kind args =
      .error (.invalidField kind.name .all (.arguments kind.fields) (.arguments args.length)) := by
  cases kind with
  | field => exact FieldReader.readAll_of_length_ne h _
  | «alias» => exact FieldReader.readAll_of_length_ne h _
  | unary op => exact FieldReader.readAll_of_length_ne h _
  | binary op => exact FieldReader.readAll_of_length_ne h _
  | _ => exact absurd rfl hkind

/-! ### Typed construction -/

theorem ofArguments_alias (g : Graph) (arg : NodeId) (name : Option String) :
    ofArguments g .alias [.node arg, .ofName name] = aliasOf g arg name := by
  rw [ofArguments_eq_ofFields, ofFields, aliasOf]
  have hvalue : g.valueFor Kind.alias.name "arg" (.node arg) =
      g.operand Kind.alias.name "arg" arg := rfl
  rw [hvalue]
  cases name <;> rfl

theorem ofArguments_unary (g : Graph) (op : UnaryOp) (arg : NodeId) :
    ofArguments g (.unary op) [.node arg] = unaryOf g op arg :=
  ofArguments_eq_ofFields g _ _

theorem ofArguments_binary (g : Graph) (op : BinaryOp) (left right : NodeId) :
    ofArguments g (.binary op) [.node left, .node right] = binaryOf g op left right :=
  ofArguments_eq_ofFields g _ _

end Operation

end ExprGraph
