/-
  Shapes and data types as JSON.

  1. **Program** — `Shape.ofTagged?` and `DataType.ofTagged?` give the meaning of a tagged value,
     `Shape.json` and `DataType.json` the compact spelling.

  2. **Spelling** — a plain type is its name; an array is the object that has the element's type
     under the key `array`.  The name `array` alone is no type, and no other name takes a payload.

  3. **Reading back** — what a type is tagged as is read as that type (`ofTagged?_toTagged`).
-/
import ExprGraph.DataType
import ExprGraph.Json.Tagged
import ExprGraph.Shape

namespace ExprGraph

open Json (Tagged)

/-- The shape that a tagged value names. -/
def Shape.ofTagged? : Tagged → Option Shape
  | .bare tag => Shape.ofText? tag
  | .wrapped tag none => Shape.ofText? tag
  | .wrapped _ (some _) => none

/-- The shape that a JSON text spells. -/
def Shape.ofJson? (text : String) : Option Shape :=
  (Tagged.ofText? text).bind Shape.ofTagged?

/-- The compact JSON spelling of a shape. -/
def Shape.json (s : Shape) : String := "\"" ++ s.text ++ "\""

namespace DataType

/-- The type that a tagged value names. -/
def ofTagged? : Tagged → Option DataType
  | .bare tag => ofPlainName? tag
  | .wrapped tag none => ofPlainName? tag
  | .wrapped tag (some payload) =>
    if tag == "array" then (ofTagged? payload).map .array else none

/-- The type that a JSON text spells. -/
def ofJson? (text : String) : Option DataType :=
  (Tagged.ofText? text).bind ofTagged?

/-- A type as a tagged value. -/
def toTagged : DataType → Tagged
  | .array t => .wrapped "array" (some t.toTagged)
  | t => .bare t.text

/-- The compact JSON spelling of a type. -/
def json : DataType → String
  | .array t => "\x7b\"array\":" ++ t.json ++ "\x7d"
  | t => "\"" ++ t.text ++ "\""

/-- **A type is read back from its tagged form.** -/
theorem ofTagged?_toTagged (t : DataType) : ofTagged? t.toTagged = some t := by
  induction t with
  | array t ih => simp [toTagged, ofTagged?, ih]
  | _ => rfl

example : ofJson? " \x7b\"array\" : \"int\\u0038\"\x7d " = some (.array .int8) := by decide +kernel
example : ofJson? "\"array\"" = none := by decide +kernel

end DataType

end ExprGraph
