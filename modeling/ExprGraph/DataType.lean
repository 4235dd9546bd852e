/-
  Data types — what a value is made of.

  Eleven plain types and arrays of any type.  The graph itself only ever asks three questions of a
  type: is it an integer, is it floating, and how is it written.

  1. **Program** — the three classifications, the plain name of a type (`plainName?`), its written
     form `text` (an array is `array<...>`), and the form that diagnostics show (`label`).

  2. **Reading back** — `ofPlainName?` inverts `plainName?` (`ofPlainName?_plainName?`); arrays are
     read by the readers that know how arrays are spelled.
-/

namespace ExprGraph

/-- **Type** of the values that a node produces. -/
inductive DataType where
  | null
  | boolean
  | int8
  | int16
  | int32
  | int64
  | float32
  | float64
  | string
  | date
  | timestamp
  | array (element : DataType)
  deriving DecidableEq

namespace DataType

def isInteger : DataType → Bool
  | .int8 | .int16 | .int32 | .int64 => true
  | _ => false

def isFloating : DataType → Bool
  | .float32 | .float64 => true
  | _ => false

def isNumeric (t : DataType) : Bool := t.isInteger || t.isFloating

/-- The name of a type that is not an array. -/
def plainName? : DataType → Option String
  | .null => some "null"
  | .boolean => some "boolean"
  | .int8 => some "int8"
  | .int16 => some "int16"
  | .int32 => some "int32"
  | .int64 => some "int64"
  | .float32 => some "float32"
  | .float64 => some "float64"
  | .string => some "string"
  | .date => some "date"
  | .timestamp => some "timestamp"
  | .array _ => none

/-- The type, other than an array, that a name stands for. -/
def ofPlainName? : String → Option DataType
  | "null" => some .null
  | "boolean" => some .boolean
  | "int8" => some .int8
  | "int16" => some .int16
  | "int32" => some .int32
  | "int64" => some .int64
  | "float32" => some .float32
  | "float64" => some .float64
  | "string" => some .string
  | "date" => some .date
  | "timestamp" => some .timestamp
  | _ => none

/-- The written form: a plain name, or `array<...>` around the element's. -/
def text : DataType → String
  | .array t => "array<" ++ t.text ++ ">"
  | t => t.plainName?.getD ""

/-- The constructors of a type, as diagnostics write them. -/
def label : DataType → String
  | .null => "Null"
  | .boolean => "Boolean"
  | .int8 => "Int8"
  | .int16 => "Int16"
  | .int32 => "Int32"
  | .int64 => "Int64"
  | .float32 => "Float32"
  | .float64 => "Float64"
  | .string => "String"
  | .date => "Date"
  | .timestamp => "Timestamp"
  | .array t => "Array(" ++ t.label ++ ")"

/-- `t` inside `n` arrays. -/
def nested : Nat → DataType → DataType
  | 0, t => t
  | n + 1, t => nested n (.array t)

/-! ## Plain names are read back -/

theorem ofPlainName?_plainName? {t : DataType} {name : String} (h : t.plainName? = some name) :
    ofPlainName? name = some t := by
  cases t <;> simp only [plainName?, Option.some.injEq, reduceCtorEq] at h <;> subst h <;> rfl

theorem plainName?_eq_none_iff (t : DataType) :
    t.plainName? = none ↔ ∃ element, t = .array element := by
  cases t <;> simp [plainName?]

end DataType

end ExprGraph
