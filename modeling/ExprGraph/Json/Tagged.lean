/-
  Tagged values — the JSON shape of a choice between named alternatives.

  An alternative that carries nothing is its name as a string, or an object with the name as its
  only key and `null` behind it.  An alternative that carries a value is an object with the name as
  its only key and the value behind it.

  1. **Program** — `Tagged` is the tree of such values; `Tagged.read?` reads one, `Tagged.ofText?` a
     whole text, blanks around it allowed and nothing else behind it.

  2. **Depth** — objects may nest `maxDepth` deep; the reader recurses on the depth that is left, so
     no text, however long, makes it run away.
-/
import ExprGraph.Json.Text

namespace ExprGraph.Json

/-- **A tagged value**: a bare name, or a name with a payload, which may be `null`. -/
inductive Tagged where
  | bare (tag : String)
  | wrapped (tag : String) (payload : Option Tagged)

namespace Tagged

/-- The number of objects that may be open at once. -/
def maxDepth : Nat := 127

/-- What follows `c`, if the text's next lexeme is `c`. -/
def expect? (c : Char) (s : List Char) : Option (List Char) :=
  match skipBlank s with
  | d :: rest => if d == c then some rest else none
  | [] => none

/-- A string literal as the next lexeme. -/
def name? (s : List Char) : Option (String × List Char) := do
  let rest ← expect? '"' s
  let (cs, rest) ← literal? rest
  return (String.ofList cs, rest)

/-- The next tagged value, at most `depth` objects deep, and what follows it. -/
def read? : Nat → List Char → Option (Tagged × List Char)
  | depth, s =>
    match skipBlank s with
    | '"' :: rest => (literal? rest).map fun (cs, rest) => (.bare (String.ofList cs), rest)
    | '\x7b' :: rest =>
      match depth with
      | 0 => none
      | depth + 1 => do
        let (tag, rest) ← name? rest
        let rest ← expect? ':' rest
        let (payload, rest) ←
          match skipBlank rest with
          | 'n' :: 'u' :: 'l' :: 'l' :: rest => some (none, rest)
          | rest => (read? depth rest).map fun (value, rest) => (some value, rest)
        let rest ← expect? '\x7d' rest
        return (.wrapped tag payload, rest)
    | _ => none

/-- The tagged value that a text spells. -/
def ofText? (text : String) : Option Tagged := do
  let (value, rest) ← read? maxDepth text.toList
  if (skipBlank rest).isEmpty then return value else none

end Tagged

end ExprGraph.Json
