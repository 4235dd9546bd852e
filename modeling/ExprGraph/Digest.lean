/-
  Digests — the words that stand for a structure.

  Hashing is split in two.  What is hashed is a sequence of tokens, fixed here for each kind of
  data; how a sequence becomes a word is the `Hasher`'s business, and nothing else depends on it.

  1. **Tokens** — a word or a text.  `DataType.tokens` and `Argument.tokens` spell a type and an
     argument.  A nested node contributes the digest it already has, so no spelling ever walks into
     the graph.  A float contributes its key, so numbers that are equal spell the same.

  2. **Maps** contribute the sum of one digest per entry: a sum does not know in which order its
     terms came.

  3. **`Hasher.mixing`** is the hasher for running programs: a word is stirred in at a time.
-/
import ExprGraph.Argument

namespace ExprGraph

/-- One item fed to a hasher. -/
inductive Token where
  | word (value : UInt64)
  | text (value : String)

/-- **A hasher**: any function from what was fed to a word. -/
structure Hasher where
  digest : List Token → UInt64

namespace Hasher

/-- Spread every bit of a word over all of it. -/
def stir (x : UInt64) : UInt64 :=
  let x := (x ^^^ (x >>> 30)) * 0xBF58476D1CE4E5B9
  let x := (x ^^^ (x >>> 27)) * 0x94D049BB133111EB
  x ^^^ (x >>> 31)

/-- The state after one more word. -/
def absorb (state word : UInt64) : UInt64 :=
  stir (state * 0x9E3779B97F4A7C15 + word + 0x632BE59BD9B4E019)

/-- The state after one more token; a text is its length and its characters. -/
def absorbToken (state : UInt64) : Token → UInt64
  | .word w => absorb state w
  | .text s =>
    let cs := s.toList
    cs.foldl (fun st c => absorb st c.toNat.toUInt64) (absorb state cs.length.toUInt64)

/-- The hasher of running programs. -/
def mixing : Hasher := ⟨fun tokens => tokens.foldl absorbToken 0⟩

end Hasher

/-- The tokens of a data type: one word for each constructor. -/
def DataType.tokens : DataType → List Token
  | .null => [.word 0]
  | .boolean => [.word 1]
  | .int8 => [.word 2]
  | .int16 => [.word 3]
  | .int32 => [.word 4]
  | .int64 => [.word 5]
  | .float32 => [.word 6]
  | .float64 => [.word 7]
  | .string => [.word 8]
  | .date => [.word 9]
  | .timestamp => [.word 10]
  | .array t => .word 11 :: t.tokens

namespace Argument

mutual

/-- **The tokens of an argument**, if `digestOf` knows the digests of nodes. -/
def tokens (H : Hasher) (digestOf : NodeId → UInt64) : Argument → List Token
  | .node id => [.word 0, .word (digestOf id)]
  | .none => [.word 1]
  | .bool b => [.word 2, .word (if b then 1 else 0)]
  | .int i => [.word 3, .word i.toUInt64]
  | .float x => [.word 4, .word x.key]
  | .text s => [.word 5, .text s]
  | .shape s => [.word 6, .word s.rank.toUInt64]
  | .dataType t => .word 7 :: t.tokens
  | .tuple items => .word 8 :: .word items.length.toUInt64 :: itemTokens H digestOf items
  | .map entries =>
    [.word 9, .word entries.length.toUInt64, .word (entrySum H digestOf entries)]

/-- The tokens of a sequence, one argument behind the other. -/
def itemTokens (H : Hasher) (digestOf : NodeId → UInt64) : List Argument → List Token
  | [] => []
  | a :: rest => a.tokens H digestOf ++ itemTokens H digestOf rest

/-- The sum of the digests of a dictionary's entries. -/
def entrySum (H : Hasher) (digestOf : NodeId → UInt64) : List (String × Argument) → UInt64
  | [] => 0
  | (key, a) :: rest =>
    H.digest (.text key :: a.tokens H digestOf) + entrySum H digestOf rest

end

/-- The digest of a single argument. -/
def digest (H : Hasher) (digestOf : NodeId → UInt64) (a : Argument) : UInt64 :=
  H.digest (a.tokens H digestOf)

end Argument

end ExprGraph
