/-
  Quoted text — strings as they are written inside other text.

  Double quotes stand around the text; inside, a quote, a backslash and the common controls are a
  backslash and a letter, and every other character that shows no picture of its own is its code
  point in hexadecimal between braces.

  1. **Program** — `letter?` is the table of short escapes, `isPlain` says which characters stand
     for themselves, `escape` writes one character, `quote` a whole text.

  2. **Apart** — a character that stands for itself is neither the quote nor the backslash
     (`letter?_none`), so the closing quote cannot be mistaken.
-/
import ExprGraph.Text.Invisible

namespace ExprGraph.Text

/-- The letter behind the backslash, for the characters that have one. -/
def letter? : Char → Option Char
  | '"' => some '"'
  | '\\' => some '\\'
  | '\n' => some 'n'
  | '\r' => some 'r'
  | '\t' => some 't'
  | '\x00' => some '0'
  | _ => none

/-- Does `c` show a picture of its own? -/
def isPlain (c : Char) : Bool :=
  0x20 ≤ c.toNat && c.toNat != 0x7F && !isInvisible c

/-- A code point in hexadecimal, between braces. -/
def codePoint (c : Char) : List Char :=
  '\\' :: 'u' :: '\x7b' :: (Nat.toDigits 16 c.toNat ++ ['\x7d'])

/-- **One character, as it is written between quotes.** -/
def escape (c : Char) : List Char :=
  match letter? c with
  | some l => ['\\', l]
  | none => if isPlain c then [c] else codePoint c

/-- A text between quotes. -/
def quote (s : String) : String :=
  String.ofList ('"' :: (s.toList.flatMap escape ++ ['"']))

theorem letter?_none {c : Char} (h : letter? c = none) : c ≠ '"' ∧ c ≠ '\\' := by
  constructor <;> (rintro rfl; simp [letter?] at h)

example : quote "a\"\n\u200bé" = "\"a\\\"\\n\\u\x7b200b\x7dé\"" := by decide +kernel

end ExprGraph.Text
