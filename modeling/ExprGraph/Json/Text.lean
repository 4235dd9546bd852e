/-
  JSON text — the two lexemes that a tagged value is spelled with: blanks and string literals.

  A literal is read one piece at a time: an ordinary character, an escape, or the closing quote.

  1. **Program** — `skipBlank` drops blanks, `hexWord?` reads four hexadecimal digits, `escape?` one
     escape behind its backslash, `piece?` one piece, and `literal?` all pieces up to the quote.

  2. **Refusals** — a raw control character, an unknown escape, and half of a surrogate pair are
     refused; there is no character that they could stand for.

  3. **Progress** — a piece is never empty (`piece?_length`), so a literal ends (`literal?` recurses
     on the length of what is left).
-/

namespace ExprGraph.Json

/-- Blanks that may stand between any two lexemes. -/
def isBlank (c : Char) : Bool :=
  c == ' ' || c == '\t' || c == '\n' || c == '\r'

/-- The text from its first lexeme on. -/
def skipBlank (s : List Char) : List Char := s.dropWhile isBlank

/-! ## Escapes -/

/-- The value of a hexadecimal digit, in either case. -/
def hexDigit? (c : Char) : Option Nat :=
  if '0' ≤ c && c ≤ '9' then some (c.toNat - '0'.toNat)
  else if 'a' ≤ c && c ≤ 'f' then some (c.toNat - 'a'.toNat + 10)
  else if 'A' ≤ c && c ≤ 'F' then some (c.toNat - 'A'.toNat + 10)
  else none

/-- Four hexadecimal digits, and what follows them. -/
def hexWord? : List Char → Option (Nat × List Char)
  | a :: b :: c :: d :: rest => do
    let a ← hexDigit? a
    let b ← hexDigit? b
    let c ← hexDigit? c
    let d ← hexDigit? d
    return (((a * 16 + b) * 16 + c) * 16 + d, rest)
  | _ => none

/-- The second half of a surrogate pair: an escape again, and its word must be a trailing one. -/
def trailing? : List Char → Option (Nat × List Char)
  | '\\' :: 'u' :: rest => do
    let (word, rest) ← hexWord? rest
    if 0xDC00 ≤ word && word < 0xE000 then return (word, rest) else none
  | _ => none

/-- The character of a numeric escape, read behind its letter. -/
def numeric? (s : List Char) : Option (Char × List Char) := do
  let (word, rest) ← hexWord? s
  if 0xD800 ≤ word && word < 0xDC00 then
    let (low, rest) ← trailing? rest
    return (Char.ofNat (0x10000 + (word - 0xD800) * 0x400 + (low - 0xDC00)), rest)
  else if 0xDC00 ≤ word && word < 0xE000 then none
  else return (Char.ofNat word, rest)

/-- The character of an escape, read behind its backslash. -/
def escape? : List Char → Option (Char × List Char)
  | '"' :: rest => some ('"', rest)
  | '\\' :: rest => some ('\\', rest)
  | '/' :: rest => some ('/', rest)
  | 'b' :: rest => some ('\x08', rest)
  | 'f' :: rest => some ('\x0c', rest)
  | 'n' :: rest => some ('\n', rest)
  | 'r' :: rest => some ('\r', rest)
  | 't' :: rest => some ('\t', rest)
  | 'u' :: rest => numeric? rest
  | _ => none

/-! ## Literals -/

/-- One piece of a literal: a character, or nothing at the closing quote. -/
def piece? : List Char → Option (Option Char × List Char)
  | [] => none
  | '"' :: rest => some (none, rest)
  | '\\' :: rest => (escape? rest).map fun (c, rest) => (some c, rest)
  | c :: rest => if c.toNat < 0x20 then none else some (some c, rest)

theorem hexWord?_length {s rest : List Char} {word : Nat} (h : hexWord? s = some (word, rest)) :
    rest.length < s.length := by
  unfold hexWord? at h
  split at h
  · simp only [Option.bind_eq_bind, Option.bind_eq_some_iff] at h
    obtain ⟨_, _, _, _, _, _, _, _, h⟩ := h
    simp only [pure, Option.some.injEq, Prod.mk.injEq] at h
    simp only [← h.2, List.length_cons]
    omega
  · simp at h

theorem trailing?_length {s rest : List Char} {word : Nat} (h : trailing? s = some (word, rest)) :
    rest.length < s.length := by
  unfold trailing? at h
  split at h
  · rename_i tail
    simp only [Option.bind_eq_bind, Option.bind_eq_some_iff] at h
    obtain ⟨⟨w, r⟩, hw, h⟩ := h
    have := hexWord?_length hw
    split at h
    · simp only [pure, Option.some.injEq, Prod.mk.injEq] at h
      simp only [← h.2, List.length_cons]
      omega
    · simp at h
  · simp at h

theorem numeric?_length {s rest : List Char} {c : Char} (h : numeric? s = some (c, rest)) :
    rest.length < s.length := by
  simp only [numeric?, Option.bind_eq_bind, Option.bind_eq_some_iff] at h
  obtain ⟨⟨w, r⟩, hw, h⟩ := h
  have hr := hexWord?_length hw
  simp only at h
  split at h
  · simp only [Option.bind_eq_some_iff] at h
    obtain ⟨⟨l, q⟩, hl, h⟩ := h
    have hq := trailing?_length hl
    simp only [pure, Option.some.injEq, Prod.mk.injEq] at h
    rw [← h.2]
    omega
  · split at h
    · simp at h
    · simp only [pure, Option.some.injEq, Prod.mk.injEq] at h
      rw [← h.2]
      omega

theorem escape?_length {s rest : List Char} {c : Char} (h : escape? s = some (c, rest)) :
    rest.length < s.length := by
  unfold escape? at h
  split at h
  case h_9 => exact Nat.lt_succ_of_lt (numeric?_length h)
  all_goals simp at h
  all_goals simp [← h.2]

/-- **A piece is never empty.** -/
theorem piece?_length {s rest : List Char} {c : Option Char} (h : piece? s = some (c, rest)) :
    rest.length < s.length := by
  unfold piece? at h
  split at h
  · simp at h
  · simp only [Option.some.injEq, Prod.mk.injEq] at h
    simp [← h.2]
  · simp only [Option.map_eq_some_iff, Prod.mk.injEq] at h
    obtain ⟨⟨d, r⟩, hd, h⟩ := h
    rw [← h.2]
    exact Nat.lt_succ_of_lt (escape?_length hd)
  · split at h
    · simp at h
    · simp only [Option.some.injEq, Prod.mk.injEq] at h
      simp [← h.2]

/-- A string literal, read behind its opening quote: its characters, and what follows it. -/
def literal? (s : List Char) : Option (List Char × List Char) :=
  match h : piece? s with
  | none => none
  | some (none, rest) => some ([], rest)
  | some (some c, rest) =>
    have := piece?_length h
    (literal? rest).map fun (cs, rest) => (c :: cs, rest)
  termination_by s.length

end ExprGraph.Json
