/-
  Reading — where a text ends, and what it says.

  A text that is put together from others can be read back only if it is clear where each of them
  ends.  All of the texts here show it themselves, whatever stands behind them.

  1. **Specification** — `Text.Tells P x y`: if one text begins with `x` and with `y`, then `P`, and
     what stands behind the two is the same.  With `P` an equation between what `x` and `y` are
     written for, this is reading `x` and `y` back, whatever follows.

  2. **Composition** — texts that tell, one behind the other, tell both (`Tells.append`); a sequence
     with commas between its parts and a closing bracket behind them tells all of its members, and
     their number (`tells_commas`).

  3. **Pieces** — quoted texts (`tells_quote`: the closing quote is the first one that no backslash
     stands in front of), types (`DataType.tells_text`) and shapes (`Shape.tells_text`).
-/
import ExprGraph.Graph.Rendering
import ExprGraph.Proofs.SameArguments

namespace ExprGraph

namespace Text

/-! ## Telling texts apart -/

/-- **`x` and `y` tell `P`**: what begins with both of them shows `P`, and goes on in one way. -/
def Tells (P : Prop) (x y : List Char) : Prop :=
  ∀ rest rest', x ++ rest = y ++ rest' → P ∧ rest = rest'

variable {P Q : Prop} {x y x' y' : List Char}

theorem tells_self (x : List Char) : Tells True x x :=
  fun _ _ h => ⟨trivial, List.append_cancel_left h⟩

theorem Tells.imp (h : Tells P x y) (hPQ : P → Q) : Tells Q x y :=
  fun rest rest' heq => (h rest rest' heq).imp_left hPQ

theorem Tells.symm (h : Tells P x y) : Tells P y x :=
  fun rest rest' heq => (h rest' rest heq.symm).imp_right Eq.symm

/-- **One text behind the other**: the second ones need to tell only if the first ones agree. -/
theorem Tells.append (h : Tells P x y) (h' : P → Tells Q x' y') :
    Tells (P ∧ Q) (x ++ x') (y ++ y') := by
  intro rest rest' heq
  rw [List.append_assoc, List.append_assoc] at heq
  obtain ⟨hP, heq⟩ := h _ _ heq
  obtain ⟨hQ, heq⟩ := h' hP _ _ heq
  exact ⟨⟨hP, hQ⟩, heq⟩

/-- A piece in front that is the same on both sides. -/
theorem Tells.behind (front : List Char) (h : Tells P x y) : Tells P (front ++ x) (front ++ y) :=
  ((tells_self front).append fun _ => h).imp And.right

/-- Texts that begin with different characters. -/
theorem tells_of_head {c d : Char} (h : c ≠ d) : Tells P (c :: x) (d :: y) :=
  fun _ _ heq => absurd (List.cons.inj heq).1 h

/-- Texts neither of which is a beginning of the other. -/
theorem tells_of_apart (h : ¬ x <+: y) (h' : ¬ y <+: x) : Tells P x y := by
  intro rest rest' heq
  have hx : x <+: y ++ rest' := ⟨rest, heq⟩
  rcases List.prefix_or_prefix_of_prefix hx (List.prefix_append y rest') with hxy | hyx
  · exact absurd hxy h
  · exact absurd hyx h'

/-- Where the fronts are already apart, it does not matter how the texts go on. -/
theorem Tells.of_fronts (h : Tells False x y) : Tells P (x ++ x') (y ++ y') :=
  (h.append (Q := P) False.elim).imp And.right

/-- **Texts up to a mark** that does not occur in them. -/
theorem tells_until {stop : Char} (hx : stop ∉ x) (hy : stop ∉ y) :
    Tells (x = y) (x ++ [stop]) (y ++ [stop]) := by
  induction x generalizing y with
  | nil =>
    cases y with
    | nil => exact (tells_self _).imp fun _ => rfl
    | cons d y => exact tells_of_head fun h => hy (h ▸ List.mem_cons_self)
  | cons c x ih =>
    cases y with
    | nil => exact tells_of_head fun h => hx (h ▸ List.mem_cons_self)
    | cons d y =>
      by_cases hcd : c = d
      · subst hcd
        have hrest := ih (fun h => hx (List.mem_cons_of_mem c h))
          (fun h => hy (List.mem_cons_of_mem c h))
        exact (hrest.behind [c]).imp fun h => h ▸ rfl
      · exact tells_of_head hcd

/-! ## Sequences -/

/-- What stands behind the first member of a sequence: the others, each behind a comma, and the
    bracket. -/
def more : List String → List Char
  | [] => [')']
  | part :: parts => [',', ' '] ++ (part.toList ++ more parts)

theorem toList_commas_cons (part : String) (parts : List String) :
    (Argument.commas (part :: parts)).toList ++ [')'] = part.toList ++ more parts := by
  induction parts generalizing part with
  | nil => simp [Argument.commas, more]
  | cons next rest ih =>
    have hcommas : Argument.commas (part :: next :: rest) =
        part ++ ", " ++ Argument.commas (next :: rest) := String.intercalate_cons_cons
    rw [hcommas, String.toList_append, String.toList_append, List.append_assoc, List.append_assoc,
      ih]
    rfl

section Sequences

variable {α β : Type} {R : α → β → Prop} {f : α → String} {k : β → String} {as : List α}
  {bs : List β}

theorem tells_more (h : ∀ (i : Nat) (a : α) (b : β), as[i]? = some a → bs[i]? = some b →
    Tells (R a b) (f a).toList (k b).toList) :
    Tells (List.Forall₂ R as bs) (more (as.map f)) (more (bs.map k)) := by
  induction as generalizing bs with
  | nil =>
    cases bs with
    | nil => exact (tells_self _).imp fun _ => .nil
    | cons b bs => exact tells_of_head (by decide)
  | cons a as ih =>
    cases bs with
    | nil => exact tells_of_head (by decide)
    | cons b bs =>
      have hrest := ih fun i x y hx hy => h (i + 1) x y hx hy
      have hboth := ((h 0 a b rfl rfl).append fun _ => hrest).behind [',', ' ']
      exact hboth.imp fun hab => List.Forall₂.cons hab.1 hab.2

/-- A text that does not begin with the closing bracket, and is not empty. -/
def Opens (x : String) : Prop := (x.toList.head?.any fun c => c != ')') = true

instance (x : String) : Decidable (Opens x) :=
  inferInstanceAs (Decidable (_ = true))

theorem Opens.exists_cons {x : String} (h : Opens x) :
    ∃ c rest, x.toList = c :: rest ∧ c ≠ ')' := by
  obtain ⟨c, hc, hne⟩ := (Option.any_eq_true _ _).1 h
  obtain ⟨rest, hx⟩ := List.head?_eq_some_iff.1 hc
  exact ⟨c, rest, hx, bne_iff_ne.1 hne⟩

theorem Opens.append {x : String} (h : Opens x) (y : String) : Opens (x ++ y) := by
  obtain ⟨c, rest, hx, hne⟩ := h.exists_cons
  rw [Opens, String.toList_append, hx]
  exact bne_iff_ne.2 hne

/-- Where a sequence has ended, no further member can stand. -/
theorem Opens.tells {x : String} (h : Opens x) (rest : List Char) :
    Tells P [')'] (x.toList ++ rest) := by
  obtain ⟨c, front, hx, hne⟩ := h.exists_cons
  rw [hx]
  exact tells_of_head hne.symm

/-- **A bracketed sequence tells its members**, and how many there are, if they can be told at each
    position. -/
theorem tells_commas (h : ∀ (i : Nat) (a : α) (b : β), as[i]? = some a → bs[i]? = some b →
    Tells (R a b) (f a).toList (k b).toList) (ha : ∀ a ∈ as, Opens (f a))
    (hb : ∀ b ∈ bs, Opens (k b)) :
    Tells (List.Forall₂ R as bs) ((Argument.commas (as.map f)).toList ++ [')'])
      ((Argument.commas (bs.map k)).toList ++ [')']) := by
  cases as with
  | nil =>
    cases bs with
    | nil => exact (tells_self _).imp fun _ => .nil
    | cons b bs =>
      rw [List.map_cons, toList_commas_cons]
      exact (hb b List.mem_cons_self).tells _
  | cons a as =>
    cases bs with
    | nil =>
      rw [List.map_cons, toList_commas_cons]
      exact ((ha a List.mem_cons_self).tells _).symm
    | cons b bs =>
      rw [List.map_cons, List.map_cons, toList_commas_cons, toList_commas_cons]
      have hrest := tells_more fun i x y hx hy => h (i + 1) x y hx hy
      exact ((h 0 a b rfl rfl).append fun _ => hrest).imp fun hab => .cons hab.1 hab.2

end Sequences

/-! ## Quoted texts -/

theorem digitChar_injective : ∀ m < 16, ∀ n < 16, Nat.digitChar m = Nat.digitChar n → m = n := by
  decide

theorem toDigits_cases (n : Nat) : (n < 16 ∧ Nat.toDigits 16 n = [Nat.digitChar n]) ∨
    (16 ≤ n ∧ Nat.toDigits 16 n = Nat.toDigits 16 (n / 16) ++ [Nat.digitChar (n % 16)]) := by
  rcases Nat.lt_or_ge n 16 with hn | hn
  · exact Or.inl ⟨hn, Nat.toDigits_of_lt_base hn⟩
  · exact Or.inr ⟨hn, Nat.toDigits_of_base_le (by decide) hn⟩

/-- **Hexadecimal digits tell the number.** -/
theorem toDigits_injective {m n : Nat} (h : Nat.toDigits 16 m = Nat.toDigits 16 n) : m = n := by
  induction m using Nat.strongRecOn generalizing n with
  | _ m ih =>
    rcases toDigits_cases m with ⟨hm, hdigits⟩ | ⟨hm, hdigits⟩ <;>
      rcases toDigits_cases n with ⟨hn, hdigits'⟩ | ⟨hn, hdigits'⟩ <;>
      rw [hdigits, hdigits'] at h
    · exact digitChar_injective m hm n hn (List.cons.inj h).1
    · have hlength := congrArg List.length h
      have hpos : 0 < (Nat.toDigits 16 (n / 16)).length := Nat.length_toDigits_pos
      simp only [List.length_append, List.length_singleton] at hlength
      omega
    · have hlength := congrArg List.length h
      have hpos : 0 < (Nat.toDigits 16 (m / 16)).length := Nat.length_toDigits_pos
      simp only [List.length_append, List.length_singleton] at hlength
      omega
    · obtain ⟨hfront, hlast⟩ := List.append_inj' h rfl
      have hdiv := ih (m / 16) (by omega) hfront
      have hmod := digitChar_injective (m % 16) (Nat.mod_lt _ (by decide)) (n % 16)
        (Nat.mod_lt _ (by decide)) (List.cons.inj hlast).1
      omega

theorem brace_not_mem_toDigits (n : Nat) : '\x7d' ∉ Nat.toDigits 16 n := by
  have hdigit : ∀ d < 16, '\x7d' ≠ Nat.digitChar d := by decide
  induction n using Nat.strongRecOn with
  | _ n ih =>
    rcases toDigits_cases n with ⟨hn, hdigits⟩ | ⟨hn, hdigits⟩ <;> rw [hdigits]
    · exact fun h => hdigit n hn (List.mem_singleton.1 h)
    · rw [List.mem_append, not_or]
      exact ⟨ih (n / 16) (by omega),
        fun h => hdigit _ (Nat.mod_lt _ (by decide)) (List.mem_singleton.1 h)⟩

/-- **The three ways to write a character** between quotes. -/
inductive Written (c : Char) : List Char → Prop where
  | letter {l : Char} : letter? c = some l → Written c ['\\', l]
  | plain : c ≠ '"' → c ≠ '\\' → Written c [c]
  | codePoint : Written c (codePoint c)

theorem written_escape (c : Char) : Written c (escape c) := by
  unfold escape
  cases hletter : letter? c with
  | some l => exact .letter hletter
  | none =>
    obtain ⟨hquote, hslash⟩ := letter?_none hletter
    cases isPlain c with
    | true => exact .plain hquote hslash
    | false => exact .codePoint

/-- A character is never written with the quote in front. -/
theorem Written.tells_quote {c : Char} (h : Written c x) : Tells P (['"'] ++ x') (x ++ y) := by
  cases h with
  | letter _ => exact tells_of_head (by decide)
  | plain hquote _ => exact tells_of_head hquote.symm
  | codePoint => exact tells_of_head (by decide)

theorem letter?_injective {c d l : Char} (hc : letter? c = some l) (hd : letter? d = some l) :
    c = d := by
  unfold letter? at hc hd
  split at hc <;> cases hc <;> split at hd <;> first | rfl | exact absurd hd (by decide)

theorem letter?_ne_u {c : Char} : letter? c ≠ some 'u' := by
  unfold letter?
  split <;> decide

/-- **A written character tells the character.** -/
theorem Written.tells {c d : Char} (hc : Written c x) (hd : Written d y) : Tells (c = d) x y := by
  cases hc with
  | @letter l hl =>
    cases hd with
    | @letter m hm =>
      by_cases hlm : l = m
      · subst hlm
        exact (tells_self _).imp fun _ => letter?_injective hl hm
      · exact (tells_of_head hlm).behind ['\\']
    | plain _ hslash => exact tells_of_head hslash.symm
    | codePoint => exact (tells_of_head fun hu => letter?_ne_u (hu ▸ hl)).behind ['\\']
  | plain _ hslash =>
    cases hd with
    | letter _ => exact tells_of_head hslash
    | plain _ _ =>
      by_cases hcd : c = d
      · exact hcd ▸ (tells_self [c]).imp fun _ => rfl
      · exact tells_of_head hcd
    | codePoint => exact tells_of_head hslash
  | codePoint =>
    cases hd with
    | letter hm => exact (tells_of_head fun hu => letter?_ne_u (hu ▸ hm)).behind ['\\']
    | plain _ hslash => exact tells_of_head hslash.symm
    | codePoint =>
      have hdigits := tells_until (brace_not_mem_toDigits c.toNat) (brace_not_mem_toDigits d.toNat)
      exact (hdigits.behind ['\\', 'u', '\x7b']).imp fun h =>
        Char.toNat_inj.1 (toDigits_injective h)

/-- **A quoted text tells the text.** -/
theorem tells_quote (s t : String) : Tells (s = t) (quote s).toList (quote t).toList := by
  have hwritten : ∀ cs ds : List Char, Tells (cs = ds) (cs.flatMap escape ++ ['"'])
      (ds.flatMap escape ++ ['"']) := by
    intro cs
    induction cs with
    | nil =>
      intro ds
      cases ds with
      | nil => exact (tells_self _).imp fun _ => rfl
      | cons d ds =>
        rw [List.flatMap_cons, List.append_assoc]
        exact (written_escape d).tells_quote
    | cons c cs ih =>
      intro ds
      cases ds with
      | nil =>
        rw [List.flatMap_cons, List.append_assoc]
        exact (written_escape c).tells_quote.symm
      | cons d ds =>
        rw [List.flatMap_cons, List.flatMap_cons, List.append_assoc, List.append_assoc]
        have hhead := (written_escape c).tells (written_escape d)
        exact (hhead.append fun _ => ih ds).imp fun h => by rw [h.1, h.2]
  rw [quote, quote, String.toList_ofList, String.toList_ofList]
  exact ((hwritten s.toList t.toList).behind ['"']).imp String.toList_inj.1

end Text

open Text

/-! ## Types and shapes -/

namespace DataType

/-- The types that are no arrays. -/
def plain : List DataType :=
  [.null, .boolean, .int8, .int16, .int32, .int64, .float32, .float64, .string, .date, .timestamp]

theorem plain_or_array (t : DataType) : t ∈ plain ∨ ∃ element, t = .array element := by
  cases t with
  | array element => exact Or.inr ⟨element, rfl⟩
  | _ => exact Or.inl (by decide)

/-- No plain type is written with another one's text in front. -/
theorem not_beginning_of_mem_plain : ∀ t ∈ plain, ∀ u ∈ plain, t ≠ u →
    ¬ t.text.toList <+: u.text.toList := by
  decide +kernel

theorem toList_array_text (element : DataType) :
    (array element).text.toList = "array<".toList ++ (element.text.toList ++ ">".toList) := by
  rw [text, String.toList_append, String.toList_append, List.append_assoc]

theorem tells_array {t : DataType} (ht : t ∈ plain) (element : DataType) (P : Prop) :
    Tells P t.text.toList (array element).text.toList := by
  have hapart : ∀ t ∈ plain, ¬ t.text.toList <+: "array<".toList ∧
      ¬ "array<".toList <+: t.text.toList := by
    decide +kernel
  rw [toList_array_text, ← List.append_nil t.text.toList]
  exact (tells_of_apart (hapart t ht).1 (hapart t ht).2).of_fronts

theorem tells_of_mem_plain {t : DataType} (ht : t ∈ plain) (u : DataType) :
    Tells (t = u) t.text.toList u.text.toList := by
  rcases plain_or_array u with hu | ⟨element, rfl⟩
  · by_cases htu : t = u
    · exact htu ▸ (tells_self _).imp fun _ => rfl
    · exact tells_of_apart (not_beginning_of_mem_plain t ht u hu htu)
        (not_beginning_of_mem_plain u hu t ht (Ne.symm htu))
  · exact tells_array ht element _

/-- **The text of a type tells the type**, however deep its arrays are. -/
theorem tells_text (t u : DataType) : Tells (t = u) t.text.toList u.text.toList := by
  induction t generalizing u with
  | array t ih =>
    rcases plain_or_array u with hu | ⟨element, rfl⟩
    · exact (tells_array hu t _).symm
    · rw [toList_array_text, toList_array_text]
      have hinner := (ih element).append fun _ => tells_self ">".toList
      exact (hinner.behind _).imp fun h => h.1 ▸ rfl
  | _ => exact tells_of_mem_plain (by decide) u

end DataType

/-- **The text of a shape tells the shape.** -/
theorem Shape.tells_text (s t : Shape) : Tells (s = t) s.text.toList t.text.toList := by
  have hapart : ∀ s t : Shape, s ≠ t → ¬ s.text.toList <+: t.text.toList := by
    rintro (_ | _) (_ | _) <;> decide +kernel
  by_cases hst : s = t
  · exact hst ▸ (tells_self _).imp fun _ => rfl
  · exact tells_of_apart (hapart s t hst) (hapart t s (Ne.symm hst))

end ExprGraph
