import AsyncMigration.Json.Value
import AsyncMigration.Text.Hex

/-!
# JSON tokens

A JSON text is read as a list of tokens: punctuation, quoted texts, and words, which are the runs of
all other characters between blanks. Escapes are resolved here; what a word means is left to the
reader of values.
-/

namespace AsyncMigration.Json

open Text (hexDigit?)

/-- A token of a JSON text. -/
inductive Token where
  | openList
  | closeList
  | openObject
  | closeObject
  | comma
  | colon
  | text (s : String)
  | word (cs : List Char)
deriving DecidableEq, Repr

/-- The blanks between tokens. -/
def isFiller (c : Char) : Bool := c = ' ' || c = '\t' || c = '\n' || c = '\r'

/-- The token of a punctuation mark. -/
def mark? (c : Char) : Option Token :=
  match c with
  | '[' => some .openList
  | ']' => some .closeList
  | '\x7b' => some .openObject
  | '\x7d' => some .closeObject
  | ',' => some .comma
  | ':' => some .colon
  | _ => none

/-- Whether a character can stand in a word. -/
def isWordChar (c : Char) : Bool := !isFiller c && (mark? c).isNone && c ≠ '"'

/-- The UTF-16 unit of four hexadecimal digits. -/
def unit? (a b c d : Char) : Option Nat := do
  return (((← hexDigit? a) * 16 + (← hexDigit? b)) * 16 + (← hexDigit? c)) * 16 + (← hexDigit? d)

/-- The character that a letter after a backslash stands for. -/
def escape? (c : Char) : Option Char :=
  match c with
  | '"' => some '"'
  | '\\' => some '\\'
  | '/' => some '/'
  | 'b' => some (Char.ofNat 8)
  | 'f' => some (Char.ofNat 12)
  | 'n' => some '\n'
  | 'r' => some '\r'
  | 't' => some '\t'
  | _ => none

/-- Puts a character in front of a text that was read. -/
def prepend (c : Char) : Option (List Char × List Char) → Option (List Char × List Char)
  | none => none
  | some (s, rest) => some (c :: s, rest)

/-- Reads a text up to its closing quote. Control characters have to be escaped, and a surrogate
escape has to be followed by its other half. -/
def textBody : List Char → Option (List Char × List Char)
  | [] => none
  | '"' :: cs => some ([], cs)
  | '\\' :: 'u' :: a :: b :: c :: d :: cs =>
    match unit? a b c d with
    | none => none
    | some u =>
      if u < 0xd800 || 0xe000 ≤ u then prepend (Char.ofNat u) (textBody cs)
      else if 0xdc00 ≤ u then none
      else
        match cs with
        | '\\' :: 'u' :: e :: f :: g :: h :: cs =>
          match unit? e f g h with
          | none => none
          | some v =>
            if 0xdc00 ≤ v && v < 0xe000 then
              prepend (Char.ofNat (0x10000 + (u - 0xd800) * 0x400 + (v - 0xdc00))) (textBody cs)
            else none
        | _ => none
  | '\\' :: c :: cs =>
    match escape? c with
    | none => none
    | some e => prepend e (textBody cs)
  | c :: cs => if c.toNat < 0x20 then none else prepend c (textBody cs)

/-- What is left over is what is left over after the text behind. -/
theorem rest_of_prepend {c : Char} {r : Option (List Char × List Char)} {s rest : List Char}
    (h : prepend c r = some (s, rest)) : ∃ t, r = some (t, rest) := by
  cases r with
  | none => cases h
  | some read =>
    obtain ⟨t, rest'⟩ := read
    cases h
    exact ⟨t, rfl⟩

/-- Reading a text uses up characters. -/
theorem textBody_length {cs s rest : List Char} (h : textBody cs = some (s, rest)) :
    rest.length < cs.length := by
  fun_induction textBody cs generalizing s with
  | case1 | case3 | case5 | case6 | case8 | case9 | case10 | case12 => cases h
  | case2 =>
    cases h
    exact Nat.lt_succ_self _
  | case4 _ _ _ _ _ _ _ _ ih =>
    obtain ⟨t, ht⟩ := rest_of_prepend h
    have := ih ht
    simp only [List.length_cons]
    omega
  | case7 _ _ _ _ _ _ _ _ _ _ _ _ _ _ _ _ ih =>
    obtain ⟨t, ht⟩ := rest_of_prepend h
    have := ih ht
    simp only [List.length_cons]
    omega
  | case11 _ _ _ _ _ ih =>
    obtain ⟨t, ht⟩ := rest_of_prepend h
    have := ih ht
    simp only [List.length_cons]
    omega
  | case13 _ _ _ _ _ _ ih =>
    obtain ⟨t, ht⟩ := rest_of_prepend h
    exact Nat.lt_succ_of_lt (ih ht)

/-- The tokens of a JSON text. -/
def tokens? : List Char → Option (List Token)
  | [] => some []
  | c :: cs =>
    if isFiller c then tokens? cs
    else match mark? c with
      | some t => (tokens? cs).map (t :: ·)
      | none =>
        if c = '"' then
          match _h : textBody cs with
          | none => none
          | some (s, rest) => (tokens? rest).map (.text (String.ofList s) :: ·)
        else
          (tokens? (cs.dropWhile isWordChar)).map (.word (c :: cs.takeWhile isWordChar) :: ·)
termination_by cs => cs.length
decreasing_by
  · simp
  · simp
  · have := textBody_length _h
    simp only [List.length_cons]
    omega
  · have := (List.dropWhile_sublist (l := cs) isWordChar).length_le
    simp only [List.length_cons]
    omega

end AsyncMigration.Json
