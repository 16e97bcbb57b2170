import AsyncMigration.Json.Reader
import Mathlib.Data.List.TakeWhile
import Mathlib.Tactic.IntervalCases

/-!
# The texts of a JSON value

A value has many texts: blanks may stand around every token, a character may be escaped or not, and
the same number may be written in several ways. `Json.Spells` is the grammar. What it leaves open is
how many digits a number may have in front of its point, since readers differ in that.

* `Json.Spells`, `Json.Document` — the texts of a value.
* `Json.textBody_of_escaped` — what stands between quotes is read.
* `Json.number?_of_integer`, `Json.number?_of_real` — numbers are read, if they are not too long.
* `Json.wordValue?_eq_none` — integers that are too long are not.
-/

namespace AsyncMigration.Json

/-! ## The grammar -/

/-- What may stand between tokens. -/
def Blanks (cs : List Char) : Prop := ∀ c ∈ cs, c = ' ' ∨ c = '\t' ∨ c = '\n' ∨ c = '\r'

/-- Texts with blanks around them. -/
def Padded (P : List Char → Prop) (cs : List Char) : Prop :=
  ∃ before inner after, cs = before ++ inner ++ after ∧ Blanks before ∧ P inner ∧ Blanks after

/-- A small or capital hexadecimal digit. -/
def HexDigit (c : Char) (n : Nat) : Prop :=
  n < 16 ∧ (c = Nat.digitChar n ∨ c = (Nat.digitChar n).toUpper)

/-- Four hexadecimal digits. -/
def HexUnit (a b c d : Char) (u : Nat) : Prop :=
  ∃ w x y z, HexDigit a w ∧ HexDigit b x ∧ HexDigit c y ∧ HexDigit d z ∧
    u = 4096 * w + 256 * x + 16 * y + z

/-- The letters that may follow a backslash, and the characters that they stand for. -/
def shortEscapes : List (Char × Char) :=
  [('"', '"'), ('\\', '\\'), ('/', '/'), ('b', Char.ofNat 8), ('f', Char.ofNat 12), ('n', '\n'),
    ('r', '\r'), ('t', '\t')]

/-- What stands between quotes for characters: each as it is, unless it is a control character, a
quote or a backslash, or after a backslash. What is beyond 16 bits may be escaped as two surrogates. -/
inductive Escaped : List Char → List Char → Prop
  | nil : Escaped [] []
  | plain {c : Char} {cs s : List Char} (hc : 0x20 ≤ c.toNat) (hquote : c ≠ '"')
      (hslash : c ≠ '\\') : Escaped cs s → Escaped (c :: cs) (c :: s)
  | short {c e : Char} {cs s : List Char} (he : (c, e) ∈ shortEscapes) :
      Escaped cs s → Escaped ('\\' :: c :: cs) (e :: s)
  | unit {a b c d : Char} {u : Nat} {cs s : List Char} (hu : HexUnit a b c d u)
      (hrange : u < 0xd800 ∨ 0xe000 ≤ u) :
      Escaped cs s → Escaped ('\\' :: 'u' :: a :: b :: c :: d :: cs) (Char.ofNat u :: s)
  | pair {a b c d a' b' c' d' : Char} {u v : Nat} {cs s : List Char} (hu : HexUnit a b c d u)
      (hhigh : 0xd800 ≤ u ∧ u < 0xdc00) (hv : HexUnit a' b' c' d' v)
      (hlow : 0xdc00 ≤ v ∧ v < 0xe000) :
      Escaped cs s →
        Escaped ('\\' :: 'u' :: a :: b :: c :: d :: '\\' :: 'u' :: a' :: b' :: c' :: d' :: cs)
          (Char.ofNat (0x10000 + (u - 0xd800) * 0x400 + (v - 0xdc00)) :: s)

/-- A text between quotes. -/
def Quoted (s : String) (cs : List Char) : Prop :=
  ∃ inner, cs = '"' :: inner ++ ['"'] ∧ Escaped inner s.toList

/-- Digits, at least one. -/
def Digits (ds : List Char) : Prop := ds ≠ [] ∧ ∀ c ∈ ds, c.isDigit = true

/-- Digits in front of a point: without needless zeros, and in a number that is allowed. -/
structure Whole (bound : Nat → Prop) (ds : List Char) : Prop where
  digits : Digits ds
  needed : ds.head? = some '0' → ds.length = 1
  size : bound ds.length

/-- What stands after digits for a fraction of these digits. -/
inductive Fraction : List Char → List Char → Prop
  | absent : Fraction [] []
  | present {ds : List Char} (hds : Digits ds) : Fraction ('.' :: ds) ds

/-- What may stand in front of the digits of a power, and whether it is a minus. -/
def signs : List (List Char × Bool) := [([], false), (['+'], false), (['-'], true)]

def signed (negative : Bool) (n : Nat) : Int := if negative then -(n : Int) else n

/-- What stands at the end of a number for a power of ten. -/
inductive Power : List Char → Int → Prop
  | absent : Power [] 0
  | present {mark : Char} {ss ds : List Char} {negative : Bool} (hmark : mark = 'e' ∨ mark = 'E')
      (hsign : (ss, negative) ∈ signs) (hds : Digits ds) :
      Power (mark :: (ss ++ ds)) (signed negative (Numeral.natOf ds))

/-- The sign of a number. -/
def sign (negative : Bool) : List Char := if negative then ['-'] else []

/-- An integer in digits. -/
def IntegerText (bound : Nat → Prop) (i : Int) (cs : List Char) : Prop :=
  ∃ negative ds, Whole bound ds ∧ cs = sign negative ++ ds ∧ i = signed negative (Numeral.natOf ds)

/-- A number with a fraction or a power of ten; what it stands for is rounded. -/
def RealText (bound : Nat → Prop) (x : Binary64) (cs : List Char) : Prop :=
  ∃ negative whole fs frac es e, Whole bound whole ∧ Fraction fs frac ∧ Power es e ∧ fs ++ es ≠ [] ∧
    cs = sign negative ++ (whole ++ (fs ++ es)) ∧
    x = .ofDecimal negative (Numeral.natOf (whole ++ frac)) (e - frac.length)

mutual

/-- The texts of a value, in which a number has as many digits in front of its point as `bound`
allows. -/
def Spells (bound : Nat → Prop) : Json → List Char → Prop
  | .null, cs => cs = ['n', 'u', 'l', 'l']
  | .bool true, cs => cs = ['t', 'r', 'u', 'e']
  | .bool false, cs => cs = ['f', 'a', 'l', 's', 'e']
  | .integer i, cs => IntegerText bound i cs
  | .real x, cs => RealText bound x cs
  | .text s, cs => Quoted s cs
  | .list items, cs => ∃ inner, cs = '[' :: inner ++ [']'] ∧ SpellsItems bound items inner
  | .object members, cs =>
    ∃ inner, cs = '\x7b' :: inner ++ ['\x7d'] ∧ SpellsMembers bound members inner

/-- The texts of items, with commas between them. -/
def SpellsItems (bound : Nat → Prop) : List Json → List Char → Prop
  | [], cs => Blanks cs
  | [v], cs => Padded (Spells bound v) cs
  | v :: w :: vs, cs =>
    ∃ first rest, cs = first ++ ',' :: rest ∧ Padded (Spells bound v) first ∧
      SpellsItems bound (w :: vs) rest

/-- The texts of members, with commas between them. -/
def SpellsMembers (bound : Nat → Prop) : List (String × Json) → List Char → Prop
  | [], cs => Blanks cs
  | [(name, v)], cs =>
    ∃ key value, cs = key ++ ':' :: value ∧ Padded (Quoted name) key ∧ Padded (Spells bound v) value
  | (name, v) :: m :: ms, cs =>
    ∃ key value rest, cs = key ++ ':' :: (value ++ ',' :: rest) ∧ Padded (Quoted name) key ∧
      Padded (Spells bound v) value ∧ SpellsMembers bound (m :: ms) rest

end

/-- The texts that hold a value and nothing else. -/
def Document (bound : Nat → Prop) (v : Json) (cs : List Char) : Prop := Padded (Spells bound v) cs

theorem blanks_nil : Blanks [] := fun _ hc => absurd hc List.not_mem_nil

theorem padded_self {P : List Char → Prop} {cs : List Char} (h : P cs) : Padded P cs :=
  ⟨[], cs, [], by simp, blanks_nil, h, blanks_nil⟩

mutual

/-- How many lists and objects with something in them stand inside one another. -/
def nesting : Json → Nat
  | .list items => nestingOfItems items
  | .object members => nestingOfMembers members
  | _ => 0

/-- The greatest nesting of something among items, with the list around it. -/
def nestingOfItems : List Json → Nat
  | [] => 0
  | v :: vs => max (nesting v + 1) (nestingOfItems vs)

/-- The greatest nesting of something among members, with the object around it. -/
def nestingOfMembers : List (String × Json) → Nat
  | [] => 0
  | (_, v) :: ms => max (nesting v + 1) (nestingOfMembers ms)

end

/-! ## Quoted texts -/

theorem hexDigit?_of_hexDigit {c : Char} {n : Nat} (h : HexDigit c n) : Text.hexDigit? c = some n := by
  obtain ⟨hn, hc⟩ := h
  interval_cases n <;> rcases hc with rfl | rfl <;> decide

theorem unit?_of_hexUnit {a b c d : Char} {u : Nat} (h : HexUnit a b c d u) :
    unit? a b c d = some u := by
  obtain ⟨w, x, y, z, hw, hx, hy, hz, rfl⟩ := h
  simp only [unit?, hexDigit?_of_hexDigit hw, hexDigit?_of_hexDigit hx, hexDigit?_of_hexDigit hy,
    hexDigit?_of_hexDigit hz, Option.bind_eq_bind, Option.bind_some, Option.pure_def]
  congr 1
  omega

theorem textBody_short {c e : Char} (he : (c, e) ∈ shortEscapes) (cs : List Char) :
    textBody ('\\' :: c :: cs) = prepend e (textBody cs) := by
  simp only [shortEscapes, List.mem_cons, Prod.mk.injEq, List.not_mem_nil, or_false] at he
  rcases he with ⟨rfl, rfl⟩ | ⟨rfl, rfl⟩ | ⟨rfl, rfl⟩ | ⟨rfl, rfl⟩ | ⟨rfl, rfl⟩ | ⟨rfl, rfl⟩ |
    ⟨rfl, rfl⟩ | ⟨rfl, rfl⟩ <;> rfl

theorem textBody_plain {c : Char} (hc : 0x20 ≤ c.toNat) (hquote : c ≠ '"') (hslash : c ≠ '\\')
    (cs : List Char) : textBody (c :: cs) = prepend c (textBody cs) := by
  rw [textBody]
  · exact if_neg (by omega)
  · exact fun h => hquote h
  · exact fun _ _ _ _ _ h _ => hslash h
  · exact fun _ _ h _ => hslash h

theorem textBody_unit {a b c d : Char} {u : Nat} (hu : HexUnit a b c d u)
    (hrange : u < 0xd800 ∨ 0xe000 ≤ u) (cs : List Char) :
    textBody ('\\' :: 'u' :: a :: b :: c :: d :: cs) = prepend (Char.ofNat u) (textBody cs) := by
  rw [textBody, unit?_of_hexUnit hu]
  exact if_pos (by simpa using hrange)

theorem textBody_pair {a b c d a' b' c' d' : Char} {u v : Nat} (hu : HexUnit a b c d u)
    (hhigh : 0xd800 ≤ u ∧ u < 0xdc00) (hv : HexUnit a' b' c' d' v)
    (hlow : 0xdc00 ≤ v ∧ v < 0xe000) (cs : List Char) :
    textBody ('\\' :: 'u' :: a :: b :: c :: d :: '\\' :: 'u' :: a' :: b' :: c' :: d' :: cs)
      = prepend (Char.ofNat (0x10000 + (u - 0xd800) * 0x400 + (v - 0xdc00))) (textBody cs) := by
  have houtside : ¬ (u < 0xd800 || 0xe000 ≤ u) = true := by
    simp only [Bool.or_eq_true, decide_eq_true_eq]
    omega
  have hinside : (0xdc00 ≤ v && v < 0xe000) = true := by simpa using hlow
  rw [textBody, unit?_of_hexUnit hu]
  simp only [if_neg houtside, if_neg (Nat.not_le.2 hhigh.2), unit?_of_hexUnit hv, if_pos hinside]

/-- Reading a quoted text gives what is escaped in it. -/
theorem textBody_of_escaped {inner s : List Char} (h : Escaped inner s) (rest : List Char) :
    textBody (inner ++ '"' :: rest) = some (s, rest) := by
  induction h with
  | nil => rfl
  | plain hc hquote hslash _ ih =>
    rw [List.cons_append, textBody_plain hc hquote hslash, ih]
    rfl
  | short he _ ih =>
    simp only [List.cons_append]
    rw [textBody_short he, ih]
    rfl
  | unit hu hrange _ ih =>
    simp only [List.cons_append]
    rw [textBody_unit hu hrange, ih]
    rfl
  | pair hu hhigh hv hlow _ ih =>
    simp only [List.cons_append]
    rw [textBody_pair hu hhigh hv hlow, ih]
    rfl

/-! ## Numbers -/

/-- A list of characters of some class ends where another character stands. -/
theorem span_append {p : Char → Bool} {l rest : List Char} (hl : ∀ c ∈ l, p c = true)
    (hrest : ∀ c ∈ rest.head?, p c = false) :
    (l ++ rest).takeWhile p = l ∧ (l ++ rest).dropWhile p = rest := by
  rw [List.takeWhile_append_of_pos hl, List.dropWhile_append_of_pos hl]
  cases rest with
  | nil => simp
  | cons c rest => simp [hrest c rfl]

theorem Digits.ne {ds : List Char} (hds : Digits ds) {c : Char} (hc : c.isDigit = false) :
    ∀ d ∈ ds, d ≠ c := by
  rintro d hd rfl
  rw [hds.2 d hd] at hc
  cases hc

theorem Digits.isDigits {ds : List Char} (hds : Digits ds) : Numeral.isDigits ds = true := by
  simp only [Numeral.isDigits, Bool.and_eq_true, List.all_eq_true, Bool.not_eq_true',
    List.isEmpty_eq_false_iff]
  exact hds

/-- A sign is told from the digits after it. -/
theorem splitSign_of_mem {ss ds : List Char} {negative : Bool} (hsign : (ss, negative) ∈ signs)
    (hds : Digits ds) (rest : List Char) :
    Numeral.splitSign (ss ++ (ds ++ rest)) = (negative, ds ++ rest) := by
  obtain ⟨d, ds', rfl⟩ := List.exists_cons_of_ne_nil hds.1
  have hminus : d ≠ '-' := hds.ne rfl d List.mem_cons_self
  have hplus : d ≠ '+' := hds.ne rfl d List.mem_cons_self
  simp only [signs, List.mem_cons, Prod.mk.injEq, List.not_mem_nil, or_false] at hsign
  rcases hsign with ⟨rfl, rfl⟩ | ⟨rfl, rfl⟩ | ⟨rfl, rfl⟩
  · simp [Numeral.splitSign, hminus, hplus]
  · rfl
  · rfl

theorem splitSign_digits {ss ds : List Char} {negative : Bool} (hsign : (ss, negative) ∈ signs)
    (hds : Digits ds) : Numeral.splitSign (ss ++ ds) = (negative, ds) := by
  simpa using splitSign_of_mem hsign hds []

theorem int?_of_mem {ss ds : List Char} {negative : Bool} (hsign : (ss, negative) ∈ signs)
    (hds : Digits ds) : Numeral.int? (ss ++ ds) = some (signed negative (Numeral.natOf ds)) := by
  unfold Numeral.int?
  simp only [splitSign_digits hsign hds, hds.isDigits, if_true]
  rfl

theorem sign_mem (negative : Bool) : (sign negative, negative) ∈ signs := by
  cases negative <;> simp [sign, signs]

section

variable {whole fs frac es : List Char} {e : Int} (hf : Fraction fs frac) (hp : Power es e)

include hp

/-- A power of ten begins with its mark. -/
theorem Power.head?_of_mem {c : Char} (hc : c ∈ es.head?) : c = 'e' ∨ c = 'E' := by
  cases hp with
  | absent => cases hc
  | present hmark _ _ =>
    obtain rfl := Option.some.inj hc
    exact hmark

include hf

theorem Fraction.head?_of_mem {c : Char} (hc : c ∈ (fs ++ es).head?) :
    c = '.' ∨ c = 'e' ∨ c = 'E' := by
  cases hf with
  | absent => exact Or.inr (hp.head?_of_mem hc)
  | present _ => exact Or.inl (Option.some.inj hc).symm

/-- The parts of a number with a fraction or a power of ten are told apart. -/
theorem real?_of_parts (negative : Bool) (hw : Digits whole) :
    Numeral.real? (sign negative ++ (whole ++ (fs ++ es)))
      = some (.ofDecimal negative (Numeral.natOf (whole ++ frac)) (e - frac.length)) := by
  have hmarks : ∀ c ∈ es.head?, (!(decide (c = 'e') || decide (c = 'E'))) = false := by
    intro c hc
    rcases hp.head?_of_mem hc with rfl | rfl <;> rfl
  have hfigures : ∀ c ∈ whole ++ fs, (!(decide (c = 'e') || decide (c = 'E'))) = true := by
    have hdigit : ∀ ds, Digits ds → ∀ c ∈ ds, (!(decide (c = 'e') || decide (c = 'E'))) = true := by
      intro ds hds c hc
      simp [hds.ne (c := 'e') rfl c hc, hds.ne (c := 'E') rfl c hc]
    intro c hc
    rcases List.mem_append.1 hc with hc | hc
    · exact hdigit whole hw c hc
    · cases hf with
      | absent => cases hc
      | present hds =>
        rcases List.mem_cons.1 hc with rfl | hc
        · rfl
        · exact hdigit _ hds c hc
  have hpoint : ∀ c ∈ fs.head?, decide (c ≠ '.') = false := by
    intro c hc
    cases hf with
    | absent => cases hc
    | present _ =>
      obtain rfl := Option.some.inj hc
      rfl
  have hbefore : ∀ c ∈ whole, decide (c ≠ '.') = true := by
    intro c hc
    simpa using hw.ne (c := '.') rfl c hc
  have hfrac : fs.drop 1 = frac := by cases hf <;> rfl
  have hdigits : Digits (whole ++ frac) := by
    refine ⟨by simp [hw.1], fun c hc => ?_⟩
    rcases List.mem_append.1 hc with hc | hc
    · exact hw.2 c hc
    · cases hf with
      | absent => cases hc
      | present hds => exact hds.2 c hc
  unfold Numeral.real?
  rw [splitSign_of_mem (sign_mem negative) hw, ← List.append_assoc]
  dsimp only
  rw [(span_append hfigures hmarks).1, (span_append hfigures hmarks).2, (span_append hbefore hpoint).1,
    (span_append hbefore hpoint).2, hfrac, hdigits.isDigits]
  cases hp with
  | absent => rfl
  | present _ hsign hds =>
    dsimp only
    rw [int?_of_mem hsign hds]
    rfl

end

/-- The characters of a number. -/
theorem mem_number {bound : Nat → Prop} {whole fs frac es : List Char} {e : Int} (negative : Bool)
    (hw : Whole bound whole) (hf : Fraction fs frac) (hp : Power es e) {c : Char}
    (hc : c ∈ sign negative ++ (whole ++ (fs ++ es))) :
    c.isDigit = true ∨ c ∈ ['-', '+', '.', 'e', 'E'] := by
  have hsigns : ∀ ss b, (ss, b) ∈ signs → c ∈ ss → c ∈ ['-', '+', '.', 'e', 'E'] := by
    intro ss b hmem hc
    simp only [signs, List.mem_cons, Prod.mk.injEq, List.not_mem_nil, or_false] at hmem
    rcases hmem with ⟨rfl, -⟩ | ⟨rfl, -⟩ | ⟨rfl, -⟩ <;> simp_all
  simp only [List.mem_append] at hc
  rcases hc with hc | hc | hc | hc
  · exact Or.inr (hsigns _ _ (sign_mem negative) hc)
  · exact Or.inl (hw.digits.2 c hc)
  · cases hf with
    | absent => cases hc
    | present hds =>
      rcases List.mem_cons.1 hc with rfl | hc
      · simp
      · exact Or.inl (hds.2 c hc)
  · cases hp with
    | absent => cases hc
    | present hmark hsign hds =>
      rcases List.mem_cons.1 hc with rfl | hc
      · rcases hmark with rfl | rfl <;> simp
      rcases List.mem_append.1 hc with hc | hc
      · exact Or.inr (hsigns _ _ hsign hc)
      · exact Or.inl (hds.2 c hc)

/-- The parts of a number are found, if there are not too many digits in front. -/
theorem number?_of_parts {whole fs frac es : List Char} {e : Int} (negative : Bool)
    (hw : Whole (· ≤ Numeral.maxFigures) whole) (hf : Fraction fs frac) (hp : Power es e) :
    number? (sign negative ++ (whole ++ (fs ++ es)))
      = if fs ++ es = [] then (Numeral.int? (sign negative ++ (whole ++ (fs ++ es)))).map .integer
        else (Numeral.real? (sign negative ++ (whole ++ (fs ++ es)))).map .real := by
  have hunsigned : (if (sign negative ++ (whole ++ (fs ++ es))).head? = some '-'
      then (sign negative ++ (whole ++ (fs ++ es))).tail else sign negative ++ (whole ++ (fs ++ es)))
        = whole ++ (fs ++ es) := by
    cases negative with
    | true => rfl
    | false =>
      obtain ⟨d, ds, rfl⟩ := List.exists_cons_of_ne_nil hw.digits.1
      exact if_neg fun h => hw.digits.ne rfl d List.mem_cons_self (Option.some.inj h)
  have hrest : ∀ c ∈ (fs ++ es).head?, c.isDigit = false := by
    intro c hc
    rcases hf.head?_of_mem hp hc with rfl | rfl | rfl <;> rfl
  obtain ⟨htake, hdrop⟩ := span_append hw.digits.2 hrest
  have hwhole : ((whole.length = 1 || (!whole.isEmpty && whole.head? ≠ some '0')) &&
      whole.length ≤ Numeral.maxFigures) = true := by
    have hsize := hw.size
    have hneeded := hw.needed
    have hne := hw.digits.1
    simp only [Bool.and_eq_true, Bool.or_eq_true, decide_eq_true_eq, Bool.not_eq_true',
      List.isEmpty_eq_false_iff]
    grind
  unfold number?
  simp only [hunsigned, htake, hdrop, hwhole]
  cases hf with
  | absent =>
    cases hp with
    | absent => simp
    | present hmark hsign hes =>
      rcases hmark with rfl | rfl <;> simp [splitSign_digits hsign hes, hes.isDigits]
  | present hds =>
    have hstop : ∀ c ∈ es.head?, c.isDigit = false := by
      intro c hc
      rcases hp.head?_of_mem hc with rfl | rfl <;> rfl
    simp only [List.cons_append, (span_append hds.2 hstop).1, (span_append hds.2 hstop).2]
    cases hp with
    | absent => simp [hds.1]
    | present hmark hsign hes =>
      rcases hmark with rfl | rfl <;> simp [splitSign_digits hsign hes, hes.isDigits, hds.1]

theorem number?_of_integer {i : Int} {cs : List Char}
    (h : IntegerText (· ≤ Numeral.maxFigures) i cs) : number? cs = some (.integer i) := by
  obtain ⟨negative, ds, hds, rfl, rfl⟩ := h
  have hparts := number?_of_parts negative hds .absent .absent
  rw [List.append_nil, List.append_nil, if_pos rfl, int?_of_mem (sign_mem negative) hds.digits] at hparts
  exact hparts

theorem number?_of_real {x : Binary64} {cs : List Char}
    (h : RealText (· ≤ Numeral.maxFigures) x cs) : number? cs = some (.real x) := by
  obtain ⟨negative, whole, fs, frac, es, e, hw, hf, hp, hne, rfl, rfl⟩ := h
  rw [number?_of_parts negative hw hf hp, if_neg hne, real?_of_parts hf hp negative hw.digits]
  rfl

/-- The words that are no numbers in digits. -/
def namedValues : List String := ["null", "true", "false", "NaN", "Infinity", "-Infinity"]

theorem wordValue?_eq_number? {cs : List Char} (h : String.ofList cs ∉ namedValues) :
    wordValue? cs = number? cs := by
  have hne : ∀ word ∈ namedValues, String.ofList cs ≠ word := by
    rintro _ hword rfl
    exact h hword
  unfold wordValue?
  split
  · next hword => exact absurd hword (hne _ (by decide))
  · next hword => exact absurd hword (hne _ (by decide))
  · next hword => exact absurd hword (hne _ (by decide))
  · next hword => exact absurd hword (hne _ (by decide))
  · next hword => exact absurd hword (hne _ (by decide))
  · next hword => exact absurd hword (hne _ (by decide))
  · rfl

/-- What is read as a number is none of the words. -/
theorem wordValue?_of_number? {cs : List Char} {v : Json} (h : number? cs = some v) :
    wordValue? cs = some v := by
  have hnone : ∀ word ∈ namedValues, (number? word.toList).isNone = true := by decide
  rw [wordValue?_eq_number? fun hword => ?_, h]
  have hnumber := hnone _ hword
  rw [String.toList_ofList, h] at hnumber
  cases hnumber

/-- An integer of too many digits is no value. -/
theorem wordValue?_eq_none {ds : List Char} (hds : Digits ds)
    (hlong : Numeral.maxFigures < ds.length) : wordValue? ds = none := by
  have hunsigned : ds.head? ≠ some '-' := fun h => hds.ne rfl _ (List.mem_of_head? h) rfl
  have hwhole : ds.takeWhile Char.isDigit = ds := List.takeWhile_eq_self_iff.2 hds.2
  have hshort : ∀ word ∈ namedValues, word.toList.length ≤ Numeral.maxFigures := by decide
  rw [wordValue?_eq_number? fun hword => ?_]
  · unfold number?
    simp only [if_neg hunsigned, hwhole, Nat.not_le.2 hlong]
    simp
  · have hle := hshort _ hword
    rw [String.toList_ofList] at hle
    omega

end AsyncMigration.Json
