import AsyncMigration.Json.Writer
import AsyncMigration.Proofs.JsonReading
import Mathlib.Data.List.DropRight

/-!
# The form of written JSON

What is written for a value is a text of the grammar, as long as the numbers in it are finite. Only its
form is looked at here: which value the text stands for depends on how numbers are rounded.

* `Binary64.exists_realText`, `Json.exists_integerText` — numbers are written as the grammar has them.
* `Json.quoted_of_quote` — and so are texts.
* `Json.reals` — the numbers in a value that need not be finite.
* `Json.exists_spells` — the text of a value is a text of some value, if these are.
-/

namespace AsyncMigration

open Json (Digits Whole Fraction Power RealText IntegerText Quoted Escaped)

/-- A number is neither infinite nor "not a number". -/
def Binary64.IsFinite (x : Binary64) : Prop := ∃ s q, x = finite s q

/-- The bound on the digits in front of a point that the grammar itself has: none. -/
def Json.AnyLength (_ : Nat) : Prop := True

/-! ## Digits -/

theorem Json.digits_toDigits (n : Nat) : Digits (Nat.toDigits 10 n) :=
  ⟨Nat.toDigits_ne_nil, fun _ hc => Nat.isDigit_of_mem_toDigits (by decide) (by decide) hc⟩

section

variable {ds : List Char} {n : Nat}

theorem Json.Digits.take (h : Digits ds) (hn : 0 < n) : Digits (ds.take n) := by
  refine ⟨?_, ?_⟩
  · simpa [h.1] using hn.ne'
  · intro c hc
    exact h.2 c (List.mem_of_mem_take hc)

theorem Json.Digits.drop (h : Digits ds) (hn : n < ds.length) : Digits (ds.drop n) := by
  refine ⟨?_, ?_⟩
  · rw [Ne, List.drop_eq_nil_iff]
    omega
  · intro c hc
    exact h.2 c (List.mem_of_mem_drop hc)

theorem Json.isDigit_of_mem_zeros {c : Char} (h : c ∈ List.replicate n '0') : c.isDigit = true := by
  rw [List.eq_of_mem_replicate h]
  rfl

theorem Json.Digits.append_zeros (h : Digits ds) (n : Nat) : Digits (ds ++ List.replicate n '0') := by
  refine ⟨by simp [h.1], ?_⟩
  intro c hc
  rcases List.mem_append.1 hc with hc | hc
  · exact h.2 c hc
  · exact isDigit_of_mem_zeros hc

theorem Json.Digits.zeros_append (h : Digits ds) (n : Nat) : Digits (List.replicate n '0' ++ ds) := by
  refine ⟨by simp [h.1], ?_⟩
  intro c hc
  rcases List.mem_append.1 hc with hc | hc
  · exact isDigit_of_mem_zeros hc
  · exact h.2 c hc

end

/-- The digits of a number begin with a zero only if it is zero. -/
theorem Json.head?_toDigits {n : Nat} (hn : n ≠ 0) : (Nat.toDigits 10 n).head? ≠ some '0' := by
  induction n using Nat.strongRecOn with
  | ind n ih =>
    rw [Nat.toDigits_eq_if (by decide)]
    split
    · next hlt => interval_cases n <;> simp_all
    · next hge =>
      rw [List.head?_append_of_ne_nil _ Nat.toDigits_ne_nil]
      exact ih (n / 10) (by omega) (by omega)

namespace Decimal

/-- The digits of a decimal begin with a zero only if it is zero. -/
structure Plain (x : Decimal) : Prop where
  digits : Digits x.digits
  needed : x.digits.head? = some '0' → x.digits.length = 1 ∧ x.exponent = 0

theorem dropZeros_isPrefix (ds : List Char) : dropZeros ds <+: ds := by
  have hdrop := List.rdropWhile_prefix (· = '0') ds
  unfold dropZeros
  split
  · exact List.take_prefix 1 ds
  · next h => rwa [← h]

theorem dropZeros_ne_nil {ds : List Char} (h : ds ≠ []) : dropZeros ds ≠ [] := by
  unfold dropZeros
  split
  · simpa using h
  · simp

theorem plain_ofScaled {n : Nat} (hn : n ≠ 0) (e : Int) : (ofScaled n e).Plain := by
  obtain ⟨rest, hrest⟩ := dropZeros_isPrefix (Nat.toDigits 10 n)
  have hne : dropZeros (Nat.toDigits 10 n) ≠ [] := dropZeros_ne_nil Nat.toDigits_ne_nil
  have hhead : (dropZeros (Nat.toDigits 10 n)).head? = (Nat.toDigits 10 n).head? := by
    rw [← hrest, List.head?_append_of_ne_nil _ hne, hrest]
  constructor
  · refine ⟨hne, ?_⟩
    intro c hc
    apply (Json.digits_toDigits n).2
    rw [← hrest]
    exact List.mem_append_left rest hc
  · intro hzero
    exact absurd (hhead.symm.trans hzero) (Json.head?_toDigits hn)

end Decimal

namespace Binary64

theorem ne_zero_of_readsBack {q m : Nat} {e : Int} (hq : q ≠ 0) (h : readsBack q m e = true) :
    m ≠ 0 := by
  rintro rfl
  simp only [readsBack, ofDecimal, if_true, decide_eq_true_eq, finite.injEq] at h
  exact hq h.2.symm

theorem plain_of_onGrid? {q count : Nat} {x : Decimal} (hq : q ≠ 0) (h : onGrid? q count = some x) :
    x.Plain := by
  have hplain : ∀ (first second : Nat) (e : Int),
      (if readsBack q first e then some (Decimal.ofScaled first e)
        else if readsBack q second e then some (.ofScaled second e) else none) = some x →
      x.Plain := by
    intro first second e hx
    split at hx
    · next hfirst =>
      cases hx
      exact Decimal.plain_ofScaled (ne_zero_of_readsBack hq hfirst) e
    · split at hx
      · next hsecond =>
        cases hx
        exact Decimal.plain_ofScaled (ne_zero_of_readsBack hq hsecond) e
      · cases hx
  exact hplain _ _ _ h

theorem plain_shortest (q : Nat) : (shortest q).Plain := by
  unfold shortest
  split
  · exact ⟨⟨by simp, by simp⟩, by simp⟩
  · next hq =>
    cases hfound : (List.range 17).findSome? fun k => onGrid? q (k + 1) with
    | none => exact Decimal.plain_ofScaled hq 0
    | some x =>
      obtain ⟨k, -, hk⟩ := List.exists_of_findSome?_eq_some hfound
      exact plain_of_onGrid? hq hk

/-- A power of ten as it is written. -/
theorem exists_power (e : Int) : ∃ p, Power (exponentText e).toList p := by
  have hdigits : Digits (if (Nat.toDigits 10 e.natAbs).length < 2
      then '0' :: Nat.toDigits 10 e.natAbs else Nat.toDigits 10 e.natAbs) := by
    have hds := Json.digits_toDigits e.natAbs
    split
    · exact ⟨by simp, List.forall_mem_cons.2 ⟨rfl, hds.2⟩⟩
    · exact hds
  have hminus : (['-'], true) ∈ Json.signs := by decide
  have hplus : (['+'], false) ∈ Json.signs := by decide
  unfold exponentText
  dsimp only
  split
  · exact ⟨_, by simpa using Power.present (Or.inl rfl) hminus hdigits⟩
  · exact ⟨_, by simpa using Power.present (Or.inl rfl) hplus hdigits⟩

/-- The text of a decimal has the parts of a number, and is not that of an integer. -/
theorem exists_parts {x : Decimal} (hx : x.Plain) :
    ∃ whole fs frac es e, Whole Json.AnyLength whole ∧ Fraction fs frac ∧ Power es e ∧ fs ++ es ≠ [] ∧
      (fullJson.decimal x).toList = whole ++ (fs ++ es) := by
  obtain ⟨ds, e⟩ := x
  obtain ⟨hds, hneeded⟩ := hx
  dsimp only at hds hneeded
  have hpos := List.length_pos_of_ne_nil hds.1
  have htake : ∀ n, (ds.take (n + 1)).head? = ds.head? := by
    intro n
    simp [List.head?_take]
  unfold Layout.decimal
  dsimp only
  split
  · split
    · have hzero : Whole Json.AnyLength ['0'] := ⟨⟨by simp, by simp⟩, by simp, trivial⟩
      have hfraction := hds.zeros_append (e.natAbs - 1)
      exact ⟨_, _, _, [], 0, hzero, .present hfraction, .absent, by simp, by simp⟩
    · split
      · next hlength =>
        have hwhole : Whole Json.AnyLength (ds ++ List.replicate (e.toNat + 1 - ds.length) '0') := by
          refine ⟨hds.append_zeros _, ?_, trivial⟩
          rw [List.head?_append_of_ne_nil _ hds.1]
          intro hzero
          -- a zero in front is the number zero, which gets no zeros at its end
          obtain ⟨hone, rfl⟩ := hneeded hzero
          simp [hone]
        have hzero : Digits ['0'] := ⟨by simp, by simp⟩
        exact ⟨_, _, _, [], 0, hwhole, .present hzero, .absent, by simp, by simp [fullJson, full]⟩
      · next hlength =>
        have hwhole : Whole Json.AnyLength (ds.take (e.toNat + 1)) := by
          refine ⟨hds.take (by omega), ?_, trivial⟩
          rw [htake]
          intro hzero
          have hone := (hneeded hzero).1
          omega
        have hfraction : Digits (ds.drop (e.toNat + 1)) := hds.drop (by omega)
        exact ⟨_, _, _, [], 0, hwhole, .present hfraction, .absent, by simp, by simp⟩
  · -- with a power of ten one digit stands in front of the point, be it a zero or not
    obtain ⟨p, hp⟩ := exists_power e
    have hwhole : Whole Json.AnyLength (ds.take 1) := by
      refine ⟨hds.take (by omega), ?_, trivial⟩
      intro _
      rw [List.length_take]
      omega
    have hpower : (exponentText e).toList ≠ [] := by simp [exponentText]
    split
    · exact ⟨_, _, _, _, p, hwhole, .absent, hp, by simpa using hpower, by simp⟩
    · have hfraction : Digits (ds.drop 1) := hds.drop (by omega)
      exact ⟨_, _, _, _, p, hwhole, .present hfraction, hp, by simp, by simp⟩

/-- A finite number is written as a number. -/
theorem exists_realText (s : Bool) (q : Nat) :
    ∃ y, RealText Json.AnyLength y (jsonText (finite s q)).toList := by
  obtain ⟨whole, fs, frac, es, e, hw, hf, hp, hne, htext⟩ := exists_parts (plain_shortest q)
  refine ⟨_, s, whole, fs, frac, es, e, hw, hf, hp, hne, ?_, rfl⟩
  rw [jsonText, Layout.write, String.toList_append, htext]
  cases s <;> rfl

end Binary64

/-- An integer is written as an integer. -/
theorem Json.exists_integerText (i : Int) : ∃ j, IntegerText AnyLength j (toString i).toList := by
  have hwhole : ∀ n, Whole AnyLength (Nat.toDigits 10 n) := by
    intro n
    refine ⟨digits_toDigits n, ?_, trivial⟩
    intro hzero
    by_cases hn : n = 0
    · subst hn
      rfl
    · exact absurd hzero (head?_toDigits hn)
  rw [Int.toString_eq_repr]
  cases i with
  | ofNat n =>
    exact ⟨_, false, _, hwhole n, by simp [Int.repr, sign, Nat.repr_eq_ofList_toDigits], rfl⟩
  | negSucc n =>
    exact ⟨_, true, _, hwhole (n + 1), by simp [Int.repr, sign, Nat.repr_eq_ofList_toDigits], rfl⟩

/-! ## Quoted texts -/

namespace Json

theorem hexDigit_digitChar (n : Nat) : HexDigit (Nat.digitChar (n % 16)) (n % 16) :=
  ⟨Nat.mod_lt n (by decide), Or.inl rfl⟩

/-- A UTF-16 unit is escaped by its four digits. -/
theorem exists_hexUnit {n : Nat} (h : n < 0x10000) :
    ∃ a b c d, unitEscape n = ['\\', 'u', a, b, c, d] ∧ HexUnit a b c d n := by
  refine ⟨_, _, _, _, rfl, _, _, _, _, hexDigit_digitChar (n / 16 / 16 / 16),
    hexDigit_digitChar (n / 16 / 16), hexDigit_digitChar (n / 16), hexDigit_digitChar n, ?_⟩
  omega

/-- A character is escaped as it is written. -/
theorem Escaped.charText {cs s : List Char} (h : Escaped cs s) (c : Char) :
    Escaped (charText c ++ cs) (c :: s) := by
  have hvalid : c.toNat < 0xd800 ∨ 0xdfff < c.toNat ∧ c.toNat < 0x110000 := c.valid
  have hshort : ∀ e letter, c = e → (letter, e) ∈ shortEscapes →
      Escaped ('\\' :: letter :: cs) (c :: s) := by
    rintro _ letter rfl hmem
    exact .short hmem h
  have hcode : ∀ n, c.toNat = n → c = Char.ofNat n := by
    rintro _ rfl
    exact (Char.ofNat_toNat c).symm
  unfold Json.charText
  split
  · next hc => exact hshort _ _ hc (by decide)
  split
  · next hc => exact hshort _ _ hc (by decide)
  split
  · next hc => exact hshort _ _ hc (by decide)
  split
  · next hc => exact hshort _ _ hc (by decide)
  split
  · next hc => exact hshort _ _ hc (by decide)
  split
  · next hc => exact hshort _ _ (hcode 8 hc) (by decide)
  split
  · next hc => exact hshort _ _ (hcode 12 hc) (by decide)
  next hquote hslash _ _ _ _ _ =>
  split
  · next hc => exact .plain hc.1 hquote hslash h
  split
  · next hc =>
    obtain ⟨a, b, d, e, htext, hunit⟩ := exists_hexUnit hc
    rw [htext]
    have hescaped := Escaped.unit hunit (by omega) h
    rwa [Char.ofNat_toNat] at hescaped
  · next hc =>
    obtain ⟨a, b, d, e, htext, hunit⟩ :=
      exists_hexUnit (show 0xd800 + (c.toNat - 0x10000) / 0x400 < 0x10000 by omega)
    obtain ⟨a', b', d', e', htext', hunit'⟩ :=
      exists_hexUnit (show 0xdc00 + (c.toNat - 0x10000) % 0x400 < 0x10000 by omega)
    dsimp only
    rw [htext, htext']
    have hescaped := Escaped.pair hunit (by omega) hunit' (by omega) h
    have hc : 0x10000 + (0xd800 + (c.toNat - 0x10000) / 0x400 - 0xd800) * 0x400
        + (0xdc00 + (c.toNat - 0x10000) % 0x400 - 0xdc00) = c.toNat := by omega
    rwa [hc, Char.ofNat_toNat] at hescaped

/-- A text is quoted as it is written. -/
theorem quoted_of_quote (s : String) : Quoted s (quote s).toList := by
  have hescaped : ∀ cs : List Char, Escaped (cs.flatMap Json.charText) cs := by
    intro cs
    induction cs with
    | nil => exact .nil
    | cons c cs ih => exact ih.charText c
  refine ⟨_, ?_, hescaped s.toList⟩
  rw [quote, String.toList_ofList]

/-! ## Values -/

mutual

/-- The numbers in a value that are no integers. -/
def reals : Json → List Binary64
  | .real x => [x]
  | .list items => realsOfItems items
  | .object members => realsOfMembers members
  | _ => []

/-- The numbers in items that are no integers. -/
def realsOfItems : List Json → List Binary64
  | [] => []
  | v :: vs => reals v ++ realsOfItems vs

/-- The numbers in members that are no integers. -/
def realsOfMembers : List (String × Json) → List Binary64
  | [] => []
  | (_, v) :: ms => reals v ++ realsOfMembers ms

end

theorem blanks_newLine (n : Nat) : Blanks (newLine n).toList := by
  intro c hc
  rw [newLine, String.toList_ofList, List.mem_cons] at hc
  rcases hc with rfl | hc
  · simp
  · exact Or.inl (List.eq_of_mem_replicate hc)

section

variable {v w : Json} {vs : List Json} {name : String} {ms : List (String × Json)} {n : Nat}

theorem toList_prettyAt_list (h : vs ≠ []) :
    (prettyAt n (.list vs)).toList
      = '[' :: ((prettyItems (n + 2) vs).toList ++ (newLine n).toList) ++ [']'] := by
  simp [prettyAt, h]

theorem toList_prettyAt_object (h : ms ≠ []) :
    (prettyAt n (.object ms)).toList
      = '\x7b' :: ((prettyMembers (n + 2) ms).toList ++ (newLine n).toList) ++ ['\x7d'] := by
  simp [prettyAt, h]

theorem toList_prettyItems_singleton :
    (prettyItems n [v]).toList = (newLine n).toList ++ (prettyAt n v).toList := by
  simp [prettyItems]

theorem toList_prettyItems_cons :
    (prettyItems n (v :: w :: vs)).toList
      = ((newLine n).toList ++ (prettyAt n v).toList) ++ ',' :: (prettyItems n (w :: vs)).toList := by
  rw [prettyItems]
  simp

theorem toList_prettyMembers_singleton :
    (prettyMembers n [(name, v)]).toList
      = ((newLine n).toList ++ (quote name).toList) ++ ':' :: (' ' :: (prettyAt n v).toList) := by
  simp [prettyMembers]

theorem toList_prettyMembers_cons {m : String × Json} :
    (prettyMembers n ((name, v) :: m :: ms)).toList
      = ((newLine n).toList ++ (quote name).toList)
        ++ ':' :: ((' ' :: (prettyAt n v).toList) ++ ',' :: (prettyMembers n (m :: ms)).toList) := by
  rw [prettyMembers]
  simp

end

theorem padded_of_blanks {P : List Char → Prop} {before cs after : List Char} (hbefore : Blanks before)
    (h : P cs) (hafter : Blanks after) : Padded P (before ++ cs ++ after) :=
  ⟨before, cs, after, rfl, hbefore, h, hafter⟩

theorem padded_after_blanks {P : List Char → Prop} {before cs : List Char} (hbefore : Blanks before)
    (h : P cs) : Padded P (before ++ cs) := by
  simpa using padded_of_blanks hbefore h blanks_nil

theorem blanks_space : Blanks [' '] := by simp [Blanks]

mutual

/-- The text of a value is a text of some value, if all numbers in it are finite. -/
theorem exists_spells (v : Json) (n : Nat) (h : ∀ x ∈ v.reals, x.IsFinite) :
    ∃ w, Spells AnyLength w (prettyAt n v).toList := by
  match v with
  | .null => exact ⟨.null, by simp [prettyAt, Spells]⟩
  | .bool true => exact ⟨.bool true, by simp [prettyAt, Spells]⟩
  | .bool false => exact ⟨.bool false, by simp [prettyAt, Spells]⟩
  | .integer i =>
    obtain ⟨j, hj⟩ := exists_integerText i
    exact ⟨.integer j, by rwa [prettyAt]⟩
  | .real x =>
    obtain ⟨s, q, rfl⟩ := h x (by simp [reals])
    obtain ⟨y, hy⟩ := Binary64.exists_realText s q
    exact ⟨.real y, by rwa [prettyAt]⟩
  | .text s => exact ⟨.text s, by rw [prettyAt]; exact quoted_of_quote s⟩
  | .list vs =>
    by_cases hvs : vs = []
    · subst hvs
      exact ⟨.list [], [], by simp [prettyAt], by simp [SpellsItems, Blanks]⟩
    · obtain ⟨w, ws, hws⟩ := exists_spellsItems vs (n + 2) hvs h (blanks_newLine n)
      exact ⟨.list (w :: ws), _, toList_prettyAt_list hvs, hws⟩
  | .object ms =>
    by_cases hms : ms = []
    · subst hms
      exact ⟨.object [], [], by simp [prettyAt], by simp [SpellsMembers, Blanks]⟩
    · obtain ⟨w, ws, hws⟩ := exists_spellsMembers ms (n + 2) hms h (blanks_newLine n)
      exact ⟨.object (w :: ws), _, toList_prettyAt_object hms, hws⟩

theorem exists_spellsItems (vs : List Json) (n : Nat) (hvs : vs ≠ [])
    (h : ∀ x ∈ realsOfItems vs, x.IsFinite) {after : List Char} (hafter : Blanks after) :
    ∃ w ws, SpellsItems AnyLength (w :: ws) ((prettyItems n vs).toList ++ after) := by
  match vs with
  | [] => exact absurd rfl hvs
  | [v] =>
    simp only [realsOfItems, List.append_nil] at h
    obtain ⟨w, hw⟩ := exists_spells v n h
    rw [toList_prettyItems_singleton]
    exact ⟨w, [], padded_of_blanks (blanks_newLine n) hw hafter⟩
  | v :: v' :: vs =>
    rw [realsOfItems, List.forall_mem_append] at h
    obtain ⟨w, hw⟩ := exists_spells v n h.1
    obtain ⟨w', ws, hws⟩ := exists_spellsItems (v' :: vs) n (by simp) h.2 hafter
    rw [toList_prettyItems_cons, List.append_assoc, List.cons_append]
    exact ⟨w, w' :: ws, _, _, rfl, padded_after_blanks (blanks_newLine n) hw, hws⟩

theorem exists_spellsMembers (ms : List (String × Json)) (n : Nat) (hms : ms ≠ [])
    (h : ∀ x ∈ realsOfMembers ms, x.IsFinite) {after : List Char} (hafter : Blanks after) :
    ∃ w ws, SpellsMembers AnyLength (w :: ws) ((prettyMembers n ms).toList ++ after) := by
  match ms with
  | [] => exact absurd rfl hms
  | [(name, v)] =>
    simp only [realsOfMembers, List.append_nil] at h
    obtain ⟨w, hw⟩ := exists_spells v n h
    rw [toList_prettyMembers_singleton, List.append_assoc, List.cons_append]
    exact ⟨(name, w), [], _, _, rfl, padded_after_blanks (blanks_newLine n) (quoted_of_quote name),
      padded_of_blanks blanks_space hw hafter⟩
  | (name, v) :: m :: ms =>
    rw [realsOfMembers, List.forall_mem_append] at h
    obtain ⟨w, hw⟩ := exists_spells v n h.1
    obtain ⟨w', ws, hws⟩ := exists_spellsMembers (m :: ms) n (by simp) h.2 hafter
    refine ⟨(name, w), w' :: ws, _, _, _, ?_,
      padded_after_blanks (blanks_newLine n) (quoted_of_quote name),
      padded_after_blanks blanks_space hw, hws⟩
    rw [toList_prettyMembers_cons]
    simp

end

end Json
end AsyncMigration
