import AsyncMigration.Proofs.JsonWriting

/-!
# Words that are no JSON

A number that is not finite is written as a word that the grammar does not have. A text gives the same
tokens whatever it was written for, so such a word cannot stand in a text of the grammar, be it of
another value.

* `Json.exists_ordinary` — the words of the grammar lack two letters.
* `Json.shows_prettyAt` — the text of a value has a word for each number in it.
* `Json.standard_pretty_iff` — the text of a value is of the grammar exactly if the numbers are finite.
-/

namespace AsyncMigration.Json

/-! ## The words of the grammar -/

/-- No word has a capital letter that no number has. -/
def Ordinary (ts : List Token) : Prop := ∀ w, Token.word w ∈ ts → 'N' ∉ w ∧ 'I' ∉ w

section

variable {t : Token} {ts ts' : List Token}

theorem Ordinary.append (h : Ordinary ts) (h' : Ordinary ts') : Ordinary (ts ++ ts') := by
  intro w hw
  rcases List.mem_append.1 hw with hw | hw
  · exact h w hw
  · exact h' w hw

theorem Ordinary.cons (ht : ∀ w, t ≠ .word w) (h : Ordinary ts) : Ordinary (t :: ts) := by
  intro w hw
  rcases List.mem_cons.1 hw with hw | hw
  · exact absurd hw.symm (ht w)
  · exact h w hw

end

theorem ordinary_number {bound : Nat → Prop} {whole fs frac es : List Char} {e : Int}
    (negative : Bool) (hw : Whole bound whole) (hf : Fraction fs frac) (hp : Power es e) :
    Ordinary [.word (sign negative ++ (whole ++ (fs ++ es)))] := by
  intro w hword
  obtain rfl := Token.word.inj (List.mem_singleton.1 hword)
  constructor
  · intro hc
    rcases mem_number negative hw hf hp hc with h | h
    · cases h
    · revert h
      decide
  · intro hc
    rcases mem_number negative hw hf hp hc with h | h
    · cases h
    · revert h
      decide

mutual

/-- A text of the grammar gives tokens whose words lack both letters. -/
theorem exists_ordinary {bound : Nat → Prop} (v : Json) {cs : List Char} (h : Spells bound v cs) :
    ∃ ts, Reads cs ts ∧ Ordinary ts := by
  match v with
  | .null =>
    obtain rfl := h
    exact ⟨_, .word (by simp) (List.all_eq_true.1 rfl), by simp [Ordinary]⟩
  | .bool true =>
    obtain rfl := h
    exact ⟨_, .word (by simp) (List.all_eq_true.1 rfl), by simp [Ordinary]⟩
  | .bool false =>
    obtain rfl := h
    exact ⟨_, .word (by simp) (List.all_eq_true.1 rfl), by simp [Ordinary]⟩
  | .integer i =>
    obtain ⟨negative, ds, hds, rfl, -⟩ := h
    have hword := isWordChar_of_number negative hds .absent .absent
    have hordinary := ordinary_number negative hds .absent .absent
    rw [List.append_nil, List.append_nil] at hword hordinary
    exact ⟨_, .word (by simp [hds.digits.1]) hword, hordinary⟩
  | .real x =>
    obtain ⟨negative, whole, fs, frac, es, e, hw, hf, hp, -, rfl, -⟩ := h
    exact ⟨_, .word (by simp [hw.digits.1]) (isWordChar_of_number negative hw hf hp),
      ordinary_number negative hw hf hp⟩
  | .text s => exact ⟨_, .quoted h, by simp [Ordinary]⟩
  | .list vs =>
    obtain ⟨inner, rfl, hinner⟩ := h
    obtain ⟨ts, hreads, hts⟩ := exists_ordinary_items vs hinner
    exact ⟨_, hreads.enclosed rfl rfl rfl rfl, .cons (by simp) (hts.append (by simp [Ordinary]))⟩
  | .object ms =>
    obtain ⟨inner, rfl, hinner⟩ := h
    obtain ⟨ts, hreads, hts⟩ := exists_ordinary_members ms hinner
    exact ⟨_, hreads.enclosed rfl rfl rfl rfl, .cons (by simp) (hts.append (by simp [Ordinary]))⟩

theorem exists_ordinary_items {bound : Nat → Prop} (vs : List Json) {cs : List Char}
    (h : SpellsItems bound vs cs) : ∃ ts, Reads cs ts ∧ Ordinary ts := by
  match vs with
  | [] => exact ⟨[], .blanks h, by simp [Ordinary]⟩
  | [v] => exact reads_padded h fun _ hv => exists_ordinary v hv
  | v :: w :: vs =>
    obtain ⟨first, rest, rfl, hfirst, hrest⟩ := h
    obtain ⟨ts, hreads, hts⟩ := reads_padded hfirst fun _ hv => exists_ordinary v hv
    obtain ⟨ts', hreads', hts'⟩ := exists_ordinary_items (w :: vs) hrest
    exact ⟨_, hreads.join rfl rfl hreads', hts.append (hts'.cons (by simp))⟩

theorem exists_ordinary_members {bound : Nat → Prop} (ms : List (String × Json)) {cs : List Char}
    (h : SpellsMembers bound ms cs) : ∃ ts, Reads cs ts ∧ Ordinary ts := by
  match ms with
  | [] => exact ⟨[], .blanks h, by simp [Ordinary]⟩
  | [(name, v)] =>
    obtain ⟨key, value, rfl, hkey, hvalue⟩ := h
    obtain ⟨ts, hreads, hts⟩ := reads_padded hvalue fun _ hv => exists_ordinary v hv
    exact ⟨_, (reads_name hkey).join rfl rfl hreads, .cons (by simp) (hts.cons (by simp))⟩
  | (name, v) :: m :: ms =>
    obtain ⟨key, value, rest, rfl, hkey, hvalue, hrest⟩ := h
    obtain ⟨ts, hreads, hts⟩ := reads_padded hvalue fun _ hv => exists_ordinary v hv
    obtain ⟨ts', hreads', hts'⟩ := exists_ordinary_members (m :: ms) hrest
    exact ⟨_, (reads_name hkey).join rfl rfl (hreads.join rfl rfl hreads'),
      .cons (by simp) (.cons (by simp) (hts.append (hts'.cons (by simp))))⟩

end

/-! ## The words of a text that is written -/

theorem Reads.unique {cs : List Char} {ts ts' : List Token} (h : Reads cs ts) (h' : Reads cs ts') :
    ts = ts' := by
  have hend : Separated [] := by simp [Separated]
  have heq := (h [] hend).symm.trans (h' [] hend)
  simpa [tokens?] using heq

theorem reads_integer (i : Int) : Reads (toString i).toList [.word (toString i).toList] := by
  obtain ⟨j, negative, ds, hds, htext, -⟩ := exists_integerText i
  rw [htext]
  have hword := isWordChar_of_number negative hds .absent .absent
  rw [List.append_nil, List.append_nil] at hword
  exact .word (by simp [hds.digits.1]) hword

theorem reads_real (x : Binary64) : Reads x.jsonText.toList [.word x.jsonText.toList] := by
  cases x with
  | nan => exact .word (by decide) (List.all_eq_true.1 rfl)
  | infinite s => cases s <;> exact .word (by decide) (List.all_eq_true.1 rfl)
  | finite s q =>
    obtain ⟨y, negative, whole, fs, frac, es, e, hw, hf, hp, -, htext, -⟩ :=
      Binary64.exists_realText s q
    rw [htext]
    exact .word (by simp [hw.digits.1]) (isWordChar_of_number negative hw hf hp)

/-- A text gives tokens, and among them these numbers as words. -/
def Shows (cs : List Char) (xs : List Binary64) : Prop :=
  ∃ ts, Reads cs ts ∧ ∀ x ∈ xs, .word x.jsonText.toList ∈ ts

namespace Shows

variable {cs cs' before after : List Char} {xs xs' : List Binary64} {c c' : Char} {t t' : Token}

theorem of_reads {ts : List Token} (h : Reads cs ts) : Shows cs [] := ⟨ts, h, by simp⟩

theorem blanks_append (h : Shows cs xs) (hbefore : Blanks before) : Shows (before ++ cs) xs := by
  obtain ⟨ts, hreads, hwords⟩ := h
  exact ⟨ts, by simpa using hreads.padded hbefore blanks_nil, hwords⟩

theorem append_blanks (h : Shows cs xs) (hafter : Blanks after) : Shows (cs ++ after) xs := by
  obtain ⟨ts, hreads, hwords⟩ := h
  exact ⟨ts, hreads.padded blanks_nil hafter, hwords⟩

theorem join (h : Shows cs xs) (hfiller : isFiller c = false) (hmark : mark? c = some t)
    (h' : Shows cs' xs') : Shows (cs ++ c :: cs') (xs ++ xs') := by
  obtain ⟨ts, hreads, hwords⟩ := h
  obtain ⟨ts', hreads', hwords'⟩ := h'
  refine ⟨_, hreads.join hfiller hmark hreads', ?_⟩
  intro x hx
  rcases List.mem_append.1 hx with hx | hx
  · exact List.mem_append_left _ (hwords x hx)
  · exact List.mem_append_right _ (List.mem_cons_of_mem _ (hwords' x hx))

theorem enclosed (h : Shows cs xs) (hfiller : isFiller c = false) (hmark : mark? c = some t)
    (hfiller' : isFiller c' = false) (hmark' : mark? c' = some t') : Shows (c :: cs ++ [c']) xs := by
  have hshows := (of_reads Reads.nil).join hfiller hmark
    (h.join hfiller' hmark' (of_reads Reads.nil))
  simpa using hshows

end Shows

theorem shows_key (name : String) (n : Nat) : Shows ((newLine n).toList ++ (quote name).toList) [] :=
  (Shows.of_reads (.quoted (quoted_of_quote name))).blanks_append (blanks_newLine n)

mutual

/-- The text of a value shows the numbers in it. -/
theorem shows_prettyAt (v : Json) (n : Nat) : Shows (prettyAt n v).toList v.reals := by
  match v with
  | .null =>
    rw [prettyAt]
    exact .of_reads (.word (by simp) (List.all_eq_true.1 rfl))
  | .bool true =>
    rw [prettyAt]
    exact .of_reads (.word (by simp) (List.all_eq_true.1 rfl))
  | .bool false =>
    rw [prettyAt]
    exact .of_reads (.word (by simp) (List.all_eq_true.1 rfl))
  | .integer i =>
    rw [prettyAt]
    exact .of_reads (reads_integer i)
  | .real x =>
    rw [prettyAt]
    exact ⟨_, reads_real x, by simp [reals]⟩
  | .text s =>
    rw [prettyAt]
    exact .of_reads (.quoted (quoted_of_quote s))
  | .list vs =>
    rw [reals]
    by_cases hvs : vs = []
    · have hempty : Shows ('[' :: [] ++ [']']) [] :=
        (Shows.of_reads Reads.nil).enclosed rfl rfl rfl rfl
      simpa [hvs, prettyAt, realsOfItems] using hempty
    · rw [toList_prettyAt_list hvs]
      exact ((shows_prettyItems vs (n + 2)).append_blanks (blanks_newLine n)).enclosed rfl rfl rfl rfl
  | .object ms =>
    rw [reals]
    by_cases hms : ms = []
    · have hempty : Shows ('\x7b' :: [] ++ ['\x7d']) [] :=
        (Shows.of_reads Reads.nil).enclosed rfl rfl rfl rfl
      simpa [hms, prettyAt, realsOfMembers] using hempty
    · rw [toList_prettyAt_object hms]
      exact ((shows_prettyMembers ms (n + 2)).append_blanks (blanks_newLine n)).enclosed rfl rfl rfl rfl

theorem shows_prettyItems (vs : List Json) (n : Nat) :
    Shows (prettyItems n vs).toList (realsOfItems vs) := by
  match vs with
  | [] => exact .of_reads .nil
  | [v] =>
    rw [toList_prettyItems_singleton, realsOfItems, realsOfItems, List.append_nil]
    exact (shows_prettyAt v n).blanks_append (blanks_newLine n)
  | v :: w :: vs =>
    rw [toList_prettyItems_cons, realsOfItems]
    exact ((shows_prettyAt v n).blanks_append (blanks_newLine n)).join rfl rfl
      (shows_prettyItems (w :: vs) n)

theorem shows_prettyMembers (ms : List (String × Json)) (n : Nat) :
    Shows (prettyMembers n ms).toList (realsOfMembers ms) := by
  match ms with
  | [] => exact .of_reads .nil
  | [(name, v)] =>
    rw [toList_prettyMembers_singleton, realsOfMembers, realsOfMembers, List.append_nil]
    exact (shows_key name n).join rfl rfl ((shows_prettyAt v n).blanks_append blanks_space)
  | (name, v) :: m :: ms =>
    rw [toList_prettyMembers_cons, realsOfMembers]
    exact (shows_key name n).join rfl rfl
      (((shows_prettyAt v n).blanks_append blanks_space).join rfl rfl (shows_prettyMembers (m :: ms) n))

end

/-- A text of the grammar, whatever it stands for. -/
def Standard (cs : List Char) : Prop := ∃ v, Document AnyLength v cs

/-- **Standard texts.** What is written for a value is a text of the grammar exactly if all numbers in
it are finite. -/
theorem standard_pretty_iff (v : Json) {after : List Char} (hafter : Blanks after) :
    Standard (v.pretty.toList ++ after) ↔ ∀ x ∈ v.reals, x.IsFinite := by
  constructor
  · rintro ⟨w, hw⟩ x hx
    obtain ⟨ts, hreads, hordinary⟩ := reads_padded hw fun _ hv => exists_ordinary w hv
    obtain ⟨ts', hreads', hwords⟩ := (shows_prettyAt v 0).append_blanks hafter
    -- the text of `v` is one of `w` too, and its tokens are the same for both
    obtain rfl := hreads.unique hreads'
    obtain ⟨hN, hI⟩ := hordinary _ (hwords x hx)
    cases x with
    | nan => exact absurd (by decide) hN
    | infinite s => cases s <;> exact absurd (by decide) hI
    | finite s q => exact ⟨s, q, rfl⟩
  · intro h
    obtain ⟨w, hw⟩ := exists_spells v 0 h
    exact ⟨w, padded_of_blanks blanks_nil hw hafter⟩

end AsyncMigration.Json
