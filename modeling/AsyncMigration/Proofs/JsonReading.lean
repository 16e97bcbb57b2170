import AsyncMigration.Proofs.JsonText

/-!
# Reading the texts of a JSON value

A text gives tokens, and tokens make up a value. Both are said of a part of a text, whatever comes
after it and whatever lists and objects are open around it, and so carry over from the parts of a value
to the whole.

* `Json.Reads` — a text gives tokens.
* `Json.Builds`, `Json.BuildsItems`, `Json.BuildsMembers` — tokens make up a value, or what is in one.
* `Json.parse?_of_document` — a text of a value is read as that value.
* `Json.parse?_eq_none` — a text with an integer that is too long is refused.
-/

namespace AsyncMigration.Json

/-! ## Tokens -/

/-- A word ends here. -/
def Separated (rest : List Char) : Prop := ∀ c ∈ rest.head?, isWordChar c = false

/-- A text gives tokens, whatever comes after it, as long as no word goes on. -/
def Reads (cs : List Char) (ts : List Token) : Prop :=
  ∀ rest, Separated rest → tokens? (cs ++ rest) = (tokens? rest).map (ts ++ ·)

theorem isWordChar_of_isDigit {c : Char} (hc : c.isDigit = true) : isWordChar c = true := by
  have hne : ∀ d : Char, d.isDigit = false → c ≠ d := by
    rintro _ hd rfl
    rw [hc] at hd
    cases hd
  simp [isWordChar, isFiller, mark?, hne ' ' rfl, hne '\t' rfl, hne '\n' rfl, hne '\r' rfl,
    hne '[' rfl, hne ']' rfl, hne '\x7b' rfl, hne '\x7d' rfl, hne ',' rfl, hne ':' rfl, hne '"' rfl]

theorem tokens?_filler {c : Char} (hc : isFiller c = true) (cs : List Char) :
    tokens? (c :: cs) = tokens? cs := by
  rw [tokens?, if_pos hc]

theorem tokens?_mark {c : Char} {t : Token} (hfiller : isFiller c = false) (hmark : mark? c = some t)
    (cs : List Char) : tokens? (c :: cs) = (tokens? cs).map (t :: ·) := by
  rw [tokens?]
  simp only [hfiller, hmark, Bool.false_eq_true, if_false]

theorem tokens?_quoted {s : String} {cs : List Char} (h : Quoted s cs) (rest : List Char) :
    tokens? (cs ++ rest) = (tokens? rest).map (.text s :: ·) := by
  obtain ⟨inner, rfl, hinner⟩ := h
  have hbody : textBody (inner ++ ['"'] ++ rest) = some (s.toList, rest) := by
    rw [List.append_assoc]
    exact textBody_of_escaped hinner rest
  have hfiller : isFiller '"' = false := rfl
  have hmark : mark? '"' = none := rfl
  rw [List.cons_append, List.cons_append, tokens?.eq_def]
  simp only [hfiller, hmark, Bool.false_eq_true, if_false, if_true]
  split
  · next hnone => cases hbody.symm.trans hnone
  · next s' rest' hsome =>
    cases hbody.symm.trans hsome
    rw [String.ofList_toList]

theorem tokens?_word {cs rest : List Char} (hne : cs ≠ []) (hcs : ∀ c ∈ cs, isWordChar c = true)
    (hrest : Separated rest) : tokens? (cs ++ rest) = (tokens? rest).map (.word cs :: ·) := by
  obtain ⟨c, cs, rfl⟩ := List.exists_cons_of_ne_nil hne
  obtain ⟨htake, hdrop⟩ := span_append (fun x hx => hcs x (List.mem_cons_of_mem _ hx)) hrest
  have hc : isWordChar c = true := hcs c List.mem_cons_self
  simp only [isWordChar, Bool.and_eq_true, Bool.not_eq_true', Option.isNone_iff_eq_none,
    decide_eq_true_eq] at hc
  obtain ⟨⟨hfiller, hmark⟩, hquote⟩ := hc
  rw [List.cons_append, tokens?.eq_def]
  simp only [hfiller, hmark, Bool.false_eq_true, if_false, htake, hdrop]
  exact if_neg hquote

theorem isFiller_of_blanks {cs : List Char} (h : Blanks cs) {c : Char} (hc : c ∈ cs) :
    isFiller c = true := by
  simpa [isFiller, or_assoc] using h c hc

theorem tokens?_blanks {cs : List Char} (h : Blanks cs) (rest : List Char) :
    tokens? (cs ++ rest) = tokens? rest := by
  induction cs with
  | nil => rfl
  | cons c cs ih =>
    rw [List.cons_append, tokens?_filler (isFiller_of_blanks h List.mem_cons_self)]
    exact ih fun x hx => h x (List.mem_cons_of_mem _ hx)

theorem Separated.blanks_append {cs rest : List Char} (hrest : Separated rest) (h : Blanks cs) :
    Separated (cs ++ rest) := by
  cases cs with
  | nil => exact hrest
  | cons c cs =>
    rintro x hx
    obtain rfl := Option.some.inj hx
    simp [isWordChar, isFiller_of_blanks h List.mem_cons_self]

namespace Reads

variable {cs cs' before after : List Char} {ts ts' : List Token}

theorem nil : Reads [] [] := by
  intro rest _
  simp

/-- Blanks around a text make no difference. -/
theorem padded (h : Reads cs ts) (hbefore : Blanks before) (hafter : Blanks after) :
    Reads (before ++ cs ++ after) ts := by
  intro rest hrest
  rw [List.append_assoc, List.append_assoc, tokens?_blanks hbefore, h _ (hrest.blanks_append hafter),
    tokens?_blanks hafter]

/-- Texts with a mark between them are read one after the other. -/
theorem join {c : Char} {t : Token} (h : Reads cs ts) (hfiller : isFiller c = false)
    (hmark : mark? c = some t) (h' : Reads cs' ts') : Reads (cs ++ c :: cs') (ts ++ t :: ts') := by
  intro rest hrest
  have hseparated : Separated (c :: (cs' ++ rest)) := by
    rintro x hx
    obtain rfl := Option.some.inj hx
    simp [isWordChar, hmark]
  rw [List.append_assoc, List.cons_append, h _ hseparated, tokens?_mark hfiller hmark, h' _ hrest]
  cases tokens? rest <;> simp

theorem blanks (h : Blanks cs) : Reads cs [] := by
  intro rest _
  rw [tokens?_blanks h]
  simp

/-- A text between marks is read with them. -/
theorem enclosed {c c' : Char} {t t' : Token} (hfiller : isFiller c = false) (hmark : mark? c = some t)
    (h : Reads cs ts) (hfiller' : isFiller c' = false) (hmark' : mark? c' = some t') :
    Reads (c :: cs ++ [c']) (t :: (ts ++ [t'])) :=
  nil.join hfiller hmark (h.join hfiller' hmark' nil)

theorem word (hne : cs ≠ []) (hcs : ∀ c ∈ cs, isWordChar c = true) : Reads cs [.word cs] :=
  fun _ hrest => tokens?_word hne hcs hrest

theorem quoted {s : String} (h : Quoted s cs) : Reads cs [.text s] :=
  fun rest _ => tokens?_quoted h rest

end Reads

/-! ## Values -/

/-- Tokens make up a value, inside of all that is open. -/
def Builds (ts : List Token) (v : Json) : Prop :=
  ∀ opened : List Opened, opened.length + nesting v ≤ nestingLimit →
    (⟨opened, .value⟩ : Machine).run ts = Machine.complete v opened

/-- Tokens make up items of a list. -/
def BuildsItems (ts : List Token) (vs : List Json) : Prop :=
  ∀ (opened : List Opened) (items : List Json), opened.length + nestingOfItems vs ≤ nestingLimit →
    (⟨.list items :: opened, .value⟩ : Machine).run ts
      = some ⟨.list (vs.reverse ++ items) :: opened, .moreItems⟩

/-- Tokens make up members of an object. -/
def BuildsMembers (ts : List Token) (ms : List (String × Json)) : Prop :=
  ∀ (opened : List Opened) (members : List (String × Json)),
    opened.length + nestingOfMembers ms ≤ nestingLimit →
    (⟨.object members :: opened, .name⟩ : Machine).run ts
      = some ⟨.object (ms.reverse ++ members) :: opened, .moreMembers⟩

namespace Machine

theorem run_cons (m : Machine) (t : Token) (ts : List Token) :
    m.run (t :: ts) = (m.step t).bind (·.run ts) := rfl

theorem run_singleton (m : Machine) (t : Token) : m.run [t] = m.step t := by
  rw [run_cons]
  cases m.step t <;> rfl

theorem run_append (m : Machine) (ts ts' : List Token) :
    m.run (ts ++ ts') = (m.run ts).bind (·.run ts') := List.foldlM_append

/-- The first item of a list is taken as any value is, as long as that is allowed. -/
theorem run_firstItem {opened : List Opened} {t : Token} (ts : List Token) (ht : t ≠ .closeList)
    (hopened : opened.length ≤ nestingLimit) :
    (⟨opened, .firstItem⟩ : Machine).run (t :: ts) = (⟨opened, .value⟩ : Machine).run (t :: ts) := by
  rw [run_cons, run_cons]
  congr 1
  cases t with
  | closeList => exact absurd rfl ht
  | _ => exact if_pos hopened

theorem run_firstName {opened : List Opened} {name : String} (ts : List Token)
    (hopened : opened.length ≤ nestingLimit) :
    (⟨opened, .firstName⟩ : Machine).run (.text name :: ts)
      = (⟨opened, .name⟩ : Machine).run (.text name :: ts) := by
  rw [run_cons, run_cons]
  congr 1
  exact if_pos hopened

end Machine

theorem builds_word {cs : List Char} {v : Json} (h : wordValue? cs = some v) :
    Builds [.word cs] v := by
  intro opened _
  rw [Machine.run_singleton]
  simp only [Machine.step, Machine.beginValue, h, Option.bind_some]

theorem builds_text (s : String) : Builds [.text s] (.text s) :=
  fun _ _ => Machine.run_singleton _ _

theorem BuildsItems.singleton {ts : List Token} {v : Json} (h : Builds ts v) : BuildsItems ts [v] := by
  intro opened items hlimit
  have hv : (Opened.list items :: opened).length + nesting v ≤ nestingLimit := by
    simp only [nestingOfItems, List.length_cons] at hlimit ⊢
    omega
  rw [h _ hv]
  rfl

theorem BuildsItems.cons {ts ts' : List Token} {v : Json} {vs : List Json} (h : Builds ts v)
    (h' : BuildsItems ts' vs) : BuildsItems (ts ++ .comma :: ts') (v :: vs) := by
  intro opened items hlimit
  rw [nestingOfItems] at hlimit
  have hv : (Opened.list items :: opened).length + nesting v ≤ nestingLimit := by
    rw [List.length_cons]
    omega
  have hvs : opened.length + nestingOfItems vs ≤ nestingLimit := by omega
  rw [Machine.run_append, h _ hv]
  show (⟨.list (v :: items) :: opened, .value⟩ : Machine).run ts' = _
  rw [h' _ _ hvs, List.reverse_cons, List.append_assoc, List.singleton_append]

theorem builds_list_nil : Builds [.openList, .closeList] (.list []) :=
  fun opened _ => Machine.run_singleton ⟨.list [] :: opened, .firstItem⟩ .closeList

theorem builds_list {t : Token} {ts : List Token} {vs : List Json} (ht : t ≠ .closeList)
    (hvs : vs ≠ []) (h : BuildsItems (t :: ts) vs) :
    Builds (.openList :: (t :: ts ++ [.closeList])) (.list vs) := by
  intro opened hlimit
  have hopened : (Opened.list [] :: opened).length ≤ nestingLimit := by
    obtain ⟨v, vs, rfl⟩ := List.exists_cons_of_ne_nil hvs
    simp only [nesting, nestingOfItems, List.length_cons] at hlimit ⊢
    omega
  rw [Machine.run_cons]
  show (⟨.list [] :: opened, .firstItem⟩ : Machine).run (t :: (ts ++ [.closeList])) = _
  rw [Machine.run_firstItem _ ht hopened, ← List.cons_append, Machine.run_append, h _ _ hlimit,
    Option.bind_some, Machine.run_singleton]
  show Machine.complete (.list (vs.reverse ++ []).reverse) opened = _
  rw [List.append_nil, List.reverse_reverse]

/-- The tokens of a member: its name, a colon and its value. -/
theorem run_member {ts : List Token} {v : Json} (h : Builds ts v) (name : String)
    (opened : List Opened) (members : List (String × Json))
    (hlimit : opened.length + (nesting v + 1) ≤ nestingLimit) :
    (⟨.object members :: opened, .name⟩ : Machine).run (.text name :: .colon :: ts)
      = some ⟨.object ((name, v) :: members) :: opened, .moreMembers⟩ := by
  have hv : (Opened.member members name :: opened).length + nesting v ≤ nestingLimit := by
    rw [List.length_cons]
    omega
  show (⟨.member members name :: opened, .value⟩ : Machine).run ts = _
  rw [h _ hv]
  rfl

theorem BuildsMembers.singleton {ts : List Token} {v : Json} (h : Builds ts v) (name : String) :
    BuildsMembers (.text name :: .colon :: ts) [(name, v)] := by
  intro opened members hlimit
  simp only [nestingOfMembers] at hlimit
  rw [run_member h name opened members (by omega)]
  rfl

theorem BuildsMembers.cons {ts ts' : List Token} {v : Json} {ms : List (String × Json)}
    (h : Builds ts v) (name : String) (h' : BuildsMembers ts' ms) :
    BuildsMembers (.text name :: .colon :: (ts ++ .comma :: ts')) ((name, v) :: ms) := by
  intro opened members hlimit
  rw [nestingOfMembers] at hlimit
  rw [← List.cons_append, ← List.cons_append, Machine.run_append,
    run_member h name opened members (by omega)]
  show (⟨.object ((name, v) :: members) :: opened, .name⟩ : Machine).run ts' = _
  rw [h' _ _ (by omega), List.reverse_cons, List.append_assoc, List.singleton_append]

theorem builds_object_nil : Builds [.openObject, .closeObject] (.object []) :=
  fun opened _ => Machine.run_singleton ⟨.object [] :: opened, .firstName⟩ .closeObject

theorem builds_object {name : String} {ts : List Token} {ms : List (String × Json)} (hms : ms ≠ [])
    (h : BuildsMembers (.text name :: ts) ms) :
    Builds (.openObject :: (.text name :: ts ++ [.closeObject])) (.object ms) := by
  intro opened hlimit
  have hopened : (Opened.object [] :: opened).length ≤ nestingLimit := by
    obtain ⟨⟨k, v⟩, ms, rfl⟩ := List.exists_cons_of_ne_nil hms
    simp only [nesting, nestingOfMembers, List.length_cons] at hlimit ⊢
    omega
  rw [Machine.run_cons]
  show (⟨.object [] :: opened, .firstName⟩ : Machine).run (.text name :: (ts ++ [.closeObject])) = _
  rw [Machine.run_firstName _ hopened, ← List.cons_append, Machine.run_append, h _ _ hlimit,
    Option.bind_some, Machine.run_singleton]
  show Machine.complete (.object (ms.reverse ++ []).reverse) opened = _
  rw [List.append_nil, List.reverse_reverse]

/-! ## Texts are read -/

theorem reads_padded {P : List Char → Prop} {cs : List Char} {R : List Token → Prop}
    (h : Padded P cs) (hP : ∀ inner, P inner → ∃ ts, Reads inner ts ∧ R ts) :
    ∃ ts, Reads cs ts ∧ R ts := by
  obtain ⟨before, inner, after, rfl, hbefore, hinner, hafter⟩ := h
  obtain ⟨ts, hts, hR⟩ := hP inner hinner
  exact ⟨ts, hts.padded hbefore hafter, hR⟩

/-- Tokens that begin as a value does. -/
def Begins (ts : List Token) : Prop := ∃ t ts', ts = t :: ts' ∧ t ≠ .closeList

/-- A number is one word. -/
theorem isWordChar_of_number {bound : Nat → Prop} {whole fs frac es : List Char} {e : Int}
    (negative : Bool) (hw : Whole bound whole) (hf : Fraction fs frac) (hp : Power es e) :
    ∀ c ∈ sign negative ++ (whole ++ (fs ++ es)), isWordChar c = true := by
  intro c hc
  rcases mem_number negative hw hf hp hc with hdigit | hmark
  · exact isWordChar_of_isDigit hdigit
  · exact List.all_eq_true.1 rfl c hmark

theorem Begins.append {ts : List Token} (h : Begins ts) (ts' : List Token) : Begins (ts ++ ts') := by
  obtain ⟨t, ts, rfl, ht⟩ := h
  exact ⟨t, ts ++ ts', rfl, ht⟩

theorem reads_name {name : String} {cs : List Char} (h : Padded (Quoted name) cs) :
    Reads cs [.text name] := by
  obtain ⟨before, inner, after, rfl, hbefore, hinner, hafter⟩ := h
  exact (Reads.quoted hinner).padded hbefore hafter

theorem exists_tokens_word {v : Json} {cs : List Char} (hne : cs ≠ [])
    (hcs : ∀ c ∈ cs, isWordChar c = true) (hv : wordValue? cs = some v) :
    ∃ ts, Reads cs ts ∧ Begins ts ∧ Builds ts v :=
  ⟨_, .word hne hcs, ⟨_, _, rfl, by simp⟩, builds_word hv⟩

mutual

/-- A text of a value gives tokens that make it up. -/
theorem exists_tokens (v : Json) {cs : List Char} (h : Spells (· ≤ Numeral.maxFigures) v cs) :
    ∃ ts, Reads cs ts ∧ Begins ts ∧ Builds ts v := by
  match v with
  | .null =>
    obtain rfl := h
    exact exists_tokens_word (by simp) (List.all_eq_true.1 rfl) rfl
  | .bool true =>
    obtain rfl := h
    exact exists_tokens_word (by simp) (List.all_eq_true.1 rfl) rfl
  | .bool false =>
    obtain rfl := h
    exact exists_tokens_word (by simp) (List.all_eq_true.1 rfl) rfl
  | .integer i =>
    have hnumber := number?_of_integer h
    obtain ⟨negative, ds, hds, rfl, -⟩ := h
    have hword := isWordChar_of_number negative hds .absent .absent
    rw [List.append_nil, List.append_nil] at hword
    exact exists_tokens_word (by simp [hds.digits.1]) hword (wordValue?_of_number? hnumber)
  | .real x =>
    have hnumber := number?_of_real h
    obtain ⟨negative, whole, fs, frac, es, e, hw, hf, hp, -, rfl, -⟩ := h
    exact exists_tokens_word (by simp [hw.digits.1]) (isWordChar_of_number negative hw hf hp)
      (wordValue?_of_number? hnumber)
  | .text s => exact ⟨_, .quoted h, ⟨_, _, rfl, by simp⟩, builds_text s⟩
  | .list vs =>
    obtain ⟨inner, rfl, hinner⟩ := h
    by_cases hvs : vs = []
    · subst hvs
      exact ⟨_, .enclosed rfl rfl (.blanks hinner) rfl rfl, ⟨_, _, rfl, by simp⟩, builds_list_nil⟩
    · obtain ⟨_, hreads, ⟨t, ts, rfl, ht⟩, hbuilds⟩ := exists_tokens_items vs hvs hinner
      exact ⟨_, hreads.enclosed rfl rfl rfl rfl, ⟨_, _, rfl, by simp⟩, builds_list ht hvs hbuilds⟩
  | .object ms =>
    obtain ⟨inner, rfl, hinner⟩ := h
    by_cases hms : ms = []
    · subst hms
      exact ⟨_, .enclosed rfl rfl (.blanks hinner) rfl rfl, ⟨_, _, rfl, by simp⟩, builds_object_nil⟩
    · obtain ⟨name, ts, hreads, hbuilds⟩ := exists_tokens_members ms hms hinner
      exact ⟨_, hreads.enclosed rfl rfl rfl rfl, ⟨_, _, rfl, by simp⟩, builds_object hms hbuilds⟩

theorem exists_tokens_items (vs : List Json) {cs : List Char} (hvs : vs ≠ [])
    (h : SpellsItems (· ≤ Numeral.maxFigures) vs cs) :
    ∃ ts, Reads cs ts ∧ Begins ts ∧ BuildsItems ts vs := by
  match vs with
  | [] => exact absurd rfl hvs
  | [v] =>
    obtain ⟨ts, hreads, hbegins, hbuilds⟩ := reads_padded h fun _ hv => exists_tokens v hv
    exact ⟨ts, hreads, hbegins, .singleton hbuilds⟩
  | v :: w :: vs =>
    obtain ⟨first, rest, rfl, hfirst, hrest⟩ := h
    obtain ⟨ts, hreads, hbegins, hbuilds⟩ := reads_padded hfirst fun _ hv => exists_tokens v hv
    obtain ⟨ts', hreads', -, hbuilds'⟩ := exists_tokens_items (w :: vs) (by simp) hrest
    exact ⟨_, hreads.join rfl rfl hreads', hbegins.append _, hbuilds'.cons hbuilds⟩

theorem exists_tokens_members (ms : List (String × Json)) {cs : List Char} (hms : ms ≠ [])
    (h : SpellsMembers (· ≤ Numeral.maxFigures) ms cs) :
    ∃ name ts, Reads cs (.text name :: ts) ∧ BuildsMembers (.text name :: ts) ms := by
  match ms with
  | [] => exact absurd rfl hms
  | [(name, v)] =>
    obtain ⟨key, value, rfl, hkey, hvalue⟩ := h
    obtain ⟨ts, hreads, -, hbuilds⟩ := reads_padded hvalue fun _ hv => exists_tokens v hv
    exact ⟨name, _, (reads_name hkey).join rfl rfl hreads, .singleton hbuilds name⟩
  | (name, v) :: m :: ms =>
    obtain ⟨key, value, rest, rfl, hkey, hvalue, hrest⟩ := h
    obtain ⟨ts, hreads, -, hbuilds⟩ := reads_padded hvalue fun _ hv => exists_tokens v hv
    obtain ⟨name', ts', hreads', hbuilds'⟩ := exists_tokens_members (m :: ms) (by simp) hrest
    exact ⟨name, _, (reads_name hkey).join rfl rfl (hreads.join rfl rfl hreads'),
      .cons hbuilds name hbuilds'⟩

end

/-- **Texts are read.** A text of a value is read as that value, if no number has too many digits and
the value is not nested too deep. -/
theorem parse?_of_document {v : Json} {s : String}
    (h : Document (· ≤ Numeral.maxFigures) v s.toList) (hv : nesting v ≤ nestingLimit) :
    parse? s = some v := by
  obtain ⟨ts, hreads, -, hbuilds⟩ := reads_padded h fun _ hv => exists_tokens v hv
  have htokens : tokens? s.toList = some ts := by
    have hall := hreads [] fun _ hc => absurd hc (by simp)
    simpa [tokens?] using hall
  have hrun : ({} : Machine).run ts = some ⟨[], .nothing v⟩ := hbuilds [] (by simpa using hv)
  simp only [parse?, htokens, Option.bind_eq_bind, Option.bind_some, hrun]

/-- A text is refused if its first member is an integer of too many digits, whatever comes after. -/
theorem parse?_eq_none {name : String} {key before ds after : List Char}
    (hkey : Padded (Quoted name) key) (hbefore : Blanks before) (hds : Digits ds)
    (hlong : Numeral.maxFigures < ds.length) (hafter : Blanks after) (rest : List Char) :
    parse? (String.ofList ('\x7b' :: (key ++ ':' :: ((before ++ ds ++ after) ++ ',' :: rest))))
      = none := by
  have hword : ∀ c ∈ ds, isWordChar c = true := fun c hc => isWordChar_of_isDigit (hds.2 c hc)
  have hreads := (reads_name hkey).join (c := ':') rfl rfl
    ((Reads.word hds.1 hword).padded hbefore hafter)
  have hcomma : Separated (',' :: rest) := by
    rintro c hc
    obtain rfl := Option.some.inj hc
    rfl
  have htokens := (Reads.nil.join (c := '\x7b') rfl rfl hreads) (',' :: rest) hcomma
  rw [tokens?_mark rfl rfl] at htokens
  simp only [List.nil_append, List.cons_append, List.append_assoc] at htokens
  have hrun : ∀ ts,
      ({} : Machine).run (.openObject :: .text name :: .colon :: .word ds :: ts) = none := by
    intro ts
    show ((wordValue? ds).bind (Machine.complete · [.member [] name])).bind (·.run ts) = none
    rw [wordValue?_eq_none hds hlong]
    rfl
  unfold parse?
  rw [String.toList_ofList, List.append_assoc, List.append_assoc, htokens]
  cases tokens? rest with
  | none => rfl
  | some ts =>
    simp only [Option.map_some, Option.bind_eq_bind, Option.bind_some, hrun]
    rfl

end AsyncMigration.Json
