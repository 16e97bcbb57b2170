import AsyncMigration.Config.Settings
import AsyncMigration.Proofs.JsonText
import AsyncMigration.Toml.Reader
import Mathlib.Data.Finset.Basic
import Mathlib.Data.Finset.Dedup
import Mathlib.Data.List.DropRight

/-!
# Lists of names

Names may be listed as one text with commas between them, as a list of texts, or as a list of such
texts. All ways agree, since a text is cut at its commas wherever it comes from; and what is left of a
part without the blanks around it is found again as it is.

* `IsName` — what a name in a list can be.
* `namesInText_intercalate` — texts may be joined with commas.
* `namesInText_of_isName` — a name is listed as itself.
* `names_normal` — lists of names are in normal form, and all sets of names can be listed.
-/

namespace AsyncMigration
namespace Text

/-! ## Cutting and trimming -/

section

variable {sep : Char} {cs part : List Char}

theorem cut_ne_nil (sep : Char) (cs : List Char) : cut sep cs ≠ [] := by
  fun_cases cut sep cs <;> simp

theorem cut_append (sep : Char) (cs ds : List Char) :
    cut sep (cs ++ sep :: ds) = cut sep cs ++ cut sep ds := by
  induction cs with
  | nil => simp [cut]
  | cons c cs ih =>
    simp only [List.cons_append, cut, ih]
    split
    · rfl
    · obtain ⟨part, parts, hparts⟩ := List.exists_cons_of_ne_nil (cut_ne_nil sep cs)
      simp [hparts]

theorem cut_of_not_mem (h : sep ∉ cs) : cut sep cs = [cs] := by
  induction cs with
  | nil => rfl
  | cons c cs ih =>
    simp only [List.mem_cons, not_or] at h
    simp [cut, Ne.symm h.1, ih h.2]

theorem not_mem_of_mem_cut (h : part ∈ cut sep cs) : sep ∉ part := by
  induction cs generalizing part with
  | nil => simp_all [cut]
  | cons c cs ih =>
    obtain ⟨first, parts, hparts⟩ := List.exists_cons_of_ne_nil (cut_ne_nil sep cs)
    simp only [hparts, List.mem_cons] at ih
    simp only [cut, hparts] at h
    split at h
    · grind
    · grind

end

section

variable {p : Char → Bool} {cs : List Char}

theorem trim_isPrefix (p : Char → Bool) (cs : List Char) : trim p cs <+: cs.dropWhile p :=
  List.rdropWhile_prefix p _

theorem mem_of_mem_trim {c : Char} (h : c ∈ trim p cs) : c ∈ cs :=
  (List.dropWhile_sublist p).subset ((trim_isPrefix p cs).subset h)

theorem of_mem_head?_dropWhile {c : Char} (h : c ∈ (cs.dropWhile p).head?) : p c = false := by
  have hnot := List.head?_dropWhile_not p cs
  rw [Option.mem_def.1 h] at hnot
  simpa using hnot

theorem of_mem_head?_trim {c : Char} (h : c ∈ (trim p cs).head?) : p c = false := by
  obtain ⟨rest, hrest⟩ := trim_isPrefix p cs
  have hdrop : c ∈ (cs.dropWhile p).head? := by
    rw [← hrest, List.head?_append, Option.mem_def.1 h]
    rfl
  exact of_mem_head?_dropWhile hdrop

theorem of_mem_getLast?_trim {c : Char} (h : c ∈ (trim p cs).getLast?) : p c = false := by
  unfold trim at h
  rw [List.getLast?_reverse] at h
  exact of_mem_head?_dropWhile h

theorem trim_of_ends (hhead : ∀ c ∈ cs.head?, p c = false) (hlast : ∀ c ∈ cs.getLast?, p c = false) :
    trim p cs = cs := by
  have hdrop : cs.dropWhile p = cs := (Json.span_append (l := []) (by simp) hhead).2
  have hdrop' : cs.reverse.dropWhile p = cs.reverse :=
    (Json.span_append (l := []) (by simp) (by simpa using hlast)).2
  unfold trim
  rw [hdrop, hdrop', List.reverse_reverse]

end
end Text

/-! ## Names -/

/-- What a name in a list can be: a text that is not empty, has no comma and neither begins nor ends
with a blank. -/
structure IsName (s : String) : Prop where
  nonempty : s ≠ ""
  unseparated : ',' ∉ s.toList
  begins : ∀ c ∈ s.toList.head?, Text.isBlank c = false
  ends : ∀ c ∈ s.toList.getLast?, Text.isBlank c = false

theorem namesInText_append (s t : String) :
    namesInText (s ++ "," ++ t) = namesInText s ++ namesInText t := by
  simp [namesInText, Text.cut_append]

/-- Texts may be joined with commas. -/
theorem namesInText_intercalate (ss : List String) :
    namesInText (",".intercalate ss) = ss.flatMap namesInText := by
  induction ss with
  | nil => rfl
  | cons s ss ih =>
    cases ss with
    | nil => simp
    | cons t ss =>
      rw [String.intercalate_cons_cons, namesInText_append, ih]
      rfl

theorem isName_of_mem_namesInText {s n : String} (h : n ∈ namesInText s) : IsName n := by
  simp only [namesInText, List.mem_map, List.mem_filter] at h
  obtain ⟨_, ⟨⟨part, hpart, rfl⟩, hne⟩, rfl⟩ := h
  refine ⟨?_, ?_, ?_, ?_⟩
  · intro hempty
    have hnil := congrArg String.toList hempty
    simp_all
  · rw [String.toList_ofList]
    intro hcomma
    exact Text.not_mem_of_mem_cut hpart (Text.mem_of_mem_trim hcomma)
  · rw [String.toList_ofList]
    intro c hc
    exact Text.of_mem_head?_trim hc
  · rw [String.toList_ofList]
    intro c hc
    exact Text.of_mem_getLast?_trim hc

/-- A name is listed as itself. -/
theorem namesInText_of_isName {n : String} (h : IsName n) : namesInText n = [n] := by
  have hne : n.toList ≠ [] := fun hnil => h.nonempty (String.toList_eq_nil_iff.1 hnil)
  simp [namesInText, Text.cut_of_not_mem h.unseparated, Text.trim_of_ends h.begins h.ends, hne]

theorem namesInText_intercalate_of_isName {ns : List String} (h : ∀ n ∈ ns, IsName n) :
    namesInText (",".intercalate ns) = ns := by
  rw [namesInText_intercalate]
  induction ns with
  | nil => rfl
  | cons n ns ih =>
    rw [List.flatMap_cons, namesInText_of_isName (h n List.mem_cons_self),
      ih fun m hm => h m (List.mem_cons_of_mem _ hm)]
    rfl

theorem namesInValue_texts (ss : List String) :
    namesInValue (.list (ss.map .text)) = ss.flatMap namesInText := by
  simp [namesInValue, List.flatMap_map]

theorem isName_of_mem_namesInValue {v : ConfigValue} {n : String} (h : n ∈ namesInValue v) :
    IsName n := by
  cases v with
  | text s => exact isName_of_mem_namesInText h
  | list items =>
    obtain ⟨item, -, hitem⟩ := List.mem_flatMap.1 h
    cases item with
    | text s => exact isName_of_mem_namesInText hitem
    | _ => exact absurd hitem List.not_mem_nil
  | _ => exact absurd h List.not_mem_nil

/-- What is not a text does not count in a list. -/
theorem namesInValue_insert {v : ConfigValue} (h : ∀ s, v ≠ .text s) (before after : List ConfigValue) :
    namesInValue (.list (before ++ v :: after)) = namesInValue (.list (before ++ after)) := by
  cases v with
  | text s => exact absurd rfl (h s)
  | _ => simp [namesInValue]

/-! ## Configurations -/

namespace Toml

/-- A character as an escape. -/
def escaped (c : Char) : List Char := '\\' :: 'U' :: Text.hex 8 c.toNat

theorem hexValue?_hex {width n : Nat} (h : n < 16 ^ width) :
    Text.hexValue? (Text.hex width n) = some n := by
  have hdigit : ∀ m < 16, Text.hexDigit? (Nat.digitChar m) = some m := by decide
  induction width generalizing n with
  | zero =>
    have hn : n = 0 := by simpa using h
    subst hn
    rfl
  | succ width ih =>
    have hdiv : n / 16 < 16 ^ width := by
      rw [Nat.pow_succ] at h
      omega
    have hfront := ih hdiv
    unfold Text.hexValue? at hfront ⊢
    rw [Text.hex, List.foldlM_append, hfront]
    have hmod := hdigit (n % 16) (Nat.mod_lt n (by decide))
    simp [hmod, Nat.div_add_mod]

theorem scalar?_toNat (c : Char) : scalar? c.toNat = some c := by
  have hvalid : c.toNat < 0xd800 ∨ 0xdfff < c.toNat ∧ c.toNat < 0x110000 := c.valid
  unfold scalar?
  rw [if_pos, Char.ofNat_toNat]
  simp only [Bool.or_eq_true, Bool.and_eq_true, decide_eq_true_eq]
  omega

/-- Escapes are read back. -/
theorem basic_flatMap_escaped (cs rest : List Char) :
    basic (cs.flatMap escaped ++ '"' :: rest) = some (cs, rest) := by
  induction cs with
  | nil => rfl
  | cons c cs ih =>
    have hc : c.toNat < 16 ^ 8 := by
      have hvalid : c.toNat < 0xd800 ∨ 0xdfff < c.toNat ∧ c.toNat < 0x110000 := c.valid
      omega
    have hvalue := hexValue?_hex hc
    simp only [Text.hex, List.nil_append, List.cons_append] at hvalue
    simp only [List.flatMap_cons, escaped, Text.hex, List.nil_append, List.cons_append]
    rw [basic, hvalue, Option.bind_some, scalar?_toNat]
    simp only [prepend]
    rw [ih]
    rfl

theorem text_of_basic {cs s rest : List Char} (h : basic cs = some (s, rest))
    (hquotes : cs.take 2 ≠ ['"', '"']) : text ('"' :: cs) = some (String.ofList s, rest) := by
  unfold text
  split
  · next hcs =>
    cases hcs
    exact absurd rfl hquotes
  · next hcs =>
    cases hcs
    rw [h]
    rfl
  · next hc hcs =>
    cases hcs
    exact absurd rfl hc
  · next hcs => cases hcs

theorem keyPart_bare {name rest : List Char} (hne : name ≠ [])
    (hname : name.all isBareKeyChar = true) (hrest : ∀ c ∈ rest.head?, isBareKeyChar c = false) :
    keyPart (name ++ rest) = some (String.ofList name, rest) := by
  have hall : ∀ c ∈ name, isBareKeyChar c = true := List.all_eq_true.1 hname
  obtain ⟨htake, hdrop⟩ := Json.span_append hall hrest
  obtain ⟨c, cs, rfl⟩ := List.exists_cons_of_ne_nil hne
  have hc : isBareKeyChar c = true := hall c List.mem_cons_self
  have hquote : c ≠ '"' := by
    rintro rfl
    cases hc
  have hapostrophe : c ≠ apostrophe := by
    rintro rfl
    cases hc
  rw [List.cons_append] at htake hdrop ⊢
  rw [keyPart]
  · rw [if_neg hapostrophe, if_pos hc, htake, hdrop]
  · intro h
    exact hquote h

/-- The line that sets the names, up to the text that lists them. -/
def namingLine (written : List Char) : List Char :=
  ['d', 'e', 'c', 'i', 's', 'i', 'o', 'n'] ++ '.' ::
    (['w', 'r', 'a', 'p', 'p', 'e', 'd', '_', 's', 'i', 'n', 'k', 's'] ++ '=' :: written)

theorem key_namingLine (written : List Char) :
    key (namingLine written) = some (["decision", "wrapped_sinks"], '=' :: written) := by
  have hlast : ∀ n, keyParts (n + 1)
      (['w', 'r', 'a', 'p', 'p', 'e', 'd', '_', 's', 'i', 'n', 'k', 's'] ++ '=' :: written)
      = some (["wrapped_sinks"], '=' :: written) := by
    intro n
    rw [keyParts, keyPart_bare (by simp) (by decide) (by simp; rfl)]
    rfl
  obtain ⟨n, hn⟩ : ∃ n, (namingLine written).length = n + 1 :=
    Nat.exists_eq_add_one_of_ne_zero (by simp [namingLine])
  unfold key
  rw [hn, keyParts, namingLine, keyPart_bare (by simp) (by decide) (by simp; rfl)]
  have hdot : ∀ cs, skipBlanks ('.' :: cs) = '.' :: cs := fun _ => rfl
  have hskip : ∀ cs, skipBlanks ('w' :: cs) = 'w' :: cs := fun _ => rfl
  rw [List.cons_append] at hlast ⊢
  simp only [Option.bind_eq_bind, Option.bind_some, hdot, hskip, hlast]
  rfl

theorem statement_namingLine {written : List Char} {s : String}
    (h : text ('"' :: written) = some (s, [])) :
    statement (namingLine ('"' :: written))
      = .ok (.entry ["decision", "wrapped_sinks"] (.text s), []) := by
  have hvalue : ∀ n, value (n + 1) nestingRoom ('"' :: written) = .ok (.text s, []) := by
    intro n
    rw [value]
    · rw [h]
      rfl
    all_goals simp
  have hkey := key_namingLine ('"' :: written)
  obtain ⟨cs, hcs⟩ : ∃ cs, namingLine ('"' :: written) = 'd' :: cs := ⟨_, rfl⟩
  rw [hcs] at hkey ⊢
  rw [statement, hkey]
  · show (value (2 * (cs.length + 1) + 1) nestingRoom ('"' :: written)).bind _ = _
    rw [hvalue]
    rfl
  all_goals simp

/-- A configuration that lists names in a text. -/
def naming (s : String) : String :=
  String.ofList (namingLine ('"' :: (s.toList.flatMap escaped ++ ['"'])))

theorem parse_naming (s : String) :
    parse (naming s) = .ok [("decision", .table [("wrapped_sinks", .text s)])] := by
  have hquotes : (s.toList.flatMap escaped ++ ['"']).take 2 ≠ ['"', '"'] := by
    cases s.toList <;> simp [escaped]
  have htext := text_of_basic (basic_flatMap_escaped s.toList []) hquotes
  rw [String.ofList_toList] at htext
  have hstatement := statement_namingLine htext
  unfold parse naming
  rw [String.toList_ofList]
  generalize s.toList.flatMap escaped ++ ['"'] = written at hstatement
  obtain ⟨cs, hcs⟩ : ∃ cs, namingLine ('"' :: written) = 'd' :: cs := ⟨_, rfl⟩
  rw [hcs] at hstatement ⊢
  have hskip : skipBlanks ('d' :: cs) = 'd' :: cs := rfl
  rw [statements, hskip]
  show Except.map _ ((statement ('d' :: cs)).bind _) = _
  rw [hstatement]
  rfl

end Toml

/-! ## Normal form -/

/-- The names of a set are those of a finite set. -/
def NameSet.Lists (a : NameSet) (names : Finset String) : Prop := ∀ n, n ∈ a.names ↔ n ∈ names

theorem ConfigTable.isName_of_mem_wrappedSinks {t : ConfigTable} {n : String}
    (h : n ∈ t.wrappedSinks.names) : IsName n := by
  unfold ConfigTable.wrappedSinks ConfigTable.names at h
  rw [NameSet.mem_ofList] at h
  cases hv : t.lookup "wrapped_sinks" with
  | none => simp [hv] at h
  | some v =>
    rw [hv] at h
    exact isName_of_mem_namesInValue h

theorem Settings.wrappedSinks_ofTable {t : ConfigTable} {st : Settings} (h : ofTable t = .ok st) :
    st.wrappedSinks = (t.inner "decision").wrappedSinks := by
  unfold ofTable at h
  cases hp : PrioritySettings.ofTable (t.inner "priority") with
  | error e =>
    rw [hp] at h
    cases h
  | ok p =>
    rw [hp] at h
    cases h
    rfl

/-- A set of names is listed by a configuration that joins them with commas. -/
theorem exists_lists {names : Finset String} (h : ∀ n ∈ names, IsName n) :
    ∃ text t st, Toml.parse text = .ok t ∧ Settings.ofTable t = .ok st ∧ st.wrappedSinks.Lists names := by
  have hpriority : PrioritySettings.ofTable [] = .ok {} := by decide +kernel
  have hsettings : ∀ s, Settings.ofTable [("decision", .table [("wrapped_sinks", .text s)])]
      = .ok { wrappedSinks := .ofList (namesInText s) } := by
    intro s
    simp [Settings.ofTable, ConfigTable.inner, ConfigTable.wrappedSinks, ConfigTable.names,
      ConfigTable.integer, namesInValue, hpriority, List.lookup_cons]
  refine ⟨_, _, _, Toml.parse_naming (",".intercalate names.toList), hsettings _, fun n => ?_⟩
  rw [NameSet.mem_ofList, namesInText_intercalate_of_isName fun m hm => h m (Finset.mem_toList.1 hm),
    Finset.mem_toList]

/-- **Lists of names.** Texts in a list say the same as these texts joined with commas, and what is no
text in a list says nothing. What is listed is a name, and to list the names again, one by one or in
one text, changes nothing. A table can list the names of a finite set, and so can a configuration as a
whole, if and only if all of them are names. -/
theorem names_normal :
    (∀ ss : List String,
      namesInValue (.list (ss.map .text)) = namesInValue (.text (",".intercalate ss))) ∧
    (∀ (v : ConfigValue) (before after : List ConfigValue), (∀ s, v ≠ .text s) →
      namesInValue (.list (before ++ v :: after)) = namesInValue (.list (before ++ after))) ∧
    (∀ v : ConfigValue, (∀ n ∈ namesInValue v, IsName n) ∧
      namesInValue (.list ((namesInValue v).map .text)) = namesInValue v ∧
      namesInValue (.text (",".intercalate (namesInValue v))) = namesInValue v) ∧
    ∀ names : Finset String,
      ((∃ t : ConfigTable, t.wrappedSinks.Lists names) ↔ ∀ n ∈ names, IsName n) ∧
      ((∃ text t st, Toml.parse text = .ok t ∧ Settings.ofTable t = .ok st ∧
        st.wrappedSinks.Lists names) ↔ ∀ n ∈ names, IsName n) := by
  have hjoined : ∀ ss : List String,
      namesInValue (.list (ss.map .text)) = namesInValue (.text (",".intercalate ss)) := by
    intro ss
    rw [namesInValue_texts]
    exact (namesInText_intercalate ss).symm
  have hnamed : ∀ names : Finset String, (∃ t : ConfigTable, t.wrappedSinks.Lists names) →
      ∀ n ∈ names, IsName n := by
    rintro names ⟨t, ht⟩ n hn
    exact ConfigTable.isName_of_mem_wrappedSinks ((ht n).2 hn)
  refine ⟨hjoined, fun v before after hv => namesInValue_insert hv before after, fun v => ?_,
    fun names => ⟨⟨hnamed names, fun h => ?_⟩, ⟨?_, exists_lists⟩⟩⟩
  · have hnames : ∀ n ∈ namesInValue v, IsName n := fun n hn => isName_of_mem_namesInValue hn
    have hagain : namesInValue (.text (",".intercalate (namesInValue v))) = namesInValue v :=
      namesInText_intercalate_of_isName hnames
    exact ⟨hnames, (hjoined _).trans hagain, hagain⟩
  · obtain ⟨-, t, st, -, hst, hlists⟩ := exists_lists h
    rw [Settings.wrappedSinks_ofTable hst] at hlists
    exact ⟨_, hlists⟩
  · rintro ⟨-, t, st, -, hst, hlists⟩
    rw [Settings.wrappedSinks_ofTable hst] at hlists
    exact hnamed names ⟨_, hlists⟩

/-- A list with commas where nothing stands between them, a value that is no text, and blanks of several
kinds around names. -/
def muddledNames : ConfigValue :=
  .list [.text ",b c\t,,", .integer 7, .text "", .text "\u3000a\u001c"]

/-- From a muddled list two names are left, a configuration can list them, and none can list a blank. -/
theorem names_normal_muddled :
    namesInValue muddledNames = ["b c", "a"] ∧
    namesInValue muddledNames
      = namesInValue (.list [.text ",b c\t,,", .text "", .text "\u3000a\u001c"]) ∧
    (∀ n ∈ ["b c", "a"], IsName n) ∧
    (∃ text t st, Toml.parse text = .ok t ∧ Settings.ofTable t = .ok st ∧
      st.wrappedSinks.Lists {"a", "b c"}) ∧
    ¬ ∃ t : ConfigTable, t.wrappedSinks.Lists {" "} := by
  obtain ⟨-, hother, hnormal, hsets⟩ := names_normal
  have hread : namesInValue muddledNames = ["b c", "a"] := by decide +kernel
  have hnames := (hnormal muddledNames).1
  rw [hread] at hnames
  refine ⟨hread, hother (.integer 7) [.text ",b c\t,,"] _ (fun s hs => by cases hs), hnames,
    (hsets _).2.2 ?_, ?_⟩
  · intro n hn
    apply hnames
    simp only [Finset.mem_insert, Finset.mem_singleton] at hn
    rcases hn with rfl | rfl <;> decide
  · rw [(hsets _).1]
    intro h
    have hblank := (h " " (Finset.mem_singleton_self _)).begins ' ' rfl
    cases hblank

end AsyncMigration
