import AsyncMigration.Payload.Reader
import AsyncMigration.Proofs.JsonReading
import Mathlib.Data.List.Forall2
import Mathlib.Data.List.Nodup

/-!
# Payloads in full

A payload is spelled in full if every object has every field of the format under its name, with null
for what is absent. The order of members is free, and other members may stand among them. Such a text
is read as the payload that it spells.

* `Payload.Spelled` — a JSON value spells a payload, field by field.
* `Payload.check_of_spelled` — such a value is read as the payload.
* `Payload.round_trip` — so is every text of it, within the bounds of the reader.
-/

namespace AsyncMigration

open List (Forall₂)

/-! ## Values that spell records -/

/-- Members are these fields in any order, and others of other names. -/
def HasFields (fields ms : List (String × Json)) : Prop :=
  ∃ others, ms.Perm (fields ++ others) ∧ ∀ m ∈ others, m.1 ∉ fields.map (·.1)

/-- A text, or null for none. -/
def Json.ofText? : Option String → Json
  | none => .null
  | some s => .text s

def Parameter.Spelled (p : Parameter) (v : Json) : Prop :=
  ∃ ms, v = .object ms ∧ HasFields [("name", .text p.name), ("callback", .bool p.callback)] ms

mutual

def NodeRecord.Spelled : NodeRecord → Json → Prop
  | .mk kind line checked callee children, v =>
    ∃ ms vs, v = .object ms ∧ NodeRecord.SpelledAll children vs ∧
      HasFields [("kind", .text kind), ("line", .integer line), ("checked", .bool checked),
        ("callee", .ofText? callee), ("children", .list vs)] ms

def NodeRecord.SpelledAll : List NodeRecord → List Json → Prop
  | [], vs => vs = []
  | n :: ns, vs => ∃ w ws, vs = w :: ws ∧ n.Spelled w ∧ NodeRecord.SpelledAll ns ws

end

/-- The nodes of a body, or null for none. -/
def NodeRecord.SpelledBody : Option (List NodeRecord) → Json → Prop
  | none, v => v = .null
  | some ns, v => ∃ vs, v = .list vs ∧ NodeRecord.SpelledAll ns vs

def FunctionRecord.Spelled (f : FunctionRecord) (v : Json) : Prop :=
  ∃ ms params body, v = .object ms ∧ Forall₂ Parameter.Spelled f.params params ∧
    NodeRecord.SpelledBody f.body body ∧
    HasFields [("name", .text f.name), ("line", .integer f.line), ("params", .list params),
      ("returns", .text f.returns), ("interop", .bool f.interop), ("protocol", .ofText? f.protocol),
      ("structured", .bool f.structured), ("body", body)] ms

def CallRecord.Spelled (c : CallRecord) (v : Json) : Prop :=
  ∃ ms, v = .object ms ∧
    HasFields [("caller", .text c.caller), ("callee", .ofText? c.callee), ("target", .text c.target),
      ("line", .integer c.line)] ms

def UnitRecord.Spelled (u : UnitRecord) (v : Json) : Prop :=
  ∃ ms functions calls, v = .object ms ∧ Forall₂ FunctionRecord.Spelled u.functions functions ∧
    Forall₂ CallRecord.Spelled u.calls calls ∧
    HasFields [("path", .text u.path), ("text", .text u.text), ("parse_error", .ofText? u.parseError),
      ("functions", .list functions), ("calls", .list calls)] ms

def Payload.Spelled (p : Payload) (v : Json) : Prop :=
  ∃ ms units, v = .object ms ∧ Forall₂ UnitRecord.Spelled p.units units ∧
    HasFields [("version", .integer Payload.version), ("units", .list units),
      ("roots", .texts p.roots)] ms

/-! ## Members are found -/

namespace Json

variable {name : String} {v : Json} {ms : List (String × Json)}

theorem member?_eq_none (h : ∀ m ∈ ms, m.1 ≠ name) : member? name ms = none := by
  induction ms with
  | nil => rfl
  | cons m ms ih =>
    rw [member?, ih fun x hx => h x (List.mem_cons_of_mem _ hx)]
    exact if_neg (h m List.mem_cons_self)

/-- A member is found if no other one has its name. -/
theorem member?_eq_some (hv : (name, v) ∈ ms) (honly : ∀ m ∈ ms, m.1 = name → m.2 = v) :
    member? name ms = some v := by
  induction ms with
  | nil => cases hv
  | cons m ms ih =>
    obtain ⟨k, w⟩ := m
    have honly' := fun x hx => honly x (List.mem_cons_of_mem _ hx)
    rw [member?]
    by_cases hlater : (name, v) ∈ ms
    · rw [ih hlater honly']
    · have hnone : member? name ms = none := member?_eq_none fun m hm hname =>
        hlater (by rw [← hname, ← honly' m hm hname]; exact hm)
      obtain ⟨rfl, rfl⟩ := Prod.mk.inj ((List.mem_cons.1 hv).resolve_right hlater)
      rw [hnone]
      exact if_pos rfl

end Json

/-- All fields are found under their names. -/
theorem HasFields.member? {fields ms : List (String × Json)} (h : HasFields fields ms)
    (hdistinct : (fields.map (·.1)).Nodup) : ∀ m ∈ fields, Json.member? m.1 ms = some m.2 := by
  obtain ⟨others, hperm, hothers⟩ := h
  intro m hm
  refine Json.member?_eq_some (hperm.mem_iff.2 (List.mem_append_left _ hm)) fun x hx hname => ?_
  rcases List.mem_append.1 (hperm.mem_iff.1 hx) with hx | hx
  · rw [List.inj_on_of_nodup_map hdistinct hx hm hname]
  · exact absurd (List.mem_map_of_mem hm) (hname ▸ hothers x hx)

namespace Payload

open Checked

/-! ## Records are read -/

/-- A list is read if its items are. -/
theorem checkList_of_forall₂ {α : Type} {check : Json → Checked α} {R : α → Json → Prop}
    (hR : ∀ a v, R a v → check v = .ok a) {as : List α} {vs : List Json} (h : Forall₂ R as vs) :
    checkList check (.list vs) = .ok as := by
  have hitems : ∀ i, Checked.items check i vs = .ok as := by
    induction h with
    | nil => exact fun _ => rfl
    | cons ha _ ih =>
      intro i
      rw [Checked.items, hR _ _ ha, ih]
      rfl
  exact hitems 0

theorem checkText?_ofText? (o : Option String) : checkText? (.ofText? o) = .ok o := by
  cases o <;> rfl

theorem checkParameter_of_spelled (p : Parameter) (v : Json) (h : p.Spelled v) :
    checkParameter v = .ok p := by
  obtain ⟨ms, rfl, hms⟩ := h
  have hfields := hms.member? (by simp)
  simp only [List.forall_mem_cons] at hfields
  simp only [checkParameter, required, optional, hfields]
  rfl

/-- The children of a node are found as any other member is. -/
theorem checkChildren_eq (ms : List (String × Json)) :
    checkChildren ms
      = (Json.member? "children" ms).map fun v => below (.name "children") (checkNodes v) := by
  induction ms with
  | nil => rfl
  | cons m ms ih =>
    obtain ⟨name, v⟩ := m
    rw [checkChildren, ih, Json.member?]
    cases Json.member? "children" ms with
    | some w => rfl
    | none =>
      by_cases hname : name = "children" <;> simp [hname]

mutual

theorem checkNode_of_spelled (n : NodeRecord) {v : Json} (h : n.Spelled v) : checkNode v = .ok n := by
  match n with
  | .mk kind line checked callee children =>
    obtain ⟨ms, vs, rfl, hchildren, hms⟩ := h
    have hfields := hms.member? (by simp)
    simp only [List.forall_mem_cons] at hfields
    simp only [checkNode, required, optional, hfields, checkChildren_eq, checkText?_ofText?,
      Option.map_some, checkNodes, checkNodes_of_spelled children hchildren]
    rfl

theorem checkNodes_of_spelled (ns : List NodeRecord) {vs : List Json}
    (h : NodeRecord.SpelledAll ns vs) (i : Nat) : checkNodesFrom i vs = .ok ns := by
  match ns with
  | [] =>
    obtain rfl := h
    rfl
  | n :: ns =>
    obtain ⟨w, ws, rfl, hn, hns⟩ := h
    rw [checkNodesFrom, checkNode_of_spelled n hn, checkNodes_of_spelled ns hns]
    rfl

end

theorem checkBody_of_spelled {body : Option (List NodeRecord)} {v : Json}
    (h : NodeRecord.SpelledBody body v) : checkBody v = .ok body := by
  cases body with
  | none =>
    obtain rfl := h
    rfl
  | some ns =>
    obtain ⟨vs, rfl, hns⟩ := h
    simp only [checkBody, checkNodes, checkNodes_of_spelled ns hns]
    rfl

theorem checkFunction_of_spelled (f : FunctionRecord) (v : Json) (h : f.Spelled v) :
    checkFunction v = .ok f := by
  obtain ⟨ms, params, body, rfl, hparams, hbody, hms⟩ := h
  have hfields := hms.member? (by simp)
  simp only [List.forall_mem_cons] at hfields
  simp only [checkFunction, required, optional, hfields, checkText?_ofText?,
    checkList_of_forall₂ checkParameter_of_spelled hparams, checkBody_of_spelled hbody]
  rfl

theorem checkCall_of_spelled (c : CallRecord) (v : Json) (h : c.Spelled v) : checkCall v = .ok c := by
  obtain ⟨ms, rfl, hms⟩ := h
  have hfields := hms.member? (by simp)
  simp only [List.forall_mem_cons] at hfields
  simp only [checkCall, required, optional, hfields, checkText?_ofText?]
  rfl

theorem checkUnit_of_spelled (u : UnitRecord) (v : Json) (h : u.Spelled v) : checkUnit v = .ok u := by
  obtain ⟨ms, functions, calls, rfl, hfunctions, hcalls, hms⟩ := h
  have hfields := hms.member? (by simp)
  simp only [List.forall_mem_cons] at hfields
  simp only [checkUnit, required, optional, hfields, checkText?_ofText?,
    checkList_of_forall₂ checkFunction_of_spelled hfunctions,
    checkList_of_forall₂ checkCall_of_spelled hcalls]
  rfl

/-- A value that spells a payload is read as that payload. -/
theorem check_of_spelled {p : Payload} {v : Json} (h : p.Spelled v) : check v = .ok p := by
  obtain ⟨ms, units, rfl, hunits, hms⟩ := h
  have hroots : checkList checkText (.texts p.roots) = .ok p.roots := by
    refine checkList_of_forall₂ (R := fun s v => v = .text s) (fun s v hv => by rw [hv]; rfl) ?_
    simp [List.forall₂_map_right_iff, List.forall₂_same]
  have hfields := hms.member? (by simp)
  simp only [List.forall_mem_cons] at hfields
  simp only [check, optional, hfields, checkList_of_forall₂ checkUnit_of_spelled hunits, hroots]
  rfl

/-! ## A payload with one call -/

/-- A character that needs no escape. -/
def isPlain (c : Char) : Bool := 0x20 ≤ c.toNat && c ≠ '"' && c ≠ '\\'

/-- A text between quotes as it is. -/
def quote (s : String) : List Char := '"' :: s.toList ++ ['"']

section

open Json

variable {bound : Nat → Prop} {name : String} {v : Json} {ms : List (String × Json)}
  {m : String × Json} {cs rest : List Char}

theorem quoted_quote {s : String} (h : s.toList.all isPlain = true) : Quoted s (quote s) := by
  refine ⟨s.toList, rfl, ?_⟩
  generalize s.toList = cs at h
  induction cs with
  | nil => exact .nil
  | cons c cs ih =>
    simp only [List.all_cons, isPlain, Bool.and_eq_true, decide_eq_true_eq] at h
    obtain ⟨⟨⟨hc, hquote⟩, hslash⟩, hcs⟩ := h
    exact .plain hc hquote hslash (ih hcs)

theorem spellsMembers_single (hname : Quoted name (quote name)) (hv : Spells bound v cs) :
    SpellsMembers bound [(name, v)] (quote name ++ ':' :: cs) :=
  ⟨_, _, rfl, padded_self hname, padded_self hv⟩

theorem spellsMembers_cons (hname : Quoted name (quote name)) (hv : Spells bound v cs)
    (hms : SpellsMembers bound (m :: ms) rest) :
    SpellsMembers bound ((name, v) :: m :: ms) (quote name ++ ':' :: (cs ++ ',' :: rest)) :=
  ⟨_, _, _, rfl, padded_self hname, padded_self hv, hms⟩

end

/-- One unit with one call. -/
def oneCall : Payload :=
  { units := [{ path := "a", calls := [{ caller := "f", callee := some "g", line := 7 }] }]
    roots := ["f"] }

def callMembers : List (String × Json) :=
  [("line", .integer 7), ("caller", .text "f"), ("callee", .text "g"), ("target", .text "")]

def unitMembers : List (String × Json) :=
  [("calls", .list [.object callMembers]), ("path", .text "a"), ("text", .text ""),
    ("parse_error", .null), ("functions", .list [])]

/-- The payload with its fields out of order, and with a number that is no field of it. -/
def noted (n : Nat) : Json :=
  .object [("note", .integer n), ("roots", .texts ["f"]),
    ("units", .list [.object unitMembers]), ("version", .integer 1)]

def callText : List Char :=
  quote "line" ++ ':' :: (['7'] ++ ',' :: (quote "caller" ++ ':' :: (quote "f" ++ ',' ::
    (quote "callee" ++ ':' :: (quote "g" ++ ',' :: (quote "target" ++ ':' :: quote ""))))))

def unitText : List Char :=
  quote "calls" ++ ':' :: (('[' :: ('\x7b' :: callText ++ ['\x7d']) ++ [']']) ++ ',' ::
    (quote "path" ++ ':' :: (quote "a" ++ ',' :: (quote "text" ++ ':' :: (quote "" ++ ',' ::
    (quote "parse_error" ++ ':' :: (['n', 'u', 'l', 'l'] ++ ',' ::
    (quote "functions" ++ ':' :: ['[', ']']))))))))

/-- A text of it, with blanks around the number and with an escape in the root. -/
def notedText (digits : List Char) : List Char :=
  '\x7b' :: (quote "note" ++ ':' :: (([' '] ++ digits ++ ['\n']) ++ ',' ::
    (quote "roots" ++ ':' :: (['[', '"', '\\', 'u', '0', '0', '6', '6', '"', ']'] ++ ',' ::
    (quote "units" ++ ':' :: (('[' :: ('\x7b' :: unitText ++ ['\x7d']) ++ [']']) ++ ',' ::
    (quote "version" ++ ':' :: ['1'])))))))
    ++ ['\x7d']

theorem noted_spelled (n : Nat) : oneCall.Spelled (noted n) := by
  have hcall : CallRecord.Spelled { caller := "f", callee := some "g", line := 7 }
      (.object callMembers) :=
    ⟨_, rfl, [], (List.perm_append_singleton _ _).symm, by simp⟩
  have hunit : UnitRecord.Spelled
      { path := "a", calls := [{ caller := "f", callee := some "g", line := 7 }] }
      (.object unitMembers) :=
    ⟨_, [], _, rfl, .nil, .cons hcall .nil, [], (List.perm_append_singleton _ _).symm, by simp⟩
  exact ⟨_, _, rfl, .cons hunit .nil, [("note", .integer n)], (List.reverse_perm _).symm, by simp⟩

theorem noted_document {bound : Nat → Prop} {digits : List Char} (h : Json.Whole bound digits)
    (hone : bound 1) :
    Json.Document bound (noted (Numeral.natOf digits)) (notedText digits) := by
  have hdigit : ∀ c, c.isDigit = true → Json.Whole bound [c] := fun c hc =>
    ⟨⟨by simp, by simpa using hc⟩, by simp, hone⟩
  have hcall : Json.SpellsMembers bound callMembers callText :=
    spellsMembers_cons (quoted_quote rfl) ⟨false, ['7'], hdigit _ rfl, rfl, rfl⟩ <|
    spellsMembers_cons (quoted_quote rfl) (quoted_quote rfl) <|
    spellsMembers_cons (quoted_quote rfl) (quoted_quote rfl) <|
    spellsMembers_single (quoted_quote rfl) (quoted_quote rfl)
  have hunit : Json.SpellsMembers bound unitMembers unitText :=
    spellsMembers_cons (quoted_quote rfl) ⟨_, rfl, Json.padded_self ⟨_, rfl, hcall⟩⟩ <|
    spellsMembers_cons (quoted_quote rfl) (quoted_quote rfl) <|
    spellsMembers_cons (quoted_quote rfl) (quoted_quote rfl) <|
    spellsMembers_cons (quoted_quote rfl) rfl <|
    spellsMembers_single (quoted_quote rfl) ⟨[], rfl, Json.blanks_nil⟩
  have hroot : Json.Quoted "f" ['"', '\\', 'u', '0', '0', '6', '6', '"'] :=
    ⟨['\\', 'u', '0', '0', '6', '6'], rfl,
      .unit (u := 0x66) ⟨0, 0, 6, 6, ⟨by decide, .inl rfl⟩, ⟨by decide, .inl rfl⟩, ⟨by decide, .inl rfl⟩,
        ⟨by decide, .inl rfl⟩, rfl⟩ (by decide) .nil⟩
  have hnote : Json.Padded (Json.Spells bound (.integer (Numeral.natOf digits)))
      ([' '] ++ digits ++ ['\n']) :=
    ⟨[' '], digits, ['\n'], rfl, by simp [Json.Blanks], ⟨false, digits, h, rfl, rfl⟩,
      by simp [Json.Blanks]⟩
  refine Json.padded_self ⟨_, rfl, _, _, _, rfl, Json.padded_self (quoted_quote rfl), hnote, ?_⟩
  exact
    spellsMembers_cons (quoted_quote rfl) ⟨_, rfl, Json.padded_self hroot⟩ <|
    spellsMembers_cons (quoted_quote rfl) ⟨_, rfl, Json.padded_self ⟨_, rfl, hunit⟩⟩ <|
    spellsMembers_single (quoted_quote rfl) ⟨false, ['1'], hdigit _ rfl, rfl, rfl⟩

theorem noted_nesting (n : Nat) : (noted n).nesting ≤ Json.nestingLimit := by
  simp [noted, unitMembers, callMembers, Json.texts, Json.nesting, Json.nestingOfMembers,
    Json.nestingOfItems, Json.nestingLimit]

theorem noted_refused {digits : List Char} (hdigits : Json.Digits digits)
    (hlong : Numeral.maxFigures < digits.length) :
    ofText (String.ofList (notedText digits)) = .error [{ kind := .jsonInvalid }] := by
  obtain ⟨rest, hrest⟩ : ∃ rest, notedText digits
      = '\x7b' :: (quote "note" ++ ':' :: (([' '] ++ digits ++ ['\n']) ++ ',' :: rest)) :=
    ⟨_, by simp only [notedText, List.cons_append, List.append_assoc]; rfl⟩
  have hkey : Json.Padded (Json.Quoted "note") (quote "note") :=
    Json.padded_self (quoted_quote rfl)
  unfold ofText
  rw [hrest, Json.parse?_eq_none hkey (by simp [Json.Blanks]) hdigits hlong (by simp [Json.Blanks])]
  rfl

/-- A one with zeros behind it. -/
def tenToThe (n : Nat) : List Char := '1' :: List.replicate n '0'

theorem length_tenToThe (n : Nat) : (tenToThe n).length = n + 1 := by simp [tenToThe]

theorem whole_tenToThe {bound : Nat → Prop} {n : Nat} (h : bound (n + 1)) :
    Json.Whole bound (tenToThe n) := by
  refine ⟨⟨by simp [tenToThe], ?_⟩, by simp [tenToThe], by rwa [length_tenToThe]⟩
  refine List.forall_mem_cons.2 ⟨rfl, fun c hc => ?_⟩
  rw [List.eq_of_mem_replicate hc]
  rfl

/-! ## Texts of payloads -/

/-- **Payloads in full are read.** A text spells every field of every record of a payload, in any order
and among whatever other members, with any blanks and escapes that JSON allows. It is read as that
payload, as a text and as bytes, if no number in it has too many digits in front of its point, and if
nothing is nested too deep. -/
theorem round_trip (p : Payload) (v : Json) (s : String) (hv : p.Spelled v)
    (hs : Json.Document (· ≤ Numeral.maxFigures) v s.toList) (hnesting : v.nesting ≤ Json.nestingLimit) :
    ofText s = .ok p ∧ ofBytes s.toUTF8 = .ok p := by
  have htext : ofText s = .ok p := by
    unfold ofText
    rw [Json.parse?_of_document hs hnesting]
    exact check_of_spelled hv
  have hbytes : String.fromUTF8? s.toUTF8 = some s := dif_pos s.isValidUTF8
  refine ⟨htext, ?_⟩
  unfold ofBytes
  rw [hbytes]
  exact htext

/-- With a number of 4300 digits beside its fields the payload is read. -/
theorem round_trip_noted :
    let v := noted (Numeral.natOf (tenToThe 4299))
    let s := String.ofList (notedText (tenToThe 4299))
    oneCall.Spelled v ∧ Json.Document (· ≤ Numeral.maxFigures) v s.toList ∧
      v.nesting ≤ Json.nestingLimit ∧ ofText s = .ok oneCall ∧ ofBytes s.toUTF8 = .ok oneCall := by
  intro v s
  have hs : Json.Document (· ≤ Numeral.maxFigures) v s.toList := by
    rw [String.toList_ofList]
    exact noted_document (whole_tenToThe (by decide)) (by decide)
  exact ⟨noted_spelled _, hs, noted_nesting _,
    round_trip oneCall v s (noted_spelled _) hs (noted_nesting _)⟩

/-- With one digit more it is refused, though the number is no field of it. -/
theorem round_trip_long :
    let v := noted (Numeral.natOf (tenToThe 4300))
    let s := String.ofList (notedText (tenToThe 4300))
    oneCall.Spelled v ∧ Json.Document (fun _ => True) v s.toList ∧
      v.nesting ≤ Json.nestingLimit ∧ ofText s = .error [{ kind := .jsonInvalid }] := by
  intro v s
  have hwhole : Json.Whole (fun _ => True) (tenToThe 4300) := whole_tenToThe trivial
  have hlong : Numeral.maxFigures < (tenToThe 4300).length := by
    rw [length_tenToThe]
    decide
  refine ⟨noted_spelled _, ?_, noted_nesting _, noted_refused hwhole.digits hlong⟩
  rw [String.toList_ofList]
  exact noted_document hwhole trivial

end Payload
end AsyncMigration
