import Mathlib.Data.List.TakeWhile
import AsyncMigration.FrontEnd.Load
import AsyncMigration.Proofs.Building
import AsyncMigration.Proofs.Faults
import AsyncMigration.Proofs.Records

/-!
# What is read keeps within the limits

In a text that is read as a payload no integer is too long to be printed, and lists and objects are nested
only so deep. So there is room to convert the units of the payload, and whatever is wrong with them can be
said.

* `Json.fits_of_parse?` — what a text spells keeps within the limits.
* `Payload.bounded_of_ofText` — so does the payload that it is read as.
* `Payload.convert_of_ofText` — the units of a payload that is read can be converted.
* `Session.not_unprintable` — what is said of units that keep within the limits can be printed.
-/

namespace AsyncMigration

/-! ## Numerals -/

namespace Numeral

variable {cs : List Char} {i : Int}

theorem toNat_sub_lt_of_isDigit {c : Char} (h : c.isDigit = true) : c.toNat - 48 < 10 := by
  simp only [Char.isDigit, Bool.and_eq_true, decide_eq_true_eq] at h
  have hle : c.toNat ≤ 57 := h.2
  omega

theorem foldl_digits_lt {ds : List Char} (hds : ∀ c ∈ ds, c.isDigit = true) (n : Nat) :
    ds.foldl (fun n c => 10 * n + (c.toNat - 48)) n < (n + 1) * 10 ^ ds.length := by
  induction ds generalizing n with
  | nil => simp
  | cons c ds ih =>
    have hc := toNat_sub_lt_of_isDigit (hds c List.mem_cons_self)
    have hrest := ih (fun d hd => hds d (List.mem_cons_of_mem _ hd)) (10 * n + (c.toNat - 48))
    rw [List.foldl_cons, List.length_cons, Nat.pow_succ]
    calc _ < (10 * n + (c.toNat - 48) + 1) * 10 ^ ds.length := hrest
      _ ≤ (10 * (n + 1)) * 10 ^ ds.length := Nat.mul_le_mul_right _ (by omega)
      _ = (n + 1) * (10 ^ ds.length * 10) := by rw [Nat.mul_comm 10, Nat.mul_assoc, Nat.mul_comm 10]

/-- A number has as many figures as it is spelled with, or fewer. -/
theorem natOf_lt_pow {ds : List Char} (hds : ∀ c ∈ ds, c.isDigit = true) :
    natOf ds < 10 ^ ds.length := by
  have hlt := foldl_digits_lt hds 0
  rwa [Nat.zero_add, Nat.one_mul] at hlt

/-- Unless it starts with a plus, an integer is spelled with a minus at most and its figures. -/
theorem splitSign_of_not_plus (hplus : cs.head? ≠ some '+') :
    (splitSign cs).2 = if cs.head? = some '-' then cs.tail else cs := by
  unfold splitSign
  split
  · rfl
  · exact absurd rfl hplus
  · next hminus _ =>
    rw [if_neg]
    intro hhead
    obtain ⟨ds, rfl⟩ := List.head?_eq_some_iff.1 hhead
    exact hminus ds rfl

/-- An integer that is spelled without a plus, and with few enough figures, is not too long. -/
theorem not_tooLong_of_int? (h : int? cs = some i) (hplus : cs.head? ≠ some '+')
    (hfigures : ((if cs.head? = some '-' then cs.tail else cs).takeWhile Char.isDigit).length
      ≤ maxFigures) : ¬ TooLong i := by
  unfold int? at h
  dsimp only at h
  split at h
  · next hdigits =>
    simp only [isDigits, Bool.and_eq_true, List.all_eq_true] at hdigits
    have hlt := natOf_lt_pow hdigits.2
    rw [← splitSign_of_not_plus hplus, List.takeWhile_eq_self_iff.2 hdigits.2] at hfigures
    have hpow : 10 ^ (splitSign cs).2.length ≤ 10 ^ maxFigures :=
      Nat.pow_le_pow_right (by decide) hfigures
    have habs : i.natAbs = natOf (splitSign cs).2 := by
      cases h
      split <;> simp
    rw [TooLong, habs, Nat.not_le]
    exact Nat.lt_of_lt_of_le hlt hpow
  · cases h

theorem not_tooLong_of_lt (h : i.natAbs < Nat.pow 2 63) : ¬ TooLong i := by
  intro hlong
  have hword : Nat.pow 2 63 ≤ 10 ^ 19 := by decide
  have hpow : 10 ^ 19 ≤ 10 ^ maxFigures := Nat.pow_le_pow_right (by decide) (by decide)
  exact Nat.lt_irrefl _ (h.trans_le (hword.trans (hpow.trans hlong)))

end Numeral

theorem IntegerText.not_tooLong_of_plain {cs : List Char} {i : Int} (h : plain cs = .ok i) :
    ¬ Numeral.TooLong i := by
  unfold plain at h
  dsimp only at h
  have hplus : cs.head? = some '+' → (if cs.head? = some '-' then cs.tail else cs) = cs := by
    intro hhead
    simp [hhead]
  generalize hunsigned : (if cs.head? = some '-' then cs.tail else cs) = unsigned at h hplus
  split at h
  · cases h
  next hlong =>
  split at h
  · cases h
  next hplain =>
  split at h
  · next j hj =>
    cases h
    simp only [Bool.or_eq_true, Bool.and_eq_true, decide_eq_true_eq, Bool.not_eq_true', not_or,
      not_and, Bool.not_eq_false, not_lt] at hlong hplain
    refine Numeral.not_tooLong_of_int? hj ?_ ?_
    · intro hhead
      obtain rfl := hplus hhead
      obtain ⟨ds, rfl⟩ := List.head?_eq_some_iff.1 hhead
      exact absurd hplain.1 (by simp [show Char.isDigit '+' = false from rfl])
    · rw [hunsigned]
      by_cases hzero : (unsigned.takeWhile Char.isDigit).head? = some '0'
      · rw [not_not.1 (hplain.2 hzero)]
        decide
      · exact hlong hzero
  · cases h

theorem IntegerText.not_tooLong_of_read {s : String} {i : Int} (h : read s = .ok i) :
    ¬ Numeral.TooLong i := by
  unfold read at h
  split at h
  · split at h
    · next j hj =>
      cases h
      obtain ⟨cs, -, hcs⟩ := Option.map_eq_some_iff.1 hj
      exact not_tooLong_of_plain hcs
    · cases h
  · exact not_tooLong_of_plain h

/-! ## Values -/

namespace Json

mutual

/-- A value inside `d` lists and objects keeps within the limits: no integer in it is too long, and lists
and objects with something in them are not nested too deep. -/
def Fits (d : Nat) : Json → Prop
  | .integer i => d ≤ nestingLimit ∧ ¬ Numeral.TooLong i
  | .list items => d ≤ nestingLimit ∧ FitsItems (d + 1) items
  | .object members => d ≤ nestingLimit ∧ FitsMembers (d + 1) members
  | _ => d ≤ nestingLimit

/-- Each item inside `d` lists and objects keeps within the limits. -/
def FitsItems (d : Nat) : List Json → Prop
  | [] => True
  | v :: vs => Fits d v ∧ FitsItems d vs

/-- Each member inside `d` lists and objects keeps within the limits. -/
def FitsMembers (d : Nat) : List (String × Json) → Prop
  | [] => True
  | (_, v) :: ms => Fits d v ∧ FitsMembers d ms

end

variable {d : Nat} {v : Json} {items : List Json} {members : List (String × Json)}

theorem Fits.le (h : v.Fits d) : d ≤ nestingLimit := by
  cases v <;> simp only [Fits] at h <;> first | exact h | exact h.1

theorem fitsItems_iff : FitsItems d items ↔ ∀ v ∈ items, v.Fits d := by
  induction items with
  | nil => simp [FitsItems]
  | cons v vs ih => rw [FitsItems, ih, List.forall_mem_cons]

theorem fitsMembers_iff : FitsMembers d members ↔ ∀ m ∈ members, m.2.Fits d := by
  induction members with
  | nil => simp [FitsMembers]
  | cons m ms ih => rw [FitsMembers, ih, List.forall_mem_cons]

theorem eq_some_of_unless {α : Type} {x y : Option α} {a : α} {whole fraction exponent plain : Bool}
    (h : (if !whole || fraction || !exponent then none else if plain then x else y) = some a) :
    whole = true ∧ (x = some a ∨ y = some a) := by
  cases whole <;> cases fraction <;> cases exponent <;> cases plain <;> simp_all

/-- A word that stands for an integer has few enough figures. -/
theorem fits_of_number? {cs : List Char} (hd : d ≤ nestingLimit) (h : number? cs = some v) :
    v.Fits d := by
  obtain ⟨hwhole, h⟩ := eq_some_of_unless h
  rcases h with h | h
  · obtain ⟨i, hi, rfl⟩ := Option.map_eq_some_iff.1 h
    simp only [Bool.and_eq_true, decide_eq_true_eq] at hwhole
    refine ⟨hd, Numeral.not_tooLong_of_int? hi ?_ hwhole.2⟩
    intro hplus
    obtain ⟨ds, rfl⟩ := List.head?_eq_some_iff.1 hplus
    exact absurd hwhole.1 (by simp [show Char.isDigit '+' = false from rfl])
  · obtain ⟨x, -, rfl⟩ := Option.map_eq_some_iff.1 h
    exact hd

theorem fits_of_wordValue? {cs : List Char} (hd : d ≤ nestingLimit) (h : wordValue? cs = some v) :
    v.Fits d := by
  unfold wordValue? at h
  split at h
  all_goals first
    | exact fits_of_number? hd h
    | (cases h; exact hd)

/-- What has been read of a list or object, inside `d` lists and objects, keeps within the limits. -/
def Opened.Fits (d : Nat) : Opened → Prop
  | .list items => FitsItems d items
  | .object members | .member members _ => FitsMembers d members

namespace Machine

/-- What has been read of the lists and objects that are open keeps within the limits. -/
def StackFits : List Opened → Prop
  | [] => True
  | o :: rest => o.Fits (rest.length + 1) ∧ StackFits rest

/-- There is something in all lists and objects that are open, perhaps not in the innermost one if it has
just been opened, and they are not nested too deep. -/
def Expected.Fits (depth : Nat) : Expected → Prop
  | .firstItem | .firstName => depth ≤ nestingLimit + 1
  | .nothing v => v.Fits 0
  | _ => depth ≤ nestingLimit

/-- What a machine has read keeps within the limits. -/
structure Fits (m : Machine) : Prop where
  opened : StackFits m.opened
  expected : Expected.Fits m.opened.length m.expected

variable {m m' : Machine} {opened : List Opened}

theorem fits_of_complete (h : complete v opened = some m) (hopened : StackFits opened)
    (hv : v.Fits opened.length) : m.Fits := by
  unfold complete at h
  split at h
  · cases h
    exact ⟨trivial, hv⟩
  · cases h
    exact ⟨⟨⟨hv, hopened.1⟩, hopened.2⟩, hv.le⟩
  · cases h
    exact ⟨⟨⟨hv, hopened.1⟩, hopened.2⟩, hv.le⟩
  · cases h

theorem fits_of_beginValue {t : Token} (h : beginValue opened t = some m) (hopened : StackFits opened)
    (hdepth : opened.length ≤ nestingLimit) : m.Fits := by
  unfold beginValue at h
  split at h
  · cases h
    exact ⟨⟨trivial, hopened⟩, Nat.succ_le_succ hdepth⟩
  · cases h
    exact ⟨⟨trivial, hopened⟩, Nat.succ_le_succ hdepth⟩
  · exact fits_of_complete h hopened hdepth
  · obtain ⟨v, hv, h⟩ := Option.bind_eq_some_iff.1 h
    exact fits_of_complete h hopened (fits_of_wordValue? hdepth hv)
  · cases h

theorem fits_of_finish (h : finish opened = some m) (hopened : StackFits opened)
    (hdepth : opened.length ≤ nestingLimit + 1) : m.Fits := by
  unfold finish at h
  split at h
  · obtain ⟨hitems, hrest⟩ := hopened
    refine fits_of_complete h hrest ⟨Nat.le_of_succ_le_succ hdepth, fitsItems_iff.2 fun v hv => ?_⟩
    exact fitsItems_iff.1 hitems v (List.mem_reverse.1 hv)
  · obtain ⟨hmembers, hrest⟩ := hopened
    refine fits_of_complete h hrest ⟨Nat.le_of_succ_le_succ hdepth, fitsMembers_iff.2 fun v hv => ?_⟩
    exact fitsMembers_iff.1 hmembers v (List.mem_reverse.1 hv)
  · cases h

theorem fits_of_takeName {t : Token} (h : takeName opened t = some m) (hopened : StackFits opened)
    (hdepth : opened.length ≤ nestingLimit) : m.Fits := by
  unfold takeName at h
  split at h
  · cases h
    exact ⟨hopened, hdepth⟩
  · cases h

/-- A step keeps within the limits. -/
theorem Fits.step {t : Token} (hm : m.Fits) (h : m.step t = some m') : m'.Fits := by
  obtain ⟨opened, expected⟩ := m
  obtain ⟨hopened, hexpected⟩ := hm
  unfold Machine.step at h
  dsimp only at h hopened hexpected
  split at h
  · exact fits_of_beginValue h hopened hexpected
  · exact fits_of_finish h hopened hexpected
  · split at h
    · next hdepth => exact fits_of_beginValue h hopened hdepth
    · cases h
  · cases h
    exact ⟨hopened, hexpected⟩
  · exact fits_of_finish h hopened (Nat.le_succ_of_le hexpected)
  · exact fits_of_finish h hopened hexpected
  · split at h
    · next hdepth => exact fits_of_takeName h hopened hdepth
    · cases h
  · exact fits_of_takeName h hopened hexpected
  · cases h
    exact ⟨hopened, hexpected⟩
  · cases h
    exact ⟨hopened, hexpected⟩
  · exact fits_of_finish h hopened (Nat.le_succ_of_le hexpected)
  · cases h

theorem Fits.run {ts : List Token} (hm : m.Fits) (h : m.run ts = some m') : m'.Fits := by
  induction ts generalizing m with
  | nil =>
    cases h
    exact hm
  | cons t ts ih =>
    obtain ⟨m₁, hstep, hrest⟩ := Option.bind_eq_some_iff.1 h
    exact ih (hm.step hstep) hrest

end Machine

/-- What a text spells keeps within the limits. -/
theorem fits_of_parse? {s : String} (h : parse? s = some v) : v.Fits 0 := by
  obtain ⟨ts, -, h⟩ := Option.bind_eq_some_iff.1 h
  obtain ⟨m, hm, h⟩ := Option.bind_eq_some_iff.1 h
  have hstart : ({} : Machine).Fits := ⟨trivial, Nat.zero_le _⟩
  have hfits := (hstart.run hm).expected
  split at h
  · next w hw =>
    cases h
    rw [hw] at hfits
    exact hfits
  · cases h

theorem fits_of_member? {name : String} (h : member? name members = some v)
    (hmembers : FitsMembers d members) : v.Fits d := by
  induction members with
  | nil => cases h
  | cons m ms ih =>
    obtain ⟨k, w⟩ := m
    rw [member?] at h
    split at h
    · next w' hw' =>
      cases h
      exact ih hw' hmembers.2
    · split at h
      · cases h
        exact hmembers.1
      · cases h

end Json

/-! ## Payloads -/

mutual

/-- The lines of a node and of all below it can be printed. -/
def NodeRecord.Printable : NodeRecord → Prop
  | .mk _ line _ _ children => ¬ Numeral.TooLong line ∧ NodeRecord.PrintableAll children

/-- The lines of nodes and of all below them can be printed. -/
def NodeRecord.PrintableAll : List NodeRecord → Prop
  | [] => True
  | n :: ns => n.Printable ∧ NodeRecord.PrintableAll ns

end

/-- Nodes inside `d` lists and objects keep within the limits. -/
def NodeRecord.FitAll (d : Nat) (ns : List NodeRecord) : Prop :=
  NodeRecord.PrintableAll ns ∧
    2 * BodyElement.heights (NodeRecord.toElements ns) + d ≤ Json.nestingLimit + 2

/-- A function record keeps within the limits: its lines can be printed, and its nodes are not nested
too deep. -/
structure FunctionRecord.Bounded (f : FunctionRecord) : Prop where
  line : ¬ Numeral.TooLong f.line
  body : ∀ nodes, f.body = some nodes → NodeRecord.FitAll 0 nodes

/-- A unit record keeps within the limits. -/
structure UnitRecord.Bounded (u : UnitRecord) : Prop where
  functions : ∀ f ∈ u.functions, f.Bounded
  calls : ∀ c ∈ u.calls, ¬ Numeral.TooLong c.line

namespace Payload

open Checked

variable {α β : Type} {d : Nat} {v : Json} {ms : List (String × Json)} {name : String}

theorem ap_eq_ok {f : Checked (α → β)} {x : Checked α} {b : β} (h : ap f x = .ok b) :
    ∃ g a, f = .ok g ∧ x = .ok a ∧ g a = b := by
  unfold ap at h
  split at h
  · cases h
    exact ⟨_, _, rfl, rfl, rfl⟩
  all_goals cases h

theorem map_eq_ok_checked {f : α → β} {x : Checked α} {b : β} (h : f <$> x = .ok b) :
    ∃ a, x = .ok a ∧ f a = b := by
  cases x with
  | error ps => cases h
  | ok a =>
    cases h
    exact ⟨a, rfl, rfl⟩

theorem below_eq_ok {step : PlaceStep} {x : Checked α} {a : α} (h : below step x = .ok a) :
    x = .ok a := by
  cases x with
  | error ps => cases h
  | ok b => exact h

theorem of_required {P : α → Prop} {check : Json → Checked α} {a : α}
    (h : required ms name check = .ok a) (hms : Json.FitsMembers d ms)
    (hcheck : ∀ v a, v.Fits d → check v = .ok a → P a) : P a := by
  have h := below_eq_ok h
  split at h
  · next v hv => exact hcheck v a (Json.fits_of_member? hv hms) h
  · cases h

theorem of_optional {P : α → Prop} {check : Json → Checked α} {default a : α}
    (h : optional ms name check default = .ok a) (hms : Json.FitsMembers d ms) (hdefault : P default)
    (hcheck : ∀ v a, v.Fits d → check v = .ok a → P a) : P a := by
  unfold optional at h
  split at h
  · next v hv => exact hcheck v a (Json.fits_of_member? hv hms) (below_eq_ok h)
  · cases h
    exact hdefault

theorem of_items {P : α → Prop} {check : Json → Checked α} {vs : List Json} {as : List α} {i : Nat}
    (h : Checked.items check i vs = .ok as) (hcheck : ∀ v ∈ vs, ∀ a, check v = .ok a → P a) :
    ∀ a ∈ as, P a := by
  induction vs generalizing as i with
  | nil =>
    cases h
    simp
  | cons v vs ih =>
    obtain ⟨g, rest, hg, hrest, rfl⟩ := ap_eq_ok h
    obtain ⟨a, ha, rfl⟩ := map_eq_ok_checked hg
    have hfirst := hcheck v List.mem_cons_self a (below_eq_ok ha)
    exact List.forall_mem_cons.2 ⟨hfirst, ih hrest fun w hw => hcheck w (List.mem_cons_of_mem _ hw)⟩

theorem of_checkList {P : α → Prop} {check : Json → Checked α} {as : List α}
    (h : checkList check v = .ok as) (hv : v.Fits d)
    (hcheck : ∀ v a, v.Fits (d + 1) → check v = .ok a → P a) : ∀ a ∈ as, P a := by
  unfold checkList at h
  split at h
  · exact of_items h fun w hw a ha => hcheck w a (Json.fitsItems_iff.1 hv.2 w hw) ha
  · cases h

theorem not_tooLong_of_checkInteger {i : Int} (hv : v.Fits d) (h : checkInteger v = .ok i) :
    ¬ Numeral.TooLong i := by
  unfold checkInteger at h
  split at h
  · cases h
    exact hv.2
  · cases h
    split <;> exact Numeral.printable_iff.1 (by decide)
  · unfold integerOfReal at h
    split at h
    · cases h
    split at h
    · cases h
    split at h
    · next hlt =>
      cases h
      exact Numeral.not_tooLong_of_lt hlt
    · cases h
  · split at h
    · next hread =>
      cases h
      exact IntegerText.not_tooLong_of_read hread
    · cases h
    · cases h
  · cases h

theorem not_tooLong_of_optional {default line : Int}
    (h : optional ms name checkInteger default = .ok line) (hms : Json.FitsMembers d ms)
    (hdefault : Numeral.printable default = true) : ¬ Numeral.TooLong line :=
  of_optional (P := fun line => ¬ Numeral.TooLong line) h hms (Numeral.printable_iff.1 hdefault)
    fun _ _ => not_tooLong_of_checkInteger

-- a node and the list of what it holds take two levels, which the limit of a text counts as two as well
mutual

theorem fit_of_checkNode (v : Json) {d : Nat} {n : NodeRecord} (hv : v.Fits d)
    (h : checkNode v = .ok n) :
    n.Printable ∧ 2 * n.toElement.height + d ≤ Json.nestingLimit + 2 := by
  match v with
  | .object ms =>
    rw [checkNode] at h
    obtain ⟨g₁, children, h₁, hchildren, rfl⟩ := ap_eq_ok h
    obtain ⟨g₂, callee, h₂, -, rfl⟩ := ap_eq_ok h₁
    obtain ⟨g₃, checked, h₃, -, rfl⟩ := ap_eq_ok h₂
    obtain ⟨g₄, line, h₄, hline, rfl⟩ := ap_eq_ok h₃
    obtain ⟨kind, -, rfl⟩ := map_eq_ok_checked h₄
    have hshort : ¬ Numeral.TooLong line :=
      of_required (P := fun line => ¬ Numeral.TooLong line) hline hv.2 fun _ _ =>
        not_tooLong_of_checkInteger
    have hbelow : NodeRecord.FitAll (d + 2) children := by
      cases hfound : checkChildren ms with
      | none =>
        rw [hfound] at hchildren
        cases hchildren
        have hd := hv.le
        exact ⟨trivial, by simp only [NodeRecord.toElements, BodyElement.heights]; omega⟩
      | some x =>
        rw [hfound] at hchildren
        exact fit_of_checkChildren ms hv.2 (hfound.trans (congrArg some hchildren))
    rw [NodeRecord.Printable, NodeRecord.toElement, BodyElement.height]
    exact ⟨⟨hshort, hbelow.1⟩, by have := hbelow.2; omega⟩
  | .null | .bool _ | .integer _ | .real _ | .text _ | .list _ => simp [checkNode, problem] at h

theorem fit_of_checkChildren (ms : List (String × Json)) {d : Nat} {ns : List NodeRecord}
    (hms : Json.FitsMembers d ms) (h : checkChildren ms = some (.ok ns)) :
    NodeRecord.FitAll (d + 1) ns := by
  match ms with
  | [] => simp [checkChildren] at h
  | (name, v) :: ms =>
    rw [checkChildren] at h
    split at h
    · next x hx =>
      cases h
      exact fit_of_checkChildren ms hms.2 hx
    · split at h
      · exact fit_of_checkNodes v hms.1 (below_eq_ok (Option.some.inj h))
      · cases h

theorem fit_of_checkNodes (v : Json) {d : Nat} {ns : List NodeRecord} (hv : v.Fits d)
    (h : checkNodes v = .ok ns) : NodeRecord.FitAll (d + 1) ns := by
  match v with
  | .list items =>
    rw [checkNodes] at h
    exact fit_of_checkNodesFrom items (Nat.succ_le_succ hv.1) hv.2 h
  | .null | .bool _ | .integer _ | .real _ | .text _ | .object _ => simp [checkNodes, problem] at h

theorem fit_of_checkNodesFrom (vs : List Json) {d i : Nat} {ns : List NodeRecord}
    (hd : d ≤ Json.nestingLimit + 1) (hvs : Json.FitsItems d vs) (h : checkNodesFrom i vs = .ok ns) :
    NodeRecord.FitAll d ns := by
  match vs with
  | [] =>
    cases h
    exact ⟨trivial, by simp only [NodeRecord.toElements, BodyElement.heights]; omega⟩
  | v :: vs =>
    rw [checkNodesFrom] at h
    obtain ⟨g₁, rest, h₁, hrest, rfl⟩ := ap_eq_ok h
    obtain ⟨n, hn, rfl⟩ := map_eq_ok_checked h₁
    obtain ⟨hprintable, hheight⟩ := fit_of_checkNode v hvs.1 (below_eq_ok hn)
    obtain ⟨hprintables, hheights⟩ := fit_of_checkNodesFrom vs hd hvs.2 hrest
    refine ⟨⟨hprintable, hprintables⟩, ?_⟩
    rw [NodeRecord.toElements, BodyElement.heights]
    omega

end

theorem fit_of_checkBody {nodes : List NodeRecord} (hv : v.Fits d)
    (h : checkBody v = .ok (some nodes)) : NodeRecord.FitAll 0 nodes := by
  unfold checkBody at h
  split at h
  · cases h
  · obtain ⟨ns, hns, heq⟩ := map_eq_ok_checked h
    cases heq
    obtain ⟨hprintable, hheights⟩ := fit_of_checkNodes v hv hns
    exact ⟨hprintable, by omega⟩

theorem bounded_of_checkFunction {f : FunctionRecord} (hv : v.Fits d) (h : checkFunction v = .ok f) :
    f.Bounded := by
  unfold checkFunction at h
  split at h
  · obtain ⟨g₁, body, h₁, hbody, rfl⟩ := ap_eq_ok h
    obtain ⟨g₂, structured, h₂, -, rfl⟩ := ap_eq_ok h₁
    obtain ⟨g₃, protocol, h₃, -, rfl⟩ := ap_eq_ok h₂
    obtain ⟨g₄, interop, h₄, -, rfl⟩ := ap_eq_ok h₃
    obtain ⟨g₅, returns, h₅, -, rfl⟩ := ap_eq_ok h₄
    obtain ⟨g₆, params, h₆, -, rfl⟩ := ap_eq_ok h₅
    obtain ⟨g₇, line, h₇, hline, rfl⟩ := ap_eq_ok h₆
    obtain ⟨name, -, rfl⟩ := map_eq_ok_checked h₇
    constructor
    · exact not_tooLong_of_optional hline hv.2 (by decide)
    · refine of_optional (P := fun b => ∀ nodes, b = some nodes → NodeRecord.FitAll 0 nodes) hbody hv.2 ?_ ?_
      · intro nodes hnodes
        cases hnodes
        exact ⟨trivial, by simp [NodeRecord.toElements, BodyElement.heights]⟩
      · rintro w b hw hb nodes rfl
        exact fit_of_checkBody hw hb
  · cases h

theorem not_tooLong_of_checkCall {c : CallRecord} (hv : v.Fits d) (h : checkCall v = .ok c) :
    ¬ Numeral.TooLong c.line := by
  unfold checkCall at h
  split at h
  · obtain ⟨g₁, line, h₁, hline, rfl⟩ := ap_eq_ok h
    obtain ⟨g₂, target, h₂, -, rfl⟩ := ap_eq_ok h₁
    obtain ⟨g₃, callee, h₃, -, rfl⟩ := ap_eq_ok h₂
    obtain ⟨caller, -, rfl⟩ := map_eq_ok_checked h₃
    exact not_tooLong_of_optional hline hv.2 (by decide)
  · cases h

theorem bounded_of_checkUnit {u : UnitRecord} (hv : v.Fits d) (h : checkUnit v = .ok u) :
    u.Bounded := by
  unfold checkUnit at h
  split at h
  · obtain ⟨g₁, calls, h₁, hcalls, rfl⟩ := ap_eq_ok h
    obtain ⟨g₂, functions, h₂, hfunctions, rfl⟩ := ap_eq_ok h₁
    obtain ⟨g₃, parseError, h₃, -, rfl⟩ := ap_eq_ok h₂
    obtain ⟨g₄, text, h₄, -, rfl⟩ := ap_eq_ok h₃
    obtain ⟨path, -, rfl⟩ := map_eq_ok_checked h₄
    constructor
    · refine of_optional (P := fun fs => ∀ f ∈ fs, f.Bounded) hfunctions hv.2 (by simp) ?_
      intro w fs hw hfs
      exact of_checkList hfs hw fun _ _ => bounded_of_checkFunction
    · refine of_optional (P := fun cs => ∀ c ∈ cs, ¬ Numeral.TooLong c.line) hcalls hv.2 (by simp) ?_
      intro w cs hw hcs
      exact of_checkList hcs hw fun _ _ => not_tooLong_of_checkCall
  · cases h

/-- A payload that is read from a text keeps within the limits. -/
theorem bounded_of_ofText {s : String} {p : Payload} (h : ofText s = .ok p) :
    ∀ u ∈ p.units, u.Bounded := by
  unfold ofText at h
  split at h
  · next v hv =>
    have hfits := Json.fits_of_parse? hv
    unfold check at h
    split at h
    · obtain ⟨g₁, roots, h₁, -, rfl⟩ := ap_eq_ok h
      obtain ⟨g₂, units, h₂, hunits, rfl⟩ := ap_eq_ok h₁
      obtain ⟨version, -, rfl⟩ := map_eq_ok_checked h₂
      refine of_optional (P := fun us => ∀ u ∈ us, u.Bounded) hunits hfits.2 (by simp) ?_
      intro w us hw hus
      exact of_checkList hus hw fun _ _ => bounded_of_checkUnit
    · cases h
  · cases h

end Payload

/-! ## Units -/

namespace NodeRecord

mutual

theorem not_tooLong_of_elementFault? (n : NodeRecord) {fault : BodyFault} (hn : n.Printable)
    (h : elementFault? n.toElement = some fault) : ∀ i ∈ fault.printed, ¬ Numeral.TooLong i := by
  match n with
  | .mk kind line checked callee children =>
    simp only [toElement, elementFault?] at h
    split at h
    · cases h
      simpa [BodyFault.printed] using hn.1
    split at h
    · cases h
      simpa [BodyFault.printed] using hn.1
    · exact not_tooLong_of_firstFault? children hn.2 h

theorem not_tooLong_of_firstFault? (ns : List NodeRecord) {fault : BodyFault} (hns : PrintableAll ns)
    (h : firstFault? (toElements ns) = some fault) : ∀ i ∈ fault.printed, ¬ Numeral.TooLong i := by
  match ns with
  | [] => simp [toElements, firstFault?] at h
  | n :: ns =>
    rw [toElements, firstFault?] at h
    split at h
    · next hn =>
      cases h
      exact not_tooLong_of_elementFault? n hns.1 hn
    · exact not_tooLong_of_firstFault? ns hns.2 h

end

end NodeRecord

theorem UnitRecord.Bounded.fits {d : UnitRecord} (hd : d.Bounded) : d.toUnit.Fits conversionRoom := by
  intro f hf body hbody
  obtain ⟨r, hr, rfl⟩ := List.mem_map.1 hf
  obtain ⟨nodes, hnodes, rfl⟩ := Option.map_eq_some_iff.1 hbody
  have hheights := ((hd.functions r hr).body nodes hnodes).2
  have hroom : Json.nestingLimit + 3 ≤ conversionRoom := by decide
  omega

/-- The units of a payload that is read can be converted. -/
theorem Payload.convert_of_ofText {s : String} {p : Payload} (h : ofText s = .ok p) :
    p.convert conversionRoom = .ok p.sourceUnits := by
  refine (mapM_eq_ok_iff_map UnitRecord.convert_eq_ok_iff).2 ⟨rfl, fun u hu => ?_⟩
  obtain ⟨d, hd, rfl⟩ := List.mem_map.1 hu
  exact (bounded_of_ofText h d hd).fits

namespace Session

/-- Whatever is wrong with units whose records keep within the limits can be said. -/
theorem not_unprintable {records : List UnitRecord} (h : ∀ d ∈ records, d.Bounded) :
    ¬ Unprintable (records.map UnitRecord.toUnit) := by
  rintro (⟨hu, -, hf, hfault, hi, hlong⟩ | ⟨hfailure, hi, hlong⟩)
  · obtain ⟨d, hd, rfl⟩ := List.mem_map.1 hu
    obtain ⟨r, hr, rfl⟩ := List.mem_map.1 hf
    rcases scanFunction_eq_error_iff.1 hfault with ⟨-, rfl⟩ | ⟨body, hbody, hfirst⟩
    · cases hi
    · obtain ⟨nodes, hnodes, rfl⟩ := Option.map_eq_some_iff.1 hbody
      have hprintable := (((h d hd).functions r hr).body nodes hnodes).1
      exact NodeRecord.not_tooLong_of_firstFault? nodes hprintable hfirst _ hi hlong
  · rcases List.mem_append.1 hfailure with hfailure | hfailure
    · obtain ⟨u, hu, f, hf, rfl⟩ := Catalog.exists_of_mem_failures_ofUnits hfailure hi
      obtain ⟨d, hd, rfl⟩ := List.mem_map.1 hu
      obtain ⟨r, hr, rfl⟩ := List.mem_map.1 hf
      exact ((h d hd).functions r hr).line hlong
    · obtain ⟨u, hu, s, hs, rfl⟩ := CallGraph.exists_of_mem_failures_ofUnits hfailure hi
      obtain ⟨d, hd, rfl⟩ := List.mem_map.1 hu
      obtain ⟨c, hc, rfl⟩ := List.mem_map.1 hs
      exact (h d hd).calls c hc hlong

end Session

/-- There is one front end, which reads payloads in JSON. -/
theorem select_frontEnds {paths : List PathName} {language : Option String} {f : PayloadFrontEnd}
    (h : frontEnds.select paths language = .ok f) : f = jsonFrontEnd := by
  unfold Registry.select at h
  split at h
  · unfold Registry.forLanguage at h
    split at h
    · next g hg =>
      cases h
      rw [frontEnds, Registry.ofDefault, Registry.byLanguage_register] at hg
      split at hg
      · exact (Option.some.inj hg).symm
      · cases hg
    · cases h
  · cases h
    unfold Registry.forPaths
    cases hfound : paths.findSome? fun p => frontEnds.bySuffix.get? (Text.lower p.suffix) with
    | none => rfl
    | some g =>
      obtain ⟨p, -, hp⟩ := List.exists_of_findSome?_eq_some hfound
      have hsuffixes : frontEnds.bySuffix
          = ({} : Table String PayloadFrontEnd).insert (Text.lower ".json") jsonFrontEnd := rfl
      rw [hsuffixes, Table.get?_insert] at hp
      split at hp
      · exact (Option.some.inj hp).symm
      · cases hp

end AsyncMigration
