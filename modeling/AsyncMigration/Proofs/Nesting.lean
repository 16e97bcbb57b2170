import AsyncMigration.Proofs.Bodies
import AsyncMigration.Proofs.Scores
import AsyncMigration.Proofs.Totality

/-!
# Nesting deeper

The body of a function is put into a closure. Everything in it is found again one level deeper, but
for the number of suspensions around a suspension, which closures do not count for. Decisions hang on
the kinds of patterns and on the callees that they name, and these are the same.

* `deeper_forestPatterns` — the patterns of a body one closure further down.
* `ScanReport.Deeper.maxNesting` — the greatest depth is one more.
* `CallGraph.decisionOn_congr` — decisions hang on the shape of scans.
* `Session.nesting_raises` — what a closure around a body changes, and what it does not.
-/

namespace AsyncMigration

/-! ## Patterns -/

/-- Two patterns are of the same kind and name the same callee. -/
structure Pattern.SameShape (p p' : Pattern) : Prop where
  kind : p.kind = p'.kind
  callee : p.callee = p'.callee

/-- A pattern is found again one closure further down. What is found nested is counted by suspensions
alone. -/
structure Pattern.Deeper (p p' : Pattern) : Prop extends p.SameShape p' where
  depth : p.kind.isMigration = true →
    p'.nestedDepth = p.nestedDepth + if p.kind = .nestedSuspension then 0 else 1

/-- A closure around elements. -/
def BodyElement.closure (line : Int) (children : List BodyElement) : BodyElement :=
  .node "closure" line true none children

open List (Forall₂)

theorem deeper_suspensionPatterns (function : String) (line : Int) (checked : Bool)
    (callee : Option String) (depth suspensions : Nat) :
    Forall₂ Pattern.Deeper (suspensionPatterns function line checked callee depth suspensions)
      (suspensionPatterns function line checked callee (depth + 1) suspensions) := by
  have hhere : ∀ k : PatternKind, k.isSuspension = true →
      Pattern.Deeper ⟨k, function, line, depth, callee⟩ ⟨k, function, line, (depth + 1 : Nat), callee⟩ := by
    intro k hk
    refine ⟨⟨rfl, rfl⟩, fun _ => ?_⟩
    have hne : k ≠ .nestedSuspension := by
      rintro rfl
      cases hk
    simp [hne]
  have hkind : (if checked then PatternKind.suspensionChecked
      else .suspensionUncheckedUnsafe).isSuspension = true := by
    cases checked <;> rfl
  unfold suspensionPatterns
  dsimp only
  split
  · exact .cons (hhere _ hkind) .nil
  · exact .cons (hhere _ hkind) (.cons ⟨⟨rfl, rfl⟩, fun _ => by simp⟩ .nil)

mutual

theorem deeper_elementPatterns (function : String) (depth suspensions : Nat) (e : BodyElement) :
    Forall₂ Pattern.Deeper (elementPatterns function depth suspensions e)
      (elementPatterns function (depth + 1) suspensions e) := by
  match e with
  | .stray v => exact .nil
  | .node kind line checked callee children =>
    unfold elementPatterns
    split
    · exact List.rel_append (deeper_suspensionPatterns function line checked callee depth suspensions)
        (deeper_forestPatterns function (depth + 1) (suspensions + 1) children)
    · exact .cons ⟨⟨rfl, rfl⟩, nofun⟩ (deeper_forestPatterns function depth suspensions children)
    · exact deeper_forestPatterns function (depth + 1) suspensions children
    · exact deeper_forestPatterns function depth suspensions children

/-- A body one closure further down shows the same patterns, each one level deeper. -/
theorem deeper_forestPatterns (function : String) (depth suspensions : Nat)
    (es : List BodyElement) :
    Forall₂ Pattern.Deeper (forestPatterns function depth suspensions es)
      (forestPatterns function (depth + 1) suspensions es) := by
  match es with
  | [] => exact .nil
  | e :: es =>
    exact List.rel_append (deeper_elementPatterns function depth suspensions e)
      (deeper_forestPatterns function depth suspensions es)

end

/-- A callback is as deep as the closures of the body are. -/
theorem deeper_declarationPatterns (s : Signature) (line : Int) (body : List BodyElement) :
    Forall₂ Pattern.Deeper (declarationPatterns s (closureDepth body))
      (declarationPatterns s (closureDepth [.closure line body])) := by
  have hdepth : closureDepth [.closure line body] = closureDepth body + 1 := by
    simp [closureDepth, elementClosureDepth, BodyElement.closure, NodeKind.ofName?]
  unfold declarationPatterns
  apply List.rel_append
  · split
    · exact .cons ⟨⟨rfl, rfl⟩, fun h => by cases h⟩ .nil
    · exact .nil
  · rw [List.forall₂_map_left_iff, List.forall₂_map_right_iff, List.forall₂_same]
    intro x _
    refine ⟨⟨rfl, rfl⟩, fun _ => ?_⟩
    simp only [hdepth]
    push_cast
    simp [Int.add_assoc]

/-! ## Scans -/

/-- A scan says the same one level deeper. -/
structure ScanReport.Deeper (r r' : ScanReport) : Prop where
  failure : r.failure = r'.failure
  patterns : Forall₂ Pattern.Deeper r.patterns r'.patterns

theorem firstFault?_closure {line : Int} (hline : 1 ≤ line) (body : List BodyElement) :
    firstFault? [.closure line body] = firstFault? body := by
  have hnot : ¬ line < 1 := by omega
  simp only [firstFault?, BodyElement.closure, elementFault?, NodeKind.ofName?, hnot]
  cases firstFault? body <;> simp

theorem deeper_scanOf {f : ParsedFunction} {body : List BodyElement} {line : Int} (u : SourceUnit)
    (hbody : f.body = some body) (hline : 1 ≤ line) :
    (u.scanOf f).Deeper (u.scanOf { f with body := some [.closure line body] }) := by
  unfold SourceUnit.scanOf
  rw [scanFunction_eq, scanFunction_eq, hbody]
  cases u.parseError with
  | some error => exact ⟨rfl, .nil⟩
  | none =>
    simp only [firstFault?_closure hline]
    cases firstFault? body with
    | some fault => exact ⟨rfl, .nil⟩
    | none =>
      refine ⟨rfl, List.rel_append (deeper_declarationPatterns f.signature line body) ?_⟩
      have hclosure : forestPatterns f.signature.name 0 0 [.closure line body]
          = forestPatterns f.signature.name 1 0 body := by
        simp [forestPatterns, elementPatterns, BodyElement.closure, NodeKind.ofName?]
      rw [hclosure]
      exact deeper_forestPatterns f.signature.name 0 0 body

theorem exists_of_mem_left {α β : Type} {R : α → β → Prop} {l : List α} {l' : List β} {a : α}
    (h : Forall₂ R l l') (ha : a ∈ l) : ∃ b ∈ l', R a b := by
  induction h with
  | nil => cases ha
  | @cons x y l l' hxy _ ih =>
    rcases List.mem_cons.1 ha with rfl | ha
    · exact ⟨y, List.mem_cons_self, hxy⟩
    · obtain ⟨b, hb, hab⟩ := ih ha
      exact ⟨b, List.mem_cons_of_mem _ hb, hab⟩

theorem exists_of_mem_right {α β : Type} {R : α → β → Prop} {l : List α} {l' : List β} {b : β}
    (h : Forall₂ R l l') (hb : b ∈ l') : ∃ a ∈ l, R a b :=
  exists_of_mem_left (R := flip R) (List.Forall₂.flip h) hb

/-- Where patterns are of the same kinds, the same ones are to be migrated. -/
theorem forall₂_migrationPatterns {R : Pattern → Pattern → Prop} {r r' : ScanReport}
    (hR : ∀ p p', R p p' → p.kind = p'.kind) (h : Forall₂ R r.patterns r'.patterns) :
    Forall₂ R r.migrationPatterns r'.migrationPatterns := by
  refine List.rel_filter ?_ h
  intro p p' hp
  simp [hR p p' hp]

namespace ScanReport.Deeper

variable {r r' : ScanReport}

/-- The greatest depth is one more, since it is not that of nested suspensions alone. -/
theorem maxNesting (h : r.Deeper r') (hlayered : Layered r.patterns) :
    r'.maxNesting = if r.migrationPatterns = [] then 0 else r.maxNesting + 1 := by
  have hps := forall₂_migrationPatterns (fun _ _ hp => hp.kind) h.patterns
  split
  · next hnil =>
    rw [hnil, List.forall₂_nil_left_iff] at hps
    exact maxNesting_of_nil hps
  · next hsome =>
    have hsome' : r'.migrationPatterns ≠ [] := by
      intro hnil
      rw [hnil, List.forall₂_nil_right_iff] at hps
      exact hsome hps
    obtain ⟨⟨p, hp, hdepth⟩, hmax⟩ := (maxNesting_eq_iff hsome).1 rfl
    -- if a nested suspension is of the greatest depth, then so is a suspension
    have htop : ∃ q ∈ r.migrationPatterns,
        q.kind ≠ .nestedSuspension ∧ q.nestedDepth = r.maxNesting := by
      by_cases hkind : p.kind = .nestedSuspension
      · obtain ⟨q, hq, hsuspension, hle⟩ := (hlayered p (List.mem_filter.1 hp).1).2 hkind
        have hmem : q ∈ r.migrationPatterns := by
          refine List.mem_filter.2 ⟨hq, ?_⟩
          cases hk : q.kind <;> simp_all [PatternKind.isSuspension, PatternKind.isMigration]
        refine ⟨q, hmem, ?_, ?_⟩
        · intro hk
          rw [hk] at hsuspension
          cases hsuspension
        · have hle' := hmax q hmem
          omega
      · exact ⟨p, hp, hkind, hdepth⟩
    obtain ⟨q, hq, hkind, htop⟩ := htop
    rw [maxNesting_eq_iff hsome']
    constructor
    · obtain ⟨q', hq', hdeeper⟩ := exists_of_mem_left hps hq
      refine ⟨q', hq', ?_⟩
      rw [hdeeper.depth (List.mem_filter.1 hq).2, if_neg hkind, htop]
    · intro p' hp'
      obtain ⟨p, hp, hdeeper⟩ := exists_of_mem_right hps hp'
      have hle := hmax p hp
      rw [hdeeper.depth (List.mem_filter.1 hp).2]
      split <;> omega

end ScanReport.Deeper

/-! ## Decisions -/

/-- Two entries have the same signature, and their scans show patterns of the same shape. -/
structure CatalogEntry.SameShape (e e' : CatalogEntry) : Prop where
  signature : e.signature = e'.signature
  failure : e.scan.failure = e'.scan.failure
  patterns : Forall₂ Pattern.SameShape e.scan.patterns e'.scan.patterns

namespace CatalogEntry.SameShape

variable {e e' : CatalogEntry}

theorem refl (e : CatalogEntry) : e.SameShape e :=
  ⟨rfl, rfl, List.forall₂_same.2 fun _ _ => ⟨rfl, rfl⟩⟩

theorem migrationPatterns (h : e.SameShape e') :
    Forall₂ Pattern.SameShape e.scan.migrationPatterns e'.scan.migrationPatterns :=
  forall₂_migrationPatterns (fun _ _ hp => hp.kind) h.patterns

theorem any_kind (h : e.SameShape e') (k : PatternKind) :
    e.scan.patterns.any (·.kind = k) = e'.scan.patterns.any (·.kind = k) := by
  have hps := h.patterns
  generalize e.scan.patterns = ps, e'.scan.patterns = ps' at hps ⊢
  induction hps with
  | nil => rfl
  | cons hp _ ih => rw [List.any_cons, List.any_cons, ih, hp.kind]

theorem soleSuspension? (h : e.SameShape e') :
    e.soleSuspension?.map (·.callee) = e'.soleSuspension?.map (·.callee) := by
  have hps := h.migrationPatterns
  unfold CatalogEntry.soleSuspension?
  generalize e.scan.migrationPatterns = ps, e'.scan.migrationPatterns = ps' at hps ⊢
  cases hps with
  | nil => rfl
  | cons hp hrest =>
    cases hrest with
    | nil =>
      simp only [hp.kind]
      split
      · exact congrArg some hp.callee
      · rfl
    | cons _ _ => rfl

end CatalogEntry.SameShape

namespace CallGraph

variable {g g' : CallGraph} {e e' : CatalogEntry} {n : Node}

theorem wrappedCallee?_congr (hways : SameWays (fun _ => True) g g') (he : e.SameShape e') :
    g.wrappedCallee? e = g'.wrappedCallee? e' := by
  have hsole := he.soleSuspension?
  have hcallees : g.resolvedCallees (.function e.name) = g'.resolvedCallees (.function e'.name) := by
    unfold resolvedCallees CatalogEntry.name
    rw [he.signature, hways.successors _ trivial]
  unfold wrappedCallee?
  rw [hcallees]
  cases hp : e.soleSuspension? with
  | none =>
    rw [hp, Option.map_none, eq_comm, Option.map_eq_none_iff] at hsole
    rw [hsole]
  | some p =>
    rw [hp, Option.map_some, eq_comm, Option.map_eq_some_iff] at hsole
    obtain ⟨p', hp', hcallee⟩ := hsole
    rw [hp']
    simp only [Option.bind_eq_bind, Option.bind_some, hcallee]

/-- Graphs that have the same ways, and entries of the same shape, come to the same decisions. -/
theorem decisionOn_congr (hways : SameWays (fun _ => True) g g')
    (hentries : ∀ name, Option.Rel CatalogEntry.SameShape (g.catalog.get? name) (g'.catalog.get? name))
    (he : e.SameShape e') (wrapped : NameSet) (n : Node) :
    g.decisionOn wrapped e n = g'.decisionOn wrapped e' n := by
  have hredundant : g.isRedundantWrapper e = g'.isRedundantWrapper e' := by
    unfold isRedundantWrapper
    rw [wrappedCallee?_congr hways he]
    cases g'.wrappedCallee? e' with
    | none => rfl
    | some callee =>
      have htarget := hentries callee
      dsimp only
      generalize g.catalog.get? callee = x, g'.catalog.get? callee = x' at htarget ⊢
      cases htarget with
      | none => rfl
      | some ht =>
        simp only [CatalogEntry.analyzable, ScanReport.analyzable, CatalogEntry.nativelyStructured,
          ht.failure, ht.signature, ht.any_kind .nativeStructured]
  have hname : e.name = e'.name := congrArg (·.name) he.signature
  have hempty : e.scan.migrationPatterns.isEmpty = e'.scan.migrationPatterns.isEmpty := by
    have hps := he.migrationPatterns
    generalize e.scan.migrationPatterns = ps, e'.scan.migrationPatterns = ps' at hps ⊢
    cases hps <;> rfl
  unfold decisionOn
  rw [he.failure]
  cases e'.scan.failure with
  | some failure => simp only [decideUnscanned, hname]
  | none =>
    simp only [decideScanned, remarks, hways.summaryOf trivial, hredundant, hname, hempty,
      he.any_kind .suspensionUncheckedUnsafe]

end CallGraph

/-! ## Units -/

/-- Units are given twice; the second time the first function of a name has its body put into a
closure. -/
inductive PutInClosure (name : String) (line : Int) : List SourceUnit → List SourceUnit → Prop
  | first {before after : List SourceUnit} {u : SourceUnit} {earlier later : List ParsedFunction}
      {f : ParsedFunction} {body : List BodyElement} (hname : f.signature.name = name)
      (hbody : f.body = some body)
      (hfirst : ¬ Defined (before ++ [{ u with functions := earlier }]) name) :
      PutInClosure name line
        (before ++ { u with functions := earlier ++ f :: later } :: after)
        (before ++ { u with
          functions := earlier ++ { f with body := some [.closure line body] } :: later } :: after)

namespace PutInClosure

variable {name other : String} {line : Int} {us vs : List SourceUnit}

theorem sameButBodies (h : PutInClosure name line us vs) : SameButBodies us vs := by
  have hrefl : ∀ units : List SourceUnit, SameButBodies units units := fun units =>
    List.forall₂_same.2 fun _ _ => ⟨rfl, rfl, rfl, rfl⟩
  cases h with
  | @first before after u earlier later f body hname hbody hfirst =>
    refine List.rel_append (hrefl before) (.cons ⟨rfl, rfl, ?_, rfl⟩ (hrefl after))
    simp

/-- The entries are the same, but for one that is found one level deeper. -/
theorem exists_entries (h : PutInClosure name line us vs) (hline : 1 ≤ line) :
    ∃ (es es' : List CatalogEntry) (e e' : CatalogEntry),
      us.flatMap (fun u => u.functions.map u.entryOf) = es ++ e :: es' ∧
      vs.flatMap (fun u => u.functions.map u.entryOf) = es ++ e' :: es' ∧
      (∀ x ∈ es, x.name ≠ name) ∧ e.name = name ∧ e.signature = e'.signature ∧
      e.scan.Deeper e'.scan ∧ Layered e.scan.patterns := by
  cases h with
  | @first before after u earlier later f body hname hbody hfirst =>
    have hentry : ∀ functions, ({ u with functions } : SourceUnit).entryOf = u.entryOf := fun _ => rfl
    refine ⟨before.flatMap (fun u => u.functions.map u.entryOf) ++ earlier.map u.entryOf,
      later.map u.entryOf ++ after.flatMap fun u => u.functions.map u.entryOf, u.entryOf f,
      u.entryOf { f with body := some [.closure line body] }, ?_, ?_, ?_, hname, rfl,
      deeper_scanOf u hbody hline, u.layered_scanOf f⟩
    · simp [hentry]
    · simp [hentry]
    · intro x hx hname
      refine hfirst ?_
      rcases List.mem_append.1 hx with hx | hx
      · obtain ⟨v, hv, hx⟩ := List.mem_flatMap.1 hx
        obtain ⟨k, hk, rfl⟩ := List.mem_map.1 hx
        exact ⟨v, List.mem_append_left _ hv, k, hk, hname⟩
      · obtain ⟨k, hk, rfl⟩ := List.mem_map.1 hx
        exact ⟨_, List.mem_append_right _ List.mem_cons_self, k, hk, hname⟩

theorem exists_get? (h : PutInClosure name line us vs) (hline : 1 ≤ line) :
    ∃ e e', (Catalog.ofUnits us).get? name = some e ∧ (Catalog.ofUnits vs).get? name = some e' ∧
      e.SameShape e' ∧ e.scan.Deeper e'.scan ∧ Layered e.scan.patterns := by
  obtain ⟨es, es', e, e', hus, hvs, hfirst, hname, hsignature, hdeeper, hlayered⟩ :=
    h.exists_entries hline
  have hnone : es.find? (·.name = name) = none := by simpa using hfirst
  have hname' : e'.name = name := (congrArg (·.name) hsignature).symm.trans hname
  have hshape : e.SameShape e' :=
    ⟨hsignature, hdeeper.failure, hdeeper.patterns.imp fun _ _ hp => hp.toSameShape⟩
  refine ⟨e, e', ?_, ?_, hshape, hdeeper, hlayered⟩
  · rw [Catalog.get?_ofUnits_eq_find?, hus, List.find?_append, hnone]
    simp [hname]
  · rw [Catalog.get?_ofUnits_eq_find?, hvs, List.find?_append, hnone]
    simp [hname']

theorem get?_of_ne (h : PutInClosure name line us vs) (hline : 1 ≤ line) (hne : other ≠ name) :
    (Catalog.ofUnits us).get? other = (Catalog.ofUnits vs).get? other := by
  obtain ⟨es, es', e, e', hus, hvs, -, hname, hsignature, -⟩ := h.exists_entries hline
  have hname' : e'.name = name := (congrArg (·.name) hsignature).symm.trans hname
  rw [Catalog.get?_ofUnits_eq_find?, Catalog.get?_ofUnits_eq_find?, hus, hvs, List.find?_append,
    List.find?_append, List.find?_cons_of_neg, List.find?_cons_of_neg]
  · simpa [hname'] using hne.symm
  · simpa [hname] using hne.symm

/-- All entries have the same shape. -/
theorem sameShape (h : PutInClosure name line us vs) (hline : 1 ≤ line) (other : String) :
    Option.Rel CatalogEntry.SameShape ((Catalog.ofUnits us).get? other)
      ((Catalog.ofUnits vs).get? other) := by
  by_cases hother : other = name
  · subst hother
    obtain ⟨e, e', he, he', hshape, -⟩ := h.exists_get? hline
    rw [he, he']
    exact .some hshape
  · rw [h.get?_of_ne hline hother]
    cases (Catalog.ofUnits vs).get? other with
    | none => exact .none
    | some e => exact .some (.refl e)

theorem decisionOn (h : PutInClosure name line us vs) (hline : 1 ≤ line) {e e' : CatalogEntry}
    (he : e.SameShape e') (wrapped : NameSet) (n : Node) :
    (CallGraph.ofUnits us).decisionOn wrapped e n = (CallGraph.ofUnits vs).decisionOn wrapped e' n := by
  refine CallGraph.decisionOn_congr h.sameButBodies.agreeOn.toSameWays (fun other => ?_) he wrapped n
  rw [CallGraph.catalog_ofUnits, CallGraph.catalog_ofUnits]
  exact h.sameShape hline other

theorem reportOf_of_ne (h : PutInClosure name line us vs) (hline : 1 ≤ line) (st : Settings) {n : Node}
    (hn : n ≠ .function name) :
    (CallGraph.ofUnits us).reportOf st n = (CallGraph.ofUnits vs).reportOf st n := by
  refine h.sameButBodies.agreeOn.reportOf trivial ?_ fun e _ => h.decisionOn hline (.refl e) _ n
  cases n with
  | sink s => rfl
  | function other =>
    rw [CallGraph.entry?_ofUnits_eq_get?, CallGraph.entry?_ofUnits_eq_get?]
    exact h.get?_of_ne hline fun heq => hn (congrArg Node.function heq)

/-- The entries of the function: the decision is the same, and the depth is one more. -/
theorem exists_entry? (h : PutInClosure name line us vs) (hline : 1 ≤ line) :
    ∃ e e', CallGraph.entry? (CallGraph.ofUnits us) (.function name) = some e ∧
      CallGraph.entry? (CallGraph.ofUnits vs) (.function name) = some e' ∧
      (∀ wrapped n, (CallGraph.ofUnits us).decisionOn wrapped e n
        = (CallGraph.ofUnits vs).decisionOn wrapped e' n) ∧
      0 ≤ e.scan.maxNesting ∧
      (e.scan.migrationPatterns ≠ [] → e'.scan.maxNesting = e.scan.maxNesting + 1) ∧
      (e.scan.migrationPatterns = [] → e.scan.maxNesting = 0 ∧ e'.scan.maxNesting = 0) := by
  obtain ⟨e, e', he, he', hshape, hdeeper, hlayered⟩ := h.exists_get? hline
  have hmax := hdeeper.maxNesting hlayered
  rw [← CallGraph.entry?_ofUnits_eq_get?] at he he'
  refine ⟨e, e', he, he', h.decisionOn hline hshape, ScanReport.maxNesting_nonneg hlayered, ?_, ?_⟩
  · intro hsome
    rw [hmax, if_neg hsome]
  · intro hnone
    rw [hmax, if_pos hnone]
    exact ⟨ScanReport.maxNesting_of_nil hnone, rfl⟩

end PutInClosure

namespace Session

variable {us vs : List SourceUnit} {name : String} {line : Int}

/-- **Nesting deeper never lowers a priority.** The body of a catalogued function is put into a
closure. The decision for the function and its constraints stay as they are, and so do the reports on
all other functions. The greatest depth of its patterns is one more, and still zero if it has none
that are to be migrated. Its tier is not lowered, where the weights are those of some table. -/
theorem nesting_raises (us vs : List SourceUnit) (st : Settings) (name : String) (line : Int)
    (h : PutInClosure name line us vs) (hline : 1 ≤ line) (hweights : st.priority.WeightsFromTable) :
    (∃ d c, ((start us st).ask (decide (.function name))).1 = .ok d ∧
      ((start vs st).ask (decide (.function name))).1 = .ok d ∧
      ((start us st).ask (summarize (.function name))).1 = .ok c ∧
      ((start vs st).ask (summarize (.function name))).1 = .ok c) ∧
    (∀ n, n ≠ .function name →
      ((start us st).ask (report n)).1 = ((start vs st).ask (report n)).1) ∧
    (∃ e e', (start us st).graph.catalog.get? name = some e ∧
      (start vs st).graph.catalog.get? name = some e' ∧
      (e.scan.migrationPatterns ≠ [] → e'.scan.maxNesting = e.scan.maxNesting + 1) ∧
      (e.scan.migrationPatterns = [] → e.scan.maxNesting = 0 ∧ e'.scan.maxNesting = 0)) ∧
    FoundUnless ((start us st).graph.Excessive (.function name))
      ((start us st).ask (report (.function name))).1 ∧
    FoundUnless ((start vs st).graph.Excessive (.function name))
      ((start vs st).ask (report (.function name))).1 ∧
    ∀ r r', ((start us st).ask (report (.function name))).1 = .ok r →
      ((start vs st).ask (report (.function name))).1 = .ok r' →
      r.decision = r'.decision ∧ r.constraints = r'.constraints ∧
        r.priority.tier.rank ≤ r'.priority.tier.rank := by
  have hagree := h.sameButBodies.agreeOn
  obtain ⟨e, e', he, he', hdecision, hnonneg, hdeeper, hnone⟩ := h.exists_entry? hline
  have hgraph : ∀ units, (start units st).graph = CallGraph.ofUnits units := fun _ => rfl
  simp only [decide_start, summarize_start, report_start, hgraph]
  refine ⟨?_, fun n hn => h.reportOf_of_ne hline st hn, ⟨e, e', he, he', hdeeper, hnone⟩,
    CallGraph.reportOf_found st (Option.isSome_iff_exists.2 ⟨e, he⟩),
    CallGraph.reportOf_found st (Option.isSome_iff_exists.2 ⟨e', he'⟩), fun r r' hr hr' => ?_⟩
  · refine ⟨_, _, CallGraph.decisionOf_eq_ok he _, ?_, rfl, ?_⟩
    · rw [CallGraph.decisionOf_eq_ok he', hdecision]
    · rw [hagree.summaryOf trivial]
  · have hdepth : e.scan.maxNesting ≤ e'.scan.maxNesting := by
      by_cases hps : e.scan.migrationPatterns = []
      · have := hnone hps
        omega
      · have := hdeeper hps
        omega
    have htier := CallGraph.rank_reportOf_le hweights.weighted he he' (hdecision _ _) ⟨hnonneg, hdepth⟩
      (hagree.callSiteCount _ trivial).le hr hr'
    obtain ⟨e₁, p, he₁, rfl⟩ := CallGraph.exists_reportOn hr
    obtain ⟨e₂, p', he₂, rfl⟩ := CallGraph.exists_reportOn hr'
    obtain rfl : e = e₁ := Option.some.inj (he.symm.trans he₁)
    obtain rfl : e' = e₂ := Option.some.inj (he'.symm.trans he₂)
    exact ⟨hdecision _ _, hagree.summaryOf trivial, htier⟩

/-- A function wraps another, which awaits something in suspensions within suspensions. The body of
the other is given. -/
def wrappedNest (body : List BodyElement) : List SourceUnit :=
  [{ functions := [⟨{ name := "f" }, some [.node "suspension" 1 true (some "g") []]⟩,
       ⟨{ name := "g" }, some body⟩]
     callSites := [{ caller := "f", callee := some "g" }] }]

/-- Suspensions within suspensions. -/
def flatNest : List SourceUnit :=
  wrappedNest [.node "suspension" 2 true none [.node "suspension" 3 false none
    [.node "suspension" 4 true none [.node "await" 5 true none []]]]]

/-- The same in a closure. -/
def deepNest : List SourceUnit :=
  wrappedNest [.closure 6 [.node "suspension" 2 true none [.node "suspension" 3 false none
    [.node "suspension" 4 true none [.node "await" 5 true none []]]]]]

/-- The closure lifts the nest to the highest tier; the wrapper is redundant as before. -/
theorem nesting_raises_deepNest :
    PutInClosure "g" 6 flatNest deepNest ∧
    (∃ r, ((start flatNest {}).ask (report (.function "f"))).1 = .ok r ∧
      ((start deepNest {}).ask (report (.function "f"))).1 = .ok r ∧
      r.decision.redundantWrapper = true) ∧
    ∃ r r', ((start flatNest {}).ask (report (.function "g"))).1 = .ok r ∧
      ((start deepNest {}).ask (report (.function "g"))).1 = .ok r' ∧
      r.decision = r'.decision ∧ r.priority.tier = .medium ∧ r'.priority.tier = .high := by
  have h : PutInClosure "g" 6 flatNest deepNest :=
    @PutInClosure.first "g" 6 [] [] { callSites := [{ caller := "f", callee := some "g" }] }
      [⟨{ name := "f" }, some [.node "suspension" 1 true (some "g") []]⟩] [] ⟨{ name := "g" }, _⟩ _
      rfl rfl (by decide)
  obtain ⟨-, hothers, -, -, -, hreports⟩ :=
    nesting_raises _ _ {} "g" 6 h (by decide) ⟨[], {}, rfl, rfl, rfl, rfl⟩
  have hwrapper : ((start flatNest {}).ask (report (.function "f"))).1.map
      (·.decision.redundantWrapper) = .ok true := by decide +kernel
  have htiers : ((start flatNest {}).ask (report (.function "g"))).1.map (·.priority.tier)
        = .ok .medium ∧
      ((start deepNest {}).ask (report (.function "g"))).1.map (·.priority.tier) = .ok .high := by
    decide +kernel
  refine ⟨h, ?_, ?_⟩
  · obtain ⟨r, hr, hredundant⟩ := map_eq_ok.1 hwrapper
    exact ⟨r, hr, (hothers _ (by decide)).symm.trans hr, hredundant⟩
  · obtain ⟨r, hr, htier⟩ := map_eq_ok.1 htiers.1
    obtain ⟨r', hr', htier'⟩ := map_eq_ok.1 htiers.2
    exact ⟨r, r', hr, hr', (hreports r r' hr hr').1, htier, htier'⟩

end Session
end AsyncMigration
